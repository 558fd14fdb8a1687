import Bsg.Central.Queue
import Bsg.Foundations.Run
import Mathlib.Data.Multiset.AddSub

/-!
# A queue and its consumer

Both services take messages from a Redis queue in the same way: at start-up they return what an
earlier run left in processing (`recover`, one `LMOVE` after the other), and then they consume a
message, handle it, and drop it or put it back. A `Station` is a queue with the place at which its
consumer is in this loop, and with the books that are kept on it: what was ever published, and what
was acked.

A consumer can stop at any place. A command may fail, and it may be executed although its reply is
lost. Whatever happens, no message appears or disappears: `Station.Sound` says that what was
published is what is in the queue, what is in processing and what was acked, and that the message in
the consumer's hand is in processing. Each operation keeps this.
-/

namespace Bsg.Central

open Bsg.Foundations

/-- What becomes of a command: it is executed and answered, it is executed and its reply is lost, or
it is not executed. -/
inductive Reply where
  | ok
  | lost
  | failed
  deriving DecidableEq, Repr

/-- The command is executed. -/
def Reply.executed : Reply → Bool
  | .ok => true
  | .lost => true
  | .failed => false

/-- Where a consumer is in its loop. -/
inductive Phase where
  | stopped
  /-- In the loop of `recover`. -/
  | recovering
  /-- About to consume. -/
  | ready
  /-- A message was consumed. -/
  | holding (rawMsg : Payload)
  /-- The message will be dropped. -/
  | acking (rawMsg : Payload)
  /-- The message will be put back. -/
  | requeueing (rawMsg : Payload)
  deriving DecidableEq, Repr

/-- The message that the consumer works on. -/
def Phase.inHand : Phase → Option Payload
  | .holding rawMsg => some rawMsg
  | .acking rawMsg => some rawMsg
  | .requeueing rawMsg => some rawMsg
  | _ => none

/-- The message that is about to be dropped. -/
def Phase.dropping : Phase → Option Payload
  | .acking rawMsg => some rawMsg
  | _ => none

/-- `LMOVE` from the processing list to the end of the queue. -/
def RedisQueue.recoverNext (q : RedisQueue) : RedisQueue :=
  match q.processing with
  | [] => q
  | payload :: rest => ⟨q.queue ++ [payload], rest⟩

/-- A queue with its consumer and the books that are kept on it. -/
structure Station where
  queue : RedisQueue
  phase : Phase
  published : List Payload
  acked : List Payload
  deriving DecidableEq, Repr

namespace Station

/-- Nothing was published, and the consumer has not started. -/
def empty : Station := ⟨.empty, .stopped, [], []⟩

/-- A message is published. -/
def publish (s : Station) (r : Reply) (payload : Payload) : Station :=
  if r.executed then
    { s with queue := s.queue.publish payload, published := s.published ++ [payload] }
  else s

/-- The consumer starts. -/
def start (s : Station) : Station :=
  if s.phase = .stopped then { s with phase := .recovering } else s

/-- The consumer stops, wherever it is. -/
def crash (s : Station) : Station := { s with phase := .stopped }

/-- The consumer turns to another place of its loop. -/
def turn (s : Station) (phase : Phase) : Station := { s with phase := phase }

/-- One command of `recover`. It ends when nothing is left, and at the first error. -/
def recoverNext (s : Station) : Reply → Station
  | .ok =>
    if s.queue.processing = [] then s.turn .ready else { s with queue := s.queue.recoverNext }
  | .lost => { s with queue := s.queue.recoverNext, phase := .ready }
  | .failed => s.turn .ready

/-- The command of `consume`. An empty message is passed over. -/
def consumeNext (s : Station) (r : Reply) : Station :=
  match r, s.queue.consume with
  | .ok, (some rawMsg, queue) =>
    { s with queue := queue, phase := if rawMsg = [] then .ready else .holding rawMsg }
  | .lost, (_, queue) => { s with queue := queue }
  | _, _ => s

/-- The command of `ack`; an error is only logged. -/
def ackHeld (s : Station) (r : Reply) (rawMsg : Payload) : Station :=
  if r.executed then
    { s with queue := s.queue.ack rawMsg, phase := .ready, acked := s.acked ++ [rawMsg] }
  else s.turn .ready

/-- The transaction of `requeue`; an error is only logged. -/
def requeueHeld (s : Station) (r : Reply) (rawMsg : Payload) : Station :=
  if r.executed then { s with queue := s.queue.requeue rawMsg, phase := .ready }
  else s.turn .ready

/-- The next command of the consumer. What it does with a message in its hand is up to the
service. -/
def advance (s : Station) (r : Reply) : Station :=
  match s.phase with
  | .recovering => s.recoverNext r
  | .ready => s.consumeNext r
  | .acking rawMsg => s.ackHeld r rawMsg
  | .requeueing rawMsg => s.requeueHeld r rawMsg
  | _ => s

/-! ## No message is lost or made up -/

/-- What was published is in the queue, in processing, or was acked. -/
def Conserved (s : Station) : Prop :=
  (s.published : Multiset Payload) = s.queue.queue + s.queue.processing + s.acked

/-- The books are right, and what the consumer works on is in processing. -/
structure Sound (s : Station) : Prop where
  conserved : s.Conserved
  inHand : ∀ rawMsg ∈ s.phase.inHand, rawMsg ∈ s.queue.processing

/-- Every message was published as often as it is queued, in processing or acknowledged. -/
theorem conserved_iff {s : Station} : s.Conserved ↔ ∀ m : Payload, s.published.count m =
    s.queue.queue.count m + s.queue.processing.count m + s.acked.count m := by
  rw [Conserved, Multiset.coe_add, Multiset.coe_add, Multiset.coe_eq_coe, List.perm_iff_count]
  simp only [List.count_append]

/-- What was published of one kind is still there, or was acked. -/
theorem Conserved.countP_published {s : Station} (h : s.Conserved) (p : Payload → Bool) :
    s.published.countP p =
      s.queue.queue.countP p + s.queue.processing.countP p + s.acked.countP p := by
  rw [Conserved, Multiset.coe_add, Multiset.coe_add, Multiset.coe_eq_coe] at h
  rw [h.countP_eq, List.countP_append, List.countP_append]

/-- At the beginning nothing was published. -/
theorem sound_empty : empty.Sound := ⟨rfl, fun _ h => by cases h⟩

variable {s : Station}

/-- Only the queue, the processing list and the books count. -/
theorem Sound.of_eq {s' : Station} (h : s.Sound) (hqueue : s'.queue = s.queue)
    (hpublished : s'.published = s.published) (hacked : s'.acked = s.acked)
    (hphase : s'.phase.inHand = none ∨ s'.phase.inHand = s.phase.inHand) : s'.Sound where
  conserved := by
    rw [Conserved, hqueue, hpublished, hacked]
    exact h.conserved
  inHand rawMsg hm := by
    rcases hphase with hnone | hsame
    · rw [hnone] at hm
      cases hm
    · rw [hsame] at hm
      rw [hqueue]
      exact h.inHand rawMsg hm

/-- Publishing keeps a station sound, whether the command succeeds or not. -/
theorem Sound.publish (h : s.Sound) (r : Reply) (payload : Payload) : (s.publish r payload).Sound := by
  unfold Station.publish
  split_ifs
  · refine ⟨conserved_iff.mpr fun m => ?_, h.inHand⟩
    have hm := conserved_iff.mp h.conserved m
    simp only [RedisQueue.publish, List.count_append]
    omega
  · exact h

/-- So does a start of the worker. -/
theorem Sound.start (h : s.Sound) : s.start.Sound := by
  unfold Station.start
  split_ifs
  · exact h.of_eq rfl rfl rfl (Or.inl rfl)
  · exact h

/-- So does a crash. -/
theorem Sound.crash (h : s.Sound) : s.crash.Sound := h.of_eq rfl rfl rfl (Or.inl rfl)

/-- The consumer lets go of its message, or goes on with the same. -/
theorem Sound.turn (h : s.Sound) {phase : Phase}
    (hphase : phase.inHand = none ∨ phase.inHand = s.phase.inHand) : (s.turn phase).Sound :=
  h.of_eq rfl rfl rfl hphase

/-- Returning a message moves it between the lists. -/
theorem Sound.returned (h : s.Sound) {phase : Phase} (hphase : phase.inHand = none) :
    ({ s with queue := s.queue.recoverNext, phase := phase } : Station).Sound := by
  refine ⟨conserved_iff.mpr fun m => ?_, fun rawMsg hm => ?_⟩
  · have hm := conserved_iff.mp h.conserved m
    unfold RedisQueue.recoverNext
    cases hprocessing : s.queue.processing with
    | nil => simpa [hprocessing] using hm
    | cons payload rest =>
      rw [hprocessing, List.count_cons] at hm
      simp only [List.count_append, List.count_singleton]
      omega
  · rw [hphase] at hm
    cases hm

/-- So does each step of the recovery. -/
theorem Sound.recoverNext (h : s.Sound) (hphase : s.phase = .recovering) (r : Reply) :
    (s.recoverNext r).Sound := by
  cases r with
  | ok =>
    unfold Station.recoverNext
    split_ifs
    · exact h.turn (Or.inl rfl)
    · exact h.returned (by rw [hphase]; rfl)
  | lost => exact h.returned rfl
  | failed => exact h.turn (Or.inl rfl)

/-- Consuming moves the first message to the end of the processing list. -/
theorem Sound.consumed (h : s.Sound) {rawMsg : Payload} {rest : List Payload}
    (hqueue : s.queue.queue = rawMsg :: rest) {phase : Phase}
    (hphase : ∀ m ∈ phase.inHand, m = rawMsg) :
    ({ s with queue := ⟨rest, s.queue.processing ++ [rawMsg]⟩, phase := phase } : Station).Sound := by
  refine ⟨conserved_iff.mpr fun m => ?_, fun m hm => ?_⟩
  · have hm := conserved_iff.mp h.conserved m
    rw [hqueue, List.count_cons] at hm
    simp only [List.count_append, List.count_singleton]
    omega
  · rw [hphase m hm]
    exact List.mem_append_right _ (List.mem_singleton_self _)

/-- So does taking the next message. -/
theorem Sound.consumeNext (h : s.Sound) (hphase : s.phase = .ready) (r : Reply) :
    (s.consumeNext r).Sound := by
  unfold Station.consumeNext RedisQueue.consume
  cases hqueue : s.queue.queue with
  | nil => cases r <;> exact h
  | cons rawMsg rest =>
    cases r with
    | ok =>
      refine h.consumed hqueue fun m hm => ?_
      split_ifs at hm
      · cases hm
      · exact (Option.some_inj.mp hm).symm
    | lost =>
      refine h.consumed hqueue fun m hm => ?_
      rw [hphase] at hm
      cases hm
    | failed => exact h

/-- A message is in processing when it is dropped: it is the one that is removed. -/
theorem Sound.ackHeld (h : s.Sound) {rawMsg : Payload} (hhand : s.phase.inHand = some rawMsg)
    (r : Reply) : (s.ackHeld r rawMsg).Sound := by
  unfold Station.ackHeld
  split_ifs
  · refine ⟨conserved_iff.mpr fun m => ?_, fun _ hm => by cases hm⟩
    have hm := conserved_iff.mp h.conserved m
    have hmem := List.count_pos_iff.mpr (h.inHand rawMsg hhand)
    simp only [RedisQueue.ack, List.count_append, List.count_erase, List.count_singleton]
    split_ifs with heq
    · have heq : rawMsg = m := eq_of_beq heq
      subst heq
      omega
    · omega
  · exact h.turn (Or.inl rfl)

/-- So does putting the message back. -/
theorem Sound.requeueHeld (h : s.Sound) {rawMsg : Payload} (hhand : s.phase.inHand = some rawMsg)
    (r : Reply) : (s.requeueHeld r rawMsg).Sound := by
  unfold Station.requeueHeld
  split_ifs
  · refine ⟨conserved_iff.mpr fun m => ?_, fun _ hm => by cases hm⟩
    have hm := conserved_iff.mp h.conserved m
    have hmem := List.count_pos_iff.mpr (h.inHand rawMsg hhand)
    simp only [RedisQueue.requeue, List.count_append, List.count_erase, List.count_singleton]
    split_ifs with heq
    · have heq : rawMsg = m := eq_of_beq heq
      subst heq
      omega
    · omega
  · exact h.turn (Or.inl rfl)

/-- Every command of the consumer keeps the books right. -/
theorem Sound.advance (h : s.Sound) (r : Reply) : (s.advance r).Sound := by
  unfold Station.advance
  cases hphase : s.phase with
  | recovering => exact h.recoverNext hphase r
  | ready => exact h.consumeNext hphase r
  | acking rawMsg => exact h.ackHeld (by rw [hphase]; rfl) r
  | requeueing rawMsg => exact h.requeueHeld (by rw [hphase]; rfl) r
  | _ => exact h

/-! ## What is acked -/

/-- A consumer acks the message that it is about to drop, and no other. -/
theorem acked_advance (s : Station) (r : Reply) :
    (s.advance r).phase.dropping = none ∧
      ((s.advance r).acked = s.acked ∨
        ∃ rawMsg, s.phase.dropping = some rawMsg ∧ (s.advance r).acked = s.acked ++ [rawMsg]) := by
  unfold advance
  cases hphase : s.phase with
  | stopped => exact ⟨by rw [hphase]; rfl, Or.inl rfl⟩
  | holding rawMsg => exact ⟨by rw [hphase]; rfl, Or.inl rfl⟩
  | recovering =>
    cases r with
    | ok =>
      dsimp only [recoverNext]
      split_ifs
      · exact ⟨rfl, Or.inl rfl⟩
      · exact ⟨by rw [hphase]; rfl, Or.inl rfl⟩
    | lost => exact ⟨rfl, Or.inl rfl⟩
    | failed => exact ⟨rfl, Or.inl rfl⟩
  | ready =>
    dsimp only [consumeNext, RedisQueue.consume]
    cases s.queue.queue with
    | nil => cases r <;> exact ⟨by rw [hphase]; rfl, Or.inl rfl⟩
    | cons rawMsg rest =>
      cases r with
      | ok =>
        refine ⟨?_, Or.inl rfl⟩
        dsimp only
        split_ifs <;> rfl
      | lost => exact ⟨by rw [hphase]; rfl, Or.inl rfl⟩
      | failed => exact ⟨by rw [hphase]; rfl, Or.inl rfl⟩
  | acking rawMsg =>
    -- The one step that acknowledges, when the command is carried out.
    dsimp only [ackHeld]
    split_ifs
    · exact ⟨rfl, Or.inr ⟨rawMsg, rfl, rfl⟩⟩
    · exact ⟨rfl, Or.inl rfl⟩
  | requeueing rawMsg =>
    dsimp only [requeueHeld]
    split_ifs <;> exact ⟨rfl, Or.inl rfl⟩

/-- A consumer publishes nothing on its own queue. -/
theorem published_advance (s : Station) (r : Reply) : (s.advance r).published = s.published := by
  unfold advance
  cases s.phase with
  | recovering =>
    cases r with
    | ok =>
      dsimp only [recoverNext]
      split_ifs <;> rfl
    | lost => rfl
    | failed => rfl
  | ready =>
    dsimp only [consumeNext]
    split <;> rfl
  | acking rawMsg =>
    dsimp only [ackHeld]
    split_ifs <;> rfl
  | requeueing rawMsg =>
    dsimp only [requeueHeld]
    split_ifs <;> rfl
  | _ => rfl

/-- The messages that were acked, and the one that will be. -/
def dropped (s : Station) : List Payload := s.acked ++ s.phase.dropping.toList

/-- No more messages were acknowledged than dropped. -/
theorem countP_acked_le_dropped (p : Payload → Bool) (s : Station) :
    s.acked.countP p ≤ s.dropped.countP p := by
  rw [dropped, List.countP_append]
  exact Nat.le_add_right _ _

/-- A command of the consumer drops nothing new. -/
theorem countP_dropped_advance (p : Payload → Bool) (s : Station) (r : Reply) :
    (s.advance r).dropped.countP p ≤ s.dropped.countP p := by
  obtain ⟨hnone, hsame | ⟨rawMsg, hdropping, hacked⟩⟩ := s.acked_advance r
  · rw [dropped, hnone, hsame, Option.toList_none, List.append_nil]
    exact s.countP_acked_le_dropped p
  · rw [dropped, hnone, hacked, Option.toList_none, List.append_nil, dropped, hdropping,
      Option.toList_some]

/-! ## The whole of `recover` -/

/-- When nothing goes wrong, `recover` returns all that is in processing. -/
theorem run_advance_recovering (hphase : s.phase = .recovering) :
    run advance s (List.replicate (s.queue.processing.length + 1) .ok) =
      { s with queue := s.queue.recover, phase := .ready } := by
  obtain ⟨⟨queue, processing⟩, phase, published, acked⟩ := s
  obtain rfl : phase = .recovering := hphase
  induction processing generalizing queue with
  | nil => simp [List.replicate, advance, recoverNext, turn, RedisQueue.recover]
  | cons payload rest ih =>
    have hreturned := ih (queue ++ [payload])
    rw [List.length_cons, List.replicate_succ, run_cons]
    refine Eq.trans hreturned ?_
    simp [RedisQueue.recover]

end Station

end Bsg.Central
