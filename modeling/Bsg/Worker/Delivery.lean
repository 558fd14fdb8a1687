import Bsg.Central.Station
import Bsg.Worker.Worker

/-!
# The pipeline between the services

central-service and one worker on their two queues: messages are put on the ingress queue, the
worker consumes them and publishes its answers on the egress queue, and the listener of
central-service consumes those. Either may crash at any place of its loop and start again, and any
command may fail (`main.go`, `ListenForSubmissionData`).

In every run no message is lost or made up on either queue, and the worker drops a message that it
takes only after it has published the answer to it, once for each copy (`delivery`).
-/

namespace Bsg.Worker

open Bsg.Foundations Bsg.Central

/-- The two queues, each with its consumer. -/
structure Services where
  ingress : Station
  egress : Station
  deriving DecidableEq, Repr

/-- What happens next; commands come with what becomes of them. -/
inductive ServiceEvent where
  /-- `AddSubmissionToQueue` publishes a message. -/
  | submit (r : Reply) (rawMsg : Payload)
  | workerStarts
  | workerCrashes
  /-- The next command of the worker. -/
  | worker (r : Reply)
  | listenerStarts
  | listenerCrashes
  /-- The next command of the listener, or whether the message in its hand met a transient error. -/
  | listener (r : Reply) (transient : Bool)
  deriving DecidableEq, Repr

namespace Services

/-- Nothing was published, and nobody has started. -/
def start : Services := ⟨.empty, .empty⟩

/-- The next command of the worker. A message in its hand is answered, or dropped as poison; when
the answer cannot be published, the message is put back. -/
def work (s : Services) (r : Reply) : Services :=
  match s.ingress.phase with
  | .holding rawMsg =>
    match answer rawMsg with
    | none => { s with ingress := s.ingress.turn (.acking rawMsg) }
    | some payload =>
      ⟨s.ingress.turn (if r = .ok then .acking rawMsg else .requeueing rawMsg),
        s.egress.publish r payload⟩
  | _ => { s with ingress := s.ingress.advance r }

/-- The next command of the listener. A message in its hand is processed, which tells whether it is
dropped or put back. -/
def listen (s : Services) (r : Reply) (transient : Bool) : Services :=
  match s.egress.phase with
  | .holding rawMsg =>
    { s with egress := s.egress.turn (if transient then .requeueing rawMsg else .acking rawMsg) }
  | _ => { s with egress := s.egress.advance r }

/-- The state after an event. -/
def step (s : Services) : ServiceEvent → Services
  | .submit r rawMsg => { s with ingress := s.ingress.publish r rawMsg }
  | .workerStarts => { s with ingress := s.ingress.start }
  | .workerCrashes => { s with ingress := s.ingress.crash }
  | .worker r => s.work r
  | .listenerStarts => { s with egress := s.egress.start }
  | .listenerCrashes => { s with egress := s.egress.crash }
  | .listener r transient => s.listen r transient

end Services

/-- An undisturbed round of the worker's loop, for a message that is not empty: its three commands
do to the queues what `work` does. -/
theorem run_round {s : Services} {rawMsg : Payload} {rest : List Payload}
    (hready : s.ingress.phase = .ready) (hqueue : s.ingress.queue.queue = rawMsg :: rest)
    (hraw : rawMsg ≠ []) (publishFails : Bool) :
    ((run Services.step s [.worker .ok, .worker (if publishFails then .failed else .ok),
        .worker .ok]).ingress.queue,
      (run Services.step s [.worker .ok, .worker (if publishFails then .failed else .ok),
        .worker .ok]).egress.queue) = work publishFails s.ingress.queue s.egress.queue := by
  obtain ⟨⟨⟨queue, processing⟩, phase, published, acked⟩, egress⟩ := s
  obtain rfl : phase = .ready := hready
  obtain rfl : queue = rawMsg :: rest := hqueue
  have hconsumed : Services.step ⟨⟨⟨rawMsg :: rest, processing⟩, .ready, published, acked⟩, egress⟩
      (.worker .ok) =
        ⟨⟨⟨rest, processing ++ [rawMsg]⟩, .holding rawMsg, published, acked⟩, egress⟩ := by
    simp [Services.step, Services.work, Station.advance, Station.consumeNext, RedisQueue.consume,
      hraw]
  rw [run_cons, hconsumed]
  unfold work RedisQueue.consume
  cases hanswer : answer rawMsg with
  | none => simp [Services.step, Services.work, hanswer, Station.turn, Station.advance,
      Station.ackHeld, Reply.executed]
  | some payload =>
    cases publishFails <;>
      simp [Services.step, Services.work, hanswer, Station.turn, Station.advance, Station.ackHeld,
        Station.requeueHeld, Station.publish, Reply.executed]

/-! ## Answers -/

/-- A message that the worker takes, about this submission and with this verdict. -/
def asks (submissionId : ℕ) (verdict : String) (rawMsg : Payload) : Bool :=
  decide (∃ msg ∈ SubmissionIngressDTO.unmarshal rawMsg, validateIngressMessage msg = none ∧
    msg.submissionId = submissionId ∧ msg.verdict = verdict)

/-- An answer about this submission with this verdict. -/
def answers (submissionId : ℕ) (verdict : String) (payload : Payload) : Bool :=
  decide (∃ msg ∈ SubmissionEgressDTO.unmarshal payload,
    msg.submissionId = submissionId ∧ msg.verdict = verdict)

/-- What the worker publishes for a message that it takes is an answer to it. -/
theorem answers_of_asks {submissionId : ℕ} {verdict : String} {rawMsg : Payload}
    (h : asks submissionId verdict rawMsg = true) :
    ∃ payload, answer rawMsg = some payload ∧ answers submissionId verdict payload = true := by
  obtain ⟨msg, hread, hvalid, rfl, rfl⟩ := of_decide_eq_true h
  have hanswer := answer_of_unmarshal hread hvalid
  have hword := SubmissionIngressDTO.submissionId_lt hread
  refine ⟨_, hanswer, decide_eq_true ⟨egressMessage msg, ?_, rfl, rfl⟩⟩
  rw [SubmissionEgressDTO.unmarshal_marshal rfl]
  exact if_pos hword

/-! ## Every run -/

/-- What holds of the two queues: nothing is lost or made up, every copy of a message that the
worker takes is dropped only after an answer of its own was published, and so is answered or still
there. -/
structure Services.Delivers (s : Services) : Prop where
  ingress : s.ingress.Conserved
  egress : s.egress.Conserved
  acked : ∀ submissionId verdict, s.ingress.acked.countP (asks submissionId verdict) ≤
    s.egress.published.countP (answers submissionId verdict)
  after : ∀ e rawMsg, (s.step e).ingress.acked = s.ingress.acked ++ [rawMsg] →
    ∀ submissionId verdict, asks submissionId verdict rawMsg = true →
      s.ingress.acked.countP (asks submissionId verdict) <
        s.egress.published.countP (answers submissionId verdict)
  kept : ∀ submissionId verdict, s.ingress.published.countP (asks submissionId verdict) ≤
    s.ingress.queue.queue.countP (asks submissionId verdict) +
      s.ingress.queue.processing.countP (asks submissionId verdict) +
      s.egress.published.countP (answers submissionId verdict)

namespace Services

/-- What the steps keep: both books are right, and what the worker dropped or will drop is
answered. -/
structure Sound (s : Services) : Prop where
  ingress : s.ingress.Sound
  egress : s.egress.Sound
  answered : ∀ submissionId verdict, s.ingress.dropped.countP (asks submissionId verdict) ≤
    s.egress.published.countP (answers submissionId verdict)

/-- At first both queues are sound. -/
theorem sound_start : start.Sound := ⟨Station.sound_empty, Station.sound_empty, fun _ _ => le_rfl⟩

variable {s : Services}

/-- No more copies are acknowledged than there are answers. -/
theorem Sound.countP_acked_le (h : s.Sound) (submissionId : ℕ) (verdict : String) :
    s.ingress.acked.countP (asks submissionId verdict) ≤
      s.egress.published.countP (answers submissionId verdict) := calc
  s.ingress.acked.countP (asks submissionId verdict)
  _ ≤ s.ingress.dropped.countP (asks submissionId verdict) := s.ingress.countP_acked_le_dropped _
  _ ≤ s.egress.published.countP (answers submissionId verdict) := h.answered submissionId verdict

/-- What the worker decides to drop counts only when it asks for an answer. -/
theorem countP_dropped_acking (p : Payload → Bool) (t : Station) (rawMsg : Payload) :
    (t.turn (.acking rawMsg)).dropped.countP p = t.acked.countP p + if p rawMsg then 1 else 0 := by
  have hdropped : (t.turn (.acking rawMsg)).dropped = t.acked ++ [rawMsg] := rfl
  rw [hdropped, List.countP_append, List.countP_singleton]

/-- A message that is put back is not dropped. -/
theorem countP_dropped_requeueing (p : Payload → Bool) (t : Station) (rawMsg : Payload) :
    (t.turn (.requeueing rawMsg)).dropped.countP p = t.acked.countP p := by
  have hdropped : (t.turn (.requeueing rawMsg)).dropped = t.acked ++ [] := rfl
  rw [hdropped, List.append_nil]

/-- A message in the worker's hand is answered before it is dropped. -/
theorem Sound.work (h : s.Sound) (r : Reply) : (s.work r).Sound := by
  unfold Services.work
  have hacked : ∀ submissionId verdict, s.ingress.acked.countP (asks submissionId verdict) ≤
      s.egress.published.countP (answers submissionId verdict) := fun submissionId verdict =>
    (s.ingress.countP_acked_le_dropped _).trans (h.answered submissionId verdict)
  have hadvance : ({ s with ingress := s.ingress.advance r } : Services).Sound :=
    ⟨h.ingress.advance r, h.egress, fun submissionId verdict =>
      (s.ingress.countP_dropped_advance _ r).trans (h.answered submissionId verdict)⟩
  cases hphase : s.ingress.phase with
  | holding rawMsg =>
    have hturn : ∀ phase : Phase, phase.inHand = some rawMsg → (s.ingress.turn phase).Sound :=
      fun phase hhand => h.ingress.turn (Or.inr (by rw [hphase, hhand]; rfl))
    dsimp only
    cases hanswer : answer rawMsg with
    | none =>
      -- poison asks for no answer
      refine ⟨hturn _ rfl, h.egress, fun submissionId verdict => ?_⟩
      have hpoison : ¬ asks submissionId verdict rawMsg = true := by
        intro hasks
        obtain ⟨payload, hpayload, -⟩ := answers_of_asks hasks
        rw [hanswer] at hpayload
        cases hpayload
      rw [countP_dropped_acking, if_neg hpoison]
      exact hacked submissionId verdict
    | some payload =>
      refine ⟨?_, h.egress.publish r payload, fun submissionId verdict => ?_⟩
      · dsimp only
        split_ifs <;> exact hturn _ rfl
      have hold := hacked submissionId verdict
      have hasks : asks submissionId verdict rawMsg = true →
          answers submissionId verdict payload = true := by
        intro hasks
        obtain ⟨payload', hpayload, hanswers⟩ := answers_of_asks hasks
        rw [hanswer] at hpayload
        cases hpayload
        exact hanswers
      cases r with
      | ok =>
        have hpublished : (s.egress.publish .ok payload).published =
            s.egress.published ++ [payload] := rfl
        rw [if_pos rfl, countP_dropped_acking, hpublished, List.countP_append,
          List.countP_singleton]
        split_ifs with hraw hpayload hpayload
        · omega
        · exact absurd (hasks hraw) hpayload
        · omega
        · omega
      | lost =>
        have hpublished : (s.egress.publish .lost payload).published =
            s.egress.published ++ [payload] := rfl
        rw [if_neg (by decide), countP_dropped_requeueing, hpublished, List.countP_append]
        omega
      | failed =>
        rw [if_neg (by decide), countP_dropped_requeueing]
        exact hold
  | _ => exact hadvance

/-- The listener takes answers, and publishes none. -/
theorem listen_egress (h : s.Sound) (r : Reply) (transient : Bool) :
    (s.listen r transient).egress.Sound ∧
      (s.listen r transient).egress.published = s.egress.published := by
  unfold listen
  cases hphase : s.egress.phase with
  | holding rawMsg =>
    refine ⟨h.egress.turn (Or.inr ?_), rfl⟩
    rw [hphase]
    split_ifs <;> rfl
  | _ => exact ⟨h.egress.advance r, s.egress.published_advance r⟩

/-- The listener leaves the queue of the worker. -/
theorem listen_ingress (s : Services) (r : Reply) (transient : Bool) :
    (s.listen r transient).ingress = s.ingress := by
  unfold listen
  split <;> rfl

/-- Every step keeps the books, and the answers ahead of the acks. -/
theorem Sound.step (h : s.Sound) (e : ServiceEvent) : (s.step e).Sound := by
  -- Each event moves one of the two stations, and the other one stays.
  cases e with
  | submit r rawMsg =>
    refine ⟨h.ingress.publish r rawMsg, h.egress, fun submissionId verdict => ?_⟩
    have hsame : (s.ingress.publish r rawMsg).dropped = s.ingress.dropped := by
      unfold Station.publish
      split_ifs <;> rfl
    exact (congrArg _ hsame).trans_le (h.answered submissionId verdict)
  | workerStarts =>
    refine ⟨h.ingress.start, h.egress, fun submissionId verdict => ?_⟩
    have hsame : s.ingress.start.dropped = s.ingress.dropped := by
      unfold Station.start
      split_ifs with hstopped
      · rw [Station.dropped, Station.dropped, hstopped]
        rfl
      · rfl
    exact (congrArg _ hsame).trans_le (h.answered submissionId verdict)
  | workerCrashes =>
    refine ⟨h.ingress.crash, h.egress, fun submissionId verdict => ?_⟩
    have hacked : s.ingress.crash.dropped = s.ingress.acked := List.append_nil _
    show s.ingress.crash.dropped.countP _ ≤ _
    rw [hacked]
    exact h.countP_acked_le submissionId verdict
  | worker r => exact h.work r
  | listenerStarts =>
    refine ⟨h.ingress, h.egress.start, fun submissionId verdict => ?_⟩
    have hsame : s.egress.start.published = s.egress.published := by
      unfold Station.start
      split_ifs <;> rfl
    exact (h.answered submissionId verdict).trans_eq (congrArg _ hsame.symm)
  | listenerCrashes => exact ⟨h.ingress, h.egress.crash, h.answered⟩
  | listener r transient =>
    obtain ⟨hegress, hpublished⟩ := listen_egress h r transient
    have hingress := s.listen_ingress r transient
    refine ⟨hingress ▸ h.ingress, hegress, fun submissionId verdict => ?_⟩
    show (s.listen r transient).ingress.dropped.countP _ ≤
      (s.listen r transient).egress.published.countP _
    rw [hingress, hpublished]
    exact h.answered submissionId verdict

/-- Only the message that the worker is about to drop is acked. -/
theorem acked_step {e : ServiceEvent} {rawMsg : Payload}
    (h : (s.step e).ingress.acked = s.ingress.acked ++ [rawMsg]) :
    s.ingress.phase.dropping = some rawMsg := by
  have hother : ∀ t : Station, t.acked = s.ingress.acked →
      t.acked ≠ s.ingress.acked ++ [rawMsg] := fun t hsame hmore => by
    simpa using hsame.symm.trans hmore
  -- A consumer acks only what it is about to drop.
  have hadvance : ∀ r, (s.ingress.advance r).acked = s.ingress.acked ++ [rawMsg] →
      s.ingress.phase.dropping = some rawMsg := by
    intro r hmore
    obtain ⟨-, hsame | ⟨rawMsg', hdropping, hacked⟩⟩ := s.ingress.acked_advance r
    · exact absurd hmore (hother _ hsame)
    · rw [hacked] at hmore
      obtain rfl : rawMsg' = rawMsg := by simpa using hmore
      exact hdropping
  -- Only the turns of the worker touch its acks.
  cases e with
  | worker r =>
    change (s.work r).ingress.acked = _ at h
    unfold work at h
    cases hphase : s.ingress.phase with
    | holding held =>
      rw [hphase] at h
      dsimp only at h
      cases hanswer : answer held <;> rw [hanswer] at h <;> exact absurd h (hother _ rfl)
    | _ =>
      rw [hphase] at h
      exact hphase ▸ hadvance r h
  | submit r raw =>
    refine absurd h (hother _ ?_)
    show (s.ingress.publish r raw).acked = _
    unfold Station.publish
    split_ifs <;> rfl
  | workerStarts =>
    refine absurd h (hother _ ?_)
    show s.ingress.start.acked = _
    unfold Station.start
    split_ifs <;> rfl
  | listener r transient =>
    refine absurd h (hother _ ?_)
    exact congrArg Station.acked (s.listen_ingress r transient)
  | _ => exact absurd h (hother _ rfl)

/-- What the steps keep is what is wanted. -/
theorem Sound.delivers (h : s.Sound) : s.Delivers where
  ingress := h.ingress.conserved
  egress := h.egress.conserved
  acked := h.countP_acked_le
  after e rawMsg hacked submissionId verdict hasks := by
    have hanswered := h.answered submissionId verdict
    rw [Station.dropped, acked_step hacked, Option.toList_some, List.countP_append,
      List.countP_singleton, if_pos hasks] at hanswered
    exact hanswered
  kept submissionId verdict := by
    have hpublished := h.ingress.conserved.countP_published (asks submissionId verdict)
    have hacked := h.countP_acked_le submissionId verdict
    omega

end Services

/-- In every state of every run nothing is lost or made up on either queue, and each copy of a
message that the worker takes is dropped only after an answer of its own. -/
theorem delivery (es : List ServiceEvent) : (run Services.step .start es).Delivers :=
  (invariant_along (fun _ e h _ => h.step e) Services.sound_start
    (Along.of_forall fun _ _ => trivial : Along Services.step (fun _ _ => True) _ es)).last.delivers

end Bsg.Worker
