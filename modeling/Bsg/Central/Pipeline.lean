import Bsg.Central.Listener
import Bsg.Central.Routing

/-!
# The way of a submission

Submissions on their way: they are taken in (`create`), the worker answers them (`forward`), and the
answers are processed (`process`), in any order. `World.inFlight` lists the submissions whose
messages are still in one of the two queues.

A run is `Legal` when what the queues promise holds: whatever is stored is also published, the
worker takes it, the two keys agree, and no auth id is too short to be processed. `Pipeline` is what
such runs keep; the lemmas on `inFlight` say that taking a submission in adds it, the worker moves
it from queue to queue, and processing removes it.
-/

namespace Bsg.Central

open Bsg.Foundations

/-- What can happen to the queues. -/
inductive QueueEvent where
  | create (c : Creation)
  | forward
  | process (env : EgressEnv)

/-- One round of the worker. -/
def World.forward (w : World) : World :=
  { w with redis := { w.redis with
      ingress := (Worker.work false w.redis.ingress w.redis.egress).1
      egress := (Worker.work false w.redis.ingress w.redis.egress).2 } }

/-- The state after an event. Messages are processed without faults. -/
def World.handle (w : World) : QueueEvent → World
  | .create c => ((createRoundSubmission c.env c.params c.author).run w).2
  | .forward => w.forward
  | .process env => ((listenForSubmissionData env.healthy).run w).2

/-- The submissions with a message on its way. -/
def World.inFlight (w : World) : List Submission :=
  (w.redis.ingress.queue.filterMap fun message => (Worker.answer message).bind w.answered) ++
    w.redis.egress.queue.filterMap w.answered

/-- What is stored is published, taken by the worker, led to its own submission, and its author can
be processed. -/
def Legal (w : World) : QueueEvent → Prop
  | .create c =>
    ∀ ctx ∈ ((checkSubmission c.env c.params c.author).run w).1.ok?,
      c.env.fails .createSubmission = false →
        (c.env.fails .appendToRound = false ∧ c.env.fails .appendToParticipant = false ∧
          c.env.fails .publish = false) ∧
        Worker.Accepts (newSubmissionIngressDTO ctx.problem (recordedRoundSubmission c.env ctx w)
          (recordedSubmission c.env c.params ctx w)) ∧
        w.db.roundSubmissions.fresh c.env.roundSubmissionHint =
          w.db.submissions.fresh c.env.submissionHint ∧
        8 ≤ c.author.length
  | .forward => True
  | .process _ => True

instance (w : World) : ∀ e, Decidable (Legal w e)
  | .create c => inferInstanceAs (Decidable (∀ ctx ∈
      ((checkSubmission c.env c.params c.author).run w).1.ok?, _ → _ ∧ _))
  | .forward => inferInstanceAs (Decidable True)
  | .process _ => inferInstanceAs (Decidable True)

/-- No message is left in a queue. -/
def World.Drained (w : World) : Prop :=
  w.redis.ingress.queue = [] ∧ w.redis.egress.queue = []

instance (w : World) : Decidable w.Drained := inferInstanceAs (Decidable (_ ∧ _))

/-- The message with the verdict of a submission. -/
def verdictMessage (s : Submission) : Payload :=
  (⟨s.id, s.verdict, []⟩ : SubmissionEgressDTO).marshal

/-- What holds of the queues and the submissions in every legal run. -/
structure Pipeline (w : World) : Prop where
  /-- The worker will answer what is on the queue to it. -/
  ingress : ∀ message ∈ w.redis.ingress.queue, ∃ s ∈ w.db.submissions.rows, s.id < 2^64 ∧
    Worker.answer message = some (verdictMessage s)
  /-- The answers carry the verdicts of their submissions. -/
  egress : ∀ message ∈ w.redis.egress.queue, ∃ s ∈ w.db.submissions.rows, s.id < 2^64 ∧
    message = verdictMessage s
  /-- No submission has two messages. -/
  nodup : w.inFlight.Nodup
  /-- Every submission belongs to a round submission whose author can be processed. -/
  owned : ∀ s ∈ w.db.submissions.rows, ∃ rs, w.db.ownerOf s = some rs ∧
    8 ≤ (w.db.authorOf rs).length

section Answers

variable {w w' : World} {s : Submission}

/-- An answer leads to the submission whose verdict it carries. -/
theorem answered_verdictMessage (hs : s ∈ w.db.submissions.rows) (hid : s.id < 2^64) :
    w.answered (verdictMessage s) = some s := by
  rw [World.answered, verdictMessage, SubmissionEgressDTO.unmarshal_marshal rfl, if_pos hid]
  exact Table.find?_id hs

/-- An answer leads to a submission that is stored. -/
theorem mem_of_answered {answer : Payload} (h : w.answered answer = some s) :
    s ∈ w.db.submissions.rows := by
  obtain ⟨payload, -, hfind⟩ := Option.bind_eq_some_iff.mp h
  exact (Table.find?_eq_some.mp hfind).1

/-- Only stored submissions are on their way. -/
theorem mem_of_inFlight (h : s ∈ w.inFlight) : s ∈ w.db.submissions.rows := by
  rcases List.mem_append.mp h with h | h
  · obtain ⟨message, -, hm⟩ := List.mem_filterMap.mp h
    obtain ⟨answer, -, ha⟩ := Option.bind_eq_some_iff.mp hm
    exact mem_of_answered ha
  · obtain ⟨message, -, hm⟩ := List.mem_filterMap.mp h
    exact mem_of_answered hm

/-- Once the queues are drained, nothing is on its way. -/
theorem World.Drained.inFlight (h : w.Drained) : w.inFlight = [] := by
  simp [World.inFlight, h.1, h.2]

end Answers

/-! ## The worker -/

section Forward

variable {w : World}

/-- Without a message the worker does nothing. -/
theorem forward_of_nil (h : w.redis.ingress.queue = []) : w.forward = w := by
  unfold World.forward Worker.work RedisQueue.consume
  rw [h]

/-- The worker answers the first message, and touches the queues only. -/
theorem forward_of_cons {message answer : Payload} {rest : List Payload}
    (h : w.redis.ingress.queue = message :: rest) (ha : Worker.answer message = some answer) :
    w.forward.db = w.db ∧ w.forward.redis.ingress.queue = rest ∧
      w.forward.redis.egress.queue = w.redis.egress.queue ++ [answer] ∧
      w.forward.redis.leaderboard = w.redis.leaderboard := by
  unfold World.forward Worker.work RedisQueue.consume
  rw [h]
  simp [ha, RedisQueue.ack, RedisQueue.publish]

/-- The worker moves a submission from one queue to the other. -/
theorem inFlight_forward (h : Pipeline w) : w.forward.inFlight.Perm w.inFlight := by
  cases hq : w.redis.ingress.queue with
  | nil => rw [forward_of_nil hq]
  | cons message rest =>
    obtain ⟨s, hs, hid, ha⟩ := h.ingress message (by simp [hq])
    obtain ⟨hdb, hin, hout, -⟩ := forward_of_cons hq ha
    have hanswered : w.forward.answered = w.answered := by
      funext answer
      simp only [World.answered, hdb]
    have hown := answered_verdictMessage hs hid
    simp only [World.inFlight, hanswered, hin, hout, hq, List.filterMap_append,
      List.filterMap_cons, List.filterMap_nil, ha, Option.bind_some, hown]
    rw [List.cons_append, ← List.append_assoc]
    exact List.perm_append_singleton _ _

/-- The worker keeps the pipeline. -/
theorem Pipeline.forward (h : Pipeline w) : Pipeline w.forward := by
  cases hq : w.redis.ingress.queue with
  | nil => rwa [forward_of_nil hq]
  | cons message rest =>
    obtain ⟨s, hs, hid, ha⟩ := h.ingress message (by simp [hq])
    obtain ⟨hdb, hin, hout, -⟩ := forward_of_cons hq ha
    refine ⟨fun m hm => ?_, fun m hm => ?_, (inFlight_forward h).nodup_iff.mpr h.nodup, ?_⟩
    · rw [hdb]
      rw [hin] at hm
      exact h.ingress m (by rw [hq]; exact List.mem_cons_of_mem _ hm)
    · rw [hdb]
      rw [hout] at hm
      rcases List.mem_append.mp hm with hm | hm
      · exact h.egress m hm
      · rw [List.mem_singleton] at hm
        exact ⟨s, hs, hid, hm⟩
    · rw [hdb]
      exact h.owned

end Forward

/-! ## Taking in -/

/-- The author of a round submission, from his participant. -/
theorem DB.authorOf_eq (db : DB) (rs : RoundSubmission) :
    db.authorOf rs = (db.participantAuthID rs.roundParticipantID).getD [] := by
  unfold DB.authorOf DB.participantAuthID
  cases db.participants.find? rs.roundParticipantID <;> rfl

/-- A submission is stored and its message published, in a legal run. -/
structure Stores (c : Creation) (ctx : SubmissionContext) (w w' : World) : Prop where
  checks : ctx ∈ ((checkSubmission c.env c.params c.author).run w).1.ok?
  stored : c.env.fails .createSubmission = false
  checked : Checked c.params c.author ctx w
  accepts : Worker.Accepts (newSubmissionIngressDTO ctx.problem
    (recordedRoundSubmission c.env ctx w) (recordedSubmission c.env c.params ctx w))
  keys : w.db.roundSubmissions.fresh c.env.roundSubmissionHint =
    w.db.submissions.fresh c.env.submissionHint
  author : 8 ≤ c.author.length
  db : w'.db = { w.db.addSubmission c.env c.params ctx with participants := w'.db.participants }
  participants : ∀ id, w'.db.participantAuthID id = w.db.participantAuthID id
  redis : w'.redis = { w.redis with
    ingress := w.redis.ingress.publish (recordedMessage c.env c.params ctx w) }

/-- In a legal run, a creation changes nothing, or stores and publishes. -/
theorem create_cases {w : World} {c : Creation} (h : Legal w (.create c)) :
    w.handle (.create c) = w ∨ ∃ ctx, Stores c ctx w (w.handle (.create c)) := by
  rcases createRoundSubmission_cases c.env c.params c.author w with
    ⟨o, hrun, -⟩ | ⟨ctx, hcheck, hstored, hrest⟩
  · exact Or.inl (congrArg Prod.snd hrun)
  · have hok : ctx ∈ ((checkSubmission c.env c.params c.author).run w).1.ok? := by
      rw [hcheck]
      rfl
    obtain ⟨⟨hround, hparticipant, hpublish⟩, haccepts, hkeys, hauthor⟩ := h ctx hok hstored
    rcases hrest with ⟨hlate, -⟩ | ⟨-, w', hrun, hquiet⟩
    · rw [hround, hparticipant] at hlate
      simp at hlate
    · rw [hpublish, if_neg Bool.false_ne_true] at hquiet
      have hw' : w.handle (.create c) = w' := congrArg Prod.snd hrun
      rw [hw']
      exact Or.inr ⟨ctx, hok, hstored, checkSubmission_checked hcheck, haccepts, hkeys, hauthor,
        hquiet.db, hquiet.participants, hquiet.redis⟩

section Create

variable {c : Creation} {ctx : SubmissionContext} {w w' : World}

/-- The new submission comes last. -/
theorem Stores.rows (h : Stores c ctx w w') : w'.db.submissions.rows =
    w.db.submissions.rows ++ [recordedSubmission c.env c.params ctx w] := by
  rw [h.db]
  rfl

/-- An answer leads to where it led. -/
theorem Stores.answered (h : Stores c ctx w w') {answer : Payload} {s : Submission}
    (ha : w.answered answer = some s) : w'.answered answer = some s := by
  have hrecord := answered_record c.env c.params ctx ha
  unfold World.answered at hrecord ⊢
  rw [h.db]
  exact hrecord

/-- The authors stay. -/
theorem Stores.authorOf (h : Stores c ctx w w') (rs : RoundSubmission) :
    w'.db.authorOf rs = w.db.authorOf rs := by
  rw [DB.authorOf_eq, DB.authorOf_eq, h.participants]

/-- A submission that was stored before belongs to what it belonged to. -/
theorem Stores.ownerOf (h : Stores c ctx w w') {s : Submission} {rs : RoundSubmission}
    (ho : w.db.ownerOf s = some rs) : w'.db.ownerOf s = some rs := by
  obtain ⟨htype, hfind⟩ := ownerOf_eq_some ho
  have hne : s.submissionOwnerID ≠ w.db.roundSubmissions.fresh c.env.roundSubmissionHint := by
    intro heq
    have hnone := Table.find?_eq_none.mpr
      (w.db.roundSubmissions.fresh_not_mem c.env.roundSubmissionHint)
    rw [← heq, hfind] at hnone
    cases hnone
  rw [DB.ownerOf, if_pos htype, h.db]
  exact (Table.find?_insert_of_ne w.db.roundSubmissions (fun _ => rfl) hne).trans hfind

/-- The new submission belongs to the new round submission. -/
theorem Stores.ownerOf_new (h : Stores c ctx w w') :
    w'.db.ownerOf (recordedSubmission c.env c.params ctx w) =
      some (recordedRoundSubmission c.env ctx w) := by
  have htype : (recordedSubmission c.env c.params ctx w).submissionOwnerType =
      ownerRoundSubmissions := rfl
  rw [DB.ownerOf, if_pos htype, h.db]
  exact Table.find?_insert_self w.db.roundSubmissions _ _ fun _ => rfl

/-- The author of the new round submission is who sent it. -/
theorem Stores.authorOf_new (h : Stores c ctx w w') :
    w'.db.authorOf (recordedRoundSubmission c.env ctx w) = c.author := by
  have hauthor : w.db.participantAuthID ctx.participant.id = some c.author := h.checked.participant
  rw [h.authorOf, DB.authorOf_eq]
  show (w.db.participantAuthID ctx.participant.id).getD [] = c.author
  rw [hauthor]
  rfl

/-- The key of the new submission is a 64-bit word. -/
theorem Stores.id_lt (h : Stores c ctx w w') :
    (recordedSubmission c.env c.params ctx w).id < 2^64 := by
  have hword : (recordedRoundSubmission c.env ctx w).id < 2^64 := h.accepts.1.2
  have hkey : (recordedSubmission c.env c.params ctx w).id =
      (recordedRoundSubmission c.env ctx w).id := h.keys.symm
  rw [hkey]
  exact hword

/-- The worker will answer the new message with the verdict of the new submission. -/
theorem Stores.answer (h : Stores c ctx w w') :
    Worker.answer (recordedMessage c.env c.params ctx w) =
      some (verdictMessage (recordedSubmission c.env c.params ctx w)) := by
  refine (Worker.answer_marshal _ _).mpr ⟨h.accepts, ?_⟩
  have hkey : (recordedSubmission c.env c.params ctx w).id =
      (recordedRoundSubmission c.env ctx w).id := h.keys.symm
  unfold verdictMessage
  rw [hkey]
  rfl

/-- The new submission is stored. -/
theorem Stores.mem_new (h : Stores c ctx w w') :
    recordedSubmission c.env c.params ctx w ∈ w'.db.submissions.rows := by
  rw [h.rows]
  exact List.mem_append_right _ (List.mem_singleton_self _)

/-- The old submissions are still there. -/
theorem Stores.mem_old (h : Stores c ctx w w') {s : Submission}
    (hs : s ∈ w.db.submissions.rows) : s ∈ w'.db.submissions.rows := by
  rw [h.rows]
  exact List.mem_append_left _ hs

/-- The new submission was not stored before. -/
theorem not_mem_recordedSubmission (env : Env) (params : RoundSubmissionParameters)
    (ctx : SubmissionContext) (w : World) :
    recordedSubmission env params ctx w ∉ w.db.submissions.rows := by
  intro hmem
  exact w.db.submissions.fresh_not_mem env.submissionHint (List.mem_map_of_mem hmem)

/-- Taking a submission in puts it on its way. -/
theorem Stores.inFlight (h : Stores c ctx w w') (hp : Pipeline w) :
    w'.inFlight.Perm (recordedSubmission c.env c.params ctx w :: w.inFlight) := by
  have hnew : w'.answered (verdictMessage (recordedSubmission c.env c.params ctx w)) =
      some (recordedSubmission c.env c.params ctx w) := answered_verdictMessage h.mem_new h.id_lt
  -- The messages that were under way are still about the same submissions.
  have hin : ∀ message ∈ w.redis.ingress.queue, (Worker.answer message).bind w'.answered =
      (Worker.answer message).bind w.answered := by
    intro message hm
    obtain ⟨s, hs, hid, ha⟩ := hp.ingress message hm
    have hold := answered_verdictMessage hs hid
    rw [ha, Option.bind_some, Option.bind_some, hold, h.answered hold]
  have hout : ∀ message ∈ w.redis.egress.queue, w'.answered message = w.answered message := by
    intro message hm
    obtain ⟨s, hs, hid, rfl⟩ := hp.egress message hm
    have hold := answered_verdictMessage hs hid
    rw [hold, h.answered hold]
  -- The new message comes last in the queue to the worker.
  have hqueue : w'.redis.ingress.queue = w.redis.ingress.queue ++
      [recordedMessage c.env c.params ctx w] := by
    rw [h.redis]
    rfl
  have hegress : w'.redis.egress.queue = w.redis.egress.queue := by rw [h.redis]
  unfold World.inFlight
  rw [hqueue, hegress, List.filterMap_append, List.filterMap_congr hin, List.filterMap_congr hout]
  simp only [List.filterMap_cons, List.filterMap_nil, h.answer, Option.bind_some, hnew]
  rw [List.append_assoc, List.singleton_append]
  exact List.perm_middle

/-- Taking a submission in keeps the pipeline. -/
theorem Stores.pipeline (h : Stores c ctx w w') (hp : Pipeline w) : Pipeline w' := by
  refine ⟨fun message hm => ?_, fun message hm => ?_, ?_, fun s hs => ?_⟩
  · rw [h.redis] at hm
    rcases List.mem_append.mp hm with hm | hm
    · obtain ⟨s, hs, hid, ha⟩ := hp.ingress message hm
      exact ⟨s, h.mem_old hs, hid, ha⟩
    · rw [List.mem_singleton] at hm
      subst hm
      exact ⟨_, h.mem_new, h.id_lt, h.answer⟩
  · rw [h.redis] at hm
    obtain ⟨s, hs, hid, ha⟩ := hp.egress message hm
    exact ⟨s, h.mem_old hs, hid, ha⟩
  · rw [(h.inFlight hp).nodup_iff, List.nodup_cons]
    exact ⟨fun hm => not_mem_recordedSubmission c.env c.params ctx w (mem_of_inFlight hm),
      hp.nodup⟩
  · rw [h.rows] at hs
    rcases List.mem_append.mp hs with hs | hs
    · obtain ⟨rs, ho, h8⟩ := hp.owned s hs
      exact ⟨rs, h.ownerOf ho, by rw [h.authorOf]; exact h8⟩
    · rw [List.mem_singleton] at hs
      subst hs
      exact ⟨_, h.ownerOf_new, by rw [h.authorOf_new]; exact h.author⟩

end Create

/-! ## Processing -/

/-- The payload of the message with the verdict of a submission. -/
def verdictPayload (s : Submission) : SubmissionEgressDTO := ⟨s.id, s.verdict, []⟩

/-- The message of a submission was next, and it was processed to the end. -/
structure Settles (env : EgressEnv) (s : Submission) (w w' : World) : Prop where
  stored : s ∈ w.db.submissions.rows
  next : (w.redis.egress.queue.head?).bind w.answered = some s
  judged : Judged env (verdictPayload s) s.verdict w.db w'.db
  submissions : w'.db.submissions = w.db.submissions
  unpaid : w.db.due env (verdictPayload s) = none → w'.db.leaderboards = w.db.leaderboards
  paid : ∀ d, w.db.due env (verdictPayload s) = some d →
    standing w'.db.leaderboards d.userID =
      (standing w.db.leaderboards d.userID).credit d.difficulty d.points
  ingress : w'.redis.ingress = w.redis.ingress
  egress : w'.redis.egress.queue = w.redis.egress.queue.tail

section Process

variable {w w' : World} {env : EgressEnv} {s : Submission}

/-- Without an answer nothing is processed. -/
theorem process_of_nil (h : w.redis.egress.queue = []) (env : EgressEnv) :
    w.handle (.process env) = w := by
  unfold World.handle listenForSubmissionData RedisQueue.consume
  simp only [Call.run_read_bind, h]
  rfl

/-- In a legal run, processing changes nothing, or settles the next message. -/
theorem process_cases (hp : Pipeline w) (env : EgressEnv) :
    w.redis.egress.queue = [] ∧ w.handle (.process env) = w ∨
      ∃ s, Settles env.healthy s w (w.handle (.process env)) := by
  cases hq : w.redis.egress.queue with
  | nil => exact Or.inl ⟨rfl, process_of_nil hq env⟩
  | cons message rest =>
    obtain ⟨s, hs, hid, rfl⟩ := hp.egress message (by simp [hq])
    have hfind : w.db.submissions.find? (verdictPayload s).submissionId = some s :=
      Table.find?_id hs
    have hpoison : w.db.poison (verdictPayload s) = false := by
      obtain ⟨rs, ho, h8⟩ := hp.owned s hs
      rw [DB.poison, hfind]
      simp [DB.shortAuthor, ho, h8]
    have hraw : SubmissionEgressDTO.unmarshal (verdictMessage s) = some (verdictPayload s) := by
      rw [verdictMessage, SubmissionEgressDTO.unmarshal_marshal rfl, if_pos hid]
      rfl
    -- the state with the rest of the queue, to which the message is delivered
    let w₀ := w.withEgress ⟨rest, w.redis.egress.processing⟩
    have hw : w₀.delivering (verdictMessage s) = w := delivering_of_queue hq
    obtain ⟨w₁, hrun, h⟩ := processPayload_healthy (w := w₀.consuming (verdictMessage s)) env hfind
      hpoison
    have hprocess : (processSubmissionData env.healthy (verdictMessage s)).run
        (w₀.consuming (verdictMessage s)) = (.ok (), w₁) := by
      rw [processSubmissionData_of_some hraw]
      exact hrun
    have hhandle : w.handle (.process env) =
        w₁.withEgress (w₁.redis.egress.ack (verdictMessage s)) := by
      rw [← hw]
      exact congrArg Prod.snd (listen_ok hprocess)
    have hredis : w₁.redis.ingress = w.redis.ingress ∧ w₁.redis.egress.queue = rest := by
      rw [h.redis]
      split <;> exact ⟨rfl, rfl⟩
    rw [hhandle]
    refine Or.inr ⟨s, hs, ?_, h.judged, ?_, h.unpaid, fun d hd => ?_, hredis.1, ?_⟩
    · rw [hq]
      exact answered_verdictMessage hs hid
    · show w₁.db.submissions = w.db.submissions
      rw [h.judged.submissions]
      exact setVerdict_self hfind
    · have hpaid := h.paid d hd d.userID
      rw [if_pos rfl] at hpaid
      exact hpaid
    · rw [hq]
      exact hredis.2

/-- Settling a submission takes its message from the queue, and leaves those that were answered. -/
theorem Settles.answered (h : Settles env s w w') : w'.answered = w.answered := by
  funext answer
  simp only [World.answered, h.submissions]

/-- Processing takes a submission off its way. -/
theorem Settles.inFlight (h : Settles env s w w') : w.inFlight.Perm (s :: w'.inFlight) := by
  have hnext := h.next
  unfold World.inFlight
  rw [h.answered, h.ingress, h.egress]
  cases hq : w.redis.egress.queue with
  | nil => simp [hq] at hnext
  | cons message rest =>
    have hmessage : w.answered message = some s := by simpa [hq] using hnext
    simp only [List.filterMap_cons, hmessage, List.tail_cons]
    exact List.perm_middle

/-- Processing keeps the pipeline. -/
theorem Settles.pipeline (h : Settles env s w w') (hp : Pipeline w) : Pipeline w' := by
  refine ⟨fun message hm => ?_, fun message hm => ?_, ?_, fun r hr => ?_⟩
  · rw [h.ingress] at hm
    rw [h.submissions]
    exact hp.ingress message hm
  · rw [h.egress] at hm
    rw [h.submissions]
    exact hp.egress message (List.mem_of_mem_tail hm)
  · exact ((h.inFlight.nodup_iff.mp hp.nodup)).of_cons
  · rw [h.submissions] at hr
    obtain ⟨rs, ho, h8⟩ := hp.owned r hr
    refine ⟨rs, ?_, ?_⟩
    · rw [DB.ownerOf, h.judged.roundSubmissions]
      exact ho
    · rw [h.judged.authorOf_again]
      exact h8

end Process

/-- Every legal event keeps the pipeline. -/
theorem Pipeline.handle {w : World} {e : QueueEvent} (hp : Pipeline w) (h : Legal w e) :
    Pipeline (w.handle e) := by
  cases e with
  | create c =>
    rcases create_cases h with hsame | ⟨ctx, hstores⟩
    · rwa [hsame]
    · exact hstores.pipeline hp
  | forward => exact hp.forward
  | process env =>
    rcases process_cases hp env with ⟨-, hsame⟩ | ⟨s, hsettles⟩
    · rwa [hsame]
    · exact hsettles.pipeline hp

end Bsg.Central
