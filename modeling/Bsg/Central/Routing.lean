import Bsg.Foundations.Run
import Bsg.Central.Redelivery
import Bsg.Central.Submitting
import Bsg.Worker.Worker

/-!
# Where a message leads

The message about a round submission carries the key of the round submission, and the answer is
looked up in the table of submissions. The two keys are drawn from two sequences, so a message leads
to the submission that it is about only as long as these hand out the same keys.

A run is a list of creations, each with its own faults and keys. `Routed` says that every message
published so far leads to its own submission, `KeysAgree` what a creation must do for that; the two
are tied together by `routed_iff`.
-/

namespace Bsg.Central

open Bsg.Foundations

/-- A call of `CreateRoundSubmission`. -/
structure Creation where
  env : Env
  params : RoundSubmissionParameters
  author : AuthID

/-- A message together with the submission that it was published for. -/
structure Posting where
  message : Payload
  submission : Submission
  deriving DecidableEq, Repr

/-- The state, and the messages published so far. -/
structure Posted where
  world : World
  posted : List Posting

/-- One creation; what it appends to the queue to the worker is what it published. -/
def Posted.create (σ : Posted) (c : Creation) : Posted :=
  let result := (createRoundSubmission c.env c.params c.author).run σ.world
  { world := result.2
    posted := σ.posted ++ match result.1 with
      | .ok (_, submission) =>
        (result.2.redis.ingress.queue.drop σ.world.redis.ingress.queue.length).map fun message =>
          ⟨message, submission⟩
      | _ => [] }

/-- The row that `ProcessSubmissionData` loads for the worker's answer. -/
def World.answered (w : World) (answer : Payload) : Option Submission :=
  (SubmissionEgressDTO.unmarshal answer).bind fun payload =>
    w.db.submissions.find? payload.submissionId

/-- Every message that the worker answers leads to its own submission. -/
def Routed (σ : Posted) : Prop :=
  ∀ p ∈ σ.posted, ∀ answer, Worker.answer p.message = some answer →
    σ.world.answered answer = some p.submission

/-- A creation that is stored and published, and whose message the worker takes, draws the same key
from both sequences. -/
def KeysAgree (σ : Posted) (c : Creation) : Prop :=
  ∀ ctx, (checkSubmission c.env c.params c.author).run σ.world = (.ok ctx, σ.world) →
    (∀ op ∈ [Op.createSubmission, .appendToRound, .appendToParticipant, .publish],
      c.env.fails op = false) →
    Worker.Accepts (newSubmissionIngressDTO ctx.problem
      (recordedRoundSubmission c.env ctx σ.world)
      (recordedSubmission c.env c.params ctx σ.world)) →
    σ.world.db.roundSubmissions.fresh c.env.roundSubmissionHint =
      σ.world.db.submissions.fresh c.env.submissionHint

section Routing

variable {σ : Posted} {c : Creation} {w w' : World}

/-- The answer to a message leads to the row with the key that the message carries. -/
theorem answered_egressMessage {msg : SubmissionIngressDTO} (h : Worker.Accepts msg) (w : World) :
    w.answered (Worker.egressMessage msg).marshal = w.db.submissions.find? msg.submissionId := by
  rw [World.answered, Worker.unmarshal_answer h]
  rfl

/-- A row that an answer leads to stays where it is when a submission is stored. -/
theorem answered_record {answer : Payload} {s : Submission} (env : Env)
    (params : RoundSubmissionParameters) (ctx : SubmissionContext)
    (h : w.answered answer = some s) : (w.record env params ctx).answered answer = some s := by
  unfold World.answered at h ⊢
  obtain ⟨payload, hpayload, hfind⟩ := Option.bind_eq_some_iff.mp h
  rw [hpayload, Option.bind_some]
  have hne : payload.submissionId ≠ w.db.submissions.fresh env.submissionHint := by
    intro heq
    have hnone := Table.find?_eq_none.mpr (w.db.submissions.fresh_not_mem env.submissionHint)
    rw [← heq, hfind] at hnone
    cases hnone
  exact (Table.find?_insert_of_ne w.db.submissions (fun _ => rfl) hne).trans hfind

/-- Messages that lead to their submissions still do after a submission was stored. -/
theorem Routed.record (h : Routed σ) (env : Env) (params : RoundSubmissionParameters)
    (ctx : SubmissionContext) : Routed ⟨σ.world.record env params ctx, σ.posted⟩ :=
  fun p hp answer ha => answered_record env params ctx (h p hp answer ha)

/-- The key of the new round submission leads to the new submission exactly when the new submission
has the same key. -/
theorem find?_record (env : Env) (params : RoundSubmissionParameters) (ctx : SubmissionContext)
    (w : World) :
    (w.record env params ctx).db.submissions.find? (recordedRoundSubmission env ctx w).id =
        some (recordedSubmission env params ctx w) ↔
      w.db.roundSubmissions.fresh env.roundSubmissionHint =
        w.db.submissions.fresh env.submissionHint := by
  constructor
  · intro h
    exact ((Table.find?_eq_some.mp h).2).symm
  · intro h
    have hkey : (recordedRoundSubmission env ctx w).id =
        w.db.submissions.fresh env.submissionHint := h
    rw [hkey]
    exact Table.find?_insert_self _ _ _ fun _ => rfl

/-- What leads to its submission still does when no submission is lost. -/
theorem Routed.of_submissions {σ' : Posted} (h : Routed σ) (hposted : σ'.posted = σ.posted)
    (hsubmissions : σ'.world.db.submissions = σ.world.db.submissions) : Routed σ' := by
  intro p hp answer ha
  rw [hposted] at hp
  unfold World.answered
  rw [hsubmissions]
  exact h p hp answer ha

/-- The operations of a creation that stores and publishes its submission. -/
def creationOps : List Op := [.createSubmission, .appendToRound, .appendToParticipant, .publish]

/-- A creation posts nothing, because it is refused or fails on the way; or all its operations
succeed, and it posts the message about the submission that it stores. -/
theorem Posted.create_cases (σ : Posted) (c : Creation) :
    ((σ.create c).posted = σ.posted ∧
      ((σ.create c).world.db.submissions = σ.world.db.submissions ∨
        ∃ ctx, (σ.create c).world.db.submissions =
          (σ.world.record c.env c.params ctx).db.submissions) ∧
      ∀ ctx, (checkSubmission c.env c.params c.author).run σ.world = (.ok ctx, σ.world) →
        ∃ op ∈ creationOps, c.env.fails op = true) ∨
    ∃ ctx, (checkSubmission c.env c.params c.author).run σ.world = (.ok ctx, σ.world) ∧
      (∀ op ∈ creationOps, c.env.fails op = false) ∧
      (σ.create c).posted = σ.posted ++ [⟨recordedMessage c.env c.params ctx σ.world,
        recordedSubmission c.env c.params ctx σ.world⟩] ∧
      (σ.create c).world.db.submissions =
        (σ.world.record c.env c.params ctx).db.submissions := by
  rcases createRoundSubmission_cases c.env c.params c.author σ.world with
    ⟨o, hrun, hfail, hwhy⟩ | ⟨ctx, hcheck, hstored, ⟨hlate, hrun⟩ | ⟨happend, w', hrun, hquiet⟩⟩
  · -- refused
    have hsame : σ.create c = σ := by
      unfold Posted.create
      rw [hrun]
      cases o with
      | ok p => exact absurd rfl (hfail p)
      | err e => simp
      | panic => simp
    refine Or.inl ⟨by rw [hsame], Or.inl (by rw [hsame]), fun ctx hctx => ?_⟩
    rcases hwhy with hwhy | hwhy
    · exact ⟨_, by simp [creationOps], hwhy⟩
    · exact absurd hctx (hwhy ctx)
  · -- stored, but an operation after that failed
    have hsame : σ.create c = ⟨σ.world.record c.env c.params ctx, σ.posted⟩ := by
      unfold Posted.create
      rw [hrun]
      simp
    refine Or.inl ⟨by rw [hsame], Or.inr ⟨ctx, by rw [hsame]⟩, fun _ _ => ?_⟩
    rcases hlate with hlate | hlate
    · exact ⟨_, by simp [creationOps], hlate⟩
    · exact ⟨_, by simp [creationOps], hlate⟩
  · cases hpublish : c.env.fails .publish with
    | true =>
      -- stored, but not published
      rw [hpublish, if_pos rfl] at hquiet
      have hqueue : w'.redis.ingress.queue = σ.world.redis.ingress.queue := by
        rw [hquiet.redis]
        rfl
      have hsame : σ.create c = ⟨w', σ.posted⟩ := by
        unfold Posted.create
        rw [hrun]
        simp [hqueue]
      refine Or.inl ⟨by rw [hsame], Or.inr ⟨ctx, by rw [hsame, hquiet.db]⟩, fun _ _ => ?_⟩
      exact ⟨_, by simp [creationOps], hpublish⟩
    | false =>
      rw [hpublish, if_neg Bool.false_ne_true] at hquiet
      have hqueue : w'.redis.ingress.queue = σ.world.redis.ingress.queue ++
          [recordedMessage c.env c.params ctx σ.world] := by
        rw [hquiet.redis]
        rfl
      have hsame : σ.create c = ⟨w', σ.posted ++
          [⟨recordedMessage c.env c.params ctx σ.world,
            recordedSubmission c.env c.params ctx σ.world⟩]⟩ := by
        unfold Posted.create
        rw [hrun]
        simp [hqueue]
      refine Or.inr ⟨ctx, hcheck, ?_, by rw [hsame], ?_⟩
      · simp [creationOps, hstored, happend.1, happend.2, hpublish]
      · rw [hsame, hquiet.db]
        rfl

/-- A creation keeps messages on their way exactly when the keys it draws agree. -/
theorem routed_create (h : Routed σ) : Routed (σ.create c) ↔ KeysAgree σ c := by
  rcases Posted.create_cases σ c with ⟨hposted, hsubmissions, hwhy⟩ |
    ⟨ctx, hcheck, hops, hposted, hsubmissions⟩
  · -- Without a message the creation adds a row at most.
    have hkept : Routed (σ.create c) := by
      rcases hsubmissions with hsame | ⟨ctx, hrecord⟩
      · exact h.of_submissions hposted hsame
      · exact (h.record c.env c.params ctx).of_submissions hposted hrecord
    refine iff_of_true hkept fun ctx hctx hops _ => ?_
    obtain ⟨op, hop, hfails⟩ := hwhy ctx hctx
    rw [hops op hop] at hfails
    cases hfails
  constructor
  · intro hrouted ctx' hctx' _ haccepts
    obtain rfl : ctx = ctx' := Outcome.ok.inj (congrArg Prod.fst (hcheck.symm.trans hctx'))
    have hanswer := (Worker.answer_marshal _ _).mpr ⟨haccepts, rfl⟩
    have hmem : (⟨recordedMessage c.env c.params ctx σ.world,
        recordedSubmission c.env c.params ctx σ.world⟩ : Posting) ∈ (σ.create c).posted := by
      rw [hposted]
      exact List.mem_append_right _ (List.mem_singleton_self _)
    have hown := hrouted _ hmem _ hanswer
    rw [answered_egressMessage haccepts, hsubmissions] at hown
    exact (find?_record c.env c.params ctx σ.world).mp hown
  · intro hagree p hp answer ha
    rw [hposted] at hp
    rcases List.mem_append.mp hp with hp | hp
    · have hold := h.record c.env c.params ctx p hp answer ha
      unfold World.answered at hold ⊢
      rw [hsubmissions]
      exact hold
    · obtain rfl := List.mem_singleton.mp hp
      obtain ⟨haccepts, rfl⟩ := (Worker.answer_marshal _ _).mp ha
      rw [answered_egressMessage haccepts, hsubmissions]
      exact (find?_record c.env c.params ctx σ.world).mpr (hagree ctx hcheck hops haccepts)

end Routing

/-- In every run of creations, from any state, every published message leads to its own submission
in every state reached, exactly when each creation draws keys that agree. -/
theorem routed_iff (w : World) (cs : List Creation) :
    Throughout Posted.create Routed ⟨w, []⟩ cs ↔ Along Posted.create KeysAgree ⟨w, []⟩ cs := by
  refine throughout_iff_along (I := fun _ => True) (fun _ _ _ _ => trivial)
    (fun σ c _ _ h => routed_create h) trivial ?_ (Along.of_forall fun _ _ => trivial)
  intro p hp
  cases hp

/-- An accepted submission of the problem, where the sequences hand out these keys. -/
def Creation.accepted (roundSubmissionHint submissionHint : ℕ) : Creation where
  env := { Env.faultless 0 with
    roundSubmissionHint := roundSubmissionHint
    submissionHint := submissionHint }
  params := ⟨1, 1, "code", "go", submissionStatusAccepted, 0⟩
  author := solver

/-- Once the sequence of round submissions is ahead by one, say after an insertion that was rolled
back between the two tables, a message leads to no row. -/
theorem not_routed_ahead :
    ¬ Throughout Posted.create Routed ⟨.oneRound solver, []⟩ [Creation.accepted 2 1] := by
  intro h
  have hlost : (run Posted.create ⟨.oneRound solver, []⟩ [Creation.accepted 2 1]).posted.any
      (fun p => (Worker.answer p.message).any fun answer =>
        decide ((run Posted.create ⟨.oneRound solver, []⟩
          [Creation.accepted 2 1]).world.answered answer ≠ some p.submission)) = true := by
    decide +kernel
  obtain ⟨p, hp, hanswer⟩ := List.any_eq_true.mp hlost
  cases ha : Worker.answer p.message with
  | none => simp [ha] at hanswer
  | some answer =>
    rw [ha] at hanswer
    exact of_decide_eq_true hanswer (h.last p hp answer ha)

end Bsg.Central
