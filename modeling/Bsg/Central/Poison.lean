import Bsg.Central.Redelivery

/-!
# Messages that crash the consumer

The handle of a user that processing makes is cut from his auth id, whether the user is made or not:
the attributes of `FirstOrCreate` are evaluated first. An auth id of fewer than eight bytes, or the
empty one of a participant that does not exist, makes that slice panic.

`processSubmissionData_panics` says when processing panics. A message that does stays in the
processing list, so a restart finds it again: `crashLoop_iff`.
-/

namespace Bsg.Central

open Bsg.Foundations

/-! ## The parts that never panic -/

/-- Looking a round submission up does not panic. -/
theorem calm_findRoundSubmission (fails : Bool) (id : ℕ) :
    Call.Calm (findRoundSubmission fails id) := by
  unfold findRoundSubmission
  apply Call.Calm.io
  apply Call.Calm.bind (Call.Calm.read _)
  rintro (_ | rs)
  · exact Call.Calm.fail _
  · exact Call.Calm.bind (Call.Calm.read _) fun _ => Call.Calm.pure _

/-- Looking the user up does not panic. -/
theorem calm_firstOrCreateUser (env : EgressEnv) (authID idPrefix : AuthID) :
    Call.Calm (firstOrCreateUser env authID idPrefix) := by
  unfold firstOrCreateUser
  apply Call.Calm.bind (Call.Calm.io _ _ (Call.Calm.read _))
  rintro (_ | user)
  · apply Call.Calm.io
    apply Call.Calm.bind (Call.Calm.read _)
    intro id
    exact Call.Calm.bind (Call.Calm.write _) fun _ => Call.Calm.pure _
  · exact Call.Calm.pure _

/-- Deducting repeats does not panic. -/
theorem calm_withoutRepeats (env : EgressEnv) (s : Submission) (earned : Earned) :
    Call.Calm (withoutRepeats env s earned) := by
  unfold withoutRepeats
  apply Call.Calm.ite
  · apply Call.Calm.bind (Call.Calm.attempt (Call.Calm.io _ _ (Call.Calm.read _)))
    intro count
    split <;> exact Call.Calm.pure _
  · exact Call.Calm.pure _

/-- Storing the verdict does not panic. -/
theorem calm_updateVerdict (env : EgressEnv) (s : Submission) (verdict : String) :
    Call.Calm (updateVerdict env s verdict) := by
  unfold updateVerdict
  exact Call.Calm.io _ _ (Call.Calm.write _)

/-- Crediting the round does not panic. -/
theorem calm_addToRoundLeaderboard (env : EgressEnv) (s : Submission) (points : UInt64) :
    Call.Calm (addToRoundLeaderboard env s points) := by
  unfold addToRoundLeaderboard
  apply Call.Calm.ite
  · apply Call.Calm.bind (Call.Calm.attempt (calm_findRoundSubmission _ _))
    rintro (e | ⟨rs, authID⟩)
    · exact Call.Calm.pure _
    · unfold logged updateLeaderboardScore
      refine Call.Calm.bind (Call.Calm.attempt ?_) fun _ => Call.Calm.pure _
      apply Call.Calm.bind (Call.Calm.io _ _ (Call.Calm.read _))
      exact fun entry => Call.Calm.io _ _ (Call.Calm.write _)
  · exact Call.Calm.pure _

/-- A new row of the leaderboard does not panic. -/
theorem calm_insertLeaderboard (hint : ℕ) (lb : Leaderboard) :
    Call.Calm (insertLeaderboard hint lb) := by
  unfold insertLeaderboard
  apply Call.Calm.bind (Call.Calm.read _)
  intro fits
  apply Call.Calm.ite
  · apply Call.Calm.bind (Call.Calm.read _)
    exact fun id => Call.Calm.bind (Call.Calm.write _) fun _ => Call.Calm.pure _
  · exact Call.Calm.fail _

/-- Crediting the leaderboard does not panic. -/
theorem calm_addToLeaderboard (env : EgressEnv) (lbUserID : ℕ) (difficulty : String)
    (points : UInt64) : Call.Calm (addToLeaderboard env lbUserID difficulty points) := by
  have hfind : Call.Calm (firstOrCreateLeaderboard env lbUserID) := by
    unfold firstOrCreateLeaderboard
    apply Call.Calm.bind (Call.Calm.attempt (Call.Calm.io _ _ (Call.Calm.read _)))
    rintro (e | _ | lb)
    · exact Call.Calm.pure _
    · apply Call.Calm.bind
        (Call.Calm.attempt (Call.Calm.io _ _ (calm_insertLeaderboard _ _)))
      rintro (e | id) <;> exact Call.Calm.pure _
    · exact Call.Calm.pure _
  apply Call.Calm.bind hfind
  intro lb
  unfold saveLeaderboard
  apply Call.Calm.io
  apply Call.Calm.ite
  · exact Call.Calm.bind (calm_insertLeaderboard _ _) fun _ => Call.Calm.pure _
  · exact Call.Calm.write _

/-! ## The one part that may -/

section Slice

variable {env : EgressEnv} {s : Submission} {verdict : String} {w : World}

/-- The round's part panics only for an auth id that is too short. -/
theorem earnRound_ne_panic
    (h : env.fails .loadRoundSubmission = true ∨
      ∀ rs, w.db.roundSubmissions.find? s.submissionOwnerID = some rs →
        8 ≤ (w.db.authorOf rs).length) :
    ((earnRound env s).run w).1 ≠ .panic := by
  by_cases hmiss : env.fails .loadRoundSubmission = true ∨
      w.db.roundSubmissions.find? s.submissionOwnerID = none
  · rw [earnRound_missing hmiss]
    simp
  · rw [not_or, Bool.not_eq_true] at hmiss
    obtain ⟨hl, hfound⟩ := hmiss
    obtain ⟨rs, hrs⟩ := Option.ne_none_iff_exists'.mp hfound
    -- The author is found, so the slice of the id is in range.
    have h8 : 8 ≤ (w.db.authorOf rs).length := by
      rcases h with h | h
      · rw [hl] at h
        cases h
      · exact h rs hrs
    have hload : (findRoundSubmission (env.fails .loadRoundSubmission) s.submissionOwnerID).run w =
        (.ok (rs, w.db.authorOf rs), w) := by
      rw [hl, findRoundSubmission_run, hrs]
    unfold earnRound
    rw [Call.attempt_ok hload]
    simp only [GoText.prefix?, if_pos h8]
    refine Call.Calm.bind (Call.Calm.attempt (calm_firstOrCreateUser _ _ _)) ?_ w
    rintro (e | user) <;> exact Call.Calm.pure _

/-- The points are worked out without a panic unless the author is found and is too short. -/
theorem earn_ne_panic
    (h : env.fails .loadRoundSubmission = true ∨ w.db.shortAuthor s verdict = false) :
    ((earn env s verdict).run w).1 ≠ .panic := by
  by_cases ha : verdict = submissionStatusAccepted
  · by_cases ho : s.submissionOwnerType = ownerRoundSubmissions
    · simp only [earn, if_pos ha, if_pos ho]
      refine Call.bind_ne_panic ?_ fun earned => calm_withoutRepeats _ _ _
      refine earnRound_ne_panic (h.imp_right fun hs rs hrs => ?_)
      simpa [DB.shortAuthor, DB.ownerOf, ha, ho, hrs] using hs
    · simp only [earn, if_pos ha, if_neg ho]
      exact calm_withoutRepeats env s ⟨0, 0⟩ w
  · simp only [earn, if_neg ha]
    exact Call.Calm.pure _ w

end Slice

/-- Processing the payload panics exactly when it is poisonous and the lookups do not fail. -/
theorem processPayload_panics (env : EgressEnv) (payload : SubmissionEgressDTO) (w : World) :
    ((processPayload env payload).run w).1 = .panic ↔
      w.db.poison payload = true ∧ env.fails .loadSubmission = false ∧
        env.fails .loadRoundSubmission = false := by
  constructor
  · intro hpanic
    by_contra hsound
    refine absurd hpanic ?_
    by_cases hload : env.fails .loadSubmission = true
    · rw [processPayload_unloaded hload]
      simp
    · rw [Bool.not_eq_true] at hload
      cases hs : w.db.submissions.find? payload.submissionId with
      | none =>
        rw [processPayload_missing hload hs]
        simp
      | some s =>
        -- The auth id is not looked up, or it is long enough.
        have hslice : env.fails .loadRoundSubmission = true ∨
            w.db.shortAuthor s payload.verdict = false := by
          simp only [DB.poison, hs, hload, true_and, not_and, Bool.not_eq_false] at hsound
          cases hp : w.db.shortAuthor s payload.verdict with
          | true => exact Or.inl (hsound hp)
          | false => exact Or.inr rfl
        unfold processPayload
        rw [Call.bind_ok (loadSubmission_run hload hs), Call.bind_ok (loadDifficulty_run w)]
        refine Call.bind_ne_panic (earn_ne_panic hslice) fun earned => ?_
        refine Call.Calm.bind (calm_updateVerdict _ _ _) fun _ => Call.Calm.ite _ ?_ ?_
        · exact Call.Calm.bind (calm_addToRoundLeaderboard _ _ _) fun _ =>
            calm_addToLeaderboard _ _ _ _
        · exact Call.Calm.pure _
  · rintro ⟨hp, hload, hround⟩
    rw [processPayload_poison hload hround hp]

/-! ## The consumer -/

/-- The message accepts a submission of a round whose author has an auth id of fewer than eight
bytes, or no participant row, and the lookups that find this out do not fail. -/
def Poisonous (env : EgressEnv) (w : World) (rawSubmissionData : Payload) : Prop :=
  env.fails .loadSubmission = false ∧ env.fails .loadRoundSubmission = false ∧
    ∃ payload, SubmissionEgressDTO.unmarshal rawSubmissionData = some payload ∧
      w.db.poison payload = true

/-- Processing a message panics exactly when the message is poisonous. -/
theorem processSubmissionData_panics (env : EgressEnv) (rawSubmissionData : Payload) (w : World) :
    ((processSubmissionData env rawSubmissionData).run w).1 = .panic ↔
      Poisonous env w rawSubmissionData := by
  unfold processSubmissionData Poisonous
  cases SubmissionEgressDTO.unmarshal rawSubmissionData with
  | none => simp
  | some payload =>
    rw [processPayload_panics]
    simp only [Option.some.injEq, exists_eq_left']
    tauto

/-- The service starts again: what a crash left in processing is queued again. -/
def World.restarted (w : World) : World :=
  { w with redis := { w.redis with egress := w.redis.egress.recover } }

/-- One life of the consumer, as far as its first message. -/
def live (env : EgressEnv) (w : World) : Outcome GoError Unit × World :=
  (listenForSubmissionData env).run w.restarted

/-- The consumer crashes after every restart. -/
def CrashLoop (env : EgressEnv) (w : World) : Prop :=
  ∀ n : ℕ, (live env ((fun w => (live env w).2)^[n] w)).1 = .panic

/-- The state that a crash on this message leaves behind. -/
def World.crashedOn (w : World) (rawSubmissionData : Payload) : World :=
  { w with redis := { w.redis with egress := ⟨[], [rawSubmissionData]⟩ } }

section Loop

variable {env : EgressEnv} {raw : Payload} {w : World}

/-- After a crash the message is processed again. -/
theorem live_crashedOn (env : EgressEnv) (raw : Payload) (w : World) :
    live env (w.crashedOn raw) = (handleSubmissionData env raw).run (w.crashedOn raw) := rfl

/-- A poisonous message crashes the consumer and is left behind again. -/
theorem live_of_poisonous (h : Poisonous env w raw) :
    live env (w.crashedOn raw) = (.panic, w.crashedOn raw) := by
  obtain ⟨hload, hround, payload, hraw, hp⟩ := h
  have hrun : (processSubmissionData env raw).run (w.crashedOn raw) =
      (.panic, w.crashedOn raw) := by
    unfold processSubmissionData
    rw [hraw]
    exact processPayload_poison hload hround hp
  rw [live_crashedOn]
  unfold handleSubmissionData
  exact Call.attempt_panic hrun _

/-- Only a poisonous message crashes the consumer. -/
theorem poisonous_of_live (h : (live env (w.crashedOn raw)).1 = .panic) :
    Poisonous env w raw := by
  by_contra hsound
  refine absurd h ?_
  rw [live_crashedOn]
  unfold handleSubmissionData
  have hprocess : ((processSubmissionData env raw).run (w.crashedOn raw)).1 ≠ .panic := by
    rw [Ne, processSubmissionData_panics]
    exact hsound
  have hattempt : (((processSubmissionData env raw).attempt).run (w.crashedOn raw)).1 ≠ .panic := by
    rw [Call.run_attempt]
    rcases hr : (processSubmissionData env raw).run (w.crashedOn raw) with ⟨_ | _ | _, w'⟩
    · simp
    · simp
    · rw [hr] at hprocess
      exact absurd rfl hprocess
  refine Call.bind_ne_panic hattempt ?_
  rintro (e | _)
  · exact Call.Calm.ite _ (Call.Calm.write _) (Call.Calm.write _)
  · exact Call.Calm.write _

/-- A message that a crash left behind crashes every later life exactly when it is poisonous. -/
theorem crashLoop_iff : CrashLoop env (w.crashedOn raw) ↔ Poisonous env w raw := by
  constructor
  · intro h
    exact poisonous_of_live (h 0)
  · intro h n
    have hlive := live_of_poisonous h
    have hstuck : (fun w => (live env w).2)^[n] (w.crashedOn raw) = w.crashedOn raw := by
      apply Function.iterate_fixed
      rw [hlive]
    rw [hstuck, hlive]

end Loop

/-- Processing a message does not panic, and the consumer does not get caught in a crash loop on it,
exactly when the message is not poisonous. -/
theorem processSubmissionData_safe (env : EgressEnv) (rawSubmissionData : Payload) (w : World) :
    ((processSubmissionData env rawSubmissionData).run w).1 ≠ .panic ∧
        ¬ CrashLoop env (w.crashedOn rawSubmissionData) ↔
      ¬ Poisonous env w rawSubmissionData := by
  rw [Ne, processSubmissionData_panics, crashLoop_iff, and_self]

/-- An auth id of six bytes crashes the consumer, again and again. -/
theorem short_auth_id_crashes :
    ¬ (((processSubmissionData .quiet acceptFirst.marshal).run
          (World.oneSubmission (utf8 "solver"))).1 ≠ .panic ∧
        ¬ CrashLoop .quiet ((World.oneSubmission (utf8 "solver")).crashedOn acceptFirst.marshal)) := by
  rintro ⟨hsafe, -⟩
  exact hsafe (by decide +kernel)

end Bsg.Central
