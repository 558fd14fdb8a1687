import Bsg.Central.Poison

/-!
# The listener's decision

What the listener does with a message depends on how its processing ends: a panic leaves the message
in processing, an error that it takes for transient puts the message back onto the queue, and
anything else drops it. `processPayload_settles` says that once the verdict is written, the message
is dropped, whatever else fails; the lemmas about `listenForSubmissionData` count the copies of the
message that are left.
-/

namespace Bsg.Central

open Bsg.Foundations

/-! ## The verdict is written, or the message is kept -/

/-- An error for which the listener drops the message. -/
def GoError.Plain (e : GoError) : Prop := e.isTransient = false

/-- Working out the points reports no error. -/
theorem raises_earn (env : EgressEnv) (s : Submission) (verdict : String) :
    Call.Raises (fun _ => False) (earn env s verdict) := by
  -- A failing count is taken for no repeats.
  have hrepeat : ∀ earned, Call.Raises (fun _ => False) (withoutRepeats env s earned) := by
    intro earned
    unfold withoutRepeats
    refine Call.Raises.ite _ ?_ ?_
    · refine Call.Raises.bind (Call.Raises.attempt _) ?_
      intro count
      split <;> exact Call.Raises.pure _
    · exact Call.Raises.pure _
  -- A failing lookup earns nothing; the slice of the author's id may panic, which is no error.
  have hround : Call.Raises (fun _ => False) (earnRound env s) := by
    unfold earnRound
    refine Call.Raises.bind (Call.Raises.attempt _) ?_
    rintro (e | ⟨rs, authID⟩)
    · exact Call.Raises.pure _
    · simp only
      split
      · exact Call.Raises.crash
      · refine Call.Raises.bind (Call.Raises.attempt _) ?_
        rintro (e | user) <;> exact Call.Raises.pure _
  by_cases ha : verdict = submissionStatusAccepted
  · by_cases ho : s.submissionOwnerType = ownerRoundSubmissions
    · simp only [earn, if_pos ha, if_pos ho]
      exact Call.Raises.bind hround hrepeat
    · simp only [earn, if_pos ha, if_neg ho]
      exact hrepeat ⟨0, 0⟩
  · simp only [earn, if_neg ha]
    exact Call.Raises.pure _

/-- The leaderboards report only plain errors. -/
theorem raises_addToLeaderboard (env : EgressEnv) (lbUserID : ℕ) (difficulty : String)
    (points : UInt64) :
    Call.Raises GoError.Plain (addToLeaderboard env lbUserID difficulty points) := by
  have hinsert : ∀ lb, Call.Raises GoError.Plain
      (insertLeaderboard env.leaderboardHint lb) := by
    intro lb
    unfold insertLeaderboard
    refine Call.Raises.bind (Call.Raises.read _) ?_
    intro fits
    refine Call.Raises.ite _ ?_ ?_
    · refine Call.Raises.bind (Call.Raises.read _) ?_
      exact fun id => Call.Raises.bind (Call.Raises.write _) fun _ => Call.Raises.pure _
    · exact Call.Raises.fail (show GoError.Plain (.other _) from rfl)
  -- A row that cannot be found or made is replaced by an empty one, and the error is only logged.
  have hfind : Call.Raises GoError.Plain
      (firstOrCreateLeaderboard env lbUserID) := by
    unfold firstOrCreateLeaderboard
    refine Call.Raises.bind (Call.Raises.attempt _) ?_
    rintro (e | _ | lb)
    · exact Call.Raises.pure _
    · refine Call.Raises.bind (Call.Raises.attempt _) ?_
      rintro (e | id) <;> exact Call.Raises.pure _
    · exact Call.Raises.pure _
  refine Call.Raises.bind hfind ?_
  intro lb
  unfold saveLeaderboard
  refine Call.Raises.io _ (show GoError.Plain .io from rfl) ?_
  refine Call.Raises.ite _ ?_ ?_
  · exact Call.Raises.bind (hinsert _) fun _ => Call.Raises.pure _
  · exact Call.Raises.write _

/-- The update of the leaderboard raises plain errors only. -/
theorem raises_addToRoundLeaderboard (env : EgressEnv) (s : Submission) (points : UInt64) :
    Call.Raises GoError.Plain (addToRoundLeaderboard env s points) := by
  unfold addToRoundLeaderboard
  refine Call.Raises.ite _ ?_ ?_
  · refine Call.Raises.bind (Call.Raises.attempt _) ?_
    rintro (e | ⟨rs, authID⟩)
    · exact Call.Raises.pure _
    · exact Call.Raises.bind (Call.Raises.attempt _) fun _ => Call.Raises.pure _
  · exact Call.Raises.pure _

/-- The relation puts up with all that processing does besides writing the verdict: it makes users,
and credits leaderboards. -/
structure Absorbs (R : World → World → Prop) : Prop where
  refl : ∀ w, R w w
  trans : ∀ w₁ w₂ w₃, R w₁ w₂ → R w₂ w₃ → R w₁ w₃
  users : ∀ (w : World) (t : Table User), R w { w with db := { w.db with users := t } }
  leaderboards : ∀ (w : World) (t : Table Leaderboard), R w (w.withLeaderboards t)
  credit : ∀ (w : World) (roundID : ℕ) (userID : AuthID) (score : ℕ),
    R w { w with redis := { w.redis with
      leaderboard := Function.update w.redis.leaderboard roundID
        ((w.redis.leaderboard roundID).add userID score) } }

section Absorbs

variable {R : World → World → Prop} {α β : Type}

/-- Returning is no write. -/
private theorem Absorbs.pure (hR : Absorbs R) (a : α) :
    Call.Within R (Pure.pure a : Service α) := Call.Within.pure hR.refl a

/-- Reading is no write. -/
private theorem Absorbs.read (hR : Absorbs R) (f : World → α) :
    Call.Within R (Call.read f : Service α) := Call.Within.read hR.refl f

/-- A sequence of calls writes what its calls write. -/
private theorem Absorbs.bind (hR : Absorbs R) {x : Service α} {f : α → Service β}
    (hx : Call.Within R x) (hf : ∀ a, Call.Within R (f a)) : Call.Within R (x >>= f) :=
  Call.Within.bind hR.trans hx hf

/-- An operation that may fail writes what follows it writes. -/
private theorem Absorbs.io (hR : Absorbs R) {fails : Bool} {e : GoError} {x : Service α}
    (hx : Call.Within R x) : Call.Within R (Call.io fails e x) :=
  Call.Within.io hR.refl fails e hx

/-- Looking a submission up is no write. -/
theorem Absorbs.findRoundSubmission (hR : Absorbs R) (fails : Bool) (id : ℕ) :
    Call.Within R (findRoundSubmission fails id) := by
  unfold Central.findRoundSubmission
  apply hR.io
  apply hR.bind (hR.read _)
  rintro (_ | rs)
  · exact Call.Within.fail hR.refl _
  · exact hR.bind (hR.read _) fun _ => hR.pure _

/-- A new user is absorbed. -/
theorem Absorbs.firstOrCreateUser (hR : Absorbs R) (env : EgressEnv) (authID idPrefix : AuthID) :
    Call.Within R (firstOrCreateUser env authID idPrefix) := by
  unfold Central.firstOrCreateUser
  apply hR.bind (hR.io (hR.read _))
  rintro (_ | user)
  · apply hR.io
    apply hR.bind (hR.read _)
    intro id
    exact hR.bind (Call.Within.write fun w => hR.users w _) fun _ => hR.pure _
  · exact hR.pure _

/-- Reading what a verdict earns is no write. -/
theorem Absorbs.earn (hR : Absorbs R) (env : EgressEnv) (s : Submission) (verdict : String) :
    Call.Within R (earn env s verdict) := by
  -- Of all that is worked out here only a new user is written.
  have hrepeat : ∀ earned, Call.Within R (withoutRepeats env s earned) := by
    intro earned
    unfold withoutRepeats
    apply Call.Within.ite
    · apply hR.bind (Call.Within.attempt (hR.io (hR.read _)))
      intro count
      split <;> exact hR.pure _
    · exact hR.pure _
  have hround : Call.Within R (earnRound env s) := by
    unfold earnRound
    apply hR.bind (Call.Within.attempt (hR.findRoundSubmission _ _))
    rintro (e | ⟨rs, authID⟩)
    · exact hR.pure _
    · simp only
      split
      · exact Call.Within.crash hR.refl
      · apply hR.bind (Call.Within.attempt (hR.firstOrCreateUser env _ _))
        rintro (e | user) <;> exact hR.pure _
  unfold Central.earn
  apply Call.Within.ite
  · apply Call.Within.ite
    · exact hR.bind hround hrepeat
    · exact hR.bind (hR.pure _) hrepeat
  · exact hR.pure _

/-- The score of a round is absorbed. -/
theorem Absorbs.addToRoundLeaderboard (hR : Absorbs R) (env : EgressEnv) (s : Submission)
    (points : UInt64) : Call.Within R (addToRoundLeaderboard env s points) := by
  unfold Central.addToRoundLeaderboard
  apply Call.Within.ite
  · apply hR.bind (Call.Within.attempt (hR.findRoundSubmission _ _))
    rintro (e | ⟨rs, authID⟩)
    · exact hR.pure _
    · refine hR.bind (Call.Within.attempt ?_) fun _ => hR.pure _
      unfold updateLeaderboardScore
      apply hR.bind (hR.io (hR.read _))
      exact fun entry => hR.io (Call.Within.write fun w => hR.credit w _ _ _)
  · exact hR.pure _

/-- A new row of the leaderboard is absorbed. -/
theorem Absorbs.insertLeaderboard (hR : Absorbs R) (hint : ℕ) (lb : Leaderboard) :
    Call.Within R (insertLeaderboard hint lb) := by
  unfold Central.insertLeaderboard
  apply hR.bind (hR.read _)
  intro fits
  apply Call.Within.ite
  · apply hR.bind (hR.read _)
    exact fun id =>
      hR.bind (Call.Within.write fun w => hR.leaderboards w _) fun _ => hR.pure _
  · exact Call.Within.fail hR.refl _

/-- An update of the leaderboard is absorbed. -/
theorem Absorbs.addToLeaderboard (hR : Absorbs R) (env : EgressEnv) (lbUserID : ℕ)
    (difficulty : String) (points : UInt64) :
    Call.Within R (addToLeaderboard env lbUserID difficulty points) := by
  have hfind : Call.Within R (firstOrCreateLeaderboard env lbUserID) := by
    unfold firstOrCreateLeaderboard
    apply hR.bind (Call.Within.attempt (hR.io (hR.read _)))
    rintro (e | _ | lb)
    · exact hR.pure _
    · apply hR.bind (Call.Within.attempt (hR.io (hR.insertLeaderboard _ _)))
      rintro (e | id) <;> exact hR.pure _
    · exact hR.pure _
  apply hR.bind hfind
  intro lb
  unfold saveLeaderboard
  apply hR.io
  apply Call.Within.ite
  · exact hR.bind (hR.insertLeaderboard _ _) fun _ => hR.pure _
  · exact Call.Within.write fun w => hR.leaderboards w _

end Absorbs

/-- Neither the submissions nor the queue from the worker changed. -/
def SameWork (w w' : World) : Prop :=
  w'.db.submissions = w.db.submissions ∧ w'.redis.egress = w.redis.egress

/-- None of these is part of the work that is to be done. -/
theorem absorbs_sameWork : Absorbs SameWork where
  refl _ := ⟨rfl, rfl⟩
  trans _ _ _ h h' := ⟨h'.1.trans h.1, h'.2.trans h.2⟩
  users _ _ := ⟨rfl, rfl⟩
  leaderboards _ _ := ⟨rfl, rfl⟩
  credit _ _ _ _ := ⟨rfl, rfl⟩

/-- Once the points are known and the verdict can be written, the verdict is written, and whatever
happens afterwards makes the listener drop the message. -/
theorem processPayload_settles {env : EgressEnv} {payload : SubmissionEgressDTO} {w : World}
    {s : Submission} (hload : env.fails .loadSubmission = false)
    (hs : w.db.submissions.find? payload.submissionId = some s)
    (hsound : ((earn env s payload.verdict).run w).1 ≠ .panic)
    (hv : env.fails .updateVerdict = false) :
    ∃ o w', (processPayload env payload).run w = (o, w') ∧ o ≠ .panic ∧
      (∀ e, o = .err e → e.Plain) ∧
      w'.db.submissions = setVerdict w.db.submissions payload.submissionId payload.verdict ∧
      w'.redis.egress = w.redis.egress := by
  obtain ⟨earned, w₁, hearn⟩ := (raises_earn env s payload.verdict).returns hsound
  have hwork : SameWork w w₁ := by
    have := absorbs_sameWork.earn env s payload.verdict w
    rwa [hearn] at this
  have hrun := processPayload_run hload hs hearn hv
  -- What comes after the verdict neither panics nor asks for a retry, and touches no row.
  have hcalm : Call.Calm (addToRoundLeaderboard env s earned.scoreToAdd >>= fun _ =>
      addToLeaderboard env earned.lbUserID (w.db.difficultySeen env s) earned.scoreToAdd) :=
    Call.Calm.bind (calm_addToRoundLeaderboard _ _ _) fun _ => calm_addToLeaderboard _ _ _ _
  have hplain : Call.Raises GoError.Plain (addToRoundLeaderboard env s earned.scoreToAdd >>=
      fun _ => addToLeaderboard env earned.lbUserID (w.db.difficultySeen env s)
        earned.scoreToAdd) :=
    Call.Raises.bind (raises_addToRoundLeaderboard _ _ _) fun _ => raises_addToLeaderboard _ _ _ _
  have hsame : Call.Within SameWork (addToRoundLeaderboard env s earned.scoreToAdd >>= fun _ =>
      addToLeaderboard env earned.lbUserID (w.db.difficultySeen env s) earned.scoreToAdd) :=
    Call.Within.bind absorbs_sameWork.trans (absorbs_sameWork.addToRoundLeaderboard _ _ _) fun _ =>
      absorbs_sameWork.addToLeaderboard _ _ _ _
  have hverdict : (w₁.withVerdict payload.submissionId payload.verdict).db.submissions =
      setVerdict w.db.submissions payload.submissionId payload.verdict := by
    rw [← hwork.1]
    rfl
  by_cases hpay : payload.verdict = submissionStatusAccepted ∧ earned.scoreToAdd ≠ 0
  · rw [if_pos hpay] at hrun
    have hframe := hsame (w₁.withVerdict payload.submissionId payload.verdict)
    have hnot := hcalm (w₁.withVerdict payload.submissionId payload.verdict)
    have herr := hplain (w₁.withVerdict payload.submissionId payload.verdict)
    rw [← hrun] at hframe hnot herr
    exact ⟨_, _, Prod.mk.eta.symm, hnot, herr, hframe.1.trans hverdict, hframe.2.trans hwork.2⟩
  · rw [if_neg hpay] at hrun
    refine ⟨_, _, hrun, by simp, fun e he => ?_, hverdict, hwork.2⟩
    cases he

/-! ## The decision -/

/-- The copies of a message, in the queue and in processing. -/
def RedisQueue.copies (q : RedisQueue) (payload : Payload) : ℕ :=
  q.queue.count payload + q.processing.count payload

/-- The state with a message that is next in the queue. -/
def World.delivering (w : World) (rawSubmissionData : Payload) : World :=
  { w with redis := { w.redis with
      egress := ⟨rawSubmissionData :: w.redis.egress.queue, w.redis.egress.processing⟩ } }

/-- The state with that message consumed. -/
def World.consuming (w : World) (rawSubmissionData : Payload) : World :=
  { w with redis := { w.redis with
      egress := ⟨w.redis.egress.queue, w.redis.egress.processing ++ [rawSubmissionData]⟩ } }

/-- The same state with another queue from the worker. -/
def World.withEgress (w : World) (q : RedisQueue) : World :=
  { w with redis := { w.redis with egress := q } }

section Decision

variable {env : EgressEnv} {raw : Payload} {w w' : World}

/-- A state with a message next in the queue is one to which it is delivered. -/
theorem delivering_of_queue {rest : List Payload} (h : w.redis.egress.queue = raw :: rest) :
    (w.withEgress ⟨rest, w.redis.egress.processing⟩).delivering raw = w := by
  have hegress : (⟨raw :: rest, w.redis.egress.processing⟩ : RedisQueue) = w.redis.egress := by
    rw [← h]
  show ({ w with redis := { w.redis with
    egress := ⟨raw :: rest, w.redis.egress.processing⟩ } } : World) = w
  rw [hegress]

/-- A round of the listener handles the payload at the head of the queue. -/
theorem listen_delivering (env : EgressEnv) (raw : Payload) (w : World) :
    (listenForSubmissionData env).run (w.delivering raw) =
      (handleSubmissionData env raw).run (w.consuming raw) := rfl

/-- A message whose processing returns is dropped. -/
theorem listen_ok (h : (processSubmissionData env raw).run (w.consuming raw) = (.ok (), w')) :
    (listenForSubmissionData env).run (w.delivering raw) =
      (.ok (), w'.withEgress (w'.redis.egress.ack raw)) := by
  rw [listen_delivering, handleSubmissionData, Call.attempt_ok h]
  rfl

/-- A message whose processing ends with a plain error is dropped. -/
theorem listen_plain {e : GoError} (he : e.Plain)
    (h : (processSubmissionData env raw).run (w.consuming raw) = (.err e, w')) :
    (listenForSubmissionData env).run (w.delivering raw) =
      (.ok (), w'.withEgress (w'.redis.egress.ack raw)) := by
  rw [listen_delivering, handleSubmissionData, Call.attempt_err h]
  simp only
  rw [if_neg (by simp [show e.isTransient = false from he])]
  rfl

/-- A message whose processing ends with a transient error is put back. -/
theorem listen_transient {e : GoError} (he : e.isTransient = true)
    (h : (processSubmissionData env raw).run (w.consuming raw) = (.err e, w')) :
    (listenForSubmissionData env).run (w.delivering raw) =
      (.ok (), w'.withEgress (w'.redis.egress.requeue raw)) := by
  rw [listen_delivering, handleSubmissionData, Call.attempt_err h]
  simp only
  rw [if_pos he]
  rfl

/-- A message whose processing panics stays in processing. -/
theorem listen_panic (h : (processSubmissionData env raw).run (w.consuming raw) = (.panic, w')) :
    (listenForSubmissionData env).run (w.delivering raw) = (.panic, w') := by
  rw [listen_delivering, handleSubmissionData, Call.attempt_panic h]

/-- The payload is in the queue once more than before. -/
theorem copies_delivering (raw : Payload) (w : World) :
    (w.delivering raw).redis.egress.copies raw = w.redis.egress.copies raw + 1 := by
  simp only [RedisQueue.copies, World.delivering, List.count_cons_self]
  omega

/-- The payload is in processing once more than before. -/
theorem copies_consuming (raw : Payload) (w : World) :
    (w.consuming raw).redis.egress.copies raw = w.redis.egress.copies raw + 1 := by
  simp only [RedisQueue.copies, World.consuming, List.count_append, List.count_singleton_self]
  omega

/-- A message that is dropped has one copy less. -/
theorem copies_ack (raw : Payload) (w : World) :
    ((w.consuming raw).redis.egress.ack raw).copies raw = w.redis.egress.copies raw := by
  simp only [RedisQueue.copies, RedisQueue.ack, World.consuming, List.count_erase_self,
    List.count_append, List.count_singleton_self]
  omega

/-- A message that is put back has as many copies as before. -/
theorem copies_requeue (raw : Payload) (w : World) :
    ((w.consuming raw).redis.egress.requeue raw).copies raw = w.redis.egress.copies raw + 1 := by
  simp only [RedisQueue.copies, RedisQueue.requeue, World.consuming, List.count_erase_self,
    List.count_append, List.count_singleton_self]
  omega

end Decision

end Bsg.Central
