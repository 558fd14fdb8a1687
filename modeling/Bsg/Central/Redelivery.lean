import Bsg.Central.Processing

/-!
# A message that is delivered again

The queue delivers at least once: a consumer that crashes after it processed a message finds the
message again. `processSubmissionData` does not recognise its own earlier work. The count of other
accepted submissions leaves out the submission itself, so a message that was owed points is owed the
same points again (`Judged.due_again`).

`processSubmissionData_twice` says when a second processing changes nothing: exactly when the
message was not owed anything, or panics.
-/

namespace Bsg.Central

open Bsg.Foundations

/-! ## What a second processing finds -/

/-- Writing the same verdict twice is writing it once. -/
theorem setVerdict_setVerdict (t : Table Submission) (id : ℕ) (verdict : String) :
    setVerdict (setVerdict t id verdict) id verdict = setVerdict t id verdict := by
  apply Table.ext
  simp only [setVerdict, Table.rows_modify, List.map_map]
  refine List.map_congr_left fun s _ => ?_
  by_cases hid : Row.id s = id
  · simp only [Function.comp_apply, if_pos hid]
    exact ite_self _
  · simp only [Function.comp_apply, if_neg hid]

/-- The user that was found or made for an auth id is found from then on. -/
theorem DB.userByAuthID_withUserFor (db : DB) (env : EgressEnv) (authID : AuthID) :
    (db.withUserFor env authID).userByAuthID authID = some (db.userFor env authID) := by
  unfold DB.withUserFor DB.userFor
  cases hu : db.userByAuthID authID with
  | some user => exact hu
  | none =>
    exact Table.first?_insert_of_none db.users (fun _ => rfl) hu (by simp [placeholderUser])

/-- The user who was created is found again. -/
theorem DB.userFor_again (db : DB) (env env' : EgressEnv) (authID : AuthID) :
    (db.withUserFor env authID).userFor env' authID = db.userFor env authID := by
  have hfound := db.userByAuthID_withUserFor env authID
  unfold DB.userFor at hfound ⊢
  rw [hfound]
  rfl

section Again

variable {env env' : EgressEnv} {payload : SubmissionEgressDTO} {verdict : String} {db db' : DB}
  {s : Submission}

/-- The submission is found again. -/
theorem Judged.found_again (h : Judged env payload verdict db db')
    (hs : db.submissions.find? payload.submissionId = some s) :
    db'.submissions.find? payload.submissionId = some (s.withVerdict verdict) := by
  rw [h.submissions, setVerdict, Table.find?_modify, if_pos rfl, hs]
  rfl

/-- The second time the submission has the same owner. -/
theorem Judged.ownerOf_again (h : Judged env payload verdict db db') (s : Submission) :
    db'.ownerOf (s.withVerdict verdict) = db.ownerOf s := by
  simp only [DB.ownerOf, h.roundSubmissions, Submission.withVerdict_submissionOwnerType,
    Submission.withVerdict_submissionOwnerID]

/-- It has the same author. -/
theorem Judged.authorOf_again (h : Judged env payload verdict db db') (rs : RoundSubmission) :
    db'.authorOf rs = db.authorOf rs := by
  simp only [DB.authorOf, h.participants]

/-- Its problem has the same difficulty. -/
theorem Judged.difficultyOf_again (h : Judged env payload verdict db db') (s : Submission) :
    db'.difficultyOf (s.withVerdict verdict) = db.difficultyOf s := by
  simp only [DB.difficultyOf, h.problems, Submission.withVerdict_problemID]

/-- The verdict of the submission itself does not count as a repeat. -/
theorem Judged.acceptedElsewhere_again (h : Judged env payload verdict db db')
    (hs : db.submissions.find? payload.submissionId = some s) (user : User) :
    db'.acceptedElsewhere (s.withVerdict verdict) user = db.acceptedElsewhere s user := by
  have hid : s.id = payload.submissionId := (Table.find?_eq_some.mp hs).2
  have howner : ∀ r, db'.submittedBy r user = db.submittedBy r user := by
    intro r
    simp only [DB.submittedBy, h.roundSubmissions, h.participants]
  simp only [DB.acceptedElsewhere, howner, h.submissions, setVerdict, Table.rows_modify,
    List.any_map]
  congr 1
  funext r
  by_cases hr : r.id = payload.submissionId
  · simp [hr, hid, Row.id]
  · simp [hr, Row.id]

/-- The user of an accepted submission is the same the second time. -/
theorem Judged.userFor_again (h : Judged env payload verdict db db')
    (hs : db.submissions.find? payload.submissionId = some s)
    (ha : payload.verdict = submissionStatusAccepted) {rs : RoundSubmission}
    (ho : db.ownerOf s = some rs) :
    db'.userFor env' (db.authorOf rs) = db.userFor env (db.authorOf rs) := by
  have husers : db'.users = (db.withUserFor env (db.authorOf rs)).users := by
    rw [h.users s hs, DB.afterEarning, if_pos ha, ho]
  rw [← db.userFor_again env env']
  simp only [DB.userFor, DB.userByAuthID, husers]

/-- What a message is owed, it is owed again once its verdict is written and its user exists. -/
theorem Judged.due_again (h : Judged env payload verdict db db')
    (hs : db.submissions.find? payload.submissionId = some s) :
    db'.due env' payload = db.due env payload := by
  rw [DB.due_of_find hs, DB.due_of_find (h.found_again hs), h.ownerOf_again]
  cases ho : db.ownerOf s with
  | none => rfl
  | some rs =>
    by_cases ha : payload.verdict = submissionStatusAccepted
    · have huser : db'.userFor env' (db.authorOf rs) = db.userFor env (db.authorOf rs) :=
        h.userFor_again hs ha ho
      have hrepeat := h.acceptedElsewhere_again hs (db.userFor env (db.authorOf rs))
      simp only [DB.earned, if_pos ha, h.ownerOf_again, ho, h.authorOf_again, huser, hrepeat,
        h.difficultyOf_again]
    · simp only [DB.earned, if_neg ha, if_true]

/-- A message does not become poisonous, and does not cease to be so. -/
theorem Judged.poison_again (h : Judged env payload verdict db db')
    (hs : db.submissions.find? payload.submissionId = some s) :
    db'.poison payload = db.poison payload := by
  unfold DB.poison
  rw [hs, h.found_again hs]
  simp only [DB.shortAuthor, h.ownerOf_again, h.authorOf_again]

end Again

/-! ## Processing twice -/

/-- The verdicts, the leaderboards of the rounds and the global leaderboard are the same. -/
structure SameScores (w w' : World) : Prop where
  submissions : w'.db.submissions = w.db.submissions
  leaderboard : w'.redis.leaderboard = w.redis.leaderboard
  leaderboards : w'.db.leaderboards = w.db.leaderboards

/-- The scores are those that they are. -/
theorem SameScores.refl (w : World) : SameScores w w := ⟨rfl, rfl, rfl⟩

/-- The state after a message was processed without faults. -/
def World.afterProcessing (w : World) (env : EgressEnv) (rawSubmissionData : Payload) : World :=
  ((processSubmissionData env.healthy rawSubmissionData).run w).2

section Twice

variable {env env' : EgressEnv} {payload : SubmissionEgressDTO} {raw : Payload} {w : World}

/-- A message that cannot be read changes nothing. -/
theorem afterProcessing_of_none (h : SubmissionEgressDTO.unmarshal raw = none) :
    w.afterProcessing env raw = w := by
  unfold World.afterProcessing processSubmissionData
  rw [h]
  rfl

/-- A message that can be read does what its payload says. -/
theorem afterProcessing_of_some (h : SubmissionEgressDTO.unmarshal raw = some payload) :
    w.afterProcessing env raw = ((processPayload env.healthy payload).run w).2 := by
  unfold World.afterProcessing processSubmissionData
  rw [h]

/-- Points that are credited change a row. -/
theorem Leaderboard.credit_ne (lb : Leaderboard) (difficulty : String) {points : UInt64}
    (h : points ≠ 0) : lb.credit difficulty points ≠ lb := by
  intro he
  have htotal : lb.totalScore + points = lb.totalScore := congrArg Leaderboard.totalScore he
  exact h (UInt64.add_eq_left.mp htotal)

/-- Processing a sound message twice gives the same scores exactly when nothing was due. -/
theorem sameScores_twice {s : Submission} {w₁ w₂ : World}
    (hs : w.db.submissions.find? payload.submissionId = some s)
    (h₁ : Processed env payload w w₁) (h₂ : Processed env' payload w₁ w₂) :
    SameScores w₁ w₂ ↔ w.db.due env payload = none := by
  have hagain : w₁.db.due env' payload = w.db.due env payload := h₁.judged.due_again hs
  constructor
  · intro hsame
    cases hd : w.db.due env payload with
    | none => rfl
    | some d =>
      have hpoints : d.points ≠ 0 := by
        obtain ⟨-, -, -, -, h0, -⟩ := due_eq_some hs hd
        exact h0
      have hstand := h₂.paid d (hagain.trans hd) d.userID
      rw [if_pos rfl, hsame.leaderboards] at hstand
      exact absurd hstand.symm (Leaderboard.credit_ne _ _ hpoints)
  · intro hd
    have hd' : w₁.db.due env' payload = none := hagain.trans hd
    constructor
    · rw [h₂.judged.submissions, h₁.judged.submissions, setVerdict_setVerdict]
    · rw [h₂.redis, hd']
    · exact h₂.unpaid hd'

end Twice

/-- A message that is processed twice leaves everything as the first processing did, exactly when
it is owed nothing or makes the processing panic. -/
theorem processSubmissionData_twice (env env' : EgressEnv) (rawSubmissionData : Payload)
    (w : World) :
    SameScores (w.afterProcessing env rawSubmissionData)
        ((w.afterProcessing env rawSubmissionData).afterProcessing env' rawSubmissionData) ↔
      ∀ payload, SubmissionEgressDTO.unmarshal rawSubmissionData = some payload →
        w.db.Owed env payload → w.db.poison payload = true := by
  cases hraw : SubmissionEgressDTO.unmarshal rawSubmissionData with
  | none =>
    rw [afterProcessing_of_none hraw, afterProcessing_of_none hraw]
    simp [SameScores.refl]
  | some payload =>
    have hcond : (∀ payload', some payload = some payload' → w.db.Owed env payload' →
        w.db.poison payload' = true) ↔
          (w.db.Owed env payload → w.db.poison payload = true) := by
      simp
    rw [hcond, afterProcessing_of_some hraw, afterProcessing_of_some hraw, ← DB.due_isSome]
    cases hs : w.db.submissions.find? payload.submissionId with
    | none =>
      have hdue : w.db.due env payload = none := by rw [DB.due, hs]
      rw [processPayload_missing rfl hs, processPayload_missing rfl hs, hdue]
      simp [SameScores.refl]
    | some s =>
      cases hp : w.db.poison payload with
      | true =>
        rw [processPayload_poison rfl rfl hp, processPayload_poison rfl rfl hp]
        simp [SameScores.refl]
      | false =>
        obtain ⟨w₁, hrun₁, h₁⟩ := processPayload_healthy env hs hp
        -- The second processing meets the same submission, which is no more poisonous.
        obtain ⟨w₂, hrun₂, h₂⟩ := processPayload_healthy env' (h₁.judged.found_again hs)
          ((h₁.judged.poison_again hs).trans hp)
        rw [hrun₁, hrun₂, sameScores_twice hs h₁ h₂, DB.due_healthy]
        cases w.db.due env payload <;> simp

/-- An auth id that is long enough. -/
def solver : AuthID := utf8 "auth0|solver"

/-- A started round with an easy problem and one participant, without submissions. -/
def World.oneRound (authID : AuthID) : World :=
  { World.empty with
    db := { DB.empty with
      problems := Table.empty.insert 1 fun id =>
        ⟨id, "two-sum", [], difficultyEasy, false, false, false⟩
      rounds := Table.empty.insert 1 fun id => ⟨id, 0, 30, "room", .started⟩
      roundProblems := [(1, 1)]
      participants := Table.empty.insert 1 fun id => ⟨id, authID, 1, 0, 0⟩ } }

/-- The round in which its participant, who is a user, made one accepted submission. -/
def World.oneSubmission (authID : AuthID) : World :=
  { World.oneRound authID with
    db := { (World.oneRound authID).db with
      users := Table.empty.insert 1 fun id => ⟨id, [], [], [], [], authID, []⟩
      roundSubmissions := Table.empty.insert 1 fun id => ⟨id, 1, 1, 3⟩
      submissions := Table.empty.insert 1 fun id =>
        ⟨id, "code", "go", 1, submissionStatusAccepted, 0, 1, ownerRoundSubmissions, 0⟩ } }

/-- The message that accepts the first submission. -/
def acceptFirst : SubmissionEgressDTO := ⟨1, submissionStatusAccepted, []⟩

/-- An environment in which nothing fails. -/
def EgressEnv.quiet : EgressEnv := ⟨fun _ => false, 0, 0, 0⟩

/-- The points of an accepted submission are added twice. -/
theorem not_sameScores_twice :
    ¬ SameScores
      ((World.oneSubmission solver).afterProcessing .quiet acceptFirst.marshal)
      (((World.oneSubmission solver).afterProcessing .quiet acceptFirst.marshal).afterProcessing
        .quiet acceptFirst.marshal) := by
  intro h
  have hscores := congrArg (fun t => t.rows.map Leaderboard.totalScore) h.leaderboards
  -- three points after the first processing, six after the second
  exact absurd hscores (by decide +kernel)

end Bsg.Central
