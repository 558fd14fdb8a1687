import Bsg.Central.SubmissionQueue

/-!
# What processing a message does

The effects of `processPayload`, stage by stage, as functions of the state before it.

* `DB.earned` is what a message earns, `DB.afterEarning` the database after it was worked out (a
  user may have been made), and `DB.poison` says that working it out panics.
* `Redis.creditRound` is the credit on the leaderboard of the round, and `standing` the row of a
  user on the global leaderboard, which `addToLeaderboard` credits.
* `DB.due` sums up what a message is owed: round, user, difficulty and points.

Each stage has one lemma that says how it runs when its own operations do not fail; the later
modules only use these.
-/

namespace Bsg.Central

open Bsg.Foundations

/-! ## What a message earns -/

/-- The round submission that a submission belongs to. -/
def DB.ownerOf (db : DB) (s : Submission) : Option RoundSubmission :=
  if s.submissionOwnerType = ownerRoundSubmissions then
    db.roundSubmissions.find? s.submissionOwnerID
  else none

/-- The user of an auth id: the one that exists, or the one that processing makes. -/
def DB.userFor (db : DB) (env : EgressEnv) (authID : AuthID) : User :=
  (db.userByAuthID authID).getD
    (placeholderUser authID (authID.take 8) (db.users.fresh env.userHint))

/-- The database once the user of an auth id exists. -/
def DB.withUserFor (db : DB) (env : EgressEnv) (authID : AuthID) : DB :=
  match db.userByAuthID authID with
  | some _ => db
  | none =>
    { db with users := db.users.insert env.userHint (placeholderUser authID (authID.take 8)) }

/-- What a submission with this verdict earns. -/
def DB.earned (db : DB) (env : EgressEnv) (s : Submission) (verdict : String) : Earned :=
  if verdict = submissionStatusAccepted then
    match db.ownerOf s with
    | none => ⟨0, 0⟩
    | some rs =>
      let user := db.userFor env (db.authorOf rs)
      ⟨if db.acceptedElsewhere s user then 0 else rs.score, user.id⟩
  else ⟨0, 0⟩

/-- The database after it was worked out what a submission earns. -/
def DB.afterEarning (db : DB) (env : EgressEnv) (s : Submission) (verdict : String) : DB :=
  if verdict = submissionStatusAccepted then
    match db.ownerOf s with
    | none => db
    | some rs => db.withUserFor env (db.authorOf rs)
  else db

/-- Working out what the submission earns slices an auth id that is too short. -/
def DB.shortAuthor (db : DB) (s : Submission) (verdict : String) : Bool :=
  decide (verdict = submissionStatusAccepted) &&
    match db.ownerOf s with
    | none => false
    | some rs => decide ((db.authorOf rs).length < 8)

/-- Processing the message panics. -/
def DB.poison (db : DB) (payload : SubmissionEgressDTO) : Bool :=
  match db.submissions.find? payload.submissionId with
  | none => false
  | some s => db.shortAuthor s payload.verdict

/-- What an accepted submission is owed: points for a user on the leaderboard of a round, and on the
global one. -/
structure Due where
  roundID : ℕ
  authID : AuthID
  userID : ℕ
  difficulty : String
  points : UInt64
  deriving DecidableEq, Repr

/-- The difficulty of a submission's problem. -/
def DB.difficultyOf (db : DB) (s : Submission) : String :=
  match db.problems.find? s.problemID with
  | some problem => problem.difficulty
  | none => ""

/-- What the message is owed. -/
def DB.due (db : DB) (env : EgressEnv) (payload : SubmissionEgressDTO) : Option Due :=
  match db.submissions.find? payload.submissionId with
  | none => none
  | some s =>
    match db.ownerOf s with
    | none => none
    | some rs =>
      let earned := db.earned env s payload.verdict
      if earned.scoreToAdd = 0 then none
      else some ⟨rs.roundID, db.authorOf rs, earned.lbUserID, db.difficultyOf s, earned.scoreToAdd⟩

/-- The message is owed points: it accepts the submission of a round that has points, and whose
author has no other accepted submission of the problem. -/
def DB.Owed (db : DB) (env : EgressEnv) (payload : SubmissionEgressDTO) : Prop :=
  ∃ s rs, db.submissions.find? payload.submissionId = some s ∧ db.ownerOf s = some rs ∧
    payload.verdict = submissionStatusAccepted ∧ rs.score ≠ 0 ∧
    db.acceptedElsewhere s (db.userFor env (db.authorOf rs)) = false

/-- Something is due exactly when the message is owed points. -/
theorem DB.due_isSome {db : DB} {env : EgressEnv} {payload : SubmissionEgressDTO} :
    (db.due env payload).isSome ↔ db.Owed env payload := by
  unfold DB.due DB.Owed
  cases hs : db.submissions.find? payload.submissionId with
  | none => simp
  | some s =>
    cases ho : db.ownerOf s with
    | none => simp [ho]
    | some rs =>
      by_cases ha : payload.verdict = submissionStatusAccepted
      · cases he : db.acceptedElsewhere s (db.userFor env (db.authorOf rs)) <;>
          by_cases h0 : rs.score = 0 <;> simp [DB.earned, ha, ho, he, h0]
      · simp [DB.earned, ha, ho]

/-! ## Lookups -/

/-- The round submission is found with its author, or it is not there. -/
theorem findRoundSubmission_run (id : ℕ) (w : World) :
    (findRoundSubmission false id).run w =
      (match w.db.roundSubmissions.find? id with
        | some rs => .ok (rs, w.db.authorOf rs)
        | none => .err (.other "record not found"), w) := by
  simp only [findRoundSubmission, Call.io_false, Call.run_read_bind]
  cases w.db.roundSubmissions.find? id <;> rfl

/-- The user is found, or created when there is none. -/
theorem firstOrCreateUser_run {env : EgressEnv} {authID : AuthID} {w : World}
    (h1 : env.fails .findUser = false)
    (h2 : env.fails .createUser = false ∨ (w.db.userByAuthID authID).isSome) :
    (firstOrCreateUser env authID (authID.take 8)).run w =
      (.ok (w.db.userFor env authID), { w with db := w.db.withUserFor env authID }) := by
  unfold firstOrCreateUser DB.userFor DB.withUserFor
  rw [h1]
  simp only [Call.io_false, Call.run_read_bind]
  cases hu : w.db.userByAuthID authID with
  | some user => rfl
  | none =>
    rw [hu] at h2
    rcases h2 with h2 | h2
    · rw [h2]
      rfl
    · simp at h2

/-- When the user cannot be found or made, nothing changes. -/
theorem firstOrCreateUser_fails {env : EgressEnv} {authID : AuthID} {w : World}
    (h : env.fails .findUser = true ∨
      env.fails .createUser = true ∧ w.db.userByAuthID authID = none) :
    (firstOrCreateUser env authID (authID.take 8)).run w = (.err .io, w) := by
  unfold firstOrCreateUser
  cases hf : env.fails .findUser with
  | true => rfl
  | false =>
    obtain ⟨h1, h2⟩ : env.fails .createUser = true ∧ w.db.userByAuthID authID = none := by
      simpa [hf] using h
    simp only [Call.io_false, Call.run_read_bind, h2, h1, Call.io_true]
    rfl

/-- The user of an auth id exists once it was looked for. -/
theorem DB.find?_userFor (db : DB) (env : EgressEnv) (authID : AuthID) :
    (db.withUserFor env authID).users.find? (db.userFor env authID).id =
      some (db.userFor env authID) := by
  unfold DB.withUserFor DB.userFor
  cases h : db.userByAuthID authID with
  | some user => exact Table.find?_id (Table.first?_mem h).1
  | none => exact Table.find?_insert_self _ _ _ fun _ => rfl

/-- A user has a key. -/
theorem DB.userFor_id_ne_zero (db : DB) (env : EgressEnv) (authID : AuthID) :
    (db.userFor env authID).id ≠ 0 := by
  intro h
  have := db.find?_userFor env authID
  rw [h, Table.find?_zero] at this
  cases this

/-- Making a user changes none of the other tables. -/
theorem DB.withUserFor_eq (db : DB) (env : EgressEnv) (authID : AuthID) :
    db.withUserFor env authID = { db with users := (db.withUserFor env authID).users } := by
  unfold DB.withUserFor
  cases db.userByAuthID authID <;> rfl

/-- Who submitted what does not depend on the table of users. -/
theorem DB.acceptedElsewhere_users (db : DB) (t : Table User) (s : Submission) (user : User) :
    ({ db with users := t } : DB).acceptedElsewhere s user = db.acceptedElsewhere s user := rfl

/-! ## Running the stages -/

/-- The operations that work out what a submission earns go well. A user that exists need not be
created, and where there is no repeat, the count of repeats does not matter. -/
structure EarnsWell (env : EgressEnv) (db : DB) (s : Submission) : Prop where
  loadRoundSubmission : env.fails .loadRoundSubmission = false
  findUser : env.fails .findUser = false
  createUser : env.fails .createUser = false ∨
    ∀ rs, db.ownerOf s = some rs → (db.userByAuthID (db.authorOf rs)).isSome
  countAccepted : env.fails .countAccepted = false ∨
    ∀ rs, db.ownerOf s = some rs →
      db.acceptedElsewhere s (db.userFor env (db.authorOf rs)) = false

/-- Where there is nothing to deduct, the score stays. -/
theorem withoutRepeats_zero (env : EgressEnv) (s : Submission) (score : UInt64) (w : World) :
    (withoutRepeats env s ⟨score, 0⟩).run w = (.ok ⟨score, 0⟩, w) := rfl

/-- Repeats are not paid, as far as they can be counted. -/
theorem withoutRepeats_run {env : EgressEnv} {s : Submission} {score : UInt64} {w : World}
    {user : User} (h : w.db.users.find? user.id = some user) (h0 : user.id ≠ 0) :
    (withoutRepeats env s ⟨score, user.id⟩).run w =
      (.ok ⟨if env.fails .countAccepted = false ∧ w.db.acceptedElsewhere s user = true then 0
        else score, user.id⟩, w) := by
  simp only [withoutRepeats, ne_eq, h0, not_false_eq_true, if_true]
  cases hc : env.fails .countAccepted with
  | true => rfl
  | false =>
    rw [Call.io_false, Call.attempt_ok (a := w.db.acceptedElsewhere s user) (t := w)]
    · cases w.db.acceptedElsewhere s user <;> simp
    · simp only [Call.run_read, h]

/-- A short auth id makes the round's part panic. -/
theorem earnRound_short {env : EgressEnv} {s : Submission} {w : World} {rs : RoundSubmission}
    (hl : env.fails .loadRoundSubmission = false)
    (hrs : w.db.roundSubmissions.find? s.submissionOwnerID = some rs)
    (h8 : (w.db.authorOf rs).length < 8) : (earnRound env s).run w = (.panic, w) := by
  unfold earnRound
  rw [hl, Call.attempt_ok (a := (rs, w.db.authorOf rs)) (t := w)]
  · simp only [GoText.prefix?, if_neg (Nat.not_le.mpr h8)]
    rfl
  · rw [findRoundSubmission_run, hrs]

/-- Without the round submission nothing is earned. -/
theorem earnRound_missing {env : EgressEnv} {s : Submission} {w : World}
    (h : env.fails .loadRoundSubmission = true ∨
      w.db.roundSubmissions.find? s.submissionOwnerID = none) :
    (earnRound env s).run w = (.ok ⟨0, 0⟩, w) := by
  unfold earnRound
  cases hl : env.fails .loadRoundSubmission with
  | true =>
    rw [Call.attempt_err (e := .io) (t := w) rfl]
    rfl
  | false =>
    have hrs : w.db.roundSubmissions.find? s.submissionOwnerID = none := by simpa [hl] using h
    rw [Call.attempt_err (e := .other "record not found") (t := w)]
    · rfl
    · rw [findRoundSubmission_run, hrs]

/-- The points of a round submission and its user. -/
theorem earnRound_run {env : EgressEnv} {s : Submission} {w : World} {rs : RoundSubmission}
    (hl : env.fails .loadRoundSubmission = false) (hf : env.fails .findUser = false)
    (hc : env.fails .createUser = false ∨ (w.db.userByAuthID (w.db.authorOf rs)).isSome)
    (hrs : w.db.roundSubmissions.find? s.submissionOwnerID = some rs)
    (h8 : 8 ≤ (w.db.authorOf rs).length) :
    (earnRound env s).run w =
      (.ok ⟨rs.score, (w.db.userFor env (w.db.authorOf rs)).id⟩,
        { w with db := w.db.withUserFor env (w.db.authorOf rs) }) := by
  unfold earnRound
  rw [hl, Call.attempt_ok (a := (rs, w.db.authorOf rs)) (t := w)]
  · simp only [GoText.prefix?, if_pos h8]
    rw [Call.attempt_ok (firstOrCreateUser_run hf hc)]
    rfl
  · rw [findRoundSubmission_run, hrs]

/-- Without its user, a round submission keeps its points, but there is nobody to give them to. -/
theorem earnRound_userless {env : EgressEnv} {s : Submission} {w : World} {rs : RoundSubmission}
    (hl : env.fails .loadRoundSubmission = false)
    (hu : env.fails .findUser = true ∨
      env.fails .createUser = true ∧ w.db.userByAuthID (w.db.authorOf rs) = none)
    (hrs : w.db.roundSubmissions.find? s.submissionOwnerID = some rs)
    (h8 : 8 ≤ (w.db.authorOf rs).length) :
    (earnRound env s).run w = (.ok ⟨rs.score, 0⟩, w) := by
  unfold earnRound
  rw [hl, Call.attempt_ok (a := (rs, w.db.authorOf rs)) (t := w)]
  · simp only [GoText.prefix?, if_pos h8]
    rw [Call.attempt_err (firstOrCreateUser_fails hu)]
    rfl
  · rw [findRoundSubmission_run, hrs]

/-- What `earn` does for an accepted submission of a round, from what `earnRound` does. -/
theorem earn_accepted {env : EgressEnv} {s : Submission} {verdict : String} {w w' : World}
    {earned : Earned} (ha : verdict = submissionStatusAccepted)
    (ho : s.submissionOwnerType = ownerRoundSubmissions)
    (h : (earnRound env s).run w = (.ok earned, w')) :
    (earn env s verdict).run w = (withoutRepeats env s earned).run w' := by
  simp only [earn, if_pos ha, if_pos ho]
  exact Call.bind_ok h _

/-- What a submission earns, when nothing fails and no auth id is too short. -/
theorem earn_run {env : EgressEnv} {s : Submission} {verdict : String} {w : World}
    (h : EarnsWell env w.db s) (hp : w.db.shortAuthor s verdict = false) :
    (earn env s verdict).run w =
      (.ok (w.db.earned env s verdict), { w with db := w.db.afterEarning env s verdict }) := by
  by_cases ha : verdict = submissionStatusAccepted
  · by_cases ho : s.submissionOwnerType = ownerRoundSubmissions
    · have howner : w.db.ownerOf s = w.db.roundSubmissions.find? s.submissionOwnerID := if_pos ho
      cases hrs : w.db.roundSubmissions.find? s.submissionOwnerID with
      | none =>
        rw [earn_accepted ha ho (earnRound_missing (Or.inr hrs)), withoutRepeats_zero]
        simp only [DB.earned, DB.afterEarning, if_pos ha, howner, hrs]
      | some rs =>
        have h8 : 8 ≤ (w.db.authorOf rs).length := by
          simpa [DB.shortAuthor, ha, howner, hrs] using hp
        -- The user is found or made, and then his accepted submissions are counted.
        have hc := h.createUser.imp_right fun hc => hc rs (howner.trans hrs)
        rw [earn_accepted ha ho (earnRound_run h.loadRoundSubmission h.findUser hc hrs h8),
          withoutRepeats_run (w.db.find?_userFor env _) (w.db.userFor_id_ne_zero env _),
          DB.withUserFor_eq, DB.acceptedElsewhere_users, ← DB.withUserFor_eq]
        have hcount : (env.fails .countAccepted = false ∧
            w.db.acceptedElsewhere s (w.db.userFor env (w.db.authorOf rs)) = true) ↔
              w.db.acceptedElsewhere s (w.db.userFor env (w.db.authorOf rs)) = true := by
          rcases h.countAccepted with hcount | hcount
          · simp [hcount]
          · simp [hcount rs (howner.trans hrs)]
        simp only [DB.earned, DB.afterEarning, if_pos ha, howner, hrs, hcount]
    · have howner : w.db.ownerOf s = none := if_neg ho
      simp only [earn, if_pos ha, if_neg ho, DB.earned, DB.afterEarning, howner]
      rfl
  · simp only [earn, if_neg ha, DB.earned, DB.afterEarning]
    rfl

/-- A short auth id makes working out the points panic. -/
theorem earn_short {env : EgressEnv} {s : Submission} {verdict : String} {w : World}
    (hl : env.fails .loadRoundSubmission = false) (hp : w.db.shortAuthor s verdict = true) :
    (earn env s verdict).run w = (.panic, w) := by
  simp only [DB.shortAuthor, Bool.and_eq_true, decide_eq_true_eq] at hp
  obtain ⟨ha, hp⟩ := hp
  cases howner : w.db.ownerOf s with
  | none => simp [howner] at hp
  | some rs =>
    have ho : s.submissionOwnerType = ownerRoundSubmissions := by
      by_contra ho
      rw [DB.ownerOf, if_neg ho] at howner
      cases howner
    rw [DB.ownerOf, if_pos ho] at howner
    have h8 : (w.db.authorOf rs).length < 8 := by
      simpa [DB.ownerOf, ho, howner] using hp
    simp only [earn, if_pos ha, if_pos ho]
    exact Call.bind_panic (earnRound_short hl howner h8) _

/-! ## The leaderboard of the round -/

/-- The entry of a user on the leaderboard of a round after points were added. -/
def Redis.newEntry (r : Redis) (now : ℤ) (roundID : ℕ) (authID : AuthID) (points : UInt64) : ℕ :=
  let currentScore := ((r.leaderboard roundID).score? authID).getD
    (toFloat64 (compressScoreAndTimeStamp 0 now))
  toFloat64 (compressScoreAndTimeStamp
    (uint64 (decompressScore currentScore + points.toNat)) now)

/-- The cache after points were added on the leaderboard of a round. -/
def Redis.creditRound (r : Redis) (now : ℤ) (roundID : ℕ) (authID : AuthID) (points : UInt64) :
    Redis :=
  { r with
    leaderboard := Function.update r.leaderboard roundID
      ((r.leaderboard roundID).add authID (r.newEntry now roundID authID points)) }

/-- The credited entry can be read back. -/
@[simp] theorem Redis.score?_creditRound (r : Redis) (now : ℤ) (roundID : ℕ) (authID : AuthID)
    (points : UInt64) :
    ((r.creditRound now roundID authID points).leaderboard roundID).score? authID =
      some (r.newEntry now roundID authID points) := by
  simp [Redis.creditRound]

/-- None of the operations on the leaderboard of the round fails. -/
def CreditsRound (env : EgressEnv) : Prop :=
  env.fails .reloadRoundSubmission = false ∧ env.fails .zscore = false ∧ env.fails .zadd = false

/-- An owner is a round submission with the owner's key. -/
theorem ownerOf_eq_some {db : DB} {s : Submission} {rs : RoundSubmission}
    (h : db.ownerOf s = some rs) : s.submissionOwnerType = ownerRoundSubmissions ∧
      db.roundSubmissions.find? s.submissionOwnerID = some rs := by
  unfold DB.ownerOf at h
  split_ifs at h with ho
  exact ⟨ho, h⟩

/-- The points of a round submission reach the leaderboard of its round. -/
theorem addToRoundLeaderboard_run {env : EgressEnv} {s : Submission} {rs : RoundSubmission}
    {w : World} (h : CreditsRound env) (hrs : w.db.ownerOf s = some rs) (points : UInt64) :
    (addToRoundLeaderboard env s points).run w =
      (.ok (), { w with
        redis := w.redis.creditRound env.now rs.roundID (w.db.authorOf rs) points }) := by
  obtain ⟨hr, hz, ha⟩ := h
  obtain ⟨ho, hrs⟩ := ownerOf_eq_some hrs
  unfold addToRoundLeaderboard
  rw [if_pos ho, hr, Call.attempt_ok (a := (rs, w.db.authorOf rs)) (t := w)]
  · unfold logged
    rw [Call.attempt_ok (a := ()) (t := { w with
      redis := w.redis.creditRound env.now rs.roundID (w.db.authorOf rs) points })]
    · rfl
    · simp only [updateLeaderboardScore, hz, ha, Call.io_false, Call.run_read_bind]
      rfl
  · rw [findRoundSubmission_run, hrs]

/-- A failure on the way to the leaderboard of the round is only logged. -/
theorem addToRoundLeaderboard_fails {env : EgressEnv} (h : ¬ CreditsRound env) (s : Submission)
    (points : UInt64) (w : World) : (addToRoundLeaderboard env s points).run w = (.ok (), w) := by
  unfold addToRoundLeaderboard
  split_ifs
  · cases hr : env.fails .reloadRoundSubmission with
    | true => exact Call.attempt_err (e := .io) (t := w) rfl _
    | false =>
      cases hrs : w.db.roundSubmissions.find? s.submissionOwnerID with
      | none =>
        refine Call.attempt_err (e := .other "record not found") (t := w) ?_ _
        rw [findRoundSubmission_run, hrs]
      | some rs =>
        rw [Call.attempt_ok (a := (rs, w.db.authorOf rs)) (t := w)]
        · refine Call.attempt_err (e := .io) (t := w) ?_ _
          unfold updateLeaderboardScore
          cases hz : env.fails .zscore with
          | true => rfl
          | false =>
            cases ha : env.fails .zadd with
            | true => rfl
            | false => exact absurd ⟨hr, hz, ha⟩ h
        · rw [findRoundSubmission_run, hrs]
  · rfl

/-! ## The global leaderboard -/

/-- The row of a user on the global leaderboard, up to its key; a user without a row has nothing. -/
def standing (t : Table Leaderboard) (userID : ℕ) : Leaderboard :=
  match t.first? fun lb => decide (lb.userID = userID) with
  | some lb => lb.withKey 0
  | none => ⟨0, userID, 0, 0, 0, 0⟩

/-- The standing of a user names him. -/
@[simp] theorem standing_userID (t : Table Leaderboard) (userID : ℕ) :
    (standing t userID).userID = userID := by
  unfold standing
  split
  · rename_i lb h
    exact of_decide_eq_true (Table.first?_mem h).2
  · rfl

/-- The operations on the global leaderboard succeed. When the row is missing, it does not matter
whether it is created at once or saved later. -/
def CreditsUser (env : EgressEnv) : Prop :=
  env.fails .findLeaderboard = false ∧ env.fails .saveLeaderboard = false

/-- The first row that a condition finds, overwritten by itself with a credit, as seen by the
standing of a user. -/
theorem standing_credit {t : Table Leaderboard} {userID : ℕ} {lb : Leaderboard}
    (h : t.first? (fun lb => decide (lb.userID = userID)) = some lb) (difficulty : String)
    (points : UInt64) (userID' : ℕ) :
    standing (t.modify lb.id (fun old => (lb.credit difficulty points).withKey old.id)
        fun old => Leaderboard.id_withKey _ old.id) userID' =
      if userID' = userID then (standing t userID).credit difficulty points
      else standing t userID' := by
  obtain ⟨hm, hu⟩ := Table.first?_mem h
  have hu : lb.userID = userID := by simpa using hu
  -- The credit does not change whose row it is.
  have hsee : ∀ r ∈ t.rows, Row.id r = lb.id →
      decide (((lb.credit difficulty points).withKey r.id).userID = userID') =
        decide (r.userID = userID') := by
    intro r hr hid
    have : r = lb := Table.eq_of_id_eq hr hm hid
    rw [this]
    rfl
  unfold standing
  rw [Table.first?_modify t lb.id _ _ hsee]
  split_ifs with hc
  · rw [hc, h]
    simp [Row.id, Leaderboard.credit, Leaderboard.withKey]
  · cases ho : t.first? (fun lb => decide (lb.userID = userID')) with
    | none => rfl
    | some r =>
      have hr : r.userID = userID' := by simpa using (Table.first?_mem ho).2
      have hne : Row.id r ≠ lb.id := by
        intro hid
        have := Table.eq_of_id_eq (Table.first?_mem ho).1 hm hid
        rw [this, hu] at hr
        exact hc hr.symm
      simp [hne]

/-- A new row for a user without one, as seen by the standing of a user. -/
theorem standing_insert {t : Table Leaderboard} {lb : Leaderboard} {hint : ℕ}
    (h : t.first? (fun r => decide (r.userID = lb.userID)) = none) (userID' : ℕ) :
    standing (t.insert hint lb.withKey lb.id_withKey) userID' =
      if userID' = lb.userID then lb.withKey 0 else standing t userID' := by
  unfold standing
  split_ifs with hc
  · rw [hc, Table.first?_insert_of_none t _ h (by simp)]
    rfl
  · rw [Table.first?_insert_of_false t _ (decide_eq_false (Ne.symm hc))]

/-- The same world with another global leaderboard. -/
def World.withLeaderboards (w : World) (t : Table Leaderboard) : World :=
  { w with db := { w.db with leaderboards := t } }

/-- A row that fits is stored under the key that is handed out. -/
theorem insertLeaderboard_run {hint : ℕ} {lb : Leaderboard} {w : World}
    (h : w.db.leaderboardFits lb.userID = true) :
    (insertLeaderboard hint lb).run w = (.ok (w.db.leaderboards.fresh hint),
      w.withLeaderboards (w.db.leaderboards.insert hint lb.withKey lb.id_withKey)) := by
  simp only [insertLeaderboard, Call.run_read_bind, h, if_true]
  rfl

/-- A row that does not fit is refused. -/
theorem insertLeaderboard_fails {hint : ℕ} {lb : Leaderboard} {w : World}
    (h : w.db.leaderboardFits lb.userID = false) :
    (insertLeaderboard hint lb).run w = (.err (.other "constraint violation"), w) := by
  simp only [insertLeaderboard, Call.run_read_bind, h, Bool.false_eq_true, if_false]
  rfl

/-- A user without a row fits. -/
theorem leaderboardFits_of_none {db : DB} {userID : ℕ} (hu : (db.users.find? userID).isSome)
    (h : db.leaderboards.first? (fun lb => decide (lb.userID = userID)) = none) :
    db.leaderboardFits userID = true := by
  have hall := Table.first?_eq_none.mp h
  simp only [DB.leaderboardFits, hu, Bool.true_and, List.all_eq_true, decide_eq_true_eq]
  intro lb hlb
  simpa using hall lb hlb

/-- An object without a key is inserted. -/
theorem saveLeaderboard_new {env : EgressEnv} {lb : Leaderboard} {w : World}
    (hs : env.fails .saveLeaderboard = false) (h0 : lb.id = 0) :
    (saveLeaderboard env lb).run w =
      (insertLeaderboard env.leaderboardHint lb >>= fun _ => pure ()).run w := by
  unfold saveLeaderboard
  rw [hs, Call.io_false, if_pos h0]

/-- An object with a key overwrites its row. -/
theorem saveLeaderboard_old {env : EgressEnv} {lb : Leaderboard} {w : World}
    (hs : env.fails .saveLeaderboard = false) (h0 : lb.id ≠ 0) :
    (saveLeaderboard env lb).run w = (.ok (),
      w.withLeaderboards (w.db.leaderboards.modify lb.id (fun old => lb.withKey old.id)
        fun old => lb.id_withKey old.id)) := by
  unfold saveLeaderboard
  rw [hs, Call.io_false, if_neg h0]
  rfl

/-- The object that is looked up or created for a user: it has the user's standing, it is his row
when it has a key, and without a key there is no row. Creating the row changes no standing. -/
theorem firstOrCreateLeaderboard_run {env : EgressEnv} {userID : ℕ} (w : World)
    (hf : env.fails .findLeaderboard = false) (h0 : userID ≠ 0) :
    ∃ lb t, (firstOrCreateLeaderboard env userID).run w = (.ok lb, w.withLeaderboards t) ∧
      (∀ userID', standing t userID' = standing w.db.leaderboards userID') ∧
      lb.withKey 0 = standing w.db.leaderboards userID ∧
      t.first? (fun r => decide (r.userID = userID)) = if lb.id = 0 then none else some lb := by
  have hcond : (fun lb : Leaderboard => decide (userID = 0 ∨ lb.userID = userID)) =
      fun lb => decide (lb.userID = userID) := by
    simp [h0]
  have hlook : ∀ r, w.db.leaderboards.first? (fun lb => decide (lb.userID = userID)) = r →
      (Call.io (env.fails .findLeaderboard) GoError.io <| Call.read fun w : World =>
        w.db.leaderboards.first? fun lb => decide (userID = 0 ∨ lb.userID = userID)).run w =
      (.ok r, w) := by
    rintro r rfl
    rw [hf, Call.io_false, Call.run_read, hcond]
  unfold firstOrCreateLeaderboard
  cases hfirst : w.db.leaderboards.first? (fun lb => decide (lb.userID = userID)) with
  | some lb =>
    have hid : lb.id ≠ 0 := w.db.leaderboards.pos lb (Table.first?_mem hfirst).1
    rw [Call.attempt_ok (hlook _ hfirst)]
    refine ⟨lb, w.db.leaderboards, rfl, fun _ => rfl, ?_, ?_⟩
    · rw [standing, hfirst]
    · rw [if_neg hid, hfirst]
  | none =>
    -- Without a row the standing is that of an empty one.
    have hzero : standing w.db.leaderboards userID = ⟨0, userID, 0, 0, 0, 0⟩ := by
      rw [standing, hfirst]
    rw [Call.attempt_ok (hlook _ hfirst)]
    have hcases : (∃ e, (Call.io (env.fails .createLeaderboard) GoError.io
          (insertLeaderboard env.leaderboardHint ⟨0, userID, 0, 0, 0, 0⟩)).run w = (.err e, w)) ∨
        (Call.io (env.fails .createLeaderboard) GoError.io
          (insertLeaderboard env.leaderboardHint ⟨0, userID, 0, 0, 0, 0⟩)).run w =
          (.ok (w.db.leaderboards.fresh env.leaderboardHint),
            w.withLeaderboards (w.db.leaderboards.insert env.leaderboardHint
              (Leaderboard.withKey ⟨0, userID, 0, 0, 0, 0⟩) (Leaderboard.id_withKey _))) := by
      cases env.fails .createLeaderboard with
      | true => exact Or.inl ⟨_, rfl⟩
      | false =>
        cases hfits : w.db.leaderboardFits userID with
        | false => exact Or.inl ⟨_, insertLeaderboard_fails hfits⟩
        | true => exact Or.inr (insertLeaderboard_run hfits)
    -- The row is inserted, or the object is left without a key.
    rcases hcases with ⟨e, he⟩ | hok
    · simp only [Call.attempt_err he]
      exact ⟨_, w.db.leaderboards, rfl, fun _ => rfl, hzero.symm, by rw [if_pos rfl, hfirst]⟩
    · simp only [Call.attempt_ok hok]
      refine ⟨_, _, rfl, fun userID' => ?_, hzero.symm, ?_⟩
      · rw [standing_insert (show w.db.leaderboards.first? (fun r => decide (r.userID =
            (⟨0, userID, 0, 0, 0, 0⟩ : Leaderboard).userID)) = none from hfirst)]
        split_ifs with he
        · rw [he, hzero]
          rfl
        · rfl
      · rw [if_neg (w.db.leaderboards.fresh_ne_zero _)]
        exact Table.first?_insert_of_none _ _ hfirst (by simp)

/-- The points of a user reach his row on the global leaderboard, and no other. -/
theorem addToLeaderboard_run {env : EgressEnv} {userID : ℕ} {w : World} (h : CreditsUser env)
    (h0 : userID ≠ 0) (hu : (w.db.users.find? userID).isSome) (difficulty : String)
    (points : UInt64) :
    ∃ t, (addToLeaderboard env userID difficulty points).run w = (.ok (), w.withLeaderboards t) ∧
      ∀ userID', standing t userID' =
        if userID' = userID then (standing w.db.leaderboards userID).credit difficulty points
        else standing w.db.leaderboards userID' := by
  obtain ⟨lb, t, hrun, hstand, hlb, hfirst⟩ := firstOrCreateLeaderboard_run w h.1 h0
  have hcredit : (lb.credit difficulty points).withKey 0 =
      (standing w.db.leaderboards userID).credit difficulty points := by
    rw [← hlb]
    rfl
  have hlbu : (lb.credit difficulty points).userID = userID := by
    rw [← standing_userID w.db.leaderboards userID, ← hlb]
    rfl
  unfold addToLeaderboard
  rw [Call.bind_ok hrun]
  -- Without a key the row is inserted, with one it is written over.
  by_cases hid : (lb.credit difficulty points).id = 0
  · rw [if_pos (show lb.id = 0 from hid)] at hfirst
    have hfits : (w.withLeaderboards t).db.leaderboardFits (lb.credit difficulty points).userID =
        true := by
      rw [hlbu]
      exact leaderboardFits_of_none hu hfirst
    rw [saveLeaderboard_new h.2 hid, Call.bind_ok (insertLeaderboard_run hfits)]
    refine ⟨_, rfl, fun userID' => ?_⟩
    refine (standing_insert (by rw [hlbu]; exact hfirst) userID').trans ?_
    rw [hlbu, hcredit]
    split_ifs
    · rfl
    · exact hstand userID'
  · rw [if_neg (show lb.id ≠ 0 from hid)] at hfirst
    rw [saveLeaderboard_old h.2 hid]
    refine ⟨_, rfl, fun userID' => ?_⟩
    refine (standing_credit hfirst difficulty points userID').trans ?_
    rw [hstand, hstand]

/-- When the row cannot be looked up, the object stays empty. -/
theorem firstOrCreateLeaderboard_fails {env : EgressEnv} (hf : env.fails .findLeaderboard = true)
    (userID : ℕ) (w : World) :
    (firstOrCreateLeaderboard env userID).run w = (.ok ⟨0, 0, 0, 0, 0, 0⟩, w) := by
  unfold firstOrCreateLeaderboard
  rw [hf, Call.io_true, Call.attempt_err (e := .io) (t := w) rfl]
  rfl

/-- When the row cannot be looked up, the object to save belongs to nobody and is refused. -/
theorem addToLeaderboard_unfound {env : EgressEnv} (hf : env.fails .findLeaderboard = true)
    (hs : env.fails .saveLeaderboard = false) (userID : ℕ) (difficulty : String) (points : UInt64)
    (w : World) : (addToLeaderboard env userID difficulty points).run w =
      (.err (.other "constraint violation"), w) := by
  have hfits : w.db.leaderboardFits 0 = false := by simp [DB.leaderboardFits, Table.find?_zero]
  unfold addToLeaderboard
  rw [Call.bind_ok (firstOrCreateLeaderboard_fails hf userID w), saveLeaderboard_new hs rfl]
  exact Call.bind_err (insertLeaderboard_fails hfits) _

/-- When the row cannot be saved, the points are lost; at most an empty row was created. -/
theorem addToLeaderboard_unsaved {env : EgressEnv} {userID : ℕ} (w : World)
    (hs : env.fails .saveLeaderboard = true) (h0 : userID ≠ 0) (difficulty : String)
    (points : UInt64) :
    ∃ t, (addToLeaderboard env userID difficulty points).run w = (.err .io, w.withLeaderboards t) ∧
      ∀ userID', standing t userID' = standing w.db.leaderboards userID' := by
  have hfind : ∃ lb t, (firstOrCreateLeaderboard env userID).run w =
      (.ok lb, w.withLeaderboards t) ∧
        ∀ userID', standing t userID' = standing w.db.leaderboards userID' := by
    cases hf : env.fails .findLeaderboard with
    | true => exact ⟨_, w.db.leaderboards, firstOrCreateLeaderboard_fails hf userID w, fun _ => rfl⟩
    | false =>
      obtain ⟨lb, t, hrun, hstand, -⟩ := firstOrCreateLeaderboard_run w hf h0
      exact ⟨lb, t, hrun, hstand⟩
  obtain ⟨lb, t, hrun, hstand⟩ := hfind
  refine ⟨t, ?_, hstand⟩
  unfold addToLeaderboard
  rw [Call.bind_ok hrun]
  unfold saveLeaderboard
  rw [hs]
  rfl

/-- Points for the user `0` go to the first row of the global leaderboard. -/
theorem addToLeaderboard_nobody {env : EgressEnv} {w : World} (h : CreditsUser env)
    (difficulty : String) (points : UInt64) :
    match w.db.leaderboards.first? fun _ => true with
    | none => (addToLeaderboard env 0 difficulty points).run w =
        (.err (.other "constraint violation"), w)
    | some lb => ∃ t, (addToLeaderboard env 0 difficulty points).run w =
        (.ok (), w.withLeaderboards t) ∧
      ∀ userID', standing t userID' =
        if userID' = lb.userID then (standing w.db.leaderboards lb.userID).credit difficulty points
        else standing w.db.leaderboards userID' := by
  obtain ⟨hf, hs⟩ := h
  have hlook : ∀ r, w.db.leaderboards.first? (fun _ => true) = r →
      (Call.io (env.fails .findLeaderboard) GoError.io <| Call.read fun w : World =>
        w.db.leaderboards.first? fun lb => decide ((0 : ℕ) = 0 ∨ lb.userID = 0)).run w =
      (.ok r, w) := by
    rintro r rfl
    rw [hf, Call.io_false, Call.run_read]
    simp
  unfold addToLeaderboard
  cases hfirst : w.db.leaderboards.first? (fun _ => true) with
  | none =>
    -- There is no user `0` that a row could refer to.
    have hfits : w.db.leaderboardFits 0 = false := by simp [DB.leaderboardFits, Table.find?_zero]
    have hcreate : ∃ e, (Call.io (env.fails .createLeaderboard) GoError.io
        (insertLeaderboard env.leaderboardHint ⟨0, 0, 0, 0, 0, 0⟩)).run w = (.err e, w) := by
      cases env.fails .createLeaderboard with
      | true => exact ⟨_, rfl⟩
      | false => exact ⟨_, insertLeaderboard_fails hfits⟩
    obtain ⟨e, he⟩ := hcreate
    have hrun : (firstOrCreateLeaderboard env 0).run w = (.ok ⟨0, 0, 0, 0, 0, 0⟩, w) := by
      unfold firstOrCreateLeaderboard
      rw [Call.attempt_ok (hlook _ hfirst)]
      exact Call.attempt_err he _
    simp only
    rw [Call.bind_ok hrun, saveLeaderboard_new hs rfl]
    exact Call.bind_err (insertLeaderboard_fails hfits) _
  | some lb =>
    obtain ⟨hm, -, hle⟩ := Table.first?_eq_some.mp hfirst
    have hid : lb.id ≠ 0 := w.db.leaderboards.pos lb hm
    -- It is also the first row of its own user.
    have hown : w.db.leaderboards.first? (fun r => decide (r.userID = lb.userID)) = some lb :=
      Table.first?_eq_some.mpr ⟨hm, by simp, fun r hr _ => hle r hr rfl⟩
    have hrun : (firstOrCreateLeaderboard env 0).run w = (.ok lb, w) := by
      unfold firstOrCreateLeaderboard
      exact Call.attempt_ok (hlook _ hfirst) _
    simp only
    rw [Call.bind_ok hrun, saveLeaderboard_old hs (show (lb.credit difficulty points).id ≠ 0 from hid)]
    exact ⟨_, rfl, standing_credit hown difficulty points⟩

/-! ## Processing as a whole -/

/-- Writing the verdict of a submission that does not exist changes nothing. -/
theorem setVerdict_of_none {t : Table Submission} {id : ℕ} (h : t.find? id = none)
    (verdict : String) : setVerdict t id verdict = t := by
  refine Table.modify_eq_self fun s hs hid => ?_
  exact absurd (List.mem_map_of_mem hs) (hid ▸ Table.find?_eq_none.mp h)

/-- Writing the verdict that a submission has changes nothing. -/
theorem setVerdict_self {t : Table Submission} {id : ℕ} {s : Submission}
    (h : t.find? id = some s) : setVerdict t id s.verdict = t := by
  obtain ⟨hs, hid⟩ := Table.find?_eq_some.mp h
  refine Table.modify_eq_self fun s' hs' hid' => ?_
  rw [Table.eq_of_id_eq hs' hs (hid'.trans hid.symm)]
  rfl

/-- The same world with a verdict written. -/
def World.withVerdict (w : World) (id : ℕ) (verdict : String) : World :=
  { w with db := { w.db with submissions := setVerdict w.db.submissions id verdict } }

/-- The difficulty that processing gets to see. -/
def DB.difficultySeen (db : DB) (env : EgressEnv) (s : Submission) : String :=
  if env.fails .loadProblem then "" else db.difficultyOf s

section Stages

variable {env : EgressEnv} {payload : SubmissionEgressDTO} {w : World} {s : Submission}

/-- A submission that cannot be loaded leaves everything as it is. -/
theorem processPayload_unloaded (h : env.fails .loadSubmission = true) :
    (processPayload env payload).run w =
      (.err (.pointer ⟨500, "Internal Server Error: connection error"⟩), w) := by
  unfold processPayload
  refine Call.bind_err ?_ _
  simp only [loadSubmission, h, if_true]
  rfl

/-- A submission that does not exist leaves everything as it is. -/
theorem processPayload_missing (h : env.fails .loadSubmission = false)
    (hs : w.db.submissions.find? payload.submissionId = none) :
    (processPayload env payload).run w = (.err (.pointer ⟨404, "Submission not found"⟩), w) := by
  unfold processPayload
  refine Call.bind_err ?_ _
  simp only [loadSubmission, h, Bool.false_eq_true, if_false, Call.run_read_bind, hs]
  rfl

/-- The submission of the message is loaded. -/
theorem loadSubmission_run (h : env.fails .loadSubmission = false)
    (hs : w.db.submissions.find? payload.submissionId = some s) :
    (loadSubmission env payload.submissionId).run w = (.ok s, w) := by
  simp only [loadSubmission, h, Bool.false_eq_true, if_false, Call.run_read_bind, hs]
  rfl

/-- The difficulty is read, or none when the query fails. -/
theorem loadDifficulty_run (w : World) :
    (loadDifficulty env s).run w = (.ok (w.db.difficultySeen env s), w) := by
  rfl

/-- A panic on the way to the points is a panic of the whole. -/
theorem processPayload_panic (h : env.fails .loadSubmission = false)
    (hs : w.db.submissions.find? payload.submissionId = some s)
    (he : (earn env s payload.verdict).run w = (.panic, w)) :
    (processPayload env payload).run w = (.panic, w) := by
  unfold processPayload
  rw [Call.bind_ok (loadSubmission_run h hs), Call.bind_ok (loadDifficulty_run w)]
  exact Call.bind_panic he _

/-- A verdict that cannot be written ends the processing. -/
theorem processPayload_unwritten {earned : Earned} {w₁ : World}
    (h : env.fails .loadSubmission = false)
    (hs : w.db.submissions.find? payload.submissionId = some s)
    (he : (earn env s payload.verdict).run w = (.ok earned, w₁))
    (hv : env.fails .updateVerdict = true) :
    (processPayload env payload).run w =
      (.err (.pointer ⟨500, "Internal Server Error: connection error"⟩), w₁) := by
  unfold processPayload
  rw [Call.bind_ok (loadSubmission_run h hs), Call.bind_ok (loadDifficulty_run w), Call.bind_ok he]
  refine Call.bind_err ?_ _
  rw [updateVerdict, hv]
  rfl

/-- What is left once the points are known and the verdict is written. -/
theorem processPayload_run {earned : Earned} {w₁ : World} (h : env.fails .loadSubmission = false)
    (hs : w.db.submissions.find? payload.submissionId = some s)
    (he : (earn env s payload.verdict).run w = (.ok earned, w₁))
    (hv : env.fails .updateVerdict = false) :
    (processPayload env payload).run w =
      (if payload.verdict = submissionStatusAccepted ∧ earned.scoreToAdd ≠ 0 then do
        addToRoundLeaderboard env s earned.scoreToAdd
        addToLeaderboard env earned.lbUserID (w.db.difficultySeen env s) earned.scoreToAdd
      else pure ()).run (w₁.withVerdict payload.submissionId payload.verdict) := by
  have hid : s.id = payload.submissionId := (Table.find?_eq_some.mp hs).2
  have hverdict : (updateVerdict env s payload.verdict).run w₁ =
      (.ok (), w₁.withVerdict payload.submissionId payload.verdict) := by
    rw [updateVerdict, hv, hid]
    rfl
  unfold processPayload
  rw [Call.bind_ok (loadSubmission_run h hs), Call.bind_ok (loadDifficulty_run w), Call.bind_ok he,
    Call.bind_ok hverdict]

/-- Without points, only the verdict is written. -/
theorem processPayload_unpaid {earned : Earned} {w₁ : World} (h : env.fails .loadSubmission = false)
    (hs : w.db.submissions.find? payload.submissionId = some s)
    (he : (earn env s payload.verdict).run w = (.ok earned, w₁))
    (hv : env.fails .updateVerdict = false) (h0 : earned.scoreToAdd = 0) :
    (processPayload env payload).run w =
      (.ok (), w₁.withVerdict payload.submissionId payload.verdict) := by
  rw [processPayload_run h hs he hv, if_neg (by simp [h0])]
  rfl

/-- With points, the two leaderboards follow. -/
theorem processPayload_paid {earned : Earned} {w₁ w₂ : World} (h : env.fails .loadSubmission = false)
    (hs : w.db.submissions.find? payload.submissionId = some s)
    (he : (earn env s payload.verdict).run w = (.ok earned, w₁))
    (hv : env.fails .updateVerdict = false)
    (ha : payload.verdict = submissionStatusAccepted) (h0 : earned.scoreToAdd ≠ 0)
    (hr : (addToRoundLeaderboard env s earned.scoreToAdd).run
      (w₁.withVerdict payload.submissionId payload.verdict) = (.ok (), w₂)) :
    (processPayload env payload).run w =
      (addToLeaderboard env earned.lbUserID (w.db.difficultySeen env s) earned.scoreToAdd).run w₂ := by
  rw [processPayload_run h hs he hv, if_pos ⟨ha, h0⟩]
  exact Call.bind_ok hr _

end Stages

/-- A message that can be read is processed by what it says. -/
theorem processSubmissionData_of_some {env : EgressEnv} {raw : Payload}
    {payload : SubmissionEgressDTO} (h : SubmissionEgressDTO.unmarshal raw = some payload) :
    processSubmissionData env raw = processPayload env payload := by
  rw [processSubmissionData, h]

/-! ## A message that is processed to the end -/

/-- The databases differ in the verdict of the message's submission, which is the given one in the
second, and in the user that its points are for, who exists in the second. -/
structure Judged (env : EgressEnv) (payload : SubmissionEgressDTO) (verdict : String)
    (db db' : DB) : Prop where
  submissions : db'.submissions = setVerdict db.submissions payload.submissionId verdict
  users : ∀ s, db.submissions.find? payload.submissionId = some s →
    db'.users = (db.afterEarning env s payload.verdict).users
  problems : db'.problems = db.problems
  participants : db'.participants = db.participants
  roundSubmissions : db'.roundSubmissions = db.roundSubmissions

/-- What processing a message to its end does to the state: the verdict is written, the user exists,
and what the message is owed is credited, on both leaderboards. -/
structure Processed (env : EgressEnv) (payload : SubmissionEgressDTO) (w w' : World) : Prop where
  judged : Judged env payload payload.verdict w.db w'.db
  redis : w'.redis = match w.db.due env payload with
    | none => w.redis
    | some d => w.redis.creditRound env.now d.roundID d.authID d.points
  unpaid : w.db.due env payload = none → w'.db.leaderboards = w.db.leaderboards
  paid : ∀ d, w.db.due env payload = some d → ∀ userID, standing w'.db.leaderboards userID =
    if userID = d.userID then (standing w.db.leaderboards d.userID).credit d.difficulty d.points
    else standing w.db.leaderboards userID

/-- What a message is owed, from its submission. -/
theorem DB.due_of_find {db : DB} {env : EgressEnv} {payload : SubmissionEgressDTO} {s : Submission}
    (hs : db.submissions.find? payload.submissionId = some s) :
    db.due env payload = match db.ownerOf s with
      | none => none
      | some rs =>
        if (db.earned env s payload.verdict).scoreToAdd = 0 then none
        else some ⟨rs.roundID, db.authorOf rs, (db.earned env s payload.verdict).lbUserID,
          db.difficultyOf s, (db.earned env s payload.verdict).scoreToAdd⟩ := by
  unfold DB.due
  rw [hs]

/-- Points are earned only by an accepted submission of a round. -/
theorem DB.earned_ne_zero {db : DB} {env : EgressEnv} {s : Submission} {verdict : String}
    (h : (db.earned env s verdict).scoreToAdd ≠ 0) :
    verdict = submissionStatusAccepted ∧ ∃ rs, db.ownerOf s = some rs ∧
      (db.earned env s verdict) = ⟨rs.score, (db.userFor env (db.authorOf rs)).id⟩ ∧
      db.acceptedElsewhere s (db.userFor env (db.authorOf rs)) = false := by
  unfold DB.earned at h ⊢
  by_cases ha : verdict = submissionStatusAccepted
  · simp only [if_pos ha] at h ⊢
    cases ho : db.ownerOf s with
    | none => simp [ho] at h
    | some rs =>
      simp only [ho] at h ⊢
      cases he : db.acceptedElsewhere s (db.userFor env (db.authorOf rs)) with
      | true => simp [he] at h
      | false => exact ⟨ha, rs, rfl, by simp, he⟩
  · simp [ha] at h

/-- Working out the points changes no table but that of the users. -/
theorem DB.afterEarning_eq (db : DB) (env : EgressEnv) (s : Submission) (verdict : String) :
    db.afterEarning env s verdict =
      { db with users := (db.afterEarning env s verdict).users } := by
  unfold DB.afterEarning
  split_ifs
  · split
    · rfl
    · exact DB.withUserFor_eq _ _ _
  · rfl

/-- The world after the points were worked out and the verdict was written. -/
def World.judged (w : World) (env : EgressEnv) (s : Submission)
    (payload : SubmissionEgressDTO) : World :=
  { w with
    db := { w.db with
      users := (w.db.afterEarning env s payload.verdict).users
      submissions := setVerdict w.db.submissions payload.submissionId payload.verdict } }

/-- Writing the verdict into the submission is `judged`. -/
theorem World.judged_eq (w : World) (env : EgressEnv) (s : Submission)
    (payload : SubmissionEgressDTO) :
    ({ w with db := w.db.afterEarning env s payload.verdict } : World).withVerdict
      payload.submissionId payload.verdict = w.judged env s payload := by
  rw [DB.afterEarning_eq]
  rfl

/-- None of the operations before the leaderboards fails, and no auth id is too short. -/
structure JudgesWell (env : EgressEnv) (w : World) (payload : SubmissionEgressDTO)
    (s : Submission) : Prop where
  loadSubmission : env.fails .loadSubmission = false
  found : w.db.submissions.find? payload.submissionId = some s
  earns : EarnsWell env w.db s
  sound : w.db.shortAuthor s payload.verdict = false
  updateVerdict : env.fails .updateVerdict = false

section Judged

variable {env : EgressEnv} {payload : SubmissionEgressDTO} {w : World} {s : Submission}

/-- A message that is owed nothing. -/
theorem processPayload_judged_unpaid (h : JudgesWell env w payload s)
    (hd : w.db.due env payload = none) :
    (processPayload env payload).run w = (.ok (), w.judged env s payload) := by
  rw [DB.due_of_find h.found] at hd
  have h0 : (w.db.earned env s payload.verdict).scoreToAdd = 0 := by
    by_contra h0
    obtain ⟨-, rs, ho, -⟩ := DB.earned_ne_zero h0
    simp [ho, h0] at hd
  rw [processPayload_unpaid h.loadSubmission h.found (earn_run h.earns h.sound) h.updateVerdict h0,
    World.judged_eq]

/-- What a message is owed comes from the round submission of its submission. -/
theorem due_eq_some {d : Due} (hs : w.db.submissions.find? payload.submissionId = some s)
    (hd : w.db.due env payload = some d) :
    payload.verdict = submissionStatusAccepted ∧ ∃ rs, w.db.ownerOf s = some rs ∧
      w.db.earned env s payload.verdict = ⟨d.points, d.userID⟩ ∧ d.points ≠ 0 ∧
      d = ⟨rs.roundID, w.db.authorOf rs, (w.db.userFor env (w.db.authorOf rs)).id,
        w.db.difficultyOf s, rs.score⟩ ∧
      w.db.acceptedElsewhere s (w.db.userFor env (w.db.authorOf rs)) = false := by
  rw [DB.due_of_find hs] at hd
  cases ho : w.db.ownerOf s with
  | none => simp [ho] at hd
  | some rs =>
    simp only [ho] at hd
    split_ifs at hd with h0
    obtain ⟨ha, rs', ho', he, hel⟩ := DB.earned_ne_zero h0
    obtain rfl : rs = rs' := Option.some.inj (ho.symm.trans ho')
    have hd := (Option.some.inj hd).symm
    rw [he] at hd h0
    refine ⟨ha, rs, rfl, ?_, ?_, hd, hel⟩
    · rw [he, hd]
    · rw [hd]
      exact h0

/-- A message that is owed points goes on to the two leaderboards. -/
theorem processPayload_judged_paid {d : Due} {w₂ : World} (h : JudgesWell env w payload s)
    (hd : w.db.due env payload = some d)
    (hr : (addToRoundLeaderboard env s d.points).run (w.judged env s payload) = (.ok (), w₂)) :
    (processPayload env payload).run w =
      (addToLeaderboard env d.userID (w.db.difficultySeen env s) d.points).run w₂ := by
  obtain ⟨ha, rs, -, he, h0, -⟩ := due_eq_some h.found hd
  have hearn := earn_run h.earns h.sound
  rw [he] at hearn
  rw [← World.judged_eq] at hr
  have hpaid := processPayload_paid h.loadSubmission h.found hearn h.updateVerdict ha h0 hr
  exact hpaid

/-- The credit on the leaderboard of the round. -/
theorem addToRoundLeaderboard_judged {d : Due} (hr : CreditsRound env)
    (hs : w.db.submissions.find? payload.submissionId = some s)
    (hd : w.db.due env payload = some d) :
    (addToRoundLeaderboard env s d.points).run (w.judged env s payload) =
      (.ok (), { w.judged env s payload with
        redis := w.redis.creditRound env.now d.roundID d.authID d.points }) := by
  obtain ⟨-, rs, ho, -, -, hd, -⟩ := due_eq_some hs hd
  rw [addToRoundLeaderboard_run hr (w := w.judged env s payload) ho, hd]
  rfl

/-- The user of a message that is owed something exists by the time he gets his points. -/
theorem due_user {d : Due} (hs : w.db.submissions.find? payload.submissionId = some s)
    (hd : w.db.due env payload = some d) : d.userID ≠ 0 ∧
      ((w.db.afterEarning env s payload.verdict).users.find? d.userID).isSome := by
  obtain ⟨ha, rs, ho, -, -, hd, -⟩ := due_eq_some hs hd
  rw [hd]
  refine ⟨w.db.userFor_id_ne_zero env _, ?_⟩
  simp only [DB.afterEarning, if_pos ha, ho, w.db.find?_userFor env, Option.isSome_some]

/-- A message whose processing meets no failure is processed to the end. -/
theorem processPayload_processed (h : JudgesWell env w payload s) (hr : CreditsRound env)
    (hu : CreditsUser env) (hp : env.fails .loadProblem = false) :
    ∃ w', (processPayload env payload).run w = (.ok (), w') ∧ Processed env payload w w' := by
  have husers : ∀ s', w.db.submissions.find? payload.submissionId = some s' →
      (w.db.afterEarning env s payload.verdict).users =
        (w.db.afterEarning env s' payload.verdict).users := by
    intro s' hs'
    rw [Option.some.inj (h.found.symm.trans hs')]
  cases hd : w.db.due env payload with
  | none =>
    refine ⟨_, processPayload_judged_unpaid h hd, ?_⟩
    exact
      { judged := ⟨rfl, husers, rfl, rfl, rfl⟩
        redis := by rw [hd]; rfl
        unpaid := fun _ => rfl
        paid := by simp [hd] }
  | some d =>
    obtain ⟨h0, hex⟩ := due_user h.found hd
    have hdiff : w.db.difficultySeen env s = d.difficulty := by
      obtain ⟨-, rs, -, -, -, hd, -⟩ := due_eq_some h.found hd
      rw [hd, DB.difficultySeen, hp]
      rfl
    -- The points go to the round first and to the user then.
    obtain ⟨t, hrun, hstand⟩ := addToLeaderboard_run (w := { w.judged env s payload with
      redis := w.redis.creditRound env.now d.roundID d.authID d.points }) hu h0 hex d.difficulty
      d.points
    refine ⟨_, (processPayload_judged_paid h hd
      (addToRoundLeaderboard_judged hr h.found hd)).trans (by rw [hdiff]; exact hrun), ?_⟩
    exact
      { judged := ⟨rfl, husers, rfl, rfl, rfl⟩
        redis := by rw [hd]; rfl
        unpaid := by simp [hd]
        paid := by
          intro d' hd'
          obtain rfl := Option.some.inj (hd.symm.trans hd')
          exact hstand }

end Judged

section Healthy

variable (env : EgressEnv) {payload : SubmissionEgressDTO} {w : World} {s : Submission}

/-- Without faults, every operation before the leaderboards goes well for a sound auth id. -/
theorem judgesWell_healthy (hs : w.db.submissions.find? payload.submissionId = some s)
    (hp : w.db.poison payload = false) : JudgesWell env.healthy w payload s where
  loadSubmission := rfl
  found := hs
  earns := ⟨rfl, rfl, Or.inl rfl, Or.inl rfl⟩
  sound := by
    unfold DB.poison at hp
    rwa [hs] at hp
  updateVerdict := rfl

/-- Without faults, a message is processed to the end. -/
theorem processPayload_healthy (hs : w.db.submissions.find? payload.submissionId = some s)
    (hp : w.db.poison payload = false) :
    ∃ w', (processPayload env.healthy payload).run w = (.ok (), w') ∧
      Processed env.healthy payload w w' :=
  processPayload_processed (judgesWell_healthy env hs hp) ⟨rfl, rfl, rfl⟩ ⟨rfl, rfl⟩ rfl

/-- What is due does not depend on the faults. -/
theorem DB.due_healthy (db : DB) (payload : SubmissionEgressDTO) :
    db.due env.healthy payload = db.due env payload := rfl

/-- A poisonous message panics, and changes nothing, when it is looked up without faults. -/
theorem processPayload_poison {env : EgressEnv} (h : env.fails .loadSubmission = false)
    (hl : env.fails .loadRoundSubmission = false) (hp : w.db.poison payload = true) :
    (processPayload env payload).run w = (.panic, w) := by
  unfold DB.poison at hp
  cases hs : w.db.submissions.find? payload.submissionId with
  | none => simp [hs] at hp
  | some s =>
    rw [hs] at hp
    exact processPayload_panic h hs (earn_short hl hp)

end Healthy

end Bsg.Central
