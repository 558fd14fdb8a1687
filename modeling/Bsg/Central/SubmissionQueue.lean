import Bsg.Central.Dto
import Bsg.Central.Score
import Bsg.Central.Store

/-!
# The submission queues

`services/submission-queue.go`, with `UpdateLeaderboardScore` of `services/round.go`: what
central-service puts on the queue to the worker, and how it processes what comes back. Processing a
message looks the submission up, fixes the points it earns (`earn`), writes the verdict, and adds
the points to the leaderboard of the round (in Redis) and to the leaderboard of the user (in SQL).

An object that a query could not fill stays zero, as in the code: a submission whose problem was not
loaded has no difficulty, and a user that was not found has the key `0`. A struct condition leaves
zero fields out, so that a leaderboard looked up for the user `0` is the first of the table.
-/

namespace Bsg.Central

open Bsg.Foundations

/-- The operations of `ProcessSubmissionData` that can fail. -/
inductive EgressOp where
  | loadSubmission
  | loadProblem
  | loadRoundSubmission
  | findUser
  | createUser
  | countAccepted
  | updateVerdict
  | reloadRoundSubmission
  | zscore
  | zadd
  | findLeaderboard
  | createLeaderboard
  | saveLeaderboard
  deriving DecidableEq, Repr

/-- The environment of processing a message. -/
structure EgressEnv where
  /-- The operations that fail. -/
  fails : EgressOp → Bool
  /-- The time, in Unix seconds. -/
  now : ℤ
  userHint : ℕ
  leaderboardHint : ℕ

/-- The same environment in which nothing fails. -/
def EgressEnv.healthy (env : EgressEnv) : EgressEnv := { env with fails := fun _ => false }

/-- The same environment in which one operation fails. -/
def EgressEnv.failing (env : EgressEnv) (op : EgressOp) : EgressEnv :=
  { env with fails := fun o => decide (o = op) }

/-- `AddSubmissionToQueue` -/
def addSubmissionToQueue (fails : Bool) (problem : Problem) (rs : RoundSubmission)
    (submission : Submission) : Service Unit :=
  .io fails .io <| writeRedis fun r =>
    { r with ingress := r.ingress.publish (newSubmissionIngressDTO problem rs submission).marshal }

/-! ## Lookups -/

/-- The auth id of a round submission's participant; a missing participant is a zero row. -/
def DB.authorOf (db : DB) (rs : RoundSubmission) : AuthID :=
  match db.participants.find? rs.roundParticipantID with
  | some participant => participant.participantAuthID
  | none => []

/-- `First` of a round submission with its participant preloaded. -/
def findRoundSubmission (fails : Bool) (id : ℕ) : Service (RoundSubmission × AuthID) :=
  .io fails .io <| do
    match ← Call.read fun w => w.db.roundSubmissions.find? id with
    | some rs => do
      let authID ← Call.read fun w => w.db.authorOf rs
      pure (rs, authID)
    | none => .fail (.other "record not found")

/-- The user that a struct condition with this auth id finds: the first by key. -/
def DB.userByAuthID (db : DB) (authID : AuthID) : Option User :=
  db.users.first? fun u => decide (authID = [] ∨ u.authID = authID)

/-- The user row that is made for an auth id without one. -/
def placeholderUser (authID idPrefix : AuthID) (id : ℕ) : User where
  id := id
  firstName := utf8 "Unknown"
  lastName := utf8 "User"
  handle := utf8 "User-" ++ idPrefix
  email := utf8 "no-email-" ++ authID ++ utf8 "@example.com"
  authID := authID
  photoURL := []

/-- `FirstOrCreate` of the user of an auth id; `idPrefix` is the slice of it that makes the
handle. -/
def firstOrCreateUser (env : EgressEnv) (authID idPrefix : AuthID) : Service User := do
  let found ← .io (env.fails .findUser) .io <| Call.read fun w => w.db.userByAuthID authID
  match found with
  | some user => pure user
  | none => .io (env.fails .createUser) .io <| do
    let id ← Call.read fun w => w.db.users.fresh env.userHint
    writeDB fun db =>
      { db with users := db.users.insert env.userHint (placeholderUser authID idPrefix) }
    pure (placeholderUser authID idPrefix id)

/-- The submission belongs to the user: directly, or through the participant of its round
submission. -/
def DB.submittedBy (db : DB) (s : Submission) (user : User) : Bool :=
  decide (s.submissionOwnerType = ownerUser ∧ s.submissionOwnerID = user.id) ||
    (decide (s.submissionOwnerType = ownerRoundSubmissions) &&
      match db.roundSubmissions.find? s.submissionOwnerID with
      | some rs =>
        match db.participants.find? rs.roundParticipantID with
        | some participant => decide (participant.participantAuthID = user.authID)
        | none => false
      | none => false)

/-- Another accepted submission of the same problem by the user. -/
def DB.acceptedElsewhere (db : DB) (submission : Submission) (user : User) : Bool :=
  db.submissions.rows.any fun s =>
    decide (s.problemID = submission.problemID ∧ s.verdict = submissionStatusAccepted ∧
      s.id ≠ submission.id) && db.submittedBy s user

/-! ## The points of a message -/

/-- What an accepted submission earns: points, and the user whose leaderboard gets them. -/
structure Earned where
  scoreToAdd : UInt64
  lbUserID : ℕ
  deriving DecidableEq, Repr

/-- The points of an accepted round submission, from when it was made, and its user. A failure is
only logged; the slice of the auth id panics when it is shorter than eight bytes. -/
def earnRound (env : EgressEnv) (submission : Submission) : Service Earned := do
  let found ← (findRoundSubmission (env.fails .loadRoundSubmission)
    submission.submissionOwnerID).attempt
  match found with
  | .error _ => pure ⟨0, 0⟩
  | .ok (rs, authID) =>
    match authID.prefix? 8 with
    | none => .crash
    | some idPrefix => do
      let user ← (firstOrCreateUser env authID idPrefix).attempt
      match user with
      | .error _ => pure ⟨rs.score, 0⟩
      | .ok user => pure ⟨rs.score, user.id⟩

/-- No points for a problem that the user solved elsewhere. When the count fails, the points
stay. -/
def withoutRepeats (env : EgressEnv) (submission : Submission) (earned : Earned) :
    Service Earned := do
  if earned.lbUserID ≠ 0 then
    let count ← (Call.io (env.fails .countAccepted) GoError.io <| Call.read fun w =>
      match w.db.users.find? earned.lbUserID with
      | some user => w.db.acceptedElsewhere submission user
      | none => false).attempt
    match count with
    | .ok true => pure { earned with scoreToAdd := 0 }
    | _ => pure earned
  else pure earned

/-- What a message with this verdict earns. -/
def earn (env : EgressEnv) (submission : Submission) (verdict : String) : Service Earned :=
  if verdict = submissionStatusAccepted then do
    let earned ← if submission.submissionOwnerType = ownerRoundSubmissions then
        earnRound env submission
      else pure ⟨0, 0⟩
    withoutRepeats env submission earned
  else pure ⟨0, 0⟩

/-- The difficulty of the problem, which stays empty when it is not loaded. -/
def loadDifficulty (env : EgressEnv) (submission : Submission) : Service String :=
  Call.read fun w =>
    if env.fails .loadProblem then ""
    else match w.db.problems.find? submission.problemID with
      | some problem => problem.difficulty
      | none => ""

/-! ## Writing the points -/

/-- `UpdateLeaderboardScore`: adds points to a user's score on the leaderboard of a round. -/
def updateLeaderboardScore (env : EgressEnv) (roundID : ℕ) (userID : AuthID)
    (scoreToAdd : UInt64) : Service Unit := do
  let entry ← .io (env.fails .zscore) .io <| Call.read fun w =>
    (w.redis.leaderboard roundID).score? userID
  let currentScore := entry.getD (toFloat64 (compressScoreAndTimeStamp 0 env.now))
  let points := decompressScore currentScore
  let newPoints := uint64 (points + scoreToAdd.toNat)
  let newCompressedScore := toFloat64 (compressScoreAndTimeStamp newPoints env.now)
  .io (env.fails .zadd) .io <| writeRedis fun r =>
    { r with
      leaderboard := Function.update r.leaderboard roundID
        ((r.leaderboard roundID).add userID newCompressedScore) }

/-- Adds the points to the leaderboard of the round; a failure is only logged. -/
def addToRoundLeaderboard (env : EgressEnv) (submission : Submission) (scoreToAdd : UInt64) :
    Service Unit :=
  if submission.submissionOwnerType = ownerRoundSubmissions then do
    let found ← (findRoundSubmission (env.fails .reloadRoundSubmission)
      submission.submissionOwnerID).attempt
    match found with
    | .error _ => pure ()
    | .ok (rs, authID) => logged (updateLeaderboardScore env rs.roundID authID scoreToAdd)
  else pure ()

/-- A leaderboard row can be inserted for the user: the user exists and has none yet. -/
def DB.leaderboardFits (db : DB) (userID : ℕ) : Bool :=
  (db.users.find? userID).isSome && db.leaderboards.rows.all fun lb => decide (lb.userID ≠ userID)

/-- The same row under another key. -/
def Leaderboard.withKey (lb : Leaderboard) (id : ℕ) : Leaderboard := { lb with id := id }

/-- A row has the key that it is given. -/
theorem Leaderboard.id_withKey (lb : Leaderboard) (id : ℕ) : Row.id (lb.withKey id) = id := rfl

/-- A key leaves the user of the row. -/
@[simp] theorem Leaderboard.userID_withKey (lb : Leaderboard) (id : ℕ) :
    (lb.withKey id).userID = lb.userID := rfl

/-- The last key counts. -/
@[simp] theorem Leaderboard.withKey_withKey (lb : Leaderboard) (id id' : ℕ) :
    (lb.withKey id).withKey id' = lb.withKey id' := rfl

/-- Inserts a leaderboard row. -/
def insertLeaderboard (hint : ℕ) (lb : Leaderboard) : Service ℕ := do
  if ← Call.read fun w => w.db.leaderboardFits lb.userID then
    let id ← Call.read fun w => w.db.leaderboards.fresh hint
    writeDB fun db =>
      { db with leaderboards := db.leaderboards.insert hint lb.withKey lb.id_withKey }
    pure id
  else .fail (.other "constraint violation")

/-- `FirstOrCreate` of the leaderboard of a user. Its errors are ignored, so the object stays as far
as it was filled. -/
def firstOrCreateLeaderboard (env : EgressEnv) (lbUserID : ℕ) : Service Leaderboard := do
  let found ← (Call.io (env.fails .findLeaderboard) GoError.io <| Call.read fun w =>
    w.db.leaderboards.first? fun lb => decide (lbUserID = 0 ∨ lb.userID = lbUserID)).attempt
  match found with
  | .error _ => pure ⟨0, 0, 0, 0, 0, 0⟩
  | .ok (some lb) => pure lb
  | .ok none => do
    let created ← (Call.io (env.fails .createLeaderboard) .io <|
      insertLeaderboard env.leaderboardHint ⟨0, lbUserID, 0, 0, 0, 0⟩).attempt
    match created with
    | .ok id => pure ⟨id, lbUserID, 0, 0, 0, 0⟩
    | .error _ => pure ⟨0, lbUserID, 0, 0, 0, 0⟩

/-- Counts a solved problem and its points. -/
def Leaderboard.credit (lb : Leaderboard) (difficulty : String) (scoreToAdd : UInt64) :
    Leaderboard :=
  { lb with
    easySolved := if difficulty = difficultyEasy then lb.easySolved + 1 else lb.easySolved
    mediumSolved := if difficulty = difficultyMedium then lb.mediumSolved + 1 else lb.mediumSolved
    hardSolved := if difficulty = difficultyHard then lb.hardSolved + 1 else lb.hardSolved
    totalScore := lb.totalScore + scoreToAdd }

/-- `Save`: an object without a key is inserted, any other overwrites its row. -/
def saveLeaderboard (env : EgressEnv) (lb : Leaderboard) : Service Unit :=
  .io (env.fails .saveLeaderboard) .io <|
    if lb.id = 0 then do
      let _ ← insertLeaderboard env.leaderboardHint lb
      pure ()
    else writeDB fun db =>
      { db with
        leaderboards := db.leaderboards.modify lb.id (fun old => lb.withKey old.id)
          fun old => lb.id_withKey old.id }

/-- Adds the points to the leaderboard of the user. -/
def addToLeaderboard (env : EgressEnv) (lbUserID : ℕ) (difficulty : String)
    (scoreToAdd : UInt64) : Service Unit := do
  let lb ← firstOrCreateLeaderboard env lbUserID
  saveLeaderboard env (lb.credit difficulty scoreToAdd)

/-! ## Processing a message -/

/-- The submission that a message names. -/
def loadSubmission (env : EgressEnv) (submissionId : ℕ) : Service Submission := do
  if env.fails .loadSubmission then
    .fail (.pointer ⟨500, "Internal Server Error: connection error"⟩)
  else
    match ← Call.read fun w => w.db.submissions.find? submissionId with
    | some submission => pure submission
    | none => .fail (.pointer ⟨404, "Submission not found"⟩)

/-- The same submission with another verdict. -/
def Submission.withVerdict (verdict : String) (s : Submission) : Submission :=
  { s with verdict := verdict }

/-- A verdict leaves the key. -/
theorem Submission.id_withVerdict (verdict : String) (s : Submission) :
    Row.id (s.withVerdict verdict) = Row.id s := rfl

section WithVerdict

variable (verdict : String) (s : Submission)

/-- A verdict leaves the key. -/
@[simp] theorem Submission.withVerdict_id : (s.withVerdict verdict).id = s.id := rfl

/-- It leaves the problem. -/
@[simp] theorem Submission.withVerdict_problemID :
    (s.withVerdict verdict).problemID = s.problemID := rfl

/-- The verdict is stored. -/
@[simp] theorem Submission.withVerdict_verdict : (s.withVerdict verdict).verdict = verdict := rfl

/-- It leaves the owner. -/
@[simp] theorem Submission.withVerdict_submissionOwnerID :
    (s.withVerdict verdict).submissionOwnerID = s.submissionOwnerID := rfl

/-- It leaves the kind of the owner. -/
@[simp] theorem Submission.withVerdict_submissionOwnerType :
    (s.withVerdict verdict).submissionOwnerType = s.submissionOwnerType := rfl

end WithVerdict

/-- The table of submissions with the verdict of one of them written. -/
def setVerdict (t : Table Submission) (id : ℕ) (verdict : String) : Table Submission :=
  t.modify id (Submission.withVerdict verdict) (Submission.id_withVerdict verdict)

/-- Writes the verdict of a submission. -/
def updateVerdict (env : EgressEnv) (submission : Submission) (verdict : String) : Service Unit :=
  .io (env.fails .updateVerdict) (.pointer ⟨500, "Internal Server Error: connection error"⟩) <|
    writeDB fun db =>
      { db with submissions := setVerdict db.submissions submission.id verdict }

/-- Processes the payload of a message. -/
def processPayload (env : EgressEnv) (payload : SubmissionEgressDTO) : Service Unit := do
  let submission ← loadSubmission env payload.submissionId
  let difficulty ← loadDifficulty env submission
  let earned ← earn env submission payload.verdict
  updateVerdict env submission payload.verdict
  if payload.verdict = submissionStatusAccepted ∧ earned.scoreToAdd ≠ 0 then do
    addToRoundLeaderboard env submission earned.scoreToAdd
    addToLeaderboard env earned.lbUserID difficulty earned.scoreToAdd
  else pure ()

/-- `ProcessSubmissionData` -/
def processSubmissionData (env : EgressEnv) (rawSubmissionData : Payload) : Service Unit :=
  match SubmissionEgressDTO.unmarshal rawSubmissionData with
  | some payload => processPayload env payload
  | none => .fail (.other "json: cannot unmarshal")

/-! ## The listener -/

/-- The error is one that the listener takes for transient. -/
def GoError.isTransient : GoError → Bool
  | .pointer e => decide (500 ≤ e.statusCode)
  | _ => false

/-- What the listener does with a consumed message: it processes it, and then either puts it back
onto the queue or drops it. A panic leaves it in the processing list. -/
def handleSubmissionData (env : EgressEnv) (rawSubmissionData : Payload) : Service Unit := do
  let result ← (processSubmissionData env rawSubmissionData).attempt
  match result with
  | .error e =>
    if e.isTransient then
      writeRedis fun r => { r with egress := r.egress.requeue rawSubmissionData }
    else writeRedis fun r => { r with egress := r.egress.ack rawSubmissionData }
  | .ok _ => writeRedis fun r => { r with egress := r.egress.ack rawSubmissionData }

/-- One round of `ListenForSubmissionData`. -/
def listenForSubmissionData (env : EgressEnv) : Service Unit := do
  let message ← Call.read fun w => w.redis.egress.consume.1
  match message with
  | none => pure ()
  | some rawSubmissionData => do
    writeRedis fun r => { r with egress := r.egress.consume.2 }
    handleSubmissionData env rawSubmissionData

end Bsg.Central
