import Bsg.Central.Problems
import Bsg.Central.SubmissionQueue

/-!
# The round service

`services/round.go`: creating a round with its problems, starting it, ending it by its timer, and
taking in submissions. Starting a round is a sequence of steps with names of their own, since other
requests may come between them: `markRoundStarted` (status and announcement), `enrolParticipants`
(one transaction) and `scheduleRoundEnd`.
-/

namespace Bsg.Central

open Bsg.Foundations

/-- `RoundCreationParameters` -/
structure RoundCreationParameters where
  duration : ℤ
  numEasyProblems : ℤ
  numMediumProblems : ℤ
  numHardProblems : ℤ
  filter : ProblemFilter
  anyDifficulty : Bool
  numAnyDifficultyProblems : ℤ
  problemIDs : List ℕ
  deriving DecidableEq, Repr

/-- `MaxHandPickedProblems` -/
def maxHandPickedProblems : ℕ := 10

/-! ## Creating a round -/

/-- The problems of a new round: hand-picked, or generated from the filters. -/
def selectProblems (env : Env) (params : RoundCreationParameters) :
    Service (List Problem × Bool) :=
  if params.problemIDs ≠ [] then
    if params.problemIDs.length > maxHandPickedProblems then
      .fail (.value ⟨400, "Too many problems selected. max=" ++ toString maxHandPickedProblems ++
        " selected=" ++ toString params.problemIDs.length⟩)
    else do
      let problemSet ← findProblemsByIDs env params.problemIDs
      if problemSet = [] then
        .fail (.value ⟨400, "None of the selected problems could be found."⟩)
      else pure (problemSet, false)
  else if params.anyDifficulty then
    generateProblemsetAnyDifficulty env params.numAnyDifficultyProblems params.filter
  else
    generateProblemsetByDifficultyParameters env
      ⟨params.numEasyProblems, params.numMediumProblems, params.numHardProblems, params.filter⟩

/-- The row of a new round. -/
def newRound (now duration : ℤ) (roomID : RoomID) (id : ℕ) : Round :=
  ⟨id, now, duration, roomID, .created⟩

/-- A new round has the key that it is given. -/
theorem id_newRound (now duration : ℤ) (roomID : RoomID) (id : ℕ) :
    Row.id (newRound now duration roomID id) = id := rfl

/-- The database with a new round. -/
def DB.addRound (db : DB) (env : Env) (duration : ℤ) (roomID : RoomID) : DB :=
  { db with
    rounds := db.rounds.insert env.roundHint (newRound env.now duration roomID)
      (id_newRound env.now duration roomID) }

/-- Inserts the row of a new round. -/
def insertRound (env : Env) (duration : ℤ) (roomID : RoomID) : Service Round :=
  .io (env.fails .insertRound) .io <| do
    let id ← Call.read fun w => w.db.rounds.fresh env.roundHint
    writeDB fun db => db.addRound env duration roomID
    pure (newRound env.now duration roomID id)

/-- Adds problems to the problem set of a round; those that are there already stay. -/
def DB.appendProblems (db : DB) (roundID : ℕ) (problemSet : List Problem) : DB :=
  { db with
    roundProblems := db.roundProblems ++
      (problemSet.map fun p => (roundID, p.id)).filter fun rp => !db.roundProblems.contains rp }

/-- `RoundService.CreateRound` -/
def roundServiceCreateRound (env : Env) (params : RoundCreationParameters) (roomID : RoomID) :
    Service (Round × Bool) := do
  let newRound ← insertRound env params.duration roomID
  let (problemSet, fallbackUsed) ← selectProblems env params
  Call.io (env.fails .appendProblems) .io <| writeDB fun db =>
    db.appendProblems newRound.id problemSet
  Call.io (env.fails .setMostRecentRound) .io <| writeRedis fun r =>
    { r with mostRecentRound := Function.update r.mostRecentRound roomID (some newRound.id) }
  pure (newRound, fallbackUsed)

/-! ## Starting a round -/

/-- The row of a user who takes part in a round. -/
def newParticipant (participantAuthID : AuthID) (roundID id : ℕ) : RoundParticipant :=
  ⟨id, participantAuthID, roundID, 0, 0⟩

/-- A new participant has the key that he is given. -/
theorem id_newParticipant (participantAuthID : AuthID) (roundID id : ℕ) :
    Row.id (newParticipant participantAuthID roundID id) = id := rfl

/-- The database with a participant inserted. -/
def DB.addParticipant (db : DB) (hint : ℕ) (participantAuthID : AuthID) (roundID : ℕ) : DB :=
  { db with
    participants := db.participants.insert hint (newParticipant participantAuthID roundID)
      (id_newParticipant participantAuthID roundID) }

/-- `CreateRoundParticipant`; the index tells the rows of one call apart. -/
def createRoundParticipant (env : Env) (i : ℕ) (participantAuthID : AuthID) (roundID : ℕ) :
    Service Unit :=
  .io (env.fails (.createParticipant i)) .io <| writeDB fun db =>
    db.addParticipant (env.participantHint i) participantAuthID roundID

/-- The cache with a user's first entry on the leaderboard of a round. -/
def Redis.addLeaderboardMember (r : Redis) (now : ℤ) (roundID : ℕ) (userID : AuthID) : Redis :=
  { r with
    leaderboard := Function.update r.leaderboard roundID
      ((r.leaderboard roundID).add userID (toFloat64 (compressScoreAndTimeStamp 0 now))) }

/-- `addLeaderboardMember`: a user's first entry on the leaderboard of a round. -/
def addLeaderboardMember (env : Env) (i : ℕ) (roundID : ℕ) (userID : AuthID) : Service Unit :=
  .io (env.fails (.zaddLeaderboard i)) .io <| writeRedis fun r =>
    r.addLeaderboardMember env.now roundID userID

/-- The row of a round that starts. -/
def Round.start (now : ℤ) (round : Round) : Round :=
  { round with lastUpdatedTime := now, status := .started }

/-- Starting a round leaves its key. -/
theorem Round.id_start (now : ℤ) (round : Round) : Row.id (round.start now) = Row.id round := rfl

/-- The database with a round started. -/
def DB.startRound (db : DB) (now : ℤ) (roundID : ℕ) : DB :=
  { db with rounds := db.rounds.modify roundID (Round.start now) (Round.id_start now) }

/-- Marks a created round with problems as started and announces it. The announcement may fail. -/
def markRoundStarted (env : Env) (round : Round) : Service (List Problem) := do
  if round.status ≠ .created then
    .fail (.pointer ⟨400, "Round is either started or ended"⟩)
  else do
    let problemSet ← .io (env.fails .findProblemSet) .io <| Call.read fun w =>
      w.db.problemSet env.problems round.id
    if problemSet = [] then
      .fail (.value ⟨400, "Cannot start round: no problems were generated. " ++
        "Try fewer constraints or different tags."⟩)
    else do
      Call.io (env.fails .updateRoundStatus) .io <| writeDB fun db =>
        db.startRound env.now round.id
      logged (sendMessage (env.reply .roundStart)
        (.roundStart round.roomID (problemSet.map Problem.slug) env.now round.duration))
      pure problemSet

/-- Enrols one user of a starting round. -/
def enrolParticipant (env : Env) (roundID : ℕ) (user : AuthID × ℕ) : Service Unit := do
  createRoundParticipant env user.2 user.1 roundID
  addLeaderboardMember env user.2 roundID user.1

/-- The body of the transaction that enrols the users of a starting round. -/
def enrolAll (env : Env) (roundID : ℕ) (users : List AuthID) : Service Unit := do
  Call.io (env.fails .beginParticipants) .io (pure ())
  Call.forEach users.zipIdx (enrolParticipant env roundID)
  Call.io (env.fails .commitParticipants) .io (pure ())

/-- Enrols the users of a starting round, in one transaction of the database. -/
def enrolParticipants (env : Env) (roundID : ℕ) (users : List AuthID) : Service Unit :=
  Call.transaction rollback (enrolAll env roundID users)

/-- The nanoseconds for which the end of a round is scheduled: its minutes and the buffer. -/
def endInterval (round : Round) : ℤ :=
  int64 (int64 (60 * 10^9 * round.duration) + roundDurationBuffer * 10^9)

/-- Schedules the end of a round: the interval runs from this call, which comes after the status
update, the message to rtc-service and the transaction. The scheduler refuses an interval that is
not positive. -/
def scheduleRoundEnd (env : Env) (round : Round) : Service Unit :=
  .io (env.fails .scheduleRoundEnd) .io <|
    if 0 < endInterval round then
      .write fun w =>
        { w with tasks := w.tasks ++
            [⟨round.id, round.roomID, env.now * 10^9 + env.scheduleDelay + endInterval round⟩] }
    else .fail (.other "task interval must be defined")

/-- `InitiateRoundStart` -/
def initiateRoundStart (env : Env) (round : Round) (activeRoomParticipants : List AuthID) :
    Service (ℤ × List Problem) := do
  let problemSet ← markRoundStarted env round
  enrolParticipants env round.id activeRoomParticipants
  scheduleRoundEnd env round
  pure (env.now, problemSet)

/-! ## The duration of a round -/

/-- `MIN_ROUND_DURATION`, in minutes. -/
def minRoundDuration : ℤ := 5

/-- `MAX_ROUND_DURATION`, in minutes. -/
def maxRoundDuration : ℤ := 120

/-- The row of a round with another duration. -/
def Round.setDuration (newDuration : ℤ) (round : Round) : Round :=
  { round with duration := newDuration }

/-- Another duration leaves the key. -/
theorem Round.id_setDuration (newDuration : ℤ) (round : Round) :
    Row.id (round.setDuration newDuration) = Row.id round := rfl

/-- The database with another duration of a round. -/
def DB.setDuration (db : DB) (newDuration : ℤ) (roundID : ℕ) : DB :=
  { db with
    rounds := db.rounds.modify roundID (Round.setDuration newDuration)
      (Round.id_setDuration newDuration) }

/-- `UpdateRoundDuration`, for a round that the caller found. -/
def updateRoundDuration (env : Env) (round : Round) (newDuration : ℤ) : Service ℤ :=
  if round.status ≠ .created then
    .fail (.pointer ⟨400, "Timer can only be edited before the round starts"⟩)
  else if newDuration < minRoundDuration ∨ newDuration > maxRoundDuration then
    .fail (.pointer ⟨400, "Duration must be between " ++ toString minRoundDuration ++ " and " ++
      toString maxRoundDuration ++ " minutes"⟩)
  else do
    Call.io (env.fails .updateDuration) .io <| writeDB fun db => db.setDuration newDuration round.id
    pure newDuration

/-! ## Ending a round -/

/-- The row of a round that ends. -/
def Round.finish (round : Round) : Round := { round with status := .ended }

/-- Ending a round leaves its key. -/
theorem Round.id_finish (round : Round) : Row.id round.finish = Row.id round := rfl

/-- The database with a round ended. -/
def DB.finishRound (db : DB) (roundID : ℕ) : DB :=
  { db with rounds := db.rounds.modify roundID Round.finish Round.id_finish }

/-- Sets the status of a round to ended. -/
def markRoundEnded (env : Env) (roundID : ℕ) : Service Unit :=
  .io (env.fails .updateRoundStatus) .io <| writeDB fun db => db.finishRound roundID

/-- The function of a scheduled end task. -/
def endTaskFunc (env : Env) (task : EndTask) : Service Unit := do
  markRoundEnded env task.roundID
  sendMessage (env.reply .roundEnd) (.roundEnd task.roomID)

/-- The scheduler runs a task once, and forgets it. -/
def fireEndTask (env : Env) (task : EndTask) : Service Unit := do
  Call.write fun w => { w with tasks := w.tasks.erase task }
  logged (endTaskFunc env task)

/-- `DeleteLeaderboard` -/
def deleteLeaderboard (env : Env) (i : ℕ) (roundID : ℕ) : Service Unit :=
  .io (env.fails (.delLeaderboard i)) .io <| writeRedis fun r =>
    { r with leaderboard := Function.update r.leaderboard roundID .empty }

/-- `getLeaderboardByRoundID`: users and compressed scores, the best first. -/
def getLeaderboardByRoundID (env : Env) (roundID : ℕ) : Service (List (AuthID × ℕ)) :=
  .io (env.fails .zrangeLeaderboard) .io <| Call.read fun w =>
    (w.redis.leaderboard roundID).range.reverse

/-- `GetLeaderboardByRoomID`: the leaderboard of the room's most recent round, with its id. -/
def getLeaderboardByRoomID (env : Env) (roomID : RoomID) : Service (List (AuthID × ℕ) × ℕ) := do
  let roundID ← .io (env.fails .getMostRecentRound) .io <| Call.read fun w =>
    w.redis.mostRecentRound roomID
  match roundID with
  | none => .fail (.value ⟨404, "No recent round"⟩)
  | some roundID => do
    let entries ← getLeaderboardByRoundID env roundID
    pure (entries, roundID)

/-! ## Submissions -/

/-- `RoundSubmissionParameters` -/
structure RoundSubmissionParameters where
  roundID : ℕ
  problemID : ℕ
  code : String
  language : String
  verdict : String
  executionTime : UInt64
  deriving DecidableEq, Repr

/-- An accepted submission of the problem by a participant with this auth id, in any round. -/
def DB.acceptedBy (db : DB) (problemID : ℕ) (authID : AuthID) : Bool :=
  db.submissions.rows.any fun s =>
    decide (s.verdict = submissionStatusAccepted ∧ s.problemID = problemID ∧
      s.submissionOwnerType = ownerRoundSubmissions) &&
    match db.roundSubmissions.find? s.submissionOwnerID with
    | some rs =>
      match db.participants.find? rs.roundParticipantID with
      | some participant => decide (participant.participantAuthID = authID)
      | none => false
    | none => false

/-- `DetermineScoreDeltaForUserBySubmission` -/
def determineScoreDeltaForUserBySubmission (env : Env) (problem : Problem)
    (participant : RoundParticipant) : Service UInt64 :=
  .io (env.fails .countAccepted) .io <| Call.read fun w =>
    if w.db.acceptedBy problem.id participant.participantAuthID then 0
    else determineScoreForProblem problem

/-- What `CreateRoundSubmission` finds before it stores anything: the round, the problem with its
place in the problem set, the participant, and the points. -/
structure SubmissionContext where
  round : Round
  problem : Problem
  problemIndex : ℕ
  participant : RoundParticipant
  problemScore : UInt64
  deriving DecidableEq, Repr

/-- The checks of `CreateRoundSubmission`. A round or a problem that does not exist is a nil pointer
that the code follows. -/
def checkSubmission (env : Env) (params : RoundSubmissionParameters) (submissionAuthor : AuthID) :
    Service SubmissionContext := do
  let round ← .io (env.fails .findRound) .io <| Call.read fun w => w.db.rounds.find? params.roundID
  match round with
  | none => .crash
  | some round =>
    if round.status = .created then .fail (.pointer ⟨400, "Round haven't started yet"⟩)
    else if round.status = .ended then .fail (.pointer ⟨400, "Round already ended"⟩)
    else do
      let problem ← .io (env.fails .findProblem) .io <| Call.read fun w =>
        w.db.problems.find? params.problemID
      let problemSet ← .io (env.fails .findProblemSet) .io <| Call.read fun w =>
        w.db.problemSet env.problems round.id
      match problem with
      | none =>
        if problemSet = [] then .fail (.pointer ⟨400, "Invalid problem."⟩) else .crash
      | some problem =>
        match problemSet.findIdx? fun p => p.id = problem.id with
        | none => .fail (.pointer ⟨400, "Invalid problem."⟩)
        | some problemIndex => do
          let participant ← .io (env.fails .findParticipant) .io <| Call.read fun w =>
            (env.participants.order w.db.participants.rows).find? fun p =>
              p.participantAuthID = submissionAuthor ∧ p.roundID = params.roundID
          match participant with
          | none => .fail (.pointer ⟨400, "User haven't joined round..."⟩)
          | some participant => do
            let problemScore ← determineScoreDeltaForUserBySubmission env problem participant
            pure ⟨round, problem, problemIndex, participant, problemScore⟩

/-- The two rows of a new submission, from their keys. -/
def newRoundSubmission (ctx : SubmissionContext) (id : ℕ) : RoundSubmission :=
  ⟨id, ctx.round.id, ctx.participant.id, ctx.problemScore⟩

/-- The row in `submissions` that belongs to a new round submission. -/
def newSubmission (env : Env) (params : RoundSubmissionParameters) (ctx : SubmissionContext)
    (ownerID id : ℕ) : Submission :=
  ⟨id, params.code, params.language, ctx.problem.id, params.verdict, params.executionTime, ownerID,
    ownerRoundSubmissions, env.now⟩

/-- The database with a round submission and its submission inserted. -/
def DB.addSubmission (db : DB) (env : Env) (params : RoundSubmissionParameters)
    (ctx : SubmissionContext) : DB :=
  { db with
    roundSubmissions := db.roundSubmissions.insert env.roundSubmissionHint (newRoundSubmission ctx)
    submissions := db.submissions.insert env.submissionHint
      (newSubmission env params ctx (db.roundSubmissions.fresh env.roundSubmissionHint)) }

/-- Inserts a round submission together with its submission. -/
def storeSubmission (env : Env) (params : RoundSubmissionParameters) (ctx : SubmissionContext) :
    Service (RoundSubmission × Submission) :=
  .io (env.fails .createSubmission) .io <| do
    let ownerID ← Call.read fun w => w.db.roundSubmissions.fresh env.roundSubmissionHint
    let id ← Call.read fun w => w.db.submissions.fresh env.submissionHint
    writeDB fun db => db.addSubmission env params ctx
    pure (newRoundSubmission ctx ownerID, newSubmission env params ctx ownerID id)

/-- The name of the author of a submission as rtc-service is told it. -/
def DB.authorHandle (db : DB) (authID : AuthID) : GoText :=
  match db.users.first? fun u => decide (u.authID = authID) with
  | some user => if user.handle = [] then authID else user.handle
  | none => authID

/-- Announces a new submission; a failure is only logged. -/
def announceSubmission (env : Env) (params : RoundSubmissionParameters) (ctx : SubmissionContext)
    (submissionAuthor : AuthID) : Service Unit := do
  let userHandle ← Call.read fun w =>
    if env.fails .findUser then submissionAuthor else w.db.authorHandle submissionAuthor
  logged (sendMessage (env.reply .newSubmission)
    (.newSubmission userHandle ctx.round.roomID ctx.problem.slug params.verdict))

/-- The same participant with one more solved problem. -/
def RoundParticipant.solveOne (participant : RoundParticipant) : RoundParticipant :=
  { participant with solvedProblemCount := participant.solvedProblemCount + 1 }

/-- A solved problem leaves the key of the participant. -/
theorem RoundParticipant.id_solveOne (participant : RoundParticipant) :
    Row.id participant.solveOne = Row.id participant := rfl

/-- Counts a solved problem that brought points; a failure is only logged. -/
def countSolved (env : Env) (ctx : SubmissionContext) : Service Unit :=
  if ctx.problemScore ≠ 0 then
    logged <| .io (env.fails .updateSolved) .io <| writeDB fun db =>
      { db with
        participants := db.participants.modify ctx.participant.id RoundParticipant.solveOne
          RoundParticipant.id_solveOne }
  else pure ()

/-- Tells rtc-service the next problem for the participant, unless he solved the last one. -/
def announceNextProblem (env : Env) (ctx : SubmissionContext) : Service Unit := do
  let problemCount ← Call.read fun w =>
    if env.fails .countProblems then 0 else (w.db.problemSet env.problems ctx.round.id).length
  if (ctx.problemIndex : ℤ) ≠ problemCount - 1 then do
    let problemSet ← Call.read fun w =>
      if env.fails .findNextProblems then [] else w.db.problemSet env.nextProblems ctx.round.id
    match problemSet[ctx.problemIndex + 1]? with
    | some nextProblem =>
      logged (sendMessage (env.reply .nextProblem)
        (.nextProblem ctx.round.roomID nextProblem.slug ctx.participant.participantAuthID))
    | none => pure ()
  else pure ()

/-- What follows a submission that was stored: it is put on the queue to the worker, and announced;
an accepted one counts, and leads to the next problem. -/
def publishSubmission (env : Env) (params : RoundSubmissionParameters) (ctx : SubmissionContext)
    (submissionAuthor : AuthID) (rs : RoundSubmission) (submission : Submission) :
    Service Unit := do
  logged (addSubmissionToQueue (env.fails .publish) ctx.problem rs submission)
  announceSubmission env params ctx submissionAuthor
  if params.verdict = submissionStatusAccepted then do
    countSolved env ctx
    announceNextProblem env ctx
  else pure ()

/-- `CreateRoundSubmission` -/
def createRoundSubmission (env : Env) (params : RoundSubmissionParameters)
    (submissionAuthor : AuthID) : Service (RoundSubmission × Submission) := do
  let ctx ← checkSubmission env params submissionAuthor
  let (rs, submission) ← storeSubmission env params ctx
  Call.io (env.fails .appendToRound) .io (pure ())
  Call.io (env.fails .appendToParticipant) .io (pure ())
  publishSubmission env params ctx submissionAuthor rs submission
  pure (rs, submission)

end Bsg.Central
