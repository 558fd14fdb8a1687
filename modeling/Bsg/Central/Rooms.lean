import Bsg.Central.Rounds

/-!
# The room service

`services/room.go`: joining and leaving a room, creating, starting and ending its rounds, taking in
a submission for it, and deleting it. A request names the room by some text. The members of a room
are the entries of the join timestamps that Redis keeps under that text, and rtc-service is told the
text too; its rounds are the rows of `rounds` with the id that the text names, in whatever order the
database returns them. The current round of a room is the last of that order (`joinRoom`,
`createRoomSubmission`, `getRoundDetails`) or the one under the key of the most recent round
(`getLeaderboard`), the round that is started is the first created one of that order
(`startRoundByRoomID`), and the round that is ended is the first started one (`endRoundByRoomID`).
-/

namespace Bsg.Central

open Bsg.Foundations

/-- The row of a room. -/
def DB.roomByID (db : DB) (roomID : RoomID) : Option Room := db.rooms.find? fun r => r.id = roomID

/-- `FindRoomByID`: the room that a text names, and its rounds. -/
def findRoomByID (env : Env) (roomID : RoomID) : Service (Room × List Round) :=
  match env.uuid.parse roomID with
  | some uuid =>
    .io (env.fails .findRoom) .io <| do
      match ← Call.read fun w => w.db.roomByID uuid with
      | some room => do
        let rounds ← Call.read fun w => w.db.roundsOf env.rounds uuid
        pure (room, rounds)
      | none => .fail (.value ⟨404, "roomID could not be found"⟩)
  | none => .fail (.value ⟨400, "roomID could not be parsed"⟩)

/-! ## Members -/

/-- `addJoinMember` -/
def addJoinMember (env : Env) (roomID : RoomID) (userID : AuthID) : Service Unit := do
  let added ← .io (env.fails .zaddJoin) .io <| do
    let member ← Call.read fun w => (w.redis.joinTimestamp roomID).contains userID
    writeRedis fun r =>
      { r with
        joinTimestamp := Function.update r.joinTimestamp roomID
          ((r.joinTimestamp roomID).add userID env.now) }
    pure !member
  logged <| .io (env.fails .setActiveRoom) .io <| writeRedis fun r =>
    { r with activeRoom := Function.update r.activeRoom userID (some roomID) }
  if added then pure () else .fail (.value ⟨400, "Are you already in this room?"⟩)

/-- `removeJoinMember` -/
def removeJoinMember (env : Env) (roomID : RoomID) (userID : AuthID) : Service Unit := do
  let removed ← .io (env.fails .zremJoin) .io <| do
    let member ← Call.read fun w => (w.redis.joinTimestamp roomID).contains userID
    writeRedis fun r =>
      { r with
        joinTimestamp := Function.update r.joinTimestamp roomID
          ((r.joinTimestamp roomID).remove userID) }
    pure member
  logged <| .io (env.fails .delActiveRoom) .io <| writeRedis fun r =>
    { r with activeRoom := Function.update r.activeRoom userID none }
  if removed then pure () else .fail (.value ⟨400, "Are you in this room?"⟩)

/-- `GetActiveRoomForUser`: the empty text when the user has no active room. -/
def getActiveRoomForUser (env : Env) (userID : AuthID) : Service RoomID :=
  .io (env.fails .getActiveRoom) .io <| Call.read fun w => (w.redis.activeRoom userID).getD ""

/-- `FindActiveUsers` -/
def findActiveUsers (env : Env) (roomID : RoomID) : Service (List AuthID) :=
  .io (env.fails .zrangeJoin) .io <| Call.read fun w => (w.redis.joinTimestamp roomID).members

/-- `FindRightfulRoomAdmin` -/
def findRightfulRoomAdmin (env : Env) (roomID : RoomID) : Service AuthID := do
  let members ← .io (env.fails .zrangeAdmin) .io <| Call.read fun w =>
    (w.redis.joinTimestamp roomID).members
  match members with
  | [] => .fail (.value ⟨500, "Empty room"⟩)
  | user :: _ => pure user

/-- The display name of a user: the first of handle, full name, email and auth id that is there. -/
def User.displayName (user : User) (userID : AuthID) : GoText :=
  if user.handle ≠ [] then user.handle
  else
    let name := GoText.trimSpace (user.firstName ++ utf8 " " ++ user.lastName)
    if name ≠ [] then name
    else if user.email ≠ [] then user.email
    else userID

/-- `userDisplayName` -/
def userDisplayName (env : Env) (userID : AuthID) : Service GoText :=
  Call.read fun w =>
    if env.fails .findUser then userID
    else match (env.users.order w.db.users.rows).find? fun u => userID = [] ∨ u.authID = userID with
      | some user => user.displayName userID
      | none => userID

/-- The error that the room service makes of a failed announcement. -/
def internalServerError : GoError := .value ⟨500, "Internal Server Error"⟩

/-- An announcement that must succeed. -/
def announce (env : Env) (call : RtcCall) (req : Rtc.Request) : Service Unit := do
  let result ← (sendMessage (env.reply call) req).attempt
  match result with
  | .ok _ => pure ()
  | .error _ => .fail internalServerError

/-- An announcement whose failure is only logged. -/
def tryAnnounce (env : Env) (call : RtcCall) (req : Rtc.Request) : Service Unit :=
  logged (sendMessage (env.reply call) req)

/-- What follows once a user is a member: the room is told, and when the last of the loaded rounds
is started, the user takes part in it. -/
def enterRoom (env : Env) (roomID : RoomID) (room : Room) (rounds : List Round) (userID : AuthID) :
    Service Unit := do
  let displayName ← userDisplayName env userID
  announce env .joinRoom
    (.joinRoom userID roomID displayName false (some room.profanityFilter))
  match rounds.getLast? with
  | some round =>
    if round.status = .started then do
      createRoundParticipant env 0 userID round.id
      announce env (.joinRound 0) (.joinRound roomID userID displayName)
    else pure ()
  | none => pure ()

/-- `JoinRoom` -/
def joinRoom (env : Env) (roomID : RoomID) (userID : AuthID) : Service Room := do
  let (room, rounds) ← findRoomByID env roomID
  addJoinMember env roomID userID
  enterRoom env roomID room rounds userID
  pure room

/-! ## Deleting a room -/

/-- `deleteJoinMembers` -/
def deleteJoinMembers (env : Env) (roomID : RoomID) : Service Unit := do
  let members ← Call.read fun w =>
    if env.fails .zrangeDelete then [] else (w.redis.joinTimestamp roomID).members
  Call.io (env.fails .delJoin) .io <| writeRedis fun r =>
    { r with joinTimestamp := Function.update r.joinTimestamp roomID .empty }
  Call.forEach members.zipIdx fun (userID, i) =>
    logged <| .io (env.fails (.delMember i)) .io <| writeRedis fun r =>
      { r with activeRoom := Function.update r.activeRoom userID none }

/-- Deletes a round with what belongs to it. -/
def deleteRound (env : Env) (round : Round × ℕ) : Service Unit := do
  logged (deleteLeaderboard env round.2 round.1.id)
  Call.io (env.fails (.deleteRoundSubmissions round.2)) .io <| writeDB fun db =>
    { db with roundSubmissions := db.roundSubmissions.delete fun s => s.roundID = round.1.id }
  Call.io (env.fails (.deleteParticipants round.2)) .io <| writeDB fun db =>
    { db with participants := db.participants.delete fun p => p.roundID = round.1.id }
  Call.io (env.fails (.deleteRoundProblems round.2)) .io <| writeDB fun db =>
    { db with roundProblems := db.roundProblems.filter fun rp => rp.1 ≠ round.1.id }
  Call.io (env.fails (.deleteRound round.2)) .io <| writeDB fun db =>
    { db with rounds := db.rounds.delete fun r => r.id = round.1.id }

/-- Deletes the row of a room; its remaining rounds go with it, and so do their problem sets. -/
def DB.deleteRoomRow (db : DB) (roomID : RoomID) : DB :=
  { db with
    rooms := db.rooms.filter fun r => r.id ≠ roomID
    rounds := db.rounds.delete fun r => r.roomID = roomID
    roundProblems := db.roundProblems.filter fun rp =>
      !db.rounds.rows.any fun r => decide (r.id = rp.1 ∧ r.roomID = roomID) }

/-- Some round of the room still has submissions, which forbids to delete it. -/
def DB.roomInUse (db : DB) (roomID : RoomID) : Bool :=
  db.roundSubmissions.rows.any fun s => db.rounds.rows.any fun r =>
    decide (r.id = s.roundID ∧ r.roomID = roomID)

/-- Without a round of the room no row forbids to delete it. -/
theorem DB.roomInUse_eq_false {db : DB} {roomID : RoomID}
    (h : ∀ r ∈ db.rounds.rows, r.roomID ≠ roomID) : db.roomInUse roomID = false := by
  rw [DB.roomInUse, List.any_eq_false]
  intro s _
  rw [Bool.not_eq_true, List.any_eq_false]
  intro r hr hboth
  exact h r hr (of_decide_eq_true hboth).2

/-- `deleteRoom`, of a room with the rounds it was loaded with. -/
def deleteRoom (env : Env) (room : Room) (rounds : List Round) : Service Unit := do
  deleteJoinMembers env room.id
  Call.forEach rounds.zipIdx (deleteRound env)
  Call.io (env.fails .deleteRoom) .io <| do
    if ← Call.read fun w => w.db.roomInUse room.id then
      .fail (.other "constraint violation")
    else writeDB fun db => db.deleteRoomRow room.id

/-- `cancelRoomExpiry` -/
def cancelRoomExpiry (roomID : RoomID) : Service Unit :=
  .write fun w => { w with expiryTasks := w.expiryTasks.filter (· ≠ roomID) }

/-- The task that `scheduleRoomExpiry` schedules: it deletes the room and tells rtc-service so. A
room that is not found is gone already. -/
def expireRoom (env : Env) (roomID : RoomID) : Service Unit := do
  let result ← (findRoomByID env roomID).attempt
  match result with
  | .error _ => pure ()
  | .ok (room, rounds) => do
    deleteRoom env room rounds
    tryAnnounce env .roomExpired (.roomExpired roomID)

/-- Hands the room to its rightful admin when the departing user was its admin. -/
def replaceAdmin (env : Env) (roomID : RoomID) (room : Room) (userID : AuthID) : Service Unit :=
  if room.admin = userID then do
    let admin ← findRightfulRoomAdmin env roomID
    Call.io (env.fails .updateAdmin) .io <| writeDB fun db =>
      { db with
        rooms := db.rooms.map fun r => if r.id = room.id then { r with admin := admin } else r }
    let adminName ← userDisplayName env admin
    tryAnnounce env .adminChange (.adminChange roomID admin adminName)
  else pure ()

/-- `LeaveRoom` -/
def leaveRoom (env : Env) (roomID : RoomID) (userID : AuthID) : Service Unit := do
  let (room, rounds) ← findRoomByID env roomID
  removeJoinMember env roomID userID
  let userName ← userDisplayName env userID
  announce env .leaveRoom (.leaveRoom userID roomID userName)
  let users ← findActiveUsers env roomID
  if users = [] then do
    cancelRoomExpiry roomID
    deleteRoom env room rounds
  else replaceAdmin env roomID room userID

/-! ## Rounds of a room -/

/-- The rounds of a room that have not ended. -/
def DB.openRounds (db : DB) (roomID : RoomID) : ℕ :=
  (db.rounds.rows.filter fun r => decide (r.roomID = roomID ∧ r.status ≠ .ended)).length

/-- `CheckRoundLimitExceeded` -/
def checkRoundLimitExceeded (env : Env) (maxNumRoundsPerRoom : ℤ) (room : Room) :
    Service Bool :=
  .io (env.fails .countRounds) .io <| Call.read fun w =>
    decide ((w.db.openRounds room.id : ℤ) ≥ maxNumRoundsPerRoom)

/-- A room whose first round could not be created is deleted; a failure of that is only logged. -/
def cleanUpRoom (env : Env) (roomID : RoomID) (room : Room) (rounds : List Round) :
    Service Unit :=
  if rounds = [] then do
    cancelRoomExpiry roomID
    logged (deleteRoom env room rounds)
  else pure ()

/-- `RoomService.CreateRound`. When the room has no round yet, a failure deletes the room. -/
def createRound (env : Env) (maxNumRoundsPerRoom : ℤ) (params : RoundCreationParameters)
    (roomID : RoomID) : Service (Round × Bool) := do
  let (room, rounds) ← findRoomByID env roomID
  let roundLimitExceeded ← checkRoundLimitExceeded env maxNumRoundsPerRoom room
  if roundLimitExceeded then .fail (.pointer ⟨400, "Round limit exceeded"⟩)
  else do
    let result ← (roundServiceCreateRound env params room.id).attempt
    match result with
    | .error e => do
      cleanUpRoom env roomID room rounds
      .fail e
    | .ok (round, fallbackUsed) => do
      Call.io (env.fails .appendRound) .io (pure ())
      pure (round, fallbackUsed)

/-- The members of a starting round are told to rtc-service; failures are only logged. -/
def announceParticipant (env : Env) (roomID : RoomID) (user : AuthID × ℕ) : Service Unit := do
  let userName ← userDisplayName env user.1
  tryAnnounce env (.joinRound user.2) (.joinRound roomID user.1 userName)

/-- The round that `StartRoundByRoomID` starts, when the user may start one. -/
def findRoundToStart (env : Env) (roomID : RoomID) (userID : AuthID) : Service Round := do
  let (room, rounds) ← findRoomByID env roomID
  if room.admin ≠ userID then
    .fail (.value ⟨401,
      "User is not room admin. This functionality is reserved for room admin..."⟩)
  else match rounds.find? fun r => r.status = .created with
    | none => .fail (.value ⟨404, "No round ready to start. Create a round first."⟩)
    | some round => pure round

/-- `StartRoundByRoomID` -/
def startRoundByRoomID (env : Env) (roomID : RoomID) (userID : AuthID) :
    Service (ℤ × List Problem) := do
  let round ← findRoundToStart env roomID userID
  let activeUsers ← findActiveUsers env roomID
  let started ← initiateRoundStart env round activeUsers
  Call.forEach activeUsers.zipIdx (announceParticipant env roomID)
  pure started

/-- `SetRoundDurationByRoomID` -/
def setRoundDurationByRoomID (env : Env) (roomID : RoomID) (userID : AuthID) (duration : ℤ) :
    Service ℤ := do
  let (room, rounds) ← findRoomByID env roomID
  if room.admin ≠ userID then
    .fail (.value ⟨401,
      "User is not room admin. This functionality is reserved for room admin..."⟩)
  else match rounds.find? fun r => r.status = .created with
    | none =>
      .fail (.value ⟨404,
        "No round to edit. The timer can only be changed before the round starts."⟩)
    | some round => updateRoundDuration env round duration

/-- `EndRoundByRoomID` -/
def endRoundByRoomID (env : Env) (roomID : RoomID) (userID : AuthID) : Service Unit := do
  let (room, rounds) ← findRoomByID env roomID
  if room.admin ≠ userID then
    .fail (.value ⟨401, "only the room admin can end the round"⟩)
  else match rounds.find? fun r => r.status = .started with
    | none => pure ()
    | some round => do
      markRoundEnded env round.id
      tryAnnounce env .roundEnd (.roundEnd roomID)

/-- `CreateRoomSubmission` -/
def createRoomSubmission (env : Env) (roomID : RoomID) (params : RoundSubmissionParameters)
    (userID : AuthID) : Service (RoundSubmission × Submission) := do
  let (_, rounds) ← findRoomByID env roomID
  match rounds.getLast? with
  | none => .fail (.value ⟨404, "Round not found. Has not been created?"⟩)
  | some round => createRoundSubmission env { params with roundID := round.id } userID

/-! ## Reading a round -/

/-- `LeaderboardEntry` -/
structure LeaderboardEntry where
  userAuthID : AuthID
  handle : GoText
  photoURL : GoText
  score : ℕ
  rank : ℕ
  solvedCount : UInt64
  deriving DecidableEq, Repr

/-- The row of the leaderboard for its `i`-th entry; of several rows of one user, or of one
participant, the last one loaded counts. -/
def enrichEntry (users : List User) (participants : List RoundParticipant)
    (entry : (AuthID × ℕ) × ℕ) : LeaderboardEntry :=
  let user := users.reverse.find? fun u => decide (u.authID = entry.1.1)
  let participant := participants.reverse.find? fun p => decide (p.participantAuthID = entry.1.1)
  { userAuthID := entry.1.1
    handle := ((user.map User.handle).filter fun handle => decide (handle ≠ [])).getD entry.1.1
    photoURL := (user.map User.photoURL).getD []
    score := decompressScore entry.1.2
    rank := entry.2 + 1
    solvedCount := (participant.map RoundParticipant.solvedProblemCount).getD 0 }

/-- `GetLeaderboard`: the leaderboard of the most recent round, with names and solved counts. -/
def getLeaderboard (env : Env) (roomID : RoomID) : Service (List LeaderboardEntry) := do
  let redisEntries ← getLeaderboardByRoomID env roomID
  let authIDs := redisEntries.1.map Prod.fst
  let users ← Call.read fun w =>
    if env.fails .findUser then []
    else env.users.order (w.db.users.rows.filter fun u => authIDs.contains u.authID)
  let participants ← Call.read fun w =>
    if redisEntries.2 = 0 ∨ env.fails .findParticipant then []
    else env.participants.order
      (w.db.participants.rows.filter fun p => decide (p.roundID = redisEntries.2))
  pure (redisEntries.1.zipIdx.map (enrichEntry users participants))

/-- `ProblemDetail`, without the name. -/
structure ProblemDetail where
  id : ℕ
  slug : String
  difficulty : String
  deriving DecidableEq, Repr

/-- `RoundDetailsResponse`; for each user, the problems he solved with the time. -/
structure RoundDetailsResponse where
  roundID : ℕ
  status : RoundStatus
  roundStartTime : ℤ
  problems : List ProblemDetail
  solvedProblems : AuthID → ℕ → Option ℤ

/-- When a user first solved a problem in a round. -/
def DB.solvedAt (db : DB) (roundID : ℕ) (userID : AuthID) (problemID : ℕ) : Option ℤ :=
  let ofRound (rs : RoundSubmission) : Bool := decide (rs.roundID = roundID) &&
    (db.participants.find? rs.roundParticipantID).any fun p => decide (p.participantAuthID = userID)
  let solving (s : Submission) : Bool :=
    decide (s.submissionOwnerType = ownerRoundSubmissions ∧ s.verdict = submissionStatusAccepted ∧
      s.problemID = problemID) &&
    (db.roundSubmissions.find? s.submissionOwnerID).any ofRound
  ((db.submissions.rows.filter solving).map Submission.submissionTimestamp).min?

/-- `GetRoundDetails`: the last of the room's rounds. -/
def getRoundDetails (env : Env) (roomID : RoomID) : Service RoundDetailsResponse := do
  let (_, rounds) ← findRoomByID env roomID
  match rounds.getLast? with
  | none => .fail (.value ⟨404, "No rounds in this room"⟩)
  | some round => do
    let problems ← .io (env.fails .findProblemSet) .io <| Call.read fun w =>
      w.db.problemSet env.problems round.id
    let solvedProblems ← .io (env.fails .findSolved) .io <| Call.read fun w =>
      w.db.solvedAt round.id
    pure
      { roundID := round.id
        status := round.status
        roundStartTime := round.lastUpdatedTime
        problems := problems.map fun p => ⟨p.id, p.slug, p.difficulty⟩
        solvedProblems := solvedProblems }

/-! ## A room to try things on -/

/-- The admin of a room. -/
def host : AuthID := utf8 "auth0|host"

/-- Another user. -/
def guest : AuthID := utf8 "auth0|guest"

/-- A room. -/
def roomOne : RoomID := "7f2c1d9e-0b3a-4c5d-8e6f-a1b2c3d4e5f6"

/-- Another room. -/
def roomTwo : RoomID := "0d9a6b3c-5e4f-4a1b-9c8d-7e6f5a4b3c2d"

/-- The id of the room is canonical. -/
theorem isUUID_roomOne : isUUID roomOne = true := by decide +kernel

/-- So is that of the other room. -/
theorem isUUID_roomTwo : isUUID roomTwo = true := by decide +kernel

/-- The round of the room, before it starts. -/
def roundOne : Round := ⟨1, 0, 30, roomOne, .created⟩

/-- A room with its admin as the only member, and a round with a problem. -/
def World.ready : World :=
  { World.empty with
    db := { DB.empty with
      problems := Table.empty.insert 1 fun id =>
        ⟨id, "3sum", [], difficultyMedium, false, false, false⟩
      rooms := [⟨roomOne, host, false, isUUID_roomOne⟩]
      rounds := Table.empty.insert 1 fun id => { roundOne with id := id }
      roundProblems := [(1, 1)] }
    redis := { Redis.empty with
      joinTimestamp := Function.update (fun _ => .empty) roomOne (SortedSet.empty.add host 0) }
    sent := [.joinRoom host roomOne host false (some false)] }

/-- The room with its round, which is the most recent one. -/
def World.recent : World :=
  { World.ready with
    redis := { World.ready.redis with
      mostRecentRound := Function.update (fun _ => none) roomOne (some 1) } }

/-- Two rooms of one admin, and nobody in them. -/
def World.twoRooms : World :=
  { World.empty with
    db := { DB.empty with
      rooms := [⟨roomOne, host, false, isUUID_roomOne⟩, ⟨roomTwo, host, false, isUUID_roomTwo⟩] } }

end Bsg.Central
