import Bsg.Central.ShortCodes

/-!
# The endpoints of rooms

`controllers/room.go`: each endpoint makes a call of the room service and answers over HTTP with its
result, or with a status for its error. The services return a `BSGError` by value at some places and
by pointer at others, and the handlers recognise it by value only (`ifValue`), or both ways
(`ifBSGError`).

An error keeps its meaning when it is answered under its own status, and an error of a library when
it is answered with 500 (`KeepsMeaning`).
-/

namespace Bsg.Central

open Bsg.Foundations

/-! ## Answers -/

/-- The JSON of an answer. -/
inductive HTTPBody where
  | message (text : String)
  | room (room : Room)
  | participants (users : List User)
  | newRound (round : Round) (usedFallback : Bool) (warningMessage : String)
  | started (startTime : ℤ) (problems : List Problem)
  | duration (minutes : ℤ)
  | leaderboard (entries : List LeaderboardEntry)
  | submission (roundSubmission : RoundSubmission) (submission : Submission)
  | activeRoom (roomID : Option RoomID)
  | roundDetails (details : RoundDetailsResponse)

/-- An answer over HTTP. -/
structure HTTPResponse where
  status : ℕ
  body : HTTPBody

/-- `echo.NewHTTPError`, as the framework answers it. -/
def httpError (status : ℕ) (message : String) : HTTPResponse := ⟨status, .message message⟩

/-- The answer to a body that cannot be bound. -/
def invalidData : HTTPResponse := httpError 400 "Invalid data. Please try again"

/-- The answer to an error, of which a `BSGError` is recognised by value only. -/
def ifValue (recognised : String → String) (otherwise : String) : GoError → HTTPResponse
  | .value e => httpError e.statusCode (recognised e.message)
  | .pointer _ | .other _ => httpError 500 otherwise

/-- The answer to an error, of which a `BSGError` is recognised by value and by pointer. -/
def ifBSGError (recognised : String → String) (otherwise : String) : GoError → HTTPResponse
  | .value e | .pointer e => httpError e.statusCode (recognised e.message)
  | .other _ => httpError 500 otherwise

/-- Makes a call of a service, and answers with its result or with its error. -/
def answer {α : Type} (call : SiteService α) (refuse : GoError → HTTPResponse)
    (reply : α → SiteService HTTPResponse) : SiteService HTTPResponse := do
  let result ← call.attempt
  match result with
  | .ok a => reply a
  | .error e => pure (refuse e)

/-! ## Numbers in a path -/

/-- The value of decimal digits. -/
def decimal (digits : List Char) : ℤ := digits.foldl (fun n c => 10 * n + (c.toNat - 48 : ℕ)) 0

/-- `strconv.Atoi` -/
def atoi (s : String) : Option ℤ :=
  let parse (sign : ℤ) (digits : List Char) : Option ℤ :=
    let n := sign * decimal digits
    if digits ≠ [] ∧ (digits.all Char.isDigit) ∧ -2^63 ≤ n ∧ n < 2^63 then some n else none
  match s.toList with
  | '-' :: digits => parse (-1) digits
  | '+' :: digits => parse 1 digits
  | digits => parse 1 digits

/-- The conversion `uint(n)`. -/
def uintOfInt (n : ℤ) : ℕ := (n % 2^64).toNat

/-! ## Endpoints -/

section Endpoints

variable (env : SiteEnv)

/-- `CreateNewRoomEndpoint` -/
def createNewRoomEndpoint (body : Option RoomDTO) (userAuthID : AuthID) :
    SiteService HTTPResponse :=
  match body with
  | none => pure invalidData
  | some roomDTO =>
    answer (createRoom env roomDTO userAuthID)
      (ifValue (fun message => "Failed to create room. " ++ message)
        "Failed to create room. Please try again later")
      fun newRoom => pure ⟨201, .room newRoom⟩

/-- `FindRoomEndpoint` -/
def findRoomEndpoint (targetRoomID : String) : SiteService HTTPResponse :=
  answer (onSite (findRoomByID env.toEnv targetRoomID))
    (ifValue (fun _ => "Room not found") "Failed to find room. Please try again later")
    fun found => pure ⟨200, .room found.1⟩

/-- The room id for a parameter that may be a short code. One that leads to no room is left as it
is. -/
def resolveRoomParam (roomParam : String) : SiteService String :=
  if (utf8 roomParam).length = 6 then do
    let found ← (findRoomByShortCode env roomParam).attempt
    match found with
    | .ok (room, _) => pure room.id
    | .error _ => pure roomParam
  else pure roomParam

/-- `JoinRoomEndpoint` -/
def joinRoomEndpoint (roomParam : String) (userAuthID : AuthID) : SiteService HTTPResponse := do
  let roomParam ← resolveRoomParam env roomParam
  answer (onSite (joinRoom env.toEnv roomParam userAuthID))
    (ifValue (fun message => "Failed to join room. " ++ message)
      "Failed to join room. Please try again later")
    fun room => pure ⟨200, .room room⟩

/-- The users behind the auth ids; whose lookup fails, and who is not found, is left out. -/
def lookUpParticipants : List (AuthID × ℕ) → Service (List User)
  | [] => pure []
  | (authID, i) :: authIDs => do
    let user ← (findUserByAuthID (env.participant i) authID).attempt
    let participants ← lookUpParticipants authIDs
    match user with
    | .ok (some user) => pure (user :: participants)
    | .ok none | .error _ => pure participants

/-- `GetRoomParticipantsEndpoint` -/
def getRoomParticipantsEndpoint (roomID : String) : SiteService HTTPResponse :=
  answer (onSite (findActiveUsers env.toEnv roomID))
    (ifValue (fun message => "Failed to get room participants. " ++ message)
      "Failed to get room participants. Please try again later")
    fun authIDs => do
      let participants ← onSite (lookUpParticipants env authIDs.zipIdx)
      pure ⟨200, .participants participants⟩

/-- `LeaveRoomEndpoint` -/
def leaveRoomEndpoint (roomID : String) (userAuthID : AuthID) : SiteService HTTPResponse :=
  answer (onSite (leaveRoom env.toEnv roomID userAuthID))
    (ifValue (fun message => "Failed to leave room. " ++ message)
      "Failed to leave room. Please try again later")
    fun _ => pure ⟨200, .message "Successfully Left Room"⟩

/-- The warning about a round that was filled up. -/
def warningMessage (fallbackUsed : Bool) : String :=
  if fallbackUsed then
    "Could not satisfy exact difficulty distribution for your filters. " ++
      "A fallback mix was used to fill the round."
  else ""

/-- `CreateNewRoundEndpoint` -/
def createNewRoundEndpoint (body : Option RoundCreationParameters) (roomID : String) :
    SiteService HTTPResponse :=
  match body with
  | none => pure invalidData
  | some roundCreationParams =>
    answer (onSite (createRound env.toEnv env.maxNumRoundsPerRoom roundCreationParams roomID))
      (ifBSGError (fun message => "Failed to create round. " ++ message)
        "Failed to create round. Please try again later")
      fun created => pure ⟨201, .newRound created.1 created.2 (warningMessage created.2)⟩

/-- `StartRoundEndpoint` -/
def startRoundEndpoint (targetRoomID : String) (userAuthID : AuthID) : SiteService HTTPResponse :=
  answer (onSite (startRoundByRoomID env.toEnv targetRoomID userAuthID))
    (ifBSGError (fun message => "Failed to start round. " ++ message)
      "Failed to start round. Please try again later")
    fun started => pure ⟨200, .started started.1 started.2⟩

/-- `UpdateRoundDurationEndpoint` -/
def updateRoundDurationEndpoint (body : Option ℤ) (targetRoomID : String) (userAuthID : AuthID) :
    SiteService HTTPResponse :=
  match body with
  | none => pure invalidData
  | some duration =>
    answer (onSite (setRoundDurationByRoomID env.toEnv targetRoomID userAuthID duration))
      (ifBSGError (fun message => "Failed to update timer. " ++ message)
        "Failed to update timer. Please try again later")
      fun newDuration => pure ⟨200, .duration newDuration⟩

/-- `GetLeaderboardEndpoint` -/
def getLeaderboardEndpoint (roomID : String) : SiteService HTTPResponse :=
  answer (onSite (getLeaderboard env.toEnv roomID))
    (ifValue (fun message => "Failed to get leaderboard. " ++ message)
      "Failed to get leaderboard. Please try again later")
    fun leaderboard => pure ⟨200, .leaderboard leaderboard⟩

/-- `CreateSubmissionEndpoint` -/
def createSubmissionEndpoint (roomID problemID : String) (body : Option RoundSubmissionParameters)
    (userAuthID : AuthID) : SiteService HTTPResponse :=
  match atoi problemID, body with
  | none, _ => pure (httpError 400 "Invalid problemID. Please try again")
  | some _, none => pure invalidData
  | some parsedProblemID, some params =>
    answer
      (onSite (createRoomSubmission env.toEnv roomID
        { params with problemID := uintOfInt parsedProblemID } userAuthID))
      (ifValue (fun message => "Failed to create submission. " ++ message)
        "Failed to create submission. Please try again later")
      fun result => pure ⟨200, .submission result.1 result.2⟩

/-- `GetActiveRoomEndpoint` -/
def getActiveRoomEndpoint (userAuthID : AuthID) : SiteService HTTPResponse :=
  answer (onSite (getActiveRoomForUser env.toEnv userAuthID))
    (fun _ => httpError 500 "Failed to get active room")
    fun roomID => pure ⟨200, .activeRoom (if roomID = "" then none else some roomID)⟩

/-- `EndRoundEndpoint` -/
def endRoundEndpoint (targetRoomID : String) (userAuthID : AuthID) : SiteService HTTPResponse :=
  answer (onSite (endRoundByRoomID env.toEnv targetRoomID userAuthID))
    (ifBSGError (fun message => "Failed to end round. " ++ message)
      "Failed to end round. Please try again later")
    fun _ => pure ⟨200, .message "Round ended"⟩

/-- `GetRoundDetailsEndpoint` -/
def getRoundDetailsEndpoint (roomID : String) : SiteService HTTPResponse :=
  answer (onSite (getRoundDetails env.toEnv roomID))
    (ifValue (fun message => "Failed to get round details. " ++ message)
      "Failed to get round details")
    fun details => pure ⟨200, .roundDetails details⟩

end Endpoints

/-! ## Requests -/

/-- A request to one of the endpoints. A body is there when it can be bound. -/
inductive RoomRequest where
  | createNewRoom (body : Option RoomDTO) (userAuthID : AuthID)
  | findRoom (roomID : String)
  | joinRoom (roomID : String) (userAuthID : AuthID)
  | getRoomParticipants (roomID : String)
  | leaveRoom (roomID : String) (userAuthID : AuthID)
  | createNewRound (body : Option RoundCreationParameters) (roomID : String)
  | startRound (roomID : String) (userAuthID : AuthID)
  | updateRoundDuration (body : Option ℤ) (roomID : String) (userAuthID : AuthID)
  | getLeaderboard (roomID : String)
  | createSubmission (roomID problemID : String) (body : Option RoundSubmissionParameters)
      (userAuthID : AuthID)
  | getActiveRoom (userAuthID : AuthID)
  | endRound (roomID : String) (userAuthID : AuthID)
  | getRoundDetails (roomID : String)
  deriving DecidableEq, Repr

/-- The endpoint that handles a request. -/
def RoomRequest.handle (env : SiteEnv) : RoomRequest → SiteService HTTPResponse
  | createNewRoom body userAuthID => createNewRoomEndpoint env body userAuthID
  | findRoom roomID => findRoomEndpoint env roomID
  | joinRoom roomID userAuthID => joinRoomEndpoint env roomID userAuthID
  | getRoomParticipants roomID => getRoomParticipantsEndpoint env roomID
  | leaveRoom roomID userAuthID => leaveRoomEndpoint env roomID userAuthID
  | createNewRound body roomID => createNewRoundEndpoint env body roomID
  | startRound roomID userAuthID => startRoundEndpoint env roomID userAuthID
  | updateRoundDuration body roomID userAuthID =>
    updateRoundDurationEndpoint env body roomID userAuthID
  | getLeaderboard roomID => getLeaderboardEndpoint env roomID
  | createSubmission roomID problemID body userAuthID =>
    createSubmissionEndpoint env roomID problemID body userAuthID
  | getActiveRoom userAuthID => getActiveRoomEndpoint env userAuthID
  | endRound roomID userAuthID => endRoundEndpoint env roomID userAuthID
  | getRoundDetails roomID => getRoundDetailsEndpoint env roomID

/-- The error that a call ends with, if it ends with one. -/
def errorsOf {α : Type} (call : SiteService α) (s : Site) : List GoError :=
  match (call.run s).1 with
  | .err e => [e]
  | .ok _ | .panic => []

/-- The errors of the calls for a join; one by a short code looks the room up first. -/
def joinRoomErrors (env : SiteEnv) (s : Site) (roomID : String) (userAuthID : AuthID) :
    List GoError :=
  (if (utf8 roomID).length = 6 then errorsOf (findRoomByShortCode env roomID) s else []) ++
    errorsOf (do
      let roomID ← resolveRoomParam env roomID
      onSite (joinRoom env.toEnv roomID userAuthID)) s

/-- The errors of the calls of the room service that are made for a request. -/
def RoomRequest.errors (env : SiteEnv) (s : Site) : RoomRequest → List GoError
  | createNewRoom none _ | createNewRound none _ | updateRoundDuration none _ _ => []
  | createNewRoom (some roomDTO) userAuthID => errorsOf (createRoom env roomDTO userAuthID) s
  | findRoom roomID => errorsOf (onSite (findRoomByID env.toEnv roomID)) s
  | joinRoom roomID userAuthID => joinRoomErrors env s roomID userAuthID
  | getRoomParticipants roomID => errorsOf (onSite (findActiveUsers env.toEnv roomID)) s
  | leaveRoom roomID userAuthID =>
    errorsOf (onSite (Central.leaveRoom env.toEnv roomID userAuthID)) s
  | createNewRound (some params) roomID =>
    errorsOf (onSite (createRound env.toEnv env.maxNumRoundsPerRoom params roomID)) s
  | startRound roomID userAuthID =>
    errorsOf (onSite (startRoundByRoomID env.toEnv roomID userAuthID)) s
  | updateRoundDuration (some duration) roomID userAuthID =>
    errorsOf (onSite (setRoundDurationByRoomID env.toEnv roomID userAuthID duration)) s
  | getLeaderboard roomID => errorsOf (onSite (Central.getLeaderboard env.toEnv roomID)) s
  | createSubmission roomID problemID body userAuthID =>
    match atoi problemID, body with
    | some parsedProblemID, some params =>
      errorsOf (onSite (createRoomSubmission env.toEnv roomID
        { params with problemID := uintOfInt parsedProblemID } userAuthID)) s
    | _, _ => []
  | getActiveRoom userAuthID => errorsOf (onSite (getActiveRoomForUser env.toEnv userAuthID)) s
  | endRound roomID userAuthID =>
    errorsOf (onSite (endRoundByRoomID env.toEnv roomID userAuthID)) s
  | getRoundDetails roomID => errorsOf (onSite (Central.getRoundDetails env.toEnv roomID)) s

/-- The status that tells what an error means: its own, and 500 for an error of a library. -/
def GoError.statusCode : GoError → ℕ
  | value e | pointer e => e.statusCode
  | other _ => 500

/-- Every error of a call for the request is answered under its status. -/
def KeepsMeaning (env : SiteEnv) (req : RoomRequest) (s : Site) : Prop :=
  ∀ e ∈ req.errors env s, ∃ response s', (req.handle env).run s = (.ok response, s') ∧
    response.status = e.statusCode

end Bsg.Central
