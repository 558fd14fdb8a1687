import Bsg.Rtc.Response
import Bsg.Foundations.Run
import Bsg.Foundations.Table

/-!
# Connections of rtc-service

How rtc-service answers a message that arrives on one of its connections (`ReadMessages` in
`servicesmanager/service.go`, with the handlers in `requests/`). A room keeps the last
`maxHistorySize` messages. A `join-room` is first sent what the room keeps of chat, announcements,
joins and leaves; then the answer goes to everybody in the room, or to the sender alone when it is
an error or an empty announcement.

A message is handled at a `Moment`: the time on the server's clock, the classifier of profane texts,
and the order in which the connections are searched. What is sent is a list of deliveries, each with
its receiver. For the requests of central-service the rooms change as `handle` says
(`receive_chatManager`).
-/

namespace Bsg.Rtc

open Bsg.Foundations

/-! ## Rooms with their history -/

/-- `MaxHistorySize` -/
def maxHistorySize : ℕ := 100

/-- `Room`, with the messages it keeps. -/
structure HistoryRoom extends Room where
  messages : List Response
  deriving DecidableEq, Repr

/-- The rooms by their id. -/
abbrev Rooms := String → Option HistoryRoom

namespace HistoryRoom

/-- A room without users. -/
def empty : HistoryRoom := ⟨⟨[], none, false⟩, []⟩

/-- Changes the room and leaves its history alone. -/
def onRoom (r : HistoryRoom) (f : Room → Room) : HistoryRoom := { r with toRoom := f r.toRoom }

/-- `AddMessage`: the oldest message goes when there are too many. -/
def addMessage (r : HistoryRoom) (message : Response) : HistoryRoom :=
  let messages := r.messages ++ [message]
  { r with messages :=
      if messages.length > maxHistorySize then messages.drop (messages.length - maxHistorySize)
      else messages }

/-- A change of the room behind a history. -/
@[simp] theorem toRoom_onRoom (r : HistoryRoom) (f : Room → Room) :
    (r.onRoom f).toRoom = f r.toRoom := rfl

/-- It leaves the history. -/
@[simp] theorem messages_onRoom (r : HistoryRoom) (f : Room → Room) :
    (r.onRoom f).messages = r.messages := rfl

/-- A message leaves the room behind the history. -/
@[simp] theorem toRoom_addMessage (r : HistoryRoom) (message : Response) :
    (r.addMessage message).toRoom = r.toRoom := rfl

/-- What is added is kept at first. -/
theorem mem_addMessage_self (r : HistoryRoom) (message : Response) :
    message ∈ (r.addMessage message).messages := by
  unfold addMessage
  dsimp only
  split
  · rw [List.drop_append_of_le_length (by simp [maxHistorySize])]
    exact List.mem_append_right _ (List.mem_singleton_self _)
  · exact List.mem_append_right _ (List.mem_singleton_self _)

end HistoryRoom

/-- Changes a room that exists. -/
def Rooms.onRoom (rooms : Rooms) (roomID : String) (f : HistoryRoom → HistoryRoom) : Rooms :=
  match rooms roomID with
  | none => rooms
  | some r => Function.update rooms roomID (some (f r))

/-- The room is changed. -/
theorem Rooms.onRoom_self (rooms : Rooms) (roomID : String) (f : HistoryRoom → HistoryRoom) :
    rooms.onRoom roomID f roomID = (rooms roomID).map f := by
  unfold onRoom
  cases h : rooms roomID with
  | none => exact h
  | some r => exact Function.update_self _ _ _

/-- The other rooms are left as they are. -/
theorem Rooms.onRoom_of_ne (rooms : Rooms) {roomID id : String} (h : roomID ≠ id)
    (f : HistoryRoom → HistoryRoom) : rooms.onRoom id f roomID = rooms roomID := by
  unfold onRoom
  cases rooms id with
  | none => rfl
  | some r => exact Function.update_of_ne h _ _

/-! ## Messages that arrive -/

/-- A request on any connection: what central-service may ask for, or a chat message. -/
inductive ClientRequest where
  | of (r : Request)
  | chatMessage (userHandle userName userPhoto : GoText) (roomID : String) (message : GoText)
  deriving DecidableEq, Repr

/-- The name of a request's type. -/
def ClientRequest.type : ClientRequest → String
  | of (.joinRoom ..) => "join-room"
  | of (.leaveRoom ..) => "leave-room"
  | of (.roundStart ..) => "round-start"
  | of (.roundEnd ..) => "round-end"
  | of (.joinRound ..) => "join-round"
  | of (.nextProblem ..) => "next-problem"
  | of (.newSubmission ..) => "new-submission"
  | of (.adminChange ..) => "admin-change"
  | of (.roomExpired ..) => "room-expired"
  | chatMessage .. => "chat-message"

/-- What arrives on a connection: a text that is no message, a message without a known type, one
whose data is no request of its type (each with the text of the error), or a request. All but the
first name the service that sends them. -/
inductive Inbound where
  | unreadable (error : GoText)
  | invalid (name : GoText) (error : GoText)
  | malformed (name : GoText) (respType : ResponseType) (roomID : String) (error : GoText)
  | request (name : GoText) (r : ClientRequest)
  deriving DecidableEq, Repr

/-- What a message finds when it is handled. -/
structure Moment where
  /-- The server's clock, in Unix milliseconds. -/
  now : ℤ
  /-- `profanity.Contains` -/
  profane : GoText → Bool
  /-- The order in which the connections are searched, by name. -/
  search : Arrangement (ℕ × GoText)

/-- A moment at which nothing is profane, with the connections in the order in which they came. -/
def Moment.plain (now : ℤ) : Moment := ⟨now, fun _ => false, .inserted _⟩

/-- `time.Now().Unix()` -/
def Moment.unix (m : Moment) : ℤ := m.now / 1000

/-! ## Handlers -/

/-- What a handler returns: the type of the answer, the room it is about, and the data or an
error. -/
structure Handled where
  respType : ResponseType
  roomID : String
  result : Except GoText Data

/-- The error of the validator about a required field. -/
def requiredError (struct field : String) : String :=
  "Key: '" ++ struct ++ "." ++ field ++ "' Error:Field validation for '" ++ field ++
    "' failed on the 'required' tag"

/-- `validate`: the required fields of a request, each with whether it is there. -/
def validate (struct : String) (fields : List (String × Bool)) : Option GoText :=
  match fields.filter fun f => !f.2 with
  | [] => none
  | missing => some (utf8 (String.intercalate "\n" (missing.map fun f => requiredError struct f.1)))

/-- Validates a request before its handler goes on. -/
def checked (struct : String) (fields : List (String × Bool)) (respType : ResponseType)
    (roomID : String) (rooms : Rooms) (next : Rooms × Handled) : Rooms × Handled :=
  match validate struct fields with
  | some err => (rooms, ⟨respType, roomID, .error err⟩)
  | none => next

/-- The name that a service has to have to configure a room. -/
def centralServiceName : GoText := utf8 "central-service"

/-- `JoinRoomRequest.Handle` -/
def handleJoinRoom (service : GoText) (rooms : Rooms) (userHandle : GoText) (roomID : String)
    (userName : GoText) (suppressAnnouncement : Bool) (profanityFilter : Option Bool) :
    Rooms × Handled :=
  checked "JoinRoomRequest" [("UserHandle", userHandle ≠ []), ("RoomID", roomID ≠ "")] .userJoined
    roomID rooms <|
    let room := (rooms roomID).getD .empty
    let filter := match profanityFilter with
      | some enabled => if service = centralServiceName then enabled else room.profanityFilter
      | none => room.profanityFilter
    let rejoin := room.users.contains userHandle
    let name := if userName = [] then userHandle else userName
    (Function.update rooms roomID
      (some (room.onRoom fun r => { r with profanityFilter := filter }.addUser userHandle)),
      ⟨.userJoined, roomID, .ok (.text
        (if rejoin || suppressAnnouncement then [] else name ++ utf8 " joined the room"))⟩)

/-- `LeaveRoomRequest.Handle` -/
def handleLeaveRoom (rooms : Rooms) (userHandle : GoText) (roomID : String) (userName : GoText) :
    Rooms × Handled :=
  match rooms roomID with
  | none => (rooms, ⟨.userLeft, roomID, .error (utf8 "room doesn't exist")⟩)
  | some room =>
    if room.users.contains userHandle then
      let room := room.onRoom fun r => r.removeUser userHandle
      let leaverName := if userName = [] then utf8 "A user" else userName
      (Function.update rooms roomID (if room.users = [] then none else some room),
        ⟨.userLeft, roomID, .ok (.text (leaverName ++ utf8 " left the room"))⟩)
    else (rooms, ⟨.userLeft, roomID, .error (utf8 "user doesn't exist")⟩)

/-- `RoundStartRequest.Handle` -/
def handleRoundStart (m : Moment) (rooms : Rooms) (roomID : String) (problemList : List String)
    (startTime duration : ℤ) : Rooms × Handled :=
  checked "RoundStartRequest" [("RoomID", roomID ≠ "")] .roundStart roomID rooms
    (rooms.onRoom roomID fun room =>
        (room.onRoom fun r => r.startRound startTime duration problemList).addMessage
          (newOkResponse .systemAnnouncement (.text (utf8 "The round has started")) roomID),
      ⟨.roundStart, roomID, .ok (.roundStart ⟨startTime, m.unix, duration, problemList⟩)⟩)

/-- `RoundEndRequest.Handle` -/
def handleRoundEnd (rooms : Rooms) (roomID : String) : Rooms × Handled :=
  checked "RoundEndRequest" [("RoomID", roomID ≠ "")] .systemAnnouncement roomID rooms
    (rooms.onRoom roomID fun room => room.onRoom Room.endRound,
      ⟨.systemAnnouncement, roomID, .ok (.text (utf8 "Round has ended!"))⟩)

/-- `RoundInfo`, as `JoinRound` returns it to a user with the given names. -/
def roundInfo (m : Moment) (room : Option HistoryRoom) (userID userName : GoText) :
    JoinRoundBroadcast :=
  match room.bind fun r => r.round with
  | none => ⟨userID, userName, .notStarted, 0, m.unix, 0, []⟩
  | some round =>
    ⟨userID, userName, round.status, round.startTime, m.unix, round.duration, round.problems⟩

/-- `JoinRoundRequest.Handle` -/
def handleJoinRound (m : Moment) (rooms : Rooms) (roomID : String) (userID userName : GoText) :
    Rooms × Handled :=
  checked "JoinRoundRequest" [("RoomID", roomID ≠ ""), ("UserID", userID ≠ [])] .roundJoin roomID
    rooms
    (rooms.onRoom roomID fun room => room.onRoom fun r => r.joinRound userID,
      ⟨.roundJoin, roomID, .ok (.joinRound
        (roundInfo m (rooms roomID) userID (if userName = [] then userID else userName)))⟩)

/-- `NextProblemRequest.Handle` -/
def handleNextProblem (rooms : Rooms) (roomID problem : String) (userHandle : GoText) :
    Rooms × Handled :=
  checked "NextProblemRequest" [("RoomID", roomID ≠ ""), ("NextProblem", problem ≠ ""),
      ("UserHandle", userHandle ≠ [])] .nextProblem roomID rooms
    (rooms, ⟨.nextProblem, roomID, .ok (.nextProblem problem userHandle)⟩)

/-- `NewSubmissionRequest.Handle`: only an accepted submission is announced. -/
def handleNewSubmission (rooms : Rooms) (userHandle : GoText) (roomID problemID verdict : String) :
    Rooms × Handled :=
  checked "NewSubmissionRequest" [("UserHandle", userHandle ≠ []), ("RoomID", roomID ≠ ""),
      ("ProblemID", problemID ≠ ""), ("Verdict", verdict ≠ "")] .systemAnnouncement roomID rooms
    (rooms, ⟨.systemAnnouncement, roomID, .ok (.text
      (if verdict ≠ "Accepted" then []
      else userHandle ++ utf8 " solved " ++ utf8 (problemID.map fun c => if c = '-' then ' ' else c)))⟩)

/-- `AdminChangeRequest.Handle` -/
def handleAdminChange (rooms : Rooms) (roomID : String) (adminID adminName : GoText) :
    Rooms × Handled :=
  checked "AdminChangeRequest" [("RoomID", roomID ≠ ""), ("AdminID", adminID ≠ [])] .adminChange
    roomID rooms
    (rooms, ⟨.adminChange, roomID, .ok (.adminChange ⟨adminID, adminName,
      (if adminName = [] then utf8 "A user" else adminName) ++ utf8 " is the new room admin"⟩)⟩)

/-- `RoomExpiredRequest.Handle` -/
def handleRoomExpired (rooms : Rooms) (roomID : String) : Rooms × Handled :=
  checked "RoomExpiredRequest" [("RoomID", roomID ≠ "")] .roomExpired roomID rooms
    (rooms, ⟨.roomExpired, roomID, .ok (.text (utf8 "Room has expired and been deleted."))⟩)

/-- `ChatMessageRequest.Handle` -/
def handleChatMessage (m : Moment) (rooms : Rooms) (userHandle userName userPhoto : GoText)
    (roomID : String) (message : GoText) : Rooms × Handled :=
  checked "ChatMessageRequest" [("UserHandle", userHandle ≠ []), ("RoomID", roomID ≠ ""),
      ("Message", message ≠ [])] .chatMessage roomID rooms <|
    match rooms roomID with
    | none => (rooms, ⟨.chatMessage, "", .error (utf8 "room doesn't exist")⟩)
    | some room =>
      if room.users.contains userHandle then
        if room.profanityFilter && m.profane message then
          (rooms, ⟨.chatMessage, roomID,
            .error (utf8 "Message not sent: profanity filter enabled.")⟩)
        else (rooms, ⟨.chatMessage, roomID, .ok (.chat userHandle userName userPhoto message)⟩)
      else (rooms, ⟨.chatMessage, roomID, .error (utf8 "user doesn't exist in the room")⟩)

/-- `RequestTypes`: the handler of a request, run for the service that sent it. -/
def handleRequest (m : Moment) (service : GoText) (rooms : Rooms) :
    ClientRequest → Rooms × Handled
  | .of (.joinRoom userHandle roomID userName suppress filter) =>
    handleJoinRoom service rooms userHandle roomID userName suppress filter
  | .of (.leaveRoom userHandle roomID userName) => handleLeaveRoom rooms userHandle roomID userName
  | .of (.roundStart roomID problemList startTime duration) =>
    handleRoundStart m rooms roomID problemList startTime duration
  | .of (.roundEnd roomID) => handleRoundEnd rooms roomID
  | .of (.joinRound roomID userID userName) => handleJoinRound m rooms roomID userID userName
  | .of (.nextProblem roomID problem userHandle) => handleNextProblem rooms roomID problem userHandle
  | .of (.newSubmission userHandle roomID problemID verdict) =>
    handleNewSubmission rooms userHandle roomID problemID verdict
  | .of (.adminChange roomID adminID adminName) => handleAdminChange rooms roomID adminID adminName
  | .of (.roomExpired roomID) => handleRoomExpired rooms roomID
  | .chatMessage userHandle userName userPhoto roomID message =>
    handleChatMessage m rooms userHandle userName userPhoto roomID message

/-! ## Answers -/

/-- What a delivery is to its receiver: an old message of the room, the answer to what it asked for,
or what another connection caused. -/
inductive Delivery.Kind where
  | replay
  | answer
  | broadcast
  deriving DecidableEq, Repr

/-- A message sent on a connection. -/
structure Delivery where
  receiver : ℕ
  response : Response
  kind : Delivery.Kind
  deriving DecidableEq, Repr

/-- The state of rtc-service: its rooms and its connections, each under a name. -/
structure Server where
  rooms : Rooms
  services : List (ℕ × GoText)

/-- The types that are sent again to who joins a room. -/
def ResponseType.replayed (t : ResponseType) : Bool :=
  t = chatMessage || t = systemAnnouncement || t = roundJoin || t = userJoined || t = userLeft

/-- The types that go to everybody in a room. -/
def ResponseType.broadcasts (t : ResponseType) : Bool :=
  t = chatMessage || t = systemAnnouncement || t = roundStart || t = nextProblem ||
    t = roomExpired || t = adminChange || t = roundJoin || t = userJoined || t = userLeft

/-- The types that a room keeps, of those that go to everybody. -/
def ResponseType.kept (t : ResponseType) : Bool := t ≠ roundStart && t ≠ nextProblem

/-- An announcement without a text, which only the sender gets. -/
def silentAnnouncement (t : ResponseType) (data : Data) : Bool :=
  (t = .systemAnnouncement || t = .userJoined) && data = .text []

/-- What a room sends again to who joins it. -/
def HistoryRoom.replay (r : HistoryRoom) : List Response :=
  r.messages.filter fun prevMsg => prevMsg.respType.replayed

namespace Server

/-- `AddService`: a new connection, under a name of its own. -/
def connect (s : Server) (conn : ℕ) (name : GoText) : Server :=
  { s with services := (conn, name) :: s.services }

/-- `RemoveService` -/
def disconnect (s : Server) (conn : ℕ) : Server :=
  { s with services := s.services.filter fun c => c.1 ≠ conn }

/-- A connection takes the name that its message gives. -/
def rename (s : Server) (conn : ℕ) (name : GoText) : Server :=
  { s with services := s.services.map fun c => if c.1 = conn then (conn, name) else c }

/-- `FindService` -/
def findService (s : Server) (m : Moment) (name : GoText) : Option ℕ :=
  ((m.search.order s.services).find? fun c => c.2 = name).map Prod.fst

/-- Name of the front-end service. -/
def frontEndService : GoText := utf8 "front-end"

/-- A response for the room, sent to all users that are connected, and to the sender in any case. -/
def broadcast (s : Server) (m : Moment) (sender : ℕ) (users : List GoText) (resp : Response) :
    List Delivery :=
  let found := users.filterMap (s.findService m)
  found.map (fun c => ⟨c, resp, if c = sender then .answer else .broadcast⟩) ++
    if sender ∈ found then [] else [⟨sender, resp, .answer⟩]

/-- What is sent to everybody in its room is kept there, unless it is a control event. -/
def keep (s : Server) (roomID : String) (resp : Response) : Server :=
  if resp.respType.kept then { s with rooms := s.rooms.onRoom roomID fun r => r.addMessage resp }
  else s

/-- An expired room is removed. -/
def tearDown (s : Server) (respType : ResponseType) (roomID : String) : Server :=
  if respType = .roomExpired then { s with rooms := Function.update s.rooms roomID none } else s

/-- What a room that is joined sends again. -/
def replayTo (s : Server) (sender : ℕ) (type roomID : String) : List Delivery :=
  if type = "join-room" then
    match s.rooms roomID with
    | none => []
    | some room => room.replay.map fun prevMsg => ⟨sender, prevMsg, .replay⟩
  else []

/-- The room that an answer goes to, when it goes to more than its sender. -/
def audience (s : Server) (respType : ResponseType) (data : Data) (roomID : String) :
    Option HistoryRoom :=
  if !silentAnnouncement respType data && respType.broadcasts then s.rooms roomID else none

/-- Sends an answer, which is kept when a room is its audience. -/
def announce (s : Server) (m : Moment) (sender : ℕ) (respType : ResponseType) (data : Data)
    (roomID : String) : Server × List Delivery :=
  let resp := newOkResponse respType data roomID
  match s.audience respType data roomID with
  | some room => (s.keep roomID resp, s.broadcast m sender room.users resp)
  | none => (s, [⟨sender, resp, .answer⟩])

/-- Answers a handled request of the given type: replay, answer, removal of an expired room, and a
copy for the front-end service. -/
def respond (s : Server) (m : Moment) (sender : ℕ) (type : String) (h : Handled) :
    Server × List Delivery :=
  match h.result with
  | .error err => (s, [⟨sender, newErrorResponse h.respType err h.roomID, .answer⟩])
  | .ok data =>
    let replay := s.replayTo sender type h.roomID
    let (s, sent) := s.announce m sender h.respType data h.roomID
    let s := s.tearDown h.respType h.roomID
    let frontEnd := (s.findService m frontEndService).toList.map fun c =>
      ⟨c, newOkResponse h.respType data h.roomID, .broadcast⟩
    (s, replay ++ (sent ++ frontEnd))

/-- One round of `ReadMessages` on a connection. -/
def receive (s : Server) (m : Moment) (sender : ℕ) : Inbound → Server × List Delivery
  | .unreadable err => (s, [⟨sender, newErrorResponse .general err "", .answer⟩])
  | .invalid name err => (s.rename sender name, [⟨sender, newErrorResponse .general err "", .answer⟩])
  | .malformed name respType roomID err =>
    (s.rename sender name).respond m sender "" ⟨respType, roomID, .error err⟩
  | .request name r =>
    let s := s.rename sender name
    let (rooms, handled) := handleRequest m name s.rooms r
    { s with rooms := rooms }.respond m sender r.type handled

end Server

/-! ## Runs -/

/-- What can happen to rtc-service. -/
inductive ServerEvent where
  | connect (conn : ℕ) (name : GoText)
  | receive (m : Moment) (conn : ℕ) (msg : Inbound)
  | disconnect (conn : ℕ)

/-- The state in which rtc-service is set up. -/
def Server.start : Server := ⟨fun _ => none, []⟩

/-- The state after an event. -/
def Server.step (s : Server) : ServerEvent → Server
  | .connect conn name => s.connect conn name
  | .receive m conn msg => (s.receive m conn msg).1
  | .disconnect conn => s.disconnect conn

/-- The responses that a connection is sent. -/
def sentTo (conn : ℕ) (ds : List Delivery) : List Response :=
  (ds.filter fun d => d.receiver = conn).map Delivery.response

/-! ## What is sent -/

/-- The response that answers a handled request. -/
def Handled.answer (h : Handled) : Response :=
  match h.result with
  | .error err => newErrorResponse h.respType err h.roomID
  | .ok data => newOkResponse h.respType data h.roomID

/-- The answer to the sender has the type of the broadcast. -/
@[simp] theorem Handled.respType_answer (h : Handled) : h.answer.respType = h.respType := by
  obtain ⟨respType, roomID, result⟩ := h
  cases result <;> rfl

/-- The type that the answers to a request have. -/
def ClientRequest.respType : ClientRequest → ResponseType
  | of (.joinRoom ..) => .userJoined
  | of (.leaveRoom ..) => .userLeft
  | of (.roundStart ..) => .roundStart
  | of (.roundEnd ..) | of (.newSubmission ..) => .systemAnnouncement
  | of (.joinRound ..) => .roundJoin
  | of (.nextProblem ..) => .nextProblem
  | of (.adminChange ..) => .adminChange
  | of (.roomExpired ..) => .roomExpired
  | chatMessage .. => .chatMessage

/-- A request is answered with its type, also when it is refused. -/
theorem respType_checked {struct : String} {fields : List (String × Bool)} {t : ResponseType}
    {roomID : String} {rooms : Rooms} {next : Rooms × Handled} (h : next.2.respType = t) :
    (checked struct fields t roomID rooms next).2.respType = t := by
  unfold checked
  split
  · rfl
  · exact h

/-- A request is handled when it has all its required fields, and refused otherwise. -/
theorem checked_cases (struct : String) (fields : List (String × Bool)) (t : ResponseType)
    (roomID : String) (rooms : Rooms) (next : Rooms × Handled) :
    (∀ f ∈ fields, f.2 = true) ∧ checked struct fields t roomID rooms next = next ∨
      (¬ ∀ f ∈ fields, f.2 = true) ∧
        ∃ err, checked struct fields t roomID rooms next = (rooms, ⟨t, roomID, .error err⟩) := by
  unfold checked validate
  cases hfilter : fields.filter fun f => !f.2 with
  | nil =>
    refine Or.inl ⟨fun f hf => ?_, rfl⟩
    simpa using List.filter_eq_nil_iff.mp hfilter f hf
  | cons f fs =>
    refine Or.inr ⟨fun hall => ?_, _, rfl⟩
    have hf : f ∈ fields.filter fun f => !f.2 := by rw [hfilter]; exact List.mem_cons_self
    simp [hall f (List.mem_of_mem_filter hf)] at hf

/-- A handler answers with the type of its request, whether it fails or not. -/
theorem respType_handleRequest (m : Moment) (service : GoText) (rooms : Rooms)
    (r : ClientRequest) : (handleRequest m service rooms r).2.respType = r.respType := by
  cases r with
  | of r =>
    cases r with
    | leaveRoom userHandle roomID userName =>
      dsimp only [handleRequest, handleLeaveRoom]
      split
      · rfl
      · split <;> rfl
    | _ => exact respType_checked rfl
  | chatMessage userHandle userName userPhoto roomID message =>
    refine respType_checked ?_
    split
    · rfl
    · split
      · split <;> rfl
      · rfl

namespace Server

/-- What is sent to all, or to the sender: the one response. -/
theorem mem_broadcast {s : Server} {m : Moment} {sender : ℕ} {users : List GoText}
    {resp : Response} {d : Delivery} (h : d ∈ s.broadcast m sender users resp) :
    d.response = resp ∧ d.kind ≠ .replay ∧ (d.kind = .answer → d.receiver = sender) := by
  unfold broadcast at h
  rcases List.mem_append.mp h with h | h
  · obtain ⟨c, -, rfl⟩ := List.mem_map.mp h
    by_cases hc : c = sender <;> simp [hc]
  · split at h
    · cases h
    · rw [List.mem_singleton] at h
      subst h
      simp

/-- What is sent again comes from the history of the room that is joined. -/
theorem mem_replayTo {s : Server} {sender : ℕ} {type roomID : String} {d : Delivery}
    (h : d ∈ s.replayTo sender type roomID) :
    d.kind = .replay ∧ d.receiver = sender ∧ type = "join-room" ∧
      ∃ room, s.rooms roomID = some room ∧ d.response ∈ room.replay := by
  unfold replayTo at h
  split at h
  · rename_i htype
    split at h
    · cases h
    · rename_i room hroom
      obtain ⟨prevMsg, hmem, rfl⟩ := List.mem_map.mp h
      exact ⟨rfl, rfl, htype, room, hroom, hmem⟩
  · cases h

/-- An answer goes to its audience, or to the sender. -/
theorem mem_announce {s : Server} {m : Moment} {sender : ℕ} {t : ResponseType} {data : Data}
    {roomID : String} {d : Delivery} (h : d ∈ (s.announce m sender t data roomID).2) :
    d.response = newOkResponse t data roomID ∧ d.kind ≠ .replay ∧
      (d.kind = .answer → d.receiver = sender) := by
  unfold announce at h
  cases haudience : s.audience t data roomID with
  | none =>
    simp only [haudience, List.mem_singleton] at h
    subst h
    simp
  | some room =>
    simp only [haudience] at h
    exact mem_broadcast h

/-- The deliveries that answer a request: first the replay, then the answer to whom it goes. -/
theorem respond_deliveries (s : Server) (m : Moment) (sender : ℕ) (type : String) (h : Handled) :
    ∃ rest, (s.respond m sender type h).2 =
        (if h.result.isOk then s.replayTo sender type h.roomID else []) ++ rest ∧
      ∀ d ∈ rest, d.response = h.answer ∧ d.kind ≠ .replay ∧
        (d.kind = .answer → d.receiver = sender) := by
  obtain ⟨respType, roomID, result⟩ := h
  cases result with
  | error err =>
    refine ⟨[⟨sender, newErrorResponse respType err roomID, .answer⟩], rfl, fun d hd => ?_⟩
    rw [List.mem_singleton] at hd
    subst hd
    simp [Handled.answer]
  | ok data =>
    refine ⟨_, rfl, fun d hd => ?_⟩
    rcases List.mem_append.mp hd with hd | hd
    · exact mem_announce hd
    · obtain ⟨c, -, rfl⟩ := List.mem_map.mp hd
      simp [Handled.answer]

end Server

namespace Server

/-- A request renames its connection, is handled, and is answered. -/
theorem receive_request (s : Server) (m : Moment) (sender : ℕ) (name : GoText)
    (r : ClientRequest) : s.receive m sender (.request name r) =
      ({ s.rename sender name with rooms := (handleRequest m name s.rooms r).1 } : Server).respond m
        sender r.type (handleRequest m name s.rooms r).2 := rfl

/-- A request is handled, and then answered. -/
theorem receive_of_handled {s : Server} {m : Moment} {name : GoText} {r : ClientRequest}
    {rooms : Rooms} {h : Handled} (hhandled : handleRequest m name s.rooms r = (rooms, h))
    (sender : ℕ) : ∃ s' : Server, s'.rooms = rooms ∧
      s.receive m sender (.request name r) = s'.respond m sender r.type h := by
  refine ⟨{ s.rename sender name with rooms := rooms }, rfl, ?_⟩
  rw [receive_request, hhandled]

/-- A join with its required fields is answered, without a text if it is silent, and leaves the
history as it is. -/
theorem handleJoinRoom_of_complete (service : GoText) (rooms : Rooms) {roomID : String}
    (hid : roomID ≠ "") {userHandle : GoText} (hhandle : userHandle ≠ []) (userName : GoText)
    (suppress : Bool) (filter : Option Bool) :
    ∃ room text, handleJoinRoom service rooms userHandle roomID userName suppress filter =
        (Function.update rooms roomID (some room), ⟨.userJoined, roomID, .ok (.text text)⟩) ∧
      room.messages = ((rooms roomID).getD .empty).messages ∧
      ((((rooms roomID).getD .empty).users.contains userHandle || suppress) = true → text = []) := by
  rcases checked_cases "JoinRoomRequest" [("UserHandle", userHandle ≠ []), ("RoomID", roomID ≠ "")]
    .userJoined roomID rooms _ with ⟨-, hnext⟩ | ⟨hmissing, -⟩
  · exact ⟨_, _, hnext, rfl, fun hsilent => if_pos hsilent⟩
  · simp [hid, hhandle] at hmissing

/-- Who joins a room is sent what it keeps, and then the answer. -/
theorem sentTo_joinRoom (s : Server) (m : Moment) (conn : ℕ) (name : GoText) {roomID : String}
    {room : HistoryRoom} (hroom : s.rooms roomID = some room) (hid : roomID ≠ "")
    {userHandle : GoText} (hhandle : userHandle ≠ []) (userName : GoText) (suppress : Bool)
    (filter : Option Bool) :
    ∃ rest, sentTo conn (s.receive m conn
        (.request name (.of (.joinRoom userHandle roomID userName suppress filter)))).2 =
          room.replay ++ rest ∧
      ∀ resp ∈ rest, resp.respType = .userJoined := by
  obtain ⟨joined, text, hhandled, hmessages, -⟩ :=
    handleJoinRoom_of_complete name s.rooms hid hhandle userName suppress filter
  obtain ⟨s', hrooms, hreceive⟩ := receive_of_handled
    (r := .of (.joinRoom userHandle roomID userName suppress filter)) (m := m) hhandled conn
  obtain ⟨rest, hrespond, hrest⟩ := s'.respond_deliveries m conn "join-room"
    ⟨.userJoined, roomID, .ok (.text text)⟩
  rw [hreceive]
  refine ⟨sentTo conn rest, ?_, fun resp hresp => ?_⟩
  · -- The join leaves the history as it was.
    have hreplay : joined.replay = room.replay := by
      unfold HistoryRoom.replay
      rw [hmessages, hroom, Option.getD_some]
    show sentTo conn (s'.respond m conn "join-room" _).2 = _
    rw [hrespond]
    simp [sentTo, replayTo, Except.isOk, Except.toBool, hrooms, hreplay, List.filter_map,
      Function.comp_def]
  · obtain ⟨d, hd, rfl⟩ := List.mem_map.mp hresp
    rw [(hrest d (List.mem_filter.mp hd).1).1, Handled.respType_answer]

/-- An answer that goes to a room is added to its history. -/
theorem rooms_respond {s : Server} {t : ResponseType} {data : Data} {roomID : String}
    {room : HistoryRoom} (haudience : s.audience t data roomID = some room)
    (hroom : s.rooms roomID = some room) (hkept : t.kept = true) (hlive : t ≠ .roomExpired)
    (m : Moment) (sender : ℕ) (type : String) :
    (s.respond m sender type ⟨t, roomID, .ok data⟩).1.rooms roomID =
      some (room.addMessage (newOkResponse t data roomID)) := by
  have hannounce : (s.announce m sender t data roomID).1 =
      s.keep roomID (newOkResponse t data roomID) := by
    unfold announce
    rw [haudience]
  have hkeep : s.keep roomID (newOkResponse t data roomID) =
      { s with rooms := s.rooms.onRoom roomID fun r => r.addMessage (newOkResponse t data roomID) } :=
    if_pos hkept
  show ((s.announce m sender t data roomID).1.tearDown t roomID).rooms roomID = _
  rw [hannounce, hkeep, tearDown, if_neg hlive]
  refine (s.rooms.onRoom_self roomID _).trans ?_
  rw [hroom, Option.map_some]

end Server

/-! ## The rooms of central-service -/

/-- The rooms without their histories. -/
def Rooms.chatManager (rooms : Rooms) : ChatManager := fun id =>
  (rooms id).map HistoryRoom.toRoom

/-- Replacing a room with its history replaces the room behind it. -/
theorem Rooms.chatManager_update (rooms : Rooms) (roomID : String) (room : Option HistoryRoom) :
    chatManager (Function.update rooms roomID room) =
      Function.update rooms.chatManager roomID (room.map HistoryRoom.toRoom) := by
  funext id
  by_cases h : id = roomID
  · subst h
    simp [chatManager]
  · simp [chatManager, h]

/-- What is done to a room is done to it without its history. -/
theorem Rooms.chatManager_onRoom (rooms : Rooms) (roomID : String)
    {f : HistoryRoom → HistoryRoom} {g : Room → Room} (h : ∀ r, (f r).toRoom = g r.toRoom) :
    (rooms.onRoom roomID f).chatManager = rooms.chatManager.onRoom roomID g := by
  unfold onRoom ChatManager.onRoom
  cases hroom : rooms roomID with
  | none => simp [chatManager, hroom]
  | some r => simp only [chatManager_update, Option.map_some, h, chatManager, hroom]

namespace Server

/-- Keeping a message in a history changes nothing else. -/
theorem chatManager_keep (s : Server) (roomID : String) (resp : Response) :
    (s.keep roomID resp).rooms.chatManager = s.rooms.chatManager := by
  have hsame : ∀ r : HistoryRoom, (r.addMessage resp).toRoom = id r.toRoom := fun _ => rfl
  unfold keep
  split
  · refine (s.rooms.chatManager_onRoom roomID hsame).trans ?_
    unfold ChatManager.onRoom
    cases h : s.rooms.chatManager roomID with
    | none => rfl
    | some r => exact Function.update_eq_self_iff.mpr h.symm
  · rfl

/-- An answer changes the rooms only when it says that the room has expired. -/
theorem chatManager_respond (s : Server) (m : Moment) (sender : ℕ) (type : String) (h : Handled) :
    (s.respond m sender type h).1.rooms.chatManager =
      if h.result.isOk ∧ h.respType = .roomExpired then
        Function.update s.rooms.chatManager h.roomID none
      else s.rooms.chatManager := by
  obtain ⟨respType, roomID, result⟩ := h
  cases result with
  | error err => simp [respond, Except.isOk, Except.toBool]
  | ok data =>
    have hannounce : (s.announce m sender respType data roomID).1.rooms.chatManager =
        s.rooms.chatManager := by
      unfold announce
      cases s.audience respType data roomID with
      | none => rfl
      | some room => exact s.chatManager_keep roomID _
    by_cases hexpired : respType = .roomExpired
    · simp only [respond, tearDown, hexpired, if_true, Except.isOk, Except.toBool, and_self,
        Rooms.chatManager_update, Option.map_none]
      rw [← hexpired, hannounce]
    · simp only [respond, tearDown, hexpired, if_false, and_false]
      exact hannounce

/-- The rooms after a handled request, when an expired room is removed. -/
def settled (out : Rooms × Handled) : ChatManager :=
  if out.2.result.isOk ∧ out.2.respType = .roomExpired then
    Function.update out.1.chatManager out.2.roomID none
  else out.1.chatManager

/-- Only an expiry removes a room. -/
theorem settled_of_ne {out : Rooms × Handled} (h : out.2.respType ≠ .roomExpired) :
    settled out = out.1.chatManager := if_neg fun hexpired => h hexpired.2

/-- A request with a missing field settles nothing. -/
theorem settled_checked (struct : String) (fields : List (String × Bool)) (t : ResponseType)
    (roomID : String) (rooms : Rooms) (next : Rooms × Handled) :
    settled (checked struct fields t roomID rooms next) =
      if ∀ f ∈ fields, f.2 = true then settled next else rooms.chatManager := by
  rcases checked_cases struct fields t roomID rooms next with ⟨h, hnext⟩ | ⟨h, err, herr⟩
  · rw [hnext, if_pos h]
  · rw [herr, if_neg h]
    simp [settled, Except.isOk, Except.toBool]

/-- The rooms after a request of central-service are those of `handle`. -/
theorem receive_chatManager (s : Server) (m : Moment) (sender : ℕ) (r : Request) :
    (s.receive m sender (.request centralServiceName (.of r))).1.rooms.chatManager =
      handle s.rooms.chatManager r := by
  rw [receive_request, chatManager_respond]
  show settled (handleRequest m centralServiceName s.rooms (.of r)) = _
  cases r with
  | joinRoom userHandle roomID userName suppress filter =>
    -- Both refuse the same requests, and do the same to the room of the others.
    refine (settled_checked _ _ _ _ _ _).trans ?_
    by_cases h : userHandle = [] ∨ roomID = ""
    · rw [if_neg (by rcases h with h | h <;> simp [h])]
      exact (if_pos h).symm
    · have hboth : userHandle ≠ [] ∧ roomID ≠ "" := not_or.mp h
      rw [if_pos (by simp [hboth])]
      refine Eq.trans ?_ (if_neg h).symm
      rw [settled_of_ne (by simp)]
      simp only [Rooms.chatManager_update, Option.map_some, HistoryRoom.toRoom_onRoom]
      cases hroom : s.rooms roomID <;> cases filter <;>
        simp [Rooms.chatManager, hroom, HistoryRoom.empty]
  | leaveRoom userHandle roomID userName =>
    dsimp only [handleRequest, handleLeaveRoom, handle]
    cases hroom : s.rooms roomID with
    | none => simp [settled, Rooms.chatManager, hroom]
    | some room =>
      by_cases huser : userHandle ∈ room.users
      · have hold : s.rooms.chatManager roomID = some room.toRoom := by
          simp [Rooms.chatManager, hroom]
        dsimp only
        rw [hold, if_pos (List.contains_iff_mem.mpr huser), settled_of_ne (by simp)]
        dsimp only
        rw [if_pos huser, Rooms.chatManager_update, HistoryRoom.toRoom_onRoom]
        split <;> rfl
      · simp [settled, Rooms.chatManager, hroom, huser]
  | roundStart roomID problemList startTime duration =>
    refine (settled_checked _ _ _ _ _ _).trans ?_
    by_cases h : roomID = ""
    · simp [handle, h]
    · rw [if_pos (by simp [h]), settled_of_ne (by simp)]
      refine Eq.trans ?_ (if_neg h).symm
      exact s.rooms.chatManager_onRoom roomID fun r => rfl
  | roundEnd roomID =>
    refine (settled_checked _ _ _ _ _ _).trans ?_
    by_cases h : roomID = ""
    · simp [handle, h]
    · rw [if_pos (by simp [h]), settled_of_ne (by simp)]
      refine Eq.trans ?_ (if_neg h).symm
      exact s.rooms.chatManager_onRoom roomID fun r => rfl
  | joinRound roomID userID userName =>
    refine (settled_checked _ _ _ _ _ _).trans ?_
    by_cases h : roomID = "" ∨ userID = []
    · rw [if_neg (by rcases h with h | h <;> simp [h])]
      exact (if_pos h).symm
    · have hboth : roomID ≠ "" ∧ userID ≠ [] := not_or.mp h
      rw [if_pos (by simp [hboth]), settled_of_ne (by simp)]
      refine Eq.trans ?_ (if_neg h).symm
      exact s.rooms.chatManager_onRoom roomID fun r => rfl
  | nextProblem roomID problem userHandle =>
    refine (settled_checked _ _ _ _ _ _).trans ?_
    simp [settled, handle]
  | newSubmission userHandle roomID problemID verdict =>
    refine (settled_checked _ _ _ _ _ _).trans ?_
    simp [settled, handle]
  | adminChange roomID adminID adminName =>
    refine (settled_checked _ _ _ _ _ _).trans ?_
    simp [settled, handle]
  | roomExpired roomID =>
    refine (settled_checked _ _ _ _ _ _).trans ?_
    by_cases h : roomID = "" <;> simp [settled, handle, h, Except.isOk, Except.toBool]

end Server

/-! ## Requests under any name -/

/-- What a request of a service asks for: only central-service configures a room. -/
def Request.sentBy (service : GoText) : Request → Request
  | .joinRoom userHandle roomID userName suppress filter =>
    .joinRoom userHandle roomID userName suppress
      (if service = centralServiceName then filter else none)
  | r => r

/-- The request of central-service that does to the rooms what the message does, if any does. -/
def Inbound.request? : Inbound → Option Request
  | .request name (.of r) => some (r.sentBy name)
  | _ => none

/-- A request is handled as central-service's own would be, without what only that may set. -/
theorem handleRequest_sentBy (m : Moment) (service : GoText) (rooms : Rooms) (r : Request) :
    handleRequest m service rooms (.of r) =
      handleRequest m centralServiceName rooms (.of (r.sentBy service)) := by
  cases r with
  | joinRoom userHandle roomID userName suppress filter =>
    dsimp only [Request.sentBy, handleRequest, handleJoinRoom]
    by_cases h : service = centralServiceName
    · rw [h, if_pos rfl]
    · rw [if_neg h]
      cases filter with
      | none => rfl
      | some enabled =>
        dsimp only
        rw [if_neg h]
  | _ => rfl

namespace Server

/-- A chat message changes no room. -/
theorem rooms_handleChatMessage (m : Moment) (rooms : Rooms)
    (userHandle userName userPhoto : GoText) (roomID : String) (message : GoText) :
    (handleChatMessage m rooms userHandle userName userPhoto roomID message).1 = rooms := by
  unfold handleChatMessage
  rcases checked_cases "ChatMessageRequest" [("UserHandle", userHandle ≠ []), ("RoomID", roomID ≠ ""),
      ("Message", message ≠ [])] .chatMessage roomID rooms _ with ⟨-, hnext⟩ | ⟨-, err, herr⟩
  · rw [hnext]
    split
    · rfl
    · split_ifs <;> rfl
  · rw [herr]

/-- What a message does to the rooms, whoever sends it. -/
theorem chatManager_receive (s : Server) (m : Moment) (sender : ℕ) (msg : Inbound) :
    (s.receive m sender msg).1.rooms.chatManager =
      handleAll s.rooms.chatManager msg.request?.toList := by
  cases msg with
  | unreadable err => rfl
  | invalid name err => rfl
  | malformed name respType roomID err => rfl
  | request name r =>
    cases r with
    | of r =>
      refine Eq.trans ?_ (s.receive_chatManager m sender (r.sentBy name))
      rw [receive_request, receive_request, chatManager_respond, chatManager_respond,
        handleRequest_sentBy]
    | chatMessage userHandle userName userPhoto roomID message =>
      rw [receive_request, chatManager_respond, if_neg]
      · exact congrArg Rooms.chatManager
          (rooms_handleChatMessage m s.rooms userHandle userName userPhoto roomID message)
      · rw [respType_handleRequest]
        exact fun h => by cases h.2

end Server

/-- The request of central-service that does to the rooms what the event does, if any does. -/
def ServerEvent.request? : ServerEvent → Option Request
  | .receive _ _ msg => msg.request?
  | _ => none

/-- What an event does to the rooms. -/
theorem Server.chatManager_step (s : Server) (e : ServerEvent) :
    (s.step e).rooms.chatManager = handleAll s.rooms.chatManager e.request?.toList := by
  cases e with
  | connect conn name => rfl
  | receive m conn msg => exact s.chatManager_receive m conn msg
  | disconnect conn => rfl

/-! ## What a request does to the rooms -/

/-- The rooms before and after a request, by the kind of request. A request that is refused, and any
other one, does nothing. -/
inductive Does (rooms : Rooms) : ClientRequest → Rooms → Prop where
  | nothing (r : ClientRequest) : Does rooms r rooms
  | join (userHandle : GoText) (id : String) (userName : GoText) (suppress : Bool)
      (filter : Option Bool) (enabled : Bool) (hhandle : userHandle ≠ []) :
      Does rooms (.of (.joinRoom userHandle id userName suppress filter))
        (Function.update rooms id (some (((rooms id).getD .empty).onRoom fun x =>
          { x with profanityFilter := enabled }.addUser userHandle)))
  | leave (userHandle : GoText) (id : String) (userName : GoText) (room : HistoryRoom)
      (hroom : rooms id = some room) (huser : userHandle ∈ room.users) :
      Does rooms (.of (.leaveRoom userHandle id userName))
        (Function.update rooms id
          (if (room.onRoom fun x => x.removeUser userHandle).users = [] then none
          else some (room.onRoom fun x => x.removeUser userHandle)))
  | roundStart (id : String) (problemList : List String) (startTime duration : ℤ) (hid : id ≠ "") :
      Does rooms (.of (.roundStart id problemList startTime duration))
        (rooms.onRoom id fun room =>
          (room.onRoom fun x => x.startRound startTime duration problemList).addMessage
            (newOkResponse .systemAnnouncement (.text (utf8 "The round has started")) id))
  | roundEnd (id : String) : Does rooms (.of (.roundEnd id))
      (rooms.onRoom id fun room => room.onRoom Room.endRound)
  | joinRound (id : String) (userID userName : GoText) (huser : userID ≠ []) :
      Does rooms (.of (.joinRound id userID userName))
        (rooms.onRoom id fun room => room.onRoom fun x => x.joinRound userID)

/-- A request with a missing field does nothing. -/
theorem does_checked {rooms : Rooms} {r : ClientRequest} {struct : String}
    {fields : List (String × Bool)} {t : ResponseType} {roomID : String} {next : Rooms × Handled}
    (h : (∀ f ∈ fields, f.2 = true) → Does rooms r next.1) :
    Does rooms r (checked struct fields t roomID rooms next).1 := by
  rcases checked_cases struct fields t roomID rooms next with ⟨hall, hnext⟩ | ⟨-, err, herr⟩
  · rw [hnext]
    exact h hall
  · rw [herr]
    exact .nothing r

/-- What the handler of a request does to the rooms. -/
theorem does_handleRequest (m : Moment) (name : GoText) (rooms : Rooms) (r : ClientRequest) :
    Does rooms r (handleRequest m name rooms r).1 := by
  cases r with
  | chatMessage userHandle userName userPhoto id message =>
    dsimp only [handleRequest]
    -- The handler leaves the rooms as they are; the message is stored when it is answered.
    rw [Server.rooms_handleChatMessage]
    exact .nothing _
  | of r =>
    cases r with
    | joinRoom userHandle id userName suppress filter =>
      exact does_checked fun hall => .join userHandle id userName suppress filter _ <| by
        simpa using hall ("UserHandle", userHandle ≠ []) List.mem_cons_self
    | leaveRoom userHandle id userName =>
      dsimp only [handleRequest, handleLeaveRoom]
      cases hroom : rooms id with
      | none => exact .nothing _
      | some room =>
        dsimp only
        by_cases huser : room.users.contains userHandle = true
        · rw [if_pos huser]
          exact .leave userHandle id userName room hroom (List.contains_iff_mem.mp huser)
        · rw [if_neg huser]
          exact .nothing _
    | roundStart id problemList startTime duration =>
      exact does_checked fun hall => .roundStart id problemList startTime duration <| by
        simpa using hall ("RoomID", id ≠ "") List.mem_cons_self
    | roundEnd id => exact does_checked fun _ => .roundEnd id
    | joinRound id userID userName =>
      exact does_checked fun hall => .joinRound id userID userName <| by
        simpa using hall ("UserID", userID ≠ []) (List.mem_cons_of_mem _ List.mem_cons_self)
    | nextProblem id problem userHandle => exact does_checked fun _ => .nothing _
    | newSubmission userHandle id problemID verdict => exact does_checked fun _ => .nothing _
    | adminChange id adminID adminName => exact does_checked fun _ => .nothing _
    | roomExpired id => exact does_checked fun _ => .nothing _

end Bsg.Rtc
