import Bsg.Foundations.JsonCodec
import Bsg.Rtc.Service

/-!
# Messages on the wire

A message to rtc-service is a JSON object with a name, a type and the data, and the data is again a
text that holds a JSON object: the request. `ReadMessages` reads the one, finds the type among the
registered ones, and its handler reads the other. `readMessage` is what then arrives, and
central-service writes its requests so that they arrive as they are (`readMessage_frame`).
-/

namespace Bsg.Rtc

open Bsg.Foundations Json

/-! ## Records -/

/-- `Message` -/
structure Message where
  serviceName : GoText
  type : GoText
  data : GoText

def Message.layout : Layout Message where
  members := [
    Codec.bytes.member "name" serviceName fun v m => { m with serviceName := v },
    Codec.bytes.member "request-type" type fun v m => { m with type := v },
    Codec.bytes.member "data" data fun v m => { m with data := v }]
  keys := by decide
  nesting := by decide

/-- `JoinRoomRequest` -/
structure JoinRoomRequest where
  userHandle : GoText
  roomID : String
  userName : GoText
  suppressAnnouncement : Bool
  profanityFilter : Option Bool

def JoinRoomRequest.layout : Layout JoinRoomRequest where
  members := [
    Codec.bytes.member "userHandle" userHandle fun v r => { r with userHandle := v },
    Codec.string.member "roomID" roomID fun v r => { r with roomID := v },
    Codec.bytes.member "userName" userName fun v r => { r with userName := v },
    Codec.bool.member "suppressAnnouncement" suppressAnnouncement fun v r =>
      { r with suppressAnnouncement := v },
    Codec.optionalBool.member "profanityFilter" profanityFilter fun v r =>
      { r with profanityFilter := v }]
  keys := by decide
  nesting := by decide

/-- Every request to join a room has a layout. -/
theorem JoinRoomRequest.fits (r : JoinRoomRequest) : layout.Fits r :=
  ⟨trivial, trivial, trivial, trivial, trivial⟩

/-- A filter that is not set is not written, and is not set when it is read. -/
theorem JoinRoomRequest.restored (r : JoinRoomRequest) :
    layout.restored ⟨[], "", [], false, none⟩ r = { r with
      userHandle := r.userHandle.wellFormed
      userName := r.userName.wellFormed } := by
  obtain ⟨userHandle, roomID, userName, suppress, _ | filter⟩ := r
  · rfl
  · rfl

/-- `LeaveRoomRequest` -/
structure LeaveRoomRequest where
  userHandle : GoText
  roomID : String
  userName : GoText

def LeaveRoomRequest.layout : Layout LeaveRoomRequest where
  members := [
    Codec.bytes.member "userHandle" userHandle fun v r => { r with userHandle := v },
    Codec.string.member "roomID" roomID fun v r => { r with roomID := v },
    Codec.bytes.member "userName" userName fun v r => { r with userName := v }]
  keys := by decide
  nesting := by decide

/-- So does every request to leave one. -/
theorem LeaveRoomRequest.fits (r : LeaveRoomRequest) : layout.Fits r :=
  ⟨trivial, trivial, trivial⟩

/-- The fields of a request to leave are read back, the handle as UTF-8. -/
theorem LeaveRoomRequest.restored (r : LeaveRoomRequest) : layout.restored ⟨[], "", []⟩ r =
    { r with userHandle := r.userHandle.wellFormed, userName := r.userName.wellFormed } := rfl

/-- `RoundStartRequest` -/
structure RoundStartRequest where
  roomID : String
  problemList : Option (List String)
  startTime : ℤ
  duration : ℤ

def RoundStartRequest.layout : Layout RoundStartRequest where
  members := [
    Codec.string.member "roomID" roomID fun v r => { r with roomID := v },
    Codec.strings.member "problemList" problemList fun v r => { r with problemList := v },
    Codec.int64.member "startTime" startTime fun v r => { r with startTime := v },
    Codec.int64.member "duration" duration fun v r => { r with duration := v }]
  keys := by decide
  nesting := by decide

/-- A start of a round has a layout when its numbers are of 64 bits. -/
theorem RoundStartRequest.fits {r : RoundStartRequest}
    (hstart : -2^63 ≤ r.startTime ∧ r.startTime < 2^63)
    (hduration : -2^63 ≤ r.duration ∧ r.duration < 2^63) : layout.Fits r :=
  ⟨trivial, trivial, hstart, hduration⟩

/-- A start of a round is read back as it was. -/
theorem RoundStartRequest.restored (r : RoundStartRequest) : layout.restored ⟨"", none, 0, 0⟩ r = r := rfl

/-- `RoundEndRequest` and `RoomExpiredRequest`, which name a room and nothing else. -/
structure RoomOnlyRequest where
  roomID : String

def RoomOnlyRequest.layout : Layout RoomOnlyRequest where
  members := [
    Codec.string.member "roomID" roomID fun v r => { r with roomID := v }]
  keys := by decide
  nesting := by decide

/-- Every request with a room alone has a layout. -/
theorem RoomOnlyRequest.fits (r : RoomOnlyRequest) : layout.Fits r :=
  trivial

/-- It is read back as it was. -/
theorem RoomOnlyRequest.restored (r : RoomOnlyRequest) : layout.restored ⟨""⟩ r = r := rfl

/-- `JoinRoundRequest` -/
structure JoinRoundRequest where
  roomID : String
  userID : GoText
  userName : GoText

def JoinRoundRequest.layout : Layout JoinRoundRequest where
  members := [
    Codec.string.member "roomID" roomID fun v r => { r with roomID := v },
    Codec.bytes.member "userID" userID fun v r => { r with userID := v },
    Codec.bytes.member "userName" userName fun v r => { r with userName := v }]
  keys := by decide
  nesting := by decide

/-- Every request to join a round has a layout. -/
theorem JoinRoundRequest.fits (r : JoinRoundRequest) : layout.Fits r :=
  ⟨trivial, trivial, trivial⟩

/-- It is read back, the user as UTF-8. -/
theorem JoinRoundRequest.restored (r : JoinRoundRequest) : layout.restored ⟨"", [], []⟩ r =
    { r with userID := r.userID.wellFormed, userName := r.userName.wellFormed } := rfl

/-- `NextProblemRequest` -/
structure NextProblemRequest where
  roomID : String
  nextProblem : String
  userHandle : GoText

def NextProblemRequest.layout : Layout NextProblemRequest where
  members := [
    Codec.string.member "roomID" roomID fun v r => { r with roomID := v },
    Codec.string.member "nextProblem" nextProblem fun v r => { r with nextProblem := v },
    Codec.bytes.member "userHandle" userHandle fun v r => { r with userHandle := v }]
  keys := by decide
  nesting := by decide

/-- Every request for the next problem has a layout. -/
theorem NextProblemRequest.fits (r : NextProblemRequest) : layout.Fits r :=
  ⟨trivial, trivial, trivial⟩

/-- It is read back, the handle as UTF-8. -/
theorem NextProblemRequest.restored (r : NextProblemRequest) : layout.restored ⟨"", "", []⟩ r =
    { r with userHandle := r.userHandle.wellFormed } := rfl

/-- `NewSubmissionRequest` -/
structure NewSubmissionRequest where
  userHandle : GoText
  roomID : String
  problemID : String
  verdict : String

def NewSubmissionRequest.layout : Layout NewSubmissionRequest where
  members := [
    Codec.bytes.member "userHandle" userHandle fun v r => { r with userHandle := v },
    Codec.string.member "roomID" roomID fun v r => { r with roomID := v },
    Codec.string.member "problemID" problemID fun v r => { r with problemID := v },
    Codec.string.member "verdict" verdict fun v r => { r with verdict := v }]
  keys := by decide
  nesting := by decide

/-- Every announcement of a submission has a layout. -/
theorem NewSubmissionRequest.fits (r : NewSubmissionRequest) : layout.Fits r :=
  ⟨trivial, trivial, trivial, trivial⟩

/-- It is read back, the handle as UTF-8. -/
theorem NewSubmissionRequest.restored (r : NewSubmissionRequest) : layout.restored ⟨[], "", "", ""⟩ r =
    { r with userHandle := r.userHandle.wellFormed } := rfl

/-- `AdminChangeRequest` -/
structure AdminChangeRequest where
  roomID : String
  adminID : GoText
  adminName : GoText

def AdminChangeRequest.layout : Layout AdminChangeRequest where
  members := [
    Codec.string.member "roomID" roomID fun v r => { r with roomID := v },
    Codec.bytes.member "adminId" adminID fun v r => { r with adminID := v },
    Codec.bytes.member "adminName" adminName fun v r => { r with adminName := v }]
  keys := by decide
  nesting := by decide

/-- Every change of the admin has a layout. -/
theorem AdminChangeRequest.fits (r : AdminChangeRequest) : layout.Fits r :=
  ⟨trivial, trivial, trivial⟩

/-- It is read back, the admin as UTF-8. -/
theorem AdminChangeRequest.restored (r : AdminChangeRequest) : layout.restored ⟨"", [], []⟩ r =
    { r with adminID := r.adminID.wellFormed, adminName := r.adminName.wellFormed } := rfl

/-- `ChatMessageRequest` -/
structure ChatMessageRequest where
  userHandle : GoText
  userName : GoText
  userPhoto : GoText
  roomID : String
  message : GoText

def ChatMessageRequest.layout : Layout ChatMessageRequest where
  members := [
    Codec.bytes.member "userHandle" userHandle fun v r => { r with userHandle := v },
    Codec.bytes.member "userName" userName fun v r => { r with userName := v },
    Codec.bytes.member "userPhoto" userPhoto fun v r => { r with userPhoto := v },
    Codec.string.member "roomID" roomID fun v r => { r with roomID := v },
    Codec.bytes.member "message" message fun v r => { r with message := v }]
  keys := by decide
  nesting := by decide

/-! ## Writing -/

/-- The data of a request: `json.Marshal` of its record. -/
def ClientRequest.data : ClientRequest → GoText
  | of (.joinRoom userHandle roomID userName suppress filter) =>
    JoinRoomRequest.layout.marshal ⟨userHandle, roomID, userName, suppress, filter⟩
  | of (.leaveRoom userHandle roomID userName) =>
    LeaveRoomRequest.layout.marshal ⟨userHandle, roomID, userName⟩
  | of (.roundStart roomID problemList startTime duration) =>
    RoundStartRequest.layout.marshal ⟨roomID, some problemList, startTime, duration⟩
  | of (.roundEnd roomID) | of (.roomExpired roomID) => RoomOnlyRequest.layout.marshal ⟨roomID⟩
  | of (.joinRound roomID userID userName) =>
    JoinRoundRequest.layout.marshal ⟨roomID, userID, userName⟩
  | of (.nextProblem roomID problem userHandle) =>
    NextProblemRequest.layout.marshal ⟨roomID, problem, userHandle⟩
  | of (.newSubmission userHandle roomID problemID verdict) =>
    NewSubmissionRequest.layout.marshal ⟨userHandle, roomID, problemID, verdict⟩
  | of (.adminChange roomID adminID adminName) =>
    AdminChangeRequest.layout.marshal ⟨roomID, adminID, adminName⟩
  | chatMessage userHandle userName userPhoto roomID message =>
    ChatMessageRequest.layout.marshal ⟨userHandle, userName, userPhoto, roomID, message⟩

/-- What `SendMessage` writes for a request. -/
def frame (name : GoText) (r : ClientRequest) : GoText :=
  Message.layout.marshal ⟨name, utf8 r.type, r.data⟩

/-! ## Reading -/

section Read

-- What `encoding/json` says about a text that it cannot read into a record of a type.
variable (jsonError : String → GoText → GoText)

/-- Reads the data of a request into its record. -/
def readRequest {α : Type} (struct : String) (layout : Layout α) (zero : α)
    (respType : ResponseType) (roomID : α → String) (request : α → Except GoText ClientRequest)
    (name data : GoText) : Inbound :=
  let read := layout.unmarshal zero data
  if read.2 then
    match request read.1 with
    | .ok r => .request name r
    | .error err => .malformed name respType (roomID read.1) err
  else .malformed name respType (roomID read.1) (jsonError struct data)

/-- A round start without a list of problems is refused. -/
def RoundStartRequest.request (r : RoundStartRequest) : Except GoText ClientRequest :=
  match r.problemList with
  | some problemList => .ok (.of (.roundStart r.roomID problemList r.startTime r.duration))
  | none => .error ((validate "RoundStartRequest"
      [("RoomID", r.roomID ≠ ""), ("ProblemList", false)]).getD [])

/-- `RequestTypes` -/
def requestTypes : List (String × (GoText → GoText → Inbound)) := [
  ("join-room", readRequest jsonError "JoinRoomRequest" JoinRoomRequest.layout
    ⟨[], "", [], false, none⟩ .userJoined JoinRoomRequest.roomID fun r =>
      .ok (.of (.joinRoom r.userHandle r.roomID r.userName r.suppressAnnouncement r.profanityFilter))),
  ("leave-room", readRequest jsonError "LeaveRoomRequest" LeaveRoomRequest.layout ⟨[], "", []⟩
    .userLeft LeaveRoomRequest.roomID fun r => .ok (.of (.leaveRoom r.userHandle r.roomID r.userName))),
  ("round-start", readRequest jsonError "RoundStartRequest" RoundStartRequest.layout ⟨"", none, 0, 0⟩
    .roundStart RoundStartRequest.roomID RoundStartRequest.request),
  ("round-end", readRequest jsonError "RoundEndRequest" RoomOnlyRequest.layout ⟨""⟩
    .systemAnnouncement RoomOnlyRequest.roomID fun r => .ok (.of (.roundEnd r.roomID))),
  -- when its data cannot be read, a join-round names no room
  ("join-round", readRequest jsonError "JoinRoundRequest" JoinRoundRequest.layout ⟨"", [], []⟩
    .roundJoin (fun _ => "") fun r => .ok (.of (.joinRound r.roomID r.userID r.userName))),
  ("next-problem", readRequest jsonError "NextProblemRequest" NextProblemRequest.layout ⟨"", "", []⟩
    .nextProblem NextProblemRequest.roomID fun r =>
      .ok (.of (.nextProblem r.roomID r.nextProblem r.userHandle))),
  ("new-submission", readRequest jsonError "NewSubmissionRequest" NewSubmissionRequest.layout
    ⟨[], "", "", ""⟩ .systemAnnouncement NewSubmissionRequest.roomID fun r =>
      .ok (.of (.newSubmission r.userHandle r.roomID r.problemID r.verdict))),
  ("admin-change", readRequest jsonError "AdminChangeRequest" AdminChangeRequest.layout ⟨"", [], []⟩
    .adminChange AdminChangeRequest.roomID fun r =>
      .ok (.of (.adminChange r.roomID r.adminID r.adminName))),
  ("room-expired", readRequest jsonError "RoomExpiredRequest" RoomOnlyRequest.layout ⟨""⟩
    .roomExpired RoomOnlyRequest.roomID fun r => .ok (.of (.roomExpired r.roomID))),
  ("chat-message", readRequest jsonError "ChatMessageRequest" ChatMessageRequest.layout
    ⟨[], [], [], "", []⟩ .chatMessage ChatMessageRequest.roomID fun r =>
      .ok (.chatMessage r.userHandle r.userName r.userPhoto r.roomID r.message))]

/-- The types that are registered. -/
def typeNames : List String := ["join-room", "leave-room", "round-start", "round-end", "join-round",
  "next-problem", "new-submission", "admin-change", "room-expired", "chat-message"]

/-- What arrives with a message: the loop of `ReadMessages` up to the handler. -/
def readMessage (raw : GoText) : Inbound :=
  let read := Message.layout.unmarshal ⟨[], [], []⟩ raw
  if read.2 then
    let m := read.1
    match validate "Message"
      [("ServiceName", m.serviceName ≠ []), ("Type", m.type ≠ []), ("Data", m.data ≠ [])] with
    | some err => .invalid m.serviceName err
    | none =>
      match (requestTypes jsonError).find? fun t => m.type == utf8 t.1 with
      | some t => t.2 m.serviceName m.data
      | none => .invalid m.serviceName (utf8 "invalid request type: " ++ m.type)
  else .unreadable (jsonError "Message" raw)

end Read

/-- The numbers of a request are 64-bit words. -/
def Request.Fits : Request → Prop
  | .roundStart _ _ startTime duration =>
    (-2^63 ≤ startTime ∧ startTime < 2^63) ∧ -2^63 ≤ duration ∧ duration < 2^63
  | _ => True

/-- The request with its texts well-formed. -/
def Request.wellFormed : Request → Request
  | .joinRoom userHandle roomID userName suppress filter =>
    .joinRoom userHandle.wellFormed roomID userName.wellFormed suppress filter
  | .leaveRoom userHandle roomID userName =>
    .leaveRoom userHandle.wellFormed roomID userName.wellFormed
  | .joinRound roomID userID userName => .joinRound roomID userID.wellFormed userName.wellFormed
  | .nextProblem roomID problem userHandle => .nextProblem roomID problem userHandle.wellFormed
  | .newSubmission userHandle roomID problemID verdict =>
    .newSubmission userHandle.wellFormed roomID problemID verdict
  | .adminChange roomID adminID adminName =>
    .adminChange roomID adminID.wellFormed adminName.wellFormed
  | r => r

/-! ## What is written arrives -/

section Arrives

variable (jsonError : String → GoText → GoText)

/-- The record of a request is read back from its data. -/
theorem readRequest_marshal {α : Type} {struct : String} {layout : Layout α} {zero a a' : α}
    {respType : ResponseType} {roomID : α → String} {request : α → Except GoText ClientRequest}
    (hfits : layout.Fits a) (hback : layout.restored zero a = a') (name : GoText) :
    readRequest jsonError struct layout zero respType roomID request name (layout.marshal a) =
      match request a' with
      | .ok r => .request name r
      | .error err => .malformed name respType (roomID a') err := by
  unfold readRequest
  rw [layout.unmarshal_marshal hfits, hback]
  rfl

/-- The type of a request is registered, and its data is read as the request with its texts
well-formed. -/
theorem exists_registered (r : Request) (hr : r.Fits) (name : GoText) :
    ∃ t ∈ requestTypes jsonError, t.1 = (ClientRequest.of r).type ∧
      t.2 name (ClientRequest.of r).data = .request name (.of r.wellFormed) := by
  cases r with
  | joinRoom userHandle roomID userName suppress filter =>
    refine ⟨_, .head _, rfl, ?_⟩
    simp only [ClientRequest.data]
    rw [readRequest_marshal jsonError (JoinRoomRequest.fits _) (JoinRoomRequest.restored _) name]
    rfl
  | leaveRoom userHandle roomID userName =>
    refine ⟨_, .tail _ (.head _), rfl, ?_⟩
    simp only [ClientRequest.data]
    rw [readRequest_marshal jsonError (LeaveRoomRequest.fits _) (LeaveRoomRequest.restored _) name]
    rfl
  | roundStart roomID problemList startTime duration =>
    refine ⟨_, .tail _ (.tail _ (.head _)), rfl, ?_⟩
    simp only [ClientRequest.data]
    rw [readRequest_marshal jsonError (RoundStartRequest.fits hr.1 hr.2) (RoundStartRequest.restored _) name]
    rfl
  | roundEnd roomID =>
    refine ⟨_, .tail _ (.tail _ (.tail _ (.head _))), rfl, ?_⟩
    simp only [ClientRequest.data]
    rw [readRequest_marshal jsonError (RoomOnlyRequest.fits _) (RoomOnlyRequest.restored _) name]
    rfl
  | joinRound roomID userID userName =>
    refine ⟨_, .tail _ (.tail _ (.tail _ (.tail _ (.head _)))), rfl, ?_⟩
    simp only [ClientRequest.data]
    rw [readRequest_marshal jsonError (JoinRoundRequest.fits _) (JoinRoundRequest.restored _) name]
    rfl
  | nextProblem roomID problem userHandle =>
    refine ⟨_, .tail _ (.tail _ (.tail _ (.tail _ (.tail _ (.head _))))), rfl, ?_⟩
    simp only [ClientRequest.data]
    rw [readRequest_marshal jsonError (NextProblemRequest.fits _) (NextProblemRequest.restored _) name]
    rfl
  | newSubmission userHandle roomID problemID verdict =>
    refine ⟨_, .tail _ (.tail _ (.tail _ (.tail _ (.tail _ (.tail _ (.head _)))))), rfl, ?_⟩
    simp only [ClientRequest.data]
    rw [readRequest_marshal jsonError (NewSubmissionRequest.fits _) (NewSubmissionRequest.restored _) name]
    rfl
  | adminChange roomID adminID adminName =>
    refine ⟨_, .tail _ (.tail _ (.tail _ (.tail _ (.tail _ (.tail _ (.tail _ (.head _))))))), rfl, ?_⟩
    simp only [ClientRequest.data]
    rw [readRequest_marshal jsonError (AdminChangeRequest.fits _) (AdminChangeRequest.restored _) name]
    rfl
  | roomExpired roomID =>
    refine ⟨_, .tail _ (.tail _ (.tail _ (.tail _ (.tail _ (.tail _ (.tail _ (.tail _
      (.head _)))))))), rfl, ?_⟩
    simp only [ClientRequest.data]
    rw [readRequest_marshal jsonError (RoomOnlyRequest.fits _) (RoomOnlyRequest.restored _) name]
    rfl

/-- The data of a request is not empty, and its bytes are a text. -/
theorem data_ne_nil (r : Request) : (ClientRequest.of r).data ≠ [] := by
  cases r <;> exact Layout.marshal_ne_nil _

/-- What a request of the service says is well formed already. -/
theorem wellFormed_data (r : Request) :
    (ClientRequest.of r).data.wellFormed = (ClientRequest.of r).data := by
  cases r <;> exact Layout.wellFormed_marshal _

/-- A message with a type that is registered is handed to what reads this type. -/
theorem readMessage_of_read {t : String × (GoText → GoText → Inbound)} {raw name data : GoText}
    (ht : t ∈ requestTypes jsonError)
    (hread : Message.layout.unmarshal ⟨[], [], []⟩ raw = (⟨name, utf8 t.1, data⟩, true))
    (hname : name ≠ []) (hdata : data ≠ []) : readMessage jsonError raw = t.2 name data := by
  have hkeys : ((requestTypes jsonError).map fun t => utf8 t.1).Nodup := by
    change (typeNames.map utf8).Nodup
    decide
  have hfind : ((requestTypes jsonError).find? fun t' => utf8 t.1 == utf8 t'.1) = some t :=
    find?_of_key (f := fun t : String × (GoText → GoText → Inbound) => utf8 t.1) hkeys ht
  have htype : utf8 t.1 ≠ [] := by
    have hnames : ∀ s ∈ typeNames, utf8 s ≠ [] := by decide
    exact hnames t.1 (List.mem_map_of_mem (f := Prod.fst) ht)
  have hvalid : validate "Message" [("ServiceName", name ≠ []), ("Type", utf8 t.1 ≠ []),
      ("Data", data ≠ [])] = none := by
    simp [validate, hname, htype, hdata]
  unfold readMessage
  rw [hread]
  dsimp only
  rw [if_pos rfl, hvalid]
  dsimp only
  rw [hfind]

/-- A request that central-service writes arrives as it is, with its texts well-formed. -/
theorem readMessage_frame (name : GoText) (hname : name ≠ []) (r : Request) (hr : r.Fits) :
    readMessage jsonError (frame name (.of r)) = .request name.wellFormed (.of r.wellFormed) := by
  obtain ⟨t, ht, htype, hread⟩ := exists_registered jsonError r hr name.wellFormed
  have hmessage : Message.layout.unmarshal ⟨[], [], []⟩ (frame name (.of r)) =
      (⟨name.wellFormed, utf8 t.1, (ClientRequest.of r).data⟩, true) := by
    have hfits : Message.layout.Fits ⟨name, utf8 t.1, (ClientRequest.of r).data⟩ :=
      ⟨trivial, trivial, trivial⟩
    have hback := Message.layout.unmarshal_marshal hfits ⟨[], [], []⟩
    rw [frame, ← htype, hback]
    change ((⟨name.wellFormed, (utf8 t.1).wellFormed, GoText.wellFormed _⟩ : Message), true) = _
    rw [wellFormed_utf8, wellFormed_data]
  rw [readMessage_of_read jsonError ht hmessage (wellFormed_ne_nil hname) (data_ne_nil r), hread]

end Arrives

/-- A round start with two problems, as central-service writes it. -/
theorem readMessage_frame_roundStart : readMessage (fun _ _ => [])
    (frame centralServiceName (.of (.roundStart "room" ["two-sum", "3sum"] 1700000000 30))) =
      .request centralServiceName (.of (.roundStart "room" ["two-sum", "3sum"] 1700000000 30)) := by
  have hname : centralServiceName.wellFormed = centralServiceName := wellFormed_utf8 "central-service"
  have hread := readMessage_frame (fun _ _ => []) centralServiceName (by decide)
    (.roundStart "room" ["two-sum", "3sum"] 1700000000 30)
    ⟨⟨by decide, by decide⟩, by decide, by decide⟩
  rw [hname] at hread
  exact hread

end Bsg.Rtc
