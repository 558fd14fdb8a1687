import Bsg.Foundations.JsonScript
import Bsg.Rtc.Wire
import Bsg.Rtc.Replies
import Bsg.Rtc.Hearing
import Bsg.Extension.Replay

/-!
# The panel's end of the wire

What the panel writes to rtc-service when it joins a room or sends a chat message, and what it does
with the bytes of a response. It joins by its user id, and rtc-service reads the request that is
meant (`readMessage_payload`), when its texts are well-formed: half of a surrogate pair, which is no
text here, would be read as U+FFFD. The responses of a run, read from their bytes, do to the panel
what they do to it as records (`onFrames_sent`).
-/

namespace Bsg.Extension

open Bsg.Foundations Bsg.Rtc Json Panel

/-! ## Sending -/

/-- What the store of a user knows about him, in well-formed texts. -/
structure ChatUser where
  userId : String
  username : Option String
  iconUrl : Option String

/-- What the panel asks rtc-service for: to join a room, in `joinChatRoom` and when its socket
opens, or to send a chat message, in `handleSubmit` with the text that it trimmed. -/
inductive ChatRequest where
  | joinRoom (roomID : String)
  | chatMessage (roomId text : String)

namespace ChatRequest

/-- The name of the request's type. -/
def type : ChatRequest → String
  | joinRoom _ => "join-room"
  | chatMessage _ _ => "chat-message"

/-- The members of the data. -/
def data (user : ChatUser) : ChatRequest → List ScriptField
  | joinRoom roomID => [
    ("userHandle".toList, some user.userId.toList),
    ("userName".toList, user.username.map String.toList),
    ("roomID".toList, some roomID.toList)]
  | chatMessage roomId text => [
    ("userHandle".toList, some user.userId.toList),
    ("userName".toList, user.username.map String.toList),
    ("userPhoto".toList, user.iconUrl.map String.toList),
    ("roomID".toList, some roomId.toList),
    ("message".toList, some text.toList)]

/-- The bytes that are sent: an object whose data is the text of an object. -/
def payload (user : ChatUser) (r : ChatRequest) : GoText :=
  encode (stringify [
    ("name".toList, some user.userId.toList),
    ("request-type".toList, some r.type.toList),
    ("data".toList, some (stringify (r.data user)))])

/-- The request that is meant; a text that is null is none. -/
def request (user : ChatUser) : ChatRequest → ClientRequest
  | joinRoom roomID => .of (.joinRoom (utf8 user.userId) roomID
      ((user.username.map utf8).getD []) false none)
  | chatMessage roomId text => .chatMessage (utf8 user.userId) ((user.username.map utf8).getD [])
      ((user.iconUrl.map utf8).getD []) roomId (utf8 text)

end ChatRequest

/-- An object that the panel writes is read as its document. -/
theorem unmarshal_stringify {α : Type} (layout : Layout α) (zero : α) (fs : List ScriptField) :
    layout.unmarshal zero (encode (stringify fs)) =
      layout.fill zero (.obj (fs.map ScriptField.document)) := by
  rw [Layout.unmarshal, runes_encode, parse_stringify]

/-- The data of a join is read into its record. -/
theorem fill_joinRoom (user : ChatUser) (roomID : String) :
    JoinRoomRequest.layout.fill ⟨[], "", [], false, none⟩
      (.obj ((ChatRequest.data user (.joinRoom roomID)).map ScriptField.document)) =
        (⟨utf8 user.userId, roomID, (user.username.map utf8).getD [], false, none⟩, true) := by
  have hroom : String.ofList roomID.toList = roomID := String.ofList_toList
  -- A member that is null leaves the field at its zero value.
  refine Eq.trans (b := (⟨utf8 user.userId, String.ofList roomID.toList,
    (user.username.map utf8).getD [], false, none⟩, true)) ?_ (by rw [hroom])
  obtain ⟨userId, _ | username, iconUrl⟩ := user
  · rfl
  · rfl

/-- The data of a chat message is read into its record. -/
theorem fill_chatMessage (user : ChatUser) (roomId text : String) :
    ChatMessageRequest.layout.fill ⟨[], [], [], "", []⟩
      (.obj ((ChatRequest.data user (.chatMessage roomId text)).map ScriptField.document)) =
        (⟨utf8 user.userId, (user.username.map utf8).getD [], (user.iconUrl.map utf8).getD [], roomId,
          utf8 text⟩, true) := by
  have hroom : String.ofList roomId.toList = roomId := String.ofList_toList
  refine Eq.trans (b := (⟨utf8 user.userId, (user.username.map utf8).getD [],
    (user.iconUrl.map utf8).getD [], String.ofList roomId.toList, utf8 text⟩, true)) ?_ (by rw [hroom])
  obtain ⟨userId, _ | username, _ | iconUrl⟩ := user
  · rfl
  · rfl
  · rfl
  · rfl

/-- rtc-service reads what the panel sends as the request that is meant, from this user. -/
theorem readMessage_payload (jsonError : String → GoText → GoText) (user : ChatUser)
    (huser : user.userId ≠ "") (r : ChatRequest) :
    readMessage jsonError (r.payload user) = .request (utf8 user.userId) (r.request user) := by
  have hname : utf8 user.userId ≠ [] := by
    intro hempty
    exact huser (String.toList_eq_nil_iff.mp (encode_eq_nil.mp hempty))
  -- The data is an object, so its text is not empty and the message passes the check.
  have hdata : encode (stringify (r.data user)) ≠ [] := by
    rw [Ne, encode_eq_nil]
    exact List.cons_ne_nil _ _
  have hread : Message.layout.unmarshal ⟨[], [], []⟩ (r.payload user) =
      (⟨utf8 user.userId, utf8 r.type, encode (stringify (r.data user))⟩, true) := by
    rw [ChatRequest.payload, unmarshal_stringify]
    rfl
  cases r with
  | joinRoom roomID =>
    rw [readMessage_of_read jsonError (.head _) hread hname hdata]
    dsimp only
    rw [readRequest, unmarshal_stringify, fill_joinRoom]
    rfl
  | chatMessage roomId text =>
    have hregistered : ("chat-message", readRequest jsonError "ChatMessageRequest"
        ChatMessageRequest.layout ⟨[], [], [], "", []⟩ .chatMessage ChatMessageRequest.roomID fun r =>
          .ok (.chatMessage r.userHandle r.userName r.userPhoto r.roomID r.message)) ∈
        requestTypes jsonError :=
      List.mem_of_getElem? (i := 9) rfl
    rw [readMessage_of_read jsonError hregistered hread hname hdata]
    dsimp only
    rw [readRequest, unmarshal_stringify, fill_chatMessage]
    rfl

/-- Bob, who has no picture, says hello. -/
theorem readMessage_payload_hello :
    readMessage (fun _ _ => []) ((ChatRequest.chatMessage "room" "hello").payload ⟨"bob", some "Bob", none⟩) =
      .request (utf8 "bob") (.chatMessage (utf8 "bob") (utf8 "Bob") [] "room" (utf8 "hello")) :=
  readMessage_payload (fun _ _ => []) ⟨"bob", some "Bob", none⟩ (by decide) (.chatMessage "room" "hello")

/-! ## Reading -/

/-- A property of an object: the last one with this name. -/
def property (doc : Json) (key : String) : Option Json :=
  match doc with
  | .obj fields => (fields.reverse.find? fun f => f.1 = key.toList).map Prod.snd
  | _ => none

/-- A property that is a text. -/
def textAt (doc : Json) (key : String) : Option String :=
  match property doc key with
  | some (.str s) => some (String.ofList s)
  | _ => none

/-- A property that is a number; numbers are integers here. -/
def numberAt (doc : Json) (key : String) : Option ℤ :=
  match property doc key with
  | some (.num lit) => Codec.readInt lit
  | _ => none

/-- A property that is a list of texts, which is empty when it is missing. -/
def textsAt (doc : Json) (key : String) : List String :=
  match property doc key with
  | some (.arr items) => (items.mapM (asString "")).getD []
  | _ => []

/-- The event that a message makes the last one, with its data: the branches of `ws.onmessage`. The
data of a message is a text, as rtc-service writes it. -/
def readEvent (message : GoText) : Option (GameEventType × Json) := do
  let response ← parse (runes message)
  let message ← property response "message"
  let data ← textAt message "data"
  let type ← textAt response "responseType"
  if textAt response "status" ≠ some "ok" then none
  else if type = "round-start" then some (.roundStart, (parse data.toList).getD (text data))
  else if type = "round-end" then some (.roundEnd, text data)
  else if type = "round-join" then
    (parse (if data = "" then "{}".toList else data.toList)).map fun data => (.joinRound, data)
  else if type = "next-problem" then (parse data.toList).map fun data => (.nextProblem, data)
  else none

/-- The round in the data of an event, as `applyRoundData` reads it, if there is a start time. -/
def readRoundData (data : Json) : Option RoundData := do
  let startTime ← numberAt data "startTime"
  if startTime = 0 then none
  else some ⟨startTime, ← numberAt data "serverNow", ← numberAt data "duration", textsAt data "problems"⟩

/-- Whether the data of an event is the user's own join of a round in progress. -/
def readOwnJoin (userId : GoText) (data : Json) : Bool :=
  (textAt data "userID").any (fun userID => utf8 userID = userId) &&
    textAt data "roundStatus" = some "in-progress"

/-- The next problem in the data of an event, and whose it is. -/
def readNextProblem (data : Json) : Option (String × GoText) := do
  some (← textAt data "nextProblem", utf8 (← textAt data "userHandle"))

/-- What the effects of the panel use of an event. -/
structure EventReading where
  type : GameEventType
  round : Option RoundData
  own : Bool
  next : Option (String × GoText)
  deriving DecidableEq, Repr

/-- What they use of the data that is read. -/
def readingOf (userId : GoText) (e : GameEventType × Json) : EventReading :=
  ⟨e.1, readRoundData e.2, readOwnJoin userId e.2, readNextProblem e.2⟩

/-- The next problem that an event carries, and whose it is. -/
def nextProblemOf : Data → Option (String × GoText)
  | .nextProblem problem userHandle => some (problem, userHandle)
  | _ => none

/-- What they use of the data of a response. -/
def GameEvent.reading (userId : GoText) (e : GameEvent) : EventReading :=
  ⟨e.type, roundData e.data, ownJoin userId e.data, nextProblemOf e.data⟩

namespace Panel

/-- `applyRoundData` on the data that was read -/
def applyRound (p : Panel) (now : ℤ) (roomId : String) (d : Option RoundData) : Panel :=
  let problems := (d.map RoundData.problems).getD []
  let p := { p with
    roundEndTime := some (endTime now d)
    isRoundStarted := true
    hasRoundEnded := false
    requests := p.requests ++ [.problemProgressReset (roundKey roomId d)] }
  if problems ≠ [] then p.navigateActiveTab fun url => resolveResumeSlug url problems else p

/-- The effect of `useRoomEvents` on an event that was read. -/
def follow (p : Panel) (now : ℤ) (roomId : String) (e : EventReading) : Panel :=
  match e.type with
  | .roundStart => p.applyRound now roomId e.round
  | .joinRound => if e.own then p.applyRound now roomId e.round else p
  | .nextProblem =>
    match e.next with
    | some (nextProblem, userHandle) =>
      if p.userId ≠ [] ∧ userHandle = p.userId then p.navigateActiveTab fun _ => some nextProblem
      else p
    | none => p
  | .roundEnd =>
    { p with
      roundEndTime := none
      isRoundStarted := false
      hasRoundEnded := true
      requests := p.requests ++ [.problemProgressReset (roomId ++ "|ended|" ++ toString now)] }

/-- `ws.onmessage` on the bytes of a message, and the effect that follows. -/
def onFrame (p : Panel) (now : ℤ) (message : GoText) : Panel :=
  match readEvent message, p.roomId with
  | some e, some roomId => p.follow now roomId (readingOf p.userId e)
  | _, _ => p

/-- The panel after the bytes of a list of messages, each with the time at which it is read. -/
def onFrames (p : Panel) (messages : List (ℤ × GoText)) : Panel :=
  messages.foldl (fun p m => p.onFrame m.1 m.2) p

/-- The panel reads one frame, and then the others. -/
theorem onFrames_cons (p : Panel) (m : ℤ × GoText) (ms : List (ℤ × GoText)) :
    p.onFrames (m :: ms) = (p.onFrame m.1 m.2).onFrames ms := rfl

/-- The panel without its last event, which nothing but the effect on it reads. -/
def withoutEvent (p : Panel) : Panel := { p with lastGameEvent := none }

end Panel

/-! ## What a response is read as -/

section Document

variable {doc : Json} {key : String}

/-- A text under a key is read as it is. -/
theorem textAt_of_property {s : List Char} (h : property doc key = some (.str s)) :
    textAt doc key = some (String.ofList s) := by
  rw [textAt, h]

/-- A number under a key is read as it is. -/
theorem numberAt_of_property {n : ℤ} (h : property doc key = some (number n)) :
    numberAt doc key = some n := by
  rw [numberAt, h]
  exact Codec.readInt_integer n

/-- A list of texts under a key is read as it is. -/
theorem textsAt_of_property {l : List String} (h : property doc key = some (texts l)) :
    textsAt doc key = l := by
  rw [textsAt, h]
  exact congrArg (fun l => l.getD []) (Codec.mapM_texts "" l)

end Document

/-- A text of bytes is read as its well-formed text. -/
theorem utf8_ofList_runes (s : GoText) : utf8 (String.ofList (runes s)) = s.wellFormed := by
  rw [utf8, String.toList_ofList]
  rfl

/-- The round in a document is read, if there is a start time. -/
theorem readRoundData_eq {doc : Json} {d : RoundData}
    (hstart : numberAt doc "startTime" = some d.startTime)
    (hnow : numberAt doc "serverNow" = some d.serverNow)
    (hduration : numberAt doc "duration" = some d.duration)
    (hproblems : textsAt doc "problems" = d.problems) :
    readRoundData doc = (some d).filter fun d => d.startTime ≠ 0 := by
  rw [readRoundData, hstart, hnow, hduration, hproblems, Option.filter_some]
  by_cases hzero : d.startTime = 0
  · simp [hzero]
  · simp [hzero]

/-- The panel reads the round out of a broadcast of its start. -/
theorem readRoundData_roundStart (b : RoundStartBroadcast) :
    readRoundData b.document = roundData (.roundStart b) :=
  readRoundData_eq (d := ⟨b.startTime, b.serverNow, b.duration, b.problems⟩) (numberAt_of_property rfl)
    (numberAt_of_property rfl) (numberAt_of_property rfl) (textsAt_of_property rfl)

/-- The problems of a join may be missing, and are then none. -/
theorem readRoundData_joinRound (b : JoinRoundBroadcast) :
    readRoundData b.document = roundData (.joinRound b) := by
  have hproblems : textsAt b.document "problems" = b.problems := by
    have hproperty : property b.document "problems" =
        some (if b.roundStatus = .notStarted ∧ b.problems = [] then .null else texts b.problems) := rfl
    split_ifs at hproperty with hnone
    · rw [textsAt, hproperty, hnone.2]
    · exact textsAt_of_property hproperty
  exact readRoundData_eq (d := ⟨b.startTime, b.serverNow, b.duration, b.problems⟩)
    (numberAt_of_property rfl) (numberAt_of_property rfl) (numberAt_of_property rfl) hproblems

/-- Whose join it is, and of what round, is read. -/
theorem readOwnJoin_joinRound (userId : GoText) (b : JoinRoundBroadcast) :
    readOwnJoin userId b.document = ownJoin userId (Data.joinRound b).wellFormed := by
  have huser : textAt b.document "userID" = some (String.ofList (runes b.userID)) :=
    textAt_of_property rfl
  have hstatus : textAt b.document "roundStatus" = some b.roundStatus.name := by
    rw [textAt_of_property (s := b.roundStatus.name.toList) rfl, String.ofList_toList]
  rw [readOwnJoin, huser, hstatus, Option.any_some, utf8_ofList_runes]
  cases hb : b.roundStatus <;> simp [ownJoin, Data.wellFormed, RoundStatus.name, hb]

/-- The next problem and its user are read. -/
theorem readNextProblem_nextProblem (problem : String) (userHandle : GoText) :
    readNextProblem (nextProblemDocument problem userHandle) = some (problem, userHandle.wellFormed) := by
  have hproblem : textAt (nextProblemDocument problem userHandle) "nextProblem" = some problem := by
    rw [textAt_of_property (s := problem.toList) rfl, String.ofList_toList]
  have huser : textAt (nextProblemDocument problem userHandle) "userHandle" =
      some (String.ofList (runes userHandle)) := textAt_of_property rfl
  rw [readNextProblem, hproblem, huser]
  exact congrArg (fun s => some (problem, s)) (utf8_ofList_runes userHandle)

/-! ## The documents of the data -/

/-- The bytes of an object are read as the object, if its members are not nested any deeper than a
list of texts. -/
theorem parse_written {fields : List (List Char × Json)} (hplain : PlainFields fields)
    (hdepth : depthFields fields ≤ 1) : parse (runes (written (.obj fields))) = some (.obj fields) := by
  have hbound : depth (.obj fields) ≤ maxNestingDepth :=
    (Nat.succ_le_succ hdepth).trans (by decide)
  rw [written, runes_encode, parse_render (j := .obj fields) hplain hbound]

/-- A list of texts is one level deep. -/
theorem depth_texts (l : List String) : depth (texts l) = 1 :=
  congrArg Nat.succ (Codec.depthItems_texts l)

/-- The broadcast of a start is read back from its bytes. -/
theorem parse_roundStart (b : RoundStartBroadcast) :
    parse (runes (written b.document)) = some b.document := by
  refine parse_written ⟨⟨_, rfl⟩, ⟨_, rfl⟩, ⟨_, rfl⟩, Codec.plainItems_texts _, trivial⟩ ?_
  simp [depthFields, depth_texts, Rtc.number, depth]

/-- The broadcast of a joined round is read back from its bytes. -/
theorem parse_joinRound (b : JoinRoundBroadcast) :
    parse (runes (written b.document)) = some b.document := by
  have hplain : Plain (if b.roundStatus = .notStarted ∧ b.problems = [] then .null
      else texts b.problems) := by
    split_ifs
    · exact trivial
    · exact Codec.plainItems_texts _
  have hdepth : depth (if b.roundStatus = .notStarted ∧ b.problems = [] then .null
      else texts b.problems) ≤ 1 := by
    split_ifs
    · exact Nat.zero_le 1
    · exact (depth_texts b.problems).le
  refine parse_written ⟨trivial, trivial, trivial, ⟨_, rfl⟩, ⟨_, rfl⟩, ⟨_, rfl⟩, hplain, trivial⟩ ?_
  simpa [depthFields, textOfBytes, text, Rtc.number, depth] using hdepth

/-- The broadcast of a next problem is read back from its bytes. -/
theorem parse_nextProblem (problem : String) (userHandle : GoText) :
    parse (runes (written (nextProblemDocument problem userHandle))) =
      some (nextProblemDocument problem userHandle) := by
  refine parse_written ⟨trivial, trivial, trivial⟩ ?_
  simp [depthFields, textOfBytes, text, depth]

/-! ## The event of a response -/

/-- A response has its message under its key. -/
theorem property_message (r : Response) : property (RawResponse.layout.document r.raw) "message" =
    some (RawMessage.layout.document r.raw.respMessage) := rfl

/-- The panel finds the type of a response. -/
theorem textAt_responseType (r : Response) :
    textAt (RawResponse.layout.document r.raw) "responseType" = some r.respType.name := by
  rw [textAt_of_property (s := r.respType.name.toList) rfl, String.ofList_toList]

/-- The panel finds the status of a response. -/
theorem textAt_status (r : Response) :
    textAt (RawResponse.layout.document r.raw) "status" = some r.respStatus.name := by
  rw [textAt_of_property (s := r.respStatus.name.toList) rfl, String.ofList_toList]

/-- The panel finds the data of a message as a text. -/
theorem textAt_data (m : RawMessage) :
    textAt (RawMessage.layout.document m) "data" = some (String.ofList (runes m.data)) := rfl

/-- The branches of `ws.onmessage`, for the message of a response. -/
theorem readEvent_message (r : Response) : readEvent r.message =
    if r.respStatus.name ≠ "ok" then none
    else if r.respType.name = "round-start" then
      some (.roundStart, (parse (runes r.respMessage.data.raw)).getD
        (text (String.ofList (runes r.respMessage.data.raw))))
    else if r.respType.name = "round-end" then
      some (.roundEnd, text (String.ofList (runes r.respMessage.data.raw)))
    else if r.respType.name = "round-join" then
      (parse (if String.ofList (runes r.respMessage.data.raw) = "" then "{}".toList
        else runes r.respMessage.data.raw)).map fun data => (.joinRound, data)
    else if r.respType.name = "next-problem" then
      (parse (runes r.respMessage.data.raw)).map fun data => (.nextProblem, data)
    else none := by
  have hparse : parse (runes r.message) = some (RawResponse.layout.document r.raw) :=
    Layout.parse_marshal RawResponse.layout r.raw
  unfold readEvent
  simp only [hparse, property_message, textAt_data, textAt_responseType, textAt_status,
    Option.bind_eq_bind, Option.bind_some, String.toList_ofList, ne_eq, Option.some.injEq]
  rfl

/-- The event of a start is read alike from the document and from the record. -/
theorem readingOf_roundStart (userId : GoText) (b : RoundStartBroadcast) :
    readingOf userId (.roundStart, b.document) =
      GameEvent.reading userId ⟨.roundStart, .roundStart b⟩ := by
  rw [readingOf, readRoundData_roundStart]
  rfl

/-- So is that of a joined round. -/
theorem readingOf_joinRound (userId : GoText) (b : JoinRoundBroadcast) :
    readingOf userId (.joinRound, b.document) =
      GameEvent.reading userId ⟨.joinRound, (Data.joinRound b).wellFormed⟩ := by
  rw [readingOf, readRoundData_joinRound, readOwnJoin_joinRound]
  rfl

/-- So is that of a next problem. -/
theorem readingOf_nextProblem (userId : GoText) (problem : String) (userHandle : GoText) :
    readingOf userId (.nextProblem, nextProblemDocument problem userHandle) =
      GameEvent.reading userId ⟨.nextProblem, .nextProblem problem userHandle.wellFormed⟩ := by
  rw [readingOf, readNextProblem_nextProblem]
  rfl

/-- What a panel uses of a response that it reads from its bytes is what the response has. -/
theorem readingOf_message (userId : GoText) {r : Response}
    (hcarries : r.respStatus = .ok → r.Carries) :
    (readEvent r.message).map (readingOf userId) =
      (gameEvent r.wellFormed).map (GameEvent.reading userId) := by
  obtain ⟨status, ⟨roomID, data, userHandle, userName, userPhoto⟩, type⟩ := r
  rw [readEvent_message]
  cases status with
  | error => rfl
  | ok =>
    have hdata := hcarries rfl
    cases type with
    | roundStart =>
      obtain ⟨b, rfl⟩ := hdata
      change (some (GameEventType.roundStart, (parse (runes (written b.document))).getD _)).map
        (readingOf userId) = _
      rw [parse_roundStart, Option.getD_some, Option.map_some, readingOf_roundStart]
      rfl
    | roundJoin =>
      obtain ⟨b, rfl⟩ := hdata
      have hdoc := parse_joinRound b
      -- The text is not empty, so it does not stand for an empty object.
      have hne : String.ofList (runes (written b.document)) ≠ "" := by
        intro hempty
        rw [show runes (written b.document) = [] from String.ofList_eq_empty_iff.mp hempty] at hdoc
        cases hdoc
      change ((parse (if String.ofList (runes (written b.document)) = "" then "{}".toList
        else runes (written b.document))).map fun data => (GameEventType.joinRound, data)).map
        (readingOf userId) = _
      rw [if_neg hne, hdoc, Option.map_some, Option.map_some, readingOf_joinRound]
      rfl
    | nextProblem =>
      obtain ⟨problem, userHandle, rfl⟩ := hdata
      change ((parse (runes (written (nextProblemDocument problem userHandle)))).map
        fun data => (GameEventType.nextProblem, data)).map (readingOf userId) = _
      rw [parse_nextProblem, Option.map_some, Option.map_some, readingOf_nextProblem]
      rfl
    | _ => rfl

/-! ## What the panel does -/

namespace Panel

/-- Where the tab goes does not depend on the last event. -/
theorem withoutEvent_navigateActiveTab (p : Panel) (decide : String → Option String) :
    (p.navigateActiveTab decide).withoutEvent = p.withoutEvent.navigateActiveTab decide := by
  obtain ⟨userId, room, started, ended, endTime, last, tab, requests, moves⟩ := p
  cases tab with
  | none => rfl
  | some url =>
    unfold navigateActiveTab withoutEvent
    dsimp only
    cases decide url with
    | none => rfl
    | some targetSlug =>
      dsimp only
      by_cases hstay : url = "" ∨ targetSlug = "" ∨ parseProblemSlug url = some targetSlug
      · rw [if_pos hstay, if_pos hstay]
      · rw [if_neg hstay, if_neg hstay]

/-- Without the last event, applying the data of a round is applying the round. -/
theorem withoutEvent_applyRoundData (p : Panel) (now : ℤ) (roomId : String) (data : Data) :
    (p.applyRoundData now roomId data).withoutEvent =
      p.withoutEvent.applyRound now roomId (roundData data) := by
  unfold applyRoundData applyRound
  dsimp only
  by_cases hproblems : ((roundData data).map RoundData.problems).getD [] ≠ []
  · rw [if_pos hproblems, if_pos hproblems, withoutEvent_navigateActiveTab]
    rfl
  · rw [if_neg hproblems, if_neg hproblems]
    rfl

/-- The effect on an event uses its reading alone. -/
theorem withoutEvent_roomEvents (p : Panel) (now : ℤ) {roomId : String} {e : GameEvent}
    (hroom : p.roomId = some roomId) (he : p.lastGameEvent = some e) :
    (p.roomEvents now).withoutEvent = p.withoutEvent.follow now roomId (e.reading p.userId) := by
  obtain ⟨type, data⟩ := e
  cases type with
  | roundStart =>
    unfold roomEvents
    rw [he, hroom]
    exact withoutEvent_applyRoundData p now roomId data
  | roundEnd =>
    obtain ⟨userId, room, started, ended, endTime, last, tab, requests, moves⟩ := p
    obtain rfl : room = some roomId := hroom
    obtain rfl : last = some ⟨.roundEnd, data⟩ := he
    rfl
  | joinRound =>
    unfold roomEvents
    rw [he, hroom]
    change (if ownJoin p.userId data then p.applyRoundData now roomId data else p).withoutEvent =
      if ownJoin p.userId data then p.withoutEvent.applyRound now roomId (roundData data)
      else p.withoutEvent
    -- Both look whether the join is the user's own.
    by_cases hown : ownJoin p.userId data
    · rw [if_pos hown, if_pos hown]
      exact withoutEvent_applyRoundData p now roomId data
    · rw [if_neg hown, if_neg hown]
  | nextProblem =>
    unfold roomEvents
    rw [he, hroom]
    cases data with
    | nextProblem nextProblem userHandle =>
      change (if p.userId ≠ [] ∧ userHandle = p.userId then
          p.navigateActiveTab fun _ => some nextProblem else p).withoutEvent =
        if p.userId ≠ [] ∧ userHandle = p.userId then
          p.withoutEvent.navigateActiveTab fun _ => some nextProblem else p.withoutEvent
      by_cases hown : p.userId ≠ [] ∧ userHandle = p.userId
      · rw [if_pos hown, if_pos hown]
        exact withoutEvent_navigateActiveTab p _
      · rw [if_neg hown, if_neg hown]
    | _ => rfl

/-- The bytes of a response do to a panel what the response does. -/
theorem withoutEvent_onMessage (p : Panel) (now : ℤ) {r : Response}
    (hcarries : r.respStatus = .ok → r.Carries) :
    (p.onMessage now r.wellFormed).withoutEvent = p.withoutEvent.onFrame now r.message := by
  have hreading := readingOf_message p.userId hcarries
  unfold onMessage onFrame
  cases hevent : gameEvent r.wellFormed with
  | none =>
    rw [hevent, Option.map_none, Option.map_eq_none_iff] at hreading
    rw [hreading]
  | some e =>
    rw [hevent, Option.map_some] at hreading
    obtain ⟨e', he', hreading⟩ := Option.map_eq_some_iff.mp hreading
    rw [he']
    obtain ⟨userId, room, started, ended, endTime, last, tab, requests, moves⟩ := p
    cases room with
    -- Without a room the effect does nothing.
    | none => rfl
    | some roomId =>
      refine (withoutEvent_roomEvents _ now rfl rfl).trans ?_
      exact congrArg (follow _ now roomId) hreading.symm

/-- The bytes of a list of responses that were sent in runs of rtc-service, each by its own event,
do to a panel what the responses do. -/
theorem onFrames_sent (p : Panel) (messages : List (ℤ × Response))
    (hsent : ∀ message ∈ messages, ∃ es m conn msg, ∃ d ∈ ((run Server.step .start es).receive m conn msg).2,
      d.response = message.2) :
    (p.onMessages (messages.map fun message => (message.1, message.2.wellFormed))).withoutEvent =
      p.withoutEvent.onFrames (messages.map fun message => (message.1, message.2.message)) := by
  induction messages generalizing p with
  | nil => rfl
  | cons message messages ih =>
    obtain ⟨es, m, conn, msg, d, hd, hresponse⟩ := hsent message List.mem_cons_self
    have hcarries : message.2.respStatus = .ok → message.2.Carries := by
      rw [← hresponse]
      exact carries_of_sent es m conn msg d hd
    have hstep := withoutEvent_onMessage p message.1 hcarries
    have hrest := ih (p.onMessage message.1 message.2.wellFormed)
      fun message' hmessage' => hsent message' (List.mem_cons_of_mem message hmessage')
    rw [List.map_cons, List.map_cons, onMessages_cons, hrest, hstep, onFrames_cons]

/-- What Alice is sent when a round is started in her room. -/
def startToAlice : Delivery :=
  ⟨2, newOkResponse .roundStart (.roundStart ⟨1700000000, 1699999990, 30, ["two-sum"]⟩) "room", .broadcast⟩

/-- The start of a round, as alice's panel reads it from the socket. -/
theorem onFrames_sent_start :
    ((loadedPanel (utf8 "alice")).onMessages
        [(1699999990500, startToAlice.response.wellFormed)]).withoutEvent =
      (loadedPanel (utf8 "alice")).withoutEvent.onFrames
        [(1699999990500, startToAlice.response.message)] := by
  have hsent : startToAlice ∈ ((run Server.step .start bothJoined).receive (.plain 1699999990000) 0
      (.request centralServiceName (.of (.roundStart "room" ["two-sum"] 1700000000 30)))).2 := by
    decide +kernel
  refine onFrames_sent (loadedPanel (utf8 "alice")) [(1699999990500, startToAlice.response)] ?_
  intro message hmessage
  obtain rfl := List.mem_singleton.mp hmessage
  exact ⟨_, _, _, _, startToAlice, hsent, rfl⟩

end Panel

end Bsg.Extension
