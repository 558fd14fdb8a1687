import Bsg.Foundations.JsonCodec
import Bsg.Rtc.Response

/-!
# Responses on the wire

A response is written as a JSON object, and what it says about a round, an admin or the next problem
is again a JSON object, which its data has as a text (`Response.message`). central-service reads a
response with the status, the type, the room and the texts that it was written with
(`readResponse_message`).
-/

namespace Bsg.Rtc

open Bsg.Foundations Json

/-! ## Data -/

/-- The name of a status of a round. -/
def RoundStatus.name : RoundStatus → String
  | notStarted => "not-started"
  | inProgress => "in-progress"
  | ended => "ended"

/-- A number in a document. -/
def number (n : ℤ) : Json := .num (integer n)

/-- A text of bytes in a document. -/
def textOfBytes (s : GoText) : Json := .str (runes s)

/-- A slice of texts in a document. -/
def texts (l : List String) : Json := .arr (l.map text)

def RoundStartBroadcast.document (b : RoundStartBroadcast) : Json := .obj [
  ("startTime".toList, number b.startTime),
  ("serverNow".toList, number b.serverNow),
  ("duration".toList, number b.duration),
  ("problems".toList, texts b.problems)]

/-- Where no round was started, the slice of the problems is nil. -/
def JoinRoundBroadcast.document (b : JoinRoundBroadcast) : Json := .obj [
  ("userID".toList, textOfBytes b.userID),
  ("userName".toList, textOfBytes b.userName),
  ("roundStatus".toList, text b.roundStatus.name),
  ("startTime".toList, number b.startTime),
  ("serverNow".toList, number b.serverNow),
  ("duration".toList, number b.duration),
  ("problems".toList,
    if b.roundStatus = .notStarted ∧ b.problems = [] then .null else texts b.problems)]

def AdminChangeBroadcast.document (b : AdminChangeBroadcast) : Json := .obj [
  ("adminId".toList, textOfBytes b.adminID),
  ("adminName".toList, textOfBytes b.adminName),
  ("message".toList, textOfBytes b.message)]

/-- `json.Marshal` for the map of a chat message, in the order of its keys -/
def chatDocument (userHandle userName userPhoto message : GoText) : Json := .obj [
  ("message".toList, textOfBytes message),
  ("userHandle".toList, textOfBytes userHandle),
  ("userName".toList, textOfBytes userName),
  ("userPhoto".toList, textOfBytes userPhoto)]

/-- `json.Marshal` for the map of a next problem -/
def nextProblemDocument (problem : String) (userHandle : GoText) : Json := .obj [
  ("nextProblem".toList, text problem),
  ("userHandle".toList, textOfBytes userHandle)]

/-- The text of a document. -/
def written (j : Json) : GoText := encode (render j)

/-- The text of some data, as a handler returns it. -/
def Data.raw : Data → GoText
  | text s => s
  | chat userHandle userName userPhoto message =>
    written (chatDocument userHandle userName userPhoto message)
  | roundStart b => written b.document
  | joinRound b => written b.document
  | adminChange b => written b.document
  | nextProblem problem userHandle => written (nextProblemDocument problem userHandle)

/-- The data with its texts well-formed. -/
def Data.wellFormed : Data → Data
  | text s => text s.wellFormed
  | chat userHandle userName userPhoto message =>
    chat userHandle.wellFormed userName.wellFormed userPhoto.wellFormed message.wellFormed
  | roundStart b => roundStart b
  | joinRound b =>
    joinRound { b with userID := b.userID.wellFormed, userName := b.userName.wellFormed }
  | adminChange b => adminChange
    ⟨b.adminID.wellFormed, b.adminName.wellFormed, b.message.wellFormed⟩
  | nextProblem problem userHandle => nextProblem problem userHandle.wellFormed

/-! ## Responses -/

/-- The name of a status in a message. -/
def ResponseStatus.name : ResponseStatus → String
  | error => "error"
  | ok => "ok"

/-- `responseMessage`, with the data as a text. -/
structure RawMessage where
  roomID : String
  data : GoText
  userHandle : GoText
  userName : GoText
  userPhoto : GoText
  deriving DecidableEq, Repr

/-- `Response`, with the data as a text. -/
structure RawResponse where
  respStatus : String
  respMessage : RawMessage
  respType : String
  deriving DecidableEq, Repr

def RawMessage.layout : Layout RawMessage where
  members := [
    Codec.string.member "roomID" roomID fun v m => { m with roomID := v },
    Codec.bytes.member "data" data fun v m => { m with data := v },
    Codec.bytes.member "userHandle" userHandle fun v m => { m with userHandle := v },
    Codec.bytes.member "userName" userName fun v m => { m with userName := v },
    Codec.bytes.member "userPhoto" userPhoto fun v m => { m with userPhoto := v }]
  keys := by decide
  nesting := by decide

/-- The message with its texts well-formed. -/
def RawMessage.wellFormed (m : RawMessage) : RawMessage where
  roomID := m.roomID
  data := m.data.wellFormed
  userHandle := m.userHandle.wellFormed
  userName := m.userName.wellFormed
  userPhoto := m.userPhoto.wellFormed

def RawMessage.codec : Codec RawMessage :=
  .record layout wellFormed (fun _ _ => rfl) 0 (by decide)

def RawResponse.layout : Layout RawResponse where
  members := [
    Codec.string.member "status" respStatus fun v r => { r with respStatus := v },
    RawMessage.codec.member "message" respMessage fun v r => { r with respMessage := v },
    Codec.string.member "responseType" respType fun v r => { r with respType := v }]
  keys := by decide
  nesting := by decide

/-- A response with its data as a text. -/
def Response.raw (r : Response) : RawResponse where
  respStatus := r.respStatus.name
  respMessage := ⟨r.respMessage.roomID, r.respMessage.data.raw, r.respMessage.userHandle,
    r.respMessage.userName, r.respMessage.userPhoto⟩
  respType := r.respType.name

/-- A response with its texts well-formed. -/
def Response.wellFormed (r : Response) : Response :=
  { r with respMessage := ⟨r.respMessage.roomID, r.respMessage.data.wellFormed,
      r.respMessage.userHandle.wellFormed, r.respMessage.userName.wellFormed,
      r.respMessage.userPhoto.wellFormed⟩ }

/-- `Message` -/
def Response.message (r : Response) : GoText := RawResponse.layout.marshal r.raw

/-- What `IngressHandler` reads of a message, if it can. -/
def readResponse (message : GoText) : Option RawResponse :=
  let read := RawResponse.layout.unmarshal ⟨"", ⟨"", [], [], [], []⟩, ""⟩ message
  if read.2 then some read.1 else none

/-- central-service reads a response as it was written, with its texts well-formed. -/
theorem readResponse_message (r : Response) : readResponse r.message =
    some ⟨r.respStatus.name, r.raw.respMessage.wellFormed, r.respType.name⟩ := by
  have hfits : RawResponse.layout.Fits r.raw :=
    ⟨trivial, ⟨trivial, trivial, trivial, trivial, trivial⟩, trivial⟩
  unfold readResponse Response.message
  rw [RawResponse.layout.unmarshal_marshal hfits]
  rfl

end Bsg.Rtc
