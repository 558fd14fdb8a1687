import Bsg.Rtc.ChatManager

/-!
# Responses of rtc-service

What rtc-service sends over its connections (`response/`). The data of a response is a text or a
JSON document; here it is the record that the document encodes. A connection reads the type of a
response by its name on the wire, `ResponseType.name`.
-/

namespace Bsg.Rtc

open Bsg.Foundations

/-- `ResponseType` -/
inductive ResponseType where
  | systemAnnouncement
  | chatMessage
  | general
  | userJoined
  | userLeft
  | roundStart
  | roundJoin
  | nextProblem
  | roomExpired
  | adminChange
  deriving DecidableEq, Repr

/-- The name of a type in a message. -/
def ResponseType.name : ResponseType → String
  | systemAnnouncement => "system-announcement"
  | chatMessage => "chat-message"
  | general => "general"
  | userJoined => "user-joined"
  | userLeft => "user-left"
  | roundStart => "round-start"
  | roundJoin => "round-join"
  | nextProblem => "next-problem"
  | roomExpired => "room-expired"
  | adminChange => "admin-change"

/-- `ResponseStatus` -/
inductive ResponseStatus where
  | error
  | ok
  deriving DecidableEq, Repr

/-- `roundStartBroadcast` -/
structure RoundStartBroadcast where
  startTime : ℤ
  serverNow : ℤ
  duration : ℤ
  problems : List String
  deriving DecidableEq, Repr

/-- `joinRoundBroadcast` -/
structure JoinRoundBroadcast where
  userID : GoText
  userName : GoText
  roundStatus : RoundStatus
  startTime : ℤ
  serverNow : ℤ
  duration : ℤ
  problems : List String
  deriving DecidableEq, Repr

/-- `adminChangeBroadcast` -/
structure AdminChangeBroadcast where
  adminID : GoText
  adminName : GoText
  message : GoText
  deriving DecidableEq, Repr

/-- The data of a response: a text, or what its JSON document says. -/
inductive Data where
  | text (s : GoText)
  | chat (userHandle userName userPhoto message : GoText)
  | roundStart (b : RoundStartBroadcast)
  | joinRound (b : JoinRoundBroadcast)
  | adminChange (b : AdminChangeBroadcast)
  | nextProblem (nextProblem : String) (userHandle : GoText)
  deriving DecidableEq, Repr

/-- `responseMessage` -/
structure ResponseMessage where
  roomID : String
  data : Data
  userHandle : GoText
  userName : GoText
  userPhoto : GoText
  deriving DecidableEq, Repr

/-- `Response` -/
structure Response where
  respStatus : ResponseStatus
  respMessage : ResponseMessage
  respType : ResponseType
  deriving DecidableEq, Repr

/-- The types whose responses name the room. -/
def ResponseType.namesRoom (t : ResponseType) : Bool :=
  t = systemAnnouncement || t = chatMessage || t = adminChange || t = roundJoin ||
    t = roundStart || t = userJoined || t = userLeft

/-- `NewErrorResponse` -/
def newErrorResponse (responseType : ResponseType) (message : GoText) (roomID : String) :
    Response where
  respStatus := .error
  respMessage := ⟨if responseType.namesRoom then roomID else "", .text message, [], [], []⟩
  respType := responseType

/-- `NewOkResponse`: a chat message carries its sender beside its text. -/
def newOkResponse (responseType : ResponseType) (message : Data) (roomID : String) : Response where
  respStatus := .ok
  respMessage :=
    let room := if responseType.namesRoom then roomID else ""
    match responseType, message with
    | .chatMessage, .chat userHandle userName userPhoto text =>
      ⟨room, .text text, userHandle, userName, userPhoto⟩
    | _, message => ⟨room, message, [], [], []⟩
  respType := responseType

/-- The type of the response. -/
@[simp] theorem respType_newOkResponse (t : ResponseType) (d : Data) (roomID : String) :
    (newOkResponse t d roomID).respType = t := rfl

/-- Its status. -/
@[simp] theorem respStatus_newOkResponse (t : ResponseType) (d : Data) (roomID : String) :
    (newOkResponse t d roomID).respStatus = .ok := rfl

/-- The type of an error. -/
@[simp] theorem respType_newErrorResponse (t : ResponseType) (s : GoText) (roomID : String) :
    (newErrorResponse t s roomID).respType = t := rfl

/-- Its status. -/
@[simp] theorem respStatus_newErrorResponse (t : ResponseType) (s : GoText) (roomID : String) :
    (newErrorResponse t s roomID).respStatus = .error := rfl

end Bsg.Rtc
