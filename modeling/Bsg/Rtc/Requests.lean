import Bsg.Foundations.GoText

/-!
# Requests to rtc-service

The requests that central-service sends over its connection to rtc-service (`requests/`), with the
data each of them carries.
-/

namespace Bsg.Rtc

open Bsg.Foundations

/-- A request to rtc-service. -/
inductive Request where
  /-- `join-room`; the profanity filter is sent along by central-service only. -/
  | joinRoom (userHandle : GoText) (roomID : String) (userName : GoText)
      (suppressAnnouncement : Bool) (profanityFilter : Option Bool)
  /-- `leave-room` -/
  | leaveRoom (userHandle : GoText) (roomID : String) (userName : GoText)
  /-- `round-start`; the start time is in Unix seconds and the duration in minutes. -/
  | roundStart (roomID : String) (problemList : List String) (startTime duration : ℤ)
  /-- `round-end` -/
  | roundEnd (roomID : String)
  /-- `join-round` -/
  | joinRound (roomID : String) (userID userName : GoText)
  /-- `next-problem` -/
  | nextProblem (roomID : String) (problem : String) (userHandle : GoText)
  /-- `new-submission` -/
  | newSubmission (userHandle : GoText) (roomID problemID verdict : String)
  /-- `admin-change` -/
  | adminChange (roomID : String) (adminID adminName : GoText)
  /-- `room-expired` -/
  | roomExpired (roomID : String)
  deriving DecidableEq, Repr

/-- The room that a request names. -/
def Request.roomID : Request → String
  | .joinRoom _ r _ _ _ | .leaveRoom _ r _ | .roundStart r _ _ _ | .roundEnd r | .joinRound r _ _
  | .nextProblem r _ _ | .newSubmission _ r _ _ | .adminChange r _ _ | .roomExpired r => r

end Bsg.Rtc
