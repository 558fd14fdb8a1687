import Bsg.Central.Membership
import Bsg.Foundations.Run

/-!
# What happens to the rooms

The requests to the room service, the tasks that its schedulers run, and a restart of
central-service, as the events of one system over the `World`. Each event comes with the environment
in which it happens, and a claim about some of the requests is about the runs of events of those
kinds.
-/

namespace Bsg.Central

open Bsg.Foundations

/-- An event for the rooms. -/
inductive RoomEvent where
  | joinRoom (roomID : RoomID) (userID : AuthID)
  | leaveRoom (roomID : RoomID) (userID : AuthID)
  | expireRoom (roomID : RoomID)
  | createRound (maxNumRoundsPerRoom : ℤ) (params : RoundCreationParameters) (roomID : RoomID)
  | setRoundDuration (roomID : RoomID) (userID : AuthID) (duration : ℤ)
  | startRound (roomID : RoomID) (userID : AuthID)
  | endRound (roomID : RoomID) (userID : AuthID)
  | createSubmission (roomID : RoomID) (params : RoundSubmissionParameters) (userID : AuthID)
  | runEndTask (task : EndTask)
  | restart
  deriving DecidableEq, Repr

/-- The task waits in the scheduler, and its time has come. -/
def EndTask.Due (task : EndTask) (env : Env) (w : World) : Prop :=
  task ∈ w.tasks ∧ task.due ≤ env.now * 10^9

instance (task : EndTask) (env : Env) (w : World) : Decidable (task.Due env w) :=
  inferInstanceAs (Decidable (_ ∧ _))

/-- The state after an event. The schedulers keep their tasks in memory, so a restart loses them. -/
def World.serve (w : World) (e : Env × RoomEvent) : World :=
  match e.2 with
  | .joinRoom roomID userID => ((joinRoom e.1 roomID userID).run w).2
  | .leaveRoom roomID userID => ((leaveRoom e.1 roomID userID).run w).2
  | .expireRoom roomID => ((expireRoom e.1 roomID).run w).2
  | .createRound maxNumRoundsPerRoom params roomID =>
    ((createRound e.1 maxNumRoundsPerRoom params roomID).run w).2
  | .setRoundDuration roomID userID duration =>
    ((setRoundDurationByRoomID e.1 roomID userID duration).run w).2
  | .startRound roomID userID => ((startRoundByRoomID e.1 roomID userID).run w).2
  | .endRound roomID userID => ((endRoundByRoomID e.1 roomID userID).run w).2
  | .createSubmission roomID params userID =>
    ((createRoomSubmission e.1 roomID params userID).run w).2
  | .runEndTask task => if task.Due e.1 w then ((fireEndTask e.1 task).run w).2 else w
  | .restart => { w with tasks := [], expiryTasks := [] }

/-- The event is a request to join or to leave a room. -/
def RoomEvent.isJoinOrLeave : RoomEvent → Bool
  | .joinRoom _ _ | .leaveRoom _ _ => true
  | _ => false

/-- The event changes who is in a room. -/
def RoomEvent.isMembership : RoomEvent → Bool
  | .joinRoom _ _ | .leaveRoom _ _ | .expireRoom _ => true
  | _ => false

end Bsg.Central
