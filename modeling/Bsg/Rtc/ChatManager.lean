import Bsg.Rtc.Requests
import Mathlib.Logic.Function.Basic

/-!
# Rooms of rtc-service

The rooms that rtc-service keeps (`chatmanager/`) and what its request handlers do to them. A room
exists from the first `join-room` that names it until its last user leaves or it expires. Its round
is the copy that rtc-service has of the round running in central-service: `round-start` replaces it
by a fresh one that is in progress, and `round-end` marks it ended, whichever round it is. The state
after a list of requests is a fold of `handle` over it.
-/

namespace Bsg.Rtc

open Bsg.Foundations

/-- `RoundStatus` -/
inductive RoundStatus where
  | notStarted
  | inProgress
  | ended
  deriving DecidableEq, Repr

/-- `Round`: the state of a single room's round. -/
structure Round where
  status : RoundStatus
  startTime : ℤ
  duration : ℤ
  problems : List String
  /-- Users taking part in the round. -/
  participants : List GoText
  deriving DecidableEq, Repr

/-- `Room`: users and round of a room; the round is missing until one is started. -/
structure Room where
  users : List GoText
  round : Option Round
  profanityFilter : Bool
  deriving DecidableEq, Repr

/-- `ChatManager`: the rooms by their id. -/
abbrev ChatManager := String → Option Room

namespace Room

/-- `addUser`: a user that is there already stays. -/
def addUser (r : Room) (handle : GoText) : Room :=
  if handle ∈ r.users then r else { r with users := handle :: r.users }

/-- `removeUser` -/
def removeUser (r : Room) (handle : GoText) : Room :=
  { r with users := r.users.filter (· ≠ handle) }

/-- `startRound`: replaces any existing round with a fresh one that is in progress. -/
def startRound (r : Room) (startTime duration : ℤ) (problems : List String) : Room :=
  { r with round := some ⟨.inProgress, startTime, duration, problems, []⟩ }

/-- `joinRound`: registers a participant once. -/
def joinRound (r : Room) (userID : GoText) : Room :=
  match r.round with
  | none => r
  | some round =>
    if userID ∈ round.participants then r
    else { r with round := some { round with participants := userID :: round.participants } }

/-- `endRound`: marks the round finished, whatever its status was. -/
def endRound (r : Room) : Room :=
  match r.round with
  | none => r
  | some round => { r with round := some { round with status := .ended } }

/-- `RoundInfo.Status`, as `joinRound` reports it. -/
def roundStatus (r : Room) : RoundStatus :=
  match r.round with
  | none => .notStarted
  | some round => round.status

/-- A started round is in progress. -/
@[simp] theorem roundStatus_startRound (r : Room) (t d : ℤ) (ps : List String) :
    (r.startRound t d ps).roundStatus = .inProgress := rfl

/-- Joining a round leaves its status. -/
@[simp] theorem roundStatus_joinRound (r : Room) (u : GoText) :
    (r.joinRound u).roundStatus = r.roundStatus := by
  obtain ⟨users, round, filter⟩ := r
  cases round with
  | none => rfl
  | some round => by_cases h : u ∈ round.participants <;> simp [joinRound, roundStatus, h]

end Room

/-- Runs a function on a room that exists; a request for another room does nothing. -/
def ChatManager.onRoom (m : ChatManager) (roomID : String) (f : Room → Room) : ChatManager :=
  match m roomID with
  | none => m
  | some r => Function.update m roomID (some (f r))

/-- What a request from central-service does to the rooms: the work of its handler, and the removal
of an expired room after that was broadcast. A request without a required field is refused. -/
def handle (m : ChatManager) : Request → ChatManager
  | .joinRoom userHandle roomID _ _ profanityFilter =>
    if userHandle = [] ∨ roomID = "" then m
    else
      let room := (m roomID).getD ⟨[], none, false⟩
      let room := { room with profanityFilter := profanityFilter.getD room.profanityFilter }
      Function.update m roomID (some (room.addUser userHandle))
  | .leaveRoom userHandle roomID _ =>
    match m roomID with
    | none => m
    | some room =>
      if userHandle ∈ room.users then
        if (room.removeUser userHandle).users = [] then Function.update m roomID none
        else Function.update m roomID (some (room.removeUser userHandle))
      else m
  | .roundStart roomID problemList startTime duration =>
    if roomID = "" then m else m.onRoom roomID fun r => r.startRound startTime duration problemList
  | .roundEnd roomID => if roomID = "" then m else m.onRoom roomID Room.endRound
  | .joinRound roomID userID _ =>
    if roomID = "" ∨ userID = [] then m else m.onRoom roomID fun r => r.joinRound userID
  | .nextProblem _ _ _ | .newSubmission _ _ _ _ | .adminChange _ _ _ => m
  | .roomExpired roomID => if roomID = "" then m else Function.update m roomID none

/-- The rooms after a list of requests. -/
def handleAll (m : ChatManager) (rs : List Request) : ChatManager := rs.foldl handle m

/-- Requests are handled in their order. -/
@[simp] theorem handleAll_append (m : ChatManager) (rs rs' : List Request) :
    handleAll m (rs ++ rs') = handleAll (handleAll m rs) rs' := List.foldl_append

/-- Without requests nothing happens. -/
@[simp] theorem handleAll_nil (m : ChatManager) : handleAll m [] = m := rfl

/-- The first request is handled first. -/
@[simp] theorem handleAll_cons (m : ChatManager) (r : Request) (rs : List Request) :
    handleAll m (r :: rs) = handleAll (handle m r) rs := rfl

/-! ## The round of a room -/

/-- The status of a room's round; a room that does not exist has none. -/
def ChatManager.roundStatus (m : ChatManager) (roomID : String) : Option RoundStatus :=
  (m roomID).map Room.roundStatus

/-- The room is changed. -/
theorem ChatManager.onRoom_self (m : ChatManager) (roomID : String) (f : Room → Room) :
    m.onRoom roomID f roomID = (m roomID).map f := by
  unfold onRoom
  cases h : m roomID with
  | none => exact h
  | some r => exact Function.update_self _ _ _

/-- The other rooms are left as they are. -/
theorem ChatManager.onRoom_of_ne (m : ChatManager) {roomID id : String} (h : roomID ≠ id)
    (f : Room → Room) : m.onRoom id f roomID = m roomID := by
  unfold onRoom
  cases m id with
  | none => rfl
  | some r => exact Function.update_of_ne h _ _

/-- A user who takes part leaves the status. -/
theorem roundStatus_joinRound (m : ChatManager) (roomID : String) (userID userName : GoText) :
    (handle m (.joinRound roomID userID userName)).roundStatus roomID = m.roundStatus roomID := by
  unfold ChatManager.roundStatus
  dsimp only [handle]
  split
  · rfl
  · rw [ChatManager.onRoom_self, Option.map_map]
    exact congrArg (fun f => (m roomID).map f) (funext fun r => r.roundStatus_joinRound userID)

/-- A start puts the round of a room that exists in progress. -/
theorem roundStatus_roundStart (m : ChatManager) {roomID : String} (h : roomID ≠ "")
    (problemList : List String) (startTime duration : ℤ) :
    (handle m (.roundStart roomID problemList startTime duration)).roundStatus roomID =
      (m.roundStatus roomID).map fun _ => .inProgress := by
  unfold ChatManager.roundStatus
  dsimp only [handle]
  rw [if_neg h, ChatManager.onRoom_self, Option.map_map, Option.map_map]
  rfl

/-! ## What a request does to the rooms -/

/-- Not a join that names a user and a room. -/
def Request.NoJoin (r : Request) : Prop :=
  ∀ userHandle id userName suppress filter,
    r = .joinRoom userHandle id userName suppress filter → userHandle = [] ∨ id = ""

/-- The rooms before and after a request. What is done to the round of a room leaves its users and
its filter. -/
inductive Turns (m : ChatManager) : Request → ChatManager → Prop where
  | nothing (r : Request) (hjoin : r.NoJoin) : Turns m r m
  | join (userHandle : GoText) (id : String) (userName : GoText) (suppress : Bool)
      (filter : Option Bool) (hhandle : userHandle ≠ []) (hid : id ≠ "") :
      Turns m (.joinRoom userHandle id userName suppress filter)
        (Function.update m id (some ({ (m id).getD ⟨[], none, false⟩ with
          profanityFilter := filter.getD ((m id).getD ⟨[], none, false⟩).profanityFilter }.addUser
            userHandle)))
  | leave (userHandle : GoText) (id : String) (userName : GoText) (room : Room)
      (hroom : m id = some room) (huser : userHandle ∈ room.users) :
      Turns m (.leaveRoom userHandle id userName)
        (Function.update m id (if (room.removeUser userHandle).users = [] then none
          else some (room.removeUser userHandle)))
  | round (r : Request) (f : Room → Room) (hjoin : r.NoJoin) (husers : ∀ x, (f x).users = x.users)
      (hfilter : ∀ x, (f x).profanityFilter = x.profanityFilter) :
      Turns m r (m.onRoom r.roomID f)
  | expire (id : String) : Turns m (.roomExpired id) (Function.update m id none)

/-- The end of a round leaves the users and the filter. -/
theorem Room.endRound_frame (r : Room) :
    r.endRound.users = r.users ∧ r.endRound.profanityFilter = r.profanityFilter := by
  obtain ⟨users, round, filter⟩ := r
  cases round <;> exact ⟨rfl, rfl⟩

/-- So does joining a round. -/
theorem Room.joinRound_frame (r : Room) (userID : GoText) :
    (r.joinRound userID).users = r.users ∧
      (r.joinRound userID).profanityFilter = r.profanityFilter := by
  obtain ⟨users, round, filter⟩ := r
  cases round with
  | none => exact ⟨rfl, rfl⟩
  | some round =>
    dsimp only [Room.joinRound]
    split_ifs <;> exact ⟨rfl, rfl⟩

/-- What `handle` does. -/
theorem turns_handle (m : ChatManager) (r : Request) : Turns m r (handle m r) := by
  cases r with
  | joinRoom userHandle id userName suppress filter =>
    dsimp only [handle]
    split_ifs with hmissing
    · refine .nothing _ ?_
      rintro _ _ _ _ _ ⟨⟩
      exact hmissing
    · rw [not_or] at hmissing
      exact .join userHandle id userName suppress filter hmissing.1 hmissing.2
  | leaveRoom userHandle id userName =>
    dsimp only [handle]
    cases hroom : m id with
    | none => exact .nothing _ (by rintro _ _ _ _ _ ⟨⟩)
    | some room =>
      dsimp only
      by_cases huser : userHandle ∈ room.users
      · -- Whether the room stays depends on whether he was its last user.
        rw [if_pos huser, ← apply_ite]
        exact .leave userHandle id userName room hroom huser
      · rw [if_neg huser]
        exact .nothing _ (by rintro _ _ _ _ _ ⟨⟩)
  | roundStart id problemList startTime duration =>
    dsimp only [handle]
    split_ifs
    · exact .nothing _ (by rintro _ _ _ _ _ ⟨⟩)
    · exact .round (.roundStart id problemList startTime duration) _ (by rintro _ _ _ _ _ ⟨⟩)
        (fun _ => rfl) (fun _ => rfl)
  | roundEnd id =>
    dsimp only [handle]
    split_ifs
    · exact .nothing _ (by rintro _ _ _ _ _ ⟨⟩)
    · exact .round (.roundEnd id) _ (by rintro _ _ _ _ _ ⟨⟩)
        (fun x => x.endRound_frame.1) (fun x => x.endRound_frame.2)
  | joinRound id userID userName =>
    dsimp only [handle]
    split_ifs
    · exact .nothing _ (by rintro _ _ _ _ _ ⟨⟩)
    · exact .round (.joinRound id userID userName) _ (by rintro _ _ _ _ _ ⟨⟩)
        (fun x => (x.joinRound_frame userID).1) (fun x => (x.joinRound_frame userID).2)
  | nextProblem id problem userHandle => exact .nothing _ (by rintro _ _ _ _ _ ⟨⟩)
  | newSubmission userHandle id problemID verdict => exact .nothing _ (by rintro _ _ _ _ _ ⟨⟩)
  | adminChange id adminID adminName => exact .nothing _ (by rintro _ _ _ _ _ ⟨⟩)
  | roomExpired id =>
    dsimp only [handle]
    split_ifs
    · exact .nothing _ (by rintro _ _ _ _ _ ⟨⟩)
    · exact .expire id

/-- A request is about the room that it names. -/
theorem handle_of_ne {m : ChatManager} {r : Request} {roomID : String} (h : r.roomID ≠ roomID) :
    handle m r roomID = m roomID := by
  have hturns := turns_handle m r
  generalize handle m r = m' at hturns ⊢
  cases hturns with
  | nothing r hjoin => rfl
  | join userHandle id userName suppress filter hhandle hid => exact Function.update_of_ne h.symm _ _
  | leave userHandle id userName room hroom huser => exact Function.update_of_ne h.symm _ _
  | round r f hjoin husers hfilter => exact m.onRoom_of_ne h.symm f
  | expire id => exact Function.update_of_ne h.symm _ _

end Bsg.Rtc
