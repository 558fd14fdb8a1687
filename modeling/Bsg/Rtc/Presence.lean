import Bsg.Rtc.Service
import Bsg.Foundations.Interleave

/-!
# Joins and leaves in pieces

The handlers of `join-room` and `leave-room` call the rooms several times, and each of these calls
holds a lock of its own (`requests/join-room-request.go`, `requests/leave-room-request.go`). A
handler keeps a pointer to the room that it found, and the room may be removed, or another one
created, before it uses the pointer. `Memory` has the rooms of one id by their pointers, and a piece
of a handler is one of its calls.

`RoomRequest.alone` is what a handler does when no other one runs, which is what `handleJoinRoom`
and `handleLeaveRoom` say. `Serializable` says of a state that the handlers did together what they
do one after the other in some order, and `StillSo` says of a piece that what its handler found
still holds when it acts on it.
-/

namespace Bsg.Rtc

open Bsg.Foundations

/-! ## Requests -/

/-- A `JoinRoomRequest` for the room, and the service that sends it. -/
structure JoinRoom where
  service : GoText
  userHandle : GoText
  userName : GoText
  suppressAnnouncement : Bool
  profanityFilter : Option Bool

/-- A `LeaveRoomRequest` for the room. -/
structure LeaveRoom where
  userHandle : GoText
  userName : GoText

/-- A request to join or to leave the room. -/
inductive RoomRequest where
  | join (r : JoinRoom)
  | leave (r : LeaveRoom)

/-- The fields that the validator requires of a join. -/
def JoinRoom.required (r : JoinRoom) (roomID : String) : List (String × Bool) :=
  [("UserHandle", r.userHandle ≠ []), ("RoomID", roomID ≠ "")]

/-- The required fields are there. -/
def JoinRoom.Complete (r : JoinRoom) (roomID : String) : Prop := r.userHandle ≠ [] ∧ roomID ≠ ""

/-- The filter that a join sets, if it may set one. -/
def JoinRoom.setting (r : JoinRoom) : Option Bool :=
  if r.service = centralServiceName then r.profanityFilter else none

/-- What a join announces: nothing for a user who is back, nor when it is told not to. -/
def JoinRoom.announcement (r : JoinRoom) (rejoin : Bool) : GoText :=
  if rejoin then []
  else if r.suppressAnnouncement then []
  else
    let name := if r.userName = [] then r.userHandle else r.userName
    (if name = [] then utf8 "A user" else name) ++ utf8 " joined the room"

/-- What a leave announces. -/
def LeaveRoom.announcement (r : LeaveRoom) : GoText :=
  (if r.userName = [] then utf8 "A user" else r.userName) ++ utf8 " left the room"

/-! ## The rooms of one id -/

/-- The rooms with one id, by their pointers. -/
structure Memory where
  object : ℕ → HistoryRoom
  /-- The pointer of the next room. -/
  fresh : ℕ
  /-- The rooms with this id in `ChatManager.Rooms`. -/
  registered : List ℕ
  /-- Who was the last to leave a room; the code does not keep it. -/
  lastLeft : ℕ → Option GoText

namespace Memory

/-- `GetRoom`: the rooms are searched in any order. -/
def getRoom (m : Memory) (a : Arrangement ℕ) : Option ℕ := (a.order m.registered).head?

/-- A new room, that nobody is in. -/
def newRoom (m : Memory) : Memory where
  object := Function.update m.object m.fresh .empty
  fresh := m.fresh + 1
  registered := m.registered
  lastLeft := Function.update m.lastLeft m.fresh none

/-- `CreateRoom`: a room is not registered twice, which is asked about its pointer. -/
def createRoom (m : Memory) (room : ℕ) : Memory :=
  if room ∈ m.registered then m else { m with registered := room :: m.registered }

/-- Changes a room. -/
def onObject (m : Memory) (room : ℕ) (f : Room → Room) : Memory :=
  { m with object := Function.update m.object room ((m.object room).onRoom f) }

/-- `SetProfanityFilter` -/
def setProfanityFilter (m : Memory) (room : ℕ) (enabled : Bool) : Memory :=
  m.onObject room fun r => { r with profanityFilter := enabled }

/-- `GetUser`, of which only is asked whether there is one. -/
def hasUser (m : Memory) (room : ℕ) (handle : GoText) : Bool :=
  (m.object room).users.contains handle

/-- `AddUser` -/
def addUser (m : Memory) (room : ℕ) (handle : GoText) : Memory :=
  m.onObject room fun r => r.addUser handle

/-- `RemoveUser` -/
def removeUser (m : Memory) (room : ℕ) (handle : GoText) : Memory :=
  { m.onObject room fun r => r.removeUser handle with
    lastLeft := Function.update m.lastLeft room (some handle) }

/-- `IsEmpty` -/
def isEmpty (m : Memory) (room : ℕ) : Bool := (m.object room).users = []

/-- `RemoveRoom`: only a room that is empty. -/
def removeRoom (m : Memory) (room : ℕ) : Memory :=
  if m.isEmpty room then { m with registered := m.registered.filter (· ≠ room) } else m

/-- The room that is found, when there is at most one. -/
def current (m : Memory) : Option HistoryRoom := m.registered.head?.map m.object

end Memory

/-! ## The pieces -/

/-- The calls of a join, each at which it may be interrupted. -/
inductive JoinPoint where
  | getRoom
  | createRoom
  | setFilter (room : ℕ)
  | getUser (room : ℕ)
  | addUser (room : ℕ) (rejoin : Bool)

/-- The calls of a leave. -/
inductive LeavePoint where
  | getRoom
  | getUser (room : ℕ)
  | removeUser (room : ℕ)
  | isEmpty (room : ℕ)
  | removeRoom (room : ℕ)

/-- A request, and the call that it makes next. -/
inductive HandlerPoint where
  | join (r : JoinRoom) (call : JoinPoint)
  | leave (r : LeaveRoom) (call : LeavePoint)

/-- `JoinRoomRequest.Handle` -/
def joinPiece (roomID : String) (a : Arrangement ℕ) (r : JoinRoom) :
    JoinPoint → Call Memory GoText (HandlerPoint ⊕ GoText)
  | .getRoom =>
    match validate "JoinRoomRequest" (r.required roomID) with
    | some err => Call.fail err
    | none => do
      match ← Call.read fun m => m.getRoom a with
      | none => pure (.inl (.join r .createRoom))
      | some room => pure (.inl (.join r (.setFilter room)))
  | .createRoom => do
    let room ← Call.read Memory.fresh
    Call.write fun m => m.newRoom.createRoom room
    pure (.inl (.join r (.setFilter room)))
  | .setFilter room => do
    match r.setting with
    | none => pure ()
    | some enabled => Call.write fun m => m.setProfanityFilter room enabled
    pure (.inl (.join r (.getUser room)))
  | .getUser room => do
    let rejoin ← Call.read fun m => m.hasUser room r.userHandle
    pure (.inl (.join r (.addUser room rejoin)))
  | .addUser room rejoin => do
    Call.write fun m => m.addUser room r.userHandle
    pure (.inr (r.announcement rejoin))

/-- `LeaveRoomRequest.Handle` -/
def leavePiece (a : Arrangement ℕ) (r : LeaveRoom) :
    LeavePoint → Call Memory GoText (HandlerPoint ⊕ GoText)
  | .getRoom => do
    match ← Call.read fun m => m.getRoom a with
    | none => Call.fail (utf8 "room doesn't exist")
    | some room => pure (.inl (.leave r (.getUser room)))
  | .getUser room => do
    if ← Call.read fun m => m.hasUser room r.userHandle then
      pure (.inl (.leave r (.removeUser room)))
    else Call.fail (utf8 "user doesn't exist")
  | .removeUser room => do
    Call.write fun m => m.removeUser room r.userHandle
    pure (.inl (.leave r (.isEmpty room)))
  | .isEmpty room => do
    if ← Call.read fun m => m.isEmpty room then pure (.inl (.leave r (.removeRoom room)))
    else pure (.inr r.announcement)
  | .removeRoom room => do
    Call.write fun m => m.removeRoom room
    pure (.inr r.announcement)

/-- A piece of a handler; the rooms are searched in the order `a`. -/
def handlerPiece (roomID : String) (a : Arrangement ℕ) :
    HandlerPoint → Call Memory GoText (HandlerPoint ⊕ GoText)
  | .join r call => joinPiece roomID a r call
  | .leave r call => leavePiece a r call

/-- Where a handler begins. -/
def RoomRequest.point : RoomRequest → HandlerPoint
  | .join r => .join r .getRoom
  | .leave r => .leave r .getRoom

/-! ## Handlers at the same time -/

/-- A room with somebody in it. Any other room has been removed. -/
structure OccupiedRoom extends HistoryRoom where
  occupied : users ≠ []

/-- Any number of handlers that share the rooms. -/
abbrev Presence := Concurrent Memory HandlerPoint GoText GoText

/-- The rooms before any handler has begun. -/
def Memory.start : Option HistoryRoom → Memory
  | none => ⟨fun _ => .empty, 0, [], fun _ => none⟩
  | some room => ⟨Function.update (fun _ => .empty) 0 room, 1, [0], fun _ => none⟩

/-- No handler has begun. -/
def Presence.start (requests : ℕ → RoomRequest) (room : Option OccupiedRoom) : Presence :=
  ⟨.start (room.map fun r => r.toHistoryRoom), fun i => .running (requests i).point⟩

/-- One of the handlers makes its next call. -/
def Presence.step (roomID : String) : Presence → Arrangement ℕ × ℕ → Presence :=
  Concurrent.step fun a _ => handlerPiece roomID a

/-- What a handler has answered: an announcement, which may be empty, or nothing because of an
error. A leave that has removed its user can only announce that. -/
def answered : Progress HandlerPoint GoText GoText → Option GoText
  | .returned (.ok text) => some text
  | .running (.leave r (.isEmpty _)) | .running (.leave r (.removeRoom _)) => some r.announcement
  | _ => none

/-- What the handlers have answered. -/
def Presence.answer (c : Presence) (i : ℕ) : Option GoText := answered (c.progress i)

/-- No handler is under way. -/
def Presence.Settled (requests : ℕ → RoomRequest) (c : Presence) : Prop :=
  ∀ i k, c.progress i = .running k → k = (requests i).point

/-! ## One after the other -/

/-- What the handler of a request does to the rooms, and what it returns. -/
def RoomRequest.handle (roomID : String) (rooms : Rooms) : RoomRequest → Rooms × Handled
  | .join r => handleJoinRoom r.service rooms r.userHandle roomID r.userName r.suppressAnnouncement
      r.profanityFilter
  | .leave r => handleLeaveRoom rooms r.userHandle roomID r.userName

/-- The announcement that is returned, when it is no error. -/
def Handled.announcement? (h : Handled) : Option GoText :=
  match h.result with
  | .ok (.text text) => some text
  | _ => none

/-- What a handler that runs alone makes of the room, and what it announces. -/
def RoomRequest.alone (roomID : String) (room : Option HistoryRoom) (r : RoomRequest) :
    Option HistoryRoom × Option GoText :=
  let out := r.handle roomID (Function.update (fun _ => none) roomID room)
  (out.1 roomID, out.2.announcement?)

/-- Handlers that run one after the other make the room `b` of the room `a`, with these answers. -/
def Serves (requests : ℕ → RoomRequest) (roomID : String) (answer : ℕ → Option GoText) :
    Option HistoryRoom → List ℕ → Option HistoryRoom → Prop
  | a, [], b => a = b
  | a, i :: is, b => ((requests i).alone roomID a).2 = answer i ∧
      Serves requests roomID answer ((requests i).alone roomID a).1 is b

/-- The request is a join of the user that is announced. -/
def announcesJoin (requests : ℕ → RoomRequest) (answer : ℕ → Option GoText) (handle : GoText)
    (i : ℕ) : Bool :=
  match requests i with
  | .join r => r.userHandle = handle && (answer i).any fun text => text ≠ []
  | .leave _ => false

/-- The request is a leave of the user that is announced. -/
def announcesLeave (requests : ℕ → RoomRequest) (answer : ℕ → Option GoText) (handle : GoText)
    (i : ℕ) : Bool :=
  match requests i with
  | .join _ => false
  | .leave r => r.userHandle = handle && (answer i).isSome

/-- The user is in the room, if there is one. -/
def within (handle : GoText) (room : Option HistoryRoom) : Bool :=
  room.any fun r => r.users.contains handle

/-- No join of the user is told to be silent. -/
def Aloud (requests : ℕ → RoomRequest) (handle : GoText) : Prop :=
  ∀ i r, requests i = .join r → r.userHandle = handle → r.suppressAnnouncement = false

/-- Every stay of the user that begins is announced once, and every one that ends. -/
def StaysAnnounced (requests : ℕ → RoomRequest) (answer : ℕ → Option GoText)
    (a b : Option HistoryRoom) (order : List ℕ) (handle : GoText) : Prop :=
  (within handle a).toNat + order.countP (announcesJoin requests answer handle) =
    (within handle b).toNat + order.countP (announcesLeave requests answer handle)

/-- There is one room at most, and nobody is in a room that is not registered. When no handler is
under way, those that have returned did what they do one after the other in some order, and every
stay of a user is announced, unless a join of his is told not to. -/
structure Serializable (requests : ℕ → RoomRequest) (roomID : String) (room : Option OccupiedRoom)
    (c : Presence) : Prop where
  single : c.shared.registered.length ≤ 1
  nobody : ∀ p ∉ c.shared.registered, (c.shared.object p).users = []
  serial : c.Settled requests → ∃ order : List ℕ, order.Nodup ∧
    (∀ i, i ∈ order ↔ ∃ o, c.progress i = .returned o) ∧
    Serves requests roomID c.answer (room.map fun r => r.toHistoryRoom) order c.shared.current ∧
    ∀ handle, Aloud requests handle →
      StaysAnnounced requests c.answer (room.map fun r => r.toHistoryRoom) c.shared.current order
        handle

/-! ## What a handler has found -/

/-- What a join has found still holds when it adds its user: the room is registered, the user is in
it or not as before, the filter is as it was set, and it is not this user who left it empty. -/
structure Memory.Admits (m : Memory) (r : JoinRoom) (room : ℕ) (rejoin : Bool) : Prop where
  registered : room ∈ m.registered
  same : r.suppressAnnouncement = true ∨ rejoin = m.hasUser room r.userHandle
  filter : r.setting.getD (m.object room).profanityFilter = (m.object room).profanityFilter
  another : (m.object room).users = [] → m.lastLeft room ≠ some r.userHandle

instance (m : Memory) (r : JoinRoom) (room : ℕ) (rejoin : Bool) :
    Decidable (m.Admits r room rejoin) :=
  decidable_of_iff (room ∈ m.registered ∧
    (r.suppressAnnouncement = true ∨ rejoin = m.hasUser room r.userHandle) ∧
    r.setting.getD (m.object room).profanityFilter = (m.object room).profanityFilter ∧
    ((m.object room).users = [] → m.lastLeft room ≠ some r.userHandle))
    ⟨fun h => ⟨h.1, h.2.1, h.2.2.1, h.2.2.2⟩, fun h => ⟨h.1, h.2, h.3, h.4⟩⟩

/-- What a handler has found still holds when it makes a call: there is no room when it creates one,
a join may add its user, and the user of a leave is in the room. -/
def Memory.StillSo (m : Memory) : HandlerPoint → Prop
  | .join _ .createRoom => m.registered = []
  | .join r (.addUser room rejoin) => m.Admits r room rejoin
  | .leave r (.removeUser room) => m.hasUser room r.userHandle = true
  | _ => True

instance (m : Memory) : ∀ k, Decidable (m.StillSo k)
  | .join _ .createRoom => inferInstanceAs (Decidable (m.registered = []))
  | .join r (.addUser room rejoin) => inferInstanceAs (Decidable (m.Admits r room rejoin))
  | .leave r (.removeUser room) =>
    inferInstanceAs (Decidable (m.hasUser room r.userHandle = true))
  | .join _ .getRoom | .join _ (.setFilter _) | .join _ (.getUser _) | .leave _ .getRoom
  | .leave _ (.getUser _) | .leave _ (.isEmpty _) | .leave _ (.removeRoom _) =>
    inferInstanceAs (Decidable True)

/-- The handler whose turn it is acts on what still holds. -/
def Presence.StillSo (c : Presence) (e : Arrangement ℕ × ℕ) : Prop :=
  ∀ k ∈ (c.progress e.2).point?, c.shared.StillSo k

instance (c : Presence) (e : Arrangement ℕ × ℕ) : Decidable (c.StillSo e) :=
  inferInstanceAs (Decidable (∀ k ∈ (c.progress e.2).point?, c.shared.StillSo k))

end Bsg.Rtc
