import Bsg.Central.RoomSteps
import Bsg.Central.Users

/-!
# New rooms and their short codes

`CreateRoom` and `FindRoomByShortCode` of `services/room.go`. A room has a short code besides its
id, of six letters and digits, by which it may be joined. Only these two functions and the endpoint
for joining know of it, so it is kept beside the state of the services: a `Site` is that state with
the short codes of the rooms.
-/

namespace Bsg.Central

open Bsg.Foundations

/-- The state of the services with the column `short_code` of the rooms. -/
structure Site where
  world : World
  shortCode : RoomID → String

/-- A function of central-service that may use the short codes. -/
abbrev SiteService (α : Type) := Call Site GoError α

/-- A service function, which leaves the short codes alone. -/
def onSite {α : Type} (x : Service α) : SiteService α where
  run s := ((x.run s.world).1, { s with world := (x.run s.world).2 })

/-- A call on the world raises what it raises on the site. -/
theorem raises_onSite {α : Type} {p : GoError → Prop} {x : Service α} (h : Call.Raises p x) :
    Call.Raises p (onSite x) := fun s e he => h s.world e he

/-- The environment of a request to the endpoints of rooms. -/
structure SiteEnv extends Env where
  maxNumRoundsPerRoom : ℤ
  /-- The id that `uuid.New` draws. -/
  newRoomID : RoomID
  isUUID_newRoomID : isUUID newRoomID = true
  /-- The short codes that `generateShortCode` draws, each with whether the query about it fails. -/
  candidates : List (String × Bool)
  insertRoom : Bool
  scheduleRoomExpiry : Bool
  findShortCode : Bool
  /-- The environment in which the `i`-th participant of a room is looked up. -/
  participant : ℕ → UserEnv

/-- `RoomDTO` -/
structure RoomDTO where
  name : GoText
  /-- Minutes until the room expires; none if not positive. -/
  ttl : ℤ
  profanityFilter : Bool
  deriving DecidableEq, Repr

/-- `validateRoomName` -/
def validateRoomName (name : GoText) : Service Unit :=
  if name.length = 0 then .fail (.value ⟨400, "roomName missing"⟩)
  else if name.length < 4 then
    .fail (.value ⟨400, "roomName must be at least 4 characters in length"⟩)
  else if name.length ≥ 32 then
    .fail (.value ⟨400, "roomName must be under 32 characters in length"⟩)
  else pure ()

/-- The room with a short code. -/
def Site.roomByShortCode (s : Site) (code : String) : Option Room :=
  s.world.db.rooms.find? fun r => s.shortCode r.id = code

/-- The loop that draws short codes until one is free; a query that fails counts no rooms. The loop
of the code has no end but a free code: when the codes given here run out, the call does not
return. -/
def freeShortCode : List (String × Bool) → SiteService String
  | [] => .crash
  | (candidate, fails) :: candidates => do
    let room ← Call.read fun s => if fails then none else s.roomByShortCode candidate
    if room.isNone then pure candidate else freeShortCode candidates

/-- The state with a new room. -/
def Site.addRoom (s : Site) (room : Room) (shortCode : String) : Site where
  world := { s.world with db := { s.world.db with rooms := s.world.db.rooms ++ [room] } }
  shortCode := Function.update s.shortCode room.id shortCode

/-- Inserts the row of a new room; ids and short codes are unique. -/
def insertRoom (env : SiteEnv) (room : Room) (shortCode : String) : SiteService Unit :=
  .io env.insertRoom .io <| do
    let taken ← Call.read fun s =>
      (s.world.db.roomByID room.id).isSome || (s.roomByShortCode shortCode).isSome
    if taken then .fail (.other "duplicate key value violates unique constraint")
    else .write fun s => s.addRoom room shortCode

/-- `scheduleRoomExpiry`; a failure is only logged. -/
def scheduleRoomExpiry (env : SiteEnv) (roomID : RoomID) (ttl : ℤ) : Service Unit :=
  logged <| .io env.scheduleRoomExpiry .io <|
    if 0 < int64 (60 * 10^9 * ttl) then
      .write fun w => { w with expiryTasks := w.expiryTasks ++ [roomID] }
    else .fail (.other "task interval must be defined")

/-- `CreateRoom` -/
def createRoom (env : SiteEnv) (room : RoomDTO) (adminID : AuthID) : SiteService Room := do
  onSite (validateRoomName room.name)
  let shortCode ← freeShortCode env.candidates
  let newRoom : Room := ⟨env.newRoomID, adminID, room.profanityFilter, env.isUUID_newRoomID⟩
  insertRoom env newRoom shortCode
  if room.ttl > 0 then onSite (scheduleRoomExpiry env newRoom.id room.ttl)
  else pure ()
  pure newRoom

/-- `FindRoomByShortCode`: the room and its rounds. -/
def findRoomByShortCode (env : SiteEnv) (code : String) : SiteService (Room × List Round) :=
  .io env.findShortCode .io <| do
    match ← Call.read fun s => s.roomByShortCode code with
    | some room => do
      let rounds ← Call.read fun s => s.world.db.roundsOf env.rounds room.id
      pure (room, rounds)
    | none => .fail (.value ⟨404, "room not found"⟩)

/-! ## Finding a room by its code -/

/-- The room is found by its short code. -/
structure Coded (env : SiteEnv) (code : String) (s : Site) (room : Room) : Prop where
  findShortCode : env.findShortCode = false
  stored : s.roomByShortCode code = some room

section Find

variable {env : SiteEnv} {code : String} {room : Room} {s : Site}

/-- The room with the code is found, with its rounds. -/
theorem findRoomByShortCode_run (h : Coded env code s room) :
    (findRoomByShortCode env code).run s =
      (.ok (room, s.world.db.roundsOf env.rounds room.id), s) := by
  unfold findRoomByShortCode
  rw [h.findShortCode]
  simp only [Call.io_false, Call.run_read_bind, h.stored]
  rfl

/-- Looking for a room by a code that none has changes nothing. -/
theorem findRoomByShortCode_fails (h : ∀ room, ¬ Coded env code s room) :
    ∃ e, (findRoomByShortCode env code).run s = (.err e, s) ∧
      (e = .io ∨ e = .value ⟨404, "room not found"⟩) := by
  unfold findRoomByShortCode
  cases hfind : env.findShortCode with
  | true => exact ⟨_, rfl, Or.inl rfl⟩
  | false =>
    cases hroom : s.roomByShortCode code with
    | none =>
      simp only [Call.io_false, Call.run_read_bind, hroom]
      exact ⟨_, rfl, Or.inr rfl⟩
    | some room => exact absurd ⟨hfind, hroom⟩ (h room)

end Find

end Bsg.Central
