import Bsg.Central.Rooms

/-!
# What the steps of the room service do

Specifications of the steps that several requests share: finding a room (`findRoomByID_run`,
`findRoomByID_fails`), counting its rounds and inserting one (`checkRoundLimitExceeded_run`,
`insertRound_run`), making a user a member of it (`addJoinMember_run`), and deleting it. Of a
deletion, which may stop anywhere, all that matters later is that it only takes rows away
(`Shrinks`).
-/

namespace Bsg.Central

open Bsg.Foundations

/-! ## Finding a room -/

/-- The room is found by a text that names it. -/
structure Findable (env : Env) (roomID : RoomID) (db : DB) (room : Room) : Prop where
  parsed : env.uuid.parse roomID = some room.id
  findRoom : env.fails .findRoom = false
  stored : db.roomByID room.id = some room

section Find

variable {env : Env} {roomID : RoomID} {room : Room} {w : World}

/-- A row that is found under an id has this id. -/
theorem id_of_roomByID {db : DB} (h : db.roomByID roomID = some room) : room.id = roomID := by
  have hfound := List.find?_some h
  exact of_decide_eq_true hfound

/-- Rooms are stored under ids in the canonical form. -/
theorem isUUID_of_roomByID {db : DB} (h : db.roomByID roomID = some room) : isUUID roomID = true :=
  id_of_roomByID h ▸ room.isUUID_id

/-- By its canonical id only the room with this id is found. -/
theorem Findable.id_eq {db : DB} (h : Findable env roomID db room) (hid : isUUID roomID = true) :
    room.id = roomID := env.uuid.eq_of_canonical h.parsed hid

/-- By the id under which a room is stored that room is found. -/
theorem Findable.eq_of_roomByID {db : DB} {stored : Room} (h : Findable env roomID db room)
    (hstored : db.roomByID roomID = some stored) : room = stored := by
  have hfound := h.stored
  rw [h.id_eq (isUUID_of_roomByID hstored), hstored] at hfound
  exact (Option.some.inj hfound).symm

/-- A room is found by the id under which it is stored. -/
theorem Findable.of_roomByID {db : DB} (hfind : env.fails .findRoom = false)
    (hstored : db.roomByID roomID = some room) : Findable env roomID db room := by
  have hid := id_of_roomByID hstored
  exact ⟨hid ▸ env.uuid.accepts room.isUUID_id, hfind, by rwa [hid]⟩

/-- By a canonical id a room is found that is stored under it. -/
theorem Findable.roomByID {db : DB} (h : Findable env roomID db room) (hid : isUUID roomID = true) :
    db.roomByID roomID = some room := by
  rw [← h.id_eq hid]
  exact h.stored

/-- A text names one room at most. -/
theorem Findable.unique {env' : Env} {db : DB} {room' : Room} (h : Findable env roomID db room)
    (h' : Findable env' roomID db room') (huuid : env'.uuid = env.uuid) : room' = room := by
  have hparsed := h'.parsed
  rw [huuid, h.parsed] at hparsed
  have hstored := h'.stored
  rw [← Option.some.inj hparsed, h.stored] at hstored
  exact (Option.some.inj hstored).symm

/-- The rounds of the room that a text names, as they are loaded. -/
def DB.roundsNamed (db : DB) (env : Env) (roomID : RoomID) : List Round :=
  match env.uuid.parse roomID with
  | some uuid => db.roundsOf env.rounds uuid
  | none => []

/-- The rounds named by a text are those of the room that is found by it. -/
theorem Findable.roundsNamed {db : DB} (h : Findable env roomID db room) :
    db.roundsNamed env roomID = db.roundsOf env.rounds room.id := by
  unfold DB.roundsNamed
  rw [h.parsed]

/-- A room that is found comes with its rounds. -/
theorem findRoomByID_run (h : Findable env roomID w.db room) :
    (findRoomByID env roomID).run w = (.ok (room, w.db.roundsOf env.rounds room.id), w) := by
  unfold findRoomByID
  rw [h.parsed]
  dsimp only
  rw [h.findRoom]
  simp only [Call.io_false, Call.run_read_bind, h.stored]
  rfl

/-- Looking for a room that is not found changes nothing. -/
theorem findRoomByID_fails (h : ∀ room, ¬ Findable env roomID w.db room) :
    ∃ e, (findRoomByID env roomID).run w = (.err e, w) := by
  unfold findRoomByID
  cases hparsed : env.uuid.parse roomID with
  | none => exact ⟨_, rfl⟩
  | some uuid =>
    dsimp only
    cases hfind : env.fails .findRoom with
    | true => exact ⟨_, rfl⟩
    | false =>
      cases hroom : w.db.roomByID uuid with
      | none =>
        simp only [Call.io_false, Call.run_read_bind, hroom]
        exact ⟨_, rfl⟩
      | some room =>
        obtain rfl := id_of_roomByID hroom
        exact absurd ⟨hparsed, hfind, hroom⟩ (h room)

/-- What a search for a room can fail with: it could not be made, or it names no room. -/
theorem findRoomByID_raises {p : GoError → Prop} (env : Env) (roomID : RoomID) (hio : p .io)
    (hnone : p (.value ⟨404, "roomID could not be found"⟩))
    (hparse : p (.value ⟨400, "roomID could not be parsed"⟩)) :
    Call.Raises p (findRoomByID env roomID) := by
  unfold findRoomByID
  cases env.uuid.parse roomID with
  | none => exact Call.Raises.fail hparse
  | some uuid =>
    refine Call.Raises.io _ hio (Call.Raises.bind (Call.Raises.read _) ?_)
    rintro (_ | room)
    · exact Call.Raises.fail hnone
    · exact Call.Raises.bind (Call.Raises.read _) fun _ => Call.Raises.pure _

end Find

/-! ## Counting and inserting rounds -/

/-- The check counts the open rounds of the room. -/
theorem checkRoundLimitExceeded_run {env : Env} (h : env.fails .countRounds = false)
    (maxNumRoundsPerRoom : ℤ) (room : Room) (w : World) :
    (checkRoundLimitExceeded env maxNumRoundsPerRoom room).run w =
      (.ok (decide ((w.db.openRounds room.id : ℤ) ≥ maxNumRoundsPerRoom)), w) := by
  unfold checkRoundLimitExceeded
  rw [h]
  rfl

/-- The check fails when the count does. -/
theorem checkRoundLimitExceeded_fails {env : Env} (h : env.fails .countRounds = true)
    (maxNumRoundsPerRoom : ℤ) (room : Room) (w : World) :
    (checkRoundLimitExceeded env maxNumRoundsPerRoom room).run w = (.err .io, w) := by
  unfold checkRoundLimitExceeded
  rw [h]
  rfl

/-- The round is stored under the key that is handed out. -/
theorem insertRound_run {env : Env} (h : env.fails .insertRound = false) (duration : ℤ)
    (roomID : RoomID) (w : World) :
    (insertRound env duration roomID).run w =
      (.ok (newRound env.now duration roomID (w.db.rounds.fresh env.roundHint)),
        { w with db := w.db.addRound env duration roomID }) := by
  unfold insertRound
  rw [h]
  rfl

/-- When the statement fails, no round is stored. -/
theorem insertRound_fails {env : Env} (h : env.fails .insertRound = true) (duration : ℤ)
    (roomID : RoomID) (w : World) : (insertRound env duration roomID).run w = (.err .io, w) := by
  unfold insertRound
  rw [h]
  rfl

/-! ## Becoming a member -/

/-- The state in which a user was made a member of a room. -/
def World.joined (env : Env) (roomID : RoomID) (userID : AuthID) (w : World) : World :=
  { w with
    redis := { w.redis with
      joinTimestamp := Function.update w.redis.joinTimestamp roomID
        ((w.redis.joinTimestamp roomID).add userID env.now)
      activeRoom := if env.fails .setActiveRoom then w.redis.activeRoom
        else Function.update w.redis.activeRoom userID (some roomID) } }

/-- A user is made a member; one that was a member already is refused after his entry was written
again. -/
theorem addJoinMember_run {env : Env} (h : env.fails .zaddJoin = false) (roomID : RoomID)
    (userID : AuthID) (w : World) :
    (addJoinMember env roomID userID).run w =
      (if (w.redis.joinTimestamp roomID).contains userID then
        .err (.value ⟨400, "Are you already in this room?"⟩) else .ok (),
        w.joined env roomID userID) := by
  let w₁ : World := { w with
    redis := { w.redis with
      joinTimestamp := Function.update w.redis.joinTimestamp roomID
        ((w.redis.joinTimestamp roomID).add userID env.now) } }
  have hactive : (logged <| .io (env.fails .setActiveRoom) .io <| writeRedis fun r =>
      { r with activeRoom := Function.update r.activeRoom userID (some roomID) }).run w₁ =
        (.ok (), w.joined env roomID userID) := by
    unfold World.joined
    cases env.fails .setActiveRoom <;> rfl
  unfold addJoinMember
  rw [h]
  refine (Call.bind_ok (t := w₁) rfl _).trans ((Call.bind_ok hactive _).trans ?_)
  cases hmember : (w.redis.joinTimestamp roomID).contains userID <;> simp [hmember]

/-! ## Deleting a room -/

/-- Rounds and participants are only taken away, and nobody is told. -/
structure Shrinks (w w' : World) : Prop where
  rounds : w'.db.rounds.rows.Sublist w.db.rounds.rows
  participants : w'.db.participants.rows.Sublist w.db.participants.rows
  tasks : w'.tasks = w.tasks
  sent : w'.sent = w.sent

/-- Nothing was deleted yet. -/
theorem Shrinks.refl (w : World) : Shrinks w w :=
  ⟨List.Sublist.refl _, List.Sublist.refl _, rfl, rfl⟩

/-- What is deleted in two steps is deleted in both. -/
theorem Shrinks.trans (w₁ w₂ w₃ : World) (h : Shrinks w₁ w₂) (h' : Shrinks w₂ w₃) :
    Shrinks w₁ w₃ :=
  ⟨h'.rounds.trans h.rounds, h'.participants.trans h.participants, h'.tasks.trans h.tasks,
    h'.sent.trans h.sent⟩

/-- A write to Redis takes nothing away. -/
theorem shrinks_writeRedis (f : Redis → Redis) : Call.Within Shrinks (writeRedis f) :=
  Call.Within.write fun _ => ⟨List.Sublist.refl _, List.Sublist.refl _, rfl, rfl⟩

/-- Logging an error stores nothing. -/
theorem shrinks_logged {x : Service Unit} (hx : Call.Within Shrinks x) :
    Call.Within Shrinks (logged x) := within_logged Shrinks.refl Shrinks.trans hx

/-- An operation that may fail stores nothing. -/
theorem shrinks_io (fails : Bool) {x : Service Unit} (hx : Call.Within Shrinks x) :
    Call.Within Shrinks (Call.io fails .io x) :=
  Call.Within.io Shrinks.refl fails _ hx

/-- Deleting the members of a room stores nothing. -/
theorem shrinks_deleteJoinMembers (env : Env) (roomID : RoomID) :
    Call.Within Shrinks (deleteJoinMembers env roomID) := by
  refine Call.Within.bind Shrinks.trans (Call.Within.read Shrinks.refl _) fun members => ?_
  refine Call.Within.bind Shrinks.trans (shrinks_io _ (shrinks_writeRedis _)) fun _ => ?_
  refine Call.Within.forEach Shrinks.refl Shrinks.trans fun member _ => ?_
  exact shrinks_logged (shrinks_io _ (shrinks_writeRedis _))

/-- Deleting a round stores nothing. -/
theorem shrinks_deleteRound (env : Env) (round : Round × ℕ) :
    Call.Within Shrinks (deleteRound env round) := by
  have hdelete : ∀ (op : Op) (f : DB → DB),
      (∀ db, (f db).rounds.rows.Sublist db.rounds.rows ∧
        (f db).participants.rows.Sublist db.participants.rows) →
      Call.Within Shrinks (Call.io (env.fails op) .io (writeDB f)) := fun op f hf =>
    shrinks_io _ (Call.Within.write fun w => ⟨(hf w.db).1, (hf w.db).2, rfl, rfl⟩)
  refine Call.Within.bind Shrinks.trans (shrinks_logged (shrinks_io _ (shrinks_writeRedis _)))
    fun _ => ?_
  refine Call.Within.bind Shrinks.trans (hdelete _ _ fun db => ?_) fun _ => ?_
  · exact ⟨List.Sublist.refl _, List.Sublist.refl _⟩
  refine Call.Within.bind Shrinks.trans (hdelete _ _ fun db => ?_) fun _ => ?_
  · exact ⟨List.Sublist.refl _, List.filter_sublist⟩
  refine Call.Within.bind Shrinks.trans (hdelete _ _ fun db => ?_) fun _ => hdelete _ _ fun db => ?_
  · exact ⟨List.Sublist.refl _, List.Sublist.refl _⟩
  · exact ⟨List.filter_sublist, List.Sublist.refl _⟩

/-- Deleting a room, as far as it gets. -/
theorem shrinks_deleteRoom (env : Env) (room : Room) (rounds : List Round) :
    Call.Within Shrinks (deleteRoom env room rounds) := by
  refine Call.Within.bind Shrinks.trans (shrinks_deleteJoinMembers env room.id) fun _ => ?_
  refine Call.Within.bind Shrinks.trans (Call.Within.forEach Shrinks.refl Shrinks.trans
    fun round _ => shrinks_deleteRound env round) fun _ => ?_
  refine shrinks_io _ (Call.Within.bind Shrinks.trans (Call.Within.read Shrinks.refl _)
    fun inUse => Call.Within.ite _ (Call.Within.fail Shrinks.refl _) ?_)
  exact Call.Within.write fun w => ⟨List.filter_sublist, List.Sublist.refl _, rfl, rfl⟩

/-- Deleting the members of a room does not panic. -/
theorem calm_deleteJoinMembers (env : Env) (roomID : RoomID) :
    Call.Calm (deleteJoinMembers env roomID) := by
  refine Call.Calm.bind (Call.Calm.read _) fun members => ?_
  refine Call.Calm.bind (Call.Calm.io _ _ (Call.Calm.write _)) fun _ => ?_
  refine Call.Calm.forEach fun member _ => ?_
  exact Call.Calm.bind (Call.Calm.attempt (Call.Calm.io _ _ (Call.Calm.write _))) fun _ =>
    Call.Calm.pure ()

/-- Deleting a round does not panic. -/
theorem calm_deleteRound (env : Env) (round : Round × ℕ) : Call.Calm (deleteRound env round) := by
  have hdelete : ∀ (op : Op) (f : DB → DB),
      Call.Calm (Call.io (env.fails op) GoError.io (writeDB f)) :=
    fun _ _ => Call.Calm.io _ _ (Call.Calm.write _)
  refine Call.Calm.bind (Call.Calm.bind (Call.Calm.attempt (Call.Calm.io _ _ (Call.Calm.write _)))
    fun _ => Call.Calm.pure ()) fun _ => ?_
  exact Call.Calm.bind (hdelete _ _) fun _ => Call.Calm.bind (hdelete _ _) fun _ =>
    Call.Calm.bind (hdelete _ _) fun _ => hdelete _ _

/-- Deleting a room does not panic. -/
theorem calm_deleteRoom (env : Env) (room : Room) (rounds : List Round) :
    Call.Calm (deleteRoom env room rounds) := by
  refine Call.Calm.bind (calm_deleteJoinMembers env room.id) fun _ => ?_
  refine Call.Calm.bind (Call.Calm.forEach fun round _ => calm_deleteRound env round) fun _ => ?_
  refine Call.Calm.io _ _ (Call.Calm.bind (Call.Calm.read _) fun inUse => ?_)
  exact Call.Calm.ite _ (Call.Calm.fail _) (Call.Calm.write _)

/-- A room with rounds is not cleaned up; one without rounds only shrinks. -/
theorem cleanUpRoom_run (env : Env) (roomID : RoomID) (room : Room) (rounds : List Round)
    (w : World) : ∃ w', (cleanUpRoom env roomID room rounds).run w = (.ok (), w') ∧
      (w' = w ∨ rounds = [] ∧ Shrinks w w') := by
  unfold cleanUpRoom
  by_cases hrounds : rounds = []
  · rw [if_pos hrounds]
    obtain ⟨_, w', hrun⟩ := Call.Returns.bind (Call.Returns.write _)
      (fun _ => returns_logged (calm_deleteRoom env room rounds)) w
    have hshrinks : Call.Within Shrinks (do
        cancelRoomExpiry roomID
        logged (deleteRoom env room rounds)) :=
      Call.Within.bind Shrinks.trans
        (Call.Within.write fun _ => ⟨List.Sublist.refl _, List.Sublist.refl _, rfl, rfl⟩)
        fun _ => shrinks_logged (shrinks_deleteRoom env room rounds)
    have hw := hshrinks w
    refine ⟨w', hrun, Or.inr ⟨hrounds, ?_⟩⟩
    rwa [show ((do
        cancelRoomExpiry roomID
        logged (deleteRoom env room rounds) : Service Unit).run w) = _ from hrun] at hw
  · rw [if_neg hrounds]
    exact ⟨w, rfl, Or.inl rfl⟩

end Bsg.Central
