import Bsg.Central.RoundSteps

/-!
# A room with members survives the creation of a round

When the creation of a round fails, `createRound` cleans up a room that has no round yet, so that no
useless room stays behind. It looks only at the rounds, not at the members, and it does so on behalf
of any user. `survives_iff` says when a room with members is still there after a request to create a
round. A member is whoever joined the room, under whatever text that names it, while a request to
leave counts only the members under its own text: `protected_iff` says that a leave under another
text than the others' is, beside such a creation, the only event that destroys a room unduly.
-/

namespace Bsg.Central

open Bsg.Foundations

/-- Somebody is in the room, under a text that names it. -/
def Populated (p : UUIDParser) (roomID : RoomID) (w : World) : Prop :=
  ∃ text, p.parse text = some roomID ∧ w.members text ≠ []

/-- The room is still there, with the same members under each text. -/
def Survives (p : UUIDParser) (roomID : RoomID) (w w' : World) : Prop :=
  w'.db.roomByID roomID = w.db.roomByID roomID ∧
    ∀ text, p.parse text = some roomID → w'.members text = w.members text

/-- The creation of what would be the first round of the room fails in the round service. -/
def FirstRoundFails (env : Env) (maxNumRoundsPerRoom : ℤ) (params : RoundCreationParameters)
    (text : RoomID) (db : DB) : Prop :=
  ∃ room, Findable env text db room ∧ env.fails .countRounds = false ∧
    (db.openRounds room.id : ℤ) < maxNumRoundsPerRoom ∧ db.roundsOf env.rounds room.id = [] ∧
      ¬ (env.fails .insertRound = false ∧ Completes env params db)

/-- A submission that was left over has the key that the new round gets. -/
def LeftOver (env : Env) (db : DB) : Prop :=
  env.fails .insertRound = false ∧
    ∃ s ∈ db.roundSubmissions.rows, s.roundID = db.rounds.fresh env.roundHint

/-- The cleaning up leaves the room as it is: Redis refuses to forget the members, or there are none
under the id of the room and the database refuses to delete the row. -/
def Withstands (env : Env) (roomID : RoomID) (w : World) : Prop :=
  env.fails .delJoin = true ∨
    w.members roomID = [] ∧ (env.fails .deleteRoom = true ∨ LeftOver env w.db)

section Create

variable {env : Env} {roomID text : RoomID} {room : Room} {w w' : World}

/-- In a room without rounds, only a left over submission of the new round forbids to delete it. -/
theorem roomInUse_of_inserts {duration : ℤ} (hnone : w.db.roundsOf env.rounds roomID = [])
    (h : Inserts env duration roomID w w') :
    w'.db.roomInUse roomID = true ↔
      ∃ s ∈ w.db.roundSubmissions.rows, s.roundID = w.db.rounds.fresh env.roundHint := by
  have hsubmissions : w'.db.roundSubmissions = w.db.roundSubmissions := by rw [h.db]
  have hrows : w'.db.rounds.rows = w.db.rounds.rows ++
      [newRound env.now duration roomID (w.db.rounds.fresh env.roundHint)] := by
    rw [h.rounds]
    rfl
  -- The room had no rounds, so only submissions to the new key can be in the way.
  have hold : ∀ r ∈ w.db.rounds.rows, r.roomID ≠ roomID := by
    intro r hr hof
    have hmem : r ∈ w.db.roundsOf env.rounds roomID :=
      env.rounds.mem_order.mpr (List.mem_filter.mpr ⟨hr, decide_eq_true hof⟩)
    rw [hnone] at hmem
    cases hmem
  unfold DB.roomInUse
  rw [hsubmissions, hrows]
  simp only [List.any_eq_true, decide_eq_true_eq]
  constructor
  · rintro ⟨s, hs, r, hr, hid, hof⟩
    rcases List.mem_append.mp hr with hr | hr
    · exact absurd hof (hold r hr)
    · rw [List.mem_singleton.mp hr] at hid
      exact ⟨s, hs, hid.symm⟩
  · rintro ⟨s, hs, hid⟩
    exact ⟨s, hs, _, List.mem_append_right _ (List.mem_singleton_self _), hid.symm, rfl⟩

/-- What the round service does leaves the rooms and their members. -/
theorem roundServiceCreateRound_keeps (env : Env) (params : RoundCreationParameters)
    (roomID : RoomID) (w : World) :
    ∃ w₁, SameRooms w w₁ ∧ SameMembers w w₁ ∧
      (w.db.roundsOf env.rounds roomID = [] →
        (w₁.db.roomInUse roomID = true ↔ LeftOver env w.db)) ∧
      ((env.fails .insertRound = false ∧ Completes env params w.db) ∧
          (∃ r, (roundServiceCreateRound env params roomID).run w = (.ok r, w₁)) ∨
        ¬ (env.fails .insertRound = false ∧ Completes env params w.db) ∧
          ∃ e, (roundServiceCreateRound env params roomID).run w = (.err e, w₁)) := by
  cases hinsert : env.fails .insertRound with
  | true =>
    have hrun := roundServiceCreateRound_fails hinsert params roomID w
    refine ⟨w, SameRooms.refl w, SameMembers.refl w, fun hnone => ?_, Or.inr ⟨by simp, _, hrun⟩⟩
    refine iff_of_false ?_ fun h => Bool.false_ne_true (h.1.symm.trans hinsert)
    rw [Bool.not_eq_true]
    refine DB.roomInUse_eq_false fun r hr hof => ?_
    have hmem : r ∈ w.db.roundsOf env.rounds roomID :=
      env.rounds.mem_order.mpr (List.mem_filter.mpr ⟨hr, decide_eq_true hof⟩)
    rw [hnone] at hmem
    cases hmem
  | false =>
    -- Where the row is stored, it is all that concerns the room, however the creation goes on.
    obtain ⟨w₁, hinserts, hend⟩ := roundServiceCreateRound_cases hinsert params roomID w
    refine ⟨w₁, ?_, ⟨?_, ?_⟩, fun hnone => ?_, ?_⟩
    · unfold SameRooms
      rw [hinserts.db]
    · rw [hinserts.redis]
    · rw [hinserts.redis]
    · rw [roomInUse_of_inserts hnone hinserts]
      exact (and_iff_right hinsert).symm
    · rcases hend with ⟨hwell, hrun⟩ | ⟨hfails, hrun⟩
      · exact Or.inl ⟨⟨rfl, hwell⟩, hrun⟩
      · exact Or.inr ⟨fun h => hfails h.2, hrun⟩

/-- A room survives as long as the state keeps the rooms and their members. -/
theorem survives_of_same {p : UUIDParser} (hrooms : SameRooms w w') (hmembers : SameMembers w w') :
    Survives p roomID w w' := by
  unfold Survives DB.roomByID World.members
  rw [hrooms, hmembers.joinTimestamp]
  exact ⟨rfl, fun _ _ => rfl⟩

/-- Deleting a room without rounds: its members are forgotten first, and then its row goes. -/
theorem deleteRoom_nil_run (hdel : env.fails .delJoin = false) (room : Room) (w : World) :
    ((deleteRoom env room []).run w).2 =
      if env.fails .deleteRoom = true ∨ w.db.roomInUse room.id = true then w.emptied env room.id
      else { w.emptied env room.id with db := w.db.deleteRoomRow room.id } := by
  unfold deleteRoom
  rw [Call.bind_ok (deleteJoinMembers_run hdel room.id w)]
  cases hdelete : env.fails .deleteRoom with
  | true =>
    rw [if_pos (Or.inl rfl)]
    rfl
  | false =>
    have huse : (w.emptied env room.id).db.roomInUse room.id = w.db.roomInUse room.id := rfl
    refine (congrArg Prod.snd (Call.bind_ok (a := ()) (t := w.emptied env room.id) rfl _)).trans ?_
    rw [Call.io_false, Call.run_read_bind, huse]
    cases hinUse : w.db.roomInUse room.id with
    | true =>
      rw [if_pos (Or.inr rfl)]
      rfl
    | false =>
      rw [if_neg (by simp)]
      rfl

/-- Cleaning up a room with members that has no rounds destroys it, unless Redis refuses to forget
the members, or there are none under its id and the row stays. -/
theorem survives_cleanUpRoom (env : Env) (text : RoomID) (w w₁ : World)
    (hstored : w.db.roomByID room.id = some room) (hrooms : SameRooms w w₁)
    (hsame : SameMembers w w₁) (huse : w₁.db.roomInUse room.id = true ↔ LeftOver env w.db) :
    Survives env.uuid room.id w ((cleanUpRoom env text room []).run w₁).2 ↔
      Withstands env room.id w := by
  have hrun : ((cleanUpRoom env text room []).run w₁).2 =
      ((deleteRoom env room []).run (w₁.keptOpen text)).2 := logged_state _ _
  have hsame' : SameMembers w (w₁.keptOpen text) := ⟨hsame.joinTimestamp, hsame.activeRoom⟩
  rw [hrun]
  unfold Withstands
  cases hdel : env.fails .delJoin with
  | true =>
    rcases deleteRoom_members env room [] (w₁.keptOpen text) with ⟨-, hdelete⟩ | ⟨hbad, -⟩
    · rw [hdelete]
      exact iff_of_true (survives_of_same hrooms hsame') (Or.inl rfl)
    · exact absurd (hbad.symm.trans hdel) Bool.false_ne_true
  | false =>
  rw [deleteRoom_nil_run hdel]
  -- The members under the id of the room are forgotten in any case.
  have hmembers : ∀ db : DB,
      World.members { (w₁.keptOpen text).emptied env room.id with db := db } room.id = [] := fun db =>
    SortedSet.members_eq_nil.mpr (Function.update_self _ _ _)
  have hcanonical : env.uuid.parse room.id = some room.id := env.uuid.accepts room.isUUID_id
  have huse' : (w₁.keptOpen text).db.roomInUse room.id = true ↔ LeftOver env w.db := huse
  rw [← huse']
  by_cases hstays : env.fails .deleteRoom = true ∨ (w₁.keptOpen text).db.roomInUse room.id = true
  · rw [if_pos hstays]
    constructor
    · intro h
      refine Or.inr ⟨?_, hstays⟩
      rw [← h.2 room.id hcanonical]
      exact hmembers _
    · rintro (hbad | ⟨hempty, -⟩)
      · cases hbad
      have hempty' : (w₁.keptOpen text).members room.id = [] := by
        unfold World.members at hempty ⊢
        rwa [hsame'.joinTimestamp]
      have hrooms' : SameRooms w ((w₁.keptOpen text).emptied env room.id) := hrooms
      exact survives_of_same hrooms'
        (SameMembers.trans _ _ _ hsame' (sameMembers_emptied env hempty'))
  · rw [if_neg hstays]
    refine iff_of_false (fun h => ?_) ?_
    · have hgone : (w₁.db.deleteRoomRow room.id).roomByID room.id = none := by
        refine List.find?_eq_none.mpr fun r hr hid => ?_
        exact of_decide_eq_true (List.mem_filter.mp hr).2 (of_decide_eq_true hid)
      have hrow : (w₁.db.deleteRoomRow room.id).roomByID room.id = w.db.roomByID room.id := h.1
      rw [hgone, hstored] at hrow
      cases hrow
    · rintro (hbad | ⟨-, hbad⟩)
      · cases hbad
      · exact hstays hbad

/-- A room is still there after a request to create a round of it exactly when it has a round
already, or nothing fails once the round service is called, or it withstands the cleaning up. -/
theorem survives_iff (env : Env) (maxNumRoundsPerRoom : ℤ) (params : RoundCreationParameters)
    (hnames : env.uuid.parse text = some roomID) (w : World) :
    Survives env.uuid roomID w ((createRound env maxNumRoundsPerRoom params text).run w).2 ↔
      (FirstRoundFails env maxNumRoundsPerRoom params text w.db → Withstands env roomID w) := by
  have hstay : Survives env.uuid roomID w w :=
    survives_of_same (SameRooms.refl w) (SameMembers.refl w)
  unfold createRound
  by_cases hfind : ∃ room, Findable env text w.db room
  swap
  · obtain ⟨e, hrun⟩ := findRoomByID_fails fun room h => hfind ⟨room, h⟩
    rw [Call.bind_err hrun]
    exact iff_of_true hstay fun ⟨room, hroom, _⟩ => absurd ⟨room, hroom⟩ hfind
  obtain ⟨room, hroom⟩ := hfind
  obtain rfl : room.id = roomID := Option.some.inj (hroom.parsed.symm.trans hnames)
  -- The only way to lose the room is a first round that fails behind its checks.
  have hfirst : FirstRoundFails env maxNumRoundsPerRoom params text w.db ↔
      env.fails .countRounds = false ∧ (w.db.openRounds room.id : ℤ) < maxNumRoundsPerRoom ∧
        w.db.roundsOf env.rounds room.id = [] ∧
          ¬ (env.fails .insertRound = false ∧ Completes env params w.db) := by
    constructor
    · rintro ⟨room', hroom', hfails⟩
      rwa [hroom.unique hroom' rfl] at hfails
    · exact fun hfails => ⟨room, hroom, hfails⟩
  rw [hfirst, Call.bind_ok (findRoomByID_run hroom)]
  cases hcount : env.fails .countRounds with
  | true =>
    rw [Call.bind_err (checkRoundLimitExceeded_fails hcount maxNumRoundsPerRoom room w)]
    exact iff_of_true hstay fun h => absurd h.1.symm Bool.false_ne_true
  | false =>
  rw [Call.bind_ok (checkRoundLimitExceeded_run hcount maxNumRoundsPerRoom room w)]
  by_cases hopen : (w.db.openRounds room.id : ℤ) < maxNumRoundsPerRoom
  swap
  · rw [decide_eq_true (not_lt.mp hopen), if_pos rfl]
    exact iff_of_true hstay fun h => absurd h.2.1 hopen
  rw [decide_eq_false (not_le.mpr hopen), if_neg Bool.false_ne_true]
  obtain ⟨w₁, hrooms, hsame, huse, ⟨hwell, ⟨round, fallbackUsed⟩, hrun⟩ | ⟨hfails, e, hrun⟩⟩ :=
    roundServiceCreateRound_keeps env params room.id w
  · -- Whether or not the round is appended, nothing is cleaned up.
    rw [Call.attempt_ok hrun]
    refine iff_of_true ?_ fun h => absurd hwell h.2.2.2
    cases env.fails .appendRound <;> exact survives_of_same hrooms hsame
  · -- The creation failed: the room is cleaned up when no rounds were loaded with it.
    rw [Call.attempt_err hrun]
    obtain ⟨w', hclean, hw'⟩ := cleanUpRoom_run env text room (w.db.roundsOf env.rounds room.id) w₁
    rw [Call.bind_ok hclean]
    by_cases hrounds : w.db.roundsOf env.rounds room.id = []
    · have hdelete := survives_cleanUpRoom env text w w₁ hroom.stored hrooms hsame (huse hrounds)
      rw [← hrounds, hclean] at hdelete
      exact hdelete.trans ⟨fun h _ => h, fun h => h ⟨rfl, hopen, hrounds, hfails⟩⟩
    · rw [hw'.resolve_right fun h => hrounds h.1]
      exact iff_of_true (survives_of_same hrooms hsame) fun h => absurd h.2.2.1 hrounds

end Create

/-! ## Every event -/

/-- The event is one that may delete a room that it is about: its last member leaves, its time is
over, or it has no members and its first round cannot be created. -/
def DulyDeletes (p : UUIDParser) (roomID : RoomID) (w : World) : RoomEvent → Prop
  | .leaveRoom text userID => p.parse text = some roomID ∧ w.isMember text userID ∧
      ∀ text', p.parse text' = some roomID → ∀ user ∈ w.members text', user = userID
  | .expireRoom text => p.parse text = some roomID
  | .createRound _ _ text => p.parse text = some roomID ∧ ¬ Populated p roomID w
  | _ => False

/-- A request to create a round leaves a room that has members, and no event deletes a room
unduly. -/
structure Protected (roomID : RoomID) (w : World) (e : Env × RoomEvent) : Prop where
  survives : ∀ maxNumRoundsPerRoom params text, e.2 = .createRound maxNumRoundsPerRoom params text →
    e.1.uuid.parse text = some roomID → Populated e.1.uuid roomID w →
      Survives e.1.uuid roomID w (w.serve e)
  deleted : (w.db.roomByID roomID).isSome = true → (w.serve e).db.roomByID roomID = none →
    DulyDeletes e.1.uuid roomID w e.2

/-- The request to leave gets as far as to delete the room, and that succeeds. -/
structure LeaveDeletes (env : Env) (text : RoomID) (userID : AuthID) (roomID : RoomID) (w : World) :
    Prop where
  found : ∃ room, Findable env text w.db room ∧ room.id = roomID
  zremJoin : env.fails .zremJoin = false
  nobody : LeavesNobody env text userID w
  deletable : Deletable env (w.db.roundsOf env.rounds roomID).length

/-- What an event must heed: the failing creation of a first round finds no members, or the room
withstands it, and a leave that deletes the room finds nobody else in it under any text. -/
def SparesRoom (roomID : RoomID) (w : World) (e : Env × RoomEvent) : Prop :=
  match e.2 with
  | .createRound maxNumRoundsPerRoom params text => e.1.uuid.parse text = some roomID →
      Populated e.1.uuid roomID w → FirstRoundFails e.1 maxNumRoundsPerRoom params text w.db →
        Withstands e.1 roomID w
  | .leaveRoom text userID => LeaveDeletes e.1 text userID roomID w →
      ∀ text', e.1.uuid.parse text' = some roomID → ∀ user ∈ w.members text', user = userID
  | _ => True

/-- The room has a row. -/
def World.hasRoom (roomID : RoomID) (w : World) : Bool := (w.db.roomByID roomID).isSome

section Events

variable {roomID text : RoomID}

/-- What leaves the rows of the rooms leaves the row of one. -/
theorem keeps_hasRoom {α : Type} {x : Service α} (h : Call.Keeps (fun w : World => w.db.rooms) x) :
    Call.Keeps (World.hasRoom roomID) x := by
  intro w
  have hrooms : (x.run w).2.db.rooms = w.db.rooms := h w
  show ((x.run w).2.db.roomByID roomID).isSome = (w.db.roomByID roomID).isSome
  unfold DB.roomByID
  rw [hrooms]

/-- A room that is found has the id that the text names. -/
theorem yields_findRoomByID (env : Env) (text : RoomID) :
    Call.Yields (fun found : Room × List Round => env.uuid.parse text = some found.1.id)
      (findRoomByID env text) := by
  intro w found hrun
  by_cases hfind : ∃ room, Findable env text w.db room
  · obtain ⟨room, hroom⟩ := hfind
    rw [findRoomByID_run hroom] at hrun
    cases hrun
    exact hroom.parsed
  · obtain ⟨e, hfails⟩ := findRoomByID_fails fun room h => hfind ⟨room, h⟩
    rw [hfails] at hrun
    cases hrun

/-- The deletion of another room leaves the row of this one. -/
theorem keeps_deleteRoom (env : Env) {room : Room} (hne : room.id ≠ roomID) (rounds : List Round) :
    Call.Keeps (World.hasRoom roomID) (deleteRoom env room rounds) := by
  refine Call.Keeps.bind (keeps_hasRoom ?_) fun _ => Call.Keeps.bind (keeps_hasRoom
    (Call.Keeps.forEach fun round _ => sameRooms_deleteRound env round)) fun _ => ?_
  · refine Call.Keeps.bind (Call.Keeps.read _) fun members => Call.Keeps.bind
      (Call.Keeps.io _ _ (Call.Keeps.write fun _ => rfl)) fun _ => Call.Keeps.forEach fun member _ => ?_
    exact keeps_logged (Call.Keeps.io _ _ (Call.Keeps.write fun _ => rfl))
  · refine Call.Keeps.io _ _ (Call.Keeps.bind (Call.Keeps.read _) fun inUse =>
      Call.Keeps.ite _ (Call.Keeps.fail _) (Call.Keeps.write fun w => ?_))
    -- The row of another room stays when the rows with the key of the deleted one go.
    show (((w.db.rooms.filter fun r => r.id ≠ room.id).find? fun r => r.id = roomID)).isSome =
      ((w.db.rooms.find? fun r => r.id = roomID)).isSome
    rw [List.find?_filter]
    refine congrArg Option.isSome (congrArg (fun p => w.db.rooms.find? p) (funext fun r => ?_))
    by_cases hid : r.id = roomID
    · simp [hid, Ne.symm hne]
    · simp [hid]

/-- A request to create a round of another room leaves the row of this one. -/
theorem keeps_createRound (env : Env) (maxNumRoundsPerRoom : ℤ) (params : RoundCreationParameters)
    (hne : env.uuid.parse text ≠ some roomID) :
    Call.Keeps (World.hasRoom roomID) (createRound env maxNumRoundsPerRoom params text) := by
  refine Call.Keeps.bind_of_yields (keeps_hasRoom fun w => ?_) (yields_findRoomByID env text)
    fun (room, rounds) hid => ?_
  · exact (Prod.ext_iff.mp (keeps_findRoomByID (f := World.directory) env text w)).1
  refine Call.Keeps.bind (Call.Keeps.io _ _ (Call.Keeps.read _)) fun exceeded =>
    Call.Keeps.ite _ (Call.Keeps.fail _) (Call.Keeps.bind (Call.Keeps.attempt (keeps_hasRoom ?_))
      fun result => ?_)
  · intro w
    obtain ⟨w₁, hrooms, -, -, ⟨-, r, hrun⟩ | ⟨-, e, hrun⟩⟩ :=
      roundServiceCreateRound_keeps env params room.id w
    · rw [hrun]
      exact hrooms
    · rw [hrun]
      exact hrooms
  cases result with
  | ok created =>
    exact Call.Keeps.bind (Call.Keeps.io _ _ (Call.Keeps.pure _)) fun _ => Call.Keeps.pure _
  | error e =>
    refine Call.Keeps.bind (Call.Keeps.ite _ (Call.Keeps.bind (Call.Keeps.write fun _ => rfl)
      fun _ => keeps_logged (keeps_deleteRoom env ?_ rounds)) (Call.Keeps.pure _)) fun _ =>
        Call.Keeps.fail _
    exact fun h => hne (hid.trans (congrArg some h))

/-- The expiry of another room leaves the row of this one. -/
theorem keeps_expireRoom (env : Env) (hne : env.uuid.parse text ≠ some roomID) :
    Call.Keeps (World.hasRoom roomID) (expireRoom env text) := by
  intro w
  unfold expireRoom
  by_cases hfind : ∃ room, Findable env text w.db room
  · obtain ⟨room, hroom⟩ := hfind
    rw [Call.attempt_ok (findRoomByID_run hroom)]
    refine Call.Keeps.bind (keeps_deleteRoom env ?_ _) (fun _ =>
      keeps_logged (keeps_sendMessage (fun _ _ => rfl) _ _)) w
    exact fun h => hne (hroom.parsed.trans (congrArg some h))
  · obtain ⟨e, hrun⟩ := findRoomByID_fails fun room h => hfind ⟨room, h⟩
    rw [Call.attempt_err hrun]
    rfl

/-- Handing a room over leaves the rows, with other admins. -/
theorem keeps_replaceAdmin (env : Env) (text : RoomID) (room : Room) (userID : AuthID) :
    Call.Keeps (World.hasRoom roomID) (replaceAdmin env text room userID) := by
  refine Call.Keeps.ite _ (Call.Keeps.bind ?_ fun admin => Call.Keeps.bind (Call.Keeps.io _ _
    (Call.Keeps.write fun w => ?_)) fun _ => Call.Keeps.bind (Call.Keeps.read _) fun _ =>
      keeps_logged (keeps_sendMessage (fun _ _ => rfl) _ _)) (Call.Keeps.pure _)
  · refine Call.Keeps.bind (Call.Keeps.io _ _ (Call.Keeps.read _)) fun members => ?_
    cases members with
    | nil => exact Call.Keeps.fail _
    | cons user _ => exact Call.Keeps.pure _
  · show ((w.db.rooms.map fun r => if r.id = room.id then { r with admin := admin } else r).find?
      fun r => decide (r.id = roomID)).isSome =
        (w.db.rooms.find? fun r => decide (r.id = roomID)).isSome
    rw [List.find?_map, Option.isSome_map]
    refine congrArg Option.isSome (congrArg (fun p => w.db.rooms.find? p) (funext fun r => ?_))
    rw [Function.comp_apply]
    split <;> rfl

/-- A request to leave deletes a room exactly when it is the one that the text names, nobody is left
there under the text, and nothing fails. -/
theorem leaveRoom_deletes_iff (env : Env) (text : RoomID) (userID : AuthID) (w : World)
    (hroom : w.hasRoom roomID = true) :
    ((leaveRoom env text userID).run w).2.hasRoom roomID = false ↔
      LeaveDeletes env text userID roomID w := by
  have hkept : ∀ w' : World, w'.db.rooms = w.db.rooms → ¬ w'.hasRoom roomID = false := by
    intro w' hrooms hgone
    have hsame : w'.hasRoom roomID = w.hasRoom roomID := by
      unfold World.hasRoom DB.roomByID
      rw [hrooms]
    exact Bool.false_ne_true (hgone.symm.trans (hsame.trans hroom))
  rcases leaveRoom_cases env text userID w with ⟨e, hrun, hnot⟩ | ⟨room, hfind, hzrem,
    ⟨hmember, e, hrun⟩ | ⟨hmember, rs, ⟨hreply, hrun⟩ | ⟨hreply, hrun⟩⟩⟩
  · rw [hrun]
    refine iff_of_false (hkept w rfl) fun h => ?_
    obtain ⟨room, hfind, -⟩ := h.found
    exact Bool.false_ne_true (h.zremJoin.symm.trans (hnot room hfind))
  · rw [hrun]
    refine iff_of_false (hkept _ rfl) fun h => ?_
    exact Bool.false_ne_true (hmember.symm.trans h.nobody.member)
  · rw [hrun]
    exact iff_of_false (hkept _ rfl) fun h => hreply h.nobody.reply
  rw [hrun]
  -- The user has left: the room is settled afterwards, and only an empty one is deleted.
  let w₁ := (w.left env text userID).tell rs
  have hfound : LeaveDeletes env text userID roomID w → room.id = roomID := by
    rintro ⟨⟨room', hfind', hid⟩, -⟩
    rwa [hfind.unique hfind' rfl] at hid
  rcases settleRoom_cases env room (w.db.roundsOf env.rounds room.id) text userID w₁ with
    ⟨hrange, hsettle⟩ | ⟨hrange, ⟨hempty, hsettle⟩ | ⟨hempty, hsettle⟩⟩
  · rw [hsettle]
    refine iff_of_false (hkept w₁ rfl) fun h => ?_
    exact Bool.false_ne_true (h.nobody.zrangeJoin.symm.trans hrange)
  · rw [hsettle]
    have hnobody : LeavesNobody env text userID w :=
      ⟨(members_left_eq_nil hmember).mp hempty, hreply, hrange⟩
    by_cases hid : room.id = roomID
    · subst hid
      have hall : ∀ r ∈ w.db.rounds.rows, r.roomID = room.id →
          r ∈ w.db.roundsOf env.rounds room.id := fun r hr hof =>
        env.rounds.mem_order.mpr (List.mem_filter.mpr ⟨hr, decide_eq_true hof⟩)
      rcases deleteRoom_cases env room (w.db.roundsOf env.rounds room.id) (w₁.keptOpen text) hall with
        ⟨hdel, w', hdelete, hgone, -⟩ | ⟨hdel, e, w', hdelete, hrooms⟩
      · rw [hdelete]
        refine iff_of_true ?_ ⟨⟨room, hfind, rfl⟩, hzrem, hnobody, hdel⟩
        unfold World.hasRoom
        rw [hgone]
        rfl
      · rw [hdelete]
        exact iff_of_false (hkept w' hrooms) fun h => hdel h.deletable
    · have hkeeps : Call.Keeps (World.hasRoom roomID)
          (deleteRoom env room (w.db.roundsOf env.rounds room.id)) := keeps_deleteRoom env hid _
      refine iff_of_false (fun hgone => ?_) fun h => hid (hfound h)
      have hsame : _ = w₁.hasRoom roomID := hkeeps (w₁.keptOpen text)
      exact Bool.false_ne_true (hgone.symm.trans (hsame.trans hroom))
  · rw [hsettle]
    refine iff_of_false (fun hgone => ?_) fun h => hempty ?_
    · have hsame : _ = w₁.hasRoom roomID := keeps_replaceAdmin env text room userID w₁
      exact Bool.false_ne_true (hgone.symm.trans (hsame.trans hroom))
    · exact (members_left_eq_nil hmember).mpr h.nobody.alone

/-- A join keeps the row of every room. -/
theorem hasRoom_joinRoom (env : Env) (text : RoomID) (userID : AuthID) (w : World) :
    ((joinRoom env text userID).run w).2.hasRoom roomID = w.hasRoom roomID := by
  rcases joinRoom_cases env text userID w with ⟨e, hrun, -⟩ | ⟨room, -, -, ⟨-, hrun⟩ |
    ⟨-, o, rs, hrun, -⟩⟩
  · rw [hrun]
  · rw [hrun]
    rfl
  · -- He may have become a participant of the running round.
    rw [hrun]
    show ((w.joined env text userID).entered env _ userID).hasRoom roomID = _
    unfold World.entered
    cases runningRound (w.db.roundsOf env.rounds room.id) with
    | none => rfl
    | some round =>
      dsimp only
      split <;> rfl

/-- So does a request that sets a duration. -/
theorem hasRoom_setRoundDuration (env : Env) (text : RoomID) (userID : AuthID) (duration : ℤ)
    (w : World) :
    ((setRoundDurationByRoomID env text userID duration).run w).2.hasRoom roomID =
      w.hasRoom roomID := by
  rcases setRoundDurationByRoomID_cases env text userID duration w with hrun | ⟨_, -, -, -, hrun⟩
  · rw [hrun]
  · rw [hrun]
    rfl

/-- So does a request that ends a round. -/
theorem hasRoom_endRound (env : Env) (text : RoomID) (userID : AuthID) (w : World) :
    ((endRoundByRoomID env text userID).run w).2.hasRoom roomID = w.hasRoom roomID := by
  rcases endRoundByRoomID_cases env text userID w with ⟨o, hrun, -⟩ | ⟨round, -, -, hrun⟩
  · rw [hrun]
  · rw [hrun]
    rfl

/-- So does an end task. -/
theorem hasRoom_runEndTask (env : Env) (task : EndTask) (w : World) :
    (w.serve (env, .runEndTask task)).hasRoom roomID = w.hasRoom roomID := by
  rcases serve_runEndTask_cases env task w with hserve | ⟨-, ⟨-, hserve⟩ | ⟨-, hserve⟩⟩
  · rw [hserve]
  · rw [hserve]
    rfl
  · rw [hserve]
    rfl

/-- What an event that deletes a room must be, when it spares rooms with members. -/
theorem dulyDeletes_serve (e : Env × RoomEvent) (w : World) (hspares : SparesRoom roomID w e)
    (hroom : w.hasRoom roomID = true) (hgone : (w.serve e).hasRoom roomID = false) :
    DulyDeletes e.1.uuid roomID w e.2 := by
  obtain ⟨env, event⟩ := e
  have hsame : (w.serve (env, event)).hasRoom roomID = w.hasRoom roomID →
      DulyDeletes env.uuid roomID w event := by
    intro hkeeps
    rw [hgone, hroom] at hkeeps
    cases hkeeps
  -- All but three kinds of events keep the row of every room.
  cases event with
  | joinRoom text userID => exact hsame (hasRoom_joinRoom env text userID w)
  | leaveRoom text userID =>
    have hdeletes := (leaveRoom_deletes_iff env text userID w hroom).mp hgone
    obtain ⟨room, hfind, hid⟩ := hdeletes.found
    exact ⟨hid ▸ hfind.parsed, hdeletes.nobody.member, hspares hdeletes⟩
  | expireRoom text =>
    by_cases hnames : env.uuid.parse text = some roomID
    · exact hnames
    · exact hsame (keeps_expireRoom env hnames w)
  | createRound n params text =>
    by_cases hnames : env.uuid.parse text = some roomID
    · refine ⟨hnames, fun hpopulated => ?_⟩
      have hsurvives := (survives_iff env n params hnames w).mpr (hspares hnames hpopulated)
      have hrow : (w.serve (env, .createRound n params text)).db.roomByID roomID =
          w.db.roomByID roomID := hsurvives.1
      unfold World.hasRoom at hroom hgone
      rw [hrow, hroom] at hgone
      cases hgone
    · exact hsame (keeps_createRound env n params hnames w)
  | setRoundDuration text userID duration =>
    exact hsame (hasRoom_setRoundDuration env text userID duration w)
  | startRound text userID =>
    refine hsame (keeps_hasRoom (fun w => ?_) w)
    exact (Prod.ext_iff.mp (keeps_startRoundByRoomID env text userID w)).1
  | endRound text userID => exact hsame (hasRoom_endRound env text userID w)
  | createSubmission text params userID =>
    refine hsame (keeps_hasRoom (fun w => ?_) w)
    exact (Prod.ext_iff.mp (keeps_createRoomSubmission env text params userID w)).1
  | runEndTask task => exact hsame (hasRoom_runEndTask env task w)
  | restart => exact hsame rfl

end Events

/-- No event destroys a room that has members, unless its last member leaves or its time is over,
exactly when it is not the failing creation of a first round that the room does not withstand, and
not a leave by the last member under its text while others are there under another one. -/
theorem protected_iff (roomID : RoomID) (w : World) (e : Env × RoomEvent) :
    Protected roomID w e ↔ SparesRoom roomID w e := by
  obtain ⟨env, event⟩ := e
  constructor
  · -- The condition follows request by request: a creation must survive, and a leave may delete
    -- only duly.
    intro hprotected
    unfold SparesRoom
    cases event with
    | createRound n params text =>
      intro hnames hpopulated
      exact (survives_iff env n params hnames w).mp
        (hprotected.survives n params text rfl hnames hpopulated)
    | leaveRoom text userID =>
      intro hdeletes
      obtain ⟨room, hfind, rfl⟩ := hdeletes.found
      have hroom : w.hasRoom room.id = true := by
        unfold World.hasRoom
        rw [hfind.stored]
        rfl
      have hgone := (leaveRoom_deletes_iff env text userID w hroom).mpr hdeletes
      exact (hprotected.deleted hroom (Option.isNone_iff_eq_none.mp (by
        rw [← Option.not_isSome]
        exact Bool.not_eq_true' _ ▸ hgone))).2.2
    | _ => trivial
  · intro hspares
    refine ⟨fun n params text hevent hnames hpopulated => ?_, fun hroom hgone => ?_⟩
    · subst hevent
      exact (survives_iff env n params hnames w).mpr (hspares hnames hpopulated)
    · refine dulyDeletes_serve (env, event) w hspares hroom ?_
      unfold World.hasRoom
      rw [hgone]
      rfl

/-- A room that its admin has joined, and that has no round yet. -/
def World.roundless : World :=
  { World.ready with db := { World.ready.db with rounds := .empty, roundProblems := [] } }

/-- When the problems picked for the first round do not exist, the room disappears with its
member. -/
theorem not_protected : ¬ Protected roomOne .roundless
    (Env.faultless 10, .createRound 3 (handPicked [7]) roomOne) := by
  intro hprotected
  have hnames : (Env.faultless 10).uuid.parse roomOne = some roomOne :=
    (Env.faultless 10).uuid.accepts isUUID_roomOne
  have hbefore : World.roundless.members roomOne = [host] := by decide +kernel
  have hpopulated : Populated (Env.faultless 10).uuid roomOne .roundless :=
    ⟨roomOne, hnames, by rw [hbefore]; simp⟩
  have h := hprotected.survives 3 (handPicked [7]) roomOne rfl hnames hpopulated
  let result := (createRound (Env.faultless 10) 3 (handPicked [7]) roomOne).run .roundless
  have hmembers : result.2.members roomOne = [] := by decide +kernel
  have hsame : result.2.members roomOne = World.roundless.members roomOne := h.2 roomOne hnames
  rw [hmembers, hbefore] at hsame
  cases hsame

end Bsg.Central
