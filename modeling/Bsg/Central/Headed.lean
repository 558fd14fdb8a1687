import Bsg.Central.Membership

/-!
# A room keeps an admin who is in it

When a user leaves a room, the room should be deleted if he was the last member, and otherwise have
an admin who is still a member (`Headed`). The request takes the user out of the room first; then it
calls rtc-service and returns if that fails, and only after that it deletes the room or hands it
over. `headed_iff` says that this goes wrong only when the admin departs, and when exactly.
-/

namespace Bsg.Central

open Bsg.Foundations

/-- The room is deleted and has no members, or its admin is one of its members. -/
def Headed (roomID : RoomID) (w : World) : Prop :=
  w.db.roomByID roomID = none ∧ w.members roomID = [] ∨
    ∃ room, w.db.roomByID roomID = some room ∧ room.admin ∈ w.members roomID

/-- The request takes the admin out of the room. -/
def AdminDeparts (env : Env) (roomID : RoomID) (userID : AuthID) (db : DB) : Prop :=
  (∃ room, Findable env roomID db room ∧ room.admin = userID) ∧ env.fails .zremJoin = false

/-- After the admin is out, rtc-service answers, the remaining members are found, and the room is
handed over to one of them, or deleted when there are none. -/
def HandsOver (env : Env) (roomID : RoomID) (userID : AuthID) (w : World) : Prop :=
  env.reply .leaveRoom = .ok ∧ env.fails .zrangeJoin = false ∧
    if ∃ user ∈ w.members roomID, user ≠ userID then
      env.fails .zrangeAdmin = false ∧ env.fails .updateAdmin = false
    else Deletable env (w.db.roundsOf env.rounds roomID).length

section Leave

variable {env : Env} {roomID : RoomID} {userID : AuthID} {room : Room} {w w' : World}

/-- As long as the row of the room stays, the room has an admin in it exactly when that is a
member. -/
theorem headed_of_roomByID (h : w.db.roomByID roomID = some room) :
    Headed roomID w ↔ room.admin ∈ w.members roomID := by
  unfold Headed
  rw [h]
  simp

/-- The state with another admin of a room. -/
def World.withAdmin (roomID : RoomID) (admin : AuthID) (w : World) : World :=
  { w with db := { w.db with
      rooms := w.db.rooms.map fun r => if r.id = roomID then { r with admin := admin } else r } }

/-- The room is found with its new admin. -/
theorem roomByID_withAdmin (hstored : w.db.roomByID roomID = some room) (admin : AuthID) :
    (w.withAdmin roomID admin).db.roomByID roomID = some { room with admin := admin } := by
  have hfind : w.db.rooms.find? (fun r => decide (r.id = roomID)) = some room := hstored
  have hid : room.id = roomID := by simpa using List.find?_some hfind
  have hkeys : ((fun r : Room => decide (r.id = roomID)) ∘
      fun r => if r.id = roomID then { r with admin := admin } else r) =
      fun r => decide (r.id = roomID) := by
    funext r
    rw [Function.comp_apply]
    split <;> rfl
  show (w.db.rooms.map _).find? _ = _
  rw [List.find?_map, hkeys]
  rw [hfind, Option.map_some, if_pos hid]

/-- The room of a departing admin is handed to the first of its members, unless a database or Redis
operation fails. -/
theorem replaceAdmin_run (env : Env) (room : Room) {admin : AuthID} {others : List AuthID}
    (hmembers : w.members roomID = admin :: others) :
    (env.fails .zrangeAdmin = false ∧ env.fails .updateAdmin = false) ∧
        (∃ rs, (replaceAdmin env roomID room room.admin).run w =
          (.ok (), (w.withAdmin room.id admin).tell rs)) ∨
      ¬ (env.fails .zrangeAdmin = false ∧ env.fails .updateAdmin = false) ∧
        ∃ e, (replaceAdmin env roomID room room.admin).run w = (.err e, w) := by
  unfold replaceAdmin
  rw [if_pos rfl]
  cases hrange : env.fails .zrangeAdmin with
  | true =>
    have hfind : (findRightfulRoomAdmin env roomID).run w = (.err .io, w) := by
      unfold findRightfulRoomAdmin
      rw [hrange]
      rfl
    exact Or.inr ⟨by simp, _, Call.bind_err hfind _⟩
  | false =>
    have hfind : (findRightfulRoomAdmin env roomID).run w = (.ok admin, w) := by
      unfold findRightfulRoomAdmin
      have hlist : (w.redis.joinTimestamp roomID).members = admin :: others := hmembers
      rw [hrange, Call.io_false, Call.run_read_bind, hlist]
      rfl
    rw [Call.bind_ok hfind]
    cases hupdate : env.fails .updateAdmin with
    | true => exact Or.inr ⟨by simp, _, rfl⟩
    | false =>
      let w₁ := w.withAdmin room.id admin
      -- The message is only logged when it fails.
      obtain ⟨adminName, hname⟩ : ∃ adminName,
          (userDisplayName env admin).run w₁ = (.ok adminName, w₁) := ⟨_, rfl⟩
      have hannounce := logged_sendMessage_run (env.reply .adminChange)
        (.adminChange roomID admin adminName) w₁
      exact Or.inl ⟨⟨rfl, rfl⟩, _,
        (Call.bind_ok (t := w₁) rfl _).trans ((Call.bind_ok hname _).trans hannounce)⟩

/-- Settling a room after a member left keeps its admin in it, unless it was the admin who left and
something fails. -/
theorem headed_settleRoom (env : Env) (userID : AuthID) {rounds : List Round} (hid : room.id = roomID)
    (hrounds : ∀ r ∈ w.db.rounds.rows, r.roomID = roomID → r ∈ rounds)
    (hstored : w.db.roomByID roomID = some room) (hout : userID ∉ w.members roomID)
    (hadmin : room.admin ≠ userID → room.admin ∈ w.members roomID) :
    Headed roomID ((settleRoom env room rounds roomID userID).run w).2 ↔
      (room.admin = userID → env.fails .zrangeJoin = false ∧
        if w.members roomID ≠ [] then
          env.fails .zrangeAdmin = false ∧ env.fails .updateAdmin = false
        else Deletable env rounds.length) := by
  -- A state with the same row and the same members has its admin in it unless he left.
  have hstay : ∀ w' : World, w'.db.roomByID roomID = some room → SameMembers w w' →
      (Headed roomID w' ↔ room.admin ≠ userID) := by
    intro w' hstored' hsame
    have hmembers : w'.members roomID = w.members roomID := by
      unfold World.members
      rw [hsame.joinTimestamp]
    rw [headed_of_roomByID hstored', hmembers]
    exact ⟨fun hmem heq => hout (heq ▸ hmem), hadmin⟩
  rcases settleRoom_cases env room rounds roomID userID w with ⟨hrange, hrun⟩ |
    ⟨hrange, ⟨hempty, hrun⟩ | ⟨hmembers, hrun⟩⟩
  · rw [hrun, hstay w hstored (SameMembers.refl w), hrange]
    simp
  · have hleft : room.admin = userID := by
      by_contra hne
      have hmem := hadmin hne
      rw [hempty] at hmem
      cases hmem
    rw [if_neg (not_not_intro hempty), hrun]
    have hsettle : SameMembers w ((deleteRoom env room rounds).run (w.keptOpen roomID)).2 :=
      SameMembers.trans w (w.keptOpen roomID) _ ⟨rfl, rfl⟩
        (sameMembers_deleteRoom (by rw [hid]; exact hempty))
    rcases deleteRoom_cases env room rounds (w.keptOpen roomID) (by rw [hid]; exact hrounds) with
      ⟨hdel, w', hdelete, hgone⟩ | ⟨hdel, e, w', hdelete, hrooms⟩
    · rw [hdelete]
      rw [hid] at hgone
      exact iff_of_true (Or.inl hgone) fun _ => ⟨hrange, hdel⟩
    · rw [hdelete] at hsettle ⊢
      have hstored' : w'.db.roomByID roomID = some room := by
        unfold DB.roomByID
        rw [hrooms]
        exact hstored
      rw [hstay w' hstored' hsettle]
      exact iff_of_false (not_not_intro hleft) fun h => hdel (h hleft).2
  · rw [hrun, if_pos hmembers]
    by_cases hleft : room.admin = userID
    · obtain ⟨admin, others, hlist⟩ := List.exists_cons_of_ne_nil hmembers
      rw [← hleft]
      rcases replaceAdmin_run env room hlist with ⟨hwell, rs, hreplace⟩ |
        ⟨hfails, e, hreplace⟩
      · rw [hreplace, hid]
        refine iff_of_true ?_ fun _ => ⟨hrange, hwell⟩
        refine (headed_of_roomByID (roomByID_withAdmin hstored admin)).mpr ?_
        show admin ∈ w.members roomID
        rw [hlist]
        exact List.mem_cons_self
      · rw [hreplace, hstay w hstored (SameMembers.refl w)]
        exact iff_of_false (not_not_intro hleft) fun h => hfails (h rfl).2
    · have hkeep : (replaceAdmin env roomID room userID).run w = (.ok (), w) := by
        unfold replaceAdmin
        rw [if_neg hleft]
        rfl
      rw [hkeep, hstay w hstored (SameMembers.refl w)]
      exact iff_of_true hleft fun h => absurd h hleft

end Leave

/-- After a user left a room whose admin was a member, the room is deleted or has its admin in it
exactly when it was not the admin who departed, or he handed the room over. -/
theorem headed_iff (env : Env) (roomID : RoomID) (userID : AuthID) (w : World) (room : Room)
    (hstored : w.db.roomByID roomID = some room) (hadmin : room.admin ∈ w.members roomID) :
    Headed roomID ((leaveRoom env roomID userID).run w).2 ↔
      AdminDeparts env roomID userID w.db → HandsOver env roomID userID w := by
  have hsame : ∀ room', Findable env roomID w.db room' → room' = room := fun room' h =>
    h.eq_of_roomByID hstored
  have hleft : ∀ rs, ((w.left env roomID userID).tell rs).db.roomByID roomID = some room :=
    fun _ => hstored
  have hmem := mem_members_left env roomID userID w
  -- The exits of the leave, in the order of the code.
  rcases leaveRoom_cases env roomID userID w with ⟨e, hrun, hnot⟩ | ⟨room', hroom, hzrem, hrest⟩
  · rw [hrun, headed_of_roomByID hstored]
    refine iff_of_true hadmin ?_
    rintro ⟨⟨room', hroom, -⟩, hzrem⟩
    rw [hnot room' hroom] at hzrem
    cases hzrem
  obtain rfl := hsame room' hroom
  have hid : room'.id = roomID := id_of_roomByID hstored
  -- The admin departs when he is the one who leaves, as his member key goes.
  have hdeparts : AdminDeparts env roomID userID w.db ↔ room'.admin = userID := by
    constructor
    · rintro ⟨⟨room'', hroom'', heq⟩, -⟩
      rwa [hsame room'' hroom''] at heq
    · exact fun heq => ⟨⟨room', hroom, heq⟩, hzrem⟩
  rw [hdeparts]
  rcases hrest with ⟨hmember, e, hrun⟩ | ⟨hmember, rs, ⟨hreply, hrun⟩ | ⟨hreply, hrun⟩⟩
  · -- Who is not a member is not the admin.
    have hne : room'.admin ≠ userID := by
      rintro rfl
      rw [World.members, SortedSet.mem_members, hmember] at hadmin
      cases hadmin
    have hstored' : (w.left env roomID userID).db.roomByID roomID = some room' := hstored
    rw [hrun, headed_of_roomByID hstored']
    exact iff_of_true ((hmem _).mpr ⟨hadmin, hne⟩) fun heq => absurd heq hne
  · rw [hrun, headed_of_roomByID (hleft rs)]
    -- rtc-service was not told: the leave stops before the admin is replaced.
    show room'.admin ∈ (w.left env roomID userID).members roomID ↔ _
    rw [hmem]
    constructor
    · exact fun h heq => absurd heq h.2
    · exact fun hcond => ⟨hadmin, fun heq => hreply (hcond heq).1⟩
  · have hrounds : ∀ r ∈ w.db.rounds.rows, r.roomID = roomID →
        r ∈ w.db.roundsOf env.rounds roomID := fun r hr hof =>
      env.rounds.mem_order.mpr (List.mem_filter.mpr ⟨hr, decide_eq_true hof⟩)
    have hsettle := headed_settleRoom env userID (w := (w.left env roomID userID).tell rs)
      hid hrounds (hleft rs) (fun h => ((hmem _).mp h).2 rfl)
      (fun hne => (hmem _).mpr ⟨hadmin, hne⟩)
    -- After the leave the room is settled by whether anybody is left.
    have hothers : ((w.left env roomID userID).tell rs).members roomID ≠ [] ↔
        ∃ user ∈ w.members roomID, user ≠ userID := by
      constructor
      · intro hne
        obtain ⟨user, huser⟩ := List.exists_mem_of_ne_nil _ hne
        exact ⟨user, (hmem user).mp huser⟩
      · rintro ⟨user, huser⟩
        exact List.ne_nil_of_mem ((hmem user).mpr huser)
    rw [hrun, hid, hsettle]
    unfold HandsOver
    by_cases hany : ∃ user ∈ w.members roomID, user ≠ userID
    · rw [if_pos (hothers.mpr hany), if_pos hany]
      exact imp_congr_right fun _ => (and_iff_right hreply).symm
    · rw [if_neg (mt hothers.mp hany), if_neg hany]
      exact imp_congr_right fun _ => (and_iff_right hreply).symm

/-- When nothing fails, the room of the only member is deleted. -/
theorem headed_ready : Headed roomOne ((leaveRoom (Env.faultless 10) roomOne host).run .ready).2 := by
  refine (headed_iff (Env.faultless 10) roomOne host .ready ⟨roomOne, host, false, isUUID_roomOne⟩
    (by decide +kernel) (by decide +kernel)).mpr fun _ => ⟨rfl, rfl, ?_⟩
  rw [if_neg (by decide +kernel)]
  exact ⟨rfl, fun _ _ => ⟨rfl, rfl, rfl, rfl⟩, rfl⟩

/-- The environment in which rtc-service refuses to let a user leave, as it does when the room does
not exist there. -/
def Env.leaveRefused : Env :=
  { Env.faultless 10 with reply := fun call => if call = .leaveRoom then .refused else .ok }

/-- When rtc-service refuses, the room of the only member is left without members, and not
deleted. -/
theorem not_headed :
    (World.ready.db.roomByID roomOne = some ⟨roomOne, host, false, isUUID_roomOne⟩ ∧
      host ∈ World.ready.members roomOne) ∧
      ¬ Headed roomOne ((leaveRoom .leaveRefused roomOne host).run .ready).2 := by
  refine ⟨by decide +kernel, fun h => ?_⟩
  let result := (leaveRoom .leaveRefused roomOne host).run .ready
  have hroom : result.2.db.roomByID roomOne = some ⟨roomOne, host, false, isUUID_roomOne⟩ := by
    decide +kernel
  have hmembers : result.2.members roomOne = [] := by decide +kernel
  have hin : host ∈ result.2.members roomOne := (headed_of_roomByID hroom).mp h
  rw [hmembers] at hin
  cases hin

end Bsg.Central
