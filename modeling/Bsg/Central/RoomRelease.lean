import Bsg.Central.ActiveRoom
import Bsg.Rtc.Service

/-!
# When rtc-service lets a room go

central-service tells rtc-service who joins and who leaves a room, and rtc-service deletes a room
when the last of its users leaves (`LeaveRoomRequest.Handle`). But others put users into a room as
well: the background worker of the extension joins under a handle of its own (`sendJoinRoom` in
`extension/background.js`), which nobody ever takes out again. And central-service tells rtc-service
the text by which a request names the room, but it deletes the room with the members under its id.
So the room of rtc-service follows that of central-service exactly when the last member who leaves
is the last user as well, and no leave under another text than the id deletes the room before
(`released_iff`), and never again once a worker has joined it (`worker_stays`).
-/

namespace Bsg.Central

open Bsg.Foundations

/-! ## The two services -/

/-- central-service and rtc-service. -/
structure Services where
  world : World
  rtc : Rtc.Server

/-- An event of one of the services. central-service sends its requests on a connection, and
rtc-service takes them before anything else happens. -/
inductive ServiceEvent where
  | central (m : Rtc.Moment) (conn : ℕ) (e : Env × RoomEvent)
  | rtc (e : Rtc.ServerEvent)

/-- rtc-service takes requests of central-service. -/
def receiveAll (s : Rtc.Server) (m : Rtc.Moment) (conn : ℕ) (rs : List Rtc.Request) : Rtc.Server :=
  rs.foldl (fun s r => (s.receive m conn (.request Rtc.centralServiceName (.of r))).1) s

def Services.step (s : Services) : ServiceEvent → Services
  | .central m conn e =>
    ⟨s.world.serve e, receiveAll s.rtc m conn ((s.world.serve e).sent.drop s.world.sent.length)⟩
  | .rtc e => ⟨s.world, s.rtc.step e⟩

/-- The events of central-service are requests to join or to leave. -/
def ServiceEvent.isJoinOrLeave : ServiceEvent → Bool
  | .central _ _ e => e.2.isJoinOrLeave
  | .rtc _ => true

/-- Without members in central-service there is no room in rtc-service. -/
def Released (roomID : RoomID) (s : Services) : Prop :=
  s.world.members roomID = [] → s.rtc.rooms roomID = none

instance (roomID : RoomID) (s : Services) : Decidable (Released roomID s) :=
  inferInstanceAs (Decidable (_ → _))

/-- The user is the only one in the room, as rtc-service has it. -/
def OnlyUser (roomID : RoomID) (userID : AuthID) (s : Rtc.Server) : Prop :=
  ∃ room, s.rooms roomID = some room ∧ userID ∈ room.users ∧ ∀ u ∈ room.users, u = userID

/-- The last member who leaves is the last user, and rtc-service gets to know; a leave under another
text that takes everybody out of the room finds it gone in rtc-service; and nobody joins in
rtc-service a room without members. -/
def Releases (roomID : RoomID) (s : Services) : ServiceEvent → Prop
  | .central _ _ (env, .leaveRoom r userID) => ∀ room, Findable env r s.world.db room →
      env.fails .zremJoin = false →
        (r = roomID → s.world.members roomID = [userID] → s.rtc.rooms roomID = none ∨
          env.reply .leaveRoom ≠ .unwritten ∧ OnlyUser roomID userID s.rtc) ∧
        (room.id = roomID → EmptiesById env r userID room s.world → s.rtc.rooms roomID = none)
  | .central _ _ _ => True
  | .rtc e =>
    ∀ userHandle userName suppress filter,
      e.request? = some (.joinRoom userHandle roomID userName suppress filter) →
        userHandle ≠ [] → roomID ≠ "" → s.world.members roomID ≠ []

/-! ## What rtc-service makes of requests -/

/-- Rooms after some requests are those that handling the requests gives. -/
theorem chatManager_receiveAll (s : Rtc.Server) (m : Rtc.Moment) (conn : ℕ)
    (rs : List Rtc.Request) :
    (receiveAll s m conn rs).rooms.chatManager = Rtc.handleAll s.rooms.chatManager rs := by
  induction rs generalizing s with
  | nil => rfl
  | cons r rs ih =>
    change (receiveAll (s.receive m conn _).1 m conn rs).rooms.chatManager = _
    rw [ih, Rtc.Server.receive_chatManager]
    rfl

/-- A room without a history is no room. -/
theorem chatManager_eq_none {s : Rtc.Server} {roomID : RoomID} :
    s.rooms.chatManager roomID = none ↔ s.rooms roomID = none := Option.map_eq_none_iff

/-- Requests about another room leave this one alone. -/
theorem handleAll_of_ne {m : Rtc.ChatManager} {rs : List Rtc.Request} {roomID : RoomID}
    (h : ∀ r ∈ rs, r.roomID ≠ roomID) : Rtc.handleAll m rs roomID = m roomID := by
  induction rs generalizing m with
  | nil => rfl
  | cons r rs ih =>
    rw [Rtc.handleAll_cons, ih fun r' hr' => h r' (List.mem_cons_of_mem _ hr'),
      Rtc.handle_of_ne (h r List.mem_cons_self)]

/-- A room is made by a complete join, and by nothing else. -/
theorem handle_eq_none {m : Rtc.ChatManager} {r : Rtc.Request} {roomID : RoomID}
    (hnone : m roomID = none) :
    Rtc.handle m r roomID = none ↔ ∀ userHandle userName suppress filter,
      r = .joinRoom userHandle roomID userName suppress filter → userHandle ≠ [] → roomID = "" := by
  -- Anything but a complete join has both sides.
  have hnojoin : r.NoJoin → ∀ userHandle userName suppress filter,
      r = .joinRoom userHandle roomID userName suppress filter → userHandle ≠ [] → roomID = "" :=
    fun hjoin _ _ _ _ heq huser => (hjoin _ _ _ _ _ heq).resolve_left huser
  have hturns := Rtc.turns_handle m r
  generalize Rtc.handle m r = m' at hturns ⊢
  cases hturns with
  | nothing r hjoin => exact iff_of_true hnone (hnojoin hjoin)
  | join userHandle id userName suppress filter hhandle hid =>
    obtain rfl | hne := eq_or_ne roomID id
    · rw [Function.update_self]
      exact iff_of_false (by simp) fun h => hid (h _ _ _ _ rfl hhandle)
    · rw [Function.update_of_ne hne]
      refine iff_of_true hnone ?_
      rintro _ _ _ _ ⟨⟩
      exact absurd rfl hne
  | leave userHandle id userName room hroom huser =>
    have hne : roomID ≠ id := by
      rintro rfl
      rw [hnone] at hroom
      cases hroom
    rw [Function.update_of_ne hne]
    exact iff_of_true hnone (hnojoin (by rintro _ _ _ _ _ ⟨⟩))
  | round r f hjoin husers hfilter =>
    refine iff_of_true ?_ (hnojoin hjoin)
    obtain heq | hne := eq_or_ne r.roomID roomID
    · rw [heq, Rtc.ChatManager.onRoom_self, hnone, Option.map_none]
    · rw [m.onRoom_of_ne hne.symm, hnone]
  | expire id =>
    refine iff_of_true ?_ (hnojoin (by rintro _ _ _ _ _ ⟨⟩))
    obtain rfl | hne := eq_or_ne roomID id
    · exact Function.update_self _ _ _
    · rw [Function.update_of_ne hne, hnone]

/-- After a leave a room is gone when the leaving user was its only one. -/
theorem handle_leaveRoom_eq_none {s : Rtc.Server} {roomID : RoomID} {userID : GoText}
    (userName : GoText) :
    Rtc.handle s.rooms.chatManager (.leaveRoom userID roomID userName) roomID = none ↔
      s.rooms roomID = none ∨ OnlyUser roomID userID s := by
  unfold OnlyUser
  cases hroom : s.rooms roomID with
  | none =>
    have hnone : s.rooms.chatManager roomID = none := chatManager_eq_none.mpr hroom
    simp only [Rtc.handle, hnone, true_or]
  | some room =>
    have hsome : s.rooms.chatManager roomID = some room.toRoom := by
      rw [Rtc.Rooms.chatManager, hroom, Option.map_some]
    -- Nobody is left when everybody is the one who leaves.
    have honly : (room.toRoom.removeUser userID).users = [] ↔ ∀ u ∈ room.users, u = userID := by
      unfold Rtc.Room.removeUser
      rw [List.filter_eq_nil_iff]
      simp
    simp only [Rtc.handle, hsome]
    by_cases huser : userID ∈ room.users
    · rw [if_pos huser]
      by_cases hrest : (room.toRoom.removeUser userID).users = []
      · rw [if_pos hrest, Function.update_self]
        exact iff_of_true rfl (Or.inr ⟨room, rfl, huser, honly.mp hrest⟩)
      · rw [if_neg hrest, Function.update_self]
        refine iff_of_false (by simp) ?_
        rintro (h | ⟨room', h, -, hall⟩)
        · cases h
        · cases h
          exact hrest (honly.mpr hall)
    · rw [if_neg huser, hsome]
      refine iff_of_false (by simp) ?_
      rintro (h | ⟨room', h, hin, -⟩)
      · cases h
      · cases h
        exact huser hin

/-! ## What central-service sends -/

/-- What was sent in between are requests of this kind. -/
def Tells (kind : Rtc.Request → Prop) (w w' : World) : Prop :=
  ∃ rs, w'.sent = w.sent ++ rs ∧ ∀ r ∈ rs, kind r

section Tells

variable {kind : Rtc.Request → Prop} {env : Env} {roomID : RoomID} {userID : AuthID} {room : Room}
  {w w' : World}

/-- A step that sends nothing. -/
theorem Tells.of_sent (h : w'.sent = w.sent) : Tells kind w w' :=
  ⟨[], h.trans (List.append_nil _).symm, fun r hr => by cases hr⟩

/-- Nothing was sent yet. -/
theorem Tells.refl (w : World) : Tells kind w w := .of_sent rfl

/-- What is sent in two steps is sent in both. -/
theorem Tells.trans (w₁ w₂ w₃ : World) (h : Tells kind w₁ w₂) (h' : Tells kind w₂ w₃) :
    Tells kind w₁ w₃ := by
  obtain ⟨rs, hsent, hkind⟩ := h
  obtain ⟨rs', hsent', hkind'⟩ := h'
  refine ⟨rs ++ rs', by rw [hsent', hsent, List.append_assoc], fun r hr => ?_⟩
  rcases List.mem_append.mp hr with hr | hr
  · exact hkind r hr
  · exact hkind' r hr

/-- A request of the kind that is asked for is sent. -/
theorem tells_delivered {reply : RtcReply} {req : Rtc.Request} (h : kind req) (w : World) :
    Tells kind w (w.tell (delivered reply req)) := by
  refine ⟨_, rfl, fun r hr => ?_⟩
  unfold delivered at hr
  split at hr
  · cases hr
  · rw [List.mem_singleton] at hr
    exact hr ▸ h

/-- Writing to Redis sends nothing. -/
theorem tells_writeRedis (f : Redis → Redis) : Call.Within (Tells kind) (writeRedis f) :=
  Call.Within.write fun _ => .of_sent rfl

/-- Writing to the database sends nothing. -/
theorem tells_writeDB (f : DB → DB) : Call.Within (Tells kind) (writeDB f) :=
  Call.Within.write fun _ => .of_sent rfl

/-- An error that is logged sends nothing. -/
theorem tells_logged {x : Service Unit} (hx : Call.Within (Tells kind) x) :
    Call.Within (Tells kind) (logged x) := within_logged Tells.refl Tells.trans hx

/-- An operation that may fail sends what follows it sends. -/
theorem tells_io (fails : Bool) {α : Type} {x : Service α} (hx : Call.Within (Tells kind) x) :
    Call.Within (Tells kind) (.io fails .io x) := Call.Within.io Tells.refl _ _ hx

/-- An announcement sends its request. -/
theorem tells_announce (call : RtcCall) {req : Rtc.Request} (h : kind req) :
    Call.Within (Tells kind) (announce env call req) := by
  intro w
  rw [announce_run]
  exact tells_delivered h w

/-- So does one whose failure is only logged. -/
theorem tells_tryAnnounce (call : RtcCall) {req : Rtc.Request} (h : kind req) :
    Call.Within (Tells kind) (tryAnnounce env call req) := by
  intro w
  unfold tryAnnounce
  rw [logged_sendMessage_run]
  exact tells_delivered h w

/-- Adding a member sends nothing. -/
theorem tells_addJoinMember : Call.Within (Tells kind) (addJoinMember env roomID userID) := by
  unfold addJoinMember
  refine Call.Within.bind Tells.trans (tells_io _ ?_) fun added => ?_
  · exact Call.Within.bind Tells.trans (Call.Within.read Tells.refl _) fun member =>
      Call.Within.bind Tells.trans (tells_writeRedis _) fun _ => Call.Within.pure Tells.refl _
  · refine Call.Within.bind Tells.trans (tells_logged (tells_io _ (tells_writeRedis _))) fun _ => ?_
    exact Call.Within.ite _ (Call.Within.pure Tells.refl _) (Call.Within.fail Tells.refl _)

/-- Who enters a room is announced in it, and perhaps in its round. -/
theorem tells_enterRoom
    (hroom : ∀ userName filter, kind (.joinRoom userID roomID userName false filter))
    (hround : ∀ userName, kind (.joinRound roomID userID userName)) (rounds : List Round) :
    Call.Within (Tells kind) (enterRoom env roomID room rounds userID) := by
  unfold enterRoom
  refine Call.Within.bind Tells.trans (Call.Within.read Tells.refl _) fun displayName => ?_
  refine Call.Within.bind Tells.trans (tells_announce _ (hroom _ _)) fun _ => ?_
  cases rounds.getLast? with
  | none => exact Call.Within.pure Tells.refl _
  | some round =>
    refine Call.Within.ite _ ?_ (Call.Within.pure Tells.refl _)
    exact Call.Within.bind Tells.trans (tells_io _ (tells_writeDB _)) fun _ =>
      tells_announce _ (hround _)

/-- A request to join tells of the user who joins. -/
theorem joinRoom_tells
    (hroom : ∀ userName filter, kind (.joinRoom userID roomID userName false filter))
    (hround : ∀ userName, kind (.joinRound roomID userID userName)) :
    Tells kind w ((joinRoom env roomID userID).run w).2 := by
  unfold joinRoom
  by_cases hfind : ∃ room, Findable env roomID w.db room
  · obtain ⟨room, hfound⟩ := hfind
    rw [Call.bind_ok (findRoomByID_run hfound)]
    refine Call.Within.bind Tells.trans tells_addJoinMember (fun _ => ?_) w
    refine Call.Within.bind Tells.trans ?_ fun _ => Call.Within.pure Tells.refl _
    exact tells_enterRoom hroom hround _
  · obtain ⟨e, hrun⟩ := findRoomByID_fails fun room h => hfind ⟨room, h⟩
    rw [Call.bind_err hrun]
    exact Tells.refl w

/-- Deleting a room sends nothing. -/
theorem tells_deleteRoom (rounds : List Round) :
    Call.Within (Tells kind) (deleteRoom env room rounds) := by
  unfold deleteRoom
  refine Call.Within.bind Tells.trans ?_ fun _ => ?_
  · refine Call.Within.bind Tells.trans (Call.Within.read Tells.refl _) fun members => ?_
    refine Call.Within.bind Tells.trans (tells_io _ (tells_writeRedis _)) fun _ => ?_
    exact Call.Within.forEach Tells.refl Tells.trans fun member _ =>
      tells_logged (tells_io _ (tells_writeRedis _))
  refine Call.Within.bind Tells.trans ?_ fun _ => ?_
  · refine Call.Within.forEach Tells.refl Tells.trans fun round _ => ?_
    refine Call.Within.bind Tells.trans (tells_logged (tells_io _ (tells_writeRedis _))) fun _ => ?_
    exact Call.Within.bind Tells.trans (tells_io _ (tells_writeDB _)) fun _ =>
      Call.Within.bind Tells.trans (tells_io _ (tells_writeDB _)) fun _ =>
        Call.Within.bind Tells.trans (tells_io _ (tells_writeDB _)) fun _ =>
          tells_io _ (tells_writeDB _)
  · refine tells_io _ (Call.Within.bind Tells.trans (Call.Within.read Tells.refl _) fun inUse => ?_)
    exact Call.Within.ite _ (Call.Within.fail Tells.refl _) (tells_writeDB _)

/-- A room that gets a new admin is told so. -/
def IsAdminChange (roomID : RoomID) (r : Rtc.Request) : Prop :=
  ∃ adminID adminName, r = .adminChange roomID adminID adminName

/-- When a room is settled, nothing but a new admin is told. -/
theorem tells_settleRoom (env : Env) (userID : AuthID) (room : Room) (rounds : List Round) :
    Call.Within (Tells (IsAdminChange roomID)) (settleRoom env room rounds roomID userID) := by
  unfold settleRoom
  refine Call.Within.bind Tells.trans (tells_io _ (Call.Within.read Tells.refl _)) fun users => ?_
  refine Call.Within.ite _ ?_ (Call.Within.ite _ ?_ (Call.Within.pure Tells.refl _))
  · exact Call.Within.bind Tells.trans (Call.Within.write fun _ => .of_sent rfl) fun _ =>
      tells_deleteRoom rounds
  refine Call.Within.bind Tells.trans ?_ fun admin => ?_
  · refine Call.Within.bind Tells.trans (tells_io _ (Call.Within.read Tells.refl _))
      fun members => ?_
    cases members with
    | nil => exact Call.Within.fail Tells.refl _
    | cons user _ => exact Call.Within.pure Tells.refl user
  refine Call.Within.bind Tells.trans (tells_io _ (tells_writeDB _)) fun _ => ?_
  exact Call.Within.bind Tells.trans (Call.Within.read Tells.refl _) fun name =>
    tells_tryAnnounce _ ⟨_, _, rfl⟩

/-- A member who leaves is told to rtc-service, and after that at most a new admin. -/
theorem leaveRoom_tells (hroom : Findable env roomID w.db room)
    (hzrem : env.fails .zremJoin = false) (hmember : w.isMember roomID userID) :
    ∃ userName rs, ((leaveRoom env roomID userID).run w).2.sent =
        w.sent ++ delivered (env.reply .leaveRoom) (.leaveRoom userID roomID userName) ++ rs ∧
      ∀ r ∈ rs, IsAdminChange roomID r := by
  have hremove := removeJoinMember_run hzrem roomID userID w
  rw [show (w.redis.joinTimestamp roomID).contains userID = true from hmember, if_pos rfl]
    at hremove
  obtain ⟨userName, hname⟩ : ∃ userName, (userDisplayName env userID).run
      (w.left env roomID userID) = (.ok userName, w.left env roomID userID) := ⟨_, rfl⟩
  have hannounce := announce_run env .leaveRoom (.leaveRoom userID roomID userName)
    (w.left env roomID userID)
  unfold leaveRoom
  rw [Call.bind_ok (findRoomByID_run hroom)]
  dsimp only
  rw [Call.bind_ok hremove, Call.bind_ok hname]
  by_cases hreply : env.reply .leaveRoom = .ok
  · rw [if_pos hreply] at hannounce
    rw [Call.bind_ok hannounce]
    -- Settling the room announces at most another admin.
    obtain ⟨rs, hsent, hkind⟩ := tells_settleRoom env userID room
      (w.db.roundsOf env.rounds room.id) ((w.left env roomID userID).tell
        (delivered (env.reply .leaveRoom) (.leaveRoom userID roomID userName)))
    exact ⟨userName, rs, hsent, hkind⟩
  · rw [if_neg hreply] at hannounce
    rw [Call.bind_err hannounce]
    exact ⟨userName, [], (List.append_nil _).symm, fun r hr => by cases hr⟩

/-- A request to leave that takes nobody out tells nobody. -/
theorem leaveRoom_silent (h : ∀ room, Findable env roomID w.db room → env.fails .zremJoin = false →
    ¬ w.isMember roomID userID) : ((leaveRoom env roomID userID).run w).2.sent = w.sent := by
  rcases leaveRoom_cases env roomID userID w with ⟨e, hrun, -⟩ | ⟨room, hroom, hzrem,
    ⟨-, e, hrun⟩ | ⟨hmember, -⟩⟩
  · rw [hrun]
  · rw [hrun]
    rfl
  · exact absurd hmember (h room hroom hzrem)

/-- A request to leave tells of the user who leaves. -/
theorem leaveRoom_tells_kind (hleave : ∀ userName, kind (.leaveRoom userID roomID userName))
    (hadmin : ∀ r, IsAdminChange roomID r → kind r) :
    Tells kind w ((leaveRoom env roomID userID).run w).2 := by
  by_cases hgoes : (∃ room, Findable env roomID w.db room) ∧ env.fails .zremJoin = false ∧
      w.isMember roomID userID
  · obtain ⟨⟨room, hroom⟩, hzrem, hmember⟩ := hgoes
    obtain ⟨userName, rs, hsent, hkind⟩ := leaveRoom_tells hroom hzrem hmember
    have htold : Tells kind w
        (w.tell (delivered (env.reply .leaveRoom) (.leaveRoom userID roomID userName))) :=
      tells_delivered (hleave userName) w
    exact Tells.trans _ _ _ htold ⟨rs, hsent, fun r hr => hadmin r (hkind r hr)⟩
  · exact .of_sent (leaveRoom_silent fun room hroom hzrem hmember =>
      hgoes ⟨⟨room, hroom⟩, hzrem, hmember⟩)

/-- A request to leave under another text tells nothing about this one. -/
theorem leaveRoom_tells_other {r : RoomID} (hne : r ≠ roomID) :
    Tells (fun req => req.roomID ≠ roomID) w ((leaveRoom env r userID).run w).2 := by
  refine leaveRoom_tells_kind (fun _ => hne) fun req hadmin => ?_
  obtain ⟨adminID, adminName, rfl⟩ := hadmin
  exact hne

end Tells

/-! ## One step -/

section Step

variable {roomID : RoomID} {s : Services} {m : Rtc.Moment} {conn : ℕ} {e : Env × RoomEvent}

/-- The rooms of rtc-service after an event of central-service. -/
theorem chatManager_central {rs : List Rtc.Request}
    (hsent : (s.world.serve e).sent = s.world.sent ++ rs) :
    (s.step (.central m conn e)).rtc.rooms.chatManager =
      Rtc.handleAll s.rtc.rooms.chatManager rs := by
  change (receiveAll s.rtc m conn ((s.world.serve e).sent.drop _)).rooms.chatManager = _
  rw [hsent, List.drop_left, chatManager_receiveAll]

/-- An event that takes nobody out of the room and tells nothing about it. -/
theorem released_of_other
    (hmembers : (s.world.serve e).members roomID = [] → s.world.members roomID = [])
    (htells : Tells (fun r => r.roomID ≠ roomID) s.world (s.world.serve e))
    (h : Released roomID s) : Released roomID (s.step (.central m conn e)) := by
  intro hempty
  obtain ⟨rs, hsent, hother⟩ := htells
  rw [← chatManager_eq_none, chatManager_central hsent, handleAll_of_ne hother]
  exact chatManager_eq_none.mpr (h (hmembers hempty))

/-- A request to join leaves a member behind, or changes nothing. -/
theorem released_join (env : Env) (r : RoomID) (userID : AuthID) (h : Released roomID s) :
    Released roomID (s.step (.central m conn (env, .joinRoom r userID))) := by
  have hserve : s.world.serve (env, .joinRoom r userID) =
      ((joinRoom env r userID).run s.world).2 := rfl
  rcases joinRoom_members env r userID s.world with ⟨hsame, -⟩ | ⟨-, -, hsame⟩
  · rw [← hserve] at hsame
    exact released_of_other (fun hempty => by rwa [hsame] at hempty) (.of_sent (by rw [hsame])) h
  · obtain rfl | hne := eq_or_ne r roomID
    · intro hempty
      have hmember : (s.world.serve (env, .joinRoom r userID)).isMember r userID := by
        rw [hserve, isMember_congr hsame, isMember_joined]
        exact Or.inr ⟨rfl, rfl⟩
      have hin : userID ∈ (s.world.serve (env, .joinRoom r userID)).members r :=
        (SortedSet.mem_members _ _).mpr hmember
      change (s.world.serve (env, .joinRoom r userID)).members r = [] at hempty
      rw [hempty] at hin
      cases hin
    · refine released_of_other ?_ ?_ h
      · intro hempty
        rw [hserve, World.members, hsame.joinTimestamp] at hempty
        rw [World.members, ← hempty]
        exact congrArg SortedSet.members (Function.update_of_ne hne.symm _ _).symm
      · exact joinRoom_tells (fun _ _ => hne) (fun _ => hne)

/-- A leave under another text, of a room that keeps its members under this one, if any. -/
theorem released_leave_other (env : Env) {r : RoomID} (userID : AuthID) (hne : r ≠ roomID)
    (hkeeps : ∀ room, Findable env r s.world.db room → env.fails .zremJoin = false →
      room.id = roomID → ¬ EmptiesById env r userID room s.world)
    (h : Released roomID s) :
    Released roomID (s.step (.central m conn (env, .leaveRoom r userID))) := by
  have hserve : s.world.serve (env, .leaveRoom r userID) =
      ((leaveRoom env r userID).run s.world).2 := rfl
  have hleft : (s.world.left env r userID).members roomID = s.world.members roomID :=
    congrArg SortedSet.members (Function.update_of_ne hne.symm _ _)
  refine released_of_other (fun hempty => ?_) (leaveRoom_tells_other hne) h
  rw [hserve] at hempty
  rcases leaveRoom_members env r userID s.world with ⟨hsame, -⟩ | ⟨room, hroom, hzrem,
    ⟨-, hsame⟩ | ⟨hall, hsame⟩⟩
  · rwa [hsame] at hempty
  · rwa [World.members, hsame.joinTimestamp, ← World.members, hleft] at hempty
  · -- The room that is deleted is another one.
    have hother : room.id ≠ roomID := fun hid => hkeeps room hroom hzrem hid hall
    have hstay : ((s.world.left env r userID).emptied env room.id).members roomID =
        (s.world.left env r userID).members roomID :=
      congrArg SortedSet.members (Function.update_of_ne hother.symm _ _)
    rwa [World.members, hsame.joinTimestamp, ← World.members, hstay, hleft] at hempty

/-- A leave under another text that takes everybody out of the room: rtc-service is not told. -/
theorem released_leave_emptied {env : Env} {r : RoomID} {userID : AuthID} {room : Room}
    (hroom : Findable env r s.world.db room) (hzrem : env.fails .zremJoin = false)
    (hid : room.id = roomID) (hall : EmptiesById env r userID room s.world) :
    Released roomID (s.step (.central m conn (env, .leaveRoom r userID))) ↔
      s.rtc.rooms roomID = none := by
  have hne : r ≠ roomID := fun heq => hall.other (hid.trans heq.symm)
  -- The leave deletes the room, and takes the members out under its id.
  have hmembers : (s.step (.central m conn (env, .leaveRoom r userID))).world.members roomID = [] := by
    show ((leaveRoom env r userID).run s.world).2.members roomID = []
    rcases leaveRoom_members env r userID s.world with ⟨-, hnot⟩ | ⟨room', hroom', -,
      ⟨hone, -⟩ | ⟨-, hsame⟩⟩
    · exact absurd (hzrem.symm.trans (hnot room hroom)) Bool.false_ne_true
    · rw [hroom.unique hroom' rfl] at hone
      exact absurd hall hone
    · rw [World.members, hsame.joinTimestamp, hroom.unique hroom' rfl, hid]
      show (Function.update (s.world.left env r userID).redis.joinTimestamp roomID .empty
        roomID).members = []
      rw [Function.update_self]
      rfl
  -- But rtc-service is told of the text that the request had, which is another room to it.
  have htells : Tells (fun req => req.roomID ≠ roomID) s.world
      ((leaveRoom env r userID).run s.world).2 := leaveRoom_tells_other hne
  obtain ⟨rs, hsent, hother⟩ := htells
  unfold Released
  rw [hmembers, ← chatManager_eq_none, ← chatManager_eq_none,
    show _ = Rtc.handleAll s.rtc.rooms.chatManager rs from
      chatManager_central (e := (env, .leaveRoom r userID)) hsent, handleAll_of_ne hother]
  exact ⟨fun h => h rfl, fun h _ => h⟩

/-- A request to leave that takes nobody out. -/
theorem released_leave_nobody (env : Env) (userID : AuthID)
    (hnobody : ∀ room, Findable env roomID s.world.db room → env.fails .zremJoin = false →
      ¬ s.world.isMember roomID userID)
    (h : Released roomID s) :
    Released roomID (s.step (.central m conn (env, .leaveRoom roomID userID))) := by
  refine released_of_other (fun hempty => ?_) (.of_sent (leaveRoom_silent hnobody)) h
  change ((leaveRoom env roomID userID).run s.world).2.members roomID = [] at hempty
  rcases leaveRoom_members env roomID userID s.world with ⟨hsame, -⟩ | ⟨room, hroom, hzrem,
    ⟨-, hsame⟩ | ⟨hall, -⟩⟩
  · rwa [hsame] at hempty
  · rw [List.eq_nil_iff_forall_not_mem]
    intro u hu
    have hmember : s.world.isMember roomID u := (SortedSet.mem_members _ _).mp hu
    have hne : u ≠ userID := fun heq => hnobody room hroom hzrem (heq ▸ hmember)
    have hleft : u ∈ ((leaveRoom env roomID userID).run s.world).2.members roomID := by
      rw [World.members, hsame.joinTimestamp]
      exact (mem_members_left env roomID userID s.world u).mpr ⟨hu, hne⟩
    rw [hempty] at hleft
    cases hleft
  · exact absurd hall.member (hnobody room hroom hzrem)

/-- A member leaves the room. -/
theorem released_leave {env : Env} {userID : AuthID} {room : Room}
    (hroom : Findable env roomID s.world.db room) (hzrem : env.fails .zremJoin = false)
    (hmember : s.world.isMember roomID userID) :
    Released roomID (s.step (.central m conn (env, .leaveRoom roomID userID))) ↔
      (s.world.members roomID = [userID] →
        s.rtc.rooms roomID = none ∨
          env.reply .leaveRoom ≠ .unwritten ∧ OnlyUser roomID userID s.rtc) := by
  obtain ⟨userName, rs, hsent, hadmin⟩ := leaveRoom_tells hroom hzrem hmember
  -- Changes of the admin leave the rooms of rtc-service.
  have hchanges : ∀ cm, Rtc.handleAll cm rs = cm := by
    intro cm
    clear hsent
    induction rs with
    | nil => rfl
    | cons r rs ih =>
      obtain ⟨adminID, adminName, rfl⟩ := hadmin r List.mem_cons_self
      exact ih fun r' hr' => hadmin r' (List.mem_cons_of_mem _ hr')
  have hrooms : (s.step (.central m conn (env, .leaveRoom roomID userID))).rtc.rooms.chatManager =
      Rtc.handleAll s.rtc.rooms.chatManager
        (delivered (env.reply .leaveRoom) (.leaveRoom userID roomID userName)) := by
    rw [chatManager_central (s := s) (e := (env, .leaveRoom roomID userID))
      (hsent.trans (List.append_assoc _ _ _)), Rtc.handleAll_append, hchanges]
  have hmembers : (s.step (.central m conn (env, .leaveRoom roomID userID))).world.members roomID =
      (s.world.left env roomID userID).members roomID := by
    change ((leaveRoom env roomID userID).run s.world).2.members roomID = _
    rcases leaveRoom_members env roomID userID s.world with ⟨-, hnot⟩ | ⟨room', -, -,
      ⟨-, hsame⟩ | ⟨hall, hsame⟩⟩
    · exact absurd (hzrem.symm.trans (hnot room hroom)) Bool.false_ne_true
    · rw [World.members, hsame.joinTimestamp]
      rfl
    · -- Who is taken out with the room was in it under its id.
      rw [World.members, hsame.joinTimestamp]
      exact congrArg SortedSet.members (Function.update_of_ne hall.other.symm _ _)
  unfold Released
  rw [hmembers, members_left_eq_nil hmember, ← chatManager_eq_none, hrooms]
  refine imp_congr_right fun _ => ?_
  unfold delivered
  by_cases hreply : env.reply .leaveRoom = .unwritten
  · rw [if_pos hreply, Rtc.handleAll_nil, chatManager_eq_none]
    exact ⟨Or.inl, fun h => h.resolve_right fun hr => hr.1 hreply⟩
  · rw [if_neg hreply]
    refine (handle_leaveRoom_eq_none userName).trans (or_congr_right ?_)
    exact ⟨fun h => ⟨hreply, h⟩, And.right⟩

/-- An event lets a room without members go exactly when the last member who leaves is the last
user, and nobody joins such a room. -/
theorem released_step_iff (e : ServiceEvent) (hkind : e.isJoinOrLeave = true)
    (h : Released roomID s) : Released roomID (s.step e) ↔ Releases roomID s e := by
  cases e with
  | rtc e =>
    have hstep := s.rtc.chatManager_step e
    unfold Released Releases
    rw [← chatManager_eq_none]
    change (s.world.members roomID = [] → (s.rtc.step e).rooms.chatManager roomID = none) ↔ _
    -- Only a complete join makes a room; anything else leaves it missing.
    rw [hstep]
    cases hreq : e.request? with
    | none =>
      refine iff_of_true (fun hempty => chatManager_eq_none.mpr (h hempty)) ?_
      intro _ _ _ _ heq
      rw [hreq] at heq
      cases heq
    | some r =>
      constructor
      · intro hnone userHandle userName suppress filter heq huser hid hempty
        rw [hreq] at heq
        have hbefore := chatManager_eq_none.mpr (h hempty)
        exact hid ((handle_eq_none hbefore).mp (hnone hempty) _ _ _ _ (Option.some.inj heq) huser)
      · intro hjoins hempty
        refine (handle_eq_none (chatManager_eq_none.mpr (h hempty))).mpr ?_
        rintro userHandle userName suppress filter rfl huser
        by_contra hid
        exact hjoins _ _ _ _ hreq huser hid hempty
  | central m conn e =>
    obtain ⟨env, event⟩ := e
    cases event with
    | joinRoom r userID => exact iff_of_true (released_join env r userID h) trivial
    | leaveRoom r userID =>
      obtain rfl | hne := eq_or_ne r roomID
      · -- The leave goes through, and it is the last one or not; otherwise nothing happens.
        by_cases hgoes : (∃ room, Findable env r s.world.db room) ∧ env.fails .zremJoin = false ∧
          s.world.isMember r userID
        · obtain ⟨⟨room, hroom⟩, hzrem, hmember⟩ := hgoes
          rw [released_leave hroom hzrem hmember]
          exact ⟨fun hrel _ _ _ => ⟨fun _ => hrel, fun hid hall => absurd hid hall.other⟩,
            fun hrel => (hrel room hroom hzrem).1 rfl⟩
        · refine iff_of_true (released_leave_nobody env userID
            (fun room hroom hzrem hmember => hgoes ⟨⟨room, hroom⟩, hzrem, hmember⟩) h) ?_
          refine fun room hroom hzrem => ⟨fun _ hone => ?_, fun hid hall => absurd hid hall.other⟩
          have hin : userID ∈ s.world.members r := by
            rw [hone]
            exact List.mem_singleton_self _
          exact absurd ⟨⟨room, hroom⟩, hzrem, (SortedSet.mem_members _ _).mp hin⟩ hgoes
      · -- Under another text only the deletion of the room concerns it.
        by_cases hgoes : ∃ room, Findable env r s.world.db room ∧ env.fails .zremJoin = false ∧
          room.id = roomID ∧ EmptiesById env r userID room s.world
        · obtain ⟨room, hroom, hzrem, hid, hall⟩ := hgoes
          rw [released_leave_emptied hroom hzrem hid hall]
          exact ⟨fun hnone _ _ _ => ⟨fun heq => absurd heq hne, fun _ _ => hnone⟩,
            fun hrel => (hrel room hroom hzrem).2 hid hall⟩
        · refine iff_of_true (released_leave_other env userID hne
            (fun room hroom hzrem hid hall => hgoes ⟨room, hroom, hzrem, hid, hall⟩) h) ?_
          exact fun room hroom hzrem => ⟨fun heq => absurd heq hne,
            fun hid hall => absurd ⟨room, hroom, hzrem, hid, hall⟩ hgoes⟩
    | _ => cases hkind

end Step

/-- In every run of joins and leaves the room of rtc-service follows that of central-service exactly
when the last member who leaves it is its last user, too, and nobody joins it without members. -/
theorem released_iff (roomID : RoomID) (s : Services) (es : List ServiceEvent)
    (hkind : ∀ e ∈ es, e.isJoinOrLeave = true) (h : Released roomID s) :
    Throughout Services.step (Released roomID) s es ↔
      Along Services.step (Releases roomID) s es := by
  have hexact : ∀ (s : Services) (e : ServiceEvent), True → e.isJoinOrLeave = true →
      Released roomID s → (Released roomID (s.step e) ↔ Releases roomID s e) :=
    fun s e _ hjoins hreleased => released_step_iff e hjoins hreleased
  exact throughout_iff_along (fun _ _ _ _ => trivial) hexact trivial h (Along.of_mem hkind)

/-! ## Workers stay -/

/-- The user is in the room, as rtc-service has it. -/
def HasUser (roomID : RoomID) (userHandle : GoText) (m : Rtc.ChatManager) : Prop :=
  ∃ room, m roomID = some room ∧ userHandle ∈ room.users

/-- The request does not take the user out of the room. -/
def Spares (roomID : RoomID) (userHandle : GoText) : Rtc.Request → Prop
  | .leaveRoom u r _ => ¬ (r = roomID ∧ u = userHandle)
  | .roomExpired r => r ≠ roomID
  | _ => True

/-- No leave and no expiry of the event takes the user out of the room. -/
def ServiceEvent.Spares (roomID : RoomID) (userHandle : GoText) : ServiceEvent → Prop
  | .central _ _ (_, .leaveRoom r userID) => ¬ (r = roomID ∧ userID = userHandle)
  | .central _ _ (_, .joinRoom _ _) => True
  | .central _ _ _ => False
  | .rtc e => ∀ r, e.request? = some r → Central.Spares roomID userHandle r

section Spares

variable {roomID : RoomID} {userHandle : GoText} {m : Rtc.ChatManager}

/-- A user who is added is there. -/
theorem mem_users_addUser (r : Rtc.Room) (userHandle : GoText) :
    userHandle ∈ (r.addUser userHandle).users := by
  unfold Rtc.Room.addUser
  split
  · assumption
  · exact List.mem_cons_self

/-- A change of a room that keeps its users. -/
theorem HasUser.onRoom (h : HasUser roomID userHandle m) (id : RoomID) {f : Rtc.Room → Rtc.Room}
    (hf : ∀ r, (f r).users = r.users) : HasUser roomID userHandle (m.onRoom id f) := by
  obtain ⟨room, hroom, huser⟩ := h
  obtain rfl | hne := eq_or_ne roomID id
  · refine ⟨f room, by rw [Rtc.ChatManager.onRoom_self, hroom, Option.map_some], ?_⟩
    rwa [hf]
  · exact ⟨room, by rw [m.onRoom_of_ne hne, hroom], huser⟩

/-- Who is spared stays. -/
theorem HasUser.handle (h : HasUser roomID userHandle m) {r : Rtc.Request}
    (hspares : Spares roomID userHandle r) : HasUser roomID userHandle (Rtc.handle m r) := by
  obtain ⟨room, hroom, huser⟩ := h
  have hturns := Rtc.turns_handle m r
  generalize Rtc.handle m r = m' at hturns ⊢
  cases hturns with
  | nothing r hjoin => exact ⟨room, hroom, huser⟩
  | join u id userName suppress filter hhandle hid =>
    obtain rfl | hne := eq_or_ne roomID id
    · refine ⟨_, Function.update_self _ _ _, ?_⟩
      rw [hroom]
      unfold Rtc.Room.addUser
      split
      · exact huser
      · exact List.mem_cons_of_mem _ huser
    · exact ⟨room, by rw [Function.update_of_ne hne, hroom], huser⟩
  | leave u id userName left hleft hin =>
    obtain rfl | hne := eq_or_ne roomID id
    · rw [hroom] at hleft
      cases hleft
      -- The user who leaves is another one, and so the room is not empty.
      have hother : userHandle ≠ u := fun heq => hspares ⟨rfl, heq.symm⟩
      have hstays : userHandle ∈ (room.removeUser u).users :=
        List.mem_filter.mpr ⟨huser, decide_eq_true hother⟩
      rw [if_neg (List.ne_nil_of_mem hstays)]
      exact ⟨_, Function.update_self _ _ _, hstays⟩
    · exact ⟨room, by rw [Function.update_of_ne hne, hroom], huser⟩
  | round r f hjoin husers hfilter => exact HasUser.onRoom ⟨room, hroom, huser⟩ r.roomID husers
  | expire id => exact ⟨room, by rw [Function.update_of_ne (Ne.symm hspares), hroom], huser⟩

/-- Requests that spare a user leave him where he is. -/
theorem HasUser.handleAll {rs : List Rtc.Request} (h : HasUser roomID userHandle m)
    (hspares : ∀ r ∈ rs, Spares roomID userHandle r) :
    HasUser roomID userHandle (Rtc.handleAll m rs) := by
  induction rs generalizing m with
  | nil => exact h
  | cons r rs ih =>
    exact ih (h.handle (hspares r List.mem_cons_self)) fun r' hr' =>
      hspares r' (List.mem_cons_of_mem _ hr')

/-- One event takes nobody out whom it spares. -/
theorem HasUser.step {s : Services} {e : ServiceEvent}
    (h : HasUser roomID userHandle s.rtc.rooms.chatManager) (hspares : e.Spares roomID userHandle) :
    HasUser roomID userHandle (s.step e).rtc.rooms.chatManager := by
  have hcentral : ∀ {m : Rtc.Moment} {conn : ℕ} {e : Env × RoomEvent},
      Tells (Spares roomID userHandle) s.world (s.world.serve e) →
        HasUser roomID userHandle (s.step (.central m conn e)).rtc.rooms.chatManager := by
    rintro m conn e ⟨rs, hsent, hkind⟩
    rw [chatManager_central hsent]
    exact h.handleAll hkind
  cases e with
  | rtc e =>
    change HasUser roomID userHandle (s.rtc.step e).rooms.chatManager
    rw [s.rtc.chatManager_step e]
    exact h.handleAll fun r hr => hspares r (Option.mem_toList.mp hr)
  | central m conn e =>
    obtain ⟨env, event⟩ := e
    cases event with
    | joinRoom r userID => exact hcentral (joinRoom_tells (fun _ _ => trivial) fun _ => trivial)
    | leaveRoom r userID =>
      refine hcentral (leaveRoom_tells_kind (fun _ => hspares) fun req hadmin => ?_)
      obtain ⟨adminID, adminName, rfl⟩ := hadmin
      exact trivial
    | _ => exact hspares.elim

/-- The join of the background worker of a user, under a handle of its own (`sendJoinRoom`). -/
def workerJoins (m : Rtc.Moment) (conn : ℕ) (userID : AuthID) (roomID : RoomID) : Rtc.ServerEvent :=
  .receive m conn (.request (userID ++ utf8 "_bg")
    (.of (.joinRoom (userID ++ utf8 "_bg") roomID [] true none)))

/-- Once the worker of a user has joined a room, rtc-service keeps the room in every run of joins
and leaves of users, whoever is left in central-service: nobody takes the worker out. -/
theorem worker_stays (s : Services) (m : Rtc.Moment) (conn : ℕ) (userID : AuthID) {roomID : RoomID}
    (hid : roomID ≠ "") (es : List ServiceEvent)
    (hspares : ∀ e ∈ es, e.Spares roomID (userID ++ utf8 "_bg")) :
    Throughout Services.step
      (fun s => HasUser roomID (userID ++ utf8 "_bg") s.rtc.rooms.chatManager)
      (s.step (.rtc (workerJoins m conn userID roomID))) es := by
  have hname : userID ++ utf8 "_bg" ≠ [] := by
    intro hnil
    have hbg := (List.append_eq_nil_iff.mp hnil).2
    revert hbg
    decide
  have hjoined : HasUser roomID (userID ++ utf8 "_bg")
      (s.step (.rtc (workerJoins m conn userID roomID))).rtc.rooms.chatManager := by
    change HasUser _ _ (s.rtc.step (workerJoins m conn userID roomID)).rooms.chatManager
    rw [s.rtc.chatManager_step]
    change HasUser _ _ (Rtc.handle s.rtc.rooms.chatManager (.joinRoom _ roomID [] true _))
    dsimp only [Rtc.handle]
    rw [if_neg (by simp [hname, hid])]
    exact ⟨_, Function.update_self _ _ _, mem_users_addUser _ _⟩
  exact invariant_along (fun s e h hspared => h.step hspared) hjoined (Along.of_mem hspares)

end Spares

/-! ## A room that nobody is in -/

/-- The services, with two rooms that nobody is in. -/
def Services.ready : Services := ⟨.twoRooms, .start⟩

/-- A user joins and leaves, and nobody else. -/
def joinAndLeave : List ServiceEvent :=
  [.central (.plain 1000) 0 (Env.faultless 0, .joinRoom roomOne guest),
    .central (.plain 2000) 0 (Env.faultless 0, .leaveRoom roomOne guest)]

/-- In between his worker joins. -/
def joinWithWorker : List ServiceEvent :=
  [.central (.plain 1000) 0 (Env.faultless 0, .joinRoom roomOne guest),
    .rtc (workerJoins (.plain 1500) 1 guest roomOne),
    .central (.plain 2000) 0 (Env.faultless 0, .leaveRoom roomOne guest)]

/-- Without a worker the room is released. -/
theorem released_joinAndLeave :
    Throughout Services.step (Released roomOne) .ready joinAndLeave := by
  refine (released_iff roomOne .ready joinAndLeave (by decide) (by decide)).mpr
    ⟨trivial, fun room hroom _ => ⟨fun _ _ => Or.inr ⟨by decide, ?_⟩, fun hid hall => ?_⟩, trivial⟩
  · exact ⟨_, (Option.some_get (by decide +kernel)).symm, by decide +kernel, by decide +kernel⟩
  · exact absurd hid hall.other

/-- With the worker it is not. -/
theorem not_released : ¬ Throughout Services.step (Released roomOne) .ready joinWithWorker := by
  intro h
  have hlast := h.last
  revert hlast
  decide +kernel

end Bsg.Central
