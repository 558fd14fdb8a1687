import Bsg.Rtc.Audience
import Bsg.Rtc.History

/-!
# Who hears what is said in a room

In every run of rtc-service the users of a room are those who have joined it and have neither left
it since nor seen it expire (`mem_users_iff`). What is said in a room is sent to connections that
carry the name of one of them, to the front-end service and back to the sender, and what is sent
again comes from the room that was just joined (`heard_within`). A chat message that anybody is ever
sent was sent by a user who was in the room then, and the room's filter let it through
(`said_within`).

A connection carries the name that its last message gave; nothing in rtc-service checks it.
-/

namespace Bsg.Rtc

open Bsg.Foundations

/-! ## Who is in a room -/

/-- The request lets a user into a room. -/
def Request.admits (roomID : String) (handle : GoText) : Request → Prop
  | .joinRoom userHandle id _ _ _ => userHandle = handle ∧ id = roomID ∧ handle ≠ [] ∧ roomID ≠ ""
  | _ => False

/-- The request takes a user out of a room, or removes the room. -/
def Request.dismisses (roomID : String) (handle : GoText) : Request → Prop
  | .leaveRoom userHandle id _ => userHandle = handle ∧ id = roomID
  | .roomExpired id => id = roomID ∧ roomID ≠ ""
  | _ => False

/-- The event lets a user into a room. -/
def ServerEvent.admits (roomID : String) (handle : GoText) (e : ServerEvent) : Prop :=
  ∃ r, e.request? = some r ∧ r.admits roomID handle

/-- The event takes a user out of a room, or removes the room. -/
def ServerEvent.dismisses (roomID : String) (handle : GoText) (e : ServerEvent) : Prop :=
  ∃ r, e.request? = some r ∧ r.dismisses roomID handle

/-- A user has joined a room, and has neither left it since nor seen it expire. -/
def Entered (roomID : String) (handle : GoText) (es : List ServerEvent) : Prop :=
  Since (ServerEvent.admits roomID handle) (ServerEvent.dismisses roomID handle) es

/-- The users of a room; a room that does not exist has none. -/
def ChatManager.users (m : ChatManager) (roomID : String) : List GoText :=
  ((m roomID).map Room.users).getD []

section Users

variable {m : ChatManager} {roomID : String} {handle : GoText}

/-- A request about another room lets nobody in and takes nobody out. -/
theorem not_admits_of_ne {r : Request} (h : r.roomID ≠ roomID) :
    ¬ r.admits roomID handle ∧ ¬ r.dismisses roomID handle := by
  cases r with
  | joinRoom userHandle id userName suppress filter =>
    exact ⟨fun hadmits => h hadmits.2.1, fun hdismisses => hdismisses.elim⟩
  | leaveRoom userHandle id userName =>
    exact ⟨fun hadmits => hadmits.elim, fun hdismisses => h hdismisses.2⟩
  | roomExpired id => exact ⟨fun hadmits => hadmits.elim, fun hdismisses => h hdismisses.1⟩
  | _ => exact ⟨fun hadmits => hadmits.elim, fun hdismisses => hdismisses.elim⟩

/-- After a user is added he is there with the others. -/
theorem mem_users_addUser (r : Room) (userHandle : GoText) :
    handle ∈ (r.addUser userHandle).users ↔ handle = userHandle ∨ handle ∈ r.users := by
  unfold Room.addUser
  split_ifs with hmem
  · exact ⟨Or.inr, fun h => h.elim (fun heq => heq ▸ hmem) id⟩
  · exact List.mem_cons

/-- What is done to the rounds leaves the users. -/
theorem users_onRoom {f : Room → Room} (hf : ∀ r, (f r).users = r.users) (id : String) :
    (m.onRoom id f).users roomID = m.users roomID := by
  unfold ChatManager.users
  obtain rfl | hne := eq_or_ne roomID id
  · rw [m.onRoom_self, Option.map_map]
    exact congrArg (fun g => ((m roomID).map g).getD []) (funext hf)
  · rw [m.onRoom_of_ne hne]

/-- A complete join adds its user to those of the room. -/
theorem mem_users_joinRoom (m : ChatManager) {userHandle : GoText} {id : String}
    (userName : GoText) (suppress : Bool) (filter : Option Bool)
    (hcomplete : ¬ (userHandle = [] ∨ id = "")) :
    handle ∈ (Rtc.handle m (.joinRoom userHandle id userName suppress filter)).users id ↔
      handle = userHandle ∨ handle ∈ m.users id := by
  -- A room that did not exist is created without users.
  have hold : ((m id).getD ⟨[], none, false⟩).users = ((m id).map Room.users).getD [] := by
    cases m id <;> rfl
  dsimp only [Rtc.handle]
  rw [if_neg hcomplete]
  unfold ChatManager.users
  rw [Function.update_self, Option.map_some, Option.getD_some, mem_users_addUser]
  dsimp only
  rw [hold]

/-- A leave takes its user out of the room, which is removed when he was the last. -/
theorem mem_users_leaveRoom (m : ChatManager) (userHandle : GoText) (id : String)
    (userName : GoText) :
    handle ∈ (Rtc.handle m (.leaveRoom userHandle id userName)).users id ↔
      handle ∈ m.users id ∧ ¬ userHandle = handle := by
  dsimp only [Rtc.handle]
  unfold ChatManager.users
  cases hroom : m id with
  | none => simp [hroom]
  | some room =>
    have hleft : handle ∈ (room.removeUser userHandle).users ↔
        handle ∈ room.users ∧ ¬ userHandle = handle := by
      unfold Room.removeUser
      dsimp only
      rw [List.mem_filter, decide_eq_true_eq]
      exact and_congr_right fun _ => ne_comm
    dsimp only
    split_ifs with huser hempty
    · rw [Function.update_self]
      rw [hempty] at hleft
      exact hleft
    · rw [Function.update_self]
      exact hleft
    · -- He is not in the room, and nothing happens.
      rw [hroom]
      refine ⟨fun h => ⟨h, ?_⟩, And.left⟩
      rintro rfl
      exact huser h

/-- A room that has expired has no users. -/
theorem users_roomExpired (m : ChatManager) {id : String} (hid : id ≠ "") :
    (Rtc.handle m (.roomExpired id)).users id = [] := by
  dsimp only [Rtc.handle]
  rw [if_neg hid]
  unfold ChatManager.users
  rw [Function.update_self]
  rfl

/-- After a request a user is in a room when it lets him in, or when he was there before and it does
not take him out. -/
theorem mem_users_handle (m : ChatManager) (r : Request) :
    handle ∈ (Rtc.handle m r).users roomID ↔
      r.admits roomID handle ∨ handle ∈ m.users roomID ∧ ¬ r.dismisses roomID handle := by
  by_cases hid : r.roomID = roomID
  swap
  · obtain ⟨hadmits, hdismisses⟩ :
        ¬ r.admits roomID handle ∧ ¬ r.dismisses roomID handle := not_admits_of_ne hid
    unfold ChatManager.users
    rw [handle_of_ne hid]
    exact ⟨fun h => Or.inr ⟨h, hdismisses⟩, fun h => h.elim (fun h => absurd h hadmits) And.left⟩
  subst hid
  -- A request that neither admits nor dismisses this user leaves the users as they are.
  have hsame : ∀ {m' : ChatManager}, m'.users r.roomID = m.users r.roomID →
      ¬ r.admits r.roomID handle → ¬ r.dismisses r.roomID handle →
        (handle ∈ m'.users r.roomID ↔
          r.admits r.roomID handle ∨ handle ∈ m.users r.roomID ∧ ¬ r.dismisses r.roomID handle) := by
    intro m' husers hadmits hdismisses
    rw [husers]
    exact ⟨fun h => Or.inr ⟨h, hdismisses⟩, fun h => h.elim (fun h => absurd h hadmits) And.left⟩
  cases r with
  | joinRoom userHandle id userName suppress filter =>
    by_cases hmissing : userHandle = [] ∨ id = ""
    · dsimp only [Rtc.handle, Request.roomID] at hsame ⊢
      rw [if_pos hmissing]
      refine hsame rfl ?_ fun h => h.elim
      rintro ⟨rfl, -, hhandle, hroom⟩
      exact hmissing.elim hhandle hroom
    · refine (mem_users_joinRoom m userName suppress filter hmissing).trans ?_
      rw [not_or] at hmissing
      constructor
      · rintro (rfl | hmem)
        · exact Or.inl ⟨rfl, rfl, hmissing⟩
        · exact Or.inr ⟨hmem, fun h => h.elim⟩
      · rintro (⟨rfl, -⟩ | ⟨hmem, -⟩)
        · exact Or.inl rfl
        · exact Or.inr hmem
  | leaveRoom userHandle id userName =>
    have hadmits : ¬ (Request.leaveRoom userHandle id userName).admits id handle := fun h => h.elim
    have hdismisses : (Request.leaveRoom userHandle id userName).dismisses id handle ↔
        userHandle = handle := ⟨And.left, fun h => ⟨h, rfl⟩⟩
    dsimp only [Request.roomID]
    rw [or_iff_right hadmits, hdismisses]
    exact mem_users_leaveRoom m userHandle id userName
  | roomExpired id =>
    by_cases hmissing : id = ""
    · dsimp only [Rtc.handle, Request.roomID] at hsame ⊢
      rw [if_pos hmissing]
      exact hsame rfl (fun h => h.elim) fun h => h.2 hmissing
    · dsimp only [Request.roomID]
      rw [users_roomExpired m hmissing]
      refine iff_of_false List.not_mem_nil ?_
      rintro (h | ⟨-, h⟩)
      · exact h.elim
      · exact h ⟨rfl, hmissing⟩
  | roundStart id problemList startTime duration =>
    dsimp only [Rtc.handle, Request.roomID] at hsame ⊢
    split_ifs
    · exact hsame rfl (fun h => h.elim) fun h => h.elim
    · exact hsame (users_onRoom (f := fun r => r.startRound startTime duration problemList)
        (fun _ => rfl) id) (fun h => h.elim) fun h => h.elim
  | roundEnd id =>
    dsimp only [Rtc.handle, Request.roomID] at hsame ⊢
    split_ifs
    · exact hsame rfl (fun h => h.elim) fun h => h.elim
    · exact hsame (users_onRoom (fun r => r.endRound_frame.1) id) (fun h => h.elim) fun h => h.elim
  | joinRound id userID userName =>
    dsimp only [Rtc.handle, Request.roomID] at hsame ⊢
    split_ifs
    · exact hsame rfl (fun h => h.elim) fun h => h.elim
    · exact hsame (users_onRoom (fun r => (r.joinRound_frame userID).1) id) (fun h => h.elim)
        fun h => h.elim
  | nextProblem id problem userHandle => exact hsame rfl (fun h => h.elim) fun h => h.elim
  | newSubmission userHandle id problemID verdict => exact hsame rfl (fun h => h.elim) fun h => h.elim
  | adminChange id adminID adminName => exact hsame rfl (fun h => h.elim) fun h => h.elim

/-- The same for an event. -/
theorem mem_users_step (s : Server) (e : ServerEvent) :
    handle ∈ (s.step e).rooms.chatManager.users roomID ↔
      e.admits roomID handle ∨
        handle ∈ s.rooms.chatManager.users roomID ∧ ¬ e.dismisses roomID handle := by
  rw [s.chatManager_step]
  cases hr : e.request? with
  -- Connections come and go without a change of the rooms.
  | none =>
    have hadmits : ¬ e.admits roomID handle := by
      rintro ⟨r, h, -⟩
      rw [hr] at h
      cases h
    have hdismisses : ¬ e.dismisses roomID handle := by
      rintro ⟨r, h, -⟩
      rw [hr] at h
      cases h
    exact ⟨fun h => Or.inr ⟨h, hdismisses⟩, fun h => h.elim (fun h => absurd h hadmits) And.left⟩
  | some r =>
    have hadmits : e.admits roomID handle ↔ r.admits roomID handle := by
      refine ⟨?_, fun h => ⟨r, hr, h⟩⟩
      rintro ⟨r', hr', h⟩
      obtain rfl := Option.some.inj (hr.symm.trans hr')
      exact h
    have hdismisses : e.dismisses roomID handle ↔ r.dismisses roomID handle := by
      refine ⟨?_, fun h => ⟨r, hr, h⟩⟩
      rintro ⟨r', hr', h⟩
      obtain rfl := Option.some.inj (hr.symm.trans hr')
      exact h
    rw [hadmits, hdismisses]
    exact mem_users_handle s.rooms.chatManager r

/-- The users of a room are those who have joined it and not left it, in every run. -/
theorem mem_users_iff (es : List ServerEvent) :
    handle ∈ (run Server.step .start es).rooms.chatManager.users roomID ↔ Entered roomID handle es := by
  induction es using List.reverseRecOn with
  | nil => exact iff_of_false (fun h => by cases h) (not_since_nil _ _)
  | append_singleton es e ih =>
    unfold Entered
    rw [run_snoc, mem_users_step, since_snoc, ih]
    rfl

end Users

/-! ## Who is sent a message -/

/-- The event is the expiry of a room. -/
def ServerEvent.expires (roomID : String) (e : ServerEvent) : Prop :=
  e.request? = some (.roomExpired roomID)

/-- A user is in a room when the answer to an event is sent. An expired room is removed after that.
-/
def Present (es : List ServerEvent) (e : ServerEvent) (roomID : String) (handle : GoText) : Prop :=
  Entered roomID handle (es ++ [e]) ∨ e.expires roomID ∧ Entered roomID handle es

/-- Why a connection is sent something when a message is received after a run: it has sent the
message itself; it has just joined a room, in which this was said before; or it carries the name of
the front-end service, or that of a user who is in the room that this is about. -/
inductive Hears (es : List ServerEvent) (m : Moment) (conn : ℕ) (msg : Inbound) (d : Delivery) : Prop
  where
  | answer (hkind : d.kind = .answer) (hreceiver : d.receiver = conn)
  | replay (roomID : String) (handle : GoText) (hkind : d.kind = .replay)
      (hreceiver : d.receiver = conn)
      (hjoins : (ServerEvent.receive m conn msg).admits roomID handle)
      (hstored : d.response ∈ (run Archive.step .start es).log roomID)
  | frontEnd (hnamed : (d.receiver, Server.frontEndService) ∈
      ((run Server.step .start es).receive m conn msg).1.services)
  | user (t : ResponseType) (data : Data) (roomID : String) (handle : GoText)
      (hresponse : d.response = newOkResponse t data roomID)
      (hnamed : (d.receiver, handle) ∈ ((run Server.step .start es).receive m conn msg).1.services)
      (hpresent : Present es (.receive m conn msg) roomID handle)

section Hears

variable {es : List ServerEvent} {m : Moment} {conn : ℕ} {name : GoText} {r : ClientRequest}

/-- A message for a room is sent to its sender, and to connections with the names of its users. -/
theorem receiver_broadcast {s : Server} {sender : ℕ} {users : List GoText} {resp : Response}
    {d : Delivery} (h : d ∈ s.broadcast m sender users resp) :
    d.kind = .answer ∧ d.receiver = sender ∨ ∃ handle ∈ users, (d.receiver, handle) ∈ s.services := by
  unfold Server.broadcast at h
  rcases List.mem_append.mp h with h | h
  · obtain ⟨c, hc, rfl⟩ := List.mem_map.mp h
    obtain ⟨handle, hhandle, hfound⟩ := List.mem_filterMap.mp hc
    exact Or.inr ⟨handle, hhandle, mem_of_findService hfound⟩
  · split at h
    · cases h
    · rw [List.mem_singleton] at h
      subst h
      exact Or.inl ⟨rfl, rfl⟩

/-- The server of the archive is the server. -/
theorem server_archive (es : List ServerEvent) :
    (run Archive.step .start es).server = run Server.step .start es := by
  induction es using List.reverseRecOn with
  | nil => rfl
  | append_singleton es e ih =>
    rw [run_snoc, run_snoc, ← ih]
    rfl

/-- What a room keeps was stored in it since it was created. -/
theorem stored_of_kept {roomID : String} {room : HistoryRoom} {x : Response}
    (hroom : (run Server.step .start es).rooms roomID = some room) (hx : x ∈ room.messages) :
    x ∈ (run Archive.step .start es).log roomID := by
  have hremembers := (archived_run es).remembers roomID
  rw [server_archive, hroom, Option.getD_some] at hremembers
  rw [hremembers] at hx
  exact List.mem_of_mem_drop hx

/-- Who is in the room of an answer when it is sent is present. -/
theorem present_of_mem {roomID : String} {room : HistoryRoom} {handle : GoText} {s : Server}
    (hs : run Server.step .start es = s)
    (hroom : (handleRequest m name s.rooms r).1 roomID = some room) (hhandle : handle ∈ room.users) :
    Present es (.receive m conn (.request name r)) roomID handle := by
  have hbefore : handle ∈ (handleRequest m name s.rooms r).1.chatManager.users roomID := by
    unfold ChatManager.users Rooms.chatManager
    rw [hroom]
    exact hhandle
  have hafter : ((run Server.step .start (es ++ [.receive m conn (.request name r)])).rooms.chatManager) =
      if (handleRequest m name s.rooms r).2.result.isOk ∧
          (handleRequest m name s.rooms r).2.respType = .roomExpired then
        Function.update (handleRequest m name s.rooms r).1.chatManager
          (handleRequest m name s.rooms r).2.roomID none
      else (handleRequest m name s.rooms r).1.chatManager := by
    rw [run_snoc, hs]
    exact Server.chatManager_respond _ m conn r.type _
  by_cases hexpired : (handleRequest m name s.rooms r).2.result.isOk ∧
      (handleRequest m name s.rooms r).2.respType = .roomExpired
  · rw [respType_handleRequest] at hexpired
    -- Only an expiry is answered so, and its handler does nothing.
    obtain ⟨id, rfl⟩ : ∃ id, r = .of (.roomExpired id) := by
      cases r with
      | chatMessage => cases hexpired.2
      | of r =>
        cases r with
        | roomExpired id => exact ⟨id, rfl⟩
        | _ => cases hexpired.2
    have hsame : (handleRequest m name s.rooms (.of (.roomExpired id))).1 = s.rooms := by
      rcases checked_cases "RoomExpiredRequest" [("RoomID", id ≠ "")] .roomExpired id s.rooms
        (s.rooms, ⟨.roomExpired, id, .ok (.text (utf8 "Room has expired and been deleted."))⟩) with
        ⟨-, hnext⟩ | ⟨-, err, herr⟩
      · exact congrArg Prod.fst hnext
      · exact congrArg Prod.fst herr
    rw [hsame, ← hs, mem_users_iff] at hbefore
    by_cases hid : id = roomID
    · exact Or.inr ⟨by rw [← hid]; rfl, hbefore⟩
    · refine Or.inl (since_snoc.mpr (Or.inr ⟨hbefore, ?_⟩))
      rintro ⟨r', hr', hdismisses⟩
      obtain rfl := Option.some.inj hr'
      exact hid hdismisses.1
  · rw [if_neg hexpired] at hafter
    rw [← hafter, mem_users_iff] at hbefore
    exact Or.inl hbefore

/-- Only a join has the type of a join. -/
theorem eq_joinRoom_of_type (h : r.type = "join-room") : ∃ userHandle id userName suppress filter,
    r = .of (.joinRoom userHandle id userName suppress filter) := by
  cases r with
  | chatMessage => simp [ClientRequest.type] at h
  | of r =>
    cases r with
    | joinRoom userHandle id userName suppress filter => exact ⟨_, _, _, _, _, rfl⟩
    | _ => simp [ClientRequest.type] at h

/-- A join that is not refused has its required fields. -/
theorem complete_of_ok {rooms : Rooms} {userHandle userName : GoText} {id : String} {suppress : Bool}
    {filter : Option Bool} {data : Data}
    (h : (handleJoinRoom name rooms userHandle id userName suppress filter).2.result = .ok data) :
    userHandle ≠ [] ∧ id ≠ "" := by
  unfold handleJoinRoom at h
  rcases checked_cases "JoinRoomRequest" [("UserHandle", userHandle ≠ []), ("RoomID", id ≠ "")]
    .userJoined id rooms _ with ⟨hcomplete, -⟩ | ⟨-, err, herr⟩
  · exact ⟨by simpa using hcomplete ("UserHandle", userHandle ≠ []) List.mem_cons_self,
      by simpa using hcomplete ("RoomID", id ≠ "") (List.mem_cons_of_mem _ List.mem_cons_self)⟩
  · rw [herr] at h
    cases h

/-- What is sent again goes to who joins a room, and was said in it. -/
theorem stored_of_replay {s : Server} (hs : run Server.step .start es = s) {data : Data}
    (hresult : (handleRequest m name s.rooms r).2.result = .ok data) {d : Delivery}
    (hd : d ∈ (s.answering m conn name r).replayTo conn r.type
      (handleRequest m name s.rooms r).2.roomID) :
    d.kind = .replay ∧ d.receiver = conn ∧ ∃ roomID handle,
      (ServerEvent.receive m conn (.request name r)).admits roomID handle ∧
        d.response ∈ (run Archive.step .start es).log roomID := by
  obtain ⟨hkind, hreceiver, htype, room, hroom, hmem⟩ := Server.mem_replayTo hd
  obtain ⟨userHandle, id, userName, suppress, filter, rfl⟩ := eq_joinRoom_of_type htype
  obtain ⟨hhandle, hid⟩ := complete_of_ok hresult
  obtain ⟨joined, text, hhandled, hmessages, -⟩ :=
    Server.handleJoinRoom_of_complete name s.rooms hid hhandle userName suppress filter
  change (handleJoinRoom name s.rooms userHandle id userName suppress filter).1
    (handleJoinRoom name s.rooms userHandle id userName suppress filter).2.roomID = some room at hroom
  rw [hhandled] at hroom
  dsimp only at hroom
  rw [Function.update_self] at hroom
  obtain rfl := Option.some.inj hroom
  -- The join itself leaves the history.
  have hkept : d.response ∈ ((s.rooms id).getD .empty).messages :=
    hmessages ▸ List.mem_of_mem_filter hmem
  have hjoins : (ServerEvent.receive m conn (.request name
      (.of (.joinRoom userHandle id userName suppress filter)))).admits id userHandle :=
    ⟨_, rfl, rfl, rfl, hhandle, hid⟩
  cases hold : s.rooms id with
  | none =>
    rw [hold] at hkept
    cases hkept
  | some old =>
    rw [hold] at hkept
    exact ⟨hkind, hreceiver, id, userHandle, hjoins, stored_of_kept (hs ▸ hold) hkept⟩

/-- Whatever is sent when a message is received, its receiver has a reason to hear it: it sent the
message, or joined the room in which this was said, or carries the name of the front-end service or
of a user who is in the room. -/
theorem heard_within (es : List ServerEvent) (m : Moment) (conn : ℕ) (msg : Inbound) (d : Delivery)
    (hd : d ∈ ((run Server.step .start es).receive m conn msg).2) : Hears es m conn msg d := by
  generalize hs : run Server.step .start es = s at hd
  cases msg with
  | unreadable err =>
    obtain rfl := List.mem_singleton.mp hd
    exact .answer rfl rfl
  | invalid name err =>
    obtain rfl := List.mem_singleton.mp hd
    exact .answer rfl rfl
  | malformed name respType roomID err =>
    obtain rfl := List.mem_singleton.mp hd
    exact .answer rfl rfl
  | request name r =>
    have hservices : ((run Server.step .start es).receive m conn (.request name r)).1.services =
        (s.answering m conn name r).services := by
      rw [hs, services_receive]
      rfl
    rw [Server.receive_request] at hd
    change d ∈ ((s.answering m conn name r).respond m conn r.type (handleRequest m name s.rooms r).2).2
      at hd
    cases hresult : (handleRequest m name s.rooms r).2.result with
    | error err =>
      unfold Server.respond at hd
      rw [hresult] at hd
      obtain rfl := List.mem_singleton.mp hd
      exact .answer rfl rfl
    | ok data =>
      unfold Server.respond at hd
      rw [hresult] at hd
      dsimp only at hd
      -- What is sent is the replay, the answer or the broadcast, and the notice to the front end.
      rcases List.mem_append.mp hd with hreplay | hd
      · obtain ⟨hkind, hreceiver, roomID, handle, hjoins, hstored⟩ := stored_of_replay hs hresult hreplay
        exact .replay roomID handle hkind hreceiver hjoins hstored
      rcases List.mem_append.mp hd with hsent | hfront
      · unfold Server.announce at hsent
        cases haudience : (s.answering m conn name r).audience
            (handleRequest m name s.rooms r).2.respType data
            (handleRequest m name s.rooms r).2.roomID with
        | none =>
          rw [haudience] at hsent
          obtain rfl := List.mem_singleton.mp hsent
          exact .answer rfl rfl
        | some room =>
          rw [haudience] at hsent
          have hresponse := (Server.mem_broadcast hsent).1
          have hroom : (handleRequest m name s.rooms r).1
              (handleRequest m name s.rooms r).2.roomID = some room := by
            unfold Server.audience at haudience
            split at haudience
            · exact haudience
            · cases haudience
          rcases receiver_broadcast hsent with ⟨hkind, hreceiver⟩ | ⟨handle, hhandle, hnamed⟩
          · exact .answer hkind hreceiver
          · exact .user _ data _ handle hresponse (hservices ▸ hnamed) (present_of_mem hs hroom hhandle)
      · obtain ⟨c, hc, rfl⟩ := List.mem_map.mp hfront
        refine .frontEnd ?_
        have hfound := mem_of_findService (Option.mem_toList.mp hc)
        rw [services_tearDown, services_announce] at hfound
        exact hservices ▸ hfound

end Hears

/-- Bob and Alice have joined a room. -/
def bothJoined : List ServerEvent := openAll [(1, utf8 "bob"), (2, utf8 "alice")]

/-- What Alice is sent when Bob says hello. -/
def helloToAlice : Delivery :=
  ⟨2, newOkResponse .chatMessage (.chat (utf8 "bob") (utf8 "Bob") [] (utf8 "hello")) "room", .broadcast⟩

/-- Bob says hello, and alice is sent it. -/
theorem helloToAlice_sent : helloToAlice ∈ ((run Server.step .start bothJoined).receive (.plain 0) 1
    (.request (utf8 "bob") hello)).2 := by
  decide +kernel

/-- Alice is in the room when she is sent it. -/
theorem heard_within_hello :
    Hears bothJoined (.plain 0) 1 (.request (utf8 "bob") hello) helloToAlice :=
  heard_within bothJoined (.plain 0) 1 _ helloToAlice helloToAlice_sent

/-! ## What is said -/

/-- The event has the response: it is what a request is answered when it succeeds, or it announces a
round. -/
def Server.Answers (resp : Response) (s : Server) (e : ServerEvent) : Prop :=
  ∃ m conn name r, e = .receive m conn (.request name r) ∧
    ((∃ roomID, resp = startAnnouncement roomID) ∨
      ∃ data, (handleRequest m name s.rooms r).2.result = .ok data ∧
        resp = newOkResponse (handleRequest m name s.rooms r).2.respType data
          (handleRequest m name s.rooms r).2.roomID)

section Answers

variable {s : Server}

/-- What an event adds to a history, it has. -/
theorem answers_of_adds {e : ServerEvent} {roomID : String} {x : Response}
    (hx : x ∈ s.adds roomID e) : s.Answers x e := by
  cases e with
  | connect conn name => cases hx
  | disconnect conn => cases hx
  | receive m conn msg =>
    cases msg with
    | unreadable err => cases hx
    | invalid name err => cases hx
    | malformed name respType id err => cases hx
    | request name r =>
      refine ⟨m, conn, name, r, rfl, ?_⟩
      -- What is added is the announcement of a start, or the response that the request gets.
      rcases List.mem_append.mp hx with hnoted | hstored
      · obtain ⟨problemList, startTime, duration, rfl, hset⟩ := noted_ne_nil (List.ne_nil_of_mem hnoted)
        have hstart : x ∈ [startAnnouncement roomID] := by
          rwa [show (ClientRequest.of (.roundStart roomID problemList startTime duration)).noted
            roomID = [startAnnouncement roomID] from if_pos ⟨rfl, hset⟩] at hnoted
        exact Or.inl ⟨roomID, List.mem_singleton.mp hstart⟩
      · unfold Server.stored at hstored
        cases hresult : (handleRequest m name s.rooms r).2.result with
        | error err =>
          rw [hresult] at hstored
          cases hstored
        | ok data =>
          rw [hresult] at hstored
          dsimp only at hstored
          split at hstored
          · exact Or.inr ⟨data, rfl, List.mem_singleton.mp hstored⟩
          · cases hstored

/-- All that is in the archive, some event had. -/
theorem answers_of_log {es : List ServerEvent} {roomID : String} {x : Response}
    (hx : x ∈ (run Archive.step .start es).log roomID) :
    Sometime Server.step (Server.Answers x) .start es := by
  induction es using List.reverseRecOn with
  | nil => cases hx
  | append_singleton es e ih =>
    rw [sometime_snoc]
    rw [run_snoc] at hx
    change x ∈ if (((run Archive.step .start es).server.step e).rooms roomID).isSome then
      (run Archive.step .start es).log roomID ++ (run Archive.step .start es).server.adds roomID e
      else [] at hx
    split at hx
    · rcases List.mem_append.mp hx with hold | hnew
      · exact Or.inl (ih hold)
      · rw [server_archive] at hnew
        exact Or.inr (answers_of_adds hnew)
    · cases hx

/-- Whatever anybody is sent that is no error, at once or again, some event had. -/
theorem answers_of_sent (es : List ServerEvent) (m : Moment) (conn : ℕ) (msg : Inbound) (d : Delivery)
    (hd : d ∈ ((run Server.step .start es).receive m conn msg).2)
    (hok : d.response.respStatus = .ok) :
    Sometime Server.step (Server.Answers d.response) .start (es ++ [.receive m conn msg]) := by
  rw [sometime_snoc]
  generalize hs : run Server.step .start es = s at hd
  cases msg with
  | unreadable err =>
    obtain rfl := List.mem_singleton.mp hd
    cases hok
  | invalid name err =>
    obtain rfl := List.mem_singleton.mp hd
    cases hok
  | malformed name respType roomID err =>
    obtain rfl := List.mem_singleton.mp hd
    cases hok
  | request name r =>
    rw [Server.receive_request] at hd
    change d ∈ ((s.answering m conn name r).respond m conn r.type (handleRequest m name s.rooms r).2).2
      at hd
    cases hresult : (handleRequest m name s.rooms r).2.result with
    | error err =>
      unfold Server.respond at hd
      rw [hresult] at hd
      obtain rfl := List.mem_singleton.mp hd
      cases hok
    | ok data =>
      have hanswers : d.response = newOkResponse (handleRequest m name s.rooms r).2.respType data
          (handleRequest m name s.rooms r).2.roomID →
          s.Answers d.response (.receive m conn (.request name r)) :=
        fun hresponse => ⟨m, conn, name, r, rfl, Or.inr ⟨data, hresult, hresponse⟩⟩
      unfold Server.respond at hd
      rw [hresult] at hd
      dsimp only at hd
      -- A replayed response was stored by an earlier event; the others answer this one.
      rcases List.mem_append.mp hd with hreplay | hd
      · obtain ⟨-, -, roomID, handle, -, hstored⟩ := stored_of_replay hs hresult hreplay
        exact Or.inl (answers_of_log hstored)
      rcases List.mem_append.mp hd with hsent | hfront
      · exact Or.inr (hanswers (Server.mem_announce hsent).1)
      · obtain ⟨c, -, rfl⟩ := List.mem_map.mp hfront
        exact Or.inr (hanswers rfl)

end Answers

/-! ## What an answer carries -/

/-- The data of a response about a round is what its type is for. -/
def Response.Carries (r : Response) : Prop :=
  match r.respType with
  | .roundStart => ∃ b, r.respMessage.data = .roundStart b
  | .roundJoin => ∃ b, r.respMessage.data = .joinRound b
  | .nextProblem => ∃ problem userHandle, r.respMessage.data = .nextProblem problem userHandle
  | _ => True

section Carries

variable {struct : String} {fields : List (String × Bool)} {t : ResponseType} {roomID : String}
  {rooms : Rooms} {next : Rooms × Handled} {m : Moment} {name : GoText} {data : Data}

/-- Where a request is not refused, its handler went on. -/
theorem ok_of_checked (h : (checked struct fields t roomID rooms next).2.result = .ok data) :
    next.2.result = .ok data := by
  rcases checked_cases struct fields t roomID rooms next with ⟨-, hnext⟩ | ⟨-, err, herr⟩
  · rwa [hnext] at h
  · rw [herr] at h
    cases h

/-- What a request is answered carries what its type is for. -/
theorem carries_of_ok {r : ClientRequest}
    (hresult : (handleRequest m name rooms r).2.result = .ok data) :
    (newOkResponse (handleRequest m name rooms r).2.respType data
      (handleRequest m name rooms r).2.roomID).Carries := by
  rw [respType_handleRequest]
  cases r with
  | chatMessage userHandle userName userPhoto id message => exact trivial
  | of r =>
    cases r with
    | roundStart id problemList startTime duration =>
      cases ok_of_checked hresult
      exact ⟨_, rfl⟩
    | joinRound id userID userName =>
      cases ok_of_checked hresult
      exact ⟨_, rfl⟩
    | nextProblem id problem userHandle =>
      cases ok_of_checked hresult
      exact ⟨_, _, rfl⟩
    | _ => exact trivial

/-- An answer carries the data that its type is for. -/
theorem carries_of_answers {s : Server} {resp : Response} {e : ServerEvent} (h : s.Answers resp e) :
    resp.Carries := by
  obtain ⟨m, conn, name, r, -, ⟨roomID, rfl⟩ | ⟨data, hresult, rfl⟩⟩ := h
  · exact trivial
  · exact carries_of_ok hresult

/-- Whatever anybody is sent in a run that is no error carries what its type is for. -/
theorem carries_of_sent (es : List ServerEvent) (m : Moment) (conn : ℕ) (msg : Inbound) (d : Delivery)
    (hd : d ∈ ((run Server.step .start es).receive m conn msg).2)
    (hok : d.response.respStatus = .ok) : d.response.Carries := by
  obtain ⟨before, e, after, -, hanswers⟩ := answers_of_sent es m conn msg d hd hok
  exact carries_of_answers hanswers

end Carries

/-! ## Who said it -/

/-- The event is a chat message with this answer: its author is in the room, and the room's filter
lets it through. -/
def Server.Says (resp : Response) (s : Server) (e : ServerEvent) : Prop :=
  ∃ m conn name userHandle userName userPhoto roomID message room,
    e = .receive m conn (.request name (.chatMessage userHandle userName userPhoto roomID message)) ∧
      s.rooms roomID = some room ∧ userHandle ∈ room.users ∧
      (room.profanityFilter = true → m.profane message = false) ∧
      resp = newOkResponse .chatMessage (.chat userHandle userName userPhoto message) roomID

section Says

variable {s : Server} {m : Moment} {name : GoText} {r : ClientRequest} {data : Data}

/-- An answer of the type of the chat is that of a chat message. -/
theorem says_of_ok (conn : ℕ) (hresult : (handleRequest m name s.rooms r).2.result = .ok data)
    (htype : (handleRequest m name s.rooms r).2.respType = .chatMessage) :
    s.Says (newOkResponse (handleRequest m name s.rooms r).2.respType data
      (handleRequest m name s.rooms r).2.roomID) (.receive m conn (.request name r)) := by
  -- Only a chat message is answered by one.
  rw [respType_handleRequest] at htype
  obtain ⟨userHandle, userName, userPhoto, roomID, message, rfl⟩ :
      ∃ userHandle userName userPhoto roomID message,
        r = .chatMessage userHandle userName userPhoto roomID message := by
    cases r with
    | chatMessage userHandle userName userPhoto roomID message => exact ⟨_, _, _, _, _, rfl⟩
    | of r => cases r <;> cases htype
  change (handleChatMessage m s.rooms userHandle userName userPhoto roomID message).2.result =
    .ok data at hresult
  change s.Says (newOkResponse
    (handleChatMessage m s.rooms userHandle userName userPhoto roomID message).2.respType data
    (handleChatMessage m s.rooms userHandle userName userPhoto roomID message).2.roomID) _
  unfold handleChatMessage at hresult ⊢
  rcases checked_cases "ChatMessageRequest" [("UserHandle", userHandle ≠ []), ("RoomID", roomID ≠ ""),
      ("Message", message ≠ [])] .chatMessage roomID s.rooms _ with ⟨-, hnext⟩ | ⟨-, err, herr⟩
  swap
  · rw [herr] at hresult
    cases hresult
  rw [hnext] at hresult ⊢
  cases hroom : s.rooms roomID with
  | none =>
    rw [hroom] at hresult
    cases hresult
  | some room =>
    rw [hroom] at hresult
    dsimp only at hresult ⊢
    split_ifs at hresult ⊢ with huser hprofane
    cases hresult
    refine ⟨m, conn, name, userHandle, userName, userPhoto, roomID, message, room, rfl, hroom,
      List.contains_iff_mem.mp huser, fun hfilter => ?_, rfl⟩
    rw [hfilter, Bool.true_and] at hprofane
    exact Bool.eq_false_iff.mpr hprofane

/-- A response of the chat that an event has, it says. -/
theorem says_of_answers {resp : Response} {e : ServerEvent} (h : s.Answers resp e)
    (hchat : resp.respType = .chatMessage) : s.Says resp e := by
  obtain ⟨m, conn, name, r, rfl, ⟨roomID, rfl⟩ | ⟨data, hresult, rfl⟩⟩ := h
  · cases hchat
  · exact says_of_ok conn hresult hchat

end Says

/-- A chat message that anybody is sent, at once or again, was said: its author was in the room
then, and the room's filter let it through. -/
theorem said_within (es : List ServerEvent) (m : Moment) (conn : ℕ) (msg : Inbound) (d : Delivery)
    (hd : d ∈ ((run Server.step .start es).receive m conn msg).2)
    (hok : d.response.respStatus = .ok) (hchat : d.response.respType = .chatMessage) :
    Sometime Server.step (Server.Says d.response) .start (es ++ [.receive m conn msg]) :=
  Sometime.mono (fun _ _ h => says_of_answers h hchat) (answers_of_sent es m conn msg d hd hok)

/-- Bob was in the room when he said it. -/
theorem said_within_hello : Sometime Server.step (Server.Says helloToAlice.response) .start
    (bothJoined ++ [.receive (.plain 0) 1 (.request (utf8 "bob") hello)]) :=
  said_within bothJoined (.plain 0) 1 _ helloToAlice helloToAlice_sent rfl rfl

end Bsg.Rtc
