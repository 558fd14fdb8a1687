import Bsg.Rtc.Service

/-!
# Who receives a broadcast

A message for a room goes from each user of the room to the connection that is found under the
user's handle, to the sender if he was not among those, and to the front-end service. A connection
is found by its name, and of several with one name only one is found, in the order in which the
connections happen to be searched. The `Hub` keeps beside the server under which handle a connection
joined a room. `reaches_iff` says when everybody in the room, and the sender, gets the message once.
-/

namespace Bsg.Rtc

open Bsg.Foundations

/-- The room and the handle of a request that joins. -/
def ClientRequest.joins : ClientRequest → Option (String × GoText)
  | .of (.joinRoom userHandle roomID _ _ _) =>
    if userHandle ≠ [] ∧ roomID ≠ "" then some (roomID, userHandle) else none
  | _ => none

/-- The server, and which connection joined which room under which handle. -/
structure Hub where
  server : Server
  joins : List (ℕ × String × GoText)

/-- The beginning. -/
def Hub.start : Hub := ⟨.start, []⟩

/-- The joins after an event. -/
def Hub.joinsAfter (h : Hub) : ServerEvent → List (ℕ × String × GoText)
  | .receive _ conn (.request _ r) => r.joins.toList.map (Prod.mk conn) ++ h.joins
  | .disconnect conn => h.joins.filter fun j => j.1 ≠ conn
  | _ => h.joins

/-- The state after an event. -/
def Hub.step (h : Hub) (e : ServerEvent) : Hub := ⟨h.server.step e, h.joinsAfter e⟩

/-- A new connection is none of those that are open. -/
def Hub.Legal (h : Hub) : ServerEvent → Prop
  | .connect conn _ => conn ∉ h.server.services.map Prod.fst
  | _ => True

instance (h : Hub) : ∀ e, Decidable (h.Legal e)
  | .connect conn _ => inferInstanceAs (Decidable (conn ∉ _))
  | .receive .. => inferInstanceAs (Decidable True)
  | .disconnect _ => inferInstanceAs (Decidable True)

/-- How often a connection is sent what a message caused. -/
def copies (conn : ℕ) (ds : List Delivery) : ℕ :=
  ds.countP fun d => d.receiver = conn ∧ d.kind ≠ .replay

/-- The state in which a request is answered. -/
def Server.answering (s : Server) (m : Moment) (sender : ℕ) (name : GoText) (r : ClientRequest) :
    Server :=
  { s.rename sender name with rooms := (handleRequest m name s.rooms r).1 }

/-- The room that the answer to a request goes to. -/
def Server.roomOf (s : Server) (m : Moment) (sender : ℕ) (name : GoText) (r : ClientRequest) :
    Option HistoryRoom :=
  match (handleRequest m name s.rooms r).2.result with
  | .ok data =>
    (s.answering m sender name r).audience (handleRequest m name s.rooms r).2.respType data
      (handleRequest m name s.rooms r).2.roomID
  | .error _ => none

/-- In whatever order the connections are searched, each open connection that joined the room under
the handle of a user of the room is sent the message once, and so is the sender. -/
structure Reaches (h : Hub) (m : Moment) (sender : ℕ) (name : GoText) (r : ClientRequest)
    (room : HistoryRoom) : Prop where
  members : ∀ a, ∀ c ∈ (h.step (.receive m sender (.request name r))).server.services,
    ∀ handle ∈ room.users,
      (c.1, (handleRequest m name h.server.rooms r).2.roomID, handle) ∈
          (h.step (.receive m sender (.request name r))).joins →
        copies c.1 (h.server.receive { m with search := a } sender (.request name r)).2 = 1
  sender : ∀ a, copies sender (h.server.receive { m with search := a } sender (.request name r)).2 = 1

/-- No other connection has the name of one that joined the room, and this name is that of a user of
the room; or it is that of the front-end service, but not both. And the sender is not named like the
front-end service. -/
structure Distinguished (h : Hub) (m : Moment) (sender : ℕ) (name : GoText) (r : ClientRequest)
    (room : HistoryRoom) : Prop where
  members : ∀ c ∈ (h.server.rename sender name).services, c.1 ≠ sender →
    (∃ handle ∈ room.users,
      (c.1, (handleRequest m name h.server.rooms r).2.roomID, handle) ∈ h.joins) →
        (∀ c' ∈ (h.server.rename sender name).services, c'.2 = c.2 → c' = c) ∧
          (c.2 ∈ room.users ↔ c.2 ≠ Server.frontEndService)
  sender : ∀ c ∈ (h.server.rename sender name).services, c.1 = sender →
    c.2 ≠ Server.frontEndService

/-! ## Searching -/

section Search

variable {s : Server} {m : Moment} {conn : ℕ} {name : GoText}

/-- What is found under a name is a connection of that name. -/
theorem mem_of_findService (h : s.findService m name = some conn) : (conn, name) ∈ s.services := by
  obtain ⟨c, hfind, rfl⟩ := Option.map_eq_some_iff.mp h
  have hname : c.2 = name := by simpa using List.find?_some hfind
  rw [← hname]
  exact m.search.mem_order.mp (List.mem_of_find?_eq_some hfind)

/-- A connection that is the only one of its name is found. -/
theorem findService_of_unique {c : ℕ × GoText} (hc : c ∈ s.services)
    (hunique : ∀ c' ∈ s.services, c'.2 = c.2 → c' = c) : s.findService m c.2 = some c.1 := by
  unfold Server.findService
  cases hfind : (m.search.order s.services).find? fun c' => decide (c'.2 = c.2) with
  | none =>
    have := List.find?_eq_none.mp hfind c (m.search.mem_order.mpr hc)
    simp at this
  | some c' =>
    have hname : c'.2 = c.2 := by simpa using List.find?_some hfind
    have hmem := m.search.mem_order.mp (List.mem_of_find?_eq_some hfind)
    rw [hunique c' hmem hname]
    rfl

/-- What is searched first is found. -/
theorem findService_first {c : ℕ × GoText} (hc : c ∈ s.services) :
    s.findService { m with search := .withFirst c } c.2 = some c.1 := by
  unfold Server.findService
  rw [Arrangement.find?_withFirst hc (by simp)]
  rfl

end Search

/-! ## Counting copies -/

section Copies

variable {s : Server} {m : Moment} {sender conn : ℕ} {name : GoText}

/-- The copies of two lists of deliveries add up. -/
theorem copies_append (conn : ℕ) (ds ds' : List Delivery) :
    copies conn (ds ++ ds') = copies conn ds + copies conn ds' := List.countP_append

/-- Of the users of a room, a connection is found under its own name only. -/
theorem count_found (hids : (s.services.map Prod.fst).Nodup) (hc : (conn, name) ∈ s.services)
    {users : List GoText} (husers : users.Nodup) :
    (users.filterMap (s.findService m)).count conn =
      if name ∈ users ∧ s.findService m name = some conn then 1 else 0 := by
  have hname : ∀ u, s.findService m u = some conn → u = name := fun u hu =>
    congrArg Prod.snd (List.inj_on_of_nodup_map hids (mem_of_findService hu) hc rfl)
  rw [List.count_filterMap]
  by_cases hfound : s.findService m name = some conn
  · have hcount : users.countP (fun u => s.findService m u == some conn) = users.count name := by
      refine List.countP_congr fun u _ => ?_
      rw [beq_iff_eq, beq_iff_eq]
      exact ⟨hname u, fun hu => hu ▸ hfound⟩
    rw [hcount, husers.count]
    exact if_congr (iff_of_eq (by rw [hfound]; simp)) rfl rfl
  · rw [if_neg fun h => hfound h.2, List.countP_eq_zero]
    intro u _ hu
    have hu := beq_iff_eq.mp hu
    exact hfound (hname u hu ▸ hu)

/-- The copies of a broadcast. -/
theorem copies_broadcast (s : Server) (m : Moment) (sender : ℕ) (users : List GoText)
    (resp : Response) (conn : ℕ) :
    copies conn (s.broadcast m sender users resp) =
      (users.filterMap (s.findService m)).count conn +
        if sender ∉ users.filterMap (s.findService m) ∧ conn = sender then 1 else 0 := by
  unfold Server.broadcast
  dsimp only
  generalize users.filterMap (s.findService m) = found
  rw [copies_append]
  congr 1
  · -- One copy for each user under whose handle the connection is found.
    unfold copies
    rw [List.countP_map, List.count]
    refine List.countP_congr fun c _ => ?_
    have hkind : (if c = sender then Delivery.Kind.answer else .broadcast) ≠ .replay := by
      split_ifs <;> decide
    simp [hkind]
  · -- And one for the sender, who was not among those.
    by_cases hfound : sender ∈ found
    · rw [if_pos hfound, if_neg fun h => h.1 hfound]
      rfl
    · rw [if_neg hfound]
      by_cases hconn : conn = sender
      · rw [if_pos ⟨hfound, hconn⟩, hconn]
        simp [copies]
      · rw [if_neg fun h => hconn h.2]
        simp [copies, Ne.symm hconn]

/-- An announcement leaves the connections. -/
theorem services_announce (s : Server) (m : Moment) (sender : ℕ) (t : ResponseType) (data : Data)
    (roomID : String) : (s.announce m sender t data roomID).1.services = s.services := by
  unfold Server.announce
  cases s.audience t data roomID with
  | none => rfl
  | some room =>
    dsimp only
    unfold Server.keep
    split_ifs <;> rfl

/-- So does the removal of a room. -/
theorem services_tearDown (s : Server) (t : ResponseType) (roomID : String) :
    (s.tearDown t roomID).services = s.services := by
  unfold Server.tearDown
  split_ifs <;> rfl

/-- Who is found depends on the connections only. -/
theorem findService_congr {s s' : Server} (h : s'.services = s.services) (m : Moment)
    (name : GoText) : s'.findService m name = s.findService m name := by
  unfold Server.findService
  rw [h]

/-- The copies of what is broadcast to a room: one for each user under whose handle the connection
is found, one for a sender who is not found, and one for the front-end service. -/
theorem copies_receive {r : ClientRequest} {room : HistoryRoom}
    (hroom : s.roomOf m sender name r = some room) (conn : ℕ) :
    copies conn (s.receive m sender (.request name r)).2 =
      ((room.users.filterMap ((s.rename sender name).findService m)).count conn +
        if sender ∉ room.users.filterMap ((s.rename sender name).findService m) ∧ conn = sender
        then 1 else 0) +
      if (s.rename sender name).findService m Server.frontEndService = some conn then 1 else 0 := by
  unfold Server.roomOf at hroom
  rw [Server.receive_request]
  show copies conn ((s.answering m sender name r).respond m sender r.type _).2 = _
  generalize hhandled : (handleRequest m name s.rooms r).2 = h at hroom ⊢
  obtain ⟨t, roomID, result⟩ := h
  cases result with
  -- An error goes to nobody but the sender.
  | error err => cases hroom
  | ok data =>
    dsimp only at hroom
    -- Handling the request, and keeping its answer, leaves the connections as they are.
    have hfind : ∀ u, (s.answering m sender name r).findService m u =
        (s.rename sender name).findService m u := findService_congr rfl m
    have hfront : (((s.answering m sender name r).announce m sender t data roomID).1.tearDown t
        roomID).findService m Server.frontEndService =
          (s.rename sender name).findService m Server.frontEndService :=
      findService_congr (by rw [services_tearDown, services_announce]; rfl) m _
    have hreplay : copies conn ((s.answering m sender name r).replayTo sender r.type roomID) = 0 := by
      unfold copies
      rw [List.countP_eq_zero]
      intro d hd
      simp [(Server.mem_replayTo hd).1]
    have hannounce : ((s.answering m sender name r).announce m sender t data roomID).2 =
        (s.answering m sender name r).broadcast m sender room.users
          (newOkResponse t data roomID) := by
      unfold Server.announce
      rw [hroom]
    show copies conn ((s.answering m sender name r).replayTo sender r.type roomID ++
      (((s.answering m sender name r).announce m sender t data roomID).2 ++ List.map _
        (Option.toList ((((s.answering m sender name r).announce m sender t data roomID).1.tearDown t
          roomID).findService m Server.frontEndService)))) = _
    rw [copies_append, copies_append, hreplay, Nat.zero_add, hannounce, copies_broadcast,
      funext hfind, hfront]
    -- What is left is the copy for the front-end service.
    congr 1
    cases (s.rename sender name).findService m Server.frontEndService with
    | none => rfl
    | some c =>
      by_cases hc : c = conn
      · simp [copies, hc]
      · simp [copies, hc]

end Copies

/-! ## What holds of every run -/

/-- No room has a user twice. -/
def Tidy (rooms : Rooms) : Prop := ∀ id room, rooms id = some room → room.users.Nodup

section Tidy

variable {rooms : Rooms} {id : String}

/-- A room is replaced by one that lists nobody twice. -/
theorem Tidy.update (h : Tidy rooms) {room : Option HistoryRoom}
    (hroom : ∀ r, room = some r → r.users.Nodup) : Tidy (Function.update rooms id room) := by
  intro id' r hr
  obtain rfl | hne := eq_or_ne id' id
  · rw [Function.update_self] at hr
    exact hroom r hr
  · rw [Function.update_of_ne hne] at hr
    exact h id' r hr

/-- A change of a room that keeps its users. -/
theorem Tidy.onRoom (h : Tidy rooms) {f : HistoryRoom → HistoryRoom}
    (hf : ∀ r, (f r).users = r.users) : Tidy (rooms.onRoom id f) := by
  unfold Rooms.onRoom
  cases hid : rooms id with
  | none => exact h
  | some r =>
    refine h.update fun r' hr' => ?_
    cases hr'
    rw [hf]
    exact h id r hid

/-- A user who is there already is not listed again. -/
theorem nodup_addUser {r : Room} (h : r.users.Nodup) (handle : GoText) :
    (r.addUser handle).users.Nodup := by
  unfold Room.addUser
  split_ifs with hmem
  · exact h
  · exact List.nodup_cons.mpr ⟨hmem, h⟩

/-- Joining a round leaves the users of the room. -/
theorem users_joinRound (r : Room) (userID : GoText) : (r.joinRound userID).users = r.users := by
  obtain ⟨users, round, filter⟩ := r
  cases round with
  | none => rfl
  | some round =>
    dsimp only [Room.joinRound]
    split_ifs <;> rfl

/-- So does the end of a round. -/
theorem users_endRound (r : Room) : r.endRound.users = r.users := by
  obtain ⟨users, round, filter⟩ := r
  cases round <;> rfl

/-- The handlers keep the rooms tidy. -/
theorem Tidy.handleRequest (h : Tidy rooms) (m : Moment) (name : GoText) (r : ClientRequest) :
    Tidy (handleRequest m name rooms r).1 := by
  have hdoes := does_handleRequest m name rooms r
  generalize (Rtc.handleRequest m name rooms r).1 = rooms' at hdoes ⊢
  cases hdoes with
  | nothing => exact h
  | join userHandle id userName suppress filter enabled =>
    refine h.update fun r' hr' => ?_
    cases hr'
    have hbefore : ((rooms id).getD .empty).users.Nodup := by
      cases hid : rooms id with
      | none => exact List.nodup_nil
      | some room => exact h id room hid
    exact nodup_addUser (r := { ((rooms id).getD .empty).toRoom with profanityFilter := enabled })
      hbefore userHandle
  | leave userHandle id userName room hroom =>
    refine h.update fun r' hr' => ?_
    split_ifs at hr'
    cases hr'
    exact (h id room hroom).filter _
  | roundStart id problemList startTime duration => exact h.onRoom fun _ => rfl
  | roundEnd id => exact h.onRoom fun r => users_endRound r.toRoom
  | joinRound id userID => exact h.onRoom fun r => users_joinRound r.toRoom userID

/-- Rooms with the same users are as tidy. -/
theorem Tidy.of_chatManager {rooms' : Rooms} (h : Tidy rooms)
    (hsame : ∀ id room', rooms'.chatManager id = some room' →
      rooms.chatManager id = some room') : Tidy rooms' := by
  intro id room' hroom'
  have hold := hsame id room'.toRoom (by rw [Rooms.chatManager, hroom', Option.map_some])
  obtain ⟨room, hroom, heq⟩ := Option.map_eq_some_iff.mp hold
  rw [← heq]
  exact h id room hroom

end Tidy

/-- Each connection is open once, and no room has a user twice. -/
structure Hub.Sound (h : Hub) : Prop where
  ids : (h.server.services.map Prod.fst).Nodup
  tidy : Tidy h.server.rooms

/-- A new name of a connection leaves its number. -/
theorem ids_rename (s : Server) (conn : ℕ) (name : GoText) :
    (s.rename conn name).services.map Prod.fst = s.services.map Prod.fst := by
  unfold Server.rename
  rw [List.map_map]
  refine List.map_congr_left fun c _ => ?_
  dsimp only [Function.comp_apply]
  split_ifs with hc
  · exact hc.symm
  · rfl

/-- A response leaves the connections. -/
theorem services_respond (s : Server) (m : Moment) (sender : ℕ) (type : String) (h : Handled) :
    (s.respond m sender type h).1.services = s.services := by
  obtain ⟨t, roomID, result⟩ := h
  cases result with
  | error err => rfl
  | ok data =>
    show ((s.announce m sender t data roomID).1.tearDown t roomID).services = _
    rw [services_tearDown, services_announce]

/-- Answering a message leaves the rooms tidy. -/
theorem Tidy.respond {s : Server} (h : Tidy s.rooms) (m : Moment) (sender : ℕ) (type : String)
    (handled : Handled) : Tidy (s.respond m sender type handled).1.rooms := by
  refine h.of_chatManager fun id room' hroom' => ?_
  rw [Server.chatManager_respond] at hroom'
  split_ifs at hroom'
  · obtain rfl | hne := eq_or_ne id handled.roomID
    · rw [Function.update_self] at hroom'
      cases hroom'
    · rwa [Function.update_of_ne hne] at hroom'
  · exact hroom'

/-- Legal events keep a hub sound. -/
theorem Hub.Sound.step {h : Hub} (hs : h.Sound) {e : ServerEvent} (hlegal : h.Legal e) :
    (h.step e).Sound := by
  cases e with
  | connect conn name => exact ⟨List.nodup_cons.mpr ⟨hlegal, hs.ids⟩, hs.tidy⟩
  | disconnect conn => exact ⟨hs.ids.sublist (List.filter_sublist.map _), hs.tidy⟩
  | receive m conn msg =>
    cases msg with
    | unreadable err => exact hs
    | invalid name err => exact ⟨(ids_rename h.server conn name).symm ▸ hs.ids, hs.tidy⟩
    | malformed name respType roomID err =>
      exact ⟨(ids_rename h.server conn name).symm ▸ hs.ids, hs.tidy⟩
    | request name r =>
      constructor
      · show ((Server.respond _ m conn r.type _).1.services.map Prod.fst).Nodup
        rw [services_respond]
        exact (ids_rename h.server conn name).symm ▸ hs.ids
      · exact Tidy.respond (s := h.server.answering m conn name r)
          (hs.tidy.handleRequest m name r) m conn r.type _

/-- After any legal history a hub is sound. -/
theorem Hub.sound_run {es : List ServerEvent} (h : Along Hub.step Hub.Legal .start es) :
    (run Hub.step .start es).Sound := by
  have hstart : Hub.start.Sound := ⟨List.nodup_nil, fun id room hroom => by cases hroom⟩
  exact (invariant_along (fun _ _ hs he => hs.step he) hstart h).last

/-! ## Who is reached -/

section Reaches

variable {h : Hub} {m : Moment} {sender : ℕ} {name : GoText} {r : ClientRequest}
  {room : HistoryRoom} {c : ℕ × GoText}

/-- Numbers remain unique when a connection takes a name. -/
theorem Hub.Sound.ids_rename (hs : h.Sound) (sender : ℕ) (name : GoText) :
    ((h.server.rename sender name).services.map Prod.fst).Nodup := by
  rw [Rtc.ids_rename]
  exact hs.ids

/-- A connection is found under its own name only. -/
theorem Hub.Sound.name_of_found (hs : h.Sound)
    (hc : c ∈ (h.server.rename sender name).services) {u : GoText}
    (hfind : (h.server.rename sender name).findService m u = some c.1) : c.2 = u :=
  congrArg Prod.snd
    (List.inj_on_of_nodup_map (hs.ids_rename sender name) hc (mem_of_findService hfind) rfl)

/-- The room of a broadcast is tidy. -/
theorem nodup_roomOf (hs : h.Sound) (hroom : h.server.roomOf m sender name r = some room) :
    room.users.Nodup := by
  unfold Server.roomOf at hroom
  split at hroom
  · unfold Server.audience at hroom
    split_ifs at hroom
    exact hs.tidy.handleRequest m name r _ _ hroom
  · cases hroom

/-- The sender gets one copy, and a second one when he is found as the front-end service. -/
theorem copies_sender (hroom : h.server.roomOf m sender name r = some room) (hs : h.Sound) :
    copies sender (h.server.receive m sender (.request name r)).2 =
      1 + if (h.server.rename sender name).findService m Server.frontEndService = some sender
        then 1 else 0 := by
  rw [copies_receive hroom]
  congr 1
  by_cases hfound : sender ∈ room.users.filterMap ((h.server.rename sender name).findService m)
  · rw [if_neg fun hnot => hnot.1 hfound, Nat.add_zero]
    obtain ⟨u, hu, hfind⟩ := List.mem_filterMap.mp hfound
    rw [count_found (hs.ids_rename sender name) (mem_of_findService hfind)
      (nodup_roomOf hs hroom), if_pos ⟨hu, hfind⟩]
  · rw [if_pos ⟨hfound, rfl⟩, List.count_eq_zero.mpr hfound]

/-- Another connection gets a copy when it is found under its name and the name is that of a user of
the room, and one when it is found as the front-end service. -/
theorem copies_other (hroom : h.server.roomOf m sender name r = some room) (hs : h.Sound)
    (hc : c ∈ (h.server.rename sender name).services) (hne : c.1 ≠ sender) :
    copies c.1 (h.server.receive m sender (.request name r)).2 =
      (if c.2 ∈ room.users ∧ (h.server.rename sender name).findService m c.2 = some c.1
        then 1 else 0) +
      if (h.server.rename sender name).findService m Server.frontEndService = some c.1
        then 1 else 0 := by
  rw [copies_receive hroom, count_found (hs.ids_rename sender name) hc (nodup_roomOf hs hroom),
    if_neg fun hsender : sender ∉ _ ∧ c.1 = sender => hne hsender.2, Nat.add_zero]

/-- The order in which connections are searched matters to no handler. -/
theorem handleRequest_search (m : Moment) (a : Arrangement (ℕ × GoText)) (name : GoText)
    (rooms : Rooms) (r : ClientRequest) :
    handleRequest { m with search := a } name rooms r = handleRequest m name rooms r := by
  cases r with
  | of r => cases r <;> rfl
  | chatMessage => rfl

/-- The order of the search does not decide which room a request is about. -/
theorem roomOf_search (s : Server) (m : Moment) (a : Arrangement (ℕ × GoText)) (sender : ℕ)
    (name : GoText) (r : ClientRequest) :
    s.roomOf { m with search := a } sender name r = s.roomOf m sender name r := by
  unfold Server.roomOf Server.answering
  rw [handleRequest_search]

/-- A request changes no more of the connections than a name. -/
theorem services_receive (s : Server) (m : Moment) (sender : ℕ) (name : GoText)
    (r : ClientRequest) : (s.receive m sender (.request name r)).1.services =
      (s.rename sender name).services := by
  rw [Server.receive_request, services_respond]

/-- Another connection joined before, or not at all. -/
theorem mem_joins_of_ne {c : ℕ} (hne : c ≠ sender) {j : String × GoText} :
    (c, j) ∈ (h.step (.receive m sender (.request name r))).joins ↔ (c, j) ∈ h.joins := by
  show (c, j) ∈ r.joins.toList.map (Prod.mk sender) ++ h.joins ↔ _
  rw [List.mem_append, or_iff_right]
  intro hmem
  obtain ⟨j', -, heq⟩ := List.mem_map.mp hmem
  exact hne (congrArg Prod.fst heq).symm

/-- Connections that can be told apart are reached, in whatever order they are searched. -/
theorem Distinguished.reaches (hd : Distinguished h m sender name r room) (hs : h.Sound)
    (hroom : h.server.roomOf m sender name r = some room) : Reaches h m sender name r room := by
  have hsender : ∀ a, copies sender
      (h.server.receive { m with search := a } sender (.request name r)).2 = 1 := by
    intro a
    rw [copies_sender ((roomOf_search ..).trans hroom) hs, if_neg]
    intro hfront
    exact hd.sender _ (mem_of_findService hfront) rfl rfl
  refine ⟨fun a c hc handle hhandle hjoined => ?_, hsender⟩
  rw [Hub.step, Server.step, services_receive] at hc
  by_cases hne : c.1 = sender
  · rw [hne]
    exact hsender a
  · obtain ⟨hunique, hname⟩ :=
      hd.members c hc hne ⟨handle, hhandle, (mem_joins_of_ne hne).mp hjoined⟩
    have hfound := findService_of_unique (m := { m with search := a }) hc hunique
    rw [copies_other ((roomOf_search ..).trans hroom) hs hc hne]
    by_cases huser : c.2 ∈ room.users
    · rw [if_pos ⟨huser, hfound⟩, if_neg]
      exact fun hfront => hname.mp huser (hs.name_of_found hc hfront)
    · have hfront : c.2 = Server.frontEndService := by
        by_contra hfront
        exact huser (hname.mpr hfront)
      rw [if_neg fun hboth => huser hboth.1, ← hfront, if_pos hfound]

/-- Connections that are reached in every order can be told apart. -/
theorem Reaches.distinguished (hr : Reaches h m sender name r room) (hs : h.Sound)
    (hroom : h.server.roomOf m sender name r = some room) :
    Distinguished h m sender name r room := by
  constructor
  · rintro c hc hne ⟨handle, hhandle, hjoined⟩
    have hopen : c ∈ (h.step (.receive m sender (.request name r))).server.services := by
      rw [Hub.step, Server.step, services_receive]
      exact hc
    have hone : ∀ a, copies c.1
        (h.server.receive { m with search := a } sender (.request name r)).2 = 1 := fun a =>
      hr.members a c hopen handle hhandle ((mem_joins_of_ne hne).mpr hjoined)
    -- Were there another one of the name, an order in which it comes first would miss this one.
    have hunique : ∀ c' ∈ (h.server.rename sender name).services, c'.2 = c.2 → c' = c := by
      intro c' hc' hname
      by_contra hdiff
      have hfirst := findService_first (m := m) hc'
      have hmissed : c'.1 ≠ c.1 := fun hid =>
        hdiff (List.inj_on_of_nodup_map (hs.ids_rename sender name) hc' hc hid)
      have hcopies := hone (.withFirst c')
      rw [copies_other ((roomOf_search ..).trans hroom) hs hc hne, if_neg, if_neg] at hcopies
      · cases hcopies
      · intro hfront
        rw [← hs.name_of_found hc hfront, ← hname, hfirst] at hfront
        exact hmissed (Option.some.inj hfront)
      · intro hboth
        have hfound := hboth.2
        rw [← hname, hfirst] at hfound
        exact hmissed (Option.some.inj hfound)
    refine ⟨hunique, ?_⟩
    have hfound := findService_of_unique (m := { m with search := .inserted _ }) hc hunique
    have hcopies := hone (.inserted _)
    rw [copies_other ((roomOf_search ..).trans hroom) hs hc hne] at hcopies
    constructor
    · intro huser hfront
      rw [if_pos ⟨huser, hfound⟩, ← hfront, if_pos hfound] at hcopies
      cases hcopies
    · intro hfront
      by_contra huser
      rw [if_neg fun hboth : c.2 ∈ room.users ∧ _ => huser hboth.1, if_neg] at hcopies
      · cases hcopies
      · exact fun hfrontEnd => hfront (hs.name_of_found hc hfrontEnd)
  · intro c hc hid hfront
    have hcopies := hr.sender (.withFirst c)
    have hfirst := findService_first (m := m) hc
    rw [copies_sender ((roomOf_search ..).trans hroom) hs, ← hfront, hfirst, hid, if_pos rfl]
      at hcopies
    cases hcopies

end Reaches

/-- In whatever order the connections are searched, a broadcast reaches everybody in its room, and
its sender, once, exactly when their connections can be told apart by their names. -/
theorem reaches_iff {es : List ServerEvent} (hlegal : Along Hub.step Hub.Legal .start es)
    {m : Moment} {sender : ℕ} {name : GoText} {r : ClientRequest} {room : HistoryRoom}
    (hroom : (run Hub.step .start es).server.roomOf m sender name r = some room) :
    Reaches (run Hub.step .start es) m sender name r room ↔
      Distinguished (run Hub.step .start es) m sender name r room :=
  ⟨fun hr => hr.distinguished (Hub.sound_run hlegal) hroom,
    fun hd => hd.reaches (Hub.sound_run hlegal) hroom⟩

/-- The user joins the room on this connection, under his handle. -/
def joinsAs (conn : ℕ) (handle : GoText) : ServerEvent :=
  .receive (.plain 0) conn (.request handle (.of (.joinRoom handle "room" handle false none)))

/-- The users open connections and join, in the order given. -/
def openAll (cs : List (ℕ × GoText)) : List ServerEvent :=
  cs.map (fun c => .connect c.1 c.2) ++ cs.map fun c => joinsAs c.1 c.2

/-- A chat message of bob. -/
def hello : ClientRequest := .chatMessage (utf8 "bob") (utf8 "Bob") [] "room" (utf8 "hello")

/-- The room that the message goes to. -/
def helloRoom (es : List ServerEvent) : HistoryRoom :=
  ((run Hub.step .start es).server.roomOf (.plain 0) 3 (utf8 "bob") hello).getD .empty

/-- Of two tabs of one user, the first one does not get the message. -/
theorem not_reaches :
    let h := run Hub.step .start (openAll [(1, utf8 "alice"), (2, utf8 "alice"), (3, utf8 "bob")])
    ∃ room, h.server.roomOf (.plain 0) 3 (utf8 "bob") hello = some room ∧
      ¬ Reaches h (.plain 0) 3 (utf8 "bob") hello room := by
  refine ⟨helloRoom (openAll [(1, utf8 "alice"), (2, utf8 "alice"), (3, utf8 "bob")]),
    by decide +kernel, fun hr => ?_⟩
  have hcopies := hr.members (.inserted _) (1, utf8 "alice") (by decide +kernel) (utf8 "alice")
    (by decide +kernel) (by decide +kernel)
  revert hcopies
  decide +kernel

/-- Of two users with one tab each, both get it. -/
theorem reaches_two :
    let h := run Hub.step .start (openAll [(1, utf8 "alice"), (3, utf8 "bob")])
    Reaches h (.plain 0) 3 (utf8 "bob") hello
      (helloRoom (openAll [(1, utf8 "alice"), (3, utf8 "bob")])) := by
  refine (reaches_iff ?_ ?_).mpr ⟨?_, ?_⟩
  · decide +kernel
  · decide +kernel
  · decide +kernel
  · decide +kernel

end Bsg.Rtc
