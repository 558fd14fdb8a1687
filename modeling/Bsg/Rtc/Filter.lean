import Bsg.Rtc.Service

/-!
# Who sets the profanity filter

A room's profanity filter is set by a `join-room`, and only when it comes from central-service. What
the code compares for that is the name which the message gives of itself, so what counts is the last
setting under that name, on whatever connection it was sent (`filterOf_run`). `filterKept_iff` says
when the other connections leave no trace in the filter.
-/

namespace Bsg.Rtc

open Bsg.Foundations

/-- The filter that a request sets for a room, if it sets one. -/
def Request.setting (roomID : String) : Request → Option Bool
  | .joinRoom userHandle id _ _ profanityFilter =>
    if userHandle ≠ [] ∧ id ≠ "" ∧ id = roomID then profanityFilter else none
  | _ => none

/-- The filter that a message under the name of central-service sets for a room. -/
def ServerEvent.setting (roomID : String) (e : ServerEvent) : Option Bool :=
  e.request?.bind (Request.setting roomID)

/-- The last filter that is set for a room. -/
def lastSetting (roomID : String) (es : List ServerEvent) : Option Bool :=
  (es.filterMap (ServerEvent.setting roomID)).getLast?

/-- Anything but a message on another connection than this one. -/
def ServerEvent.notFromOthers (central : ℕ) : ServerEvent → Bool
  | .receive _ conn _ => decide (conn = central)
  | _ => true

/-- The run without the messages on the other connections. -/
def withoutOthers (central : ℕ) (es : List ServerEvent) : List ServerEvent :=
  es.filter (ServerEvent.notFromOthers central)

/-- The profanity filter of a room. -/
def Server.filterOf (s : Server) (roomID : String) : Option Bool :=
  (s.rooms roomID).map fun room => room.profanityFilter

/-- The room is there. -/
def Server.Holds (roomID : String) (s : Server) : Prop := (s.rooms roomID).isSome = true

instance (roomID : String) (s : Server) : Decidable (s.Holds roomID) :=
  inferInstanceAs (Decidable (_ = true))

/-! ## What sets the filter -/

/-- A new user leaves the filter. -/
theorem profanityFilter_addUser (r : Room) (handle : GoText) :
    (r.addUser handle).profanityFilter = r.profanityFilter := by
  unfold Room.addUser
  split_ifs <;> rfl

/-- What is done to a room without touching its filter. -/
theorem profanityFilter_onRoom {m : ChatManager} {roomID id : String} {room room' : Room}
    {f : Room → Room} (hf : ∀ r, (f r).profanityFilter = r.profanityFilter)
    (h : m roomID = some room) (h' : m.onRoom id f roomID = some room') :
    room'.profanityFilter = room.profanityFilter := by
  obtain rfl | hne := eq_or_ne roomID id
  · rw [ChatManager.onRoom_self, h] at h'
    cases h'
    exact hf room
  · rw [ChatManager.onRoom_of_ne m hne, h] at h'
    cases h'
    rfl

/-- Only a complete join sets a filter. -/
theorem setting_eq_none {r : Request} (h : r.NoJoin) (roomID : String) :
    r.setting roomID = none := by
  cases r with
  | joinRoom userHandle id userName suppress filter =>
    exact if_neg fun hset => (h _ _ _ _ _ rfl).elim hset.1 hset.2.1
  | _ => rfl

/-- A request under which the room remains sets the filter, or leaves it. -/
theorem setting_handle {m : ChatManager} {r : Request} {roomID : String} {room room' : Room}
    (h : m roomID = some room) (h' : handle m r roomID = some room') :
    room'.profanityFilter = (r.setting roomID).getD room.profanityFilter := by
  -- Most requests leave this room alone, or change something else of it.
  have hsame : m roomID = some room' → room'.profanityFilter = room.profanityFilter := by
    intro hroom
    rw [h] at hroom
    cases hroom
    rfl
  have hturns := turns_handle m r
  generalize handle m r = m' at hturns h'
  cases hturns with
  | nothing r hjoin =>
    rw [setting_eq_none hjoin]
    exact hsame h'
  | join userHandle id userName suppress filter hhandle hid =>
    dsimp only [Request.setting]
    obtain rfl | hne := eq_or_ne id roomID
    · rw [Function.update_self, h] at h'
      cases h'
      rw [if_pos ⟨hhandle, hid, rfl⟩, profanityFilter_addUser]
      rfl
    · rw [Function.update_of_ne hne.symm] at h'
      rw [if_neg fun hset => hne hset.2.2]
      exact hsame h'
  | leave userHandle id userName left hleft hin =>
    obtain rfl | hne := eq_or_ne id roomID
    · -- The room is still there afterwards, and so it was not its last user who left.
      rw [h] at hleft
      cases hleft
      rw [Function.update_self] at h'
      split_ifs at h'
      cases h'
      rfl
    · rw [Function.update_of_ne hne.symm] at h'
      exact hsame h'
  | round r f hjoin husers hfilter =>
    rw [setting_eq_none hjoin]
    exact profanityFilter_onRoom hfilter h h'
  | expire id =>
    obtain rfl | hne := eq_or_ne id roomID
    · rw [Function.update_self] at h'
      cases h'
    · rw [Function.update_of_ne hne.symm] at h'
      exact hsame h'

/-- The filter of a room that remains is the last one set, or what it was. -/
theorem filterOf_step {s : Server} {e : ServerEvent} {roomID : String} (h : s.Holds roomID)
    (h' : (s.step e).Holds roomID) :
    (s.step e).filterOf roomID = some ((e.setting roomID).getD ((s.filterOf roomID).getD false)) := by
  obtain ⟨room, hroom⟩ := Option.isSome_iff_exists.mp h
  obtain ⟨room', hroom'⟩ := Option.isSome_iff_exists.mp h'
  have hbefore : s.rooms.chatManager roomID = some room.toRoom := by
    rw [Rooms.chatManager, hroom, Option.map_some]
  have hafter : (s.step e).rooms.chatManager roomID = some room'.toRoom := by
    rw [Rooms.chatManager, hroom', Option.map_some]
  rw [Server.chatManager_step] at hafter
  unfold Server.filterOf
  rw [hroom, hroom', Option.map_some, Option.map_some, Option.getD_some]
  unfold ServerEvent.setting
  cases hrequest : e.request? with
  | none =>
    rw [hrequest, Option.toList_none, handleAll_nil, hbefore] at hafter
    rw [← Option.some.inj hafter]
    rfl
  | some r =>
    rw [hrequest, Option.toList_some, handleAll_cons, handleAll_nil] at hafter
    rw [setting_handle hbefore hafter]
    rfl

/-- A later setting replaces an earlier one. -/
theorem lastSetting_cons (roomID : String) (e : ServerEvent) (es : List ServerEvent) :
    lastSetting roomID (e :: es) = (lastSetting roomID es).or (e.setting roomID) := by
  unfold lastSetting
  rw [List.filterMap_cons]
  cases e.setting roomID with
  | none => simp
  | some enabled =>
    dsimp only
    rw [List.getLast?_cons]
    cases (es.filterMap (ServerEvent.setting roomID)).getLast? <;> rfl

/-- Along a run in which the room remains, the filter is the last one set, or what it was. -/
theorem filterOf_run {roomID : String} {es : List ServerEvent} {s : Server}
    (h : Throughout Server.step (Server.Holds roomID) s es) :
    (run Server.step s es).filterOf roomID =
      some ((lastSetting roomID es).getD ((s.filterOf roomID).getD false)) := by
  induction es generalizing s with
  | nil =>
    have hs : (s.rooms roomID).isSome = true := h.last
    obtain ⟨room, hroom⟩ := Option.isSome_iff_exists.mp hs
    rw [run_nil, Server.filterOf, hroom]
    rfl
  | cons e es ih =>
    obtain ⟨hs, hrest⟩ := (throughout_cons ..).mp h
    rw [run_cons, ih hrest, filterOf_step hs (hrest [] List.nil_prefix), lastSetting_cons]
    cases lastSetting roomID es <;> rfl

/-! ## Two runs -/

/-- The filter is the same in the end with the messages on other connections and without them. -/
def FilterKept (roomID : String) (central : ℕ) (s : Server) (es : List ServerEvent) : Prop :=
  (run Server.step s es).filterOf roomID =
    (run Server.step s (withoutOthers central es)).filterOf roomID

/-- The last setting under the name of central-service is the last one on its connection, or sets
the same; without any on its connection, the one that the room had before counts. -/
def NotOverridden (roomID : String) (central : ℕ) (s : Server) (es : List ServerEvent) : Prop :=
  (lastSetting roomID es).getD ((s.filterOf roomID).getD false) =
    (lastSetting roomID (withoutOthers central es)).getD ((s.filterOf roomID).getD false)

/-- While the room is there, the other connections leave no trace in the filter exactly when none of
them overrides central-service under its name. -/
theorem filterKept_iff {roomID : String} {central : ℕ} {s : Server} {es : List ServerEvent}
    (h : Throughout Server.step (Server.Holds roomID) s es)
    (h' : Throughout Server.step (Server.Holds roomID) s (withoutOthers central es)) :
    FilterKept roomID central s es ↔ NotOverridden roomID central s es := by
  unfold FilterKept NotOverridden
  rw [filterOf_run h, filterOf_run h', Option.some.injEq]

/-- A room that central-service configured, and a connection of a member. -/
def Server.configured : Server where
  rooms := Function.update (fun _ => none) "room"
    (some ⟨⟨[utf8 "alice", utf8 "bob"], none, true⟩, []⟩)
  services := [(2, utf8 "bob"), (1, centralServiceName)]

/-- A member sends a `join-room` under the name of central-service. -/
def forgedJoin : List ServerEvent :=
  [.receive (.plain 0) 2 (.request centralServiceName
    (.of (.joinRoom (utf8 "bob") "room" (utf8 "Bob") true (some false))))]

/-- Under his own name the message is ignored. -/
def honestJoin : List ServerEvent :=
  [.receive (.plain 0) 2 (.request (utf8 "bob")
    (.of (.joinRoom (utf8 "bob") "room" (utf8 "Bob") true (some false))))]

/-- The member turns the filter off, while the room is there all the time. -/
theorem not_filterKept : ¬ FilterKept "room" 1 .configured forgedJoin ∧
    Throughout Server.step (Server.Holds "room") .configured forgedJoin ∧
      Throughout Server.step (Server.Holds "room") .configured (withoutOthers 1 forgedJoin) := by
  refine ⟨?_, ?_, ?_⟩
  · unfold FilterKept
    decide +kernel
  · rw [forgedJoin, throughout_cons, throughout_nil]
    decide +kernel
  · rw [show withoutOthers 1 forgedJoin = [] from rfl, throughout_nil]
    decide +kernel

/-- The filter stays when the member sends it under his own name. -/
theorem filterKept_honest : FilterKept "room" 1 .configured honestJoin := by
  refine (filterKept_iff ?_ ?_).mpr ?_
  · rw [honestJoin, throughout_cons, throughout_nil]
    decide +kernel
  · rw [show withoutOthers 1 honestJoin = [] from rfl, throughout_nil]
    decide +kernel
  · unfold NotOverridden
    decide +kernel

end Bsg.Rtc
