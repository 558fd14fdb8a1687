import Bsg.Rtc.Presence

/-!
# Joins and leaves one after the other

What a handler of `join-room` or `leave-room` makes of the room when it runs alone, and what several
of them make of it in a row. Each stay of a user is announced then (`Serves.staysAnnounced`). A user
who joins may do so before the leave that would have emptied the room (`serves_join_leave`).
-/

namespace Bsg.Rtc

open Bsg.Foundations

/-! ## A handler alone -/

/-- The room after a join. -/
def HistoryRoom.joined (room : HistoryRoom) (r : JoinRoom) : HistoryRoom :=
  room.onRoom fun x =>
    { x with profanityFilter := r.setting.getD x.profanityFilter }.addUser r.userHandle

/-- The room after a user has left. -/
def HistoryRoom.without (room : HistoryRoom) (handle : GoText) : HistoryRoom :=
  room.onRoom fun x => x.removeUser handle

/-- After a join the user is there with those who were. -/
theorem mem_joined {room : HistoryRoom} {r : JoinRoom} {handle : GoText} :
    handle ∈ (room.joined r).users ↔ handle = r.userHandle ∨ handle ∈ room.users := by
  show handle ∈ (Room.addUser _ r.userHandle).users ↔ _
  unfold Room.addUser
  split_ifs with h
  · exact ⟨Or.inr, fun hor => hor.elim (fun heq => heq ▸ h) id⟩
  · exact List.mem_cons

/-- Somebody is in a room after a join. -/
theorem users_joined (room : HistoryRoom) (r : JoinRoom) : (room.joined r).users ≠ [] := by
  intro hempty
  have hin : r.userHandle ∈ (room.joined r).users := mem_joined.mpr (Or.inl rfl)
  rw [hempty] at hin
  cases hin

/-- After a leave the user is not there, and the others are. -/
theorem mem_without {room : HistoryRoom} {handle u : GoText} :
    u ∈ (room.without handle).users ↔ u ∈ room.users ∧ u ≠ handle := by
  show u ∈ room.users.filter _ ↔ _
  rw [List.mem_filter, decide_eq_true_iff]

section Alone

variable {roomID : String} {r : JoinRoom} {l : LeaveRoom} {room : HistoryRoom}

/-- A join is accepted when its fields are filled in. -/
theorem validate_join (r : JoinRoom) (roomID : String) :
    validate "JoinRoomRequest" (r.required roomID) = none ↔ r.Complete roomID := by
  unfold validate JoinRoom.required JoinRoom.Complete
  by_cases hhandle : r.userHandle = [] <;> by_cases hid : roomID = "" <;> simp [hhandle, hid]

/-- What a join announces, as its handler says it. -/
theorem announcement_of_complete (h : r.Complete roomID) (rejoin : Bool) :
    r.announcement rejoin = if rejoin || r.suppressAnnouncement then []
      else (if r.userName = [] then r.userHandle else r.userName) ++ utf8 " joined the room" := by
  have hname : (if r.userName = [] then r.userHandle else r.userName) ≠ [] := by
    split_ifs with hempty
    · exact h.1
    · exact hempty
  unfold JoinRoom.announcement
  dsimp only
  rw [if_neg hname]
  cases rejoin <;> cases r.suppressAnnouncement <;> rfl

/-- A join is announced when it is none of a user who is back, and not told to be silent. -/
theorem announcement_ne_nil (h : r.Complete roomID) (rejoin : Bool) :
    r.announcement rejoin ≠ [] ↔ rejoin = false ∧ r.suppressAnnouncement = false := by
  have htext : utf8 " joined the room" ≠ [] := by decide
  rw [announcement_of_complete h]
  cases rejoin <;> cases r.suppressAnnouncement <;> simp [htext]

/-- A complete join adds its user to the room, which it creates if there is none. -/
theorem handle_join (h : r.Complete roomID) (rooms : Rooms) :
    (RoomRequest.join r).handle roomID rooms =
      (Function.update rooms roomID (some (((rooms roomID).getD .empty).joined r)),
        ⟨.userJoined, roomID, .ok (.text
          (r.announcement (((rooms roomID).getD .empty).users.contains r.userHandle)))⟩) := by
  rw [announcement_of_complete h]
  rcases checked_cases "JoinRoomRequest" (r.required roomID) .userJoined roomID rooms _ with
    ⟨-, hnext⟩ | ⟨hmissing, -⟩
  · refine Eq.trans hnext ?_
    dsimp only [HistoryRoom.joined, JoinRoom.setting]
    -- Only central-service may set the filter.
    by_cases hservice : r.service = centralServiceName
    · rw [if_pos hservice]
      cases r.profanityFilter with
      | none => rfl
      | some enabled =>
        dsimp only
        rw [if_pos hservice]
        rfl
    · rw [if_neg hservice]
      cases r.profanityFilter with
      | none => rfl
      | some enabled =>
        dsimp only
        rw [if_neg hservice]
        rfl
  · simp [JoinRoom.required, h.1, h.2] at hmissing

/-- A join that is not complete fails. -/
theorem handle_incomplete (h : ¬ r.Complete roomID) (rooms : Rooms) : ∃ err,
    (RoomRequest.join r).handle roomID rooms = (rooms, ⟨.userJoined, roomID, .error err⟩) := by
  rcases checked_cases "JoinRoomRequest" (r.required roomID) .userJoined roomID rooms _ with
    ⟨hall, -⟩ | ⟨-, err, herr⟩
  · exact absurd ⟨by simpa using hall _ List.mem_cons_self,
      by simpa using hall _ (List.mem_cons_of_mem _ List.mem_cons_self)⟩ h
  · exact ⟨err, herr⟩

/-- A complete join adds the user, and announces him when he is new. -/
theorem alone_join (h : r.Complete roomID) (room : Option HistoryRoom) :
    (RoomRequest.join r).alone roomID room = (some ((room.getD .empty).joined r),
      some (r.announcement ((room.getD .empty).users.contains r.userHandle))) := by
  unfold RoomRequest.alone
  rw [handle_join h, Function.update_self]
  dsimp only
  rw [Function.update_self]
  rfl

/-- An incomplete join does nothing. -/
theorem alone_incomplete (h : ¬ r.Complete roomID) (room : Option HistoryRoom) :
    (RoomRequest.join r).alone roomID room = (room, none) := by
  obtain ⟨err, herr⟩ := handle_incomplete h (Function.update (fun _ => none) roomID room)
  unfold RoomRequest.alone
  rw [herr]
  dsimp only
  rw [Function.update_self]
  rfl

/-- There is no room to leave. -/
theorem alone_leave_none : (RoomRequest.leave l).alone roomID none = (none, none) := by
  unfold RoomRequest.alone RoomRequest.handle handleLeaveRoom
  rw [Function.update_self]
  dsimp only
  rw [Function.update_self]
  rfl

/-- A user who is not in the room cannot leave it. -/
theorem alone_leave_absent (h : l.userHandle ∉ room.users) :
    (RoomRequest.leave l).alone roomID (some room) = (some room, none) := by
  unfold RoomRequest.alone RoomRequest.handle handleLeaveRoom
  rw [Function.update_self]
  dsimp only
  rw [if_neg (by simpa using h)]
  dsimp only
  rw [Function.update_self]
  rfl

/-- A user who leaves a room takes it along when he is the last one. -/
theorem alone_leave (h : l.userHandle ∈ room.users) :
    (RoomRequest.leave l).alone roomID (some room) =
      (if (room.without l.userHandle).users = [] then none else some (room.without l.userHandle),
        some l.announcement) := by
  unfold RoomRequest.alone RoomRequest.handle handleLeaveRoom
  rw [Function.update_self]
  dsimp only
  rw [if_pos (List.contains_iff_mem.mpr h)]
  dsimp only
  rw [Function.update_self]
  rfl

end Alone

/-! ## Handlers in a row -/

section Serves

variable {requests : ℕ → RoomRequest} {roomID : String} {answer answer' : ℕ → Option GoText}

/-- Serving requests may be cut into two. -/
theorem serves_append {a c : Option HistoryRoom} : ∀ {is js : List ℕ},
    Serves requests roomID answer a (is ++ js) c ↔
      ∃ b, Serves requests roomID answer a is b ∧ Serves requests roomID answer b js c
  | [], js => ⟨fun h => ⟨a, rfl, h⟩, fun ⟨b, hb, h⟩ => by cases hb; exact h⟩
  | i :: is, js => by
    constructor
    · rintro ⟨hi, h⟩
      obtain ⟨b, hb, hjs⟩ := serves_append.mp h
      exact ⟨b, ⟨hi, hb⟩, hjs⟩
    · rintro ⟨b, ⟨hi, hb⟩, hjs⟩
      exact ⟨hi, serves_append.mpr ⟨b, hb, hjs⟩⟩

/-- Only the answers of those in the row matter. -/
theorem Serves.congr : ∀ {order : List ℕ} {a b : Option HistoryRoom},
    (∀ i ∈ order, answer i = answer' i) → Serves requests roomID answer a order b →
      Serves requests roomID answer' a order b
  | [], _, _, _, h => h
  | i :: _, _, _, hsame, ⟨hi, h⟩ =>
    ⟨hi.trans (hsame i List.mem_cons_self),
      h.congr fun j hj => hsame j (List.mem_cons_of_mem _ hj)⟩

/-- One more handler at the end. -/
theorem Serves.snoc {a b c : Option HistoryRoom} {order : List ℕ} {i : ℕ}
    (h : Serves requests roomID answer a order b)
    (hi : (requests i).alone roomID b = (c, answer i)) :
    Serves requests roomID answer a (order ++ [i]) c :=
  serves_append.mpr ⟨b, h, congrArg Prod.snd hi, congrArg Prod.fst hi⟩

/-- Handlers that fail in a room leave it as it is. -/
theorem Serves.of_fail {a : Option HistoryRoom} : ∀ {order : List ℕ},
    (∀ i ∈ order, (requests i).alone roomID a = (a, answer i)) →
      Serves requests roomID answer a order a
  | [], _ => rfl
  | i :: is, h => by
    have hi := h i List.mem_cons_self
    have his : Serves requests roomID answer a is a :=
      Serves.of_fail fun j hj => h j (List.mem_cons_of_mem _ hj)
    exact ⟨congrArg Prod.snd hi, by rw [hi]; exact his⟩

/-- It does not matter whether one user leaves before another one joins, as long as there is a room
in between. -/
theorem joined_without (room : HistoryRoom) {r : JoinRoom} {handle : GoText}
    (h : r.userHandle ≠ handle) :
    (room.joined r).without handle = (room.without handle).joined r := by
  have hmem : r.userHandle ∈ room.users.filter (fun u => decide (u ≠ handle)) ↔
      r.userHandle ∈ room.users := by
    rw [List.mem_filter, decide_eq_true_iff]
    exact and_iff_left h
  unfold HistoryRoom.joined HistoryRoom.without HistoryRoom.onRoom Room.addUser Room.removeUser
  dsimp only
  by_cases hin : r.userHandle ∈ room.users
  · rw [if_pos hin, if_pos (hmem.mpr hin)]
  · rw [if_neg hin, if_neg (mt hmem.mp hin)]
    simp [h]

/-- Where the last user leaves, nobody else was in the room. -/
theorem notMem_of_last {room : HistoryRoom} {handle u : GoText}
    (hlast : (room.without handle).users = []) (h : u ≠ handle) : u ∉ room.users := by
  intro hin
  have hwithout := mem_without.mpr ⟨hin, h⟩
  rw [hlast] at hwithout
  cases hwithout

/-- Someone joins before the last user leaves, who is then not the last one. Leaves of that user
fail after it. -/
theorem serves_join_leave {i j : ℕ} {rest : List ℕ} {room : HistoryRoom} {r : JoinRoom}
    {l : LeaveRoom} (hi : requests i = .join r) (hj : requests j = .leave l)
    (hcomplete : r.Complete roomID) (hne : r.userHandle ≠ l.userHandle)
    (hmem : l.userHandle ∈ room.users) (hlast : (room.without l.userHandle).users = [])
    (hjoin : answer i = some (r.announcement false)) (hleave : answer j = some l.announcement)
    (hrest : ∀ n ∈ rest,
      answer n = none ∧ ∃ r, requests n = .leave r ∧ r.userHandle = l.userHandle) :
    Serves requests roomID answer (some room) (i :: j :: rest)
      (some ((room.without l.userHandle).joined r)) := by
  -- The user who joins is not the one in the room, and so he is announced.
  have habsent : room.users.contains r.userHandle = false := by
    simpa using notMem_of_last hlast hne
  have hfirst : (requests i).alone roomID (some room) = (some (room.joined r), answer i) := by
    rw [hi, alone_join hcomplete, hjoin, Option.getD_some, habsent]
  have hstays : ((room.without l.userHandle).joined r).users ≠ [] := users_joined _ r
  -- The other one leaves, and the room stays.
  have hsecond : (requests j).alone roomID (some (room.joined r)) =
      (some ((room.without l.userHandle).joined r), answer j) := by
    rw [hj, alone_leave (mem_joined.mpr (Or.inr hmem)), joined_without room hne, if_neg hstays,
      hleave]
  refine ⟨congrArg Prod.snd hfirst, ?_⟩
  rw [hfirst]
  refine ⟨congrArg Prod.snd hsecond, ?_⟩
  rw [hsecond]
  -- Leaves of the user who has left fail after that.
  refine Serves.of_fail fun n hn => ?_
  obtain ⟨hnone, x, hx, hhandle⟩ := hrest n hn
  have hgone : x.userHandle ∉ ((room.without l.userHandle).joined r).users := by
    rw [mem_joined, hhandle, mem_without]
    exact fun hor => hor.elim (fun heq => hne heq.symm) fun hin => hin.2 rfl
  rw [hx, alone_leave_absent hgone, hnone]

/-- The user is in a room after a join when it is his or he was there. -/
theorem within_joined (handle : GoText) (room : Option HistoryRoom) (r : JoinRoom) :
    within handle (some ((room.getD .empty).joined r)) =
      (decide (handle = r.userHandle) || within handle room) := by
  rw [Bool.eq_iff_iff, Bool.or_eq_true, decide_eq_true_iff]
  unfold within
  rw [Option.any_some, List.contains_iff_mem, mem_joined]
  cases room with
  | none => simp [HistoryRoom.empty]
  | some room => simp

/-- The user is in the room after a leave when it is not his and he was there. -/
theorem within_without (handle : GoText) (room : HistoryRoom) (u : GoText) :
    within handle (if (room.without u).users = [] then none else some (room.without u)) =
      (within handle (some room) && decide (handle ≠ u)) := by
  have hmem : within handle (some (room.without u)) =
      (within handle (some room) && decide (handle ≠ u)) := by
    rw [Bool.eq_iff_iff, Bool.and_eq_true, decide_eq_true_iff]
    unfold within
    rw [Option.any_some, Option.any_some, List.contains_iff_mem, List.contains_iff_mem, mem_without]
  split_ifs with hempty
  · rw [← hmem]
    unfold within
    rw [Option.any_some, hempty]
    rfl
  · exact hmem

/-- A handler announces the stay that it begins or ends. -/
theorem stay_alone {handle : GoText} {i : ℕ} (a : Option HistoryRoom)
    (haloud : ∀ r, requests i = .join r → r.userHandle = handle → r.suppressAnnouncement = false)
    (hi : ((requests i).alone roomID a).2 = answer i) :
    (within handle a).toNat + (announcesJoin requests answer handle i).toNat =
      (within handle ((requests i).alone roomID a).1).toNat +
        (announcesLeave requests answer handle i).toNat := by
  unfold announcesJoin announcesLeave
  rw [← hi]
  cases hreq : requests i with
  | join r =>
    by_cases hcomplete : r.Complete roomID
    · rw [alone_join hcomplete]
      dsimp only
      rw [within_joined, Option.any_some]
      by_cases hhandle : r.userHandle = handle
      · -- A stay begins when the user was not there, and then the join is announced.
        have hrejoin : (a.getD .empty).users.contains r.userHandle = within handle a := by
          rw [hhandle]
          cases a <;> rfl
        have hannounce := announcement_ne_nil hcomplete (within handle a)
        rw [hrejoin]
        cases hwithin : within handle a with
        | false =>
          rw [hwithin] at hannounce
          simp [hhandle, hannounce.mpr ⟨rfl, haloud r hreq hhandle⟩]
        | true =>
          rw [hwithin] at hannounce
          have hnil : r.announcement true = [] := by
            by_contra hne
            exact Bool.noConfusion (hannounce.mp hne).1
          simp [hhandle, hnil]
      · simp [hhandle, Ne.symm hhandle]
    · rw [alone_incomplete hcomplete]
      simp
  | leave l =>
    cases a with
    | none =>
      rw [alone_leave_none]
      simp
    | some room =>
      -- A stay ends when the user was there, and then the leave is announced.
      by_cases hmem : l.userHandle ∈ room.users
      · rw [alone_leave hmem]
        dsimp only
        rw [within_without]
        by_cases hhandle : l.userHandle = handle
        · have hwithin : within handle (some room) = true := by
            unfold within
            rw [Option.any_some, ← hhandle]
            exact List.contains_iff_mem.mpr hmem
          simp [hhandle, hwithin]
        · simp [hhandle, Ne.symm hhandle]
      · rw [alone_leave_absent hmem]
        simp

/-- Handlers that run one after the other announce every stay of a user, when none of his joins is
told not to. -/
theorem Serves.staysAnnounced {handle : GoText}
    (haloud : Aloud requests handle) :
    ∀ {order : List ℕ} {a b : Option HistoryRoom}, Serves requests roomID answer a order b →
      StaysAnnounced requests answer a b order handle
  | [], a, b, h => by
    cases h
    rfl
  | i :: is, a, b, ⟨hi, h⟩ => by
    have hrest := Serves.staysAnnounced haloud h
    have hone := stay_alone a (haloud i) hi
    have hcount : ∀ b : Bool, (if b = true then 1 else 0) = b.toNat := by decide
    unfold StaysAnnounced at hrest ⊢
    rw [List.countP_cons, List.countP_cons, hcount, hcount]
    omega

end Serves

end Bsg.Rtc
