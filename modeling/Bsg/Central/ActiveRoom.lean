import Bsg.Central.RoomEvents

/-!
# The pointer to a user's active room

Submissions are routed by one key per user, which names the room that he is active in, while a user
may be a member of several rooms. `PointsRight` says what the key should tell: a room of the user,
if he is in any. A room stands here for the text by which the requests name it, since Redis keeps
its members under that text. The requests write and delete the key without a look at the other
rooms, even when they are refused. `allPointRight_iff` names what an event must avoid: to delete the
key of a user who is in another room (`Detached`), to leave a key that names a room the user is not
in any more, and to fail to write the key of a user who has none (`KeepsPointer`). A request to
leave concerns one user, unless it names the room by another text than its id and its sender is the
last one there: then the room is deleted, and its members under the id are taken out too
(`TakesOut`).
-/

namespace Bsg.Central

open Bsg.Foundations

/-- `getActiveRoomForUser` returns a room of the user exactly when he is a member of any. -/
def PointsRight (w : World) (userID : AuthID) : Prop :=
  ∀ env : Env, env.fails .getActiveRoom = false →
    ∃ roomID, (getActiveRoomForUser env userID).run w = (.ok roomID, w) ∧
      (roomID ≠ "" ↔ ∃ r, w.isMember r userID) ∧ (roomID ≠ "" → w.isMember roomID userID)

/-- Every user's key tells a room of his. -/
def AllPointRight (w : World) : Prop := ∀ userID, PointsRight w userID

/-- No user's key holds the empty text. -/
def PointersNamed (w : World) : Prop := ∀ userID, w.redis.activeRoom userID ≠ some ""

/-- Without the rooms that he is taken out of, the user's key is right: it was deleted and he is in
no other room, or it stays and names none of them. -/
def Detached (w : World) (userID : AuthID) (out : RoomID → Prop) (deleted : Prop) : Prop :=
  (deleted → ∀ r, w.isMember r userID → out r) ∧
    (¬ deleted → ∀ r, w.redis.activeRoom userID = some r → ¬ out r)

/-- A request to leave takes its sender out of the room that it names, and everybody out of a room
that it deletes. -/
def TakesOut (env : Env) (roomID : RoomID) (userID : AuthID) (room : Room) (w : World)
    (u : AuthID) (r : RoomID) : Prop :=
  r = roomID ∧ u = userID ∨ EmptiesById env roomID userID room w ∧ r = room.id

/-- It deletes the key of its sender, and the keys of the members of a room that it deletes. -/
def DeletesKey (env : Env) (roomID : RoomID) (userID : AuthID) (room : Room) (w : World)
    (u : AuthID) : Prop :=
  u = userID ∧ env.fails .delActiveRoom = false ∨
    EmptiesById env roomID userID room w ∧ forgotten env (w.membersToForget env room.id) u = true

/-- What an event must heed for the keys to stay right. -/
def KeepsPointer (w : World) (e : Env × RoomEvent) : Prop :=
  match e.2 with
  | .joinRoom roomID userID =>
    (∃ room, Findable e.1 roomID w.db room) ∧ e.1.fails .zaddJoin = false →
      e.1.fails .setActiveRoom = true → w.redis.activeRoom userID ≠ none
  | .leaveRoom roomID userID => ∀ room, Findable e.1 roomID w.db room →
      e.1.fails .zremJoin = false → ∀ u, Detached w u (TakesOut e.1 roomID userID room w u)
        (DeletesKey e.1 roomID userID room w u)
  | .expireRoom roomID => ∀ room, Findable e.1 roomID w.db room →
      e.1.fails .delJoin = false → ∀ u, Detached w u (fun r => r = room.id)
        (forgotten e.1 (w.membersToForget e.1 room.id) u = true)
  | _ => True

section Pointer

variable {w w' : World} {roomID : RoomID} {userID : AuthID}

/-- In terms of the key itself. -/
theorem pointsRight_iff (h : w.redis.activeRoom userID ≠ some "") :
    PointsRight w userID ↔
      (w.redis.activeRoom userID = none → ∀ r, ¬ w.isMember r userID) ∧
        ∀ r, w.redis.activeRoom userID = some r → w.isMember r userID := by
  -- A key that is missing is reported as the empty room.
  have hrun : ∀ env : Env, env.fails .getActiveRoom = false →
      (getActiveRoomForUser env userID).run w = (.ok ((w.redis.activeRoom userID).getD ""), w) := by
    intro env hget
    unfold getActiveRoomForUser
    rw [hget]
    rfl
  unfold PointsRight
  cases hactive : w.redis.activeRoom userID with
  | none =>
    rw [hactive] at hrun
    constructor
    · intro hright
      obtain ⟨r, hr, hsome, -⟩ := hright (Env.faultless 0) rfl
      rw [hrun _ rfl] at hr
      cases hr
      exact ⟨fun _ r hmem => hsome.mpr ⟨r, hmem⟩ rfl, by simp⟩
    · rintro ⟨hnone, -⟩ env hget
      exact ⟨"", hrun env hget, iff_of_false (by simp) fun ⟨r, hr⟩ => hnone rfl r hr, by simp⟩
  | some r =>
    rw [hactive] at hrun h
    have hne : r ≠ "" := fun heq => h (congrArg some heq)
    constructor
    · intro hright
      obtain ⟨r', hr', -, hmem⟩ := hright (Env.faultless 0) rfl
      rw [hrun _ rfl] at hr'
      cases hr'
      exact ⟨by simp, fun r' hr' => Option.some.inj hr' ▸ hmem hne⟩
    · rintro ⟨-, hmem⟩ env hget
      exact ⟨r, hrun env hget, iff_of_true hne ⟨r, hmem r rfl⟩, fun _ => hmem r rfl⟩

/-- The user is taken out of these rooms, and his key is deleted or stays. -/
structure TakenOut (userID : AuthID) (out : RoomID → Prop) (deleted : Prop) (w w' : World) :
    Prop where
  members : ∀ r, w'.isMember r userID ↔ w.isMember r userID ∧ ¬ out r
  gone : deleted → w'.redis.activeRoom userID = none
  kept : ¬ deleted → w'.redis.activeRoom userID = w.redis.activeRoom userID

/-- Who is taken out twice is taken out of both. -/
theorem TakenOut.trans {out out' : RoomID → Prop} {deleted deleted' : Prop} {w₁ : World}
    (h : TakenOut userID out deleted w w₁) (h' : TakenOut userID out' deleted' w₁ w') :
    TakenOut userID (fun r => out r ∨ out' r) (deleted ∨ deleted') w w' := by
  refine ⟨fun r => ?_, fun hdeleted => ?_, fun hkept => ?_⟩
  · rw [h'.members, h.members, not_or, and_assoc]
  · by_cases hlater : deleted'
    · exact h'.gone hlater
    · rw [h'.kept hlater, h.gone (hdeleted.resolve_right hlater)]
  · rw [h'.kept fun hlater => hkept (Or.inr hlater), h.kept fun hfirst => hkept (Or.inl hfirst)]

/-- Taking a user out of rooms leaves his key right exactly when the key is detached from them. -/
theorem TakenOut.pointsRight {out : RoomID → Prop} {deleted : Prop}
    (h : TakenOut userID out deleted w w') (hnamed : w.redis.activeRoom userID ≠ some "")
    (hright : PointsRight w userID) : PointsRight w' userID ↔ Detached w userID out deleted := by
  rw [pointsRight_iff hnamed] at hright
  unfold Detached
  by_cases hdeleted : deleted
  -- A deleted key is right when no other room has the user.
  · have hactive := h.gone hdeleted
    rw [pointsRight_iff (by rw [hactive]; simp), hactive]
    constructor
    · refine fun hout => ⟨fun _ r hmem => ?_, fun hkept => absurd hdeleted hkept⟩
      by_contra hin
      exact hout.1 rfl r ((h.members r).mpr ⟨hmem, hin⟩)
    · refine fun hdetached => ⟨fun _ r hmem => ?_, by simp⟩
      obtain ⟨hold, hin⟩ := (h.members r).mp hmem
      exact hin (hdetached.1 hdeleted r hold)
  -- A key that stays is right when it names another room.
  · have hactive := h.kept hdeleted
    rw [pointsRight_iff (by rw [hactive]; exact hnamed), hactive]
    constructor
    · exact fun hout => ⟨fun hgone => absurd hgone hdeleted,
        fun _ r hsome => ((h.members r).mp (hout.2 r hsome)).2⟩
    · intro hdetached
      refine ⟨fun hnone r hmem => hright.1 hnone r ((h.members r).mp hmem).1, fun r hsome => ?_⟩
      exact (h.members r).mpr ⟨hright.2 r hsome, hdetached.2 hdeleted r hsome⟩

/-- The key of who is taken out holds no new text. -/
theorem TakenOut.activeRoom_ne {out : RoomID → Prop} {deleted : Prop} {r : RoomID}
    (h : TakenOut userID out deleted w w') (hne : w.redis.activeRoom userID ≠ some r) :
    w'.redis.activeRoom userID ≠ some r := by
  by_cases hdeleted : deleted
  · rw [h.gone hdeleted]
    simp
  · rwa [h.kept hdeleted]

/-- The key of a user is as right as it was when it is the same and he is in the same rooms. -/
theorem pointsRight_congr (hnamed : w.redis.activeRoom userID ≠ some "")
    (hmembers : ∀ r, w'.isMember r userID ↔ w.isMember r userID)
    (hactive : w'.redis.activeRoom userID = w.redis.activeRoom userID) :
    PointsRight w' userID ↔ PointsRight w userID := by
  rw [pointsRight_iff hnamed, pointsRight_iff (by rwa [hactive]), hactive]
  simp only [hmembers]

/-- After a leave the others are still members, and the user is in his other rooms. -/
theorem isMember_left (env : Env) (roomID : RoomID) (userID : AuthID) (w : World) (r : RoomID)
    (u : AuthID) :
    (w.left env roomID userID).isMember r u ↔ w.isMember r u ∧ ¬ (r = roomID ∧ u = userID) := by
  unfold World.isMember
  show (Function.update w.redis.joinTimestamp roomID _ r).contains u = true ↔ _
  by_cases hr : r = roomID
  · rw [hr, Function.update_self, SortedSet.contains_remove, Bool.and_eq_true, decide_eq_true_eq,
      and_iff_right rfl, and_comm]
  · rw [Function.update_of_ne hr]
    simp [hr]

/-- Who leaves is taken out of the room, and nobody else is. -/
theorem takenOut_left (env : Env) (roomID : RoomID) (userID u : AuthID) (w : World) :
    TakenOut u (fun r => r = roomID ∧ u = userID) (u = userID ∧ env.fails .delActiveRoom = false)
      w (w.left env roomID userID) := by
  refine ⟨fun r => isMember_left env roomID userID w r u, ?_, fun hkept => ?_⟩
  · rintro ⟨rfl, hdel⟩
    unfold World.left
    rw [hdel]
    exact Function.update_self _ _ _
  · unfold World.left
    cases hdel : env.fails .delActiveRoom with
    | true => rfl
    | false => exact Function.update_of_ne (fun hu => hkept ⟨hu, hdel⟩) _ _

/-- Everybody is taken out of a room that is emptied. -/
theorem takenOut_emptied (env : Env) (roomID : RoomID) (u : AuthID) (w : World) :
    TakenOut u (fun r => r = roomID) (forgotten env (w.membersToForget env roomID) u = true)
      w (w.emptied env roomID) := by
  refine ⟨fun r => ?_, fun hgone => if_pos hgone, fun hkept => if_neg hkept⟩
  unfold World.isMember
  show (Function.update w.redis.joinTimestamp roomID .empty r).contains u = true ↔ _
  by_cases hr : r = roomID
  · rw [hr, Function.update_self]
    simp
  · rw [Function.update_of_ne hr, and_iff_left hr]

/-- The state may change in what does not concern the members. -/
theorem TakenOut.congr {out : RoomID → Prop} {deleted : Prop} {w₁ : World}
    (h : TakenOut userID out deleted w w₁) (hsame : SameMembers w₁ w') :
    TakenOut userID out deleted w w' := by
  refine ⟨fun r => (isMember_congr hsame r userID).trans (h.members r), ?_, ?_⟩
  · rw [hsame.activeRoom]
    exact h.gone
  · rw [hsame.activeRoom]
    exact h.kept

/-- What a request to leave does to the members and their keys. -/
theorem takenOut_leaveRoom (env : Env) (roomID : RoomID) (userID u : AuthID) (w : World) :
    (((leaveRoom env roomID userID).run w).2 = w ∧
      ∀ room, Findable env roomID w.db room → env.fails .zremJoin = true) ∨
    ∃ room, Findable env roomID w.db room ∧ env.fails .zremJoin = false ∧
      TakenOut u (TakesOut env roomID userID room w u) (DeletesKey env roomID userID room w u) w
        ((leaveRoom env roomID userID).run w).2 := by
  rcases leaveRoom_members env roomID userID w with hstay | ⟨room, hroom, hzrem,
    ⟨hone, hsame⟩ | ⟨hall, hsame⟩⟩
  · exact Or.inl hstay
  · refine Or.inr ⟨room, hroom, hzrem, ?_⟩
    unfold TakesOut DeletesKey
    simp only [hone, false_and, or_false]
    exact (takenOut_left env roomID userID u w).congr hsame
  · refine Or.inr ⟨room, hroom, hzrem, ?_⟩
    -- The members under the id of the room are as they were before the user left.
    have hforget : (w.left env roomID userID).membersToForget env room.id =
        w.membersToForget env room.id := by
      unfold World.membersToForget World.members World.left
      dsimp only
      rw [Function.update_of_ne hall.other]
    have hemptied := takenOut_emptied env room.id u (w.left env roomID userID)
    rw [hforget] at hemptied
    unfold TakesOut DeletesKey
    simp only [hall, true_and]
    exact ((takenOut_left env roomID userID u w).trans hemptied).congr hsame

/-- A new member's key names the room, unless it could not be written, and then it is right exactly
when the user had one before. -/
theorem pointsRight_joined {env : Env} (hid : roomID ≠ "")
    (h : SameMembers (w.joined env roomID userID) w')
    (hnamed : w.redis.activeRoom userID ≠ some "") (hright : PointsRight w userID) :
    PointsRight w' userID ↔
      (env.fails .setActiveRoom = true → w.redis.activeRoom userID ≠ none) := by
  have hmem : w'.isMember roomID userID := by
    rw [isMember_congr h, isMember_joined]
    exact Or.inr ⟨rfl, rfl⟩
  have hactive := h.activeRoom
  unfold World.joined at hactive
  rw [pointsRight_iff hnamed] at hright
  cases hset : env.fails .setActiveRoom with
  -- The key is written.
  | false =>
    have hnow : w'.redis.activeRoom userID = some roomID := by
      rw [hactive, hset]
      exact Function.update_self _ _ _
    refine iff_of_true ?_ fun hbad => absurd hbad Bool.false_ne_true
    rw [pointsRight_iff (by rw [hnow]; exact fun heq => hid (Option.some.inj heq)), hnow]
    exact ⟨by simp, fun r hr => Option.some.inj hr ▸ hmem⟩
  -- The key is what it was.
  | true =>
    have hnow : w'.redis.activeRoom userID = w.redis.activeRoom userID := by
      rw [hactive, hset]
      rfl
    rw [pointsRight_iff (by rwa [hnow]), hnow]
    constructor
    · exact fun hafter _ hnone => hafter.1 hnone roomID hmem
    · refine fun hsome => ⟨fun hnone => absurd hnone (hsome rfl), fun r hr => ?_⟩
      rw [isMember_congr h, isMember_joined]
      exact Or.inl (hright.2 r hr)

/-- What concerns one user leaves all keys right exactly when it leaves his key right. -/
theorem allPointRight_iff_of_one (hnamed : PointersNamed w) (hright : AllPointRight w)
    (hothers : ∀ u, u ≠ userID → (∀ r, w'.isMember r u ↔ w.isMember r u) ∧
      w'.redis.activeRoom u = w.redis.activeRoom u) :
    AllPointRight w' ↔ PointsRight w' userID := by
  refine ⟨fun hall => hall userID, fun huser u => ?_⟩
  by_cases hu : u = userID
  · rwa [hu]
  · obtain ⟨hmembers, hactive⟩ := hothers u hu
    exact (pointsRight_congr (hnamed u) hmembers hactive).mpr (hright u)

end Pointer

/-- An event keeps all keys right exactly when it heeds what it must. -/
theorem allPointRight_serve (w : World) (e : Env × RoomEvent) (hnamed : PointersNamed w)
    (hkind : e.2.isMembership = true) (hright : AllPointRight w) :
    AllPointRight (w.serve e) ↔ KeepsPointer w e := by
  obtain ⟨env, event⟩ := e
  cases event with
  | joinRoom roomID userID =>
    show AllPointRight ((joinRoom env roomID userID).run w).2 ↔ _
    rcases joinRoom_members env roomID userID w with ⟨hsame, hnot⟩ | ⟨hfind, hzadd, hsame⟩
    · -- Nothing was changed, so there is nothing to heed.
      rw [hsame]
      refine iff_of_true hright ?_
      rintro ⟨⟨room, hroom⟩, hzadd⟩
      rw [hnot room hroom] at hzadd
      cases hzadd
    · obtain ⟨room, hroom⟩ := hfind
      have huser := pointsRight_joined (env.uuid.ne_empty hroom.parsed) hsame (hnamed userID)
        (hright userID)
      have hone := allPointRight_iff_of_one hnamed hright fun u (hu : u ≠ userID) => by
        refine ⟨fun r => ?_, ?_⟩
        · rw [isMember_congr hsame, isMember_joined]
          simp [hu]
        · rw [hsame.activeRoom]
          unfold World.joined
          cases env.fails .setActiveRoom with
          | true => rfl
          | false => exact Function.update_of_ne hu _ _
      exact (hone.trans huser).trans ⟨fun h _ => h, fun h => h ⟨⟨room, hroom⟩, hzadd⟩⟩
  -- A request to leave may delete a room, so all users are concerned, as by an expiry.
  | leaveRoom roomID userID =>
    show AllPointRight ((leaveRoom env roomID userID).run w).2 ↔ _
    have hone := fun u => (takenOut_leaveRoom env roomID userID u w)
    constructor
    · intro hall room hroom hzrem u
      rcases hone u with ⟨-, hnot⟩ | ⟨room', hroom', -, hout⟩
      · exact absurd (hzrem.symm.trans (hnot room hroom)) Bool.false_ne_true
      · rw [← hroom.unique hroom' rfl]
        exact (hout.pointsRight (hnamed u) (hright u)).mp (hall u)
    · intro hkeep u
      rcases hone u with ⟨hsame, -⟩ | ⟨room, hroom, hzrem, hout⟩
      · rw [hsame]
        exact hright u
      · exact (hout.pointsRight (hnamed u) (hright u)).mpr (hkeep room hroom hzrem u)
  | expireRoom roomID =>
    show AllPointRight ((expireRoom env roomID).run w).2 ↔ _
    rcases expireRoom_members env roomID w with ⟨hsame, hnot⟩ | ⟨room, hroom, hdel, hsame⟩
    · rw [hsame]
      refine iff_of_true hright fun room hroom hdel => ?_
      exact absurd (hdel.symm.trans (hnot room hroom)) Bool.false_ne_true
    · have hout := fun u => ((takenOut_emptied env room.id u w).congr hsame).pointsRight (hnamed u)
        (hright u)
      refine ⟨fun hall room' hroom' _ u => ?_, fun hkeep u => (hout u).mpr (hkeep room hroom hdel u)⟩
      rw [hroom.unique hroom' rfl]
      exact (hout u).mp (hall u)
  | _ => cases hkind

/-- An event leaves no key that holds the empty text. -/
theorem pointersNamed_serve (w : World) (e : Env × RoomEvent) (hnamed : PointersNamed w)
    (hkind : e.2.isMembership = true) : PointersNamed (w.serve e) := by
  obtain ⟨env, event⟩ := e
  intro u
  cases event with
  | joinRoom roomID userID =>
    show ((joinRoom env roomID userID).run w).2.redis.activeRoom u ≠ some ""
    rcases joinRoom_members env roomID userID w with ⟨hsame, -⟩ | ⟨⟨room, hroom⟩, -, hsame⟩
    · rw [hsame]
      exact hnamed u
    · rw [hsame.activeRoom]
      unfold World.joined
      cases env.fails .setActiveRoom with
      | true => exact hnamed u
      | false =>
        show Function.update w.redis.activeRoom userID (some roomID) u ≠ some ""
        by_cases hu : u = userID
        · -- The only text that is written was parsed before.
          rw [hu, Function.update_self]
          exact fun heq => env.uuid.ne_empty hroom.parsed (Option.some.inj heq)
        · rw [Function.update_of_ne hu]
          exact hnamed u
  | leaveRoom roomID userID =>
    show ((leaveRoom env roomID userID).run w).2.redis.activeRoom u ≠ some ""
    -- A leave only takes pointers away.
    rcases takenOut_leaveRoom env roomID userID u w with ⟨hsame, -⟩ | ⟨room, -, -, hout⟩
    · rw [hsame]
      exact hnamed u
    · exact hout.activeRoom_ne (hnamed u)
  | expireRoom roomID =>
    show ((expireRoom env roomID).run w).2.redis.activeRoom u ≠ some ""
    rcases expireRoom_members env roomID w with ⟨hsame, -⟩ | ⟨room, -, -, hsame⟩
    · rw [hsame]
      exact hnamed u
    · exact ((takenOut_emptied env room.id u w).congr hsame).activeRoom_ne (hnamed u)
  -- The other events are no requests about membership.
  | _ => cases hkind

/-- Along every run of requests to join, to leave and to delete rooms, each user's key tells a room
of his, exactly when every event heeds what it must. -/
theorem allPointRight_iff (w : World) (es : List (Env × RoomEvent)) (hnamed : PointersNamed w)
    (hright : AllPointRight w) (hkind : ∀ e ∈ es, e.2.isMembership = true) :
    Throughout World.serve AllPointRight w es ↔ Along World.serve KeepsPointer w es :=
  throughout_iff_along (fun w e hnamed hkind => pointersNamed_serve w e hnamed hkind)
    (fun w e hnamed hkind hright => allPointRight_serve w e hnamed hkind hright) hnamed hright
    (Along.of_mem hkind)

/-- Nobody has a pointer yet. -/
theorem pointersNamed_twoRooms : PointersNamed .twoRooms := fun _ => by
  show (none : Option RoomID) ≠ some ""
  simp

/-- Nobody is a member yet. -/
theorem allPointRight_twoRooms : AllPointRight .twoRooms := by
  intro userID
  rw [pointsRight_iff (pointersNamed_twoRooms userID)]
  refine ⟨fun _ r hmem => ?_, fun r hr => ?_⟩
  · have hempty : (World.twoRooms.redis.joinTimestamp r).contains userID = false :=
      SortedSet.contains_empty userID
    rw [World.isMember, hempty] at hmem
    cases hmem
  · have hnone : World.twoRooms.redis.activeRoom userID = none := rfl
    rw [hnone] at hr
    cases hr

/-- The admin joins one room, leaves it, and joins the other. -/
def leaveFirst : List (Env × RoomEvent) :=
  [(Env.faultless 1, .joinRoom roomOne host), (Env.faultless 2, .leaveRoom roomOne host),
    (Env.faultless 3, .joinRoom roomTwo host)]

/-- A user leaves one room before he joins another. -/
theorem allPointRight_leaveFirst : Throughout World.serve AllPointRight .twoRooms leaveFirst := by
  refine (allPointRight_iff .twoRooms leaveFirst pointersNamed_twoRooms allPointRight_twoRooms
    (by decide)).mpr ⟨fun _ hfails => absurd hfails Bool.false_ne_true,
      fun room hroom _ u => ⟨?_, ?_⟩, fun _ hfails => absurd hfails Bool.false_ne_true, trivial⟩
  · -- He is the only member of any room.
    intro _ r hmember
    have hold : ¬ World.twoRooms.isMember r u := by
      show ¬ (SortedSet.empty : SortedSet AuthID ℤ).contains u = true
      rw [SortedSet.contains_empty]
      exact Bool.false_ne_true
    have hjoined : (World.twoRooms.joined (Env.faultless 1) roomOne host).isMember r u := hmember
    rw [isMember_joined] at hjoined
    exact Or.inl (hjoined.resolve_left hold)
  · -- Only his key names a room, and it is deleted.
    intro hkept r hactive _
    have hne : u ≠ host := fun hu => hkept (Or.inl ⟨hu, rfl⟩)
    have hnone : (Function.update World.twoRooms.redis.activeRoom host (some roomOne)) u = some r :=
      hactive
    rw [Function.update_of_ne hne] at hnone
    cases hnone

/-- The admin joins one room, then the other, and leaves the first. -/
def moveOn : List (Env × RoomEvent) :=
  [(Env.faultless 1, .joinRoom roomOne host), (Env.faultless 2, .joinRoom roomTwo host),
    (Env.faultless 3, .leaveRoom roomOne host)]

/-- After that he is in a room that his key does not tell. -/
theorem not_allPointRight :
    (PointersNamed .twoRooms ∧ AllPointRight .twoRooms ∧
      ∀ e ∈ moveOn, e.2.isMembership = true) ∧
      ¬ Throughout World.serve AllPointRight .twoRooms moveOn := by
  refine ⟨⟨pointersNamed_twoRooms, allPointRight_twoRooms, by decide⟩, fun h => ?_⟩
  let last := run World.serve World.twoRooms moveOn
  have hactive : last.redis.activeRoom host = none := by decide +kernel
  have hmember : last.isMember roomTwo host := by decide +kernel
  have hright : PointsRight last host := h.last host
  rw [pointsRight_iff (by rw [hactive]; simp)] at hright
  exact hright.1 hactive roomTwo hmember

end Bsg.Central
