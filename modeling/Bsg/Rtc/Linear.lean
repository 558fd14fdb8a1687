import Bsg.Rtc.Standing

/-!
# Joins and leaves at the same time

What the handlers of `join-room` and `leave-room` do together they do one after the other in some
order, as long as what each has found still holds when it acts (`serializable_of_stillSo`). A
handler takes its place in the order when it adds or removes its user, or fails. A join may find the
room that a leave has emptied and not yet removed. It keeps the room alive, and so its place is
before that leave (`Inv.addUser`).
-/

namespace Bsg.Rtc

open Bsg.Foundations

namespace Presence

/-! ## The calls -/

section Turn

variable {requests : ℕ → RoomRequest} {roomID : String} {start : Option HistoryRoom}
  {c c' : Presence} {i : ℕ} {k : HandlerPoint} {next : Progress HandlerPoint GoText GoText}

/-- What a join announces depends on whether its user is there, or on nothing. -/
theorem announcement_congr {r : JoinRoom} {rejoin rejoin' : Bool}
    (h : r.suppressAnnouncement = true ∨ rejoin = rejoin') :
    r.announcement rejoin = r.announcement rejoin' := by
  rcases h with h | rfl
  · unfold JoinRoom.announcement
    rw [if_pos h]
    split_ifs <;> rfl
  · rfl

/-- The user of a join is added to the object and to the room. -/
theorem Agrees.addUser {r : JoinRoom} {p : ℕ} {rejoin : Bool}
    (t : Turn c c' i (.join r (.addUser p rejoin)) next) {room : HistoryRoom}
    (h : c.Agrees p room) (hshared : c'.shared = c.shared.addUser p r.userHandle)
    (hfilter : r.setting.getD (c.shared.object p).profanityFilter =
      (c.shared.object p).profanityFilter) : c'.Agrees p (room.joined r) := by
  have hobject : c'.shared.object p =
      (c.shared.object p).onRoom fun x => x.addUser r.userHandle := by
    rw [hshared]
    exact Function.update_self _ _ _
  -- Adding a user does not touch the filter, and the join has set the one that it asks for.
  have hkept : (c'.shared.object p).profanityFilter = (c.shared.object p).profanityFilter := by
    rw [hobject]
    exact profanityFilter_addUser _ _
  have hjoined : (room.joined r).profanityFilter = r.setting.getD room.profanityFilter :=
    profanityFilter_addUser _ _
  constructor
  · rw [hkept, hobject, h.object]
    unfold HistoryRoom.joined HistoryRoom.onRoom Room.addUser
    dsimp only
    by_cases hin : r.userHandle ∈ room.users
    · rw [if_pos hin, if_pos hin]
    · rw [if_neg hin, if_neg hin]
  · rw [hkept, hjoined]
    cases hsetting : r.setting with
    | some enabled =>
      rw [hsetting] at hfilter
      exact Or.inl hfilter.symm
    | none =>
      refine h.filter.imp_right fun hat => t.at_of hat ?_
      rintro ⟨-, hsome⟩
      rw [hsetting] at hsome
      cases hsome

/-- A join whose user is not in the object any more than in the room announces what it would
announce alone. -/
theorem alone_addUser {r : JoinRoom} {p : ℕ} {rejoin : Bool} (hreq : requests i = .join r)
    (hcomplete : r.Complete roomID) (hadmits : c.shared.Admits r p rejoin) {b : Option HistoryRoom}
    (hagrees : c.Agrees p (b.getD .empty)) : (requests i).alone roomID b =
      (some ((b.getD .empty).joined r), some (r.announcement rejoin)) := by
  have husers : (b.getD .empty).users.contains r.userHandle = c.shared.hasUser p r.userHandle := by
    unfold Memory.hasUser
    rw [hagrees.users]
  rw [hreq, alone_join hcomplete, husers, announcement_congr hadmits.same]

/-- A join that comes into an emptied room keeps it alive, and comes before the leave that had
emptied it. -/
theorem Emptied.serves_join {r : JoinRoom} {p j : ℕ} {rejoin : Bool} {room : HistoryRoom}
    {l : LeaveRoom} {rest : List ℕ}
    (t : Turn c c' i (.join r (.addUser p rejoin)) (.returned (.ok (r.announcement rejoin))))
    (hI : Inv requests roomID start c) (hadmits : c.shared.Admits r p rejoin)
    (h : Emptied requests c p room l j rest) (hj : j ≠ i) :
    Serves requests roomID c'.answer (some room) (i :: j :: rest)
      (some ((room.without l.userHandle).joined r)) := by
  obtain ⟨hreq, hcomplete⟩ := hI.fits i _ t.old
  obtain ⟨kj, hrun, hleaves⟩ := h.leaves
  obtain ⟨hleave, hanswer⟩ := hI.leaves hrun hleaves
  -- Nobody is in the room, and this user is not the one who left it.
  have hempty : (c.shared.object p).users = [] := by rw [h.agrees.users, h.last]
  have hne : r.userHandle ≠ l.userHandle := fun heq => hadmits.another hempty (heq ▸ h.left)
  have hrejoin : r.announcement rejoin = r.announcement false := by
    refine announcement_congr (hadmits.same.imp_right fun hsame => hsame.trans ?_)
    unfold Memory.hasUser
    rw [hempty]
    rfl
  refine serves_join_leave hreq.symm hleave hcomplete hne h.mem h.last ?_ ?_ fun n hn => ?_
  · unfold Presence.answer
    rw [t.new, ← hrejoin]
    rfl
  · rw [← hanswer]
    unfold Presence.answer
    rw [t.others j hj]
  · obtain ⟨⟨err, herr⟩, hsame⟩ := h.idle n hn
    refine ⟨?_, hsame⟩
    unfold Presence.answer
    rw [t.returned herr]
    rfl

/-- A join adds its user to a room in which everything is as it found it. -/
theorem Inv.addUser {r : JoinRoom} {p : ℕ} {rejoin : Bool}
    (t : Turn c c' i (.join r (.addUser p rejoin)) (.returned (.ok (r.announcement rejoin))))
    (hI : Inv requests roomID start c) (hshared : c'.shared = c.shared.addUser p r.userHandle)
    (hadmits : c.shared.Admits r p rejoin) : Inv requests roomID start c' := by
  obtain ⟨head, before, after, h, b, s, hp⟩ := hI.placing
  obtain ⟨hreq, hcomplete⟩ := hI.fits i _ t.old
  have hreg : c'.shared.registered = c.shared.registered := by rw [hshared]; rfl
  have hfits := hI.fits_turn t (by rintro k' ⟨⟩)
  have hstale := hp.stale_turn t hreg (by rintro k' ⟨⟩)
  have hnobody := hI.nobody_turn hadmits.registered hreg fun q hq => by
    rw [hshared]
    exact Function.update_of_ne hq _ _
  cases hst : hp.standing with
  | gone hgone =>
    have hregistered := hadmits.registered
    rw [hgone] at hregistered
    cases hregistered
  -- In a room with users, or a new one, the join comes after all others.
  | live q room hq husers hagrees =>
    obtain rfl : p = q := by simpa [hq] using hadmits.registered
    exact ⟨hfits, hnobody, head, before ++ [i], [], h, _, _,
      hp.append t id trivial (alone_addUser hreq.symm hcomplete hadmits (b := some room) hagrees)
        (.live p _ (hreg.trans hq) (users_joined room r)
          (hagrees.addUser t hshared hadmits.filter)) hstale⟩
  | new q hq hagrees hjoins =>
    obtain rfl : p = q := by simpa [hq] using hadmits.registered
    exact ⟨hfits, hnobody, head, before ++ [i], [], h, _, _,
      hp.append t id trivial (alone_addUser hreq.symm hcomplete hadmits (b := none) hagrees)
        (.live p _ (hreg.trans hq) (users_joined _ r)
          (hagrees.addUser t hshared hadmits.filter)) hstale⟩
  -- In a room that a leave has emptied it comes before that leave.
  | left q room l j rest hemptied =>
    obtain rfl : p = q := by simpa [hemptied.registered] using hadmits.registered
    have hi := hp.notMem t id
    have hj : j ≠ i := fun heq => hi.2 (heq ▸ List.mem_cons_self)
    refine ⟨hfits, hnobody, head, before ++ i :: j :: rest, [], h, _, _,
      hp.listed.insert t id trivial ?_, t.serves hi.1.1 hp.first,
      serves_append.mpr ⟨_, t.serves hi.1.2 hp.second, hemptied.serves_join t hI hadmits hj⟩,
      .live p _ (hreg.trans hemptied.registered) (users_joined _ r)
        (hemptied.agrees.addUser t hshared hadmits.filter), hstale⟩
    have hlist : head ++ (before ++ i :: j :: rest) ++ [] =
        (head ++ before) ++ i :: (j :: rest) := by simp
    rw [hlist]
    exact List.perm_middle

/-- The user of a leave is removed from the object and from the room. -/
theorem Agrees.removeUser {l : LeaveRoom} {p : ℕ} (t : Turn c c' i (.leave l (.removeUser p)) next)
    {room : HistoryRoom} (h : c.Agrees p room)
    (hshared : c'.shared = c.shared.removeUser p l.userHandle) :
    c'.Agrees p (room.without l.userHandle) := by
  have hobject : c'.shared.object p =
      (c.shared.object p).onRoom fun x => x.removeUser l.userHandle := by
    rw [hshared]
    exact Function.update_self _ _ _
  have hkept : (c'.shared.object p).profanityFilter = (c.shared.object p).profanityFilter := by
    rw [hobject]
    rfl
  constructor
  · rw [hkept, hobject, h.object]
    rfl
  · rw [hkept]
    exact h.filter.imp_right fun hat => t.at_of hat fun hs => hs.elim

/-- A leave removes its user from a room that he is in. -/
theorem Inv.removeUser {l : LeaveRoom} {p : ℕ}
    (t : Turn c c' i (.leave l (.removeUser p)) (.running (.leave l (.isEmpty p))))
    (hI : Inv requests roomID start c) (hshared : c'.shared = c.shared.removeUser p l.userHandle)
    (hin : l.userHandle ∈ (c.shared.object p).users) : Inv requests roomID start c' := by
  obtain ⟨head, before, after, h, b, s, hp⟩ := hI.placing
  have hreq : requests i = .leave l := (hI.fits i _ t.old).1.symm
  -- He is in the room, so it is registered, and by what holds of it there is nothing else it can
  -- be.
  have hregistered : p ∈ c.shared.registered := by
    by_contra hnot
    rw [hI.nobody p hnot] at hin
    cases hin
  have hreg : c'.shared.registered = c.shared.registered := by rw [hshared]; rfl
  have hfits := hI.fits_turn t (by rintro k' ⟨⟩; exact ⟨rfl, trivial⟩)
  have hstale := hp.stale_turn t hreg (by rintro k' ⟨⟩ p; exact id)
  have hnobody := hI.nobody_turn hregistered hreg fun q hq => by
    rw [hshared]
    exact Function.update_of_ne hq _ _
  cases hst : hp.standing with
  | gone hgone =>
    rw [hgone] at hregistered
    cases hregistered
  | live q room hq husers hagrees =>
    obtain rfl : p = q := by simpa [hq] using hregistered
    rw [hagrees.users] at hin
    have halone : (requests i).alone roomID (some room) =
        (if (room.without l.userHandle).users = [] then none else some (room.without l.userHandle),
          some l.announcement) := by
      rw [hreq]
      exact alone_leave hin
    by_cases hlast : (room.without l.userHandle).users = []
    · -- He was the last user, and the room is still there.
      have hi := hp.notMem t id
      have hemptied : Emptied requests c' p room l i [] :=
        ⟨hreg.trans hq, ⟨_, t.new, rfl, rfl⟩, hin, hlast, hagrees.removeUser t hshared,
          by rw [hshared]; exact Function.update_self _ _ _, by simp⟩
      refine ⟨hfits, hnobody, head, before, [i], h, some room, none,
        hp.listed.insert t id trivial ?_, t.serves hi.1.1 hp.first, t.serves hi.1.2 hp.second,
        .left p room l i [] hemptied, hstale⟩
      exact List.perm_middle
    · rw [if_neg hlast] at halone
      -- Others stay, and the leave takes its place in the order at once.
      exact ⟨hfits, hnobody, head, before ++ [i], [], h, _, _, hp.append t id trivial halone
        (.live p _ (hreg.trans hq) hlast (hagrees.removeUser t hshared)) hstale⟩
  | new q hq hagrees hjoins =>
    obtain rfl : p = q := by simpa [hq] using hregistered
    rw [hagrees.users] at hin
    cases hin
  | left q room l' j rest hemptied =>
    obtain rfl : p = q := by simpa [hemptied.registered] using hregistered
    rw [hemptied.agrees.users, hemptied.last] at hin
    cases hin

/-- A room that is registered and that nobody is in is the only one, and to be removed. -/
theorem Standing.of_empty {b s : Option HistoryRoom} {after : List ℕ}
    (h : Standing requests c b after s) {p : ℕ} (hin : p ∈ c.shared.registered)
    (hempty : (c.shared.object p).users = []) : s = none ∧ c.shared.registered = [p] := by
  cases h with
  | gone hgone =>
    rw [hgone] at hin
    cases hin
  | live q room hq hsome hagrees =>
    obtain rfl : p = q := by simpa [hq] using hin
    exact absurd (hagrees.users.symm.trans hempty) hsome
  | new q hq =>
    obtain rfl : p = q := by simpa [hq] using hin
    exact ⟨rfl, hq⟩
  | left q room l' j rest hemptied =>
    obtain rfl : p = q := by simpa [hemptied.registered] using hin
    exact ⟨rfl, hemptied.registered⟩

/-- Without a room that is registered, the handlers in their order have come to none. -/
theorem Standing.of_none {b s : Option HistoryRoom} {after : List ℕ}
    (h : Standing requests c b after s) (hreg : c.shared.registered = []) :
    b = none ∧ after = [] := by
  cases h with
  | gone => exact ⟨rfl, rfl⟩
  | live q room hq => exact absurd (hq.symm.trans hreg) (List.cons_ne_nil _ _)
  | new q hq => exact absurd (hq.symm.trans hreg) (List.cons_ne_nil _ _)
  | left q room l' j rest hemptied =>
    exact absurd (hemptied.registered.symm.trans hreg) (List.cons_ne_nil _ _)

/-- A leave removes a room that is empty. -/
theorem Inv.removeRoom {l : LeaveRoom} {p : ℕ}
    (t : Turn c c' i (.leave l (.removeRoom p)) (.returned (.ok l.announcement)))
    (hI : Inv requests roomID start c) (hshared : c'.shared = c.shared.removeRoom p) :
    Inv requests roomID start c' := by
  by_cases heffect : c.shared.isEmpty p = true ∧ p ∈ c.shared.registered
  · obtain ⟨hempty, hregistered⟩ := heffect
    obtain ⟨head, before, after, h, b, s, hp⟩ := hI.placing
    have hremoved : c'.shared =
        { c.shared with registered := c.shared.registered.filter (· ≠ p) } :=
      hshared.trans (if_pos hempty)
    have husers : (c.shared.object p).users = [] := by simpa [Memory.isEmpty] using hempty
    obtain ⟨rfl, hreg⟩ := hp.standing.of_empty hregistered husers
    have hgone : c'.shared.registered = [] := by
      rw [hremoved]
      dsimp only
      rw [hreg]
      simp
    -- The room is gone, so the order of all requests so far is settled.
    have hall : Serves requests roomID c'.answer start (head ++ before ++ after) none := by
      rw [t.answer rfl]
      exact serves_append.mpr ⟨b, serves_append.mpr ⟨h, hp.first, hp.second⟩,
        hp.standing.serves hI⟩
    refine ⟨hI.fits_turn t (by rintro k' ⟨⟩), fun q _ => ?_, head ++ before ++ after, [], [], none,
      none, none, ?_, hall, rfl, .gone hgone, fun _ _ => Or.inr rfl⟩
    · rw [hremoved]
      dsimp only
      by_cases hq : q = p
      · rw [hq, husers]
      · exact hI.nobody q (by rw [hreg, List.mem_singleton]; exact hq)
    · rw [List.append_nil, List.append_nil]
      exact hp.listed.keep t Iff.rfl
  · -- The room is not empty, or it is gone already.
    have hsame : c'.shared = c.shared := by
      rw [hshared]
      unfold Memory.removeRoom
      split_ifs with hempty
      · have hnot : p ∉ c.shared.registered := fun hin => heffect ⟨hempty, hin⟩
        have hfilter : c.shared.registered.filter (· ≠ p) = c.shared.registered :=
          List.filter_eq_self.mpr fun q hq => decide_eq_true fun heq => hnot (heq ▸ hq)
        rw [hfilter]
      · rfl
    refine hI.turn t (by rintro k' ⟨⟩) rfl Iff.rfl (by rw [hsame]) (by rw [hsame])
      (fun _ => by rw [hsame]) (fun q room ha => ha.turn t (by rw [hsame]) fun _ hs => hs.elim)
      (fun _ hj => hj.elim) fun l' q hq husers hl => ?_
    obtain ⟨-, rfl⟩ := hl
    refine absurd ⟨?_, ?_⟩ heffect
    · simpa [Memory.isEmpty] using husers
    · rw [hq]
      exact List.mem_singleton_self _

/-- A leave whose user is not in the room that it found. Where it takes its place depends on what
has become of the room. -/
theorem Inv.leave_absent {r : LeaveRoom} {room : ℕ} {err : GoText}
    (t : Turn c c' i (.leave r (.getUser room)) (.returned (.err err)))
    (hI : Inv requests roomID start c) (hshared : c'.shared = c.shared)
    (habsent : r.userHandle ∉ (c.shared.object room).users) : Inv requests roomID start c' := by
  obtain ⟨head, before, after, h, b, s, hp⟩ := hI.placing
  have hreq : requests i = .leave r := (hI.fits i _ t.old).1.symm
  have htrace := traceless_getUser r room
  have hfits := hI.fits_turn t (by rintro k' ⟨⟩)
  have hnobody : ∀ q ∉ c'.shared.registered, (c'.shared.object q).users = [] := by
    rw [hshared]
    exact hI.nobody
  -- The room that it found is registered, or there is a place without a room.
  rcases hp.stale room ⟨i, _, t.old, rfl⟩ with hregistered | rfl
  · cases hst : hp.standing with
    | gone hreg =>
      rw [hreg] at hregistered
      cases hregistered
    | live p room' hreg husers hagrees =>
      obtain rfl : room = p := by simpa [hreg] using hregistered
      rw [hagrees.users] at habsent
      exact hI.fail t id hshared htrace hp (by rw [hreq]; exact alone_leave_absent habsent)
    | new p hreg hagrees hjoins =>
      exact hI.fail t id hshared htrace hp (by rw [hreq]; exact alone_leave_none)
    | left p room' l j rest hemptied =>
      -- The user who has emptied the room is gone after that; any other was not there before.
      by_cases hhandle : r.userHandle = l.userHandle
      · exact ⟨hfits, hnobody, head, before, j :: (rest ++ [i]), h, some room', none,
          hp.fail_last t id hshared htrace hemptied hreq hhandle⟩
      · have hothers := notMem_of_last hemptied.last hhandle
        exact hI.fail t id hshared htrace hp (by rw [hreq]; exact alone_leave_absent hothers)
  · exact ⟨hfits, hnobody, head ++ [i], before, after, none, b, s,
      hp.fail_first t id hshared htrace (by rw [hreq]; exact alone_leave_none)⟩

/-- A join creates a room when there is none. -/
theorem Inv.createRoom {r : JoinRoom} {p : ℕ}
    (t : Turn c c' i (.join r .createRoom) (.running (.join r (.setFilter p))))
    (hI : Inv requests roomID start c) (hfresh : p = c.shared.fresh)
    (hshared : c'.shared = c.shared.newRoom.createRoom p) (hreg : c.shared.registered = []) :
    Inv requests roomID start c' := by
  subst hfresh
  obtain ⟨head, before, after, h, b, s, hp⟩ := hI.placing
  have hnot : c.shared.fresh ∉ c.shared.newRoom.registered := by
    show c.shared.fresh ∉ c.shared.registered
    rw [hreg]
    exact List.not_mem_nil
  have hcreated : c'.shared =
      { c.shared.newRoom with registered := c.shared.fresh :: c.shared.newRoom.registered } :=
    hshared.trans (if_neg hnot)
  have hobject : c'.shared.object c.shared.fresh = .empty := by
    rw [hcreated]
    exact Function.update_self _ _ _
  have hreg' : c'.shared.registered = [c.shared.fresh] := by
    rw [hcreated]
    exact congrArg (List.cons _) hreg
  have hcomplete : r.Complete roomID := (hI.fits i _ t.old).2
  have hfits : ∀ j kj, c'.progress j = .running kj →
      kj.request = requests j ∧ kj.Complete roomID := by
    refine hI.fits_turn t ?_
    rintro k' ⟨⟩
    exact ⟨rfl, hcomplete⟩
  have hanswers := t.answer rfl
  refine ⟨hfits, fun q hq => ?_, ?_⟩
  · have hne : q ≠ c.shared.fresh := fun heq =>
      hq (by rw [hreg', heq]; exact List.mem_singleton_self _)
    have hother : c'.shared.object q = c.shared.object q := by
      rw [hcreated]
      exact Function.update_of_ne hne _ _
    rw [hother]
    exact hI.nobody q (by rw [hreg]; exact List.not_mem_nil)
  · obtain ⟨rfl, rfl⟩ := hp.standing.of_none hreg
    have hagrees : c'.Agrees c.shared.fresh .empty :=
      ⟨by rw [hobject]; rfl, Or.inl (by rw [hobject])⟩
    refine ⟨head, before, [], h, none, none, hp.listed.keep t Iff.rfl,
      by rw [hanswers]; exact hp.first, by rw [hanswers]; exact hp.second,
      .new _ hreg' hagrees ⟨i, _, t.new, rfl⟩, fun q hat => ?_⟩
    -- A leave that looks for its user has found a room that is gone.
    rcases t.of_at hat with hat | ⟨k', hk', hlooks⟩
    · refine Or.inr ((hp.stale q hat).resolve_left ?_)
      rw [hreg]
      exact List.not_mem_nil
    · cases hk'
      exact hlooks.elim

/-- A join sets the filter of the room that it found. -/
theorem Inv.setFilter {r : JoinRoom} {p : ℕ} {enabled : Bool}
    (t : Turn c c' i (.join r (.setFilter p)) (.running (.join r (.getUser p))))
    (hI : Inv requests roomID start c) (hsetting : r.setting = some enabled)
    (hshared : c'.shared = c.shared.setProfanityFilter p enabled) :
    Inv requests roomID start c' := by
  have hself : c'.shared.object p =
      (c.shared.object p).onRoom fun x => { x with profanityFilter := enabled } := by
    rw [hshared]
    exact Function.update_self _ _ _
  have hother : ∀ q, q ≠ p → c'.shared.object q = c.shared.object q := fun q hq => by
    rw [hshared]
    exact Function.update_of_ne hq _ _
  refine hI.turn t ?_ rfl Iff.rfl (by rw [hshared]; rfl) (by rw [hshared]; rfl) (fun q => ?_)
    (fun q room ha => ?_) (fun q hj => ⟨_, rfl, hj⟩) fun _ _ _ _ hl => hl.elim
  · rintro k' ⟨⟩
    exact ⟨rfl, (hI.fits i _ t.old).2, fun _ hlooks => hlooks.elim⟩
  · -- The handler has now set the filter, which the room in the order gets when it adds its user.
    by_cases hq : q = p
    · rw [hq, hself]
      rfl
    · rw [hother q hq]
  · by_cases hq : q = p
    · subst hq
      refine ⟨?_, Or.inr ⟨i, _, t.new, rfl, ?_⟩⟩
      · rw [hself, ha.object]
        rfl
      · rw [hsetting, hself]
        rfl
    · exact ha.turn t (hother q hq) fun _ hs => hs.elim

end Turn

/-! ## A step -/

section Step

variable {roomID : String} {a : Arrangement ℕ} {m : Memory}

/-- When no room is found none is registered. -/
theorem registered_of_getRoom_none (h : m.getRoom a = none) : m.registered = [] := by
  have horder : a.order m.registered = [] := List.head?_eq_none_iff.mp h
  have hperm := a.perm m.registered
  rw [horder] at hperm
  exact List.nil_perm.mp hperm

/-- A room that is found is registered. -/
theorem mem_of_getRoom {p : ℕ} (h : m.getRoom a = some p) : p ∈ m.registered :=
  a.mem_order.mp (List.mem_of_mem_head? h)

/-- A join that is not complete fails before it asks for a room. -/
theorem run_join_incomplete {r : JoinRoom} (h : ¬ r.Complete roomID) :
    ∃ err, (handlerPiece roomID a (.join r .getRoom)).run m = (.err err, m) := by
  dsimp only [handlerPiece, joinPiece]
  cases hvalid : validate "JoinRoomRequest" (r.required roomID) with
  | none => exact absurd ((validate_join r roomID).mp hvalid) h
  | some err => exact ⟨err, rfl⟩

/-- A join that finds no room will create one. -/
theorem run_join_none {r : JoinRoom} (h : r.Complete roomID) (hroom : m.getRoom a = none) :
    (handlerPiece roomID a (.join r .getRoom)).run m = (.ok (.inl (.join r .createRoom)), m) := by
  dsimp only [handlerPiece, joinPiece]
  rw [(validate_join r roomID).mpr h]
  dsimp only
  rw [Call.run_read_bind, hroom]
  rfl

/-- A join that finds a room goes on with it. -/
theorem run_join_some {r : JoinRoom} {p : ℕ} (h : r.Complete roomID)
    (hroom : m.getRoom a = some p) :
    (handlerPiece roomID a (.join r .getRoom)).run m =
      (.ok (.inl (.join r (.setFilter p))), m) := by
  dsimp only [handlerPiece, joinPiece]
  rw [(validate_join r roomID).mpr h]
  dsimp only
  rw [Call.run_read_bind, hroom]
  rfl

/-- A leave asks for the room. -/
theorem run_leave_getRoom (l : LeaveRoom) :
    (handlerPiece roomID a (.leave l .getRoom)).run m =
      (match m.getRoom a with
        | none => .err (utf8 "room doesn't exist")
        | some p => .ok (.inl (.leave l (.getUser p))), m) := by
  dsimp only [handlerPiece, leavePiece]
  rw [Call.run_read_bind]
  cases m.getRoom a <;> rfl

/-- A leave looks for its user. -/
theorem run_leave_getUser (l : LeaveRoom) (p : ℕ) :
    (handlerPiece roomID a (.leave l (.getUser p))).run m =
      (if m.hasUser p l.userHandle = true then .ok (.inl (.leave l (.removeUser p)))
        else .err (utf8 "user doesn't exist"), m) := by
  dsimp only [handlerPiece, leavePiece]
  rw [Call.run_read_bind]
  cases m.hasUser p l.userHandle <;> rfl

/-- A leave asks whether the room is empty. -/
theorem run_leave_isEmpty (l : LeaveRoom) (p : ℕ) :
    (handlerPiece roomID a (.leave l (.isEmpty p))).run m =
      (if m.isEmpty p = true then .ok (.inl (.leave l (.removeRoom p)))
        else .ok (.inr l.announcement), m) := by
  dsimp only [handlerPiece, leavePiece]
  rw [Call.run_read_bind]
  cases m.isEmpty p <;> rfl

end Step

section Inv

variable {requests : ℕ → RoomRequest} {roomID : String} {start : Option HistoryRoom} {c : Presence}
  {e : Arrangement ℕ × ℕ}

/-- A turn that only reads. -/
theorem Inv.read {c' : Presence} {i : ℕ} {k k' : HandlerPoint} (t : Turn c c' i k (.running k'))
    (hI : Inv requests roomID start c) (hshared : c'.shared = c.shared)
    (hreq : k'.request = k.request) (hcomplete : k'.Complete roomID)
    (hlooks : ∀ p, k'.Looks p → p ∈ c.shared.registered)
    (hanswer : answered (.running k') = answered (.running k))
    (hplaced : Placed (.running k') ↔ Placed (.running k))
    (hsets : ∀ p b, k.Sets p b → k'.Sets p b) (hjoins : ∀ p, k.Joins p → k'.Joins p)
    (hleaves : ∀ l p, k.Leaves l p → k'.Leaves l p) : Inv requests roomID start c' := by
  refine hI.turn t ?_ hanswer hplaced (by rw [hshared]) (by rw [hshared]) (fun _ => by rw [hshared])
    (fun p room ha => ha.turn t (by rw [hshared]) fun b hs => ⟨k', rfl, hsets p b hs⟩)
    (fun p hj => ⟨k', rfl, hjoins p hj⟩) fun l p _ _ hl => ⟨k', rfl, hleaves l p hl⟩
  rintro k'' ⟨⟩
  exact ⟨hreq, hcomplete, hlooks⟩

/-- The calls of a join keep what every step keeps. -/
theorem inv_join {r : JoinRoom} {call : JoinPoint} (hI : Inv requests roomID start c)
    (hrun : c.progress e.2 = .running (.join r call)) (hok : c.shared.StillSo (.join r call)) :
    Inv requests roomID start (step roomID c e) := by
  cases call with
  | getRoom =>
    -- The first call refuses an incomplete request, and then looks for the room.
    by_cases hcomplete : r.Complete roomID
    · cases hroom : c.shared.getRoom e.1 with
      | none =>
        obtain ⟨t, hshared⟩ := turn_step roomID hrun (run_join_none hcomplete hroom)
        exact hI.read t hshared rfl hcomplete (fun _ => False.elim) rfl Iff.rfl
          (fun _ _ => False.elim) (fun _ => False.elim) fun _ _ => False.elim
      | some p =>
        obtain ⟨t, hshared⟩ := turn_step roomID hrun (run_join_some hcomplete hroom)
        exact hI.read t hshared rfl hcomplete (fun _ => False.elim) rfl Iff.rfl
          (fun _ _ => False.elim) (fun _ => False.elim) fun _ _ => False.elim
    · obtain ⟨err, herr⟩ := run_join_incomplete (a := e.1) (m := c.shared) hcomplete
      obtain ⟨t, hshared⟩ := turn_step roomID hrun herr
      obtain ⟨head, before, after, h, b, s, hp⟩ := hI.placing
      refine hI.fail t id hshared (traceless_getRoom (.join r)) hp ?_
      rw [← (hI.fits e.2 _ hrun).1]
      exact alone_incomplete hcomplete b
  | createRoom =>
    obtain ⟨t, hshared⟩ := turn_step roomID hrun rfl
    exact hI.createRoom t rfl hshared hok
  | setFilter p =>
    -- The filter is set when the request says so.
    cases hsetting : r.setting with
    | none =>
      have hpiece : (handlerPiece roomID e.1 (.join r (.setFilter p))).run c.shared =
          (.ok (.inl (.join r (.getUser p))), c.shared) := by
        dsimp only [handlerPiece, joinPiece]
        rw [hsetting]
        rfl
      obtain ⟨t, hshared⟩ := turn_step roomID hrun hpiece
      exact hI.read t hshared rfl (hI.fits e.2 _ hrun).2 (fun _ => False.elim) rfl Iff.rfl
        (fun _ _ => False.elim) (fun _ => id) fun _ _ => False.elim
    | some enabled =>
      have hpiece : (handlerPiece roomID e.1 (.join r (.setFilter p))).run c.shared =
          (.ok (.inl (.join r (.getUser p))), c.shared.setProfanityFilter p enabled) := by
        dsimp only [handlerPiece, joinPiece]
        rw [hsetting]
        rfl
      obtain ⟨t, hshared⟩ := turn_step roomID hrun hpiece
      exact hI.setFilter t hsetting hshared
  | getUser p =>
    obtain ⟨t, hshared⟩ := turn_step roomID hrun rfl
    exact hI.read t hshared rfl (hI.fits e.2 _ hrun).2 (fun _ => False.elim) rfl Iff.rfl
      (fun _ _ => id) (fun _ => id) fun _ _ => False.elim
  | addUser p rejoin =>
    obtain ⟨t, hshared⟩ := turn_step roomID hrun rfl
    exact hI.addUser t hshared hok

/-- The calls of a leave keep what every step keeps. -/
theorem inv_leave {l : LeaveRoom} {call : LeavePoint} (hI : Inv requests roomID start c)
    (hrun : c.progress e.2 = .running (.leave l call)) (hok : c.shared.StillSo (.leave l call)) :
    Inv requests roomID start (step roomID c e) := by
  cases call with
  | getRoom =>
    obtain ⟨t, hshared⟩ := turn_step roomID hrun (run_leave_getRoom l)
    -- Without the room the leave fails, as it would on its own.
    cases hroom : c.shared.getRoom e.1 with
    | none =>
      rw [hroom] at t
      obtain ⟨head, before, after, h, b, s, hp⟩ := hI.placing
      obtain ⟨rfl, -⟩ := hp.standing.of_none (registered_of_getRoom_none hroom)
      refine hI.fail t id hshared (traceless_getRoom (.leave l)) hp ?_
      rw [← (hI.fits e.2 _ hrun).1]
      exact alone_leave_none
    | some p =>
      rw [hroom] at t
      refine hI.read t hshared rfl trivial ?_ rfl Iff.rfl (fun _ _ => False.elim)
        (fun _ => False.elim) fun _ _ => False.elim
      rintro q rfl
      exact mem_of_getRoom hroom
  | getUser p =>
    obtain ⟨t, hshared⟩ := turn_step roomID hrun (run_leave_getUser l p)
    by_cases huser : c.shared.hasUser p l.userHandle = true
    · rw [if_pos huser] at t
      exact hI.read t hshared rfl trivial (fun _ => False.elim) rfl Iff.rfl
        (fun _ _ => False.elim) (fun _ => False.elim) fun _ _ => False.elim
    · rw [if_neg huser] at t
      exact hI.leave_absent t hshared fun hin => huser (List.contains_iff_mem.mpr hin)
  | removeUser p =>
    obtain ⟨t, hshared⟩ := turn_step roomID hrun rfl
    exact hI.removeUser t hshared (List.contains_iff_mem.mp hok)
  | isEmpty p =>
    obtain ⟨t, hshared⟩ := turn_step roomID hrun (run_leave_isEmpty l p)
    by_cases hempty : c.shared.isEmpty p = true
    · rw [if_pos hempty] at t
      exact hI.read t hshared rfl trivial (fun _ => False.elim) rfl Iff.rfl
        (fun _ _ => False.elim) (fun _ => False.elim) fun _ _ => id
    · -- Somebody has joined: the leave returns, and is not the one that empties the room.
      rw [if_neg hempty] at t
      refine hI.turn t (by rintro k' ⟨⟩) rfl Iff.rfl (by rw [hshared]) (by rw [hshared])
        (fun _ => by rw [hshared])
        (fun q room ha => ha.turn t (by rw [hshared]) fun _ hs => hs.elim) (fun _ hj => hj.elim)
        fun l' q _ husers hl => ?_
      obtain ⟨-, rfl⟩ := hl
      exact absurd (decide_eq_true husers) hempty
  | removeRoom p =>
    obtain ⟨t, hshared⟩ := turn_step roomID hrun rfl
    exact hI.removeRoom t hshared

/-- Every step of a handler that acts on what still holds keeps the invariant. -/
theorem inv_step (e : Arrangement ℕ × ℕ) (hI : Inv requests roomID start c) (hok : c.StillSo e) :
    Inv requests roomID start (step roomID c e) := by
  cases hrun : c.progress e.2 with
  | returned o =>
    have hsame : step roomID c e = c := Concurrent.step_returned hrun
    rw [hsame]
    exact hI
  | running k =>
    have hstill : c.shared.StillSo k := hok k (by rw [hrun]; rfl)
    cases k with
    | join r call => exact inv_join hI hrun hstill
    | leave l call => exact inv_leave hI hrun hstill

end Inv

/-! ## A run -/

section Run

variable {requests : ℕ → RoomRequest} {roomID : String} {c : Presence}

/-- At first the room is the object with number 0. -/
theorem object_start (room : HistoryRoom) : (Memory.start (some room)).object 0 = room := by
  unfold Memory.start
  simp

/-- Before anything has happened, nobody is in a room that is not registered. -/
theorem object_start_of_ne (room : HistoryRoom) {p : ℕ} (h : p ≠ 0) :
    (Memory.start (some room)).object p = .empty := by
  unfold Memory.start
  simp [h]

/-- The invariant holds at first. -/
theorem inv_start (requests : ℕ → RoomRequest) (roomID : String) (room : Option OccupiedRoom) :
    Inv requests roomID (room.map fun r => r.toHistoryRoom) (Presence.start requests room) := by
  have hpoint : ∀ i k, (Presence.start requests room).progress i = .running k →
      k = (requests i).point := fun i k hk => by cases hk; rfl
  -- Nobody has a place, and nobody looks for a user.
  have hlisted : (Presence.start requests room).Listed [] := by
    refine ⟨List.nodup_nil, fun i => ⟨fun h => absurd h List.not_mem_nil, fun h => ?_⟩⟩
    unfold Presence.start at h
    dsimp only at h
    cases hreq : requests i with
    | join r =>
      rw [hreq] at h
      exact h.elim
    | leave l =>
      rw [hreq] at h
      exact h.elim
  have hstale : ∀ p, ¬ (Presence.start requests room).At (HandlerPoint.Looks p) := by
    rintro p ⟨i, k, hk, hlooks⟩
    rw [hpoint i k hk] at hlooks
    cases hreq : requests i with
    | join r =>
      rw [hreq] at hlooks
      exact hlooks
    | leave l =>
      rw [hreq] at hlooks
      exact hlooks
  refine ⟨fun i k hk => ?_, fun p hp => ?_, [], [], [], _, _,
    room.map fun r => r.toHistoryRoom, hlisted, rfl, rfl, ?_, fun p hat => absurd hat (hstale p)⟩
  · rw [hpoint i k hk]
    cases requests i with
    | join r => exact ⟨rfl, trivial⟩
    | leave l => exact ⟨rfl, trivial⟩
  · cases room with
    | none => rfl
    | some room =>
      have hne : p ≠ 0 := fun heq => hp (heq ▸ List.mem_singleton_self 0)
      exact congrArg (fun r => r.users) (object_start_of_ne room.toHistoryRoom hne)
  · cases room with
    | none => exact .gone rfl
    | some room =>
      have hobject : (Presence.start requests (some room)).shared.object 0 = room.toHistoryRoom :=
        object_start room.toHistoryRoom
      exact .live 0 room.toHistoryRoom rfl room.occupied
        ⟨by rw [hobject]; rfl, Or.inl (by rw [hobject])⟩

/-- Nobody is under way when no handler is. -/
theorem Settled.not_at (h : c.Settled requests) {P : HandlerPoint → Prop}
    (hjoin : ∀ r, ¬ P (.join r .getRoom)) (hleave : ∀ l, ¬ P (.leave l .getRoom)) : ¬ c.At P := by
  rintro ⟨i, k, hrun, hP⟩
  rw [h i k hrun] at hP
  cases hreq : requests i with
  | join r =>
    rw [hreq] at hP
    exact hjoin r hP
  | leave l =>
    rw [hreq] at hP
    exact hleave l hP

/-- When no handler is under way, those that have returned have their place. -/
theorem Settled.placed (h : c.Settled requests) (i : ℕ) :
    Placed (c.progress i) ↔ ∃ o, c.progress i = .returned o := by
  constructor
  · intro hplaced
    cases hprogress : c.progress i with
    | returned o => exact ⟨o, rfl⟩
    | running k =>
      rw [hprogress, h i k hprogress] at hplaced
      cases hreq : requests i with
      | join r =>
        rw [hreq] at hplaced
        exact hplaced.elim
      | leave l =>
        rw [hreq] at hplaced
        exact hplaced.elim
  · rintro ⟨o, ho⟩
    rw [ho]
    trivial

/-- When no handler is under way, the room is the one to which the handlers in their order come. -/
theorem Standing.settled (hsettled : c.Settled requests) {b s : Option HistoryRoom}
    {after : List ℕ} (h : Standing requests c b after s) :
    after = [] ∧ s = b ∧ c.shared.current = s := by
  unfold Memory.current
  cases h with
  | gone hreg =>
    rw [hreg]
    exact ⟨rfl, rfl, rfl⟩
  | live p room hreg husers hagrees =>
    have hfilter := hagrees.filter.resolve_right
      (hsettled.not_at (fun _ => id) fun _ => id)
    have hobject := hagrees.object
    rw [hfilter] at hobject
    rw [hreg]
    exact ⟨rfl, rfl, congrArg some hobject⟩
  | new p hreg hagrees hjoins =>
    exact absurd hjoins (hsettled.not_at (fun _ => id) fun _ => id)
  | left p room l i rest hemptied =>
    exact absurd ⟨i, hemptied.leaves⟩ (hsettled.not_at (fun _ => id) fun _ => id)

/-- There is at most one room. -/
theorem Standing.single {b s : Option HistoryRoom} {after : List ℕ}
    (h : Standing requests c b after s) : c.shared.registered.length ≤ 1 := by
  cases h with
  | gone hreg => simp [hreg]
  | live p room hreg => simp [hreg]
  | new p hreg => simp [hreg]
  | left p room l i rest hemptied => simp [hemptied.registered]

/-- Under the invariant the requests were served one after the other. -/
theorem serializable_of_inv {room : Option OccupiedRoom}
    (hI : Inv requests roomID (room.map fun r => r.toHistoryRoom) c) :
    Serializable requests roomID room c := by
  obtain ⟨head, before, after, h, b, s, hp⟩ := hI.placing
  refine ⟨hp.standing.single, hI.nobody, fun hsettled => ?_⟩
  obtain ⟨rfl, rfl, hcurrent⟩ := hp.standing.settled hsettled
  have hserves : Serves requests roomID c.answer (room.map fun r => r.toHistoryRoom)
      (head ++ before) c.shared.current := by
    rw [hcurrent]
    exact serves_append.mpr ⟨h, hp.first, hp.second⟩
  have hlisted := hp.listed
  rw [List.append_nil] at hlisted
  exact ⟨head ++ before, hlisted.nodup, fun i => (hlisted.mem i).trans (hsettled.placed i), hserves,
    fun handle haloud => hserves.staysAnnounced haloud⟩

/-- As long as what each handler has found still holds when it acts, joins and leaves do together
what they do one after the other. -/
theorem serializable_of_stillSo (requests : ℕ → RoomRequest) (roomID : String)
    (room : Option OccupiedRoom) (es : List (Arrangement ℕ × ℕ))
    (h : Along (step roomID) StillSo (Presence.start requests room) es) :
    Throughout (step roomID) (Serializable requests roomID room) (Presence.start requests room)
      es :=
  (invariant_along (fun _ e hI hok => inv_step e hI hok) (inv_start requests roomID room) h).mono
    fun _ hI => serializable_of_inv hI

end Run

/-- The turns of some handlers, each of which searches the rooms in the order in which they came. -/
def turns (is : List ℕ) : List (Arrangement ℕ × ℕ) := is.map fun i => (.inserted ℕ, i)

/-- The requests of a run in which one user joins and leaves, and another one joins. -/
def passing : ℕ → RoomRequest
  | 0 => .join ⟨centralServiceName, utf8 "ada", utf8 "Ada", false, some true⟩
  | 1 => .leave ⟨utf8 "ada", utf8 "Ada"⟩
  | _ => .join ⟨utf8 "bob", utf8 "bob", utf8 "Bob", false, none⟩

/-- The second user joins when the first one has left and the room is still there. -/
theorem serializable_passing : Throughout (step "r1") (Serializable passing "r1" none)
    (Presence.start passing none) (turns [0, 0, 0, 0, 0, 1, 1, 1, 2, 2, 2, 2, 1]) :=
  serializable_of_stillSo passing "r1" none _ (by decide +kernel)

/-- The first two users join at the same time, find no room, and each creates one. -/
theorem not_serializable : ¬ Throughout (step "r1") (Serializable
    (fun i => .join ⟨utf8 "user", [UInt8.ofNat i], [], false, none⟩) "r1" none)
      (Presence.start (fun i => .join ⟨utf8 "user", [UInt8.ofNat i], [], false, none⟩) none)
        (turns [0, 1, 0, 1, 0, 1, 0, 1, 0, 1]) :=
  fun h => absurd h.last.single (by decide +kernel)

end Presence

end Bsg.Rtc
