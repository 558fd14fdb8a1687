import Bsg.Rtc.Filter
import Bsg.Rtc.Serial

/-!
# Handlers in their order

When several handlers are under way, those that have added or removed their user, or failed, have
their place in an order (`Placed`), and the rooms are what these make of them one after the other
(`Placing`). Three things may be different while others are on their way (`Standing`). A room has
been created, and nobody is in it. A leave has removed the last user, and not yet the room. And a
join has set the filter of the room, but not yet added its user (`Agrees`).
-/

namespace Bsg.Rtc

open Bsg.Foundations

/-! ## Where the handlers are -/

/-- The request of a handler. -/
def HandlerPoint.request : HandlerPoint → RoomRequest
  | .join r _ => .join r
  | .leave r _ => .leave r

/-- The handler has checked its request. -/
def HandlerPoint.Complete (roomID : String) : HandlerPoint → Prop
  | .join _ .getRoom => True
  | .join r _ => r.Complete roomID
  | .leave _ _ => True

/-- The handler has set the filter of the room, but not yet added its user. -/
def HandlerPoint.Sets (room : ℕ) (filter : Bool) : HandlerPoint → Prop
  | .join r (.getUser p) | .join r (.addUser p _) => p = room ∧ r.setting = some filter
  | _ => False

/-- The handler will add its user to the room. -/
def HandlerPoint.Joins (room : ℕ) : HandlerPoint → Prop
  | .join _ (.setFilter p) | .join _ (.getUser p) | .join _ (.addUser p _) => p = room
  | _ => False

/-- The handler looks for its user in the room. -/
def HandlerPoint.Looks (room : ℕ) : HandlerPoint → Prop
  | .leave _ (.getUser p) => p = room
  | _ => False

/-- The handler has removed its user from the room. -/
def HandlerPoint.Leaves (r : LeaveRoom) (room : ℕ) : HandlerPoint → Prop
  | .leave l (.isEmpty p) | .leave l (.removeRoom p) => l = r ∧ p = room
  | _ => False

/-- The handler has done nothing yet that others can see, and is not about to. -/
structure HandlerPoint.Traceless (k : HandlerPoint) : Prop where
  sets : ∀ p b, ¬ k.Sets p b
  joins : ∀ p, ¬ k.Joins p
  leaves : ∀ l p, ¬ k.Leaves l p

/-- Before it looks for the room, a handler has left no trace. -/
theorem traceless_getRoom (r : RoomRequest) : r.point.Traceless := by
  cases r with
  | join r => exact ⟨fun _ _ => id, fun _ => id, fun _ _ => id⟩
  | leave l => exact ⟨fun _ _ => id, fun _ => id, fun _ _ => id⟩

/-- Nor before it looks for the user. -/
theorem traceless_getUser (l : LeaveRoom) (p : ℕ) :
    (HandlerPoint.leave l (.getUser p)).Traceless := ⟨fun _ _ => id, fun _ => id, fun _ _ => id⟩

/-- The handler has its place in the order. -/
def Placed : Progress HandlerPoint GoText GoText → Prop
  | .returned _ | .running (.leave _ (.isEmpty _)) | .running (.leave _ (.removeRoom _)) => True
  | _ => False

namespace Presence

/-- Some handler is at such a point. -/
def At (c : Presence) (P : HandlerPoint → Prop) : Prop := ∃ i k, c.progress i = .running k ∧ P k

/-- The room is what the object has, but for a filter that a join has set before its time. -/
structure Agrees (c : Presence) (p : ℕ) (room : HistoryRoom) : Prop where
  object : c.shared.object p = room.onRoom fun r =>
    { r with profanityFilter := (c.shared.object p).profanityFilter }
  filter : (c.shared.object p).profanityFilter = room.profanityFilter ∨
    c.At fun k => k.Sets p (c.shared.object p).profanityFilter

/-- A leave of the user has failed. -/
def Idle (requests : ℕ → RoomRequest) (c : Presence) (handle : GoText) (i : ℕ) : Prop :=
  (∃ err, c.progress i = .returned (.err err)) ∧
    ∃ r, requests i = .leave r ∧ r.userHandle = handle

/-- A leave has removed the last user, and not yet the room. The room is what it was before; after
the leave come some of the same user that failed. -/
structure Emptied (requests : ℕ → RoomRequest) (c : Presence) (p : ℕ) (room : HistoryRoom)
    (l : LeaveRoom) (i : ℕ) (rest : List ℕ) : Prop where
  registered : c.shared.registered = [p]
  leaves : ∃ k, c.progress i = .running k ∧ k.Leaves l p
  mem : l.userHandle ∈ room.users
  last : (room.without l.userHandle).users = []
  agrees : c.Agrees p (room.without l.userHandle)
  left : c.shared.lastLeft p = some l.userHandle
  idle : ∀ j ∈ rest, Idle requests c l.userHandle j

/-- What the rooms are, when the handlers one after the other have come to the room `b`, and after
some more of them to the room `s`. -/
inductive Standing (requests : ℕ → RoomRequest) (c : Presence) :
    Option HistoryRoom → List ℕ → Option HistoryRoom → Prop where
  /-- There is no room. -/
  | gone (hreg : c.shared.registered = []) : Standing requests c none [] none
  /-- There is a room with users. -/
  | live (p : ℕ) (room : HistoryRoom) (hreg : c.shared.registered = [p]) (husers : room.users ≠ [])
      (hagrees : c.Agrees p room) : Standing requests c (some room) [] (some room)
  /-- A join has created the room, and no user has been added. -/
  | new (p : ℕ) (hreg : c.shared.registered = [p]) (hagrees : c.Agrees p .empty)
      (hjoins : c.At (HandlerPoint.Joins p)) : Standing requests c none [] none
  /-- A leave has emptied the room. -/
  | left (p : ℕ) (room : HistoryRoom) (l : LeaveRoom) (i : ℕ) (rest : List ℕ)
      (h : Emptied requests c p room l i rest) : Standing requests c (some room) (i :: rest) none

/-- The handlers in the list are those that have their place in the order. -/
structure Listed (c : Presence) (order : List ℕ) : Prop where
  nodup : order.Nodup
  mem : ∀ i, i ∈ order ↔ Placed (c.progress i)

/-- The handlers in their order. Those of `head` come first. A leave that looks for its user in a
room that is gone takes its place at their end, where there is no room. -/
structure Placing (requests : ℕ → RoomRequest) (roomID : String) (start : Option HistoryRoom)
    (c : Presence) (head before after : List ℕ) (h b s : Option HistoryRoom) : Prop where
  listed : c.Listed (head ++ before ++ after)
  first : Serves requests roomID c.answer start head h
  second : Serves requests roomID c.answer h before b
  standing : Standing requests c b after s
  stale : ∀ p, c.At (HandlerPoint.Looks p) → p ∈ c.shared.registered ∨ h = none

/-- What every step keeps. -/
structure Inv (requests : ℕ → RoomRequest) (roomID : String) (start : Option HistoryRoom)
    (c : Presence) : Prop where
  fits : ∀ i k, c.progress i = .running k → k.request = requests i ∧ k.Complete roomID
  nobody : ∀ p ∉ c.shared.registered, (c.shared.object p).users = []
  placing : ∃ head before after h b s,
    Placing requests roomID start c head before after h b s

/-! ## A handler's turn -/

/-- One handler goes on from a point, and the others stay where they are. -/
structure Turn (c c' : Presence) (i : ℕ) (k : HandlerPoint)
    (next : Progress HandlerPoint GoText GoText) : Prop where
  old : c.progress i = .running k
  new : c'.progress i = next
  others : ∀ j, j ≠ i → c'.progress j = c.progress j

/-- A piece of a handler is a turn of it. -/
theorem turn_step (roomID : String) {c : Presence} {e : Arrangement ℕ × ℕ} {k : HandlerPoint}
    {o : Outcome GoText (HandlerPoint ⊕ GoText)} {m : Memory} (h : c.progress e.2 = .running k)
    (hrun : (handlerPiece roomID e.1 k).run c.shared = (o, m)) :
    Turn c (step roomID c e) e.2 k (.after o) ∧ (step roomID c e).shared = m := by
  have hself : (step roomID c e).progress e.2 =
      .after ((handlerPiece roomID e.1 k).run c.shared).1 := Concurrent.progress_step_self h
  have hshared : (step roomID c e).shared = ((handlerPiece roomID e.1 k).run c.shared).2 :=
    Concurrent.shared_step h
  rw [hrun] at hself hshared
  exact ⟨⟨h, hself, fun j hj => Concurrent.progress_step_of_ne hj⟩, hshared⟩

section Turn

variable {requests : ℕ → RoomRequest} {roomID : String} {start : Option HistoryRoom}
  {c c' : Presence} {i : ℕ} {k : HandlerPoint} {next : Progress HandlerPoint GoText GoText}

/-- Who is at a point is still at such a point, unless it was his turn. -/
theorem Turn.at_of (t : Turn c c' i k next) {P : HandlerPoint → Prop} (h : c.At P)
    (hown : P k → ∃ k', next = .running k' ∧ P k') : c'.At P := by
  obtain ⟨j, kj, hrun, hP⟩ := h
  by_cases hji : j = i
  · subst hji
    obtain rfl : kj = k := by
      rw [t.old] at hrun
      cases hrun
      rfl
    obtain ⟨k', hk', hP'⟩ := hown hP
    exact ⟨j, k', t.new.trans hk', hP'⟩
  · exact ⟨j, kj, (t.others j hji).trans hrun, hP⟩

/-- Who has come to a point was there before, unless it was his turn. -/
theorem Turn.of_at (t : Turn c c' i k next) {P : HandlerPoint → Prop} (h : c'.At P) :
    c.At P ∨ ∃ k', next = .running k' ∧ P k' := by
  obtain ⟨j, kj, hrun, hP⟩ := h
  by_cases hji : j = i
  · subst hji
    exact Or.inr ⟨kj, t.new.symm.trans hrun, hP⟩
  · exact Or.inl ⟨j, kj, (t.others j hji).symm.trans hrun, hP⟩

/-- A handler that has returned is not the one whose turn it is. -/
theorem Turn.returned (t : Turn c c' i k next) {j : ℕ} {o : Outcome GoText GoText}
    (h : c.progress j = .returned o) : c'.progress j = .returned o := by
  have hji : j ≠ i := by
    rintro rfl
    rw [t.old] at h
    cases h
  exact (t.others j hji).trans h

/-- A handler that waits is idle after the turn of another. -/
theorem Idle.turn (t : Turn c c' i k next) {handle : GoText} {j : ℕ}
    (h : Idle requests c handle j) : Idle requests c' handle j := by
  obtain ⟨⟨err, herr⟩, hreq⟩ := h
  exact ⟨⟨err, t.returned herr⟩, hreq⟩

/-- Handlers that do not include the one whose turn it is answer as before. -/
theorem Turn.serves (t : Turn c c' i k next) {order : List ℕ} (hi : i ∉ order)
    {a b : Option HistoryRoom} (h : Serves requests roomID c.answer a order b) :
    Serves requests roomID c'.answer a order b := by
  refine h.congr fun j hj => ?_
  have hji : j ≠ i := fun heq => hi (heq ▸ hj)
  unfold Presence.answer
  rw [t.others j hji]

/-- A handler that answers what it was going to answer changes no answer. -/
theorem Turn.answer (t : Turn c c' i k next) (h : answered next = answered (.running k)) :
    c'.answer = c.answer := by
  funext j
  unfold Presence.answer
  by_cases hji : j = i
  · rw [hji, t.new, t.old, h]
  · rw [t.others j hji]

/-- A turn that places nobody leaves the list. -/
theorem Listed.keep (t : Turn c c' i k next) (hplaced : Placed next ↔ Placed (.running k))
    {order : List ℕ} (h : c.Listed order) : c'.Listed order := by
  refine ⟨h.nodup, fun j => (h.mem j).trans ?_⟩
  by_cases hji : j = i
  · rw [hji, t.new, t.old, hplaced]
  · rw [t.others j hji]

/-- The handler whose turn it is has no place yet. -/
theorem Listed.notMem (t : Turn c c' i k next) (hk : ¬ Placed (.running k)) {order : List ℕ}
    (h : c.Listed order) : i ∉ order := fun hmem => by
  have hplaced := (h.mem i).mp hmem
  rw [t.old] at hplaced
  exact hk hplaced

/-- The handler whose turn it is takes its place. -/
theorem Listed.insert (t : Turn c c' i k next) (hk : ¬ Placed (.running k)) (hnext : Placed next)
    {order order' : List ℕ} (hperm : order'.Perm (i :: order)) (h : c.Listed order) :
    c'.Listed order' := by
  have hi : i ∉ order := h.notMem t hk
  refine ⟨hperm.nodup_iff.mpr (List.nodup_cons.mpr ⟨hi, h.nodup⟩), fun j => ?_⟩
  rw [hperm.mem_iff, List.mem_cons]
  by_cases hji : j = i
  · subst hji
    rw [t.new]
    exact ⟨fun _ => hnext, fun _ => Or.inl rfl⟩
  · rw [t.others j hji, ← h.mem j]
    exact or_iff_right hji

/-- The users of a room that agrees with the object. -/
theorem Agrees.users {p : ℕ} {room : HistoryRoom} (h : c.Agrees p room) :
    (c.shared.object p).users = room.users := by
  rw [h.object]
  rfl

/-- A room that agrees with an object that is left alone still does so. -/
theorem Agrees.turn (t : Turn c c' i k next) {p : ℕ} {room : HistoryRoom} (h : c.Agrees p room)
    (hobject : c'.shared.object p = c.shared.object p)
    (hown : ∀ b, k.Sets p b → ∃ k', next = .running k' ∧ k'.Sets p b) : c'.Agrees p room := by
  refine ⟨by rw [hobject]; exact h.object, ?_⟩
  rw [hobject]
  exact h.filter.imp_right fun hat => t.at_of hat (hown _)

/-- A leave that has emptied the room goes on to remove it. -/
theorem Emptied.turn (t : Turn c c' i k next)
    (hreg : c'.shared.registered = c.shared.registered)
    (hlast : c'.shared.lastLeft = c.shared.lastLeft)
    (hagrees : ∀ p room, c.Agrees p room → c'.Agrees p room)
    (hleaves : ∀ l p, c.shared.registered = [p] → (c.shared.object p).users = [] → k.Leaves l p →
      ∃ k', next = .running k' ∧ k'.Leaves l p) {p j : ℕ} {room : HistoryRoom} {l : LeaveRoom}
    {rest : List ℕ} (h : Emptied requests c p room l j rest) :
    Emptied requests c' p room l j rest := by
  refine ⟨hreg.trans h.registered, ?_, h.mem, h.last, hagrees p _ h.agrees, by rw [hlast, h.left],
    fun n hn => (h.idle n hn).turn t⟩
  obtain ⟨kj, hrun, hl⟩ := h.leaves
  by_cases hji : j = i
  · subst hji
    obtain rfl : kj = k := by
      rw [t.old] at hrun
      cases hrun
      rfl
    obtain ⟨k', hk', hl'⟩ := hleaves l p h.registered (by rw [h.agrees.users, h.last]) hl
    exact ⟨k', t.new.trans hk', hl'⟩
  · exact ⟨kj, (t.others j hji).trans hrun, hl⟩

/-- A turn that changes neither the rooms nor the order. -/
theorem Standing.turn (t : Turn c c' i k next)
    (hreg : c'.shared.registered = c.shared.registered)
    (hlast : c'.shared.lastLeft = c.shared.lastLeft)
    (hagrees : ∀ p room, c.Agrees p room → c'.Agrees p room)
    (hjoins : ∀ p, k.Joins p → ∃ k', next = .running k' ∧ k'.Joins p)
    (hleaves : ∀ l p, c.shared.registered = [p] → (c.shared.object p).users = [] → k.Leaves l p →
      ∃ k', next = .running k' ∧ k'.Leaves l p) {b s : Option HistoryRoom} {after : List ℕ}
    (h : Standing requests c b after s) : Standing requests c' b after s := by
  cases h with
  | gone hgone => exact .gone (hreg.trans hgone)
  | live p room hp husers ha => exact .live p room (hreg.trans hp) husers (hagrees p room ha)
  | new p hp ha hat => exact .new p (hreg.trans hp) (hagrees p _ ha) (t.at_of hat (hjoins p))
  | left p room l j rest hemptied =>
    exact .left p room l j rest (hemptied.turn t hreg hlast hagrees hleaves)

/-- A handler that fails where it has left no trace leaves the rooms as they are. -/
theorem Standing.fail {err : GoText} (t : Turn c c' i k (.returned (.err err)))
    (hshared : c'.shared = c.shared) (hk : k.Traceless) {b s : Option HistoryRoom} {after : List ℕ}
    (h : Standing requests c b after s) : Standing requests c' b after s :=
  h.turn t (by rw [hshared]) (by rw [hshared])
    (fun _ _ ha => ha.turn t (by rw [hshared]) fun b hs => absurd hs (hk.sets _ b))
    (fun p hj => absurd hj (hk.joins p)) fun l p _ _ hl => absurd hl (hk.leaves l p)

/-- A turn after which the others still fit. -/
theorem Inv.fits_turn (t : Turn c c' i k next) (hI : Inv requests roomID start c)
    (hnext : ∀ k', next = .running k' → k'.request = k.request ∧ k'.Complete roomID) :
    ∀ j kj, c'.progress j = .running kj → kj.request = requests j ∧ kj.Complete roomID := by
  intro j kj hj
  by_cases hji : j = i
  · subst hji
    obtain ⟨hreq, hcomplete⟩ := hnext kj (t.new.symm.trans hj)
    exact ⟨hreq.trans (hI.fits j k t.old).1, hcomplete⟩
  · exact hI.fits j kj ((t.others j hji).symm.trans hj)

/-- A turn that changes a room that is registered puts nobody into another one. -/
theorem Inv.nobody_turn (hI : Inv requests roomID start c) {p : ℕ} (hin : p ∈ c.shared.registered)
    (hreg : c'.shared.registered = c.shared.registered)
    (hothers : ∀ q, q ≠ p → c'.shared.object q = c.shared.object q) (q : ℕ)
    (hq : q ∉ c'.shared.registered) : (c'.shared.object q).users = [] := by
  rw [hreg] at hq
  have hne : q ≠ p := fun heq => hq (heq ▸ hin)
  rw [hothers q hne]
  exact hI.nobody q hq

/-- A turn that changes neither the rooms nor the order keeps everything. -/
theorem Inv.turn (t : Turn c c' i k next) (hI : Inv requests roomID start c)
    (hnext : ∀ k', next = .running k' → k'.request = k.request ∧ k'.Complete roomID ∧
      ∀ p, k'.Looks p → p ∈ c.shared.registered)
    (hanswer : answered next = answered (.running k))
    (hplaced : Placed next ↔ Placed (.running k))
    (hreg : c'.shared.registered = c.shared.registered)
    (hlast : c'.shared.lastLeft = c.shared.lastLeft)
    (husers : ∀ p, (c'.shared.object p).users = (c.shared.object p).users)
    (hagrees : ∀ p room, c.Agrees p room → c'.Agrees p room)
    (hjoins : ∀ p, k.Joins p → ∃ k', next = .running k' ∧ k'.Joins p)
    (hleaves : ∀ l p, c.shared.registered = [p] → (c.shared.object p).users = [] → k.Leaves l p →
      ∃ k', next = .running k' ∧ k'.Leaves l p) : Inv requests roomID start c' := by
  obtain ⟨head, before, after, h, b, s, hplacing⟩ := hI.placing
  -- Nothing is answered by this step, so the order stays, and both parts of it are served as
  -- before.
  have hanswers := t.answer hanswer
  refine ⟨hI.fits_turn t fun k' hk' => ⟨(hnext k' hk').1, (hnext k' hk').2.1⟩, ?_,
    head, before, after, h, b, s, hplacing.listed.keep t hplaced, ?_, ?_,
    hplacing.standing.turn t hreg hlast hagrees hjoins hleaves, ?_⟩
  · intro p hp
    rw [husers]
    exact hI.nobody p (hreg ▸ hp)
  · rw [hanswers]
    exact hplacing.first
  · rw [hanswers]
    exact hplacing.second
  · -- A leave that now looks for its user has just found the room.
    intro p hat
    rw [hreg]
    rcases t.of_at hat with hat | ⟨k', hk', hlooks⟩
    · exact hplacing.stale p hat
    · exact Or.inl ((hnext k' hk').2.2 p hlooks)

/-- A leave that has removed its user will announce that. -/
theorem Inv.leaves (hI : Inv requests roomID start c) {j p : ℕ} {kj : HandlerPoint} {l : LeaveRoom}
    (hrun : c.progress j = .running kj) (hl : kj.Leaves l p) :
    requests j = .leave l ∧ c.answer j = some l.announcement := by
  unfold Presence.answer
  rw [← (hI.fits j kj hrun).1, hrun]
  match kj, hl with
  | .leave _ (.isEmpty _), ⟨rfl, _⟩ => exact ⟨rfl, rfl⟩
  | .leave _ (.removeRoom _), ⟨rfl, _⟩ => exact ⟨rfl, rfl⟩

/-- The leave that has emptied the room, and those after it, bring the room to its end. -/
theorem Emptied.serves (hI : Inv requests roomID start c) {p j : ℕ} {room : HistoryRoom}
    {l : LeaveRoom} {rest : List ℕ} (h : Emptied requests c p room l j rest) :
    Serves requests roomID c.answer (some room) (j :: rest) none := by
  obtain ⟨kj, hrun, hleaves⟩ := h.leaves
  obtain ⟨hreq, hanswer⟩ := hI.leaves hrun hleaves
  have hone : (requests j).alone roomID (some room) = (none, c.answer j) := by
    rw [hreq, hanswer, alone_leave h.mem, if_pos h.last]
  refine ⟨congrArg Prod.snd hone, ?_⟩
  rw [hone]
  refine Serves.of_fail fun n hn => ?_
  obtain ⟨⟨err, herr⟩, r, hr, -⟩ := h.idle n hn
  unfold Presence.answer
  rw [herr, hr, alone_leave_none]
  rfl

/-- The handlers after the room `b` bring it to the room `s`. -/
theorem Standing.serves {b s : Option HistoryRoom} {after : List ℕ}
    (h : Standing requests c b after s) (hI : Inv requests roomID start c) :
    Serves requests roomID c.answer b after s := by
  cases h with
  | gone => rfl
  | live => rfl
  | new => rfl
  | left p room l i rest hemptied => exact hemptied.serves hI

section Placing

variable {head before after : List ℕ} {h b s : Option HistoryRoom}

/-- The handler whose turn it is has no place yet. -/
theorem Placing.notMem (t : Turn c c' i k next) (hk : ¬ Placed (.running k))
    (hp : Placing requests roomID start c head before after h b s) :
    (i ∉ head ∧ i ∉ before) ∧ i ∉ after := by
  have hi := hp.listed.notMem t hk
  rwa [List.mem_append, List.mem_append, not_or, not_or] at hi

/-- A leave that looks for its user has found a room that is there, or can come where none is. -/
theorem Placing.stale_turn (t : Turn c c' i k next)
    (hp : Placing requests roomID start c head before after h b s)
    (hreg : c'.shared.registered = c.shared.registered)
    (hnext : ∀ k', next = .running k' → ∀ p, ¬ k'.Looks p) (p : ℕ)
    (hat : c'.At (HandlerPoint.Looks p)) : p ∈ c'.shared.registered ∨ h = none := by
  rw [hreg]
  rcases t.of_at hat with hat | ⟨k', hk', hlooks⟩
  · exact hp.stale p hat
  · exact absurd hlooks (hnext k' hk' p)

/-- A handler takes its place after those of `before`. -/
theorem Placing.append (t : Turn c c' i k next) (hk : ¬ Placed (.running k)) (hnext : Placed next)
    (hp : Placing requests roomID start c head before after h b s) {b' s' : Option HistoryRoom}
    (halone : (requests i).alone roomID b = (b', answered next))
    (hstanding : Standing requests c' b' after s')
    (hstale : ∀ p, c'.At (HandlerPoint.Looks p) → p ∈ c'.shared.registered ∨ h = none) :
    Placing requests roomID start c' head (before ++ [i]) after h b' s' := by
  have hi := hp.notMem t hk
  refine ⟨hp.listed.insert t hk hnext ?_, t.serves hi.1.1 hp.first, ?_, hstanding, hstale⟩
  · have hlist : head ++ (before ++ [i]) ++ after = (head ++ before) ++ i :: after := by simp
    rw [hlist]
    exact List.perm_middle
  · refine (t.serves hi.1.2 hp.second).snoc ?_
    unfold Presence.answer
    rw [halone, t.new]

/-- A handler that fails takes its place where there is no room. -/
theorem Placing.fail_first {err : GoText} (t : Turn c c' i k (.returned (.err err)))
    (hk : ¬ Placed (.running k)) (hshared : c'.shared = c.shared) (htrace : k.Traceless)
    (hp : Placing requests roomID start c head before after none b s)
    (halone : (requests i).alone roomID none = (none, none)) :
    Placing requests roomID start c' (head ++ [i]) before after none b s := by
  have hi := hp.notMem t hk
  refine ⟨hp.listed.insert t hk trivial ?_, ?_, t.serves hi.1.2 hp.second,
    hp.standing.fail t hshared htrace, fun _ _ => Or.inr rfl⟩
  · have hlist : head ++ [i] ++ before ++ after = head ++ i :: (before ++ after) := by simp
    rw [hlist]
    refine List.perm_middle.trans ?_
    rw [List.append_assoc]
  · refine (t.serves hi.1.1 hp.first).snoc ?_
    unfold Presence.answer
    rw [halone, t.new]
    rfl

/-- A leave that fails after its user has emptied the room takes its place at the end. -/
theorem Placing.fail_last {err : GoText} {p j : ℕ} {room : HistoryRoom} {r l : LeaveRoom}
    {rest : List ℕ} (t : Turn c c' i k (.returned (.err err))) (hk : ¬ Placed (.running k))
    (hshared : c'.shared = c.shared) (htrace : k.Traceless)
    (hp : Placing requests roomID start c head before (j :: rest) h (some room) none)
    (hemptied : Emptied requests c p room l j rest) (hreq : requests i = .leave r)
    (hhandle : r.userHandle = l.userHandle) :
    Placing requests roomID start c' head before (j :: (rest ++ [i])) h (some room) none := by
  have hi := hp.notMem t hk
  have hidle : Idle requests c' l.userHandle i := ⟨⟨err, t.new⟩, r, hreq, hhandle⟩
  have hturn : Emptied requests c' p room l j rest :=
    hemptied.turn t (by rw [hshared]) (by rw [hshared])
      (fun _ _ ha => ha.turn t (by rw [hshared]) fun b hs => absurd hs (htrace.sets _ b))
      fun l p _ _ hl => absurd hl (htrace.leaves l p)
  refine ⟨hp.listed.insert t hk trivial ?_, t.serves hi.1.1 hp.first, t.serves hi.1.2 hp.second,
    .left p room l j (rest ++ [i]) { hturn with idle := fun n hn => ?_ },
    hp.stale_turn t (by rw [hshared]) (by rintro k' ⟨⟩)⟩
  · have hlist : head ++ before ++ j :: (rest ++ [i]) =
        (head ++ before ++ j :: rest) ++ i :: [] := by simp
    rw [hlist]
    exact List.perm_middle.trans (by rw [List.append_nil])
  · rcases List.mem_append.mp hn with hn | hn
    · exact hturn.idle n hn
    · obtain rfl := List.mem_singleton.mp hn
      exact hidle

/-- A handler that fails, and would do so in the room `b`. -/
theorem Inv.fail {err : GoText} (t : Turn c c' i k (.returned (.err err)))
    (hI : Inv requests roomID start c) (hk : ¬ Placed (.running k)) (hshared : c'.shared = c.shared)
    (htrace : k.Traceless) (hp : Placing requests roomID start c head before after h b s)
    (halone : (requests i).alone roomID b = (b, none)) : Inv requests roomID start c' :=
  ⟨hI.fits_turn t (by rintro k' ⟨⟩), by rw [hshared]; exact hI.nobody,
    head, before ++ [i], after, h, b, s, hp.append t hk trivial halone
      (hp.standing.fail t hshared htrace) (hp.stale_turn t (by rw [hshared]) (by rintro k' ⟨⟩))⟩

end Placing

end Turn

end Presence

end Bsg.Rtc
