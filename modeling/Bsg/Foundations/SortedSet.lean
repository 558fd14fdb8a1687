import Mathlib.Data.List.Nodup
import Mathlib.Data.List.Sort
import Mathlib.Tactic.Common

/-!
# Sorted sets

A `SortedSet α β` holds members of type `α`, each once and each with a score of type `β`, as a
sorted set of a key-value store does. Adding a member that is there rewrites its score, and the
answer says whether a member was added or only rewritten. A range over the whole set lists the
members by score, and members of equal score in their own order.
-/

namespace Bsg.Foundations

/-- A sorted set: distinct members with their scores. -/
structure SortedSet (α β : Type) where
  /-- The members with their scores. -/
  entries : List (α × β)
  /-- A member has one score. -/
  nodup : (entries.map Prod.fst).Nodup

namespace SortedSet

variable {α β : Type} [DecidableEq α]

/-- The set without members. -/
def empty : SortedSet α β := ⟨[], List.nodup_nil⟩

/-- The score of a member. -/
def score? (s : SortedSet α β) (x : α) : Option β := s.entries.lookup x

/-- Membership. -/
def contains (s : SortedSet α β) (x : α) : Bool := decide (x ∈ s.entries.map Prod.fst)

/-- Gives a member a score, whether it was there or not. -/
def add (s : SortedSet α β) (x : α) (v : β) : SortedSet α β where
  entries := s.entries.filter (fun e => e.1 ≠ x) ++ [(x, v)]
  nodup := by
    rw [List.map_append, List.nodup_append]
    refine ⟨s.nodup.sublist (List.filter_sublist.map _), List.nodup_singleton _, ?_⟩
    intro a ha b hb
    simp only [List.map_cons, List.map_nil, List.mem_singleton] at hb
    obtain ⟨e, he, rfl⟩ := List.mem_map.mp ha
    have := (List.mem_filter.mp he).2
    rw [hb]
    simpa using this

/-- Takes a member out. -/
def remove (s : SortedSet α β) (x : α) : SortedSet α β where
  entries := s.entries.filter fun e => e.1 ≠ x
  nodup := s.nodup.sublist (List.filter_sublist.map _)

/-- The order of a range: by score, then by member. -/
def before [LinearOrder α] [LinearOrder β] (e e' : α × β) : Prop :=
  e.2 < e'.2 ∨ e.2 = e'.2 ∧ e.1 ≤ e'.1

instance [LinearOrder α] [LinearOrder β] : DecidableRel (before (α := α) (β := β)) :=
  fun _ _ => inferInstanceAs (Decidable (_ ∨ _))

/-- All members with their scores, in the order of a range. -/
def range [LinearOrder α] [LinearOrder β] (s : SortedSet α β) : List (α × β) :=
  s.entries.insertionSort before

/-- All members, in the order of a range. -/
def members [LinearOrder α] [LinearOrder β] (s : SortedSet α β) : List α :=
  s.range.map Prod.fst

/-! ## Membership -/

/-- A set contains the members of its entries. -/
theorem contains_eq_true {s : SortedSet α β} {x : α} :
    s.contains x = true ↔ x ∈ s.entries.map Prod.fst := by
  simp [contains]

/-- The empty set contains nothing. -/
@[simp] theorem contains_empty (x : α) : (empty : SortedSet α β).contains x = false := by
  simp [contains, empty]

/-- Adding a member adds only him. -/
@[simp] theorem contains_add (s : SortedSet α β) (x y : α) (v : β) :
    (s.add x v).contains y = (decide (y = x) || s.contains y) := by
  rw [Bool.eq_iff_iff, contains_eq_true, Bool.or_eq_true, contains_eq_true]
  simp only [add, List.map_append, List.map_cons, List.map_nil, List.mem_append,
    List.mem_singleton, List.mem_map, List.mem_filter, decide_eq_true_eq]
  constructor
  · rintro (⟨e, ⟨he, -⟩, rfl⟩ | rfl)
    · exact Or.inr ⟨e, he, rfl⟩
    · exact Or.inl rfl
  · rintro (rfl | ⟨e, he, rfl⟩)
    · exact Or.inr rfl
    · by_cases hx : e.1 = x
      · exact Or.inr hx
      · exact Or.inl ⟨e, ⟨he, hx⟩, rfl⟩

/-- Removing a member removes only him. -/
@[simp] theorem contains_remove (s : SortedSet α β) (x y : α) :
    (s.remove x).contains y = (decide (y ≠ x) && s.contains y) := by
  rw [Bool.eq_iff_iff, contains_eq_true, Bool.and_eq_true, contains_eq_true]
  simp only [remove, List.mem_map, List.mem_filter, decide_eq_true_eq]
  constructor
  · rintro ⟨e, ⟨he, hx⟩, rfl⟩
    exact ⟨hx, e, he, rfl⟩
  · rintro ⟨hx, e, he, rfl⟩
    exact ⟨e, ⟨he, hx⟩, rfl⟩

/-- A member who is not listed has no score. -/
theorem lookup_eq_none {l : List (α × β)} {x : α} :
    l.lookup x = none ↔ x ∉ l.map Prod.fst := by
  induction l with
  | nil => simp
  | cons e l ih =>
    rw [List.lookup_cons]
    by_cases h : x = e.1
    · simp [h]
    · have hb : (x == e.1) = false := by simpa using h
      rw [hb, ih]
      simp [h]

/-- What is looked up under one key does not depend on the entries of another. -/
theorem lookup_filter_ne (l : List (α × β)) {x y : α} (h : y ≠ x) :
    (l.filter fun e => e.1 ≠ x).lookup y = l.lookup y := by
  induction l with
  | nil => rfl
  | cons e l ih =>
    by_cases hx : e.1 = x
    · have hy : (y == e.1) = false := by simpa [hx] using h
      rw [List.filter_cons_of_neg (by simp [hx]), ih, List.lookup_cons, hy]
    · rw [List.filter_cons_of_pos (by simp [hx]), List.lookup_cons, List.lookup_cons, ih]

/-- A member has a score, and only a member has. -/
theorem score?_isSome (s : SortedSet α β) (x : α) : (s.score? x).isSome = s.contains x := by
  rw [Bool.eq_iff_iff, contains_eq_true, Option.isSome_iff_ne_none, score?, ne_eq,
    lookup_eq_none, not_not]

/-- The score of a member is that of its only entry. -/
theorem score?_eq_some {s : SortedSet α β} {x : α} {v : β} :
    s.score? x = some v ↔ (x, v) ∈ s.entries := by
  obtain ⟨entries, hnodup⟩ := s
  show entries.lookup x = some v ↔ (x, v) ∈ entries
  induction entries with
  | nil => simp
  | cons e l ih =>
    rw [List.map_cons, List.nodup_cons] at hnodup
    rw [List.lookup_cons, List.mem_cons]
    by_cases h : x = e.1
    · have hrest : (x, v) ∉ l := fun hmem => hnodup.1 (h ▸ List.mem_map_of_mem hmem)
      rw [beq_iff_eq.mpr h, or_iff_left hrest]
      exact ⟨fun hv => Prod.ext h (Option.some.inj hv).symm, fun hv => congrArg (some ·.2) hv.symm⟩
    · rw [beq_false_of_ne h, ih hnodup.2, or_iff_right fun hv => h (congrArg Prod.fst hv)]

/-- The score of a member after it was given one. -/
@[simp] theorem score?_add_self (s : SortedSet α β) (x : α) (v : β) :
    (s.add x v).score? x = some v := by
  have h : (s.entries.filter fun e => e.1 ≠ x).lookup x = none := by
    rw [lookup_eq_none]
    intro hm
    obtain ⟨e, he, rfl⟩ := List.mem_map.mp hm
    simpa using (List.mem_filter.mp he).2
  simp only [score?, add, List.lookup_append, h, List.lookup_cons, beq_self_eq_true]
  rfl

/-- The scores of the other members stay. -/
theorem score?_add_of_ne (s : SortedSet α β) {x y : α} (v : β) (h : y ≠ x) :
    (s.add x v).score? y = s.score? y := by
  have hf := lookup_filter_ne s.entries h
  have hy : (y == x) = false := by simpa using h
  simp only [score?, add, List.lookup_append, hf, List.lookup_cons, hy, List.lookup_nil,
    Option.or_none]

omit [DecidableEq α] in
/-- A range lists each member once. -/
theorem members_nodup [LinearOrder α] [LinearOrder β] (s : SortedSet α β) : s.members.Nodup := by
  have h : (s.entries.insertionSort before).Perm s.entries := List.perm_insertionSort _ _
  exact (h.map Prod.fst).nodup_iff.mpr s.nodup

/-- A range lists the members and nothing else. -/
@[simp] theorem mem_members [LinearOrder α] [LinearOrder β] (s : SortedSet α β) (x : α) :
    x ∈ s.members ↔ s.contains x = true := by
  have h : (s.entries.insertionSort before).Perm s.entries := List.perm_insertionSort _ _
  rw [contains_eq_true]
  exact (h.map Prod.fst).mem_iff

omit [DecidableEq α] in
/-- Only the empty set has no members. -/
theorem members_eq_nil [LinearOrder α] [LinearOrder β] {s : SortedSet α β} :
    s.members = [] ↔ s = .empty := by
  obtain ⟨entries, hnodup⟩ := s
  have h : (entries.insertionSort before).Perm entries := List.perm_insertionSort _ _
  simp only [members, range, empty, List.map_eq_nil_iff, mk.injEq]
  constructor
  · intro hnil
    rw [hnil] at h
    exact h.symm.eq_nil
  · rintro rfl
    rfl

/-- A set whose only member is taken out had no other. -/
theorem members_eq_singleton [LinearOrder α] [LinearOrder β] {s : SortedSet α β} {x : α}
    (h : s.contains x = true) (hempty : (s.remove x).members = []) : s.members = [x] := by
  refine List.perm_singleton.mp ((List.perm_ext_iff_of_nodup s.members_nodup
    (List.nodup_singleton x)).mpr fun y => ?_)
  rw [mem_members, List.mem_singleton]
  constructor
  · intro hy
    by_contra hne
    have hleft : y ∈ (s.remove x).members := by
      rw [mem_members, contains_remove, hy, decide_eq_true hne]
      rfl
    rw [hempty] at hleft
    cases hleft
  · rintro rfl
    exact h

omit [DecidableEq α] in
/-- A range is in order. -/
theorem range_pairwise [LinearOrder α] [LinearOrder β] (s : SortedSet α β) :
    s.range.Pairwise before := by
  have : Std.Total (before (α := α) (β := β)) := ⟨fun a b => by unfold before; grind⟩
  have : IsTrans (α × β) before := ⟨fun a b c hab hbc => by unfold before at *; grind⟩
  exact List.pairwise_insertionSort _ _

omit [DecidableEq α] in
/-- A range lists the entries. -/
theorem mem_range [LinearOrder α] [LinearOrder β] {s : SortedSet α β} {e : α × β} :
    e ∈ s.range ↔ e ∈ s.entries := (List.perm_insertionSort _ _).mem_iff

omit [DecidableEq α] in
/-- The first of a range comes before every entry. -/
theorem before_of_range [LinearOrder α] [LinearOrder β] {s : SortedSet α β} {e e' : α × β}
    (h : s.range.head? = some e) (he' : e' ∈ s.entries) : before e e' := by
  have hsorted := s.range_pairwise
  have hmem : e' ∈ s.range := mem_range.mpr he'
  obtain ⟨rest, hrange⟩ : ∃ rest, s.range = e :: rest := by
    cases hr : s.range with
    | nil => simp [hr] at h
    | cons e₀ rest => exact ⟨rest, by simpa [hr] using h⟩
  rw [hrange] at hsorted hmem
  rcases List.mem_cons.mp hmem with rfl | hrest
  · exact Or.inr ⟨rfl, le_refl _⟩
  · exact (List.pairwise_cons.mp hsorted).1 e' hrest

/-- Who is removed has no score. -/
theorem score?_remove_self (s : SortedSet α β) (x : α) : (s.remove x).score? x = none := by
  rw [← Option.not_isSome_iff_eq_none, score?_isSome, contains_remove]
  simp

/-- The scores of those who remain stay. -/
theorem score?_remove_of_ne (s : SortedSet α β) {x y : α} (h : y ≠ x) :
    (s.remove x).score? y = s.score? y := lookup_filter_ne s.entries h

end SortedSet

end Bsg.Foundations
