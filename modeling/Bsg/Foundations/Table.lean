import Mathlib.Data.List.MinMax
import Mathlib.Data.List.Nodup
import Mathlib.Tactic.Common

/-!
# Tables with serial primary keys

A `Table ρ` is a finite list of rows that carries its two constraints: the primary keys are
distinct, and none of them is `0`, the zero value that an object without a row has. The list is the
order in which the rows were inserted. Rows are looked up by key (`find?`), by a condition in key
order (`first?`) or in the order of an `Arrangement`, since a query without an ORDER BY may return
its rows in any order.

An insertion draws its key from a sequence. Any unused key may come next, so `insert` takes a hint:
the key handed out, `fresh`, is the hint itself when it is unused.
-/

namespace Bsg.Foundations

/-- A row type with its serial primary key. -/
class Row (ρ : Type) where
  /-- The primary key of a row. -/
  id : ρ → ℕ

/-- A table: rows with distinct, non-zero primary keys, in the order of their insertion. -/
@[ext]
structure Table (ρ : Type) [Row ρ] where
  /-- The rows. -/
  rows : List ρ
  /-- Primary keys are distinct. -/
  nodup : (rows.map Row.id).Nodup
  /-- Sequences start at one. -/
  pos : ∀ r ∈ rows, Row.id r ≠ 0

/-- An order in which a query may return its rows: any rearrangement of them. -/
structure Arrangement (α : Type) where
  /-- The rearranged list. -/
  order : List α → List α
  /-- Nothing is lost or added. -/
  perm : ∀ l, (order l).Perm l

/-- The order of insertion, as one possible arrangement. -/
def Arrangement.inserted (α : Type) : Arrangement α := ⟨id, fun _ => List.Perm.refl _⟩

/-- Rows in the order in which they were inserted. -/
@[simp] theorem Arrangement.order_inserted {α : Type} (l : List α) :
    (Arrangement.inserted α).order l = l := rfl

/-- Every order has the same elements. -/
@[simp] theorem Arrangement.mem_order {α : Type} (a : Arrangement α) {l : List α} {x : α} :
    x ∈ a.order l ↔ x ∈ l := (a.perm l).mem_iff

/-- Every order has as many elements. -/
@[simp] theorem Arrangement.length_order {α : Type} (a : Arrangement α) (l : List α) :
    (a.order l).length = l.length := (a.perm l).length_eq

/-- The order of insertion, but for one thing that comes last. -/
def Arrangement.withLast {α : Type} [DecidableEq α] (x : α) : Arrangement α where
  order l := l.filter (fun y => !decide (y = x)) ++ l.filter fun y => decide (y = x)
  perm l := List.perm_append_comm.trans (List.filter_append_perm (fun y => decide (y = x)) l)

/-- What comes last is what a search from the end finds first. -/
theorem Arrangement.find?_withLast {α : Type} [DecidableEq α] {l : List α} {x : α} (hx : x ∈ l)
    {p : α → Bool} (hp : p x = true) :
    ((Arrangement.withLast x).order l).reverse.find? p = some x := by
  have hall : ∀ y ∈ (l.filter fun y => decide (y = x)).reverse, y = x := fun y hy =>
    of_decide_eq_true (List.mem_filter.mp (List.mem_reverse.mp hy)).2
  have hmem : x ∈ (l.filter fun y => decide (y = x)).reverse :=
    List.mem_reverse.mpr (List.mem_filter.mpr ⟨hx, decide_eq_true rfl⟩)
  obtain ⟨y, hy⟩ := Option.isSome_iff_exists.mp (List.find?_isSome.mpr ⟨x, hmem, hp⟩)
  obtain rfl := hall y (List.mem_of_find?_eq_some hy)
  unfold Arrangement.withLast
  rw [List.reverse_append, List.find?_append, hy, Option.some_or]

/-- The order of insertion backwards, but for one thing that comes first. -/
def Arrangement.withFirst {α : Type} [DecidableEq α] (x : α) : Arrangement α where
  order l := ((Arrangement.withLast x).order l).reverse
  perm l := (List.reverse_perm _).trans ((Arrangement.withLast x).perm l)

/-- What comes first is found first. -/
theorem Arrangement.find?_withFirst {α : Type} [DecidableEq α] {l : List α} {x : α} (hx : x ∈ l)
    {p : α → Bool} (hp : p x = true) : ((Arrangement.withFirst x).order l).find? p = some x :=
  Arrangement.find?_withLast hx hp

/-- A search for something of which there is at most one does not depend on the order. -/
theorem find?_eq_of_perm {α : Type} {l l' : List α} (hperm : l.Perm l') {p : α → Bool}
    (hunique : ∀ x ∈ l, ∀ y ∈ l, p x = true → p y = true → x = y) : l.find? p = l'.find? p := by
  cases hfound : l'.find? p with
  | none =>
    refine List.find?_eq_none.mpr fun x hx => ?_
    exact List.find?_eq_none.mp hfound x (hperm.mem_iff.mp hx)
  | some y =>
    have hy : y ∈ l := hperm.mem_iff.mpr (List.mem_of_find?_eq_some hfound)
    have hpy : p y = true := List.find?_some hfound
    cases hfirst : l.find? p with
    | none => exact absurd hpy (List.find?_eq_none.mp hfirst y hy)
    | some x =>
      have hx : x ∈ l := List.mem_of_find?_eq_some hfirst
      rw [hunique x hx y hy (List.find?_some hfirst) hpy]

namespace Table

variable {ρ : Type} [Row ρ]

/-- The table without rows. -/
def empty : Table ρ := ⟨[], List.nodup_nil, by simp⟩

/-- The row with the given primary key. -/
def find? (t : Table ρ) (k : ℕ) : Option ρ := t.rows.find? fun r => Row.id r = k

/-- The row with the least primary key among those that satisfy a condition. -/
def first? (t : Table ρ) (p : ρ → Bool) : Option ρ := (t.rows.filter p).argmin Row.id

/-- The keys in use. -/
def ids (t : Table ρ) : List ℕ := t.rows.map Row.id

/-- The key that a sequence hands out: the hint when it is unused, and else the next one above all
keys in use. -/
def fresh (t : Table ρ) (hint : ℕ) : ℕ :=
  if hint ≠ 0 ∧ hint ∉ t.ids then hint else t.ids.foldr max 0 + 1

/-- A key is at most the largest one. -/
theorem le_foldr_max {l : List ℕ} {k : ℕ} (h : k ∈ l) : k ≤ l.foldr max 0 := by
  induction l with
  | nil => simp at h
  | cons a l ih =>
    simp only [List.foldr_cons]
    rcases List.mem_cons.mp h with rfl | h
    · exact le_max_left _ _
    · exact (ih h).trans (le_max_right _ _)

/-- The key handed out is not in use. -/
theorem fresh_not_mem (t : Table ρ) (hint : ℕ) : t.fresh hint ∉ t.ids := by
  unfold fresh
  split_ifs with h
  · exact h.2
  · intro hm
    have := le_foldr_max hm
    omega

/-- The key handed out is not zero. -/
theorem fresh_ne_zero (t : Table ρ) (hint : ℕ) : t.fresh hint ≠ 0 := by
  unfold fresh
  split_ifs with h
  · exact h.1
  · omega

/-- Adds a row under the key that the sequence hands out. -/
def insert (t : Table ρ) (hint : ℕ) (mk : ℕ → ρ)
    (hmk : ∀ k, Row.id (mk k) = k := by intro k; rfl) : Table ρ where
  rows := t.rows ++ [mk (t.fresh hint)]
  nodup := by
    have h := t.fresh_not_mem hint
    simp only [List.map_append, List.map_cons, List.map_nil, hmk]
    rw [List.nodup_append]
    refine ⟨t.nodup, List.nodup_singleton _, ?_⟩
    intro a ha b hb
    rw [List.mem_singleton] at hb
    subst hb
    rintro rfl
    exact h ha
  pos := by
    intro r hr
    rcases List.mem_append.mp hr with hr | hr
    · exact t.pos r hr
    · rw [List.mem_singleton] at hr
      rw [hr, hmk]
      exact t.fresh_ne_zero hint

/-- Rewrites the row with the given key; its key stays. -/
def modify (t : Table ρ) (k : ℕ) (f : ρ → ρ)
    (hf : ∀ r, Row.id (f r) = Row.id r := by intro r; rfl) : Table ρ where
  rows := t.rows.map fun r => if Row.id r = k then f r else r
  nodup := by
    have h : (t.rows.map fun r => if Row.id r = k then f r else r).map Row.id
        = t.rows.map Row.id := by
      rw [List.map_map]
      refine List.map_congr_left fun r _ => ?_
      simp only [Function.comp_apply]
      split_ifs
      · exact hf r
      · rfl
    rw [h]
    exact t.nodup
  pos := by
    intro r hr
    obtain ⟨r', hr', rfl⟩ := List.mem_map.mp hr
    split_ifs
    · rw [hf]
      exact t.pos r' hr'
    · exact t.pos r' hr'

/-- Rewrites the rows that satisfy a condition; their keys stay. -/
def update (t : Table ρ) (p : ρ → Bool) (f : ρ → ρ)
    (hf : ∀ r, Row.id (f r) = Row.id r := by intro r; rfl) : Table ρ where
  rows := t.rows.map fun r => if p r then f r else r
  nodup := by
    have h : (t.rows.map fun r => if p r then f r else r).map Row.id = t.rows.map Row.id := by
      rw [List.map_map]
      refine List.map_congr_left fun r _ => ?_
      simp only [Function.comp_apply]
      split_ifs
      · exact hf r
      · rfl
    rw [h]
    exact t.nodup
  pos := by
    intro r hr
    obtain ⟨r', hr', rfl⟩ := List.mem_map.mp hr
    split_ifs
    · rw [hf]
      exact t.pos r' hr'
    · exact t.pos r' hr'

/-- Deletes the rows that satisfy a condition. -/
def delete (t : Table ρ) (p : ρ → Bool) : Table ρ where
  rows := t.rows.filter fun r => !p r
  nodup := t.nodup.sublist (List.filter_sublist.map _)
  pos := fun r hr => t.pos r (List.mem_filter.mp hr).1

/-! ## Membership -/

/-- A new row comes last, under the key that is handed out. -/
@[simp] theorem rows_insert (t : Table ρ) (hint : ℕ) (mk : ℕ → ρ) (hmk) :
    (t.insert hint mk hmk).rows = t.rows ++ [mk (t.fresh hint)] := rfl

/-- The row with the key is changed. -/
@[simp] theorem rows_modify (t : Table ρ) (k : ℕ) (f : ρ → ρ) (hf) :
    (t.modify k f hf).rows = t.rows.map fun r => if Row.id r = k then f r else r := rfl

/-- The rows that meet the condition are changed. -/
@[simp] theorem rows_update (t : Table ρ) (p : ρ → Bool) (f : ρ → ρ) (hf) :
    (t.update p f hf).rows = t.rows.map fun r => if p r then f r else r := rfl

/-- The rows that meet the condition go. -/
@[simp] theorem rows_delete (t : Table ρ) (p : ρ → Bool) :
    (t.delete p).rows = t.rows.filter fun r => !p r := rfl

/-- Changing a row leaves the keys. -/
@[simp] theorem ids_modify (t : Table ρ) (k : ℕ) (f : ρ → ρ) (hf) :
    (t.modify k f hf).ids = t.ids := by
  unfold ids
  rw [rows_modify, List.map_map]
  refine List.map_congr_left fun r _ => ?_
  simp only [Function.comp_apply]
  split_ifs
  · exact hf r
  · rfl

/-- Two rows with the same key are the same row. -/
theorem eq_of_id_eq {t : Table ρ} {r r' : ρ} (hr : r ∈ t.rows) (hr' : r' ∈ t.rows)
    (h : Row.id r = Row.id r') : r = r' :=
  List.inj_on_of_nodup_map t.nodup hr hr' h

/-- A lookup by key finds exactly the row with that key. -/
theorem find?_eq_some {t : Table ρ} {k : ℕ} {r : ρ} :
    t.find? k = some r ↔ r ∈ t.rows ∧ Row.id r = k := by
  constructor
  · intro h
    exact ⟨List.mem_of_find?_eq_some h, by simpa using List.find?_some h⟩
  · rintro ⟨hr, rfl⟩
    unfold find?
    cases hf : t.rows.find? fun r' => Row.id r' = Row.id r with
    | none => simpa using List.find?_eq_none.mp hf r hr
    | some r' =>
      have h1 := List.mem_of_find?_eq_some hf
      have h2 := List.find?_some hf
      rw [eq_of_id_eq h1 hr (by simpa using h2)]

/-- A lookup by key finds nothing exactly when the key is not in use. -/
theorem find?_eq_none {t : Table ρ} {k : ℕ} : t.find? k = none ↔ k ∉ t.ids := by
  simp [find?, ids, List.find?_eq_none]

/-- A row found by its key. -/
theorem find?_id {t : Table ρ} {r : ρ} (hr : r ∈ t.rows) : t.find? (Row.id r) = some r :=
  find?_eq_some.mpr ⟨hr, rfl⟩

/-- No row has the key zero. -/
theorem find?_zero (t : Table ρ) : t.find? 0 = none := by
  rw [find?_eq_none]
  intro h
  obtain ⟨r, hr, h0⟩ := List.mem_map.mp h
  exact t.pos r hr h0

/-- The row found by a condition is a row that satisfies it. -/
theorem first?_mem {t : Table ρ} {p : ρ → Bool} {r : ρ} (h : t.first? p = some r) :
    r ∈ t.rows ∧ p r = true :=
  List.mem_filter.mp (List.argmin_mem (Option.mem_def.mpr h))

/-- A condition finds nothing exactly when no row satisfies it. -/
theorem first?_eq_none {t : Table ρ} {p : ρ → Bool} :
    t.first? p = none ↔ ∀ r ∈ t.rows, p r = false := by
  simp [first?, List.argmin_eq_none, List.filter_eq_nil_iff]

/-- The row found by a condition that one row alone satisfies. -/
theorem first?_unique {t : Table ρ} {p : ρ → Bool} {r : ρ} (hr : r ∈ t.rows) (hp : p r = true)
    (h : ∀ r' ∈ t.rows, p r' = true → r' = r) : t.first? p = some r := by
  cases hf : t.first? p with
  | none => simp [first?_eq_none.mp hf r hr] at hp
  | some r' =>
    obtain ⟨hm, hp'⟩ := first?_mem hf
    rw [h r' hm hp']

/-- The row found by a condition, characterised: it satisfies it and has the least key. -/
theorem first?_eq_some {t : Table ρ} {p : ρ → Bool} {r : ρ} :
    t.first? p = some r ↔
      r ∈ t.rows ∧ p r = true ∧ ∀ r' ∈ t.rows, p r' = true → Row.id r ≤ Row.id r' := by
  constructor
  · intro h
    obtain ⟨hm, hp⟩ := first?_mem h
    refine ⟨hm, hp, fun r' hr' hp' => ?_⟩
    exact List.le_of_mem_argmin (List.mem_filter.mpr ⟨hr', hp'⟩) (Option.mem_def.mpr h)
  · rintro ⟨hm, hp, hle⟩
    cases hf : t.first? p with
    | none => simp [first?_eq_none.mp hf r hm] at hp
    | some r' =>
      obtain ⟨hm', hp'⟩ := first?_mem hf
      have h1 := hle r' hm' hp'
      have h2 : Row.id r' ≤ Row.id r :=
        List.le_of_mem_argmin (List.mem_filter.mpr ⟨hm, hp⟩) (Option.mem_def.mpr hf)
      rw [eq_of_id_eq hm' hm (le_antisymm h2 h1)]

/-- No row occurs twice. -/
theorem rows_nodup (t : Table ρ) : t.rows.Nodup := List.Nodup.of_map _ t.nodup

/-- Of the rows that satisfy a condition, those that were not selected are what is left. -/
theorem length_filter_unselected (t : Table ρ) {p : ρ → Bool} {l : List ρ} (hl : l.Nodup)
    (h : ∀ r ∈ l, r ∈ t.rows ∧ p r = true) :
    (t.rows.filter fun r => p r && !(l.map Row.id).contains (Row.id r)).length + l.length =
      (t.rows.filter p).length := by
  have hselected : ((t.rows.filter p).filter fun r => (l.map Row.id).contains (Row.id r)).Perm l := by
    refine (List.perm_ext_iff_of_nodup ?_ hl).mpr fun r => ?_
    · exact (t.rows_nodup.filter _).filter _
    · rw [List.mem_filter, List.mem_filter, List.contains_iff_mem, List.mem_map]
      constructor
      · rintro ⟨⟨hr, -⟩, r', hr', hid⟩
        rwa [← eq_of_id_eq (h r' hr').1 hr hid]
      · exact fun hr => ⟨h r hr, r, hr, rfl⟩
  have hsplit := List.length_eq_length_filter_add (l := t.rows.filter p)
    fun r => (l.map Row.id).contains (Row.id r)
  rw [hselected.length_eq, List.filter_filter] at hsplit
  rw [hsplit, Nat.add_comm]
  congr 2
  exact List.filter_congr fun r _ => Bool.and_comm _ _

/-! ## Lookups after a change -/

/-- Rewriting a row as itself changes nothing. -/
theorem modify_eq_self {t : Table ρ} {k : ℕ} {f : ρ → ρ} {hf}
    (h : ∀ r ∈ t.rows, Row.id r = k → f r = r) : t.modify k f hf = t := by
  apply Table.ext
  rw [rows_modify]
  conv_rhs => rw [← List.map_id t.rows]
  refine List.map_congr_left fun r hr => ?_
  split_ifs with hk
  · exact h r hr hk
  · rfl

/-- After a row is rewritten, the lookup of its key finds the rewritten row. -/
theorem find?_modify (t : Table ρ) (k j : ℕ) (f : ρ → ρ) (hf) :
    (t.modify k f hf).find? j = if j = k then (t.find? j).map f else t.find? j := by
  cases h : t.find? j with
  | none =>
    have h' : (t.modify k f hf).find? j = none := by
      rw [find?_eq_none, ids_modify]
      exact find?_eq_none.mp h
    rw [h']
    split_ifs <;> rfl
  | some r =>
    obtain ⟨hr, rfl⟩ := find?_eq_some.mp h
    split_ifs with hk
    · rw [Option.map_some, find?_eq_some]
      exact ⟨List.mem_map.mpr ⟨r, hr, by simp [hk]⟩, hf r⟩
    · rw [find?_eq_some]
      exact ⟨List.mem_map.mpr ⟨r, hr, by simp [hk]⟩, rfl⟩

/-- An insertion does not hide the rows that were there. -/
theorem find?_insert_of_ne (t : Table ρ) {hint k : ℕ} {mk : ℕ → ρ} (hmk) (h : k ≠ t.fresh hint) :
    (t.insert hint mk hmk).find? k = t.find? k := by
  simp only [find?, rows_insert, List.find?_append]
  cases t.rows.find? fun r => Row.id r = k with
  | none => simp [hmk, Ne.symm h]
  | some r => rfl

/-- An insertion can be looked up by the key handed out. -/
theorem find?_insert_self (t : Table ρ) (hint : ℕ) (mk : ℕ → ρ) (hmk) :
    (t.insert hint mk hmk).find? (t.fresh hint) = some (mk (t.fresh hint)) := by
  rw [find?_eq_some]
  exact ⟨by simp, hmk _⟩

/-- A condition that the new row does not meet finds what it found before. -/
theorem first?_insert_of_false (t : Table ρ) {hint : ℕ} {mk : ℕ → ρ} (hmk) {p : ρ → Bool}
    (h : p (mk (t.fresh hint)) = false) : (t.insert hint mk hmk).first? p = t.first? p := by
  simp [first?, List.filter_append, h]

/-- A condition that only the new row meets finds the new row. -/
theorem first?_insert_of_none (t : Table ρ) {hint : ℕ} {mk : ℕ → ρ} (hmk) {p : ρ → Bool}
    (h : t.first? p = none) (hp : p (mk (t.fresh hint)) = true) :
    (t.insert hint mk hmk).first? p = some (mk (t.fresh hint)) := by
  refine first?_unique (by simp) hp fun r' hr' hp' => ?_
  rw [rows_insert, List.mem_append, List.mem_singleton] at hr'
  rcases hr' with hr' | rfl
  · simp [first?_eq_none.mp h r' hr'] at hp'
  · rfl

/-- Rewriting a row in a way that a condition does not see moves the row it finds along. -/
theorem first?_modify (t : Table ρ) (k : ℕ) (f : ρ → ρ) (hf) {p : ρ → Bool}
    (hp : ∀ r ∈ t.rows, Row.id r = k → p (f r) = p r) :
    (t.modify k f hf).first? p =
      (t.first? p).map fun r => if Row.id r = k then f r else r := by
  have hid : ∀ r, Row.id (if Row.id r = k then f r else r) = Row.id r := by
    intro r
    split_ifs
    · exact hf r
    · rfl
  -- Neither the keys change, by which the rows are ordered, nor what the condition says of them.
  have hpp : ∀ r ∈ t.rows, p (if Row.id r = k then f r else r) = p r := by
    intro r hr
    split_ifs with h
    · exact hp r hr h
    · rfl
  cases h : t.first? p with
  | none =>
    rw [Option.map_none, first?_eq_none]
    intro r hr
    obtain ⟨r', hr', rfl⟩ := List.mem_map.mp hr
    rw [hpp r' hr']
    exact first?_eq_none.mp h r' hr'
  | some r =>
    obtain ⟨hm, hpr, hle⟩ := first?_eq_some.mp h
    rw [Option.map_some, first?_eq_some]
    refine ⟨List.mem_map.mpr ⟨r, hm, rfl⟩, by rw [hpp r hm]; exact hpr, fun r' hr' hp' => ?_⟩
    obtain ⟨r'', hr'', rfl⟩ := List.mem_map.mp hr'
    rw [hid, hid]
    exact hle r'' hr'' (by rwa [hpp r'' hr''] at hp')

end Table

end Bsg.Foundations
