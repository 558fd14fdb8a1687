import Mathlib.Data.List.Nodup
import Mathlib.Tactic.Common

/-!
# Writing rows by their keys

A table with a unique index is the list of its rows, with a key for each. `upsert` writes a row over
the one with its key, or adds it: INSERT with ON CONFLICT DO UPDATE. A list of rows is written in
`batches` of some length.

After several rows, a key has the last of those that were written for it (`rowsAt_upsertAll_last`),
or what it had before when there are none (`rowsAt_upsertAll_other`), and the index is still unique
(`nodup_upsertAll`).
-/

namespace Bsg.Foundations

section Upsert

variable {ρ κ : Type} [DecidableEq κ] (key : ρ → κ)

/-- The rows with a key. -/
def rowsAt (table : List ρ) (k : κ) : List ρ := table.filter fun row => decide (key row = k)

/-- Writes a row over the one with its key, or adds it. -/
def upsert (table : List ρ) (row : ρ) : List ρ :=
  if key row ∈ table.map key then table.map fun row' => if key row' = key row then row else row'
  else table ++ [row]

/-- Writes rows one after another. -/
def upsertAll (table : List ρ) (rows : List ρ) : List ρ := rows.foldl (upsert key) table

variable {key} {table : List ρ} {row : ρ} {k : κ}

/-- Without rows the table stays. -/
@[simp] theorem upsertAll_nil : upsertAll key table [] = table := rfl

/-- The first row is written first. -/
@[simp] theorem upsertAll_cons (rows : List ρ) :
    upsertAll key table (row :: rows) = upsertAll key (upsert key table row) rows := rfl

/-- Rows are written in their order. -/
theorem upsertAll_append (rows rows' : List ρ) :
    upsertAll key table (rows ++ rows') = upsertAll key (upsertAll key table rows) rows' :=
  List.foldl_append

/-- Writing over a row does not change its key. -/
theorem key_overwrite (row row' : ρ) : key (if key row' = key row then row else row') = key row' := by
  split_ifs with hsame
  · exact hsame.symm
  · rfl

/-- Only a key that is not there yet is added. -/
theorem map_key_upsert : (upsert key table row).map key =
    if key row ∈ table.map key then table.map key else table.map key ++ [key row] := by
  unfold upsert
  split_ifs with hold
  · rw [List.map_map]
    exact List.map_congr_left fun row' _ => key_overwrite row row'
  · exact List.map_append

/-- The index stays unique. -/
theorem nodup_upsert (h : (table.map key).Nodup) : ((upsert key table row).map key).Nodup := by
  rw [map_key_upsert]
  split_ifs with hold
  · exact h
  · exact List.nodup_append_comm.mp (List.nodup_cons.mpr ⟨hold, h⟩)

/-- The other keys keep their rows. -/
theorem rowsAt_upsert_ne (hk : key row ≠ k) :
    rowsAt key (upsert key table row) k = rowsAt key table k := by
  unfold rowsAt upsert
  split_ifs with hold
  · rw [List.filter_map]
    have hfilter : table.filter ((fun row' => decide (key row' = k)) ∘
        fun row' => if key row' = key row then row else row') =
          table.filter fun row' => decide (key row' = k) := by
      refine List.filter_congr fun row' _ => ?_
      exact congrArg (fun k' => decide (k' = k)) (key_overwrite row row')
    rw [hfilter]
    refine (List.map_congr_left fun row' hrow' => ?_).trans (List.map_id _)
    have hkey : key row' = k := of_decide_eq_true (List.mem_filter.mp hrow').2
    exact if_neg fun hsame => hk (hsame.symm.trans hkey)
  · rw [List.filter_append, List.filter_singleton, decide_eq_false hk]
    exact List.append_nil _

/-- Where the index is unique, a key has one row, or none. -/
theorem rowsAt_of_mem (h : (table.map key).Nodup) (hrow : row ∈ table) :
    rowsAt key table (key row) = [row] := by
  obtain ⟨before, after, rfl⟩ := List.append_of_mem hrow
  rw [List.map_append, List.map_cons] at h
  obtain ⟨-, hafter, hdisjoint⟩ := List.nodup_append.mp h
  have hnone : ∀ rows : List ρ, (∀ row' ∈ rows, key row' ≠ key row) → rowsAt key rows (key row) = [] :=
    fun rows hne => List.filter_eq_nil_iff.mpr fun row' hrow' htrue =>
      hne row' hrow' (of_decide_eq_true htrue)
  have hfirst : rowsAt key before (key row) = [] := hnone before fun row' hrow' =>
    hdisjoint _ (List.mem_map_of_mem hrow') _ List.mem_cons_self
  have hlast : rowsAt key after (key row) = [] := hnone after fun row' hrow' hsame =>
    (List.nodup_cons.mp hafter).1 (hsame ▸ List.mem_map_of_mem hrow')
  unfold rowsAt at hfirst hlast ⊢
  rw [List.filter_append, List.filter_cons_of_pos (by simp), hfirst, hlast]
  rfl

/-- The row that is written is there. -/
theorem mem_upsert : row ∈ upsert key table row := by
  unfold upsert
  split_ifs with hold
  · obtain ⟨row', hrow', hsame⟩ := List.mem_map.mp hold
    exact List.mem_map.mpr ⟨row', hrow', if_pos hsame⟩
  · exact List.mem_append_right _ List.mem_cons_self

/-- A row that was written is the only one with its key. -/
theorem rowsAt_upsert_self (h : (table.map key).Nodup) :
    rowsAt key (upsert key table row) (key row) = [row] :=
  rowsAt_of_mem (nodup_upsert h) mem_upsert

/-- Writing the row that a key has changes nothing. -/
theorem upsert_of_rowsAt (h : rowsAt key table (key row) = [row]) : upsert key table row = table := by
  have hrow : row ∈ table := List.mem_of_mem_filter (h ▸ List.mem_singleton_self row)
  unfold upsert
  rw [if_pos (List.mem_map_of_mem hrow)]
  refine (List.map_congr_left fun row' hrow' => ?_).trans (List.map_id table)
  split_ifs with hsame
  · have hmem : row' ∈ rowsAt key table (key row) :=
      List.mem_filter.mpr ⟨hrow', decide_eq_true hsame⟩
    rw [h] at hmem
    exact (List.mem_singleton.mp hmem).symm
  · rfl

/-- No key is stored twice. -/
theorem nodup_upsertAll : ∀ (rows : List ρ) {table : List ρ}, (table.map key).Nodup →
    ((upsertAll key table rows).map key).Nodup
  | [], _, h => h
  | _ :: rows, _, h => nodup_upsertAll rows (nodup_upsert h)

/-- A key for which nothing is written keeps its rows. -/
theorem rowsAt_upsertAll_other : ∀ (rows : List ρ) {table : List ρ},
    (∀ row ∈ rows, key row ≠ k) → rowsAt key (upsertAll key table rows) k = rowsAt key table k
  | [], _, _ => rfl
  | row :: rows, table, h => by
    rw [upsertAll_cons,
      rowsAt_upsertAll_other rows fun row' hrow' => h row' (List.mem_cons_of_mem row hrow'),
      rowsAt_upsert_ne (h row List.mem_cons_self)]

/-- A key has the last row that was written for it. -/
theorem rowsAt_upsertAll_last (key : ρ → κ) (row : ρ) {before after : List ρ} (h : (table.map key).Nodup)
    (hafter : ∀ row' ∈ after, key row' ≠ key row) :
    rowsAt key (upsertAll key table (before ++ row :: after)) (key row) = [row] := by
  rw [upsertAll_append, upsertAll_cons, rowsAt_upsertAll_other after hafter,
    rowsAt_upsert_self (nodup_upsertAll before h)]

/-- The keys of the table come from the table before or from the rows. -/
theorem mem_map_key_upsertAll : ∀ (rows : List ρ) {table : List ρ},
    k ∈ (upsertAll key table rows).map key → k ∈ table.map key ∨ k ∈ rows.map key
  | [], _, h => Or.inl h
  | row :: rows, table, h => by
    rw [List.map_cons, List.mem_cons]
    rcases mem_map_key_upsertAll rows h with hmem | hmem
    · rw [map_key_upsert] at hmem
      split_ifs at hmem with hold
      · exact Or.inl hmem
      · rcases List.mem_append.mp hmem with hmem | hnew
        · exact Or.inl hmem
        · exact Or.inr (Or.inl (List.mem_singleton.mp hnew))
    · exact Or.inr (Or.inr hmem)

end Upsert

section Batches

variable {α : Type}

/-- The pieces of a list, all but the last of the same length; the first argument bounds how many
there are. -/
def batchesUpTo (size : ℕ) : ℕ → List α → List (List α)
  | 0, _ => []
  | _ + 1, [] => []
  | fuel + 1, items => items.take size :: batchesUpTo size fuel (items.drop size)

/-- The pieces of a list: no more than it has elements. -/
def batches (size : ℕ) (items : List α) : List (List α) := batchesUpTo size items.length items

/-- Nothing is lost in pieces that are not empty. -/
theorem flatten_batchesUpTo {size : ℕ} (hsize : 0 < size) : ∀ (fuel : ℕ) {items : List α},
    items.length ≤ fuel → (batchesUpTo size fuel items).flatten = items
  | 0, items, h => by
    rw [List.eq_nil_of_length_eq_zero (Nat.le_zero.mp h)]
    rfl
  | fuel + 1, [], _ => rfl
  | fuel + 1, item :: items, h => by
    have hrest : ((item :: items).drop size).length ≤ fuel := by
      rw [List.length_drop]
      omega
    show (item :: items).take size ++
      (batchesUpTo size fuel ((item :: items).drop size)).flatten = item :: items
    rw [flatten_batchesUpTo hsize fuel hrest, List.take_append_drop]

/-- The batches are the items in their order. -/
theorem flatten_batches {size : ℕ} (hsize : 0 < size) (items : List α) :
    (batches size items).flatten = items := flatten_batchesUpTo hsize _ (Nat.le_refl _)

end Batches

end Bsg.Foundations
