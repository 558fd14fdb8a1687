import Mathlib.Data.List.Infix
import Mathlib.Tactic.Common

/-!
# Searching for a word

A search takes the first occurrence of a word, and when this one is not accepted it goes on behind
it (`scan`). So it passes over the occurrences that start inside another one. When no occurrence of
that kind is to be accepted, the search finds one exactly when there is one (`scan_iff`).
-/

namespace Bsg.Foundations.Search

variable {α : Type*} [DecidableEq α]

/-- The word occurs in the text at this position. -/
def OccursAt (text word : List α) (i : ℕ) : Prop := word <+: text.drop i

instance (text word : List α) : DecidablePred (OccursAt text word) :=
  fun i => inferInstanceAs (Decidable (word <+: text.drop i))

/-- The first position at which the word occurs. -/
def index (text word : List α) : Option ℕ :=
  (List.range (text.length + 1)).find? fun i => decide (OccursAt text word i)

section Occurrences

variable {text word : List α} (hword : word ≠ [])

omit [DecidableEq α] in
include hword in
/-- An occurrence ends within the text. -/
theorem OccursAt.end_le {i : ℕ} (h : OccursAt text word i) : i + word.length ≤ text.length := by
  have hlength := h.length_le
  have hpos := List.length_pos_iff.mpr hword
  rw [List.length_drop] at hlength
  omega

omit [DecidableEq α] in
/-- What occurs in the rest of a text occurs in the text. -/
theorem occursAt_drop {start i : ℕ} :
    OccursAt (text.drop start) word i ↔ OccursAt text word (start + i) := by
  unfold OccursAt
  rw [List.drop_drop]

omit [DecidableEq α] in
/-- An occurrence has a text before it and a text behind it. -/
theorem OccursAt.split {i : ℕ} (h : OccursAt text word i) :
    ∃ rest, text = text.take i ++ (word ++ rest) := by
  obtain ⟨rest, hrest⟩ := h
  exact ⟨rest, by rw [hrest, List.take_append_drop]⟩

/-- What is found is the first occurrence. -/
theorem index_eq_some {m : ℕ} (h : index text word = some m) :
    OccursAt text word m ∧ ∀ i < m, ¬ OccursAt text word i := by
  obtain ⟨hoccurs, -, hfirst⟩ := List.find?_range_eq_some.mp h
  refine ⟨of_decide_eq_true hoccurs, fun i hi hearlier => ?_⟩
  have hnot := hfirst i hi
  rw [decide_eq_true hearlier] at hnot
  cases hnot

include hword in
/-- The first occurrence is found. -/
theorem index_of_first {m : ℕ} (h : OccursAt text word m) (hfirst : ∀ i < m, ¬ OccursAt text word i) :
    index text word = some m := by
  have hend := h.end_le hword
  have hpos := List.length_pos_iff.mpr hword
  refine List.find?_range_eq_some.mpr ⟨decide_eq_true h, List.mem_range.mpr (by omega), ?_⟩
  intro i hi
  rw [decide_eq_false (hfirst i hi)]
  rfl

include hword in

/-- When nothing is found there is no occurrence. -/
theorem index_eq_none (h : index text word = none) (i : ℕ) : ¬ OccursAt text word i := by
  intro hoccurs
  have hend := hoccurs.end_le hword
  have hpos := List.length_pos_iff.mpr hword
  have hnot := List.find?_range_eq_none.mp h i (by omega)
  rw [decide_eq_true hoccurs] at hnot
  cases hnot

end Occurrences

/-! ## The search -/

/-- Does a search from this position on meet an occurrence that is accepted? It goes on at the end
of each that is not. -/
def scan (text word : List α) (hword : word ≠ []) (accepts : ℕ → Bool) (start : ℕ) : Bool :=
  match _h : index (text.drop start) word with
  | none => false
  | some m => accepts (start + m) || scan text word hword accepts (start + m + word.length)
termination_by text.length - start
decreasing_by
  have hend := (occursAt_drop.mp (index_eq_some ‹_›).1).end_le hword
  have hpos := List.length_pos_iff.mpr hword
  omega

/-- When no accepted occurrence starts inside another occurrence, the search meets one exactly when
there is one. -/
theorem scan_iff {text word : List α} (hword : word ≠ []) {accepts : ℕ → Bool}
    (hapart : ∀ i j, OccursAt text word i → OccursAt text word j → accepts j = true → i < j →
      i + word.length ≤ j) (start : ℕ) :
    scan text word hword accepts start = true ↔
      ∃ i, start ≤ i ∧ OccursAt text word i ∧ accepts i = true := by
  fun_induction scan text word hword accepts start with
  | case1 start hnone =>
    refine iff_of_false Bool.false_ne_true ?_
    rintro ⟨i, hle, hoccurs, -⟩
    refine index_eq_none hword hnone (i - start) (occursAt_drop.mpr ?_)
    rwa [Nat.add_sub_cancel' hle]
  | case2 start m hsome ih =>
    obtain ⟨hoccurs, hfirst⟩ := index_eq_some hsome
    rw [occursAt_drop] at hoccurs
    rw [Bool.or_eq_true, ih]
    constructor
    · rintro (haccepted | ⟨i, hle, hi, haccepted⟩)
      · exact ⟨start + m, Nat.le_add_right start m, hoccurs, haccepted⟩
      · exact ⟨i, by omega, hi, haccepted⟩
    · rintro ⟨i, hle, hi, haccepted⟩
      -- No occurrence comes before the first one, and an accepted one not inside it.
      have hge : start + m ≤ i := by
        by_contra hlt
        refine hfirst (i - start) (by omega) (occursAt_drop.mpr ?_)
        rwa [Nat.add_sub_cancel' hle]
      rcases hge.eq_or_lt with heq | hlt
      · rw [heq]
        exact Or.inl haccepted
      · exact Or.inr ⟨i, hapart _ i hoccurs hi haccepted hlt, hi, haccepted⟩

end Bsg.Foundations.Search
