import Mathlib.Data.List.DropRight
import Mathlib.Data.Nat.Notation
import Mathlib.Tactic.Common

/-!
# Windows

A window of length `n` holds the last `n` of what was put into it, `l.rtake n`. It can be filled one
by one (`rtake_rtake_append`). Looking through a window at the entries of one kind is not the same
as having a window for that kind: `filter_rtake_iff` says when the two agree.
-/

namespace Bsg.Foundations

variable {α : Type} {l : List α} {n : ℕ}

/-- What the window has lost, and what it holds. -/
theorem rdrop_append_rtake (l : List α) (n : ℕ) :
    l.take (l.length - n) ++ l.rtake n = l := List.take_append_drop _ _

/-- The end of a list has as many elements as were asked for, if there are as many. -/
theorem length_rtake (l : List α) (n : ℕ) : (l.rtake n).length = min n l.length := by
  rw [List.rtake, List.length_drop]
  omega

/-- A window that is not full has lost nothing. -/
theorem rtake_of_length_le (h : l.length ≤ n) : l.rtake n = l := by
  rw [List.rtake, Nat.sub_eq_zero_of_le h, List.drop_zero]

/-- A full window holds nothing of what came before. -/
theorem rtake_append_of_le {l' : List α} (h : n ≤ l'.length) :
    (l ++ l').rtake n = l'.rtake n := by
  rw [List.rtake, List.rtake, List.length_append, List.drop_append,
    List.drop_eq_nil_of_le (by omega), List.nil_append]
  congr 1
  omega

/-- A window can be filled in steps. -/
theorem rtake_rtake_append (l l' : List α) (n : ℕ) :
    (l.rtake n ++ l').rtake n = (l ++ l').rtake n := by
  conv_rhs => rw [← rdrop_append_rtake l n, List.append_assoc]
  by_cases h : l.length ≤ n
  · rw [Nat.sub_eq_zero_of_le h, List.take_zero, List.nil_append]
  · refine (rtake_append_of_le ?_).symm
    rw [List.length_append, length_rtake]
    omega

/-- Through a window one sees the last entries of one kind exactly when all that it holds is of that
kind, or nothing of the kind came before. -/
theorem filter_rtake_iff (p : α → Bool) (l : List α) (n : ℕ) :
    (l.rtake n).filter p = (l.filter p).rtake n ↔
      (∀ x ∈ l.rtake n, p x = true) ∨ ∀ x ∈ l.take (l.length - n), p x = false := by
  have hlost : (l.take (l.length - n)).filter p = [] ↔
      ∀ x ∈ l.take (l.length - n), p x = false := by
    simp [List.filter_eq_nil_iff]
  have hsplit : l.filter p = (l.take (l.length - n)).filter p ++ (l.rtake n).filter p := by
    rw [← List.filter_append, rdrop_append_rtake]
  have hlength := length_rtake l n
  have hle : ((l.rtake n).filter p).length ≤ (l.rtake n).length := List.length_filter_le _ _
  rw [← hlost]
  constructor
  · intro h
    by_cases hnone : (l.take (l.length - n)).filter p = []
    · exact Or.inr hnone
    · -- The last `n` of the kind are as many as the window holds.
      left
      have hpos := List.length_pos_iff.mpr hnone
      have hmore := congrArg List.length hsplit
      rw [List.length_append] at hmore
      have hfull := congrArg List.length h
      rw [length_rtake] at hfull
      have hall : ((l.rtake n).filter p).length = (l.rtake n).length := by omega
      exact List.length_filter_eq_length_iff.mp hall
  · rintro (hall | hnone)
    · have hkept : (l.rtake n).filter p = l.rtake n := List.filter_eq_self.mpr hall
      rw [hsplit, hkept]
      by_cases h : l.length ≤ n
      · rw [Nat.sub_eq_zero_of_le h, List.take_zero, List.filter_nil, List.nil_append]
        exact (rtake_of_length_le (by omega)).symm
      · rw [rtake_append_of_le (by omega)]
        exact (rtake_of_length_le (by omega)).symm
    · rw [hsplit, hnone, List.nil_append]
      exact (rtake_of_length_le (by omega)).symm

end Bsg.Foundations
