import Mathlib.Data.List.Basic
import Mathlib.Tactic.Common

/-!
# Patterns with wildcards

A pattern is a list of symbols: a letter, a wildcard for one letter, or a wildcard for any number of
them. `Matches` says what texts a pattern matches as a whole; the rules below take a pattern apart
from its front.

The last part is about texts that a separator cuts into words: what stands between two neighbouring
separators is one of the words (`between_iff`).
-/

namespace Bsg.Foundations

variable {α : Type}

/-- A symbol of a pattern. -/
inductive Symbol (α : Type) where
  | lit (a : α)
  | one
  | many

/-- The pattern matches the whole text. -/
def Matches : List (Symbol α) → List α → Prop
  | [], s => s = []
  | .lit a :: g, s => ∃ s', s = a :: s' ∧ Matches g s'
  | .one :: g, s => ∃ a s', s = a :: s' ∧ Matches g s'
  | .many :: g, s => ∃ u v, s = u ++ v ∧ Matches g v

section Matches

variable {g : List (Symbol α)} {a b : α} {s : List α}

/-- The empty pattern matches the empty text. -/
@[simp] theorem matches_nil : Matches ([] : List (Symbol α)) s ↔ s = [] := Iff.rfl

/-- A wildcard takes any part from the front. -/
theorem matches_many : Matches (.many :: g) s ↔ ∃ u v, s = u ++ v ∧ Matches g v := Iff.rfl

/-- A letter does not match nothing. -/
@[simp] theorem matches_lit_nil : ¬ Matches (.lit a :: g) [] := by
  rintro ⟨_, ⟨⟩, -⟩

/-- A letter takes itself from the front. -/
@[simp] theorem matches_lit_cons : Matches (.lit a :: g) (b :: s) ↔ a = b ∧ Matches g s := by
  constructor
  · rintro ⟨s', heq, h⟩
    cases heq
    exact ⟨rfl, h⟩
  · rintro ⟨rfl, h⟩
    exact ⟨s, rfl, h⟩

/-- A wildcard for one letter does not match nothing. -/
@[simp] theorem matches_one_nil : ¬ Matches (.one :: g) ([] : List α) := by
  rintro ⟨_, _, ⟨⟩, -⟩

/-- A wildcard for one letter takes any letter from the front. -/
@[simp] theorem matches_one_cons : Matches (.one :: g) (b :: s) ↔ Matches g s := by
  constructor
  · rintro ⟨a, s', heq, h⟩
    cases heq
    exact h
  · exact fun h => ⟨b, s, rfl, h⟩

/-- A wildcard at the end matches whatever is left. -/
@[simp] theorem matches_many_nil : Matches [.many] s := ⟨s, [], (List.append_nil s).symm, rfl⟩

/-- What comes before a match of a wildcard for any number of letters is part of it. -/
theorem Matches.many_append (h : Matches (.many :: g) s) (u : List α) :
    Matches (.many :: g) (u ++ s) := by
  obtain ⟨u', v, rfl, h⟩ := h
  exact ⟨u ++ u', v, (List.append_assoc u u' v).symm, h⟩

/-- A word of letters matches itself. -/
theorem matches_word : ∀ {w s : List α},
    Matches (w.map Symbol.lit ++ g) s ↔ ∃ s', s = w ++ s' ∧ Matches g s'
  | [], s => by simp
  | a :: w, [] => by simp
  | a :: w, b :: s => by
    rw [List.map_cons, List.cons_append, matches_lit_cons, matches_word]
    constructor
    · rintro ⟨rfl, s', rfl, h⟩
      exact ⟨s', rfl, h⟩
    · rintro ⟨s', heq, h⟩
      cases heq
      exact ⟨rfl, s', rfl, h⟩

end Matches

/-! ## Separated words -/

section Between

variable {q : α} {a s t u w : List α}

/-- The first separator comes after the first word. -/
theorem separator_cases : ∀ {a u : List α}, q ∉ a → a ++ q :: s = u ++ q :: t →
    (u = a ∧ t = s) ∨ ∃ u', u = a ++ q :: u' ∧ s = u' ++ q :: t
  | [], [], _, h => by
    cases h
    exact Or.inl ⟨rfl, rfl⟩
  | [], b :: u, _, h => by
    cases h
    exact Or.inr ⟨u, rfl, rfl⟩
  | b :: a, [], ha, h => by
    cases h
    exact absurd List.mem_cons_self ha
  | b :: a, c :: u, ha, h => by
    obtain ⟨rfl, hrest⟩ := List.cons.inj h
    rcases separator_cases (fun hmem => ha (List.mem_cons_of_mem _ hmem)) hrest with
      ⟨rfl, rfl⟩ | ⟨u', rfl, rfl⟩
    · exact Or.inl ⟨rfl, rfl⟩
    · exact Or.inr ⟨u', rfl, rfl⟩

/-- The text of words that are each followed by the separator. -/
def separated (q : α) (ws : List (List α)) : List α := ws.flatMap fun w => w ++ [q]

/-- Words are written with the separator after the first. -/
theorem separated_cons (q : α) (w : List α) (ws : List (List α)) :
    separated q (w :: ws) = w ++ q :: separated q ws := by
  simp [separated]

/-- The first word is what comes before the first separator. -/
theorem separated_starts {ws : List (List α)} {z v : List α} (hz : q ∉ z) (hws : ∀ x ∈ ws, q ∉ x)
    (hw : q ∉ w) (h : separated q ws ++ z = w ++ q :: v) : ∃ ws', ws = w :: ws' := by
  cases ws with
  | nil =>
    have hmem : q ∈ z := by
      have hz' : z = w ++ q :: v := h
      rw [hz']
      exact List.mem_append_right _ List.mem_cons_self
    exact absurd hmem hz
  | cons x ws =>
    rw [separated_cons, List.append_assoc, List.cons_append] at h
    rcases separator_cases (hws x List.mem_cons_self) h with ⟨rfl, -⟩ | ⟨u', rfl, -⟩
    · exact ⟨ws, rfl⟩
    · exact absurd (List.mem_append_right x List.mem_cons_self) hw

/-- What stands between two neighbouring separators is one of the words but the first, and each of
these stands between two. -/
theorem between_iff : ∀ {ws : List (List α)} {z : List α}, q ∉ z → (∀ x ∈ ws, q ∉ x) → q ∉ w →
    ((∃ u v, separated q ws ++ z = u ++ q :: (w ++ q :: v)) ↔ w ∈ ws.tail)
  | [], z, hz, _, _ => by
    refine iff_of_false ?_ List.not_mem_nil
    rintro ⟨u, v, h⟩
    have hz' : z = u ++ q :: (w ++ q :: v) := h
    rw [hz'] at hz
    exact hz (List.mem_append_right _ List.mem_cons_self)
  | x :: ws, z, hz, hws, hw => by
    have hrest : (∃ u v, separated q ws ++ z = u ++ q :: (w ++ q :: v)) ↔ w ∈ ws.tail :=
      between_iff hz (fun y hy => hws y (List.mem_cons_of_mem _ hy)) hw
    rw [List.tail_cons, separated_cons, List.append_assoc, List.cons_append]
    constructor
    · rintro ⟨u, v, h⟩
      rcases separator_cases (hws x List.mem_cons_self) h with ⟨-, h⟩ | ⟨u', -, h⟩
      -- The first separator is the one of the first word.
      · obtain ⟨ws', rfl⟩ := separated_starts hz (fun y hy => hws y (List.mem_cons_of_mem _ hy)) hw
          h.symm
        exact List.mem_cons_self
      · exact List.mem_of_mem_tail (hrest.mp ⟨u', v, h⟩)
    · intro hmem
      cases ws with
      | nil => cases hmem
      | cons y ws =>
        rcases List.mem_cons.mp hmem with rfl | hmem
        · refine ⟨x, separated q ws ++ z, ?_⟩
          rw [separated_cons, List.append_assoc, List.cons_append]
        · obtain ⟨u, v, h⟩ := hrest.mpr hmem
          exact ⟨x ++ q :: u, v, by rw [h, List.append_assoc, List.cons_append]⟩

end Between

end Bsg.Foundations
