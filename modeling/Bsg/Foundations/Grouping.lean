import Mathlib.Data.List.Chain
import Mathlib.Data.List.Induction

/-!
# Lists in groups

A list is cut into groups as it is read: an element goes into the last group when the first element
of that group takes it, and begins a group of its own otherwise (`grouped`). There is only one such
way to cut a list (`grouped_iff`).
-/

namespace Bsg.Foundations

variable {α : Type} (takes : α → α → Bool)

/-- Puts an element into the last group, or into one of its own. -/
def groupStep (groups : List (List α)) (x : α) : List (List α) :=
  match groups.getLast? with
  | some (first :: rest) =>
    if takes first x then groups.dropLast ++ [first :: rest ++ [x]] else groups ++ [[x]]
  | _ => groups ++ [[x]]

/-- The groups of a list. -/
def grouped (xs : List α) : List (List α) := xs.foldl (groupStep takes) []

/-- The first element of a group takes the others. -/
def IsGroup : List α → Prop
  | [] => False
  | first :: rest => ∀ x ∈ rest, takes first x = true

/-- Between two groups there is a break: the first element of the one does not take that of the
other. -/
def Breaks (g g' : List α) : Prop :=
  ∀ first ∈ g.head?, ∀ first' ∈ g'.head?, takes first first' = false

/-- The lists are groups, with breaks between them. -/
structure Groups (gs : List (List α)) : Prop where
  each : ∀ g ∈ gs, IsGroup takes g
  breaks : gs.IsChain (Breaks takes)

variable {takes}

/-- A group has a first element, which takes the others. -/
theorem IsGroup.exists_cons {g : List α} (h : IsGroup takes g) :
    ∃ first rest, g = first :: rest ∧ ∀ x ∈ rest, takes first x = true := by
  cases g with
  | nil => exact h.elim
  | cons first rest => exact ⟨first, rest, rfl, h⟩

/-- The next element joins the last group when its first element takes it. -/
theorem groupStep_snoc (gs : List (List α)) (first : α) (rest : List α) (x : α) :
    groupStep takes (gs ++ [first :: rest]) x =
      if takes first x then gs ++ [first :: (rest ++ [x])] else gs ++ [first :: rest] ++ [[x]] := by
  unfold groupStep
  rw [List.getLast?_concat, List.dropLast_concat]
  rfl

/-- Lists that are groups up to the last one, which is a group behind a break. -/
theorem groups_snoc {gs : List (List α)} {g : List α} :
    Groups takes (gs ++ [g]) ↔
      Groups takes gs ∧ IsGroup takes g ∧ ∀ last ∈ gs.getLast?, Breaks takes last g := by
  constructor
  · rintro ⟨heach, hbreaks⟩
    obtain ⟨hbefore, -, hlast⟩ := List.isChain_append.mp hbreaks
    exact ⟨⟨fun g' hg' => heach g' (List.mem_append_left _ hg'), hbefore⟩,
      heach g (List.mem_append_right _ List.mem_cons_self), fun last h => hlast last h g rfl⟩
  · rintro ⟨⟨heach, hbreaks⟩, hg, hlast⟩
    refine ⟨fun g' hg' => ?_, List.isChain_append.mpr ⟨hbreaks, List.isChain_singleton g, ?_⟩⟩
    · rcases List.mem_append.mp hg' with hold | hnew
      · exact heach g' hold
      · rwa [List.mem_singleton.mp hnew]
    · rintro last h g' ⟨⟩
      exact hlast last h

/-- A break depends on the first elements alone. -/
theorem breaks_cons {g : List α} {first : α} {rest rest' : List α}
    (h : Breaks takes g (first :: rest)) : Breaks takes g (first :: rest') := h

/-- An element more leaves groups, which have it at the end. -/
theorem groups_groupStep {gs : List (List α)} (h : Groups takes gs) (x : α) :
    Groups takes (groupStep takes gs x) ∧ (groupStep takes gs x).flatten = gs.flatten ++ [x] := by
  have halone : IsGroup takes [x] := fun _ h => by cases h
  cases gs using List.reverseRecOn with
  | nil => exact ⟨groups_snoc.mpr ⟨h, halone, fun _ h => by cases h⟩, rfl⟩
  | append_singleton gs g =>
    obtain ⟨hbefore, hg, hlast⟩ := groups_snoc.mp h
    obtain ⟨first, rest, rfl, htakes⟩ := hg.exists_cons
    rw [groupStep_snoc]
    by_cases hx : takes first x = true
    -- The last group grows, and the break before it stays.
    · have hmore : IsGroup takes (first :: (rest ++ [x])) := by
        intro y hy
        rcases List.mem_append.mp hy with hold | hnew
        · exact htakes y hold
        · rwa [List.mem_singleton.mp hnew]
      rw [if_pos hx]
      exact ⟨groups_snoc.mpr ⟨hbefore, hmore, fun last h => breaks_cons (hlast last h)⟩, by simp⟩
    · have hbreaks : ∀ last ∈ (gs ++ [first :: rest]).getLast?, Breaks takes last [x] := by
        intro last hlast'
        rw [List.getLast?_concat] at hlast'
        cases hlast'
        rintro first' ⟨⟩ x' ⟨⟩
        exact Bool.eq_false_iff.mpr hx
      rw [if_neg hx]
      exact ⟨groups_snoc.mpr ⟨h, halone, hbreaks⟩, by simp⟩

/-- The elements that the first of the last group takes all go there. -/
theorem foldl_groupStep {gs : List (List α)} {first : α} {rest : List α}
    (h : ∀ x ∈ rest, takes first x = true) (done : List α) :
    rest.foldl (groupStep takes) (gs ++ [first :: done]) = gs ++ [first :: (done ++ rest)] := by
  induction rest generalizing done with
  | nil => rw [List.append_nil, List.foldl_nil]
  | cons x rest ih =>
    have hrest := ih (fun y hy => h y (List.mem_cons_of_mem x hy)) (done ++ [x])
    rw [List.foldl_cons, groupStep_snoc, if_pos (h x List.mem_cons_self), hrest, List.append_assoc]
    rfl

/-- The groups are groups, and together they are the list. -/
theorem groups_grouped (xs : List α) :
    Groups takes (grouped takes xs) ∧ (grouped takes xs).flatten = xs := by
  induction xs using List.reverseRecOn with
  | nil => exact ⟨⟨(fun g hg => by cases hg), List.IsChain.nil⟩, rfl⟩
  | append_singleton xs x ih =>
    have hstep := groups_groupStep ih.1 x
    rw [grouped, List.foldl_append]
    change Groups takes (groupStep takes (grouped takes xs) x) ∧
      (groupStep takes (grouped takes xs) x).flatten = xs ++ [x]
    rwa [ih.2] at hstep

/-- Groups that are put together are found again. -/
theorem grouped_flatten {gs : List (List α)} (h : Groups takes gs) : grouped takes gs.flatten = gs := by
  induction gs using List.reverseRecOn with
  | nil => rfl
  | append_singleton gs g ih =>
    obtain ⟨hbefore, hg, hlast⟩ := groups_snoc.mp h
    obtain ⟨first, rest, rfl, htakes⟩ := hg.exists_cons
    -- The break before the last group makes its first element begin a group.
    have hnew : groupStep takes gs first = gs ++ [[first]] := by
      cases gs using List.reverseRecOn with
      | nil => rfl
      | append_singleton gs g' =>
        obtain ⟨first', rest', rfl, -⟩ := (groups_snoc.mp hbefore).2.1.exists_cons
        have hbreaks := hlast (first' :: rest') List.getLast?_concat first' rfl first rfl
        rw [groupStep_snoc, hbreaks, if_neg Bool.false_ne_true]
    have hflatten : (gs ++ [first :: rest]).flatten = gs.flatten ++ first :: rest := by simp
    rw [hflatten, grouped, List.foldl_append]
    change (first :: rest).foldl (groupStep takes) (grouped takes gs.flatten) = _
    rw [ih hbefore, List.foldl_cons, hnew, foldl_groupStep htakes]
    rfl

/-- The groups of a list are the only groups with breaks between them that make it up. -/
theorem grouped_iff {xs : List α} {gs : List (List α)} :
    grouped takes xs = gs ↔ Groups takes gs ∧ gs.flatten = xs := by
  constructor
  · rintro rfl
    exact groups_grouped xs
  · rintro ⟨hgroups, rfl⟩
    exact grouped_flatten hgroups

end Bsg.Foundations
