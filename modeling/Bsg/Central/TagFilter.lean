import Bsg.Central.Problems
import Bsg.Foundations.Wildcard
import Mathlib.Data.List.Infix
import Mathlib.Data.Set.Basic

/-!
# The tag filter

`applyTagFilters` looks for a requested tag, between quotation marks, in the JSON text of the tags
of a problem, after `escapeLikePattern` prepared it for `LIKE`.

`findsTagged_iff` says for which tags this is exact. The catalogue may have tags over any alphabet
without a quotation mark, and then the tags that are found up to the case of their letters, and no
others, are those that have no special character (`Plain`: one that JSON or `LIKE` does not write as
itself), except the lone comma. Every other tag misses a problem with this very tag, or finds one
that does not have it.

For a plain tag the reason is that its pattern is a word between two quotation marks
(`found_plain`). For the others, the first special character decides: the pattern does not fit the
JSON text of the same tag (`stuck`), unless that character is a pair of backslashes, of which the
pattern eats only half; then the pattern also fits the text of a tag with more backslashes (`lag`).
-/

namespace Bsg.Central

open Bsg.Foundations

/-! ## `LIKE` -/

/-- The symbols of a pattern; a backslash takes away the meaning of what follows it. -/
def symbols : List Char → List (Symbol Char)
  | [] => []
  | '%' :: pattern => .many :: symbols pattern
  | '_' :: pattern => .one :: symbols pattern
  | '\\' :: c :: pattern => .lit c :: symbols pattern
  | c :: pattern => .lit c :: symbols pattern

/-- What does not match the empty text matches no beginning of it. -/
theorem not_beginning_nil {symbols : List (Symbol Char)} (h : ¬ Matches symbols []) (v : List Char) :
    ¬ ∃ u, [] = u ++ v ∧ Matches symbols u := by
  rintro ⟨u, heq, hmatch⟩
  have hu : u = [] := (List.append_eq_nil_iff.mp heq.symm).1
  rw [hu] at hmatch
  exact h hmatch

/-- What a letter of a pattern leaves of a text. -/
theorem mem_letterRest {pattern : List Char} (c : Char)
    (ih : ∀ text v : List Char, v ∈ likeRest pattern text ↔
      ∃ u, text = u ++ v ∧ Matches (symbols pattern) u) (text v : List Char) :
    (v ∈ match text with
      | [] => []
      | c' :: text => if c = c' then likeRest pattern text else []) ↔
      ∃ u, text = u ++ v ∧ Matches (.lit c :: symbols pattern) u := by
  cases text with
  | nil => exact iff_of_false List.not_mem_nil (not_beginning_nil matches_lit_nil v)
  | cons c' text =>
    dsimp only
    split_ifs with hc
    · subst hc
      rw [ih]
      constructor
      · rintro ⟨u, rfl, hmatch⟩
        exact ⟨c :: u, rfl, matches_lit_cons.mpr ⟨rfl, hmatch⟩⟩
      · rintro ⟨u, heq, u', rfl, hmatch⟩
        cases heq
        exact ⟨u', rfl, hmatch⟩
    · refine iff_of_false List.not_mem_nil ?_
      rintro ⟨u, heq, u', rfl, hmatch⟩
      cases heq
      exact hc rfl

/-- What a pattern leaves of a text is what comes after a match. -/
theorem mem_likeRest (pattern : List Char) : ∀ text v : List Char,
    v ∈ likeRest pattern text ↔ ∃ u, text = u ++ v ∧ Matches (symbols pattern) u := by
  induction pattern using symbols.induct with
  | case1 =>
    intro text v
    simp [likeRest, symbols, eq_comm]
  | case2 pattern ih =>
    -- The wildcard takes any beginning of the text.
    intro text v
    rw [likeRest, symbols, List.mem_flatMap]
    constructor
    · rintro ⟨text', hsuffix, hrest⟩
      obtain ⟨x, rfl⟩ := (List.mem_tails text' text).mp hsuffix
      obtain ⟨u, rfl, hmatch⟩ := (ih text' v).mp hrest
      exact ⟨x ++ u, (List.append_assoc x u v).symm, x, u, rfl, hmatch⟩
    · rintro ⟨_, rfl, x, u, rfl, hmatch⟩
      refine ⟨u ++ v, (List.mem_tails _ _).mpr ⟨x, (List.append_assoc x u v).symm⟩, ?_⟩
      exact (ih _ v).mpr ⟨u, rfl, hmatch⟩
  | case3 pattern ih =>
    intro text v
    rw [symbols]
    cases text with
    | nil => exact iff_of_false List.not_mem_nil (not_beginning_nil matches_one_nil v)
    | cons c text =>
      rw [likeRest, ih]
      constructor
      · rintro ⟨u, rfl, hmatch⟩
        exact ⟨c :: u, rfl, matches_one_cons.mpr hmatch⟩
      · rintro ⟨u, heq, c', u', rfl, hmatch⟩
        cases heq
        exact ⟨u', rfl, hmatch⟩
  | case4 c pattern ih =>
    intro text v
    rw [likeRest.eq_def]
    exact mem_letterRest c ih text v
  | case5 c pattern hmany hone hescape ih =>
    intro text v
    have hletter := mem_letterRest c ih text v
    rw [likeRest.eq_def, symbols]
    · split
      -- The other branches are for other symbols.
      · simp_all
      · simp_all
      · simp_all
      · simp_all
      · rename_i heq
        obtain ⟨rfl, rfl⟩ := List.cons.inj heq
        exact hletter
    · exact hmany
    · exact hone
    · exact hescape

/-- `LIKE` is a match of the whole text. -/
theorem like_iff {text pattern : List Char} :
    like text pattern = true ↔ Matches (symbols pattern) text := by
  unfold like
  rw [List.any_eq_true]
  constructor
  · rintro ⟨v, hv, hempty⟩
    obtain ⟨u, rfl, hmatch⟩ := (mem_likeRest pattern text v).mp hv
    have hnil : v = [] := List.isEmpty_iff.mp hempty
    rwa [hnil, List.append_nil]
  · intro hmatch
    refine ⟨[], (mem_likeRest pattern text []).mpr ⟨text, ?_, hmatch⟩, rfl⟩
    exact (List.append_nil text).symm

/-! ## Characters -/

/-- A character that JSON and `LIKE` write as itself. -/
def Plain (c : Char) : Prop := Json.escapeChar c = [c] ∧ c ≠ '%' ∧ c ≠ '_'

instance (c : Char) : Decidable (Plain c) := inferInstanceAs (Decidable (_ ∧ _ ∧ _))

/-- Changing the case of letters leaves special characters and the comma alone, and makes none. -/
def KeepsMarks (lower : Char → Char) : Prop :=
  ∀ d, ¬ Plain d ∨ d = ',' → ∀ c, lower c = d ↔ c = d

/-- A special character other than the two wildcards is escaped in JSON. -/
theorem escapeChar_of_not_plain {c : Char} (h : ¬ Plain c) (hmany : c ≠ '%') (hone : c ≠ '_') :
    ∃ e, Json.escapeChar c = '\\' :: e := by
  have hself : Json.escapeChar c ≠ [c] := fun heq => h ⟨heq, hmany, hone⟩
  exact (Json.escapeChar_cases c).resolve_left hself

section Lower

variable {lower : Char → Char} (h : KeepsMarks lower) {c : Char}

include h

/-- A letter with a meaning of its own is lowered to itself. -/
theorem KeepsMarks.fixed (hc : ¬ Plain c) : lower c = c := (h c (Or.inl hc) c).mpr rfl

/-- Nothing else is lowered to such a letter. -/
theorem KeepsMarks.ne {d : Char} (hd : ¬ Plain d) (hc : c ≠ d) : lower c ≠ d := fun heq =>
  hc ((h d (Or.inl hd) c).mp heq)

/-- A plain letter is lowered to a plain letter. -/
theorem KeepsMarks.plain (hc : Plain c) : Plain (lower c) := by
  by_contra hnot
  have hsame : c = lower c := (h (lower c) (Or.inl hnot) c).mp rfl
  rw [← hsame] at hnot
  exact hnot hc

/-- Only a backslash is lowered to one. -/
theorem KeepsMarks.eq_backslash (hc : lower c = '\\') : c = '\\' :=
  (h '\\' (Or.inl (by decide)) c).mp hc

/-- No pair of backslashes comes from changing the case of letters. -/
theorem KeepsMarks.not_pair {t : List Char} (hpair : ∀ cs, c = '\\' → t = '\\' :: cs → False) :
    ∀ cs, lower c = '\\' → t.map lower = '\\' :: cs → False := by
  intro cs hfirst hsecond
  cases t with
  | nil => cases hsecond
  | cons d t =>
    obtain ⟨hd, -⟩ := List.cons.inj hsecond
    exact hpair t (h.eq_backslash hfirst) (by rw [h.eq_backslash hd])

/-- Escaping for `LIKE` does not depend on the case of letters. -/
theorem map_escapeLikePattern (t : List Char) :
    (escapeLikePattern t).map lower = escapeLikePattern (t.map lower) := by
  have hbackslash : lower '\\' = '\\' := h.fixed (by decide)
  have hmany : lower '%' = '%' := h.fixed (by decide)
  have hone : lower '_' = '_' := h.fixed (by decide)
  induction t using escapeLikePattern.induct with
  | case1 t ih => simp only [escapeLikePattern, List.map_cons, hbackslash, ih]
  | case2 t ih => simp only [escapeLikePattern, List.map_cons, hbackslash, hmany, ih]
  | case3 t ih => simp only [escapeLikePattern, List.map_cons, hbackslash, hone, ih]
  | case4 c t hpair hc hc' ih =>
    have hlower := escapeLikePattern.eq_4 (lower c) (t.map lower) (h.not_pair hpair)
      (h.ne (by decide) hc) (h.ne (by decide) hc')
    rw [escapeLikePattern.eq_4 c t hpair hc hc', List.map_cons, List.map_cons, ih, hlower]
  | case5 => rfl

end Lower

/-! ## Patterns -/

/-- The symbols of the pattern for a tag, from behind the opening quotation mark. -/
def closing (t : List Char) : List (Symbol Char) := symbols (escapeLikePattern t ++ ['"', '%'])

/-- The end of the tag is followed by the closing quote, and by anything. -/
@[simp] theorem closing_nil : closing [] = [.lit '"', .many] := rfl

/-- Two backslashes stand for two. -/
@[simp] theorem closing_pair (t : List Char) :
    closing ('\\' :: '\\' :: t) = .lit '\\' :: .lit '\\' :: closing t := rfl

/-- A percent sign becomes a backslash, as a letter, and a wildcard. -/
@[simp] theorem closing_percent (t : List Char) :
    closing ('%' :: t) = .lit '\\' :: .many :: closing t := rfl

/-- An underscore becomes a backslash, as a letter, and a wildcard for one letter. -/
@[simp] theorem closing_underscore (t : List Char) :
    closing ('_' :: t) = .lit '\\' :: .one :: closing t := rfl

/-- Every other letter stands for itself. -/
theorem closing_letter {c : Char} (t : List Char) (hc : c ≠ '\\') (hmany : c ≠ '%')
    (hone : c ≠ '_') : closing (c :: t) = .lit c :: closing t := by
  unfold closing
  rw [escapeLikePattern.eq_4 c t (fun _ h => absurd h hc) hmany hone, List.cons_append,
    symbols.eq_5 c _ hmany hone fun _ _ h => absurd h hc]

/-- A single backslash escapes what follows it. -/
theorem closing_escaped {c : Char} (t : List Char) (hc : c ≠ '\\') (hmany : c ≠ '%')
    (hone : c ≠ '_') : closing ('\\' :: c :: t) = .lit c :: closing t := by
  unfold closing
  rw [escapeLikePattern.eq_4 '\\' (c :: t) (fun _ _ h => hc (List.cons.inj h).1) (by decide)
    (by decide), escapeLikePattern.eq_4 c t (fun _ h => absurd h hc) hmany hone]
  rfl

/-- No pattern for a tag begins with an underscore. -/
theorem not_matches_underscore (t s : List Char) : ¬ Matches (closing t) ('_' :: s) := by
  intro hmatch
  rcases t with _ | ⟨c, t⟩
  · simp at hmatch
  by_cases hmany : c = '%'
  · subst hmany
    simp at hmatch
  by_cases hone : c = '_'
  · subst hone
    simp at hmatch
  by_cases hc : c = '\\'
  swap
  · rw [closing_letter t hc hmany hone, matches_lit_cons] at hmatch
    exact hone hmatch.1
  -- What a backslash escapes is not an underscore, as that has another backslash before it.
  subst hc
  rcases t with _ | ⟨d, t⟩
  · exact absurd (matches_lit_cons.mp hmatch).1 (by decide)
  by_cases hpair : d = '\\'
  · subst hpair
    simp at hmatch
  by_cases hmany' : d = '%'
  · subst hmany'
    exact absurd (matches_lit_cons.mp hmatch).1 (by decide)
  by_cases hone' : d = '_'
  · subst hone'
    exact absurd (matches_lit_cons.mp hmatch).1 (by decide)
  · rw [closing_escaped t hpair hmany' hone', matches_lit_cons] at hmatch
    exact hone' hmatch.1

/-- A pattern whose first letter is neither a wildcard nor a pair of backslashes does not begin with
two backslashes. -/
theorem not_matches_backslashes {c : Char} {t : List Char}
    (hpair : ∀ cs, c = '\\' → t = '\\' :: cs → False) (hmany : c ≠ '%') (hone : c ≠ '_')
    (s : List Char) : ¬ Matches (closing (c :: t)) ('\\' :: '\\' :: s) := by
  intro hmatch
  by_cases hc : c = '\\'
  swap
  · rw [closing_letter t hc hmany hone, matches_lit_cons] at hmatch
    exact hc hmatch.1
  subst hc
  rcases t with _ | ⟨d, t⟩
  · exact absurd (matches_lit_cons.mp hmatch).1 (by decide)
  have hd : d ≠ '\\' := fun heq => hpair t rfl (by rw [heq])
  by_cases hmany' : d = '%'
  · subst hmany'
    exact absurd (matches_lit_cons.mp (matches_lit_cons.mp hmatch).2).1 (by decide)
  by_cases hone' : d = '_'
  · subst hone'
    exact absurd (matches_lit_cons.mp (matches_lit_cons.mp hmatch).2).1 (by decide)
  · rw [closing_escaped t hd hmany' hone', matches_lit_cons] at hmatch
    exact hd hmatch.1

/-! ## Special tags -/

/-- A tag as the column has it, in lower case. -/
def written (lower : Char → Char) (tag : List Char) : List Char :=
  (tag.flatMap Json.escapeChar).map lower

section Special

variable {lower : Char → Char} (h : KeepsMarks lower) {c : Char} {t s z : List Char}

/-- A plain letter is written as it is. -/
theorem written_plain (hc : Plain c) : written lower (c :: t) = lower c :: written lower t := by
  unfold written
  rw [List.flatMap_cons, hc.1]
  rfl

include h

/-- An underscore is written as it is. -/
theorem written_underscore : written lower ('_' :: t) = '_' :: written lower t := by
  have hone : lower '_' = '_' := h.fixed (by decide)
  show lower '_' :: _ = _
  rw [hone]
  rfl

/-- A backslash is written twice. -/
theorem written_backslash : written lower ('\\' :: t) = '\\' :: '\\' :: written lower t := by
  have hbackslash : lower '\\' = '\\' := h.fixed (by decide)
  show lower '\\' :: lower '\\' :: _ = _
  rw [hbackslash]
  rfl

omit h in
/-- What a text has left when a pattern has eaten half of a pair of backslashes, before the two come
to where they agreed: backslashes, and possibly something behind an underscore. -/
def Ahead (w : List Char) : Prop :=
  (∃ j, w = List.replicate (j + 1) '\\') ∨ ∃ j y, w = List.replicate j '\\' ++ '_' :: y

omit h in

/-- What is ahead begins with an underscore, or with a backslash after which it is ahead again. -/
theorem Ahead.cases {w : List Char} (hw : Ahead w) : (∃ y, w = '_' :: y) ∨
    ∃ w', w = '\\' :: w' ∧ Ahead (w' ++ ['\\', '\\']) ∧ Ahead (w' ++ ['_']) := by
  rcases hw with ⟨j, rfl⟩ | ⟨_ | j, y, rfl⟩
  · refine Or.inr ⟨List.replicate j '\\', rfl, Or.inl ⟨j + 1, ?_⟩, Or.inr ⟨j, [], rfl⟩⟩
    exact (List.replicate_append_replicate (n := j) (m := 2))
  · exact Or.inl ⟨y, rfl⟩
  · refine Or.inr ⟨List.replicate j '\\' ++ '_' :: y, rfl, Or.inr ⟨j, y ++ ['\\', '\\'], ?_⟩,
      Or.inr ⟨j, y ++ ['_'], ?_⟩⟩
    · rw [List.append_assoc, List.cons_append]
    · rw [List.append_assoc, List.cons_append]

/-- A pattern that lags behind the text, with backslashes ahead of it, also fits a text with more of
them. -/
theorem lag (r : List Char) : ∀ w : List Char, Ahead w →
    Matches (closing (r.map lower)) (written lower (w ++ r) ++ '"' :: z) →
      Matches (closing (r.map lower)) (written lower ('\\' :: '\\' :: (w ++ r)) ++ '"' :: z) := by
  have hbackslash : lower '\\' = '\\' := h.fixed (by decide)
  have hmany : lower '%' = '%' := h.fixed (by decide)
  have hone : lower '_' = '_' := h.fixed (by decide)
  have hunder : ∀ r y : List Char,
      ¬ Matches (closing (r.map lower)) (written lower ('_' :: y ++ r) ++ '"' :: z) := by
    intro r y
    rw [List.cons_append, written_underscore h]
    exact not_matches_underscore _ _
  induction r using escapeLikePattern.induct with
  | case1 r ih =>
    intro w hw hmatch
    rcases hw.cases with ⟨y, rfl⟩ | ⟨w, rfl, hpair, -⟩
    · exact absurd hmatch (hunder _ y)
    -- The pattern eats one pair of backslashes of the text, and its own comes to what is ahead.
    · have hsplit : w ++ '\\' :: '\\' :: r = (w ++ ['\\', '\\']) ++ r := by simp
      rw [List.map_cons, List.map_cons, hbackslash, closing_pair, List.cons_append,
        written_backslash h, List.cons_append, List.cons_append, matches_lit_cons,
        matches_lit_cons, hsplit] at hmatch ⊢
      exact ⟨rfl, rfl, ih _ hpair hmatch.2.2⟩
  | case2 r ih =>
    intro w hw hmatch
    rcases hw.cases with ⟨y, rfl⟩ | ⟨w, rfl, -, -⟩
    · exact absurd hmatch (hunder _ y)
    -- The wildcard eats the additional backslashes.
    · rw [List.map_cons, hmany, closing_percent, List.cons_append, written_backslash h,
        List.cons_append, List.cons_append, matches_lit_cons] at hmatch ⊢
      refine ⟨rfl, ?_⟩
      have hmore := hmatch.2.many_append ['\\', '\\', '\\', '\\']
      rw [written_backslash h, written_backslash h]
      exact hmore
  | case3 r ih =>
    intro w hw hmatch
    rcases hw.cases with ⟨y, rfl⟩ | ⟨w, rfl, -, hunderscore⟩
    · exact absurd hmatch (hunder _ y)
    -- The wildcard eats a backslash, and the underscore comes to what is ahead.
    · have hsplit : w ++ '_' :: r = (w ++ ['_']) ++ r := by simp
      rw [List.map_cons, hone, closing_underscore, List.cons_append, written_backslash h,
        List.cons_append, List.cons_append, matches_lit_cons, matches_one_cons, hsplit]
        at hmatch ⊢
      exact ⟨rfl, ih _ hunderscore hmatch.2⟩
  | case4 c r hpair hc hc' ih =>
    intro w hw hmatch
    rcases hw.cases with ⟨y, rfl⟩ | ⟨w, rfl, -, -⟩
    · exact absurd hmatch (hunder _ y)
    · rw [List.cons_append, written_backslash h] at hmatch
      exact absurd hmatch
        (not_matches_backslashes (h.not_pair hpair) (h.ne (by decide) hc) (h.ne (by decide) hc') _)
  | case5 =>
    intro w hw hmatch
    rcases hw.cases with ⟨y, rfl⟩ | ⟨w, rfl, -, -⟩
    · exact absurd hmatch (hunder _ y)
    · rw [List.cons_append, written_backslash h] at hmatch
      exact absurd (matches_lit_cons.mp hmatch).1 (by decide)

/-- The pattern for a tag that begins with a special character fits the JSON text of this tag only
if the tag begins with a pair of backslashes, and then it also fits the text with two more of
them. -/
theorem stuck (hc : ¬ Plain c)
    (hmatch : Matches (closing ((c :: t).map lower)) (written lower (c :: t) ++ '"' :: z)) :
    c = '\\' ∧ Matches (closing ((c :: t).map lower))
      (written lower ('\\' :: '\\' :: c :: t) ++ '"' :: z) := by
  have hfixed : lower c = c := h.fixed hc
  have hbackslash : lower '\\' = '\\' := h.fixed (by decide)
  by_cases hmany : c = '%'
  · subst hmany
    have htext : written lower ('%' :: t) = lower '%' :: written lower t := rfl
    rw [htext, List.map_cons, hfixed, closing_percent] at hmatch
    exact absurd (matches_lit_cons.mp hmatch).1 (by decide)
  by_cases hone : c = '_'
  · subst hone
    rw [written_underscore h] at hmatch
    exact absurd hmatch (not_matches_underscore _ _)
  by_cases hc' : c = '\\'
  swap
  -- JSON writes a backslash here, which is not what the pattern has.
  · obtain ⟨e, hescape⟩ := escapeChar_of_not_plain hc hmany hone
    have htext : written lower (c :: t) = '\\' :: (e.map lower ++ written lower t) := by
      unfold written
      rw [List.flatMap_cons, hescape, List.map_append, List.map_cons, hbackslash, List.cons_append]
    rw [htext, List.map_cons, hfixed, closing_letter _ hc' hmany hone] at hmatch
    exact absurd (matches_lit_cons.mp hmatch).1 hc'
  subst hc'
  refine ⟨rfl, ?_⟩
  by_cases hpair : ∃ t', t = '\\' :: t'
  · obtain ⟨t, rfl⟩ := hpair
    rw [List.map_cons, List.map_cons, hbackslash, closing_pair, written_backslash h,
      List.cons_append, List.cons_append, matches_lit_cons, matches_lit_cons] at hmatch ⊢
    exact ⟨rfl, rfl, lag h t ['\\'] (Or.inl ⟨0, rfl⟩) hmatch.2.2⟩
  · rw [written_backslash h, List.map_cons] at hmatch
    have hnot : ∀ cs, '\\' = '\\' → t = '\\' :: cs → False := fun cs _ heq => hpair ⟨cs, heq⟩
    exact absurd hmatch
      (not_matches_backslashes (h.not_pair hnot) (h.ne (by decide) hmany) (h.ne (by decide) hone) _)

/-- When the pattern for a special tag fits the JSON text of this tag, it also fits that of a longer
one with the same characters. -/
theorem overmatch : ∀ t : List Char, (∃ c ∈ t, ¬ Plain c) →
    Matches (closing (t.map lower)) (written lower t ++ '"' :: z) →
      ∃ s, (∀ c ∈ s, c ∈ t) ∧ t.length < s.length ∧
        Matches (closing (t.map lower)) (written lower s ++ '"' :: z)
  | [], hspecial, _ => by
    obtain ⟨c, hc, -⟩ := hspecial
    cases hc
  | c :: t, hspecial, hmatch => by
    by_cases hc : Plain c
    · -- The pattern and the text agree so far.
      have hlower : Plain (lower c) := h.plain hc
      have hbackslash : lower c ≠ '\\' := by
        intro heq
        rw [heq] at hlower
        exact absurd hlower (by decide)
      have hletter := closing_letter (t.map lower) hbackslash hlower.2.1 hlower.2.2
      have hrest : ∃ c ∈ t, ¬ Plain c := by
        obtain ⟨d, hd, hnot⟩ := hspecial
        rcases List.mem_cons.mp hd with rfl | hd
        · exact absurd hc hnot
        · exact ⟨d, hd, hnot⟩
      rw [List.map_cons, hletter, written_plain hc, List.cons_append, matches_lit_cons] at hmatch
      obtain ⟨s, hs, hlength, hmore⟩ := overmatch t hrest hmatch.2
      refine ⟨c :: s, ?_, Nat.succ_lt_succ hlength, ?_⟩
      · intro d hd
        rcases List.mem_cons.mp hd with rfl | hd
        · exact List.mem_cons_self
        · exact List.mem_cons_of_mem _ (hs d hd)
      · rw [List.map_cons, hletter, written_plain hc, List.cons_append, matches_lit_cons]
        exact ⟨rfl, hmore⟩
    · -- At the first special character the pattern gets stuck, unless it is a backslash.
      obtain ⟨rfl, hmore⟩ := stuck h hc hmatch
      refine ⟨'\\' :: '\\' :: '\\' :: t, ?_, ?_, hmore⟩
      · intro d hd
        rcases List.mem_cons.mp hd with rfl | hd
        · exact List.mem_cons_self
        rcases List.mem_cons.mp hd with rfl | hd
        · exact List.mem_cons_self
        · exact hd
      · simp only [List.length_cons]
        omega

end Special

/-! ## The column -/

section Column

variable {lower : Char → Char} (h : KeepsMarks lower) {t s : List Char} {tags : List String}

/-- The separator is among the elements when there are two of them. -/
theorem mem_intersperse {α : Type} {sep x : α} : ∀ {l : List α},
    x ∈ l.intersperse sep ↔ x ∈ l ∨ x = sep ∧ 2 ≤ l.length
  | [] => by simp
  | [y] => by simp
  | y :: z :: l => by
    rw [List.intersperse_cons_cons, List.mem_cons, List.mem_cons, mem_intersperse]
    simp only [List.mem_cons, List.length_cons]
    constructor
    · rintro (rfl | rfl | (hx | hx) | ⟨rfl, -⟩)
      · exact Or.inl (Or.inl rfl)
      · exact Or.inr ⟨rfl, by omega⟩
      · exact Or.inl (Or.inr (Or.inl hx))
      · exact Or.inl (Or.inr (Or.inr hx))
      · exact Or.inr ⟨rfl, by omega⟩
    · rintro ((rfl | hx) | ⟨rfl, -⟩)
      · exact Or.inl rfl
      · exact Or.inr (Or.inr (Or.inl hx))
      · exact Or.inr (Or.inl rfl)

/-- What stands between the quotation marks of the column: the tags, and the commas. -/
def innerWords (lower : Char → Char) (tags : List String) : List (List Char) :=
  (tags.map fun tag => written lower tag.toList).intersperse [lower ',']

/-- JSON writes no quotation mark but for one. -/
theorem quote_mem_escapeChar {c : Char} (hc : '"' ∈ Json.escapeChar c) : c = '"' := by
  have hdigit : ∀ n < 16, '"' ≠ Json.hexDigit n := by decide
  have hmod : ∀ n : ℕ, n % 16 < 16 := fun n => Nat.mod_lt n (by decide)
  revert hc
  fun_cases Json.escapeChar c with
  | case1 h => exact fun _ => h
  | case8 => simp [Json.escapeUnit, hdigit _ (hmod _)]
  | case9 => exact fun hc => (List.mem_singleton.mp hc).symm
  | _ => simp

include h

/-- A tag without quotation marks has none in the column. -/
theorem quote_not_mem_written (hs : '"' ∉ s) : '"' ∉ written lower s := by
  intro hmem
  obtain ⟨d, hd, hlower⟩ := List.mem_map.mp hmem
  obtain ⟨c, hc, hescape⟩ := List.mem_flatMap.mp hd
  have hquote : d = '"' := (h '"' (Or.inl (by decide)) d).mp hlower
  rw [hquote] at hescape
  rw [quote_mem_escapeChar hescape] at hc
  exact hs hc

/-- A quoted text is lowered between its quotes. -/
theorem map_quote (s : List Char) :
    (Json.quote s).map lower = '"' :: (written lower s ++ ['"']) := by
  have hquote : lower '"' = '"' := h.fixed (by decide)
  unfold Json.quote written
  rw [List.map_cons, List.map_append, List.map_cons, List.map_nil, hquote]

/-- The items of a list are lowered between the quotes that separate them. -/
theorem map_renderItems : ∀ (tag : String) (tags : List String),
    (Json.renderItems ((tag :: tags).map Json.text)).map lower =
      '"' :: separated '"' (innerWords lower (tag :: tags))
  | tag, [] => by
    have hone : (Json.renderItems ([tag].map Json.text)).map lower =
        (Json.quote tag.toList).map lower := rfl
    rw [hone, map_quote h, innerWords, List.map_cons, List.map_nil, List.intersperse_singleton,
      separated_cons]
    rfl
  | tag, tag' :: tags => by
    have hmore : (Json.renderItems ((tag :: tag' :: tags).map Json.text)).map lower =
        (Json.quote tag.toList ++
          ',' :: Json.renderItems ((tag' :: tags).map Json.text)).map lower := rfl
    have hwords : innerWords lower (tag :: tag' :: tags) =
        written lower tag.toList :: [lower ','] :: innerWords lower (tag' :: tags) :=
      List.intersperse_cons_cons
    rw [hmore, hwords, List.map_append, map_quote h, List.map_cons, map_renderItems tag' tags,
      separated_cons, separated_cons, List.cons_append, List.append_assoc]
    rfl

/-- The words that the quotation marks cut the column into. -/
theorem column_words (hquote : ∀ tag ∈ tags, '"' ∉ tag.toList) : ∃ ws z,
    (jsonColumn tags).map lower = separated '"' ws ++ z ∧ '"' ∉ z ∧ (∀ x ∈ ws, '"' ∉ x) ∧
      ws.tail = innerWords lower tags := by
  have hmark : ∀ c, c ≠ '"' → '"' ∉ [lower c] := by
    intro c hc hmem
    exact h.ne (by decide) hc (List.mem_singleton.mp hmem).symm
  -- The quotation marks cut the column into the brackets, the tags and the commas between them.
  cases tags with
  | nil =>
    refine ⟨[], [lower '[', lower ']'], rfl, ?_, fun _ hx => absurd hx List.not_mem_nil, rfl⟩
    intro hmem
    rcases List.mem_cons.mp hmem with heq | hmem
    · exact h.ne (by decide) (by decide) heq.symm
    · exact hmark ']' (by decide) hmem
  | cons tag tags =>
    refine ⟨[lower '['] :: innerWords lower (tag :: tags), [lower ']'], ?_,
      hmark ']' (by decide), ?_, rfl⟩
    · have hcolumn : (jsonColumn (tag :: tags)).map lower = lower '[' ::
          ((Json.renderItems ((tag :: tags).map Json.text) ++ [']']).map lower) := rfl
      rw [hcolumn, List.map_append, map_renderItems h, separated_cons]
      rfl
    · intro x hx
      rcases List.mem_cons.mp hx with rfl | hx
      · exact hmark '[' (by decide)
      rcases mem_intersperse.mp hx with hx | ⟨rfl, -⟩
      · obtain ⟨tag', htag', rfl⟩ := List.mem_map.mp hx
        exact quote_not_mem_written h (hquote tag' htag')
      · exact hmark ',' (by decide)

end Column

/-! ## Plain tags -/

/-- A text without special characters. -/
def PlainText (t : List Char) : Prop := ∀ c ∈ t, Plain c

instance (t : List Char) : Decidable (PlainText t) := List.decidableBAll Plain t

/-- A plain text has no quote in it. -/
theorem PlainText.quote_not_mem {t : List Char} (ht : PlainText t) : '"' ∉ t := fun hmem =>
  absurd (ht '"' hmem) (by decide)

/-- The pattern for a plain tag is the tag with a quotation mark behind it. -/
theorem closing_plain : ∀ {t : List Char}, PlainText t →
    closing t = t.map Symbol.lit ++ [.lit '"', .many]
  | [], _ => rfl
  | c :: t, ht => by
    have hc : Plain c := ht c List.mem_cons_self
    have hbackslash : c ≠ '\\' := by
      rintro rfl
      exact absurd hc (by decide)
    rw [closing_letter t hbackslash hc.2.1 hc.2.2,
      closing_plain fun d hd => ht d (List.mem_cons_of_mem _ hd)]
    rfl

/-- A plain tag matches itself with the closing quote. -/
theorem matches_closing_plain {t v : List Char} (ht : PlainText t) :
    Matches (closing t) v ↔ ∃ v', v = t ++ '"' :: v' := by
  rw [closing_plain ht, matches_word]
  constructor
  · rintro ⟨s, rfl, v', rfl, -⟩
    exact ⟨v', rfl⟩
  · rintro ⟨v', rfl⟩
    exact ⟨'"' :: v', rfl, matches_lit_cons.mpr ⟨rfl, matches_many_nil⟩⟩

section PlainTags

variable {lower : Char → Char} (h : KeepsMarks lower) {s t : List Char} {tags : List String}

/-- A plain text is written as it is. -/
theorem written_of_plain : ∀ {s : List Char}, PlainText s → written lower s = s.map lower
  | [], _ => rfl
  | c :: s, hs => by
    rw [written_plain (hs c List.mem_cons_self),
      written_of_plain fun d hd => hs d (List.mem_cons_of_mem _ hd)]
    rfl

include h

/-- A plain text is lowered to a plain text. -/
theorem PlainText.map_lower (ht : PlainText t) : PlainText (t.map lower) := by
  intro d hd
  obtain ⟨c, hc, rfl⟩ := List.mem_map.mp hd
  exact h.plain (ht c hc)

/-- A special character leaves a special one in the column. -/
theorem PlainText.of_written (hs : PlainText (written lower s)) : PlainText s := by
  intro c hc
  by_contra hnot
  have hmem : ∀ d ∈ Json.escapeChar c, Plain (lower d) := fun d hd =>
    hs (lower d) (List.mem_map_of_mem (List.mem_flatMap.mpr ⟨c, hc, hd⟩))
  have hself : c ∈ Json.escapeChar c → False := by
    intro hin
    have hplain := hmem c hin
    rw [h.fixed hnot] at hplain
    exact hnot hplain
  by_cases hmany : c = '%'
  · subst hmany
    exact hself List.mem_cons_self
  by_cases hone : c = '_'
  · subst hone
    exact hself List.mem_cons_self
  · obtain ⟨e, hescape⟩ := escapeChar_of_not_plain hnot hmany hone
    have hplain := hmem '\\' (by rw [hescape]; exact List.mem_cons_self)
    rw [h.fixed (by decide)] at hplain
    exact absurd hplain (by decide)

/-- The column has a plain tag as the tag itself only. -/
theorem written_eq_iff (ht : PlainText t) :
    written lower s = t.map lower ↔ s.map lower = t.map lower := by
  have htext := ht.map_lower h
  constructor
  · intro heq
    have hs : PlainText s := PlainText.of_written h (by rwa [heq])
    rwa [written_of_plain hs] at heq
  · intro heq
    have hs : PlainText s := by
      intro c hc
      by_contra hnot
      have hplain : Plain (lower c) := htext (lower c) (by
        rw [← heq]
        exact List.mem_map_of_mem hc)
      rw [h.fixed hnot] at hplain
      exact hnot hplain
    rwa [written_of_plain hs]

/-- Where no tag has a quotation mark, a plain tag is found where it is, and the comma also between
two others. -/
theorem found_plain (ht : PlainText t) (hquote : ∀ tag ∈ tags, '"' ∉ tag.toList) :
    (∃ u v, (jsonColumn tags).map lower = u ++ '"' :: v ∧ Matches (closing (t.map lower)) v) ↔
      (∃ tag ∈ tags, tag.toList.map lower = t.map lower) ∨ t = [','] ∧ 2 ≤ tags.length := by
  have htext := ht.map_lower h
  obtain ⟨ws, z, hcolumn, hz, hws, htail⟩ := column_words h hquote
  -- The words inside the column are the tags and the commas between them.
  have hcomma : t.map lower = [lower ','] ↔ t = [','] := by
    constructor
    · intro heq
      obtain ⟨c, hc, hlower⟩ : ∃ c, t = [c] ∧ lower c = lower ',' := by
        rcases t with _ | ⟨c, _ | ⟨d, t⟩⟩
        · cases heq
        · exact ⟨c, rfl, (List.cons.inj heq).1⟩
        · exact absurd (List.cons.inj heq).2 (List.cons_ne_nil _ _)
      rw [(h ',' (Or.inr rfl) ',').mpr rfl] at hlower
      rw [hc, (h ',' (Or.inr rfl) c).mp hlower]
    · rintro rfl
      rfl
  have hwords : t.map lower ∈ innerWords lower tags ↔
      (∃ tag ∈ tags, tag.toList.map lower = t.map lower) ∨ t = [','] ∧ 2 ≤ tags.length := by
    unfold innerWords
    rw [mem_intersperse, List.mem_map, List.length_map, hcomma]
    refine or_congr (exists_congr fun tag => and_congr_right fun _ => ?_) Iff.rfl
    exact written_eq_iff h ht
  rw [← hwords, ← htail, ← between_iff hz hws htext.quote_not_mem, hcolumn]
  constructor
  · rintro ⟨u, v, heq, hmatch⟩
    obtain ⟨v', rfl⟩ := (matches_closing_plain htext).mp hmatch
    exact ⟨u, v', heq⟩
  · rintro ⟨u, v, heq⟩
    exact ⟨u, _, heq, (matches_closing_plain htext).mpr ⟨v, rfl⟩⟩

end PlainTags

/-! ## Exactness -/

/-- The tag filter finds a problem exactly when it has one of the requested tags. -/
def FindsTagged (env : Env) (filter : ProblemFilter) (p : Problem) : Prop :=
  filter.tagged env p = true ↔ ∃ t ∈ normalizeTags filter.tags, ∃ tag ∈ p.tags,
    tag.toList.map env.sqlLower = t.map env.sqlLower

/-- The pattern for a tag is found in the column of these tags. -/
def FoundIn (lower : Char → Char) (t : List Char) (tags : List String) : Prop :=
  ∃ u v, (jsonColumn tags).map lower = u ++ '"' :: v ∧ Matches (closing (t.map lower)) v

/-- The pattern for a tag is found exactly where the tag is. -/
def FoundExactly (lower : Char → Char) (t : List Char) (tags : List String) : Prop :=
  FoundIn lower t tags ↔ ∃ tag ∈ tags, tag.toList.map lower = t.map lower

/-- The tags have characters of an alphabet only. -/
def Over (alphabet : Set Char) (tags : List String) : Prop :=
  ∀ tag ∈ tags, ∀ c ∈ tag.toList, c ∈ alphabet

section Exact

variable {lower : Char → Char} (h : KeepsMarks lower) {t : List Char} {alphabet : Set Char}

include h

/-- The condition on the column finds the tag as `FoundIn` says. -/
theorem like_found (t : List Char) (tags : List String) :
    like ((jsonColumn tags).map lower) (quotedPattern ((escapeLikePattern t).map lower)) = true ↔
      FoundIn lower t tags := by
  have hsymbols : symbols (quotedPattern ((escapeLikePattern t).map lower)) =
      .many :: .lit '"' :: closing (t.map lower) := by
    rw [map_escapeLikePattern h]
    rfl
  rw [like_iff, hsymbols, matches_many]
  unfold FoundIn
  constructor
  · rintro ⟨u, _, hcolumn, v, rfl, hmatch⟩
    exact ⟨u, v, hcolumn, hmatch⟩
  · rintro ⟨u, v, hcolumn, hmatch⟩
    exact ⟨u, '"' :: v, hcolumn, matches_lit_cons.mpr ⟨rfl, hmatch⟩⟩

/-- A single tag in its column. -/
theorem column_single (s : List Char) :
    (jsonColumn [String.ofList s]).map lower =
      lower '[' :: '"' :: (written lower s ++ '"' :: [lower ']']) := by
  have hcolumn : (jsonColumn [String.ofList s]).map lower = lower '[' ::
      ((Json.quote (String.ofList s).toList ++ [']']).map lower) := rfl
  rw [hcolumn, String.toList_ofList, List.map_append, map_quote h]
  simp

omit h in
/-- What is found in the column of a tag of another length is a mistake. -/
theorem not_foundExactly {s : List Char} (hlength : s.length ≠ t.length)
    (hfound : FoundIn lower t [String.ofList s]) : ¬ FoundExactly lower t [String.ofList s] := by
  intro hexact
  obtain ⟨tag, htag, hsame⟩ := hexact.mp hfound
  rw [List.mem_singleton.mp htag, String.toList_ofList] at hsame
  have heq := congrArg List.length hsame
  rw [List.length_map, List.length_map] at heq
  exact hlength heq

/-- Where tags may have quotation marks, a plain tag is found behind one. -/
theorem found_behind_quote (ht : PlainText t) : FoundIn lower t [String.ofList ('"' :: t)] := by
  have hbackslash : lower '\\' = '\\' := h.fixed (by decide)
  have hquote : lower '"' = '"' := h.fixed (by decide)
  have hwritten : written lower ('"' :: t) = '\\' :: '"' :: written lower t := by
    show lower '\\' :: lower '"' :: _ = _
    rw [hbackslash, hquote]
    rfl
  refine ⟨[lower '[', '"', '\\'], written lower t ++ '"' :: [lower ']'], ?_, ?_⟩
  · rw [column_single h, hwritten]
    rfl
  · exact (matches_closing_plain (ht.map_lower h)).mpr ⟨[lower ']'], by rw [written_of_plain ht]⟩

/-- A special tag is missed, or found where it is not. -/
theorem special_not_exact (hspecial : ¬ PlainText t) (halphabet : ∀ c ∈ t, c ∈ alphabet) :
    ∃ tags, Over alphabet tags ∧ ¬ FoundExactly lower t tags := by
  have hover : ∀ s : List Char, (∀ c ∈ s, c ∈ t) → Over alphabet [String.ofList s] := by
    intro s hs tag htag c hc
    rw [List.mem_singleton.mp htag, String.toList_ofList] at hc
    exact halphabet c (hs c hc)
  by_cases hfound : FoundIn lower t [String.ofList t]
  swap
  -- The problem with this tag is missed.
  · refine ⟨[String.ofList t], hover t fun _ hc => hc, fun hexact => ?_⟩
    exact hfound (hexact.mpr ⟨_, List.mem_singleton_self _, by rw [String.toList_ofList]⟩)
  have hspecial' : ∃ c ∈ t, ¬ Plain c := by
    unfold PlainText at hspecial
    push Not at hspecial
    exact hspecial
  obtain ⟨u, v, hcolumn, hmatch⟩ := hfound
  rw [column_single h] at hcolumn
  rcases u with _ | ⟨x, _ | ⟨y, u⟩⟩
  · exact absurd (List.cons.inj hcolumn).1 (h.ne (by decide) (by decide))
  · -- The match begins where the tag does.
    have hv : written lower t ++ '"' :: [lower ']'] = v := by
      have hrest := (List.cons.inj hcolumn).2
      exact (List.cons.inj hrest).2
    rw [← hv] at hmatch
    obtain ⟨s, hs, hlength, hmore⟩ := overmatch h t hspecial' hmatch
    refine ⟨[String.ofList s], hover s hs, not_foundExactly (by omega) ?_⟩
    exact ⟨[lower '['], _, column_single h s, hmore⟩
  · -- It begins later, so something may come before it.
    have hrest : written lower t ++ '"' :: [lower ']'] = u ++ '"' :: v := by
      have hrest := (List.cons.inj hcolumn).2
      exact (List.cons.inj hrest).2
    obtain ⟨c, hc, -⟩ := hspecial'
    refine ⟨[String.ofList (c :: t)], hover (c :: t) ?_, not_foundExactly (by simp) ?_⟩
    · intro d hd
      rcases List.mem_cons.mp hd with rfl | hd
      · exact hc
      · exact hd
    · refine ⟨lower '[' :: '"' :: ((Json.escapeChar c).map lower ++ u), v, ?_, hmatch⟩
      have hwritten : written lower (c :: t) =
          (Json.escapeChar c).map lower ++ written lower t := by
        unfold written
        rw [List.flatMap_cons, List.map_append]
      rw [column_single h, hwritten, List.append_assoc, hrest]
      simp

/-- For tags over an alphabet, the pattern for a tag is exact exactly when the tag is plain and not
the lone comma, and no tag can have a quotation mark. -/
theorem foundExactly_iff (hne : t ≠ []) (halphabet : ∀ c ∈ t, c ∈ alphabet) :
    (∀ tags, Over alphabet tags → FoundExactly lower t tags) ↔
      PlainText t ∧ t ≠ [','] ∧ '"' ∉ alphabet := by
  constructor
  · intro hexact
    have hplain : PlainText t := by
      by_contra hspecial
      obtain ⟨tags, hover, hnot⟩ := special_not_exact h hspecial halphabet
      exact hnot (hexact tags hover)
    refine ⟨hplain, ?_, ?_⟩
    · rintro rfl
      -- It is found between two tags.
      have hover : Over alphabet [",,", ",,"] := by
        intro tag htag c hc
        have hc' : c = ',' := by
          rcases List.mem_cons.mp htag with rfl | htag
          · simpa using hc
          · rw [List.mem_singleton.mp htag] at hc
            simpa using hc
        rw [hc']
        exact halphabet ',' List.mem_cons_self
      have hfound : FoundIn lower [','] [",,", ",,"] :=
        (found_plain h hplain (by decide)).mpr (Or.inr ⟨rfl, le_refl 2⟩)
      obtain ⟨tag, htag, hsame⟩ := (hexact _ hover).mp hfound
      have hlength := congrArg List.length hsame
      rcases List.mem_cons.mp htag with rfl | htag
      · exact absurd hlength (by simp)
      · rw [List.mem_singleton.mp htag] at hlength
        exact absurd hlength (by simp)
    · intro hquote
      have hover : Over alphabet [String.ofList ('"' :: t)] := by
        intro tag htag c hc
        rw [List.mem_singleton.mp htag, String.toList_ofList] at hc
        rcases List.mem_cons.mp hc with rfl | hc
        · exact hquote
        · exact halphabet c hc
      exact not_foundExactly (by simp) (found_behind_quote h hplain) (hexact _ hover)
  · rintro ⟨hplain, hcomma, hquote⟩ tags hover
    have hnone : ∀ tag ∈ tags, '"' ∉ tag.toList := fun tag htag hmem =>
      hquote (hover tag htag '"' hmem)
    unfold FoundExactly FoundIn
    rw [found_plain h hplain hnone, or_iff_left fun hlone => hcomma hlone.1]

end Exact

/-- A tag that can be requested, trimmed and not empty, with characters of an alphabet. -/
structure Requestable (alphabet : Set Char) (t : List Char) : Prop where
  trimmed : trimSpace t = t
  ne_nil : t ≠ []
  inAlphabet : ∀ c ∈ t, c ∈ alphabet

section Filter

variable {env : Env} {filter : ProblemFilter} {p : Problem}

/-- The filter finds what one of the patterns finds. -/
theorem tagged_iff (hlower : env.goLower = env.sqlLower) (hmarks : KeepsMarks env.sqlLower)
    (hsome : normalizeTags filter.tags ≠ []) :
    filter.tagged env p = true ↔ ∃ t ∈ normalizeTags filter.tags, FoundIn env.sqlLower t p.tags := by
  have hempty : (normalizeTags filter.tags).isEmpty = false := by
    rw [List.isEmpty_eq_false_iff]
    exact hsome
  unfold ProblemFilter.tagged
  dsimp only
  rw [hempty, Bool.false_or, List.any_eq_true, hlower]
  refine exists_congr fun t => and_congr_right fun _ => ?_
  exact like_found hmarks t p.tags

/-- A single tag is requested as it is. -/
theorem normalizeTags_single {alphabet : Set Char} {t : List Char}
    (ht : Requestable alphabet t) : normalizeTags [String.ofList t] = [t] := by
  have hempty : t.isEmpty = false := by
    rw [List.isEmpty_eq_false_iff]
    exact ht.ne_nil
  unfold normalizeTags
  rw [List.map_singleton, String.toList_ofList, ht.trimmed, List.filter_singleton, hempty]
  rfl

end Filter

/-- For requests and catalogues over an alphabet, the tag filter finds exactly the problems with one
of the requested tags if and only if the tags that can be requested are plain and none of them is a
lone comma, and no tag can have a quotation mark. -/
theorem findsTagged_iff (env : Env) (hlower : env.goLower = env.sqlLower)
    (hmarks : KeepsMarks env.sqlLower) (alphabet : Set Char) (requested : Set (List Char))
    (hrequested : ∀ t ∈ requested, Requestable alphabet t) :
    (∀ (filter : ProblemFilter) (p : Problem), normalizeTags filter.tags ≠ [] →
        (∀ t ∈ normalizeTags filter.tags, t ∈ requested) → Over alphabet p.tags →
          FindsTagged env filter p) ↔
      ∀ t ∈ requested, PlainText t ∧ t ≠ [','] ∧ '"' ∉ alphabet := by
  constructor
  · intro hexact t ht
    have hreq := hrequested t ht
    refine (foundExactly_iff hmarks hreq.ne_nil hreq.inAlphabet).mp fun tags hover => ?_
    have hsingle := normalizeTags_single hreq
    -- A request for this tag alone, and a problem with these tags.
    let filter : ProblemFilter := ⟨[String.ofList t], [], false, false, false, false⟩
    have hfinds : FindsTagged env filter ⟨0, "", tags, "", false, false, false⟩ := by
      refine hexact filter _ ?_ ?_ hover
      · show normalizeTags [String.ofList t] ≠ []
        rw [hsingle]
        exact List.cons_ne_nil t []
      · show ∀ t' ∈ normalizeTags [String.ofList t], t' ∈ requested
        rw [hsingle]
        intro t' ht'
        rwa [List.mem_singleton.mp ht']
    have hnorm : normalizeTags filter.tags = [t] := hsingle
    unfold FindsTagged at hfinds
    rw [tagged_iff hlower hmarks (by rw [hnorm]; exact List.cons_ne_nil t []), hnorm] at hfinds
    simp only [List.mem_singleton, exists_eq_left] at hfinds
    exact hfinds
  · intro hplain filter p hsome hall hover
    unfold FindsTagged
    rw [tagged_iff hlower hmarks hsome]
    refine exists_congr fun t => and_congr_right fun ht => ?_
    have hreq := hrequested t (hall t ht)
    exact (foundExactly_iff hmarks hreq.ne_nil hreq.inAlphabet).mpr (hplain t (hall t ht)) p.tags hover

/-- The case of ASCII letters. -/
theorem keepsMarks_toLower : KeepsMarks Char.toLower := by
  intro d hd c
  by_cases hupper : 'A'.toNat ≤ c.toNat ∧ c.toNat ≤ 'Z'.toNat
  · -- Neither a capital letter nor its small one is special.
    have hletters : ∀ n < 26, (Plain (Char.ofNat (65 + n)) ∧ Char.ofNat (65 + n) ≠ ',') ∧
        Plain (Char.ofNat (65 + n)).toLower ∧ (Char.ofNat (65 + n)).toLower ≠ ',' := by decide
    have hc : c = Char.ofNat (65 + (c.toNat - 65)) := by
      have hle : 65 ≤ c.toNat := hupper.1
      rw [Nat.add_sub_cancel' hle, Char.ofNat_toNat]
    have hletter := hletters (c.toNat - 65) (by
      have hle : c.toNat ≤ 90 := hupper.2
      omega)
    rw [← hc] at hletter
    refine iff_of_false ?_ ?_
    · rintro rfl
      exact hd.elim (fun hnot => hnot hletter.2.1) hletter.2.2
    · rintro rfl
      exact hd.elim (fun hnot => hnot hletter.1.1) hletter.1.2
  · have hsame : c.toLower = c := dif_neg fun hle =>
      hupper ⟨UInt32.le_iff_toNat_le.mp hle.1, UInt32.le_iff_toNat_le.mp hle.2⟩
    rw [hsame]

/-- The filter for one tag. -/
def taggedWith (tag : String) : ProblemFilter := ⟨[tag], [], false, false, false, false⟩

/-- A problem with one tag. -/
def problemWith (tag : String) : Problem := ⟨1, "slug", [tag], difficultyEasy, false, false, false⟩

/-- A tag of letters is found in a problem that has it, and not in one with another tag. -/
theorem findsTagged_array :
    FindsTagged (Env.faultless 10) (taggedWith "Array") (problemWith "Array") ∧
      FindsTagged (Env.faultless 10) (taggedWith "Array") (problemWith "Tree") := by
  have hletters : ∀ t ∈ ["Array".toList, "Tree".toList], t.all Char.isAlpha = true := by decide
  have hasked : normalizeTags (taggedWith "Array").tags = ["Array".toList] := by decide
  have hexact := (findsTagged_iff (Env.faultless 10) rfl keepsMarks_toLower {c | c.isAlpha}
    {"Array".toList} fun t ht => by
      rw [Set.mem_singleton_iff.mp ht]
      exact ⟨by decide, by decide, List.all_eq_true.mp (hletters _ (by simp))⟩).mpr fun t ht => by
        rw [Set.mem_singleton_iff.mp ht]
        exact ⟨by decide, by decide, by decide⟩
  have hfinds : ∀ tag, tag.toList ∈ ["Array".toList, "Tree".toList] →
      FindsTagged (Env.faultless 10) (taggedWith "Array") (problemWith tag) := by
    intro tag htag
    refine hexact _ _ ?_ ?_ ?_
    · rw [hasked]
      exact List.cons_ne_nil _ _
    · rw [hasked]
      exact fun t ht => List.mem_singleton.mp ht
    · intro tag' htag'
      rw [List.mem_singleton.mp htag']
      exact List.all_eq_true.mp (hletters _ htag)
  exact ⟨hfinds _ (by simp), hfinds _ (by simp)⟩

/-- A tag with a percent sign is not found in a problem with this very tag. -/
theorem not_findsTagged_percent :
    ¬ FindsTagged (Env.faultless 10) (taggedWith "100%") (problemWith "100%") := by
  intro hfinds
  have hfound : (taggedWith "100%").tagged (Env.faultless 10) (problemWith "100%") = true :=
    hfinds.mpr ⟨"100%".toList, by decide, "100%", List.mem_cons_self, rfl⟩
  revert hfound
  decide +kernel

end Bsg.Central
