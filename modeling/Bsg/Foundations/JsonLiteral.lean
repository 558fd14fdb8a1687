import Mathlib.Data.List.Infix
import Bsg.Foundations.Json

/-!
# String literals inside JSON documents

Where the texts of a document come from: a text that is the value of a field of an object is written
as a string literal of the document, with a quote before it and a comma or a closing brace behind it
(`found_of_mem_fields`). A literal is at least as long as what it stands for, and only then as long
when each of its characters stands for itself (`string_text`).
-/

namespace Bsg.Foundations.Json

/-! ## The text of a literal -/

/-- The character stands for itself in a literal. -/
def bare (c : Char) : Bool := c != '"' && c != '\\' && decide (0x20 ≤ c.toNat)

/-- The text of a literal up to its closing quote, and what is behind. -/
def literalText : List Char → Option (List Char × List Char)
  | [] => none
  | '"' :: cs => some ([], cs)
  | '\\' :: c :: cs => (literalText cs).map fun (raw, rest) => ('\\' :: c :: raw, rest)
  | c :: cs => (literalText cs).map fun (raw, rest) => (c :: raw, rest)

/-- A letter that is neither a quote nor a backslash stands for itself in the literal. -/
theorem literalText_cons {c : Char} (hquote : c ≠ '"') (hback : c ≠ '\\') (cs : List Char) :
    literalText (c :: cs) = (literalText cs).map fun (raw, rest) => (c :: raw, rest) := by
  rw [literalText.eq_def]
  split
  · rename_i heq
    cases heq
  · rename_i heq
    exact absurd (List.cons.inj heq).1 hquote
  · rename_i heq
    exact absurd (List.cons.inj heq).1 hback
  · rename_i heq
    obtain ⟨rfl, rfl⟩ := List.cons.inj heq
    rfl

/-- A hexadecimal digit is no quote and no backslash. -/
theorem hexVal_ne {c : Char} {n : ℕ} (h : hexVal c = some n) : c ≠ '"' ∧ c ≠ '\\' := by
  constructor
  · rintro rfl
    cases h
  · rintro rfl
    cases h

/-- The pieces of a literal are at most as many as its letters, and as many only when nothing in it
is escaped. -/
theorem pieces_text : ∀ {cs : List Char} {ps : List Piece} {rest : List Char},
    pieces cs = some (ps, rest) → ∃ raw, literalText cs = some (raw, rest) ∧
      ps.length ≤ raw.length ∧
      (ps.length = raw.length → ps = raw.map Piece.char ∧ raw.all bare = true) := by
  intro cs
  fun_induction pieces cs with
  | case1 =>
    intro ps rest h
    cases h
  | case2 cs =>
    intro ps rest h
    cases h
    exact ⟨[], rfl, Nat.le_refl _, fun _ => ⟨rfl, rfl⟩⟩
  | case3 a b c d cs ih =>
    intro ps rest h
    simp only [Option.bind_eq_bind, Option.bind_eq_some_iff] at h
    obtain ⟨_, ha, _, hb, _, hc, _, hd, ⟨qs, rest'⟩, hpieces, hsome⟩ := h
    cases hsome
    obtain ⟨raw, htext, hlength, -⟩ := ih hpieces
    refine ⟨'\\' :: 'u' :: a :: b :: c :: d :: raw, ?_, ?_, fun hsame => ?_⟩
    · show (literalText (a :: b :: c :: d :: cs)).map _ = _
      rw [literalText_cons (hexVal_ne ha).1 (hexVal_ne ha).2,
        literalText_cons (hexVal_ne hb).1 (hexVal_ne hb).2,
        literalText_cons (hexVal_ne hc).1 (hexVal_ne hc).2,
        literalText_cons (hexVal_ne hd).1 (hexVal_ne hd).2, htext]
      rfl
    · simp only [List.length_cons]
      omega
    · simp only [List.length_cons] at hsame
      omega
  | case4 c cs hu ih =>
    intro ps rest h
    simp only [Option.bind_eq_bind, Option.bind_eq_some_iff] at h
    obtain ⟨_, -, ⟨qs, rest'⟩, hpieces, hsome⟩ := h
    cases hsome
    obtain ⟨raw, htext, hlength, -⟩ := ih hpieces
    refine ⟨'\\' :: c :: raw, ?_, ?_, fun hsame => ?_⟩
    · show (literalText cs).map _ = _
      rw [htext]
      rfl
    · simp only [List.length_cons]
      omega
    · simp only [List.length_cons] at hsame
      omega
  | case5 c cs hquote hu hback hlow =>
    intro ps rest h
    cases h
  | case6 c cs hquote hu hback hlow ih =>
    intro ps rest h
    simp only [Option.bind_eq_bind, Option.bind_eq_some_iff] at h
    obtain ⟨⟨qs, rest'⟩, hpieces, hsome⟩ := h
    cases hsome
    obtain ⟨raw, htext, hlength, hplain⟩ := ih hpieces
    -- A backslash has something behind it.
    have hne : c ≠ '\\' := by
      rintro rfl
      cases cs with
      | nil => cases hpieces
      | cons c' cs' => exact hback c' cs' rfl rfl
    refine ⟨c :: raw, ?_, ?_, fun hsame => ?_⟩
    · rw [literalText_cons hquote hne, htext]
      rfl
    · simp only [List.length_cons]
      omega
    · simp only [List.length_cons, Nat.add_right_cancel_iff] at hsame
      obtain ⟨hchars, hbare⟩ := hplain hsame
      refine ⟨by rw [hchars, List.map_cons], ?_⟩
      rw [List.all_cons, hbare, Bool.and_true]
      unfold bare
      rw [bne_iff_ne.mpr hquote, bne_iff_ne.mpr hne, decide_eq_true (Nat.le_of_not_lt hlow)]
      rfl

/-- Joining pieces does not make them more. -/
theorem length_join_le : ∀ ps : List Piece, (join ps).length ≤ ps.length := by
  intro ps
  fun_induction join ps with
  | case1 => exact Nat.le_refl _
  | case2 c ps ih => exact Nat.succ_le_succ ih
  | case3 n m ps hpair ih =>
    simp only [List.length_cons]
    omega
  | case4 n m ps hpair ih => exact Nat.succ_le_succ ih
  | case5 n ps hnone ih => exact Nat.succ_le_succ ih

/-- Characters are joined to themselves. -/
theorem join_chars : ∀ cs : List Char, join (cs.map Piece.char) = cs
  | [] => rfl
  | c :: cs => congrArg (List.cons c) (join_chars cs)

/-- A literal is at least as long as what it stands for, and only then as long when each of its
characters stands for itself. -/
theorem string_text {cs s rest : List Char} (h : string cs = some (s, rest)) :
    ∃ raw, literalText cs = some (raw, rest) ∧ s.length ≤ raw.length ∧
      (s.length = raw.length → s.all bare = true) := by
  obtain ⟨⟨ps, rest'⟩, hpieces, hsome⟩ := Option.map_eq_some_iff.mp h
  cases hsome
  obtain ⟨raw, htext, hlength, hplain⟩ := pieces_text hpieces
  have hjoin := length_join_le ps
  refine ⟨raw, htext, hjoin.trans hlength, fun hsame => ?_⟩
  obtain ⟨hchars, hbare⟩ := hplain (Nat.le_antisymm hlength (hsame ▸ hjoin))
  rw [hchars, join_chars]
  exact hbare

/-- A character that stands for itself is neither a quote nor a backslash, and no control character.
-/
theorem bare_iff {c : Char} : bare c = true ↔ c ≠ '"' ∧ c ≠ '\\' ∧ ¬ c.toNat < 0x20 := by
  unfold bare
  rw [Bool.and_eq_true, Bool.and_eq_true, bne_iff_ne, bne_iff_ne, decide_eq_true_iff, Nat.not_lt,
    and_assoc]

/-- A bare letter is a piece of its own. -/
theorem pieces_cons_bare {c : Char} (h : bare c = true) (cs : List Char) :
    pieces (c :: cs) = (pieces cs).map fun p => (.char c :: p.1, p.2) := by
  obtain ⟨hquote, hback, hlow⟩ := bare_iff.mp h
  rw [pieces.eq_def]
  split
  · rename_i heq
    cases heq
  · rename_i heq
    exact absurd (List.cons.inj heq).1 hquote
  · rename_i heq
    exact absurd (List.cons.inj heq).1 hback
  · rename_i heq
    exact absurd (List.cons.inj heq).1 hback
  · rename_i heq
    obtain ⟨rfl, rfl⟩ := List.cons.inj heq
    rw [if_neg hlow]
    cases pieces cs <;> rfl

/-- A text of bare letters is read as its letters, up to the quote. -/
theorem pieces_bare : ∀ {s : List Char}, s.all bare = true → ∀ rest : List Char,
    pieces (s ++ '"' :: rest) = some (s.map Piece.char, rest)
  | [], _, _ => rfl
  | c :: s, h, rest => by
    rw [List.all_cons, Bool.and_eq_true] at h
    rw [List.cons_append, pieces_cons_bare h.1, pieces_bare h.2]
    rfl

/-- Characters that stand for themselves are read up to the quote behind them. -/
theorem string_bare {s : List Char} (h : s.all bare = true) (rest : List Char) :
    string (s ++ '"' :: rest) = some (s, rest) := by
  rw [string, pieces_bare h]
  exact congrArg (fun l => some (l, rest)) (join_chars s)

/-- A literal that begins in a text ends in it, or its closing quote is found behind the quote that
follows the text. -/
theorem literalText_append {tail rest : List Char} : ∀ {text raw : List Char},
    literalText (text ++ '"' :: tail) = some (raw, rest) →
      raw.length ≤ text.length ∨ ∃ raw', literalText tail = some (raw', rest)
  | [], raw, h => by
    cases h
    exact Or.inl (Nat.le_refl _)
  | c :: text, raw, h => by
    by_cases hquote : c = '"'
    · subst hquote
      cases h
      exact Or.inl (Nat.zero_le _)
    by_cases hback : c = '\\'
    · subst hback
      cases text with
      | nil =>
        -- The backslash takes the quote with it.
        obtain ⟨⟨raw', rest'⟩, htext, hsome⟩ := Option.map_eq_some_iff.mp h
        cases hsome
        exact Or.inr ⟨raw', htext⟩
      | cons c' text =>
        obtain ⟨⟨raw', rest'⟩, htext, hsome⟩ := Option.map_eq_some_iff.mp h
        cases hsome
        refine (literalText_append htext).imp_left fun hle => ?_
        simp only [List.length_cons]
        omega
    · rw [List.cons_append, literalText_cons hquote hback] at h
      obtain ⟨⟨raw', rest'⟩, htext, hsome⟩ := Option.map_eq_some_iff.mp h
      cases hsome
      exact (literalText_append htext).imp_left Nat.succ_le_succ

/-! ## What is read is a part of the text -/

section Suffix

variable {α : Type}

/-- What a reader leaves is the end of what it was given. -/
def Consumes (p : List Char → Option (α × List Char)) : Prop :=
  ∀ cs a rest, p cs = some (a, rest) → rest <:+ cs

/-- Skipping blanks leaves an end of the text. -/
theorem skip_suffix (cs : List Char) : skip cs <:+ cs := List.dropWhile_suffix _

/-- What is left from a part that was skipped to is left from the whole. -/
theorem suffix_of_skip {c : Char} {cs cs' rest : List Char} (hskip : skip cs = c :: cs')
    (h : rest <:+ cs') : rest <:+ cs :=
  (h.trans (List.suffix_cons c cs')).trans (hskip ▸ skip_suffix cs)

/-- A string takes letters from the front. -/
theorem string_consumes : Consumes string := by
  intro cs s rest h
  obtain ⟨raw, htext, -⟩ := string_text h
  clear h
  induction cs using literalText.induct generalizing raw with
  | case1 => cases htext
  | case2 cs =>
    cases htext
    exact List.suffix_cons _ _
  | case3 c cs ih =>
    obtain ⟨⟨raw', rest'⟩, hrest, hsome⟩ := Option.map_eq_some_iff.mp htext
    cases hsome
    exact (ih raw' hrest).trans ((List.suffix_cons c cs).trans (List.suffix_cons _ _))
  | case4 c cs hquote hback ih =>
    rw [literalText] at htext
    · obtain ⟨⟨raw', rest'⟩, hrest, hsome⟩ := Option.map_eq_some_iff.mp htext
      cases hsome
      exact (ih raw' hrest).trans (List.suffix_cons c cs)
    · exact hquote
    · exact hback

/-- Taking digits leaves an end of the text. -/
theorem digits_suffix (cs : List Char) : (digits cs).2 <:+ cs := List.dropWhile_suffix _

/-- The integer part of a number takes letters from the front. -/
theorem integerPart_consumes : Consumes integerPart := by
  intro cs ds rest h
  unfold integerPart at h
  split at h
  · cases h
  · cases h
  · rename_i hdigits
    cases h
    have hsuffix := digits_suffix cs
    rwa [hdigits] at hsuffix

/-- So does the fraction. -/
theorem fractionPart_consumes : Consumes fractionPart := by
  intro cs ds rest h
  unfold fractionPart at h
  split at h
  · rename_i cs'
    split at h
    · cases h
    · rename_i hdigits
      cases h
      have hsuffix := digits_suffix cs'
      rw [hdigits] at hsuffix
      exact hsuffix.trans (List.suffix_cons _ _)
  · cases h
    exact List.suffix_rfl

/-- Taking a sign leaves an end of the text. -/
theorem signPart_suffix (cs : List Char) : (signPart cs).2 <:+ cs := by
  unfold signPart
  split
  · exact List.suffix_cons _ _
  · exact List.suffix_cons _ _
  · exact List.suffix_rfl

/-- The exponent takes letters from the front. -/
theorem exponentPart_consumes : Consumes exponentPart := by
  intro cs ds rest h
  unfold exponentPart at h
  split at h
  · rename_i e cs'
    split_ifs at h
    · split at h
      · cases h
      · rename_i hdigits
        cases h
        have hsuffix := digits_suffix (signPart cs').2
        rw [hdigits] at hsuffix
        exact (hsuffix.trans (signPart_suffix cs')).trans (List.suffix_cons e cs')
    · cases h
      exact List.suffix_rfl
  · cases h
    exact List.suffix_rfl

/-- A number without a sign takes letters from the front. -/
theorem unsigned_consumes : Consumes unsigned := by
  intro cs ds rest h
  simp only [unsigned, Option.bind_eq_bind, Option.bind_eq_some_iff] at h
  obtain ⟨⟨i, cs₁⟩, hinteger, ⟨f, cs₂⟩, hfraction, ⟨e, cs₃⟩, hexponent, hsome⟩ := h
  cases hsome
  exact (exponentPart_consumes _ _ _ hexponent).trans
    ((fractionPart_consumes _ _ _ hfraction).trans (integerPart_consumes _ _ _ hinteger))

/-- So does a number. -/
theorem number_consumes : Consumes number := by
  intro cs ds rest h
  unfold number at h
  split at h
  · obtain ⟨⟨lit, rest'⟩, hunsigned, hsome⟩ := Option.map_eq_some_iff.mp h
    cases hsome
    exact (unsigned_consumes _ _ _ hunsigned).trans (List.suffix_cons _ _)
  · exact unsigned_consumes _ _ _ h

/-- So does a string, a number or a word. -/
theorem scalar_consumes : Consumes scalar := by
  intro cs j rest h
  unfold scalar at h
  split at h
  · cases h
    exact ⟨['n', 'u', 'l', 'l'], rfl⟩
  · cases h
    exact ⟨['t', 'r', 'u', 'e'], rfl⟩
  · cases h
    exact ⟨['f', 'a', 'l', 's', 'e'], rfl⟩
  · obtain ⟨⟨s, rest'⟩, hstring, hsome⟩ := Option.map_eq_some_iff.mp h
    cases hsome
    exact (string_consumes _ _ _ hstring).trans (List.suffix_cons _ _)
  · obtain ⟨⟨lit, rest'⟩, hnumber, hsome⟩ := Option.map_eq_some_iff.mp h
    cases hsome
    exact number_consumes _ _ _ hnumber

/-- The rest of a list of items or fields, when its parts leave ends of what they are given. -/
theorem items_consumes {p : List Char → Option (Json × List Char)} (hp : Consumes p) :
    ∀ n, Consumes (items p n)
  | 0, _, _, _, h => by cases h
  | n + 1, cs, js, rest, h => by
    simp only [items, Option.bind_eq_bind, Option.bind_eq_some_iff] at h
    obtain ⟨⟨j, cs₁⟩, hitem, h⟩ := h
    have hfirst : cs₁ <:+ cs := (hp _ _ _ hitem).trans (skip_suffix cs)
    dsimp only at h
    split at h
    · rename_i hskip
      cases h
      exact (suffix_of_skip hskip List.suffix_rfl).trans hfirst
    · rename_i hskip
      obtain ⟨⟨js', rest'⟩, hitems, hsome⟩ := Option.map_eq_some_iff.mp h
      cases hsome
      exact (suffix_of_skip hskip (items_consumes hp n _ _ _ hitems)).trans hfirst
    · cases h

/-- So does the name of a field with its colon. -/
theorem fieldName_consumes : Consumes fieldName := by
  intro cs k rest h
  unfold fieldName at h
  split at h
  · rename_i cs' hskip
    simp only [Option.bind_eq_bind, Option.bind_eq_some_iff] at h
    obtain ⟨⟨k', cs₁⟩, hstring, h⟩ := h
    dsimp only at h
    split at h
    · rename_i hcolon
      cases h
      have hname := suffix_of_skip hskip (string_consumes _ _ _ hstring)
      exact (suffix_of_skip hcolon List.suffix_rfl).trans hname
    · cases h
  · cases h

/-- Fields take letters from the front when their values do. -/
theorem fields_consumes {p : List Char → Option (Json × List Char)} (hp : Consumes p) :
    ∀ n, Consumes (fields p n)
  | 0, _, _, _, h => by cases h
  | n + 1, cs, fs, rest, h => by
    simp only [fields, Option.bind_eq_bind, Option.bind_eq_some_iff] at h
    obtain ⟨⟨k, cs₁⟩, hname, ⟨j, cs₂⟩, hvalue, h⟩ := h
    have hfirst : cs₂ <:+ cs := (hp _ _ _ hvalue).trans
      ((skip_suffix cs₁).trans (fieldName_consumes _ _ _ hname))
    dsimp only at h
    split at h
    · rename_i hskip
      cases h
      exact (suffix_of_skip hskip List.suffix_rfl).trans hfirst
    · rename_i hskip
      obtain ⟨⟨fs', rest'⟩, hfields, hsome⟩ := Option.map_eq_some_iff.mp h
      cases hsome
      exact (suffix_of_skip hskip (fields_consumes hp n _ _ _ hfields)).trans hfirst
    · cases h

/-- A value is an array, an object, or a scalar. -/
theorem value_cases {d : ℕ} {cs rest : List Char} {j : Json} (h : value d cs = some (j, rest)) :
    scalar cs = some (j, rest) ∨
      (∃ d' cs', d = d' + 1 ∧ cs = '[' :: cs' ∧ ((∃ cs'', skip cs' = ']' :: cs'' ∧ j = .arr [] ∧
        rest = cs'') ∨ ∃ n js, items (value d') n (skip cs') = some (js, rest) ∧ j = .arr js)) ∨
      ∃ d' cs', d = d' + 1 ∧ cs = '{' :: cs' ∧ ((∃ cs'', skip cs' = '}' :: cs'' ∧ j = .obj [] ∧
        rest = cs'') ∨ ∃ n fs, fields (value d') n (skip cs') = some (fs, rest) ∧ j = .obj fs) := by
  unfold value at h
  split at h
  · rename_i d' cs'
    refine Or.inr (Or.inl ⟨d', cs', rfl, rfl, ?_⟩)
    split at h
    · rename_i cs'' hskip
      cases h
      exact Or.inl ⟨_, hskip, rfl, rfl⟩
    · obtain ⟨⟨js, rest'⟩, hitems, hsome⟩ := Option.map_eq_some_iff.mp h
      cases hsome
      -- Behind the bracket there is at least one item.
      exact Or.inr ⟨_, js, hitems, rfl⟩
  · rename_i d' cs'
    refine Or.inr (Or.inr ⟨d', cs', rfl, rfl, ?_⟩)
    split at h
    · rename_i cs'' hskip
      cases h
      exact Or.inl ⟨_, hskip, rfl, rfl⟩
    · obtain ⟨⟨fs, rest'⟩, hfields, hsome⟩ := Option.map_eq_some_iff.mp h
      cases hsome
      exact Or.inr ⟨_, fs, hfields, rfl⟩
  · exact Or.inl h

/-- A value takes letters from the front, at every depth. -/
theorem value_consumes : ∀ d, Consumes (value d) := by
  intro d
  induction d with
  | zero =>
    intro cs j rest h
    rcases value_cases h with hscalar | ⟨d', -, hd, -⟩ | ⟨d', -, hd, -⟩
    · exact scalar_consumes _ _ _ hscalar
    · cases hd
    · cases hd
  | succ d ih =>
    intro cs j rest h
    rcases value_cases h with hscalar | ⟨d', cs', hd, rfl, harray⟩ | ⟨d', cs', hd, rfl, hobject⟩
    · exact scalar_consumes _ _ _ hscalar
    · cases hd
      refine List.IsSuffix.trans ?_ (List.suffix_cons _ _)
      rcases harray with ⟨cs'', hskip, -, rfl⟩ | ⟨n, js, hitems, -⟩
      · exact suffix_of_skip hskip List.suffix_rfl
      · exact (items_consumes ih n _ _ _ hitems).trans (skip_suffix cs')
    · cases hd
      refine List.IsSuffix.trans ?_ (List.suffix_cons _ _)
      rcases hobject with ⟨cs'', hskip, -, rfl⟩ | ⟨n, fs, hfields, -⟩
      · exact suffix_of_skip hskip List.suffix_rfl
      · exact (fields_consumes ih n _ _ _ hfields).trans (skip_suffix cs')

end Suffix

/-! ## The texts of fields -/

section Found

/-- What may be behind the value of a field. -/
def Ends (rest : List Char) : Prop := ∃ cs, skip rest = ',' :: cs ∨ skip rest = '}' :: cs

/-- A text is written in a document as a literal which may be the value of a field. -/
def Found (document s : List Char) : Prop :=
  ∃ cs rest, '"' :: cs <:+ document ∧ string cs = some (s, rest) ∧ Ends rest

/-- A text is read from a literal. -/
theorem value_str {d : ℕ} {cs s rest : List Char} (h : value d cs = some (.str s, rest)) :
    ∃ cs', cs = '"' :: cs' ∧ string cs' = some (s, rest) := by
  rcases value_cases h with hscalar | ⟨_, _, -, -, harray⟩ | ⟨_, _, -, -, hobject⟩
  · unfold scalar at hscalar
    split at hscalar
    · cases hscalar
    · cases hscalar
    · cases hscalar
    · rename_i cs'
      obtain ⟨⟨s', rest'⟩, hstring, hsome⟩ := Option.map_eq_some_iff.mp hscalar
      cases hsome
      exact ⟨cs', rfl, hstring⟩
    · obtain ⟨⟨lit, rest'⟩, -, hsome⟩ := Option.map_eq_some_iff.mp hscalar
      cases hsome
  · rcases harray with ⟨_, -, hj, -⟩ | ⟨_, _, -, hj⟩
    · cases hj
    · cases hj
  · rcases hobject with ⟨_, -, hj, -⟩ | ⟨_, _, -, hj⟩
    · cases hj
    · cases hj

/-- What is found at the end of a text is found at the end of a longer one. -/
theorem Found.mono {document document' s : List Char} (h : Found document s)
    (hsuffix : document <:+ document') : Found document' s := by
  obtain ⟨cs, rest, hcs, hstring, hends⟩ := h
  exact ⟨cs, rest, hcs.trans hsuffix, hstring, hends⟩

/-- The texts of the fields that are read are found. -/
theorem found_of_mem_fields {d : ℕ} {k s : List Char} : ∀ {n : ℕ} {cs rest : List Char}
    {fs : List (List Char × Json)}, fields (value d) n cs = some (fs, rest) → (k, .str s) ∈ fs →
      Found cs s
  | 0, _, _, _, h, _ => by cases h
  | n + 1, cs, rest, fs, h, hmem => by
    simp only [fields, Option.bind_eq_bind, Option.bind_eq_some_iff] at h
    obtain ⟨⟨k', cs₁⟩, hname, ⟨j, cs₂⟩, hvalue, h⟩ := h
    have hstart : skip cs₁ <:+ cs := (skip_suffix cs₁).trans (fieldName_consumes _ _ _ hname)
    have hrest : cs₂ <:+ cs := (value_consumes d _ _ _ hvalue).trans hstart
    -- The first field is found where its value starts, if a comma or a brace follows.
    have hfirst : Ends cs₂ → (k, .str s) = (k', j) → Found cs s := by
      intro hends hsame
      obtain ⟨-, rfl⟩ := Prod.mk.inj hsame
      obtain ⟨cs', hcs', hstring⟩ := value_str hvalue
      exact ⟨cs', cs₂, hcs' ▸ hstart, hstring, hends⟩
    dsimp only at h
    split at h
    · rename_i hskip
      cases h
      exact hfirst ⟨_, Or.inr hskip⟩ (List.mem_singleton.mp hmem)
    · rename_i cs₃ hskip
      obtain ⟨⟨fs', rest'⟩, hfields, hsome⟩ := Option.map_eq_some_iff.mp h
      cases hsome
      rcases List.mem_cons.mp hmem with hsame | hmem
      · exact hfirst ⟨cs₃, Or.inl hskip⟩ hsame
      · have hsuffix := (suffix_of_skip hskip List.suffix_rfl).trans hrest
        exact (found_of_mem_fields hfields hmem).mono hsuffix
    · cases h

/-- A scalar is not an object. -/
theorem scalar_ne_obj {cs rest : List Char} {j : Json} (h : scalar cs = some (j, rest))
    (fs : List (List Char × Json)) : j ≠ .obj fs := by
  rintro rfl
  unfold scalar at h
  split at h
  · cases h
  · cases h
  · cases h
  · obtain ⟨_, -, hsome⟩ := Option.map_eq_some_iff.mp h
    cases hsome
  · obtain ⟨_, -, hsome⟩ := Option.map_eq_some_iff.mp h
    cases hsome

/-- The texts of the fields of a document are found in it. -/
theorem found_of_parse {document k s : List Char} {fs : List (List Char × Json)}
    (h : parse document = some (.obj fs)) (hmem : (k, .str s) ∈ fs) : Found document s := by
  unfold parse at h
  split at h
  · rename_i j rest hvalue
    split_ifs at h
    cases h
    refine Found.mono ?_ (skip_suffix document)
    rcases value_cases hvalue with hscalar | ⟨_, _, -, -, harray⟩ | ⟨d, cs, -, hcs, hobject⟩
    · exact absurd rfl (scalar_ne_obj hscalar fs)
    · rcases harray with ⟨_, -, hj, -⟩ | ⟨_, _, -, hj⟩
      · cases hj
      · cases hj
    · rcases hobject with ⟨_, -, hj, -⟩ | ⟨_, _, hfields, hj⟩
      · cases hj
        cases hmem
      · cases hj
        rw [hcs]
        exact (found_of_mem_fields hfields hmem).mono
          ((skip_suffix cs).trans (List.suffix_cons _ _))
  · cases h

/-- A literal in a text and what is behind it is in the text or behind it. -/
theorem suffix_text {cs tail : List Char} : ∀ {text : List Char}, '"' :: cs <:+ text ++ '"' :: tail →
    (∃ text', cs = text' ++ '"' :: tail ∧ '"' :: text' <:+ text) ∨ '"' :: cs <:+ '"' :: tail
  | [], h => Or.inr h
  | c :: text, h => by
    rcases List.suffix_cons_iff.mp h with hsame | hsuffix
    · obtain ⟨rfl, rfl⟩ := List.cons.inj hsame
      exact Or.inl ⟨text, rfl, List.suffix_rfl⟩
    · refine (suffix_text hsuffix).imp_left fun ⟨text', hcs, htext'⟩ => ⟨text', hcs, ?_⟩
      exact htext'.trans (List.suffix_cons c text)

/-- Before a quote, nothing is found. -/
theorem found_cons {c : Char} {document s : List Char} (hc : c ≠ '"') (h : Found (c :: document) s) :
    Found document s := by
  obtain ⟨cs, rest, hcs, hstring, hends⟩ := h
  refine ⟨cs, rest, (List.suffix_cons_iff.mp hcs).resolve_left fun hsame => ?_, hstring, hends⟩
  exact hc (List.cons.inj hsame).1.symm

/-- What is found behind a quote is a text from which only bare characters can be read, or it is not
longer than the text up to the next quote, or it is found behind that. -/
theorem found_text {text tail s : List Char}
    (hstop : ∀ raw rest, literalText tail = some (raw, rest) → ¬ Ends rest)
    (h : Found ('"' :: (text ++ '"' :: tail)) s) :
    s.all bare = true ∨ (text.all bare = false ∧ s.length < text.length) ∨
      Found ('"' :: tail) s := by
  obtain ⟨cs, rest, hcs, hstring, hends⟩ := h
  have hplace : (∃ text', cs = text' ++ '"' :: tail ∧ (text' = text ∨ '"' :: text' <:+ text)) ∨
      '"' :: cs <:+ '"' :: tail := by
    rcases List.suffix_cons_iff.mp hcs with hsame | hsuffix
    · exact Or.inl ⟨text, (List.cons.inj hsame).2, Or.inl rfl⟩
    · refine (suffix_text hsuffix).imp_left fun ⟨text', hcs', htext'⟩ => ?_
      exact ⟨text', hcs', Or.inr htext'⟩
  rcases hplace with ⟨text', rfl, htext'⟩ | hsuffix
  · obtain ⟨raw, hraw, hle, hbare⟩ := string_text hstring
    -- The literal ends in the text.
    have hinside : raw.length ≤ text'.length :=
      (literalText_append hraw).resolve_right fun ⟨raw', hraw'⟩ => hstop raw' rest hraw' hends
    have hshorter : text'.length ≤ text.length := by
      rcases htext' with rfl | hsuffix
      · exact Nat.le_refl _
      · have hlength := hsuffix.length_le
        rw [List.length_cons] at hlength
        omega
    cases hall : text.all bare with
    | false =>
      by_cases hsame : s.length = text.length
      · exact Or.inl (hbare (by omega))
      · exact Or.inr (Or.inl ⟨rfl, by omega⟩)
    | true =>
      -- There is no quote in the text, so the literal is all of it.
      have hwhole : text' = text := by
        refine htext'.resolve_right fun hsuffix => ?_
        have hquote := List.all_eq_true.mp hall '"' (hsuffix.subset List.mem_cons_self)
        exact absurd hquote (by decide)
      subst hwhole
      rw [string_bare hall] at hstring
      obtain ⟨rfl, -⟩ := Prod.mk.inj (Option.some.inj hstring)
      exact Or.inl hall
  · exact Or.inr (Or.inr ⟨cs, rest, hsuffix, hstring, hends⟩)

/-- What is found behind a quote is bare, when what is written there is bare, or it is found behind
the next quote. -/
theorem found_bare {text tail s : List Char} (htext : text.all bare = true)
    (h : Found ('"' :: (text ++ '"' :: tail)) s) : s.all bare = true ∨ Found ('"' :: tail) s := by
  obtain ⟨cs, rest, hcs, hstring, hends⟩ := h
  rcases List.suffix_cons_iff.mp hcs with hsame | hsuffix
  · obtain ⟨-, rfl⟩ := List.cons.inj hsame
    rw [string_bare htext] at hstring
    obtain ⟨rfl, -⟩ := Prod.mk.inj (Option.some.inj hstring)
    exact Or.inl htext
  · rcases suffix_text hsuffix with ⟨text', -, htext'⟩ | hsuffix
    · have hquote := List.all_eq_true.mp htext '"' (htext'.subset List.mem_cons_self)
      exact absurd hquote (by decide)
    · exact Or.inr ⟨cs, rest, hsuffix, hstring, hends⟩

/-- Texts with a quote before each. -/
def quoted (texts : List (List Char)) (tail : List Char) : List Char :=
  texts.foldr (fun text rest => '"' :: (text ++ rest)) tail

/-- Where only bare texts are written, only bare texts are found. -/
theorem found_quoted {tail s : List Char} : ∀ {texts : List (List Char)},
    (∀ text ∈ texts, text.all bare = true) → Found (quoted texts ('"' :: tail)) s →
      s.all bare = true ∨ Found ('"' :: tail) s
  | [], _, h => Or.inr h
  | [text], hbare, h => found_bare (hbare text List.mem_cons_self) h
  | text :: text' :: texts, hbare, h => by
    have hfound : Found ('"' :: (text ++ '"' :: (text' ++ quoted texts ('"' :: tail)))) s := h
    rcases found_bare (hbare text List.mem_cons_self) hfound with hs | hrest
    · exact Or.inl hs
    · exact found_quoted (fun t ht => hbare t (List.mem_cons_of_mem text ht)) hrest

end Found

/-! ## Fields that are texts -/

section Texts

variable {d n : ℕ} {k k' v v' : List Char}

/-- A literal with this text stands for `s`. -/
def Reads (raw s : List Char) : Prop := ∀ tail, string (raw ++ '"' :: tail) = some (s, tail)

/-- Bare characters stand for themselves. -/
theorem reads_bare {s : List Char} (h : s.all bare = true) : Reads s s := string_bare h

/-- What the encoder writes stands for what it encodes. -/
theorem reads_escape (s : List Char) : Reads (s.flatMap escapeChar) s := string_quote s

/-- A space before a field makes no difference. -/
theorem fields_space (p : List Char → Option (Json × List Char)) (cs : List Char) :
    fields p n (' ' :: cs) = fields p n cs := by
  cases n with
  | zero => rfl
  | succ n => rfl

/-- A field that is a text is read. -/
theorem fields_text (hk : Reads k' k) (hv : Reads v' v) (tail : List Char) :
    fields (value d) (n + 1) ('"' :: (k' ++ '"' :: ':' :: ' ' :: '"' :: (v' ++ '"' :: tail))) =
      match skip tail with
      | '}' :: cs => some ([(k, .str v)], cs)
      | ',' :: cs => (fields (value d) n cs).map fun (fs, rest) => ((k, .str v) :: fs, rest)
      | _ => none := by
  have hname : fieldName ('"' :: (k' ++ '"' :: ':' :: ' ' :: '"' :: (v' ++ '"' :: tail))) =
      some (k, ' ' :: '"' :: (v' ++ '"' :: tail)) := by
    unfold fieldName
    rw [skip_cons (by decide)]
    simp only [hk _, Option.bind_eq_bind, Option.bind_some]
    rfl
  have hvalue : value d (skip (' ' :: '"' :: (v' ++ '"' :: tail))) = some (.str v, tail) := by
    show value d ('"' :: (v' ++ '"' :: tail)) = _
    rw [value_eq_scalar (by decide) (by decide)]
    show (string (v' ++ '"' :: tail)).map _ = _
    rw [hv tail]
    rfl
  rw [fields, hname]
  refine (congrArg (fun r => Option.bind r _) hvalue).trans ?_
  rfl

/-- A field that is a text, before the closing brace. -/
theorem fields_text_last (hk : Reads k' k) (hv : Reads v' v) {tail cs : List Char}
    (h : skip tail = '}' :: cs) :
    fields (value d) (n + 1) ('"' :: (k' ++ '"' :: ':' :: ' ' :: '"' :: (v' ++ '"' :: tail))) =
      some ([(k, .str v)], cs) := by
  rw [fields_text hk hv, h]
  rfl

/-- A field that is a text, before another field. -/
theorem fields_text_cons (hk : Reads k' k) (hv : Reads v' v) {tail cs : List Char}
    (h : skip tail = ',' :: cs) :
    fields (value d) (n + 1) ('"' :: (k' ++ '"' :: ':' :: ' ' :: '"' :: (v' ++ '"' :: tail))) =
      (fields (value d) n cs).map fun (fs, rest) => ((k, .str v) :: fs, rest) := by
  rw [fields_text hk hv, h]
  rfl

/-- An object with fields is read. -/
theorem value_object {c : Char} {cs : List Char} (hspace : isSpace c = false) (hc : c ≠ '}') :
    value (d + 1) ('{' :: c :: cs) =
      (fields (value d) (cs.length + 1) (c :: cs)).map fun (fs, rest) => (.obj fs, rest) := by
  rw [value, skip_cons hspace]
  split
  · rename_i heq
    exact absurd (List.cons.inj heq).1 hc
  · rfl

end Texts

end Bsg.Foundations.Json
