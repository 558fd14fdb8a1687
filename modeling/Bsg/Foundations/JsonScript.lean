import Bsg.Foundations.JsonLiteral

/-!
# JSON as JavaScript writes it

`JSON.stringify` escapes less than the encoder of `Json`: a character that is no quote, no backslash
and no control character is written as it is. What it writes of an object whose members are texts,
or null, the decoder reads as that object (`parse_stringify`).
-/

namespace Bsg.Foundations.Json

/-- A character inside a string literal of `JSON.stringify`. -/
def scriptChar (c : Char) : List Char :=
  if c = '"' then ['\\', '"']
  else if c = '\\' then ['\\', '\\']
  else if c = '\x08' then ['\\', 'b']
  else if c = '\x0c' then ['\\', 'f']
  else if c = '\n' then ['\\', 'n']
  else if c = '\r' then ['\\', 'r']
  else if c = '\t' then ['\\', 't']
  else if c.toNat < 0x20 then escapeUnit c.toNat
  else [c]

/-- A string literal. -/
def scriptText (s : List Char) : List Char := '"' :: (s.flatMap scriptChar ++ ['"'])

/-- A member whose value is a text or null. -/
abbrev ScriptField := List Char × Option (List Char)

/-- A value. -/
def scriptValue : Option (List Char) → List Char
  | some s => scriptText s
  | none => ['n', 'u', 'l', 'l']

/-- The members of an object, with commas between them. -/
def scriptFields : List ScriptField → List Char
  | [] => []
  | [(k, v)] => scriptText k ++ ':' :: scriptValue v
  | (k, v) :: fs => scriptText k ++ ':' :: (scriptValue v ++ ',' :: scriptFields fs)

/-- Fields are written with commas between them. -/
theorem scriptFields_cons_cons (k : List Char) (v : Option (List Char)) (f : ScriptField)
    (fs : List ScriptField) : scriptFields ((k, v) :: f :: fs) =
      scriptText k ++ ':' :: (scriptValue v ++ ',' :: scriptFields (f :: fs)) := rfl

/-- `JSON.stringify` for an object -/
def stringify (fs : List ScriptField) : List Char := '{' :: (scriptFields fs ++ ['}'])

/-- The member as the field of a document. -/
def ScriptField.document (f : ScriptField) : List Char × Json := (f.1, f.2.elim null str)

/-! ## Reading back -/

/-- The piece that a character is written as. -/
def scriptPiece (c : Char) : Piece :=
  if c = '\x08' ∨ c = '\x0c' ∨ c = '\n' ∨ c = '\r' ∨ c = '\t' then .char c
  else if c.toNat < 0x20 then .unit c.toNat
  else .char c

/-- A letter is a piece of its own, or an escaped unit. -/
theorem scriptPiece_cases (c : Char) :
    scriptPiece c = .char c ∨ scriptPiece c = .unit c.toNat ∧ c.toNat < 0xd800 := by
  unfold scriptPiece
  split_ifs with hletter hunit
  · exact Or.inl rfl
  · exact Or.inr ⟨rfl, by omega⟩
  · exact Or.inl rfl

/-- A character is read back as its piece. -/
theorem pieces_scriptChar (c : Char) (cs : List Char) :
    pieces (scriptChar c ++ cs) = (pieces cs).map fun p => (scriptPiece c :: p.1, p.2) := by
  unfold scriptChar
  split_ifs with h1 h2 h3 h4 h5 h6 h7 h8
  · subst h1
    exact pieces_letter rfl (by decide) cs
  · subst h2
    exact pieces_letter rfl (by decide) cs
  · subst h3
    exact pieces_letter rfl (by decide) cs
  · subst h4
    exact pieces_letter rfl (by decide) cs
  · subst h5
    exact pieces_letter rfl (by decide) cs
  · subst h6
    exact pieces_letter rfl (by decide) cs
  · subst h7
    exact pieces_letter rfl (by decide) cs
  · rw [pieces_escapeUnit (by omega)]
    simp [scriptPiece, h3, h4, h5, h6, h7, h8]
  · have hpiece : scriptPiece c = .char c := by simp [scriptPiece, h8]
    rw [hpiece]
    exact pieces_cons_bare (bare_iff.mpr ⟨h1, h2, h8⟩) cs

/-- A literal is read back. -/
theorem reads_script (s : List Char) : Reads (s.flatMap scriptChar) s := by
  intro tail
  have hpieces : pieces (s.flatMap scriptChar ++ '"' :: tail) = some (s.map scriptPiece, tail) := by
    induction s with
    | nil => rfl
    | cons c s ih =>
      rw [List.flatMap_cons, List.append_assoc, pieces_scriptChar, ih]
      rfl
  rw [string, hpieces]
  exact congrArg (fun l => some (l, tail)) (join_map scriptPiece_cases s)

/-- A value is read back. -/
theorem value_script (v : Option (List Char)) (d : ℕ) (tail : List Char) :
    value d (scriptValue v ++ tail) = some (v.elim null str, tail) := by
  cases v with
  | none => exact value_eq_scalar (by decide) (by decide) d
  | some s =>
    rw [scriptValue, scriptText, List.cons_append, List.append_assoc,
      value_eq_scalar (by decide) (by decide)]
    change (string (s.flatMap scriptChar ++ '"' :: tail)).map _ = _
    rw [reads_script s tail]
    rfl

/-- The name of a field is read up to its colon. -/
theorem fieldName_script (k tail : List Char) :
    fieldName (scriptText k ++ ':' :: tail) = some (k, tail) := by
  rw [fieldName, scriptText, List.cons_append, List.append_assoc, skip_cons (by decide)]
  change (string (k.flatMap scriptChar ++ '"' :: (':' :: tail))).bind _ = _
  rw [reads_script k]
  rfl

/-- A value does not begin with a blank. -/
theorem skip_scriptValue (v : Option (List Char)) (tail : List Char) :
    skip (scriptValue v ++ tail) = scriptValue v ++ tail := by
  cases v with
  | none => exact skip_cons (by decide) _
  | some s => exact skip_cons (by decide) _

/-- The members of an object are read back. -/
theorem fields_script {d : ℕ} {t : List Char} : ∀ {fs : List ScriptField}, fs ≠ [] →
    ∀ {n : ℕ}, fs.length ≤ n → fields (value d) n (scriptFields fs ++ '}' :: t) =
      some (fs.map ScriptField.document, t)
  | [], h, _, _ => absurd rfl h
  | [(k, v)], _, n, hn => by
    obtain ⟨n, rfl⟩ : ∃ m, n = m + 1 := ⟨n - 1, by simp only [List.length_cons] at hn; omega⟩
    rw [scriptFields, List.append_assoc, List.cons_append, fields, fieldName_script]
    simp only [Option.bind_eq_bind, Option.bind_some, skip_scriptValue, value_script,
      skip_cons (c := '}') (by decide)]
    rfl
  | (k, v) :: f :: fs, _, n, hn => by
    obtain ⟨n, rfl⟩ : ∃ m, n = m + 1 := ⟨n - 1, by simp only [List.length_cons] at hn; omega⟩
    have hrest := fields_script (d := d) (t := t) (List.cons_ne_nil f fs)
      (Nat.le_of_succ_le_succ hn)
    rw [scriptFields_cons_cons, List.append_assoc, List.cons_append, List.append_assoc, fields,
      fieldName_script]
    simp only [Option.bind_eq_bind, Option.bind_some, skip_scriptValue, value_script,
      List.cons_append, skip_cons (c := ',') (by decide), hrest]
    rfl

/-- Every field takes at least a letter. -/
theorem length_le_scriptFields (fs : List ScriptField) : fs.length ≤ (scriptFields fs).length := by
  induction fs with
  | nil => exact le_rfl
  | cons f fs ih =>
    obtain ⟨k, v⟩ := f
    cases fs with
    | nil =>
      simp only [scriptFields, List.length_append, List.length_cons, List.length_nil]
      omega
    | cons f fs =>
      simp only [scriptFields_cons_cons, List.length_append, List.length_cons] at ih ⊢
      omega

/-- What `JSON.stringify` writes of an object is read as that object. -/
theorem parse_stringify (fs : List ScriptField) :
    parse (stringify fs) = some (obj (fs.map ScriptField.document)) := by
  cases fs with
  | nil => rfl
  | cons f fs =>
    obtain ⟨k, v⟩ := f
    have hhead : ∃ cs, scriptFields ((k, v) :: fs) = '"' :: cs := by
      cases fs <;> exact ⟨_, rfl⟩
    obtain ⟨cs, hcs⟩ := hhead
    have hlength : ((k, v) :: fs).length ≤ cs.length + 1 + 1 := by
      have hle := length_le_scriptFields ((k, v) :: fs)
      rw [hcs] at hle
      exact hle.trans (Nat.le_succ _)
    have hfields := fields_script (d := maxNestingDepth - 1) (t := []) (List.cons_ne_nil (k, v) fs)
      hlength
    rw [hcs, List.cons_append] at hfields
    have hvalue : value maxNestingDepth (skip (stringify ((k, v) :: fs))) =
        some (obj (((k, v) :: fs).map ScriptField.document), []) := by
      rw [stringify, hcs, skip_cons (by decide), List.cons_append]
      refine (value_object (d := maxNestingDepth - 1) (by decide) (by decide)).trans ?_
      rw [List.length_append, List.length_singleton, hfields]
      rfl
    exact parse_of_value hvalue

end Bsg.Foundations.Json
