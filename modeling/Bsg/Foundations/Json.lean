import Mathlib.Data.Nat.Notation
import Mathlib.Data.Int.Notation
import Mathlib.Data.Option.Basic
import Mathlib.Tactic.Common

/-!
# JSON texts

JSON as a server's standard encoder writes it and its standard decoder reads it, on texts given as
lists of characters (an invalid byte of the input is read as U+FFFD, so every input is such a text).

The encoder `render` writes without spaces and escapes, besides what JSON demands, the characters
`<`, `>`, `&`, U+2028 and U+2029. The decoder `parse` accepts spaces between tokens, joins surrogate
pairs written as two escapes, reads a lone surrogate as U+FFFD, and refuses values nested deeper
than `maxNestingDepth`. The main result is `parse_render`: the decoder reads back what the encoder
wrote, for every document whose numbers are integers.

`decodeStruct` reads an object into a record field by field: names match up to the case of their
letters, a field that occurs twice is read twice, `null` leaves a field as it is, and an unknown
field is skipped.
-/

namespace Bsg.Foundations

/-- A JSON document; a number is kept as it is written. -/
inductive Json where
  | null
  | bool (b : Bool)
  | num (lit : List Char)
  | str (s : List Char)
  | arr (items : List Json)
  | obj (fields : List (List Char × Json))

namespace Json

/-! ## Writing -/

/-- A hexadecimal digit, in lower case. -/
def hexDigit (n : ℕ) : Char := Nat.digitChar n

/-- The escape of a UTF-16 code unit. -/
def escapeUnit (n : ℕ) : List Char :=
  ['\\', 'u', hexDigit (n / 4096 % 16), hexDigit (n / 256 % 16), hexDigit (n / 16 % 16),
    hexDigit (n % 16)]

/-- Characters that the encoder writes as a code unit: control characters, the characters that have
a meaning in HTML, and two line separators. -/
def needsUnit (c : Char) : Bool :=
  c.toNat < 0x20 || c == '<' || c == '>' || c == '&' || c.toNat == 0x2028 || c.toNat == 0x2029

/-- A character inside a string literal. -/
def escapeChar (c : Char) : List Char :=
  if c = '"' then ['\\', '"']
  else if c = '\\' then ['\\', '\\']
  else if c = '\x08' then ['\\', 'b']
  else if c = '\x0c' then ['\\', 'f']
  else if c = '\n' then ['\\', 'n']
  else if c = '\r' then ['\\', 'r']
  else if c = '\t' then ['\\', 't']
  else if needsUnit c then escapeUnit c.toNat
  else [c]

/-- A character is written as itself, or behind a backslash. -/
theorem escapeChar_cases (c : Char) : escapeChar c = [c] ∨ ∃ cs, escapeChar c = '\\' :: cs := by
  fun_cases escapeChar c with
  | case9 => exact Or.inl rfl
  | _ => exact Or.inr ⟨_, rfl⟩

/-- A string literal. -/
def quote (s : List Char) : List Char := '"' :: (s.flatMap escapeChar ++ ['"'])

mutual
/-- The text of a document. -/
def render : Json → List Char
  | null => ['n', 'u', 'l', 'l']
  | bool true => ['t', 'r', 'u', 'e']
  | bool false => ['f', 'a', 'l', 's', 'e']
  | num lit => lit
  | str s => quote s
  | arr items => '[' :: (renderItems items ++ [']'])
  | obj fields => '{' :: (renderFields fields ++ ['}'])

/-- The items of an array, with commas between them. -/
def renderItems : List Json → List Char
  | [] => []
  | [j] => render j
  | j :: js => render j ++ ',' :: renderItems js

/-- The fields of an object, with commas between them. -/
def renderFields : List (List Char × Json) → List Char
  | [] => []
  | [(k, j)] => quote k ++ ':' :: render j
  | (k, j) :: fs => quote k ++ ':' :: (render j ++ ',' :: renderFields fs)
end

/-! ## Reading -/

/-- White space between tokens. -/
def isSpace (c : Char) : Bool := c == ' ' || c == '\t' || c == '\r' || c == '\n'

/-- The text after its leading white space. -/
def skip (cs : List Char) : List Char := cs.dropWhile isSpace

/-- The value of a hexadecimal digit of either case. -/
def hexVal (c : Char) : Option ℕ :=
  if '0' ≤ c ∧ c ≤ '9' then some (c.toNat - '0'.toNat)
  else if 'a' ≤ c ∧ c ≤ 'f' then some (c.toNat - 'a'.toNat + 10)
  else if 'A' ≤ c ∧ c ≤ 'F' then some (c.toNat - 'A'.toNat + 10)
  else none

/-- The character that a one-letter escape stands for. -/
def unescape (c : Char) : Option Char :=
  if c = '"' then some '"'
  else if c = '\\' then some '\\'
  else if c = '/' then some '/'
  else if c = 'b' then some '\x08'
  else if c = 'f' then some '\x0c'
  else if c = 'n' then some '\n'
  else if c = 'r' then some '\r'
  else if c = 't' then some '\t'
  else none

/-- A piece of a string literal: a character, or a UTF-16 code unit written as an escape. -/
inductive Piece where
  | char (c : Char)
  | unit (n : ℕ)

/-- The pieces of a string literal, from behind its opening quote. -/
def pieces : List Char → Option (List Piece × List Char)
  | [] => none
  | '"' :: cs => some ([], cs)
  | '\\' :: 'u' :: a :: b :: c :: d :: cs => do
    let a ← hexVal a
    let b ← hexVal b
    let c ← hexVal c
    let d ← hexVal d
    let (ps, rest) ← pieces cs
    some (.unit (((a * 16 + b) * 16 + c) * 16 + d) :: ps, rest)
  | '\\' :: c :: cs => do
    let c ← unescape c
    let (ps, rest) ← pieces cs
    some (.char c :: ps, rest)
  | c :: cs =>
    if c.toNat < 0x20 then none
    else do
      let (ps, rest) ← pieces cs
      some (.char c :: ps, rest)

/-- The first half of a surrogate pair. -/
def isHigh (n : ℕ) : Bool := 0xd800 ≤ n && n < 0xdc00

/-- The second half of a surrogate pair. -/
def isLow (n : ℕ) : Bool := 0xdc00 ≤ n && n < 0xe000

/-- The character of a code unit that is not part of a pair. -/
def unitChar (n : ℕ) : Char := if isHigh n || isLow n then '\uFFFD' else Char.ofNat n

/-- The characters of the pieces, surrogate pairs joined. -/
def join : List Piece → List Char
  | [] => []
  | .char c :: ps => c :: join ps
  | .unit n :: .unit m :: ps =>
    if isHigh n && isLow m then
      Char.ofNat ((n - 0xd800) * 0x400 + (m - 0xdc00) + 0x10000) :: join ps
    else unitChar n :: join (.unit m :: ps)
  | .unit n :: ps => unitChar n :: join ps

/-- A string literal, from behind its opening quote. -/
def string (cs : List Char) : Option (List Char × List Char) :=
  (pieces cs).map fun (ps, rest) => (join ps, rest)

/-- A run of digits, and what is behind it. -/
def digits (cs : List Char) : List Char × List Char :=
  (cs.takeWhile Char.isDigit, cs.dropWhile Char.isDigit)

/-- The integer part of a number: no leading zero. -/
def integerPart (cs : List Char) : Option (List Char × List Char) :=
  match digits cs with
  | ([], _) => none
  | ('0' :: _ :: _, _) => none
  | (ds, rest) => some (ds, rest)

/-- The fraction of a number, which may be absent. -/
def fractionPart : List Char → Option (List Char × List Char)
  | '.' :: cs =>
    match digits cs with
    | ([], _) => none
    | (ds, rest) => some ('.' :: ds, rest)
  | cs => some ([], cs)

/-- The sign of an exponent, which may be absent. -/
def signPart : List Char → List Char × List Char
  | '+' :: cs => (['+'], cs)
  | '-' :: cs => (['-'], cs)
  | cs => ([], cs)

/-- The exponent of a number, which may be absent. -/
def exponentPart (cs : List Char) : Option (List Char × List Char) :=
  match cs with
  | e :: cs' =>
    if e = 'e' ∨ e = 'E' then
      match digits (signPart cs').2 with
      | ([], _) => none
      | (ds, rest) => some (e :: (signPart cs').1 ++ ds, rest)
    else some ([], cs)
  | [] => some ([], [])

/-- A number without its sign. -/
def unsigned (cs : List Char) : Option (List Char × List Char) := do
  let (i, cs) ← integerPart cs
  let (f, cs) ← fractionPart cs
  let (e, cs) ← exponentPart cs
  some (i ++ f ++ e, cs)

/-- A number. -/
def number : List Char → Option (List Char × List Char)
  | '-' :: cs => (unsigned cs).map fun (lit, rest) => ('-' :: lit, rest)
  | cs => unsigned cs

/-- A value that is not an array or an object. -/
def scalar : List Char → Option (Json × List Char)
  | 'n' :: 'u' :: 'l' :: 'l' :: cs => some (.null, cs)
  | 't' :: 'r' :: 'u' :: 'e' :: cs => some (.bool true, cs)
  | 'f' :: 'a' :: 'l' :: 's' :: 'e' :: cs => some (.bool false, cs)
  | '"' :: cs => (string cs).map fun (s, rest) => (.str s, rest)
  | cs => (number cs).map fun (lit, rest) => (.num lit, rest)

/-- The items of an array up to its closing bracket, each read by `p`. The number bounds how many
there are. -/
def items (p : List Char → Option (Json × List Char)) :
    ℕ → List Char → Option (List Json × List Char)
  | 0, _ => none
  | n + 1, cs => do
    let (j, cs) ← p (skip cs)
    match skip cs with
    | ']' :: cs => some ([j], cs)
    | ',' :: cs => (items p n cs).map fun (js, rest) => (j :: js, rest)
    | _ => none

/-- The name of a field with its colon. -/
def fieldName (cs : List Char) : Option (List Char × List Char) :=
  match skip cs with
  | '"' :: cs => do
    let (k, cs) ← string cs
    match skip cs with
    | ':' :: cs => some (k, cs)
    | _ => none
  | _ => none

/-- The fields of an object up to its closing brace, each value read by `p`. The number bounds how
many there are. -/
def fields (p : List Char → Option (Json × List Char)) :
    ℕ → List Char → Option (List (List Char × Json) × List Char)
  | 0, _ => none
  | n + 1, cs => do
    let (k, cs) ← fieldName cs
    let (j, cs) ← p (skip cs)
    match skip cs with
    | '}' :: cs => some ([(k, j)], cs)
    | ',' :: cs => (fields p n cs).map fun (fs, rest) => ((k, j) :: fs, rest)
    | _ => none

/-- A value whose arrays and objects are nested at most `d` deep. -/
def value : ℕ → List Char → Option (Json × List Char)
  | d + 1, '[' :: cs =>
    match skip cs with
    | ']' :: cs => some (.arr [], cs)
    | cs => (items (value d) cs.length cs).map fun (js, rest) => (.arr js, rest)
  | d + 1, '{' :: cs =>
    match skip cs with
    | '}' :: cs => some (.obj [], cs)
    | cs => (fields (value d) cs.length cs).map fun (fs, rest) => (.obj fs, rest)
  | _, cs => scalar cs

/-- How deep arrays and objects may be nested. -/
def maxNestingDepth : ℕ := 10000

/-- Reads a text that is one document. -/
def parse (cs : List Char) : Option Json :=
  match value maxNestingDepth (skip cs) with
  | some (j, rest) => if skip rest = [] then some j else none
  | none => none

/-! ## Reading back a string -/

/-- A hexadecimal digit is read as it was written. -/
theorem hexVal_hexDigit : ∀ d < 16, hexVal (hexDigit d) = some d := by decide

/-- A code unit is read back. -/
theorem pieces_escapeUnit {n : ℕ} (h : n < 65536) (cs : List Char) :
    pieces (escapeUnit n ++ cs) = (pieces cs).map fun p => (.unit n :: p.1, p.2) := by
  have h1 := hexVal_hexDigit (n / 4096 % 16) (Nat.mod_lt _ (by omega))
  have h2 := hexVal_hexDigit (n / 256 % 16) (Nat.mod_lt _ (by omega))
  have h3 := hexVal_hexDigit (n / 16 % 16) (Nat.mod_lt _ (by omega))
  have h4 := hexVal_hexDigit (n % 16) (Nat.mod_lt _ (by omega))
  have hn : ((n / 4096 % 16 * 16 + n / 256 % 16) * 16 + n / 16 % 16) * 16 + n % 16 = n := by omega
  simp only [escapeUnit, List.cons_append, List.nil_append, pieces, h1, h2, h3, h4, hn,
    Option.bind_eq_bind, Option.bind_some]
  cases pieces cs <;> rfl

/-- A one-letter escape is read back. -/
theorem pieces_letter {c c' : Char} (hc : unescape c = some c') (hp : c ≠ 'u') (cs : List Char) :
    pieces ('\\' :: c :: cs) = (pieces cs).map fun p => (.char c' :: p.1, p.2) := by
  rw [pieces.eq_def]
  split
  · simp_all
  · simp_all
  · simp_all
  · rename_i heq
    simp only [List.cons.injEq, true_and] at heq
    obtain ⟨rfl, rfl⟩ := heq
    simp only [hc, Option.bind_eq_bind, Option.bind_some]
    cases pieces cs <;> rfl
  · rename_i hne heq
    obtain ⟨rfl, rfl⟩ := List.cons.inj heq
    exact absurd rfl (hne c cs rfl)

/-- The piece that a character is written as. -/
def pieceOf (c : Char) : Piece :=
  if c = '\x08' ∨ c = '\x0c' ∨ c = '\n' ∨ c = '\r' ∨ c = '\t' then .char c
  else if needsUnit c then .unit c.toNat
  else .char c

/-- A letter that is written as an escaped unit is below the surrogates. -/
theorem toNat_lt_of_needsUnit {c : Char} (h : needsUnit c = true) : c.toNat < 0xd800 := by
  simp only [needsUnit, Bool.or_eq_true, decide_eq_true_eq, beq_iff_eq] at h
  rcases h with ((((h | rfl) | rfl) | rfl) | h) | h
  · omega
  · decide
  · decide
  · decide
  · omega
  · omega

/-- An escaped character is read back as its piece. -/
theorem pieces_escapeChar (c : Char) (cs : List Char) :
    pieces (escapeChar c ++ cs) = (pieces cs).map fun p => (pieceOf c :: p.1, p.2) := by
  unfold escapeChar
  split_ifs with h1 h2 h3 h4 h5 h6 h7 h8
  · subst h1
    exact pieces_letter rfl (by decide) cs
  · subst h2
    exact pieces_letter rfl (by decide) cs
  · subst h3
    exact pieces_letter rfl (by decide) cs
  · subst h4
    exact pieces_letter rfl (by decide) cs
  · subst h5
    exact pieces_letter rfl (by decide) cs
  · subst h6
    exact pieces_letter rfl (by decide) cs
  · subst h7
    exact pieces_letter rfl (by decide) cs
  · -- The other control characters are written as four hexadecimal digits.
    have hlt := toNat_lt_of_needsUnit h8
    rw [pieces_escapeUnit (by omega)]
    simp [pieceOf, h3, h4, h5, h6, h7, h8]
  · -- And the rest are written as they are, which none of the cases of the reader takes for
    -- anything else.
    have hlt : ¬ c.toNat < 0x20 := by
      intro h
      simp [needsUnit, h] at h8
    have hp : pieceOf c = .char c := by simp [pieceOf, h8]
    rw [List.singleton_append, pieces.eq_def]
    split
    · simp_all
    · simp_all
    · simp_all
    · simp_all
    · rename_i heq
      obtain ⟨rfl, rfl⟩ := List.cons.inj heq
      rw [if_neg hlt, hp]
      cases pieces cs <;> rfl

/-- An escaped text is read as its letters, up to the quote. -/
theorem pieces_escape (s rest : List Char) :
    pieces (s.flatMap escapeChar ++ '"' :: rest) = some (s.map pieceOf, rest) := by
  induction s with
  | nil => rfl
  | cons c s ih =>
    rw [List.flatMap_cons, List.append_assoc, pieces_escapeChar, ih]
    rfl

/-- Joining the pieces of characters gives the characters, when no code unit is half of a pair. -/
theorem join_map {q : Char → Piece}
    (hq : ∀ c, q c = .char c ∨ q c = .unit c.toNat ∧ c.toNat < 0xd800) (s : List Char) :
    join (s.map q) = s := by
  induction s with
  | nil => rfl
  | cons c s ih =>
    rw [List.map_cons]
    rcases hq c with hchar | ⟨hunit, hlt⟩
    · rw [hchar, join, ih]
    · -- A unit below the surrogates is a character of its own.
      have hhigh : isHigh c.toNat = false := by
        simp only [isHigh, Bool.and_eq_false_iff, decide_eq_false_iff_not]
        exact Or.inl (by omega)
      have hlow : isLow c.toNat = false := by
        simp only [isLow, Bool.and_eq_false_iff, decide_eq_false_iff_not]
        exact Or.inl (by omega)
      have hc : unitChar c.toNat = c := by
        rw [unitChar, hhigh, hlow]
        exact Char.ofNat_toNat c
      rw [hunit, join.eq_def]
      split
      · simp_all
      · simp_all
      · rename_i heq
        obtain ⟨h1, h2⟩ := List.cons.inj heq
        obtain rfl := Piece.unit.inj h1
        rw [hhigh, Bool.false_and, if_neg Bool.false_ne_true, hc, ← h2, ih]
      · rename_i heq
        obtain ⟨h1, h2⟩ := List.cons.inj heq
        obtain rfl := Piece.unit.inj h1
        rw [hc, ← h2, ih]

/-- Joining the pieces gives the characters: no written code unit is half of a pair. -/
theorem join_pieceOf (s : List Char) : join (s.map pieceOf) = s := by
  refine join_map (fun c => ?_) s
  unfold pieceOf
  split_ifs with hletter hunit
  · exact Or.inl rfl
  · exact Or.inr ⟨rfl, toNat_lt_of_needsUnit hunit⟩
  · exact Or.inl rfl

/-- A string literal is read back. -/
theorem string_quote (s rest : List Char) :
    string (s.flatMap escapeChar ++ '"' :: rest) = some (s, rest) := by
  rw [string, pieces_escape]
  exact congrArg (fun l => some (l, rest)) (join_pieceOf s)

/-! ## Reading back a number -/

/-- A text that may stand behind a value: nothing, or a comma or a closing bracket first. -/
def Closes (rest : List Char) : Prop := ∀ c ∈ rest.head?, c = ',' ∨ c = ']' ∨ c = '}'

/-- The end of the text ends a number. -/
theorem closes_nil : Closes [] := by simp [Closes]

/-- A comma ends a number. -/
theorem closes_comma (cs : List Char) : Closes (',' :: cs) := by simp [Closes]

/-- A closing bracket ends a number. -/
theorem closes_bracket (cs : List Char) : Closes (']' :: cs) := by simp [Closes]

/-- A closing brace ends a number. -/
theorem closes_brace (cs : List Char) : Closes ('}' :: cs) := by simp [Closes]

/-- The decimal form of a number has digits only. -/
theorem isDigit_of_mem_toDigits {n : ℕ} {c : Char} (h : c ∈ Nat.toDigits 10 n) :
    c.isDigit = true := Nat.isDigit_of_mem_toDigits (by decide) (by decide) h

/-- A digit is none of the other letters. -/
theorem ne_of_isDigit {c c' : Char} (h : c.isDigit = true) (h' : c'.isDigit = false) : c ≠ c' := by
  rintro rfl
  rw [h] at h'
  cases h'

/-- The decimal digits of a number start with a zero only when they are that zero. -/
theorem toDigits_no_leading_zero (n : ℕ) (c : Char) (cs : List Char) :
    Nat.toDigits 10 n ≠ '0' :: c :: cs := by
  induction n using Nat.strongRecOn generalizing c cs with
  | ind n ih =>
    intro h
    rcases Nat.lt_or_ge n 10 with hn | hn
    · rw [Nat.toDigits_of_lt_base hn] at h
      simp at h
    · rw [Nat.toDigits_of_base_le (by decide) hn] at h
      cases hd : Nat.toDigits 10 (n / 10) with
      | nil => exact Nat.toDigits_ne_nil hd
      | cons a as =>
        rw [hd, List.cons_append] at h
        obtain ⟨rfl, h⟩ := List.cons.inj h
        cases as with
        | nil =>
          have h0 := Nat.ofDigitChars_ten_toDigits (n := n / 10)
          rw [hd] at h0
          simp [Nat.ofDigitChars_cons] at h0
          omega
        | cons b bs => exact ih (n / 10) (by omega) b bs hd

/-- Digits are read up to what ends a number. -/
theorem digits_append {ds rest : List Char} (hd : ∀ c ∈ ds, c.isDigit = true)
    (hr : Closes rest) : digits (ds ++ rest) = (ds, rest) := by
  have hrest : rest.takeWhile Char.isDigit = [] ∧ rest.dropWhile Char.isDigit = rest := by
    cases rest with
    | nil => exact ⟨rfl, rfl⟩
    | cons c cs =>
      have hc : c.isDigit = false := by
        rcases hr c rfl with rfl | rfl | rfl <;> decide
      exact ⟨List.takeWhile_cons_of_neg (by simp [hc]), List.dropWhile_cons_of_neg (by simp [hc])⟩
  rw [digits, List.takeWhile_append_of_pos hd, List.dropWhile_append_of_pos hd, hrest.1, hrest.2,
    List.append_nil]

/-- A natural number is read back. -/
theorem unsigned_toDigits (n : ℕ) {rest : List Char} (hr : Closes rest) :
    unsigned (Nat.toDigits 10 n ++ rest) = some (Nat.toDigits 10 n, rest) := by
  have hdig : digits (Nat.toDigits 10 n ++ rest) = (Nat.toDigits 10 n, rest) :=
    digits_append (fun _ => isDigit_of_mem_toDigits) hr
  have hint : integerPart (Nat.toDigits 10 n ++ rest) = some (Nat.toDigits 10 n, rest) := by
    rw [integerPart, hdig]
    split
    · rename_i heq
      exact absurd (Prod.mk.inj heq).1 Nat.toDigits_ne_nil
    · rename_i heq
      exact absurd (Prod.mk.inj heq).1 (toDigits_no_leading_zero n _ _)
    · rename_i heq
      rw [← heq]
  have hfrac : fractionPart rest = some ([], rest) := by
    cases rest with
    | nil => rfl
    | cons c cs => rcases hr c rfl with rfl | rfl | rfl <;> rfl
  have hexp : exponentPart rest = some ([], rest) := by
    cases rest with
    | nil => rfl
    | cons c cs => rcases hr c rfl with rfl | rfl | rfl <;> rfl
  simp [unsigned, hint, hfrac, hexp]

/-- An integer in decimal notation. -/
def integer : ℤ → List Char
  | .ofNat n => Nat.toDigits 10 n
  | .negSucc n => '-' :: Nat.toDigits 10 (n + 1)

/-- The character can stand at the front of an integer. -/
def startsInteger (c : Char) : Bool := c.isDigit || c == '-'

/-- The first letter of an integer is none of the letters that begin another value. -/
theorem ne_of_startsInteger {c c' : Char} (h : startsInteger c = true)
    (h' : startsInteger c' = false) : c ≠ c' := by
  rintro rfl
  rw [h] at h'
  cases h'

/-- An integer starts with a digit or a sign. -/
theorem integer_head (n : ℤ) : ∃ c cs, integer n = c :: cs ∧ startsInteger c = true := by
  cases n with
  | negSucc n => exact ⟨'-', _, rfl, rfl⟩
  | ofNat n =>
    cases h : Nat.toDigits 10 n with
    | nil => exact absurd h Nat.toDigits_ne_nil
    | cons d ds =>
      have hd : d.isDigit = true := isDigit_of_mem_toDigits (by rw [h]; exact List.mem_cons_self)
      exact ⟨d, ds, h, by rw [startsInteger, hd, Bool.true_or]⟩

/-- An integer is read back. -/
theorem number_integer (n : ℤ) {rest : List Char} (hr : Closes rest) :
    number (integer n ++ rest) = some (integer n, rest) := by
  cases n with
  | negSucc n =>
    change (unsigned (Nat.toDigits 10 (n + 1) ++ rest)).map _ = _
    rw [unsigned_toDigits (n + 1) hr]
    rfl
  | ofNat n =>
    have huns := unsigned_toDigits n hr
    change number (Nat.toDigits 10 n ++ rest) = some (Nat.toDigits 10 n, rest)
    cases h : Nat.toDigits 10 n with
    | nil => exact absurd h Nat.toDigits_ne_nil
    | cons d ds =>
      have hd : d.isDigit = true := isDigit_of_mem_toDigits (by rw [h]; exact List.mem_cons_self)
      rw [h] at huns
      rw [number.eq_def]
      split
      · rename_i heq
        exact absurd (List.cons.inj heq).1 (ne_of_isDigit hd (by decide))
      · exact huns

/-! ## Reading back a document -/

mutual
/-- All numbers of the document are integers in decimal notation. -/
def Plain : Json → Prop
  | num lit => ∃ n, lit = integer n
  | arr items => PlainItems items
  | obj fields => PlainFields fields
  | _ => True

/-- All numbers of the items are integers. -/
def PlainItems : List Json → Prop
  | [] => True
  | j :: js => Plain j ∧ PlainItems js

/-- All numbers of the fields are integers. -/
def PlainFields : List (List Char × Json) → Prop
  | [] => True
  | (_, j) :: fs => Plain j ∧ PlainFields fs
end

mutual
/-- How deep arrays and objects are nested. -/
def depth : Json → ℕ
  | arr items => depthItems items + 1
  | obj fields => depthFields fields + 1
  | _ => 0

/-- The depth of the deepest item. -/
def depthItems : List Json → ℕ
  | [] => 0
  | j :: js => max (depth j) (depthItems js)

/-- The depth of the deepest field. -/
def depthFields : List (List Char × Json) → ℕ
  | [] => 0
  | (_, j) :: fs => max (depth j) (depthFields fs)
end

/-- What is not blank is not skipped. -/
theorem skip_cons {c : Char} (h : isSpace c = false) (cs : List Char) : skip (c :: cs) = c :: cs :=
  List.dropWhile_cons_of_neg (by simp [h])

/-- The text of a document starts with a character that is neither a space nor a closing bracket. -/
theorem render_head (j : Json) (hj : Plain j) :
    ∃ c cs, render j = c :: cs ∧ isSpace c = false ∧ c ≠ ']' ∧ c ≠ '}' := by
  match j, hj with
  | null, _ => exact ⟨_, _, rfl, by decide, by decide, by decide⟩
  | bool true, _ => exact ⟨_, _, rfl, by decide, by decide, by decide⟩
  | bool false, _ => exact ⟨_, _, rfl, by decide, by decide, by decide⟩
  | str _, _ => exact ⟨_, _, rfl, by decide, by decide, by decide⟩
  | arr _, _ => exact ⟨'[', _, rfl, by decide, by decide, by decide⟩
  | obj _, _ => exact ⟨'{', _, rfl, by decide, by decide, by decide⟩
  | num lit, hj =>
    obtain ⟨n, rfl⟩ := hj
    obtain ⟨c, cs, hint, hc⟩ := integer_head n
    refine ⟨c, cs, hint, ?_, ne_of_startsInteger hc (by decide), ne_of_startsInteger hc (by decide)⟩
    rw [Bool.eq_false_iff]
    intro hs
    simp only [isSpace, Bool.or_eq_true, beq_iff_eq] at hs
    rcases hs with ((rfl | rfl) | rfl) | rfl <;> simp [startsInteger] at hc

/-- Items are written with commas between them. -/
theorem renderItems_cons_cons (j j' : Json) (js : List Json) :
    renderItems (j :: j' :: js) = render j ++ ',' :: renderItems (j' :: js) := rfl

/-- Fields are written with commas between them. -/
theorem renderFields_cons_cons (k : List Char) (j : Json) (f : List Char × Json)
    (fs : List (List Char × Json)) :
    renderFields ((k, j) :: f :: fs) =
      quote k ++ ':' :: (render j ++ ',' :: renderFields (f :: fs)) := rfl

/-- Every item takes at least a letter, so there are not more of them than letters. -/
theorem length_le_renderItems (js : List Json) (hj : PlainItems js) :
    js.length ≤ (renderItems js).length := by
  induction js with
  | nil => simp
  | cons j js ih =>
    obtain ⟨c, cs, hc, -⟩ := render_head j hj.1
    cases js with
    | nil => simp [renderItems, hc]
    | cons j' js =>
      have := ih hj.2
      simp only [renderItems, hc, List.length_append, List.length_cons] at *
      omega

/-- So does every field. -/
theorem length_le_renderFields (fs : List (List Char × Json)) :
    fs.length ≤ (renderFields fs).length := by
  induction fs with
  | nil => simp
  | cons f fs ih =>
    obtain ⟨k, j⟩ := f
    cases fs with
    | nil =>
      simp only [renderFields, quote, List.length_append, List.length_cons, List.length_nil]
      omega
    | cons f' fs =>
      simp only [renderFields, quote, List.length_append, List.length_cons] at *
      omega

/-- The name of a field is read back. -/
theorem fieldName_quote (k rest : List Char) :
    fieldName (quote k ++ ':' :: rest) = some (k, rest) := by
  have hk : skip (quote k ++ ':' :: rest) = '"' :: (k.flatMap escapeChar ++ '"' :: ':' :: rest) := by
    rw [quote, List.cons_append, skip_cons (by decide), List.append_assoc]
    rfl
  rw [fieldName, hk]
  simp only [string_quote, Option.bind_eq_bind, Option.bind_some, skip_cons (c := ':') (by decide)]

/-- A scalar is read at any depth. -/
theorem value_eq_scalar {c : Char} {cs : List Char} (h1 : c ≠ '[') (h2 : c ≠ '{') (d : ℕ) :
    value d (c :: cs) = scalar (c :: cs) := by
  rw [value.eq_def]
  split
  · rename_i heq
    exact absurd (List.cons.inj heq).1 h1
  · rename_i heq
    exact absurd (List.cons.inj heq).1 h2
  · rfl

/-- An integer is read as a scalar. -/
theorem scalar_integer (n : ℤ) {rest : List Char} (hr : Closes rest) :
    scalar (integer n ++ rest) = some (.num (integer n), rest) := by
  have hn := number_integer n hr
  obtain ⟨c, cs, hint, hc⟩ := integer_head n
  rw [hint] at hn ⊢
  rw [List.cons_append] at hn ⊢
  rw [scalar.eq_def]
  split
  · rename_i heq
    exact absurd (List.cons.inj heq).1 (ne_of_startsInteger hc (by decide))
  · rename_i heq
    exact absurd (List.cons.inj heq).1 (ne_of_startsInteger hc (by decide))
  · rename_i heq
    exact absurd (List.cons.inj heq).1 (ne_of_startsInteger hc (by decide))
  · rename_i heq
    exact absurd (List.cons.inj heq).1 (ne_of_startsInteger hc (by decide))
  · rw [hn]
    rfl

mutual
/-- The decoder reads a value back from its text, whatever follows. -/
theorem value_render : ∀ (j : Json), Plain j → ∀ (d : ℕ), depth j ≤ d → ∀ (rest : List Char),
    Closes rest → value d (render j ++ rest) = some (j, rest)
  | null, _, d, _, rest, _ => value_eq_scalar (by decide) (by decide) d
  | bool true, _, d, _, rest, _ => value_eq_scalar (by decide) (by decide) d
  | bool false, _, d, _, rest, _ => value_eq_scalar (by decide) (by decide) d
  | str s, _, d, _, rest, _ => by
    rw [render, quote, List.cons_append, value_eq_scalar (by decide) (by decide), List.append_assoc,
      scalar, List.singleton_append, string_quote]
    rfl
  -- A number starts with a digit or a sign, and so it is neither an array nor an object.
  | num lit, hj, d, _, rest, hr => by
    obtain ⟨n, rfl⟩ := hj
    obtain ⟨c, cs, hint, hc⟩ := integer_head n
    have h1 : c ≠ '[' := ne_of_startsInteger hc (by decide)
    have h2 : c ≠ '{' := ne_of_startsInteger hc (by decide)
    have hs := scalar_integer n hr
    rw [render]
    rw [hint] at hs ⊢
    rw [List.cons_append, value_eq_scalar h1 h2]
    exact hs
  | arr [], _, d, hd, rest, _ => by
    obtain ⟨d, rfl⟩ : ∃ e, d = e + 1 := ⟨d - 1, by simp only [depth] at hd; omega⟩
    rw [render, renderItems, List.nil_append, List.cons_append, value, List.singleton_append,
      skip_cons (by decide)]
    rfl
  -- The first item does not start with `]`, and so the decoder goes on to the items.
  | arr (j :: js), hj, d, hd, rest, _ => by
    obtain ⟨d, rfl⟩ : ∃ e, d = e + 1 := ⟨d - 1, by simp only [depth] at hd; omega⟩
    have hd' : depthItems (j :: js) ≤ d := by simpa only [depth, Nat.add_le_add_iff_right] using hd
    obtain ⟨c, cs, hc, hs, hb, -⟩ := render_head j hj.1
    have htext : ∃ cs', renderItems (j :: js) ++ ']' :: rest = c :: cs' := by
      cases js <;> simp [renderItems, hc]
    obtain ⟨cs', htext⟩ := htext
    have hlen : (j :: js).length ≤ (renderItems (j :: js) ++ ']' :: rest).length := by
      have := length_le_renderItems (j :: js) hj
      rw [List.length_append]
      omega
    have hitems := items_render (j :: js) (by simp) hj d hd' _ hlen rest
    rw [render, List.cons_append, List.append_assoc, List.singleton_append, value, htext,
      skip_cons hs, ← htext]
    split
    · rename_i heq
      rw [htext] at heq
      exact absurd (List.cons.inj heq).1 hb
    · rw [hitems]
      rfl
  | obj [], _, d, hd, rest, _ => by
    obtain ⟨d, rfl⟩ : ∃ e, d = e + 1 := ⟨d - 1, by simp only [depth] at hd; omega⟩
    rw [render, renderFields, List.nil_append, List.cons_append, value, List.singleton_append,
      skip_cons (by decide)]
    rfl
  -- The first field starts with `"`, and so the decoder goes on to the fields.
  | obj ((k, j) :: fs), hj, d, hd, rest, _ => by
    obtain ⟨d, rfl⟩ : ∃ e, d = e + 1 := ⟨d - 1, by simp only [depth] at hd; omega⟩
    have hd' : depthFields ((k, j) :: fs) ≤ d := by
      simpa only [depth, Nat.add_le_add_iff_right] using hd
    have htext : ∃ cs', renderFields ((k, j) :: fs) ++ '}' :: rest = '"' :: cs' := by
      cases fs <;> simp [renderFields, quote]
    obtain ⟨cs', htext⟩ := htext
    have hlen : ((k, j) :: fs).length ≤ (renderFields ((k, j) :: fs) ++ '}' :: rest).length := by
      have := length_le_renderFields ((k, j) :: fs)
      rw [List.length_append]
      omega
    have hfields := fields_render ((k, j) :: fs) (by simp) hj d hd' _ hlen rest
    rw [render, List.cons_append, List.append_assoc, List.singleton_append, value, htext,
      skip_cons (by decide), ← htext]
    split
    · rename_i heq
      rw [htext] at heq
      exact absurd (List.cons.inj heq).1 (by decide)
    · rw [hfields]
      rfl

/-- The decoder reads the items of an array back. -/
theorem items_render : ∀ (js : List Json), js ≠ [] → PlainItems js → ∀ (d : ℕ),
    depthItems js ≤ d → ∀ (n : ℕ), js.length ≤ n → ∀ (rest : List Char),
    items (value d) n (renderItems js ++ ']' :: rest) = some (js, rest)
  | [], h, _, _, _, _, _, _ => absurd rfl h
  | [j], _, hj, d, hd, n, hn, rest => by
    obtain ⟨n, rfl⟩ : ∃ m, n = m + 1 := ⟨n - 1, by simp only [List.length_cons] at hn; omega⟩
    obtain ⟨c, cs, hc, hs, -⟩ := render_head j hj.1
    have hv := value_render j hj.1 d (by simpa [depthItems] using hd) (']' :: rest)
      (closes_bracket rest)
    rw [hc] at hv
    simp only [items, renderItems, hc, List.cons_append, skip_cons hs] at hv ⊢
    simp only [hv, Option.bind_eq_bind, Option.bind_some, skip_cons (c := ']') (by decide)]
  | j :: j' :: js, _, hj, d, hd, n, hn, rest => by
    obtain ⟨n, rfl⟩ : ∃ m, n = m + 1 := ⟨n - 1, by simp only [List.length_cons] at hn; omega⟩
    obtain ⟨c, cs, hc, hs, -⟩ := render_head j hj.1
    have hd1 : depth j ≤ d := Nat.le_trans (Nat.le_max_left _ _) hd
    have hd2 : depthItems (j' :: js) ≤ d := Nat.le_trans (Nat.le_max_right _ _) hd
    have hv := value_render j hj.1 d hd1 (',' :: (renderItems (j' :: js) ++ ']' :: rest))
      (closes_comma _)
    -- The reader takes the first value and the comma, and goes on with one step less.
    have hi := items_render (j' :: js) (by simp) hj.2 d hd2 n
      (by simp only [List.length_cons] at hn ⊢; omega) rest
    rw [hc] at hv
    rw [renderItems_cons_cons, List.append_assoc, List.cons_append, hc, items, List.cons_append,
      skip_cons hs, ← List.cons_append, hv]
    simp only [Option.bind_eq_bind, Option.bind_some, skip_cons (c := ',') (by decide), hi]
    rfl

/-- The decoder reads the fields of an object back. -/
theorem fields_render : ∀ (fs : List (List Char × Json)), fs ≠ [] → PlainFields fs → ∀ (d : ℕ),
    depthFields fs ≤ d → ∀ (n : ℕ), fs.length ≤ n → ∀ (rest : List Char),
    fields (value d) n (renderFields fs ++ '}' :: rest) = some (fs, rest)
  | [], h, _, _, _, _, _, _ => absurd rfl h
  | [(k, j)], _, hj, d, hd, n, hn, rest => by
    obtain ⟨n, rfl⟩ : ∃ m, n = m + 1 := ⟨n - 1, by simp only [List.length_cons] at hn; omega⟩
    obtain ⟨c, cs, hc, hs, -⟩ := render_head j hj.1
    have hv := value_render j hj.1 d (by simpa [depthFields] using hd) ('}' :: rest)
      (closes_brace rest)
    rw [hc] at hv
    simp only [fields, renderFields, List.append_assoc, List.cons_append, fieldName_quote, hc,
      Option.bind_eq_bind, Option.bind_some, skip_cons hs] at hv ⊢
    simp only [hv, Option.bind_some, skip_cons (c := '}') (by decide)]
  | (k, j) :: f :: fs, _, hj, d, hd, n, hn, rest => by
    obtain ⟨n, rfl⟩ : ∃ m, n = m + 1 := ⟨n - 1, by simp only [List.length_cons] at hn; omega⟩
    obtain ⟨c, cs, hc, hs, -⟩ := render_head j hj.1
    have hd1 : depth j ≤ d := Nat.le_trans (Nat.le_max_left _ _) hd
    have hd2 : depthFields (f :: fs) ≤ d := Nat.le_trans (Nat.le_max_right _ _) hd
    have hv := value_render j hj.1 d hd1 (',' :: (renderFields (f :: fs) ++ '}' :: rest))
      (closes_comma _)
    have hi := fields_render (f :: fs) (by simp) hj.2 d hd2 n
      (by simp only [List.length_cons] at hn ⊢; omega) rest
    rw [hc] at hv
    rw [renderFields_cons_cons, List.append_assoc, List.cons_append, List.append_assoc, fields,
      fieldName_quote]
    simp only [hc, List.cons_append, Option.bind_eq_bind, Option.bind_some, skip_cons hs] at hv ⊢
    simp only [hv, Option.bind_some, skip_cons (c := ',') (by decide), hi]
    rfl
end

/-- A text that is read as a value to its end is a document. -/
theorem parse_of_value {cs : List Char} {j : Json}
    (h : value maxNestingDepth (skip cs) = some (j, [])) : parse cs = some j := by
  rw [parse, h]
  rfl

/-- The decoder reads back what the encoder wrote. -/
theorem parse_render {j : Json} (hj : Plain j) (hd : depth j ≤ maxNestingDepth) :
    parse (render j) = some j := by
  obtain ⟨c, cs, hc, hs, -⟩ := render_head j hj
  have hv := value_render j hj _ hd [] closes_nil
  rw [List.append_nil] at hv
  refine parse_of_value ?_
  rw [hc, skip_cons hs, ← hc, hv]

end Json

end Bsg.Foundations
