import Mathlib.Algebra.Group.Nat.Defs
import Bsg.Foundations.Json

/-!
# Records as JSON objects

How a standard decoder fills the fields of a record from a JSON object, and how the encoder writes
them. A key names a field up to the case of its letters, a key that occurs twice is read twice, an
unknown key is skipped, and `null` leaves a field as it is (a byte field becomes empty). Numbers of
unsigned fields are below `2^64`; byte fields are base64 texts. The read-back lemmas of the single
field types (`asUint_uint`, `asString_text`) are what a record's round trip is made of.
-/

namespace Bsg.Foundations.Json

/-- A letter without its case. Two letters outside ASCII fold to letters of ASCII. -/
def fold (c : Char) : Char :=
  if c = '\u017F' then 's' else if c = '\u212A' then 'k' else c.toLower

/-- The key names the field. -/
def names (key field : List Char) : Bool := key.map fold == field.map fold

/-- Reads an object into a record, field by field, from a zero record on. -/
def decodeStruct {α : Type} (zero : α) (field : List Char → Json → α → Option α) :
    Json → Option α
  | null => some zero
  | obj fields => fields.foldlM (fun a f => field f.1 f.2 a) zero
  | _ => none

/-- Writes an unsigned number. -/
def uint (n : ℕ) : Json := num (Nat.toDigits 10 n)

/-- Writes a text. -/
def text (s : String) : Json := str s.toList

/-- Reads an unsigned 64-bit field that held `old`. -/
def asUint (old : ℕ) : Json → Option ℕ
  | null => some old
  | num lit =>
    if lit.all Char.isDigit && Nat.ofDigitChars 10 lit 0 < 2^64 then
      some (Nat.ofDigitChars 10 lit 0)
    else none
  | _ => none

/-- Reads a text field that held `old`. -/
def asString (old : String) : Json → Option String
  | null => some old
  | str s => some (String.ofList s)
  | _ => none

/-- The letters of base64. -/
def base64Letters : List Char :=
  "ABCDEFGHIJKLMNOPQRSTUVWXYZabcdefghijklmnopqrstuvwxyz0123456789+/".toList

/-- The letter of six bits. -/
def sextetLetter (n : ℕ) : Char := base64Letters.getD n 'A'

/-- The six bits of a letter. -/
def sextet (c : Char) : Option ℕ := base64Letters.findIdx? (· == c)

/-- The base64 text of some bytes. -/
def base64 : List UInt8 → List Char
  | [] => []
  | [a] => [sextetLetter (a.toNat / 4), sextetLetter (a.toNat % 4 * 16), '=', '=']
  | [a, b] =>
    [sextetLetter (a.toNat / 4), sextetLetter (a.toNat % 4 * 16 + b.toNat / 16),
      sextetLetter (b.toNat % 16 * 4), '=']
  | a :: b :: c :: bs =>
    sextetLetter (a.toNat / 4) :: sextetLetter (a.toNat % 4 * 16 + b.toNat / 16) ::
      sextetLetter (b.toNat % 16 * 4 + c.toNat / 64) :: sextetLetter (c.toNat % 64) :: base64 bs

/-- The bytes of a base64 text without line breaks. -/
def unbase64 : List Char → Option (List UInt8)
  | [] => some []
  | [a, b, '=', '='] => do
    let a ← sextet a
    let b ← sextet b
    some [UInt8.ofNat (a * 4 + b / 16)]
  | [a, b, c, '='] => do
    let a ← sextet a
    let b ← sextet b
    let c ← sextet c
    some [UInt8.ofNat (a * 4 + b / 16), UInt8.ofNat (b * 16 + c / 4)]
  | a :: b :: c :: d :: cs => do
    let a ← sextet a
    let b ← sextet b
    let c ← sextet c
    let d ← sextet d
    let bs ← unbase64 cs
    some (UInt8.ofNat (a * 4 + b / 16) :: UInt8.ofNat (b * 16 + c / 4) ::
      UInt8.ofNat (c * 64 + d) :: bs)
  | _ => none

/-- Writes some bytes. -/
def bytes (bs : List UInt8) : Json := str (base64 bs)

/-- Reads one byte of an array; `null` is a zero byte. -/
def asByte (j : Json) : Option UInt8 :=
  match asUint 0 j with
  | some n => if n < 256 then some (UInt8.ofNat n) else none
  | none => none

/-- Reads a byte field: a base64 text, whose line breaks are skipped, or an array of bytes. -/
def asBytes : Json → Option (List UInt8)
  | null => some []
  | str s => unbase64 (s.filter fun c => c != '\r' && c != '\n')
  | arr items => items.mapM asByte
  | _ => none

/-- A natural number is plain. -/
@[simp] theorem plain_uint (n : ℕ) : Plain (uint n) := ⟨n, rfl⟩

/-- A natural number is not nested. -/
@[simp] theorem depth_uint (n : ℕ) : depth (uint n) = 0 := rfl

/-- An unsigned number is read back when it is a 64-bit word. -/
theorem asUint_uint (n old : ℕ) : asUint old (uint n) = if n < 2^64 then some n else none := by
  have hd : (Nat.toDigits 10 n).all Char.isDigit = true :=
    List.all_eq_true.mpr fun _ => isDigit_of_mem_toDigits
  simp only [uint, asUint, Nat.ofDigitChars_ten_toDigits, hd, Bool.true_and, decide_eq_true_eq]

/-- What is read is a 64-bit word, when the field held one before. -/
theorem asUint_lt {old n : ℕ} {j : Json} (hold : old < 2^64) (h : asUint old j = some n) :
    n < 2^64 := by
  unfold asUint at h
  split at h
  · exact Option.some_inj.mp h ▸ hold
  · split_ifs at h with hlit
    rw [Bool.and_eq_true, decide_eq_true_eq] at hlit
    exact Option.some_inj.mp h ▸ hlit.2
  · cases h

/-- What the zero record has, and reading a field keeps, the record that is read has. -/
theorem decodeStruct_invariant {α : Type} {P : α → Prop} {zero : α}
    {field : List Char → Json → α → Option α} (hzero : P zero)
    (hfield : ∀ key j a a', P a → field key j a = some a' → P a') {j : Json} {a : α}
    (h : decodeStruct zero field j = some a) : P a := by
  have hfold : ∀ (fields : List (List Char × Json)) (b : α), P b →
      fields.foldlM (fun a f => field f.1 f.2 a) b = some a → P a := by
    intro fields
    induction fields with
    | nil =>
      intro b hb hread
      exact Option.some_inj.mp hread ▸ hb
    | cons f fields ih =>
      intro b hb hread
      obtain ⟨b', hb', hrest⟩ := Option.bind_eq_some_iff.mp hread
      exact ih b' (hfield _ _ _ _ hb hb') hrest
  unfold decodeStruct at h
  split at h
  · exact Option.some_inj.mp h ▸ hzero
  · exact hfold _ _ hzero h
  · cases h

/-- A text is read back. -/
@[simp] theorem asString_text (s old : String) : asString old (text s) = some s := by
  simp [text, asString]

end Bsg.Foundations.Json
