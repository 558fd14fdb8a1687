import Mathlib.Algebra.Group.Nat.Defs
import Mathlib.Algebra.Ring.Int.Defs
import Mathlib.Data.List.Lex
import Mathlib.Order.Defs.LinearOrder
import Mathlib.Data.Int.DivMod
import Mathlib.Tactic.Common

/-!
# Texts and machine integers

A text of the program is a string of bytes: its length counts bytes, a slice may cut a character in
two, and texts compare byte by byte. `utf8` gives the bytes of a literal. Unsigned 64-bit arithmetic
wraps around (`uint64`), and so does signed 64-bit arithmetic (`int64`).
-/

namespace Bsg.Foundations

instance byteOrder : LinearOrder UInt8 where
  le_refl := UInt8.le_refl
  le_trans _ _ _ := UInt8.le_trans
  le_antisymm _ _ := UInt8.le_antisymm
  le_total := UInt8.le_total
  lt_iff_le_not_ge a b := by
    rw [UInt8.not_le]
    exact ⟨fun h => ⟨UInt8.le_of_lt h, h⟩, fun h => h.2⟩
  toDecidableLE := inferInstance
  min_def _ _ := rfl
  max_def _ _ := rfl

/-- A text: a string of bytes. -/
abbrev GoText := List UInt8

/-- The bytes of a text given by its characters. -/
def utf8 (s : String) : GoText := s.toList.flatMap String.utf8EncodeChar

/-- The slice `s[:n]`, which panics when the text is shorter. -/
def GoText.prefix? (s : GoText) (n : ℕ) : Option GoText :=
  if n ≤ s.length then some (s.take n) else none

/-- The UTF-8 encodings of white space. -/
def whiteSpace : List GoText :=
  [[9], [10], [11], [12], [13], [32], [0xc2, 0x85], [0xc2, 0xa0], [0xe1, 0x9a, 0x80],
    [0xe2, 0x80, 0x80], [0xe2, 0x80, 0x81], [0xe2, 0x80, 0x82], [0xe2, 0x80, 0x83],
    [0xe2, 0x80, 0x84], [0xe2, 0x80, 0x85], [0xe2, 0x80, 0x86], [0xe2, 0x80, 0x87],
    [0xe2, 0x80, 0x88], [0xe2, 0x80, 0x89], [0xe2, 0x80, 0x8a], [0xe2, 0x80, 0xa8],
    [0xe2, 0x80, 0xa9], [0xe2, 0x80, 0xaf], [0xe2, 0x81, 0x9f], [0xe3, 0x80, 0x80]]

/-- Drops up to `n` of the given pieces from the front of a text. -/
def dropPieces (pieces : List GoText) : ℕ → GoText → GoText
  | 0, s => s
  | n + 1, s =>
    match pieces.find? fun piece => piece.isPrefixOf s with
    | some piece => dropPieces pieces n (s.drop piece.length)
    | none => s

/-- The text without white space around it. -/
def GoText.trimSpace (s : GoText) : GoText :=
  let s := dropPieces whiteSpace s.length s
  (dropPieces (whiteSpace.map List.reverse) s.length s.reverse).reverse

/-- The value of an unsigned 64-bit word. -/
def uint64 (n : ℕ) : ℕ := n % 2^64

/-- The value of a signed 64-bit word. -/
def int64 (n : ℤ) : ℤ := Int.bmod n (2^64)

/-- Small numbers are words. -/
theorem uint64_of_lt {n : ℕ} (h : n < 2^64) : uint64 n = n := Nat.mod_eq_of_lt h

/-- A number that fits is kept. -/
theorem int64_of_fits {n : ℤ} (hmin : -2^63 ≤ n) (hmax : n < 2^63) : int64 n = n := by
  unfold int64
  exact Int.bmod_eq_of_le (by omega) (by omega)

/-- Wrapping around makes a number that is not negative smaller, if anything. -/
theorem int64_le {n : ℤ} (h : 0 ≤ n) : int64 n ≤ n := by
  unfold int64
  rw [Int.bmod_eq_emod]
  split_ifs <;> omega

end Bsg.Foundations
