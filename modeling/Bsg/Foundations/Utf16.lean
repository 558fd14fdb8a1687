import Mathlib.Data.Fin.Basic
import Mathlib.Data.List.Count
import Mathlib.Data.List.Lex
import Mathlib.Data.Nat.Notation
import Mathlib.Tactic.Common

/-!
# Texts as UTF-16 code units

A string of JavaScript is a list of 16-bit code units, and strings are compared unit by unit. Not
every such list is the encoding of a text. A text is known by its units (`utf16_injective`), and a
unit that is no surrogate stands for its own character (`mem_utf16`).
-/

namespace Bsg.Foundations

/-- A code unit of UTF-16. -/
abbrev CodeUnit := Fin 0x10000

/-- A string of JavaScript. -/
abbrev JsString := List CodeUnit

/-- The unit of a character that needs one only. -/
def codeUnit (c : Char) : CodeUnit := Fin.ofNat _ c.toNat

/-- The code units of a character: itself, or a pair of surrogates. -/
def codeUnits (c : Char) : List CodeUnit :=
  if c.toNat < 0x10000 then [codeUnit c]
  else [Fin.ofNat _ (0xD800 + (c.toNat - 0x10000) / 0x400),
    Fin.ofNat _ (0xDC00 + (c.toNat - 0x10000) % 0x400)]

/-- The code units of a text. -/
def utf16 (s : String) : JsString := s.toList.flatMap codeUnits

/-- A character is no surrogate. -/
theorem not_surrogate (c : Char) : c.toNat < 0xD800 ∨ 0xE000 ≤ c.toNat ∧ c.toNat < 0x110000 := by
  have hvalid : c.val.toNat < 0xD800 ∨ 0xDFFF < c.val.toNat ∧ c.val.toNat < 0x110000 := c.valid
  unfold Char.toNat
  omega

/-- A code unit has 16 bits. -/
theorem val_codeUnit (c : Char) : (codeUnit c).val = c.toNat % 0x10000 := rfl

/-- A letter of the basic plane is one unit. -/
theorem codeUnits_of_lt {c : Char} (h : c.toNat < 0x10000) : codeUnits c = [codeUnit c] := if_pos h

/-- The units of a character and what follows tell the character. -/
theorem codeUnits_append_inj {c d : Char} {units units' : JsString}
    (h : codeUnits c ++ units = codeUnits d ++ units') : c = d ∧ units = units' := by
  have hc := not_surrogate c
  have hd := not_surrogate d
  have hchar : c.toNat = d.toNat → c = d := Char.toNat_inj.mp
  unfold codeUnits at h
  split_ifs at h <;>
    simp only [List.cons_append, List.nil_append, List.cons.injEq, Fin.ext_iff, Fin.val_ofNat,
      val_codeUnit] at h
  · exact ⟨hchar (by omega), h.2⟩
  -- The first unit of a pair is a surrogate, which no character is.
  · omega
  · omega
  · exact ⟨hchar (by omega), h.2.2⟩

/-- Every letter has a unit. -/
theorem codeUnits_ne_nil (c : Char) : codeUnits c ≠ [] := by
  unfold codeUnits
  split_ifs
  · exact List.cons_ne_nil _ _
  · exact List.cons_ne_nil _ _

/-- A text is known by its code units. -/
theorem utf16_injective : Function.Injective utf16 := by
  have hchars : ∀ cs ds : List Char, cs.flatMap codeUnits = ds.flatMap codeUnits → cs = ds := by
    intro cs
    induction cs with
    | nil =>
      intro ds h
      cases ds with
      | nil => rfl
      | cons d ds =>
        rw [List.flatMap_nil, List.flatMap_cons] at h
        exact absurd (List.append_eq_nil_iff.mp h.symm).1 (codeUnits_ne_nil d)
    | cons c cs ih =>
      intro ds h
      cases ds with
      | nil =>
        rw [List.flatMap_nil, List.flatMap_cons] at h
        exact absurd (List.append_eq_nil_iff.mp h).1 (codeUnits_ne_nil c)
      | cons d ds =>
        rw [List.flatMap_cons, List.flatMap_cons] at h
        obtain ⟨rfl, hrest⟩ := codeUnits_append_inj h
        rw [ih ds hrest]
  exact fun s t h => String.toList_inj.mp (hchars _ _ h)

/-- Texts are known up to their order by their code units. -/
theorem perm_of_map_utf16 {texts texts' : List String}
    (h : (texts.map utf16).Perm (texts'.map utf16)) : texts.Perm texts' := by
  rw [List.perm_iff_count] at h ⊢
  intro text
  have hcount := h (utf16 text)
  rwa [List.count_map_of_injective _ _ utf16_injective,
    List.count_map_of_injective _ _ utf16_injective] at hcount

/-- A character below the surrogates is in a text when its unit is. -/
theorem mem_utf16 {c : Char} (hc : c.toNat < 0xD800) {s : String} :
    codeUnit c ∈ utf16 s ↔ c ∈ s.toList := by
  unfold utf16
  rw [List.mem_flatMap]
  constructor
  · rintro ⟨d, hd, hmem⟩
    have hvalid := not_surrogate d
    unfold codeUnits at hmem
    split_ifs at hmem with hone
    · simp only [List.mem_singleton, Fin.ext_iff, val_codeUnit] at hmem
      have hsame : c = d := Char.toNat_inj.mp (by omega)
      rwa [hsame]
    · simp only [List.mem_cons, List.not_mem_nil, or_false, Fin.ext_iff, Fin.val_ofNat,
        val_codeUnit] at hmem
      omega
  · intro hmem
    refine ⟨c, hmem, ?_⟩
    rw [codeUnits_of_lt (by omega)]
    exact List.mem_singleton.mpr rfl

end Bsg.Foundations
