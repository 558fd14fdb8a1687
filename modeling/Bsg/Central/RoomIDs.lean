import Mathlib.Tactic.Common

/-!
# The ids of rooms

A room is stored under its id in the canonical form, and requests name it by any text that
`uuid.Parse` reads as the id. Of that function of a library only its documented behaviour is assumed
(`UUIDParser`): it reads the canonical form as itself, it returns an id, which has one canonical
form, and no text shorter than the digits of an id is one. `parseUUID` is a function that behaves
so.
-/

namespace Bsg.Central

/-- A room id: the canonical text of a UUID, or the text by which a request names a room. -/
abbrev RoomID := String

/-- The canonical form of a UUID, as `UUID.String` writes it. -/
def isUUID (s : String) : Bool :=
  let hex (cs : List Char) : Bool :=
    cs.all fun c => c.isDigit || (decide ('a' ≤ c) && decide (c ≤ 'f'))
  let cs := s.toList
  cs.length == 36 && hex (cs.take 8) && cs[8]? == some '-' && hex ((cs.drop 9).take 4) &&
    cs[13]? == some '-' && hex ((cs.drop 14).take 4) && cs[18]? == some '-' &&
    hex ((cs.drop 19).take 4) && cs[23]? == some '-' && hex (cs.drop 24)

/-- `uuid.Parse`: the canonical form of the id that a text names, if it names one. -/
structure UUIDParser where
  parse : String → Option RoomID
  accepts : ∀ {s}, isUUID s = true → parse s = some s
  canonical : ∀ {s id}, parse s = some id → isUUID id = true
  long : ∀ {s id}, parse s = some id → 32 ≤ s.toList.length

section Parser

variable {s : String} {id : RoomID}

/-- A canonical form has its length. -/
theorem length_of_isUUID (h : isUUID s = true) : s.toList.length = 36 := by
  unfold isUUID at h
  simp only [Bool.and_eq_true, beq_iff_eq] at h
  exact h.1.1.1.1.1.1.1.1.1

/-- An id is not empty. -/
theorem isUUID_ne_empty (h : isUUID s = true) : s ≠ "" := by
  rintro rfl
  exact absurd h (by decide)

namespace UUIDParser

variable (p : UUIDParser)

/-- A text that names an id is not empty. -/
theorem ne_empty (h : p.parse s = some id) : s ≠ "" := by
  rintro rfl
  exact absurd (p.long h) (by decide)

/-- Of the canonical forms, a text names only itself. -/
theorem eq_of_canonical (h : p.parse s = some id) (hs : isUUID s = true) : id = s :=
  (Option.some.inj ((p.accepts hs).symm.trans h)).symm

end UUIDParser

end Parser

/-! ## A parser -/

/-- The texts among which is the canonical form of the id that a text names: it may be written in
capitals, behind `urn:uuid:`, in braces, or without the dashes. -/
def spellings (s : String) : List String :=
  let cs := s.toList.map Char.toLower
  [String.ofList cs,
    String.ofList (if cs.take 9 = "urn:uuid:".toList then cs.drop 9 else []),
    String.ofList (if cs.length = 38 then (cs.drop 1).take 36 else []),
    String.ofList (if cs.length = 32 then
      cs.take 8 ++ '-' :: ((cs.drop 8).take 4 ++ '-' :: ((cs.drop 12).take 4 ++ '-' ::
        ((cs.drop 16).take 4 ++ '-' :: cs.drop 20))) else [])]

/-- The id that a text names. -/
def parseUUID (s : String) : Option RoomID :=
  if isUUID s then some s else (spellings s).find? fun id => isUUID id

/-- Every spelling of an id has its 32 digits. -/
theorem length_of_spelling {s id : String} (hid : isUUID id = true) (h : id ∈ spellings s) :
    32 ≤ s.toList.length := by
  have hlength := length_of_isUUID hid
  have hmap : (s.toList.map Char.toLower).length = s.toList.length := List.length_map _
  unfold spellings at h
  simp only [List.mem_cons, List.not_mem_nil, or_false] at h
  rcases h with rfl | rfl | rfl | rfl <;> rw [String.toList_ofList] at hlength
  · omega
  · split_ifs at hlength
    rw [List.length_drop] at hlength
    omega
  · split_ifs at hlength with h38
    omega
  · split_ifs at hlength with h32
    omega

/-- A parser of all four forms. -/
def UUIDParser.standard : UUIDParser where
  parse := parseUUID
  accepts h := if_pos h
  canonical {s id} h := by
    unfold parseUUID at h
    split_ifs at h with hs
    · rwa [← Option.some.inj h]
    · exact List.find?_some h
  long {s id} h := by
    unfold parseUUID at h
    split_ifs at h with hs
    · rw [length_of_isUUID hs]
      decide
    · exact length_of_spelling (List.find?_some h) (List.mem_of_find?_eq_some h)

/-- An id in capitals, behind `urn:uuid:`. -/
example : parseUUID "urn:uuid:7F2C1D9E-0B3A-4C5D-8E6F-A1B2C3D4E5F6" =
    some "7f2c1d9e-0b3a-4c5d-8e6f-a1b2c3d4e5f6" := by decide +kernel

end Bsg.Central
