import Bsg.Foundations.JsonStruct
import Bsg.Foundations.Utf8

/-!
# Records with members as JSON objects

A record is written as an object with a field for each of its members, and read from an object field
by field. A `Codec` is how the values of one type are written and read, a `Member` of a record has a
key and a codec, and a `Layout` is the list of the members; each carries the laws that make writing
and reading fit together. So a record is read back from what is written of it (`unmarshal_marshal`).

What is read of a text is well-formed. A field that cannot be read leaves its member as it is, and
the others are read nevertheless, so `unmarshal` returns a record even where it fails.
-/

namespace Bsg.Foundations.Json

/-! ## Codecs -/

/-- How the values of a type are written, and how they are read into a variable that has a value. A
value that is not written is left out of its object. -/
structure Codec (τ : Type) where
  write : τ → Option Json
  read : τ → Json → Option τ
  /-- The values that the type has in the program. -/
  Fits : τ → Prop
  /-- What is read of a value that is written. -/
  back : τ → τ
  /-- A bound on the nesting of what is written. -/
  nesting : ℕ
  plain : ∀ {v j}, write v = some j → Plain j
  depth_le : ∀ {v j}, write v = some j → depth j ≤ nesting
  reads : ∀ {v j} old, Fits v → write v = some j → read old j = some (back v)

namespace Codec

/-- The codec of a type whose values are all written. -/
def always {τ : Type} (write : τ → Json) (read : τ → Json → Option τ) (Fits : τ → Prop) (back : τ → τ)
    (nesting : ℕ) (plain : ∀ v, Plain (write v)) (depth_le : ∀ v, depth (write v) ≤ nesting)
    (reads : ∀ v old, Fits v → read old (write v) = some (back v)) : Codec τ where
  write v := some (write v)
  read := read
  Fits := Fits
  back := back
  nesting := nesting
  plain h := Option.some.inj h ▸ plain _
  depth_le h := Option.some.inj h ▸ depth_le _
  reads old hfits h := Option.some.inj h ▸ reads _ old hfits

/-- A text of characters. -/
def string : Codec String :=
  always text asString (fun _ => True) id 0 (fun _ => trivial) (fun _ => le_rfl)
    fun s old _ => asString_text s old

/-- Reads a text of bytes. -/
def readBytes (old : GoText) : Json → Option GoText
  | null => some old
  | str cs => some (encode cs)
  | _ => none

/-- A text of bytes. -/
def bytes : Codec GoText :=
  always (fun s => str (runes s)) readBytes (fun _ => True) GoText.wellFormed 0 (fun _ => trivial)
    (fun _ => le_rfl) fun _ _ _ => rfl

/-- Reads a truth value. -/
def readBool (old : Bool) : Json → Option Bool
  | null => some old
  | Json.bool b => some b
  | _ => none

/-- A truth value. -/
def bool : Codec Bool :=
  always Json.bool readBool (fun _ => True) id 0 (by rintro (_ | _) <;> trivial)
    (by rintro (_ | _) <;> exact le_rfl) fun _ _ _ => rfl

/-- A pointer to a truth value, which is left out when it is nil. -/
def optionalBool : Codec (Option Bool) where
  write b := b.map Json.bool
  read
    | _, null => some none
    | _, Json.bool b => some (some b)
    | _, _ => none
  Fits _ := True
  back := id
  nesting := 0
  plain h := by
    obtain ⟨b, -, rfl⟩ := Option.map_eq_some_iff.mp h
    cases b <;> trivial
  depth_le h := by
    obtain ⟨b, -, rfl⟩ := Option.map_eq_some_iff.mp h
    exact le_rfl
  reads _ _ h := by
    obtain ⟨b, rfl, rfl⟩ := Option.map_eq_some_iff.mp h
    rfl

/-- The number that is written with a literal: decimal digits, with a sign or not. -/
def readInt : List Char → Option ℤ
  | '-' :: ds => if ds.all Char.isDigit then some (-(Nat.ofDigitChars 10 ds 0 : ℤ)) else none
  | ds => if ds.all Char.isDigit then some (Nat.ofDigitChars 10 ds 0 : ℤ) else none

/-- An integer is read as it was written. -/
theorem readInt_integer (n : ℤ) : readInt (integer n) = some n := by
  have hdigits : ∀ m, (Nat.toDigits 10 m).all Char.isDigit = true := fun m =>
    List.all_eq_true.mpr fun _ => isDigit_of_mem_toDigits
  cases n with
  | negSucc n =>
    rw [integer, readInt, if_pos (hdigits (n + 1)), Nat.ofDigitChars_ten_toDigits]
    rfl
  | ofNat n =>
    have hplus : readInt (Nat.toDigits 10 n) = if (Nat.toDigits 10 n).all Char.isDigit then
        some (Nat.ofDigitChars 10 (Nat.toDigits 10 n) 0 : ℤ) else none := by
      rw [readInt.eq_def]
      split
      · rename_i heq
        have hsign := hdigits n
        rw [heq] at hsign
        cases hsign
      · rfl
    rw [integer, hplus, if_pos (hdigits n), Nat.ofDigitChars_ten_toDigits]
    rfl

/-- Reads a signed 64-bit number. -/
def readInt64 (old : ℤ) : Json → Option ℤ
  | null => some old
  | num lit => (readInt lit).filter fun n => -2^63 ≤ n && n < 2^63
  | _ => none

/-- A signed 64-bit number. -/
def int64 : Codec ℤ :=
  always (fun n => num (integer n)) readInt64 (fun n => -2^63 ≤ n ∧ n < 2^63) id 0
    (fun n => ⟨n, rfl⟩) (fun _ => le_rfl) fun n _ hfits => by
      have hword : (decide (-2^63 ≤ n) && decide (n < 2^63)) = true := by
        rw [Bool.and_eq_true, decide_eq_true_eq, decide_eq_true_eq]
        exact hfits
      rw [readInt64, readInt_integer, Option.filter_some, if_pos hword]
      rfl

/-- Writes a slice of texts; it is `null` when it is nil. -/
def writeStrings : Option (List String) → Json
  | none => null
  | some l => arr (l.map text)

/-- Reads a slice of texts. -/
def readStrings (_ : Option (List String)) : Json → Option (Option (List String))
  | null => some none
  | arr items => (items.mapM (asString "")).map some
  | _ => none

/-- Texts are plain items. -/
theorem plainItems_texts : ∀ l : List String, PlainItems (l.map text)
  | [] => trivial
  | _ :: l => ⟨trivial, plainItems_texts l⟩

/-- Texts are not nested. -/
theorem depthItems_texts : ∀ l : List String, depthItems (l.map text) = 0
  | [] => rfl
  | _ :: l => (Nat.zero_max _).trans (depthItems_texts l)

/-- A list of texts is read text by text. -/
theorem mapM_texts (old : String) : ∀ l : List String, (l.map text).mapM (asString old) = some l
  | [] => rfl
  | s :: l => by rw [List.map_cons, List.mapM_cons, asString_text, mapM_texts old l]; rfl

/-- A slice of texts. -/
def strings : Codec (Option (List String)) :=
  always writeStrings readStrings (fun _ => True) id 1
    (fun
      | none => trivial
      | some l => plainItems_texts l)
    (fun
      | none => Nat.zero_le _
      | some l => Nat.succ_le_succ (depthItems_texts l).le)
    fun
      | none, _, _ => rfl
      | some l, _, _ => congrArg (Option.map some) (mapM_texts "" l)

end Codec

/-! ## Records -/

/-- In a list without repeated keys, an element is found by its key. -/
theorem find?_of_key {β κ : Type} [BEq κ] [LawfulBEq κ] {f : β → κ} {l : List β}
    (hkeys : (l.map f).Nodup) {x : β} (hx : x ∈ l) : (l.find? fun y => f x == f y) = some x := by
  induction l with
  | nil => cases hx
  | cons y l ih =>
    rw [List.map_cons, List.nodup_cons] at hkeys
    rw [List.find?_cons]
    rcases List.mem_cons.mp hx with rfl | hlater
    · rw [beq_self_eq_true]
    · have hne : (f x == f y) = false := beq_eq_false_iff_ne.mpr fun heq =>
        hkeys.1 (List.mem_map.mpr ⟨x, hlater, heq⟩)
      rw [hne]
      exact ih hkeys.2 hlater

/-- A member of a record, as a field of an object. -/
structure Member (α : Type) where
  key : List Char
  write : α → Option Json
  read : Json → α → Option α
  Fits : α → Prop
  /-- Copies the member into a record, as it is read after it is written. -/
  copy : α → α → α
  nesting : ℕ
  plain : ∀ {a j}, write a = some j → Plain j
  depth_le : ∀ {a j}, write a = some j → depth j ≤ nesting
  reads : ∀ {a j} b, Fits a → write a = some j → read j b = some (copy a b)

/-- The member with a key and a codec. -/
def Codec.member {α τ : Type} (c : Codec τ) (key : String) (get : α → τ) (set : τ → α → α) :
    Member α where
  key := key.toList
  write a := c.write (get a)
  read j b := (c.read (get b) j).map fun v => set v b
  Fits a := c.Fits (get a)
  copy a := set (c.back (get a))
  nesting := c.nesting
  plain := c.plain
  depth_le := c.depth_le
  reads b hfits h := by rw [c.reads (get b) hfits h, Option.map_some]

/-- The members of a record; their keys differ, and not only by the case of their letters. -/
structure Layout (α : Type) where
  members : List (Member α)
  keys : (members.map fun m => m.key.map fold).Nodup
  nesting : ∀ m ∈ members, m.nesting < maxNestingDepth

namespace Layout

variable {α : Type} (layout : Layout α)

/-- The values of the members are of their types. -/
def Fits (a : α) : Prop := layout.members.Forall fun m => m.Fits a

/-- The fields of some members of a record. -/
def writeFields (members : List (Member α)) (a : α) : List (List Char × Json) :=
  members.filterMap fun m => (m.write a).map fun j => (m.key, j)

/-- The document of a record. -/
def document (a : α) : Json := obj (writeFields layout.members a)

/-- `json.Marshal` -/
def marshal (a : α) : GoText := encode (render (layout.document a))

/-- Reads a field into the member that it names, if there is one. -/
def readField (key : List Char) (j : Json) (b : α) : Option α :=
  match layout.members.find? fun m => names key m.key with
  | some m => m.read j b
  | none => some b

/-- Reads the fields of an object, those that can be read, and whether all can. -/
def readFields (fields : List (List Char × Json)) (b : α × Bool) : α × Bool :=
  fields.foldl (fun b f =>
    match layout.readField f.1 f.2 b.1 with
    | some b' => (b', b.2)
    | none => (b.1, false)) b

/-- Reads a document into a record, and whether all of it can be read. -/
def fill (zero : α) : Json → α × Bool
  | null => (zero, true)
  | obj fields => layout.readFields fields (zero, true)
  | _ => (zero, false)

/-- `json.Unmarshal` -/
def unmarshal (zero : α) (raw : GoText) : α × Bool :=
  match parse (runes raw) with
  | some j => layout.fill zero j
  | none => (zero, false)

/-- What is read back of some members of a record. -/
def restore (members : List (Member α)) (zero a : α) : α :=
  members.foldl (fun b m => if (m.write a).isSome then m.copy a b else b) zero

/-- What is read back of a record. -/
def restored (zero a : α) : α := restore layout.members zero a

variable {layout}

/-- Each member is found by its own name. -/
theorem find?_names {m : Member α} (hm : m ∈ layout.members) :
    (layout.members.find? fun m' => names m.key m'.key) = some m :=
  find?_of_key (f := fun m : Member α => m.key.map fold) layout.keys hm

/-- The fields of a record are read back, member by member. -/
theorem readFields_writeFields {a : α} (hfits : layout.Fits a) :
    ∀ members : List (Member α), (∀ m ∈ members, m ∈ layout.members) → ∀ zero,
      layout.readFields (writeFields members a) (zero, true) = (restore members zero a, true) := by
  intro members
  induction members with
  | nil => exact fun _ _ => rfl
  | cons m members ih =>
    intro hsub zero
    have hm := hsub m List.mem_cons_self
    have hrest := ih fun m' hm' => hsub m' (List.mem_cons_of_mem m hm')
    cases hwrite : m.write a with
    -- A member that is left out keeps the value it had.
    | none =>
      have hfields : writeFields (m :: members) a = writeFields members a := by
        rw [writeFields, List.filterMap_cons, hwrite]
        rfl
      have hrestore : restore (m :: members) zero a = restore members zero a := by
        rw [restore, List.foldl_cons, hwrite]
        rfl
      rw [hfields, hrest, hrestore]
    -- A member that is written is found by its name and read back.
    | some j =>
      have hfields : writeFields (m :: members) a = (m.key, j) :: writeFields members a := by
        rw [writeFields, List.filterMap_cons, hwrite]
        rfl
      have hrestore : restore (m :: members) zero a = restore members (m.copy a zero) a := by
        rw [restore, List.foldl_cons, hwrite]
        rfl
      have hfield : layout.readField m.key j zero = some (m.copy a zero) := by
        rw [readField, find?_names hm]
        exact m.reads zero (List.forall_iff_forall_mem.mp hfits m hm) hwrite
      rw [hfields, hrestore, ← hrest, readFields, List.foldl_cons, hfield]
      rfl

/-- A record is read back from its document. -/
theorem fill_document {a : α} (hfits : layout.Fits a) (zero : α) :
    layout.fill zero (layout.document a) = (layout.restored zero a, true) :=
  readFields_writeFields hfits layout.members (fun _ hm => hm) zero

/-- Every document of a layout is plain. -/
theorem plain_document (layout : Layout α) (a : α) : Plain (layout.document a) := by
  have hfields : ∀ members : List (Member α), PlainFields (writeFields members a) := by
    intro members
    induction members with
    | nil => exact trivial
    | cons m members ih =>
      rw [writeFields, List.filterMap_cons]
      cases hwrite : m.write a with
      | none => exact ih
      | some j => exact ⟨m.plain hwrite, ih⟩
  exact hfields layout.members

/-- A document is nested once more than its members. -/
theorem depth_document {n : ℕ} (h : ∀ m ∈ layout.members, m.nesting ≤ n) (a : α) :
    depth (layout.document a) ≤ n + 1 := by
  have hfields : ∀ members : List (Member α), (∀ m ∈ members, m.nesting ≤ n) →
      depthFields (writeFields members a) ≤ n := by
    intro members
    induction members with
    | nil => exact fun _ => Nat.zero_le n
    | cons m members ih =>
      intro hn
      have hrest := ih fun m' hm' => hn m' (List.mem_cons_of_mem m hm')
      rw [writeFields, List.filterMap_cons]
      cases hwrite : m.write a with
      | none => exact hrest
      | some j => exact max_le ((m.depth_le hwrite).trans (hn m List.mem_cons_self)) hrest
  exact Nat.succ_le_succ (hfields layout.members h)

/-- What is written of a record is its document. -/
theorem parse_marshal (layout : Layout α) (a : α) :
    parse (runes (layout.marshal a)) = some (layout.document a) := by
  have hdepth : depth (layout.document a) ≤ maxNestingDepth :=
    depth_document (n := maxNestingDepth - 1) (fun m hm => Nat.le_pred_of_lt (layout.nesting m hm)) a
  rw [marshal, runes_encode, parse_render (layout.plain_document a) hdepth]

/-- A record is read back from what is written of it, when the values of its members are of their
types. -/
theorem unmarshal_marshal {a : α} (hfits : layout.Fits a) (zero : α) :
    layout.unmarshal zero (layout.marshal a) = (layout.restored zero a, true) := by
  rw [unmarshal, parse_marshal]
  exact fill_document hfits zero

/-- What is written of a record is well-formed, and not empty. -/
theorem wellFormed_marshal (a : α) : (layout.marshal a).wellFormed = layout.marshal a := by
  rw [marshal, GoText.wellFormed, runes_encode]

/-- No value is written as nothing. -/
theorem marshal_ne_nil (a : α) : layout.marshal a ≠ [] := by
  rw [marshal, Ne, encode_eq_nil, document, render]
  exact List.cons_ne_nil _ _

end Layout

/-- A record inside a record. Where some of its fields cannot be read, the member keeps what it has.
-/
def Codec.record {α : Type} (layout : Layout α) (back : α → α)
    (restored : ∀ old a, layout.restored old a = back a) (n : ℕ)
    (nesting : ∀ m ∈ layout.members, m.nesting ≤ n) : Codec α :=
  always layout.document (fun old j => if (layout.fill old j).2 then some (layout.fill old j).1 else none)
    layout.Fits back (n + 1) layout.plain_document (Layout.depth_document nesting) fun a old hfits => by
      rw [Layout.fill_document hfits, if_pos rfl, restored]

end Bsg.Foundations.Json
