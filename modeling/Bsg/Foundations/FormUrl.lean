import Bsg.Foundations.GoText
import Mathlib.Data.List.Basic

/-!
# Form-encoded queries

The query of a URL as `application/x-www-form-urlencoded`: pairs of byte strings, with `&` between
pairs and `=` behind keys. The writer keeps letters, digits and `*-._`, writes a space as `+` and
other bytes as `%XX`. The reader drops a pair that it cannot decode, and one with a semicolon.

`parse_render`: the pairs that are written are read back.
-/

namespace Bsg.Foundations.FormUrl

/-! ## Writing -/

/-- A hexadecimal digit, in upper case. -/
def hexDigit (n : ℕ) : Char := if n < 10 then Char.ofNat (48 + n) else Char.ofNat (55 + n)

/-- The bytes that are written as they are. -/
def unreserved (b : UInt8) : Bool :=
  (48 ≤ b && b ≤ 57) || (65 ≤ b && b ≤ 90) || (97 ≤ b && b ≤ 122) || b == 42 || b == 45 || b == 46 ||
    b == 95

def encodeByte (b : UInt8) : List Char :=
  if unreserved b then [Char.ofNat b.toNat]
  else if b = 32 then ['+']
  else ['%', hexDigit (b.toNat / 16), hexDigit (b.toNat % 16)]

def encode (text : GoText) : List Char := text.flatMap encodeByte

def renderPair (pair : GoText × GoText) : List Char := encode pair.1 ++ '=' :: encode pair.2

/-- The query with these pairs. -/
def render (pairs : List (GoText × GoText)) : List Char :=
  List.intercalate ['&'] (pairs.map renderPair)

/-! ## Reading -/

/-- The value of a hexadecimal digit of either case. -/
def hexVal (c : Char) : Option ℕ :=
  if '0' ≤ c ∧ c ≤ '9' then some (c.toNat - 48)
  else if 'a' ≤ c ∧ c ≤ 'f' then some (c.toNat - 87)
  else if 'A' ≤ c ∧ c ≤ 'F' then some (c.toNat - 55)
  else none

/-- A percent sign must have two digits behind it. -/
def decode : List Char → Option GoText
  | [] => some []
  | '%' :: hi :: lo :: cs => do
    let hi ← hexVal hi
    let lo ← hexVal lo
    let text ← decode cs
    pure (UInt8.ofNat (16 * hi + lo) :: text)
  | '%' :: _ => none
  | '+' :: cs => (decode cs).map fun text => 32 :: text
  | c :: cs => (decode cs).map fun text => String.utf8EncodeChar c ++ text

/-- The pair in a piece of a query; without `=`, the value is empty. -/
def parsePair (piece : List Char) : Option (GoText × GoText) :=
  if piece = [] ∨ ';' ∈ piece then none
  else do
    let key ← decode (piece.takeWhile fun c => c != '=')
    let value ← decode ((piece.dropWhile fun c => c != '=').drop 1)
    pure (key, value)

/-- The pairs of a query. -/
def parse (query : List Char) : List (GoText × GoText) := (query.splitOn '&').filterMap parsePair

/-- The first value of a key, or the empty text. -/
def get (pairs : List (GoText × GoText)) (key : GoText) : GoText :=
  ((pairs.find? fun pair => decide (pair.1 = key)).map Prod.snd).getD []

/-! ## Reading what was written -/

section RoundTrip

/-- What holds of the bytes below 256 holds of all bytes. -/
theorem forall_byte {P : UInt8 → Prop} (h : ∀ n < 256, P (UInt8.ofNat n)) (b : UInt8) : P b := by
  have hb := h b.toNat b.toNat_lt
  rwa [UInt8.ofNat_toNat] at hb

/-- A byte that is kept stands for itself. -/
theorem unreserved_char : ∀ b : UInt8, unreserved b = true → Char.ofNat b.toNat ≠ '%' ∧
    Char.ofNat b.toNat ≠ '+' ∧ String.utf8EncodeChar (Char.ofNat b.toNat) = [b] :=
  forall_byte (by decide +kernel)

/-- A hexadecimal digit is read as it was written. -/
theorem hexVal_hexDigit : ∀ n < 16, hexVal (hexDigit n) = some n := by decide +kernel

/-- The characters that separate pairs do not occur. -/
theorem separator_notMem_encodeByte : ∀ b : UInt8,
    '&' ∉ encodeByte b ∧ '=' ∉ encodeByte b ∧ ';' ∉ encodeByte b :=
  forall_byte (by decide +kernel)

/-- A byte that was written is read. -/
theorem decode_encodeByte (b : UInt8) (cs : List Char) :
    decode (encodeByte b ++ cs) = (decode cs).map fun text => b :: text := by
  unfold encodeByte
  split_ifs with hkept hspace
  · obtain ⟨hpercent, hplus, hchar⟩ := unreserved_char b hkept
    rw [List.cons_append, List.nil_append, decode]
    · rw [hchar]
      rfl
    · exact fun _ _ _ hsame => absurd hsame hpercent
    · exact hpercent
    · exact hplus
  · rw [hspace]
    rfl
  · have hhi : hexVal (hexDigit (b.toNat / 16)) = some (b.toNat / 16) :=
      hexVal_hexDigit _ (by have := b.toNat_lt; omega)
    have hlo : hexVal (hexDigit (b.toNat % 16)) = some (b.toNat % 16) :=
      hexVal_hexDigit _ (Nat.mod_lt _ (by decide))
    have hbyte : UInt8.ofNat (16 * (b.toNat / 16) + b.toNat % 16) = b := by
      rw [Nat.div_add_mod, UInt8.ofNat_toNat]
    rw [List.cons_append, List.cons_append, List.cons_append, List.nil_append, decode, hhi, hlo]
    simp only [Option.bind_eq_bind, Option.bind_some, hbyte]
    cases decode cs with
    | none => rfl
    | some text => rfl

/-- An encoded text is read as it was. -/
theorem decode_encode : ∀ text : GoText, decode (encode text) = some text
  | [] => rfl
  | b :: text => by
    unfold encode
    rw [List.flatMap_cons, decode_encodeByte]
    exact congrArg (Option.map fun text => b :: text) (decode_encode text)

/-- An encoded text has none of the separators. -/
theorem separator_notMem_encode (text : GoText) :
    '&' ∉ encode text ∧ '=' ∉ encode text ∧ ';' ∉ encode text := by
  have hbyte : ∀ c, (∀ b, c ∉ encodeByte b) → c ∉ encode text := by
    intro c hc hmem
    obtain ⟨b, -, hb⟩ := List.mem_flatMap.mp hmem
    exact hc b hb
  exact ⟨hbyte _ fun b => (separator_notMem_encodeByte b).1,
    hbyte _ fun b => (separator_notMem_encodeByte b).2.1,
    hbyte _ fun b => (separator_notMem_encodeByte b).2.2⟩

/-- A pair that was written is read. -/
theorem parsePair_renderPair (pair : GoText × GoText) : parsePair (renderPair pair) = some pair := by
  obtain ⟨hkey, hvalue⟩ :=
    And.intro (separator_notMem_encode pair.1) (separator_notMem_encode pair.2)
  have hinner : ∀ c ∈ encode pair.1, (c != '=') = true := fun c hc =>
    bne_iff_ne.mpr fun hsame => hkey.2.1 (hsame ▸ hc)
  have hsemicolon : ';' ∉ renderPair pair := by
    unfold renderPair
    rw [List.mem_append, List.mem_cons]
    rintro (hmem | hsame | hmem)
    · exact hkey.2.2 hmem
    · exact absurd hsame (by decide)
    · exact hvalue.2.2 hmem
  have hne : renderPair pair ≠ [] := List.append_ne_nil_of_right_ne_nil _ (List.cons_ne_nil _ _)
  unfold parsePair
  rw [if_neg (not_or.mpr ⟨hne, hsemicolon⟩)]
  unfold renderPair
  rw [List.takeWhile_append_of_pos hinner, List.dropWhile_append_of_pos hinner,
    List.takeWhile_cons_of_neg (by decide), List.dropWhile_cons_of_neg (by decide), List.append_nil,
    List.drop_succ_cons, List.drop_zero, decode_encode, decode_encode]
  rfl

/-- The pairs that are written are read back. -/
theorem parse_render (pairs : List (GoText × GoText)) : parse (render pairs) = pairs := by
  unfold parse render
  by_cases hnil : pairs = []
  · subst hnil
    rfl
  rw [List.splitOn_intercalate '&' _ fun hmap => hnil (List.map_eq_nil_iff.mp hmap)]
  · rw [List.filterMap_map]
    exact (List.filterMap_congr fun pair _ => parsePair_renderPair pair).trans List.filterMap_some
  · intro piece hpiece
    obtain ⟨pair, -, rfl⟩ := List.mem_map.mp hpiece
    unfold renderPair
    rw [List.mem_append, List.mem_cons]
    rintro (hmem | hsame | hmem)
    · exact (separator_notMem_encode pair.1).1 hmem
    · exact absurd hsame (by decide)
    · exact (separator_notMem_encode pair.2).1 hmem

end RoundTrip

/-! ## Pairs that are there or not -/

/-- The pairs of a query some of whose keys may be left out. -/
def present : List (GoText × Option GoText) → List (GoText × GoText)
  | [] => []
  | (key, some value) :: entries => (key, value) :: present entries
  | (_, none) :: entries => present entries

/-- The present entries are among the entries. -/
theorem fst_mem_of_mem_present {pair : GoText × GoText} : ∀ {entries : List (GoText × Option GoText)},
    pair ∈ present entries → pair.1 ∈ entries.map Prod.fst
  | (key, some value) :: entries, h => by
    rcases List.mem_cons.mp h with rfl | hmem
    · exact List.mem_cons_self
    · exact List.mem_cons_of_mem _ (fst_mem_of_mem_present hmem)
  | (key, none) :: _, h => List.mem_cons_of_mem key (fst_mem_of_mem_present h)

/-- The first value of a key is found. -/
theorem get_cons_self (key value : GoText) (pairs : List (GoText × GoText)) :
    get ((key, value) :: pairs) key = value := by
  unfold get
  rw [List.find?_cons_of_pos (by simp)]
  rfl

/-- What comes behind another key is found behind it. -/
theorem get_cons_ne {key key' value' : GoText} {pairs : List (GoText × GoText)} (h : key' ≠ key) :
    get ((key', value') :: pairs) key = get pairs key := by
  unfold get
  rw [List.find?_cons_of_neg (by simpa using h)]

/-- A key has its value, or none when it was left out. -/
theorem get_present {key : GoText} {value : Option GoText} :
    ∀ {entries : List (GoText × Option GoText)}, (entries.map Prod.fst).Nodup →
      (key, value) ∈ entries → get (present entries) key = value.getD []
  | [], _, h => absurd h List.not_mem_nil
  | (key', value') :: entries, hnodup, h => by
    obtain ⟨hnotMem, hnodup⟩ : key' ∉ entries.map Prod.fst ∧ (entries.map Prod.fst).Nodup :=
      List.nodup_cons.mp hnodup
    rcases List.mem_cons.mp h with hsame | hmem
    · obtain ⟨rfl, rfl⟩ := Prod.mk.inj hsame
      -- This is the first entry with the key; without a value it is left out, and no later entry
      -- has the key.
      cases value with
      | none =>
        have hnone : (present entries).find? (fun pair => decide (pair.1 = key)) = none := by
          refine List.find?_eq_none.mpr fun pair hpair hkey => hnotMem ?_
          rw [← of_decide_eq_true hkey]
          exact fst_mem_of_mem_present hpair
        show (((present entries).find? fun pair => decide (pair.1 = key)).map Prod.snd).getD [] = []
        rw [hnone]
        rfl
      | some v => exact get_cons_self key v (present entries)
    · have hne : key' ≠ key := by
        rintro rfl
        exact hnotMem (List.mem_map.mpr ⟨_, hmem, rfl⟩)
      have hrest := get_present hnodup hmem
      cases value' with
      | none => exact hrest
      | some v => exact (get_cons_ne hne).trans hrest

end Bsg.Foundations.FormUrl
