import Bsg.Foundations.GoText

/-!
# Texts as bytes and as characters

The bytes of a text decode to its characters (`textOf_utf8`). The first byte of a character tells
that it is one, so where the bytes of one text are found in those of another, its characters are
found too (`encode_eq_append`). Any bytes can be read as characters, with U+FFFD for what is none,
and the bytes of characters are read as these characters (`runes_encode`).
-/

namespace Bsg.Foundations

/-- The text with these bytes, if they are UTF-8. -/
def textOf (bytes : GoText) : Option String :=
  bytes.toByteArray.utf8Decode?.map fun cs => String.ofList cs.toList

/-- The bytes of a text give it back. -/
theorem textOf_utf8 (s : String) : textOf (utf8 s) = some s := by
  have hencode : (utf8 s).toByteArray = s.toList.utf8Encode := rfl
  unfold textOf
  rw [hencode, List.utf8Decode?_utf8Encode, Option.map_some, List.toList_toArray, String.ofList_toList]

/-- The bytes of characters. -/
def encode (cs : List Char) : GoText := cs.flatMap String.utf8EncodeChar

/-- No letters are no bytes. -/
theorem encode_nil : encode [] = [] := rfl

/-- The letters are written one after the other. -/
theorem encode_cons (c : Char) (cs : List Char) :
    encode (c :: cs) = String.utf8EncodeChar c ++ encode cs := List.flatMap_cons

/-- Two texts are written one after the other. -/
theorem encode_append (cs cs' : List Char) : encode (cs ++ cs') = encode cs ++ encode cs' :=
  List.flatMap_append

/-- A text of one letter is its bytes. -/
theorem encode_singleton (c : Char) : encode [c] = String.utf8EncodeChar c := List.flatMap_singleton _ _

/-- A letter has at least one byte. -/
theorem utf8EncodeChar_ne_nil (c : Char) : String.utf8EncodeChar c ≠ [] := by
  rw [← List.length_pos_iff, String.length_utf8EncodeChar]
  exact c.utf8Size_pos

/-- Only the empty text has no bytes. -/
theorem encode_eq_nil {cs : List Char} : encode cs = [] ↔ cs = [] := by
  cases cs with
  | nil => exact iff_of_true rfl rfl
  | cons c cs =>
    rw [encode_cons]
    exact iff_of_false (List.append_ne_nil_of_left_ne_nil (utf8EncodeChar_ne_nil c) _)
      (List.cons_ne_nil c cs)

/-! ## Runes -/

/-- The character whose bytes are at the front of a text. -/
def rune? (s : GoText) : Option Char := s.toByteArray.utf8DecodeChar? 0

/-- `utf8.RuneError` -/
def runeError : Char := '\uFFFD'

/-- `utf8.DecodeRuneInString` -/
def decodeRune (s : GoText) : Char := (rune? s).getD runeError

/-- `utf8.DecodeLastRuneInString` -/
def decodeLastRune (s : GoText) : Char :=
  ([1, 2, 3, 4].findSome? fun n =>
    (rune? (s.drop (s.length - n))).filter fun c => c.utf8Size = n).getD runeError

/-- The bytes of a letter are read as that letter, whatever follows. -/
theorem rune?_utf8EncodeChar (c : Char) (s : GoText) :
    rune? (String.utf8EncodeChar c ++ s) = some c := by
  unfold rune?
  rw [List.toByteArray_append, ByteArray.utf8DecodeChar?_utf8EncodeChar_append]

/-- What is decoded at the front of a text is there. -/
theorem eq_append_of_rune? {s : GoText} {c : Char} (h : rune? s = some c) :
    ∃ rest, s = String.utf8EncodeChar c ++ rest := by
  obtain ⟨rest, hrest⟩ := ByteArray.exists_of_utf8DecodeChar?_eq_some h
  refine ⟨rest.data.toList, ?_⟩
  have hdata := congrArg (fun b : ByteArray => b.data.toList) hrest
  simpa using hdata

/-! ## Where characters start -/

/-- Of the bytes of a character only the first one can start a character. -/
theorem isUTF8FirstByte_iff {c : Char} {s t : GoText} {b : UInt8}
    (h : String.utf8EncodeChar c = s ++ b :: t) : b.IsUTF8FirstByte ↔ s = [] := by
  have hlength : s.length < (String.utf8EncodeChar c).length := by
    rw [h, List.length_append, List.length_cons]
    omega
  have hb : (String.utf8EncodeChar c)[s.length] = b := by
    simp only [h, List.getElem_append_right le_rfl, Nat.sub_self, List.getElem_cons_zero]
  rw [← hb, UInt8.isUTF8FirstByte_getElem_utf8EncodeChar, List.length_eq_zero_iff]

/-- Nothing starts inside a character. -/
theorem rune?_inside {c : Char} {s t : GoText} (h : String.utf8EncodeChar c = s ++ t) (hs : s ≠ [])
    (ht : t ≠ []) (rest : GoText) : rune? (t ++ rest) = none := by
  obtain ⟨b, t, rfl⟩ := List.exists_cons_of_ne_nil ht
  by_contra hsome
  obtain ⟨d, hd⟩ := Option.ne_none_iff_exists'.mp hsome
  obtain ⟨rest', hrest⟩ := eq_append_of_rune? hd
  obtain ⟨b', t', hfirst⟩ := List.exists_cons_of_ne_nil (utf8EncodeChar_ne_nil d)
  rw [hfirst, List.cons_append, List.cons_append] at hrest
  rw [← (List.cons.inj hrest).1] at hfirst
  exact hs ((isUTF8FirstByte_iff h).mp
    ((isUTF8FirstByte_iff (s := []) hfirst).mpr rfl))

/-- The bytes of a text start with those of a character where a character is decoded. -/
theorem rune?_encode (c : Char) (cs : List Char) : rune? (encode (c :: cs)) = some c := by
  rw [encode_cons, rune?_utf8EncodeChar]

/-- The bytes of a text at the front are its characters at the front. -/
theorem encode_cancel : ∀ {cs word : List Char} {rest : GoText}, encode cs = encode word ++ rest →
    ∃ cs', cs = word ++ cs' ∧ rest = encode cs'
  | cs, [], _, h => ⟨cs, rfl, h.symm⟩
  | [], c :: word, rest, h => by
    rw [encode_nil, eq_comm, List.append_eq_nil_iff, encode_eq_nil] at h
    cases h.1
  | d :: cs, c :: word, rest, h => by
    have hrune := rune?_encode d cs
    rw [h, encode_cons, List.append_assoc, rune?_utf8EncodeChar] at hrune
    cases hrune
    rw [encode_cons, encode_cons, List.append_assoc, List.append_cancel_left_eq] at h
    obtain ⟨cs', hcs, hrest⟩ := encode_cancel h
    exact ⟨cs', by rw [hcs, List.cons_append], hrest⟩

/-- Where a character is decoded in the bytes of a text, one of its characters starts. -/
theorem encode_split : ∀ {cs : List Char} {before rest : GoText}, encode cs = before ++ rest →
    (rune? rest).isSome = true → ∃ a b, cs = a ++ b ∧ before = encode a ∧ rest = encode b
  | cs, [], rest, h, _ => ⟨[], cs, rfl, rfl, h.symm⟩
  | [], _ :: _, _, h, _ => nomatch h
  | c :: cs, x :: before, rest, h, hrest => by
    rw [encode_cons, List.append_eq_append_iff] at h
    obtain ⟨before', hbefore, hcs⟩ | ⟨inside, hchar, hcs⟩ := h
    · obtain ⟨a, b, rfl, rfl, rfl⟩ := encode_split hcs hrest
      exact ⟨c :: a, b, rfl, by rw [hbefore, encode_cons], rfl⟩
    · by_cases hinside : inside = []
      · subst hinside
        rw [List.append_nil] at hchar
        exact ⟨[c], cs, rfl, by rw [encode_singleton, hchar], hcs⟩
      · rw [hcs, rune?_inside hchar (List.cons_ne_nil x before) hinside] at hrest
        cases hrest

/-- Where the bytes of characters are found in the bytes of a text, the characters are found in it.
-/
theorem encode_eq_append {cs word : List Char} {before rest : GoText} (hword : word ≠ [])
    (h : encode cs = before ++ (encode word ++ rest)) :
    ∃ a b, cs = a ++ (word ++ b) ∧ before = encode a ∧ rest = encode b := by
  obtain ⟨c, word', rfl⟩ := List.exists_cons_of_ne_nil hword
  have hrune : (rune? (encode (c :: word') ++ rest)).isSome = true := by
    rw [encode_cons, List.append_assoc, rune?_utf8EncodeChar, Option.isSome_some]
  obtain ⟨a, b, hcs, hbefore, hrest⟩ := encode_split h hrune
  obtain ⟨b', rfl, hb⟩ := encode_cancel hrest.symm
  exact ⟨a, b', hcs, hbefore, hb⟩

/-- Characters are known by their bytes. -/
theorem encode_injective {cs cs' : List Char} (h : encode cs = encode cs') : cs = cs' := by
  rw [← List.append_nil (encode cs')] at h
  obtain ⟨rest, rfl, hrest⟩ := encode_cancel h
  rw [encode_eq_nil.mp hrest.symm, List.append_nil]

/-- The bytes of a string are those of its characters. -/
theorem encode_toList (s : String) : encode s.toList = s.toByteArray.data.toList := by
  have hdata := congrArg (fun bytes : ByteArray => bytes.data.toList) (String.utf8Encode_toList (b := s))
  rw [← hdata]
  exact (List.data_toByteArray (l := encode s.toList)).symm ▸ rfl

/-- An ASCII character is one byte. -/
theorem utf8EncodeChar_ofUInt8 {b : UInt8} (h : (Char.ofUInt8 b).toNat < 128) :
    String.utf8EncodeChar (Char.ofUInt8 b) = [b] := by
  have hsize : (Char.ofUInt8 b).utf8Size = 1 :=
    Char.utf8Size_eq_one_iff.mpr (UInt32.le_iff_toNat_le.mpr (Nat.le_of_lt_succ h))
  rw [String.utf8EncodeChar_eq_singleton hsize]
  exact congrArg (fun byte => [byte]) (UInt8.toUInt8_toUInt32 b)

/-- The characters of an ASCII string are its bytes. -/
theorem toList_of_ascii {s : String}
    (h : ∀ b ∈ s.toByteArray.data.toList, (Char.ofUInt8 b).toNat < 128) :
    s.toList = s.toByteArray.data.toList.map Char.ofUInt8 := by
  have hencode : ∀ bytes : List UInt8, (∀ b ∈ bytes, (Char.ofUInt8 b).toNat < 128) →
      encode (bytes.map Char.ofUInt8) = bytes := by
    intro bytes hbytes
    unfold encode
    rw [List.flatMap_map, List.flatMap_congr fun b hb => utf8EncodeChar_ofUInt8 (hbytes b hb),
      List.flatMap_singleton']
  exact encode_injective ((encode_toList s).trans (hencode _ h).symm)

/-! ## The first and the last character -/

/-- The first rune of a text is its first letter. -/
theorem decodeRune_encode (c : Char) (cs : List Char) : decodeRune (encode (c :: cs)) = c := by
  unfold decodeRune
  rw [rune?_encode, Option.getD_some]

/-- From some bytes of the last character on, nothing is decoded unless they are all of them. -/
theorem rune?_last (cs : List Char) (c : Char) {n : ℕ} (hpos : 0 < n) (hn : n ≤ c.utf8Size) :
    rune? ((encode (cs ++ [c])).drop ((encode (cs ++ [c])).length - n)) =
      if n = c.utf8Size then some c else none := by
  have hlength := String.length_utf8EncodeChar c
  have hdrop : (encode (cs ++ [c])).drop ((encode (cs ++ [c])).length - n) =
      (String.utf8EncodeChar c).drop (c.utf8Size - n) := by
    rw [encode_append, encode_singleton, List.length_append, hlength, Nat.add_sub_assoc hn,
      List.drop_length_add_append]
  rw [hdrop]
  split_ifs with hall
  · rw [hall, Nat.sub_self, List.drop_zero, ← List.append_nil (String.utf8EncodeChar c),
      rune?_utf8EncodeChar]
  · have hlt : n < c.utf8Size := lt_of_le_of_ne hn hall
    rw [← List.append_nil (List.drop _ _)]
    refine rune?_inside (List.take_append_drop (c.utf8Size - n) _).symm ?_ ?_ []
    · rw [← List.length_pos_iff, List.length_take]
      omega
    · rw [← List.length_pos_iff, List.length_drop]
      omega

/-- The last rune of a text is its last letter. -/
theorem decodeLastRune_encode (cs : List Char) (c : Char) : decodeLastRune (encode (cs ++ [c])) = c := by
  have hfilter : ∀ n, 0 < n → n ≤ c.utf8Size →
      (rune? ((encode (cs ++ [c])).drop ((encode (cs ++ [c])).length - n))).filter
        (fun d => d.utf8Size = n) = if n = c.utf8Size then some c else none := by
    intro n hpos hn
    rw [rune?_last cs c hpos hn]
    split_ifs with hall
    · rw [Option.filter_some, if_pos (decide_eq_true hall.symm)]
    · rfl
  have hpos := c.utf8Size_pos
  have hfour := c.utf8Size_le_four
  have hsize : c.utf8Size = 1 ∨ c.utf8Size = 2 ∨ c.utf8Size = 3 ∨ c.utf8Size = 4 := by omega
  unfold decodeLastRune
  -- The sizes up to that of the character are tried, and only the last of them fits.
  rcases hsize with h | h | h | h <;>
    simp (disch := omega) only [List.findSome?_cons, hfilter, h, reduceIte,
      Nat.reduceEqDiff, Option.getD_some]

/-! ## Bytes that need not be a text -/

/-- The first characters of a text, at most as many as the number; a byte that starts none counts as
one. -/
def runesUpTo : ℕ → GoText → List Char
  | 0, _ | _ + 1, [] => []
  | n + 1, b :: s =>
    match rune? (b :: s) with
    | some c => c :: runesUpTo n ((b :: s).drop c.utf8Size)
    | none => runeError :: runesUpTo n s

/-- `[]rune(s)` -/
def runes (s : GoText) : List Char := runesUpTo s.length s

/-- The text with U+FFFD in place of each byte that is no part of a character. -/
def GoText.wellFormed (s : GoText) : GoText := encode (runes s)

/-- The runes of a text are its letters. -/
theorem runesUpTo_encode : ∀ {n : ℕ} {cs : List Char}, cs.length ≤ n → runesUpTo n (encode cs) = cs
  | 0, cs, h => by
    obtain rfl := List.length_eq_zero_iff.mp (Nat.le_zero.mp h)
    rfl
  | _ + 1, [], _ => rfl
  | n + 1, c :: cs, h => by
    obtain ⟨b, s, hbytes⟩ := List.exists_cons_of_ne_nil (mt encode_eq_nil.mp (List.cons_ne_nil c cs))
    have hrune := rune?_encode c cs
    have hdrop : (encode (c :: cs)).drop c.utf8Size = encode cs := by
      rw [encode_cons, ← String.length_utf8EncodeChar c, List.drop_left]
    rw [hbytes] at hrune hdrop ⊢
    rw [runesUpTo, hrune]
    change c :: runesUpTo n ((b :: s).drop c.utf8Size) = c :: cs
    rw [hdrop, runesUpTo_encode (Nat.le_of_succ_le_succ h)]

/-- The bytes of characters are read as these characters. -/
theorem runes_encode (cs : List Char) : runes (encode cs) = cs := by
  have hlength : cs.length ≤ (encode cs).length := by
    induction cs with
    | nil => exact le_rfl
    | cons c cs ih =>
      have hpos := List.length_pos_iff.mpr (utf8EncodeChar_ne_nil c)
      rw [encode_cons, List.length_append, List.length_cons]
      omega
  exact runesUpTo_encode hlength

/-- The bytes of a string are well-formed. -/
theorem wellFormed_utf8 (s : String) : (utf8 s).wellFormed = utf8 s := by
  change encode (runes (encode s.toList)) = encode s.toList
  rw [runes_encode]

/-- Bytes that are not well formed are replaced and not dropped. -/
theorem wellFormed_ne_nil {s : GoText} (h : s ≠ []) : s.wellFormed ≠ [] := by
  obtain ⟨b, s, rfl⟩ := List.exists_cons_of_ne_nil h
  unfold GoText.wellFormed
  rw [Ne, encode_eq_nil]
  unfold runes
  rw [List.length_cons, runesUpTo]
  cases rune? (b :: s) <;> exact List.cons_ne_nil _ _

end Bsg.Foundations
