import Bsg.Foundations.Search
import Bsg.Rtc.EnglishWords

/-!
# The profanity filter's search

`profanity.go` looks for every term of the list in the text in lower case, as bytes, and asks of an
occurrence that no letter or number stands right before or behind it where the term has one itself
(`hasWordBoundaries`). When this fails it goes on behind the occurrence, and so passes over those
that overlap with it. `contains_iff` says that no term is missed that way: the terms of the list
overlap with themselves only where a letter or a digit stands before the second occurrence.
-/

namespace Bsg.Rtc

open Bsg.Central (trimSpace)
open Bsg.Foundations Bsg.Foundations.Search

/-! ## The code -/

/-- What the package `unicode` knows about characters. -/
structure Unicode where
  toLower : Char → Char
  isLetter : Char → Bool
  isNumber : Char → Bool
  toLower_ascii : ∀ c : Char, c.toNat < 128 → toLower c = c.toLower
  isLetter_ascii : ∀ c : Char, c.toNat < 128 → isLetter c = c.isAlpha
  isNumber_ascii : ∀ c : Char, c.toNat < 128 → isNumber c = c.isDigit
  /-- The one character of the list beyond ASCII has no case. -/
  toLower_emoji : toLower '🖕' = '🖕'

instance : Inhabited Unicode where
  default :=
    { toLower := Char.toLower
      isLetter := Char.isAlpha
      isNumber := Char.isDigit
      toLower_ascii := fun _ _ => rfl
      isLetter_ascii := fun _ _ => rfl
      isNumber_ascii := fun _ _ => rfl
      toLower_emoji := by decide }

variable (u : Unicode)

/-- `isWordCharacter` -/
def Unicode.isWordCharacter (c : Char) : Bool := u.isLetter c || u.isNumber c

/-- `hasWordBoundaries` -/
def hasWordBoundaries (text : GoText) (start stop : ℕ) (word : GoText) : Bool :=
  let first := decodeRune word
  let last := decodeLastRune word
  if u.isWordCharacter first ∧ 0 < start ∧ u.isWordCharacter (decodeLastRune (text.take start)) then
    false
  else if u.isWordCharacter last ∧ stop < text.length ∧
      u.isWordCharacter (decodeRune (text.drop stop)) then
    false
  else true

/-- The text in lower case. -/
def lowered (text : String) : List Char := text.toList.map u.toLower

/-- The term of a line: in lower case, without white space around it. -/
def termOf (line : String) : List Char := trimSpace (lowered u line)

/-- `Contains` -/
def contains (text : String) : Bool :=
  let text := encode (lowered u text)
  words.any fun word =>
    let word := encode (termOf u word)
    if hword : word = [] then
      false
    else
      scan text word hword (fun start => hasWordBoundaries u text start (start + word.length) word) 0

/-! ## Its purpose -/

/-- Between these characters the term stands by itself: where it begins with a letter or a number
none comes right before it, and where it ends with one none comes right behind it. -/
structure Stands (before term behind : List Char) : Prop where
  apart_before : ∀ first ∈ term.head?, u.isWordCharacter first = true →
    ∀ previous ∈ before.getLast?, u.isWordCharacter previous = false
  apart_behind : ∀ last ∈ term.getLast?, u.isWordCharacter last = true →
    ∀ next ∈ behind.head?, u.isWordCharacter next = false

/-! ## Boundaries -/

variable {u}

/-- The last character of the bytes before an occurrence. -/
theorem previous_iff (before : List Char) :
    (0 < (encode before).length ∧ u.isWordCharacter (decodeLastRune (encode before)) = true) ↔
      ∃ previous ∈ before.getLast?, u.isWordCharacter previous = true := by
  rcases List.eq_nil_or_concat' before with rfl | ⟨cs, c, rfl⟩
  · refine iff_of_false (fun h => Nat.lt_irrefl 0 h.1) ?_
    rintro ⟨previous, hmem, -⟩
    cases hmem
  · have hpos : 0 < (encode (cs ++ [c])).length :=
      List.length_pos_iff.mpr (mt encode_eq_nil.mp (List.append_ne_nil_of_right_ne_nil cs nofun))
    rw [and_iff_right hpos, decodeLastRune_encode, List.getLast?_concat]
    exact ⟨fun h => ⟨c, rfl, h⟩, fun ⟨_, hmem, h⟩ => Option.some.inj hmem ▸ h⟩

/-- The first character of the bytes behind an occurrence. -/
theorem next_iff (behind : List Char) :
    (0 < (encode behind).length ∧ u.isWordCharacter (decodeRune (encode behind)) = true) ↔
      ∃ next ∈ behind.head?, u.isWordCharacter next = true := by
  cases behind with
  | nil =>
    refine iff_of_false (fun h => Nat.lt_irrefl 0 h.1) ?_
    rintro ⟨next, hmem, -⟩
    cases hmem
  | cons c cs =>
    have hpos : 0 < (encode (c :: cs)).length :=
      List.length_pos_iff.mpr (mt encode_eq_nil.mp (List.cons_ne_nil c cs))
    rw [and_iff_right hpos, decodeRune_encode, List.head?_cons]
    exact ⟨fun h => ⟨c, rfl, h⟩, fun ⟨_, hmem, h⟩ => Option.some.inj hmem ▸ h⟩

/-- The first and the last character of a term. -/
theorem ends_of_ne_nil {term : List Char} (hterm : term ≠ []) :
    term.head? = some (decodeRune (encode term)) ∧
      term.getLast? = some (decodeLastRune (encode term)) := by
  constructor
  · obtain ⟨c, cs, rfl⟩ := List.exists_cons_of_ne_nil hterm
    rw [decodeRune_encode, List.head?_cons]
  · obtain ⟨cs, c, rfl⟩ := (List.eq_nil_or_concat' term).resolve_left hterm
    rw [decodeLastRune_encode, List.getLast?_concat]

/-- Boundaries that are decided on bytes are those of the characters. -/
theorem hasWordBoundaries_iff {before term behind : List Char} (hterm : term ≠ []) :
    hasWordBoundaries u (encode (before ++ (term ++ behind))) (encode before).length
        ((encode before).length + (encode term).length) (encode term) = true ↔
      Stands u before term behind := by
  obtain ⟨hfirst, hlast⟩ := ends_of_ne_nil hterm
  -- In bytes the text is cut where it is cut in characters.
  have htake : (encode (before ++ (term ++ behind))).take (encode before).length = encode before := by
    rw [encode_append, List.take_left]
  have hdrop : (encode (before ++ (term ++ behind))).drop
      ((encode before).length + (encode term).length) = encode behind := by
    rw [encode_append, encode_append, ← List.append_assoc, ← List.length_append, List.drop_left]
  have hlength : (encode before).length + (encode term).length <
      (encode (before ++ (term ++ behind))).length ↔ 0 < (encode behind).length := by
    rw [encode_append, encode_append, List.length_append, List.length_append]
    omega
  unfold hasWordBoundaries
  simp only [htake, hdrop, hlength, previous_iff, next_iff]
  constructor
  · intro h
    split_ifs at h with hbefore hbehind
    refine ⟨fun first hmem hword previous hprevious => ?_, fun last hmem hword next hnext => ?_⟩
    · rw [hfirst] at hmem
      cases hmem
      rw [← Bool.not_eq_true]
      exact fun hletter => hbefore ⟨hword, previous, hprevious, hletter⟩
    · rw [hlast] at hmem
      cases hmem
      rw [← Bool.not_eq_true]
      exact fun hletter => hbehind ⟨hword, next, hnext, hletter⟩
  · intro h
    rw [if_neg, if_neg]
    · rintro ⟨hword, next, hnext, hletter⟩
      rw [h.apart_behind _ hlast hword next hnext] at hletter
      cases hletter
    · rintro ⟨hword, previous, hprevious, hletter⟩
      rw [h.apart_before _ hfirst hword previous hprevious] at hletter
      cases hletter

/-! ## Occurrences that overlap -/

/-- In ASCII, letters and digits are letters and numbers. -/
theorem isWordCharacter_of_isAlphanum {c : Char} (h : c.isAlphanum = true) :
    u.isWordCharacter c = true := by
  have hascii : c.toNat < 128 := by
    delta Char.isAlphanum Char.isAlpha Char.isUpper Char.isLower Char.isDigit at h
    simp only [Bool.or_eq_true, Bool.and_eq_true, decide_eq_true_eq, UInt32.le_iff_toNat_le] at h
    have hmax : ('Z'.val.toNat = 90 ∧ 'z'.val.toNat = 122) ∧ '9'.val.toNat = 57 := by decide
    change c.val.toNat < 128
    omega
  unfold Unicode.isWordCharacter
  rw [u.isLetter_ascii c hascii, u.isNumber_ascii c hascii]
  exact h

/-- The lines are in lower case. -/
theorem lowered_line {line : String} (h : line ∈ words) : lowered u line = line.toList := by
  have hkept : ∀ c ∈ line.toList, u.toLower c = c := by
    intro c hc
    rcases (word_facts h).1 c hc with ⟨hascii, hlower⟩ | rfl
    · rw [u.toLower_ascii c hascii, hlower]
    · exact u.toLower_emoji
  exact (List.map_congr_left hkept).trans (List.map_id _)

/-- An occurrence that stands by itself does not start inside another one. -/
theorem Stands.behind_other {term before behind before' behind' : List Char} (hapart : Apart term)
    (hsame : before ++ (term ++ behind) = before' ++ (term ++ behind'))
    (hstands : Stands u before' term behind') (hlt : before.length < before'.length) :
    before ++ term <+: before' := by
  obtain ⟨x, rfl, hx⟩ | ⟨x, rfl, -⟩ := List.append_eq_append_iff.mp hsame
  case inr =>
    rw [List.length_append] at hlt
    omega
  obtain ⟨rest, rfl, -⟩ | ⟨y, hterm, hy⟩ := List.append_eq_append_iff.mp hx
  · exact ⟨rest, List.append_assoc _ _ _⟩
  -- The second occurrence starts behind `x`, and what is left of the first begins the term.
  by_cases hempty : y = []
  · rw [hempty, List.append_nil] at hterm
    rw [hterm]
  have hne : x ≠ [] := by
    rintro rfl
    rw [List.append_nil] at hlt
    omega
  have hlength : y.length ≤ term.length := by
    rw [hterm, List.length_append]
    omega
  have hbegins : y <+: term :=
    List.prefix_of_prefix_length_le (List.prefix_append y behind) ⟨behind', hy⟩ hlength
  obtain ⟨hfirst, hprevious⟩ := hapart x y hterm hne hempty hbegins
  have hterm' : term ≠ [] := by
    rw [hterm]
    exact List.append_ne_nil_of_left_ne_nil hne y
  obtain ⟨cs, c, rfl⟩ := (List.eq_nil_or_concat' x).resolve_left hne
  have hword := hstands.apart_before _ (List.head?_eq_some_head hterm')
    (isWordCharacter_of_isAlphanum (hfirst _ (List.head?_eq_some_head hterm'))) c
    (by rw [← List.append_assoc, List.getLast?_concat]; rfl)
  rw [isWordCharacter_of_isAlphanum (hprevious c (List.getLast?_concat ..))] at hword
  cases hword

/-! ## The search -/

/-- The bytes of a term occur where its characters do. -/
theorem occursAt_encode {cs term : List Char} (hterm : term ≠ []) {i : ℕ} :
    OccursAt (encode cs) (encode term) i ↔
      ∃ before behind, cs = before ++ (term ++ behind) ∧ i = (encode before).length := by
  constructor
  · intro h
    have hend := h.end_le (mt encode_eq_nil.mp hterm)
    obtain ⟨rest, hrest⟩ := h.split
    obtain ⟨before, behind, hcs, hbefore, -⟩ := encode_eq_append hterm hrest
    refine ⟨before, behind, hcs, ?_⟩
    rw [← hbefore, List.length_take]
    omega
  · rintro ⟨before, behind, rfl, rfl⟩
    unfold OccursAt
    rw [encode_append, List.drop_left, encode_append]
    exact List.prefix_append _ _

/-- The shorter of two beginnings of a text has fewer bytes. -/
theorem length_lt_of_encode {cs before rest before' rest' : List Char} (h : cs = before ++ rest)
    (h' : cs = before' ++ rest') (hlt : (encode before).length < (encode before').length) :
    before.length < before'.length := by
  rcases List.prefix_or_prefix_of_prefix (⟨rest, h.symm⟩ : before <+: cs) ⟨rest', h'.symm⟩ with
    hbegins | ⟨x, rfl⟩
  · refine lt_of_le_of_ne hbegins.length_le fun heq => ?_
    rw [hbegins.eq_of_length heq] at hlt
    exact Nat.lt_irrefl _ hlt
  · rw [encode_append, List.length_append] at hlt
    omega

/-- The search for a term finds it when it stands by itself somewhere. -/
theorem scan_term {cs term : List Char} (hapart : Apart term) (hword : encode term ≠ []) :
    scan (encode cs) (encode term) hword
        (fun start => hasWordBoundaries u (encode cs) start (start + (encode term).length) (encode term))
        0 = true ↔
      ∃ before behind, cs = before ++ (term ++ behind) ∧ Stands u before term behind := by
  have hterm : term ≠ [] := mt encode_eq_nil.mpr hword
  rw [scan_iff hword]
  · constructor
    · rintro ⟨i, -, hoccurs, haccepted⟩
      obtain ⟨before, behind, rfl, rfl⟩ := (occursAt_encode hterm).mp hoccurs
      exact ⟨before, behind, rfl, (hasWordBoundaries_iff hterm).mp haccepted⟩
    · rintro ⟨before, behind, rfl, hstands⟩
      exact ⟨(encode before).length, Nat.zero_le _,
        (occursAt_encode hterm).mpr ⟨before, behind, rfl, rfl⟩,
        (hasWordBoundaries_iff hterm).mpr hstands⟩
  · -- The scan goes on behind an occurrence, and there is no other that overlaps it.
    intro i j hi hj haccepted hlt
    obtain ⟨before, behind, hcs, rfl⟩ := (occursAt_encode hterm).mp hi
    obtain ⟨before', behind', hcs', rfl⟩ := (occursAt_encode hterm).mp hj
    have hstands : Stands u before' term behind' := by
      rw [hcs'] at haccepted
      exact (hasWordBoundaries_iff hterm).mp haccepted
    obtain ⟨rest, rfl⟩ := hstands.behind_other hapart (hcs.symm.trans hcs')
      (length_lt_of_encode hcs hcs' hlt)
    rw [encode_append, encode_append, List.length_append, List.length_append]
    omega

/-- The lowered term of a line is apart from its neighbours. -/
theorem apart_termOf {line : String} (h : line ∈ words) : Apart (termOf u line) := by
  unfold termOf
  rw [lowered_line h]
  exact (word_facts h).2

/-- `Contains` tells whether the term of a line stands by itself somewhere in the text, in lower
case. What stands by itself is never passed over: behind any occurrence of the same term it starts
after the end of this one. -/
theorem contains_iff (u : Unicode) (text : String) :
    (contains u text = true ↔
      ∃ line ∈ words, termOf u line ≠ [] ∧ ∃ before behind,
        lowered u text = before ++ (termOf u line ++ behind) ∧
          Stands u before (termOf u line) behind) ∧
    ∀ line ∈ words, ∀ before behind before' behind',
      lowered u text = before ++ (termOf u line ++ behind) →
        lowered u text = before' ++ (termOf u line ++ behind') → before.length < before'.length →
          Stands u before' (termOf u line) behind' → before ++ termOf u line <+: before' := by
  constructor
  · unfold contains
    rw [List.any_eq_true]
    refine exists_congr fun line => and_congr_right fun hline => ?_
    dsimp only
    split_ifs with hempty
    · rw [encode_eq_nil] at hempty
      exact iff_of_false not_false fun h => h.1 hempty
    · rw [scan_term (apart_termOf hline) hempty, and_iff_right (mt encode_eq_nil.mpr hempty)]
  · intro line hline before behind before' behind' hsame hsame' hlt hstands
    exact hstands.behind_other (apart_termOf hline) (hsame.symm.trans hsame') hlt

end Bsg.Rtc
