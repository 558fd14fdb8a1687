import Bsg.Foundations.JsonLiteral

/-!
# The body of a submission to LeetCode

`Submit` of `leetcode-worker/lib/submit.go` writes the language and the code into the body of its
request as they are. The body should be a JSON object with the language, the number of the question
and the code (`Encodes`): it is exactly when language and code have no quotes, backslashes and
control characters (`encodes_iff`). What a caller has escaped is read unescaped
(`parse_payload_escaped`).
-/

namespace Bsg.Worker

open Bsg.Foundations

/-- The body that `Submit` sends. -/
def payload (lang : String) (problemID : ℤ) (code : String) : List Char :=
  "\x7b\"lang\": \"".toList ++ lang.toList ++ "\", \"question_id\": \"".toList ++
    (toString problemID).toList ++ "\", \"typed_code\": \"".toList ++ code.toList ++ "\"\x7d".toList

/-- The value of a key: a later field replaces an earlier one. -/
def member (fields : List (List Char × Json)) (key : String) : Option Json :=
  (fields.reverse.find? fun field => decide (field.1 = key.toList)).map Prod.snd

/-- The body is an object with the language, the number in decimals and the code. -/
def Encodes (lang : String) (problemID : ℤ) (code : String) : Prop :=
  ∃ fields, Json.parse (payload lang problemID code) = some (.obj fields) ∧
    member fields "lang" = some (Json.str lang.toList) ∧
    member fields "question_id" = some (Json.str (toString problemID).toList) ∧
    member fields "typed_code" = some (Json.str code.toList)

/-- No character has to be escaped. -/
def Unescaped (text : String) : Prop :=
  ∀ c ∈ text.toList, c ≠ '"' ∧ c ≠ '\\' ∧ 0x20 ≤ c.toNat

/-- A text is unescaped when all its letters are bare. -/
theorem unescaped_iff {text : String} : Unescaped text ↔ text.toList.all Json.bare = true := by
  unfold Unescaped
  rw [List.all_eq_true]
  refine forall_congr' fun c => imp_congr_right fun _ => ?_
  rw [Json.bare_iff, Nat.not_lt]

/-- The texts between the quotes before the language. -/
def beforeLang : List (List Char) := ["lang".toList, ": ".toList]

/-- The texts between the quotes from the language to the code. -/
def beforeCode (problemID : ℤ) : List (List Char) :=
  [", ".toList, "question_id".toList, ": ".toList, (toString problemID).toList, ", ".toList,
    "typed_code".toList, ": ".toList]

/-- The body, quote by quote. -/
theorem payload_eq (lang : String) (problemID : ℤ) (code : String) :
    payload lang problemID code = '{' :: Json.quoted beforeLang ('"' :: (lang.toList ++
      Json.quoted (beforeCode problemID) ('"' :: (code.toList ++ '"' :: ['}'])))) := by
  unfold payload Json.quoted beforeLang beforeCode
  simp

/-- A digit does not have to be escaped. -/
theorem bare_of_isDigit {c : Char} (h : c.isDigit = true) : Json.bare c = true := by
  rw [Json.bare_iff]
  refine ⟨?_, ?_, ?_⟩
  · rintro rfl
    revert h
    decide
  · rintro rfl
    revert h
    decide
  · unfold Char.isDigit at h
    rw [Bool.and_eq_true, decide_eq_true_iff, decide_eq_true_iff] at h
    have hlow : 48 ≤ c.toNat := h.1
    omega

/-- The decimals of a number do not have to be escaped. -/
theorem bare_decimals (n : ℤ) : (toString n).toList.all Json.bare = true := by
  have hdigits : ∀ m : ℕ, (Nat.toDigits 10 m).all Json.bare = true := fun m =>
    List.all_eq_true.mpr fun _ hc => bare_of_isDigit (Json.isDigit_of_mem_toDigits hc)
  cases n with
  | ofNat m =>
    show (Nat.repr m).toList.all Json.bare = true
    rw [Nat.toList_repr]
    exact hdigits m
  | negSucc m =>
    show ("-" ++ Nat.repr (m + 1)).toList.all Json.bare = true
    rw [String.toList_append, List.all_append, Nat.toList_repr, hdigits]
    decide

section Payload

variable {lang code : String} {problemID : ℤ}

/-- The text before the language is bare. -/
theorem bare_beforeLang : ∀ text ∈ beforeLang, text.all Json.bare = true := by
  decide +kernel

/-- So is the text before the code. -/
theorem bare_beforeCode (problemID : ℤ) : ∀ text ∈ beforeCode problemID, text.all Json.bare = true := by
  have hfixed : ∀ text ∈ [", ".toList, "question_id".toList, ": ".toList, "typed_code".toList],
      text.all Json.bare = true := by
    decide +kernel
  have hdecimals := bare_decimals problemID
  unfold beforeCode
  simp only [List.mem_cons, List.not_mem_nil, or_false, forall_eq_or_imp, forall_eq] at hfixed ⊢
  obtain ⟨hcomma, hquestion, hcolon, htyped⟩ := hfixed
  exact ⟨hcomma, hquestion, hcolon, hdecimals, hcomma, htyped, hcolon⟩

/-- Behind the quote that follows the language, a literal ends before the next key. -/
theorem not_ends_lang {tail raw rest : List Char}
    (h : Json.literalText (", ".toList ++ '"' :: ("question_id".toList ++ tail)) = some (raw, rest)) :
    ¬ Json.Ends rest := by
  have htext : Json.literalText (", ".toList ++ '"' :: ("question_id".toList ++ tail)) =
      some (", ".toList, "question_id".toList ++ tail) := by
    show Json.literalText (',' :: ' ' :: '"' :: ("question_id".toList ++ tail)) = _
    rw [Json.literalText_cons (by decide) (by decide), Json.literalText_cons (by decide) (by decide)]
    rfl
  have hskip : Json.skip ("question_id".toList ++ tail) = 'q' :: ("uestion_id".toList ++ tail) := rfl
  rw [htext] at h
  cases h
  rintro ⟨cs, hcomma | hbrace⟩
  · rw [hskip] at hcomma
    exact absurd (List.cons.inj hcomma).1 (by decide)
  · rw [hskip] at hbrace
    exact absurd (List.cons.inj hbrace).1 (by decide)

/-- Behind the quote that follows the code, nothing is found. -/
theorem not_found_brace {s : List Char} : ¬ Json.Found ['"', '}'] s := by
  rintro ⟨cs, rest, hcs, hstring, -⟩
  rcases List.suffix_cons_iff.mp hcs with hsame | hsuffix
  · cases hsame
    cases hstring
  · have hbrace := hsuffix.subset List.mem_cons_self
    exact absurd (List.mem_singleton.mp hbrace) (by decide)

/-- A text that is found in the body is bare, or shorter than the language or the code, if that is
not bare. -/
theorem found_payload {s : List Char} (h : Json.Found (payload lang problemID code) s) :
    s.all Json.bare = true ∨
      (lang.toList.all Json.bare = false ∧ s.length < lang.toList.length) ∨
      (code.toList.all Json.bare = false ∧ s.length < code.toList.length) := by
  rw [payload_eq] at h
  rcases Json.found_quoted bare_beforeLang (Json.found_cons (by decide) h) with hbare | h
  · exact Or.inl hbare
  rcases Json.found_text (fun raw rest => not_ends_lang) h with hbare | hlang | h
  · exact Or.inl hbare
  · exact Or.inr (Or.inl hlang)
  rcases Json.found_quoted (bare_beforeCode problemID) h with hbare | h
  · exact Or.inl hbare
  rcases Json.found_text (fun raw rest htext => by cases htext) h with hbare | hcode | h
  · exact Or.inl hbare
  · exact Or.inr (Or.inr hcode)
  · exact absurd h not_found_brace

/-- The texts of the body, as the fields of an object. -/
def bodyFields (lang code : String) (problemID : ℤ) : List Char :=
  '"' :: ("lang".toList ++ '"' :: ':' :: ' ' :: '"' :: (lang.toList ++ '"' :: ',' :: ' ' ::
    '"' :: ("question_id".toList ++ '"' :: ':' :: ' ' :: '"' :: ((toString problemID).toList ++
    '"' :: ',' :: ' ' :: '"' :: ("typed_code".toList ++ '"' :: ':' :: ' ' :: '"' :: (code.toList ++
    '"' :: ['}']))))))

/-- The fields are read one after another. -/
theorem fields_bodyFields {lang' code' : List Char} (hlang : Json.Reads lang.toList lang')
    (hcode : Json.Reads code.toList code') (d n : ℕ) :
    Json.fields (Json.value d) (n + 3) (bodyFields lang code problemID) =
      some ([("lang".toList, .str lang'), ("question_id".toList, .str (toString problemID).toList),
        ("typed_code".toList, .str code')], []) := by
  have hkey : ∀ key ∈ ["lang".toList, "question_id".toList, "typed_code".toList],
      Json.Reads key key := by
    have hbare : ∀ key ∈ ["lang".toList, "question_id".toList, "typed_code".toList],
        key.all Json.bare = true := by
      decide +kernel
    exact fun key hkey => Json.reads_bare (hbare key hkey)
  have hcomma : ∀ cs : List Char, Json.skip (',' :: cs) = ',' :: cs := fun _ => rfl
  unfold bodyFields
  rw [Json.fields_text_cons (hkey _ (by simp)) hlang (hcomma _), Json.fields_space,
    Json.fields_text_cons (hkey _ (by simp)) (Json.reads_bare (bare_decimals problemID)) (hcomma _),
    Json.fields_space, Json.fields_text_last (hkey _ (by simp)) hcode rfl]
  rfl

/-- When what is written for language and code stands for two texts, the body is an object with
these texts and the number. -/
theorem parse_payload {lang' code' : List Char} (hlang : Json.Reads lang.toList lang')
    (hcode : Json.Reads code.toList code') :
    Json.parse (payload lang problemID code) = some (.obj [("lang".toList, .str lang'),
      ("question_id".toList, .str (toString problemID).toList), ("typed_code".toList, .str code')]) := by
  have hbody : payload lang problemID code = '{' :: bodyFields lang code problemID := by
    rw [payload_eq]
    rfl
  obtain ⟨cs, hcs⟩ : ∃ cs, bodyFields lang code problemID = '"' :: cs := ⟨_, rfl⟩
  have hlength : ∃ n, cs.length + 1 = n + 3 := by
    have hlong : 3 ≤ (bodyFields lang code problemID).length := by
      unfold bodyFields
      simp
    rw [hcs, List.length_cons] at hlong
    exact ⟨cs.length - 2, by omega⟩
  obtain ⟨n, hn⟩ := hlength
  have hvalue : Json.value (9999 + 1) ('{' :: bodyFields lang code problemID) = some (.obj
      [("lang".toList, .str lang'), ("question_id".toList, .str (toString problemID).toList),
        ("typed_code".toList, .str code')], []) := by
    rw [hcs, Json.value_object (by decide) (by decide), hn, ← hcs, fields_bodyFields hlang hcode]
    rfl
  rw [hbody]
  exact Json.parse_of_value hvalue

/-- A language and a code that the caller has escaped are read unescaped. -/
theorem parse_payload_escaped (lang code : List Char) (problemID : ℤ) :
    Json.parse (payload (String.ofList (lang.flatMap Json.escapeChar)) problemID
      (String.ofList (code.flatMap Json.escapeChar))) =
        some (.obj [("lang".toList, .str lang),
          ("question_id".toList, .str (toString problemID).toList),
          ("typed_code".toList, .str code)]) := by
  refine parse_payload ?_ ?_
  · rw [String.toList_ofList]
    exact Json.reads_escape lang
  · rw [String.toList_ofList]
    exact Json.reads_escape code

/-- Language, number and code are read from the body exactly when neither language nor code have
characters that have to be escaped. -/
theorem encodes_iff (lang : String) (problemID : ℤ) (code : String) :
    Encodes lang problemID code ↔ Unescaped lang ∧ Unescaped code := by
  rw [unescaped_iff, unescaped_iff]
  constructor
  · rintro ⟨fields, hparse, hlang, -, hcode⟩
    have hfound : ∀ key text, member fields key = some (.str text) →
        Json.Found (payload lang problemID code) text := by
      intro key text hmember
      obtain ⟨⟨key', value⟩, hfield, rfl⟩ := Option.map_eq_some_iff.mp hmember
      exact Json.found_of_parse hparse (List.mem_reverse.mp (List.mem_of_find?_eq_some hfield))
    -- Neither can be written in the other one, since each would have to be the shorter one.
    rcases found_payload (hfound _ _ hlang) with hbare | ⟨-, hless⟩ | ⟨hcodeBad, hless⟩
    · rcases found_payload (hfound _ _ hcode) with hbare' | ⟨hlangBad, -⟩ | ⟨-, hless⟩
      · exact ⟨hbare, hbare'⟩
      · rw [hbare] at hlangBad
        cases hlangBad
      · omega
    · omega
    · rcases found_payload (hfound _ _ hcode) with hbare' | ⟨-, hless'⟩ | ⟨-, hless'⟩
      · rw [hbare'] at hcodeBad
        cases hcodeBad
      · omega
      · omega
  · rintro ⟨hlang, hcode⟩
    refine ⟨_, parse_payload (Json.reads_bare hlang) (Json.reads_bare hcode), rfl, rfl, rfl⟩

end Payload

/-- The code has a line break, and the body cannot be read. -/
theorem not_encodes_lineBreak : ¬ Encodes "python3" 1 "x = 1\ny = 2" := by
  rintro ⟨fields, hparse, -⟩
  have hfails : (Json.parse (payload "python3" 1 "x = 1\ny = 2")).isNone = true := by
    decide +kernel
  rw [hparse] at hfails
  cases hfails

end Bsg.Worker
