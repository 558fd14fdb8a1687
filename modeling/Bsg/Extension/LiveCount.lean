import Bsg.Central.Generating
import Bsg.Central.Rounds
import Bsg.Foundations.FormUrl
import Bsg.Foundations.JsonStruct
import Bsg.Foundations.Utf8

/-!
# The live count of problems

Beside its filters, the form for a new room shows how many problems match them (`useRoomChoice`).
The filters go into the query of a URL, with the names of tags and companies joined by commas, and
`CountAvailableProblemsEndpoint` splits them again. When the room is created, the same names go into
a JSON body as arrays (`createRoom`). The count should be that of the problems among which the round
will choose (`SameFilters`): it is exactly when no selected name has a comma in it
(`sameFilters_iff`).
-/

namespace Bsg.Extension

open Bsg.Foundations Bsg.Central

/-! ## The form -/

/-- What has been chosen in the form. At least one problem is asked for, and numbers are safe. -/
structure RoundChoice where
  numberOfEasyProblems : ℕ
  numberOfMediumProblems : ℕ
  numberOfHardProblems : ℕ
  anyDifficulty : Bool
  anyDifficultyCount : ℕ
  duration : ℕ
  selectedTopics : List String
  selectedCompanies : List String
  blind75 : Bool
  neetcode150 : Bool
  recentlyAsked : Bool
  excludePaid : Bool
  atLeastOne : 0 < numberOfEasyProblems + numberOfMediumProblems + numberOfHardProblems
  safe : ∀ n ∈ [numberOfEasyProblems, numberOfMediumProblems, numberOfHardProblems,
    anyDifficultyCount, duration], n < 2^53

/-- Names with commas between them. -/
def joinComma (names : List String) : String :=
  String.ofList (List.intercalate [','] (names.map String.toList))

namespace RoundChoice

variable (choice : RoundChoice)

/-- The difficulties of which problems are asked for. -/
def activeDifficulties : String :=
  if choice.anyDifficulty then ""
  else joinComma <|
    (if 0 < choice.numberOfEasyProblems then ["easy"] else []) ++
      (if 0 < choice.numberOfMediumProblems then ["medium"] else []) ++
      if 0 < choice.numberOfHardProblems then ["hard"] else []

/-- The parameters of the query, as far as they are set. -/
def params : List (String × Option String) :=
  [("difficulties", if choice.activeDifficulties ≠ "" then some choice.activeDifficulties else none),
    ("tags", if choice.selectedTopics ≠ [] then some (joinComma choice.selectedTopics) else none),
    ("companies",
      if choice.selectedCompanies ≠ [] then some (joinComma choice.selectedCompanies) else none),
    ("blind75", if choice.blind75 then some "true" else none),
    ("neetcode150", if choice.neetcode150 then some "true" else none),
    ("recentlyAsked", if choice.recentlyAsked then some "true" else none),
    ("excludePaid", if choice.excludePaid then some "true" else none)]

/-- The query that asks for the count. -/
def countQuery : List Char :=
  FormUrl.render (FormUrl.present (choice.params.map fun (name, value) => (utf8 name, value.map utf8)))

end RoundChoice

/-! ## The endpoint that counts -/

/-- `c.QueryParam`, for a query whose values are UTF-8. -/
def queryParam (query : List Char) (name : String) : Option String :=
  textOf (FormUrl.get (FormUrl.parse query) (utf8 name))

/-- The names in a parameter. -/
def splitParam (value : String) : List String :=
  if value = "" then [] else (value.toList.splitOn ',').map String.ofList

/-- The filters and the difficulties that a query asks for. -/
def countRequest (query : List Char) : Option (ProblemFilter × List String) := do
  let tags ← queryParam query "tags"
  let companies ← queryParam query "companies"
  let blind75 ← queryParam query "blind75"
  let neetCode150 ← queryParam query "neetcode150"
  let recentlyAsked ← queryParam query "recentlyAsked"
  let difficulties ← queryParam query "difficulties"
  let excludePaid ← queryParam query "excludePaid"
  pure ({
    tags := splitParam tags
    companies := splitParam companies
    blind75 := decide (blind75 = "true")
    neetCode150 := decide (neetCode150 = "true")
    recentlyAsked := decide (recentlyAsked = "true")
    excludePaid := decide (excludePaid = "true") }, splitParam difficulties)

/-- `CountAvailableProblemsEndpoint`; the database refuses a text that is not UTF-8. -/
def countAvailableProblemsEndpoint (env : Env) (query : List Char) : Service ℕ :=
  match countRequest query with
  | some (filter, difficulties) => countAvailableProblems env filter difficulties
  | none => .fail .io

/-! ## The body that creates a round -/

/-- A field of `RoundCreationParameters`. -/
inductive RoundField where
  | duration
  | numEasyProblems
  | numMediumProblems
  | numHardProblems
  | tags
  | companies
  | blind75
  | neetcode150
  | recentlyAsked
  | excludePaid
  | anyDifficulty
  | numAnyDifficultyProblems
  | problemIds
  deriving DecidableEq, Repr

/-- The JSON key of a field. -/
def RoundField.key : RoundField → String
  | duration => "duration"
  | numEasyProblems => "numEasyProblems"
  | numMediumProblems => "numMediumProblems"
  | numHardProblems => "numHardProblems"
  | tags => "tags"
  | companies => "companies"
  | blind75 => "blind75"
  | neetcode150 => "neetcode150"
  | recentlyAsked => "recentlyAsked"
  | excludePaid => "excludePaid"
  | anyDifficulty => "anyDifficulty"
  | numAnyDifficultyProblems => "numAnyDifficultyProblems"
  | problemIds => "problemIds"

/-- A list of names as an array. -/
def namesArray (names : List String) : Json := .arr (names.map Json.text)

/-- `roundParams`, from what has been chosen: without any difficulty in particular, none is asked
for by number. -/
def RoundChoice.roundParams (choice : RoundChoice) : List (RoundField × Json) :=
  let counted (n : ℕ) : Json := Json.uint (if choice.anyDifficulty then 0 else n)
  [(.duration, Json.uint (if choice.duration = 0 then 30 else choice.duration)),
    (.numEasyProblems, counted choice.numberOfEasyProblems),
    (.numMediumProblems, counted choice.numberOfMediumProblems),
    (.numHardProblems, counted choice.numberOfHardProblems),
    (.tags, namesArray choice.selectedTopics),
    (.companies, namesArray choice.selectedCompanies),
    (.blind75, .bool choice.blind75),
    (.neetcode150, .bool choice.neetcode150),
    (.recentlyAsked, .bool choice.recentlyAsked),
    (.excludePaid, .bool choice.excludePaid),
    (.anyDifficulty, .bool choice.anyDifficulty),
    (.numAnyDifficultyProblems,
      Json.uint (if choice.anyDifficulty then choice.anyDifficultyCount else 0)),
    (.problemIds, .arr [])]

/-- The document that is sent to create a round. -/
def RoundChoice.body (choice : RoundChoice) : Json :=
  .obj (choice.roundParams.map fun (field, value) => (field.key.toList, value))

/-- Reads a signed 64-bit field that held `old`. -/
def asInt (old : ℤ) : Json → Option ℤ
  | .null => some old
  | .num ('-' :: digits) =>
    if digits.all Char.isDigit ∧ Nat.ofDigitChars 10 digits 0 ≤ 2^63 then
      some (-Nat.ofDigitChars 10 digits 0)
    else none
  | .num digits =>
    if digits.all Char.isDigit ∧ Nat.ofDigitChars 10 digits 0 < 2^63 then
      some (Nat.ofDigitChars 10 digits 0)
    else none
  | _ => none

/-- Reads a field that held `old`. -/
def asBool (old : Bool) : Json → Option Bool
  | .null => some old
  | .bool b => some b
  | _ => none

/-- Reads a list; `null` is the empty one. -/
def asList {α : Type} (item : Json → Option α) : Json → Option (List α)
  | .null => some []
  | .arr items => items.mapM item
  | _ => none

/-- All fields. -/
def roundFields : List RoundField :=
  [.duration, .numEasyProblems, .numMediumProblems, .numHardProblems, .tags, .companies, .blind75,
    .neetcode150, .recentlyAsked, .excludePaid, .anyDifficulty, .numAnyDifficultyProblems, .problemIds]

/-- Reads the value of a key. -/
def readRoundField (key : List Char) (value : Json) (params : RoundCreationParameters) :
    Option RoundCreationParameters :=
  match roundFields.find? fun field => Json.names key field.key.toList with
  | none => some params
  | some .duration => (asInt params.duration value).map fun n => { params with duration := n }
  | some .numEasyProblems =>
    (asInt params.numEasyProblems value).map fun n => { params with numEasyProblems := n }
  | some .numMediumProblems =>
    (asInt params.numMediumProblems value).map fun n => { params with numMediumProblems := n }
  | some .numHardProblems =>
    (asInt params.numHardProblems value).map fun n => { params with numHardProblems := n }
  | some .tags => (asList (Json.asString "") value).map fun names =>
    { params with filter := { params.filter with tags := names } }
  | some .companies => (asList (Json.asString "") value).map fun names =>
    { params with filter := { params.filter with companies := names } }
  | some .blind75 => (asBool params.filter.blind75 value).map fun b =>
    { params with filter := { params.filter with blind75 := b } }
  | some .neetcode150 => (asBool params.filter.neetCode150 value).map fun b =>
    { params with filter := { params.filter with neetCode150 := b } }
  | some .recentlyAsked => (asBool params.filter.recentlyAsked value).map fun b =>
    { params with filter := { params.filter with recentlyAsked := b } }
  | some .excludePaid => (asBool params.filter.excludePaid value).map fun b =>
    { params with filter := { params.filter with excludePaid := b } }
  | some .anyDifficulty =>
    (asBool params.anyDifficulty value).map fun b => { params with anyDifficulty := b }
  | some .numAnyDifficultyProblems => (asInt params.numAnyDifficultyProblems value).map fun n =>
    { params with numAnyDifficultyProblems := n }
  | some .problemIds =>
    (asList (Json.asUint 0) value).map fun ids => { params with problemIDs := ids }

/-- `c.Bind` for the parameters of a round. -/
def bindRoundParams (body : Json) : Option RoundCreationParameters :=
  body.decodeStruct ⟨0, 0, 0, 0, ⟨[], [], false, false, false, false⟩, false, 0, []⟩ readRoundField

/-! ## What the count should be -/

/-- A round with these parameters may choose the problem, before any fallback. -/
def drawsFrom (params : RoundCreationParameters) (env : Env) (db : DB) (p : Problem) : Bool :=
  (params.anyDifficulty ||
      (decide (p.difficulty = difficultyEasy) && decide (0 < params.numEasyProblems)) ||
      (decide (p.difficulty = difficultyMedium) && decide (0 < params.numMediumProblems)) ||
      (decide (p.difficulty = difficultyHard) && decide (0 < params.numHardProblems))) &&
    (params.filter.strict env db p && params.filter.recent env db p)

/-- Both ways, the same names are received, and what is counted are the problems among which the
round chooses. -/
def SameFilters (choice : RoundChoice) : Prop :=
  ∃ filter difficulties params,
    countRequest choice.countQuery = some (filter, difficulties) ∧
    bindRoundParams choice.body = some params ∧
    normalizeTags filter.tags = normalizeTags params.filter.tags ∧
    normalizeTags filter.companies = normalizeTags params.filter.companies ∧
    ∀ env w, env.fails .countProblems = false →
      (countAvailableProblemsEndpoint env choice.countQuery).run w =
        (.ok (w.db.countProblems (drawsFrom params env w.db)), w)

/-! ## Commas -/

section Commas

variable {names : List String}

/-- The pieces between commas have no commas. -/
theorem comma_notMem_splitOn : ∀ cs : List Char, ∀ piece ∈ cs.splitOn ',', ',' ∉ piece
  | [], piece, h => by
    rw [List.splitOn_nil, List.mem_singleton] at h
    rw [h]
    exact List.not_mem_nil
  | c :: cs, piece, h => by
    rw [List.splitOn_cons_eq_if_modifyHead] at h
    split_ifs at h with hcomma
    · rcases List.mem_cons.mp h with rfl | hmem
      · exact List.not_mem_nil
      · exact comma_notMem_splitOn cs piece hmem
    · obtain ⟨first, rest, hsplit⟩ := List.exists_cons_of_ne_nil (List.splitOn_ne_nil ',' cs)
      have hrest : ∀ piece ∈ first :: rest, ',' ∉ piece := hsplit ▸ comma_notMem_splitOn cs
      rw [hsplit, List.modifyHead_cons] at h
      rcases List.mem_cons.mp h with rfl | hmem
      · rw [List.mem_cons, not_or]
        exact ⟨fun hsame => hcomma (beq_iff_eq.mpr hsame.symm), hrest first List.mem_cons_self⟩
      · exact hrest piece (List.mem_cons_of_mem _ hmem)

/-- Names without commas are split as they were joined. -/
theorem splitOn_joinComma (hne : names ≠ []) (hplain : ∀ name ∈ names, ',' ∉ name.toList) :
    ((joinComma names).toList.splitOn ',').map String.ofList = names := by
  unfold joinComma
  rw [String.toList_ofList, List.splitOn_intercalate ',' _ fun hnil => hne (List.map_eq_nil_iff.mp hnil),
    List.map_map]
  · exact (List.map_congr_left fun name _ => String.ofList_toList).trans (List.map_id names)
  · intro cs hcs
    obtain ⟨name, hname, rfl⟩ := List.mem_map.mp hcs
    exact hplain name hname

/-- Whether an empty parameter stands for no names or for an empty name makes no difference. -/
theorem normalizeTags_splitParam (value : String) :
    normalizeTags (splitParam value) =
      normalizeTags ((value.toList.splitOn ',').map String.ofList) := by
  unfold splitParam
  split_ifs with hempty
  · subst hempty
    decide +kernel
  · rfl

/-- Names come through the query as they are, after normalizing, exactly when they have no commas.
-/
theorem normalizeTags_joinComma :
    normalizeTags (splitParam (joinComma names)) = normalizeTags names ↔
      ∀ name ∈ names, ',' ∉ name.toList := by
  rw [normalizeTags_splitParam]
  constructor
  · intro hsame name hname hcomma
    have hmem : ',' ∈ trimSpace name.toList := (mem_trimSpace (by decide)).mpr hcomma
    have hnorm : trimSpace name.toList ∈ normalizeTags names := by
      refine List.mem_filter.mpr ⟨List.mem_map_of_mem hname, ?_⟩
      rw [Bool.not_eq_true', List.isEmpty_eq_false_iff]
      exact List.ne_nil_of_mem hmem
    -- The pieces of the parameter have no commas.
    rw [← hsame] at hnorm
    obtain ⟨piece, hpiece, htrim⟩ := List.mem_map.mp (List.mem_filter.mp hnorm).1
    obtain ⟨cs, hcs, rfl⟩ := List.mem_map.mp hpiece
    rw [String.toList_ofList] at htrim
    rw [← htrim, mem_trimSpace (by decide)] at hmem
    exact comma_notMem_splitOn _ cs hcs hmem
  · intro hplain
    by_cases hne : names = []
    · subst hne
      decide +kernel
    · rw [splitOn_joinComma hne hplain]

/-- Names without commas, other than a single empty one, are received as they are. -/
theorem splitParam_joinComma (hempty : "" ∉ names) (hplain : ∀ name ∈ names, ',' ∉ name.toList) :
    splitParam (joinComma names) = names := by
  unfold splitParam
  by_cases hne : names = []
  · subst hne
    rfl
  have hsplit := splitOn_joinComma hne hplain
  rw [if_neg, hsplit]
  intro hjoin
  rw [hjoin] at hsplit
  refine hempty ?_
  rw [← hsplit]
  decide +kernel

end Commas

/-! ## What is received -/

section Received

variable (choice : RoundChoice)

/-- A parameter is received as it was set; one that was not is empty. -/
theorem queryParam_countQuery {i : ℕ} {name : String} {value : Option String}
    (h : choice.params[i]? = some (name, value)) :
    queryParam choice.countQuery name = some (value.getD "") := by
  have hnodup : ((choice.params.map fun (name, value) => (utf8 name, value.map utf8)).map
      Prod.fst).Nodup := by
    show (["difficulties", "tags", "companies", "blind75", "neetcode150", "recentlyAsked",
      "excludePaid"].map utf8).Nodup
    decide +kernel
  have hmem : (utf8 name, value.map utf8) ∈
      choice.params.map fun (name, value) => (utf8 name, value.map utf8) :=
    List.mem_map.mpr ⟨_, List.mem_of_getElem? h, rfl⟩
  have hvalue : (value.map utf8).getD [] = utf8 (value.getD "") := by
    cases value with
    | none => rfl
    | some text => rfl
  unfold queryParam RoundChoice.countQuery
  rw [FormUrl.parse_render, FormUrl.get_present hnodup hmem, hvalue, textOf_utf8]

/-- A list of names is received as the text in which it was joined. -/
theorem getD_joinComma (names : List String) :
    (if names ≠ [] then some (joinComma names) else none).getD "" = joinComma names := by
  split_ifs with hne
  · rfl
  · rw [not_not.mp hne]
    rfl

/-- A flag is received as it was set. -/
theorem getD_flag (flag : Bool) :
    decide ((if flag = true then some "true" else none).getD "" = "true") = flag := by
  cases flag with
  | true => rfl
  | false => decide

/-- The filters that the query asks for. -/
def RoundChoice.countedFilter : ProblemFilter where
  tags := splitParam (joinComma choice.selectedTopics)
  companies := splitParam (joinComma choice.selectedCompanies)
  blind75 := choice.blind75
  neetCode150 := choice.neetcode150
  recentlyAsked := choice.recentlyAsked
  excludePaid := choice.excludePaid

/-- The parameters that the body asks for. -/
def RoundChoice.boundParams : RoundCreationParameters where
  duration := ((if choice.duration = 0 then 30 else choice.duration : ℕ) : ℤ)
  numEasyProblems := ((if choice.anyDifficulty then 0 else choice.numberOfEasyProblems : ℕ) : ℤ)
  numMediumProblems := ((if choice.anyDifficulty then 0 else choice.numberOfMediumProblems : ℕ) : ℤ)
  numHardProblems := ((if choice.anyDifficulty then 0 else choice.numberOfHardProblems : ℕ) : ℤ)
  filter := ⟨choice.selectedTopics, choice.selectedCompanies, choice.blind75, choice.neetcode150,
    choice.recentlyAsked, choice.excludePaid⟩
  anyDifficulty := choice.anyDifficulty
  numAnyDifficultyProblems :=
    ((if choice.anyDifficulty then choice.anyDifficultyCount else 0 : ℕ) : ℤ)
  problemIDs := []

/-- The request that the endpoint receives. -/
theorem countRequest_countQuery : countRequest choice.countQuery =
    some (choice.countedFilter, splitParam choice.activeDifficulties) := by
  have hactive : (if choice.activeDifficulties ≠ "" then some choice.activeDifficulties
      else none).getD "" = choice.activeDifficulties := by
    split_ifs with hne
    · rfl
    · exact (not_not.mp hne).symm
  have hdifficulties := queryParam_countQuery choice (i := 0) rfl
  have htags := queryParam_countQuery choice (i := 1) rfl
  have hcompanies := queryParam_countQuery choice (i := 2) rfl
  have hblind75 := queryParam_countQuery choice (i := 3) rfl
  have hneetcode150 := queryParam_countQuery choice (i := 4) rfl
  have hrecentlyAsked := queryParam_countQuery choice (i := 5) rfl
  have hexcludePaid := queryParam_countQuery choice (i := 6) rfl
  rw [hactive] at hdifficulties
  rw [getD_joinComma] at htags hcompanies
  unfold countRequest
  rw [htags, hcompanies, hblind75, hneetcode150, hrecentlyAsked, hdifficulties, hexcludePaid]
  simp only [Option.bind_eq_bind, Option.bind_some, getD_flag]
  rfl

/-- A number is read back. -/
theorem asInt_uint {n : ℕ} (h : n < 2^63) (old : ℤ) : asInt old (Json.uint n) = some (n : ℤ) := by
  have hdigit : ∀ c ∈ Nat.toDigits 10 n, c.isDigit = true := fun _ => Json.isDigit_of_mem_toDigits
  unfold Json.uint asInt
  split
  · cases ‹_ = Json.null›
  · rename_i digits hnum
    have hminus : '-' ∈ Nat.toDigits 10 n := by
      rw [Json.num.inj hnum]
      exact List.mem_cons_self
    exact absurd (hdigit '-' hminus) (by decide)
  · rename_i digits _ hnum
    rw [← Json.num.inj hnum, Nat.ofDigitChars_ten_toDigits,
      if_pos ⟨List.all_eq_true.mpr hdigit, h⟩]
  · rename_i hnum
    exact absurd rfl (hnum _)

/-- A list of names is read back. -/
theorem asList_namesArray (names : List String) :
    asList (Json.asString "") (namesArray names) = some names := by
  show (names.map Json.text).mapM (Json.asString "") = some names
  induction names with
  | nil => rfl
  | cons name names ih =>
    rw [List.map_cons, List.mapM_cons, Json.asString_text, ih]
    rfl

/-- A key names its field. -/
theorem find_roundFields (field : RoundField) :
    (roundFields.find? fun field' => Json.names field.key.toList field'.key.toList) = some field := by
  cases field <;> decide +kernel

/-- The parameters that the other endpoint receives. -/
theorem bindRoundParams_body : bindRoundParams choice.body = some choice.boundParams := by
  have hsafe : ∀ n ∈ [choice.numberOfEasyProblems, choice.numberOfMediumProblems,
      choice.numberOfHardProblems, choice.anyDifficultyCount, choice.duration], n < 2^63 :=
    fun n hn => lt_trans (choice.safe n hn) (by decide)
  simp only [List.mem_cons, List.not_mem_nil, or_false, forall_eq_or_imp, forall_eq] at hsafe
  obtain ⟨heasy, hmedium, hhard, hany, hduration⟩ := hsafe
  have hread : ∀ n : ℕ, ∀ d < 2^63, n < 2^63 → ∀ (p : Prop) [Decidable p] (old : ℤ),
      asInt old (Json.uint (if p then d else n)) = some ((if p then d else n : ℕ) : ℤ) := by
    intro n d hd hn p _ old
    refine asInt_uint ?_ old
    split_ifs
    · exact hd
    · exact hn
  unfold bindRoundParams RoundChoice.body RoundChoice.roundParams
  simp only [Json.decodeStruct, List.map_cons, List.map_nil, List.foldlM_cons, List.foldlM_nil,
    readRoundField, find_roundFields, asList_namesArray, asBool, Option.map_some,
    Option.bind_eq_bind, Option.bind_some, hread _ 30 (by decide) hduration,
    hread _ 0 (by decide) heasy, hread _ 0 (by decide) hmedium, hread _ 0 (by decide) hhard,
    hread 0 _ hany (by decide)]
  rfl

end Received

/-! ## The problems that are counted -/

section Counted

variable {env : Env} {db : DB} {filter filter' : ProblemFilter} {p : Problem}

/-- The filters depend on the names after normalizing only. -/
theorem filters_congr (htags : normalizeTags filter.tags = normalizeTags filter'.tags)
    (hcompanies : normalizeTags filter.companies = normalizeTags filter'.companies)
    (hflags : { filter with tags := [], companies := [] } =
      { filter' with tags := [], companies := [] }) :
    (filter.strict env db p && filter.recent env db p) =
      (filter'.strict env db p && filter'.recent env db p) := by
  obtain ⟨-, -, hblind75, hneetCode150, hrecentlyAsked, hexcludePaid⟩ := ProblemFilter.mk.inj hflags
  unfold ProblemFilter.strict ProblemFilter.recent ProblemFilter.paid ProblemFilter.tagged
    ProblemFilter.company ProblemFilter.listed ProblemFilter.ofCompany
  rw [htags, hcompanies, hblind75, hneetCode150, hrecentlyAsked, hexcludePaid]

/-- The same names in another order are normalized to the same texts in another order. -/
theorem normalizeTags_perm {names names' : List String} (h : names.Perm names') :
    (normalizeTags names).Perm (normalizeTags names') := (h.map _).filter _

/-- The filters do not depend on the order of tags and companies. -/
theorem filters_perm
    (htags : filter.tags.Perm filter'.tags) (hcompanies : filter.companies.Perm filter'.companies)
    (hflags : { filter with tags := [], companies := [] } =
      { filter' with tags := [], companies := [] }) :
    (filter.strict env db p && filter.recent env db p) =
      (filter'.strict env db p && filter'.recent env db p) := by
  obtain ⟨-, -, hblind75, hneetCode150, hrecentlyAsked, hexcludePaid⟩ := ProblemFilter.mk.inj hflags
  have htagged := normalizeTags_perm htags
  have hnormal := normalizeTags_perm hcompanies
  have hcompany : filter.ofCompany env p = filter'.ofCompany env p := by
    funext t
    unfold ProblemFilter.ofCompany
    rw [(hnormal.map _).contains_eq]
  unfold ProblemFilter.strict ProblemFilter.recent ProblemFilter.paid ProblemFilter.tagged
    ProblemFilter.company ProblemFilter.listed
  rw [hcompany, hblind75, hneetCode150, hrecentlyAsked, hexcludePaid, hnormal.isEmpty_eq]
  dsimp only
  rw [htagged.isEmpty_eq, htagged.any_eq]

/-- The difficulties that are counted are those of which problems are asked for. -/
theorem ofDifficulties_active (choice : RoundChoice) (difficulty : String) :
    ((splitParam choice.activeDifficulties).isEmpty ||
        (splitParam choice.activeDifficulties).contains difficulty) =
      (choice.anyDifficulty ||
        (decide (difficulty = difficultyEasy) && decide (0 < choice.numberOfEasyProblems)) ||
        (decide (difficulty = difficultyMedium) && decide (0 < choice.numberOfMediumProblems)) ||
        (decide (difficulty = difficultyHard) && decide (0 < choice.numberOfHardProblems))) := by
  unfold RoundChoice.activeDifficulties
  cases choice.anyDifficulty with
  | true => rfl
  | false =>
    have hsome := choice.atLeastOne
    -- The names that are sent are three fixed words without commas, so the server splits them back.
    have hnames : ∀ name ∈ (if 0 < choice.numberOfEasyProblems then ["easy"] else []) ++
        (if 0 < choice.numberOfMediumProblems then ["medium"] else []) ++
        (if 0 < choice.numberOfHardProblems then ["hard"] else []),
        name ∈ ["easy", "medium", "hard"] := by
      intro name hname
      rw [List.mem_append, List.mem_append] at hname
      rcases hname with (hname | hname) | hname
      all_goals
        split_ifs at hname
        · rw [List.mem_singleton.mp hname]
          decide
        · cases hname
    have hplain : ∀ name ∈ ["easy", "medium", "hard"], name ≠ "" ∧ ',' ∉ name.toList := by
      decide +kernel
    rw [if_neg Bool.false_ne_true, splitParam_joinComma (fun hmem => (hplain _ (hnames _ hmem)).1 rfl)
      fun name hname => (hplain name (hnames name hname)).2]
    have hcontains : ∀ (n : ℕ) (name : String), (if 0 < n then [name] else []).contains difficulty =
        (decide (difficulty = name) && decide (0 < n)) := by
      intro n name
      split_ifs with hn
      · rw [decide_eq_true hn, Bool.and_true, List.contains_cons, List.contains_nil, Bool.or_false]
        rfl
      · rw [decide_eq_false hn, Bool.and_false]
        rfl
    -- At least one number is positive, so the list is not the empty one that stands for all.
    have hempty : ((if 0 < choice.numberOfEasyProblems then ["easy"] else []) ++
        (if 0 < choice.numberOfMediumProblems then ["medium"] else []) ++
        (if 0 < choice.numberOfHardProblems then ["hard"] else [])).isEmpty = false := by
      have hnil : ∀ (n : ℕ) (name : String), (if 0 < n then [name] else []) = [] → n = 0 := by
        intro n name hif
        split_ifs at hif with hn
        omega
      rw [List.isEmpty_eq_false_iff]
      intro happend
      obtain ⟨hleft, hhard⟩ := List.append_eq_nil_iff.mp happend
      obtain ⟨heasy, hmedium⟩ := List.append_eq_nil_iff.mp hleft
      have hzero := And.intro (hnil _ _ heasy) (And.intro (hnil _ _ hmedium) (hnil _ _ hhard))
      omega
    rw [hempty, Bool.false_or, Bool.false_or, List.contains_append, List.contains_append, hcontains,
      hcontains, hcontains]
    rfl

/-- A number counts for the round as it does in the form, unless any difficulty will do. -/
theorem drawsFrom_boundParams (choice : RoundChoice) :
    drawsFrom choice.boundParams env db p =
      ((choice.anyDifficulty ||
          (decide (p.difficulty = difficultyEasy) && decide (0 < choice.numberOfEasyProblems)) ||
          (decide (p.difficulty = difficultyMedium) && decide (0 < choice.numberOfMediumProblems)) ||
          (decide (p.difficulty = difficultyHard) && decide (0 < choice.numberOfHardProblems))) &&
        (choice.boundParams.filter.strict env db p && choice.boundParams.filter.recent env db p)) := by
  unfold drawsFrom
  refine congrArg (· && _) ?_
  unfold RoundChoice.boundParams
  dsimp only
  cases choice.anyDifficulty with
  | true => rfl
  | false => simp only [Bool.false_eq_true, if_false, Int.natCast_pos]

end Counted

/-- The count is that of the problems among which the round chooses exactly when no selected name
has a comma. -/
theorem sameFilters_iff (choice : RoundChoice) :
    SameFilters choice ↔
      ∀ name ∈ choice.selectedTopics ++ choice.selectedCompanies, ',' ∉ name.toList := by
  have hrequest := countRequest_countQuery choice
  have hbody := bindRoundParams_body choice
  rw [List.forall_mem_append]
  constructor
  · rintro ⟨filter, difficulties, params, hfilter, hparams, htags, hcompanies, -⟩
    rw [hrequest] at hfilter
    rw [hbody] at hparams
    cases hfilter
    cases hparams
    exact ⟨normalizeTags_joinComma.mp htags, normalizeTags_joinComma.mp hcompanies⟩
  · rintro ⟨htopics, hcompanies⟩
    refine ⟨_, _, _, hrequest, hbody, normalizeTags_joinComma.mpr htopics,
      normalizeTags_joinComma.mpr hcompanies, fun env w henv => ?_⟩
    -- With the same names, both look through the same problems.
    have hcounted : ∀ p, drawsFrom choice.boundParams env w.db p =
        (((splitParam choice.activeDifficulties).isEmpty ||
            (splitParam choice.activeDifficulties).contains p.difficulty) &&
          (choice.countedFilter.strict env w.db p && choice.countedFilter.recent env w.db p)) := by
      intro p
      have hfilters : (choice.countedFilter.strict env w.db p &&
          choice.countedFilter.recent env w.db p) =
            (choice.boundParams.filter.strict env w.db p &&
              choice.boundParams.filter.recent env w.db p) :=
        filters_congr (normalizeTags_joinComma.mpr htopics) (normalizeTags_joinComma.mpr hcompanies) rfl
      rw [drawsFrom_boundParams, ofDifficulties_active, hfilters]
    unfold countAvailableProblemsEndpoint
    rw [hrequest, funext hcounted]
    exact countAvailableProblems_run henv _

/-- Two problems of one company are asked for. -/
def oneCompany (company : String) : RoundChoice where
  numberOfEasyProblems := 2
  numberOfMediumProblems := 0
  numberOfHardProblems := 0
  anyDifficulty := false
  anyDifficultyCount := 1
  duration := 30
  selectedTopics := []
  selectedCompanies := [company]
  blind75 := false
  neetcode150 := false
  recentlyAsked := false
  excludePaid := true
  atLeastOne := by decide
  safe := by decide

/-- The name of the company has a comma, and two other names are counted. -/
theorem not_sameFilters_comma : ¬ SameFilters (oneCompany "Hall, Inc.") := by
  rintro ⟨filter, difficulties, params, hfilter, hparams, -, hcompanies, -⟩
  have hcounted : (countRequest (oneCompany "Hall, Inc.").countQuery).map
      (fun request => normalizeTags request.1.companies) = some ["Hall".toList, "Inc.".toList] := by
    decide +kernel
  have hbound : (bindRoundParams (oneCompany "Hall, Inc.").body).map
      (fun params => normalizeTags params.filter.companies) = some ["Hall, Inc.".toList] := by
    decide +kernel
  rw [hfilter] at hcounted
  rw [hparams] at hbound
  have hdiffer : (["Hall".toList, "Inc.".toList] : List (List Char)) = ["Hall, Inc.".toList] := calc
    _ = normalizeTags filter.companies := (Option.some.inj hcounted).symm
    _ = normalizeTags params.filter.companies := hcompanies
    _ = ["Hall, Inc.".toList] := Option.some.inj hbound
  revert hdiffer
  decide +kernel

end Bsg.Extension
