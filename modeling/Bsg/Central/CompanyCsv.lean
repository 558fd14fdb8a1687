import Bsg.Central.Seeding
import Bsg.Foundations.Csv
import Mathlib.Data.List.Find
import Mathlib.Data.List.Sort
import Mathlib.Data.List.TakeWhile
import Mathlib.Data.Prod.Lex
import Mathlib.Data.String.Basic
import Mathlib.Data.Finset.Insert
import Mathlib.Data.Finset.Dedup

/-!
# The CSV file of companies

`writeOutput` of `cmd/fetch-company-problems` writes which companies asked for which problems, how
often and in which windows of time, and `SeedCompanyProblems` of `services/seeding.go` reads the
file (`companyRows`). The two are separate programs, which agree on the names of the columns and on
the separator of windows.

What is written is read back, for the problems that are known, in the same rows whatever the order
in which maps are gone through (`companyRows_writeOutput`).
-/

namespace Bsg.Central

open Bsg.Foundations

/-! ## Reading -/

/-- Numbers of type `float64` in a type `F`: `FormatFloat` with precision -1, the number that
`ParseFloat` returns (whatever error it returns beside it), and zero. -/
structure FloatFormat (F : Type) where
  format : F → String
  parse : String → F
  zero : F

/-- A row of `problem_company_tags` with its frequency. -/
structure CompanyRow (F : Type) where
  problemID : ℕ
  company : String
  frequency : F
  windows : List String
  deriving DecidableEq, Repr

/-- The unique index of the table. -/
def CompanyRow.key {F : Type} (row : CompanyRow F) : ℕ × String := (row.problemID, row.company)

/-- The column with a name: a later one replaces an earlier one. -/
def columnIndex (lower : Char → Char) (header : Csv.Record) (name : String) : Option ℕ :=
  (header.zipIdx.reverse.find? fun (col, _) => (trimSpace col).map lower = name.toList).map Prod.snd

/-- The columns of a file of companies. -/
structure CompanyColumns where
  slug : ℕ
  company : ℕ
  frequency : Option ℕ
  windows : Option ℕ
  deriving DecidableEq, Repr

/-- The columns by their names; two of them are required. -/
def companyColumns (lower : Char → Char) (header : Csv.Record) : Except GoError CompanyColumns :=
  match columnIndex lower header "slug" with
  | none => .error (.other "csv missing required column: Slug")
  | some slug =>
    match columnIndex lower header "company" with
    | none => .error (.other "csv missing required column: Company")
    | some company =>
      .ok ⟨slug, company, columnIndex lower header "frequency", columnIndex lower header "windows"⟩

/-- The windows of a field, trimmed and without empty ones. -/
def splitWindows (field : List Char) : List String :=
  (((field.splitOn ';').map trimSpace).filter fun w => !w.isEmpty).map String.ofList

section Read

variable {F : Type} (num : FloatFormat F) (slugToID : List Char → Option ℕ)

/-- The row of a record, unless it is too short, or has no slug or no company, or its slug is
unknown. -/
def companyRow (columns : CompanyColumns) (record : Csv.Record) : Option (CompanyRow F) :=
  if record.length ≤ max columns.slug columns.company then none
  else
    let slug := trimSpace (record.getD columns.slug [])
    let company := trimSpace (record.getD columns.company [])
    if slug = [] ∨ company = [] then none
    else
      (slugToID slug).map fun problemID => {
        problemID := problemID
        company := String.ofList company
        frequency := match columns.frequency.bind fun i => record[i]? with
          | some field => num.parse (String.ofList (trimSpace field))
          | none => num.zero
        windows := match columns.windows.bind fun i => record[i]? with
          | some field => splitWindows field
          | none => [] }

/-- The rows of the records that can be read. -/
def companyRows (columns : CompanyColumns) (results : List (Except Csv.CsvError Csv.Record)) :
    List (CompanyRow F) :=
  results.filterMap fun result => match result with
    | .ok record => companyRow num slugToID columns record
    | .error _ => none

/-- The header of a file and the records after it. -/
def readHeader (text : List Char) :
    Except GoError (Csv.Record × List (Except Csv.CsvError Csv.Record)) :=
  match Csv.parse text with
  | .ok header :: results => .ok (header, results)
  | _ => .error (.other "failed to read csv header")

/-- What `SeedCompanyProblems` reads from a file. -/
def readCompanies (lower : Char → Char) (text : List Char) : Except GoError (List (CompanyRow F)) := do
  let (header, results) ← readHeader text
  let columns ← companyColumns lower header
  pure (companyRows num slugToID columns results)

end Read

/-! ## Writing -/

/-- The codes of `windowFiles`. -/
def windowCodes : List String :=
  ["ThirtyDays", "ThreeMonths", "SixMonths", "MoreThanSixMonths", "All"]

/-- `pairKey` -/
structure PairKey where
  slug : String
  company : String
  deriving DecidableEq, Repr

/-- `pairData`; the windows are a set. -/
structure PairData (F : Type) where
  frequency : F
  windows : List String
  nodup : windows.Nodup
  deriving DecidableEq, Repr

/-- The merged map: each pair is in it once. -/
structure Merged (F : Type) where
  pairs : List (PairKey × PairData F)
  nodup : (pairs.map Prod.fst).Nodup

/-- The order of keys in the file. -/
def keyLess (k k' : PairKey) : Bool :=
  if k.slug ≠ k'.slug then decide (k.slug < k'.slug) else decide (k.company < k'.company)

/-- `sort.Slice` by the order of keys. -/
def sortKeys (keys : List PairKey) : List PairKey := keys.mergeSort fun k k' => !keyLess k' k

/-- `sort.Strings` -/
def sortStrings (texts : List String) : List String := texts.mergeSort

section Write

variable {F : Type} (num : FloatFormat F)

/-- The record of a pair; a map is gone through in any order. -/
def pairRecord (windows : Arrangement String) (key : PairKey) (data : PairData F) : Csv.Record :=
  [key.slug.toList, key.company.toList, (num.format data.frequency).toList,
    List.intercalate [';'] ((sortStrings (windows.order data.windows)).map String.toList)]

/-- The names of the columns. -/
def companyHeader : Csv.Record :=
  ["Slug".toList, "Company".toList, "Frequency".toList, "Windows".toList]

/-- `writeOutput`: the text of the file. -/
def writeOutput (keys : Arrangement PairKey) (windows : PairKey → Arrangement String)
    (merged : Merged F) : List Char :=
  Csv.render isSpace (companyHeader ::
    (sortKeys (keys.order (merged.pairs.map Prod.fst))).filterMap fun key =>
      (merged.pairs.lookup key).map (pairRecord num (windows key) key))

end Write

/-- The slug and the company are not empty, have no white space around them and no line breaks, and
there are windows, which are among the five. -/
structure Clean {F : Type} (key : PairKey) (data : PairData F) : Prop where
  slug_ne : key.slug ≠ ""
  company_ne : key.company ≠ ""
  slug_trimmed : trimSpace key.slug.toList = key.slug.toList
  company_trimmed : trimSpace key.company.toList = key.company.toList
  slug_line : '\n' ∉ key.slug.toList ∧ '\r' ∉ key.slug.toList
  company_line : '\n' ∉ key.company.toList ∧ '\r' ∉ key.company.toList
  windows_ne : data.windows ≠ []
  windows_mem : ∀ w ∈ data.windows, w ∈ windowCodes

/-- What a row says about a pair. -/
def CompanyRow.pair {F : Type} (row : CompanyRow F) : ℕ × String × F × Finset String :=
  (row.problemID, row.company, row.frequency, row.windows.toFinset)

/-! ## Sorting -/

section Sorting

/-- Under an order, sorting does not depend on the arrangement. -/
theorem mergeSort_congr {α : Type} {le : α → α → Bool} {l l' : List α}
    (trans : ∀ a b c, le a b = true → le b c = true → le a c = true)
    (total : ∀ a b, (le a b || le b a) = true)
    (antisymm : ∀ a b, le a b = true → le b a = true → a = b) (h : l.Perm l') :
    l.mergeSort le = l'.mergeSort le := by
  have hperm : (l.mergeSort le).Perm (l'.mergeSort le) := calc
    (l.mergeSort le).Perm l := List.mergeSort_perm l le
    List.Perm _ l' := h
    List.Perm _ (l'.mergeSort le) := (List.mergeSort_perm l' le).symm
  exact List.Perm.eq_of_pairwise (fun a b _ _ => antisymm a b)
    (List.pairwise_mergeSort trans total l) (List.pairwise_mergeSort trans total l') hperm

/-- Sorting texts loses and repeats none. -/
theorem sortStrings_perm (texts : List String) : (sortStrings texts).Perm texts :=
  List.mergeSort_perm texts _

/-- The order before sorting does not matter. -/
theorem sortStrings_congr {l l' : List String} (h : l.Perm l') : sortStrings l = sortStrings l' := by
  refine mergeSort_congr ?_ ?_ ?_ h
  · intro a b c hab hbc
    exact decide_eq_true ((of_decide_eq_true hab).trans (of_decide_eq_true hbc))
  · intro a b
    rw [Bool.or_eq_true, decide_eq_true_iff, decide_eq_true_iff]
    exact le_total a b
  · exact fun a b hab hba => (of_decide_eq_true hab).antisymm (of_decide_eq_true hba)

/-- A key as a pair in the lexicographic order. -/
def PairKey.lex (k : PairKey) : String ×ₗ String := toLex (k.slug, k.company)

/-- One key is not after another exactly when it is at most that. -/
theorem not_keyLess (k k' : PairKey) : (!keyLess k' k) = true ↔ k.lex ≤ k'.lex := by
  unfold keyLess PairKey.lex
  rw [Prod.Lex.toLex_le_toLex, Bool.not_eq_true']
  dsimp only
  split_ifs with hslug
  · rw [decide_eq_false_iff_not, not_lt]
    exact ⟨fun hle => Or.inl (lt_of_le_of_ne hle (Ne.symm hslug)),
      fun hor => hor.elim le_of_lt fun hand => hand.1.le⟩
  · have hsame : k'.slug = k.slug := not_ne_iff.mp hslug
    rw [decide_eq_false_iff_not, not_lt, hsame]
    constructor
    · exact fun hle => Or.inr ⟨rfl, hle⟩
    · exact fun hor => hor.elim (fun hlt => absurd hlt (lt_irrefl _)) And.right

/-- A key is determined by its place in the order. -/
theorem PairKey.lex_inj {k k' : PairKey} (h : k.lex = k'.lex) : k = k' := by
  have hpair : (k.slug, k.company) = (k'.slug, k'.company) := h
  obtain ⟨hslug, hcompany⟩ := Prod.mk.inj hpair
  cases k
  cases k'
  exact congrArg₂ PairKey.mk hslug hcompany

/-- The order before sorting does not matter. -/
theorem sortKeys_congr {l l' : List PairKey} (h : l.Perm l') : sortKeys l = sortKeys l' := by
  refine mergeSort_congr ?_ ?_ ?_ h
  · intro a b c hab hbc
    exact (not_keyLess a c).mpr (((not_keyLess a b).mp hab).trans ((not_keyLess b c).mp hbc))
  · intro a b
    rw [Bool.or_eq_true, not_keyLess, not_keyLess]
    exact le_total _ _
  · exact fun a b hab hba =>
      PairKey.lex_inj (((not_keyLess a b).mp hab).antisymm ((not_keyLess b a).mp hba))

end Sorting

/-! ## Reading what was written -/

/-- Letters of ASCII are lowered as usual. -/
def LowersAscii (lower : Char → Char) : Prop := ∀ c : Char, c.toNat < 128 → lower c = c.toLower

/-- Texts of ASCII letters are lowered as the standard lowers them. -/
theorem map_lower {lower : Char → Char} (h : LowersAscii lower) (cs : List Char)
    (hascii : cs.all fun c => decide (c.toNat < 128)) : cs.map lower = cs.map Char.toLower := by
  refine List.map_congr_left fun c hc => h c ?_
  exact of_decide_eq_true (List.all_eq_true.mp hascii c hc)

/-- The letters of the names of the columns are lowered as usual. -/
theorem header_lower {lower : Char → Char} (h : LowersAscii lower) :
    ∀ col ∈ companyHeader, (trimSpace col).map lower = (trimSpace col).map Char.toLower := by
  have hascii : ∀ col ∈ companyHeader, (trimSpace col).all fun c => decide (c.toNat < 128) := by
    decide +kernel
  exact fun col hcol => map_lower h _ (hascii col hcol)

/-- The columns of the header are found, in this order. -/
theorem companyColumns_header {lower : Char → Char} (h : LowersAscii lower) :
    companyColumns lower companyHeader = .ok ⟨0, 1, some 2, some 3⟩ := by
  have hindex : ∀ name, columnIndex lower companyHeader name =
      columnIndex Char.toLower companyHeader name := by
    intro name
    unfold columnIndex
    refine congrArg (Option.map Prod.snd) (List.find?_congr fun (col, i) hentry => ?_)
    have hcol : col ∈ companyHeader := List.fst_mem_of_mem_zipIdx (List.mem_reverse.mp hentry)
    dsimp only
    rw [header_lower h col hcol]
  unfold companyColumns
  rw [hindex, hindex, hindex, hindex]
  decide +kernel

section RoundTrip

variable {F : Type} {num : FloatFormat F} {slugToID : List Char → Option ℕ}

/-- The codes of windows have no white space around them and no separator in them. -/
theorem windowCodes_plain : ∀ w ∈ windowCodes,
    ';' ∉ w.toList ∧ trimSpace w.toList = w.toList ∧ w.toList.isEmpty = false ∧ '\r' ∉ w.toList := by
  decide +kernel

/-- Codes that were joined are split again. -/
theorem splitWindows_join {ws : List String} (hne : ws ≠ []) (hcodes : ∀ w ∈ ws, w ∈ windowCodes) :
    splitWindows (List.intercalate [';'] (ws.map String.toList)) = ws := by
  have hplain : ∀ w ∈ ws, _ := fun w hw => windowCodes_plain w (hcodes w hw)
  unfold splitWindows
  rw [List.splitOn_intercalate ';' _ fun hnil => hne (List.map_eq_nil_iff.mp hnil)]
  · have htrim : (ws.map String.toList).map trimSpace = ws.map String.toList := by
      rw [List.map_map]
      exact List.map_congr_left fun w hw => (hplain w hw).2.1
    have hfilter : (ws.map String.toList).filter (fun w => !w.isEmpty) = ws.map String.toList := by
      refine List.filter_eq_self.mpr fun cs hcs => ?_
      obtain ⟨w, hw, rfl⟩ := List.mem_map.mp hcs
      rw [(hplain w hw).2.2.1]
      rfl
    rw [htrim, hfilter, List.map_map]
    exact (List.map_congr_left fun w _ => String.ofList_toList).trans (List.map_id ws)
  · intro cs hcs
    obtain ⟨w, hw, rfl⟩ := List.mem_map.mp hcs
    exact (hplain w hw).1

/-- A text without white space is trimmed. -/
theorem trimSpace_eq {cs : List Char} (h : ∀ c ∈ cs, isSpace c = false) : trimSpace cs = cs := by
  have hdrop : ∀ {l : List Char}, (∀ c ∈ l, isSpace c = false) → l.dropWhile isSpace = l := by
    intro l hl
    refine List.dropWhile_eq_self_iff.mpr fun hpos => ?_
    rw [hl _ (List.getElem_mem hpos)]
    exact Bool.false_ne_true
  unfold trimSpace
  rw [hdrop h, hdrop fun c hc => h c (List.mem_reverse.mp hc), List.reverse_reverse]

/-- What a problem with this slug gets from a pair. -/
def knownRow (slugToID : List Char → Option ℕ) (key : PairKey) (data : PairData F) :
    Option (CompanyRow F) :=
  (slugToID key.slug.toList).map fun problemID =>
    ⟨problemID, key.company, data.frequency, sortStrings data.windows⟩

variable {key : PairKey} {data : PairData F}

/-- A record with the four columns of the header is long enough. -/
theorem companyRow_four (slug company frequency windows : List Char) :
    companyRow num slugToID ⟨0, 1, some 2, some 3⟩ [slug, company, frequency, windows] =
      if trimSpace slug = [] ∨ trimSpace company = [] then none
      else
        (slugToID (trimSpace slug)).map fun problemID =>
          ⟨problemID, String.ofList (trimSpace company),
            num.parse (String.ofList (trimSpace frequency)), splitWindows windows⟩ := rfl

/-- The record of a pair is read as the row of the pair. -/
theorem companyRow_pairRecord (hparse : ∀ x, num.parse (num.format x) = x)
    (hspace : ∀ x, ∀ c ∈ (num.format x).toList, isSpace c = false) (hclean : Clean key data)
    (windows : Arrangement String) :
    companyRow num slugToID ⟨0, 1, some 2, some 3⟩ (pairRecord num windows key data) =
      knownRow slugToID key data := by
  have hsort : sortStrings (windows.order data.windows) = sortStrings data.windows :=
    sortStrings_congr (windows.perm data.windows)
  have hwindows : splitWindows (List.intercalate [';']
      ((sortStrings data.windows).map String.toList)) = sortStrings data.windows := by
    have hperm := sortStrings_perm data.windows
    refine splitWindows_join (fun hnil => ?_) fun w hw => hclean.windows_mem w (hperm.subset hw)
    rw [hnil] at hperm
    exact hclean.windows_ne hperm.symm.eq_nil
  have hslug : key.slug.toList ≠ [] := fun hnil =>
    hclean.slug_ne (String.toList_eq_nil_iff.mp hnil)
  have hcompany : key.company.toList ≠ [] := fun hnil =>
    hclean.company_ne (String.toList_eq_nil_iff.mp hnil)
  have hfrequency : num.parse (String.ofList (trimSpace (num.format data.frequency).toList)) =
      data.frequency := by
    rw [trimSpace_eq (hspace data.frequency), String.ofList_toList, hparse]
  unfold pairRecord knownRow
  rw [companyRow_four, hclean.slug_trimmed, hclean.company_trimmed,
    if_neg (not_or.mpr ⟨hslug, hcompany⟩), String.ofList_toList, hfrequency, hsort, hwindows]

/-- No field of the record of a pair has a carriage return. -/
theorem return_notMem_pairRecord (hspace : ∀ x, ∀ c ∈ (num.format x).toList, isSpace c = false)
    (hclean : Clean key data) (windows : Arrangement String) :
    ∀ field ∈ pairRecord num windows key data, '\r' ∉ field := by
  intro field hfield
  unfold pairRecord at hfield
  simp only [List.mem_cons, List.not_mem_nil, or_false] at hfield
  rcases hfield with rfl | rfl | rfl | rfl
  · exact hclean.slug_line.2
  · exact hclean.company_line.2
  · intro hmem
    have := hspace data.frequency '\r' hmem
    revert this
    decide
  · intro hmem
    rcases Csv.mem_of_mem_intercalate hmem with hsep | ⟨code, hcode, hmem⟩
    · revert hsep
      decide
    · obtain ⟨w, hw, rfl⟩ := List.mem_map.mp hcode
      have hperm := (sortStrings_perm (windows.order data.windows)).trans
        (windows.perm data.windows)
      exact (windowCodes_plain w (hclean.windows_mem w (hperm.subset hw))).2.2.2 hmem

/-- A pair of the map is found by its key. -/
theorem Merged.lookup_eq {merged : Merged F} {entry : PairKey × PairData F}
    (h : entry ∈ merged.pairs) : merged.pairs.lookup entry.1 = some entry.2 := by
  obtain ⟨before, after, hsplit⟩ := List.append_of_mem h
  refine List.lookup_eq_some_iff.mpr ⟨before, after, hsplit, fun entry' hentry' => ?_⟩
  have hnodup := merged.nodup
  rw [hsplit, List.map_append, List.map_cons] at hnodup
  have hdisjoint := (List.nodup_append.mp hnodup).2.2 entry'.1 (List.mem_map_of_mem hentry')
    entry.1 List.mem_cons_self
  exact bne_iff_ne.mpr hdisjoint.symm

/-- What is found by a key is a pair of the map. -/
theorem Merged.mem_of_lookup {merged : Merged F} (h : merged.pairs.lookup key = some data) :
    (key, data) ∈ merged.pairs := by
  obtain ⟨before, after, hsplit, -⟩ := List.lookup_eq_some_iff.mp h
  rw [hsplit]
  exact List.mem_append_right _ List.mem_cons_self

/-- Going through the keys is going through the pairs. -/
theorem Merged.filterMap_keys {ρ : Type} (merged : Merged F) (f : PairKey → PairData F → Option ρ) :
    ((merged.pairs.map Prod.fst).filterMap fun key => (merged.pairs.lookup key).bind (f key)) =
      merged.pairs.filterMap fun entry => f entry.1 entry.2 := by
  rw [List.filterMap_map]
  refine List.filterMap_congr fun entry hentry => ?_
  exact congrArg (fun found => found.bind (f entry.1)) (Merged.lookup_eq hentry)

/-- The reader finds the header and the records of the pairs. -/
theorem parse_writeOutput (hspace : ∀ x, ∀ c ∈ (num.format x).toList, isSpace c = false)
    {merged : Merged F} (hclean : ∀ entry ∈ merged.pairs, Clean entry.1 entry.2)
    (keys : Arrangement PairKey) (windows : PairKey → Arrangement String) :
    Csv.parse (writeOutput num keys windows merged) = (companyHeader ::
      (sortKeys (keys.order (merged.pairs.map Prod.fst))).filterMap fun key =>
        (merged.pairs.lookup key).map (pairRecord num (windows key) key)).map .ok := by
  -- Every record can be written: it has four fields, and none of them a carriage return.
  have hrecord : ∀ record ∈ companyHeader ::
      (sortKeys (keys.order (merged.pairs.map Prod.fst))).filterMap (fun key =>
        (merged.pairs.lookup key).map (pairRecord num (windows key) key)),
      (∀ field ∈ record, '\r' ∉ field) ∧ record.length = 4 := by
    intro record hmem
    rcases List.mem_cons.mp hmem with rfl | hmem
    · exact ⟨by decide +kernel, rfl⟩
    · obtain ⟨key, -, hkey⟩ := List.mem_filterMap.mp hmem
      obtain ⟨data, hlookup, rfl⟩ := Option.map_eq_some_iff.mp hkey
      exact ⟨return_notMem_pairRecord hspace (hclean (key, data) (Merged.mem_of_lookup hlookup))
        (windows key), rfl⟩
  refine Csv.parse_render (fun record hmem => (hrecord record hmem).1) (fun record hmem => ?_)
    fun record hmem => (hrecord record hmem).2
  have hlength := (hrecord record hmem).2
  constructor
  · rintro rfl
    exact absurd hlength (by decide)
  · rintro rfl
    exact absurd hlength (by decide)

/-- The rows that are read do not depend on the orders in which maps were gone through. -/
theorem readCompanies_writeOutput {lower : Char → Char} (hlower : LowersAscii lower)
    (hparse : ∀ x, num.parse (num.format x) = x)
    (hspace : ∀ x, ∀ c ∈ (num.format x).toList, isSpace c = false) {merged : Merged F}
    (hclean : ∀ entry ∈ merged.pairs, Clean entry.1 entry.2) (keys : Arrangement PairKey)
    (windows : PairKey → Arrangement String) :
    readCompanies num slugToID lower (writeOutput num keys windows merged) =
      .ok ((sortKeys (merged.pairs.map Prod.fst)).filterMap fun key =>
        (merged.pairs.lookup key).bind (knownRow slugToID key)) := by
  -- The keys are sorted before they are written, whatever the order of the map.
  have hsort : sortKeys (keys.order (merged.pairs.map Prod.fst)) =
      sortKeys (merged.pairs.map Prod.fst) := sortKeys_congr (keys.perm _)
  have hheader : readHeader (writeOutput num keys windows merged) = .ok (companyHeader,
      ((sortKeys (keys.order (merged.pairs.map Prod.fst))).filterMap fun key =>
        (merged.pairs.lookup key).map (pairRecord num (windows key) key)).map .ok) := by
    unfold readHeader
    rw [parse_writeOutput hspace hclean]
    rfl
  have hcolumns := companyColumns_header hlower
  -- Each record becomes the row of its pair, where the slug is known.
  have hrows : companyRows num slugToID ⟨0, 1, some 2, some 3⟩
      (((sortKeys (merged.pairs.map Prod.fst)).filterMap fun key =>
        (merged.pairs.lookup key).map (pairRecord num (windows key) key)).map .ok) =
      (sortKeys (merged.pairs.map Prod.fst)).filterMap fun key =>
        (merged.pairs.lookup key).bind (knownRow slugToID key) := by
    unfold companyRows
    rw [List.filterMap_map, List.filterMap_filterMap]
    refine List.filterMap_congr fun key _ => ?_
    cases hlookup : merged.pairs.lookup key with
    | none => rfl
    | some data =>
      exact companyRow_pairRecord hparse hspace
        (hclean (key, data) (Merged.mem_of_lookup hlookup)) (windows key)
  unfold readCompanies
  rw [hheader, hsort]
  show (do
    let columns ← companyColumns lower companyHeader
    pure (companyRows num slugToID columns _)) = _
  rw [hcolumns]
  exact congrArg Except.ok hrows

end RoundTrip

/-- What `writeOutput` writes is read back in the same rows, whatever the order in which maps are
gone through: one row for each pair whose slug is known, with its frequency and its set of windows.
-/
theorem companyRows_writeOutput {F : Type} (num : FloatFormat F)
    (hparse : ∀ x, num.parse (num.format x) = x)
    (hspace : ∀ x, ∀ c ∈ (num.format x).toList, isSpace c = false) (lower : Char → Char)
    (hlower : LowersAscii lower) (slugToID : List Char → Option ℕ) (merged : Merged F)
    (hclean : ∀ entry ∈ merged.pairs, Clean entry.1 entry.2) :
    ∃ rows, (∀ keys windows, readCompanies num slugToID lower
        (writeOutput num keys windows merged) = .ok rows) ∧
      (rows.map CompanyRow.pair).Perm (merged.pairs.filterMap fun (key, data) =>
        (slugToID key.slug.toList).map fun problemID =>
          (problemID, key.company, data.frequency, data.windows.toFinset)) := by
  refine ⟨_, readCompanies_writeOutput hlower hparse hspace hclean, ?_⟩
  have hperm : (sortKeys (merged.pairs.map Prod.fst)).Perm (merged.pairs.map Prod.fst) :=
    List.mergeSort_perm _ _
  refine ((hperm.filterMap _).map CompanyRow.pair).trans ?_
  rw [merged.filterMap_keys, List.map_filterMap]
  refine List.Perm.of_eq (List.filterMap_congr fun entry _ => ?_)
  obtain ⟨key, data⟩ := entry
  unfold knownRow
  rw [Option.map_map]
  refine congrArg (fun f => Option.map f (slugToID key.slug.toList)) (funext fun problemID => ?_)
  have hset : (sortStrings data.windows).toFinset = data.windows.toFinset :=
    List.toFinset_eq_of_perm _ _ (sortStrings_perm data.windows)
  show (problemID, key.company, data.frequency, (sortStrings data.windows).toFinset) = _
  rw [hset]

/-- Numbers that are whole. -/
def wholeNumbers : FloatFormat ℕ where
  format n := String.ofList (Nat.toDigits 10 n)
  parse text := Nat.ofDigitChars 10 text.toList 0
  zero := 0

/-- A whole number is read as it was written. -/
theorem wholeNumbers_parse (n : ℕ) : wholeNumbers.parse (wholeNumbers.format n) = n := by
  show Nat.ofDigitChars 10 (String.ofList (Nat.toDigits 10 n)).toList 0 = n
  rw [String.toList_ofList]
  exact Nat.ofDigitChars_ten_toDigits

/-- A whole number is written without blanks. -/
theorem wholeNumbers_space (n : ℕ) : ∀ c ∈ (wholeNumbers.format n).toList, isSpace c = false := by
  intro c hc
  have hmem : c ∈ (String.ofList (Nat.toDigits 10 n)).toList := hc
  rw [String.toList_ofList] at hmem
  have hdigit : c.isDigit = true := Nat.isDigit_of_mem_toDigits (by decide) (by decide) hmem
  have hlow : 48 ≤ c.toNat ∧ c.toNat ≤ 57 := by
    unfold Char.isDigit at hdigit
    rw [Bool.and_eq_true, decide_eq_true_iff, decide_eq_true_iff] at hdigit
    exact hdigit
  unfold isSpace
  simp only [Bool.or_eq_false_iff, Bool.and_eq_false_iff, decide_eq_false_iff_not,
    beq_eq_false_iff_ne]
  omega

/-- Two pairs, one of them of a problem that is not known. -/
def twoPairs : Merged ℕ where
  pairs := [(⟨"two-sum", "Hall, Inc."⟩, ⟨87, ["SixMonths", "All"], by decide⟩),
    (⟨"gone", "Hall, Inc."⟩, ⟨4, ["All"], by decide⟩)]
  nodup := by decide

/-- The names and slugs of the two pairs can be written. -/
theorem clean_twoPairs : ∀ entry ∈ twoPairs.pairs, Clean entry.1 entry.2 := by
  intro entry hentry
  rcases List.mem_cons.mp hentry with rfl | hentry
  · constructor <;> decide
  · rw [List.mem_singleton.mp hentry]
    constructor <;> decide

/-- One of two pairs is of a problem that is stored. -/
theorem companyRows_writeOutput_twoPairs :
    ∃ rows, (∀ keys windows, readCompanies wholeNumbers
        (fun slug => if slug = "two-sum".toList then some 1 else none) Char.toLower
        (writeOutput wholeNumbers keys windows twoPairs) = .ok rows) ∧
      (rows.map CompanyRow.pair).Perm [(1, "Hall, Inc.", 87, {"SixMonths", "All"})] :=
  companyRows_writeOutput wholeNumbers wholeNumbers_parse wholeNumbers_space Char.toLower
    (fun _ _ => rfl) _ twoPairs clean_twoPairs

end Bsg.Central
