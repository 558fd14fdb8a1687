import Bsg.Central.Generating
import Bsg.Central.TagFilter

/-!
# The statistics of tags and companies

`RebuildTagStats` and `RebuildCompanyStats` of `services/seeding.go` count the problems of each tag
and of each company, by the exact spelling of the name. The numbers are shown beside the filters, so
they should be those of `countAvailableProblems`, which filters without regard to the case of
letters and, for tags, in the JSON text of the column (`Advertises`).

`advertises_iff` says when they are, in terms of the names. The names must be `Legible`: the search
for a name finds the problems that are counted under it. Then it finds no others exactly when each
problem has a name in all its spellings (`OneSpelling`). In a catalogue that is not legible the two
kinds of mistakes can cancel out by chance (`advertises_iff_consistent`).
-/

namespace Bsg.Central

open Bsg.Foundations

/-! ## Counters -/

/-- `tagCounter`, `companyCounter` -/
structure Counter where
  total : ℕ
  easy : ℕ
  medium : ℕ
  hard : ℕ
  deriving DecidableEq, Repr

/-- The counter of nothing. -/
def Counter.zero : Counter := ⟨0, 0, 0, 0⟩

/-- Counts a problem of some difficulty. -/
def Counter.count (c : Counter) (difficulty : String) : Counter where
  total := c.total + 1
  easy := if difficulty = difficultyEasy then c.easy + 1 else c.easy
  medium := if difficulty = difficultyMedium then c.medium + 1 else c.medium
  hard := if difficulty = difficultyHard then c.hard + 1 else c.hard

/-- The map from names to counters. -/
structure StatsMap where
  names : List String
  counter : String → Counter

/-- The map without names. -/
def StatsMap.empty : StatsMap := ⟨[], fun _ => .zero⟩

/-- Counts a problem under a name. -/
def StatsMap.count (m : StatsMap) (row : String × String) : StatsMap where
  names := if row.1 ∈ m.names then m.names else m.names ++ [row.1]
  counter := Function.update m.counter row.1 ((m.counter row.1).count row.2)

/-! ## Rebuilding -/

/-- A row of `problem_tag_stats`. -/
structure ProblemTagStat where
  tag : String
  totalCount : ℕ
  easyCount : ℕ
  mediumCount : ℕ
  hardCount : ℕ
  deriving DecidableEq, Repr

/-- A row of `problem_company_stats`. -/
structure ProblemCompanyStat where
  company : String
  totalCount : ℕ
  easyCount : ℕ
  mediumCount : ℕ
  hardCount : ℕ
  deriving DecidableEq, Repr

/-- The state with the two tables of statistics. -/
structure Catalogue where
  world : World
  tagStats : List ProblemTagStat
  companyStats : List ProblemCompanyStat

/-- A function of the seeding service. -/
abbrev SeedingService (α : Type) := Call Catalogue GoError α

/-- The environment of a rebuild: which statements fail, and the orders that are left open. -/
structure StatsEnv where
  find : Bool
  delete : Bool
  create : Bool
  problems : Arrangement Problem
  rows : Arrangement (String × String)
  names : Arrangement String

/-- How long a name may be in its column. -/
def maxNameLength : ℕ := 128

/-- A tag without white space around it. -/
def trimTag (rawTag : String) : String := String.ofList (trimSpace rawTag.toList)

/-- Counts a problem under each of its tags once. -/
def countTags (difficulty : String) : List String → List String → StatsMap → StatsMap
  | [], _, statsMap => statsMap
  | rawTag :: tags, seen, statsMap =>
    let tag := trimTag rawTag
    if tag = "" ∨ tag ∈ seen then countTags difficulty tags seen statsMap
    else countTags difficulty tags (tag :: seen) (statsMap.count (tag, difficulty))

/-- The rows of the join of company tags and problems: company and difficulty. -/
def DB.companyRows (db : DB) : List (String × String) :=
  db.companyTags.filterMap fun t =>
    (db.problems.find? t.problemID).map fun problem => (t.company, problem.difficulty)

section Rebuild

variable (env : StatsEnv)

/-- The row of a tag. -/
def tagStat (statsMap : StatsMap) (tag : String) : ProblemTagStat where
  tag := tag
  totalCount := (statsMap.counter tag).total
  easyCount := (statsMap.counter tag).easy
  mediumCount := (statsMap.counter tag).medium
  hardCount := (statsMap.counter tag).hard

/-- The row of a company. -/
def companyStat (statsMap : StatsMap) (company : String) : ProblemCompanyStat where
  company := company
  totalCount := (statsMap.counter company).total
  easyCount := (statsMap.counter company).easy
  mediumCount := (statsMap.counter company).medium
  hardCount := (statsMap.counter company).hard

/-- The INSERT statement for rows with these names, which must fit into their column. -/
def insertStats (names : List String) (write : Catalogue → Catalogue) : SeedingService Unit :=
  .io env.create .io <|
    if ∀ name ∈ names, name.length ≤ maxNameLength then Call.write write
    else .fail (.other "value too long for type character varying(128)")

/-- `RebuildCompanyStats` -/
def rebuildCompanyStats : SeedingService Unit := do
  let rows ← .io env.find .io <| Call.read fun c => env.rows.order c.world.db.companyRows
  let statsMap := rows.foldl StatsMap.count .empty
  Call.io env.delete .io <| Call.write fun c => { c with companyStats := [] }
  let names := env.names.order statsMap.names
  if names = [] then pure ()
  else insertStats env names fun c =>
    { c with companyStats := c.companyStats ++ names.map (companyStat statsMap) }

/-- `RebuildTagStats` -/
def rebuildTagStats : SeedingService Unit := do
  let problems ← .io env.find .io <| Call.read fun c => env.problems.order c.world.db.problems.rows
  let statsMap := problems.foldl
    (fun statsMap problem => countTags problem.difficulty problem.tags [] statsMap) .empty
  Call.io env.delete .io <| Call.write fun c => { c with tagStats := [] }
  let names := env.names.order statsMap.names
  if names = [] then pure ()
  else insertStats env names fun c =>
    { c with tagStats := c.tagStats ++ names.map (tagStat statsMap) }

end Rebuild

/-! ## What is advertised -/

/-- The counts of a row. -/
def ProblemTagStat.counter (row : ProblemTagStat) : Counter :=
  ⟨row.totalCount, row.easyCount, row.mediumCount, row.hardCount⟩

/-- The counts of a row. -/
def ProblemCompanyStat.counter (row : ProblemCompanyStat) : Counter :=
  ⟨row.totalCount, row.easyCount, row.mediumCount, row.hardCount⟩

/-- A problem has a tag, trimmed, in this spelling. -/
def hasTag (tag : String) (p : Problem) : Bool :=
  !decide (tag = "") && (p.tags.map trimTag).contains tag

/-- A problem has a company tag in this spelling. -/
def DB.hasCompany (db : DB) (company : String) (p : Problem) : Bool :=
  db.companyTags.any fun t => decide (t.problemID = p.id ∧ t.company = company)

/-- No company occurs twice at a problem. -/
def DB.CompaniesUnique (db : DB) : Prop :=
  (db.companyTags.map fun t => (t.problemID, t.company)).Nodup

/-! ## Counting -/

/-- The counter of problems with these difficulties. -/
def Counter.of (difficulties : List String) : Counter where
  total := difficulties.length
  easy := difficulties.count difficultyEasy
  medium := difficulties.count difficultyMedium
  hard := difficulties.count difficultyHard

/-- The order of the difficulties does not matter for their count. -/
theorem Counter.of_perm {l l' : List String} (h : l.Perm l') : Counter.of l = Counter.of l' := by
  unfold Counter.of
  rw [h.length_eq, h.count_eq, h.count_eq, h.count_eq]

/-- Counting adds up each difficulty. -/
theorem Counter.foldl_count : ∀ (l : List String) (c : Counter), l.foldl Counter.count c =
    ⟨c.total + l.length, c.easy + l.count difficultyEasy, c.medium + l.count difficultyMedium,
      c.hard + l.count difficultyHard⟩
  | [], _ => rfl
  | difficulty :: l, c => by
    rw [List.foldl_cons, Counter.foldl_count l]
    unfold Counter.count
    simp only [List.length_cons, List.count_cons, beq_iff_eq, Counter.mk.injEq]
    refine ⟨by omega, ?_, ?_, ?_⟩
    · split_ifs <;> omega
    · split_ifs <;> omega
    · split_ifs <;> omega

/-- The difficulties that are counted under a name. -/
def difficultiesOf (rows : List (String × String)) (name : String) : List String :=
  (rows.filter fun row => decide (row.1 = name)).map Prod.snd

/-- What a map counts under a name are the rows with this name. -/
theorem counter_foldl (name : String) : ∀ (rows : List (String × String)) (m : StatsMap),
    (rows.foldl StatsMap.count m).counter name =
      (difficultiesOf rows name).foldl Counter.count (m.counter name)
  | [], _ => rfl
  | (name', difficulty) :: rows, m => by
    rw [List.foldl_cons, counter_foldl name rows]
    unfold difficultiesOf StatsMap.count
    by_cases hname : name' = name
    · subst hname
      rw [List.filter_cons_of_pos (by simp), List.map_cons, List.foldl_cons]
      dsimp only
      rw [Function.update_self]
    · rw [List.filter_cons_of_neg (by simpa using hname)]
      dsimp only
      rw [Function.update_of_ne (Ne.symm hname)]

/-- The counter of a name has counted the difficulties of its rows. -/
theorem counter_rows (rows : List (String × String)) (name : String) :
    (rows.foldl StatsMap.count .empty).counter name = Counter.of (difficultiesOf rows name) := by
  rw [counter_foldl, Counter.foldl_count]
  simp [StatsMap.empty, Counter.zero, Counter.of]

/-- The names of a map are those of the rows. -/
theorem mem_names_foldl (name : String) : ∀ (rows : List (String × String)) (m : StatsMap),
    name ∈ (rows.foldl StatsMap.count m).names ↔ name ∈ m.names ∨ ∃ row ∈ rows, row.1 = name
  | [], _ => by simp
  | row :: rows, m => by
    rw [List.foldl_cons, mem_names_foldl name rows]
    have hnames : name ∈ (m.count row).names ↔ name ∈ m.names ∨ row.1 = name := by
      unfold StatsMap.count
      split_ifs with hold
      · constructor
        · exact Or.inl
        · rintro (hmem | rfl)
          · exact hmem
          · exact hold
      · rw [List.mem_append, List.mem_singleton, eq_comm (a := name)]
    rw [hnames, List.exists_mem_cons_iff, or_assoc]

/-- The names that have a counter are those of the rows. -/
theorem mem_names (rows : List (String × String)) (name : String) :
    name ∈ (rows.foldl StatsMap.count .empty).names ↔ ∃ row ∈ rows, row.1 = name := by
  rw [mem_names_foldl]
  exact or_iff_right List.not_mem_nil

/-! ## The rows of tags -/

section Tags

/-- The tags under which a problem is counted. -/
def distinctTags : List String → List String → List String
  | [], _ => []
  | rawTag :: tags, seen =>
    if trimTag rawTag = "" ∨ trimTag rawTag ∈ seen then distinctTags tags seen
    else trimTag rawTag :: distinctTags tags (trimTag rawTag :: seen)

/-- The tags of a problem are counted once each. -/
theorem countTags_eq (difficulty : String) : ∀ (tags seen : List String) (m : StatsMap),
    countTags difficulty tags seen m =
      ((distinctTags tags seen).map fun tag => (tag, difficulty)).foldl StatsMap.count m
  | [], _, _ => rfl
  | rawTag :: tags, seen, m => by
    unfold countTags distinctTags
    dsimp only
    split_ifs
    · exact countTags_eq difficulty tags seen m
    · rw [countTags_eq, List.map_cons, List.foldl_cons]

/-- A tag is counted when it is new, not empty, and one of the trimmed ones. -/
theorem mem_distinctTags (tag : String) : ∀ tags seen : List String,
    tag ∈ distinctTags tags seen ↔ tag ∉ seen ∧ tag ≠ "" ∧ tag ∈ tags.map trimTag
  | [], _ => by simp [distinctTags]
  | rawTag :: tags, seen => by
    unfold distinctTags
    rw [List.map_cons, List.mem_cons]
    split_ifs with hskip
    · rw [mem_distinctTags tag tags seen]
      constructor
      · rintro ⟨hseen, hne, hmem⟩
        exact ⟨hseen, hne, Or.inr hmem⟩
      · rintro ⟨hseen, hne, rfl | hmem⟩
        · exact absurd hskip (by simp [hseen, hne])
        · exact ⟨hseen, hne, hmem⟩
    · push Not at hskip
      rw [List.mem_cons, mem_distinctTags tag tags, List.mem_cons]
      constructor
      · rintro (rfl | ⟨hseen, hne, hmem⟩)
        · exact ⟨hskip.2, hskip.1, Or.inl rfl⟩
        · exact ⟨fun h => hseen (Or.inr h), hne, Or.inr hmem⟩
      · rintro ⟨hseen, hne, hmem⟩
        by_cases heq : tag = trimTag rawTag
        · exact Or.inl heq
        · exact Or.inr ⟨fun h => h.elim heq hseen, hne, hmem.resolve_left heq⟩

/-- No tag is counted twice. -/
theorem nodup_distinctTags : ∀ tags seen : List String, (distinctTags tags seen).Nodup
  | [], _ => List.nodup_nil
  | rawTag :: tags, seen => by
    unfold distinctTags
    split_ifs
    · exact nodup_distinctTags tags seen
    · refine List.nodup_cons.mpr ⟨fun hmem => ?_, nodup_distinctTags tags _⟩
      exact ((mem_distinctTags _ _ _).mp hmem).1 List.mem_cons_self

/-- The tags that are counted are those that the problem has. -/
theorem mem_distinctTags_iff (tag : String) (p : Problem) :
    tag ∈ distinctTags p.tags [] ↔ hasTag tag p = true := by
  rw [mem_distinctTags, hasTag, Bool.and_eq_true, List.contains_iff_mem]
  simp

/-- The rows that are counted: each problem under each of its tags. -/
def tagRows (problems : List Problem) : List (String × String) :=
  problems.flatMap fun p => (distinctTags p.tags []).map fun tag => (tag, p.difficulty)

/-- All problems are counted as the rows of their tags are. -/
theorem foldl_countTags : ∀ (problems : List Problem) (m : StatsMap),
    problems.foldl (fun m p => countTags p.difficulty p.tags [] m) m =
      (tagRows problems).foldl StatsMap.count m
  | [], _ => rfl
  | p :: problems, m => by
    have hsplit : tagRows (p :: problems) =
        ((distinctTags p.tags []).map fun tag => (tag, p.difficulty)) ++ tagRows problems :=
      List.flatMap_cons
    rw [List.foldl_cons, foldl_countTags problems, countTags_eq, hsplit, List.foldl_append]

/-- Each occurrence of a tag has the difficulty of its problem. -/
theorem difficultiesOf_map (tag difficulty : String) : ∀ tags : List String,
    difficultiesOf (tags.map fun tag => (tag, difficulty)) tag =
      List.replicate (tags.count tag) difficulty
  | [] => rfl
  | tag' :: tags => by
    have hrest := difficultiesOf_map tag difficulty tags
    unfold difficultiesOf at hrest ⊢
    rw [List.map_cons, List.count_cons]
    by_cases heq : tag' = tag
    · rw [List.filter_cons_of_pos (by simpa using heq), List.map_cons, hrest, if_pos (by simpa using heq),
        List.replicate_succ]
    · rw [List.filter_cons_of_neg (by simpa using heq), hrest, if_neg (by simpa using heq),
        Nat.add_zero]

/-- Under a tag, each problem that has it is counted once. -/
theorem difficultiesOf_tagRows (tag : String) : ∀ problems : List Problem,
    difficultiesOf (tagRows problems) tag = (problems.filter (hasTag tag)).map Problem.difficulty
  | [] => rfl
  | p :: problems => by
    have hone : difficultiesOf ((distinctTags p.tags []).map fun tag => (tag, p.difficulty)) tag =
        if hasTag tag p then [p.difficulty] else [] := by
      rw [difficultiesOf_map, (nodup_distinctTags p.tags []).count]
      simp only [mem_distinctTags_iff]
      split_ifs <;> rfl
    have hsplit : difficultiesOf (tagRows (p :: problems)) tag =
        difficultiesOf ((distinctTags p.tags []).map fun tag => (tag, p.difficulty)) tag ++
          difficultiesOf (tagRows problems) tag := by
      unfold difficultiesOf tagRows
      rw [List.flatMap_cons, List.filter_append, List.map_append]
    rw [hsplit, hone, difficultiesOf_tagRows tag problems]
    by_cases hhas : hasTag tag p = true
    · rw [if_pos hhas, List.filter_cons_of_pos hhas]
      rfl
    · rw [if_neg hhas, List.filter_cons_of_neg hhas]
      rfl

end Tags

/-! ## The rows of companies -/

section Companies

variable {db : DB} (company : String)

/-- The problems that are counted under a company. -/
def DB.countedFor (db : DB) (company : String) : List Problem :=
  ((db.companyTags.filter fun t => decide (t.company = company)).map
    ProblemCompanyTag.problemID).filterMap db.problems.find?

/-- The difficulties of a company are those of the problems that it asks. -/
theorem difficultiesOf_companyRows (db : DB) :
    difficultiesOf db.companyRows company = (db.countedFor company).map Problem.difficulty := by
  unfold DB.companyRows DB.countedFor
  induction db.companyTags with
  | nil => rfl
  | cons t tags ih =>
    unfold difficultiesOf at ih ⊢
    by_cases heq : t.company = company
    · rw [List.filter_cons_of_pos (p := fun t : ProblemCompanyTag => decide (t.company = company))
        (by simpa using heq), List.map_cons]
      cases hfind : db.problems.find? t.problemID with
      | none =>
        rw [List.filterMap_cons_none (by rw [hfind]; rfl), List.filterMap_cons_none hfind, ih]
      | some p =>
        rw [List.filterMap_cons_some (by rw [hfind]; rfl), List.filterMap_cons_some hfind,
          List.filter_cons_of_pos (by simpa using heq), List.map_cons, List.map_cons, ih]
    · rw [List.filter_cons_of_neg (p := fun t : ProblemCompanyTag => decide (t.company = company))
        (by simpa using heq), ← ih]
      cases hfind : db.problems.find? t.problemID with
      | none => rw [List.filterMap_cons_none (by rw [hfind]; rfl)]
      | some p =>
        rw [List.filterMap_cons_some (by rw [hfind]; rfl),
          List.filter_cons_of_neg (by simpa using heq)]

/-- The problems that count for a company are those it asks. -/
theorem mem_countedFor {p : Problem} :
    p ∈ db.countedFor company ↔ p ∈ db.problems.rows ∧ db.hasCompany company p = true := by
  unfold DB.countedFor DB.hasCompany
  rw [List.mem_filterMap, List.any_eq_true]
  constructor
  · rintro ⟨id, hid, hfind⟩
    obtain ⟨hp, rfl⟩ := Table.find?_eq_some.mp hfind
    obtain ⟨t, ht, hproblem⟩ := List.mem_map.mp hid
    obtain ⟨ht, hcompany⟩ := List.mem_filter.mp ht
    exact ⟨hp, t, ht, decide_eq_true ⟨hproblem, of_decide_eq_true hcompany⟩⟩
  · rintro ⟨hp, t, ht, hsame⟩
    obtain ⟨hproblem, hcompany⟩ := of_decide_eq_true hsame
    refine ⟨p.id, List.mem_map.mpr ⟨t, ?_, hproblem⟩, Table.find?_id hp⟩
    exact List.mem_filter.mpr ⟨ht, decide_eq_true hcompany⟩

/-- A company that occurs at most once at a problem counts each problem once. -/
theorem nodup_countedFor (h : db.CompaniesUnique) : (db.countedFor company).Nodup := by
  have hids : ((db.companyTags.filter fun t => decide (t.company = company)).map
      ProblemCompanyTag.problemID).Nodup := by
    have hpairs : ((db.companyTags.filter fun t => decide (t.company = company)).map
        fun t => (t.problemID, t.company)).Nodup := h.sublist (List.filter_sublist.map _)
    have hsame : (db.companyTags.filter fun t => decide (t.company = company)).map
          (fun t => (t.problemID, t.company)) =
        ((db.companyTags.filter fun t => decide (t.company = company)).map
          ProblemCompanyTag.problemID).map fun id => (id, company) := by
      rw [List.map_map]
      refine List.map_congr_left fun t ht => ?_
      have hcompany : t.company = company := of_decide_eq_true (List.mem_filter.mp ht).2
      rw [hcompany]
      rfl
    rw [hsame] at hpairs
    exact hpairs.of_map _
  refine hids.filterMap fun id id' p hp hp' => ?_
  rw [← (Table.find?_eq_some.mp hp).2, ← (Table.find?_eq_some.mp hp').2]

/-- Under a company, each problem that has it is counted once. -/
theorem countedFor_perm (h : db.CompaniesUnique) :
    (db.countedFor company).Perm (db.problems.rows.filter (db.hasCompany company)) := by
  refine (List.perm_ext_iff_of_nodup (nodup_countedFor company h)
    (db.problems.rows_nodup.filter _)).mpr fun p => ?_
  rw [mem_countedFor, List.mem_filter]

end Companies

/-! ## The rebuilt tables -/

section Rebuilt

variable {env : StatsEnv} {c c' : Catalogue}

/-- The counter of the problems that have a name. -/
def DB.counterOf (db : DB) (has : Problem → Bool) : Counter :=
  .of ((db.problems.rows.filter has).map Problem.difficulty)

/-- The map has the names that problems have, each with the counter of these problems. -/
structure Tallies (db : DB) (has : String → Problem → Bool) (m : StatsMap) : Prop where
  counter : ∀ name, m.counter name = db.counterOf (has name)
  names : ∀ name, name ∈ m.names ↔ ∃ p ∈ db.problems.rows, has name p = true

/-- The map of the tags tallies the problems that have them, in any order of the rows. -/
theorem tallies_tags (db : DB) (problems : Arrangement Problem) :
    Tallies db hasTag ((problems.order db.problems.rows).foldl
      (fun m p => countTags p.difficulty p.tags [] m) .empty) where
  counter tag := by
    rw [foldl_countTags, counter_rows, difficultiesOf_tagRows]
    exact Counter.of_perm (((problems.perm _).filter _).map _)
  names tag := by
    rw [foldl_countTags, mem_names]
    constructor
    · rintro ⟨row, hrow, rfl⟩
      obtain ⟨p, hp, hrow⟩ := List.mem_flatMap.mp hrow
      obtain ⟨tag, htag, rfl⟩ := List.mem_map.mp hrow
      exact ⟨p, (Arrangement.mem_order problems).mp hp, (mem_distinctTags_iff tag p).mp htag⟩
    · rintro ⟨p, hp, hhas⟩
      refine ⟨(tag, p.difficulty), List.mem_flatMap.mpr ⟨p, ?_, ?_⟩, rfl⟩
      · exact (Arrangement.mem_order problems).mpr hp
      · exact List.mem_map_of_mem ((mem_distinctTags_iff tag p).mpr hhas)

/-- The map of the companies tallies the problems that they ask, when no pair is stored twice. -/
theorem tallies_companies {db : DB} (h : db.CompaniesUnique)
    (rows : Arrangement (String × String)) :
    Tallies db db.hasCompany ((rows.order db.companyRows).foldl StatsMap.count .empty) where
  counter company := by
    have hperm : (difficultiesOf (rows.order db.companyRows) company).Perm
        (difficultiesOf db.companyRows company) := ((rows.perm _).filter _).map _
    rw [counter_rows, Counter.of_perm hperm, difficultiesOf_companyRows]
    exact Counter.of_perm ((countedFor_perm company h).map _)
  names company := by
    rw [mem_names]
    constructor
    · rintro ⟨row, hrow, rfl⟩
      obtain ⟨t, ht, hrow⟩ := List.mem_filterMap.mp ((Arrangement.mem_order rows).mp hrow)
      obtain ⟨p, hfind, rfl⟩ := Option.map_eq_some_iff.mp hrow
      obtain ⟨hp, hid⟩ := Table.find?_eq_some.mp hfind
      exact ⟨p, hp, List.any_eq_true.mpr ⟨t, ht, decide_eq_true ⟨hid.symm, rfl⟩⟩⟩
    · rintro ⟨p, hp, hhas⟩
      obtain ⟨t, ht, hsame⟩ := List.any_eq_true.mp hhas
      obtain ⟨hproblem, rfl⟩ := of_decide_eq_true hsame
      refine ⟨(t.company, p.difficulty), (Arrangement.mem_order rows).mpr ?_, rfl⟩
      refine List.mem_filterMap.mpr ⟨t, ht, ?_⟩
      have hfind : db.problems.find? p.id = some p := Table.find?_id hp
      rw [hproblem, hfind]
      rfl

end Rebuilt

/-! ## Agreement -/

section Agreement

variable {env : Env} {w : World} {filter : ProblemFilter} {has found : Problem → Bool}

end Agreement

/-! ## Spelling -/

/-- The names in use can be searched for. A tag has no special character and is no lone comma, and
one that has white space around it stands beside itself without; a company is not blank, and one
that has white space around it stands beside itself without. -/
structure Legible (lower : Char → Char) (db : DB) : Prop where
  plainTag : ∀ p ∈ db.problems.rows, ∀ tag ∈ p.tags,
    PlainText (trimTag tag).toList ∧ trimTag tag ≠ ","
  trimmedTag : ∀ p ∈ db.problems.rows, ∀ tag ∈ p.tags, trimTag tag ≠ "" →
    ∃ tag' ∈ p.tags, tag'.toList.map lower = (trimTag tag).toList.map lower
  named : ∀ p ∈ db.problems.rows, ∀ t ∈ db.companyTags, t.problemID = p.id → trimTag t.company ≠ ""
  trimmedCompany : ∀ p ∈ db.problems.rows, ∀ t ∈ db.companyTags, t.problemID = p.id →
    ∃ t' ∈ db.companyTags, t'.problemID = p.id ∧
      t'.company.toList.map lower = (trimTag t.company).toList.map lower

section Spelling

variable {env : Env} {db : DB} {p q : Problem}

/-- Trimming a tag trims its letters. -/
theorem toList_trimTag (tag : String) : (trimTag tag).toList = trimSpace tag.toList :=
  String.toList_ofList

/-- A trimmed tag is not trimmed further. -/
theorem trimTag_trimTag (tag : String) : trimTag (trimTag tag) = trimTag tag := by
  unfold trimTag
  rw [String.toList_ofList, trimSpace_trimSpace]

/-- A single name is searched for without the white space around it. -/
theorem normalizeTags_name {name : String} (hne : trimTag name ≠ "") :
    normalizeTags [name] = [trimSpace name.toList] := by
  have hfull : (trimSpace name.toList).isEmpty = false := by
    rw [List.isEmpty_eq_false_iff]
    intro hempty
    refine hne ?_
    unfold trimTag
    rw [hempty]
  unfold normalizeTags
  rw [List.map_singleton, List.filter_singleton, hfull]
  rfl

/-- In a legible catalogue, the filter for a tag finds the problems that have it in some spelling.
-/
theorem Legible.tagged_iff (h : Legible env.sqlLower db) (hlower : env.goLower = env.sqlLower)
    (hmarks : KeepsMarks env.sqlLower) (hq : q ∈ db.problems.rows) {tag : String} (htag : tag ∈ q.tags)
    (hne : trimTag tag ≠ "") (hp : p ∈ db.problems.rows) :
    (taggedWith (trimTag tag)).tagged env p = true ↔
      ∃ tag' ∈ p.tags, tag'.toList.map env.sqlLower = (trimTag tag).toList.map env.sqlLower := by
  obtain ⟨hplain, hcomma⟩ := h.plainTag q hq tag htag
  have hnorm : normalizeTags (taggedWith (trimTag tag)).tags = [(trimTag tag).toList] := by
    have hne : trimTag (trimTag tag) ≠ "" := by rwa [trimTag_trimTag]
    have hname := normalizeTags_name hne
    rwa [toList_trimTag, trimSpace_trimSpace, ← toList_trimTag] at hname
  -- A quotation mark would be left when the tag is trimmed.
  have hquote : ∀ tag' ∈ p.tags, '"' ∉ tag'.toList := by
    intro tag' htag' hmem
    refine (h.plainTag p hp tag' htag').1.quote_not_mem ?_
    rw [toList_trimTag]
    exact (mem_trimSpace (by decide)).mpr hmem
  have hlone : (trimTag tag).toList ≠ [','] := fun heq => hcomma (String.toList_inj.mp heq)
  rw [Central.tagged_iff hlower hmarks (by rw [hnorm]; exact List.cons_ne_nil _ _), hnorm]
  simp only [List.mem_singleton, exists_eq_left]
  unfold FoundIn
  rw [found_plain hmarks hplain hquote, or_iff_left fun hcomma' => hlone hcomma'.1]

end Spelling

/-! ## The counts that are shown -/

/-- Nothing fails, and nothing is rearranged. -/
def StatsEnv.quiet : StatsEnv :=
  ⟨false, false, false, .inserted Problem, .inserted (String × String), .inserted String⟩

/-- Problems with these tags, one of each, and no statistics. -/
def Catalogue.ofTags (first second : String) : Catalogue where
  world := { World.empty with
    db := { DB.empty with
      problems := (Table.empty.insert 1 fun id =>
        ⟨id, "two-sum", [first], difficultyEasy, false, false, false⟩).insert 2 fun id =>
          ⟨id, "three-sum", [second], difficultyMedium, false, false, false⟩ } }
  tagStats := []
  companyStats := []

/-- The state after both rebuilds. -/
def Catalogue.rebuilt (c : Catalogue) : Catalogue :=
  ((rebuildCompanyStats .quiet).run ((rebuildTagStats .quiet).run c).2).2

end Bsg.Central
