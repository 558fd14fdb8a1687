import Bsg.Central.CompanyCsv
import Bsg.Foundations.Run
import Bsg.Foundations.Search

/-!
# Seeding the problems

`SeedProblems` of `services/seeding.go` reads the file of problems and writes each record over the
problem with its slug, or adds one. `SeedProblemList` marks the problems whose addresses a file
lists.

A problem is known by its slug, so what a state stores is what `Named.lookup` finds, and a record
that is written changes what is found for its slug only (`lookup_write`). It is refused when another
problem has its name. A file of which no record is refused is stored completely
(`seedProblems_stores`), and a list marks the problems on it and no others
(`seedProblemList_marks`).
-/

namespace Bsg.Central

open Bsg.Foundations

/-! ## Reading -/

/-- What a record of the file says about a problem. -/
structure ProblemRecord where
  name : String
  slug : String
  tags : List String
  difficulty : String
  isPaid : Bool
  deriving DecidableEq, Repr

/-- The columns of a file of problems. -/
structure ProblemColumns where
  title : ℕ
  slug : ℕ
  tags : Option ℕ
  difficulty : Option ℕ
  paid : Option ℕ
  deriving DecidableEq, Repr

section Read

variable (lower : Char → Char)

/-- The columns by their names; two of them are required. -/
def problemColumns (header : Csv.Record) : Except GoError ProblemColumns :=
  match columnIndex lower header "title" with
  | none => .error (.other "csv missing required column: Title")
  | some title =>
    match columnIndex lower header "slug" with
    | none => .error (.other "csv missing required column: Slug")
    | some slug =>
      .ok ⟨title, slug, columnIndex lower header "tags", columnIndex lower header "difficulty",
        columnIndex lower header "paid only"⟩

/-- The field in a column that may be missing. -/
def optionalField (column : Option ℕ) (record : Csv.Record) : List Char :=
  (column.bind fun i => record[i]?).getD []

/-- The difficulty that a text stands for. -/
def parseDifficulty (difficultyStr : List Char) : String :=
  if difficultyStr.map lower = "easy".toList then difficultyEasy
  else if difficultyStr.map lower = "medium".toList then difficultyMedium
  else if difficultyStr.map lower = "hard".toList then difficultyHard
  else difficultyMedium

/-- The tags of a field, trimmed and without empty ones. -/
def parseTags (tagsStr : List Char) : List String :=
  (((tagsStr.splitOn ',').map trimSpace).filter fun tag => !tag.isEmpty).map String.ofList

/-- What a record says, unless it is too short. -/
def problemRecord (columns : ProblemColumns) (record : Csv.Record) : Option ProblemRecord :=
  if record.length ≤ max columns.title columns.slug then none
  else some {
    name := String.ofList (record.getD columns.title [])
    slug := String.ofList (record.getD columns.slug [])
    tags := parseTags (optionalField columns.tags record)
    difficulty := parseDifficulty lower (optionalField columns.difficulty record)
    isPaid := decide ((trimSpace (optionalField columns.paid record)).map lower = "true".toList) }

/-- The records that can be read. -/
def problemRecords (columns : ProblemColumns) (results : List (Except Csv.CsvError Csv.Record)) :
    List ProblemRecord :=
  results.filterMap fun result => match result with
    | .ok record => problemRecord lower columns record
    | .error _ => none

/-- What `SeedProblems` reads from a file. -/
def readProblems (text : List Char) : Except GoError (List ProblemRecord) := do
  let (header, results) ← readHeader text
  let columns ← problemColumns lower header
  pure (problemRecords lower columns results)

end Read

/-! ## Writing -/

/-- The state with the column of names, by the ids of problems. -/
structure Named where
  catalogue : Catalogue
  name : ℕ → String

/-- The row of a new problem. -/
def ProblemRecord.row (record : ProblemRecord) (id : ℕ) : Problem :=
  ⟨id, record.slug, record.tags, record.difficulty, record.isPaid, false, false⟩

/-- The columns that are assigned on a conflict, but for the name. -/
def ProblemRecord.assign (record : ProblemRecord) (p : Problem) : Problem :=
  { p with tags := record.tags, difficulty := record.difficulty, isPaid := record.isPaid }

/-- A new row has the key that it is given. -/
theorem ProblemRecord.id_row (record : ProblemRecord) (id : ℕ) : Row.id (record.row id) = id := rfl

/-- A row that is overwritten keeps its key. -/
theorem ProblemRecord.id_assign (record : ProblemRecord) (p : Problem) :
    Row.id (record.assign p) = Row.id p := rfl

/-- The texts can be stored. -/
def ProblemRecord.Storable (record : ProblemRecord) : Prop :=
  '\x00' ∉ record.name.toList ∧ '\x00' ∉ record.slug.toList

instance ProblemRecord.decidableStorable (record : ProblemRecord) : Decidable record.Storable :=
  inferInstanceAs (Decidable (_ ∧ _))

/-- The state with other problems. -/
def Catalogue.withProblems (c : Catalogue) (problems : Table Problem) : Catalogue :=
  { c with world := { c.world with db := { c.world.db with problems := problems } } }

namespace Named

/-- The table of problems. -/
def problems (s : Named) : Table Problem := s.catalogue.world.db.problems

/-- The problem with a slug, and its name. -/
def lookup (s : Named) (slug : String) : Option (Problem × String) :=
  (s.problems.rows.find? fun p => decide (p.slug = slug)).map fun p => (p, s.name p.id)

/-- Another problem has the name of a record. -/
def NameTaken (s : Named) (record : ProblemRecord) : Prop :=
  ∃ p ∈ s.problems.rows, p.slug ≠ record.slug ∧ s.name p.id = record.name

instance (s : Named) (record : ProblemRecord) : Decidable (s.NameTaken record) :=
  inferInstanceAs (Decidable (∃ p ∈ s.problems.rows, _))

/-- Writes a record over the problem with its slug, or adds one. -/
def write (s : Named) (id : ℕ) (record : ProblemRecord) : Named :=
  match s.problems.rows.find? fun p => decide (p.slug = record.slug) with
  | some p =>
    ⟨s.catalogue.withProblems (s.problems.modify p.id record.assign record.id_assign),
      Function.update s.name p.id record.name⟩
  | none =>
    ⟨s.catalogue.withProblems (s.problems.insert id record.row record.id_row),
      Function.update s.name (s.problems.fresh id) record.name⟩

end Named

/-- The environment of a seeding: which operations fail, the keys that the sequence offers, and the
orders that are left open. -/
structure SeedEnv where
  openFile : Bool
  create : ℕ → Bool
  update : Bool
  ids : ℕ → ℕ
  stats : StatsEnv

/-- Runs a part of the service; its errors are wrapped. -/
def rebuildingTags (x : SeedingService Unit) : Call Named GoError Unit where
  run s := match x.run s.catalogue with
    | (.ok a, c) => (.ok a, { s with catalogue := c })
    | (.err _, c) => (.err (.other "failed rebuilding tag stats"), { s with catalogue := c })
    | (.panic, c) => (.panic, { s with catalogue := c })

/-- INSERT with ON CONFLICT DO UPDATE on the slug; names are unique as well. -/
def upsertProblem (id : ℕ) (record : ProblemRecord) : Call Named GoError Unit := do
  let refused ← Call.read fun s => decide (s.NameTaken record ∨ ¬ record.Storable)
  if refused then .fail (.other "duplicate key value violates unique constraint")
  else Call.write fun s => s.write id record

section Seed

variable (env : SeedEnv)

/-- Writes a record; a failure is only logged. -/
def seedProblem (record : ProblemRecord × ℕ) : Call Named GoError Unit := do
  let _ ← (Call.io (env.create record.2) .io (upsertProblem (env.ids record.2) record.1)).attempt
  pure ()

/-- `SeedProblems` for a file with this text. -/
def seedProblems (lower : Char → Char) (text : List Char) : Call Named GoError Unit :=
  .io env.openFile (.other "failed to open csv file") <|
    match readProblems lower text with
    | .error e => .fail e
    | .ok records => do
      Call.forEach records.zipIdx (seedProblem env)
      rebuildingTags (rebuildTagStats env.stats)

end Seed

/-! ## Lists of problems -/

/-- A curated list: the boolean column of `problems` that `SeedProblemList` is given. -/
inductive ProblemList
  | blind75
  | neetCode150
  deriving DecidableEq, Repr

/-- The column of a list. -/
def ProblemList.has : ProblemList → Problem → Bool
  | .blind75 => Problem.isBlind75
  | .neetCode150 => Problem.isNeetCode150

/-- The problem with the column set. -/
def ProblemList.mark : ProblemList → Problem → Problem
  | .blind75, p => { p with isBlind75 := true }
  | .neetCode150, p => { p with isNeetCode150 := true }

/-- `strings.TrimSuffix` -/
def trimSuffix (text suffix : List Char) : List Char :=
  if suffix.isSuffixOf text then text.take (text.length - suffix.length) else text

/-- `slugFromLeetCodeURL`; `slugFromLink` of `cmd/fetch-company-problems` is the same. -/
def slugFromLeetCodeURL (link : List Char) : List Char :=
  let link := trimSuffix (trimSpace link) ['/']
  match Search.index link "/problems/".toList with
  | none => []
  | some idx =>
    (link.drop (idx + "/problems/".toList.length)).takeWhile fun c => !(c = '/' || c = '?')

/-- The slugs of the records that can be read. -/
def listSlugs (urlIndex : ℕ) (results : List (Except Csv.CsvError Csv.Record)) : List String :=
  (results.filterMap fun result => match result with
    | .ok record => record[urlIndex]?.map slugFromLeetCodeURL
    | .error _ => none).filterMap fun slug =>
      if slug = [] then none else some (String.ofList slug)

/-- What `SeedProblemList` reads from a file. -/
def readSlugs (lower : Char → Char) (text : List Char) : Except GoError (List String) := do
  let (header, results) ← readHeader text
  match columnIndex lower header "leetcode url" with
  | none => .error (.other "csv missing required column: LeetCode URL")
  | some urlIndex =>
    if listSlugs urlIndex results = [] then .error (.other "no slugs parsed")
    else pure (listSlugs urlIndex results)

/-- The state with the problems on a list marked. -/
def Named.mark (s : Named) (list : ProblemList) (slugs : List String) : Named where
  catalogue := s.catalogue.withProblems <|
    s.problems.update (fun p => slugs.contains p.slug) list.mark (by intro p; cases list <;> rfl)
  name := s.name

/-- `SeedProblemList` for a file with this text. -/
def seedProblemList (env : SeedEnv) (lower : Char → Char) (list : ProblemList) (text : List Char) :
    Call Named GoError Unit :=
  .io env.openFile (.other "failed to open csv file") <|
    match readSlugs lower text with
    | .error e => .fail e
    | .ok slugs =>
      .io env.update (.other "failed to mark problems") <|
        if ∀ slug ∈ slugs, '\x00' ∉ slug.toList then Call.write fun s => s.mark list slugs
        else .fail (.other "failed to mark problems")

/-! ## One record -/

section Write

variable {s : Named} {id : ℕ} {record : ProblemRecord} {slug : String}

/-- What is found is a row of the table, with the slug and its name. -/
theorem lookup_eq_some {p : Problem} {name : String} (h : s.lookup slug = some (p, name)) :
    p ∈ s.problems.rows ∧ p.slug = slug ∧ s.name p.id = name := by
  obtain ⟨q, hq, heq⟩ := Option.map_eq_some_iff.mp h
  obtain ⟨rfl, rfl⟩ := Prod.mk.inj heq
  exact ⟨List.mem_of_find?_eq_some hq, by simpa using List.find?_some hq, rfl⟩

/-- Nothing is found exactly when no row has the slug. -/
theorem lookup_eq_none : s.lookup slug = none ↔ ∀ p ∈ s.problems.rows, p.slug ≠ slug := by
  unfold Named.lookup
  rw [Option.map_eq_none_iff, List.find?_eq_none]
  simp only [decide_eq_true_eq, ne_eq]

/-- What is found for the slug of a record once it is written. -/
def ProblemRecord.over (record : ProblemRecord) (id : ℕ) : Option (Problem × String) → Problem × String
  | some (p, _) => (record.assign p, record.name)
  | none => (record.row id, record.name)

/-- A record that is written changes what is found for its slug, and nothing else. -/
theorem lookup_write : (s.write id record).lookup slug =
    if slug = record.slug then some (record.over (s.problems.fresh id) (s.lookup slug))
    else s.lookup slug := by
  unfold Named.write
  split
  · -- The slug is stored: its row is overwritten, under the same key.
    rename_i p hp
    have hmem : p ∈ s.problems.rows := List.mem_of_find?_eq_some hp
    have hslug : p.slug = record.slug := by simpa using List.find?_some hp
    have hfind : ∀ slug, (s.problems.modify p.id record.assign record.id_assign).rows.find?
        (fun q => decide (q.slug = slug)) =
          (s.problems.rows.find? fun q => decide (q.slug = slug)).map fun q =>
            if q.id = p.id then record.assign q else q := by
      intro slug
      rw [Table.rows_modify, List.find?_map]
      refine congrArg (Option.map _) (congrArg (fun c => List.find? c s.problems.rows) ?_)
      funext q
      rw [Function.comp_apply]
      split <;> rfl
    show ((s.problems.modify p.id record.assign record.id_assign).rows.find? _).map _ = _
    rw [hfind]
    by_cases h : slug = record.slug
    · subst h
      rw [if_pos rfl]
      unfold Named.lookup
      rw [hp, Option.map_some, Option.map_some, Option.map_some, if_pos rfl]
      show some (record.assign p, Function.update s.name p.id record.name p.id) = _
      rw [Function.update_self]
      rfl
    · rw [if_neg h]
      unfold Named.lookup
      cases hq : s.problems.rows.find? fun q => decide (q.slug = slug) with
      | none => rfl
      | some q =>
        have hqslug : q.slug = slug := by simpa using List.find?_some hq
        have hne : q.id ≠ p.id := by
          intro hid
          have hqp : q = p := Table.eq_of_id_eq (List.mem_of_find?_eq_some hq) hmem hid
          exact h (by rw [← hqslug, hqp, hslug])
        rw [Option.map_some, Option.map_some, Option.map_some, if_neg hne]
        show some (q, Function.update s.name p.id record.name q.id) = _
        rw [Function.update_of_ne hne]
  · -- The slug is new: a row is added, under a key that no other row has.
    rename_i hnone
    show ((s.problems.rows ++ [record.row (s.problems.fresh id)]).find? _).map _ = _
    rw [List.find?_append]
    by_cases h : slug = record.slug
    · subst h
      rw [if_pos rfl]
      unfold Named.lookup
      rw [hnone, Option.none_or, List.find?_cons_of_pos (by simp [ProblemRecord.row])]
      show some (record.row (s.problems.fresh id), Function.update s.name (s.problems.fresh id)
        record.name (s.problems.fresh id)) = _
      rw [Function.update_self]
      rfl
    · rw [if_neg h, List.find?_cons_of_neg fun htrue => h (of_decide_eq_true htrue).symm,
        List.find?_nil, Option.or_none]
      unfold Named.lookup
      cases hq : s.problems.rows.find? fun q => decide (q.slug = slug) with
      | none => rfl
      | some q =>
        have hne : q.id ≠ s.problems.fresh id := fun hid =>
          s.problems.fresh_not_mem id (hid ▸ List.mem_map_of_mem (List.mem_of_find?_eq_some hq))
        rw [Option.map_some, Option.map_some]
        show some (q, Function.update s.name (s.problems.fresh id) record.name q.id) = _
        rw [Function.update_of_ne hne]

/-- The problem of a record is stored, as the record says. -/
def Named.Has (s : Named) (record : ProblemRecord) : Prop :=
  ∃ p, s.lookup record.slug = some (p, record.name) ∧ record.assign p = p

/-- What is written is stored. -/
theorem has_write : (s.write id record).Has record := by
  unfold Named.Has
  rw [lookup_write, if_pos rfl]
  cases s.lookup record.slug with
  | none => exact ⟨_, rfl, rfl⟩
  | some found => exact ⟨_, rfl, rfl⟩

/-- Writing what is stored changes nothing. -/
theorem write_of_has (h : s.Has record) : s.write id record = s := by
  obtain ⟨p, hlookup, hassign⟩ := h
  obtain ⟨q, hq, heq⟩ := Option.map_eq_some_iff.mp hlookup
  obtain ⟨rfl, hname⟩ := Prod.mk.inj heq
  have hmodify : s.problems.modify q.id record.assign record.id_assign = s.problems := by
    refine Table.modify_eq_self fun r hr hid => ?_
    rw [Table.eq_of_id_eq hr (List.mem_of_find?_eq_some hq) hid, hassign]
  unfold Named.write
  rw [hq]
  dsimp only
  rw [hmodify, ← hname, Function.update_eq_self]
  rfl

/-- The rows after a record is written: the row of the record, and rows that were there. -/
theorem mem_write {p : Problem} (h : p ∈ (s.write id record).problems.rows) :
    (p.slug = record.slug ∧ (s.write id record).name p.id = record.name) ∨
      (p ∈ s.problems.rows ∧ (s.write id record).name p.id = s.name p.id) := by
  unfold Named.write at h ⊢
  split at h
  · rename_i q hq
    have hslug : q.slug = record.slug := by simpa using List.find?_some hq
    obtain ⟨r, hr, rfl⟩ := List.mem_map.mp h
    by_cases hid : Row.id r = q.id
    · rw [if_pos hid]
      obtain rfl := Table.eq_of_id_eq hr (List.mem_of_find?_eq_some hq) hid
      exact Or.inl ⟨hslug, Function.update_self _ _ _⟩
    · rw [if_neg hid]
      exact Or.inr ⟨hr, Function.update_of_ne hid _ _⟩
  · rcases List.mem_append.mp h with hr | hr
    · refine Or.inr ⟨hr, Function.update_of_ne (fun hid => ?_) _ _⟩
      exact s.problems.fresh_not_mem id (hid ▸ List.mem_map_of_mem hr)
    · obtain rfl := List.mem_singleton.mp hr
      exact Or.inl ⟨rfl, Function.update_self _ _ _⟩

/-- The slugs after a record is written. -/
theorem slugs_write : (s.write id record).problems.rows.map Problem.slug =
    if record.slug ∈ s.problems.rows.map Problem.slug then s.problems.rows.map Problem.slug
    else s.problems.rows.map Problem.slug ++ [record.slug] := by
  unfold Named.write
  split
  · rename_i p hp
    have hslug : p.slug = record.slug := by simpa using List.find?_some hp
    rw [if_pos (hslug ▸ List.mem_map_of_mem (List.mem_of_find?_eq_some hp))]
    show ((s.problems.modify p.id record.assign record.id_assign).rows).map Problem.slug = _
    rw [Table.rows_modify, List.map_map]
    refine List.map_congr_left fun q _ => ?_
    rw [Function.comp_apply]
    split <;> rfl
  · rename_i hnone
    rw [if_neg fun hmem => ?_]
    · exact List.map_append
    · obtain ⟨p, hp, hslug⟩ := List.mem_map.mp hmem
      simpa [hslug] using List.find?_eq_none.mp hnone p hp

/-- Slugs and names are unique. -/
structure Named.Unique (s : Named) : Prop where
  slugs : (s.problems.rows.map Problem.slug).Nodup
  names : ∀ p ∈ s.problems.rows, ∀ q ∈ s.problems.rows, s.name p.id = s.name q.id → p = q

/-- A record whose name is not taken leaves them unique. -/
theorem Named.Unique.write (h : s.Unique) (hfree : ¬ s.NameTaken record) :
    (s.write id record).Unique := by
  have hslugs : ((s.write id record).problems.rows.map Problem.slug).Nodup := by
    rw [slugs_write]
    split_ifs with hold
    · exact h.slugs
    · exact List.nodup_append_comm.mp (List.nodup_cons.mpr ⟨hold, h.slugs⟩)
  refine ⟨hslugs, fun p hp q hq hname => ?_⟩
  -- Rows with the same slug are the same, so two rows with one name would have two slugs.
  by_contra hne
  have hslug : p.slug ≠ q.slug := fun hslug => hne (List.inj_on_of_nodup_map hslugs hp hq hslug)
  rcases mem_write hp with ⟨hpslug, hpname⟩ | ⟨hpold, hpname⟩ <;>
    rcases mem_write hq with ⟨hqslug, hqname⟩ | ⟨hqold, hqname⟩
  · exact hslug (hpslug.trans hqslug.symm)
  · refine hfree ⟨q, hqold, fun heq => hslug (hpslug.trans heq.symm), ?_⟩
    rw [← hqname, ← hname, hpname]
  · refine hfree ⟨p, hpold, fun heq => hslug (heq.trans hqslug.symm), ?_⟩
    rw [← hpname, hname, hqname]
  · rw [hpname, hqname] at hname
    exact hne (h.names p hpold q hqold hname)

end Write

/-! ## A file of problems -/

section File

/-- A record of a file is written, unless the statement fails or is refused. -/
def seedStep (env : SeedEnv) (s : Named) (e : ProblemRecord × ℕ) : Named :=
  if env.create e.2 = true ∨ s.NameTaken e.1 ∨ ¬ e.1.Storable then s
  else s.write (env.ids e.2) e.1

/-- A record is never an error. -/
theorem seedProblem_run (env : SeedEnv) (e : ProblemRecord × ℕ) (s : Named) :
    (seedProblem env e).run s = (.ok (), seedStep env s e) := by
  unfold seedProblem seedStep
  cases hcreate : env.create e.2 with
  | true =>
    rw [if_pos (Or.inl rfl), Call.io_true, Call.attempt_err (Call.run_fail _ _)]
    rfl
  | false =>
    rw [Call.io_false]
    -- The statement is refused for a name that is taken, or a value that does not fit.
    have hrun : (upsertProblem (env.ids e.2) e.1).run s =
        if s.NameTaken e.1 ∨ ¬ e.1.Storable then
          (.err (.other "duplicate key value violates unique constraint"), s)
        else (.ok (), s.write (env.ids e.2) e.1) := by
      unfold upsertProblem
      rw [Call.run_read_bind]
      by_cases h : s.NameTaken e.1 ∨ ¬ e.1.Storable
      · rw [if_pos (decide_eq_true h), if_pos h]
        rfl
      · rw [if_neg fun htrue => h (of_decide_eq_true htrue), if_neg h]
        rfl
    simp only [Bool.false_eq_true, false_or]
    by_cases h : s.NameTaken e.1 ∨ ¬ e.1.Storable
    · rw [if_pos h] at hrun ⊢
      rw [Call.attempt_err hrun]
      rfl
    · rw [if_neg h] at hrun ⊢
      rw [Call.attempt_ok hrun]
      rfl

/-- The problems keep their keys, their slugs and their marks, and new ones are not marked. -/
structure Carries (s s' : Named) : Prop where
  kept : ∀ p ∈ s.problems.rows, ∃ p' ∈ s'.problems.rows,
    p'.id = p.id ∧ p'.slug = p.slug ∧ ∀ list : ProblemList, list.has p' = list.has p
  new : ∀ p' ∈ s'.problems.rows, (∀ p ∈ s.problems.rows, p.id ≠ p'.id) →
    ∀ list : ProblemList, list.has p' = false

/-- Nothing happened. -/
theorem Carries.refl (s : Named) : Carries s s where
  kept p hp := ⟨p, hp, rfl, rfl, fun _ => rfl⟩
  new p hp hnone := absurd rfl (hnone p hp)

/-- What two steps carry on, both together carry on. -/
theorem Carries.trans (s t u : Named) (h : Carries s t) (h' : Carries t u) : Carries s u where
  kept p hp := by
    obtain ⟨p', hp', hid, hslug, hmarks⟩ := h.kept p hp
    obtain ⟨p'', hp'', hid', hslug', hmarks'⟩ := h'.kept p' hp'
    exact ⟨p'', hp'', hid'.trans hid, hslug'.trans hslug, fun list => (hmarks' list).trans (hmarks list)⟩
  new p hp hnone list := by
    by_cases hold : ∃ q ∈ t.problems.rows, q.id = p.id
    · obtain ⟨q, hq, hid⟩ := hold
      obtain ⟨r, hr, hrid, -, hmarks⟩ := h'.kept q hq
      obtain rfl : r = p := Table.eq_of_id_eq hr hp (hrid.trans hid)
      rw [hmarks]
      exact h.new q hq (fun q' hq' heq => hnone q' hq' (heq.trans hid)) list
    · exact h'.new p hp (fun q hq hid => hold ⟨q, hq, hid⟩) list

/-- Overwriting a problem leaves its marks. -/
theorem ProblemList.has_assign (list : ProblemList) (record : ProblemRecord) (p : Problem) :
    list.has (record.assign p) = list.has p := by cases list <;> rfl

/-- Writing a record carries all problems on. -/
theorem carries_write (s : Named) (id : ℕ) (record : ProblemRecord) :
    Carries s (s.write id record) := by
  unfold Named.write
  split
  · rename_i q hq
    constructor
    · intro p hp
      refine ⟨_, List.mem_map_of_mem hp, ?_⟩
      split
      · exact ⟨rfl, rfl, fun list => list.has_assign record p⟩
      · exact ⟨rfl, rfl, fun _ => rfl⟩
    · intro p' hp' hnone
      obtain ⟨p, hp, rfl⟩ := List.mem_map.mp hp'
      refine absurd ?_ (hnone p hp)
      split <;> rfl
  · constructor
    · exact fun p hp => ⟨p, List.mem_append_left _ hp, rfl, rfl, fun _ => rfl⟩
    · intro p' hp' hnone list
      rcases List.mem_append.mp hp' with hold | hnew
      · exact absurd rfl (hnone p' hold)
      · obtain rfl := List.mem_singleton.mp hnew
        cases list <;> rfl

variable {env : SeedEnv}

/-- So does a record that may be refused. -/
theorem carries_seedStep (s : Named) (e : ProblemRecord × ℕ) : Carries s (seedStep env s e) := by
  unfold seedStep
  split
  · exact Carries.refl s
  · exact carries_write s _ _

/-- No record makes two problems of one slug or one name. -/
theorem unique_seedStep (env : SeedEnv) {s : Named} (h : s.Unique) (e : ProblemRecord × ℕ) :
    (seedStep env s e).Unique := by
  unfold seedStep
  split
  · exact h
  · rename_i hnot
    exact h.write fun htaken => hnot (Or.inr (Or.inl htaken))

/-- A record does not touch what is found for other slugs. -/
theorem lookup_seedStep {s : Named} {e : ProblemRecord × ℕ} {slug : String}
    (h : slug ≠ e.1.slug) : (seedStep env s e).lookup slug = s.lookup slug := by
  unfold seedStep
  split
  · rfl
  · rw [lookup_write, if_neg h]

/-- Any number of records carries all problems on. -/
theorem carries_run : ∀ (es : List (ProblemRecord × ℕ)) (s : Named), Carries s (run (seedStep env) s es)
  | [], s => Carries.refl s
  | e :: es, s => Carries.trans _ _ _ (carries_seedStep s e) (carries_run es _)

/-- Records with other slugs do not change what a slug finds. -/
theorem lookup_run {slug : String} : ∀ {es : List (ProblemRecord × ℕ)} {s : Named},
    (∀ e ∈ es, slug ≠ e.1.slug) → (run (seedStep env) s es).lookup slug = s.lookup slug
  | [], _, _ => rfl
  | e :: es, s, h => by
    rw [run_cons, lookup_run fun e' he' => h e' (List.mem_cons_of_mem e he'),
      lookup_seedStep (h e List.mem_cons_self)]

/-- What a state has does not depend on other slugs. -/
theorem Named.Has.congr {s s' : Named} {record : ProblemRecord}
    (h : s'.lookup record.slug = s.lookup record.slug) : s'.Has record ↔ s.Has record := by
  unfold Named.Has
  rw [h]

/-- A state with a record has no other problem of this name. -/
theorem Named.Unique.not_taken {s : Named} {record : ProblemRecord} (h : s.Unique)
    (hhas : s.Has record) : ¬ s.NameTaken record := by
  rintro ⟨q, hq, hslug, hname⟩
  obtain ⟨p, hlookup, -⟩ := hhas
  obtain ⟨hp, hpslug, hpname⟩ := lookup_eq_some hlookup
  obtain rfl := h.names p hp q hq (hpname.trans hname.symm)
  exact hslug hpslug

/-- When no statement fails, all records are stored exactly when none of them meets another problem
with its name. -/
theorem has_run_iff (hcreate : ∀ i, env.create i = false) :
    ∀ {es : List (ProblemRecord × ℕ)} {s : Named}, s.Unique →
      (es.map fun e => e.1.slug).Nodup → (∀ e ∈ es, e.1.Storable) →
      ((∀ e ∈ es, (run (seedStep env) s es).Has e.1) ↔
        Along (seedStep env) (fun s e => ¬ s.NameTaken e.1) s es)
  | [], _, _, _, _ => by simp
  | e :: es, s, hunique, hnodup, hstorable => by
    rw [List.map_cons, List.nodup_cons] at hnodup
    have hothers : ∀ e' ∈ es, e.1.slug ≠ e'.1.slug := fun e' he' hslug =>
      hnodup.1 (List.mem_map.mpr ⟨e', he', hslug.symm⟩)
    have ih := has_run_iff hcreate (unique_seedStep env hunique e) hnodup.2
      fun e' he' => hstorable e' (List.mem_cons_of_mem e he')
    -- No later record has the slug, so what is found under it was decided at its turn.
    have hhead : (run (seedStep env) (seedStep env s e) es).Has e.1 ↔ ¬ s.NameTaken e.1 := by
      rw [Named.Has.congr (lookup_run hothers)]
      by_cases htaken : s.NameTaken e.1
      · have hstay : seedStep env s e = s := if_pos (Or.inr (Or.inl htaken))
        rw [hstay]
        exact ⟨hunique.not_taken, fun hfree => absurd htaken hfree⟩
      · have hwrite : seedStep env s e = s.write (env.ids e.2) e.1 := by
          refine if_neg ?_
          rintro (hfails | hbad | hbad)
          · rw [hcreate] at hfails
            cases hfails
          · exact htaken hbad
          · exact hbad (hstorable e List.mem_cons_self)
        rw [hwrite]
        exact iff_of_true has_write htaken
    rw [run_cons, along_cons, List.forall_mem_cons, hhead, ih]

/-- Where the problems and their names are. -/
def Named.shelf (s : Named) : World × (ℕ → String) := (s.catalogue.world, s.name)

/-- Statistics are all that `RebuildTagStats` changes. -/
theorem keeps_rebuildTagStats (env : StatsEnv) : Call.Keeps Catalogue.world (rebuildTagStats env) := by
  unfold rebuildTagStats
  refine Call.Keeps.bind (Call.Keeps.io _ _ (Call.Keeps.read _)) fun problems => ?_
  refine Call.Keeps.bind (Call.Keeps.io _ _ (Call.Keeps.write fun _ => rfl)) fun _ => ?_
  refine Call.Keeps.ite _ (Call.Keeps.pure _) ?_
  unfold insertStats
  exact Call.Keeps.io _ _ (Call.Keeps.ite _ (Call.Keeps.write fun _ => rfl) (Call.Keeps.fail _))

/-- Wrapping the errors of a rebuild does not change what it does. -/
theorem state_rebuildingTags (x : SeedingService Unit) (s : Named) :
    ((rebuildingTags x).run s).2 = ⟨(x.run s.catalogue).2, s.name⟩ := by
  unfold rebuildingTags
  dsimp only
  cases x.run s.catalogue with
  | mk o c => cases o <;> rfl

/-- The problems are not touched by a rebuild. -/
theorem keeps_rebuildingTags {x : SeedingService Unit} (hx : Call.Keeps Catalogue.world x) :
    Call.Keeps Named.shelf (rebuildingTags x) := by
  intro s
  show ((rebuildingTags x).run s).2.shelf = s.shelf
  rw [state_rebuildingTags]
  exact Prod.ext (hx s.catalogue) rfl

/-- The problems after a seeding, whatever fails. -/
theorem shelf_seedProblems {lower : Char → Char} {text : List Char} {records : List ProblemRecord}
    (hopen : env.openFile = false) (hread : readProblems lower text = .ok records) (s : Named) :
    ((seedProblems env lower text).run s).2.shelf =
      (run (seedStep env) s records.zipIdx).shelf := by
  unfold seedProblems
  rw [hopen, Call.io_false, hread]
  dsimp only
  have hrecords : (Call.forEach records.zipIdx (seedProblem env)).run s =
      (.ok (), run (seedStep env) s records.zipIdx) :=
    Call.forEach_run (fun e _ t => seedProblem_run env e t) s
  rw [Call.bind_ok hrecords]
  exact keeps_rebuildingTags (keeps_rebuildTagStats env.stats) _

end File

/-- The records are stored: each has its problem, the others are as they were, and the problems that
were there keep their keys and their marks. -/
structure StoresRecords (records : List ProblemRecord) (s s' : Named) : Prop where
  has : ∀ record ∈ records, s'.Has record
  others : ∀ slug, slug ∉ records.map ProblemRecord.slug → s'.lookup slug = s.lookup slug
  carries : Carries s s'

section Shelf

variable {s s' t : Named}

/-- What a slug finds does not depend on the statistics. -/
theorem lookup_of_shelf (h : s'.shelf = s.shelf) : s'.lookup = s.lookup := by
  have hworld : s'.catalogue.world = s.catalogue.world := congrArg Prod.fst h
  have hname : s'.name = s.name := congrArg Prod.snd h
  unfold Named.lookup Named.problems
  rw [hworld, hname]

/-- The problems do not depend on the statistics. -/
theorem problems_of_shelf (h : s'.shelf = s.shelf) : s'.problems = s.problems :=
  congrArg (fun w : World => w.db.problems) (congrArg Prod.fst h)

/-- What is stored of the records does not depend on the statistics. -/
theorem StoresRecords.of_shelf {records : List ProblemRecord} (hshelf : s'.shelf = t.shelf)
    (h : StoresRecords records s t) : StoresRecords records s s' where
  has record hrecord :=
    (Named.Has.congr (congrFun (lookup_of_shelf hshelf) record.slug)).mpr (h.has record hrecord)
  others slug hslug := (congrFun (lookup_of_shelf hshelf) slug).trans (h.others slug hslug)
  carries := by
    have hcarries := h.carries
    constructor
    · rw [problems_of_shelf hshelf]
      exact hcarries.kept
    · rw [problems_of_shelf hshelf]
      exact hcarries.new

end Shelf

/-- No operation fails. -/
structure SeedEnv.Quiet (env : SeedEnv) : Prop where
  openFile : env.openFile = false
  create : ∀ i, env.create i = false
  update : env.update = false

/-- The field of a record in the column of addresses. -/
def Listed (urlIndex : ℕ) (results : List (Except Csv.CsvError Csv.Record)) (link : List Char) :
    Prop :=
  ∃ record, .ok record ∈ results ∧ record[urlIndex]? = some link

/-- The slugs of a list are the names in its addresses. -/
theorem mem_listSlugs {urlIndex : ℕ} {results : List (Except Csv.CsvError Csv.Record)}
    {slug : String} : slug ∈ listSlugs urlIndex results ↔
      slug.toList ≠ [] ∧ ∃ link, Listed urlIndex results link ∧ slugFromLeetCodeURL link = slug.toList := by
  unfold listSlugs Listed
  simp only [List.mem_filterMap]
  constructor
  · rintro ⟨cs, ⟨result, hresult, hcs⟩, hslug⟩
    split at hcs
    · rename_i record
      obtain ⟨link, hlink, rfl⟩ := Option.map_eq_some_iff.mp hcs
      split at hslug
      · cases hslug
      · rename_i hne
        obtain rfl := Option.some.inj hslug
        rw [String.toList_ofList]
        exact ⟨hne, link, ⟨record, hresult, hlink⟩, rfl⟩
    · cases hcs
  · rintro ⟨hne, link, ⟨record, hrecord, hlink⟩, hslug⟩
    refine ⟨slug.toList, ⟨.ok record, hrecord, ?_⟩, ?_⟩
    · change record[urlIndex]?.map slugFromLeetCodeURL = _
      rw [hlink, Option.map_some, hslug]
    · rw [if_neg hne, String.ofList_toList]

/-- A list that can be read marks the problems with its slugs. -/
theorem seedProblemList_marks {env : SeedEnv} (henv : env.Quiet) {lower : Char → Char}
    {text : List Char} {slugs : List String} (hread : readSlugs lower text = .ok slugs)
    (hstorable : ∀ slug ∈ slugs, '\x00' ∉ slug.toList) (list : ProblemList) (s : Named) :
    (seedProblemList env lower list text).run s = (.ok (), s.mark list slugs) := by
  unfold seedProblemList
  rw [henv.openFile, Call.io_false, hread]
  dsimp only
  rw [henv.update, Call.io_false, if_pos hstorable]
  rfl

/-- A file in which no slug repeats is stored completely exactly when no record, at its turn, meets
another problem with its name. -/
theorem seedProblems_stores (env : SeedEnv) (henv : env.Quiet) (lower : Char → Char)
    (text : List Char) (records : List ProblemRecord)
    (hread : readProblems lower text = .ok records)
    (hslugs : (records.map ProblemRecord.slug).Nodup)
    (hstorable : ∀ record ∈ records, record.Storable) (s : Named) (hunique : s.Unique) :
    StoresRecords records s ((seedProblems env lower text).run s).2 ↔
      Along (seedStep env) (fun s e => ¬ s.NameTaken e.1) s records.zipIdx := by
  -- The rebuild of the statistics that follows does not matter for what is stored.
  have hshelf := shelf_seedProblems henv.openFile hread s
  have hfst : records.zipIdx.map Prod.fst = records := List.zipIdx_map_fst 0 records
  have hmem : ∀ e ∈ records.zipIdx, e.1 ∈ records := fun e he =>
    hfst ▸ List.mem_map_of_mem he
  have hnodup : (records.zipIdx.map fun e => e.1.slug).Nodup := by
    rw [show (records.zipIdx.map fun e => e.1.slug) =
      (records.zipIdx.map Prod.fst).map ProblemRecord.slug from (List.map_map).symm, hfst]
    exact hslugs
  have hiff := has_run_iff henv.create hunique hnodup fun e he => hstorable e.1 (hmem e he)
  rw [← hiff]
  constructor
  · intro hstores e he
    have hhas := hstores.has e.1 (hmem e he)
    exact (Named.Has.congr (congrFun (lookup_of_shelf hshelf) e.1.slug)).mp hhas
  · intro hall
    refine StoresRecords.of_shelf hshelf ⟨fun record hrecord => ?_, fun slug hslug => ?_, carries_run _ s⟩
    · rw [← hfst] at hrecord
      obtain ⟨e, he, rfl⟩ := List.mem_map.mp hrecord
      exact hall e he
    · refine lookup_run fun e he heq => hslug ?_
      rw [heq]
      exact List.mem_map_of_mem (hmem e he)

/-- Nothing fails, and the sequence is not asked for particular keys. -/
def SeedEnv.quiet : SeedEnv := ⟨false, fun _ => false, false, fun _ => 0, .quiet⟩

/-- In the quiet environment nothing fails. -/
theorem SeedEnv.quiet_quiet : SeedEnv.quiet.Quiet := ⟨rfl, fun _ => rfl, rfl⟩

/-- Two problems with their names. -/
def Named.twoProblems : Named :=
  ⟨.ofTags "Array" "String", fun id => if id = 1 then "Two Sum" else "3Sum"⟩

/-- The two problems have two slugs and two names. -/
theorem Named.twoProblems_unique : Named.twoProblems.Unique := by
  constructor
  · decide +kernel
  · decide +kernel

/-- A file with a problem that is there under another name, and a new one. -/
def newName : List Char :=
  "Title,Slug,Difficulty,Tags\nSum of Two,two-sum,EASY,Array\nTwo Sum II,two-sum-ii,,\n".toList

/-- The records of the file. -/
def newNameRecords : List ProblemRecord :=
  [⟨"Sum of Two", "two-sum", ["Array"], difficultyEasy, false⟩,
    ⟨"Two Sum II", "two-sum-ii", [], difficultyMedium, false⟩]

/-- No problem has one of the names. -/
theorem seedProblems_newName :
    StoresRecords newNameRecords .twoProblems
      ((seedProblems .quiet Char.toLower newName).run .twoProblems).2 :=
  (seedProblems_stores .quiet SeedEnv.quiet_quiet Char.toLower newName newNameRecords
    (by decide +kernel) (by decide +kernel) (by decide +kernel) .twoProblems
    Named.twoProblems_unique).mpr ⟨by decide +kernel, by decide +kernel, trivial⟩

end Bsg.Central
