import Bsg.Central.CompanySeeding
import Bsg.Central.Integrity
import Bsg.Central.Listing
import Bsg.Central.ProblemSeeding

/-!
# Starting the service

`main` of central-service seeds the database each time it starts: the problems, from the first of
four paths that works, then the companies, and then the two lists. Rooms and rounds may be there
already, and their problem sets refer to problems by keys.

Whatever the files say and whatever fails, a start keeps the keys, the slugs and the marks of the
problems, and touches no other table than those it seeds (`upkeep_startUp`). So the references stay
intact through any number of starts (`catalogue_along`). Where the files are stored already, a start
changes nothing at all, but for the statistics (`startUp_stocked`).
-/

namespace Bsg.Central

open Bsg.Foundations

/-! ## Model -/

/-- The state that a start seeds. -/
structure Installation (F : Type) where
  catalogue : Catalogue
  name : ℕ → String
  frequency : ℕ × String → F

/-- The environment of a start: that of the attempts with each path. -/
structure StartEnv where
  problems : String → SeedEnv
  companies : String → CompanyEnv

section StartUp

variable {F : Type}

/-- The part that `SeedProblems` and `SeedProblemList` work on. -/
def Installation.named (s : Installation F) : Named := ⟨s.catalogue, s.name⟩

/-- The part that `SeedCompanyProblems` works on. -/
def Installation.seeded (s : Installation F) : Seeded F := ⟨s.catalogue, s.frequency⟩

/-- Runs a seeding of problems. -/
def onNamed (x : Call Named GoError Unit) : Call (Installation F) GoError Unit where
  run s :=
    let (o, t) := x.run s.named
    (o, ⟨t.catalogue, t.name, s.frequency⟩)

/-- Runs a seeding of companies. -/
def onSeeded (x : Call (Seeded F) GoError Unit) : Call (Installation F) GoError Unit where
  run s :=
    let (o, t) := x.run s.seeded
    (o, ⟨t.catalogue, s.name, t.frequency⟩)

/-- A seeding from the file at a path, when there is one. -/
def seedFrom (files : String → Option (List Char)) (path : String)
    (seed : List Char → Call (Installation F) GoError Unit) : Call (Installation F) GoError Unit :=
  match files path with
  | none => .fail (.other "failed to open csv file")
  | some text => seed text

/-- The paths of the files of problems, in the order in which they are tried. -/
def problemPaths : List String :=
  ["../seed-service/leetcode_problems.csv", "seed-service/leetcode_problems.csv",
    "../seed-service/problems_data.csv", "seed-service/problems_data.csv"]

/-- The paths of the file of companies. -/
def companyPaths : List String :=
  ["../seed-service/company_problems.csv", "seed-service/company_problems.csv"]

/-- The paths of the file of a list. -/
def ProblemList.paths : ProblemList → List String
  | .blind75 => ["../seed-service/blind_75.csv", "seed-service/blind_75.csv"]
  | .neetCode150 => ["../seed-service/neetcode_150.csv", "seed-service/neetcode_150.csv"]

/-- Tries the paths in order, until one works; that none works is only logged. -/
def tryPaths (seed : String → Call (Installation F) GoError Unit) :
    List String → Call (Installation F) GoError Unit
  | [] => pure ()
  | path :: paths => (seed path).orElse (tryPaths seed paths)

variable (env : StartEnv) (num : FloatFormat F) (lower : Char → Char)
  (files : String → Option (List Char))

/-- The seeding in `main`. -/
def startUp : Call (Installation F) GoError Unit := do
  tryPaths (fun path => seedFrom files path fun text =>
    onNamed (seedProblems (env.problems path) lower text)) problemPaths
  tryPaths (fun path => seedFrom files path fun text =>
    onSeeded (seedCompanyProblems (env.companies path) num lower text)) companyPaths
  tryPaths (fun path => seedFrom files path fun text =>
    onNamed (seedProblemList (env.problems path) lower .blind75 text)) ProblemList.blind75.paths
  tryPaths (fun path => seedFrom files path fun text =>
    onNamed (seedProblemList (env.problems path) lower .neetCode150 text))
      ProblemList.neetCode150.paths

end StartUp

/-! ## What a start keeps -/

/-- Every problem keeps its key and its slug, and its marks are not taken away. -/
def KeepsProblems (t t' : Table Problem) : Prop :=
  ∀ p ∈ t.rows, ∃ p' ∈ t'.rows, p'.id = p.id ∧ p'.slug = p.slug ∧
    ∀ list : ProblemList, list.has p = true → list.has p' = true

/-- A table keeps its own problems. -/
theorem KeepsProblems.refl (t : Table Problem) : KeepsProblems t t :=
  fun p hp => ⟨p, hp, rfl, rfl, fun _ h => h⟩

/-- What two changes of the table keep, both together keep. -/
theorem KeepsProblems.trans {t₁ t₂ t₃ : Table Problem} (h : KeepsProblems t₁ t₂)
    (h' : KeepsProblems t₂ t₃) : KeepsProblems t₁ t₃ := by
  intro p hp
  obtain ⟨p', hp', hid, hslug, hmarks⟩ := h p hp
  obtain ⟨p'', hp'', hid', hslug', hmarks'⟩ := h' p' hp'
  exact ⟨p'', hp'', hid'.trans hid, hslug'.trans hslug, fun list hhas =>
    hmarks' list (hmarks list hhas)⟩

/-- No company occurs twice at a problem, and each company tag belongs to a problem. -/
structure DB.TagsBelong (db : DB) : Prop where
  unique : db.CompaniesUnique
  belong : ∀ t ∈ db.companyTags, ∃ p ∈ db.problems.rows, p.id = t.problemID

/-- The state without what a start seeds. -/
def World.unseeded (w : World) : World :=
  w.withDB { w.db with problems := .empty, companyTags := [] }

/-- What a start does to the state: the problems keep keys, slugs and marks, what was unique and
what belonged together is so still, and the rest is untouched. -/
structure Upkeep {F : Type} (s s' : Installation F) : Prop where
  problems : KeepsProblems s.catalogue.world.db.problems s'.catalogue.world.db.problems
  unseeded : s'.catalogue.world.unseeded = s.catalogue.world.unseeded
  unique : s.named.Unique → s'.named.Unique
  tags : s.catalogue.world.db.TagsBelong → s'.catalogue.world.db.TagsBelong

section Relation

variable {F : Type}

/-- Nothing happened. -/
theorem Upkeep.refl (s : Installation F) : Upkeep s s := ⟨.refl _, rfl, id, id⟩

/-- One upkeep after another is an upkeep. -/
theorem Upkeep.trans (s t u : Installation F) (h : Upkeep s t) (h' : Upkeep t u) : Upkeep s u where
  problems := h.problems.trans h'.problems
  unseeded := h'.unseeded.trans h.unseeded
  unique hs := h'.unique (h.unique hs)
  tags hs := h'.tags (h.tags hs)

end Relation

/-! ## Problems and lists -/

/-- What a seeding of problems does to its part of the state. -/
structure NamedUpkeep (s s' : Named) : Prop where
  problems : KeepsProblems s.problems s'.problems
  world : s'.catalogue.world = (s.catalogue.withProblems s'.problems).world
  unique : s.Unique → s'.Unique

/-- Nothing happened. -/
theorem NamedUpkeep.refl (s : Named) : NamedUpkeep s s := ⟨.refl _, rfl, id⟩

/-- One upkeep after another is an upkeep. -/
theorem NamedUpkeep.trans (s t u : Named) (h : NamedUpkeep s t) (h' : NamedUpkeep t u) :
    NamedUpkeep s u where
  problems := h.problems.trans h'.problems
  world := by
    rw [h'.world]
    unfold Catalogue.withProblems
    rw [h.world]
    rfl
  unique hs := h'.unique (h.unique hs)

/-- Uniqueness is a property of the problems and their names. -/
theorem Named.Unique.of_problems {s s' : Named} (hproblems : s'.problems = s.problems)
    (hname : s'.name = s.name) (h : s.Unique) : s'.Unique := by
  constructor
  · rw [hproblems]
    exact h.slugs
  · rw [hproblems, hname]
    exact h.names

/-- Rebuilding statistics is an upkeep. -/
theorem NamedUpkeep.of_shelf {s s' : Named} (hshelf : s'.shelf = s.shelf) : NamedUpkeep s s' where
  problems := by
    rw [problems_of_shelf hshelf]
    exact .refl _
  world := by
    rw [problems_of_shelf hshelf]
    exact congrArg Prod.fst hshelf
  unique := Named.Unique.of_problems (problems_of_shelf hshelf) (congrArg Prod.snd hshelf)

/-- Seeding problems never drops a problem, its slug or its marks. -/
theorem keepsProblems_of_carries {s s' : Named} (h : Carries s s') :
    KeepsProblems s.problems s'.problems := by
  intro p hp
  obtain ⟨p', hp', hid, hslug, hmarks⟩ := h.kept p hp
  exact ⟨p', hp', hid, hslug, fun list hhas => (hmarks list).trans hhas⟩

/-- A record that is stored, or refused, is an upkeep. -/
theorem namedUpkeep_seedStep (env : SeedEnv) (s : Named) (e : ProblemRecord × ℕ) :
    NamedUpkeep s (seedStep env s e) where
  problems := keepsProblems_of_carries (carries_seedStep s e)
  world := by
    unfold seedStep Named.write
    split
    · rfl
    · split <;> rfl
  unique h := unique_seedStep env h e

/-- `SeedProblems` is an upkeep, wherever it stops. -/
theorem namedUpkeep_seedProblems (env : SeedEnv) (lower : Char → Char) (text : List Char) :
    Call.Within NamedUpkeep (seedProblems env lower text) := by
  refine Call.Within.io NamedUpkeep.refl _ _ ?_
  cases readProblems lower text with
  | error e => exact Call.Within.fail NamedUpkeep.refl _
  | ok records =>
    refine Call.Within.bind NamedUpkeep.trans (Call.Within.forEach NamedUpkeep.refl
      NamedUpkeep.trans fun e _ s => ?_) fun _ s => ?_
    · rw [seedProblem_run]
      exact namedUpkeep_seedStep env s e
    · exact .of_shelf (keeps_rebuildingTags (keeps_rebuildTagStats env.stats) s)

/-- A mark is set where it was or where the slug is on the list. -/
theorem ProblemList.has_mark (list list' : ProblemList) (p : Problem) :
    list'.has (list.mark p) = (decide (list' = list) || list'.has p) := by
  cases list <;> cases list' <;> rfl

/-- Marking a problem leaves its slug. -/
theorem ProblemList.mark_slug (list : ProblemList) (p : Problem) : (list.mark p).slug = p.slug := by
  cases list <;> rfl

/-- Marking a problem leaves its key. -/
theorem ProblemList.mark_id (list : ProblemList) (p : Problem) : (list.mark p).id = p.id := by
  cases list <;> rfl

/-- Marking the problems of a list is an upkeep: marks are only added. -/
theorem namedUpkeep_mark (s : Named) (list : ProblemList) (slugs : List String) :
    NamedUpkeep s (s.mark list slugs) := by
  -- A mark changes neither the key of a problem nor its slug.
  have hid : ∀ p : Problem, (if slugs.contains p.slug then list.mark p else p).id = p.id := by
    intro p
    split
    · exact list.mark_id p
    · rfl
  have hslug : ∀ p : Problem, (if slugs.contains p.slug then list.mark p else p).slug = p.slug := by
    intro p
    split
    · exact list.mark_slug p
    · rfl
  constructor
  case problems =>
    intro p hp
    refine ⟨_, List.mem_map_of_mem hp, hid p, hslug p, fun list' hhas => ?_⟩
    split
    · rw [list.has_mark, hhas, Bool.or_true]
    · exact hhas
  case world => rfl
  case unique =>
    intro h
    have hslugs : (s.mark list slugs).problems.rows.map Problem.slug =
        s.problems.rows.map Problem.slug := by
      show (s.problems.rows.map _).map Problem.slug = _
      rw [List.map_map]
      exact List.map_congr_left fun p _ => hslug p
    refine ⟨hslugs ▸ h.slugs, fun p hp q hq hname => ?_⟩
    obtain ⟨p₀, hp₀, rfl⟩ := List.mem_map.mp hp
    obtain ⟨q₀, hq₀, rfl⟩ := List.mem_map.mp hq
    rw [hid, hid] at hname
    rw [h.names p₀ hp₀ q₀ hq₀ hname]

/-- `SeedProblemList` is an upkeep, wherever it stops. -/
theorem namedUpkeep_seedProblemList (env : SeedEnv) (lower : Char → Char) (list : ProblemList)
    (text : List Char) : Call.Within NamedUpkeep (seedProblemList env lower list text) := by
  refine Call.Within.io NamedUpkeep.refl _ _ ?_
  cases readSlugs lower text with
  | error e => exact Call.Within.fail NamedUpkeep.refl _
  | ok slugs =>
    exact Call.Within.io NamedUpkeep.refl _ _ (Call.Within.ite _
      (Call.Within.write fun s => namedUpkeep_mark s list slugs) (Call.Within.fail NamedUpkeep.refl _))

/-- Tags that belonged to problems still do. -/
theorem DB.TagsBelong.of_problems {db db' : DB} (h : db.TagsBelong)
    (hproblems : KeepsProblems db.problems db'.problems) (htags : db'.companyTags = db.companyTags) :
    db'.TagsBelong where
  unique := by
    unfold DB.CompaniesUnique
    rw [htags]
    exact h.unique
  belong t ht := by
    rw [htags] at ht
    obtain ⟨p, hp, hid⟩ := h.belong t ht
    obtain ⟨p', hp', hid', -⟩ := hproblems p hp
    exact ⟨p', hp', hid'.trans hid⟩

section OnNamed

variable {F : Type}

/-- An upkeep of the problems is one of the installation. -/
theorem upkeep_onNamed {x : Call Named GoError Unit} (hx : Call.Within NamedUpkeep x) :
    Call.Within (Upkeep (F := F)) (onNamed x) := by
  intro s
  have h := hx s.named
  show Upkeep s ⟨(x.run s.named).2.catalogue, (x.run s.named).2.name, s.frequency⟩
  generalize (x.run s.named).2 = t at h
  refine ⟨h.problems, ?_, h.unique, fun htags => ?_⟩
  · show t.catalogue.world.unseeded = _
    rw [h.world]
    rfl
  · refine htags.of_problems h.problems ?_
    show t.catalogue.world.db.companyTags = _
    rw [h.world]
    rfl

end OnNamed

/-! ## Companies -/

section Companies

variable {F : Type} {ids : List ℕ}

/-- What a seeding of companies does to its part of the state, when its rows are about these
problems. -/
structure TagsUpkeep (ids : List ℕ) (s s' : Seeded F) : Prop where
  world : s'.catalogue.world = (s.catalogue.withCompanyTags s'.db.companyTags).world
  unique : s.db.CompaniesUnique → s'.db.CompaniesUnique
  belong : ∀ t ∈ s'.db.companyTags,
    t.problemID ∈ ids ∨ ∃ t' ∈ s.db.companyTags, t'.problemID = t.problemID

/-- Nothing happened. -/
theorem TagsUpkeep.refl (s : Seeded F) : TagsUpkeep ids s s :=
  ⟨rfl, id, fun t ht => Or.inr ⟨t, ht, rfl⟩⟩

/-- One upkeep of the tags after another is one. -/
theorem TagsUpkeep.trans (s t u : Seeded F) (h : TagsUpkeep ids s t) (h' : TagsUpkeep ids t u) :
    TagsUpkeep ids s u where
  world := by
    rw [h'.world]
    unfold Catalogue.withCompanyTags
    rw [h.world]
    rfl
  unique hs := h'.unique (h.unique hs)
  belong tag htag := by
    rcases h'.belong tag htag with hid | ⟨tag', htag', hsame⟩
    · exact Or.inl hid
    · rw [← hsame]
      exact h.belong tag' htag'

/-- Rows of known problems are an upkeep of the tags. -/
theorem tagsUpkeep_write {rows : List (CompanyRow F)} (hrows : ∀ row ∈ rows, row.problemID ∈ ids)
    (s : Seeded F) : TagsUpkeep ids s (rows.foldl Seeded.write s) := by
  -- The rows of the file are written over those with the same key.
  have hwritten := foldl_write_tags rows s
  have htags : (rows.foldl Seeded.write s).db.companyTags =
      upsertAll tagKey s.db.companyTags (rows.map CompanyRow.tag) := by
    unfold Seeded.db
    rw [hwritten]
    rfl
  constructor
  case world => rw [htags, hwritten]
  case unique =>
    intro hunique
    show ((rows.foldl Seeded.write s).db.companyTags.map tagKey).Nodup
    rw [htags]
    exact nodup_upsertAll _ hunique
  case belong =>
    intro t ht
    rw [htags] at ht
    rcases mem_map_key_upsertAll _ (List.mem_map_of_mem (f := tagKey) ht) with hold | hnew
    · obtain ⟨t', ht', hsame⟩ := List.mem_map.mp hold
      exact Or.inr ⟨t', ht', congrArg Prod.fst hsame⟩
    · obtain ⟨_, htag, hsame⟩ := List.mem_map.mp hnew
      obtain ⟨row, hrow, rfl⟩ := List.mem_map.mp htag
      have hid : row.problemID = t.problemID := congrArg Prod.fst hsame
      exact Or.inl (hid ▸ hrows row hrow)

/-- A batch holds nothing but items. -/
theorem mem_of_mem_batchesUpTo {α : Type} {size : ℕ} : ∀ {fuel : ℕ} {items batch : List α},
    batch ∈ batchesUpTo size fuel items → ∀ x ∈ batch, x ∈ items
  | 0, _, _, h => nomatch h
  | _ + 1, [], _, h => nomatch h
  | fuel + 1, item :: items, batch, h => by
    intro x hx
    rcases List.mem_cons.mp h with rfl | h
    · exact List.mem_of_mem_take hx
    · exact List.mem_of_mem_drop (mem_of_mem_batchesUpTo h x hx)

/-- Statistics are all that `RebuildCompanyStats` changes. -/
theorem keeps_rebuildCompanyStats (env : StatsEnv) :
    Call.Keeps Catalogue.world (rebuildCompanyStats env) := by
  unfold rebuildCompanyStats
  refine Call.Keeps.bind (Call.Keeps.io _ _ (Call.Keeps.read _)) fun rows => ?_
  refine Call.Keeps.bind (Call.Keeps.io _ _ (Call.Keeps.write fun _ => rfl)) fun _ => ?_
  refine Call.Keeps.ite _ (Call.Keeps.pure _) ?_
  unfold insertStats
  exact Call.Keeps.io _ _ (Call.Keeps.ite _ (Call.Keeps.write fun _ => rfl) (Call.Keeps.fail _))

/-- Wrapping the errors of a rebuild does not change what it does. -/
theorem state_rebuilding (x : SeedingService Unit) (s : Seeded F) :
    ((rebuilding x).run s).2 = ⟨(x.run s.catalogue).2, s.frequency⟩ := by
  unfold rebuilding
  dsimp only
  cases x.run s.catalogue with
  | mk o c => cases o <;> rfl

/-- What is stored of the companies. -/
def Seeded.shelf (s : Seeded F) : World × (ℕ × String → F) := (s.catalogue.world, s.frequency)

/-- A rebuild leaves companies and frequencies. -/
theorem keeps_rebuilding (env : StatsEnv) :
    Call.Keeps (Seeded.shelf (F := F)) (rebuilding (rebuildCompanyStats env)) := by
  intro s
  show ((rebuilding _).run s).2.shelf = s.shelf
  rw [state_rebuilding]
  exact Prod.ext (keeps_rebuildCompanyStats env s.catalogue) rfl

/-- Rebuilding statistics is an upkeep of the tags. -/
theorem TagsUpkeep.of_shelf {s s' : Seeded F} (h : s'.shelf = s.shelf) : TagsUpkeep ids s s' := by
  have hworld : s'.catalogue.world = s.catalogue.world := congrArg Prod.fst h
  have hdb : s'.db = s.db := congrArg World.db hworld
  refine ⟨?_, ?_, fun t ht => ?_⟩
  · rw [hworld, hdb]
    rfl
  · rw [hdb]
    exact id
  · rw [hdb] at ht
    exact Or.inr ⟨t, ht, rfl⟩

/-- Storing rows in batches is an upkeep of the tags, wherever it stops. -/
theorem tagsUpkeep_seedRows (env : CompanyEnv) {rows : List (CompanyRow F)}
    (hrows : ∀ row ∈ rows, row.problemID ∈ ids) :
    Call.Within (TagsUpkeep ids) (seedRows env rows) := by
  refine Call.Within.bind TagsUpkeep.trans (Call.Within.forEach TagsUpkeep.refl TagsUpkeep.trans
    fun (batch, i) hbatch => ?_) fun _ s => .of_shelf (keeps_rebuilding env.stats s)
  have hmem : batch ∈ batches batchSize rows := List.fst_mem_of_mem_zipIdx hbatch
  refine Call.Within.io TagsUpkeep.refl _ _ (Call.Within.ite _ (Call.Within.write fun s => ?_)
    (Call.Within.fail TagsUpkeep.refl _))
  exact tagsUpkeep_write (fun row hrow => hrows row (mem_of_mem_batchesUpTo hmem row hrow)) s

/-- The rows of a file are about problems that are there. -/
theorem problemID_of_companyRows {num : FloatFormat F} {slugToID : List Char → Option ℕ}
    {columns : CompanyColumns} {results : List (Except Csv.CsvError Csv.Record)}
    {row : CompanyRow F} (h : row ∈ companyRows num slugToID columns results) :
    ∃ slug, slugToID slug = some row.problemID := by
  obtain ⟨result, -, hresult⟩ := List.mem_filterMap.mp h
  cases result with
  | error e => cases hresult
  | ok record =>
    dsimp only at hresult
    unfold companyRow at hresult
    split at hresult
    · cases hresult
    · dsimp only at hresult
      split at hresult
      · cases hresult
      · obtain ⟨problemID, hid, rfl⟩ := Option.map_eq_some_iff.mp hresult
        exact ⟨_, hid⟩

/-- The map of slugs leads to problems that are stored. -/
theorem mem_of_slugMap {problems : List Problem} {slug : List Char} {id : ℕ}
    (h : slugMap problems slug = some id) : ∃ p ∈ problems, p.id = id := by
  obtain ⟨p, hp, rfl⟩ := Option.map_eq_some_iff.mp h
  exact ⟨p, List.mem_reverse.mp (List.mem_of_find?_eq_some hp), rfl⟩

/-- Seeding companies adds tags of problems that are there. -/
theorem tagsUpkeep_seedCompanyProblems (env : CompanyEnv) (num : FloatFormat F)
    (lower : Char → Char) (text : List Char) (s : Seeded F) :
    TagsUpkeep s.db.problems.ids s ((seedCompanyProblems env num lower text).run s).2 := by
  unfold seedCompanyProblems
  cases env.openFile with
  | true => exact .refl s
  | false =>
    rw [Call.io_false]
    cases readHeader text with
    | error e => exact .refl s
    | ok found =>
      obtain ⟨header, results⟩ := found
      dsimp only
      cases companyColumns lower header with
      | error e => exact .refl s
      | ok columns =>
        dsimp only
        cases env.find with
        | true => exact .refl s
        | false =>
          rw [Call.io_false, Call.run_read_bind]
          refine tagsUpkeep_seedRows env (fun row hrow => ?_) s
          -- The keys of the rows come from the map of slugs, which was read from the table.
          obtain ⟨slug, hslug⟩ := problemID_of_companyRows hrow
          obtain ⟨p, hp, hid⟩ := mem_of_slugMap hslug
          rw [← hid]
          exact List.mem_map_of_mem ((Arrangement.mem_order _).mp hp)

/-- `SeedCompanyProblems` is an upkeep, wherever it stops. -/
theorem upkeep_onSeeded (env : CompanyEnv) (num : FloatFormat F) (lower : Char → Char)
    (text : List Char) :
    Call.Within Upkeep (onSeeded (seedCompanyProblems env num lower text)) := by
  intro s
  have h := tagsUpkeep_seedCompanyProblems env num lower text s.seeded
  show Upkeep s ⟨((seedCompanyProblems env num lower text).run s.seeded).2.catalogue, s.name, _⟩
  generalize ((seedCompanyProblems env num lower text).run s.seeded).2 = t at h
  have hproblems : t.catalogue.world.db.problems = s.catalogue.world.db.problems := by
    rw [h.world]
    rfl
  refine ⟨?_, ?_, ?_, fun htags => ⟨h.unique htags.unique, fun tag htag => ?_⟩⟩
  · show KeepsProblems _ t.catalogue.world.db.problems
    rw [hproblems]
    exact .refl _
  · show t.catalogue.world.unseeded = _
    rw [h.world]
    rfl
  · exact Named.Unique.of_problems hproblems rfl
  · show ∃ p ∈ t.catalogue.world.db.problems.rows, _
    rw [hproblems]
    rcases h.belong tag htag with hid | ⟨tag', htag', hsame⟩
    · exact List.mem_map.mp hid
    · rw [← hsame]
      exact htags.belong tag' htag'

end Companies

/-! ## A start -/

section Start

variable {F : Type} (env : StartEnv) (num : FloatFormat F) (lower : Char → Char)
  (files : String → Option (List Char))

/-- Trying one path after another does what the attempts do. -/
theorem within_tryPaths {R : Installation F → Installation F → Prop} (refl : ∀ s, R s s)
    (trans : ∀ s t u, R s t → R t u → R s u)
    {seed : String → Call (Installation F) GoError Unit} : ∀ {paths : List String},
      (∀ path ∈ paths, Call.Within R (seed path)) → Call.Within R (tryPaths seed paths)
  | [], _ => Call.Within.pure refl ()
  | path :: _, h => Call.Within.orElse refl trans (h path List.mem_cons_self)
      (within_tryPaths refl trans fun path' hpath' => h path' (List.mem_cons_of_mem path hpath'))

/-- A seeding from a file does what the seeding does on the text of the file. -/
theorem within_seedFrom {R : Installation F → Installation F → Prop} (refl : ∀ s, R s s)
    {path : String} {seed : List Char → Call (Installation F) GoError Unit}
    (h : ∀ text, files path = some text → Call.Within R (seed text)) :
    Call.Within R (seedFrom files path seed) := by
  unfold seedFrom
  cases hfile : files path with
  | none => exact Call.Within.fail refl _
  | some text => exact h text hfile

/-- A relation that each of the four seedings keeps to is one that a start keeps to. -/
theorem within_startUp {R : Installation F → Installation F → Prop} (refl : ∀ s, R s s)
    (trans : ∀ s t u, R s t → R t u → R s u)
    (hproblems : ∀ path ∈ problemPaths, ∀ text, files path = some text →
      Call.Within R (onNamed (seedProblems (env.problems path) lower text)))
    (hcompanies : ∀ path ∈ companyPaths, ∀ text, files path = some text →
      Call.Within R (onSeeded (seedCompanyProblems (env.companies path) num lower text)))
    (hlists : ∀ list : ProblemList, ∀ path ∈ list.paths, ∀ text, files path = some text →
      Call.Within R (onNamed (seedProblemList (env.problems path) lower list text))) :
    Call.Within R (startUp env num lower files) := by
  refine Call.Within.bind trans (within_tryPaths refl trans fun path hpath =>
    within_seedFrom files refl (hproblems path hpath)) fun _ => ?_
  refine Call.Within.bind trans (within_tryPaths refl trans fun path hpath =>
    within_seedFrom files refl (hcompanies path hpath)) fun _ => ?_
  refine Call.Within.bind trans (within_tryPaths refl trans fun path hpath =>
    within_seedFrom files refl (hlists .blind75 path hpath)) fun _ => ?_
  exact within_tryPaths refl trans fun path hpath =>
    within_seedFrom files refl (hlists .neetCode150 path hpath)

/-- A start is an upkeep, whatever fails in it. -/
theorem upkeep_startUp : Call.Within Upkeep (startUp env num lower files) :=
  within_startUp env num lower files Upkeep.refl Upkeep.trans
    (fun _ _ text _ => upkeep_onNamed (namedUpkeep_seedProblems _ lower text))
    (fun _ _ text _ => upkeep_onSeeded _ num lower text)
    fun list _ _ text _ => upkeep_onNamed (namedUpkeep_seedProblemList _ lower list text)

end Start

/-! ## The service and its starts -/

/-- The service with all that is stored. -/
structure Deployment (F : Type) where
  site : Site
  tagStats : List ProblemTagStat
  companyStats : List ProblemCompanyStat
  name : ℕ → String
  frequency : ℕ × String → F

section Deployment

variable {F : Type}

/-- What a start seeds. -/
def Deployment.installation (d : Deployment F) : Installation F :=
  ⟨⟨d.site.world, d.tagStats, d.companyStats⟩, d.name, d.frequency⟩

/-- The service after a start. -/
def Deployment.withInstallation (d : Deployment F) (s : Installation F) : Deployment F where
  site := { d.site with world := s.catalogue.world }
  tagStats := s.catalogue.tagStats
  companyStats := s.catalogue.companyStats
  name := s.name
  frequency := s.frequency

/-- What can happen to a deployment: something that happens to the service while it runs, or that it
ends and is started again, with some files. -/
inductive DeploymentEvent
  | serve (e : SiteEvent)
  | boot (env : Env) (start : StartEnv) (files : String → Option (List Char))

variable (num : FloatFormat F) (lower : Char → Char)

/-- The deployment after an event. -/
def Deployment.happen (d : Deployment F) : DeploymentEvent → Deployment F
  | .serve e => { d with site := d.site.happen e }
  | .boot env start files =>
    let d' := { d with site := d.site.happen (.restart env) }
    d'.withInstallation ((startUp start num lower files).run d'.installation).2

/-- Every reference leads somewhere, slugs and names are unique, and every company tag belongs to a
problem that has it once. -/
structure Deployment.Intact (d : Deployment F) : Prop where
  referential : Referential d.site.world.db
  unique : d.installation.named.Unique
  tags : d.site.world.db.TagsBelong

/-- Tags belong to problems, so that what else there is does not matter. -/
theorem DB.TagsBelong.of_listing {w w' : World} (hlisting : w'.listing = w.listing)
    (h : w.db.TagsBelong) : w'.db.TagsBelong := by
  have hproblems : w'.db.problems = w.db.problems := congrArg Prod.fst hlisting
  refine h.of_problems ?_ (congrArg Prod.snd hlisting)
  rw [hproblems]
  exact .refl _

/-- What the service does while it runs keeps a deployment intact, and its problems. -/
theorem Deployment.Intact.serve {d : Deployment F} (h : d.Intact) (e : SiteEvent) :
    ({ d with site := d.site.happen e } : Deployment F).Intact ∧
      KeepsProblems d.site.world.db.problems (d.site.happen e).world.db.problems := by
  have hlisting := listing_siteHappen d.site e
  have hproblems : (d.site.happen e).world.db.problems = d.site.world.db.problems :=
    congrArg Prod.fst hlisting
  have hnamed : ({ d with site := d.site.happen e } : Deployment F).installation.named.problems =
      d.installation.named.problems := hproblems
  refine ⟨⟨referential_siteHappen h.referential e, ?_, h.tags.of_listing hlisting⟩, ?_⟩
  · exact h.unique.of_problems hnamed rfl
  · rw [hproblems]
    exact .refl _

/-- The references lead to problems that a start keeps. -/
theorem Referential.of_upkeep {s s' : Installation F} (hup : Upkeep s s')
    (h : Referential s.catalogue.world.db) : Referential s'.catalogue.world.db := by
  -- The start writes problems and tags only; the other tables are equal one by one.
  have hdb : s'.catalogue.world.unseeded.db = s.catalogue.world.unseeded.db :=
    congrArg World.db hup.unseeded
  have hrooms : s'.catalogue.world.db.rooms = s.catalogue.world.db.rooms := (congrArg DB.rooms hdb :)
  have hrounds : s'.catalogue.world.db.rounds = s.catalogue.world.db.rounds :=
    (congrArg DB.rounds hdb :)
  have hroundProblems : s'.catalogue.world.db.roundProblems = s.catalogue.world.db.roundProblems :=
    (congrArg DB.roundProblems hdb :)
  have hparticipants : s'.catalogue.world.db.participants = s.catalogue.world.db.participants :=
    (congrArg DB.participants hdb :)
  have hsubmissions : s'.catalogue.world.db.roundSubmissions =
      s.catalogue.world.db.roundSubmissions := (congrArg DB.roundSubmissions hdb :)
  constructor
  case rounds =>
    rw [hrounds, hrooms]
    exact h.rounds
  case problemSets =>
    rw [hroundProblems, hrounds]
    intro rp hrp
    obtain ⟨hround, p, hp, hid⟩ := h.problemSets rp hrp
    obtain ⟨p', hp', hid', -⟩ := hup.problems p hp
    exact ⟨hround, p', hp', hid'.trans hid⟩
  case participants =>
    rw [hparticipants, hrounds]
    exact h.participants
  case roundSubmissions =>
    rw [hsubmissions, hparticipants]
    exact h.roundSubmissions

/-- An upkeep leaves a deployment intact. -/
theorem Deployment.Intact.upkeep {d : Deployment F} {s : Installation F} (h : d.Intact)
    (hup : Upkeep d.installation s) : (d.withInstallation s).Intact :=
  ⟨h.referential.of_upkeep hup, hup.unique h.unique, hup.tags h.tags⟩

/-- An event leaves a deployment intact, with the problems that it had. -/
theorem intact_happen {d : Deployment F} (h : d.Intact) (e : DeploymentEvent) :
    (d.happen num lower e).Intact ∧
      KeepsProblems d.site.world.db.problems (d.happen num lower e).site.world.db.problems := by
  cases e with
  | serve e => exact h.serve e
  | boot env start files =>
    obtain ⟨hrestart, hkept⟩ := h.serve (.restart env)
    have hup := upkeep_startUp start num lower files
      ({ d with site := d.site.happen (.restart env) } : Deployment F).installation
    exact ⟨hrestart.upkeep hup, hkept.trans hup.problems⟩

/-- Along every run of a deployment, through any number of starts with any files and whatever fails,
the references lead somewhere, slugs and names are unique, the company tags belong to problems, and
every problem keeps its key, its slug and its marks. -/
theorem catalogue_along (d : Deployment F) (es : List DeploymentEvent) (h : d.Intact) :
    Throughout (Deployment.happen num lower) (fun d' => d'.Intact ∧
      KeepsProblems d.site.world.db.problems d'.site.world.db.problems) d es := by
  have halong : Along (Deployment.happen num lower) (fun _ _ => True) d es :=
    Along.of_forall fun _ _ => trivial
  refine invariant_along (fun d' e hd' _ => ?_) ⟨h, .refl _⟩ halong
  obtain ⟨hintact, hkept⟩ := intact_happen num lower hd'.1 e
  exact ⟨hintact, hd'.2.trans hkept⟩

end Deployment

/-- No operation of a start fails. -/
def StartEnv.quiet : StartEnv := ⟨fun _ => .quiet, fun _ => .quiet⟩

/-- A room with a created round, and one problem. -/
def Deployment.ready : Deployment ℕ := ⟨.ready, [], [], fun _ => "3Sum", fun _ => 0⟩

/-- Files with a new name for the problem and another problem, and a list. -/
def newFiles (path : String) : Option (List Char) :=
  if path = "seed-service/leetcode_problems.csv" then
    some "Title,Slug\nThree Sum,3sum\n3Sum,3sum-closest\n".toList
  else if path = "seed-service/blind_75.csv" then
    some "LeetCode URL\nhttps://leetcode.com/problems/3sum/\n".toList
  else none

/-- The service is started again while the round waits, and then the round is started. -/
def bootBetween : List DeploymentEvent :=
  [.boot (Env.faultless 0) .quiet newFiles,
    .serve (.request SiteEnv.faultless (.startRound roomOne host))]

/-- A start between the creation of a round and its own start. -/
theorem catalogue_bootBetween :
    Throughout (Deployment.happen wholeNumbers Char.toLower) (fun d' => d'.Intact ∧
      KeepsProblems Deployment.ready.site.world.db.problems d'.site.world.db.problems)
      .ready bootBetween := by
  refine catalogue_along wholeNumbers Char.toLower .ready bootBetween ⟨?_, ?_, ?_⟩
  · exact ⟨by decide +kernel, by decide +kernel, by decide +kernel, by decide +kernel⟩
  · exact ⟨by decide +kernel, by decide +kernel⟩
  · exact ⟨List.nodup_nil, nofun⟩

/-! ## Starting again -/

section Again

variable {F : Type}

/-- What is stored, but for the statistics. -/
def Installation.shelf (s : Installation F) : World × (ℕ → String) × (ℕ × String → F) :=
  (s.catalogue.world, s.name, s.frequency)

/-- The tag and the frequency of a row are stored. -/
def Seeded.Has (s : Seeded F) (row : CompanyRow F) : Prop :=
  rowsAt tagKey s.db.companyTags row.key = [row.tag] ∧ s.frequency row.key = row.frequency

/-- All that the files say is stored already. -/
structure Stocked (num : FloatFormat F) (lower : Char → Char) (files : String → Option (List Char))
    (s : Installation F) : Prop where
  problems : ∀ path ∈ problemPaths, ∀ text, files path = some text →
    ∀ records, readProblems lower text = .ok records → ∀ record ∈ records, s.named.Has record
  companies : ∀ path ∈ companyPaths, ∀ text, files path = some text →
    ∀ rows, readCompanies num s.seeded.db.slugID lower text = .ok rows →
      ∀ row ∈ rows, s.seeded.Has row
  lists : ∀ list : ProblemList, ∀ path ∈ list.paths, ∀ text, files path = some text →
    ∀ slugs, readSlugs lower text = .ok slugs →
      ∀ p ∈ s.named.problems.rows, p.slug ∈ slugs → list.has p = true

section Named

variable {s : Named}

/-- Records that are stored already change nothing. -/
theorem run_seedStep_of_has {env : SeedEnv} : ∀ {es : List (ProblemRecord × ℕ)},
    (∀ e ∈ es, s.Has e.1) → run (seedStep env) s es = s
  | [], _ => rfl
  | e :: es, h => by
    have hstay : seedStep env s e = s := by
      unfold seedStep
      split
      · rfl
      · exact write_of_has (h e List.mem_cons_self)
    rw [run_cons, hstay]
    exact run_seedStep_of_has fun e' he' => h e' (List.mem_cons_of_mem e he')

/-- Seeding records that are stored leaves the problems. -/
theorem seedProblems_of_has (env : SeedEnv) {lower : Char → Char} {text : List Char}
    (h : ∀ records, readProblems lower text = .ok records → ∀ record ∈ records, s.Has record) :
    ((seedProblems env lower text).run s).2.shelf = s.shelf := by
  cases hopen : env.openFile with
  | true =>
    unfold seedProblems
    rw [hopen]
    rfl
  | false =>
    cases hread : readProblems lower text with
    | error e =>
      unfold seedProblems
      rw [hopen, Call.io_false, hread]
      rfl
    | ok records =>
      have hmem : ∀ e ∈ records.zipIdx, s.Has e.1 := fun e he =>
        h records hread e.1 (List.zipIdx_map_fst 0 records ▸ List.mem_map_of_mem he)
      rw [shelf_seedProblems hopen hread, run_seedStep_of_has hmem]

/-- A marked problem is not changed by marking it again. -/
theorem ProblemList.mark_of_has {list : ProblemList} {p : Problem} (h : list.has p = true) :
    list.mark p = p := by
  cases list with
  | blind75 =>
    have hmark : p.isBlind75 = true := h
    show { p with isBlind75 := true } = p
    rw [← hmark]
  | neetCode150 =>
    have hmark : p.isNeetCode150 = true := h
    show { p with isNeetCode150 := true } = p
    rw [← hmark]

/-- Marking problems that are marked changes nothing. -/
theorem mark_of_has {list : ProblemList} {slugs : List String}
    (h : ∀ p ∈ s.problems.rows, p.slug ∈ slugs → list.has p = true) : s.mark list slugs = s := by
  have hrows : ∀ p ∈ s.problems.rows, (if slugs.contains p.slug then list.mark p else p) = p := by
    intro p hp
    split
    · rename_i hslug
      exact ProblemList.mark_of_has (h p hp (by simpa using hslug))
    · rfl
  have htable : s.problems.update (fun p => slugs.contains p.slug) list.mark
      (by intro p; cases list <;> rfl) = s.problems :=
    Table.ext ((List.map_congr_left hrows).trans (List.map_id _))
  unfold Named.mark
  rw [htable]
  rfl

/-- A list whose problems are all marked changes nothing. -/
theorem seedProblemList_of_has (env : SeedEnv) {lower : Char → Char} {list : ProblemList}
    {text : List Char} (h : ∀ slugs, readSlugs lower text = .ok slugs →
      ∀ p ∈ s.problems.rows, p.slug ∈ slugs → list.has p = true) :
    ((seedProblemList env lower list text).run s).2 = s := by
  unfold seedProblemList
  cases env.openFile with
  | true => rfl
  | false =>
    rw [Call.io_false]
    cases hread : readSlugs lower text with
    | error e => rfl
    | ok slugs =>
      dsimp only
      cases env.update with
      | true => rfl
      | false =>
        rw [Call.io_false, Call.run_ite]
        split
        · exact mark_of_has (h slugs hread)
        · rfl

end Named

section Seeded

variable {s : Seeded F}

/-- A row that is stored is written over itself. -/
theorem Seeded.write_of_has {row : CompanyRow F} (h : s.Has row) : s.write row = s := by
  unfold Seeded.write
  rw [upsert_of_rowsAt (show rowsAt tagKey s.db.companyTags (tagKey row.tag) = [row.tag] from h.1),
    ← h.2, Function.update_eq_self]
  rfl

/-- So are rows one after the other. -/
theorem Seeded.foldl_write_of_has : ∀ {rows : List (CompanyRow F)}, (∀ row ∈ rows, s.Has row) →
    rows.foldl Seeded.write s = s
  | [], _ => rfl
  | row :: rows, h => by
    rw [List.foldl_cons, Seeded.write_of_has (h row List.mem_cons_self)]
    exact Seeded.foldl_write_of_has fun row' hrow' => h row' (List.mem_cons_of_mem row hrow')

/-- Whether a row is stored does not depend on the statistics. -/
theorem Seeded.Has.of_shelf {s' : Seeded F} (hshelf : s'.shelf = s.shelf) {row : CompanyRow F}
    (h : s.Has row) : s'.Has row := by
  have hdb : s'.db = s.db := congrArg World.db (congrArg Prod.fst hshelf)
  have hfrequency : s'.frequency = s.frequency := congrArg Prod.snd hshelf
  unfold Seeded.Has
  rw [hdb, hfrequency]
  exact h

/-- Rows that are stored are written over themselves, as far as the batches go. -/
theorem seedRows_of_has (env : CompanyEnv) {rows : List (CompanyRow F)}
    (h : ∀ row ∈ rows, s.Has row) : ((seedRows env rows).run s).2.shelf = s.shelf := by
  let R : Seeded F → Seeded F → Prop := fun s s' => (∀ row ∈ rows, s.Has row) → s'.shelf = s.shelf
  have hrefl : ∀ s, R s s := fun s _ => rfl
  have htrans : ∀ s t u, R s t → R t u → R s u := by
    intro s t u hst htu hs
    have hsame := hst hs
    exact (htu fun row hrow => (hs row hrow).of_shelf hsame).trans hsame
  have hwithin : Call.Within R (seedRows env rows) := by
    refine Call.Within.bind htrans (Call.Within.forEach hrefl htrans fun (batch, i) hbatch => ?_)
      fun _ s _ => keeps_rebuilding env.stats s
    have hmem : batch ∈ batches batchSize rows := List.fst_mem_of_mem_zipIdx hbatch
    refine Call.Within.io hrefl _ _ (Call.Within.ite _ (Call.Within.write fun s hs => ?_)
      (Call.Within.fail hrefl _))
    rw [Seeded.foldl_write_of_has fun row hrow => hs row (mem_of_mem_batchesUpTo hmem row hrow)]
  exact hwithin s h

/-- Seeding companies that are stored leaves them. -/
theorem seedCompanyProblems_of_has (env : CompanyEnv) {num : FloatFormat F} {lower : Char → Char}
    {text : List Char} (hslugs : s.db.SlugsUnique)
    (h : ∀ rows, readCompanies num s.db.slugID lower text = .ok rows → ∀ row ∈ rows, s.Has row) :
    ((seedCompanyProblems env num lower text).run s).2.shelf = s.shelf := by
  unfold seedCompanyProblems
  cases env.openFile with
  | true => rfl
  | false =>
    rw [Call.io_false]
    unfold readCompanies at h
    cases hheader : readHeader text with
    | error e => rfl
    | ok found =>
      obtain ⟨header, results⟩ := found
      rw [hheader] at h
      dsimp only
      cases hcolumns : companyColumns lower header with
      | error e => rfl
      | ok columns =>
        dsimp only
        cases env.find with
        | true => rfl
        | false =>
          -- With unique slugs the order in which the problems are read decides nothing.
          rw [Call.io_false, Call.run_read_bind, slugMap_order hslugs]
          refine seedRows_of_has env (h _ ?_)
          show (do
            let columns ← companyColumns lower header
            pure (companyRows num s.db.slugID columns results) : Except _ _) = _
          rw [hcolumns]
          rfl

end Seeded

/-- The shelf has the shelf of the problems in it. -/
theorem named_of_shelf {s s' : Installation F} (h : s'.shelf = s.shelf) :
    s'.named.shelf = s.named.shelf :=
  Prod.ext (congrArg Prod.fst h :) (congrArg (fun shelf => shelf.2.1) h :)

/-- The shelf has the shelf of the companies in it. -/
theorem seeded_of_shelf {s s' : Installation F} (h : s'.shelf = s.shelf) :
    s'.seeded.shelf = s.seeded.shelf :=
  Prod.ext (congrArg Prod.fst h :) (congrArg (fun shelf => shelf.2.2) h :)

variable {num : FloatFormat F} {lower : Char → Char} {files : String → Option (List Char)}

/-- Whether the files are stored does not depend on the statistics. -/
theorem Stocked.of_shelf {s s' : Installation F} (hshelf : s'.shelf = s.shelf)
    (h : Stocked num lower files s) : Stocked num lower files s' := by
  have hnamed := named_of_shelf hshelf
  have hseeded := seeded_of_shelf hshelf
  have hdb : s'.seeded.db = s.seeded.db := congrArg World.db (congrArg Prod.fst hseeded)
  constructor
  case problems =>
    intro path hpath text hfile records hread record hrecord
    have hhas := h.problems path hpath text hfile records hread record hrecord
    exact (Named.Has.congr (congrFun (lookup_of_shelf hnamed) record.slug)).mpr hhas
  case companies =>
    rw [hdb]
    intro path hpath text hfile rows hread row hrow
    exact (h.companies path hpath text hfile rows hread row hrow).of_shelf hseeded
  case lists =>
    rw [problems_of_shelf hnamed]
    exact h.lists

/-- Where all that the files say is stored, a start leaves the problems with their names, the
companies and the marks as they are, whatever fails. -/
theorem startUp_stocked (env : StartEnv) (s : Installation F) (h : Stocked num lower files s)
    (hslugs : s.seeded.db.SlugsUnique) :
    ((startUp env num lower files).run s).2.shelf = s.shelf := by
  -- Each part of the start leaves a stocked installation as it is, and then the next part starts
  -- from the same.
  let R : Installation F → Installation F → Prop := fun s s' =>
    Stocked num lower files s ∧ s.seeded.db.SlugsUnique → s'.shelf = s.shelf
  have hrefl : ∀ s, R s s := fun s _ => rfl
  have htrans : ∀ s t u, R s t → R t u → R s u := by
    rintro s t u hst htu ⟨hstocked, hunique⟩
    have hsame := hst ⟨hstocked, hunique⟩
    have hdb : t.seeded.db = s.seeded.db :=
      congrArg World.db (congrArg Prod.fst (seeded_of_shelf hsame))
    exact (htu ⟨hstocked.of_shelf hsame, hdb ▸ hunique⟩).trans hsame
  have hwithin : Call.Within R (startUp env num lower files) := by
    refine within_startUp env num lower files hrefl htrans ?_ ?_ ?_
    · rintro path hpath text hfile s ⟨hstocked, -⟩
      have hsame := seedProblems_of_has (env.problems path) (hstocked.problems path hpath text hfile)
      exact Prod.ext (congrArg Prod.fst hsame :) (Prod.ext (congrArg Prod.snd hsame :) rfl)
    · rintro path hpath text hfile s ⟨hstocked, hunique⟩
      have hsame := seedCompanyProblems_of_has (env.companies path) hunique
        (hstocked.companies path hpath text hfile)
      exact Prod.ext (congrArg Prod.fst hsame :) (Prod.ext rfl (congrArg Prod.snd hsame :))
    · rintro list path hpath text hfile s ⟨hstocked, -⟩
      have hsame := seedProblemList_of_has (env.problems path)
        (hstocked.lists list path hpath text hfile)
      show Installation.shelf ⟨((seedProblemList _ lower list text).run s.named).2.catalogue,
        ((seedProblemList _ lower list text).run s.named).2.name, s.frequency⟩ = s.shelf
      rw [hsame]
      rfl
  exact hwithin s ⟨h, hslugs⟩

end Again

/-- The problem is in a list, and a company asks it. -/
def Installation.listed : Installation ℕ where
  catalogue :=
    ⟨{ World.ready with
        db := { World.ready.db with
          problems := Table.empty.insert 1 fun id =>
            ⟨id, "3sum", [], difficultyMedium, false, true, false⟩
          companyTags := [⟨1, "Hall", []⟩] } }, [], []⟩
  name := fun _ => "3Sum"
  frequency := fun _ => 0

/-- The files that say what is stored. -/
def sameFiles (path : String) : Option (List Char) :=
  if path = "seed-service/leetcode_problems.csv" then some "Title,Slug\n3Sum,3sum\n".toList
  else if path = "seed-service/company_problems.csv" then some "Slug,Company\n3sum,Hall\n".toList
  else if path = "seed-service/blind_75.csv" then
    some "LeetCode URL\nhttps://leetcode.com/problems/3sum/\n".toList
  else none

/-- The companies are not written, and the statistics of the tags are not either. -/
def StartEnv.halting : StartEnv where
  problems := fun _ => { SeedEnv.quiet with stats := .noCreate }
  companies := fun _ => { CompanyEnv.quiet with create := fun _ => true }

/-- A start with a file of each kind, in which neither the companies nor the statistics can be
written. -/
theorem startUp_sameFiles :
    ((startUp .halting wholeNumbers Char.toLower sameFiles).run .listed).2.shelf =
      Installation.listed.shelf := by
  refine startUp_stocked .halting .listed ⟨?_, ?_, ?_⟩ (by unfold DB.SlugsUnique; decide +kernel)
  · intro path hpath text hfile records hread record hrecord
    have hpaths : ∀ path ∈ problemPaths, sameFiles path = none ∨
        sameFiles path = some "Title,Slug\n3Sum,3sum\n".toList := by decide +kernel
    have hrecords : readProblems Char.toLower "Title,Slug\n3Sum,3sum\n".toList =
        .ok [⟨"3Sum", "3sum", [], difficultyMedium, false⟩] := by decide +kernel
    rcases hpaths path hpath with hnone | hsome
    · rw [hnone] at hfile
      cases hfile
    · rw [hsome] at hfile
      cases hfile
      rw [hrecords] at hread
      cases hread
      rw [List.mem_singleton.mp hrecord]
      exact ⟨⟨1, "3sum", [], difficultyMedium, false, true, false⟩, by decide +kernel, rfl⟩
  · intro path hpath text hfile rows hread row hrow
    have hpaths : ∀ path ∈ companyPaths, sameFiles path = none ∨
        sameFiles path = some "Slug,Company\n3sum,Hall\n".toList := by decide +kernel
    have hrows : readCompanies wholeNumbers Installation.listed.seeded.db.slugID Char.toLower
        "Slug,Company\n3sum,Hall\n".toList = .ok [⟨1, "Hall", 0, []⟩] := by decide +kernel
    rcases hpaths path hpath with hnone | hsome
    · rw [hnone] at hfile
      cases hfile
    · rw [hsome] at hfile
      cases hfile
      rw [hrows] at hread
      cases hread
      rw [List.mem_singleton.mp hrow]
      exact ⟨by decide +kernel, rfl⟩
  · intro list path hpath text hfile slugs hread p hp hslug
    cases list with
    | blind75 =>
      -- The list asks for the only problem, which is marked.
      have hmarked : ∀ p ∈ Installation.listed.named.problems.rows,
          ProblemList.blind75.has p = true := by decide +kernel
      exact hmarked p hp
    | neetCode150 =>
      have hnone : ∀ path ∈ ProblemList.neetCode150.paths, sameFiles path = none := by decide +kernel
      rw [hnone path hpath] at hfile
      cases hfile

end Bsg.Central
