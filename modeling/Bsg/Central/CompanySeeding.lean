import Bsg.Central.CompanyCsv
import Bsg.Central.StatsRebuild
import Bsg.Foundations.Upsert

/-!
# Seeding the companies

`SeedCompanyProblems` of `services/seeding.go` reads the file of companies, writes its rows in
batches over those with the same problem and company, and rebuilds the statistics of companies. It
should accept every file that has the two columns, also one that repeats a pair (`SeededBy`). But
one statement cannot write a row twice, so a file is accepted exactly when no batch repeats a pair,
and every company fits into its column (`seedCompanyProblems_iff`).
-/

namespace Bsg.Central

open Bsg.Foundations

/-! ## Model -/

/-- The state with the column of frequencies, by problem and company. -/
structure Seeded (F : Type) where
  catalogue : Catalogue
  frequency : ℕ × String → F

/-- The database. -/
def Seeded.db {F : Type} (s : Seeded F) : DB := s.catalogue.world.db

/-- The environment of a seeding: which operations fail, and the orders that are left open. -/
structure CompanyEnv where
  openFile : Bool
  find : Bool
  create : ℕ → Bool
  problems : Arrangement Problem
  stats : StatsEnv

/-- No operation fails. -/
structure CompanyEnv.Quiet (env : CompanyEnv) : Prop where
  openFile : env.openFile = false
  find : env.find = false
  create : ∀ i, env.create i = false
  statsFind : env.stats.find = false
  statsDelete : env.stats.delete = false
  statsCreate : env.stats.create = false

/-- The unique index of `problem_company_tags`. -/
def tagKey (t : ProblemCompanyTag) : ℕ × String := (t.problemID, t.company)

/-- `slugToID`: a later problem replaces an earlier one. -/
def slugMap (problems : List Problem) (slug : List Char) : Option ℕ :=
  (problems.reverse.find? fun problem => decide (problem.slug.toList = slug)).map Problem.id

section Rows

variable {F : Type}

/-- The columns of a row but for its frequency. -/
def CompanyRow.tag (row : CompanyRow F) : ProblemCompanyTag :=
  ⟨row.problemID, row.company, row.windows⟩

/-- The company fits into its column, and is a text of the database. -/
def CompanyRow.Storable (row : CompanyRow F) : Prop :=
  row.company.length ≤ maxNameLength ∧ '\x00' ∉ row.company.toList

instance (row : CompanyRow F) : Decidable row.Storable :=
  inferInstanceAs (Decidable (_ ∧ _))

/-- The state with other company tags. -/
def Catalogue.withCompanyTags (c : Catalogue) (companyTags : List ProblemCompanyTag) : Catalogue :=
  { c with world := { c.world with db := { c.world.db with companyTags := companyTags } } }

/-- Writes a row over the one with its problem and its company, or adds it. -/
def Seeded.write (s : Seeded F) (row : CompanyRow F) : Seeded F where
  catalogue := s.catalogue.withCompanyTags (upsert tagKey s.db.companyTags row.tag)
  frequency := Function.update s.frequency row.key row.frequency

/-- INSERT with ON CONFLICT DO UPDATE: all rows are written, or none when a value does not fit or
two rows have the same problem and company. -/
def upsertTags (batch : List (CompanyRow F)) : Call (Seeded F) GoError Unit :=
  if (∀ row ∈ batch, row.Storable) ∧ (batch.map CompanyRow.key).Nodup then
    Call.write fun s => batch.foldl Seeded.write s
  else .fail (.other "failed to upsert company tags batch")

/-- Runs a part of the service; its errors are wrapped. -/
def rebuilding (x : SeedingService Unit) : Call (Seeded F) GoError Unit where
  run s := match x.run s.catalogue with
    | (.ok a, c) => (.ok a, { s with catalogue := c })
    | (.err _, c) => (.err (.other "failed rebuilding company stats"), { s with catalogue := c })
    | (.panic, c) => (.panic, { s with catalogue := c })

/-- `batchSize` -/
def batchSize : ℕ := 500

section Seed

variable (env : CompanyEnv)

/-- What follows once the rows are known: they are written in batches, and the statistics rebuilt.
-/
def seedRows (tags : List (CompanyRow F)) : Call (Seeded F) GoError Unit := do
  Call.forEach (batches batchSize tags).zipIdx fun (batch, i) =>
    .io (env.create i) (.other "failed to upsert company tags batch") (upsertTags batch)
  rebuilding (rebuildCompanyStats env.stats)

/-- `SeedCompanyProblems` for a file with this text. -/
def seedCompanyProblems (num : FloatFormat F) (lower : Char → Char) (text : List Char) :
    Call (Seeded F) GoError Unit :=
  .io env.openFile (.other "failed to open csv file") <|
    match readHeader text with
    | .error e => .fail e
    | .ok (header, results) =>
      match companyColumns lower header with
      | .error e => .fail e
      | .ok columns => do
        let problems ← .io env.find (.other "failed to load problems for company seeding") <|
          Call.read fun s => env.problems.order s.db.problems.rows
        seedRows env (companyRows num (slugMap problems) columns results)

end Seed

/-! ## What a seeding should do -/

/-- No two problems have the same slug. -/
def DB.SlugsUnique (db : DB) : Prop := (db.problems.rows.map Problem.slug).Nodup

/-- The problem with a slug. -/
def DB.slugID (db : DB) (slug : List Char) : Option ℕ :=
  (db.problems.rows.find? fun problem => decide (problem.slug.toList = slug)).map Problem.id

/-- The rows have been written: for each problem and company there is exactly one row, with the
frequency and the windows of the last row of the file, and the other rows are unchanged, as is what
else is stored; the statistics are fresh. -/
structure SeededBy (rows : List (CompanyRow F)) (s s' : Seeded F) : Prop where
  last : ∀ before row after, rows = before ++ row :: after →
    (∀ row' ∈ after, row'.key ≠ row.key) →
      rowsAt tagKey s'.db.companyTags row.key = [row.tag] ∧ s'.frequency row.key = row.frequency
  others : ∀ key, (∀ row ∈ rows, row.key ≠ key) →
    rowsAt tagKey s'.db.companyTags key = rowsAt tagKey s.db.companyTags key ∧
      s'.frequency key = s.frequency key
  world : s'.catalogue.world = (s.catalogue.withCompanyTags s'.db.companyTags).world
  tagStats : s'.catalogue.tagStats = s.catalogue.tagStats
  stats : Recomputed s'.db s'.db.hasCompany (s'.catalogue.companyStats.map ProblemCompanyStat.entry)

/-- No batch has two rows with the same problem and company, and every company can be stored. -/
def Acceptable (rows : List (CompanyRow F)) : Prop :=
  ∀ batch ∈ batches batchSize rows,
    (batch.map CompanyRow.key).Nodup ∧ ∀ row ∈ batch, row.Storable

end Rows

/-! ## The rows -/

section Slugs

variable {db : DB}

/-- The problem with a slug is found whatever the order of the problems. -/
theorem slugMap_order (h : db.SlugsUnique) (problems : Arrangement Problem) :
    slugMap (problems.order db.problems.rows) = db.slugID := by
  funext slug
  have hperm : (problems.order db.problems.rows).reverse.Perm db.problems.rows :=
    (List.reverse_perm _).trans (problems.perm _)
  refine congrArg (Option.map Problem.id) (find?_eq_of_perm hperm.symm ?_).symm
  intro p hp q hq hpslug hqslug
  have hslug : p.slug = q.slug :=
    String.toList_inj.mp ((of_decide_eq_true hpslug).trans (of_decide_eq_true hqslug).symm)
  exact List.inj_on_of_nodup_map h hp hq hslug

end Slugs

/-! ## Writing rows -/

section Write

variable {F : Type}

/-- Writing rows writes their tags. -/
theorem foldl_write_tags : ∀ (rows : List (CompanyRow F)) (s : Seeded F),
    (rows.foldl Seeded.write s).catalogue =
      s.catalogue.withCompanyTags (upsertAll tagKey s.db.companyTags (rows.map CompanyRow.tag))
  | [], _ => rfl
  | row :: rows, s => by
    rw [List.foldl_cons, foldl_write_tags rows, List.map_cons, upsertAll_cons]
    rfl

/-- A frequency for which nothing is written is kept. -/
theorem foldl_write_other {key : ℕ × String} : ∀ (rows : List (CompanyRow F)) {s : Seeded F},
    (∀ row ∈ rows, row.key ≠ key) →
      (rows.foldl Seeded.write s).frequency key = s.frequency key
  | [], _, _ => rfl
  | row :: rows, s, h => by
    rw [List.foldl_cons,
      foldl_write_other rows fun row' hrow' => h row' (List.mem_cons_of_mem row hrow')]
    exact Function.update_of_ne (h row List.mem_cons_self).symm _ _

/-- The last frequency that was written is there. -/
theorem foldl_write_last {before after : List (CompanyRow F)} {row : CompanyRow F}
    (h : ∀ row' ∈ after, row'.key ≠ row.key) (s : Seeded F) :
    ((before ++ row :: after).foldl Seeded.write s).frequency row.key = row.frequency := by
  rw [List.foldl_append, List.foldl_cons, foldl_write_other after h]
  exact Function.update_self _ _ _

/-- Batches that can be written are written, in order. -/
theorem forEach_batches {env : CompanyEnv} (henv : env.Quiet) : ∀ {bs : List (List (CompanyRow F))}
    {n : ℕ} {s : Seeded F}, (∀ batch ∈ bs, (batch.map CompanyRow.key).Nodup ∧
      ∀ row ∈ batch, row.Storable) →
    (Call.forEach (bs.zipIdx n) fun (batch, i) =>
      .io (env.create i) (.other "failed to upsert company tags batch") (upsertTags batch)).run s =
        (.ok (), bs.flatten.foldl Seeded.write s)
  | [], _, _, _ => rfl
  | batch :: bs, n, s, h => by
    obtain ⟨hnodup, hstorable⟩ := h batch List.mem_cons_self
    have hbatch : (upsertTags batch).run s = (.ok (), batch.foldl Seeded.write s) := by
      unfold upsertTags
      rw [if_pos ⟨hstorable, hnodup⟩]
      rfl
    rw [List.zipIdx_cons, Call.forEach_cons]
    dsimp only
    rw [henv.create, Call.io_false, Call.bind_ok hbatch,
      forEach_batches henv fun batch' hbatch' => h batch' (List.mem_cons_of_mem _ hbatch'),
      List.flatten_cons, List.foldl_append]

/-- A batch that repeats a pair, or has a company that cannot be stored, is refused. -/
theorem upsertTags_refused {batch : List (CompanyRow F)}
    (h : ¬ ((batch.map CompanyRow.key).Nodup ∧ ∀ row ∈ batch, row.Storable)) (s s' : Seeded F) :
    (upsertTags batch).run s ≠ (.ok (), s') := by
  unfold upsertTags
  rw [if_neg fun hand => h hand.symm]
  exact nofun

/-- With such a batch, the rows are not written. -/
theorem seedRows_refused (env : CompanyEnv) {rows : List (CompanyRow F)} (h : ¬ Acceptable rows)
    (s s' : Seeded F) : (seedRows env rows).run s ≠ (.ok (), s') := by
  intro hrun
  obtain ⟨_, s₁, hbatches, -⟩ := Call.bind_eq_ok hrun
  unfold Acceptable at h
  rw [not_forall] at h
  obtain ⟨batch, h⟩ := h
  rw [Classical.not_imp] at h
  obtain ⟨hbatch, hbad⟩ := h
  obtain ⟨i, hi⟩ := List.mem_iff_getElem?.mp hbatch
  refine Call.forEach_not_ok (b := (batch, i)) (fun t t' hwrite => ?_)
    (List.mk_mem_zipIdx_iff_getElem?.mpr hi) s s₁ hbatches
  exact upsertTags_refused hbad t t' (Call.io_eq_ok hwrite).2

/-- When nothing fails and all companies fit, the statistics are rebuilt. -/
theorem rebuildCompanyStats_quiet {env : CompanyEnv} (henv : env.Quiet) {c : Catalogue}
    (hunique : c.world.db.CompaniesUnique)
    (hfit : ∀ t ∈ c.world.db.companyTags, t.company.length ≤ maxNameLength) :
    ∃ stats, (rebuildCompanyStats env.stats).run c = (.ok (), { c with companyStats := stats }) ∧
      Recomputed c.world.db c.world.db.hasCompany (stats.map ProblemCompanyStat.entry) := by
  have htallies := tallies_companies hunique env.stats.rows
  have hfresh := htallies.fresh (nodup_companyMap env.stats c) env.stats.names
  -- The names to be inserted are companies of the table, so they fit into their column.
  have hnames : ∀ name ∈ env.stats.names.order (env.stats.companyMap c.world.db).names,
      name.length ≤ maxNameLength := by
    intro name hname
    obtain ⟨p, -, hhas⟩ := (htallies.names name).mp ((Arrangement.mem_order _).mp hname)
    obtain ⟨t, ht, hsame⟩ := List.any_eq_true.mp hhas
    obtain ⟨-, rfl⟩ := of_decide_eq_true hsame
    exact hfit t ht
  rw [rebuildCompanyStats_refill, henv.statsFind, if_neg Bool.false_ne_true]
  -- Of the ways in which the refill can end, those with a failing statement are out.
  rcases refill_run env.stats _ _ _ c with ⟨hdelete, -⟩ | ⟨-, hnil, hrun⟩ |
    ⟨-, -, ⟨-, -, hrun⟩ | ⟨hnot, -⟩⟩
  · rw [henv.statsDelete] at hdelete
    cases hdelete
  · exact ⟨[], hrun, hfresh.of_nil (List.map_eq_nil_iff.mpr hnil)⟩
  · refine ⟨env.stats.freshCompanies c.world.db, hrun, ?_⟩
    unfold StatsEnv.freshCompanies
    rw [companyStat_entries]
    exact hfresh
  · exact absurd ⟨henv.statsCreate, hnames⟩ hnot

/-- A rebuild that succeeds changes the catalogue only. -/
theorem rebuilding_ok {x : SeedingService Unit} {s : Seeded F} {a : Unit} {c : Catalogue}
    (h : x.run s.catalogue = (.ok a, c)) :
    (rebuilding x).run s = (.ok a, { s with catalogue := c }) := by
  unfold rebuilding
  dsimp only
  rw [h]

/-- What is stored was stored before, or comes from the rows. -/
theorem companyTags_foldl_write (rows : List (CompanyRow F)) (s : Seeded F) {t : ProblemCompanyTag}
    (ht : t ∈ (rows.foldl Seeded.write s).db.companyTags) :
    (∃ t' ∈ s.db.companyTags, t'.company = t.company) ∨ ∃ row ∈ rows, row.company = t.company := by
  unfold Seeded.db at ht
  rw [foldl_write_tags] at ht
  rcases mem_map_key_upsertAll _ (List.mem_map_of_mem (f := tagKey) ht) with hold | hnew
  · obtain ⟨t', ht', hsame⟩ := List.mem_map.mp hold
    exact Or.inl ⟨t', ht', congrArg Prod.snd hsame⟩
  · obtain ⟨_, htag, hsame⟩ := List.mem_map.mp hnew
    obtain ⟨row, hrow, rfl⟩ := List.mem_map.mp htag
    exact Or.inr ⟨row, hrow, congrArg Prod.snd hsame⟩

/-- Rows that can be accepted are written, and the statistics rebuilt. -/
theorem seedRows_accepted {env : CompanyEnv} (henv : env.Quiet) {rows : List (CompanyRow F)}
    (h : Acceptable rows) {s : Seeded F} (hunique : s.db.CompaniesUnique)
    (hstored : ∀ t ∈ s.db.companyTags, t.company.length ≤ maxNameLength) :
    ∃ s', (seedRows env rows).run s = (.ok (), s') ∧ SeededBy rows s s' := by
  -- The batches are the rows in their order, so that writing them is one fold over the rows.
  have hflatten : (batches batchSize rows).flatten = rows := flatten_batches (by decide) rows
  have hbatches := forEach_batches henv (n := 0) (s := s) h
  rw [hflatten] at hbatches
  have hwritten := foldl_write_tags rows s
  set s₁ := rows.foldl Seeded.write s with hs₁
  have htags : s₁.db.companyTags =
      upsertAll tagKey s.db.companyTags (rows.map CompanyRow.tag) := by
    unfold Seeded.db
    rw [hwritten]
    rfl
  have hunique₁ : s₁.db.CompaniesUnique := by
    show (s₁.db.companyTags.map tagKey).Nodup
    rw [htags]
    exact nodup_upsertAll _ hunique
  -- The rebuild that follows succeeds: pairs are unique, and all companies fit.
  have hfit : ∀ t ∈ s₁.db.companyTags, t.company.length ≤ maxNameLength := by
    intro t ht
    rcases companyTags_foldl_write rows s ht with ⟨t', ht', hsame⟩ | ⟨row, hrow, hsame⟩
    · rw [← hsame]
      exact hstored t' ht'
    · rw [← hflatten] at hrow
      obtain ⟨batch, hbatch, hrow⟩ := List.mem_flatten.mp hrow
      rw [← hsame]
      exact ((h batch hbatch).2 row hrow).1
  obtain ⟨stats, hstats, hfresh⟩ := rebuildCompanyStats_quiet henv hunique₁ hfit
  refine ⟨{ s₁ with catalogue := { s₁.catalogue with companyStats := stats } }, ?_, ?_⟩
  · unfold seedRows
    rw [Call.bind_ok hbatches]
    exact rebuilding_ok hstats
  · constructor
    -- The last row of a pair is the one that stays.
    case last =>
      intro before row after hrows hafter
      constructor
      · show rowsAt tagKey s₁.db.companyTags row.key = [row.tag]
        rw [htags, hrows, List.map_append, List.map_cons]
        refine rowsAt_upsertAll_last tagKey row.tag hunique fun t ht => ?_
        obtain ⟨row', hrow', rfl⟩ := List.mem_map.mp ht
        exact hafter row' hrow'
      · show s₁.frequency row.key = row.frequency
        rw [hs₁, hrows]
        exact foldl_write_last hafter s
    -- Pairs that no row names are as before.
    case others =>
      intro key hother
      constructor
      · show rowsAt tagKey s₁.db.companyTags key = _
        rw [htags]
        refine rowsAt_upsertAll_other _ fun t ht => ?_
        obtain ⟨row', hrow', rfl⟩ := List.mem_map.mp ht
        exact hother row' hrow'
      · exact foldl_write_other rows hother
    case world =>
      show s₁.catalogue.world = (s.catalogue.withCompanyTags s₁.db.companyTags).world
      rw [htags, hwritten]
    case tagStats =>
      show s₁.catalogue.tagStats = s.catalogue.tagStats
      rw [hwritten]
      rfl
    case stats => exact hfresh

end Write

/-- A seeding without failing operations does what it should exactly when no batch repeats a problem
and a company, and every company can be stored. -/
theorem seedCompanyProblems_iff {F : Type} (env : CompanyEnv) (henv : env.Quiet)
    (num : FloatFormat F) (lower : Char → Char) (text : List Char) (header : Csv.Record)
    (results : List (Except Csv.CsvError Csv.Record)) (columns : CompanyColumns)
    (hheader : readHeader text = .ok (header, results))
    (hcolumns : companyColumns lower header = .ok columns) (s : Seeded F)
    (hunique : s.db.CompaniesUnique) (hslugs : s.db.SlugsUnique)
    (hstored : ∀ t ∈ s.db.companyTags, t.company.length ≤ maxNameLength) :
    (∃ s', (seedCompanyProblems env num lower text).run s = (.ok (), s') ∧
        SeededBy (companyRows num s.db.slugID columns results) s s') ↔
      Acceptable (companyRows num s.db.slugID columns results) := by
  have hrun : (seedCompanyProblems env num lower text).run s =
      (seedRows env (companyRows num s.db.slugID columns results)).run s := by
    unfold seedCompanyProblems
    rw [henv.openFile, Call.io_false, hheader]
    dsimp only
    rw [hcolumns]
    dsimp only
    rw [henv.find, Call.io_false, Call.run_read_bind, slugMap_order hslugs]
  rw [hrun]
  constructor
  · rintro ⟨s', hseeded, -⟩
    by_contra hbad
    exact seedRows_refused env hbad s s' hseeded
  · exact fun haccept => seedRows_accepted henv haccept hunique hstored

/-- Nothing fails, and nothing is rearranged. -/
def CompanyEnv.quiet : CompanyEnv :=
  ⟨false, false, fun _ => false, .inserted Problem, .quiet⟩

/-- In the quiet environment nothing fails. -/
theorem CompanyEnv.quiet_quiet : CompanyEnv.quiet.Quiet := ⟨rfl, rfl, fun _ => rfl, rfl, rfl, rfl⟩

/-- Two problems, without companies. -/
def Seeded.twoProblems : Seeded ℕ := ⟨Catalogue.ofTags "Array" "String", fun _ => 0⟩

/-- The same problems, one of which a company asks. -/
def Seeded.oneTag : Seeded ℕ :=
  ⟨(Catalogue.ofTags "Array" "String").withCompanyTags [⟨2, "Acme", ["All"]⟩], fun _ => 7⟩

/-- A file with a new pair and one that is there. -/
def pairsFile : List Char := "Slug,Company\ntwo-sum,Hall\nthree-sum,Acme\n".toList

/-- A file that repeats a pair. -/
def repeatedPair : List Char := "Slug,Company\ntwo-sum,Hall\ntwo-sum,Hall\n".toList

/-- Of two pairs one is new and one is written over itself. -/
theorem seedCompanyProblems_pairsFile :
    ∃ s', (seedCompanyProblems .quiet wholeNumbers Char.toLower pairsFile).run .oneTag =
        (.ok (), s') ∧
      SeededBy [⟨1, "Hall", 0, []⟩, ⟨2, "Acme", 0, []⟩] Seeded.oneTag s' := by
  have hrows : companyRows wholeNumbers Seeded.oneTag.db.slugID ⟨0, 1, none, none⟩
      [.ok ["two-sum".toList, "Hall".toList], .ok ["three-sum".toList, "Acme".toList]] =
        [⟨1, "Hall", 0, []⟩, ⟨2, "Acme", 0, []⟩] := by
    decide +kernel
  have hcompanies : Seeded.oneTag.db.CompaniesUnique := by
    unfold DB.CompaniesUnique
    decide +kernel
  have hslugs : Seeded.oneTag.db.SlugsUnique := by
    unfold DB.SlugsUnique
    decide +kernel
  rw [← hrows]
  refine (seedCompanyProblems_iff .quiet CompanyEnv.quiet_quiet wholeNumbers Char.toLower pairsFile
    ["Slug".toList, "Company".toList]
    [.ok ["two-sum".toList, "Hall".toList], .ok ["three-sum".toList, "Acme".toList]]
    ⟨0, 1, none, none⟩ (by decide +kernel) (by decide +kernel) .oneTag hcompanies hslugs
    (by decide +kernel)).mpr ?_
  rw [hrows]
  unfold Acceptable
  decide +kernel

/-- The second row of the file touches the row that the first one has written. -/
theorem not_seeded_repeatedPair : ¬ ∃ s',
    (seedCompanyProblems .quiet wholeNumbers Char.toLower repeatedPair).run .twoProblems =
        (.ok (), s') ∧
      SeededBy [⟨1, "Hall", 0, []⟩, ⟨1, "Hall", 0, []⟩] Seeded.twoProblems s' := by
  rintro ⟨s', hrun, -⟩
  have hfails : ((seedCompanyProblems .quiet wholeNumbers Char.toLower repeatedPair).run
      .twoProblems).1 = .err (.other "failed to upsert company tags batch") := by
    decide +kernel
  rw [hrun] at hfails
  cases hfails

end Bsg.Central
