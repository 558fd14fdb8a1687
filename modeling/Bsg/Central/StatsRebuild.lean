import Bsg.Central.Seeding

/-!
# Rebuilding statistics, all or nothing

A rebuild that returns an error should leave the table of statistics as it was, and one that
succeeds should leave the fresh rows and no others (`Replaces`). The old rows are deleted by a
statement of its own, before the new ones are inserted, and nothing undoes that when the insertion
fails. So a rebuild is all or nothing exactly when the insertion is not what fails, or there was
nothing to lose (`Safe`).
-/

namespace Bsg.Central

open Bsg.Foundations

/-- The name of a row of statistics, and its counts. -/
abbrev StatEntry := String × Counter

def ProblemTagStat.entry (row : ProblemTagStat) : StatEntry := (row.tag, row.counter)

def ProblemCompanyStat.entry (row : ProblemCompanyStat) : StatEntry := (row.company, row.counter)

/-- Every problem is easy, medium or hard. -/
def DB.KnownDifficulties (db : DB) : Prop :=
  ∀ p ∈ db.problems.rows, p.difficulty ∈ [difficultyEasy, difficultyMedium, difficultyHard]

/-- There is one entry for each name that problems have, with the counts of these problems, and the
counts of the three difficulties add up when there are no others. -/
structure Recomputed (db : DB) (has : String → Problem → Bool) (entries : List StatEntry) : Prop where
  once : (entries.map Prod.fst).Nodup
  names : ∀ name, name ∈ entries.map Prod.fst ↔ ∃ p ∈ db.problems.rows, has name p = true
  counter : ∀ entry ∈ entries, entry.2 = db.counterOf (has entry.1)
  adds : db.KnownDifficulties → ∀ entry ∈ entries,
    entry.2.total = entry.2.easy + entry.2.medium + entry.2.hard

/-- A rebuild of the table that `table` reads leaves what is fresh when it returns, and the rows
that were there when it fails. -/
def Replaces {ρ : Type} (table : Catalogue → List ρ) (fresh : List ρ → Prop)
    (rebuild : SeedingService Unit) (c : Catalogue) : Prop :=
  ∀ o c', rebuild.run c = (o, c') →
    (o = .ok () → fresh (table c')) ∧ (∀ e, o = .err e → table c' = table c) ∧ o ≠ .panic

/-- The insertion works, as the names fit into their column; or it is not reached, since a statement
before it fails or no problem has a name; or the table was empty. -/
def Safe {ρ : Type} (env : StatsEnv) (db : DB) (has : String → Problem → Bool) (rows : List ρ) :
    Prop :=
  (env.create = false ∧ ∀ p ∈ db.problems.rows, ∀ name, has name p = true →
      name.length ≤ maxNameLength) ∨
    env.find = true ∨ env.delete = true ∨ (∀ p ∈ db.problems.rows, ∀ name, has name p = false) ∨
    rows = []

/-! ## The fresh rows -/

/-- Without other difficulties, the counts of the three add up. -/
theorem Counter.of_adds : ∀ {l : List String},
    (∀ d ∈ l, d ∈ [difficultyEasy, difficultyMedium, difficultyHard]) →
      (Counter.of l).total = (Counter.of l).easy + (Counter.of l).medium + (Counter.of l).hard
  | [], _ => rfl
  | d :: l, h => by
    -- Each problem counts once in the total and once under its difficulty.
    have ih := Counter.of_adds fun d' hd' => h d' (List.mem_cons_of_mem _ hd')
    have hd := h d List.mem_cons_self
    unfold Counter.of at ih ⊢
    simp only [List.length_cons, List.count_cons] at ih ⊢
    simp only [List.mem_cons, List.not_mem_nil, or_false] at hd
    rcases hd with rfl | rfl | rfl
    · have hone : (difficultyEasy == difficultyMedium) = false ∧
          (difficultyEasy == difficultyHard) = false := by decide
      rw [hone.1, hone.2]
      simp
      omega
    · have hone : (difficultyMedium == difficultyEasy) = false ∧
          (difficultyMedium == difficultyHard) = false := by decide
      rw [hone.1, hone.2]
      simp
      omega
    · have hone : (difficultyHard == difficultyEasy) = false ∧
          (difficultyHard == difficultyMedium) = false := by decide
      rw [hone.1, hone.2]
      simp
      omega

/-- No name is in the map twice. -/
theorem nodup_names : ∀ (rows : List (String × String)) (m : StatsMap), m.names.Nodup →
    (rows.foldl StatsMap.count m).names.Nodup
  | [], _, h => h
  | row :: rows, m, h => by
    refine nodup_names rows (m.count row) ?_
    unfold StatsMap.count
    split_ifs with hold
    · exact h
    · exact List.nodup_append_comm.mp (List.nodup_cons.mpr ⟨hold, h⟩)

/-- The entries of a map that tallies the problems are fresh, in any order. -/
theorem Tallies.fresh {db : DB} {has : String → Problem → Bool} {m : StatsMap}
    (h : Tallies db has m) (hnodup : m.names.Nodup) (names : Arrangement String) :
    Recomputed db has ((names.order m.names).map fun name => (name, m.counter name)) := by
  have hfirst : ((names.order m.names).map fun name => (name, m.counter name)).map Prod.fst =
      names.order m.names := by
    rw [List.map_map]
    exact List.map_id _
  -- The row of a name is the counter in the map, which has counted its problems.
  have hcounter : ∀ entry ∈ (names.order m.names).map fun name => (name, m.counter name),
      entry.2 = db.counterOf (has entry.1) := by
    intro entry hentry
    obtain ⟨name, -, rfl⟩ := List.mem_map.mp hentry
    exact h.counter name
  constructor
  case once =>
    rw [hfirst]
    exact (names.perm m.names).nodup_iff.mpr hnodup
  case names =>
    intro name
    rw [hfirst, Arrangement.mem_order]
    exact h.names name
  case counter => exact hcounter
  case adds =>
    intro hknown entry hentry
    rw [hcounter entry hentry]
    refine Counter.of_adds fun d hd => ?_
    obtain ⟨p, hp, rfl⟩ := List.mem_map.mp hd
    exact hknown p (List.mem_filter.mp hp).1

/-! ## A rebuild -/

section Refill

variable (env : StatsEnv) (names : List String) (clear write : Catalogue → Catalogue)

/-- What a rebuild does once it has counted: it deletes the old rows and inserts the new ones. -/
def refill : SeedingService Unit := do
  Call.io env.delete .io <| Call.write clear
  if names = [] then pure () else insertStats env names write

/-- Nothing happens when the deletion fails, and nothing but the deletion when the insertion does.
-/
theorem refill_run (c : Catalogue) :
    (env.delete = true ∧ (refill env names clear write).run c = (.err .io, c)) ∨
      (env.delete = false ∧ names = [] ∧ (refill env names clear write).run c = (.ok (), clear c)) ∨
      (env.delete = false ∧ names ≠ [] ∧
        ((env.create = false ∧ (∀ name ∈ names, name.length ≤ maxNameLength) ∧
            (refill env names clear write).run c = (.ok (), write (clear c))) ∨
          ¬ (env.create = false ∧ ∀ name ∈ names, name.length ≤ maxNameLength) ∧
            ∃ e, (refill env names clear write).run c = (.err e, clear c))) := by
  unfold refill
  cases hdelete : env.delete with
  | true => exact Or.inl ⟨rfl, rfl⟩
  | false =>
    rw [Call.io_false, Call.run_write_bind]
    -- Nothing is inserted when there are no names.
    by_cases hnames : names = []
    · rw [if_pos hnames]
      exact Or.inr (Or.inl ⟨rfl, hnames, rfl⟩)
    rw [if_neg hnames]
    refine Or.inr (Or.inr ⟨rfl, hnames, ?_⟩)
    unfold insertStats
    cases hcreate : env.create with
    | true => exact Or.inr ⟨fun h => Bool.noConfusion h.1, .io, rfl⟩
    | false =>
      rw [Call.io_false]
      -- The columns are of limited width, and one name that is too long refuses the whole INSERT.
      by_cases hfit : ∀ name ∈ names, name.length ≤ maxNameLength
      · rw [if_pos hfit]
        exact Or.inl ⟨rfl, hfit, rfl⟩
      · rw [if_neg hfit]
        exact Or.inr ⟨fun h => hfit h.2, _, rfl⟩

end Refill

/-- A rebuild that counts, clears the table and fills it with what is fresh replaces its rows
exactly when it is safe. -/
theorem replaces_iff {ρ : Type} {table : Catalogue → List ρ} {fresh : List ρ → Prop} {env : StatsEnv}
    {names : List String} {clear write : Catalogue → Catalogue} {rebuild : SeedingService Unit}
    {c : Catalogue} {has : String → Problem → Bool}
    (hrun : rebuild.run c =
      if env.find then (.err .io, c) else (refill env names clear write).run c)
    (hnames : ∀ name, name ∈ names ↔ ∃ p ∈ c.world.db.problems.rows, has name p = true)
    (hclear : table (clear c) = []) (hwrite : fresh (table (write (clear c))))
    (hempty : names = [] → fresh []) :
    Replaces table fresh rebuild c ↔ Safe env c.world.db has (table c) := by
  -- The names are those that problems have, so the condition can be said of the problems.
  have hfit : (∀ name ∈ names, name.length ≤ maxNameLength) ↔
      ∀ p ∈ c.world.db.problems.rows, ∀ name, has name p = true → name.length ≤ maxNameLength := by
    constructor
    · exact fun h p hp name hhas => h name ((hnames name).mpr ⟨p, hp, hhas⟩)
    · intro h name hname
      obtain ⟨p, hp, hhas⟩ := (hnames name).mp hname
      exact h p hp name hhas
  have hnone : names = [] ↔ ∀ p ∈ c.world.db.problems.rows, ∀ name, has name p = false := by
    rw [List.eq_nil_iff_forall_not_mem]
    constructor
    · intro h p hp name
      exact Bool.eq_false_iff.mpr fun hhas => h name ((hnames name).mpr ⟨p, hp, hhas⟩)
    · intro h name hname
      obtain ⟨p, hp, hhas⟩ := (hnames name).mp hname
      rw [h p hp name] at hhas
      cases hhas
  unfold Replaces Safe
  rw [hrun, ← hfit, ← hnone]
  cases hfind : env.find with
  | true =>
    refine iff_of_true ?_ (Or.inr (Or.inl rfl))
    rintro o c' ⟨⟩
    exact ⟨nofun, fun _ _ => rfl, nofun⟩
  | false =>
  rw [if_neg Bool.false_ne_true]
  rcases refill_run env names clear write c with
    ⟨hdelete, h⟩ | ⟨hdelete, hnil, h⟩ | ⟨hdelete, hsome, ⟨hcreate, hfits, h⟩ | ⟨hnot, e, h⟩⟩
  · rw [h]
    refine iff_of_true ?_ (Or.inr (Or.inr (Or.inl hdelete)))
    rintro o c' ⟨⟩
    exact ⟨nofun, fun _ _ => rfl, nofun⟩
  · rw [h]
    refine iff_of_true ?_ (Or.inr (Or.inr (Or.inr (Or.inl hnil))))
    rintro o c' ⟨⟩
    refine ⟨fun _ => ?_, nofun, nofun⟩
    rw [hclear]
    exact hempty hnil
  · rw [h]
    refine iff_of_true ?_ (Or.inl ⟨hcreate, hfits⟩)
    rintro o c' ⟨⟩
    exact ⟨fun _ => hwrite, nofun, nofun⟩
  · -- The old rows are gone, and there are no new ones.
    rw [h]
    constructor
    · intro hreplaces
      have hkept := (hreplaces _ _ rfl).2.1 e rfl
      rw [hclear] at hkept
      exact Or.inr (Or.inr (Or.inr (Or.inr hkept.symm)))
    · rintro (hworks | hfalse | hdelete' | hnil | hrows) o c' ⟨⟩
      · exact absurd hworks hnot
      · cases hfalse
      · rw [hdelete] at hdelete'
        cases hdelete'
      · exact absurd hnil hsome
      · exact ⟨nofun, fun _ _ => hclear.trans hrows.symm, nofun⟩

/-- The rows of tags are written from the names and the counts of a map. -/
theorem tagStat_entries (m : StatsMap) (names : List String) :
    (names.map (tagStat m)).map ProblemTagStat.entry = names.map fun name => (name, m.counter name) :=
  List.map_map

/-- The rows of companies are written from the names and the counts of a map. -/
theorem companyStat_entries (m : StatsMap) (names : List String) :
    (names.map (companyStat m)).map ProblemCompanyStat.entry =
      names.map fun name => (name, m.counter name) :=
  List.map_map

/-- What a rebuild of the statistics of tags counts. -/
def StatsEnv.tagMap (env : StatsEnv) (db : DB) : StatsMap :=
  (env.problems.order db.problems.rows).foldl
    (fun statsMap problem => countTags problem.difficulty problem.tags [] statsMap) .empty

/-- What a rebuild of the statistics of companies counts. -/
def StatsEnv.companyMap (env : StatsEnv) (db : DB) : StatsMap :=
  (env.rows.order db.companyRows).foldl StatsMap.count .empty

/-- The rows that a rebuild of the statistics of tags inserts. -/
def StatsEnv.freshTags (env : StatsEnv) (db : DB) : List ProblemTagStat :=
  (env.names.order (env.tagMap db).names).map (tagStat (env.tagMap db))

/-- The rows that a rebuild of the statistics of companies inserts. -/
def StatsEnv.freshCompanies (env : StatsEnv) (db : DB) : List ProblemCompanyStat :=
  (env.names.order (env.companyMap db).names).map (companyStat (env.companyMap db))

section Rebuilds

variable (env : StatsEnv) (c : Catalogue)

/-- No tag is counted under two rows. -/
theorem nodup_tagMap : (env.tagMap c.world.db).names.Nodup := by
  unfold StatsEnv.tagMap
  rw [foldl_countTags]
  exact nodup_names _ _ List.nodup_nil

/-- No company is counted under two rows. -/
theorem nodup_companyMap : (env.companyMap c.world.db).names.Nodup :=
  nodup_names _ _ List.nodup_nil

/-- The rebuild of the tags reads, and refills the table with what it counted. -/
theorem rebuildTagStats_refill : (rebuildTagStats env).run c =
    if env.find then (.err .io, c)
    else (refill env (env.names.order (env.tagMap c.world.db).names)
      (fun c => { c with tagStats := [] })
      (fun c' => { c' with tagStats := c'.tagStats ++ env.freshTags c.world.db })).run c := by
  unfold rebuildTagStats
  cases env.find with
  | true => rfl
  | false => rfl

/-- So does that of the companies. -/
theorem rebuildCompanyStats_refill : (rebuildCompanyStats env).run c =
    if env.find then (.err .io, c)
    else (refill env (env.names.order (env.companyMap c.world.db).names)
      (fun c => { c with companyStats := [] })
      (fun c' => { c' with companyStats := c'.companyStats ++ env.freshCompanies c.world.db })).run
        c := by
  unfold rebuildCompanyStats
  cases env.find with
  | true => rfl
  | false => rfl

/-- Without names, no rows are fresh. -/
theorem Recomputed.of_nil {db : DB} {has : String → Problem → Bool} {entries : List StatEntry}
    (h : Recomputed db has entries) (hnil : entries = []) : Recomputed db has [] := hnil ▸ h

/-- A rebuild of the statistics of tags is all or nothing exactly when it is safe. -/
theorem rebuildTagStats_replaces :
    Replaces Catalogue.tagStats (fun rows => Recomputed c.world.db hasTag (rows.map (·.entry)))
      (rebuildTagStats env) c ↔ Safe env c.world.db hasTag c.tagStats := by
  have htallies := tallies_tags c.world.db env.problems
  have hfresh := htallies.fresh (nodup_tagMap env c) env.names
  have hrows : Recomputed c.world.db hasTag ((env.freshTags c.world.db).map (·.entry)) := by
    unfold StatsEnv.freshTags
    rw [tagStat_entries]
    exact hfresh
  refine replaces_iff (rebuildTagStats_refill env c) ?_ rfl ?_ ?_
  · intro name
    rw [Arrangement.mem_order]
    exact htallies.names name
  · exact hrows
  · intro hnil
    exact hfresh.of_nil (List.map_eq_nil_iff.mpr hnil)

/-- A rebuild of the statistics of companies is all or nothing exactly when it is safe. -/
theorem rebuildCompanyStats_replaces (hunique : c.world.db.CompaniesUnique) :
    Replaces Catalogue.companyStats
        (fun rows => Recomputed c.world.db c.world.db.hasCompany (rows.map (·.entry)))
        (rebuildCompanyStats env) c ↔
      Safe env c.world.db c.world.db.hasCompany c.companyStats := by
  have htallies := tallies_companies hunique env.rows
  have hfresh := htallies.fresh (nodup_companyMap env c) env.names
  have hrows : Recomputed c.world.db c.world.db.hasCompany
      ((env.freshCompanies c.world.db).map (·.entry)) := by
    unfold StatsEnv.freshCompanies
    rw [companyStat_entries]
    exact hfresh
  refine replaces_iff (rebuildCompanyStats_refill env c) ?_ rfl ?_ ?_
  · intro name
    rw [Arrangement.mem_order]
    exact htallies.names name
  · exact hrows
  · intro hnil
    exact hfresh.of_nil (List.map_eq_nil_iff.mpr hnil)

end Rebuilds

/-- Both rebuilds are all or nothing exactly when they are safe. -/
theorem replacesStats_iff (env : StatsEnv) (c : Catalogue) (hunique : c.world.db.CompaniesUnique) :
    (Replaces Catalogue.tagStats (fun rows => Recomputed c.world.db hasTag (rows.map (·.entry)))
        (rebuildTagStats env) c ↔ Safe env c.world.db hasTag c.tagStats) ∧
      (Replaces Catalogue.companyStats
          (fun rows => Recomputed c.world.db c.world.db.hasCompany (rows.map (·.entry)))
          (rebuildCompanyStats env) c ↔
        Safe env c.world.db c.world.db.hasCompany c.companyStats) :=
  ⟨rebuildTagStats_replaces env c, rebuildCompanyStats_replaces env c hunique⟩

/-- Two problems that a company asks, and statistics that are out of date. -/
def Catalogue.outdated : Catalogue where
  world := { (Catalogue.ofTags "Array" "String").world with
    db := { (Catalogue.ofTags "Array" "String").world.db with
      companyTags := [⟨1, "Acme", []⟩, ⟨2, "Acme", []⟩] } }
  tagStats := [⟨"Tree", 4, 3, 1, 0⟩]
  companyStats := [⟨"Hall", 2, 0, 1, 1⟩]

/-- All names fit into their column. -/
theorem replacesStats_outdated :
    Replaces Catalogue.tagStats
        (fun rows => Recomputed Catalogue.outdated.world.db hasTag (rows.map (·.entry)))
        (rebuildTagStats .quiet) Catalogue.outdated ∧
      Replaces Catalogue.companyStats
        (fun rows => Recomputed Catalogue.outdated.world.db Catalogue.outdated.world.db.hasCompany
          (rows.map (·.entry)))
        (rebuildCompanyStats .quiet) Catalogue.outdated := by
  have hunique : Catalogue.outdated.world.db.CompaniesUnique := by
    unfold DB.CompaniesUnique
    decide +kernel
  obtain ⟨htags, hcompanies⟩ := replacesStats_iff .quiet Catalogue.outdated hunique
  refine ⟨htags.mpr (Or.inl ⟨rfl, fun p hp name hname => ?_⟩),
    hcompanies.mpr (Or.inl ⟨rfl, fun p _ name hname => ?_⟩)⟩
  · have hall : ∀ p ∈ Catalogue.outdated.world.db.problems.rows, ∀ t ∈ p.tags.map trimTag,
        t.length ≤ maxNameLength := by decide +kernel
    unfold hasTag at hname
    rw [Bool.and_eq_true] at hname
    exact hall p hp name (List.contains_iff_mem.mp hname.2)
  · have hall : ∀ t ∈ Catalogue.outdated.world.db.companyTags, t.company.length ≤ maxNameLength := by
      decide +kernel
    obtain ⟨t, ht, hsame⟩ := List.any_eq_true.mp hname
    rw [← (of_decide_eq_true hsame).2]
    exact hall t ht

/-- The statement that inserts fails. -/
def StatsEnv.noCreate : StatsEnv := { StatsEnv.quiet with create := true }

/-- The INSERT fails, and the statistics that were there are gone. -/
theorem not_replaces_noCreate :
    ¬ Replaces Catalogue.tagStats
        (fun rows => Recomputed (Catalogue.ofTags "Array" "String").rebuilt.world.db hasTag
          (rows.map (·.entry)))
        (rebuildTagStats .noCreate) (Catalogue.ofTags "Array" "String").rebuilt := by
  intro h
  have hrun : (rebuildTagStats .noCreate).run (Catalogue.ofTags "Array" "String").rebuilt =
      (.err .io, { (Catalogue.ofTags "Array" "String").rebuilt with tagStats := [] }) := rfl
  have hkept : [] = (Catalogue.ofTags "Array" "String").rebuilt.tagStats :=
    (h _ _ hrun).2.1 .io rfl
  revert hkept
  decide +kernel

end Bsg.Central
