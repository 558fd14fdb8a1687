import Bsg.Central.Selecting

/-!
# Generating problem sets

`generateProblemsetAnyDifficulty` and `generateProblemsetByDifficultyParameters` choose problems at
random from the pool of those that match the filters. With `countAvailableProblems`, which counts
the pool on a path of its own, they should add up: a set is found when the pool is large enough, it
has the size asked for, and the fallback is reported when it was needed (`Generates`).

`generates_iff` says that they do, for all counts that are not negative, except where the sum of the
three counts is too large for a 64-bit integer: the code then works with another total.
-/

namespace Bsg.Central

open Bsg.Foundations

/-- `CountAvailableProblems`; no difficulties stand for any. -/
def countAvailableProblems (env : Env) (filter : ProblemFilter) (difficulties : List String) :
    Service ℕ :=
  .io (env.fails .countProblems) .io <| Call.read fun w => w.db.countProblems fun p =>
    (difficulties.isEmpty || difficulties.contains p.difficulty) &&
      (filter.strict env w.db p && filter.recent env w.db p)

/-- The problems that match the filters, whatever their difficulty and recency. -/
def DB.pool (db : DB) (env : Env) (filter : ProblemFilter) : List Problem :=
  db.problems.rows.filter (filter.strict env db)

/-- How many problems of the pool were asked recently, as far as the request wants that. -/
def DB.recentlyAsked (db : DB) (env : Env) (filter : ProblemFilter) : ℕ :=
  db.countProblems fun p => filter.strict env db p && filter.recent env db p

/-- How many of them have a difficulty. -/
def DB.recentlyAskedOf (db : DB) (env : Env) (filter : ProblemFilter) (difficulty : String) : ℕ :=
  db.countProblems fun p =>
    decide (p.difficulty = difficulty) && filter.strict env db p && filter.recent env db p

/-- What a request for problems should lead to: `demanded` problems of the pool, without repeats and
without a fallback when the problems asked recently meet the demand (`met`). -/
structure Generates (env : Env) (filter : ProblemFilter) (demanded : ℤ) (met : Prop) (w : World)
    (x : Service (List Problem × Bool)) : Prop where
  /-- The pool is what is counted for it. -/
  counted : (countAvailableProblems env { filter with recentlyAsked := false } []).run w =
    (.ok (w.db.pool env filter).length, w)
  succeeds : (∃ problems fallbackUsed, x.run w = (.ok (problems, fallbackUsed), w)) ↔
    demanded ≤ (w.db.pool env filter).length
  size : ∀ problems fallbackUsed w', x.run w = (.ok (problems, fallbackUsed), w') →
    (problems.length : ℤ) = demanded
  distinct : ∀ problems fallbackUsed w', x.run w = (.ok (problems, fallbackUsed), w') →
    problems.Nodup
  fromPool : ∀ problems fallbackUsed w', x.run w = (.ok (problems, fallbackUsed), w') →
    ∀ p ∈ problems, p ∈ w.db.pool env filter
  fallback : ∀ problems fallbackUsed w', x.run w = (.ok (problems, fallbackUsed), w') →
    (fallbackUsed = false ↔ met)

/-- As many problems of a difficulty as were asked for are selected, if there are so many that were
asked recently; otherwise at least those. -/
def ServesDifficulty (env : Env) (filter : ProblemFilter) (difficulty : String) (n : ℤ) (w : World)
    (x : Service (List Problem × Bool)) : Prop :=
  ∀ problems fallbackUsed w', x.run w = (.ok (problems, fallbackUsed), w') →
    min n (w.db.recentlyAskedOf env filter difficulty) ≤
      (problems.filter fun p => decide (p.difficulty = difficulty)).length

/-- The total of a request, as an integer without bounds. -/
def DifficultyParameter.total (params : DifficultyParameter) : ℤ :=
  params.numEasyProblems + params.numMediumProblems + params.numHardProblems

/-- Enough problems of each difficulty were asked recently. -/
def DifficultyParameter.Met (params : DifficultyParameter) (env : Env) (db : DB) : Prop :=
  params.numEasyProblems ≤ db.recentlyAskedOf env params.filter difficultyEasy ∧
    params.numMediumProblems ≤ db.recentlyAskedOf env params.filter difficultyMedium ∧
    params.numHardProblems ≤ db.recentlyAskedOf env params.filter difficultyHard

/-- What a request by difficulty should lead to. -/
structure GeneratesByDifficulty (env : Env) (params : DifficultyParameter) (w : World) : Prop where
  generates : Generates env params.filter params.total (params.Met env w.db) w
    (generateProblemsetByDifficultyParameters env params)
  easy : ServesDifficulty env params.filter difficultyEasy params.numEasyProblems w
    (generateProblemsetByDifficultyParameters env params)
  medium : ServesDifficulty env params.filter difficultyMedium params.numMediumProblems w
    (generateProblemsetByDifficultyParameters env params)
  hard : ServesDifficulty env params.filter difficultyHard params.numHardProblems w
    (generateProblemsetByDifficultyParameters env params)

/-! ## The pool -/

section Pool

variable {env : Env} {filter : ProblemFilter} {db : DB} {w : World}

/-- The count is that of the rows that meet the filters. -/
theorem countAvailableProblems_run (h : env.fails .countProblems = false)
    (difficulties : List String) :
    (countAvailableProblems env filter difficulties).run w = (.ok (w.db.countProblems fun p =>
      (difficulties.isEmpty || difficulties.contains p.difficulty) &&
        (filter.strict env w.db p && filter.recent env w.db p)), w) := by
  unfold countAvailableProblems
  rw [h]
  rfl

/-- Without a wish for recency and with no difficulties, the pool is counted. -/
theorem countAvailableProblems_pool (h : env.fails .countProblems = false) :
    (countAvailableProblems env { filter with recentlyAsked := false } []).run w =
      (.ok (w.db.pool env filter).length, w) := by
  rw [countAvailableProblems_run h]
  have hsame : (fun p => (([] : List String).isEmpty || ([] : List String).contains p.difficulty) &&
      (ProblemFilter.strict env w.db { filter with recentlyAsked := false } p &&
        ProblemFilter.recent env w.db { filter with recentlyAsked := false } p)) =
      filter.strict env w.db := by
    funext p
    have hrecent : ProblemFilter.recent env w.db { filter with recentlyAsked := false } p = true := rfl
    rw [hrecent, Bool.and_true]
    rfl
  rw [hsame]
  rfl

/-- Problems that were recently asked are among those of the pool. -/
theorem DB.recentlyAsked_le_pool (db : DB) (env : Env) (filter : ProblemFilter) :
    db.recentlyAsked env filter ≤ (db.pool env filter).length := by
  have hsub := (List.filter_sublist (l := db.pool env filter) (p := filter.recent env db)).length_le
  have hsame : (db.pool env filter).filter (filter.recent env db) =
      db.problems.rows.filter fun p => filter.strict env db p && filter.recent env db p := by
    unfold DB.pool
    rw [List.filter_filter]
    exact List.filter_congr fun p _ => Bool.and_comm _ _
  rw [hsame] at hsub
  exact hsub

end Pool

/-! ## Filling up a selection -/

/-- A selection after the fallback. -/
def DB.filledUp (db : DB) (env : Env) (needed : Prop) [Decidable needed] (count : ℤ)
    (filter : ProblemFilter) (selected : List Problem) : List Problem :=
  if needed then
    selected ++ db.query env 3 (count - selected.length) fun db p =>
      filter.strict env db p && notSelected selected p
  else selected

section FilledUp

variable {env : Env} {needed : Prop} [Decidable needed] {count : ℤ} {filter : ProblemFilter}
  {selected : List Problem} {db : DB} {w : World}

/-- The fallback fills the selection up from the pool. -/
theorem fallback_run (needed : Prop) [Decidable needed] (count : ℤ) (filter : ProblemFilter)
    (selected : List Problem) (w : World) (h : env.fails (.findProblems 3) = false) :
    (fallback env needed count filter selected).run w =
      (.ok (w.db.filledUp env needed count filter selected), w) := by
  unfold fallback DB.filledUp
  by_cases hneeded : needed
  · rw [if_pos hneeded, if_pos hneeded, Call.bind_ok (findProblems_run h)]
    rfl
  · rw [if_neg hneeded, if_neg hneeded]
    rfl

/-- What was selected first stays. -/
theorem DB.prefix_filledUp : selected <+: db.filledUp env needed count filter selected := by
  unfold DB.filledUp
  split_ifs
  · exact List.prefix_append _ _
  · exact List.prefix_rfl

/-- What is filled up is of the pool. -/
theorem DB.mem_filledUp (h : ∀ p ∈ selected, p ∈ db.pool env filter) {p : Problem}
    (hp : p ∈ db.filledUp env needed count filter selected) : p ∈ db.pool env filter := by
  unfold DB.filledUp at hp
  split_ifs at hp
  · rcases List.mem_append.mp hp with hp | hp
    · exact h p hp
    · obtain ⟨hrow, hcond⟩ := DB.mem_query hp
      exact List.mem_filter.mpr ⟨hrow, (Bool.and_eq_true_iff.mp hcond).1⟩
  · exact h p hp

/-- The fallback does not repeat what was selected. -/
theorem DB.nodup_filledUp (h : selected.Nodup) :
    (db.filledUp env needed count filter selected).Nodup := by
  unfold DB.filledUp
  split_ifs
  · refine List.nodup_append.mpr ⟨h, DB.query_nodup, ?_⟩
    rintro p hp _ hp' rfl
    obtain ⟨-, hcond⟩ := DB.mem_query hp'
    have hnot : notSelected selected p = true := (Bool.and_eq_true_iff.mp hcond).2
    have hmem : p.id ∈ selected.map Problem.id := List.mem_map_of_mem hp
    unfold notSelected at hnot
    simp [hmem] at hnot
  · exact h

/-- The size of a selection after the fallback. -/
theorem DB.length_filledUp (db : DB) (env : Env) (hneeded : needed → (selected.length : ℤ) < count)
    (hnodup : selected.Nodup) (h : ∀ p ∈ selected, p ∈ db.pool env filter) :
    ((db.filledUp env needed count filter selected).length : ℤ) =
      if needed then min count (db.pool env filter).length else selected.length := by
  unfold DB.filledUp
  by_cases hn : needed
  · rw [if_pos hn, if_pos hn]
    exact db.length_fallback (q := fun db => filter.strict env db) hnodup
      (fun p hp => List.mem_filter.mp (h p hp)) (hneeded hn)
  · rw [if_neg hn, if_neg hn]

end FilledUp

/-! ## Problems of any difficulty -/

section AnyDifficulty

variable {env : Env} {count : ℤ} {filter : ProblemFilter} {w : World}

/-- The problems found at first: those that were asked recently, as far as the request wants it. -/
def DB.queryAny (db : DB) (env : Env) (count : ℤ) (filter : ProblemFilter) : List Problem :=
  db.query env 0 count fun db p => filter.strict env db p && filter.recent env db p

/-- Recency is dropped when there are too few problems and it mattered. -/
def DB.relaxed (db : DB) (env : Env) (count : ℤ) (filter : ProblemFilter) : Prop :=
  ((db.queryAny env count filter).length : ℤ) < count ∧ filter.recentlyAsked = true ∧
    normalizeTags filter.companies ≠ []

instance (db : DB) (env : Env) (count : ℤ) (filter : ProblemFilter) :
    Decidable (db.relaxed env count filter) :=
  inferInstanceAs (Decidable (_ ∧ _ ∧ _))

/-- What a request for problems of any difficulty collects. -/
def DB.collectedAny (db : DB) (env : Env) (count : ℤ) (filter : ProblemFilter) : List Problem :=
  db.filledUp env (db.relaxed env count filter) count filter (db.queryAny env count filter)

/-- What the query for any difficulty finds is of the pool. -/
theorem DB.mem_queryAny {db : DB} {p : Problem} (h : p ∈ db.queryAny env count filter) :
    p ∈ db.pool env filter := by
  obtain ⟨hrow, hcond⟩ := DB.mem_query h
  exact List.mem_filter.mpr ⟨hrow, (Bool.and_eq_true_iff.mp hcond).1⟩

/-- The query for any difficulty finds as many as were recently asked, up to the count. -/
theorem DB.length_queryAny (db : DB) (env : Env) (filter : ProblemFilter) (hcount : 0 ≤ count) :
    ((db.queryAny env count filter).length : ℤ) = min count (db.recentlyAsked env filter) := by
  have hlength : ((db.queryAny env count filter).length : ℤ) = _ := db.length_query
  rw [hlength, upTo, if_neg (by omega)]
  rfl

/-- Where recency does not matter, all problems of the pool count as asked recently. -/
theorem DB.recentlyAsked_eq_pool (db : DB) (env : Env) {filter : ProblemFilter}
    (h : ¬ (filter.recentlyAsked = true ∧ normalizeTags filter.companies ≠ [])) :
    db.recentlyAsked env filter = (db.pool env filter).length := by
  have hrecent : ∀ p, filter.recent env db p = true := by
    intro p
    unfold ProblemFilter.recent
    cases hasked : filter.recentlyAsked with
    | false => rfl
    | true =>
      have hnone : normalizeTags filter.companies = [] := by
        by_contra hsome
        exact h ⟨hasked, hsome⟩
      rw [hnone]
      rfl
  unfold DB.recentlyAsked DB.countProblems DB.pool
  congr 1
  refine List.filter_congr fun p _ => ?_
  rw [hrecent p, Bool.and_true]

/-- As many problems are found as were asked for, as far as the pool has them. -/
theorem DB.length_collectedAny (db : DB) (env : Env) (filter : ProblemFilter)
    (hcount : 0 ≤ count) :
    ((db.collectedAny env count filter).length : ℤ) =
      min count (db.pool env filter).length := by
  have hquery := db.length_queryAny env filter hcount
  have hle := db.recentlyAsked_le_pool env filter
  have hneeded : db.relaxed env count filter →
      ((db.queryAny env count filter).length : ℤ) < count := fun h => h.1
  have hnodup : (db.queryAny env count filter).Nodup := DB.query_nodup
  unfold DB.collectedAny
  rw [db.length_filledUp env hneeded hnodup fun p => DB.mem_queryAny]
  split_ifs with hrelaxed
  · rfl
  · -- Either there were enough, or recency made no difference.
    by_cases hless : ((db.queryAny env count filter).length : ℤ) < count
    · have hsame := db.recentlyAsked_eq_pool env fun h => hrelaxed ⟨hless, h⟩
      omega
    · omega

/-- Recency is dropped when there are enough problems only without it. -/
theorem DB.relaxed_iff {db : DB} (hcount : 0 ≤ count) (henough : count ≤ (db.pool env filter).length) :
    db.relaxed env count filter ↔ ¬ count ≤ db.recentlyAsked env filter := by
  have hquery := db.length_queryAny env filter hcount
  unfold DB.relaxed
  rw [hquery]
  constructor
  · rintro ⟨hless, -⟩
    omega
  · intro hfew
    refine ⟨by omega, ?_⟩
    by_contra hwish
    have hsame := db.recentlyAsked_eq_pool env hwish
    omega

/-- The call returns what it collects when that is enough. -/
theorem generateProblemsetAnyDifficulty_run (h : ∀ op, env.fails op = false) (count : ℤ)
    (filter : ProblemFilter) (w : World) :
    (((w.db.collectedAny env count filter).length : ℤ) < count ∧
      ∃ e, (generateProblemsetAnyDifficulty env count filter).run w = (.err e, w)) ∨
    (¬ ((w.db.collectedAny env count filter).length : ℤ) < count ∧
      (generateProblemsetAnyDifficulty env count filter).run w =
        (.ok (w.db.collectedAny env count filter, decide (w.db.relaxed env count filter)), w)) := by
  have hfirst : (findProblems env 0 count fun db p =>
      filter.strict env db p && filter.recent env db p).run w =
        (.ok (w.db.queryAny env count filter), w) := findProblems_run (h _)
  have hfallback := fallback_run (w.db.relaxed env count filter) count filter
    (w.db.queryAny env count filter) w (h (.findProblems 3))
  unfold generateProblemsetAnyDifficulty
  rw [Call.bind_ok hfirst]
  by_cases hfew : ((w.db.collectedAny env count filter).length : ℤ) < count
  · refine Or.inl ⟨hfew, ?error, (Call.bind_ok hfallback _).trans ?run⟩
    case run => exact congrArg (fun x : Service _ => x.run w) (if_pos hfew)
  · refine Or.inr ⟨hfew, (Call.bind_ok hfallback _).trans ?_⟩
    exact congrArg (fun x : Service _ => x.run w) (if_neg hfew)

/-- A request for problems of any difficulty leads to what it should. -/
theorem generates_any (h : ∀ op, env.fails op = false) (hcount : 0 ≤ count) :
    Generates env filter count (count ≤ w.db.recentlyAsked env filter) w
      (generateProblemsetAnyDifficulty env count filter) := by
  have hrun := generateProblemsetAnyDifficulty_run h count filter w
  have hlength := w.db.length_collectedAny env filter hcount
  -- What a successful run has returned: enough problems of the pool, and whether it relaxed.
  have hcollected : ∀ problems fallbackUsed w',
      (generateProblemsetAnyDifficulty env count filter).run w =
        (.ok (problems, fallbackUsed), w') →
      count ≤ (w.db.pool env filter).length ∧ problems = w.db.collectedAny env count filter ∧
        fallbackUsed = decide (w.db.relaxed env count filter) := by
    intro problems fallbackUsed w' heq
    rcases hrun with ⟨-, e, herr⟩ | ⟨hfew, hok⟩
    · rw [herr] at heq
      cases heq
    · rw [hok] at heq
      cases heq
      exact ⟨by omega, rfl, rfl⟩
  constructor
  case counted => exact countAvailableProblems_pool (h _)
  case succeeds =>
    constructor
    · rintro ⟨problems, fallbackUsed, heq⟩
      exact (hcollected _ _ _ heq).1
    · intro henough
      rcases hrun with ⟨hfew, -⟩ | ⟨-, hok⟩
      · omega
      · exact ⟨_, _, hok⟩
  case size =>
    intro problems fallbackUsed w' heq
    obtain ⟨henough, rfl, -⟩ := hcollected _ _ _ heq
    omega
  case distinct =>
    intro problems fallbackUsed w' heq
    obtain ⟨-, rfl, -⟩ := hcollected _ _ _ heq
    exact DB.nodup_filledUp DB.query_nodup
  case fromPool =>
    intro problems fallbackUsed w' heq
    obtain ⟨-, rfl, -⟩ := hcollected _ _ _ heq
    exact fun p => DB.mem_filledUp fun p => DB.mem_queryAny
  case fallback =>
    intro problems fallbackUsed w' heq
    obtain ⟨henough, -, rfl⟩ := hcollected _ _ _ heq
    rw [decide_eq_false_iff_not, DB.relaxed_iff hcount henough, not_not]

end AnyDifficulty

/-! ## Problems by difficulty -/

section ByDifficulty

variable {env : Env} {params : DifficultyParameter} {w : World}

/-- The problems found at first: those of each difficulty that were asked recently. -/
def DB.queryEach (db : DB) (env : Env) (params : DifficultyParameter) : List Problem :=
  db.queryDifficulty env 0 difficultyEasy params.numEasyProblems params.filter ++
    db.queryDifficulty env 1 difficultyMedium params.numMediumProblems params.filter ++
    db.queryDifficulty env 2 difficultyHard params.numHardProblems params.filter

/-- The total that the code computes. -/
def DifficultyParameter.requestedTotal (params : DifficultyParameter) : ℤ := int64 params.total

/-- What a request by difficulty collects. -/
def DB.collectedEach (db : DB) (env : Env) (params : DifficultyParameter) : List Problem :=
  db.filledUp env (((db.queryEach env params).length : ℤ) < params.requestedTotal)
    params.requestedTotal params.filter (db.queryEach env params)

/-- None of the counts of a request is negative. -/
structure DifficultyParameter.Nonneg (params : DifficultyParameter) : Prop where
  easy : 0 ≤ params.numEasyProblems
  medium : 0 ≤ params.numMediumProblems
  hard : 0 ≤ params.numHardProblems

/-- What is asked for does not exceed the total. -/
theorem DifficultyParameter.Nonneg.requestedTotal_le (h : params.Nonneg) :
    params.requestedTotal ≤ params.total := by
  have heasy := h.easy
  have hmedium := h.medium
  have hhard := h.hard
  refine int64_le ?_
  unfold DifficultyParameter.total
  omega

/-- What the queries for each difficulty find is of the pool. -/
theorem DB.mem_queryEach {db : DB} {p : Problem} (h : p ∈ db.queryEach env params) :
    p ∈ db.pool env params.filter := by
  have hmem : p ∈ db.problems.rows ∧ params.filter.strict env db p = true := by
    unfold DB.queryEach at h
    simp only [List.mem_append] at h
    rcases h with (h | h) | h <;> exact (DB.mem_queryDifficulty h).1
  exact List.mem_filter.mpr hmem

/-- The query for a difficulty finds as many of it as were recently asked, up to the count. -/
theorem DB.length_queryDifficulty (db : DB) (env : Env) (k : ℕ) (difficulty : String) {n : ℤ}
    (filter : ProblemFilter) (hn : 0 ≤ n) :
    ((db.queryDifficulty env k difficulty n filter).length : ℤ) =
      min n (db.recentlyAskedOf env filter difficulty) := by
  unfold DB.queryDifficulty
  rw [DB.length_query, upTo, if_neg (by omega)]
  rfl

/-- What is found at first is, difficulty by difficulty, what was asked for as far as it exists. -/
theorem DB.length_queryEach (db : DB) (env : Env) (h : params.Nonneg) :
    ((db.queryEach env params).length : ℤ) =
      min params.numEasyProblems (db.recentlyAskedOf env params.filter difficultyEasy) +
        min params.numMediumProblems (db.recentlyAskedOf env params.filter difficultyMedium) +
        min params.numHardProblems (db.recentlyAskedOf env params.filter difficultyHard) := by
  unfold DB.queryEach
  rw [List.length_append, List.length_append, Nat.cast_add, Nat.cast_add,
    db.length_queryDifficulty env 0 _ _ h.easy, db.length_queryDifficulty env 1 _ _ h.medium,
    db.length_queryDifficulty env 2 _ _ h.hard]

/-- At most as many as were asked for are found at first, and all of them when enough were asked
recently. -/
theorem DB.length_queryEach_le (db : DB) (env : Env) (h : params.Nonneg) :
    ((db.queryEach env params).length : ℤ) ≤ params.total ∧
      (((db.queryEach env params).length : ℤ) = params.total ↔ params.Met env db) := by
  have hlength := db.length_queryEach env h
  unfold DifficultyParameter.total DifficultyParameter.Met
  omega

/-- They are among the pool, without repeats, so there are no more than the pool has. -/
theorem DB.length_queryEach_le_pool (db : DB) (env : Env) (params : DifficultyParameter) :
    (db.queryEach env params).length ≤ (db.pool env params.filter).length := by
  have hnodup : (db.queryEach env params).Nodup := DB.nodup_difficulties
  exact (List.subperm_of_subset hnodup fun p => DB.mem_queryEach).length_le

/-- The selection is filled up when the queries found too few. -/
theorem DB.length_collectedEach (db : DB) (env : Env) (params : DifficultyParameter) :
    ((db.collectedEach env params).length : ℤ) =
      if ((db.queryEach env params).length : ℤ) < params.requestedTotal then
        min params.requestedTotal (db.pool env params.filter).length
      else (db.queryEach env params).length :=
  db.length_filledUp env id DB.nodup_difficulties fun _ => DB.mem_queryEach

/-- What is collected of a difficulty is at least what was found of it at first. -/
theorem DB.servesDifficulty {k : ℕ} {difficulty : String} {n : ℤ} {db : DB} (hn : 0 ≤ n)
    (hfound : (db.queryDifficulty env k difficulty n params.filter).Sublist
      (db.queryEach env params)) :
    min n (db.recentlyAskedOf env params.filter difficulty) ≤
      ((db.collectedEach env params).filter fun p => decide (p.difficulty = difficulty)).length := by
  have hlength := db.length_queryDifficulty env k difficulty params.filter hn
  have hprefix : db.queryEach env params <+: db.collectedEach env params := DB.prefix_filledUp
  have hsub := (hfound.trans hprefix.sublist).filter fun p => decide (p.difficulty = difficulty)
  have hall : (db.queryDifficulty env k difficulty n params.filter).filter
      (fun p => decide (p.difficulty = difficulty)) =
      db.queryDifficulty env k difficulty n params.filter := by
    refine List.filter_eq_self.mpr fun p hp => ?_
    exact decide_eq_true (DB.mem_queryDifficulty hp).2
  rw [hall] at hsub
  have hle := hsub.length_le
  omega

/-- The call returns what it collects when that is as much as it computed. -/
theorem generateProblemsetByDifficultyParameters_run (h : ∀ op, env.fails op = false)
    (params : DifficultyParameter) (w : World) :
    (((w.db.collectedEach env params).length : ℤ) < params.requestedTotal ∧
      ∃ e, (generateProblemsetByDifficultyParameters env params).run w = (.err e, w)) ∨
    (¬ ((w.db.collectedEach env params).length : ℤ) < params.requestedTotal ∧
      ∃ fallbackUsed, (generateProblemsetByDifficultyParameters env params).run w =
        (.ok (w.db.collectedEach env params, fallbackUsed), w) ∧
        (fallbackUsed = false ↔
          ¬ ((w.db.queryEach env params).length : ℤ) < params.requestedTotal ∧
            params.numEasyProblems ≤ (w.db.queryDifficulty env 0 difficultyEasy
              params.numEasyProblems params.filter).length ∧
            params.numMediumProblems ≤ (w.db.queryDifficulty env 1 difficultyMedium
              params.numMediumProblems params.filter).length ∧
            params.numHardProblems ≤ (w.db.queryDifficulty env 2 difficultyHard
              params.numHardProblems params.filter).length)) := by
  -- The three queries find what they would find by themselves, in one transaction.
  have heach : (Call.transaction rollback (findEachDifficulty env params)).run w = (.ok
      (w.db.queryDifficulty env 0 difficultyEasy params.numEasyProblems params.filter,
        w.db.queryDifficulty env 1 difficultyMedium params.numMediumProblems params.filter,
        w.db.queryDifficulty env 2 difficultyHard params.numHardProblems params.filter), w) := by
    rcases (looks_findEachDifficulty params).transaction with ⟨hops, found, hrun⟩ | ⟨hnot, -⟩
    · rw [findEachDifficulty_eq hrun hops] at hrun
      exact hrun
    · exact absurd (fun op _ => h op) hnot
  have hfallback := fallback_run
    (((w.db.queryEach env params).length : ℤ) < params.requestedTotal) params.requestedTotal
    params.filter (w.db.queryEach env params) w (h (.findProblems 3))
  unfold generateProblemsetByDifficultyParameters
  rw [Call.bind_ok heach]
  -- The total is checked after the fallback, by the number that the code computes.
  by_cases hfew : ((w.db.collectedEach env params).length : ℤ) < params.requestedTotal
  · refine Or.inl ⟨hfew, ?error, (Call.bind_ok hfallback _).trans ?run⟩
    case run => exact congrArg (fun x : Service _ => x.run w) (if_pos hfew)
  · refine Or.inr ⟨hfew, ?used, (Call.bind_ok hfallback _).trans ?run, ?iff⟩
    case run => exact congrArg (fun x : Service _ => x.run w) (if_neg hfew)
    case iff =>
      rw [decide_eq_false_iff_not, not_or, not_not]
      rfl

/-- The problems collected, of which there are as many as the code computed; whether a fallback was
needed is reported as it should be. -/
theorem collectedEach_of_ok (h : ∀ op, env.fails op = false) (hparams : params.Nonneg)
    {problems : List Problem} {fallbackUsed : Bool} {w' : World}
    (heq : (generateProblemsetByDifficultyParameters env params).run w =
      (.ok (problems, fallbackUsed), w')) :
    params.requestedTotal ≤ (w.db.pool env params.filter).length ∧
      problems = w.db.collectedEach env params ∧
      (fallbackUsed = false ↔ params.Met env w.db) := by
  have hle := w.db.length_queryEach_le_pool env params
  have hlength := w.db.length_collectedEach env params
  rcases generateProblemsetByDifficultyParameters_run h params w with
    ⟨-, e, herr⟩ | ⟨hfew, used, hok, hused⟩
  · rw [herr] at heq
    cases heq
  · rw [hok] at heq
    cases heq
    refine ⟨?_, rfl, hused.trans ?_⟩
    · rw [hlength] at hfew
      split_ifs at hfew <;> omega
    · -- What meets the demand of each difficulty also meets the total that the code computes.
      obtain ⟨-, hmet⟩ := w.db.length_queryEach_le env hparams
      have htotal := hparams.requestedTotal_le
      rw [w.db.length_queryDifficulty env 0 _ _ hparams.easy,
        w.db.length_queryDifficulty env 1 _ _ hparams.medium,
        w.db.length_queryDifficulty env 2 _ _ hparams.hard]
      unfold DifficultyParameter.Met at hmet ⊢
      omega

/-- The call returns when the pool is as large as the total that the code computes. -/
theorem generateProblemsetByDifficultyParameters_ok_iff (h : ∀ op, env.fails op = false)
    (hparams : params.Nonneg) :
    (∃ problems fallbackUsed, (generateProblemsetByDifficultyParameters env params).run w =
      (.ok (problems, fallbackUsed), w)) ↔
      params.requestedTotal ≤ (w.db.pool env params.filter).length := by
  constructor
  · rintro ⟨problems, fallbackUsed, heq⟩
    exact (collectedEach_of_ok h hparams heq).1
  · intro henough
    have hlength := w.db.length_collectedEach env params
    rcases generateProblemsetByDifficultyParameters_run h params w with
      ⟨hfew, -⟩ | ⟨-, used, hok, -⟩
    · rw [hlength] at hfew
      split_ifs at hfew <;> omega
    · exact ⟨_, used, hok⟩

/-- The total of the counts does not overflow, or it does and more is asked for than the pool has
even then, or the demand is met at first. -/
def DifficultyParameter.Adds (params : DifficultyParameter) (env : Env) (db : DB) : Prop :=
  params.requestedTotal = params.total ∨
    ((db.pool env params.filter).length : ℤ) < params.requestedTotal ∨ params.Met env db

/-- As many problems of a difficulty are served as were found of it. -/
theorem servesDifficulty (h : ∀ op, env.fails op = false) (hparams : params.Nonneg) {k : ℕ}
    {difficulty : String} {n : ℤ} (hn : 0 ≤ n)
    (hfound : (w.db.queryDifficulty env k difficulty n params.filter).Sublist
      (w.db.queryEach env params)) :
    ServesDifficulty env params.filter difficulty n w
      (generateProblemsetByDifficultyParameters env params) := by
  intro problems fallbackUsed w' heq
  obtain ⟨-, rfl, -⟩ := collectedEach_of_ok h hparams heq
  exact DB.servesDifficulty hn hfound

/-- The size of what is collected when the total adds up. -/
theorem DB.length_collectedEach_of_adds {db : DB} (hparams : params.Nonneg)
    (hadds : params.Adds env db)
    (henough : params.requestedTotal ≤ (db.pool env params.filter).length) :
    ((db.collectedEach env params).length : ℤ) = params.total := by
  have htotal := hparams.requestedTotal_le
  have hlength := db.length_collectedEach env params
  obtain ⟨hmost, hmet⟩ := db.length_queryEach_le env hparams
  rcases hadds with hsame | hless | hall
  · split_ifs at hlength <;> omega
  · omega
  · have hfound := hmet.mpr hall
    split_ifs at hlength <;> omega

/-- What a request by difficulty leads to when the total adds up. -/
theorem generates_byDifficulty (h : ∀ op, env.fails op = false) (hparams : params.Nonneg)
    (hadds : params.Adds env w.db) : GeneratesByDifficulty env params w := by
  have htotal := hparams.requestedTotal_le
  have hle := w.db.length_queryEach_le_pool env params
  obtain ⟨hmost, hmet⟩ := w.db.length_queryEach_le env hparams
  refine ⟨⟨countAvailableProblems_pool (h _), ?succeeds, ?size, ?distinct, ?fromPool, ?fallback⟩,
    ?easy, ?medium, ?hard⟩
  case succeeds =>
    rw [generateProblemsetByDifficultyParameters_ok_iff h hparams]
    -- The total that the code computes is the one asked for, or too large, or met anyway.
    rcases hadds with hsame | hless | hall
    · rw [hsame]
    · omega
    · have hfound := hmet.mpr hall
      omega
  case size =>
    intro problems fallbackUsed w' heq
    obtain ⟨henough, rfl, -⟩ := collectedEach_of_ok h hparams heq
    exact DB.length_collectedEach_of_adds hparams hadds henough
  case distinct =>
    intro problems fallbackUsed w' heq
    obtain ⟨-, rfl, -⟩ := collectedEach_of_ok h hparams heq
    exact DB.nodup_filledUp DB.nodup_difficulties
  case fromPool =>
    intro problems fallbackUsed w' heq
    obtain ⟨-, rfl, -⟩ := collectedEach_of_ok h hparams heq
    exact fun p => DB.mem_filledUp fun p => DB.mem_queryEach
  case fallback =>
    intro problems fallbackUsed w' heq
    exact (collectedEach_of_ok h hparams heq).2.2
  -- Each difficulty has its own part of what the queries found.
  case easy =>
    have hsub : (w.db.queryDifficulty env 0 difficultyEasy params.numEasyProblems
        params.filter).Sublist (w.db.queryEach env params) :=
      (List.sublist_append_left _ _).trans (List.sublist_append_left _ _)
    exact servesDifficulty h hparams hparams.easy hsub
  case medium =>
    have hsub : (w.db.queryDifficulty env 1 difficultyMedium params.numMediumProblems
        params.filter).Sublist (w.db.queryEach env params) :=
      (List.sublist_append_right _ _).trans (List.sublist_append_left _ _)
    exact servesDifficulty h hparams hparams.medium hsub
  case hard =>
    have hsub : (w.db.queryDifficulty env 2 difficultyHard params.numHardProblems
        params.filter).Sublist (w.db.queryEach env params) := List.sublist_append_right _ _
    exact servesDifficulty h hparams hparams.hard hsub

/-- When the total does not add up, a set of another size is taken for what was asked for. -/
theorem not_generates_byDifficulty (h : ∀ op, env.fails op = false) (hparams : params.Nonneg)
    (hadds : ¬ params.Adds env w.db) : ¬ GeneratesByDifficulty env params w := by
  intro hgenerates
  unfold DifficultyParameter.Adds at hadds
  push Not at hadds
  obtain ⟨hother, henough, hnotmet⟩ := hadds
  have htotal := hparams.requestedTotal_le
  obtain ⟨problems, fallbackUsed, heq⟩ :=
    (generateProblemsetByDifficultyParameters_ok_iff h hparams).mpr henough
  have hsize := hgenerates.generates.size _ _ _ heq
  obtain ⟨-, rfl, -⟩ := collectedEach_of_ok h hparams heq
  have hlength := w.db.length_collectedEach env params
  obtain ⟨hmost, hmet⟩ := w.db.length_queryEach_le env hparams
  -- Filling up stops at the smaller total, so only finding everything at first would do.
  have hall : ((w.db.queryEach env params).length : ℤ) = params.total := by
    split_ifs at hlength <;> omega
  exact hnotmet (hmet.mp hall)

/-- A request for any difficulty leads to what it should, whatever was asked for; so does a request
by difficulty, exactly when its total adds up in 64 bits, or when the overflow makes no difference.
-/
theorem generates_iff (h : ∀ op, env.fails op = false) (w : World) :
    (∀ (filter : ProblemFilter) (count : ℤ), 0 ≤ count →
      Generates env filter count (count ≤ w.db.recentlyAsked env filter) w
        (generateProblemsetAnyDifficulty env count filter)) ∧
    ∀ params : DifficultyParameter, params.Nonneg →
      (GeneratesByDifficulty env params w ↔ params.Adds env w.db) := by
  refine ⟨fun filter count hcount => generates_any h hcount, fun params hparams => ?_⟩
  constructor
  · intro hgenerates
    by_contra hadds
    exact not_generates_byDifficulty h hparams hadds hgenerates
  · exact generates_byDifficulty h hparams

end ByDifficulty

/-- Two easy and one hard problem, with no wishes. -/
def twoAndOne : DifficultyParameter := ⟨2, 0, 1, ⟨[], [], false, false, false, false⟩⟩

/-- Two easy problems and a hard one. -/
def World.threeProblems : World :=
  { World.empty with db := { DB.empty with problems := ((Table.empty.insert 1 fun id =>
      ⟨id, "plus-one", [], difficultyEasy, false, false, false⟩).insert 2 fun id =>
      ⟨id, "add-digits", [], difficultyEasy, false, false, false⟩).insert 3 fun id =>
      ⟨id, "n-queens", [], difficultyHard, false, false, false⟩ } }

/-- The total of the counts is what was asked for. -/
theorem generates_twoAndOne :
    Generates (Env.faultless 0) twoAndOne.filter 2
        ((2 : ℤ) ≤ World.threeProblems.db.recentlyAsked (Env.faultless 0) twoAndOne.filter)
        World.threeProblems (generateProblemsetAnyDifficulty (Env.faultless 0) 2 twoAndOne.filter) ∧
      GeneratesByDifficulty (Env.faultless 0) twoAndOne World.threeProblems :=
  ⟨(generates_iff (fun _ => rfl) World.threeProblems).1 _ 2 (by decide),
    ((generates_iff (fun _ => rfl) World.threeProblems).2 twoAndOne
      ⟨by decide, by decide, by decide⟩).mpr (Or.inl (by decide))⟩

/-- Counts that are too large together. -/
def overflowing : DifficultyParameter := ⟨2 ^ 62, 2 ^ 62, 0, ⟨[], [], false, false, false, false⟩⟩

/-- So large a request is answered, with nothing, by a catalogue without problems. -/
theorem not_generates_overflowing :
    overflowing.Nonneg ∧ ¬ GeneratesByDifficulty (Env.faultless 0) overflowing World.empty := by
  have hparams : overflowing.Nonneg := ⟨by decide, by decide, by decide⟩
  have htotal : overflowing.requestedTotal = -2 ^ 63 := by decide
  refine ⟨hparams, not_generates_byDifficulty (fun _ => rfl) hparams ?_⟩
  rintro (hsame | hless | hmet)
  · have hne : overflowing.requestedTotal ≠ overflowing.total := by decide
    exact hne hsame
  · rw [htotal] at hless
    omega
  · have hfew : ¬ overflowing.numEasyProblems ≤
        World.empty.db.recentlyAskedOf (Env.faultless 0) overflowing.filter difficultyEasy := by
      decide
    exact hfew hmet.1

end Bsg.Central
