import Bsg.Central.Rounds

/-!
# When problems can be selected

`Selectable` says, of the parameters of a new round and of the tables of problems, when the
selection of its problems succeeds: when there are enough problems that meet the filters. It counts
rows and does not run the selection; `looks_selectProblems` says that the selection agrees with it,
and that it changes nothing.
-/

namespace Bsg.Central

open Bsg.Foundations

/-! ## Queries -/

/-- The number of problems that satisfy a condition. -/
def DB.countProblems (db : DB) (p : Problem → Bool) : ℕ := (db.problems.rows.filter p).length

/-- The number of rows that a query with a limit finds among those that satisfy its condition. -/
def upTo (n : ℤ) (count : ℕ) : ℤ := if n < 0 then count else min n count

/-- The problems that a query finds. -/
def DB.query (db : DB) (env : Env) (k : ℕ) (n : ℤ) (p : DB → Problem → Bool) : List Problem :=
  limit n ((env.random k).order (db.problems.rows.filter (p db)))

section Query

variable {env : Env} {k : ℕ} {n : ℤ} {p : DB → Problem → Bool} {db : DB} {w : World}

/-- A query finds the rows that meet its condition, up to its limit. -/
theorem findProblems_run (h : env.fails (.findProblems k) = false) :
    (findProblems env k n p).run w = (.ok (w.db.query env k n p), w) := by
  unfold findProblems
  rw [h]
  rfl

/-- A query that fails finds nothing. -/
theorem findProblems_fails (h : env.fails (.findProblems k) = true) :
    (findProblems env k n p).run w = (.err .io, w) := by
  unfold findProblems
  rw [h]
  rfl

/-- A limit is reached exactly when there are as many rows. -/
theorem le_upTo {n : ℤ} {count : ℕ} : n ≤ upTo n count ↔ n ≤ count := by
  unfold upTo
  split_ifs <;> omega

/-- A limited list has as many elements as the limit leaves. -/
theorem length_limit {α : Type} (n : ℤ) (l : List α) :
    ((limit n l).length : ℤ) = upTo n l.length := by
  unfold limit upTo
  split_ifs with hn
  · rfl
  · rw [List.length_take]
    omega

/-- A query finds as many rows as its limit leaves of those that meet the condition. -/
theorem DB.length_query : ((db.query env k n p).length : ℤ) = upTo n (db.countProblems (p db)) := by
  rw [DB.query, length_limit, Arrangement.length_order]
  rfl

/-- A query finds problems that satisfy its condition. -/
theorem DB.mem_query {r : Problem} (h : r ∈ db.query env k n p) :
    r ∈ db.problems.rows ∧ p db r = true := by
  have hmem : r ∈ (env.random k).order (db.problems.rows.filter (p db)) := by
    unfold DB.query limit at h
    split_ifs at h
    · exact h
    · exact List.mem_of_mem_take h
  exact List.mem_filter.mp ((env.random k).mem_order.mp hmem)

/-- A query finds each problem once. -/
theorem DB.query_nodup : (db.query env k n p).Nodup := by
  have hall : ((env.random k).order (db.problems.rows.filter (p db))).Nodup :=
    ((env.random k).perm _).nodup_iff.mpr (db.problems.rows_nodup.filter _)
  unfold DB.query limit
  split_ifs
  · exact hall
  · exact hall.sublist (List.take_sublist _ _)

/-- The problems that are left once some were selected. -/
theorem DB.countProblems_unselected {selected : List Problem} {q : Problem → Bool}
    (hnodup : selected.Nodup) (h : ∀ r ∈ selected, r ∈ db.problems.rows ∧ q r = true) :
    db.countProblems (fun r => q r && notSelected selected r) + selected.length =
      db.countProblems q :=
  db.problems.length_filter_unselected hnodup h

/-- A query that fills up with what is left finds as many as there are, up to what is missing. -/
theorem DB.length_fallback {selected : List Problem} {q : DB → Problem → Bool}
    (hnodup : selected.Nodup) (h : ∀ r ∈ selected, r ∈ db.problems.rows ∧ q db r = true)
    (hn : (selected.length : ℤ) < n) :
    ((selected ++ db.query env k (n - selected.length)
      fun db r => q db r && notSelected selected r).length : ℤ) =
      min n (db.countProblems (q db)) := by
  have hleft := db.countProblems_unselected hnodup h
  have hquery : ((db.query env k (n - selected.length)
      fun db r => q db r && notSelected selected r).length : ℤ) = _ := db.length_query
  rw [upTo, if_neg (by omega)] at hquery
  rw [List.length_append, Nat.cast_add, hquery]
  omega

end Query

/-! ## The three ways to a problem set -/

/-- One of the hand-picked problems at least exists, and they are not too many. -/
def HandPickable (env : Env) (ids : List ℕ) (db : DB) : Prop :=
  ids.length ≤ maxHandPickedProblems ∧ env.fails (.findProblems 0) = false ∧
    ∃ id ∈ ids, id ∈ db.problems.ids

/-- Enough problems of any difficulty meet the filters, if need be without recency. -/
def AnySelectable (env : Env) (count : ℤ) (filter : ProblemFilter) (db : DB) : Prop :=
  env.fails (.findProblems 0) = false ∧
    (count ≤ db.countProblems (fun p => filter.strict env db p && filter.recent env db p) ∨
      (filter.recentlyAsked = true ∧ normalizeTags filter.companies ≠ []) ∧
        env.fails (.findProblems 3) = false ∧ count ≤ db.countProblems (filter.strict env db))

/-- How many of the problems asked for meet all filters, difficulty included. -/
def DB.foundByDifficulty (db : DB) (env : Env) (params : DifficultyParameter) : ℤ :=
  let ofDifficulty (difficulty : String) : ℕ := db.countProblems fun p =>
    decide (p.difficulty = difficulty) && params.filter.strict env db p &&
      params.filter.recent env db p
  upTo params.numEasyProblems (ofDifficulty difficultyEasy) +
    upTo params.numMediumProblems (ofDifficulty difficultyMedium) +
    upTo params.numHardProblems (ofDifficulty difficultyHard)

/-- Enough problems meet the filters, if need be without recency and difficulty. -/
def DifficultySelectable (env : Env) (params : DifficultyParameter) (db : DB) : Prop :=
  let requestedTotal :=
    int64 (params.numEasyProblems + params.numMediumProblems + params.numHardProblems)
  (∀ op ∈ [Op.beginProblems, .findProblems 0, .findProblems 1, .findProblems 2, .commitProblems],
      env.fails op = false) ∧
    (requestedTotal ≤ db.foundByDifficulty env params ∨
      env.fails (.findProblems 3) = false ∧
        requestedTotal ≤ db.countProblems (params.filter.strict env db))

/-- The problems of a new round can be selected. -/
def Selectable (env : Env) (params : RoundCreationParameters) (db : DB) : Prop :=
  if params.problemIDs ≠ [] then HandPickable env params.problemIDs db
  else if params.anyDifficulty then
    AnySelectable env params.numAnyDifficultyProblems params.filter db
  else
    DifficultySelectable env
      ⟨params.numEasyProblems, params.numMediumProblems, params.numHardProblems, params.filter⟩ db

/-- The call only looks at the state, and it returns exactly when the condition holds. -/
def Looks {α : Type} (x : Service α) (w : World) (ok : Prop) : Prop :=
  (ok ∧ ∃ a, x.run w = (.ok a, w)) ∨ (¬ ok ∧ ∃ e, x.run w = (.err e, w))

/-- A selection that succeeds and changes nothing. -/
theorem Looks.of_ok {α : Type} {x : Service α} {w : World} {ok : Prop} {a : α} (h : ok)
    (hrun : x.run w = (.ok a, w)) : Looks x w ok := Or.inl ⟨h, a, hrun⟩

/-- A selection that fails and changes nothing. -/
theorem Looks.of_err {α : Type} {x : Service α} {w : World} {ok : Prop} {e : GoError} (h : ¬ ok)
    (hrun : x.run w = (.err e, w)) : Looks x w ok := Or.inr ⟨h, e, hrun⟩

/-- A transaction around a selection does not matter. -/
theorem Looks.transaction {α : Type} {x : Service α} {w : World} {ok : Prop} (h : Looks x w ok) :
    Looks (Call.transaction rollback x) w ok := by
  rcases h with ⟨hok, a, hrun⟩ | ⟨hnot, e, hrun⟩
  · exact .of_ok hok (by rw [Call.run_transaction, hrun])
  · exact .of_err hnot (by rw [Call.run_transaction, hrun]; rfl)

/-- The same condition in other words. -/
theorem Looks.congr {α : Type} {x : Service α} {w : World} {ok ok' : Prop} (h : Looks x w ok)
    (hiff : ok ↔ ok') : Looks x w ok' := by
  unfold Looks at h ⊢
  rwa [hiff] at h

/-- What comes first only looks, so the rest decides. -/
theorem Looks.bind {α β : Type} {x : Service α} {f : α → Service β} {w : World} {ok : Prop} {a : α}
    (hx : x.run w = (.ok a, w)) (h : Looks (f a) w ok) : Looks (x >>= f) w ok := by
  unfold Looks
  rw [Call.bind_ok hx]
  exact h

/-- Two calls that only look. -/
theorem Looks.seq {α β : Type} {x : Service α} {f : α → Service β} {w : World} {p q : Prop}
    (hx : Looks x w p) (hf : ∀ a, x.run w = (.ok a, w) → p → Looks (f a) w q) :
    Looks (x >>= f) w (p ∧ q) := by
  rcases hx with ⟨hp, a, hrun⟩ | ⟨hp, e, hrun⟩
  · exact (Looks.bind hrun (hf a hrun hp)).congr (by simp [hp])
  · exact .of_err (fun h => hp h.1) (Call.bind_err hrun f)

/-- An operation succeeds exactly when it does not fail. -/
theorem looks_io (fails : Bool) (e : GoError) (w : World) :
    Looks (Call.io fails e (pure ())) w (fails = false) := by
  cases fails with
  | true => exact .of_err (by decide) rfl
  | false => exact .of_ok rfl rfl

section Ways

variable {env : Env} {w : World}

/-- Nothing is picked exactly when each of the ids was seen before or is not among the found. -/
theorem inOrder_eq_nil {found : List Problem} : ∀ {ids seen : List ℕ},
    inOrder found seen ids = [] ↔
      ∀ id ∈ ids, id ∈ seen ∨ (found.find? fun p => p.id = id) = none
  | [], seen => by simp [inOrder]
  | id :: ids, seen => by
    rw [inOrder]
    by_cases hseen : id ∈ seen
    · rw [if_pos hseen, inOrder_eq_nil]
      simp [hseen]
    · rw [if_neg hseen]
      cases hfind : found.find? fun p => p.id = id with
      | some problem =>
        refine iff_of_false (List.cons_ne_nil _ _) fun h => ?_
        rcases h id List.mem_cons_self with h | h
        · exact hseen h
        · rw [hfind] at h
          cases h
      | none =>
        rw [inOrder_eq_nil]
        simp only [List.mem_cons, forall_eq_or_imp, hfind, or_true, true_and]
        refine forall₂_congr fun id' _ => ?_
        by_cases heq : id' = id
        · simp [heq, hfind]
        · simp [heq]

/-- Some of the ids are found exactly when some of them exist. -/
theorem findProblemsByIDs_run {ids : List ℕ} (h : env.fails (.findProblems 0) = false)
    (hids : ids ≠ []) : ∃ problems, (findProblemsByIDs env ids).run w = (.ok problems, w) ∧
      (problems = [] ↔ ¬ ∃ id ∈ ids, id ∈ w.db.problems.ids) := by
  unfold findProblemsByIDs
  rw [if_neg hids, h]
  refine ⟨_, rfl, ?_⟩
  rw [inOrder_eq_nil]
  push Not
  refine forall₂_congr fun id hid => ?_
  rw [or_iff_right List.not_mem_nil, List.find?_eq_none]
  simp only [Arrangement.mem_order, List.mem_filter, decide_eq_true_eq, Table.ids, List.mem_map,
    not_exists, not_and]
  constructor
  · rintro hnone p hp rfl
    exact hnone p ⟨hp, hid⟩ rfl
  · rintro hnone p ⟨hp, -⟩ rfl
    exact hnone p hp rfl

/-- What is left once a selection was filled up, as far as that was needed. -/
theorem looks_fallback {α : Type} {needed : Prop} [Decidable needed] {count : ℤ}
    {filter : ProblemFilter} {problems : List Problem} {f : List Problem → Service α}
    (hneeded : needed → (problems.length : ℤ) < count) (hnodup : problems.Nodup)
    (hstrict : ∀ p ∈ problems, p ∈ w.db.problems.rows ∧ filter.strict env w.db p = true)
    (hf : ∀ all, Looks (f all) w (count ≤ all.length)) :
    Looks (fallback env needed count filter problems >>= f) w
      (count ≤ problems.length ∨ needed ∧ env.fails (.findProblems 3) = false ∧
        count ≤ w.db.countProblems (filter.strict env w.db)) := by
  unfold fallback
  -- The query for more problems is made only when there are too few.
  by_cases hn : needed
  · have hless := hneeded hn
    rw [if_pos hn]
    cases h3 : env.fails (.findProblems 3) with
    | true =>
      refine .of_err (fun h => ?_) (Call.bind_err (Call.bind_err (findProblems_fails h3) _) _)
      rcases h with h | ⟨-, h, -⟩
      · omega
      · cases h
    | false =>
      have hlength : ((problems ++ w.db.query env 3 (count - problems.length)
          fun db p => filter.strict env db p && notSelected problems p).length : ℤ) = _ :=
        w.db.length_fallback hnodup hstrict hless
      refine Looks.bind (Call.bind_ok (findProblems_run h3) _) ((hf _).congr ?_)
      rw [hlength]
      constructor
      · exact fun h => Or.inr ⟨hn, rfl, by omega⟩
      · rintro (h | ⟨-, -, h⟩) <;> omega
  · rw [if_neg hn]
    refine Looks.bind rfl ((hf problems).congr ?_)
    simp [hn]

/-- Selecting problems of any difficulty. -/
theorem looks_anyDifficulty (count : ℤ) (filter : ProblemFilter) :
    Looks (generateProblemsetAnyDifficulty env count filter) w
      (AnySelectable env count filter w.db) := by
  unfold generateProblemsetAnyDifficulty
  cases h0 : env.fails (.findProblems 0) with
  | true => exact .of_err (fun h => by simp [h.1] at h0) (Call.bind_err (findProblems_fails h0) _)
  | false =>
    refine Looks.bind (findProblems_run h0) ?_
    generalize hproblems : w.db.query env 0 count
      (fun db p => filter.strict env db p && filter.recent env db p) = problems
    -- What the first query found.
    have hlength : (problems.length : ℤ) = upTo count (w.db.countProblems fun p =>
        filter.strict env w.db p && filter.recent env w.db p) := by
      rw [← hproblems]
      exact w.db.length_query
    have hnodup : problems.Nodup := by
      rw [← hproblems]
      exact DB.query_nodup
    have hstrict : ∀ p ∈ problems, p ∈ w.db.problems.rows ∧ filter.strict env w.db p = true := by
      intro p hp
      rw [← hproblems] at hp
      obtain ⟨hrow, hcond⟩ := DB.mem_query hp
      exact ⟨hrow, (Bool.and_eq_true_iff.mp hcond).1⟩
    refine (looks_fallback (fun h => h.1) hnodup hstrict fun all => ?_).congr ?_
    · by_cases hall : (all.length : ℤ) < count
      · rw [if_pos hall]
        exact .of_err (by omega) rfl
      · rw [if_neg hall]
        exact .of_ok (by omega) rfl
    · have henough : count ≤ problems.length ↔ count ≤ w.db.countProblems (fun p =>
          filter.strict env w.db p && filter.recent env w.db p) := by
        rw [hlength]
        exact le_upTo
      unfold AnySelectable
      rw [← henough]
      by_cases hle : count ≤ problems.length
      · simp [hle, h0]
      · simp [hle, h0, not_le.mp hle]

/-- The problems of one difficulty that are found. -/
def DB.queryDifficulty (db : DB) (env : Env) (k : ℕ) (difficulty : String) (n : ℤ)
    (filter : ProblemFilter) : List Problem :=
  db.query env k n fun db p =>
    decide (p.difficulty = difficulty) && filter.strict env db p && filter.recent env db p

/-- The problems of one difficulty that are found meet the filters. -/
theorem DB.mem_queryDifficulty {db : DB} {k : ℕ} {n : ℤ} {difficulty : String}
    {filter : ProblemFilter} {p : Problem} (h : p ∈ db.queryDifficulty env k difficulty n filter) :
    (p ∈ db.problems.rows ∧ filter.strict env db p = true) ∧ p.difficulty = difficulty := by
  obtain ⟨hrow, hcond⟩ := DB.mem_query h
  simp only [Bool.and_eq_true, decide_eq_true_eq] at hcond
  exact ⟨⟨hrow, hcond.1.2⟩, hcond.1.1⟩

/-- The query for a difficulty succeeds exactly when its statement does. -/
theorem looks_findByDifficulty (k : ℕ) (difficulty : String) (n : ℤ) (filter : ProblemFilter) :
    Looks (findByDifficulty env k difficulty n filter) w (env.fails (.findProblems k) = false) := by
  cases hk : env.fails (.findProblems k) with
  | true => exact .of_err (by decide) (findProblems_fails hk)
  | false => exact .of_ok rfl (findProblems_run hk)

/-- The problems of the three difficulties are found when no query fails. -/
theorem looks_findEachDifficulty (params : DifficultyParameter) :
    Looks (findEachDifficulty env params) w
      (∀ op ∈ [Op.beginProblems, .findProblems 0, .findProblems 1, .findProblems 2,
        .commitProblems], env.fails op = false) := by
  refine Looks.congr (Looks.seq (looks_io _ _ _) fun _ _ _ =>
    Looks.seq (looks_findByDifficulty _ _ _ _) fun _ _ _ =>
    Looks.seq (looks_findByDifficulty _ _ _ _) fun _ _ _ =>
    Looks.seq (looks_findByDifficulty _ _ _ _) fun _ _ _ =>
    Looks.seq (looks_io _ _ _) fun _ _ _ => Looks.of_ok trivial rfl) ?_
  simp

/-- What is found, difficulty by difficulty. -/
theorem findEachDifficulty_eq {params : DifficultyParameter}
    {found : List Problem × List Problem × List Problem}
    (hrun : (Call.transaction rollback (findEachDifficulty env params)).run w = (.ok found, w))
    (hops : ∀ op ∈ [Op.beginProblems, .findProblems 0, .findProblems 1, .findProblems 2,
      .commitProblems], env.fails op = false) :
    found = (w.db.queryDifficulty env 0 difficultyEasy params.numEasyProblems params.filter,
      w.db.queryDifficulty env 1 difficultyMedium params.numMediumProblems params.filter,
      w.db.queryDifficulty env 2 difficultyHard params.numHardProblems params.filter) := by
  simp only [List.forall_mem_cons, List.not_mem_nil, false_implies, implies_true,
    and_true] at hops
  obtain ⟨hbegin, h0, h1, h2, hcommit⟩ := hops
  have heach : (findEachDifficulty env params).run w = (.ok
      (w.db.queryDifficulty env 0 difficultyEasy params.numEasyProblems params.filter,
        w.db.queryDifficulty env 1 difficultyMedium params.numMediumProblems params.filter,
        w.db.queryDifficulty env 2 difficultyHard params.numHardProblems params.filter), w) := by
    unfold findEachDifficulty findByDifficulty
    rw [hbegin, hcommit, Call.io_false]
    refine (Call.bind_ok rfl _).trans ?_
    refine (Call.bind_ok (findProblems_run h0) _).trans ?_
    refine (Call.bind_ok (findProblems_run h1) _).trans ?_
    exact Call.bind_ok (findProblems_run h2) _
  rw [Call.run_transaction, heach] at hrun
  exact (Outcome.ok.inj (congrArg Prod.fst hrun)).symm

/-- What is found has no repeats, since a problem has one difficulty. -/
theorem DB.nodup_difficulties {db : DB} {easy medium hard : ℤ} {filter : ProblemFilter} :
    (db.queryDifficulty env 0 difficultyEasy easy filter ++
      db.queryDifficulty env 1 difficultyMedium medium filter ++
      db.queryDifficulty env 2 difficultyHard hard filter).Nodup := by
  have hem : difficultyEasy ≠ difficultyMedium := by decide
  have heh : difficultyEasy ≠ difficultyHard := by decide
  have hmh : difficultyMedium ≠ difficultyHard := by decide
  refine List.nodup_append.mpr ⟨List.nodup_append.mpr ⟨DB.query_nodup, DB.query_nodup, ?_⟩,
    DB.query_nodup, ?_⟩
  · rintro p hp _ hp' rfl
    exact hem ((DB.mem_queryDifficulty hp).2.symm.trans (DB.mem_queryDifficulty hp').2)
  · rintro p hp _ hp' rfl
    have hhard := (DB.mem_queryDifficulty hp').2
    rcases List.mem_append.mp hp with hp | hp
    · exact heh ((DB.mem_queryDifficulty hp).2.symm.trans hhard)
    · exact hmh ((DB.mem_queryDifficulty hp).2.symm.trans hhard)

/-- Selecting problems by difficulty. -/
theorem looks_byDifficulty (params : DifficultyParameter) :
    Looks (generateProblemsetByDifficultyParameters env params) w
      (DifficultySelectable env params w.db) := by
  unfold generateProblemsetByDifficultyParameters DifficultySelectable
  refine Looks.seq (looks_findEachDifficulty params).transaction fun found hrun hops => ?_
  rw [findEachDifficulty_eq hrun hops]
  -- What the three queries find together is compared with the sum of the numbers asked for, which
  -- may wrap around.
  have hlength : ((w.db.queryDifficulty env 0 difficultyEasy params.numEasyProblems params.filter ++
      w.db.queryDifficulty env 1 difficultyMedium params.numMediumProblems params.filter ++
      w.db.queryDifficulty env 2 difficultyHard params.numHardProblems params.filter).length : ℤ) =
        w.db.foundByDifficulty env params := by
    simp only [List.length_append, Nat.cast_add, DB.queryDifficulty, DB.length_query]
    rfl
  refine (looks_fallback (fun h => h) DB.nodup_difficulties (fun p hp => ?_) fun all => ?_).congr ?_
  · simp only [List.mem_append] at hp
    rcases hp with (hp | hp) | hp <;> exact (DB.mem_queryDifficulty hp).1
  · by_cases hall : (all.length : ℤ) <
        int64 (params.numEasyProblems + params.numMediumProblems + params.numHardProblems)
    · rw [if_pos hall]
      exact .of_err (by omega) rfl
    · rw [if_neg hall]
      exact .of_ok (by omega) rfl
  · rw [hlength]
    by_cases hle : int64 (params.numEasyProblems + params.numMediumProblems +
        params.numHardProblems) ≤ w.db.foundByDifficulty env params
    · simp [hle]
    · simp [hle, not_le.mp hle]

/-- Selecting hand-picked problems. -/
theorem looks_handPicked {ids : List ℕ} (hids : ids ≠ []) (e e' : GoError) :
    Looks (if ids.length > maxHandPickedProblems then .fail e
      else do
        let problemSet ← findProblemsByIDs env ids
        if problemSet = [] then .fail e' else pure (problemSet, false)) w
      (HandPickable env ids w.db) := by
  by_cases hmany : ids.length > maxHandPickedProblems
  · rw [if_pos hmany]
    exact .of_err (fun h => absurd h.1 (not_le.mpr hmany)) rfl
  · rw [if_neg hmany]
    -- Ids that are picked are looked up in one query.
    cases h0 : env.fails (.findProblems 0) with
    | true =>
      have hrun : (findProblemsByIDs env ids).run w = (.err .io, w) := by
        unfold findProblemsByIDs
        rw [if_neg hids, h0]
        rfl
      exact .of_err (fun h => by simp [h.2.1] at h0) (Call.bind_err hrun _)
    | false =>
      obtain ⟨problems, hrun, hnil⟩ := findProblemsByIDs_run h0 hids
      refine Looks.bind hrun ?_
      by_cases hnone : problems = []
      · rw [if_pos hnone]
        exact .of_err (fun h => hnil.mp hnone h.2.2) rfl
      · rw [if_neg hnone]
        exact .of_ok ⟨not_lt.mp hmany, h0, not_not.mp fun h => hnone (hnil.mpr h)⟩ rfl

/-- The selection of the problems of a new round. -/
theorem looks_selectProblems (params : RoundCreationParameters) :
    Looks (selectProblems env params) w (Selectable env params w.db) := by
  unfold selectProblems Selectable
  by_cases hids : params.problemIDs ≠ []
  · rw [if_pos hids, if_pos hids]
    exact looks_handPicked hids _ _
  · rw [if_neg hids, if_neg hids]
    by_cases hany : params.anyDifficulty = true
    · rw [if_pos hany, if_pos hany]
      exact looks_anyDifficulty _ _
    · rw [if_neg hany, if_neg hany]
      exact looks_byDifficulty _

end Ways

end Bsg.Central
