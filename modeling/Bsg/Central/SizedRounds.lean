import Bsg.Central.Generating
import Bsg.Central.PickedOrder

/-!
# Rounds of the size asked for

A round that is reported as created should have as many problems as were asked for, at least one,
and so the admin should be able to start it (`Sized`). The counts of a request are not checked: with
no problems asked for, or less than none, a round is created all the same, with no problems or with
all of them. And a round without problems keeps its room from starting any other, since the first
created round that is loaded is the one to start; the rounds that failed creations left behind do so
too.

`createsSized_iff` says when it is otherwise: when the request is one whose count is kept
(`KeepsCount`), and every created round of the room has a problem (`AllPopulated`).
-/

namespace Bsg.Central

open Bsg.Foundations

/-! ## What is asked for -/

/-- The counts of a request, for a selection by difficulty. -/
def RoundCreationParameters.byDifficulty (params : RoundCreationParameters) : DifficultyParameter :=
  ⟨params.numEasyProblems, params.numMediumProblems, params.numHardProblems, params.filter⟩

/-- How many problems a request asks for. -/
def RoundCreationParameters.requested (params : RoundCreationParameters) (db : DB) : ℤ :=
  if params.problemIDs ≠ [] then (db.picked params.problemIDs).length
  else if params.anyDifficulty then params.numAnyDifficultyProblems
  else params.byDifficulty.total

/-- The count of a request is kept when its problems are picked by hand, or when it is positive; by
difficulty, its total must also be the larger of what it is in 64 bits and of the number of problems
that match, up to each count that is not negative. -/
def KeepsCount (env : Env) (params : RoundCreationParameters) (db : DB) : Prop :=
  if params.problemIDs ≠ [] then True
  else if params.anyDifficulty then 0 < params.numAnyDifficultyProblems
  else 0 < params.byDifficulty.total ∧
    max (db.foundByDifficulty env params.byDifficulty) params.byDifficulty.requestedTotal =
      params.byDifficulty.total

/-- Every created round of a room has a problem. -/
def AllPopulated (roomID : RoomID) (db : DB) : Prop :=
  ∀ round ∈ db.rounds.rows, round.roomID = roomID → round.status = .created →
    ∃ p ∈ db.problems.rows, (round.id, p.id) ∈ db.roundProblems

/-- The refusal to start a round without problems. -/
def noProblems : GoError :=
  .value ⟨400, "Cannot start round: no problems were generated. " ++
    "Try fewer constraints or different tags."⟩

/-- A round has the size asked for, and the admin of its room is not refused for a lack of problems,
by whatever text he names the room. -/
structure Sized (requested : ℤ) (round : Round) (w : World) : Prop where
  nonempty : ∀ a, w.db.problemSet a round.id ≠ []
  size : ∀ a, ((w.db.problemSet a round.id).length : ℤ) = requested
  startable : ∀ env text room, env.uuid.parse text = some round.roomID →
    w.db.roomByID round.roomID = some room →
      ((startRoundByRoomID env text room.admin).run w).1 ≠ .err noProblems

/-- Every round that is reported as created is one of the room, and of the size asked for. -/
def CreatesSized (env : Env) (maxNumRoundsPerRoom : ℤ) (params : RoundCreationParameters)
    (roomID : RoomID) (w : World) : Prop :=
  ∀ round fallbackUsed w', (createRound env maxNumRoundsPerRoom params roomID).run w =
    (.ok (round, fallbackUsed), w') →
      env.uuid.parse roomID = some round.roomID ∧ Sized (params.requested w.db) round w'

/-! ## Selections that succeed -/

section Selection

variable {env : Env} {w w' : World} {problems : List Problem} {fallbackUsed : Bool}

/-- A query that succeeds has found the rows, and changed nothing. -/
theorem findProblems_ok {k : ℕ} {n : ℤ} {p : DB → Problem → Bool}
    (hrun : (findProblems env k n p).run w = (.ok problems, w')) :
    problems = w.db.query env k n p ∧ w' = w := by
  obtain ⟨-, rfl, rfl⟩ := Call.io_read_eq_ok hrun
  exact ⟨rfl, rfl⟩

/-- A fallback that succeeds has filled the selection up, and changed nothing. -/
theorem fallback_ok {needed : Prop} [Decidable needed] {count : ℤ} {filter : ProblemFilter}
    {selected : List Problem}
    (hrun : (fallback env needed count filter selected).run w = (.ok problems, w')) :
    problems = w.db.filledUp env needed count filter selected ∧ w' = w := by
  unfold fallback at hrun
  unfold DB.filledUp
  split_ifs at hrun ⊢ with hneeded
  · obtain ⟨found, w₁, hfind, hrest⟩ := Call.bind_eq_ok hrun
    obtain ⟨rfl, rfl⟩ := findProblems_ok hfind
    cases hrest
    exact ⟨rfl, rfl⟩
  · cases hrun
    exact ⟨rfl, rfl⟩

/-- What a request for any difficulty returned is what it collected. -/
theorem generateProblemsetAnyDifficulty_ok {count : ℤ} {filter : ProblemFilter}
    (hrun : (generateProblemsetAnyDifficulty env count filter).run w =
      (.ok (problems, fallbackUsed), w')) :
    problems = w.db.collectedAny env count filter ∧ ¬ (problems.length : ℤ) < count := by
  obtain ⟨found, w₁, hfind, hrest⟩ := Call.bind_eq_ok hrun
  obtain ⟨rfl, rfl⟩ := findProblems_ok hfind
  obtain ⟨all, w₂, hfill, hrest⟩ := Call.bind_eq_ok hrest
  obtain ⟨rfl, rfl⟩ := fallback_ok hfill
  split_ifs at hrest with hfew
  · cases hrest
  · cases hrest
    exact ⟨rfl, hfew⟩

/-- What a request by difficulty returned is what it collected. -/
theorem generateProblemsetByDifficultyParameters_ok {params : DifficultyParameter}
    (hrun : (generateProblemsetByDifficultyParameters env params).run w =
      (.ok (problems, fallbackUsed), w')) :
    problems = w.db.collectedEach env params ∧
      ¬ (problems.length : ℤ) < params.requestedTotal := by
  obtain ⟨found, w₁, hfind, hrest⟩ := Call.bind_eq_ok hrun
  obtain ⟨rfl, rfl⟩ : w₁ = w ∧ found =
      (w.db.queryDifficulty env 0 difficultyEasy params.numEasyProblems params.filter,
        w.db.queryDifficulty env 1 difficultyMedium params.numMediumProblems params.filter,
        w.db.queryDifficulty env 2 difficultyHard params.numHardProblems params.filter) := by
    have hlooks : Looks (findEachDifficulty env params) w _ := looks_findEachDifficulty params
    rcases hlooks.transaction with ⟨hops, a, hlook⟩ | ⟨-, e, hlook⟩
    · have hsame := congrArg Prod.snd (hfind.symm.trans hlook)
      subst hsame
      exact ⟨rfl, findEachDifficulty_eq hfind hops⟩
    · rw [hfind] at hlook
      cases hlook
  obtain ⟨all, w₂, hfill, hrest⟩ := Call.bind_eq_ok hrest
  obtain ⟨rfl, rfl⟩ := fallback_ok hfill
  split_ifs at hrest with hfew
  · cases hrest
  · cases hrest
    exact ⟨rfl, hfew⟩

/-- What was found at first by difficulty, counted. -/
theorem DB.length_queryEach_found (db : DB) (env : Env) (params : DifficultyParameter) :
    ((db.queryEach env params).length : ℤ) = db.foundByDifficulty env params := by
  unfold DB.queryEach DB.queryDifficulty
  rw [List.length_append, List.length_append, Nat.cast_add, Nat.cast_add, DB.length_query,
    DB.length_query, DB.length_query]
  rfl

/-- Problems without repeats have keys without repeats. -/
theorem nodup_ids {db : DB} (hnodup : problems.Nodup) (hrows : ∀ p ∈ problems, p ∈ db.problems.rows) :
    (problems.map Problem.id).Nodup :=
  hnodup.map_on fun p hp q hq heq => Table.eq_of_id_eq (hrows p hp) (hrows q hq) heq

/-- A selection of any difficulty has as many problems as were asked for, and some, exactly when
some were asked for. -/
theorem sized_any {count : ℤ} {filter : ProblemFilter}
    (hrun : (generateProblemsetAnyDifficulty env count filter).run w =
      (.ok (problems, fallbackUsed), w')) :
    (problems ≠ [] ∧ (problems.length : ℤ) = count) ↔ 0 < count := by
  obtain ⟨hcollected, henough⟩ := generateProblemsetAnyDifficulty_ok hrun
  have hsome : problems ≠ [] ↔ 0 < problems.length := List.length_pos_iff.symm
  rw [hsome]
  constructor
  · omega
  · intro hcount
    have hlength := w.db.length_collectedAny env filter hcount.le
    rw [← hcollected] at hlength
    omega

/-- A selection by difficulty has as many problems as the larger of what was found at first and of
the total that the code computes. -/
theorem sized_byDifficulty {params : DifficultyParameter}
    (hrun : (generateProblemsetByDifficultyParameters env params).run w =
      (.ok (problems, fallbackUsed), w')) :
    (problems ≠ [] ∧ (problems.length : ℤ) = params.total) ↔
      0 < params.total ∧
        max (w.db.foundByDifficulty env params) params.requestedTotal = params.total := by
  obtain ⟨hcollected, henough⟩ := generateProblemsetByDifficultyParameters_ok hrun
  have hlength := w.db.length_collectedEach env params
  rw [← hcollected, DB.length_queryEach_found] at hlength
  have hmax : (problems.length : ℤ) =
      max (w.db.foundByDifficulty env params) params.requestedTotal := by
    split_ifs at hlength <;> omega
  have hsome : problems ≠ [] ↔ 0 < problems.length := List.length_pos_iff.symm
  rw [hsome, ← hmax]
  omega

/-- What is selected are problems, each once. -/
theorem nodup_selectProblems {params : RoundCreationParameters}
    (hrun : (selectProblems env params).run w = (.ok (problems, fallbackUsed), w')) :
    (problems.map Problem.id).Nodup ∧ ∀ p ∈ problems, p ∈ w.db.problems.rows := by
  by_cases hids : params.problemIDs ≠ []
  · obtain ⟨hpicked, hrows, -⟩ := ids_selectProblems hids hrun
    rw [hpicked]
    exact ⟨DB.nodup_picked _ _, hrows⟩
  unfold selectProblems at hrun
  rw [if_neg hids] at hrun
  split_ifs at hrun
  · obtain ⟨rfl, -⟩ := generateProblemsetAnyDifficulty_ok hrun
    have hrows : ∀ p ∈ w.db.collectedAny env params.numAnyDifficultyProblems params.filter,
        p ∈ w.db.problems.rows := fun p hp =>
      (List.mem_filter.mp (DB.mem_filledUp (fun p => DB.mem_queryAny) hp)).1
    exact ⟨nodup_ids (DB.nodup_filledUp DB.query_nodup) hrows, hrows⟩
  · obtain ⟨rfl, -⟩ := generateProblemsetByDifficultyParameters_ok hrun
    have hrows : ∀ p ∈ w.db.collectedEach env params.byDifficulty, p ∈ w.db.problems.rows :=
      fun p hp => (List.mem_filter.mp (DB.mem_filledUp (fun p => DB.mem_queryEach) hp)).1
    exact ⟨nodup_ids (DB.nodup_filledUp DB.nodup_difficulties) hrows, hrows⟩

/-- What is selected has the size asked for, and is something, exactly when the count is kept. -/
theorem sized_selectProblems {params : RoundCreationParameters}
    (hrun : (selectProblems env params).run w = (.ok (problems, fallbackUsed), w')) :
    (problems ≠ [] ∧ (problems.length : ℤ) = params.requested w.db) ↔
      KeepsCount env params w.db := by
  unfold RoundCreationParameters.requested KeepsCount
  by_cases hids : params.problemIDs ≠ []
  · obtain ⟨hpicked, -, hsome⟩ := ids_selectProblems hids hrun
    rw [if_pos hids, if_pos hids, ← hpicked, List.length_map]
    simp [hsome]
  rw [if_neg hids, if_neg hids]
  unfold selectProblems at hrun
  rw [if_neg hids] at hrun
  split_ifs at hrun ⊢
  · exact sized_any hrun
  · exact sized_byDifficulty hrun

end Selection

/-! ## Rounds without problems -/

section Starting

variable {env : Env} {roomID : RoomID} {userID : AuthID} {round : Round} {w : World}

/-- Looking for the round does not say that there are no problems. -/
theorem raises_findRoundToStart :
    Call.Raises (· ≠ noProblems) (findRoundToStart env roomID userID) := by
  have hfind : Call.Raises (· ≠ noProblems) (findRoomByID env roomID) :=
    findRoomByID_raises env roomID (by decide) (by decide) (by decide)
  refine Call.Raises.bind hfind fun found => ?_
  refine Call.Raises.ite _ (Call.Raises.fail (by decide)) ?_
  split
  · exact Call.Raises.fail (by decide)
  · exact Call.Raises.pure _

/-- Once it is marked started, a round is not refused for a lack of problems. -/
theorem raises_afterMark (env : Env) (round : Round) (users : List AuthID) :
    Call.Raises (· ≠ noProblems) (enrolParticipants env round.id users) ∧
      Call.Raises (· ≠ noProblems) (scheduleRoundEnd env round) := by
  constructor
  · refine Call.Raises.transaction _ (Call.Raises.bind ?_ fun _ => Call.Raises.bind ?_ fun _ => ?_)
    · exact Call.Raises.io _ (by decide) (Call.Raises.pure _)
    · refine Call.Raises.forEach fun user _ => Call.Raises.bind ?_ fun _ => ?_
      · exact Call.Raises.io _ (by decide) (Call.Raises.write _)
      · exact Call.Raises.io _ (by decide) (Call.Raises.write _)
    · exact Call.Raises.io _ (by decide) (Call.Raises.pure _)
  · refine Call.Raises.io _ (by decide) (Call.Raises.ite _ (Call.Raises.write _) ?_)
    exact Call.Raises.fail (by decide)

/-- A round with problems is not refused for a lack of them. -/
theorem markRoundStarted_ne_noProblems (h : w.db.problemSet env.problems round.id ≠ []) :
    ((markRoundStarted env round).run w).1 ≠ .err noProblems := by
  intro herr
  have hio : GoError.io ≠ noProblems := by decide
  by_cases hstart : Startable env round w
  · rw [markRoundStarted_run hstart] at herr
    cases herr
  unfold markRoundStarted at herr
  by_cases hcreated : round.status = .created
  · rw [if_neg (not_not_intro hcreated)] at herr
    cases hfind : env.fails .findProblemSet with
    | true =>
      rw [hfind] at herr
      exact hio (Outcome.err.inj herr)
    | false =>
      rw [hfind, Call.io_false, Call.run_read_bind, if_neg h] at herr
      cases hupdate : env.fails .updateRoundStatus with
      | true =>
        rw [hupdate] at herr
        exact hio (Outcome.err.inj herr)
      | false => exact hstart ⟨hcreated, hfind, h, hupdate⟩
  · rw [if_pos hcreated] at herr
    have hother : GoError.pointer ⟨400, "Round is either started or ended"⟩ ≠ noProblems := by decide
    exact hother (Outcome.err.inj herr)

/-- The start of a round with problems does not say that there are none. -/
theorem initiateRoundStart_ne_noProblems {users : List AuthID}
    (h : w.db.problemSet env.problems round.id ≠ []) :
    ((initiateRoundStart env round users).run w).1 ≠ .err noProblems := by
  obtain ⟨henrol, hschedule⟩ := raises_afterMark env round users
  refine Call.bind_ne_err (markRoundStarted_ne_noProblems h) fun problems w₁ _ herr => ?_
  have hrest : Call.Raises (· ≠ noProblems) (do
      enrolParticipants env round.id users
      scheduleRoundEnd env round
      pure (env.now, problems)) :=
    Call.Raises.bind henrol fun _ => Call.Raises.bind hschedule fun _ => Call.Raises.pure _
  exact hrest w₁ noProblems herr rfl

/-- A start that is refused for a lack of problems chose a round without any. -/
theorem chosenRound_of_noProblems
    (herr : ((startRoundByRoomID env roomID userID).run w).1 = .err noProblems) :
    ∃ round, w.db.chosenRound env roomID userID .created = some round ∧
      w.db.problemSet env.problems round.id = [] := by
  unfold startRoundByRoomID at herr
  cases hchosen : w.db.chosenRound env roomID userID .created with
  | none =>
    obtain ⟨e, hrun⟩ := findRoundToStart_fails hchosen
    rw [Call.bind_err hrun] at herr
    obtain rfl := Outcome.err.inj herr
    exact absurd rfl (raises_findRoundToStart w noProblems (congrArg Prod.fst hrun))
  | some round =>
    refine ⟨round, rfl, ?_⟩
    -- None of the later steps gives this error, so the problem set of the round is what was empty.
    by_contra hsome
    rw [Call.bind_ok (findRoundToStart_run hchosen)] at herr
    refine Call.bind_ne_err ?_ (fun users w₁ husers => ?_) herr
    · intro h
      exact Call.Raises.io (p := (· ≠ noProblems)) _ (by decide) (Call.Raises.read _) w _ h rfl
    · obtain ⟨-, rfl, rfl⟩ := Call.io_read_eq_ok husers
      refine Call.bind_ne_err (initiateRoundStart_ne_noProblems hsome) fun started w₂ _ => ?_
      intro h
      have hannounce : Call.Raises (· ≠ noProblems) (Call.forEach
          (w.redis.joinTimestamp roomID).members.zipIdx (announceParticipant env roomID)) :=
        Call.Raises.forEach fun user _ => Call.Raises.bind (Call.Raises.read _) fun _ =>
          Call.Raises.bind (Call.Raises.attempt _) fun _ => Call.Raises.pure _
      exact Call.Raises.bind hannounce (fun _ => Call.Raises.pure _) w₂ _ h rfl

/-- A round that is chosen, and that has no problems, is refused. -/
theorem startRoundByRoomID_noProblems
    (hchosen : w.db.chosenRound env roomID userID .created = some round)
    (hmembers : env.fails .zrangeJoin = false) (hfind : env.fails .findProblemSet = false)
    (hnone : w.db.problemSet env.problems round.id = []) :
    (startRoundByRoomID env roomID userID).run w = (.err noProblems, w) := by
  have hcreated : round.status = .created := (mem_of_chosenRound hchosen).2
  have hmark : (markRoundStarted env round).run w = (.err noProblems, w) := by
    unfold markRoundStarted
    rw [if_neg (not_not_intro hcreated), hfind, Call.io_false, Call.run_read_bind, if_pos hnone]
    rfl
  have hinit : (initiateRoundStart env round (w.members roomID)).run w = (.err noProblems, w) :=
    Call.bind_err hmark _
  unfold startRoundByRoomID
  rw [Call.bind_ok (findRoundToStart_run hchosen), Call.bind_ok (findActiveUsers_run hmembers _ _),
    Call.bind_err hinit]

/-- No start by the admin is refused for a lack of problems exactly when every created round of the
room has a problem, since any of them may be loaded first. -/
theorem startable_iff {room : Room} (hroom : w.db.roomByID roomID = some room) :
    (∀ env text room, env.uuid.parse text = some roomID → w.db.roomByID roomID = some room →
      ((startRoundByRoomID env text room.admin).run w).1 ≠ .err noProblems) ↔
      AllPopulated roomID w.db := by
  constructor
  · intro hall round hround hof hcreated
    -- A database that lists this round first lets the start fail.
    by_contra hnone
    let env : Env := { Env.faultless 0 with rounds := .withFirst round }
    have hmem : round ∈ w.db.rounds.rows.filter fun r => decide (r.roomID = roomID) :=
      List.mem_filter.mpr ⟨hround, decide_eq_true hof⟩
    have hfound : Findable env roomID w.db room := .of_roomByID rfl hroom
    have hchosen : w.db.chosenRound env roomID room.admin .created = some round := by
      refine chosenRound_eq_some.mpr ⟨room, hfound, rfl, ?_⟩
      rw [id_of_roomByID hroom]
      exact Arrangement.find?_withFirst hmem (decide_eq_true hcreated)
    have hempty : w.db.problemSet env.problems round.id = [] := by
      refine List.filter_eq_nil_iff.mpr fun p hp hjoined => ?_
      exact hnone ⟨p, hp, of_decide_eq_true hjoined⟩
    have hrun := startRoundByRoomID_noProblems hchosen rfl rfl hempty
    have hnames : env.uuid.parse roomID = some roomID :=
      env.uuid.accepts (isUUID_of_roomByID hroom)
    exact hall env roomID room hnames hroom (congrArg Prod.fst hrun)
  · intro hall env text room' hnames hroom' herr
    obtain ⟨round, hchosen, hempty⟩ := chosenRound_of_noProblems herr
    obtain ⟨⟨hround, hof⟩, hcreated⟩ := mem_of_chosenRound hchosen
    have hid : round.roomID = roomID := Option.some.inj (hof.symm.trans hnames)
    obtain ⟨p, hp, hjoined⟩ := hall round hround hid hcreated
    have hmem : p ∈ w.db.problemSet env.problems round.id :=
      env.problems.mem_order.mpr (List.mem_filter.mpr ⟨hp, decide_eq_true hjoined⟩)
    rw [hempty] at hmem
    exact List.not_mem_nil hmem

end Starting

/-! ## Creations that succeed -/

section Creation

variable {env : Env} {maxNumRoundsPerRoom : ℤ} {params : RoundCreationParameters} {roomID : RoomID}
  {w w' : World} {round : Round} {fallbackUsed : Bool}

/-- A round that the room service created is one that the round service created. -/
theorem createRound_ok
    (hrun : (createRound env maxNumRoundsPerRoom params roomID).run w =
      (.ok (round, fallbackUsed), w')) :
    ∃ room, Findable env roomID w.db room ∧
      (roundServiceCreateRound env params room.id).run w = (.ok (round, fallbackUsed), w') := by
  unfold createRound at hrun
  by_cases hfind : ∃ room, Findable env roomID w.db room
  swap
  · obtain ⟨e, hfails⟩ := findRoomByID_fails fun room h => hfind ⟨room, h⟩
    rw [Call.bind_err hfails] at hrun
    cases hrun
  obtain ⟨room, hroom⟩ := hfind
  refine ⟨room, hroom, ?_⟩
  rw [Call.bind_ok (findRoomByID_run hroom)] at hrun
  obtain ⟨exceeded, w₁, hlimit, hrest⟩ := Call.bind_eq_ok hrun
  obtain ⟨-, -, rfl⟩ := Call.io_read_eq_ok hlimit
  -- A room with too many open rounds gets none.
  split_ifs at hrest
  · cases hrest
  rcases hservice : (roundServiceCreateRound env params room.id).run w with ⟨⟨r, used⟩ | e | _, w₂⟩
  · rw [Call.attempt_ok hservice] at hrest
    obtain ⟨_, w₃, happend, hrest⟩ := Call.bind_eq_ok hrest
    obtain ⟨-, happend⟩ := Call.io_eq_ok happend
    cases happend
    cases hrest
    rfl
  -- An error of the round service is returned once the room is cleaned up.
  · rw [Call.attempt_err hservice] at hrest
    obtain ⟨_, w₃, -, hrest⟩ := Call.bind_eq_ok hrest
    cases hrest
  · rw [Call.attempt_panic hservice] at hrest
    cases hrest

/-- What is in the join table once problems were appended. -/
theorem mem_appendProblems (db : DB) {roundID r p : ℕ} {problems : List Problem} :
    (r, p) ∈ (db.appendProblems roundID problems).roundProblems ↔
      (r, p) ∈ db.roundProblems ∨ r = roundID ∧ p ∈ problems.map Problem.id := by
  unfold DB.appendProblems
  simp only [List.mem_append, List.mem_filter, List.mem_map, Prod.mk.injEq, List.contains_eq_mem,
    Bool.not_eq_true', decide_eq_false_iff_not]
  constructor
  · rintro (hold | ⟨⟨q, hq, rfl, rfl⟩, -⟩)
    · exact Or.inl hold
    · exact Or.inr ⟨rfl, q, hq, rfl⟩
  · rintro (hold | ⟨rfl, q, hq, rfl⟩)
    · exact Or.inl hold
    · by_cases hold : (r, q.id) ∈ db.roundProblems
      · exact Or.inl hold
      · exact Or.inr ⟨⟨q, hq, rfl, rfl⟩, hold⟩

/-- What a creation changes about the problems of the rounds: the new one gets those selected. -/
theorem allPopulated_appendProblems {db : DB} (hjoins : db.JoinsExisting) {problems : List Problem}
    (hrows : ∀ p ∈ problems, p ∈ db.problems.rows) :
    AllPopulated roomID ((db.addRound env params.duration roomID).appendProblems
        (db.rounds.fresh env.roundHint) problems) ↔
      problems ≠ [] ∧ AllPopulated roomID db := by
  have hnew := db.rounds.fresh_not_mem env.roundHint
  have hall : AllPopulated roomID ((db.addRound env params.duration roomID).appendProblems
        (db.rounds.fresh env.roundHint) problems) ↔
      ∀ round ∈ db.rounds.rows ++
          [newRound env.now params.duration roomID (db.rounds.fresh env.roundHint)],
        round.roomID = roomID → round.status = .created → ∃ p ∈ db.problems.rows,
          (round.id, p.id) ∈ db.roundProblems ∨
            round.id = db.rounds.fresh env.roundHint ∧ p.id ∈ problems.map Problem.id :=
    forall₄_congr fun round _ _ _ => exists_congr fun p => and_congr_right fun _ =>
      mem_appendProblems (db.addRound env params.duration roomID)
  rw [hall, List.forall_mem_append, List.forall_mem_singleton, and_comm]
  refine and_congr ?_ (forall₄_congr fun round hround _ _ => exists_congr fun p => ?_)
  · -- The new round: no old row of the join table is of it.
    constructor
    · intro h
      obtain ⟨p, -, hold | ⟨-, hp⟩⟩ := h rfl rfl
      · exact absurd (hjoins _ hold) hnew
      · rintro rfl
        cases hp
    · intro hsome _ _
      obtain ⟨p, hp⟩ := List.exists_mem_of_ne_nil _ hsome
      exact ⟨p, hrows p hp, Or.inr ⟨rfl, List.mem_map_of_mem hp⟩⟩
  · -- The other rounds have other keys.
    have hother : round.id ≠ db.rounds.fresh env.roundHint := fun heq =>
      hnew (heq ▸ List.mem_map_of_mem hround)
    simp [hother]

/-- A creation that succeeds leads to a round of the size asked for, in a room whose rounds can be
started, exactly when its count is kept and the created rounds of the room have problems. -/
theorem sized_iff (hjoins : w.db.JoinsExisting)
    (hrun : (createRound env maxNumRoundsPerRoom params roomID).run w =
      (.ok (round, fallbackUsed), w')) :
    env.uuid.parse roomID = some round.roomID ∧
      (Sized (params.requested w.db) round w' ↔
        KeepsCount env params w.db ∧ AllPopulated round.roomID w.db) := by
  obtain ⟨room, hroom, hservice⟩ := createRound_ok hrun
  obtain ⟨problems, hselect, hround, hdb⟩ := roundServiceCreateRound_ok hservice
  obtain ⟨hnodup, hrows⟩ := nodup_selectProblems hselect
  have hof : round.roomID = room.id := by
    rw [hround]
    rfl
  have hnew : round.id ∉ w.db.rounds.ids := by
    rw [hround]
    exact w.db.rounds.fresh_not_mem env.roundHint
  have hset (a : Arrangement Problem) : (w'.db.problemSet a round.id).Perm problems := by
    rw [hdb]
    exact problemSet_appendProblems hjoins hnew hnodup hrows a
  have hcount : (problems ≠ [] ∧ (problems.length : ℤ) = params.requested w.db) ↔
      KeepsCount env params w.db := by
    have hsized := sized_selectProblems hselect
    exact hsized
  have hstored : w'.db.roomByID round.roomID = some room := by
    rw [hdb, hof]
    exact hroom.stored
  -- The new round has the problems that were selected, and the other rounds keep theirs.
  have hpopulated : AllPopulated round.roomID w'.db ↔
      problems ≠ [] ∧ AllPopulated round.roomID w.db := by
    rw [hof, hdb, hround]
    exact allPopulated_appendProblems hjoins hrows
  have hnonempty (a : Arrangement Problem) : w'.db.problemSet a round.id ≠ [] ↔ problems ≠ [] := by
    rw [← List.length_pos_iff, ← List.length_pos_iff, (hset a).length_eq]
  have hstart := startable_iff hstored
  refine ⟨hof ▸ hroom.parsed, ?_, ?_⟩
  · intro hsized
    have hsome := (hnonempty (.inserted Problem)).mp (hsized.nonempty _)
    have hsize := hsized.size (.inserted Problem)
    rw [(hset _).length_eq] at hsize
    exact ⟨hcount.mp ⟨hsome, hsize⟩, (hpopulated.mp (hstart.mp hsized.startable)).2⟩
  · rintro ⟨hkeeps, hall⟩
    obtain ⟨hsome, hsize⟩ := hcount.mpr hkeeps
    refine ⟨fun a => (hnonempty a).mpr hsome, fun a => ?_, ?_⟩
    · rw [(hset a).length_eq, hsize]
    · exact hstart.mpr (hpopulated.mpr ⟨hsome, hall⟩)

end Creation

/-- A creation leads to a round of the size asked for, in a room whose rounds can be started,
exactly when, in case it succeeds, its count is kept and the created rounds of the room have
problems. -/
theorem createsSized_iff (env : Env) (maxNumRoundsPerRoom : ℤ) (params : RoundCreationParameters)
    (roomID : RoomID) (w : World) (hjoins : w.db.JoinsExisting) :
    CreatesSized env maxNumRoundsPerRoom params roomID w ↔
      (Admitted env maxNumRoundsPerRoom roomID w.db → Completes env params w.db →
          env.fails .appendRound = false →
        KeepsCount env params w.db ∧
          ∀ id, env.uuid.parse roomID = some id → AllPopulated id w.db) := by
  -- Only a creation that succeeds has to be judged; the condition is empty of the others.
  rcases createRound_cases env maxNumRoundsPerRoom params roomID w with
    ⟨hrefused, e, w', hrun, -⟩ | ⟨hadmitted, room, -, w₁, -, ⟨⟨hcompletes, happend⟩, r, hrun⟩ |
      ⟨hwell, e, w₂, hrun, -⟩⟩
  · refine iff_of_true ?_ fun hadmitted => absurd hadmitted hrefused
    intro round fallbackUsed w'' hok
    rw [hrun] at hok
    cases hok
  · constructor
    · intro hcreates _ _ _
      obtain ⟨hnames, hiff⟩ := sized_iff hjoins hrun
      obtain ⟨hkeeps, hall⟩ := hiff.mp (hcreates _ _ _ hrun).2
      refine ⟨hkeeps, fun id hid => ?_⟩
      rwa [← Option.some.inj (hnames.symm.trans hid)]
    · intro hcond round fallbackUsed w'' hok
      obtain ⟨hkeeps, hall⟩ := hcond hadmitted hcompletes happend
      obtain ⟨hnames, hiff⟩ := sized_iff hjoins hok
      exact ⟨hnames, hiff.mpr ⟨hkeeps, hall _ hnames⟩⟩
  · refine iff_of_true ?_ fun _ hcompletes happend => absurd ⟨hcompletes, happend⟩ hwell
    intro round fallbackUsed w'' hok
    rw [hrun] at hok
    cases hok

/-- The picked problem is there, and the round that waits has one. -/
theorem createsSized_ready :
    CreatesSized (Env.faultless 10) 3 (handPicked [1]) roomOne .ready := by
  refine (createsSized_iff (Env.faultless 10) 3 (handPicked [1]) roomOne .ready
    (by decide +kernel)).mpr fun _ _ _ => ⟨trivial, fun id hid => ?_⟩
  obtain rfl := (Env.faultless 10).uuid.eq_of_canonical hid isUUID_roomOne
  unfold AllPopulated
  decide +kernel

/-- A request that asks for no problems at all. -/
def noCounts : RoundCreationParameters := { handPicked [] with duration := 30 }

/-- A room without rounds gets one without problems, which cannot be started. -/
theorem not_createsSized_noCounts :
    World.twoRooms.db.JoinsExisting ∧
      ¬ CreatesSized (Env.faultless 10) 3 noCounts roomOne .twoRooms := by
  refine ⟨fun rp hrp => absurd hrp List.not_mem_nil, fun h => ?_⟩
  let result := (createRound (Env.faultless 10) 3 noCounts roomOne).run .twoRooms
  have hok : result.1 = .ok (newRound 10 30 roomOne 1, false) := by decide +kernel
  have hempty : result.2.db.problemSet (.inserted Problem) 1 = [] := by decide +kernel
  exact (h _ _ result.2 (Prod.ext hok rfl)).2.nonempty (.inserted Problem) hempty

end Bsg.Central
