import Bsg.Central.CreateRoundTrace
import Bsg.Central.Starting
import Bsg.Central.Submitting

/-!
# The order of hand-picked problems

`findProblemsByIDs` puts the problems that a user picked into the order in which he picked them
(`ids_findProblemsByIDs`). But the problem set of a round is kept in a join table without an order,
and each of the three queries that read it back may return it in another one: the query of the
start, and the two of a submission, which look for the submitted problem and for the next one.

`OrderKept` says that all of them see the order of the user. `orderKept_iff` says that this can only
be relied on for a round of a single problem.
-/

namespace Bsg.Central

open Bsg.Foundations

/-! ## What is picked -/

/-- The ids that were picked and that exist, each once, in the order in which they were picked. -/
def DB.picked (db : DB) (ids : List ℕ) : List ℕ :=
  (ids.filter fun id => decide (id ∈ db.problems.ids)).eraseDups

/-- What is still to be picked is put into order; by induction on what was asked for. -/
theorem ids_inOrder {found : List Problem} {p : ℕ → Bool}
    (hp : ∀ id, p id = (found.find? fun q => q.id = id).isSome) : ∀ (ids seen : List ℕ),
    (inOrder found seen ids).map Problem.id =
      ((ids.filter fun id => decide (id ∉ seen)).filter p).eraseDups
  | [], seen => rfl
  | id :: ids, seen => by
    have ih := ids_inOrder hp ids
    rw [inOrder]
    by_cases hseen : id ∈ seen
    · rw [if_pos hseen, ih, List.filter_cons_of_neg (by simpa using hseen)]
    · -- What comes later is not picked again.
      have hlater : (ids.filter fun x => decide (x ∉ id :: seen)) =
          (ids.filter fun x => decide (x ∉ seen)).filter fun x => !(x == id) := by
        rw [List.filter_filter]
        refine List.filter_congr fun x _ => ?_
        by_cases hx : x = id <;> simp [hx]
      rw [if_neg hseen, List.filter_cons_of_pos (by simpa using hseen)]
      cases hfind : found.find? fun q => q.id = id with
      | some problem =>
        -- It is put next, and is not put again.
        have hid : problem.id = id := by simpa using List.find?_some hfind
        have hknown : p id = true := by rw [hp, hfind]; rfl
        rw [List.filter_cons_of_pos hknown, List.eraseDups_cons]
        show problem.id :: (inOrder found (id :: seen) ids).map Problem.id = _
        rw [hid, ih, hlater]
        simp only [List.filter_filter]
        congr 2
        refine List.filter_congr fun x _ => ?_
        rw [← Bool.and_assoc, Bool.and_comm (p x), Bool.and_assoc]
      | none =>
        -- It is passed over, here and later.
        have hunknown : p id = false := by rw [hp, hfind]; rfl
        rw [List.filter_cons_of_neg (by simp [hunknown])]
        show (inOrder found (id :: seen) ids).map Problem.id = _
        rw [ih, hlater, List.filter_filter]
        congr 1
        refine List.filter_congr fun x _ => ?_
        by_cases hx : x = id
        · rw [hx, hunknown]
          rfl
        · simp [hx]

/-- What is picked is among what was found. -/
theorem mem_of_mem_inOrder {found : List Problem} {q : Problem} : ∀ {ids seen : List ℕ},
    q ∈ inOrder found seen ids → q ∈ found
  | id :: ids, seen, hq => by
    rw [inOrder] at hq
    by_cases hseen : id ∈ seen
    · rw [if_pos hseen] at hq
      exact mem_of_mem_inOrder hq
    · rw [if_neg hseen] at hq
      cases hfind : found.find? fun p => p.id = id with
      | some problem =>
        rw [hfind] at hq
        rcases List.mem_cons.mp hq with rfl | hq
        · exact List.mem_of_find?_eq_some hfind
        · exact mem_of_mem_inOrder hq
      | none =>
        rw [hfind] at hq
        exact mem_of_mem_inOrder hq

/-- What is left when repeats are dropped has none. -/
theorem nodup_eraseDups : ∀ l : List ℕ, l.eraseDups.Nodup
  | [] => List.nodup_nil
  | a :: l => by
    rw [List.eraseDups_cons, List.nodup_cons]
    refine ⟨fun hmem => ?_, nodup_eraseDups _⟩
    have hother := (List.mem_filter.mp (List.mem_eraseDups.mp hmem)).2
    simp at hother
termination_by l => l.length
decreasing_by exact Nat.lt_succ_of_le (List.length_filter_le _ _)

section Picked

variable {env : Env} {ids : List ℕ} {w : World}

/-- No problem is picked twice. -/
theorem DB.nodup_picked (db : DB) (ids : List ℕ) : (db.picked ids).Nodup := nodup_eraseDups _

/-- The picked problems are those of the list that are stored. -/
theorem DB.mem_picked {db : DB} {id : ℕ} :
    id ∈ db.picked ids ↔ id ∈ ids ∧ id ∈ db.problems.ids := by
  unfold DB.picked
  rw [List.mem_eraseDups, List.mem_filter, decide_eq_true_eq]

/-- Problems are found in the order in which they were picked, whatever the order of the query. -/
theorem ids_findProblemsByIDs (hids : ids ≠ []) {problems : List Problem} {w' : World}
    (hrun : (findProblemsByIDs env ids).run w = (.ok problems, w')) :
    problems.map Problem.id = w.db.picked ids ∧ ∀ p ∈ problems, p ∈ w.db.problems.rows := by
  unfold findProblemsByIDs at hrun
  rw [if_neg hids] at hrun
  obtain ⟨-, rfl, -⟩ := Call.io_read_eq_ok hrun
  generalize hfound : env.problems.order
    (w.db.problems.rows.filter fun p => decide (p.id ∈ ids)) = found
  -- What the query finds are the stored problems with one of the ids, in some order.
  have hmem (p : Problem) : p ∈ found ↔ p ∈ w.db.problems.rows ∧ p.id ∈ ids := by
    rw [← hfound, Arrangement.mem_order, List.mem_filter, decide_eq_true_eq]
  constructor
  · -- The loop over the ids restores their order, and keeps those that were found.
    rw [ids_inOrder fun _ => rfl, List.filter_filter]
    unfold DB.picked
    congr 1
    refine List.filter_congr fun id hid => ?_
    rw [decide_eq_true List.not_mem_nil, Bool.and_true, Bool.eq_iff_iff, decide_eq_true_eq,
      List.find?_isSome]
    constructor
    · rintro ⟨p, hp, heq⟩
      rw [← of_decide_eq_true heq]
      exact List.mem_map_of_mem ((hmem p).mp hp).1
    · intro hknown
      obtain ⟨p, hp, rfl⟩ := List.mem_map.mp hknown
      exact ⟨p, (hmem p).mpr ⟨hp, hid⟩, decide_eq_true rfl⟩
  · exact fun p hp => ((hmem p).mp (mem_of_mem_inOrder hp)).1

/-- The problems of a round with hand-picked problems are those that were picked. -/
theorem ids_selectProblems {params : RoundCreationParameters} (hids : params.problemIDs ≠ [])
    {problems : List Problem} {fallbackUsed : Bool} {w' : World}
    (hrun : (selectProblems env params).run w = (.ok (problems, fallbackUsed), w')) :
    problems.map Problem.id = w.db.picked params.problemIDs ∧
      (∀ p ∈ problems, p ∈ w.db.problems.rows) ∧ problems ≠ [] := by
  unfold selectProblems at hrun
  rw [if_pos hids] at hrun
  split_ifs at hrun
  · cases hrun
  · obtain ⟨found, w₁, hfind, hrest⟩ := Call.bind_eq_ok hrun
    obtain ⟨hpicked, hrows⟩ := ids_findProblemsByIDs hids hfind
    split_ifs at hrest with hnone
    · cases hrest
    · cases hrest
      exact ⟨hpicked, hrows, hnone⟩

end Picked

/-! ## The problem set of a new round -/

/-- The rows of the join table belong to rounds that exist, as its foreign key demands. -/
def DB.JoinsExisting (db : DB) : Prop := ∀ rp ∈ db.roundProblems, rp.1 ∈ db.rounds.ids

instance (db : DB) : Decidable db.JoinsExisting := inferInstanceAs (Decidable (∀ rp ∈ _, _))

section Creation

variable {env : Env} {params : RoundCreationParameters} {roomID : RoomID} {w w' : World}
  {round : Round} {fallbackUsed : Bool}

/-- A round that was created has the problems that were selected for it. -/
theorem roundServiceCreateRound_ok
    (hrun : (roundServiceCreateRound env params roomID).run w = (.ok (round, fallbackUsed), w')) :
    ∃ problems, (selectProblems env params).run
          { w with db := w.db.addRound env params.duration roomID } =
        (.ok (problems, fallbackUsed), { w with db := w.db.addRound env params.duration roomID }) ∧
      round = newRound env.now params.duration roomID (w.db.rounds.fresh env.roundHint) ∧
      w'.db = (w.db.addRound env params.duration roomID).appendProblems round.id problems := by
  obtain ⟨inserted, w₁, hinsert, hrest⟩ := Call.bind_eq_ok hrun
  obtain ⟨hworks, hinsert⟩ := Call.io_eq_ok hinsert
  cases hinsert
  obtain ⟨⟨problems, used⟩, w₂, hselect, hrest⟩ := Call.bind_eq_ok hrest
  -- The selection only looks.
  have hsame : w₂ = { w with db := w.db.addRound env params.duration roomID } := by
    have hlooks : Looks (selectProblems env params)
        { w with db := w.db.addRound env params.duration roomID } _ := looks_selectProblems params
    rcases hlooks with ⟨-, found, hfound⟩ | ⟨-, e, hfound⟩
    · exact congrArg Prod.snd (hselect.symm.trans hfound)
    · exact congrArg Prod.snd (hselect.symm.trans hfound)
  subst hsame
  obtain ⟨_, w₃, happend, hrest⟩ := Call.bind_eq_ok hrest
  obtain ⟨-, happend⟩ := Call.io_eq_ok happend
  cases happend
  obtain ⟨_, w₄, hset, hrest⟩ := Call.bind_eq_ok hrest
  obtain ⟨-, hset⟩ := Call.io_eq_ok hset
  cases hset
  cases hrest
  exact ⟨problems, hselect, rfl, rfl⟩

/-- The problems of a new round are those that were selected for it. -/
theorem problemSet_appendProblems {db : DB} (hjoins : db.JoinsExisting) {roundID : ℕ}
    (hnew : roundID ∉ db.rounds.ids) {problems : List Problem} (hnodup : (problems.map Problem.id).Nodup)
    (hrows : ∀ p ∈ problems, p ∈ db.problems.rows) (a : Arrangement Problem) :
    ((db.appendProblems roundID problems).problemSet a roundID).Perm problems := by
  refine ((a.perm _).trans ?_)
  refine (List.perm_ext_iff_of_nodup (db.problems.rows_nodup.filter _) hnodup.of_map).mpr
    fun p => ?_
  have hold : ∀ k, (roundID, k) ∉ db.roundProblems := fun k hk => hnew (hjoins _ hk)
  have hjoined : (roundID, p.id) ∈ (db.appendProblems roundID problems).roundProblems ↔
      p.id ∈ problems.map Problem.id := by
    unfold DB.appendProblems
    simp [hold]
  rw [List.mem_filter, decide_eq_true_eq, hjoined]
  constructor
  · rintro ⟨hp, hid⟩
    obtain ⟨q, hq, heq⟩ := List.mem_map.mp hid
    rwa [← Table.eq_of_id_eq (hrows q hq) hp heq]
  · exact fun hp => ⟨hrows p hp, List.mem_map_of_mem hp⟩

end Creation

/-! ## What is read back -/

/-- The next problem for the author of a submission, when the problems come in the order given. -/
def nextInOrder (db : DB) (picked : List ℕ) (ctx : SubmissionContext) : List Rtc.Request :=
  (((picked[ctx.problemIndex + 1]?).bind db.problems.find?).map fun p =>
    .nextProblem ctx.round.roomID p.slug ctx.participant.participantAuthID).toList

/-- The start of a round and the submissions to it see its problems in the order given. -/
structure SeesOrder (picked : List ℕ) (roundID : ℕ) (w : World) : Prop where
  /-- The start returns them so. -/
  returned : ∀ (env : Env) (round : Round) (users : List AuthID) (start : ℤ)
    (problems : List Problem) (w' : World), round.id = roundID →
    (initiateRoundStart env round users).run w = (.ok (start, problems), w') →
      problems.map Problem.id = picked
  /-- The start announces them so. -/
  announced : ∀ (env : Env) (round : Round) (users : List AuthID), round.id = roundID →
    ∀ req ∈ ((initiateRoundStart env round users).run w).2.sent.drop w.sent.length,
      ∃ problems : List Problem, problems.map Problem.id = picked ∧
        (∀ p ∈ problems, p ∈ w.db.problems.rows) ∧
          req = .roundStart round.roomID (problems.map Problem.slug) env.now round.duration
  /-- A submission finds its problem at the place where it was picked. -/
  indexed : ∀ (env : Env) (params : RoundSubmissionParameters) (author : AuthID)
    (ctx : SubmissionContext) (w' : World), ctx.round.id = roundID →
    (checkSubmission env params author).run w = (.ok ctx, w') →
      picked[ctx.problemIndex]? = some ctx.problem.id
  /-- An accepted submission leads to the problem that was picked next. -/
  stepped : ∀ (env : Env) (ctx : SubmissionContext), (∀ op, env.fails op = false) →
    env.reply .nextProblem = .ok → ctx.round.id = roundID →
      (announceNextProblem env ctx).run w = (.ok (), w.tell (nextInOrder w.db picked ctx))

/-- As long as the problems of a new round stay, they are seen in the order in which they were
picked for it. -/
def OrderKept (env : Env) (params : RoundCreationParameters) (roomID : RoomID) (w : World) : Prop :=
  ∀ round fallbackUsed w₁, (roundServiceCreateRound env params roomID).run w =
      (.ok (round, fallbackUsed), w₁) →
    ∀ w₂ : World, w₂.db.problems = w₁.db.problems → w₂.db.roundProblems = w₁.db.roundProblems →
      SeesOrder (w.db.picked params.problemIDs) round.id w₂

section Reading

variable {env : Env} {round : Round} {users : List AuthID} {w : World}

/-- A round that is started comes with its problems as they were loaded. -/
theorem initiateRoundStart_ok {start : ℤ} {problems : List Problem} {w' : World}
    (hrun : (initiateRoundStart env round users).run w = (.ok (start, problems), w')) :
    problems = w.db.problemSet env.problems round.id := by
  obtain ⟨loaded, w₁, hmark, hrest⟩ := Call.bind_eq_ok hrun
  obtain ⟨_, w₂, -, hrest⟩ := Call.bind_eq_ok hrest
  obtain ⟨_, w₃, -, hrest⟩ := Call.bind_eq_ok hrest
  cases hrest
  by_cases hstart : Startable env round w
  · rw [markRoundStarted_run hstart] at hmark
    cases hmark
    rfl
  · obtain ⟨e, hrefused⟩ := markRoundStarted_refused hstart
    rw [hrefused] at hmark
    cases hmark

/-- A start tells rtc-service the problems as they were loaded, if it tells it anything. -/
theorem initiateRoundStart_sent :
    ((initiateRoundStart env round users).run w).2.sent = w.sent ∨
      ((initiateRoundStart env round users).run w).2.sent =
        w.sent ++ [roundStartRequest env round w] := by
  have hstarted : (w.started env round).sent = w.sent ∨
      (w.started env round).sent = w.sent ++ [roundStartRequest env round w] := by
    unfold World.started World.tell delivered
    split_ifs
    · exact Or.inl (List.append_nil _)
    · exact Or.inr rfl
  have henrolled := (enrols_enrolled env round.id users (w.started env round)).enrolling.sent
  rcases initiateRoundStart_cases env round users w with ⟨-, e, hrun⟩ |
    ⟨-, ⟨-, e, w', hrun, -, henrolling⟩ | ⟨-, ⟨-, e, hrun⟩ | ⟨-, r, hrun⟩⟩⟩
  · rw [hrun]
    exact Or.inl rfl
  · rw [hrun, henrolling.sent]
    exact hstarted
  · rw [hrun, henrolled]
    exact hstarted
  · have hscheduled : (((w.started env round).enrolled env round.id users).scheduled env round).sent =
        (w.started env round).sent := henrolled
    rw [hrun, hscheduled]
    exact hstarted

/-- With a single problem there is only one order, and no next problem. -/
theorem seesOrder_singleton {p : Problem} {roundID : ℕ}
    (h : ∀ a, w.db.problemSet a roundID = [p]) : SeesOrder [p.id] roundID w where
  returned := by
    rintro env round users start problems w' rfl hrun
    -- With one problem every order of the rows is the order of the list.
    rw [initiateRoundStart_ok hrun, h]
    rfl
  announced := by
    rintro env round users rfl req hreq
    have hp : p ∈ w.db.problems.rows := by
      have hmem : p ∈ w.db.problemSet env.problems round.id := by simp [h]
      exact (List.mem_filter.mp (env.problems.mem_order.mp hmem)).1
    rcases initiateRoundStart_sent with hsent | hsent
    · rw [hsent, List.drop_length] at hreq
      cases hreq
    · rw [hsent, List.drop_left, List.mem_singleton] at hreq
      refine ⟨[p], rfl, by simpa using hp, ?_⟩
      rw [hreq, roundStartRequest, h]
  indexed := by
    rintro env params author ctx w' rfl hcheck
    have hindex := checkSubmission_index hcheck
    rw [h, List.getElem?_singleton] at hindex
    split_ifs at hindex with hzero
    · cases hindex
      simp [hzero]
  stepped := by
    rintro env ctx hworks - rfl
    have hnone : nextInOrder w.db [p.id] ctx = [] := by
      unfold nextInOrder
      simp
    rw [hnone, World.tell_nil]
    have hrequest : nextProblemRequest env ctx w = [] := by
      unfold nextProblemRequest
      rw [h]
      rfl
    rw [announceNextProblem_run (hworks _) (hworks _), hrequest, World.tell_nil]

/-- With several problems the start may return any of them first. -/
theorem not_seesOrder_of_two {picked : List ℕ} {a b : ℕ} (hround : round.status = .created)
    (hduration : 0 < endInterval round) {p : Problem}
    (hp : p ∈ w.db.problemSet (.inserted Problem) round.id) (hother : p.id ≠ a) :
    ¬ SeesOrder (a :: b :: picked) round.id w := by
  intro hsees
  -- The other problem is loaded first, and nobody takes part.
  let env : Env := { Env.faultless 0 with problems := .withFirst p }
  have hfirst : (w.db.problemSet env.problems round.id).find? (fun _ => true) = some p :=
    Arrangement.find?_withFirst hp rfl
  have hsome : w.db.problemSet env.problems round.id ≠ [] := by
    intro hnone
    rw [hnone] at hfirst
    cases hfirst
  have hstart : Startable env round w := ⟨hround, rfl, hsome, rfl⟩
  have hmark := markRoundStarted_run hstart
  have henrol : Enrollable env [] := ⟨rfl, fun i hi => absurd hi (Nat.not_lt_zero i), rfl⟩
  have hschedule : Schedulable env round := ⟨rfl, hduration⟩
  have hrun : (initiateRoundStart env round []).run w =
      (.ok (0, w.db.problemSet env.problems round.id),
        ((w.started env round).enrolled env round.id []).scheduled env round) := by
    unfold initiateRoundStart
    rw [Call.bind_ok hmark, Call.bind_ok (enrolParticipants_run henrol round.id _),
      Call.bind_ok (scheduleRoundEnd_run hschedule _)]
    rfl
  have hids := hsees.returned env round [] _ _ _ rfl hrun
  cases hload : w.db.problemSet env.problems round.id with
  | nil => exact hsome hload
  | cons q rest =>
    rw [hload] at hids hfirst
    obtain rfl : q = p := Option.some.inj hfirst
    exact hother (List.cons.inj hids).1

end Reading

/-! ## When the order is kept -/

/-- A new round with hand-picked problems, when they can be selected and nothing else fails. -/
theorem roundServiceCreateRound_picked {ids : List ℕ} (hids : ids ≠ [])
    (hmany : ids.length ≤ maxHandPickedProblems) {w : World} (hknown : w.db.picked ids ≠ [])
    (roomID : RoomID) :
    ∃ r w', (roundServiceCreateRound (Env.faultless 0) (handPicked ids) roomID).run w =
      (.ok r, w') := by
  have hselectable : Selectable (Env.faultless 0) (handPicked ids) w.db := by
    obtain ⟨id, hid⟩ := List.exists_mem_of_ne_nil _ hknown
    unfold Selectable
    rw [if_pos (show (handPicked ids).problemIDs ≠ [] from hids)]
    exact ⟨hmany, rfl, id, DB.mem_picked.mp hid⟩
  have hinsert : (Env.faultless 0).fails .insertRound = false := rfl
  obtain ⟨w', -, ⟨-, r, hrun⟩ | ⟨hnot, -⟩⟩ :=
    roundServiceCreateRound_cases hinsert (handPicked ids) roomID w
  · exact ⟨r, w', hrun⟩
  · exact absurd ⟨hselectable, rfl, rfl⟩ hnot

/-- The problem set of a new round with hand-picked problems, however it is loaded. -/
theorem problemSet_picked {env : Env} {params : RoundCreationParameters} {roomID : RoomID}
    {w w₁ : World} {round : Round} {fallbackUsed : Bool} (hjoins : w.db.JoinsExisting)
    (hids : params.problemIDs ≠ [])
    (hrun : (roundServiceCreateRound env params roomID).run w = (.ok (round, fallbackUsed), w₁)) :
    ∃ problems : List Problem, problems.map Problem.id = w.db.picked params.problemIDs ∧
      problems ≠ [] ∧ ∀ a, (w₁.db.problemSet a round.id).Perm problems := by
  obtain ⟨problems, hselect, hround, hdb⟩ := roundServiceCreateRound_ok hrun
  obtain ⟨hpicked, hrows, hsome⟩ := ids_selectProblems hids hselect
  have hnew : round.id ∉ w.db.rounds.ids := by
    rw [hround]
    exact w.db.rounds.fresh_not_mem env.roundHint
  have hnodup : (problems.map Problem.id).Nodup := by
    rw [hpicked]
    exact DB.nodup_picked _ _
  refine ⟨problems, hpicked, hsome, fun a => ?_⟩
  rw [hdb]
  exact problemSet_appendProblems hjoins hnew hnodup hrows a

/-- A single problem is in order. -/
theorem orderKept_of_one {env : Env} {params : RoundCreationParameters} {w : World}
    (hjoins : w.db.JoinsExisting) (hids : params.problemIDs ≠ [])
    (hone : (w.db.picked params.problemIDs).length ≤ 1) (roomID : RoomID) :
    OrderKept env params roomID w := by
  intro round fallbackUsed w₁ hrun w₂ hproblems hjoined
  obtain ⟨problems, hpicked, hsome, hperm⟩ := problemSet_picked hjoins hids hrun
  rw [← hpicked] at hone ⊢
  rw [List.length_map] at hone
  obtain ⟨p, rfl⟩ : ∃ p, problems = [p] := by
    have hpos := List.length_pos_of_ne_nil hsome
    exact List.length_eq_one_iff.mp (by omega)
  refine seesOrder_singleton fun a => ?_
  have hsame : w₂.db.problemSet a round.id = w₁.db.problemSet a round.id := by
    unfold DB.problemSet
    rw [hproblems, hjoined]
  rw [hsame]
  exact List.perm_singleton.mp (hperm a)

/-- Of several problems, the second may be returned first. -/
theorem not_orderKept_of_two {ids : List ℕ} {w : World} (hjoins : w.db.JoinsExisting)
    (hids : ids ≠ []) (hmany : ids.length ≤ maxHandPickedProblems)
    (htwo : ¬ (w.db.picked ids).length ≤ 1) (roomID : RoomID) :
    ¬ OrderKept (Env.faultless 0) (handPicked ids) roomID w := by
  intro hkept
  have hnodup := w.db.nodup_picked ids
  obtain ⟨a, b, picked, hpicked⟩ : ∃ a b picked, w.db.picked ids = a :: b :: picked := by
    cases hlist : w.db.picked ids with
    | nil => simp [hlist] at htwo
    | cons a rest =>
      cases rest with
      | nil => simp [hlist] at htwo
      | cons b picked => exact ⟨a, b, picked, rfl⟩
  have hknown : w.db.picked ids ≠ [] := by
    rw [hpicked]
    exact List.cons_ne_nil _ _
  obtain ⟨⟨round, fallbackUsed⟩, w₁, hrun⟩ :=
    roundServiceCreateRound_picked hids hmany hknown roomID
  obtain ⟨problems, hproblems, -, hperm⟩ := problemSet_picked hjoins hids hrun
  obtain ⟨-, -, hround, -⟩ := roundServiceCreateRound_ok hrun
  have hsees := hkept round fallbackUsed w₁ hrun w₁ rfl rfl
  -- The problem that was picked second is another one than the first.
  obtain ⟨p, hp, hid⟩ : ∃ p ∈ problems, p.id = b := by
    have hb : b ∈ problems.map Problem.id := by
      rw [hproblems]
      show b ∈ w.db.picked ids
      simp [hpicked]
    exact List.mem_map.mp hb
  have hother : p.id ≠ a := by
    rw [hpicked] at hnodup
    rw [hid]
    rintro rfl
    simp at hnodup
  have hcreated : round.status = .created := by rw [hround]; rfl
  have hduration : 0 < endInterval round := by
    rw [hround]
    show 0 < int64 (int64 (60 * 10^9 * 30) + roundDurationBuffer * 10^9)
    decide
  have hpicked' : w.db.picked (handPicked ids).problemIDs = a :: b :: picked := hpicked
  rw [hpicked'] at hsees
  exact not_seesOrder_of_two hcreated hduration ((hperm _).mem_iff.mpr hp) hother hsees

/-- The order in which problems were picked can be relied on exactly when there is at most one that
exists. -/
theorem orderKept_iff (w : World) (hjoins : w.db.JoinsExisting) (ids : List ℕ) (hids : ids ≠ [])
    (hmany : ids.length ≤ maxHandPickedProblems) :
    (∀ env params roomID, params.problemIDs = ids → OrderKept env params roomID w) ↔
      (w.db.picked ids).length ≤ 1 := by
  constructor
  · intro hkept
    by_contra htwo
    exact not_orderKept_of_two hjoins hids hmany htwo roomOne (hkept _ _ roomOne rfl)
  · rintro hone env params roomID rfl
    exact orderKept_of_one hjoins hids hone roomID

/-- The world with two problems and nothing else. -/
def World.twoProblems : World :=
  { World.empty with db := { DB.empty with problems := (Table.empty.insert 1 fun id =>
      ⟨id, "climbing-stairs", [], difficultyEasy, false, false, false⟩).insert 2 fun id =>
      ⟨id, "jump-game", [], difficultyMedium, false, false, false⟩ } }

/-- Of these ids only one is that of a problem, so there is only one order to show. -/
theorem orderKept_twoProblems :
    OrderKept (Env.faultless 0) (handPicked [2, 2, 7]) roomOne World.twoProblems :=
  (orderKept_iff World.twoProblems (fun _ h => absurd h List.not_mem_nil) [2, 2, 7] (by decide)
    (by decide)).mpr (by decide) _ _ roomOne rfl

/-- Two problems that are picked may be announced the other way around. -/
theorem not_orderKept_twoProblems :
    ([2, 1] : List ℕ).length ≤ maxHandPickedProblems ∧
      ¬ OrderKept (Env.faultless 0) (handPicked [2, 1]) roomOne World.twoProblems := by
  refine ⟨by decide, not_orderKept_of_two (fun _ h => absurd h List.not_mem_nil) (by decide)
    (by decide) ?_ roomOne⟩
  decide

end Bsg.Central
