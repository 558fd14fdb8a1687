import Bsg.Central.Counting
import Bsg.Central.Handoff
import Bsg.Central.Redelivery

/-!
# Legal submissions

A submission is legal when its round is running, its problem belongs to the round, and its author
takes part in it (`LegalSubmission`). `createRoundSubmission` looks these up one after the other,
and each lookup may find nothing: a missing participant is answered with an error, but the code goes
on with a missing round, and with a missing problem. `acceptsLegal_iff` says that it stores the
legal submissions and refuses the others exactly when no such nil pointer is met (`NilFree`).
-/

namespace Bsg.Central

open Bsg.Foundations

/-- The round is started, the problem belongs to it, and the author takes part in it. -/
def LegalSubmission (params : RoundSubmissionParameters) (author : AuthID) (w : World) : Prop :=
  ∃ round, w.db.rounds.find? params.roundID = some round ∧ round.status = .started ∧
    ∃ problem, w.db.problems.find? params.problemID = some problem ∧
      (round.id, problem.id) ∈ w.db.roundProblems ∧
      ∃ p ∈ w.db.participants.rows, p.participantAuthID = author ∧ p.roundID = params.roundID

/-- The queries of the checks work. -/
structure Env.Reads (env : Env) : Prop where
  round : env.fails .findRound = false
  problem : env.fails .findProblem = false
  problemSet : env.fails .findProblemSet = false
  participant : env.fails .findParticipant = false
  accepted : env.fails .countAccepted = false

/-- The database can be read, and the submission inserted. -/
structure Env.Inserts (env : Env) : Prop where
  reads : env.Reads
  insertion : env.fails .createSubmission = false

/-- The request adds one round submission and its submission, with the code, language and verdict
of the request, for its round and problem and for a row of its author in that round. -/
def StoresSubmission (env : Env) (params : RoundSubmissionParameters) (author : AuthID)
    (w : World) : Prop :=
  ∃ ctx, Found params author ctx w ∧
    (w.submit env params author).db.roundSubmissions.rows =
      w.db.roundSubmissions.rows ++ [recordedRoundSubmission env ctx w] ∧
    (w.submit env params author).db.submissions.rows =
      w.db.submissions.rows ++ [recordedSubmission env params ctx w]

/-- The legal submissions are stored, as far as the database works, and all others are answered with
an error and change nothing. -/
structure AcceptsLegal (env : Env) (params : RoundSubmissionParameters) (author : AuthID)
    (w : World) : Prop where
  stores : LegalSubmission params author w → env.Inserts → StoresSubmission env params author w
  refuses : ¬ (LegalSubmission params author w ∧ env.Inserts) →
    ∃ e, (createRoundSubmission env params author).run w = (.err e, w)

/-- What is missing is not followed: the round exists; and when it is started, the problem exists,
or the round has no problem to compare it with. A failing query ends the request before that. -/
def NilFree (env : Env) (params : RoundSubmissionParameters) (w : World) : Prop :=
  env.fails .findRound = true ∨ ∃ round, w.db.rounds.find? params.roundID = some round ∧
    (round.status = .started → env.fails .findProblem = true ∨ env.fails .findProblemSet = true ∨
      (w.db.problems.find? params.problemID).isSome = true ∨
        ∀ problem ∈ w.db.problems.rows, (round.id, problem.id) ∉ w.db.roundProblems)

section Check

variable {env : Env} {params : RoundSubmissionParameters} {author : AuthID} {w : World}

/-- A query that does not fail reads. -/
theorem run_io_read {α : Type} {fails : Bool} (h : fails = false) (f : World → α) (w : World) :
    (Call.io fails .io (Call.read f) : Service α).run w = (.ok (f w), w) := by
  rw [h]
  rfl

/-- An operation that fails ends the call. -/
theorem run_io_fails {α : Type} {fails : Bool} (h : fails = true) (x : Service α) (w : World) :
    (Call.io fails .io x : Service α).run w = (.err .io, w) := by
  rw [h]
  rfl

/-- The place of a problem in a list that holds its key. -/
theorem findIdx?_problem {l : List Problem} {id : ℕ} :
    (∃ k, (l.findIdx? fun p => p.id = id) = some k) ↔ ∃ p ∈ l, p.id = id := by
  rw [← Option.isSome_iff_exists, List.findIdx?_isSome, List.any_eq_true]
  simp only [decide_eq_true_eq]

/-- Problems of a round, as the code loads them. -/
theorem mem_problemSet {a : Arrangement Problem} {roundID : ℕ} {p : Problem} :
    p ∈ w.db.problemSet a roundID ↔
      p ∈ w.db.problems.rows ∧ (roundID, p.id) ∈ w.db.roundProblems := by
  rw [DB.problemSet, Arrangement.mem_order, List.mem_filter, decide_eq_true_eq]

/-- Once a started round and the problem are found, the checks succeed for a legal submission, and
end with an error otherwise. -/
theorem checkSubmission_of_problem {round : Round} {problem : Problem}
    (hfr : env.fails .findRound = false) (hround : w.db.rounds.find? params.roundID = some round)
    (hstarted : round.status = .started) (hfp : env.fails .findProblem = false)
    (hfs : env.fails .findProblemSet = false)
    (hproblem : w.db.problems.find? params.problemID = some problem) :
    (LegalSubmission params author w ∧ env.Reads ∧
        ∃ ctx, (checkSubmission env params author).run w = (.ok ctx, w)) ∨
      (¬ (LegalSubmission params author w ∧ env.Reads) ∧
        ∃ e, (checkSubmission env params author).run w = (.err e, w)) := by
  unfold checkSubmission
  rw [Call.bind_ok (run_io_read hfr _ w), hround]
  dsimp only
  rw [if_neg (by rw [hstarted]; decide), if_neg (by rw [hstarted]; decide),
    Call.bind_ok (run_io_read hfp _ w), Call.bind_ok (run_io_read hfs _ w), hproblem]
  dsimp only
  cases hidx : (w.db.problemSet env.problems round.id).findIdx? fun p => p.id = problem.id with
  | none =>
    refine Or.inr ⟨?_, _, rfl⟩
    rintro ⟨⟨r, hr, -, p, hp, hof, -⟩, -⟩
    obtain rfl : r = round := Option.some.inj (hr.symm.trans hround)
    obtain rfl : p = problem := Option.some.inj (hp.symm.trans hproblem)
    obtain ⟨k, hk⟩ := findIdx?_problem.mpr
      ⟨p, mem_problemSet.mpr ⟨(Table.find?_eq_some.mp hproblem).1, hof⟩, rfl⟩
    rw [hidx] at hk
    cases hk
  | some problemIndex =>
    have hof : (round.id, problem.id) ∈ w.db.roundProblems := by
      obtain ⟨p, hp, hid⟩ := findIdx?_problem.mp ⟨problemIndex, hidx⟩
      rw [← hid]
      exact (mem_problemSet.mp hp).2
    dsimp only
    -- The participant, and the points.
    cases hft : env.fails .findParticipant with
    | true =>
      exact Or.inr ⟨fun h => Bool.false_ne_true (h.2.participant.symm.trans hft), _,
        Call.bind_err (run_io_fails rfl _ w) _⟩
    | false =>
      rw [Call.bind_ok (run_io_read rfl _ w)]
      cases hparticipant : (env.participants.order w.db.participants.rows).find? fun p =>
          p.participantAuthID = author ∧ p.roundID = params.roundID with
      | none =>
        refine Or.inr ⟨?_, _, rfl⟩
        rintro ⟨⟨-, -, -, -, -, -, p, hp, hauthor⟩, -⟩
        have := List.find?_eq_none.mp hparticipant p (env.participants.mem_order.mpr hp)
        exact this (decide_eq_true hauthor)
      | some participant =>
        have hlegal : LegalSubmission params author w := by
          refine ⟨round, hround, hstarted, problem, hproblem, hof, participant, ?_, ?_⟩
          · exact env.participants.mem_order.mp (List.mem_of_find?_eq_some hparticipant)
          · have hfound := List.find?_some hparticipant
            exact of_decide_eq_true hfound
        dsimp only
        unfold determineScoreDeltaForUserBySubmission
        cases hfc : env.fails .countAccepted with
        | true =>
          exact Or.inr ⟨fun h => Bool.false_ne_true (h.2.accepted.symm.trans hfc), _,
            Call.bind_err (run_io_fails rfl _ w) _⟩
        | false =>
          refine Or.inl ⟨hlegal, ⟨hfr, hfp, hfs, hft, hfc⟩, ?_⟩
          rw [Call.bind_ok (run_io_read rfl _ w)]
          exact ⟨_, rfl⟩

/-- The checks succeed for a legal submission, follow a nil pointer, or end with an error. -/
theorem checkSubmission_cases (env : Env) (params : RoundSubmissionParameters) (author : AuthID)
    (w : World) :
    (LegalSubmission params author w ∧ env.Reads ∧
        ∃ ctx, (checkSubmission env params author).run w = (.ok ctx, w)) ∨
      (¬ (LegalSubmission params author w ∧ env.Reads) ∧ NilFree env params w ∧
        ∃ e, (checkSubmission env params author).run w = (.err e, w)) ∨
      (¬ NilFree env params w ∧ (checkSubmission env params author).run w = (.panic, w)) := by
  by_cases hfound : ∃ round problem, env.fails .findRound = false ∧
      w.db.rounds.find? params.roundID = some round ∧ round.status = .started ∧
      env.fails .findProblem = false ∧ env.fails .findProblemSet = false ∧
      w.db.problems.find? params.problemID = some problem
  · obtain ⟨round, problem, hfr, hround, hstarted, hfp, hfs, hproblem⟩ := hfound
    have hfree : NilFree env params w := by
      refine Or.inr ⟨round, hround, fun _ => Or.inr (Or.inr (Or.inl ?_))⟩
      rw [hproblem]
      rfl
    rcases checkSubmission_of_problem hfr hround hstarted hfp hfs hproblem with h | ⟨hnot, he⟩
    · exact Or.inl h
    · exact Or.inr (Or.inl ⟨hnot, hfree, he⟩)
  unfold checkSubmission
  -- The round.
  cases hfr : env.fails .findRound with
  | true =>
    refine Or.inr (Or.inl ⟨fun h => ?_, Or.inl hfr, _, Call.bind_err (run_io_fails rfl _ w) _⟩)
    exact Bool.false_ne_true (h.2.round.symm.trans hfr)
  | false =>
  rw [Call.bind_ok (run_io_read rfl _ w)]
  cases hround : w.db.rounds.find? params.roundID with
  | none =>
    refine Or.inr (Or.inr ⟨?_, rfl⟩)
    rintro (h | ⟨round, h, -⟩)
    · exact Bool.false_ne_true (hfr.symm.trans h)
    · rw [hround] at h
      cases h
  | some round =>
  dsimp only
  by_cases hstarted : round.status = .started
  swap
  · have hnot : ¬ (LegalSubmission params author w ∧ env.Reads) := by
      rintro ⟨⟨r, hr, hs, -⟩, -⟩
      rw [hround] at hr
      cases hr
      exact hstarted hs
    have hfree : NilFree env params w := Or.inr ⟨round, hround, fun h => absurd h hstarted⟩
    refine Or.inr (Or.inl ⟨hnot, hfree, ?_⟩)
    split_ifs with hcreated hended
    · exact ⟨_, rfl⟩
    · exact ⟨_, rfl⟩
    · cases hstatus : round.status with
      | created => exact absurd hstatus hcreated
      | ended => exact absurd hstatus hended
      | started => exact absurd hstatus hstarted
  rw [if_neg (by rw [hstarted]; decide), if_neg (by rw [hstarted]; decide)]
  have hround' : ∀ r, w.db.rounds.find? params.roundID = some r → r = round := fun r hr =>
    Option.some.inj (hr.symm.trans hround)
  -- The problem, and the problem set of the round.
  cases hfp : env.fails .findProblem with
  | true =>
    refine Or.inr (Or.inl ⟨fun h => Bool.false_ne_true (h.2.problem.symm.trans hfp),
      Or.inr ⟨round, hround, fun _ => Or.inl hfp⟩, _, Call.bind_err (run_io_fails rfl _ w) _⟩)
  | false =>
  rw [Call.bind_ok (run_io_read rfl _ w)]
  cases hfs : env.fails .findProblemSet with
  | true =>
    refine Or.inr (Or.inl ⟨fun h => Bool.false_ne_true (h.2.problemSet.symm.trans hfs),
      Or.inr ⟨round, hround, fun _ => Or.inr (Or.inl hfs)⟩, _,
      Call.bind_err (run_io_fails rfl _ w) _⟩)
  | false =>
  rw [Call.bind_ok (run_io_read rfl _ w)]
  cases hproblem : w.db.problems.find? params.problemID with
  | none =>
    have hnot : ¬ (LegalSubmission params author w ∧ env.Reads) := by
      rintro ⟨⟨_, -, -, problem, hp, -⟩, -⟩
      rw [hproblem] at hp
      cases hp
    dsimp only
    split_ifs with hempty
    · refine Or.inr (Or.inl ⟨hnot, Or.inr ⟨round, hround, fun _ => ?_⟩, _, rfl⟩)
      refine Or.inr (Or.inr (Or.inr fun problem hmem hof => ?_))
      have hset : problem ∈ w.db.problemSet env.problems round.id :=
        mem_problemSet.mpr ⟨hmem, hof⟩
      rw [hempty] at hset
      cases hset
    · refine Or.inr (Or.inr ⟨?_, rfl⟩)
      rintro (h | ⟨r, hr, h⟩)
      · exact Bool.false_ne_true (hfr.symm.trans h)
      · obtain rfl := hround' r hr
        rcases h hstarted with h | h | h | h
        · exact Bool.false_ne_true (hfp.symm.trans h)
        · exact Bool.false_ne_true (hfs.symm.trans h)
        · rw [hproblem] at h
          cases h
        · refine hempty (List.eq_nil_iff_forall_not_mem.mpr fun p hp => ?_)
          exact h p (mem_problemSet.mp hp).1 (mem_problemSet.mp hp).2
  | some problem =>
    exact absurd ⟨round, problem, hfr, hround, hstarted, hfp, hfs, hproblem⟩ hfound

/-- A legal submission meets no nil pointer. -/
theorem LegalSubmission.nilFree (h : LegalSubmission params author w) : NilFree env params w := by
  obtain ⟨round, hround, -, problem, hproblem, -⟩ := h
  refine Or.inr ⟨round, hround, fun _ => Or.inr (Or.inr (Or.inl ?_))⟩
  rw [hproblem]
  rfl

end Check

/-- Legal submissions are stored and the others refused exactly when no nil pointer is met. -/
theorem acceptsLegal_iff (env : Env) (params : RoundSubmissionParameters) (author : AuthID)
    (w : World) : AcceptsLegal env params author w ↔ NilFree env params w := by
  have hcases := checkSubmission_cases env params author w
  constructor
  · intro h
    by_contra hnil
    -- What meets a nil pointer is not legal, and so it should be refused.
    have hnot : ¬ (LegalSubmission params author w ∧ env.Inserts) := fun h => hnil h.1.nilFree
    obtain ⟨e, hrun⟩ := h.refuses hnot
    rcases hcases with ⟨hlegal, -⟩ | ⟨-, hfree, -⟩ | ⟨-, hpanic⟩
    · exact hnil hlegal.nilFree
    · exact hnil hfree
    · unfold createRoundSubmission at hrun
      rw [Call.bind_panic hpanic] at hrun
      cases hrun
  · intro hfree
    rcases hcases with ⟨hlegal, hreads, ctx, hcheck⟩ | ⟨hnot, -, e, hcheck⟩ | ⟨hnil, -⟩
    · refine ⟨fun _ hinserts => ?_, fun hnot => ?_⟩
      · -- A legal submission is taken in; the others fail a check or the insertion.
        have htaken := takesIn_submit hcheck hinserts.insertion
        refine ⟨ctx, htaken.found, ?_, ?_⟩
        · exact congrArg Table.rows htaken.roundSubmissions
        · exact congrArg Table.rows htaken.submissions
      · have hfails : env.fails .createSubmission = true := by
          by_contra hworks
          exact hnot ⟨hlegal, hreads, Bool.eq_false_iff.mpr hworks⟩
        refine ⟨.io, ?_⟩
        unfold createRoundSubmission
        rw [Call.bind_ok hcheck]
        exact Call.bind_err (run_io_fails hfails _ w) _
    · refine ⟨fun hlegal hinserts => absurd ⟨hlegal, hinserts.reads⟩ hnot, fun _ => ⟨e, ?_⟩⟩
      unfold createRoundSubmission
      exact Call.bind_err hcheck _
    · exact absurd hfree hnil

/-- A submission of a problem to a round. -/
def strayParams (roundID problemID : ℕ) : RoundSubmissionParameters :=
  ⟨roundID, problemID, "print(1)", "python", "", 0⟩

/-- A round that does not exist is followed as a nil pointer, and so is a problem that does not
exist when it is compared with the problem of a running round. -/
theorem not_acceptsLegal :
    ¬ AcceptsLegal (Env.faultless 0) (strayParams 7 1) solver (World.oneRound solver) ∧
      ¬ AcceptsLegal (Env.faultless 0) (strayParams 1 9) solver (World.oneRound solver) := by
  constructor
  · intro h
    obtain ⟨e, hrun⟩ := h.refuses (by rintro ⟨⟨round, hround, -⟩, -⟩; cases hround)
    cases hrun
  · intro h
    obtain ⟨e, hrun⟩ := h.refuses (by rintro ⟨⟨_, -, -, problem, hp, -⟩, -⟩; cases hp)
    cases hrun

end Bsg.Central
