import Bsg.Central.Counting
import Bsg.Central.Legal
import Bsg.Central.PickedOrder
import Bsg.Foundations.Run

/-!
# Guidance to the next problem

After an accepted submission, `createRoundSubmission` sends its author on to the problem that comes
after the submitted one in the list, or takes it that he has finished when the submitted one is the
last. Whether that is right depends on what he solved before: it should send him on exactly while
some problem of the round is left for him, and to such a problem (`Guides`).

`guides_along` says of any run of submissions, by any participants in any order, that all of them
are followed by the right guidance exactly when each of them finds nothing left but the problem
after it, or nothing at all after the last one (`Guidable`).
-/

namespace Bsg.Central

open Bsg.Foundations

/-- The problems of a round that a user has not solved in it. -/
def DB.unsolved (db : DB) (roundID : ℕ) (userID : AuthID) : List Problem :=
  (db.problemSet (.inserted Problem) roundID).filter fun p =>
    decide (p.id ∉ db.solvedProblems roundID userID)

/-- The problems to which some requests send a user of a room on. -/
def sentOn (roomID : RoomID) (userID : AuthID) (reqs : List Rtc.Request) : List String :=
  reqs.filterMap fun
    | .nextProblem room slug user => if room = roomID ∧ user = userID then some slug else none
    | _ => none

/-- The branch of `announceNextProblem` for an author who finished all problems. -/
def FinishedAll (env : Env) (ctx : SubmissionContext) (db : DB) : Prop :=
  (ctx.problemIndex : ℤ) = (db.problemSet env.problems ctx.round.id).length - 1

/-- What should follow an accepted submission: its author is sent on exactly when a problem is left
for him, to one that is left, and he has finished exactly when none is. -/
structure Guided (env : Env) (ctx : SubmissionContext) (author : AuthID) (w w' : World) : Prop where
  sent : sentOn ctx.round.roomID author (w'.sent.drop w.sent.length) ≠ [] ↔
    w'.db.unsolved ctx.round.id author ≠ []
  unsolved : ∀ slug ∈ sentOn ctx.round.roomID author (w'.sent.drop w.sent.length),
    ∃ p ∈ w'.db.unsolved ctx.round.id author, p.slug = slug
  finished : FinishedAll env ctx w'.db ↔ w'.db.unsolved ctx.round.id author = []

/-- A submission, if it is taken in and accepted, is followed by the right guidance. -/
def Guides (env : Env) (params : RoundSubmissionParameters) (author : AuthID) (w : World) : Prop :=
  params.verdict = submissionStatusAccepted → ∀ stored w' ctx,
    (createRoundSubmission env params author).run w = (.ok stored, w') →
      (checkSubmission env params author).run w = (.ok ctx, w) → Guided env ctx author w w'

/-- The problems that are left for a user when he solves another one. -/
def DB.leftAfter (db : DB) (params : RoundSubmissionParameters) (author : AuthID) : List Problem :=
  (db.unsolved params.roundID author).filter fun p => decide (p.id ≠ params.problemID)

/-- The problem that comes after the submitted one is left for the author, or none comes after it
and none is left. -/
def Guidable (env : Env) (params : RoundSubmissionParameters) (author : AuthID) (db : DB) : Prop :=
  ∀ i, ((db.problemSet env.problems params.roundID).findIdx? fun p => p.id = params.problemID) =
      some i →
    match (db.problemSet env.nextProblems params.roundID)[i + 1]? with
    | none => db.leftAfter params author = []
    | some next => ∃ p ∈ db.leftAfter params author, p.slug = next.slug

/-- Nothing fails, and the request about the next problem is delivered. -/
structure Env.Delivers (env : Env) : Prop where
  works : ∀ op, env.fails op = false
  reply : env.reply .nextProblem ≠ .unwritten

/-! ## What an accepted submission leads to -/

section Submission

variable {env : Env} {params : RoundSubmissionParameters} {author : AuthID}
  {ctx : SubmissionContext} {w w' : World}

/-- Which problem comes next depends only on the problems of the round. -/
theorem nextProblemRequest_congr (hproblems : w'.db.problems = w.db.problems)
    (hjoined : w'.db.roundProblems = w.db.roundProblems) :
    nextProblemRequest env ctx w' = nextProblemRequest env ctx w := by
  unfold nextProblemRequest DB.problemSet
  rw [hproblems, hjoined]

/-- The requests that follow a stored and accepted submission. -/
theorem publishSubmission_sent (hworks : ∀ op, env.fails op = false)
    (haccepted : params.verdict = submissionStatusAccepted) (ctx : SubmissionContext)
    (author : AuthID) (rs : RoundSubmission) (s : Submission) (w : World) : ∃ userHandle,
      ((publishSubmission env params ctx author rs s).run w).2.sent = w.sent ++
        (delivered (env.reply .newSubmission)
            (.newSubmission userHandle ctx.round.roomID ctx.problem.slug params.verdict) ++
          nextProblemRequest env ctx w) := by
  -- The message to the worker, and the announcement.
  let w₁ : World := w.posting (newSubmissionIngressDTO ctx.problem rs s).marshal
  have hpost : (logged (addSubmissionToQueue (env.fails .publish) ctx.problem rs s)).run w =
      (.ok (), w₁) := by
    rw [hworks]
    rfl
  let userHandle : GoText := w₁.db.authorHandle author
  let w₂ := w₁.tell (delivered (env.reply .newSubmission)
    (.newSubmission userHandle ctx.round.roomID ctx.problem.slug params.verdict))
  have hannounce : (announceSubmission env params ctx author).run w₁ = (.ok (), w₂) := by
    unfold announceSubmission
    rw [Call.run_read_bind, hworks]
    exact logged_sendMessage_run _ _ w₁
  -- The counter, and the next problem.
  obtain ⟨w₃, hcount, hsent, hproblems, hjoined⟩ : ∃ w₃, (countSolved env ctx).run w₂ =
      (.ok (), w₃) ∧ w₃.sent = w₂.sent ∧ w₃.db.problems = w.db.problems ∧
        w₃.db.roundProblems = w.db.roundProblems := by
    refine ⟨_, countSolved_run env ctx w₂, ?_⟩
    split_ifs <;> exact ⟨rfl, rfl, rfl⟩
  have hnext := announceNextProblem_run (hworks .countProblems) (hworks .findNextProblems) ctx w₃
  rw [nextProblemRequest_congr hproblems hjoined] at hnext
  refine ⟨userHandle, ?_⟩
  unfold publishSubmission
  rw [Call.bind_ok hpost, Call.bind_ok hannounce, if_pos haccepted, Call.bind_ok hcount, hnext]
  show w₃.sent ++ _ = _
  rw [hsent]
  exact List.append_assoc _ _ _

/-- A submission whose checks succeed is taken in and returned, when nothing fails. -/
theorem createRoundSubmission_run (hworks : ∀ op, env.fails op = false)
    (hcheck : (checkSubmission env params author).run w = (.ok ctx, w)) :
    ∃ stored w', (createRoundSubmission env params author).run w = (.ok stored, w') ∧
      w' = ((publishSubmission env params ctx author stored.1 stored.2).run
        (w.record env params ctx)).2 ∧
      w'.db.problems = w.db.problems ∧ w'.db.roundProblems = w.db.roundProblems := by
  have hstore : (storeSubmission env params ctx).run w = _ :=
    storeSubmission_run (hworks .createSubmission)
  obtain ⟨w', hpublish, hquiet⟩ := publishSubmission_run env params ctx author
    (recordedRoundSubmission env ctx w) (recordedSubmission env params ctx w)
    (w.record env params ctx)
  refine ⟨(recordedRoundSubmission env ctx w, recordedSubmission env params ctx w), w', ?_, ?_, ?_⟩
  · unfold createRoundSubmission
    rw [Call.bind_ok hcheck, Call.bind_ok hstore, hworks, hworks]
    simp only [Call.io_false, Call.run_pure_bind]
    rw [Call.bind_ok hpublish]
    rfl
  · rw [hpublish]
  · rw [hquiet.db, hworks]
    exact ⟨rfl, rfl⟩

/-- A user is sent on by the request about the next problem, and by no other. -/
theorem sentOn_requests (hreply : env.reply .nextProblem ≠ .unwritten) (userHandle : GoText)
    (hauthor : ctx.participant.participantAuthID = author) :
    sentOn ctx.round.roomID author (delivered (env.reply .newSubmission)
        (.newSubmission userHandle ctx.round.roomID ctx.problem.slug params.verdict) ++
      nextProblemRequest env ctx w) =
      (((w.db.problemSet env.nextProblems ctx.round.id)[ctx.problemIndex + 1]?).map
        Problem.slug).toList := by
  have hnone : sentOn ctx.round.roomID author (delivered (env.reply .newSubmission)
      (.newSubmission userHandle ctx.round.roomID ctx.problem.slug params.verdict)) = [] := by
    unfold delivered
    split_ifs <;> rfl
  unfold sentOn at hnone ⊢
  rw [List.filterMap_append, hnone, List.nil_append]
  unfold nextProblemRequest delivered
  cases (w.db.problemSet env.nextProblems ctx.round.id)[ctx.problemIndex + 1]? with
  | none => rfl
  | some p =>
    rw [Option.elim_some, if_neg hreply]
    simp [hauthor]

/-- What is left for the author after an accepted submission. -/
theorem mem_unsolved_of_accepted (hlinked : Linked w)
    (haccepted : params.verdict = submissionStatusAccepted)
    (htaken : TakesIn env params author ctx w w') (hproblems : w'.db.problems = w.db.problems)
    (hjoined : w'.db.roundProblems = w.db.roundProblems) :
    w'.db.unsolved ctx.round.id author = w.db.leftAfter params author := by
  have hround : ctx.round.id = params.roundID := (Table.find?_eq_some.mp htaken.found.round).2
  have hproblem : ctx.problem.id = params.problemID :=
    (Table.find?_eq_some.mp htaken.found.problem).2
  have hset : w'.db.problemSet (.inserted Problem) ctx.round.id =
      w.db.problemSet (.inserted Problem) ctx.round.id := by
    unfold DB.problemSet
    rw [hproblems, hjoined]
  unfold DB.leftAfter DB.unsolved
  rw [List.filter_filter, hset, ← hround, ← hproblem]
  refine List.filter_congr fun p _ => ?_
  rw [Bool.eq_iff_iff, Bool.and_eq_true, decide_eq_true_eq, decide_eq_true_eq, decide_eq_true_eq,
    htaken.mem_solvedProblems hlinked]
  simp only [haccepted, true_and]
  tauto

/-- The author has finished exactly when no problem comes next, in whatever order they are loaded.
-/
theorem finishedAll_iff (hcheck : (checkSubmission env params author).run w = (.ok ctx, w))
    (hproblems : w'.db.problems = w.db.problems)
    (hjoined : w'.db.roundProblems = w.db.roundProblems) :
    FinishedAll env ctx w'.db ↔
      (w.db.problemSet env.nextProblems ctx.round.id)[ctx.problemIndex + 1]? = none := by
  have hlength (a a' : Arrangement Problem) : (w'.db.problemSet a ctx.round.id).length =
      (w.db.problemSet a' ctx.round.id).length := by
    unfold DB.problemSet
    rw [hproblems, hjoined, Arrangement.length_order, Arrangement.length_order]
  have hlt : ctx.problemIndex < (w.db.problemSet env.problems ctx.round.id).length :=
    (List.getElem?_eq_some_iff.mp (checkSubmission_index hcheck)).1
  unfold FinishedAll
  rw [List.getElem?_eq_none_iff, hlength env.problems env.nextProblems]
  rw [← hlength env.problems, hlength env.problems env.nextProblems] at hlt
  omega

/-- What an accepted submission that ran should be followed by. -/
theorem guides_iff_guided {stored : RoundSubmission × Submission}
    (haccepted : params.verdict = submissionStatusAccepted)
    (hcheck : (checkSubmission env params author).run w = (.ok ctx, w))
    (hrun : (createRoundSubmission env params author).run w = (.ok stored, w')) :
    Guides env params author w ↔ Guided env ctx author w w' := by
  constructor
  · exact fun h => h haccepted stored w' ctx hrun hcheck
  · intro h _ stored' w'' ctx' hrun' hcheck'
    cases hrun.symm.trans hrun'
    cases hcheck.symm.trans hcheck'
    exact h

/-- The place of the submitted problem is the one that the checks found. -/
theorem guidable_iff_next (hcheck : (checkSubmission env params author).run w = (.ok ctx, w)) :
    Guidable env params author w.db ↔
      match (w.db.problemSet env.nextProblems ctx.round.id)[ctx.problemIndex + 1]? with
      | none => w.db.leftAfter params author = []
      | some next => ∃ p ∈ w.db.leftAfter params author, p.slug = next.slug := by
  obtain ⟨hround, hproblem, hindex, -, -⟩ := checkSubmission_eq_ok hcheck
  have hroundID : ctx.round.id = params.roundID := (Table.find?_eq_some.mp hround).2
  have hproblemID : ctx.problem.id = params.problemID := (Table.find?_eq_some.mp hproblem).2
  unfold Guidable
  rw [← hroundID, ← hproblemID]
  constructor
  · exact fun h => h _ hindex
  · intro h i hi
    obtain rfl := Option.some.inj (hindex.symm.trans hi)
    exact h

/-- An author who is sent on to the problem that comes next, if one does, and who has finished if
none does, is guided rightly exactly when that problem is left, or none comes next and none is
left. -/
theorem guided_iff_next {next : Option Problem} {left : List Problem}
    (hleft : w'.db.unsolved ctx.round.id author = left) :
    sentOn ctx.round.roomID author (w'.sent.drop w.sent.length) =
        (next.map Problem.slug).toList →
      (FinishedAll env ctx w'.db ↔ next = none) →
      (Guided env ctx author w w' ↔
        match next with
        | none => left = []
        | some next => ∃ p ∈ left, p.slug = next.slug) := by
  intro hsent hfinished
  cases next with
  | none =>
    constructor
    · intro h
      -- The user was told that he has finished, so nothing may be left.
      have hnone := h.finished.mp (hfinished.mpr rfl)
      rwa [hleft] at hnone
    · intro h
      refine ⟨?_, ?_, ?_⟩
      · rw [hsent, hleft, h]
        simp
      · rw [hsent]
        simp
      · rw [hfinished, hleft, h]
        simp
  | some next =>
    constructor
    · intro h
      -- He was sent one slug, which must be that of a problem that is left.
      have hunsolved := h.unsolved next.slug (by rw [hsent]; simp)
      rwa [hleft] at hunsolved
    · rintro ⟨p, hp, hslug⟩
      have hsome : left ≠ [] := List.ne_nil_of_mem hp
      refine ⟨?_, ?_, ?_⟩
      · rw [hsent, hleft]
        simp [hsome]
      · rw [hsent, hleft]
        intro slug hslug'
        obtain rfl : slug = next.slug := by simpa using hslug'
        exact ⟨p, hp, hslug⟩
      · rw [hfinished, hleft]
        simp [hsome]

/-- A submission whose checks succeed, and that is accepted, is followed by the right guidance
exactly when the problem that comes next is left, or none comes next and none is left. -/
theorem guided_iff (henv : env.Delivers) (hlinked : Linked w)
    (haccepted : params.verdict = submissionStatusAccepted)
    (hcheck : (checkSubmission env params author).run w = (.ok ctx, w)) :
    Guides env params author w ↔ Guidable env params author w.db := by
  obtain ⟨stored, w', hrun, hpublish, hproblems, hjoined⟩ :=
    createRoundSubmission_run henv.works hcheck
  have htaken := takesIn_submit hcheck (henv.works .createSubmission)
  rw [hrun] at htaken
  have hleft := mem_unsolved_of_accepted hlinked haccepted htaken hproblems hjoined
  -- Of all that is sent, only the last request is about the next problem.
  have hsent : sentOn ctx.round.roomID author (w'.sent.drop w.sent.length) =
      (((w.db.problemSet env.nextProblems ctx.round.id)[ctx.problemIndex + 1]?).map
        Problem.slug).toList := by
    obtain ⟨userHandle, hrequests⟩ := publishSubmission_sent henv.works haccepted ctx author
      stored.1 stored.2 (w.record env params ctx)
    have hrequest : nextProblemRequest env ctx (w.record env params ctx) =
        nextProblemRequest env ctx w := nextProblemRequest_congr rfl rfl
    have hkept : (w.record env params ctx).sent = w.sent := rfl
    rw [hpublish, hrequests, hrequest, hkept, List.drop_left]
    exact sentOn_requests henv.reply userHandle (checkSubmission_found hcheck).ofAuthor
  have hfinished := finishedAll_iff hcheck hproblems hjoined
  rw [guides_iff_guided haccepted hcheck hrun, guided_iff_next hleft hsent hfinished,
    guidable_iff_next hcheck]

end Submission

/-! ## Runs of submissions -/

/-- A submission with its environment. -/
structure SubmissionEvent where
  env : Env
  params : RoundSubmissionParameters
  author : AuthID

/-- The state after a submission. -/
def submitStep (w : World) (e : SubmissionEvent) : World :=
  w.submit e.env e.params e.author

/-- A submission that is accepted for a problem of a round of the author finds what is left where it
is looked for. -/
def SubmissionEvent.Guidable (w : World) (e : SubmissionEvent) : Prop :=
  e.params.verdict = submissionStatusAccepted → LegalSubmission e.params e.author w →
    Central.Guidable e.env e.params e.author w.db

/-- The rows stay linked, whatever becomes of a submission. -/
theorem linked_submitStep {w : World} (hlinked : Linked w) (e : SubmissionEvent) :
    Linked (submitStep w e) := by
  rcases createRoundSubmission_cases e.env e.params e.author w with ⟨o, hrun, -⟩ |
    ⟨ctx, hcheck, hstored, -⟩
  · unfold submitStep World.submit
    rw [hrun]
    exact hlinked
  · exact (takesIn_submit hcheck hstored).linked hlinked

/-- One submission: it is followed by the right guidance exactly when it can be. -/
theorem guides_iff {w : World} (hlinked : Linked w) (e : SubmissionEvent) (henv : e.env.Delivers) :
    Guides e.env e.params e.author w ↔ e.Guidable w := by
  have hreads : e.env.Reads :=
    ⟨henv.works _, henv.works _, henv.works _, henv.works _, henv.works _⟩
  rcases checkSubmission_cases e.env e.params e.author w with
    ⟨hlegal, -, ctx, hcheck⟩ | ⟨hnot, -, err, hcheck⟩ | ⟨hnil, hcheck⟩
  · constructor
    · exact fun h haccepted _ => (guided_iff henv hlinked haccepted hcheck).mp h
    · intro h haccepted
      exact (guided_iff henv hlinked haccepted hcheck).mpr (h haccepted hlegal) haccepted
  · refine iff_of_true (fun _ stored w' ctx _ hok => ?_) fun _ hlegal => absurd ⟨hlegal, hreads⟩ hnot
    rw [hcheck] at hok
    cases hok
  · refine iff_of_true (fun _ stored w' ctx _ hok => ?_) fun _ hlegal => absurd hlegal.nilFree hnil
    rw [hcheck] at hok
    cases hok

/-- In a run of submissions, by whomever and in whatever order, all are followed by the right
guidance exactly when each of them can be. -/
theorem guides_along {w : World} (hlinked : Linked w) (es : List SubmissionEvent)
    (henv : ∀ e ∈ es, e.env.Delivers) :
    Along submitStep (fun w e => Guides e.env e.params e.author w) w es ↔
      Along submitStep SubmissionEvent.Guidable w es := by
  have hkeep : ∀ (w : World) (e : SubmissionEvent), Linked w → e.env.Delivers →
      Linked (submitStep w e) := fun w e hlinked _ => linked_submitStep hlinked e
  have hsame : ∀ (w : World) (e : SubmissionEvent), Linked w → e.env.Delivers →
      (Guides e.env e.params e.author w ↔ e.Guidable w) :=
    fun w e hlinked henv => guides_iff hlinked e henv
  exact along_congr hkeep hsame hlinked (Along.of_mem henv)

/-- A started round with two problems and one participant. -/
def World.twoToSolve : World :=
  { World.oneRound solver with
    db := { (World.oneRound solver).db with
      problems := World.twoProblems.db.problems
      roundProblems := [(1, 1), (1, 2)] } }

/-- The participant solves a problem of the round. -/
def solves (problemID : ℕ) : SubmissionEvent :=
  ⟨Env.faultless 0, { strayParams 1 problemID with verdict := submissionStatusAccepted }, solver⟩

/-- The round and its participant refer to what is there. -/
theorem linked_twoToSolve : Linked World.twoToSolve where
  participants p hp := by
    obtain rfl := List.mem_singleton.mp hp
    exact ⟨_, List.mem_singleton_self _, rfl, by decide⟩
  roundSubmissions rs hrs := absurd hrs List.not_mem_nil
  submissions s hs := absurd hs List.not_mem_nil

/-- Who solves the problems in their order is sent on to the second, and has finished then. -/
theorem guides_along_twoToSolve :
    Along submitStep (fun w e => Guides e.env e.params e.author w) World.twoToSolve
      [solves 1, solves 2] := by
  have hworks : ∀ problemID, (solves problemID).env.Delivers :=
    fun _ => ⟨fun _ => rfl, fun h => by cases h⟩
  refine (guides_along linked_twoToSolve [solves 1, solves 2] fun e he => ?_).mpr
    ⟨fun _ _ i hi => ?_, fun _ _ i hi => ?_, trivial⟩
  · rcases List.mem_cons.mp he with rfl | he
    · exact hworks 1
    · obtain rfl := List.mem_singleton.mp he
      exact hworks 2
  · have hindex : some 0 = some i := hi ▸ by decide +kernel
    obtain rfl := Option.some.inj hindex
    have hnext : ∃ p ∈ World.twoToSolve.db.leftAfter (solves 1).params solver,
        p.slug = "jump-game" := by decide +kernel
    exact hnext
  · have hindex : some 1 = some i := hi ▸ by decide +kernel
    obtain rfl := Option.some.inj hindex
    have hnone : (submitStep World.twoToSolve (solves 1)).db.leftAfter (solves 2).params solver =
        [] := by decide +kernel
    exact hnone

/-- Whoever solves the last problem first has finished, with the first one left. -/
theorem not_guides_lastFirst :
    (solves 2).env.Delivers ∧
      ¬ Guides (solves 2).env (solves 2).params (solves 2).author World.twoToSolve := by
  have henv : (solves 2).env.Delivers := ⟨fun _ => rfl, fun h => by cases h⟩
  refine ⟨henv, fun h => ?_⟩
  have hlegal : LegalSubmission (solves 2).params (solves 2).author World.twoToSolve :=
    ⟨_, rfl, rfl, _, rfl, by decide +kernel, _, List.mem_singleton_self _, rfl, rfl⟩
  have hguidable := (guides_iff linked_twoToSolve (solves 2) henv).mp h rfl hlegal 1
    (by decide +kernel)
  have hleft : ¬ World.twoToSolve.db.leftAfter (solves 2).params (solves 2).author = [] := by
    decide +kernel
  exact hleft hguidable

end Bsg.Central
