import Bsg.Central.Continuation

/-!
# A submission and the counter of its author

A request that is stored adds a submission, and moves the counter of the participant on when it is
accepted, worth points, and the first accepted one of its author for the problem, in whatever round
(`Counts`). The details of a round report the problems solved in that round. So the reports stay in
agreement exactly when a submission that solves a problem of a most recent round is counted, for the
only row of its author (`TakesIn.tallied_iff`, and `createRoomSubmission_tallied_iff` for the
request as it comes in).
-/

namespace Bsg.Central

open Bsg.Foundations

/-! ## What is left of a request -/

/-- The counter of the participant goes on: the submission is accepted, it is worth points, and
nothing fails before it is counted. -/
structure Counts (env : Env) (params : RoundSubmissionParameters) (ctx : SubmissionContext)
    (w : World) : Prop where
  accepted : params.verdict = submissionStatusAccepted
  first : w.db.acceptedBy ctx.problem.id ctx.participant.participantAuthID = false
  scored : determineScoreForProblem ctx.problem ≠ 0
  written : ∀ op ∈ [Op.appendToRound, .appendToParticipant, .updateSolved], env.fails op = false

/-- What is left of a request that was stored. -/
structure TakesIn (env : Env) (params : RoundSubmissionParameters) (author : AuthID)
    (ctx : SubmissionContext) (w w' : World) : Prop where
  found : Found params author ctx w
  roundSubmissions : w'.db.roundSubmissions = (w.db.addSubmission env params ctx).roundSubmissions
  submissions : w'.db.submissions = (w.db.addSubmission env params ctx).submissions
  counted : Counts env params ctx w → w'.db.participants =
    w.db.participants.modify ctx.participant.id RoundParticipant.solveOne
      RoundParticipant.id_solveOne
  uncounted : ¬ Counts env params ctx w → w'.db.participants = w.db.participants
  rounds : w'.db.rounds = w.db.rounds
  leaderboard : w'.redis.leaderboard = w.redis.leaderboard
  mostRecentRound : w'.redis.mostRecentRound = w.redis.mostRecentRound

section Publish

variable {env : Env} {params : RoundSubmissionParameters} {author : AuthID}
  {ctx : SubmissionContext} {w : World}

/-- Announcing the next problem leaves the participants. -/
theorem keepsParticipants_announceNextProblem (env : Env) (ctx : SubmissionContext) :
    Call.Keeps (fun w : World => w.db.participants) (announceNextProblem env ctx) := by
  refine Call.Keeps.bind (Call.Keeps.read _) fun problemCount => Call.Keeps.ite _
    (Call.Keeps.bind (Call.Keeps.read _) fun problemSet => ?_) (Call.Keeps.pure _)
  cases problemSet[ctx.problemIndex + 1]? with
  | none => exact Call.Keeps.pure _
  | some nextProblem => exact keeps_logged (keeps_sendMessage (fun _ _ => rfl) _ _)

/-- The state in which the counter of the participant went on. -/
def World.counting (w : World) (ctx : SubmissionContext) : World :=
  { w with db := { w.db with
      participants := w.db.participants.modify ctx.participant.id RoundParticipant.solveOne
        RoundParticipant.id_solveOne } }

/-- A problem that is solved is counted, unless the statement fails. -/
theorem countSolved_run (env : Env) (ctx : SubmissionContext) (w : World) :
    (countSolved env ctx).run w = (.ok (),
      if ctx.problemScore ≠ 0 ∧ env.fails .updateSolved = false then w.counting ctx else w) := by
  unfold countSolved
  by_cases hscore : ctx.problemScore ≠ 0
  · rw [if_pos hscore]
    cases hfails : env.fails .updateSolved with
    | true =>
      rw [if_neg fun h => by cases h.2]
      rfl
    | false =>
      rw [if_pos ⟨hscore, rfl⟩]
      rfl
  · rw [if_neg hscore, if_neg fun h => hscore h.1]
    rfl

/-- The counter of the participant is all that publishing changes about the participants. -/
theorem publishSubmission_participants (env : Env) (params : RoundSubmissionParameters)
    (ctx : SubmissionContext) (author : AuthID) (rs : RoundSubmission) (s : Submission) (w : World) :
    ((publishSubmission env params ctx author rs s).run w).2.db.participants =
      if params.verdict = submissionStatusAccepted ∧ ctx.problemScore ≠ 0 ∧
          env.fails .updateSolved = false then (w.counting ctx).db.participants
      else w.db.participants := by
  -- Neither the publication nor the announcement touches the participants.
  obtain ⟨w₁, hpost, hsame⟩ : ∃ w₁,
      (logged (addSubmissionToQueue (env.fails .publish) ctx.problem rs s)).run w = (.ok (), w₁) ∧
        w₁.db.participants = w.db.participants := by
    cases env.fails .publish <;> exact ⟨_, rfl, rfl⟩
  obtain ⟨rs', hannounce⟩ : ∃ rs', (announceSubmission env params ctx author).run w₁ =
      (.ok (), w₁.tell rs') := by
    unfold announceSubmission
    rw [Call.run_read_bind]
    exact ⟨_, logged_sendMessage_run _ _ _⟩
  unfold publishSubmission
  rw [Call.bind_ok hpost, Call.bind_ok hannounce]
  by_cases haccepted : params.verdict = submissionStatusAccepted
  · rw [if_pos haccepted, Call.bind_ok (countSolved_run env ctx _)]
    have hnext : ∀ t, ((announceNextProblem env ctx).run t).2.db.participants = t.db.participants :=
      keepsParticipants_announceNextProblem env ctx
    rw [hnext]
    -- The count is written when the problem has points and the statement works.
    by_cases hcounts : ctx.problemScore ≠ 0 ∧ env.fails .updateSolved = false
    · rw [if_pos hcounts, if_pos ⟨haccepted, hcounts⟩]
      exact congrArg (fun t : Table RoundParticipant => t.modify ctx.participant.id
        RoundParticipant.solveOne RoundParticipant.id_solveOne) hsame
    · rw [if_neg hcounts, if_neg fun h => hcounts h.2]
      exact hsame
  · rw [if_neg haccepted, if_neg fun h => haccepted h.1]
    exact hsame

/-- Points are earned for a problem that is worth some and was not solved before. -/
theorem Found.problemScore_ne_zero (h : Found params author ctx w) :
    ctx.problemScore ≠ 0 ↔
      w.db.acceptedBy ctx.problem.id ctx.participant.participantAuthID = false ∧
        determineScoreForProblem ctx.problem ≠ 0 := by
  rw [h.problemScore, h.ofAuthor]
  cases w.db.acceptedBy ctx.problem.id author <;> simp

/-- A request whose checks succeed is taken in, unless it cannot be inserted. -/
theorem takesIn_submit (hcheck : (checkSubmission env params author).run w = (.ok ctx, w))
    (hstored : env.fails .createSubmission = false) :
    TakesIn env params author ctx w ((createRoundSubmission env params author).run w).2 := by
  have hfound := checkSubmission_found hcheck
  have hscore := hfound.problemScore_ne_zero
  rcases createRoundSubmission_cases env params author w with
    ⟨o, -, -, hrefused | hnot⟩ | ⟨ctx', hcheck', -, ⟨hfails, hrun⟩ | ⟨happend, w', hrun, hquiet⟩⟩
  · rw [hstored] at hrefused
    cases hrefused
  · exact absurd hcheck (hnot ctx)
  · obtain rfl : ctx = ctx' := Outcome.ok.inj (congrArg Prod.fst (hcheck.symm.trans hcheck'))
    rw [hrun]
    refine ⟨hfound, rfl, rfl, fun hcounts => ?_, fun _ => rfl, rfl, rfl, rfl⟩
    rcases hfails with hfails | hfails
    · rw [hcounts.written .appendToRound (by simp)] at hfails
      cases hfails
    · rw [hcounts.written .appendToParticipant (by simp)] at hfails
      cases hfails
  · obtain rfl : ctx = ctx' := Outcome.ok.inj (congrArg Prod.fst (hcheck.symm.trans hcheck'))
    -- What is published counts the problem; the message changes no row.
    have hpublish : w' = ((publishSubmission env params ctx author (recordedRoundSubmission env ctx w)
        (recordedSubmission env params ctx w)).run (w.record env params ctx)).2 := by
      refine (congrArg Prod.snd hrun).symm.trans ?_
      unfold createRoundSubmission
      rw [Call.bind_ok hcheck, Call.bind_ok (storeSubmission_run hstored), happend.1, happend.2]
      simp only [Call.io_false, Call.run_pure_bind]
      exact Call.state_bind (fun _ _ => rfl) _
    have hparticipants := publishSubmission_participants env params ctx author
      (recordedRoundSubmission env ctx w) (recordedSubmission env params ctx w)
      (w.record env params ctx)
    rw [← hpublish] at hparticipants
    rw [hrun]
    refine ⟨hfound, ?_, ?_, fun hcounts => ?_, fun hnot => ?_, ?_, ?_, ?_⟩
    · rw [hquiet.roundSubmissions]
      split <;> rfl
    · rw [hquiet.submissions]
      split <;> rfl
    · have hcounted : ctx.problemScore ≠ 0 := hscore.mpr ⟨hcounts.first, hcounts.scored⟩
      have hupdated := hcounts.written .updateSolved (by simp)
      rw [if_pos ⟨hcounts.accepted, hcounted, hupdated⟩] at hparticipants
      exact hparticipants
    · rw [if_neg] at hparticipants
      · exact hparticipants
      rintro ⟨haccepted, hcounted, hupdate⟩
      obtain ⟨hfirst, hworth⟩ := hscore.mp hcounted
      exact hnot ⟨haccepted, hfirst, hworth, by simp [happend.1, happend.2, hupdate]⟩
    · rw [hquiet.db]
      split <;> rfl
    · rw [hquiet.redis]
      split <;> rfl
    · rw [hquiet.redis]
      split <;> rfl

end Publish

section TakesIn

variable {env : Env} {params : RoundSubmissionParameters} {author : AuthID}
  {ctx : SubmissionContext} {w w' : World}

/-- The participant is one of the round. -/
theorem Found.roundID_eq (h : Found params author ctx w) : ctx.participant.roundID = ctx.round.id :=
  h.ofRound.trans (Table.find?_eq_some.mp h.round).2.symm

/-- Each row of a participant is one from before; only that of the submission goes on, if it
counts. -/
theorem TakesIn.row_from (h : TakesIn env params author ctx w w') {p' : RoundParticipant}
    (hp' : p' ∈ w'.db.participants.rows) : ∃ p ∈ w.db.participants.rows,
      (p = ctx.participant ∧ Counts env params ctx w ∧ p' = p.solveOne) ∨
        ¬ (p = ctx.participant ∧ Counts env params ctx w) ∧ p' = p := by
  by_cases hcounts : Counts env params ctx w
  · rw [h.counted hcounts, Table.rows_modify] at hp'
    obtain ⟨p, hp, rfl⟩ := List.mem_map.mp hp'
    refine ⟨p, hp, ?_⟩
    by_cases hid : Row.id p = ctx.participant.id
    · rw [if_pos hid]
      exact Or.inl ⟨Table.eq_of_id_eq hp h.found.participant hid, hcounts, rfl⟩
    · rw [if_neg hid]
      exact Or.inr ⟨fun hboth => hid (congrArg Row.id hboth.1), rfl⟩
  · rw [h.uncounted hcounts] at hp'
    exact ⟨p', hp', Or.inr ⟨fun hboth => hcounts hboth.2, rfl⟩⟩

/-- The participants are still the users that they were. -/
theorem TakesIn.participantAuthID (h : TakesIn env params author ctx w w') (id : ℕ) :
    w'.db.participantAuthID id = w.db.participantAuthID id := by
  unfold DB.participantAuthID
  by_cases hcounts : Counts env params ctx w
  · rw [h.counted hcounts, Table.find?_modify]
    split_ifs
    · cases w.db.participants.find? id <;> rfl
    · rfl
  · rw [h.uncounted hcounts]

/-- The new submission counts for its author in the round. -/
theorem TakesIn.creditOf_new (h : TakesIn env params author ctx w w') :
    w'.db.creditOf (recordedSubmission env params ctx w) = some (ctx.round.id, author) := by
  have howner : w'.db.ownerOf (recordedSubmission env params ctx w) =
      some (recordedRoundSubmission env ctx w) := by
    refine (if_pos rfl).trans ?_
    rw [h.roundSubmissions]
    exact Table.find?_insert_self _ _ _ fun _ => rfl
  have hauthor : w'.db.participantAuthID ctx.participant.id = some author := by
    rw [h.participantAuthID]
    unfold DB.participantAuthID
    rw [show ctx.participant.id = Row.id ctx.participant from rfl,
      Table.find?_id h.found.participant, Option.map_some, h.found.ofAuthor]
  unfold DB.creditOf
  rw [howner, Option.bind_some]
  show (w'.db.participantAuthID ctx.participant.id).map _ = _
  rw [hauthor]
  rfl

/-- The other submissions count for whom they counted. -/
theorem TakesIn.creditOf_old (h : TakesIn env params author ctx w w') (hlinked : Linked w)
    {s : Submission} (hs : s ∈ w.db.submissions.rows) : w'.db.creditOf s = w.db.creditOf s := by
  have howner : w'.db.ownerOf s = w.db.ownerOf s := by
    unfold DB.ownerOf
    split_ifs with htype
    · obtain ⟨rs, hrs, hid⟩ := hlinked.submissions s hs htype
      have hne : s.submissionOwnerID ≠ w.db.roundSubmissions.fresh env.roundSubmissionHint := by
        rw [← hid]
        intro heq
        refine w.db.roundSubmissions.fresh_not_mem env.roundSubmissionHint ?_
        rw [← heq]
        exact List.mem_map_of_mem (f := Row.id) hrs
      rw [h.roundSubmissions]
      exact Table.find?_insert_of_ne _ (fun _ => rfl) hne
    · rfl
  unfold DB.creditOf
  rw [howner]
  exact congrArg _ (funext fun rs => by rw [h.participantAuthID])

/-- What a user has solved in a round: what he had solved, and the new problem if it is accepted. -/
theorem TakesIn.mem_solvedProblems (h : TakesIn env params author ctx w w') (hlinked : Linked w)
    {roundID : ℕ} {userID : AuthID} {problemID : ℕ} :
    problemID ∈ w'.db.solvedProblems roundID userID ↔
      (params.verdict = submissionStatusAccepted ∧ (ctx.round.id, author) = (roundID, userID) ∧
        problemID = ctx.problem.id) ∨ problemID ∈ w.db.solvedProblems roundID userID := by
  have hrows : w'.db.submissions.rows =
      w.db.submissions.rows ++ [recordedSubmission env params ctx w] := by
    rw [h.submissions]
    rfl
  rw [DB.mem_solvedProblems, DB.mem_solvedProblems, hrows]
  unfold DB.Solves
  constructor
  · rintro ⟨s, hs, ⟨hverdict, hcredit⟩, rfl⟩
    rcases List.mem_append.mp hs with hs | hs
    · rw [h.creditOf_old hlinked hs] at hcredit
      exact Or.inr ⟨s, hs, ⟨hverdict, hcredit⟩, rfl⟩
    · obtain rfl := List.mem_singleton.mp hs
      rw [h.creditOf_new] at hcredit
      exact Or.inl ⟨hverdict, Option.some.inj hcredit, rfl⟩
  · rintro (⟨hverdict, hof, rfl⟩ | ⟨s, hs, ⟨hverdict, hcredit⟩, rfl⟩)
    · refine ⟨_, List.mem_append_right _ (List.mem_singleton_self _), ⟨hverdict, ?_⟩, rfl⟩
      rw [h.creditOf_new, hof]
    · refine ⟨s, List.mem_append_left _ hs, ⟨hverdict, ?_⟩, rfl⟩
      rw [h.creditOf_old hlinked hs, hcredit]

/-- The rows stay linked. -/
theorem TakesIn.linked (h : TakesIn env params author ctx w w') (hlinked : Linked w) : Linked w' where
  participants p' hp' := by
    obtain ⟨p, hp, hrow⟩ := h.row_from hp'
    have hround : p'.roundID = p.roundID := by
      rcases hrow with ⟨-, -, rfl⟩ | ⟨-, rfl⟩ <;> rfl
    have hbegun := hlinked.participants p hp
    unfold World.Begun at hbegun ⊢
    rwa [hround, h.rounds]
  roundSubmissions rs hrs := by
    -- The participants keep their ids and rounds, whether or not one of them is counted up.
    have hkept : ∀ p ∈ w.db.participants.rows, ∃ p' ∈ w'.db.participants.rows,
        p'.id = p.id ∧ p'.roundID = p.roundID := by
      intro p hp
      by_cases hcounts : Counts env params ctx w
      · rw [h.counted hcounts, Table.rows_modify]
        refine ⟨_, List.mem_map_of_mem hp, ?_⟩
        split <;> exact ⟨rfl, rfl⟩
      · rw [h.uncounted hcounts]
        exact ⟨p, hp, rfl, rfl⟩
    rw [h.roundSubmissions] at hrs
    rcases List.mem_append.mp hrs with hrs | hrs
    · obtain ⟨p, hp, hid, hround⟩ := hlinked.roundSubmissions rs hrs
      obtain ⟨p', hp', hid', hround'⟩ := hkept p hp
      exact ⟨p', hp', hid'.trans hid, hround'.trans hround⟩
    · rw [List.mem_singleton.mp hrs]
      obtain ⟨p', hp', hid', hround'⟩ := hkept ctx.participant h.found.participant
      exact ⟨p', hp', hid', hround'.trans h.found.roundID_eq⟩
  submissions s hs htype := by
    rw [h.submissions] at hs
    rw [h.roundSubmissions]
    rcases List.mem_append.mp hs with hs | hs
    · obtain ⟨rs, hrs, hid⟩ := hlinked.submissions s hs htype
      exact ⟨rs, List.mem_append_left _ hrs, hid⟩
    · rw [List.mem_singleton.mp hs]
      exact ⟨recordedRoundSubmission env ctx w,
        List.mem_append_right _ (List.mem_singleton_self _), rfl⟩

/-- A problem that was solved in a round counts as accepted in all. -/
theorem acceptedBy_of_solved {roundID problemID : ℕ} {userID : AuthID}
    (h : problemID ∈ w.db.solvedProblems roundID userID) :
    w.db.acceptedBy problemID userID = true := by
  obtain ⟨s, hs, ⟨hverdict, hcredit⟩, rfl⟩ := DB.mem_solvedProblems.mp h
  obtain ⟨htype, rs, hfind, -, p, hp, rfl⟩ := DB.creditOf_eq_some.mp hcredit
  refine List.any_eq_true.mpr ⟨s, hs, ?_⟩
  simp only [hverdict, htype, hfind, hp, true_and, decide_true, Bool.and_true]

/-- The new submission is the first of its author to solve the problem in this round. -/
def Solving (params : RoundSubmissionParameters) (author : AuthID) (ctx : SubmissionContext)
    (w : World) : Prop :=
  params.verdict = submissionStatusAccepted ∧
    ctx.problem.id ∉ w.db.solvedProblems ctx.round.id author

/-- The author has no other row for the round. -/
def OnlyRow (author : AuthID) (ctx : SubmissionContext) (w : World) : Prop :=
  ∀ p ∈ w.db.participants.rows, p.participantAuthID = author → p.roundID = ctx.round.id →
    p = ctx.participant

/-- Only the author, in the round, has solved more, and only by a submission that solves. -/
theorem TakesIn.solvedCount (h : TakesIn env params author ctx w w') (hlinked : Linked w)
    {roundID : ℕ} {userID : AuthID}
    (hof : Solving params author ctx w → (ctx.round.id, author) ≠ (roundID, userID)) :
    w'.db.solvedCount roundID userID = w.db.solvedCount roundID userID := by
  refine DB.solvedCount_congr fun problemID => ?_
  rw [h.mem_solvedProblems hlinked, or_iff_right_iff_imp]
  rintro ⟨hverdict, heq, rfl⟩
  by_contra hnot
  obtain ⟨rfl, rfl⟩ := Prod.mk.inj heq
  exact hof ⟨hverdict, hnot⟩ rfl

/-- The author has solved one problem more. -/
theorem TakesIn.solvedCount_succ (h : TakesIn env params author ctx w w') (hlinked : Linked w)
    (hsolving : Solving params author ctx w) :
    w'.db.solvedCount ctx.round.id author = w.db.solvedCount ctx.round.id author + 1 := by
  refine DB.solvedCount_succ ctx.problem.id hsolving.2 fun problemID => ?_
  rw [h.mem_solvedProblems hlinked]
  simp only [hsolving.1, true_and]

/-- The most recent round is still the same. -/
theorem TakesIn.isMostRecent (h : TakesIn env params author ctx w w') {roundID : ℕ} :
    w'.IsMostRecent roundID ↔ w.IsMostRecent roundID := by
  unfold World.IsMostRecent
  rw [h.mostRecentRound]

/-- When nothing is counted and nothing is solved, nothing is to be heeded. -/
theorem TakesIn.tallied_of_not_solving (h : TakesIn env params author ctx w w') (hlinked : Linked w)
    (htallied : Tallied w) (hnot : ¬ Solving params author ctx w) : Tallied w' := by
  have huncounted : ¬ Counts env params ctx w := by
    intro hcounts
    refine hnot ⟨hcounts.accepted, fun hsolved => ?_⟩
    have hfirst := hcounts.first
    rw [h.found.ofAuthor, acceptedBy_of_solved hsolved] at hfirst
    cases hfirst
  intro p hp hrecent
  rw [h.uncounted huncounted] at hp
  obtain ⟨hlisted, hcount⟩ := htallied p hp (h.isMostRecent.mp hrecent)
  refine ⟨?_, ?_⟩
  · rwa [h.leaderboard]
  · rwa [h.solvedCount hlinked fun hsolving => absurd hsolving hnot]

/-- A submission keeps the reports in agreement exactly when one that solves a problem of a most
recent round is counted, for the only row of its author. -/
theorem TakesIn.tallied_iff (h : TakesIn env params author ctx w w') (hlinked : Linked w)
    (htallied : Tallied w) :
    Tallied w' ↔ (Solving params author ctx w → w.IsMostRecent ctx.round.id →
      Counts env params ctx w ∧ OnlyRow author ctx w) := by
  by_cases hsolving : Solving params author ctx w
  swap
  · exact iff_of_true (h.tallied_of_not_solving hlinked htallied hsolving) fun hs =>
      absurd hs hsolving
  have hmem := h.found.participant
  constructor
  · intro hall _ hrecent
    have hbefore : ∀ p ∈ w.db.participants.rows, p.participantAuthID = author →
        p.roundID = ctx.round.id →
          p.solvedProblemCount = w.db.solvedCount ctx.round.id author := by
      rintro p hp rfl hround
      rw [← hround]
      exact (htallied p hp (hround ▸ hrecent)).2
    -- a row that stays as it is has the wrong number afterwards
    have hstays : ∀ p ∈ w.db.participants.rows, p.participantAuthID = author →
        p.roundID = ctx.round.id → p ∉ w'.db.participants.rows := by
      rintro p hp huser hround hp'
      have hright := (hall p hp' (h.isMostRecent.mpr (hround ▸ hrecent))).2
      rw [hround, huser, h.solvedCount_succ hlinked hsolving, hbefore p hp huser hround] at hright
      exact solved_ne_succ _ hright.symm
    have hcounts : Counts env params ctx w := by
      by_contra hnot
      refine hstays ctx.participant hmem h.found.ofAuthor h.found.roundID_eq ?_
      rw [h.uncounted hnot]
      exact hmem
    refine ⟨hcounts, fun p hp huser hround => ?_⟩
    by_contra hne
    refine hstays p hp huser hround ?_
    rw [h.counted hcounts, Table.rows_modify]
    refine List.mem_map.mpr ⟨p, hp, if_neg fun hid => hne ?_⟩
    exact Table.eq_of_id_eq hp hmem hid
  · intro hcond p' hp' hrecent
    rw [h.isMostRecent] at hrecent
    unfold World.Tallies
    rw [h.leaderboard]
    obtain ⟨p, hp, ⟨rfl, -, rfl⟩ | ⟨hnot, rfl⟩⟩ := h.row_from hp'
    · obtain ⟨hlisted, hcount⟩ := htallied _ hp hrecent
      refine ⟨hlisted, ?_⟩
      show _ + 1 = w'.db.solvedCount ctx.participant.roundID ctx.participant.participantAuthID
      rw [hcount, h.found.roundID_eq, h.found.ofAuthor, h.solvedCount_succ hlinked hsolving]
    · obtain ⟨hlisted, hcount⟩ := htallied p' hp hrecent
      refine ⟨hlisted, ?_⟩
      rw [h.solvedCount hlinked]
      · exact hcount
      -- another row of the author in this round would stay behind
      rintro - heq
      obtain ⟨hround, huser⟩ := Prod.mk.inj heq
      obtain ⟨hcounts, honly⟩ := hcond hsolving (hround ▸ hrecent)
      exact hnot ⟨honly p' hp huser.symm hround.symm, hcounts⟩

end TakesIn

/-! ## The request -/

/-- What a request must heed: when it is taken in, and solves a problem of a most recent round, it
is counted, for the only row of the user. -/
def Follows (env : Env) (roomID : RoomID) (params : RoundSubmissionParameters) (userID : AuthID)
    (w : World) : Prop :=
  ∀ room round ctx, Findable env roomID w.db room →
    (w.db.roundsOf env.rounds room.id).getLast? = some round →
    (checkSubmission env { params with roundID := round.id } userID).run w = (.ok ctx, w) →
    env.fails .createSubmission = false → Solving { params with roundID := round.id } userID ctx w →
    w.IsMostRecent ctx.round.id →
      Counts env { params with roundID := round.id } ctx w ∧ OnlyRow userID ctx w

section Request

variable {env : Env} {roomID : RoomID} {params : RoundSubmissionParameters} {userID : AuthID}
  {w : World}

/-- A request to hand in a submission changes nothing, or is taken in for the last round of the
room. -/
theorem createRoomSubmission_cases (env : Env) (roomID : RoomID) (params : RoundSubmissionParameters)
    (userID : AuthID) (w : World) :
    (((createRoomSubmission env roomID params userID).run w).2 = w ∧
      ∀ room round ctx, Findable env roomID w.db room →
        (w.db.roundsOf env.rounds room.id).getLast? = some round →
        (checkSubmission env { params with roundID := round.id } userID).run w = (.ok ctx, w) →
        env.fails .createSubmission = true) ∨
    ∃ room round ctx, Findable env roomID w.db room ∧
      (w.db.roundsOf env.rounds room.id).getLast? = some round ∧
      (checkSubmission env { params with roundID := round.id } userID).run w = (.ok ctx, w) ∧
      env.fails .createSubmission = false ∧
      TakesIn env { params with roundID := round.id } userID ctx w
        ((createRoomSubmission env roomID params userID).run w).2 := by
  unfold createRoomSubmission
  -- The room is looked up, then its last round, and then the round's own checks are made.
  by_cases hfind : ∃ room, Findable env roomID w.db room
  swap
  · obtain ⟨e, hrun⟩ := findRoomByID_fails fun room h => hfind ⟨room, h⟩
    rw [Call.bind_err hrun]
    exact Or.inl ⟨rfl, fun room _ _ hroom => absurd ⟨room, hroom⟩ hfind⟩
  obtain ⟨room, hroom⟩ := hfind
  rw [Call.bind_ok (findRoomByID_run hroom)]
  dsimp only
  cases hlast : (w.db.roundsOf env.rounds room.id).getLast? with
  | none =>
    refine Or.inl ⟨rfl, fun room' round _ hroom' hlast' => ?_⟩
    rw [hroom.unique hroom' rfl, hlast] at hlast'
    cases hlast'
  | some round =>
    dsimp only
    rcases createRoundSubmission_cases env { params with roundID := round.id } userID w with
      ⟨o, hrun, -, hend⟩ | ⟨ctx, hcheck, hstored, -⟩
    · rw [hrun]
      refine Or.inl ⟨rfl, fun room' round' ctx hroom' hlast' hcheck => ?_⟩
      rw [hroom.unique hroom' rfl, hlast] at hlast'
      obtain rfl := Option.some.inj hlast'
      exact hend.resolve_right fun hnot => hnot ctx hcheck
    · exact Or.inr ⟨room, round, ctx, hroom, hlast, hcheck, hstored, takesIn_submit hcheck hstored⟩

/-- The same condition, of a submission that is taken in. -/
theorem TakesIn.follows_iff {round : Round} {ctx : SubmissionContext} {room : Room}
    (hroom : Findable env roomID w.db room)
    (hlast : (w.db.roundsOf env.rounds room.id).getLast? = some round)
    (hcheck : (checkSubmission env { params with roundID := round.id } userID).run w = (.ok ctx, w))
    (hstored : env.fails .createSubmission = false) :
    Follows env roomID params userID w ↔
      (Solving { params with roundID := round.id } userID ctx w → w.IsMostRecent ctx.round.id →
        Counts env { params with roundID := round.id } ctx w ∧ OnlyRow userID ctx w) := by
  constructor
  · exact fun h => h room round ctx hroom hlast hcheck hstored
  · intro h room' round' ctx' hroom' hlast' hcheck' _
    rw [hroom.unique hroom' rfl] at hlast'
    obtain rfl := Option.some.inj (hlast.symm.trans hlast')
    obtain rfl : ctx = ctx' := Outcome.ok.inj (congrArg Prod.fst (hcheck.symm.trans hcheck'))
    exact h

/-- A request keeps the rows linked, and keeps the reports in agreement exactly when it heeds
that. -/
theorem createRoomSubmission_tallied_iff (env : Env) (roomID : RoomID)
    (params : RoundSubmissionParameters) (userID : AuthID) (hlinked : Linked w) :
    Linked ((createRoomSubmission env roomID params userID).run w).2 ∧
      (Tallied w → (Tallied ((createRoomSubmission env roomID params userID).run w).2 ↔
        Follows env roomID params userID w)) := by
  rcases createRoomSubmission_cases env roomID params userID w with
    ⟨hsame, hrefused⟩ | ⟨room, round, ctx, hroom, hlast, hcheck, hstored, htakes⟩
  · rw [hsame]
    refine ⟨hlinked, fun htallied => iff_of_true htallied ?_⟩
    intro room round ctx hroom hlast hcheck hstored
    rw [hrefused room round ctx hroom hlast hcheck] at hstored
    cases hstored
  · refine ⟨htakes.linked hlinked, fun htallied => ?_⟩
    rw [htakes.tallied_iff hlinked htallied, TakesIn.follows_iff hroom hlast hcheck hstored]

end Request

end Bsg.Central
