import Bsg.Central.Rounds

/-!
# What taking in a submission does

`createRoundSubmission` either changes nothing, or stores a round submission with its submission
and, unless something fails on the way, puts their message on the queue to the worker
(`createRoundSubmission_cases`). Whatever else it does, it changes at most the participants' counts
and what rtc-service is told: `Quiet`.
-/

namespace Bsg.Central

open Bsg.Foundations

/-! ## Calls that change nothing that matters here -/

/-- The auth id of a participant. -/
def DB.participantAuthID (db : DB) (id : ℕ) : Option AuthID :=
  (db.participants.find? id).map RoundParticipant.participantAuthID

/-- Nothing changed but the participants, up to their auth ids, and what rtc-service was told. -/
structure Quiet (w w' : World) : Prop where
  db : w'.db = { w.db with participants := w'.db.participants }
  participants : ∀ id, w'.db.participantAuthID id = w.db.participantAuthID id
  redis : w'.redis = w.redis

/-- No step. -/
theorem Quiet.refl (w : World) : Quiet w w := ⟨rfl, fun _ => rfl, rfl⟩

/-- Two quiet steps. -/
theorem Quiet.trans (w₁ w₂ w₃ : World) (h : Quiet w₁ w₂) (h' : Quiet w₂ w₃) : Quiet w₁ w₃ where
  db := by rw [h'.db, h.db]
  participants id := (h'.participants id).trans (h.participants id)
  redis := h'.redis.trans h.redis

/-- A quiet step leaves the submissions. -/
theorem Quiet.submissions {w w' : World} (h : Quiet w w') :
    w'.db.submissions = w.db.submissions := by rw [h.db]

/-- A quiet step leaves the round submissions. -/
theorem Quiet.roundSubmissions {w w' : World} (h : Quiet w w') :
    w'.db.roundSubmissions = w.db.roundSubmissions := by rw [h.db]

/-- Logging an error is quiet. -/
theorem quiet_logged {x : Service Unit} (hx : Call.Within Quiet x) :
    Call.Within Quiet (logged x) := within_logged Quiet.refl Quiet.trans hx

/-- Telling rtc-service is quiet. -/
theorem quiet_sendMessage (reply : RtcReply) (req : Rtc.Request) :
    Call.Within Quiet (sendMessage reply req) := by
  intro w
  obtain ⟨o, hrun, -⟩ := sendMessage_run reply req w
  rw [hrun]
  exact ⟨rfl, fun _ => rfl, rfl⟩

/-- Announcing the submission is quiet. -/
theorem quiet_announceSubmission (env : Env) (params : RoundSubmissionParameters)
    (ctx : SubmissionContext) (author : AuthID) :
    Call.Within Quiet (announceSubmission env params ctx author) := by
  unfold announceSubmission
  apply Call.Within.bind Quiet.trans (Call.Within.read Quiet.refl _)
  exact fun handle => quiet_logged (quiet_sendMessage _ _)

/-- Counting a solved problem is quiet. -/
theorem quiet_countSolved (env : Env) (ctx : SubmissionContext) :
    Call.Within Quiet (countSolved env ctx) := by
  unfold countSolved
  apply Call.Within.ite _ _ (Call.Within.pure Quiet.refl _)
  apply quiet_logged
  apply Call.Within.io Quiet.refl
  refine Call.Within.write fun w => ⟨rfl, fun id => ?_, rfl⟩
  simp only [DB.participantAuthID, Table.find?_modify]
  split_ifs
  · cases w.db.participants.find? id <;> rfl
  · rfl

/-- Announcing the next problem is quiet. -/
theorem quiet_announceNextProblem (env : Env) (ctx : SubmissionContext) :
    Call.Within Quiet (announceNextProblem env ctx) := by
  unfold announceNextProblem
  apply Call.Within.bind Quiet.trans (Call.Within.read Quiet.refl _)
  intro problemCount
  apply Call.Within.ite _ _ (Call.Within.pure Quiet.refl _)
  apply Call.Within.bind Quiet.trans (Call.Within.read Quiet.refl _)
  intro problemSet
  split
  · exact quiet_logged (quiet_sendMessage _ _)
  · exact Call.Within.pure Quiet.refl _

/-- The request about the problem that comes after the submitted one in the list as it is loaded for
that purpose, if there is one. -/
def nextProblemRequest (env : Env) (ctx : SubmissionContext) (w : World) : List Rtc.Request :=
  ((w.db.problemSet env.nextProblems ctx.round.id)[ctx.problemIndex + 1]?).elim [] fun p =>
    delivered (env.reply .nextProblem)
      (.nextProblem ctx.round.roomID p.slug ctx.participant.participantAuthID)

/-- The place of a problem decides what comes next. -/
theorem announceNextProblem_run {env : Env} (hcount : env.fails .countProblems = false)
    (hfind : env.fails .findNextProblems = false) (ctx : SubmissionContext) (w : World) :
    (announceNextProblem env ctx).run w = (.ok (), w.tell (nextProblemRequest env ctx w)) := by
  have hlength : (w.db.problemSet env.problems ctx.round.id).length =
      (w.db.problemSet env.nextProblems ctx.round.id).length := by
    unfold DB.problemSet
    rw [Arrangement.length_order, Arrangement.length_order]
  unfold announceNextProblem nextProblemRequest
  rw [Call.run_read_bind, hcount, if_neg Bool.false_ne_true, hlength]
  by_cases hlast : (ctx.problemIndex : ℤ) =
      (w.db.problemSet env.nextProblems ctx.round.id).length - 1
  · -- After the last problem there is nothing, whatever the order.
    have hend : (w.db.problemSet env.nextProblems ctx.round.id).length ≤ ctx.problemIndex + 1 := by
      omega
    rw [if_neg (not_not_intro hlast), List.getElem?_eq_none hend]
    exact congrArg (Prod.mk _) (World.tell_nil w).symm
  · rw [if_pos hlast, Call.run_read_bind, hfind, if_neg Bool.false_ne_true]
    cases hnext : (w.db.problemSet env.nextProblems ctx.round.id)[ctx.problemIndex + 1]? with
    | none => exact congrArg (Prod.mk _) (World.tell_nil w).symm
    | some p => exact logged_sendMessage_run _ _ w

/-- The checks change nothing at all. -/
theorem checkSubmission_pure (env : Env) (params : RoundSubmissionParameters) (author : AuthID) :
    Call.Within Eq (checkSubmission env params author) := by
  have hread : ∀ {α : Type} (fails : Bool) (f : World → α),
      Call.Within Eq (Call.io fails .io (Call.read f) : Service α) := fun fails f =>
    Call.Within.io (fun _ => rfl) _ _ (Call.Within.read (fun _ => rfl) f)
  have hbind : ∀ {α β : Type} {x : Service α} {f : α → Service β}, Call.Within Eq x →
      (∀ a, Call.Within Eq (f a)) → Call.Within Eq (x >>= f) := fun hx hf =>
    Call.Within.bind (fun _ _ _ h h' => h.trans h') hx hf
  have hfail : ∀ {α : Type} (e : GoError), Call.Within Eq (Call.fail e : Service α) := fun e =>
    Call.Within.fail (fun _ => rfl) e
  have hcrash : ∀ {α : Type}, Call.Within Eq (Call.crash : Service α) :=
    Call.Within.crash fun _ => rfl
  -- The checks in the order of the source, each a read or a failure.
  unfold checkSubmission
  apply hbind (hread _ _)
  rintro (_ | round)
  · exact hcrash
  apply Call.Within.ite _ (hfail _)
  apply Call.Within.ite _ (hfail _)
  apply hbind (hread _ _)
  intro problem
  apply hbind (hread _ _)
  intro problemSet
  cases problem with
  | none => exact Call.Within.ite _ (hfail _) hcrash
  | some problem =>
    simp only
    split
    · exact hfail _
    · apply hbind (hread _ _)
      rintro (_ | participant)
      · exact hfail _
      · exact hbind (hread _ _) fun _ => Call.Within.pure (fun _ => rfl) _

/-- What the checks found: the problem, the participant of the author, and the points, which are
zero when an accepted submission of the problem by the author is already stored. -/
structure Checked (params : RoundSubmissionParameters) (author : AuthID)
    (ctx : SubmissionContext) (w : World) : Prop where
  problem : w.db.problems.find? params.problemID = some ctx.problem
  participant : w.db.participantAuthID ctx.participant.id = some author
  problemScore : ctx.problemScore =
    if w.db.acceptedBy ctx.problem.id author then 0 else determineScoreForProblem ctx.problem

/-- The rows that the checks found: the round, the problem, and the row of the author in the
round. -/
structure Found (params : RoundSubmissionParameters) (author : AuthID) (ctx : SubmissionContext)
    (w : World) : Prop where
  round : w.db.rounds.find? params.roundID = some ctx.round
  problem : w.db.problems.find? params.problemID = some ctx.problem
  participant : ctx.participant ∈ w.db.participants.rows
  ofAuthor : ctx.participant.participantAuthID = author
  ofRound : ctx.participant.roundID = params.roundID
  problemScore : ctx.problemScore =
    if w.db.acceptedBy ctx.problem.id author then 0 else determineScoreForProblem ctx.problem

/-- What each of the checks read, when all of them went through. -/
theorem checkSubmission_eq_ok {env : Env} {params : RoundSubmissionParameters} {author : AuthID}
    {ctx : SubmissionContext} {w w' : World}
    (h : (checkSubmission env params author).run w = (.ok ctx, w')) :
    w.db.rounds.find? params.roundID = some ctx.round ∧
      w.db.problems.find? params.problemID = some ctx.problem ∧
      ((w.db.problemSet env.problems ctx.round.id).findIdx? fun p => p.id = ctx.problem.id) =
        some ctx.problemIndex ∧
      ((env.participants.order w.db.participants.rows).find? fun p =>
        p.participantAuthID = author ∧ p.roundID = params.roundID) = some ctx.participant ∧
      ctx.problemScore = if w.db.acceptedBy ctx.problem.id ctx.participant.participantAuthID then 0
        else determineScoreForProblem ctx.problem := by
  -- The checks in the order of the source, each of which went through.
  unfold checkSubmission at h
  obtain ⟨round, w₁, hround, h⟩ := Call.bind_eq_ok h
  obtain ⟨-, rfl, rfl⟩ := Call.io_read_eq_ok hround
  split at h
  · cases h
  rename_i round hround
  split_ifs at h
  · cases h
  · cases h
  obtain ⟨problem, w₁, hproblem, h⟩ := Call.bind_eq_ok h
  obtain ⟨-, rfl, rfl⟩ := Call.io_read_eq_ok hproblem
  obtain ⟨problemSet, w₁, hset, h⟩ := Call.bind_eq_ok h
  obtain ⟨-, rfl, rfl⟩ := Call.io_read_eq_ok hset
  split at h
  · split_ifs at h <;> cases h
  rename_i problem hproblem
  split at h
  · cases h
  rename_i problemIndex hindex
  obtain ⟨participant, w₁, hparticipant, h⟩ := Call.bind_eq_ok h
  obtain ⟨-, rfl, rfl⟩ := Call.io_read_eq_ok hparticipant
  split at h
  · cases h
  rename_i participant hfind
  obtain ⟨problemScore, w₁, hscore, h⟩ := Call.bind_eq_ok h
  obtain ⟨-, rfl, rfl⟩ := Call.io_read_eq_ok hscore
  cases h
  exact ⟨hround, hproblem, hindex, hfind, rfl⟩

/-- Checks that succeed have found all that they look up. -/
theorem checkSubmission_found {env : Env} {params : RoundSubmissionParameters} {author : AuthID}
    {ctx : SubmissionContext} {w w' : World}
    (h : (checkSubmission env params author).run w = (.ok ctx, w')) :
    Found params author ctx w := by
  obtain ⟨hround, hproblem, -, hfind, hscore⟩ := checkSubmission_eq_ok h
  -- The row that was found is one of the author in the round.
  have hmem : ctx.participant ∈ w.db.participants.rows :=
    env.participants.mem_order.mp (List.mem_of_find?_eq_some hfind)
  have hof : ctx.participant.participantAuthID = author ∧
      ctx.participant.roundID = params.roundID := by
    have hfound := List.find?_some hfind
    simpa only [decide_eq_true_eq] using hfound
  rw [hof.1] at hscore
  exact ⟨hround, hproblem, hmem, hof.1, hof.2, hscore⟩

/-- The place of the submitted problem in the problem set, as it was loaded. -/
theorem checkSubmission_index {env : Env} {params : RoundSubmissionParameters} {author : AuthID}
    {ctx : SubmissionContext} {w w' : World}
    (h : (checkSubmission env params author).run w = (.ok ctx, w')) :
    (w.db.problemSet env.problems ctx.round.id)[ctx.problemIndex]? = some ctx.problem := by
  obtain ⟨-, hproblem, hindex, -, -⟩ := checkSubmission_eq_ok h
  obtain ⟨hlt, hid, -⟩ := List.findIdx?_eq_some_iff_getElem.mp hindex
  have hmem := env.problems.mem_order.mp (List.getElem_mem hlt)
  have hrow := (List.mem_filter.mp hmem).1
  rw [List.getElem?_eq_getElem hlt]
  congr 1
  exact Table.eq_of_id_eq hrow (Table.find?_eq_some.mp hproblem).1 (of_decide_eq_true hid)

/-- Checks that succeed found what they looked for. -/
theorem checkSubmission_checked {env : Env} {params : RoundSubmissionParameters} {author : AuthID}
    {ctx : SubmissionContext} {w w' : World}
    (h : (checkSubmission env params author).run w = (.ok ctx, w')) :
    Checked params author ctx w := by
  have hfound := checkSubmission_found h
  refine ⟨hfound.problem, ?_, hfound.problemScore⟩
  unfold DB.participantAuthID
  rw [show ctx.participant.id = Row.id ctx.participant from rfl, Table.find?_id hfound.participant,
    Option.map_some, hfound.ofAuthor]

/-! ## Taking in a submission -/

/-- The round submission that is stored. -/
def recordedRoundSubmission (env : Env) (ctx : SubmissionContext) (w : World) : RoundSubmission :=
  newRoundSubmission ctx (w.db.roundSubmissions.fresh env.roundSubmissionHint)

/-- The submission that is stored with it. -/
def recordedSubmission (env : Env) (params : RoundSubmissionParameters) (ctx : SubmissionContext)
    (w : World) : Submission :=
  newSubmission env params ctx (w.db.roundSubmissions.fresh env.roundSubmissionHint)
    (w.db.submissions.fresh env.submissionHint)

/-- The message about them. -/
def recordedMessage (env : Env) (params : RoundSubmissionParameters) (ctx : SubmissionContext)
    (w : World) : Payload :=
  (newSubmissionIngressDTO ctx.problem (recordedRoundSubmission env ctx w)
    (recordedSubmission env params ctx w)).marshal

/-- The state with both stored. -/
def World.record (w : World) (env : Env) (params : RoundSubmissionParameters)
    (ctx : SubmissionContext) : World :=
  { w with db := w.db.addSubmission env params ctx }

/-- The state with a message put on the queue to the worker. -/
def World.posting (w : World) (payload : Payload) : World :=
  { w with redis := { w.redis with ingress := w.redis.ingress.publish payload } }

section Cases

variable {env : Env} {params : RoundSubmissionParameters} {author : AuthID}
  {ctx : SubmissionContext} {w : World}

/-- The submission and its round submission are stored. -/
theorem storeSubmission_run (h : env.fails .createSubmission = false) :
    (storeSubmission env params ctx).run w =
      (.ok (recordedRoundSubmission env ctx w, recordedSubmission env params ctx w),
        w.record env params ctx) := by
  unfold storeSubmission
  rw [h]
  rfl

/-- What follows a stored submission returns, with the message posted unless that fails. -/
theorem publishSubmission_run (env : Env) (params : RoundSubmissionParameters)
    (ctx : SubmissionContext) (author : AuthID) (rs : RoundSubmission) (s : Submission)
    (w : World) :
    ∃ w', (publishSubmission env params ctx author rs s).run w = (.ok (), w') ∧
      Quiet (if env.fails .publish then w
        else w.posting (newSubmissionIngressDTO ctx.problem rs s).marshal) w' := by
  have hpost : (logged (addSubmissionToQueue (env.fails .publish) ctx.problem rs s)).run w =
      (.ok (), if env.fails .publish then w
        else w.posting (newSubmissionIngressDTO ctx.problem rs s).marshal) := by
    cases hp : env.fails .publish <;> rfl
  -- Everything after the message is logged when it fails, and so it returns.
  have hreturns : Call.Returns (do
      announceSubmission env params ctx author
      if params.verdict = submissionStatusAccepted then do
        countSolved env ctx
        announceNextProblem env ctx
      else pure ()) := by
    apply Call.Returns.bind
    · exact Call.Returns.bind (Call.Returns.read _) fun _ => returns_logged (calm_sendMessage _ _)
    intro _
    apply Call.Returns.ite _ _ (Call.Returns.pure _)
    apply Call.Returns.bind
    · apply Call.Returns.ite _ _ (Call.Returns.pure _)
      exact returns_logged (Call.Calm.io _ _ (Call.Calm.write _))
    intro _
    apply Call.Returns.bind (Call.Returns.read _)
    intro problemCount
    apply Call.Returns.ite _ _ (Call.Returns.pure _)
    apply Call.Returns.bind (Call.Returns.read _)
    intro problemSet
    split
    · exact returns_logged (calm_sendMessage _ _)
    · exact Call.Returns.pure _
  -- It writes nothing but the count of problems solved.
  have hquiet : Call.Within Quiet (do
      announceSubmission env params ctx author
      if params.verdict = submissionStatusAccepted then do
        countSolved env ctx
        announceNextProblem env ctx
      else pure () : Service Unit) := by
    apply Call.Within.bind Quiet.trans (quiet_announceSubmission _ _ _ _)
    intro _
    apply Call.Within.ite _ _ (Call.Within.pure Quiet.refl _)
    exact Call.Within.bind Quiet.trans (quiet_countSolved _ _) fun _ =>
      quiet_announceNextProblem _ _
  obtain ⟨⟨⟩, w', hrun⟩ := hreturns (if env.fails .publish then w
    else w.posting (newSubmissionIngressDTO ctx.problem rs s).marshal)
  refine ⟨w', (Call.bind_ok hpost _).trans hrun, ?_⟩
  have := hquiet (if env.fails .publish then w
    else w.posting (newSubmissionIngressDTO ctx.problem rs s).marshal)
  rwa [hrun] at this

/-- Taking in a submission has three ends: it is refused, and nothing changes; it is stored, but an
operation after that fails; or it is stored, published (unless that fails) and returned. -/
theorem createRoundSubmission_cases (env : Env) (params : RoundSubmissionParameters)
    (author : AuthID) (w : World) :
    (∃ o, (createRoundSubmission env params author).run w = (o, w) ∧ (∀ p, o ≠ .ok p) ∧
      (env.fails .createSubmission = true ∨
        ∀ ctx, (checkSubmission env params author).run w ≠ (.ok ctx, w))) ∨
    ∃ ctx, (checkSubmission env params author).run w = (.ok ctx, w) ∧
      env.fails .createSubmission = false ∧
      ((env.fails .appendToRound = true ∨ env.fails .appendToParticipant = true) ∧
          (createRoundSubmission env params author).run w =
            (.err .io, w.record env params ctx) ∨
        (env.fails .appendToRound = false ∧ env.fails .appendToParticipant = false) ∧
          ∃ w', (createRoundSubmission env params author).run w =
              (.ok (recordedRoundSubmission env ctx w, recordedSubmission env params ctx w), w') ∧
            Quiet (if env.fails .publish then w.record env params ctx
              else (w.record env params ctx).posting (recordedMessage env params ctx w)) w') := by
  have hpure := checkSubmission_pure env params author w
  -- The checks succeed, fail or crash, and change nothing.
  rcases hcheck : (checkSubmission env params author).run w with ⟨ctx | e | _, w₁⟩
  · obtain rfl : w = w₁ := by
      rw [hcheck] at hpure
      exact hpure
    cases hc : env.fails .createSubmission with
    | true =>
      refine Or.inl ⟨.err .io, ?_, by simp, Or.inl rfl⟩
      unfold createRoundSubmission
      rw [Call.bind_ok hcheck]
      refine Call.bind_err ?_ _
      rw [storeSubmission, hc]
      rfl
    | false =>
      refine Or.inr ⟨ctx, rfl, rfl, ?_⟩
      unfold createRoundSubmission
      rw [Call.bind_ok hcheck, Call.bind_ok (storeSubmission_run hc)]
      cases hr : env.fails .appendToRound with
      | true => exact Or.inl ⟨Or.inl rfl, rfl⟩
      | false =>
        cases hp : env.fails .appendToParticipant with
        | true => exact Or.inl ⟨Or.inr rfl, rfl⟩
        | false =>
          obtain ⟨w', hrun, hquiet⟩ := publishSubmission_run env params ctx author
            (recordedRoundSubmission env ctx w) (recordedSubmission env params ctx w)
            (w.record env params ctx)
          refine Or.inr ⟨⟨rfl, rfl⟩, w', ?_, hquiet⟩
          simp only [Call.io_false, Call.run_pure_bind]
          rw [Call.bind_ok hrun]
          rfl
  · obtain rfl : w = w₁ := by
      rw [hcheck] at hpure
      exact hpure
    refine Or.inl ⟨.err e, Call.bind_err hcheck _, by simp, Or.inr ?_⟩
    simp
  · obtain rfl : w = w₁ := by
      rw [hcheck] at hpure
      exact hpure
    refine Or.inl ⟨.panic, Call.bind_panic hcheck _, by simp, Or.inr ?_⟩
    simp

end Cases

end Bsg.Central
