import Bsg.Central.Routing

/-!
# From the database to the queue

`CreateRoundSubmission` stores a submission and then hands it to the worker, in two steps that
nothing ties together. Both services check what they are handed, each on its own:

* central-service looks at the round, the problem and the participant, and the worker at the texts.
  What is queued is taken by the worker exactly when the request is complete (`queued_taken_iff`).
* A failure between the two steps leaves a submission that is stored and will never be processed
  (`storedIsQueued_iff`). When its verdict is `Accepted`, whatever its author submits for that
  problem from then on earns nothing (`Stored.problemScore_eq_zero`).
-/

namespace Bsg.Central

open Bsg.Foundations

/-- The state after a request. -/
def World.submit (w : World) (env : Env) (params : RoundSubmissionParameters) (author : AuthID) :
    World := ((createRoundSubmission env params author).run w).2

/-! ## What is stored -/

/-- The rows of a request stand in the database. -/
structure Stored (env : Env) (params : RoundSubmissionParameters) (author : AuthID)
    (ctx : SubmissionContext) (w : World) (db : DB) : Prop where
  roundSubmission : db.roundSubmissions.find? (w.db.roundSubmissions.fresh env.roundSubmissionHint) =
    some (recordedRoundSubmission env ctx w)
  submission : db.submissions.find? (w.db.submissions.fresh env.submissionHint) =
    some (recordedSubmission env params ctx w)
  author : db.participantAuthID ctx.participant.id = some author

section Stored

variable {env : Env} {params : RoundSubmissionParameters} {author : AuthID}
  {ctx : SubmissionContext} {w : World}

/-- The rows stand once they are inserted, whatever is announced after that. -/
theorem stored_of_quiet (hcheck : (checkSubmission env params author).run w = (.ok ctx, w))
    {w₁ w' : World} (hdb : w₁.db = (w.record env params ctx).db) (hquiet : Quiet w₁ w') :
    Stored env params author ctx w w'.db where
  roundSubmission := by
    rw [hquiet.roundSubmissions, hdb]
    exact Table.find?_insert_self _ _ _ fun _ => rfl
  submission := by
    rw [hquiet.submissions, hdb]
    exact Table.find?_insert_self _ _ _ fun _ => rfl
  author := by
    rw [hquiet.participants, DB.participantAuthID, hdb]
    exact (checkSubmission_checked hcheck).participant

/-- An accepted one counts as accepted. -/
theorem Stored.acceptedBy {db : DB} (h : Stored env params author ctx w db)
    (hverdict : params.verdict = submissionStatusAccepted) :
    db.acceptedBy ctx.problem.id author = true := by
  obtain ⟨participant, hfind, hauthor⟩ := Option.map_eq_some_iff.mp h.author
  have hmem := (Table.find?_eq_some.mp h.submission).1
  refine List.any_eq_true.mpr ⟨_, hmem, ?_⟩
  have howner : (recordedSubmission env params ctx w).submissionOwnerID =
      w.db.roundSubmissions.fresh env.roundSubmissionHint := rfl
  rw [howner, h.roundSubmission]
  have hparticipant : (recordedRoundSubmission env ctx w).roundParticipantID =
      ctx.participant.id := rfl
  simp only [hparticipant, hfind, hauthor, decide_true, Bool.and_true]
  exact decide_eq_true ⟨hverdict, rfl, rfl⟩

/-- From then on the problem is worth nothing to the author. -/
theorem Stored.problemScore_eq_zero {w' : World} (h : Stored env params author ctx w w'.db)
    (hverdict : params.verdict = submissionStatusAccepted) {env' : Env}
    {params' : RoundSubmissionParameters} {ctx' : SubmissionContext}
    (hcheck : (checkSubmission env' params' author).run w' = (.ok ctx', w'))
    (hproblem : ctx'.problem.id = ctx.problem.id) : ctx'.problemScore = 0 := by
  rw [(checkSubmission_checked hcheck).problemScore, hproblem, h.acceptedBy hverdict]
  rfl

end Stored

/-! ## What is queued -/

/-- The request puts this message on the queue to the worker. -/
def Queues (env : Env) (params : RoundSubmissionParameters) (author : AuthID) (w : World)
    (rawMsg : Payload) : Prop :=
  (w.submit env params author).redis.ingress = w.redis.ingress.publish rawMsg

/-- What the worker asks of a message, said of the request: language and code are given, the code is
not too long, the problem has a slug, and the keys are 64-bit words. -/
structure Complete (env : Env) (params : RoundSubmissionParameters) (w : World) : Prop where
  language : params.language ≠ ""
  code : params.code ≠ ""
  size : Worker.codeSize params.code ≤ 1 <<< 20
  slug : ∀ problem, w.db.problems.find? params.problemID = some problem → problem.slug ≠ ""
  problemID : params.problemID < 2^64
  submissionID : w.db.roundSubmissions.fresh env.roundSubmissionHint < 2^64

/-- The request is refused or not inserted, or nothing fails between its insertion and the queue. -/
def NothingLost (env : Env) (params : RoundSubmissionParameters) (author : AuthID) (w : World) :
    Prop :=
  (∀ ctx, (checkSubmission env params author).run w ≠ (.ok ctx, w)) ∨
    env.fails .createSubmission = true ∨
    ∀ op ∈ [Op.appendToRound, .appendToParticipant, .publish], env.fails op = false

section Queued

variable {env : Env} {params : RoundSubmissionParameters} {author : AuthID} {w : World}

/-- A published message changes the queue. -/
theorem publish_ne_self (q : RedisQueue) (rawMsg : Payload) : q.publish rawMsg ≠ q := fun h => by
  have hqueue := congrArg (fun q => q.queue.length) h
  simp [RedisQueue.publish] at hqueue

/-- A request either changes neither the submissions nor the queue, or its rows stand, and then its
message is on the queue when nothing failed. -/
theorem submit_cases (env : Env) (params : RoundSubmissionParameters) (author : AuthID) (w : World) :
    (w.submit env params author = w ∧
        ((∀ ctx, (checkSubmission env params author).run w ≠ (.ok ctx, w)) ∨
          env.fails .createSubmission = true)) ∨
      ∃ ctx, (checkSubmission env params author).run w = (.ok ctx, w) ∧
        env.fails .createSubmission = false ∧
        Stored env params author ctx w (w.submit env params author).db ∧
        if ∀ op ∈ [Op.appendToRound, .appendToParticipant, .publish], env.fails op = false then
          (w.submit env params author).redis.ingress =
            w.redis.ingress.publish (recordedMessage env params ctx w)
        else (w.submit env params author).redis = w.redis := by
  rcases createRoundSubmission_cases env params author w with
    ⟨o, hrun, -, hend⟩ | ⟨ctx, hcheck, hstored, ⟨hfails, hrun⟩ | ⟨happend, w', hrun, hquiet⟩⟩
  · exact Or.inl ⟨congrArg Prod.snd hrun, hend.symm⟩
  · -- the insertion is not undone when an association fails after it
    have hafter : w.submit env params author = w.record env params ctx := congrArg Prod.snd hrun
    refine Or.inr ⟨ctx, hcheck, hstored, ?_, ?_⟩
    · rw [hafter]
      exact stored_of_quiet hcheck rfl (Quiet.refl _)
    · rw [if_neg, hafter]
      · rfl
      · rintro hops
        rcases hfails with hfails | hfails
        · rw [hops .appendToRound (by simp)] at hfails
          cases hfails
        · rw [hops .appendToParticipant (by simp)] at hfails
          cases hfails
  · have hafter : w.submit env params author = w' := congrArg Prod.snd hrun
    refine Or.inr ⟨ctx, hcheck, hstored, ?_, ?_⟩
    · rw [hafter]
      refine stored_of_quiet hcheck ?_ hquiet
      split <;> rfl
    · rw [hafter]
      cases hpublish : env.fails .publish with
      | true =>
        rw [if_neg fun hops => by simpa [hpublish] using hops .publish (by simp), hquiet.redis,
          hpublish, if_pos rfl]
        rfl
      | false =>
        rw [if_pos (by simp [happend.1, happend.2, hpublish]), hquiet.redis, hpublish,
          if_neg Bool.false_ne_true]
        rfl

/-- What a request queues is the message of what it stored. -/
theorem Queues.cases {rawMsg : Payload} (h : Queues env params author w rawMsg) :
    ∃ ctx, (checkSubmission env params author).run w = (.ok ctx, w) ∧
      Stored env params author ctx w (w.submit env params author).db ∧
      rawMsg = recordedMessage env params ctx w := by
  rcases submit_cases env params author w with ⟨hsame, -⟩ | ⟨ctx, hcheck, -, hstored, hqueue⟩
  · rw [Queues, hsame] at h
    exact absurd h.symm (publish_ne_self _ _)
  · refine ⟨ctx, hcheck, hstored, ?_⟩
    unfold Queues at h
    split_ifs at hqueue with hops
    · rw [hqueue] at h
      have hlists := congrArg RedisQueue.queue h
      simpa [RedisQueue.publish] using hlists.symm
    · rw [hqueue] at h
      exact absurd h.symm (publish_ne_self _ _)

/-- The worker takes the message of what is stored exactly when the request is complete. -/
theorem accepts_recorded_iff {ctx : SubmissionContext}
    (hcheck : (checkSubmission env params author).run w = (.ok ctx, w)) :
    Worker.Accepts (newSubmissionIngressDTO ctx.problem (recordedRoundSubmission env ctx w)
      (recordedSubmission env params ctx w)) ↔ Complete env params w := by
  have hproblem := (checkSubmission_checked hcheck).problem
  obtain ⟨hmem, hid⟩ := Table.find?_eq_some.mp hproblem
  have hid : ctx.problem.id = params.problemID := hid
  have hpos : params.problemID ≠ 0 := hid ▸ w.db.problems.pos _ hmem
  have hfresh := w.db.roundSubmissions.fresh_ne_zero env.roundSubmissionHint
  unfold Worker.Accepts
  rw [Worker.validateIngressMessage_eq_none]
  constructor
  · rintro ⟨⟨hp, hs⟩, hslug, -, hlang, hcode, hsize, -⟩
    refine ⟨hlang, hcode, hsize, fun problem hfind => ?_, hid ▸ hp, hs⟩
    rw [hproblem] at hfind
    cases hfind
    exact hslug
  · intro h
    have hproblemID : ctx.problem.id < 2^64 := hid.symm ▸ h.problemID
    have hproblemID' : ctx.problem.id ≠ 0 := hid.symm ▸ hpos
    -- the keys of stored rows are not zero
    exact ⟨⟨hproblemID, h.submissionID⟩, h.slug _ hproblem, hproblemID', h.language, h.code, h.size,
      hfresh⟩

/-- What a request puts on the queue, the worker takes exactly when the request is complete. -/
theorem queued_taken_iff {rawMsg : Payload} (h : Queues env params author w rawMsg) :
    Worker.Takes rawMsg ↔ Complete env params w := by
  obtain ⟨ctx, hcheck, -, rfl⟩ := h.cases
  rw [recordedMessage, Worker.takes_marshal, accepts_recorded_iff hcheck]

/-- The message that a submission puts on an empty queue. -/
def Creation.message (c : Creation) (w : World) : Payload :=
  (w.submit c.env c.params c.author).redis.ingress.queue.headD []

/-- A complete submission is taken. -/
theorem taken_accepted : Worker.Takes ((Creation.accepted 1 1).message (.oneRound solver)) :=
  (queued_taken_iff (by unfold Queues; decide +kernel : Queues (Creation.accepted 1 1).env
    (Creation.accepted 1 1).params (Creation.accepted 1 1).author (.oneRound solver) _)).mpr
    ⟨by decide, by decide, by decide +kernel, by decide +kernel, by decide, by decide +kernel⟩

/-- An accepted submission without its code. -/
def Creation.withoutCode : Creation :=
  { Creation.accepted 1 1 with params := ⟨1, 1, "", "go", submissionStatusAccepted, 0⟩ }

/-- It is stored and queued, and the worker drops its message. -/
theorem queued_not_taken :
    Queues Creation.withoutCode.env Creation.withoutCode.params Creation.withoutCode.author
        (.oneRound solver) (Creation.withoutCode.message (.oneRound solver)) ∧
      ((World.oneRound solver).submit Creation.withoutCode.env Creation.withoutCode.params
        Creation.withoutCode.author).db.acceptedBy 1 solver = true ∧
      ¬ Worker.Takes (Creation.withoutCode.message (.oneRound solver)) := by
  unfold Queues
  decide +kernel

/-! ## What is stored without being queued -/

/-- After the request its rows stand and its message is on the queue, or nothing is stored. -/
def StoredIsQueued (env : Env) (params : RoundSubmissionParameters) (author : AuthID) (w : World) :
    Prop :=
  (∃ ctx, Stored env params author ctx w (w.submit env params author).db ∧
      Queues env params author w (recordedMessage env params ctx w)) ∨
    (w.submit env params author).db.submissions = w.db.submissions ∧
      (w.submit env params author).db.roundSubmissions = w.db.roundSubmissions

/-- What is stored is queued exactly when the request is not stored, or nothing fails after that.
Otherwise no queue holds a trace of it, and once the user's submission was accepted the problem is
worth nothing to him for as long as the rows stand. -/
theorem storedIsQueued_iff (env : Env) (params : RoundSubmissionParameters) (author : AuthID)
    (w : World) :
    (StoredIsQueued env params author w ↔ NothingLost env params author w) ∧
      (¬ NothingLost env params author w →
        (w.submit env params author).redis = w.redis ∧
        ∃ ctx, Stored env params author ctx w (w.submit env params author).db ∧
          (params.verdict = submissionStatusAccepted →
            ∀ w', Stored env params author ctx w w'.db → ∀ env' params' ctx',
              (checkSubmission env' params' author).run w' = (.ok ctx', w') →
              ctx'.problem.id = ctx.problem.id → ctx'.problemScore = 0)) := by
  rcases submit_cases env params author w with
    ⟨hsame, hend⟩ | ⟨ctx, hcheck, hcreate, hstored, hqueue⟩
  · have hnothing : NothingLost env params author w := hend.imp_right Or.inl
    refine ⟨iff_of_true (Or.inr ?_) hnothing, fun h => absurd hnothing h⟩
    rw [hsame]
    exact ⟨rfl, rfl⟩
  · by_cases hops : ∀ op ∈ [Op.appendToRound, .appendToParticipant, .publish], env.fails op = false
    · rw [if_pos hops] at hqueue
      have hnothing : NothingLost env params author w := Or.inr (Or.inr hops)
      exact ⟨iff_of_true (Or.inl ⟨ctx, hstored, hqueue⟩) hnothing, fun h => absurd hnothing h⟩
    · rw [if_neg hops] at hqueue
      have hlost : ¬ NothingLost env params author w := by
        rintro (h | h | h)
        · exact h ctx hcheck
        · rw [hcreate] at h
          cases h
        · exact hops h
      refine ⟨iff_of_false ?_ hlost, fun _ => ⟨hqueue, ctx, hstored, ?_⟩⟩
      · rintro (⟨ctx', -, hq⟩ | ⟨hsubmissions, -⟩)
        · rw [Queues, hqueue] at hq
          exact publish_ne_self _ _ hq.symm
        · -- the new key is that of no row from before
          have hfind := hstored.submission
          rw [hsubmissions] at hfind
          obtain ⟨hmem, hid⟩ := Table.find?_eq_some.mp hfind
          exact w.db.submissions.fresh_not_mem env.submissionHint
            (List.mem_map.mpr ⟨_, hmem, hid⟩)
      · intro hverdict w' hw' env' params' ctx' hcheck' hproblem
        exact hw'.problemScore_eq_zero hverdict hcheck' hproblem

end Queued

/-- An accepted submission whose message cannot be published. -/
def Creation.unpublished : Creation :=
  { Creation.accepted 1 1 with
    env := { (Creation.accepted 1 1).env with fails := fun op => decide (op = .publish) } }

/-- The points that a submission would be stored with. -/
def Creation.points (c : Creation) (w : World) : Option UInt64 :=
  ((checkSubmission c.env c.params c.author).run w).1.ok?.map SubmissionContext.problemScore

/-- It is stored and not queued. It was worth three points, and is worth none when it is submitted
again. -/
theorem stored_not_queued :
    ¬ StoredIsQueued Creation.unpublished.env Creation.unpublished.params
        Creation.unpublished.author (.oneRound solver) ∧
      (Creation.accepted 1 1).points (.oneRound solver) = some 3 ∧
      (Creation.accepted 2 2).points ((World.oneRound solver).submit Creation.unpublished.env
        Creation.unpublished.params Creation.unpublished.author) = some 0 := by
  refine ⟨?_, by decide +kernel, by decide +kernel⟩
  rintro (⟨ctx, -, hqueues⟩ | ⟨hsubmissions, -⟩)
  · have hredis : ((World.oneRound solver).submit Creation.unpublished.env
        Creation.unpublished.params Creation.unpublished.author).redis.ingress =
          (World.oneRound solver).redis.ingress := by decide +kernel
    rw [Queues, hredis] at hqueues
    exact publish_ne_self _ _ hqueues.symm
  · have hrows : ((World.oneRound solver).submit Creation.unpublished.env
        Creation.unpublished.params Creation.unpublished.author).db.submissions.rows ≠
          (World.oneRound solver).db.submissions.rows := by decide +kernel
    exact hrows (congrArg Table.rows hsubmissions)

end Bsg.Central
