import Bsg.Central.Listener

/-!
# A single failing operation

What the listener makes of a message when one operation on the database or on Redis fails.

* A submission that cannot be loaded and a verdict that cannot be written are errors that the
  listener takes for transient: the message is put back, and nothing was credited yet.
* Every other failure is logged, ignored, or reported as a plain error, for which the listener drops
  the message. `Loses` says when that loses points.

`creditKept_iff` puts this together: the points are kept exactly when the message is not poisonous
and nothing is owed that the failing operation loses.
-/

namespace Bsg.Central

open Bsg.Foundations

/-- What is due was credited, on the leaderboard of the round and on the global one. -/
def Credited (now : ℤ) (d : Due) (w w' : World) : Prop :=
  (w'.redis.leaderboard d.roundID).score? d.authID =
      some (w.redis.newEntry now d.roundID d.authID d.points) ∧
    standing w'.db.leaderboards d.userID =
      (standing w.db.leaderboards d.userID).credit d.difficulty d.points

/-- All effects of a message are there: the verdict is written, and what is due was credited. -/
structure Applied (env : EgressEnv) (payload : SubmissionEgressDTO) (w w' : World) : Prop where
  verdict : w'.db.submissions = setVerdict w.db.submissions payload.submissionId payload.verdict
  credited : ∀ d, w.db.due env payload = some d → Credited env.now d w w'

/-- Nothing was credited yet, and every later processing without faults returns and applies all
effects. What is due then is what was due before. -/
def Retriable (env : EgressEnv) (rawSubmissionData : Payload) (w w' : World) : Prop :=
  SameScores w w' ∧ ∀ env' : EgressEnv,
    ((processSubmissionData env'.healthy rawSubmissionData).run w').1 ≠ .panic ∧
    ∀ payload, SubmissionEgressDTO.unmarshal rawSubmissionData = some payload →
      (w'.db.due env' payload = w.db.due env payload ∨
        w'.db.due env' payload = w.db.due env' payload) ∧
      Applied env' payload w' (w'.afterProcessing env' rawSubmissionData)

/-- The listener drops the message only when all its effects are there; a message that it does not
drop keeps its copies, and can be processed later. -/
def CreditKept (env : EgressEnv) (op : EgressOp) (rawSubmissionData : Payload) (w : World) : Prop :=
  let before := w.delivering rawSubmissionData
  let after := ((listenForSubmissionData (env.failing op)).run before).2
  let dropped := after.redis.egress.copies rawSubmissionData <
    before.redis.egress.copies rawSubmissionData
  (dropped → ∀ payload, SubmissionEgressDTO.unmarshal rawSubmissionData = some payload →
    Applied env payload w after) ∧
  (¬ dropped → after.redis.egress.copies rawSubmissionData =
      before.redis.egress.copies rawSubmissionData ∧
    Retriable env rawSubmissionData w after)

/-! ## What a failure loses -/

/-- The first row of the global leaderboard is that of the user. -/
def FirstRow (w : World) (userID : ℕ) : Prop :=
  ∃ lb, w.db.leaderboards.first? (fun _ => true) = some lb ∧ lb.userID = userID

/-- What is due gets lost when the operation fails:

* without the round submission or the leaderboard row there is nothing to credit, or nowhere;
* without its problem, the solved problem is not counted, if its difficulty is counted at all;
* without its user, the points go to the first row of the global leaderboard;
* without the leaderboard of the round, its entry stays as it is. -/
def Loses (env : EgressEnv) (w : World) (d : Due) : EgressOp → Prop
  | .loadRoundSubmission | .findLeaderboard | .saveLeaderboard => True
  | .loadProblem => d.difficulty = difficultyEasy ∨ d.difficulty = difficultyMedium ∨
      d.difficulty = difficultyHard
  | .findUser => ¬ FirstRow w d.userID
  | .createUser => w.db.userByAuthID d.authID = none ∧ ¬ FirstRow w d.userID
  | .reloadRoundSubmission | .zscore | .zadd =>
    (w.redis.leaderboard d.roundID).score? d.authID ≠
      some (w.redis.newEntry env.now d.roundID d.authID d.points)
  | .loadSubmission | .updateVerdict | .countAccepted | .createLeaderboard => False

/-- A problem that was not loaded is credited in full when its difficulty is not counted. -/
theorem Leaderboard.credit_empty_eq {lb : Leaderboard} {difficulty : String} {points : UInt64} :
    lb.credit "" points = lb.credit difficulty points ↔
      ¬ (difficulty = difficultyEasy ∨ difficulty = difficultyMedium ∨
        difficulty = difficultyHard) := by
  have heasy : "" ≠ difficultyEasy := by decide
  have hmedium : "" ≠ difficultyMedium := by decide
  have hhard : "" ≠ difficultyHard := by decide
  simp only [Leaderboard.credit, if_neg heasy, if_neg hmedium, if_neg hhard,
    Leaderboard.mk.injEq, true_and, and_true, not_or]
  split_ifs <;> simp_all

section Paid

variable {env : EgressEnv} {payload : SubmissionEgressDTO} {w : World} {s : Submission} {d : Due}

/-- What a message that is owed points does to the leaderboards, when only operations on these may
fail: each of them is credited, or stays as it is. -/
theorem processPayload_credits (h : JudgesWell env w payload s)
    (hd : w.db.due env payload = some d) :
    ∃ o w', (processPayload env payload).run w = (o, w') ∧
      (CreditsRound env → w'.redis = w.redis.creditRound env.now d.roundID d.authID d.points) ∧
      (¬ CreditsRound env → w'.redis = w.redis) ∧
      (CreditsUser env → standing w'.db.leaderboards d.userID =
        (standing w.db.leaderboards d.userID).credit (w.db.difficultySeen env s) d.points) ∧
      (¬ CreditsUser env → standing w'.db.leaderboards d.userID =
        standing w.db.leaderboards d.userID) := by
  obtain ⟨h0, hex⟩ := due_user h.found hd
  -- the leaderboard of the round
  obtain ⟨w₂, hround, hdb, hcredit, hno⟩ : ∃ w₂, (addToRoundLeaderboard env s d.points).run
      (w.judged env s payload) = (.ok (), w₂) ∧ w₂.db = (w.judged env s payload).db ∧
      (CreditsRound env → w₂.redis = w.redis.creditRound env.now d.roundID d.authID d.points) ∧
      (¬ CreditsRound env → w₂.redis = w.redis) := by
    by_cases hr : CreditsRound env
    · exact ⟨_, addToRoundLeaderboard_judged hr h.found hd, rfl, fun _ => rfl,
        fun hn => absurd hr hn⟩
    · exact ⟨_, addToRoundLeaderboard_fails hr s d.points _, rfl, fun hc => absurd hc hr,
        fun _ => rfl⟩
  have hrun := processPayload_judged_paid h hd hround
  have hlb : w₂.db.leaderboards = w.db.leaderboards := by rw [hdb]; rfl
  have husers : (w₂.db.users.find? d.userID).isSome := by rw [hdb]; exact hex
  -- the global leaderboard
  by_cases hs : env.fails .saveLeaderboard = true
  · obtain ⟨t, hadd, hstand⟩ := addToLeaderboard_unsaved w₂ hs h0 (w.db.difficultySeen env s)
      d.points
    refine ⟨_, _, hrun.trans hadd, hcredit, hno, fun hu => ?_, fun _ => ?_⟩
    · rw [hu.2] at hs
      cases hs
    · exact (hstand d.userID).trans (by rw [hlb])
  · rw [Bool.not_eq_true] at hs
    by_cases hf : env.fails .findLeaderboard = true
    · have hadd := addToLeaderboard_unfound hf hs d.userID (w.db.difficultySeen env s) d.points w₂
      refine ⟨_, _, hrun.trans hadd, hcredit, hno, fun hu => ?_, fun _ => by rw [hlb]⟩
      rw [hu.1] at hf
      cases hf
    · rw [Bool.not_eq_true] at hf
      obtain ⟨t, hadd, hstand⟩ := addToLeaderboard_run ⟨hf, hs⟩ h0 husers
        (w.db.difficultySeen env s) d.points
      refine ⟨_, _, hrun.trans hadd, hcredit, hno, fun _ => ?_, fun hu => absurd ⟨hf, hs⟩ hu⟩
      exact (hstand d.userID).trans (by rw [if_pos rfl, hlb])

/-- When only operations on the leaderboards or on the problem may fail, what is due is credited
exactly when each of these does not matter. -/
theorem credited_judged (h : JudgesWell env w payload s) (hd : w.db.due env payload = some d) :
    Credited env.now d w ((processPayload env payload).run w).2 ↔
      (¬ CreditsRound env → (w.redis.leaderboard d.roundID).score? d.authID =
        some (w.redis.newEntry env.now d.roundID d.authID d.points)) ∧ CreditsUser env ∧
      (standing w.db.leaderboards d.userID).credit (w.db.difficultySeen env s) d.points =
        (standing w.db.leaderboards d.userID).credit d.difficulty d.points := by
  obtain ⟨o, w', hrun, hround, hnoRound, huser, hnoUser⟩ := processPayload_credits h hd
  obtain ⟨-, -, -, -, h0, -⟩ := due_eq_some h.found hd
  rw [hrun]
  constructor
  · rintro ⟨hentry, hstand⟩
    by_cases hu : CreditsUser env
    · refine ⟨fun hr => ?_, hu, (huser hu).symm.trans hstand⟩
      rwa [hnoRound hr] at hentry
    · rw [hnoUser hu] at hstand
      exact absurd hstand.symm (Leaderboard.credit_ne _ _ h0)
  · rintro ⟨hentry, hu, hcredit⟩
    refine ⟨?_, (huser hu).trans hcredit⟩
    by_cases hr : CreditsRound env
    · rw [hround hr, Redis.score?_creditRound]
    · rw [hnoRound hr]
      exact hentry hr

/-- Without the round submission, nothing that is due is credited. -/
theorem not_credited_of_missing (hload : env.fails .loadSubmission = false)
    (hl : env.fails .loadRoundSubmission = true) (hv : env.fails .updateVerdict = false)
    (hs : w.db.submissions.find? payload.submissionId = some s)
    (hd : w.db.due env payload = some d) :
    ¬ Credited env.now d w ((processPayload env payload).run w).2 := by
  obtain ⟨ha, rs, ho, -, h0, -⟩ := due_eq_some hs hd
  have hearn : (earn env s payload.verdict).run w = (.ok ⟨0, 0⟩, w) := by
    rw [earn_accepted ha (ownerOf_eq_some ho).1 (earnRound_missing (Or.inl hl)),
      withoutRepeats_zero]
  rw [processPayload_unpaid hload hs hearn hv rfl]
  rintro ⟨-, hstand⟩
  exact absurd hstand.symm (Leaderboard.credit_ne _ _ h0)

/-- Points for the user `0` reach a user exactly when the first row of the global leaderboard is
that of the user; the entries of the rounds stay. -/
theorem credit_nobody_iff (huser : CreditsUser env) (difficulty : String) {points : UInt64}
    (h0 : points ≠ 0) (userID : ℕ) (w : World) :
    (standing ((addToLeaderboard env 0 difficulty points).run w).2.db.leaderboards userID =
        (standing w.db.leaderboards userID).credit difficulty points ↔ FirstRow w userID) ∧
      ((addToLeaderboard env 0 difficulty points).run w).2.redis = w.redis := by
  have hnobody := addToLeaderboard_nobody (w := w) huser difficulty points
  unfold FirstRow
  cases hfirst : w.db.leaderboards.first? (fun _ => true) with
  | none =>
    rw [hfirst] at hnobody
    rw [hnobody]
    refine ⟨iff_of_false (fun hstand => Leaderboard.credit_ne _ _ h0 hstand.symm) ?_, rfl⟩
    rintro ⟨lb, hlb, -⟩
    cases hlb
  | some lb =>
    rw [hfirst] at hnobody
    obtain ⟨t, hrun, hstand⟩ := hnobody
    rw [hrun]
    refine ⟨?_, rfl⟩
    -- The points are on the first row, whoever it belongs to.
    have hsame : standing t userID = _ := hstand userID
    constructor
    · intro hcredited
      refine ⟨lb, rfl, ?_⟩
      by_contra hne
      rw [if_neg (Ne.symm hne)] at hsame
      exact Leaderboard.credit_ne _ _ h0 (hcredited.symm.trans hsame)
    · rintro ⟨_, ⟨⟩, rfl⟩
      rwa [if_pos rfl] at hsame

/-- Without its user, what is due is credited exactly when the first row of the global leaderboard
is that of the user. -/
theorem credited_userless (hload : env.fails .loadSubmission = false)
    (hl : env.fails .loadRoundSubmission = false)
    (hu : env.fails .findUser = true ∨
      env.fails .createUser = true ∧ w.db.userByAuthID d.authID = none)
    (hv : env.fails .updateVerdict = false) (hp : env.fails .loadProblem = false)
    (hround : CreditsRound env) (huser : CreditsUser env)
    (hs : w.db.submissions.find? payload.submissionId = some s)
    (hsound : w.db.shortAuthor s payload.verdict = false)
    (hd : w.db.due env payload = some d) :
    Credited env.now d w ((processPayload env payload).run w).2 ↔ FirstRow w d.userID := by
  obtain ⟨ha, rs, ho, -, h0, hdue, -⟩ := due_eq_some hs hd
  obtain ⟨howner, hrs⟩ := ownerOf_eq_some ho
  have hauthor : d.authID = w.db.authorOf rs := by rw [hdue]
  have hpoints : rs.score = d.points := by rw [hdue]
  have hdiff : w.db.difficultySeen env s = d.difficulty := by
    rw [hdue, DB.difficultySeen, hp]
    rfl
  have h8 : 8 ≤ (w.db.authorOf rs).length := by
    simpa [DB.shortAuthor, ha, ho] using hsound
  rw [hauthor] at hu
  -- Without its user the submission earns its points all the same, for the user `0`.
  have hearn : (earn env s payload.verdict).run w = (.ok ⟨d.points, 0⟩, w) := by
    rw [earn_accepted ha howner (earnRound_userless hl hu hrs h8), withoutRepeats_zero, hpoints]
  have hcredit : (addToRoundLeaderboard env s d.points).run
      (w.withVerdict payload.submissionId payload.verdict) =
      (.ok (), { w.withVerdict payload.submissionId payload.verdict with
        redis := w.redis.creditRound env.now d.roundID d.authID d.points }) := by
    rw [addToRoundLeaderboard_run hround (show (w.withVerdict payload.submissionId
      payload.verdict).db.ownerOf s = some rs from ho), hdue]
    rfl
  -- The entry of the round is written, and what is left is the global leaderboard.
  have hentry : ((w.redis.creditRound env.now d.roundID d.authID d.points).leaderboard
      d.roundID).score? d.authID =
        some (w.redis.newEntry env.now d.roundID d.authID d.points) :=
    Redis.score?_creditRound _ _ _ _ _
  rw [processPayload_paid hload hs hearn hv ha h0 hcredit, hdiff]
  obtain ⟨hiff, hredis⟩ := credit_nobody_iff huser d.difficulty h0 d.userID
    { w.withVerdict payload.submissionId payload.verdict with
      redis := w.redis.creditRound env.now d.roundID d.authID d.points }
  unfold Credited
  rw [hredis]
  exact ⟨fun h => hiff.mp h.2, fun h => ⟨hentry, hiff.mpr h⟩⟩

/-- Which operations a single failure leaves alone. -/
theorem fails_failing (env : EgressEnv) (op o : EgressOp) :
    (env.failing op).fails o = decide (o = op) := rfl

/-- A failure outside of the lookups leaves them alone. -/
theorem judgesWell_failing {op : EgressOp} (hs : w.db.submissions.find? payload.submissionId = some s)
    (hsound : w.db.shortAuthor s payload.verdict = false) (hd : w.db.due env payload = some d)
    (hop : op ∉ [EgressOp.loadSubmission, .updateVerdict, .loadRoundSubmission, .findUser])
    (huser : op = .createUser → (w.db.userByAuthID d.authID).isSome) :
    JudgesWell (env.failing op) w payload s := by
  obtain ⟨-, rs, ho, -, -, hdue, hrepeat⟩ := due_eq_some hs hd
  simp only [List.mem_cons, List.not_mem_nil, or_false, not_or] at hop
  have hother : ∀ o, o ≠ op → (env.failing op).fails o = false := fun o ho =>
    decide_eq_false ho
  refine ⟨hother _ (Ne.symm hop.1), hs, ⟨hother _ (Ne.symm hop.2.2.1),
    hother _ (Ne.symm hop.2.2.2), ?_, ?_⟩, hsound, hother _ (Ne.symm hop.2.1)⟩
  · by_cases hcreate : EgressOp.createUser = op
    · refine Or.inr fun rs' ho' => ?_
      obtain rfl := Option.some.inj (ho.symm.trans ho')
      have := huser hcreate.symm
      rwa [hdue] at this
    · exact Or.inl (hother _ hcreate)
  · refine Or.inr fun rs' ho' => ?_
    obtain rfl := Option.some.inj (ho.symm.trans ho')
    exact hrepeat

/-- What is due is credited exactly when the failing operation does not lose it. -/
theorem credited_failing {op : EgressOp} (hs : w.db.submissions.find? payload.submissionId = some s)
    (hsound : w.db.shortAuthor s payload.verdict = false ∨ op = .loadRoundSubmission)
    (hd : w.db.due env payload = some d)
    (hload : op ≠ .loadSubmission) (hv : op ≠ .updateVerdict) :
    Credited env.now d w ((processPayload (env.failing op) payload).run w).2 ↔ ¬ Loses env w d op := by
  obtain ⟨-, rs, -, -, -, hdue, -⟩ := due_eq_some hs hd
  by_cases hmissing : op = .loadRoundSubmission
  · subst hmissing
    have h : ¬ Credited env.now d w
        ((processPayload (env.failing .loadRoundSubmission) payload).run w).2 :=
      not_credited_of_missing rfl rfl rfl hs hd
    simpa [Loses] using h
  replace hsound := hsound.resolve_right hmissing
  have hdiff : w.db.difficultyOf s = d.difficulty := by rw [hdue]
  -- Outside of the lookups a failure shows in the two credits only.
  have hjudged : op ∉ [EgressOp.loadSubmission, .updateVerdict, .loadRoundSubmission, .findUser] →
      (op = .createUser → (w.db.userByAuthID d.authID).isSome) →
      (Credited env.now d w ((processPayload (env.failing op) payload).run w).2 ↔
        (¬ CreditsRound (env.failing op) → (w.redis.leaderboard d.roundID).score? d.authID =
          some (w.redis.newEntry env.now d.roundID d.authID d.points)) ∧
        CreditsUser (env.failing op) ∧
        (standing w.db.leaderboards d.userID).credit
            (if op = .loadProblem then "" else d.difficulty) d.points =
          (standing w.db.leaderboards d.userID).credit d.difficulty d.points) := by
    intro hop huser
    have h := credited_judged (judgesWell_failing hs hsound hd hop huser) hd
    rw [DB.difficultySeen, fails_failing, hdiff] at h
    simpa only [decide_eq_true_eq, eq_comm (a := op), EgressEnv.failing] using h
  -- One failing operation at a time.
  cases op with
  | loadSubmission => exact absurd rfl hload
  | updateVerdict => exact absurd rfl hv
  | loadRoundSubmission => exact absurd rfl hmissing
  | findUser =>
    have h : Credited env.now d w ((processPayload (env.failing .findUser) payload).run w).2 ↔
        FirstRow w d.userID :=
      credited_userless rfl rfl (Or.inl rfl) rfl rfl ⟨rfl, rfl, rfl⟩ ⟨rfl, rfl⟩ hs hsound hd
    simpa [Loses] using h
  | createUser =>
    cases hu : w.db.userByAuthID d.authID with
    | none =>
      have h : Credited env.now d w ((processPayload (env.failing .createUser) payload).run w).2 ↔
          FirstRow w d.userID :=
        credited_userless rfl rfl (Or.inr ⟨rfl, hu⟩) rfl rfl ⟨rfl, rfl, rfl⟩ ⟨rfl, rfl⟩ hs hsound
          hd
      simpa [Loses, hu] using h
    | some user =>
      rw [hjudged (by decide) (by simp [hu])]
      simp [Loses, CreditsRound, CreditsUser, fails_failing, hu]
  | loadProblem =>
    rw [hjudged (by decide) (by simp)]
    simp [Loses, CreditsRound, CreditsUser, fails_failing, Leaderboard.credit_empty_eq]
  | reloadRoundSubmission | zscore | zadd =>
    rw [hjudged (by decide) (by simp)]
    simp [Loses, CreditsRound, CreditsUser, fails_failing]
  | findLeaderboard | saveLeaderboard =>
    rw [hjudged (by decide) (by simp)]
    simp [Loses, CreditsUser, fails_failing]
  | countAccepted | createLeaderboard =>
    rw [hjudged (by decide) (by simp)]
    simp [Loses, CreditsRound, CreditsUser, fails_failing]

end Paid

/-! ## Keeping the points -/

/-- Without faults, a message that does not panic applies all its effects. -/
theorem applied_healthy (env : EgressEnv) (raw : Payload) (w : World) :
    ((processSubmissionData env.healthy raw).run w).1 ≠ .panic ∧
        (∀ payload, SubmissionEgressDTO.unmarshal raw = some payload →
          Applied env payload w (w.afterProcessing env raw)) ↔
      ∀ payload, SubmissionEgressDTO.unmarshal raw = some payload →
        w.db.poison payload = false := by
  cases hraw : SubmissionEgressDTO.unmarshal raw with
  | none => simp [processSubmissionData, hraw]
  | some payload =>
    simp only [Option.some.injEq, forall_eq']
    rw [afterProcessing_of_some hraw]
    have hprocess : processSubmissionData env.healthy raw = processPayload env.healthy payload := by
      rw [processSubmissionData, hraw]
    rw [hprocess]
    cases hs : w.db.submissions.find? payload.submissionId with
    | none =>
      have hpoison : w.db.poison payload = false := by rw [DB.poison, hs]
      have hdue : w.db.due env payload = none := by rw [DB.due, hs]
      rw [processPayload_missing rfl hs]
      refine iff_of_true ⟨by simp, (setVerdict_of_none hs _).symm, ?_⟩ hpoison
      simp [hdue]
    | some s =>
      cases hp : w.db.poison payload with
      | true =>
        rw [processPayload_poison rfl rfl hp]
        simp
      | false =>
        obtain ⟨w', hrun, h⟩ := processPayload_healthy env hs hp
        rw [hrun]
        refine iff_of_true ⟨by simp, h.judged.submissions, fun d hd => ⟨?_, ?_⟩⟩ rfl
        · rw [h.redis, DB.due_healthy, hd]
          exact Redis.score?_creditRound _ _ _ _ _
        · rw [h.paid d hd, if_pos rfl]

section Kept

variable {env : EgressEnv} {op : EgressOp} {raw : Payload} {w w' : World}

/-- A message that was dropped must have all its effects. -/
theorem creditKept_of_dropped (h : ((listenForSubmissionData (env.failing op)).run
      (w.delivering raw)).2 = w'.withEgress (w'.redis.egress.ack raw))
    (he : w'.redis.egress = (w.consuming raw).redis.egress) :
    CreditKept env op raw w ↔
      ∀ payload, SubmissionEgressDTO.unmarshal raw = some payload → Applied env payload w w' := by
  have hcopies : (w'.withEgress (w'.redis.egress.ack raw)).redis.egress.copies raw <
      (w.delivering raw).redis.egress.copies raw := by
    rw [copies_delivering, show (w'.withEgress (w'.redis.egress.ack raw)).redis.egress =
      w'.redis.egress.ack raw from rfl, he, copies_ack]
    omega
  simp only [CreditKept, h]
  constructor
  · intro hkept payload hraw
    have happlied := hkept.1 hcopies payload hraw
    exact ⟨happlied.verdict, happlied.credited⟩
  · intro hall
    refine ⟨fun _ payload hraw => ?_, fun hn => absurd hcopies hn⟩
    exact ⟨(hall payload hraw).verdict, (hall payload hraw).credited⟩

/-- A message that was not dropped must wait to be processed later, in a state from which that
applies its effects: it must not be poisonous there. -/
theorem creditKept_of_kept (h : ((listenForSubmissionData (env.failing op)).run
      (w.delivering raw)).2 = w')
    (he : w'.redis.egress.copies raw = w.redis.egress.copies raw + 1) (hsame : SameScores w w')
    (hdue : ∀ payload, SubmissionEgressDTO.unmarshal raw = some payload → ∀ env',
      w'.db.due env' payload = w.db.due env payload ∨
        w'.db.due env' payload = w.db.due env' payload) :
    CreditKept env op raw w ↔
      ∀ payload, SubmissionEgressDTO.unmarshal raw = some payload →
        w'.db.poison payload = false := by
  have hcopies : w'.redis.egress.copies raw = (w.delivering raw).redis.egress.copies raw := by
    rw [he, copies_delivering]
  -- A message can be processed later exactly when it is not poisonous then.
  have hretry : Retriable env raw w w' ↔ ∀ payload,
      SubmissionEgressDTO.unmarshal raw = some payload → w'.db.poison payload = false := by
    constructor
    · intro hr
      refine (applied_healthy env raw w').mp ⟨(hr.2 env).1, fun payload hraw => ?_⟩
      exact ((hr.2 env).2 payload hraw).2
    · intro hsound
      refine ⟨hsame, fun env' => ?_⟩
      obtain ⟨hcalm, happlied⟩ := (applied_healthy env' raw w').mpr hsound
      exact ⟨hcalm, fun payload hraw => ⟨hdue payload hraw env', happlied payload hraw⟩⟩
  simp only [CreditKept, h, ← hretry]
  constructor
  · intro hkept
    exact (hkept.2 (by omega)).2
  · intro hr
    exact ⟨fun hlt => absurd hlt (by omega), fun _ => ⟨hcopies, hr⟩⟩

/-- A message whose processing is judged but whose verdict cannot be written is put back, and its
user exists by then. -/
theorem creditKept_unwritten {payload : SubmissionEgressDTO} {s : Submission}
    (hraw : SubmissionEgressDTO.unmarshal raw = some payload)
    (hs : w.db.submissions.find? payload.submissionId = some s)
    (hsound : w.db.shortAuthor s payload.verdict = false) :
    CreditKept env .updateVerdict raw w := by
  have hearns : EarnsWell (env.failing .updateVerdict) (w.consuming raw).db s :=
    ⟨rfl, rfl, Or.inl rfl, Or.inl rfl⟩
  have hearn := earn_run hearns hsound
  have hrun : (processSubmissionData (env.failing .updateVerdict) raw).run (w.consuming raw) =
      (.err (.pointer ⟨500, "Internal Server Error: connection error"⟩), { w.consuming raw with
        db := w.db.afterEarning (env.failing .updateVerdict) s payload.verdict }) := by
    rw [processSubmissionData, hraw]
    exact processPayload_unwritten rfl hs hearn rfl
  -- All that the attempt wrote is the row of the user.
  have hjudged : Judged env payload s.verdict w.db (w.db.afterEarning env s payload.verdict) := by
    rw [DB.afterEarning_eq]
    refine ⟨(setVerdict_self hs).symm, fun s' hs' => ?_, rfl, rfl, rfl⟩
    rw [Option.some.inj (hs'.symm.trans hs)]
  have hlisten := congrArg Prod.snd (listen_transient rfl hrun)
  rw [creditKept_of_kept hlisten]
  · intro payload' hraw'
    obtain rfl := Option.some.inj (hraw.symm.trans hraw')
    refine (hjudged.poison_again hs).trans ?_
    rw [DB.poison, hs]
    exact hsound
  · exact copies_requeue raw w
  · have hdb := w.db.afterEarning_eq (env.failing .updateVerdict) s payload.verdict
    refine ⟨?_, rfl, ?_⟩
    · show (w.db.afterEarning _ s payload.verdict).submissions = w.db.submissions
      rw [hdb]
    · show (w.db.afterEarning _ s payload.verdict).leaderboards = w.db.leaderboards
      rw [hdb]
  · intro payload' hraw' env'
    obtain rfl := Option.some.inj (hraw.symm.trans hraw')
    exact Or.inl (hjudged.due_again hs)

/-- A message that cannot be read has no effects. -/
theorem creditKept_unreadable (hraw : SubmissionEgressDTO.unmarshal raw = none) :
    CreditKept env op raw w := by
  have hrun : (processSubmissionData (env.failing op) raw).run (w.consuming raw) =
      (.err (.other "json: cannot unmarshal"), w.consuming raw) := by
    rw [processSubmissionData, hraw]
    rfl
  have hlisten := congrArg Prod.snd (listen_plain (show GoError.Plain (.other _) from rfl) hrun)
  rw [creditKept_of_dropped hlisten rfl]
  simp [hraw]

section Readable

variable {payload : SubmissionEgressDTO} {s : Submission}
  (hraw : SubmissionEgressDTO.unmarshal raw = some payload)

include hraw

/-- A message whose submission cannot be loaded is put back, with nothing changed. -/
theorem creditKept_unloaded :
    CreditKept env .loadSubmission raw w ↔ w.db.poison payload = false := by
  have hrun : (processSubmissionData (env.failing .loadSubmission) raw).run (w.consuming raw) =
      (.err (.pointer ⟨500, "Internal Server Error: connection error"⟩), w.consuming raw) := by
    rw [processSubmissionData_of_some hraw]
    exact processPayload_unloaded rfl
  have hlisten := congrArg Prod.snd (listen_transient rfl hrun)
  rw [creditKept_of_kept hlisten (copies_requeue raw w) ⟨rfl, rfl, rfl⟩ fun _ _ _ => Or.inr rfl,
    hraw]
  simp only [Option.some.injEq, forall_eq']
  rfl

/-- A message whose submission does not exist is dropped, and has no effects. -/
theorem creditKept_missing (hload : op ≠ .loadSubmission)
    (hs : w.db.submissions.find? payload.submissionId = none) : CreditKept env op raw w := by
  have hrun := processPayload_missing (w := w.consuming raw)
    (show (env.failing op).fails .loadSubmission = false from decide_eq_false (Ne.symm hload)) hs
  rw [← processSubmissionData_of_some hraw] at hrun
  have hlisten := congrArg Prod.snd
    (listen_plain (show GoError.Plain (.pointer ⟨404, _⟩) from rfl) hrun)
  have hdue : w.db.due env payload = none := by rw [DB.due, hs]
  rw [creditKept_of_dropped hlisten rfl, hraw]
  simp only [Option.some.injEq, forall_eq']
  refine ⟨(setVerdict_of_none hs _).symm, fun d hd => ?_⟩
  rw [hdue] at hd
  cases hd

/-- A poisonous message stays in processing, and will panic again. -/
theorem not_creditKept_poison (hload : op ≠ .loadSubmission) (hround : op ≠ .loadRoundSubmission)
    (hp : w.db.poison payload = true) : ¬ CreditKept env op raw w := by
  have hrun := processPayload_poison (w := w.consuming raw)
    (show (env.failing op).fails .loadSubmission = false from decide_eq_false (Ne.symm hload))
    (decide_eq_false (Ne.symm hround)) hp
  rw [← processSubmissionData_of_some hraw] at hrun
  have hlisten := congrArg Prod.snd (listen_panic hrun)
  rw [creditKept_of_kept hlisten (copies_consuming raw w) ⟨rfl, rfl, rfl⟩ fun _ _ _ => Or.inr rfl,
    hraw]
  simp only [Option.some.injEq, forall_eq']
  show ¬ w.db.poison payload = false
  simp [hp]

/-- A message whose verdict is written is dropped; its points are kept when they were credited. -/
theorem creditKept_settled (hload : op ≠ .loadSubmission) (hv : op ≠ .updateVerdict)
    (hs : w.db.submissions.find? payload.submissionId = some s)
    (hsound : w.db.shortAuthor s payload.verdict = false ∨ op = .loadRoundSubmission) :
    CreditKept env op raw w ↔ ∀ d, w.db.due env payload = some d → ¬ Loses env w d op := by
  have hload' : (env.failing op).fails .loadSubmission = false := decide_eq_false (Ne.symm hload)
  have hv' : (env.failing op).fails .updateVerdict = false := decide_eq_false (Ne.symm hv)
  have hnot : ((earn (env.failing op) s payload.verdict).run (w.consuming raw)).1 ≠ .panic := by
    refine earn_ne_panic (hsound.symm.imp_left fun h => ?_)
    exact decide_eq_true h.symm
  obtain ⟨o, w', hrun, hcalm, hplain, hverdict, hegress⟩ :=
    processPayload_settles (w := w.consuming raw) hload' hs hnot hv'
  -- Whatever happened after the verdict, the message is acked.
  have hlisten : ((listenForSubmissionData (env.failing op)).run (w.delivering raw)).2 =
      w'.withEgress (w'.redis.egress.ack raw) := by
    rw [← processSubmissionData_of_some hraw] at hrun
    cases o with
    | ok u => rw [listen_ok hrun]
    | err e => rw [listen_plain (hplain e rfl) hrun]
    | panic => exact absurd rfl hcalm
  have hcredit : ∀ d, w.db.due env payload = some d →
      (Credited env.now d w w' ↔ ¬ Loses env w d op) := by
    intro d hd
    have h := credited_failing (w := w.consuming raw) hs hsound hd hload hv
    rw [hrun] at h
    exact h
  rw [creditKept_of_dropped hlisten hegress, hraw]
  simp only [Option.some.injEq, forall_eq']
  constructor
  · intro happlied d hd
    exact (hcredit d hd).mp (happlied.credited d hd)
  · intro hkeeps
    exact ⟨hverdict, fun d hd => (hcredit d hd).mpr (hkeeps d hd)⟩

end Readable

end Kept

/-- When one operation fails, the points of a message are kept exactly when the message is not
poisonous (or its author is not even looked up), and nothing is due that the failure loses. -/
theorem creditKept_iff (env : EgressEnv) (op : EgressOp) (rawSubmissionData : Payload)
    (w : World) :
    CreditKept env op rawSubmissionData w ↔
      ∀ payload, SubmissionEgressDTO.unmarshal rawSubmissionData = some payload →
        (w.db.poison payload = true → op = .loadRoundSubmission) ∧
        ∀ d, w.db.due env payload = some d → ¬ Loses env w d op := by
  cases hraw : SubmissionEgressDTO.unmarshal rawSubmissionData with
  | none => simp [creditKept_unreadable hraw]
  | some payload =>
    simp only [Option.some.injEq, forall_eq']
    -- Before the verdict is written, a failure puts the message back or panics.
    by_cases hload : op = .loadSubmission
    · subst hload
      rw [creditKept_unloaded hraw]
      simp [Loses]
    cases hs : w.db.submissions.find? payload.submissionId with
    | none =>
      have hdue : w.db.due env payload = none := by rw [DB.due, hs]
      have hpoison : w.db.poison payload = false := by rw [DB.poison, hs]
      refine iff_of_true (creditKept_missing hraw hload hs) ?_
      simp [hdue, hpoison]
    | some s =>
      have hpoison : w.db.poison payload = w.db.shortAuthor s payload.verdict := by
        rw [DB.poison, hs]
      by_cases hround : op = .loadRoundSubmission
      · rw [creditKept_settled hraw hload (by simp [hround]) hs (Or.inr hround)]
        simp [hround]
      cases hshort : w.db.shortAuthor s payload.verdict with
      | true =>
        refine iff_of_false (not_creditKept_poison hraw hload hround (hpoison.trans hshort)) ?_
        simp [hpoison, hshort, hround]
      | false =>
        by_cases hv : op = .updateVerdict
        · subst hv
          refine iff_of_true (creditKept_unwritten hraw hs hshort) ?_
          simp [hpoison, hshort, Loses]
        · rw [creditKept_settled hraw hload hv hs (Or.inl hshort)]
          simp [hpoison, hshort]

/-- When the global leaderboard cannot be written, the message is dropped without its points. -/
theorem saveLeaderboard_loses :
    ¬ CreditKept .quiet .saveLeaderboard acceptFirst.marshal
      (World.oneSubmission solver) := by
  intro h
  have happlied := h.1 (by decide +kernel) acceptFirst (by decide +kernel)
  have hcredit := (happlied.credited ⟨1, solver, 1, difficultyEasy, 3⟩
    (by decide +kernel)).2
  exact absurd (congrArg Leaderboard.totalScore hcredit) (by decide +kernel)

end Bsg.Central
