import Bsg.Central.Pipeline

/-!
# Points for a problem, once

What a user is paid for a problem along a legal run. The first accepted submission of the problem is
worth its points, every later one nothing (`Worth.unique`). When the message of the first is
processed, the points are paid unless another accepted submission is stored by then. So the user
gets the points exactly once when no accepted submission is stored while the one that is worth
something is on its way (`NoOverlap`), and not at all otherwise.

`paid_once` is proved with a potential: the points of the problem, once the submission that is worth
them is no longer on its way.
-/

namespace Bsg.Central

open Bsg.Foundations

section Notions

variable (db : DB) (authID : AuthID) (problemID : ℕ)

/-- The author of a submission that belongs to a round submission. -/
def DB.authorOfSubmission (s : Submission) : Option AuthID :=
  (db.ownerOf s).bind fun rs => db.participantAuthID rs.roundParticipantID

/-- The submission is by the user, for the problem. -/
def DB.By (s : Submission) : Prop :=
  s.problemID = problemID ∧ db.authorOfSubmission s = some authID

/-- The submission is accepted. -/
def DB.AcceptedBy (s : Submission) : Prop :=
  s.verdict = submissionStatusAccepted ∧ db.By authID problemID s

/-- The submission is accepted, and its round submission has points. -/
def DB.Worth (s : Submission) : Prop :=
  db.AcceptedBy authID problemID s ∧ ∃ rs ∈ db.ownerOf s, rs.score ≠ 0

instance (s : Submission) : Decidable (db.By authID problemID s) :=
  inferInstanceAs (Decidable (_ ∧ _))

instance (s : Submission) : Decidable (db.AcceptedBy authID problemID s) :=
  inferInstanceAs (Decidable (_ ∧ _))

instance (s : Submission) : Decidable (db.Worth authID problemID s) :=
  inferInstanceAs (Decidable (_ ∧ ∃ rs ∈ db.ownerOf s, rs.score ≠ 0))

/-- The points of the problem. -/
def DB.pointsOf : ℕ :=
  match db.problems.find? problemID with
  | some problem => (determineScoreForProblem problem).toNat
  | none => 0

/-- The user's total score. -/
def DB.totalScoreOf (user : User) : UInt64 := (standing db.leaderboards user.id).totalScore

end Notions

/-- What the user's total score grew by between two states. -/
def gained (authID : AuthID) (w w' : World) : ℕ :=
  match w'.db.userByAuthID authID with
  | some user => (w'.db.totalScoreOf user - w.db.totalScoreOf user).toNat
  | none => 0

/-- What an event adds to the user's total score for the problem: the growth when a message of his
for the problem is processed. -/
def paidFor (authID : AuthID) (problemID : ℕ) (w : World) : QueueEvent → ℕ
  | .process env =>
    match (w.redis.egress.queue.head?).bind w.answered with
    | some s =>
      if w.db.By authID problemID s then gained authID w (w.handle (.process env)) else 0
    | none => 0
  | _ => 0

/-- No accepted submission is stored while one that is worth points is on its way. -/
def NoOverlap (authID : AuthID) (problemID : ℕ) (w : World) : QueueEvent → Prop
  | .create c =>
    ∀ ctx ∈ ((checkSubmission c.env c.params c.author).run w).1.ok?,
      c.env.fails .createSubmission = false → c.params.verdict = submissionStatusAccepted →
        ctx.problem.id = problemID → c.author = authID →
          ∀ s ∈ w.inFlight, ¬ w.db.Worth authID problemID s
  | .forward => True
  | .process _ => True

instance (authID : AuthID) (problemID : ℕ) (w : World) :
    ∀ e, Decidable (NoOverlap authID problemID w e)
  | .create c => inferInstanceAs (Decidable (∀ ctx ∈
      ((checkSubmission c.env c.params c.author).run w).1.ok?,
        _ → _ → _ → _ → ∀ s ∈ w.inFlight, _))
  | .forward => inferInstanceAs (Decidable True)
  | .process _ => inferInstanceAs (Decidable True)

/-- Along the run, the user is paid the points of the problem exactly once when he has an accepted
submission of it at the end, and nothing otherwise. -/
def PaidOnce (authID : AuthID) (problemID : ℕ) (w : World) (es : List QueueEvent) : Prop :=
  total World.handle (paidFor authID problemID) w es =
    if ∃ s ∈ (run World.handle w es).db.submissions.rows,
        (run World.handle w es).db.AcceptedBy authID problemID s then
      (run World.handle w es).db.pointsOf problemID
    else 0

instance (authID : AuthID) (problemID : ℕ) (w : World) (es : List QueueEvent) :
    Decidable (PaidOnce authID problemID w es) := inferInstanceAs (Decidable (_ = _))

/-! ## The code's queries -/

section Queries

variable {w : World} {authID : AuthID} {problemID : ℕ} {s : Submission}

/-- The query of `DetermineScoreDeltaForUserBySubmission` finds the accepted submissions. -/
theorem acceptedBy_iff (db : DB) (authID : AuthID) (problemID : ℕ) :
    db.acceptedBy problemID authID = true ↔
      ∃ s ∈ db.submissions.rows, db.AcceptedBy authID problemID s := by
  rw [DB.acceptedBy, List.any_eq_true]
  refine exists_congr fun s => and_congr_right fun _ => ?_
  unfold DB.AcceptedBy DB.By DB.authorOfSubmission DB.ownerOf DB.participantAuthID
  by_cases htype : s.submissionOwnerType = ownerRoundSubmissions
  · cases hrs : db.roundSubmissions.find? s.submissionOwnerID with
    | none => simp [htype]
    | some rs =>
      cases hp : db.participants.find? rs.roundParticipantID <;>
        simp [htype, hp, and_assoc]
  · simp [htype]

/-- The query of `ProcessSubmissionData` finds the other accepted submissions, when all submissions
belong to round submissions. -/
theorem acceptedElsewhere_iff (hp : Pipeline w) (s : Submission) (user : User) :
    w.db.acceptedElsewhere s user = true ↔
      ∃ s' ∈ w.db.submissions.rows, s'.id ≠ s.id ∧
        w.db.AcceptedBy user.authID s.problemID s' := by
  have hrow : ∀ s' ∈ w.db.submissions.rows, (w.db.submittedBy s' user = true ↔
      w.db.authorOfSubmission s' = some user.authID) := by
    intro s' hs'
    obtain ⟨rs, ho, -⟩ := hp.owned s' hs'
    obtain ⟨htype, hrs⟩ := ownerOf_eq_some ho
    have hne : ownerRoundSubmissions ≠ ownerUser := by decide
    unfold DB.submittedBy DB.authorOfSubmission DB.participantAuthID
    rw [ho, hrs]
    cases hpart : w.db.participants.find? rs.roundParticipantID <;>
      simp [htype, hne, hpart]
  simp only [DB.acceptedElsewhere, List.any_eq_true, Bool.and_eq_true, decide_eq_true_eq,
    DB.AcceptedBy, DB.By]
  constructor
  · rintro ⟨s', hs', ⟨hproblem, hverdict, hid⟩, hby⟩
    exact ⟨s', hs', hid, hverdict, hproblem, (hrow s' hs').mp hby⟩
  · rintro ⟨s', hs', hid, hverdict, hproblem, hby⟩
    exact ⟨s', hs', ⟨hproblem, hverdict, hid⟩, (hrow s' hs').mpr hby⟩

/-- The author of a submission is whom its round submission gives. -/
theorem authorOf_of_authorOfSubmission {db : DB} {rs : RoundSubmission}
    (ho : db.ownerOf s = some rs) (ha : db.authorOfSubmission s = some authID) :
    db.authorOf rs = authID := by
  unfold DB.authorOfSubmission at ha
  rw [ho, Option.bind_some] at ha
  rw [DB.authorOf_eq, ha]
  rfl

end Queries

/-! ## What the submissions of a problem are worth -/

/-- What holds of the accepted submissions of a user for a problem in every legal run. The last part
needs that no accepted submission was stored while the one with points was on its way. -/
structure Worths (authID : AuthID) (problemID : ℕ) (w : World) : Prop where
  /-- One submission at most is worth points. -/
  unique : ∀ s ∈ w.db.submissions.rows, ∀ s' ∈ w.db.submissions.rows,
    w.db.Worth authID problemID s → w.db.Worth authID problemID s' → s = s'
  /-- If any is accepted, one is worth points. -/
  exists_worth : ∀ s ∈ w.db.submissions.rows, w.db.AcceptedBy authID problemID s →
    ∃ s' ∈ w.db.submissions.rows, w.db.Worth authID problemID s'
  /-- It is worth the points of the problem. -/
  score : ∀ s ∈ w.db.submissions.rows, w.db.Worth authID problemID s →
    ∀ rs ∈ w.db.ownerOf s, rs.score.toNat = w.db.pointsOf problemID
  /-- As long as it is on its way, it is the only accepted one. -/
  alone : ∀ s ∈ w.inFlight, w.db.Worth authID problemID s →
    ∀ s' ∈ w.db.submissions.rows, w.db.AcceptedBy authID problemID s' → s' = s

/-- The points of the problem, once the submission that is worth them is no longer on its way. -/
def settled (authID : AuthID) (problemID : ℕ) (w : World) : ℕ :=
  if ∃ s ∈ w.db.submissions.rows, w.db.Worth authID problemID s ∧ s ∉ w.inFlight then
    w.db.pointsOf problemID
  else 0

section Steps

variable {authID : AuthID} {problemID : ℕ} {w w' : World} {c : Creation}
  {ctx : SubmissionContext} {env : EgressEnv} {s : Submission}

/-- Storing a submission changes nothing about those that were there. -/
theorem Stores.authorOfSubmission (h : Stores c ctx w w') (hp : Pipeline w)
    (hs : s ∈ w.db.submissions.rows) :
    w'.db.authorOfSubmission s = w.db.authorOfSubmission s := by
  obtain ⟨rs, ho, -⟩ := hp.owned s hs
  unfold DB.authorOfSubmission
  rw [ho, h.ownerOf ho]
  exact h.participants _

/-- A new submission does not change which of the old ones are accepted. -/
theorem Stores.acceptedBy (h : Stores c ctx w w') (hp : Pipeline w)
    (hs : s ∈ w.db.submissions.rows) :
    w'.db.AcceptedBy authID problemID s ↔ w.db.AcceptedBy authID problemID s := by
  unfold DB.AcceptedBy DB.By
  rw [h.authorOfSubmission hp hs]

/-- Nor which of them have points. -/
theorem Stores.worth (h : Stores c ctx w w') (hp : Pipeline w)
    (hs : s ∈ w.db.submissions.rows) :
    w'.db.Worth authID problemID s ↔ w.db.Worth authID problemID s := by
  obtain ⟨rs, ho, -⟩ := hp.owned s hs
  unfold DB.Worth
  rw [h.acceptedBy hp hs, ho, h.ownerOf ho]

/-- The new submission is accepted when it was sent so, by the user, for the problem. -/
theorem Stores.acceptedBy_new (h : Stores c ctx w w') :
    w'.db.AcceptedBy authID problemID (recordedSubmission c.env c.params ctx w) ↔
      c.params.verdict = submissionStatusAccepted ∧ ctx.problem.id = problemID ∧
        c.author = authID := by
  have hauthor : w'.db.authorOfSubmission (recordedSubmission c.env c.params ctx w) =
      some c.author := by
    unfold DB.authorOfSubmission
    rw [h.ownerOf_new, Option.bind_some, h.participants]
    exact h.checked.participant
  unfold DB.AcceptedBy DB.By
  rw [hauthor, Option.some.injEq]
  exact Iff.rfl

/-- The new submission is worth points when it is accepted and the first of its kind. -/
theorem Stores.worth_new (h : Stores c ctx w w') :
    w'.db.Worth authID problemID (recordedSubmission c.env c.params ctx w) ↔
      w'.db.AcceptedBy authID problemID (recordedSubmission c.env c.params ctx w) ∧
        ∀ s ∈ w.db.submissions.rows, ¬ w.db.AcceptedBy authID problemID s := by
  have hscore : (recordedRoundSubmission c.env ctx w).score =
      if w.db.acceptedBy ctx.problem.id c.author then 0
      else determineScoreForProblem ctx.problem := h.checked.problemScore
  unfold DB.Worth
  refine and_congr_right fun haccepted => ?_
  obtain ⟨-, rfl, rfl⟩ := h.acceptedBy_new.mp haccepted
  rw [h.ownerOf_new]
  have hzero : (recordedRoundSubmission c.env ctx w).score ≠ 0 ↔
      ¬ w.db.acceptedBy ctx.problem.id c.author = true := by
    rw [hscore]
    split_ifs with ha
    · simp [ha]
    · simp [ha, determineScoreForProblem_ne_zero]
  simp only [Option.mem_def, Option.some.injEq, exists_eq_left', hzero, acceptedBy_iff,
    not_exists, not_and]

/-- Nor what a problem is worth. -/
theorem Stores.pointsOf (h : Stores c ctx w w') (problemID : ℕ) :
    w'.db.pointsOf problemID = w.db.pointsOf problemID := by
  unfold DB.pointsOf
  rw [h.db]
  rfl

/-- A new submission that is worth points is worth the points of its problem. -/
theorem Stores.score_new (h : Stores c ctx w w')
    (hworth : w'.db.Worth authID ctx.problem.id (recordedSubmission c.env c.params ctx w))
    (rs : RoundSubmission)
    (hrs : rs ∈ w'.db.ownerOf (recordedSubmission c.env c.params ctx w)) :
    rs.score.toNat = w.db.pointsOf ctx.problem.id := by
  have hscore : (recordedRoundSubmission c.env ctx w).score =
      if w.db.acceptedBy ctx.problem.id c.author then 0
      else determineScoreForProblem ctx.problem := h.checked.problemScore
  obtain ⟨hproblem, hid⟩ := Table.find?_eq_some.mp h.checked.problem
  rw [h.ownerOf_new, Option.mem_def, Option.some.injEq] at hrs
  obtain ⟨haccepted, rs', hrs', hne⟩ := hworth
  rw [h.ownerOf_new, Option.mem_def, Option.some.injEq] at hrs'
  subst hrs hrs'
  have hfind : w.db.problems.find? ctx.problem.id = some ctx.problem := Table.find?_id hproblem
  rw [DB.pointsOf, hfind]
  rw [hscore] at hne ⊢
  split_ifs at hne ⊢ with ha
  · exact absurd rfl hne
  · rfl

/-- What the submissions are worth, after one more was stored. -/
theorem Stores.worths (h : Stores c ctx w w') (hp : Pipeline w)
    (hw : Worths authID problemID w)
    (hno : c.params.verdict = submissionStatusAccepted → ctx.problem.id = problemID →
      c.author = authID → ∀ s ∈ w.inFlight, ¬ w.db.Worth authID problemID s) :
    Worths authID problemID w' := by
  have hrows : ∀ s, s ∈ w'.db.submissions.rows ↔ s ∈ w.db.submissions.rows ∨
      s = recordedSubmission c.env c.params ctx w := by
    intro s
    rw [h.rows, List.mem_append, List.mem_singleton]
  -- the new submission is not worth points when an old one is
  have hfirst : ∀ s ∈ w.db.submissions.rows, w.db.Worth authID problemID s →
      ¬ w'.db.Worth authID problemID (recordedSubmission c.env c.params ctx w) := by
    intro s hs hworth hnew
    exact (h.worth_new.mp hnew).2 s hs hworth.1
  refine ⟨fun s hs s' hs' hworth hworth' => ?_, fun s hs haccepted => ?_,
    fun s hs hworth rs hrs => ?_, fun s hs hworth s' hs' haccepted => ?_⟩
  · rcases (hrows s).mp hs with hs | rfl <;> rcases (hrows s').mp hs' with hs' | rfl
    · exact hw.unique s hs s' hs' ((h.worth hp hs).mp hworth) ((h.worth hp hs').mp hworth')
    · exact absurd hworth' (hfirst s hs ((h.worth hp hs).mp hworth))
    · exact absurd hworth (hfirst s' hs' ((h.worth hp hs').mp hworth'))
    · rfl
  · rcases (hrows s).mp hs with hs | rfl
    · obtain ⟨s', hs', hworth⟩ := hw.exists_worth s hs ((h.acceptedBy hp hs).mp haccepted)
      exact ⟨s', h.mem_old hs', (h.worth hp hs').mpr hworth⟩
    · by_cases hold : ∃ s ∈ w.db.submissions.rows, w.db.AcceptedBy authID problemID s
      · obtain ⟨s, hs, hacc⟩ := hold
        obtain ⟨s', hs', hworth⟩ := hw.exists_worth s hs hacc
        exact ⟨s', h.mem_old hs', (h.worth hp hs').mpr hworth⟩
      · exact ⟨_, h.mem_new, h.worth_new.mpr ⟨haccepted, fun s hs hacc => hold ⟨s, hs, hacc⟩⟩⟩
  · rw [h.pointsOf]
    rcases (hrows s).mp hs with hs | rfl
    · obtain ⟨rs', ho, -⟩ := hp.owned s hs
      rw [h.ownerOf ho] at hrs
      exact hw.score s hs ((h.worth hp hs).mp hworth) rs (by rw [ho]; exact hrs)
    · obtain ⟨-, rfl, -⟩ := h.acceptedBy_new.mp hworth.1
      exact h.score_new hworth rs hrs
  · have hflight : s = recordedSubmission c.env c.params ctx w ∨ s ∈ w.inFlight := by
      have := (h.inFlight hp).mem_iff.mp hs
      rwa [List.mem_cons] at this
    rcases hflight with rfl | hflight
    · rcases (hrows s').mp hs' with hs' | rfl
      · exact absurd ((h.acceptedBy hp hs').mp haccepted) ((h.worth_new.mp hworth).2 s' hs')
      · rfl
    · have hold := (h.worth hp (mem_of_inFlight hflight)).mp hworth
      rcases (hrows s').mp hs' with hs' | rfl
      · exact hw.alone s hflight hold s' hs' ((h.acceptedBy hp hs').mp haccepted)
      · obtain ⟨hverdict, hproblem, hauthor⟩ := h.acceptedBy_new.mp haccepted
        exact absurd hold (hno hverdict hproblem hauthor s hflight)

/-- Storing a submission settles nothing. -/
theorem Stores.settled_eq (h : Stores c ctx w w') (hp : Pipeline w) :
    settled authID problemID w' = settled authID problemID w := by
  have hiff : (∃ s ∈ w'.db.submissions.rows, w'.db.Worth authID problemID s ∧ s ∉ w'.inFlight) ↔
      ∃ s ∈ w.db.submissions.rows, w.db.Worth authID problemID s ∧ s ∉ w.inFlight := by
    constructor
    · rintro ⟨s, hs, hworth, hflight⟩
      rw [(h.inFlight hp).mem_iff, List.mem_cons, not_or] at hflight
      rw [h.rows, List.mem_append, List.mem_singleton] at hs
      have hs := hs.resolve_right hflight.1
      exact ⟨s, hs, (h.worth hp hs).mp hworth, hflight.2⟩
    · rintro ⟨s, hs, hworth, hflight⟩
      refine ⟨s, h.mem_old hs, (h.worth hp hs).mpr hworth, ?_⟩
      rw [(h.inFlight hp).mem_iff, List.mem_cons, not_or]
      refine ⟨?_, hflight⟩
      rintro rfl
      exact not_mem_recordedSubmission _ _ _ _ hs
  unfold settled
  rw [h.pointsOf]
  exact if_congr hiff rfl rfl

/-- The worker changes nothing about what submissions are worth. -/
theorem db_forward (hp : Pipeline w) : w.forward.db = w.db := by
  cases hq : w.redis.ingress.queue with
  | nil => rw [forward_of_nil hq]
  | cons message rest =>
    obtain ⟨s, -, -, ha⟩ := hp.ingress message (by simp [hq])
    exact (forward_of_cons hq ha).1

/-- The worker's round leaves what submissions are worth. -/
theorem worths_forward (hp : Pipeline w) (hw : Worths authID problemID w) :
    Worths authID problemID w.forward := by
  have hdb := db_forward hp
  constructor
  · rw [hdb]
    exact hw.unique
  · rw [hdb]
    exact hw.exists_worth
  · rw [hdb]
    exact hw.score
  · rw [hdb]
    exact fun s hs => hw.alone s ((inFlight_forward hp).mem_iff.mp hs)

/-- The worker's round settles nothing. -/
theorem settled_forward (hp : Pipeline w) :
    settled authID problemID w.forward = settled authID problemID w := by
  unfold settled
  rw [db_forward hp]
  simp only [(inFlight_forward hp).mem_iff]

/-! ### Processing -/

/-- Settling a submission leaves the owners. -/
theorem Settles.ownerOf (h : Settles env s w w') (r : Submission) :
    w'.db.ownerOf r = w.db.ownerOf r := by
  unfold DB.ownerOf
  rw [h.judged.roundSubmissions]

/-- It leaves whose submission is of what problem. -/
theorem Settles.by_iff (h : Settles env s w w') (r : Submission) :
    w'.db.By authID problemID r ↔ w.db.By authID problemID r := by
  unfold DB.By DB.authorOfSubmission DB.participantAuthID
  rw [h.ownerOf, h.judged.participants]

/-- It leaves which submissions are accepted. -/
theorem Settles.acceptedBy (h : Settles env s w w') (r : Submission) :
    w'.db.AcceptedBy authID problemID r ↔ w.db.AcceptedBy authID problemID r := by
  unfold DB.AcceptedBy
  rw [h.by_iff]

/-- It leaves which of them have points. -/
theorem Settles.worth (h : Settles env s w w') (r : Submission) :
    w'.db.Worth authID problemID r ↔ w.db.Worth authID problemID r := by
  unfold DB.Worth
  rw [h.acceptedBy, h.ownerOf]

/-- It leaves what a problem is worth. -/
theorem Settles.pointsOf (h : Settles env s w w') (problemID : ℕ) :
    w'.db.pointsOf problemID = w.db.pointsOf problemID := by
  unfold DB.pointsOf
  rw [h.judged.problems]

/-- Processing changes nothing about what submissions are worth. -/
theorem Settles.worths (h : Settles env s w w') (hw : Worths authID problemID w) :
    Worths authID problemID w' := by
  constructor
  · simp only [h.submissions, h.worth]
    exact hw.unique
  · simp only [h.submissions, h.acceptedBy, h.worth]
    exact hw.exists_worth
  · simp only [h.submissions, h.worth, h.ownerOf, h.pointsOf]
    exact hw.score
  · simp only [h.submissions, h.acceptedBy, h.worth]
    exact fun r hr => hw.alone r (h.inFlight.mem_iff.mpr (List.mem_cons_of_mem _ hr))

/-- The user that is found or made for an auth id has it. -/
theorem DB.authID_userFor (db : DB) (env : EgressEnv) {authID : AuthID} (h : authID ≠ []) :
    (db.userFor env authID).authID = authID := by
  unfold DB.userFor
  cases hu : db.userByAuthID authID with
  | none => rfl
  | some user => exact (of_decide_eq_true (Table.first?_mem hu).2).resolve_left h

/-- A message is owed points exactly when its submission is worth them, as long as it is the only
accepted one. -/
theorem owed_iff_worth (hp : Pipeline w) (hw : Worths authID problemID w)
    (hs : s ∈ w.db.submissions.rows) (hflight : s ∈ w.inFlight)
    (hby : w.db.By authID problemID s) :
    w.db.Owed env (verdictPayload s) ↔ w.db.Worth authID problemID s := by
  obtain ⟨rs, ho, h8⟩ := hp.owned s hs
  have hauthor := authorOf_of_authorOfSubmission ho hby.2
  have hne : authID ≠ [] := by
    rintro rfl
    rw [hauthor] at h8
    simp at h8
  have hfind : w.db.submissions.find? (verdictPayload s).submissionId = some s := Table.find?_id hs
  constructor
  · rintro ⟨s', rs', hfind', ho', ha, h0, -⟩
    obtain rfl := Option.some.inj (hfind.symm.trans hfind')
    exact ⟨⟨ha, hby⟩, rs', ho', h0⟩
  · rintro ⟨hacc, rs', hrs', h0⟩
    refine ⟨s, rs', hfind, hrs', hacc.1, h0, ?_⟩
    obtain rfl := Option.some.inj (ho.symm.trans hrs')
    rw [hauthor, Bool.eq_false_iff, Ne, acceptedElsewhere_iff hp]
    rintro ⟨s', hs', hid, hacc'⟩
    rw [w.db.authID_userFor env hne, hby.1] at hacc'
    exact hid (by rw [hw.alone s hflight ⟨hacc, rs, ho, h0⟩ s' hs' hacc'])

/-- What the user gains when the message of a submission of his is processed: the points that it is
worth. -/
theorem Settles.gained_eq (h : Settles env s w w') (hp : Pipeline w)
    (hw : Worths authID problemID w) (hby : w.db.By authID problemID s) :
    gained authID w w' =
      if w.db.Worth authID problemID s then w.db.pointsOf problemID else 0 := by
  have hs := h.stored
  have hflight : s ∈ w.inFlight := h.inFlight.mem_iff.mpr List.mem_cons_self
  -- What is owed for the message is what the submission is worth.
  have howed : w.db.Owed env (verdictPayload s) ↔ w.db.Worth authID problemID s :=
    owed_iff_worth hp hw hs hflight hby
  have hfind : w.db.submissions.find? (verdictPayload s).submissionId = some s := Table.find?_id hs
  cases hd : w.db.due env (verdictPayload s) with
  | none =>
    have hnot : ¬ w.db.Worth authID problemID s := by
      rw [← howed, ← DB.due_isSome, hd]
      simp
    have hstand : ∀ user, w'.db.totalScoreOf user = w.db.totalScoreOf user := by
      intro user
      rw [DB.totalScoreOf, DB.totalScoreOf, h.unpaid hd]
    rw [if_neg hnot]
    unfold gained
    split
    · rw [hstand, UInt64.sub_self]
      rfl
    · rfl
  | some d =>
    have hworth : w.db.Worth authID problemID s := by
      rw [← howed, ← DB.due_isSome, hd]
      rfl
    obtain ⟨ha, rs, ho, -, -, hdue, -⟩ := due_eq_some hfind hd
    have hauthor := authorOf_of_authorOfSubmission ho hby.2
    rw [hauthor] at hdue
    -- The user exists by now, and the points went to his row.
    have huser : w'.db.userByAuthID authID = some (w.db.userFor env authID) := by
      have husers : w'.db.users = (w.db.withUserFor env authID).users := by
        rw [h.judged.users s hfind, DB.afterEarning, if_pos ha]
        simp only [ho, hauthor]
      rw [← w.db.userByAuthID_withUserFor env authID]
      unfold DB.userByAuthID
      rw [husers]
    have hpaid : standing w'.db.leaderboards (w.db.userFor env authID).id =
        (standing w.db.leaderboards (w.db.userFor env authID).id).credit d.difficulty rs.score := by
      have := h.paid d hd
      rw [hdue] at this ⊢
      exact this
    have hpoints : w'.db.totalScoreOf (w.db.userFor env authID) -
        w.db.totalScoreOf (w.db.userFor env authID) = rs.score := by
      rw [DB.totalScoreOf, DB.totalScoreOf, hpaid]
      show _ + rs.score - _ = rs.score
      rw [UInt64.add_comm, UInt64.add_sub_cancel]
    rw [if_pos hworth, gained, huser]
    show (_ - _ : UInt64).toNat = _
    rw [hpoints]
    exact hw.score s hs hworth rs ho

/-- Processing settles what the user is paid for the problem. -/
theorem Settles.settled_eq (h : Settles env s w w') (hp : Pipeline w)
    (hw : Worths authID problemID w) :
    settled authID problemID w' = settled authID problemID w +
      if w.db.By authID problemID s then gained authID w w' else 0 := by
  have hflight : ∀ r, r ∈ w.inFlight ↔ r = s ∨ r ∈ w'.inFlight := fun r => by
    rw [h.inFlight.mem_iff, List.mem_cons]
  -- The message is not on its way any more.
  have hgone : s ∉ w'.inFlight := (List.nodup_cons.mp (h.inFlight.nodup_iff.mp hp.nodup)).1
  by_cases hworth : w.db.Worth authID problemID s
  · -- The one submission that is worth something is settled now, and was not before.
    have hbefore : ¬ ∃ r ∈ w.db.submissions.rows,
        w.db.Worth authID problemID r ∧ r ∉ w.inFlight := by
      rintro ⟨r, hr, hr', hout⟩
      rw [hw.unique r hr s h.stored hr' hworth] at hout
      exact hout ((hflight s).mpr (Or.inl rfl))
    have hafter : ∃ r ∈ w'.db.submissions.rows,
        w'.db.Worth authID problemID r ∧ r ∉ w'.inFlight := by
      refine ⟨s, ?_, (h.worth s).mpr hworth, hgone⟩
      rw [h.submissions]
      exact h.stored
    rw [settled, if_pos hafter, settled, if_neg hbefore, if_pos hworth.1.2,
      h.gained_eq hp hw hworth.1.2, if_pos hworth, h.pointsOf, Nat.zero_add]
  · -- A submission that is worth nothing settles nothing.
    have hnothing : (if w.db.By authID problemID s then gained authID w w' else 0) = 0 := by
      split_ifs with hby
      · rw [h.gained_eq hp hw hby, if_neg hworth]
      · rfl
    have hiff : (∃ r ∈ w'.db.submissions.rows, w'.db.Worth authID problemID r ∧ r ∉ w'.inFlight) ↔
        ∃ r ∈ w.db.submissions.rows, w.db.Worth authID problemID r ∧ r ∉ w.inFlight := by
      rw [h.submissions]
      refine exists_congr fun r => and_congr_right fun _ => ?_
      rw [h.worth]
      refine and_congr_right fun hr => ?_
      rw [hflight, or_iff_right]
      rintro rfl
      exact hworth hr
    rw [hnothing, Nat.add_zero, settled, settled, h.pointsOf]
    exact if_congr hiff rfl rfl

end Steps

/-! ## Runs -/

section Runs

variable {authID : AuthID} {problemID : ℕ} {w : World}

/-- What every event of a run keeps. -/
theorem worths_handle {e : QueueEvent} (hp : Pipeline w) (hw : Worths authID problemID w)
    (hlegal : Legal w e) (hno : NoOverlap authID problemID w e) :
    Worths authID problemID (w.handle e) := by
  cases e with
  | create c =>
    rcases create_cases hlegal with hsame | ⟨ctx, hstores⟩
    · rwa [hsame]
    · exact hstores.worths hp hw (hno ctx hstores.checks hstores.stored)
  | forward => exact worths_forward hp hw
  | process env =>
    rcases process_cases hp env with ⟨-, hsame⟩ | ⟨s, hsettles⟩
    · rwa [hsame]
    · exact hsettles.worths hw

/-- What is settled grows by what the user is paid. -/
theorem settled_handle {e : QueueEvent} (hp : Pipeline w) (hw : Worths authID problemID w)
    (hlegal : Legal w e) : settled authID problemID (w.handle e) =
      settled authID problemID w + paidFor authID problemID w e := by
  cases e with
  | create c =>
    rcases create_cases hlegal with hsame | ⟨ctx, hstores⟩
    · rw [hsame]
      rfl
    · exact hstores.settled_eq hp
  | forward => exact settled_forward hp
  | process env =>
    rcases process_cases hp env with ⟨hq, hsame⟩ | ⟨s, hsettles⟩
    · rw [hsame, paidFor, hq]
      rfl
    · rw [hsettles.settled_eq hp hw, paidFor, hsettles.next]

/-- Nothing is stored and nothing is on its way. -/
structure Fresh (w : World) : Prop where
  submissions : w.db.submissions.rows = []
  drained : w.Drained

/-- Before the first submission the pipeline is in order. -/
theorem Fresh.pipeline (h : Fresh w) : Pipeline w := by
  refine ⟨?_, ?_, ?_, ?_⟩
  · simp [h.drained.1]
  · simp [h.drained.2]
  · rw [h.drained.inFlight]
    exact List.nodup_nil
  · simp [h.submissions]

/-- Before the first submission nothing is worth anything. -/
theorem Fresh.worths (h : Fresh w) : Worths authID problemID w := by
  constructor <;> simp [h.submissions, h.drained.inFlight]

/-- Before the first submission nothing is settled. -/
theorem Fresh.settled_eq (h : Fresh w) : settled authID problemID w = 0 := by
  simp [settled, h.submissions]

/-- Once the queues are drained, a user has been paid the points of a problem exactly once when he
has an accepted submission of it, and nothing otherwise, if no accepted submission of his was stored
while the one that is worth points was on its way. -/
theorem paid_once (authID : AuthID) (problemID : ℕ) (w : World) (es : List QueueEvent)
    (hfresh : Fresh w) (hlegal : Along World.handle Legal w es)
    (hno : Along World.handle (NoOverlap authID problemID) w es)
    (hdrained : (run World.handle w es).Drained) : PaidOnce authID problemID w es := by
  have keep : ∀ w e, (Pipeline w ∧ Worths authID problemID w) →
      (Legal w e ∧ NoOverlap authID problemID w e) →
      Pipeline (w.handle e) ∧ Worths authID problemID (w.handle e) :=
    fun w e h he => ⟨h.1.handle he.1, worths_handle h.1 h.2 he.1 he.2⟩
  have hstart : Pipeline w ∧ Worths authID problemID w := ⟨hfresh.pipeline, hfresh.worths⟩
  have halong := Along.and hlegal hno
  have hend := (invariant_along keep hstart halong).last
  have htotal := total_eq keep (fun w e h he => settled_handle h.1 h.2 he.1) hstart halong
  rw [hfresh.settled_eq, Nat.zero_add] at htotal
  rw [PaidOnce, ← htotal, settled, hdrained.inFlight]
  -- the submission that is worth points stands for all accepted ones
  refine if_congr ⟨?_, ?_⟩ rfl rfl
  · rintro ⟨s, hs, hworth, -⟩
    exact ⟨s, hs, hworth.1⟩
  · rintro ⟨s, hs, haccepted⟩
    obtain ⟨s', hs', hworth⟩ := hend.2.exists_worth s hs haccepted
    exact ⟨s', hs', hworth, List.not_mem_nil⟩

/-- Two accepted submissions of the same problem, each taken in, answered and processed. -/
def acceptedInTurn : List QueueEvent :=
  [.create (.accepted 1 1), .forward, .process .quiet, .create (.accepted 2 2), .forward,
    .process .quiet]

/-- Two accepted submissions of one problem, one after the other. -/
theorem paid_once_inTurn : PaidOnce solver 1 (.oneRound solver) acceptedInTurn :=
  paid_once solver 1 (.oneRound solver) acceptedInTurn ⟨rfl, rfl, rfl⟩ (by decide +kernel)
    (by decide +kernel) (by decide +kernel)

/-- Two accepted submissions of the same problem, both taken in before the first is processed. -/
def acceptedTwice : List QueueEvent :=
  [.create (.accepted 1 1), .create (.accepted 2 2), .forward, .forward, .process .quiet,
    .process .quiet]

/-- Of two accepted submissions that are on their way together, neither is paid: each is taken for a
repeat of the other. -/
theorem not_paid_overlapping :
    Fresh (.oneRound solver) ∧ Along World.handle Legal (.oneRound solver) acceptedTwice ∧
      (run World.handle (.oneRound solver) acceptedTwice).Drained ∧
      total World.handle (paidFor solver 1) (.oneRound solver) acceptedTwice = 0 ∧
      ¬ PaidOnce solver 1 (.oneRound solver) acceptedTwice := by
  refine ⟨⟨rfl, rfl, rfl⟩, ?_⟩
  decide +kernel

end Runs

end Bsg.Central
