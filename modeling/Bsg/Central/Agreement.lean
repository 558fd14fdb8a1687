import Bsg.Central.Counting
import Bsg.Central.Pipeline
import Bsg.Central.Populated

/-!
# The leaderboard and the details of a round

`GetLeaderboard` and `GetRoundDetails` agree as long as the counter of each participant follows the
submissions that count for him. Three kinds of events end that: a submission that solves a problem
of the round and is not counted (`Follows`), a verdict that is written later, which is never counted
(`Regrades`), and a join while the round is running, which gives the user a row but no entry on the
leaderboard. `agrees_iff_along` says that there is no other way.
-/

namespace Bsg.Central

open Bsg.Foundations

/-! ## A verdict that is written -/

/-- The listener writes the verdict of its next message to the submission. -/
def Writes (env : EgressEnv) (w : World) (s : Submission) (verdict : String) : Prop :=
  env.fails .loadSubmission = false ∧ env.fails .updateVerdict = false ∧
    ∃ raw payload, w.redis.egress.queue.head? = some raw ∧ ¬ Poisonous env w raw ∧
      SubmissionEgressDTO.unmarshal raw = some payload ∧ payload.verdict = verdict ∧
      w.db.submissions.find? payload.submissionId = some s

/-- The rounds and the participants stay, with the round submissions, and nobody is taken off a
leaderboard. -/
structure KeepsRounds (w w' : World) : Prop where
  participants : w'.db.participants = w.db.participants
  roundSubmissions : w'.db.roundSubmissions = w.db.roundSubmissions
  rounds : w'.db.rounds = w.db.rounds
  mostRecentRound : w'.redis.mostRecentRound = w.redis.mostRecentRound
  listed : KeepsListed w w'

/-- New users and credits leave the rounds. -/
theorem absorbs_keepsRounds : Absorbs KeepsRounds where
  refl w := ⟨rfl, rfl, rfl, rfl, .refl w⟩
  trans w₁ w₂ w₃ h h' := ⟨h'.participants.trans h.participants,
    h'.roundSubmissions.trans h.roundSubmissions, h'.rounds.trans h.rounds,
    h'.mostRecentRound.trans h.mostRecentRound, .trans w₁ w₂ w₃ h.listed h'.listed⟩
  users w _ := ⟨rfl, rfl, rfl, rfl, .refl w⟩
  leaderboards w _ := ⟨rfl, rfl, rfl, rfl, .refl w⟩
  credit w _ _ _ := ⟨rfl, rfl, rfl, rfl, fun _ _ h =>
    contains_update_add w.redis.leaderboard _ _ _ h⟩

section Listen

variable {env : EgressEnv} {w : World}

/-- Processing a message leaves the rounds, wherever it stops. -/
theorem keepsRounds_processSubmissionData (env : EgressEnv) (raw : Payload) :
    Call.Within KeepsRounds (processSubmissionData env raw) := by
  have hR := absorbs_keepsRounds
  have hkeeps : ∀ {α : Type} {x : Service α}, Call.Keeps id x → Call.Within KeepsRounds x := by
    intro α x hx w
    have hsame : (x.run w).2 = w := hx w
    rw [hsame]
    exact hR.refl w
  unfold processSubmissionData
  cases SubmissionEgressDTO.unmarshal raw with
  | none => exact Call.Within.fail hR.refl _
  | some payload =>
    refine Call.Within.bind hR.trans ?_ fun s => Call.Within.bind hR.trans
      (Call.Within.read hR.refl _) fun difficulty => Call.Within.bind hR.trans
        (hR.earn env s payload.verdict) fun earned => Call.Within.bind hR.trans ?_ fun _ =>
          Call.Within.ite _ (Call.Within.bind hR.trans (hR.addToRoundLeaderboard env s _) fun _ =>
            hR.addToLeaderboard env _ _ _) (Call.Within.pure hR.refl _)
    · refine hkeeps (Call.Keeps.ite _ (Call.Keeps.fail _) (Call.Keeps.bind (Call.Keeps.read _)
        fun found => ?_))
      cases found with
      | none => exact Call.Keeps.fail _
      | some s => exact Call.Keeps.pure _
    · exact Call.Within.io hR.refl _ _ (Call.Within.write fun w => ⟨rfl, rfl, rfl, rfl, .refl w⟩)

/-- What the listener does with a message after it was processed concerns the queue alone. -/
theorem handleSubmissionData_state (env : EgressEnv) (raw : Payload) (w : World) :
    ∃ q, ((handleSubmissionData env raw).run w).2 =
      ((processSubmissionData env raw).run w).2.withEgress q := by
  unfold handleSubmissionData
  rcases hrun : (processSubmissionData env raw).run w with ⟨_ | e | _, w'⟩
  · rw [Call.attempt_ok hrun]
    exact ⟨_, rfl⟩
  · rw [Call.attempt_err hrun]
    dsimp only
    split <;> exact ⟨_, rfl⟩
  · rw [Call.attempt_panic hrun]
    exact ⟨w'.redis.egress, rfl⟩

/-- Processing a message writes the verdict of its submission, and leaves the submissions alone when
the message cannot be read, loaded or written, or crashes it. -/
theorem processSubmissionData_submissions (env : EgressEnv) (raw : Payload) (w : World) :
    (∃ payload s, SubmissionEgressDTO.unmarshal raw = some payload ∧
      w.db.submissions.find? payload.submissionId = some s ∧ env.fails .loadSubmission = false ∧
      env.fails .updateVerdict = false ∧ ¬ Poisonous env w raw ∧
      ((processSubmissionData env raw).run w).2.db.submissions =
        setVerdict w.db.submissions s.id payload.verdict) ∨
    (((processSubmissionData env raw).run w).2.db.submissions = w.db.submissions ∧
      ∀ payload s, SubmissionEgressDTO.unmarshal raw = some payload →
        w.db.submissions.find? payload.submissionId = some s → env.fails .loadSubmission = false →
        env.fails .updateVerdict = false → Poisonous env w raw) := by
  cases hraw : SubmissionEgressDTO.unmarshal raw with
  | none =>
    unfold processSubmissionData
    rw [hraw]
    exact Or.inr ⟨rfl, by simp⟩
  | some payload =>
  rw [processSubmissionData_of_some hraw]
  by_cases hload : env.fails .loadSubmission = true
  · rw [processPayload_unloaded hload]
    exact Or.inr ⟨rfl, by simp [hload]⟩
  rw [Bool.not_eq_true] at hload
  cases hs : w.db.submissions.find? payload.submissionId with
  | none =>
    rw [processPayload_missing hload hs]
    refine Or.inr ⟨rfl, ?_⟩
    rintro _ s ⟨⟩ hfind
    rw [hs] at hfind
    cases hfind
  | some s =>
  have hid : s.id = payload.submissionId := (Table.find?_eq_some.mp hs).2
  -- The panic comes before the verdict is written, so the row keeps its old one.
  by_cases hpoison : Poisonous env w raw
  · have hpanic := (processSubmissionData_panics env raw w).mpr hpoison
    obtain ⟨-, hround, payload', hraw', hshort⟩ := hpoison
    obtain rfl := Option.some.inj (hraw.symm.trans hraw')
    rw [processPayload_poison hload hround hshort]
    exact Or.inr ⟨rfl, fun _ _ _ _ _ _ => ⟨hload, hround, payload, hraw, hshort⟩⟩
  have hsound : ((earn env s payload.verdict).run w).1 ≠ .panic := by
    refine earn_ne_panic ?_
    by_contra hnot
    simp only [not_or, Bool.not_eq_true, Bool.not_eq_false] at hnot
    refine hpoison ⟨hload, hnot.1, payload, hraw, ?_⟩
    unfold DB.poison
    rw [hs]
    exact hnot.2
  cases hupdate : env.fails .updateVerdict with
  -- The points were worked out already, but that touches no submission.
  | true =>
    obtain ⟨earned, w₁, hearn⟩ := (raises_earn env s payload.verdict).returns hsound
    have hwork := absorbs_sameWork.earn env s payload.verdict w
    rw [hearn] at hwork
    rw [processPayload_unwritten hload hs hearn hupdate]
    exact Or.inr ⟨hwork.1, by simp⟩
  | false =>
    obtain ⟨o, w', hrun, -, -, hwritten, -⟩ := processPayload_settles hload hs hsound hupdate
    rw [hrun]
    refine Or.inl ⟨payload, s, rfl, hs, hload, rfl, hpoison, ?_⟩
    rw [hid]
    exact hwritten

/-- One round of the listener writes at most a verdict, and may credit leaderboards. -/
theorem listen_cases (env : EgressEnv) (w : World) :
    KeepsRounds w ((listenForSubmissionData env).run w).2 ∧
      ((∃ s verdict, Writes env w s verdict ∧
          ((listenForSubmissionData env).run w).2.db.submissions =
            setVerdict w.db.submissions s.id verdict) ∨
        ((listenForSubmissionData env).run w).2.db.submissions = w.db.submissions ∧
          ∀ s verdict, ¬ Writes env w s verdict) := by
  have hR := absorbs_keepsRounds
  cases hqueue : w.redis.egress.queue with
  -- Without a message nothing happens, and there is nothing to write.
  | nil =>
    have hrun : ((listenForSubmissionData env).run w).2 = w := by
      unfold listenForSubmissionData
      rw [Call.run_read_bind]
      simp only [RedisQueue.consume, hqueue]
      rfl
    rw [hrun]
    refine ⟨hR.refl w, Or.inr ⟨rfl, ?_⟩⟩
    rintro s verdict ⟨-, -, raw, payload, hhead, -⟩
    rw [hqueue] at hhead
    cases hhead
  | cons raw rest =>
    let w₁ : World := (w.withEgress ⟨rest, w.redis.egress.processing⟩).consuming raw
    have hrun : (listenForSubmissionData env).run w = (handleSubmissionData env raw).run w₁ := by
      rw [← listen_delivering, delivering_of_queue hqueue]
    rw [hrun]
    obtain ⟨q, hstate⟩ := handleSubmissionData_state env raw w₁
    rw [hstate]
    -- The message that is handled is the head of the queue, so `Writes` speaks of this one.
    have hwrites : ∀ s verdict, Writes env w s verdict ↔ env.fails .loadSubmission = false ∧
        env.fails .updateVerdict = false ∧ ∃ payload, ¬ Poisonous env w raw ∧
          SubmissionEgressDTO.unmarshal raw = some payload ∧ payload.verdict = verdict ∧
          w.db.submissions.find? payload.submissionId = some s := by
      intro s verdict
      unfold Writes
      simp only [hqueue, List.head?_cons, Option.some.injEq, exists_and_left, exists_eq_left']
    refine ⟨?_, ?_⟩
    · have hkeeps := keepsRounds_processSubmissionData env raw w₁
      exact ⟨hkeeps.participants, hkeeps.roundSubmissions, hkeeps.rounds, hkeeps.mostRecentRound,
        hkeeps.listed⟩
    rcases processSubmissionData_submissions env raw w₁ with
      ⟨payload, s, hraw, hs, hload, hupdate, hsound, hwritten⟩ | ⟨hsame, hnot⟩
    · exact Or.inl ⟨s, payload.verdict,
        (hwrites s _).mpr ⟨hload, hupdate, payload, hsound, hraw, rfl, hs⟩, hwritten⟩
    · refine Or.inr ⟨hsame, fun s verdict hw => ?_⟩
      obtain ⟨hload, hupdate, payload, hsound, hraw, -, hs⟩ := (hwrites s verdict).mp hw
      exact hsound (hnot payload s hraw hs hload hupdate)

end Listen

/-- The verdict takes the last accepted submission for a problem of a most recent round away from a
user, or gives him the first one. -/
def Regrades (w : World) (s : Submission) (verdict : String) : Prop :=
  ∃ roundID userID, w.db.creditOf s = some (roundID, userID) ∧ w.IsMostRecent roundID ∧
    ¬ (verdict = submissionStatusAccepted ↔ s.verdict = submissionStatusAccepted) ∧
    ∀ s' ∈ w.db.submissions.rows, w.db.Solves roundID userID s' → s'.problemID = s.problemID → s' = s

section Verdict

variable {s : Submission} {verdict : String} {w w' : World}

/-- What a submission is credited depends on the rounds. -/
theorem KeepsRounds.creditOf (h : KeepsRounds w w') (s : Submission) :
    w'.db.creditOf s = w.db.creditOf s := by
  unfold DB.creditOf DB.ownerOf DB.participantAuthID
  rw [h.participants, h.roundSubmissions]

/-- So does which round is the most recent one. -/
theorem KeepsRounds.isMostRecent (h : KeepsRounds w w') {roundID : ℕ} :
    w'.IsMostRecent roundID ↔ w.IsMostRecent roundID := by
  unfold World.IsMostRecent
  rw [h.mostRecentRound]

/-- When the participants stay, so must the numbers of the problems that they solved. -/
theorem KeepsRounds.tallied_iff (h : KeepsRounds w w') (htallied : Tallied w) :
    Tallied w' ↔ ∀ p ∈ w.db.participants.rows, w.IsMostRecent p.roundID →
      w'.db.solvedCount p.roundID p.participantAuthID =
        w.db.solvedCount p.roundID p.participantAuthID := by
  unfold Tallied World.Tallies
  simp only [h.participants, h.isMostRecent]
  constructor
  · intro hall p hp hrecent
    exact (hall p hp hrecent).2.symm.trans (htallied p hp hrecent).2
  · intro hcounts p hp hrecent
    obtain ⟨hlisted, hcount⟩ := htallied p hp hrecent
    exact ⟨h.listed _ _ hlisted, hcount.trans (hcounts p hp hrecent).symm⟩

/-- Rows whose submissions belong to what they belonged to stay linked. -/
theorem KeepsRounds.linked (h : KeepsRounds w w') (hlinked : Linked w)
    (hsubmissions : ∀ s' ∈ w'.db.submissions.rows, ∃ s ∈ w.db.submissions.rows,
      s.submissionOwnerType = s'.submissionOwnerType ∧ s.submissionOwnerID = s'.submissionOwnerID) :
    Linked w' where
  participants p hp := by
    rw [h.participants] at hp
    have hbegun := hlinked.participants p hp
    unfold World.Begun at hbegun ⊢
    rwa [h.rounds]
  roundSubmissions rs hrs := by
    rw [h.roundSubmissions] at hrs
    rw [h.participants]
    exact hlinked.roundSubmissions rs hrs
  submissions s' hs' htype := by
    obtain ⟨s, hs, htype', hid⟩ := hsubmissions s' hs'
    obtain ⟨rs, hrs, hrsid⟩ := hlinked.submissions s hs (htype'.trans htype)
    rw [h.roundSubmissions]
    exact ⟨rs, hrs, hrsid.trans hid⟩

/-- What a user has solved after a verdict was written. -/
theorem KeepsRounds.mem_solvedProblems (h : KeepsRounds w w')
    (hwritten : w'.db.submissions = setVerdict w.db.submissions s.id verdict)
    (hs : s ∈ w.db.submissions.rows) {roundID : ℕ} {userID : AuthID} {problemID : ℕ} :
    problemID ∈ w'.db.solvedProblems roundID userID ↔
      (verdict = submissionStatusAccepted ∧ w.db.creditOf s = some (roundID, userID) ∧
        problemID = s.problemID) ∨
      ∃ s' ∈ w.db.submissions.rows, s' ≠ s ∧ w.db.Solves roundID userID s' ∧
        s'.problemID = problemID := by
  rw [DB.mem_solvedProblems, hwritten]
  unfold DB.Solves setVerdict
  simp only [Table.rows_modify, List.mem_map, h.creditOf]
  constructor
  · rintro ⟨_, ⟨s', hs', rfl⟩, ⟨hverdict, hcredit⟩, rfl⟩
    -- The key tells the row whose verdict was written from the others.
    by_cases hid : Row.id s' = s.id
    · obtain rfl : s' = s := Table.eq_of_id_eq hs' hs hid
      rw [if_pos hid] at hverdict hcredit ⊢
      exact Or.inl ⟨hverdict, hcredit, rfl⟩
    · rw [if_neg hid] at hverdict hcredit ⊢
      exact Or.inr ⟨s', hs', fun heq => hid (congrArg Row.id heq), ⟨hverdict, hcredit⟩, rfl⟩
  · rintro (⟨hverdict, hcredit, rfl⟩ | ⟨s', hs', hne, ⟨hverdict, hcredit⟩, rfl⟩)
    · refine ⟨_, ⟨s, hs, rfl⟩, ?_⟩
      rw [if_pos (show Row.id s = s.id from rfl)]
      exact ⟨⟨hverdict, hcredit⟩, rfl⟩
    · have hid : ¬ Row.id s' = s.id := fun hid => hne (Table.eq_of_id_eq hs' hs hid)
      refine ⟨_, ⟨s', hs', rfl⟩, ?_⟩
      rw [if_neg hid]
      exact ⟨⟨hverdict, hcredit⟩, rfl⟩

/-- An accepted verdict for a problem that the user had not solved. -/
theorem KeepsRounds.solvedCount_gained (h : KeepsRounds w w')
    (hwritten : w'.db.submissions = setVerdict w.db.submissions s.id submissionStatusAccepted)
    (hs : s ∈ w.db.submissions.rows) {roundID : ℕ} {userID : AuthID}
    (hcredit : w.db.creditOf s = some (roundID, userID))
    (hold : s.verdict ≠ submissionStatusAccepted)
    (honly : ∀ s' ∈ w.db.submissions.rows, w.db.Solves roundID userID s' →
      s'.problemID = s.problemID → s' = s) :
    w'.db.solvedCount roundID userID = w.db.solvedCount roundID userID + 1 := by
  have hne : ∀ s', w.db.Solves roundID userID s' → s' ≠ s := by
    rintro s' hsolves rfl
    exact hold hsolves.1
  refine DB.solvedCount_succ s.problemID ?_ fun k => ?_
  · intro hmem
    obtain ⟨s', hs', hsolves, hproblem⟩ := DB.mem_solvedProblems.mp hmem
    exact hne s' hsolves (honly s' hs' hsolves hproblem)
  · rw [h.mem_solvedProblems hwritten hs, DB.mem_solvedProblems]
    refine or_congr (by simp [hcredit]) (exists_congr fun s' => and_congr_right fun _ => ?_)
    exact and_iff_right_of_imp fun hsolves => hne s' hsolves.1

/-- Another verdict for the only submission with which the user had solved the problem. -/
theorem KeepsRounds.solvedCount_lost (h : KeepsRounds w w')
    (hwritten : w'.db.submissions = setVerdict w.db.submissions s.id verdict)
    (hs : s ∈ w.db.submissions.rows) {roundID : ℕ} {userID : AuthID}
    (hsolved : w.db.Solves roundID userID s) (hverdict : verdict ≠ submissionStatusAccepted)
    (honly : ∀ s' ∈ w.db.submissions.rows, w.db.Solves roundID userID s' →
      s'.problemID = s.problemID → s' = s) :
    w.db.solvedCount roundID userID = w'.db.solvedCount roundID userID + 1 := by
  refine DB.solvedCount_succ s.problemID ?_ fun k => ?_
  · rw [h.mem_solvedProblems hwritten hs]
    rintro (⟨hnew, -⟩ | ⟨s', hs', hne, hsolves, hproblem⟩)
    · exact hverdict hnew
    · exact hne (honly s' hs' hsolves hproblem)
  · rw [h.mem_solvedProblems hwritten hs, DB.mem_solvedProblems]
    constructor
    · rintro ⟨s', hs', hsolves, rfl⟩
      by_cases heq : s' = s
      · exact Or.inl (congrArg Submission.problemID heq)
      · exact Or.inr (Or.inr ⟨s', hs', heq, hsolves, rfl⟩)
    · rintro (rfl | ⟨hnew, -⟩ | ⟨s', hs', -, hsolves, rfl⟩)
      · exact ⟨s, hs, hsolved, rfl⟩
      · exact absurd hnew hverdict
      · exact ⟨s', hs', hsolves, rfl⟩

/-- A verdict that changes nothing about what the user solved. -/
theorem KeepsRounds.solvedCount_kept (h : KeepsRounds w w')
    (hwritten : w'.db.submissions = setVerdict w.db.submissions s.id verdict)
    (hs : s ∈ w.db.submissions.rows) {roundID : ℕ} {userID : AuthID}
    (hnot : w.db.creditOf s = some (roundID, userID) →
      ¬ (verdict = submissionStatusAccepted ↔ s.verdict = submissionStatusAccepted) →
      ∃ s' ∈ w.db.submissions.rows, w.db.Solves roundID userID s' ∧ s'.problemID = s.problemID ∧
        s' ≠ s) :
    w'.db.solvedCount roundID userID = w.db.solvedCount roundID userID := by
  refine DB.solvedCount_congr fun k => ?_
  rw [h.mem_solvedProblems hwritten hs, DB.mem_solvedProblems]
  constructor
  · rintro (⟨hverdict, hcredit, rfl⟩ | ⟨s', hs', -, hsolves, rfl⟩)
    · -- An accepted verdict that is new is of a problem that another submission has solved.
      by_cases hold : s.verdict = submissionStatusAccepted
      · exact ⟨s, hs, ⟨hold, hcredit⟩, rfl⟩
      · obtain ⟨s', hs', hsolves, hproblem, -⟩ := hnot hcredit fun hiff => hold (hiff.mp hverdict)
        exact ⟨s', hs', hsolves, hproblem⟩
    · exact ⟨s', hs', hsolves, rfl⟩
  · rintro ⟨s', hs', hsolves, rfl⟩
    -- Only the submission itself can have lost its verdict; then the other one still solves.
    by_cases heq : s' = s
    swap
    · exact Or.inr ⟨s', hs', heq, hsolves, rfl⟩
    rw [heq] at hsolves ⊢
    by_cases hverdict : verdict = submissionStatusAccepted
    · exact Or.inl ⟨hverdict, hsolves.2, rfl⟩
    · obtain ⟨s'', hs'', hsolves'', hproblem, hne⟩ :=
        hnot hsolves.2 fun hiff => hverdict (hiff.mpr hsolves.1)
      exact Or.inr ⟨s'', hs'', hne, hsolves'', hproblem⟩

/-- A verdict keeps the reports in agreement exactly when it changes nothing about what a user
solved in a most recent round. -/
theorem KeepsRounds.tallied_iff_of_written (h : KeepsRounds w w') (hlinked : Linked w)
    (htallied : Tallied w) (hwritten : w'.db.submissions = setVerdict w.db.submissions s.id verdict)
    (hs : s ∈ w.db.submissions.rows) : Tallied w' ↔ ¬ Regrades w s verdict := by
  rw [h.tallied_iff htallied]
  constructor
  · rintro hcounts ⟨roundID, userID, hcredit, hrecent, hchange, honly⟩
    obtain ⟨-, rs, hfind, rfl, p, hp, rfl⟩ := DB.creditOf_eq_some.mp hcredit
    obtain ⟨hmem, hid⟩ := Table.find?_eq_some.mp hp
    -- The row of the submission's author belongs to the round that is credited.
    have hround : p.roundID = rs.roundID := by
      obtain ⟨p', hp', hid', hround⟩ :=
        hlinked.roundSubmissions rs (Table.find?_eq_some.mp hfind).1
      rwa [Table.eq_of_id_eq hp' hmem (hid'.trans hid.symm)] at hround
    have hcount := hcounts p hmem (hround ▸ hrecent)
    rw [hround] at hcount
    -- Either way the count moves by one, while the row of the participant stays.
    by_cases hverdict : verdict = submissionStatusAccepted
    · have hold : s.verdict ≠ submissionStatusAccepted := fun hold =>
        hchange (iff_of_true hverdict hold)
      subst hverdict
      exact solved_ne_succ _ ((h.solvedCount_gained hwritten hs hcredit hold honly).symm.trans hcount)
    · have hold : s.verdict = submissionStatusAccepted := by
        by_contra hold
        exact hchange (iff_of_false hverdict hold)
      have hlost := h.solvedCount_lost hwritten hs ⟨hold, hcredit⟩ hverdict honly
      exact solved_ne_succ _ (hlost.symm.trans hcount.symm)
  · intro hnot p hp hrecent
    refine h.solvedCount_kept hwritten hs fun hcredit hchange => ?_
    by_contra hnone
    refine hnot ⟨_, _, hcredit, hrecent, hchange, fun s' hs' hsolves hproblem => ?_⟩
    -- Were it the only one, writing the verdict would be a regrading.
    by_contra hne
    exact hnone ⟨s', hs', hsolves, hproblem, hne⟩

end Verdict

/-! ## The history of the rooms -/

/-- What can happen to rooms and submissions: a request or a task of the room service, a round of
the worker, and a round of the listener. -/
inductive HistoryEvent where
  | request (env : Env) (event : RoomEvent)
  | forward
  | process (env : EgressEnv)

/-- The state after an event. -/
def World.happen (w : World) : HistoryEvent → World
  | .request env event => w.serve (env, event)
  | .forward => w.forward
  | .process env => ((listenForSubmissionData env).run w).2

/-- The room of the event is not deleted with its rounds: nobody leaves it empty, and it does not
expire. -/
def KeepsRooms (w : World) : HistoryEvent → Prop
  | .request _ (.leaveRoom roomID userID) => w.members roomID ≠ [userID]
  | .request _ (.expireRoom _) => False
  | _ => True

/-- What an event must heed for the reports to agree: who joins the most recent round has an entry
and has solved nothing there, a submission that solves a problem is counted, and a verdict that is
written changes nothing. -/
def Heeds (w : World) : HistoryEvent → Prop
  | .request env (.joinRoom roomID userID) => ∀ round, JoinsRound env roomID userID w round →
    w.IsMostRecent round.id → (w.redis.leaderboard round.id).contains userID = true ∧
      w.db.solvedCount round.id userID = 0
  | .request env (.createSubmission roomID params userID) => Follows env roomID params userID w
  | .process env => ∀ s verdict, Writes env w s verdict → ¬ Regrades w s verdict
  | _ => True

section Step

variable {w : World}

/-- A join keeps the tally exactly when it enters nobody in a round in which he has points. -/
theorem joinRoom_tallied_iff (env : Env) (roomID : RoomID) (userID : AuthID) (hlinked : Linked w) :
    Linked ((joinRoom env roomID userID).run w).2 ∧
      (Tallied w → (Tallied ((joinRoom env roomID userID).run w).2 ↔
        Heeds w (.request env (.joinRoom roomID userID)))) := by
  rcases continues_joinRoom env roomID userID w with ⟨hcontinues, hnot⟩ |
    ⟨round, hjoins, hcontinues, hboards, hkeys⟩
  · exact ⟨hcontinues.linked hlinked, fun htallied => iff_of_true
      (hcontinues.tallied hlinked htallied) fun round hround => absurd hround (hnot round)⟩
  refine ⟨hcontinues.linked hlinked, fun htallied => ?_⟩
  have hrecent : ((joinRoom env roomID userID).run w).2.IsMostRecent round.id ↔
      w.IsMostRecent round.id := by
    unfold World.IsMostRecent
    rw [hkeys]
  rw [hcontinues.tallied_iff hlinked htallied, hboards]
  simp only [List.mem_singleton, forall_eq]
  show (_ → _ ∧ 0 = _) ↔ ∀ round, _
  constructor
  · intro hnew round' hjoins' hrecent'
    obtain rfl := Option.some.inj (hjoins.enters.running.symm.trans hjoins'.enters.running)
    obtain ⟨hlisted, hcount⟩ := hnew (hrecent.mpr hrecent')
    exact ⟨hlisted, hcount.symm⟩
  · intro hheeds hrecent'
    obtain ⟨hlisted, hcount⟩ := hheeds round hjoins (hrecent.mp hrecent')
    exact ⟨hlisted, hcount.symm⟩

/-- A start keeps the tally. -/
theorem startRound_tallied (env : Env) (roomID : RoomID) (userID : AuthID) (hlinked : Linked w) :
    Linked ((startRoundByRoomID env roomID userID).run w).2 ∧
      (Tallied w → Tallied ((startRoundByRoomID env roomID userID).run w).2) := by
  obtain ⟨new, hcontinues, hnew⟩ := continues_startRoundByRoomID env roomID userID w
  refine ⟨hcontinues.linked hlinked, fun htallied => ?_⟩
  refine (hcontinues.tallied_iff hlinked htallied).mpr fun p hp _ => ?_
  obtain ⟨hbegun, hlisted, hcount⟩ := hnew p hp
  exact ⟨hlisted, hcount.trans (solvedCount_eq_zero hlinked hbegun _).symm⟩

/-- Processing a message keeps the tally exactly when it heeds the condition. -/
theorem listen_tallied_iff (env : EgressEnv) (hlinked : Linked w) :
    Linked ((listenForSubmissionData env).run w).2 ∧
      (Tallied w → (Tallied ((listenForSubmissionData env).run w).2 ↔
        Heeds w (.process env))) := by
  obtain ⟨hkeeps, ⟨s, verdict, hwrites, hwritten⟩ | ⟨hsame, hnot⟩⟩ := listen_cases env w
  · -- A verdict was written: the tally stays exactly when the condition holds of it.
    have hmem : s ∈ w.db.submissions.rows := by
      obtain ⟨-, -, raw, payload, -, -, -, -, hfind⟩ := hwrites
      exact (Table.find?_eq_some.mp hfind).1
    refine ⟨hkeeps.linked hlinked fun s' hs' => ?_, fun htallied => ?_⟩
    · rw [hwritten] at hs'
      obtain ⟨s₀, hs₀, rfl⟩ := List.mem_map.mp hs'
      refine ⟨s₀, hs₀, ?_⟩
      split <;> exact ⟨rfl, rfl⟩
    · rw [hkeeps.tallied_iff_of_written hlinked htallied hwritten hmem]
      constructor
      · -- The head of the queue determines which verdict is written.
        intro hnot s' verdict' hwrites'
        obtain ⟨-, -, raw, payload, hhead, -, hraw, rfl, hfind⟩ := hwrites
        obtain ⟨-, -, raw', payload', hhead', -, hraw', rfl, hfind'⟩ := hwrites'
        obtain rfl := Option.some.inj (hhead.symm.trans hhead')
        obtain rfl := Option.some.inj (hraw.symm.trans hraw')
        obtain rfl := Option.some.inj (hfind.symm.trans hfind')
        exact hnot
      · exact fun hheeds => hheeds s verdict hwrites
  · -- No verdict was written, so nothing is counted anew.
    refine ⟨hkeeps.linked hlinked fun s' hs' => ?_, fun htallied => iff_of_true ?_ ?_⟩
    · rw [hsame] at hs'
      exact ⟨s', hs', rfl, rfl⟩
    · refine (hkeeps.tallied_iff htallied).mpr fun p hp _ => DB.solvedCount_congr fun k => ?_
      rw [DB.mem_solvedProblems, DB.mem_solvedProblems, hsame]
      unfold DB.Solves
      simp only [hkeeps.creditOf]
    · exact fun s verdict hwrites => absurd hwrites (hnot s verdict)

/-- What an event does to the reports, where no row refers to a missing one. -/
theorem happen_tallied_iff {e : HistoryEvent} (hlinked : Linked w) (hlegal : KeepsRooms w e) :
    Linked (w.happen e) ∧ (Tallied w → (Tallied (w.happen e) ↔ Heeds w e)) := by
  -- Most events add at most participants, who have solved nothing.
  have hstays : ∀ {w' : World}, Continues [] w w' →
      Linked w' ∧ (Tallied w → (Tallied w' ↔ True)) := fun hcontinues =>
    ⟨hcontinues.linked hlinked, fun htallied =>
      iff_of_true (hcontinues.tallied hlinked htallied) trivial⟩
  cases e with
  | forward => exact hstays (.of_records rfl fun _ h => h)
  | process env => exact listen_tallied_iff env hlinked
  | request env event =>
    cases event with
    | joinRoom roomID userID => exact joinRoom_tallied_iff env roomID userID hlinked
    | leaveRoom roomID userID => exact hstays (continues_leaveRoom env hlegal)
    | expireRoom roomID => exact hlegal.elim
    | createRound maxNumRoundsPerRoom params roomID =>
      exact hstays (continues_createRound env maxNumRoundsPerRoom params roomID w)
    | setRoundDuration roomID userID duration =>
      exact hstays (continues_setRoundDuration env roomID userID duration w)
    | startRound roomID userID =>
      obtain ⟨hlinked', htallied'⟩ := startRound_tallied env roomID userID hlinked
      exact ⟨hlinked', fun htallied => iff_of_true (htallied' htallied) trivial⟩
    | endRound roomID userID => exact hstays (continues_endRoundByRoomID env roomID userID w)
    | createSubmission roomID params userID =>
      exact createRoomSubmission_tallied_iff env roomID params userID hlinked
    | runEndTask task => exact hstays (continues_runEndTask env task w)
    | restart => exact hstays (.of_records rfl fun _ h => h)

end Step

/-- Along every history in which no room is deleted, the leaderboards and the details of the rounds
agree exactly as long as every event heeds what it must. -/
theorem agrees_iff_along (w : World) (es : List HistoryEvent) (hlinked : Linked w)
    (hagrees : Agrees w) (hes : Along World.happen KeepsRooms w es) :
    Throughout World.happen Agrees w es ↔ Along World.happen Heeds w es := by
  refine throughout_iff_along (I := Linked)
    (fun _ _ hlinked hlegal => (happen_tallied_iff hlinked hlegal).1)
    (fun w e hlinked hlegal hagrees => ?_) hlinked hagrees hes
  obtain ⟨hlinked', hstep⟩ := happen_tallied_iff hlinked hlegal
  rw [agrees_iff hlinked']
  exact hstep ((agrees_iff hlinked).mp hagrees)

/-- Without a round everything is linked. -/
theorem linked_roundless : Linked .roundless where
  participants p hp := by cases hp
  roundSubmissions rs hrs := by cases hrs
  submissions s hs := by cases hs

/-- Without a round there is nothing to disagree on. -/
theorem agrees_roundless : Agrees .roundless :=
  (agrees_iff linked_roundless).mpr fun p hp => by cases hp

/-- The request of the admin to hand in an accepted solution of the problem of his room. -/
def handIn (now : ℤ) : HistoryEvent :=
  .request (Env.faultless now) (.createSubmission roomOne
    ⟨0, 1, "code", "go", submissionStatusAccepted, 0⟩ host)

/-- The admin creates a round, starts it, and has his solution judged. -/
def soleRound : List HistoryEvent :=
  [.request (Env.faultless 10) (.createRound 3 (handPicked [1]) roomOne),
    .request (Env.faultless 20) (.startRound roomOne host), handIn 30, .forward, .process .quiet]

/-- The submission is the first accepted one of its author, and the verdict is the same again. -/
theorem agrees_soleRound : Throughout World.happen Agrees .roundless soleRound := by
  refine (agrees_iff_along .roundless soleRound linked_roundless agrees_roundless
    ⟨trivial, trivial, trivial, trivial, trivial, trivial⟩).mpr
      ⟨trivial, trivial, ?_, trivial, ?_, trivial⟩
  · -- The submission: the only participant of the only round has one row.
    intro room round ctx hroom hlast hcheck _ _ _
    let w := run World.happen World.roundless (soleRound.take 2)
    have hround : some round = some ⟨1, 20, 30, roomOne, .started⟩ := by
      rw [← hlast, hroom.id_eq isUUID_roomOne]
      decide +kernel
    obtain rfl := Option.some.inj hround
    obtain ⟨-, hproblem, -, hparticipant, -⟩ := checkSubmission_eq_ok hcheck
    have hscored : ∀ p ∈ w.db.problems.rows, determineScoreForProblem p ≠ 0 := by decide +kernel
    refine ⟨⟨rfl, rfl, hscored _ (Table.find?_eq_some.mp hproblem).1, fun _ _ => rfl⟩, ?_⟩
    intro p hp _ _
    have hrows : w.db.participants.rows = [⟨1, host, 1, 0, 0⟩] := by decide +kernel
    have hone : ∀ p' ∈ w.db.participants.rows, p' = ⟨1, host, 1, 0, 0⟩ := fun p' hp' =>
      List.mem_singleton.mp (hrows ▸ hp')
    rw [hone p hp, hone ctx.participant (List.mem_of_find?_eq_some hparticipant)]
  · -- The worker's answer: it says accepted, as the submission does.
    rintro s verdict ⟨-, -, raw, payload, hhead, -, hpayload, rfl, hfind⟩ ⟨_, _, -, -, hdiffers, -⟩
    let w := run World.happen World.roundless (soleRound.take 4)
    have hverdict : (w.redis.egress.queue.head?.bind SubmissionEgressDTO.unmarshal).map
        SubmissionEgressDTO.verdict = some submissionStatusAccepted := by decide +kernel
    rw [show w.redis.egress.queue.head? = some raw from hhead, Option.bind_some, hpayload,
      Option.map_some, Option.some.injEq] at hverdict
    have haccepted : ∀ s ∈ w.db.submissions.rows, s.verdict = submissionStatusAccepted := by
      decide +kernel
    exact hdiffers (iff_of_true hverdict (haccepted s (Table.find?_eq_some.mp hfind).1))

/-- A guest joins the round after it started. -/
def lateJoin : List HistoryEvent :=
  [.request (Env.faultless 10) (.createRound 3 (handPicked [1]) roomOne),
    .request (Env.faultless 20) (.startRound roomOne host),
    .request (Env.faultless 30) (.joinRoom roomOne guest)]

/-- The admin solves the problem of a round that he solved in the round before. -/
def solvedAgain : List HistoryEvent :=
  [.request (Env.faultless 10) (.createRound 3 (handPicked [1]) roomOne),
    .request (Env.faultless 20) (.startRound roomOne host), handIn 30,
    .request (Env.faultless 40) (.endRound roomOne host),
    .request (Env.faultless 50) (.createRound 3 (handPicked [1]) roomOne),
    .request (Env.faultless 60) (.startRound roomOne host), handIn 70]

/-- A history that ends with a participant about whom the reports differ. -/
theorem not_throughout_agrees {es : List HistoryEvent}
    (hes : Along World.happen KeepsRooms .roundless es) {p : RoundParticipant}
    (hp : p ∈ (run World.happen World.roundless es).db.participants.rows)
    (hrecent : (run World.happen World.roundless es).IsMostRecent p.roundID)
    (hnot : ¬ (run World.happen World.roundless es).Tallies p) :
    ¬ Throughout World.happen Agrees .roundless es := by
  intro h
  have hlinked : Throughout World.happen Linked .roundless es :=
    invariant_along (fun _ _ hlinked hlegal => (happen_tallied_iff hlinked hlegal).1)
      linked_roundless hes
  exact hnot (h.last.tallied hlinked.last p hp hrecent)

/-- The guest has no entry on the leaderboard, and the admin has a solved problem that is not
counted. -/
theorem not_agrees :
    (Linked .roundless ∧ Agrees .roundless ∧ Along World.happen KeepsRooms .roundless lateJoin ∧
      Along World.happen KeepsRooms .roundless solvedAgain) ∧
      ¬ Throughout World.happen Agrees .roundless lateJoin ∧
      ¬ Throughout World.happen Agrees .roundless solvedAgain := by
  have hlate : Along World.happen KeepsRooms .roundless lateJoin :=
    ⟨trivial, trivial, trivial, trivial⟩
  have hagain : Along World.happen KeepsRooms .roundless solvedAgain :=
    ⟨trivial, trivial, trivial, trivial, trivial, trivial, trivial, trivial⟩
  refine ⟨⟨linked_roundless, agrees_roundless, hlate, hagain⟩,
    not_throughout_agrees (p := ⟨2, guest, 1, 0, 0⟩) hlate (by decide +kernel)
      ⟨roomOne, by decide +kernel⟩ fun htallies => ?_,
    not_throughout_agrees (p := ⟨2, host, 2, 0, 0⟩) hagain (by decide +kernel)
      ⟨roomOne, by decide +kernel⟩ fun htallies => ?_⟩
  · exact absurd htallies.1 (by decide +kernel)
  · exact absurd htallies.2 (by decide +kernel)

end Bsg.Central
