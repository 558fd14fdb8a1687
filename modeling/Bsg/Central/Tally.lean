import Bsg.Central.Enrolment
import Bsg.Central.Processing
import Mathlib.Data.List.Dedup

/-!
# What a leaderboard reports and what the details report

`GetLeaderboard` takes its users from the sorted set of the round in Redis, and the number of
problems that a user solved from the counter in his row of `round_participants`. `GetRoundDetails`
finds the solved problems in the submissions (`solvedAt`). Nothing ties the two together: `Agrees`
says of the most recent round of each room that they report the same, whatever the order in which
rows are loaded.

Where no row refers to one that is missing (`Linked`), this is a property of the rows themselves
(`agrees_iff`): every participant has an entry, and his counter is the number of problems that his
submissions solve (`Tallied`).
-/

namespace Bsg.Central

open Bsg.Foundations

/-! ## The problems that a user solved -/

/-- The round and the user that a submission counts for. -/
def DB.creditOf (db : DB) (s : Submission) : Option (ℕ × AuthID) :=
  (db.ownerOf s).bind fun rs =>
    (db.participantAuthID rs.roundParticipantID).map fun userID => (rs.roundID, userID)

/-- The submission is an accepted one of the user in the round. -/
def DB.Solves (db : DB) (roundID : ℕ) (userID : AuthID) (s : Submission) : Prop :=
  s.verdict = submissionStatusAccepted ∧ db.creditOf s = some (roundID, userID)

instance (db : DB) (roundID : ℕ) (userID : AuthID) (s : Submission) :
    Decidable (db.Solves roundID userID s) := inferInstanceAs (Decidable (_ ∧ _))

/-- The problems that a user solved in a round. -/
def DB.solvedProblems (db : DB) (roundID : ℕ) (userID : AuthID) : List ℕ :=
  ((db.submissions.rows.filter fun s => decide (db.Solves roundID userID s)).map
    Submission.problemID).dedup

/-- Their number, as the code counts them. -/
def DB.solvedCount (db : DB) (roundID : ℕ) (userID : AuthID) : UInt64 :=
  UInt64.ofNat (db.solvedProblems roundID userID).length

/-- The solved problems are those of the submissions that solve. -/
theorem DB.mem_solvedProblems {db : DB} {roundID : ℕ} {userID : AuthID} {problemID : ℕ} :
    problemID ∈ db.solvedProblems roundID userID ↔
      ∃ s ∈ db.submissions.rows, db.Solves roundID userID s ∧ s.problemID = problemID := by
  unfold DB.solvedProblems
  simp only [List.mem_dedup, List.mem_map, List.mem_filter, decide_eq_true_eq, and_assoc]

/-- No problem is listed as solved twice. -/
theorem DB.solvedProblems_nodup (db : DB) (roundID : ℕ) (userID : AuthID) :
    (db.solvedProblems roundID userID).Nodup := List.nodup_dedup _

/-- The same problems have the same number. -/
theorem DB.solvedCount_congr {db db' : DB} {roundID : ℕ} {userID : AuthID}
    (h : ∀ problemID, problemID ∈ db'.solvedProblems roundID userID ↔
      problemID ∈ db.solvedProblems roundID userID) :
    db'.solvedCount roundID userID = db.solvedCount roundID userID := by
  have hperm := (List.perm_ext_iff_of_nodup (db'.solvedProblems_nodup roundID userID)
    (db.solvedProblems_nodup roundID userID)).mpr h
  unfold DB.solvedCount
  rw [hperm.length_eq]

/-- One problem more is one more. -/
theorem DB.solvedCount_succ {db db' : DB} {roundID : ℕ} {userID : AuthID} (problemID : ℕ)
    (hnew : problemID ∉ db.solvedProblems roundID userID)
    (h : ∀ k, k ∈ db'.solvedProblems roundID userID ↔
      k = problemID ∨ k ∈ db.solvedProblems roundID userID) :
    db'.solvedCount roundID userID = db.solvedCount roundID userID + 1 := by
  have hperm : (db'.solvedProblems roundID userID).Perm
      (problemID :: db.solvedProblems roundID userID) := by
    refine (List.perm_ext_iff_of_nodup (db'.solvedProblems_nodup roundID userID)
      (List.nodup_cons.mpr ⟨hnew, db.solvedProblems_nodup roundID userID⟩)).mpr fun k => ?_
    rw [h, List.mem_cons]
  unfold DB.solvedCount
  rw [hperm.length_eq, List.length_cons, UInt64.ofNat_add]
  rfl

/-- A counter that goes on is another one. -/
theorem solved_ne_succ (n : UInt64) : n + 1 ≠ n := by
  intro h
  have hone : (1 : UInt64) = 0 := UInt64.add_eq_left.mp h
  cases hone

/-- A submission counts for the user in the round when its rows say so. -/
theorem DB.creditOf_eq_some {db : DB} {s : Submission} {roundID : ℕ} {userID : AuthID} :
    db.creditOf s = some (roundID, userID) ↔ s.submissionOwnerType = ownerRoundSubmissions ∧
      ∃ rs, db.roundSubmissions.find? s.submissionOwnerID = some rs ∧ rs.roundID = roundID ∧
        ∃ p, db.participants.find? rs.roundParticipantID = some p ∧
          p.participantAuthID = userID := by
  unfold DB.creditOf DB.participantAuthID
  simp only [Option.bind_eq_some_iff, Option.map_eq_some_iff, Prod.mk.injEq]
  constructor
  · rintro ⟨rs, hrs, _, ⟨p, hp, rfl⟩, rfl, rfl⟩
    obtain ⟨htype, hfind⟩ := ownerOf_eq_some hrs
    exact ⟨htype, rs, hfind, rfl, p, hp, rfl⟩
  · rintro ⟨htype, rs, hfind, rfl, p, hp, rfl⟩
    exact ⟨rs, (if_pos htype).trans hfind, _, ⟨p, hp, rfl⟩, rfl, rfl⟩

/-- These are the problems that the details report. -/
theorem DB.solvedAt_isSome {db : DB} {roundID : ℕ} {userID : AuthID} {problemID : ℕ} :
    (db.solvedAt roundID userID problemID).isSome = true ↔
      problemID ∈ db.solvedProblems roundID userID := by
  rw [DB.mem_solvedProblems, Option.isSome_iff_ne_none]
  unfold DB.solvedAt
  rw [ne_eq, List.min?_eq_none_iff, List.map_eq_nil_iff, List.filter_eq_nil_iff]
  push Not
  refine exists_congr fun s => and_congr_right fun _ => ?_
  unfold DB.Solves
  rw [DB.creditOf_eq_some]
  simp only [Bool.and_eq_true, decide_eq_true_eq, Option.any_eq_true]
  constructor
  · rintro ⟨⟨htype, hverdict, hproblem⟩, rs, hrs, hround, p, hp, huser⟩
    exact ⟨⟨hverdict, htype, rs, hrs, hround, p, hp, huser⟩, hproblem⟩
  · rintro ⟨⟨hverdict, htype, rs, hrs, hround, p, hp, huser⟩, hproblem⟩
    exact ⟨⟨htype, hverdict, hproblem⟩, rs, hrs, hround, p, hp, huser⟩

/-! ## The two reports -/

/-- It is the most recent round of some room. -/
def World.IsMostRecent (w : World) (roundID : ℕ) : Prop :=
  ∃ roomID, w.redis.mostRecentRound roomID = some roundID

/-- For the most recent round of each room, the leaderboard lists every participant once, with the
number of problems that the details of the round report for him. -/
structure Agrees (w : World) : Prop where
  details : ∀ env roomID details w', (getRoundDetails env roomID).run w = (.ok details, w') →
    details.solvedProblems = w.db.solvedAt details.roundID
  leaderboard : ∀ roomID roundID, w.redis.mostRecentRound roomID = some roundID →
    ∀ env : Env, (∀ op, env.fails op = false) →
      ∃ entries, (getLeaderboard env roomID).run w = (.ok entries, w) ∧
        ∀ p ∈ w.db.participants.rows, p.roundID = roundID →
          (entries.map LeaderboardEntry.userAuthID).count p.participantAuthID = 1 ∧
          ∀ entry ∈ entries, entry.userAuthID = p.participantAuthID →
            ∃ problems : List ℕ, problems.Nodup ∧
              (∀ problemID, problemID ∈ problems ↔
                (w.db.solvedAt roundID p.participantAuthID problemID).isSome = true) ∧
              entry.solvedCount = UInt64.ofNat problems.length

/-- The round was started, and may have ended. -/
def World.Begun (w : World) (roundID : ℕ) : Prop :=
  ∃ r ∈ w.db.rounds.rows, r.id = roundID ∧ r.status ≠ .created

/-- No row refers to one that is missing, and nobody takes part in a round that was not started. -/
structure Linked (w : World) : Prop where
  participants : ∀ p ∈ w.db.participants.rows, w.Begun p.roundID
  roundSubmissions : ∀ rs ∈ w.db.roundSubmissions.rows,
    ∃ p ∈ w.db.participants.rows, p.id = rs.roundParticipantID ∧ p.roundID = rs.roundID
  submissions : ∀ s ∈ w.db.submissions.rows, s.submissionOwnerType = ownerRoundSubmissions →
    ∃ rs ∈ w.db.roundSubmissions.rows, rs.id = s.submissionOwnerID

/-- The participant has an entry on the leaderboard, and his counter is right. -/
def World.Tallies (w : World) (p : RoundParticipant) : Prop :=
  (w.redis.leaderboard p.roundID).contains p.participantAuthID = true ∧
    p.solvedProblemCount = w.db.solvedCount p.roundID p.participantAuthID

/-- It is so for all participants of the most recent rounds. -/
def Tallied (w : World) : Prop :=
  ∀ p ∈ w.db.participants.rows, w.IsMostRecent p.roundID → w.Tallies p

section Reports

variable {w : World} {roundID : ℕ} {roomID : RoomID}

/-- The details report the problems of the round that they describe. -/
theorem getRoundDetails_solved {env : Env} {details : RoundDetailsResponse} {w' : World}
    (h : (getRoundDetails env roomID).run w = (.ok details, w')) :
    details.solvedProblems = w.db.solvedAt details.roundID := by
  unfold getRoundDetails at h
  obtain ⟨⟨room, rounds⟩, w₁, hfind, hrest⟩ := Call.bind_eq_ok h
  obtain rfl : w₁ = w := by
    have hkeeps := keeps_findRoomByID (f := id) env roomID w
    rwa [hfind] at hkeeps
  cases hlast : rounds.getLast? with
  | none =>
    simp only [hlast] at hrest
    cases hrest
  | some round =>
    simp only [hlast] at hrest
    obtain ⟨problems, w₂, hproblems, hrest⟩ := Call.bind_eq_ok hrest
    obtain ⟨-, rfl, rfl⟩ := Call.io_read_eq_ok hproblems
    obtain ⟨solved, w₃, hsolved, hrest⟩ := Call.bind_eq_ok hrest
    obtain ⟨-, rfl, rfl⟩ := Call.io_read_eq_ok hsolved
    cases hrest
    rfl

/-- The participants as the leaderboard loads them. -/
def World.loadedParticipants (w : World) (env : Env) (roundID : ℕ) : List RoundParticipant :=
  if roundID = 0 then []
  else env.participants.order
    (w.db.participants.rows.filter fun p => decide (p.roundID = roundID))

/-- The leaderboard of the most recent round, when nothing fails. -/
theorem getLeaderboard_run {env : Env} (hfails : ∀ op, env.fails op = false)
    (hkey : w.redis.mostRecentRound roomID = some roundID) :
    ∃ users, (getLeaderboard env roomID).run w =
      (.ok ((w.redis.leaderboard roundID).range.reverse.zipIdx.map
        (enrichEntry users (w.loadedParticipants env roundID))), w) := by
  have hentries : (getLeaderboardByRoomID env roomID).run w =
      (.ok ((w.redis.leaderboard roundID).range.reverse, roundID), w) := by
    unfold getLeaderboardByRoomID getLeaderboardByRoundID
    simp only [hfails, Call.io_false, Call.run_read_bind, hkey]
    rfl
  unfold getLeaderboard
  rw [Call.bind_ok hentries, Call.run_read_bind, Call.run_read_bind]
  simp only [hfails, Bool.false_eq_true, or_false]
  exact ⟨_, rfl⟩

variable {users : List User} {participants : List RoundParticipant} {l : List (AuthID × ℕ)}

/-- The users of a leaderboard are those of the sorted set. -/
theorem map_userAuthID_enrichEntry :
    (l.zipIdx.map (enrichEntry users participants)).map LeaderboardEntry.userAuthID =
      l.map Prod.fst := by
  rw [List.map_map]
  show l.zipIdx.map (Prod.fst ∘ Prod.fst) = l.map Prod.fst
  rw [← List.map_map, List.zipIdx_map_fst]

/-- A sorted set lists a member once. -/
theorem count_range {s : SortedSet AuthID ℕ} {userID : AuthID} :
    (s.range.reverse.map Prod.fst).count userID = if s.contains userID then 1 else 0 := by
  rw [List.map_reverse, List.count_reverse]
  show s.members.count userID = _
  rw [s.members_nodup.count]
  simp only [SortedSet.mem_members]

/-- The number of the problems that some list has, if it has those that the user solved. -/
theorem DB.solvedCount_eq {db : DB} {userID : AuthID} {problems : List ℕ}
    (hnodup : problems.Nodup)
    (h : ∀ problemID, problemID ∈ problems ↔ (db.solvedAt roundID userID problemID).isSome = true) :
    UInt64.ofNat problems.length = db.solvedCount roundID userID := by
  have hperm : problems.Perm (db.solvedProblems roundID userID) :=
    (List.perm_ext_iff_of_nodup hnodup (db.solvedProblems_nodup roundID userID)).mpr
      fun problemID => (h problemID).trans DB.solvedAt_isSome
  rw [hperm.length_eq]
  rfl

/-- The two reports agree when every participant is on the leaderboard and every counter is
right. -/
theorem Tallied.agrees (hlinked : Linked w) (h : Tallied w) : Agrees w := by
  refine ⟨fun env roomID details w' hrun => getRoundDetails_solved hrun,
    fun roomID roundID hkey env hfails => ?_⟩
  obtain ⟨users, hrun⟩ := getLeaderboard_run hfails hkey
  refine ⟨_, hrun, fun p hp hround => ?_⟩
  obtain ⟨hlisted, -⟩ := h p hp ⟨roomID, hround ▸ hkey⟩
  rw [hround] at hlisted
  constructor
  · rw [map_userAuthID_enrichEntry, count_range, if_pos hlisted]
  intro entry hentry huser
  obtain ⟨e, -, rfl⟩ := List.mem_map.mp hentry
  -- Whichever row of the user is loaded last, its counter is right.
  have hmem : p ∈ (w.loadedParticipants env roundID).reverse := by
    obtain ⟨r, hr, hid, -⟩ := hlinked.participants p hp
    have hpos : roundID ≠ 0 := by
      rw [← hround, ← hid]
      exact w.db.rounds.pos r hr
    unfold World.loadedParticipants
    rw [if_neg hpos, List.mem_reverse, Arrangement.mem_order, List.mem_filter]
    exact ⟨hp, decide_eq_true hround⟩
  have hfound : ((w.loadedParticipants env roundID).reverse.find? fun p =>
      decide (p.participantAuthID = e.1.1)).isSome :=
    List.find?_isSome.mpr ⟨p, hmem, decide_eq_true huser.symm⟩
  obtain ⟨p', hp'⟩ := Option.isSome_iff_exists.mp hfound
  have hrow : p' ∈ w.db.participants.rows ∧ p'.roundID = roundID := by
    have hloaded := List.mem_reverse.mp (List.mem_of_find?_eq_some hp')
    unfold World.loadedParticipants at hloaded
    split at hloaded
    · cases hloaded
    · rw [Arrangement.mem_order, List.mem_filter, decide_eq_true_eq] at hloaded
      exact hloaded
  have huser' : p'.participantAuthID = p.participantAuthID := by
    have := List.find?_some hp'
    exact (of_decide_eq_true this).trans huser
  refine ⟨w.db.solvedProblems roundID p.participantAuthID, DB.solvedProblems_nodup _ _ _,
    fun problemID => DB.solvedAt_isSome.symm, ?_⟩
  show ((((w.loadedParticipants env roundID).reverse.find? fun p =>
    decide (p.participantAuthID = e.1.1)).map _).getD 0) = _
  rw [hp']
  have hcount := (h p' hrow.1 ⟨roomID, hrow.2 ▸ hkey⟩).2
  rw [hrow.2, huser'] at hcount
  exact hcount

/-- An environment in which a row is loaded after all others. -/
def Env.loadingLast (p : RoundParticipant) : Env :=
  { Env.faultless 0 with participants := .withLast p }

/-- If they agree, every participant is on the leaderboard with the right number: any of his rows
may be the one that is loaded last. -/
theorem Agrees.tallied (hlinked : Linked w) (h : Agrees w) : Tallied w := by
  rintro p hp ⟨roomID, hkey⟩
  have hfails : ∀ op, (Env.loadingLast p).fails op = false := fun _ => rfl
  obtain ⟨entries, hrun, hentries⟩ := h.leaderboard roomID p.roundID hkey (.loadingLast p) hfails
  obtain ⟨users, hrun'⟩ := getLeaderboard_run hfails hkey
  obtain rfl : _ = entries := Outcome.ok.inj (congrArg Prod.fst (hrun'.symm.trans hrun))
  -- On the leaderboard he is listed once, and so he has an entry.
  obtain ⟨honce, hcount⟩ := hentries p hp rfl
  rw [map_userAuthID_enrichEntry, count_range] at honce
  have hlisted : (w.redis.leaderboard p.roundID).contains p.participantAuthID = true := by
    by_contra hnot
    rw [if_neg hnot] at honce
    cases honce
  refine ⟨hlisted, ?_⟩
  have hentry : p.participantAuthID ∈
      ((w.redis.leaderboard p.roundID).range.reverse.zipIdx.map
        (enrichEntry users (w.loadedParticipants (.loadingLast p) p.roundID))).map
          LeaderboardEntry.userAuthID := by
    rw [map_userAuthID_enrichEntry, List.map_reverse, List.mem_reverse]
    exact (SortedSet.mem_members _ _).mpr hlisted
  obtain ⟨entry, hmem, huser⟩ := List.mem_map.mp hentry
  obtain ⟨problems, hnodup, hproblems, hsolved⟩ := hcount entry hmem huser
  obtain ⟨e, -, rfl⟩ := List.mem_map.mp hmem
  -- The row that is loaded last is the one whose counter is shown.
  have hloaded : (w.loadedParticipants (.loadingLast p) p.roundID).reverse.find? (fun p' =>
      decide (p'.participantAuthID = e.1.1)) = some p := by
    obtain ⟨r, hr, hid, -⟩ := hlinked.participants p hp
    have hpos : p.roundID ≠ 0 := by
      rw [← hid]
      exact w.db.rounds.pos r hr
    unfold World.loadedParticipants
    rw [if_neg hpos]
    exact Arrangement.find?_withLast (List.mem_filter.mpr ⟨hp, decide_eq_true rfl⟩)
      (decide_eq_true huser.symm)
  have hcounter : ((((w.loadedParticipants (.loadingLast p) p.roundID).reverse.find? fun p' =>
      decide (p'.participantAuthID = e.1.1)).map RoundParticipant.solvedProblemCount).getD 0) =
        UInt64.ofNat problems.length := hsolved
  rw [hloaded, DB.solvedCount_eq hnodup hproblems] at hcounter
  exact hcounter

/-- Where no row refers to a missing one, the two reports agree exactly when the rows do. -/
theorem agrees_iff (hlinked : Linked w) : Agrees w ↔ Tallied w :=
  ⟨Agrees.tallied hlinked, Tallied.agrees hlinked⟩

end Reports

end Bsg.Central
