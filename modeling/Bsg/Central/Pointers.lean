import Bsg.Central.Legal
import Bsg.Central.ShortCodes

/-!
# Errors by pointer

A `BSGError` may be raised by value or by pointer. Most functions of the room service raise none by
pointer (`GoError.NotPointer`). For taking in a submission the pointers are known exactly: it is
refused with one when the round turns it down (`createRoundSubmission_refuses`), and with 400 in
each case.
-/

namespace Bsg.Central

open Bsg.Foundations

/-! ## What the services raise -/

/-- The error is not a `BSGError` by pointer. -/
def GoError.NotPointer : GoError → Prop
  | pointer _ => False
  | value _ | other _ => True

/-- An error that is logged is not raised. -/
theorem raises_logged {p : GoError → Prop} (x : Service Unit) : Call.Raises p (logged x) :=
  Call.Raises.bind (Call.Raises.attempt x) fun _ => Call.Raises.pure ()

/-- An operation on the outside raises no pointer when what it does raises none. -/
theorem raises_io {α : Type} (fails : Bool) {x : Service α}
    (hx : Call.Raises GoError.NotPointer x) : Call.Raises GoError.NotPointer (.io fails .io x) :=
  Call.Raises.io fails trivial hx

/-- `FindRoomByID` raises no pointers. -/
theorem raises_findRoomByID (env : Env) (roomID : RoomID) :
    Call.Raises GoError.NotPointer (findRoomByID env roomID) :=
  findRoomByID_raises env roomID trivial trivial trivial

/-- `FindActiveUsers` raises no pointers. -/
theorem raises_findActiveUsers (env : Env) (roomID : RoomID) :
    Call.Raises GoError.NotPointer (findActiveUsers env roomID) :=
  raises_io _ (Call.Raises.read _)

/-- An announcement raises no pointers. -/
theorem raises_announce (env : Env) (call : RtcCall) (req : Rtc.Request) :
    Call.Raises GoError.NotPointer (announce env call req) := by
  refine Call.Raises.bind (Call.Raises.attempt _) ?_
  rintro (_ | _)
  · exact Call.Raises.fail trivial
  · exact Call.Raises.pure _

/-- `JoinRoom` raises no pointers. -/
theorem raises_joinRoom (env : Env) (roomID : RoomID) (userID : AuthID) :
    Call.Raises GoError.NotPointer (joinRoom env roomID userID) := by
  have hadd : Call.Raises GoError.NotPointer (addJoinMember env roomID userID) := by
    refine Call.Raises.bind (raises_io _ ?_) fun added => ?_
    · exact Call.Raises.bind (Call.Raises.read _) fun _ =>
        Call.Raises.bind (Call.Raises.write _) fun _ => Call.Raises.pure _
    · exact Call.Raises.bind (raises_logged _) fun _ =>
        Call.Raises.ite _ (Call.Raises.pure _) (Call.Raises.fail trivial)
  have henter : ∀ room rounds,
      Call.Raises GoError.NotPointer (enterRoom env roomID room rounds userID) := by
    intro room rounds
    refine Call.Raises.bind (Call.Raises.read _) fun displayName => ?_
    refine Call.Raises.bind (raises_announce _ _ _) fun _ => ?_
    split
    · refine Call.Raises.ite _ ?_ (Call.Raises.pure _)
      exact Call.Raises.bind (raises_io _ (Call.Raises.write _)) fun _ => raises_announce _ _ _
    · exact Call.Raises.pure _
  refine Call.Raises.bind (raises_findRoomByID env roomID) fun found => ?_
  exact Call.Raises.bind hadd fun _ => Call.Raises.bind (henter _ _) fun _ => Call.Raises.pure _

/-- `DeleteRoom` raises no pointers. -/
theorem raises_deleteRoom (env : Env) (room : Room) (rounds : List Round) :
    Call.Raises GoError.NotPointer (deleteRoom env room rounds) := by
  have hwrite : ∀ (op : Op) (f : DB → DB),
      Call.Raises GoError.NotPointer (Call.io (env.fails op) .io (writeDB f)) := fun op f =>
    raises_io _ (Call.Raises.write _)
  -- The members and the rounds, and then the row.
  have hmembers : Call.Raises GoError.NotPointer (deleteJoinMembers env room.id) := by
    refine Call.Raises.bind (Call.Raises.read _) fun members => ?_
    exact Call.Raises.bind (raises_io _ (Call.Raises.write _)) fun _ =>
      Call.Raises.forEach fun _ _ => raises_logged _
  have hround : ∀ round, Call.Raises GoError.NotPointer (deleteRound env round) := fun round =>
    Call.Raises.bind (raises_logged _) fun _ => Call.Raises.bind (hwrite _ _) fun _ =>
      Call.Raises.bind (hwrite _ _) fun _ => Call.Raises.bind (hwrite _ _) fun _ => hwrite _ _
  refine Call.Raises.bind hmembers fun _ => ?_
  refine Call.Raises.bind (Call.Raises.forEach fun round _ => hround round) fun _ => ?_
  refine raises_io _ (Call.Raises.bind (Call.Raises.read _) fun inUse => ?_)
  exact Call.Raises.ite _ (Call.Raises.fail trivial) (Call.Raises.write _)

/-- Replacing the admin raises no pointers. -/
theorem raises_replaceAdmin (env : Env) (roomID : RoomID) (room : Room) (userID : AuthID) :
    Call.Raises GoError.NotPointer (replaceAdmin env roomID room userID) := by
  have hadmin : Call.Raises GoError.NotPointer (findRightfulRoomAdmin env roomID) := by
    refine Call.Raises.bind (raises_io _ (Call.Raises.read _)) ?_
    rintro (_ | ⟨user, members⟩)
    · exact Call.Raises.fail trivial
    · exact Call.Raises.pure _
  refine Call.Raises.ite _ (Call.Raises.bind hadmin fun admin => ?_) (Call.Raises.pure _)
  refine Call.Raises.bind (raises_io _ (Call.Raises.write _)) fun _ => ?_
  exact Call.Raises.bind (Call.Raises.read _) fun adminName => raises_logged _

/-- `LeaveRoom` raises no pointers. -/
theorem raises_leaveRoom (env : Env) (roomID : RoomID) (userID : AuthID) :
    Call.Raises GoError.NotPointer (leaveRoom env roomID userID) := by
  have hremove : Call.Raises GoError.NotPointer (removeJoinMember env roomID userID) := by
    refine Call.Raises.bind (raises_io _ ?_) fun removed => ?_
    · exact Call.Raises.bind (Call.Raises.read _) fun _ =>
        Call.Raises.bind (Call.Raises.write _) fun _ => Call.Raises.pure _
    · exact Call.Raises.bind (raises_logged _) fun _ =>
        Call.Raises.ite _ (Call.Raises.pure _) (Call.Raises.fail trivial)
  refine Call.Raises.bind (raises_findRoomByID env roomID) fun found => ?_
  refine Call.Raises.bind hremove fun _ => Call.Raises.bind (Call.Raises.read _) fun userName => ?_
  refine Call.Raises.bind (raises_announce _ _ _) fun _ => ?_
  refine Call.Raises.bind (raises_findActiveUsers env roomID) fun users => ?_
  -- The last member takes the room with him.
  refine Call.Raises.ite _ ?_ (raises_replaceAdmin env roomID _ userID)
  exact Call.Raises.bind (Call.Raises.write _) fun _ => raises_deleteRoom env _ _

/-- `GetLeaderboard` raises no pointers. -/
theorem raises_getLeaderboard (env : Env) (roomID : RoomID) :
    Call.Raises GoError.NotPointer (getLeaderboard env roomID) := by
  have hroom : Call.Raises GoError.NotPointer (getLeaderboardByRoomID env roomID) := by
    refine Call.Raises.bind (raises_io _ (Call.Raises.read _)) ?_
    rintro (_ | roundID)
    · exact Call.Raises.fail trivial
    · exact Call.Raises.bind (raises_io _ (Call.Raises.read _)) fun _ => Call.Raises.pure _
  refine Call.Raises.bind hroom fun redisEntries => ?_
  exact Call.Raises.bind (Call.Raises.read _) fun users =>
    Call.Raises.bind (Call.Raises.read _) fun participants => Call.Raises.pure _

/-- `GetRoundDetails` raises no pointers. -/
theorem raises_getRoundDetails (env : Env) (roomID : RoomID) :
    Call.Raises GoError.NotPointer (getRoundDetails env roomID) := by
  refine Call.Raises.bind (raises_findRoomByID env roomID) ?_
  rintro ⟨room, rounds⟩
  dsimp only
  split
  · exact Call.Raises.fail trivial
  · exact Call.Raises.bind (raises_io _ (Call.Raises.read _)) fun problems =>
      Call.Raises.bind (raises_io _ (Call.Raises.read _)) fun solved => Call.Raises.pure _

/-- The search for a code raises no pointers. -/
theorem raises_freeShortCode : ∀ candidates : List (String × Bool),
    Call.Raises GoError.NotPointer (freeShortCode candidates)
  | [] => Call.Raises.crash
  | _ :: candidates => Call.Raises.bind (Call.Raises.read _) fun _ =>
      Call.Raises.ite _ (Call.Raises.pure _) (raises_freeShortCode candidates)

/-- `CreateRoom` raises no pointers. -/
theorem raises_createRoom (env : SiteEnv) (room : RoomDTO) (adminID : AuthID) :
    Call.Raises GoError.NotPointer (createRoom env room adminID) := by
  have hname : Call.Raises GoError.NotPointer (validateRoomName room.name) :=
    Call.Raises.ite _ (Call.Raises.fail trivial) <| Call.Raises.ite _ (Call.Raises.fail trivial) <|
      Call.Raises.ite _ (Call.Raises.fail trivial) (Call.Raises.pure _)
  have hinsert : ∀ newRoom shortCode,
      Call.Raises GoError.NotPointer (insertRoom env newRoom shortCode) := fun _ _ =>
    Call.Raises.io _ trivial <| Call.Raises.bind (Call.Raises.read _) fun taken =>
      Call.Raises.ite _ (Call.Raises.fail trivial) (Call.Raises.write _)
  refine Call.Raises.bind (raises_onSite hname) fun _ => ?_
  refine Call.Raises.bind (raises_freeShortCode _) fun shortCode => ?_
  refine Call.Raises.bind (hinsert _ _) fun _ => Call.Raises.ite _ ?_ (Call.Raises.pure _)
  exact Call.Raises.bind (raises_onSite (raises_logged _)) fun _ => Call.Raises.pure _

/-! ## Submissions that are turned down -/

/-- The problem is not one of the round. A problem that does not exist is only noticed in a round
without problems. -/
def Stray (round : Round) (problemID : ℕ) (w : World) : Prop :=
  match w.db.problems.find? problemID with
  | some problem => (round.id, problem.id) ∉ w.db.roundProblems
  | none => ∀ problem ∈ w.db.problems.rows, (round.id, problem.id) ∉ w.db.roundProblems

/-- The round is loaded, and the submission is turned down: the round is not running; or its problem
is not one of the round; or the problem is, but the author takes no part in the round. -/
def TurnsDown (env : Env) (params : RoundSubmissionParameters) (author : AuthID) (w : World) :
    Prop :=
  env.fails .findRound = false ∧ ∃ round, w.db.rounds.find? params.roundID = some round ∧
    (round.status ≠ .started ∨
      env.fails .findProblem = false ∧ env.fails .findProblemSet = false ∧
        (Stray round params.problemID w ∨
          (∃ problem, w.db.problems.find? params.problemID = some problem ∧
            (round.id, problem.id) ∈ w.db.roundProblems) ∧
          env.fails .findParticipant = false ∧
            ∀ p ∈ w.db.participants.rows,
              ¬ (p.participantAuthID = author ∧ p.roundID = params.roundID)))

/-- The call is refused by a pointer with status 400, and changes nothing, when `p` holds, and
raises no pointer otherwise. -/
structure RefusesByPointer {α : Type} (p : Prop) (x : Service α) (w : World) : Prop where
  refused : p → ∃ text, x.run w = (.err (.pointer ⟨400, text⟩), w)
  otherwise : ¬ p → ∀ e, (x.run w).1 = .err e → e.NotPointer

namespace RefusesByPointer

variable {α β : Type} {p q : Prop} {x : Service α} {w : World}

/-- A refusal by a pointer, where one is due. -/
theorem fail (hp : p) (text : String) :
    RefusesByPointer p (Call.fail (.pointer ⟨400, text⟩) : Service α) w where
  refused _ := ⟨text, rfl⟩
  otherwise hnot := absurd hp hnot

/-- A call that raises no pointers, where none is due. -/
theorem of_raises (hp : ¬ p) (hx : Call.Raises GoError.NotPointer x) : RefusesByPointer p x w where
  refused h := absurd h hp
  otherwise _ := hx w

/-- The same condition in other words. -/
theorem congr (h : p ↔ q) (hx : RefusesByPointer q x w) : RefusesByPointer p x w where
  refused hp := hx.refused (h.mp hp)
  otherwise hp := hx.otherwise fun hq => hp (h.mpr hq)

/-- After a query, it depends on what the query found; a query that fails is no refusal. -/
theorem io_read {fails : Bool} {g : World → α} {f : α → Service β}
    (h : RefusesByPointer p (f (g w)) w) :
    RefusesByPointer (fails = false ∧ p) (Call.io fails .io (Call.read g) >>= f) w := by
  cases fails with
  | false => exact congr (and_iff_right rfl) ⟨h.refused, h.otherwise⟩
  | true =>
    refine ⟨fun hp => absurd hp.1 Bool.false_ne_true.symm, fun _ e he => ?_⟩
    cases he
    trivial

/-- After a call that returns and changes nothing, it depends on what follows. -/
theorem after {f : α → Service β} {a : α} (hrun : x.run w = (.ok a, w))
    (h : RefusesByPointer p (f a) w) : RefusesByPointer p (x >>= f) w where
  refused hp := by
    rw [Call.bind_ok hrun]
    exact h.refused hp
  otherwise hp := by
    rw [Call.bind_ok hrun]
    exact h.otherwise hp

/-- A call that raises no pointer adds nothing. -/
theorem bind (hx : RefusesByPointer p x w) {f : α → Service β}
    (hf : ∀ a, Call.Raises GoError.NotPointer (f a)) : RefusesByPointer p (x >>= f) w where
  refused hp := by
    obtain ⟨text, hrun⟩ := hx.refused hp
    exact ⟨text, Call.bind_err hrun f⟩
  otherwise hp e he := by
    have hnot := hx.otherwise hp
    rcases hrun : x.run w with ⟨a | e' | _, w'⟩
    · rw [Call.bind_ok hrun] at he
      exact hf a w' e he
    · rw [Call.bind_err hrun] at he
      rw [hrun] at hnot
      cases he
      exact hnot e rfl
    · rw [Call.bind_panic hrun] at he
      cases he

end RefusesByPointer

section Submission

variable (env : Env) (params : RoundSubmissionParameters) (author : AuthID) (w : World)

/-- The checks refuse by a pointer what a round turns down. -/
theorem checkSubmission_refuses :
    RefusesByPointer (TurnsDown env params author w) (checkSubmission env params author) w := by
  unfold TurnsDown checkSubmission
  apply RefusesByPointer.io_read
  cases hround : w.db.rounds.find? params.roundID with
  | none =>
    refine RefusesByPointer.of_raises ?_ Call.Raises.crash
    rintro ⟨_, h, -⟩
    cases h
  | some round =>
  simp only [Option.some.injEq, exists_eq_left']
  -- A round that is not running.
  by_cases hstarted : round.status = .started
  swap
  · split_ifs with hcreated hended
    · exact RefusesByPointer.fail (Or.inl hstarted) _
    · exact RefusesByPointer.fail (Or.inl hstarted) _
    · cases hstatus : round.status with
      | created => exact absurd hstatus hcreated
      | ended => exact absurd hstatus hended
      | started => exact absurd hstatus hstarted
  rw [if_neg (by rw [hstarted]; decide), if_neg (by rw [hstarted]; decide)]
  refine RefusesByPointer.congr (or_iff_right (not_not_intro hstarted)) ?_
  apply RefusesByPointer.io_read
  apply RefusesByPointer.io_read
  unfold Stray
  cases hproblem : w.db.problems.find? params.problemID with
  | none =>
    -- Without the problem, only an empty problem set is refused; any other is a nil pointer.
    dsimp only
    split_ifs with hempty
    · refine RefusesByPointer.fail (Or.inl fun problem hmem hof => ?_) _
      have hset : problem ∈ w.db.problemSet env.problems round.id :=
        mem_problemSet.mpr ⟨hmem, hof⟩
      rw [hempty] at hset
      cases hset
    · refine RefusesByPointer.of_raises ?_ Call.Raises.crash
      rintro (h | ⟨⟨_, h, -⟩, -⟩)
      · refine hempty (List.eq_nil_iff_forall_not_mem.mpr fun p hp => ?_)
        exact h p (mem_problemSet.mp hp).1 (mem_problemSet.mp hp).2
      · cases h
  | some problem =>
  dsimp only
  cases hidx : (w.db.problemSet env.problems round.id).findIdx? fun p => p.id = problem.id with
  | none =>
    refine RefusesByPointer.fail (Or.inl fun hof => ?_) _
    obtain ⟨k, hk⟩ := findIdx?_problem.mpr
      ⟨problem, mem_problemSet.mpr ⟨(Table.find?_eq_some.mp hproblem).1, hof⟩, rfl⟩
    rw [hidx] at hk
    cases hk
  | some problemIndex =>
  have hof : (round.id, problem.id) ∈ w.db.roundProblems := by
    obtain ⟨p, hp, hid⟩ := findIdx?_problem.mp ⟨problemIndex, hidx⟩
    rw [← hid]
    exact (mem_problemSet.mp hp).2
  -- The problem is one of the round, and so it depends on the author.
  refine RefusesByPointer.congr
    ((or_iff_right (not_not_intro hof)).trans (and_iff_right ⟨problem, rfl, hof⟩)) ?_
  apply RefusesByPointer.io_read
  cases hparticipant : (env.participants.order w.db.participants.rows).find? fun p =>
      p.participantAuthID = author ∧ p.roundID = params.roundID with
  | none =>
    refine RefusesByPointer.fail (fun p hp hauthor => ?_) _
    have hnone := List.find?_eq_none.mp hparticipant p (env.participants.mem_order.mpr hp)
    exact hnone (decide_eq_true hauthor)
  | some participant =>
    refine RefusesByPointer.of_raises (fun h => ?_) ?_
    · have hauthor := List.find?_some hparticipant
      exact h participant (env.participants.mem_order.mp (List.mem_of_find?_eq_some hparticipant))
        (of_decide_eq_true hauthor)
    · exact Call.Raises.bind (raises_io _ (Call.Raises.read _)) fun _ => Call.Raises.pure _

/-- After the checks, the round service raises no pointer. -/
theorem createRoundSubmission_refuses :
    RefusesByPointer (TurnsDown env params author w) (createRoundSubmission env params author)
      w := by
  refine (checkSubmission_refuses env params author w).bind fun ctx => ?_
  refine Call.Raises.bind (raises_io _ ?_) ?_
  · exact Call.Raises.bind (Call.Raises.read _) fun _ => Call.Raises.bind (Call.Raises.read _)
      fun _ => Call.Raises.bind (Call.Raises.write _) fun _ => Call.Raises.pure _
  rintro ⟨rs, submission⟩
  refine Call.Raises.bind (raises_io _ (Call.Raises.pure _)) fun _ => ?_
  refine Call.Raises.bind (raises_io _ (Call.Raises.pure _)) fun _ => ?_
  refine Call.Raises.bind (fun w' e he => ?_) fun _ => Call.Raises.pure _
  -- What is published is only logged when it fails.
  obtain ⟨w'', hrun, -⟩ := publishSubmission_run env params ctx author rs submission w'
  rw [hrun] at he
  cases he

/-- The last round of the room, as it is loaded, turns the submission down. -/
def RoomTurnsDown (roomID : RoomID) : Prop :=
  ∃ room round, Findable env roomID w.db room ∧
    (w.db.roundsOf env.rounds room.id).getLast? = some round ∧
    TurnsDown env { params with roundID := round.id } author w

/-- The room service adds no pointer of its own. -/
theorem createRoomSubmission_refuses (roomID : RoomID) :
    RefusesByPointer (RoomTurnsDown env params author w roomID)
      (createRoomSubmission env roomID params author) w := by
  unfold createRoomSubmission
  -- A room that is not found is an error by value.
  by_cases hfound : ∃ room, Findable env roomID w.db room
  swap
  · refine ⟨fun ⟨room, _, h, _⟩ => absurd ⟨room, h⟩ hfound, fun _ e he => ?_⟩
    obtain ⟨e', hrun⟩ := findRoomByID_fails fun room h => hfound ⟨room, h⟩
    have hnot := raises_findRoomByID env roomID w e'
    rw [Call.bind_err hrun] at he
    rw [hrun] at hnot
    cases he
    exact hnot rfl
  obtain ⟨room, hfound⟩ := hfound
  apply RefusesByPointer.after (findRoomByID_run hfound)
  dsimp only
  cases hlast : (w.db.roundsOf env.rounds room.id).getLast? with
  | none =>
    refine RefusesByPointer.of_raises ?_ (Call.Raises.fail trivial)
    rintro ⟨room', round, hroom', h, -⟩
    rw [hfound.unique hroom' rfl, hlast] at h
    cases h
  | some round =>
    refine RefusesByPointer.congr ⟨?_, fun h => ⟨room, round, hfound, hlast, h⟩⟩
      (createRoundSubmission_refuses env { params with roundID := round.id } author w)
    rintro ⟨room', r, hroom', h, hdown⟩
    rw [hfound.unique hroom' rfl, hlast] at h
    cases h
    exact hdown

end Submission

end Bsg.Central
