import Bsg.Central.CreateRoundTrace
import Bsg.Central.Membership

/-!
# Deleting a room completely, or not at all

The data of a room is spread over six tables and four kinds of keys, and `deleteRoom` removes it
statement by statement, without a transaction. A deletion that succeeds should leave nothing that
refers to the room or to its rounds (`Forgets`), and one that fails should leave the room, its
members and its rounds as they were (`Retains`).

`completeOrNothing_iff` says when both are so. A success leaves the submissions and the key of the
most recent round behind, the leaderboards that could not be deleted, and the pointers of users to
the room whose keys were not found or not deleted (`Traceless`). A failure leaves the members and the
rounds only when the join timestamps could not be deleted, or when there were none and no round was
deleted either (`Untouched`).
-/

namespace Bsg.Central

open Bsg.Foundations

/-! ## What is expected -/

/-- The round is one of the room. -/
def DB.OfRoom (db : DB) (roomID : RoomID) (roundID : ℕ) : Prop :=
  ∃ round ∈ db.rounds.rows, round.roomID = roomID ∧ round.id = roundID

/-- Nothing refers to the room any more, or to the rounds that it had. -/
structure Forgets (roomID : RoomID) (w w' : World) : Prop where
  rooms : ∀ room ∈ w'.db.rooms, room.id ≠ roomID
  rounds : ∀ round ∈ w'.db.rounds.rows, round.roomID ≠ roomID
  roundProblems : ∀ rp ∈ w'.db.roundProblems, ¬ w.db.OfRoom roomID rp.1
  participants : ∀ p ∈ w'.db.participants.rows, ¬ w.db.OfRoom roomID p.roundID
  roundSubmissions : ∀ rs ∈ w'.db.roundSubmissions.rows, ¬ w.db.OfRoom roomID rs.roundID
  submissions : ∀ s ∈ w'.db.submissions.rows, s.submissionOwnerType = ownerRoundSubmissions →
    ∀ rs ∈ w.db.roundSubmissions.rows, w.db.OfRoom roomID rs.roundID → rs.id ≠ s.submissionOwnerID
  joinTimestamp : w'.redis.joinTimestamp roomID = .empty
  activeRoom : ∀ userID, w'.redis.activeRoom userID ≠ some roomID
  leaderboard : ∀ roundID, w.db.OfRoom roomID roundID → w'.redis.leaderboard roundID = .empty
  mostRecentRound : w'.redis.mostRecentRound roomID = none ∧
    ∀ other roundID, w'.redis.mostRecentRound other = some roundID → ¬ w.db.OfRoom roomID roundID

/-- The room, its members and its rounds are as before. -/
structure Retains (roomID : RoomID) (w w' : World) : Prop where
  room : w'.db.roomByID roomID = w.db.roomByID roomID
  members : w'.redis.joinTimestamp roomID = w.redis.joinTimestamp roomID
  rounds : w'.roundsIn roomID = w.roundsIn roomID

/-- The room, as it is loaded with its rounds, is deleted completely or not at all. -/
def CompleteOrNothing (env : Env) (room : Room) (w : World) : Prop :=
  ∀ o w', (deleteRoom env room (w.db.roundsOf env.rounds room.id)).run w = (o, w') →
    (o = .ok () → Forgets room.id w w') ∧ ∀ e, o = .err e → Retains room.id w w'

/-! ## When it is so -/

/-- What a deletion does not remove is not there: submissions to the rounds, the key of the most
recent round, leaderboards that cannot be deleted, and pointers to the room of users whose keys are
not deleted with it. -/
structure Traceless (env : Env) (roomID : RoomID) (w : World) : Prop where
  submissions : ∀ s ∈ w.db.submissions.rows, s.submissionOwnerType = ownerRoundSubmissions →
    ∀ rs ∈ w.db.roundSubmissions.rows, w.db.OfRoom roomID rs.roundID → rs.id ≠ s.submissionOwnerID
  mostRecentRound : w.redis.mostRecentRound roomID = none ∧
    ∀ other roundID, w.redis.mostRecentRound other = some roundID → ¬ w.db.OfRoom roomID roundID
  leaderboard : ∀ roundID, w.db.OfRoom roomID roundID → w.redis.leaderboard roundID = .empty ∨
    ∃ round ∈ (w.db.roundsOf env.rounds roomID).zipIdx, round.1.id = roundID ∧
      env.fails (.delLeaderboard round.2) = false
  activeRoom : ∀ userID, w.redis.activeRoom userID = some roomID →
    forgotten env (w.membersToForget env roomID) userID = true

/-- Neither a member nor a round is deleted before the failure: the join timestamps cannot be deleted,
or there are none, and there is no round, or the first one cannot be deleted. What belongs to the
first round may be gone by then: its statements come one after the other. -/
def Untouched (env : Env) (roomID : RoomID) (w : World) : Prop :=
  env.fails .delJoin = true ∨ w.redis.joinTimestamp roomID = .empty ∧
    (w.roundsIn roomID = [] ∨ ¬ RoundDeletable env 0)

/-! ## Deleting the rounds -/

/-- The rows of some rounds are gone, with all that belongs to them but their submissions, and so
are those of their leaderboards that could be deleted. -/
structure Cleared (env : Env) (deleted : List (Round × ℕ)) (w w' : World) : Prop where
  rooms : w'.db.rooms = w.db.rooms
  submissions : w'.db.submissions = w.db.submissions
  rounds : ∀ r, r ∈ w'.db.rounds.rows ↔ r ∈ w.db.rounds.rows ∧ ∀ b ∈ deleted, r.id ≠ b.1.id
  roundProblems : ∀ rp, rp ∈ w'.db.roundProblems ↔
    rp ∈ w.db.roundProblems ∧ ∀ b ∈ deleted, rp.1 ≠ b.1.id
  participants : ∀ p, p ∈ w'.db.participants.rows ↔
    p ∈ w.db.participants.rows ∧ ∀ b ∈ deleted, p.roundID ≠ b.1.id
  roundSubmissions : ∀ rs, rs ∈ w'.db.roundSubmissions.rows ↔
    rs ∈ w.db.roundSubmissions.rows ∧ ∀ b ∈ deleted, rs.roundID ≠ b.1.id
  leaderboard : ∀ roundID, w'.redis.leaderboard roundID = .empty ↔
    w.redis.leaderboard roundID = .empty ∨
      ∃ b ∈ deleted, b.1.id = roundID ∧ env.fails (.delLeaderboard b.2) = false
  joinTimestamp : w'.redis.joinTimestamp = w.redis.joinTimestamp
  activeRoom : w'.redis.activeRoom = w.redis.activeRoom
  mostRecentRound : w'.redis.mostRecentRound = w.redis.mostRecentRound

/-- No round is cleared yet. -/
theorem Cleared.refl (env : Env) (w : World) : Cleared env [] w w := by
  constructor <;> simp

/-- One more round in front. -/
theorem Cleared.cons {env : Env} {round : Round × ℕ} {rounds : List (Round × ℕ)} {w₁ w₂ w₃ : World}
    (h : Cleared env [round] w₁ w₂) (h' : Cleared env rounds w₂ w₃) :
    Cleared env (round :: rounds) w₁ w₃ where
  rooms := h'.rooms.trans h.rooms
  submissions := h'.submissions.trans h.submissions
  rounds r := by
    rw [h'.rounds, h.rounds, List.forall_mem_singleton, List.forall_mem_cons, and_assoc]
  roundProblems rp := by
    rw [h'.roundProblems, h.roundProblems, List.forall_mem_singleton, List.forall_mem_cons, and_assoc]
  participants p := by
    rw [h'.participants, h.participants, List.forall_mem_singleton, List.forall_mem_cons, and_assoc]
  roundSubmissions rs := by
    rw [h'.roundSubmissions, h.roundSubmissions, List.forall_mem_singleton, List.forall_mem_cons,
      and_assoc]
  leaderboard roundID := by
    rw [h'.leaderboard, h.leaderboard, List.exists_mem_cons_iff, or_assoc]
    simp
  joinTimestamp := h'.joinTimestamp.trans h.joinTimestamp
  activeRoom := h'.activeRoom.trans h.activeRoom
  mostRecentRound := h'.mostRecentRound.trans h.mostRecentRound

section Rounds

variable {env : Env}

/-- The leaderboard of a round is deleted, unless that fails, and nothing else. -/
theorem deleteLeaderboard_run (env : Env) (i roundID : ℕ) (w : World) :
    ∃ w', (logged (deleteLeaderboard env i roundID)).run w = (.ok (), w') ∧ w'.db = w.db ∧
      w'.redis = { w.redis with leaderboard := w'.redis.leaderboard } ∧
      ∀ k, w'.redis.leaderboard k = .empty ↔
        w.redis.leaderboard k = .empty ∨ roundID = k ∧ env.fails (.delLeaderboard i) = false := by
  unfold deleteLeaderboard
  cases env.fails (.delLeaderboard i) with
  | true => exact ⟨w, rfl, rfl, rfl, by simp⟩
  | false =>
    refine ⟨_, rfl, rfl, rfl, fun k => ?_⟩
    show Function.update w.redis.leaderboard roundID .empty k = .empty ↔ _
    by_cases hk : k = roundID
    · rw [hk, Function.update_self]
      simp
    · rw [Function.update_of_ne hk]
      simp [Ne.symm hk]

/-- A round that can be deleted is. -/
theorem deleteRound_cleared {round : Round × ℕ} (h : RoundDeletable env round.2) (w : World) :
    ∃ w', (deleteRound env round).run w = (.ok (), w') ∧ Cleared env [round] w w' := by
  obtain ⟨hsubmissions, hparticipants, hproblems, hround⟩ := h
  -- The leaderboard goes first, if it goes at all; the four statements follow.
  obtain ⟨w₁, hboard, hdb, hredis, hleaderboard⟩ :=
    deleteLeaderboard_run env round.2 round.1.id w
  unfold deleteRound
  rw [hsubmissions, hparticipants, hproblems, hround, Call.bind_ok hboard]
  have hrooms : w₁.db.rooms = w.db.rooms := congrArg DB.rooms hdb
  have hstored : w₁.db.submissions = w.db.submissions := congrArg DB.submissions hdb
  have hjoin : w₁.redis.joinTimestamp = w.redis.joinTimestamp := by
    rw [hredis]
  have hactive : w₁.redis.activeRoom = w.redis.activeRoom := by rw [hredis]
  have hrecent : w₁.redis.mostRecentRound = w.redis.mostRecentRound := by
    rw [hredis]
  refine ⟨_, rfl, hrooms, hstored, fun r => ?_, fun rp => ?_, fun p => ?_, fun rs => ?_,
    fun k => ?_, hjoin, hactive, hrecent⟩
  · rw [← hdb]
    show r ∈ w₁.db.rounds.rows.filter _ ↔ _
    simp [List.mem_filter]
  · rw [← hdb]
    show rp ∈ w₁.db.roundProblems.filter _ ↔ _
    simp [List.mem_filter]
  · rw [← hdb]
    show p ∈ w₁.db.participants.rows.filter _ ↔ _
    simp [List.mem_filter]
  · rw [← hdb]
    show rs ∈ w₁.db.roundSubmissions.rows.filter _ ↔ _
    simp [List.mem_filter]
  · show w₁.redis.leaderboard k = .empty ↔ _
    rw [hleaderboard]
    simp

/-- Rounds that can be deleted are. -/
theorem deleteRounds_cleared : ∀ {rounds : List (Round × ℕ)},
    (∀ b ∈ rounds, RoundDeletable env b.2) → ∀ w, ∃ w',
      (Call.forEach rounds (deleteRound env)).run w = (.ok (), w') ∧ Cleared env rounds w w'
  | [], _, w => ⟨w, rfl, Cleared.refl env w⟩
  | b :: rounds, h, w => by
    obtain ⟨w₁, hfirst, hcleared⟩ := deleteRound_cleared (h b List.mem_cons_self) w
    obtain ⟨w', hrest, hcleared'⟩ :=
      deleteRounds_cleared (fun b' hb' => h b' (List.mem_cons_of_mem _ hb')) w₁
    exact ⟨w', (Call.bind_ok hfirst _).trans hrest, hcleared.cons hcleared'⟩

/-- A round that cannot be deleted stays, and so do the rooms and their members. -/
theorem deleteRound_stays {round : Round × ℕ} (h : ¬ RoundDeletable env round.2) (w : World) :
    ∃ e w', (deleteRound env round).run w = (.err e, w') ∧ w'.db.rooms = w.db.rooms ∧
      w'.db.rounds = w.db.rounds ∧ w'.redis.joinTimestamp = w.redis.joinTimestamp := by
  obtain ⟨w₁, hboard, hdb, hredis, -⟩ := deleteLeaderboard_run env round.2 round.1.id w
  have hjoin : w₁.redis.joinTimestamp = w.redis.joinTimestamp := by
    rw [hredis]
  unfold deleteRound
  rw [Call.bind_ok hboard]
  rw [← hdb, ← hjoin]
  -- The statements in order, up to the one that fails.
  cases hsubmissions : env.fails (.deleteRoundSubmissions round.2) with
  | true => exact ⟨_, _, rfl, rfl, rfl, rfl⟩
  | false =>
    cases hparticipants : env.fails (.deleteParticipants round.2) with
    | true => exact ⟨_, _, rfl, rfl, rfl, rfl⟩
    | false =>
      cases hproblems : env.fails (.deleteRoundProblems round.2) with
      | true => exact ⟨_, _, rfl, rfl, rfl, rfl⟩
      | false =>
        cases hround : env.fails (.deleteRound round.2) with
        | true => exact ⟨_, _, rfl, rfl, rfl, rfl⟩
        | false => exact absurd ⟨hsubmissions, hparticipants, hproblems, hround⟩ h

end Rounds

/-! ## Deleting the room -/

section Room

variable {env : Env} {room : Room} {w w' : World}

/-- The rounds of a room, as they are loaded. -/
theorem ofRoom_iff (env : Env) {roomID : RoomID} {roundID : ℕ} : w.db.OfRoom roomID roundID ↔
    ∃ b ∈ (w.db.roundsOf env.rounds roomID).zipIdx, b.1.id = roundID := by
  constructor
  · rintro ⟨round, hround, hof, hid⟩
    have hmem : round ∈ w.db.roundsOf env.rounds roomID :=
      env.rounds.mem_order.mpr (List.mem_filter.mpr ⟨hround, decide_eq_true hof⟩)
    obtain ⟨i, hi, hget⟩ := List.getElem_of_mem hmem
    refine ⟨(round, i), ?_, hid⟩
    rw [List.mem_zipIdx_iff_getElem?, ← hget]
    exact List.getElem?_eq_getElem hi
  · rintro ⟨b, hb, hid⟩
    have hmem := env.rounds.mem_order.mp (List.fst_mem_of_mem_zipIdx hb)
    obtain ⟨hround, hof⟩ := List.mem_filter.mp hmem
    exact ⟨b.1, hround, of_decide_eq_true hof, hid⟩

/-- A room for which nothing goes wrong is deleted, after its rounds. -/
theorem deleteRoom_run (room : Room)
    (h : Deletable env (w.db.roundsOf env.rounds room.id).length) : ∃ w₂,
      Cleared env (w.db.roundsOf env.rounds room.id).zipIdx (w.emptied env room.id) w₂ ∧
        (∀ r ∈ w₂.db.rounds.rows, r.roomID ≠ room.id) ∧
        (deleteRoom env room (w.db.roundsOf env.rounds room.id)).run w =
          (.ok (), { w₂ with db := w₂.db.deleteRoomRow room.id }) := by
  obtain ⟨hjoin, hrounds, hroom⟩ := h
  have hdeletable : ∀ b ∈ (w.db.roundsOf env.rounds room.id).zipIdx, RoundDeletable env b.2 :=
    fun b hb => hrounds b.2 (List.snd_lt_of_mem_zipIdx hb)
  obtain ⟨w₂, hloop, hcleared⟩ := deleteRounds_cleared hdeletable (w.emptied env room.id)
  have hnone : ∀ r ∈ w₂.db.rounds.rows, r.roomID ≠ room.id := by
    intro r hr hof
    obtain ⟨hold, hne⟩ := (hcleared.rounds r).mp hr
    obtain ⟨b, hb, hid⟩ := (ofRoom_iff env).mp ⟨r, hold, hof, rfl⟩
    exact hne b hb hid.symm
  have hfree := DB.roomInUse_eq_false hnone
  refine ⟨w₂, hcleared, hnone, ?_⟩
  unfold deleteRoom
  rw [Call.bind_ok (deleteJoinMembers_run hjoin room.id w), Call.bind_ok hloop, hroom,
    Call.io_false, Call.run_read_bind, hfree]
  rfl

/-- A deletion that succeeds leaves nothing of the room exactly when there was nothing that it does
not remove. -/
theorem forgets_iff (h : Deletable env (w.db.roundsOf env.rounds room.id).length)
    (hrun : (deleteRoom env room (w.db.roundsOf env.rounds room.id)).run w = (.ok (), w')) :
    Forgets room.id w w' ↔ Traceless env room.id w := by
  obtain ⟨w₂, hcleared, hnone, hrun'⟩ := deleteRoom_run room h
  cases hrun.symm.trans hrun'
  have hgone {k : ℕ} (hk : ∀ b ∈ (w.db.roundsOf env.rounds room.id).zipIdx, k ≠ b.1.id) :
      ¬ w.db.OfRoom room.id k := by
    intro hof
    obtain ⟨b, hb, hid⟩ := (ofRoom_iff env).mp hof
    exact hk b hb hid.symm
  have hactive (userID : AuthID) : w₂.redis.activeRoom userID =
      if forgotten env (w.membersToForget env room.id) userID then none
      else w.redis.activeRoom userID := by
    rw [hcleared.activeRoom]
    rfl
  have hrecent : w₂.redis.mostRecentRound = w.redis.mostRecentRound := hcleared.mostRecentRound
  have hsubmissions : w₂.db.submissions = w.db.submissions := hcleared.submissions
  constructor
  · intro hforgets
    constructor
    case submissions =>
      rw [← hsubmissions]
      exact hforgets.submissions
    case mostRecentRound =>
      rw [← hrecent]
      exact hforgets.mostRecentRound
    case leaderboard =>
      intro k hk
      exact (hcleared.leaderboard k).mp (hforgets.leaderboard k hk)
    case activeRoom =>
      -- A pointer that is not forgotten would still point to the room.
      intro userID huser
      by_contra hkept
      refine hforgets.activeRoom userID ?_
      show w₂.redis.activeRoom userID = _
      rw [hactive, if_neg hkept, huser]
  · intro htraceless
    constructor
    -- The rows of the room and of its rounds, which a deletion removes.
    case rooms => exact fun r hr => of_decide_eq_true (List.mem_filter.mp hr).2
    case rounds => exact fun r hr => hnone r (List.mem_filter.mp hr).1
    case roundProblems =>
      intro rp hrp
      exact hgone ((hcleared.roundProblems rp).mp (List.mem_filter.mp hrp).1).2
    case participants => exact fun p hp => hgone ((hcleared.participants p).mp hp).2
    case roundSubmissions => exact fun rs hrs => hgone ((hcleared.roundSubmissions rs).mp hrs).2
    case joinTimestamp =>
      show w₂.redis.joinTimestamp room.id = .empty
      rw [hcleared.joinTimestamp]
      exact Function.update_self _ _ _
    -- What it may leave behind.
    case submissions =>
      intro s hs
      refine htraceless.submissions s ?_
      rw [← hsubmissions]
      exact hs
    case activeRoom =>
      intro userID huser
      have hpointer : w₂.redis.activeRoom userID = some room.id := huser
      rw [hactive] at hpointer
      split_ifs at hpointer with hforgotten
      exact hforgotten (htraceless.activeRoom userID hpointer)
    case leaderboard =>
      intro k hk
      exact (hcleared.leaderboard k).mpr (htraceless.leaderboard k hk)
    case mostRecentRound =>
      show w₂.redis.mostRecentRound room.id = none ∧ ∀ other roundID,
        w₂.redis.mostRecentRound other = some roundID → ¬ w.db.OfRoom room.id roundID
      rw [hrecent]
      exact htraceless.mostRecentRound

/-- A deletion that does not get past the first round leaves the rooms and the rounds. -/
theorem deleteRoom_stays (hjoin : env.fails .delJoin = false)
    (hfails : ¬ Deletable env (w.db.roundsOf env.rounds room.id).length)
    (hfirst : w.db.roundsOf env.rounds room.id = [] ∨ ¬ RoundDeletable env 0) :
    ∃ e w', (deleteRoom env room (w.db.roundsOf env.rounds room.id)).run w = (.err e, w') ∧
      w'.db.rooms = w.db.rooms ∧ w'.db.rounds = w.db.rounds ∧
      w'.redis.joinTimestamp = (w.emptied env room.id).redis.joinTimestamp := by
  unfold deleteRoom
  rw [Call.bind_ok (deleteJoinMembers_run hjoin room.id w)]
  -- Without rounds it is the row of the room that cannot be deleted.
  cases hloaded : w.db.roundsOf env.rounds room.id with
  | nil =>
    have hroom : env.fails .deleteRoom = true := by
      by_contra hworks
      rw [hloaded] at hfails
      exact hfails ⟨hjoin, fun i hi => absurd hi (Nat.not_lt_zero i), Bool.eq_false_iff.mpr hworks⟩
    rw [hroom]
    exact ⟨.io, w.emptied env room.id, rfl, rfl, rfl, rfl⟩
  | cons round rounds =>
    have hstays : ¬ RoundDeletable env ((round, 0) : Round × ℕ).2 :=
      hfirst.resolve_left fun hnil => by
        rw [hloaded] at hnil
        cases hnil
    obtain ⟨e, w', hrun, hrooms, hrounds, hjoined⟩ :=
      deleteRound_stays hstays (w.emptied env room.id)
    rw [List.zipIdx_cons, Call.forEach_cons]
    exact ⟨e, w', Call.bind_err (Call.bind_err hrun _) _, hrooms, hrounds, hjoined⟩

/-- Once the first round is deleted, it is gone, whatever comes after. -/
theorem deleteRoom_first (hjoin : env.fails .delJoin = false) {round : Round} {rounds : List Round}
    (hloaded : w.db.roundsOf env.rounds room.id = round :: rounds) (hfirst : RoundDeletable env 0) :
    round ∉ ((deleteRoom env room (w.db.roundsOf env.rounds room.id)).run w).2.db.rounds.rows := by
  have hdeletable : RoundDeletable env ((round, 0) : Round × ℕ).2 := hfirst
  obtain ⟨w₁, hrun, hcleared⟩ := deleteRound_cleared hdeletable (w.emptied env room.id)
  have hgone : round ∉ w₁.db.rounds.rows := fun hmem =>
    ((hcleared.rounds round).mp hmem).2 _ (List.mem_singleton_self _) rfl
  -- What comes after only takes rows away.
  have hrest : Call.Within Shrinks (do
      Call.forEach (rounds.zipIdx 1) (deleteRound env)
      Call.io (env.fails .deleteRoom) .io <| do
        if ← Call.read fun w => w.db.roomInUse room.id then
          .fail (.other "constraint violation")
        else writeDB fun db => db.deleteRoomRow room.id : Service Unit) := by
    refine Call.Within.bind Shrinks.trans (Call.Within.forEach Shrinks.refl Shrinks.trans
      fun b _ => shrinks_deleteRound env b) fun _ => shrinks_io _ ?_
    refine Call.Within.bind Shrinks.trans (Call.Within.read Shrinks.refl _) fun inUse => ?_
    refine Call.Within.ite _ (Call.Within.fail Shrinks.refl _) ?_
    exact Call.Within.write fun w => ⟨List.filter_sublist, List.Sublist.refl _, rfl, rfl⟩
  unfold deleteRoom
  rw [Call.bind_ok (deleteJoinMembers_run hjoin room.id w), hloaded, List.zipIdx_cons,
    Call.forEach_cons, Call.run_bind_assoc, Call.bind_ok hrun]
  exact fun hmem => hgone ((hrest w₁).rounds.subset hmem)

/-- A deletion that fails leaves the room, its members and its rounds exactly when it fails before
one of them is deleted. -/
theorem retains_iff (h : ¬ Deletable env (w.db.roundsOf env.rounds room.id).length) {e : GoError}
    (hrun : (deleteRoom env room (w.db.roundsOf env.rounds room.id)).run w = (.err e, w')) :
    Retains room.id w w' ↔ Untouched env room.id w := by
  have hmembers := deleteRoom_members env room (w.db.roundsOf env.rounds room.id) w
  rw [hrun] at hmembers
  rcases hmembers with ⟨hjoin, hsame⟩ | ⟨hjoin, hsame⟩
  · obtain rfl : w' = w := congrArg Prod.snd hsame
    exact iff_of_true ⟨rfl, rfl, rfl⟩ (Or.inl hjoin)
  -- The members are gone, so there were none if they are as before.
  have hemptied : w'.redis.joinTimestamp room.id = .empty := by
    have hjoined : w'.redis.joinTimestamp = (w.emptied env room.id).redis.joinTimestamp :=
      hsame.joinTimestamp
    rw [hjoined]
    exact Function.update_self _ _ _
  have hloaded : w.db.roundsOf env.rounds room.id = [] ↔ w.roundsIn room.id = [] := by
    unfold DB.roundsOf World.roundsIn
    rw [← List.length_eq_zero_iff, Arrangement.length_order, List.length_eq_zero_iff]
  constructor
  · intro hretains
    refine Or.inr ⟨hretains.members.symm.trans hemptied, ?_⟩
    by_contra hgoes
    push Not at hgoes
    obtain ⟨hsome, hfirst⟩ := hgoes
    cases hlist : w.db.roundsOf env.rounds room.id with
    | nil => exact hsome (hloaded.mp hlist)
    | cons round rounds =>
      -- The first round would be gone, though it was there before.
      have hgone := deleteRoom_first hjoin hlist hfirst
      rw [hrun] at hgone
      have hmem : round ∈ w.roundsIn room.id := by
        have hround : round ∈ w.db.roundsOf env.rounds room.id := by simp [hlist]
        exact env.rounds.mem_order.mp hround
      rw [← hretains.rounds] at hmem
      exact hgone (List.mem_filter.mp hmem).1
  · rintro (hfails | ⟨hnobody, hfirst⟩)
    · rw [hjoin] at hfails
      cases hfails
    · obtain ⟨e', w'', hrun', hrooms, hrounds, -⟩ :=
        deleteRoom_stays hjoin h (hfirst.imp_left hloaded.mpr)
      cases hrun.symm.trans hrun'
      refine ⟨?_, hemptied.trans hnobody.symm, ?_⟩
      · unfold DB.roomByID
        rw [hrooms]
      · unfold World.roundsIn
        rw [hrounds]

end Room

/-- A room is deleted completely or not at all exactly when, if all goes well, there is nothing that
a deletion leaves behind, and otherwise neither a member nor a round is deleted before the failure.
-/
theorem completeOrNothing_iff (env : Env) (room : Room) (w : World) :
    CompleteOrNothing env room w ↔
      (Deletable env (w.db.roundsOf env.rounds room.id).length → Traceless env room.id w) ∧
        (¬ Deletable env (w.db.roundsOf env.rounds room.id).length → Untouched env room.id w) := by
  have hall : ∀ r ∈ w.db.rounds.rows, r.roomID = room.id →
      r ∈ w.db.roundsOf env.rounds room.id := fun r hr hof =>
    env.rounds.mem_order.mpr (List.mem_filter.mpr ⟨hr, decide_eq_true hof⟩)
  rcases deleteRoom_cases env room (w.db.roundsOf env.rounds room.id) w hall with
    ⟨hdeletable, w', hrun, -⟩ | ⟨hfails, e, w', hrun, -⟩
  · rw [← forgets_iff hdeletable hrun]
    constructor
    · exact fun h => ⟨fun _ => (h _ _ hrun).1 rfl, fun hnot => absurd hdeletable hnot⟩
    · rintro ⟨hforgets, -⟩ o w'' hrun'
      cases hrun.symm.trans hrun'
      exact ⟨fun _ => hforgets hdeletable, fun e herr => by cases herr⟩
  · rw [← retains_iff hfails hrun]
    constructor
    · exact fun h => ⟨fun hdeletable => absurd hdeletable hfails, fun _ => (h _ _ hrun).2 e rfl⟩
    · rintro ⟨-, hretains⟩ o w'' hrun'
      cases hrun.symm.trans hrun'
      exact ⟨fun hok => (by cases hok), fun _ _ => hretains hfails⟩

/-- The key of the most recent round outlives its room. -/
theorem not_completeOrNothing_recent :
    ¬ CompleteOrNothing (Env.faultless 10) ⟨roomOne, host, false, isUUID_roomOne⟩ World.recent := by
  intro h
  have hdeletable : Deletable (Env.faultless 10)
      (World.recent.db.roundsOf (Env.faultless 10).rounds roomOne).length :=
    ⟨rfl, fun _ _ => ⟨rfl, rfl, rfl, rfl⟩, rfl⟩
  obtain ⟨w₂, -, -, hrun⟩ := deleteRoom_run ⟨roomOne, host, false, isUUID_roomOne⟩ hdeletable
  have htraceless := (forgets_iff hdeletable hrun).mp ((h _ _ hrun).1 rfl)
  have hkey : World.recent.redis.mostRecentRound roomOne = some 1 :=
    Function.update_self (β := fun _ : RoomID => Option ℕ) roomOne (some 1) fun _ => none
  rw [htraceless.mostRecentRound.1] at hkey
  cases hkey

end Bsg.Central
