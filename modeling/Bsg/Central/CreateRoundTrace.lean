import Bsg.Central.RoomSteps
import Bsg.Central.Selecting

/-!
# What a failed creation of a round leaves behind

`createRound` inserts the row of the round before it selects the problems. Once the row is there, no
failure removes it, unless the room had no round before. So a creation that returns an error leaves
no trace exactly when it is refused before the insertion (`Admitted`), or nothing goes wrong after
it (`Completes`).
-/

namespace Bsg.Central

open Bsg.Foundations

/-! ## The two parts of a creation -/

/-- Nothing keeps the row of the new round from being inserted. -/
def Admitted (env : Env) (maxNumRoundsPerRoom : ℤ) (roomID : RoomID) (db : DB) : Prop :=
  ∃ room, Findable env roomID db room ∧ env.fails .countRounds = false ∧
    (db.openRounds room.id : ℤ) < maxNumRoundsPerRoom ∧ env.fails .insertRound = false

/-- What follows the insertion in the round service succeeds. -/
def Completes (env : Env) (params : RoundCreationParameters) (db : DB) : Prop :=
  Selectable env params db ∧ env.fails .appendProblems = false ∧
    env.fails .setMostRecentRound = false

/-- The row of the new round is inserted, and at most its problem set and the key of the most recent
round are written besides. -/
structure Inserts (env : Env) (duration : ℤ) (roomID : RoomID) (w w' : World) : Prop where
  rounds : w'.db.rounds = (w.db.addRound env duration roomID).rounds
  db : w'.db = { w.db with rounds := w'.db.rounds, roundProblems := w'.db.roundProblems }
  redis : w'.redis = { w.redis with mostRecentRound := w'.redis.mostRecentRound }
  tasks : w'.tasks = w.tasks
  expiryTasks : w'.expiryTasks = w.expiryTasks
  sent : w'.sent = w.sent

/-- Without the row the round service does nothing more. -/
theorem roundServiceCreateRound_fails {env : Env} (h : env.fails .insertRound = true)
    (params : RoundCreationParameters) (roomID : RoomID) (w : World) :
    (roundServiceCreateRound env params roomID).run w = (.err .io, w) := by
  unfold roundServiceCreateRound insertRound
  rw [h]
  rfl

/-- The round service inserts the row, and returns when the rest succeeds too. -/
theorem roundServiceCreateRound_cases {env : Env} (h : env.fails .insertRound = false)
    (params : RoundCreationParameters) (roomID : RoomID) (w : World) :
    ∃ w', Inserts env params.duration roomID w w' ∧
      (Completes env params w.db ∧ (∃ r, (roundServiceCreateRound env params roomID).run w =
          (.ok r, w')) ∨
        ¬ Completes env params w.db ∧ ∃ e, (roundServiceCreateRound env params roomID).run w =
          (.err e, w')) := by
  let w₁ : World := { w with db := w.db.addRound env params.duration roomID }
  have hinsert : (insertRound env params.duration roomID).run w =
      (.ok (newRound env.now params.duration roomID (w.db.rounds.fresh env.roundHint)), w₁) :=
    insertRound_run h params.duration roomID w
  -- The selection only looks.
  have hselect : Looks (selectProblems env params) w₁ (Selectable env params w.db) :=
    looks_selectProblems params
  unfold roundServiceCreateRound
  rw [Call.bind_ok hinsert]
  rcases hselect with ⟨hselectable, ⟨problemSet, fallbackUsed⟩, hrun⟩ | ⟨hselectable, e, hrun⟩
  · rw [Call.bind_ok hrun]
    cases happend : env.fails .appendProblems with
    | true =>
      refine ⟨w₁, ⟨rfl, rfl, rfl, rfl, rfl, rfl⟩, Or.inr ⟨fun hc => ?_, _, rfl⟩⟩
      simp [hc.2.1] at happend
    | false =>
      cases hset : env.fails .setMostRecentRound with
      | true =>
        refine ⟨_, ?_, Or.inr ⟨fun hc => by simp [hc.2.2] at hset, _, rfl⟩⟩
        exact ⟨rfl, rfl, rfl, rfl, rfl, rfl⟩
      | false =>
        refine ⟨_, ?_, Or.inl ⟨⟨hselectable, happend, hset⟩, _, rfl⟩⟩
        exact ⟨rfl, rfl, rfl, rfl, rfl, rfl⟩
  · exact ⟨w₁, ⟨rfl, rfl, rfl, rfl, rfl, rfl⟩,
      Or.inr ⟨fun hc => hselectable hc.1, e, Call.bind_err hrun _⟩⟩

/-- How the creation of a round ends: refused, done, or failed after the row was inserted. Without
success nothing more changes, except that the room is deleted when it had no round. -/
theorem createRound_cases (env : Env) (maxNumRoundsPerRoom : ℤ) (params : RoundCreationParameters)
    (roomID : RoomID) (w : World) :
    (¬ Admitted env maxNumRoundsPerRoom roomID w.db ∧
      ∃ e w', (createRound env maxNumRoundsPerRoom params roomID).run w = (.err e, w') ∧
        (w' = w ∨ (∃ room, Findable env roomID w.db room ∧ w.db.roundsOf env.rounds room.id = []) ∧
          Shrinks w w')) ∨
    Admitted env maxNumRoundsPerRoom roomID w.db ∧ ∃ room, Findable env roomID w.db room ∧
      ∃ w₁, Inserts env params.duration room.id w w₁ ∧
        ((Completes env params w.db ∧ env.fails .appendRound = false) ∧
          (∃ r, (createRound env maxNumRoundsPerRoom params roomID).run w = (.ok r, w₁)) ∨
        ¬ (Completes env params w.db ∧ env.fails .appendRound = false) ∧
          ∃ e w₂, (createRound env maxNumRoundsPerRoom params roomID).run w = (.err e, w₂) ∧
            (w₂ = w₁ ∨ w.db.roundsOf env.rounds room.id = [] ∧ Shrinks w₁ w₂)) := by
  unfold createRound
  -- The checks: the room, the number of its rounds, and the row of the round.
  by_cases hfind : ∃ room, Findable env roomID w.db room
  swap
  · obtain ⟨e, hrun⟩ := findRoomByID_fails fun room h => hfind ⟨room, h⟩
    refine Or.inl ⟨?_, e, w, Call.bind_err hrun _, Or.inl rfl⟩
    rintro ⟨room, hroom, -⟩
    exact hfind ⟨room, hroom⟩
  obtain ⟨room, hroom⟩ := hfind
  have hadmitted : Admitted env maxNumRoundsPerRoom roomID w.db → env.fails .countRounds = false ∧
      (w.db.openRounds room.id : ℤ) < maxNumRoundsPerRoom ∧ env.fails .insertRound = false := by
    rintro ⟨room', hroom', hchecks⟩
    rwa [hroom.unique hroom' rfl] at hchecks
  rw [Call.bind_ok (findRoomByID_run hroom)]
  cases hcount : env.fails .countRounds with
  | true =>
    have hfails := checkRoundLimitExceeded_fails hcount maxNumRoundsPerRoom room w
    refine Or.inl ⟨fun h => ?_, _, w, Call.bind_err hfails _, Or.inl rfl⟩
    exact Bool.false_ne_true ((hadmitted h).1.symm.trans hcount)
  | false =>
    rw [Call.bind_ok (checkRoundLimitExceeded_run hcount maxNumRoundsPerRoom room w)]
    by_cases hopen : (w.db.openRounds room.id : ℤ) < maxNumRoundsPerRoom
    swap
    · rw [decide_eq_true (not_lt.mp hopen), if_pos rfl]
      exact Or.inl ⟨fun h => hopen (hadmitted h).2.1, _, w, rfl, Or.inl rfl⟩
    rw [decide_eq_false (not_le.mpr hopen), if_neg Bool.false_ne_true]
    cases hinsert : env.fails .insertRound with
    | true =>
      rw [Call.attempt_err (roundServiceCreateRound_fails hinsert params room.id w)]
      obtain ⟨w', hclean, hw'⟩ := cleanUpRoom_run env roomID room
        (w.db.roundsOf env.rounds room.id) w
      refine Or.inl ⟨fun h => ?_, _, w', Call.bind_ok hclean _, ?_⟩
      · exact Bool.false_ne_true ((hadmitted h).2.2.symm.trans hinsert)
      · exact hw'.imp_right fun h => ⟨⟨room, hroom, h.1⟩, h.2⟩
    | false =>
      -- The row is there; what fails from here on leaves it.
      obtain ⟨w₁, hinserts, ⟨hcompletes, ⟨round, fallbackUsed⟩, hrun⟩ | ⟨hcompletes, e, hrun⟩⟩ :=
        roundServiceCreateRound_cases hinsert params room.id w
      · rw [Call.attempt_ok hrun]
        refine Or.inr ⟨⟨room, hroom, hcount, hopen, hinsert⟩, room, hroom, w₁, hinserts, ?_⟩
        cases happend : env.fails .appendRound with
        | true => exact Or.inr ⟨by simp, _, w₁, rfl, Or.inl rfl⟩
        | false => exact Or.inl ⟨⟨hcompletes, rfl⟩, _, rfl⟩
      · rw [Call.attempt_err hrun]
        refine Or.inr ⟨⟨room, hroom, hcount, hopen, hinsert⟩, room, hroom, w₁, hinserts, Or.inr ?_⟩
        obtain ⟨w₂, hclean, hw₂⟩ := cleanUpRoom_run env roomID room
          (w.db.roundsOf env.rounds room.id) w₁
        exact ⟨fun h => hcompletes h.1, e, w₂, (Call.bind_ok hclean _), hw₂⟩

/-! ## The trace of a failed creation -/

/-- The rounds of a room. -/
def World.roundsIn (w : World) (roomID : RoomID) : List Round :=
  w.db.rounds.rows.filter fun r => decide (r.roomID = roomID)

/-- The rounds of the room are as before. Hence none is counted against the limit, or started, that
would not have been before. -/
structure NoTrace (roomID : RoomID) (w w' : World) : Prop where
  rounds : w'.roundsIn roomID = w.roundsIn roomID
  limit : ∀ (env : Env) (maxNumRoundsPerRoom : ℤ) (room : Room), room.id = roomID →
    ((checkRoundLimitExceeded env maxNumRoundsPerRoom room).run w').1 =
      ((checkRoundLimitExceeded env maxNumRoundsPerRoom room).run w).1
  start : ∀ (env : Env) (userID : AuthID),
    ((findRoundToStart env roomID userID).run w').1 =
      ((findRoundToStart env roomID userID).run w).1

/-- No step leaves a trace. -/
theorem NoTrace.refl (roomID : RoomID) (w : World) : NoTrace roomID w w :=
  ⟨rfl, fun _ _ _ _ => rfl, fun _ _ => rfl⟩

/-- A creation that returns an error leaves no trace in the room that it names. -/
def FailsCleanly (env : Env) (maxNumRoundsPerRoom : ℤ) (params : RoundCreationParameters)
    (roomID : RoomID) (w : World) : Prop :=
  ∀ e w', (createRound env maxNumRoundsPerRoom params roomID).run w = (.err e, w') →
    ∀ id, env.uuid.parse roomID = some id → NoTrace id w w'

/-- An inserted row is the last of its room. -/
theorem Inserts.roundsIn {env : Env} {duration : ℤ} {roomID : RoomID} {w w' : World}
    (h : Inserts env duration roomID w w') :
    w'.roundsIn roomID = w.roundsIn roomID ++
      [newRound env.now duration roomID (w.db.rounds.fresh env.roundHint)] := by
  unfold World.roundsIn
  rw [h.rounds]
  show (w.db.rounds.rows ++ [_]).filter _ = _
  rw [List.filter_append, List.filter_singleton]
  simp [newRound]

/-- An inserted row is a trace. -/
theorem Inserts.not_noTrace {env : Env} {duration : ℤ} {roomID : RoomID} {w w' : World}
    (h : Inserts env duration roomID w w') : ¬ NoTrace roomID w w' := by
  intro hnone
  have hlength := congrArg List.length hnone.rounds
  rw [h.roundsIn, List.length_append, List.length_singleton] at hlength
  omega

/-- When the room that the request names has a round, the creation of another one leaves no trace of
a failure exactly when it is refused before the insertion, or nothing fails after it. -/
theorem failsCleanly_iff (env : Env) (maxNumRoundsPerRoom : ℤ) (params : RoundCreationParameters)
    (roomID : RoomID) (w : World)
    (h : ∀ id, env.uuid.parse roomID = some id → ∃ round ∈ w.db.rounds.rows, round.roomID = id) :
    FailsCleanly env maxNumRoundsPerRoom params roomID w ↔
      Admitted env maxNumRoundsPerRoom roomID w.db →
        Completes env params w.db ∧ env.fails .appendRound = false := by
  -- A room that has rounds is not cleaned up, whatever fails.
  have hrounds : ∀ room, Findable env roomID w.db room → w.db.roundsOf env.rounds room.id ≠ [] := by
    intro room hfind
    obtain ⟨round, hround, hroom⟩ := h room.id hfind.parsed
    refine List.ne_nil_of_mem (a := round) (env.rounds.mem_order.mpr ?_)
    exact List.mem_filter.mpr ⟨hround, decide_eq_true hroom⟩
  unfold FailsCleanly
  rcases createRound_cases env maxNumRoundsPerRoom params roomID w with
    ⟨hrefused, e, w', hrun, hw'⟩ | ⟨hadmitted, room, hfind, w₁, hinserts, ⟨hwell, r, hrun⟩ |
      ⟨hwell, e, w₂, hrun, hw₂⟩⟩
  · have hsame : w' = w := hw'.resolve_right fun ⟨⟨room, hfind, hempty⟩, _⟩ =>
      hrounds room hfind hempty
    rw [hrun, hsame]
    refine iff_of_true ?_ fun hadmitted => absurd hadmitted hrefused
    rintro _ _ ⟨⟩ id _
    exact NoTrace.refl id w
  · rw [hrun]
    refine iff_of_true ?_ fun _ => hwell
    rintro e w' ⟨⟩
  · have hsame : w₂ = w₁ := hw₂.resolve_right fun hempty => hrounds room hfind hempty.1
    rw [hrun, hsame]
    -- The round was stored, and a later statement failed: its row stays.
    refine iff_of_false ?_ fun hcond => hwell (hcond hadmitted)
    exact fun hclean => hinserts.not_noTrace (hclean e w₁ rfl room.id hfind.parsed)

/-- A request for a round with hand-picked problems. -/
def handPicked (problemIDs : List ℕ) : RoundCreationParameters where
  duration := 30
  numEasyProblems := 0
  numMediumProblems := 0
  numHardProblems := 0
  filter := ⟨[], [], false, false, false, false⟩
  anyDifficulty := false
  numAnyDifficultyProblems := 0
  problemIDs := problemIDs

/-- A room at its limit refuses another round, and that leaves no trace. -/
theorem failsCleanly_handPicked :
    FailsCleanly (Env.faultless 10) 1 (handPicked [1]) roomOne .ready := by
  refine (failsCleanly_iff (Env.faultless 10) 1 (handPicked [1]) roomOne .ready fun id hid => ?_).mpr
    fun hadmitted => ?_
  · obtain rfl := (Env.faultless 10).uuid.eq_of_canonical hid isUUID_roomOne
    decide +kernel
  · obtain ⟨room, hroom, -, hlimit, -⟩ := hadmitted
    rw [hroom.id_eq isUUID_roomOne] at hlimit
    exact absurd hlimit (by decide +kernel)

/-- When too many problems are picked, the request is refused, and yet the room has one more
round. -/
theorem not_failsCleanly :
    (∃ round ∈ World.ready.db.rounds.rows, round.roomID = roomOne) ∧
      ¬ FailsCleanly (Env.faultless 10) 3 (handPicked (List.range' 1 11)) roomOne .ready := by
  refine ⟨by decide +kernel, fun h => ?_⟩
  have hid : (Env.faultless 10).uuid.parse roomOne = some roomOne :=
    (Env.faultless 10).uuid.accepts isUUID_roomOne
  let result := (createRound (Env.faultless 10) 3 (handPicked (List.range' 1 11)) roomOne).run .ready
  have herr : result.1 = .err (.value ⟨400, "Too many problems selected. max=10 selected=11"⟩) := by
    decide +kernel
  have hrounds : (result.2.roundsIn roomOne).length = 2 := by decide +kernel
  have hbefore : (World.ready.roundsIn roomOne).length = 1 := by decide +kernel
  have hnone := (h _ result.2 (Prod.ext herr rfl) roomOne hid).rounds
  rw [hnone, hbefore] at hrounds
  cases hrounds

end Bsg.Central
