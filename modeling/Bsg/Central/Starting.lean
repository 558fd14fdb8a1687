import Bsg.Central.RoomSteps

/-!
# Starting a round

What the three steps of `initiateRoundStart` do to the state, and when they go well.

* `Startable`: the round is marked started and announced, which leaves `World.started`.
* `Enrollable`: every user gets a participant row and a leaderboard entry, which leaves
  `World.enrolled`. Otherwise the rows are rolled back, but not the entries.
* `Schedulable`: the end of the round is scheduled, which leaves `World.scheduled`.

`initiateRoundStart_cases` puts the steps together. Each of these conditions speaks of the faults,
the round and the state before the step alone.
-/

namespace Bsg.Central

open Bsg.Foundations

/-! ## Marking the round started -/

/-- Nothing keeps the round from being marked started: it is created, it has problems, and the
database finds them and takes the new status. -/
def Startable (env : Env) (round : Round) (w : World) : Prop :=
  round.status = .created ∧ env.fails .findProblemSet = false ∧
    w.db.problemSet env.problems round.id ≠ [] ∧ env.fails .updateRoundStatus = false

instance (env : Env) (round : Round) (w : World) : Decidable (Startable env round w) :=
  inferInstanceAs (Decidable (_ ∧ _))

/-- Of all rounds, only the one that starts changes. -/
theorem DB.find?_startRound (db : DB) (now : ℤ) (roundID k : ℕ) :
    (db.startRound now roundID).rounds.find? k =
      if k = roundID then (db.rounds.find? k).map (Round.start now) else db.rounds.find? k :=
  Table.find?_modify db.rounds roundID k (Round.start now) (Round.id_start now)

/-- The announcement that a round starts. -/
def roundStartRequest (env : Env) (round : Round) (w : World) : Rtc.Request :=
  .roundStart round.roomID ((w.db.problemSet env.problems round.id).map Problem.slug) env.now
    round.duration

/-- The state in which a round was marked started and announced. -/
def World.started (env : Env) (round : Round) (w : World) : World :=
  { w.tell (delivered (env.reply .roundStart) (roundStartRequest env round w)) with
    db := w.db.startRound env.now round.id }

/-- A round that can be started is marked and announced. -/
theorem markRoundStarted_run {env : Env} {round : Round} {w : World} (h : Startable env round w) :
    (markRoundStarted env round).run w =
      (.ok (w.db.problemSet env.problems round.id), w.started env round) := by
  obtain ⟨hcreated, hfind, hproblems, hupdate⟩ := h
  unfold markRoundStarted
  rw [if_neg (not_not_intro hcreated), hfind, Call.io_false, Call.run_read_bind,
    if_neg hproblems, hupdate, Call.io_false]
  exact Call.bind_ok (logged_sendMessage_run _ _ _) _

/-- A round that cannot be started is left as it is. -/
theorem markRoundStarted_refused {env : Env} {round : Round} {w : World}
    (h : ¬ Startable env round w) : ∃ e, (markRoundStarted env round).run w = (.err e, w) := by
  unfold markRoundStarted
  by_cases hcreated : round.status = .created
  · rw [if_neg (not_not_intro hcreated)]
    cases hfind : env.fails .findProblemSet with
    | true => exact ⟨_, rfl⟩
    | false =>
      rw [Call.io_false, Call.run_read_bind]
      by_cases hproblems : w.db.problemSet env.problems round.id = []
      · rw [if_pos hproblems]
        exact ⟨_, rfl⟩
      · rw [if_neg hproblems]
        cases hupdate : env.fails .updateRoundStatus with
        | true => exact ⟨_, rfl⟩
        | false => exact absurd ⟨hcreated, hfind, hproblems, hupdate⟩ h
  · rw [if_pos hcreated]
    exact ⟨_, rfl⟩

/-! ## Enrolling the users -/

/-- Every user can be enrolled, and the transaction commits. -/
def Enrollable (env : Env) (users : List AuthID) : Prop :=
  env.fails .beginParticipants = false ∧
    (∀ i < users.length, env.fails (.createParticipant i) = false ∧
      env.fails (.zaddLeaderboard i) = false) ∧
    env.fails .commitParticipants = false

instance (env : Env) (users : List AuthID) : Decidable (Enrollable env users) :=
  inferInstanceAs (Decidable (_ ∧ _ ∧ _))

/-- The state with one user enrolled. -/
def World.enrol (env : Env) (roundID : ℕ) (w : World) (user : AuthID × ℕ) : World :=
  { w with
    db := w.db.addParticipant (env.participantHint user.2) user.1 roundID
    redis := w.redis.addLeaderboardMember env.now roundID user.1 }

/-- The state with users enrolled. -/
def World.enrolled (env : Env) (roundID : ℕ) (users : List AuthID) (w : World) : World :=
  users.zipIdx.foldl (World.enrol env roundID) w

/-- A user is enrolled. -/
theorem enrolParticipant_run {env : Env} {user : AuthID × ℕ}
    (h : env.fails (.createParticipant user.2) = false ∧
      env.fails (.zaddLeaderboard user.2) = false) (roundID : ℕ) (w : World) :
    (enrolParticipant env roundID user).run w = (.ok (), w.enrol env roundID user) := by
  unfold enrolParticipant createRoundParticipant addLeaderboardMember
  rw [h.1, h.2]
  rfl

/-- A user whose row or entry cannot be written is not enrolled. -/
theorem enrolParticipant_fails {env : Env} {user : AuthID × ℕ}
    (h : ¬ (env.fails (.createParticipant user.2) = false ∧
      env.fails (.zaddLeaderboard user.2) = false)) (roundID : ℕ) (w w' : World) :
    (enrolParticipant env roundID user).run w ≠ (.ok (), w') := by
  unfold enrolParticipant createRoundParticipant addLeaderboardMember
  cases hcreate : env.fails (.createParticipant user.2) with
  | true => rintro ⟨⟩
  | false =>
    cases hzadd : env.fails (.zaddLeaderboard user.2) with
    | true => rintro ⟨⟩
    | false => exact absurd ⟨hcreate, hzadd⟩ h

/-- Enrolling writes to the database and to the leaderboards, and to nothing else. -/
structure Enrolling (w w' : World) : Prop where
  redis : w'.redis = { w.redis with leaderboard := w'.redis.leaderboard }
  tasks : w'.tasks = w.tasks
  expiryTasks : w'.expiryTasks = w.expiryTasks
  sent : w'.sent = w.sent

/-- Nobody was enrolled yet. -/
theorem Enrolling.refl (w : World) : Enrolling w w := ⟨rfl, rfl, rfl, rfl⟩

/-- Who is enrolled in two steps is enrolled in both. -/
theorem Enrolling.trans (w₁ w₂ w₃ : World) (h : Enrolling w₁ w₂) (h' : Enrolling w₂ w₃) :
    Enrolling w₁ w₃ := by
  refine ⟨?_, h'.tasks.trans h.tasks, h'.expiryTasks.trans h.expiryTasks, h'.sent.trans h.sent⟩
  rw [h'.redis, h.redis]

/-- One user is enrolled, or none when a statement fails. -/
theorem enrolling_enrolParticipant (env : Env) (roundID : ℕ) (user : AuthID × ℕ) :
    Call.Within Enrolling (enrolParticipant env roundID user) := by
  refine Call.Within.bind Enrolling.trans ?_ fun _ => ?_
  · exact Call.Within.io Enrolling.refl _ _ (Call.Within.write fun w => ⟨rfl, rfl, rfl, rfl⟩)
  · exact Call.Within.io Enrolling.refl _ _ (Call.Within.write fun w => ⟨rfl, rfl, rfl, rfl⟩)

/-- Some of the users are enrolled, as far as the loop goes. -/
theorem enrolling_enrolAll (env : Env) (roundID : ℕ) (users : List AuthID) :
    Call.Within Enrolling (enrolAll env roundID users) := by
  refine Call.Within.bind Enrolling.trans ?_ fun _ => ?_
  · exact Call.Within.io Enrolling.refl _ _ (Call.Within.pure Enrolling.refl _)
  refine Call.Within.bind Enrolling.trans ?_ fun _ => ?_
  · exact Call.Within.forEach Enrolling.refl Enrolling.trans fun user _ =>
      enrolling_enrolParticipant env roundID user
  · exact Call.Within.io Enrolling.refl _ _ (Call.Within.pure Enrolling.refl _)

/-- Enrolling users does not panic. -/
theorem calm_enrolAll (env : Env) (roundID : ℕ) (users : List AuthID) :
    Call.Calm (enrolAll env roundID users) := by
  refine Call.Calm.bind (Call.Calm.io _ _ (Call.Calm.pure _)) fun _ => ?_
  refine Call.Calm.bind (Call.Calm.forEach fun user _ => ?_) fun _ =>
    Call.Calm.io _ _ (Call.Calm.pure _)
  exact Call.Calm.bind (Call.Calm.io _ _ (Call.Calm.write _)) fun _ =>
    Call.Calm.io _ _ (Call.Calm.write _)

/-- Users that can be enrolled are. -/
theorem enrolParticipants_run {env : Env} {users : List AuthID} (h : Enrollable env users)
    (roundID : ℕ) (w : World) :
    (enrolParticipants env roundID users).run w = (.ok (), w.enrolled env roundID users) := by
  obtain ⟨hbegin, hall, hcommit⟩ := h
  have hloop : (Call.forEach users.zipIdx (enrolParticipant env roundID)).run w =
      (.ok (), w.enrolled env roundID users) := by
    refine Call.forEach_run (fun user huser w => enrolParticipant_run ?_ roundID w) w
    exact hall user.2 (List.snd_lt_of_mem_zipIdx huser)
  have hbody : (enrolAll env roundID users).run w = (.ok (), w.enrolled env roundID users) := by
    unfold enrolAll
    rw [hbegin, hcommit]
    exact Call.bind_ok hloop _
  unfold enrolParticipants
  rw [Call.run_transaction, hbody]

/-- When a user cannot be enrolled, the rows are rolled back; the entries that were written stay. -/
theorem enrolParticipants_fails {env : Env} {users : List AuthID} (h : ¬ Enrollable env users)
    (roundID : ℕ) (w : World) :
    ∃ e w', (enrolParticipants env roundID users).run w = (.err e, w') ∧ w'.db = w.db ∧
      Enrolling w w' := by
  have hbody : ∀ u w', (enrolAll env roundID users).run w ≠ (.ok u, w') := by
    intro u w' hrun
    obtain ⟨_, w₁, hbegin, hrun⟩ := Call.bind_eq_ok hrun
    obtain ⟨_, w₂, hloop, hcommit⟩ := Call.bind_eq_ok hrun
    refine h ⟨(Call.io_eq_ok hbegin).1, fun i hi => ?_, (Call.io_eq_ok hcommit).1⟩
    by_contra hfails
    have hmem : (users[i], i) ∈ users.zipIdx := by
      rw [List.mem_zipIdx_iff_getElem?]
      exact List.getElem?_eq_getElem hi
    exact Call.forEach_not_ok (enrolParticipant_fails hfails roundID) hmem _ _ hloop
  obtain ⟨e, w', hrun⟩ := (calm_enrolAll env roundID users).fails hbody
  have hwithin := enrolling_enrolAll env roundID users w
  rw [hrun] at hwithin
  refine ⟨e, rollback w w', ?_, rfl, hwithin.redis, hwithin.tasks, hwithin.expiryTasks,
    hwithin.sent⟩
  unfold enrolParticipants
  rw [Call.run_transaction, hrun]

/-- The state differs by the rows and the entries of the users, on top of those that were there. -/
structure Enrols (roundID : ℕ) (users : List AuthID) (w w' : World) : Prop where
  db : w'.db = { w.db with participants := w'.db.participants }
  rows : ∃ new, w'.db.participants.rows = w.db.participants.rows ++ new ∧
    new.map (fun p => (p.participantAuthID, p.roundID)) = users.map fun user => (user, roundID)
  entries : ∀ user, (w'.redis.leaderboard roundID).contains user =
    (decide (user ∈ users) || (w.redis.leaderboard roundID).contains user)
  enrolling : Enrolling w w'

/-- Enrolling users leaves the rounds. -/
theorem Enrols.rounds {roundID : ℕ} {users : List AuthID} {w w' : World}
    (h : Enrols roundID users w w') : w'.db.rounds = w.db.rounds := by
  rw [h.db]

/-- No users are enrolled. -/
theorem Enrols.refl (roundID : ℕ) (w : World) : Enrols roundID [] w w :=
  ⟨rfl, ⟨[], by simp, rfl⟩, by simp, Enrolling.refl w⟩

/-- One more user in front. -/
theorem Enrols.cons {env : Env} {roundID : ℕ} {user : AuthID × ℕ} {users : List AuthID}
    {w w' : World} (h : Enrols roundID users (w.enrol env roundID user) w') :
    Enrols roundID (user.1 :: users) w w' := by
  obtain ⟨new, hrows, hnew⟩ := h.rows
  refine ⟨h.db, ⟨newParticipant user.1 roundID (w.db.participants.fresh
    (env.participantHint user.2)) :: new, ?_, ?_⟩, fun u => ?_, ?_⟩
  · rw [hrows]
    exact List.append_assoc _ _ _
  · rw [List.map_cons, List.map_cons, hnew]
    rfl
  · rw [h.entries]
    have hentry : ((w.enrol env roundID user).redis.leaderboard roundID).contains u =
        (decide (u = user.1) || (w.redis.leaderboard roundID).contains u) := by
      show (Function.update w.redis.leaderboard roundID _ roundID).contains u = _
      rw [Function.update_self, SortedSet.contains_add]
    rw [hentry]
    by_cases hu : u = user.1 <;> simp [hu]
  · exact Enrolling.trans _ (w.enrol env roundID user) _ ⟨rfl, rfl, rfl, rfl⟩ h.enrolling

/-- What `World.enrolled` adds: a row and an entry for each user. -/
theorem enrols_enrolled (env : Env) (roundID : ℕ) (users : List AuthID) (w : World) :
    Enrols roundID users w (w.enrolled env roundID users) := by
  have hfold : ∀ (l : List (AuthID × ℕ)) (w : World),
      Enrols roundID (l.map Prod.fst) w (l.foldl (World.enrol env roundID) w) := by
    intro l
    induction l with
    | nil => exact Enrols.refl roundID
    | cons user l ih => exact fun w => (ih _).cons
  have h := hfold users.zipIdx w
  rwa [List.zipIdx_map_fst] at h

/-! ## Scheduling the end -/

/-- The end of the round can be scheduled. -/
def Schedulable (env : Env) (round : Round) : Prop :=
  env.fails .scheduleRoundEnd = false ∧ 0 < endInterval round

instance (env : Env) (round : Round) : Decidable (Schedulable env round) :=
  inferInstanceAs (Decidable (_ ∧ _))

/-- The task that ends a round which starts now. -/
def endTaskOf (env : Env) (round : Round) : EndTask :=
  ⟨round.id, round.roomID, env.now * 10^9 + env.scheduleDelay + endInterval round⟩

/-- The state with the end of a round scheduled. -/
def World.scheduled (env : Env) (round : Round) (w : World) : World :=
  { w with tasks := w.tasks ++ [endTaskOf env round] }

/-- The end of the round is scheduled. -/
theorem scheduleRoundEnd_run {env : Env} {round : Round} (h : Schedulable env round) (w : World) :
    (scheduleRoundEnd env round).run w = (.ok (), w.scheduled env round) := by
  unfold scheduleRoundEnd
  rw [h.1, Call.io_false, if_pos h.2]
  rfl

/-- The scheduler refuses a round that it cannot schedule, and nothing is scheduled. -/
theorem scheduleRoundEnd_fails {env : Env} {round : Round} (h : ¬ Schedulable env round)
    (w : World) : ∃ e, (scheduleRoundEnd env round).run w = (.err e, w) := by
  unfold scheduleRoundEnd
  cases hschedule : env.fails .scheduleRoundEnd with
  | true => exact ⟨_, rfl⟩
  | false =>
    rw [Call.io_false, if_neg fun hinterval => h ⟨hschedule, hinterval⟩]
    exact ⟨_, rfl⟩

/-! ## The whole start -/

/-- How the start of a round ends: refused with nothing changed, or marked started and then stopped
by the enrolment, stopped by the scheduler, or done. -/
theorem initiateRoundStart_cases (env : Env) (round : Round) (users : List AuthID) (w : World) :
    (¬ Startable env round w ∧ ∃ e, (initiateRoundStart env round users).run w = (.err e, w)) ∨
    Startable env round w ∧
      (¬ Enrollable env users ∧ (∃ e w', (initiateRoundStart env round users).run w =
          (.err e, w') ∧ w'.db = (w.started env round).db ∧ Enrolling (w.started env round) w') ∨
        Enrollable env users ∧
          (¬ Schedulable env round ∧ (∃ e, (initiateRoundStart env round users).run w =
              (.err e, (w.started env round).enrolled env round.id users)) ∨
            Schedulable env round ∧ (∃ r, (initiateRoundStart env round users).run w =
              (.ok r, ((w.started env round).enrolled env round.id users).scheduled env
                round)))) := by
  by_cases hstart : Startable env round w
  · refine Or.inr ⟨hstart, ?_⟩
    have hmark := markRoundStarted_run hstart
    unfold initiateRoundStart
    rw [Call.bind_ok hmark]
    -- The status is written; what follows may fail and does not take it back.
    by_cases henrol : Enrollable env users
    · refine Or.inr ⟨henrol, ?_⟩
      have hall := enrolParticipants_run henrol round.id (w.started env round)
      rw [Call.bind_ok hall]
      by_cases hschedule : Schedulable env round
      · rw [Call.bind_ok (scheduleRoundEnd_run hschedule _)]
        exact Or.inr ⟨hschedule, _, rfl⟩
      · obtain ⟨e, hrun⟩ := scheduleRoundEnd_fails hschedule
          ((w.started env round).enrolled env round.id users)
        exact Or.inl ⟨hschedule, e, Call.bind_err hrun _⟩
    · obtain ⟨e, w', hrun, hdb, henrolling⟩ := enrolParticipants_fails henrol round.id
        (w.started env round)
      exact Or.inl ⟨henrol, e, w', Call.bind_err hrun _, hdb, henrolling⟩
  · obtain ⟨e, hrun⟩ := markRoundStarted_refused hstart
    exact Or.inl ⟨hstart, e, Call.bind_err hrun _⟩

/-! ## A start by the admin -/

/-- The first of a room's rounds, as they are loaded, that has the status, if the user is the admin
of the room. -/
def DB.chosenRound (db : DB) (env : Env) (roomID : RoomID) (userID : AuthID)
    (status : RoundStatus) : Option Round :=
  if env.fails .findRoom = false then
    ((env.uuid.parse roomID).bind db.roomByID).bind fun room =>
      if room.admin = userID then
        (db.roundsOf env.rounds room.id).find? fun r => decide (r.status = status)
      else none
  else none

section Chosen

variable {env : Env} {roomID : RoomID} {userID : AuthID} {status : RoundStatus} {round : Round}
  {w : World}

/-- A round is chosen in a room that is found, by its admin. -/
theorem chosenRound_eq_some {db : DB} :
    db.chosenRound env roomID userID status = some round ↔
      ∃ room, Findable env roomID db room ∧ room.admin = userID ∧
        ((db.roundsOf env.rounds room.id).find? fun r => decide (r.status = status)) =
          some round := by
  unfold DB.chosenRound
  constructor
  · intro h
    split_ifs at h with hfind
    obtain ⟨room, hroom, hchosen⟩ := Option.bind_eq_some_iff.mp h
    obtain ⟨uuid, hparsed, hstored⟩ := Option.bind_eq_some_iff.mp hroom
    obtain rfl := id_of_roomByID hstored
    split_ifs at hchosen with hadmin
    exact ⟨room, ⟨hparsed, hfind, hstored⟩, hadmin, hchosen⟩
  · rintro ⟨room, hroom, hadmin, hchosen⟩
    rw [if_pos hroom.findRoom, hroom.parsed, Option.bind_some, hroom.stored, Option.bind_some,
      if_pos hadmin]
    exact hchosen

/-- A chosen round is a round of the room that is named, and has the status. -/
theorem mem_of_chosenRound {db : DB}
    (h : db.chosenRound env roomID userID status = some round) :
    (round ∈ db.rounds.rows ∧ env.uuid.parse roomID = some round.roomID) ∧
      round.status = status := by
  obtain ⟨room, hroom, -, hchosen⟩ := chosenRound_eq_some.mp h
  have hmem := env.rounds.mem_order.mp (List.mem_of_find?_eq_some hchosen)
  have hstatus := List.find?_some hchosen
  rw [List.mem_filter, decide_eq_true_eq] at hmem
  exact ⟨⟨hmem.1, hmem.2 ▸ hroom.parsed⟩, of_decide_eq_true hstatus⟩

/-- By the canonical id of a room one of its own rounds is chosen. -/
theorem roomID_of_chosenRound {db : DB} (hid : isUUID roomID = true)
    (h : db.chosenRound env roomID userID status = some round) : round.roomID = roomID :=
  env.uuid.eq_of_canonical (mem_of_chosenRound h).1.2 hid

/-- The chosen round is found. -/
theorem findRoundToStart_run (h : w.db.chosenRound env roomID userID .created = some round) :
    (findRoundToStart env roomID userID).run w = (.ok round, w) := by
  obtain ⟨room, hroom, hadmin, hchosen⟩ := chosenRound_eq_some.mp h
  unfold findRoundToStart
  rw [Call.bind_ok (findRoomByID_run hroom)]
  dsimp only
  rw [if_neg (not_not_intro hadmin), hchosen]
  rfl

/-- Without a round to start nothing changes. -/
theorem findRoundToStart_fails (h : w.db.chosenRound env roomID userID .created = none) :
    ∃ e, (findRoundToStart env roomID userID).run w = (.err e, w) := by
  unfold findRoundToStart
  by_cases hfind : ∃ room, Findable env roomID w.db room
  · obtain ⟨room, hroom⟩ := hfind
    rw [Call.bind_ok (findRoomByID_run hroom)]
    dsimp only
    by_cases hadmin : room.admin = userID
    · rw [if_neg (not_not_intro hadmin)]
      cases hchosen : (w.db.roundsOf env.rounds room.id).find? fun r =>
          decide (r.status = .created) with
      | none => exact ⟨_, rfl⟩
      | some round =>
        rw [chosenRound_eq_some.mpr ⟨room, hroom, hadmin, hchosen⟩] at h
        cases h
    · rw [if_pos hadmin]
      exact ⟨_, rfl⟩
  · obtain ⟨e, hrun⟩ := findRoomByID_fails fun room h => hfind ⟨room, h⟩
    exact ⟨e, Call.bind_err hrun _⟩

end Chosen

/-- The requests tell of users that take part in the round of a room. -/
def JoinsOf (roomID : RoomID) (rs : List Rtc.Request) : Prop :=
  ∀ req ∈ rs, ∃ userID userName, req = Rtc.Request.joinRound roomID userID userName

/-- The members of a starting round are announced, as far as rtc-service can be reached. -/
theorem announceParticipants_run (env : Env) (roomID : RoomID) :
    ∀ (users : List (AuthID × ℕ)) (w : World), ∃ joins, JoinsOf roomID joins ∧
      (Call.forEach users (announceParticipant env roomID)).run w = (.ok (), w.tell joins)
  | [], w => ⟨[], by simp [JoinsOf], by simp⟩
  | user :: users, w => by
    obtain ⟨userName, hname⟩ : ∃ userName,
        (userDisplayName env user.1).run w = (.ok userName, w) := ⟨_, rfl⟩
    let req : Rtc.Request := .joinRound roomID user.1 userName
    let w₁ := w.tell (delivered (env.reply (.joinRound user.2)) req)
    have hfirst : (announceParticipant env roomID user).run w = (.ok (), w₁) :=
      (Call.bind_ok hname _).trans (logged_sendMessage_run _ req w)
    obtain ⟨joins, hjoins, hrun⟩ := announceParticipants_run env roomID users w₁
    refine ⟨delivered (env.reply (.joinRound user.2)) req ++ joins, ?_, ?_⟩
    · intro r hr
      rcases List.mem_append.mp hr with hr | hr
      · refine ⟨user.1, userName, ?_⟩
        unfold delivered at hr
        split_ifs at hr
        · cases hr
        · exact List.mem_singleton.mp hr
      · exact hjoins r hr
    · rw [Call.forEach_cons, Call.bind_ok hfirst, hrun, World.tell_tell]

/-- A round was marked started; what follows got as far as it could. -/
structure Starts (env : Env) (roomID : RoomID) (round : Round) (users : List AuthID)
    (w w' : World) : Prop where
  rounds : w'.db.rounds = (w.db.startRound env.now round.id).rounds
  participants : ∃ new, w'.db.participants.rows = w.db.participants.rows ++ new ∧
    (new = [] ∨ new.map (fun p => (p.participantAuthID, p.roundID)) =
      users.map fun user => (user, round.id))
  tasks : w'.tasks = if Enrollable env users ∧ Schedulable env round then
    w.tasks ++ [endTaskOf env round] else w.tasks
  sent : ∃ joins, JoinsOf roomID joins ∧ w'.sent = (w.started env round).sent ++ joins

/-- The members of a room, as a request sees them. -/
def World.members (w : World) (roomID : RoomID) : List AuthID :=
  (w.redis.joinTimestamp roomID).members

/-- The members of the room are read, oldest first. -/
theorem findActiveUsers_run {env : Env} (h : env.fails .zrangeJoin = false) (roomID : RoomID)
    (w : World) : (findActiveUsers env roomID).run w = (.ok (w.members roomID), w) := by
  unfold findActiveUsers
  rw [h]
  rfl

/-- When the command fails, so does the call. -/
theorem findActiveUsers_fails {env : Env} (h : env.fails .zrangeJoin = true) (roomID : RoomID)
    (w : World) : (findActiveUsers env roomID).run w = (.err .io, w) := by
  unfold findActiveUsers
  rw [h]
  rfl

/-- A start by the admin changes nothing, or it marks a created round of the room as started. -/
theorem startRoundByRoomID_cases (env : Env) (roomID : RoomID) (userID : AuthID) (w : World) :
    (∃ o, (startRoundByRoomID env roomID userID).run w = (o, w) ∧
      ∀ round, w.db.chosenRound env roomID userID .created = some round →
        env.fails .zrangeJoin = true ∨ ¬ Startable env round w) ∨
    ∃ round, w.db.chosenRound env roomID userID .created = some round ∧
      env.fails .zrangeJoin = false ∧ Startable env round w ∧
      ∃ o w', (startRoundByRoomID env roomID userID).run w = (o, w') ∧
        Starts env roomID round (w.members roomID) w w' := by
  unfold startRoundByRoomID
  cases hchosen : w.db.chosenRound env roomID userID .created with
  | none =>
    obtain ⟨e, hrun⟩ := findRoundToStart_fails hchosen
    exact Or.inl ⟨_, Call.bind_err hrun _, by simp⟩
  | some round =>
    rw [Call.bind_ok (findRoundToStart_run hchosen)]
    cases husers : env.fails .zrangeJoin with
    | true =>
      have hrun := findActiveUsers_fails husers roomID w
      exact Or.inl ⟨_, Call.bind_err hrun _, fun _ _ => Or.inl rfl⟩
    | false =>
      rw [Call.bind_ok (findActiveUsers_run husers roomID w)]
      -- The start is refused, or fails on the way, at the latest when the end is scheduled.
      rcases initiateRoundStart_cases env round (w.members roomID) w with
        ⟨hrefused, e, hinit⟩ | ⟨hstart, ⟨henrol, e, w₁, hinit, hdb, henrolling⟩ |
          ⟨henrol, ⟨hschedule, e, hinit⟩ | ⟨hschedule, r, hinit⟩⟩⟩
      · refine Or.inl ⟨_, Call.bind_err hinit _, fun round' h => Or.inr ?_⟩
        rwa [← Option.some.inj h]
      · refine Or.inr ⟨round, rfl, rfl, hstart, _, w₁, Call.bind_err hinit _, ?_⟩
        refine ⟨congrArg DB.rounds hdb, ⟨[], ?_, Or.inl rfl⟩, ?_, ⟨[], by simp [JoinsOf], ?_⟩⟩
        · rw [List.append_nil, hdb]
          rfl
        · rw [if_neg fun h => henrol h.1, henrolling.tasks]
          rfl
        · rw [List.append_nil, henrolling.sent]
      · have henrols := enrols_enrolled env round.id (w.members roomID) (w.started env round)
        obtain ⟨new, hrows, hnew⟩ := henrols.rows
        refine Or.inr ⟨round, rfl, rfl, hstart, _, _, Call.bind_err hinit _, ?_⟩
        refine ⟨henrols.rounds, ⟨new, hrows, Or.inr hnew⟩, ?_,
          ⟨[], by simp [JoinsOf], ?_⟩⟩
        · rw [if_neg fun h => hschedule h.2, henrols.enrolling.tasks]
          rfl
        · rw [List.append_nil, henrols.enrolling.sent]
      · have henrols := enrols_enrolled env round.id (w.members roomID) (w.started env round)
        obtain ⟨new, hrows, hnew⟩ := henrols.rows
        obtain ⟨joins, hjoins, hannounce⟩ := announceParticipants_run env roomID
          (w.members roomID).zipIdx
          (((w.started env round).enrolled env round.id (w.members roomID)).scheduled env round)
        refine Or.inr ⟨round, rfl, rfl, hstart, _, _,
          (Call.bind_ok hinit _).trans (Call.bind_ok hannounce _), ?_⟩
        refine ⟨henrols.rounds, ⟨new, hrows, Or.inr hnew⟩, ?_, joins, hjoins, ?_⟩
        · rw [if_pos ⟨henrol, hschedule⟩]
          show _ ++ [endTaskOf env round] = _
          rw [henrols.enrolling.tasks]
          rfl
        · show _ ++ joins = _
          rw [← henrols.enrolling.sent]
          rfl

end Bsg.Central
