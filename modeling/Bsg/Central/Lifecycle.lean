import Bsg.Central.Deadline
import Bsg.Central.Site

/-!
# The life of a round

A round is created, started and ended, in this order and only in this order, and the events that
take it from one to the next are few: requests by the admin of its room, and its end task
(`World.Alters`). Every other event of the service leaves the row of the round as it is
(`rounds_happen`), whatever fails.

Along a run this says how a round can have come to be what it is: it only ever advances
(`advances_along`), it is as it was unless somebody entitled changed it (`untouched_of_along`), and
unless the admin ended it, it was not ended before its time was over (`endsDuly_along`).
-/

namespace Bsg.Central

open Bsg.Foundations

/-! ## What changes a round -/

/-- The user is the admin of the room. -/
def World.IsAdmin (w : World) (roomID : RoomID) (userID : AuthID) : Prop :=
  ∃ room, w.db.roomByID roomID = some room ∧ room.admin = userID

/-- How an event changes a row of `rounds`. A request may name the room by any text. -/
inductive World.Alters (w : World) : HistoryEvent → Round → Round → Prop
  | setDuration {env : Env} {roomID : RoomID} {userID : AuthID} {duration : ℤ} {round : Round}
      (named : env.uuid.parse roomID = some round.roomID) (admin : w.IsAdmin round.roomID userID)
      (created : round.status = .created) (min : minRoundDuration ≤ duration)
      (max : duration ≤ maxRoundDuration) :
      w.Alters (.request env (.setRoundDuration roomID userID duration)) round
        (round.setDuration duration)
  | start {env : Env} {roomID : RoomID} {userID : AuthID} {round : Round}
      (named : env.uuid.parse roomID = some round.roomID) (admin : w.IsAdmin round.roomID userID)
      (created : round.status = .created) :
      w.Alters (.request env (.startRound roomID userID)) round (round.start env.now)
  | finish {env : Env} {roomID : RoomID} {userID : AuthID} {round : Round}
      (named : env.uuid.parse roomID = some round.roomID) (admin : w.IsAdmin round.roomID userID)
      (started : round.status = .started) :
      w.Alters (.request env (.endRound roomID userID)) round round.finish
  | timeOut {env : Env} {task : EndTask} {round : Round} (due : task.Due env w)
      (own : task.roundID = round.id) :
      w.Alters (.request env (.runEndTask task)) round round.finish

section Rows

variable {w w' : World}

/-- Only the admin of the room gets a round chosen. -/
theorem isAdmin_of_chosenRound {env : Env} {roomID : RoomID} {userID : AuthID}
    {status : RoundStatus} {round : Round}
    (h : w.db.chosenRound env roomID userID status = some round) : w.IsAdmin round.roomID userID := by
  obtain ⟨room, hroom, hadmin, -⟩ := chosenRound_eq_some.mp h
  have hid : room.id = round.roomID :=
    Option.some.inj (hroom.parsed.symm.trans (mem_of_chosenRound h).1.2)
  exact ⟨room, hid ▸ hroom.stored, hadmin⟩

/-- A row of a table in which one row was rewritten is an old row, or it is that one. -/
theorem mem_rows_modify {f : Round → Round} (hf : ∀ r, Row.id (f r) = Row.id r) {roundID : ℕ}
    {r' : Round} (h : r' ∈ (w.db.rounds.modify roundID f hf).rows) :
    r' ∈ w.db.rounds.rows ∨ ∃ r ∈ w.db.rounds.rows, r.id = roundID ∧ r' = f r := by
  rw [Table.rows_modify] at h
  obtain ⟨r, hr, rfl⟩ := List.mem_map.mp h
  by_cases hid : Row.id r = roundID
  · rw [if_pos hid]
    exact Or.inr ⟨r, hr, hid, rfl⟩
  · rw [if_neg hid]
    exact Or.inl hr

/-- A row after the row that a request chose was rewritten. -/
theorem mem_rows_of_chosen {env : Env} {roomID : RoomID} {userID : AuthID} {status : RoundStatus}
    {round r' : Round} (hchosen : w.db.chosenRound env roomID userID status = some round)
    {f : Round → Round} (hf : ∀ r, Row.id (f r) = Row.id r)
    (h : r' ∈ (w.db.rounds.modify round.id f hf).rows) :
    r' ∈ w.db.rounds.rows ∨ round ∈ w.db.rounds.rows ∧ r' = f round := by
  rcases mem_rows_modify hf h with hold | ⟨r, hr, hid, rfl⟩
  · exact Or.inl hold
  · rw [eq_of_chosenRound hchosen hr hid]
    exact Or.inr ⟨(mem_of_chosenRound hchosen).1.1, rfl⟩

/-- The rows after a request that creates a round: those there were, and at most the new one. -/
theorem mem_rounds_createRound {env : Env} {maxNumRoundsPerRoom : ℤ}
    {params : RoundCreationParameters} {roomID : RoomID} {r' : Round}
    (h : r' ∈ ((createRound env maxNumRoundsPerRoom params roomID).run w).2.db.rounds.rows) :
    r' ∈ w.db.rounds.rows ∨
      ∃ id, r' = newRound env.now params.duration id (w.db.rounds.fresh env.roundHint) := by
  have hnew : ∀ {id : RoomID} {w₁ : World}, Inserts env params.duration id w w₁ →
      r' ∈ w₁.db.rounds.rows → r' ∈ w.db.rounds.rows ∨
        ∃ id, r' = newRound env.now params.duration id (w.db.rounds.fresh env.roundHint) := by
    intro id w₁ hinserts hmem
    rw [hinserts.rounds] at hmem
    exact (List.mem_append.mp hmem).imp_right fun hr => ⟨id, List.mem_singleton.mp hr⟩
  rcases createRound_cases env maxNumRoundsPerRoom params roomID w with
    ⟨-, e, w', hrun, rfl | ⟨-, hshrinks⟩⟩ | ⟨-, room, -, w₁, hinserts, hend⟩
  · rw [hrun] at h
    exact Or.inl h
  · -- A refused request may have deleted the room, when it had no round.
    rw [hrun] at h
    exact Or.inl (hshrinks.rounds.subset h)
  · rcases hend with ⟨-, r, hrun⟩ | ⟨-, e, w₂, hrun, rfl | ⟨-, hshrinks⟩⟩
    · rw [hrun] at h
      exact hnew hinserts h
    · rw [hrun] at h
      exact hnew hinserts h
    · rw [hrun] at h
      exact hnew hinserts (hshrinks.rounds.subset h)

/-- A row after a request that sets the duration of a round. -/
theorem mem_rounds_setRoundDuration {env : Env} {roomID : RoomID} {userID : AuthID} {duration : ℤ}
    {r' : Round}
    (h : r' ∈ ((setRoundDurationByRoomID env roomID userID duration).run w).2.db.rounds.rows) :
    r' ∈ w.db.rounds.rows ∨ ∃ r ∈ w.db.rounds.rows,
      w.Alters (.request env (.setRoundDuration roomID userID duration)) r r' := by
  rcases setRoundDurationByRoomID_cases env roomID userID duration w with
    hsame | ⟨round, hchosen, hmin, hmax, hrun⟩
  · rw [hsame] at h
    exact Or.inl h
  · rw [hrun] at h
    obtain ⟨⟨-, hnamed⟩, hcreated⟩ := mem_of_chosenRound hchosen
    refine (mem_rows_of_chosen hchosen (Round.id_setDuration duration) h).imp_right ?_
    rintro ⟨hround, rfl⟩
    exact ⟨round, hround,
      .setDuration hnamed (isAdmin_of_chosenRound hchosen) hcreated hmin hmax⟩

/-- A row after a request that starts a round. -/
theorem mem_rounds_startRound {env : Env} {roomID : RoomID} {userID : AuthID} {r' : Round}
    (h : r' ∈ ((startRoundByRoomID env roomID userID).run w).2.db.rounds.rows) :
    r' ∈ w.db.rounds.rows ∨
      ∃ r ∈ w.db.rounds.rows, w.Alters (.request env (.startRound roomID userID)) r r' := by
  rcases startRoundByRoomID_cases env roomID userID w with ⟨o, hrun, -⟩ |
    ⟨round, hchosen, -, -, o, w', hrun, hstarts⟩
  · rw [hrun] at h
    exact Or.inl h
  · rw [hrun] at h
    change r' ∈ w'.db.rounds.rows at h
    rw [hstarts.rounds] at h
    obtain ⟨⟨-, hnamed⟩, hcreated⟩ := mem_of_chosenRound hchosen
    refine (mem_rows_of_chosen hchosen (Round.id_start env.now) h).imp_right ?_
    rintro ⟨hround, rfl⟩
    exact ⟨round, hround, .start hnamed (isAdmin_of_chosenRound hchosen) hcreated⟩

/-- A row after a request that ends a round. -/
theorem mem_rounds_endRound {env : Env} {roomID : RoomID} {userID : AuthID} {r' : Round}
    (h : r' ∈ ((endRoundByRoomID env roomID userID).run w).2.db.rounds.rows) :
    r' ∈ w.db.rounds.rows ∨
      ∃ r ∈ w.db.rounds.rows, w.Alters (.request env (.endRound roomID userID)) r r' := by
  rcases endRoundByRoomID_cases env roomID userID w with ⟨o, hrun, -⟩ | ⟨round, hchosen, -, hrun⟩
  · rw [hrun] at h
    exact Or.inl h
  · rw [hrun] at h
    obtain ⟨⟨-, hnamed⟩, hstarted⟩ := mem_of_chosenRound hchosen
    refine (mem_rows_of_chosen hchosen Round.id_finish h).imp_right ?_
    rintro ⟨hround, rfl⟩
    exact ⟨round, hround, .finish hnamed (isAdmin_of_chosenRound hchosen) hstarted⟩

/-- A row after an end task. -/
theorem mem_rounds_runEndTask {env : Env} {task : EndTask} {r' : Round}
    (h : r' ∈ (w.serve (env, .runEndTask task)).db.rounds.rows) :
    r' ∈ w.db.rounds.rows ∨
      ∃ r ∈ w.db.rounds.rows, w.Alters (.request env (.runEndTask task)) r r' := by
  rcases serve_runEndTask_cases env task w with hserve | ⟨hdue, ⟨-, hserve⟩ | ⟨-, hserve⟩⟩
  · rw [hserve] at h
    exact Or.inl h
  · -- The update failed, and the task is gone.
    rw [hserve] at h
    exact Or.inl h
  · rw [hserve] at h
    refine (mem_rows_modify Round.id_finish h).imp_right ?_
    rintro ⟨round, hround, hid, rfl⟩
    exact ⟨round, hround, .timeOut hdue hid.symm⟩

/-- A row of `rounds` after an event: it was there before, or the event changed a row into it, or a
request created it. -/
theorem rounds_happen (w : World) (e : HistoryEvent) :
    ∀ r' ∈ (w.happen e).db.rounds.rows, r' ∈ w.db.rounds.rows ∨
      (∃ r ∈ w.db.rounds.rows, w.Alters e r r') ∨
      ∃ env maxNumRoundsPerRoom params roomID id,
        e = .request env (.createRound maxNumRoundsPerRoom params roomID) ∧
          r' = newRound env.now params.duration id (w.db.rounds.fresh env.roundHint) := by
  intro r' hr'
  cases e with
  | forward => exact Or.inl hr'
  | process env =>
    -- Processing an answer only writes verdicts, users and leaderboards.
    have hrounds : (w.happen (.process env)).db.rounds = w.db.rounds := by
      rw [show (w.happen (.process env)).db = _ from (grades_listen env w).db]
    rw [hrounds] at hr'
    exact Or.inl hr'
  | request env event =>
  change r' ∈ (w.serve (env, event)).db.rounds.rows at hr'
  cases event with
  | joinRoom roomID userID =>
    have hrounds := congrArg Prod.fst (keeps_joinRoom env roomID userID w)
    rw [show (w.serve (env, .joinRoom roomID userID)).db.rounds = w.db.rounds from hrounds] at hr'
    exact Or.inl hr'
  | leaveRoom roomID userID => exact Or.inl ((retires_leaveRoom env roomID userID w).rounds.subset hr')
  | expireRoom roomID => exact Or.inl ((retires_expireRoom env roomID w).rounds.subset hr')
  | createRound maxNumRoundsPerRoom params roomID =>
    exact (mem_rounds_createRound hr').imp_right fun ⟨id, hr⟩ =>
      Or.inr ⟨env, _, params, roomID, id, rfl, hr⟩
  | setRoundDuration roomID userID duration =>
    exact (mem_rounds_setRoundDuration hr').imp_right Or.inl
  | startRound roomID userID => exact (mem_rounds_startRound hr').imp_right Or.inl
  | endRound roomID userID => exact (mem_rounds_endRound hr').imp_right Or.inl
  | createSubmission roomID params userID =>
    have hkeeps := keeps_createRoomSubmission env roomID params userID w
    have hrounds := congrArg Prod.fst (congrArg Prod.snd hkeeps)
    rw [show (w.serve (env, .createSubmission roomID params userID)).db.rounds = w.db.rounds
      from hrounds] at hr'
    exact Or.inl hr'
  | runEndTask task => exact (mem_rounds_runEndTask hr').imp_right Or.inl
  | restart => exact Or.inl hr'

/-- A request that creates a round schedules nothing. -/
theorem tasks_createRound (env : Env) (maxNumRoundsPerRoom : ℤ) (params : RoundCreationParameters)
    (roomID : RoomID) (w : World) :
    ((createRound env maxNumRoundsPerRoom params roomID).run w).2.tasks = w.tasks := by
  rcases createRound_cases env maxNumRoundsPerRoom params roomID w with
    ⟨-, e, w', hrun, rfl | ⟨-, hshrinks⟩⟩ | ⟨-, room, -, w₁, hinserts, hend⟩
  · rw [hrun]
  · rw [hrun]
    exact hshrinks.tasks
  · rcases hend with ⟨-, r, hrun⟩ | ⟨-, e, w₂, hrun, rfl | ⟨-, hshrinks⟩⟩
    · rw [hrun]
      exact hinserts.tasks
    · rw [hrun]
      exact hinserts.tasks
    · rw [hrun]
      exact hshrinks.tasks.trans hinserts.tasks

/-- A request that sets a duration leaves the end tasks as they are. -/
theorem tasks_setRoundDuration (env : Env) (roomID : RoomID) (userID : AuthID) (duration : ℤ)
    (w : World) :
    ((setRoundDurationByRoomID env roomID userID duration).run w).2.tasks = w.tasks := by
  rcases setRoundDurationByRoomID_cases env roomID userID duration w with
    hsame | ⟨round, -, -, -, hrun⟩
  · rw [hsame]
  · rw [hrun]

/-- A request that ends a round leaves its end task where it is. -/
theorem tasks_endRound (env : Env) (roomID : RoomID) (userID : AuthID) (w : World) :
    ((endRoundByRoomID env roomID userID).run w).2.tasks = w.tasks := by
  rcases endRoundByRoomID_cases env roomID userID w with ⟨o, hrun, -⟩ | ⟨round, -, -, hrun⟩
  · rw [hrun]
  · rw [hrun]
    rfl

/-- A request that starts a round schedules at most the end of this round, and then the row says
that it has started. -/
theorem mem_tasks_startRound {env : Env} {roomID : RoomID} {userID : AuthID} {task : EndTask}
    (h : task ∈ ((startRoundByRoomID env roomID userID).run w).2.tasks) :
    task ∈ w.tasks ∨ ∃ round, task = endTaskOf env round ∧
      round.start env.now ∈ ((startRoundByRoomID env roomID userID).run w).2.db.rounds.rows := by
  rcases startRoundByRoomID_cases env roomID userID w with ⟨o, hrun, -⟩ |
    ⟨round, hchosen, -, -, o, w', hrun, hstarts⟩
  · rw [hrun] at h
    exact Or.inl h
  · rw [hrun] at h ⊢
    change task ∈ w'.tasks at h
    rw [hstarts.tasks] at h
    split_ifs at h
    swap
    · exact Or.inl h
    refine (List.mem_append.mp h).imp_right fun hnew => ?_
    refine ⟨round, List.mem_singleton.mp hnew, ?_⟩
    show round.start env.now ∈ w'.db.rounds.rows
    rw [hstarts.rounds]
    show round.start env.now ∈ (w.db.rounds.modify round.id (Round.start env.now)
      (Round.id_start env.now)).rows
    rw [Table.rows_modify]
    exact List.mem_map.mpr ⟨round, (mem_of_chosenRound hchosen).1.1, if_pos rfl⟩

/-- An end task that runs is taken out, and nothing is scheduled. -/
theorem mem_tasks_runEndTask {env : Env} {task task' : EndTask}
    (h : task ∈ (w.serve (env, .runEndTask task')).tasks) : task ∈ w.tasks := by
  rcases serve_runEndTask_cases env task' w with hserve | ⟨-, ⟨-, hserve⟩ | ⟨-, hserve⟩⟩
  · rwa [hserve] at h
  · rw [hserve] at h
    exact List.mem_of_mem_erase h
  · rw [hserve] at h
    exact List.mem_of_mem_erase h

/-- The end tasks after an event: they waited before, or the event started their round. -/
theorem tasks_happen (w : World) (e : HistoryEvent) :
    ∀ task ∈ (w.happen e).tasks, task ∈ w.tasks ∨
      ∃ env round, task = endTaskOf env round ∧
        round.start env.now ∈ (w.happen e).db.rounds.rows := by
  intro task htask
  cases e with
  | forward => exact Or.inl htask
  | process env =>
    have htasks : (w.happen (.process env)).tasks = w.tasks := (grades_listen env w).tasks
    rw [htasks] at htask
    exact Or.inl htask
  | request env event =>
  change task ∈ (w.serve (env, event)).tasks at htask
  -- Only a start adds a task.
  have hsame (h : (w.serve (env, event)).tasks = w.tasks) : task ∈ w.tasks := h ▸ htask
  cases event with
  | joinRoom roomID userID =>
    exact Or.inl (hsame (congrArg Prod.snd (keeps_joinRoom env roomID userID w)))
  | leaveRoom roomID userID => exact Or.inl (hsame (retires_leaveRoom env roomID userID w).tasks)
  | expireRoom roomID => exact Or.inl (hsame (retires_expireRoom env roomID w).tasks)
  | createRound maxNumRoundsPerRoom params roomID =>
    exact Or.inl (hsame (tasks_createRound env maxNumRoundsPerRoom params roomID w))
  | setRoundDuration roomID userID duration =>
    exact Or.inl (hsame (tasks_setRoundDuration env roomID userID duration w))
  | startRound roomID userID =>
    exact (mem_tasks_startRound htask).imp_right fun ⟨round, hround⟩ => ⟨env, round, hround⟩
  | endRound roomID userID => exact Or.inl (hsame (tasks_endRound env roomID userID w))
  | createSubmission roomID params userID =>
    have hkeeps := keeps_createRoomSubmission env roomID params userID w
    exact Or.inl (hsame (congrArg Prod.fst (congrArg Prod.snd (congrArg Prod.snd hkeeps))))
  | runEndTask task' => exact Or.inl (mem_tasks_runEndTask htask)
  | restart => cases htask

end Rows

/-- How an event of the service changes a row of `rounds`. -/
def Site.Alters (s : Site) (e : SiteEvent) (r r' : Round) : Prop :=
  ∃ event, e.history s = some event ∧ s.world.Alters event r r'

/-- The rows of `rounds`. -/
def Site.rounds (s : Site) : List Round := s.world.db.rounds.rows

/-- A round has this key. -/
def Site.HasRound (s : Site) (roundID : ℕ) : Prop := ∃ r ∈ s.rounds, r.id = roundID

instance (s : Site) (roundID : ℕ) : Decidable (s.HasRound roundID) :=
  inferInstanceAs (Decidable (∃ r ∈ s.rounds, r.id = roundID))

section Site

variable {s : Site} {e : SiteEvent}

/-- The scheduler of rooms has no say about rounds. -/
theorem alters_withExpiry {w : World} {expiryTasks : List RoomID} {event : HistoryEvent}
    {r r' : Round} (h : (w.withExpiry expiryTasks).Alters event r r') : w.Alters event r r' := by
  cases h with
  | setDuration named admin created min max => exact .setDuration named admin created min max
  | start named admin created => exact .start named admin created
  | finish named admin started => exact .finish named admin started
  | timeOut due own => exact .timeOut due own

/-- The key of a round is its own. -/
theorem eq_of_rounds {r r' : Round} (hr : r ∈ s.rounds) (hr' : r' ∈ s.rounds) (h : r.id = r'.id) :
    r = r' := Table.eq_of_id_eq hr hr' h

/-- A round after an event of the service: it was there before, or the event changed a round into
it, or it is new, under the key that the database handed out. -/
theorem rounds_site (s : Site) (e : SiteEvent) :
    ∀ r' ∈ (s.happen e).rounds, r' ∈ s.rounds ∨ (∃ r ∈ s.rounds, s.Alters e r r') ∨
      ∃ env maxNumRoundsPerRoom params roomID id,
        e.history s = some (.request env (.createRound maxNumRoundsPerRoom params roomID)) ∧
          r' = newRound env.now params.duration id (s.world.db.rounds.fresh env.roundHint) := by
  intro r' hr'
  rcases happen_cases s e with hsame | ⟨_, _, _, _, _, _, hopens⟩ |
    ⟨expiryTasks, event, hevent, hstate⟩
  · rw [hsame] at hr'
    exact Or.inl hr'
  · unfold Site.rounds at hr'
    rw [hopens.db] at hr'
    exact Or.inl hr'
  · rw [hstate] at hr'
    rcases rounds_happen _ event r' hr' with hold | ⟨r, hr, halters⟩ |
      ⟨env, maxNumRoundsPerRoom, params, roomID, id, rfl, hnew⟩
    · exact Or.inl hold
    · exact Or.inr (Or.inl ⟨r, hr, event, hevent, alters_withExpiry halters⟩)
    · exact Or.inr (Or.inr ⟨env, maxNumRoundsPerRoom, params, roomID, id, hevent, hnew⟩)

/-- A round that is there after an event has come from the row that was there before under its
key. -/
theorem rounds_site_of_mem {r r' : Round} (hr : r ∈ s.rounds) (hr' : r' ∈ (s.happen e).rounds)
    (hid : r.id = r'.id) (hkeeps : ∀ r r', s.Alters e r r' → r.id = r'.id) :
    r' = r ∨ s.Alters e r r' := by
  rcases rounds_site s e r' hr' with hold | ⟨r₀, hr₀, halters⟩ | ⟨env, _, _, _, _, -, rfl⟩
  · exact Or.inl (eq_of_rounds hold hr hid.symm)
  · rw [eq_of_rounds hr hr₀ (hid.trans (hkeeps r₀ r' halters).symm)]
    exact Or.inr halters
  · -- A key that is handed out is not in use.
    exact absurd (List.mem_map.mpr ⟨r, hr, hid⟩) (s.world.db.rounds.fresh_not_mem env.roundHint)

end Site

/-! ## A round only advances -/

/-- The place of a status in the life of a round. -/
def RoundStatus.rank : RoundStatus → ℕ
  | .created => 0
  | .started => 1
  | .ended => 2

/-- What a round may become: it stays in its room, its status never goes back, and once it was
started its start and its duration are settled. -/
structure Round.Advances (r r' : Round) : Prop where
  id : r.id = r'.id
  room : r.roomID = r'.roomID
  status : r.status.rank ≤ r'.status.rank
  settled : r.status ≠ .created →
    r.lastUpdatedTime = r'.lastUpdatedTime ∧ r.duration = r'.duration

/-- No step. -/
theorem Round.Advances.refl (r : Round) : r.Advances r := ⟨rfl, rfl, le_rfl, fun _ => ⟨rfl, rfl⟩⟩

/-- A round that has begun does not become a created one again. -/
theorem Round.Advances.begun {r r' : Round} (h : r.Advances r') (hbegun : r.status ≠ .created) :
    r'.status ≠ .created := by
  intro hcreated
  have hrank := h.status
  rw [hcreated] at hrank
  cases hstatus : r.status with
  | created => exact hbegun hstatus
  | started =>
    rw [hstatus] at hrank
    exact absurd hrank (by decide)
  | ended =>
    rw [hstatus] at hrank
    exact absurd hrank (by decide)

/-- A round that advances twice advances. -/
theorem Round.Advances.trans {r₁ r₂ r₃ : Round} (h : r₁.Advances r₂) (h' : r₂.Advances r₃) :
    r₁.Advances r₃ where
  id := h.id.trans h'.id
  room := h.room.trans h'.room
  status := h.status.trans h'.status
  settled hbegun := by
    obtain ⟨htime, hduration⟩ := h.settled hbegun
    obtain ⟨htime', hduration'⟩ := h'.settled (h.begun hbegun)
    exact ⟨htime.trans htime', hduration.trans hduration'⟩

/-- No status comes after the end. -/
theorem rank_le_ended (status : RoundStatus) : status.rank ≤ RoundStatus.ended.rank := by
  cases status <;> decide

/-- Every change of a round takes it forward. -/
theorem World.Alters.advances {w : World} {event : HistoryEvent} {r r' : Round}
    (h : w.Alters event r r') : r.Advances r' := by
  cases h with
  | setDuration named admin created min max =>
    exact ⟨rfl, rfl, le_rfl, fun hbegun => absurd created hbegun⟩
  | start named admin created =>
    refine ⟨rfl, rfl, ?_, fun hbegun => absurd created hbegun⟩
    rw [created]
    exact Nat.zero_le _
  | finish named admin started => exact ⟨rfl, rfl, rank_le_ended _, fun _ => ⟨rfl, rfl⟩⟩
  | timeOut due own => exact ⟨rfl, rfl, rank_le_ended _, fun _ => ⟨rfl, rfl⟩⟩

/-- What an event does to a round is an advance. -/
theorem Site.Alters.advances {s : Site} {e : SiteEvent} {r r' : Round} (h : s.Alters e r r') :
    r.Advances r' := by
  obtain ⟨event, -, halters⟩ := h
  exact halters.advances

/-- Along every run of the service in which a round is not deleted, the round only advances: it
never leaves its room, its status only goes from created over started to ended, and its start and
duration do not change any more once it was started. -/
theorem advances_along (s : Site) (es : List SiteEvent) (r : Round) (hr : r ∈ s.rounds)
    (kept : Throughout Site.happen (fun s => s.HasRound r.id) s es) :
    ∃ r' ∈ (run Site.happen s es).rounds, r.Advances r' := by
  let R (s t : Site) : Prop := ∀ r₁ ∈ s.rounds, r₁.id = r.id → ∃ r₂ ∈ t.rounds, r₁.Advances r₂
  have hmove : R s (run Site.happen s es) := by
    refine related_of_throughout (R := R) ?_ ?_ ?_ kept
    · exact fun s r₁ hr₁ _ => ⟨r₁, hr₁, .refl r₁⟩
    · intro s t u hst htu r₁ hr₁ hid
      obtain ⟨r₂, hr₂, h⟩ := hst r₁ hr₁ hid
      obtain ⟨r₃, hr₃, h'⟩ := htu r₂ hr₂ (h.id.symm.trans hid)
      exact ⟨r₃, hr₃, h.trans h'⟩
    · rintro s e - ⟨r', hr', hid'⟩ r₁ hr₁ hid
      refine ⟨r', hr', ?_⟩
      rcases rounds_site_of_mem hr₁ hr' (hid.trans hid'.symm) fun _ _ h => h.advances.id with
        rfl | halters
      · exact .refl r'
      · exact halters.advances
  exact hmove r hr rfl

/-- A site with one room, in which a round waits to be started. -/
def Site.ready : Site := ⟨.ready, fun _ => "B4L8QR"⟩

/-- The round of this room is started by the admin, and ended by its task. -/
def wholeLife : List SiteEvent :=
  [.request SiteEnv.faultless (.startRound roomOne host),
    .runEndTask (Env.faultless 1801) ⟨1, roomOne, 1801 * 10^9⟩]

/-- A round is created, started and ended. -/
theorem advances_wholeLife :
    ∃ r' ∈ (run Site.happen .ready wholeLife).rounds, roundOne.Advances r' := by
  refine advances_along .ready wholeLife roundOne (by decide +kernel) ?_
  rw [wholeLife, throughout_cons, throughout_cons, throughout_nil]
  exact ⟨by decide +kernel, by decide +kernel, by decide +kernel⟩

/-! ## Only the admin and the timer change a round -/

/-- Along every run in which a round is not deleted, its row stays as it is, unless the admin of its
room sets its duration, starts it or ends it, or its own end task runs. -/
theorem untouched_of_along (s : Site) (es : List SiteEvent) (r : Round) (hr : r ∈ s.rounds)
    (kept : Throughout Site.happen (fun s => s.HasRound r.id) s es)
    (hnot : Along Site.happen (fun s e => ∀ r', ¬ s.Alters e r r') s es) :
    r ∈ (run Site.happen s es).rounds := by
  induction es generalizing s with
  | nil => exact hr
  | cons e es ih =>
    rw [throughout_cons] at kept
    refine ih (s.happen e) ?_ kept.2 hnot.2
    obtain ⟨r', hr', hid'⟩ : (s.happen e).HasRound r.id := kept.2 [] List.nil_prefix
    rcases rounds_site_of_mem hr hr' hid'.symm fun _ _ h => h.advances.id with rfl | halters
    · exact hr'
    · exact absurd halters (hnot.1 r')

/-- A user joins the room, tries to start its round, and leaves again. -/
def passThrough : List SiteEvent :=
  [.request SiteEnv.faultless (.joinRoom "B4L8QR" guest),
    .request SiteEnv.faultless (.startRound roomOne guest),
    .request SiteEnv.faultless (.leaveRoom roomOne guest)]

/-- Another user passes through the room, and the round waits. -/
theorem untouched_passThrough : roundOne ∈ (run Site.happen .ready passThrough).rounds := by
  refine untouched_of_along .ready passThrough roundOne (by decide +kernel) ?_ ?_
  · rw [passThrough, throughout_cons, throughout_cons, throughout_cons, throughout_nil]
    exact ⟨by decide +kernel, by decide +kernel, by decide +kernel, by decide +kernel⟩
  · refine ⟨?_, ?_, ?_, trivial⟩
    · rintro r' ⟨event, hevent, halters⟩
      cases halters <;> cases hevent
    · -- The user who tries to start the round is not the admin of its room.
      rintro r' ⟨event, hevent, halters⟩
      cases halters with
      | start named admin created =>
        cases hevent
        obtain ⟨room, hroom, hadmin⟩ := admin
        have hstored : (Site.happen .ready (.request SiteEnv.faultless
            (.joinRoom "B4L8QR" guest))).world.db.roomByID roomOne =
              some ⟨roomOne, host, false, isUUID_roomOne⟩ := by decide +kernel
        obtain rfl := Option.some.inj (hstored.symm.trans hroom)
        exact absurd hadmin (by decide)
      | setDuration named admin created min max => cases hevent
      | finish named admin started => cases hevent
      | timeOut due own => cases hevent
    · rintro r' ⟨event, hevent, halters⟩
      cases halters <;> cases hevent

/-! ## No round ends early -/

/-- A sequence of the database does not hand out the key of a round for which an end task still
waits. -/
def FreshKeys (s : Site) (e : SiteEvent) : Prop :=
  ∀ env maxNumRoundsPerRoom params roomID,
    e.history s = some (.request env (.createRound maxNumRoundsPerRoom params roomID)) →
      ∀ task ∈ s.world.tasks, task.roundID ≠ s.world.db.rounds.fresh env.roundHint

/-- When a round ends that had not ended, it was started, and either the admin of its room ended it,
or its end task did, at least the interval of the round after its start. -/
def EndsDuly (s : Site) (e : SiteEvent) : Prop :=
  ∀ r ∈ s.rounds, r.status ≠ .ended → ∀ r' ∈ (s.happen e).rounds, r'.id = r.id →
    r'.status = .ended → r.status = .started ∧
      ((∃ env roomID userID, e.history s = some (.request env (.endRound roomID userID)) ∧
          env.uuid.parse roomID = some r.roomID ∧ s.world.IsAdmin r.roomID userID) ∨
        ∃ env task, e.history s = some (.request env (.runEndTask task)) ∧ task.roundID = r.id ∧
          r.lastUpdatedTime * 10^9 + endInterval r ≤ env.now * 10^9)

/-- The end task of a round waits for the end of its interval, counted from its start, or longer. -/
def Clocked (s : Site) : Prop :=
  ∀ task ∈ s.world.tasks, ∀ r ∈ s.rounds, r.id = task.roundID →
    r.status ≠ .created ∧ r.lastUpdatedTime * 10^9 + endInterval r ≤ task.due

section Timer

variable {s : Site} {e : SiteEvent}

/-- The end tasks after an event of the service. -/
theorem tasks_site (s : Site) (e : SiteEvent) :
    ∀ task ∈ (s.happen e).world.tasks, task ∈ s.world.tasks ∨
      ∃ env round, task = endTaskOf env round ∧ round.start env.now ∈ (s.happen e).rounds := by
  intro task htask
  rcases happen_cases s e with hsame | ⟨_, _, _, _, _, _, hopens⟩ | ⟨_, event, -, hstate⟩
  · rw [hsame] at htask
    exact Or.inl htask
  · rw [hopens.tasks] at htask
    exact Or.inl htask
  · rw [hstate] at htask ⊢
    exact tasks_happen _ event task htask

/-- Once it was started, a round keeps the time at which it is to end. -/
theorem Round.Advances.due_eq {r r' : Round} (h : r.Advances r') (hbegun : r.status ≠ .created) :
    r'.lastUpdatedTime * 10^9 + endInterval r' = r.lastUpdatedTime * 10^9 + endInterval r := by
  obtain ⟨htime, hduration⟩ := h.settled hbegun
  unfold endInterval
  rw [htime, hduration]

/-- Every event leaves the tasks in step with the rounds. -/
theorem clocked_happen (h : Clocked s) (hkeys : FreshKeys s e) : Clocked (s.happen e) := by
  intro task htask r' hr' hid
  rcases tasks_site s e task htask with hold | ⟨env, round, rfl, hstarted⟩
  · rcases rounds_site s e r' hr' with hr | ⟨r, hr, halters⟩ | ⟨env, _, _, _, _, hevent, rfl⟩
    · exact h task hold r' hr hid
    · have hadvances := halters.advances
      obtain ⟨hbegun, hdue⟩ := h task hold r hr (hadvances.id.trans hid)
      exact ⟨hadvances.begun hbegun, (hadvances.due_eq hbegun).trans_le hdue⟩
    · exact absurd hid.symm (hkeys env _ _ _ hevent task hold)
  · -- The task is that of the round which has just been started.
    rw [eq_of_rounds hr' hstarted hid]
    refine ⟨nofun, ?_⟩
    show env.now * 10^9 + endInterval round ≤ env.now * 10^9 + env.scheduleDelay + endInterval round
    omega

/-- Where they are in step, a round ends duly. -/
theorem endsDuly_of_clocked (h : Clocked s) : EndsDuly s e := by
  intro r hr hopen r' hr' hid hended
  rcases rounds_site_of_mem hr hr' hid.symm fun _ _ halters => halters.advances.id with
    rfl | ⟨event, hevent, halters⟩
  · exact absurd hended hopen
  · cases halters with
    | setDuration named admin created min max => exact absurd hended hopen
    | start named admin created => cases hended
    | finish named admin started => exact ⟨started, Or.inl ⟨_, _, _, hevent, named, admin⟩⟩
    | timeOut due own =>
      obtain ⟨hbegun, htime⟩ := h _ due.1 r hr own.symm
      refine ⟨?_, Or.inr ⟨_, _, hevent, own, htime.trans due.2⟩⟩
      cases hstatus : r.status with
      | created => exact absurd hstatus hbegun
      | started => rfl
      | ended => exact absurd hstatus hopen

end Timer

/-- Along every run of central-service since it was set up, no round ends before its interval is
over, counted from its start, unless the admin of its room ends it; and none ends before it was
started. -/
theorem endsDuly_along (s : Site) (es : List SiteEvent) (h : s.world.tasks = [])
    (hkeys : Along Site.happen FreshKeys s es) : Along Site.happen EndsDuly s es := by
  have hclocked : Clocked s := by
    intro task htask
    rw [h] at htask
    cases htask
  clear h
  induction es generalizing s with
  | nil => trivial
  | cons e es ih =>
    exact ⟨endsDuly_of_clocked hclocked, ih (s.happen e) hkeys.2 (clocked_happen hclocked hkeys.1)⟩

/-- While the round runs the admin creates another one, and then the time is over. -/
def lifeWithSecond : List SiteEvent :=
  [.request SiteEnv.faultless (.startRound roomOne host),
    .request SiteEnv.faultless (.createNewRound (some (handPicked [1])) roomOne),
    .runEndTask (Env.faultless 1801) ⟨1, roomOne, 1801 * 10^9⟩]

/-- The second round gets another key than the one whose end task waits. -/
theorem endsDuly_lifeWithSecond : Along Site.happen EndsDuly .ready lifeWithSecond := by
  refine endsDuly_along .ready lifeWithSecond rfl ⟨?_, ?_, ?_, trivial⟩
  · intro env maxNumRoundsPerRoom params roomID hevent
    cases hevent
  · intro env maxNumRoundsPerRoom params roomID hevent
    cases hevent
    decide +kernel
  · intro env maxNumRoundsPerRoom params roomID hevent
    cases hevent

end Bsg.Central
