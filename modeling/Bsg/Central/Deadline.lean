import Bsg.Central.RoundSteps

/-!
# No submission after the end of a round

A submission should be accepted only until the round's duration, counted from its start, and the
buffer are over (`InTime 0`). What refuses late submissions is the status of the round, and only the
end task turns it, so every started round must have an end task that waits in the scheduler and
comes in time (`Pending`). The scheduler is in memory: `inTime_of_along` says that this holds along
a run as long as no start stops after it marked the round, no end task fails, and central-service is
not restarted while a round is started. The interval runs from the call of the scheduler, which
comes after the start time was taken, so that much later (`slack`) a submission may still be
accepted.
-/

namespace Bsg.Central

open Bsg.Foundations

/-- The last moment for a submission, in nanoseconds. -/
def Round.deadline (round : Round) : ℤ :=
  (round.lastUpdatedTime + 60 * round.duration + roundDurationBuffer) * 10^9

section Deadline

/-! The nanoseconds by which the end of a round may come late. -/
variable (slack : ℕ)

/-- Each started round has an end task that comes in time. -/
def Pending (w : World) : Prop :=
  ∀ round ∈ w.db.rounds.rows, round.status = .started →
    ∃ task ∈ w.tasks, task.roundID = round.id ∧ task.due ≤ round.deadline + slack

/-- The round of an accepted submission has not passed its deadline, as long as the scheduler has
run the tasks whose time is over. -/
def AcceptsInTime (w : World) : Prop :=
  ∀ (env : Env) (params : RoundSubmissionParameters) (author : AuthID)
    (r : RoundSubmission × Submission), (∀ task ∈ w.tasks, env.now * 10^9 ≤ task.due) →
      ((createRoundSubmission env params author).run w).1 = .ok r →
        ∃ round, w.db.rounds.find? params.roundID = some round ∧ env.now * 10^9 ≤ round.deadline + slack

/-- Submissions are accepted in time, because every started round is going to be ended. -/
structure InTime (w : World) : Prop where
  pending : Pending slack w
  accepts : AcceptsInTime slack w

/-- A start schedules the end of the round, and not too late; an end task does not fail while its
round is started; and there is no restart while a round is started. -/
def KeepsDeadline (w : World) (e : Env × RoomEvent) : Prop :=
  match e.2 with
  | .startRound roomID userID =>
    ∀ round, w.db.chosenRound e.1 roomID userID .created = some round →
      e.1.fails .zrangeJoin = false → Startable e.1 round w →
        (Enrollable e.1 (w.members roomID) ∧ Schedulable e.1 round) ∧
          e.1.scheduleDelay + endInterval round ≤
            (60 * round.duration + roundDurationBuffer) * 10^9 + slack
  | .runEndTask task =>
    task.Due e.1 w → e.1.fails .updateRoundStatus = true →
      ∀ round ∈ w.db.rounds.rows, round.id = task.roundID → round.status ≠ .started
  | .restart => ∀ round ∈ w.db.rounds.rows, round.status ≠ .started
  | _ => True

end Deadline

variable {slack : ℕ}

section Accept

variable {env : Env} {params : RoundSubmissionParameters} {author : AuthID} {w w' : World}

/-- A submission passes the checks only while its round is started. -/
theorem checkSubmission_started {ctx : SubmissionContext}
    (h : (checkSubmission env params author).run w = (.ok ctx, w')) :
    ∃ round, w.db.rounds.find? params.roundID = some round ∧ round.status = .started := by
  unfold checkSubmission at h
  obtain ⟨found, w₁, hround, h⟩ := Call.bind_eq_ok h
  obtain ⟨-, rfl, rfl⟩ := Call.io_read_eq_ok hround
  cases hfound : w.db.rounds.find? params.roundID with
  | none =>
    rw [hfound] at h
    cases h
  | some round =>
    rw [hfound] at h
    refine ⟨round, rfl, ?_⟩
    cases hstatus : round.status with
    | created =>
      dsimp only at h
      rw [if_pos hstatus] at h
      cases h
    | ended =>
      dsimp only at h
      rw [if_neg (by rw [hstatus]; decide), if_pos hstatus] at h
      cases h
    | started => rfl

/-- An end task that waits for each started round keeps late submissions out. -/
theorem Pending.inTime (h : Pending slack w) : InTime slack w := by
  refine ⟨h, fun env params author r hpunctual hrun => ?_⟩
  have hcheck : ∃ ctx w', (checkSubmission env params author).run w = (.ok ctx, w') := by
    rcases createRoundSubmission_cases env params author w with ⟨o, hfails, hno, -⟩ |
      ⟨ctx, hctx, -⟩
    · rw [hfails] at hrun
      exact absurd hrun (hno r)
    · exact ⟨ctx, w, hctx⟩
  obtain ⟨ctx, w', hctx⟩ := hcheck
  obtain ⟨round, hfound, hstarted⟩ := checkSubmission_started hctx
  obtain ⟨task, htask, -, hdue⟩ := h round (Table.find?_eq_some.mp hfound).1 hstarted
  exact ⟨round, hfound, (hpunctual task htask).trans hdue⟩

end Accept

section Step

variable {w w' : World}

/-- The end tasks still suffice when no round was started and none of their tasks is gone. -/
theorem Pending.of_rounds (h : Pending slack w)
    (hrounds : ∀ round ∈ w'.db.rounds.rows, round.status = .started → round ∈ w.db.rounds.rows)
    (htasks : ∀ round ∈ w'.db.rounds.rows, round.status = .started →
      ∀ task ∈ w.tasks, task.roundID = round.id → task ∈ w'.tasks) : Pending slack w' := by
  intro round hround hstarted
  obtain ⟨task, htask, hid, hdue⟩ := h round (hrounds round hround hstarted) hstarted
  exact ⟨task, htasks round hround hstarted task htask hid, hid, hdue⟩

/-- A change elsewhere keeps them. -/
theorem Pending.congr (h : Pending slack w) (hrounds : w'.db.rounds = w.db.rounds)
    (htasks : w'.tasks = w.tasks) : Pending slack w' := by
  unfold Pending
  rw [hrounds, htasks]
  exact h

/-- So does a room that is left or deleted. -/
theorem Pending.retires (h : Pending slack w) (hretires : Retires w w') : Pending slack w' := by
  refine h.of_rounds (fun round hround _ => hretires.rounds.subset hround) fun _ _ _ task htask _ => ?_
  rw [hretires.tasks]
  exact htask

/-- A rewriting that leaves no started round with the key keeps the end tasks of the others. -/
theorem Pending.modify (h : Pending slack w) {f : Round → Round} (hf : ∀ r, Row.id (f r) = Row.id r)
    {roundID : ℕ} (hstopped : ∀ r ∈ w.db.rounds.rows, r.id = roundID → (f r).status ≠ .started)
    (hrounds : w'.db.rounds = w.db.rounds.modify roundID f hf)
    (htasks : ∀ task ∈ w.tasks, task.roundID ≠ roundID → task ∈ w'.tasks) : Pending slack w' := by
  have hold : ∀ round ∈ w'.db.rounds.rows, round.status = .started →
      round ∈ w.db.rounds.rows ∧ round.id ≠ roundID := by
    intro round hround hstarted
    rw [hrounds, Table.rows_modify] at hround
    obtain ⟨r, hr, rfl⟩ := List.mem_map.mp hround
    by_cases hid : r.id = roundID
    · have hid' : Row.id r = roundID := hid
      rw [if_pos hid'] at hstarted
      exact absurd hstarted (hstopped r hr hid)
    · have hid' : ¬ Row.id r = roundID := hid
      rw [if_neg hid'] at hstarted ⊢
      exact ⟨hr, hid⟩
  refine h.of_rounds (fun round hround hstarted => (hold round hround hstarted).1) ?_
  intro round hround hstarted task htask hid
  exact htasks task htask (by
    rw [hid]
    exact (hold round hround hstarted).2)

/-- A new round is not started yet. -/
theorem Pending.inserts (h : Pending slack w) {env : Env} {duration : ℤ} {roomID : RoomID}
    (hinserts : Inserts env duration roomID w w') : Pending slack w' := by
  refine h.of_rounds (fun round hround hstarted => ?_) fun _ _ _ task htask _ => ?_
  · rw [hinserts.rounds] at hround
    rcases List.mem_append.mp hround with hold | hnew
    · exact hold
    · rw [List.mem_singleton.mp hnew] at hstarted
      cases hstarted
  · rw [hinserts.tasks]
    exact htask

/-- The row that a request chose is the only one with its key. -/
theorem eq_of_chosenRound {env : Env} {roomID : RoomID} {userID : AuthID} {status : RoundStatus}
    {round r : Round} (hchosen : w.db.chosenRound env roomID userID status = some round)
    (hr : r ∈ w.db.rounds.rows) (hid : r.id = round.id) : r = round :=
  Table.eq_of_id_eq hr (mem_of_chosenRound hchosen).1.1 hid

/-- A start that schedules the end of its round in time. -/
theorem Pending.starts (h : Pending slack w) {env : Env} {roomID : RoomID} {round : Round}
    {users : List AuthID} (hstarts : Starts env roomID round users w w')
    (hunique : ∀ r ∈ w.db.rounds.rows, r.id = round.id → r = round)
    (hends : Enrollable env users ∧ Schedulable env round)
    (hdue : env.scheduleDelay + endInterval round ≤
      (60 * round.duration + roundDurationBuffer) * 10^9 + slack) : Pending slack w' := by
  have htasks : w'.tasks = w.tasks ++ [endTaskOf env round] := by rw [hstarts.tasks, if_pos hends]
  intro r hr hstarted
  rw [hstarts.rounds] at hr
  have hrows : r ∈ (w.db.rounds.modify round.id (Round.start env.now)
    (Round.id_start env.now)).rows := hr
  rw [Table.rows_modify] at hrows
  obtain ⟨r₀, hr₀, rfl⟩ := List.mem_map.mp hrows
  rw [htasks]
  by_cases hid : r₀.id = round.id
  · -- The round that starts has the new task.
    have hid' : Row.id r₀ = round.id := hid
    rw [if_pos hid', hunique r₀ hr₀ hid]
    refine ⟨endTaskOf env round, List.mem_append_right _ (List.mem_singleton_self _), rfl, ?_⟩
    show env.now * 10^9 + env.scheduleDelay + endInterval round ≤
      (env.now + 60 * round.duration + roundDurationBuffer) * 10^9 + slack
    omega
  · -- The other rounds keep the tasks that they have.
    have hid' : ¬ Row.id r₀ = round.id := hid
    rw [if_neg hid'] at hstarted ⊢
    obtain ⟨task, htask, htaskID, htaskDue⟩ := h r₀ hr₀ hstarted
    exact ⟨task, List.mem_append_left _ htask, htaskID, htaskDue⟩

/-- A request that creates a round starts none. -/
theorem Pending.createRound (h : Pending slack w) (env : Env) (maxNumRoundsPerRoom : ℤ)
    (params : RoundCreationParameters) (roomID : RoomID) :
    Pending slack ((createRound env maxNumRoundsPerRoom params roomID).run w).2 := by
  rcases createRound_cases env maxNumRoundsPerRoom params roomID w with
    ⟨-, e, w', hrun, rfl | ⟨-, hshrinks⟩⟩ | ⟨-, room, -, w₁, hinserts, hend⟩
  · rwa [hrun]
  · rw [hrun]
    exact h.retires hshrinks.retires
  · have hnew := h.inserts hinserts
    rcases hend with ⟨-, r, hrun⟩ | ⟨-, e, w₂, hrun, rfl | ⟨-, hshrinks⟩⟩
    · rwa [hrun]
    · rwa [hrun]
    · rw [hrun]
      exact hnew.retires hshrinks.retires

/-- A request that sets a duration only edits a round that has not started. -/
theorem Pending.setRoundDuration (h : Pending slack w) (env : Env) (roomID : RoomID)
    (userID : AuthID) (duration : ℤ) :
    Pending slack ((setRoundDurationByRoomID env roomID userID duration).run w).2 := by
  rcases setRoundDurationByRoomID_cases env roomID userID duration w with
    hsame | ⟨round, hchosen, -, -, hrun⟩
  · rwa [hsame]
  · rw [hrun]
    refine h.modify (Round.id_setDuration duration) (fun r hr hid => ?_) rfl fun _ htask _ => htask
    rw [eq_of_chosenRound hchosen hr hid]
    show round.status ≠ .started
    rw [(mem_of_chosenRound hchosen).2]
    decide

/-- An end task that runs ends its round, or its round was not started. -/
theorem Pending.runEndTask (h : Pending slack w) {env : Env} {task : EndTask}
    (hkeeps : KeepsDeadline slack w (env, .runEndTask task)) :
    Pending slack (w.serve (env, .runEndTask task)) := by
  -- The tasks of other rounds stay.
  have herase : ∀ task' ∈ w.tasks, task'.roundID ≠ task.roundID → task' ∈ w.tasks.erase task := by
    intro task' htask' hne
    have hother : task' ≠ task := fun heq => hne (heq ▸ rfl)
    exact (List.mem_erase_of_ne hother).mpr htask'
  rcases serve_runEndTask_cases env task w with hserve | ⟨hdue, ⟨hupdate, hserve⟩ | ⟨-, hserve⟩⟩
  · rwa [hserve]
  · rw [hserve]
    refine h.of_rounds (fun _ hround _ => hround) fun round hround hstarted task' htask' hid => ?_
    refine herase task' htask' fun heq => ?_
    exact hkeeps hdue hupdate round hround (hid.symm.trans heq) hstarted
  · rw [hserve]
    refine h.modify Round.id_finish (fun r _ _ => ?_) rfl herase
    show RoundStatus.ended ≠ .started
    decide

/-- An event keeps the end tasks of started rounds when it heeds what it must. -/
theorem pending_serve (e : Env × RoomEvent) (h : Pending slack w) (hkeeps : KeepsDeadline slack w e) :
    Pending slack (w.serve e) := by
  obtain ⟨env, event⟩ := e
  cases event with
  | joinRoom roomID userID =>
    obtain ⟨hrounds, htasks⟩ := Prod.ext_iff.mp (keeps_joinRoom env roomID userID w)
    exact h.congr hrounds htasks
  | leaveRoom roomID userID => exact h.retires (retires_leaveRoom env roomID userID w)
  | expireRoom roomID => exact h.retires (retires_expireRoom env roomID w)
  | createRound maxNumRoundsPerRoom params roomID =>
    exact h.createRound env maxNumRoundsPerRoom params roomID
  | setRoundDuration roomID userID duration => exact h.setRoundDuration env roomID userID duration
  | startRound roomID userID =>
    show Pending slack ((startRoundByRoomID env roomID userID).run w).2
    rcases startRoundByRoomID_cases env roomID userID w with ⟨o, hrun, -⟩ |
      ⟨round, hchosen, husers, hstartable, o, w', hrun, hstarts⟩
    · rwa [hrun]
    · obtain ⟨hends, hdue⟩ := hkeeps round hchosen husers hstartable
      rw [hrun]
      exact h.starts hstarts (fun r hr hid => eq_of_chosenRound hchosen hr hid) hends hdue
  | endRound roomID userID =>
    show Pending slack ((endRoundByRoomID env roomID userID).run w).2
    rcases endRoundByRoomID_cases env roomID userID w with ⟨o, hrun, -⟩ | ⟨round, -, -, hrun⟩
    · rwa [hrun]
    · rw [hrun]
      refine h.modify Round.id_finish (fun r _ _ => ?_) rfl fun _ htask _ => htask
      show RoundStatus.ended ≠ .started
      decide
  | createSubmission roomID params userID =>
    obtain ⟨-, hkeeps⟩ := Prod.ext_iff.mp (keeps_createRoomSubmission env roomID params userID w)
    obtain ⟨hrounds, hrest⟩ := Prod.ext_iff.mp hkeeps
    obtain ⟨htasks, -⟩ := Prod.ext_iff.mp hrest
    exact h.congr hrounds htasks
  | runEndTask task => exact h.runEndTask hkeeps
  | restart =>
    intro round hround hstarted
    exact absurd hstarted (hkeeps round hround)

end Step

/-- Along every run, restarts included, every started round has an end task that waits, and
submissions are accepted only in time, as long as every event heeds what it must: not later than the
deadline, when no start is slower than this. -/
theorem inTime_of_along (slack : ℕ) (w : World) (es : List (Env × RoomEvent)) (h : Pending slack w)
    (hkeeps : Along World.serve (KeepsDeadline slack) w es) :
    Throughout World.serve (InTime slack) w es :=
  (invariant_along (I := Pending slack) (fun _ e hpending hok => pending_serve e hpending hok) h
    hkeeps).mono
    fun _ => Pending.inTime

/-- The ready database has one round. -/
theorem rows_ready : World.ready.db.rounds.rows = [roundOne] := by decide +kernel

/-- It is not started. -/
theorem pending_ready : Pending slack .ready := by
  intro round hround hstarted
  rw [rows_ready, List.mem_singleton] at hround
  rw [hround] at hstarted
  cases hstarted

/-- A round is started, and ended by its task, and then central-service is restarted. -/
def wholeRound : List (Env × RoomEvent) :=
  [(Env.faultless 10, .startRound roomOne host),
    (Env.faultless 1811, .runEndTask ⟨1, roomOne, 1811 * 10^9⟩), (Env.faultless 2000, .restart)]

/-- No submission for it is accepted after its deadline. -/
theorem inTime_wholeRound : Throughout World.serve (InTime 0) .ready wholeRound := by
  refine inTime_of_along 0 .ready wholeRound pending_ready ⟨?_, ?_, ?_, trivial⟩
  · intro round hchosen _ _
    have hround : World.ready.db.chosenRound (Env.faultless 10) roomOne host .created =
        some roundOne := by decide +kernel
    obtain rfl := Option.some.inj (hround.symm.trans hchosen)
    exact ⟨⟨by decide +kernel, by decide +kernel⟩, by decide +kernel⟩
  · intro _ hfails
    cases hfails
  · show ∀ round ∈ _, _
    decide +kernel

/-- A round is started, and then central-service is restarted. -/
def startThenRestart : List (Env × RoomEvent) :=
  [(Env.faultless 10, .startRound roomOne host), (Env.faultless 20, .restart)]

/-- An accepted solution of the first problem. -/
def lateSolution : RoundSubmissionParameters := ⟨1, 1, "", "", submissionStatusAccepted, 0⟩

/-- Hours after the end of the round, a submission for it is still accepted. -/
theorem not_inTime :
    Pending 0 .ready ∧ ¬ Throughout World.serve (InTime 0) .ready startThenRestart := by
  refine ⟨pending_ready, fun h => ?_⟩
  let last := run World.serve World.ready startThenRestart
  let env := Env.faultless 100000
  -- The restart has lost the end task of the round, which is still started.
  have htasks : last.tasks = [] := by decide +kernel
  have hround : last.db.rounds.find? 1 = some ⟨1, 10, 30, roomOne, .started⟩ := by decide +kernel
  have haccepted : ((createRoundSubmission env lateSolution host).run last).1.ok?.isSome = true := by
    decide +kernel
  cases hrun : ((createRoundSubmission env lateSolution host).run last).1 with
  | err e =>
    rw [hrun] at haccepted
    cases haccepted
  | panic =>
    rw [hrun] at haccepted
    cases haccepted
  | ok r =>
    obtain ⟨round, hfound, hle⟩ := h.last.accepts env lateSolution host r (by
      intro task htask
      have hmem : task ∈ last.tasks := htask
      rw [htasks] at hmem
      cases hmem) hrun
    obtain rfl := Option.some.inj (hround.symm.trans hfound)
    -- The submission comes long after the deadline, and is accepted.
    have hlate : ¬ (100000 : ℤ) * 10^9 ≤ (10 + 60 * 30 + roundDurationBuffer) * 10^9 := by decide
    exact hlate hle

end Bsg.Central
