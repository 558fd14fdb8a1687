import Bsg.Central.CreateRoundTrace
import Bsg.Central.RoomEvents
import Bsg.Central.Submitting

/-!
# What happens to the rounds of a room

Specifications of the events that concern the rounds of a room, beside `createRound_cases` and
`startRoundByRoomID_cases`: ending a round (`endRoundByRoomID_cases`, `serve_runEndTask_cases`),
editing its duration (`setRoundDurationByRoomID_cases`), joining and leaving (`keeps_joinRoom`,
`retires_leaveRoom`), and handing in a submission, which leaves all rounds alone
(`keeps_createRoomSubmission`). A room's rounds are `World.roundsIn`, in the order of their
creation.
-/

namespace Bsg.Central

open Bsg.Foundations

/-! ## The rounds of a room -/

section Rounds

variable {w w' : World} {roomID : RoomID} {round : Round}

/-- The rounds of a room are the rows that name it. -/
theorem mem_roundsIn : round ∈ w.roundsIn roomID ↔
    round ∈ w.db.rounds.rows ∧ round.roomID = roomID := by
  unfold World.roundsIn
  rw [List.mem_filter, decide_eq_true_eq]

/-- The rounds that a query loads are those of the room, in some order. -/
theorem roundsOf_eq (w : World) (a : Arrangement Round) (roomID : RoomID) :
    w.db.roundsOf a roomID = a.order (w.roundsIn roomID) := rfl

/-- No round is listed twice. -/
theorem roundsIn_nodup (w : World) (roomID : RoomID) : (w.roundsIn roomID).Nodup :=
  w.db.rounds.rows_nodup.filter _

/-- Two rounds of a room with one key are one round. -/
theorem eq_of_mem_roundsIn {round' : Round} (h : round ∈ w.roundsIn roomID)
    (h' : round' ∈ w.roundsIn roomID) (hid : round.id = round'.id) : round = round' :=
  Table.eq_of_id_eq (mem_roundsIn.mp h).1 (mem_roundsIn.mp h').1 hid

/-- The rounds of a room after one round was rewritten, which leaves rooms and keys. -/
theorem roundsIn_modify {f : Round → Round} (hf : ∀ r, Row.id (f r) = Row.id r) {roundID : ℕ}
    (hroom : ∀ r, (f r).roomID = r.roomID) (h : w'.db.rounds = w.db.rounds.modify roundID f hf) :
    w'.roundsIn roomID = (w.roundsIn roomID).map fun r => if r.id = roundID then f r else r := by
  unfold World.roundsIn
  rw [h, Table.rows_modify, List.filter_map]
  refine congrArg _ (List.filter_congr fun r _ => ?_)
  show decide ((if r.id = roundID then f r else r).roomID = roomID) = _
  split
  · rw [hroom]
  · rfl

end Rounds

/-- A room has no more rounds when rounds are only taken away. -/
theorem Shrinks.roundsIn {w w' : World} (h : Shrinks w w') (roomID : RoomID) :
    (w'.roundsIn roomID).Sublist (w.roundsIn roomID) := h.rounds.filter _

/-- The rounds of a room after one of them was started. -/
theorem Starts.roundsIn {env : Env} {roomID : RoomID} {round : Round} {users : List AuthID}
    {w w' : World} (h : Starts env roomID round users w w') (roomID' : RoomID) :
    w'.roundsIn roomID' = (w.roundsIn roomID').map fun r =>
      if r.id = round.id then r.start env.now else r :=
  roundsIn_modify (Round.id_start env.now) (fun _ => rfl) h.rounds

/-! ## Events that leave the rooms alone -/

/-- The rows of the rooms, and the key of each room's most recent round. -/
def World.directory (w : World) : List Room × (RoomID → Option ℕ) :=
  (w.db.rooms, w.redis.mostRecentRound)

/-- `FindRoomByID` only reads. -/
theorem keeps_findRoomByID {γ : Type} {f : World → γ} (env : Env) (roomID : RoomID) :
    Call.Keeps f (findRoomByID env roomID) := by
  unfold findRoomByID
  cases env.uuid.parse roomID with
  | none => exact Call.Keeps.fail _
  | some uuid =>
    refine Call.Keeps.io _ _ (Call.Keeps.bind (Call.Keeps.read _) fun room => ?_)
    cases room with
    | none => exact Call.Keeps.fail _
    | some room => exact Call.Keeps.bind (Call.Keeps.read _) fun _ => Call.Keeps.pure _

/-- Starting a round leaves the rooms and the keys of their most recent rounds. -/
theorem keeps_initiateRoundStart (env : Env) (round : Round) (users : List AuthID) :
    Call.Keeps World.directory (initiateRoundStart env round users) := by
  intro w
  have hstarted : (w.started env round).directory = w.directory := rfl
  have henrolled := enrols_enrolled env round.id users (w.started env round)
  have hdirectory : ((w.started env round).enrolled env round.id users).directory = w.directory := by
    unfold World.directory
    rw [henrolled.db, henrolled.enrolling.redis]
    rfl
  rcases initiateRoundStart_cases env round users w with ⟨-, e, hrun⟩ | ⟨-, ⟨-, e, w', hrun, hdb,
    henrolling⟩ | ⟨-, ⟨-, e, hrun⟩ | ⟨-, r, hrun⟩⟩⟩
  · rw [hrun]
    exact rfl
  · rw [hrun]
    show w'.directory = w.directory
    unfold World.directory
    rw [hdb, henrolling.redis]
    rfl
  · rw [hrun]
    exact hdirectory
  · rw [hrun]
    exact hdirectory

/-- A start leaves the rooms and their most recent rounds. -/
theorem keeps_startRoundByRoomID (env : Env) (roomID : RoomID) (userID : AuthID) :
    Call.Keeps World.directory (startRoundByRoomID env roomID userID) := by
  refine Call.Keeps.bind ?_ fun round => Call.Keeps.bind ?_ fun users =>
    Call.Keeps.bind (keeps_initiateRoundStart env round users) fun started =>
      Call.Keeps.bind (Call.Keeps.forEach fun user _ => ?_) fun _ => Call.Keeps.pure _
  · refine Call.Keeps.bind (keeps_findRoomByID env roomID) fun found => ?_
    refine Call.Keeps.ite _ (Call.Keeps.fail _) ?_
    cases found.2.find? fun r => decide (r.status = .created) with
    | none => exact Call.Keeps.fail _
    | some round => exact Call.Keeps.pure _
  · exact Call.Keeps.io _ _ (Call.Keeps.read _)
  · exact Call.Keeps.bind (Call.Keeps.read _) fun _ =>
      keeps_logged (keeps_sendMessage (fun _ _ => rfl) _ _)

/-! ## Ending a round -/

section End

variable {env : Env} {roomID : RoomID} {userID : AuthID} {round : Round} {w : World}

/-- The state in which a round was marked ended. -/
def World.finished (roundID : ℕ) (w : World) : World := { w with db := w.db.finishRound roundID }

/-- The rounds of a room after a round was marked ended. -/
theorem roundsIn_finished (roundID : ℕ) (rs : List Rtc.Request) (w : World) (roomID : RoomID) :
    ((w.finished roundID).tell rs).roundsIn roomID =
      (w.roundsIn roomID).map fun r => if r.id = roundID then r.finish else r :=
  roundsIn_modify Round.id_finish (fun _ => rfl) rfl

/-- The round is marked as ended. -/
theorem markRoundEnded_run {env : Env} (h : env.fails .updateRoundStatus = false) (roundID : ℕ)
    (w : World) : (markRoundEnded env roundID).run w = (.ok (), w.finished roundID) := by
  unfold markRoundEnded
  rw [h]
  rfl

/-- When the statement fails, the round stays as it is. -/
theorem markRoundEnded_fails {env : Env} (h : env.fails .updateRoundStatus = true) (roundID : ℕ)
    (w : World) : (markRoundEnded env roundID).run w = (.err .io, w) := by
  unfold markRoundEnded
  rw [h]
  rfl

/-- The announcement that a round ended, as far as it is delivered. -/
def roundEndNotice (env : Env) (roomID : RoomID) : List Rtc.Request :=
  delivered (env.reply .roundEnd) (.roundEnd roomID)

/-- An end by the admin changes nothing, or it ends a started round of the room and announces
that. -/
theorem endRoundByRoomID_cases (env : Env) (roomID : RoomID) (userID : AuthID) (w : World) :
    (∃ o, (endRoundByRoomID env roomID userID).run w = (o, w) ∧
      ∀ round, w.db.chosenRound env roomID userID .started = some round →
        env.fails .updateRoundStatus = true) ∨
    ∃ round, w.db.chosenRound env roomID userID .started = some round ∧
      env.fails .updateRoundStatus = false ∧
      (endRoundByRoomID env roomID userID).run w =
        (.ok (), (w.finished round.id).tell (roundEndNotice env roomID)) := by
  unfold endRoundByRoomID
  cases hchosen : w.db.chosenRound env roomID userID .started with
  | none =>
    -- No round is chosen: the room is not found, the user is not its admin, or no round runs.
    refine Or.inl ?_
    by_cases hfind : ∃ room, Findable env roomID w.db room
    · obtain ⟨room, hroom⟩ := hfind
      rw [Call.bind_ok (findRoomByID_run hroom)]
      dsimp only
      by_cases hadmin : room.admin = userID
      · rw [if_neg (not_not_intro hadmin)]
        cases hfound : (w.db.roundsOf env.rounds room.id).find? fun r =>
            decide (r.status = .started) with
        | none => exact ⟨_, rfl, by simp⟩
        | some round =>
          rw [chosenRound_eq_some.mpr ⟨room, hroom, hadmin, hfound⟩] at hchosen
          cases hchosen
      · rw [if_pos hadmin]
        exact ⟨_, rfl, by simp⟩
    · obtain ⟨e, hrun⟩ := findRoomByID_fails fun room h => hfind ⟨room, h⟩
      exact ⟨_, Call.bind_err hrun _, by simp⟩
  | some round =>
    obtain ⟨room, hroom, hadmin, hfound⟩ := chosenRound_eq_some.mp hchosen
    rw [Call.bind_ok (findRoomByID_run hroom)]
    dsimp only
    rw [if_neg (not_not_intro hadmin), hfound]
    -- Only the update of the status can still fail; a lost notice is logged.
    cases hupdate : env.fails .updateRoundStatus with
    | true =>
      exact Or.inl ⟨_, Call.bind_err (markRoundEnded_fails hupdate round.id w) _, fun _ _ => rfl⟩
    | false =>
      refine Or.inr ⟨round, rfl, rfl, ?_⟩
      exact (Call.bind_ok (markRoundEnded_run hupdate round.id w) _).trans
        (logged_sendMessage_run _ _ _)

/-- A task that fires is forgotten; it ends its round, whatever the status of that is, and announces
it, unless the database fails. -/
theorem fireEndTask_run (env : Env) (task : EndTask) (w : World) :
    (fireEndTask env task).run w = (.ok (),
      if env.fails .updateRoundStatus then { w with tasks := w.tasks.erase task }
      else (World.finished task.roundID { w with tasks := w.tasks.erase task }).tell
        (roundEndNotice env task.roomID)) := by
  let w₁ : World := { w with tasks := w.tasks.erase task }
  unfold fireEndTask endTaskFunc
  refine (Call.bind_ok (t := w₁) rfl _).trans ?_
  cases hupdate : env.fails .updateRoundStatus with
  | true =>
    exact Call.attempt_err (Call.bind_err (markRoundEnded_fails hupdate task.roundID w₁) _) _
  | false =>
    have hmark := markRoundEnded_run hupdate task.roundID w₁
    obtain ⟨o, hsend, hcalm, -⟩ := sendMessage_run (env.reply .roundEnd) (.roundEnd task.roomID)
      (w₁.finished task.roundID)
    have hrun := (Call.bind_ok hmark fun _ =>
      sendMessage (env.reply .roundEnd) (.roundEnd task.roomID)).trans hsend
    rw [if_neg Bool.false_ne_true]
    cases o with
    | ok _ => exact Call.attempt_ok hrun _
    | err _ => exact Call.attempt_err hrun _
    | panic => exact absurd rfl hcalm

/-- A scheduler runs a task only when it is due. The task is forgotten then, and its round is ended
unless the database fails. -/
theorem serve_runEndTask_cases (env : Env) (task : EndTask) (w : World) :
    w.serve (env, .runEndTask task) = w ∨
    task.Due env w ∧
      (env.fails .updateRoundStatus = true ∧
        w.serve (env, .runEndTask task) = { w with tasks := w.tasks.erase task } ∨
      env.fails .updateRoundStatus = false ∧
        w.serve (env, .runEndTask task) =
          (World.finished task.roundID { w with tasks := w.tasks.erase task }).tell
            (roundEndNotice env task.roomID)) := by
  by_cases hdue : task.Due env w
  swap
  · exact Or.inl (if_neg hdue)
  have hserve : w.serve (env, .runEndTask task) = ((fireEndTask env task).run w).2 := if_pos hdue
  rw [fireEndTask_run] at hserve
  refine Or.inr ⟨hdue, ?_⟩
  cases hupdate : env.fails .updateRoundStatus with
  | true => exact Or.inl ⟨rfl, hserve.trans (if_pos hupdate)⟩
  | false => exact Or.inr ⟨rfl, hserve.trans (if_neg (Bool.eq_false_iff.mp hupdate))⟩

/-! ## The duration of a round -/

/-- An edit of the duration changes nothing, or it sets the duration of a created round of the room
to a value in the allowed range. -/
theorem setRoundDurationByRoomID_cases (env : Env) (roomID : RoomID) (userID : AuthID)
    (duration : ℤ) (w : World) :
    ((setRoundDurationByRoomID env roomID userID duration).run w).2 = w ∨
    ∃ round, w.db.chosenRound env roomID userID .created = some round ∧
      minRoundDuration ≤ duration ∧ duration ≤ maxRoundDuration ∧
      (setRoundDurationByRoomID env roomID userID duration).run w =
        (.ok duration, { w with db := w.db.setDuration duration round.id }) := by
  unfold setRoundDurationByRoomID
  by_cases hfind : ∃ room, Findable env roomID w.db room
  swap
  · obtain ⟨e, hrun⟩ := findRoomByID_fails fun room h => hfind ⟨room, h⟩
    rw [Call.bind_err hrun]
    exact Or.inl rfl
  obtain ⟨room, hroom⟩ := hfind
  rw [Call.bind_ok (findRoomByID_run hroom)]
  dsimp only
  by_cases hadmin : room.admin = userID
  swap
  · rw [if_pos hadmin]
    exact Or.inl rfl
  rw [if_neg (not_not_intro hadmin)]
  cases hfound : (w.db.roundsOf env.rounds room.id).find? fun r => decide (r.status = .created) with
  | none => exact Or.inl rfl
  | some round =>
    dsimp only
    -- The round was searched for by its status, so the check of the status always passes.
    unfold updateRoundDuration
    have hcreated : round.status = .created := by simpa using List.find?_some hfound
    rw [if_neg (not_not_intro hcreated)]
    by_cases hrange : duration < minRoundDuration ∨ duration > maxRoundDuration
    · rw [if_pos hrange]
      exact Or.inl rfl
    · rw [if_neg hrange]
      cases env.fails .updateDuration with
      | true => exact Or.inl rfl
      | false =>
        refine Or.inr ⟨round, chosenRound_eq_some.mpr ⟨room, hroom, hadmin, hfound⟩, ?_, ?_, rfl⟩
        · exact not_lt.mp fun h => hrange (Or.inl h)
        · exact not_lt.mp fun h => hrange (Or.inr h)

end End

/-! ## Joining and leaving -/

/-- The rounds and the end tasks. -/
def World.schedule (w : World) : Table Round × List EndTask := (w.db.rounds, w.tasks)

/-- An announcement changes nothing but what was sent. -/
theorem keeps_announce {γ : Type} {f : World → γ} (h : ∀ w rs, f (World.tell w rs) = f w)
    (env : Env) (call : RtcCall) (req : Rtc.Request) : Call.Keeps f (announce env call req) := by
  refine Call.Keeps.bind (Call.Keeps.attempt (keeps_sendMessage h _ _)) fun r => ?_
  cases r with
  | error e => exact Call.Keeps.fail _
  | ok _ => exact Call.Keeps.pure _

/-- A part of the state that neither the entries in Redis nor the requests to rtc-service touch. -/
structure Aside {γ : Type} (f : World → γ) : Prop where
  redis : ∀ w r, f { w with redis := r } = f w
  tell : ∀ w rs, f (World.tell w rs) = f w

section Aside

variable {γ : Type} {f : World → γ}

/-- A new score and a new pointer. -/
theorem Aside.keeps_addJoinMember (h : Aside f) (env : Env) (roomID : RoomID) (userID : AuthID) :
    Call.Keeps f (addJoinMember env roomID userID) := by
  refine Call.Keeps.bind (Call.Keeps.io _ _ (Call.Keeps.bind (Call.Keeps.read _) fun _ =>
    Call.Keeps.bind (Call.Keeps.write fun w => h.redis w _) fun _ => Call.Keeps.pure _))
      fun added => ?_
  refine Call.Keeps.bind (keeps_logged (Call.Keeps.io _ _ (Call.Keeps.write fun w => h.redis w _)))
    fun _ => ?_
  exact Call.Keeps.ite _ (Call.Keeps.pure _) (Call.Keeps.fail _)

/-- The score and the pointer of a user who leaves. -/
theorem Aside.keeps_removeJoinMember (h : Aside f) (env : Env) (roomID : RoomID) (userID : AuthID) :
    Call.Keeps f (removeJoinMember env roomID userID) := by
  refine Call.Keeps.bind (Call.Keeps.io _ _ (Call.Keeps.bind (Call.Keeps.read _) fun _ =>
    Call.Keeps.bind (Call.Keeps.write fun w => h.redis w _) fun _ => Call.Keeps.pure _))
      fun removed => ?_
  refine Call.Keeps.bind (keeps_logged (Call.Keeps.io _ _ (Call.Keeps.write fun w => h.redis w _)))
    fun _ => ?_
  exact Call.Keeps.ite _ (Call.Keeps.pure _) (Call.Keeps.fail _)

/-- Joining a room keeps what a new participant leaves as well. -/
theorem Aside.keeps_joinRoom (h : Aside f) (hparticipant : ∀ (w : World) hint userID roundID,
    f { w with db := w.db.addParticipant hint userID roundID } = f w) (env : Env) (roomID : RoomID)
    (userID : AuthID) : Call.Keeps f (joinRoom env roomID userID) := by
  refine Call.Keeps.bind (keeps_findRoomByID env roomID) fun (room, rounds) =>
    Call.Keeps.bind (h.keeps_addJoinMember env roomID userID) fun _ =>
      Call.Keeps.bind ?_ fun _ => Call.Keeps.pure _
  refine Call.Keeps.bind (Call.Keeps.read _) fun name =>
    Call.Keeps.bind (keeps_announce h.tell _ _ _) fun _ => ?_
  cases rounds.getLast? with
  | none => exact Call.Keeps.pure _
  | some round =>
    exact Call.Keeps.ite _ (Call.Keeps.bind
      (Call.Keeps.io _ _ (Call.Keeps.write fun w => hparticipant w _ _ _))
      fun _ => keeps_announce h.tell _ _ _) (Call.Keeps.pure _)

/-- Replacing the admin who left keeps what another admin of the room leaves as well. -/
theorem Aside.keeps_replaceAdmin (h : Aside f) (room : Room)
    (hadmin : ∀ (w : World) admin, f { w with db := { w.db with
      rooms := w.db.rooms.map fun r => if r.id = room.id then { r with admin := admin } else r } } =
        f w) (env : Env) (roomID : RoomID) (userID : AuthID) :
    Call.Keeps f (replaceAdmin env roomID room userID) := by
  refine Call.Keeps.ite _ (Call.Keeps.bind ?_ fun admin => Call.Keeps.bind
    (Call.Keeps.io _ _ (Call.Keeps.write fun w => hadmin w admin)) fun _ =>
      Call.Keeps.bind (Call.Keeps.read _) fun _ => keeps_logged (keeps_sendMessage h.tell _ _))
    (Call.Keeps.pure _)
  refine Call.Keeps.bind (Call.Keeps.io _ _ (Call.Keeps.read _)) fun members => ?_
  cases members with
  | nil => exact Call.Keeps.fail _
  | cons user others => exact Call.Keeps.pure _

/-- Handing in a submission keeps what its two rows and a count of solved problems leave as well. -/
theorem Aside.keeps_createRoundSubmission (h : Aside f) (env : Env)
    (params : RoundSubmissionParameters) (author : AuthID)
    (hstore : ∀ (w : World) ctx, f { w with db := w.db.addSubmission env params ctx } = f w)
    (hsolved : ∀ ctx, Call.Keeps f (countSolved env ctx)) :
    Call.Keeps f (createRoundSubmission env params author) := by
  have hsend : ∀ req call, Call.Keeps f (logged (sendMessage (env.reply call) req)) :=
    fun req call => keeps_logged (keeps_sendMessage h.tell _ _)
  refine Call.Keeps.bind (fun w => ?_) fun ctx => ?_
  · exact congrArg f (checkSubmission_pure env params author w).symm
  refine Call.Keeps.bind ?_ fun stored => ?_
  · exact Call.Keeps.io _ _ (Call.Keeps.bind (Call.Keeps.read _) fun _ =>
      Call.Keeps.bind (Call.Keeps.read _) fun _ =>
        Call.Keeps.bind (Call.Keeps.write fun w => hstore w ctx) fun _ => Call.Keeps.pure _)
  refine Call.Keeps.bind (Call.Keeps.io _ _ (Call.Keeps.pure _)) fun _ =>
    Call.Keeps.bind (Call.Keeps.io _ _ (Call.Keeps.pure _)) fun _ =>
      Call.Keeps.bind ?_ fun _ => Call.Keeps.pure _
  -- The queue to the worker is kept in Redis.
  refine Call.Keeps.bind (keeps_logged (Call.Keeps.io _ _ (Call.Keeps.write fun w => h.redis w _)))
    fun _ => Call.Keeps.bind (Call.Keeps.bind (Call.Keeps.read _) fun _ => hsend _ _) fun _ =>
      Call.Keeps.ite _ (Call.Keeps.bind (hsolved ctx) fun _ =>
        Call.Keeps.bind (Call.Keeps.read _) fun count => Call.Keeps.ite _
          (Call.Keeps.bind (Call.Keeps.read _) fun problemSet => ?_) (Call.Keeps.pure _))
        (Call.Keeps.pure _)
  cases problemSet[ctx.problemIndex + 1]? with
  | none => exact Call.Keeps.pure _
  | some nextProblem => exact hsend _ _

end Aside

/-- Joining a room leaves the rounds and the end tasks. -/
theorem keeps_joinRoom (env : Env) (roomID : RoomID) (userID : AuthID) :
    Call.Keeps World.schedule (joinRoom env roomID userID) :=
  Aside.keeps_joinRoom ⟨fun _ _ => rfl, fun _ _ => rfl⟩ (fun _ _ _ _ => rfl) env roomID userID

/-- Rounds and participants may be taken away, and the end tasks stay. -/
structure Retires (w w' : World) : Prop where
  rounds : w'.db.rounds.rows.Sublist w.db.rounds.rows
  participants : w'.db.participants.rows.Sublist w.db.participants.rows
  tasks : w'.tasks = w.tasks

/-- Nothing happened yet. -/
theorem Retires.refl (w : World) : Retires w w :=
  ⟨List.Sublist.refl _, List.Sublist.refl _, rfl⟩

/-- What two steps retire, both together retire. -/
theorem Retires.trans (w₁ w₂ w₃ : World) (h : Retires w₁ w₂) (h' : Retires w₂ w₃) : Retires w₁ w₃ :=
  ⟨h'.rounds.trans h.rounds, h'.participants.trans h.participants, h'.tasks.trans h.tasks⟩

/-- Deleting rows brings no round back. -/
theorem Shrinks.retires {w w' : World} (h : Shrinks w w') : Retires w w' :=
  ⟨h.rounds, h.participants, h.tasks⟩

/-- What leaves the rounds, the participants and the tasks alone. -/
theorem Retires.of_keeps {α : Type} {x : Service α}
    (h : Call.Keeps (fun w : World => (w.db.rounds, w.db.participants, w.tasks)) x) :
    Call.Within Retires x := by
  intro w
  obtain ⟨hrounds, hrest⟩ := Prod.ext_iff.mp (h w)
  obtain ⟨hparticipants, htasks⟩ := Prod.ext_iff.mp hrest
  refine ⟨?_, ?_, htasks⟩
  · have hsame : (x.run w).2.db.rounds = w.db.rounds := hrounds
    rw [hsame]
  · have hsame : (x.run w).2.db.participants = w.db.participants := hparticipants
    rw [hsame]

/-- Deleting a room brings no round back. -/
theorem retires_deleteRoom (env : Env) (room : Room) (rounds : List Round) :
    Call.Within Retires (deleteRoom env room rounds) := fun w =>
  (shrinks_deleteRoom env room rounds w).retires

/-- Leaving a room takes at most rounds and participants away. -/
theorem retires_leaveRoom (env : Env) (roomID : RoomID) (userID : AuthID) :
    Call.Within Retires (leaveRoom env roomID userID) := by
  have haside : Aside fun w : World => (w.db.rounds, w.db.participants, w.tasks) :=
    ⟨fun _ _ => rfl, fun _ _ => rfl⟩
  refine Call.Within.bind Retires.trans (Retires.of_keeps (keeps_findRoomByID env roomID))
    fun (room, rounds) => ?_
  refine Call.Within.bind Retires.trans
    (Retires.of_keeps (haside.keeps_removeJoinMember env roomID userID)) fun _ =>
      Call.Within.bind Retires.trans (Retires.of_keeps (Call.Keeps.read _)) fun name =>
        Call.Within.bind Retires.trans (Retires.of_keeps (keeps_announce haside.tell _ _ _))
          fun _ => Call.Within.bind Retires.trans
            (Retires.of_keeps (Call.Keeps.io _ _ (Call.Keeps.read _))) fun users =>
              Call.Within.ite _ ?_ (Retires.of_keeps ?_)
  · -- No user is left, and the room is deleted with its rounds.
    exact Call.Within.bind Retires.trans (Retires.of_keeps (Call.Keeps.write fun _ => rfl))
      fun _ => retires_deleteRoom env room rounds
  · exact haside.keeps_replaceAdmin room (fun _ _ => rfl) env roomID userID

/-- The expiry of a room takes at most rounds and participants away. -/
theorem retires_expireRoom (env : Env) (roomID : RoomID) :
    Call.Within Retires (expireRoom env roomID) := by
  refine Call.Within.bind Retires.trans
    (Call.Within.attempt (Retires.of_keeps (keeps_findRoomByID env roomID))) fun r => ?_
  cases r with
  | error e => exact Call.Within.pure Retires.refl _
  | ok found =>
    exact Call.Within.bind Retires.trans (retires_deleteRoom env found.1 found.2) fun _ =>
      Retires.of_keeps (keeps_logged (keeps_sendMessage (fun _ _ => rfl) _ _))

/-! ## Submissions -/

/-- The rounds, the end tasks, and who takes part in which round. -/
def World.enrolment (w : World) : Table Round × List EndTask × List (AuthID × ℕ) :=
  (w.db.rounds, w.tasks, w.db.participants.rows.map fun p => (p.participantAuthID, p.roundID))

/-- The rows of the rooms, and the enrolment. -/
def World.census (w : World) : List Room × Table Round × List EndTask × List (AuthID × ℕ) :=
  (w.db.rooms, w.enrolment)

/-- Counting a solved problem leaves the rooms and the enrolment. -/
theorem keeps_countSolved (env : Env) (ctx : SubmissionContext) :
    Call.Keeps World.census (countSolved env ctx) := by
  refine Call.Keeps.ite _ (keeps_logged (Call.Keeps.io _ _ (Call.Keeps.write fun w => ?_)))
    (Call.Keeps.pure _)
  refine Prod.ext rfl (Prod.ext rfl (Prod.ext rfl ?_))
  show (w.db.participants.modify ctx.participant.id RoundParticipant.solveOne
    RoundParticipant.id_solveOne).rows.map _ = w.db.participants.rows.map _
  rw [Table.rows_modify, List.map_map]
  refine List.map_congr_left fun p _ => ?_
  rw [Function.comp_apply]
  split <;> rfl

/-- Handing in a submission leaves the rooms and the enrolment, however it ends. -/
theorem keeps_createRoundSubmission (env : Env) (params : RoundSubmissionParameters)
    (author : AuthID) : Call.Keeps World.census (createRoundSubmission env params author) :=
  Aside.keeps_createRoundSubmission ⟨fun _ _ => rfl, fun _ _ => rfl⟩ env params author
    (fun _ _ => rfl) (keeps_countSolved env)

/-- A submission leaves the rooms and the enrolment. -/
theorem keeps_createRoomSubmission (env : Env) (roomID : RoomID)
    (params : RoundSubmissionParameters) (userID : AuthID) :
    Call.Keeps World.census (createRoomSubmission env roomID params userID) := by
  refine Call.Keeps.bind (keeps_findRoomByID env roomID) fun (_, rounds) => ?_
  dsimp only
  cases rounds.getLast? with
  | none => exact Call.Keeps.fail _
  | some round => exact keeps_createRoundSubmission env _ userID

end Bsg.Central
