import Bsg.Central.RoundSteps

/-!
# One end for each round

A round ends when its admin says so, or when its end task fires. Neither knows of the other: an end
by the admin leaves the task in the scheduler, and the task does not look at the round before it
ends it. The message to rtc-service names only the room, so the task of a round that was ended early
ends the copy of whichever round runs by then. `endsOnce_of_along` says what the events must heed
for each round to end once, and only by itself (`EndsOnce`).
-/

namespace Bsg.Central

open Bsg.Foundations

/-! ## Rounds and their ends -/

/-- The state, and for each round-end message that rtc-service got the round that had it sent. -/
structure EndHistory where
  world : World
  ends : List ℕ

/-- The round that an event is to end. -/
def World.endedBy (w : World) (e : Env × RoomEvent) : Option ℕ :=
  match e.2 with
  | .endRound roomID userID => (w.db.chosenRound e.1 roomID userID .started).map Round.id
  | .runEndTask task => some task.roundID
  | _ => none

/-- The round-end messages about a room that rtc-service got. -/
def World.endMessages (w : World) (roomID : RoomID) : ℕ := w.sent.count (.roundEnd roomID)

/-- What an event about a room does; its new round-end messages are those of the round that it
ends. -/
def EndHistory.serve (roomID : RoomID) (s : EndHistory) (e : Env × RoomEvent) : EndHistory where
  world := s.world.serve e
  ends := s.ends ++ (s.world.endedBy e).toList.flatMap fun round =>
    List.replicate ((s.world.serve e).endMessages roomID - s.world.endMessages roomID) round

/-- The status of the room's round as rtc-service has it. -/
def World.rtcStatus (w : World) (roomID : RoomID) : Option Rtc.RoundStatus :=
  (Rtc.handleAll (fun _ => none) w.sent).roundStatus roomID

/-- The latest round of a room. -/
def World.latest (w : World) (roomID : RoomID) : Option Round := (w.roundsIn roomID).getLast?

/-- Each round of the room that has ended sent one round-end message, and no other round sent any; a
started round is going to be ended by its task; and while the latest round is started, rtc-service
has it in progress. -/
structure EndsOnce (roomID : RoomID) (s : EndHistory) : Prop where
  ends : ∀ round ∈ s.world.roundsIn roomID,
    s.ends.count round.id = if round.status = .ended then 1 else 0
  pending : ∀ round ∈ s.world.roundsIn roomID, round.status = .started →
    ∃ task ∈ s.world.tasks, task.roomID = roomID ∧ task.roundID = round.id
  inProgress : ∀ round, s.world.latest roomID = some round → round.status = .started →
    s.world.rtcStatus roomID = some .inProgress

/-- Messages and tasks are those of rounds of the room, and a round with a task was started. -/
structure Sourced (roomID : RoomID) (s : EndHistory) : Prop where
  ends : ∀ k ∈ s.ends, ∃ round ∈ s.world.roundsIn roomID, round.id = k
  tasks : ∀ task ∈ s.world.tasks, task.roomID = roomID →
    ∃ round ∈ s.world.roundsIn roomID, round.id = task.roundID ∧ round.status ≠ .created

/-- The end of a round reaches rtc-service, and no later round is running. -/
def EndsItself (env : Env) (roomID : RoomID) (roundID : ℕ) (w : World) : Prop :=
  env.reply .roundEnd ≠ .unwritten ∧
    ∀ round, w.latest roomID = some round → round.status = .started → round.id = roundID

/-- A round of the room with this key is started. -/
def World.runs (w : World) (roomID : RoomID) (roundID : ℕ) : Prop :=
  ∃ round ∈ w.roundsIn roomID, round.id = roundID ∧ round.status = .started

/-- What an event must heed: a start schedules the end and reaches rtc-service; an end reaches
rtc-service, and while a round is ended no later one is running; and the task of a round that has
ended already does nothing. -/
def HeedsEnds (roomID : RoomID) (w : World) (e : Env × RoomEvent) : Prop :=
  match e.2 with
  | .startRound _ userID =>
    ∀ round, w.db.chosenRound e.1 roomID userID .created = some round →
      e.1.fails .zrangeJoin = false → Startable e.1 round w →
        (Enrollable e.1 (w.members roomID) ∧ Schedulable e.1 round) ∧
          (w.latest roomID = some round → w.rtcStatus roomID = some .inProgress ∨
            e.1.reply .roundStart ≠ .unwritten ∧ (w.rtcStatus roomID).isSome = true)
  | .endRound _ userID =>
    ∀ round, w.db.chosenRound e.1 roomID userID .started = some round →
      e.1.fails .updateRoundStatus = false → EndsItself e.1 roomID round.id w
  | .runEndTask task => task.Due e.1 w →
    (w.runs roomID task.roundID →
      e.1.fails .updateRoundStatus = false ∧ EndsItself e.1 roomID task.roundID w) ∧
    (¬ w.runs roomID task.roundID →
      e.1.fails .updateRoundStatus = true ∨ e.1.reply .roundEnd = .unwritten)
  | _ => True

/-- The event is about the rounds of the room: a request to create, start or end one, or an end
task. -/
def RoomEvent.isRoundOrTaskOf (roomID : RoomID) : RoomEvent → Bool
  | .createRound _ _ r | .startRound r _ | .endRound r _ => decide (r = roomID)
  | .runEndTask task => decide (task.roomID = roomID)
  | _ => false

section History

variable {roomID : RoomID} {s : EndHistory} {e : Env × RoomEvent} {w' : World}
  {rs : List Rtc.Request}

/-- The history after an event that sent these requests. -/
theorem EndHistory.serve_eq (hserve : s.world.serve e = w') (hsent : w'.sent = s.world.sent ++ rs) :
    s.serve roomID e = ⟨w', s.ends ++ (s.world.endedBy e).toList.flatMap fun round =>
      List.replicate (rs.count (.roundEnd roomID)) round⟩ := by
  have hcount : w'.endMessages roomID - s.world.endMessages roomID =
      rs.count (.roundEnd roomID) := by
    unfold World.endMessages
    rw [hsent, List.count_append, Nat.add_sub_cancel_left]
  unfold EndHistory.serve
  rw [hserve, hcount]

/-- The history after an event that sent no message, or is not to end a round. -/
theorem EndHistory.serve_quiet (hserve : s.world.serve e = w')
    (h : s.world.endedBy e = none ∨ w'.sent = s.world.sent) : s.serve roomID e = ⟨w', s.ends⟩ := by
  rcases h with hnone | hsent
  · unfold EndHistory.serve
    rw [hnone, hserve]
    exact congrArg (EndHistory.mk w') (List.append_nil _)
  · rw [EndHistory.serve_eq hserve (hsent.trans (List.append_nil _).symm)]
    refine congrArg (EndHistory.mk w') ?_
    cases s.world.endedBy e <;> exact List.append_nil _

/-- The history after the end of a round was sent. -/
theorem EndHistory.serve_sent {roundID : ℕ} (hserve : s.world.serve e = w')
    (hended : s.world.endedBy e = some roundID)
    (hsent : w'.sent = s.world.sent ++ [.roundEnd roomID]) :
    s.serve roomID e = ⟨w', s.ends ++ [roundID]⟩ := by
  rw [EndHistory.serve_eq hserve hsent, hended, List.count_singleton_self]
  rfl

/-- rtc-service handles what it was sent before, and then what is new. -/
theorem rtcStatus_append {w w' : World} (h : w'.sent = w.sent ++ rs) (roomID : RoomID) :
    w'.rtcStatus roomID =
      (Rtc.handleAll (Rtc.handleAll (fun _ => none) w.sent) rs).roundStatus roomID := by
  unfold World.rtcStatus
  rw [h, Rtc.handleAll_append]

/-- The messages about participants leave the status of the round. -/
theorem roundStatus_joins (roomID : RoomID) : ∀ (joins : List Rtc.Request) (m : Rtc.ChatManager),
    JoinsOf roomID joins → (Rtc.handleAll m joins).roundStatus roomID = m.roundStatus roomID
  | [], _, _ => rfl
  | join :: joins, m, h => by
    obtain ⟨userID, userName, rfl⟩ := h join List.mem_cons_self
    have hrest : JoinsOf roomID joins := fun req hreq => h req (List.mem_cons_of_mem _ hreq)
    rw [Rtc.handleAll_cons, roundStatus_joins roomID joins _ hrest, Rtc.roundStatus_joinRound]

end History

section Step

variable {roomID : RoomID} {s : EndHistory} {w' : World}

/-- In a room without rounds there are no messages and no tasks. -/
theorem Sourced.of_no_rounds (h : Sourced roomID s) (hnone : s.world.roundsIn roomID = []) :
    s.ends = [] ∧ ∀ task ∈ s.world.tasks, task.roomID ≠ roomID := by
  constructor
  · refine List.eq_nil_iff_forall_not_mem.mpr fun k hk => ?_
    obtain ⟨round, hround, -⟩ := h.ends k hk
    rw [hnone] at hround
    cases hround
  · intro task htask hroom
    obtain ⟨round, hround, -⟩ := h.tasks task htask hroom
    rw [hnone] at hround
    cases hround

/-- Where nothing was sent and scheduled, created rounds do no harm. -/
theorem endsOnce_of_created (hends : s.ends = []) (htasks : ∀ task ∈ w'.tasks, task.roomID ≠ roomID)
    (hrounds : ∀ round ∈ w'.roundsIn roomID, round.status = .created) :
    Sourced roomID ⟨w', s.ends⟩ ∧ EndsOnce roomID ⟨w', s.ends⟩ := by
  have hnot : ∀ round ∈ w'.roundsIn roomID, round.status ≠ .started := fun round hround hstarted => by
    rw [hrounds round hround] at hstarted
    cases hstarted
  refine ⟨⟨fun k hk => ?_, fun task htask hroom => absurd hroom (htasks task htask)⟩, ?_, ?_, ?_⟩
  · have hk' : k ∈ s.ends := hk
    rw [hends] at hk'
    cases hk'
  · intro round hround
    have hcreated := hrounds round hround
    show s.ends.count round.id = _
    rw [hends, hcreated]
    rfl
  · exact fun round hround hstarted => absurd hstarted (hnot round hround)
  · exact fun round hlast hstarted => absurd hstarted (hnot round (List.mem_of_getLast? hlast))

/-- A new round changes nothing for the others. -/
theorem EndsOnce.inserts (hsourced : Sourced roomID s) (h : EndsOnce roomID s) {env : Env}
    {duration : ℤ} (hinserts : Inserts env duration roomID s.world w') :
    Sourced roomID ⟨w', s.ends⟩ ∧ EndsOnce roomID ⟨w', s.ends⟩ := by
  have hrounds := hinserts.roundsIn
  -- Every round that was there still is, so what was sent and scheduled still has its round.
  have hold : ∀ round ∈ s.world.roundsIn roomID, round ∈ w'.roundsIn roomID := fun round hround => by
    rw [hrounds]
    exact List.mem_append_left _ hround
  refine ⟨⟨fun k hk => ?_, fun task htask hroom => ?_⟩, fun round hround => ?_,
    fun round hround hstarted => ?_, fun round hlast hstarted => ?_⟩
  · obtain ⟨round, hround, hid⟩ := hsourced.ends k hk
    exact ⟨round, hold round hround, hid⟩
  · have htask' : task ∈ w'.tasks := htask
    rw [hinserts.tasks] at htask'
    obtain ⟨round, hround, hid⟩ := hsourced.tasks task htask' hroom
    exact ⟨round, hold round hround, hid⟩
  · have hround' : round ∈ w'.roundsIn roomID := hround
    rw [hrounds] at hround'
    rcases List.mem_append.mp hround' with hround' | hnew
    · exact h.ends round hround'
    · -- Nothing was sent for the key of a new round.
      rw [List.mem_singleton.mp hnew]
      refine List.count_eq_zero.mpr fun hmem => ?_
      obtain ⟨round₀, hround₀, hid⟩ := hsourced.ends _ hmem
      refine s.world.db.rounds.fresh_not_mem env.roundHint ?_
      exact List.mem_map.mpr ⟨round₀, (mem_roundsIn.mp hround₀).1, hid⟩
  · have hround' : round ∈ w'.roundsIn roomID := hround
    rw [hrounds] at hround'
    rcases List.mem_append.mp hround' with hround' | hnew
    · show ∃ task ∈ w'.tasks, _
      rw [hinserts.tasks]
      exact h.pending round hround' hstarted
    · rw [List.mem_singleton.mp hnew] at hstarted
      cases hstarted
  · have hlast' : (w'.roundsIn roomID).getLast? = some round := hlast
    rw [hrounds, List.getLast?_concat] at hlast'
    obtain rfl := Option.some.inj hlast'
    cases hstarted

/-- A task goes whose round is not started. -/
theorem EndsOnce.erase (hsourced : Sourced roomID s) (h : EndsOnce roomID s) {task : EndTask}
    (hstopped : ¬ s.world.runs roomID task.roundID)
    (hw : w' = { s.world with tasks := s.world.tasks.erase task }) :
    Sourced roomID ⟨w', s.ends⟩ ∧ EndsOnce roomID ⟨w', s.ends⟩ := by
  subst hw
  refine ⟨⟨hsourced.ends, fun task' htask' => ?_⟩, h.ends, fun round hround hstarted => ?_,
    h.inProgress⟩
  · exact hsourced.tasks task' (List.mem_of_mem_erase htask')
  · obtain ⟨task', htask', hroom, hid⟩ := h.pending round hround hstarted
    refine ⟨task', (List.mem_erase_of_ne fun heq => hstopped ?_).mpr htask', hroom, hid⟩
    exact ⟨round, hround, by rw [← heq, hid], hstarted⟩

/-- The latest round after one round was rewritten. -/
theorem latest_modify {w : World} {f : Round → Round} {roundID : ℕ}
    (h : w'.roundsIn roomID = (w.roundsIn roomID).map fun r => if r.id = roundID then f r else r) :
    w'.latest roomID = (w.latest roomID).map fun r => if r.id = roundID then f r else r := by
  unfold World.latest
  rw [h, List.getLast?_map]

/-- Keys of rounds and the tasks of rounds that were started stay when a round is rewritten. -/
theorem Sourced.modify (h : Sourced roomID s) {f : Round → Round} {roundID : ℕ}
    (hid : ∀ r, (f r).id = r.id) (hstatus : ∀ r, (f r).status ≠ .created) {ends : List ℕ}
    (hrounds : w'.roundsIn roomID =
      (s.world.roundsIn roomID).map fun r => if r.id = roundID then f r else r)
    (hends : ∀ k ∈ ends, k ∈ s.ends ∨ s.world.runs roomID k)
    (htasks : ∀ task ∈ w'.tasks, task ∈ s.world.tasks ∨
      task.roundID = roundID ∧ ∃ round ∈ s.world.roundsIn roomID, round.id = roundID) :
    Sourced roomID ⟨w', ends⟩ := by
  -- The rows stay, with their keys.
  have hmap : ∀ round ∈ s.world.roundsIn roomID,
      (if round.id = roundID then f round else round) ∈ w'.roundsIn roomID := fun round hround => by
    rw [hrounds]
    exact List.mem_map_of_mem hround
  have hkey : ∀ round : Round, (if round.id = roundID then f round else round).id = round.id := by
    intro round
    split
    · exact hid round
    · rfl
  constructor
  · intro k hk
    obtain ⟨round, hround, rfl⟩ : ∃ round ∈ s.world.roundsIn roomID, round.id = k := by
      rcases hends k hk with hold | ⟨round, hround, hk, -⟩
      · exact h.ends k hold
      · exact ⟨round, hround, hk⟩
    exact ⟨_, hmap round hround, hkey round⟩
  · intro task htask hroom
    rcases htasks task htask with hold | ⟨hnew, round, hround, hk⟩
    · obtain ⟨round, hround, hk, hcreated⟩ := h.tasks task hold hroom
      refine ⟨_, hmap round hround, (hkey round).trans hk, ?_⟩
      split
      · exact hstatus round
      · exact hcreated
    · refine ⟨_, hmap round hround, (hkey round).trans (hk.trans hnew.symm), ?_⟩
      rw [if_pos hk]
      exact hstatus round

/-- A start whose message reaches rtc-service, or that finds the round in progress there already,
leaves it in progress. -/
theorem Starts.rtcStatus {w : World} {env : Env} {round : Round} {users : List AuthID}
    (h : Starts env roomID round users w w') (huuid : roomID ≠ "") (hroom : round.roomID = roomID)
    (hbefore : w.rtcStatus roomID = some .inProgress ∨
      env.reply .roundStart ≠ .unwritten ∧ (w.rtcStatus roomID).isSome = true) :
    w'.rtcStatus roomID = some .inProgress := by
  obtain ⟨joins, hjoins, hsent⟩ := h.sent
  -- The joins that follow the start leave the status.
  have hafter : w'.rtcStatus roomID = (w.started env round).rtcStatus roomID := by
    rw [rtcStatus_append hsent roomID, roundStatus_joins roomID joins _ hjoins]
    rfl
  refine hafter.trans ?_
  rw [rtcStatus_append (w := w) rfl roomID]
  unfold delivered
  by_cases hreply : env.reply .roundStart = .unwritten
  · rw [if_pos hreply]
    exact hbefore.resolve_right fun hin => hin.1 hreply
  · rw [if_neg hreply, Rtc.handleAll_cons, Rtc.handleAll_nil, roundStartRequest, hroom,
      Rtc.roundStatus_roundStart _ huuid]
    have hsome : (w.rtcStatus roomID).isSome = true := by
      rcases hbefore with hin | hin
      · rw [hin]
        rfl
      · exact hin.2
    obtain ⟨status, hstatus⟩ := Option.isSome_iff_exists.mp hsome
    have hstatus' : (Rtc.handleAll (fun _ => none) w.sent).roundStatus roomID = some status :=
      hstatus
    rw [hstatus']
    rfl

/-- A start that schedules the end of its round, and reaches rtc-service. -/
theorem EndsOnce.starts (hsourced : Sourced roomID s) (h : EndsOnce roomID s) {env : Env}
    {round : Round} {users : List AuthID} (hstarts : Starts env roomID round users s.world w')
    (huuid : roomID ≠ "") (hround : round ∈ s.world.roundsIn roomID)
    (hcreated : round.status = .created) (hends : Enrollable env users ∧ Schedulable env round)
    (hreached : s.world.latest roomID = some round → s.world.rtcStatus roomID = some .inProgress ∨
      env.reply .roundStart ≠ .unwritten ∧ (s.world.rtcStatus roomID).isSome = true) :
    Sourced roomID ⟨w', s.ends⟩ ∧ EndsOnce roomID ⟨w', s.ends⟩ := by
  have hrounds := hstarts.roundsIn roomID
  have htasks : w'.tasks = s.world.tasks ++ [endTaskOf env round] := by
    rw [hstarts.tasks, if_pos hends]
  have hroom : round.roomID = roomID := (mem_roundsIn.mp hround).2
  refine ⟨hsourced.modify (f := Round.start env.now) (fun _ => rfl) (fun r hr => by cases hr) hrounds
    (fun k hk => Or.inl hk) fun task htask => ?_, ?_, ?_, ?_⟩
  · rw [htasks] at htask
    rcases List.mem_append.mp htask with hold | hnew
    · exact Or.inl hold
    · rw [List.mem_singleton.mp hnew]
      exact Or.inr ⟨rfl, round, hround, rfl⟩
  · intro r' hr'
    have hmem : r' ∈ w'.roundsIn roomID := hr'
    rw [hrounds] at hmem
    obtain ⟨r, hr, rfl⟩ := List.mem_map.mp hmem
    by_cases hid : r.id = round.id
    · obtain rfl := eq_of_mem_roundsIn hr hround hid
      have hzero := h.ends r hr
      rw [hcreated] at hzero
      rw [if_pos rfl]
      exact hzero
    · rw [if_neg hid]
      exact h.ends r hr
  · intro r' hr' hstarted
    have hmem : r' ∈ w'.roundsIn roomID := hr'
    rw [hrounds] at hmem
    obtain ⟨r, hr, rfl⟩ := List.mem_map.mp hmem
    show ∃ task ∈ w'.tasks, _
    rw [htasks]
    by_cases hid : r.id = round.id
    · rw [if_pos hid]
      exact ⟨endTaskOf env round, List.mem_append_right _ (List.mem_singleton_self _), hroom,
        hid.symm⟩
    · rw [if_neg hid] at hstarted ⊢
      obtain ⟨task, htask, htaskRoom, htaskID⟩ := h.pending r hr hstarted
      exact ⟨task, List.mem_append_left _ htask, htaskRoom, htaskID⟩
  · intro r' hlast hstarted
    have hlatest : w'.latest roomID = some r' := hlast
    rw [latest_modify hrounds] at hlatest
    obtain ⟨r, hr, rfl⟩ := Option.map_eq_some_iff.mp hlatest
    -- Before the start, either the round was in progress already, or the message puts it in progress.
    refine hstarts.rtcStatus huuid hroom ?_
    by_cases hid : r.id = round.id
    · have hsame := eq_of_mem_roundsIn (List.mem_of_getLast? hr) hround hid
      exact hreached (hsame ▸ hr)
    · rw [if_neg hid] at hstarted
      exact Or.inl (h.inProgress r hr hstarted)

/-- A started round ends, and no later one is running. -/
theorem EndsOnce.finish (hsourced : Sourced roomID s) (h : EndsOnce roomID s) {roundID : ℕ}
    (hruns : s.world.runs roomID roundID)
    (halone : ∀ round, s.world.latest roomID = some round → round.status = .started →
      round.id = roundID)
    (hrounds : w'.roundsIn roomID =
      (s.world.roundsIn roomID).map fun r => if r.id = roundID then r.finish else r)
    (htasks : w'.tasks.Sublist s.world.tasks)
    (hothers : ∀ task ∈ s.world.tasks, task.roundID ≠ roundID → task ∈ w'.tasks) :
    Sourced roomID ⟨w', s.ends ++ [roundID]⟩ ∧ EndsOnce roomID ⟨w', s.ends ++ [roundID]⟩ := by
  refine ⟨hsourced.modify (f := Round.finish) (fun _ => rfl) (fun r hr => by cases hr) hrounds
    (fun k hk => ?_) fun task htask => Or.inl (htasks.subset htask), ?_, ?_, ?_⟩
  · rcases List.mem_append.mp hk with hold | hnew
    · exact Or.inl hold
    · rw [List.mem_singleton.mp hnew]
      exact Or.inr hruns
  · intro r' hr'
    have hmem : r' ∈ w'.roundsIn roomID := hr'
    rw [hrounds] at hmem
    obtain ⟨r, hr, rfl⟩ := List.mem_map.mp hmem
    show (s.ends ++ [roundID]).count _ = _
    rw [List.count_append]
    -- The round that ends was started, and so it had no end before.
    by_cases hid : r.id = roundID
    · obtain ⟨round, hround, hroundID, hstarted⟩ := hruns
      obtain rfl := eq_of_mem_roundsIn hr hround (hid.trans hroundID.symm)
      have hzero : s.ends.count r.id = 0 := by
        rw [h.ends r hr, hstarted]
        rfl
      rw [if_pos hid]
      show s.ends.count r.id + [roundID].count r.id = 1
      rw [hzero, hid, List.count_singleton_self]
    · have hnone : [roundID].count r.id = 0 :=
        List.count_eq_zero.mpr fun hmem => hid (List.mem_singleton.mp hmem)
      rw [if_neg hid, hnone]
      exact h.ends r hr
  · intro r' hr' hstarted
    have hmem : r' ∈ w'.roundsIn roomID := hr'
    rw [hrounds] at hmem
    obtain ⟨r, hr, rfl⟩ := List.mem_map.mp hmem
    by_cases hid : r.id = roundID
    · rw [if_pos hid] at hstarted
      cases hstarted
    · rw [if_neg hid] at hstarted ⊢
      -- The other started rounds keep their tasks.
      obtain ⟨task, htask, hroom, htaskID⟩ := h.pending r hr hstarted
      exact ⟨task, hothers task htask (by rwa [htaskID]), hroom, htaskID⟩
  · intro r' hlast hstarted
    have hlatest : w'.latest roomID = some r' := hlast
    rw [latest_modify hrounds] at hlatest
    obtain ⟨r, hr, rfl⟩ := Option.map_eq_some_iff.mp hlatest
    by_cases hid : r.id = roundID
    · rw [if_pos hid] at hstarted
      cases hstarted
    · rw [if_neg hid] at hstarted
      exact absurd (halone r hr hstarted) hid

/-- A room for which no rounds are loaded has none. -/
theorem roundsIn_eq_nil {env : Env} {w : World} (h : w.db.roundsOf env.rounds roomID = []) :
    w.roundsIn roomID = [] := by
  rw [← List.length_eq_zero_iff, ← env.rounds.length_order, ← roundsOf_eq, h]
  rfl

/-- A round with a task that is not started has ended, and ending it again changes nothing. -/
theorem Sourced.finishRound_eq_self (h : Sourced roomID s) {task : EndTask}
    (htask : task ∈ s.world.tasks) (hroom : task.roomID = roomID)
    (hstopped : ¬ s.world.runs roomID task.roundID) :
    s.world.db.finishRound task.roundID = s.world.db := by
  obtain ⟨round, hround, hid, hcreated⟩ := h.tasks task htask hroom
  have hended : round.status = .ended := by
    cases hstatus : round.status with
    | created => exact absurd hstatus hcreated
    | started => exact absurd ⟨round, hround, hid, hstatus⟩ hstopped
    | ended => rfl
  have htable : s.world.db.rounds.modify task.roundID Round.finish Round.id_finish =
      s.world.db.rounds := by
    refine Table.modify_eq_self fun r hr hrid => ?_
    obtain rfl := Table.eq_of_id_eq hr (mem_roundsIn.mp hround).1 (hrid.trans hid.symm)
    unfold Round.finish
    rw [← hended]
  unfold DB.finishRound
  rw [htable]

/-- An event that changes nothing does no harm. -/
theorem EndsOnce.unchanged (hsourced : Sourced roomID s) (h : EndsOnce roomID s)
    {e : Env × RoomEvent} (hserve : s.world.serve e = s.world) :
    Sourced roomID (s.serve roomID e) ∧ EndsOnce roomID (s.serve roomID e) := by
  rw [EndHistory.serve_quiet hserve (Or.inr rfl)]
  exact ⟨hsourced, h⟩

/-- A request for a new round does no harm, whether the round is kept, refused or rolled back. -/
theorem EndsOnce.createRound (hid : isUUID roomID = true) (hsourced : Sourced roomID s)
    (h : EndsOnce roomID s) (env : Env) (maxNumRoundsPerRoom : ℤ) (params : RoundCreationParameters) :
    Sourced roomID (s.serve roomID (env, .createRound maxNumRoundsPerRoom params roomID)) ∧
      EndsOnce roomID (s.serve roomID (env, .createRound maxNumRoundsPerRoom params roomID)) := by
  have hquiet : ∀ {w' : World} {o : Outcome GoError (Round × Bool)},
      (Central.createRound env maxNumRoundsPerRoom params roomID).run s.world = (o, w') →
      s.serve roomID (env, .createRound maxNumRoundsPerRoom params roomID) = ⟨w', s.ends⟩ :=
    fun hrun => EndHistory.serve_quiet (congrArg Prod.snd hrun) (Or.inl rfl)
  rcases createRound_cases env maxNumRoundsPerRoom params roomID s.world with
    ⟨-, e, w', hrun, rfl | ⟨⟨room, hroom, hnone⟩, hshrinks⟩⟩ | ⟨-, room, hroom, w₁, hinserts, hend⟩
  · exact h.unchanged hsourced (congrArg Prod.snd hrun)
  · rw [hroom.id_eq hid] at hnone
    obtain ⟨hends, htasks⟩ := hsourced.of_no_rounds (roundsIn_eq_nil hnone)
    -- The room had no rounds, and what it was cleaned of leaves none.
    rw [hquiet hrun]
    refine endsOnce_of_created hends (hshrinks.tasks ▸ htasks) fun round hround => ?_
    have hold := (hshrinks.roundsIn roomID).subset hround
    rw [roundsIn_eq_nil hnone] at hold
    cases hold
  rw [hroom.id_eq hid] at hinserts hend
  rcases hend with ⟨-, r, hrun⟩ | ⟨-, e, w₂, hrun, rfl | ⟨hnone, hshrinks⟩⟩
  · rw [hquiet hrun]
    exact h.inserts hsourced hinserts
  · rw [hquiet hrun]
    exact h.inserts hsourced hinserts
  · -- Of what was inserted into a room without rounds, at most the new round is left.
    obtain ⟨hends, htasks⟩ := hsourced.of_no_rounds (roundsIn_eq_nil hnone)
    rw [hquiet hrun]
    refine endsOnce_of_created hends ?_ fun round hround => ?_
    · rw [hshrinks.tasks, hinserts.tasks]
      exact htasks
    · have hnew := (hshrinks.roundsIn roomID).subset hround
      rw [hinserts.roundsIn, roundsIn_eq_nil hnone] at hnew
      rw [List.mem_singleton.mp hnew]
      rfl

/-- A task that fires does no harm when it is heeded that it ends a running round, or does
nothing. -/
theorem EndsOnce.runEndTask (hsourced : Sourced roomID s) (h : EndsOnce roomID s) (env : Env)
    {task : EndTask} (hroom : task.roomID = roomID)
    (hheeds : HeedsEnds roomID s.world (env, .runEndTask task)) :
    Sourced roomID (s.serve roomID (env, .runEndTask task)) ∧
      EndsOnce roomID (s.serve roomID (env, .runEndTask task)) := by
  rcases serve_runEndTask_cases env task s.world with hserve | ⟨hdue, hcases⟩
  · exact h.unchanged hsourced hserve
  rw [hroom] at hcases
  obtain ⟨hrunning, hstopped⟩ := hheeds hdue
  by_cases hruns : s.world.runs roomID task.roundID
  · -- The task of a running round: the status is written, and the end is sent.
    obtain ⟨hupdate, hreply, halone⟩ := hrunning hruns
    obtain ⟨hfails, -⟩ | ⟨-, hserve⟩ := hcases
    · rw [hupdate] at hfails
      cases hfails
    rw [roundEndNotice, delivered, if_neg hreply] at hserve
    rw [EndHistory.serve_sent hserve rfl rfl]
    refine h.finish hsourced hruns halone
      (roundsIn_finished task.roundID _ { s.world with tasks := s.world.tasks.erase task } roomID)
      List.erase_sublist fun task' htask' hne => ?_
    exact (List.mem_erase_of_ne fun heq => hne (congrArg EndTask.roundID heq)).mpr htask'
  · -- The task of a round that has ended may at most end it in the database again.
    have hquiet : s.world.serve (env, .runEndTask task) =
        { s.world with tasks := s.world.tasks.erase task } := by
      obtain ⟨-, hserve⟩ | ⟨hupdate, hserve⟩ := hcases
      · exact hserve
      · have hreply := (hstopped hruns).resolve_left (by simp [hupdate])
        rw [roundEndNotice, delivered, if_pos hreply, World.tell_nil] at hserve
        refine hserve.trans ?_
        unfold World.finished
        rw [hsourced.finishRound_eq_self hdue.1 hroom hruns]
    rw [EndHistory.serve_quiet hquiet (Or.inr rfl)]
    exact h.erase hsourced hruns rfl

/-- An event keeps each round to one end when it heeds what it must. -/
theorem endsOnce_serve (hid : isUUID roomID = true) (hsourced : Sourced roomID s)
    (h : EndsOnce roomID s) (e : Env × RoomEvent) (hlegal : e.2.isRoundOrTaskOf roomID = true)
    (hheeds : HeedsEnds roomID s.world e) :
    Sourced roomID (s.serve roomID e) ∧ EndsOnce roomID (s.serve roomID e) := by
  obtain ⟨env, event⟩ := e
  cases event with
  | createRound maxNumRoundsPerRoom params roomID' =>
    obtain rfl : roomID' = roomID := of_decide_eq_true hlegal
    exact h.createRound hid hsourced env maxNumRoundsPerRoom params
  | startRound roomID' userID =>
    obtain rfl : roomID' = roomID := of_decide_eq_true hlegal
    rcases startRoundByRoomID_cases env roomID' userID s.world with ⟨o, hrun, -⟩ |
      ⟨round, hchosen, husers, hstartable, o, w', hrun, hstarts⟩
    · exact h.unchanged hsourced (congrArg Prod.snd hrun)
    · have hserve : s.world.serve (env, .startRound roomID' userID) = w' := congrArg Prod.snd hrun
      -- Once the status is written, the condition on the run promises the end task and the message.
      obtain ⟨hends, hreached⟩ := hheeds round hchosen husers hstartable
      obtain ⟨⟨hround, -⟩, hcreated⟩ := mem_of_chosenRound hchosen
      have hmem := mem_roundsIn.mpr ⟨hround, roomID_of_chosenRound hid hchosen⟩
      rw [EndHistory.serve_quiet hserve (Or.inl rfl)]
      exact h.starts hsourced hstarts (isUUID_ne_empty hid) hmem hcreated hends hreached
  | endRound roomID' userID =>
    obtain rfl : roomID' = roomID := of_decide_eq_true hlegal
    rcases endRoundByRoomID_cases env roomID' userID s.world with ⟨o, hrun, -⟩ |
      ⟨round, hchosen, hupdate, hrun⟩
    · exact h.unchanged hsourced (congrArg Prod.snd hrun)
    · obtain ⟨hreply, halone⟩ := hheeds round hchosen hupdate
      obtain ⟨⟨hround, -⟩, hstarted⟩ := mem_of_chosenRound hchosen
      have hmem := mem_roundsIn.mpr ⟨hround, roomID_of_chosenRound hid hchosen⟩
      -- The notice is sent, and this is the only end of the round so far.
      rw [roundEndNotice, delivered, if_neg hreply] at hrun
      have hserve : s.world.serve (env, .endRound roomID' userID) = _ := congrArg Prod.snd hrun
      rw [EndHistory.serve_sent hserve (congrArg (Option.map Round.id) hchosen) rfl]
      exact h.finish hsourced ⟨round, hmem, rfl, hstarted⟩ halone
        (roundsIn_finished round.id _ s.world roomID') (List.Sublist.refl _) fun _ htask _ => htask
  | runEndTask task => exact h.runEndTask hsourced env (of_decide_eq_true hlegal) hheeds
  | joinRoom roomID' userID => cases hlegal
  | leaveRoom roomID' userID => cases hlegal
  | expireRoom roomID' => cases hlegal
  | setRoundDuration roomID' userID duration => cases hlegal
  | createSubmission roomID' params userID => cases hlegal
  | restart => cases hlegal

end Step

/-- Along every run of the rounds of one room, each round that ends sends one message, and
rtc-service has the latest round in progress while it is started, as long as every event heeds what
it must. -/
theorem endsOnce_of_along (roomID : RoomID) (hid : isUUID roomID = true) (s : EndHistory)
    (es : List (Env × RoomEvent)) (hsourced : Sourced roomID s) (h : EndsOnce roomID s)
    (hes : ∀ e ∈ es, e.2.isRoundOrTaskOf roomID = true)
    (hheeds : Along (EndHistory.serve roomID) (fun s => HeedsEnds roomID s.world) s es) :
    Throughout (EndHistory.serve roomID) (EndsOnce roomID) s es := by
  have hboth := invariant_along (I := fun s => Sourced roomID s ∧ EndsOnce roomID s)
    (fun _ e hin hok => endsOnce_serve hid hin.1 hin.2 e hok.1 hok.2) ⟨hsourced, h⟩
    ((Along.of_mem hes).and hheeds)
  exact hboth.mono fun _ hin => hin.2

/-- The room before any round was started. -/
def EndHistory.ready : EndHistory := ⟨.ready, []⟩

/-- Nothing has ended yet. -/
theorem sourced_ready : Sourced roomOne .ready :=
  ⟨fun _ hk => (by cases hk), fun _ htask => (by cases htask)⟩

/-- So nothing has ended twice. -/
theorem endsOnce_ready : EndsOnce roomOne .ready := by
  have hcreated : ∀ round ∈ World.ready.roundsIn roomOne, round.status = .created := by
    decide +kernel
  exact (endsOnce_of_created (s := .ready) rfl (fun _ htask => by cases htask) hcreated).2

/-- A round is started, and ended by its task. -/
def startThenTask : List (Env × RoomEvent) :=
  [(Env.faultless 10, .startRound roomOne host),
    (Env.faultless 1811, .runEndTask ⟨1, roomOne, 1811 * 10^9⟩)]

/-- The round is started, and its task ends it. -/
theorem endsOnce_startThenTask :
    Throughout (EndHistory.serve roomOne) (EndsOnce roomOne) .ready startThenTask := by
  refine endsOnce_of_along roomOne isUUID_roomOne .ready startThenTask sourced_ready endsOnce_ready
    (by decide) ⟨?_, ?_, trivial⟩
  · intro round hchosen _ _
    have hround : World.ready.db.chosenRound (Env.faultless 10) roomOne host .created =
        some roundOne := by decide +kernel
    obtain rfl := Option.some.inj (hround.symm.trans hchosen)
    exact ⟨⟨by decide +kernel, by decide +kernel⟩, fun _ => Or.inr ⟨by decide, by decide +kernel⟩⟩
  · let s := EndHistory.ready.serve roomOne (Env.faultless 10, .startRound roomOne host)
    have hlatest : s.world.latest roomOne = some ⟨1, 10, 30, roomOne, .started⟩ := by decide +kernel
    have hmem : (⟨1, 10, 30, roomOne, .started⟩ : Round) ∈ s.world.roundsIn roomOne := by
      decide +kernel
    intro _
    refine ⟨fun _ => ⟨rfl, by decide, fun round hround _ => ?_⟩,
      fun hnot => absurd ⟨_, hmem, rfl, rfl⟩ hnot⟩
    obtain rfl := Option.some.inj (hlatest.symm.trans hround)
    rfl

/-- A round is started and ended early, the next one is created and started, and then the task of
the first one fires. -/
def taskOfEarlierRound : List (Env × RoomEvent) :=
  [(Env.faultless 10, .startRound roomOne host), (Env.faultless 20, .endRound roomOne host),
    (Env.faultless 30, .createRound 3 (handPicked [1]) roomOne),
    (Env.faultless 40, .startRound roomOne host),
    (Env.faultless 1811, .runEndTask ⟨1, roomOne, 1811 * 10^9⟩)]

/-- The message of the first round ends the copy of the second one, which is still running. -/
theorem not_endsOnce :
    (Sourced roomOne .ready ∧ EndsOnce roomOne .ready ∧
      ∀ e ∈ taskOfEarlierRound, e.2.isRoundOrTaskOf roomOne = true) ∧
      ¬ Throughout (EndHistory.serve roomOne) (EndsOnce roomOne) .ready taskOfEarlierRound := by
  refine ⟨⟨sourced_ready, endsOnce_ready, by decide⟩, fun h => ?_⟩
  let last := run (EndHistory.serve roomOne) .ready taskOfEarlierRound
  have hlatest : last.world.latest roomOne = some ⟨2, 40, 30, roomOne, .started⟩ := by decide +kernel
  have hended : last.world.rtcStatus roomOne = some .ended := by decide +kernel
  have hprogress : last.world.rtcStatus roomOne = some .inProgress :=
    h.last.inProgress _ hlatest rfl
  rw [hended] at hprogress
  cases hprogress

end Bsg.Central
