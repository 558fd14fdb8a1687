import Bsg.Central.Agreement
import Bsg.Central.Endpoints
import Bsg.Central.ErrorMeaning

/-!
# Central-service as one system

What can happen to central-service as a whole: a request to one of the endpoints of rooms, a task of
one of its two schedulers, a restart, and a round of the worker or of the listener. Each comes with
its own environment, so anything may fail anywhere.

An endpoint makes one call of the room service, so the system over a `Site` is simulated by the
system of `HistoryEvent`s over its `World` (`happen_cases`): an event does nothing, or it creates a
room, or it does what one event of that system does.
-/

namespace Bsg.Central

open Bsg.Foundations

/-- What can happen to central-service. -/
inductive SiteEvent where
  | request (env : SiteEnv) (req : RoomRequest)
  | runExpiryTask (env : Env) (roomID : RoomID)
  | runEndTask (env : Env) (task : EndTask)
  | restart (env : Env)
  | forward
  | process (env : EgressEnv)

/-- The state with other expiry tasks in the scheduler of rooms. -/
def World.withExpiry (w : World) (expiryTasks : List RoomID) : World :=
  { w with expiryTasks := expiryTasks }

/-- The state after an event. The schedulers run only tasks that they have; each task runs once, and
is forgotten. -/
def Site.happen (s : Site) : SiteEvent → Site
  | .request env req => ((req.handle env).run s).2
  | .runExpiryTask env roomID =>
    if roomID ∈ s.world.expiryTasks then
      let w := s.world.withExpiry (s.world.expiryTasks.erase roomID)
      { s with world := w.serve (env, .expireRoom roomID) }
    else s
  | .runEndTask env task => { s with world := s.world.serve (env, .runEndTask task) }
  | .restart env => { s with world := s.world.serve (env, .restart) }
  | .forward => { s with world := s.world.forward }
  | .process env => { s with world := ((listenForSubmissionData env).run s.world).2 }

/-- The room that the parameter of a join means. -/
def Site.resolve (s : Site) (env : SiteEnv) (roomParam : String) : String :=
  if (utf8 roomParam).length = 6 ∧ env.findShortCode = false then
    ((s.roomByShortCode roomParam).map Room.id).getD roomParam
  else roomParam

/-- The event for the rooms that a request is, if it changes anything but the list of rooms. -/
def RoomRequest.event (env : SiteEnv) (s : Site) : RoomRequest → Option RoomEvent
  | .joinRoom roomID userAuthID => some (.joinRoom (s.resolve env roomID) userAuthID)
  | .leaveRoom roomID userAuthID => some (.leaveRoom roomID userAuthID)
  | .createNewRound (some params) roomID =>
    some (.createRound env.maxNumRoundsPerRoom params roomID)
  | .startRound roomID userAuthID => some (.startRound roomID userAuthID)
  | .updateRoundDuration (some duration) roomID userAuthID =>
    some (.setRoundDuration roomID userAuthID duration)
  | .endRound roomID userAuthID => some (.endRound roomID userAuthID)
  | .createSubmission roomID problemID (some params) userAuthID =>
    (atoi problemID).map fun n =>
      .createSubmission roomID { params with problemID := uintOfInt n } userAuthID
  | _ => none

/-- The event of the rooms and queues that an event of the service is. -/
def SiteEvent.history (s : Site) : SiteEvent → Option HistoryEvent
  | .request env req => (req.event env s).map (.request env.toEnv)
  | .runExpiryTask env roomID => some (.request env (.expireRoom roomID))
  | .runEndTask env task => some (.request env (.runEndTask task))
  | .restart env => some (.request env .restart)
  | .forward => some .forward
  | .process env => some (.process env)

/-! ## Requests -/

section Requests

variable {env : SiteEnv} {s : Site}

/-- The parameter is resolved without changing anything. -/
theorem resolveRoomParam_run (roomParam : String) :
    (resolveRoomParam env roomParam).run s = (.ok (s.resolve env roomParam), s) := by
  unfold Site.resolve
  by_cases hlength : (utf8 roomParam).length = 6
  swap
  · rw [if_neg (fun h => hlength h.1)]
    unfold resolveRoomParam
    rw [if_neg hlength]
    rfl
  cases hfind : env.findShortCode with
  | true =>
    rw [if_neg (by simp)]
    exact resolveRoomParam_of_not_coded fun room h => by simp [h.findShortCode] at hfind
  | false =>
    rw [if_pos ⟨hlength, rfl⟩]
    cases hroom : s.roomByShortCode roomParam with
    | none =>
      refine resolveRoomParam_of_not_coded fun room h => ?_
      rw [h.stored] at hroom
      cases hroom
    | some room => exact resolveRoomParam_of_coded hlength ⟨hfind, hroom⟩

/-- An answer leaves what its call leaves, when the reply only looks. -/
theorem answer_state {α : Type} (call : SiteService α) (refuse : GoError → HTTPResponse)
    {reply : α → SiteService HTTPResponse} (h : ∀ a, Call.Keeps id (reply a)) (s : Site) :
    ((answer call refuse reply).run s).2 = (call.run s).2 := by
  unfold answer
  rcases hrun : call.run s with ⟨a | e | _, s'⟩
  · rw [Call.attempt_ok hrun]
    exact h a s'
  · rw [Call.attempt_err hrun]
    rfl
  · rw [Call.attempt_panic hrun]

/-- A call on the world runs on that of the site. -/
theorem onSite_run {α : Type} {x : Service α} {o : Outcome GoError α} {w : World}
    (h : x.run s.world = (o, w)) : (onSite x).run s = (o, { s with world := w }) := by
  show ((x.run s.world).1, { s with world := (x.run s.world).2 }) = (o, { s with world := w })
  rw [h]

/-- A call that only looks leaves the site. -/
theorem keeps_onSite {α : Type} {x : Service α} (h : Call.Keeps id x) :
    Call.Keeps id (onSite x) := by
  intro s
  have hsame : (x.run s.world).2 = s.world := h s.world
  show ({ s with world := (x.run s.world).2 } : Site) = s
  rw [hsame]

/-- Looking participants up only reads. -/
theorem keeps_lookUpParticipants (env : SiteEnv) :
    ∀ authIDs : List (AuthID × ℕ), Call.Keeps id (lookUpParticipants env authIDs)
  | [] => Call.Keeps.pure _
  | (authID, i) :: authIDs => by
    refine Call.Keeps.bind (Call.Keeps.attempt (Call.Keeps.io _ _ (Call.Keeps.read _))) fun user =>
      Call.Keeps.bind (keeps_lookUpParticipants env authIDs) fun participants => ?_
    rcases user with _ | _ | user <;> exact Call.Keeps.pure _

/-- `GetLeaderboard` only reads. -/
theorem keeps_getLeaderboard (env : Env) (roomID : RoomID) :
    Call.Keeps id (getLeaderboard env roomID) := by
  refine Call.Keeps.bind (Call.Keeps.bind (Call.Keeps.io _ _ (Call.Keeps.read _)) fun roundID => ?_)
    fun entries => Call.Keeps.bind (Call.Keeps.read _) fun _ =>
      Call.Keeps.bind (Call.Keeps.read _) fun _ => Call.Keeps.pure _
  cases roundID with
  | none => exact Call.Keeps.fail _
  | some roundID =>
    exact Call.Keeps.bind (Call.Keeps.io _ _ (Call.Keeps.read _)) fun _ => Call.Keeps.pure _

/-- `GetRoundDetails` only reads. -/
theorem keeps_getRoundDetails (env : Env) (roomID : RoomID) :
    Call.Keeps id (getRoundDetails env roomID) := by
  refine Call.Keeps.bind (keeps_findRoomByID env roomID) fun (_, rounds) => ?_
  dsimp only
  cases rounds.getLast? with
  | none => exact Call.Keeps.fail _
  | some round =>
    exact Call.Keeps.bind (Call.Keeps.io _ _ (Call.Keeps.read _)) fun _ =>
      Call.Keeps.bind (Call.Keeps.io _ _ (Call.Keeps.read _)) fun _ => Call.Keeps.pure _

/-- A request that creates no room does what its event does. -/
theorem handle_state (env : SiteEnv) (s : Site) (req : RoomRequest)
    (h : ∀ body userAuthID, req ≠ .createNewRoom (some body) userAuthID) :
    ((req.handle env).run s).2 =
      match req.event env s with
      | some event => { s with world := s.world.serve (env.toEnv, event) }
      | none => s := by
  have hpure : ∀ {α : Type} (a : α), Call.Keeps id (pure a : SiteService α) :=
    fun _ => Call.Keeps.pure _
  -- An endpoint that only reads is a call that leaves the state, and so is its answer.
  have hreads : ∀ {α : Type} {x : Service α} (refuse : GoError → HTTPResponse)
      {reply : α → SiteService HTTPResponse}, Call.Keeps id x → (∀ a, Call.Keeps id (reply a)) →
      ((answer (onSite x) refuse reply).run s).2 = s := fun refuse _ hx hreply =>
    (answer_state _ refuse hreply s).trans (keeps_onSite hx s)
  cases req with
  | createNewRoom body userAuthID =>
    cases body with
    | none => rfl
    | some body => exact absurd rfl (h body userAuthID)
  | findRoom roomID => exact hreads _ (keeps_findRoomByID _ _) fun _ => hpure _
  | joinRoom roomID userAuthID =>
    show ((joinRoomEndpoint env roomID userAuthID).run s).2 =
      { s with world := s.world.serve (env.toEnv, .joinRoom (s.resolve env roomID) userAuthID) }
    unfold joinRoomEndpoint
    rw [Call.bind_ok (resolveRoomParam_run roomID)]
    generalize s.resolve env roomID = target
    exact answer_state _ _ (fun _ => hpure _) s
  | getRoomParticipants roomID =>
    refine hreads _ (Call.Keeps.io _ _ (Call.Keeps.read _)) fun authIDs => ?_
    exact Call.Keeps.bind (keeps_onSite (keeps_lookUpParticipants env _)) fun _ => hpure _
  | leaveRoom roomID userAuthID => exact answer_state _ _ (fun _ => hpure _) s
  | createNewRound body roomID =>
    cases body with
    | none => rfl
    | some params => exact answer_state _ _ (fun _ => hpure _) s
  | startRound roomID userAuthID => exact answer_state _ _ (fun _ => hpure _) s
  | updateRoundDuration body roomID userAuthID =>
    cases body with
    | none => rfl
    | some duration => exact answer_state _ _ (fun _ => hpure _) s
  | getLeaderboard roomID => exact hreads _ (keeps_getLeaderboard _ _) fun _ => hpure _
  | createSubmission roomID problemID body userAuthID =>
    show ((createSubmissionEndpoint env roomID problemID body userAuthID).run s).2 = _
    unfold createSubmissionEndpoint
    cases body with
    | none => cases atoi problemID <;> rfl
    | some params =>
      have hevent : (RoomRequest.createSubmission roomID problemID (some params) userAuthID).event
          env s = (atoi problemID).map fun n => .createSubmission roomID
            { params with problemID := uintOfInt n } userAuthID := rfl
      rw [hevent]
      cases atoi problemID with
      | none => rfl
      | some n => exact answer_state _ _ (fun _ => hpure _) s
  | getActiveRoom userAuthID =>
    exact hreads _ (Call.Keeps.io _ _ (Call.Keeps.read _)) fun _ => hpure _
  | endRound roomID userAuthID => exact answer_state _ _ (fun _ => hpure _) s
  | getRoundDetails roomID => exact hreads _ (keeps_getRoundDetails _ _) fun _ => hpure _

end Requests

/-! ## New rooms -/

/-- A room was opened under a code that was free; its expiry may have been scheduled. -/
structure Opens (room : Room) (code : String) (s s' : Site) : Prop where
  newID : s.world.db.roomByID room.id = none
  newCode : s.roomByShortCode code = none
  shortCode : s'.shortCode = Function.update s.shortCode room.id code
  db : s'.world.db = { s.world.db with rooms := s.world.db.rooms ++ [room] }
  redis : s'.world.redis = s.world.redis
  tasks : s'.world.tasks = s.world.tasks
  sent : s'.world.sent = s.world.sent

section Open

variable {env : SiteEnv} {s : Site}

/-- The code is one of the candidates; without a free one the search panics. -/
theorem freeShortCode_run : ∀ (candidates : List (String × Bool)) (s : Site),
    (freeShortCode candidates).run s = (.panic, s) ∨
    ∃ code ∈ candidates.map Prod.fst, (freeShortCode candidates).run s = (.ok code, s)
  | [], _ => Or.inl rfl
  | (candidate, fails) :: candidates, s => by
    unfold freeShortCode
    rw [Call.run_read_bind]
    by_cases hfree : (if fails then none else s.roomByShortCode candidate).isNone = true
    · rw [if_pos hfree]
      exact Or.inr ⟨candidate, List.mem_cons_self, rfl⟩
    · rw [if_neg hfree]
      rcases freeShortCode_run candidates s with hrun | ⟨code, hcode, hrun⟩
      · exact Or.inl hrun
      · exact Or.inr ⟨code, List.mem_cons_of_mem _ hcode, hrun⟩

/-- The expiry of a room concerns the scheduler alone. -/
theorem scheduleRoomExpiry_state (env : SiteEnv) (roomID : RoomID) (ttl : ℤ) (w : World) :
    ∃ expiryTasks, (scheduleRoomExpiry env roomID ttl).run w =
      (.ok (), w.withExpiry expiryTasks) := by
  unfold scheduleRoomExpiry
  cases env.scheduleRoomExpiry with
  | true => exact ⟨w.expiryTasks, rfl⟩
  | false =>
    rw [Call.io_false]
    split
    · exact ⟨w.expiryTasks ++ [roomID], rfl⟩
    · exact ⟨w.expiryTasks, rfl⟩

/-- A room is stored when neither its id nor its code is taken, and otherwise refused. -/
theorem insertRoom_cases (env : SiteEnv) (room : Room) (code : String) (s : Site) :
    (∃ e, (insertRoom env room code).run s = (.err e, s)) ∨
    s.world.db.roomByID room.id = none ∧ s.roomByShortCode code = none ∧
      (insertRoom env room code).run s = (.ok (), s.addRoom room code) := by
  unfold insertRoom
  cases env.insertRoom with
  | true => exact Or.inl ⟨_, rfl⟩
  | false =>
    rw [Call.io_false, Call.run_read_bind, Call.run_ite]
    cases hid : s.world.db.roomByID room.id with
    | some _ => exact Or.inl ⟨_, rfl⟩
    | none =>
      cases hcode : s.roomByShortCode code with
      | some _ => exact Or.inl ⟨_, rfl⟩
      | none => exact Or.inr ⟨rfl, rfl, rfl⟩

/-- A request for a new room changes nothing, or it opens the room under one of the codes that were
drawn. -/
theorem createRoom_cases (env : SiteEnv) (dto : RoomDTO) (adminID : AuthID) (s : Site) :
    ((createRoom env dto adminID).run s).2 = s ∨
    ∃ code ∈ env.candidates.map Prod.fst,
      Opens ⟨env.newRoomID, adminID, dto.profanityFilter, env.isUUID_newRoomID⟩ code s
        ((createRoom env dto adminID).run s).2 := by
  unfold createRoom
  have hvalid : ((onSite (validateRoomName dto.name)).run s).2 = s := by
    unfold onSite validateRoomName
    simp only [Call.run_ite]
    split_ifs <;> rfl
  rcases hname : (onSite (validateRoomName dto.name)).run s with ⟨_ | e | _, s'⟩
  case err =>
    rw [hname] at hvalid
    rw [Call.bind_err hname]
    exact Or.inl hvalid
  case panic =>
    rw [hname] at hvalid
    rw [Call.bind_panic hname]
    exact Or.inl hvalid
  rw [hname] at hvalid
  obtain rfl : s' = s := hvalid
  rw [Call.bind_ok hname]
  -- The loop that draws a code ends with one that no room has, or with no candidate left.
  rcases freeShortCode_run env.candidates s' with hfree | ⟨code, hcode, hfree⟩
  · rw [Call.bind_panic hfree]
    exact Or.inl rfl
  rw [Call.bind_ok hfree]
  rcases insertRoom_cases env ⟨env.newRoomID, adminID, dto.profanityFilter, env.isUUID_newRoomID⟩ code s' with
    ⟨e, hinsert⟩ | ⟨hid, hfreeCode, hinsert⟩
  · exact Or.inl (congrArg Prod.snd (Call.bind_err hinsert _))
  refine Or.inr ⟨code, hcode, ?_⟩
  dsimp only
  rw [Call.bind_ok hinsert]
  -- Scheduling the expiry only adds to the waiting tasks, whether or not it succeeds.
  by_cases httl : dto.ttl > 0
  · rw [if_pos httl]
    obtain ⟨expiryTasks, hschedule⟩ := scheduleRoomExpiry_state env env.newRoomID dto.ttl
      (s'.addRoom ⟨env.newRoomID, adminID, dto.profanityFilter, env.isUUID_newRoomID⟩ code).world
    rw [Call.bind_ok (onSite_run hschedule)]
    exact ⟨hid, hfreeCode, rfl, rfl, rfl, rfl, rfl⟩
  · rw [if_neg httl]
    exact ⟨hid, hfreeCode, rfl, rfl, rfl, rfl, rfl⟩

end Open

/-! ## The listener -/

/-- Users, verdicts and leaderboards may be written, and the queue from the worker is served;
nothing else changes. -/
structure Grades (w w' : World) : Prop where
  db : w'.db = { w.db with
    users := w'.db.users, submissions := w'.db.submissions, leaderboards := w'.db.leaderboards }
  redis : w'.redis = { w.redis with
    leaderboard := w'.redis.leaderboard, egress := w'.redis.egress }
  tasks : w'.tasks = w.tasks
  expiryTasks : w'.expiryTasks = w.expiryTasks
  sent : w'.sent = w.sent

/-- No step. -/
theorem Grades.refl (w : World) : Grades w w := ⟨rfl, rfl, rfl, rfl, rfl⟩

/-- Two steps that grade. -/
theorem Grades.trans (w₁ w₂ w₃ : World) (h : Grades w₁ w₂) (h' : Grades w₂ w₃) : Grades w₁ w₃ where
  db := by rw [h'.db, h.db]
  redis := by rw [h'.redis, h.redis]
  tasks := h'.tasks.trans h.tasks
  expiryTasks := h'.expiryTasks.trans h.expiryTasks
  sent := h'.sent.trans h.sent

/-- Grading absorbs new users and credits. -/
theorem absorbs_grades : Absorbs Grades where
  refl := Grades.refl
  trans := Grades.trans
  users _ _ := ⟨rfl, rfl, rfl, rfl, rfl⟩
  leaderboards _ _ := ⟨rfl, rfl, rfl, rfl, rfl⟩
  credit _ _ _ _ := ⟨rfl, rfl, rfl, rfl, rfl⟩

/-- Processing a message grades, wherever it stops. -/
theorem grades_processPayload (env : EgressEnv) (payload : SubmissionEgressDTO) :
    Call.Within Grades (processPayload env payload) := by
  have hR := absorbs_grades
  refine Call.Within.bind hR.trans ?_ fun s => Call.Within.bind hR.trans
    (Call.Within.read hR.refl _) fun difficulty => Call.Within.bind hR.trans
      (hR.earn env s payload.verdict) fun earned => Call.Within.bind hR.trans ?_ fun _ =>
        Call.Within.ite _ (Call.Within.bind hR.trans (hR.addToRoundLeaderboard env s _) fun _ =>
          hR.addToLeaderboard env _ _ _) (Call.Within.pure hR.refl _)
  · refine Call.Within.io hR.refl _ _ (Call.Within.bind hR.trans (Call.Within.read hR.refl _)
      fun found => ?_)
    cases found with
    | none => exact Call.Within.fail hR.refl _
    | some s => exact Call.Within.pure hR.refl _
  · exact Call.Within.io hR.refl _ _ (Call.Within.write fun w => ⟨rfl, rfl, rfl, rfl, rfl⟩)

/-- One round of the listener, however it ends. -/
theorem grades_listen (env : EgressEnv) : Call.Within Grades (listenForSubmissionData env) := by
  have hqueue : ∀ q : RedisQueue → RedisQueue, Call.Within Grades
      (writeRedis fun r => { r with egress := q r.egress }) := fun q =>
    Call.Within.write fun w => ⟨rfl, rfl, rfl, rfl, rfl⟩
  refine Call.Within.bind Grades.trans (Call.Within.read Grades.refl _) fun message => ?_
  cases message with
  | none => exact Call.Within.pure Grades.refl _
  | some raw =>
    refine Call.Within.bind Grades.trans (hqueue fun q => q.consume.2) fun _ =>
      Call.Within.bind Grades.trans (Call.Within.attempt ?_) fun result => ?_
    · unfold processSubmissionData
      cases SubmissionEgressDTO.unmarshal raw with
      | none => exact Call.Within.fail Grades.refl _
      | some payload => exact grades_processPayload env payload
    · cases result with
      | ok _ => exact hqueue fun q => q.ack raw
      | error e =>
        exact Call.Within.ite _ (hqueue fun q => q.requeue raw) (hqueue fun q => q.ack raw)

/-! ## The system -/

/-- An event does nothing, or it opens a room, or it does what one event of the rooms and queues
does; by then the scheduler may have forgotten an expiry task. -/
theorem happen_cases (s : Site) (e : SiteEvent) :
    s.happen e = s ∨
    (∃ env dto userAuthID code, e = .request env (.createNewRoom (some dto) userAuthID) ∧
      code ∈ env.candidates.map Prod.fst ∧
      Opens ⟨env.newRoomID, userAuthID, dto.profanityFilter, env.isUUID_newRoomID⟩ code s (s.happen e)) ∨
    ∃ expiryTasks event, e.history s = some event ∧
      s.happen e = { s with world := (s.world.withExpiry expiryTasks).happen event } := by
  have hworld : ∀ event, e.history s = some event →
      s.happen e = { s with world := s.world.happen event } →
      ∃ expiryTasks event, e.history s = some event ∧
        s.happen e = { s with world := (s.world.withExpiry expiryTasks).happen event } :=
    fun event hevent hstate => ⟨s.world.expiryTasks, event, hevent, hstate⟩
  cases e with
  | request env req =>
    -- All requests but this one are events of the service with one room.
    by_cases hcreate : ∃ dto userAuthID, req = .createNewRoom (some dto) userAuthID
    · obtain ⟨dto, userAuthID, rfl⟩ := hcreate
      have hstate : s.happen (.request env (.createNewRoom (some dto) userAuthID)) =
          ((createRoom env dto userAuthID).run s).2 :=
        answer_state _ _ (fun _ => Call.Keeps.pure _) s
      rw [hstate]
      rcases createRoom_cases env dto userAuthID s with hsame | ⟨code, hcode, hopens⟩
      · exact Or.inl hsame
      · exact Or.inr (Or.inl ⟨env, dto, userAuthID, code, rfl, hcode, hopens⟩)
    · have hstate := handle_state env s req fun dto userAuthID heq =>
        hcreate ⟨dto, userAuthID, heq⟩
      cases hevent : req.event env s with
      | none =>
        rw [hevent] at hstate
        exact Or.inl hstate
      | some event =>
        rw [hevent] at hstate
        have hhistory : SiteEvent.history s (.request env req) = some (.request env.toEnv event) :=
          congrArg (Option.map (HistoryEvent.request env.toEnv)) hevent
        exact Or.inr (Or.inr (hworld _ hhistory hstate))
  | runExpiryTask env roomID =>
    by_cases htask : roomID ∈ s.world.expiryTasks
    · exact Or.inr (Or.inr ⟨s.world.expiryTasks.erase roomID, _, rfl, if_pos htask⟩)
    · exact Or.inl (if_neg htask)
  | runEndTask env task => exact Or.inr (Or.inr (hworld _ rfl rfl))
  | restart env => exact Or.inr (Or.inr (hworld _ rfl rfl))
  | forward => exact Or.inr (Or.inr (hworld _ rfl rfl))
  | process env => exact Or.inr (Or.inr (hworld _ rfl rfl))

end Bsg.Central
