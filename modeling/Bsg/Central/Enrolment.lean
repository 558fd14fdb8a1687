import Bsg.Central.RoundSteps

/-!
# One row for each participant of a round

A user takes part in a round through his row in `round_participants`. Where that row is looked up,
by `checkSubmission` and by `getLeaderboard`, the code takes any row that it finds, so there should
be at most one for each user and round (`EnrolledOnce`). The table has no such constraint. A start
enrols the members, none of whom can have a row before; a join enrols the user in the running round
whether or not he has a row already. So a user who left and comes back gets a second one, as leaving
removes none, and so does a member who joins the room under another spelling of its id, where Redis
does not have him yet. `enrolledOnce_iff` says that the rows stay unique exactly without joins of
these kinds (`Reenrols`).
-/

namespace Bsg.Central

open Bsg.Foundations

/-- For each row of a participant, the user and the round. -/
def World.enrolments (w : World) : List (AuthID × ℕ) :=
  w.db.participants.rows.map fun p => (p.participantAuthID, p.roundID)

/-- A user has at most one row for a round, so neither the participant of a submission nor the
solved counts on a leaderboard depend on the order of the rows. -/
structure EnrolledOnce (w : World) : Prop where
  once : w.enrolments.Nodup
  submits : ∀ env params author (order : Arrangement RoundParticipant),
    (checkSubmission { env with participants := order } params author).run w =
      (checkSubmission env params author).run w
  counts : ∀ env roomID (order : Arrangement RoundParticipant),
    (getLeaderboard { env with participants := order } roomID).run w =
      (getLeaderboard env roomID).run w

/-- The keys of the rounds that were not started. -/
def World.unstarted (w : World) : List ℕ :=
  (w.db.rounds.rows.filter fun r => decide (r.status = .created)).map Round.id

/-- Nobody takes part in a round that was not started. -/
def NoneEarly (w : World) : Prop := ∀ e ∈ w.enrolments, e.2 ∉ w.unstarted

/-- A user who enters a room with these rounds gets a row for the running one. -/
structure Enters (env : Env) (rounds : List Round) (round : Round) : Prop where
  running : runningRound rounds = some round
  told : env.reply .joinRoom = .ok
  created : env.fails (.createParticipant 0) = false

/-- The request lets a user into the room, as he is no member under its text, who has a row for the
running round already, and gives him another one. -/
def Reenrols (env : Env) (roomID : RoomID) (userID : AuthID) (w : World) : Prop :=
  (∃ room, Findable env roomID w.db room) ∧ env.fails .zaddJoin = false ∧
    ¬ w.isMember roomID userID ∧
      ∃ round, Enters env (w.db.roundsNamed env roomID) round ∧
        (userID, round.id) ∈ w.enrolments

/-- What a request must heed: nobody is let into a round that he takes part in already. -/
def KeepsEnrolledOnce (w : World) (e : Env × RoomEvent) : Prop :=
  match e.2 with
  | .joinRoom roomID userID => ¬ Reenrols e.1 roomID userID w
  | _ => True

/-- The event is a request to create a round. -/
def RoomEvent.isCreation : RoomEvent → Bool
  | .createRound _ _ _ => true
  | _ => false

section Lookup

variable {w : World}

/-- Rows with different users or rounds are told apart by them. -/
theorem eq_of_enrolments (h : w.enrolments.Nodup) {p p' : RoundParticipant}
    (hp : p ∈ w.db.participants.rows) (hp' : p' ∈ w.db.participants.rows)
    (huser : p.participantAuthID = p'.participantAuthID) (hround : p.roundID = p'.roundID) :
    p = p' :=
  List.inj_on_of_nodup_map h hp hp' (Prod.ext huser hround)

/-- The participant of a submission does not depend on the order of the rows. -/
theorem checkSubmission_order (h : w.enrolments.Nodup) (env : Env)
    (params : RoundSubmissionParameters) (author : AuthID) (order : Arrangement RoundParticipant) :
    (checkSubmission { env with participants := order } params author).run w =
      (checkSubmission env params author).run w := by
  have hio : ∀ (op : Op) {α : Type} (f : World → α),
      Call.Keeps id (.io (env.fails op) .io (Call.read f) : Service α) := fun op _ f =>
    Call.Keeps.io _ _ (Call.Keeps.read f)
  have hfind : ∀ (a a' : Arrangement RoundParticipant) (roundID : ℕ),
      ((a.order w.db.participants.rows).find? fun p =>
        p.participantAuthID = author ∧ p.roundID = roundID) =
      (a'.order w.db.participants.rows).find? fun p =>
        p.participantAuthID = author ∧ p.roundID = roundID := by
    intro a a' roundID
    refine find?_eq_of_perm ((a.perm _).trans (a'.perm _).symm) fun p hp p' hp' hof hof' => ?_
    simp only [decide_eq_true_eq] at hof hof'
    exact eq_of_enrolments h (a.mem_order.mp hp) (a.mem_order.mp hp')
      (hof.1.trans hof'.1.symm) (hof.2.trans hof'.2.symm)
  unfold checkSubmission
  refine (hio .findRound _).run_bind_congr fun round => ?_
  cases round with
  | none => rfl
  | some round =>
    dsimp only
    split
    · rfl
    split
    · rfl
    refine (hio .findProblem _).run_bind_congr fun problem => ?_
    refine (hio .findProblemSet _).run_bind_congr fun problemSet => ?_
    cases problem with
    | none => rfl
    | some problem =>
      dsimp only
      cases problemSet.findIdx? fun p => p.id = problem.id with
      | none => rfl
      | some problemIndex =>
        -- The two searches for the participant find the same row.
        dsimp only
        cases env.fails .findParticipant with
        | true => rfl
        | false =>
          simp only [Call.io_false, Call.run_read_bind, hfind order env.participants]
          rfl

/-- The solved counts do not depend on the order of the rows. -/
theorem getLeaderboard_order (h : w.enrolments.Nodup) (env : Env) (roomID : RoomID)
    (order : Arrangement RoundParticipant) :
    (getLeaderboard { env with participants := order } roomID).run w =
      (getLeaderboard env roomID).run w := by
  have hentries : Call.Keeps id (getLeaderboardByRoomID env roomID) := by
    refine Call.Keeps.bind (Call.Keeps.io _ _ (Call.Keeps.read _)) fun roundID => ?_
    cases roundID with
    | none => exact Call.Keeps.fail _
    | some roundID =>
      exact Call.Keeps.bind (Call.Keeps.io _ _ (Call.Keeps.read _)) fun _ => Call.Keeps.pure _
  -- A participant has one row in the round, and so any order finds the same.
  have hfind : ∀ (a a' : Arrangement RoundParticipant) (roundID : ℕ) (user : AuthID),
      ((a.order (w.db.participants.rows.filter fun p =>
        decide (p.roundID = roundID))).reverse.find? fun p => decide (p.participantAuthID = user)) =
      (a'.order (w.db.participants.rows.filter fun p =>
        decide (p.roundID = roundID))).reverse.find? fun p =>
          decide (p.participantAuthID = user) := by
    intro a a' roundID user
    generalize hrows : (w.db.participants.rows.filter fun p => decide (p.roundID = roundID)) = rows
    have hperm : (a.order rows).reverse.Perm (a'.order rows).reverse := calc
      (a.order rows).reverse.Perm (a.order rows) := List.reverse_perm _
      List.Perm _ rows := a.perm _
      List.Perm _ (a'.order rows) := (a'.perm _).symm
      List.Perm _ (a'.order rows).reverse := (List.reverse_perm _).symm
    refine find?_eq_of_perm hperm fun p hp p' hp' hof hof' => ?_
    rw [← hrows] at hp hp'
    rw [List.mem_reverse, a.mem_order, List.mem_filter, decide_eq_true_eq] at hp hp'
    rw [decide_eq_true_eq] at hof hof'
    exact eq_of_enrolments h hp.1 hp'.1 (hof.trans hof'.symm) (hp.2.trans hp'.2.symm)
  unfold getLeaderboard
  refine hentries.run_bind_congr fun redisEntries => ?_
  refine (Call.Keeps.read _).run_bind_congr fun users => ?_
  rw [Call.run_read_bind, Call.run_read_bind]
  refine congrArg (fun entries => (Outcome.ok entries, w)) (List.map_congr_left fun entry _ => ?_)
  unfold enrichEntry
  dsimp only
  split
  · rfl
  · rw [hfind order env.participants]

/-- All that is asked follows from the rows being different. -/
theorem enrolledOnce_iff_nodup : EnrolledOnce w ↔ w.enrolments.Nodup :=
  ⟨EnrolledOnce.once, fun h => ⟨h, checkSubmission_order h, getLeaderboard_order h⟩⟩

end Lookup

section Step

variable {env : Env} {roomID : RoomID} {userID : AuthID} {w w' : World}

/-- The unstarted rounds are the keys of the created ones. -/
theorem mem_unstarted {roundID : ℕ} : roundID ∈ w.unstarted ↔
    ∃ round ∈ w.db.rounds.rows, round.status = .created ∧ round.id = roundID := by
  unfold World.unstarted
  simp only [List.mem_map, List.mem_filter, decide_eq_true_eq, and_assoc]

/-- A rewriting that takes no round back to its beginning starts none anew. -/
theorem unstarted_modify {f : Round → Round} (hf : ∀ r, Row.id (f r) = Row.id r) {roundID : ℕ}
    (hstatus : ∀ r, (f r).status = .created → r.status = .created)
    (h : w'.db.rounds = w.db.rounds.modify roundID f hf) : w'.unstarted ⊆ w.unstarted := by
  intro k hk
  obtain ⟨r, hr, hcreated, rfl⟩ := mem_unstarted.mp hk
  rw [h, Table.rows_modify] at hr
  obtain ⟨r₀, hr₀, rfl⟩ := List.mem_map.mp hr
  refine mem_unstarted.mpr ⟨r₀, hr₀, ?_⟩
  split at hcreated
  · exact ⟨hstatus r₀ hcreated, by rw [if_pos ‹_›]; exact (hf r₀).symm⟩
  · exact ⟨hcreated, by rw [if_neg ‹_›]⟩

/-- Fewer unstarted rounds and fewer enrolments make nobody early. -/
theorem NoneEarly.mono (h : NoneEarly w) (hrounds : w'.unstarted ⊆ w.unstarted)
    (henrolments : w'.enrolments ⊆ w.enrolments) : NoneEarly w' :=
  fun e he hround => h e (henrolments he) (hrounds hround)

/-- What takes rounds and participants away keeps both properties. -/
theorem Retires.enrolments (h : Retires w w') : w'.enrolments.Sublist w.enrolments :=
  h.participants.map _

/-- No round becomes unstarted again. -/
theorem Retires.unstarted (h : Retires w w') : w'.unstarted ⊆ w.unstarted :=
  ((h.rounds.filter _).map _).subset

/-- A user who enters is enrolled in the running round. -/
theorem enrolments_entered {rounds : List Round} {round : Round} (h : Enters env rounds round) :
    (w.entered env rounds userID).enrolments = w.enrolments ++ [(userID, round.id)] := by
  unfold World.entered
  rw [h.running]
  dsimp only
  rw [if_pos ⟨h.told, h.created⟩]
  exact List.map_append

/-- Where no round is to be entered, nobody is. -/
theorem entered_eq_self {rounds : List Round} (h : ∀ round, ¬ Enters env rounds round) :
    w.entered env rounds userID = w := by
  unfold World.entered
  cases hrunning : runningRound rounds with
  | none => rfl
  | some round => exact if_neg fun hin => h round ⟨hrunning, hin.1, hin.2⟩

/-- A round that is running has started. -/
theorem runningRound_started {rounds : List Round} {round : Round}
    (h : runningRound rounds = some round) : round ∈ rounds ∧ round.status = .started := by
  obtain ⟨hlast, hstarted⟩ := Option.filter_eq_some_iff.mp h
  exact ⟨List.mem_of_getLast? hlast, of_decide_eq_true hstarted⟩

/-- A key of a round that has started is not among the unstarted. -/
theorem not_mem_unstarted {round : Round} (hround : round ∈ w.db.rounds.rows)
    (hstatus : round.status ≠ .created) : round.id ∉ w.unstarted := by
  intro hmem
  obtain ⟨r, hr, hcreated, hid⟩ := mem_unstarted.mp hmem
  rw [Table.eq_of_id_eq hr hround hid] at hcreated
  exact hstatus hcreated

/-- A round that starts is not among the unstarted any more. -/
theorem Starts.not_mem_unstarted {round : Round} {users : List AuthID}
    (h : Starts env roomID round users w w') : round.id ∉ w'.unstarted := by
  intro hmem
  obtain ⟨r, hr, hcreated, hid⟩ := mem_unstarted.mp hmem
  rw [h.rounds] at hr
  obtain ⟨r₀, -, rfl⟩ := List.mem_map.mp hr
  split at hcreated
  · cases hcreated
  · rename_i hne
    rw [if_neg hne] at hid
    exact hne hid

/-- A start enrols users of whom nobody took part in the round before. -/
theorem NoneEarly.starts (h : NoneEarly w) {round : Round} {users : List AuthID}
    (hstarts : Starts env roomID round users w w') (hround : round.id ∈ w.unstarted)
    (husers : users.Nodup) :
    NoneEarly w' ∧ (w.enrolments.Nodup → w'.enrolments.Nodup) := by
  obtain ⟨new, hrows, hnew⟩ := hstarts.participants
  have henrolments : w'.enrolments =
      w.enrolments ++ new.map fun p => (p.participantAuthID, p.roundID) := by
    unfold World.enrolments
    rw [hrows, List.map_append]
  -- The new rows are all in the round that starts.
  have hadded : ∀ e ∈ new.map (fun p => (p.participantAuthID, p.roundID)), e.2 = round.id := by
    intro e he
    rcases hnew with rfl | hnew
    · cases he
    · rw [hnew] at he
      obtain ⟨user, -, rfl⟩ := List.mem_map.mp he
      rfl
  have hunstarted : w'.unstarted ⊆ w.unstarted :=
    unstarted_modify (Round.id_start env.now) (fun r hr => by cases hr) hstarts.rounds
  constructor
  · intro e he
    rw [henrolments] at he
    rcases List.mem_append.mp he with hold | he
    · exact fun hmem => h e hold (hunstarted hmem)
    · rw [hadded e he]
      exact hstarts.not_mem_unstarted
  · -- The old rows are in other rounds, and the new ones are for different users.
    intro honce
    rw [henrolments]
    refine List.nodup_append.mpr ⟨honce, ?_, fun e he e' he' heq => ?_⟩
    · rcases hnew with rfl | hnew
      · exact List.nodup_nil
      · rw [hnew]
        exact husers.map fun _ _ heq => congrArg Prod.fst heq
    · refine h e he ?_
      rw [heq, hadded e' he']
      exact hround

/-- A join keeps the rows different exactly when the user does not come back to a round that he took
part in. -/
theorem NoneEarly.joinRoom (h : NoneEarly w) (env : Env) (roomID : RoomID) (userID : AuthID)
    (hafter : w' = ((joinRoom env roomID userID).run w).2) :
    NoneEarly w' ∧
      (w.enrolments.Nodup → (w'.enrolments.Nodup ↔ ¬ Reenrols env roomID userID w)) := by
  rcases joinRoom_cases env roomID userID w with ⟨e, hrun, hnot⟩ | ⟨room, hroom, hzadd,
    ⟨hmember, hrun⟩ | ⟨hmember, o, rs, hrun, -⟩⟩
  · rw [hafter, hrun]
    refine ⟨h, fun honce => iff_of_true honce ?_⟩
    rintro ⟨⟨room, hroom⟩, hzadd, -⟩
    rw [hnot room hroom] at hzadd
    cases hzadd
  · rw [hafter, hrun]
    exact ⟨h, fun honce => iff_of_true honce fun hre => hre.2.2.1 hmember⟩
  · rw [hafter, hrun]
    -- The user enters the running round, when there is one.
    by_cases henters : ∃ round, Enters env (w.db.roundsOf env.rounds room.id) round
    swap
    · rw [entered_eq_self fun round hround => henters ⟨round, hround⟩]
      refine ⟨h, fun honce => iff_of_true honce ?_⟩
      rintro ⟨-, -, -, round, hround, -⟩
      rw [hroom.roundsNamed] at hround
      exact henters ⟨round, hround⟩
    obtain ⟨round, hround⟩ := henters
    have henrolments : (((w.joined env roomID userID).entered env
        (w.db.roundsOf env.rounds room.id) userID).tell rs).enrolments =
          w.enrolments ++ [(userID, round.id)] := enrolments_entered hround
    have hunstarted : (((w.joined env roomID userID).entered env
        (w.db.roundsOf env.rounds room.id) userID).tell rs).unstarted = w.unstarted := by
      unfold World.entered
      rw [hround.running]
      dsimp only
      split <;> rfl
    constructor
    · intro e he
      rw [henrolments] at he
      rw [hunstarted]
      rcases List.mem_append.mp he with hold | he
      · exact h e hold
      · obtain ⟨hmem, hstarted⟩ := runningRound_started hround.running
        rw [List.mem_singleton.mp he]
        refine not_mem_unstarted (mem_roundsIn.mp (env.rounds.mem_order.mp hmem)).1 ?_
        rw [hstarted]
        decide
    · intro honce
      -- The one new row must not be there already.
      rw [henrolments, List.nodup_append_comm, List.singleton_append, List.nodup_cons]
      constructor
      · rintro ⟨hnew, -⟩ ⟨-, -, -, round', hround', hold⟩
        rw [hroom.roundsNamed] at hround'
        obtain rfl := Option.some.inj (hround.running.symm.trans hround'.running)
        exact hnew hold
      · intro hre
        rw [← hroom.roundsNamed] at hround
        refine ⟨fun hold => hre ⟨⟨room, hroom⟩, hzadd, ?_, round, hround, hold⟩, honce⟩
        unfold World.isMember
        rw [hmember]
        exact Bool.false_ne_true

/-- What an event does to the rows, from a state in which nobody takes part in an unstarted
round. -/
theorem enrolments_serve (e : Env × RoomEvent) (h : NoneEarly w) (hlegal : e.2.isCreation = false) :
    NoneEarly (w.serve e) ∧
      (w.enrolments.Nodup → ((w.serve e).enrolments.Nodup ↔ KeepsEnrolledOnce w e)) := by
  obtain ⟨env, event⟩ := e
  -- Most events add no row and unstart no round.
  have hless : ∀ {w' : World}, w.serve (env, event) = w' → w'.unstarted ⊆ w.unstarted →
      w'.enrolments.Sublist w.enrolments → NoneEarly (w.serve (env, event)) ∧
        (w.enrolments.Nodup → ((w.serve (env, event)).enrolments.Nodup ↔ True)) := by
    intro w' hserve hrounds henrolments
    rw [hserve]
    exact ⟨h.mono hrounds henrolments.subset,
      fun honce => iff_of_true (honce.sublist henrolments) trivial⟩
  have hsame := fun hserve : w.serve (env, event) = w =>
    hless hserve (List.Subset.refl _) (List.Sublist.refl _)
  cases event with
  | joinRoom roomID userID => exact h.joinRoom env roomID userID rfl
  | leaveRoom roomID userID =>
    have hretires := retires_leaveRoom env roomID userID w
    exact hless rfl hretires.unstarted hretires.enrolments
  | expireRoom roomID =>
    have hretires := retires_expireRoom env roomID w
    exact hless rfl hretires.unstarted hretires.enrolments
  | createRound maxNumRoundsPerRoom params roomID => cases hlegal
  | setRoundDuration roomID userID duration =>
    rcases setRoundDurationByRoomID_cases env roomID userID duration w with
      hrun | ⟨round, -, -, -, hrun⟩
    · exact hsame hrun
    · exact hless (congrArg Prod.snd hrun)
        (unstarted_modify (Round.id_setDuration duration) (fun _ hr => hr) rfl) (List.Sublist.refl _)
  | startRound roomID userID =>
    rcases startRoundByRoomID_cases env roomID userID w with ⟨o, hrun, -⟩ |
      ⟨round, hchosen, -, -, o, w', hrun, hstarts⟩
    · exact hsame (congrArg Prod.snd hrun)
    · obtain ⟨⟨hround, -⟩, hcreated⟩ := mem_of_chosenRound hchosen
      have hnew := h.starts hstarts (mem_unstarted.mpr ⟨round, hround, hcreated, rfl⟩)
        (SortedSet.members_nodup _)
      have hserve : w.serve (env, .startRound roomID userID) = w' := congrArg Prod.snd hrun
      rw [hserve]
      exact ⟨hnew.1, fun honce => iff_of_true (hnew.2 honce) trivial⟩
  | endRound roomID userID =>
    rcases endRoundByRoomID_cases env roomID userID w with ⟨o, hrun, -⟩ | ⟨round, -, -, hrun⟩
    · exact hsame (congrArg Prod.snd hrun)
    · exact hless (congrArg Prod.snd hrun)
        (unstarted_modify Round.id_finish (fun r hr => by cases hr) rfl) (List.Sublist.refl _)
  | createSubmission roomID params userID =>
    obtain ⟨-, hkeeps⟩ := Prod.ext_iff.mp (keeps_createRoomSubmission env roomID params userID w)
    obtain ⟨hrounds, hrest⟩ := Prod.ext_iff.mp hkeeps
    have henrolments : (w.serve (env, .createSubmission roomID params userID)).enrolments =
        w.enrolments := (Prod.ext_iff.mp hrest).2
    refine hless rfl (fun k hk => ?_) (henrolments ▸ List.Sublist.refl _)
    unfold World.unstarted at hk ⊢
    rwa [← show (w.serve (env, .createSubmission roomID params userID)).db.rounds = w.db.rounds
      from hrounds]
  | runEndTask task =>
    rcases serve_runEndTask_cases env task w with hserve | ⟨-, ⟨-, hserve⟩ | ⟨-, hserve⟩⟩
    · exact hsame hserve
    · exact hless hserve (List.Subset.refl _) (List.Sublist.refl _)
    · exact hless hserve (unstarted_modify Round.id_finish (fun r hr => by cases hr) rfl)
        (List.Sublist.refl _)
  | restart => exact hless rfl (List.Subset.refl _) (List.Sublist.refl _)

end Step

/-- Along every run without new rounds, a user has at most one row for each round exactly as long as
nobody is let into a room, under any text that names it, in whose running round he takes part. -/
theorem enrolledOnce_iff (w : World) (es : List (Env × RoomEvent)) (hearly : NoneEarly w)
    (honce : EnrolledOnce w) (hes : ∀ e ∈ es, e.2.isCreation = false) :
    Throughout World.serve EnrolledOnce w es ↔ Along World.serve KeepsEnrolledOnce w es := by
  have hlegal : Along World.serve (fun _ e => e.2.isCreation = false) w es := Along.of_mem hes
  refine throughout_iff_along (I := NoneEarly) (fun _ e h hlegal => (enrolments_serve e h hlegal).1)
    (fun _ e h hlegal hP => ?_) hearly honce hlegal
  exact enrolledOnce_iff_nodup.trans ((enrolments_serve e h hlegal).2 hP.once)

/-- In the room nobody is enrolled yet. -/
theorem enrolments_ready : World.ready.enrolments = [] := rfl

/-- So nobody is enrolled early. -/
theorem noneEarly_ready : NoneEarly .ready := by
  intro e he
  rw [enrolments_ready] at he
  cases he

/-- And nobody is enrolled twice. -/
theorem enrolledOnce_ready : EnrolledOnce .ready := by
  rw [enrolledOnce_iff_nodup, enrolments_ready]
  exact List.nodup_nil

/-- While a round is running, a guest joins and leaves. -/
def joinAndGo : List (Env × RoomEvent) :=
  [(Env.faultless 10, .startRound roomOne host), (Env.faultless 20, .joinRoom roomOne guest),
    (Env.faultless 30, .leaveRoom roomOne guest)]

/-- The guest had no row when he joined. -/
theorem enrolledOnce_joinAndGo : Throughout World.serve EnrolledOnce .ready joinAndGo := by
  refine (enrolledOnce_iff .ready joinAndGo noneEarly_ready enrolledOnce_ready (by decide)).mpr
    ⟨trivial, ?_, trivial, trivial⟩
  rintro ⟨-, -, -, round, -, hmem⟩
  have henrolments : (World.ready.serve (Env.faultless 10, .startRound roomOne host)).enrolments =
      [(host, 1)] := by decide +kernel
  rw [henrolments, List.mem_singleton] at hmem
  exact absurd (Prod.mk.inj hmem).1 (show guest ≠ host by decide)

/-- While a round is running, a guest joins, leaves, and comes back. -/
def leaveAndComeBack : List (Env × RoomEvent) :=
  joinAndGo ++ [(Env.faultless 40, .joinRoom roomOne guest)]

/-- The guest has two rows for the round. -/
theorem not_enrolledOnce :
    (NoneEarly .ready ∧ EnrolledOnce .ready ∧ ∀ e ∈ leaveAndComeBack, e.2.isCreation = false) ∧
      ¬ Throughout World.serve EnrolledOnce .ready leaveAndComeBack := by
  refine ⟨⟨noneEarly_ready, enrolledOnce_ready, by decide⟩, fun h => ?_⟩
  let last := run World.serve World.ready leaveAndComeBack
  have htwice : last.enrolments = [(host, 1), (guest, 1), (guest, 1)] := by decide +kernel
  have honce : last.enrolments.Nodup := h.last.once
  rw [htwice] at honce
  simp at honce

end Bsg.Central
