import Bsg.Central.Tally

/-!
# Events that leave the submissions alone

Of all that happens to the rooms, most leaves every submission as it is, with what it counts for: at
most there are more participants and more entries on the leaderboards, and a round that is new
becomes the most recent one (`Continues`). Such an event keeps the rows linked (`Continues.linked`),
and it keeps the reports in agreement exactly when it does so for the participants that it adds
(`Continues.tallied_iff`): a start gives each of them his entry, and a join does not.
-/

namespace Bsg.Central

open Bsg.Foundations

/-! ## What stays -/

/-- The submissions stay, with what they count for, and these participants are added. -/
structure Continues (new : List RoundParticipant) (w w' : World) : Prop where
  participants : w'.db.participants.rows = w.db.participants.rows ++ new
  roundSubmissions : w'.db.roundSubmissions = w.db.roundSubmissions
  submissions : w'.db.submissions = w.db.submissions
  listed : ∀ roundID userID, (w.redis.leaderboard roundID).contains userID = true →
    (w'.redis.leaderboard roundID).contains userID = true
  begun : ∀ roundID, w.Begun roundID → w'.Begun roundID
  mostRecent : ∀ roundID, w'.IsMostRecent roundID → w.IsMostRecent roundID ∨ ¬ w.Begun roundID
  enrolled : ∀ p ∈ new, w'.Begun p.roundID

/-- Everything that the reports depend on, but for the rounds. -/
def World.records (w : World) : Table RoundParticipant × Table RoundSubmission ×
    Table Submission × (ℕ → SortedSet AuthID ℕ) × (RoomID → Option ℕ) :=
  (w.db.participants, w.db.roundSubmissions, w.db.submissions, w.redis.leaderboard,
    w.redis.mostRecentRound)

section Continues

variable {new new' : List RoundParticipant} {w w' w'' : World}

/-- A step that leaves the records, and after which the rounds that had begun still have. -/
theorem Continues.of_records (h : w'.records = w.records)
    (hbegun : ∀ roundID, w.Begun roundID → w'.Begun roundID) : Continues [] w w' := by
  obtain ⟨hparticipants, h⟩ := Prod.ext_iff.mp h
  obtain ⟨hroundSubmissions, h⟩ := Prod.ext_iff.mp h
  obtain ⟨hsubmissions, h⟩ := Prod.ext_iff.mp h
  obtain ⟨hleaderboard, hmostRecent⟩ := Prod.ext_iff.mp h
  have hrows : w'.db.participants = w.db.participants := hparticipants
  have hboards : w'.redis.leaderboard = w.redis.leaderboard := hleaderboard
  have hkeys : w'.redis.mostRecentRound = w.redis.mostRecentRound := hmostRecent
  refine ⟨by rw [hrows, List.append_nil], hroundSubmissions, hsubmissions, fun _ _ hlisted => ?_,
    hbegun, fun roundID hrecent => Or.inl ?_, fun _ hp => by cases hp⟩
  · rwa [hboards]
  · unfold World.IsMostRecent at hrecent ⊢
    rwa [hkeys] at hrecent

/-- No step. -/
theorem Continues.refl (w : World) : Continues [] w w := .of_records rfl fun _ h => h

/-- One part of a run continues another. -/
theorem Continues.trans (h : Continues new w w') (h' : Continues new' w' w'') :
    Continues (new ++ new') w w'' where
  participants := by rw [h'.participants, h.participants, List.append_assoc]
  roundSubmissions := h'.roundSubmissions.trans h.roundSubmissions
  submissions := h'.submissions.trans h.submissions
  listed roundID userID hlisted := h'.listed roundID userID (h.listed roundID userID hlisted)
  begun roundID hbegun := h'.begun roundID (h.begun roundID hbegun)
  mostRecent roundID hrecent := by
    rcases h'.mostRecent roundID hrecent with hrecent | hnot
    · exact h.mostRecent roundID hrecent
    · exact Or.inr fun hbegun => hnot (h.begun roundID hbegun)
  enrolled p hp := by
    rcases List.mem_append.mp hp with hp | hp
    · exact h'.begun _ (h.enrolled p hp)
    · exact h'.enrolled p hp

/-- What follows adds no more participants. -/
theorem Continues.andThen (h : Continues new w w') (h' : Continues [] w' w'') :
    Continues new w w'' := by
  have hall := h.trans h'
  rwa [List.append_nil] at hall

/-- What leaves the records and the rounds alone. -/
theorem Continues.of_keeps {α : Type} {x : Service α}
    (h : Call.Keeps (fun w : World => (w.records, w.db.rounds)) x) :
    Call.Within (Continues []) x := by
  intro w
  obtain ⟨hrecords, hrounds⟩ := Prod.ext_iff.mp (h w)
  refine .of_records hrecords fun roundID hbegun => ?_
  have hsame : (x.run w).2.db.rounds = w.db.rounds := hrounds
  unfold World.Begun at hbegun ⊢
  rwa [hsame]

/-- Sending requests leaves the records. -/
theorem Continues.tell (w : World) (rs : List Rtc.Request) : Continues [] w (w.tell rs) :=
  .of_records rfl fun _ h => h

/-- A rewriting that takes no round back to its beginning leaves the rounds begun. -/
theorem begun_modify {f : Round → Round} (hf : ∀ r, Row.id (f r) = Row.id r) {roundID : ℕ}
    (hstatus : ∀ r, (f r).status = .created → r.status = .created)
    (h : w'.db.rounds = w.db.rounds.modify roundID f hf) (k : ℕ) (hbegun : w.Begun k) :
    w'.Begun k := by
  obtain ⟨r, hr, rfl, hnot⟩ := hbegun
  refine ⟨if Row.id r = roundID then f r else r, ?_, ?_, ?_⟩
  · rw [h, Table.rows_modify]
    exact List.mem_map_of_mem hr
  · split
    · exact hf r
    · rfl
  · split
    · exact fun hcreated => hnot (hstatus r hcreated)
    · exact hnot

/-- A submission counts for whom it counted. -/
theorem Continues.creditOf (h : Continues new w w') (hlinked : Linked w) (s : Submission) :
    w'.db.creditOf s = w.db.creditOf s := by
  have howner : w'.db.ownerOf s = w.db.ownerOf s := by
    unfold DB.ownerOf
    rw [h.roundSubmissions]
  unfold DB.creditOf
  rw [howner]
  cases hrs : w.db.ownerOf s with
  | none => rfl
  | some rs =>
    obtain ⟨hmem, -⟩ := Table.find?_eq_some.mp (ownerOf_eq_some hrs).2
    obtain ⟨p, hp, hid, -⟩ := hlinked.roundSubmissions rs hmem
    have hold : w.db.participants.find? rs.roundParticipantID = some p :=
      Table.find?_eq_some.mpr ⟨hp, hid⟩
    have hnow : w'.db.participants.find? rs.roundParticipantID = some p := by
      refine Table.find?_eq_some.mpr ⟨?_, hid⟩
      rw [h.participants]
      exact List.mem_append_left _ hp
    simp only [Option.bind_some, DB.participantAuthID, hold, hnow]

/-- Everyone has solved the problems that he had solved. -/
theorem Continues.solvedProblems (h : Continues new w w') (hlinked : Linked w) (roundID : ℕ)
    (userID : AuthID) : w'.db.solvedProblems roundID userID = w.db.solvedProblems roundID userID := by
  have hsolves : ∀ s, w'.db.Solves roundID userID s ↔ w.db.Solves roundID userID s := by
    intro s
    unfold DB.Solves
    rw [h.creditOf hlinked]
  unfold DB.solvedProblems
  rw [h.submissions]
  exact congrArg (fun l => (l.map Submission.problemID).dedup)
    (List.filter_congr fun s _ => decide_eq_decide.mpr (hsolves s))

/-- The rows stay linked. -/
theorem Continues.linked (h : Continues new w w') (hlinked : Linked w) : Linked w' where
  participants p hp := by
    rw [h.participants] at hp
    rcases List.mem_append.mp hp with hp | hp
    · exact h.begun _ (hlinked.participants p hp)
    · exact h.enrolled p hp
  roundSubmissions rs hrs := by
    rw [h.roundSubmissions] at hrs
    obtain ⟨p, hp, hid⟩ := hlinked.roundSubmissions rs hrs
    refine ⟨p, ?_, hid⟩
    rw [h.participants]
    exact List.mem_append_left _ hp
  submissions s hs := by
    rw [h.submissions] at hs
    rw [h.roundSubmissions]
    exact hlinked.submissions s hs

/-- The reports agree afterwards exactly when they do about the participants that were added. -/
theorem Continues.tallied_iff (h : Continues new w w') (hlinked : Linked w) (htallied : Tallied w) :
    Tallied w' ↔ ∀ p ∈ new, w'.IsMostRecent p.roundID →
      (w'.redis.leaderboard p.roundID).contains p.participantAuthID = true ∧
        p.solvedProblemCount = w.db.solvedCount p.roundID p.participantAuthID := by
  have hcount : ∀ roundID userID,
      w'.db.solvedCount roundID userID = w.db.solvedCount roundID userID := by
    intro roundID userID
    unfold DB.solvedCount
    rw [h.solvedProblems hlinked]
  unfold Tallied World.Tallies
  simp only [hcount, h.participants]
  constructor
  · exact fun hall p hp => hall p (List.mem_append_right _ hp)
  · intro hnew p hp hrecent
    rcases List.mem_append.mp hp with hp | hp
    · rcases h.mostRecent _ hrecent with hrecent | hnot
      · obtain ⟨hlisted, hright⟩ := htallied p hp hrecent
        exact ⟨h.listed _ _ hlisted, hright⟩
      · exact absurd (hlinked.participants p hp) hnot
    · exact hnew p hp hrecent

/-- When no participant is added, nothing is to be heeded. -/
theorem Continues.tallied (h : Continues [] w w') (hlinked : Linked w) (htallied : Tallied w) :
    Tallied w' :=
  (h.tallied_iff hlinked htallied).mpr fun p hp => by cases hp

/-- In a round that was not started nobody solved anything. -/
theorem solvedCount_eq_zero (hlinked : Linked w) {roundID : ℕ} (h : ¬ w.Begun roundID)
    (userID : AuthID) : w.db.solvedCount roundID userID = 0 := by
  have hnone : w.db.solvedProblems roundID userID = [] := by
    refine List.eq_nil_iff_forall_not_mem.mpr fun problemID hmem => h ?_
    obtain ⟨s, -, ⟨-, hcredit⟩, -⟩ := DB.mem_solvedProblems.mp hmem
    obtain ⟨-, rs, hfind, rfl, -⟩ := DB.creditOf_eq_some.mp hcredit
    obtain ⟨p, hp, -, hround⟩ :=
      hlinked.roundSubmissions rs (Table.find?_eq_some.mp hfind).1
    rw [← hround]
    exact hlinked.participants p hp
  unfold DB.solvedCount
  rw [hnone]
  rfl

end Continues

/-! ## Rounds -/

section Rounds

variable {env : Env} {roomID : RoomID} {room : Room} {w : World}

/-- Deleting the members of a room leaves the records. -/
theorem keepsRecords_deleteJoinMembers (env : Env) (roomID : RoomID) :
    Call.Keeps (fun w : World => (w.records, w.db.rounds)) (deleteJoinMembers env roomID) := by
  refine Call.Keeps.bind (Call.Keeps.read _) fun members => Call.Keeps.bind
    (Call.Keeps.io _ _ (Call.Keeps.write fun _ => rfl)) fun _ => Call.Keeps.forEach fun member _ => ?_
  exact keeps_logged (Call.Keeps.io _ _ (Call.Keeps.write fun _ => rfl))

/-- The deletion of a room none of whose rounds was started. -/
theorem continues_deleteRoom
    (h : ∀ r ∈ w.db.rounds.rows, r.roomID = room.id → r.status = .created) :
    Continues [] w ((deleteRoom env room []).run w).2 := by
  have hkeeps := keepsRecords_deleteJoinMembers env room.id w
  have hfirst := Continues.of_keeps (keepsRecords_deleteJoinMembers env room.id) w
  refine Call.after_bind hfirst fun _ w₁ hrun => ?_
  rw [hrun] at hfirst hkeeps
  have hrounds : w₁.db.rounds = w.db.rounds := congrArg Prod.snd hkeeps
  rw [List.zipIdx_nil, Call.forEach_nil, Call.run_pure_bind]
  cases env.fails .deleteRoom with
  | true => exact hfirst
  | false =>
    rw [Call.io_false, Call.run_read_bind]
    split
    · exact hfirst
    · -- only rounds that were not started go with the room
      refine hfirst.andThen (.of_records rfl fun roundID hbegun => ?_)
      obtain ⟨r, hr, hid, hnot⟩ := hbegun
      refine ⟨r, List.mem_filter.mpr ⟨hr, ?_⟩, hid, hnot⟩
      rw [hrounds] at hr
      rw [Bool.not_eq_true', decide_eq_false_iff_not]
      exact fun hroom => hnot (h r hr hroom)

/-- A key that is handed out belongs to no round that was started. -/
theorem not_begun_fresh (hint : ℕ) : ¬ w.Begun (w.db.rounds.fresh hint) := by
  rintro ⟨r, hr, hid, -⟩
  refine w.db.rounds.fresh_not_mem hint ?_
  rw [← hid]
  exact List.mem_map_of_mem (f := Row.id) hr

/-- The round that is created becomes the most recent one, if it comes so far. -/
theorem continues_roundServiceCreateRound (env : Env) (params : RoundCreationParameters)
    (roomID : RoomID) (w : World) :
    Continues [] w ((roundServiceCreateRound env params roomID).run w).2 ∧
      ∀ r ∈ ((roundServiceCreateRound env params roomID).run w).2.db.rounds.rows,
        r ∈ w.db.rounds.rows ∨ r.status = .created := by
  let added := newRound env.now params.duration roomID (w.db.rounds.fresh env.roundHint)
  let w₁ : World := { w with db := w.db.addRound env params.duration roomID }
  have hbegun : ∀ roundID, w.Begun roundID → w₁.Begun roundID := by
    -- The key names the new round now, which has not begun, or what it named before.
    rintro roundID ⟨r, hr, h⟩
    exact ⟨r, List.mem_append_left _ hr, h⟩
  have hrows : ∀ r ∈ w₁.db.rounds.rows, r ∈ w.db.rounds.rows ∨ r.status = .created := by
    intro r hr
    rcases List.mem_append.mp hr with hr | hr
    · exact Or.inl hr
    · rw [List.mem_singleton.mp hr]
      exact Or.inr rfl
  unfold roundServiceCreateRound
  cases hfails : env.fails .insertRound with
  | true =>
    rw [Call.bind_err (insertRound_fails hfails params.duration roomID w)]
    exact ⟨.refl w, fun r hr => Or.inl hr⟩
  | false =>
  have hinsert : (insertRound env params.duration roomID).run w = (.ok added, w₁) :=
    insertRound_run hfails params.duration roomID w
  rw [Call.bind_ok hinsert]
  have hselect : Looks (selectProblems env params) w₁ (Selectable env params w₁.db) :=
    looks_selectProblems params
  rcases hselect with ⟨-, ⟨problemSet, fallbackUsed⟩, hrun⟩ | ⟨-, e, hrun⟩
  · rw [Call.bind_ok hrun]
    cases env.fails .appendProblems with
    | true => exact ⟨.of_records rfl hbegun, hrows⟩
    | false =>
      cases env.fails .setMostRecentRound with
      | true => exact ⟨.of_records rfl hbegun, hrows⟩
      | false =>
        refine ⟨⟨(List.append_nil _).symm, rfl, rfl, fun _ _ h => h, hbegun, ?_, by simp⟩, hrows⟩
        rintro roundID ⟨r, hkey⟩
        have hentry : Function.update w.redis.mostRecentRound roomID (some added.id) r =
            some roundID := hkey
        by_cases hr : r = roomID
        · rw [hr, Function.update_self] at hentry
          rw [← Option.some.inj hentry]
          exact Or.inr (not_begun_fresh env.roundHint)
        · rw [Function.update_of_ne hr] at hentry
          exact Or.inl ⟨r, hentry⟩
  · rw [Call.bind_err hrun]
    exact ⟨.of_records rfl hbegun, hrows⟩

/-- A room is cleaned up only when it had no round before. -/
theorem continues_cleanUpRoom {rounds : List Round}
    (h : rounds = [] → ∀ r ∈ w.db.rounds.rows, r.roomID = room.id → r.status = .created) :
    Continues [] w ((cleanUpRoom env roomID room rounds).run w).2 := by
  unfold cleanUpRoom
  by_cases hrounds : rounds = []
  · rw [if_pos hrounds, hrounds]
    have hcancel : (cancelRoomExpiry roomID).run w = (.ok (), w.keptOpen roomID) := rfl
    rw [Call.bind_ok hcancel, logged_state]
    have hkept : Continues [] w (w.keptOpen roomID) := .of_records rfl fun _ h => h
    exact hkept.trans (continues_deleteRoom (h hrounds))
  · rw [if_neg hrounds]
    exact .refl w

/-- The creation of a round, however it ends. -/
theorem continues_createRound (env : Env) (maxNumRoundsPerRoom : ℤ)
    (params : RoundCreationParameters) (roomID : RoomID) (w : World) :
    Continues [] w ((createRound env maxNumRoundsPerRoom params roomID).run w).2 := by
  unfold createRound
  by_cases hfind : ∃ room, Findable env roomID w.db room
  swap
  · obtain ⟨e, hrun⟩ := findRoomByID_fails fun room h => hfind ⟨room, h⟩
    rw [Call.bind_err hrun]
    exact .refl w
  obtain ⟨room, hroom⟩ := hfind
  rw [Call.bind_ok (findRoomByID_run hroom)]
  have hlimit : Call.Keeps id (checkRoundLimitExceeded env maxNumRoundsPerRoom room) :=
    Call.Keeps.io _ _ (Call.Keeps.read _)
  have hsame : ((checkRoundLimitExceeded env maxNumRoundsPerRoom room).run w).2 = w := hlimit w
  refine Call.after_bind (by rw [hsame]; exact .refl w) fun exceeded t hrun => ?_
  obtain rfl : t = w := by rwa [hrun] at hsame
  split
  · exact .refl t
  obtain ⟨hcreate, hrows⟩ := continues_roundServiceCreateRound env params room.id t
  refine Call.after_bind (by rw [Call.state_attempt]; exact hcreate) fun result t' hattempt => ?_
  have ht' : t' = ((roundServiceCreateRound env params room.id).run t).2 := by
    rw [← Call.state_attempt, hattempt]
  rw [← ht'] at hcreate hrows
  cases result with
  | ok made =>
    refine Call.after_bind ?_ fun _ t'' hrun' => ?_
    · cases env.fails .appendRound <;> exact hcreate
    · obtain ⟨-, hpure⟩ := Call.io_eq_ok hrun'
      cases hpure
      exact hcreate
  | error e =>
    -- the rounds of the room were loaded before the new one was inserted
    have hclean : Continues [] t'
        ((cleanUpRoom env roomID room (t.db.roundsOf env.rounds room.id)).run t').2 := by
      refine continues_cleanUpRoom fun hempty r hr hof => ?_
      rcases hrows r hr with hold | hnew
      · have hloaded : r ∈ t.db.roundsOf env.rounds room.id :=
          env.rounds.mem_order.mpr (List.mem_filter.mpr ⟨hold, decide_eq_true hof⟩)
        rw [hempty] at hloaded
        cases hloaded
      · exact hnew
    exact Call.after_bind (hcreate.trans hclean) fun _ t'' hrun' => by
      have hend := hcreate.trans hclean
      rwa [hrun'] at hend

/-- What the events of a round's timer, its end and its duration rewrite. -/
theorem continues_modify {f : Round → Round} (hf : ∀ r, Row.id (f r) = Row.id r) {roundID : ℕ}
    (hstatus : ∀ r, (f r).status = .created → r.status = .created) {w' : World}
    (hrecords : w'.records = w.records) (h : w'.db.rounds = w.db.rounds.modify roundID f hf) :
    Continues [] w w' :=
  .of_records hrecords (begun_modify hf hstatus h)

/-- Ending a round leaves the records of all rounds. -/
theorem continues_endRoundByRoomID (env : Env) (roomID : RoomID) (userID : AuthID) (w : World) :
    Continues [] w ((endRoundByRoomID env roomID userID).run w).2 := by
  rcases endRoundByRoomID_cases env roomID userID w with ⟨o, hrun, -⟩ | ⟨round, -, -, hrun⟩
  · rw [hrun]
    exact .refl w
  · rw [hrun]
    exact continues_modify Round.id_finish (fun r hr => by cases hr) rfl rfl

/-- So does the task that ends it. -/
theorem continues_runEndTask (env : Env) (task : EndTask) (w : World) :
    Continues [] w (w.serve (env, .runEndTask task)) := by
  rcases serve_runEndTask_cases env task w with hserve | ⟨-, ⟨-, hserve⟩ | ⟨-, hserve⟩⟩
  · rw [hserve]
    exact .refl w
  · rw [hserve]
    exact .of_records rfl fun _ h => h
  · rw [hserve]
    exact continues_modify Round.id_finish (fun r hr => by cases hr) rfl rfl

/-- So does another duration. -/
theorem continues_setRoundDuration (env : Env) (roomID : RoomID) (userID : AuthID) (duration : ℤ)
    (w : World) : Continues [] w ((setRoundDurationByRoomID env roomID userID duration).run w).2 := by
  rcases setRoundDurationByRoomID_cases env roomID userID duration w with
    hrun | ⟨round, -, -, -, hrun⟩
  · rw [hrun]
    exact .refl w
  · rw [hrun]
    exact continues_modify (Round.id_setDuration duration) (fun r hr => hr) rfl rfl

end Rounds

/-! ## The start of a round -/

/-- Nobody is taken off a leaderboard. -/
def KeepsListed (w w' : World) : Prop :=
  ∀ roundID userID, (w.redis.leaderboard roundID).contains userID = true →
    (w'.redis.leaderboard roundID).contains userID = true

/-- No step. -/
theorem KeepsListed.refl (w : World) : KeepsListed w w := fun _ _ h => h

/-- What two steps keep, both together keep. -/
theorem KeepsListed.trans (w₁ w₂ w₃ : World) (h : KeepsListed w₁ w₂) (h' : KeepsListed w₂ w₃) :
    KeepsListed w₁ w₃ := fun roundID userID hlisted => h' roundID userID (h roundID userID hlisted)

/-- An entry that is written takes nobody off. -/
theorem contains_update_add (leaderboard : ℕ → SortedSet AuthID ℕ) (k : ℕ) (user : AuthID)
    (score : ℕ) {roundID : ℕ} {userID : AuthID} (h : (leaderboard roundID).contains userID = true) :
    (Function.update leaderboard k ((leaderboard k).add user score) roundID).contains userID =
      true := by
  by_cases hk : roundID = k
  · rw [hk, Function.update_self, SortedSet.contains_add, ← hk, h, Bool.or_true]
  · rwa [Function.update_of_ne hk]

/-- A start takes nobody off a leaderboard, wherever it stops. -/
theorem keepsListed_initiateRoundStart (env : Env) (round : Round) (users : List AuthID) :
    Call.Within KeepsListed (initiateRoundStart env round users) := by
  have hkeeps : ∀ {α : Type} {x : Service α}, Call.Keeps (fun w => w.redis.leaderboard) x →
      Call.Within KeepsListed x := by
    intro α x hx w roundID userID h
    have hsame : (x.run w).2.redis.leaderboard = w.redis.leaderboard := hx w
    rwa [hsame]
  have henrol : Call.Within KeepsListed (enrolAll env round.id users) := by
    refine Call.Within.bind KeepsListed.trans (hkeeps (Call.Keeps.io _ _ (Call.Keeps.pure _)))
      fun _ => Call.Within.bind KeepsListed.trans
        (Call.Within.forEach KeepsListed.refl KeepsListed.trans fun user _ => ?_)
          fun _ => hkeeps (Call.Keeps.io _ _ (Call.Keeps.pure _))
    refine Call.Within.bind KeepsListed.trans
      (hkeeps (Call.Keeps.io _ _ (Call.Keeps.write fun _ => rfl))) fun _ => ?_
    exact Call.Within.io KeepsListed.refl _ _ (Call.Within.write fun w roundID userID h =>
      contains_update_add w.redis.leaderboard _ _ _ h)
  -- A rollback gives back the database only; the leaderboards are in Redis.
  have hrollback : ∀ w w', KeepsListed w w' → KeepsListed w (rollback w w') := fun _ _ h => h
  refine Call.Within.bind KeepsListed.trans (hkeeps ?_) fun problemSet =>
    Call.Within.bind KeepsListed.trans (Call.Within.transaction hrollback henrol) fun _ =>
      Call.Within.bind KeepsListed.trans (hkeeps ?_) fun _ => Call.Within.pure KeepsListed.refl _
  · refine Call.Keeps.ite _ (Call.Keeps.fail _) (Call.Keeps.bind (Call.Keeps.io _ _
      (Call.Keeps.read _)) fun problemSet => Call.Keeps.ite _ (Call.Keeps.fail _) ?_)
    exact Call.Keeps.bind (Call.Keeps.io _ _ (Call.Keeps.write fun _ => rfl)) fun _ =>
      Call.Keeps.bind (keeps_logged (keeps_sendMessage (fun _ _ => rfl) _ _)) fun _ =>
        Call.Keeps.pure _
  · exact Call.Keeps.io _ _ (Call.Keeps.ite _ (Call.Keeps.write fun _ => rfl) (Call.Keeps.fail _))

/-- The rows of a start belong to its round and its users, who have solved nothing. -/
theorem enrolled_rows (env : Env) (roundID : ℕ) (users : List AuthID) (w : World) :
    ∃ new, (w.enrolled env roundID users).db.participants.rows = w.db.participants.rows ++ new ∧
      ∀ p ∈ new, p.roundID = roundID ∧ p.participantAuthID ∈ users ∧ p.solvedProblemCount = 0 := by
  have hfold : ∀ (l : List (AuthID × ℕ)) (w : World), ∃ new,
      (l.foldl (World.enrol env roundID) w).db.participants.rows = w.db.participants.rows ++ new ∧
        ∀ p ∈ new, p.roundID = roundID ∧ p.participantAuthID ∈ l.map Prod.fst ∧
          p.solvedProblemCount = 0 := by
    intro l
    induction l with
    | nil => exact fun w => ⟨[], (List.append_nil _).symm, by simp⟩
    | cons user l ih =>
      intro w
      obtain ⟨new, hrows, hnew⟩ := ih (w.enrol env roundID user)
      refine ⟨newParticipant user.1 roundID (w.db.participants.fresh
        (env.participantHint user.2)) :: new, ?_, ?_⟩
      · rw [List.foldl_cons, hrows]
        exact List.append_assoc _ _ _
      · intro p hp
        rcases List.mem_cons.mp hp with rfl | hp
        · exact ⟨rfl, List.mem_cons_self, rfl⟩
        · obtain ⟨hround, huser, hcount⟩ := hnew p hp
          exact ⟨hround, List.mem_cons_of_mem _ huser, hcount⟩
  have h := hfold users.zipIdx w
  rwa [List.zipIdx_map_fst] at h

section Start

variable {round : Round} {w w' : World} {new : List RoundParticipant}

/-- Once a round is started, only the participants and the leaderboards change. -/
theorem continues_started (env : Env) (hround : round ∈ w.db.rounds.rows)
    (hdb : w'.db = { (w.started env round).db with participants := w'.db.participants })
    (hredis : w'.redis = { w.redis with leaderboard := w'.redis.leaderboard })
    (hrows : w'.db.participants.rows = w.db.participants.rows ++ new)
    (hnew : ∀ p ∈ new, p.roundID = round.id) (hlisted : KeepsListed w w') :
    Continues new w w' := by
  have hrounds : w'.db.rounds = w.db.rounds.modify round.id (Round.start env.now)
      (Round.id_start env.now) := by
    rw [hdb]
    rfl
  refine ⟨hrows, by rw [hdb]; rfl, by rw [hdb]; rfl, hlisted,
    begun_modify (Round.id_start env.now) (fun r hr => by cases hr) hrounds, ?_, ?_⟩
  · rintro roundID ⟨r, hkey⟩
    rw [hredis] at hkey
    exact Or.inl ⟨r, hkey⟩
  · intro p hp
    refine ⟨round.start env.now, ?_, (hnew p hp).symm, by simp [Round.start]⟩
    rw [hrounds, Table.rows_modify]
    exact List.mem_map.mpr ⟨round, hround, if_pos rfl⟩

/-- Every participant that a start adds has his entry. -/
theorem continues_initiateRoundStart (env : Env) (users : List AuthID)
    (hround : round ∈ w.db.rounds.rows) :
    ∃ new, Continues new w ((initiateRoundStart env round users).run w).2 ∧
      ∀ p ∈ new, p.roundID = round.id ∧
        (((initiateRoundStart env round users).run w).2.redis.leaderboard p.roundID).contains
          p.participantAuthID = true ∧ p.solvedProblemCount = 0 := by
  have hlisted := keepsListed_initiateRoundStart env round users w
  have henrols := enrols_enrolled env round.id users (w.started env round)
  obtain ⟨new, hrows, hnew⟩ := enrolled_rows env round.id users (w.started env round)
  -- The new rows are of the round, and their users have an entry with no points.
  have hentries : ∀ p ∈ new, p.roundID = round.id ∧
      (((w.started env round).enrolled env round.id users).redis.leaderboard p.roundID).contains
        p.participantAuthID = true ∧ p.solvedProblemCount = 0 := by
    intro p hp
    obtain ⟨hid, huser, hcount⟩ := hnew p hp
    refine ⟨hid, ?_, hcount⟩
    rw [hid, henrols.entries, decide_eq_true huser, Bool.true_or]
  have henrolled : KeepsListed w ((w.started env round).enrolled env round.id users) →
      Continues new w ((w.started env round).enrolled env round.id users) := fun hlisted =>
    continues_started env hround henrols.db henrols.enrolling.redis hrows
      (fun p hp => (hnew p hp).1) hlisted
  rcases initiateRoundStart_cases env round users w with ⟨-, e, hrun⟩ | ⟨-, ⟨-, e, w', hrun, hdb,
    henrolling⟩ | ⟨-, ⟨-, e, hrun⟩ | ⟨-, r, hrun⟩⟩⟩
  · -- The status could not be written: nothing has happened.
    rw [hrun]
    exact ⟨[], .refl w, by simp⟩
  · -- The enrolment was rolled back, so no row is new, though some entries are.
    rw [hrun] at hlisted ⊢
    refine ⟨[], continues_started env hround ?_ henrolling.redis ?_ (by simp) hlisted, by simp⟩
    · rw [hdb]
    · rw [hdb, List.append_nil]
      rfl
  · rw [hrun] at hlisted ⊢
    exact ⟨new, henrolled hlisted, hentries⟩
  · rw [hrun] at hlisted ⊢
    exact ⟨new, (henrolled hlisted).andThen (.of_records rfl fun _ h => h), hentries⟩

/-- A round that can be started was not started before. -/
theorem not_begun_of_created (hround : round ∈ w.db.rounds.rows) (hcreated : round.status = .created) :
    ¬ w.Begun round.id := by
  rintro ⟨r, hr, hid, hnot⟩
  rw [Table.eq_of_id_eq hr hround hid] at hnot
  exact hnot hcreated

/-- A start by the admin, however it ends. -/
theorem continues_startRoundByRoomID (env : Env) (roomID : RoomID) (userID : AuthID) (w : World) :
    ∃ new, Continues new w ((startRoundByRoomID env roomID userID).run w).2 ∧
      ∀ p ∈ new, ¬ w.Begun p.roundID ∧
        (((startRoundByRoomID env roomID userID).run w).2.redis.leaderboard p.roundID).contains
          p.participantAuthID = true ∧ p.solvedProblemCount = 0 := by
  let Q (t : World) : Prop := ∃ new, Continues new w t ∧ ∀ p ∈ new, ¬ w.Begun p.roundID ∧
    (t.redis.leaderboard p.roundID).contains p.participantAuthID = true ∧ p.solvedProblemCount = 0
  show Q ((startRoundByRoomID env roomID userID).run w).2
  have hstay : Q w := ⟨[], .refl w, by simp⟩
  unfold startRoundByRoomID
  cases hchosen : w.db.chosenRound env roomID userID .created with
  | none =>
    obtain ⟨e, hrun⟩ := findRoundToStart_fails hchosen
    rw [Call.bind_err hrun]
    exact hstay
  | some round =>
    obtain ⟨⟨hround, -⟩, hcreated⟩ := mem_of_chosenRound hchosen
    rw [Call.bind_ok (findRoundToStart_run hchosen)]
    have hsame : ((findActiveUsers env roomID).run w).2 = w :=
      (Call.Keeps.io (f := id) _ _ (Call.Keeps.read _) : Call.Keeps id (findActiveUsers env roomID)) w
    refine Call.after_bind (by rw [hsame]; exact hstay) fun users t hrun => ?_
    obtain rfl : t = w := by rwa [hrun] at hsame
    obtain ⟨new, hcontinues, hnew⟩ := continues_initiateRoundStart env users hround
    have hstarted : ∀ p ∈ new, ¬ t.Begun p.roundID := by
      intro p hp
      rw [(hnew p hp).1]
      exact not_begun_of_created hround hcreated
    refine Call.after_bind ⟨new, hcontinues, fun p hp => ⟨hstarted p hp, (hnew p hp).2⟩⟩
      fun started t' hinit => ?_
    rw [hinit] at hcontinues hnew
    -- The announcements to rtc-service change no row.
    obtain ⟨joins, -, hannounce⟩ := announceParticipants_run env roomID users.zipIdx t'
    rw [Call.bind_ok hannounce]
    exact ⟨new, hcontinues.andThen (.tell t' joins), fun p hp => ⟨hstarted p hp, (hnew p hp).2⟩⟩

end Start

/-! ## Members -/

section Members

variable {env : Env} {roomID : RoomID} {userID : AuthID} {w : World}

/-- Handing a room over changes no record and no round. -/
theorem keepsRecords_replaceAdmin (env : Env) (roomID : RoomID) (room : Room) (userID : AuthID) :
    Call.Keeps (fun w : World => (w.records, w.db.rounds)) (replaceAdmin env roomID room userID) := by
  refine Call.Keeps.ite _ (Call.Keeps.bind ?_ fun admin => Call.Keeps.bind
    (Call.Keeps.io _ _ (Call.Keeps.write fun _ => rfl)) fun _ => Call.Keeps.bind (Call.Keeps.read _)
      fun _ => keeps_logged (keeps_sendMessage (fun _ _ => rfl) _ _)) (Call.Keeps.pure _)
  refine Call.Keeps.bind (Call.Keeps.io _ _ (Call.Keeps.read _)) fun members => ?_
  cases members with
  | nil => exact Call.Keeps.fail _
  | cons user others => exact Call.Keeps.pure _

/-- A user leaves a room in which somebody stays. -/
theorem continues_leaveRoom (env : Env) (hstay : w.members roomID ≠ [userID]) :
    Continues [] w ((leaveRoom env roomID userID).run w).2 := by
  have hleft : ∀ rs, Continues [] w ((w.left env roomID userID).tell rs) := fun rs =>
    .of_records rfl fun _ h => h
  rcases leaveRoom_cases env roomID userID w with ⟨e, hrun, -⟩ | ⟨room, hfind, -, ⟨-, e, hrun⟩ |
    ⟨hmember, rs, ⟨-, hrun⟩ | ⟨-, hrun⟩⟩⟩
  · rw [hrun]
    exact .refl w
  · rw [hrun]
    exact .of_records rfl fun _ h => h
  · rw [hrun]
    exact hleft rs
  rw [hrun]
  rcases settleRoom_cases env room (w.db.roundsOf env.rounds room.id) roomID userID
    ((w.left env roomID userID).tell rs) with ⟨-, hsettle⟩ | ⟨-, ⟨hempty, hsettle⟩ | ⟨-, hsettle⟩⟩
  · rw [hsettle]
    exact hleft rs
  · -- the room is deleted when its last member left
    exact absurd ((members_left_eq_nil hmember).mp hempty) hstay
  · rw [hsettle]
    exact (hleft rs).trans (Continues.of_keeps (keepsRecords_replaceAdmin env roomID room userID) _)

/-- The request lets the user into the room, and into this round of it. -/
structure JoinsRound (env : Env) (roomID : RoomID) (userID : AuthID) (w : World) (round : Round) :
    Prop where
  found : ∃ room, Findable env roomID w.db room
  added : env.fails .zaddJoin = false
  isNew : ¬ w.isMember roomID userID
  enters : Enters env (w.db.roundsNamed env roomID) round

/-- Who joins gets a row for the running round, and no entry on its leaderboard. -/
theorem continues_joinRoom (env : Env) (roomID : RoomID) (userID : AuthID) (w : World) :
    (Continues [] w ((joinRoom env roomID userID).run w).2 ∧
      ∀ round, ¬ JoinsRound env roomID userID w round) ∨
    ∃ round, JoinsRound env roomID userID w round ∧
      Continues [newParticipant userID round.id
        (w.db.participants.fresh (env.participantHint 0))] w
          ((joinRoom env roomID userID).run w).2 ∧
      ((joinRoom env roomID userID).run w).2.redis.leaderboard = w.redis.leaderboard ∧
      ((joinRoom env roomID userID).run w).2.redis.mostRecentRound = w.redis.mostRecentRound := by
  rcases joinRoom_cases env roomID userID w with ⟨e, hrun, hnot⟩ | ⟨room, hroom, hzadd,
    ⟨hmember, hrun⟩ | ⟨hmember, o, rs, hrun, -⟩⟩
  · rw [hrun]
    refine Or.inl ⟨.refl w, fun round hjoins => ?_⟩
    obtain ⟨room, hroom⟩ := hjoins.found
    rw [hjoins.added] at hnot
    cases hnot room hroom
  · rw [hrun]
    exact Or.inl ⟨.of_records rfl fun _ h => h, fun round hjoins => hjoins.isNew hmember⟩
  rw [hrun]
  -- Whoever is put into the running round gets a row in it, and nothing else is new.
  by_cases henters : ∃ round, Enters env (w.db.roundsOf env.rounds room.id) round
  swap
  · rw [entered_eq_self fun round hround => henters ⟨round, hround⟩]
    refine Or.inl ⟨.of_records rfl fun _ h => h, fun round hjoins => henters ⟨round, ?_⟩⟩
    rw [← hroom.roundsNamed]
    exact hjoins.enters
  obtain ⟨round, hround⟩ := henters
  have hnew : ¬ w.isMember roomID userID := by
    unfold World.isMember
    rw [hmember]
    exact Bool.false_ne_true
  obtain ⟨hmem, hstarted⟩ := runningRound_started hround.running
  have hentered : (w.joined env roomID userID).entered env (w.db.roundsOf env.rounds room.id) userID =
      { w.joined env roomID userID with
        db := w.db.addParticipant (env.participantHint 0) userID round.id } := by
    unfold World.entered
    rw [hround.running]
    exact if_pos ⟨hround.told, hround.created⟩
  rw [hentered]
  have hnamed : Enters env (w.db.roundsNamed env roomID) round := by
    rw [hroom.roundsNamed]
    exact hround
  refine Or.inr ⟨round, ⟨⟨room, hroom⟩, hzadd, hnew, hnamed⟩, ?_, rfl, rfl⟩
  refine ⟨rfl, rfl, rfl, fun _ _ h => h, fun _ h => h, fun _ h => Or.inl h, fun p hp => ?_⟩
  rw [List.mem_singleton.mp hp]
  refine ⟨round, (mem_roundsIn.mp (env.rounds.mem_order.mp hmem)).1, rfl, ?_⟩
  rw [hstarted]
  decide

end Members

end Bsg.Central
