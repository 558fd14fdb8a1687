import Bsg.Central.Enrolment
import Bsg.Foundations.Interleave

/-!
# Users who join while a round starts

Everyone who is in a room when a round starts there should take part in the round (`NoneMissed`). A
start enrols the members that it read before it marks the round, and a join enrols its user in the
running round of the rounds that it loaded before it adds him. A user who is added after the one and
loaded the rounds before the other is enrolled by neither. `noneMissed_of_along` says that in every
interleaving of one start with any number of joins this is all that goes wrong.

The pieces of the requests are those of `startRoundByRoomID` and `joinRoom`: a request that runs
alone does what they do (`startRound_inPieces`, `joinRoom_inPieces`).
-/

namespace Bsg.Central

open Bsg.Foundations

/-! ## The pieces -/

/-- The points at which a start by the admin (the first ones) or a join may be interrupted. -/
inductive RaceStage
  | starting
  | chosen (round : Round)
  | counted (round : Round) (users : List AuthID)
  | marked (round : Round) (users : List AuthID) (started : ℤ × List Problem)
  | enrolled (round : Round) (users : List AuthID) (started : ℤ × List Problem)
  | scheduled (round : Round) (users : List AuthID) (started : ℤ × List Problem)
  | joining
  | loaded (room : Room) (rounds : List Round)
  | added (room : Room) (rounds : List Round)
  | told (room : Room) (rounds : List Round) (displayName : GoText)

/-- What a start or a join returns. -/
abbrev RaceResult := (ℤ × List Problem) ⊕ Room

/-- The pieces of `StartRoundByRoomID`, with `InitiateRoundStart`, and of `JoinRoom`. -/
def racePiece (env : Env) (roomID : RoomID) (userID : AuthID) :
    RaceStage → Service (RaceStage ⊕ RaceResult)
  | .starting => do
    let round ← findRoundToStart env roomID userID
    pure (.inl (.chosen round))
  | .chosen round => do
    let activeUsers ← findActiveUsers env roomID
    pure (.inl (.counted round activeUsers))
  | .counted round activeUsers => do
    let problemSet ← markRoundStarted env round
    pure (.inl (.marked round activeUsers (env.now, problemSet)))
  | .marked round activeUsers started => do
    enrolParticipants env round.id activeUsers
    pure (.inl (.enrolled round activeUsers started))
  | .enrolled round activeUsers started => do
    scheduleRoundEnd env round
    pure (.inl (.scheduled round activeUsers started))
  | .scheduled _ activeUsers started => do
    Call.forEach activeUsers.zipIdx (announceParticipant env roomID)
    pure (.inr (.inl started))
  | .joining => do
    let (room, rounds) ← findRoomByID env roomID
    pure (.inl (.loaded room rounds))
  | .loaded room rounds => do
    addJoinMember env roomID userID
    pure (.inl (.added room rounds))
  | .added room rounds => do
    let displayName ← userDisplayName env userID
    announce env .joinRoom
      (.joinRoom userID roomID displayName false (some room.profanityFilter))
    pure (.inl (.told room rounds displayName))
  | .told room rounds displayName => do
    takePart env roomID rounds userID displayName
    pure (.inr (.inr room))

section Pieces

variable (env : Env) (roomID : RoomID) (userID : AuthID) (w : World)

/-- A start that is not interrupted does what `startRoundByRoomID` does. -/
theorem startRound_inPieces :
    (inOneGo (racePiece env roomID userID) 6 .starting).run w =
      (startRoundByRoomID env roomID userID >>= fun started => pure (.inr (.inl started))).run w := by
  unfold startRoundByRoomID initiateRoundStart
  rw [Call.run_bind_assoc]
  refine (inOneGo_then (fun _ => rfl) w).trans (Call.run_bind_congr _ (fun round w => ?_) w)
  rw [Call.run_bind_assoc]
  refine (inOneGo_then (fun _ => rfl) w).trans (Call.run_bind_congr _ (fun users w => ?_) w)
  simp only [Call.run_bind_assoc]
  refine (inOneGo_then (fun _ => rfl) w).trans (Call.run_bind_congr _ (fun problemSet w => ?_) w)
  simp only [Call.run_bind_assoc]
  refine (inOneGo_then (fun _ => rfl) w).trans (Call.run_bind_congr _ (fun _ w => ?_) w)
  simp only [Call.run_bind_assoc]
  refine (inOneGo_then (fun _ => rfl) w).trans (Call.run_bind_congr _ (fun _ w => ?_) w)
  simp only [Call.run_pure_bind, Call.run_bind_assoc]
  exact inOneGo_return (fun _ => rfl) w

/-- A join that is not interrupted does what `joinRoom` does. -/
theorem joinRoom_inPieces :
    (inOneGo (racePiece env roomID userID) 4 .joining).run w =
      (joinRoom env roomID userID >>= fun room => pure (.inr (.inr room))).run w := by
  unfold joinRoom
  rw [Call.run_bind_assoc]
  refine (inOneGo_then (fun _ => rfl) w).trans (Call.run_bind_congr _ (fun (room, rounds) w => ?_) w)
  rw [Call.run_bind_assoc]
  refine (inOneGo_then (fun _ => rfl) w).trans (Call.run_bind_congr _ (fun _ w => ?_) w)
  rw [enterRoom_eq, Call.run_bind_assoc]
  -- The name of the user is read before the room is told, and kept for later.
  let tell := do
    let displayName ← userDisplayName env userID
    announce env .joinRoom
      (.joinRoom userID roomID displayName false (some room.profanityFilter))
    pure displayName
  have htell : ∀ w, (racePiece env roomID userID (.added room rounds)).run w =
      (tell >>= fun displayName => pure (.inl (.told room rounds displayName))).run w := by
    intro w
    simp only [racePiece, tell, Call.run_bind_assoc]
    refine Call.run_bind_congr _ (fun displayName w => ?_) w
    simp only [Call.run_bind_assoc]
    rfl
  refine (inOneGo_then htell w).trans ?_
  simp only [tell, Call.run_bind_assoc]
  refine Call.run_bind_congr _ (fun displayName w => ?_) w
  simp only [Call.run_bind_assoc]
  refine Call.run_bind_congr _ (fun _ w => ?_) w
  simp only [Call.run_pure_bind]
  exact inOneGo_return (fun _ => rfl) w

end Pieces

/-! ## Interleavings -/

/-- A start and any number of joins that share the state. -/
abbrev Race := Concurrent World RaceStage GoError RaceResult

/-- One of the requests runs its next piece; each is made by its own user. -/
def Race.step (users : ℕ → AuthID) (roomID : RoomID) : Race → Env × ℕ → Race :=
  Concurrent.step fun env i => racePiece env roomID (users i)

/-- Request `0` is the start, the others are joins, and none has done anything yet. -/
def Race.begin (w : World) : Race :=
  ⟨w, fun i => if i = 0 then .running .starting else .running .joining⟩

/-- When the start and every join that was made have succeeded, the members of the room have a row
for the round that was started. -/
def NoneMissed (roomID : RoomID) (before : World) (c : Race) : Prop :=
  (∃ r, c.progress 0 = .returned (.ok r)) →
    (∀ i, i ≠ 0 → c.progress i = .running .joining ∨ ∃ r, c.progress i = .returned (.ok r)) →
      ∀ round ∈ c.shared.db.rounds.rows, round.status = .started → round.id ∈ before.unstarted →
        ∀ userID, c.shared.isMember roomID userID → (userID, round.id) ∈ c.shared.enrolments

/-- The start has not read the members yet. -/
def Unread (p : Progress RaceStage GoError RaceResult) : Prop :=
  p = .running .starting ∨ ∃ round, p = .running (.chosen round)

/-- Some request has failed. -/
def SomeFailed (c : Race) : Prop := ∃ i, (c.progress i).Failed

/-- When a join adds its user, the start has yet to read the members, or the join has loaded the
started round, as the last one. -/
def CatchesJoiner (users : ℕ → AuthID) (roomID : RoomID) (before : World) (c : Race)
    (e : Env × ℕ) : Prop :=
  ∀ room rounds, c.progress e.2 = .running (.loaded room rounds) → e.1.fails .zaddJoin = false →
    ¬ c.shared.isMember roomID (users e.2) →
      Unread (c.progress 0) ∨ SomeFailed c ∨
        ∃ round, runningRound rounds = some round ∧ round.id ∈ before.unstarted

/-- A round with this key is started. -/
def StartedIn (w : World) (roundID : ℕ) : Prop :=
  ∃ round ∈ w.db.rounds.rows, round.id = roundID ∧ round.status = .started

/-- The round was created before, and is started now; nothing else has changed in the rounds. -/
def Begun (before : World) (roundID : ℕ) (w : World) : Prop :=
  roundID ∈ before.unstarted ∧ ∃ now, w.db.rounds = (before.db.startRound now roundID).rounds

/-- The join is going to enrol its user in the round. -/
def AboutToEnrol (roundID : ℕ) (p : Progress RaceStage GoError RaceResult) : Prop :=
  ∃ room rounds round, (p = .running (.added room rounds) ∨
    ∃ name, p = .running (.told room rounds name)) ∧
      runningRound rounds = some round ∧ round.id = roundID

/-- The user is enrolled in the round, or a join of his is going to do it. -/
def Caught (users : ℕ → AuthID) (c : Race) (roundID : ℕ) (userID : AuthID) : Prop :=
  (userID, roundID) ∈ c.shared.enrolments ∨
    ∃ i, i ≠ 0 ∧ users i = userID ∧ AboutToEnrol roundID (c.progress i)

/-- What holds of the rounds and the members when the start has come so far and nothing has failed.
Everyone in the room is caught, by the start once it has read the members, or by his join. -/
def Standing (roomID : RoomID) (before w : World) (caught : ℕ → AuthID → Prop) :
    Progress RaceStage GoError RaceResult → Prop
  | .running .starting => w.db.rounds = before.db.rounds
  | .running (.chosen round) => w.db.rounds = before.db.rounds ∧ round.id ∈ before.unstarted
  | .running (.counted round activeUsers) =>
    (w.db.rounds = before.db.rounds ∧ round.id ∈ before.unstarted) ∧
      ∀ u, w.isMember roomID u → u ∈ activeUsers
  | .running (.marked round activeUsers _) =>
    Begun before round.id w ∧ ∀ u, w.isMember roomID u → u ∈ activeUsers ∨ caught round.id u
  | .running (.enrolled round _ _) | .running (.scheduled round _ _) =>
    Begun before round.id w ∧ ∀ u, w.isMember roomID u → caught round.id u
  | .returned (.ok _) => ∃ k, Begun before k w ∧ ∀ u, w.isMember roomID u → caught k u
  | _ => False

/-- The points of a join. -/
def RaceStage.isJoin : RaceStage → Bool
  | .joining | .loaded _ _ | .added _ _ | .told _ _ _ => true
  | _ => false

/-- The rounds that a join has loaded. -/
def RaceStage.rounds : RaceStage → List Round
  | .loaded _ rounds | .added _ rounds | .told _ rounds _ => rounds
  | _ => []

/-- Nothing has failed: the start stands where its progress says, and a join that found a running
round still finds it started. -/
structure Healthy (users : ℕ → AuthID) (roomID : RoomID) (before : World) (c : Race) : Prop where
  standing : Standing roomID before c.shared (Caught users c) (c.progress 0)
  joins : ∀ i, i ≠ 0 → ∀ k, c.progress i = .running k → k.isJoin = true ∧
    ∀ round, runningRound k.rounds = some round → StartedIn c.shared round.id

section Begun

variable {before w w' : World} {roundID k : ℕ}

/-- Whether rounds are started depends on the rows of the rounds. -/
theorem StartedIn.congr (h : StartedIn w k) (hrounds : w'.db.rounds = w.db.rounds) :
    StartedIn w' k := by
  unfold StartedIn
  rw [hrounds]
  exact h

/-- Starting a round leaves the started ones started. -/
theorem StartedIn.start (h : StartedIn w k) {now : ℤ}
    (hrounds : w'.db.rounds = (w.db.startRound now roundID).rounds) : StartedIn w' k := by
  obtain ⟨round, hround, hid, hstarted⟩ := h
  unfold StartedIn
  rw [hrounds]
  refine ⟨_, List.mem_map_of_mem hround, ?_⟩
  split
  · exact ⟨hid, rfl⟩
  · exact ⟨hid, hstarted⟩

/-- A round that was created before is not started while the rounds are the same. -/
theorem not_startedIn (hrounds : w.db.rounds = before.db.rounds) (hk : k ∈ before.unstarted) :
    ¬ StartedIn w k := by
  rintro ⟨round, hround, rfl, hstarted⟩
  rw [hrounds] at hround
  refine not_mem_unstarted hround ?_ hk
  rw [hstarted]
  decide

/-- Of the rounds that were created before, only the one that has begun is started. -/
theorem Begun.eq (h : Begun before roundID w) (hk : k ∈ before.unstarted) (hstarted : StartedIn w k) :
    k = roundID := by
  obtain ⟨-, now, hrounds⟩ := h
  obtain ⟨round, hround, rfl, hstatus⟩ := hstarted
  rw [hrounds] at hround
  obtain ⟨round₀, hround₀, rfl⟩ := List.mem_map.mp hround
  by_cases hid : Row.id round₀ = roundID
  · rw [if_pos hid]
    exact hid
  · rw [if_neg hid] at hstatus hk
    refine absurd hk (not_mem_unstarted hround₀ ?_)
    rw [hstatus]
    decide

/-- So does whether the round has begun. -/
theorem Begun.congr (h : Begun before roundID w) (hrounds : w'.db.rounds = w.db.rounds) :
    Begun before roundID w' := by
  unfold Begun
  rw [hrounds]
  exact h

end Begun

/-- A request that runs a piece fails, or the piece ends well. -/
theorem Race.failed_or_ok (users : ℕ → AuthID) (roomID : RoomID) {c : Race} {e : Env × ℕ}
    {k : RaceStage} (h : c.progress e.2 = .running k) :
    SomeFailed (c.step users roomID e) ∨
      ∃ r w', (racePiece e.1 roomID (users e.2) k).run c.shared = (.ok r, w') ∧
        (c.step users roomID e).shared = w' ∧
          (c.step users roomID e).progress e.2 = .after (.ok r) :=
  (Concurrent.failed_or_ok h).imp_left fun hfailed => ⟨e.2, hfailed⟩

/-! ## The steps of a join -/

section Join

variable {users : ℕ → AuthID} {roomID : RoomID} {before w w' : World} {c : Race}
  {caught caught' : ℕ → AuthID → Prop} {p : Progress RaceStage GoError RaceResult}

/-- A join leaves the start where it stands, when the user that it may add is caught. -/
theorem Standing.join (h : Standing roomID before w caught p)
    (hrounds : w'.db.rounds = w.db.rounds) (hcaught : ∀ k u, caught k u → caught' k u)
    (hmembers : ∀ u, w'.isMember roomID u → w.isMember roomID u ∨ Unread p ∨
      ∃ k ∈ before.unstarted, StartedIn w k ∧ caught' k u) :
    Standing roomID before w' caught' p := by
  -- A user who came in is a member already, or is caught for the round of the start.
  have hthere : ∀ {roundID : ℕ}, Begun before roundID w → ¬ Unread p → ∀ u, w'.isMember roomID u →
      w.isMember roomID u ∨ caught' roundID u := by
    intro roundID hbegun hread u hu
    rcases hmembers u hu with hold | hunread | ⟨k, hk, hstarted, hu⟩
    · exact Or.inl hold
    · exact absurd hunread hread
    · exact Or.inr (hbegun.eq hk hstarted ▸ hu)
  -- After the members were read a join has no other way in.
  have hread : ∀ k : RaceStage, (∀ round, k ≠ .chosen round) → k ≠ .starting →
      ¬ Unread (.running k) := by
    rintro k hchosen hstarting (heq | ⟨round, heq⟩)
    · exact hstarting (Progress.running.inj heq)
    · exact hchosen round (Progress.running.inj heq)
  rcases p with k | (_ | _ | _)
  · cases k with
    | starting => exact hrounds.trans h
    | chosen round => exact ⟨hrounds.trans h.1, h.2⟩
    | counted round activeUsers =>
      refine ⟨⟨hrounds.trans h.1.1, h.1.2⟩, fun u hu => ?_⟩
      rcases hmembers u hu with hold | hunread | ⟨k, hk, hstarted, -⟩
      · exact h.2 u hold
      · exact absurd hunread (hread _ (fun _ heq => by cases heq) fun heq => by cases heq)
      · exact absurd hstarted (not_startedIn h.1.1 hk)
    | marked round activeUsers started =>
      refine ⟨h.1.congr hrounds, fun u hu => ?_⟩
      rcases hthere h.1 (hread _ (fun _ heq => by cases heq) fun heq => by cases heq) u hu with
        hold | hnew
      · exact (h.2 u hold).imp_right (hcaught _ _)
      · exact Or.inr hnew
    | enrolled round activeUsers started =>
      refine ⟨h.1.congr hrounds, fun u hu => ?_⟩
      rcases hthere h.1 (hread _ (fun _ heq => by cases heq) fun heq => by cases heq) u hu with
        hold | hnew
      · exact hcaught _ _ (h.2 u hold)
      · exact hnew
    | scheduled round activeUsers started =>
      refine ⟨h.1.congr hrounds, fun u hu => ?_⟩
      rcases hthere h.1 (hread _ (fun _ heq => by cases heq) fun heq => by cases heq) u hu with
        hold | hnew
      · exact hcaught _ _ (h.2 u hold)
      · exact hnew
    | joining => exact h.elim
    | loaded room rounds => exact h.elim
    | added room rounds => exact h.elim
    | told room rounds displayName => exact h.elim
  · obtain ⟨k, hbegun, hall⟩ := h
    refine ⟨k, hbegun.congr hrounds, fun u hu => ?_⟩
    have hreturned : ∀ r, ¬ Unread (.returned (.ok r)) := by
      rintro r (heq | ⟨round, heq⟩) <;> cases heq
    rcases hthere hbegun (hreturned _) u hu with hold | hnew
    · exact hcaught _ _ (hall u hold)
    · exact hnew
  · exact h.elim
  · exact h.elim

/-- Whoever was caught remains so when a join goes on that enrols its own user, if it was about
to. -/
theorem Caught.step {e : Env × ℕ} {c' : Race} (hothers : ∀ i, i ≠ e.2 → c'.progress i = c.progress i)
    (henrolments : c.shared.enrolments ⊆ c'.shared.enrolments)
    (hown : e.2 ≠ 0 → ∀ k, AboutToEnrol k (c.progress e.2) → Caught users c' k (users e.2)) (k : ℕ)
    (u : AuthID) (h : Caught users c k u) : Caught users c' k u := by
  rcases h with hmem | ⟨i, hi, rfl, henrolling⟩
  · exact Or.inl (henrolments hmem)
  · obtain rfl | hne := eq_or_ne i e.2
    · exact hown hi k henrolling
    · refine Or.inr ⟨i, hi, rfl, ?_⟩
      rw [hothers i hne]
      exact henrolling

section Pieces

variable {env : Env} {userID : AuthID} {room : Room} {rounds : List Round}
  {r : RaceStage ⊕ RaceResult}

/-- A join that goes on has found the room, and has changed nothing. -/
theorem joining_ok (h : (racePiece env roomID userID .joining).run w = (.ok r, w')) :
    (∃ room, r = .inl (.loaded room (w.db.roundsOf env.rounds room.id))) ∧ w' = w := by
  by_cases hfind : ∃ room, Findable env roomID w.db room
  · obtain ⟨room, hroom⟩ := hfind
    have hrun := Call.bind_ok (findRoomByID_run hroom) fun found : Room × List Round =>
      (pure (.inl (.loaded found.1 found.2)) : Service (RaceStage ⊕ RaceResult))
    rw [racePiece, hrun] at h
    cases h
    exact ⟨⟨room, rfl⟩, rfl⟩
  · obtain ⟨e, hrun⟩ := findRoomByID_fails fun room h => hfind ⟨room, h⟩
    rw [racePiece, Call.bind_err hrun] at h
    cases h

/-- A join that goes on has added the member, who was none before. -/
theorem loaded_ok (h : (racePiece env roomID userID (.loaded room rounds)).run w = (.ok r, w')) :
    r = .inl (.added room rounds) ∧ w' = w.joined env roomID userID ∧
      env.fails .zaddJoin = false ∧ ¬ w.isMember roomID userID := by
  obtain ⟨_, w₁, hadd, hrest⟩ := Call.bind_eq_ok h
  cases hzadd : env.fails .zaddJoin with
  | true =>
    unfold addJoinMember at hadd
    rw [hzadd] at hadd
    cases hadd
  | false =>
    rw [addJoinMember_run hzadd] at hadd
    unfold World.isMember
    cases hmember : (w.redis.joinTimestamp roomID).contains userID with
    | true =>
      rw [hmember, if_pos rfl] at hadd
      cases hadd
    | false =>
      rw [hmember, if_neg Bool.false_ne_true] at hadd
      cases hadd
      cases hrest
      exact ⟨rfl, rfl, rfl, Bool.false_ne_true⟩

/-- A join that goes on has told rtc-service of it. -/
theorem added_ok (h : (racePiece env roomID userID (.added room rounds)).run w = (.ok r, w')) :
    ∃ displayName told, r = .inl (.told room rounds displayName) ∧ w' = w.tell told := by
  obtain ⟨displayName, w₁, hname, hrest⟩ := Call.bind_eq_ok h
  obtain ⟨_, w₂, hannounce, hlast⟩ := Call.bind_eq_ok hrest
  obtain rfl : w = w₁ := congrArg Prod.snd hname
  rw [announce_run] at hannounce
  cases hlast
  exact ⟨displayName, _, rfl, (congrArg Prod.snd hannounce).symm⟩

/-- Who takes part is enrolled in the running round. -/
theorem told_ok {displayName : GoText}
    (h : (racePiece env roomID userID (.told room rounds displayName)).run w = (.ok r, w')) :
    r = .inr (.inr room) ∧ w'.db.rounds = w.db.rounds ∧
      w'.redis.joinTimestamp = w.redis.joinTimestamp ∧ w.enrolments ⊆ w'.enrolments ∧
        ∀ round, runningRound rounds = some round → (userID, round.id) ∈ w'.enrolments := by
  obtain ⟨_, w₁, htake, hrest⟩ := Call.bind_eq_ok h
  cases hrest
  refine ⟨rfl, ?_⟩
  unfold takePart at htake
  -- Only when a round runs is there a row to insert.
  cases hrunning : runningRound rounds with
  | none =>
    rw [hrunning] at htake
    cases htake
    exact ⟨rfl, rfl, List.Subset.refl _, fun round hround => by cases hround⟩
  | some round =>
    rw [hrunning] at htake
    obtain ⟨_, w₂, hcreate, hannounce⟩ := Call.bind_eq_ok htake
    obtain ⟨-, hwrite⟩ := Call.io_eq_ok hcreate
    cases hwrite
    rw [announce_run] at hannounce
    obtain rfl := congrArg Prod.snd hannounce
    refine ⟨rfl, rfl, ?_, fun round' hround' => ?_⟩
    · show w.enrolments ⊆ (w.db.participants.rows ++ [_]).map _
      rw [List.map_append]
      exact List.subset_append_left _ _
    · obtain rfl := Option.some.inj hround'
      show _ ∈ (w.db.participants.rows ++ [_]).map _
      rw [List.map_append]
      exact List.mem_append_right _ (List.mem_singleton_self _)

end Pieces

/-- A join goes on, and whoever is in the room then is caught if need be. -/
theorem Healthy.of_join (h : Healthy users roomID before c) {c' : Race} {e : Env × ℕ}
    (hturn : e.2 ≠ 0) (hothers : ∀ i, i ≠ e.2 → c'.progress i = c.progress i)
    (hrounds : c'.shared.db.rounds = c.shared.db.rounds)
    (henrolments : c.shared.enrolments ⊆ c'.shared.enrolments)
    (hown : ∀ k, AboutToEnrol k (c.progress e.2) → Caught users c' k (users e.2))
    (hmembers : ∀ u, c'.shared.isMember roomID u → c.shared.isMember roomID u ∨
      Unread (c.progress 0) ∨ ∃ k ∈ before.unstarted, StartedIn c.shared k ∧ Caught users c' k u)
    (hnext : ∀ k, c'.progress e.2 = .running k → k.isJoin = true ∧
      ∀ round, runningRound k.rounds = some round → StartedIn c.shared round.id) :
    Healthy users roomID before c' := by
  constructor
  · rw [hothers 0 hturn.symm]
    exact h.standing.join hrounds (Caught.step hothers henrolments fun _ => hown) hmembers
  · intro i hi k hk
    obtain rfl | hne := eq_or_ne i e.2
    · obtain ⟨hjoin, hrunning⟩ := hnext k hk
      exact ⟨hjoin, fun round hround => (hrunning round hround).congr hrounds⟩
    · rw [hothers i hne] at hk
      obtain ⟨hjoin, hrunning⟩ := h.joins i hi k hk
      exact ⟨hjoin, fun round hround => (hrunning round hround).congr hrounds⟩

/-- The next piece of a join. -/
theorem Healthy.joinStep (h : Healthy users roomID before c) (hnone : ¬ SomeFailed c)
    {e : Env × ℕ} (hturn : e.2 ≠ 0) (hcatches : CatchesJoiner users roomID before c e) :
    Healthy users roomID before (c.step users roomID e) ∨ SomeFailed (c.step users roomID e) := by
  have hothers : ∀ i, i ≠ e.2 → (c.step users roomID e).progress i = c.progress i :=
    fun i hi => Concurrent.progress_step_of_ne hi
  cases hprogress : c.progress e.2 with
  | returned o =>
    have hsame : c.step users roomID e = c := Concurrent.step_returned hprogress
    rw [hsame]
    exact Or.inl h
  | running k =>
    rcases Race.failed_or_ok users roomID hprogress with hfailed | ⟨r, w', hrun, hshared, hself⟩
    · exact Or.inr hfailed
    obtain ⟨hjoin, hrunning⟩ := h.joins e.2 hturn k hprogress
    -- A join that has not been added yet is not about to enrol anybody.
    have hidle : (∀ room rounds, k ≠ .added room rounds) →
        (∀ room rounds name, k ≠ .told room rounds name) → ∀ roundID,
          AboutToEnrol roundID (c.progress e.2) →
            Caught users (c.step users roomID e) roundID (users e.2) := by
      rintro hadded htold roundID ⟨room, rounds, round, hat | ⟨name, hat⟩, -⟩
      · exact absurd (Progress.running.inj (hprogress.symm.trans hat)) (hadded room rounds)
      · exact absurd (Progress.running.inj (hprogress.symm.trans hat)) (htold room rounds name)
    refine Or.inl ?_
    cases k with
    | joining =>
      obtain ⟨⟨room, rfl⟩, rfl⟩ := joining_ok hrun
      refine h.of_join hturn hothers (by rw [hshared]) (by rw [hshared]; exact List.Subset.refl _)
        (hidle (fun _ _ heq => by cases heq) fun _ _ _ heq => by cases heq) (fun u hu => Or.inl ?_)
        fun k hk => ?_
      · rwa [hshared] at hu
      · -- A running round that was just loaded is started.
        rw [hself] at hk
        obtain rfl := Progress.running.inj hk
        refine ⟨rfl, fun round hround => ?_⟩
        obtain ⟨hmem, hstarted⟩ := runningRound_started hround
        exact ⟨round, (mem_roundsIn.mp (e.1.rounds.mem_order.mp hmem)).1, rfl, hstarted⟩
    | loaded room rounds =>
      obtain ⟨rfl, rfl, hzadd, hmember⟩ := loaded_ok hrun
      refine h.of_join hturn hothers (by rw [hshared]; rfl) (by rw [hshared]; exact List.Subset.refl _)
        (hidle (fun _ _ heq => by cases heq) fun _ _ _ heq => by cases heq) (fun u hu => ?_)
        fun k hk => ?_
      · rw [hshared, isMember_joined] at hu
        rcases hu with hold | ⟨-, rfl⟩
        · exact Or.inl hold
        · -- The user becomes a member here: the start has yet to read the members, or this join saw
          -- its round running.
          rcases hcatches room rounds hprogress hzadd hmember with hunread | hsome |
            ⟨round, hround, hbefore⟩
          · exact Or.inr (Or.inl hunread)
          · exact absurd hsome hnone
          · have henrolling : AboutToEnrol round.id ((c.step users roomID e).progress e.2) :=
              ⟨room, rounds, round, Or.inl hself, hround, rfl⟩
            exact Or.inr (Or.inr ⟨round.id, hbefore, hrunning round hround,
              Or.inr ⟨e.2, hturn, rfl, henrolling⟩⟩)
      · rw [hself] at hk
        obtain rfl := Progress.running.inj hk
        exact ⟨rfl, hrunning⟩
    | added room rounds =>
      obtain ⟨displayName, told, rfl, rfl⟩ := added_ok hrun
      refine h.of_join hturn hothers (by rw [hshared]; rfl) (by rw [hshared]; exact List.Subset.refl _)
        (fun roundID henrolling => Or.inr ⟨e.2, hturn, rfl, ?_⟩) (fun u hu => Or.inl ?_) fun k hk => ?_
      · obtain ⟨room', rounds', round, hat | ⟨name, hat⟩, hround, hid⟩ := henrolling
        · cases Progress.running.inj (hprogress.symm.trans hat)
          exact ⟨room, rounds, round, Or.inr ⟨displayName, hself⟩, hround, hid⟩
        · cases Progress.running.inj (hprogress.symm.trans hat)
      · rwa [hshared] at hu
      · rw [hself] at hk
        obtain rfl := Progress.running.inj hk
        exact ⟨rfl, hrunning⟩
    | told room rounds displayName =>
      obtain ⟨rfl, hrounds, hredis, henrolments, henrolled⟩ := told_ok hrun
      refine h.of_join hturn hothers (by rw [hshared, hrounds]) (by rw [hshared]; exact henrolments)
        (fun roundID henrolling => Or.inl ?_) (fun u hu => Or.inl ?_) fun k hk => ?_
      · obtain ⟨room', rounds', round, hat | ⟨name, hat⟩, hround, rfl⟩ := henrolling
        · cases Progress.running.inj (hprogress.symm.trans hat)
        · cases Progress.running.inj (hprogress.symm.trans hat)
          rw [hshared]
          exact henrolled round hround
      · unfold World.isMember at hu ⊢
        rwa [hshared, hredis] at hu
      · rw [hself] at hk
        cases hk
    | starting => cases hjoin
    | chosen round => cases hjoin
    | counted round activeUsers => cases hjoin
    | marked round activeUsers started => cases hjoin
    | enrolled round activeUsers started => cases hjoin
    | scheduled round activeUsers started => cases hjoin

end Join

/-! ## The steps of the start -/

section Start

variable {users : ℕ → AuthID} {roomID : RoomID} {before w w' : World} {c : Race} {env : Env}
  {userID : AuthID} {round : Round} {activeUsers : List AuthID} {started : ℤ × List Problem}
  {r : RaceStage ⊕ RaceResult}

/-- A start that goes on has chosen a round that is not started. -/
theorem starting_ok (h : (racePiece env roomID userID .starting).run w = (.ok r, w')) :
    (∃ round, r = .inl (.chosen round) ∧ round.id ∈ w.unstarted) ∧ w' = w := by
  cases hchosen : w.db.chosenRound env roomID userID .created with
  | none =>
    obtain ⟨e, hrun⟩ := findRoundToStart_fails hchosen
    rw [racePiece, Call.bind_err hrun] at h
    cases h
  | some round =>
    rw [racePiece, Call.bind_ok (findRoundToStart_run hchosen)] at h
    cases h
    obtain ⟨⟨hround, -⟩, hcreated⟩ := mem_of_chosenRound hchosen
    exact ⟨⟨round, rfl, mem_unstarted.mpr ⟨round, hround, hcreated, rfl⟩⟩, rfl⟩

/-- A start that goes on has read the members of the room. -/
theorem chosen_ok (h : (racePiece env roomID userID (.chosen round)).run w = (.ok r, w')) :
    r = .inl (.counted round (w.members roomID)) ∧ w' = w := by
  obtain ⟨activeUsers, w₁, hread, hrest⟩ := Call.bind_eq_ok h
  obtain ⟨-, rfl, rfl⟩ := Call.io_read_eq_ok hread
  cases hrest
  exact ⟨rfl, rfl⟩

/-- A start that goes on has marked the round as started. -/
theorem counted_ok (h : (racePiece env roomID userID (.counted round activeUsers)).run w =
    (.ok r, w')) :
    (∃ started, r = .inl (.marked round activeUsers started)) ∧ w' = w.started env round := by
  by_cases hstart : Startable env round w
  · rw [racePiece, Call.bind_ok (markRoundStarted_run hstart)] at h
    cases h
    exact ⟨⟨_, rfl⟩, rfl⟩
  · obtain ⟨e, hrun⟩ := markRoundStarted_refused hstart
    rw [racePiece, Call.bind_err hrun] at h
    cases h

/-- A start that goes on has enrolled the members that it read. -/
theorem marked_ok (h : (racePiece env roomID userID (.marked round activeUsers started)).run w =
    (.ok r, w')) :
    r = .inl (.enrolled round activeUsers started) ∧ Enrols round.id activeUsers w w' := by
  by_cases henrol : Enrollable env activeUsers
  · have hrun := enrolParticipants_run henrol round.id w
    rw [racePiece, Call.bind_ok hrun] at h
    cases h
    exact ⟨rfl, enrols_enrolled env round.id activeUsers w⟩
  · obtain ⟨e, w₁, hrun, -⟩ := enrolParticipants_fails henrol round.id w
    rw [racePiece, Call.bind_err hrun] at h
    cases h

/-- A start that goes on has scheduled the end of the round. -/
theorem enrolled_ok (h : (racePiece env roomID userID (.enrolled round activeUsers started)).run w =
    (.ok r, w')) :
    r = .inl (.scheduled round activeUsers started) ∧ w' = w.scheduled env round := by
  by_cases hschedule : Schedulable env round
  · rw [racePiece, Call.bind_ok (scheduleRoundEnd_run hschedule w)] at h
    cases h
    exact ⟨rfl, rfl⟩
  · obtain ⟨e, hrun⟩ := scheduleRoundEnd_fails hschedule w
    rw [racePiece, Call.bind_err hrun] at h
    cases h

/-- A start that goes on is done, and has told rtc-service of the participants. -/
theorem scheduled_ok (h : (racePiece env roomID userID (.scheduled round activeUsers started)).run w =
    (.ok r, w')) : r = .inr (.inl started) ∧ ∃ joins, w' = w.tell joins := by
  obtain ⟨joins, -, hrun⟩ := announceParticipants_run env roomID activeUsers.zipIdx w
  rw [racePiece, Call.bind_ok hrun] at h
  cases h
  exact ⟨rfl, joins, rfl⟩

/-- The start goes on to where it stands then; the joins are where they were. -/
theorem Healthy.of_start (h : Healthy users roomID before c) {c' : Race} {e : Env × ℕ}
    (hturn : e.2 = 0) (hothers : ∀ i, i ≠ e.2 → c'.progress i = c.progress i)
    (hstarted : ∀ k, StartedIn c.shared k → StartedIn c'.shared k)
    (henrolments : c.shared.enrolments ⊆ c'.shared.enrolments)
    (hstanding : (∀ k u, Caught users c k u → Caught users c' k u) →
      Standing roomID before c'.shared (Caught users c') (c'.progress 0)) :
    Healthy users roomID before c' := by
  refine ⟨hstanding (Caught.step hothers henrolments fun hne => absurd hturn hne), ?_⟩
  intro i hi k hk
  rw [hothers i (by rwa [hturn])] at hk
  obtain ⟨hjoin, hrunning⟩ := h.joins i hi k hk
  exact ⟨hjoin, fun round hround => hstarted _ (hrunning round hround)⟩

/-- The next piece of the start. -/
theorem Healthy.startStep (h : Healthy users roomID before c) {e : Env × ℕ} (hturn : e.2 = 0) :
    Healthy users roomID before (c.step users roomID e) ∨ SomeFailed (c.step users roomID e) := by
  have hothers : ∀ i, i ≠ e.2 → (c.step users roomID e).progress i = c.progress i :=
    fun i hi => Concurrent.progress_step_of_ne hi
  have hstanding := h.standing
  rw [← hturn] at hstanding
  cases hprogress : c.progress e.2 with
  | returned o =>
    have hsame : c.step users roomID e = c := Concurrent.step_returned hprogress
    rw [hsame]
    exact Or.inl h
  | running k =>
    rcases Race.failed_or_ok users roomID hprogress with hfailed | ⟨r, w', hrun, hshared, hself⟩
    · exact Or.inr hfailed
    rw [hprogress] at hstanding
    -- Most pieces of the start leave the database as it is.
    have hquiet : w'.db = c.shared.db →
        (∀ k, StartedIn c.shared k → StartedIn (c.step users roomID e).shared k) ∧
          c.shared.enrolments ⊆ (c.step users roomID e).shared.enrolments := by
      intro hdb
      refine ⟨fun k hk => hk.congr (by rw [hshared, hdb]), ?_⟩
      unfold World.enrolments
      rw [hshared, hdb]
      exact List.Subset.refl _
    refine Or.inl ?_
    cases k with
    | starting =>
      obtain ⟨⟨round, rfl, hround⟩, rfl⟩ := starting_ok hrun
      refine h.of_start hturn hothers (hquiet rfl).1 (hquiet rfl).2 fun _ => ?_
      rw [← hturn, hself, hshared]
      refine ⟨hstanding, ?_⟩
      unfold World.unstarted at hround ⊢
      rwa [← show c.shared.db.rounds = before.db.rounds from hstanding]
    | chosen round =>
      obtain ⟨rfl, rfl⟩ := chosen_ok hrun
      refine h.of_start hturn hothers (hquiet rfl).1 (hquiet rfl).2 fun _ => ?_
      rw [← hturn, hself, hshared]
      exact ⟨hstanding, fun u hu => (SortedSet.mem_members _ u).mpr hu⟩
    | counted round activeUsers =>
      obtain ⟨⟨started, rfl⟩, rfl⟩ := counted_ok hrun
      obtain ⟨⟨hrounds, hbefore⟩, hmembers⟩ := hstanding
      refine h.of_start hturn hothers (fun k hk => hk.start (by rw [hshared]; rfl))
        (by rw [hshared]; exact List.Subset.refl _) fun _ => ?_
      rw [← hturn, hself, hshared]
      refine ⟨⟨hbefore, e.1.now, ?_⟩, fun u hu => Or.inl (hmembers u hu)⟩
      show (c.shared.db.startRound e.1.now round.id).rounds = _
      unfold DB.startRound
      rw [hrounds]
    | marked round activeUsers started =>
      obtain ⟨rfl, henrols⟩ := marked_ok hrun
      obtain ⟨hbegun, hmembers⟩ := hstanding
      obtain ⟨new, hrows, hnew⟩ := henrols.rows
      have henrolments : w'.enrolments =
          c.shared.enrolments ++ activeUsers.map fun user => (user, round.id) := by
        unfold World.enrolments
        rw [hrows, List.map_append, hnew]
      refine h.of_start hturn hothers (fun k hk => hk.congr (by rw [hshared, henrols.rounds])) ?_
        fun hcaught => ?_
      · rw [hshared, henrolments]
        exact List.subset_append_left _ _
      · rw [← hturn, hself, hshared]
        refine ⟨hbegun.congr henrols.rounds, fun u hu => ?_⟩
        have hmember : c.shared.isMember roomID u := by
          unfold World.isMember at hu ⊢
          rwa [henrols.enrolling.redis] at hu
        rcases hmembers u hmember with hactive | hlate
        · -- The members that were read get their rows now.
          refine Or.inl ?_
          rw [hshared, henrolments]
          exact List.mem_append_right _ (List.mem_map_of_mem hactive)
        · exact hcaught _ _ hlate
    | enrolled round activeUsers started =>
      obtain ⟨rfl, rfl⟩ := enrolled_ok hrun
      refine h.of_start hturn hothers (hquiet rfl).1 (hquiet rfl).2 fun hcaught => ?_
      rw [← hturn, hself, hshared]
      exact ⟨hstanding.1.congr rfl, fun u hu => hcaught _ _ (hstanding.2 u hu)⟩
    | scheduled round activeUsers started =>
      obtain ⟨rfl, joins, rfl⟩ := scheduled_ok hrun
      refine h.of_start hturn hothers (hquiet rfl).1 (hquiet rfl).2 fun hcaught => ?_
      rw [← hturn, hself, hshared]
      exact ⟨round.id, hstanding.1.congr rfl, fun u hu => hcaught _ _ (hstanding.2 u hu)⟩
    | joining => exact hstanding.elim
    | loaded room rounds => exact hstanding.elim
    | added room rounds => exact hstanding.elim
    | told room rounds displayName => exact hstanding.elim

end Start

/-! ## Whole runs -/

section Run

variable {users : ℕ → AuthID} {roomID : RoomID} {before : World} {c : Race}

/-- Once all have succeeded, everyone in the room is caught by a row. -/
theorem Healthy.noneMissed (h : Healthy users roomID before c) : NoneMissed roomID before c := by
  rintro ⟨r, hstart⟩ hjoins round hround hstarted hbefore userID hmember
  have hstanding := h.standing
  rw [hstart] at hstanding
  obtain ⟨k, hbegun, hall⟩ := hstanding
  rw [hbegun.eq hbefore ⟨round, hround, rfl, hstarted⟩]
  rcases hall userID hmember with hrow | ⟨i, hi, -, room, rounds, r, hat | ⟨name, hat⟩, -⟩
  · exact hrow
  · rcases hjoins i hi with hidle | ⟨result, hreturned⟩
    · cases hidle.symm.trans hat
    · cases hreturned.symm.trans hat
  · rcases hjoins i hi with hidle | ⟨result, hreturned⟩
    · cases hidle.symm.trans hat
    · cases hreturned.symm.trans hat

/-- Nothing is asked of a run in which a request failed. -/
theorem SomeFailed.noneMissed (h : SomeFailed c) : NoneMissed roomID before c := by
  obtain ⟨i, hfailed⟩ := h
  rintro ⟨r, hstart⟩ hjoins
  exfalso
  by_cases hi : i = 0
  · rw [hi, hstart] at hfailed
    exact hfailed
  · rcases hjoins i hi with hidle | ⟨result, hreturned⟩
    · rw [hidle] at hfailed
      exact hfailed
    · rw [hreturned] at hfailed
      exact hfailed

/-- Before anything has run, nothing is wrong. -/
theorem healthy_begin (users : ℕ → AuthID) (roomID : RoomID) (w : World) :
    Healthy users roomID w (.begin w) := by
  refine ⟨rfl, fun i hi k hk => ?_⟩
  have hjoining : (Race.begin w).progress i = .running .joining := if_neg hi
  obtain rfl := Progress.running.inj (hk.symm.trans hjoining)
  exact ⟨rfl, fun round hround => by cases hround⟩

/-- A step leaves everything as it should be, or something has failed, when a join that adds its
user catches him. -/
theorem healthy_step (h : Healthy users roomID before c ∨ SomeFailed c) (e : Env × ℕ)
    (hcatches : CatchesJoiner users roomID before c e) :
    Healthy users roomID before (c.step users roomID e) ∨ SomeFailed (c.step users roomID e) := by
  by_cases hsome : SomeFailed c
  · obtain ⟨i, hfailed⟩ := hsome
    exact Or.inr ⟨i, Concurrent.failed_step hfailed⟩
  · have hhealthy := h.resolve_right hsome
    by_cases hturn : e.2 = 0
    · exact hhealthy.startStep hturn
    · exact hhealthy.joinStep hsome hturn hcatches

/-- In every interleaving of one start with any number of joins in which no join adds its user too
late for the start and with rounds loaded too early, every member has a row for the started round
once all have succeeded. -/
theorem noneMissed_of_along (users : ℕ → AuthID) (roomID : RoomID) (w : World)
    (es : List (Env × ℕ))
    (hcatches : Along (Race.step users roomID) (CatchesJoiner users roomID w) (.begin w) es) :
    Throughout (Race.step users roomID) (NoneMissed roomID w) (.begin w) es := by
  have hrun := invariant_along (I := fun c => Healthy users roomID w c ∨ SomeFailed c)
    (fun _ e h hok => healthy_step h e hok) (Or.inl (healthy_begin users roomID w)) hcatches
  exact hrun.mono fun c h => h.elim Healthy.noneMissed SomeFailed.noneMissed

end Run

/-- The admin starts the round, and a guest joins. -/
def adminAndGuest (i : ℕ) : AuthID := if i = 0 then host else guest

/-- The request has returned with success. -/
def Succeeded : Progress RaceStage GoError RaceResult → Bool
  | .returned (.ok _) => true
  | _ => false

/-- The request is a join that is to add its user next. -/
def AboutToAdd : Progress RaceStage GoError RaceResult → Bool
  | .running (.loaded _ _) => true
  | _ => false

/-- A call that succeeded has returned a value. -/
theorem exists_of_succeeded {p : Progress RaceStage GoError RaceResult} (h : Succeeded p = true) :
    ∃ r, p = .returned (.ok r) := by
  rcases p with k | (r | e | _)
  · cases h
  · exact ⟨r, rfl⟩
  · cases h
  · cases h

/-- A piece that is not about to add a member meets the condition. -/
theorem catchesJoiner_of_not {users : ℕ → AuthID} {roomID : RoomID} {before : World} {c : Race}
    {e : Env × ℕ} (h : AboutToAdd (c.progress e.2) = false) :
    CatchesJoiner users roomID before c e := by
  intro room rounds hat
  rw [hat] at h
  cases h

/-- The guest is added before the start has read the members. -/
def joinsEarly : List (Env × ℕ) :=
  [(Env.faultless 10, 1), (Env.faultless 10, 1), (Env.faultless 10, 0), (Env.faultless 10, 1),
    (Env.faultless 10, 0), (Env.faultless 10, 0), (Env.faultless 10, 0), (Env.faultless 10, 0),
    (Env.faultless 10, 0), (Env.faultless 10, 1)]

/-- The join is over before the start reads the members. -/
theorem noneMissed_joinsEarly :
    Throughout (Race.step adminAndGuest roomOne) (NoneMissed roomOne .ready) (.begin .ready)
      joinsEarly := by
  refine noneMissed_of_along adminAndGuest roomOne .ready joinsEarly
    ⟨catchesJoiner_of_not (by decide +kernel), fun _ _ _ _ _ => Or.inl (Or.inl rfl),
      catchesJoiner_of_not (by decide +kernel), catchesJoiner_of_not (by decide +kernel),
      catchesJoiner_of_not (by decide +kernel), catchesJoiner_of_not (by decide +kernel),
      catchesJoiner_of_not (by decide +kernel), catchesJoiner_of_not (by decide +kernel),
      catchesJoiner_of_not (by decide +kernel), catchesJoiner_of_not (by decide +kernel), trivial⟩

/-- The guest loads the room before the round is marked, and is added after the members were
read. -/
def joinsBetween : List (Env × ℕ) :=
  [(Env.faultless 10, 1), (Env.faultless 10, 0), (Env.faultless 10, 0), (Env.faultless 10, 1),
    (Env.faultless 10, 1), (Env.faultless 10, 1), (Env.faultless 10, 0), (Env.faultless 10, 0),
    (Env.faultless 10, 0), (Env.faultless 10, 0)]

/-- Both requests succeed, and the guest is a member who takes no part in the round. -/
theorem not_noneMissed :
    ¬ Throughout (Race.step adminAndGuest roomOne) (NoneMissed roomOne .ready) (.begin .ready)
      joinsBetween := by
  intro h
  let last := run (Race.step adminAndGuest roomOne) (.begin .ready) joinsBetween
  have hstart : Succeeded (last.progress 0) = true := by decide +kernel
  have hjoin : Succeeded (last.progress 1) = true := by decide +kernel
  have hjoins : ∀ i, i ≠ 0 →
      last.progress i = .running .joining ∨ ∃ r, last.progress i = .returned (.ok r) := by
    intro i hi
    obtain rfl | hne := eq_or_ne i 1
    · exact Or.inr (exists_of_succeeded hjoin)
    · refine Or.inl ((progress_run_of_ne _ joinsBetween _ fun e he => ?_).trans (if_neg hi))
      have hturns : ∀ e ∈ joinsBetween, e.2 = 0 ∨ e.2 = 1 := by decide
      rcases hturns e he with hzero | hone
      · rwa [hzero]
      · rwa [hone]
  have hrow := h.last (exists_of_succeeded hstart) hjoins
  have hmissed : (guest, 1) ∉ last.shared.enrolments := by decide +kernel
  exact hmissed (hrow ⟨1, 10, 30, roomOne, .started⟩ (by decide +kernel) rfl (by decide +kernel) guest
    (by decide +kernel))

end Bsg.Central
