import Bsg.Central.Starting

/-!
# Joining, leaving and deleting a room

Specifications of the requests that change who is in a room. `joinRoom_cases` and `leaveRoom_cases`
tell apart how far a request gets; `deleteRoom_cases` says when a room is really gone. The
conditions speak of the faults, the answers of rtc-service and the state before the request:

* `Enterable`: nothing goes wrong once the user is a member, so the join succeeds;
* `Deletable`: nothing goes wrong while a room with so many rounds is deleted.
-/

namespace Bsg.Central

open Bsg.Foundations

/-! ## Joining -/

/-- The round that a joining user takes part in: the last of the loaded rounds, if it is started. -/
def runningRound (rounds : List Round) : Option Round :=
  rounds.getLast?.filter fun r => decide (r.status = .started)

/-- A new member is announced, and takes part in the running round if there is one. -/
def Enterable (env : Env) (rounds : List Round) : Prop :=
  env.reply .joinRoom = .ok ∧ ∀ round, runningRound rounds = some round →
    env.fails (.createParticipant 0) = false ∧ env.reply (.joinRound 0) = .ok

/-- The state with the row that a joining user gets, if the request comes so far. -/
def World.entered (env : Env) (rounds : List Round) (userID : AuthID) (w : World) : World :=
  match runningRound rounds with
  | some round =>
    if env.reply .joinRoom = .ok ∧ env.fails (.createParticipant 0) = false then
      { w with db := w.db.addParticipant (env.participantHint 0) userID round.id }
    else w
  | none => w

/-- The error of a join by a user who is a member already. -/
def alreadyInRoom : GoError := .value ⟨400, "Are you already in this room?"⟩

section Join

variable {env : Env} {roomID : RoomID} {userID : AuthID} {w : World}

/-- An announcement is delivered, if at all, and must be answered. -/
theorem announce_run (env : Env) (call : RtcCall) (req : Rtc.Request) (w : World) :
    (announce env call req).run w =
      (if env.reply call = .ok then .ok () else .err internalServerError,
        w.tell (delivered (env.reply call) req)) := by
  obtain ⟨o, hrun, hcalm, hok⟩ := sendMessage_run (env.reply call) req w
  unfold announce
  cases o with
  | ok _ =>
    rw [Call.attempt_ok hrun, if_pos (hok.mp rfl)]
    rfl
  | err e =>
    rw [Call.attempt_err hrun, if_neg fun h => by cases hok.mpr h]
    rfl
  | panic => exact absurd rfl hcalm

/-- A new member takes part in the running round, if there is one. -/
def takePart (env : Env) (roomID : RoomID) (rounds : List Round) (userID : AuthID)
    (displayName : GoText) : Service Unit :=
  match runningRound rounds with
  | some round => do
    createRoundParticipant env 0 userID round.id
    announce env (.joinRound 0) (.joinRound roomID userID displayName)
  | none => pure ()

/-- Entering a room in terms of the running round. -/
theorem enterRoom_eq (env : Env) (roomID : RoomID) (room : Room) (rounds : List Round)
    (userID : AuthID) :
    enterRoom env roomID room rounds userID = (do
      let displayName ← userDisplayName env userID
      announce env .joinRoom
        (.joinRoom userID roomID displayName false (some room.profanityFilter))
      takePart env roomID rounds userID displayName) := by
  unfold enterRoom takePart runningRound
  cases rounds.getLast? with
  | none => rfl
  | some round =>
    by_cases hstarted : round.status = .started
    · simp only [Option.filter_some, hstarted, decide_true, if_true]
    · simp only [Option.filter_some, hstarted, decide_false, if_false, Bool.false_eq_true]

/-- Taking part after the room was told. -/
theorem takePart_run (hreply : env.reply .joinRoom = .ok) (roomID : RoomID) (rounds : List Round)
    (displayName : GoText) (told : List Rtc.Request) :
    ∃ o rs, (takePart env roomID rounds userID displayName).run (w.tell told) =
        (o, (w.entered env rounds userID).tell rs) ∧
      (o = .ok () ∧ Enterable env rounds ∨
        (o = .err internalServerError ∨ o = .err .io) ∧ ¬ Enterable env rounds) := by
  unfold takePart World.entered Enterable
  cases runningRound rounds with
  | none => exact ⟨.ok (), told, rfl, Or.inl ⟨rfl, hreply, by simp⟩⟩
  | some round =>
    dsimp only
    unfold createRoundParticipant
    cases hcreate : env.fails (.createParticipant 0) with
    | true =>
      rw [if_neg fun h => by cases h.2]
      exact ⟨.err .io, told, rfl, Or.inr ⟨Or.inr rfl, fun h => by cases (h.2 round rfl).1⟩⟩
    | false =>
      rw [if_pos ⟨hreply, rfl⟩, Call.io_false]
      let req : Rtc.Request := .joinRound roomID userID displayName
      -- The row is stored, and then the join of the round is announced: a refusal leaves the row.
      have hannounce := announce_run env (.joinRound 0) req
        { w.tell told with db := w.db.addParticipant (env.participantHint 0) userID round.id }
      refine ⟨_, told ++ delivered (env.reply (.joinRound 0)) req,
        (Call.bind_ok rfl _).trans (hannounce.trans (Prod.ext rfl ?_)), ?_⟩
      · exact World.tell_tell { w with
          db := w.db.addParticipant (env.participantHint 0) userID round.id } _ _
      · by_cases hround : env.reply (.joinRound 0) = .ok
        · rw [if_pos hround]
          exact Or.inl ⟨rfl, hreply, fun _ _ => ⟨rfl, hround⟩⟩
        · rw [if_neg hround]
          exact Or.inr ⟨Or.inl rfl, fun h => hround (h.2 round rfl).2⟩

/-- How a new member enters: with success, or with an error that is not about his membership. -/
theorem enterRoom_run (env : Env) (roomID : RoomID) (room : Room) (rounds : List Round)
    (userID : AuthID) (w : World) :
    ∃ o rs, (enterRoom env roomID room rounds userID).run w =
        (o, (w.entered env rounds userID).tell rs) ∧
      (o = .ok () ∧ Enterable env rounds ∨
        (o = .err internalServerError ∨ o = .err .io) ∧ ¬ Enterable env rounds) := by
  obtain ⟨displayName, hname⟩ : ∃ displayName,
      (userDisplayName env userID).run w = (.ok displayName, w) := ⟨_, rfl⟩
  have hannounce := announce_run env .joinRoom
    (.joinRoom userID roomID displayName false (some room.profanityFilter)) w
  rw [enterRoom_eq, Call.bind_ok hname]
  by_cases hreply : env.reply .joinRoom = .ok
  · rw [if_pos hreply] at hannounce
    rw [Call.bind_ok hannounce]
    exact takePart_run hreply roomID rounds displayName _
  · have hstay : w.entered env rounds userID = w := by
      unfold World.entered
      cases runningRound rounds with
      | none => rfl
      | some round => exact if_neg fun h => hreply h.1
    rw [if_neg hreply] at hannounce
    rw [hstay]
    exact ⟨_, _, Call.bind_err hannounce _, Or.inr ⟨Or.inl rfl, fun h => hreply h.1⟩⟩

/-- How a join ends: it does not reach the members, the user is a member already, or he becomes one
and enters the room. -/
theorem joinRoom_cases (env : Env) (roomID : RoomID) (userID : AuthID) (w : World) :
    (∃ e, (joinRoom env roomID userID).run w = (.err e, w) ∧
      ∀ room, Findable env roomID w.db room → env.fails .zaddJoin = true) ∨
    ∃ room, Findable env roomID w.db room ∧ env.fails .zaddJoin = false ∧
      ((w.redis.joinTimestamp roomID).contains userID = true ∧
          (joinRoom env roomID userID).run w = (.err alreadyInRoom, w.joined env roomID userID) ∨
        (w.redis.joinTimestamp roomID).contains userID = false ∧
          ∃ o rs, (joinRoom env roomID userID).run w =
              (o, ((w.joined env roomID userID).entered env (w.db.roundsOf env.rounds room.id)
                userID).tell rs) ∧
            (o = .ok room ∧ Enterable env (w.db.roundsOf env.rounds room.id) ∨
              (o = .err internalServerError ∨ o = .err .io) ∧
                ¬ Enterable env (w.db.roundsOf env.rounds room.id))) := by
  unfold joinRoom
  by_cases hfind : ∃ room, Findable env roomID w.db room
  swap
  · obtain ⟨e, hrun⟩ := findRoomByID_fails fun room h => hfind ⟨room, h⟩
    exact Or.inl ⟨e, Call.bind_err hrun _, fun room h => absurd ⟨room, h⟩ hfind⟩
  obtain ⟨room, hroom⟩ := hfind
  rw [Call.bind_ok (findRoomByID_run hroom)]
  dsimp only
  -- The score is written before it is known whether the user was a member.
  cases hzadd : env.fails .zaddJoin with
  | true =>
    have hrun : (addJoinMember env roomID userID).run w = (.err .io, w) := by
      unfold addJoinMember
      rw [hzadd]
      rfl
    exact Or.inl ⟨_, Call.bind_err hrun _, fun _ _ => rfl⟩
  | false =>
    refine Or.inr ⟨room, hroom, rfl, ?_⟩
    have hadd := addJoinMember_run hzadd roomID userID w
    cases hmember : (w.redis.joinTimestamp roomID).contains userID with
    | true =>
      rw [hmember, if_pos rfl] at hadd
      exact Or.inl ⟨rfl, Call.bind_err hadd _⟩
    | false =>
      rw [hmember, if_neg Bool.false_ne_true] at hadd
      refine Or.inr ⟨rfl, ?_⟩
      rw [Call.bind_ok hadd]
      -- From here on the user is a member, however the request ends.
      obtain ⟨o, rs, hrun, hend⟩ := enterRoom_run env roomID room
        (w.db.roundsOf env.rounds room.id) userID (w.joined env roomID userID)
      rcases hend with ⟨rfl, henter⟩ | ⟨rfl | rfl, henter⟩
      · exact ⟨_, rs, Call.bind_ok hrun _, Or.inl ⟨rfl, henter⟩⟩
      · exact ⟨_, rs, Call.bind_err hrun _, Or.inr ⟨Or.inl rfl, henter⟩⟩
      · exact ⟨_, rs, Call.bind_err hrun _, Or.inr ⟨Or.inr rfl, henter⟩⟩

end Join

/-! ## Members and their pointers -/

/-- The user is a member of the room. -/
def World.isMember (w : World) (roomID : RoomID) (userID : AuthID) : Prop :=
  (w.redis.joinTimestamp roomID).contains userID = true

instance (w : World) (roomID : RoomID) (userID : AuthID) : Decidable (w.isMember roomID userID) :=
  inferInstanceAs (Decidable (_ = _))

/-- The members of every room and every user's active room are the same. -/
structure SameMembers (w w' : World) : Prop where
  joinTimestamp : w'.redis.joinTimestamp = w.redis.joinTimestamp
  activeRoom : w'.redis.activeRoom = w.redis.activeRoom

/-- The members are those that they are. -/
theorem SameMembers.refl (w : World) : SameMembers w w := ⟨rfl, rfl⟩

/-- Members that stay in two steps stay in both. -/
theorem SameMembers.trans (w₁ w₂ w₃ : World) (h : SameMembers w₁ w₂) (h' : SameMembers w₂ w₃) :
    SameMembers w₁ w₃ :=
  ⟨h'.joinTimestamp.trans h.joinTimestamp, h'.activeRoom.trans h.activeRoom⟩

/-- Entering a room changes no membership. -/
theorem sameMembers_entered (env : Env) (rounds : List Round) (userID : AuthID) (w : World)
    (rs : List Rtc.Request) : SameMembers w ((w.entered env rounds userID).tell rs) := by
  unfold World.entered
  split
  · split
    · exact ⟨rfl, rfl⟩
    · exact ⟨rfl, rfl⟩
  · exact ⟨rfl, rfl⟩

/-- Whether a user is a member depends on the members only. -/
theorem isMember_congr {w w' : World} (h : SameMembers w w') (r : RoomID) (u : AuthID) :
    w'.isMember r u ↔ w.isMember r u := by
  unfold World.isMember
  rw [h.joinTimestamp]

/-- Who joins becomes a member of the room. -/
theorem isMember_joined (env : Env) (roomID : RoomID) (userID : AuthID) (w : World) (r : RoomID)
    (u : AuthID) :
    (w.joined env roomID userID).isMember r u ↔ w.isMember r u ∨ r = roomID ∧ u = userID := by
  unfold World.isMember
  show (Function.update w.redis.joinTimestamp roomID _ r).contains u = true ↔ _
  by_cases hr : r = roomID
  · rw [hr, Function.update_self, SortedSet.contains_add, Bool.or_eq_true, decide_eq_true_eq,
      and_iff_right rfl, or_comm]
  · rw [Function.update_of_ne hr]
    simp [hr]

/-- A request to join writes the user's membership, if it comes so far, and changes no other. -/
theorem joinRoom_members (env : Env) (roomID : RoomID) (userID : AuthID) (w : World) :
    (((joinRoom env roomID userID).run w).2 = w ∧
      ∀ room, Findable env roomID w.db room → env.fails .zaddJoin = true) ∨
    (∃ room, Findable env roomID w.db room) ∧ env.fails .zaddJoin = false ∧
      SameMembers (w.joined env roomID userID) ((joinRoom env roomID userID).run w).2 := by
  rcases joinRoom_cases env roomID userID w with ⟨e, hrun, hnot⟩ | ⟨room, hroom, hzadd,
    ⟨-, hrun⟩ | ⟨-, o, rs, hrun, -⟩⟩
  · rw [hrun]
    exact Or.inl ⟨rfl, hnot⟩
  · rw [hrun]
    exact Or.inr ⟨⟨room, hroom⟩, hzadd, SameMembers.refl _⟩
  · rw [hrun]
    exact Or.inr ⟨⟨room, hroom⟩, hzadd, sameMembers_entered env _ userID _ rs⟩

/-! ## Deleting -/

/-- The key of the user among these members is deleted with the room. -/
def forgotten (env : Env) (members : List (AuthID × ℕ)) (userID : AuthID) : Bool :=
  members.any fun m => decide (m.1 = userID) && !env.fails (.delMember m.2)

/-- A user is forgotten when his own pointer is deleted. -/
theorem forgotten_cons (env : Env) (member : AuthID) (i : ℕ) (l : List (AuthID × ℕ))
    (userID : AuthID) : forgotten env ((member, i) :: l) userID =
      (decide (member = userID) && !env.fails (.delMember i) || forgotten env l userID) := rfl

/-- The members whose keys a deletion goes through. -/
def World.membersToForget (env : Env) (roomID : RoomID) (w : World) : List (AuthID × ℕ) :=
  (if env.fails .zrangeDelete then [] else w.members roomID).zipIdx

/-- The state with other pointers to the users' active rooms. -/
def World.withPointers (w : World) (activeRoom : AuthID → Option RoomID) : World :=
  { w with redis := { w.redis with activeRoom := activeRoom } }

/-- The state in which a room lost all its members. -/
def World.emptied (env : Env) (roomID : RoomID) (w : World) : World :=
  { w with
    redis := { w.redis with
      joinTimestamp := Function.update w.redis.joinTimestamp roomID .empty
      activeRoom := fun userID =>
        if forgotten env (w.membersToForget env roomID) userID then none
        else w.redis.activeRoom userID } }

section Delete

variable {env : Env} {roomID : RoomID} {room : Room} {rounds : List Round} {w : World}

/-- The keys of some members are deleted, as far as that succeeds. -/
theorem forgetMembers_run (env : Env) : ∀ (l : List (AuthID × ℕ)) (w : World),
    (Call.forEach l fun (userID, i) => logged <| Call.io (env.fails (.delMember i)) .io <|
        writeRedis fun r => { r with activeRoom := Function.update r.activeRoom userID none }).run w =
      (.ok (), w.withPointers fun u => if forgotten env l u then none else w.redis.activeRoom u)
  | [], w => rfl
  | (member, i) :: l, w => by
    rw [Call.forEach_cons]
    dsimp only
    -- A key that cannot be deleted is logged, and the loop goes on.
    cases hfails : env.fails (.delMember i) with
    | true =>
      have hfirst : (logged <| Call.io true .io <| writeRedis fun r =>
          { r with activeRoom := Function.update r.activeRoom member none }).run w = (.ok (), w) :=
        rfl
      rw [Call.bind_ok hfirst, forgetMembers_run env l w]
      refine congrArg (fun f => (_, w.withPointers f)) (funext fun u => ?_)
      rw [forgotten_cons, hfails, Bool.not_true, Bool.and_false, Bool.false_or]
    | false =>
      have hfirst : (logged <| Call.io false .io <| writeRedis fun r =>
          { r with activeRoom := Function.update r.activeRoom member none }).run w =
          (.ok (), w.withPointers (Function.update w.redis.activeRoom member none)) := rfl
      rw [Call.bind_ok hfirst, forgetMembers_run env l _]
      refine congrArg (fun f => (_, w.withPointers f)) (funext fun u => ?_)
      show (if forgotten env l u then none else Function.update w.redis.activeRoom member none u) = _
      rw [forgotten_cons, hfails, Bool.not_false, Bool.and_true]
      by_cases hu : u = member
      · rw [hu, Function.update_self, ite_self, decide_eq_true rfl, Bool.true_or, if_pos rfl]
      · rw [Function.update_of_ne hu, decide_eq_false (Ne.symm hu), Bool.false_or]

/-- The room is emptied. -/
theorem deleteJoinMembers_run (h : env.fails .delJoin = false) (roomID : RoomID) (w : World) :
    (deleteJoinMembers env roomID).run w = (.ok (), w.emptied env roomID) := by
  unfold deleteJoinMembers
  rw [Call.run_read_bind, h]
  exact (Call.bind_ok rfl _).trans (forgetMembers_run env _ _)

/-- When the command fails, the members stay. -/
theorem deleteJoinMembers_fails (h : env.fails .delJoin = true) (roomID : RoomID) (w : World) :
    (deleteJoinMembers env roomID).run w = (.err .io, w) := by
  unfold deleteJoinMembers
  rw [Call.run_read_bind, h]
  rfl

/-- Deleting a round changes no membership. -/
theorem sameMembers_deleteRound (env : Env) (round : Round × ℕ) :
    Call.Within SameMembers (deleteRound env round) := by
  have hdelete : ∀ (op : Op) (f : DB → DB),
      Call.Within SameMembers (Call.io (env.fails op) .io (writeDB f)) := fun op f =>
    Call.Within.io SameMembers.refl _ _ (Call.Within.write fun w => ⟨rfl, rfl⟩)
  refine Call.Within.bind SameMembers.trans (within_logged SameMembers.refl SameMembers.trans
    (Call.Within.io SameMembers.refl _ _ (Call.Within.write fun w => ⟨rfl, rfl⟩))) fun _ => ?_
  exact Call.Within.bind SameMembers.trans (hdelete _ _) fun _ =>
    Call.Within.bind SameMembers.trans (hdelete _ _) fun _ =>
      Call.Within.bind SameMembers.trans (hdelete _ _) fun _ => hdelete _ _

/-- A deletion empties the room, unless that fails, and then it does nothing. -/
theorem deleteRoom_members (env : Env) (room : Room) (rounds : List Round) (w : World) :
    env.fails .delJoin = true ∧ (deleteRoom env room rounds).run w = (.err .io, w) ∨
      env.fails .delJoin = false ∧
        SameMembers (w.emptied env room.id) ((deleteRoom env room rounds).run w).2 := by
  unfold deleteRoom
  cases hdel : env.fails .delJoin with
  | true => exact Or.inl ⟨rfl, Call.bind_err (deleteJoinMembers_fails hdel room.id w) _⟩
  | false =>
    rw [Call.bind_ok (deleteJoinMembers_run hdel room.id w)]
    refine Or.inr ⟨rfl, Call.Within.bind SameMembers.trans (Call.Within.forEach SameMembers.refl
      SameMembers.trans fun round _ => sameMembers_deleteRound env round) (fun _ => ?_) _⟩
    refine Call.Within.io SameMembers.refl _ _ (Call.Within.bind SameMembers.trans
      (Call.Within.read SameMembers.refl _) fun inUse => ?_)
    exact Call.Within.ite _ (Call.Within.fail SameMembers.refl _)
      (Call.Within.write fun _ => ⟨rfl, rfl⟩)

/-! ### Until the room is gone -/

/-- The rows of a round can be deleted. -/
def RoundDeletable (env : Env) (i : ℕ) : Prop :=
  env.fails (.deleteRoundSubmissions i) = false ∧ env.fails (.deleteParticipants i) = false ∧
    env.fails (.deleteRoundProblems i) = false ∧ env.fails (.deleteRound i) = false

/-- Nothing goes wrong while a room with `n` rounds is deleted. -/
def Deletable (env : Env) (n : ℕ) : Prop :=
  env.fails .delJoin = false ∧ (∀ i < n, RoundDeletable env i) ∧ env.fails .deleteRoom = false

/-- The round is deleted when all its statements succeed. -/
theorem deleteRound_run {round : Round × ℕ} (h : RoundDeletable env round.2) (w : World) :
    ∃ w', (deleteRound env round).run w = (.ok (), w') ∧ w'.db.rooms = w.db.rooms ∧
      w'.db.rounds.rows = w.db.rounds.rows.filter fun r => !decide (r.id = round.1.id) := by
  obtain ⟨hsubmissions, hparticipants, hproblems, hround⟩ := h
  unfold deleteRound deleteLeaderboard
  rw [hsubmissions, hparticipants, hproblems, hround]
  cases env.fails (.delLeaderboard round.2) with
  | true => exact ⟨_, rfl, rfl, rfl⟩
  | false => exact ⟨_, rfl, rfl, rfl⟩

/-- When one of them fails, so does the deletion. -/
theorem deleteRound_fails {round : Round × ℕ} (h : ¬ RoundDeletable env round.2) (w w' : World) :
    (deleteRound env round).run w ≠ (.ok (), w') := by
  intro hrun
  obtain ⟨_, w₁, -, hrun⟩ := Call.bind_eq_ok hrun
  obtain ⟨_, w₂, hsubmissions, hrun⟩ := Call.bind_eq_ok hrun
  obtain ⟨_, w₃, hparticipants, hrun⟩ := Call.bind_eq_ok hrun
  obtain ⟨_, w₄, hproblems, hround⟩ := Call.bind_eq_ok hrun
  exact h ⟨(Call.io_eq_ok hsubmissions).1, (Call.io_eq_ok hparticipants).1,
    (Call.io_eq_ok hproblems).1, (Call.io_eq_ok hround).1⟩

/-- Rounds that can be deleted are. -/
theorem deleteRounds_run : ∀ {l : List (Round × ℕ)}, (∀ b ∈ l, RoundDeletable env b.2) →
    ∀ w, ∃ w', (Call.forEach l (deleteRound env)).run w = (.ok (), w') ∧
      w'.db.rooms = w.db.rooms ∧
      ∀ r ∈ w'.db.rounds.rows, r ∈ w.db.rounds.rows ∧ ∀ b ∈ l, r.id ≠ b.1.id
  | [], _, w => ⟨w, rfl, rfl, fun r hr => ⟨hr, by simp⟩⟩
  | b :: l, h, w => by
    obtain ⟨w₁, hfirst, hrooms, hrows⟩ := deleteRound_run (h b List.mem_cons_self) w
    obtain ⟨w', hrest, hrooms', hrows'⟩ :=
      deleteRounds_run (fun b' hb' => h b' (List.mem_cons_of_mem _ hb')) w₁
    refine ⟨w', (Call.bind_ok hfirst _).trans hrest, hrooms'.trans hrooms, fun r hr => ?_⟩
    obtain ⟨hmem, hne⟩ := hrows' r hr
    rw [hrows, List.mem_filter] at hmem
    refine ⟨hmem.1, fun b' hb' => ?_⟩
    rcases List.mem_cons.mp hb' with rfl | hb'
    · simpa using hmem.2
    · exact hne b' hb'

/-- The rows of the rooms are the same. -/
def SameRooms (w w' : World) : Prop := w'.db.rooms = w.db.rooms

/-- The rooms are those that they are. -/
theorem SameRooms.refl (w : World) : SameRooms w w := rfl

/-- Rooms that stay in two steps stay in both. -/
theorem SameRooms.trans (w₁ w₂ w₃ : World) (h : SameRooms w₁ w₂) (h' : SameRooms w₂ w₃) :
    SameRooms w₁ w₃ := Eq.trans h' h

/-- Deleting a round leaves the rows of the rooms. -/
theorem sameRooms_deleteRound (env : Env) (round : Round × ℕ) :
    Call.Within SameRooms (deleteRound env round) := by
  have hdelete : ∀ (op : Op) (f : DB → DB), (∀ db, (f db).rooms = db.rooms) →
      Call.Within SameRooms (Call.io (env.fails op) .io (writeDB f)) := fun op f hf =>
    Call.Within.io SameRooms.refl _ _ (Call.Within.write fun w => hf w.db)
  refine Call.Within.bind SameRooms.trans (within_logged SameRooms.refl SameRooms.trans
    (Call.Within.io SameRooms.refl _ _ (Call.Within.write fun w => rfl))) fun _ => ?_
  exact Call.Within.bind SameRooms.trans (hdelete _ _ fun _ => rfl) fun _ =>
    Call.Within.bind SameRooms.trans (hdelete _ _ fun _ => rfl) fun _ =>
      Call.Within.bind SameRooms.trans (hdelete _ _ fun _ => rfl) fun _ => hdelete _ _ fun _ => rfl

/-- A room that is deleted with all its rounds is gone, and has no members; a deletion that fails
leaves the row of the room. -/
theorem deleteRoom_cases (env : Env) (room : Room) (rounds : List Round) (w : World)
    (h : ∀ r ∈ w.db.rounds.rows, r.roomID = room.id → r ∈ rounds) :
    Deletable env rounds.length ∧ (∃ w', (deleteRoom env room rounds).run w = (.ok (), w') ∧
        w'.db.roomByID room.id = none ∧ w'.members room.id = []) ∨
      ¬ Deletable env rounds.length ∧
        ∃ e w', (deleteRoom env room rounds).run w = (.err e, w') ∧ w'.db.rooms = w.db.rooms := by
  have hmembers := deleteRoom_members env room rounds w
  unfold deleteRoom at hmembers ⊢
  cases hdel : env.fails .delJoin with
  | true =>
    have hrun := deleteJoinMembers_fails hdel room.id w
    exact Or.inr ⟨fun hall => by simp [hall.1] at hdel, _, w, Call.bind_err hrun _, rfl⟩
  | false =>
  rw [Call.bind_ok (deleteJoinMembers_run hdel room.id w)] at hmembers ⊢
  have hsame := (hmembers.resolve_left fun hbad => by simp [hdel] at hbad).2
  let w₁ := w.emptied env room.id
  by_cases hrounds : ∀ i < rounds.length, RoundDeletable env i
  swap
  · obtain ⟨i, hi, hfails⟩ : ∃ i < rounds.length, ¬ RoundDeletable env i := by
      push Not at hrounds
      exact hrounds
    have hmem : (rounds[i], i) ∈ rounds.zipIdx := by
      rw [List.mem_zipIdx_iff_getElem?]
      exact List.getElem?_eq_getElem hi
    obtain ⟨e, w', hrun⟩ := (Call.Calm.forEach fun b _ => calm_deleteRound env b).fails
      (fun _ w' => Call.forEach_not_ok (deleteRound_fails hfails) hmem w₁ w')
    have hrooms := Call.Within.forEach SameRooms.refl SameRooms.trans
      (fun b (_ : b ∈ rounds.zipIdx) => sameRooms_deleteRound env b) w₁
    rw [hrun] at hrooms
    exact Or.inr ⟨fun hall => hrounds hall.2.1, e, w', Call.bind_err hrun _, hrooms⟩
  obtain ⟨w₂, hloop, hrooms, hrows⟩ := deleteRounds_run (l := rounds.zipIdx)
    (fun b hb => hrounds b.2 (List.snd_lt_of_mem_zipIdx hb)) w₁
  rw [Call.bind_ok hloop] at hsame ⊢
  cases hdelete : env.fails .deleteRoom with
  | true => exact Or.inr ⟨fun hall => by simp [hall.2.2] at hdelete, _, w₂, rfl, hrooms⟩
  | false =>
    -- None of the room's rounds is left, so nothing forbids to delete the row.
    have hnone : ∀ r ∈ w₂.db.rounds.rows, r.roomID ≠ room.id := by
      intro r hr hroom
      obtain ⟨hold, hne⟩ := hrows r hr
      obtain ⟨i, hi, hget⟩ := List.getElem_of_mem (h r hold hroom)
      refine hne (r, i) ?_ rfl
      rw [List.mem_zipIdx_iff_getElem?, ← hget]
      exact List.getElem?_eq_getElem hi
    have hfree := DB.roomInUse_eq_false hnone
    rw [hdelete] at hsame
    rw [Call.io_false, Call.run_read_bind, hfree] at hsame ⊢
    refine Or.inl ⟨⟨hdel, hrounds, hdelete⟩, _, rfl, ?_, ?_⟩
    · refine List.find?_eq_none.mpr fun r hr hid => ?_
      exact of_decide_eq_true (List.mem_filter.mp hr).2 (of_decide_eq_true hid)
    · refine SortedSet.members_eq_nil.mpr ((congrFun hsame.joinTimestamp room.id).trans ?_)
      exact Function.update_self _ _ _

end Delete

/-! ## Leaving -/

/-- The state in which a user was taken out of a room. -/
def World.left (env : Env) (roomID : RoomID) (userID : AuthID) (w : World) : World :=
  { w with
    redis := { w.redis with
      joinTimestamp := Function.update w.redis.joinTimestamp roomID
        ((w.redis.joinTimestamp roomID).remove userID)
      activeRoom := if env.fails .delActiveRoom then w.redis.activeRoom
        else Function.update w.redis.activeRoom userID none } }

section Leave

variable {env : Env} {roomID : RoomID} {userID : AuthID} {room : Room} {rounds : List Round}
  {w : World}

/-- A user is taken out of a room; one that was not a member is refused after that. -/
theorem removeJoinMember_run (h : env.fails .zremJoin = false) (roomID : RoomID)
    (userID : AuthID) (w : World) :
    (removeJoinMember env roomID userID).run w =
      (if (w.redis.joinTimestamp roomID).contains userID then .ok ()
        else .err (.value ⟨400, "Are you in this room?"⟩), w.left env roomID userID) := by
  let w₁ : World := { w with
    redis := { w.redis with
      joinTimestamp := Function.update w.redis.joinTimestamp roomID
        ((w.redis.joinTimestamp roomID).remove userID) } }
  have hactive : (logged <| .io (env.fails .delActiveRoom) .io <| writeRedis fun r =>
      { r with activeRoom := Function.update r.activeRoom userID none }).run w₁ =
        (.ok (), w.left env roomID userID) := by
    unfold World.left
    cases env.fails .delActiveRoom <;> rfl
  unfold removeJoinMember
  rw [h]
  refine (Call.bind_ok (t := w₁) rfl _).trans ((Call.bind_ok hactive _).trans ?_)
  cases hmember : (w.redis.joinTimestamp roomID).contains userID <;> simp [hmember]

/-- What a request to leave does after the user was taken out of the room. -/
def settleRoom (env : Env) (room : Room) (rounds : List Round) (roomID : RoomID)
    (userID : AuthID) : Service Unit := do
  let users ← findActiveUsers env roomID
  if users = [] then do
    cancelRoomExpiry roomID
    deleteRoom env room rounds
  else replaceAdmin env roomID room userID

/-- How a request to leave ends: it does not reach the members, the user is not a member,
rtc-service does not answer well, or the room is settled. -/
theorem leaveRoom_cases (env : Env) (roomID : RoomID) (userID : AuthID) (w : World) :
    (∃ e, (leaveRoom env roomID userID).run w = (.err e, w) ∧
      ∀ room, Findable env roomID w.db room → env.fails .zremJoin = true) ∨
    ∃ room, Findable env roomID w.db room ∧ env.fails .zremJoin = false ∧
      ((w.redis.joinTimestamp roomID).contains userID = false ∧
          (∃ e, (leaveRoom env roomID userID).run w = (.err e, w.left env roomID userID)) ∨
        (w.redis.joinTimestamp roomID).contains userID = true ∧ ∃ rs,
          (env.reply .leaveRoom ≠ .ok ∧ (leaveRoom env roomID userID).run w =
              (.err internalServerError, (w.left env roomID userID).tell rs) ∨
            env.reply .leaveRoom = .ok ∧ (leaveRoom env roomID userID).run w =
              (settleRoom env room (w.db.roundsOf env.rounds room.id) roomID userID).run
                ((w.left env roomID userID).tell rs))) := by
  unfold leaveRoom
  by_cases hfind : ∃ room, Findable env roomID w.db room
  swap
  · obtain ⟨e, hrun⟩ := findRoomByID_fails fun room h => hfind ⟨room, h⟩
    exact Or.inl ⟨e, Call.bind_err hrun _, fun room h => absurd ⟨room, h⟩ hfind⟩
  obtain ⟨room, hroom⟩ := hfind
  rw [Call.bind_ok (findRoomByID_run hroom)]
  dsimp only
  cases hzrem : env.fails .zremJoin with
  | true =>
    have hrun : (removeJoinMember env roomID userID).run w = (.err .io, w) := by
      unfold removeJoinMember
      rw [hzrem]
      rfl
    exact Or.inl ⟨_, Call.bind_err hrun _, fun _ _ => rfl⟩
  | false =>
    refine Or.inr ⟨room, hroom, rfl, ?_⟩
    have hremove := removeJoinMember_run hzrem roomID userID w
    -- The score goes first; who had none is refused, and his key is gone all the same.
    cases hmember : (w.redis.joinTimestamp roomID).contains userID with
    | false =>
      rw [hmember, if_neg Bool.false_ne_true] at hremove
      exact Or.inl ⟨rfl, _, Call.bind_err hremove _⟩
    | true =>
      rw [hmember, if_pos rfl] at hremove
      obtain ⟨userName, hname⟩ : ∃ userName, (userDisplayName env userID).run
          (w.left env roomID userID) = (.ok userName, w.left env roomID userID) := ⟨_, rfl⟩
      -- Then rtc-service is told, and only its answer lets the room be settled.
      have hannounce := announce_run env .leaveRoom (.leaveRoom userID roomID userName)
        (w.left env roomID userID)
      refine Or.inr ⟨rfl, delivered (env.reply .leaveRoom) (.leaveRoom userID roomID userName), ?_⟩
      rw [Call.bind_ok hremove, Call.bind_ok hname]
      by_cases hreply : env.reply .leaveRoom = .ok
      · rw [if_pos hreply] at hannounce
        exact Or.inr ⟨hreply, Call.bind_ok hannounce _⟩
      · rw [if_neg hreply] at hannounce
        exact Or.inl ⟨hreply, Call.bind_err hannounce _⟩

/-- Handing the room over changes no membership. -/
theorem sameMembers_replaceAdmin (env : Env) (roomID : RoomID) (room : Room) (userID : AuthID) :
    Call.Within SameMembers (replaceAdmin env roomID room userID) := by
  have hsend : ∀ req, Call.Within SameMembers (tryAnnounce env .adminChange req) := by
    intro req w
    unfold tryAnnounce
    rw [logged_sendMessage_run]
    exact ⟨rfl, rfl⟩
  refine Call.Within.ite _ ?_ (Call.Within.pure SameMembers.refl _)
  refine Call.Within.bind SameMembers.trans ?_ fun admin => ?_
  · refine Call.Within.bind SameMembers.trans (Call.Within.io SameMembers.refl _ _
      (Call.Within.read SameMembers.refl _)) fun members => ?_
    cases members with
    | nil => exact Call.Within.fail SameMembers.refl _
    | cons user _ => exact Call.Within.pure SameMembers.refl user
  refine Call.Within.bind SameMembers.trans (Call.Within.io SameMembers.refl _ _
    (Call.Within.write fun _ => ⟨rfl, rfl⟩)) fun _ => ?_
  exact Call.Within.bind SameMembers.trans (Call.Within.read SameMembers.refl _) fun name =>
    hsend _

/-- The state with the expiry of a room cancelled. -/
def World.keptOpen (roomID : RoomID) (w : World) : World :=
  { w with expiryTasks := w.expiryTasks.filter (· ≠ roomID) }

/-- How a room is settled: an empty one is deleted, and another one gets a new admin if it must. -/
theorem settleRoom_cases (env : Env) (room : Room) (rounds : List Round) (roomID : RoomID)
    (userID : AuthID) (w : World) :
    (env.fails .zrangeJoin = true ∧
      (settleRoom env room rounds roomID userID).run w = (.err .io, w)) ∨
    env.fails .zrangeJoin = false ∧
      (w.members roomID = [] ∧ (settleRoom env room rounds roomID userID).run w =
          (deleteRoom env room rounds).run (w.keptOpen roomID) ∨
        w.members roomID ≠ [] ∧ (settleRoom env room rounds roomID userID).run w =
          (replaceAdmin env roomID room userID).run w) := by
  unfold settleRoom
  cases hrange : env.fails .zrangeJoin with
  | true =>
    exact Or.inl ⟨rfl, Call.bind_err (findActiveUsers_fails hrange roomID w) _⟩
  | false =>
    refine Or.inr ⟨rfl, ?_⟩
    rw [Call.bind_ok (findActiveUsers_run hrange roomID w)]
    by_cases hempty : w.members roomID = []
    · rw [if_pos hempty]
      exact Or.inl ⟨hempty, rfl⟩
    · rw [if_neg hempty]
      exact Or.inr ⟨hempty, rfl⟩

/-- Who empties a room without members takes nobody out. -/
theorem sameMembers_emptied (env : Env) (hempty : w.members roomID = []) :
    SameMembers w (w.emptied env roomID) := by
  have hnobody : w.membersToForget env roomID = [] := by
    unfold World.membersToForget
    rw [hempty, ite_self]
    rfl
  refine ⟨Function.update_eq_self_iff.mpr (SortedSet.members_eq_nil.mp hempty).symm, ?_⟩
  show (fun u => if forgotten env (w.membersToForget env roomID) u then none else _) = _
  rw [hnobody]
  rfl

/-- The deletion of a room without members changes no membership. -/
theorem sameMembers_deleteRoom (hempty : w.members room.id = []) :
    SameMembers w ((deleteRoom env room rounds).run w).2 := by
  rcases deleteRoom_members env room rounds w with ⟨-, hdelete⟩ | ⟨-, hsame⟩
  · rw [hdelete]
    exact SameMembers.refl w
  · exact SameMembers.trans _ _ _ (sameMembers_emptied env hempty) hsame

/-- Who leaves is no member any more; the others are. -/
theorem mem_members_left (env : Env) (roomID : RoomID) (userID : AuthID) (w : World)
    (user : AuthID) :
    user ∈ (w.left env roomID userID).members roomID ↔ user ∈ w.members roomID ∧ user ≠ userID := by
  unfold World.members
  rw [SortedSet.mem_members, SortedSet.mem_members]
  show (Function.update w.redis.joinTimestamp roomID _ roomID).contains user = true ↔ _
  rw [Function.update_self, SortedSet.contains_remove, Bool.and_eq_true, decide_eq_true_eq,
    and_comm]

/-- Nobody is left exactly when the only member leaves. -/
theorem members_left_eq_nil (hmember : w.isMember roomID userID) :
    (w.left env roomID userID).members roomID = [] ↔ w.members roomID = [userID] := by
  constructor
  · intro hempty
    have hremoved : ((w.redis.joinTimestamp roomID).remove userID).members = [] := by
      rw [← hempty]
      show _ = (Function.update w.redis.joinTimestamp roomID _ roomID).members
      rw [Function.update_self]
    exact SortedSet.members_eq_singleton hmember hremoved
  · intro halone
    refine List.eq_nil_iff_forall_not_mem.mpr fun user huser => ?_
    obtain ⟨hold, hne⟩ := (mem_members_left env roomID userID w user).mp huser
    rw [halone] at hold
    exact hne (List.mem_singleton.mp hold)

/-- The only member under the text of the request leaves, and the request gets as far as to see that
nobody is left. -/
structure LeavesNobody (env : Env) (roomID : RoomID) (userID : AuthID) (w : World) : Prop where
  alone : w.members roomID = [userID]
  reply : env.reply .leaveRoom = .ok
  zrangeJoin : env.fails .zrangeJoin = false

/-- The room that the request deletes has its members under another text than the request's, the id
of the room, and they are taken out with it. -/
structure EmptiesById (env : Env) (roomID : RoomID) (userID : AuthID) (room : Room) (w : World) :
    Prop extends LeavesNobody env roomID userID w where
  other : room.id ≠ roomID
  delJoin : env.fails .delJoin = false

/-- The only member is a member. -/
theorem LeavesNobody.member (h : LeavesNobody env roomID userID w) : w.isMember roomID userID := by
  have hmem : userID ∈ w.members roomID := by
    rw [h.alone]
    exact List.mem_singleton_self userID
  rwa [World.members, SortedSet.mem_members] at hmem

/-- A request to leave takes the user out of the members under its text, if it comes so far. When it
deletes a room that has its members under another text it takes out these too. -/
theorem leaveRoom_members (env : Env) (roomID : RoomID) (userID : AuthID) (w : World) :
    (((leaveRoom env roomID userID).run w).2 = w ∧
      ∀ room, Findable env roomID w.db room → env.fails .zremJoin = true) ∨
    ∃ room, Findable env roomID w.db room ∧ env.fails .zremJoin = false ∧
      (¬ EmptiesById env roomID userID room w ∧
          SameMembers (w.left env roomID userID) ((leaveRoom env roomID userID).run w).2 ∨
        EmptiesById env roomID userID room w ∧
          SameMembers ((w.left env roomID userID).emptied env room.id)
            ((leaveRoom env roomID userID).run w).2) := by
  rcases leaveRoom_cases env roomID userID w with ⟨e, hrun, hnot⟩ | ⟨room, hroom, hzrem,
    ⟨hmember, e, hrun⟩ | ⟨hmember, rs, ⟨hreply, hrun⟩ | ⟨hreply, hrun⟩⟩⟩
  · rw [hrun]
    exact Or.inl ⟨rfl, hnot⟩
  · rw [hrun]
    refine Or.inr ⟨room, hroom, hzrem, Or.inl ⟨fun h => ?_, SameMembers.refl _⟩⟩
    exact Bool.false_ne_true (hmember.symm.trans h.member)
  · rw [hrun]
    exact Or.inr ⟨room, hroom, hzrem, Or.inl ⟨fun h => hreply h.reply, rfl, rfl⟩⟩
  rw [hrun]
  refine Or.inr ⟨room, hroom, hzrem, ?_⟩
  -- The room is settled: only when nobody is left under the text it is deleted.
  rcases settleRoom_cases env room (w.db.roundsOf env.rounds room.id) roomID userID
    ((w.left env roomID userID).tell rs) with ⟨hrange, hsettle⟩ |
      ⟨hrange, ⟨hempty, hsettle⟩ | ⟨hempty, hsettle⟩⟩
  · rw [hsettle]
    refine Or.inl ⟨fun h => ?_, rfl, rfl⟩
    exact Bool.false_ne_true (h.zrangeJoin.symm.trans hrange)
  · rw [hsettle]
    have hnobody : LeavesNobody env roomID userID w :=
      ⟨(members_left_eq_nil hmember).mp hempty, hreply, hrange⟩
    rcases deleteRoom_members env room (w.db.roundsOf env.rounds room.id)
      (((w.left env roomID userID).tell rs).keptOpen roomID) with ⟨hdel, hdelete⟩ | ⟨hdel, hsame⟩
    · rw [hdelete]
      refine Or.inl ⟨fun h => ?_, rfl, rfl⟩
      exact Bool.false_ne_true (h.delJoin.symm.trans hdel)
    have hemptied : SameMembers ((w.left env roomID userID).emptied env room.id)
        ((deleteRoom env room (w.db.roundsOf env.rounds room.id)).run
          (((w.left env roomID userID).tell rs).keptOpen roomID)).2 :=
      ⟨hsame.joinTimestamp, hsame.activeRoom⟩
    by_cases hid : room.id = roomID
    · refine Or.inl ⟨fun h => h.other hid, SameMembers.trans _ _ _ (sameMembers_emptied env ?_) hemptied⟩
      rw [hid]
      exact hempty
    · exact Or.inr ⟨⟨hnobody, hid, hdel⟩, hemptied⟩
  · rw [hsettle]
    have hsame := sameMembers_replaceAdmin env roomID room userID
      ((w.left env roomID userID).tell rs)
    refine Or.inl ⟨fun h => hempty ?_, hsame.joinTimestamp, hsame.activeRoom⟩
    exact (members_left_eq_nil hmember).mpr h.alone

/-- When a room expires it loses its members, unless that fails or the room is not found. -/
theorem expireRoom_members (env : Env) (roomID : RoomID) (w : World) :
    (((expireRoom env roomID).run w).2 = w ∧
      ∀ room, Findable env roomID w.db room → env.fails .delJoin = true) ∨
    ∃ room, Findable env roomID w.db room ∧ env.fails .delJoin = false ∧
      SameMembers (w.emptied env room.id) ((expireRoom env roomID).run w).2 := by
  unfold expireRoom
  by_cases hfind : ∃ room, Findable env roomID w.db room
  swap
  · obtain ⟨e, hrun⟩ := findRoomByID_fails fun room h => hfind ⟨room, h⟩
    rw [Call.attempt_err hrun]
    exact Or.inl ⟨rfl, fun room h => absurd ⟨room, h⟩ hfind⟩
  obtain ⟨room, hroom⟩ := hfind
  rw [Call.attempt_ok (findRoomByID_run hroom)]
  -- Telling rtc-service comes last, and leaves the members.
  have htell : ∀ w',
      SameMembers w' ((tryAnnounce env .roomExpired (.roomExpired roomID)).run w').2 := by
    intro w'
    unfold tryAnnounce
    rw [logged_sendMessage_run]
    exact ⟨rfl, rfl⟩
  dsimp only
  rcases deleteRoom_members env room (w.db.roundsOf env.rounds room.id) w with ⟨hdel, hrun⟩ |
    ⟨hdel, hsame⟩
  · rw [Call.bind_err hrun]
    exact Or.inl ⟨rfl, fun _ _ => hdel⟩
  · refine Or.inr ⟨room, hroom, hdel, ?_⟩
    rw [Call.run_bind]
    rcases hrun : (deleteRoom env room (w.db.roundsOf env.rounds room.id)).run w with ⟨_ | _ | _, w'⟩
    · rw [hrun] at hsame
      exact SameMembers.trans _ _ _ hsame (htell w')
    · rwa [hrun] at hsame
    · rwa [hrun] at hsame

end Leave

end Bsg.Central
