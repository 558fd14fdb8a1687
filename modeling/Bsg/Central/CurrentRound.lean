import Bsg.Central.RoundSteps

/-!
# The current round of a room

While a round of a room is started, a joining user should be enrolled in it, a submission should go
to it, the leaderboard should be its leaderboard, and the details should be its details (`Current`).
The code looks for that round in different places: the last of the room's rounds, in whatever order
the database returns them, or a key in Redis. `agree_iff_onlyRound` shows that they all find the
started round exactly when it is the only round that the room ever had, and the key names it
(`OnlyRound`); `agree_iff` says which requests keep it so.
-/

namespace Bsg.Central

open Bsg.Foundations

/-- Every operation on the room's current round takes this one, in whatever order the rounds
come. -/
structure Current (roomID : RoomID) (round : Round) (w : World) : Prop where
  joins : ∀ env userID room w', (joinRoom env roomID userID).run w = (.ok room, w') →
    ∃ p ∈ w'.db.participants.rows, p ∉ w.db.participants.rows ∧
      p.participantAuthID = userID ∧ p.roundID = round.id
  submits : ∀ env params userID room, Findable env roomID w.db room →
    (createRoomSubmission env roomID params userID).run w =
      (createRoundSubmission env { params with roundID := round.id } userID).run w
  reads : ∀ env, env.fails .getMostRecentRound = false →
    (getLeaderboardByRoomID env roomID).run w =
      (getLeaderboardByRoundID env round.id >>= fun entries => pure (entries, round.id)).run w
  describes : ∀ env details, ((getRoundDetails env roomID).run w).1 = .ok details →
    details.roundID = round.id

/-- In a room that can be found, each started round is the current one for all operations. -/
def Agree (roomID : RoomID) (w : World) : Prop :=
  ∀ env room, Findable env roomID w.db room → ∀ round ∈ w.roundsIn roomID,
    round.status = .started → Current roomID round w

/-- The room has no other round, and the key of its most recent round names this one. -/
def OnlyRound (roomID : RoomID) (round : Round) (w : World) : Prop :=
  w.roundsIn roomID = [round] ∧ w.redis.mostRecentRound roomID = some round.id

/-- What a request must heed for the operations to agree: a round is created only while none is
started, and started only when it is the only one. -/
def KeepsAgreement (roomID : RoomID) (w : World) (e : Env × RoomEvent) : Prop :=
  match e.2 with
  | .createRound maxNumRoundsPerRoom _ _ => Admitted e.1 maxNumRoundsPerRoom roomID w.db →
    ∀ round ∈ w.roundsIn roomID, round.status ≠ .started
  | .startRound _ userID =>
    ∀ round, w.db.chosenRound e.1 roomID userID .created = some round →
      e.1.fails .zrangeJoin = false → Startable e.1 round w → OnlyRound roomID round w
  | _ => True

/-- The event is a request to create, to start or to end a round of the room. -/
def RoomEvent.isRoundOf (roomID : RoomID) : RoomEvent → Bool
  | .createRound _ _ r | .startRound r _ | .endRound r _ => decide (r = roomID)
  | _ => false

section Agreement

variable {roomID : RoomID} {round : Round} {w w' : World}

/-- The order in which the rounds come backwards. -/
def reversed : Arrangement Round := ⟨List.reverse, List.reverse_perm⟩

/-- When the first and the last of a list without repetition are the same, there is no other. -/
theorem eq_singleton_of_ends {l : List Round} (hnodup : l.Nodup) (hlast : l.getLast? = some round)
    (hfirst : l.head? = some round) : l = [round] := by
  cases l with
  | nil => simp at hfirst
  | cons r rest =>
    obtain rfl : r = round := by simpa using hfirst
    cases hrest : rest with
    | nil => rfl
    | cons r' rest' =>
      rw [hrest, List.getLast?_cons_cons] at hlast
      have hmem : r ∈ r' :: rest' := List.mem_of_getLast? hlast
      rw [hrest] at hnodup
      exact absurd hmem (List.nodup_cons.mp hnodup).1

/-- The details are those of the last round, in whatever order the rounds come. -/
theorem getRoundDetails_run {env : Env} {room : Room} (h : Findable env roomID w.db room)
    (hset : env.fails .findProblemSet = false) (hsolved : env.fails .findSolved = false)
    (hlast : (w.db.roundsOf env.rounds room.id).getLast? = some round) :
    ∃ details, ((getRoundDetails env roomID).run w).1 = .ok details ∧
      details.roundID = round.id := by
  unfold getRoundDetails
  rw [Call.bind_ok (findRoomByID_run h)]
  dsimp only
  rw [hlast, hset, hsolved]
  exact ⟨_, rfl, rfl⟩

/-- The leaderboard that is read is that of the round which the key names. -/
theorem getLeaderboardByRoomID_run {env : Env} (h : env.fails .getMostRecentRound = false)
    {roundID : ℕ} (hkey : w.redis.mostRecentRound roomID = some roundID) :
    (getLeaderboardByRoomID env roomID).run w =
      (getLeaderboardByRoundID env roundID >>= fun entries => pure (entries, roundID)).run w := by
  unfold getLeaderboardByRoomID
  rw [h, Call.io_false, Call.run_read_bind, hkey]

/-- A round on which all operations agree is the only one. -/
theorem Current.onlyRound {room : Room} (hstored : w.db.roomByID roomID = some room)
    (hround : round ∈ w.roundsIn roomID) (hcurrent : Current roomID round w) :
    OnlyRound roomID round w := by
  -- In whatever order the rounds come, the last one is described, so it is this one.
  have hlast : ∀ a : Arrangement Round, (a.order (w.roundsIn roomID)).getLast? = some round := by
    intro a
    let env' : Env := { Env.faultless 0 with rounds := a }
    have hfind : Findable env' roomID w.db room := .of_roomByID rfl hstored
    have hset : env'.fails .findProblemSet = false := rfl
    cases hget : (a.order (w.roundsIn roomID)).getLast? with
    | none =>
      have hempty := List.getLast?_eq_none_iff.mp hget
      have hmem := a.mem_order.mpr hround
      rw [hempty] at hmem
      cases hmem
    | some r =>
      rw [← id_of_roomByID hstored] at hget
      obtain ⟨details, hdetails, hid⟩ := getRoundDetails_run hfind hset rfl hget
      rw [id_of_roomByID hstored] at hget
      have hmem : r ∈ w.roundsIn roomID := a.mem_order.mp (List.mem_of_getLast? hget)
      rw [eq_of_mem_roundsIn hmem hround (hid.symm.trans (hcurrent.describes env' details hdetails))]
  constructor
  · refine eq_singleton_of_ends (roundsIn_nodup w roomID) (hlast (.inserted Round)) ?_
    have hback := hlast reversed
    rwa [show reversed.order (w.roundsIn roomID) = (w.roundsIn roomID).reverse from rfl,
      List.getLast?_reverse] at hback
  · have hreads := hcurrent.reads (Env.faultless 0) rfl
    cases hkey : w.redis.mostRecentRound roomID with
    | none =>
      unfold getLeaderboardByRoomID at hreads
      rw [show (Env.faultless 0).fails .getMostRecentRound = false from rfl, Call.io_false,
        Call.run_read_bind, hkey] at hreads
      cases congrArg Prod.fst hreads
    | some roundID =>
      rw [getLeaderboardByRoomID_run rfl hkey] at hreads
      have hid : (Outcome.ok ((w.redis.leaderboard roundID).range.reverse, roundID) :
          Outcome GoError _) = .ok ((w.redis.leaderboard round.id).range.reverse, round.id) :=
        congrArg Prod.fst hreads
      exact congrArg (fun o => o.ok?.map Prod.snd) hid

/-- However the rounds of a room are loaded, its only round is all of them. -/
theorem roundsOf_eq_singleton (h : w.roundsIn roomID = [round]) (a : Arrangement Round) :
    w.db.roundsOf a roomID = [round] := by
  rw [roundsOf_eq, h]
  exact List.perm_singleton.mp (a.perm [round])

/-- Whoever joins a room whose only round is running gets a row of his own in that round. -/
theorem joinRoom_enrols {env : Env} {userID : AuthID} {result : Room} {w' : World}
    (hid : isUUID roomID = true) (hstarted : round.status = .started) (honly : w.roundsIn roomID = [round])
    (hrun : (joinRoom env roomID userID).run w = (.ok result, w')) :
    ∃ p ∈ w'.db.participants.rows, p ∉ w.db.participants.rows ∧ p.participantAuthID = userID ∧
      p.roundID = round.id := by
  rcases joinRoom_cases env roomID userID w with ⟨e, hfails, -⟩ | ⟨room, hroom, -,
    ⟨-, hfails⟩ | ⟨-, o, rs, hjoins, ⟨rfl, henter⟩ | ⟨rfl | rfl, -⟩⟩⟩
  · rw [hfails] at hrun
    cases hrun
  · rw [hfails] at hrun
    cases hrun
  · rw [hroom.id_eq hid, roundsOf_eq_singleton honly] at hjoins henter
    have hrunning : runningRound [round] = some round := by
      rw [runningRound, List.getLast?_singleton, Option.filter_some,
        if_pos (decide_eq_true hstarted)]
    let p := newParticipant userID round.id (w.db.participants.fresh (env.participantHint 0))
    have hrows : w'.db.participants.rows = w.db.participants.rows ++ [p] := by
      rw [hjoins] at hrun
      cases hrun
      unfold World.entered
      rw [hrunning]
      dsimp only
      rw [if_pos ⟨henter.1, (henter.2 round hrunning).1⟩]
      rfl
    -- The row that the user gets has a key of its own.
    refine ⟨p, ?_, fun hold => ?_, rfl, rfl⟩
    · rw [hrows]
      exact List.mem_append_right _ (List.mem_singleton_self p)
    · exact w.db.participants.fresh_not_mem (env.participantHint 0)
        (List.mem_map.mpr ⟨p, hold, rfl⟩)
  · rw [hjoins] at hrun
    cases hrun
  · rw [hjoins] at hrun
    cases hrun

/-- Details that are returned are those of the last round. -/
theorem getRoundDetails_roundID {env : Env} {details : RoundDetailsResponse}
    (hid : isUUID roomID = true) (hlast : (w.db.roundsOf env.rounds roomID).getLast? = some round)
    (hrun : ((getRoundDetails env roomID).run w).1 = .ok details) : details.roundID = round.id := by
  by_cases hfind : ∃ room, Findable env roomID w.db room
  swap
  · obtain ⟨e, hfails⟩ := findRoomByID_fails fun room h => hfind ⟨room, h⟩
    unfold getRoundDetails at hrun
    rw [Call.bind_err hfails] at hrun
    cases hrun
  obtain ⟨room, hroom⟩ := hfind
  rw [← hroom.id_eq hid] at hlast
  -- Details are answered only when both lookups behind the room succeed.
  cases hset : env.fails .findProblemSet with
  | true =>
    unfold getRoundDetails at hrun
    rw [Call.bind_ok (findRoomByID_run hroom)] at hrun
    dsimp only at hrun
    rw [hlast, hset] at hrun
    cases hrun
  | false =>
    cases hsolved : env.fails .findSolved with
    | true =>
      unfold getRoundDetails at hrun
      rw [Call.bind_ok (findRoomByID_run hroom)] at hrun
      dsimp only at hrun
      rw [hlast, hset, hsolved] at hrun
      cases hrun
    | false =>
      obtain ⟨details', hdetails, hid⟩ := getRoundDetails_run hroom hset hsolved hlast
      rw [Outcome.ok.inj (hrun.symm.trans hdetails), hid]

/-- The only round of a room is the current one for all operations. -/
theorem OnlyRound.current (hid : isUUID roomID = true) (hstarted : round.status = .started)
    (h : OnlyRound roomID round w) : Current roomID round w := by
  have hlast : ∀ env : Env, (w.db.roundsOf env.rounds roomID).getLast? = some round := by
    intro env
    rw [roundsOf_eq_singleton h.1]
    rfl
  refine ⟨fun env userID room w' hrun => joinRoom_enrols hid hstarted h.1 hrun,
    fun env params userID room hroom => ?_, fun env hget => getLeaderboardByRoomID_run hget h.2,
    fun env details hrun => getRoundDetails_roundID hid (hlast env) hrun⟩
  unfold createRoomSubmission
  rw [Call.bind_ok (findRoomByID_run hroom)]
  dsimp only
  rw [hroom.id_eq hid, hlast]

/-- The operations agree exactly when each started round of a room that can be found is the only
one. -/
theorem agree_iff_onlyRound {room : Room} (hstored : w.db.roomByID roomID = some room) :
    Agree roomID w ↔ ∀ round ∈ w.roundsIn roomID, round.status = .started →
      OnlyRound roomID round w := by
  constructor
  · intro hagree round hround hstarted
    have hfound : Findable (Env.faultless 0) roomID w.db room := .of_roomByID rfl hstored
    exact (hagree _ room hfound round hround hstarted).onlyRound hstored hround
  · intro honly _ _ _ round hround hstarted
    exact (honly round hround hstarted).current (isUUID_of_roomByID hstored) hstarted

/-- In a room without a started round there is nothing to agree on. -/
theorem agree_of_none (h : ∀ round ∈ w.roundsIn roomID, round.status ≠ .started) :
    Agree roomID w := fun _ _ _ round hround hstarted => absurd hstarted (h round hround)

/-- Creating a round keeps the agreement exactly when none is started. -/
theorem agree_createRound {room : Room} (hstored : w.db.roomByID roomID = some room)
    (hagree : Agree roomID w) (env : Env)
    (maxNumRoundsPerRoom : ℤ) (params : RoundCreationParameters) :
    Agree roomID ((createRound env maxNumRoundsPerRoom params roomID).run w).2 ↔
      (Admitted env maxNumRoundsPerRoom roomID w.db →
        ∀ round ∈ w.roundsIn roomID, round.status ≠ .started) := by
  have hid := isUUID_of_roomByID hstored
  have hloaded : w.db.roundsOf env.rounds roomID = [] → w.roundsIn roomID = [] := by
    rw [roundsOf_eq]
    intro hnil
    exact List.Perm.nil_eq (hnil ▸ env.rounds.perm (w.roundsIn roomID)) |>.symm
  rcases createRound_cases env maxNumRoundsPerRoom params roomID w with
    ⟨hrefused, e, w', hrun, hw'⟩ | ⟨hadmitted, found, hfound, w₁, hinserts, hend⟩
  · rw [hrun]
    refine iff_of_true ?_ fun h => absurd h hrefused
    -- Nothing was stored; at most a room without rounds was cleaned up.
    rcases hw' with rfl | ⟨⟨found, hfound, hempty⟩, hshrinks⟩
    · exact hagree
    · rw [hfound.id_eq hid] at hempty
      have hsub := hshrinks.roundsIn roomID
      rw [hloaded hempty, List.sublist_nil] at hsub
      exact agree_of_none (by simp [hsub])
  · rw [hfound.id_eq hid] at hinserts hend
    have hnew := hinserts.roundsIn
    by_cases hstarted : ∃ round ∈ w.roundsIn roomID, round.status = .started
    · -- The started round is not the only one any more, and the room is not cleaned up.
      obtain ⟨round, hround, hstatus⟩ := hstarted
      have hstored₁ : w₁.db.roomByID roomID = some room := by
        unfold DB.roomByID
        rw [hinserts.db]
        exact hstored
      have hnot : ¬ Agree roomID w₁ := by
        intro h
        have honly := ((agree_iff_onlyRound hstored₁).mp h round
          (by rw [hnew]; exact List.mem_append_left _ hround) hstatus).1
        rw [hnew] at honly
        have hlength := congrArg List.length honly
        have hpos := List.length_pos_of_mem hround
        rw [List.length_append, List.length_singleton, List.length_singleton] at hlength
        omega
      have hfull : w.db.roundsOf env.rounds roomID ≠ [] := by
        intro hempty
        rw [hloaded hempty] at hround
        cases hround
      refine iff_of_false ?_ fun h => h hadmitted round hround hstatus
      rcases hend with ⟨-, r, hrun⟩ | ⟨-, e, w₂, hrun, rfl | ⟨hempty, -⟩⟩
      · rwa [hrun]
      · rwa [hrun]
      · exact absurd hempty hfull
    · -- No round is started, so there is nothing to agree on, wherever the creation stops.
      push Not at hstarted
      have hnone : ∀ round ∈ w₁.roundsIn roomID, round.status ≠ .started := by
        intro round hround
        rw [hnew, List.mem_append, List.mem_singleton] at hround
        rcases hround with hround | rfl
        · exact hstarted round hround
        · simp [newRound]
      refine iff_of_true ?_ fun _ => hstarted
      rcases hend with ⟨-, r, hrun⟩ | ⟨-, e, w₂, hrun, rfl | ⟨-, hshrinks⟩⟩
      · rw [hrun]
        exact agree_of_none hnone
      · rw [hrun]
        exact agree_of_none hnone
      · rw [hrun]
        exact agree_of_none fun round hround => hnone round ((hshrinks.roundsIn roomID).mem hround)

/-- Starting a round keeps the agreement exactly when it is the only one. -/
theorem agree_startRound {room : Room} (hstored : w.db.roomByID roomID = some room)
    (hagree : Agree roomID w) (env : Env)
    (userID : AuthID) :
    Agree roomID ((startRoundByRoomID env roomID userID).run w).2 ↔
      ∀ round, w.db.chosenRound env roomID userID .created = some round →
        env.fails .zrangeJoin = false → Startable env round w → OnlyRound roomID round w := by
  have hkeeps := keeps_startRoundByRoomID env roomID userID w
  rcases startRoundByRoomID_cases env roomID userID w with ⟨o, hrun, hnot⟩ |
    ⟨round, hchosen, hrange, hstart, o, w', hrun, hstarts⟩
  · rw [hrun]
    refine iff_of_true hagree fun round hchosen hrange hstart => ?_
    rcases hnot round hchosen with hbad | hbad
    · rw [hbad] at hrange
      cases hrange
    · exact absurd hstart hbad
  · rw [hrun] at hkeeps ⊢
    have hdirectory : w'.directory = w.directory := hkeeps
    -- The room and its key are as before the start.
    have hstored' : w'.db.roomByID roomID = some room := by
      unfold DB.roomByID
      rw [show w'.db.rooms = w.db.rooms from congrArg Prod.fst hdirectory]
      exact hstored
    have hkey : w'.redis.mostRecentRound roomID = w.redis.mostRecentRound roomID :=
      congrFun (congrArg Prod.snd hdirectory) roomID
    have hid := isUUID_of_roomByID hstored
    have hround : round ∈ w.roundsIn roomID :=
      mem_roundsIn.mpr ⟨(mem_of_chosenRound hchosen).1.1, roomID_of_chosenRound hid hchosen⟩
    have hrounds := hstarts.roundsIn roomID
    -- The started round is the only one exactly when it was.
    have honly : OnlyRound roomID (round.start env.now) w' ↔ OnlyRound roomID round w := by
      unfold OnlyRound
      rw [hkey, hrounds, show (round.start env.now).id = round.id from rfl]
      refine and_congr_left fun _ => ⟨fun hone => ?_, fun hone => ?_⟩
      · obtain ⟨r, hr⟩ := List.length_eq_one_iff.mp
          ((List.length_map _).symm.trans (congrArg List.length hone))
        rw [hr, List.mem_singleton] at hround
        rw [hr, hround]
      · rw [hone, List.map_singleton, if_pos rfl]
    have hmem : round.start env.now ∈ w'.roundsIn roomID := by
      rw [hrounds]
      exact List.mem_map.mpr ⟨round, hround, if_pos rfl⟩
    rw [agree_iff_onlyRound hstored']
    constructor
    · intro h round' hchosen' _ _
      obtain rfl : round = round' := Option.some.inj (hchosen.symm.trans hchosen')
      exact honly.mp (h _ hmem rfl)
    · intro h round' hround' _
      have hone := honly.mpr (h round hchosen hrange hstart)
      have hsame : round' = round.start env.now := by
        rw [hone.1, List.mem_singleton] at hround'
        exact hround'
      rwa [hsame]

/-- Ending a round keeps the agreement: the one that ends was the only one. -/
theorem agree_endRound {room : Room} (hstored : w.db.roomByID roomID = some room)
    (hagree : Agree roomID w) (env : Env)
    (userID : AuthID) : Agree roomID ((endRoundByRoomID env roomID userID).run w).2 := by
  rcases endRoundByRoomID_cases env roomID userID w with ⟨o, hrun, -⟩ |
    ⟨round, hchosen, -, hrun⟩
  · rw [hrun]
    exact hagree
  · rw [hrun]
    obtain ⟨⟨hmem, -⟩, hstarted⟩ := mem_of_chosenRound hchosen
    have hof := roomID_of_chosenRound (isUUID_of_roomByID hstored) hchosen
    have hone := ((agree_iff_onlyRound hstored).mp hagree round (mem_roundsIn.mpr ⟨hmem, hof⟩)
      hstarted).1
    refine agree_of_none fun r hr => ?_
    rw [roundsIn_finished, hone, List.map_singleton, if_pos rfl, List.mem_singleton] at hr
    rw [hr]
    simp [Round.finish]

/-- A request in a room that cannot be found changes nothing. -/
theorem serve_of_not_findable (h : ∀ env room, ¬ Findable env roomID w.db room)
    (e : Env × RoomEvent) (hkind : e.2.isRoundOf roomID = true) : w.serve e = w := by
  obtain ⟨env, event⟩ := e
  cases event with
  | createRound maxNumRoundsPerRoom params r =>
    obtain rfl : r = roomID := of_decide_eq_true hkind
    -- Each of the three requests looks the room up first.
    obtain ⟨e, hrun⟩ := findRoomByID_fails (h env)
    show ((createRound env maxNumRoundsPerRoom params r).run w).2 = w
    unfold createRound
    rw [Call.bind_err hrun]
  | startRound r userID =>
    obtain rfl : r = roomID := of_decide_eq_true hkind
    show ((startRoundByRoomID env r userID).run w).2 = w
    rcases startRoundByRoomID_cases env r userID w with ⟨o, hrun, -⟩ | ⟨round, hchosen, -⟩
    · rw [hrun]
    · obtain ⟨room, hroom, -⟩ := chosenRound_eq_some.mp hchosen
      exact absurd hroom (h env room)
  | endRound r userID =>
    obtain rfl : r = roomID := of_decide_eq_true hkind
    show ((endRoundByRoomID env r userID).run w).2 = w
    rcases endRoundByRoomID_cases env r userID w with ⟨o, hrun, -⟩ | ⟨round, hchosen, -⟩
    · rw [hrun]
    · obtain ⟨room, hroom, -⟩ := chosenRound_eq_some.mp hchosen
      exact absurd hroom (h env room)
  | _ => cases hkind

/-- A request keeps the agreement exactly when it heeds what it must. -/
theorem agree_serve (hid : isUUID roomID = true) (e : Env × RoomEvent)
    (hkind : e.2.isRoundOf roomID = true) (hagree : Agree roomID w) :
    Agree roomID (w.serve e) ↔ KeepsAgreement roomID w e := by
  by_cases hfound : ∃ env room, Findable env roomID w.db room
  · obtain ⟨_, room, hroom⟩ := hfound
    have hstored := hroom.roomByID hid
    obtain ⟨env, event⟩ := e
    cases event with
    | createRound maxNumRoundsPerRoom params r =>
      obtain rfl : r = roomID := of_decide_eq_true hkind
      exact agree_createRound hstored hagree env maxNumRoundsPerRoom params
    | startRound r userID =>
      obtain rfl : r = roomID := of_decide_eq_true hkind
      exact agree_startRound hstored hagree env userID
    | endRound r userID =>
      obtain rfl : r = roomID := of_decide_eq_true hkind
      exact iff_of_true (agree_endRound hstored hagree env userID) trivial
    | _ => cases hkind
  · push Not at hfound
    -- Without the room the requests are refused, and the conditions ask for nothing.
    rw [serve_of_not_findable hfound e hkind]
    refine iff_of_true hagree ?_
    obtain ⟨env, event⟩ := e
    cases event with
    | createRound maxNumRoundsPerRoom params r =>
      rintro ⟨room, hroom, -⟩
      exact absurd hroom (hfound env room)
    | startRound r userID =>
      intro round hchosen
      obtain ⟨room, hroom, -⟩ := chosenRound_eq_some.mp hchosen
      exact absurd hroom (hfound env room)
    | endRound r userID => trivial
    | _ => cases hkind

end Agreement

/-- Along every run of requests to create, to start and to end the rounds of a room, the operations
agree on the started round exactly when every request heeds what it must. -/
theorem agree_iff (roomID : RoomID) (hid : isUUID roomID = true) (w : World)
    (es : List (Env × RoomEvent)) (h : Agree roomID w) (hkind : ∀ e ∈ es, e.2.isRoundOf roomID = true) :
    Throughout World.serve (Agree roomID) w es ↔
      Along World.serve (KeepsAgreement roomID) w es :=
  throughout_iff_along (I := fun _ => True) (fun _ _ _ _ => trivial)
    (fun _ e _ hkind h => agree_serve hid e hkind h) trivial h (Along.of_mem hkind)

/-- The only round of the room is started and ended before the admin creates another one. -/
def oneAfterAnother : List (Env × RoomEvent) :=
  [(Env.faultless 10, .startRound roomOne host), (Env.faultless 20, .endRound roomOne host),
    (Env.faultless 30, .createRound 3 (handPicked [1]) roomOne)]

/-- A second round is created when the first is over. -/
theorem agree_oneAfterAnother : Throughout World.serve (Agree roomOne) .recent oneAfterAnother := by
  refine (agree_iff roomOne isUUID_roomOne .recent oneAfterAnother
    (agree_of_none (by decide +kernel)) (by decide)).mpr ⟨fun round hchosen _ _ => ?_, trivial,
      fun _ => by decide +kernel, trivial⟩
  obtain ⟨⟨hround, -⟩, -⟩ := mem_of_chosenRound hchosen
  obtain rfl := List.mem_singleton.mp hround
  exact ⟨by decide +kernel, by decide +kernel⟩

/-- The admin creates a second round while the first one waits, and starts a round. -/
def startFirstOfTwo : List (Env × RoomEvent) :=
  [(Env.faultless 10, .createRound 3 (handPicked [1]) roomOne),
    (Env.faultless 20, .startRound roomOne host)]

/-- The round of the room is its most recent one. -/
theorem agree_ready : Agree roomOne .ready := agree_of_none (by decide +kernel)

/-- The first round is the one that starts, but it is not the one that the other operations take. -/
theorem not_agree :
    (Agree roomOne .ready ∧ ∀ e ∈ startFirstOfTwo, e.2.isRoundOf roomOne = true) ∧
      ¬ Throughout World.serve (Agree roomOne) .ready startFirstOfTwo := by
  refine ⟨⟨agree_ready, by decide⟩, fun h => ?_⟩
  let last := run World.serve World.ready startFirstOfTwo
  have hstored : last.db.roomByID roomOne = some ⟨roomOne, host, false, isUUID_roomOne⟩ := by
    decide +kernel
  have hround : roundOne.start 20 ∈ last.roundsIn roomOne := by decide +kernel
  have hrounds : (last.roundsIn roomOne).length = 2 := by decide +kernel
  have hcurrent : Current roomOne (roundOne.start 20) last :=
    h.last (Env.faultless 0) _ (.of_roomByID rfl hstored) _ hround rfl
  rw [(hcurrent.onlyRound hstored hround).1] at hrounds
  cases hrounds

end Bsg.Central
