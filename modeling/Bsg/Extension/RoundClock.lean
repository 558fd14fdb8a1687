import Bsg.Extension.Replay

/-!
# The clock of a round

A join of a round carries the start time of the round and the server's clock when it was sent, both
in seconds. The panel takes their difference from its own clock when it reads the message, so that
the clocks of panel and server need not agree. That is right for a message that is read when it was
sent, and as late as the message is otherwise: the room keeps the message and sends it again as it
was (`roundEndTime_iff`).
-/

namespace Bsg.Extension.Panel

open Bsg.Foundations Bsg.Rtc

/-- A join of a round is read at the whole second that rtc-service put into it; `t` is the time of
reading on the server's clock, from which the panel's differs by `skew`. Without a start time thirty
minutes are taken, and without the server's time the two clocks are compared. -/
def ReadInTime (round : Round) (m : Moment) (skew t : ℤ) : Prop :=
  if round.startTime = 0 then t + 30 * 60 * 1000 = round.duration * 60 * 1000
  else if m.unix = 0 then skew = 0
  else t = m.unix * 1000

/-- The time at which a round ends, on a clock that differs from the server's. -/
def roundEnds (round : Round) (skew : ℤ) : ℤ :=
  round.startTime * 1000 + round.duration * 60 * 1000 + skew

/-- The join of a user to a round, as it is sent at a moment. -/
def joinOf (round : Round) (m : Moment) (userID userName : GoText) : Data :=
  .joinRound ⟨userID, userName, round.status, round.startTime, m.unix, round.duration,
    round.problems⟩

/-- The data of a join, when the round has a start time. -/
theorem roundData_joinOf (round : Round) (m : Moment) (userID userName : GoText) :
    roundData (joinOf round m userID userName) = if round.startTime = 0 then none else
      some ⟨round.startTime, m.unix, round.duration, round.problems⟩ := by
  by_cases h : round.startTime = 0 <;> simp [joinOf, roundData, Option.filter, h]

/-- The end time that the panel computes is that of the round exactly when the message is read in
time. -/
theorem endTime_joinOf_iff (round : Round) (m : Moment) (userID userName : GoText) (skew t : ℤ) :
    endTime (t + skew) (roundData (joinOf round m userID userName)) = roundEnds round skew ↔
      ReadInTime round m skew t := by
  unfold ReadInTime roundEnds
  rw [roundData_joinOf]
  by_cases hstart : round.startTime = 0
  · simp only [if_pos hstart, endTime]
    omega
  · simp only [if_neg hstart, endTime]
    by_cases hnow : m.unix = 0
    · rw [if_neg (not_not.mpr hnow), if_pos hnow]
      omega
    · rw [if_pos hnow, if_neg hnow]
      omega

/-! ## The message -/

/-- A join of a round in progress is answered, and the answer is kept. -/
theorem receive_joinRound {s : Server} {roomID : String} (hid : roomID ≠ "") {room : HistoryRoom}
    (hroom : s.rooms roomID = some room) {round : Round} (hround : room.round = some round)
    (m : Moment) (conn : ℕ) (name : GoText) {userID : GoText} (huser : userID ≠ [])
    (userName : GoText) :
    ∃ resp, resp.respStatus = .ok ∧ resp.respType = .roundJoin ∧
      resp.respMessage.data = joinOf round m userID (if userName = [] then userID else userName) ∧
      (∀ d ∈ (s.receive m conn (.request name (.of (.joinRound roomID userID userName)))).2,
        d.response = resp) ∧
      ∃ room', (s.receive m conn (.request name (.of (.joinRound roomID userID userName)))).1.rooms
          roomID = some room' ∧ resp ∈ room'.messages := by
  -- The handler answers with the round that the room has.
  have hhandled : handleRequest m name s.rooms (.of (.joinRound roomID userID userName)) =
      (s.rooms.onRoom roomID fun room => room.onRoom fun r => r.joinRound userID,
        ⟨.roundJoin, roomID, .ok (joinOf round m userID
          (if userName = [] then userID else userName))⟩) := by
    rcases checked_cases "JoinRoundRequest" [("RoomID", roomID ≠ ""), ("UserID", userID ≠ [])]
      .roundJoin roomID s.rooms _ with ⟨-, hnext⟩ | ⟨hmissing, -⟩
    · refine Eq.trans hnext ?_
      simp [roundInfo, joinOf, hroom, hround]
    · simp [hid, huser] at hmissing
  generalize hdata : joinOf round m userID (if userName = [] then userID else userName) = data
    at hhandled ⊢
  obtain ⟨s', hrooms, hreceive⟩ := Server.receive_of_handled hhandled conn
  have hroom' : s'.rooms roomID = some (room.onRoom fun r => r.joinRound userID) := by
    rw [hrooms, Rooms.onRoom_self, hroom, Option.map_some]
  -- The answer goes to the room, which keeps it.
  have haudience : s'.audience .roundJoin data roomID = s'.rooms roomID := if_pos (by
    simp [silentAnnouncement, ResponseType.broadcasts])
  rw [hreceive]
  refine ⟨newOkResponse .roundJoin data roomID, rfl, rfl, rfl, fun d hd => ?_, _,
    Server.rooms_respond (haudience.trans hroom') hroom' rfl (by simp) m conn _,
    HistoryRoom.mem_addMessage_self _ _⟩
  -- Only a join-room is sent a replay.
  obtain ⟨rest, hrespond, hrest⟩ := s'.respond_deliveries m conn "join-round"
    ⟨.roundJoin, roomID, .ok data⟩
  have hd : d ∈ (s'.respond m conn "join-round" ⟨.roundJoin, roomID, .ok data⟩).2 := hd
  rw [hrespond] at hd
  rcases List.mem_append.mp hd with hd | hd
  · simp [Server.replayTo, Except.isOk, Except.toBool] at hd
  · exact (hrest d hd).1

/-! ## The end of the round -/

/-- A user joins a round in progress: the message that is sent, and kept, gives the panel of the
user the end time of the round exactly when it is read in time, however often and late it is sent
again. -/
theorem roundEndTime_iff (es : List ServerEvent) {roomID : String} (hid : roomID ≠ "")
    {room : HistoryRoom} (hroom : (run Server.step .start es).rooms roomID = some room)
    {round : Round} (hround : room.round = some round) (hprogress : round.status = .inProgress)
    (m : Moment) (conn : ℕ) (name : GoText) {userID : GoText} (huser : userID ≠ [])
    (userName : GoText) :
    ∃ resp,
      (∀ d ∈ ((run Server.step .start es).receive m conn
        (.request name (.of (.joinRound roomID userID userName)))).2, d.response = resp) ∧
      (∃ room', ((run Server.step .start es).receive m conn
          (.request name (.of (.joinRound roomID userID userName)))).1.rooms roomID = some room' ∧
        resp ∈ room'.messages) ∧
      ∀ p : Panel, p.userId = userID → p.roomId ≠ none → ∀ skew t : ℤ,
        (p.onMessage (t + skew) resp).roundEndTime = some (roundEnds round skew) ↔
          ReadInTime round m skew t := by
  obtain ⟨resp, hok, htype, hdata, hsent, hkept⟩ :=
    receive_joinRound hid hroom hround m conn name huser userName
  refine ⟨resp, hsent, hkept, fun p hp hin skew t => ?_⟩
  obtain ⟨roomId, hroomId⟩ := Option.ne_none_iff_exists'.mp hin
  have hown : ownRound p.userId resp = true := by
    simp [ownRound, hok, htype, hdata, joinOf, ownJoin, hp, hprogress]
  rw [onMessage_of_ownRound hroomId hown, (applyRoundData_store _ _ _ _).2.2.1, hdata,
    Option.some_inj, endTime_joinOf_iff]

/-! ## A minute later -/

/-- The room and the round of thirty minutes before alice joins it. -/
def openRound : List ServerEvent := finishedRound.take 3

/-- Alice joins the round at second 3, and reads that at once: for her it ends at second 1802. -/
theorem roundEndTime_in_time : ∃ resp,
    (∀ d ∈ ((run Server.step .start openRound).receive (.plain 3000) 0
      (.request centralServiceName (.of (.joinRound "room" (utf8 "alice") [])))).2,
      d.response = resp) ∧
    ((loadedPanel (utf8 "alice")).onMessage (3000 + 0) resp).roundEndTime =
      some (roundEnds ⟨.inProgress, 2, 30, ["two-sum"], []⟩ 0) := by
  obtain ⟨resp, hsent, -, h⟩ := roundEndTime_iff openRound (by decide : "room" ≠ "")
    (Option.some_get (by decide +kernel)).symm
    (by decide +kernel : _ = some ⟨.inProgress, 2, 30, ["two-sum"], []⟩) rfl (.plain 3000) 0
    centralServiceName (by decide : utf8 "alice" ≠ []) []
  exact ⟨resp, hsent, (h (loadedPanel (utf8 "alice")) rfl (by decide) 0 3000).mpr rfl⟩

/-- Alice has joined the round, which started at second 2. -/
def startedRound : List ServerEvent := finishedRound.take 4

/-- What her panel reads when it is loaded again a minute later. -/
def lateReplay : List (ℤ × Response) :=
  readAt 63000 (sentTo 2 ((run Server.step .start startedRound).receive (.plain 63000) 2 rejoin).2)

/-- Now the round ends at second 1862 for her, on the same clock. -/
theorem round_extended :
    ((loadedPanel (utf8 "alice")).onMessages lateReplay).roundEndTime = some 1862000 ∧
      ¬ ((loadedPanel (utf8 "alice")).onMessages lateReplay).roundEndTime =
        some (roundEnds ⟨.inProgress, 2, 30, ["two-sum"], []⟩ 0) := by
  decide +kernel

end Bsg.Extension.Panel
