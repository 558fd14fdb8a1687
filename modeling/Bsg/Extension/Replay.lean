import Bsg.Extension.Panel
import Bsg.Rtc.Service

/-!
# A room's history, read again

A panel that joins a room reads the history of the room. Only a join of the round can do something
to it: one of its own user, sent while the round was in progress, puts the user into that round
(`onMessage_of_ownRound`), and every other message leaves the store alone
(`onMessage_of_not_ownRound`). The message keeps the status that the round had when it was sent, so
such a join puts the user into the round after its end as well (`finishedRound`).
-/

namespace Bsg.Extension.Panel

open Bsg.Foundations Bsg.Rtc

/-! ## One message -/

/-- A message that puts the user into a round. -/
def ownRound (userId : GoText) (resp : Response) : Bool :=
  resp.respStatus = .ok && resp.respType = .roundJoin && ownJoin userId resp.respMessage.data

/-- Of the messages that are sent again, only joins of the round are events. -/
theorem gameEvent_of_replayed {resp : Response} (h : resp.respType.replayed = true) :
    gameEvent resp = if resp.respStatus = .ok ∧ resp.respType = .roundJoin then
      some ⟨.joinRound, resp.respMessage.data⟩ else none := by
  obtain ⟨status, message, type⟩ := resp
  cases status
  · simp [gameEvent]
  · cases type <;> simp [gameEvent, ResponseType.name, ResponseType.replayed] at h ⊢

/-- The user's own join of a round that was in progress puts him into it. -/
theorem onMessage_of_ownRound {p : Panel} {resp : Response} {roomId : String}
    (hroom : p.roomId = some roomId) (h : ownRound p.userId resp = true) (now : ℤ) :
    p.onMessage now resp =
      { p with lastGameEvent := some ⟨.joinRound, resp.respMessage.data⟩ }.applyRoundData now roomId
        resp.respMessage.data := by
  simp only [ownRound, Bool.and_eq_true, decide_eq_true_eq] at h
  obtain ⟨⟨hok, htype⟩, hown⟩ := h
  have hevent : gameEvent resp = some ⟨.joinRound, resp.respMessage.data⟩ := by
    rw [gameEvent_of_replayed (by rw [htype]; rfl), if_pos ⟨hok, htype⟩]
  simp only [onMessage, hevent, roomEvents, hroom, hown, if_true]

/-- Every other message that is sent again is at most the last event. -/
theorem onMessage_of_not_ownRound {p : Panel} {resp : Response}
    (hreplayed : resp.respType.replayed = true) (h : ownRound p.userId resp = false) (now : ℤ) :
    ∃ event, p.onMessage now resp = { p with lastGameEvent := event } := by
  unfold onMessage
  rw [gameEvent_of_replayed hreplayed]
  split
  · exact ⟨p.lastGameEvent, rfl⟩
  · rename_i event hevent
    split at hevent
    · rename_i hjoin
      obtain rfl : GameEvent.mk .joinRound resp.respMessage.data = event :=
        Option.some.inj hevent
      have hother : ownJoin p.userId resp.respMessage.data = false := by
        simpa [ownRound, hjoin] using h
      refine ⟨some ⟨.joinRound, resp.respMessage.data⟩, ?_⟩
      cases p.roomId <;> simp [roomEvents, hother]
    · cases hevent

/-- What a message that is sent again does to the panel. -/
theorem onMessage_replayed (p : Panel) {resp : Response} {roomId : String}
    (hroom : p.roomId = some roomId) (hreplayed : resp.respType.replayed = true) (now : ℤ) :
    (p.onMessage now resp).userId = p.userId ∧ (p.onMessage now resp).roomId = p.roomId ∧
      (p.onMessage now resp).isRoundStarted = (p.isRoundStarted || ownRound p.userId resp) ∧
      (p.onMessage now resp).requests = p.requests ++
        if ownRound p.userId resp = true then
          [.problemProgressReset (roundKey roomId (roundData resp.respMessage.data))]
        else [] := by
  cases h : ownRound p.userId resp with
  | true =>
    rw [onMessage_of_ownRound hroom h]
    obtain ⟨hstarted, -, -, huser, hid, hrequests⟩ := applyRoundData_store
      { p with lastGameEvent := some ⟨.joinRound, resp.respMessage.data⟩ } now roomId
      resp.respMessage.data
    exact ⟨huser, hid, by rw [hstarted, Bool.or_true], by rw [hrequests, if_pos rfl]⟩
  | false =>
    obtain ⟨event, hsame⟩ := onMessage_of_not_ownRound hreplayed h now
    rw [hsame]
    exact ⟨rfl, rfl, (Bool.or_false _).symm, by simp⟩

/-! ## A whole replay -/

/-- The resets that a panel asks for, while it reads messages of a room. -/
def resets (userId : GoText) (roomId : String) (resps : List Response) : List WorkerRequest :=
  (resps.filter (ownRound userId)).map fun resp =>
    .problemProgressReset (roundKey roomId (roundData resp.respMessage.data))

/-- What a replay does to the panel: any own join in it puts the user into a round, and each asks
for a reset. -/
theorem onMessages_replayed {p : Panel} {roomId : String} (hroom : p.roomId = some roomId)
    {ms : List (ℤ × Response)} (hreplayed : ∀ m ∈ ms, m.2.respType.replayed = true) :
    (p.onMessages ms).isRoundStarted =
        (p.isRoundStarted || (ms.map Prod.snd).any (ownRound p.userId)) ∧
      (p.onMessages ms).requests = p.requests ++ resets p.userId roomId (ms.map Prod.snd) := by
  induction ms generalizing p with
  | nil => simp [resets]
  | cons m ms ih =>
    obtain ⟨hm, hms⟩ := List.forall_mem_cons.mp hreplayed
    obtain ⟨huser, hid, hstarted, hrequests⟩ := p.onMessage_replayed hroom hm m.1
    obtain ⟨ihstarted, ihrequests⟩ := ih (p := p.onMessage m.1 m.2) (hid.trans hroom) hms
    rw [onMessages_cons, ihstarted, ihrequests, hstarted, hrequests, huser]
    refine ⟨by simp [Bool.or_assoc], ?_⟩
    cases h : ownRound p.userId m.2 <;> simp [resets, h]

/-! ## Joining a room -/

/-- The `join-room` that the panel sends, when it has a user and a room. -/
def joinRoomMessage (p : Panel) (userName : GoText) : Option Inbound :=
  match p.roomId with
  | none => none
  | some roomId =>
    if p.userId = [] ∨ roomId = "" then none
    else some (.request p.userId (.of (.joinRoom p.userId roomId userName false none)))

/-- What a panel reads after it joined a room, each message at some time: the history of the room
and then its answer, none of which it takes for anything but a join. -/
theorem read_joinRoom {s : Server} {p : Panel} {msg : Inbound} {userName : GoText}
    (hmsg : p.joinRoomMessage userName = some msg) {roomId : String} (hid : p.roomId = some roomId)
    {room : HistoryRoom} (hroom : s.rooms roomId = some room) (m : Moment) (conn : ℕ)
    {ms : List (ℤ × Response)} (hms : ms.map Prod.snd = sentTo conn (s.receive m conn msg).2) :
    (∀ x ∈ ms, x.2.respType.replayed = true) ∧
      (ms.map Prod.snd).filter (ownRound p.userId) = room.messages.filter (ownRound p.userId) := by
  unfold joinRoomMessage at hmsg
  rw [hid] at hmsg
  dsimp only at hmsg
  split at hmsg
  · cases hmsg
  rename_i hboth
  obtain ⟨huser, hne⟩ := not_or.mp hboth
  obtain rfl := Option.some.inj hmsg
  -- What arrives is the replay of the room and then the answer to the join.
  obtain ⟨rest, hsent, hrest⟩ :=
    s.sentTo_joinRoom m conn p.userId hroom hne huser userName false none
  rw [hsent] at hms
  have htypes : ∀ resp ∈ room.replay ++ rest, resp.respType.replayed = true := by
    intro resp hresp
    rcases List.mem_append.mp hresp with h | h
    · exact (List.mem_filter.mp h).2
    · rw [hrest resp h]
      rfl
  have hown : ∀ resp, ownRound p.userId resp = true → resp.respType = .roundJoin := fun resp h => by
    simp only [ownRound, Bool.and_eq_true, decide_eq_true_eq] at h
    exact h.1.2
  -- The answer is about the room and no message of the round.
  have hanswer : rest.filter (ownRound p.userId) = [] :=
    List.filter_eq_nil_iff.mpr fun resp hresp h => by
      have := hown resp h
      rw [hrest resp hresp] at this
      cases this
  refine ⟨fun x hx => htypes x.2 (hms ▸ List.mem_map_of_mem hx), ?_⟩
  rw [hms, List.filter_append, hanswer, List.append_nil, HistoryRoom.replay, List.filter_filter]
  refine List.filter_congr fun resp _ => ?_
  cases h : ownRound p.userId resp with
  | false => rfl
  | true => rw [hown resp h]; rfl

/-! ## A finished round -/

/-- A user joins a room and a round in it, and the round ends. -/
def finishedRound : List ServerEvent :=
  [.connect 1 (utf8 "alice"),
    .receive (.plain 1000) 1
      (.request (utf8 "alice") (.of (.joinRoom (utf8 "alice") "room" [] false none))),
    .receive (.plain 2000) 0
      (.request centralServiceName (.of (.roundStart "room" ["two-sum"] 2 30))),
    .receive (.plain 3000) 0
      (.request centralServiceName (.of (.joinRound "room" (utf8 "alice") []))),
    .receive (.plain 4000) 0 (.request centralServiceName (.of (.roundEnd "room")))]

/-- The panel of a user, when it is loaded. -/
def loadedPanel (userId : GoText) : Panel :=
  ⟨userId, some "room", false, true, none, none, some "https://leetcode.com/problemset/", [], []⟩

/-- The messages, all read at one time. -/
def readAt (now : ℤ) (resps : List Response) : List (ℤ × Response) :=
  resps.map fun resp => (now, resp)

/-- Reading messages at a moment leaves what they are. -/
theorem map_readAt (now : ℤ) (resps : List Response) : (readAt now resps).map Prod.snd = resps := by
  simp [readAt, Function.comp_def]

/-- What alice sends when her panel is loaded again. -/
def rejoin : Inbound :=
  .request (utf8 "alice") (.of (.joinRoom (utf8 "alice") "room" [] false none))

/-- What her panel reads then. -/
def finishedReplay : List (ℤ × Response) :=
  readAt 5000 (sentTo 2 ((run Server.step .start finishedRound).receive (.plain 5000) 2 rejoin).2)

end Bsg.Extension.Panel
