import Bsg.Foundations.Window
import Bsg.Rtc.Service

/-!
# The history of a room

A room keeps the last `maxHistorySize` messages that were stored in it, and sends those of them
again that are of a replayed type to who joins it. The `Archive` keeps beside the server all that
was stored in a room since it was created. Messages that are never replayed should not take up the
slots of others, so control events are not stored, but a change of the admin is
(`stored_replayed`). `replaysAll_iff` says when the replay is complete nevertheless.
-/

namespace Bsg.Rtc

open Bsg.Foundations

/-- The line of the chat that a start of a round adds. -/
def startAnnouncement (roomID : String) : Response :=
  newOkResponse .systemAnnouncement (.text (utf8 "The round has started")) roomID

/-- What the handler of a request adds to the history of a room. -/
def ClientRequest.noted (roomID : String) : ClientRequest → List Response
  | .of (.roundStart id _ _ _) =>
    if id = roomID ∧ id ≠ "" then [startAnnouncement roomID] else []
  | _ => []

/-- What answering a handled request adds to the history of a room. -/
def Server.stored (s : Server) (roomID : String) (h : Handled) : List Response :=
  match h.result with
  | .error _ => []
  | .ok data =>
    if h.roomID = roomID ∧ (s.audience h.respType data h.roomID).isSome ∧ h.respType.kept then
      [newOkResponse h.respType data h.roomID]
    else []

/-- What an event adds to the history of a room. -/
def Server.adds (s : Server) (roomID : String) : ServerEvent → List Response
  | .receive m _ (.request name r) =>
    r.noted roomID ++ ({ s with rooms := (handleRequest m name s.rooms r).1 } : Server).stored roomID
      (handleRequest m name s.rooms r).2
  | _ => []

/-- The server, and all that was stored in each room since it was created. -/
structure Archive where
  server : Server
  log : String → List Response

/-- The beginning. -/
def Archive.start : Archive := ⟨.start, fun _ => []⟩

/-- The archive after an event; a room that is gone has no history. -/
def Archive.step (a : Archive) (e : ServerEvent) : Archive where
  server := a.server.step e
  log roomID :=
    if ((a.server.step e).rooms roomID).isSome then a.log roomID ++ a.server.adds roomID e else []

/-- The messages that are sent again on a connection. -/
def replaysIn (conn : ℕ) (ds : List Delivery) : List Response :=
  (ds.filter fun d => d.kind = .replay ∧ d.receiver = conn).map Delivery.response

/-- Whoever joins the room is sent the last hundred replayed messages that were stored in it. -/
def Archive.ReplaysAll (roomID : String) (a : Archive) : Prop :=
  ∀ m conn name userHandle userName suppress filter, userHandle ≠ [] →
    replaysIn conn (a.server.receive m conn
      (.request name (.of (.joinRoom userHandle roomID userName suppress filter)))).2 =
        ((a.log roomID).filter fun prevMsg => prevMsg.respType.replayed).rtake maxHistorySize

/-- No change of the admin is among the last hundred messages stored, or nothing but such changes
was stored before them. -/
def Archive.NothingDisplaced (roomID : String) (a : Archive) : Prop :=
  (∀ x ∈ (a.log roomID).rtake maxHistorySize, x.respType ≠ .adminChange) ∨
    ∀ x ∈ (a.log roomID).take ((a.log roomID).length - maxHistorySize), x.respType = .adminChange

/-! ## What a room remembers -/

/-- The history of the room is the window on what was stored in it. -/
def Remembers (log : List Response) (r : HistoryRoom) : Prop :=
  r.messages = log.rtake maxHistorySize

/-- A history is the end of what was added. -/
theorem messages_addMessage (r : HistoryRoom) (message : Response) :
    (r.addMessage message).messages = (r.messages ++ [message]).rtake maxHistorySize := by
  unfold HistoryRoom.addMessage
  dsimp only
  split_ifs with h
  · rfl
  · exact (rtake_of_length_le (Nat.not_lt.mp h)).symm

/-- A message is remembered when it is logged. -/
theorem Remembers.addMessage {log : List Response} {r : HistoryRoom} (h : Remembers log r)
    (message : Response) : Remembers (log ++ [message]) (r.addMessage message) := by
  unfold Remembers
  rw [messages_addMessage, h, rtake_rtake_append]

/-- What is remembered depends on the messages. -/
theorem Remembers.congr {log : List Response} {r r' : HistoryRoom} (h : Remembers log r)
    (hmessages : r'.messages = r.messages) : Remembers log r' := hmessages.trans h

section Respond

variable {roomID : String} {room' : HistoryRoom}

/-- An answer that goes to a room is added to its history, unless it is a control event. -/
theorem rooms_announce (s : Server) (m : Moment) (sender : ℕ) (t : ResponseType) (data : Data)
    (id roomID : String) :
    (s.announce m sender t data id).1.rooms roomID =
      if id = roomID ∧ (s.audience t data id).isSome ∧ t.kept then
        (s.rooms roomID).map fun r => r.addMessage (newOkResponse t data id)
      else s.rooms roomID := by
  unfold Server.announce
  cases haudience : s.audience t data id with
  | none => rw [if_neg fun h => by cases h.2.1]
  | some room =>
    show (s.keep id (newOkResponse t data id)).rooms roomID = _
    by_cases hkept : t.kept = true
    · have hkeep : s.keep id (newOkResponse t data id) =
          { s with rooms := s.rooms.onRoom id fun r => r.addMessage (newOkResponse t data id) } :=
        if_pos hkept
      rw [hkeep]
      obtain rfl | hne := eq_or_ne roomID id
      · rw [if_pos ⟨rfl, rfl, hkept⟩]
        exact Rooms.onRoom_self ..
      · rw [if_neg fun h => hne h.1.symm]
        exact Rooms.onRoom_of_ne _ hne _
    · rw [if_neg fun h => hkept h.2.2]
      have hkeep : s.keep id (newOkResponse t data id) = s := if_neg hkept
      rw [hkeep]

/-- A room that is there after a removal was there before. -/
theorem rooms_tearDown {s : Server} {t : ResponseType} {id : String}
    (h : (s.tearDown t id).rooms roomID = some room') : s.rooms roomID = some room' := by
  unfold Server.tearDown at h
  split_ifs at h
  · obtain rfl | hne := eq_or_ne roomID id
    · dsimp only at h
      rw [Function.update_self] at h
      cases h
    · dsimp only at h
      rwa [Function.update_of_ne hne] at h
  · exact h

/-- Answering adds to a history what is stored. -/
theorem remembers_respond {s : Server} {m : Moment} {sender : ℕ} {type : String} {h : Handled}
    (h' : (s.respond m sender type h).1.rooms roomID = some room') :
    ∃ room, s.rooms roomID = some room ∧
      ∀ log, Remembers log room → Remembers (log ++ s.stored roomID h) room' := by
  obtain ⟨respType, id, result⟩ := h
  cases result with
  | error err =>
    refine ⟨room', h', fun log hlog => ?_⟩
    show Remembers (log ++ []) room'
    rwa [List.append_nil]
  | ok data =>
    have hroom : (s.announce m sender respType data id).1.rooms roomID = some room' :=
      rooms_tearDown h'
    rw [rooms_announce] at hroom
    dsimp only [Server.stored]
    split_ifs at hroom ⊢
    · obtain ⟨room, hbefore, rfl⟩ := Option.map_eq_some_iff.mp hroom
      exact ⟨room, hbefore, fun log hlog => hlog.addMessage _⟩
    · refine ⟨room', hroom, fun log hlog => ?_⟩
      rwa [List.append_nil]

end Respond

section Handle

variable {roomID id : String} {rooms rooms' : Rooms} {f : HistoryRoom → HistoryRoom}

/-- A room that is there has the messages it had; a new one has none. -/
def SameMessages (roomID : String) (rooms rooms' : Rooms) : Prop :=
  ∀ room', rooms' roomID = some room' →
    room'.messages = ((rooms roomID).getD .empty).messages

/-- No step. -/
theorem SameMessages.refl (roomID : String) (rooms : Rooms) : SameMessages roomID rooms rooms :=
  fun room' h => by rw [h, Option.getD_some]

/-- A room is replaced by one with its messages. -/
theorem SameMessages.update {room : Option HistoryRoom}
    (h : ∀ r, room = some r → r.messages = ((rooms id).getD .empty).messages) :
    SameMessages roomID rooms (Function.update rooms id room) := by
  intro room' h'
  obtain rfl | hne := eq_or_ne roomID id
  · rw [Function.update_self] at h'
    exact h room' h'
  · rw [Function.update_of_ne hne] at h'
    exact SameMessages.refl roomID rooms room' h'

/-- A change of a room that keeps its messages. -/
theorem SameMessages.onRoom (hf : ∀ r, (f r).messages = r.messages) :
    SameMessages roomID rooms (rooms.onRoom id f) := by
  unfold Rooms.onRoom
  cases hid : rooms id with
  | none => exact SameMessages.refl roomID rooms
  | some r =>
    refine SameMessages.update fun r' hr' => ?_
    cases hr'
    rw [hid, Option.getD_some, hf]

/-- Only a start adds to a history by itself. -/
theorem sameMessages_handleRequest (m : Moment) (name : GoText) (roomID : String) (rooms : Rooms)
    {r : ClientRequest} (hr : r.noted roomID = []) :
    SameMessages roomID rooms (handleRequest m name rooms r).1 := by
  have hdoes := does_handleRequest m name rooms r
  generalize (handleRequest m name rooms r).1 = rooms' at hdoes ⊢
  cases hdoes with
  | nothing => exact SameMessages.refl roomID rooms
  | join userHandle id =>
    refine SameMessages.update fun r' hr' => ?_
    cases hr'
    rfl
  | leave userHandle id userName room hroom =>
    refine SameMessages.update fun r' hr' => ?_
    split_ifs at hr'
    cases hr'
    rw [hroom]
    rfl
  | roundStart id problemList startTime duration hid =>
    -- The start of a round is noted in its own room.
    have hne : roomID ≠ id := by
      rintro rfl
      dsimp only [ClientRequest.noted] at hr
      rw [if_pos ⟨rfl, hid⟩] at hr
      cases hr
    intro room' h'
    rw [Rooms.onRoom_of_ne _ hne] at h'
    exact SameMessages.refl roomID rooms room' h'
  | roundEnd id => exact SameMessages.onRoom fun _ => rfl
  | joinRound id userID => exact SameMessages.onRoom fun _ => rfl

/-- Only the start of a round in a room is noted. -/
theorem noted_ne_nil {r : ClientRequest} (h : r.noted roomID ≠ []) :
    ∃ problemList startTime duration,
      r = .of (.roundStart roomID problemList startTime duration) ∧ roomID ≠ "" := by
  cases r with
  | chatMessage => exact absurd rfl h
  | of r =>
    cases r with
    | roundStart id problemList startTime duration =>
      dsimp only [ClientRequest.noted] at h
      split_ifs at h with hid
      · obtain ⟨rfl, hset⟩ := hid
        exact ⟨_, _, _, rfl, hset⟩
      · exact absurd rfl h
    | _ => exact absurd rfl h

/-- A handler adds to a history what is noted. -/
theorem remembers_handleRequest {m : Moment} {name : GoText} {r : ClientRequest}
    {room' : HistoryRoom} {log : List Response}
    (h' : (handleRequest m name rooms r).1 roomID = some room')
    (h : Remembers log ((rooms roomID).getD .empty)) :
    Remembers (log ++ r.noted roomID) room' := by
  by_cases hr : r.noted roomID = []
  · rw [hr, List.append_nil]
    exact h.congr (sameMessages_handleRequest m name roomID rooms hr room' h')
  · obtain ⟨problemList, startTime, duration, rfl, hset⟩ := noted_ne_nil hr
    rw [show (ClientRequest.of (.roundStart roomID problemList startTime duration)).noted roomID =
      [startAnnouncement roomID] from if_pos ⟨rfl, hset⟩]
    dsimp only [handleRequest, handleRoundStart] at h'
    rcases checked_cases "RoundStartRequest" [("RoomID", roomID ≠ "")] .roundStart roomID rooms _ with
      ⟨-, hnext⟩ | ⟨hmissing, -⟩
    · rw [hnext] at h'
      dsimp only at h'
      rw [Rooms.onRoom_self] at h'
      obtain ⟨room, hroom, rfl⟩ := Option.map_eq_some_iff.mp h'
      rw [hroom] at h
      exact Remembers.addMessage (r := room.onRoom fun r => r.startRound startTime duration problemList)
        h _
    · exact absurd (by simpa using hset) hmissing

end Handle

/-! ## The archive -/

/-- The rooms remember what is in the archive, and only changes of the admin are stored without ever
being sent again. -/
structure Archived (a : Archive) : Prop where
  remembers : ∀ roomID, Remembers (a.log roomID) ((a.server.rooms roomID).getD .empty)
  types : ∀ roomID, ∀ x ∈ a.log roomID, x.respType.replayed = true ∨ x.respType = .adminChange

section Archive

variable {roomID : String} {room' : HistoryRoom} {s : Server}

/-- A room that is there after an event remembers what was added. -/
theorem remembers_step {e : ServerEvent} {log : List Response}
    (h' : (s.step e).rooms roomID = some room')
    (h : Remembers log ((s.rooms roomID).getD .empty)) :
    Remembers (log ++ s.adds roomID e) room' := by
  have hsame : s.rooms roomID = some room' → Remembers (log ++ []) room' := by
    intro hroom
    rw [hroom] at h
    rwa [List.append_nil]
  cases e with
  | connect conn name => exact hsame h'
  | disconnect conn => exact hsame h'
  | receive m conn msg =>
    cases msg with
    | unreadable err => exact hsame h'
    | invalid name err => exact hsame h'
    | malformed name respType id err => exact hsame h'
    | request name r =>
      obtain ⟨room, hroom, hrest⟩ := remembers_respond h'
      have hkept := hrest _ (remembers_handleRequest hroom h)
      rwa [List.append_assoc] at hkept

/-- What is stored in a room that remains will be sent again, or is a change of the admin. -/
theorem stored_replayed {m : Moment} {sender : ℕ} {type : String} {h : Handled}
    (h' : (s.respond m sender type h).1.rooms roomID = some room') {x : Response}
    (hx : x ∈ s.stored roomID h) : x.respType.replayed = true ∨ x.respType = .adminChange := by
  obtain ⟨respType, id, result⟩ := h
  cases result with
  | error err => cases hx
  | ok data =>
    dsimp only [Server.stored] at hx
    split_ifs at hx with hstored
    · obtain ⟨rfl, haudience, hkept⟩ := hstored
      obtain rfl := List.mem_singleton.mp hx
      rw [respType_newOkResponse]
      have hbroadcasts : respType.broadcasts = true := by
        unfold Server.audience at haudience
        split_ifs at haudience with hboth
        · exact (Bool.and_eq_true_iff.mp hboth).2
        · cases haudience
      cases respType with
      | roomExpired =>
        -- The room is removed at once.
        have hgone : (s.respond m sender type ⟨.roomExpired, id, .ok data⟩).1.rooms id = none :=
          Function.update_self ..
        rw [hgone] at h'
        cases h'
      | roundStart => cases hkept
      | nextProblem => cases hkept
      | general => cases hbroadcasts
      | adminChange => exact Or.inr rfl
      | _ => exact Or.inl rfl
    · cases hx

/-- So is all that is added to a room that remains. -/
theorem adds_replayed {e : ServerEvent} (h' : (s.step e).rooms roomID = some room') {x : Response}
    (hx : x ∈ s.adds roomID e) : x.respType.replayed = true ∨ x.respType = .adminChange := by
  cases e with
  | connect conn name => cases hx
  | disconnect conn => cases hx
  | receive m conn msg =>
    cases msg with
    | unreadable err => cases hx
    | invalid name err => cases hx
    | malformed name respType id err => cases hx
    | request name r =>
      rcases List.mem_append.mp hx with hx | hx
      · obtain ⟨problemList, startTime, duration, rfl, hset⟩ :=
          noted_ne_nil (List.ne_nil_of_mem hx)
        have hnoted : x ∈ [startAnnouncement roomID] := by
          rwa [show (ClientRequest.of (.roundStart roomID problemList startTime duration)).noted
            roomID = [startAnnouncement roomID] from if_pos ⟨rfl, hset⟩] at hx
        rw [List.mem_singleton.mp hnoted]
        exact Or.inl rfl
      · exact stored_replayed h' hx

/-- Each event keeps the archive. -/
theorem Archived.step {a : Archive} (h : Archived a) (e : ServerEvent) : Archived (a.step e) := by
  -- The log goes on as long as there is a room, and begins anew with the next one.
  have hlog : ∀ roomID, (a.server.step e).rooms roomID = none ∧ (a.step e).log roomID = [] ∨
      ∃ room', (a.server.step e).rooms roomID = some room' ∧
        (a.step e).log roomID = a.log roomID ++ a.server.adds roomID e := by
    intro roomID
    unfold Archive.step
    dsimp only
    cases hroom : (a.server.step e).rooms roomID with
    | none => exact Or.inl ⟨rfl, rfl⟩
    | some room' => exact Or.inr ⟨room', rfl, rfl⟩
  constructor
  · intro roomID
    show Remembers _ (((a.server.step e).rooms roomID).getD .empty)
    rcases hlog roomID with ⟨hroom, hlog⟩ | ⟨room', hroom, hlog⟩
    · rw [hroom, hlog]
      exact List.rtake_nil .. |>.symm
    · rw [hroom, hlog, Option.getD_some]
      exact remembers_step hroom (h.remembers roomID)
  · intro roomID x hx
    rcases hlog roomID with ⟨hroom, hlog⟩ | ⟨room', hroom, hlog⟩
    · rw [hlog] at hx
      cases hx
    · rw [hlog] at hx
      rcases List.mem_append.mp hx with hx | hx
      · exact h.types roomID x hx
      · exact adds_replayed hroom hx

/-- The archive is kept along every run. -/
theorem archived_run (es : List ServerEvent) : Archived (run Archive.step .start es) := by
  have hstart : Archived .start :=
    ⟨fun roomID => List.rtake_nil .. |>.symm, fun roomID x hx => by cases hx⟩
  have halong : Along Archive.step (fun _ _ => True) .start es := Along.of_forall fun _ _ => trivial
  exact (invariant_along (fun _ e h _ => h.step e) hstart halong).last

end Archive

/-! ## Replays -/

/-- Who joins a room is sent again what the room keeps of the replayed types. -/
theorem replaysIn_joinRoom (s : Server) (m : Moment) (conn : ℕ) (name : GoText) {roomID : String}
    (hid : roomID ≠ "") {userHandle : GoText} (hhandle : userHandle ≠ []) (userName : GoText)
    (suppress : Bool) (filter : Option Bool) :
    replaysIn conn (s.receive m conn
      (.request name (.of (.joinRoom userHandle roomID userName suppress filter)))).2 =
        ((s.rooms roomID).getD .empty).replay := by
  obtain ⟨room, text, hhandled, hmessages, -⟩ :=
    Server.handleJoinRoom_of_complete name s.rooms hid hhandle userName suppress filter
  obtain ⟨s', hrooms, hreceive⟩ := Server.receive_of_handled (s := s)
    (r := .of (.joinRoom userHandle roomID userName suppress filter)) (m := m) hhandled conn
  obtain ⟨rest, hrespond, hrest⟩ := s'.respond_deliveries m conn "join-room"
    ⟨.userJoined, roomID, .ok (.text text)⟩
  have hnone : rest.filter (fun d => d.kind = .replay ∧ d.receiver = conn) = [] := by
    rw [List.filter_eq_nil_iff]
    intro d hd
    simp [(hrest d hd).2.1]
  have hreplay : room.replay = ((s.rooms roomID).getD .empty).replay := by
    unfold HistoryRoom.replay
    rw [hmessages]
  have hroom : s'.rooms roomID = some room := by rw [hrooms, Function.update_self]
  rw [hreceive]
  show replaysIn conn (s'.respond m conn "join-room" _).2 = _
  rw [hrespond, replaysIn, List.filter_append, hnone, List.append_nil, ← hreplay]
  simp [Server.replayTo, Except.isOk, Except.toBool, hroom, List.filter_map, Function.comp_def]

/-- The replay is complete exactly when no change of the admin took the slot of a message. -/
theorem replaysAll_iff {roomID : String} (hid : roomID ≠ "") (es : List ServerEvent) :
    (run Archive.step .start es).ReplaysAll roomID ↔
      (run Archive.step .start es).NothingDisplaced roomID := by
  obtain ⟨hremembers, htypes⟩ := archived_run es
  generalize run Archive.step .start es = a at hremembers htypes
  -- A join is sent the last messages of the log that are of a kind to be sent again.
  have hreplay : ((a.server.rooms roomID).getD .empty).replay =
      ((a.log roomID).rtake maxHistorySize).filter fun prevMsg => prevMsg.respType.replayed := by
    unfold HistoryRoom.replay
    rw [hremembers roomID]
  have hiff := filter_rtake_iff (fun prevMsg : Response => prevMsg.respType.replayed)
    (a.log roomID) maxHistorySize
  -- Of what is kept, only a change of the admin is not.
  have hkept : ∀ x ∈ a.log roomID, x.respType.replayed = true ↔ x.respType ≠ .adminChange := by
    intro x hx
    rcases htypes roomID x hx with h | h
    · refine iff_of_true h fun hchange => ?_
      rw [hchange] at h
      cases h
    · rw [h]
      decide
  have hdisplaced : a.NothingDisplaced roomID ↔
      (∀ x ∈ (a.log roomID).rtake maxHistorySize, x.respType.replayed = true) ∨
        ∀ x ∈ (a.log roomID).take ((a.log roomID).length - maxHistorySize),
          x.respType.replayed = false := by
    refine or_congr (forall₂_congr fun x hx => ?_) (forall₂_congr fun x hx => ?_)
    · exact (hkept x (List.mem_of_mem_drop hx)).symm
    · rw [← Bool.not_eq_true, hkept x (List.mem_of_mem_take hx), not_not]
  rw [hdisplaced, ← hiff, ← hreplay]
  constructor
  · intro h
    rw [← h (.plain 0) 0 [] [0] [] false none (by simp)]
    exact (replaysIn_joinRoom a.server _ 0 [] hid (by simp) [] false none).symm
  · intro h m conn name userHandle userName suppress filter hhandle
    rw [replaysIn_joinRoom a.server m conn name hid hhandle, h]

/-- A user joins and sends messages to the chat, and then the admin changes. -/
def chatThenChange (n : ℕ) : List ServerEvent :=
  [.receive (.plain 0) 1 (.request (utf8 "alice")
    (.of (.joinRoom (utf8 "alice") "room" (utf8 "Alice") false none)))] ++
    List.replicate n (.receive (.plain 0) 1 (.request (utf8 "alice")
      (.chatMessage (utf8 "alice") (utf8 "Alice") [] "room" (utf8 "hello")))) ++
    [.receive (.plain 0) 2 (.request centralServiceName
      (.of (.adminChange "room" (utf8 "alice") (utf8 "Alice"))))]

/-- After ninety-nine messages the change of the admin displaces the first of the hundred. -/
theorem not_replaysAll : ¬ (run Archive.step .start (chatThenChange 99)).ReplaysAll "room" := by
  intro h
  have hlength := congrArg List.length
    (h (.plain 0) 3 (utf8 "bob") (utf8 "bob") [] false none (by decide))
  revert hlength
  decide +kernel

/-- After ten messages it displaces nothing. -/
theorem replaysAll_ten : (run Archive.step .start (chatThenChange 10)).ReplaysAll "room" := by
  refine (replaysAll_iff (by decide) _).mpr (Or.inr ?_)
  decide +kernel

end Bsg.Rtc
