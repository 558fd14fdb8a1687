import Bsg.Extension.Replay

/-!
# How panels learn that a round is over

rtc-service and the panels that are connected to it (`Site`). A panel has the messages that it has
not read yet in its inbox, and reads them one after the other; what central-service tells it over
HTTP comes at any time.

rtc-service answers a `round-end` with an announcement, which a panel takes for a line of the chat.
Its branch for messages of the type `round-end` is never taken, since rtc-service has no such type
(`type_gameEvent`). So a panel knows that the round is over only from central-service. `learnt_iff`
says exactly when, by what the panel was told since it was opened (`Diary`): of the answers of
central-service and the messages that put its user into a round, the last one that has a say.
-/

namespace Bsg.Extension

open Bsg.Foundations Bsg.Rtc Panel

/-! ## Panels and rtc-service -/

/-- A panel on a connection, with the messages that it has not read. -/
structure Client where
  panel : Panel
  inbox : List Response

/-- Messages come to the end of the inbox. -/
def Client.deliver (client : Client) (resps : List Response) : Client :=
  { client with inbox := client.inbox ++ resps }

/-- The panel when everything is read, the `i`-th message at the `i`-th time. -/
def Client.drained (client : Client) (clock : ℕ → ℤ) : Panel :=
  client.panel.onMessages (client.inbox.mapIdx fun i resp => (clock i, resp))

/-- rtc-service, and the panels on its connections. -/
structure Site where
  server : Server
  clients : ℕ → Option Client

/-- What central-service tells a panel over HTTP. -/
inductive PanelAction where
  | joinedRoom (roomId : String) (lastRoundStatus : Option String)
  | loadedRoom (now : ℤ) (roomId : String) (lastRound : Option LoadedRound)
  | endConfirmed
  | endSettled
  | resetRoom
  deriving DecidableEq

/-- The panel after an answer of central-service. -/
def Panel.act (p : Panel) : PanelAction → Panel
  | .joinedRoom roomId lastRoundStatus => p.joinedRoom roomId lastRoundStatus
  | .loadedRoom now roomId lastRound => p.loadedRoom now roomId lastRound
  | .endConfirmed => p.endConfirmed
  | .endSettled => p.endSettled
  | .resetRoom => p.resetRoom

/-- What can happen to panels and rtc-service. -/
inductive SiteEvent where
  /-- A panel connects. -/
  | opened (conn : ℕ) (name : GoText) (panel : Panel)
  /-- A connection is closed. -/
  | closed (conn : ℕ)
  /-- rtc-service handles a message of a connection. -/
  | received (m : Moment) (conn : ℕ) (msg : Inbound)
  /-- A panel reads its next message. -/
  | read (conn : ℕ) (now : ℤ)
  | acted (conn : ℕ) (action : PanelAction)

namespace Site

/-- The state before the first panel connects. -/
def start : Site := ⟨.start, fun _ => none⟩

/-- Changes the panel of a connection. -/
def onClient (s : Site) (conn : ℕ) (f : Client → Client) : Site :=
  { s with clients := Function.update s.clients conn ((s.clients conn).map f) }

/-- The state after an event. -/
def step (s : Site) : SiteEvent → Site
  | .opened conn name panel =>
    ⟨s.server.connect conn name, Function.update s.clients conn (some ⟨panel, []⟩)⟩
  | .closed conn => ⟨s.server.disconnect conn, Function.update s.clients conn none⟩
  | .received m conn msg =>
    let (server, ds) := s.server.receive m conn msg
    ⟨server, fun c => (s.clients c).map fun client => client.deliver (sentTo c ds)⟩
  | .read conn now => s.onClient conn fun client =>
    match client.inbox with
    | [] => client
    | resp :: inbox => ⟨client.panel.onMessage now resp, inbox⟩
  | .acted conn action =>
    s.onClient conn fun client => { client with panel := client.panel.act action }

/-- Every panel in the room says that the round is over, when it has read everything. -/
def Learnt (s : Site) (clock : ℕ → ℤ) (roomID : String) : Prop :=
  ∀ c client, s.clients c = some client → client.panel.roomId = some roomID →
    (client.drained clock).SaysEnded

/-- Every panel in the room is in a round, when it has read everything, exactly when the round of
rtc-service is in progress. -/
def Agrees (s : Site) (clock : ℕ → ℤ) (roomID : String) : Prop :=
  ∀ c client, s.clients c = some client → client.panel.roomId = some roomID →
    ((client.drained clock).isRoundStarted = true ↔
      s.server.rooms.chatManager.roundStatus roomID = some .inProgress)

end Site

/-! ## What a panel was told -/

/-- What a panel is told: an answer of central-service, or a message of rtc-service. -/
inductive Notice where
  | answer (action : PanelAction)
  | message (resp : Response)

/-- A message that puts the user into a round: a start, or his own join of a round in progress. -/
def startsRound (userId : GoText) (resp : Response) : Bool :=
  resp.respStatus = .ok && (resp.respType = .roundStart ||
    resp.respType = .roundJoin && ownJoin userId resp.respMessage.data)

namespace Notice

/-- What a notice says about whether the user is in a round. -/
def started (userId : GoText) : Notice → Option Bool
  | answer (.loadedRoom _ _ lastRound) => some (lastRound.any fun round => round.status = "started")
  | answer .endSettled => none
  | answer _ => some false
  | message resp => if startsRound userId resp then some true else none

/-- What a notice says about whether the round is over. -/
def ended (userId : GoText) : Notice → Option Bool
  | answer (.joinedRoom _ lastRoundStatus) => some (lastRoundStatus = some "ended")
  | answer (.loadedRoom _ _ lastRound) => some (lastRound.any fun round => round.status = "ended")
  | answer .endConfirmed => some true
  | answer .endSettled => none
  | answer .resetRoom => some false
  | message resp => if startsRound userId resp then some false else none

/-- What a notice says about whether there is an end time. -/
def timed (userId : GoText) : Notice → Option Bool
  | answer (.loadedRoom now _ lastRound) => some (lastRound.any fun round =>
      round.status = "started" && round.lastUpdated + round.duration * 60 * 1000 > now)
  | answer .endConfirmed => none
  | answer _ => some false
  | message resp => if startsRound userId resp then some true else none

end Notice

/-- What the last notice with a say has said, or what was said before them. -/
def lastSaid (tells : Notice → Option Bool) (before : Bool) (notices : List Notice) : Bool :=
  (notices.filterMap tells).getLast?.getD before

/-- The panel as it was opened, and what it was told since. -/
structure Diary where
  opened : Panel
  notices : List Notice

namespace Diary

/-- Whether the last word is that the user is in a round. -/
def started (d : Diary) : Bool :=
  lastSaid (Notice.started d.opened.userId) d.opened.isRoundStarted d.notices

/-- Whether the last word is that the round is over. -/
def ended (d : Diary) : Bool :=
  lastSaid (Notice.ended d.opened.userId) d.opened.hasRoundEnded d.notices

/-- Whether the last word is that there is an end time. -/
def timed (d : Diary) : Bool :=
  lastSaid (Notice.timed d.opened.userId) d.opened.roundEndTime.isSome d.notices

/-- The diary with one more notice. -/
def hear (d : Diary) (notice : Notice) : Diary := { d with notices := d.notices ++ [notice] }

/-- A diary with messages that are still to be read. -/
def reading (d : Diary) (inbox : List Response) : Diary :=
  { d with notices := d.notices ++ inbox.map .message }

end Diary

/-- The site, with the diary of one connection while a panel is on it. -/
structure Watched where
  site : Site
  diary : Option Diary

/-- The diary of a connection after an event. -/
def Site.note (s : Site) (c : ℕ) (diary : Option Diary) : SiteEvent → Option Diary
  | .opened conn _ panel => if conn = c then some ⟨panel, []⟩ else diary
  | .closed conn => if conn = c then none else diary
  | .received .. => diary
  | .read conn _ =>
    if conn = c then
      match (s.clients c).bind fun client => client.inbox.head? with
      | some resp => diary.map fun d => d.hear (.message resp)
      | none => diary
    else diary
  | .acted conn action =>
    if conn = c then diary.map fun d => d.hear (.answer action) else diary

/-- The site and the diary after an event. -/
def Watched.step (c : ℕ) (w : Watched) (e : SiteEvent) : Watched :=
  ⟨w.site.step e, w.site.note c w.diary e⟩

/-- What the panel on a connection was told along a run. -/
def diaryOf (c : ℕ) (es : List SiteEvent) : Option Diary :=
  (run (Watched.step c) ⟨.start, none⟩ es).diary

/-! ## Messages do not say it -/

namespace Panel

/-- No message is of the type `round-end`. -/
theorem type_gameEvent {resp : Response} {event : GameEvent} (h : gameEvent resp = some event) :
    event.type ≠ .roundEnd := by
  obtain ⟨status, message, type⟩ := resp
  cases status
  · simp [gameEvent] at h
  · cases type <;> simp [gameEvent, ResponseType.name] at h <;> subst h <;> simp

/-- A message that puts the user into a round does so; any other one leaves what the panel says of
it. -/
theorem onMessage_store {p : Panel} {roomId : String} (hroom : p.roomId = some roomId) (now : ℤ)
    (resp : Response) :
    (p.onMessage now resp).userId = p.userId ∧ (p.onMessage now resp).roomId = p.roomId ∧
      (p.onMessage now resp).isRoundStarted = (p.isRoundStarted || startsRound p.userId resp) ∧
      (p.onMessage now resp).hasRoundEnded = (p.hasRoundEnded && !startsRound p.userId resp) ∧
      (p.onMessage now resp).roundEndTime.isSome =
        (p.roundEndTime.isSome || startsRound p.userId resp) := by
  obtain ⟨status, message, type⟩ := resp
  -- A message that starts no round leaves these fields as they are.
  have hquiet : startsRound p.userId ⟨status, message, type⟩ = false →
      (p.onMessage now ⟨status, message, type⟩).userId = p.userId ∧
        (p.onMessage now ⟨status, message, type⟩).roomId = p.roomId ∧
        (p.onMessage now ⟨status, message, type⟩).isRoundStarted = p.isRoundStarted ∧
        (p.onMessage now ⟨status, message, type⟩).hasRoundEnded = p.hasRoundEnded ∧
        (p.onMessage now ⟨status, message, type⟩).roundEndTime = p.roundEndTime := by
    intro hnot
    cases status with
    | error => exact ⟨rfl, rfl, rfl, rfl, rfl⟩
    | ok =>
      cases type with
      | roundStart => cases hnot
      | roundJoin =>
        have hother : ownJoin p.userId message.data = false := by simpa [startsRound] using hnot
        simp [onMessage, gameEvent, ResponseType.name, roomEvents, hroom, hother]
      | nextProblem =>
        let q : Panel := { p with lastGameEvent := some ⟨.nextProblem, message.data⟩ }
        have hevent : p.onMessage now ⟨.ok, message, .nextProblem⟩ = q.roomEvents now := by
          simp [onMessage, gameEvent, ResponseType.name, q]
        have hlead : ∀ slug, (q.navigateActiveTab fun _ => some slug).userId = p.userId ∧
            (q.navigateActiveTab fun _ => some slug).roomId = some roomId ∧
            (q.navigateActiveTab fun _ => some slug).isRoundStarted = p.isRoundStarted ∧
            (q.navigateActiveTab fun _ => some slug).hasRoundEnded = p.hasRoundEnded ∧
            (q.navigateActiveTab fun _ => some slug).roundEndTime = p.roundEndTime := by
          intro slug
          obtain ⟨hstarted, hended, htime, huser, hid, -⟩ :=
            navigateActiveTab_store q fun _ => some slug
          exact ⟨huser, hid.trans hroom, hstarted, hended, htime⟩
        rw [hevent]
        unfold roomEvents
        have hid : q.roomId = some roomId := hroom
        rw [hid]
        dsimp only [q]
        split
        · split_ifs
          · exact hlead _
          · exact ⟨rfl, hroom, rfl, rfl, rfl⟩
        · exact ⟨rfl, hroom, rfl, rfl, rfl⟩
      | _ => simp [onMessage, gameEvent, ResponseType.name]
  cases hstarts : startsRound p.userId ⟨status, message, type⟩ with
  | false =>
    obtain ⟨huser, hid, hstarted, hended, htime⟩ := hquiet hstarts
    simp [huser, hid, hstarted, hended, htime]
  | true =>
    -- A message that starts one has its data applied, whether the round or a join to it.
    have hround : ∃ event, p.onMessage now ⟨status, message, type⟩ =
        { p with lastGameEvent := some event }.applyRoundData now roomId message.data := by
      simp only [startsRound, Bool.and_eq_true, Bool.or_eq_true, decide_eq_true_eq] at hstarts
      obtain ⟨hok, htype | ⟨htype, hown⟩⟩ := hstarts
      · subst hok htype
        exact ⟨⟨.roundStart, message.data⟩, by
          simp [onMessage, gameEvent, ResponseType.name, roomEvents, hroom]⟩
      · subst hok htype
        exact ⟨⟨.joinRound, message.data⟩, by
          simp [onMessage, gameEvent, ResponseType.name, roomEvents, hroom, hown]⟩
    obtain ⟨event, hround⟩ := hround
    rw [hround]
    obtain ⟨hstarted, hended, htime, huser, hid, -⟩ :=
      applyRoundData_store { p with lastGameEvent := some event } now roomId message.data
    exact ⟨huser, hid, by rw [hstarted, Bool.or_true], by rw [hended, Bool.not_true, Bool.and_false],
      by rw [htime, Bool.or_true]; rfl⟩

/-- Announcements change nothing. -/
theorem onMessages_of_announcements (p : Panel) {ms : List (ℤ × Response)}
    (h : ∀ m ∈ ms, m.2.respType = .systemAnnouncement) : p.onMessages ms = p := by
  induction ms generalizing p with
  | nil => rfl
  | cons m ms ih =>
    obtain ⟨hm, hms⟩ := List.forall_mem_cons.mp h
    have hsame : p.onMessage m.1 m.2 = p := by
      have hnone : gameEvent m.2 = none := by simp [gameEvent, hm, ResponseType.name]
      simp only [onMessage, hnone]
    rw [onMessages_cons, hsame, ih p hms]

end Panel

/-! ## The end of a round -/

/-- A `round-end` is answered with an announcement to everybody. -/
theorem respType_roundEnd (s : Server) (m : Moment) (conn : ℕ) (name : GoText) (roomID : String)
    {d : Delivery} (hd : d ∈ (s.receive m conn (.request name (.of (.roundEnd roomID)))).2) :
    d.response.respType = .systemAnnouncement := by
  rw [Server.receive_request] at hd
  obtain ⟨rest, hrespond, hrest⟩ := Server.respond_deliveries
    { s.rename conn name with rooms := (handleRequest m name s.rooms (.of (.roundEnd roomID))).1 } m
    conn "round-end" (handleRequest m name s.rooms (.of (.roundEnd roomID))).2
  have hd : d ∈ (Server.respond _ m conn "round-end" _).2 := hd
  rw [hrespond] at hd
  rcases List.mem_append.mp hd with hd | hd
  · simp [Server.replayTo] at hd
  · rw [(hrest d hd).1, Handled.respType_answer, respType_handleRequest]
    rfl

/-- A panel that has read what a `round-end` sent is as it was before. -/
theorem drained_roundEnd (s : Server) (m : Moment) (conn : ℕ) (name : GoText) (roomID : String)
    (client : Client) (clock : ℕ → ℤ) (c : ℕ) :
    (client.deliver (sentTo c
      (s.receive m conn (.request name (.of (.roundEnd roomID)))).2)).drained clock =
        client.drained clock := by
  unfold Client.drained Client.deliver
  dsimp only
  rw [List.mapIdx_append, onMessages_append]
  refine onMessages_of_announcements _ fun x hx => ?_
  obtain ⟨i, hi, rfl⟩ := List.mem_mapIdx.mp hx
  obtain ⟨d, hd, hresp⟩ := List.mem_map.mp (List.getElem_mem hi)
  rw [← hresp]
  exact respType_roundEnd s m conn name roomID (List.mem_filter.mp hd).1

/-- A round that was ended is not in progress. -/
theorem roundStatus_roundEnd (s : Server) (m : Moment) (conn : ℕ) (name : GoText) {roomID : String}
    (hne : roomID ≠ "") :
    (s.receive m conn (.request name (.of (.roundEnd roomID)))).1.rooms.chatManager.roundStatus roomID ≠
      some .inProgress := by
  have hrooms : (s.receive m conn (.request name (.of (.roundEnd roomID)))).1.rooms.chatManager =
      s.rooms.chatManager.onRoom roomID Room.endRound :=
    (s.chatManager_receive m conn _).trans (if_neg hne)
  rw [hrooms]
  unfold ChatManager.roundStatus
  rw [ChatManager.onRoom_self]
  cases s.rooms.chatManager roomID with
  | none => exact fun h => by cases h
  | some room =>
    obtain ⟨users, round, filter⟩ := room
    cases round with
    | none => exact fun h => by cases h
    | some round => exact fun h => by cases h

/-! ## A panel does what it is told -/

/-- A notice with a say has the last word. -/
theorem lastSaid_append (tells : Notice → Option Bool) (before : Bool) (notices : List Notice)
    (notice : Notice) : lastSaid tells before (notices ++ [notice]) =
      (tells notice).getD (lastSaid tells before notices) := by
  unfold lastSaid
  rw [List.filterMap_append]
  cases h : tells notice with
  | none => simp [h]
  | some b => simp [h]

/-- What the diary says after one more notice. -/
theorem Diary.hear_says (d : Diary) (notice : Notice) :
    (d.hear notice).started = (notice.started d.opened.userId).getD d.started ∧
      (d.hear notice).ended = (notice.ended d.opened.userId).getD d.ended ∧
      (d.hear notice).timed = (notice.timed d.opened.userId).getD d.timed :=
  ⟨lastSaid_append .., lastSaid_append .., lastSaid_append ..⟩

/-- The panel says of the round what its diary says, as long as it is in a room. -/
structure Follows (d : Diary) (p : Panel) : Prop where
  userId : p.userId = d.opened.userId
  started : p.roomId ≠ none → p.isRoundStarted = d.started
  ended : p.roomId ≠ none → p.hasRoundEnded = d.ended
  timed : p.roomId ≠ none → p.roundEndTime.isSome = d.timed

section Follows

variable {d : Diary} {p : Panel}

/-- A message is read. -/
theorem Follows.message (h : Follows d p) (now : ℤ) (resp : Response) :
    Follows (d.hear (.message resp)) (p.onMessage now resp) := by
  obtain ⟨hears, hearsEnd, hearsTime⟩ := d.hear_says (.message resp)
  cases hroom : p.roomId with
  | none =>
    -- Without a room, a message is at most the last event.
    have hquiet : (p.onMessage now resp).userId = p.userId ∧ (p.onMessage now resp).roomId = none := by
      unfold onMessage
      cases gameEvent resp with
      | none => exact ⟨rfl, hroom⟩
      | some event => simp [roomEvents, hroom]
    exact ⟨hquiet.1.trans h.userId, fun hid => absurd hquiet.2 hid, fun hid => absurd hquiet.2 hid,
      fun hid => absurd hquiet.2 hid⟩
  | some roomId =>
    have hid : p.roomId ≠ none := by simp [hroom]
    obtain ⟨huser, -, hstarted, hended, htime⟩ := onMessage_store hroom now resp
    refine ⟨huser.trans h.userId, fun _ => ?_, fun _ => ?_, fun _ => ?_⟩
    · rw [hstarted, h.started hid, hears, Notice.started, h.userId]
      cases startsRound d.opened.userId resp <;> simp
    · rw [hended, h.ended hid, hearsEnd, Notice.ended, h.userId]
      cases startsRound d.opened.userId resp <;> simp
    · rw [htime, h.timed hid, hearsTime, Notice.timed, h.userId]
      cases startsRound d.opened.userId resp <;> simp

/-- central-service answers. -/
theorem Follows.act (h : Follows d p) (action : PanelAction) :
    Follows (d.hear (.answer action)) (p.act action) := by
  obtain ⟨hears, hearsEnd, hearsTime⟩ := d.hear_says (.answer action)
  -- Each answer says what it sets, and leaves what it does not speak of.
  cases action with
  | joinedRoom roomId lastRoundStatus =>
    exact ⟨h.userId, fun _ => hears.symm, fun _ => hearsEnd.symm, fun _ => hearsTime.symm⟩
  | loadedRoom now roomId lastRound =>
    cases lastRound with
    | none => exact ⟨h.userId, fun _ => hears.symm, fun _ => hearsEnd.symm, fun _ => hearsTime.symm⟩
    | some round =>
      have huser : (p.act (.loadedRoom now roomId (some round))).userId = p.userId := by
        unfold Panel.act loadedRoom
        dsimp only
        split <;> rfl
      refine ⟨huser.trans h.userId, fun _ => ?_, fun _ => ?_, fun _ => ?_⟩
      · rw [hears]
        by_cases hstarted : round.status = "started" <;>
          simp [Panel.act, loadedRoom, hstarted, Notice.started]
      · rw [hearsEnd]
        by_cases hstarted : round.status = "started" <;>
          simp [Panel.act, loadedRoom, hstarted, Notice.ended]
      · rw [hearsTime]
        by_cases hstarted : round.status = "started"
        · by_cases htime : round.lastUpdated + round.duration * 60 * 1000 > now <;>
            simp [Panel.act, loadedRoom, hstarted, Notice.timed, htime, initRoom]
        · simp [Panel.act, loadedRoom, hstarted, Notice.timed]
  | endConfirmed =>
    exact ⟨h.userId, fun _ => hears.symm, fun _ => hearsEnd.symm,
      fun hid => (h.timed hid).trans hearsTime.symm⟩
  | endSettled =>
    exact ⟨h.userId, fun hid => (h.started hid).trans hears.symm,
      fun hid => (h.ended hid).trans hearsEnd.symm, fun _ => hearsTime.symm⟩
  | resetRoom =>
    exact ⟨h.userId, fun hid => absurd rfl hid, fun hid => absurd rfl hid, fun hid => absurd rfl hid⟩

/-- A list of messages is read. -/
theorem Follows.messages (h : Follows d p) (ms : List (ℤ × Response)) :
    Follows (d.reading (ms.map Prod.snd)) (p.onMessages ms) := by
  induction ms generalizing d p with
  | nil => simpa [Diary.reading] using h
  | cons m ms ih =>
    have hrest := ih (h.message m.1 m.2)
    simpa [Diary.reading, Diary.hear] using hrest

end Follows

/-- On each connection there is a panel exactly when there is a diary, and it does what it is told.
-/
def Matched (c : ℕ) (w : Watched) : Prop :=
  ∀ client, w.site.clients c = some client → ∃ d, w.diary = some d ∧ Follows d client.panel

/-- An event leaves the panel doing what it is told. -/
theorem Matched.step {c : ℕ} {w : Watched} (h : Matched c w) (e : SiteEvent) :
    Matched c (w.step c e) := by
  intro client hclient
  cases e with
  | opened conn name panel =>
    unfold Watched.step Site.step Site.note at *
    dsimp only at hclient ⊢
    split_ifs with hc
    · subst hc
      rw [Function.update_self] at hclient
      obtain rfl := Option.some.inj hclient
      exact ⟨_, rfl, ⟨rfl, fun _ => rfl, fun _ => rfl, fun _ => rfl⟩⟩
    · rw [Function.update_of_ne (Ne.symm hc)] at hclient
      exact h client hclient
  | closed conn =>
    unfold Watched.step Site.step Site.note at *
    dsimp only at hclient ⊢
    split_ifs with hc
    · subst hc
      rw [Function.update_self] at hclient
      cases hclient
    · rw [Function.update_of_ne (Ne.symm hc)] at hclient
      exact h client hclient
  | received m conn msg =>
    have hdeliver : (w.site.clients c).map (fun client => client.deliver
        (sentTo c (w.site.server.receive m conn msg).2)) = some client := hclient
    -- A delivery only lengthens the inbox; the panel is as before.
    obtain ⟨before, hbefore, rfl⟩ := Option.map_eq_some_iff.mp hdeliver
    exact h before hbefore
  | read conn now =>
    unfold Watched.step Site.step Site.onClient Site.note at *
    dsimp only at hclient ⊢
    split_ifs with hc
    · subst hc
      rw [Function.update_self] at hclient
      obtain ⟨before, hbefore, rfl⟩ := Option.map_eq_some_iff.mp hclient
      obtain ⟨d, hd, hfollows⟩ := h before hbefore
      rw [hd, hbefore, Option.bind_some]
      cases hinbox : before.inbox with
      | nil => exact ⟨d, rfl, by simpa [hinbox] using hfollows⟩
      | cons resp inbox => exact ⟨_, rfl, by simpa [hinbox] using hfollows.message now resp⟩
    · rw [Function.update_of_ne (Ne.symm hc)] at hclient
      exact h client hclient
  | acted conn action =>
    unfold Watched.step Site.step Site.onClient Site.note at *
    dsimp only at hclient ⊢
    split_ifs with hc
    · subst hc
      rw [Function.update_self] at hclient
      obtain ⟨before, hbefore, rfl⟩ := Option.map_eq_some_iff.mp hclient
      obtain ⟨d, hd, hfollows⟩ := h before hbefore
      rw [hd]
      exact ⟨_, rfl, hfollows.act action⟩
    · rw [Function.update_of_ne (Ne.symm hc)] at hclient
      exact h client hclient

/-- Along a run, a watched site is the site. -/
theorem site_run (c : ℕ) (es : List SiteEvent) (w : Watched) :
    (run (Watched.step c) w es).site = run Site.step w.site es := by
  induction es generalizing w with
  | nil => rfl
  | cons e es ih => exact ih (w.step c e)

/-- What a panel says when it has read everything is what its diary says, with what is unread. -/
theorem follows_drained (es : List SiteEvent) (c : ℕ) {client : Client}
    (hclient : (run Site.step .start es).clients c = some client) (clock : ℕ → ℤ) :
    ∃ d, diaryOf c es = some d ∧ Follows (d.reading client.inbox) (client.drained clock) := by
  have hkept : Matched c (run (Watched.step c) ⟨.start, none⟩ es) := by
    have halways : Along (Watched.step c) (fun _ _ => True) ⟨.start, none⟩ es :=
      Along.of_forall fun _ _ => trivial
    have hstart : Matched c ⟨.start, none⟩ := fun _ h => by cases h
    exact (invariant_along (I := Matched c) (fun _ e h _ => h.step e) hstart halways).last
  obtain ⟨d, hd, hfollows⟩ := hkept client (by rw [site_run]; exact hclient)
  refine ⟨d, hd, ?_⟩
  have hread := hfollows.messages (client.inbox.mapIdx fun i resp => (clock i, resp))
  have hinbox : (client.inbox.mapIdx fun i resp => (clock i, resp)).map Prod.snd = client.inbox := by
    apply List.ext_getElem
    · simp
    · simp
  rwa [hinbox] at hread

/-- Messages leave a panel in its room. -/
theorem roomId_onMessages {p : Panel} {roomId : String} (hroom : p.roomId = some roomId)
    (ms : List (ℤ × Response)) : (p.onMessages ms).roomId = some roomId := by
  induction ms generalizing p with
  | nil => exact hroom
  | cons m ms ih => exact ih ((onMessage_store hroom m.1 m.2).2.1.trans hroom)

/-- rtc-service handles a `round-end`. -/
def Site.endsRound (s : Site) (m : Moment) (conn : ℕ) (name : GoText) (roomID : String) : Site :=
  s.step (.received m conn (.request name (.of (.roundEnd roomID))))

/-- What holds of the panels in a room after a `round-end` that was read, holds of them before it.
-/
theorem forall_endsRound {s : Site} {P : Panel → Prop} (m : Moment) (conn : ℕ) (name : GoText)
    (roomID : String) (clock : ℕ → ℤ) :
    (∀ c client, (s.endsRound m conn name roomID).clients c = some client →
        client.panel.roomId = some roomID → P (client.drained clock)) ↔
      ∀ c client, s.clients c = some client → client.panel.roomId = some roomID →
        P (client.drained clock) := by
  -- Each client gets what was sent to it, and learns nothing from it.
  have hclients : ∀ c, (s.endsRound m conn name roomID).clients c =
      (s.clients c).map fun client => client.deliver
        (sentTo c (s.server.receive m conn (.request name (.of (.roundEnd roomID)))).2) := fun c => rfl
  constructor
  · intro h c client hc hroom
    have hafter := h c _ ((hclients c).trans (congrArg (Option.map _) hc)) hroom
    rwa [drained_roundEnd] at hafter
  · intro h c client hc hroom
    rw [hclients c] at hc
    obtain ⟨before, hbefore, rfl⟩ := Option.map_eq_some_iff.mp hc
    rw [drained_roundEnd]
    exact h c before hbefore hroom

/-- What the panels in a room were told along a run, with what they have not read, has the property.
-/
def Told (P : Diary → Prop) (es : List SiteEvent) (roomID : String) : Prop :=
  ∀ c client d, (run Site.step .start es).clients c = some client → diaryOf c es = some d →
    client.panel.roomId = some roomID → P (d.reading client.inbox)

/-- What panels say when they have read everything is what they were told. -/
theorem told_iff {P : Panel → Prop} {Q : Diary → Prop}
    (h : ∀ d p, Follows d p → p.roomId ≠ none → (P p ↔ Q d)) (es : List SiteEvent) (roomID : String)
    (clock : ℕ → ℤ) :
    (∀ c client, (run Site.step .start es).clients c = some client →
        client.panel.roomId = some roomID → P (client.drained clock)) ↔ Told Q es roomID := by
  have hsays : ∀ c client, (run Site.step .start es).clients c = some client →
      client.panel.roomId = some roomID →
        ∃ d, diaryOf c es = some d ∧ (P (client.drained clock) ↔ Q (d.reading client.inbox)) := by
    intro c client hclient hroom
    obtain ⟨d, hd, hfollows⟩ := follows_drained es c hclient clock
    have hid : (client.drained clock).roomId = some roomID := roomId_onMessages hroom _
    exact ⟨d, hd, h _ _ hfollows (by simp [hid])⟩
  constructor
  · intro hall c client d hclient hd hroom
    obtain ⟨d', hd', hiff⟩ := hsays c client hclient hroom
    obtain rfl := Option.some.inj (hd'.symm.trans hd)
    exact hiff.mp (hall c client hclient hroom)
  · intro hall c client hclient hroom
    obtain ⟨d, hd, hiff⟩ := hsays c client hclient hroom
    exact hiff.mpr (hall c client d hclient hd hroom)

/-- In every run, once rtc-service has handled a `round-end` and the panels in the room have read
everything, they say that the round is over exactly when the last word in their diaries is that they
are in no round, that it is over, and that there is no end time. In a room with a name, the round of
rtc-service is then not in progress, and the panels agree with it exactly when the last word is that
they are in no round. -/
theorem learnt_iff (es : List SiteEvent) (m : Moment) (conn : ℕ) (name : GoText) (roomID : String)
    (clock : ℕ → ℤ) :
    (((run Site.step .start es).endsRound m conn name roomID).Learnt clock roomID ↔
      Told (fun d => d.started = false ∧ d.ended = true ∧ d.timed = false) es roomID) ∧
    (roomID ≠ "" →
      ((run Site.step .start es).endsRound m conn name roomID).server.rooms.chatManager.roundStatus
          roomID ≠ some .inProgress ∧
        (((run Site.step .start es).endsRound m conn name roomID).Agrees clock roomID ↔
          Told (fun d => d.started = false) es roomID)) := by
  have hover : ∀ d p, Follows d p → p.roomId ≠ none →
      (p.SaysEnded ↔ d.started = false ∧ d.ended = true ∧ d.timed = false) := by
    intro d p h hid
    rw [← h.started hid, ← h.ended hid, ← h.timed hid, Option.isSome_eq_false_iff,
      Option.isNone_iff_eq_none]
    exact Iff.rfl
  refine ⟨(forall_endsRound m conn name roomID clock).trans (told_iff hover es roomID clock),
    fun hne => ?_⟩
  have hstatus := roundStatus_roundEnd (run Site.step .start es).server m conn name hne
  -- The round of rtc-service is over, so a panel agrees when it shows none.
  have hidle : ∀ d p, Follows d p → p.roomId ≠ none →
      ((p.isRoundStarted = true ↔ ((run Site.step .start es).endsRound m conn name
        roomID).server.rooms.chatManager.roundStatus roomID = some .inProgress) ↔
          d.started = false) := by
    intro d p h hid
    rw [← h.started hid, ← Bool.not_eq_true]
    exact iff_false_right hstatus
  have hafter := forall_endsRound (s := run Site.step .start es) (P := fun p =>
    p.isRoundStarted = true ↔ ((run Site.step .start es).endsRound m conn name
      roomID).server.rooms.chatManager.roundStatus roomID = some .inProgress) m conn name roomID clock
  exact ⟨hstatus, hafter.trans (told_iff hidle es roomID clock)⟩

/-! ## A round that goes on -/

/-- Alice's panel connects and joins a room, and she is put into its round. -/
def joinsRound : List SiteEvent :=
  [.opened 1 (utf8 "alice") (loadedPanel (utf8 "alice")),
    .received (.plain 1000) 1 rejoin,
    .received (.plain 2000) 0
      (.request centralServiceName (.of (.roundStart "room" ["two-sum"] 2 30))),
    .read 1 2000, .read 1 2000]

/-- The state after the end of the round. -/
def roundOver : Site :=
  (run Site.step .start joinsRound).step
    (.received (.plain 9000) 0 (.request centralServiceName (.of (.roundEnd "room"))))

/-- Everything is read at one time. -/
def secondNine : ℕ → ℤ := fun _ => 9000

/-- Whether alice's panel is in the round, when everything is read. -/
def aliceStarted : Option Bool :=
  (roundOver.clients 1).map fun client => (client.drained secondNine).isRoundStarted

/-- rtc-service has ended the round, and alice's panel is in it, until its end time. -/
theorem not_learnt :
    roundOver.server.rooms.chatManager.roundStatus "room" = some .ended ∧
      aliceStarted = some true ∧ ¬ roundOver.Learnt secondNine "room" := by
  refine ⟨by decide +kernel, by decide +kernel, fun h => ?_⟩
  have htold := h 1 ((roundOver.clients 1).get (by decide +kernel)) (Option.some_get _).symm
    (by decide +kernel)
  exact absurd htold (by decide +kernel)

end Bsg.Extension
