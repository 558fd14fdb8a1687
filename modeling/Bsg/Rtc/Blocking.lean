import Bsg.Rtc.Service

/-!
# Readers and writers

Each connection has two goroutines: a reader, which handles what arrives and sends the answers, and
a writer, which takes what is sent to its connection. The channel between them has no buffer, so a
reader waits until the writer of the receiver takes the message, and while it replays a room's
history it holds the room's read lock. A writer returns when a ping fails, and from then on nobody
takes what is sent to its connection.

`Goroutines.step` lets one goroutine do its next piece: handling a request, finding a receiver,
handing over a message. `free_step` says which event makes a reader wait for a writer that has
returned. Where connections are given up in order (`Orderly`), none ever does (`free_of_orderly`);
one that does waits for good, and keeps the lock (`Stuck.along`).
-/

namespace Bsg.Rtc

open Bsg.Foundations

/-- What a handled request is answered with. -/
structure Answer where
  respType : ResponseType
  roomID : String
  data : Data
  deriving DecidableEq, Repr

/-- The response that is sent. -/
def Answer.resp (a : Answer) : Response := newOkResponse a.respType a.data a.roomID

/-- Where the reader of a connection is. -/
inductive Reader where
  /-- It waits for the next message. -/
  | reading
  /-- It read a request and is about to handle it. -/
  | handling (name : GoText) (r : ClientRequest)
  /-- It waits to send an error on its own connection. -/
  | refusing (resp : Response)
  /-- It holds the read lock of the room, and waits to send an old message on its own connection. -/
  | replaying (a : Answer) (prevMsg : Response) (rest : List Response)
  /-- It is about to look for the room of the answer. -/
  | answering (a : Answer)
  /-- It is about to look for the service of the next user. -/
  | searching (a : Answer) (users : List GoText) (senderReceived : Bool)
  /-- It waits to send the answer on the connection of a user. -/
  | sending (a : Answer) (userService : ℕ) (users : List GoText) (senderReceived : Bool)
  /-- It waits to send the answer on its own connection. -/
  | returning (a : Answer)
  /-- The answer is sent; it is about to look for the front-end service. -/
  | ending (a : Answer)
  /-- It waits to send the answer to the front-end service. -/
  | copying (a : Answer) (frontEnd : ℕ)
  | returned
  deriving DecidableEq, Repr

/-- Whether the writer of a connection still takes what is sent. -/
inductive Writer where
  | running
  | stopped
  deriving DecidableEq, Repr

/-- The connection on which the reader of `conn` waits to send. -/
def Reader.waitsFor (conn : ℕ) : Reader → Option ℕ
  | .refusing _ | .replaying .. | .returning _ => some conn
  | .sending _ c _ _ | .copying _ c => some c
  | _ => none

/-- The room whose read lock a reader holds. -/
def Reader.holds : Reader → Option String
  | .replaying a _ _ => some a.roomID
  | _ => none

/-- Where a reader goes on when its message was taken. -/
def Reader.sent (conn : ℕ) : Reader → Reader
  | .refusing _ => .reading
  | .replaying a _ [] => .answering a
  | .replaying a _ (prevMsg :: rest) => .replaying a prevMsg rest
  | .sending a c users senderReceived => .searching a users (senderReceived || c = conn)
  | .returning a => .ending a
  | .copying .. => .reading
  | p => p

/-- Whether a reader still has something to send on its own connection: an error, a replay, or an
answer that has not come to it as a user of the room. -/
def Reader.owes : Reader → Bool
  | .handling .. | .refusing _ | .replaying .. | .answering _ | .returning _ => true
  | .searching _ _ senderReceived | .sending _ _ _ senderReceived => !senderReceived
  | _ => false

/-- The name that a reader looks for next. -/
def Reader.seeks : Reader → Option GoText
  | .searching _ (user :: _) _ => some user
  | .ending _ => some Server.frontEndService
  | _ => none

/-- rtc-service with the goroutines of all connections opened so far. -/
structure Goroutines where
  server : Server
  reader : ℕ → Reader
  writer : ℕ → Writer
  opened : List ℕ

/-- The beginning, without connections. -/
def Goroutines.start : Goroutines := ⟨.start, fun _ => .returned, fun _ => .stopped, []⟩

/-- What can happen. -/
inductive GoEvent where
  | connect (conn : ℕ) (name : GoText)
  /-- The reader reads a message. -/
  | message (conn : ℕ) (msg : Inbound)
  /-- The reader does its next piece; it ranges over the users of a room in some order. -/
  | go (conn : ℕ) (m : Moment) (users : Arrangement GoText)
  /-- The message that the reader waits to send is taken. -/
  | take (conn : ℕ)
  /-- Reading fails, and the reader returns. -/
  | hangUp (conn : ℕ)
  /-- A ping fails, and the writer returns. -/
  | stop (conn : ℕ)
  /-- The connection is removed, as both goroutines do when they return. -/
  | remove (conn : ℕ)

/-- The connection that an event is about. -/
def GoEvent.subject : GoEvent → ℕ
  | .connect conn _ | .message conn _ | .go conn _ _ | .take conn | .hangUp conn | .stop conn
  | .remove conn => conn

namespace Goroutines

/-- Somebody holds the read lock of the room. -/
def locked (s : Goroutines) (roomID : String) : Bool :=
  s.opened.any fun conn => (s.reader conn).holds = some roomID

/-- The reader is at another point. -/
def goTo (s : Goroutines) (conn : ℕ) (p : Reader) : Goroutines :=
  { s with reader := Function.update s.reader conn p }

/-- The reader is at another point, and the server has changed. -/
def goOn (s : Goroutines) (conn : ℕ) (server : Server) (p : Reader) : Goroutines :=
  { s.goTo conn p with server := server }

/-- The room that a handler changes, for which it takes the write lock. -/
def changes (rooms : Rooms) : ClientRequest → Option String
  | .of (.joinRoom userHandle roomID _ _ _) => if userHandle = [] then none else some roomID
  | .of (.leaveRoom userHandle roomID _) =>
    (rooms roomID).bind fun room => if room.users.contains userHandle then some roomID else none
  | .of (.roundStart roomID _ _ _) | .of (.roundEnd roomID) => some roomID
  | .of (.joinRound roomID userID _) => if userID = [] then none else some roomID
  | _ => none

/-- The handler has to wait for the room. -/
def waitsToHandle (s : Goroutines) (r : ClientRequest) : Bool :=
  (changes s.server.rooms r).any s.locked

/-- Storing the answer has to wait for the room. -/
def waitsToStore (s : Goroutines) (a : Answer) : Bool := a.respType.kept && s.locked a.roomID

/-- Removing an expired room has to wait for it. -/
def waitsToRemove (s : Goroutines) (a : Answer) : Bool :=
  a.respType = .roomExpired && s.locked a.roomID

/-- The server after a request is handled. -/
def handled (s : Goroutines) (m : Moment) (name : GoText) (r : ClientRequest) : Server :=
  { s.server with rooms := (handleRequest m name s.server.rooms r).1 }

/-- What is sent again for a handled request. -/
def replayed (s : Goroutines) (m : Moment) (conn : ℕ) (name : GoText) (r : ClientRequest) :
    List Response :=
  ((s.handled m name r).replayTo conn r.type
    (handleRequest m name s.server.rooms r).2.roomID).map Delivery.response

/-- Handles a request, and goes on to what is sent first. -/
def handleNext (s : Goroutines) (m : Moment) (conn : ℕ) (name : GoText) (r : ClientRequest) :
    Goroutines :=
  match (handleRequest m name s.server.rooms r).2 with
  | ⟨respType, roomID, .error err⟩ =>
    s.goOn conn (s.handled m name r) (.refusing (newErrorResponse respType err roomID))
  | ⟨respType, roomID, .ok data⟩ =>
    s.goOn conn (s.handled m name r)
      (match s.replayed m conn name r with
        | [] => .answering ⟨respType, roomID, data⟩
        | prevMsg :: rest => .replaying ⟨respType, roomID, data⟩ prevMsg rest)

/-- The next piece of a reader that does not wait to send. -/
def next (s : Goroutines) (conn : ℕ) (m : Moment) (order : Arrangement GoText) : Goroutines :=
  match s.reader conn with
  | .handling name r => if s.waitsToHandle r then s else s.handleNext m conn name r
  | .answering a =>
    match s.server.audience a.respType a.data a.roomID with
    | none => s.goTo conn (.returning a)
    | some room =>
      if s.waitsToStore a then s
      else s.goOn conn (s.server.keep a.roomID a.resp) (.searching a (order.order room.users) false)
  | .searching a [] senderReceived =>
    s.goTo conn (if senderReceived then .ending a else .returning a)
  | .searching a (user :: users) senderReceived =>
    s.goTo conn
      (match s.server.findService m user with
        | some userService => .sending a userService users senderReceived
        | none => .searching a users senderReceived)
  | .ending a =>
    if s.waitsToRemove a then s
    else s.goOn conn (s.server.tearDown a.respType a.roomID)
      (match s.server.findService m Server.frontEndService with
        | some frontEnd => .copying a frontEnd
        | none => .reading)
  | _ => s

/-- A message is read. -/
def read (s : Goroutines) (conn : ℕ) : Inbound → Goroutines
  | .unreadable err => s.goTo conn (.refusing (newErrorResponse .general err ""))
  | .invalid name err =>
    s.goOn conn (s.server.rename conn name) (.refusing (newErrorResponse .general err ""))
  | .malformed name respType roomID err =>
    s.goOn conn (s.server.rename conn name) (.refusing (newErrorResponse respType err roomID))
  | .request name r => s.goOn conn (s.server.rename conn name) (.handling name r)

/-- The state after an event. -/
def step (s : Goroutines) : GoEvent → Goroutines
  | .connect conn name =>
    if conn ∈ s.opened then s
    else ⟨s.server.connect conn name, Function.update s.reader conn .reading,
      Function.update s.writer conn .running, conn :: s.opened⟩
  | .message conn msg => if s.reader conn = .reading then s.read conn msg else s
  | .go conn m order => s.next conn m order
  | .take conn =>
    match (s.reader conn).waitsFor conn with
    | none => s
    | some c => if s.writer c = .running then s.goTo conn ((s.reader conn).sent conn) else s
  | .hangUp conn => if s.reader conn = .reading then s.goTo conn .returned else s
  | .stop conn => { s with writer := Function.update s.writer conn .stopped }
  | .remove conn =>
    if s.reader conn = .returned ∨ s.writer conn = .stopped then
      { s with server := s.server.disconnect conn }
    else s

/-- A message that is a request; any other one is answered with an error at once. -/
def isRequest : Inbound → Bool
  | .request .. => true
  | _ => false

/-- No reader waits to send on a connection whose writer has returned. -/
def Free (s : Goroutines) : Prop :=
  ∀ conn c, (s.reader conn).waitsFor conn = some c → s.writer c = .running

/-- The connection that a reader turns to: its own, for an error, a replay or an answer that reached
nobody else, or the one that it finds. -/
def turnsTo (s : Goroutines) : GoEvent → Option ℕ
  | .message conn msg =>
    if s.reader conn = .reading ∧ ¬ isRequest msg then some conn else none
  | .go conn m _ =>
    match s.reader conn with
    | .handling name r =>
      if s.waitsToHandle r then none
      else if (handleRequest m name s.server.rooms r).2.result.isOk ∧ s.replayed m conn name r = []
        then none
      else some conn
    | .answering a =>
      if (s.server.audience a.respType a.data a.roomID).isNone then some conn else none
    | .searching _ [] senderReceived => if senderReceived then none else some conn
    | .searching _ (user :: _) _ => s.server.findService m user
    | .ending a =>
      if s.waitsToRemove a then none else s.server.findService m Server.frontEndService
    | _ => none
  | _ => none

/-- A writer returns only while no reader waits to send on its connection, and no reader turns to a
connection whose writer has returned. -/
def Heeds (s : Goroutines) (e : GoEvent) : Prop :=
  (∀ conn, e = .stop conn → ∀ r ∈ s.opened, (s.reader r).waitsFor r ≠ some conn) ∧
    ∀ c, s.turnsTo e = some c → s.writer c = .running

/-- Connections are given up in order. A writer returns only while no reader waits to send on its
connection and its own reader has nothing left to send on it; that reader reads nothing more; and
nobody looks for a name under which a connection without a writer is still registered. -/
def Orderly (s : Goroutines) : GoEvent → Prop
  | .stop conn =>
    (∀ r ∈ s.opened, (s.reader r).waitsFor r ≠ some conn) ∧ (s.reader conn).owes = false
  | .message conn _ => s.reader conn = .reading → s.writer conn = .running
  | .go conn _ _ =>
    ∀ c ∈ s.server.services, (s.reader conn).seeks = some c.2 → s.writer c.1 = .running
  | _ => True

instance (s : Goroutines) (e : GoEvent) : Decidable (s.Orderly e) :=
  match e with
  | .stop _ => inferInstanceAs (Decidable (_ ∧ _))
  | .message .. => inferInstanceAs (Decidable (_ → _))
  | .go .. => inferInstanceAs (Decidable (∀ _ ∈ _, _))
  | .connect .. | .take _ | .hangUp _ | .remove _ => inferInstanceAs (Decidable True)

/-! ## What an event changes -/

section Step

variable {s : Goroutines} {conn c : ℕ}

/-- The reader is where it went. -/
@[simp] theorem reader_goTo_self (s : Goroutines) (conn : ℕ) (p : Reader) :
    (s.goTo conn p).reader conn = p := Function.update_self ..

/-- So it is when it has changed the server. -/
@[simp] theorem reader_goOn_self (s : Goroutines) (conn : ℕ) (server : Server) (p : Reader) :
    (s.goOn conn server p).reader conn = p := Function.update_self ..

/-- Only the one reader moves, and nothing happens to the writers. -/
structure Moves (conn : ℕ) (s s' : Goroutines) : Prop where
  reader : ∀ r, r ≠ conn → s'.reader r = s.reader r
  writer : s'.writer = s.writer
  opened : s'.opened = s.opened

/-- No reader has moved. -/
theorem Moves.refl (conn : ℕ) (s : Goroutines) : Moves conn s s := ⟨fun _ _ => rfl, rfl, rfl⟩

/-- One reader goes on. -/
theorem moves_goTo (s : Goroutines) (conn : ℕ) (p : Reader) : Moves conn s (s.goTo conn p) :=
  ⟨fun _ hr => Function.update_of_ne hr _ _, rfl, rfl⟩

/-- One reader goes on, and changes the server. -/
theorem moves_goOn (s : Goroutines) (conn : ℕ) (server : Server) (p : Reader) :
    Moves conn s (s.goOn conn server p) := ⟨fun _ hr => Function.update_of_ne hr _ _, rfl, rfl⟩

/-- Handling a request moves the reader that handles it. -/
theorem moves_handleNext (s : Goroutines) (m : Moment) (conn : ℕ) (name : GoText)
    (r : ClientRequest) : Moves conn s (s.handleNext m conn name r) := by
  unfold handleNext
  split <;> exact moves_goOn ..

/-- So does the next step of a handler. -/
theorem moves_next (s : Goroutines) (conn : ℕ) (m : Moment) (order : Arrangement GoText) :
    Moves conn s (s.next conn m order) := by
  unfold next
  split
  · split
    · exact Moves.refl conn s
    · exact moves_handleNext ..
  · split
    · exact moves_goTo ..
    · split
      · exact Moves.refl conn s
      · exact moves_goOn ..
  · exact moves_goTo ..
  · exact moves_goTo ..
  · split
    · exact Moves.refl conn s
    · exact moves_goOn ..
  · exact Moves.refl conn s

/-- So does reading a message. -/
theorem moves_read (s : Goroutines) (conn : ℕ) (msg : Inbound) : Moves conn s (s.read conn msg) := by
  cases msg with
  | unreadable err => exact moves_goTo ..
  | invalid name err => exact moves_goOn ..
  | malformed name respType roomID err => exact moves_goOn ..
  | request name r => exact moves_goOn ..

/-- Unless a connection opens or a writer returns, only the one reader moves. -/
theorem moves_step (s : Goroutines) {e : GoEvent} (hconnect : ∀ conn name, e ≠ .connect conn name)
    (hstop : ∀ conn, e ≠ .stop conn) : Moves e.subject s (s.step e) := by
  cases e with
  | connect conn name => exact absurd rfl (hconnect conn name)
  | stop conn => exact absurd rfl (hstop conn)
  | message conn msg =>
    unfold step
    dsimp only
    split_ifs
    · exact moves_read ..
    · exact Moves.refl ..
  -- Every event concerns the reader of one connection, and leaves all writers.
  | go conn m order => exact moves_next ..
  | take conn =>
    unfold step
    dsimp only
    split
    · exact Moves.refl ..
    · split_ifs
      · exact moves_goTo ..
      · exact Moves.refl ..
  | hangUp conn =>
    unfold step
    dsimp only
    split_ifs
    · exact moves_goTo ..
    · exact Moves.refl ..
  | remove conn =>
    unfold step
    dsimp only
    split_ifs
    · exact ⟨fun _ _ => rfl, rfl, rfl⟩
    · exact Moves.refl ..

/-! ## Whom a reader turns to -/

/-- Handling a request leads to a reader that waits for its own writer, with an error or a replay,
or to one that does not wait. -/
theorem waitsFor_handleNext (s : Goroutines) (m : Moment) (conn : ℕ) (name : GoText)
    (r : ClientRequest) :
    ((s.handleNext m conn name r).reader conn).waitsFor conn =
      if (handleRequest m name s.server.rooms r).2.result.isOk ∧ s.replayed m conn name r = []
      then none else some conn := by
  unfold handleNext
  generalize (handleRequest m name s.server.rooms r).2 = h
  obtain ⟨respType, roomID, result⟩ := h
  cases result with
  | error err => simp [Except.isOk, Except.toBool, Reader.waitsFor]
  | ok data =>
    dsimp only
    rw [reader_goOn_self]
    cases hreplay : s.replayed m conn name r with
    | nil => simp [Except.isOk, Except.toBool, Reader.waitsFor]
    | cons prevMsg rest => simp [Reader.waitsFor]

/-- A reader that does a piece waits for the connection that it turned to, or stays where it was. -/
theorem waitsFor_next (s : Goroutines) (conn : ℕ) (m : Moment) (order : Arrangement GoText) :
    (s.turnsTo (.go conn m order)).isNone = true ∧ (s.next conn m order).reader conn = s.reader conn ∨
      ((s.next conn m order).reader conn).waitsFor conn = s.turnsTo (.go conn m order) := by
  unfold next turnsTo
  dsimp only
  cases hreader : s.reader conn with
  -- A piece that needs a room waits for it, and else turns to the next connection.
  | handling name r =>
    dsimp only
    by_cases hwaits : s.waitsToHandle r = true
    · rw [if_pos hwaits, if_pos hwaits]
      exact Or.inl ⟨rfl, hreader⟩
    · rw [if_neg hwaits, if_neg hwaits]
      exact Or.inr (waitsFor_handleNext ..)
  | answering a =>
    dsimp only
    cases haudience : s.server.audience a.respType a.data a.roomID with
    | none =>
      dsimp only
      rw [reader_goTo_self]
      exact Or.inr rfl
    | some room =>
      dsimp only
      by_cases hwaits : s.waitsToStore a = true
      · rw [if_pos hwaits]
        exact Or.inl ⟨rfl, hreader⟩
      · rw [if_neg hwaits, reader_goOn_self]
        exact Or.inr rfl
  | searching a users senderReceived =>
    cases users with
    | nil =>
      dsimp only
      rw [reader_goTo_self]
      cases senderReceived <;> exact Or.inr rfl
    | cons user users =>
      dsimp only
      rw [reader_goTo_self]
      cases s.server.findService m user <;> exact Or.inr rfl
  | ending a =>
    dsimp only
    by_cases hwaits : s.waitsToRemove a = true
    · rw [if_pos hwaits, if_pos hwaits]
      exact Or.inl ⟨rfl, hreader⟩
    · rw [if_neg hwaits, if_neg hwaits, reader_goOn_self]
      cases s.server.findService m Server.frontEndService <;> exact Or.inr rfl
  | _ => exact Or.inl ⟨rfl, hreader⟩

/-- What an event makes the reader that it is about wait for: the connection that it turned to, or
the one that it waited for before. -/
theorem waitsFor_step (s : Goroutines) {e : GoEvent} (hconnect : ∀ conn name, e ≠ .connect conn name)
    (hstop : ∀ conn, e ≠ .stop conn) :
    (∀ c, s.turnsTo e = some c → ((s.step e).reader e.subject).waitsFor e.subject = some c) ∧
      ∀ c, ((s.step e).reader e.subject).waitsFor e.subject = some c →
        s.turnsTo e = some c ∨ (s.reader e.subject).waitsFor e.subject = some c := by
  cases e with
  | connect conn name => exact absurd rfl (hconnect conn name)
  | stop conn => exact absurd rfl (hstop conn)
  | message conn msg =>
    unfold step turnsTo
    dsimp only [GoEvent.subject]
    by_cases hreading : s.reader conn = .reading
    · rw [if_pos hreading]
      -- A message that cannot be read is refused on its own connection.
      cases msg with
      | unreadable err => simp [read, isRequest, Reader.waitsFor, hreading]
      | invalid name err => simp [read, isRequest, Reader.waitsFor, hreading]
      | malformed name respType roomID err => simp [read, isRequest, Reader.waitsFor, hreading]
      | request name r => simp [read, isRequest, Reader.waitsFor]
    · rw [if_neg hreading, if_neg fun h => hreading h.1]
      exact ⟨fun c hc => (by cases hc), fun c hc => Or.inr hc⟩
  | go conn m order =>
    show (∀ c, _ → ((s.next conn m order).reader conn).waitsFor conn = some c) ∧
      ∀ c, ((s.next conn m order).reader conn).waitsFor conn = some c → _
    rcases s.waitsFor_next conn m order with ⟨hnone, hsame⟩ | hturns
    · rw [Option.isNone_iff_eq_none.mp hnone, hsame]
      exact ⟨fun c hc => (by cases hc), fun c hc => Or.inr hc⟩
    · rw [hturns]
      exact ⟨fun c hc => hc, fun c hc => Or.inl hc⟩
  | take conn =>
    refine ⟨fun c hc => (by cases hc), fun c hc => Or.inr ?_⟩
    unfold step at hc
    dsimp only [GoEvent.subject] at hc ⊢
    -- The writer takes what the reader waits to send: only a replay goes on to the same writer.
    cases hwaits : (s.reader conn).waitsFor conn with
    | none =>
      simp only [hwaits] at hc
      cases hc
    | some c' =>
      simp only [hwaits] at hc
      split_ifs at hc
      · rw [reader_goTo_self] at hc
        cases hreader : s.reader conn with
        | replaying a prevMsg rest =>
          rw [hreader] at hc hwaits
          cases rest with
          | nil => cases hc
          | cons prevMsg rest => exact hwaits.symm.trans hc
        | _ =>
          rw [hreader] at hc hwaits
          cases hc
      · exact hwaits.symm.trans hc
  | hangUp conn =>
    refine ⟨fun c hc => (by cases hc), fun c hc => Or.inr ?_⟩
    unfold step at hc
    dsimp only [GoEvent.subject] at hc ⊢
    split_ifs at hc
    · rw [reader_goTo_self] at hc
      cases hc
    · exact hc
  | remove conn =>
    refine ⟨fun c hc => (by cases hc), fun c hc => Or.inr ?_⟩
    unfold step at hc
    dsimp only [GoEvent.subject] at hc ⊢
    split_ifs at hc <;> exact hc

/-- A connection that was not opened has no reader. -/
def Founded (s : Goroutines) : Prop := ∀ conn, conn ∉ s.opened → s.reader conn = .returned

/-- A reader that has returned does nothing more. -/
theorem step_returned {e : GoEvent} (hconnect : ∀ conn name, e ≠ .connect conn name)
    (h : s.reader e.subject = .returned) : (s.step e).reader e.subject = .returned := by
  have hnot : s.reader e.subject ≠ .reading := by rw [h]; exact fun h => by cases h
  -- Only a reader that is reading, or in the middle of a message, does anything.
  cases e with
  | connect conn name => exact absurd rfl (hconnect conn name)
  | message conn msg =>
    unfold step
    dsimp only [GoEvent.subject] at h hnot ⊢
    rw [if_neg hnot]
    exact h
  | go conn m order =>
    dsimp only [GoEvent.subject] at h
    unfold step next
    simp only [h, GoEvent.subject]
  | take conn =>
    dsimp only [GoEvent.subject] at h
    unfold step
    simp only [h, GoEvent.subject, Reader.waitsFor]
  | hangUp conn =>
    unfold step
    dsimp only [GoEvent.subject] at h hnot ⊢
    rw [if_neg hnot]
    exact h
  | stop conn => exact h
  | remove conn =>
    unfold step
    dsimp only
    split_ifs <;> exact h

/-- No step makes a reader for a connection that was not opened. -/
theorem Founded.step (h : s.Founded) (e : GoEvent) : (s.step e).Founded := by
  intro conn hconn
  by_cases hconnect : ∃ c name, e = .connect c name
  · obtain ⟨c, name, rfl⟩ := hconnect
    unfold Goroutines.step at hconn ⊢
    dsimp only at hconn ⊢
    split_ifs at hconn ⊢
    · exact h conn hconn
    · dsimp only at hconn ⊢
      rw [List.mem_cons, not_or] at hconn
      rw [Function.update_of_ne hconn.1]
      exact h conn hconn.2
  have hconnect : ∀ c name, e ≠ .connect c name := fun c name he => hconnect ⟨c, name, he⟩
  by_cases hstop : ∃ c, e = .stop c
  · obtain ⟨c, rfl⟩ := hstop
    exact h conn hconn
  have hmoves := s.moves_step hconnect fun c he => hstop ⟨c, he⟩
  rw [hmoves.opened] at hconn
  obtain rfl | hne := eq_or_ne conn e.subject
  · exact step_returned hconnect (h _ hconn)
  · rw [hmoves.reader conn hne]
    exact h conn hconn

/-- A new connection makes nobody wait for a writer that has returned. -/
theorem Free.connect (h : s.Free) (conn : ℕ) (name : GoText) : (s.step (.connect conn name)).Free := by
  intro r c hwaits
  unfold step at hwaits ⊢
  dsimp only at hwaits ⊢
  split_ifs at hwaits ⊢
  · exact h r c hwaits
  · dsimp only at hwaits ⊢
    obtain rfl | hr := eq_or_ne r conn
    · rw [Function.update_self] at hwaits
      cases hwaits
    · rw [Function.update_of_ne hr] at hwaits
      obtain rfl | hc := eq_or_ne c conn
      · exact Function.update_self ..
      · rw [Function.update_of_ne hc]
        exact h r c hwaits

/-- A writer may return exactly when no reader waits to send on its connection. -/
theorem free_stop (hfounded : s.Founded) (hfree : s.Free) (conn : ℕ) :
    (s.step (.stop conn)).Free ↔ ∀ r ∈ s.opened, (s.reader r).waitsFor r ≠ some conn := by
  constructor
  · intro h r _ hwaits
    have hrunning : Function.update s.writer conn .stopped conn = .running := h r conn hwaits
    rw [Function.update_self] at hrunning
    cases hrunning
  · intro h r c hwaits
    change (s.reader r).waitsFor r = some c at hwaits
    show Function.update s.writer conn .stopped c = .running
    obtain rfl | hc := eq_or_ne c conn
    · by_cases hr : r ∈ s.opened
      · exact absurd hwaits (h r hr)
      · rw [hfounded r hr] at hwaits
        cases hwaits
    · rw [Function.update_of_ne hc]
      exact hfree r c hwaits

/-- An event keeps readers from waiting for a writer that has returned exactly when it heeds the
condition. -/
theorem free_step (hfounded : s.Founded) (hfree : s.Free) (e : GoEvent) :
    (s.step e).Free ↔ s.Heeds e := by
  -- A new connection is running, and a writer that stops must not be waited for.
  by_cases hconnect : ∃ c name, e = .connect c name
  · obtain ⟨c, name, rfl⟩ := hconnect
    exact iff_of_true (hfree.connect c name)
      ⟨fun conn he => (by cases he), fun c' hc' => (by cases hc')⟩
  by_cases hstop : ∃ c, e = .stop c
  · obtain ⟨c, rfl⟩ := hstop
    rw [free_stop hfounded hfree c]
    constructor
    · exact fun h => ⟨fun conn he => by cases he; exact h, fun c' hc' => by cases hc'⟩
    · exact fun h => h.1 c rfl
  have hconnect : ∀ c name, e ≠ .connect c name := fun c name he => hconnect ⟨c, name, he⟩
  have hstop : ∀ c, e ≠ .stop c := fun c he => hstop ⟨c, he⟩
  -- In any other event one reader turns to a connection, whose writer must be running.
  have hmoves := s.moves_step hconnect hstop
  obtain ⟨hturns, hwaits⟩ := s.waitsFor_step hconnect hstop
  constructor
  · intro h
    refine ⟨fun conn he => absurd he (hstop conn), fun c hc => ?_⟩
    have hrunning := h e.subject c (hturns c hc)
    rwa [hmoves.writer] at hrunning
  · intro h r c hc
    rw [hmoves.writer]
    obtain rfl | hne := eq_or_ne r e.subject
    · rcases hwaits c hc with hturned | hbefore
      · exact h.2 c hturned
      · exact hfree _ c hbefore
    · rw [hmoves.reader r hne] at hc
      exact hfree r c hc

end Step

/-! ## Giving up connections in order -/

section Orderly

variable {s : Goroutines}

/-- Where a writer has returned, the reader has nothing left to send. -/
def Settled (s : Goroutines) : Prop := ∀ c, s.writer c = .stopped → (s.reader c).owes = false

/-- A writer that has not stopped is running. -/
theorem writer_eq_running {w : Writer} (h : w ≠ .stopped) : w = .running := by
  cases w with
  | running => rfl
  | stopped => exact absurd rfl h

/-- A service that is found is registered under the name. -/
theorem mem_of_findService {s : Server} {m : Moment} {name : GoText} {c : ℕ}
    (h : s.findService m name = some c) : (c, name) ∈ s.services := by
  obtain ⟨⟨c', name'⟩, hfind, rfl⟩ := Option.map_eq_some_iff.mp h
  have hname := List.find?_some hfind
  obtain rfl : name' = name := of_decide_eq_true hname
  exact m.search.mem_order.mp (List.mem_of_find?_eq_some hfind)

/-- A reader that has nothing left to send on its connection has nothing after its next piece. -/
theorem owes_next (conn : ℕ) (m : Moment) (order : Arrangement GoText)
    (h : (s.reader conn).owes = false) : ((s.next conn m order).reader conn).owes = false := by
  unfold next
  cases hreader : s.reader conn with
  | handling name r => rw [hreader] at h; cases h
  | answering a => rw [hreader] at h; cases h
  -- The sender is only owed an answer when the search ends without finding him.
  | searching a users senderReceived =>
    rw [hreader] at h
    cases users with
    | nil =>
      obtain rfl : senderReceived = true := by simpa [Reader.owes] using h
      dsimp only
      rw [reader_goTo_self]
      rfl
    | cons user users =>
      dsimp only
      rw [reader_goTo_self]
      cases s.server.findService m user with
      | none => exact h
      | some c => exact h
  | ending a =>
    dsimp only
    split
    · rw [hreader]
      rfl
    · rw [reader_goOn_self]
      cases s.server.findService m Server.frontEndService with
      | none => rfl
      | some c => rfl
  | _ => rw [hreader] at h; simpa only [hreader] using h

/-- A message that was taken leaves a reader nothing more to send than it had. -/
theorem owes_sent (conn : ℕ) {p : Reader} (h : p.owes = false) : (p.sent conn).owes = false := by
  cases p with
  | replaying a prevMsg rest => cases h
  | sending a c users senderReceived =>
    obtain rfl : senderReceived = true := by simpa [Reader.owes] using h
    rfl
  | returning a => cases h
  | copying a c => rfl
  | refusing resp => rfl
  | _ => exact h

/-- An orderly event leaves nothing to send where a writer has returned. -/
theorem Settled.step (h : s.Settled) {e : GoEvent} (he : s.Orderly e) : (s.step e).Settled := by
  intro c hc
  by_cases hconnect : ∃ conn name, e = .connect conn name
  · obtain ⟨conn, name, rfl⟩ := hconnect
    unfold Goroutines.step at hc ⊢
    dsimp only at hc ⊢
    split_ifs at hc ⊢
    · exact h c hc
    · obtain rfl | hne := eq_or_ne c conn
      · dsimp only
        rw [Function.update_self]
        rfl
      · dsimp only at hc ⊢
        rw [Function.update_of_ne hne] at hc ⊢
        exact h c hc
  by_cases hstop : ∃ conn, e = .stop conn
  · obtain ⟨conn, rfl⟩ := hstop
    obtain rfl | hne := eq_or_ne c conn
    · exact he.2
    · exact h c ((Function.update_of_ne hne _ _).symm.trans hc)
  -- Any other event moves one reader, whose writer is as before.
  have hmoves := s.moves_step (fun conn name heq => hconnect ⟨conn, name, heq⟩)
    fun conn heq => hstop ⟨conn, heq⟩
  rw [hmoves.writer] at hc
  have hbefore := h c hc
  obtain rfl | hne := eq_or_ne c e.subject
  swap
  · rwa [hmoves.reader c hne]
  cases e with
  | connect conn name => exact absurd ⟨conn, name, rfl⟩ hconnect
  | stop conn => exact absurd ⟨conn, rfl⟩ hstop
  | message conn msg =>
    unfold Goroutines.step
    dsimp only [GoEvent.subject] at hc hbefore ⊢
    split_ifs with hreading
    · rw [he hreading] at hc
      cases hc
    · exact hbefore
  | go conn m order => exact owes_next conn m order hbefore
  | take conn =>
    unfold Goroutines.step
    dsimp only [GoEvent.subject] at hbefore ⊢
    split
    · exact hbefore
    · split_ifs
      · rw [reader_goTo_self]
        exact owes_sent conn hbefore
      · exact hbefore
  | hangUp conn =>
    unfold Goroutines.step
    dsimp only [GoEvent.subject] at hbefore ⊢
    split_ifs
    · rw [reader_goTo_self]
      rfl
    · exact hbefore
  | remove conn =>
    unfold Goroutines.step
    dsimp only [GoEvent.subject] at hbefore ⊢
    split_ifs <;> exact hbefore

/-- Where connections are given up in order, nobody turns to a writer that has returned: neither its
own reader, which has nothing left to send, nor another one, which does not find it. -/
theorem Settled.heeds (h : s.Settled) {e : GoEvent} (he : s.Orderly e) : s.Heeds e := by
  -- A reader that owes its own connection an answer has a writer that runs.
  have hown : ∀ conn, (s.reader conn).owes = true → s.writer conn = .running := by
    intro conn howes
    refine writer_eq_running fun hstopped => ?_
    rw [h conn hstopped] at howes
    cases howes
  refine ⟨fun conn heq => ?_, fun c hc => ?_⟩
  · subst heq
    exact he.1
  cases e with
  | message conn msg =>
    unfold turnsTo at hc
    dsimp only at hc
    split_ifs at hc with hreading
    obtain rfl := Option.some.inj hc
    exact he hreading.1
  | go conn m order =>
    unfold turnsTo at hc
    dsimp only at hc
    -- By the place of the reader: it turns to its own connection, or to one that it has found.
    cases hreader : s.reader conn with
    | handling name r =>
      rw [hreader] at hc
      dsimp only at hc
      split_ifs at hc
      obtain rfl := Option.some.inj hc
      exact hown conn (by rw [hreader]; rfl)
    | answering a =>
      rw [hreader] at hc
      dsimp only at hc
      split_ifs at hc
      obtain rfl := Option.some.inj hc
      exact hown conn (by rw [hreader]; rfl)
    | searching a users senderReceived =>
      rw [hreader] at hc
      cases users with
      | nil =>
        dsimp only at hc
        split_ifs at hc with hreceived
        obtain rfl := Option.some.inj hc
        exact hown conn (by rw [hreader]; simpa [Reader.owes] using hreceived)
      | cons user users =>
        exact he _ (mem_of_findService hc) (by rw [hreader]; rfl)
    | ending a =>
      rw [hreader] at hc
      dsimp only at hc
      split_ifs at hc
      exact he _ (mem_of_findService hc) (by rw [hreader]; rfl)
    | _ =>
      rw [hreader] at hc
      cases hc
  | _ => cases hc

end Orderly

/-- In every run in which connections are given up in order, no reader ever waits to send on a
connection whose writer has returned. -/
theorem free_of_orderly (es : List GoEvent) (h : Along step Orderly .start es) :
    Throughout step Free .start es := by
  have hfounded : start.Founded := fun _ _ => rfl
  have hsettled : start.Settled := fun _ _ => rfl
  have hfree : start.Free := fun _ _ hwaits => by cases hwaits
  have hkeep : ∀ (s : Goroutines) (e : GoEvent), s.Founded ∧ s.Settled ∧ s.Free → s.Orderly e →
      (s.step e).Founded ∧ (s.step e).Settled ∧ (s.step e).Free := fun s e hs he =>
    ⟨hs.1.step e, hs.2.1.step he, (free_step hs.1 hs.2.2 e).mpr (hs.2.1.heeds he)⟩
  exact (invariant_along hkeep ⟨hfounded, hsettled, hfree⟩ h).mono fun _ hs => hs.2.2

/-! ## A reader that waits for good -/

section Stuck

variable {s : Goroutines} {conn c : ℕ} {roomID : String}

/-- The reader waits to send on a connection whose writer has returned. -/
structure Stuck (conn c : ℕ) (p : Reader) (s : Goroutines) : Prop where
  reader : s.reader conn = p
  waits : p.waitsFor conn = some c
  writer : s.writer c = .stopped
  opened : conn ∈ s.opened ∧ c ∈ s.opened

/-- Nothing moves such a reader. -/
theorem Stuck.step {p : Reader} (h : Stuck conn c p s) (e : GoEvent) : Stuck conn c p (s.step e) := by
  have hnot : s.reader conn ≠ .reading := by
    rw [h.reader]
    rintro rfl
    cases h.waits
  -- A connection is opened under an id that is not in use, and a stopped writer stays so.
  by_cases hconnect : ∃ c' name, e = .connect c' name
  · obtain ⟨c', name, rfl⟩ := hconnect
    unfold Goroutines.step
    dsimp only
    split_ifs with hopened
    · exact h
    · have hne : ∀ x ∈ s.opened, x ≠ c' := fun x hx heq => hopened (heq ▸ hx)
      exact ⟨(Function.update_of_ne (hne conn h.opened.1) _ _).trans h.reader, h.waits,
        (Function.update_of_ne (hne c h.opened.2) _ _).trans h.writer,
        List.mem_cons_of_mem _ h.opened.1, List.mem_cons_of_mem _ h.opened.2⟩
  by_cases hstop : ∃ c', e = .stop c'
  · obtain ⟨c', rfl⟩ := hstop
    refine ⟨h.reader, h.waits, ?_, h.opened⟩
    show Function.update s.writer c' .stopped c = .stopped
    obtain rfl | hne := eq_or_ne c c'
    · exact Function.update_self ..
    · rw [Function.update_of_ne hne]
      exact h.writer
  -- Any other event is about one reader. When it is the one that waits, nothing happens.
  have hmoves := s.moves_step (fun c' name he => hconnect ⟨c', name, he⟩) fun c' he => hstop ⟨c', he⟩
  refine ⟨?_, h.waits, by rw [hmoves.writer]; exact h.writer, by rw [hmoves.opened]; exact h.opened⟩
  obtain rfl | hne := eq_or_ne conn e.subject
  swap
  · rw [hmoves.reader conn hne, h.reader]
  rw [← h.reader]
  have hwaits : (s.reader e.subject).waitsFor e.subject = some c := by
    rw [h.reader]
    exact h.waits
  cases e with
  | connect c' name => exact absurd ⟨c', name, rfl⟩ hconnect
  | stop c' => exact absurd ⟨c', rfl⟩ hstop
  | message conn msg =>
    unfold Goroutines.step
    dsimp only [GoEvent.subject] at hnot ⊢
    rw [if_neg hnot]
  | go conn m order =>
    dsimp only [GoEvent.subject] at hwaits ⊢
    unfold Goroutines.step next
    dsimp only
    cases hreader : s.reader conn with
    | refusing resp => exact hreader
    | replaying a prevMsg rest => exact hreader
    | sending a userService users senderReceived => exact hreader
    | returning a => exact hreader
    | copying a frontEnd => exact hreader
    | _ =>
      rw [hreader] at hwaits
      cases hwaits
  | take conn =>
    dsimp only [GoEvent.subject] at hwaits ⊢
    have hwriter : s.writer c ≠ .running := by
      rw [h.writer]
      decide
    unfold Goroutines.step
    simp only [hwaits]
    rw [if_neg hwriter]
  | hangUp conn =>
    unfold Goroutines.step
    dsimp only [GoEvent.subject] at hnot ⊢
    rw [if_neg hnot]
  | remove conn =>
    unfold Goroutines.step
    dsimp only
    split_ifs <;> rfl

/-- It waits for good. -/
theorem Stuck.along {p : Reader} (h : Stuck conn c p s) (es : List GoEvent) :
    Throughout Goroutines.step (Stuck conn c p) s es := by
  have halways : Along Goroutines.step (fun _ _ => True) s es := Along.of_forall fun _ _ => trivial
  exact invariant_along (fun _ e h _ => h.step e) h halways

/-- A room whose read lock it holds is locked. -/
theorem Stuck.locked {p : Reader} (h : Stuck conn c p s) (hholds : p.holds = some roomID) :
    s.locked roomID = true := by
  refine List.any_eq_true.mpr ⟨conn, h.opened.1, ?_⟩
  rw [h.reader]
  exact decide_eq_true hholds

/-- A handler leaves alone the rooms for which it does not take the write lock. -/
theorem rooms_handleRequest {rooms : Rooms} {r : ClientRequest} (h : changes rooms r ≠ some roomID)
    (m : Moment) (name : GoText) : (handleRequest m name rooms r).1 roomID = rooms roomID := by
  have hdoes := does_handleRequest m name rooms r
  generalize (handleRequest m name rooms r).1 = rooms' at hdoes ⊢
  -- Each kind of request changes the room for which it takes the lock, and no other one.
  cases hdoes with
  | nothing => rfl
  | join userHandle id userName suppress filter enabled hhandle =>
    have hchanges : some id ≠ some roomID := by simpa [changes, hhandle] using h
    exact Function.update_of_ne (fun heq => hchanges (by rw [heq])) _ _
  | leave userHandle id userName room hroom huser =>
    have hchanges : some id ≠ some roomID := by simpa [changes, hroom, huser] using h
    exact Function.update_of_ne (fun heq => hchanges (by rw [heq])) _ _
  | roundStart id problemList startTime duration =>
    exact Rooms.onRoom_of_ne rooms (fun heq => h (by rw [heq]; rfl)) _
  | roundEnd id => exact Rooms.onRoom_of_ne rooms (fun heq => h (by rw [heq]; rfl)) _
  | joinRound id userID userName huser =>
    exact Rooms.onRoom_of_ne rooms (fun heq => h (by rw [heq]; exact if_neg huser)) _

/-- While somebody holds the read lock of a room, nothing changes it. -/
theorem rooms_step_of_locked (h : s.locked roomID = true) (e : GoEvent) :
    (s.step e).server.rooms roomID = s.server.rooms roomID := by
  cases e with
  | connect conn name =>
    unfold Goroutines.step
    dsimp only
    split_ifs <;> rfl
  | message conn msg =>
    unfold Goroutines.step
    dsimp only
    split_ifs
    · cases msg <;> rfl
    · rfl
  | go conn m order =>
    unfold Goroutines.step next
    dsimp only
    cases hreader : s.reader conn with
    -- A handler, a stored answer and a removal each wait for the lock of their room.
    | handling name r =>
      dsimp only
      split_ifs with hwaits
      · rfl
      · have hchanges : changes s.server.rooms r ≠ some roomID := by
          intro hchanges
          unfold waitsToHandle at hwaits
          rw [hchanges] at hwaits
          exact hwaits h
        have hhandled : (s.handled m name r).rooms roomID = s.server.rooms roomID :=
          rooms_handleRequest hchanges m name
        unfold handleNext
        split <;> exact hhandled
    | answering a =>
      dsimp only
      split
      · rfl
      · split_ifs with hwaits
        · rfl
        · show (s.server.keep a.roomID a.resp).rooms roomID = _
          unfold Server.keep
          split_ifs with hkept
          · refine Rooms.onRoom_of_ne _ (fun heq => hwaits ?_) _
            have hkept : a.respType.kept = true := hkept
            unfold waitsToStore
            rw [hkept, ← heq, h]
            rfl
          · rfl
    | searching a users senderReceived => cases users <;> rfl
    | ending a =>
      dsimp only
      split_ifs with hwaits
      · rfl
      · show (s.server.tearDown a.respType a.roomID).rooms roomID = _
        unfold Server.tearDown
        split_ifs with hexpired
        · refine Function.update_of_ne (fun heq => hwaits ?_) _ _
          unfold waitsToRemove
          rw [hexpired, ← heq, h]
          rfl
        · rfl
    | _ => rfl
  | take conn =>
    unfold Goroutines.step
    dsimp only
    split
    · rfl
    · split_ifs <;> rfl
  | hangUp conn =>
    unfold Goroutines.step
    dsimp only
    split_ifs <;> rfl
  | stop conn => rfl
  | remove conn =>
    unfold Goroutines.step
    dsimp only
    split_ifs <;> rfl

/-- A room whose read lock is held by a reader that waits for good never changes again: no message
is added to it, and nobody joins or leaves it. -/
theorem Stuck.frozen {p : Reader} (h : Stuck conn c p s) (hholds : p.holds = some roomID) :
    ∀ es, (run Goroutines.step s es).server.rooms roomID = s.server.rooms roomID := by
  intro es
  induction es generalizing s with
  | nil => rfl
  | cons e es ih =>
    rw [run_cons, ih (h.step e)]
    exact rooms_step_of_locked (h.locked hholds) e

end Stuck

/-- A user opens a connection and joins a room, as its first one. -/
def opening : List GoEvent :=
  [.connect 1 (utf8 "alice"), .message 1 (.request (utf8 "alice")
      (.of (.joinRoom (utf8 "alice") "room" (utf8 "Alice") false none))),
    .go 1 (.plain 0) (.inserted _), .go 1 (.plain 0) (.inserted _), .go 1 (.plain 0) (.inserted _),
    .take 1, .go 1 (.plain 0) (.inserted _), .go 1 (.plain 0) (.inserted _)]

/-- Her connection breaks and is removed, and then a ping on it fails. Another user joins the room,
for which she is looked for in vain. -/
def givenUp : List GoEvent :=
  [.hangUp 1, .remove 1, .stop 1, .connect 2 (utf8 "bob"), .message 2 (.request (utf8 "bob")
      (.of (.joinRoom (utf8 "bob") "room" (utf8 "Bob") false none))),
    .go 2 (.plain 0) (.inserted _), .take 2, .go 2 (.plain 0) (.inserted _),
    .go 2 (.plain 0) (.inserted _), .take 2, .go 2 (.plain 0) (.inserted _),
    .go 2 (.plain 0) (.inserted _), .go 2 (.plain 0) (.inserted _)]

/-- The writer of the broken connection has returned, and nobody waits for it. -/
theorem free_givenUp :
    Throughout step Free .start (opening ++ givenUp) ∧
      (run step start (opening ++ givenUp)).writer 1 = .stopped ∧
      (run step start (opening ++ givenUp)).reader 2 = .reading :=
  ⟨free_of_orderly (opening ++ givenUp) (by decide +kernel), by decide +kernel, by decide +kernel⟩

/-- Another one joins, and a ping on his connection fails before the replay begins. -/
def pingFails : List GoEvent :=
  [.connect 2 (utf8 "bob"), .message 2 (.request (utf8 "bob")
      (.of (.joinRoom (utf8 "bob") "room" (utf8 "Bob") false none))),
    .stop 2, .go 2 (.plain 0) (.inserted _)]

/-- Then a reader waits for a writer that has returned, it will do so for good, and the room is as
it is for good. -/
theorem not_free :
    let s := run step start (opening ++ pingFails)
    ¬ s.Free ∧ ∀ es, ¬ (run step s es).Free ∧
      (run step s es).server.rooms "room" = s.server.rooms "room" := by
  intro s
  have hstuck : Stuck 2 2 (s.reader 2) s :=
    ⟨rfl, by decide +kernel, by decide +kernel, by decide +kernel⟩
  have hnot : ∀ t, Stuck 2 2 (s.reader 2) t → ¬ t.Free := by
    intro t ht hfree
    have hrunning := hfree 2 2 (by rw [ht.reader]; exact ht.waits)
    rw [ht.writer] at hrunning
    cases hrunning
  exact ⟨hnot s hstuck, fun es => ⟨hnot _ (hstuck.along es).last,
    hstuck.frozen (by decide +kernel) es⟩⟩

end Goroutines

end Bsg.Rtc
