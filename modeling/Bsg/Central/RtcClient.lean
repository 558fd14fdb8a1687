import Bsg.Rtc.Service

/-!
# The connection to rtc-service

How central-service talks to rtc-service over its one connection (`services/rtc-client.go`).
`SendMessage` writes a request, then takes messages off a channel of ten until one has the type that
it expects or the time is over; a mutex lets one call at a time do so. `IngressHandler` reads the
connection and puts every message into that channel, and waits while the channel is full.

A `Link` is central-service and rtc-service with what is on the way between them. Each message
carries the number of the request whose answer it is, which the code does not have. The messages
that no call has taken yet are `unread`; reading the connection keeps them and their order
(`unread_step`), and a call takes the first of them (`take_cases`).
-/

namespace Bsg.Central

open Bsg.Foundations Bsg.Rtc

/-- `expectedResponseType`; a type it does not list is answered by any message. -/
def expectedResponseType (requestType : String) : Option ResponseType :=
  if requestType = "join-room" then some .userJoined
  else if requestType = "leave-room" then some .userLeft
  else if requestType = "chat-message" then some .chatMessage
  else if requestType = "round-start" then some .roundStart
  else if requestType = "round-end" then some .systemAnnouncement
  else if requestType = "next-problem" then some .nextProblem
  else if requestType = "room-expired" then some .roomExpired
  else if requestType = "admin-change" then some .adminChange
  else if requestType = "join-round" then some .roundJoin
  else none

/-- The type expected in answer to a request. -/
def expectedFor (r : Request) : Option ResponseType := expectedResponseType (ClientRequest.of r).type

/-- A message on the connection, with the number of the request that it answers. -/
structure Sent where
  response : Response
  answers : Option ℕ
  deriving DecidableEq

/-- A call of `SendMessage` that waits for its response. -/
structure WaitingCall where
  number : ℕ
  expectedType : Option ResponseType
  deriving DecidableEq

/-- The call goes on past a message of another type. -/
def WaitingCall.takes (c : WaitingCall) (x : Sent) : Bool :=
  c.expectedType = none || c.expectedType = some x.response.respType

/-- What a call returned. -/
structure Returned where
  number : ℕ
  message : Sent
  deriving DecidableEq

/-- central-service and rtc-service, and what is on the way between them. -/
structure Link where
  server : Server
  /-- The number of calls that have sent a request. -/
  calls : ℕ
  /-- Requests that rtc-service has not read yet. -/
  requests : List (ℕ × Request)
  /-- Messages that `IngressHandler` has not read yet. -/
  socket : List Sent
  /-- The message that `IngressHandler` is sending into the channel. -/
  hand : Option Sent
  /-- The channel. -/
  ingress : List Sent
  /-- The call that holds the mutex. -/
  call : Option WaitingCall
  returned : List Returned

/-- The capacity of the channel. -/
def ingressCapacity : ℕ := 10

/-- The connection of central-service. -/
def centralConn : ℕ := 0

/-- The state after `InitializeRTCClient`. -/
def Link.start (server : Server) : Link := ⟨server, 0, [], [], none, [], none, []⟩

/-- What can happen on the connection and around it. -/
inductive LinkEvent where
  /-- A call of `SendMessage` begins. -/
  | send (r : Request)
  /-- rtc-service handles the next request of central-service. -/
  | handle (m : Moment)
  /-- rtc-service handles a message of another connection. -/
  | other (m : Moment) (conn : ℕ) (msg : Inbound)
  | connect (conn : ℕ) (name : GoText)
  | disconnect (conn : ℕ)
  /-- `IngressHandler` reads a message. -/
  | read
  /-- `IngressHandler` sends it into the channel. -/
  | pass
  /-- The call takes a message off the channel. -/
  | take
  /-- The deadline of the call. -/
  | timeout

/-- What rtc-service sends to central-service, when it handles the request with the given number. -/
def arriving (number : Option ℕ) (ds : List Delivery) : List Sent :=
  (ds.filter fun d => d.receiver = centralConn).map fun d =>
    ⟨d.response, if d.kind = .answer then number else none⟩

namespace Link

/-- How rtc-service is left after an event. -/
def serverAfter (l : Link) : LinkEvent → Server
  | .handle m =>
    match l.requests with
    | [] => l.server
    | (_, r) :: _ => (l.server.receive m centralConn (.request centralServiceName (.of r))).1
  | .other m conn msg =>
    if conn = centralConn then l.server else (l.server.receive m conn msg).1
  | .connect conn name => if conn = centralConn then l.server else l.server.connect conn name
  | .disconnect conn => if conn = centralConn then l.server else l.server.disconnect conn
  | _ => l.server

/-- The messages that rtc-service sends to central-service at an event. -/
def arrivals (l : Link) : LinkEvent → List Sent
  | .handle m =>
    match l.requests with
    | [] => []
    | (n, r) :: _ =>
      arriving (some n) (l.server.receive m centralConn (.request centralServiceName (.of r))).2
  | .other m conn msg =>
    if conn = centralConn then [] else arriving none (l.server.receive m conn msg).2
  | _ => []

/-- The state after an event; one that cannot happen now changes nothing. -/
def step (l : Link) (e : LinkEvent) : Link :=
  match e with
  | .send r =>
    match l.call with
    | some _ => l
    | none => { l with
        calls := l.calls + 1
        requests := l.requests ++ [(l.calls, r)]
        call := some ⟨l.calls, expectedFor r⟩ }
  | .handle _ => { l with
      server := l.serverAfter e
      requests := l.requests.tail
      socket := l.socket ++ l.arrivals e }
  | .other .. | .connect .. | .disconnect .. => { l with
      server := l.serverAfter e
      socket := l.socket ++ l.arrivals e }
  | .read =>
    match l.hand, l.socket with
    | none, x :: socket => { l with hand := some x, socket := socket }
    | _, _ => l
  | .pass =>
    match l.hand with
    | some x =>
      if l.ingress.length < ingressCapacity then { l with ingress := l.ingress ++ [x], hand := none }
      else l
    | none => l
  | .take =>
    match l.call, l.ingress with
    | some c, x :: ingress =>
      if c.takes x then
        { l with ingress := ingress, call := none, returned := l.returned ++ [⟨c.number, x⟩] }
      else { l with ingress := ingress }
    | _, _ => l
  | .timeout => { l with call := none }

/-- The messages that no call has taken yet, in the order of their arrival. -/
def unread (l : Link) : List Sent := l.ingress ++ l.hand.toList ++ l.socket

/-- `IngressHandler` waits for room in the channel. -/
def Blocked (l : Link) : Prop := l.hand.isSome ∧ l.ingress.length = ingressCapacity

instance (l : Link) : Decidable l.Blocked := inferInstanceAs (Decidable (_ ∧ _))

/-! ## Reading the connection -/

/-- Reading the connection changes nothing of the calls. -/
theorem reading_frame (l : Link) {e : LinkEvent} (h : e = .read ∨ e = .pass) :
    (l.step e).calls = l.calls ∧ (l.step e).requests = l.requests ∧ (l.step e).call = l.call ∧
      (l.step e).returned = l.returned := by
  rcases h with rfl | rfl
  · cases hhand : l.hand with
    | some x => simp [step, hhand]
    | none => cases hsocket : l.socket <;> simp [step, hhand, hsocket]
  · cases hhand : l.hand with
    | none => simp [step, hhand]
    | some x => by_cases h : l.ingress.length < ingressCapacity <;> simp [step, hhand, h]

/-- Reading the connection leaves the unread messages in their order. -/
theorem unread_read (l : Link) : (l.step .read).unread = l.unread := by
  unfold step unread
  cases hhand : l.hand with
  | some x => simp [hhand]
  | none => cases hsocket : l.socket <;> simp [hhand, hsocket]

/-- So does passing a message on to the channel. -/
theorem unread_pass (l : Link) : (l.step .pass).unread = l.unread := by
  unfold step unread
  cases hhand : l.hand with
  | none => simp [hhand]
  | some x =>
    dsimp only
    split
    · simp
    · simp [hhand]

/-- What rtc-service sends comes last. -/
theorem unread_arrivals {l l' : Link} {batch : List Sent} (hingress : l'.ingress = l.ingress)
    (hhand : l'.hand = l.hand) (hsocket : l'.socket = l.socket ++ batch) :
    l'.unread = l.unread ++ batch := by
  unfold unread
  rw [hingress, hhand, hsocket, List.append_assoc]
  simp

/-- What an event does to the messages that no call has taken. -/
theorem unread_step (l : Link) (e : LinkEvent) (h : e ≠ .take) :
    (l.step e).unread = l.unread ++ l.arrivals e := by
  cases e with
  | send r =>
    dsimp only [step, arrivals]
    cases l.call <;> simp [unread]
  | handle m => exact unread_arrivals rfl rfl rfl
  | other m conn msg => exact unread_arrivals rfl rfl rfl
  | connect conn name => exact unread_arrivals rfl rfl rfl
  | disconnect conn => exact unread_arrivals rfl rfl rfl
  | read => exact l.unread_read.trans (List.append_nil _).symm
  | pass => exact l.unread_pass.trans (List.append_nil _).symm
  | take => exact absurd rfl h
  | timeout => exact (List.append_nil _).symm

/-- A call that takes a message takes the first that is unread. -/
theorem take_cases (l : Link) : l.step .take = l ∨
    ∃ c x rest, l.call = some c ∧ l.ingress = x :: rest ∧ l.unread = x :: (l.step .take).unread ∧
      l.step .take = if c.takes x then
          { l with ingress := rest, call := none, returned := l.returned ++ [⟨c.number, x⟩] }
        else { l with ingress := rest } := by
  cases hcall : l.call with
  | none =>
    left
    simp [step, hcall]
  | some c =>
    cases hingress : l.ingress with
    | nil =>
      left
      simp [step, hcall, hingress]
    | cons x rest =>
      right
      refine ⟨c, x, rest, rfl, rfl, ?_, by simp [step, hcall, hingress]⟩
      simp only [step, hcall, hingress]
      split <;> simp [unread, hingress]

end Link

end Bsg.Central
