import Bsg.Foundations.Run
import Bsg.Server.RateLimit
import Mathlib.Data.List.Perm.Basic
import Mathlib.Tactic.Ring

/-!
# Refunded requests

A request is charged from its admission until its JSON response is refunded. The limiter should
reject a request exactly when as many requests of its window are charged as the burst size says
(`Right`). But a rejected request has raised the counter too, and nothing lowers it again: the
counter is the number of charged requests and of rejected ones (`Books`).

So the limiter is right along a run exactly when, at each arrival with fewer charged requests, these
and the rejected ones are fewer together (`Settled`, `right_iff_settled`).
-/

namespace Bsg.Server

open Bsg.Foundations

/-! ## The server process -/

/-- An admitted request: under what it is charged, and what its JSON response may refund. -/
structure Ticket where
  identifier : String
  windowIndex : ℕ
  refundKey : Option String
  deriving DecidableEq, Repr

/-- The server process with its counters. The books say which requests are charged: those that wait
for their response, and those that have it and were not refunded. -/
structure Process where
  store : CounterStore
  clock : ℕ
  waiting : List Ticket
  kept : List Ticket
  /-- The identifiers and windows of the rejected requests. -/
  rejected : List (String × ℕ)

/-- No request has arrived. -/
def Process.start (clock : ℕ) : Process := ⟨.empty, clock, [], [], []⟩

/-- Some milliseconds after the last event, a request arrives, or the JSON response of a waiting
request is sent. -/
inductive Event where
  | arrive (elapsed : ℕ) (req : Request)
  | json (elapsed : ℕ) (index : ℕ) (statusCode : ℕ)
  deriving DecidableEq, Repr

section Step

variable (rl : RateLimiter)

/-- The middleware takes the request. -/
def Process.arrive (s : Process) (now : ℕ) (req : Request) : Process :=
  let windowIndex := rl.windowIndex now
  match rl.middleware .none now req s.store with
  | (.rejected _ _ _, store) =>
    { s with
      store := store
      clock := now
      rejected := (req.identifier, windowIndex) :: s.rejected }
  | (.next _ refundKey, store) =>
    { s with
      store := store
      clock := now
      waiting := ⟨req.identifier, windowIndex, refundKey⟩ :: s.waiting }

/-- The response of a waiting request is sent by `res.json`. -/
def Process.respond (s : Process) (now index statusCode : ℕ) : Process :=
  match s.waiting[index]? with
  | none => { s with clock := now }
  | some ticket =>
    { s with
      store := rl.json false now ticket.refundKey statusCode s.store
      clock := now
      waiting := s.waiting.eraseIdx index
      kept := if rl.shouldSkip statusCode then s.kept else ticket :: s.kept }

/-- What an event does. -/
def Process.step (s : Process) : Event → Process
  | .arrive elapsed req => s.arrive rl (s.clock + elapsed) req
  | .json elapsed index statusCode => s.respond rl (s.clock + elapsed) index statusCode

end Step

/-- The ticket is of this identifier and window. -/
def Ticket.isOf (identifier : String) (windowIndex : ℕ) (ticket : Ticket) : Bool :=
  decide (ticket.identifier = identifier ∧ ticket.windowIndex = windowIndex)

/-- How many requests of an identifier are charged in a window. -/
def Process.charged (s : Process) (identifier : String) (windowIndex : ℕ) : ℕ :=
  s.waiting.countP (Ticket.isOf identifier windowIndex) +
    s.kept.countP (Ticket.isOf identifier windowIndex)

/-- How many requests of an identifier were rejected in a window. -/
def Process.rejections (s : Process) (identifier : String) (windowIndex : ℕ) : ℕ :=
  s.rejected.count (identifier, windowIndex)

section Claim

variable (rl : RateLimiter)

/-- A request that arrives is rejected exactly when the burst size is charged. -/
def Right (s : Process) : Event → Prop
  | .arrive elapsed req =>
    (rl.middleware .none (s.clock + elapsed) req s.store).1.isRejected = true ↔
      s.charged req.identifier (rl.windowIndex (s.clock + elapsed)) = rl.burstSize
  | .json _ _ _ => True

/-- When a request arrives, the burst size is charged, or even with the rejected requests it is not
reached. -/
def Settled (s : Process) : Event → Prop
  | .arrive elapsed req =>
    let windowIndex := rl.windowIndex (s.clock + elapsed)
    s.charged req.identifier windowIndex = rl.burstSize ∨
      s.charged req.identifier windowIndex + s.rejections req.identifier windowIndex < rl.burstSize
  | .json _ _ _ => True

instance (s : Process) : ∀ e, Decidable (Right rl s e)
  | .arrive _ _ => inferInstanceAs (Decidable (_ ↔ _))
  | .json _ _ _ => inferInstanceAs (Decidable True)

/-! ## The books -/

/-- In a window that is not over, the counter is the number of charged and of rejected requests, and
the charged ones do not exceed the burst size. A waiting request refunds its own counter. -/
structure Books (s : Process) : Prop where
  lasting : s.store.Lasting rl
  counter : ∀ identifier w, s.clock < (w + 1) * rl.windowMs →
    s.store.count (rl.windowKey identifier w) = s.charged identifier w + s.rejections identifier w
  bounded : ∀ identifier w, s.charged identifier w ≤ rl.burstSize
  refund : ∀ ticket ∈ s.waiting, ticket.refundKey =
    if rl.wraps then some (rl.windowKey ticket.identifier ticket.windowIndex) else none

variable {rl}

/-- At first the books are empty. -/
theorem books_start (clock : ℕ) : Books rl (.start clock) where
  lasting := lasting_empty rl
  counter _ _ _ := rfl
  bounded _ _ := Nat.zero_le _
  refund := nofun

/-- A ticket is of its own identifier and window. -/
theorem Ticket.isOf_iff {identifier : String} {w : ℕ} {ticket : Ticket} :
    ticket.isOf identifier w = true ↔ ticket.identifier = identifier ∧ ticket.windowIndex = w :=
  decide_eq_true_iff

/-- The counters of other identifiers and windows are what they were. -/
theorem count_frame {store store' : CounterStore} {identifier identifier' : String} {w w' : ℕ}
    (hframe : ∀ key, key ≠ rl.windowKey identifier w → store' key = store key)
    (hother : ¬ (identifier = identifier' ∧ w = w')) :
    store'.count (rl.windowKey identifier' w') = store.count (rl.windowKey identifier' w') := by
  have hkey : rl.windowKey identifier' w' ≠ rl.windowKey identifier w := fun hkey =>
    hother (windowKey_inj.mp hkey.symm)
  unfold CounterStore.count
  rw [hframe _ hkey]

/-- An arrival keeps the books: it raises its own counter, and is charged or rejected. -/
theorem Books.arrive (hwindow : 0 < rl.windowMs) {s : Process} (h : Books rl s) {now : ℕ}
    (hclock : s.clock ≤ now) (req : Request) : Books rl (s.arrive rl now req) := by
  have hcounter := h.counter req.identifier (rl.windowIndex now)
    (hclock.trans_lt (lt_window_end hwindow now))
  obtain ⟨store', hlasting, hcount, hframe, ⟨-, headers, message, retryAfter, hrun⟩ |
    ⟨hfits, headers, hrun⟩⟩ := middleware_run hwindow h.lasting now req
  case inl =>
    -- A rejected request keeps what it was counted, and is in the list of the rejected.
    have hstate : s.arrive rl now req =
        ⟨store', now, s.waiting, s.kept, (req.identifier, rl.windowIndex now) :: s.rejected⟩ := by
      unfold Process.arrive
      rw [hrun]
    rw [hstate]
    refine ⟨hlasting, fun identifier w hw => ?_, h.bounded, h.refund⟩
    change store'.count _ = s.charged identifier w +
      (((req.identifier, rl.windowIndex now) :: s.rejected).count (identifier, w) : ℕ)
    rw [List.count_cons]
    by_cases hsame : req.identifier = identifier ∧ rl.windowIndex now = w
    · obtain ⟨rfl, rfl⟩ := hsame
      rw [if_pos (beq_self_eq_true _), hcount, hcounter]
      unfold Process.rejections
      push_cast
      ring
    · have hne : ((req.identifier, rl.windowIndex now) == (identifier, w)) = false :=
        beq_eq_false_iff_ne.mpr fun heq => hsame (Prod.mk.inj heq)
      rw [hne, if_neg Bool.false_ne_true, count_frame hframe hsame]
      exact h.counter identifier w (hclock.trans_lt hw)
  case inr =>
    set ticket : Ticket := ⟨req.identifier, rl.windowIndex now,
      if rl.wraps then some (rl.windowKey req.identifier (rl.windowIndex now)) else none⟩
    have hstate : s.arrive rl now req =
        ⟨store', now, ticket :: s.waiting, s.kept, s.rejected⟩ := by
      unfold Process.arrive
      rw [hrun]
    -- An admitted one is charged once more in its window.
    have hcharged : ∀ identifier w, Process.charged
        ⟨store', now, ticket :: s.waiting, s.kept, s.rejected⟩ identifier w =
          s.charged identifier w +
            if req.identifier = identifier ∧ rl.windowIndex now = w then 1 else 0 := by
      intro identifier w
      have hof : (if ticket.isOf identifier w = true then 1 else 0) =
          if req.identifier = identifier ∧ rl.windowIndex now = w then 1 else 0 :=
        if_congr Ticket.isOf_iff rfl rfl
      unfold Process.charged
      rw [List.countP_cons, hof]
      exact Nat.add_right_comm _ _ _
    rw [hstate]
    refine ⟨hlasting, fun identifier w hw => ?_, fun identifier w => ?_, ?_⟩
    · rw [hcharged]
      change store'.count _ = _ + (s.rejections identifier w : ℤ)
      by_cases hsame : req.identifier = identifier ∧ rl.windowIndex now = w
      · obtain ⟨rfl, rfl⟩ := hsame
        rw [if_pos ⟨rfl, rfl⟩, hcount, hcounter]
        push_cast
        ring
      · rw [if_neg hsame, count_frame hframe hsame]
        exact h.counter identifier w (hclock.trans_lt hw)
    · rw [hcharged]
      by_cases hsame : req.identifier = identifier ∧ rl.windowIndex now = w
      · obtain ⟨rfl, rfl⟩ := hsame
        rw [hcounter] at hfits
        rw [if_pos ⟨rfl, rfl⟩]
        omega
      · rw [if_neg hsame]
        exact h.bounded identifier w
    · intro ticket' hticket'
      rcases List.mem_cons.mp hticket' with rfl | hticket'
      · rfl
      · exact h.refund ticket' hticket'

/-- Only a limiter that wraps responses skips some. -/
theorem wraps_of_shouldSkip {statusCode : ℕ} (h : rl.shouldSkip statusCode = true) :
    rl.wraps = true := by
  unfold RateLimiter.shouldSkip at h
  unfold RateLimiter.wraps
  cases hsuccessful : rl.skipSuccessfulRequests with
  | true => rfl
  | false =>
    rw [hsuccessful] at h
    simpa using ((Bool.and_eq_true _ _).mp h).1

/-- A response that is not skipped writes nothing. -/
theorem json_of_not_skip {statusCode : ℕ} (h : rl.shouldSkip statusCode = false) (now : ℕ)
    (refundKey : Option String) (store : CounterStore) :
    rl.json false now refundKey statusCode store = store := by
  unfold RateLimiter.json
  cases refundKey with
  | none => rfl
  | some key => exact if_neg (by rw [h]; exact Bool.false_ne_true)

/-- A response keeps the books: a refund lowers the counter of its request, which is not charged any
more. -/
theorem Books.respond {s : Process} (h : Books rl s) {now : ℕ} (hclock : s.clock ≤ now)
    (index statusCode : ℕ) : Books rl (s.respond rl now index statusCode) := by
  unfold Process.respond
  cases hindex : s.waiting[index]? with
  | none => exact ⟨h.lasting, fun identifier w hw => h.counter identifier w (hclock.trans_lt hw),
      h.bounded, h.refund⟩
  | some ticket =>
    -- The request leaves those waiting, and is kept or refunded.
    have hperm : (ticket :: s.waiting.eraseIdx index).Perm s.waiting := by
      obtain ⟨hlt, rfl⟩ := List.getElem?_eq_some_iff.mp hindex
      exact List.getElem_cons_eraseIdx_perm hlt
    have hsplit : ∀ identifier w, s.charged identifier w =
        (s.waiting.eraseIdx index).countP (Ticket.isOf identifier w) +
          (ticket :: s.kept).countP (Ticket.isOf identifier w) := by
      intro identifier w
      unfold Process.charged
      rw [← hperm.countP_eq, List.countP_cons, List.countP_cons]
      omega
    have hrefund : ∀ ticket ∈ s.waiting.eraseIdx index, ticket.refundKey =
        if rl.wraps then some (rl.windowKey ticket.identifier ticket.windowIndex) else none :=
      fun ticket hticket => h.refund ticket (List.mem_of_mem_eraseIdx hticket)
    dsimp only
    cases hskip : rl.shouldSkip statusCode with
    | false =>
      rw [json_of_not_skip hskip]
      refine ⟨h.lasting, fun identifier w hw => ?_, fun identifier w => ?_, hrefund⟩
      · refine (h.counter identifier w (hclock.trans_lt hw)).trans ?_
        rw [hsplit]
        rfl
      · exact (hsplit identifier w).symm.trans_le (h.bounded identifier w)
    | true =>
      have hkey : ticket.refundKey = some (rl.windowKey ticket.identifier ticket.windowIndex) :=
        (h.refund ticket (hperm.mem_iff.mp List.mem_cons_self)).trans
          (if_pos (wraps_of_shouldSkip hskip))
      have hjson : rl.json false now ticket.refundKey statusCode s.store =
          s.store.add now (rl.windowKey ticket.identifier ticket.windowIndex) (-1) := by
        unfold RateLimiter.json
        rw [hkey, hskip]
        rfl
      -- A refund takes one from the counter of the window in which the request was counted.
      have hcharged : ∀ identifier w, s.charged identifier w =
          Process.charged ⟨s.store.add now (rl.windowKey ticket.identifier ticket.windowIndex) (-1),
            now, s.waiting.eraseIdx index, s.kept, s.rejected⟩ identifier w +
              if ticket.identifier = identifier ∧ ticket.windowIndex = w then 1 else 0 := by
        intro identifier w
        have hof : (if ticket.isOf identifier w = true then 1 else 0) =
            if ticket.identifier = identifier ∧ ticket.windowIndex = w then 1 else 0 :=
          if_congr Ticket.isOf_iff rfl rfl
        rw [hsplit, List.countP_cons, hof]
        exact (Nat.add_assoc _ _ _).symm
      rw [hjson, if_pos rfl]
      refine ⟨h.lasting.add now _ (-1), fun identifier w hw => ?_, fun identifier w => ?_, hrefund⟩
      · have hold := h.counter identifier w (hclock.trans_lt hw)
        rw [hcharged] at hold
        change CounterStore.count (s.store.add now _ (-1)) _ = _ + (s.rejections identifier w : ℤ)
        by_cases hsame : ticket.identifier = identifier ∧ ticket.windowIndex = w
        · obtain ⟨rfl, rfl⟩ := hsame
          rw [h.lasting.count_add ticket.identifier hw, hold, if_pos ⟨rfl, rfl⟩]
          push_cast
          ring
        · rw [count_frame (fun key hkey => CounterStore.add_of_ne (-1) hkey) hsame, hold, if_neg hsame]
          push_cast
          ring
      · calc Process.charged _ identifier w
          _ ≤ Process.charged _ identifier w +
              if ticket.identifier = identifier ∧ ticket.windowIndex = w then 1 else 0 :=
            Nat.le_add_right _ _
          _ = s.charged identifier w := (hcharged identifier w).symm
          _ ≤ rl.burstSize := h.bounded identifier w

/-- Every event keeps the books. -/
theorem Books.step (hwindow : 0 < rl.windowMs) {s : Process} (h : Books rl s) :
    ∀ e, Books rl (s.step rl e)
  | .arrive elapsed req => h.arrive hwindow (Nat.le_add_right s.clock elapsed) req
  | .json elapsed index statusCode => h.respond (Nat.le_add_right s.clock elapsed) index statusCode

/-! ## Where the limiter is right -/

/-- With the books in order, an arrival is decided rightly exactly when the charged requests are
settled. -/
theorem Books.right_iff (hwindow : 0 < rl.windowMs) {s : Process} (h : Books rl s) :
    ∀ e, Right rl s e ↔ Settled rl s e
  | .json _ _ _ => Iff.rfl
  | .arrive elapsed req => by
    have hcounter := h.counter req.identifier (rl.windowIndex (s.clock + elapsed))
      ((Nat.le_add_right s.clock elapsed).trans_lt (lt_window_end hwindow _))
    have hbounded := h.bounded req.identifier (rl.windowIndex (s.clock + elapsed))
    unfold Right Settled
    dsimp only
    obtain ⟨store', -, -, -, ⟨hover, headers, message, retryAfter, hrun⟩ | ⟨hfits, headers, hrun⟩⟩ :=
      middleware_run hwindow h.lasting (s.clock + elapsed) req
    · rw [hrun, Handling.isRejected]
      rw [hcounter] at hover
      simp only [true_iff]
      omega
    · rw [hrun, Handling.isRejected]
      rw [hcounter] at hfits
      simp only [Bool.false_eq_true, false_iff]
      omega

end Claim

/-- Along a run of arrivals and responses, every request is rejected exactly when the burst size is
charged, if and only if every arrival finds the burst size charged, or not reached even with the
rejected requests. -/
theorem right_iff_settled (options : RateLimiterOptions) (clock : ℕ) (events : List Event) :
    Along (Process.step (newRateLimiter options)) (Right (newRateLimiter options)) (.start clock)
        events ↔
      Along (Process.step (newRateLimiter options)) (Settled (newRateLimiter options)) (.start clock)
        events := by
  have hall : Along (Process.step (newRateLimiter options)) (fun _ _ => True) (.start clock) events :=
    Along.of_forall fun _ _ => trivial
  exact along_congr (fun _ e h _ => h.step (windowMs_pos options) e)
    (fun _ e h _ => h.right_iff (windowMs_pos options) e) (books_start clock) hall

/-- With a burst of one and errors refunded: a request is admitted, another rejected, and the first
refunded; then a third is rejected, though none is charged. -/
theorem not_right_afterRejection :
    ¬ Along (Process.step (newRateLimiter ⟨none, some 1, none, false, true⟩))
      (Right (newRateLimiter ⟨none, some 1, none, false, true⟩)) (.start 0)
      [.arrive 0 ⟨"GET", "/", "10.0.0.1", none⟩, .arrive 0 ⟨"GET", "/", "10.0.0.1", none⟩,
        .json 0 0 400, .arrive 0 ⟨"GET", "/", "10.0.0.1", none⟩] := by
  decide +kernel

end Bsg.Server
