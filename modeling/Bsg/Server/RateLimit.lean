import Mathlib.Data.Nat.Digits.Defs
import Mathlib.Logic.Function.Basic
import Mathlib.Tactic.Common

/-!
# The rate limiter of the Express server

`RateLimiter` of `middleware/rate-limit.js` counts the requests of an identifier in the current
window in a counter in Redis, under a key that ends with the index of the window. A request is
rejected when the counter exceeds the burst size. An admitted request may be refunded when its JSON
response is sent: the middleware wraps `res.json` and lowers the counter again.

The keys of two identifiers or two windows differ (`windowKey_inj`). A key expires no earlier than
its window ends, so within the window a counter is what it was set to (`Lasting`).
-/

namespace Bsg.Server

/-! ## Redis -/

/-- A counter in Redis, and the millisecond at which its key expires. -/
structure CounterEntry where
  value : ℤ
  expiresAt : Option ℕ
  deriving DecidableEq, Repr

/-- The counters in Redis. -/
abbrev CounterStore := String → Option CounterEntry

namespace CounterStore

/-- Nothing was written yet. -/
def empty : CounterStore := fun _ => none

variable (store : CounterStore) (now : ℕ) (key : String)

/-- What is at a key that has not expired. -/
def live : Option CounterEntry :=
  (store key).filter fun entry => entry.expiresAt.all fun expiresAt => decide (now < expiresAt)

/-- The number at a key, zero if there is none. -/
def value : ℤ := ((store.live now key).map CounterEntry.value).getD 0

/-- What INCR and DECR do: a key keeps the time at which it expires. -/
def add (amount : ℤ) : CounterStore :=
  Function.update store key
    (some ⟨store.value now key + amount, (store.live now key).bind CounterEntry.expiresAt⟩)

/-- EXPIRE -/
def expire (seconds : ℕ) : CounterStore :=
  Function.update store key
    ((store.live now key).map fun entry => { entry with expiresAt := some (now + seconds * 1000) })

end CounterStore

/-! ## The limiter -/

/-- The options of a `RateLimiter`. -/
structure RateLimiterOptions where
  windowSeconds : Option ℕ
  burstSize : Option ℕ
  keyPrefix : Option String
  skipSuccessfulRequests : Bool
  skipFailedRequests : Bool
  deriving DecidableEq, Repr

/-- `RateLimiter` -/
structure RateLimiter where
  windowSeconds : ℕ
  burstSize : ℕ
  keyPrefix : String
  skipSuccessfulRequests : Bool
  skipFailedRequests : Bool
  deriving DecidableEq, Repr

/-- `n || byDefault` for numbers, where zero counts as missing. -/
def orNumber (byDefault : ℕ) : Option ℕ → ℕ
  | none | some 0 => byDefault
  | some n => n

/-- `s || byDefault` for texts, where the empty text counts as missing. -/
def orText (byDefault : String) : Option String → String
  | none => byDefault
  | some s => if s = "" then byDefault else s

/-- The constructor of `RateLimiter`. -/
def newRateLimiter (options : RateLimiterOptions) : RateLimiter where
  windowSeconds := orNumber 1 options.windowSeconds
  burstSize := orNumber 20 options.burstSize
  keyPrefix := orText "ratelimit:" options.keyPrefix
  skipSuccessfulRequests := options.skipSuccessfulRequests
  skipFailedRequests := options.skipFailedRequests

/-- What the middleware reads of a request: the user, if there is one, is given by his id. -/
structure Request where
  method : String
  path : String
  ip : String
  user : Option String
  deriving DecidableEq, Repr

/-- `getIdentifier` -/
def getIdentifier (req : Request) (useUser : Bool) : String :=
  match useUser, req.user with
  | true, some id => "user:" ++ id
  | _, _ => "ip:" ++ req.ip

/-- The identifier under which the middleware counts a request. -/
def Request.identifier (req : Request) : String := getIdentifier req req.user.isSome

/-- A number in decimal. -/
def decimal (n : ℕ) : String := String.ofList (Nat.toDigits 10 n)

/-- The operations on Redis that fail in `checkLimit`. -/
structure CheckFaults where
  incr : Bool
  expire : Bool
  deriving DecidableEq, Repr

/-- Nothing fails. -/
def CheckFaults.none : CheckFaults := ⟨false, false⟩

/-- What `checkLimit` returns when Redis is at work. -/
structure LimitCheck where
  allowed : Bool
  current : ℤ
  key : String
  limit : ℕ
  remaining : ℤ
  resetAt : ℕ
  deriving DecidableEq, Repr

namespace RateLimiter

variable (rl : RateLimiter)

/-- The length of a window, in milliseconds. -/
def windowMs : ℕ := rl.windowSeconds * 1000

/-- The index of the window at some millisecond. -/
def windowIndex (now : ℕ) : ℕ := now / rl.windowMs

/-- The key of an identifier in a window. -/
def windowKey (identifier : String) (windowIndex : ℕ) : String :=
  rl.keyPrefix ++ identifier ++ ":" ++ decimal windowIndex

/-- `checkLimit`; it returns nothing when Redis fails, and then the request is allowed. -/
def checkLimit (faults : CheckFaults) (now : ℕ) (identifier : String) (store : CounterStore) :
    Option LimitCheck × CounterStore :=
  let windowIndex := rl.windowIndex now
  let key := rl.windowKey identifier windowIndex
  if faults.incr then (none, store)
  else
    let store := store.add now key 1
    let current := store.value now key
    if current = 1 ∧ faults.expire then (none, store)
    else
      (some {
        allowed := decide (current ≤ rl.burstSize)
        current := current
        key := key
        limit := rl.burstSize
        remaining := max 0 (rl.burstSize - current)
        resetAt := (windowIndex + 1) * rl.windowMs },
        if current = 1 then store.expire now key rl.windowSeconds else store)

end RateLimiter

/-- The headers `X-RateLimit-Limit`, `X-RateLimit-Remaining` and `X-RateLimit-Reset`. -/
structure LimitHeaders where
  limit : ℕ
  remaining : ℤ
  reset : ℕ
  deriving DecidableEq, Repr

/-- The headers are set when there is a limit. -/
def LimitCheck.headers (result : LimitCheck) : Option LimitHeaders :=
  if result.limit = 0 then none else some ⟨result.limit, max 0 result.remaining, result.resetAt⟩

/-- What the middleware does with a request: it rejects it with status 429, or hands it on, with the
key that its JSON response may refund. -/
inductive Handling where
  | rejected (headers : Option LimitHeaders) (message : String) (retryAfter : ℕ)
  | next (headers : Option LimitHeaders) (refundKey : Option String)
  deriving DecidableEq, Repr

/-- The request was rejected. -/
def Handling.isRejected : Handling → Bool
  | rejected _ _ _ => true
  | next _ _ => false

namespace RateLimiter

variable (rl : RateLimiter)

/-- Some responses are refunded. -/
def wraps : Bool := rl.skipSuccessfulRequests || rl.skipFailedRequests

/-- `middleware` of `RateLimiter` -/
def middleware (faults : CheckFaults) (now : ℕ) (req : Request) (store : CounterStore) :
    Handling × CounterStore :=
  let (result, store) := rl.checkLimit faults now req.identifier store
  match result with
  | none => (.next none none, store)
  | some result =>
    if !result.allowed then (.rejected result.headers "Rate limit exceeded" rl.windowSeconds, store)
    else (.next result.headers (if rl.wraps then some result.key else none), store)

/-- `shouldSkip` of a response with this status. -/
def shouldSkip (statusCode : ℕ) : Bool :=
  let isError := decide (statusCode ≥ 400)
  (rl.skipSuccessfulRequests && !isError) || (rl.skipFailedRequests && isError)

/-- The `res.json` of an admitted request: it refunds the request if it was wrapped. -/
def json (fails : Bool) (now : ℕ) (refundKey : Option String) (statusCode : ℕ)
    (store : CounterStore) : CounterStore :=
  match refundKey with
  | none => store
  | some key => if rl.shouldSkip statusCode && !fails then store.add now key (-1) else store

end RateLimiter

/-! ## What the constructor makes -/

/-- A number that is missing or zero is replaced by its default. -/
theorem orNumber_pos {byDefault : ℕ} (h : 0 < byDefault) (n : Option ℕ) : 0 < orNumber byDefault n := by
  cases n with
  | none => exact h
  | some n =>
    cases n with
    | zero => exact h
    | succ n => exact n.succ_pos

/-- A window is never empty. -/
theorem windowMs_pos (options : RateLimiterOptions) : 0 < (newRateLimiter options).windowMs :=
  Nat.mul_pos (orNumber_pos one_pos options.windowSeconds) (by decide)

/-- A limiter that was made lets at least one request pass. -/
theorem burstSize_pos (options : RateLimiterOptions) : 0 < (newRateLimiter options).burstSize :=
  orNumber_pos (by decide) options.burstSize

/-! ## Keys -/

/-- Two numbers are not written alike. -/
theorem decimal_inj {n n' : ℕ} (h : decimal n = decimal n') : n = n' := by
  have hdigits := congrArg (fun digits => Nat.ofDigitChars 10 digits 0) (String.ofList_injective h)
  simpa only [Nat.ofDigitChars_ten_toDigits] using hdigits

/-- A number has no colon in it. -/
theorem colon_notMem_decimal (n : ℕ) : ':' ∉ (decimal n).toList := by
  intro hmem
  unfold decimal at hmem
  rw [String.toList_ofList] at hmem
  have hdigit := Nat.isDigit_of_mem_toDigits (by decide) (by decide) hmem
  revert hdigit
  decide

/-- What stands before the last colon and after it. -/
theorem split_at_colon {a a' d d' : List Char} (hd : ':' ∉ d) (hd' : ':' ∉ d')
    (h : a ++ ':' :: d = a' ++ ':' :: d') : a = a' ∧ d = d' := by
  rcases List.append_eq_append_iff.mp h with ⟨c, rfl, hc⟩ | ⟨c, rfl, hc⟩
  · cases c with
    | nil => exact ⟨(List.append_nil a).symm, (List.cons.inj hc).2⟩
    | cons x c =>
      have hmem : d = c ++ ':' :: d' := (List.cons.inj hc).2
      exact absurd (hmem ▸ List.mem_append_right c List.mem_cons_self) hd
  · cases c with
    | nil => exact ⟨List.append_nil a', (List.cons.inj hc).2.symm⟩
    | cons x c =>
      have hmem : d' = c ++ ':' :: d := (List.cons.inj hc).2
      exact absurd (hmem ▸ List.mem_append_right c List.mem_cons_self) hd'

/-- A key has the same identifier behind its prefix and the same window. -/
theorem windowKey_inj' {rl rl' : RateLimiter} {identifier identifier' : String} {w w' : ℕ} :
    rl.windowKey identifier w = rl'.windowKey identifier' w' ↔
      rl.keyPrefix ++ identifier = rl'.keyPrefix ++ identifier' ∧ w = w' := by
  unfold RateLimiter.windowKey
  constructor
  · intro h
    have hsplit : ∀ (s : String) (n : ℕ),
        (s ++ ":" ++ decimal n).toList = s.toList ++ ':' :: (decimal n).toList := by
      intro s n
      rw [String.toList_append, String.toList_append, List.append_assoc]
      rfl
    have hlists := congrArg String.toList h
    rw [hsplit, hsplit] at hlists
    obtain ⟨hid, hw⟩ := split_at_colon (colon_notMem_decimal w) (colon_notMem_decimal w') hlists
    exact ⟨String.toList_inj.mp hid, decimal_inj (String.toList_inj.mp hw)⟩
  · rintro ⟨hid, rfl⟩
    rw [hid]

/-- The keys of a limiter differ for two identifiers or two windows. -/
theorem windowKey_inj {rl : RateLimiter} {identifier identifier' : String} {w w' : ℕ} :
    rl.windowKey identifier w = rl.windowKey identifier' w' ↔ identifier = identifier' ∧ w = w' := by
  rw [windowKey_inj', ← String.toList_inj, String.toList_append, String.toList_append,
    List.append_cancel_left_eq, String.toList_inj]

/-! ## One check -/

section Check

variable {rl : RateLimiter} {store store' : CounterStore} {now : ℕ} {key : String}

/-- A write leaves the other keys alone. -/
theorem CounterStore.add_of_ne {key' : String} (amount : ℤ) (h : key' ≠ key) :
    store.add now key amount key' = store key' := Function.update_of_ne h _ _

/-- An expiry leaves the other keys. -/
theorem CounterStore.expire_of_ne {seconds : ℕ} {key' : String} (h : key' ≠ key) :
    store.expire now key seconds key' = store key' := Function.update_of_ne h _ _

/-- A counter that was just written has not expired. -/
theorem CounterStore.value_add (store : CounterStore) (now : ℕ) (key : String) (amount : ℤ) :
    (store.add now key amount).value now key = store.value now key + amount := by
  have hlive : (store.add now key amount).live now key =
      some ⟨store.value now key + amount, (store.live now key).bind CounterEntry.expiresAt⟩ := by
    have hwritten : store.add now key amount key = some _ := Function.update_self _ _ _
    unfold CounterStore.live
    refine Option.filter_eq_some_iff.mpr ⟨hwritten, ?_⟩
    cases hexpires : (store.live now key).bind CounterEntry.expiresAt with
    | none =>
      unfold CounterStore.live at hexpires
      rw [hexpires]
      rfl
    | some expiresAt =>
      obtain ⟨old, hold, hat⟩ := Option.bind_eq_some_iff.mp hexpires
      obtain ⟨-, halive⟩ := Option.filter_eq_some_iff.mp hold
      rw [hat] at halive
      unfold CounterStore.live at hexpires
      rw [hexpires]
      exact halive
  unfold CounterStore.value
  rw [hlive]
  rfl

/-- Without failures, a request is allowed when the counter, with the request, does not exceed the
burst size. -/
theorem checkLimit_allowed (rl : RateLimiter) (now : ℕ) (identifier : String)
    (store : CounterStore) :
    ∃ result, (rl.checkLimit .none now identifier store).1 = some result ∧
      result.key = rl.windowKey identifier (rl.windowIndex now) ∧
      (result.allowed = true ↔
        store.value now (rl.windowKey identifier (rl.windowIndex now)) + 1 ≤ rl.burstSize) := by
  unfold RateLimiter.checkLimit CheckFaults.none
  dsimp only
  rw [if_neg Bool.false_ne_true, if_neg (fun hfault => Bool.false_ne_true hfault.2),
    CounterStore.value_add]
  exact ⟨_, rfl, rfl, decide_eq_true_iff⟩

/-- A check touches its own key only. -/
theorem checkLimit_frame (rl : RateLimiter) (faults : CheckFaults) (now : ℕ) (identifier : String)
    (store : CounterStore) {key : String}
    (hkey : key ≠ rl.windowKey identifier (rl.windowIndex now)) :
    (rl.checkLimit faults now identifier store).2 key = store key := by
  unfold RateLimiter.checkLimit
  dsimp only
  split_ifs
  · rfl
  · exact CounterStore.add_of_ne 1 hkey
  · exact (CounterStore.expire_of_ne hkey).trans (CounterStore.add_of_ne 1 hkey)
  · exact CounterStore.add_of_ne 1 hkey

/-- Whether a counter is live depends on its key only. -/
theorem CounterStore.live_congr (now : ℕ) (h : store key = store' key) :
    store.live now key = store'.live now key := congrArg _ h

/-- So does its value. -/
theorem CounterStore.value_congr (now : ℕ) (h : store key = store' key) :
    store.value now key = store'.value now key := by
  unfold CounterStore.value
  rw [CounterStore.live_congr now h]

/-- So does what adding to it gives. -/
theorem CounterStore.add_congr (now : ℕ) (h : store key = store' key) (amount : ℤ) :
    store.add now key amount key = store'.add now key amount key := by
  unfold CounterStore.add
  rw [Function.update_self, Function.update_self, CounterStore.value_congr now h,
    CounterStore.live_congr now h]

/-- So does what its expiry gives. -/
theorem CounterStore.expire_congr (now : ℕ) (h : store key = store' key) (seconds : ℕ) :
    store.expire now key seconds key = store'.expire now key seconds key := by
  unfold CounterStore.expire
  rw [Function.update_self, Function.update_self, CounterStore.live_congr now h]

/-- A check depends on its own key only. -/
theorem checkLimit_congr (rl : RateLimiter) (faults : CheckFaults) (now : ℕ) (identifier : String)
    (h : store (rl.windowKey identifier (rl.windowIndex now)) =
      store' (rl.windowKey identifier (rl.windowIndex now))) :
    (rl.checkLimit faults now identifier store).1 = (rl.checkLimit faults now identifier store').1 ∧
      (rl.checkLimit faults now identifier store).2
          (rl.windowKey identifier (rl.windowIndex now)) =
        (rl.checkLimit faults now identifier store').2
          (rl.windowKey identifier (rl.windowIndex now)) := by
  have hadd := CounterStore.add_congr now h 1
  have hvalue := CounterStore.value_congr now hadd
  unfold RateLimiter.checkLimit
  dsimp only
  rw [hvalue]
  split_ifs
  · exact ⟨rfl, h⟩
  · exact ⟨rfl, hadd⟩
  · exact ⟨rfl, CounterStore.expire_congr now hadd _⟩
  · exact ⟨rfl, hadd⟩

end Check

/-! ## Counters within their window -/

section Window

variable {rl : RateLimiter} {store : CounterStore}

/-- What is written at a key, expired or not. -/
def CounterStore.count (store : CounterStore) (key : String) : ℤ :=
  ((store key).map CounterEntry.value).getD 0

/-- The keys of a limiter expire no earlier than their window ends. -/
def CounterStore.Lasting (store : CounterStore) (rl : RateLimiter) : Prop :=
  ∀ identifier w entry, store (rl.windowKey identifier w) = some entry →
    ∀ expiresAt, entry.expiresAt = some expiresAt → (w + 1) * rl.windowMs ≤ expiresAt

/-- An empty store has no counter that could expire too early. -/
theorem lasting_empty (rl : RateLimiter) : CounterStore.empty.Lasting rl := nofun

/-- Before its window ends, a counter has not expired. -/
theorem CounterStore.Lasting.live_eq (h : store.Lasting rl) {identifier : String} {w now : ℕ}
    (hnow : now < (w + 1) * rl.windowMs) :
    store.live now (rl.windowKey identifier w) = store (rl.windowKey identifier w) := by
  unfold CounterStore.live
  cases hentry : store (rl.windowKey identifier w) with
  | none => rfl
  | some entry =>
    rw [Option.filter_some, if_pos]
    cases hexpires : entry.expiresAt with
    | none => rfl
    | some expiresAt =>
      exact decide_eq_true (hnow.trans_le (h identifier w entry hentry expiresAt hexpires))

/-- Within its window a counter has not expired. -/
theorem CounterStore.Lasting.value_eq (h : store.Lasting rl) (identifier : String) {w now : ℕ}
    (hnow : now < (w + 1) * rl.windowMs) :
    store.value now (rl.windowKey identifier w) = store.count (rl.windowKey identifier w) := by
  unfold CounterStore.value
  rw [h.live_eq hnow]
  rfl

/-- Counting keeps the time at which a key expires. -/
theorem CounterStore.Lasting.add (h : store.Lasting rl) (now : ℕ) (key : String) (amount : ℤ) :
    (store.add now key amount).Lasting rl := by
  intro identifier w entry hentry expiresAt hexpires
  by_cases hkey : rl.windowKey identifier w = key
  · subst hkey
    have hwritten : store.add now (rl.windowKey identifier w) amount (rl.windowKey identifier w) =
        some _ := Function.update_self _ _ _
    rw [hwritten] at hentry
    cases hentry
    obtain ⟨old, hold, hat⟩ := Option.bind_eq_some_iff.mp hexpires
    exact h identifier w old (Option.filter_eq_some_iff.mp hold).1 expiresAt hat
  · rw [CounterStore.add_of_ne amount hkey] at hentry
    exact h identifier w entry hentry expiresAt hexpires

/-- Before its window ends, a counter is counted up or down from what it is. -/
theorem CounterStore.Lasting.count_add (h : store.Lasting rl) (identifier : String) {w now : ℕ}
    (hnow : now < (w + 1) * rl.windowMs) (amount : ℤ) :
    (store.add now (rl.windowKey identifier w) amount).count (rl.windowKey identifier w) =
      store.count (rl.windowKey identifier w) + amount := by
  rw [← h.value_eq identifier hnow]
  unfold CounterStore.count CounterStore.add
  rw [Function.update_self]
  rfl

/-- A key that is made to expire after the length of a window lasts until the end of its own. -/
theorem CounterStore.Lasting.expire (h : store.Lasting rl) (now : ℕ) (identifier : String) :
    (store.expire now (rl.windowKey identifier (rl.windowIndex now)) rl.windowSeconds).Lasting rl := by
  intro identifier' w entry hentry expiresAt hexpires
  by_cases hkey : rl.windowKey identifier' w = rl.windowKey identifier (rl.windowIndex now)
  · have hwritten : store.expire now (rl.windowKey identifier (rl.windowIndex now)) rl.windowSeconds
        (rl.windowKey identifier (rl.windowIndex now)) = _ := Function.update_self _ _ _
    rw [hkey, hwritten] at hentry
    obtain ⟨old, -, rfl⟩ := Option.map_eq_some_iff.mp hentry
    cases hexpires
    rw [(windowKey_inj.mp hkey).2, Nat.succ_mul]
    exact Nat.add_le_add_right (Nat.div_mul_le_self now rl.windowMs) _
  · rw [CounterStore.expire_of_ne hkey] at hentry
    exact h identifier' w entry hentry expiresAt hexpires

/-- EXPIRE leaves a counter that has not expired as it is. -/
theorem CounterStore.Lasting.count_expire (h : store.Lasting rl) {identifier : String} {w now : ℕ}
    (hnow : now < (w + 1) * rl.windowMs) (seconds : ℕ) :
    (store.expire now (rl.windowKey identifier w) seconds).count (rl.windowKey identifier w) =
      store.count (rl.windowKey identifier w) := by
  unfold CounterStore.count CounterStore.expire
  rw [Function.update_self, h.live_eq hnow]
  cases store (rl.windowKey identifier w) with
  | none => rfl
  | some entry => rfl

/-- Every moment is before the end of its window. -/
theorem lt_window_end (hwindow : 0 < rl.windowMs) (now : ℕ) :
    now < (rl.windowIndex now + 1) * rl.windowMs := by
  rw [Nat.mul_comm]
  exact Nat.lt_mul_div_succ now hwindow

/-- When Redis is at work, `checkLimit` counts the request in the counter of its window and allows
it when the counter does not exceed the burst size. -/
theorem checkLimit_run (hwindow : 0 < rl.windowMs) (h : store.Lasting rl) (now : ℕ)
    (identifier : String) :
    ∃ result store', rl.checkLimit .none now identifier store = (some result, store') ∧
      (result.allowed = true ↔
        store.count (rl.windowKey identifier (rl.windowIndex now)) + 1 ≤ rl.burstSize) ∧
      result.key = rl.windowKey identifier (rl.windowIndex now) ∧ store'.Lasting rl ∧
      store'.count (rl.windowKey identifier (rl.windowIndex now)) =
        store.count (rl.windowKey identifier (rl.windowIndex now)) + 1 ∧
      ∀ key, key ≠ rl.windowKey identifier (rl.windowIndex now) → store' key = store key := by
  -- The counter does not expire before its window is over.
  have hnow := lt_window_end hwindow now
  have hadded := h.add now (rl.windowKey identifier (rl.windowIndex now)) 1
  have hcount := h.count_add identifier hnow 1
  have hvalue := hadded.value_eq identifier hnow
  unfold RateLimiter.checkLimit CheckFaults.none
  dsimp only
  rw [if_neg Bool.false_ne_true, if_neg (fun hfault => Bool.false_ne_true hfault.2), hvalue, hcount]
  refine ⟨_, _, rfl, decide_eq_true_iff, rfl, ?_, ?_, fun key hkey => ?_⟩
  · split_ifs
    · exact hadded.expire now identifier
    · exact hadded
  · split_ifs
    · rw [hadded.count_expire hnow, hcount]
    · exact hcount
  · split_ifs
    · rw [CounterStore.expire_of_ne hkey, CounterStore.add_of_ne 1 hkey]
    · exact CounterStore.add_of_ne 1 hkey

/-- When Redis is at work, the middleware counts the request and hands it on, with its key if it may
be refunded, or rejects it when the counter exceeds the burst size. -/
theorem middleware_run (hwindow : 0 < rl.windowMs) (h : store.Lasting rl) (now : ℕ) (req : Request) :
    ∃ store', store'.Lasting rl ∧
      store'.count (rl.windowKey req.identifier (rl.windowIndex now)) =
        store.count (rl.windowKey req.identifier (rl.windowIndex now)) + 1 ∧
      (∀ key, key ≠ rl.windowKey req.identifier (rl.windowIndex now) → store' key = store key) ∧
      (rl.burstSize < store.count (rl.windowKey req.identifier (rl.windowIndex now)) + 1 ∧
          (∃ headers message retryAfter, rl.middleware .none now req store =
            (.rejected headers message retryAfter, store')) ∨
        store.count (rl.windowKey req.identifier (rl.windowIndex now)) + 1 ≤ rl.burstSize ∧
          ∃ headers, rl.middleware .none now req store =
            (.next headers (if rl.wraps then
              some (rl.windowKey req.identifier (rl.windowIndex now)) else none), store')) := by
  obtain ⟨result, store', hrun, hallowed, hkey, hlasting, hcount, hframe⟩ :=
    checkLimit_run hwindow h now req.identifier
  refine ⟨store', hlasting, hcount, hframe, ?_⟩
  unfold RateLimiter.middleware
  rw [hrun, ← not_le, ← hallowed, ← hkey]
  dsimp only
  cases result.allowed with
  | true => exact Or.inr ⟨rfl, result.headers, rfl⟩
  | false => exact Or.inl ⟨Bool.false_ne_true, result.headers, _, _, rfl⟩

end Window

end Bsg.Server
