import Bsg.Central.Store
import Bsg.Foundations.TokenBucket

/-!
# The rate limiter

`RateLimiter.Allow` of `utils/rate_limiter.go` asks Redis, by a script, for a token of the bucket
that is kept at a key: a hash with the tokens that were left after the last allowed call and the
second of it. The script writes nothing when there is no token, and the key expires 60 seconds after
it was last written.

The script is a lazy bucket (`script_run`), so `Allow` decides as a token bucket that never forgets,
when the bucket fills up within the 60 seconds (`allow_tokenBucket`).

The script computes with Lua's numbers, which are exact for integers up to `2^53`; here they are
integers.
-/

namespace Bsg.Central

open Bsg.Foundations

/-! ## Redis -/

/-- The hash at a key of a rate limiter, and the second at which the key expires. -/
structure RateEntry where
  tokens : ℤ
  lastUpdated : ℤ
  expiresAt : Option ℤ
  deriving DecidableEq, Repr

/-- What Redis has at the keys of rate limiters. -/
abbrev RateStore := String → Option RateEntry

namespace RateStore

/-- Nothing was written yet. -/
def empty : RateStore := fun _ => none

/-- HMGET: what is at a key that has not expired. -/
def hmget (store : RateStore) (now : ℤ) (key : String) : Option RateEntry :=
  (store key).filter fun entry => entry.expiresAt.all fun expiresAt => decide (now < expiresAt)

/-- HSET: a key keeps the time at which it expires. -/
def hset (store : RateStore) (now : ℤ) (key : String) (tokens lastUpdated : ℤ) : RateStore :=
  Function.update store key
    (some ⟨tokens, lastUpdated, (store.hmget now key).bind RateEntry.expiresAt⟩)

/-- EXPIRE -/
def expire (store : RateStore) (now : ℤ) (key : String) (ttl : ℤ) : RateStore :=
  Function.update store key
    ((store.hmget now key).map fun entry => { entry with expiresAt := some (now + ttl) })

end RateStore

/-- A function of the rate limiters. -/
abbrev RateCall (α : Type) := Call RateStore GoError α

/-- The script of `Allow`. -/
def script (key : String) (now limit burst ttl : ℤ) : RateCall ℤ := do
  let data ← Call.read fun store => store.hmget now key
  let tokens := (data.map RateEntry.tokens).getD burst
  let lastUpdated := (data.map RateEntry.lastUpdated).getD now
  let delta := max 0 (now - lastUpdated)
  let tokens := min burst (tokens + delta * limit)
  if tokens ≥ 1 then do
    let tokens := tokens - 1
    Call.write fun store => store.hset now key tokens now
    Call.write fun store => store.expire now key ttl
    pure 1
  else pure 0

/-! ## The limiter -/

/-- `RateLimiter` -/
structure RateLimiter where
  requestsPerSecond : ℤ
  burstSize : ℤ
  keyPrefix : String
  deriving DecidableEq, Repr

/-- `NewRateLimiter` -/
def newRateLimiter (requestsPerSecond burstSize : ℤ) : RateLimiter where
  requestsPerSecond := requestsPerSecond
  burstSize := burstSize
  keyPrefix := "ratelimit:"

/-- `net.SplitHostPort`: the host and the port of `host:port` or `[host]:port`. -/
def splitHostPort (hostport : List Char) : Option (List Char × List Char) :=
  -- The port starts after the last colon.
  let port := (hostport.reverse.takeWhile fun c => c != ':').reverse
  let before := (hostport.take (hostport.length - port.length)).dropLast
  if ':' ∉ hostport then none
  else match before with
    | '[' :: rest =>
      -- The first closing bracket must stand just before the last colon.
      if rest.getLast? = some ']' ∧ ']' ∉ rest.dropLast ∧ '[' ∉ rest ∧ '[' ∉ port ∧ ']' ∉ port then
        some (rest.dropLast, port)
      else none
    | host =>
      if ':' ∉ host ∧ '[' ∉ hostport ∧ ']' ∉ hostport then some (host, port) else none

/-- The address without its port, if it has one. -/
def hostOf (ipAddr : String) : String :=
  match splitHostPort ipAddr.toList with
  | some (ip, _) => String.ofList ip
  | none => ipAddr

namespace RateLimiter

variable (fails : Bool) (now : ℤ) (rl : RateLimiter)

/-- `Allow` -/
def allow (identifier : String) : RateCall Bool :=
  if identifier = "" then .fail (.other "identifier cannot be empty")
  else .io fails (.other "rate limit check failed") do
    let result ← script (rl.keyPrefix ++ identifier) now rl.requestsPerSecond rl.burstSize 60
    pure (decide (result = 1))

/-- `AllowByIP` -/
def allowByIP (ipAddr : String) : RateCall Bool := rl.allow fails now ("ip:" ++ hostOf ipAddr)

/-- `AllowByUserID` -/
def allowByUserID (userID : String) : RateCall Bool := rl.allow fails now ("user:" ++ userID)

/-- `AllowByEndpoint` -/
def allowByEndpoint (endpoint ipAddr : String) : RateCall Bool :=
  rl.allow fails now ("endpoint:" ++ endpoint ++ ":" ++ hostOf ipAddr)

/-- The bucket of a limiter. -/
def bucket (rl : RateLimiter) : TokenBucket := ⟨rl.burstSize, rl.requestsPerSecond⟩

/-- What the calls of `Allow` for an identifier at some seconds return. -/
def decisions (identifier : String) (store : RateStore) (times : List ℤ) :
    List (Outcome GoError Bool) :=
  answers (fun store now => (rl.allow false now identifier).run store) store times

end RateLimiter

/-! ## The script is a lazy bucket -/

namespace RateStore

/-- The tokens that are saved at a key. -/
def saved (store : RateStore) (key : String) : Option TokenBucket.Tokens :=
  (store key).map fun entry => ⟨entry.tokens, entry.lastUpdated⟩

/-- A key expires some time after it was last written. -/
def Expiring (store : RateStore) (ttl : ℤ) (key : String) : Prop :=
  ∀ entry, store key = some entry → entry.expiresAt = some (entry.lastUpdated + ttl)

end RateStore

section Script

variable {store : RateStore} {key : String} {ttl : ℤ} (now limit burst : ℤ)

/-- What is read at a key was saved, and not too long ago. -/
theorem hmget_eq (hstore : store.Expiring ttl key) : store.hmget now key =
    (store key).filter fun entry => decide (now < entry.lastUpdated + ttl) := by
  unfold RateStore.hmget
  cases hentry : store key with
  | none => rfl
  | some entry =>
    rw [Option.filter_some, Option.filter_some, hstore entry hentry]
    rfl

/-- The tokens that the script finds are those of a lazy bucket. -/
theorem script_tokens (hstore : store.Expiring ttl key) :
    min burst (((store.hmget now key).map RateEntry.tokens).getD burst +
        max 0 (now - ((store.hmget now key).map RateEntry.lastUpdated).getD now) * limit) =
      TokenBucket.lazyAt ⟨burst, limit⟩ ttl (store.saved key) now := by
  have hfull : min burst (burst + max 0 (now - now) * limit) = burst := by
    rw [sub_self, max_self, zero_mul, add_zero, min_self]
  rw [hmget_eq now hstore]
  unfold RateStore.saved
  cases store key with
  | none => exact hfull
  | some entry =>
    rw [Option.filter_some]
    change _ = if now < entry.lastUpdated + ttl then _ else _
    by_cases hfresh : now < entry.lastUpdated + ttl
    · rw [if_pos (decide_eq_true hfresh), if_pos hfresh]
      rfl
    · rw [if_neg (by simpa using hfresh), if_neg hfresh]
      exact hfull

/-- After HSET and EXPIRE, the key has what was written and the new time at which it expires. -/
theorem expire_hset (tokens : ℤ) :
    (store.hset now key tokens now).expire now key ttl =
      Function.update store key (some ⟨tokens, now, some (now + ttl)⟩) := by
  have hold : ∀ expiresAt, (store.hmget now key).bind RateEntry.expiresAt = some expiresAt →
      now < expiresAt := by
    intro expiresAt hexpires
    obtain ⟨entry, hentry, hat⟩ := Option.bind_eq_some_iff.mp hexpires
    obtain ⟨-, hlive⟩ := Option.filter_eq_some_iff.mp hentry
    rw [hat] at hlive
    exact of_decide_eq_true hlive
  have hlive : (store.hset now key tokens now).hmget now key =
      some ⟨tokens, now, (store.hmget now key).bind RateEntry.expiresAt⟩ := by
    have hwritten : store.hset now key tokens now key =
        some ⟨tokens, now, (store.hmget now key).bind RateEntry.expiresAt⟩ :=
      Function.update_self _ _ _
    refine Option.filter_eq_some_iff.mpr ⟨hwritten, ?_⟩
    cases hexpires : (store.hmget now key).bind RateEntry.expiresAt with
    | none => rfl
    | some expiresAt => exact decide_eq_true (hold expiresAt hexpires)
  unfold RateStore.expire
  rw [hlive]
  exact Function.update_idem _ _ _

/-- The script decides as a lazy bucket and leaves what such a bucket saves, and other keys alone.
-/
theorem script_run (hstore : store.Expiring ttl key) :
    ∃ store', (script key now limit burst ttl).run store =
        (.ok (if (TokenBucket.lazyTake ⟨burst, limit⟩ ttl (store.saved key) now).1 then 1 else 0),
          store') ∧
      store'.saved key = (TokenBucket.lazyTake ⟨burst, limit⟩ ttl (store.saved key) now).2 ∧
      store'.Expiring ttl key ∧ ∀ key', key' ≠ key → store' key' = store key' := by
  unfold script
  rw [Call.run_read_bind]
  dsimp only
  rw [script_tokens now limit burst hstore]
  by_cases htoken : 1 ≤ TokenBucket.lazyAt ⟨burst, limit⟩ ttl (store.saved key) now
  · rw [if_pos htoken, Call.run_write_bind, Call.run_write_bind, Call.run_pure,
      TokenBucket.lazyTake_token htoken, expire_hset now]
    refine ⟨_, rfl, ?_, ?_, ?_⟩
    · unfold RateStore.saved
      rw [Function.update_self]
      rfl
    · intro entry hentry
      rw [Function.update_self] at hentry
      cases hentry
      rfl
    · exact fun key' hne => Function.update_of_ne hne _ _
  · rw [if_neg htoken, Call.run_pure, TokenBucket.lazyTake_empty htoken]
    exact ⟨store, rfl, rfl, hstore, fun _ _ => rfl⟩

end Script

/-! ## The limiter is a token bucket -/

namespace RateLimiter

variable {rl : RateLimiter} {identifier : String} {store : RateStore}

/-- `Allow` decides as the lazy bucket at its key. -/
theorem allow_run (hid : identifier ≠ "") (now : ℤ)
    (hstore : store.Expiring 60 (rl.keyPrefix ++ identifier)) :
    ∃ store', (rl.allow false now identifier).run store =
        (.ok (rl.bucket.lazyTake 60 (store.saved (rl.keyPrefix ++ identifier)) now).1, store') ∧
      store'.saved (rl.keyPrefix ++ identifier) =
        (rl.bucket.lazyTake 60 (store.saved (rl.keyPrefix ++ identifier)) now).2 ∧
      store'.Expiring 60 (rl.keyPrefix ++ identifier) ∧
        ∀ key, key ≠ rl.keyPrefix ++ identifier → store' key = store key := by
  obtain ⟨store', hrun, hsaved, hexpiring, hframe⟩ :=
    script_run now rl.requestsPerSecond rl.burstSize hstore
  refine ⟨store', ?_, hsaved, hexpiring, hframe⟩
  unfold allow
  rw [if_neg hid, Call.io_false, Call.bind_ok hrun, Call.run_pure]
  unfold bucket
  cases (TokenBucket.lazyTake ⟨rl.burstSize, rl.requestsPerSecond⟩ 60
    (store.saved (rl.keyPrefix ++ identifier)) now).1 with
  | true => rfl
  | false => rfl

/-- The calls for an identifier return what a lazy bucket decides. -/
theorem decisions_eq (rl : RateLimiter) (hid : identifier ≠ "")
    (hstore : store.Expiring 60 (rl.keyPrefix ++ identifier)) (times : List ℤ) :
    rl.decisions identifier store times =
      (answers (rl.bucket.lazyTake 60) (store.saved (rl.keyPrefix ++ identifier)) times).map
        Outcome.ok := by
  rw [← answers_map]
  -- The state at the key is that of the bucket, before and after each call.
  refine answers_eq_of_forall (R := fun store saved =>
    store.saved (rl.keyPrefix ++ identifier) = saved ∧
      store.Expiring 60 (rl.keyPrefix ++ identifier)) ?_ ⟨rfl, hstore⟩ times
  rintro store saved now ⟨rfl, hstore⟩
  obtain ⟨store', hrun, hsaved, hexpiring, -⟩ := allow_run hid now hstore
  rw [hrun]
  exact ⟨rfl, hsaved, hexpiring⟩

end RateLimiter

/-- The calls of `Allow` for an identifier return what a token bucket decides that starts full and
never forgets; so they allow no more calls from one second to another than the bucket holds tokens
and gains between them. -/
theorem allow_tokenBucket {requestsPerSecond burstSize : ℤ} (hrate : 1 ≤ requestsPerSecond)
    (hburst : 1 ≤ burstSize) (hfills : burstSize ≤ 60 * requestsPerSecond) {identifier : String}
    (hid : identifier ≠ "") {store : RateStore} (hnew : store ("ratelimit:" ++ identifier) = none)
    {start : ℤ} {times : List ℤ} (hsorted : times.Pairwise (· ≤ ·))
    (hstart : ∀ now ∈ times, start ≤ now) :
    (newRateLimiter requestsPerSecond burstSize).decisions identifier store times =
        (answers (TokenBucket.eagerTake ⟨burstSize, requestsPerSecond⟩) ⟨burstSize, start⟩ times).map
          Outcome.ok ∧
      ∀ first last, first ≤ last →
        TokenBucket.allowed first last (times.zip
            (((newRateLimiter requestsPerSecond burstSize).decisions identifier store times).map
              fun outcome => decide (outcome = .ok true))) ≤
          burstSize + requestsPerSecond * (last - first) := by
  have hexpiring : store.Expiring 60 ("ratelimit:" ++ identifier) := by
    intro entry hentry
    rw [hnew] at hentry
    cases hentry
  have hempty : store.saved ("ratelimit:" ++ identifier) = none := congrArg (Option.map _) hnew
  -- The code keeps a lazy bucket, which answers as the eager one.
  have hdecisions : (newRateLimiter requestsPerSecond burstSize).decisions identifier store times =
      (answers (TokenBucket.eagerTake ⟨burstSize, requestsPerSecond⟩) ⟨burstSize, start⟩ times).map
        Outcome.ok := by
    have hlazy := RateLimiter.decisions_eq (newRateLimiter requestsPerSecond burstSize) hid hexpiring
      times
    change _ = (answers _ (store.saved ("ratelimit:" ++ identifier)) times).map _ at hlazy
    rw [hempty] at hlazy
    rw [hlazy]
    exact congrArg _ (TokenBucket.answers_lazyTake (zero_le_one.trans hrate) hfills hsorted hstart)
  refine ⟨hdecisions, fun first last hspan => ?_⟩
  -- The bound is that of the eager bucket on the same answers.
  have hback : ∀ l : List Bool,
      (l.map (Outcome.ok (ε := GoError))).map (fun outcome => decide (outcome = .ok true)) = l := by
    intro l
    rw [List.map_map]
    refine (List.map_congr_left fun ok _ => ?_).trans (List.map_id l)
    cases ok with
    | true => rfl
    | false => rfl
  rw [hdecisions, hback]
  exact TokenBucket.allowed_le (zero_le_one.trans hburst) (zero_le_one.trans hrate) hspan
    (zero_le_one.trans hburst) le_rfl hsorted hstart

/-- Two tokens at once, none left, and one more after a second. -/
theorem allow_tokenBucket_four :
    (newRateLimiter 1 2).decisions "ip:10.0.0.1" .empty [0, 0, 0, 1] =
      [.ok true, .ok true, .ok false, .ok true] := by
  have hstart : ∀ now ∈ [0, 0, 0, 1], (0 : ℤ) ≤ now := by decide
  have hid : "ip:10.0.0.1" ≠ "" := by decide
  have hnew : RateStore.empty ("ratelimit:" ++ "ip:10.0.0.1") = none := rfl
  have hbucket := (allow_tokenBucket le_rfl one_le_two (by decide) hid hnew (by decide) hstart).1
  exact hbucket.trans (by decide)

end Bsg.Central
