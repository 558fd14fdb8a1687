import Bsg.Central.RateLimiter
import Mathlib.Data.Fintype.EquivFin

/-!
# Global and endpoint limits

`DistributedRateLimiter.AllowRequest` asks the global limiter and, if the endpoint has limits of its
own, the limiter of the endpoint. Both ask by `AllowByIP`, so for the same key: they draw from one
bucket, under two capacities and rates. `Budgets` keeps a bucket for each IP and a bucket for each
endpoint and IP.

The code decides as the budgets (`SeparateBudgets`) exactly when no bucket is shared in effect: the
global limiter never gives a token, or no limiter of an endpoint does and the global bucket fills up
before its key expires (`separateBudgets_iff`).
-/

namespace Bsg.Central

open Bsg.Foundations

/-! ## The code -/

/-- `EndpointLimit` -/
structure EndpointLimit where
  requestsPerSecond : ℤ
  burstSize : ℤ
  deriving DecidableEq, Repr

/-- `RateLimitConfig` -/
structure RateLimitConfig where
  requestsPerSecond : ℤ
  burstSize : ℤ
  endpointLimits : List (String × EndpointLimit)
  deriving DecidableEq, Repr

/-- `DefaultRateLimitConfig` -/
def defaultRateLimitConfig : RateLimitConfig where
  requestsPerSecond := 10
  burstSize := 20
  endpointLimits := [("/api/rooms/create", ⟨2, 5⟩), ("/api/users/create", ⟨1, 3⟩)]

/-- `DistributedRateLimiter` -/
structure DistributedRateLimiter where
  globalLimiter : RateLimiter
  endpointLimiters : List (String × RateLimiter)
  deriving DecidableEq, Repr

/-- `NewDistributedRateLimiter` -/
def newDistributedRateLimiter (config : RateLimitConfig) : DistributedRateLimiter where
  globalLimiter := newRateLimiter config.requestsPerSecond config.burstSize
  endpointLimiters := config.endpointLimits.map fun (endpoint, limit) =>
    (endpoint, newRateLimiter limit.requestsPerSecond limit.burstSize)

/-- `AllowRequest`, where the evaluation of either script may fail. -/
def DistributedRateLimiter.allowRequest (failsGlobal failsEndpoint : Bool) (now : ℤ)
    (drl : DistributedRateLimiter) (endpoint ipAddr : String) : RateCall Bool := do
  let allowed ← drl.globalLimiter.allowByIP failsGlobal now ipAddr
  if !allowed then pure false
  else match drl.endpointLimiters.lookup endpoint with
    | some limiter => limiter.allowByIP failsEndpoint now ipAddr
    | none => pure true

/-- `AllowRequestByUser` -/
def DistributedRateLimiter.allowRequestByUser (fails : Bool) (now : ℤ) (drl : DistributedRateLimiter)
    (userID : String) : RateCall Bool := drl.globalLimiter.allowByUserID fails now userID

/-- A call of `AllowRequest` at some second. -/
structure LimitedRequest where
  endpoint : String
  ipAddr : String
  time : ℤ
  deriving DecidableEq, Repr

/-- A call of `AllowRequest` under a configuration, with Redis at work. -/
def RateLimitConfig.allow (config : RateLimitConfig) (store : RateStore) (r : LimitedRequest) :
    Outcome GoError Bool × RateStore :=
  ((newDistributedRateLimiter config).allowRequest false false r.time r.endpoint r.ipAddr).run store

/-- What the calls of `AllowRequest` return, from an empty Redis on. -/
def RateLimitConfig.decisions (config : RateLimitConfig) (requests : List LimitedRequest) :
    List (Outcome GoError Bool) := answers config.allow RateStore.empty requests

/-! ## Separate budgets -/

/-- The bucket of the global limit. -/
def RateLimitConfig.bucket (config : RateLimitConfig) : TokenBucket :=
  ⟨config.burstSize, config.requestsPerSecond⟩

/-- The bucket of a limit. -/
def EndpointLimit.bucket (limit : EndpointLimit) : TokenBucket :=
  ⟨limit.burstSize, limit.requestsPerSecond⟩

/-- A bucket for each IP, and one for each endpoint and IP. -/
structure Budgets where
  ofIP : String → TokenBucket.Tokens
  ofEndpoint : String → String → TokenBucket.Tokens

/-- All buckets are full. -/
def RateLimitConfig.full (config : RateLimitConfig) (start : ℤ) : Budgets where
  ofIP _ := config.bucket.full start
  ofEndpoint endpoint _ := match config.endpointLimits.lookup endpoint with
    | some limit => limit.bucket.full start
    | none => ⟨0, start⟩

/-- A request takes a token of its IP and, if the endpoint has a limit, one of both. -/
def RateLimitConfig.take (config : RateLimitConfig) (budgets : Budgets) (r : LimitedRequest) :
    Bool × Budgets :=
  let ip := hostOf r.ipAddr
  let (allowed, ofIP) := config.bucket.eagerTake (budgets.ofIP ip) r.time
  let budgets := { budgets with ofIP := Function.update budgets.ofIP ip ofIP }
  if !allowed then (false, budgets)
  else match config.endpointLimits.lookup r.endpoint with
    | some limit =>
      let (allowed, own) := limit.bucket.eagerTake (budgets.ofEndpoint r.endpoint ip) r.time
      (allowed, { budgets with
        ofEndpoint := Function.update budgets.ofEndpoint r.endpoint
          (Function.update (budgets.ofEndpoint r.endpoint) ip own) })
    | none => (true, budgets)

/-- The code decides every sequence of requests as the budgets. -/
def SeparateBudgets (config : RateLimitConfig) : Prop :=
  ∀ start requests, requests.Pairwise (fun r r' => r.time ≤ r'.time) → (∀ r ∈ requests, start ≤ r.time) →
    config.decisions requests =
      (answers config.take (config.full start) requests).map Outcome.ok

/-! ## The code shares one bucket -/

/-- The key at which the limiters keep the bucket of an IP. -/
def ipKey (ip : String) : String := "ratelimit:" ++ ("ip:" ++ ip)

/-- Two addresses have two keys. -/
theorem ipKey_inj {ip ip' : String} (h : ipKey ip = ipKey ip') : ip = ip' := by
  unfold ipKey at h
  rw [← String.toList_inj] at h ⊢
  simpa using h

/-- What a request does to the bucket of its IP: the global limiter takes a token of it, and so does
the limiter of the endpoint. -/
def RateLimitConfig.sharedTake (config : RateLimitConfig) (saved : Option TokenBucket.Tokens)
    (r : LimitedRequest) : Bool × Option TokenBucket.Tokens :=
  let global := config.bucket.lazyTake 60 saved r.time
  if !global.1 then (false, global.2)
  else match config.endpointLimits.lookup r.endpoint with
    | some limit => limit.bucket.lazyTake 60 global.2 r.time
    | none => (true, global.2)

section Shared

variable (config : RateLimitConfig) {store : RateStore}

/-- The limiter of an endpoint is that of its limit. -/
theorem lookup_endpointLimiters (endpoint : String) :
    (newDistributedRateLimiter config).endpointLimiters.lookup endpoint =
      (config.endpointLimits.lookup endpoint).map fun limit =>
        newRateLimiter limit.requestsPerSecond limit.burstSize := by
  unfold newDistributedRateLimiter
  induction config.endpointLimits with
  | nil => rfl
  | cons entry limits ih =>
    obtain ⟨name, limit⟩ := entry
    rw [List.map_cons, List.lookup_cons, List.lookup_cons]
    cases endpoint == name with
    | true => rfl
    | false => exact ih

/-- `AllowByIP` asks for a token of the bucket at the key of the IP. -/
theorem allowByIP_run (requestsPerSecond burstSize now : ℤ) (ipAddr : String)
    (hstore : store.Expiring 60 (ipKey (hostOf ipAddr))) :
    ∃ store', ((newRateLimiter requestsPerSecond burstSize).allowByIP false now ipAddr).run store =
        (.ok (TokenBucket.lazyTake ⟨burstSize, requestsPerSecond⟩ 60
          (store.saved (ipKey (hostOf ipAddr))) now).1, store') ∧
      store'.saved (ipKey (hostOf ipAddr)) = (TokenBucket.lazyTake ⟨burstSize, requestsPerSecond⟩ 60
          (store.saved (ipKey (hostOf ipAddr))) now).2 ∧
      store'.Expiring 60 (ipKey (hostOf ipAddr)) ∧
        ∀ key, key ≠ ipKey (hostOf ipAddr) → store' key = store key := by
  have hid : "ip:" ++ hostOf ipAddr ≠ "" := by
    rw [ne_eq, ← String.toList_inj, String.toList_append]
    exact List.cons_ne_nil _ _
  exact RateLimiter.allow_run hid now hstore

/-- `AllowRequest` asks twice for a token of the same bucket. -/
theorem allow_sharedTake (r : LimitedRequest)
    (hstore : store.Expiring 60 (ipKey (hostOf r.ipAddr))) :
    ∃ store', config.allow store r =
        (.ok (config.sharedTake (store.saved (ipKey (hostOf r.ipAddr))) r).1, store') ∧
      store'.saved (ipKey (hostOf r.ipAddr)) =
        (config.sharedTake (store.saved (ipKey (hostOf r.ipAddr))) r).2 ∧
      store'.Expiring 60 (ipKey (hostOf r.ipAddr)) ∧
        ∀ key, key ≠ ipKey (hostOf r.ipAddr) → store' key = store key := by
  -- The global limiter takes from the bucket of the IP.
  obtain ⟨store₁, hrun, hsaved, hexpiring, hframe⟩ :=
    allowByIP_run config.requestsPerSecond config.burstSize r.time r.ipAddr hstore
  have hglobal : (newDistributedRateLimiter config).globalLimiter =
      newRateLimiter config.requestsPerSecond config.burstSize := rfl
  unfold RateLimitConfig.allow DistributedRateLimiter.allowRequest RateLimitConfig.sharedTake
    RateLimitConfig.bucket
  rw [hglobal, Call.bind_ok hrun, lookup_endpointLimiters]
  dsimp only
  rw [← hsaved]
  cases (TokenBucket.lazyTake ⟨config.burstSize, config.requestsPerSecond⟩ 60
    (store.saved (ipKey (hostOf r.ipAddr))) r.time).1 with
  | false => exact ⟨store₁, rfl, rfl, hexpiring, hframe⟩
  | true =>
    cases config.endpointLimits.lookup r.endpoint with
    | none => exact ⟨store₁, rfl, rfl, hexpiring, hframe⟩
    | some limit =>
      -- So does the limiter of the endpoint, after it and from the same bucket.
      obtain ⟨store₂, hrun', hsaved', hexpiring', hframe'⟩ :=
        allowByIP_run limit.requestsPerSecond limit.burstSize r.time r.ipAddr hexpiring
      exact ⟨store₂, hrun', hsaved', hexpiring',
        fun key hkey => (hframe' key hkey).trans (hframe key hkey)⟩

end Shared

/-! ## Where the budgets are separate -/

section Separate

variable {config : RateLimitConfig}

/-- No limiter of an endpoint gives a token. -/
def RateLimitConfig.Idle (config : RateLimitConfig) : Prop :=
  ∀ endpoint limit, config.endpointLimits.lookup endpoint = some limit → limit.burstSize < 1

/-- The bucket at a key expires in time and matches an eager bucket of the IP. -/
def RateStore.Holds (store : RateStore) (b : TokenBucket) (ip : String) (s : TokenBucket.Tokens) :
    Prop :=
  store.Expiring 60 (ipKey ip) ∧ b.Matches 60 (store.saved (ipKey ip)) s

/-- An empty store has nothing to expire. -/
theorem expiring_empty (ip : String) : RateStore.empty.Expiring 60 (ipKey ip) := nofun

/-- Whether a bucket expires in time depends on its key only. -/
theorem expiring_of_eq {store store' : RateStore} {ttl : ℤ} {key : String}
    (h : store' key = store key) (hstore : store.Expiring ttl key) : store'.Expiring ttl key := by
  intro entry hentry
  rw [h] at hentry
  exact hstore entry hentry

/-- A step at one IP leaves what holds at the others. -/
theorem holds_update {b : TokenBucket} {store store' : RateStore}
    {ofIP : String → TokenBucket.Tokens} {ip : String} {s : TokenBucket.Tokens}
    (h : ∀ ip, store.Holds b ip (ofIP ip)) (hip : store'.Holds b ip s)
    (hframe : ∀ key, key ≠ ipKey ip → store' key = store key) (ip' : String) :
    store'.Holds b ip' (Function.update ofIP ip s ip') := by
  by_cases hsame : ip' = ip
  · subst hsame
    rw [Function.update_self]
    exact hip
  · have hkey : store' (ipKey ip') = store (ipKey ip') := hframe _ fun h => hsame (ipKey_inj h)
    have hsaved : store'.saved (ipKey ip') = store.saved (ipKey ip') := congrArg (Option.map _) hkey
    rw [Function.update_of_ne hsame]
    refine ⟨expiring_of_eq hkey (h ip').1, ?_⟩
    rw [hsaved]
    exact (h ip').2

/-- A request makes the bucket of its IP answer, whatever comes after that. -/
theorem take_ofIP (budgets : Budgets) (r : LimitedRequest) : (config.take budgets r).2.ofIP =
    Function.update budgets.ofIP (hostOf r.ipAddr)
      (config.bucket.eagerTake (budgets.ofIP (hostOf r.ipAddr)) r.time).2 := by
  unfold RateLimitConfig.take
  dsimp only
  cases (config.bucket.eagerTake (budgets.ofIP (hostOf r.ipAddr)) r.time).1 with
  | false => rfl
  | true =>
    cases config.endpointLimits.lookup r.endpoint with
    | none => rfl
    | some limit => rfl

/-- Requests at seconds that do not decrease find the buckets of all IPs at an earlier second. -/
theorem along_take : ∀ {budgets : Budgets} {requests : List LimitedRequest},
    requests.Pairwise (fun r r' => r.time ≤ r'.time) →
      (∀ r ∈ requests, ∀ ip, (budgets.ofIP ip).time ≤ r.time) →
        Along (fun budgets r => (config.take budgets r).2)
          (fun budgets r => ∀ ip, (budgets.ofIP ip).time ≤ r.time) budgets requests
  | _, [], _, _ => trivial
  | budgets, r :: requests, hsorted, hstart => by
    obtain ⟨hfirst, hrest⟩ := List.pairwise_cons.mp hsorted
    refine ⟨hstart r List.mem_cons_self, along_take hrest fun r' hr' ip => ?_⟩
    rw [take_ofIP]
    by_cases hip : ip = hostOf r.ipAddr
    · rw [hip, Function.update_self, TokenBucket.eagerTake_time]
      exact hfirst r' hr'
    · rw [Function.update_of_ne hip]
      exact (hstart r List.mem_cons_self ip).trans (hfirst r' hr')

/-- Where no limiter of an endpoint gives a token, the shared bucket is the global one. -/
theorem sharedTake_of_idle (hidle : config.Idle) (saved : Option TokenBucket.Tokens)
    (r : LimitedRequest) : config.sharedTake saved r =
      ((config.bucket.lazyTake 60 saved r.time).1 &&
          (config.endpointLimits.lookup r.endpoint).isNone,
        (config.bucket.lazyTake 60 saved r.time).2) := by
  unfold RateLimitConfig.sharedTake
  dsimp only
  cases (config.bucket.lazyTake 60 saved r.time).1 with
  | false => rfl
  | true =>
    cases hlookup : config.endpointLimits.lookup r.endpoint with
    | none => rfl
    | some limit => exact TokenBucket.lazyTake_of_capacity (hidle r.endpoint limit hlookup) _ _ _

/-- The buckets of endpoints do not hold more than their limits say. -/
def Budgets.Within (budgets : Budgets) (config : RateLimitConfig) : Prop :=
  ∀ endpoint limit ip, config.endpointLimits.lookup endpoint = some limit →
    (budgets.ofEndpoint endpoint ip).tokens ≤ limit.burstSize

/-- Full buckets are within their capacity. -/
theorem within_full (start : ℤ) : (config.full start).Within config := by
  intro endpoint limit ip hlookup
  unfold RateLimitConfig.full
  dsimp only
  rw [hlookup]
  exact le_rfl

/-- So are the budgets. -/
theorem take_of_idle (hidle : config.Idle) {budgets : Budgets} (hwithin : budgets.Within config)
    (r : LimitedRequest) :
    (config.take budgets r).1 =
        ((config.bucket.eagerTake (budgets.ofIP (hostOf r.ipAddr)) r.time).1 &&
          (config.endpointLimits.lookup r.endpoint).isNone) ∧
      (config.take budgets r).2.Within config := by
  unfold RateLimitConfig.take
  dsimp only
  cases (config.bucket.eagerTake (budgets.ofIP (hostOf r.ipAddr)) r.time).1 with
  | false => exact ⟨rfl, hwithin⟩
  | true =>
    cases hlookup : config.endpointLimits.lookup r.endpoint with
    | none => exact ⟨rfl, hwithin⟩
    | some limit =>
      -- The bucket of the endpoint never gives a token.
      have htake := TokenBucket.eagerTake_of_capacity (b := limit.bucket)
        (hidle r.endpoint limit hlookup) (hwithin r.endpoint limit (hostOf r.ipAddr) hlookup) r.time
      refine ⟨congrArg Prod.fst htake, fun endpoint limit' ip hlookup' => ?_⟩
      change (Function.update budgets.ofEndpoint r.endpoint (Function.update
        (budgets.ofEndpoint r.endpoint) (hostOf r.ipAddr) _) endpoint ip).tokens ≤ limit'.burstSize
      -- Only the bucket of this endpoint and this IP was touched.
      by_cases hendpoint : endpoint = r.endpoint
      · subst hendpoint
        rw [Function.update_self]
        cases hlookup.symm.trans hlookup'
        by_cases hip : ip = hostOf r.ipAddr
        · rw [hip, Function.update_self]
          exact TokenBucket.eagerTake_le_capacity (hwithin r.endpoint limit _ hlookup) r.time
        · rw [Function.update_of_ne hip]
          exact hwithin r.endpoint limit ip hlookup
      · rw [Function.update_of_ne hendpoint]
        exact hwithin endpoint limit' ip hlookup'

/-- Where no limiter of an endpoint gives a token and the global bucket fills up before its key
expires, the code decides as the budgets. -/
theorem separateBudgets_of_idle (hidle : config.Idle) (hrate : 0 ≤ config.requestsPerSecond)
    (hfills : config.burstSize ≤ 60 * config.requestsPerSecond) : SeparateBudgets config := by
  intro start requests hsorted hstart
  unfold RateLimitConfig.decisions
  rw [← answers_map]
  refine answers_eq (R := fun store budgets =>
    (∀ ip, RateStore.Holds store config.bucket ip (budgets.ofIP ip)) ∧ budgets.Within config) ?_
    ⟨fun ip => ⟨expiring_empty ip, TokenBucket.matches_full hrate 60 start⟩, within_full start⟩
    (along_take hsorted fun r hr _ => hstart r hr)
  rintro store budgets r ⟨hholds, hwithin⟩ htime
  have hip := hholds (hostOf r.ipAddr)
  obtain ⟨store', hrun, hsaved, hexpiring, hframe⟩ := allow_sharedTake config r hip.1
  obtain ⟨hsame, hmatches⟩ :=
    TokenBucket.lazyTake_simulates hrate hfills _ _ r.time hip.2 (htime (hostOf r.ipAddr))
  obtain ⟨hallowed, hwithin'⟩ := take_of_idle hidle hwithin r
  rw [sharedTake_of_idle hidle] at hrun hsaved
  rw [hrun]
  dsimp only at hsaved ⊢
  refine ⟨?_, fun ip => ?_, hwithin'⟩
  · rw [hsame, hallowed]
  · rw [take_ofIP]
    exact holds_update hholds ⟨hexpiring, by rw [hsaved]; exact hmatches⟩ hframe ip

/-- Where the global limiter gives no token, neither the code nor the budgets allow anything. -/
theorem separateBudgets_of_closed (hclosed : config.burstSize < 1) : SeparateBudgets config := by
  intro start requests _ _
  unfold RateLimitConfig.decisions
  rw [← answers_map]
  refine answers_eq_of_forall (R := fun store budgets =>
    (∀ ip, RateStore.Expiring store 60 (ipKey ip)) ∧
      ∀ ip, (budgets.ofIP ip).tokens ≤ config.burstSize) ?_ ⟨expiring_empty, fun _ => le_rfl⟩ requests
  rintro store budgets r ⟨hexpiring, hle⟩
  obtain ⟨store', hrun, -, hexpiring', hframe⟩ :=
    allow_sharedTake config r (hexpiring (hostOf r.ipAddr))
  -- The global limiter refuses every call, and so does the bucket of the IP.
  have hshared : (config.sharedTake (store.saved (ipKey (hostOf r.ipAddr))) r).1 = false := by
    unfold RateLimitConfig.sharedTake
    rw [TokenBucket.lazyTake_of_capacity hclosed]
    rfl
  have htake := TokenBucket.eagerTake_of_capacity (b := config.bucket) hclosed
    (hle (hostOf r.ipAddr)) r.time
  have hdenied : (config.take budgets r).1 = false := by
    unfold RateLimitConfig.take
    dsimp only
    rw [htake]
    rfl
  rw [hrun, hshared, hdenied]
  -- The keys of the other addresses are as before.
  refine ⟨rfl, fun ip => ?_, fun ip => ?_⟩
  · by_cases hip : ip = hostOf r.ipAddr
    · rw [hip]
      exact hexpiring'
    · exact expiring_of_eq (hframe _ fun h => hip (ipKey_inj h)) (hexpiring ip)
  · rw [take_ofIP]
    by_cases hip : ip = hostOf r.ipAddr
    · rw [hip, Function.update_self]
      exact TokenBucket.eagerTake_le_capacity (hle _) r.time
    · rw [Function.update_of_ne hip]
      exact hle ip

/-! ## Where they are not -/

/-- Some endpoint has no limit. -/
theorem exists_free (config : RateLimitConfig) :
    ∃ endpoint, config.endpointLimits.lookup endpoint = none := by
  have hinf : Infinite String :=
    Infinite.of_injective String.ofList fun l l' h => String.ofList_injective h
  obtain ⟨endpoint, hfree⟩ :=
    Infinite.exists_notMem_finset (config.endpointLimits.map Prod.fst).toFinset
  refine ⟨endpoint, List.lookup_eq_none_iff.mpr fun entry hentry => ?_⟩
  rw [List.mem_toFinset] at hfree
  exact bne_iff_ne.mpr fun h => hfree (h ▸ List.mem_map_of_mem hentry)

/-- The requests for an endpoint without a limit, by one address. -/
def freeRequests (endpoint : String) (times : List ℤ) : List LimitedRequest :=
  times.map fun time => ⟨endpoint, "", time⟩

section Free

variable {free : String}

/-- For an endpoint without a limit, the code asks for one token of the shared bucket. -/
theorem sharedTake_free (hfree : config.endpointLimits.lookup free = none)
    (saved : Option TokenBucket.Tokens) (time : ℤ) :
    config.sharedTake saved ⟨free, "", time⟩ = config.bucket.lazyTake 60 saved time := by
  unfold RateLimitConfig.sharedTake
  dsimp only
  rw [hfree]
  rcases config.bucket.lazyTake 60 saved time with ⟨allowed, saved'⟩
  cases allowed with
  | false => rfl
  | true => rfl

/-- The bucket at the key of the address is this one. -/
def RateStore.Has (store : RateStore) (saved : Option TokenBucket.Tokens) : Prop :=
  store.Expiring 60 (ipKey (hostOf "")) ∧ store.saved (ipKey (hostOf "")) = saved

/-- At an endpoint without a limit the code decides as the global bucket. -/
theorem free_simulates (hfree : config.endpointLimits.lookup free = none) (store : RateStore)
    (saved : Option TokenBucket.Tokens) (time : ℤ) (h : store.Has saved) :
    (config.allow store ⟨free, "", time⟩).1 = .ok (config.bucket.lazyTake 60 saved time).1 ∧
      (config.allow store ⟨free, "", time⟩).2.Has (config.bucket.lazyTake 60 saved time).2 := by
  obtain ⟨hexpiring, rfl⟩ := h
  obtain ⟨store', hrun, hsaved, hexpiring', -⟩ :=
    allow_sharedTake config ⟨free, "", time⟩ hexpiring
  dsimp only at hrun hsaved
  rw [sharedTake_free hfree] at hrun hsaved
  rw [hrun]
  exact ⟨rfl, hexpiring', hsaved⟩

/-- The code decides requests for such an endpoint as a lazy bucket, and leaves what it saves. -/
theorem free_lazy (hfree : config.endpointLimits.lookup free = none) (times : List ℤ) :
    config.decisions (freeRequests free times) =
        (answers (config.bucket.lazyTake 60) none times).map Outcome.ok ∧
      RateStore.Has (after config.allow RateStore.empty (freeRequests free times))
        (after (config.bucket.lazyTake 60) none times) := by
  have hempty : RateStore.empty.Has none := ⟨expiring_empty _, rfl⟩
  constructor
  · unfold RateLimitConfig.decisions freeRequests
    rw [answers_comp, ← answers_map]
    exact answers_eq_of_forall (free_simulates hfree) hempty times
  · unfold freeRequests
    rw [after_comp]
    exact after_related (fun store saved time h => (free_simulates hfree store saved time h).2) hempty
      times

/-- The budgets decide them as the bucket of the address. -/
theorem free_eager (hfree : config.endpointLimits.lookup free = none) (budgets : Budgets)
    (times : List ℤ) :
    answers config.take budgets (freeRequests free times) =
        answers config.bucket.eagerTake (budgets.ofIP (hostOf "")) times ∧
      (after config.take budgets (freeRequests free times)).ofIP (hostOf "") =
        after config.bucket.eagerTake (budgets.ofIP (hostOf "")) times ∧
      (after config.take budgets (freeRequests free times)).ofEndpoint = budgets.ofEndpoint := by
  -- One request takes a token of the IP, and leaves the buckets of the endpoints.
  have hstep : ∀ (budgets' : Budgets) (s : TokenBucket.Tokens) (time : ℤ),
      budgets'.ofIP (hostOf "") = s ∧ budgets'.ofEndpoint = budgets.ofEndpoint →
        (config.take budgets' ⟨free, "", time⟩).1 = (config.bucket.eagerTake s time).1 ∧
          (config.take budgets' ⟨free, "", time⟩).2.ofIP (hostOf "") =
              (config.bucket.eagerTake s time).2 ∧
            (config.take budgets' ⟨free, "", time⟩).2.ofEndpoint = budgets.ofEndpoint := by
    rintro budgets' s time ⟨rfl, hsame⟩
    rw [take_ofIP, Function.update_self]
    unfold RateLimitConfig.take
    dsimp only
    rw [hfree]
    cases (config.bucket.eagerTake (budgets'.ofIP (hostOf "")) time).1 with
    | false => exact ⟨rfl, rfl, hsame⟩
    | true => exact ⟨rfl, rfl, hsame⟩
  unfold freeRequests
  rw [answers_comp, after_comp]
  exact ⟨answers_eq_of_forall hstep ⟨rfl, rfl⟩ times,
    after_related (fun budgets' s time h => (hstep budgets' s time h).2) ⟨rfl, rfl⟩ times⟩

/-- The requests are in the order of their times. -/
theorem pairwise_freeRequests {times : List ℤ} (h : times.Pairwise (· ≤ ·)) :
    (freeRequests free times).Pairwise fun r r' => r.time ≤ r'.time := List.pairwise_map.mpr h

/-- At an endpoint with a limit, the limiter of the endpoint finds what the global one left. -/
theorem sharedTake_limited {saved : Option TokenBucket.Tokens} {r : LimitedRequest}
    {limit : EndpointLimit} (hlookup : config.endpointLimits.lookup r.endpoint = some limit)
    (htoken : 1 ≤ config.bucket.lazyAt 60 saved r.time) : config.sharedTake saved r =
      limit.bucket.lazyTake 60 (some ⟨config.bucket.lazyAt 60 saved r.time - 1, r.time⟩) r.time := by
  unfold RateLimitConfig.sharedTake
  rw [TokenBucket.lazyTake_token htoken, hlookup]
  rfl

/-- The bucket of the endpoint is another one. -/
theorem take_limited {budgets : Budgets} {r : LimitedRequest} {limit : EndpointLimit}
    (hlookup : config.endpointLimits.lookup r.endpoint = some limit)
    (htoken : 1 ≤ config.bucket.eagerAt (budgets.ofIP (hostOf r.ipAddr)) r.time) :
    (config.take budgets r).1 =
      (limit.bucket.eagerTake (budgets.ofEndpoint r.endpoint (hostOf r.ipAddr)) r.time).1 := by
  unfold RateLimitConfig.take
  dsimp only
  rw [TokenBucket.eagerTake_token htoken, hlookup]
  rfl

/-- The code tells the budgets of a global bucket that is not full when its key expires: requests
for an endpoint without a limit are allowed by a bucket that forgets. -/
theorem SeparateBudgets.fills (h : SeparateBudgets config) (hopen : 1 ≤ config.burstSize) :
    config.burstSize ≤ 60 * config.requestsPerSecond := by
  by_contra hslow
  obtain ⟨free, hfree⟩ := exists_free config
  set times := List.replicate config.bucket.capacity.toNat (0 : ℤ) ++
    List.replicate config.bucket.capacity.toNat 60 with htimes
  have hsorted : times.Pairwise (· ≤ ·) := by
    refine List.pairwise_append.mpr ⟨List.pairwise_replicate.mpr (Or.inr le_rfl),
      List.pairwise_replicate.mpr (Or.inr le_rfl), fun t ht t' ht' => ?_⟩
    rw [List.eq_of_mem_replicate ht, List.eq_of_mem_replicate ht']
    decide
  have hstart : ∀ r ∈ freeRequests free times, (0 : ℤ) ≤ r.time := by
    intro r hr
    obtain ⟨t, ht, rfl⟩ := List.mem_map.mp hr
    rcases List.mem_append.mp ht with ht | ht
    · exact (List.eq_of_mem_replicate ht).ge
    · rw [List.eq_of_mem_replicate ht]
      exact (by decide : (0 : ℤ) ≤ 60)
  have hsame := h 0 _ (pairwise_freeRequests hsorted) hstart
  rw [(free_lazy hfree times).1, (free_eager hfree _ times).1] at hsame
  refine TokenBucket.lazyTake_forgets (b := config.bucket) (by decide) hopen (not_le.mp hslow) ?_
  exact List.map_injective_iff.mpr (fun _ _ h => Outcome.ok.inj h) hsame

/-- It tells them from the buckets of an endpoint with a limit that gives tokens: after all but one
of the global tokens are gone, the last is taken first by the one limiter and then missed by the
other. -/
theorem SeparateBudgets.idle (h : SeparateBudgets config) (hopen : 1 ≤ config.burstSize) :
    config.Idle := by
  intro endpoint limit hlookup
  by_contra hlimit
  obtain ⟨free, hfree⟩ := exists_free config
  set times := List.replicate (config.burstSize - 1).toNat (0 : ℤ)
  have hcast : ((config.burstSize - 1).toNat : ℤ) = config.burstSize - 1 :=
    Int.toNat_of_nonneg (by omega)
  have hzero : ∀ r ∈ freeRequests free times ++ [⟨endpoint, "", 0⟩], r.time = 0 := by
    intro r hr
    rcases List.mem_append.mp hr with hr | hr
    · obtain ⟨t, ht, rfl⟩ := List.mem_map.mp hr
      exact List.eq_of_mem_replicate ht
    · rw [List.mem_singleton.mp hr]
  have hsame := h 0 _
    (List.pairwise_of_forall_mem_list fun r hr r' hr' => ((hzero r hr).trans (hzero r' hr').symm).le)
    fun r hr => (hzero r hr).ge
  unfold RateLimitConfig.decisions at hsame
  rw [answers_append, answers_append, List.map_append] at hsame
  have hlast := List.append_inj_right hsame (by rw [List.length_map, length_answers, length_answers])
  -- One token is left, in the shared bucket and in the global one.
  obtain ⟨hexpiring, hsaved⟩ := (free_lazy hfree times).2
  obtain ⟨-, hglobal, hendpoint⟩ := free_eager hfree (config.full 0) times
  have hshared := (TokenBucket.lazy_burst (b := config.bucket) (by decide : (0 : ℤ) < 60) 0
    (config.burstSize - 1).toNat none (by rw [hcast]; exact (sub_le_self _ zero_le_one))).2.1
  have hfull : config.bucket.eagerAt (config.bucket.full 0) 0 = config.burstSize :=
    TokenBucket.eagerAt_time (config.bucket.full 0)
  have hown := (TokenBucket.eager_burst (b := config.bucket) 0 (config.burstSize - 1).toNat
    (config.bucket.full 0) (by rw [hcast, hfull]; exact (sub_le_self _ zero_le_one))).2
  have hmissed : (config.allow (after config.allow RateStore.empty (freeRequests free times))
      ⟨endpoint, "", 0⟩).1 = .ok false := by
    have hone : config.bucket.lazyAt 60 (after (config.bucket.lazyTake 60) none times) 0 = 1 := by
      rw [hshared, hcast]
      exact sub_sub_cancel _ _
    have hnone : limit.bucket.lazyAt 60 (some ⟨1 - 1, 0⟩) 0 = 1 - 1 :=
      TokenBucket.lazyAt_saved (by decide) (zero_le_one.trans (not_lt.mp hlimit))
    obtain ⟨store', hrun, -⟩ := allow_sharedTake config ⟨endpoint, "", 0⟩ hexpiring
    rw [hrun, hsaved, sharedTake_limited hlookup hone.ge, hone,
      TokenBucket.lazyTake_empty (by rw [hnone]; decide)]
  have htaken : (config.take (after config.take (config.full 0) (freeRequests free times))
      ⟨endpoint, "", 0⟩).1 = true := by
    have hone : config.bucket.eagerAt
        ((after config.take (config.full 0) (freeRequests free times)).ofIP (hostOf "")) 0 = 1 := by
      rw [hglobal]
      exact hown.trans (by rw [hcast, hfull, sub_sub_cancel])
    have hlimited : limit.bucket.eagerAt (limit.bucket.full 0) 0 = limit.burstSize :=
      TokenBucket.eagerAt_time (limit.bucket.full 0)
    have hstart : (config.full 0).ofEndpoint endpoint (hostOf "") = limit.bucket.full 0 := by
      unfold RateLimitConfig.full
      dsimp only
      rw [hlookup]
    rw [take_limited hlookup hone.ge, hendpoint, hstart,
      TokenBucket.eagerTake_token (by rw [hlimited]; exact not_lt.mp hlimit)]
  rw [answers, answers, answers, answers, hmissed, htaken] at hlast
  cases hlast

end Free

/-- The code decides every sequence of requests as separate budgets exactly when the global limiter
gives no token, or no limiter of an endpoint does and the global bucket fills up before its key
expires. -/
theorem separateBudgets_iff (config : RateLimitConfig) : SeparateBudgets config ↔
    config.burstSize < 1 ∨
      config.Idle ∧ config.burstSize ≤ 60 * config.requestsPerSecond := by
  constructor
  · intro h
    by_cases hclosed : config.burstSize < 1
    · exact Or.inl hclosed
    · exact Or.inr ⟨h.idle (not_lt.mp hclosed), h.fills (not_lt.mp hclosed)⟩
  · rintro (hclosed | ⟨hidle, hfills⟩)
    · exact separateBudgets_of_closed hclosed
    · by_cases hclosed : config.burstSize < 1
      · exact separateBudgets_of_closed hclosed
      · exact separateBudgets_of_idle hidle (by omega) hfills

/-- One request that creates a room leaves four tokens for the address, not nineteen. -/
theorem not_separateBudgets_default : ¬ SeparateBudgets defaultRateLimitConfig := by
  intro h
  have hsame := h 0 (⟨"/api/rooms/create", "10.0.0.1:4711", 0⟩ ::
    List.replicate 5 ⟨"/api/problems", "10.0.0.1:4711", 0⟩) (by decide) (by decide)
  have hlast := congrArg List.getLast? hsame
  revert hlast
  decide +kernel

end Separate

end Bsg.Central
