import Bsg.Foundations.Run
import Bsg.Server.RateLimit
import Mathlib.Tactic.Ring

/-!
# Limits for each endpoint

`PerEndpointRateLimiter` of `middleware/rate-limit.js` has a limiter for each endpoint. All of them
count in one Redis, under keys that name the identifier and the window, and not the endpoint. So the
traffic of other endpoints leaves the decisions for an endpoint alone (`Undisturbed`) exactly when
the key prefixes keep their keys apart (`Separated`, `undisturbed_iff`).
-/

namespace Bsg.Server

open Bsg.Foundations

/-! ## The code -/

/-- The configuration: the options under the name `default`, and those of endpoints. -/
structure EndpointsConfig where
  byDefault : Option RateLimiterOptions
  endpoints : List (String × RateLimiterOptions)
  deriving DecidableEq, Repr

/-- Options that leave everything to the constructor. -/
def RateLimiterOptions.none : RateLimiterOptions := ⟨.none, .none, .none, false, false⟩

/-- The limiter that is made for an endpoint: with its own options, or those by default. -/
def EndpointsConfig.limiterOf (config : EndpointsConfig) (endpoint : String) : RateLimiter :=
  let config := (config.endpoints.lookup endpoint).or config.byDefault
  newRateLimiter (config.getD .none)

/-- `PerEndpointRateLimiter`: the limiters that were made, and the counters in Redis. -/
structure PerEndpointRateLimiter where
  limiters : List (String × RateLimiter)
  store : CounterStore

/-- `getLimiter` -/
def EndpointsConfig.getLimiter (config : EndpointsConfig) (limiters : List (String × RateLimiter))
    (endpoint : String) : RateLimiter × List (String × RateLimiter) :=
  match limiters.lookup endpoint with
  | some limiter => (limiter, limiters)
  | none => (config.limiterOf endpoint, (endpoint, config.limiterOf endpoint) :: limiters)

/-- The endpoint of a request. -/
def Request.endpoint (req : Request) : String := req.method ++ ":" ++ req.path

/-- `middleware` of `PerEndpointRateLimiter` -/
def EndpointsConfig.middleware (config : EndpointsConfig) (faults : CheckFaults) (now : ℕ)
    (s : PerEndpointRateLimiter) (req : Request) : Handling × PerEndpointRateLimiter :=
  let (limiter, limiters) := config.getLimiter s.limiters req.endpoint
  let (result, store) := limiter.checkLimit faults now req.identifier s.store
  match result with
  | none => (.next none none, ⟨limiters, store⟩)
  | some result =>
    if !result.allowed then
      (.rejected result.headers "Rate limit exceeded for this endpoint" limiter.windowSeconds,
        ⟨limiters, store⟩)
    else (.next result.headers none, ⟨limiters, store⟩)

/-- The configuration of `createPerEndpointRateLimitMiddleware`: what is given, and options by
default unless they are given too. -/
def createPerEndpointRateLimitMiddleware (endpointConfig : EndpointsConfig) : EndpointsConfig where
  byDefault := endpointConfig.byDefault.or (some ⟨some 1, some 100, none, false, false⟩)
  endpoints := endpointConfig.endpoints

/-! ## What other endpoints do to an endpoint -/

/-- A request at some millisecond. -/
structure TimedRequest where
  time : ℕ
  req : Request
  deriving DecidableEq, Repr

/-- The request is for the endpoint. -/
def TimedRequest.isFor (endpoint : String) (r : TimedRequest) : Bool :=
  decide (r.req.endpoint = endpoint)

section Claim

variable (config : EndpointsConfig) (endpoint : String)

/-- A request, and whether it is rejected if it is for the endpoint. -/
def EndpointsConfig.take (s : PerEndpointRateLimiter) (r : TimedRequest) :
    Option Bool × PerEndpointRateLimiter :=
  let (handling, s) := config.middleware .none r.time s r.req
  (if r.isFor endpoint then some handling.isRejected else none, s)

/-- What the limiter decides for the endpoint when these requests arrive. -/
def EndpointsConfig.decisions (store : CounterStore) (requests : List TimedRequest) : List Bool :=
  (answers (config.take endpoint) ⟨[], store⟩ requests).filterMap id

/-- From the same counters, two sequences with the same requests for the endpoint get the same
decisions for it. -/
def Undisturbed : Prop :=
  ∀ store (requests requests' : List TimedRequest),
    requests.Pairwise (fun r r' => r.time ≤ r'.time) →
      requests'.Pairwise (fun r r' => r.time ≤ r'.time) →
        requests.filter (TimedRequest.isFor endpoint) =
            requests'.filter (TimedRequest.isFor endpoint) →
          config.decisions endpoint store requests = config.decisions endpoint store requests'

/-- No request for another endpoint is counted under the prefix and the identifier of a request for
the endpoint. -/
def Separated : Prop :=
  ∀ req req' : Request, req.endpoint = endpoint → req'.endpoint ≠ endpoint →
    (config.limiterOf endpoint).keyPrefix ++ req.identifier ≠
      (config.limiterOf req'.endpoint).keyPrefix ++ req'.identifier

/-! ## The limiters -/

variable {config endpoint}

/-- Each limiter that was made is the one of its endpoint. -/
def PerEndpointRateLimiter.Made (s : PerEndpointRateLimiter) (config : EndpointsConfig) : Prop :=
  ∀ endpoint limiter, s.limiters.lookup endpoint = some limiter → limiter = config.limiterOf endpoint

/-- The limiter of an endpoint is made once, and found afterwards. -/
theorem getLimiter_made {s : PerEndpointRateLimiter} (h : s.Made config) (endpoint : String) :
    ∃ limiters, config.getLimiter s.limiters endpoint = (config.limiterOf endpoint, limiters) ∧
      ∀ store, PerEndpointRateLimiter.Made ⟨limiters, store⟩ config := by
  unfold EndpointsConfig.getLimiter
  cases hlookup : s.limiters.lookup endpoint with
  | some limiter =>
    rw [h endpoint limiter hlookup]
    exact ⟨s.limiters, rfl, fun _ => h⟩
  | none =>
    refine ⟨_, rfl, fun _ endpoint' limiter hmade => ?_⟩
    dsimp only at hmade
    rw [List.lookup_cons] at hmade
    by_cases hsame : endpoint' = endpoint
    · subst hsame
      rw [beq_self_eq_true] at hmade
      exact (Option.some.inj hmade).symm
    · rw [beq_eq_false_iff_ne.mpr hsame] at hmade
      exact h endpoint' limiter hmade

/-- The middleware rejects a request when the limiter of its endpoint does not allow it, and leaves
what its check leaves. -/
theorem perEndpoint_run {s : PerEndpointRateLimiter} (h : s.Made config) (now : ℕ) (req : Request) :
    ∃ handling limiters, config.middleware .none now s req =
        (handling, ⟨limiters, ((config.limiterOf req.endpoint).checkLimit .none now req.identifier
          s.store).2⟩) ∧
      handling.isRejected = (((config.limiterOf req.endpoint).checkLimit .none now req.identifier
        s.store).1.any fun result => !result.allowed) ∧
      ∀ store, PerEndpointRateLimiter.Made ⟨limiters, store⟩ config := by
  obtain ⟨limiters, hget, hmade⟩ := getLimiter_made h req.endpoint
  unfold EndpointsConfig.middleware
  rw [hget]
  dsimp only
  cases ((config.limiterOf req.endpoint).checkLimit .none now req.identifier s.store).1 with
  | none => exact ⟨_, limiters, rfl, rfl, hmade⟩
  | some result =>
    dsimp only
    rw [Option.any_some]
    cases result.allowed with
    | true => exact ⟨_, limiters, rfl, rfl, hmade⟩
    | false => exact ⟨_, limiters, rfl, rfl, hmade⟩

/-! ## Where prefixes keep keys apart -/

/-- Two states in which every counter of the endpoint is the same. -/
structure SameFor (config : EndpointsConfig) (endpoint : String) (s t : PerEndpointRateLimiter) :
    Prop where
  made : s.Made config
  made' : t.Made config
  same : ∀ req : Request, req.endpoint = endpoint → ∀ w,
    s.store ((config.limiterOf endpoint).windowKey req.identifier w) =
      t.store ((config.limiterOf endpoint).windowKey req.identifier w)

/-- A request for the endpoint gets the same decision in both states, which stay the same for it. -/
theorem SameFor.take_own {s t : PerEndpointRateLimiter} (h : SameFor config endpoint s t)
    {r : TimedRequest} (hr : r.req.endpoint = endpoint) :
    (config.take endpoint s r).1 = (config.take endpoint t r).1 ∧
      SameFor config endpoint (config.take endpoint s r).2 (config.take endpoint t r).2 := by
  obtain ⟨handling, limiters, hrun, hrejected, hmade⟩ := perEndpoint_run h.made r.time r.req
  obtain ⟨handling', limiters', hrun', hrejected', hmade'⟩ := perEndpoint_run h.made' r.time r.req
  subst hr
  obtain ⟨hresult, hkey⟩ := checkLimit_congr (config.limiterOf r.req.endpoint) .none r.time
    r.req.identifier (h.same r.req rfl ((config.limiterOf r.req.endpoint).windowIndex r.time))
  unfold EndpointsConfig.take
  rw [hrun, hrun']
  dsimp only
  rw [hrejected, hrejected', hresult]
  refine ⟨rfl, hmade _, hmade' _, fun req hreq w => ?_⟩
  dsimp only
  by_cases hsame : (config.limiterOf r.req.endpoint).windowKey req.identifier w =
      (config.limiterOf r.req.endpoint).windowKey r.req.identifier
        ((config.limiterOf r.req.endpoint).windowIndex r.time)
  · rw [hsame]
    exact hkey
  · rw [checkLimit_frame _ _ _ _ _ hsame, checkLimit_frame _ _ _ _ _ hsame]
    exact h.same req hreq w

/-- A request for another endpoint touches no counter of the endpoint. -/
theorem SameFor.take_other {s t : PerEndpointRateLimiter} (h : SameFor config endpoint s t)
    (hseparated : Separated config endpoint) {r : TimedRequest} (hr : r.req.endpoint ≠ endpoint) :
    SameFor config endpoint (config.take endpoint s r).2 t := by
  obtain ⟨handling, limiters, hrun, -, hmade⟩ := perEndpoint_run h.made r.time r.req
  unfold EndpointsConfig.take
  rw [hrun]
  refine ⟨hmade _, h.made', fun req hreq w => ?_⟩
  have hother : (config.limiterOf endpoint).windowKey req.identifier w ≠
      (config.limiterOf r.req.endpoint).windowKey r.req.identifier
        ((config.limiterOf r.req.endpoint).windowIndex r.time) := fun hkey =>
    hseparated req r.req hreq hr (windowKey_inj'.mp hkey).1
  exact (checkLimit_frame _ _ _ _ _ hother).trans (h.same req hreq w)

/-- A request is for its own endpoint. -/
theorem isFor_iff {r : TimedRequest} : r.isFor endpoint = true ↔ r.req.endpoint = endpoint :=
  decide_eq_true_iff

/-- The answers that are for the endpoint. -/
theorem filterMap_answers_cons (s : PerEndpointRateLimiter) (r : TimedRequest)
    (requests : List TimedRequest) :
    (answers (config.take endpoint) s (r :: requests)).filterMap id =
      (config.take endpoint s r).1.toList ++
        (answers (config.take endpoint) (config.take endpoint s r).2 requests).filterMap id := by
  rw [answers]
  cases (config.take endpoint s r).1 with
  | none => rfl
  | some rejected => rfl

/-- The decisions for the endpoint are those that its own requests get alone. -/
theorem decisions_filter (hseparated : Separated config endpoint) :
    ∀ {s t : PerEndpointRateLimiter}, SameFor config endpoint s t → ∀ requests : List TimedRequest,
      (answers (config.take endpoint) s requests).filterMap id =
        (answers (config.take endpoint) t
          (requests.filter (TimedRequest.isFor endpoint))).filterMap id
  | _, _, _, [] => rfl
  | s, t, h, r :: requests => by
    rw [filterMap_answers_cons]
    by_cases hr : r.req.endpoint = endpoint
    · obtain ⟨hsame, hnext⟩ := h.take_own hr
      rw [List.filter_cons_of_pos (isFor_iff.mpr hr), filterMap_answers_cons, hsame,
        decisions_filter hseparated hnext requests]
    · have hskip : (config.take endpoint s r).1 = none :=
        if_neg fun hfor => hr (isFor_iff.mp hfor)
      rw [List.filter_cons_of_neg (fun hfor => hr (isFor_iff.mp hfor)), hskip,
        decisions_filter hseparated (h.take_other hseparated hr) requests]
      rfl

/-- Where the prefixes keep the keys apart, other traffic leaves the decisions alone. -/
theorem undisturbed_of_separated (h : Separated config endpoint) : Undisturbed config endpoint := by
  intro store requests requests' _ _ hsame
  have hstart : SameFor config endpoint ⟨[], store⟩ ⟨[], store⟩ := ⟨nofun, nofun, fun _ _ _ => rfl⟩
  unfold EndpointsConfig.decisions
  rw [decisions_filter h hstart requests, decisions_filter h hstart requests', hsame]

/-! ## Where they do not -/

/-- A request for the endpoint is rejected when the counter at its key has reached the burst size.
-/
theorem take_value {s : PerEndpointRateLimiter} (h : s.Made config) (req : Request) :
    (config.take req.endpoint s ⟨0, req⟩).1 =
      some (decide ((config.limiterOf req.endpoint).burstSize <
        s.store.value 0 ((config.limiterOf req.endpoint).windowKey req.identifier 0) + 1)) := by
  obtain ⟨handling, limiters, hrun, hrejected, -⟩ := perEndpoint_run h 0 req
  obtain ⟨result, hresult, -, hallowed⟩ :=
    checkLimit_allowed (config.limiterOf req.endpoint) 0 req.identifier s.store
  have hwindow : (config.limiterOf req.endpoint).windowIndex 0 = 0 := Nat.zero_div _
  rw [hwindow] at hallowed
  have hfor : TimedRequest.isFor req.endpoint ⟨0, req⟩ = true := isFor_iff.mpr rfl
  unfold EndpointsConfig.take
  rw [hrun]
  dsimp only
  rw [if_pos hfor, hrejected, hresult, Option.any_some]
  congr 1
  cases hcase : result.allowed with
  | true => exact (decide_eq_false (not_lt.mpr (hallowed.mp hcase))).symm
  | false =>
    refine (decide_eq_true (not_le.mp fun hle => ?_)).symm
    rw [hallowed.mpr hle] at hcase
    cases hcase

/-- No limiter has an empty window. -/
theorem limiterOf_windowMs (config : EndpointsConfig) (endpoint : String) :
    0 < (config.limiterOf endpoint).windowMs := windowMs_pos _

/-- Requests for another endpoint raise the counter at their key. -/
theorem flood {req : Request} (hother : req.endpoint ≠ endpoint) :
    ∀ (n : ℕ) {s : PerEndpointRateLimiter}, s.Made config →
      s.store.Lasting (config.limiterOf req.endpoint) →
        (answers (config.take endpoint) s (List.replicate n ⟨0, req⟩)).filterMap id = [] ∧
          (after (config.take endpoint) s (List.replicate n ⟨0, req⟩)).Made config ∧
            (after (config.take endpoint) s (List.replicate n ⟨0, req⟩)).store.value 0
                ((config.limiterOf req.endpoint).windowKey req.identifier 0) =
              s.store.value 0 ((config.limiterOf req.endpoint).windowKey req.identifier 0) + n
  | 0, s, hmade, _ => ⟨rfl, hmade, (add_zero _).symm⟩
  | n + 1, s, hmade, hlasting => by
    have hend := lt_window_end (limiterOf_windowMs config req.endpoint) 0
    obtain ⟨handling, limiters, hrun, -, hmade'⟩ := perEndpoint_run hmade 0 req
    obtain ⟨result, store', hcheck, -, -, hlasting', hcount, -⟩ :=
      checkLimit_run (limiterOf_windowMs config req.endpoint) hlasting 0 req.identifier
    have hwindow : (config.limiterOf req.endpoint).windowIndex 0 = 0 := Nat.zero_div _
    rw [hwindow] at hcount hend
    -- A request to another endpoint is counted under its own key and gives no answer of this one.
    have htake : config.take endpoint s ⟨0, req⟩ = (none, ⟨limiters, store'⟩) := by
      unfold EndpointsConfig.take
      rw [hrun, hcheck]
      dsimp only
      rw [if_neg fun hfor => hother (isFor_iff.mp hfor)]
    obtain ⟨hnone, hlast, hvalue⟩ := flood hother n (hmade' store') hlasting'
    rw [List.replicate_succ, filterMap_answers_cons, after_cons, htake]
    refine ⟨hnone, hlast, ?_⟩
    rw [hvalue, hlasting.value_eq req.identifier hend, hlasting'.value_eq req.identifier hend, hcount]
    push_cast
    ring

/-- The traffic of other endpoints leaves the decisions for an endpoint alone exactly when the
prefixes keep their keys apart. -/
theorem undisturbed_iff (config : EndpointsConfig) (endpoint : String) :
    Undisturbed config endpoint ↔ Separated config endpoint := by
  refine ⟨fun h req req' hreq hreq' hkey => ?_, undisturbed_of_separated⟩
  subst hreq
  -- As many requests for the other endpoint as the burst size says, in the first millisecond.
  let flooding : List TimedRequest :=
    List.replicate (config.limiterOf req.endpoint).burstSize ⟨0, req'⟩
  have htimes : ∀ r ∈ flooding ++ [⟨0, req⟩], r.time = 0 := by
    intro r hr
    rcases List.mem_append.mp hr with hr | hr
    · rw [List.eq_of_mem_replicate hr]
    · rw [List.mem_singleton.mp hr]
  have hothers : flooding.filter (TimedRequest.isFor req.endpoint) = [] := by
    refine List.filter_eq_nil_iff.mpr fun r hr hfor => hreq' ?_
    rw [List.eq_of_mem_replicate hr] at hfor
    exact isFor_iff.mp hfor
  have hsame := h .empty (flooding ++ [⟨0, req⟩]) [⟨0, req⟩]
    (List.pairwise_of_forall_mem_list fun r hr r' hr' =>
      ((htimes r hr).trans (htimes r' hr').symm).le)
    (List.pairwise_singleton _ _) (by rw [List.filter_append, hothers, List.nil_append])
  have hmade : PerEndpointRateLimiter.Made ⟨[], .empty⟩ config := nofun
  obtain ⟨hnone, hmade', hvalue⟩ := flood hreq' (config.limiterOf req.endpoint).burstSize hmade
    (lasting_empty _)
  have hempty : ∀ key, CounterStore.empty.value 0 key = 0 := fun _ => rfl
  unfold EndpointsConfig.decisions at hsame
  rw [answers_append, List.filterMap_append, hnone, List.nil_append, filterMap_answers_cons,
    filterMap_answers_cons, take_value hmade' req, take_value hmade req,
    windowKey_inj'.mpr ⟨hkey, rfl⟩, hvalue, hempty] at hsame
  have hpos : 0 < (config.limiterOf req.endpoint).burstSize := burstSize_pos _
  have hrejected := (List.cons.inj hsame).1
  rw [decide_eq_true (by omega), decide_eq_false (by omega)] at hrejected
  cases hrejected

/-- A request for another endpoint takes the only one that the login endpoint has. -/
theorem not_undisturbed_login :
    ¬ Undisturbed (createPerEndpointRateLimitMiddleware
      ⟨none, [("POST:/auth/login", ⟨none, some 1, none, false, false⟩)]⟩) "POST:/auth/login" := by
  intro h
  have hsame := h .empty
    [⟨0, ⟨"GET", "/other", "10.0.0.1", none⟩⟩, ⟨1, ⟨"POST", "/auth/login", "10.0.0.1", none⟩⟩]
    [⟨1, ⟨"POST", "/auth/login", "10.0.0.1", none⟩⟩] (by decide) (by decide) (by decide)
  revert hsame
  decide +kernel

end Claim

end Bsg.Server
