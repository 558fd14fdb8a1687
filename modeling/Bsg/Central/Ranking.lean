import Mathlib.Algebra.GroupWithZero.Nat
import Bsg.Foundations.Run
import Bsg.Central.Rooms
import Bsg.Central.Processing

/-!
# The order of a leaderboard

The leaderboard of a round is a sorted set of compressed scores, written by two functions:
`addLeaderboardMember` gives a user a first entry, `updateLeaderboardScore` decodes the entry, adds
points and encodes it again. Beside the calls the `Board` keeps what they mean: for each user his
points and the second of his last entry (`Placing`). `leaderboard_ranks` says that the scores are
these, exact as floats, and that the range in reverse ranks by more points, and then by the earlier
second. A first entry is one without points, also for a user who had some: `first_entry_resets`.
-/

namespace Bsg.Central

open Bsg.Foundations

/-- A call that writes to the leaderboard of a round. -/
inductive BoardCall where
  | addMember (env : Env) (i : ℕ) (userID : AuthID)
  | update (env : EgressEnv) (userID : AuthID) (scoreToAdd : UInt64)

/-- The time of the call. -/
def BoardCall.now : BoardCall → ℤ
  | .addMember env _ _ => env.now
  | .update env _ _ => env.now

/-- The state after the call. -/
def World.board (roundID : ℕ) (w : World) : BoardCall → World
  | .addMember env i userID => ((addLeaderboardMember env i roundID userID).run w).2
  | .update env userID scoreToAdd =>
    ((updateLeaderboardScore env roundID userID scoreToAdd).run w).2

/-- What a user has: the points that were added since he was entered, and the second of his last
entry. -/
structure Placing where
  total : ℕ
  last : ℤ
  deriving DecidableEq, Repr

/-- What the users have after a call; one that fails changes nothing. -/
def BoardCall.book (standing : AuthID → Option Placing) : BoardCall → AuthID → Option Placing
  | .addMember env i userID =>
    if env.fails (.zaddLeaderboard i) then standing
    else Function.update standing userID (some ⟨0, env.now⟩)
  | .update env userID scoreToAdd =>
    if env.fails .zscore || env.fails .zadd then standing
    else Function.update standing userID
      (some ⟨((standing userID).map Placing.total).getD 0 + scoreToAdd.toNat, env.now⟩)

/-- The state, and what the users have. -/
structure Board where
  world : World
  standing : AuthID → Option Placing

/-- One call after another. -/
def Board.step (roundID : ℕ) (b : Board) (c : BoardCall) : Board :=
  ⟨b.world.board roundID c, c.book b.standing⟩

/-- The time of the call and the points that the users have after it are within their bits. -/
def InBits (b : Board) (c : BoardCall) : Prop :=
  (0 ≤ c.now ∧ c.now < 2^43) ∧ ∀ userID s, c.book b.standing userID = some s → s.total < 1024

/-- The first has more points, or as many and the earlier second. -/
def Placing.Ahead (s s' : Placing) : Prop :=
  s'.total < s.total ∨ s'.total = s.total ∧ s.last ≤ s'.last

/-- The leaderboard shows what the users have. -/
structure Ranks (roundID : ℕ) (b : Board) : Prop where
  /-- Who has something is listed, and nobody else. -/
  listed : ∀ userID, ((b.world.redis.leaderboard roundID).score? userID).isSome =
    (b.standing userID).isSome
  /-- A score is below `2^53`, so it is a float, and it decodes to the points. -/
  decodes : ∀ userID score s, (b.world.redis.leaderboard roundID).score? userID = some score →
    b.standing userID = some s →
      score < 2^53 ∧ toFloat64 score = score ∧ decompressScore score = s.total
  /-- The leaderboard is in the order of what the users have. -/
  ordered : ∀ env entries,
    (getLeaderboardByRoundID env roundID).run b.world = (.ok entries, b.world) →
      entries.Pairwise fun e e' => ∀ s s', b.standing e.1 = some s →
        b.standing e'.1 = some s' → s.Ahead s'
  /-- So is what the clients are shown, with the points. -/
  shown : ∀ env roomID entries, b.world.redis.mostRecentRound roomID = some roundID →
    ((getLeaderboard env roomID).run b.world).1 = .ok entries →
      (∀ e ∈ entries, ∃ s, b.standing e.userAuthID = some s ∧ e.score = s.total) ∧
        entries.Pairwise fun e e' => ∀ s s', b.standing e.userAuthID = some s →
          b.standing e'.userAuthID = some s' → s.Ahead s'

/-! ## What a call does -/

/-- The scores are those of what the users have, which is within its bits. -/
structure Booked (roundID : ℕ) (b : Board) : Prop where
  scores : ∀ userID, (b.world.redis.leaderboard roundID).score? userID =
    (b.standing userID).map fun s => compressScoreAndTimeStamp s.total s.last
  inBits : ∀ userID s, b.standing userID = some s →
    s.total < 1024 ∧ 0 ≤ s.last ∧ s.last < 2^43

section Step

variable {roundID : ℕ} {b : Board}

/-- A user's entry is rewritten, and nothing else. -/
theorem Booked.write (h : Booked roundID b) {w : World} {userID : AuthID} {s : Placing}
    (htotal : s.total < 1024) (hlast : 0 ≤ s.last ∧ s.last < 2^43)
    (hw : w.redis.leaderboard roundID = (b.world.redis.leaderboard roundID).add userID
      (toFloat64 (compressScoreAndTimeStamp s.total s.last))) :
    Booked roundID ⟨w, Function.update b.standing userID (some s)⟩ where
  scores u := by
    show (w.redis.leaderboard roundID).score? u =
      (Function.update b.standing userID (some s) u).map _
    rw [hw]
    obtain rfl | hne := eq_or_ne u userID
    · rw [SortedSet.score?_add_self, toFloat64_of_lt (compress_lt htotal s.last),
        Function.update_self]
      rfl
    · rw [SortedSet.score?_add_of_ne _ _ hne, h.scores, Function.update_of_ne hne]
  inBits u s' hs := by
    dsimp only at hs
    obtain rfl | hne := eq_or_ne u userID
    · rw [Function.update_self] at hs
      cases hs
      exact ⟨htotal, hlast⟩
    · rw [Function.update_of_ne hne] at hs
      exact h.inBits u s' hs

/-- The entries decode to the points. -/
theorem Booked.decodes (h : Booked roundID b) {userID : AuthID} {s : Placing}
    (hs : b.standing userID = some s) :
    decompressScore (compressScoreAndTimeStamp s.total s.last) = s.total := by
  have htotal := (h.inBits userID s hs).1
  have hround := decompress_compress htotal s.last
  rwa [toFloat64_of_lt (compress_lt htotal s.last)] at hround

/-- The points that are decoded are those that the user has. -/
theorem Booked.points (h : Booked roundID b) (userID : AuthID) (now : ℤ) :
    decompressScore (((b.world.redis.leaderboard roundID).score? userID).getD
      (toFloat64 (compressScoreAndTimeStamp 0 now))) =
        ((b.standing userID).map Placing.total).getD 0 := by
  rw [h.scores]
  cases hs : b.standing userID with
  | none => exact decompress_compress (by decide) now
  | some s => exact h.decodes hs

/-- Writing a first entry. -/
theorem step_addMember (env : Env) (i : ℕ) (userID : AuthID) :
    b.step roundID (.addMember env i userID) =
      if env.fails (.zaddLeaderboard i) then b
      else ⟨{ b.world with redis := b.world.redis.addLeaderboardMember env.now roundID userID },
        Function.update b.standing userID (some ⟨0, env.now⟩)⟩ := by
  unfold Board.step World.board addLeaderboardMember BoardCall.book
  dsimp only
  cases env.fails (.zaddLeaderboard i) <;> rfl

/-- Adding points. -/
theorem step_update (env : EgressEnv) (userID : AuthID) (scoreToAdd : UInt64) :
    b.step roundID (.update env userID scoreToAdd) =
      if env.fails .zscore || env.fails .zadd then b
      else ⟨{ b.world with redis := b.world.redis.creditRound env.now roundID userID scoreToAdd },
        Function.update b.standing userID
          (some ⟨((b.standing userID).map Placing.total).getD 0 + scoreToAdd.toNat,
            env.now⟩)⟩ := by
  unfold Board.step World.board updateLeaderboardScore BoardCall.book
  dsimp only
  cases env.fails .zscore <;> cases env.fails .zadd <;> rfl

/-- Each call within the bits keeps the books. -/
theorem Booked.step (h : Booked roundID b) {c : BoardCall} (hc : InBits b c) :
    Booked roundID (b.step roundID c) := by
  obtain ⟨htime, htotal⟩ := hc
  cases c with
  | addMember env i userID =>
    rw [step_addMember]
    split_ifs
    · exact h
    · exact h.write (s := ⟨0, env.now⟩) (Nat.succ_pos _) htime (Function.update_self ..)
  | update env userID scoreToAdd =>
    have hpoints := h.points userID env.now
    unfold BoardCall.book at htotal
    dsimp only at htotal
    rw [step_update]
    split_ifs at htotal ⊢
    · exact h
    · have hsum := htotal userID _ (Function.update_self ..)
      refine h.write (s := ⟨_, env.now⟩) hsum htime ?_
      unfold Redis.creditRound Redis.newEntry
      dsimp only at hsum ⊢
      rw [Function.update_self, hpoints, uint64_of_lt (by omega)]

/-! ## The order -/

/-- Of two compressed scores, the larger one has more points, or as many and the earlier second. -/
theorem ahead_of_le {s s' : Placing} (hs : s.total < 1024 ∧ 0 ≤ s.last ∧ s.last < 2^43)
    (hs' : s'.total < 1024 ∧ 0 ≤ s'.last ∧ s'.last < 2^43)
    (h : compressScoreAndTimeStamp s'.total s'.last ≤ compressScoreAndTimeStamp s.total s.last) :
    s.Ahead s' := by
  have hle : ((compressScoreAndTimeStamp s'.total s'.last : ℕ) : ℤ) ≤
      (compressScoreAndTimeStamp s.total s.last : ℕ) := by exact_mod_cast h
  rw [compress_of_inRange hs.1 hs.2.1 hs.2.2, compress_of_inRange hs'.1 hs'.2.1 hs'.2.2] at hle
  unfold Placing.Ahead
  omega

/-- The score in an entry is that of what the user has. -/
theorem Booked.entry (h : Booked roundID b) {e : AuthID × ℕ}
    (he : e ∈ (b.world.redis.leaderboard roundID).range) :
    ∃ s, b.standing e.1 = some s ∧ e.2 = compressScoreAndTimeStamp s.total s.last := by
  have hentry := SortedSet.score?_eq_some.mpr (SortedSet.mem_range.mp he)
  rw [h.scores, Option.map_eq_some_iff] at hentry
  obtain ⟨s, hs, hscore⟩ := hentry
  exact ⟨s, hs, hscore.symm⟩

/-- The range in reverse is in the order of what the users have. -/
theorem Booked.ordered (h : Booked roundID b) :
    (b.world.redis.leaderboard roundID).range.reverse.Pairwise fun e e' => ∀ s s',
      b.standing e.1 = some s → b.standing e'.1 = some s' → s.Ahead s' := by
  rw [List.pairwise_reverse]
  refine (b.world.redis.leaderboard roundID).range_pairwise.imp_of_mem ?_
  intro e e' he he' hbefore s' s hs' hs
  obtain ⟨t, ht, hscore⟩ := h.entry he
  obtain ⟨t', ht', hscore'⟩ := h.entry he'
  obtain rfl : t = s := Option.some.inj (ht.symm.trans hs)
  obtain rfl : t' = s' := Option.some.inj (ht'.symm.trans hs')
  refine ahead_of_le (h.inBits _ _ hs') (h.inBits _ _ hs) ?_
  rw [← hscore, ← hscore']
  rcases hbefore with hlt | ⟨heq, -⟩
  · exact hlt.le
  · exact heq.le

/-- What the clients are shown is made of the entries, in their order. -/
theorem getLeaderboard_entries {env : Env} {roomID : RoomID} {entries : List LeaderboardEntry}
    {w : World} (hkey : w.redis.mostRecentRound roomID = some roundID)
    (hrun : ((getLeaderboard env roomID).run w).1 = .ok entries) :
    ∃ users participants, entries =
      (w.redis.leaderboard roundID).range.reverse.zipIdx.map (enrichEntry users participants) := by
  unfold getLeaderboard getLeaderboardByRoomID getLeaderboardByRoundID at hrun
  cases hget : env.fails .getMostRecentRound with
  | true =>
    rw [hget] at hrun
    cases hrun
  | false =>
    cases hrange : env.fails .zrangeLeaderboard with
    | true =>
      rw [hget, hrange, Call.io_false, Call.run_bind_assoc, Call.run_read_bind, hkey] at hrun
      cases hrun
    | false =>
      rw [hget, hrange, Call.io_false, Call.run_bind_assoc, Call.run_read_bind, hkey] at hrun
      exact ⟨_, _, (Outcome.ok.inj hrun).symm⟩

/-- Books that are kept are what the leaderboard shows. -/
theorem Booked.ranks (h : Booked roundID b) : Ranks roundID b where
  listed userID := by rw [h.scores, Option.isSome_map]
  decodes userID score s hscore hs := by
    rw [h.scores, hs] at hscore
    cases hscore
    have hlt := compress_lt (h.inBits userID s hs).1 s.last
    exact ⟨hlt, toFloat64_of_lt hlt, h.decodes hs⟩
  ordered env entries hrun := by
    unfold getLeaderboardByRoundID at hrun
    obtain ⟨-, rfl, -⟩ := Call.io_read_eq_ok hrun
    exact h.ordered
  shown env roomID entries hkey hrun := by
    -- The entries are those of the sorted set, in its order.
    obtain ⟨users, participants, rfl⟩ := getLeaderboard_entries hkey hrun
    constructor
    · intro e he
      obtain ⟨entry, hentry, rfl⟩ := List.mem_map.mp he
      have hmem := List.mem_map_of_mem (f := Prod.fst) hentry
      rw [List.zipIdx_map_fst, List.mem_reverse] at hmem
      obtain ⟨s, hs, hscore⟩ := h.entry hmem
      refine ⟨s, hs, ?_⟩
      show decompressScore entry.1.2 = s.total
      rw [hscore, h.decodes hs]
    · have hordered := h.ordered
      rw [← List.zipIdx_map_fst 0 (b.world.redis.leaderboard roundID).range.reverse,
        List.pairwise_map] at hordered
      rw [List.pairwise_map]
      exact hordered

end Step

/-- From an empty leaderboard on, whatever calls are made, it shows what the users have. -/
theorem leaderboard_ranks {roundID : ℕ} {w : World} (hempty : w.redis.leaderboard roundID = .empty)
    {calls : List BoardCall} (h : Along (Board.step roundID) InBits ⟨w, fun _ => none⟩ calls) :
    Throughout (Board.step roundID) (Ranks roundID) ⟨w, fun _ => none⟩ calls := by
  have hbooked : Booked roundID ⟨w, fun _ => none⟩ := by
    refine ⟨fun userID => ?_, fun userID s hs => by cases hs⟩
    show (w.redis.leaderboard roundID).score? userID = none
    rw [hempty]
    rfl
  exact (invariant_along (fun _ _ hb hc => hb.step hc) hbooked h).mono fun _ hb => hb.ranks

/-! ## The sum of all points -/

/-- The points that a call adds for a user, unless it fails. -/
def BoardCall.pointsFor (userID : AuthID) : BoardCall → ℕ
  | .addMember .. => 0
  | .update env u scoreToAdd =>
    if u = userID ∧ env.fails .zscore = false ∧ env.fails .zadd = false then scoreToAdd.toNat else 0

/-- The points that the calls add for a user. -/
def pointsAdded (userID : AuthID) (calls : List BoardCall) : ℕ :=
  (calls.map (BoardCall.pointsFor userID)).sum

/-- The points of a user. -/
def pointsOf (standing : AuthID → Option Placing) (userID : AuthID) : ℕ :=
  ((standing userID).map Placing.total).getD 0

/-- A user has at most the points that were added. -/
theorem pointsOf_book_le (standing : AuthID → Option Placing) (c : BoardCall) (userID : AuthID) :
    pointsOf (c.book standing) userID ≤ pointsOf standing userID + c.pointsFor userID := by
  cases c with
  | addMember env i u =>
    unfold BoardCall.book
    dsimp only
    split_ifs
    · exact Nat.le_add_right _ _
    · by_cases hu : userID = u
      · rw [hu, pointsOf, Function.update_self]
        exact Nat.zero_le _
      · rw [pointsOf, Function.update_of_ne hu]
        exact Nat.le_add_right _ _
  | update env u scoreToAdd =>
    unfold BoardCall.book
    dsimp only
    split_ifs with hfails
    · exact Nat.le_add_right _ _
    · rw [Bool.or_eq_true, not_or, Bool.not_eq_true, Bool.not_eq_true] at hfails
      by_cases hu : userID = u
      · rw [hu, pointsOf, Function.update_self, BoardCall.pointsFor, if_pos ⟨rfl, hfails⟩]
        exact le_refl _
      · rw [pointsOf, Function.update_of_ne hu]
        exact Nat.le_add_right _ _

/-- Calls that add less than 1024 points for each user stay within the bits. -/
theorem inBits_of_pointsAdded {roundID : ℕ} {calls : List BoardCall} {b : Board}
    (htime : ∀ c ∈ calls, 0 ≤ c.now ∧ c.now < 2^43)
    (hpoints : ∀ userID, pointsOf b.standing userID + pointsAdded userID calls < 1024) :
    Along (Board.step roundID) InBits b calls := by
  induction calls generalizing b with
  | nil => trivial
  | cons c calls ih =>
    have hle : ∀ userID, pointsOf (c.book b.standing) userID + pointsAdded userID calls < 1024 := by
      intro userID
      have hadd : pointsAdded userID (c :: calls) = c.pointsFor userID + pointsAdded userID calls :=
        List.sum_cons
      have := pointsOf_book_le b.standing c userID
      have := hpoints userID
      omega
    refine ⟨⟨htime c List.mem_cons_self, fun userID s hs => ?_⟩,
      ih (fun c hc => htime c (List.mem_cons_of_mem _ hc)) hle⟩
    have hlt := hle userID
    rw [pointsOf, hs] at hlt
    exact lt_of_le_of_lt (Nat.le_add_right _ _) hlt

/-- Two users are entered and get points, and the first one is entered again. -/
def enterAgain : List BoardCall :=
  [.addMember (Env.faultless 10) 0 host, .addMember (Env.faultless 10) 1 guest,
    .update ⟨fun _ => false, 20, 0, 0⟩ host 3, .update ⟨fun _ => false, 25, 0, 0⟩ guest 5,
    .addMember (Env.faultless 30) 0 host]

/-- A first entry is one without points, also for a user who had some. -/
theorem first_entry_resets :
    pointsAdded host enterAgain = 3 ∧
      (((run (World.board 1) World.empty enterAgain).redis.leaderboard 1).score? host).map
        decompressScore = some 0 := by
  decide +kernel

/-- The leaderboard after each of these calls. -/
theorem leaderboard_ranks_enterAgain :
    Throughout (Board.step 1) (Ranks 1) ⟨World.empty, fun _ => none⟩ enterAgain := by
  refine leaderboard_ranks rfl (inBits_of_pointsAdded (by decide +kernel) fun userID => ?_)
  have hpoints : pointsAdded userID enterAgain ≤ 3 + 5 := by
    simp only [pointsAdded, enterAgain, List.map_cons, List.map_nil, List.sum_cons, List.sum_nil,
      BoardCall.pointsFor, Nat.zero_add, Nat.add_zero]
    refine Nat.add_le_add ?_ ?_
    · split_ifs <;> decide
    · split_ifs <;> decide
  have hnone : pointsOf (fun _ : AuthID => (none : Option Placing)) userID = 0 := rfl
  rw [hnone]
  omega

end Bsg.Central
