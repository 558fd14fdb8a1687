import Bsg.Foundations.Run
import Mathlib.Logic.Function.Iterate
import Mathlib.Tactic.Ring
import Mathlib.Tactic.Linarith

/-!
# Token buckets

A bucket that holds at most `capacity` tokens gains `rate` tokens each second. A call is allowed
when there is a token, which it takes. The eager bucket adds tokens second by second (`tick`). The
lazy one saves its tokens only when a call is allowed, adds up what was gained since when the next
one comes, and forgets what it saved after `ttl` seconds.

A lazy bucket answers as the eager one when it fills up within the time after which it forgets
(`answers_lazyTake`): until then both have the same tokens, and afterwards both are full. An eager
bucket allows at most `capacity + rate * (b - a)` calls from second `a` to second `b`
(`allowed_le`).
-/

namespace Bsg.Foundations

/-- How many tokens a bucket holds at most, and how many it gains each second. -/
structure TokenBucket where
  capacity : ℤ
  rate : ℤ

namespace TokenBucket

/-- The tokens that a bucket had at some second. -/
structure Tokens where
  tokens : ℤ
  time : ℤ

variable (b : TokenBucket)

/-- What a second adds. -/
def tick (tokens : ℤ) : ℤ := min b.capacity (tokens + b.rate)

/-- The tokens of an eager bucket at a second, gained one second after the other. -/
def eagerAt (s : Tokens) (now : ℤ) : ℤ := b.tick^[(now - s.time).toNat] s.tokens

/-- A call at a second to an eager bucket: whether it is allowed, and the bucket after it. -/
def eagerTake (s : Tokens) (now : ℤ) : Bool × Tokens :=
  if 1 ≤ b.eagerAt s now then (true, ⟨b.eagerAt s now - 1, now⟩)
  else (false, ⟨b.eagerAt s now, now⟩)

/-- A bucket that is full at a second. -/
def full (start : ℤ) : Tokens := ⟨b.capacity, start⟩

/-- The tokens of a lazy bucket at a second. -/
def lazyAt (ttl : ℤ) : Option Tokens → ℤ → ℤ
  | some s, now =>
    if now < s.time + ttl then min b.capacity (s.tokens + max 0 (now - s.time) * b.rate)
    else b.capacity
  | none, _ => b.capacity

/-- A call at a second to a lazy bucket, which saves its tokens when it is allowed. -/
def lazyTake (ttl : ℤ) (s : Option Tokens) (now : ℤ) : Bool × Option Tokens :=
  if 1 ≤ b.lazyAt ttl s now then (true, some ⟨b.lazyAt ttl s now - 1, now⟩) else (false, s)

variable {b}

/-! ## Eager buckets -/

/-- Some seconds add what each of them adds, up to the capacity. -/
theorem tick_iterate (hrate : 0 ≤ b.rate) : ∀ (n : ℕ) {tokens : ℤ}, tokens ≤ b.capacity →
    b.tick^[n] tokens = min b.capacity (tokens + n * b.rate)
  | 0, tokens, h => by simpa using h
  | n + 1, tokens, h => by
    have hnext : b.tick tokens ≤ b.capacity := min_le_left _ _
    have hcast : ((n + 1 : ℕ) : ℤ) * b.rate = n * b.rate + b.rate := by push_cast; ring
    have hgain : 0 ≤ n * b.rate := mul_nonneg (Int.natCast_nonneg n) hrate
    rw [Function.iterate_succ_apply, tick_iterate hrate n hnext, hcast]
    unfold tick
    omega

/-- Some seconds do not add more than each of them does. -/
theorem tick_iterate_le : ∀ (n : ℕ) (tokens : ℤ), b.tick^[n] tokens ≤ tokens + n * b.rate
  | 0, tokens => by simp
  | n + 1, tokens => by
    have ih := tick_iterate_le n (b.tick tokens)
    have hcast : ((n + 1 : ℕ) : ℤ) * b.rate = n * b.rate + b.rate := by push_cast; ring
    rw [Function.iterate_succ_apply, hcast]
    unfold tick at ih ⊢
    omega

/-- The seconds do not fill a bucket beyond its capacity. -/
theorem tick_iterate_le_capacity : ∀ (n : ℕ) {tokens : ℤ}, tokens ≤ b.capacity →
    b.tick^[n] tokens ≤ b.capacity
  | 0, _, h => h
  | n + 1, tokens, _ => by
    rw [Function.iterate_succ_apply]
    exact tick_iterate_le_capacity n (min_le_left _ _)

/-- No second has passed yet. -/
@[simp] theorem eagerAt_time (s : Tokens) : b.eagerAt s s.time = s.tokens := by
  unfold eagerAt
  rw [sub_self]
  rfl

/-- A bucket gains at most its rate for each second. -/
theorem eagerAt_le {s : Tokens} {now : ℤ} (h : s.time ≤ now) :
    b.eagerAt s now ≤ s.tokens + (now - s.time) * b.rate := by
  have hcast : ((now - s.time).toNat : ℤ) = now - s.time := Int.toNat_of_nonneg (by omega)
  have hle := tick_iterate_le (b := b) (now - s.time).toNat s.tokens
  rwa [hcast] at hle

/-- At no second are there more tokens than fit in. -/
theorem eagerAt_le_capacity {s : Tokens} (h : s.tokens ≤ b.capacity) (now : ℤ) :
    b.eagerAt s now ≤ b.capacity := tick_iterate_le_capacity _ h

/-- The tokens of a later second are gained from those of an earlier one. -/
theorem eagerAt_trans {s : Tokens} {now later : ℤ} (h : s.time ≤ now) (h' : now ≤ later) :
    b.eagerAt ⟨b.eagerAt s now, now⟩ later = b.eagerAt s later := by
  have hsum : (later - s.time).toNat = (later - now).toNat + (now - s.time).toNat := by omega
  unfold eagerAt
  rw [hsum, Function.iterate_add_apply]

/-- A call takes a token when there is one. -/
theorem eagerTake_token {s : Tokens} {now : ℤ} (h : 1 ≤ b.eagerAt s now) :
    b.eagerTake s now = (true, ⟨b.eagerAt s now - 1, now⟩) := if_pos h

/-- A call is refused when there is none. -/
theorem eagerTake_empty {s : Tokens} {now : ℤ} (h : ¬ 1 ≤ b.eagerAt s now) :
    b.eagerTake s now = (false, ⟨b.eagerAt s now, now⟩) := if_neg h

/-- It makes no difference whether the tokens of a second are added before the call. -/
theorem eagerTake_at (s : Tokens) (now : ℤ) :
    b.eagerTake ⟨b.eagerAt s now, now⟩ now = b.eagerTake s now := by
  have hat : b.eagerAt ⟨b.eagerAt s now, now⟩ now = b.eagerAt s now := eagerAt_time _
  unfold eagerTake
  rw [hat]

/-- Each call, refused or not, brings the bucket up to its second. -/
theorem eagerTake_time (s : Tokens) (now : ℤ) : (b.eagerTake s now).2.time = now := by
  unfold eagerTake
  split_ifs
  · rfl
  · rfl

/-- A call leaves no more tokens than fit in. -/
theorem eagerTake_le_capacity {s : Tokens} (h : s.tokens ≤ b.capacity) (now : ℤ) :
    (b.eagerTake s now).2.tokens ≤ b.capacity := by
  have hle := eagerAt_le_capacity h now
  unfold eagerTake
  split_ifs
  · exact (sub_le_self _ zero_le_one).trans hle
  · exact hle

/-- No call takes a token that is not there. -/
theorem eagerTake_nonneg {s : Tokens} {now : ℤ} (h : 0 ≤ b.eagerAt s now) :
    0 ≤ (b.eagerTake s now).2.tokens := by
  by_cases htoken : 1 ≤ b.eagerAt s now
  · rw [eagerTake_token htoken]
    exact sub_nonneg.mpr htoken
  · rw [eagerTake_empty htoken]
    exact h

/-- Calls at seconds that do not decrease find each bucket at an earlier second. -/
theorem along_time : ∀ {s : Tokens} {times : List ℤ}, times.Pairwise (· ≤ ·) →
    (∀ now ∈ times, s.time ≤ now) →
      Along (fun s now => (b.eagerTake s now).2) (fun s now => s.time ≤ now) s times
  | _, [], _, _ => trivial
  | s, now :: times, hsorted, hstart => by
    obtain ⟨hfirst, hrest⟩ := List.pairwise_cons.mp hsorted
    refine ⟨hstart now List.mem_cons_self, along_time hrest fun later hlater => ?_⟩
    rw [eagerTake_time]
    exact hfirst later hlater

/-! ## Lazy buckets -/

/-- The two buckets have the same tokens from some second on. -/
def Matches (b : TokenBucket) (ttl : ℤ) (saved : Option Tokens) (s : Tokens) : Prop :=
  ∀ now, s.time ≤ now → b.lazyAt ttl saved now = b.eagerAt s now

/-- A lazy bucket does not exceed the capacity either. -/
theorem lazyAt_le_capacity (ttl : ℤ) (saved : Option Tokens) (now : ℤ) :
    b.lazyAt ttl saved now ≤ b.capacity := by
  cases saved with
  | none => exact le_rfl
  | some s =>
    change (if now < s.time + ttl then _ else _) ≤ b.capacity
    split_ifs
    · exact min_le_left _ _
    · exact le_rfl

/-- Nothing is saved of a full bucket. -/
theorem matches_full (hrate : 0 ≤ b.rate) (ttl start : ℤ) : b.Matches ttl none (b.full start) := by
  intro now _
  have hgain : 0 ≤ ((now - start).toNat : ℤ) * b.rate := mul_nonneg (Int.natCast_nonneg _) hrate
  have hfull : b.eagerAt (b.full start) now = min b.capacity (b.capacity + _) :=
    tick_iterate hrate _ le_rfl
  rw [hfull]
  exact (min_eq_left (le_add_of_nonneg_right hgain)).symm

/-- A call gets the same answer from a lazy bucket as from an eager one, and the two match after it,
when a bucket is full by the time at which what was saved is forgotten. -/
theorem lazyTake_simulates {ttl : ℤ} (hrate : 0 ≤ b.rate) (hfull : b.capacity ≤ ttl * b.rate)
    (saved : Option Tokens) (s : Tokens) (now : ℤ) (h : b.Matches ttl saved s) (hnow : s.time ≤ now) :
    (b.lazyTake ttl saved now).1 = (b.eagerTake s now).1 ∧
      b.Matches ttl (b.lazyTake ttl saved now).2 (b.eagerTake s now).2 := by
  have hsame := h now hnow
  unfold lazyTake eagerTake
  rw [hsame]
  by_cases htoken : 1 ≤ b.eagerAt s now
  · rw [if_pos htoken, if_pos htoken]
    refine ⟨rfl, fun later hlater => ?_⟩
    have hcap : b.eagerAt s now ≤ b.capacity := hsame ▸ lazyAt_le_capacity ttl saved now
    dsimp only at hlater
    have hcast : ((later - now).toNat : ℤ) = later - now := Int.toNat_of_nonneg (by omega)
    -- From what is left the eager bucket gains second by second what the lazy one computes at once.
    have hgained : b.eagerAt ⟨b.eagerAt s now - 1, now⟩ later =
        min b.capacity (b.eagerAt s now - 1 + (later - now) * b.rate) := by
      rw [← hcast]
      exact tick_iterate hrate _ (by dsimp only; omega)
    rw [hgained]
    unfold lazyAt
    dsimp only
    split_ifs with hfresh
    · rw [max_eq_right (by omega)]
    · -- What was saved is forgotten, and the eager bucket is full by now.
      have hgain : ttl * b.rate ≤ (later - now) * b.rate :=
        mul_le_mul_of_nonneg_right (by omega) hrate
      omega
  · rw [if_neg htoken, if_neg htoken]
    refine ⟨rfl, fun later hlater => ?_⟩
    rw [eagerAt_trans hnow hlater]
    exact h later (hnow.trans hlater)

/-- A lazy bucket answers as an eager one. -/
theorem answers_lazyTake {ttl : ℤ} (hrate : 0 ≤ b.rate) (hfull : b.capacity ≤ ttl * b.rate)
    {start : ℤ} {times : List ℤ} (hsorted : times.Pairwise (· ≤ ·))
    (hstart : ∀ now ∈ times, start ≤ now) :
    answers (b.lazyTake ttl) none times = answers b.eagerTake (b.full start) times :=
  answers_eq (lazyTake_simulates hrate hfull) (matches_full hrate ttl start)
    (along_time hsorted hstart)

/-! ## Bursts -/

section Burst

variable {ttl now : ℤ}

/-- A call that is allowed saves the tokens that remain. -/
theorem lazyTake_token {saved : Option Tokens} (h : 1 ≤ b.lazyAt ttl saved now) :
    b.lazyTake ttl saved now = (true, some ⟨b.lazyAt ttl saved now - 1, now⟩) := if_pos h

/-- A call that is refused saves nothing. -/
theorem lazyTake_empty {saved : Option Tokens} (h : ¬ 1 ≤ b.lazyAt ttl saved now) :
    b.lazyTake ttl saved now = (false, saved) := if_neg h

/-- What was just saved is what there is. -/
theorem lazyAt_saved (httl : 0 < ttl) {tokens : ℤ} (h : tokens ≤ b.capacity) :
    b.lazyAt ttl (some ⟨tokens, now⟩) now = tokens := by
  change (if now < now + ttl then min b.capacity (tokens + max 0 (now - now) * b.rate)
    else b.capacity) = tokens
  rw [if_pos (by omega), sub_self, max_self, zero_mul, add_zero, min_eq_right h]

/-- What was saved is forgotten after a while. -/
theorem lazyAt_forgotten (tokens : ℤ) : b.lazyAt ttl (some ⟨tokens, now⟩) (now + ttl) = b.capacity :=
  if_neg (lt_irrefl _)

/-- A lazy bucket allows as many calls in a second as it has tokens. -/
theorem lazy_burst (httl : 0 < ttl) (now : ℤ) : ∀ (n : ℕ) (saved : Option Tokens),
    (n : ℤ) ≤ b.lazyAt ttl saved now →
      answers (b.lazyTake ttl) saved (List.replicate n now) = List.replicate n true ∧
        b.lazyAt ttl (after (b.lazyTake ttl) saved (List.replicate n now)) now =
          b.lazyAt ttl saved now - n ∧
        (0 < n → ∃ tokens,
          after (b.lazyTake ttl) saved (List.replicate n now) = some ⟨tokens, now⟩)
  | 0, saved, _ => ⟨rfl, (sub_zero _).symm, fun h => absurd h (lt_irrefl 0)⟩
  | n + 1, saved, h => by
    push_cast at h
    have hle : b.lazyAt ttl saved now - 1 ≤ b.capacity :=
      (sub_le_self _ zero_le_one).trans (lazyAt_le_capacity ttl saved now)
    have hsaved : b.lazyAt ttl (some ⟨b.lazyAt ttl saved now - 1, now⟩) now =
        b.lazyAt ttl saved now - 1 := lazyAt_saved httl hle
    -- The first call takes a token, and the others find the rest in what it saved.
    have htake : b.lazyTake ttl saved now = (true, some ⟨b.lazyAt ttl saved now - 1, now⟩) :=
      lazyTake_token (by omega)
    obtain ⟨hall, hrest, hlast⟩ := lazy_burst httl now n
      (some ⟨b.lazyAt ttl saved now - 1, now⟩) (by rw [hsaved]; omega)
    have hafter : after (b.lazyTake ttl) saved (List.replicate (n + 1) now) =
        after (b.lazyTake ttl) (some ⟨b.lazyAt ttl saved now - 1, now⟩) (List.replicate n now) := by
      rw [List.replicate_succ, after_cons, htake]
    rw [hafter]
    refine ⟨?_, ?_, fun _ => ?_⟩
    · rw [List.replicate_succ, answers, htake, hall, List.replicate_succ]
    · rw [hrest, hsaved]
      push_cast
      ring
    · cases n with
      | zero => exact ⟨_, rfl⟩
      | succ n => exact hlast n.succ_pos

/-- An eager bucket allows as many calls in a second as it has tokens. -/
theorem eager_burst (now : ℤ) : ∀ (n : ℕ) (s : Tokens), (n : ℤ) ≤ b.eagerAt s now →
    answers b.eagerTake s (List.replicate n now) = List.replicate n true ∧
      b.eagerAt (after b.eagerTake s (List.replicate n now)) now = b.eagerAt s now - n
  | 0, s, _ => ⟨rfl, (sub_zero _).symm⟩
  | n + 1, s, h => by
    push_cast at h
    have hnow : b.eagerAt ⟨b.eagerAt s now - 1, now⟩ now = b.eagerAt s now - 1 := eagerAt_time _
    obtain ⟨hall, hrest⟩ := eager_burst now n ⟨b.eagerAt s now - 1, now⟩ (by rw [hnow]; omega)
    rw [List.replicate_succ, answers, after_cons, eagerTake_token (by omega), hall, hrest, hnow]
    refine ⟨rfl, ?_⟩
    push_cast
    ring

/-- It does not allow more. -/
theorem le_of_eager_burst : ∀ {n : ℕ} {s : Tokens},
    answers b.eagerTake s (List.replicate n now) = List.replicate n true → 0 < n →
      (n : ℤ) ≤ b.eagerAt s now
  | n + 1, s, h, _ => by
    rw [List.replicate_succ, List.replicate_succ, answers] at h
    obtain ⟨hfirst, hrest⟩ := List.cons.inj h
    by_cases htoken : 1 ≤ b.eagerAt s now
    · rw [eagerTake_token htoken] at hrest
      rcases Nat.eq_zero_or_pos n with rfl | hpos
      · exact htoken
      · have hnow : b.eagerAt ⟨b.eagerAt s now - 1, now⟩ now = b.eagerAt s now - 1 := eagerAt_time _
        have ih := le_of_eager_burst hrest hpos
        rw [hnow] at ih
        push_cast
        omega
    · rw [eagerTake_empty htoken] at hfirst
      cases hfirst

/-- Calls in one second leave the bucket at it. -/
theorem after_time : ∀ {s : Tokens} {times : List ℤ}, s.time = now → (∀ t ∈ times, t = now) →
    (after b.eagerTake s times).time = now
  | _, [], h, _ => h
  | s, t :: times, _, h => by
    rw [after_cons]
    refine after_time ?_ fun t' ht' => h t' (List.mem_cons_of_mem _ ht')
    rw [eagerTake_time]
    exact h t List.mem_cons_self

end Burst

/-- A bucket that never has a token allows nothing. -/
theorem eagerTake_of_capacity (hcap : b.capacity < 1) {s : Tokens} (h : s.tokens ≤ b.capacity)
    (now : ℤ) : b.eagerTake s now = (false, ⟨b.eagerAt s now, now⟩) :=
  eagerTake_empty fun htoken => absurd (htoken.trans (eagerAt_le_capacity h now)) (not_le.mpr hcap)

/-- A lazy bucket that holds less than a token refuses every call. -/
theorem lazyTake_of_capacity (hcap : b.capacity < 1) (ttl : ℤ) (saved : Option Tokens) (now : ℤ) :
    b.lazyTake ttl saved now = (false, saved) :=
  lazyTake_empty fun htoken =>
    absurd (htoken.trans (lazyAt_le_capacity ttl saved now)) (not_le.mpr hcap)

/-- A lazy bucket forgets too early when it does not fill up in the meantime: as many calls as it
holds tokens, twice. -/
theorem lazyTake_forgets {ttl : ℤ} (httl : 0 < ttl) (hcap : 1 ≤ b.capacity)
    (hslow : ttl * b.rate < b.capacity) :
    answers (b.lazyTake ttl) none
        (List.replicate b.capacity.toNat 0 ++ List.replicate b.capacity.toNat ttl) ≠
      answers b.eagerTake (b.full 0)
        (List.replicate b.capacity.toNat 0 ++ List.replicate b.capacity.toNat ttl) := by
  intro hsame
  have hcast : (b.capacity.toNat : ℤ) = b.capacity := Int.toNat_of_nonneg (by omega)
  have hpos : 0 < b.capacity.toNat := by omega
  have hfull : b.eagerAt (b.full 0) 0 = b.capacity := eagerAt_time (b.full 0)
  have hempty : b.lazyAt ttl none 0 = b.capacity := rfl
  obtain ⟨hfirst, -, hlast⟩ := lazy_burst (b := b) httl 0 b.capacity.toNat none
    (by rw [hcast]; exact le_rfl)
  obtain ⟨hfirst', hspent⟩ := eager_burst (b := b) 0 b.capacity.toNat (b.full 0)
    (by rw [hcast, hfull])
  obtain ⟨tokens, hsaved⟩ := hlast hpos
  have hforgotten : b.lazyAt ttl (some ⟨tokens, 0⟩) ttl = b.capacity := by
    have hat : b.lazyAt ttl (some ⟨tokens, 0⟩) (0 + ttl) = b.capacity := lazyAt_forgotten tokens
    rwa [zero_add] at hat
  -- The lazy bucket is full again, and the eager one is not.
  obtain ⟨hsecond, -, -⟩ := lazy_burst (b := b) httl ttl b.capacity.toNat
    (some ⟨tokens, 0⟩) (by rw [hcast, hforgotten])
  rw [answers_append, answers_append, hfirst, hfirst', hsaved, hsecond] at hsame
  have hall := le_of_eager_burst (List.append_cancel_left hsame).symm hpos
  have htime : (after b.eagerTake (b.full 0) (List.replicate b.capacity.toNat 0)).time = 0 :=
    after_time rfl fun t ht => List.eq_of_mem_replicate ht
  have hgained := eagerAt_le (b := b) (htime.le.trans httl.le)
  have htokens := eagerAt_time (b := b)
    (after b.eagerTake (b.full 0) (List.replicate b.capacity.toNat 0))
  rw [htime] at htokens
  rw [htime, sub_zero, ← htokens, hspent, hfull] at hgained
  omega

/-! ## How many calls are allowed -/

/-- How many of the answered calls from the first second to the last are allowed. -/
def allowed (first last : ℤ) (answered : List (ℤ × Bool)) : ℕ :=
  answered.countP fun call => call.2 && decide (first ≤ call.1 ∧ call.1 ≤ last)

section Allowed

variable {first last : ℤ}

/-- The first call counts when it is allowed within the span. -/
theorem allowed_cons (now : ℤ) (ok : Bool) (answered : List (ℤ × Bool)) :
    allowed first last ((now, ok) :: answered) =
      allowed first last answered + if ok ∧ first ≤ now ∧ now ≤ last then 1 else 0 := by
  unfold allowed
  rw [List.countP_cons]
  simp

/-- Calls after the last second do not count. -/
theorem allowed_late {answered : List (ℤ × Bool)} (h : ∀ call ∈ answered, last < call.1) :
    allowed first last answered = 0 := by
  refine List.countP_eq_zero.mpr fun call hcall hcounts => ?_
  have hlate := h call hcall
  simp only [Bool.and_eq_true, decide_eq_true_eq] at hcounts
  omega

/-- Once a call is after the span, all later ones are. -/
theorem late_of_sorted {now : ℤ} {times : List ℤ} (hsorted : (now :: times).Pairwise (· ≤ ·))
    (hlate : last < now) : ∀ later ∈ now :: times, last < later := by
  intro later hlater
  rcases List.mem_cons.mp hlater with rfl | hlater
  · exact hlate
  · exact hlate.trans_le (List.rel_of_pairwise_cons hsorted hlater)

/-- So are they with their answers. -/
theorem late_zip {times : List ℤ} (h : ∀ now ∈ times, last < now) (oks : List Bool) :
    ∀ call ∈ times.zip oks, last < call.1 :=
  fun _ hcall => h _ (List.of_mem_zip hcall).1

/-- Gaining tokens does not make them negative. -/
theorem eagerAt_nonneg (hcap : 0 ≤ b.capacity) (hrate : 0 ≤ b.rate) {s : Tokens} (h : 0 ≤ s.tokens)
    (hle : s.tokens ≤ b.capacity) (now : ℤ) : 0 ≤ b.eagerAt s now := by
  have hgain : 0 ≤ ((now - s.time).toNat : ℤ) * b.rate := mul_nonneg (Int.natCast_nonneg _) hrate
  unfold eagerAt
  rw [tick_iterate hrate _ hle]
  omega

/-- What is allowed up to a second are the tokens that there were and those gained until then. -/
theorem allowed_since (first : ℤ) (hcap : 0 ≤ b.capacity) (hrate : 0 ≤ b.rate) :
    ∀ (s : Tokens) (times : List ℤ), 0 ≤ s.tokens → s.tokens ≤ b.capacity → s.time ≤ last →
      times.Pairwise (· ≤ ·) → (∀ now ∈ times, s.time ≤ now) →
        allowed first last (times.zip (answers b.eagerTake s times)) ≤
          s.tokens + (last - s.time) * b.rate
  | s, [], hpos, _, hlast, _, _ => by
    have hgain : 0 ≤ (last - s.time) * b.rate := mul_nonneg (by omega) hrate
    have hnone : allowed first last (([] : List ℤ).zip (answers b.eagerTake s [])) = 0 := rfl
    rw [hnone]
    omega
  | s, now :: times, hpos, hle, hlast, hsorted, hstart => by
    obtain ⟨hfirst, hrest⟩ := List.pairwise_cons.mp hsorted
    have hnow := hstart now List.mem_cons_self
    by_cases hlate : last < now
    · have hgain : 0 ≤ (last - s.time) * b.rate := mul_nonneg (by omega) hrate
      rw [allowed_late (late_zip (late_of_sorted hsorted hlate) _)]
      omega
    · have hnew := eagerAt_nonneg hcap hrate hpos hle now
      have hnew_le := eagerAt_le_capacity hle now
      have hgained := eagerAt_le (b := b) hnow
      -- What was gained up to this call pays for it, and the induction is on the calls after it.
      have hsum : (last - s.time) * b.rate = (last - now) * b.rate + (now - s.time) * b.rate := by ring
      rw [answers, List.zip_cons_cons, allowed_cons]
      by_cases htoken : 1 ≤ b.eagerAt s now
      · rw [eagerTake_token htoken]
        have ih := allowed_since first hcap hrate ⟨b.eagerAt s now - 1, now⟩ times
          (sub_nonneg.mpr htoken) ((sub_le_self _ zero_le_one).trans hnew_le) (not_lt.mp hlate) hrest
          hfirst
        dsimp only at ih ⊢
        split_ifs <;> push_cast <;> omega
      · rw [eagerTake_empty htoken]
        have ih := allowed_since first hcap hrate ⟨b.eagerAt s now, now⟩ times hnew hnew_le
          (not_lt.mp hlate) hrest hfirst
        dsimp only at ih ⊢
        simp only [Bool.false_eq_true, false_and, if_false, Nat.add_zero]
        omega

/-- Between two seconds, a bucket allows no more calls than it holds tokens and gains between them.
-/
theorem allowed_le (hcap : 0 ≤ b.capacity) (hrate : 0 ≤ b.rate) (hspan : first ≤ last) :
    ∀ {s : Tokens} {times : List ℤ}, 0 ≤ s.tokens → s.tokens ≤ b.capacity →
      times.Pairwise (· ≤ ·) → (∀ now ∈ times, s.time ≤ now) →
        allowed first last (times.zip (answers b.eagerTake s times)) ≤
          b.capacity + b.rate * (last - first)
  | s, [], _, _, _, _ => by
    have hgain : 0 ≤ b.rate * (last - first) := mul_nonneg hrate (by omega)
    have hnone : allowed first last (([] : List ℤ).zip (answers b.eagerTake s [])) = 0 := rfl
    rw [hnone]
    omega
  | s, now :: times, hpos, hle, hsorted, hstart => by
    obtain ⟨hfirst, hrest⟩ := List.pairwise_cons.mp hsorted
    have hnow := hstart now List.mem_cons_self
    have hnew := eagerAt_nonneg hcap hrate hpos hle now
    have hnew_le := eagerAt_le_capacity hle now
    have hgain : 0 ≤ b.rate * (last - first) := mul_nonneg hrate (by omega)
    rcases lt_or_ge now first with hearly | hcounts
    · -- A call before the first second takes a token, or none, and does not count.
      have hskip : allowed first last ((now :: times).zip (answers b.eagerTake s (now :: times))) =
          allowed first last (times.zip (answers b.eagerTake (b.eagerTake s now).2 times)) := by
        rw [answers, List.zip_cons_cons, allowed_cons, if_neg (by omega), Nat.add_zero]
      rw [hskip]
      refine allowed_le hcap hrate hspan (eagerTake_nonneg hnew) (eagerTake_le_capacity hle now) hrest ?_
      rw [eagerTake_time]
      exact hfirst
    rcases lt_or_ge last now with hlate | hlast
    · rw [allowed_late (late_zip (late_of_sorted hsorted hlate) _)]
      omega
    · have hanswers : answers b.eagerTake s (now :: times) =
          answers b.eagerTake ⟨b.eagerAt s now, now⟩ (now :: times) := by
        rw [answers, answers, eagerTake_at]
      have hsince := allowed_since first hcap hrate ⟨b.eagerAt s now, now⟩
        (now :: times) hnew hnew_le hlast hsorted fun later hlater => by
          rcases List.mem_cons.mp hlater with rfl | hlater
          · exact le_rfl
          · exact hfirst later hlater
      have hless : (last - now) * b.rate ≤ (last - first) * b.rate :=
        mul_le_mul_of_nonneg_right (by omega) hrate
      rw [hanswers, mul_comm b.rate]
      dsimp only at hsince
      omega

end Allowed

end TokenBucket

end Bsg.Foundations
