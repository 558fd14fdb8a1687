import Bsg.Central.Models

/-!
# Scores

The points of a problem (`DetermineScoreForProblem`) and the compression of a score with a time into
one number that a Redis sorted set can hold (`compressScoreAndTimeStamp`, `DecompressScore`): the
score in the upper bits, the inverted time in the lower 43. Redis keeps the number as a 64-bit
float, which is exact below `2^53`. `decompress_compress` says that the score survives the round
trip.
-/

namespace Bsg.Central

open Bsg.Foundations

/-- `DetermineScoreForProblem`, by the difficulty of the problem. -/
def determineScoreForProblem (problem : Problem) : UInt64 :=
  if problem.difficulty = difficultyEasy then 3
  else if problem.difficulty = difficultyMedium then 4
  else 5

/-- A problem is worth something. -/
theorem determineScoreForProblem_ne_zero (problem : Problem) :
    determineScoreForProblem problem ≠ 0 := by
  unfold determineScoreForProblem
  split_ifs <;> decide

/-- The bits of the time. -/
def timeBits : ℕ := 53 - 10

/-- `compressScoreAndTimeStamp` -/
def compressScoreAndTimeStamp (score : ℕ) (timestamp : ℤ) : ℕ :=
  uint64 (score <<< timeBits) ||| ((-timestamp - 1) % (2^timeBits)).toNat

/-- The 64-bit float next to a number, ties to even; numbers below `2^53` are floats. -/
def toFloat64 (n : ℕ) : ℕ :=
  let unit := 2 ^ (Nat.log2 n + 1 - 53)
  if 2 * (n % unit) < unit ∨ 2 * (n % unit) = unit ∧ n / unit % 2 = 0 then n / unit * unit
  else (n / unit + 1) * unit

/-- `DecompressScore`, of a float below `2^64`. -/
def decompressScore (compressedScore : ℕ) : ℕ := uint64 compressedScore >>> timeBits

/-- Numbers below `2^53` are exact as floats. -/
theorem toFloat64_of_lt {n : ℕ} (h : n < 2^53) : toFloat64 n = n := by
  have hlog : Nat.log2 n + 1 - 53 = 0 := by
    rcases Nat.eq_zero_or_pos n with rfl | hn
    · simp
    · have := (Nat.log2_lt (by omega)).mpr h
      omega
  simp [toFloat64, hlog, Nat.mod_one]

/-- The compressed score is the score above the inverted time. -/
theorem compressScoreAndTimeStamp_eq {score : ℕ} (h : score < 2^21) (timestamp : ℤ) :
    compressScoreAndTimeStamp score timestamp =
      score * 2^43 + ((-timestamp - 1) % 2^43).toNat := by
  have hlt : ((-timestamp - 1) % 2^43).toNat < 2^43 := by omega
  have hs : uint64 (score <<< timeBits) = score <<< 43 := by
    rw [show timeBits = 43 from rfl, Nat.shiftLeft_eq]
    exact uint64_of_lt (by omega)
  rw [compressScoreAndTimeStamp, hs]
  show score <<< 43 ||| ((-timestamp - 1) % 2^43).toNat = _
  rw [← Nat.shiftLeft_add_eq_or_of_lt hlt, Nat.shiftLeft_eq]

/-- A score below 1024 survives compression, whatever the time. -/
theorem decompress_compress {score : ℕ} (h : score < 2^10) (timestamp : ℤ) :
    decompressScore (toFloat64 (compressScoreAndTimeStamp score timestamp)) = score := by
  have hlt : ((-timestamp - 1) % 2^43).toNat < 2^43 := by omega
  rw [compressScoreAndTimeStamp_eq (by omega), toFloat64_of_lt (by omega), decompressScore,
    uint64_of_lt (by omega), show timeBits = 43 from rfl, Nat.shiftRight_eq_div_pow]
  omega

/-- The compressed score of a moment within 43 bits, and a score within ten. -/
theorem compress_of_inRange {score : ℕ} (h : score < 2^10) {timestamp : ℤ} (h0 : 0 ≤ timestamp)
    (h1 : timestamp < 2^43) : ((compressScoreAndTimeStamp score timestamp : ℕ) : ℤ) =
      score * 2^43 + (2^43 - 1 - timestamp) := by
  have hinv : (-timestamp - 1) % 2^43 = 2^43 - 1 - timestamp := by omega
  rw [compressScoreAndTimeStamp_eq (by omega), hinv]
  omega

/-- Such a number is exact as a float. -/
theorem compress_lt {score : ℕ} (h : score < 2^10) (timestamp : ℤ) :
    compressScoreAndTimeStamp score timestamp < 2^53 := by
  rw [compressScoreAndTimeStamp_eq (by omega)]
  omega

end Bsg.Central
