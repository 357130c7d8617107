import UrlPulse.Core.Models
import UrlPulse.Data.Rounding

namespace UrlPulse.Core.TimeSpan

open UrlPulse.Data.Rounding

/-! `TotalSeconds` is a double, so a long span can pass for a full number of seconds a
tick or two early. -/

/-- `(double)Ticks / TicksPerSecond`: the ticks are rounded, and then their quotient. -/
def totalSeconds (span : TimeSpan) : ℚ :=
  toDouble (toDouble span / ticksPerSecond)

/-- How many ticks short of these seconds a span still counts for them. -/
def slack (seconds : Int) : Int :=
  if (seconds * ticksPerSecond).natAbs < 2 ^ 53 then 0
  else if (seconds * ticksPerSecond).natAbs < 2 ^ 54 then 1
  else 2

/-- The shortest span whose `TotalSeconds` come up to these seconds. -/
def fullTicks (seconds : Int) : Int := seconds * ticksPerSecond - slack seconds

theorem totalSeconds_mono {span other : TimeSpan} (le : span ≤ other) :
    totalSeconds span ≤ totalSeconds other := by
  refine toDouble_mono (div_le_div_of_nonneg_right (toDouble_mono ?_) (Nat.cast_nonneg _))
  exact_mod_cast le

theorem slack_bounds (seconds : Int) : 0 ≤ slack seconds ∧ slack seconds ≤ 2 := by
  rw [slack]
  split_ifs <;> decide

theorem fullTicks_lt {seconds more : Int} (less : seconds < more) : fullTicks seconds < fullTicks more := by
  have second : (ticksPerSecond : Int) = 10000000 := rfl
  have bounds := slack_bounds seconds
  have moreBounds := slack_bounds more
  rw [fullTicks, fullTicks, second]
  omega

theorem fullTicks_le_iff {seconds more : Int} : fullTicks seconds ≤ fullTicks more ↔ seconds ≤ more := by
  constructor
  · intro ordered
    by_contra below
    exact absurd (fullTicks_lt (Int.not_le.mp below)) (Int.not_lt.mpr ordered)
  · intro ordered
    rcases Int.lt_or_eq_of_le ordered with less | rfl
    · exact Int.le_of_lt (fullTicks_lt less)
    · exact Int.le_refl _

/-- Spans of less than 28 years are counted to the tick. -/
theorem slack_eq_zero_iff {seconds : Int} : slack seconds = 0 ↔ seconds.natAbs ≤ 900719925 := by
  have second : (ticksPerSecond : Int) = 10000000 := rfl
  rw [slack, second]
  constructor
  · intro none
    split_ifs at none with small
    · omega
    · contradiction
    · contradiction
  · intro small
    exact if_pos (by omega)

/-- With no tick missing or just the slack, the ticks round to the full number. -/
theorem toDouble_fullTicks (seconds : Int) (bounded : seconds.natAbs ≤ 2 ^ 31) :
    toDouble (fullTicks seconds) = (seconds * ticksPerSecond : Int) := by
  have second : (ticksPerSecond : Int) = 10000000 := rfl
  rw [fullTicks, slack, second]
  split_ifs with exactly twos
  · rw [Int.sub_zero]
    exact toDouble_intCast (Int.abs_eq_natAbs _ ▸ by exact_mod_cast exactly)
  · have rounded := toDouble_intCast_near 1 (n := seconds * 10000000 - 1) (k := seconds * 5000000)
      (by omega) (by omega) (by omega) (by omega)
    rw [rounded]
    congr 1
    omega
  · have rounded := toDouble_intCast_near 2 (n := seconds * 10000000 - 2) (k := seconds * 2500000)
      (by omega) (by omega) (by omega) (by omega)
    rw [rounded]
    congr 1
    omega

/-- So many ticks missing, the quotient cannot be rounded to the full number. -/
theorem toDouble_div_lt (missing : Int) {ticks seconds e : Int} (short : ticks = seconds * ticksPerSecond - missing)
    (small : |(ticks : ℚ) / ticksPerSecond| < 2 ^ (e + 53)) (room : (2 : ℚ) ^ e / 2 < missing / ticksPerSecond) :
    toDouble ((ticks : ℚ) / ticksPerSecond) < seconds := by
  have second : (ticksPerSecond : ℚ) ≠ 0 := by norm_num [ticksPerSecond, ticksPerMillisecond]
  have quotient : (ticks : ℚ) / ticksPerSecond = seconds - missing / ticksPerSecond := by
    rw [short, Int.cast_sub, Int.cast_mul, Int.cast_natCast, sub_div, mul_div_cancel_right₀ _ second]
  have near := toDouble_le_add small
  rw [quotient] at near ⊢
  linarith

/-- A tick less, and a second is missing. -/
theorem totalSeconds_lt (seconds : Int) (bounded : seconds.natAbs ≤ 2 ^ 31) :
    totalSeconds (fullTicks seconds - 1 : Int) < seconds := by
  have second : (ticksPerSecond : Int) = 10000000 := rfl
  have secondCast : (ticksPerSecond : ℚ) = 10000000 := by norm_num [ticksPerSecond, ticksPerMillisecond]
  have size : ∀ (bound : Nat) {ticks : Int}, ticks.natAbs < bound * 10000000 →
      |(ticks : ℚ) / ticksPerSecond| < bound := by
    intro bound ticks less
    rw [secondCast, abs_div, abs_of_pos (by norm_num : (0 : ℚ) < 10000000), div_lt_iff₀ (by norm_num),
      ← Int.cast_abs, Int.abs_eq_natAbs]
    exact_mod_cast less
  rw [totalSeconds, fullTicks, slack]
  simp only [second]
  split_ifs with exactly twos
  · rw [toDouble_intCast (n := seconds * 10000000 - 0 - 1) (by rw [Int.abs_eq_natAbs]; omega)]
    refine toDouble_div_lt 1 (e := -23) (by rw [second]; omega) ?_ (by rw [secondCast]; norm_num)
    exact (size (2 ^ 30) (by omega)).trans_eq (by norm_num)
  · rw [toDouble_intCast_near 1 (n := seconds * 10000000 - 1 - 1) (k := seconds * 5000000 - 1)
      (by omega) (by omega) (by omega) (by omega)]
    refine toDouble_div_lt 2 (e := -22) (by rw [second]; omega) ?_ (by rw [secondCast]; norm_num)
    exact (size (2 ^ 31) (by omega)).trans_eq (by norm_num)
  · rw [toDouble_intCast_near 2 (n := seconds * 10000000 - 2 - 1) (k := seconds * 2500000 - 1)
      (by omega) (by omega) (by omega) (by omega)]
    refine toDouble_div_lt 4 (e := -21) (by rw [second]; omega) ?_ (by rw [secondCast]; norm_num)
    exact (size (2 ^ 32) (by omega)).trans_eq (by norm_num)

/-- The comparison of the double is one of ticks. -/
theorem le_totalSeconds_iff {seconds : Int} (bounded : seconds.natAbs ≤ 2 ^ 31) (span : TimeSpan) :
    (seconds : ℚ) ≤ totalSeconds span ↔ fullTicks seconds ≤ span := by
  constructor
  · intro full
    by_contra short
    have less : totalSeconds span ≤ totalSeconds (fullTicks seconds - 1 : Int) :=
      totalSeconds_mono (Int.le_sub_one_of_lt (not_le.mp short))
    exact absurd (full.trans less) (not_le.mpr (totalSeconds_lt seconds bounded))
  · intro full
    refine le_trans ?_ (totalSeconds_mono full)
    have second : (ticksPerSecond : ℚ) ≠ 0 := by norm_num [ticksPerSecond, ticksPerMillisecond]
    rw [totalSeconds, toDouble_fullTicks seconds bounded, Int.cast_mul, Int.cast_natCast,
      mul_div_cancel_right₀ _ second, toDouble_intCast (by rw [Int.abs_eq_natAbs]; omega)]

end UrlPulse.Core.TimeSpan
