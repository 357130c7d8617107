import Mathlib.Data.Int.Log
import Mathlib.Data.Rat.Floor
import Mathlib.Tactic.Linarith
import Mathlib.Tactic.NormNum

namespace UrlPulse.Data.Rounding

/-! Rounding to the nearest, and to an even one of two that are as near: to an integer,
and to the 53 bits of a double.  The exponents of doubles have no end here, so there is
neither overflow nor underflow. -/

/-! ## To an integer -/

def roundHalfEven (x : ℚ) : Int :=
  if x - ⌊x⌋ < 1 / 2 then ⌊x⌋
  else if 1 / 2 < x - ⌊x⌋ then ⌊x⌋ + 1
  else if ⌊x⌋ % 2 = 0 then ⌊x⌋
  else ⌊x⌋ + 1

section Integer

variable {x y : ℚ} {k : Int}

/-- The nearest integer, and an even one where two are as near. -/
theorem roundHalfEven_near (x : ℚ) :
    (roundHalfEven x : ℚ) - 1 / 2 ≤ x ∧ x ≤ roundHalfEven x + 1 / 2 ∧
      (x = roundHalfEven x - 1 / 2 ∨ x = roundHalfEven x + 1 / 2 → roundHalfEven x % 2 = 0) := by
  have above := Int.floor_le x
  have below := Int.lt_floor_add_one x
  rw [roundHalfEven]
  split
  case isTrue low =>
    refine ⟨by linarith, by linarith, ?_⟩
    intro tie
    rcases tie with same | same <;> linarith
  case isFalse notLow =>
    split
    case isTrue high =>
      push_cast
      refine ⟨by linarith, by linarith, ?_⟩
      intro tie
      rcases tie with same | same <;> linarith
    case isFalse notHigh =>
      have half : x - ⌊x⌋ = 1 / 2 := le_antisymm (not_lt.mp notHigh) (not_lt.mp notLow)
      split
      case isTrue even => exact ⟨by linarith, by linarith, fun _ => even⟩
      case isFalse odd =>
        push_cast
        exact ⟨by linarith, by linarith, fun _ => by omega⟩

theorem roundHalfEven_le_iff (even : k % 2 = 0) : roundHalfEven x ≤ k ↔ x ≤ k + 1 / 2 := by
  obtain ⟨low, high, tie⟩ := roundHalfEven_near x
  constructor
  · intro bound
    have cast : (roundHalfEven x : ℚ) ≤ k := Int.cast_le.mpr bound
    linarith
  · intro bound
    by_contra above
    have next : k + 1 ≤ roundHalfEven x := by omega
    have cast : (k : ℚ) + 1 ≤ roundHalfEven x := by exact_mod_cast next
    have same : (roundHalfEven x : ℚ) = k + 1 := le_antisymm (by linarith) cast
    have exactly : roundHalfEven x = k + 1 := by exact_mod_cast same
    have evenToo := tie (.inl (by linarith))
    omega

theorem le_roundHalfEven_iff (even : k % 2 = 0) : k ≤ roundHalfEven x ↔ (k : ℚ) - 1 / 2 ≤ x := by
  obtain ⟨low, high, tie⟩ := roundHalfEven_near x
  constructor
  · intro bound
    have cast : (k : ℚ) ≤ roundHalfEven x := Int.cast_le.mpr bound
    linarith
  · intro bound
    by_contra below
    have next : roundHalfEven x + 1 ≤ k := by omega
    have cast : (roundHalfEven x : ℚ) + 1 ≤ k := by exact_mod_cast next
    have same : (k : ℚ) = roundHalfEven x + 1 := le_antisymm (by linarith) cast
    have exactly : k = roundHalfEven x + 1 := by exact_mod_cast same
    have evenToo := tie (.inr (by linarith))
    omega

/-- An integer this near is the one, if it is even or no other is as near. -/
theorem roundHalfEven_eq (low : (k : ℚ) - 1 / 2 ≤ x) (high : x ≤ k + 1 / 2)
    (tie : x = k - 1 / 2 ∨ x = k + 1 / 2 → k % 2 = 0) : roundHalfEven x = k := by
  by_cases even : k % 2 = 0
  · exact le_antisymm ((roundHalfEven_le_iff even).mpr high) ((le_roundHalfEven_iff even).mpr low)
  · have notLow : x ≠ k - 1 / 2 := fun same => even (tie (.inl same))
    have notHigh : x ≠ k + 1 / 2 := fun same => even (tie (.inr same))
    have above : (k : ℚ) - 1 / 2 < x := lt_of_le_of_ne low notLow.symm
    have below : x < k + 1 / 2 := lt_of_le_of_ne high notHigh
    obtain ⟨near, nearToo, -⟩ := roundHalfEven_near x
    have upper : (roundHalfEven x : ℚ) < k + 1 := by linarith
    have lower : (k : ℚ) < roundHalfEven x + 1 := by linarith
    have upperInt : roundHalfEven x < k + 1 := by exact_mod_cast upper
    have lowerInt : k < roundHalfEven x + 1 := by exact_mod_cast lower
    omega

theorem roundHalfEven_intCast (k : Int) : roundHalfEven k = k := by
  refine roundHalfEven_eq (by linarith) (by linarith) fun tie => ?_
  rcases tie with same | same <;> linarith

theorem roundHalfEven_neg (x : ℚ) : roundHalfEven (-x) = -roundHalfEven x := by
  obtain ⟨low, high, tie⟩ := roundHalfEven_near x
  refine roundHalfEven_eq (by push_cast; linarith) (by push_cast; linarith) fun half => ?_
  have even : roundHalfEven x % 2 = 0 := by
    push_cast at half
    rcases half with same | same
    · exact tie (.inr (by linarith))
    · exact tie (.inl (by linarith))
  omega

theorem roundHalfEven_mono (le : x ≤ y) : roundHalfEven x ≤ roundHalfEven y := by
  obtain ⟨low, -, tie⟩ := roundHalfEven_near x
  obtain ⟨-, high, otherTie⟩ := roundHalfEven_near y
  by_contra above
  have next : roundHalfEven y + 1 ≤ roundHalfEven x := by omega
  have cast : (roundHalfEven y : ℚ) + 1 ≤ roundHalfEven x := by exact_mod_cast next
  -- both lie halfway between two neighbours, of which only one is even
  have half : x = roundHalfEven x - 1 / 2 := le_antisymm (by linarith) low
  have otherHalf : y = roundHalfEven y + 1 / 2 := le_antisymm high (by linarith)
  have even := tie (.inl half)
  have otherEven := otherTie (.inr otherHalf)
  have same : (roundHalfEven x : ℚ) = roundHalfEven y + 1 := le_antisymm (by linarith) cast
  have exactly : roundHalfEven x = roundHalfEven y + 1 := by exact_mod_cast same
  omega

end Integer

/-! ## To a double -/

/-- The exponent of the last of the 53 bits of a double of this size. -/
def lastBit (x : ℚ) : Int := Int.log 2 |x| - 52

def toDouble (x : ℚ) : ℚ :=
  roundHalfEven (x / 2 ^ lastBit x) * 2 ^ lastBit x

section Double

variable {x y : ℚ} {e : Int}

theorem lastBit_neg (x : ℚ) : lastBit (-x) = lastBit x := by
  rw [lastBit, lastBit, abs_neg]

theorem toDouble_neg (x : ℚ) : toDouble (-x) = -toDouble x := by
  rw [toDouble, toDouble, lastBit_neg, neg_div, roundHalfEven_neg, Int.cast_neg, neg_mul]

@[simp] theorem toDouble_zero : toDouble 0 = 0 := by
  have zero : roundHalfEven 0 = 0 := roundHalfEven_intCast 0
  rw [toDouble, zero_div, zero, Int.cast_zero, zero_mul]

theorem two_zpow_pos (e : Int) : (0 : ℚ) < 2 ^ e := zpow_pos (by norm_num) e

/-- A number has 53 bits before its last one. -/
theorem lastBit_bounds (positive : 0 < x) :
    (2 : ℚ) ^ (52 : Nat) ≤ x / 2 ^ lastBit x ∧ x / 2 ^ lastBit x < (2 : ℚ) ^ (53 : Nat) := by
  have low := Int.zpow_log_le_self (b := 2) (by norm_num) positive
  have high := Int.lt_zpow_succ_log_self (b := 2) (by norm_num) x
  have scale := two_zpow_pos (lastBit x)
  have whole : Int.log 2 x = 52 + lastBit x := by
    rw [lastBit, abs_of_pos positive]
    omega
  rw [whole, Nat.cast_ofNat] at low high
  constructor
  · rw [le_div_iff₀ scale, ← zpow_natCast, ← zpow_add₀ (by norm_num)]
    exact low
  · rw [div_lt_iff₀ scale, ← zpow_natCast, ← zpow_add₀ (by norm_num)]
    refine high.trans_eq (congrArg _ ?_)
    push_cast
    omega

theorem lastBit_eq (low : (2 : ℚ) ^ (e + 52) ≤ |x|) (high : |x| < (2 : ℚ) ^ (e + 53)) :
    lastBit x = e := by
  have positive : 0 < |x| := (two_zpow_pos _).trans_le low
  have lower := (Int.zpow_le_iff_le_log (b := 2) (by norm_num) positive).mp (by exact_mod_cast low)
  have upper := (Int.lt_zpow_iff_log_lt (b := 2) (by norm_num) positive).mp (by exact_mod_cast high)
  rw [lastBit]
  omega

theorem lastBit_le (nonzero : x ≠ 0) (high : |x| < (2 : ℚ) ^ (e + 53)) : lastBit x ≤ e := by
  have upper := (Int.lt_zpow_iff_log_lt (b := 2) (by norm_num) (abs_pos.mpr nonzero)).mp
    (by exact_mod_cast high)
  rw [lastBit]
  omega

theorem lastBit_mono (positive : 0 < x) (le : x ≤ y) : lastBit x ≤ lastBit y := by
  rw [lastBit, lastBit, abs_of_pos positive, abs_of_pos (positive.trans_le le)]
  exact Int.sub_le_sub_right (Int.log_mono_right positive le) 52

theorem toDouble_nonneg (nonneg : 0 ≤ x) : 0 ≤ toDouble x := by
  have scale := two_zpow_pos (lastBit x)
  have least : roundHalfEven ((0 : Int) : ℚ) ≤ roundHalfEven (x / 2 ^ lastBit x) :=
    roundHalfEven_mono (by rw [Int.cast_zero]; exact div_nonneg nonneg scale.le)
  rw [roundHalfEven_intCast] at least
  exact mul_nonneg (Int.cast_nonneg least) scale.le

theorem toDouble_mono_of_pos (positive : 0 < x) (le : x ≤ y) : toDouble x ≤ toDouble y := by
  have otherPositive := positive.trans_le le
  have scale := two_zpow_pos (lastBit x)
  rcases (lastBit_mono positive le).lt_or_eq with finer | same
  · -- a power of two lies between them
    have top : roundHalfEven (x / 2 ^ lastBit x) ≤ roundHalfEven ((2 ^ 53 : Int) : ℚ) :=
      roundHalfEven_mono (by exact_mod_cast (lastBit_bounds positive).2.le)
    have bottom : roundHalfEven ((2 ^ 52 : Int) : ℚ) ≤ roundHalfEven (y / 2 ^ lastBit y) :=
      roundHalfEven_mono (by exact_mod_cast (lastBit_bounds otherPositive).1)
    rw [roundHalfEven_intCast] at top bottom
    have upper : (roundHalfEven (x / 2 ^ lastBit x) : ℚ) ≤ 2 ^ 53 := by exact_mod_cast top
    have lower : (2 : ℚ) ^ 52 ≤ roundHalfEven (y / 2 ^ lastBit y) := by exact_mod_cast bottom
    have double : (2 : ℚ) * 2 ^ lastBit x ≤ 2 ^ lastBit y := by
      rw [← zpow_one_add₀ (by norm_num)]
      exact zpow_le_zpow_right₀ (by norm_num) (by omega)
    calc
      toDouble x ≤ 2 ^ 53 * 2 ^ lastBit x := mul_le_mul_of_nonneg_right upper scale.le
      _ = 2 ^ 52 * (2 * 2 ^ lastBit x) := by ring
      _ ≤ 2 ^ 52 * 2 ^ lastBit y := mul_le_mul_of_nonneg_left double (by positivity)
      _ ≤ toDouble y := mul_le_mul_of_nonneg_right lower (two_zpow_pos _).le
  · rw [toDouble, toDouble, ← same]
    refine mul_le_mul_of_nonneg_right (Int.cast_le.mpr (roundHalfEven_mono ?_)) scale.le
    exact div_le_div_of_nonneg_right le scale.le

theorem toDouble_mono (le : x ≤ y) : toDouble x ≤ toDouble y := by
  rcases lt_trichotomy x 0 with negative | rfl | positive
  · rcases lt_or_ge y 0 with bothNegative | nonneg
    · have mirrored := toDouble_mono_of_pos (neg_pos.mpr bothNegative) (neg_le_neg le)
      rw [toDouble_neg, toDouble_neg] at mirrored
      exact neg_le_neg_iff.mp mirrored
    · have mirrored := toDouble_nonneg (neg_pos.mpr negative).le
      rw [toDouble_neg] at mirrored
      exact (neg_nonneg.mp mirrored).trans (toDouble_nonneg nonneg)
  · rw [toDouble_zero]
    exact toDouble_nonneg le
  · exact toDouble_mono_of_pos positive le

/-- Integers of 53 bits are doubles. -/
theorem toDouble_intCast {n : Int} (small : |n| < 2 ^ 53) : toDouble n = n := by
  by_cases zero : n = 0
  · rw [zero, Int.cast_zero, toDouble_zero]
  · have fine : lastBit (n : ℚ) ≤ 0 := by
      refine lastBit_le (Int.cast_ne_zero.mpr zero) ?_
      rw [← Int.cast_abs]
      exact_mod_cast small
    obtain ⟨places, exponent⟩ : ∃ places : Nat, lastBit (n : ℚ) = -places :=
      ⟨(-lastBit (n : ℚ)).toNat, by omega⟩
    have integral : (n : ℚ) / 2 ^ lastBit (n : ℚ) = (n * 2 ^ places : Int) := by
      rw [exponent, zpow_neg, div_inv_eq_mul, zpow_natCast]
      push_cast
      rfl
    rw [toDouble, integral, roundHalfEven_intCast, ← integral]
    exact div_mul_cancel₀ _ (two_zpow_pos _).ne'

/-- Rounding moves a number by half a last bit at most. -/
theorem toDouble_le_add (high : |x| < (2 : ℚ) ^ (e + 53)) : toDouble x ≤ x + 2 ^ e / 2 := by
  by_cases zero : x = 0
  · rw [zero, toDouble_zero, zero_add]
    exact (half_pos (two_zpow_pos e)).le
  · have scale := two_zpow_pos (lastBit x)
    have coarse : (2 : ℚ) ^ lastBit x ≤ 2 ^ e := zpow_le_zpow_right₀ (by norm_num) (lastBit_le zero high)
    obtain ⟨near, -, -⟩ := roundHalfEven_near (x / 2 ^ lastBit x)
    calc
      toDouble x ≤ (x / 2 ^ lastBit x + 1 / 2) * 2 ^ lastBit x :=
        mul_le_mul_of_nonneg_right (by linarith) scale.le
      _ = x + 2 ^ lastBit x / 2 := by
        rw [add_mul, div_mul_cancel₀ _ scale.ne']
        ring
      _ ≤ x + 2 ^ e / 2 := by linarith

/-- An integer with more than 53 bits goes to a multiple of a power of two this near, if it
is an even one or no other is as near. -/
theorem toDouble_intCast_near (places : Nat) {n k : Int} (large : 2 ^ (places + 52) ≤ n.natAbs)
    (small : n.natAbs < 2 ^ (places + 53)) (near : (2 * n - 2 * (k * 2 ^ places)).natAbs ≤ 2 ^ places)
    (tie : (2 * n - 2 * (k * 2 ^ places)).natAbs = 2 ^ places → k % 2 = 0) :
    toDouble n = (k * 2 ^ places : Int) := by
  have magnitude : |(n : ℚ)| = (n.natAbs : Nat) := by
    rw [← Int.cast_abs, Int.abs_eq_natAbs]
    rfl
  have exponent : lastBit (n : ℚ) = places := by
    refine lastBit_eq ?_ ?_
    · rw [magnitude]
      exact_mod_cast large
    · rw [magnitude]
      exact_mod_cast small
  have scale : (0 : ℚ) < 2 ^ places := by positivity
  have apart : |2 * (n : ℚ) - 2 * (k * 2 ^ places)| = ((2 * n - 2 * (k * 2 ^ places)).natAbs : Nat) := by
    rw [← Int.cast_natCast, ← Int.abs_eq_natAbs, Int.cast_abs]
    push_cast
    rfl
  have within : |2 * (n : ℚ) - 2 * (k * 2 ^ places)| ≤ 2 ^ places := by
    rw [apart]
    exact_mod_cast near
  obtain ⟨low, high⟩ := abs_le.mp within
  have nearest : roundHalfEven ((n : ℚ) / 2 ^ places) = k := by
    refine roundHalfEven_eq ((le_div_iff₀ scale).mpr (by linarith)) ((div_le_iff₀ scale).mpr (by linarith)) ?_
    intro half
    refine tie ?_
    have distance : |2 * (n : ℚ) - 2 * (k * 2 ^ places)| = 2 ^ places := by
      rcases half with same | same <;> rw [div_eq_iff scale.ne'] at same
      · rw [abs_of_nonpos (by linarith)]
        linarith
      · rw [abs_of_nonneg (by linarith)]
        linarith
    rw [apart] at distance
    exact_mod_cast distance
  rw [toDouble, exponent, zpow_natCast, nearest]
  push_cast
  rfl

end Double

end UrlPulse.Data.Rounding
