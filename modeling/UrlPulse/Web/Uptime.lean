import UrlPulse.Web.Regional

namespace UrlPulse.Web.Analytics

open UrlPulse.Core UrlPulse.Data.Linq UrlPulse.Data.Rounding

/-! # Rounded shares

A share of checks is shown to one or two decimals, so a full one can hide a
failure, but only among many checks.
-/

/-! ## Rounding half to even -/

section Rounding

variable {x : ℚ} {k : Int}

theorem round_eq_iff {digits : Nat} {value : Int} :
    round x digits = value ↔ roundHalfEven (x * 10 ^ digits) = value * 10 ^ digits := by
  have scale : (10 : ℚ) ^ digits ≠ 0 := pow_ne_zero digits (by norm_num)
  rw [round, div_eq_iff scale]
  exact_mod_cast Iff.rfl

end Rounding

/-! ## Percentages -/

section Share

variable {share : ℚ}

theorem round_percent_eq_zero (digits : Nat) (nonneg : 0 ≤ share) :
    round (share * 100) digits = 0 ↔ 200 * 10 ^ digits * share ≤ 1 := by
  have least : 0 ≤ roundHalfEven (share * 100 * 10 ^ digits) := by
    have scaled : (0 : ℚ) ≤ share * 100 * 10 ^ digits := by positivity
    refine (le_roundHalfEven_iff (by decide)).mpr ?_
    rw [Int.cast_zero]
    linarith
  have read : round (share * 100) digits = (0 : Int) ↔
      roundHalfEven (share * 100 * 10 ^ digits) = 0 * 10 ^ digits := round_eq_iff
  rw [Int.cast_zero, zero_mul] at read
  calc
    round (share * 100) digits = 0 ↔ roundHalfEven (share * 100 * 10 ^ digits) ≤ 0 := by
      rw [read]
      omega
    _ ↔ share * 100 * 10 ^ digits ≤ 1 / 2 := by
      rw [roundHalfEven_le_iff (by decide), Int.cast_zero, zero_add]
    _ ↔ 200 * 10 ^ digits * share ≤ 1 := by
      constructor <;> intro bound <;> linarith

theorem round_percent_eq_hundred (digits : Nat) (most : share ≤ 1) :
    round (share * 100) digits = 100 ↔ 200 * 10 ^ digits * (1 - share) ≤ 1 := by
  have even : (100 * 10 ^ digits : Int) % 2 = 0 := by
    rw [Int.mul_emod]
    norm_num
  have greatest : roundHalfEven (share * 100 * 10 ^ digits) ≤ 100 * 10 ^ digits := by
    have scale : (0 : ℚ) ≤ 100 * 10 ^ digits := by positivity
    have scaled := mul_le_mul_of_nonneg_right most scale
    refine (roundHalfEven_le_iff even).mpr ?_
    push_cast
    linarith
  have read : round (share * 100) digits = (100 : Int) ↔
      roundHalfEven (share * 100 * 10 ^ digits) = 100 * 10 ^ digits := round_eq_iff
  rw [Int.cast_ofNat] at read
  calc
    round (share * 100) digits = 100 ↔
        100 * 10 ^ digits ≤ roundHalfEven (share * 100 * 10 ^ digits) := by
      rw [read]
      omega
    _ ↔ 100 * 10 ^ digits - 1 / 2 ≤ share * 100 * 10 ^ digits := by
      rw [le_roundHalfEven_iff even]
      push_cast
      rfl
    _ ↔ 200 * 10 ^ digits * (1 - share) ≤ 1 := by
      constructor <;> intro bound <;> linarith

end Share

/-! ## Rows without success -/

variable {rows : List LatencyHistory}

def failureCount (rows : List LatencyHistory) : Nat :=
  rows.countP fun row => !isSuccess row

theorem successCount_add_failureCount (rows : List LatencyHistory) :
    successCount rows + failureCount rows = rows.length := by
  rw [List.length_eq_countP_add_countP isSuccess, successCount, failureCount]
  simp

/-- A rounded share of successes is full or none as soon as one row in so many is
at most left. -/
structure Rounded (least : Nat) (figure : ℚ) (rows : List LatencyHistory) : Prop where
  hundred : figure = 100 ↔ least * failureCount rows ≤ rows.length
  zero : figure = 0 ↔ least * successCount rows ≤ rows.length

/-- A full share says that there was no failure, and none that there was no success. -/
structure Telling (figure : ℚ) (rows : List LatencyHistory) : Prop where
  hundred : figure = 100 ↔ ∀ row ∈ rows, isSuccess row = true
  zero : figure = 0 ↔ ∀ row ∈ rows, isSuccess row = false

theorem failureCount_eq_zero : failureCount rows = 0 ↔ ∀ row ∈ rows, isSuccess row = true := by
  simp [failureCount]

theorem successCount_eq_zero : successCount rows = 0 ↔ ∀ row ∈ rows, isSuccess row = false := by
  simp [successCount]

/-- Among fewer rows every one counts. -/
theorem Rounded.telling {least : Nat} {figure : ℚ} (rounded : Rounded least figure rows)
    (few : rows.length < least) : Telling figure rows := by
  have none : ∀ count, least * count ≤ rows.length ↔ count = 0 := by
    intro count
    constructor
    · intro bound
      by_contra some
      exact absurd (Nat.le_mul_of_pos_right least (Nat.pos_of_ne_zero some)) (by omega)
    · rintro rfl
      exact Nat.zero_le _
  constructor
  case hundred => rw [rounded.hundred, none, failureCount_eq_zero]
  case zero => rw [rounded.zero, none, successCount_eq_zero]

theorem rounded_share (digits : Nat) (nonempty : rows ≠ []) :
    Rounded (200 * 10 ^ digits)
      (round ((successCount rows : ℚ) / rows.length * 100) digits) rows := by
  have present : (0 : ℚ) < rows.length := Nat.cast_pos.mpr (List.length_pos_iff.mpr nonempty)
  have total : (successCount rows : ℚ) + failureCount rows = rows.length := by
    exact_mod_cast successCount_add_failureCount rows
  have nonneg : (0 : ℚ) ≤ failureCount rows := Nat.cast_nonneg _
  have rest : 1 - (successCount rows : ℚ) / rows.length = failureCount rows / rows.length := by
    rw [← total] at present ⊢
    field_simp
    ring
  constructor
  case hundred =>
    rw [round_percent_eq_hundred digits ((div_le_one present).mpr (by linarith)), rest,
      ← mul_div_assoc, div_le_one present]
    exact_mod_cast Iff.rfl
  case zero =>
    rw [round_percent_eq_zero digits (by positivity), ← mul_div_assoc, div_le_one present]
    exact_mod_cast Iff.rfl

/-! ## The figures of the page -/

theorem outages_le_failureCount (rows : List LatencyHistory) :
    rows.countP isOutage ≤ failureCount rows := by
  apply List.countP_mono_left
  intro row _ outage
  simp only [isOutage, Bool.or_eq_true, decide_eq_true_eq] at outage
  simp only [isSuccess, Bool.not_eq_true', Bool.and_eq_false_iff, decide_eq_false_iff_not]
  omega

theorem stats_uptime {answer : Stats} (answered : stats rows = some answer) :
    Rounded 20000 answer.uptimePercent rows ∧ answer.outages = rows.countP isOutage := by
  obtain ⟨uptime, outages⟩ := stats_counts answered
  rw [uptime]
  exact ⟨rounded_share 2 (stats_some answered).1, outages⟩

theorem regionSummary_success {entry : RegionSummary} (listed : entry ∈ regionSummary rows) :
    Rounded 2000 entry.successPct (ofRegion entry.region rows) := by
  obtain ⟨-, present, shape⟩ := mem_regionSummary.mp listed
  obtain ⟨row, inWindow, inRegion⟩ := present
  have selected : row ∈ ofRegion entry.region rows :=
    List.mem_filter.mpr ⟨inWindow, by simpa using inRegion⟩
  rw [shape]
  exact rounded_share 1 (List.ne_nil_of_mem selected)

/-- The uptime is 100 exactly when at most one row in 20000 is not a 2xx, and a
region's share when at most one in 2000 of its rows is not; with fewer rows
than that, 100 says that there was no failure. -/
theorem hundred_percent_iff (rows : List LatencyHistory) (nonempty : rows ≠ []) :
    (∃ answer, stats rows = some answer ∧ Rounded 20000 answer.uptimePercent rows ∧
      (answer.uptimePercent = 100 → 20000 * answer.outages ≤ rows.length) ∧
      (rows.length < 20000 → Telling answer.uptimePercent rows ∧
        (answer.uptimePercent = 100 → answer.outages = 0))) ∧
    ∀ entry ∈ regionSummary rows, Rounded 2000 entry.successPct (ofRegion entry.region rows) ∧
      ((ofRegion entry.region rows).length < 2000 →
        Telling entry.successPct (ofRegion entry.region rows)) := by
  constructor
  · obtain ⟨answer, answered⟩ := stats_isSome nonempty
    obtain ⟨rounded, outages⟩ := stats_uptime answered
    have bound : answer.uptimePercent = 100 → 20000 * answer.outages ≤ rows.length := by
      intro full
      have failures := rounded.hundred.mp full
      have among := outages_le_failureCount rows
      rw [← outages] at among
      omega
    refine ⟨answer, answered, rounded, bound, ?_⟩
    intro few
    refine ⟨rounded.telling few, ?_⟩
    intro full
    have rare := bound full
    omega
  · intro entry listed
    have rounded := regionSummary_success listed
    exact ⟨rounded, rounded.telling⟩

/-- One timeout, and after it as many good checks. -/
def onceDown (checks : Nat) : List LatencyHistory :=
  { checkedAt := 10, statusCode := 0, region := "eastus2" } ::
    List.replicate checks { checkedAt := 20, latencyMs := 30, statusCode := 200, region := "eastus2" }

theorem hundred_percent_iff_onceDown :
    ∃ answer, stats (onceDown 3) = some answer ∧ Telling answer.uptimePercent (onceDown 3) := by
  obtain ⟨answer, answered, -, -, few⟩ := (hundred_percent_iff (onceDown 3) (by decide)).1
  exact ⟨answer, answered, (few (by decide)).1⟩

theorem length_onceDown (checks : Nat) : (onceDown checks).length = checks + 1 := by
  rw [onceDown, List.length_cons, List.length_replicate]

theorem failureCount_onceDown (checks : Nat) : failureCount (onceDown checks) = 1 := by
  simp [failureCount, onceDown, isSuccess, List.countP_replicate]

theorem outages_onceDown (checks : Nat) : (onceDown checks).countP isOutage = 1 := by
  simp [onceDown, isOutage, List.countP_replicate]

theorem ofRegion_onceDown (checks : Nat) : ofRegion "eastus2" (onceDown checks) = onceDown checks := by
  refine List.filter_eq_self.mpr ?_
  intro row member
  rcases List.mem_cons.mp member with rfl | repeated
  · rfl
  · rw [List.eq_of_mem_replicate repeated]
    rfl

/-- The page reports an uptime of 100 percent, for the region too, and an outage. -/
theorem not_telling_onceDown :
    (∃ answer, stats (onceDown 19999) = some answer ∧ answer.uptimePercent = 100 ∧
      answer.outages = 1 ∧ ¬ Telling answer.uptimePercent (onceDown 19999)) ∧
    ∃ entry ∈ regionSummary (onceDown 19999), entry.successPct = 100 ∧
      ¬ Telling entry.successPct (ofRegion entry.region (onceDown 19999)) := by
  have hidden : ∀ figure : ℚ, figure = 100 → ¬ Telling figure (onceDown 19999) := by
    intro figure full telling
    have none := failureCount_eq_zero.mpr (telling.hundred.mp full)
    rw [failureCount_onceDown] at none
    exact absurd none one_ne_zero
  constructor
  · have nonempty : onceDown 19999 ≠ [] := List.cons_ne_nil _ _
    obtain ⟨answer, answered⟩ := stats_isSome nonempty
    obtain ⟨rounded, outages⟩ := stats_uptime answered
    have full : answer.uptimePercent = 100 := by
      rw [rounded.hundred, failureCount_onceDown, length_onceDown]
    exact ⟨answer, answered, full, outages.trans (outages_onceDown 19999), hidden _ full⟩
  · let entry := summary ("eastus2", ofRegion "eastus2" (onceDown 19999))
    have listed : entry ∈ regionSummary (onceDown 19999) :=
      mem_regionSummary.mpr ⟨by decide, ⟨_, List.mem_cons_self, rfl⟩, rfl⟩
    have same : ofRegion entry.region (onceDown 19999) = onceDown 19999 := ofRegion_onceDown 19999
    have rounded := regionSummary_success listed
    rw [same] at rounded
    have full : entry.successPct = 100 := by
      rw [rounded.hundred, failureCount_onceDown, length_onceDown]
      norm_num
    refine ⟨entry, listed, full, ?_⟩
    rw [same]
    exact hidden _ full

end UrlPulse.Web.Analytics
