import UrlPulse.Data.Statistics
import UrlPulse.Web.Analytics

namespace UrlPulse.Web.Analytics

open UrlPulse.Core UrlPulse.Data.Linq UrlPulse.Data.Statistics

/-! # Percentiles

The handlers' percentile is the nearest rank: the least value that the asked
share of the records does not exceed.
-/

variable {values : List Nat} {p : ℚ}

/-- The clamp never moves the index of a share above zero and up to one. -/
theorem percentile_index {count : Nat} (present : 0 < count) (positive : 0 < p) (bound : p ≤ 1) :
    (max 0 (min (⌈p * count⌉ - 1) ((count : Int) - 1))).toNat = nearestRank p count - 1 := by
  have ceiling : (nearestRank p count : Int) = ⌈p * count⌉ :=
    Int.natCast_ceil_eq_ceil (mul_nonneg positive.le (Nat.cast_nonneg _))
  have least := nearestRank_pos positive present
  have most : nearestRank p count ≤ count := nearestRank_le bound
  rw [← ceiling]
  omega

theorem percentile_ranked (nonempty : values ≠ []) (positive : 0 < p) (bound : p ≤ 1) :
    Ranked (nearestRank p values.length) values (percentile (orderBy id values) p) := by
  have counted := List.length_pos_iff.mpr nonempty
  have same := (orderBy_perm id values).length_eq
  obtain ⟨value, found, ranked⟩ :=
    exists_ranked (nearestRank_pos positive counted) (nearestRank_le bound)
  have computed : percentile (orderBy id values) p = value := by
    rw [percentile, if_neg (by omega)]
    simp only [same, percentile_index counted positive bound]
    rw [List.getD_eq_getElem?_getD, found, Option.getD_some]
  rw [computed]
  exact ranked

theorem percentile_perm (p : ℚ) {others : List Nat} (same : values.Perm others) :
    percentile (orderBy id values) p = percentile (orderBy id others) p :=
  congrArg (percentile · p) (orderBy_eq_of_perm same fun _ _ _ _ => id)

theorem percentile_mono {q : ℚ} (nonempty : values ≠ []) (positive : 0 < p) (order : p ≤ q)
    (bound : q ≤ 1) : percentile (orderBy id values) p ≤ percentile (orderBy id values) q :=
  (percentile_ranked nonempty positive (order.trans bound)).le
    (percentile_ranked nonempty (positive.trans_le order) bound) (nearestRank_mono order)

/-! ## The percentiles of the stat cards -/

variable {rows others : List LatencyHistory} {answer : Stats}

theorem stats_some (answered : stats rows = some answer) :
    rows ≠ [] ∧
      answer.avgLatency = mean (rows.map (·.latencyMs)) ∧
      answer.p50 = percentile (orderBy id (rows.map (·.latencyMs))) (50 / 100) ∧
      answer.p95 = percentile (orderBy id (rows.map (·.latencyMs))) (95 / 100) ∧
      answer.p99 = percentile (orderBy id (rows.map (·.latencyMs))) (99 / 100) := by
  rw [stats] at answered
  split at answered
  · contradiction
  · cases answered
    refine ⟨fun empty => ?_, mean_perm (orderBy_perm id _), rfl, rfl, rfl⟩
    subst empty
    contradiction

theorem stats_counts (answered : stats rows = some answer) :
    answer.uptimePercent = round ((rows.countP isSuccess : ℚ) / rows.length * 100) 2 ∧
      answer.outages = rows.countP isOutage := by
  rw [stats] at answered
  split at answered
  · contradiction
  · cases answered
    exact ⟨rfl, rfl⟩

theorem stats_isSome (nonempty : rows ≠ []) : ∃ answer, stats rows = some answer := by
  rw [stats, if_neg (by simpa using nonempty)]
  exact ⟨_, rfl⟩

/-- The percentile of a share is the nearest rank, whatever the order of the
records, and it grows with the share; so the percentiles of the stat cards are
in order between the least and the greatest latency. -/
theorem percentile_nearest_rank :
    (∀ (values : List Nat) (p : ℚ), values ≠ [] → 0 < p → p ≤ 1 →
      let value := percentile (orderBy id values) p
      value ∈ values ∧
      ⌈p * values.length⌉ ≤ values.countP (· ≤ value) ∧
      values.countP (· < value) < ⌈p * values.length⌉ ∧
      (∀ others, values.Perm others → percentile (orderBy id others) p = value) ∧
      ∀ q, p ≤ q → q ≤ 1 → value ≤ percentile (orderBy id values) q) ∧
    ∀ rows : List LatencyHistory, rows ≠ [] →
      ∃ answer, stats rows = some answer ∧
        (∀ least ∈ (rows.map (·.latencyMs)).min?, least ≤ answer.p50) ∧
        answer.p50 ≤ answer.p95 ∧ answer.p95 ≤ answer.p99 ∧
        ∀ greatest ∈ (rows.map (·.latencyMs)).max?, answer.p99 ≤ greatest := by
  constructor
  · intro values p nonempty positive bound
    have ranked := percentile_ranked nonempty positive bound
    have ceiling : (nearestRank p values.length : Int) = ⌈p * values.length⌉ :=
      Int.natCast_ceil_eq_ceil (mul_nonneg positive.le (Nat.cast_nonneg _))
    refine ⟨ranked.member, ?_, ?_, fun others same => (percentile_perm p same).symm, ?_⟩
    · rw [← ceiling]
      exact Int.ofNat_le.mpr ranked.reached
    · rw [← ceiling]
      exact Int.ofNat_lt.mpr ranked.fewer
    · intro q order most
      exact percentile_mono nonempty positive order most
  · intro rows nonempty
    obtain ⟨answer, answered⟩ := stats_isSome nonempty
    obtain ⟨-, -, p50, p95, p99⟩ := stats_some answered
    have latencies : rows.map (·.latencyMs) ≠ [] := by simpa using nonempty
    have low := percentile_ranked (p := 50 / 100) latencies (by norm_num) (by norm_num)
    have high := percentile_ranked (p := 99 / 100) latencies (by norm_num) (by norm_num)
    refine ⟨answer, answered, ?_, ?_, ?_, ?_⟩
    · intro least found
      rw [p50]
      exact (List.min?_eq_some_iff.mp found).2 _ low.member
    · rw [p50, p95]
      exact percentile_mono latencies (by norm_num) (by norm_num) (by norm_num)
    · rw [p95, p99]
      exact percentile_mono latencies (by norm_num) (by norm_num) (by norm_num)
    · intro greatest found
      rw [p99]
      exact (List.max?_eq_some_iff.mp found).2 _ high.member

def twoChecks : List LatencyHistory :=
  [{ checkedAt := 10, latencyMs := 30, statusCode := 200, region := "eastus2" },
    { checkedAt := 20, latencyMs := 10, statusCode := 200, region := "westus3" }]

theorem percentile_nearest_rank_two_checks :
    percentile (orderBy id [30, 10]) (1 / 2) ∈ [30, 10] ∧
      ∃ answer, stats twoChecks = some answer ∧ answer.p50 ≤ answer.p95 := by
  obtain ⟨percentiles, cards⟩ := percentile_nearest_rank
  obtain ⟨answer, answered, -, ordered, -⟩ := cards twoChecks (by decide)
  exact ⟨(percentiles [30, 10] (1 / 2) (by decide) (by norm_num) (by norm_num)).1,
    answer, answered, ordered⟩

end UrlPulse.Web.Analytics
