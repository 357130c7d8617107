import UrlPulse.Web.Regional
import UrlPulse.Worker.UrlMonitorFunction

namespace UrlPulse.Web.Analytics

open UrlPulse.Core UrlPulse.Data.Linq UrlPulse.Data.Statistics UrlPulse.Worker

/-! # Checks without a latency

A check that fails without a response has no latency, but its row has one of 0,
which the figures about latencies count like any other.
-/

/-- A result with the region of the run it is from. -/
abbrev Check := String × UrlCheckResult

/-- The rows the worker adds for these results. -/
def recorded (monitor : UrlMonitor) (checks : List Check) : List LatencyHistory :=
  checks.map fun check => historyRow check.1 monitor check.2

/-- Among these checks there is one with a latency. -/
def Measured (checks : List Check) : Prop := ∃ check ∈ checks, check.2.latencyMs.isSome

def checksOf (region : String) (checks : List Check) : List Check :=
  checks.filter fun check => check.1 = region

def checksAt (bucket : Nat) (x : DateTime) (checks : List Check) : List Check :=
  checks.filter fun check => truncateToBucket check.2.checkedAt bucket = x

/-- Every figure about latencies is the same for both lists, as far as it is about
checks of which one at least has a latency. -/
structure SameFigures (bucket : Nat) (monitor : UrlMonitor) (checks others : List Check) : Prop where
  stats : ∀ answer, stats (recorded monitor checks) = some answer →
    ∃ other, Analytics.stats (recorded monitor others) = some other ∧
      other.avgLatency = answer.avgLatency ∧ other.p50 = answer.p50 ∧ other.p95 = answer.p95 ∧
      other.p99 = answer.p99
  regions : ∀ entry ∈ regionSummary (recorded monitor checks),
    Measured (checksOf entry.region checks) →
    ∃ other ∈ regionSummary (recorded monitor others), other.region = entry.region ∧
      other.avgLatency = entry.avgLatency ∧ other.p95Latency = entry.p95Latency
  points : ∀ series ∈ latencyData bucket (recorded monitor checks), ∀ entry ∈ series.data,
    Measured (checksAt bucket entry.x (checksOf series.name checks)) →
    ∃ other ∈ latencyData bucket (recorded monitor others), other.name = series.name ∧
      ∃ there ∈ other.data, there.x = entry.x ∧ there.y = entry.y

/-! ## What a zero more does to a figure -/

def latenciesOf (checks : List Check) : List Nat :=
  checks.map fun check => check.2.latencyMs.getD 0

/-- The mean rounded down is not more than what the rounding left over. -/
def MeanKept (values : List Nat) : Prop := values.sum / values.length ≤ values.sum % values.length

/-- The rank moves along with the zero, or a value at it is zero or at the rank below too. -/
def RankKept (p : ℚ) (values : List Nat) : Prop :=
  nearestRank p (values.length + 1) = nearestRank p values.length + 1 ∨
    ∃ kept ∈ values, nearestRank p values.length ≤ values.countP (· ≤ kept) ∧
      (kept = 0 ∨ values.countP (· < kept) + 1 < nearestRank p values.length)

theorem percentile_cons_zero {values : List Nat} {p : ℚ} (nonempty : values ≠ [])
    (positive : 0 < p) (bound : p ≤ 1) :
    percentile (orderBy id (0 :: values)) p = percentile (orderBy id values) p ↔
      RankKept p values := by
  have before := percentile_ranked nonempty positive bound
  have after := percentile_ranked (List.cons_ne_nil 0 values) positive bound
  have least : nearestRank p values.length ≤ nearestRank p (values.length + 1) :=
    nearestRank_le_succ positive.le
  have most : nearestRank p (values.length + 1) ≤ nearestRank p values.length + 1 :=
    nearestRank_succ_le bound
  exact before.cons_eq_iff (fun _ _ => Nat.zero_le _) after (by omega)

section Inserted

variable {checks others : List Check} {failed : Check}

theorem Measured.ne_nil (measured : Measured checks) : checks ≠ [] := by
  obtain ⟨check, member, -⟩ := measured
  exact List.ne_nil_of_mem member

variable (inserted : others.Perm (failed :: checks)) (unmeasured : failed.2.latencyMs = none)
include inserted unmeasured

theorem latenciesOf_inserted : (latenciesOf others).Perm (0 :: latenciesOf checks) := by
  have mapped := inserted.map fun check => check.2.latencyMs.getD 0
  rwa [List.map_cons, unmeasured] at mapped

theorem mean_inserted :
    mean (latenciesOf others) = mean (latenciesOf checks) ↔ MeanKept (latenciesOf checks) := by
  rw [mean_perm (latenciesOf_inserted inserted unmeasured)]
  exact mean_cons_zero _

theorem percentile_inserted (nonempty : checks ≠ []) {p : ℚ} (positive : 0 < p) (bound : p ≤ 1) :
    percentile (orderBy id (latenciesOf others)) p = percentile (orderBy id (latenciesOf checks)) p ↔
      RankKept p (latenciesOf checks) := by
  rw [percentile_perm p (latenciesOf_inserted inserted unmeasured)]
  exact percentile_cons_zero (by simpa [latenciesOf] using nonempty) positive bound

end Inserted

/-! ## The figures of recorded checks -/

section Recorded

variable {bucket : Nat} {monitor : UrlMonitor} {checks others : List Check} {failed : Check}
  {region : String} {x : DateTime}

theorem latencies_recorded (monitor : UrlMonitor) (checks : List Check) :
    (recorded monitor checks).map (·.latencyMs) = latenciesOf checks := by
  rw [recorded, List.map_map]
  rfl

theorem ofRegion_recorded (monitor : UrlMonitor) (region : String) (checks : List Check) :
    ofRegion region (recorded monitor checks) = recorded monitor (checksOf region checks) := by
  rw [ofRegion, recorded, List.filter_map]
  rfl

theorem filter_truncate_recorded (bucket : Nat) (x : DateTime) (monitor : UrlMonitor)
    (checks : List Check) :
    (recorded monitor checks).filter (fun row => truncateToBucket row.checkedAt bucket = x) =
      recorded monitor (checksAt bucket x checks) := by
  rw [recorded, List.filter_map]
  rfl

theorem stats_recorded (monitor : UrlMonitor) (nonempty : checks ≠ []) :
    ∃ answer, stats (recorded monitor checks) = some answer ∧
      answer.avgLatency = mean (latenciesOf checks) ∧
      answer.p50 = percentile (orderBy id (latenciesOf checks)) (50 / 100) ∧
      answer.p95 = percentile (orderBy id (latenciesOf checks)) (95 / 100) ∧
      answer.p99 = percentile (orderBy id (latenciesOf checks)) (99 / 100) := by
  have rows : recorded monitor checks ≠ [] := by simpa [recorded] using nonempty
  obtain ⟨answer, answered⟩ := stats_isSome rows
  obtain ⟨-, figures⟩ := stats_some answered
  rw [latencies_recorded] at figures
  exact ⟨answer, answered, figures⟩

/-- The entry of a region. -/
def entryOf (monitor : UrlMonitor) (region : String) (checks : List Check) : RegionSummary :=
  summary (region, recorded monitor (checksOf region checks))

theorem entryOf_figures (monitor : UrlMonitor) (region : String) (checks : List Check) :
    (entryOf monitor region checks).avgLatency = mean (latenciesOf (checksOf region checks)) ∧
      (entryOf monitor region checks).p95Latency =
        percentile (orderBy id (latenciesOf (checksOf region checks))) (95 / 100) := by
  rw [← latencies_recorded monitor]
  exact ⟨avgLatency_summary _, rfl⟩

theorem mem_regionSummary_recorded {entry : RegionSummary} :
    entry ∈ regionSummary (recorded monitor checks) ↔
      isNullOrWhiteSpace entry.region = false ∧ checksOf entry.region checks ≠ [] ∧
        entry = entryOf monitor entry.region checks := by
  have present : (∃ row ∈ recorded monitor checks, row.region = entry.region) ↔
      checksOf entry.region checks ≠ [] := by
    simp [recorded, checksOf, historyRow]
  rw [mem_regionSummary, present, ofRegion_recorded]
  rfl

theorem mem_latencyData_recorded {series : LatencySeries} :
    series ∈ latencyData bucket (recorded monitor checks) ↔
      isNullOrWhiteSpace series.name = false ∧ checksOf series.name checks ≠ [] ∧
        series.data = points bucket (ofRegion series.name (recorded monitor checks)) := by
  have present : (∃ row ∈ recorded monitor checks, row.region = series.name) ↔
      checksOf series.name checks ≠ [] := by
    simp [recorded, checksOf, historyRow]
  rw [mem_latencyData, present]

/-- The point of a bucket in the series of a region. -/
def pointOf (bucket : Nat) (monitor : UrlMonitor) (region : String) (x : DateTime)
    (checks : List Check) : LatencyPoint :=
  point (x, recorded monitor (checksAt bucket x (checksOf region checks)))

theorem pointOf_y (bucket : Nat) (monitor : UrlMonitor) (region : String) (x : DateTime)
    (checks : List Check) : (pointOf bucket monitor region x checks).y =
      mean (latenciesOf (checksAt bucket x (checksOf region checks))) := by
  rw [← latencies_recorded monitor]
  rfl

theorem mem_points_recorded {entry : LatencyPoint} :
    entry ∈ points bucket (ofRegion region (recorded monitor checks)) ↔
      checksAt bucket entry.x (checksOf region checks) ≠ [] ∧
        entry = pointOf bucket monitor region entry.x checks := by
  have present : (∃ row ∈ recorded monitor (checksOf region checks),
      truncateToBucket row.checkedAt bucket = entry.x) ↔
        checksAt bucket entry.x (checksOf region checks) ≠ [] := by
    simp [recorded, checksAt, historyRow]
  rw [ofRegion_recorded, mem_points, present, filter_truncate_recorded]
  rfl

/-! ## With and without the check -/

theorem filter_inserted (inserted : others.Perm (failed :: checks)) {keep : Check → Bool}
    (kept : keep failed = true) : (others.filter keep).Perm (failed :: checks.filter keep) := by
  have filtered := inserted.filter keep
  rwa [List.filter_cons_of_pos kept] at filtered

theorem filter_not_inserted (inserted : others.Perm (failed :: checks)) {keep : Check → Bool}
    (left : ¬ keep failed = true) : (others.filter keep).Perm (checks.filter keep) := by
  have filtered := inserted.filter keep
  rwa [List.filter_cons_of_neg left] at filtered

theorem filter_ne_nil (inserted : others.Perm (failed :: checks)) {keep : Check → Bool}
    (nonempty : checks.filter keep ≠ []) : others.filter keep ≠ [] := by
  obtain ⟨check, member⟩ := List.exists_mem_of_ne_nil _ nonempty
  obtain ⟨inside, kept⟩ := List.mem_filter.mp member
  exact List.ne_nil_of_mem
    (List.mem_filter.mpr ⟨inserted.mem_iff.mpr (List.mem_cons_of_mem failed inside), kept⟩)

variable (monitor) (inserted : others.Perm (failed :: checks)) (unmeasured : failed.2.latencyMs = none)
include inserted unmeasured

theorem mean_filter_inserted (keep : Check → Bool) :
    mean (latenciesOf (others.filter keep)) = mean (latenciesOf (checks.filter keep)) ↔
      (keep failed = true → MeanKept (latenciesOf (checks.filter keep))) := by
  by_cases kept : keep failed = true
  · rw [mean_inserted (filter_inserted inserted kept) unmeasured]
    exact (imp_iff_right kept).symm
  · exact iff_of_true (mean_perm ((filter_not_inserted inserted kept).map _))
      fun there => absurd there kept

theorem percentile_filter_inserted {keep : Check → Bool} (nonempty : checks.filter keep ≠ []) {p : ℚ}
    (positive : 0 < p) (bound : p ≤ 1) :
    percentile (orderBy id (latenciesOf (others.filter keep))) p =
      percentile (orderBy id (latenciesOf (checks.filter keep))) p ↔
      (keep failed = true → RankKept p (latenciesOf (checks.filter keep))) := by
  by_cases kept : keep failed = true
  · rw [percentile_inserted (filter_inserted inserted kept) unmeasured nonempty positive bound]
    exact (imp_iff_right kept).symm
  · exact iff_of_true (percentile_perm p ((filter_not_inserted inserted kept).map _))
      fun there => absurd there kept

theorem stats_inserted :
    (∀ answer, stats (recorded monitor checks) = some answer →
      ∃ other, stats (recorded monitor others) = some other ∧
        other.avgLatency = answer.avgLatency ∧ other.p50 = answer.p50 ∧ other.p95 = answer.p95 ∧
        other.p99 = answer.p99) ↔
    (checks ≠ [] → MeanKept (latenciesOf checks) ∧ RankKept (50 / 100) (latenciesOf checks) ∧
      RankKept (95 / 100) (latenciesOf checks) ∧ RankKept (99 / 100) (latenciesOf checks)) := by
  have present : others ≠ [] := by
    intro empty
    rw [empty] at inserted
    exact List.cons_ne_nil _ _ (List.nil_perm.mp inserted)
  obtain ⟨other, there, mean, p50, p95, p99⟩ := stats_recorded monitor present
  have means := mean_inserted inserted unmeasured
  by_cases nonempty : checks = []
  · subst nonempty
    exact iff_of_true (fun _ answered => by contradiction) fun none => absurd rfl none
  · obtain ⟨answer, here, meanHere, p50Here, p95Here, p99Here⟩ :=
      stats_recorded monitor nonempty
    have figures : (other.avgLatency = answer.avgLatency ∧ other.p50 = answer.p50 ∧
        other.p95 = answer.p95 ∧ other.p99 = answer.p99) ↔
        MeanKept (latenciesOf checks) ∧ RankKept (50 / 100) (latenciesOf checks) ∧
          RankKept (95 / 100) (latenciesOf checks) ∧ RankKept (99 / 100) (latenciesOf checks) := by
      rw [mean, p50, p95, p99, meanHere, p50Here, p95Here, p99Here, means,
        percentile_inserted inserted unmeasured nonempty (by norm_num) (by norm_num),
        percentile_inserted inserted unmeasured nonempty (by norm_num) (by norm_num),
        percentile_inserted inserted unmeasured nonempty (by norm_num) (by norm_num)]
    rw [here, there]
    constructor
    · intro same _
      obtain ⟨found, shown, equal⟩ := same answer rfl
      cases shown
      exact figures.mp equal
    · intro kept found shown
      cases shown
      exact ⟨other, rfl, figures.mpr (kept nonempty)⟩

theorem entryOf_inserted {region : String} (nonempty : checksOf region checks ≠ []) :
    ((entryOf monitor region others).avgLatency = (entryOf monitor region checks).avgLatency ∧
      (entryOf monitor region others).p95Latency = (entryOf monitor region checks).p95Latency) ↔
    (failed.1 = region → MeanKept (latenciesOf (checksOf region checks)) ∧
      RankKept (95 / 100) (latenciesOf (checksOf region checks))) := by
  have means := mean_filter_inserted inserted unmeasured fun check => check.1 = region
  have ranks := percentile_filter_inserted inserted unmeasured nonempty (p := 95 / 100)
    (by norm_num) (by norm_num)
  rw [(entryOf_figures monitor region others).1, (entryOf_figures monitor region others).2,
    (entryOf_figures monitor region checks).1, (entryOf_figures monitor region checks).2]
  rw [checksOf, checksOf, means, ranks, decide_eq_true_eq, imp_and]

theorem regions_inserted :
    (∀ entry ∈ regionSummary (recorded monitor checks),
      Measured (checksOf entry.region checks) →
      ∃ other ∈ regionSummary (recorded monitor others), other.region = entry.region ∧
        other.avgLatency = entry.avgLatency ∧ other.p95Latency = entry.p95Latency) ↔
    (isNullOrWhiteSpace failed.1 = false → Measured (checksOf failed.1 checks) →
      MeanKept (latenciesOf (checksOf failed.1 checks)) ∧
        RankKept (95 / 100) (latenciesOf (checksOf failed.1 checks))) := by
  constructor
  · intro same named measured
    have listed : entryOf monitor failed.1 checks ∈ regionSummary (recorded monitor checks) :=
      mem_regionSummary_recorded.mpr ⟨named, measured.ne_nil, rfl⟩
    obtain ⟨other, there, region, figures⟩ := same _ listed measured
    have shape := (mem_regionSummary_recorded.mp there).2.2
    rw [region] at shape
    rw [shape] at figures
    exact (entryOf_inserted monitor inserted unmeasured measured.ne_nil).mp figures rfl
  · intro kept entry listed measured
    obtain ⟨named, nonempty, shape⟩ := mem_regionSummary_recorded.mp listed
    have there : entryOf monitor entry.region others ∈ regionSummary (recorded monitor others) :=
      mem_regionSummary_recorded.mpr ⟨named, filter_ne_nil inserted nonempty, rfl⟩
    have figures := (entryOf_inserted monitor inserted unmeasured nonempty).mpr fun same => by
      rw [same] at kept
      exact kept named measured
    rw [← shape] at figures
    exact ⟨_, there, rfl, figures⟩

theorem pointOf_inserted (bucket : Nat) (region : String) (x : DateTime) :
    (pointOf bucket monitor region x others).y = (pointOf bucket monitor region x checks).y ↔
    (truncateToBucket failed.2.checkedAt bucket = x ∧ failed.1 = region →
      MeanKept (latenciesOf (checksAt bucket x (checksOf region checks)))) := by
  have means := mean_filter_inserted inserted unmeasured fun check =>
    decide (truncateToBucket check.2.checkedAt bucket = x) && decide (check.1 = region)
  rw [pointOf_y, pointOf_y, checksAt, checksAt, checksOf, checksOf, List.filter_filter,
    List.filter_filter, means, Bool.and_eq_true, decide_eq_true_eq, decide_eq_true_eq]

theorem points_inserted (bucket : Nat) :
    (∀ series ∈ latencyData bucket (recorded monitor checks), ∀ entry ∈ series.data,
      Measured (checksAt bucket entry.x (checksOf series.name checks)) →
      ∃ other ∈ latencyData bucket (recorded monitor others), other.name = series.name ∧
        ∃ there ∈ other.data, there.x = entry.x ∧ there.y = entry.y) ↔
    (isNullOrWhiteSpace failed.1 = false →
      Measured (checksAt bucket (truncateToBucket failed.2.checkedAt bucket)
        (checksOf failed.1 checks)) →
      MeanKept (latenciesOf (checksAt bucket (truncateToBucket failed.2.checkedAt bucket)
        (checksOf failed.1 checks)))) := by
  constructor
  · intro same named measured
    have ⟨check, member, _⟩ := measured
    have present : checksOf failed.1 checks ≠ [] := List.ne_nil_of_mem (List.mem_of_mem_filter member)
    have drawn : (⟨failed.1, points bucket (ofRegion failed.1 (recorded monitor checks))⟩ : LatencySeries) ∈
        latencyData bucket (recorded monitor checks) :=
      mem_latencyData_recorded.mpr ⟨named, present, rfl⟩
    have placed := mem_points_recorded.mpr
      ⟨measured.ne_nil, (rfl : pointOf bucket monitor failed.1 _ checks = _)⟩
    obtain ⟨other, listed, name, there, inside, time, figure⟩ := same _ drawn _ placed measured
    rw [(mem_latencyData_recorded.mp listed).2.2, name] at inside
    have shape := (mem_points_recorded.mp inside).2
    rw [time] at shape
    rw [shape] at figure
    exact (pointOf_inserted monitor inserted unmeasured bucket failed.1 _).mp figure ⟨rfl, rfl⟩
  · intro kept series listed entry placed measured
    obtain ⟨named, present, data⟩ := mem_latencyData_recorded.mp listed
    rw [data] at placed
    obtain ⟨nonempty, shape⟩ := mem_points_recorded.mp placed
    have drawn : (⟨series.name, points bucket (ofRegion series.name (recorded monitor others))⟩ :
        LatencySeries) ∈ latencyData bucket (recorded monitor others) :=
      mem_latencyData_recorded.mpr ⟨named, filter_ne_nil inserted present, rfl⟩
    have figure := (pointOf_inserted monitor inserted unmeasured bucket series.name entry.x).mpr
      fun same => by
        rw [same.1, same.2] at kept
        exact kept named measured
    rw [← shape] at figure
    have there : pointOf bucket monitor series.name entry.x others ∈
        points bucket (ofRegion series.name (recorded monitor others)) := by
      refine mem_points_recorded.mpr ⟨?_, rfl⟩
      rw [checksAt, checksOf, List.filter_filter] at nonempty ⊢
      exact filter_ne_nil inserted nonempty
    exact ⟨_, drawn, rfl, _, there, rfl, figure⟩

end Recorded

/-- A check without a latency leaves all figures about latencies alone exactly when the
means and ranks it enters into are so placed that its zero does not move them. -/
theorem unmeasured_ignored_iff (bucket : Nat) (monitor : UrlMonitor) (before after : List Check)
    (failed : Check) (unmeasured : failed.2.latencyMs = none) :
    let checks := before ++ after
    let inRegion := checksOf failed.1 checks
    let inBucket := checksAt bucket (truncateToBucket failed.2.checkedAt bucket) inRegion
    SameFigures bucket monitor checks (before ++ failed :: after) ↔
      (checks ≠ [] → MeanKept (latenciesOf checks) ∧ RankKept (50 / 100) (latenciesOf checks) ∧
        RankKept (95 / 100) (latenciesOf checks) ∧ RankKept (99 / 100) (latenciesOf checks)) ∧
      (isNullOrWhiteSpace failed.1 = false → Measured inRegion →
        MeanKept (latenciesOf inRegion) ∧ RankKept (95 / 100) (latenciesOf inRegion)) ∧
      (isNullOrWhiteSpace failed.1 = false → Measured inBucket →
        MeanKept (latenciesOf inBucket)) := by
  intro checks inRegion inBucket
  have inserted : (before ++ failed :: after).Perm (failed :: checks) := List.perm_middle
  constructor
  · intro same
    exact ⟨(stats_inserted monitor inserted unmeasured).mp same.stats,
      (regions_inserted monitor inserted unmeasured).mp same.regions,
      (points_inserted monitor inserted unmeasured bucket).mp same.points⟩
  · intro kept
    exact ⟨(stats_inserted monitor inserted unmeasured).mpr kept.1,
      (regions_inserted monitor inserted unmeasured).mpr kept.2.1,
      (points_inserted monitor inserted unmeasured bucket).mpr kept.2.2⟩

/-- One answer after 100 ms, and then a time-out. -/
def answered : Check :=
  ("eastus2", { isUp := true, latencyMs := some 100, checkedAt := 10, statusCode := 200 })

def timedOut : Check :=
  ("eastus2", { isUp := false, latencyMs := none, checkedAt := 20, statusCode := 0 })

theorem unmeasured_ignored_iff_timedOut :
    ¬ SameFigures 15 { createdAt := 0 } [answered] [answered, timedOut] := by
  intro same
  have kept := ((unmeasured_ignored_iff 15 { createdAt := 0 } [answered] [] timedOut rfl).mp same).1
  exact absurd (kept (List.cons_ne_nil _ _)).1 (by unfold MeanKept; decide)

/-- The average of the two is 50 ms. -/
theorem not_unmeasured_ignored_timedOut : ¬ ∀ (bucket : Nat) (monitor : UrlMonitor)
    (before after : List Check) (failed : Check), failed.2.latencyMs = none →
    SameFigures bucket monitor (before ++ after) (before ++ failed :: after) := by
  intro ignored
  have same := ignored 15 { createdAt := 0 } [answered] [] timedOut rfl
  obtain ⟨answer, here, averageHere, -⟩ :=
    stats_recorded { createdAt := 0 } (List.cons_ne_nil answered [])
  obtain ⟨other, there, averageThere, -⟩ :=
    stats_recorded { createdAt := 0 } (List.cons_ne_nil answered [timedOut])
  obtain ⟨found, shown, equal, -⟩ := same.stats answer here
  cases there.symm.trans shown
  rw [averageHere, averageThere] at equal
  exact absurd equal (by decide)

end UrlPulse.Web.Analytics
