import UrlPulse.Web.Bucketing
import UrlPulse.Web.Percentile

namespace UrlPulse.Web.Analytics

open UrlPulse.Core UrlPulse.Data.Linq UrlPulse.Data.Statistics

/-! # The whole and its regions

The stat cards sum up all rows of a window, the regional comparison the rows of
each region, and the points of a series those of each bucket.  The figures of
the whole lie between those of its parts.
-/

variable {bucket : Nat} {rows others : List LatencyHistory}

/-- Between the least and the greatest of some figures. -/
def Within (figures : List Nat) (figure : Nat) : Prop :=
  (∃ low ∈ figures, low ≤ figure) ∧ ∃ high ∈ figures, figure ≤ high

/-! ## The entries of the comparison -/

def summary (g : String × List LatencyHistory) : RegionSummary :=
  let sorted := orderBy id (g.2.map (·.latencyMs))
  { region := g.1
    avgLatency := truncatedAverage sorted
    p95Latency := percentile sorted (95 / 100)
    successPct := round ((g.2.countP isSuccess : ℚ) / g.2.length * 100) 1
    totalChecks := g.2.length }

theorem regionSummary_eq (rows : List LatencyHistory) : regionSummary rows =
    orderBy (·.avgLatency)
      ((groupBy (·.region) (rows.filter fun h => !isNullOrWhiteSpace h.region)).map summary) :=
  rfl

theorem summary_perm (region : String) {left right : List LatencyHistory} (same : left.Perm right) :
    summary (region, left) = summary (region, right) := by
  have sorted : orderBy id (left.map (·.latencyMs)) = orderBy id (right.map (·.latencyMs)) :=
    orderBy_eq_of_perm (same.map _) fun _ _ _ _ => id
  simp only [summary, sorted, same.countP_eq, same.length_eq]

theorem regionSummary_perm (same : rows.Perm others) :
    (regionSummary rows).Perm (regionSummary others) := by
  have grouped := groupBy_map_perm (·.region)
    (same.filter fun h => !isNullOrWhiteSpace h.region)
    fun region _ _ => summary_perm region
  rw [regionSummary_eq, regionSummary_eq]
  exact (orderBy_perm _ _).trans (grouped.trans (orderBy_perm _ _).symm)

/-- One entry for each region that is not blank, about its rows. -/
theorem mem_regionSummary {entry : RegionSummary} : entry ∈ regionSummary rows ↔
    isNullOrWhiteSpace entry.region = false ∧ (∃ row ∈ rows, row.region = entry.region) ∧
      entry = summary (entry.region, ofRegion entry.region rows) := by
  rw [regionSummary_eq, mem_orderBy, List.mem_map]
  constructor
  · intro grouped
    obtain ⟨group, member, rfl⟩ := grouped
    obtain ⟨present, elements⟩ := mem_groupBy.mp member
    obtain ⟨row, inWindow, same⟩ := present
    obtain ⟨stored, named⟩ := List.mem_filter.mp inWindow
    have notBlank : isNullOrWhiteSpace group.1 = false := by
      rw [← same]
      simpa using named
    refine ⟨notBlank, ⟨row, stored, same⟩, ?_⟩
    conv_lhs => rw [← Prod.eta group, elements]
    exact congrArg (fun selected => summary (group.1, selected)) (ofRegion_named notBlank rows)
  · intro described
    obtain ⟨notBlank, present, shape⟩ := described
    obtain ⟨row, inWindow, same⟩ := present
    refine ⟨(entry.region, ofRegion entry.region
      (rows.filter fun h => !isNullOrWhiteSpace h.region)), mem_groupBy.mpr ⟨⟨row, ?_, same⟩, rfl⟩, ?_⟩
    · refine List.mem_filter.mpr ⟨inWindow, ?_⟩
      rw [same, notBlank]
      rfl
    · rw [ofRegion_named notBlank, ← shape]

theorem nodup_regions (rows : List LatencyHistory) :
    ((regionSummary rows).map (·.region)).Nodup := by
  rw [regionSummary_eq, ((orderBy_perm RegionSummary.avgLatency _).map _).nodup_iff, List.map_map]
  exact nodup_groupBy_keys LatencyHistory.region _

/-! ## Means of groups -/

section Groups

variable {κ : Type} [DecidableEq κ] (key : LatencyHistory → κ)

def latencies (rows : List LatencyHistory) : List Nat := rows.map (·.latencyMs)

theorem latencies_groupBy (rows : List LatencyHistory) :
    ((groupBy key rows).flatMap fun g => latencies g.2).Perm (latencies rows) := by
  have partition := (groupBy_perm key rows).map (·.latencyMs)
  rwa [List.map_flatMap] at partition

theorem latencies_group_ne_nil {g : κ × List LatencyHistory} (member : g ∈ groupBy key rows) :
    latencies g.2 ≠ [] := by
  obtain ⟨present, elements⟩ := mem_groupBy.mp member
  obtain ⟨row, inside, same⟩ := present
  rw [elements, latencies]
  exact List.ne_nil_of_mem (List.mem_map_of_mem
    (List.mem_filter.mpr ⟨inside, decide_eq_true same⟩))

theorem mean_within_groups (nonempty : rows ≠ []) :
    Within ((groupBy key rows).map fun g => mean (latencies g.2)) (mean (latencies rows)) := by
  have present : latencies rows ≠ [] := by simpa [latencies] using nonempty
  have occupied : ∀ g ∈ groupBy key rows, latencies g.2 ≠ [] :=
    fun g member => latencies_group_ne_nil key member
  constructor
  · obtain ⟨g, member, low⟩ := exists_mean_le (latencies_groupBy key rows) present occupied
    exact ⟨_, List.mem_map_of_mem member, low⟩
  · obtain ⟨g, member, high⟩ := exists_le_mean (latencies_groupBy key rows) present occupied
    exact ⟨_, List.mem_map_of_mem member, high⟩

theorem percentile_within_groups {p : ℚ} (positive : 0 < p) (bound : p ≤ 1) (nonempty : rows ≠ []) :
    Within ((groupBy key rows).map fun g => percentile (orderBy id (latencies g.2)) p)
      (percentile (orderBy id (latencies rows)) p) := by
  have present : latencies rows ≠ [] := by simpa [latencies] using nonempty
  have partition := latencies_groupBy key rows
  have ranked := percentile_ranked present positive bound
  have partRanked : ∀ g ∈ groupBy key rows, Ranked (nearestRank p (latencies g.2).length)
      (latencies g.2) (percentile (orderBy id (latencies g.2)) p) :=
    fun g member => percentile_ranked (latencies_group_ne_nil key member) positive bound
  have total := length_parts partition
  rw [total] at ranked
  have summed := nearestRank_sum_le p ((groupBy key rows).map fun g => (latencies g.2).length)
  have short : ((groupBy key rows).map fun g => (latencies g.2).length) ≠ [] := by
    intro none
    rw [none] at total
    exact present (List.eq_nil_of_length_eq_zero total)
  have strict := sum_nearestRank_lt positive short fun count counted => by
    obtain ⟨g, member, rfl⟩ := List.mem_map.mp counted
    exact List.length_pos_iff.mpr (latencies_group_ne_nil key member)
  rw [List.map_map] at summed strict
  constructor
  · obtain ⟨g, member, low⟩ := exists_part_le partition ranked partRanked strict
    exact ⟨_, List.mem_map_of_mem member, low⟩
  · obtain ⟨g, member, high⟩ := exists_le_part partition ranked partRanked summed
    exact ⟨_, List.mem_map_of_mem member, high⟩

end Groups

/-! ## The figures of the whole -/

theorem avgLatency_summary (g : String × List LatencyHistory) :
    (summary g).avgLatency = mean (latencies g.2) :=
  mean_perm (orderBy_perm id _)

theorem map_regionSummary_perm {α : Type} (figure : RegionSummary → α)
    (named : ∀ row ∈ rows, isNullOrWhiteSpace row.region = false) :
    ((regionSummary rows).map figure).Perm
      ((groupBy (·.region) rows).map fun g => figure (summary g)) := by
  have all : (rows.filter fun h => !isNullOrWhiteSpace h.region) = rows :=
    List.filter_eq_self.mpr fun row member => by simp [named row member]
  rw [regionSummary_eq, all]
  have sorted := (orderBy_perm (·.avgLatency) ((groupBy (·.region) rows).map summary)).map figure
  rwa [List.map_map] at sorted

theorem Within.perm {figures others : List Nat} {figure : Nat} (within : Within figures figure)
    (same : figures.Perm others) : Within others figure := by
  obtain ⟨⟨low, lowIn, below⟩, high, highIn, above⟩ := within
  exact ⟨⟨low, same.mem_iff.mp lowIn, below⟩, high, same.mem_iff.mp highIn, above⟩

theorem avgLatency_within_points {entry : RegionSummary} (listed : entry ∈ regionSummary rows) :
    Within ((points bucket (ofRegion entry.region rows)).map (·.y)) entry.avgLatency := by
  obtain ⟨-, ⟨row, inWindow, same⟩, shape⟩ := mem_regionSummary.mp listed
  have selected : row ∈ ofRegion entry.region rows :=
    List.mem_filter.mpr ⟨inWindow, decide_eq_true same⟩
  have average : entry.avgLatency = mean (latencies (ofRegion entry.region rows)) := by
    rw [shape]
    exact avgLatency_summary _
  have within := mean_within_groups (fun h => truncateToBucket h.checkedAt bucket)
    (List.ne_nil_of_mem selected)
  have sorted := (orderBy_perm Prod.fst (groupBy (fun h => truncateToBucket h.checkedAt bucket)
    (ofRegion entry.region rows))).map fun g => mean (latencies g.2)
  rw [average, points, List.map_map]
  exact within.perm sorted.symm

/-- The overall figures lie between the least and the greatest of the regions,
and a region's average between the least and the greatest point of its series. -/
theorem overall_within_regional (bucket : Nat) (rows : List LatencyHistory) (nonempty : rows ≠ [])
    (named : ∀ row ∈ rows, isNullOrWhiteSpace row.region = false) :
    ∃ answer, stats rows = some answer ∧
      Within ((regionSummary rows).map (·.p95Latency)) answer.p95 ∧
      Within ((regionSummary rows).map (·.avgLatency)) answer.avgLatency ∧
      ∀ entry ∈ regionSummary rows, ∃ series ∈ latencyData bucket rows,
        series.name = entry.region ∧ Within (series.data.map (·.y)) entry.avgLatency := by
  obtain ⟨answer, answered⟩ := stats_isSome nonempty
  obtain ⟨-, average, -, p95, -⟩ := stats_some answered
  refine ⟨answer, answered, ?p95, ?average, ?points⟩
  case p95 =>
    rw [p95]
    exact (percentile_within_groups (·.region) (by norm_num) (by norm_num) nonempty).perm
      (map_regionSummary_perm (·.p95Latency) named).symm
  case average =>
    have figures := map_regionSummary_perm (·.avgLatency) named
    simp only [avgLatency_summary] at figures
    rw [average]
    exact (mean_within_groups (·.region) nonempty).perm figures.symm
  case points =>
    intro entry listed
    obtain ⟨notBlank, present, -⟩ := mem_regionSummary.mp listed
    exact ⟨⟨entry.region, points bucket (ofRegion entry.region rows)⟩,
      mem_latencyData.mpr ⟨notBlank, present, rfl⟩, rfl, avgLatency_within_points listed⟩

/-- Two regions, one slow check among them. -/
def slowRegion : List LatencyHistory :=
  [{ checkedAt := 10, latencyMs := 30, statusCode := 200, region := "eastus2" },
    { checkedAt := 20, latencyMs := 900, statusCode := 200, region := "westus3" },
    { checkedAt := 31, latencyMs := 20, statusCode := 200, region := "eastus2" }]

theorem overall_within_regional_slowRegion :
    (regionSummary slowRegion).map (·.avgLatency) = [25, 900] ∧
    ∃ answer, stats slowRegion = some answer ∧
      Within ((regionSummary slowRegion).map (·.avgLatency)) answer.avgLatency := by
  refine ⟨by decide, ?_⟩
  obtain ⟨answer, answered, -, average, -⟩ :=
    overall_within_regional 15 slowRegion (by decide) (by decide)
  exact ⟨answer, answered, average⟩

end UrlPulse.Web.Analytics
