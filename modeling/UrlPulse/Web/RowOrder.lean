import UrlPulse.Web.AnalyticsPage
import UrlPulse.Web.Reconciliation
import UrlPulse.Web.Regional

namespace UrlPulse.Web.AnalyticsPage

open UrlPulse.Core UrlPulse.Data.Linq UrlPulse.Web.Analytics

/-! # Rows in any order

The database returns the rows of a window in no order that matters: groups and
the server's own sort do follow it, what the page draws does not.
-/

/-! ## The place of a region -/

section Rank

variable {values : List String} {name other : String}

theorem indexOf_of_mem (listed : name ∈ values) :
    ∃ index : Nat, indexOf values name = index ∧ values[index]? = some name := by
  cases found : values.findIdx? (· = name) with
  | none =>
      have absent := List.findIdx?_eq_none_iff.mp found name listed
      simp at absent
  | some index =>
      refine ⟨index, by simp only [indexOf, found], ?_⟩
      obtain ⟨inside, matched, -⟩ := List.findIdx?_eq_some_iff_getElem.mp found
      rw [List.getElem?_eq_getElem inside, of_decide_eq_true matched]

theorem indexOf_of_not_mem (unlisted : name ∉ values) : indexOf values name = -1 := by
  have absent : values.findIdx? (· = name) = none := by
    refine List.findIdx?_eq_none_iff.mpr ?_
    intro value inside
    exact decide_eq_false fun same => unlisted (same ▸ inside)
  simp only [indexOf, absent]

theorem regionRank_of_mem (listed : name ∈ regionOrder) :
    ∃ index : Nat, regionRank name = index ∧ regionOrder[index]? = some name := by
  obtain ⟨index, computed, element⟩ := indexOf_of_mem listed
  refine ⟨index, ?_, element⟩
  rw [regionRank, computed, if_neg (by omega)]

theorem regionRank_of_not_mem (unlisted : name ∉ regionOrder) : regionRank name = 999 := by
  rw [regionRank, if_pos (indexOf_of_not_mem unlisted)]

theorem regionRank_lt_of_mem (listed : name ∈ regionOrder) : regionRank name < 999 := by
  obtain ⟨index, rank, element⟩ := regionRank_of_mem listed
  have inside : index < 5 := (List.getElem?_eq_some_iff.mp element).1
  omega

/-- Two regions share a place only where both are unknown to the page. -/
theorem eq_of_regionRank (sameRank : regionRank name = regionRank other)
    (single : name ∉ regionOrder → other ∉ regionOrder → name = other) : name = other := by
  by_cases listed : name ∈ regionOrder
  · have below := regionRank_lt_of_mem listed
    by_cases otherListed : other ∈ regionOrder
    · obtain ⟨index, rank, element⟩ := regionRank_of_mem listed
      obtain ⟨otherIndex, otherRank, otherElement⟩ := regionRank_of_mem otherListed
      have sameIndex : index = otherIndex := by omega
      rw [sameIndex, otherElement] at element
      exact (Option.some.inj element).symm
    · have unknown := regionRank_of_not_mem otherListed
      omega
  · have unknown := regionRank_of_not_mem listed
    by_cases otherListed : other ∈ regionOrder
    · have below := regionRank_lt_of_mem otherListed
      omega
    · exact single listed otherListed

end Rank

/-! ## The four answers -/

variable {rows others : List LatencyHistory}

theorem stats_perm (same : rows.Perm others) : stats rows = stats others := by
  have sorted : orderBy id (rows.map (·.latencyMs)) = orderBy id (others.map (·.latencyMs)) :=
    orderBy_eq_of_perm (same.map _) fun _ _ _ _ => id
  simp only [stats, successCount, sorted, same.countP_eq, same.length_eq]

theorem statusDistribution_eq_of_perm (same : rows.Perm others) :
    statusDistribution rows = statusDistribution others := by
  have grouped := groupBy_map_perm statusLabel (same.map (·.statusCode))
    (f := fun g => StatusCount.mk g.1 g.2.length) fun label _ _ reordered => by
      rw [reordered.length_eq]
  have labels := nodup_labels rows
  rw [((statusDistribution_perm rows).map (·.label)).nodup_iff] at labels
  refine orderBy_eq_of_perm grouped ?_
  intro left leftIn right rightIn sameLabel
  exact List.inj_on_of_nodup_map labels leftIn rightIn sameLabel

/-- At most one region that is not blank is unknown to the page. -/
def OneUnknown (rows : List LatencyHistory) : Prop :=
  ∀ row ∈ rows, ∀ other ∈ rows, isNullOrWhiteSpace row.region = false →
    isNullOrWhiteSpace other.region = false → row.region ∉ regionOrder →
      other.region ∉ regionOrder → row.region = other.region

section OneUnknown

variable (single : OneUnknown rows) (same : rows.Perm others)
include single same

theorem regionData_perm :
    regionData (regionSummary rows) = regionData (regionSummary others) := by
  refine orderBy_eq_of_nodup (regionSummary_perm same) (nodup_regions rows) ?_
  intro left leftIn right rightIn sameRank
  obtain ⟨named, ⟨row, inWindow, region⟩, -⟩ := mem_regionSummary.mp leftIn
  obtain ⟨otherNamed, ⟨other, otherInWindow, otherRegion⟩, -⟩ := mem_regionSummary.mp rightIn
  rw [← region] at named sameRank ⊢
  rw [← otherRegion] at otherNamed sameRank ⊢
  exact eq_of_regionRank sameRank (single row inWindow other otherInWindow named otherNamed)

theorem latencyData_sorted_perm (bucket : Nat) :
    orderBy (fun s => regionRank s.name) (latencyData bucket rows) =
      orderBy (fun s => regionRank s.name) (latencyData bucket others) := by
  refine orderBy_eq_of_nodup (latencyData_perm bucket same) (nodup_names bucket rows) ?_
  intro left leftIn right rightIn sameRank
  obtain ⟨named, ⟨row, inWindow, region⟩, -⟩ := mem_latencyData.mp leftIn
  obtain ⟨otherNamed, ⟨other, otherInWindow, otherRegion⟩, -⟩ := mem_latencyData.mp rightIn
  rw [← region] at named sameRank ⊢
  rw [← otherRegion] at otherNamed sameRank ⊢
  exact eq_of_regionRank sameRank (single row inWindow other otherInWindow named otherNamed)

end OneUnknown

/-- The page sorts what it has made of the series as it would sort the series. -/
theorem apexSeries_eq (series : List LatencySeries) :
    apexSeries series = (orderBy (fun s => regionRank s.name) series).map apexSeriesOf :=
  (map_orderBy apexSeriesOf (fun s => regionRank s.name) series).symm

/-- Nothing the page shows depends on the order the rows of the window come in. -/
theorem shown_order_independent (bucket : Nat) (rows others : List LatencyHistory)
    (same : rows.Perm others) (single : OneUnknown rows) :
    stats rows = stats others ∧
      statusDistribution rows = statusDistribution others ∧
      regionData (regionSummary rows) = regionData (regionSummary others) ∧
      orderBy (fun s => regionRank s.name) (latencyData bucket rows) =
        orderBy (fun s => regionRank s.name) (latencyData bucket others) ∧
      apexSeries (latencyData bucket rows) = apexSeries (latencyData bucket others) := by
  have sorted := latencyData_sorted_perm single same bucket
  refine ⟨stats_perm same, statusDistribution_eq_of_perm same, regionData_perm single same, sorted, ?_⟩
  rw [apexSeries_eq, apexSeries_eq, sorted]

/-- Two regions with one average, one of them unknown to the page. -/
def tiedRegions : List LatencyHistory :=
  [{ checkedAt := 10, latencyMs := 40, statusCode := 200, region := "uksouth" },
    { checkedAt := 10, latencyMs := 40, statusCode := 503, region := "eastus2" }]

theorem shown_order_independent_tiedRegions :
    regionSummary tiedRegions ≠ regionSummary tiedRegions.reverse ∧
      regionData (regionSummary tiedRegions) = regionData (regionSummary tiedRegions.reverse) := by
  refine ⟨by decide, ?_⟩
  have single : OneUnknown tiedRegions := by
    unfold OneUnknown
    decide
  exact (shown_order_independent 5 tiedRegions tiedRegions.reverse
    (List.reverse_perm _).symm single).2.2.1

end UrlPulse.Web.AnalyticsPage
