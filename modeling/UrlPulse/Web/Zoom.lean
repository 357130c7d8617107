import UrlPulse.Web.Regional

namespace UrlPulse.Web.Analytics

open UrlPulse.Core UrlPulse.Infrastructure UrlPulse.Data.Linq UrlPulse.Data.Statistics

/-! # Zooming

Two ranges show the same checks in points of different widths.  Each width divides the
wider ones, so a wide point is what the narrow points inside it add up to.
-/

variable {fine coarse : Nat} {region : String} {x : DateTime} {rows : List LatencyHistory}

/-! ## Widths -/

/-- The widths of the points, in minutes. -/
def bucketMinutes : List Nat := [1, 5, 15, 60, 360]

theorem getBucketSize_mem (range : String) :
    ∃ minutes ∈ bucketMinutes, getBucketSize range = TimeSpan.fromMinutes minutes := by
  unfold getBucketSize
  split
  · exact ⟨1, by decide, rfl⟩
  split
  · exact ⟨5, by decide, rfl⟩
  split
  · exact ⟨15, by decide, rfl⟩
  split
  · exact ⟨60, by decide, rfl⟩
  split
  · exact ⟨360, by decide, rfl⟩
  · exact ⟨15, by decide, rfl⟩

theorem bucketMinutes_dvd :
    ∀ narrow ∈ bucketMinutes, ∀ wide ∈ bucketMinutes, narrow ≤ wide → narrow ∣ wide := by decide

theorem getBucketSize_dvd {fineRange coarseRange : String}
    (narrower : getBucketSize fineRange ≤ getBucketSize coarseRange) :
    getBucketSize fineRange ∣ getBucketSize coarseRange := by
  obtain ⟨narrow, narrowIn, narrowSize⟩ := getBucketSize_mem fineRange
  obtain ⟨wide, wideIn, wideSize⟩ := getBucketSize_mem coarseRange
  have ticks : ∀ minutes, TimeSpan.fromMinutes minutes = minutes * TimeSpan.fromMinutes 1 := by
    intro minutes
    simp only [TimeSpan.fromMinutes, TimeSpan.fromSeconds, Nat.mul_assoc, Nat.one_mul]
  have positive : 0 < TimeSpan.fromMinutes 1 := by decide
  rw [narrowSize, wideSize, ticks narrow, ticks wide] at narrower ⊢
  have order := Nat.le_of_mul_le_mul_right narrower positive
  exact Nat.mul_dvd_mul_right (bucketMinutes_dvd narrow narrowIn wide wideIn order) _

/-! ## The points of an interval -/

theorem interval_eq_filter (bucket : Nat) (region : String) (x : DateTime) (rows : List LatencyHistory) :
    interval bucket region x rows =
      (ofRegion region rows).filter fun row => x ≤ row.checkedAt ∧ row.checkedAt < x + bucket := by
  rw [ofRegion, List.filter_filter, interval]
  apply List.filter_congr
  intro row _
  by_cases same : row.region = region <;> simp [same]

/-- A narrow bucket lies in a wide one, or outside of it. -/
theorem truncate_inside_iff (positive : 0 < fine) (divides : fine ∣ coarse) (multiple : coarse ∣ x)
    (dt : DateTime) : (x ≤ truncateToBucket dt fine ∧ truncateToBucket dt fine < x + coarse) ↔
      x ≤ dt ∧ dt < x + coarse := by
  have startMultiple : fine ∣ x := divides.trans multiple
  have endMultiple : fine ∣ x + coarse := startMultiple.add divides
  have truncated := dvd_truncateToBucket dt fine
  obtain ⟨below, above⟩ := (truncateToBucket_eq_iff positive truncated).mp rfl
  constructor
  · intro inside
    refine ⟨inside.1.trans below, ?_⟩
    by_contra outside
    have next := Nat.le_of_lt_add_of_dvd ((not_lt.mp outside).trans_lt above) endMultiple truncated
    exact absurd inside.2 (not_lt.mpr next)
  · intro inside
    exact ⟨Nat.le_of_lt_add_of_dvd (inside.1.trans_lt above) startMultiple truncated,
      below.trans_lt inside.2⟩

/-- The narrow points in an interval are the points of the rows in it. -/
theorem mem_points_interval (positive : 0 < fine) (divides : fine ∣ coarse) (multiple : coarse ∣ x)
    {point : LatencyPoint} : point ∈ points fine (interval coarse region x rows) ↔
      point ∈ points fine (ofRegion region rows) ∧ x ≤ point.x ∧ point.x < x + coarse := by
  have inside := truncate_inside_iff positive divides multiple
  have sameRows : x ≤ point.x ∧ point.x < x + coarse →
      ((interval coarse region x rows).filter fun h => truncateToBucket h.checkedAt fine = point.x) =
        (ofRegion region rows).filter fun h => truncateToBucket h.checkedAt fine = point.x := by
    intro placed
    rw [interval_eq_filter, List.filter_filter]
    apply List.filter_congr
    intro row _
    by_cases truncated : truncateToBucket row.checkedAt fine = point.x
    · have within := (inside row.checkedAt).mp (truncated ▸ placed)
      simp [truncated, within.1, within.2]
    · simp [truncated]
  rw [mem_points, mem_points]
  constructor
  · intro described
    obtain ⟨⟨row, selected, truncated⟩, shape⟩ := described
    rw [interval_eq_filter] at selected
    obtain ⟨inRegion, within⟩ := List.mem_filter.mp selected
    have placed : x ≤ point.x ∧ point.x < x + coarse := by
      rw [← truncated]
      exact (inside row.checkedAt).mpr (of_decide_eq_true within)
    rw [sameRows placed] at shape
    exact ⟨⟨⟨row, inRegion, truncated⟩, shape⟩, placed⟩
  · intro described
    obtain ⟨⟨⟨row, inRegion, truncated⟩, shape⟩, placed⟩ := described
    have within := (inside row.checkedAt).mp (truncated ▸ placed)
    rw [sameRows placed]
    refine ⟨⟨row, ?_, truncated⟩, shape⟩
    rw [interval_eq_filter]
    exact List.mem_filter.mpr ⟨inRegion, decide_eq_true within⟩

theorem points_interval_perm (positive : 0 < fine) (divides : fine ∣ coarse) (multiple : coarse ∣ x)
    (region : String) (rows : List LatencyHistory) :
    (points fine (interval coarse region x rows)).Perm
      ((points fine (ofRegion region rows)).filter fun point => x ≤ point.x ∧ point.x < x + coarse) := by
  have nodup : ∀ inRegion, (points fine inRegion).Nodup :=
    fun inRegion => List.Nodup.of_map (·.x) (nodup_xs fine inRegion)
  refine (List.perm_ext_iff_of_nodup (nodup _) ((nodup _).filter _)).mpr ?_
  intro point
  rw [mem_points_interval positive divides multiple, List.mem_filter, decide_eq_true_eq]

/-! ## Sums and means of points -/

theorem sum_errors_points (bucket : Nat) (inRegion : List LatencyHistory) :
    ((points bucket inRegion).map (·.errors)).sum = inRegion.countP isError := by
  rw [points, List.map_map]
  exact (sum_map_orderBy Prod.fst (fun g : DateTime × List LatencyHistory => g.2.countP isError) _).trans
    (countP_groupBy _ isError inRegion)

theorem mean_within_points (bucket : Nat) {inRegion : List LatencyHistory} (nonempty : inRegion ≠ []) :
    Within ((points bucket inRegion).map (·.y)) (truncatedAverage (inRegion.map (·.latencyMs))) := by
  have within := mean_within_groups (fun h => truncateToBucket h.checkedAt bucket) nonempty
  have sorted := (orderBy_perm Prod.fst (groupBy (fun h => truncateToBucket h.checkedAt bucket)
    inRegion)).map fun g => mean (latencies g.2)
  rw [points, List.map_map]
  exact within.perm sorted.symm

/-! ## One point and the points inside it -/

section Points

variable {wideRows narrowRows : List LatencyHistory} {point : LatencyPoint}

theorem wide_point (positive : 0 < fine) (widePositive : 0 < coarse) (divides : fine ∣ coarse)
    (member : point ∈ points coarse (ofRegion region wideRows))
    (sameRows : interval coarse region point.x wideRows = interval coarse region point.x narrowRows) :
    let inside := (points fine (ofRegion region narrowRows)).filter fun other =>
      point.x ≤ other.x ∧ other.x < point.x + coarse
    inside ≠ [] ∧ point.errors = (inside.map (·.errors)).sum ∧ Within (inside.map (·.y)) point.y := by
  intro inside
  have multiple := dvd_of_mem_points member
  obtain ⟨occupied, shape⟩ := point_interval widePositive member
  rw [sameRows] at occupied shape
  have parts : (points fine (interval coarse region point.x narrowRows)).Perm inside :=
    points_interval_perm positive divides multiple region narrowRows
  have within := (mean_within_points fine occupied).perm (parts.map (·.y))
  refine ⟨?_, ?_, ?_⟩
  · intro none
    rw [none] at within
    obtain ⟨low, lowIn, -⟩ := within.1
    contradiction
  · rw [← (parts.map (·.errors)).sum_nat, sum_errors_points]
    exact congrArg (·.errors) shape
  · have average : point.y = truncatedAverage
        ((interval coarse region point.x narrowRows).map (·.latencyMs)) := congrArg (·.y) shape
    rw [average]
    exact within

theorem narrow_point (positive : 0 < fine) (widePositive : 0 < coarse) (divides : fine ∣ coarse)
    (member : point ∈ points fine (ofRegion region narrowRows))
    (sameRows : interval coarse region (truncateToBucket point.x coarse) wideRows =
      interval coarse region (truncateToBucket point.x coarse) narrowRows) :
    (∃ row ∈ wideRows, row.region = region) ∧
    ∃! wide, wide ∈ points coarse (ofRegion region wideRows) ∧
      wide.x ≤ point.x ∧ point.x < wide.x + coarse := by
  let x := truncateToBucket point.x coarse
  have multiple : coarse ∣ x := dvd_truncateToBucket point.x coarse
  have placed : x ≤ point.x ∧ point.x < x + coarse :=
    (truncateToBucket_eq_iff widePositive multiple).mp rfl
  obtain ⟨row, selected, truncated⟩ := (mem_points.mp member).1
  have within : x ≤ row.checkedAt ∧ row.checkedAt < x + coarse :=
    (truncate_inside_iff positive divides multiple row.checkedAt).mp (truncated ▸ placed)
  have counted : row ∈ interval coarse region x wideRows := by
    rw [sameRows, interval_eq_filter]
    exact List.mem_filter.mpr ⟨selected, decide_eq_true within⟩
  rw [interval_eq_filter] at counted
  have inRegion := List.mem_of_mem_filter counted
  obtain ⟨inWindow, named⟩ := List.mem_filter.mp inRegion
  refine ⟨⟨row, inWindow, of_decide_eq_true named⟩, ?_⟩
  let wide := Analytics.point
    (x, (ofRegion region wideRows).filter fun h => truncateToBucket h.checkedAt coarse = x)
  have occupied : truncateToBucket row.checkedAt coarse = x :=
    (truncateToBucket_eq_iff widePositive multiple).mpr within
  refine ⟨wide, ⟨mem_points.mpr ⟨⟨row, inRegion, occupied⟩, rfl⟩, placed⟩, ?_⟩
  intro other candidate
  obtain ⟨listed, around⟩ := candidate
  have sameX : x = other.x := (truncateToBucket_eq_iff widePositive (dvd_of_mem_points listed)).mpr around
  rw [(mem_points.mp listed).2, ← sameX]

end Points

/-! ## Two ranges -/

def seriesOf (bucket : Nat) (region : String) (rows : List LatencyHistory) : LatencySeries where
  name := region
  data := points bucket (ofRegion region rows)

theorem exists_row_of_mem_points {bucket : Nat} {point : LatencyPoint}
    (member : point ∈ points bucket (ofRegion region rows)) : ∃ row ∈ rows, row.region = region := by
  obtain ⟨row, selected, -⟩ := (mem_points.mp member).1
  obtain ⟨stored, named⟩ := List.mem_filter.mp selected
  exact ⟨row, stored, of_decide_eq_true named⟩

theorem interval_windowRows (bucket : Nat) (region : String) {since other : Int}
    (context : ApplicationDbContext) (store : Store) (monitorId : Int) (started : since ≤ x) (otherStarted : other ≤ x) :
    interval bucket region x (windowRows context store monitorId since) =
      interval bucket region x (windowRows context store monitorId other) := by
  rw [interval, interval, windowRows, windowRows, List.filter_filter, List.filter_filter]
  apply List.filter_congr
  intro row _
  by_cases after : x ≤ row.checkedAt
  · have first : since ≤ (row.checkedAt : Int) := started.trans (Int.ofNat_le.mpr after)
    have second : other ≤ (row.checkedAt : Int) := otherStarted.trans (Int.ofNat_le.mpr after)
    simp [first, second]
  · simp [after]

/-- Two charts of one monitor from the same tables agree, whatever their ranges and clocks:
where both windows cover a point of the one with the wider points, its errors
are those of the narrow points inside it, its mean lies between theirs, and
each narrow point is inside exactly one wide one. -/
theorem zoom_consistent (context : ApplicationDbContext) (store : Store) (monitorId : Int)
    (fineNow coarseNow : DateTime) (fineRange coarseRange : String)
    (narrower : getBucketSize fineRange ≤ getBucketSize coarseRange) :
    let wide := onGetLatencyDataAsync context store coarseNow monitorId coarseRange
    let narrow := onGetLatencyDataAsync context store fineNow monitorId fineRange
    let covered := fun x : DateTime =>
      parseRange coarseNow coarseRange ≤ x ∧ parseRange fineNow fineRange ≤ x
    (∀ series ∈ wide, ∀ point ∈ series.data, covered point.x →
      ∃ zoomed ∈ narrow, zoomed.name = series.name ∧
        let inside := zoomed.data.filter fun other =>
          point.x ≤ other.x ∧ other.x < point.x + getBucketSize coarseRange
        inside ≠ [] ∧ point.errors = (inside.map (·.errors)).sum ∧
          Within (inside.map (·.y)) point.y) ∧
    ∀ zoomed ∈ narrow, ∀ point ∈ zoomed.data,
      covered (truncateToBucket point.x (getBucketSize coarseRange)) →
      ∃ series ∈ wide, series.name = zoomed.name ∧
        ∃! other, other ∈ series.data ∧ other.x ≤ point.x ∧
          point.x < other.x + getBucketSize coarseRange := by
  intro wide narrow covered
  have positive := (range_in_buckets fineRange).1
  have widePositive := (range_in_buckets coarseRange).1
  have divides := getBucketSize_dvd narrower
  let fine := getBucketSize fineRange
  let coarse := getBucketSize coarseRange
  constructor
  · intro series listed point member both
    obtain ⟨notBlank, -, shape⟩ := mem_latencyData.mp listed
    rw [shape] at member
    have sameRows := interval_windowRows (getBucketSize coarseRange) series.name
      context store monitorId both.1 both.2
    have parts := wide_point positive widePositive divides member sameRows
    obtain ⟨first, inside⟩ := List.exists_mem_of_ne_nil _ parts.1
    have present := exists_row_of_mem_points (List.mem_of_mem_filter inside)
    exact ⟨seriesOf fine series.name _, mem_latencyData.mpr ⟨notBlank, present, rfl⟩, rfl, parts⟩
  · intro zoomed listed point member both
    obtain ⟨notBlank, -, shape⟩ := mem_latencyData.mp listed
    rw [shape] at member
    have sameRows := interval_windowRows (getBucketSize coarseRange) zoomed.name
      context store monitorId both.1 both.2
    obtain ⟨present, unique⟩ := narrow_point positive widePositive divides member sameRows
    exact ⟨seriesOf coarse zoomed.name _, mem_latencyData.mpr ⟨notBlank, present, rfl⟩, rfl, unique⟩

/-- Three checks of Alice's monitor within five minutes, the second one failed. -/
def fiveMinutes : Store where
  urlMonitors := [{ id := 1, ownerId := "alice", url := "https://a.example", createdAt := 10 }]
  latencyHistories :=
    [{ id := 1, urlMonitorId := 1, checkedAt := TimeSpan.fromMinutes 90, latencyMs := 30
       statusCode := 200, region := "eastus" },
      { id := 2, urlMonitorId := 1, checkedAt := TimeSpan.fromMinutes 92, latencyMs := 70
        statusCode := 503, region := "eastus" },
      { id := 3, urlMonitorId := 1, checkedAt := TimeSpan.fromMinutes 94, latencyMs := 20
        statusCode := 200, region := "eastus" }]
  nextMonitorId := 2
  nextHistoryId := 4

theorem zoom_consistent_fiveMinutes :
    let alice : ApplicationDbContext := { currentUserId := some "alice" }
    let now := TimeSpan.fromMinutes 100
    let point : LatencyPoint := { x := TimeSpan.fromMinutes 90, y := 40, errors := 1 }
    ∃ series ∈ onGetLatencyDataAsync alice fiveMinutes now 1 "6h", series.data = [point] ∧
      ∃ zoomed ∈ onGetLatencyDataAsync alice fiveMinutes now 1 "1h",
        let inside := zoomed.data.filter fun other =>
          point.x ≤ other.x ∧ other.x < point.x + getBucketSize "6h"
        inside ≠ [] ∧ point.errors = (inside.map (·.errors)).sum ∧
          Within (inside.map (·.y)) point.y := by
  intro alice now point
  let series : LatencySeries := { name := "eastus", data := [point] }
  have listed : series ∈ onGetLatencyDataAsync alice fiveMinutes now 1 "6h" := by decide
  obtain ⟨zoomed, zoomedListed, -, sums⟩ :=
    (zoom_consistent alice fiveMinutes 1 now now "1h" "6h" (by decide)).1 series listed point
      List.mem_cons_self (by decide)
  exact ⟨series, listed, rfl, zoomed, zoomedListed, sums⟩

end UrlPulse.Web.Analytics
