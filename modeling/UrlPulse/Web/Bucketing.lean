import UrlPulse.Data.Statistics
import UrlPulse.Web.Analytics

namespace UrlPulse.Web.Analytics

open UrlPulse.Core UrlPulse.Infrastructure UrlPulse.Data.Linq UrlPulse.Data.Statistics

/-! # Series and points

The latency data is a partition of the window's rows with a region, first by
region and then by time bucket, whatever order the rows come in.
-/

variable {bucket : Nat} {rows others : List LatencyHistory}

/-! ## Buckets -/

theorem dvd_truncateToBucket (dt : DateTime) (bucket : Nat) : bucket ∣ truncateToBucket dt bucket :=
  Dvd.intro_left _ rfl

theorem truncateToBucket_eq_iff {x dt : DateTime} (positive : 0 < bucket) (multiple : bucket ∣ x) :
    truncateToBucket dt bucket = x ↔ x ≤ dt ∧ dt < x + bucket := by
  obtain ⟨number, rfl⟩ := multiple
  rw [truncateToBucket, Nat.mul_comm bucket number, Nat.mul_left_inj (Nat.ne_of_gt positive),
    ← Nat.succ_mul]
  constructor
  · intro same
    rw [← same]
    rw [Nat.succ_mul]
    exact ⟨Nat.div_mul_le_self dt bucket, Nat.lt_div_mul_add positive⟩
  · intro inside
    exact Nat.div_eq_of_lt_le inside.1 inside.2

/-! ## The points of one series -/

def point (bucket : DateTime × List LatencyHistory) : LatencyPoint where
  x := bucket.1
  y := truncatedAverage (bucket.2.map (·.latencyMs))
  errors := bucket.2.countP isError

def points (bucket : Nat) (inRegion : List LatencyHistory) : List LatencyPoint :=
  (orderBy Prod.fst (groupBy (fun h => truncateToBucket h.checkedAt bucket) inRegion)).map point

def ofRegion (region : String) (rows : List LatencyHistory) : List LatencyHistory :=
  rows.filter fun h => h.region = region

theorem latencyData_eq (bucket : Nat) (rows : List LatencyHistory) : latencyData bucket rows =
    (groupBy (·.region)
      ((orderBy (·.checkedAt) rows).filter fun h => !isNullOrWhiteSpace h.region)).map fun g =>
        { name := g.1, data := points bucket g.2 } :=
  rfl

theorem points_eq (bucket : Nat) (inRegion : List LatencyHistory) : points bucket inRegion =
    orderBy (·.x)
      ((groupBy (fun h => truncateToBucket h.checkedAt bucket) inRegion).map point) :=
  map_orderBy point (·.x) _

theorem point_perm (x : DateTime) {left right : List LatencyHistory} (same : left.Perm right) :
    point (x, left) = point (x, right) := by
  have average : truncatedAverage (left.map (·.latencyMs)) =
      truncatedAverage (right.map (·.latencyMs)) := mean_perm (same.map _)
  simp only [point, average, same.countP_eq]

theorem nodup_xs (bucket : Nat) (inRegion : List LatencyHistory) :
    ((points bucket inRegion).map (·.x)).Nodup := by
  rw [points_eq, ((orderBy_perm LatencyPoint.x _).map _).nodup_iff, List.map_map]
  exact nodup_groupBy_keys _ inRegion

theorem points_perm (bucket : Nat) (same : rows.Perm others) :
    points bucket rows = points bucket others := by
  have grouped := groupBy_map_perm (fun h => truncateToBucket h.checkedAt bucket) same
    fun x _ _ => point_perm x
  rw [points_eq, points_eq]
  refine orderBy_eq_of_perm grouped ?_
  have distinct := nodup_xs bucket rows
  rw [points_eq, ((orderBy_perm LatencyPoint.x _).map _).nodup_iff] at distinct
  intro left leftIn right rightIn sameX
  exact List.inj_on_of_nodup_map distinct leftIn rightIn sameX

theorem mem_points {entry : LatencyPoint} : entry ∈ points bucket rows ↔
    (∃ row ∈ rows, truncateToBucket row.checkedAt bucket = entry.x) ∧
      entry = point (entry.x, rows.filter fun h => truncateToBucket h.checkedAt bucket = entry.x) := by
  rw [points_eq, mem_orderBy, List.mem_map]
  constructor
  · intro grouped
    obtain ⟨group, member, rfl⟩ := grouped
    obtain ⟨present, elements⟩ := mem_groupBy.mp member
    refine ⟨present, ?_⟩
    conv_lhs => rw [← Prod.eta group, elements]
    rfl
  · intro described
    obtain ⟨present, shape⟩ := described
    exact ⟨_, mem_groupBy.mpr ⟨present, rfl⟩, shape.symm⟩

theorem dvd_of_mem_points {inRegion : List LatencyHistory} {entry : LatencyPoint}
    (member : entry ∈ points bucket inRegion) : bucket ∣ entry.x := by
  obtain ⟨row, -, same⟩ := (mem_points.mp member).1
  exact same ▸ dvd_truncateToBucket row.checkedAt bucket

theorem points_apart (bucket : Nat) (inRegion : List LatencyHistory) :
    (points bucket inRegion).Pairwise fun left right => left.x + bucket ≤ right.x := by
  have sorted : (points bucket inRegion).Pairwise fun left right => left.x ≤ right.x := by
    rw [points_eq]
    exact orderBy_pairwise LatencyPoint.x _
  have distinct := List.pairwise_map.mp (nodup_xs bucket inRegion)
  refine List.Pairwise.imp_of_mem ?_ (sorted.and distinct)
  intro left right leftIn rightIn ordered
  obtain ⟨first, leftMultiple⟩ := dvd_of_mem_points leftIn
  obtain ⟨second, rightMultiple⟩ := dvd_of_mem_points rightIn
  have below := lt_of_le_of_ne ordered.1 ordered.2
  rw [leftMultiple, rightMultiple] at below ⊢
  exact Nat.mul_le_mul_left bucket (Nat.lt_of_mul_lt_mul_left below)

/-- Each row falls into one point of its region. -/
theorem existsUnique_point (positive : 0 < bucket) {inRegion : List LatencyHistory} {row : LatencyHistory}
    (selected : row ∈ inRegion) :
    ∃! entry, entry ∈ points bucket inRegion ∧ entry.x ≤ row.checkedAt ∧
      row.checkedAt < entry.x + bucket := by
  let x := truncateToBucket row.checkedAt bucket
  let entry := point (x, inRegion.filter fun h => truncateToBucket h.checkedAt bucket = x)
  have around := (truncateToBucket_eq_iff positive
    (dvd_truncateToBucket row.checkedAt bucket)).mp rfl
  have listed : entry ∈ points bucket inRegion := mem_points.mpr ⟨⟨row, selected, rfl⟩, rfl⟩
  refine ⟨entry, ⟨listed, around⟩, ?_⟩
  intro other candidate
  obtain ⟨inSeries, inside⟩ := candidate
  have sameX := (truncateToBucket_eq_iff positive (dvd_of_mem_points inSeries)).mpr inside
  rw [(mem_points.mp inSeries).2, ← sameX]

/-! ## The series -/

theorem ofRegion_perm (region : String) (same : rows.Perm others) :
    (ofRegion region rows).Perm (ofRegion region others) :=
  same.filter _

theorem ofRegion_named {region : String} (named : isNullOrWhiteSpace region = false)
    (rows : List LatencyHistory) :
    ofRegion region (rows.filter fun h => !isNullOrWhiteSpace h.region) = ofRegion region rows := by
  rw [ofRegion, List.filter_filter]
  apply List.filter_congr
  intro row _
  by_cases same : row.region = region <;> simp [same, named]

/-- One series for each region that is not blank, with the points of its rows. -/
theorem mem_latencyData {series : LatencySeries} : series ∈ latencyData bucket rows ↔
    isNullOrWhiteSpace series.name = false ∧ (∃ row ∈ rows, row.region = series.name) ∧
      series.data = points bucket (ofRegion series.name rows) := by
  have read : ∀ name, isNullOrWhiteSpace name = false →
      points bucket (ofRegion name
        ((orderBy (·.checkedAt) rows).filter fun h => !isNullOrWhiteSpace h.region)) =
      points bucket (ofRegion name rows) := by
    intro name named
    rw [ofRegion_named named]
    exact points_perm bucket (ofRegion_perm name (orderBy_perm _ rows))
  rw [latencyData_eq, List.mem_map]
  constructor
  · intro grouped
    obtain ⟨group, member, rfl⟩ := grouped
    obtain ⟨present, elements⟩ := mem_groupBy.mp member
    obtain ⟨row, inWindow, same⟩ := present
    obtain ⟨stored, named⟩ := List.mem_filter.mp inWindow
    have notBlank : isNullOrWhiteSpace group.1 = false := by
      rw [← same]
      simpa using named
    refine ⟨notBlank, ⟨row, mem_orderBy.mp stored, same⟩, ?_⟩
    rw [← read group.1 notBlank, elements]
    rfl
  · intro described
    obtain ⟨notBlank, present, shape⟩ := described
    obtain ⟨row, inWindow, same⟩ := present
    refine ⟨(series.name, ofRegion series.name
      ((orderBy (·.checkedAt) rows).filter fun h => !isNullOrWhiteSpace h.region)),
      mem_groupBy.mpr ⟨⟨row, ?_, same⟩, rfl⟩, ?_⟩
    · refine List.mem_filter.mpr ⟨mem_orderBy.mpr inWindow, ?_⟩
      rw [same, notBlank]
      rfl
    · simp only
      rw [read series.name notBlank, ← shape]

theorem nodup_names (bucket : Nat) (rows : List LatencyHistory) :
    ((latencyData bucket rows).map (·.name)).Nodup := by
  rw [latencyData_eq, List.map_map]
  exact nodup_groupBy_keys LatencyHistory.region _

theorem latencyData_perm (bucket : Nat) (same : rows.Perm others) :
    (latencyData bucket rows).Perm (latencyData bucket others) := by
  have sorted : (orderBy (·.checkedAt) rows).Perm (orderBy (·.checkedAt) others) :=
    (orderBy_perm _ rows).trans (same.trans (orderBy_perm _ others).symm)
  rw [latencyData_eq, latencyData_eq]
  refine groupBy_map_perm (·.region) (sorted.filter _) ?_
  intro region left right reordered
  simp only [points_perm bucket reordered]

/-! ## The partition -/

/-- The rows of a region in the interval that starts at `x`. -/
def interval (bucket : Nat) (region : String) (x : DateTime) (rows : List LatencyHistory) :
    List LatencyHistory :=
  rows.filter fun row => row.region = region ∧ x ≤ row.checkedAt ∧ row.checkedAt < x + bucket

theorem mem_interval {region : String} {x : DateTime} {row : LatencyHistory} :
    row ∈ interval bucket region x rows ↔
      row ∈ rows ∧ row.region = region ∧ x ≤ row.checkedAt ∧ row.checkedAt < x + bucket := by
  simp only [interval, List.mem_filter, decide_eq_true_eq]

theorem filter_truncate_eq_interval (positive : 0 < bucket) {x : DateTime} (multiple : bucket ∣ x)
    (region : String) (rows : List LatencyHistory) :
    ((ofRegion region rows).filter fun h => truncateToBucket h.checkedAt bucket = x) =
      interval bucket region x rows := by
  rw [ofRegion, List.filter_filter, interval]
  apply List.filter_congr
  intro row _
  simp only [truncateToBucket_eq_iff positive multiple]
  by_cases same : row.region = region <;> simp [same]

/-- A point sums up the rows of its interval, of which there are some. -/
theorem point_interval (positive : 0 < bucket) {region : String} {entry : LatencyPoint}
    (member : entry ∈ points bucket (ofRegion region rows)) :
    interval bucket region entry.x rows ≠ [] ∧
      entry = point (entry.x, interval bucket region entry.x rows) := by
  have sameRows := filter_truncate_eq_interval positive (dvd_of_mem_points member) region rows
  obtain ⟨occupied, computed⟩ := mem_points.mp member
  obtain ⟨row, selected, same⟩ := occupied
  rw [sameRows] at computed
  refine ⟨?_, computed⟩
  rw [← sameRows]
  exact List.ne_nil_of_mem (List.mem_filter.mpr ⟨selected, decide_eq_true same⟩)

/-- An interval with a row in it has its point. -/
theorem point_mem_points (positive : 0 < bucket) {region : String} {x : DateTime} (multiple : bucket ∣ x)
    {row : LatencyHistory} (selected : row ∈ interval bucket region x rows) :
    point (x, interval bucket region x rows) ∈ points bucket (ofRegion region rows) := by
  obtain ⟨inWindow, inRegion, inBucket⟩ := mem_interval.mp selected
  refine mem_points.mpr ⟨⟨row, List.mem_filter.mpr ⟨inWindow, decide_eq_true inRegion⟩,
    (truncateToBucket_eq_iff positive multiple).mpr inBucket⟩, ?_⟩
  exact congrArg (fun inside => point (x, inside))
    (filter_truncate_eq_interval positive multiple region rows).symm

/-- The latency data is an exact partition of the window: a series for each
region that is not blank, in it points at increasing multiples of the bucket,
and each row of the region in exactly one point, which sums up its interval. -/
theorem latencyData_partition (bucket : Nat) (positive : 0 < bucket) (rows : List LatencyHistory) :
    ((latencyData bucket rows).map (·.name)).Nodup ∧
    (∀ region, (∃ series ∈ latencyData bucket rows, series.name = region) ↔
      isNullOrWhiteSpace region = false ∧ ∃ row ∈ rows, row.region = region) ∧
    ∀ series ∈ latencyData bucket rows,
      series.data.Pairwise (fun left right => left.x + bucket ≤ right.x) ∧
      (∀ point ∈ series.data, bucket ∣ point.x) ∧
      (∀ row ∈ rows, row.region = series.name →
        ∃! point, point ∈ series.data ∧ point.x ≤ row.checkedAt ∧
          row.checkedAt < point.x + bucket) ∧
      ∀ point ∈ series.data,
        let inside := interval bucket series.name point.x rows
        inside ≠ [] ∧ point.y = (inside.map (·.latencyMs)).sum / inside.length ∧
          point.errors = inside.countP fun row => row.statusCode = 0 || 400 ≤ row.statusCode := by
  refine ⟨nodup_names bucket rows, ?names, ?partition⟩
  case names =>
    intro region
    constructor
    · intro found
      obtain ⟨series, member, rfl⟩ := found
      obtain ⟨notBlank, present, -⟩ := mem_latencyData.mp member
      exact ⟨notBlank, present⟩
    · intro described
      exact ⟨⟨region, points bucket (ofRegion region rows)⟩,
        mem_latencyData.mpr ⟨described.1, described.2, rfl⟩, rfl⟩
  case partition =>
    intro series member
    obtain ⟨notBlank, present, shape⟩ := mem_latencyData.mp member
    rw [shape]
    refine ⟨points_apart bucket _, fun entry => dvd_of_mem_points, ?onePoint, ?content⟩
    case onePoint =>
      intro row inWindow inRegion
      have selected : row ∈ ofRegion series.name rows :=
        List.mem_filter.mpr ⟨inWindow, by simpa using inRegion⟩
      exact existsUnique_point positive selected
    case content =>
      intro entry inSeries
      obtain ⟨occupied, computed⟩ := point_interval positive inSeries
      refine ⟨occupied, ?_, congrArg (·.errors) computed⟩
      have average := congrArg (·.y) computed
      simp only [point, truncatedAverage, List.length_map] at average
      exact average

def quarterHour : List LatencyHistory :=
  [{ checkedAt := 14, latencyMs := 30, statusCode := 200, region := "eastus2" },
    { checkedAt := 15, latencyMs := 50, statusCode := 503, region := "eastus2" },
    { checkedAt := 29, latencyMs := 11, statusCode := 200, region := "eastus2" }]

/-- The row on the boundary opens the second point. -/
theorem latencyData_partition_quarterHour :
    (latencyData 15 quarterHour).map (·.data) =
      [[{ x := 0, y := 30, errors := 0 }, { x := 15, y := 30, errors := 1 }]] ∧
    ((latencyData 15 quarterHour).map (·.name)).Nodup :=
  ⟨by decide, (latencyData_partition 15 (by decide) quarterHour).1⟩

/-! ## The size of a series -/

/-- The two switches agree: every window is a whole number of buckets, 168 at most. -/
theorem range_in_buckets (range : String) :
    0 < getBucketSize range ∧ getBucketSize range ∣ rangeLength range ∧
      rangeLength range / getBucketSize range ≤ 168 := by
  by_cases oneHour : range = "1h"
  · subst oneHour
    decide
  by_cases sixHours : range = "6h"
  · subst sixHours
    decide
  by_cases sevenDays : range = "7d"
  · subst sevenDays
    decide
  by_cases thirtyDays : range = "30d"
  · subst thirtyDays
    decide
  have length : rangeLength range = TimeSpan.fromHours 24 := by
    simp only [rangeLength, if_neg oneHour, if_neg sixHours, if_neg sevenDays, if_neg thirtyDays]
  have bucket : getBucketSize range = TimeSpan.fromMinutes 15 := by
    simp only [getBucketSize, if_neg oneHour, if_neg sixHours, if_neg sevenDays, if_neg thirtyDays,
      ite_self]
  rw [length, bucket]
  decide

/-- A window that ends at `now` need not start at a bucket, so one more may be touched. -/
theorem length_points_le {length now : Nat} {inRegion : List LatencyHistory}
    (positive : 0 < bucket) (whole : bucket ∣ length)
    (window : ∀ row ∈ inRegion, (now : Int) - length ≤ row.checkedAt ∧ row.checkedAt ≤ now) :
    (points bucket inRegion).length ≤ length / bucket + 1 := by
  have start : ∀ x checkedAt : Nat, checkedAt < x + bucket → (now : Int) - length ≤ checkedAt →
      now + 1 - (bucket + length) ≤ x := by
    intro x checkedAt after since
    omega
  have inside : ∀ x ∈ (points bucket inRegion).map (·.x),
      now + 1 - (bucket + length) ≤ x ∧ x ≤ now := by
    intro x member
    obtain ⟨entry, listed, rfl⟩ := List.mem_map.mp member
    obtain ⟨row, selected, same⟩ := (mem_points.mp listed).1
    have around := (truncateToBucket_eq_iff positive (dvd_of_mem_points listed)).mp same
    have bounds := window row selected
    exact ⟨start _ _ around.2 bounds.1, around.1.trans bounds.2⟩
  have apart : ((points bucket inRegion).map (·.x)).Pairwise fun left right => left + bucket ≤ right :=
    List.pairwise_map.mpr (points_apart bucket inRegion)
  have counted := length_mul_le_of_apart apart inside (by omega)
  rw [List.length_map] at counted
  have buckets : length / bucket * bucket = length := Nat.div_mul_cancel whole
  have fewer : (points bucket inRegion).length * bucket < (length / bucket + 2) * bucket := by
    rw [Nat.add_mul, buckets]
    omega
  exact Nat.le_of_lt_succ (Nat.lt_of_mul_lt_mul_right fewer)

/-- However many rows a window has, a series has at most one point for each of its
buckets and one more. -/
theorem payload_bounded (range : String) (now : DateTime) :
    (∀ rows : List LatencyHistory,
      (∀ row ∈ rows, parseRange now range ≤ row.checkedAt ∧ row.checkedAt ≤ now) →
      ∀ series ∈ latencyData (getBucketSize range) rows,
        series.data.length ≤ rangeLength range / getBucketSize range + 1 ∧
          series.data.length ≤ 169) ∧
    ∀ (context : ApplicationDbContext) (store : Store) (monitorId : Int),
      (∀ row ∈ windowRows context store monitorId (parseRange now range), row.checkedAt ≤ now) →
      ∀ series ∈ onGetLatencyDataAsync context store now monitorId range,
        series.data.length ≤ rangeLength range / getBucketSize range + 1 ∧
          series.data.length ≤ 169 := by
  obtain ⟨positive, whole, most⟩ := range_in_buckets range
  have bounded : ∀ rows : List LatencyHistory,
      (∀ row ∈ rows, parseRange now range ≤ row.checkedAt ∧ row.checkedAt ≤ now) →
      ∀ series ∈ latencyData (getBucketSize range) rows,
        series.data.length ≤ rangeLength range / getBucketSize range + 1 ∧
          series.data.length ≤ 169 := by
    intro rows window series listed
    have few : series.data.length ≤ rangeLength range / getBucketSize range + 1 := by
      rw [(mem_latencyData.mp listed).2.2]
      exact length_points_le positive whole fun row selected => window row (List.mem_of_mem_filter selected)
    exact ⟨few, by omega⟩
  refine ⟨bounded, ?_⟩
  intro context store monitorId past
  refine bounded _ ?_
  intro row read
  exact ⟨of_decide_eq_true (List.mem_filter.mp read).2, past row read⟩

theorem payload_bounded_quarterHour :
    ∀ series ∈ latencyData (getBucketSize "24h") quarterHour, series.data.length ≤ 97 := by
  intro series listed
  exact ((payload_bounded "24h" 30).1 quarterHour (by decide) series listed).1

end UrlPulse.Web.Analytics
