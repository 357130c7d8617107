import UrlPulse.Cadence
import UrlPulse.Web.Regional

namespace UrlPulse

open UrlPulse.Core UrlPulse.Infrastructure UrlPulse.Worker UrlPulse.Web UrlPulse.Web.Analytics
open UrlPulse.Data UrlPulse.Data.Linq UrlPulse.Data.Statistics

/-! # How much the charts have to count

The worker keeps a distance between the checks of a monitor in a region, so a
window has room for so many of them, and so has a bucket.
-/

variable {Tag World : Type} {store : Store} {id : Int} {rows : List LatencyHistory}

/-- Rows that keep a gap fit into a range no more often than it has room. -/
theorem length_mul_le_of_spaced {gap low high : Nat}
    (spaced : Throttle.Spaced gap (rows.map fun row => (row.checkedAt : Int)))
    (inside : ∀ row ∈ rows, low ≤ row.checkedAt ∧ row.checkedAt ≤ high) (room : low ≤ high + gap) :
    low + rows.length * gap ≤ high + gap := by
  let sorted := orderBy (·.checkedAt) rows
  have away : sorted.Pairwise fun left right : LatencyHistory =>
      (gap : Int) ≤ |(left.checkedAt : Int) - right.checkedAt| :=
    List.pairwise_map.mp (spaced.perm ((orderBy_perm _ rows).symm.map _))
  have apart : (sorted.map (·.checkedAt)).Pairwise fun left right => left + gap ≤ right := by
    refine List.pairwise_map.mpr ((away.and (orderBy_pairwise _ rows)).imp ?_)
    intro left right both
    obtain ⟨far, ordered⟩ := both
    have earlier : (left.checkedAt : Int) ≤ right.checkedAt := Int.ofNat_le.mpr ordered
    have distance : |(left.checkedAt : Int) - right.checkedAt| = right.checkedAt - left.checkedAt := by
      rw [abs_of_nonpos (by omega)]
      omega
    rw [distance] at far
    have sum : (left.checkedAt : Int) + gap ≤ right.checkedAt := by omega
    exact_mod_cast sum
  have within : ∀ time ∈ sorted.map (·.checkedAt), low ≤ time ∧ time ≤ high := by
    intro time member
    obtain ⟨row, listed, rfl⟩ := List.mem_map.mp member
    exact inside row (mem_orderBy.mp listed)
  have counted := length_mul_le_of_apart apart within room
  rwa [List.length_map, (orderBy_perm _ rows).length_eq] at counted

theorem windowRows_of_visible {monitor : UrlMonitor} {context : ApplicationDbContext} (valid : store.Valid)
    (visible : monitor ∈ context.urlMonitors store) (since : Int) :
    windowRows context store monitor.id since =
      (store.historyOf monitor.id).filter fun row => since ≤ (row.checkedAt : Int) := by
  have nodup : ((context.urlMonitors store).map (·.id)).Nodup :=
    valid.monitorKeys.sublist (List.filter_sublist.map _)
  rw [windowRows, filter_key_of_nodup nodup visible, List.flatMap_singleton,
    ApplicationDbContext.history_of_visible visible]

/-- A window is a part of the history, and no more than that. -/
theorem windowRows_sublist (valid : store.Valid) (context : ApplicationDbContext) (monitorId since : Int) :
    (windowRows context store monitorId since).Sublist (store.historyOf monitorId) := by
  by_cases visible : ∃ monitor ∈ context.urlMonitors store, monitor.id = monitorId
  · obtain ⟨monitor, seen, rfl⟩ := visible
    rw [windowRows_of_visible valid seen]
    exact List.filter_sublist
  · have none : ((context.urlMonitors store).filter fun u => u.id = monitorId) = [] :=
      List.filter_eq_nil_iff.mpr fun monitor seen same => visible ⟨monitor, seen, of_decide_eq_true same⟩
    rw [windowRows, none]
    exact List.nil_sublist _

theorem rowsOf_eq_ofRegion (id : Int) (region : String) (store : Store) :
    rowsOf id region store = ofRegion region (store.historyOf id) := by
  rw [rowsOf, historyIn, ofRegion, Store.historyOf, List.filter_comm]

theorem ofRegion_windowRows {monitor : UrlMonitor} {context : ApplicationDbContext} (valid : store.Valid)
    (visible : monitor ∈ context.urlMonitors store) (region : String) (since : Int) :
    ofRegion region (windowRows context store monitor.id since) =
      (rowsOf monitor.id region store).filter fun row => since ≤ (row.checkedAt : Int) := by
  rw [windowRows_of_visible valid visible, rowsOf_eq_ofRegion, ofRegion, ofRegion, List.filter_comm]

theorem ofRegion_windowRows_sublist (id : Int) (valid : store.Valid) (context : ApplicationDbContext)
    (since : Int) (region : String) :
    (ofRegion region (windowRows context store id since)).Sublist (rowsOf id region store) := by
  rw [rowsOf_eq_ofRegion]
  exact (windowRows_sublist valid context id since).filter _

/-- The time between two checks at an interval of `k` minutes. -/
def spacing (k : Nat) : Nat := TimeSpan.fromMinutes k - TimeSpan.fromSeconds 5

theorem spacing_toInt {k : Nat} (positive : 1 ≤ k) : (spacing k : Int) = minute * k - tolerance := by
  have room : TimeSpan.fromSeconds 5 ≤ TimeSpan.fromMinutes k := by
    simp only [TimeSpan.fromMinutes, TimeSpan.fromSeconds]
    exact Nat.mul_le_mul_right _ (by omega)
  rw [← fromMinutes_toInt, spacing]
  exact Int.ofNat_sub room

theorem Paced.spaced {monitor : UrlMonitor} {region : String} {k : Nat} (paced : Paced id region store)
    (stored : monitor ∈ store.urlMonitors) (same : monitor.id = id)
    (interval : monitor.checkIntervalMinutes.toInt = k) (positive : 1 ≤ k) (fits : k * 60 ≤ 2147483647) :
    (k ≤ 15011998 → Throttle.Spaced (spacing k) (times id region store)) ∧
      Throttle.Spaced (spacing k - 10 : Nat) (times id region store) := by
  obtain ⟨-, spaced⟩ := paced monitor stored same
  obtain ⟨exactly, within⟩ := pace_bounds interval positive fits
  have apart := spacing_toInt positive
  have period : minute = 600000000 := by decide
  have seconds : tolerance = 50000000 := by decide
  refine ⟨fun small => ?_, spaced.mono ?_⟩
  · rw [apart, ← exactly small]
    exact spaced
  · rw [period] at apart within
    omega

/-- The ranges of the page are of a month at most. -/
theorem rangeLength_le (range : String) :
    rangeLength range ≤ TimeSpan.fromDays 30 ∧ getBucketSize range ≤ TimeSpan.fromDays 30 := by
  have length : rangeLength range ≤ TimeSpan.fromDays 30 := by
    rw [rangeLength]
    split_ifs <;> decide
  have some : 0 < rangeLength range := by
    rw [rangeLength]
    split_ifs <;> decide
  exact ⟨length, (Nat.le_of_dvd some (range_in_buckets range).2.1).trans length⟩

/-- Where an interval of decades is undercut by a microsecond, there is room for one check anyway. -/
theorem room_of_decades (room : Nat) {spacing count : Nat} (short : room + 10 < spacing)
    (counted : count * (spacing - 10) ≤ room + (spacing - 10)) : count * spacing ≤ spacing := by
  have one : count < 2 := by
    by_contra more
    have two := Nat.mul_le_mul_right (spacing - 10) (not_lt.mp more)
    omega
  exact (Nat.mul_le_mul_right spacing (Nat.le_of_lt_succ one)).trans_eq (Nat.one_mul spacing)

/-- The comparison counts a check for each distance that the window has room for, and one more. -/
theorem totalChecks_bounded {spacing : Nat} {region : String} (valid : store.Valid)
    (spaced : Throttle.Spaced spacing (times id region store)) (context : ApplicationDbContext)
    (now : DateTime) (range : String) (past : ∀ row ∈ store.historyOf id, row.checkedAt ≤ now) :
    ∀ entry ∈ onGetRegionSummaryAsync context store now id range, entry.region = region →
      entry.totalChecks * spacing ≤ rangeLength range + spacing := by
  intro entry listed same
  subst same
  let window := windowRows context store id (parseRange now range)
  have kept := ofRegion_windowRows_sublist id valid context (parseRange now range) entry.region
  have inside : ∀ row ∈ ofRegion entry.region window,
      now - rangeLength range ≤ row.checkedAt ∧ row.checkedAt ≤ now := by
    intro row selected
    have read : row ∈ window := List.mem_of_mem_filter selected
    have since : (now : Int) - rangeLength range ≤ (row.checkedAt : Int) :=
      of_decide_eq_true (List.mem_filter.mp read).2
    have early : ∀ now length time : Nat, (now : Int) - length ≤ time → now - length ≤ time := by
      omega
    exact ⟨early _ _ _ since, past row ((windowRows_sublist valid context id _).subset read)⟩
  have room : ∀ now length several spacing : Nat, now - length + several ≤ now + spacing →
      several ≤ length + spacing := by
    omega
  have counted : now - rangeLength range + (ofRegion entry.region window).length * spacing ≤
      now + spacing :=
    length_mul_le_of_spaced (List.Pairwise.sublist (kept.map _) spaced) inside (by omega)
  have total : entry.totalChecks = (ofRegion entry.region window).length :=
    congrArg (·.totalChecks) (mem_regionSummary.mp listed).2.2
  rw [total]
  exact room _ _ _ _ counted

/-- So does a point of the series, in its bucket. -/
theorem errors_bounded {spacing : Nat} {region : String} (valid : store.Valid)
    (spaced : Throttle.Spaced spacing (times id region store)) (context : ApplicationDbContext)
    (now : DateTime) (range : String) :
    ∀ series ∈ onGetLatencyDataAsync context store now id range, series.name = region →
      ∀ point ∈ series.data, point.errors * spacing < getBucketSize range + spacing := by
  intro series listed same entry member
  subst same
  have positive := (range_in_buckets range).1
  rw [(mem_latencyData.mp listed).2.2] at member
  obtain ⟨occupied, computed⟩ := point_interval positive member
  let window := windowRows context store id (parseRange now range)
  let bucketRows := interval (getBucketSize range) series.name entry.x window
  have ofBucket : bucketRows.Sublist (ofRegion series.name window) := by
    have narrowed : bucketRows = (ofRegion series.name window).filter fun row =>
        entry.x ≤ row.checkedAt ∧ row.checkedAt < entry.x + getBucketSize range := by
      rw [ofRegion, List.filter_filter]
      exact List.filter_congr fun row _ => by simp [Bool.and_comm]
    rw [narrowed]
    exact List.filter_sublist
  have kept := ofBucket.trans
    (ofRegion_windowRows_sublist id valid context (parseRange now range) series.name)
  have inside : ∀ row ∈ bucketRows,
      entry.x ≤ row.checkedAt ∧ row.checkedAt ≤ entry.x + getBucketSize range - 1 := by
    intro row selected
    have bounds := (of_decide_eq_true (List.mem_filter.mp selected).2).2
    exact ⟨bounds.1, Nat.le_sub_one_of_lt bounds.2⟩
  have counted := length_mul_le_of_spaced (List.Pairwise.sublist (kept.map _) spaced) inside (by omega)
  have most : entry.errors ≤ bucketRows.length := by
    rw [computed]
    exact List.countP_le_length
  have scaled := Nat.mul_le_mul_right spacing most
  omega

namespace Timetable

variable [DecidableEq Tag]

theorem passes_valid {timetable : Timetable Tag World} {i : Nat} (passed : timetable.Passes i store) :
    store.Valid := by
  cases passed with
  | beforeLoad steps inside => exact run_valid (settled i).valid steps
  | beforeSave steps inside => exact run_valid (settled i).valid _
  | saved => exact (settled (i + 1)).valid

end Timetable

end UrlPulse
