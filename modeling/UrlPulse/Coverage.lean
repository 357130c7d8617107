import UrlPulse.Freshness
import UrlPulse.Throughput

namespace UrlPulse.Timetable

open UrlPulse.Core UrlPulse.Infrastructure UrlPulse.Web UrlPulse.Web.Analytics UrlPulse.Worker
open UrlPulse.Data UrlPulse.Data.Statistics
open UrlPulse.Data.Phased (Step)

/-! # Charts without gaps

The minutes that a region's runs have covered stay in its charts, with a check for each
interval of them.
-/

variable {Tag World : Type} [DecidableEq Tag] {timetable : Timetable Tag World} {monitor : UrlMonitor}
  {k last first minutes : Nat} {start : DateTime} {store : Store}

/-- The runs up to `last` were in time and lost nothing, and found the monitor there, to be
checked every `k` minutes. -/
structure Covers (timetable : Timetable Tag World) (monitor : UrlMonitor) (k : Nat) (start : DateTime)
    (last : Nat) : Prop where
  interval : monitor.checkIntervalMinutes.toInt = k
  positive : 1 ≤ k
  fits : k * 60 ≤ 2147483647
  watched : timetable.Watched monitor last
  committed : ∀ i ≤ last, timetable.commits i
  inTime : timetable.InTime start last
  old : ∀ row ∈ rowsOf monitor.id timetable.region (timetable.loaded 0),
    row.checkedAt + TimeSpan.fromSeconds 55 ≤ start
  onTheMinute : TimeSpan.fromMinutes 1 ∣ start

/-- The rows from minute `first` on, for some minutes. -/
def inMinutes (start : DateTime) (first minutes : Nat) (row : LatencyHistory) : Bool :=
  start + TimeSpan.fromMinutes first ≤ row.checkedAt &&
    row.checkedAt < start + TimeSpan.fromMinutes (first + minutes)

section Later

variable {more : List (Step Tag (Operation World))}
  (stored : monitor.id ∈ (Phased.run (machine World) (timetable.system (last + 1)) more).store.monitorIds)
include stored

theorem Covers.exists_row (covers : timetable.Covers monitor k start last) (inside : first + k ≤ last + 1) :
    ∃ row ∈ rowsOf monitor.id timetable.region
        (Phased.run (machine World) (timetable.system (last + 1)) more).store,
      start + TimeSpan.fromMinutes first ≤ row.checkedAt ∧
        row.checkedAt < start + TimeSpan.fromMinutes (first + k) := by
  have minutes : TimeSpan.fromMinutes 1 ∣ TimeSpan.fromMinutes first :=
    ⟨first, by rw [← Nat.mul_one first, TimeSpan.fromMinutes_mul, Nat.mul_one, Nat.mul_comm]⟩
  have whole : 10 ∣ start + TimeSpan.fromMinutes first :=
    Nat.dvd_trans (by decide) (Nat.dvd_add covers.onTheMinute minutes)
  rw [← timestamptz_of_dvd whole]
  exact exists_row_within covers.interval covers.positive covers.fits
    (fun i bound => covers.watched i (by omega)) (fun i bound => covers.committed i (by omega))
    (fun i bound => covers.inTime i (by omega)) covers.old inside more stored

/-- Covered minutes hold a check for each interval in them. -/
theorem Covers.le_countP (covers : timetable.Covers monitor k start last)
    (inside : first + minutes ≤ last + 1) :
    minutes / k ≤ (rowsOf monitor.id timetable.region
      (Phased.run (machine World) (timetable.system (last + 1)) more).store).countP
        (inMinutes start first minutes) := by
  have whole : minutes / k * k ≤ minutes := Nat.div_mul_le_self minutes k
  have longer : start + TimeSpan.fromMinutes first + minutes / k * TimeSpan.fromMinutes k ≤
      start + TimeSpan.fromMinutes (first + minutes) := by
    rw [Nat.add_assoc, ← TimeSpan.fromMinutes_mul, ← TimeSpan.fromMinutes_add]
    exact Nat.add_le_add_left (TimeSpan.fromMinutes_le.mpr (Nat.add_le_add_left whole first)) start
  have counted := le_countP_of_ranges (fun row : LatencyHistory => row.checkedAt) fun i below => by
    have room : (i + 1) * k ≤ minutes / k * k := Nat.mul_le_mul_right k below
    have next : first + i * k + k = first + (i + 1) * k := by rw [Nat.succ_mul, Nat.add_assoc]
    obtain ⟨row, listed, after, before⟩ :=
      covers.exists_row stored (show first + i * k + k ≤ last + 1 by omega)
    rw [next, TimeSpan.fromMinutes_add, TimeSpan.fromMinutes_mul, ← Nat.add_assoc] at before
    rw [TimeSpan.fromMinutes_add, TimeSpan.fromMinutes_mul, ← Nat.add_assoc] at after
    exact ⟨row, listed, after, before⟩
  refine counted.trans (List.countP_mono_left fun row _ chosen => ?_)
  simp only [decide_eq_true_eq] at chosen
  simp only [inMinutes, Bool.and_eq_true, decide_eq_true_eq]
  exact ⟨chosen.1, Nat.lt_of_lt_of_le chosen.2 longer⟩

end Later

/-! ## The charts -/

theorem dvd_getBucketSize (range : String) : TimeSpan.fromMinutes 1 ∣ getBucketSize range := by
  unfold getBucketSize
  split_ifs <;> decide

theorem exists_fromMinutes {time : Nat} (whole : TimeSpan.fromMinutes 1 ∣ time) :
    ∃ minutes, time = TimeSpan.fromMinutes minutes := by
  obtain ⟨minutes, rfl⟩ := whole
  exact ⟨minutes, by rw [← Nat.mul_one minutes, TimeSpan.fromMinutes_mul, Nat.mul_one, Nat.mul_comm]⟩

theorem filter_inMinutes (region : String) (rows : List LatencyHistory) :
    (Analytics.ofRegion region rows).filter (inMinutes start first minutes) =
      interval (TimeSpan.fromMinutes minutes) region (start + TimeSpan.fromMinutes first) rows := by
  rw [Analytics.ofRegion, List.filter_filter, interval]
  refine List.filter_congr fun row _ => ?_
  rw [inMinutes, TimeSpan.fromMinutes_add, ← Nat.add_assoc]
  simp [Bool.and_comm]

/-- From minutes that a window has whole, a check for each interval is in it. -/
theorem Covers.le_window (covers : timetable.Covers monitor k start last)
    (inside : first + minutes ≤ last + 1) {more : List (Step Tag (Operation World))}
    {context : ApplicationDbContext} {other : UrlMonitor} {since : Int}
    (visible : other ∈ context.urlMonitors
      (Phased.run (machine World) (timetable.system (last + 1)) more).store)
    (same : other.id = monitor.id) (read : since ≤ (start + TimeSpan.fromMinutes first : Nat)) :
    minutes / k ≤ (Analytics.ofRegion timetable.region (windowRows context
      (Phased.run (machine World) (timetable.system (last + 1)) more).store monitor.id since)).countP
        (inMinutes start first minutes) := by
  have stored : monitor.id ∈ (Phased.run (machine World) (timetable.system (last + 1)) more).store.monitorIds :=
    Store.mem_monitorIds.mpr ⟨other, List.mem_of_mem_filter visible, same⟩
  rw [← same, ofRegion_windowRows (run_valid (settled (last + 1)).valid more) visible,
    List.countP_filter]
  rw [same]
  refine (covers.le_countP stored inside).trans (List.countP_mono_left fun row _ chosen => ?_)
  rw [chosen, Bool.true_and]
  simp only [inMinutes, Bool.and_eq_true, decide_eq_true_eq] at chosen
  exact decide_eq_true (read.trans (Int.ofNat_le.mpr chosen.1))

/-- The minutes of a region that its runs have covered are in every later chart of them.  The
comparison counts a check for each interval; each bucket with room for an interval has a point,
and where all checks failed, the point has an error for each interval. -/
theorem charts_gapless (timetable : Timetable Tag World) (monitor : UrlMonitor) (k last : Nat)
    (start : DateTime) (covers : timetable.Covers monitor k start last)
    (named : isNullOrWhiteSpace timetable.region = false)
    (more : List (Step Tag (Operation World))) (context : ApplicationDbContext) :
    let store := (Phased.run (machine World) (timetable.system (last + 1)) more).store
    (∃ option ∈ Analytics.onGetAsync context store, option.id = monitor.id) →
    ∀ (now : DateTime) (range : String),
      (∀ first minutes, first + minutes ≤ last + 1 → k ≤ minutes →
        parseRange now range ≤ (start + TimeSpan.fromMinutes first : Nat) →
        ∃ entry ∈ onGetRegionSummaryAsync context store now monitor.id range,
          entry.region = timetable.region ∧ minutes / k ≤ entry.totalChecks) ∧
      ∀ x, getBucketSize range ∣ x → start ≤ x →
        x + getBucketSize range ≤ start + TimeSpan.fromMinutes (last + 1) →
        TimeSpan.fromMinutes k ≤ getBucketSize range → parseRange now range ≤ x →
        ∃ series ∈ onGetLatencyDataAsync context store now monitor.id range,
          series.name = timetable.region ∧ ∃ point ∈ series.data, point.x = x ∧
            ((∀ row ∈ store.historyOf monitor.id, row.region = timetable.region →
                x ≤ row.checkedAt → row.checkedAt < x + getBucketSize range → isError row = true) →
              getBucketSize range / TimeSpan.fromMinutes k ≤ point.errors) := by
  intro store listed now range
  obtain ⟨option, shown, same⟩ := listed
  obtain ⟨other, ordered, rfl⟩ := List.mem_map.mp shown
  have visible : other ∈ context.urlMonitors store := Linq.mem_orderByDescending.mp ordered
  have valid : store.Valid := run_valid (settled (last + 1)).valid more
  let window := windowRows context store monitor.id (parseRange now range)
  constructor
  · intro first minutes inside room read
    have counted : minutes / k ≤
        (Analytics.ofRegion timetable.region window).countP (inMinutes start first minutes) :=
      covers.le_window inside visible same read
    have some : 0 < minutes / k := Nat.div_pos room covers.positive
    obtain ⟨row, selected, -⟩ := List.countP_pos_iff.mp (some.trans_le counted)
    obtain ⟨inWindow, inRegion⟩ := List.mem_filter.mp selected
    refine ⟨summary (timetable.region, Analytics.ofRegion timetable.region window),
      mem_regionSummary.mpr ⟨named, ⟨row, inWindow, of_decide_eq_true inRegion⟩, rfl⟩, rfl, ?_⟩
    exact counted.trans List.countP_le_length
  · intro x multiple after before room read
    have positive := (range_in_buckets range).1
    obtain ⟨minutes, bucket⟩ := exists_fromMinutes (dvd_getBucketSize range)
    obtain ⟨first, away⟩ := exists_fromMinutes
      (Nat.dvd_sub ((dvd_getBucketSize range).trans multiple) covers.onTheMinute)
    have begins : x = start + TimeSpan.fromMinutes first := by
      rw [← away, Nat.add_sub_cancel' after]
    have covered : first + minutes ≤ last + 1 := by
      rw [begins, bucket, Nat.add_assoc, ← TimeSpan.fromMinutes_add] at before
      exact TimeSpan.fromMinutes_le.mp (Nat.le_of_add_le_add_left before)
    rw [bucket] at room
    have counted : minutes / k ≤
        (Analytics.ofRegion timetable.region window).countP (inMinutes start first minutes) :=
      covers.le_window covered visible same (begins ▸ read)
    rw [List.countP_eq_length_filter, filter_inMinutes, ← begins, ← bucket] at counted
    let inside := interval (getBucketSize range) timetable.region x window
    have some : 0 < minutes / k := Nat.div_pos (TimeSpan.fromMinutes_le.mp room) covers.positive
    obtain ⟨row, selected⟩ := List.exists_mem_of_length_pos (some.trans_le counted)
    obtain ⟨inWindow, inRegion, -⟩ := mem_interval.mp selected
    refine ⟨⟨timetable.region, points (getBucketSize range) (Analytics.ofRegion timetable.region window)⟩,
      mem_latencyData.mpr ⟨named, ⟨row, inWindow, inRegion⟩, rfl⟩, rfl, point (x, inside),
      point_mem_points positive multiple selected, rfl, ?_⟩
    intro failed
    have all : inside.countP isError = inside.length := by
      refine List.countP_eq_length.mpr fun row listed => ?_
      obtain ⟨read, inRegion, notBefore, notAfter⟩ := mem_interval.mp listed
      exact failed row ((windowRows_sublist valid context monitor.id _).subset read) inRegion notBefore
        notAfter
    rw [bucket, TimeSpan.fromMinutes_div]
    exact counted.trans all.ge

/-- Minute two has its failed check in the chart of the hour, though Alice has paused the monitor. -/
theorem charts_gapless_outage :
    let store := (Phased.run (machine Unit) (outage.system 3) [.call (.web (some "alice") (.setPause 1))]).store
    ∃ series ∈ onGetLatencyDataAsync { currentUserId := some "alice" } store (TimeSpan.fromMinutes 9) 1 "1h",
      series.name = "eastus" ∧ ∃ point ∈ series.data, point.x = TimeSpan.fromMinutes 2 ∧ 1 ≤ point.errors := by
  have covers : outage.Covers { id := 1, ownerId := "alice", createdAt := 10 } 1 0 2 :=
    ⟨by decide, le_rfl, by decide, by decide +kernel, by decide +kernel, by decide +kernel, by decide,
      by decide⟩
  obtain ⟨series, listed, ofRegion, point, inSeries, minute, errors⟩ :=
    (charts_gapless outage _ 1 2 0 covers (by decide)
      [.call (.web (some "alice") (.setPause 1))] { currentUserId := some "alice" } (by decide +kernel)
      (TimeSpan.fromMinutes 9) "1h").2 (TimeSpan.fromMinutes 2) (by decide) (by decide) (by decide) le_rfl
      (by decide)
  exact ⟨series, listed, ofRegion, point, inSeries, minute, errors (by decide +kernel)⟩

end UrlPulse.Timetable
