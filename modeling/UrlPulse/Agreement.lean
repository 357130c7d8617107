import UrlPulse.Journal
import UrlPulse.Throughput
import UrlPulse.Web.Reconciliation
import UrlPulse.Web.Uptime

namespace UrlPulse

open UrlPulse.Core UrlPulse.Infrastructure UrlPulse.Web UrlPulse.Web.Analytics UrlPulse.Web.MonitorTable
open UrlPulse.Worker UrlPulse.Data UrlPulse.Data.Linq
open UrlPulse.Data.Phased (Step Keeps)

/-! # What one page shows, the other has

The dashboard shows the last check of a monitor, the analytics page sums up a window of
its checks, and both may have been opened at different moments.
-/

variable {Tag World : Type} [DecidableEq Tag] {store : Store} {context : ApplicationDbContext}
  {rows : List LatencyHistory} {check : LatencyHistory}

/-! ## A check in the answers -/

/-- The window has the check, and the answers for it count it where they count its kind: in the
stat cards, under its status label, and, unless it has no region, in the regional comparison and
in the bucket of its time. -/
structure Charted (context : ApplicationDbContext) (store : Store) (now : DateTime) (id : Int)
    (range : String) (check : LatencyHistory) : Prop where
  read : check ∈ windowRows context store id (parseRange now range)
  stats : ∃ answer, onGetStatsAsync context store now id range = some answer ∧
    answer.totalChecks = (windowRows context store id (parseRange now range)).length ∧
    answer.outages = (windowRows context store id (parseRange now range)).countP fun row =>
      row.statusCode = 0 || 500 ≤ row.statusCode
  label : ∃ entry ∈ onGetStatusDistributionAsync context store now id range,
    entry.label = statusLabel check.statusCode ∧
    entry.count = (windowRows context store id (parseRange now range)).countP fun row =>
      statusLabel row.statusCode = statusLabel check.statusCode
  comparison : isNullOrWhiteSpace check.region = false →
    ∃ entry ∈ onGetRegionSummaryAsync context store now id range, entry.region = check.region ∧
      entry.totalChecks = (windowRows context store id (parseRange now range)).countP fun row =>
        row.region = check.region
  point : isNullOrWhiteSpace check.region = false →
    ∃ series ∈ onGetLatencyDataAsync context store now id range, series.name = check.region ∧
      ∃ point ∈ series.data, point.x ≤ check.checkedAt ∧
        check.checkedAt < point.x + getBucketSize range ∧
        let inside := interval (getBucketSize range) check.region point.x
          (windowRows context store id (parseRange now range))
        check ∈ inside ∧ point.y = (inside.map (·.latencyMs)).sum / inside.length ∧
          point.errors = inside.countP fun row => row.statusCode = 0 || 400 ≤ row.statusCode

theorem stats_eq_none : stats rows = none ↔ rows = [] := by
  constructor
  · intro unanswered
    by_contra nonempty
    obtain ⟨answer, answered⟩ := stats_isSome nonempty
    rw [unanswered] at answered
    contradiction
  · rintro rfl
    rfl

theorem charted_of_mem {now : DateTime} {id : Int} {range : String}
    (member : check ∈ windowRows context store id (parseRange now range)) :
    Charted context store now id range check where
  read := member
  stats := by
    have some : (windowRows context store id (parseRange now range)).length ≠ 0 :=
      (List.length_pos_of_mem member).ne'
    exact ⟨_, if_neg some, rfl, rfl⟩
  label := by
    obtain ⟨entry, ⟨listed, label⟩, -⟩ := existsUnique_entry member
    refine ⟨entry, listed, label, ?_⟩
    rw [(mem_statusDistribution.mp listed).2, label]
  comparison := by
    intro named
    let window := windowRows context store id (parseRange now range)
    refine ⟨summary (check.region, ofRegion check.region window),
      mem_regionSummary.mpr ⟨named, ⟨check, member, rfl⟩, rfl⟩, rfl, ?_⟩
    rw [List.countP_eq_length_filter]
    rfl
  point := by
    intro named
    have positive := (range_in_buckets range).1
    let window := windowRows context store id (parseRange now range)
    let x := truncateToBucket check.checkedAt (getBucketSize range)
    have multiple : getBucketSize range ∣ x := dvd_truncateToBucket _ _
    have inBucket := (truncateToBucket_eq_iff positive multiple).mp rfl
    have selected : check ∈ interval (getBucketSize range) check.region x window :=
      mem_interval.mpr ⟨member, rfl, inBucket⟩
    refine ⟨⟨check.region, points (getBucketSize range) (ofRegion check.region window)⟩,
      mem_latencyData.mpr ⟨named, ⟨check, member, rfl⟩, rfl⟩, rfl, _,
      point_mem_points positive multiple selected, inBucket.1, inBucket.2, selected, ?_, rfl⟩
    exact congrArg (_ / ·) (List.length_map _)

/-- What has been stored is in every later answer, as long as its monitor is there. -/
theorem charted_later {system : System Tag World} {monitor : UrlMonitor} {id : Int} {now : DateTime}
    {range : String} (keeps : Keeps Store.Valid FromLoad system) (steps : List (Step Tag (Operation World)))
    (stored : check ∈ system.store.historyOf id)
    (visible : monitor ∈ context.urlMonitors (Phased.run (machine World) system steps).store)
    (same : monitor.id = id) (inside : parseRange now range ≤ check.checkedAt) :
    Charted context (Phased.run (machine World) system steps).store now id range check := by
  subst same
  obtain ⟨new, grown, -⟩ := run_history keeps steps
    (.inl (Store.mem_monitorIds.mpr ⟨monitor, List.mem_of_mem_filter visible, rfl⟩))
  refine charted_of_mem ?_
  rw [windowRows_of_visible (run_valid keeps.store steps) visible, grown]
  exact List.mem_filter.mpr ⟨List.mem_append_left _ stored, decide_eq_true inside⟩

/-! ## A check on the dashboard -/

/-- A row of the table tells of the last check, if there is one. -/
theorem latest_of_shown {row : MonitorRow} (shown : Shows context store row) :
    (row.lastCheck = none ∧ store.historyOf row.id = []) ∨
      ∃ check, Latest (store.historyOf row.id) check ∧ row.lastCheck = some check.checkedAt ∧
        row.response = some (check.latencyMs, check.statusCode) ∧
        (row.badge = "UP" ↔ statusLabel check.statusCode = "2xx") := by
  obtain ⟨monitor, -, latest, absent, newest, rfl⟩ := shown
  cases latest with
  | none => exact .inl ⟨rfl, absent rfl⟩
  | some check =>
      refine .inr ⟨check, newest check rfl, rfl, rfl, ?_⟩
      rw [badge_eq_up_iff, ← isSuccess_iff]
      rfl

theorem exists_monitor_of_shown {row : MonitorRow} (shown : Shows context store row) :
    ∃ monitor ∈ context.urlMonitors store, monitor.id = row.id ∧ monitor.url = row.url := by
  obtain ⟨monitor, visible, latest, -, -, rfl⟩ := shown
  exact ⟨monitor, visible, rfl, rfl⟩

/-- At any moment, a window holds a check exactly if it reaches back to the last check on the
dashboard, and no bucket begins after that; and what the dashboard has shown of the check, every
later answer has whose window reaches back to it, whatever has happened in between. -/
theorem shown_is_charted (database : Database) (steps more : List (Step Tag (Operation World)))
    (viewer : ApplicationDbContext) :
    let early := Phased.run (machine World) ({ store := database.toStore } : System Tag World) steps
    let late := Phased.run (machine World) early more
    ∀ row, Shows viewer early.store row →
      (∀ now range, onGetStatsAsync viewer early.store now row.id range = none ↔
        ∀ time, row.lastCheck = some time → (time : Int) < parseRange now range) ∧
      ∀ time, row.lastCheck = some time →
        (∀ now range, ∀ series ∈ onGetLatencyDataAsync viewer early.store now row.id range,
          ∀ point ∈ series.data, point.x ≤ time) ∧
        ∃ check ∈ early.store.historyOf row.id, check.checkedAt = time ∧
          row.response = some (check.latencyMs, check.statusCode) ∧
          (row.badge = "UP" ↔ statusLabel check.statusCode = "2xx") ∧
          ∀ (analyst : ApplicationDbContext), ∀ option ∈ Analytics.onGetAsync analyst late.store,
            option.id = row.id → option.url = row.url ∧
              ∀ now range, parseRange now range ≤ time →
                Charted analyst late.store now row.id range check := by
  intro early late row shown
  have keeps : Keeps Store.Valid FromLoad early := keeps_fromLoad database steps
  obtain ⟨monitor, visible, key, url⟩ := exists_monitor_of_shown shown
  have window : ∀ since, windowRows viewer early.store row.id since =
      (early.store.historyOf row.id).filter fun check => since ≤ (check.checkedAt : Int) := by
    intro since
    rw [← key]
    exact windowRows_of_visible keeps.store visible since
  rcases latest_of_shown shown with ⟨never, empty⟩ | ⟨check, latest, last, response, badge⟩
  · constructor
    · intro now range
      refine iff_of_true ?_ fun time some => ?_
      · rw [onGetStatsAsync, stats_eq_none, window, empty]
        rfl
      · rw [never] at some
        contradiction
    · intro time some
      rw [never] at some
      contradiction
  · constructor
    · intro now range
      rw [onGetStatsAsync, stats_eq_none, window, List.filter_eq_nil_iff]
      constructor
      · intro outside time some
        rw [← Option.some.inj (last.symm.trans some)]
        exact not_le.mp fun inside => outside check latest.1 (decide_eq_true inside)
      · intro outside row member inside
        have before := outside check.checkedAt last
        have newest : (row.checkedAt : Int) ≤ check.checkedAt := Int.ofNat_le.mpr (latest.2 row member)
        exact absurd (of_decide_eq_true inside) (not_le.mpr (newest.trans_lt before))
    · intro time some
      obtain rfl : check.checkedAt = time := Option.some.inj (last.symm.trans some)
      refine ⟨?charts, check, latest.1, rfl, response, badge, ?later⟩
      case charts =>
        intro now range series listed point inSeries
        rw [(mem_latencyData.mp listed).2.2] at inSeries
        obtain ⟨other, selected, begins⟩ := (mem_points.mp inSeries).1
        have recorded := List.mem_of_mem_filter selected
        rw [window] at recorded
        calc
          point.x = truncateToBucket other.checkedAt (getBucketSize range) := begins.symm
          _ ≤ other.checkedAt := Nat.div_mul_le_self _ _
          _ ≤ check.checkedAt := latest.2 other (List.mem_of_mem_filter recorded)
      case later =>
        intro analyst option listed same
        obtain ⟨other, ordered, rfl⟩ := List.mem_map.mp listed
        have otherVisible : other ∈ analyst.urlMonitors late.store := mem_orderByDescending.mp ordered
        have otherStored : other ∈ late.store.urlMonitors := List.mem_of_mem_filter otherVisible
        have sameKey : other.id = row.id := same
        have fixed := (fixed_of_stored (·.url) keeps.store (List.mem_of_mem_filter visible)).run
          (fun _ _ => rfl) more
        refine ⟨(fixed.value other otherStored (sameKey.trans key.symm)).trans url, ?_⟩
        intro now range inside
        exact charted_later keeps more latest.1 otherVisible sameKey inside

/-- The check that was shown as UP is still in the chart when the next one has failed. -/
theorem shown_is_charted_fails_later :
    let early := Phased.run (machine Unit)
      ({ store := BatchRun.twoOwners.toStore } : System Nat Unit) pausedMeanwhile
    let late := Phased.run (machine Unit) early failsLater
    ∃ row ∈ monitorTable (Index.onGetAsync { currentUserId := some "alice" } early.store),
      row.badge = "UP" ∧ ∃ entry ∈ onGetStatusDistributionAsync { currentUserId := some "alice" }
          late.store (TimeSpan.fromHours 1) row.id "24h", entry.label = "2xx" ∧ 0 < entry.count := by
  intro early late
  let row := (monitorTable (Index.onGetAsync { currentUserId := some "alice" } early.store)).head
    (by decide)
  let option := (Analytics.onGetAsync { currentUserId := some "alice" } late.store).head
    (by decide +kernel)
  have shown := shown_is_charted BatchRun.twoOwners pausedMeanwhile failsLater
    { currentUserId := some "alice" } row (shows_of_mem_monitorTable (List.head_mem _))
  obtain ⟨-, check, -, -, -, badge, later⟩ := shown.2 (row.lastCheck.get (by decide)) (Option.some_get _).symm
  have charted := (later { currentUserId := some "alice" } option (List.head_mem _) (by decide +kernel)).2
    (TimeSpan.fromHours 1) "24h" (by decide)
  obtain ⟨entry, listed, label, counted⟩ := charted.label
  refine ⟨row, List.head_mem _, by decide, entry, listed, label.trans (badge.mp (by decide)), ?_⟩
  rw [counted]
  exact List.countP_pos_iff.mpr ⟨check, charted.read, decide_eq_true rfl⟩

end UrlPulse
