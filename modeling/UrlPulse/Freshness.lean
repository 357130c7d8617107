import UrlPulse.Cadence
import UrlPulse.Journal

namespace UrlPulse.Timetable

open UrlPulse.Core UrlPulse.Infrastructure UrlPulse.Web UrlPulse.Worker UrlPulse.Data
open UrlPulse.Web.MonitorTable
open UrlPulse.Data.Phased (Step Keeps)

/-! # How old a status can be

A region whose runs keep their times checks a monitor within its interval, and from
then on the dashboard shows that check or a later one.
-/

variable {Tag World : Type} [DecidableEq Tag] {timetable : Timetable Tag World} {monitor : UrlMonitor}
  {k first : Nat} {start : DateTime}

/-- Up to run `last`, no run is early, and no check is made before its run starts or
more than five seconds after the run's minute. -/
def InTime (timetable : Timetable Tag World) (start : DateTime) (last : Nat) : Prop :=
  ∀ i ≤ last, start + TimeSpan.fromMinutes i ≤ (timetable.run i).now ∧
    ∀ row ∈ (timetable.run i).added (timetable.loaded i), (timetable.run i).now ≤ row.checkedAt ∧
      row.checkedAt ≤ start + TimeSpan.fromMinutes i + TimeSpan.fromSeconds 5

instance (timetable : Timetable Tag World) (start : DateTime) (last : Nat) :
    Decidable (timetable.InTime start last) :=
  inferInstanceAs (Decidable (∀ i ≤ last, start + TimeSpan.fromMinutes i ≤ (timetable.run i).now ∧
    ∀ row ∈ (timetable.run i).added (timetable.loaded i), (timetable.run i).now ≤ row.checkedAt ∧
      row.checkedAt ≤ start + TimeSpan.fromMinutes i + TimeSpan.fromSeconds 5))

theorem mem_rowsOf {id : Int} {region : String} {store : Store} {row : LatencyHistory} :
    row ∈ rowsOf id region store ↔ row ∈ store.historyOf id ∧ row.region = region := by
  simp only [rowsOf, historyIn, Store.historyOf, List.mem_filter, decide_eq_true_eq]
  tauto

/-- A check has a row, which carries its time as the column keeps it. -/
theorem stamp_of_checks {i : Nat} (committed : timetable.commits i) {id : Int}
    (checked : timetable.checks id i) :
    (∃ row ∈ (timetable.run i).added (timetable.loaded i),
        timetable.stamp id i = timestamptz row.checkedAt) ∧
      ∃ row ∈ rowsOf id timetable.region (timetable.saved i),
        (row.checkedAt : Int) = timetable.stamp id i := by
  rcases rowsOf_saved committed id with ⟨-, ⟨added, found, stamped⟩, row, same, appended⟩ | ⟨skipped, -⟩
  · refine ⟨⟨added, List.mem_of_find?_eq_some found, stamped⟩, row, ?_, same⟩
    rw [appended]
    exact List.mem_append_right _ (List.mem_singleton.mpr rfl)
  · exact absurd checked skipped

theorem natCast_minutes (start : DateTime) (i : Nat) :
    ((start + TimeSpan.fromMinutes i : Nat) : Int) = start + minute * i := by
  rw [Int.natCast_add, fromMinutes_toInt]

/-- Any `k` runs in a row check the monitor. -/
theorem checks_within (interval : monitor.checkIntervalMinutes.toInt = k) (positive : 1 ≤ k)
    (fits : k * 60 ≤ 2147483647) (watched : timetable.Watched monitor (first + k - 1))
    (committed : ∀ i < first + k, timetable.commits i)
    (inTime : timetable.InTime start (first + k - 1))
    (old : ∀ row ∈ rowsOf monitor.id timetable.region (timetable.loaded 0),
      row.checkedAt + TimeSpan.fromSeconds 55 ≤ start) :
    ∃ i, first ≤ i ∧ i < first + k ∧ timetable.checks monitor.id i := by
  have fires : ∀ i ≤ first + k - 1,
      (timetable.checks monitor.id i ↔ (timetable.attempts monitor).fires i = true) :=
    fun i bound => checks_iff_fires (fun j before => watched j (before.trans bound))
      fun j before => committed j (by omega)
  have initially : ∀ time ∈ (timetable.attempts monitor).initial,
      time ≤ (start : Int) - minute + leeway k := by
    intro time member
    have least := (leeway_bounds k).1
    obtain ⟨row, listed, rfl⟩ := List.mem_map.mp member
    have seconds : (TimeSpan.fromSeconds 55 : Int) = minute - tolerance := by decide
    have bound : ((row.checkedAt + TimeSpan.fromSeconds 55 : Nat) : Int) ≤ start :=
      Int.ofNat_le.mpr (old row listed)
    rw [Int.natCast_add, seconds] at bound
    omega
  have prompt : ∀ j < first, (timetable.attempts monitor).fires j = true →
      (timetable.attempts monitor).stamp j ≤ (start : Int) + minute * j + leeway k := by
    intro j before fired
    have checked := (fires j (by omega)).mpr fired
    obtain ⟨⟨row, added, stamped⟩, -⟩ := stamp_of_checks (committed j (by omega)) checked
    have bound := Int.ofNat_le.mpr ((inTime j (by omega)).2 row added).2
    rw [Int.natCast_add, natCast_minutes] at bound
    calc
      (timetable.attempts monitor).stamp j = timestamptz row.checkedAt := stamped
      _ ≤ row.checkedAt := Int.ofNat_le.mpr (timestamptz_le row.checkedAt)
      _ ≤ start + minute * j + tolerance := bound
      _ ≤ start + minute * j + leeway k := Int.add_le_add_left (leeway_bounds k).1 _
  have onTime : (start : Int) + minute * (first + k - 1 : Nat) ≤
      (timetable.attempts monitor).now (first + k - 1) := by
    rw [← natCast_minutes]
    exact Int.ofNat_le.mpr (inTime (first + k - 1) le_rfl).1
  obtain ⟨i, after, before, fired⟩ := Throttle.Attempts.fires_within positive
    (gap_eq interval positive fits) (by decide : 0 ≤ minute) initially prompt onTime
  exact ⟨i, after, before, (fires i (by omega)).mpr fired⟩

/-! ## To the dashboard -/

theorem system_from {i j : Nat} (before : i ≤ j) :
    ∃ steps, timetable.system j = Phased.run (machine World) (timetable.system i) steps := by
  induction j, before using Nat.le_induction with
  | base => exact ⟨[], rfl⟩
  | succ j _ ih =>
      obtain ⟨steps, reached⟩ := ih
      refine ⟨steps ++ (timetable.untilSave j ++ [.save timetable.tag]), ?_⟩
      rw [Phased.run_append, ← reached]
      rfl

/-- A row of a stored monitor has been in its history ever since. -/
theorem mem_historyOf_later {i j : Nat} {id : Int} {row : LatencyHistory} (before : i ≤ j)
    (more : List (Step Tag (Operation World))) (member : row ∈ (timetable.system i).store.historyOf id)
    (stored : id ∈ (Phased.run (machine World) (timetable.system j) more).store.monitorIds) :
    row ∈ (Phased.run (machine World) (timetable.system j) more).store.historyOf id := by
  obtain ⟨initial, reached⟩ := timetable.system_from (Nat.zero_le i)
  have keeps : Keeps Store.Valid FromLoad (timetable.system i) := by
    rw [reached]
    exact keeps_fromLoad timetable.database initial
  obtain ⟨steps, later⟩ := timetable.system_from before
  rw [later, ← Phased.run_append] at stored ⊢
  obtain ⟨new, history, -⟩ := run_history keeps (steps ++ more) (.inl stored)
  rw [history]
  exact List.mem_append_left _ member

/-- The check that `k` runs in a row make is there ever after, in the minutes of these runs. -/
theorem exists_row_within {last : Nat} (interval : monitor.checkIntervalMinutes.toInt = k) (positive : 1 ≤ k)
    (fits : k * 60 ≤ 2147483647) (watched : timetable.Watched monitor (first + k - 1))
    (committed : ∀ i < first + k, timetable.commits i)
    (inTime : timetable.InTime start (first + k - 1))
    (old : ∀ row ∈ rowsOf monitor.id timetable.region (timetable.loaded 0),
      row.checkedAt + TimeSpan.fromSeconds 55 ≤ start)
    (past : first + k ≤ last) (more : List (Step Tag (Operation World)))
    (stored : monitor.id ∈ (Phased.run (machine World) (timetable.system last) more).store.monitorIds) :
    ∃ row ∈ rowsOf monitor.id timetable.region
        (Phased.run (machine World) (timetable.system last) more).store,
      timestamptz (start + TimeSpan.fromMinutes first) ≤ row.checkedAt ∧
        row.checkedAt < start + TimeSpan.fromMinutes (first + k) := by
  obtain ⟨i, after, before, checked⟩ :=
    checks_within interval positive fits watched committed inTime old
  obtain ⟨⟨added, inBatch, stamped⟩, row, recorded, rowStamp⟩ :=
    stamp_of_checks (committed i before) checked
  obtain ⟨inHistory, inRegion⟩ := mem_rowsOf.mp recorded
  have kept := mem_historyOf_later (i := i + 1) (Nat.le_trans before past) more inHistory stored
  have time : row.checkedAt = timestamptz added.checkedAt := by
    have both : (row.checkedAt : Int) = timestamptz added.checkedAt := rowStamp.trans stamped
    exact_mod_cast both
  obtain ⟨early, inBatchInTime⟩ := inTime i (by omega)
  obtain ⟨later, soon⟩ := inBatchInTime added inBatch
  refine ⟨row, mem_rowsOf.mpr ⟨kept, inRegion⟩, ?_, ?_⟩
  · rw [time]
    apply timestamptz_mono
    calc
      start + TimeSpan.fromMinutes first ≤ start + TimeSpan.fromMinutes i :=
        Nat.add_le_add_left (TimeSpan.fromMinutes_le.mpr after) start
      _ ≤ (timetable.run i).now := early
      _ ≤ added.checkedAt := later
  · calc
      row.checkedAt = timestamptz added.checkedAt := time
      _ ≤ added.checkedAt := timestamptz_le added.checkedAt
      _ ≤ start + TimeSpan.fromMinutes i + TimeSpan.fromSeconds 5 := soon
      _ < start + TimeSpan.fromMinutes i + TimeSpan.fromMinutes 1 := Nat.add_lt_add_left (by decide) _
      _ = start + TimeSpan.fromMinutes (i + 1) := by
        rw [Nat.add_assoc, ← TimeSpan.fromMinutes_add]
      _ ≤ start + TimeSpan.fromMinutes (first + k) :=
        Nat.add_le_add_left (TimeSpan.fromMinutes_le.mpr before) start

/-- Once `k` runs have come after minute `first`, and these and all before them were in
time and lost nothing, the dashboard never again shows a check of the monitor older than
that minute, whatever happens then.  So a site that has failed all its checks since is
shown as down, and one that has passed them all as up. -/
theorem status_fresh (timetable : Timetable Tag World) (monitor : UrlMonitor) (k first : Nat)
    (start : DateTime) (interval : monitor.checkIntervalMinutes.toInt = k) (positive : 1 ≤ k)
    (fits : k * 60 ≤ 2147483647) (watched : timetable.Watched monitor (first + k - 1))
    (committed : ∀ i < first + k, timetable.commits i)
    (inTime : timetable.InTime start (first + k - 1))
    (old : ∀ row ∈ rowsOf monitor.id timetable.region (timetable.loaded 0),
      row.checkedAt + TimeSpan.fromSeconds 55 ≤ start)
    (more : List (Step Tag (Operation World))) (viewer : Option String) :
    let store := (Phased.run (machine World) (timetable.system (first + k)) more).store
    let since := timestamptz (start + TimeSpan.fromMinutes first)
    ∀ row, Shows { currentUserId := viewer } store row → row.id = monitor.id →
      (∃ time, row.lastCheck = some time ∧ since ≤ time) ∧
      ∀ badge : Bool, (∀ check ∈ store.historyOf monitor.id,
          since ≤ check.checkedAt → isUp (some check) = badge) →
        row.badge = if badge then "UP" else "DOWN" := by
  intro store since row shown same
  obtain ⟨other, visible, latest, absent, newest, rfl⟩ := shown
  have key : other.id = monitor.id := same
  have stored : monitor.id ∈ store.monitorIds :=
    Store.mem_monitorIds.mpr ⟨other, List.mem_of_mem_filter visible, key⟩
  obtain ⟨check, recorded, recent, -⟩ :=
    exists_row_within interval positive fits watched committed inTime old le_rfl more stored
  have kept : check ∈ store.historyOf monitor.id := (mem_rowsOf.mp recorded).1
  rw [key] at absent newest
  cases latest with
  | none =>
      rw [absent rfl] at kept
      contradiction
  | some last =>
      obtain ⟨inHistory, greatest⟩ := newest last rfl
      have fresh : since ≤ last.checkedAt := recent.trans (greatest check kept)
      refine ⟨⟨last.checkedAt, rfl, fresh⟩, fun badge verdict => ?_⟩
      rw [← verdict last inHistory fresh]
      rfl

def everyMinuteOfAlice : Database where
  urlMonitors := [{ id := 1, ownerId := "alice", createdAt := 10 }]
  nextMonitorId := 2
  valid := by decide

/-- The site answers until minute two. -/
def failing (i : Nat) : TimerRun Unit where
  regionName := some "eastus"
  now := TimeSpan.fromMinutes i
  checker := fun _ _ world =>
    .ok ({ isUp := i < 2, latencyMs := some 20, statusCode := if i < 2 then 200 else 503
           checkedAt := TimeSpan.fromMinutes i + TimeSpan.fromSeconds 1 }, world)
  world := ()

def outage : Timetable Unit Unit := quiet everyMinuteOfAlice "eastus" () failing fun _ => rfl

/-- Alice pauses the monitor, but it has been seen to fail. -/
theorem status_fresh_outage :
    let table := monitorTable (Index.onGetAsync { currentUserId := some "alice" }
      (Phased.run (machine Unit) (outage.system 3) [.call (.web (some "alice") (.setPause 1))]).store)
    table.map (·.id) = [1] ∧ ∀ row ∈ table, row.badge = "DOWN" := by
  intro table
  refine ⟨by decide +kernel, ?_⟩
  intro row shown
  have only : ∀ row ∈ table, row.id = 1 := by decide +kernel
  exact (status_fresh outage { id := 1, ownerId := "alice", createdAt := 10 } 1 2 0 (by decide) le_rfl
    (by decide) (by decide +kernel) (by decide +kernel) (by decide +kernel) (by decide) _ (some "alice") row
    (shows_of_mem_monitorTable shown) (only row shown)).2 false (by decide +kernel)

end UrlPulse.Timetable
