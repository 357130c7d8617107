import UrlPulse.Infrastructure.UrlChecker
import UrlPulse.Timetable

namespace UrlPulse

open UrlPulse.Core UrlPulse.Infrastructure UrlPulse.Web UrlPulse.Worker UrlPulse.Data
open UrlPulse.Data.Phased

/-! # How often a monitor is checked -/

variable {World Tag : Type} {store after : Store} {region : String} {id : Int}

def minute : Int := TimeSpan.fromMinutes 1

def tolerance : Int := TimeSpan.fromSeconds 5

theorem fromMinutes_toInt (minutes : Nat) : (TimeSpan.fromMinutes minutes : Int) = minute * minutes := by
  simp only [minute, TimeSpan.fromMinutes, TimeSpan.fromSeconds]
  push_cast
  ring

/-- By how much `k` minutes are undercut: the tolerance, and what `TotalSeconds` rounds up
of an interval of decades. -/
def leeway (k : Nat) : Int := tolerance + TimeSpan.slack (k * 60 - 5)

theorem leeway_bounds (k : Nat) : tolerance ≤ leeway k ∧ leeway k ≤ tolerance + 2 := by
  have bounds := TimeSpan.slack_bounds (k * 60 - 5)
  rw [leeway]
  omega

theorem leeway_eq_iff {k : Nat} : leeway k = tolerance ↔ k ≤ 15011998 := by
  rw [leeway, add_eq_left, TimeSpan.slack_eq_zero_iff]
  omega

/-- Twice the leeway, and a microsecond, are less than a minute. -/
theorem leeway_small (k : Nat) : 0 ≤ leeway k ∧ leeway k + leeway k + 10 < minute := by
  have bounds := leeway_bounds k
  have period : minute = 600000000 := by decide
  have seconds : tolerance = 50000000 := by decide
  omega

theorem gap_eq {monitor : UrlMonitor} {k : Nat} (interval : monitor.checkIntervalMinutes.toInt = k)
    (positive : 1 ≤ k) (fits : k * 60 ≤ 2147483647) : gap monitor = minute * k - leeway k := by
  have threshold := @thresholdSeconds_toInt monitor (by omega) (by omega)
  have ticks : (TimeSpan.ticksPerSecond : Int) = 10000000 := by decide
  have period : minute = 600000000 := by decide
  have seconds : tolerance = 50000000 := by decide
  rw [gap, TimeSpan.fullTicks, threshold, interval, leeway, ticks, period, seconds]
  ring

/-- The least distance two stored checks keep, in the microseconds of their times. -/
def pace (monitor : UrlMonitor) : Int := gap monitor / 10 * 10

/-- An interval of less than 28 years is kept to the tick, any other to the microsecond. -/
theorem pace_bounds {monitor : UrlMonitor} {k : Nat} (interval : monitor.checkIntervalMinutes.toInt = k)
    (positive : 1 ≤ k) (fits : k * 60 ≤ 2147483647) :
    (k ≤ 15011998 → pace monitor = minute * k - tolerance) ∧ minute * k - tolerance - 10 ≤ pace monitor := by
  have bounds := leeway_bounds k
  have period : minute = 600000000 := by decide
  have seconds : tolerance = 50000000 := by decide
  rw [pace, gap_eq interval positive fits, period]
  refine ⟨fun exactly => ?_, by omega⟩
  rw [leeway_eq_iff.mpr exactly]
  omega

/-- If the monitor is there, its checks in the region are stored in whole microseconds
and keep their distance. -/
def Paced (id : Int) (region : String) (store : Store) : Prop :=
  ∀ monitor ∈ store.urlMonitors, monitor.id = id →
    (∀ time ∈ times id region store, 10 ∣ time) ∧
      Throttle.Spaced (pace monitor) (times id region store)

theorem Paced.apply {entry : EntityEntry} (foreign : Foreign region entry) (valid : store.Valid)
    (paced : Paced id region store) (applied : entry.apply store = .ok after) :
    Paced id region after := by
  intro monitor stored same
  rcases EntityEntry.apply_cases applied with
    ⟨added, history, rfl, -, rfl⟩ | ⟨row, rfl, -, rfl⟩ | ⟨target, isPaused, rfl, -, rfl⟩ | ⟨target, rfl, -, rfl⟩
  · obtain ⟨created, rfl⟩ := foreign
    rcases List.mem_append.mp stored with old | new
    · have issued : id < store.nextMonitorId :=
        valid.monitorIssued id (Store.mem_monitorIds.mpr ⟨monitor, old, same⟩)
      rw [times, rowsOf_insertMonitor added [writtenRow created] issued]
      exact paced monitor old same
    · -- the key is fresh, so the row it is created with is the only one
      have fresh : id = store.nextMonitorId := by
        rw [← same, List.mem_singleton.mp new]
      have none : rowsOf id region store = [] := by
        apply List.filter_eq_nil_iff.mpr
        intro row member points
        have issued := valid.monitorIssued _ (valid.foreignKey row (List.mem_of_mem_filter member))
        simp only [decide_eq_true_eq] at points
        omega
      have grown : rowsOf id region (store.insertMonitor added [writtenRow created]) =
          rowsOf id region store ++ _ :=
        rowsOf_appendHistories _ _
      rw [times, grown, none, List.nil_append]
      refine ⟨?_, .of_length_le_one ?_⟩
      · intro time member
        obtain ⟨stored, kept, rfl⟩ := List.mem_map.mp member
        obtain ⟨source, single, same⟩ := (Store.mem_numbered (List.mem_of_mem_filter kept)).1
        rw [same, List.mem_singleton.mp single]
        exact Int.natCast_dvd_natCast.mpr (dvd_timestamptz created.checkedAt)
      · rw [List.length_map]
        exact List.length_filter_le _ _
  · rw [times, rowsOf_append_others store fun inserted member => .inr (by
      rw [List.mem_singleton.mp member]
      exact foreign)]
    exact paced monitor stored same
  · obtain ⟨original, inside, flag, rfl⟩ := Store.mem_setPaused stored
    exact paced original inside same
  · obtain ⟨remains, different⟩ := List.mem_filter.mp stored
    rw [times, rowsOf_without (by simpa [same] using different)]
    exact paced monitor remains same

namespace Timetable

variable [DecidableEq Tag] {timetable : Timetable Tag World} {monitor : UrlMonitor}

/-! ## Within the tolerance -/

/-- Runs that start at most five seconds late, and reach the monitor within the
same five seconds, check it exactly every `k` runs. -/
theorem checks_iff_dvd (timetable : Timetable Tag World) (monitor : UrlMonitor) (k i : Nat)
    (start : DateTime) (interval : monitor.checkIntervalMinutes.toInt = k) (positive : 1 ≤ k)
    (fits : k * 60 ≤ 2147483647)
    (watched : timetable.Watched monitor i) (committed : ∀ j ≤ i, timetable.commits j)
    (fresh : rowsOf monitor.id timetable.region (timetable.loaded 0) = [])
    (drift : ∀ j ≤ i, start + TimeSpan.fromMinutes j ≤ (timetable.run j).now ∧
      (timetable.run j).now ≤ start + TimeSpan.fromMinutes j + TimeSpan.fromSeconds 5)
    (delay : ∀ j ≤ i, ∀ row ∈ (timetable.run j).added (timetable.loaded j),
      row.urlMonitorId = monitor.id → (timetable.run j).now ≤ row.checkedAt ∧
        row.checkedAt ≤ start + TimeSpan.fromMinutes j + TimeSpan.fromSeconds 5) :
    ((timetable.checks monitor.id i ∧ ∃ row,
        rowsOf monitor.id timetable.region (timetable.saved i) =
          rowsOf monitor.id timetable.region (timetable.found i) ++ [row]) ↔ k ∣ i) ∧
      (¬ k ∣ i → ¬ timetable.checks monitor.id i ∧
        rowsOf monitor.id timetable.region (timetable.saved i) =
          rowsOf monitor.id timetable.region (timetable.found i)) := by
  have fires : ∀ j ≤ i, (timetable.checks monitor.id j ↔ (timetable.attempts monitor).fires j = true) :=
    fun j bound => checks_iff_fires (fun l below => watched l (by omega))
      fun l below => committed l (by omega)
  have onTime : ∀ j ≤ i, (start : Int) + minute * j ≤ (timetable.run j).now ∧
      (timetable.run j).now ≤ (start : Int) + minute * j + leeway k := by
    intro j bound
    rw [← fromMinutes_toInt]
    exact ⟨Int.ofNat_le.mpr (drift j bound).1,
      (Int.ofNat_le.mpr (drift j bound).2).trans (Int.add_le_add_left (leeway_bounds k).1 _)⟩
  have prompt : ∀ j ≤ i, (timetable.attempts monitor).fires j = true →
      (timetable.run j).now ≤ timetable.stamp monitor.id j + 10 ∧
        timetable.stamp monitor.id j ≤ (start : Int) + minute * j + leeway k := by
    intro j bound fired
    rcases rowsOf_saved (committed j bound) monitor.id with ⟨-, ⟨row, first, stamped⟩, -⟩ | ⟨skipped, -⟩
    · obtain ⟨after, before⟩ :=
        delay j bound row (List.mem_of_find?_eq_some first) (by simpa using List.find?_some first)
      have stored := timestamptz_le row.checkedAt
      have precise := lt_timestamptz_add row.checkedAt
      rw [stamped, ← fromMinutes_toInt]
      exact ⟨by exact_mod_cast after.trans precise.le,
        (Int.ofNat_le.mpr (stored.trans before)).trans (Int.add_le_add_left (leeway_bounds k).1 _)⟩
    · exact absurd ((fires j bound).mpr fired) skipped
  have regular : (timetable.attempts monitor).fires i = true ↔ k ∣ i :=
    Throttle.Attempts.fires_iff_dvd positive (gap_eq interval positive fits)
      (by decide) (leeway_small k).2 (congrArg (List.map _) fresh) onTime prompt
  have decided := (fires i le_rfl).trans regular
  rcases rowsOf_saved (committed i le_rfl) monitor.id with
    ⟨checked, -, row, -, extended⟩ | ⟨skipped, same⟩
  · have onbeat := decided.mp checked
    exact ⟨⟨fun _ => onbeat, fun _ => ⟨checked, row, extended⟩⟩, fun offbeat => absurd onbeat offbeat⟩
  · have offbeat : ¬ k ∣ i := fun onbeat => skipped (decided.mpr onbeat)
    exact ⟨⟨fun checked => absurd checked.1 skipped, fun onbeat => absurd onbeat offbeat⟩,
      fun _ => ⟨skipped, same⟩⟩

def twoMinutely : UrlMonitor := { id := 1, ownerId := "alice", checkIntervalMinutes := 2, createdAt := 10 }

def checkedElsewhere : Database where
  urlMonitors := [twoMinutely]
  latencyHistories :=
    [{ id := 1, urlMonitorId := 1, checkedAt := TimeSpan.fromHours 9, region := "westus" }]
  nextMonitorId := 2
  nextHistoryId := 2
  valid := by decide

def slightlyLate (i : Nat) : TimerRun Unit where
  regionName := some "eastus"
  now := TimeSpan.fromMinutes i + TimeSpan.fromSeconds 3
  checker := fun _ _ world =>
    .ok ({ isUp := true, latencyMs := some 20, statusCode := 200,
           checkedAt := TimeSpan.fromMinutes i + TimeSpan.fromSeconds 5 }, world)
  world := ()

def lateRuns : Timetable Unit Unit := quiet checkedElsewhere "eastus" () slightlyLate fun _ => rfl

theorem checks_iff_dvd_lateRuns :
    (¬ lateRuns.checks 1 1 ∧ rowsOf 1 "eastus" (lateRuns.saved 1) = rowsOf 1 "eastus" (lateRuns.found 1)) ∧
    lateRuns.checks 1 2 ∧
      ∃ row, rowsOf 1 "eastus" (lateRuns.saved 2) = rowsOf 1 "eastus" (lateRuns.found 2) ++ [row] := by
  constructor
  · exact (checks_iff_dvd lateRuns twoMinutely 2 1 0 (by decide) (by decide) (by decide)
      (by decide +kernel) (by decide +kernel) (by decide) (by decide) (by decide +kernel)).2 (by decide)
  · exact (checks_iff_dvd lateRuns twoMinutely 2 2 0 (by decide) (by decide) (by decide)
      (by decide +kernel) (by decide +kernel) (by decide) (by decide) (by decide +kernel)).1.mpr (by decide)

/-! ## The distance between two checks -/

theorem saved_paced {i : Nat}
    (later : ∀ row ∈ (timetable.run i).added (timetable.loaded i), (timetable.run i).now ≤ row.checkedAt)
    (found : Paced id timetable.region (timetable.found i)) :
    Paced id timetable.region (timetable.saved i) := by
  intro monitor stored same
  rcases timetable.saved_cases i with ⟨rows, -, committed, saved⟩ | ⟨-, saved, -⟩
  · have before : monitor ∈ (timetable.found i).urlMonitors := by
      rw [saved] at stored
      exact stored
    obtain ⟨whole, spaced⟩ := found monitor before same
    rcases rowsOf_saved committed id with
      ⟨⟨loaded, due, key⟩, ⟨row, first, stamped⟩, inserted, recorded, extended⟩ | ⟨-, unchanged⟩
    · obtain ⟨⟨loadedStored, running⟩, -⟩ := TimerRun.mem_due_iff.mp due
      have issued : id < (timetable.loaded i).nextMonitorId :=
        (loaded_valid i).monitorIssued id (Store.mem_monitorIds.mpr ⟨loaded, loadedStored, key⟩)
      have sameInterval : Fixed (·.checkIntervalMinutes) id loaded.checkIntervalMinutes (timetable.found i) :=
        kept_found (fun _ _ _ _ held applied => held.apply (fun _ _ => rfl) applied)
          ⟨issued, fun other member points =>
            by rw [(loaded_valid i).monitor_unique member loadedStored (points.trans key.symm)]⟩
      have sameGap : gap loaded = gap monitor := by
        rw [gap, gap, thresholdSeconds, thresholdSeconds, ← sameInterval.value monitor before same]
      have allowed : Throttle.due (gap monitor) (times id timetable.region (timetable.found i))
          (timetable.run i).now = true := by
        rw [times, (found_undisturbed issued).rows (Store.mem_monitorIds.mpr ⟨monitor, before, same⟩),
          ← sameGap, ← key]
        exact (checks_iff_due loadedStored running).mp ⟨loaded, due, rfl⟩
      have notBefore : ((timetable.run i).now : Int) / 10 * 10 ≤ timetable.stamp id i := by
        rw [stamped]
        exact_mod_cast timestamptz_mono (later row (List.mem_of_find?_eq_some first))
      rw [times, extended, List.map_append, List.map_singleton, recorded]
      refine ⟨?_, spaced.append (by decide) whole allowed notBefore⟩
      intro time member
      rcases List.mem_append.mp member with old | new
      · exact whole time old
      · rw [List.mem_singleton.mp new, stamped]
        exact Int.natCast_dvd_natCast.mpr (dvd_timestamptz row.checkedAt)
    · rw [times, unchanged]
      exact ⟨whole, spaced⟩
  · rw [saved] at stored ⊢
    exact found monitor stored same

theorem passes_paced {i : Nat}
    (later : ∀ row ∈ (timetable.run i).added (timetable.loaded i), (timetable.run i).now ≤ row.checkedAt)
    (before : Paced id timetable.region (timetable.system i).store) {store : Store}
    (passed : timetable.Passes i store) : Paced id timetable.region store := by
  have kept : ∀ entry before next, Foreign timetable.region entry →
      before.Valid ∧ Paced id timetable.region before → EntityEntry.apply entry before = .ok next →
      next.Valid ∧ Paced id timetable.region next := fun _ _ _ foreign held applied =>
    ⟨EntityEntry.apply_valid held.1 applied, held.2.apply foreign held.1 applied⟩
  have started : (timetable.system i).store.Valid ∧ Paced id timetable.region (timetable.system i).store :=
    ⟨(settled i).valid, before⟩
  have loaded := kept_loaded kept started
  cases passed with
  | beforeLoad steps inside => exact (kept_before kept inside started).2
  | beforeSave steps inside => exact (kept_during kept inside loaded).2
  | saved => exact saved_paced later (kept_found kept loaded).2

theorem system_paced {i : Nat} (initially : Paced id timetable.region timetable.database.toStore)
    (later : ∀ j < i, ∀ row ∈ (timetable.run j).added (timetable.loaded j),
      (timetable.run j).now ≤ row.checkedAt) :
    Paced id timetable.region (timetable.system i).store := by
  induction i with
  | zero => exact initially
  | succ i ih => exact passes_paced (later i (by omega)) (ih fun j bound => later j (by omega)) .saved

/-- Whatever the start times of a region's runs and whatever goes on around them,
two checks of a monitor are never closer than its interval less the tolerance, or
less another microsecond if the interval is of decades. -/
theorem never_checked_too_often (timetable : Timetable Tag World) (id : Int) (last : Nat)
    (initially : Paced id timetable.region timetable.database.toStore)
    (later : ∀ i ≤ last, ∀ row ∈ (timetable.run i).added (timetable.loaded i),
      (timetable.run i).now ≤ row.checkedAt) :
    ∀ store, timetable.Passes last store → ∀ monitor ∈ store.urlMonitors, monitor.id = id →
      ∀ k : Nat, monitor.checkIntervalMinutes.toInt = k → 1 ≤ k → k * 60 ≤ 2147483647 →
        ∀ first ∈ rowsOf id timetable.region store, ∀ second ∈ rowsOf id timetable.region store,
          first ≠ second →
            (k ≤ 15011998 → (TimeSpan.fromMinutes k : Int) - TimeSpan.fromSeconds 5 ≤
              |(first.checkedAt : Int) - second.checkedAt|) ∧
            (TimeSpan.fromMinutes k : Int) - TimeSpan.fromSeconds 5 - 10 ≤
              |(first.checkedAt : Int) - second.checkedAt| := by
  intro store passed monitor stored same k interval positive fits first firstIn second secondIn different
  have before : Paced id timetable.region (timetable.system last).store :=
    system_paced initially fun i bound => later i bound.le
  have spaced := (passes_paced (later last le_rfl) before passed monitor stored same).2
  have apart := spaced.apart firstIn secondIn different
  obtain ⟨exactly, within⟩ := pace_bounds interval positive fits
  rw [fromMinutes_toInt]
  exact ⟨fun small => (exactly small).symm.le.trans apart, within.trans apart⟩

def tooEager (i : Nat) : TimerRun Unit where
  regionName := some "eastus"
  now := TimeSpan.fromSeconds (40 * i)
  checker := fun _ _ world =>
    .ok ({ isUp := true, latencyMs := some 20, statusCode := 200,
           checkedAt := TimeSpan.fromSeconds (40 * i + 7) }, world)
  world := ()

/-- Alice pauses and resumes her monitor between the runs, and while one is out. -/
def eagerRuns : Timetable Unit Unit where
  database := checkedElsewhere
  region := "eastus"
  tag := ()
  run := tooEager
  before _ := [.call (.web (some "alice") (.setPause 1)), .call (.web (some "alice") (.setPause 1))]
  during _ := [.call (.web (some "alice") (.setPause 1)), .call (.web (some "alice") (.setPause 1))]
  ofRegion _ := rfl
  apartBefore := by simp [Apart, Step.tag?, Step.op?]
  apartDuring := by simp [Apart, Step.tag?, Step.op?]

theorem never_checked_too_often_eagerRuns :
    (rowsOf 1 "eastus" (eagerRuns.saved 4)).length = 2 ∧
    ∀ first ∈ rowsOf 1 "eastus" (eagerRuns.saved 4), ∀ second ∈ rowsOf 1 "eastus" (eagerRuns.saved 4),
      first ≠ second → (TimeSpan.fromMinutes 2 : Int) - TimeSpan.fromSeconds 5 ≤
        |(first.checkedAt : Int) - second.checkedAt| := by
  constructor
  · decide +kernel
  · intro first firstIn second secondIn different
    exact (never_checked_too_often eagerRuns 1 4 (fun _ _ _ => ⟨by decide, .of_length_le_one (by decide)⟩)
      (by decide +kernel) (eagerRuns.saved 4) .saved twoMinutely (by decide +kernel) rfl 2 (by decide)
      (by decide) (by decide) first firstIn second secondIn different).1 (by decide)

def ofDecades : Database where
  urlMonitors := [{ id := 1, ownerId := "alice", checkIntervalMinutes := 15011999, createdAt := 10 }]
  nextMonitorId := 2
  valid := by decide

/-- Each run starts a tick before the interval, less the tolerance, has passed since the last. -/
def tickEarly (i : Nat) : TimerRun Unit where
  regionName := some "eastus"
  now := i * 9007199349999999
  checker := fun _ _ world =>
    .ok ({ isUp := true, latencyMs := some 20, statusCode := 200, checkedAt := i * 9007199349999999 }, world)
  world := ()

def tickEarlyRuns : Timetable Unit Unit := quiet ofDecades "eastus" () tickEarly fun _ => rfl

/-- As a double, the elapsed seconds are the whole threshold. -/
theorem not_never_checked_too_often_tickEarlyRuns :
    rowsOf 1 "eastus" tickEarlyRuns.database.toStore = [] ∧
    (∀ i ≤ 1, ∀ row ∈ (tickEarlyRuns.run i).added (tickEarlyRuns.loaded i),
      (tickEarlyRuns.run i).now ≤ row.checkedAt) ∧
    tickEarlyRuns.Passes 1 (tickEarlyRuns.saved 1) ∧
    ∃ monitor ∈ (tickEarlyRuns.saved 1).urlMonitors, monitor.id = 1 ∧
      monitor.checkIntervalMinutes.toInt = 15011999 ∧ 15011999 * 60 ≤ 2147483647 ∧
      ∃ first ∈ rowsOf 1 "eastus" (tickEarlyRuns.saved 1),
        ∃ second ∈ rowsOf 1 "eastus" (tickEarlyRuns.saved 1), first ≠ second ∧
          |(first.checkedAt : Int) - second.checkedAt| <
            (TimeSpan.fromMinutes 15011999 : Int) - TimeSpan.fromSeconds 5 :=
  ⟨by decide, by decide +kernel, .saved, by decide +kernel⟩

end Timetable

/-! ## The checks ahead of a monitor -/

/-- The world in which a run reaches a monitor: the requests to those ahead of it have been made. -/
def worldBefore (httpClient : HttpClient World) (id : Int) (monitors : List UrlMonitor) (world : World) :
    World :=
  (monitors.takeWhile fun monitor => monitor.id ≠ id).foldl
    (fun world monitor => (httpClient.getAsync monitor.url monitor.timeoutMs world).2) world

theorem checkMonitors_checkedAt {httpClient : HttpClient World} {now : DateTime}
    {loaded : List (UrlMonitor × List LatencyHistory)} {world after : World}
    {rows : List LatencyHistory} {row : LatencyHistory}
    (looped : checkMonitors (checkUrlAsync httpClient) region now loaded world = .ok (rows, after))
    (first : rows.find? (fun row => row.urlMonitorId = id) = some row) :
    row.checkedAt = httpClient.utcNow (worldBefore httpClient id
      ((loaded.filter fun entry => isDue now entry.1 entry.2.head?).map Prod.fst) world) := by
  induction loaded generalizing world rows with
  | nil =>
      cases looped
      contradiction
  | cons entry rest ih =>
      obtain ⟨monitor, history⟩ := entry
      rcases checkMonitors_cons_ok looped with
        ⟨due, result, next, tail, checked, remaining, rfl⟩ | ⟨skipped, remaining⟩
      · obtain ⟨checkedAt, left⟩ := checkUrlAsync_ok checked
        have points : (historyRow region monitor result).urlMonitorId = monitor.id := rfl
        have filtered : (((monitor, history) :: rest).filter fun entry => isDue now entry.1 entry.2.head?) =
            (monitor, history) :: rest.filter fun entry => isDue now entry.1 entry.2.head? :=
          List.filter_cons_of_pos due
        rw [filtered, List.map_cons, worldBefore]
        by_cases same : monitor.id = id
        · rw [List.find?_cons_of_pos (by simpa [points] using same)] at first
          rw [List.takeWhile_cons_of_neg (by simpa using same), List.foldl_nil, ← checkedAt]
          exact congrArg (·.checkedAt) (Option.some.inj first).symm
        · rw [List.find?_cons_of_neg (by simpa [points] using same)] at first
          rw [List.takeWhile_cons_of_pos (by simpa using same), List.foldl_cons, ← left]
          exact ih remaining first
      · simpa [skipped] using ih remaining first

namespace Timetable

variable [DecidableEq Tag] {timetable : Timetable Tag World} {monitor : UrlMonitor}

theorem stamp_eq {httpClient : HttpClient World} {i : Nat}
    (checker : (timetable.run i).checker = checkUrlAsync httpClient)
    (committed : timetable.commits i) (checked : timetable.checks id i) :
    timetable.stamp id i = timestamptz (httpClient.utcNow (worldBefore httpClient id
      ((timetable.run i).due (timetable.loaded i)) (timetable.run i).world)) := by
  rcases rowsOf_saved committed id with ⟨-, ⟨row, first, stamped⟩, -⟩ | ⟨skipped, -⟩
  · rcases timetable.saved_cases i with ⟨rows, batched, -, -⟩ | ⟨failed, -⟩
    · have added : (timetable.run i).added (timetable.loaded i) = rows := by
        simp only [TimerRun.added, batched]
      obtain ⟨after, looped⟩ := TimerRun.batch_ok batched
      rw [added] at first
      rw [checker] at looped
      rw [stamped, checkMonitors_checkedAt looped first]
      rfl
    · contradiction
  · contradiction

/-- Runs exactly on the minute check a monitor in any `k` in a row, whatever the
others do, exactly when no due check of it is stored with a time more than the leeway
after the run's start. -/
theorem no_window_missed_iff (timetable : Timetable Tag World) (httpClient : HttpClient World)
    (monitor : UrlMonitor) (k : Nat) (start : DateTime)
    (interval : monitor.checkIntervalMinutes.toInt = k) (positive : 1 ≤ k) (fits : k * 60 ≤ 2147483647)
    (checker : ∀ i, (timetable.run i).checker = checkUrlAsync httpClient)
    (onTheMinute : ∀ i, (timetable.run i).now = start + TimeSpan.fromMinutes i)
    (watched : ∀ i, timetable.Watched monitor i) (committed : ∀ i, timetable.commits i) :
    (∀ first, ∃ i, first ≤ i ∧ i < first + k ∧ timetable.checks monitor.id i) ↔
      (∀ row ∈ rowsOf monitor.id timetable.region (timetable.loaded 0),
        (row.checkedAt : Int) + TimeSpan.fromMinutes 1 ≤ start + leeway k) ∧
      ∀ i, monitor ∈ (timetable.run i).due (timetable.loaded i) →
        (timestamptz (httpClient.utcNow (worldBefore httpClient monitor.id
          ((timetable.run i).due (timetable.loaded i)) (timetable.run i).world)) : Int) ≤
            (timetable.run i).now + leeway k := by
  have fires : ∀ i, timetable.checks monitor.id i ↔ (timetable.attempts monitor).fires i = true :=
    fun i => checks_iff_fires (watched i) fun j _ => committed j
  have due : ∀ i, timetable.checks monitor.id i ↔ monitor ∈ (timetable.run i).due (timetable.loaded i) := by
    intro i
    constructor
    · intro checked
      obtain ⟨other, selected, same⟩ := checked
      have stored := (TimerRun.mem_due_iff.mp selected).1.1
      rw [← (loaded_valid i).monitor_unique stored (watched i i le_rfl).1 same]
      exact selected
    · intro selected
      exact ⟨monitor, selected, rfl⟩
  have onTime : ∀ i, (timetable.attempts monitor).now i = (start : Int) + minute * i := by
    intro i
    rw [← fromMinutes_toInt]
    exact congrArg _ (onTheMinute i)
  have small : leeway k < minute := by
    have bounds := leeway_small k
    omega
  have covered := Throttle.Attempts.covers_iff positive (gap_eq interval positive fits)
    ⟨(leeway_small k).1, small⟩ onTime
  simp only [← fires] at covered
  rw [covered]
  refine and_congr ?initial (forall_congr' fun i => ?later)
  case initial =>
    have bound : ∀ time : DateTime, (time : Int) ≤ start - minute + leeway k ↔
        (time : Int) + TimeSpan.fromMinutes 1 ≤ start + leeway k := by
      intro time
      rw [minute]
      omega
    exact List.forall_mem_map.trans (forall₂_congr fun row _ => bound row.checkedAt)
  case later =>
    rw [← due i]
    refine forall_congr' fun checked => ?_
    have stamped : (timetable.attempts monitor).stamp i = timetable.stamp monitor.id i := rfl
    rw [stamped, stamp_eq (checker i) (committed i) checked]
    rfl

def latency (url : String) : Nat :=
  if url = "https://slow.example" then 6000 else 20

def slowAndFast : HttpClient DateTime where
  utcNow clock := clock
  getAsync url timeoutMs clock :=
    if latency url ≤ timeoutMs.toInt.toNat then
      (.response 200 (latency url), clock + latency url * TimeSpan.ticksPerMillisecond)
    else (.exception, clock + timeoutMs.toInt.toNat * TimeSpan.ticksPerMillisecond)

def ofBob : UrlMonitor :=
  { id := 1, ownerId := "bob", url := "https://slow.example", timeoutMs := 10000, createdAt := 10 }

def ofAlice : UrlMonitor :=
  { id := 2, ownerId := "alice", url := "https://a.example", createdAt := 20 }

def bobAhead : Database where
  urlMonitors := [ofBob, ofAlice]
  nextMonitorId := 3
  valid := by decide

def everyMinute (i : Nat) : TimerRun DateTime where
  regionName := some "eastus"
  now := TimeSpan.fromDays 1 + TimeSpan.fromMinutes i
  checker := checkUrlAsync slowAndFast
  world := TimeSpan.fromDays 1 + TimeSpan.fromMinutes i

theorem everyMinute_checkRegion (i : Nat) : (everyMinute i).checkRegion = "eastus" := rfl

def behindBob : Timetable Unit DateTime := quiet bobAhead "eastus" () everyMinute everyMinute_checkRegion

theorem behindBob_urlMonitors (i : Nat) : (behindBob.loaded i).urlMonitors = [ofBob, ofAlice] :=
  quiet_urlMonitors i

theorem behindBob_watched {monitor : UrlMonitor} (stored : monitor ∈ [ofBob, ofAlice]) (i : Nat) :
    behindBob.Watched monitor i := by
  intro j _
  rw [behindBob_urlMonitors]
  refine ⟨stored, ?_⟩
  revert stored monitor
  decide

theorem behindBob_commits (i : Nat) : behindBob.commits i := by
  have total : ∀ monitor ∈ (behindBob.loaded i).urlMonitors, ∀ world, ∃ outcome,
      (everyMinute i).checker monitor.url monitor.timeoutMs world = .ok outcome := by
    rw [behindBob_urlMonitors]
    intro monitor member clock
    have allowed : ¬ monitor.timeoutMs < -1 := by
      revert member monitor
      decide
    simp only [everyMinute, checkUrlAsync, if_neg allowed]
    split <;> exact ⟨_, rfl⟩
  obtain ⟨rows, batched⟩ := TimerRun.batch_total total
  exact quiet_commits batched

/-- Bob's own monitor is the first in the list and never late. -/
theorem no_window_missed_iff_behindBob :
    ofBob.checkIntervalMinutes.toInt = 1 ∧
      ∀ first, ∃ i, first ≤ i ∧ i < first + 1 ∧ behindBob.checks ofBob.id i := by
  have clock : ∀ i, (behindBob.run i).now = TimeSpan.fromDays 1 + TimeSpan.fromMinutes i := fun _ => rfl
  have started : ∀ i, slowAndFast.utcNow (behindBob.run i).world = (behindBob.run i).now := fun _ => rfl
  refine ⟨by decide, (no_window_missed_iff behindBob slowAndFast ofBob 1 (TimeSpan.fromDays 1) (by decide)
    le_rfl (by decide) (fun _ => rfl) clock (behindBob_watched (by decide)) behindBob_commits).mpr
    ⟨by decide, ?_⟩⟩
  intro i due
  have nobodyAhead : ((behindBob.run i).due (behindBob.loaded i)).takeWhile
      (fun monitor => monitor.id ≠ ofBob.id) = [] := by
    have decided := (TimerRun.mem_due_iff.mp due).2
    have running : ([ofBob, ofAlice].filter fun monitor => monitor.isActive && !monitor.isPaused) =
        [ofBob, ofAlice] := by decide
    rw [TimerRun.due, loadMonitors, behindBob_urlMonitors, running, List.map_cons, List.filter_cons,
      if_pos decided, List.map_cons]
    exact List.takeWhile_cons_of_neg (by simp)
  rw [worldBefore, nobodyAhead, List.foldl_nil, started]
  have stored := Int.ofNat_le.mpr (timestamptz_le (behindBob.run i).now)
  exact stored.trans (Int.le_add_of_nonneg_right (leeway_small 1).1)

/-- Alice's monitor comes after Bob's slow one: run 0 stamps it six seconds late,
and run 1 finds it 54 seconds old. -/
theorem not_no_window_missed_behindBob :
    slowAndFast.Forward ∧ slowAndFast.Timely ∧
    (∀ i, (behindBob.run i).checker = checkUrlAsync slowAndFast ∧
      slowAndFast.utcNow (behindBob.run i).world = (behindBob.run i).now ∧
      (behindBob.run i).now = TimeSpan.fromDays 1 + TimeSpan.fromMinutes i) ∧
    (∀ i, behindBob.Watched ofAlice i) ∧ (∀ i, behindBob.commits i) ∧
    ofAlice.checkIntervalMinutes.toInt = 1 ∧
    ¬ ∀ first, ∃ i, first ≤ i ∧ i < first + 1 ∧ behindBob.checks ofAlice.id i := by
  refine ⟨?_, ?_, fun i => ⟨rfl, rfl, rfl⟩, behindBob_watched (by decide), behindBob_commits, by decide, ?_⟩
  · intro url timeoutMs clock
    simp only [slowAndFast]
    split <;> exact Nat.le_add_right _ _
  · intro url timeoutMs clock _
    simp only [slowAndFast]
    split
    · exact Nat.add_le_add_left (Nat.mul_le_mul_right _ ‹_›) _
    · exact le_rfl
  · intro covered
    obtain ⟨i, after, before, checked⟩ := covered 1
    have second : i = 1 := by omega
    rw [second] at checked
    revert checked
    decide +kernel

end Timetable

end UrlPulse
