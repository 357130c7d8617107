import UrlPulse.Core.TimeSpan
import UrlPulse.Data.Linq
import UrlPulse.Infrastructure.ApplicationDbContext

namespace UrlPulse.Worker

open UrlPulse.Core UrlPulse.Infrastructure UrlPulse.Data.Linq

/-! The timer function, up to the `SaveChangesAsync` that ends it.  A run reads
the store once, decides and checks in memory, and leaves one tracked row for
every check. -/

/-- The background worker's `ICurrentUserService`. -/
def systemUserId : String := "SYSTEM_WORKER"

def toleranceSeconds : Int32 := 5

/-- One firing of the timer: the environment variables, the `UtcNow` the run
decides with, the checker, and the world its first check finds. -/
structure TimerRun (World : Type) where
  regionName : Option String := none
  websiteRegionName : Option String := none
  now : DateTime
  checker : IUrlChecker World
  world : World

namespace TimerRun

variable {World : Type}

def checkRegion (run : TimerRun World) : String :=
  (run.regionName <|> run.websiteRegionName).getD "Unknown"

end TimerRun

/-- `History.Where(Region == checkRegion).OrderByDescending(CheckedAt).Take(1)`. -/
def includedHistory (region : String) (store : Store) (monitor : UrlMonitor) :
    List LatencyHistory :=
  (orderByDescending (·.checkedAt)
    ((store.historyOf monitor.id).filter fun row => row.region = region)).take 1

/-- The active, unpaused monitors of every owner, each with its included history. -/
def loadMonitors (region : String) (store : Store) : List (UrlMonitor × List LatencyHistory) :=
  (store.urlMonitors.filter fun monitor => monitor.isActive && !monitor.isPaused).map
    fun monitor => (monitor, includedHistory region store monitor)

/-- `(monitor.CheckIntervalMinutes * 60) - toleranceSeconds`, in 32-bit arithmetic. -/
def thresholdSeconds (monitor : UrlMonitor) : Int32 :=
  monitor.checkIntervalMinutes * 60 - toleranceSeconds

/-- Not skipped: no check in this region yet, or the last one is old enough.  The
comparison is one of doubles, and the threshold is one exactly. -/
def isDue (now : DateTime) (monitor : UrlMonitor) : Option LatencyHistory → Bool
  | none => true
  | some lastCheck =>
      let elapsed : TimeSpan := (now : Int) - lastCheck.checkedAt
      !decide (elapsed.totalSeconds < (thresholdSeconds monitor).toInt)

def historyRow (region : String) (monitor : UrlMonitor) (result : UrlCheckResult) :
    LatencyHistory where
  urlMonitorId := monitor.id
  checkedAt := result.checkedAt
  region := region
  latencyMs := result.latencyMs.getD 0
  statusCode := result.statusCode
  errorMessage := if result.isUp then "" else "Service Unavailable"

variable {World : Type}

/-- The `foreach` over the loaded monitors: the rows added, in order, and the
world after the last check. -/
def checkMonitors (checker : IUrlChecker World) (region : String) (now : DateTime) :
    List (UrlMonitor × List LatencyHistory) → World → Except Fault (List LatencyHistory × World)
  | [], world => .ok ([], world)
  | (monitor, history) :: rest, world =>
      if isDue now monitor history.head? then
        match checker monitor.url monitor.timeoutMs world with
        | .error fault => .error fault
        | .ok (result, next) =>
            match checkMonitors checker region now rest next with
            | .error fault => .error fault
            | .ok (rows, after) => .ok (historyRow region monitor result :: rows, after)
      else checkMonitors checker region now rest world

namespace TimerRun

/-- The rows a run that loads `store` wants to insert. -/
def batch (run : TimerRun World) (store : Store) : Except Fault (List LatencyHistory) :=
  match checkMonitors run.checker run.checkRegion run.now
      (loadMonitors run.checkRegion store) run.world with
  | .ok (rows, _) => .ok rows
  | .error fault => .error fault

def added (run : TimerRun World) (store : Store) : List LatencyHistory :=
  match run.batch store with
  | .ok rows => rows
  | .error _ => []

def due (run : TimerRun World) (store : Store) : List UrlMonitor :=
  ((loadMonitors run.checkRegion store).filter fun entry =>
    isDue run.now entry.1 entry.2.head?).map Prod.fst

/-- `Run` up to its save: the context with its tracked rows. -/
def runUntilSave (run : TimerRun World) (store : Store) : Except Fault ApplicationDbContext :=
  match run.batch store with
  | .ok rows => .ok { currentUserId := some systemUserId, entries := rows.map .addedHistory }
  | .error fault => .error fault

end TimerRun

theorem checkMonitors_cons_ok {checker : IUrlChecker World} {region : String} {now : DateTime}
    {monitor : UrlMonitor} {history : List LatencyHistory}
    {rest : List (UrlMonitor × List LatencyHistory)} {world after : World}
    {rows : List LatencyHistory}
    (looped : checkMonitors checker region now ((monitor, history) :: rest) world =
      .ok (rows, after)) :
    (isDue now monitor history.head? = true ∧ ∃ result next tail,
      checker monitor.url monitor.timeoutMs world = .ok (result, next) ∧
      checkMonitors checker region now rest next = .ok (tail, after) ∧
      rows = historyRow region monitor result :: tail) ∨
    (isDue now monitor history.head? = false ∧
      checkMonitors checker region now rest world = .ok (rows, after)) := by
  simp only [checkMonitors] at looped
  by_cases due : isDue now monitor history.head? = true
  · left
    rw [if_pos due] at looped
    cases checked : checker monitor.url monitor.timeoutMs world with
    | error fault => simp [checked] at looped
    | ok outcome =>
        obtain ⟨result, next⟩ := outcome
        cases remaining : checkMonitors checker region now rest next with
        | error fault => simp [checked, remaining] at looped
        | ok outcome =>
            obtain ⟨tail, last⟩ := outcome
            simp only [checked, remaining, Except.ok.injEq, Prod.mk.injEq] at looped
            obtain ⟨rfl, rfl⟩ := looped
            exact ⟨due, result, next, tail, rfl, remaining, rfl⟩
  · right
    rw [if_neg due] at looped
    exact ⟨by simpa using due, looped⟩

/-- One row per due monitor, in list order, each tagged with the run's region. -/
theorem checkMonitors_rows {checker : IUrlChecker World} {region : String} {now : DateTime}
    {loaded : List (UrlMonitor × List LatencyHistory)} {world after : World}
    {rows : List LatencyHistory}
    (looped : checkMonitors checker region now loaded world = .ok (rows, after)) :
    rows.map (·.urlMonitorId) =
        (loaded.filter fun entry => isDue now entry.1 entry.2.head?).map (·.1.id) ∧
      ∀ row ∈ rows, row.region = region ∧ row.id = 0 := by
  induction loaded generalizing world rows with
  | nil =>
      simp only [checkMonitors, Except.ok.injEq, Prod.mk.injEq] at looped
      obtain ⟨rfl, -⟩ := looped
      simp
  | cons entry rest ih =>
      obtain ⟨monitor, history⟩ := entry
      rcases checkMonitors_cons_ok looped with
        ⟨due, result, next, tail, -, remaining, rfl⟩ | ⟨skipped, remaining⟩
      · obtain ⟨ids, tagged⟩ := ih remaining
        constructor
        · simp [due, ids, historyRow]
        · intro row member
          rcases List.mem_cons.mp member with rfl | later
          · exact ⟨rfl, rfl⟩
          · exact tagged row later
      · simpa [skipped] using ih remaining

/-- Every row tells what the checker reported of a loaded monitor. -/
theorem checkMonitors_recorded {checker : IUrlChecker World} {region : String} {now : DateTime}
    {loaded : List (UrlMonitor × List LatencyHistory)} {world after : World}
    {rows : List LatencyHistory}
    (looped : checkMonitors checker region now loaded world = .ok (rows, after)) :
    ∀ row ∈ rows, ∃ entry ∈ loaded, ∃ found result next,
      checker entry.1.url entry.1.timeoutMs found = .ok (result, next) ∧
      row = historyRow region entry.1 result := by
  induction loaded generalizing world rows with
  | nil =>
      simp only [checkMonitors, Except.ok.injEq, Prod.mk.injEq] at looped
      obtain ⟨rfl, -⟩ := looped
      simp
  | cons entry rest ih =>
      intro row member
      obtain ⟨monitor, history⟩ := entry
      rcases checkMonitors_cons_ok looped with
        ⟨-, result, next, tail, checked, remaining, rfl⟩ | ⟨-, remaining⟩
      · rcases List.mem_cons.mp member with rfl | later
        · exact ⟨_, List.mem_cons_self, world, result, next, checked, rfl⟩
        · obtain ⟨entry, inside, reported⟩ := ih remaining row later
          exact ⟨entry, List.mem_cons_of_mem _ inside, reported⟩
      · obtain ⟨entry, inside, reported⟩ := ih remaining row member
        exact ⟨entry, List.mem_cons_of_mem _ inside, reported⟩

theorem checkMonitors_total {checker : IUrlChecker World} {region : String} {now : DateTime}
    {loaded : List (UrlMonitor × List LatencyHistory)} (world : World)
    (total : ∀ entry ∈ loaded, ∀ world, ∃ outcome,
      checker entry.1.url entry.1.timeoutMs world = .ok outcome) :
    ∃ outcome, checkMonitors checker region now loaded world = .ok outcome := by
  induction loaded generalizing world with
  | nil => exact ⟨_, rfl⟩
  | cons entry rest ih =>
      have later := fun world => ih world fun other member => total other (List.mem_cons_of_mem entry member)
      obtain ⟨monitor, history⟩ := entry
      by_cases due : isDue now monitor history.head? = true
      · obtain ⟨⟨result, next⟩, checked⟩ := total (monitor, history) (by simp) world
        obtain ⟨⟨rows, after⟩, remaining⟩ := later next
        refine ⟨(historyRow region monitor result :: rows, after), ?_⟩
        simp only [checkMonitors, if_pos due, checked, remaining]
      · obtain ⟨outcome, remaining⟩ := later world
        exact ⟨outcome, by simp only [checkMonitors, if_neg due, remaining]⟩

theorem TimerRun.batch_total {run : TimerRun World} {store : Store}
    (total : ∀ monitor ∈ store.urlMonitors, ∀ world, ∃ outcome,
      run.checker monitor.url monitor.timeoutMs world = .ok outcome) :
    ∃ rows, run.batch store = .ok rows := by
  have eachEntry : ∀ entry ∈ loadMonitors run.checkRegion store, ∀ world, ∃ outcome,
      run.checker entry.1.url entry.1.timeoutMs world = .ok outcome := by
    intro entry member
    obtain ⟨monitor, selected, rfl⟩ := List.mem_map.mp member
    exact total monitor (List.mem_of_mem_filter selected)
  have looped : ∃ outcome, checkMonitors run.checker run.checkRegion run.now
      (loadMonitors run.checkRegion store) run.world = .ok outcome :=
    checkMonitors_total run.world eachEntry
  obtain ⟨⟨rows, after⟩, looped⟩ := looped
  exact ⟨rows, by simp only [batch, looped]⟩

theorem TimerRun.mem_due_iff {run : TimerRun World} {store : Store} {monitor : UrlMonitor} :
    monitor ∈ run.due store ↔
      (monitor ∈ store.urlMonitors ∧ monitor.isActive = true ∧ monitor.isPaused = false) ∧
        isDue run.now monitor (includedHistory run.checkRegion store monitor).head? = true := by
  simp only [due, loadMonitors, List.mem_map, List.mem_filter, Bool.and_eq_true, Bool.not_eq_true']
  constructor
  · intro listed
    obtain ⟨entry, ⟨⟨original, selected, rfl⟩, decided⟩, rfl⟩ := listed
    exact ⟨selected, decided⟩
  · intro due
    obtain ⟨selected, decided⟩ := due
    exact ⟨_, ⟨⟨monitor, selected, rfl⟩, decided⟩, rfl⟩

/-! ## What a decision rests on -/

/-- The interval less the tolerance, over all integers. -/
def intervalSeconds (interval : Int32) : Int := 60 * interval.toInt - 5

/-- What 32 bits keep of it. -/
def wrappedSeconds (interval : Int32) : Int := (intervalSeconds interval).bmod (2 ^ 32)

/-- The intervals whose seconds are a 32-bit number: up to 68 years, either way. -/
def Fits (interval : Int32) : Prop := -35791394 ≤ interval.toInt ∧ interval.toInt ≤ 35791394

theorem thresholdSeconds_eq_wrapped (monitor : UrlMonitor) :
    (thresholdSeconds monitor).toInt = wrappedSeconds monitor.checkIntervalMinutes := by
  have sixty : (60 : Int32).toInt = 60 := by decide
  have five : toleranceSeconds.toInt = 5 := by decide
  rw [thresholdSeconds, Int32.toInt_sub, Int32.toInt_mul, sixty, five, wrappedSeconds,
    intervalSeconds, Int.bmod_sub_bmod, Int.mul_comm 60]

theorem wrappedSeconds_bounds (interval : Int32) :
    -2147483648 ≤ wrappedSeconds interval ∧ wrappedSeconds interval ≤ 2147483647 := by
  have low := Int.le_bmod (x := intervalSeconds interval) (m := 2 ^ 32) (by decide)
  have high := Int.bmod_le (x := intervalSeconds interval) (m := 2 ^ 32) (by decide)
  rw [wrappedSeconds]
  omega

theorem wrappedSeconds_eq_iff {interval : Int32} :
    wrappedSeconds interval = intervalSeconds interval ↔ Fits interval := by
  constructor
  · intro same
    have bounds := wrappedSeconds_bounds interval
    rw [same, intervalSeconds] at bounds
    constructor <;> omega
  · intro fits
    obtain ⟨low, high⟩ := fits
    have inside : -2147483648 ≤ intervalSeconds interval ∧ intervalSeconds interval ≤ 2147483647 := by
      rw [intervalSeconds]
      omega
    exact Int.bmod_eq_of_le_mul_two (by omega) (by omega)

/-- The elapsed ticks from which on a monitor with this interval is due. -/
def dueTicks (interval : Int32) : Int := TimeSpan.fullTicks (wrappedSeconds interval)

/-- The intervals whose seconds `TotalSeconds` counts to the tick: up to 28 years, either way. -/
def FitsDouble (interval : Int32) : Prop := -15011998 ≤ interval.toInt ∧ interval.toInt ≤ 15011998

theorem dueTicks_eq_iff {interval : Int32} :
    dueTicks interval = intervalSeconds interval * TimeSpan.ticksPerSecond ↔ FitsDouble interval := by
  have second : (TimeSpan.ticksPerSecond : Int) = 10000000 := rfl
  have bounds := TimeSpan.slack_bounds (wrappedSeconds interval)
  have zero := @TimeSpan.slack_eq_zero_iff (wrappedSeconds interval)
  rw [dueTicks, TimeSpan.fullTicks, second]
  constructor
  · intro same
    have exactly : wrappedSeconds interval = intervalSeconds interval := by omega
    rw [exactly] at zero same
    have small := zero.mp (by omega)
    rw [intervalSeconds] at small
    constructor <;> omega
  · intro fits
    obtain ⟨low, high⟩ := fits
    have exactly := wrappedSeconds_eq_iff.mpr (show Fits interval from ⟨by omega, by omega⟩)
    rw [exactly] at zero ⊢
    have none := zero.mpr (by rw [intervalSeconds]; omega)
    omega

/-- Without overflow the threshold is the interval less the tolerance. -/
theorem thresholdSeconds_toInt {monitor : UrlMonitor}
    (positive : 1 ≤ monitor.checkIntervalMinutes.toInt)
    (fits : monitor.checkIntervalMinutes.toInt * 60 ≤ 2147483647) :
    (thresholdSeconds monitor).toInt = monitor.checkIntervalMinutes.toInt * 60 - 5 := by
  have inRange : Fits monitor.checkIntervalMinutes := ⟨by omega, by omega⟩
  rw [thresholdSeconds_eq_wrapped, wrappedSeconds_eq_iff.mpr inRange, intervalSeconds, Int.mul_comm 60]

/-- The doubles decide on ticks: those of the threshold, less the slack, which is none below
`2 ^ 53` ticks. -/
theorem isDue_some {now : DateTime} {monitor : UrlMonitor} {lastCheck : LatencyHistory} :
    isDue now monitor (some lastCheck) = true ↔
      TimeSpan.fullTicks (thresholdSeconds monitor).toInt ≤ (now : Int) - lastCheck.checkedAt := by
  have low := (thresholdSeconds monitor).le_toInt
  have high := (thresholdSeconds monitor).toInt_lt
  rw [← TimeSpan.le_totalSeconds_iff (by omega)]
  simp only [isDue, Bool.not_eq_true', decide_eq_false_iff_not, not_lt]

def historyIn (region : String) (store : Store) : List LatencyHistory :=
  store.latencyHistories.filter fun row => row.region = region

theorem isDue_iff {now : DateTime} {region : String} {store : Store} {monitor : UrlMonitor} :
    isDue now monitor (includedHistory region store monitor).head? = true ↔
      ∀ row ∈ historyIn region store, row.urlMonitorId = monitor.id →
        TimeSpan.fullTicks (thresholdSeconds monitor).toInt ≤ (now : Int) - row.checkedAt := by
  have members : ∀ row, row ∈ (store.historyOf monitor.id).filter (fun row => row.region = region) ↔
      row ∈ historyIn region store ∧ row.urlMonitorId = monitor.id := by
    intro row
    simp only [historyIn, List.mem_filter, Store.mem_historyOf, decide_eq_true_eq]
    exact and_right_comm
  have head : (includedHistory region store monitor).head? =
      (orderByDescending (·.checkedAt)
        ((store.historyOf monitor.id).filter fun row => row.region = region)).head? := by
    rw [includedHistory, List.head?_take, if_neg Nat.one_ne_zero]
  rw [head]
  cases latest : (orderByDescending (·.checkedAt)
      ((store.historyOf monitor.id).filter fun row => row.region = region)).head? with
  | none =>
      have empty := head?_orderByDescending_eq_none.mp latest
      constructor
      · intro _ row member points
        have listed := (members row).mpr ⟨member, points⟩
        rw [empty] at listed
        contradiction
      · intro _
        rfl
  | some lastCheck =>
      obtain ⟨listed, newest⟩ := le_of_head?_orderByDescending latest
      rw [isDue_some]
      constructor
      · intro old row member points
        have earlier : (row.checkedAt : Int) ≤ lastCheck.checkedAt :=
          Int.ofNat_le.mpr (newest row ((members row).mpr ⟨member, points⟩))
        omega
      · intro all
        obtain ⟨member, points⟩ := (members lastCheck).mp listed
        exact all lastCheck member points

theorem checkMonitors_congr {checker : IUrlChecker World} {region : String} {now : DateTime}
    (monitors : List UrlMonitor) (first second : UrlMonitor → List LatencyHistory)
    (same : ∀ monitor, isDue now monitor (first monitor).head? = isDue now monitor (second monitor).head?)
    (world : World) :
    checkMonitors checker region now (monitors.map fun monitor => (monitor, first monitor)) world =
      checkMonitors checker region now (monitors.map fun monitor => (monitor, second monitor)) world := by
  induction monitors generalizing world with
  | nil => rfl
  | cons monitor rest ih => simp only [List.map_cons, checkMonitors, same, ih]

/-- A run decides by the monitor table and its own region's rows; their keys do
not matter. -/
theorem TimerRun.batch_congr {run : TimerRun World} {first second : Store}
    (monitors : first.urlMonitors = second.urlMonitors)
    (rows : (historyIn run.checkRegion first).map Store.unnumbered =
      (historyIn run.checkRegion second).map Store.unnumbered) :
    run.batch first = run.batch second := by
  have transfer : ∀ {one other : Store}, (historyIn run.checkRegion one).map Store.unnumbered =
      (historyIn run.checkRegion other).map Store.unnumbered → ∀ monitor,
      isDue run.now monitor (includedHistory run.checkRegion one monitor).head? = true →
      isDue run.now monitor (includedHistory run.checkRegion other monitor).head? = true := by
    intro one other equal monitor due
    apply isDue_iff.mpr
    intro row member points
    have image : Store.unnumbered row ∈ (historyIn run.checkRegion one).map Store.unnumbered := by
      rw [equal]
      exact List.mem_map_of_mem member
    obtain ⟨twin, inside, same⟩ := List.mem_map.mp image
    have twinPoints : twin.urlMonitorId = row.urlMonitorId := congrArg (·.urlMonitorId) same
    have twinTime : twin.checkedAt = row.checkedAt := congrArg (·.checkedAt) same
    have old := isDue_iff.mp due twin inside (twinPoints.trans points)
    rw [twinTime] at old
    exact old
  have same : ∀ monitor,
      isDue run.now monitor (includedHistory run.checkRegion first monitor).head? =
        isDue run.now monitor (includedHistory run.checkRegion second monitor).head? :=
    fun monitor => Bool.eq_iff_iff.mpr ⟨transfer rows monitor, transfer rows.symm monitor⟩
  simp only [batch, loadMonitors, monitors, checkMonitors_congr _ _ _ same]

theorem TimerRun.batch_ok {run : TimerRun World} {store : Store} {rows : List LatencyHistory}
    (batched : run.batch store = .ok rows) :
    ∃ after, checkMonitors run.checker run.checkRegion run.now
      (loadMonitors run.checkRegion store) run.world = .ok (rows, after) := by
  cases looped : checkMonitors run.checker run.checkRegion run.now
      (loadMonitors run.checkRegion store) run.world with
  | error fault => simp [batch, looped] at batched
  | ok outcome =>
      obtain ⟨inserted, after⟩ := outcome
      simp only [batch, looped, Except.ok.injEq] at batched
      exact ⟨after, by rw [batched]⟩

theorem TimerRun.batch_rows {run : TimerRun World} {store : Store} {rows : List LatencyHistory}
    (batched : run.batch store = .ok rows) :
    rows.map (·.urlMonitorId) = (run.due store).map (·.id) ∧
      ∀ row ∈ rows, row.region = run.checkRegion ∧ row.id = 0 := by
  obtain ⟨after, looped⟩ := batch_ok batched
  simpa only [due, List.map_map, Function.comp_def] using checkMonitors_rows looped

theorem TimerRun.batch_recorded {run : TimerRun World} {store : Store} {rows : List LatencyHistory}
    (batched : run.batch store = .ok rows) :
    ∀ row ∈ rows, ∃ monitor ∈ store.urlMonitors, ∃ found result next,
      run.checker monitor.url monitor.timeoutMs found = .ok (result, next) ∧
      row = historyRow run.checkRegion monitor result := by
  intro row member
  obtain ⟨after, looped⟩ := batch_ok batched
  obtain ⟨entry, loaded, reported⟩ := checkMonitors_recorded looped row member
  obtain ⟨monitor, selected, rfl⟩ := List.mem_map.mp loaded
  exact ⟨monitor, List.mem_of_mem_filter selected, reported⟩

theorem TimerRun.nodup_due {run : TimerRun World} {store : Store} (valid : store.Valid) :
    ((run.due store).map (·.id)).Nodup := by
  have sublist : ((run.due store).map (·.id)).Sublist store.monitorIds := by
    refine List.Sublist.map _ (.trans (List.Sublist.map _ List.filter_sublist) ?_)
    simp only [loadMonitors, List.map_map, Function.comp_def, List.map_id']
    exact List.filter_sublist
  exact valid.monitorKeys.sublist sublist

theorem TimerRun.batch_rowsFor {run : TimerRun World} {store : Store} {rows : List LatencyHistory}
    (valid : store.Valid) (batched : run.batch store = .ok rows) (id : Int) :
    (∃ monitor ∈ run.due store, monitor.id = id) ∧
        (∃ row ∈ rows, row.urlMonitorId = id ∧ (rows.filter fun row => row.urlMonitorId = id) = [row]) ∨
      (¬ ∃ monitor ∈ run.due store, monitor.id = id) ∧
        (rows.filter fun row => row.urlMonitorId = id) = [] := by
  have ids := (batch_rows batched).1
  have nodup : (rows.map (·.urlMonitorId)).Nodup := ids ▸ nodup_due valid
  have listed : (∃ monitor ∈ run.due store, monitor.id = id) ↔ id ∈ rows.map (·.urlMonitorId) := by
    rw [ids, List.mem_map]
  by_cases due : ∃ monitor ∈ run.due store, monitor.id = id
  · obtain ⟨row, member, rfl⟩ := List.mem_map.mp (listed.mp due)
    exact .inl ⟨due, row, member, rfl, filter_key_of_nodup nodup member⟩
  · refine .inr ⟨due, List.filter_eq_nil_iff.mpr fun row member points => due (listed.mpr ?_)⟩
    exact List.mem_map.mpr ⟨row, member, by simpa using points⟩

end UrlPulse.Worker
