import UrlPulse.Checks

namespace UrlPulse

open UrlPulse.Core UrlPulse.Infrastructure UrlPulse.Web UrlPulse.Worker UrlPulse.Data
open UrlPulse.Data.Phased (Step)

/-! # The due test

An interval comes from a form that puts no upper bound on it, and a run turns it
into seconds with 32 bits.
-/

variable {World : Type} {run : TimerRun World} {store : Store} {monitor other : UrlMonitor}
  {lastCheck otherCheck : LatencyHistory} {interval shorter longer : Int32}

/-! ## One run -/

/-- The run looks at the monitor, and this is its last check in the run's region. -/
structure LastChecked (run : TimerRun World) (store : Store) (monitor : UrlMonitor)
    (lastCheck : LatencyHistory) : Prop where
  stored : monitor ∈ store.urlMonitors
  isActive : monitor.isActive = true
  unpaused : monitor.isPaused = false
  latest : (includedHistory run.checkRegion store monitor).head? = some lastCheck

def Skips (run : TimerRun World) (store : Store) (monitor : UrlMonitor) : Prop :=
  monitor ∉ run.due store

def elapsed (run : TimerRun World) (lastCheck : LatencyHistory) : Int :=
  (run.now : Int) - lastCheck.checkedAt

theorem LastChecked.skips_iff (checked : LastChecked run store monitor lastCheck) :
    Skips run store monitor ↔ elapsed run lastCheck < dueTicks monitor.checkIntervalMinutes := by
  rw [Skips, TimerRun.mem_due_iff, and_iff_right ⟨checked.stored, checked.isActive, checked.unpaused⟩,
    checked.latest, isDue_some, thresholdSeconds_eq_wrapped]
  exact not_le

/-- The test is right where the elapsed time is on one side of both thresholds. -/
theorem LastChecked.exact_iff (checked : LastChecked run store monitor lastCheck) :
    (Skips run store monitor ↔ elapsed run lastCheck <
        intervalSeconds monitor.checkIntervalMinutes * TimeSpan.ticksPerSecond) ↔
      elapsed run lastCheck <
          min (intervalSeconds monitor.checkIntervalMinutes * TimeSpan.ticksPerSecond)
            (dueTicks monitor.checkIntervalMinutes) ∨
        max (intervalSeconds monitor.checkIntervalMinutes * TimeSpan.ticksPerSecond)
          (dueTicks monitor.checkIntervalMinutes) ≤ elapsed run lastCheck := by
  rw [checked.skips_iff]
  constructor
  · intro same
    by_cases early : elapsed run lastCheck < dueTicks monitor.checkIntervalMinutes
    · have onTime := same.mp early
      omega
    · have late := mt same.mpr early
      omega
  · intro outside
    omega

/-! ## Every interval -/

/-- In every store that operations leave, a run skips a monitor with this interval
exactly until the interval, less the tolerance, has passed. -/
def SkipsExactly (interval : Int32) : Prop :=
  ∀ (World : Type) (steps : List (Step Nat (Operation World))) (run : TimerRun World)
    (monitor : UrlMonitor) (lastCheck : LatencyHistory),
    let store := (Phased.run (machine World) { store := Store.empty } steps).store
    monitor.checkIntervalMinutes = interval → LastChecked run store monitor lastCheck →
      (Skips run store monitor ↔
        elapsed run lastCheck < intervalSeconds interval * TimeSpan.ticksPerSecond)

/-- Of two monitors checked last at one time, the one with the longer interval is
skipped with the other. -/
def LongerSkipped (shorter longer : Int32) : Prop :=
  ∀ (World : Type) (steps : List (Step Nat (Operation World))) (run : TimerRun World)
    (monitor other : UrlMonitor) (lastCheck otherCheck : LatencyHistory),
    let store := (Phased.run (machine World) { store := Store.empty } steps).store
    monitor.checkIntervalMinutes = shorter → other.checkIntervalMinutes = longer →
    LastChecked run store monitor lastCheck → LastChecked run store other otherCheck →
    lastCheck.checkedAt = otherCheck.checkedAt →
      Skips run store monitor → Skips run store other

/-! Two creates and a first run, all at one time; the later run comes at any time. -/

def standing (time : DateTime) : HttpClient Unit where
  utcNow _ := time
  getAsync _ _ world := (.response 200 20, world)

def runAt (time : DateTime) : TimerRun Unit where
  regionName := some "eastus2"
  now := time
  checker := checkUrlAsync (standing time)
  world := ()

def posted (time : DateTime) (interval : Int32) : Step Nat (Operation Unit) :=
  .call (.web (some "alice") (.create (checkUrlAsync (standing time)) () time
    { inputUrl := "https://a.example", inputInterval := some interval }))

def checkedTogether (shorter longer : Int32) (time : DateTime) : List (Step Nat (Operation Unit)) :=
  [posted time shorter, posted time longer, .call (.worker (runAt time))]

def watched (id : Int) (interval : Int32) (time : DateTime) : UrlMonitor where
  id
  ownerId := "alice"
  url := "https://a.example"
  checkIntervalMinutes := interval
  timeoutMs := 5000
  createdAt := time
  isActive := true

def upRow (id urlMonitorId : Int) (time : DateTime) (region : String) : LatencyHistory where
  id
  urlMonitorId
  checkedAt := time
  latencyMs := 20
  statusCode := 200
  region

theorem step_posted (system : System Nat Unit) {time : DateTime} (whole : timestamptz time = time)
    (interval : Int32) :
    (Phased.step (machine Unit) system (posted time interval)).store =
      system.store.insertMonitor (watched 0 interval time) [upRow 0 0 time ""] := by
  let form : Index.CreateForm := { inputUrl := "https://a.example", inputInterval := some interval }
  -- No check of the form reads the interval.
  have valid : form.isValid = true := by
    have pattern : Index.CreateForm.isValid { inputUrl := "https://a.example" } = true := by decide
    exact pattern
  have checked : checkUrlAsync (standing time) form.inputUrl (form.inputTimeout.getD 5000) () =
      .ok ({ isUp := true, latencyMs := some 20, checkedAt := time, statusCode := 200 }, ()) := rfl
  have texts : (isText "https://a.example" && isText "alice") = true := by decide
  have saved := (save_create valid checked (some "alice") time system.store system.store).trans
    (if_pos texts)
  refine (congrArg Prod.snd saved).trans ?_
  simp only [writtenMonitor, writtenRow, Index.newMonitor, Index.creationRow, whole]
  rfl

/-- No row of the creates counts in the run's region, so both are due. -/
theorem run_checkedTogether (shorter longer : Int32) {time : DateTime} (whole : timestamptz time = time) :
    (Phased.run (machine Unit) ({ store := Store.empty } : System Nat Unit)
        (checkedTogether shorter longer time)).store =
      { urlMonitors := [watched 1 shorter time, watched 2 longer time]
        latencyHistories := [upRow 1 1 time "", upRow 2 2 time "", upRow 3 1 time "eastus2",
          upRow 4 2 time "eastus2"]
        nextMonitorId := 3
        nextHistoryId := 5 } := by
  let created : Store := {
    urlMonitors := [watched 1 shorter time, watched 2 longer time]
    latencyHistories := [upRow 1 1 time "", upRow 2 2 time ""]
    nextMonitorId := 3
    nextHistoryId := 3 }
  have both : (Store.empty.insertMonitor (watched 0 shorter time) [upRow 0 0 time ""]).insertMonitor
      (watched 0 longer time) [upRow 0 0 time ""] = created := rfl
  have called : ∀ system : System Nat Unit,
      (Phased.step (machine Unit) system (.call (.worker (runAt time)))).store =
        (Pending.save (loadRun (runAt time) system.store) system.store).2 := fun _ => rfl
  have batched : (runAt time).batch created =
      .ok [upRow 0 1 time "eastus2", upRow 0 2 time "eastus2"] := by
    simp [created, TimerRun.batch, loadMonitors, checkMonitors, includedHistory, Store.historyOf,
      TimerRun.checkRegion, isDue, Linq.orderByDescending, checkUrlAsync, isSuccessStatusCode,
      historyRow, runAt, standing, watched, upRow]
  have referenced : ∀ row ∈ [upRow 0 1 time "eastus2", upRow 0 2 time "eastus2"],
      row.urlMonitorId ∈ created.monitorIds := by
    simp [created, Store.monitorIds, watched, upRow]
  have written : [upRow 0 1 time "eastus2", upRow 0 2 time "eastus2"].map writtenRow =
      [upRow 0 1 time "eastus2", upRow 0 2 time "eastus2"] := by
    simp [writtenRow, upRow, whole]
  simp only [checkedTogether, Phased.run, called, step_posted _ whole, both]
  rw [loadRun_ok batched, Pending.save_batch, if_pos referenced, written]
  rfl

theorem lastChecked_checkedTogether (shorter longer : Int32) {time : DateTime}
    (whole : timestamptz time = time) (now : DateTime) :
    let store := (Phased.run (machine Unit) ({ store := Store.empty } : System Nat Unit)
      (checkedTogether shorter longer time)).store
    LastChecked (runAt now) store (watched 1 shorter time) (upRow 3 1 time "eastus2") ∧
      LastChecked (runAt now) store (watched 2 longer time) (upRow 4 2 time "eastus2") := by
  rw [run_checkedTogether shorter longer whole]
  constructor
  · exact ⟨List.mem_cons_self, rfl, rfl, rfl⟩
  · exact ⟨List.mem_cons_of_mem _ List.mem_cons_self, rfl, rfl, rfl⟩

/-- Every elapsed time comes about. -/
theorem exists_lastChecked (shorter longer : Int32) (span : Int) :
    ∃ (steps : List (Step Nat (Operation Unit))) (run : TimerRun Unit)
      (lastCheck otherCheck : LatencyHistory) (time : DateTime),
      let store := (Phased.run (machine Unit) { store := Store.empty } steps).store
      LastChecked run store (watched 1 shorter time) lastCheck ∧
      LastChecked run store (watched 2 longer time) otherCheck ∧
      lastCheck.checkedAt = otherCheck.checkedAt ∧ elapsed run lastCheck = span := by
  -- The checks are stored in whole microseconds, the later run starts at any tick.
  let time : DateTime := span.natAbs * 10
  have whole : timestamptz time = time :=
    congrArg (· * 10) (Nat.mul_div_cancel span.natAbs (by decide))
  obtain ⟨checked, otherChecked⟩ :=
    lastChecked_checkedTogether shorter longer whole (span + time).toNat
  refine ⟨checkedTogether shorter longer time, runAt (span + time).toNat, upRow 3 1 time "eastus2",
    upRow 4 2 time "eastus2", time, checked, otherChecked, rfl, ?_⟩
  have enough : 0 ≤ span + (time : Int) := by
    have size : (time : Int) = span.natAbs * 10 := by simp [time]
    omega
  simp only [elapsed, runAt, upRow, Int.toNat_of_nonneg enough]
  omega

theorem skipsExactly_iff : SkipsExactly interval ↔ FitsDouble interval := by
  rw [← dueTicks_eq_iff]
  constructor
  · intro exactly
    -- At the smaller of the two thresholds only the larger one still skips.
    obtain ⟨steps, run, lastCheck, -, time, checked, -, -, reached⟩ :=
      exists_lastChecked interval interval
        (min (intervalSeconds interval * TimeSpan.ticksPerSecond) (dueTicks interval))
    have decided := exactly Unit steps run _ lastCheck rfl checked
    rw [checked.skips_iff, reached] at decided
    simp only [watched] at decided
    omega
  · intro same World steps run monitor lastCheck store given checked
    rw [checked.skips_iff, given, same]

theorem longerSkipped_iff :
    LongerSkipped shorter longer ↔ wrappedSeconds shorter ≤ wrappedSeconds longer := by
  constructor
  · intro skipped
    by_contra below
    obtain ⟨steps, run, lastCheck, otherCheck, time, checked, otherChecked, together, reached⟩ :=
      exists_lastChecked shorter longer (dueTicks longer)
    have otherReached : elapsed run otherCheck = dueTicks longer := by
      rw [← reached, elapsed, elapsed, together]
    have early : elapsed run lastCheck < dueTicks shorter := by
      rw [reached]
      exact TimeSpan.fullTicks_lt (Int.not_le.mp below)
    have shorterSkipped := checked.skips_iff.mpr early
    have longerSkipped := skipped Unit steps run _ _ lastCheck otherCheck rfl rfl checked otherChecked
      together shorterSkipped
    rw [otherChecked.skips_iff, otherReached] at longerSkipped
    exact lt_irrefl _ longerSkipped
  · intro ordered World steps run monitor other lastCheck otherCheck store given otherGiven checked
      otherChecked together shorterSkipped
    have same : elapsed run otherCheck = elapsed run lastCheck := by rw [elapsed, elapsed, together]
    rw [checked.skips_iff, given] at shorterSkipped
    rw [otherChecked.skips_iff, otherGiven, same]
    exact lt_of_lt_of_le shorterSkipped (TimeSpan.fullTicks_le_iff.mpr ordered)

/-- Intervals in range keep their order. -/
theorem LongerSkipped.of_fits (fits : Fits shorter) (longerFits : Fits longer)
    (ordered : shorter ≤ longer) : LongerSkipped shorter longer := by
  have order : shorter.toInt ≤ longer.toInt := Int32.le_iff_toInt_le.mp ordered
  rw [longerSkipped_iff, wrappedSeconds_eq_iff.mpr fits, wrappedSeconds_eq_iff.mpr longerFits,
    intervalSeconds, intervalSeconds]
  omega

/-! ## From the form to the run -/

/-- The interval in the form goes into the row, and stays there whatever comes after. -/
theorem save_create_interval {Tag : Type} [DecidableEq Tag] {checker : IUrlChecker World}
    {world next : World} {form : Index.CreateForm} {result : UrlCheckResult}
    (valid : form.isValid = true)
    (checked : checker form.inputUrl (form.inputTimeout.getD 5000) world = .ok (result, next))
    {userId : Option String} (texts : (isText form.inputUrl && isText (userId.getD "")) = true)
    (utcNow : DateTime) (before : Store) (found : store.Valid) :
    ∃ after, Pending.save ((WebRequest.create checker world utcNow form).load userId before) store =
        (.index .redirectToPage, after) ∧
      (∃ monitor ∈ after.urlMonitors, monitor.id = store.nextMonitorId ∧
        monitor.isActive = true ∧ monitor.isPaused = false ∧
        monitor.checkIntervalMinutes = form.inputInterval.getD 1) ∧
      ∀ (system : System Tag World) (steps : List (Step Tag (Operation World))),
        system.store = after → Fixed (·.checkIntervalMinutes) store.nextMonitorId
          (form.inputInterval.getD 1) (Phased.run (machine World) system steps).store := by
  refine ⟨_, (save_create valid checked userId utcNow before store).trans (if_pos texts), ?_, ?_⟩
  · exact ⟨_, List.mem_append_right _ (List.mem_singleton.mpr rfl), rfl, rfl, rfl, rfl⟩
  · intro system steps saved
    have initial : Fixed (·.checkIntervalMinutes) store.nextMonitorId (form.inputInterval.getD 1)
        system.store := by
      rw [saved]
      refine .insertMonitor found ?_ _
      rfl
    exact initial.run (fun _ _ => rfl) steps

/-- The due test is exact for the intervals of up to 28 years and for no other, although
a create stores any of them. -/
theorem due_test_exact_iff (interval : Int32) :
    (SkipsExactly interval ↔ FitsDouble interval) ∧
    (∀ (World : Type) (run : TimerRun World) (store : Store) (monitor : UrlMonitor)
      (lastCheck : LatencyHistory), monitor.checkIntervalMinutes = interval →
      LastChecked run store monitor lastCheck →
      ((Skips run store monitor ↔
          elapsed run lastCheck < intervalSeconds interval * TimeSpan.ticksPerSecond) ↔
        elapsed run lastCheck <
            min (intervalSeconds interval * TimeSpan.ticksPerSecond) (dueTicks interval) ∨
          max (intervalSeconds interval * TimeSpan.ticksPerSecond) (dueTicks interval) ≤
            elapsed run lastCheck)) ∧
    (∀ longer, (LongerSkipped interval longer ↔ wrappedSeconds interval ≤ wrappedSeconds longer) ∧
      (Fits interval → Fits longer → interval ≤ longer → LongerSkipped interval longer)) ∧
    ∀ (World : Type) (checker : IUrlChecker World) (world next : World) (form : Index.CreateForm)
      (result : UrlCheckResult) (userId : Option String) (utcNow : DateTime) (before store : Store),
      form.isValid = true → form.inputInterval = some interval →
      checker form.inputUrl (form.inputTimeout.getD 5000) world = .ok (result, next) → store.Valid →
      let answer := Pending.save ((WebRequest.create checker world utcNow form).load userId before) store
      ((isText form.inputUrl && isText (userId.getD "")) = false →
        answer = (.exception (.dbUpdate invalidText), store)) ∧
      ((isText form.inputUrl && isText (userId.getD "")) = true →
        ∃ after, answer = (.index .redirectToPage, after) ∧
          (∃ monitor ∈ after.urlMonitors, monitor.id = store.nextMonitorId ∧
            monitor.isActive = true ∧ monitor.isPaused = false ∧
            monitor.checkIntervalMinutes = interval) ∧
          ∀ (system : System Nat World) (steps : List (Step Nat (Operation World))),
            system.store = after → Fixed (·.checkIntervalMinutes) store.nextMonitorId interval
              (Phased.run (machine World) system steps).store) := by
  refine ⟨skipsExactly_iff, ?_, ?_, ?_⟩
  · intro World run store monitor lastCheck given checked
    rw [← given]
    exact checked.exact_iff
  · intro longer
    exact ⟨longerSkipped_iff, LongerSkipped.of_fits⟩
  · intro World checker world next form result userId utcNow before store valid given checked found
    constructor
    · intro refused
      exact (save_create valid checked userId utcNow before store).trans (if_neg (by simp [refused]))
    · intro texts
      have sent : form.inputInterval.getD 1 = interval := by rw [given, Option.getD_some]
      rw [← sent]
      exact save_create_interval valid checked texts utcNow before found

theorem due_test_exact_iff_oneMinute :
    let store := (Phased.run (machine Unit) ({ store := Store.empty } : System Nat Unit)
      (checkedTogether 1 5 0)).store
    SkipsExactly 1 ∧
    (Skips (runAt (30 * TimeSpan.ticksPerSecond)) store (watched 1 1 0) ↔
      elapsed (runAt (30 * TimeSpan.ticksPerSecond)) (upRow 3 1 0 "eastus2") <
        intervalSeconds 1 * TimeSpan.ticksPerSecond) ∧
    LongerSkipped 1 5 ∧
    ∃ after, Pending.save ((WebRequest.create (checkUrlAsync (standing 0)) () 0
        { inputUrl := "https://a.example", inputInterval := some 1 }).load (some "alice")
          Store.empty) Store.empty = (.index .redirectToPage, after) := by
  intro store
  have midnight : timestamptz 0 = 0 := rfl
  have checked := (lastChecked_checkedTogether 1 5 midnight (30 * TimeSpan.ticksPerSecond)).1
  have minute : Fits 1 := ⟨by decide, by decide⟩
  have fiveMinutes : Fits 5 := ⟨by decide, by decide⟩
  obtain ⟨everyRun, oneRun, pairs, created⟩ := due_test_exact_iff 1
  obtain ⟨after, saved, -⟩ := (created Unit (checkUrlAsync (standing 0)) () ()
    { inputUrl := "https://a.example", inputInterval := some 1 } _ (some "alice") 0 Store.empty
    Store.empty (by decide) rfl rfl Store.empty_valid).2 (by decide)
  exact ⟨everyRun.mpr ⟨by decide, by decide⟩, (oneRun Unit _ store _ _ rfl checked).mpr (.inl (by decide)),
    (pairs 5).2 minute fiveMinutes (by decide), after, saved⟩

/-- A run half a minute after the last checks skips the monitor of one minute and
checks the one of 68 years again.  One of 29 years can be checked a tick early. -/
theorem not_exact_lifetime :
    let store := (Phased.run (machine Unit) ({ store := Store.empty } : System Nat Unit)
      (checkedTogether 1 35791395 0)).store
    let run := runAt (30 * TimeSpan.ticksPerSecond)
    Skips run store (watched 1 1 0) ∧ ¬ Skips run store (watched 2 35791395 0) ∧
    ¬ SkipsExactly 35791395 ∧ ¬ LongerSkipped 1 35791395 ∧ ¬ SkipsExactly 15011999 := by
  intro store run
  have midnight : timestamptz 0 = 0 := rfl
  obtain ⟨shorter, longer⟩ :=
    lastChecked_checkedTogether 1 35791395 midnight (30 * TimeSpan.ticksPerSecond)
  have skipped : Skips run store (watched 1 1 0) := shorter.skips_iff.mpr (by decide)
  have due : ¬ Skips run store (watched 2 35791395 0) := mt longer.skips_iff.mp (by decide)
  refine ⟨skipped, due, ?_, ?_, fun exactly => absurd (skipsExactly_iff.mp exactly).2 (by decide)⟩
  · intro exactly
    exact due ((exactly Unit (checkedTogether 1 35791395 0) run _ _ rfl longer).mpr (by decide))
  · intro ordered
    exact due (ordered Unit (checkedTogether 1 35791395 0) run _ _ _ _ rfl rfl shorter longer rfl skipped)

end UrlPulse
