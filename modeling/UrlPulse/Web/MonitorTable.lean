import UrlPulse.Web.Index

namespace UrlPulse.Web.MonitorTable

open UrlPulse.Core UrlPulse.Infrastructure UrlPulse.Data.Linq UrlPulse.Web.Index

/-! The partial view of the dashboard: one row for each listed monitor. -/

structure PauseButton where
  isPaused : Bool
  dataPaused : Bool
deriving DecidableEq, Repr

structure MonitorRow where
  id : Int
  badge : String
  url : String
  checkIntervalMinutes : Int32
  timeoutMs : Int32
  lastCheck : Option DateTime
  response : Option (Nat × Nat)
  pauseButton : PauseButton
deriving DecidableEq, Repr

def isUp : Option LatencyHistory → Bool
  | none => false
  | some latest => 200 ≤ latest.statusCode && latest.statusCode < 300

def monitorRow (monitor : MonitorListing) : MonitorRow :=
  let latest := monitor.history.head?
  { id := monitor.id
    badge := if isUp latest then "UP" else "DOWN"
    url := monitor.url
    checkIntervalMinutes := monitor.checkIntervalMinutes
    timeoutMs := monitor.timeoutMs
    lastCheck := latest.map (·.checkedAt)
    response := latest.map fun row => (row.latencyMs, row.statusCode)
    pauseButton := { isPaused := monitor.isPaused, dataPaused := monitor.isPaused } }

def monitorTable (model : List MonitorListing) : List MonitorRow := model.map monitorRow

theorem badge_eq_up_iff {monitor : MonitorListing} :
    (monitorRow monitor).badge = "UP" ↔ isUp monitor.history.head? = true := by
  simp only [monitorRow]
  cases isUp monitor.history.head? <;> decide

/-- No row of the history was checked later. -/
def Latest (rows : List LatencyHistory) (row : LatencyHistory) : Prop :=
  row ∈ rows ∧ ∀ other ∈ rows, other.checkedAt ≤ row.checkedAt

theorem Latest.unique {rows : List LatencyHistory} {row other : LatencyHistory}
    (distinct : (rows.map (·.checkedAt)).Nodup) (latest : Latest rows row)
    (otherLatest : Latest rows other) : other = row := by
  have same : other.checkedAt = row.checkedAt :=
    le_antisymm (latest.2 other otherLatest.1) (otherLatest.2 row latest.1)
  exact List.inj_on_of_nodup_map distinct otherLatest.1 latest.1 same

/-- A history that grows keeps its latest check, or has got one of the same time or later. -/
theorem Latest.append {rows new : List LatencyHistory} {check later : LatencyHistory}
    (latest : Latest rows check) (laterLatest : Latest (rows ++ new) later) :
    check.checkedAt ≤ later.checkedAt ∧
      (((rows ++ new).map (·.checkedAt)).Nodup → later.checkedAt = check.checkedAt → later = check) := by
  have remains : check ∈ rows ++ new := List.mem_append_left new latest.1
  refine ⟨laterLatest.2 check remains, fun distinct same => ?_⟩
  exact List.inj_on_of_nodup_map distinct laterLatest.1 remains same

/-- A monitor the context lists shows its latest row over all regions. -/
theorem head?_history_of_listed {context : ApplicationDbContext} {store : Store}
    {listing : MonitorListing} (listed : listing ∈ onGetAsync context store)
    (present : ∃ row ∈ store.latencyHistories, row.urlMonitorId = listing.id) :
    ∃ row, listing.history.head? = some row ∧ Latest (store.historyOf listing.id) row := by
  obtain ⟨monitor, ordered, rfl⟩ := List.mem_map.mp listed
  have visible := mem_orderByDescending.mp ordered
  have whole : context.history store monitor.id = store.historyOf monitor.id :=
    ApplicationDbContext.history_of_visible visible
  simp only [whole, List.head?_take, if_neg Nat.one_ne_zero]
  obtain ⟨row, stored, points⟩ := present
  cases latest : (orderByDescending (·.checkedAt) (store.historyOf monitor.id)).head? with
  | none =>
      have empty := head?_orderByDescending_eq_none.mp latest
      have inside : row ∈ store.historyOf monitor.id := Store.mem_historyOf.mpr ⟨stored, points⟩
      rw [empty] at inside
      contradiction
  | some first => exact ⟨first, rfl, le_of_head?_orderByDescending latest⟩

/-- A row the table may show: the query takes one row in the order of the times, and of
rows with one time the database may take any. -/
def Shows (context : ApplicationDbContext) (store : Store) (row : MonitorRow) : Prop :=
  ∃ monitor ∈ context.urlMonitors store, ∃ latest : Option LatencyHistory,
    (latest = none → store.historyOf monitor.id = []) ∧
    (∀ check, latest = some check → Latest (store.historyOf monitor.id) check) ∧
    row = monitorRow
      { id := monitor.id, url := monitor.url, checkIntervalMinutes := monitor.checkIntervalMinutes
        timeoutMs := monitor.timeoutMs, createdAt := monitor.createdAt, isActive := monitor.isActive
        isPaused := monitor.isPaused, history := latest.toList }

/-- The table of the first inserted of tied rows is one of those. -/
theorem shows_of_mem_monitorTable {context : ApplicationDbContext} {store : Store} {row : MonitorRow}
    (listed : row ∈ monitorTable (onGetAsync context store)) : Shows context store row := by
  obtain ⟨listing, member, rfl⟩ := List.mem_map.mp listed
  obtain ⟨monitor, ordered, rfl⟩ := List.mem_map.mp member
  have visible := mem_orderByDescending.mp ordered
  have whole : context.history store monitor.id = store.historyOf monitor.id :=
    ApplicationDbContext.history_of_visible visible
  rw [whole]
  refine ⟨monitor, visible, (orderByDescending (·.checkedAt) (store.historyOf monitor.id)).head?, ?_, ?_, ?_⟩
  · exact head?_orderByDescending_eq_none.mp
  · exact fun check first => le_of_head?_orderByDescending first
  · rw [← List.take_one]

end UrlPulse.Web.MonitorTable
