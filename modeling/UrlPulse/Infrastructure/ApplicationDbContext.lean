import UrlPulse.Infrastructure.Store

namespace UrlPulse.Infrastructure

open UrlPulse.Core

/-! A context is created for one request or one timer run.  Its change tracker
is the list of entities the code added, modified or removed; only their inserted
rows, modified columns and deleted keys reach the database, when
`saveChangesAsync` runs, and then all of them or none. -/

inductive EntityEntry where
  | addedMonitor (monitor : UrlMonitor) (history : List LatencyHistory)
  | addedHistory (row : LatencyHistory)
  | modifiedIsPaused (id : Int) (isPaused : Bool)
  | deletedMonitor (id : Int)
deriving DecidableEq, Repr

/-- What a `timestamp with time zone` keeps of a clock's instant: its whole microseconds. -/
def timestamptz (time : DateTime) : DateTime := time / 10 * 10

/-- A `text` column takes every character but U+0000. -/
def isText (text : String) : Bool := !text.toList.contains (Char.ofNat 0)

def invalidText : String := "invalid byte sequence for encoding UTF8: 0x00"

def writtenRow (row : LatencyHistory) : LatencyHistory :=
  { row with checkedAt := timestamptz row.checkedAt }

def writtenMonitor (monitor : UrlMonitor) : UrlMonitor :=
  { monitor with createdAt := timestamptz monitor.createdAt }

theorem timestamptz_le (time : DateTime) : timestamptz time ≤ time := Nat.div_mul_le_self time 10

theorem lt_timestamptz_add (time : DateTime) : time < timestamptz time + 10 :=
  Nat.lt_div_mul_add (by decide)

theorem dvd_timestamptz (time : DateTime) : 10 ∣ timestamptz time := Nat.dvd_mul_left 10 (time / 10)

theorem timestamptz_of_dvd {time : DateTime} (whole : 10 ∣ time) : timestamptz time = time :=
  Nat.div_mul_cancel whole

theorem timestamptz_add {whole : DateTime} (dvd : 10 ∣ whole) (time : DateTime) :
    timestamptz (whole + time) = whole + timestamptz time := by
  obtain ⟨count, rfl⟩ := dvd
  rw [timestamptz, Nat.mul_add_div (by decide), Nat.add_mul, Nat.mul_comm count]
  rfl

theorem timestamptz_mono {time other : DateTime} (le : time ≤ other) : timestamptz time ≤ timestamptz other :=
  Nat.mul_le_mul_right 10 (Nat.div_le_div_right le)

namespace EntityEntry

/-- The loop of `SaveChangesAsync` over `ChangeTracker.Entries<UrlMonitor>()`. -/
def stamp (userId : Option String) : EntityEntry → EntityEntry
  | .addedMonitor monitor history =>
      .addedMonitor { monitor with ownerId := userId.getD "" } history
  | entry => entry

/-- The statement of an entry, with the values its parameters carry. -/
def written : EntityEntry → EntityEntry
  | .addedMonitor monitor history => .addedMonitor (writtenMonitor monitor) (history.map writtenRow)
  | .addedHistory row => .addedHistory (writtenRow row)
  | entry => entry

/-- The texts of a history row come from the code and the environment, which have no U+0000. -/
def apply : EntityEntry → Store → Except Fault Store
  | .addedMonitor monitor history, store =>
      if isText monitor.url && isText monitor.ownerId then .ok (store.insertMonitor monitor history)
      else .error (.dbUpdate invalidText)
  | .addedHistory row, store => store.insertHistory row
  | .modifiedIsPaused id isPaused, store => store.updateIsPaused id isPaused
  | .deletedMonitor id, store => store.deleteMonitor id

def applyAll : List EntityEntry → Store → Except Fault Store
  | [], store => .ok store
  | entry :: rest, store =>
      match entry.apply store with
      | .ok next => applyAll rest next
      | .error fault => .error fault

end EntityEntry

structure ApplicationDbContext where
  currentUserId : Option String
  entries : List EntityEntry := []
deriving DecidableEq, Repr

namespace ApplicationDbContext

/-- `m.OwnerId == _currentUserService.UserId`.  The column is required, so an
absent user id equals no owner. -/
def queryFilter (context : ApplicationDbContext) (monitor : UrlMonitor) : Bool :=
  context.currentUserId = some monitor.ownerId

def urlMonitors (context : ApplicationDbContext) (store : Store) : List UrlMonitor :=
  store.urlMonitors.filter context.queryFilter

/-- The second filter reads the owner through the navigation to the monitor. -/
def latencyHistories (context : ApplicationDbContext) (store : Store) : List LatencyHistory :=
  store.latencyHistories.filter fun row =>
    (context.urlMonitors store).any fun monitor => monitor.id = row.urlMonitorId

/-- `u.History` inside a query, which the filters also apply to. -/
def history (context : ApplicationDbContext) (store : Store) (id : Int) : List LatencyHistory :=
  (context.latencyHistories store).filter fun row => row.urlMonitorId = id

/-- `FirstOrDefaultAsync(m => m.Id == id)`. -/
def findMonitor (context : ApplicationDbContext) (store : Store) (id : Int) : Option UrlMonitor :=
  (context.urlMonitors store).find? fun monitor => monitor.id = id

def track (context : ApplicationDbContext) (entry : EntityEntry) : ApplicationDbContext :=
  { context with entries := context.entries ++ [entry] }

def saveChangesAsync (context : ApplicationDbContext) (store : Store) : Except Fault Store :=
  EntityEntry.applyAll (context.entries.map fun entry => (entry.stamp context.currentUserId).written) store

end ApplicationDbContext

namespace EntityEntry

variable {store after : Store}

theorem apply_cases {entry : EntityEntry} (applied : entry.apply store = .ok after) :
    (∃ monitor history, entry = .addedMonitor monitor history ∧
      (isText monitor.url ∧ isText monitor.ownerId) ∧ after = store.insertMonitor monitor history) ∨
    (∃ row, entry = .addedHistory row ∧ row.urlMonitorId ∈ store.monitorIds ∧
      after = store.appendHistories [row]) ∨
    (∃ id isPaused, entry = .modifiedIsPaused id isPaused ∧ id ∈ store.monitorIds ∧
      after = store.setPaused id isPaused) ∨
    (∃ id, entry = .deletedMonitor id ∧ id ∈ store.monitorIds ∧ after = store.without id) := by
  cases entry with
  | addedMonitor monitor history =>
      simp only [apply] at applied
      split at applied
      case isTrue texts =>
        cases applied
        exact .inl ⟨monitor, history, rfl, by simpa using texts, rfl⟩
      case isFalse => contradiction
  | addedHistory row =>
      simp only [apply, Store.insertHistory] at applied
      split at applied
      · cases applied
        exact .inr (.inl ⟨row, rfl, ‹_›, rfl⟩)
      · contradiction
  | modifiedIsPaused id isPaused =>
      simp only [apply, Store.updateIsPaused] at applied
      split at applied
      · cases applied
        exact .inr (.inr (.inl ⟨id, isPaused, rfl, ‹_›, rfl⟩))
      · contradiction
  | deletedMonitor id =>
      simp only [apply, Store.deleteMonitor] at applied
      split at applied
      · cases applied
        exact .inr (.inr (.inr ⟨id, rfl, ‹_›, rfl⟩))
      · contradiction

theorem applyAll_cons {entry : EntityEntry} {rest : List EntityEntry}
    (applied : applyAll (entry :: rest) store = .ok after) :
    ∃ next, entry.apply store = .ok next ∧ applyAll rest next = .ok after := by
  cases first : entry.apply store with
  | error fault => simp [applyAll, first] at applied
  | ok next => exact ⟨next, rfl, by simpa only [applyAll, first] using applied⟩

theorem applyAll_invariant {P : Store → Prop} {entries : List EntityEntry}
    (kept : ∀ entry ∈ entries, ∀ before next, P before → entry.apply before = .ok next → P next)
    (initial : P store) (applied : applyAll entries store = .ok after) : P after := by
  induction entries generalizing store with
  | nil =>
      cases applied
      exact initial
  | cons entry rest ih =>
      obtain ⟨next, first, remaining⟩ := applyAll_cons applied
      exact ih (fun other member => kept other (List.mem_cons_of_mem entry member))
        (kept entry (by simp) store next initial first) remaining

theorem apply_valid {entry : EntityEntry} (valid : store.Valid)
    (applied : entry.apply store = .ok after) : after.Valid := by
  rcases apply_cases applied with
    ⟨monitor, history, rfl, -, rfl⟩ | ⟨row, rfl, referenced, rfl⟩ | ⟨id, isPaused, rfl, -, rfl⟩ | ⟨id, rfl, -, rfl⟩
  · exact valid.insertMonitor monitor history
  · exact valid.appendHistories (by simpa using referenced)
  · exact valid.setPaused id isPaused
  · exact valid.without id

/-- A batch of history rows commits exactly when every row names a stored
monitor, and then all of them are appended. -/
theorem applyAll_addedHistory (rows : List LatencyHistory) (store : Store) :
    applyAll (rows.map .addedHistory) store =
      if ∀ row ∈ rows, row.urlMonitorId ∈ store.monitorIds then .ok (store.appendHistories rows)
      else .error (.dbUpdate Store.foreignKeyName) := by
  induction rows generalizing store with
  | nil => simp [applyAll, Store.appendHistories, Store.numbered]
  | cons row rest ih =>
      by_cases referenced : row.urlMonitorId ∈ store.monitorIds
      · have later : (store.appendHistories [row]).appendHistories rest =
            store.appendHistories (row :: rest) := by
          simp [Store.appendHistories, Store.numbered, Int.add_comm, Int.add_left_comm]
        have sameIds : (store.appendHistories [row]).monitorIds = store.monitorIds := rfl
        have first : (EntityEntry.addedHistory row).apply store = .ok (store.appendHistories [row]) :=
          if_pos referenced
        simp only [List.map_cons, applyAll, first, ih, later, sameIds, List.forall_mem_cons,
          referenced, true_and]
      · simp [applyAll, apply, Store.insertHistory, referenced]

@[simp] theorem written_addedHistory (row : LatencyHistory) :
    written (.addedHistory row) = .addedHistory (writtenRow row) := rfl

@[simp] theorem written_modifiedIsPaused (id : Int) (isPaused : Bool) :
    written (.modifiedIsPaused id isPaused) = .modifiedIsPaused id isPaused := rfl

@[simp] theorem written_deletedMonitor (id : Int) :
    written (.deletedMonitor id) = .deletedMonitor id := rfl

@[simp] theorem stamp_addedHistory (userId : Option String) (row : LatencyHistory) :
    stamp userId (.addedHistory row) = .addedHistory row := rfl

@[simp] theorem stamp_modifiedIsPaused (userId : Option String) (id : Int) (isPaused : Bool) :
    stamp userId (.modifiedIsPaused id isPaused) = .modifiedIsPaused id isPaused := rfl

@[simp] theorem stamp_deletedMonitor (userId : Option String) (id : Int) :
    stamp userId (.deletedMonitor id) = .deletedMonitor id := rfl

end EntityEntry

namespace ApplicationDbContext

variable {context : ApplicationDbContext} {store after : Store}

theorem findMonitor_some {id : Int} {monitor : UrlMonitor}
    (found : context.findMonitor store id = some monitor) :
    monitor ∈ store.urlMonitors ∧ context.currentUserId = some monitor.ownerId ∧ monitor.id = id := by
  have visible := List.mem_filter.mp (List.mem_of_find?_eq_some found)
  exact ⟨visible.1, by simpa [queryFilter] using visible.2, by simpa using List.find?_some found⟩

theorem mem_monitorIds_of_found {id : Int} {monitor : UrlMonitor}
    (found : context.findMonitor store id = some monitor) : id ∈ store.monitorIds := by
  obtain ⟨stored, -, key⟩ := findMonitor_some found
  exact Store.mem_monitorIds.mpr ⟨monitor, stored, key⟩

/-- The keys are unique, so the context finds every monitor it sees. -/
theorem findMonitor_of_visible {monitor : UrlMonitor} (valid : store.Valid)
    (visible : monitor ∈ context.urlMonitors store) :
    context.findMonitor store monitor.id = some monitor := by
  cases found : context.findMonitor store monitor.id with
  | none =>
      have absent := List.find?_eq_none.mp found monitor visible
      simp at absent
  | some other =>
      obtain ⟨stored, -, key⟩ := findMonitor_some found
      exact congrArg some (valid.monitor_unique stored (List.mem_of_mem_filter visible) key)

theorem findMonitor_setPaused (context : ApplicationDbContext) (store : Store) (id other : Int)
    (isPaused : Bool) :
    context.findMonitor (store.setPaused id isPaused) other =
      (context.findMonitor store other).map fun monitor =>
        if monitor.id = id then { monitor with isPaused } else monitor := by
  simp only [findMonitor, urlMonitors, Store.setPaused, List.find?_filter, List.find?_map]
  refine congrArg (fun found => Option.map _ found) ?_
  refine congrArg (fun test => store.urlMonitors.find? test) (funext fun monitor => ?_)
  by_cases same : monitor.id = id <;>
    simp [same, queryFilter]

theorem findMonitor_without (context : ApplicationDbContext) (store : Store) (id : Int) :
    context.findMonitor (store.without id) id = none := by
  refine List.find?_eq_none.mpr fun monitor visible same => ?_
  have remains := List.mem_of_mem_filter visible
  have different := (List.mem_filter.mp remains).2
  simp at same different
  exact different same

theorem findMonitor_without_of_ne (context : ApplicationDbContext) (store : Store) {id other : Int}
    (different : other ≠ id) :
    context.findMonitor (store.without id) other = context.findMonitor store other := by
  simp only [findMonitor, urlMonitors, Store.without, List.filter_filter, List.find?_filter]
  refine congrArg (fun test => store.urlMonitors.find? test) (funext fun monitor => ?_)
  by_cases same : monitor.id = other
  · simp [same, different]
  · simp [same]

/-- What the filters leave of a visible monitor's history is all of it. -/
theorem history_of_visible {monitor : UrlMonitor} (visible : monitor ∈ context.urlMonitors store) :
    context.history store monitor.id = store.historyOf monitor.id := by
  rw [history, latencyHistories, List.filter_filter, Store.historyOf]
  refine List.filter_congr ?_
  intro row _
  by_cases points : row.urlMonitorId = monitor.id
  · have owned : ∃ other ∈ context.urlMonitors store, other.id = monitor.id :=
      ⟨monitor, visible, rfl⟩
    simpa [points] using owned
  · simp [points]

end ApplicationDbContext

end UrlPulse.Infrastructure
