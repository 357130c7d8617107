import Mathlib.Data.List.Nodup
import UrlPulse.Core.Models

namespace UrlPulse.Infrastructure

open UrlPulse.Core

/-! The two tables of the migrations, with their identity columns.  An identity
value is never handed out twice, so a counter only grows; values a failed
transaction draws are not modelled, since no row ever carries them. -/

structure Store where
  urlMonitors : List UrlMonitor := []
  latencyHistories : List LatencyHistory := []
  nextMonitorId : Int := 1
  nextHistoryId : Int := 1
deriving DecidableEq, Repr

namespace Store

def empty : Store := {}

def monitorIds (store : Store) : List Int := store.urlMonitors.map (·.id)

def historyOf (store : Store) (id : Int) : List LatencyHistory :=
  store.latencyHistories.filter fun row => row.urlMonitorId = id

/-- Rows take consecutive identity values in the order they are inserted. -/
def numbered : Int → List LatencyHistory → List LatencyHistory
  | _, [] => []
  | next, row :: rest => { row with id := next } :: numbered (next + 1) rest

def appendHistories (rows : List LatencyHistory) (store : Store) : Store where
  urlMonitors := store.urlMonitors
  latencyHistories := store.latencyHistories ++ numbered store.nextHistoryId rows
  nextMonitorId := store.nextMonitorId
  nextHistoryId := store.nextHistoryId + rows.length

/-- INSERT of a monitor and of the history reachable from it, whose foreign
keys take the identity value the monitor gets. -/
def insertMonitor (monitor : UrlMonitor) (history : List LatencyHistory) (store : Store) : Store :=
  ({ store with
      urlMonitors := store.urlMonitors ++ [{ monitor with id := store.nextMonitorId }]
      nextMonitorId := store.nextMonitorId + 1 } : Store).appendHistories
    (history.map fun row => { row with urlMonitorId := store.nextMonitorId })

def foreignKeyName : String := "FK_LatencyHistories_UrlMonitors_UrlMonitorId"

def insertHistory (row : LatencyHistory) (store : Store) : Except Fault Store :=
  if row.urlMonitorId ∈ store.monitorIds then .ok (store.appendHistories [row])
  else .error (.dbUpdate foreignKeyName)

def setPaused (id : Int) (isPaused : Bool) (store : Store) : Store :=
  { store with
    urlMonitors := store.urlMonitors.map fun monitor =>
      if monitor.id = id then { monitor with isPaused } else monitor }

/-- UPDATE of the one modified column; it must hit its row. -/
def updateIsPaused (id : Int) (isPaused : Bool) (store : Store) : Except Fault Store :=
  if id ∈ store.monitorIds then .ok (store.setPaused id isPaused)
  else .error .dbUpdateConcurrency

/-- A monitor with its history, by `ON DELETE CASCADE`. -/
def without (id : Int) (store : Store) : Store :=
  { store with
    urlMonitors := store.urlMonitors.filter fun monitor => monitor.id ≠ id
    latencyHistories := store.latencyHistories.filter fun row => row.urlMonitorId ≠ id }

def deleteMonitor (id : Int) (store : Store) : Except Fault Store :=
  if id ∈ store.monitorIds then .ok (store.without id)
  else .error .dbUpdateConcurrency

/-- What the schema enforces: primary keys, identity columns and the foreign key. -/
structure Valid (store : Store) : Prop where
  monitorKeys : store.monitorIds.Nodup
  monitorIssued : ∀ id ∈ store.monitorIds, id < store.nextMonitorId
  historyKeys : (store.latencyHistories.map (·.id)).Nodup
  historyIssued : ∀ row ∈ store.latencyHistories, row.id < store.nextHistoryId
  foreignKey : ∀ row ∈ store.latencyHistories, row.urlMonitorId ∈ store.monitorIds

instance (store : Store) : Decidable store.Valid :=
  decidable_of_iff
    (store.monitorIds.Nodup ∧ (∀ id ∈ store.monitorIds, id < store.nextMonitorId) ∧
      (store.latencyHistories.map (·.id)).Nodup ∧
      (∀ row ∈ store.latencyHistories, row.id < store.nextHistoryId) ∧
      ∀ row ∈ store.latencyHistories, row.urlMonitorId ∈ store.monitorIds)
    ⟨fun ⟨keys, issued, rowKeys, rowIssued, foreignKey⟩ =>
        ⟨keys, issued, rowKeys, rowIssued, foreignKey⟩,
      fun ⟨keys, issued, rowKeys, rowIssued, foreignKey⟩ =>
        ⟨keys, issued, rowKeys, rowIssued, foreignKey⟩⟩

theorem empty_valid : empty.Valid := by decide

theorem mem_monitorIds {store : Store} {id : Int} :
    id ∈ store.monitorIds ↔ ∃ monitor ∈ store.urlMonitors, monitor.id = id := by
  simp [monitorIds]

@[simp] theorem mem_historyOf {store : Store} {id : Int} {row : LatencyHistory} :
    row ∈ store.historyOf id ↔ row ∈ store.latencyHistories ∧ row.urlMonitorId = id := by
  simp [historyOf]

theorem Valid.monitor_unique {store : Store} (valid : store.Valid) {left right : UrlMonitor}
    (leftStored : left ∈ store.urlMonitors) (rightStored : right ∈ store.urlMonitors)
    (same : left.id = right.id) : left = right :=
  List.inj_on_of_nodup_map valid.monitorKeys leftStored rightStored same

/-- A row without its identity value: what the code asked to be inserted. -/
def unnumbered (row : LatencyHistory) : LatencyHistory := { row with id := 0 }

@[simp] theorem numbered_unnumbered (next : Int) (rows : List LatencyHistory) :
    (numbered next rows).map unnumbered = rows.map unnumbered := by
  induction rows generalizing next with
  | nil => rfl
  | cons row rest ih =>
      rw [numbered, List.map_cons, List.map_cons, ih]
      rfl

theorem mem_numbered {next : Int} {rows : List LatencyHistory} {row : LatencyHistory}
    (member : row ∈ numbered next rows) :
    (∃ source ∈ rows, row = { source with id := row.id }) ∧
      next ≤ row.id ∧ row.id < next + rows.length := by
  induction rows generalizing next with
  | nil => simp [numbered] at member
  | cons head rest ih =>
      rcases List.mem_cons.mp member with rfl | later
      · refine ⟨⟨head, by simp, rfl⟩, by simp, by simp only [List.length_cons]; omega⟩
      · obtain ⟨⟨source, inside, same⟩, lower, upper⟩ := ih later
        refine ⟨⟨source, List.mem_cons_of_mem head inside, same⟩, by omega, ?_⟩
        simp only [List.length_cons]
        omega

/-- The rows inserted with a monitor point at it. -/
theorem urlMonitorId_of_numbered {next fresh : Int} {history : List LatencyHistory}
    {row : LatencyHistory}
    (member : row ∈ numbered next (history.map fun row => { row with urlMonitorId := fresh })) :
    row.urlMonitorId = fresh := by
  obtain ⟨source, inside, same⟩ := (mem_numbered member).1
  obtain ⟨original, -, rfl⟩ := List.mem_map.mp inside
  rw [same]

theorem nodup_numbered_ids (next : Int) (rows : List LatencyHistory) :
    ((numbered next rows).map (·.id)).Nodup := by
  induction rows generalizing next with
  | nil => exact .nil
  | cons row rest ih =>
      refine List.nodup_cons.mpr ⟨?_, ih (next + 1)⟩
      intro repeated
      obtain ⟨other, member, same⟩ := List.mem_map.mp repeated
      have lower := (mem_numbered member).2.1
      simp only at same
      omega

theorem filter_numbered (p : LatencyHistory → Bool)
    (blind : ∀ row id, p { row with id := id } = p row)
    (next : Int) (rows : List LatencyHistory) :
    ((numbered next rows).filter p).map unnumbered = (rows.filter p).map unnumbered := by
  induction rows generalizing next with
  | nil => rfl
  | cons row rest ih =>
      have same := blind row next
      by_cases kept : p row = true
      · simp [numbered, kept, same, ih, unnumbered]
      · simp [numbered, kept, same, ih]

/-! ### Each statement keeps the schema's invariant -/

variable {store : Store}

theorem Valid.appendHistories (valid : store.Valid) {rows : List LatencyHistory}
    (referenced : ∀ row ∈ rows, row.urlMonitorId ∈ store.monitorIds) :
    (store.appendHistories rows).Valid where
  monitorKeys := valid.monitorKeys
  monitorIssued := valid.monitorIssued
  historyKeys := by
    simp only [Store.appendHistories, List.map_append]
    refine List.nodup_append.mpr ⟨valid.historyKeys, nodup_numbered_ids _ _, ?_⟩
    intro old oldMember new newMember same
    obtain ⟨oldRow, oldStored, rfl⟩ := List.mem_map.mp oldMember
    obtain ⟨newRow, newStored, rfl⟩ := List.mem_map.mp newMember
    have issued := valid.historyIssued oldRow oldStored
    have fresh := (mem_numbered newStored).2.1
    omega
  historyIssued := by
    intro row member
    simp only [Store.appendHistories]
    rcases List.mem_append.mp member with old | new
    · have issued := valid.historyIssued row old
      omega
    · exact (mem_numbered new).2.2
  foreignKey := by
    intro row member
    rcases List.mem_append.mp member with old | new
    · exact valid.foreignKey row old
    · obtain ⟨source, inside, same⟩ := (mem_numbered new).1
      rw [same]
      exact referenced source inside

theorem Valid.insertMonitor (valid : store.Valid) (monitor : UrlMonitor)
    (history : List LatencyHistory) : (store.insertMonitor monitor history).Valid := by
  have stored : Valid { store with
      urlMonitors := store.urlMonitors ++ [{ monitor with id := store.nextMonitorId }]
      nextMonitorId := store.nextMonitorId + 1 } := by
    have old : ∀ id ∈ store.monitorIds, id < store.nextMonitorId := valid.monitorIssued
    refine ⟨?_, ?_, valid.historyKeys, valid.historyIssued, ?_⟩
    · simp only [monitorIds, List.map_append, List.map_cons, List.map_nil]
      refine List.nodup_append.mpr ⟨valid.monitorKeys, by simp, ?_⟩
      intro id member other inside
      rw [List.mem_singleton.mp inside]
      exact Int.ne_of_lt (old id member)
    · intro id member
      simp only [monitorIds, List.map_append, List.mem_append] at member
      rcases member with before | added
      · have issued := old id before
        simp only
        omega
      · simp only [List.map_cons, List.map_nil, List.mem_singleton] at added
        simp only [added]
        omega
    · intro row member
      have referenced := valid.foreignKey row member
      simp only [monitorIds, List.map_append, List.mem_append] at referenced ⊢
      exact .inl referenced
  refine stored.appendHistories ?_
  intro row member
  obtain ⟨source, _, rfl⟩ := List.mem_map.mp member
  simp [monitorIds]

/-- A monitor after an update is one from before, up to its flag. -/
theorem mem_setPaused {id : Int} {isPaused : Bool} {monitor : UrlMonitor}
    (member : monitor ∈ (store.setPaused id isPaused).urlMonitors) :
    ∃ original ∈ store.urlMonitors, ∃ flag, monitor = { original with isPaused := flag } := by
  obtain ⟨original, inside, rfl⟩ := List.mem_map.mp member
  by_cases target : original.id = id
  · exact ⟨original, inside, isPaused, if_pos target⟩
  · exact ⟨original, inside, original.isPaused, if_neg target⟩

theorem setPaused_monitorIds (id : Int) (isPaused : Bool) (store : Store) :
    (store.setPaused id isPaused).monitorIds = store.monitorIds := by
  simp only [monitorIds, setPaused, List.map_map]
  refine List.map_congr_left ?_
  intro monitor _
  by_cases same : monitor.id = id <;> simp [same]

theorem Valid.setPaused (valid : store.Valid) (id : Int) (isPaused : Bool) :
    (store.setPaused id isPaused).Valid := by
  refine ⟨?_, ?_, valid.historyKeys, valid.historyIssued, ?_⟩
  · rw [setPaused_monitorIds]
    exact valid.monitorKeys
  · rw [setPaused_monitorIds]
    exact valid.monitorIssued
  · rw [setPaused_monitorIds]
    exact valid.foreignKey

theorem mem_without_monitorIds {id other : Int} :
    other ∈ (store.without id).monitorIds ↔ other ∈ store.monitorIds ∧ other ≠ id := by
  simp only [mem_monitorIds, without, List.mem_filter, decide_eq_true_eq]
  constructor
  · intro remaining
    obtain ⟨monitor, ⟨member, different⟩, rfl⟩ := remaining
    exact ⟨⟨monitor, member, rfl⟩, different⟩
  · intro other
    obtain ⟨⟨monitor, member, rfl⟩, different⟩ := other
    exact ⟨monitor, ⟨member, different⟩, rfl⟩

theorem Valid.without (valid : store.Valid) (id : Int) : (store.without id).Valid where
  monitorKeys := valid.monitorKeys.sublist (List.Sublist.map _ List.filter_sublist)
  monitorIssued := by
    intro other member
    exact valid.monitorIssued other (mem_without_monitorIds.mp member).1
  historyKeys := valid.historyKeys.sublist (List.Sublist.map _ List.filter_sublist)
  historyIssued := by
    intro row member
    exact valid.historyIssued row (List.mem_of_mem_filter member)
  foreignKey := by
    intro row member
    obtain ⟨stored, different⟩ := List.mem_filter.mp member
    exact mem_without_monitorIds.mpr ⟨valid.foreignKey row stored, by simpa using different⟩

end Store

/-- A database: tables that satisfy the schema. -/
structure Database extends Store where
  valid : toStore.Valid

end UrlPulse.Infrastructure
