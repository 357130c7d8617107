import UrlPulse.Data.Schema
import UrlPulse.Infrastructure.Store

namespace UrlPulse.Infrastructure

open UrlPulse.Core UrlPulse.Data.Schema

/-! The migrations of the two tables, and the tables as each of them leaves them.
Indexes and column types do not show in what is stored. -/

inductive Cell where
  | integer (value : Int)
  | text (value : String)
  | boolean (value : Bool)
  | timestamp (value : DateTime)
deriving DecidableEq, Repr

def initialMigration : Migration Cell where
  id := "20260325152329_InitialMigration"
  up := [.createTable "UrlMonitors"
      ["Id", "Url", "CheckIntervalMinutes", "IsPaused", "TimeoutMs", "IsActive", "CreatedAt"],
    .createTable "LatencyHistories"
      ["Id", "LatencyMs", "StatusCode", "ErrorMessage", "CheckedAt", "UrlMonitorId"]]
  down := [.dropTable "LatencyHistories", .dropTable "UrlMonitors"]

def addRegionToLatencyChecks : Migration Cell where
  id := "20260408181034_AddRegionToLatencyChecks"
  up := [.addColumn "Region" "LatencyHistories" (.text "")]
  down := [.dropColumn "Region" "LatencyHistories"]

/-- It does nothing; the column comes with the next one. -/
def addOwnerIdToUrlMonitor : Migration Cell where
  id := "20260416003221_AddOwnerIdToUrlMonitor"
  up := []
  down := []

def ensureOwnerIdColumn : Migration Cell where
  id := "20260421204527_EnsureOwnerIdColumn"
  up := [.addColumn "OwnerId" "UrlMonitors" (.text "")]
  down := [.dropColumn "OwnerId" "UrlMonitors"]

def migrations : List (Migration Cell) :=
  [initialMigration, addRegionToLatencyChecks, addOwnerIdToUrlMonitor, ensureOwnerIdColumn]

/-! ## Stored rows -/

def monitorColumns (owner : Bool) : List String :=
  ["Id", "Url", "CheckIntervalMinutes", "IsPaused", "TimeoutMs", "IsActive", "CreatedAt"] ++
    if owner then ["OwnerId"] else []

def monitorCells (owner : Bool) (monitor : UrlMonitor) : List Cell :=
  [.integer monitor.id, .text monitor.url, .integer monitor.checkIntervalMinutes.toInt,
    .boolean monitor.isPaused, .integer monitor.timeoutMs.toInt, .boolean monitor.isActive,
    .timestamp monitor.createdAt] ++ if owner then [.text monitor.ownerId] else []

def historyColumns (region : Bool) : List String :=
  ["Id", "LatencyMs", "StatusCode", "ErrorMessage", "CheckedAt", "UrlMonitorId"] ++
    if region then ["Region"] else []

def historyCells (region : Bool) (row : LatencyHistory) : List Cell :=
  [.integer row.id, .integer row.latencyMs, .integer row.statusCode, .text row.errorMessage,
    .timestamp row.checkedAt, .integer row.urlMonitorId] ++ if region then [.text row.region] else []

/-- The tables with and without the columns that came later. -/
def tablesOf (owner region : Bool) (store : Store) : Tables Cell :=
  [("UrlMonitors",
      { columns := monitorColumns owner, rows := store.urlMonitors.map (monitorCells owner)
        identity := store.nextMonitorId }),
    ("LatencyHistories",
      { columns := historyColumns region, rows := store.latencyHistories.map (historyCells region)
        identity := store.nextHistoryId })]

/-- The entities of the model read their properties by the names of the columns. -/
def readMonitor (table : Table Cell) (row : List Cell) : Option UrlMonitor :=
  match table.cell? row "Id", table.cell? row "OwnerId", table.cell? row "Url",
    table.cell? row "CheckIntervalMinutes", table.cell? row "IsPaused", table.cell? row "TimeoutMs",
    table.cell? row "IsActive", table.cell? row "CreatedAt" with
  | some (.integer id), some (.text ownerId), some (.text url), some (.integer interval),
    some (.boolean isPaused), some (.integer timeoutMs), some (.boolean isActive),
    some (.timestamp createdAt) =>
      some { id, ownerId, url, checkIntervalMinutes := Int32.ofInt interval, isPaused
             timeoutMs := Int32.ofInt timeoutMs, isActive, createdAt }
  | _, _, _, _, _, _, _, _ => none

def readHistory (table : Table Cell) (row : List Cell) : Option LatencyHistory :=
  match table.cell? row "Id", table.cell? row "LatencyMs", table.cell? row "StatusCode",
    table.cell? row "ErrorMessage", table.cell? row "CheckedAt", table.cell? row "Region",
    table.cell? row "UrlMonitorId" with
  | some (.integer id), some (.integer latencyMs), some (.integer statusCode),
    some (.text errorMessage), some (.timestamp checkedAt), some (.text region),
    some (.integer urlMonitorId) =>
      some { id, latencyMs := latencyMs.toNat, statusCode := statusCode.toNat, errorMessage, checkedAt
             region, urlMonitorId }
  | _, _, _, _, _, _, _ => none

def readStore (tables : Tables Cell) : Option Store :=
  match tables.lookup "UrlMonitors", tables.lookup "LatencyHistories" with
  | some monitors, some histories =>
      match monitors.rows.mapM (readMonitor monitors), histories.rows.mapM (readHistory histories) with
      | some urlMonitors, some latencyHistories =>
          some { urlMonitors, latencyHistories, nextMonitorId := monitors.identity
                 nextHistoryId := histories.identity }
      | _, _ => none
  | _, _ => none

theorem readMonitor_cells (rows : List (List Cell)) (identity : Int) (monitor : UrlMonitor) :
    readMonitor { columns := monitorColumns true, rows, identity } (monitorCells true monitor) =
      some monitor := by
  simp [readMonitor, Table.cell?, monitorColumns, monitorCells, List.lookup_cons]

theorem readHistory_cells (rows : List (List Cell)) (identity : Int) (row : LatencyHistory) :
    readHistory { columns := historyColumns true, rows, identity } (historyCells true row) =
      some row := by
  simp [readHistory, Table.cell?, historyColumns, historyCells, List.lookup_cons]

theorem mapM_map {α : Type} {read : List Cell → Option α} {write : α → List Cell}
    (inverse : ∀ value, read (write value) = some value) (values : List α) :
    (values.map write).mapM read = some values := by
  induction values with
  | nil => rfl
  | cons value rest ih => simp [inverse, ih]

theorem readStore_tablesOf (store : Store) : readStore (tablesOf true true store) = some store := by
  have monitors := mapM_map (readMonitor_cells (store.urlMonitors.map (monitorCells true))
    store.nextMonitorId) store.urlMonitors
  have histories := mapM_map (readHistory_cells (store.latencyHistories.map (historyCells true))
    store.nextHistoryId) store.latencyHistories
  simp [readStore, tablesOf, List.lookup_cons, monitors, histories]

/-! ## Versions -/

/-- The last migration a database has had. -/
inductive Version where
  | initialMigration
  | addRegionToLatencyChecks
  | addOwnerIdToUrlMonitor
  | ensureOwnerIdColumn
deriving DecidableEq, Repr

namespace Version

def applied : Version → Nat
  | .initialMigration => 1
  | .addRegionToLatencyChecks => 2
  | .addOwnerIdToUrlMonitor => 3
  | .ensureOwnerIdColumn => 4

def hasRegion (version : Version) : Bool := 2 ≤ version.applied

def hasOwner (version : Version) : Bool := 4 ≤ version.applied

end Version

/-- A database of this version; columns it does not have are not stored. -/
def deployed (version : Version) (store : Store) : Versioned Cell where
  tables := tablesOf version.hasOwner version.hasRegion store
  applied := (migrations.take version.applied).map (·.id)

/-- What was not stored comes back blank. -/
def upgraded (version : Version) (store : Store) : Store where
  urlMonitors :=
    if version.hasOwner then store.urlMonitors
    else store.urlMonitors.map fun monitor => { monitor with ownerId := "" }
  latencyHistories :=
    if version.hasRegion then store.latencyHistories
    else store.latencyHistories.map fun row => { row with region := "" }
  nextMonitorId := store.nextMonitorId
  nextHistoryId := store.nextHistoryId

theorem up_addRegion (owner : Bool) (store : Store) :
    applyAll addRegionToLatencyChecks.up (tablesOf owner false store) =
      some (tablesOf owner true
        { store with latencyHistories := store.latencyHistories.map fun row => { row with region := "" } }) := by
  simp [addRegionToLatencyChecks, applyAll, Change.apply, tablesOf, Tables.modify, Table.addColumn,
    historyColumns, historyCells, List.map_map, Function.comp_def]

theorem up_ensureOwner (region : Bool) (store : Store) :
    applyAll ensureOwnerIdColumn.up (tablesOf false region store) =
      some (tablesOf true region
        { store with urlMonitors := store.urlMonitors.map fun monitor => { monitor with ownerId := "" } }) := by
  simp [ensureOwnerIdColumn, applyAll, Change.apply, tablesOf, Tables.modify, Table.addColumn,
    monitorColumns, monitorCells, List.map_map, Function.comp_def]

theorem up_addOwnerId (tables : Tables Cell) : applyAll addOwnerIdToUrlMonitor.up tables = some tables :=
  rfl

theorem migrate_pending {migration : Migration Cell} (rest : List (Migration Cell))
    {tables after : Tables Cell} {applied : List String} (pending : migration.id ∉ applied)
    (changed : applyAll migration.up tables = some after) :
    migrate (migration :: rest) { tables, applied } =
      migrate rest { tables := after, applied := applied ++ [migration.id] } := by
  rw [migrate, if_neg pending, changed, Option.bind_some]

/-- Only the migrations the database has not had are left to do. -/
theorem migrate_installed (version : Version) (store : Store) :
    migrate migrations (deployed version store) =
      migrate (migrations.drop version.applied) (deployed version store) := by
  have had : ∀ migration ∈ migrations.take version.applied,
      migration.id ∈ (deployed version store).applied :=
    fun _ member => List.mem_map_of_mem member
  calc
    _ = migrate (migrations.take version.applied ++ migrations.drop version.applied)
          (deployed version store) := by rw [List.take_append_drop]
    _ = _ := by rw [migrate_append, migrate_of_applied had, Option.bind_some]

/-- Starting the program brings any older database to the last version. -/
theorem migrate_deployed (version : Version) (store : Store) :
    migrate migrations (deployed version store) =
      some (deployed .ensureOwnerIdColumn (upgraded version store)) := by
  rw [migrate_installed]
  cases version with
  | initialMigration =>
      calc
        _ = _ := migrate_pending _ (by decide) (up_addRegion _ _)
        _ = _ := migrate_pending _ (by decide) (up_addOwnerId _)
        _ = _ := migrate_pending _ (by decide) (up_ensureOwner _ _)
  | addRegionToLatencyChecks =>
      calc
        _ = _ := migrate_pending _ (by decide) (up_addOwnerId _)
        _ = _ := migrate_pending _ (by decide) (up_ensureOwner _ _)
  | addOwnerIdToUrlMonitor => exact migrate_pending _ (by decide) (up_ensureOwner _ _)
  | ensureOwnerIdColumn => rfl

theorem rollback_deployed (version : Version) (store : Store) :
    rollback (migrations.drop version.applied) (deployed .ensureOwnerIdColumn store).tables =
      some (deployed version store).tables := by
  have owner : applyAll ensureOwnerIdColumn.down (tablesOf true true store) =
      some (tablesOf false true store) := by
    simp [ensureOwnerIdColumn, applyAll, Change.apply, tablesOf, Tables.modify, Table.dropColumn,
      monitorColumns, monitorCells]
  have region : applyAll addRegionToLatencyChecks.down (tablesOf false true store) =
      some (tablesOf false false store) := by
    simp [addRegionToLatencyChecks, applyAll, Change.apply, tablesOf, Tables.modify, Table.dropColumn,
      historyColumns, historyCells]
  cases version with
  | ensureOwnerIdColumn => rfl
  | addOwnerIdToUrlMonitor => exact owner
  | addRegionToLatencyChecks => exact owner
  | initialMigration =>
      calc
        _ = (applyAll ensureOwnerIdColumn.down (tablesOf true true store)).bind
              (applyAll addRegionToLatencyChecks.down) := rfl
        _ = applyAll addRegionToLatencyChecks.down (tablesOf false true store) := by
            rw [owner, Option.bind_some]
        _ = _ := region

theorem monitorIds_upgraded (version : Version) (store : Store) :
    (upgraded version store).monitorIds = store.monitorIds := by
  rw [Store.monitorIds, upgraded]
  split
  · rfl
  · rw [List.map_map]
    rfl

/-- A figure of the rows that does not show their region. -/
theorem map_histories_upgraded {Value : Type} (figure : LatencyHistory → Value)
    (blind : ∀ row region, figure { row with region } = figure row) (version : Version) (store : Store) :
    (upgraded version store).latencyHistories.map figure = store.latencyHistories.map figure := by
  simp only [upgraded]
  split
  · rfl
  · rw [List.map_map]
    exact List.map_congr_left fun row _ => blind row ""

theorem valid_upgraded {store : Store} (version : Version) (valid : store.Valid) :
    (upgraded version store).Valid where
  monitorKeys := by
    rw [monitorIds_upgraded]
    exact valid.monitorKeys
  monitorIssued := by
    rw [monitorIds_upgraded]
    exact valid.monitorIssued
  historyKeys := by
    rw [map_histories_upgraded (·.id) (fun _ _ => rfl)]
    exact valid.historyKeys
  historyIssued := by
    have issued : ∀ id ∈ (upgraded version store).latencyHistories.map (·.id), id < store.nextHistoryId := by
      rw [map_histories_upgraded (·.id) (fun _ _ => rfl)]
      exact List.forall_mem_map.mpr valid.historyIssued
    exact fun row member => issued row.id (List.mem_map_of_mem member)
  foreignKey := by
    have referenced : ∀ id ∈ (upgraded version store).latencyHistories.map (·.urlMonitorId),
        id ∈ (upgraded version store).monitorIds := by
      rw [map_histories_upgraded (·.urlMonitorId) (fun _ _ => rfl), monitorIds_upgraded]
      exact List.forall_mem_map.mpr valid.foreignKey
    exact fun row member => referenced row.urlMonitorId (List.mem_map_of_mem member)

theorem migrations_reversible : ∀ migration ∈ migrations, migration.Reversible := by
  intro migration member
  simp only [migrations, List.mem_cons, List.not_mem_nil, or_false] at member
  rcases member with rfl | rfl | rfl | rfl
  · exact reversible_createTables _ _ _ _ _
  · exact reversible_addColumn _ _ _ _
  · exact reversible_nothing _
  · exact reversible_addColumn _ _ _ _

/-- A start of the program over a database of any version leaves one that it can read,
with every row and every column that was stored, and the rest blank; it satisfies the
schema as before, a second start changes nothing, and taking the migrations
back loses just the columns they brought.  A new database comes out empty. -/
theorem upgrade_preserves (version : Version) (store : Store) :
    (∃ database, migrate migrations (deployed version store) = some database ∧
      readStore database.tables = some (upgraded version store) ∧
      migrate migrations database = some database) ∧
    (store.Valid → (upgraded version store).Valid) ∧
    rollback (migrations.drop version.applied) (deployed .ensureOwnerIdColumn store).tables =
      some (deployed version store).tables ∧
    (∀ migration ∈ migrations, migration.Reversible) ∧
    ∃ database, migrate migrations {} = some database ∧
      readStore database.tables = some Store.empty := by
  have migrated := migrate_deployed version store
  refine ⟨⟨_, migrated, readStore_tablesOf _, migrate_again migrated⟩, valid_upgraded version,
    rollback_deployed version store, migrations_reversible, ?_⟩
  exact ⟨deployed .ensureOwnerIdColumn Store.empty, rfl, readStore_tablesOf Store.empty⟩

end UrlPulse.Infrastructure
