import UrlPulse.System

namespace UrlPulse

open UrlPulse.Core UrlPulse.Infrastructure UrlPulse.Web UrlPulse.Worker UrlPulse.Data

/-! # Tenant isolation

What a user owns is a slice of the store.  The slice is exactly what the query
filters let the user's contexts see, so a request depends on the store through
the caller's slice only, and each statement it commits acts inside that slice.
-/

structure Slice where
  monitors : List UrlMonitor
  rows : List LatencyHistory
deriving DecidableEq, Repr

def pointsInto (monitors : List UrlMonitor) (row : LatencyHistory) : Bool :=
  monitors.any fun monitor => monitor.id = row.urlMonitorId

def ownedMonitors (user : String) (store : Store) : List UrlMonitor :=
  store.urlMonitors.filter fun monitor => monitor.ownerId = user

def slice (user : String) (store : Store) : Slice where
  monitors := ownedMonitors user store
  rows := store.latencyHistories.filter (pointsInto (ownedMonitors user store))

variable {World Tag : Type} {store : Store} {user : String}

theorem urlMonitors_eq_slice (entries : List EntityEntry) :
    ApplicationDbContext.urlMonitors { currentUserId := some user, entries } store =
      (slice user store).monitors := by
  apply List.filter_congr
  intro monitor _
  simp [ApplicationDbContext.queryFilter, eq_comm]

theorem latencyHistories_eq_slice (entries : List EntityEntry) :
    ApplicationDbContext.latencyHistories { currentUserId := some user, entries } store =
      (slice user store).rows := by
  unfold ApplicationDbContext.latencyHistories
  rw [urlMonitors_eq_slice]
  rfl

/-- A request reads nothing but the caller's slice. -/
theorem load_congr (request : WebRequest World) {first second : Store}
    (same : slice user first = slice user second) :
    request.load (some user) first = request.load (some user) second := by
  have monitors : ∀ entries, ApplicationDbContext.urlMonitors
      { currentUserId := some user, entries } first =
        ApplicationDbContext.urlMonitors { currentUserId := some user, entries } second := by
    intro entries
    rw [urlMonitors_eq_slice, urlMonitors_eq_slice, same]
  have rows : ∀ entries, ApplicationDbContext.latencyHistories
      { currentUserId := some user, entries } first =
        ApplicationDbContext.latencyHistories { currentUserId := some user, entries } second := by
    intro entries
    rw [latencyHistories_eq_slice, latencyHistories_eq_slice, same]
  cases request <;>
    simp only [WebRequest.load, Index.onGetAsync, Index.onGetMonitorsPartialAsync, Index.onPostAsync,
      Index.onPostDeleteAsync, Index.onPostSetPauseAsync, Analytics.onGetAsync,
      Analytics.onGetLatencyDataAsync, Analytics.onGetRegionSummaryAsync, Analytics.onGetStatsAsync,
      Analytics.onGetStatusDistributionAsync, Analytics.windowRows, ApplicationDbContext.history,
      ApplicationDbContext.findMonitor, monitors, rows]

/-! ## What each statement does to a slice -/

theorem slice_insertMonitor (valid : store.Valid) (monitor : UrlMonitor)
    (history : List LatencyHistory) :
    slice user (store.insertMonitor monitor history) =
      if monitor.ownerId = user then
        { monitors := (slice user store).monitors ++ [{ monitor with id := store.nextMonitorId }]
          rows := (slice user store).rows ++ Store.numbered store.nextHistoryId
            (history.map fun row => { row with urlMonitorId := store.nextMonitorId }) }
      else slice user store := by
  have oldRows : ∀ row ∈ store.latencyHistories, store.nextMonitorId ≠ row.urlMonitorId := by
    intro row stored
    have issued := valid.monitorIssued _ (valid.foreignKey row stored)
    omega
  have oldIds : ∀ other ∈ store.urlMonitors, other.id ≠ store.nextMonitorId := by
    intro other stored
    have issued := valid.monitorIssued other.id (Store.mem_monitorIds.mpr ⟨other, stored, rfl⟩)
    omega
  have newRows : ∀ row ∈ Store.numbered store.nextHistoryId
      (history.map fun row => { row with urlMonitorId := store.nextMonitorId }),
      row.urlMonitorId = store.nextMonitorId := fun row member =>
    Store.urlMonitorId_of_numbered member
  by_cases owned : monitor.ownerId = user
  · have monitors : ownedMonitors user (store.insertMonitor monitor history) =
        ownedMonitors user store ++ [{ monitor with id := store.nextMonitorId }] := by
      simp [ownedMonitors, Store.insertMonitor, Store.appendHistories, owned]
    rw [if_pos owned]
    simp only [slice, monitors, Slice.mk.injEq, true_and]
    simp only [Store.insertMonitor, Store.appendHistories, List.filter_append]
    congr 1
    · apply List.filter_congr
      intro row stored
      simp [pointsInto, oldRows row stored]
    · apply List.filter_eq_self.mpr
      intro row member
      simp [pointsInto, newRows row member]
  · have monitors : ownedMonitors user (store.insertMonitor monitor history) =
        ownedMonitors user store := by
      simp [ownedMonitors, Store.insertMonitor, Store.appendHistories, owned]
    have unowned : (Store.numbered store.nextHistoryId
        (history.map fun row => { row with urlMonitorId := store.nextMonitorId })).filter
          (pointsInto (ownedMonitors user store)) = [] := by
      apply List.filter_eq_nil_iff.mpr
      intro row member
      simpa [pointsInto, newRows row member, ownedMonitors] using
        fun other stored _ => oldIds other stored
    rw [if_neg owned]
    simp only [slice, monitors, Slice.mk.injEq, true_and]
    simp only [Store.insertMonitor, Store.appendHistories, List.filter_append, unowned, List.append_nil]

theorem slice_setPaused (id : Int) (isPaused : Bool) :
    slice user (store.setPaused id isPaused) =
      { monitors := (slice user store).monitors.map fun monitor =>
          if monitor.id = id then { monitor with isPaused } else monitor
        rows := (slice user store).rows } := by
  have owners : ∀ monitor : UrlMonitor,
      (if monitor.id = id then { monitor with isPaused } else monitor).ownerId = monitor.ownerId := by
    intro monitor
    split <;> rfl
  have ids : ∀ monitor : UrlMonitor,
      (if monitor.id = id then { monitor with isPaused } else monitor).id = monitor.id := by
    intro monitor
    split <;> rfl
  have monitors : ownedMonitors user (store.setPaused id isPaused) =
      (ownedMonitors user store).map fun monitor =>
        if monitor.id = id then { monitor with isPaused } else monitor := by
    simp only [ownedMonitors, Store.setPaused, List.filter_map, Function.comp_def, owners]
  simp only [slice, monitors, Slice.mk.injEq, true_and]
  apply List.filter_congr
  intro row _
  simp only [pointsInto, List.any_map, Function.comp_def, ids]

theorem slice_without (id : Int) :
    slice user (store.without id) =
      { monitors := (slice user store).monitors.filter fun monitor => monitor.id ≠ id
        rows := (slice user store).rows.filter fun row => row.urlMonitorId ≠ id } := by
  have monitors : ownedMonitors user (store.without id) =
      (ownedMonitors user store).filter fun monitor => monitor.id ≠ id := by
    simp only [ownedMonitors, Store.without, List.filter_filter, Bool.and_comm]
  simp only [slice, monitors, Slice.mk.injEq, true_and]
  simp only [Store.without, List.filter_filter]
  apply List.filter_congr
  intro row _
  by_cases same : row.urlMonitorId = id
  · simp [same, pointsInto]
  · simp only [pointsInto, List.any_filter, same, ne_eq, not_false_eq_true, decide_true,
      Bool.and_true, Bool.true_and]
    apply List.any_congr rfl
    intro monitor
    by_cases points : monitor.id = row.urlMonitorId
    · simp [points, same]
    · simp [points]

section Unowned

variable {id : Int} (unowned : ∀ monitor ∈ (slice user store).monitors, monitor.id ≠ id)
include unowned

theorem slice_setPaused_unowned (isPaused : Bool) :
    slice user (store.setPaused id isPaused) = slice user store := by
  have same : ((slice user store).monitors.map fun monitor =>
      if monitor.id = id then { monitor with isPaused } else monitor) =
        (slice user store).monitors :=
    (List.map_congr_left fun monitor member => if_neg (unowned monitor member)).trans (List.map_id _)
  rw [slice_setPaused, same]

theorem slice_without_unowned : slice user (store.without id) = slice user store := by
  have monitors : ((slice user store).monitors.filter fun monitor => monitor.id ≠ id) =
      (slice user store).monitors :=
    List.filter_eq_self.mpr fun monitor member => decide_eq_true (unowned monitor member)
  have rows : ((slice user store).rows.filter fun row => row.urlMonitorId ≠ id) =
      (slice user store).rows := by
    apply List.filter_eq_self.mpr
    intro row member
    obtain ⟨monitor, owned, points⟩ := List.any_eq_true.mp (List.mem_filter.mp member).2
    have same : monitor.id = row.urlMonitorId := by simpa using points
    exact decide_eq_true (same ▸ unowned monitor owned)
  rw [slice_without, monitors, rows]

end Unowned

theorem unowned_of_found (valid : store.Valid) {other : String} (different : user ≠ other)
    {id : Int} {monitor : UrlMonitor}
    (found : ApplicationDbContext.findMonitor { currentUserId := some other } store id = some monitor) :
    ∀ owned ∈ (slice user store).monitors, owned.id ≠ id := by
  obtain ⟨stored, owner, key⟩ := ApplicationDbContext.findMonitor_some found
  intro owned member same
  obtain ⟨ownedStored, ownedBy⟩ := List.mem_filter.mp member
  have equal : owned = monitor := valid.monitor_unique ownedStored stored (same.trans key.symm)
  subst equal
  have isOther : other = owned.ownerId := Option.some.inj owner
  exact different ((of_decide_eq_true ownedBy).symm.trans isOther.symm)

theorem stored_of_found {first second : Store} (same : slice user first = slice user second)
    {id : Int} {monitor : UrlMonitor}
    (found : ApplicationDbContext.findMonitor { currentUserId := some user } first id = some monitor) :
    id ∈ first.monitorIds ∧ id ∈ second.monitorIds := by
  have visible := List.mem_of_find?_eq_some found
  have key := (ApplicationDbContext.findMonitor_some found).2.2
  rw [urlMonitors_eq_slice] at visible
  have alsoVisible := same ▸ visible
  exact ⟨Store.mem_monitorIds.mpr ⟨monitor, List.mem_of_mem_filter visible, key⟩,
    Store.mem_monitorIds.mpr ⟨monitor, List.mem_of_mem_filter alsoVisible, key⟩⟩

/-! ## One request -/

theorem slice_handle_other (valid : store.Valid) {caller : String} (different : user ≠ caller)
    (request : WebRequest World) :
    slice user (handle (some caller) request store).2 = slice user store := by
  have pendingSave : (handle (some caller) request store).2 =
      (((Operation.web (some caller) request).load store).save store).2 := rfl
  rw [pendingSave]
  rcases load_cases (.web (some caller) request) store with
    none | ⟨userId, checker, world, utcNow, form, result, same, statements, -⟩ |
    ⟨userId, id, monitor, same, found, loaded⟩ | ⟨userId, id, monitor, same, found, loaded⟩ |
    ⟨run, rows, same, -⟩
  · rw [Pending.save_of_no_statements none]
  · cases same
    rw [Pending.save_addedMonitor statements]
    split
    · rw [slice_insertMonitor valid]
      exact if_neg different.symm
    · rfl
  · cases same
    rw [loaded, Pending.save_deletedMonitor]
    split
    · exact slice_without_unowned (unowned_of_found valid different found)
    · rfl
  · cases same
    rw [loaded, Pending.save_modifiedIsPaused]
    split
    · exact slice_setPaused_unowned (unowned_of_found valid different found) _
    · rfl
  · contradiction

/-- Two stores that agree on the caller's slice and on the next identity values
answer the caller alike and give the caller the same slice back. -/
theorem handle_congr {first second : Store} (firstValid : first.Valid) (secondValid : second.Valid)
    (same : slice user first = slice user second)
    (sameMonitorId : first.nextMonitorId = second.nextMonitorId)
    (sameHistoryId : first.nextHistoryId = second.nextHistoryId) (request : WebRequest World) :
    (handle (some user) request first).1 = (handle (some user) request second).1 ∧
      slice user (handle (some user) request first).2 =
        slice user (handle (some user) request second).2 := by
  have loads : (Operation.web (some user) request).load first =
      (Operation.web (some user) request).load second := load_congr request same
  have atFirst : handle (some user) request first =
      ((Operation.web (some user) request).load first).save first := rfl
  have atSecond : handle (some user) request second =
      ((Operation.web (some user) request).load first).save second := by rw [loads]; rfl
  rw [atFirst, atSecond]
  rcases load_cases (.web (some user) request) first with
    none | ⟨userId, checker, world, utcNow, form, result, kind, statements, -⟩ |
    ⟨userId, id, monitor, kind, found, loaded⟩ | ⟨userId, id, monitor, kind, found, loaded⟩ |
    ⟨run, rows, kind, -⟩
  · rw [Pending.save_of_no_statements none, Pending.save_of_no_statements none]
    exact ⟨rfl, same⟩
  · cases kind
    rw [Pending.save_addedMonitor statements, Pending.save_addedMonitor statements]
    split
    · refine ⟨rfl, ?_⟩
      simp only [slice_insertMonitor firstValid, slice_insertMonitor secondValid, same, sameMonitorId,
        sameHistoryId]
    · exact ⟨rfl, same⟩
  · cases kind
    obtain ⟨inFirst, inSecond⟩ := stored_of_found same found
    rw [loaded, Pending.save_deletedMonitor, Pending.save_deletedMonitor, if_pos inFirst,
      if_pos inSecond]
    exact ⟨rfl, by simp only [slice_without, same]⟩
  · cases kind
    obtain ⟨inFirst, inSecond⟩ := stored_of_found same found
    rw [loaded, Pending.save_modifiedIsPaused, Pending.save_modifiedIsPaused, if_pos inFirst,
      if_pos inSecond]
    exact ⟨rfl, by simp only [slice_setPaused, same]⟩
  · contradiction

/-- The same identity counters over nothing but one user's slice. -/
def only (user : String) (store : Store) : Store :=
  { store with urlMonitors := (slice user store).monitors, latencyHistories := (slice user store).rows }

theorem slice_only : slice user (only user store) = slice user store := by
  have monitors : ownedMonitors user (only user store) = ownedMonitors user store :=
    List.filter_eq_self.mpr fun monitor member => (List.mem_filter.mp member).2
  simp only [slice, monitors, Slice.mk.injEq, true_and]
  exact List.filter_eq_self.mpr fun row member => (List.mem_filter.mp member).2

theorem only_valid (valid : store.Valid) : (only user store).Valid where
  monitorKeys := valid.monitorKeys.sublist (List.Sublist.map _ List.filter_sublist)
  monitorIssued := by
    intro id member
    obtain ⟨monitor, owned, rfl⟩ := Store.mem_monitorIds.mp member
    exact valid.monitorIssued _ (Store.mem_monitorIds.mpr ⟨monitor, List.mem_of_mem_filter owned, rfl⟩)
  historyKeys := valid.historyKeys.sublist (List.Sublist.map _ List.filter_sublist)
  historyIssued := fun row member => valid.historyIssued row (List.mem_of_mem_filter member)
  foreignKey := by
    intro row member
    obtain ⟨monitor, owned, points⟩ := List.any_eq_true.mp (List.mem_filter.mp member).2
    exact Store.mem_monitorIds.mpr ⟨monitor, owned, of_decide_eq_true points⟩

/-! ## Whole runs -/

variable [DecidableEq Tag]

/-- Tenant isolation: a request leaves every other user's slice row for row as
it was; its answer and the caller's new slice depend on the caller's slice and
the identity counters only, so it is answered as if nobody else's monitors
existed; and in every schedule of requests and worker runs a monitor keeps its
owner. -/
theorem tenant_isolation (World Tag : Type) [DecidableEq Tag] :
    (∀ (database : Database) (user caller : String) (request : WebRequest World), user ≠ caller →
      slice user (handle (some caller) request database.toStore).2 = slice user database.toStore) ∧
    (∀ (first second : Database) (caller : String) (request : WebRequest World),
      slice caller first.toStore = slice caller second.toStore →
      first.nextMonitorId = second.nextMonitorId → first.nextHistoryId = second.nextHistoryId →
      (handle (some caller) request first.toStore).1 = (handle (some caller) request second.toStore).1 ∧
        slice caller (handle (some caller) request first.toStore).2 =
          slice caller (handle (some caller) request second.toStore).2) ∧
    (∀ (database : Database) (caller : String) (request : WebRequest World),
      (handle (some caller) request database.toStore).1 =
        (handle (some caller) request (only caller database.toStore)).1) ∧
    ∀ (database : Database) (steps : List (Phased.Step Tag (Operation World))),
      ∀ monitor ∈ database.urlMonitors,
        ∀ later ∈ (Phased.run (machine World) { store := database.toStore } steps).store.urlMonitors,
          later.id = monitor.id → later.ownerId = monitor.ownerId := by
  refine ⟨?others, ?congr, ?missing, ?owners⟩
  case others =>
    intro database user caller request different
    exact slice_handle_other database.valid different request
  case congr =>
    intro first second caller request same sameMonitorId sameHistoryId
    exact handle_congr first.valid second.valid same sameMonitorId sameHistoryId request
  case missing =>
    intro database caller request
    exact (handle_congr database.valid (only_valid database.valid) slice_only.symm rfl rfl request).1
  case owners =>
    intro database steps monitor stored later laterStored same
    have issued := database.valid.monitorIssued monitor.id
      (Store.mem_monitorIds.mpr ⟨monitor, stored, rfl⟩)
    have owned : Fixed (·.ownerId) monitor.id monitor.ownerId
        ({ store := database.toStore } : System Tag World).store :=
      ⟨issued, fun other member key => by rw [database.valid.monitor_unique member stored key]⟩
    exact (owned.run (fun _ _ => rfl) steps).value later laterStored same

def twoTenants : Database where
  urlMonitors :=
    [{ id := 1, ownerId := "alice", url := "https://a.example", createdAt := 10 },
      { id := 2, ownerId := "bob", url := "https://b.example", createdAt := 20 }]
  latencyHistories :=
    [{ id := 1, urlMonitorId := 1, checkedAt := 10, statusCode := 200, latencyMs := 30 },
      { id := 2, urlMonitorId := 2, checkedAt := 20, statusCode := 503, latencyMs := 40 }]
  nextMonitorId := 3
  nextHistoryId := 3
  valid := by decide

theorem tenant_isolation_two_tenants :
    (slice "alice" (handle (some "bob") (.delete 1 : WebRequest Unit) twoTenants.toStore).2 =
      slice "alice" twoTenants.toStore) ∧
    ((handle (some "bob") (.setPause 1 : WebRequest Unit) twoTenants.toStore).1 =
      (handle (some "bob") (.setPause 1 : WebRequest Unit) (only "bob" twoTenants.toStore)).1) ∧
    ∀ later ∈ (Phased.run (machine Unit) { store := twoTenants.toStore }
        [.load 0 (.web (some "alice") (.setPause 1)), .call (.web (some "bob") (.delete 2)),
          .save 0]).store.urlMonitors,
      later.id = 1 → later.ownerId = "alice" := by
  refine ⟨(tenant_isolation Unit Nat).1 twoTenants "alice" "bob" (.delete 1) (by decide), ?_, ?_⟩
  · exact ((tenant_isolation Unit Nat).2.1 twoTenants
      ⟨only "bob" twoTenants.toStore, only_valid twoTenants.valid⟩ "bob" (.setPause 1)
      (by decide) rfl rfl).1
  · exact (tenant_isolation Unit Nat).2.2.2 twoTenants _
      { id := 1, ownerId := "alice", url := "https://a.example", createdAt := 10 } (by decide)

end UrlPulse
