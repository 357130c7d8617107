import UrlPulse.Data.Nest
import UrlPulse.System

namespace UrlPulse

open UrlPulse.Core UrlPulse.Infrastructure UrlPulse.Web UrlPulse.Worker UrlPulse.Data
open UrlPulse.Data.Linq UrlPulse.Data.Nest
open UrlPulse.Data.Phased (Machine Step Simulation)

/-! # The directory

What the two tables are for: a directory of monitors, each with a log of its own.
A user sees his own accounts, a request changes one of them, and a run adds to the
logs.  The tables behave as this directory does, in every schedule.
-/

abbrev Account := Nested UrlMonitor.id LatencyHistory.urlMonitorId

namespace Account

abbrev monitor (account : Account) : UrlMonitor := account.parent

abbrev log (account : Account) : List LatencyHistory := account.children

def listing (account : Account) : Index.MonitorListing where
  id := account.monitor.id
  url := account.monitor.url
  checkIntervalMinutes := account.monitor.checkIntervalMinutes
  timeoutMs := account.monitor.timeoutMs
  createdAt := account.monitor.createdAt
  isActive := account.monitor.isActive
  isPaused := account.monitor.isPaused
  history := (orderByDescending (·.checkedAt) account.log).take 1

def option (account : Account) : Analytics.MonitorOption where
  id := account.monitor.id
  url := account.monitor.url
  isActive := account.monitor.isActive
  isPaused := account.monitor.isPaused

def lastIn (region : String) (account : Account) : List LatencyHistory :=
  (orderByDescending (·.checkedAt) (account.log.filter fun row => row.region = region)).take 1

end Account

/-- Accounts have keys of their own, all of them issued. -/
structure Directory where
  accounts : List Account
  nextMonitorId : Int
  nextHistoryId : Int
  distinct : (accounts.map fun account => account.monitor.id).Nodup
  issued : ∀ account ∈ accounts, account.monitor.id < nextMonitorId

namespace Directory

def ids (directory : Directory) : List Int := directory.accounts.map fun account => account.monitor.id

/-! ## Changes -/

def openAccount (monitor : UrlMonitor) (history : List LatencyHistory) (directory : Directory) :
    Directory where
  accounts := directory.accounts ++
    [{ parent := { monitor with id := directory.nextMonitorId }
       children := Store.numbered directory.nextHistoryId
         (history.map fun row => { row with urlMonitorId := directory.nextMonitorId })
       own := fun _ member => Store.urlMonitorId_of_numbered member }]
  nextMonitorId := directory.nextMonitorId + 1
  nextHistoryId := directory.nextHistoryId + history.length
  distinct := by
    rw [List.map_append, List.map_cons, List.map_nil]
    refine List.nodup_append.mpr ⟨directory.distinct, List.nodup_singleton _, ?_⟩
    intro id taken other fresh
    obtain ⟨account, member, rfl⟩ := List.mem_map.mp taken
    rw [List.mem_singleton.mp fresh]
    exact Int.ne_of_lt (directory.issued account member)
  issued := by
    intro account member
    rcases List.mem_append.mp member with old | new
    · have issued := directory.issued account old
      omega
    · rw [List.mem_singleton.mp new]
      exact Int.lt_succ directory.nextMonitorId

def close (id : Int) (directory : Directory) : Directory where
  accounts := directory.accounts.filter fun account => account.monitor.id ≠ id
  nextMonitorId := directory.nextMonitorId
  nextHistoryId := directory.nextHistoryId
  distinct := directory.distinct.sublist (List.Sublist.map _ List.filter_sublist)
  issued := fun account member => directory.issued account (List.mem_of_mem_filter member)

def withFlag (id : Int) (isPaused : Bool) (monitor : UrlMonitor) : UrlMonitor :=
  if monitor.id = id then { monitor with isPaused } else monitor

theorem withFlag_id (id : Int) (isPaused : Bool) (monitor : UrlMonitor) :
    (withFlag id isPaused monitor).id = monitor.id := by
  rw [withFlag]
  split <;> rfl

def setPaused (id : Int) (isPaused : Bool) (directory : Directory) : Directory where
  accounts := directory.accounts.map (Nested.update (withFlag id isPaused) (withFlag_id id isPaused))
  nextMonitorId := directory.nextMonitorId
  nextHistoryId := directory.nextHistoryId
  distinct := by
    simpa only [List.map_map, Function.comp_def, Nested.update_parent, withFlag_id]
      using directory.distinct
  issued := by
    intro account member
    obtain ⟨original, inside, rfl⟩ := List.mem_map.mp member
    exact lt_of_eq_of_lt (withFlag_id id isPaused original.parent) (directory.issued original inside)

def record (rows : List LatencyHistory) (directory : Directory) : Directory where
  accounts := directory.accounts.map (Nested.adopt (Store.numbered directory.nextHistoryId rows))
  nextMonitorId := directory.nextMonitorId
  nextHistoryId := directory.nextHistoryId + rows.length
  distinct := by
    simpa only [List.map_map, Function.comp_def, Nested.adopt_parent] using directory.distinct
  issued := by
    intro account member
    obtain ⟨original, inside, rfl⟩ := List.mem_map.mp member
    exact directory.issued original inside

end Directory

inductive Edit where
  | keep
  | openAccount (monitor : UrlMonitor) (history : List LatencyHistory)
  | close (id : Int)
  | setPaused (id : Int) (isPaused : Bool)
  | record (rows : List LatencyHistory)

/-- A change needs the accounts it names, and a new one names its owner and address in text. -/
def Edit.apply : Edit → Directory → Except Fault Directory
  | .keep, directory => .ok directory
  | .openAccount monitor history, directory =>
      if isText monitor.url && isText monitor.ownerId then .ok (directory.openAccount monitor history)
      else .error (.dbUpdate invalidText)
  | .close id, directory =>
      if id ∈ directory.ids then .ok (directory.close id) else .error .dbUpdateConcurrency
  | .setPaused id isPaused, directory =>
      if id ∈ directory.ids then .ok (directory.setPaused id isPaused)
      else .error .dbUpdateConcurrency
  | .record rows, directory =>
      if ∀ row ∈ rows, row.urlMonitorId ∈ directory.ids then .ok (directory.record rows)
      else .error (.dbUpdate Store.foreignKeyName)

/-! ## Operations -/

namespace Directory

variable (directory : Directory)

def visible (userId : Option String) : List Account :=
  directory.accounts.filter fun account => userId = some account.monitor.ownerId

def find (userId : Option String) (id : Int) : Option Account :=
  (directory.visible userId).find? fun account => account.monitor.id = id

def listings (userId : Option String) : List Index.MonitorListing :=
  (orderByDescending (fun account => account.monitor.createdAt) (directory.visible userId)).map
    Account.listing

def options (userId : Option String) : List Analytics.MonitorOption :=
  (orderByDescending (fun account => account.monitor.createdAt) (directory.visible userId)).map
    Account.option

/-- The recent part of one log. -/
def window (userId : Option String) (id : Int) (since : Int) : List LatencyHistory :=
  match directory.find userId id with
  | some account => account.log.filter fun row => since ≤ (row.checkedAt : Int)
  | none => []

/-- What a run looks at: the accounts under way with their last entry in the region. -/
def underWay (region : String) : List (UrlMonitor × List LatencyHistory) :=
  (directory.accounts.filter fun account =>
    account.monitor.isActive && !account.monitor.isPaused).map
      fun account => (account.monitor, account.lastIn region)

end Directory

/-- What an operation wants to change, and what it answers if it may. -/
structure Intent where
  change : Edit
  response : Response

variable {World : Type}

def WebRequest.intend (userId : Option String) (directory : Directory) : WebRequest World → Intent
  | .indexGet => ⟨.keep, .index (.page (directory.listings userId))⟩
  | .monitorsPartial => ⟨.keep, .index (.partialView "_MonitorTable" (directory.listings userId))⟩
  | .create checker world utcNow form =>
      if form.isValid then
        match checker form.inputUrl (form.inputTimeout.getD 5000) world with
        | .ok (result, _) =>
            ⟨.openAccount (writtenMonitor { (Index.newMonitor form utcNow) with ownerId := userId.getD "" })
              [writtenRow (Index.creationRow result)], .index .redirectToPage⟩
        | .error fault => ⟨.keep, .exception fault⟩
      else ⟨.keep, .index (.page (directory.listings userId))⟩
  | .delete id =>
      match directory.find userId id with
      | some _ => ⟨.close id, .index .ok⟩
      | none => ⟨.keep, .index .ok⟩
  | .setPause id =>
      match directory.find userId id with
      | some account =>
          ⟨.setPaused id !account.monitor.isPaused, .index (.isPaused !account.monitor.isPaused)⟩
      | none => ⟨.keep, .index .notFound⟩
  | .analyticsGet => ⟨.keep, .analytics (directory.options userId)⟩
  | .latencyData utcNow monitorId range =>
      ⟨.keep, .latencyData (Analytics.latencyData (Analytics.getBucketSize range)
        (directory.window userId monitorId (Analytics.parseRange utcNow range)))⟩
  | .regionSummary utcNow monitorId range =>
      ⟨.keep, .regionSummary (Analytics.regionSummary
        (directory.window userId monitorId (Analytics.parseRange utcNow range)))⟩
  | .stats utcNow monitorId range =>
      ⟨.keep, .stats (Analytics.stats
        (directory.window userId monitorId (Analytics.parseRange utcNow range)))⟩
  | .statusDistribution utcNow monitorId range =>
      ⟨.keep, .statusDistribution (Analytics.statusDistribution
        (directory.window userId monitorId (Analytics.parseRange utcNow range)))⟩

def intendRun (run : TimerRun World) (directory : Directory) : Intent :=
  match checkMonitors run.checker run.checkRegion run.now
      (directory.underWay run.checkRegion) run.world with
  | .ok (rows, _) => ⟨.record (rows.map writtenRow), .completed⟩
  | .error fault => ⟨.keep, .exception fault⟩

def Operation.intend : Operation World → Directory → Intent
  | .web userId request, directory => request.intend userId directory
  | .worker run, directory => intendRun run directory

def Intent.save (intent : Intent) (directory : Directory) : Response × Directory :=
  match intent.change.apply directory with
  | .ok after => (intent.response, after)
  | .error fault => (.exception fault, directory)

def directoryMachine (World : Type) : Machine (Operation World) Intent Response Directory where
  load := Operation.intend
  save := Intent.save

/-! ## The tables behind it -/

/-- The directory is what the tables hold. -/
structure Represents (store : Store) (directory : Directory) : Prop where
  valid : store.Valid
  accounts : directory.accounts =
    nest UrlMonitor.id LatencyHistory.urlMonitorId store.urlMonitors store.latencyHistories
  nextMonitorId : directory.nextMonitorId = store.nextMonitorId
  nextHistoryId : directory.nextHistoryId = store.nextHistoryId

def directoryOf (database : Database) : Directory where
  accounts :=
    nest UrlMonitor.id LatencyHistory.urlMonitorId database.urlMonitors database.latencyHistories
  nextMonitorId := database.nextMonitorId
  nextHistoryId := database.nextHistoryId
  distinct := by
    rw [map_key_nest]
    exact database.valid.monitorKeys
  issued := by
    intro account member
    exact database.valid.monitorIssued _ (List.mem_map_of_mem (mem_nest.mp member).1)

theorem represents_directoryOf (database : Database) :
    Represents database.toStore (directoryOf database) :=
  ⟨database.valid, rfl, rfl, rfl⟩

namespace Represents

variable {store : Store} {directory : Directory}

theorem ids (represents : Represents store directory) : directory.ids = store.monitorIds := by
  rw [Directory.ids, represents.accounts, map_key_nest]
  rfl

theorem visible (represents : Represents store directory) (userId : Option String) :
    directory.visible userId =
      (ApplicationDbContext.urlMonitors { currentUserId := userId } store).map
        (collect UrlMonitor.id LatencyHistory.urlMonitorId store.latencyHistories) := by
  rw [Directory.visible, represents.accounts, nest, List.filter_map]
  rfl

theorem find (represents : Represents store directory) (userId : Option String) (id : Int) :
    directory.find userId id =
      (ApplicationDbContext.findMonitor { currentUserId := userId } store id).map
        (collect UrlMonitor.id LatencyHistory.urlMonitorId store.latencyHistories) := by
  rw [Directory.find, represents.visible, List.find?_map]
  rfl

/-- A user reads the same lists, newest first. -/
theorem listings (represents : Represents store directory) (userId : Option String) :
    directory.listings userId = Index.onGetAsync { currentUserId := userId } store := by
  rw [Directory.listings, represents.visible, Index.onGetAsync, ← map_orderByDescending
    (collect UrlMonitor.id LatencyHistory.urlMonitorId store.latencyHistories)
    (fun account => account.parent.createdAt), List.map_map]
  apply List.map_congr_left
  intro monitor listed
  have visible := mem_orderByDescending.mp listed
  simp only [Function.comp_apply, Account.listing, collect,
    ApplicationDbContext.history_of_visible visible]
  rfl

theorem options (represents : Represents store directory) (userId : Option String) :
    directory.options userId = Analytics.onGetAsync { currentUserId := userId } store := by
  rw [Directory.options, represents.visible, Analytics.onGetAsync, ← map_orderByDescending
    (collect UrlMonitor.id LatencyHistory.urlMonitorId store.latencyHistories)
    (fun account => account.parent.createdAt), List.map_map]
  rfl

theorem window (represents : Represents store directory) (userId : Option String) (id : Int)
    (since : Int) :
    directory.window userId id since =
      Analytics.windowRows { currentUserId := userId } store id since := by
  rw [Directory.window, represents.find, Analytics.windowRows]
  cases found : ApplicationDbContext.findMonitor { currentUserId := userId } store id with
  | none =>
      have absent : (ApplicationDbContext.urlMonitors { currentUserId := userId } store).filter
          (fun u => u.id = id) = [] := by
        simpa [ApplicationDbContext.findMonitor] using found
      rw [absent]
      rfl
  | some monitor =>
      have visible := List.mem_of_find?_eq_some found
      have key := (ApplicationDbContext.findMonitor_some found).2.2
      have one : (ApplicationDbContext.urlMonitors { currentUserId := userId } store).filter
          (fun u => u.id = id) = [monitor] := by
        rw [← key]
        exact filter_key_of_nodup
          (represents.valid.monitorKeys.sublist (List.Sublist.map _ List.filter_sublist)) visible
      rw [one, List.flatMap_singleton, ApplicationDbContext.history_of_visible visible]
      rfl

theorem underWay (represents : Represents store directory) (region : String) :
    directory.underWay region = loadMonitors region store := by
  rw [Directory.underWay, represents.accounts, nest, List.filter_map, List.map_map]
  rfl

end Represents

/-! ## The same changes -/

/-- The statements of the transaction that makes the change. -/
def Edit.statements : Edit → List EntityEntry
  | .keep => []
  | .openAccount monitor history => [.addedMonitor monitor history]
  | .close id => [.deletedMonitor id]
  | .setPaused id isPaused => [.modifiedIsPaused id isPaused]
  | .record rows => rows.map .addedHistory

namespace Represents

variable {store : Store} {directory : Directory}

theorem openAccount (represents : Represents store directory) (monitor : UrlMonitor)
    (history : List LatencyHistory) :
    Represents (store.insertMonitor monitor history) (directory.openAccount monitor history) where
  valid := represents.valid.insertMonitor monitor history
  accounts := by
    simp only [Directory.openAccount, represents.accounts, represents.nextMonitorId,
      represents.nextHistoryId, Store.insertMonitor, Store.appendHistories]
    refine (nest_append_parent ?_ ?_ fun _ member => Store.urlMonitorId_of_numbered member).symm
    · intro row stored
      exact Int.ne_of_lt (represents.valid.monitorIssued _ (represents.valid.foreignKey row stored))
    · intro other stored
      exact Int.ne_of_lt (represents.valid.monitorIssued _ (List.mem_map_of_mem stored))
  nextMonitorId := by
    simp only [Directory.openAccount, represents.nextMonitorId, Store.insertMonitor,
      Store.appendHistories]
  nextHistoryId := by
    simp only [Directory.openAccount, represents.nextHistoryId, Store.insertMonitor,
      Store.appendHistories, List.length_map]

theorem close (represents : Represents store directory) (id : Int) :
    Represents (store.without id) (directory.close id) where
  valid := represents.valid.without id
  accounts := by
    simp only [Directory.close, represents.accounts, Store.without]
    exact (nest_remove id).symm
  nextMonitorId := represents.nextMonitorId
  nextHistoryId := represents.nextHistoryId

theorem setPaused (represents : Represents store directory) (id : Int) (isPaused : Bool) :
    Represents (store.setPaused id isPaused) (directory.setPaused id isPaused) where
  valid := represents.valid.setPaused id isPaused
  accounts := by
    simp only [Directory.setPaused, represents.accounts, Store.setPaused]
    exact (nest_update (Directory.withFlag id isPaused) (Directory.withFlag_id id isPaused)).symm
  nextMonitorId := represents.nextMonitorId
  nextHistoryId := represents.nextHistoryId

theorem record (represents : Represents store directory) {rows : List LatencyHistory}
    (referenced : ∀ row ∈ rows, row.urlMonitorId ∈ store.monitorIds) :
    Represents (store.appendHistories rows) (directory.record rows) where
  valid := represents.valid.appendHistories referenced
  accounts := by
    simp only [Directory.record, represents.accounts, represents.nextHistoryId,
      Store.appendHistories, nest_append_children]
  nextMonitorId := represents.nextMonitorId
  nextHistoryId := by
    simp only [Directory.record, represents.nextHistoryId, Store.appendHistories]

/-- A transaction goes through exactly where its change does, or fails alike. -/
theorem apply (represents : Represents store directory) (change : Edit) :
    (∃ next after, EntityEntry.applyAll change.statements store = .ok next ∧
      change.apply directory = .ok after ∧ Represents next after) ∨
    (∃ fault, EntityEntry.applyAll change.statements store = .error fault ∧
      change.apply directory = .error fault) := by
  have ids := represents.ids
  cases change with
  | keep => exact .inl ⟨store, directory, rfl, rfl, represents⟩
  | openAccount monitor history =>
      by_cases texts : (isText monitor.url && isText monitor.ownerId) = true
      · refine .inl ⟨_, _, ?_, if_pos texts, represents.openAccount monitor history⟩
        simp only [Edit.statements, EntityEntry.applyAll, EntityEntry.apply, if_pos texts]
      · refine .inr ⟨_, ?_, if_neg texts⟩
        simp only [Edit.statements, EntityEntry.applyAll, EntityEntry.apply, if_neg texts]
  | close id =>
      by_cases stored : id ∈ store.monitorIds
      · left
        refine ⟨store.without id, directory.close id, ?_, if_pos (ids ▸ stored), represents.close id⟩
        simp [Edit.statements, EntityEntry.applyAll, EntityEntry.apply, Store.deleteMonitor, stored]
      · right
        refine ⟨.dbUpdateConcurrency, ?_, if_neg (ids ▸ stored)⟩
        simp [Edit.statements, EntityEntry.applyAll, EntityEntry.apply, Store.deleteMonitor, stored]
  | setPaused id isPaused =>
      by_cases stored : id ∈ store.monitorIds
      · left
        refine ⟨store.setPaused id isPaused, directory.setPaused id isPaused, ?_,
          if_pos (ids ▸ stored), represents.setPaused id isPaused⟩
        simp [Edit.statements, EntityEntry.applyAll, EntityEntry.apply, Store.updateIsPaused, stored]
      · right
        refine ⟨.dbUpdateConcurrency, ?_, if_neg (ids ▸ stored)⟩
        simp [Edit.statements, EntityEntry.applyAll, EntityEntry.apply, Store.updateIsPaused, stored]
  | record rows =>
      rw [Edit.statements, EntityEntry.applyAll_addedHistory, Edit.apply, ids]
      by_cases referenced : ∀ row ∈ rows, row.urlMonitorId ∈ store.monitorIds
      · rw [if_pos referenced, if_pos referenced]
        exact .inl ⟨_, _, rfl, rfl, represents.record referenced⟩
      · rw [if_neg referenced, if_neg referenced]
        exact .inr ⟨_, rfl, rfl⟩

end Represents

/-! ## The same operations -/

/-- A pending transaction and an intent that come to the same. -/
structure Matches (pending : Pending) (intent : Intent) : Prop where
  statements : pending.statements = intent.change.statements
  response : pending.response = intent.response

section Load

variable {store : Store} {directory : Directory}

theorem matches_request (represents : Represents store directory) (userId : Option String)
    (request : WebRequest World) :
    Matches (request.load userId store) (request.intend userId directory) := by
  cases request with
  | indexGet =>
      exact ⟨rfl, by rw [WebRequest.intend, represents.listings]; rfl⟩
  | monitorsPartial =>
      exact ⟨rfl, by rw [WebRequest.intend, represents.listings]; rfl⟩
  | create checker world utcNow form =>
      by_cases valid : form.isValid = true
      · cases checked : checker form.inputUrl (form.inputTimeout.getD 5000) world with
        | error fault =>
            constructor <;>
              simp [WebRequest.load, WebRequest.intend, Index.onPostAsync, valid, checked,
                Pending.statements, Edit.statements]
        | ok outcome =>
            constructor <;>
              simp [WebRequest.load, WebRequest.intend, Index.onPostAsync, valid, checked,
                Pending.statements, Edit.statements, ApplicationDbContext.track, EntityEntry.stamp,
                EntityEntry.written]
      · constructor <;>
          simp [WebRequest.load, WebRequest.intend, Index.onPostAsync, valid, Pending.statements,
            Edit.statements, represents.listings]
  | delete id =>
      cases found : ApplicationDbContext.findMonitor { currentUserId := userId } store id with
      | none =>
          rw [load_delete_missing World found, WebRequest.intend, represents.find, found]
          exact ⟨rfl, rfl⟩
      | some monitor =>
          rw [load_delete_found World found, WebRequest.intend, represents.find, found]
          exact ⟨rfl, rfl⟩
  | setPause id =>
      cases found : ApplicationDbContext.findMonitor { currentUserId := userId } store id with
      | none =>
          rw [load_setPause_missing World found, WebRequest.intend, represents.find, found]
          exact ⟨rfl, rfl⟩
      | some monitor =>
          rw [load_setPause_found World found, WebRequest.intend, represents.find, found]
          exact ⟨rfl, rfl⟩
  | analyticsGet =>
      exact ⟨rfl, by rw [WebRequest.intend, represents.options]; rfl⟩
  | latencyData utcNow monitorId range =>
      exact ⟨rfl, by rw [WebRequest.intend, represents.window]; rfl⟩
  | regionSummary utcNow monitorId range =>
      exact ⟨rfl, by rw [WebRequest.intend, represents.window]; rfl⟩
  | stats utcNow monitorId range =>
      exact ⟨rfl, by rw [WebRequest.intend, represents.window]; rfl⟩
  | statusDistribution utcNow monitorId range =>
      exact ⟨rfl, by rw [WebRequest.intend, represents.window]; rfl⟩

theorem matches_run (represents : Represents store directory) (run : TimerRun World) :
    Matches (loadRun run store) (intendRun run directory) := by
  rw [intendRun, represents.underWay]
  cases looped : checkMonitors run.checker run.checkRegion run.now
      (loadMonitors run.checkRegion store) run.world with
  | error fault =>
      have batched : run.batch store = .error fault := by simp only [TimerRun.batch, looped]
      rw [loadRun_error batched]
      exact ⟨rfl, rfl⟩
  | ok outcome =>
      obtain ⟨rows, after⟩ := outcome
      have batched : run.batch store = .ok rows := by simp only [TimerRun.batch, looped]
      rw [loadRun_ok batched]
      exact ⟨by simp [Pending.statements, Edit.statements, Function.comp_def], rfl⟩

theorem matches_load (represents : Represents store directory) (op : Operation World) :
    Matches (op.load store) (op.intend directory) := by
  cases op with
  | web userId request => exact matches_request represents userId request
  | worker run => exact matches_run represents run

theorem Matches.save {pending : Pending} {intent : Intent} (matching : Matches pending intent)
    (represents : Represents store directory) :
    (pending.save store).1 = (intent.save directory).1 ∧
      Represents (pending.save store).2 (intent.save directory).2 := by
  rcases represents.apply intent.change with
    ⟨next, after, applied, changed, nextRepresents⟩ | ⟨fault, failed, refused⟩
  · rw [← matching.statements] at applied
    have saved : pending.context.saveChangesAsync store = .ok next := applied
    simp only [Pending.save, saved, Intent.save, changed]
    exact ⟨matching.response, nextRepresents⟩
  · rw [← matching.statements] at failed
    have saved : pending.context.saveChangesAsync store = .error fault := failed
    simp only [Pending.save, saved, Intent.save, refused, true_and]
    exact represents

end Load

def refinement (World : Type) :
    Simulation (machine World) (directoryMachine World) fun _ => True where
  store := Represents
  pending _ := Matches
  answer _ given expected := given = expected
  loads _ represents := matches_load represents _
  saves _ represents matching := matching.save represents

section Schedules

variable {Tag : Type} [DecidableEq Tag]

theorem related_initial (World Tag : Type) (database : Database) :
    (refinement World).Related ({ store := database.toStore } : System Tag World)
      { store := directoryOf database } :=
  ⟨represents_directoryOf database, .nil, .nil⟩

theorem related_run (database : Database) (steps : List (Step Tag (Operation World))) :
    (refinement World).Related (Phased.run (machine World) { store := database.toStore } steps)
      (Phased.run (directoryMachine World) { store := directoryOf database } steps) :=
  (related_initial World Tag database).run fun _ _ _ _ => trivial

/-- In every schedule the tables answer as the directory does, and in the end
they hold the directory: its monitors, and its logs with no row lost or doubled. -/
theorem directory_implemented (database : Database) (steps : List (Step Tag (Operation World))) :
    let tables := Phased.run (machine World) { store := database.toStore } steps
    let spec := Phased.run (directoryMachine World) { store := directoryOf database } steps
    tables.answers = spec.answers ∧
    spec.store.accounts.map (·.monitor) = tables.store.urlMonitors ∧
    (spec.store.accounts.flatMap (·.log)).Perm tables.store.latencyHistories ∧
    (∀ account ∈ spec.store.accounts, account.log = tables.store.historyOf account.monitor.id) ∧
    spec.store.nextMonitorId = tables.store.nextMonitorId ∧
    spec.store.nextHistoryId = tables.store.nextHistoryId := by
  intro tables spec
  have related : (refinement World).Related tables spec := related_run database steps
  have represents : Represents tables.store spec.store := related.store
  refine ⟨?answers, ?monitors, ?rows, ?logs, represents.nextMonitorId, represents.nextHistoryId⟩
  case answers =>
    exact List.forall₂_eq_eq_eq ▸ related.answers.imp fun _ _ same => Prod.ext same.1 same.2
  case monitors =>
    rw [represents.accounts]
    exact nest_parents
  case rows =>
    rw [represents.accounts]
    exact nest_children_perm represents.valid.monitorKeys represents.valid.foreignKey
  case logs =>
    intro account member
    rw [represents.accounts] at member
    exact (mem_nest.mp member).2

end Schedules

end UrlPulse
