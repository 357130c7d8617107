import UrlPulse.Data.Phased
import UrlPulse.Web.Analytics
import UrlPulse.Web.Index
import UrlPulse.Worker.UrlMonitorFunction

namespace UrlPulse

open UrlPulse.Core UrlPulse.Infrastructure UrlPulse.Web UrlPulse.Worker UrlPulse.Data

/-! The deployed system: one store, any number of web requests of any principals
and of worker runs.  Every operation reads the store once and saves once, with
its own context; between the two anything else may happen. -/

inductive WebRequest (World : Type) where
  | indexGet
  | monitorsPartial
  | create (checker : IUrlChecker World) (world : World) (utcNow : DateTime)
      (form : Index.CreateForm)
  | delete (id : Int)
  | setPause (id : Int)
  | analyticsGet
  | latencyData (utcNow : DateTime) (monitorId : Int) (range : String)
  | regionSummary (utcNow : DateTime) (monitorId : Int) (range : String)
  | stats (utcNow : DateTime) (monitorId : Int) (range : String)
  | statusDistribution (utcNow : DateTime) (monitorId : Int) (range : String)

/-- `exception` is an unhandled one: an error page, or a failed timer run. -/
inductive Response where
  | index (result : Index.ActionResult)
  | analytics (urlMonitors : List Analytics.MonitorOption)
  | latencyData (series : List Analytics.LatencySeries)
  | regionSummary (summary : List Analytics.RegionSummary)
  | stats (answer : Option Analytics.Stats)
  | statusDistribution (distribution : List Analytics.StatusCount)
  | completed
  | exception (fault : Fault)
deriving DecidableEq, Repr

inductive Operation (World : Type) where
  | web (userId : Option String) (request : WebRequest World)
  | worker (run : TimerRun World)

/-- An operation that awaits its `SaveChangesAsync`: its context, and what it
answers if the save succeeds. -/
structure Pending where
  context : ApplicationDbContext
  response : Response
deriving DecidableEq, Repr

variable {World : Type}

def WebRequest.load (userId : Option String) (store : Store) : WebRequest World → Pending
  | .indexGet =>
      { context := { currentUserId := userId }
        response := .index (.page (Index.onGetAsync { currentUserId := userId } store)) }
  | .monitorsPartial =>
      { context := { currentUserId := userId }
        response := .index (Index.onGetMonitorsPartialAsync { currentUserId := userId } store) }
  | .create checker world utcNow form =>
      match Index.onPostAsync checker world utcNow form { currentUserId := userId } store with
      | .ok (context, result) => { context, response := .index result }
      | .error fault =>
          { context := { currentUserId := userId }, response := .exception fault }
  | .delete id =>
      { context := (Index.onPostDeleteAsync id { currentUserId := userId } store).1
        response := .index (Index.onPostDeleteAsync id { currentUserId := userId } store).2 }
  | .setPause id =>
      { context := (Index.onPostSetPauseAsync id { currentUserId := userId } store).1
        response := .index (Index.onPostSetPauseAsync id { currentUserId := userId } store).2 }
  | .analyticsGet =>
      { context := { currentUserId := userId }
        response := .analytics (Analytics.onGetAsync { currentUserId := userId } store) }
  | .latencyData utcNow monitorId range =>
      { context := { currentUserId := userId }
        response := .latencyData (Analytics.onGetLatencyDataAsync { currentUserId := userId }
          store utcNow monitorId range) }
  | .regionSummary utcNow monitorId range =>
      { context := { currentUserId := userId }
        response := .regionSummary (Analytics.onGetRegionSummaryAsync { currentUserId := userId }
          store utcNow monitorId range) }
  | .stats utcNow monitorId range =>
      { context := { currentUserId := userId }
        response := .stats (Analytics.onGetStatsAsync { currentUserId := userId }
          store utcNow monitorId range) }
  | .statusDistribution utcNow monitorId range =>
      { context := { currentUserId := userId }
        response := .statusDistribution (Analytics.onGetStatusDistributionAsync
          { currentUserId := userId } store utcNow monitorId range) }

/-- A run whose loop throws never reaches its save. -/
def loadRun (run : TimerRun World) (store : Store) : Pending :=
  match run.runUntilSave store with
  | .ok context => { context, response := .completed }
  | .error fault =>
      { context := { currentUserId := some systemUserId }, response := .exception fault }

def Operation.load : Operation World → Store → Pending
  | .web userId request, store => request.load userId store
  | .worker run, store => loadRun run store

/-- One `SaveChangesAsync`, one transaction: a fault leaves the store alone. -/
def Pending.save (pending : Pending) (store : Store) : Response × Store :=
  match pending.context.saveChangesAsync store with
  | .ok after => (pending.response, after)
  | .error fault => (.exception fault, store)

def machine (World : Type) : Phased.Machine (Operation World) Pending Response Store where
  load := Operation.load
  save := Pending.save

abbrev System (Tag World : Type) := Phased.Config Tag (Operation World) Pending Response Store

def handle (userId : Option String) (request : WebRequest World) (store : Store) :
    Response × Store :=
  (request.load userId store).save store

theorem loadRun_ok {run : TimerRun World} {store : Store} {rows : List LatencyHistory}
    (batched : run.batch store = .ok rows) :
    loadRun run store =
      { context := { currentUserId := some systemUserId, entries := rows.map .addedHistory }
        response := .completed } := by
  simp only [loadRun, TimerRun.runUntilSave, batched]

theorem loadRun_error {run : TimerRun World} {store : Store} {fault : Fault}
    (failed : run.batch store = .error fault) :
    loadRun run store =
      { context := { currentUserId := some systemUserId }, response := .exception fault } := by
  simp only [loadRun, TimerRun.runUntilSave, failed]

/-! ## What an operation can track -/

namespace Pending

/-- The statements of the pending transaction, owners stamped. -/
def statements (pending : Pending) : List EntityEntry :=
  pending.context.entries.map fun entry => (entry.stamp pending.context.currentUserId).written

variable {pending : Pending} {store : Store}

theorem save_cases (pending : Pending) (store : Store) :
    (∃ after, EntityEntry.applyAll pending.statements store = .ok after ∧
      pending.save store = (pending.response, after)) ∨
    (∃ fault, EntityEntry.applyAll pending.statements store = .error fault ∧
      pending.save store = (.exception fault, store)) := by
  cases applied : EntityEntry.applyAll pending.statements store with
  | ok after =>
      have saved : pending.context.saveChangesAsync store = .ok after := applied
      exact .inl ⟨after, rfl, by simp only [save, saved]⟩
  | error fault =>
      have failed : pending.context.saveChangesAsync store = .error fault := applied
      exact .inr ⟨fault, rfl, by simp only [save, failed]⟩

theorem save_invariant {P : Store → Prop}
    (kept : ∀ entry ∈ pending.statements, ∀ before next,
      P before → entry.apply before = .ok next → P next)
    (initial : P store) : P (pending.save store).2 := by
  rcases save_cases pending store with ⟨after, applied, saved⟩ | ⟨fault, -, saved⟩
  · rw [saved]
    exact EntityEntry.applyAll_invariant kept initial applied
  · rw [saved]
    exact initial

theorem save_valid (valid : store.Valid) : (pending.save store).2.Valid :=
  save_invariant (fun _ _ _ _ held applied => EntityEntry.apply_valid held applied) valid

theorem save_of_no_statements (none : pending.statements = []) :
    pending.save store = (pending.response, store) := by
  have saved : pending.context.saveChangesAsync store = .ok store := by
    change EntityEntry.applyAll pending.statements store = .ok store
    rw [none]
    rfl
  simp only [save, saved]

theorem save_addedMonitor {monitor : UrlMonitor} {history : List LatencyHistory}
    (one : pending.statements = [.addedMonitor monitor history]) :
    pending.save store =
      if isText monitor.url && isText monitor.ownerId then
        (pending.response, store.insertMonitor monitor history)
      else (.exception (.dbUpdate invalidText), store) := by
  have statements : pending.context.saveChangesAsync store =
      EntityEntry.applyAll [.addedMonitor monitor history] store := by rw [← one]; rfl
  by_cases texts : (isText monitor.url && isText monitor.ownerId) = true
  · have saved : pending.context.saveChangesAsync store = .ok (store.insertMonitor monitor history) := by
      rw [statements]
      simp only [EntityEntry.applyAll, EntityEntry.apply, if_pos texts]
    simp only [save, saved, if_pos texts]
  · have failed : pending.context.saveChangesAsync store = .error (.dbUpdate invalidText) := by
      rw [statements]
      simp only [EntityEntry.applyAll, EntityEntry.apply, if_neg texts]
    simp only [save, failed, if_neg texts]

theorem save_modifiedIsPaused {userId : Option String} {id : Int} {isPaused : Bool}
    {response : Response} :
    Pending.save { context := { currentUserId := userId, entries := [.modifiedIsPaused id isPaused] }
                   response } store =
      if id ∈ store.monitorIds then (response, store.setPaused id isPaused)
      else (.exception .dbUpdateConcurrency, store) := by
  by_cases stored : id ∈ store.monitorIds <;>
    simp [save, ApplicationDbContext.saveChangesAsync, EntityEntry.stamp, EntityEntry.applyAll,
      EntityEntry.apply, Store.updateIsPaused, stored]

theorem save_deletedMonitor {userId : Option String} {id : Int} {response : Response} :
    Pending.save { context := { currentUserId := userId, entries := [.deletedMonitor id] }
                   response } store =
      if id ∈ store.monitorIds then (response, store.without id)
      else (.exception .dbUpdateConcurrency, store) := by
  by_cases stored : id ∈ store.monitorIds <;>
    simp [save, ApplicationDbContext.saveChangesAsync, EntityEntry.applyAll, EntityEntry.apply,
      Store.deleteMonitor, stored]

/-- A worker's batch goes in whole, or the foreign key throws all of it out. -/
theorem save_rows {rows : List LatencyHistory} (statements : pending.statements = rows.map .addedHistory) :
    pending.save store =
      if ∀ row ∈ rows, row.urlMonitorId ∈ store.monitorIds then
        (pending.response, store.appendHistories rows)
      else (.exception (.dbUpdate Store.foreignKeyName), store) := by
  have applied : pending.context.saveChangesAsync store =
      EntityEntry.applyAll (rows.map .addedHistory) store := by rw [← statements]; rfl
  by_cases referenced : ∀ row ∈ rows, row.urlMonitorId ∈ store.monitorIds
  · simp only [save, applied, EntityEntry.applyAll_addedHistory, if_pos referenced]
  · simp only [save, applied, EntityEntry.applyAll_addedHistory, if_neg referenced]

theorem save_batch {userId : Option String} {rows : List LatencyHistory} {response : Response} :
    Pending.save { context := { currentUserId := userId, entries := rows.map .addedHistory }
                   response } store =
      if ∀ row ∈ rows, row.urlMonitorId ∈ store.monitorIds then
        (response, store.appendHistories (rows.map writtenRow))
      else (.exception (.dbUpdate Store.foreignKeyName), store) := by
  have statements : Pending.statements
      { context := { currentUserId := userId, entries := rows.map .addedHistory }, response } =
      (rows.map writtenRow).map .addedHistory := by
    simp [Pending.statements, Function.comp_def]
  simp only [save_rows statements, List.forall_mem_map, writtenRow]

end Pending

variable {Tag : Type} [DecidableEq Tag] {system : System Tag World}

theorem run_store_invariant {P : Store → Prop}
    (kept : ∀ entry before next, P before → EntityEntry.apply entry before = .ok next → P next)
    (initial : P system.store) (steps : List (Phased.Step Tag (Operation World))) :
    P (Phased.run (machine World) system steps).store := by
  have started : Phased.Keeps P (fun _ _ => True) system := ⟨initial, fun _ _ => trivial⟩
  have finished : Phased.Keeps P (fun _ _ => True) (Phased.run (machine World) system steps) :=
    started.run (fun _ _ _ _ _ _ => trivial) fun _ pending _ held _ =>
      Pending.save_invariant (fun entry _ => kept entry) held
  exact finished.store

/-- The same where the statements that are made promise something of themselves. -/
theorem run_statements {P : Store → Prop} {Q : EntityEntry → Prop}
    {steps : List (Phased.Step Tag (Operation World))}
    (kept : ∀ entry before next, Q entry → P before → EntityEntry.apply entry before = .ok next → P next)
    (made : ∀ next ∈ steps, ∀ op store, next.op? = some op → P store →
      ∀ entry ∈ (op.load store).statements, Q entry)
    (underWay : ∀ task ∈ system.inFlight, ∀ entry ∈ task.pending.statements, Q entry)
    (initial : P system.store) : P (Phased.run (machine World) system steps).store := by
  have started : Phased.Keeps P (fun _ pending => ∀ entry ∈ Pending.statements pending, Q entry) system :=
    ⟨initial, underWay⟩
  refine (started.run made ?_).store
  intro op pending store held promised
  exact Pending.save_invariant (fun entry member before next current applied =>
    kept entry before next (promised entry member) current applied) held

theorem run_valid (valid : system.store.Valid) (steps : List (Phased.Step Tag (Operation World))) :
    (Phased.run (machine World) system steps).store.Valid :=
  run_store_invariant (fun _ _ _ held applied => EntityEntry.apply_valid held applied) valid steps

/-- The key has been issued, and whatever row carries it has this value in the column. -/
structure Fixed {Value : Type} (column : UrlMonitor → Value) (id : Int) (value : Value) (store : Store) :
    Prop where
  issued : id < store.nextMonitorId
  value : ∀ monitor ∈ store.urlMonitors, monitor.id = id → column monitor = value

theorem Fixed.apply {Value : Type} {column : UrlMonitor → Value} {id : Int} {value : Value}
    {entry : EntityEntry} {before after : Store}
    (unflagged : ∀ monitor isPaused, column { monitor with isPaused } = column monitor)
    (fixed : Fixed column id value before) (applied : entry.apply before = .ok after) :
    Fixed column id value after := by
  have issued := fixed.issued
  rcases EntityEntry.apply_cases applied with
    ⟨monitor, history, rfl, -, rfl⟩ | ⟨row, rfl, -, rfl⟩ | ⟨target, isPaused, rfl, -, rfl⟩ | ⟨target, rfl, -, rfl⟩
  · constructor
    · simp only [Store.insertMonitor, Store.appendHistories]
      omega
    · intro stored member same
      rcases List.mem_append.mp member with old | new
      · exact fixed.value stored old same
      · rw [List.mem_singleton.mp new] at same
        simp only at same
        omega
  · exact ⟨issued, fixed.value⟩
  · refine ⟨issued, ?_⟩
    intro stored member same
    obtain ⟨original, inside, flag, rfl⟩ := Store.mem_setPaused member
    rw [unflagged]
    exact fixed.value original inside same
  · exact ⟨issued, fun stored member => fixed.value stored (List.mem_of_mem_filter member)⟩

/-- A new row fixes its columns under the key it gets. -/
theorem Fixed.insertMonitor {Value : Type} {column : UrlMonitor → Value} {store : Store}
    {monitor : UrlMonitor} {value : Value} (valid : store.Valid)
    (carried : column { monitor with id := store.nextMonitorId } = value) (history : List LatencyHistory) :
    Fixed column store.nextMonitorId value (store.insertMonitor monitor history) := by
  constructor
  · simp only [Store.insertMonitor, Store.appendHistories]
    omega
  · intro stored member same
    rcases List.mem_append.mp member with old | fresh
    · have issued := valid.monitorIssued stored.id (List.mem_map_of_mem old)
      omega
    · rw [List.mem_singleton.mp fresh]
      exact carried

theorem Fixed.run {Value : Type} {column : UrlMonitor → Value} {id : Int} {value : Value}
    (unflagged : ∀ monitor isPaused, column { monitor with isPaused } = column monitor)
    (fixed : Fixed column id value system.store) (steps : List (Phased.Step Tag (Operation World))) :
    Fixed column id value (Phased.run (machine World) system steps).store :=
  run_store_invariant (fun _ _ _ => Fixed.apply unflagged) fixed steps

section Requests

variable {userId : Option String} {store : Store} {id : Int} {monitor : UrlMonitor}

theorem load_delete_found (World : Type)
    (found : ApplicationDbContext.findMonitor { currentUserId := userId } store id = some monitor) :
    (WebRequest.delete id : WebRequest World).load userId store =
      { context := { currentUserId := userId, entries := [.deletedMonitor id] }
        response := .index .ok } := by
  have key := (ApplicationDbContext.findMonitor_some found).2.2
  simp [WebRequest.load, Index.onPostDeleteAsync, found, key, ApplicationDbContext.track]

theorem load_delete_missing (World : Type)
    (missing : ApplicationDbContext.findMonitor { currentUserId := userId } store id = none) :
    (WebRequest.delete id : WebRequest World).load userId store =
      { context := { currentUserId := userId }, response := .index .ok } := by
  simp [WebRequest.load, Index.onPostDeleteAsync, missing]

theorem load_setPause_found (World : Type)
    (found : ApplicationDbContext.findMonitor { currentUserId := userId } store id = some monitor) :
    (WebRequest.setPause id : WebRequest World).load userId store =
      { context := { currentUserId := userId, entries := [.modifiedIsPaused id !monitor.isPaused] }
        response := .index (.isPaused !monitor.isPaused) } := by
  have key := (ApplicationDbContext.findMonitor_some found).2.2
  simp [WebRequest.load, Index.onPostSetPauseAsync, found, key, ApplicationDbContext.track]

theorem load_setPause_missing (World : Type)
    (missing : ApplicationDbContext.findMonitor { currentUserId := userId } store id = none) :
    (WebRequest.setPause id : WebRequest World).load userId store =
      { context := { currentUserId := userId }, response := .index .notFound } := by
  simp [WebRequest.load, Index.onPostSetPauseAsync, missing]

end Requests

/-- Everything an operation can want to write, with what its load found. -/
theorem load_cases (op : Operation World) (store : Store) :
    (op.load store).statements = [] ∨
    (∃ userId checker world utcNow form result, op = .web userId (.create checker world utcNow form) ∧
      (op.load store).statements = [.addedMonitor
        (writtenMonitor { Index.newMonitor form utcNow with ownerId := userId.getD "" })
        [writtenRow (Index.creationRow result)]] ∧ (op.load store).response = .index .redirectToPage) ∨
    (∃ userId id monitor, op = .web userId (.delete id) ∧
      ApplicationDbContext.findMonitor { currentUserId := userId } store id = some monitor ∧
      op.load store = { context := { currentUserId := userId, entries := [.deletedMonitor id] }
                        response := .index .ok }) ∨
    (∃ userId id monitor, op = .web userId (.setPause id) ∧
      ApplicationDbContext.findMonitor { currentUserId := userId } store id = some monitor ∧
      op.load store =
        { context := { currentUserId := userId, entries := [.modifiedIsPaused id !monitor.isPaused] }
          response := .index (.isPaused !monitor.isPaused) }) ∨
    (∃ run rows, op = .worker run ∧ run.batch store = .ok rows ∧
      op.load store = { context := { currentUserId := some systemUserId
                                     entries := rows.map .addedHistory }
                        response := .completed }) := by
  cases op with
  | worker run =>
      cases batched : run.batch store with
      | error fault =>
          left
          rw [Operation.load, loadRun_error batched]
          rfl
      | ok rows =>
          exact .inr (.inr (.inr (.inr ⟨run, rows, rfl, batched, loadRun_ok batched⟩)))
  | web userId request =>
      cases request with
      | create checker world utcNow form =>
          by_cases valid : form.isValid = true
          · cases checked : checker form.inputUrl (form.inputTimeout.getD 5000) world with
            | error fault =>
                exact .inl (by simp [Operation.load, WebRequest.load, Index.onPostAsync, valid, checked,
                  Pending.statements])
            | ok outcome =>
                exact .inr (.inl ⟨userId, checker, world, utcNow, form, outcome.1, rfl, by
                  simp [Operation.load, WebRequest.load, Index.onPostAsync, valid, checked,
                    Pending.statements, ApplicationDbContext.track, EntityEntry.stamp, EntityEntry.written], by
                  simp [Operation.load, WebRequest.load, Index.onPostAsync, valid, checked]⟩)
          · exact .inl (by simp [Operation.load, WebRequest.load, Index.onPostAsync, valid,
              Pending.statements])
      | delete id =>
          cases found : ApplicationDbContext.findMonitor { currentUserId := userId } store id with
          | none =>
              left
              rw [Operation.load, load_delete_missing World found]
              rfl
          | some monitor =>
              exact .inr (.inr (.inl ⟨userId, id, monitor, rfl, found, load_delete_found World found⟩))
      | setPause id =>
          cases found : ApplicationDbContext.findMonitor { currentUserId := userId } store id with
          | none =>
              left
              rw [Operation.load, load_setPause_missing World found]
              rfl
          | some monitor =>
              exact .inr (.inr (.inr (.inl ⟨userId, id, monitor, rfl, found,
                load_setPause_found World found⟩)))
      | _ => exact .inl rfl

/-- A create inserts its monitor with the row of a check, or nothing. -/
theorem load_create (userId : Option String) (checker : IUrlChecker World) (world : World)
    (utcNow : DateTime) (form : Index.CreateForm) (store : Store) :
    let pending := (WebRequest.create checker world utcNow form).load userId store
    (pending.statements = [] ∧ pending.response ≠ .index .redirectToPage) ∨
    ∃ result after, checker form.inputUrl (form.inputTimeout.getD 5000) world = .ok (result, after) ∧
      pending.statements = [.addedMonitor
        (writtenMonitor { Index.newMonitor form utcNow with ownerId := userId.getD "" })
        [writtenRow (Index.creationRow result)]] ∧ pending.response = .index .redirectToPage := by
  by_cases valid : form.isValid = true
  · cases checked : checker form.inputUrl (form.inputTimeout.getD 5000) world with
    | error fault =>
        left
        simp [WebRequest.load, Index.onPostAsync, valid, checked, Pending.statements]
    | ok outcome =>
        obtain ⟨result, after⟩ := outcome
        right
        refine ⟨result, after, rfl, ?_⟩
        simp [WebRequest.load, Index.onPostAsync, valid, checked, Pending.statements,
          ApplicationDbContext.track, EntityEntry.stamp, EntityEntry.written]
  · left
    simp [WebRequest.load, Index.onPostAsync, valid, Pending.statements]

/-- A valid form whose check comes back goes into whatever store the save finds, if its
texts can be stored. -/
theorem save_create {checker : IUrlChecker World} {world next : World} {form : Index.CreateForm}
    {result : UrlCheckResult} (valid : form.isValid = true)
    (checked : checker form.inputUrl (form.inputTimeout.getD 5000) world = .ok (result, next))
    (userId : Option String) (utcNow : DateTime) (before store : Store) :
    Pending.save ((WebRequest.create checker world utcNow form).load userId before) store =
      if isText form.inputUrl && isText (userId.getD "") then
        (.index .redirectToPage, store.insertMonitor
          (writtenMonitor { Index.newMonitor form utcNow with ownerId := userId.getD "" })
          [writtenRow (Index.creationRow result)])
      else (.exception (.dbUpdate invalidText), store) := by
  have loaded : (WebRequest.create checker world utcNow form).load userId before =
      { context := { currentUserId := userId
                     entries := [.addedMonitor (Index.newMonitor form utcNow) [Index.creationRow result]] }
        response := .index .redirectToPage } := by
    simp [WebRequest.load, Index.onPostAsync, valid, checked, ApplicationDbContext.track]
  rw [loaded, Pending.save_addedMonitor rfl]
  rfl

end UrlPulse
