import UrlPulse.Batch
import UrlPulse.Deletion
import UrlPulse.Web.MonitorTable

namespace UrlPulse

open UrlPulse.Core UrlPulse.Infrastructure UrlPulse.Web UrlPulse.Worker UrlPulse.Data
open UrlPulse.Data.Linq UrlPulse.Web.MonitorTable
open UrlPulse.Data.Phased (Step Keeps)

/-! # The journal

A history row goes in with one operation, stays as it went in, and leaves with its
monitor.  So the history of a stored monitor is the journal of its operations, in
the order in which they were saved.
-/

variable {World Tag : Type} [DecidableEq Tag] {store found : Store} {id : Int}
  {system : System Tag World}

/-- What an operation under way wants to write it has read off some valid store. -/
def FromLoad (op : Operation World) (pending : Pending) : Prop :=
  ∃ found : Store, found.Valid ∧ pending = op.load found

theorem keeps_fromLoad_run (keeps : Keeps Store.Valid FromLoad system)
    (steps : List (Step Tag (Operation World))) :
    Keeps Store.Valid FromLoad (Phased.run (machine World) system steps) :=
  keeps.run (fun _ _ _ store _ valid => ⟨store, valid, rfl⟩) fun _ _ _ valid _ =>
    Pending.save_valid valid

/-! ## One transaction -/

/-- The rows a statement adds to a monitor's history. -/
def entryRows (id : Int) (store : Store) : EntityEntry → List LatencyHistory
  | .addedMonitor _ history =>
      if store.nextMonitorId = id then history.map fun row => { row with urlMonitorId := id } else []
  | .addedHistory row => if row.urlMonitorId = id then [row] else []
  | .modifiedIsPaused _ _ => []
  | .deletedMonitor _ => []

/-- The rows a transaction adds, if it goes through. -/
def savedRows (id : Int) (store : Store) (pending : Pending) : List LatencyHistory :=
  match EntityEntry.applyAll pending.statements store with
  | .ok _ => pending.statements.flatMap (entryRows id store)
  | .error _ => []

theorem savedRows_eq_nil {pending : Pending}
    (none : ∀ entry ∈ pending.statements, entryRows id store entry = []) :
    savedRows id store pending = [] := by
  rw [savedRows]
  split
  · exact List.flatMap_eq_nil_iff.mpr none
  · rfl

theorem statements_of_batch {pending : Pending} {userId : Option String} {response : Response}
    {rows : List LatencyHistory}
    (batch : pending = { context := { currentUserId := userId, entries := rows.map .addedHistory }
                         response }) :
    pending.statements = (rows.map writtenRow).map .addedHistory := by
  rw [batch]
  simp [Pending.statements, Function.comp_def]

theorem savedRows_batch {pending : Pending} {rows : List LatencyHistory}
    (batch : pending.statements = rows.map .addedHistory) :
    savedRows id store pending =
      if ∀ row ∈ rows, row.urlMonitorId ∈ store.monitorIds then
        rows.filter fun row => row.urlMonitorId = id
      else [] := by
  have selected : (rows.map EntityEntry.addedHistory).flatMap (entryRows id store) =
      rows.filter fun row => row.urlMonitorId = id := by
    clear batch
    induction rows with
    | nil => rfl
    | cons row rest ih =>
        by_cases points : row.urlMonitorId = id
        · simpa [entryRows, points] using ih
        · simpa [entryRows, points] using ih
  rw [savedRows, batch, EntityEntry.applyAll_addedHistory]
  by_cases referenced : ∀ row ∈ rows, row.urlMonitorId ∈ store.monitorIds
  · rw [if_pos referenced, if_pos referenced]
    exact selected
  · rw [if_neg referenced, if_neg referenced]

theorem savedRows_addedMonitor {pending : Pending} {monitor : UrlMonitor}
    {history : List LatencyHistory} (one : pending.statements = [.addedMonitor monitor history]) :
    savedRows id store pending =
      if isText monitor.url && isText monitor.ownerId then
        entryRows id store (.addedMonitor monitor history)
      else [] := by
  rw [savedRows, one]
  by_cases texts : (isText monitor.url && isText monitor.ownerId) = true
  · simp only [EntityEntry.applyAll, EntityEntry.apply, if_pos texts]
    exact List.flatMap_singleton _ _
  · simp only [EntityEntry.applyAll, EntityEntry.apply, if_neg texts]

theorem historyOf_append (rows : List LatencyHistory) :
    (store.appendHistories rows).historyOf id = store.historyOf id ++
      (Store.numbered store.nextHistoryId rows).filter fun row => row.urlMonitorId = id := by
  simp [Store.historyOf, Store.appendHistories, List.filter_append]

theorem historyOf_without {other : Int} (different : id ≠ other) :
    (store.without other).historyOf id = store.historyOf id := by
  rw [Store.historyOf, Store.without, List.filter_filter]
  apply List.filter_congr
  intro row _
  by_cases points : row.urlMonitorId = id
  · simp [points, different]
  · simp [points]

/-- The key is in use or still to be issued. -/
def Alive (id : Int) (store : Store) : Prop :=
  id ∈ store.monitorIds ∨ store.nextMonitorId ≤ id

theorem Alive.of_run (valid : system.store.Valid) {steps : List (Step Tag (Operation World))}
    (alive : Alive id (Phased.run (machine World) system steps).store) : Alive id system.store := by
  by_contra neither
  obtain ⟨absent, issued⟩ := not_or.mp neither
  have gone := (Gone.of_absent valid (not_le.mp issued) absent).run steps
  cases alive with
  | inl stored => exact gone.absent stored
  | inr unissued => exact absurd gone.issued (not_lt.mpr unissued)

/-- A transaction adds its rows at the end of a history and touches no other row. -/
theorem save_history (op : Operation World) (found : Store) (valid : store.Valid)
    (alive : Alive id ((op.load found).save store).2) :
    ∃ new, ((op.load found).save store).2.historyOf id = store.historyOf id ++ new ∧
      new.map Store.unnumbered = (savedRows id store (op.load found)).map Store.unnumbered := by
  rcases load_cases op found with
    none | ⟨userId, checker, world, utcNow, form, result, rfl, statements, -⟩ |
    ⟨userId, target, monitor, rfl, -, loaded⟩ | ⟨userId, target, monitor, rfl, -, loaded⟩ |
    ⟨run, rows, rfl, -, loaded⟩
  · rw [Pending.save_of_no_statements none, savedRows_eq_nil (by simp [none])]
    exact ⟨[], (List.append_nil _).symm, rfl⟩
  · rw [Pending.save_addedMonitor statements, savedRows_addedMonitor statements]
    split
    case isFalse => exact ⟨[], (List.append_nil _).symm, rfl⟩
    refine ⟨_, historyOf_append _, ?_⟩
    by_cases fresh : store.nextMonitorId = id
    · simp only [entryRows, fresh]
      rw [Store.filter_numbered _ (fun _ _ => rfl)]
      simp
    · simp only [entryRows, if_neg fresh]
      rw [Store.filter_numbered _ (fun _ _ => rfl)]
      simp [fresh]
  · rw [loaded] at alive ⊢
    rw [savedRows_eq_nil (by simp [Pending.statements, entryRows])]
    rw [Pending.save_deletedMonitor] at alive ⊢
    by_cases stored : target ∈ store.monitorIds
    · rw [if_pos stored] at alive ⊢
      have different : id ≠ target := by
        cases alive with
        | inl remains => exact (Store.mem_without_monitorIds.mp remains).2
        | inr unissued =>
            have unissuedHere : store.nextMonitorId ≤ id := unissued
            have issued := valid.monitorIssued target stored
            omega
      exact ⟨[], by rw [historyOf_without different, List.append_nil], rfl⟩
    · rw [if_neg stored]
      exact ⟨[], (List.append_nil _).symm, rfl⟩
  · rw [loaded, savedRows_eq_nil (by simp [Pending.statements, entryRows]),
      Pending.save_modifiedIsPaused]
    split
    · exact ⟨[], (List.append_nil _).symm, rfl⟩
    · exact ⟨[], (List.append_nil _).symm, rfl⟩
  · have statements := statements_of_batch loaded
    rw [savedRows_batch statements, Pending.save_rows statements]
    by_cases referenced : ∀ row ∈ rows.map writtenRow, row.urlMonitorId ∈ store.monitorIds
    · rw [if_pos referenced, if_pos referenced]
      exact ⟨_, historyOf_append _, Store.filter_numbered _ (fun _ _ => rfl) _ _⟩
    · rw [if_neg referenced, if_neg referenced]
      exact ⟨[], (List.append_nil _).symm, rfl⟩

theorem filter_writtenRow (rows : List LatencyHistory) :
    ((rows.map writtenRow).filter fun row => row.urlMonitorId = id) =
      (rows.filter fun row => row.urlMonitorId = id).map writtenRow :=
  List.filter_map

/-- An operation adds one row at most. -/
theorem length_savedRows_le (op : Operation World) (valid : found.Valid) :
    (savedRows id store (op.load found)).length ≤ 1 := by
  rcases load_cases op found with
    none | ⟨userId, checker, world, utcNow, form, result, rfl, statements, -⟩ |
    ⟨userId, target, monitor, rfl, -, loaded⟩ | ⟨userId, target, monitor, rfl, -, loaded⟩ |
    ⟨run, rows, rfl, batched, loaded⟩
  · have nothing : savedRows id store (op.load found) = [] := savedRows_eq_nil (by simp [none])
    simp [nothing]
  · rw [savedRows_addedMonitor statements, entryRows]
    split
    · split <;> simp
    · exact Nat.zero_le 1
  · rw [loaded, savedRows_eq_nil (by simp [Pending.statements, entryRows])]
    exact Nat.zero_le 1
  · rw [loaded, savedRows_eq_nil (by simp [Pending.statements, entryRows])]
    exact Nat.zero_le 1
  · rw [savedRows_batch (statements_of_batch loaded)]
    split
    · rw [filter_writtenRow, List.length_map]
      rcases TimerRun.batch_rowsFor valid batched id with ⟨-, row, -, -, one⟩ | ⟨-, none⟩
      · rw [one, List.length_singleton]
      · rw [none]
        exact Nat.zero_le 1
    · exact Nat.zero_le 1

/-! ## Whole runs -/

def stepRows (id : Int) (system : System Tag World) (next : Step Tag (Operation World)) :
    List LatencyHistory :=
  match system.completes? (machine World) next with
  | some (_, pending) => savedRows id system.store pending
  | none => []

def journal (id : Int) : System Tag World → List (Step Tag (Operation World)) → List LatencyHistory
  | _, [] => []
  | system, next :: rest =>
      stepRows id system next ++ journal id (Phased.step (machine World) system next) rest

theorem step_history (keeps : Keeps Store.Valid FromLoad system) (next : Step Tag (Operation World))
    (alive : Alive id (Phased.step (machine World) system next).store) :
    ∃ new, (Phased.step (machine World) system next).store.historyOf id =
        system.store.historyOf id ++ new ∧
      new.map Store.unnumbered = (stepRows id system next).map Store.unnumbered := by
  cases completed : system.completes? (machine World) next with
  | none =>
      rw [(Phased.step_incomplete _ _ completed).1]
      exact ⟨[], (List.append_nil _).symm, by simp [stepRows, completed]⟩
  | some complete =>
      obtain ⟨op, pending⟩ := complete
      have stepped : (Phased.step (machine World) system next).store = (pending.save system.store).2 :=
        (Phased.step_complete completed).1
      obtain ⟨found, -, rfl⟩ := keeps.complete (fun _ store _ valid => ⟨store, valid, rfl⟩) completed
      rw [stepped] at alive ⊢
      simpa only [stepRows, completed] using save_history op found keeps.store alive

theorem run_history (keeps : Keeps Store.Valid FromLoad system)
    (steps : List (Step Tag (Operation World)))
    (alive : Alive id (Phased.run (machine World) system steps).store) :
    ∃ new, (Phased.run (machine World) system steps).store.historyOf id =
        system.store.historyOf id ++ new ∧
      new.map Store.unnumbered = (journal id system steps).map Store.unnumbered := by
  induction steps generalizing system with
  | nil => exact ⟨[], (List.append_nil _).symm, rfl⟩
  | cons next rest ih =>
      have after := keeps_fromLoad_run keeps [next]
      obtain ⟨first, firstHistory, firstRows⟩ := step_history keeps next (Alive.of_run after.store alive)
      obtain ⟨later, laterHistory, laterRows⟩ := ih after alive
      refine ⟨first ++ later, ?_, ?_⟩
      · calc
          _ = (Phased.step (machine World) system next).store.historyOf id ++ later := laterHistory
          _ = system.store.historyOf id ++ (first ++ later) := by
            rw [firstHistory, List.append_assoc]
      · rw [journal, List.map_append, List.map_append, firstRows, laterRows]
        rfl

/-! ## Which operations record -/

/-- What makes an operation record a check of the monitor: a run that found it due
comes back, or a create gets the monitor's key. -/
def Records (id : Int) (op : Operation World) (found store : Store) : Prop :=
  (((op.load found).save store).1 = .completed ∧
    ∃ run, op = .worker run ∧ ∃ monitor ∈ run.due found, monitor.id = id) ∨
  (((op.load found).save store).1 = .index .redirectToPage ∧ store.nextMonitorId = id)

theorem savedRows_run_ne_nil_iff (run : TimerRun World) (valid : found.Valid) :
    savedRows id store (loadRun run found) ≠ [] ↔
      ((loadRun run found).save store).1 = .completed ∧ ∃ monitor ∈ run.due found, monitor.id = id := by
  cases batched : run.batch found with
  | error fault =>
      rw [loadRun_error batched, Pending.save_of_no_statements rfl,
        savedRows_eq_nil (fun _ member => by contradiction)]
      simp
  | ok rows =>
      have statements := statements_of_batch (loadRun_ok batched)
      rw [Pending.save_rows statements, savedRows_batch statements, loadRun_ok batched]
      have listed : ((rows.map writtenRow).filter fun row => row.urlMonitorId = id) ≠ [] ↔
          ∃ monitor ∈ run.due found, monitor.id = id := by
        rw [filter_writtenRow]
        rcases TimerRun.batch_rowsFor valid batched id with ⟨due, row, -, -, one⟩ | ⟨idle, none⟩
        · simp [one, due]
        · simp [none, idle]
      by_cases referenced : ∀ row ∈ rows.map writtenRow, row.urlMonitorId ∈ store.monitorIds
      · simp only [if_pos referenced, true_and]
        exact listed
      · simp only [if_neg referenced, ne_eq, not_true_eq_false, reduceCtorEq, false_and]

/-- Only a create answers with a redirect, and it inserts its monitor. -/
theorem creates_of_redirected {userId : Option String} {request : WebRequest World}
    (redirected : (request.load userId found).response = .index .redirectToPage) :
    (request.load userId found).statements ≠ [] := by
  cases request with
  | create checker world utcNow form =>
      rcases load_create userId checker world utcNow form found with
        ⟨-, other⟩ | ⟨result, after, -, statements, -⟩
      · exact absurd redirected other
      · simp [statements]
  | delete target =>
      cases visible : ApplicationDbContext.findMonitor { currentUserId := userId } found target with
      | none => simp [load_delete_missing World visible] at redirected
      | some monitor => simp [load_delete_found World visible] at redirected
  | setPause target =>
      cases visible : ApplicationDbContext.findMonitor { currentUserId := userId } found target with
      | none => simp [load_setPause_missing World visible] at redirected
      | some monitor => simp [load_setPause_found World visible] at redirected
  | monitorsPartial => simp [WebRequest.load, Index.onGetMonitorsPartialAsync] at redirected
  | _ => simp [WebRequest.load] at redirected

theorem savedRows_request_ne_nil_iff (userId : Option String) (request : WebRequest World) :
    savedRows id store (request.load userId found) ≠ [] ↔
      ((request.load userId found).save store).1 = .index .redirectToPage ∧
        store.nextMonitorId = id := by
  rcases load_cases (.web userId request) found with
    none | ⟨creator, checker, world, utcNow, form, result, same, statements, redirected⟩ |
    ⟨deleter, target, monitor, same, -, loaded⟩ | ⟨pauser, target, monitor, same, -, loaded⟩ |
    ⟨run, rows, same, -, -⟩
  · have without : (request.load userId found).statements = [] := none
    have stays : (request.load userId found).response ≠ .index .redirectToPage :=
      fun redirected => creates_of_redirected redirected without
    rw [savedRows_eq_nil (by simp [without]), Pending.save_of_no_statements without]
    simp [stays]
  · have inserted : (request.load userId found).statements = _ := statements
    have answered : (request.load userId found).response = _ := redirected
    rw [savedRows_addedMonitor inserted, Pending.save_addedMonitor inserted, answered, entryRows]
    split <;> simp
  · have deleted : request.load userId found = _ := loaded
    rw [deleted, savedRows_eq_nil (by simp [Pending.statements, entryRows]),
      Pending.save_deletedMonitor]
    split <;> simp
  · have paused : request.load userId found = _ := loaded
    rw [paused, savedRows_eq_nil (by simp [Pending.statements, entryRows]),
      Pending.save_modifiedIsPaused]
    split <;> simp
  · contradiction

theorem savedRows_ne_nil_iff (op : Operation World) (valid : found.Valid) :
    savedRows id store (op.load found) ≠ [] ↔ Records id op found store := by
  cases op with
  | worker run =>
      have recorded : savedRows id store (loadRun run found) ≠ [] ↔ _ :=
        savedRows_run_ne_nil_iff run valid
      have notRedirected : ((loadRun run found).save store).1 ≠ .index .redirectToPage := by
        cases batched : run.batch found with
        | error fault =>
            rw [loadRun_error batched, Pending.save_of_no_statements rfl]
            simp
        | ok rows =>
            rw [loadRun_ok batched, Pending.save_batch]
            split <;> simp
      simp only [Operation.load, Records, recorded, notRedirected, false_and, or_false,
        Operation.worker.injEq, exists_eq_left']
  | web userId request =>
      simp only [Operation.load, Records, savedRows_request_ne_nil_iff, reduceCtorEq, false_and,
        exists_false, and_false, false_or]

theorem keeps_fromLoad (database : Database) (steps : List (Step Tag (Operation World))) :
    Keeps Store.Valid FromLoad
      (Phased.run (machine World) ({ store := database.toStore } : System Tag World) steps) :=
  keeps_fromLoad_run ⟨database.valid, fun _ member => by contradiction⟩ steps

theorem stepRows_counted (database : Database) (before : List (Step Tag (Operation World)))
    (next : Step Tag (Operation World)) :
    let after := fun steps => Phased.run (machine World)
      ({ store := database.toStore } : System Tag World) steps
    (stepRows id (after before) next).length ≤ 1 ∧
      (stepRows id (after before) next ≠ [] ↔ ∃ op pending loaded,
        (after before).completes? (machine World) next = some (op, pending) ∧
        loaded <+: before ∧ pending = op.load (after loaded).store ∧
        Records id op (after loaded).store (after before).store) := by
  intro after
  cases completed : (after before).completes? (machine World) next with
  | none => simp [stepRows, completed]
  | some complete =>
      obtain ⟨op, pending⟩ := complete
      have rows : stepRows id (after before) next = savedRows id (after before).store pending := by
        simp only [stepRows, completed]
      have recorded : ∀ loaded, pending = op.load (after loaded).store →
          (savedRows id (after before).store pending ≠ [] ↔
            Records id op (after loaded).store (after before).store) := by
        intro loaded same
        rw [same]
        exact savedRows_ne_nil_iff op (keeps_fromLoad database loaded).store
      obtain ⟨first, isPrefix, loaded⟩ := Phased.load_of_completes rfl completed
      have here : pending = op.load (after first).store := loaded
      rw [rows]
      constructor
      · rw [here]
        exact length_savedRows_le op (keeps_fromLoad database first).store
      · constructor
        · intro added
          exact ⟨op, pending, first, rfl, isPrefix, here, (recorded first here).mp added⟩
        · intro recording
          obtain ⟨other, otherPending, earlier, same, -, otherLoaded, records⟩ := recording
          cases same
          exact (recorded earlier otherLoaded).mpr records

/-- The history of a stored monitor is accounted for, whatever else went on: it
is what was there with the journal appended; each step adds one row at most; and the
steps that add one are the runs that had found the monitor due when they loaded and
came back, and the create that gets its key. -/
theorem history_accounted (database : Database) (id : Int) (steps : List (Step Tag (Operation World))) :
    let after := fun steps => Phased.run (machine World)
      ({ store := database.toStore } : System Tag World) steps
    id ∈ (after steps).store.monitorIds →
    (∃ new, (after steps).store.historyOf id = database.historyOf id ++ new ∧
      new.map Store.unnumbered =
        (journal id { store := database.toStore } steps).map Store.unnumbered) ∧
    ∀ before next rest, steps = before ++ next :: rest →
      ∃ rows, (after (before ++ [next])).store.historyOf id = (after before).store.historyOf id ++ rows ∧
        rows.length ≤ 1 ∧
        (rows ≠ [] ↔ ∃ op pending loaded,
          (after before).completes? (machine World) next = some (op, pending) ∧
          loaded <+: before ∧ pending = op.load (after loaded).store ∧
          Records id op (after loaded).store (after before).store) := by
  intro after stored
  refine ⟨run_history (keeps_fromLoad database []) steps (.inl stored), ?_⟩
  intro before next rest split
  have keeps := keeps_fromLoad database before
  have alive : Alive id (Phased.step (machine World) (after before) next).store := by
    have whole : after steps =
        Phased.run (machine World) (Phased.step (machine World) (after before) next) rest := by
      rw [split]
      exact Phased.run_append _ _
    have valid := (keeps_fromLoad_run keeps [next]).store
    rw [whole] at stored
    exact Alive.of_run valid (.inl stored)
  have stepped : after (before ++ [next]) = Phased.step (machine World) (after before) next :=
    Phased.run_append _ _
  obtain ⟨rows, history, unnumbered⟩ := step_history keeps next alive
  have sameLength : rows.length = (stepRows id (after before) next).length := by
    rw [← List.length_map (f := Store.unnumbered), unnumbered, List.length_map]
  have sameEmpty : rows ≠ [] ↔ stepRows id (after before) next ≠ [] := by
    rw [← List.length_pos_iff, sameLength, List.length_pos_iff]
  rw [stepped]
  refine ⟨rows, history, ?_⟩
  rw [sameEmpty, sameLength]
  exact stepRows_counted database before next

/-- A run checks both monitors, and Bob pauses his before it comes back. -/
def pausedMeanwhile : List (Step Nat (Operation Unit)) :=
  [.load 0 (.worker BatchRun.bothUp), .call (.web (some "bob") (.setPause 2)), .save 0]

theorem history_accounted_paused_meanwhile :
    let after := fun steps => Phased.run (machine Unit)
      ({ store := BatchRun.twoOwners.toStore } : System Nat Unit) steps
    (journal 2 { store := BatchRun.twoOwners.toStore } pausedMeanwhile).map (·.checkedAt) = [1000] ∧
    ∃ new, (after pausedMeanwhile).store.historyOf 2 = BatchRun.twoOwners.historyOf 2 ++ new ∧
      new.map Store.unnumbered =
        (journal 2 { store := BatchRun.twoOwners.toStore } pausedMeanwhile).map Store.unnumbered :=
  ⟨by decide, (history_accounted BatchRun.twoOwners 2 pausedMeanwhile (by decide)).1⟩

/-! ## What the dashboard shows -/

/-- The later row shows a check no older than the other. -/
def Forward (row later : MonitorRow) : Prop :=
  match row.lastCheck, later.lastCheck with
  | none, _ => True
  | some before, some after => before ≤ after
  | some _, none => False

theorem fixed_of_stored {Value : Type} {monitor : UrlMonitor} (column : UrlMonitor → Value)
    (valid : store.Valid) (stored : monitor ∈ store.urlMonitors) :
    Fixed column monitor.id (column monitor) store where
  issued := valid.monitorIssued monitor.id (List.mem_map_of_mem stored)
  value := fun _ member same => congrArg column (valid.monitor_unique member stored same)

/-- A table never goes back: whatever happens between two looks at a monitor, its
form values are the same and its last check is no older; and where the times of its
checks differ, a last check of the same time is the same check. -/
theorem shown_moves_forward (database : Database) (steps more : List (Step Tag (Operation World)))
    (userId : Option String) :
    let early := Phased.run (machine World) ({ store := database.toStore } : System Tag World) steps
    let late := Phased.run (machine World) early more
    ∀ row, Shows { currentUserId := userId } early.store row →
      ∀ later, Shows { currentUserId := userId } late.store later →
        later.id = row.id →
        later.url = row.url ∧ later.checkIntervalMinutes = row.checkIntervalMinutes ∧
          later.timeoutMs = row.timeoutMs ∧ Forward row later ∧
          (((late.store.historyOf row.id).map (·.checkedAt)).Nodup → row.lastCheck.isSome →
            later.lastCheck = row.lastCheck → later.response = row.response ∧ later.badge = row.badge) := by
  intro early late row shown later laterShown same
  obtain ⟨monitor, visible, latest, absent, newest, rfl⟩ := shown
  obtain ⟨laterMonitor, laterVisible, laterLatest, laterAbsent, laterNewest, rfl⟩ := laterShown
  have keeps : Keeps Store.Valid FromLoad early := keeps_fromLoad database steps
  have stored := List.mem_of_mem_filter visible
  have laterStored : laterMonitor ∈ late.store.urlMonitors := List.mem_of_mem_filter laterVisible
  have sameId : laterMonitor.id = monitor.id := same
  have fixed := (fixed_of_stored (fun monitor : UrlMonitor =>
    (monitor.url, monitor.checkIntervalMinutes, monitor.timeoutMs)) keeps.store stored).run
      (fun _ _ => rfl) more
  obtain ⟨sameUrl, sameInterval, sameTimeout⟩ : laterMonitor.url = monitor.url ∧
      laterMonitor.checkIntervalMinutes = monitor.checkIntervalMinutes ∧
      laterMonitor.timeoutMs = monitor.timeoutMs := by
    simpa only [Prod.mk.injEq] using fixed.value laterMonitor laterStored sameId
  refine ⟨sameUrl, sameInterval, sameTimeout, ?_⟩
  have present : monitor.id ∈ late.store.monitorIds :=
    Store.mem_monitorIds.mpr ⟨laterMonitor, laterStored, sameId⟩
  obtain ⟨new, grown, -⟩ := run_history keeps more (.inl present)
  rw [sameId, grown] at laterAbsent laterNewest
  cases latest with
  | none => exact ⟨trivial, fun _ some => by contradiction⟩
  | some check =>
      have before := newest check rfl
      cases laterLatest with
      | none =>
          have empty := (List.append_eq_nil_iff.mp (laterAbsent rfl)).1
          have member := before.1
          rw [empty] at member
          contradiction
      | some last =>
          obtain ⟨forward, unique⟩ := before.append (laterNewest last rfl)
          refine ⟨forward, fun distinct _ sameTime => ?_⟩
          have times : last.checkedAt = check.checkedAt := Option.some.inj sameTime
          have history : late.store.historyOf monitor.id = early.store.historyOf monitor.id ++ new := grown
          rw [← unique (history ▸ distinct) times]
          exact ⟨rfl, rfl⟩

/-- The next run finds the site in trouble. -/
def failsLater : List (Step Nat (Operation Unit)) :=
  [.call (.worker { regionName := some "eastus", now := TimeSpan.fromHours 1
                    checker := fun _ _ world => .ok ({ isUp := false, latencyMs := some 40,
                                                       checkedAt := TimeSpan.fromHours 1
                                                       statusCode := 503 }, world)
                    world := () })]

theorem shown_moves_forward_fails_later :
    let early := Phased.run (machine Unit)
      ({ store := BatchRun.twoOwners.toStore } : System Nat Unit) pausedMeanwhile
    let late := Phased.run (machine Unit) early failsLater
    ∃ row ∈ monitorTable (Index.onGetAsync { currentUserId := some "alice" } early.store),
      ∃ later ∈ monitorTable (Index.onGetAsync { currentUserId := some "alice" } late.store),
        row.badge = "UP" ∧ later.badge = "DOWN" ∧ Forward row later := by
  intro early late
  let row := (monitorTable (Index.onGetAsync { currentUserId := some "alice" } early.store)).head
    (by decide)
  let later := (monitorTable (Index.onGetAsync { currentUserId := some "alice" } late.store)).head
    (by decide +kernel)
  have shown := shown_moves_forward BatchRun.twoOwners pausedMeanwhile failsLater (some "alice")
    row (shows_of_mem_monitorTable (List.head_mem _)) later (shows_of_mem_monitorTable (List.head_mem _))
    (by decide +kernel)
  exact ⟨row, List.head_mem _, later, List.head_mem _, by decide, by decide +kernel, shown.2.2.2.1⟩

end UrlPulse
