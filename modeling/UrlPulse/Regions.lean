import UrlPulse.Toggle

namespace UrlPulse

open UrlPulse.Core UrlPulse.Infrastructure UrlPulse.Web UrlPulse.Worker UrlPulse.Data
open UrlPulse.Data.Phased

/-! # Regional workers

One worker is deployed per region, and its region is its tag here.  A run adds
rows of its own region and reads no others, and its save writes nothing back to
the monitors it has loaded.
-/

variable {World : Type}

/-- A phase of a region's worker run, or a completed SetPause. -/
def Regional : Step String (Operation World) → Prop
  | .load region op => ∃ run, op = .worker run ∧ run.checkRegion = region
  | .save _ => True
  | .call op => ∃ userId id, op = .web userId (.setPause id)

/-- The monitor after an operation that may toggle it. -/
def toggled (op : Operation World) (monitor : UrlMonitor) : UrlMonitor :=
  if toggles monitor op then { monitor with isPaused := !monitor.isPaused } else monitor

/-- A SetPause as a function of the monitor table. -/
theorem setPause_store (World : Type) {store : Store} (valid : store.Valid) (userId : Option String)
    (id : Int) :
    (((Operation.web userId (.setPause id) : Operation World).load store).save store).2 =
      { store with urlMonitors :=
          store.urlMonitors.map (toggled (.web userId (.setPause id) : Operation World)) } := by
  cases found : ApplicationDbContext.findMonitor { currentUserId := userId } store id with
  | none =>
      have untouched : store.urlMonitors.map
          (toggled (.web userId (.setPause id) : Operation World)) = store.urlMonitors := by
        refine (List.map_congr_left fun monitor stored => ?_).trans (List.map_id _)
        apply if_neg
        intro toggling
        simp only [toggles, Bool.and_eq_true, decide_eq_true_eq] at toggling
        have visible : monitor ∈ ApplicationDbContext.urlMonitors { currentUserId := userId } store :=
          List.mem_filter.mpr ⟨stored, by simp [ApplicationDbContext.queryFilter, toggling.1]⟩
        have absent := List.find?_eq_none.mp found monitor visible
        simp [toggling.2] at absent
      rw [untouched, Operation.load, load_setPause_missing World found, Pending.save_of_no_statements rfl]
  | some monitor =>
      obtain ⟨stored, owner, key⟩ := ApplicationDbContext.findMonitor_some found
      rw [Operation.load, load_setPause_found World found, Pending.save_modifiedIsPaused,
        if_pos (ApplicationDbContext.mem_monitorIds_of_found found)]
      simp only [Store.setPaused, Store.mk.injEq, and_true]
      apply List.map_congr_left
      intro other otherStored
      by_cases same : other.id = id
      · have isMonitor : other = monitor :=
          valid.monitor_unique otherStored stored (same.trans key.symm)
        have owned : userId = some other.ownerId := by
          rw [isMonitor]
          exact owner
        simp [toggled, toggles, same, owned, ← isMonitor]
      · have different : id ≠ other.id := fun equal => same equal.symm
        simp [toggled, toggles, same, different]

/-! ## What every step of such a schedule keeps -/

theorem loadRun_statements (run : TimerRun World) (store : Store) :
    (loadRun run store).statements = ((run.added store).map writtenRow).map .addedHistory := by
  cases batched : run.batch store with
  | error fault => simp only [loadRun_error batched, TimerRun.added, batched, Pending.statements, List.map_nil]
  | ok rows =>
      simp only [loadRun_ok batched, TimerRun.added, batched, Pending.statements, List.map_map]
      rfl

def row? : EntityEntry → Option LatencyHistory
  | .addedHistory row => some row
  | _ => none

def Pending.rows (pending : Pending) : List LatencyHistory :=
  pending.statements.filterMap row?

/-- A task in flight is a region's run with rows of that region only, each for a
monitor that is stored. -/
structure RegionTask (ids : List Int) (task : Task String (Operation World) Pending) : Prop where
  statements : task.pending.statements = task.pending.rows.map .addedHistory
  rows : ∀ row ∈ task.pending.rows, row.region = task.tag ∧ row.urlMonitorId ∈ ids

theorem loadRun_rows (run : TimerRun World) (store : Store) :
    (loadRun run store).rows = (run.added store).map writtenRow := by
  rw [Pending.rows, loadRun_statements, List.filterMap_map]
  exact List.filterMap_some

theorem regionTask_load (run : TimerRun World) (store : Store) :
    RegionTask store.monitorIds
      (⟨run.checkRegion, .worker run, loadRun run store⟩ : Task String (Operation World) Pending) where
  statements := by rw [loadRun_rows, loadRun_statements]
  rows := by
    intro written saved
    rw [loadRun_rows] at saved
    obtain ⟨row, member, rfl⟩ := List.mem_map.mp saved
    clear saved
    cases batched : run.batch store with
    | error fault => simp [TimerRun.added, batched] at member
    | ok rows =>
        simp only [TimerRun.added, batched] at member
        obtain ⟨ids, tagged⟩ := TimerRun.batch_rows batched
        have listed : row.urlMonitorId ∈ rows.map (·.urlMonitorId) :=
          List.mem_map_of_mem (f := fun row : LatencyHistory => row.urlMonitorId) member
        rw [ids] at listed
        obtain ⟨monitor, due, key⟩ := List.mem_map.mp listed
        exact ⟨(tagged row member).1,
          Store.mem_monitorIds.mpr ⟨monitor, (TimerRun.mem_due_iff.mp due).1.1, key⟩⟩

theorem RegionTask.save {store : Store} {task : Task String (Operation World) Pending}
    (regionTask : RegionTask store.monitorIds task) :
    (task.pending.save store).2 = store.appendHistories task.pending.rows := by
  have referenced : ∀ row ∈ task.pending.rows, row.urlMonitorId ∈ store.monitorIds :=
    fun row member => (regionTask.rows row member).2
  rw [Pending.save_rows regionTask.statements, if_pos referenced]

structure Working (ids : List Int) (system : System String World) : Prop where
  valid : system.store.Valid
  table : system.store.monitorIds = ids
  tasks : ∀ task ∈ system.inFlight, RegionTask ids task

theorem toggled_id (op : Operation World) (monitor : UrlMonitor) :
    (toggled op monitor).id = monitor.id := by
  unfold toggled
  split <;> rfl

variable {ids : List Int} {system : System String World} {next : Step String (Operation World)}

theorem Working.commit_store (working : Working ids system)
    {task : Task String (Operation World) Pending} (member : task ∈ system.inFlight) :
    (system.commit (machine World) task).store = system.store.appendHistories task.pending.rows := by
  have regionTask : RegionTask system.store.monitorIds task := by
    rw [working.table]
    exact working.tasks task member
  exact regionTask.save

theorem Working.call_store (working : Working ids system) (userId : Option String) (id : Int) :
    (system.call (machine World) (.web userId (.setPause id))).store =
      { system.store with urlMonitors :=
          system.store.urlMonitors.map (toggled (.web userId (.setPause id) : Operation World)) } :=
  setPause_store World working.valid userId id

theorem Working.step_cases (working : Working ids system) (regional : Regional next) :
    step (machine World) system next = system ∨
    (∃ run : TimerRun World, next = .load run.checkRegion (.worker run) ∧
      system.task? run.checkRegion = none ∧
      step (machine World) system next =
        system.begin (machine World) run.checkRegion (.worker run)) ∨
    (∃ task, next = .save task.tag ∧ system.task? task.tag = some task ∧
      step (machine World) system next = system.commit (machine World) task ∧
      (step (machine World) system next).store =
        system.store.appendHistories task.pending.rows) ∨
    (∃ userId id, next = .call (.web userId (.setPause id)) ∧
      (step (machine World) system next).inFlight = system.inFlight ∧
      (step (machine World) system next).store =
        { system.store with urlMonitors :=
            system.store.urlMonitors.map (toggled (.web userId (.setPause id) : Operation World)) }) := by
  cases next with
  | load tag op =>
      obtain ⟨run, rfl, rfl⟩ := regional
      cases found : system.task? run.checkRegion with
      | none => exact .inr (.inl ⟨run, rfl, found, by simp only [step, found]⟩)
      | some task => exact .inl (by simp only [step, found])
  | save tag =>
      cases found : system.task? tag with
      | none => exact .inl (by simp only [step, found])
      | some task =>
          obtain ⟨member, rfl⟩ := Config.task?_some found
          have committed : step (machine World) system (.save task.tag) =
              system.commit (machine World) task := by simp only [step, found]
          refine .inr (.inr (.inl ⟨task, rfl, found, committed, ?_⟩))
          rw [committed]
          exact working.commit_store member
  | call op =>
      obtain ⟨userId, id, rfl⟩ := regional
      exact .inr (.inr (.inr ⟨userId, id, rfl, rfl, working.call_store userId id⟩))

theorem Working.step (working : Working ids system) (regional : Regional next) :
    Working ids (step (machine World) system next) := by
  rcases working.step_cases regional with
    same | ⟨run, rfl, -, begun⟩ | ⟨task, rfl, found, committed, store⟩ | ⟨userId, id, rfl, inFlight, store⟩
  · rw [same]
    exact working
  · rw [begun]
    refine ⟨working.valid, working.table, ?_⟩
    intro task inFlight
    rcases List.mem_append.mp inFlight with old | new
    · exact working.tasks task old
    · rw [List.mem_singleton.mp new, ← working.table]
      exact regionTask_load run system.store
  · have regionTask := working.tasks task (Config.task?_some found).1
    refine ⟨?_, ?_, ?_⟩
    · rw [store]
      apply working.valid.appendHistories
      intro row member
      rw [working.table]
      exact (regionTask.rows row member).2
    · rw [store]
      exact working.table
    · rw [committed]
      intro other remaining
      exact working.tasks other (List.mem_of_mem_filter remaining)
  · refine ⟨?_, ?_, ?_⟩
    · have saved : (Phased.step (machine World) system (.call (.web userId (.setPause id)))).store =
          (((Operation.web userId (.setPause id) : Operation World).load system.store).save
            system.store).2 := rfl
      rw [saved]
      exact Pending.save_valid working.valid
    · rw [store, ← working.table]
      simp [Store.monitorIds, Function.comp_def, toggled_id]
    · rw [inFlight]
      exact working.tasks

/-! ## A region seen alone -/

def rowsIn (region : String) (store : Store) : List LatencyHistory :=
  (historyIn region store).map Store.unnumbered

theorem rowsIn_appendHistories (region : String) (rows : List LatencyHistory) (store : Store) :
    rowsIn region (store.appendHistories rows) =
      rowsIn region store ++ (rows.filter fun row => row.region = region).map Store.unnumbered := by
  have numbered := Store.filter_numbered (fun row => decide (row.region = region)) (fun _ _ => rfl)
    store.nextHistoryId rows
  simp only [rowsIn, historyIn, Store.appendHistories, List.filter_append, List.map_append, numbered]

theorem RegionTask.rowsIn {task : Task String (Operation World) Pending}
    (regionTask : RegionTask ids task) (region : String) :
    (task.pending.rows.filter fun row => row.region = region) =
      if task.tag = region then task.pending.rows else [] := by
  split
  case isTrue same =>
    apply List.filter_eq_self.mpr
    intro row member
    simp [(regionTask.rows row member).1, same]
  case isFalse different =>
    apply List.filter_eq_nil_iff.mpr
    intro row member
    simp [(regionTask.rows row member).1, different]

/-- The steps that a region would see if no other region had a worker. -/
def concerns (region : String) (next : Step String (Operation World)) : Bool :=
  next.tag?.all fun tag => tag = region

/-- Two systems that a region's worker cannot tell apart. -/
structure Alike (region : String) (left right : System String World) : Prop where
  monitors : left.store.urlMonitors = right.store.urlMonitors
  rows : rowsIn region left.store = rowsIn region right.store
  task : (left.task? region).map (·.pending) = (right.task? region).map (·.pending)

variable {left right : System String World} {region : String}

theorem Alike.task_none (alike : Alike region left right) (free : left.task? region = none) :
    right.task? region = none := by
  have task := alike.task
  rw [free, Option.map_none] at task
  exact Option.map_eq_none_iff.mp task.symm

theorem Alike.task_some {busy : Task String (Operation World) Pending}
    (alike : Alike region left right) (found : left.task? region = some busy) :
    ∃ other, right.task? region = some other ∧ other.pending = busy.pending := by
  have task := alike.task
  rw [found, Option.map_some] at task
  exact Option.map_eq_some_iff.mp task.symm

theorem Alike.step_other (alike : Alike region left right) (working : Working ids left)
    (regional : Regional next) (other : concerns region next = false) :
    Alike region (Phased.step (machine World) left next) right := by
  have named : next.tag? ≠ some region := by
    intro same
    simp [concerns, same] at other
  have task := task?_step_of_other (machine World) left named
  rcases working.step_cases regional with
    same | ⟨run, rfl, free, begun⟩ | ⟨done, rfl, found, committed, store⟩ |
    ⟨userId, id, rfl, inFlight, store⟩
  · rw [same]
    exact alike
  · refine ⟨?_, ?_, by rw [task]; exact alike.task⟩ <;> rw [begun]
    · exact alike.monitors
    · exact alike.rows
  · have different : done.tag ≠ region := fun same => named (congrArg some same)
    have regionTask := working.tasks done (Config.task?_some found).1
    refine ⟨?_, ?_, by rw [task]; exact alike.task⟩ <;> rw [store]
    · exact alike.monitors
    · rw [rowsIn_appendHistories, regionTask.rowsIn, if_neg different, List.map_nil, List.append_nil]
      exact alike.rows
  · contradiction

theorem Alike.step_own (alike : Alike region left right) (leftWorking : Working ids left)
    (rightWorking : Working ids right) (regional : Regional next)
    (own : concerns region next = true) :
    Alike region (Phased.step (machine World) left next) (Phased.step (machine World) right next) := by
  cases next with
  | load tag op =>
      obtain ⟨run, rfl, rfl⟩ := regional
      have same : run.checkRegion = region := by simpa [concerns, Step.tag?] using own
      subst same
      have batch : run.batch left.store = run.batch right.store :=
        TimerRun.batch_congr alike.monitors alike.rows
      have pending : loadRun run left.store = loadRun run right.store := by
        simp only [loadRun, TimerRun.runUntilSave, batch]
      cases foundLeft : left.task? run.checkRegion with
      | none =>
          have foundRight := alike.task_none foundLeft
          simp only [Phased.step, foundLeft, foundRight]
          refine ⟨alike.monitors, alike.rows, ?_⟩
          rw [Config.task?_begin (machine World) _ foundLeft,
            Config.task?_begin (machine World) _ foundRight]
          exact congrArg some pending
      | some busy =>
          obtain ⟨other, foundRight, -⟩ := alike.task_some foundLeft
          simpa only [Phased.step, foundLeft, foundRight] using alike
  | save tag =>
      have same : tag = region := by simpa [concerns, Step.tag?] using own
      subst same
      cases foundLeft : left.task? tag with
      | none =>
          have foundRight := alike.task_none foundLeft
          simpa only [Phased.step, foundLeft, foundRight] using alike
      | some done =>
          obtain ⟨other, foundRight, pending⟩ := alike.task_some foundLeft
          obtain ⟨inLeft, rfl⟩ := Config.task?_some foundLeft
          obtain ⟨inRight, otherTag⟩ := Config.task?_some foundRight
          simp only [Phased.step, foundLeft, foundRight]
          refine ⟨?_, ?_, ?_⟩
          · rw [leftWorking.commit_store inLeft, rightWorking.commit_store inRight]
            exact alike.monitors
          · rw [leftWorking.commit_store inLeft, rightWorking.commit_store inRight, pending,
              rowsIn_appendHistories, rowsIn_appendHistories, alike.rows]
          · rw [Config.task?_commit, ← otherTag, Config.task?_commit]
  | call op =>
      obtain ⟨userId, id, rfl⟩ := regional
      simp only [Phased.step]
      refine ⟨?_, ?_, alike.task⟩
      · rw [leftWorking.call_store, rightWorking.call_store, alike.monitors]
      · rw [leftWorking.call_store, rightWorking.call_store]
        exact alike.rows

theorem Alike.run {steps : List (Step String (Operation World))} (alike : Alike region left right)
    (leftWorking : Working ids left) (rightWorking : Working ids right)
    (regional : ∀ next ∈ steps, Regional next) :
    Alike region (Phased.run (machine World) left steps)
      (Phased.run (machine World) right (steps.filter (concerns region))) := by
  induction steps generalizing left right with
  | nil => exact alike
  | cons next rest ih =>
      have first := regional next (by simp)
      have others : ∀ other ∈ rest, Regional other :=
        fun other member => regional other (List.mem_cons_of_mem next member)
      cases own : concerns region next with
      | true =>
          rw [List.filter_cons_of_pos own]
          exact ih (alike.step_own leftWorking rightWorking first own) (leftWorking.step first)
            (rightWorking.step first) others
      | false =>
          rw [List.filter_cons_of_neg (by simp [own])]
          exact ih (alike.step_other leftWorking first own) (leftWorking.step first) rightWorking others

/-! ## Every run as if it happened at its load -/

/-- What a region still has to save. -/
def inFlightRows (region : String) (system : System String World) : List LatencyHistory :=
  match system.task? region with
  | none => []
  | some task => task.pending.rows.map Store.unnumbered

/-- On the right, what is in flight on the left is already saved. -/
structure Ahead (left right : System String World) : Prop where
  monitors : left.store.urlMonitors = right.store.urlMonitors
  rows : ∀ region, rowsIn region left.store ++ inFlightRows region left = rowsIn region right.store

theorem call_worker_store (run : TimerRun World) (system : System String World) :
    (system.call (machine World) (.worker run)).store =
      system.store.appendHistories ((run.added system.store).map writtenRow) := by
  have saved := (regionTask_load run system.store).save
  rw [loadRun_rows] at saved
  exact saved

theorem rowsIn_added (run : TimerRun World) (store : Store) (region : String) :
    ((run.added store).map writtenRow).filter (fun row => row.region = region) =
      if run.checkRegion = region then (run.added store).map writtenRow else [] := by
  have split := (regionTask_load run store).rowsIn region
  rw [loadRun_rows] at split
  exact split

theorem Ahead.load {run : TimerRun World} (ahead : Ahead left right)
    (free : left.task? run.checkRegion = none) :
    Ahead (left.begin (machine World) run.checkRegion (.worker run))
      (right.call (machine World) (.worker run)) := by
  have ownRows : rowsIn run.checkRegion left.store = rowsIn run.checkRegion right.store := by
    have rows := ahead.rows run.checkRegion
    simpa only [inFlightRows, free, List.append_nil] using rows
  have added : run.added left.store = run.added right.store := by
    simp only [TimerRun.added, TimerRun.batch_congr ahead.monitors ownRows]
  refine ⟨?_, ?_⟩
  · rw [call_worker_store]
    exact ahead.monitors
  · intro region
    rw [call_worker_store, rowsIn_appendHistories, rowsIn_added]
    by_cases same : run.checkRegion = region
    · subst same
      have begun := Config.task?_begin (machine World) (.worker run) free
      have pending : (loadRun run left.store).rows = (run.added left.store).map writtenRow :=
        loadRun_rows run left.store
      rw [if_pos rfl, ← added, ← ownRows]
      simp only [inFlightRows, begun]
      exact congrArg (fun rows => rowsIn run.checkRegion left.store ++ rows.map Store.unnumbered) pending
    · have unaffected : (left.begin (machine World) run.checkRegion (.worker run)).task? region =
          left.task? region := by
        have named : (Step.load run.checkRegion (.worker run) : Step String (Operation World)).tag? ≠
            some region := fun equal => same (Option.some.inj equal)
        have kept := task?_step_of_other (machine World) left named
        simpa only [Phased.step, free] using kept
      rw [if_neg same, List.map_nil, List.append_nil, ← ahead.rows region]
      simp only [inFlightRows, unaffected]
      rfl

theorem Ahead.save {task : Task String (Operation World) Pending} (ahead : Ahead left right)
    (working : Working ids left) (found : left.task? task.tag = some task) :
    Ahead (left.commit (machine World) task) right := by
  have member := (Config.task?_some found).1
  refine ⟨?_, ?_⟩
  · rw [working.commit_store member]
    exact ahead.monitors
  · intro region
    rw [working.commit_store member, rowsIn_appendHistories, (working.tasks task member).rowsIn,
      ← ahead.rows region]
    by_cases same : task.tag = region
    · subst same
      rw [if_pos rfl]
      simp only [inFlightRows, Config.task?_commit, found, List.append_nil]
    · have unaffected : (left.commit (machine World) task).task? region = left.task? region := by
        have named : (Step.save task.tag : Step String (Operation World)).tag? ≠ some region :=
          fun equal => same (Option.some.inj equal)
        have kept := task?_step_of_other (machine World) left named
        simpa only [Phased.step, found] using kept
      rw [if_neg same, List.map_nil, List.append_nil]
      simp only [inFlightRows, unaffected]

theorem Ahead.pause (ahead : Ahead left right) (leftValid : left.store.Valid)
    (rightValid : right.store.Valid) (userId : Option String) (id : Int) :
    Ahead (left.call (machine World) (.web userId (.setPause id)))
      (right.call (machine World) (.web userId (.setPause id))) := by
  have leftStore : (left.call (machine World) (.web userId (.setPause id))).store = _ :=
    setPause_store World leftValid userId id
  have rightStore : (right.call (machine World) (.web userId (.setPause id))).store = _ :=
    setPause_store World rightValid userId id
  refine ⟨?_, ?_⟩
  · rw [leftStore, rightStore, ahead.monitors]
  · intro region
    rw [leftStore, rightStore]
    exact ahead.rows region

/-- The operations of a schedule, each at once, in the order they start. -/
def atOnce (steps : List (Step String (Operation World))) : List (Step String (Operation World)) :=
  (steps.filterMap Step.op?).map .call

theorem atOnce_cons (next : Step String (Operation World)) (rest : List (Step String (Operation World))) :
    atOnce (next :: rest) = atOnce [next] ++ atOnce rest := by
  rw [atOnce, atOnce, atOnce, ← List.map_append, ← List.filterMap_append]
  rfl

theorem Ahead.step (ahead : Ahead left right) (working : Working ids left)
    (rightValid : right.store.Valid) (regional : Regional next)
    (fresh : ∀ region, next.loadTag? = some region → left.task? region = none) :
    Ahead (Phased.step (machine World) left next)
      (Phased.run (machine World) right (atOnce [next])) := by
  cases next with
  | load tag op =>
      obtain ⟨run, rfl, rfl⟩ := regional
      have free := fresh run.checkRegion rfl
      simp only [Phased.step, free]
      exact ahead.load free
  | save tag =>
      cases found : left.task? tag with
      | none =>
          simp only [Phased.step, found]
          exact ahead
      | some task =>
          obtain ⟨member, rfl⟩ := Config.task?_some found
          simp only [Phased.step, found]
          exact ahead.save working found
  | call op =>
      obtain ⟨userId, id, rfl⟩ := regional
      exact ahead.pause working.valid rightValid userId id

theorem Ahead.run {steps : List (Step String (Operation World))} (ahead : Ahead left right)
    (working : Working ids left) (rightValid : right.store.Valid)
    (regional : ∀ next ∈ steps, Regional next) (distinct : (steps.filterMap Step.loadTag?).Nodup)
    (fresh : ∀ region ∈ steps.filterMap Step.loadTag?, left.task? region = none) :
    Ahead (Phased.run (machine World) left steps)
      (Phased.run (machine World) right (atOnce steps)) := by
  induction steps generalizing left right with
  | nil => exact ahead
  | cons next rest ih =>
      have first := regional next (by simp)
      have freshNow : ∀ region, next.loadTag? = some region → left.task? region = none :=
        fun region loads => fresh region (List.mem_filterMap.mpr ⟨next, by simp, loads⟩)
      have stepped := ahead.step working rightValid first freshNow
      have split := atOnce_cons next rest
      have restDistinct : (rest.filterMap Step.loadTag?).Nodup :=
        distinct.sublist (List.Sublist.filterMap _ (List.sublist_cons_self next rest))
      rw [split, run_append]
      refine ih stepped (working.step first) (run_valid rightValid _)
        (fun other member => regional other (List.mem_cons_of_mem next member)) restDistinct ?_
      intro region later
      refine task?_step_none (fresh region ?_) ?_
      · obtain ⟨other, member, loads⟩ := List.mem_filterMap.mp later
        exact List.mem_filterMap.mpr ⟨other, List.mem_cons_of_mem next member, loads⟩
      · intro loads
        rw [List.filterMap_cons_some loads] at distinct
        exact (List.nodup_cons.mp distinct).1 later

/-! ## The monitor table -/

def pauseCount (monitor : UrlMonitor) (steps : List (Step String (Operation World))) : Nat :=
  (steps.filterMap Step.op?).countP (toggles monitor)

def pausedBy (steps : List (Step String (Operation World))) (monitor : UrlMonitor) : UrlMonitor :=
  { monitor with isPaused := not^[pauseCount monitor steps] monitor.isPaused }

theorem pausedBy_call (op : Operation World) (rest : List (Step String (Operation World)))
    (monitor : UrlMonitor) : pausedBy (.call op :: rest) monitor = pausedBy rest (toggled op monitor) := by
  cases toggling : toggles monitor op with
  | false =>
      have count : pauseCount monitor (.call op :: rest) = pauseCount monitor rest := by
        simp [pauseCount, Step.op?, toggling]
      rw [toggled, toggling, if_neg Bool.false_ne_true, pausedBy, pausedBy, count]
  | true =>
      have count : pauseCount monitor (.call op :: rest) = pauseCount monitor rest + 1 := by
        simp [pauseCount, Step.op?, toggling]
      rw [toggled, toggling, if_pos rfl, pausedBy, pausedBy, count, Function.iterate_succ_apply]
      rfl

theorem monitors_run {steps : List (Step String (Operation World))} (working : Working ids system)
    (regional : ∀ next ∈ steps, Regional next) :
    (Phased.run (machine World) system steps).store.urlMonitors =
      system.store.urlMonitors.map (pausedBy steps) := by
  induction steps generalizing system with
  | nil => exact (List.map_id _).symm
  | cons next rest ih =>
      have first := regional next (by simp)
      have later := ih (working.step first)
        (fun other member => regional other (List.mem_cons_of_mem next member))
      have split : Phased.run (machine World) system (next :: rest) =
          Phased.run (machine World) (Phased.step (machine World) system next) rest := rfl
      rw [split, later]
      cases next with
      | load tag op =>
          obtain ⟨run, rfl, rfl⟩ := first
          rw [(step_incomplete (machine World) system rfl).1]
          rfl
      | save tag =>
          cases found : system.task? tag with
          | none =>
              simp only [Phased.step, found]
              rfl
          | some task =>
              simp only [Phased.step, found]
              rw [working.commit_store (Config.task?_some found).1]
              rfl
      | call op =>
          obtain ⟨userId, id, rfl⟩ := first
          have store : (Phased.step (machine World) system (.call (.web userId (.setPause id)))).store =
              _ := setPause_store World working.valid userId id
          rw [store, List.map_map]
          exact List.map_congr_left fun monitor _ => (pausedBy_call _ rest monitor).symm

/-! ## Any number of regions -/

/-- Runs of pairwise distinct regions among SetPause requests, each saved in the end. -/
structure RegionalRuns (World : Type) where
  database : Database
  steps : List (Step String (Operation World))
  regional : ∀ next ∈ steps, Regional next
  distinct : (steps.filterMap Step.loadTag?).Nodup
  complete : (Phased.run (machine World) { store := database.toStore } steps).inFlight = []

namespace RegionalRuns

def final (runs : RegionalRuns World) : Store :=
  (Phased.run (machine World) { store := runs.database.toStore } runs.steps).store

theorem working (database : Database) :
    Working database.monitorIds ({ store := database.toStore } : System String World) :=
  ⟨database.valid, rfl, by simp⟩

theorem ahead_initial (World : Type) (store : Store) : Ahead ({ store } : System String World) { store } :=
  ⟨rfl, fun _ => List.append_nil _⟩

variable (runs : RegionalRuns World)

theorem rowsIn_final (region : String) : rowsIn region runs.final =
    rowsIn region (Phased.run (machine World) ({ store := runs.database.toStore } : System String World)
      (atOnce runs.steps)).store := by
  have ahead := (ahead_initial World runs.database.toStore).run (working runs.database)
    runs.database.valid runs.regional runs.distinct (fun _ _ => rfl)
  have rows := ahead.rows region
  have none : (Phased.run (machine World) ({ store := runs.database.toStore } : System String World)
      runs.steps).task? region = none := by
    rw [Config.task?, runs.complete]
    rfl
  simpa only [final, inFlightRows, none, List.append_nil] using rows

theorem rowsIn_others {region : String} {system : System String World} (valid : system.store.Valid)
    {steps : List (Step String (Operation World))} (regional : ∀ next ∈ steps, Regional next)
    (others : ∀ next ∈ steps, next.loadTag? ≠ some region) :
    rowsIn region (Phased.run (machine World) system (atOnce steps)).store =
      rowsIn region system.store := by
  induction steps generalizing system with
  | nil => rfl
  | cons next rest ih =>
      have later := ih (run_valid valid (atOnce [next]))
        (fun other member => regional other (List.mem_cons_of_mem next member))
        (fun other member => others other (List.mem_cons_of_mem next member))
      rw [atOnce_cons, run_append, later]
      have first := regional next (by simp)
      cases next with
      | load tag op =>
          obtain ⟨run, rfl, rfl⟩ := first
          have different : run.checkRegion ≠ region := fun same =>
            others (.load run.checkRegion (.worker run)) (by simp) (congrArg some same)
          change rowsIn region (system.call (machine World) (.worker run)).store = _
          rw [call_worker_store, rowsIn_appendHistories, rowsIn_added, if_neg different, List.map_nil,
            List.append_nil]
      | save tag => rfl
      | call op =>
          obtain ⟨userId, id, rfl⟩ := first
          change rowsIn region (system.call (machine World) (.web userId (.setPause id))).store = _
          have store : (system.call (machine World) (.web userId (.setPause id))).store = _ :=
            setPause_store World valid userId id
          rw [store]
          rfl

/-- Around a load no other step loads for its region. -/
theorem others_of_distinct {tag : String} {op : Operation World}
    {before after : List (Step String (Operation World))}
    (distinct : ((before ++ .load tag op :: after).filterMap Step.loadTag?).Nodup) :
    (before.filterMap Step.loadTag?).Nodup ∧ (∀ next ∈ before, next.loadTag? ≠ some tag) ∧
      ∀ next ∈ after, next.loadTag? ≠ some tag := by
  have loads : (Step.load tag op :: after).filterMap Step.loadTag? =
      tag :: after.filterMap Step.loadTag? := rfl
  rw [List.filterMap_append, loads] at distinct
  obtain ⟨distinctBefore, distinctAfter, apart⟩ := List.nodup_append.mp distinct
  refine ⟨distinctBefore, ?_, ?_⟩
  · intro next member loadsToo
    exact apart _ (List.mem_filterMap.mpr ⟨next, member, loadsToo⟩) _ (by simp) rfl
  · intro next member loadsToo
    exact (List.nodup_cons.mp distinctAfter).1 (List.mem_filterMap.mpr ⟨next, member, loadsToo⟩)

theorem rowsIn_of_load {run : TimerRun World} {before after : List (Step String (Operation World))}
    (split : runs.steps = before ++ .load run.checkRegion (.worker run) :: after) :
    rowsIn run.checkRegion runs.final =
      rowsIn run.checkRegion
          (Phased.run (machine World) { store := runs.database.toStore } before).store ++
        ((run.added (Phased.run (machine World) { store := runs.database.toStore } before).store).map
          writtenRow).map Store.unnumbered := by
  have regionalBefore : ∀ next ∈ before, Regional next :=
    fun next member => runs.regional next (by rw [split]; exact List.mem_append_left _ member)
  have regionalAfter : ∀ next ∈ after, Regional next :=
    fun next member => runs.regional next (by
      rw [split]
      exact List.mem_append_right _ (List.mem_cons_of_mem _ member))
  have distinct := runs.distinct
  rw [split] at distinct
  obtain ⟨distinctBefore, othersBefore, othersAfter⟩ := others_of_distinct distinct
  let found : System String World :=
    Phased.run (machine World) { store := runs.database.toStore } before
  let foundAtOnce : System String World :=
    Phased.run (machine World) { store := runs.database.toStore } (atOnce before)
  have ahead : Ahead found foundAtOnce :=
    (ahead_initial World runs.database.toStore).run (working runs.database) runs.database.valid
      regionalBefore distinctBefore (fun _ _ => rfl)
  have free : found.task? run.checkRegion = none := task?_run_none rfl othersBefore
  have ownRows : rowsIn run.checkRegion found.store = rowsIn run.checkRegion foundAtOnce.store := by
    have rows := ahead.rows run.checkRegion
    simpa only [inFlightRows, free, List.append_nil] using rows
  have added : run.added found.store = run.added foundAtOnce.store := by
    simp only [TimerRun.added, TimerRun.batch_congr ahead.monitors ownRows]
  have valid : foundAtOnce.store.Valid := run_valid runs.database.valid _
  have validAfter : (foundAtOnce.call (machine World) (.worker run)).store.Valid :=
    run_valid valid [.call (.worker run)]
  have whole : atOnce runs.steps = atOnce before ++ .call (.worker run) :: atOnce after := by
    rw [split]
    simp [atOnce, Step.op?]
  rw [rowsIn_final, whole, run_append]
  change rowsIn run.checkRegion (Phased.run (machine World)
    (foundAtOnce.call (machine World) (.worker run)) (atOnce after)).store = _
  rw [rowsIn_others validAfter regionalAfter othersAfter,
    call_worker_store, rowsIn_appendHistories, rowsIn_added, if_pos rfl, ← ownRows, ← added]

theorem perm_of_rowsIn {first second : Store}
    (same : ∀ region, rowsIn region first = rowsIn region second) :
    (first.latencyHistories.map Store.unnumbered).Perm
      (second.latencyHistories.map Store.unnumbered) := by
  have selected : ∀ (store : Store) (region : String), rowsIn region store =
      (store.latencyHistories.map Store.unnumbered).filter fun row => row.region = region := by
    intro store region
    rw [List.filter_map]
    rfl
  apply List.perm_iff_count.mpr
  intro row
  have inRegion := same row.region
  rw [selected, selected] at inRegion
  have counted := congrArg (List.count row) inRegion
  rwa [List.count_filter (by simp), List.count_filter (by simp)] at counted

/-- Regional workers are independent: a region's rows are those it would have if
no other region had a worker, and they follow from what its run loads; the order
of the saves does not matter; and every monitor's flag is flipped once for each
SetPause of its owner, with its other columns as they were. -/
theorem regions_independent (runs : RegionalRuns World) :
    (∀ region, rowsIn region runs.final =
      rowsIn region (Phased.run (machine World)
        ({ store := runs.database.toStore } : System String World)
        (runs.steps.filter (concerns region))).store) ∧
    (∀ (run : TimerRun World) before after,
      runs.steps = before ++ .load run.checkRegion (.worker run) :: after →
      let loaded := (Phased.run (machine World)
        ({ store := runs.database.toStore } : System String World) before).store
      rowsIn run.checkRegion runs.final =
        rowsIn run.checkRegion loaded ++ ((run.added loaded).map writtenRow).map Store.unnumbered ∧
      ∀ other : Store, other.urlMonitors = loaded.urlMonitors →
        rowsIn run.checkRegion other = rowsIn run.checkRegion loaded →
        run.added other = run.added loaded) ∧
    (∀ other : RegionalRuns World, other.database.toStore = runs.database.toStore →
      other.steps.filterMap Step.op? = runs.steps.filterMap Step.op? →
      (other.final.latencyHistories.map Store.unnumbered).Perm
        (runs.final.latencyHistories.map Store.unnumbered)) ∧
    runs.final.urlMonitors = runs.database.urlMonitors.map (pausedBy runs.steps) := by
  refine ⟨?alone, ?determined, ?order, monitors_run (working runs.database) runs.regional⟩
  case alone =>
    intro region
    have started : Alike region ({ store := runs.database.toStore } : System String World)
        { store := runs.database.toStore } := ⟨rfl, rfl, rfl⟩
    exact (started.run (working runs.database) (working runs.database) runs.regional).rows
  case determined =>
    intro run before after split
    refine ⟨rowsIn_of_load runs split, fun other monitors rows => ?_⟩
    simp only [TimerRun.added, TimerRun.batch_congr monitors rows]
  case order =>
    intro other sameStore sameOrder
    apply perm_of_rowsIn
    intro region
    rw [rowsIn_final, rowsIn_final, atOnce, atOnce, sameStore, sameOrder]

def oneOfAlice : Database where
  urlMonitors := [{ id := 1, ownerId := "alice", url := "https://a.example", createdAt := 10 }]
  nextMonitorId := 2
  valid := by decide

def upIn (region : String) : TimerRun Unit where
  regionName := some region
  now := 1000
  checker := fun _ _ world =>
    .ok ({ isUp := true, latencyMs := some 20, checkedAt := 1000, statusCode := 200 }, world)
  world := ()

/-- Two regions load, Alice pauses her monitor, and they save in one order or the other. -/
def twoRegions (first second : Step String (Operation Unit)) : List (Step String (Operation Unit)) :=
  [.load "eastus" (.worker (upIn "eastus")), .load "westus" (.worker (upIn "westus")),
    .call (.web (some "alice") (.setPause 1)), first, second]

def eastFirst : RegionalRuns Unit where
  database := oneOfAlice
  steps := twoRegions (.save "eastus") (.save "westus")
  regional := by simp [twoRegions, Regional, upIn, TimerRun.checkRegion]
  distinct := by decide
  complete := by decide

def westFirst : RegionalRuns Unit where
  database := oneOfAlice
  steps := twoRegions (.save "westus") (.save "eastus")
  regional := by simp [twoRegions, Regional, upIn, TimerRun.checkRegion]
  distinct := by decide
  complete := by decide

theorem regions_independent_two_regions :
    rowsIn "eastus" eastFirst.final =
      rowsIn "eastus" oneOfAlice.toStore ++
        (((upIn "eastus").added oneOfAlice.toStore).map writtenRow).map Store.unnumbered ∧
    (westFirst.final.latencyHistories.map Store.unnumbered).Perm
      (eastFirst.final.latencyHistories.map Store.unnumbered) ∧
    eastFirst.final.urlMonitors = oneOfAlice.urlMonitors.map (pausedBy eastFirst.steps) := by
  obtain ⟨-, determined, order, monitors⟩ := regions_independent eastFirst
  exact ⟨(determined (upIn "eastus") [] _ rfl).1, order westFirst rfl rfl, monitors⟩

end RegionalRuns

end UrlPulse
