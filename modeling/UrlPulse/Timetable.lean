import UrlPulse.Data.Throttle
import UrlPulse.Deletion

namespace UrlPulse

open UrlPulse.Core UrlPulse.Infrastructure UrlPulse.Web UrlPulse.Worker UrlPulse.Data
open UrlPulse.Data.Phased

/-! # The runs of one region

The runs follow each other, each saved before the next one loads, while requests
and other regions' runs go on around them.  What a run reads of a monitor in its
own region is what the runs before it have left.
-/

variable {World Tag : Type} {store after : Store} {region : String} {id : Int}

/-- The rows of a monitor in a region, oldest first. -/
def rowsOf (id : Int) (region : String) (store : Store) : List LatencyHistory :=
  (historyIn region store).filter fun row => row.urlMonitorId = id

def times (id : Int) (region : String) (store : Store) : List Int :=
  (rowsOf id region store).map fun row => (row.checkedAt : Int)

/-- The least distance the worker keeps between two checks of a monitor. -/
def gap (monitor : UrlMonitor) : Int :=
  TimeSpan.fullTicks (thresholdSeconds monitor).toInt

/-! ## What others cannot do -/

/-- A statement that inserts no row of the region, except the first of a new monitor. -/
def Foreign (region : String) : EntityEntry → Prop
  | .addedHistory row => row.region ≠ region
  | .addedMonitor _ history => ∃ row, history = [writtenRow row]
  | _ => True

theorem foreign_load {op : Operation World}
    (other : ∀ run, op = .worker run → run.checkRegion ≠ region) (store : Store) :
    ∀ entry ∈ (op.load store).statements, Foreign region entry := by
  intro entry member
  rcases load_cases op store with
    none | ⟨userId, checker, world, utcNow, form, result, rfl, statements, -⟩ |
    ⟨userId, id, monitor, rfl, -, loaded⟩ | ⟨userId, id, monitor, rfl, -, loaded⟩ |
    ⟨run, rows, rfl, batched, loaded⟩
  · rw [none] at member
    contradiction
  · rw [statements] at member
    rw [List.mem_singleton.mp member]
    exact ⟨_, rfl⟩
  · rw [loaded] at member
    rw [List.mem_singleton.mp member]
    trivial
  · rw [loaded] at member
    rw [List.mem_singleton.mp member]
    trivial
  · rw [loaded] at member
    obtain ⟨tracked, inserted, rfl⟩ := List.mem_map.mp member
    obtain ⟨row, inBatch, rfl⟩ := List.mem_map.mp inserted
    have tagged := ((TimerRun.batch_rows batched).2 row inBatch).1
    exact fun same => other run rfl (tagged.symm.trans same)

/-- A step that neither names the region's tag nor starts a run of the region. -/
def Apart (region : String) (tag : Tag) (next : Step Tag (Operation World)) : Prop :=
  next.tag? ≠ some tag ∧ ∀ run, next.op? = some (.worker run) → run.checkRegion ≠ region

/-- Nothing in flight is a run of the region, except perhaps under its own tag. -/
def OthersForeign (region : String) (tag : Tag) (system : System Tag World) : Prop :=
  ∀ task ∈ system.inFlight, task.tag ≠ tag → ∀ entry ∈ task.pending.statements, Foreign region entry

theorem OthersForeign.begin {tag : Tag} {system : System Tag World} (op : Operation World)
    (others : OthersForeign region tag system) :
    OthersForeign region tag (system.begin (machine World) tag op) := by
  intro task inFlight elsewhere
  rcases List.mem_append.mp inFlight with old | new
  · exact others task old elsewhere
  · rw [List.mem_singleton.mp new] at elsewhere
    contradiction

variable [DecidableEq Tag]

theorem apart_invariant {P : Store → Prop}
    (kept : ∀ entry before next, Foreign region entry → P before → EntityEntry.apply entry before = .ok next →
      P next)
    {tag : Tag} {system : System Tag World} {steps : List (Step Tag (Operation World))}
    (apart : ∀ next ∈ steps, Apart region tag next)
    (others : OthersForeign region tag system) (initial : P system.store) :
    P (Phased.run (machine World) system steps).store ∧
      OthersForeign region tag (Phased.run (machine World) system steps) := by
  refine run_invariant (P := fun current => P current.store ∧ OthersForeign region tag current) ?_
    ⟨initial, others⟩
  intro next member current before
  obtain ⟨held, foreign⟩ := before
  obtain ⟨unnamed, unrelated⟩ := apart next member
  have saves : ∀ pending : Pending, (∀ entry ∈ pending.statements, Foreign region entry) →
      P (pending.save current.store).2 := fun pending all =>
    Pending.save_invariant (fun entry inside before after => kept entry before after (all entry inside)) held
  rcases step_cases (machine World) current next with
    same | ⟨other, op, rfl, -, begun⟩ | ⟨task, rfl, inFlight, committed⟩ | ⟨op, rfl, called⟩
  · rw [same]
    exact ⟨held, foreign⟩
  · rw [begun]
    refine ⟨held, ?_⟩
    intro task inFlight elsewhere
    rcases List.mem_append.mp inFlight with old | new
    · exact foreign task old elsewhere
    · rw [List.mem_singleton.mp new]
      exact foreign_load (fun run starts => unrelated run (congrArg some starts)) current.store
  · have elsewhere : task.tag ≠ tag := fun same => unnamed (congrArg some same)
    rw [committed]
    refine ⟨saves task.pending (foreign task inFlight elsewhere), ?_⟩
    intro other remaining
    exact foreign other (List.mem_of_mem_filter remaining)
  · rw [called]
    have loaded := foreign_load (fun run starts => unrelated run (congrArg some starts)) current.store
    exact ⟨saves _ loaded, foreign⟩

/-- A monitor's rows in the region are what they were, unless it is gone. -/
structure Undisturbed (id : Int) (region : String) (rows : List LatencyHistory) (store : Store) : Prop where
  issued : id < store.nextMonitorId
  rows : id ∈ store.monitorIds → rowsOf id region store = rows
  valid : store.Valid

theorem rowsOf_appendHistories (rows : List LatencyHistory) (store : Store) :
    rowsOf id region (store.appendHistories rows) = rowsOf id region store ++
      (Store.numbered store.nextHistoryId rows).filter
        fun row => row.urlMonitorId = id && row.region = region := by
  simp only [rowsOf, historyIn, Store.appendHistories, List.filter_append, List.filter_filter]

theorem rowsOf_append_others {rows : List LatencyHistory} (store : Store)
    (others : ∀ row ∈ rows, row.urlMonitorId ≠ id ∨ row.region ≠ region) :
    rowsOf id region (store.appendHistories rows) = rowsOf id region store := by
  rw [rowsOf_appendHistories]
  refine List.append_right_eq_self.mpr (List.filter_eq_nil_iff.mpr fun row member => ?_)
  obtain ⟨source, inside, same⟩ := (Store.mem_numbered member).1
  rw [same]
  rcases others source inside with otherMonitor | otherRegion
  · simp [otherMonitor]
  · simp [otherRegion]

theorem rowsOf_insertMonitor (monitor : UrlMonitor) (history : List LatencyHistory)
    (issued : id < store.nextMonitorId) :
    rowsOf id region (store.insertMonitor monitor history) = rowsOf id region store := by
  refine rowsOf_append_others _ fun row member => .inl ?_
  obtain ⟨source, -, rfl⟩ := List.mem_map.mp member
  exact (Int.ne_of_lt issued).symm

theorem rowsOf_without {other : Int} (different : id ≠ other) (store : Store) :
    rowsOf id region (store.without other) = rowsOf id region store := by
  simp only [rowsOf, historyIn, Store.without, List.filter_filter]
  apply List.filter_congr
  intro row _
  by_cases points : row.urlMonitorId = id
  · simp [points, different]
  · simp [points]

theorem Undisturbed.apply {rows : List LatencyHistory} {entry : EntityEntry}
    (foreign : Foreign region entry) (undisturbed : Undisturbed id region rows store)
    (applied : entry.apply store = .ok after) : Undisturbed id region rows after := by
  have issued := undisturbed.issued
  have valid := EntityEntry.apply_valid undisturbed.valid applied
  rcases EntityEntry.apply_cases applied with
    ⟨monitor, history, rfl, -, rfl⟩ | ⟨row, rfl, -, rfl⟩ | ⟨other, isPaused, rfl, -, rfl⟩ | ⟨other, rfl, -, rfl⟩
  · refine ⟨?_, ?_, valid⟩
    · simp only [Store.insertMonitor, Store.appendHistories]
      omega
    · intro stored
      have before : id ∈ store.monitorIds := by
        simp only [Store.monitorIds, Store.insertMonitor, Store.appendHistories, List.map_append,
          List.mem_append, List.map_cons, List.map_nil, List.mem_singleton] at stored
        rcases stored with old | new
        · exact old
        · omega
      rw [rowsOf_insertMonitor monitor history issued]
      exact undisturbed.rows before
  · refine ⟨issued, ?_, valid⟩
    intro stored
    rw [← undisturbed.rows stored]
    refine rowsOf_append_others store fun inserted member => .inr ?_
    rw [List.mem_singleton.mp member]
    exact foreign
  · refine ⟨issued, ?_, valid⟩
    intro stored
    rw [Store.setPaused_monitorIds] at stored
    exact undisturbed.rows stored
  · refine ⟨issued, ?_, valid⟩
    intro stored
    obtain ⟨before, different⟩ := Store.mem_without_monitorIds.mp stored
    rw [rowsOf_without different]
    exact undisturbed.rows before

/-! ## The runs -/

/-- Successive runs of one region's worker, and what else happens before each
load and between each load and its save. -/
structure Timetable (Tag World : Type) where
  database : Database
  region : String
  tag : Tag
  run : Nat → TimerRun World
  before : Nat → List (Step Tag (Operation World))
  during : Nat → List (Step Tag (Operation World))
  ofRegion : ∀ i, (run i).checkRegion = region
  apartBefore : ∀ i, ∀ next ∈ before i, Apart region tag next
  apartDuring : ∀ i, ∀ next ∈ during i, Apart region tag next

namespace Timetable

variable (timetable : Timetable Tag World)

def untilSave (i : Nat) : List (Step Tag (Operation World)) :=
  timetable.before i ++ .load timetable.tag (.worker (timetable.run i)) :: timetable.during i

def system : Nat → System Tag World
  | 0 => { store := timetable.database.toStore }
  | i + 1 => Phased.run (machine World) (system i) (timetable.untilSave i ++ [.save timetable.tag])

def loaded (i : Nat) : Store :=
  (Phased.run (machine World) (timetable.system i) (timetable.before i)).store

/-- The store its save finds. -/
def found (i : Nat) : Store :=
  (Phased.run (machine World) (timetable.system i) (timetable.untilSave i)).store

def saved (i : Nat) : Store := (timetable.system (i + 1)).store

/-- The stores there are from one save of the region to the next. -/
inductive Passes (timetable : Timetable Tag World) (i : Nat) : Store → Prop where
  | beforeLoad (steps : List (Step Tag (Operation World))) : steps <+: timetable.before i →
      Passes timetable i (Phased.run (machine World) (timetable.system i) steps).store
  | beforeSave (steps : List (Step Tag (Operation World))) : steps <+: timetable.during i →
      Passes timetable i (Phased.run (machine World) (timetable.system i)
        (timetable.before i ++ .load timetable.tag (.worker (timetable.run i)) :: steps)).store
  | saved : Passes timetable i (timetable.saved i)

def checks (id : Int) (i : Nat) : Prop :=
  ∃ monitor ∈ (timetable.run i).due (timetable.loaded i), monitor.id = id

/-- Run `i` ends with its save going through. -/
def commits (i : Nat) : Prop :=
  ((loadRun (timetable.run i) (timetable.loaded i)).save (timetable.found i)).1 = .completed

instance (id : Int) (i : Nat) : Decidable (timetable.checks id i) :=
  inferInstanceAs (Decidable (∃ monitor ∈ (timetable.run i).due (timetable.loaded i), monitor.id = id))

instance (i : Nat) : Decidable (timetable.commits i) :=
  inferInstanceAs (Decidable
    (((loadRun (timetable.run i) (timetable.loaded i)).save (timetable.found i)).1 = .completed))

variable {timetable}

/-- Between two runs the region's tag is free and nothing of the region is in flight. -/
structure Settled (timetable : Timetable Tag World) (system : System Tag World) : Prop where
  valid : system.store.Valid
  free : system.task? timetable.tag = none
  others : OthersForeign timetable.region timetable.tag system

theorem Settled.before {i : Nat} (settled : timetable.Settled (timetable.system i)) :
    timetable.Settled (Phased.run (machine World) (timetable.system i) (timetable.before i)) where
  valid := run_valid settled.valid _
  free := by
    rw [task?_run_of_others _ _ fun next member => (timetable.apartBefore i next member).1]
    exact settled.free
  others := (apart_invariant (P := fun _ => True) (fun _ _ _ _ _ _ => trivial)
    (timetable.apartBefore i) settled.others trivial).2

theorem run_loaded {i : Nat} (settled : timetable.Settled (timetable.system i))
    (steps : List (Step Tag (Operation World))) :
    Phased.run (machine World) (timetable.system i)
        (timetable.before i ++ .load timetable.tag (.worker (timetable.run i)) :: steps) =
      Phased.run (machine World)
        ((Phased.run (machine World) (timetable.system i) (timetable.before i)).begin (machine World)
          timetable.tag (.worker (timetable.run i)))
        steps := by
  have free := settled.before.free
  rw [run_append]
  simp only [Phased.run, step, free]

theorem system_succ {i : Nat} (settled : timetable.Settled (timetable.system i)) :
    timetable.system (i + 1) =
      (Phased.run (machine World) (timetable.system i) (timetable.untilSave i)).commit (machine World)
        ⟨timetable.tag, .worker (timetable.run i), loadRun (timetable.run i) (timetable.loaded i)⟩ :=
  run_load_save (machine World) (timetable.system i) (.worker (timetable.run i)) settled.free
    (fun next member => (timetable.apartBefore i next member).1)
    (fun next member => (timetable.apartDuring i next member).1)

theorem settled (i : Nat) : timetable.Settled (timetable.system i) := by
  induction i with
  | zero => exact ⟨timetable.database.valid, rfl, fun _ member => by contradiction⟩
  | succ i ih =>
      have during : OthersForeign timetable.region timetable.tag
          (Phased.run (machine World) (timetable.system i) (timetable.untilSave i)) := by
        rw [untilSave, run_loaded ih]
        exact (apart_invariant (P := fun _ => True) (fun _ _ _ _ _ _ => trivial)
          (timetable.apartDuring i) (ih.before.others.begin _) trivial).2
      refine ⟨run_valid ih.valid _, ?_, ?_⟩
      · rw [system_succ ih]
        exact Config.task?_commit (machine World) _
      · rw [system_succ ih]
        intro task remaining
        exact during task (List.mem_of_mem_filter remaining)

theorem saved_eq (i : Nat) : timetable.saved i =
    ((loadRun (timetable.run i) (timetable.loaded i)).save (timetable.found i)).2 := by
  rw [saved, system_succ (settled i)]
  rfl

section Kept

variable {P : Store → Prop}
  (kept : ∀ entry before next, Foreign timetable.region entry → P before →
    EntityEntry.apply entry before = .ok next → P next)
include kept

theorem kept_before {i : Nat} {steps : List (Step Tag (Operation World))}
    (inside : steps <+: timetable.before i) (initial : P (timetable.system i).store) :
    P (Phased.run (machine World) (timetable.system i) steps).store :=
  (apart_invariant kept (fun next member => timetable.apartBefore i next (inside.subset member))
    (settled i).others initial).1

theorem kept_loaded {i : Nat} (initial : P (timetable.system i).store) : P (timetable.loaded i) :=
  kept_before kept (List.prefix_refl _) initial

theorem kept_during {i : Nat} {steps : List (Step Tag (Operation World))}
    (inside : steps <+: timetable.during i) (initial : P (timetable.loaded i)) :
    P (Phased.run (machine World) (timetable.system i)
      (timetable.before i ++ .load timetable.tag (.worker (timetable.run i)) :: steps)).store := by
  rw [run_loaded (settled i)]
  exact (apart_invariant kept (fun next member => timetable.apartDuring i next (inside.subset member))
    ((settled i).before.others.begin _) initial).1

theorem kept_found {i : Nat} (initial : P (timetable.loaded i)) : P (timetable.found i) :=
  kept_during kept (List.prefix_refl _) initial

end Kept

theorem loaded_valid (i : Nat) : (timetable.loaded i).Valid := run_valid (settled i).valid _

/-! ## What one run does to the rows of a monitor -/

/-- A save appends the whole batch, or changes nothing because the loop threw or
a monitor of the batch is gone. -/
theorem saved_cases (timetable : Timetable Tag World) (i : Nat) :
    (∃ rows, (timetable.run i).batch (timetable.loaded i) = .ok rows ∧
      timetable.commits i ∧
      timetable.saved i = (timetable.found i).appendHistories (rows.map writtenRow)) ∨
    (¬ timetable.commits i ∧ timetable.saved i = timetable.found i ∧
      ∀ rows, (timetable.run i).batch (timetable.loaded i) = .ok rows →
        ∃ row ∈ rows, row.urlMonitorId ∉ (timetable.found i).monitorIds) := by
  rw [saved_eq, commits]
  cases batched : (timetable.run i).batch (timetable.loaded i) with
  | error fault =>
      rw [loadRun_error batched, Pending.save_of_no_statements rfl]
      refine .inr ⟨by simp, rfl, ?_⟩
      intro rows same
      contradiction
  | ok rows =>
      rw [loadRun_ok batched, Pending.save_batch]
      by_cases referenced : ∀ row ∈ rows, row.urlMonitorId ∈ (timetable.found i).monitorIds
      · rw [if_pos referenced]
        exact .inl ⟨rows, rfl, rfl, rfl⟩
      · rw [if_neg referenced]
        refine .inr ⟨by simp, rfl, ?_⟩
        intro inserted same
        cases same
        simpa using referenced

theorem saved_monitorIds (i : Nat) : (timetable.saved i).monitorIds = (timetable.found i).monitorIds := by
  rcases timetable.saved_cases i with ⟨rows, -, -, saved⟩ | ⟨-, saved, -⟩
  · rw [saved]
    rfl
  · rw [saved]

/-- The time that the row of a run's check carries once it is stored. -/
def stamp (timetable : Timetable Tag World) (id : Int) (i : Nat) : Int :=
  match ((timetable.run i).added (timetable.loaded i)).find? fun row => row.urlMonitorId = id with
  | some row => timestamptz row.checkedAt
  | none => (timetable.run i).now

/-- A committed run appends the row of its check, or no row if it did not check. -/
theorem rowsOf_saved {i : Nat} (committed : timetable.commits i) (id : Int) :
    (timetable.checks id i ∧
      (∃ row, ((timetable.run i).added (timetable.loaded i)).find?
          (fun row => row.urlMonitorId = id) = some row ∧
          timetable.stamp id i = timestamptz row.checkedAt) ∧
      ∃ row : LatencyHistory, (row.checkedAt : Int) = timetable.stamp id i ∧
        rowsOf id timetable.region (timetable.saved i) =
          rowsOf id timetable.region (timetable.found i) ++ [row]) ∨
    (¬ timetable.checks id i ∧
      rowsOf id timetable.region (timetable.saved i) =
        rowsOf id timetable.region (timetable.found i)) := by
  rcases timetable.saved_cases i with ⟨rows, batched, -, saved⟩ | ⟨failed, -⟩
  · have added : (timetable.run i).added (timetable.loaded i) = rows := by
      simp only [TimerRun.added, batched]
    have inRegion : ∀ row ∈ rows, row.region = timetable.region := fun row member =>
      ((TimerRun.batch_rows batched).2 row member).1.trans (timetable.ofRegion i)
    have numbered := Store.filter_numbered
      (fun row => row.urlMonitorId = id && row.region = timetable.region) (fun _ _ => rfl)
      (timetable.found i).nextHistoryId (rows.map writtenRow)
    have ownRows : ((rows.map writtenRow).filter
          fun row => row.urlMonitorId = id && row.region = timetable.region) =
        (rows.filter fun row => row.urlMonitorId = id).map writtenRow := by
      rw [List.filter_map]
      exact congrArg (List.map writtenRow)
        (List.filter_congr fun row member => by simp [writtenRow, inRegion row member])
    rw [saved, rowsOf_appendHistories, added]
    rcases TimerRun.batch_rowsFor (loaded_valid i) batched id with
      ⟨due, row, -, -, single⟩ | ⟨idle, empty⟩
    · have first : rows.find? (fun row => row.urlMonitorId = id) = some row := by
        rw [← List.head?_filter, single, List.head?_cons]
      have stamped : timetable.stamp id i = timestamptz row.checkedAt := by
        simp only [stamp, added, first]
      rw [ownRows, single, List.map_singleton] at numbered
      obtain ⟨stored, shape, same⟩ := List.map_eq_singleton_iff.mp numbered
      have checkedAt : stored.checkedAt = timestamptz row.checkedAt := congrArg (·.checkedAt) same
      refine .inl ⟨due, ⟨row, first, stamped⟩, stored, ?_, by rw [shape]⟩
      rw [stamped, checkedAt]
    · rw [ownRows, empty] at numbered
      exact .inr ⟨idle, by rw [List.map_eq_nil_iff.mp numbered, List.append_nil]⟩
  · contradiction

/-! ## From run to run -/

theorem issued_saved {i : Nat} (issued : id < (timetable.found i).nextMonitorId) :
    id < (timetable.saved i).nextMonitorId := by
  rcases timetable.saved_cases i with ⟨rows, -, -, saved⟩ | ⟨-, saved, -⟩
  · rw [saved]
    exact issued
  · rw [saved]
    exact issued

theorem found_undisturbed {i : Nat} (issued : id < (timetable.loaded i).nextMonitorId) :
    Undisturbed id timetable.region (rowsOf id timetable.region (timetable.loaded i))
      (timetable.found i) :=
  kept_found (fun _ _ _ foreign held applied => held.apply foreign applied)
    ⟨issued, fun _ => rfl, loaded_valid i⟩

theorem rowsOf_loaded_succ {i : Nat} (issued : id < (timetable.saved i).nextMonitorId)
    (stored : id ∈ (timetable.loaded (i + 1)).monitorIds) :
    id ∈ (timetable.saved i).monitorIds ∧
      rowsOf id timetable.region (timetable.loaded (i + 1)) =
        rowsOf id timetable.region (timetable.saved i) := by
  have valid : (timetable.saved i).Valid := (settled (i + 1)).valid
  constructor
  · by_contra absent
    have gone : Gone id (timetable.loaded (i + 1)) :=
      (Gone.of_absent valid issued absent).run (timetable.before (i + 1))
    exact gone.absent stored
  · have undisturbed : Undisturbed id timetable.region
        (rowsOf id timetable.region (timetable.saved i)) (timetable.loaded (i + 1)) :=
      kept_loaded (fun _ _ _ foreign held applied => held.apply foreign applied)
        ⟨issued, fun _ => rfl, valid⟩
    exact undisturbed.rows stored

/-! ## The runs as attempts -/

variable {monitor : UrlMonitor}

theorem checks_iff_due {i : Nat} (stored : monitor ∈ (timetable.loaded i).urlMonitors)
    (running : monitor.isActive = true ∧ monitor.isPaused = false) :
    timetable.checks monitor.id i ↔
      Throttle.due (gap monitor) (times monitor.id timetable.region (timetable.loaded i))
        (timetable.run i).now = true := by
  have decided : isDue (timetable.run i).now monitor
      (includedHistory (timetable.run i).checkRegion (timetable.loaded i) monitor).head? = true ↔
        Throttle.due (gap monitor) (times monitor.id timetable.region (timetable.loaded i))
          (timetable.run i).now = true := by
    rw [gap, isDue_iff, Throttle.due_iff, times, List.forall_mem_map, timetable.ofRegion i]
    simp only [rowsOf, List.mem_filter, decide_eq_true_eq, and_imp]
  rw [← decided]
  constructor
  · intro checked
    obtain ⟨other, due, same⟩ := checked
    obtain ⟨⟨otherStored, -⟩, otherDue⟩ := TimerRun.mem_due_iff.mp due
    rw [(loaded_valid i).monitor_unique otherStored stored same] at otherDue
    exact otherDue
  · intro due
    exact ⟨monitor, TimerRun.mem_due_iff.mpr ⟨⟨stored, running⟩, due⟩, rfl⟩

def attempts (timetable : Timetable Tag World) (monitor : UrlMonitor) : Throttle.Attempts where
  gap := gap monitor
  initial := times monitor.id timetable.region (timetable.loaded 0)
  now i := (timetable.run i).now
  stamp := timetable.stamp monitor.id

/-- The monitor is loaded by every run up to `last` and neither inactive nor paused. -/
def Watched (timetable : Timetable Tag World) (monitor : UrlMonitor) (last : Nat) : Prop :=
  ∀ i ≤ last, monitor ∈ (timetable.loaded i).urlMonitors ∧
    monitor.isActive = true ∧ monitor.isPaused = false

instance (monitor : UrlMonitor) (last : Nat) : Decidable (timetable.Watched monitor last) :=
  inferInstanceAs (Decidable (∀ i ≤ last, monitor ∈ (timetable.loaded i).urlMonitors ∧
    monitor.isActive = true ∧ monitor.isPaused = false))

/-- The time stamps each run loads are those the attempts before it have recorded. -/
theorem times_loaded {last : Nat} (watched : timetable.Watched monitor last)
    (committed : ∀ i < last, timetable.commits i) :
    times monitor.id timetable.region (timetable.loaded last) =
      (timetable.attempts monitor).recorded last := by
  induction last with
  | zero => rfl
  | succ i ih =>
      have before : timetable.Watched monitor i := fun j bound => watched j (by omega)
      have known := ih before fun j bound => committed j (by omega)
      obtain ⟨stored, running⟩ := before i le_rfl
      have issued : monitor.id < (timetable.loaded i).nextMonitorId :=
        (loaded_valid i).monitorIssued _ (Store.mem_monitorIds.mpr ⟨monitor, stored, rfl⟩)
      have undisturbed := found_undisturbed issued
      obtain ⟨remains, later⟩ := rowsOf_loaded_succ (issued_saved undisturbed.issued)
        (Store.mem_monitorIds.mpr ⟨monitor, (watched (i + 1) le_rfl).1, rfl⟩)
      rw [saved_monitorIds] at remains
      have unchanged := undisturbed.rows remains
      have decided := checks_iff_due stored running
      rw [known] at decided
      rw [times, later, Throttle.Attempts.recorded]
      rcases rowsOf_saved (committed i (by omega)) monitor.id with
        ⟨checked, -, row, stamped, extended⟩ | ⟨skipped, same⟩
      · have fired : Throttle.due (timetable.attempts monitor).gap
            ((timetable.attempts monitor).recorded i) ((timetable.attempts monitor).now i) = true :=
          decided.mp checked
        rw [if_pos fired, ← known, extended, unchanged, List.map_append, List.map_singleton, stamped]
        rfl
      · have idle : ¬ Throttle.due (timetable.attempts monitor).gap
            ((timetable.attempts monitor).recorded i) ((timetable.attempts monitor).now i) = true :=
          fun due => skipped (decided.mpr due)
        rw [if_neg idle, ← known, same, unchanged]
        rfl

theorem checks_iff_fires {last : Nat} (watched : timetable.Watched monitor last)
    (committed : ∀ i < last, timetable.commits i) :
    timetable.checks monitor.id last ↔ (timetable.attempts monitor).fires last = true := by
  obtain ⟨stored, running⟩ := watched last le_rfl
  rw [checks_iff_due stored running, times_loaded watched committed]
  rfl

/-! ## Runs that nothing else comes between -/

def quiet (database : Database) (region : String) (tag : Tag) (run : Nat → TimerRun World)
    (ofRegion : ∀ i, (run i).checkRegion = region) : Timetable Tag World where
  database := database
  region := region
  tag := tag
  run := run
  before _ := []
  during _ := []
  ofRegion := ofRegion
  apartBefore := by simp
  apartDuring := by simp

section Quiet

variable {database : Database} {tag : Tag} {run : Nat → TimerRun World}
  {ofRegion : ∀ i, (run i).checkRegion = region}

theorem quiet_found (i : Nat) :
    (quiet database region tag run ofRegion).found i = (quiet database region tag run ofRegion).loaded i := by
  rw [found, untilSave, run_loaded (settled i)]
  rfl

theorem quiet_urlMonitors (i : Nat) :
    ((quiet database region tag run ofRegion).loaded i).urlMonitors = database.urlMonitors := by
  induction i with
  | zero => rfl
  | succ i ih =>
      have next : (quiet database region tag run ofRegion).loaded (i + 1) =
          (quiet database region tag run ofRegion).saved i := rfl
      rw [next]
      rcases (quiet database region tag run ofRegion).saved_cases i with ⟨rows, -, -, saved⟩ | ⟨-, saved, -⟩
      · rw [saved, quiet_found]
        exact ih
      · rw [saved, quiet_found]
        exact ih

theorem quiet_commits {i : Nat} {rows : List LatencyHistory}
    (batched : (run i).batch ((quiet database region tag run ofRegion).loaded i) = .ok rows) :
    (quiet database region tag run ofRegion).commits i := by
  rcases (quiet database region tag run ofRegion).saved_cases i with
    ⟨-, -, committed, -⟩ | ⟨-, -, missing⟩
  · exact committed
  · obtain ⟨row, member, absent⟩ := missing rows batched
    rw [quiet_found] at absent
    have listed : row.urlMonitorId ∈ rows.map (·.urlMonitorId) := List.mem_map_of_mem member
    rw [(TimerRun.batch_rows batched).1] at listed
    obtain ⟨monitor, due, key⟩ := List.mem_map.mp listed
    exact absurd (Store.mem_monitorIds.mpr ⟨monitor, (TimerRun.mem_due_iff.mp due).1.1, key⟩) absent

end Quiet

end Timetable

end UrlPulse
