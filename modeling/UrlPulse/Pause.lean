import UrlPulse.Journal

namespace UrlPulse

open UrlPulse.Core UrlPulse.Infrastructure UrlPulse.Web UrlPulse.Worker UrlPulse.Data
open UrlPulse.Data.Phased (Step Keeps Along)

/-! # A paused monitor

Nothing recalls a check that is under way when its monitor is paused, and no new one
starts.  So a paused monitor still gets the rows that runs hold for it, and no others:
its rows and the rows held together never grow.
-/

variable {World Tag : Type} [DecidableEq Tag] {store : Store} {id : Int} {system : System Tag World}

/-- An operation under way holds a row for the monitor. -/
def holds (id : Int) (pending : Pending) : Bool :=
  pending.statements.any fun entry =>
    match entry with
    | .addedHistory row => row.urlMonitorId = id
    | _ => false

def underWay (id : Int) (system : System Tag World) : Nat :=
  system.inFlight.countP fun task => holds id task.pending

def Paused (id : Int) (store : Store) : Prop :=
  ∀ monitor ∈ store.urlMonitors, monitor.id = id → monitor.isPaused = true

instance (id : Int) (store : Store) : Decidable (Paused id store) :=
  inferInstanceAs (Decidable (∀ monitor ∈ store.urlMonitors, monitor.id = id → monitor.isPaused = true))

theorem holds_batch {context : ApplicationDbContext} {response : Response} {rows : List LatencyHistory}
    (entries : context.entries = rows.map .addedHistory) :
    holds id { context, response } = rows.any fun row => row.urlMonitorId = id := by
  simp [holds, Pending.statements, entries, List.any_map, Function.comp_def, writtenRow]

/-- No load finds a paused monitor due. -/
theorem not_holds_of_paused (op : Operation World) (paused : Paused id store) (valid : store.Valid) :
    holds id (op.load store) = false := by
  rcases load_cases op store with
    none | ⟨userId, checker, world, utcNow, form, result, -, statements, -⟩ |
    ⟨userId, target, monitor, -, -, loaded⟩ | ⟨userId, target, monitor, -, -, loaded⟩ |
    ⟨run, rows, -, batched, loaded⟩
  · simp [holds, none]
  · simp [holds, statements]
  · rw [loaded]
    rfl
  · rw [loaded]
    rfl
  · rw [loaded, holds_batch rfl]
    rcases TimerRun.batch_rowsFor valid batched id with ⟨⟨monitor, due, key⟩, -⟩ | ⟨-, none⟩
    · have selected := (TimerRun.mem_due_iff.mp due).1
      rw [paused monitor selected.1 key] at selected
      exact absurd selected.2.2 Bool.noConfusion
    · simpa using List.filter_eq_nil_iff.mp none

/-- Once the key is out, only what an operation holds for it is recorded. -/
theorem length_savedRows_le_holds (store : Store) {found : Store} (op : Operation World) (valid : found.Valid)
    (issued : id < store.nextMonitorId) :
    (savedRows id store (op.load found)).length ≤ (holds id (op.load found)).toNat := by
  cases held : holds id (op.load found) with
  | true => exact length_savedRows_le op valid
  | false =>
      rw [savedRows_eq_nil]
      · exact Nat.le_refl 0
      · intro entry member
        have other := List.any_eq_false.mp held entry member
        cases entry with
        | addedMonitor monitor history => exact if_neg (Int.ne_of_gt issued)
        | addedHistory row => exact if_neg (by simpa using other)
        | modifiedIsPaused target isPaused => rfl
        | deletedMonitor target => rfl

theorem underWay_commit (id : Int) {task : Phased.Task Tag (Operation World) Pending}
    (nodup : (system.inFlight.map (·.tag)).Nodup) (member : task ∈ system.inFlight) :
    (holds id task.pending).toNat + underWay id (system.commit (machine World) task) =
      underWay id system := by
  have same := (Phased.Config.commit_perm (machine World) nodup member).countP_eq
    fun task => holds id task.pending
  rw [List.countP_cons, Nat.add_comm] at same
  rw [underWay, underWay, ← same]
  cases holds id task.pending <;> rfl

structure Calm (id : Int) (system : System Tag World) : Prop where
  keeps : Keeps Store.Valid FromLoad system
  nodup : (system.inFlight.map (·.tag)).Nodup
  issued : id < system.store.nextMonitorId

theorem Calm.step (calm : Calm id system) (next : Step Tag (Operation World)) :
    Calm id (Phased.step (machine World) system next) where
  keeps := keeps_fromLoad_run calm.keeps [next]
  nodup := Phased.nodup_tags_step _ next calm.nodup
  issued := issued_run calm.issued [next]

/-- A step moves rows from what is held to the history, or drops them. -/
theorem step_underWay (calm : Calm id system) (paused : Paused id system.store)
    (next : Step Tag (Operation World)) :
    (stepRows id system next).length + underWay id (Phased.step (machine World) system next) ≤
      underWay id system := by
  have valid : system.store.Valid := calm.keeps.store
  cases next with
  | load tag op =>
      have none : stepRows id system (.load tag op) = [] := rfl
      rw [none, List.length_nil, Nat.zero_add]
      cases found : system.task? tag with
      | some task => simp only [Phased.step, found, Nat.le_refl]
      | none =>
          have idle := not_holds_of_paused op paused valid
          have fresh : holds id ((machine World).load op system.store) = false := idle
          simp [Phased.step, found, Phased.Config.begin, underWay, List.countP_append, fresh]
  | save tag =>
      cases found : system.task? tag with
      | none => simp [stepRows, Phased.Config.completes?, Phased.step, found]
      | some task =>
          have member := (Phased.Config.task?_some found).1
          obtain ⟨loaded, loadedValid, same⟩ := calm.keeps.tasks task member
          have bounded := length_savedRows_le_holds system.store task.op loadedValid calm.issued
          have moved := underWay_commit id calm.nodup member
          rw [← same] at bounded
          simp only [stepRows, Phased.Config.completes?, Phased.step, found, Option.map_some]
          omega
  | call op =>
      have bounded := length_savedRows_le_holds system.store op valid calm.issued
      rw [not_holds_of_paused op paused valid] at bounded
      exact Nat.add_le_add_right bounded _ |>.trans (Nat.le_of_eq (Nat.zero_add _))

theorem run_underWay (calm : Calm id system) {steps : List (Step Tag (Operation World))}
    (paused : Along (machine World) (fun system _ => Paused id system.store) system steps) :
    (journal id system steps).length + underWay id (Phased.run (machine World) system steps) ≤
      underWay id system := by
  induction steps generalizing system with
  | nil => exact Nat.le_of_eq (Nat.zero_add _)
  | cons next rest ih =>
      have first := step_underWay calm paused.1 next
      have later := ih (calm.step next) paused.2
      simp only [journal, List.length_append, Phased.run]
      omega

/-- While a monitor stays paused, whatever else happens, its history grows only by
rows that were under way when this began: what is recorded and what is still under
way are no more than that, so nothing is recorded once nothing is under way. -/
theorem pause_takes_effect (database : Database) (before steps : List (Step Tag (Operation World)))
    (id : Int) :
    let system := Phased.run (machine World) ({ store := database.toStore } : System Tag World) before
    let final := Phased.run (machine World) system steps
    id ∈ system.store.monitorIds →
    Along (machine World) (fun system _ => Paused id system.store) system steps →
    id ∈ final.store.monitorIds →
    ∃ new, final.store.historyOf id = system.store.historyOf id ++ new ∧
      new.length + underWay id final ≤ underWay id system := by
  intro system final watched paused stored
  have keeps : Keeps Store.Valid FromLoad system := keeps_fromLoad database before
  have nodup : (system.inFlight.map (·.tag)).Nodup :=
    Phased.nodup_tags_run (machine World) before List.nodup_nil
  have calm : Calm id system := ⟨keeps, nodup, keeps.store.monitorIssued id watched⟩
  obtain ⟨new, history, unnumbered⟩ := run_history keeps steps (.inl stored)
  have recorded : new.length = (journal id system steps).length := by
    rw [← List.length_map (f := Store.unnumbered), unnumbered, List.length_map]
  refine ⟨new, history, ?_⟩
  rw [recorded]
  exact run_underWay calm paused

/-- A run is checking when Bob pauses his monitor. -/
def pausedUnderWay : List (Step Nat (Operation Unit)) :=
  [.load 0 (.worker BatchRun.bothUp), .call (.web (some "bob") (.setPause 2))]

theorem pause_takes_effect_paused_under_way :
    let system := Phased.run (machine Unit)
      ({ store := BatchRun.twoOwners.toStore } : System Nat Unit) pausedUnderWay
    let final := Phased.run (machine Unit) system (.save 0 :: failsLater)
    underWay 2 system = 1 ∧ ∃ new, final.store.historyOf 2 = system.store.historyOf 2 ++ new ∧
      new.length + underWay 2 final ≤ underWay 2 system :=
  ⟨by decide, pause_takes_effect BatchRun.twoOwners pausedUnderWay (.save 0 :: failsLater) 2
    (by decide) ⟨by decide, by decide +kernel, trivial⟩ (by decide +kernel)⟩

end UrlPulse
