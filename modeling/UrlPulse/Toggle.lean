import UrlPulse.Data.ReadModifyWrite
import UrlPulse.System

namespace UrlPulse

open UrlPulse.Core UrlPulse.Infrastructure UrlPulse.Web UrlPulse.Worker UrlPulse.Data
open UrlPulse.Data.Phased

/-! # Toggling a pause

SetPause reads a flag, negates it and writes it back, and nothing tells it that
another request has done the same meanwhile.
-/

variable {World Tag : Type} {store after : Store} {monitor : UrlMonitor}

def toggles (monitor : UrlMonitor) : Operation World → Bool
  | .web userId (.setPause id) => userId = some monitor.ownerId && id = monitor.id
  | _ => false

def Spares (monitor : UrlMonitor) (op : Operation World) : Prop :=
  op ≠ .web (some monitor.ownerId) (.delete monitor.id)

/-- The monitor's row as it is now, with its flag. -/
structure Flagged (monitor : UrlMonitor) (isPaused : Bool) (store : Store) : Prop where
  valid : store.Valid
  stored : { monitor with isPaused } ∈ store.urlMonitors

def Avoids (id : Int) (entry : EntityEntry) : Prop :=
  (∀ isPaused, entry ≠ .modifiedIsPaused id isPaused) ∧ entry ≠ .deletedMonitor id

theorem Flagged.apply {isPaused : Bool} {entry : EntityEntry} (flagged : Flagged monitor isPaused store)
    (avoids : Avoids monitor.id entry) (applied : entry.apply store = .ok after) :
    Flagged monitor isPaused after := by
  refine ⟨EntityEntry.apply_valid flagged.valid applied, ?_⟩
  have stored := flagged.stored
  rcases EntityEntry.apply_cases applied with
    ⟨added, history, rfl, -, rfl⟩ | ⟨row, rfl, -, rfl⟩ | ⟨id, value, rfl, -, rfl⟩ | ⟨id, rfl, -, rfl⟩
  · exact List.mem_append_left _ stored
  · exact stored
  · have different : monitor.id ≠ id := by
      intro same
      cases same
      exact avoids.1 value rfl
    exact List.mem_map.mpr ⟨_, stored, if_neg different⟩
  · have different : monitor.id ≠ id := by
      intro same
      cases same
      exact avoids.2 rfl
    exact List.mem_filter.mpr ⟨stored, by simpa using different⟩

theorem Flagged.found {isPaused : Bool} (flagged : Flagged monitor isPaused store) :
    ApplicationDbContext.findMonitor { currentUserId := some monitor.ownerId } store monitor.id =
      some { monitor with isPaused } := by
  have visible : { monitor with isPaused } ∈
      ApplicationDbContext.urlMonitors { currentUserId := some monitor.ownerId } store :=
    List.mem_filter.mpr ⟨flagged.stored, by simp [ApplicationDbContext.queryFilter]⟩
  exact ApplicationDbContext.findMonitor_of_visible flagged.valid visible

theorem Flagged.owner {isPaused : Bool} (flagged : Flagged monitor isPaused store)
    {userId : Option String} {other : UrlMonitor}
    (found : ApplicationDbContext.findMonitor { currentUserId := userId } store monitor.id = some other) :
    userId = some monitor.ownerId := by
  obtain ⟨stored, owner, key⟩ := ApplicationDbContext.findMonitor_some found
  have same := flagged.valid.monitor_unique stored flagged.stored key
  rw [same] at owner
  exact owner

theorem load_toggle (World : Type) {isPaused : Bool} (flagged : Flagged monitor isPaused store) :
    (Operation.web (some monitor.ownerId) (.setPause monitor.id : WebRequest World)).load store =
      { context := { currentUserId := some monitor.ownerId
                     entries := [.modifiedIsPaused monitor.id !isPaused] }
        response := .index (.isPaused !isPaused) } :=
  load_setPause_found World flagged.found

theorem load_avoids {isPaused : Bool} {op : Operation World}
    (flagged : Flagged monitor isPaused store) (spares : Spares monitor op)
    (other : toggles monitor op = false) :
    ∀ entry ∈ (op.load store).statements, Avoids monitor.id entry := by
  intro entry member
  rcases load_cases op store with
    none | ⟨userId, checker, world, utcNow, form, result, rfl, statements, -⟩ |
    ⟨userId, id, found, rfl, visible, loaded⟩ | ⟨userId, id, found, rfl, visible, loaded⟩ |
    ⟨run, rows, rfl, -, loaded⟩
  · rw [none] at member
    contradiction
  · rw [statements] at member
    rw [List.mem_singleton.mp member]
    exact ⟨fun _ => nofun, nofun⟩
  · rw [loaded] at member
    rw [List.mem_singleton.mp member]
    refine ⟨fun _ => nofun, ?_⟩
    intro same
    cases same
    exact spares (by rw [flagged.owner visible])
  · rw [loaded] at member
    rw [List.mem_singleton.mp member]
    refine ⟨?_, nofun⟩
    intro value same
    cases same
    simp [toggles, flagged.owner visible] at other
  · rw [loaded] at member
    obtain ⟨tracked, inserted, rfl⟩ := List.mem_map.mp member
    obtain ⟨row, -, rfl⟩ := List.mem_map.mp inserted
    exact ⟨fun _ => nofun, nofun⟩

/-- The flag of a monitor that is not deleted is one cell. -/
def pauseCell (monitor : UrlMonitor) :
    Simulation (machine World) (ReadModifyWrite.cell (toggles monitor) not) (Spares monitor) where
  store store isPaused := Flagged monitor isPaused store
  pending op pending new :=
    match new with
    | some value =>
        pending = { context := { currentUserId := some monitor.ownerId
                                 entries := [.modifiedIsPaused monitor.id value] }
                    response := .index (.isPaused value) }
    | none => toggles monitor op = false ∧ ∀ entry ∈ pending.statements, Avoids monitor.id entry
  answer op given _ := toggles monitor op = true → ∃ value, given = .index (.isPaused value)
  loads := by
    intro op store isPaused spares flagged
    cases toggled : toggles monitor op with
    | false =>
        have untouched : (ReadModifyWrite.cell (toggles monitor) not).load op isPaused = none :=
          if_neg (by simp [toggled])
        rw [untouched]
        exact ⟨rfl, load_avoids flagged spares toggled⟩
    | true =>
        have touched : (ReadModifyWrite.cell (toggles monitor) not).load op isPaused =
            some !isPaused := if_pos toggled
        rw [touched]
        cases op with
        | worker run => contradiction
        | web userId request =>
            cases request with
            | setPause id =>
                simp only [toggles, Bool.and_eq_true, decide_eq_true_eq] at toggled
                obtain ⟨rfl, rfl⟩ := toggled
                exact load_toggle World flagged
            | _ => contradiction
  saves := by
    intro op pending new store isPaused spares flagged loaded
    cases new with
    | some value =>
        have shape : pending = { context := { currentUserId := some monitor.ownerId
                                              entries := [.modifiedIsPaused monitor.id value] }
                                 response := .index (.isPaused value) } := loaded
        have present : monitor.id ∈ store.monitorIds :=
          Store.mem_monitorIds.mpr ⟨_, flagged.stored, rfl⟩
        have saved : pending.save store =
            (.index (.isPaused value), store.setPaused monitor.id value) := by
          rw [shape, Pending.save_modifiedIsPaused, if_pos present]
        refine ⟨fun _ => ⟨value, congrArg Prod.fst saved⟩, ?_⟩
        change Flagged monitor value (pending.save store).2
        rw [saved]
        exact ⟨flagged.valid.setPaused monitor.id value,
          List.mem_map.mpr ⟨_, flagged.stored, if_pos rfl⟩⟩
    | none =>
        obtain ⟨other, avoids⟩ := loaded
        refine ⟨fun toggled => ?_, ?_⟩
        · rw [other] at toggled
          contradiction
        · exact Pending.save_invariant (P := Flagged monitor isPaused)
            (fun entry member _ _ held applied => held.apply (avoids entry member) applied) flagged

variable [DecidableEq Tag]

theorem Flagged.isPaused_iff {isPaused value : Bool} (flagged : Flagged monitor isPaused store) :
    (∃ current ∈ store.urlMonitors, current.id = monitor.id ∧ current.isPaused = value) ↔
      isPaused = value := by
  constructor
  · intro found
    obtain ⟨current, present, key, rfl⟩ := found
    exact congrArg (·.isPaused) (flagged.valid.monitor_unique flagged.stored present key.symm)
  · intro same
    exact ⟨_, flagged.stored, rfl, same⟩

def toggleCount (monitor : UrlMonitor) (system : System Tag World) : Nat :=
  system.answers.countP fun answer => toggles monitor answer.1

/-- How many of them the stored flag is built on. -/
abbrev toggleDepth (monitor : UrlMonitor) (steps : List (Step Tag (Operation World))) : Nat :=
  ReadModifyWrite.depth (toggles monitor) steps

theorem iterate_not (count : Nat) (value : Bool) :
    not^[count] value = if count % 2 = 0 then value else !value := by
  induction count with
  | zero => rfl
  | succ count ih =>
      rw [Function.iterate_succ_apply', ih]
      rcases Nat.mod_two_eq_zero_or_one count with even | odd
      · have next : (count + 1) % 2 = 1 := by omega
        simp [even, next]
      · have next : (count + 1) % 2 = 0 := by omega
        simp [odd, next]

section Schedule

variable {database : Database} {steps : List (Step Tag (Operation World))}
  (stored : monitor ∈ database.urlMonitors)
  (spared : ∀ next ∈ steps, ∀ op, next.op? = some op → Spares monitor op)
include stored spared

theorem related_pauseCell :
    (pauseCell monitor).Related (Phased.run (machine World) { store := database.toStore } steps)
      (Phased.run (ReadModifyWrite.cell (toggles monitor) not) { store := monitor.isPaused } steps) :=
  Simulation.Related.run spared ⟨⟨database.valid, stored⟩, .nil, .nil⟩

theorem flagged_run :
    Flagged monitor (not^[toggleDepth monitor steps] monitor.isPaused)
      (Phased.run (machine World) { store := database.toStore } steps).store := by
  have flagged := (related_pauseCell stored spared).store
  rw [ReadModifyWrite.value_eq_iterate] at flagged
  exact flagged

theorem toggleDepth_of_exclusive
    (alone : Along (machine World) (Exclusive (toggles monitor)) { store := database.toStore } steps) :
    toggleDepth monitor steps =
      toggleCount monitor (Phased.run (machine World) { store := database.toStore } steps) := by
  have started : (pauseCell monitor).Related ({ store := database.toStore } : System Tag World)
      { store := monitor.isPaused } := ⟨⟨database.valid, stored⟩, .nil, .nil⟩
  have cellAlone : Along (ReadModifyWrite.cell (toggles monitor) not) (Exclusive (toggles monitor))
      { store := monitor.isPaused } steps :=
    (started.along_iff (Exclusive (toggles monitor)) (Exclusive (toggles monitor))
      (fun _ _ _ _ held => held.exclusive_iff (toggles monitor)) spared).mp alone
  have answered := (related_pauseCell stored spared).countP_answers (toggles monitor)
  rw [toggleCount, answered]
  exact ReadModifyWrite.depth_of_exclusive not monitor.isPaused cellAlone

end Schedule

/-- The stored flag is the one that the number of answered toggles calls for. -/
def TogglesKept (monitor : UrlMonitor) (system : System Tag World) : Prop :=
  ∃ current ∈ system.store.urlMonitors, current.id = monitor.id ∧ current.isPaused =
    if toggleCount monitor system % 2 = 0 then monitor.isPaused else !monitor.isPaused

/-- No toggle is lost when none starts between another one's load and save; and
in any schedule the flag is right exactly when an even number of toggles has been
overwritten by one that had read the flag before them. -/
theorem pause_toggles_iff (database : Database) (monitor : UrlMonitor)
    (stored : monitor ∈ database.urlMonitors) (steps : List (Step Tag (Operation World)))
    (spared : ∀ next ∈ steps, ∀ op, next.op? = some op → Spares monitor op) :
    (Along (machine World) (Exclusive (toggles monitor)) { store := database.toStore } steps →
      TogglesKept monitor (Phased.run (machine World) { store := database.toStore } steps)) ∧
    (TogglesKept monitor (Phased.run (machine World) { store := database.toStore } steps) ↔
      toggleDepth monitor steps % 2 =
        toggleCount monitor (Phased.run (machine World) { store := database.toStore } steps) % 2) := by
  have flagged := flagged_run stored spared
  have counted := toggleDepth_of_exclusive stored spared
  generalize Phased.run (machine World) { store := database.toStore } steps = final at flagged counted ⊢
  have exact : TogglesKept monitor final ↔
      toggleDepth monitor steps % 2 = toggleCount monitor final % 2 := by
    rw [TogglesKept, flagged.isPaused_iff, iterate_not]
    rcases Nat.mod_two_eq_zero_or_one (toggleDepth monitor steps) with evenDepth | oddDepth <;>
      rcases Nat.mod_two_eq_zero_or_one (toggleCount monitor final) with evenCount | oddCount
    · simp [evenDepth, evenCount]
    · simp [evenDepth, oddCount]
    · simp [oddDepth, evenCount]
    · simp [oddDepth, oddCount]
  refine ⟨fun alone => exact.mpr ?_, exact⟩
  rw [counted alone]

def doubleToggle : List (Step Nat (Operation Unit)) :=
  [.load 0 (.web (some "alice") (.setPause 1)), .load 1 (.web (some "alice") (.setPause 1)),
    .save 0, .save 1]

def running : UrlMonitor :=
  { id := 1, ownerId := "alice", url := "https://a.example", createdAt := 10 }

def oneRunning : Database where
  urlMonitors := [running]
  nextMonitorId := 2
  valid := by decide

def toggleTwice : List (Step Nat (Operation Unit)) :=
  [.load 0 (.web (some "alice") (.setPause 1)), .save 0, .call (.web (some "alice") (.setPause 1))]

theorem pause_toggles_iff_toggle_twice :
    TogglesKept running (Phased.run (machine Unit) { store := oneRunning.toStore } toggleTwice) ∧
    (TogglesKept running (Phased.run (machine Unit) { store := oneRunning.toStore } doubleToggle) ↔
      toggleDepth running doubleToggle % 2 = toggleCount running
        (Phased.run (machine Unit) { store := oneRunning.toStore } doubleToggle) % 2) := by
  constructor
  · refine (pause_toggles_iff oneRunning running (by decide) toggleTwice
      (by simp [toggleTwice, Step.op?, Spares])).1 ⟨?_, ?_, ?_, trivial⟩
    · exact fun _ _ _ _ inFlight => (List.not_mem_nil inFlight).elim
    · exact fun _ starts => by contradiction
    · exact fun _ _ _ _ inFlight => (List.not_mem_nil inFlight).elim
  · exact (pause_toggles_iff oneRunning running (by decide) doubleToggle
      (by simp [doubleToggle, Step.op?, Spares])).2

/-- Both requests answer that the monitor is paused, and it is: one toggle is lost. -/
theorem not_paused_back_double_toggle :
    let final := Phased.run (machine Unit) { store := oneRunning.toStore } doubleToggle
    (final.inFlight = [] ∧ toggleCount running final = 2 ∧
      final.answers.map Prod.snd = [.index (.isPaused true), .index (.isPaused true)]) ∧
    ¬ TogglesKept running final := by
  have lost : ¬ ∃ current ∈ (Phased.run (machine Unit) { store := oneRunning.toStore }
      doubleToggle).store.urlMonitors, current.id = 1 ∧ current.isPaused = false := by decide
  exact ⟨by decide, lost⟩

end UrlPulse
