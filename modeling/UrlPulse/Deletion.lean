import UrlPulse.System

namespace UrlPulse

open UrlPulse.Core UrlPulse.Infrastructure UrlPulse.Web UrlPulse.Worker UrlPulse.Data
open UrlPulse.Data.Phased

/-! # Deletion

A monitor leaves with its history, its key is never handed out again, and what
was loaded before the deletion cannot be saved after it.
-/

/-- The key has been issued and no row carries it. -/
structure Gone (id : Int) (store : Store) : Prop where
  issued : id < store.nextMonitorId
  monitors : ∀ monitor ∈ store.urlMonitors, monitor.id ≠ id
  rows : ∀ row ∈ store.latencyHistories, row.urlMonitorId ≠ id

/-- The stored monitor a statement needs. -/
def monitorId? : EntityEntry → Option Int
  | .addedMonitor _ _ => none
  | .addedHistory row => some row.urlMonitorId
  | .modifiedIsPaused id _ => some id
  | .deletedMonitor id => some id

namespace Gone

variable {id : Int} {store after : Store}

theorem absent (gone : Gone id store) : id ∉ store.monitorIds := by
  intro stored
  obtain ⟨monitor, member, same⟩ := Store.mem_monitorIds.mp stored
  exact gone.monitors monitor member same

theorem of_absent (valid : store.Valid) (issued : id < store.nextMonitorId)
    (absent : id ∉ store.monitorIds) : Gone id store where
  issued := issued
  monitors := by
    intro monitor member same
    exact absent (Store.mem_monitorIds.mpr ⟨monitor, member, same⟩)
  rows := by
    intro row member same
    exact absent (same ▸ valid.foreignKey row member)

theorem apply {entry : EntityEntry} (gone : Gone id store) (applied : entry.apply store = .ok after) :
    Gone id after := by
  have issued := gone.issued
  rcases EntityEntry.apply_cases applied with
    ⟨monitor, history, rfl, -, rfl⟩ | ⟨row, rfl, referenced, rfl⟩ | ⟨other, isPaused, rfl, -, rfl⟩ |
    ⟨other, rfl, -, rfl⟩
  · refine ⟨by simp only [Store.insertMonitor, Store.appendHistories]; omega, ?_, ?_⟩
    · intro stored member
      rcases List.mem_append.mp member with old | new
      · exact gone.monitors stored old
      · rw [List.mem_singleton.mp new]
        exact (Int.ne_of_lt issued).symm
    · intro row member
      rcases List.mem_append.mp member with old | new
      · exact gone.rows row old
      · rw [Store.urlMonitorId_of_numbered new]
        exact (Int.ne_of_lt issued).symm
  · refine ⟨issued, gone.monitors, ?_⟩
    intro stored member
    rcases List.mem_append.mp member with old | new
    · exact gone.rows stored old
    · obtain ⟨source, inside, same⟩ := (Store.mem_numbered new).1
      rw [same, List.mem_singleton.mp inside]
      exact fun pointsThere => gone.absent (pointsThere ▸ referenced)
  · refine ⟨issued, ?_, gone.rows⟩
    intro stored member
    obtain ⟨original, inside, flag, rfl⟩ := Store.mem_setPaused member
    exact gone.monitors original inside
  · exact ⟨issued, fun monitor member => gone.monitors monitor (List.mem_of_mem_filter member),
      fun row member => gone.rows row (List.mem_of_mem_filter member)⟩

theorem run {Tag World : Type} [DecidableEq Tag] {system : System Tag World}
    (gone : Gone id system.store) (steps : List (Step Tag (Operation World))) :
    Gone id (Phased.run (machine World) system steps).store :=
  run_store_invariant (fun _ _ _ => apply) gone steps

theorem applyAll_error {entries : List EntityEntry} (gone : Gone id store)
    (needed : ∃ entry ∈ entries, monitorId? entry = some id) :
    ∃ fault, EntityEntry.applyAll entries store = .error fault := by
  obtain ⟨needing, member, needs⟩ := needed
  induction entries generalizing store with
  | nil => contradiction
  | cons entry rest ih =>
      cases first : entry.apply store with
      | error fault => exact ⟨fault, by simp only [EntityEntry.applyAll, first]⟩
      | ok next =>
          rcases List.mem_cons.mp member with rfl | later
          · have present : id ∈ store.monitorIds := by
              rcases EntityEntry.apply_cases first with
                ⟨monitor, history, rfl, -⟩ | ⟨row, rfl, referenced, -⟩ |
                ⟨other, isPaused, rfl, stored, -⟩ | ⟨other, rfl, stored, -⟩
              · contradiction
              · exact Option.some.inj needs ▸ referenced
              · exact Option.some.inj needs ▸ stored
              · exact Option.some.inj needs ▸ stored
            exact absurd present gone.absent
          · obtain ⟨fault, failed⟩ := ih (gone.apply first) later
            exact ⟨fault, by simpa only [EntityEntry.applyAll, first] using failed⟩

theorem save {pending : Pending} (gone : Gone id store)
    (needed : ∃ entry ∈ pending.statements, monitorId? entry = some id) :
    ∃ fault, pending.save store = (.exception fault, store) := by
  obtain ⟨fault, failed⟩ := gone.applyAll_error needed
  rcases Pending.save_cases pending store with ⟨after, applied, -⟩ | ⟨other, -, saved⟩
  · rw [failed] at applied
    contradiction
  · exact ⟨other, saved⟩

end Gone

/-! ## What every schedule keeps -/

/-- Every stored monitor still has the region-less row it was created with. -/
def Created (store : Store) : Prop :=
  ∀ monitor ∈ store.urlMonitors, ∃ row ∈ store.latencyHistories,
    row.urlMonitorId = monitor.id ∧ row.region = ""

/-- What the statements of an operation can be, whatever it loaded. -/
structure Promise (op : Operation World) (pending : Pending) : Prop where
  creations : ∀ monitor history, .addedMonitor monitor history ∈ pending.statements →
    ∃ row ∈ history, row.region = ""
  deletions : ∀ id, .deletedMonitor id ∈ pending.statements → ∃ userId, op = .web userId (.delete id)
  deletes : ∀ userId id, op = .web userId (.delete id) → pending.statements ≠ [] →
    pending = { context := { currentUserId := userId, entries := [.deletedMonitor id] }
                response := .index .ok }

variable {World Tag : Type} {store after : Store}

theorem load_promise (op : Operation World) (store : Store) : Promise op (op.load store) := by
  rcases load_cases op store with
    none | ⟨userId, checker, world, utcNow, form, result, rfl, statements, -⟩ |
    ⟨userId, id, monitor, rfl, -, loaded⟩ | ⟨userId, id, monitor, rfl, -, loaded⟩ |
    ⟨run, rows, rfl, -, loaded⟩
  · exact ⟨by simp [none], by simp [none], fun _ _ _ some => absurd none some⟩
  · refine ⟨?_, by simp [statements], fun _ _ same => by cases same⟩
    intro monitor history member
    rw [statements] at member
    cases List.mem_singleton.mp member
    exact ⟨writtenRow (Index.creationRow result), by simp, rfl⟩
  · rw [loaded]
    refine ⟨by simp [Pending.statements], ?_, ?_⟩
    · intro other member
      simp only [Pending.statements, List.map_cons, List.map_nil, EntityEntry.stamp_deletedMonitor,
        EntityEntry.written_deletedMonitor, List.mem_singleton, EntityEntry.deletedMonitor.injEq] at member
      exact ⟨userId, by rw [member]⟩
    · intro other target same _
      cases same
      rfl
  · rw [loaded]
    exact ⟨by simp [Pending.statements], by simp [Pending.statements], fun _ _ same => by cases same⟩
  · rw [loaded]
    exact ⟨by simp [Pending.statements], by simp [Pending.statements], fun _ _ same => by cases same⟩

theorem Created.apply {entry : EntityEntry} (created : Created store)
    (withRow : ∀ monitor history, entry = .addedMonitor monitor history →
      ∃ row ∈ history, row.region = "")
    (applied : entry.apply store = .ok after) : Created after := by
  intro monitor member
  rcases EntityEntry.apply_cases applied with
    ⟨added, history, rfl, -, rfl⟩ | ⟨row, rfl, -, rfl⟩ | ⟨id, isPaused, rfl, -, rfl⟩ | ⟨id, rfl, -, rfl⟩
  · rcases List.mem_append.mp member with old | new
    · obtain ⟨row, stored, points, regionless⟩ := created monitor old
      exact ⟨row, List.mem_append_left _ stored, points, regionless⟩
    · obtain ⟨row, given, regionless⟩ := withRow added history rfl
      have image : Store.unnumbered { row with urlMonitorId := store.nextMonitorId } ∈
          (Store.numbered store.nextHistoryId
            (history.map fun row => { row with urlMonitorId := store.nextMonitorId })).map
              Store.unnumbered := by
        rw [Store.numbered_unnumbered]
        exact List.mem_map_of_mem (List.mem_map_of_mem given)
      obtain ⟨stored, numbered, same⟩ := List.mem_map.mp image
      have points : stored.urlMonitorId = store.nextMonitorId := congrArg (·.urlMonitorId) same
      have region : stored.region = row.region := congrArg (·.region) same
      rw [List.mem_singleton.mp new]
      exact ⟨stored, List.mem_append_right _ numbered, points, region.trans regionless⟩
  · obtain ⟨stored, inside, points, regionless⟩ := created monitor member
    exact ⟨stored, List.mem_append_left _ inside, points, regionless⟩
  · obtain ⟨original, inside, flag, rfl⟩ := Store.mem_setPaused member
    exact created original inside
  · obtain ⟨remains, different⟩ := List.mem_filter.mp member
    obtain ⟨stored, present, points, regionless⟩ := created monitor remains
    have kept : stored.urlMonitorId ≠ id := by
      rw [points]
      simpa using different
    exact ⟨stored, List.mem_filter.mpr ⟨present, by simpa using kept⟩, points, regionless⟩

variable [DecidableEq Tag]

theorem keeps_promise (steps : List (Step Tag (Operation World))) :
    Keeps (fun store => store.Valid ∧ Created store) Promise
      (Phased.run (machine World) { store := Store.empty } steps) := by
  have initial : Keeps (fun store => store.Valid ∧ Created store) Promise
      ({ store := Store.empty } : System Tag World) :=
    ⟨⟨Store.empty_valid, fun _ member => by contradiction⟩, fun _ member => by contradiction⟩
  refine initial.run (fun _ _ op store _ _ => load_promise op store) ?_
  intro op pending store held promise
  refine Pending.save_invariant (P := fun store => store.Valid ∧ Created store) ?_ held
  intro entry member before next kept applied
  refine ⟨EntityEntry.apply_valid kept.1 applied, kept.2.apply ?_ applied⟩
  intro monitor history added
  cases added
  exact promise.creations monitor history member

theorem kept_monitorId {entry : EntityEntry} {id : Int} (other : entry ≠ .deletedMonitor id)
    (stored : id ∈ store.monitorIds) (applied : entry.apply store = .ok after) :
    id ∈ after.monitorIds := by
  rcases EntityEntry.apply_cases applied with
    ⟨added, history, rfl, -, rfl⟩ | ⟨row, rfl, -, rfl⟩ | ⟨target, isPaused, rfl, -, rfl⟩ | ⟨target, rfl, -, rfl⟩
  · simp only [Store.monitorIds, Store.insertMonitor, Store.appendHistories, List.map_append]
    exact List.mem_append_left _ stored
  · exact stored
  · rw [Store.setPaused_monitorIds]
    exact stored
  · have different : id ≠ target := fun same => other (by rw [same])
    exact Store.mem_without_monitorIds.mpr ⟨stored, different⟩

/-- What an operation that loads `store` will need when it saves. -/
def Operation.Holds (op : Operation World) (id : Int) (store : Store) : Prop :=
  match op with
  | .worker run => ∃ monitor ∈ run.due store, monitor.id = id
  | .web userId (.setPause target) =>
      target = id ∧
        ∃ monitor, ApplicationDbContext.findMonitor { currentUserId := userId } store target = some monitor
  | .web userId (.delete target) =>
      target = id ∧
        ∃ monitor, ApplicationDbContext.findMonitor { currentUserId := userId } store target = some monitor
  | _ => False

theorem Operation.Holds.stored {op : Operation World} {id : Int} (holds : op.Holds id store) :
    id ∈ store.monitorIds := by
  rcases op with ⟨userId, request⟩ | run
  · cases request with
    | delete target =>
        obtain ⟨rfl, monitor, found⟩ := holds
        exact ApplicationDbContext.mem_monitorIds_of_found found
    | setPause target =>
        obtain ⟨rfl, monitor, found⟩ := holds
        exact ApplicationDbContext.mem_monitorIds_of_found found
    | _ => contradiction
  · obtain ⟨monitor, due, key⟩ := holds
    exact Store.mem_monitorIds.mpr ⟨monitor, (TimerRun.mem_due_iff.mp due).1.1, key⟩

theorem Operation.Holds.save {op : Operation World} {id : Int} {found : Store}
    (holds : op.Holds id store) (gone : Gone id found) :
    ∃ fault, (op.load store).save found = (.exception fault, found) := by
  rcases op with ⟨userId, request⟩ | run
  · cases request with
    | delete target =>
        obtain ⟨rfl, monitor, visible⟩ := holds
        refine gone.save ⟨.deletedMonitor target, ?_, rfl⟩
        rw [Operation.load, load_delete_found World visible]
        exact List.mem_cons_self
    | setPause target =>
        obtain ⟨rfl, monitor, visible⟩ := holds
        refine gone.save ⟨.modifiedIsPaused target !monitor.isPaused, ?_, rfl⟩
        rw [Operation.load, load_setPause_found World visible]
        exact List.mem_cons_self
    | _ => contradiction
  · obtain ⟨monitor, due, key⟩ := holds
    cases batched : run.batch store with
    | error fault =>
        refine ⟨fault, ?_⟩
        rw [Operation.load, loadRun_error batched, Pending.save_of_no_statements rfl]
    | ok rows =>
        have inBatch : id ∈ rows.map (·.urlMonitorId) := by
          rw [(TimerRun.batch_rows batched).1]
          exact List.mem_map.mpr ⟨monitor, due, key⟩
        obtain ⟨row, member, points⟩ := List.mem_map.mp inBatch
        refine gone.save ⟨.addedHistory (writtenRow row), ?_, congrArg some points⟩
        rw [Operation.load, loadRun_ok batched]
        simp only [Pending.statements, List.map_map, List.mem_map]
        exact ⟨row, member, rfl⟩

theorem issued_run {system : System Tag World} {id : Int} (issued : id < system.store.nextMonitorId)
    (steps : List (Step Tag (Operation World))) :
    id < (Phased.run (machine World) system steps).store.nextMonitorId := by
  refine run_store_invariant (P := fun store => id < store.nextMonitorId) ?_ issued steps
  intro entry before next below applied
  rcases EntityEntry.apply_cases applied with
    ⟨added, history, rfl, -, rfl⟩ | ⟨row, rfl, -, rfl⟩ | ⟨target, isPaused, rfl, -, rfl⟩ | ⟨target, rfl, -, rfl⟩
  · simp only [Store.insertMonitor, Store.appendHistories]
    omega
  all_goals exact below

section Reached

variable {steps : List (Step Tag (Operation World))} {system : System Tag World}
  (reached : system = Phased.run (machine World) { store := Store.empty } steps)
include reached

theorem committed_delete {next : Step Tag (Operation World)} {userId : Option String} {id : Int}
    {pending : Pending}
    (completes : system.completes? (machine World) next = some (.web userId (.delete id), pending))
    (visible : pending.context.entries ≠ [])
    (committed : (pending.save system.store).1 = .index .ok) :
    id ∈ system.store.monitorIds ∧
      (step (machine World) system next).store = system.store.without id := by
  have keeps := reached ▸ keeps_promise steps
  have promise := keeps.complete (fun op store _ _ => load_promise op store) completes
  have shape := promise.deletes userId id rfl (by simpa [Pending.statements] using visible)
  have saved : (step (machine World) system next).store = (pending.save system.store).2 :=
    (step_complete completes).1
  rw [shape, Pending.save_deletedMonitor] at committed saved
  by_cases stored : id ∈ system.store.monitorIds
  · rw [if_pos stored] at saved
    exact ⟨stored, saved⟩
  · rw [if_neg stored] at committed
    contradiction

theorem deleted_of_absent {next : Step Tag (Operation World)} {id : Int}
    (stored : id ∈ system.store.monitorIds)
    (absent : id ∉ (step (machine World) system next).store.monitorIds) :
    ∃ userId pending,
      system.completes? (machine World) next = some (.web userId (.delete id), pending) := by
  have keeps := reached ▸ keeps_promise steps
  cases completed : system.completes? (machine World) next with
  | none =>
      rw [(step_incomplete _ _ completed).1] at absent
      contradiction
  | some complete =>
      obtain ⟨op, pending⟩ := complete
      have promise := keeps.complete (fun op store _ _ => load_promise op store) completed
      have saved : (step (machine World) system next).store = (pending.save system.store).2 :=
        (step_complete completed).1
      by_cases deletes : .deletedMonitor id ∈ pending.statements
      · obtain ⟨userId, rfl⟩ := promise.deletions id deletes
        exact ⟨userId, pending, rfl⟩
      · rw [saved] at absent
        refine absurd (Pending.save_invariant (P := fun store => id ∈ store.monitorIds) ?_ stored) absent
        intro entry member before after present applied
        exact kept_monitorId (fun same => deletes (same ▸ member)) present applied

end Reached

/-- In every schedule from the empty store: the schema holds and every monitor
has its creation row; a committed Delete removes exactly its monitor and that
monitor's history, and whatever follows, no row with that id comes back; nothing
else removes a monitor; and an operation that had checked or loaded a monitor
before it was removed fails at its save and leaves the store as it was. -/
theorem deletion_final (World Tag : Type) [DecidableEq Tag]
    (steps : List (Step Tag (Operation World))) :
    let system : System Tag World := Phased.run (machine World) { store := Store.empty } steps
    (system.store.Valid ∧ Created system.store) ∧
    (∀ next userId id pending,
      system.completes? (machine World) next = some (.web userId (.delete id), pending) →
      pending.context.entries ≠ [] → (pending.save system.store).1 = .index .ok →
      id ∈ system.store.monitorIds ∧
        (step (machine World) system next).store = system.store.without id ∧
        ∀ later, Gone id (Phased.run (machine World) (step (machine World) system next) later).store) ∧
    (∀ next id, id ∈ system.store.monitorIds →
      id ∉ (step (machine World) system next).store.monitorIds →
      ∃ userId pending,
        system.completes? (machine World) next = some (.web userId (.delete id), pending)) ∧
    ∀ before tag op between id, steps = before ++ .load tag op :: between →
      (∀ next ∈ before, next.tag? ≠ some tag) → (∀ next ∈ between, next.tag? ≠ some tag) →
      op.Holds id (Phased.run (machine World) { store := Store.empty } before).store →
      id ∉ system.store.monitorIds →
      (step (machine World) system (.save tag)).store = system.store ∧
        ∃ fault, (step (machine World) system (.save tag)).answers =
          system.answers ++ [(op, .exception fault)] := by
  intro system
  have keeps : Keeps (fun store => store.Valid ∧ Created store) Promise system := keeps_promise steps
  refine ⟨keeps.store, ?committed, ?removed, ?stale⟩
  case committed =>
    intro next userId id pending completes visible committed
    obtain ⟨stored, after⟩ := committed_delete rfl completes visible committed
    refine ⟨stored, after, fun later => Gone.run ?_ later⟩
    rw [after]
    have issued := keeps.store.1.monitorIssued id stored
    refine Gone.of_absent (keeps.store.1.without id) issued ?_
    exact fun remaining => (Store.mem_without_monitorIds.mp remaining).2 rfl
  case removed =>
    intro next id stored absent
    exact deleted_of_absent rfl stored absent
  case stale =>
    intro before tag op between id split othersBefore othersBetween holds absent
    let loaded : System Tag World := Phased.run (machine World) { store := Store.empty } before
    have loadedValid : loaded.store.Valid := run_valid Store.empty_valid before
    have issued : id < system.store.nextMonitorId := by
      have continued : system = Phased.run (machine World) loaded (.load tag op :: between) := by
        rw [← run_append, ← split]
      rw [continued]
      exact issued_run (loadedValid.monitorIssued id holds.stored) _
    obtain ⟨fault, failed⟩ := holds.save (Gone.of_absent keeps.store.1 issued absent)
    have committed : step (machine World) system (.save tag) =
        system.commit (machine World) ⟨tag, op, op.load loaded.store⟩ := by
      have whole := run_load_save (machine World) { store := Store.empty } op rfl othersBefore othersBetween
      rw [run_append, ← split] at whole
      exact whole
    have saved : (machine World).save (op.load loaded.store) system.store =
        (.exception fault, system.store) := failed
    rw [committed]
    refine ⟨congrArg Prod.snd saved, fault, ?_⟩
    simp only [Config.commit, saved]

/-- Alice creates a monitor and a worker run loads it. -/
def createdAndLoaded : List (Step Nat (Operation Unit)) :=
  let up : IUrlChecker Unit := fun _ _ world =>
    .ok ({ isUp := true, latencyMs := some 20, checkedAt := 1000, statusCode := 200 }, world)
  [.call (.web (some "alice") (.create up () 1000 { inputUrl := "https://a.example" })),
    .load 0 (.worker { regionName := some "eastus", now := 2000, checker := up, world := () })]

/-- She deletes it, and the run comes back. -/
theorem deletion_final_created_and_loaded :
    let system := Phased.run (machine Unit) { store := Store.empty } createdAndLoaded
    let deleted := Phased.run (machine Unit) { store := Store.empty }
      (createdAndLoaded ++ [.call (.web (some "alice") (.delete 1))])
    (∀ later, Gone 1 (Phased.run (machine Unit) (step (machine Unit) system
      (.call (.web (some "alice") (.delete 1)))) later).store) ∧
    (step (machine Unit) deleted (.save 0)).store = deleted.store := by
  constructor
  · exact ((deletion_final Unit Nat createdAndLoaded).2.1 (.call (.web (some "alice") (.delete 1)))
      (some "alice") 1 _ rfl (by decide) (by decide)).2.2
  · refine ((deletion_final Unit Nat
      (createdAndLoaded ++ [.call (.web (some "alice") (.delete 1))])).2.2.2
      [createdAndLoaded.head (by decide)] 0
      (.worker { regionName := some "eastus", now := 2000, checker := _, world := () })
      [.call (.web (some "alice") (.delete 1))] 1 rfl ?_ ?_ ?_ ?_).1
    · simp [createdAndLoaded, Step.tag?]
    · simp [Step.tag?]
    · exact ⟨_, List.mem_singleton.mpr rfl, rfl⟩
    · decide

end UrlPulse
