import UrlPulse.Data.Removal
import UrlPulse.System

namespace UrlPulse

open UrlPulse.Core UrlPulse.Infrastructure UrlPulse.Web UrlPulse.Data UrlPulse.Data.Phased

/-! # Many Deletes of one id

The handler forgives a record that is missing when it looks, not one that
disappears before it saves.
-/

variable {World Tag : Type} {database : Database} {id : Int}

def sees (store : Store) (id : Int) : Operation World → Bool
  | .web userId _ =>
      (ApplicationDbContext.findMonitor { currentUserId := userId } store id).isSome
  | .worker _ => false

def IsDelete (id : Int) (op : Operation World) : Prop :=
  ∃ userId, op = .web userId (.delete id)

theorem stored_of_sees {op : Operation World} {store : Store} (seen : sees store id op = true) :
    id ∈ store.monitorIds := by
  cases op with
  | worker run => contradiction
  | web userId request =>
      obtain ⟨monitor, found⟩ := Option.isSome_iff_exists.mp seen
      exact ApplicationDbContext.mem_monitorIds_of_found found

theorem load_delete (World : Type) (id : Int) (userId : Option String) (store : Store) :
    (Operation.web userId (.delete id : WebRequest World)).load store =
      { context :=
          { currentUserId := userId
            entries :=
              if sees store id (.web userId (.delete id) : Operation World) then [.deletedMonitor id]
              else [] }
        response := .index .ok } := by
  cases found : ApplicationDbContext.findMonitor { currentUserId := userId } store id with
  | none =>
      rw [Operation.load, load_delete_missing World found]
      simp [sees, found]
  | some monitor =>
      rw [Operation.load, load_delete_found World found]
      simp [sees, found]

theorem delete_of_sees {op : Operation World} {store : Store} (delete : IsDelete id op)
    (seen : sees store id op = true) : ((op.load store).save store).2 = store.without id := by
  obtain ⟨userId, rfl⟩ := delete
  rw [load_delete, if_pos seen, Pending.save_deletedMonitor, if_pos (stored_of_sees seen)]

def removal (database : Database) (id : Int) :
    Simulation (machine World) (Removal.machine (sees database.toStore id)) (IsDelete id) where
  store store present := store = if present then database.toStore else database.without id
  pending op pending found := ∃ userId, op = .web userId (.delete id) ∧
    (found = true → id ∈ database.monitorIds) ∧
    pending = { context := { currentUserId := userId
                             entries := if found then [.deletedMonitor id] else [] }
                response := .index .ok }
  answer op given expected := IsDelete id op ∧
    given = match expected with
      | .done => .index .ok
      | .conflict => .exception .dbUpdateConcurrency
  loads := by
    intro op store present delete same
    obtain ⟨userId, rfl⟩ := delete
    cases same
    refine ⟨userId, rfl, ?_, ?_⟩
    · intro found
      exact stored_of_sees (Bool.and_eq_true_iff.mp found).2
    · cases present with
      | true => exact load_delete World id userId database.toStore
      | false =>
          have unseen : sees (database.without id) id (.web userId (.delete id) : Operation World) =
              false := by
            simp [sees, ApplicationDbContext.findMonitor_without]
          have loaded := load_delete World id userId (database.without id)
          rw [unseen] at loaded
          exact loaded
  saves := by
    intro op pending found store present _ same delete
    obtain ⟨userId, rfl, stored, rfl⟩ := delete
    cases same
    cases found with
    | false => exact ⟨⟨⟨userId, rfl⟩, rfl⟩, rfl⟩
    | true =>
        cases present with
        | true =>
            have hit : id ∈ database.monitorIds := stored rfl
            have saved := (@Pending.save_deletedMonitor database.toStore userId id (.index .ok)).trans
              (if_pos hit)
            exact ⟨⟨⟨userId, rfl⟩, congrArg Prod.fst saved⟩, congrArg Prod.snd saved⟩
        | false =>
            have miss : id ∉ (database.without id).monitorIds :=
              fun remaining => (Store.mem_without_monitorIds.mp remaining).2 rfl
            have saved := (@Pending.save_deletedMonitor (database.without id) userId id
              (.index .ok)).trans (if_neg miss)
            exact ⟨⟨⟨userId, rfl⟩, congrArg Prod.fst saved⟩, congrArg Prod.snd saved⟩

variable [DecidableEq Tag]

/-- No Delete that finds the record starts while another that found it has yet
to save. -/
def DeletesAlone (id : Int) (system : System Tag World) (next : Step Tag (Operation World)) : Prop :=
  ∀ op, system.starts? next = some op → sees system.store id op = true →
    ∀ task ∈ system.inFlight, task.pending.context.entries = []

/-- Everyone is answered Ok, and the store is what one Delete by the owner
leaves, or the old one if no requester owns the monitor. -/
structure Idempotent (database : Database) (id : Int) (final : System Tag World) : Prop where
  answers : ∀ answer ∈ final.answers, answer.2 = .index .ok
  owned : ∀ answer ∈ final.answers, sees database.toStore id answer.1 = true →
    final.store = ((answer.1.load database.toStore).save database.toStore).2
  unowned : (∀ answer ∈ final.answers, sees database.toStore id answer.1 = false) →
    final.store = database.toStore

theorem deletesAlone_iff {system : System Tag World}
    {abstract : Config Tag (Operation World) Bool Removal.Outcome Bool}
    {next : Step Tag (Operation World)} (deletes : ∀ op, next.op? = some op → IsDelete id op)
    (related : (removal database id).Related system abstract) :
    DeletesAlone id system next ↔ Removal.Alone (sees database.toStore id) abstract next := by
  have idle : (∀ task ∈ system.inFlight, task.pending.context.entries = []) ↔
      ∀ task ∈ abstract.inFlight, task.pending = false := by
    refine forall_mem_iff_of_forall₂ related.inFlight ?_
    intro left right same
    obtain ⟨-, -, -, userId, -, -, shape⟩ := same
    rw [shape]
    cases right.pending <;> simp
  have store : system.store = if abstract.store then database.toStore else database.without id :=
    related.store
  have visible : ∀ op : Operation World, IsDelete id op →
      (sees system.store id op = true ↔ (abstract.store && sees database.toStore id op) = true) := by
    intro op delete
    obtain ⟨userId, rfl⟩ := delete
    rw [store]
    cases abstract.store with
    | true => simp
    | false => simp [sees, ApplicationDbContext.findMonitor_without]
  unfold DeletesAlone Removal.Alone
  rw [related.starts?_eq next, idle]
  refine forall_congr' fun op => forall_congr' fun starts => ?_
  rw [visible op (deletes op (Config.op?_of_starts starts))]

section Schedule

variable {steps : List (Step Tag (Operation World))}
  (deletes : ∀ next ∈ steps, ∀ op, next.op? = some op → IsDelete id op)
include deletes

theorem related_removal (database : Database) :
    (removal database id).Related
      (Phased.run (machine World) { store := database.toStore } steps)
      (Phased.run (Removal.machine (sees database.toStore id)) { store := true } steps) :=
  Simulation.Related.run deletes ⟨rfl, .nil, .nil⟩

theorem store_of_deletes {final : System Tag World}
    (ran : final = Phased.run (machine World) { store := database.toStore } steps) :
    final.store =
      if ∀ answer ∈ final.answers, sees database.toStore id answer.1 = false then database.toStore
      else database.without id := by
  have related := related_removal deletes database
  rw [← ran] at related
  generalize ranAbstract : Phased.run (Removal.machine (sees database.toStore id)) { store := true }
    steps = abstract at related
  have tracked : Removal.Tracked (sees database.toStore id) abstract :=
    ranAbstract ▸ Removal.tracked_run
  have same : (∀ answer ∈ final.answers, sees database.toStore id answer.1 = false) ↔
      ∀ answer ∈ abstract.answers, sees database.toStore id answer.1 = false :=
    forall_mem_iff_of_forall₂ related.answers fun left right match_ => by rw [match_.1]
  have present : abstract.store = true ↔
      ∀ answer ∈ abstract.answers, sees database.toStore id answer.1 = false := by
    rw [tracked.answered]
    simp
  have store : final.store = if abstract.store then database.toStore else database.without id :=
    related.store
  rw [store]
  exact if_congr (present.trans same.symm) rfl rfl

theorem answers_of_deletes {final : System Tag World}
    (ran : final = Phased.run (machine World) { store := database.toStore } steps)
    (completed : final.inFlight = []) :
    (∀ answer ∈ final.answers, answer.2 = .index .ok) ↔
      Along (machine World) (DeletesAlone id) { store := database.toStore } steps := by
  have related := related_removal deletes database
  rw [← ran] at related
  have finished : (Phased.run (Removal.machine (sees database.toStore id)) { store := true }
      steps).inFlight = [] := by
    have lengths := related.inFlight.length_eq
    rw [completed] at lengths
    exact List.eq_nil_of_length_eq_zero lengths.symm
  have done : (∀ answer ∈ final.answers, answer.2 = .index .ok) ↔
      ∀ answer ∈ (Phased.run (Removal.machine (sees database.toStore id)) { store := true }
        steps).answers, answer.2 = .done := by
    refine forall_mem_iff_of_forall₂ related.answers ?_
    intro left right same
    have given : left.2 = match right.2 with
      | .done => .index .ok
      | .conflict => .exception .dbUpdateConcurrency := same.2.2
    rw [given]
    cases right.2 <;> simp
  have initial : (removal database id).Related
      ({ store := database.toStore } : System Tag World) { store := true } := ⟨rfl, .nil, .nil⟩
  rw [done, Removal.done_iff_along finished]
  exact (initial.along_iff (DeletesAlone id) _ (fun _ _ _ => deletesAlone_iff) deletes).symm

theorem isDelete_of_answer {final : System Tag World}
    (ran : final = Phased.run (machine World) { store := database.toStore } steps) :
    ∀ answer ∈ final.answers, IsDelete id answer.1 := by
  have related := related_removal deletes database
  rw [← ran] at related
  refine (forall_mem_iff_of_forall₂ related.answers ?_).mpr fun _ _ => trivial
  intro left right same
  exact iff_true_intro same.2.1

end Schedule

/-- Deletes of one id are idempotent exactly in the schedules where none that
finds the record starts while another that found it has yet to save: the second
DELETE then hits no row and raises. -/
theorem deletes_idempotent_iff (database : Database) (id : Int)
    (steps : List (Step Tag (Operation World)))
    (deletes : ∀ next ∈ steps, ∀ op, next.op? = some op → IsDelete id op)
    (completed : (Phased.run (machine World) { store := database.toStore } steps).inFlight = []) :
    Idempotent database id (Phased.run (machine World) { store := database.toStore } steps) ↔
      Along (machine World) (DeletesAlone id) { store := database.toStore } steps := by
  generalize ran : Phased.run (machine World) { store := database.toStore } steps = final
    at completed ⊢
  have store := store_of_deletes deletes ran.symm
  rw [← answers_of_deletes deletes ran.symm completed]
  constructor
  · exact Idempotent.answers
  · intro answers
    refine ⟨answers, ?_, fun nobody => store.trans (if_pos nobody)⟩
    intro answer given seen
    have somebody : ¬ ∀ answer ∈ final.answers, sees database.toStore id answer.1 = false := by
      intro nobody
      rw [nobody answer given] at seen
      contradiction
    rw [store, if_neg somebody,
      delete_of_sees (isDelete_of_answer deletes ran.symm answer given) seen]

def oneMonitor : Database where
  urlMonitors := [{ id := 1, ownerId := "alice", url := "https://a.example", createdAt := 10 }]
  latencyHistories := [{ id := 1, urlMonitorId := 1, checkedAt := 10, statusCode := 200 }]
  nextMonitorId := 2
  nextHistoryId := 2
  valid := by decide

/-- A double click: both requests look before either saves. -/
def doubleDelete : List (Step Nat (Operation Unit)) :=
  [.load 0 (.web (some "alice") (.delete 1)), .load 1 (.web (some "alice") (.delete 1)),
    .save 0, .save 1]

theorem deletes_idempotent_iff_double_delete :
    Idempotent oneMonitor 1
        (Phased.run (machine Unit) { store := oneMonitor.toStore } doubleDelete) ↔
      Along (machine Unit) (DeletesAlone 1) { store := oneMonitor.toStore } doubleDelete :=
  deletes_idempotent_iff oneMonitor 1 doubleDelete
    (by simp [doubleDelete, Step.op?, IsDelete]) (by decide)

/-- The second request ends in an unhandled concurrency exception. -/
theorem not_idempotent_double_delete :
    ¬ Idempotent oneMonitor 1
      (Phased.run (machine Unit) { store := oneMonitor.toStore } doubleDelete) := by
  intro idempotent
  exact absurd idempotent.answers (by decide)

end UrlPulse
