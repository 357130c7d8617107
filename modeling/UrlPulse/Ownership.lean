import UrlPulse.Deletes
import UrlPulse.Toggle
import UrlPulse.Web.CurrentUserService

namespace UrlPulse

open UrlPulse.Core UrlPulse.Infrastructure UrlPulse.Web UrlPulse.Web.CurrentUserService
open UrlPulse.Worker UrlPulse.Data UrlPulse.Data.Phased

/-! # Who can reach a monitor

The stamp on the write side falls back to the empty string where a principal has
no id; the filter on the read side compares with the missing id itself.
-/

variable {Tag World : Type} [DecidableEq Tag] {store after : Store} {system : System Tag World}

/-- Both lists show the monitor, and both commands change it. -/
structure Reaches (userId : Option String) (id : Int) (store : Store) : Prop where
  listed : ∃ listing ∈ Index.onGetAsync { currentUserId := userId } store, listing.id = id
  selectable : ∃ choice ∈ Analytics.onGetAsync { currentUserId := userId } store, choice.id = id
  deletes : (handle userId (.delete id : WebRequest Unit) store).2 = store.without id
  pauses : ∃ monitor ∈ store.urlMonitors, monitor.id = id ∧
    (handle userId (.setPause id : WebRequest Unit) store).2 = store.setPaused id !monitor.isPaused

/-! ## One store -/

theorem reaches_iff {monitor : UrlMonitor} (valid : store.Valid) (stored : monitor ∈ store.urlMonitors)
    (userId : Option String) :
    Reaches userId monitor.id store ↔ userId = some monitor.ownerId := by
  constructor
  · intro reaches
    obtain ⟨listing, listed, same⟩ := reaches.listed
    obtain ⟨other, ordered, rfl⟩ := List.mem_map.mp listed
    obtain ⟨inTable, visible⟩ := List.mem_filter.mp (Linq.mem_orderByDescending.mp ordered)
    rw [← valid.monitor_unique inTable stored same]
    simpa [ApplicationDbContext.queryFilter] using visible
  · intro owner
    subst owner
    have flagged : Flagged monitor monitor.isPaused store := ⟨valid, stored⟩
    have visible : monitor ∈
        ApplicationDbContext.urlMonitors { currentUserId := some monitor.ownerId } store :=
      List.mem_filter.mpr ⟨stored, by simp [ApplicationDbContext.queryFilter]⟩
    have present : monitor.id ∈ store.monitorIds := List.mem_map_of_mem stored
    constructor
    · exact ⟨_, List.mem_map_of_mem (Linq.mem_orderByDescending.mpr visible), rfl⟩
    · exact ⟨_, List.mem_map_of_mem (Linq.mem_orderByDescending.mpr visible), rfl⟩
    · have found : sees store monitor.id
          (.web (some monitor.ownerId) (.delete monitor.id) : Operation Unit) = true := by
        simp only [sees, flagged.found, Option.isSome_some]
      exact delete_of_sees ⟨some monitor.ownerId, rfl⟩ found
    · refine ⟨monitor, stored, rfl, ?_⟩
      have loaded := load_toggle Unit flagged
      rw [Operation.load] at loaded
      rw [handle, loaded, Pending.save_modifiedIsPaused, if_pos present]

/-! ## Creations -/

/-- The key and the creator, where a step completes a create that is answered well. -/
def creation? (system : System Tag World) (next : Step Tag (Operation World)) :
    Option (Int × Option String) :=
  match system.completes? (machine World) next with
  | some (.web userId (.create _ _ _ _), pending) =>
      if (pending.save system.store).1 = .index .redirectToPage then
        some (system.store.nextMonitorId, userId)
      else none
  | _ => none

def creations : System Tag World → List (Step Tag (Operation World)) → List (Int × Option String)
  | _, [] => []
  | system, next :: rest =>
      (creation? system next).toList ++ creations (step (machine World) system next) rest

/-- Only a create inserts a monitor, and then one, stamped with its principal's id. -/
def StampPromise (op : Operation World) (pending : Pending) : Prop :=
  match op with
  | .web userId (.create _ _ _ _) =>
      (pending.response = .index .redirectToPage →
        ∃ monitor history, pending.statements = [.addedMonitor monitor history] ∧
          monitor.ownerId = userId.getD "") ∧
      (pending.response ≠ .index .redirectToPage → pending.statements = [])
  | _ => ∀ monitor history, .addedMonitor monitor history ∉ pending.statements

theorem load_no_creation {op : Operation World} (store : Store)
    (other : ∀ userId checker world utcNow form,
      op ≠ .web userId (.create checker world utcNow form)) :
    ∀ monitor history, .addedMonitor monitor history ∉ (op.load store).statements := by
  intro monitor history member
  rcases load_cases op store with
    none | ⟨userId, checker, world, utcNow, form, result, same, -⟩ | ⟨userId, id, found, rfl, -, loaded⟩ |
    ⟨userId, id, found, rfl, -, loaded⟩ | ⟨run, rows, rfl, -, loaded⟩
  · rw [none] at member
    contradiction
  · exact other userId checker world utcNow form same
  · rw [loaded] at member
    cases List.mem_singleton.mp member
  · rw [loaded] at member
    cases List.mem_singleton.mp member
  · rw [loaded] at member
    simp [Pending.statements] at member

theorem load_stampPromise (op : Operation World) (store : Store) :
    StampPromise op (op.load store) := by
  cases op with
  | worker run => exact load_no_creation store (by simp)
  | web userId request =>
      cases request with
      | create checker world utcNow form =>
          rcases load_create userId checker world utcNow form store with
            ⟨none, answer⟩ | ⟨result, after, -, one, answer⟩
          · exact ⟨fun redirected => absurd redirected answer, fun _ => none⟩
          · exact ⟨fun _ => ⟨_, _, one, rfl⟩, fun other => absurd answer other⟩
      | _ => exact load_no_creation store (by simp)

/-- Every stored monitor has been created, and carries its creator's id. -/
structure Attributed (created : List (Int × Option String)) (store : Store) : Prop where
  known : ∀ monitor ∈ store.urlMonitors, ∃ userId, (monitor.id, userId) ∈ created
  owners : ∀ id userId, (id, userId) ∈ created → Fixed (·.ownerId) id (userId.getD "") store

section Attributed

variable {created : List (Int × Option String)}

theorem Attributed.insertMonitor (attributed : Attributed created store) (valid : store.Valid)
    {monitor : UrlMonitor} {userId : Option String} (stamped : monitor.ownerId = userId.getD "")
    (texts : (isText monitor.url && isText monitor.ownerId) = true) (history : List LatencyHistory) :
    Attributed (created ++ [(store.nextMonitorId, userId)]) (store.insertMonitor monitor history) := by
  constructor
  · intro stored member
    rcases List.mem_append.mp member with old | new
    · obtain ⟨creator, recorded⟩ := attributed.known stored old
      exact ⟨creator, List.mem_append_left _ recorded⟩
    · rw [List.mem_singleton.mp new]
      exact ⟨userId, List.mem_append_right _ (List.mem_singleton.mpr rfl)⟩
  · intro id creator recorded
    rcases List.mem_append.mp recorded with old | new
    · have inserted : (EntityEntry.addedMonitor monitor history).apply store =
          .ok (store.insertMonitor monitor history) := if_pos texts
      exact (attributed.owners id creator old).apply (fun _ _ => rfl) inserted
    · cases List.mem_singleton.mp new
      exact .insertMonitor valid stamped history

/-- What is not a creation leaves no monitor that was not there. -/
theorem Attributed.apply {entry : EntityEntry} (attributed : Attributed created store)
    (other : ∀ monitor history, entry ≠ .addedMonitor monitor history)
    (applied : entry.apply store = .ok after) : Attributed created after := by
  refine ⟨?_, fun id userId recorded => (attributed.owners id userId recorded).apply
    (fun _ _ => rfl) applied⟩
  intro monitor member
  rcases EntityEntry.apply_cases applied with
    ⟨added, history, same, -⟩ | ⟨row, rfl, -, rfl⟩ | ⟨id, isPaused, rfl, -, rfl⟩ | ⟨id, rfl, -, rfl⟩
  · exact absurd same (other added history)
  · exact attributed.known monitor member
  · obtain ⟨original, inside, flag, rfl⟩ := Store.mem_setPaused member
    exact attributed.known original inside
  · exact attributed.known monitor (List.mem_of_mem_filter member)

theorem Attributed.save {pending : Pending} (attributed : Attributed created store)
    (none : ∀ monitor history, .addedMonitor monitor history ∉ pending.statements) :
    Attributed created (pending.save store).2 := by
  refine Pending.save_invariant (P := Attributed created) ?_ attributed
  intro entry member before next held applied
  refine held.apply ?_ applied
  intro monitor history same
  exact none monitor history (same ▸ member)

theorem Attributed.complete {next : Step Tag (Operation World)} {op : Operation World}
    {pending : Pending} (attributed : Attributed created system.store) (valid : system.store.Valid)
    (complete : system.completes? (machine World) next = some (op, pending))
    (promise : StampPromise op pending) :
    Attributed (created ++ (creation? system next).toList) (pending.save system.store).2 := by
  cases op with
  | worker run =>
      simp only [creation?, complete, Option.toList, List.append_nil]
      exact attributed.save promise
  | web userId request =>
      cases request with
      | create checker world utcNow form =>
          by_cases answer : pending.response = .index .redirectToPage
          · obtain ⟨monitor, history, one, stamped⟩ := promise.1 answer
            simp only [creation?, complete, Pending.save_addedMonitor one]
            by_cases texts : (isText monitor.url && isText monitor.ownerId) = true
            · simp only [if_pos texts, if_pos answer, Option.toList]
              exact attributed.insertMonitor valid stamped texts history
            · simp only [if_neg texts, reduceCtorEq, if_false, Option.toList, List.append_nil]
              exact attributed
          · simp only [creation?, complete, Pending.save_of_no_statements (promise.2 answer),
              if_neg answer, Option.toList, List.append_nil]
            exact attributed
      | _ =>
          simp only [creation?, complete, Option.toList, List.append_nil]
          exact attributed.save promise

theorem Attributed.step (attributed : Attributed created system.store)
    (keeps : Keeps Store.Valid StampPromise system) (next : Step Tag (Operation World)) :
    Attributed (created ++ (creation? system next).toList)
      (Phased.step (machine World) system next).store := by
  cases complete : system.completes? (machine World) next with
  | none =>
      simp only [creation?, complete, Option.toList, List.append_nil]
      rw [(step_incomplete (machine World) system complete).1]
      exact attributed
  | some completed =>
      obtain ⟨op, pending⟩ := completed
      have promise : StampPromise op pending :=
        keeps.complete (fun op store _ _ => load_stampPromise op store) complete
      rw [(step_complete complete).1]
      exact attributed.complete keeps.store complete promise

theorem Attributed.run (attributed : Attributed created system.store)
    (keeps : Keeps Store.Valid StampPromise system) (steps : List (Step Tag (Operation World))) :
    Attributed (created ++ creations system steps)
      (Phased.run (machine World) system steps).store := by
  induction steps generalizing created system with
  | nil =>
      rw [creations, List.append_nil]
      exact attributed
  | cons next rest ih =>
      rw [creations, ← List.append_assoc]
      refine ih (attributed.step keeps next) (keeps.step ?_ ?_)
      · exact fun op store _ _ => load_stampPromise op store
      · exact fun _ pending _ held _ => Pending.save_valid held

end Attributed

/-! ## Every run -/

/-- Every stored monitor has a creator, and its creator can reach it exactly when the
creator's principal has an object identifier. -/
theorem creator_reaches_iff (steps : List (Step Tag (Operation World))) :
    let initial : System Tag World := { store := Store.empty }
    let store := (Phased.run (machine World) initial steps).store
    (∀ monitor ∈ store.urlMonitors, ∃ principal,
      (monitor.id, userId principal) ∈ creations initial steps) ∧
    ∀ id principal, (id, userId principal) ∈ creations initial steps → id ∈ store.monitorIds →
      (Reaches (userId principal) id store ↔
        ∃ claim ∈ principal, equalsIgnoreCase claim.type objectIdentifier) := by
  intro initial store
  have keeps : Keeps Store.Valid StampPromise initial :=
    ⟨Store.empty_valid, fun _ member => by contradiction⟩
  have none : Attributed [] initial.store :=
    ⟨fun _ member => by contradiction, fun _ _ member => by contradiction⟩
  have attributed : Attributed (creations initial steps) store := none.run keeps steps
  have valid : store.Valid := run_valid Store.empty_valid steps
  constructor
  · intro monitor stored
    obtain ⟨creator, recorded⟩ := attributed.known monitor stored
    obtain ⟨principal, rfl⟩ := userId_surjective creator
    exact ⟨principal, recorded⟩
  · intro id principal recorded present
    obtain ⟨monitor, stored, rfl⟩ := Store.mem_monitorIds.mp present
    have owner : monitor.ownerId = (userId principal).getD "" :=
      (attributed.owners _ _ recorded).value monitor stored rfl
    rw [reaches_iff valid stored, ← userId_isSome_iff, owner]
    cases userId principal with
    | none => simp
    | some value => simp

/-- A principal with a name and no object identifier creates a monitor. -/
def unnamedCreator : List (Step Nat (Operation Unit)) :=
  let up : IUrlChecker Unit := fun _ _ world =>
    .ok ({ isUp := true, latencyMs := some 20, checkedAt := 1000, statusCode := 200 }, world)
  [.call (.web (userId [⟨"name", "guest"⟩]) (.create up () 1000 { inputUrl := "https://a.example" }))]

theorem not_creator_reaches_unnamedCreator : ¬ ∀ steps : List (Step Nat (Operation Unit)),
    ∀ id principal, (id, userId principal) ∈ creations { store := Store.empty } steps →
      id ∈ (Phased.run (machine Unit) { store := Store.empty } steps).store.monitorIds →
      Reaches (userId principal) id
        (Phased.run (machine Unit) { store := Store.empty } steps).store := by
  intro reaches
  have listed := (reaches unnamedCreator 1 [⟨"name", "guest"⟩] (by decide) (by decide)).listed
  revert listed
  decide

end UrlPulse
