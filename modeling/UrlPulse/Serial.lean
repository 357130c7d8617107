import UrlPulse.Data.Serial
import UrlPulse.Journal

namespace UrlPulse

open UrlPulse.Core UrlPulse.Infrastructure UrlPulse.Web UrlPulse.Worker UrlPulse.Data
open UrlPulse.Data.Phased (Step Keeps Along Quiet serial effects)

/-! # Requests one at a time

A request that only reads shows the tables as they were when it loaded.  A request that
changes a monitor can be thought of as happening at its save, unless another change of
the same monitor came between.
-/

def quiet (World : Type) : Quiet (machine World) where
  test pending := pending.statements.isEmpty
  answer := Pending.response
  saves := fun tested _ => Pending.save_of_no_statements (List.isEmpty_iff.mp tested)

/-- The monitor a pending transaction toggles or deletes. -/
def changed? (pending : Pending) : Option Int :=
  match pending.statements with
  | [.modifiedIsPaused id _] => some id
  | [.deletedMonitor id] => some id
  | _ => none

variable {World Tag : Type} [DecidableEq Tag] {system : System Tag World}

/-- No change of a monitor starts while another one of it is under way. -/
def ChangesApart (system : System Tag World) (next : Step Tag (Operation World)) : Prop :=
  ∀ op id, system.starts? next = some op → changed? (op.load system.store) = some id →
    ∀ task ∈ system.inFlight, changed? task.pending ≠ some id

/-- Moreover a run saves what it would still decide. -/
structure Separate (system : System Tag World) (next : Step Tag (Operation World)) : Prop where
  changes : ChangesApart system next
  runs : ∀ task ∈ system.inFlight, next.saveTag? = some task.tag → ∀ run, task.op = .worker run →
    task.pending.statements ≠ [] → task.pending = loadRun run system.store

def run? : Operation World → Option (TimerRun World)
  | .web _ _ => none
  | .worker run => some run

theorem run?_eq_some {op : Operation World} {run : TimerRun World} :
    run? op = some run ↔ op = .worker run := by
  cases op <;> simp [run?]

instance (system : System Tag World) (next : Step Tag (Operation World)) :
    Decidable (Separate system next) :=
  decidable_of_iff
    (((system.starts? next).all fun op => (changed? (op.load system.store)).all fun id =>
        system.inFlight.all fun task => changed? task.pending ≠ some id) ∧
      ∀ task ∈ system.inFlight, next.saveTag? = some task.tag → (run? task.op).all fun run =>
        task.pending.statements = [] ∨ task.pending = loadRun run system.store) <| by
    simp only [Option.all_eq_true, List.all_eq_true, decide_eq_true_eq, run?_eq_some,
      or_iff_not_imp_left]
    constructor
    · intro tested
      exact ⟨fun op id starts => tested.1 op starts id, tested.2⟩
    · intro apart
      exact ⟨fun op starts id => apart.changes op id starts, apart.runs⟩

section Reload

variable {userId : Option String} {store : Store} {id : Int} {monitor : UrlMonitor}

theorem findMonitor_insertMonitor (added : UrlMonitor) (history : List LatencyHistory)
    (found : ApplicationDbContext.findMonitor { currentUserId := userId } store id = some monitor) :
    ApplicationDbContext.findMonitor { currentUserId := userId }
      (store.insertMonitor added history) id = some monitor := by
  simp only [ApplicationDbContext.findMonitor, ApplicationDbContext.urlMonitors] at found ⊢
  simp [Store.insertMonitor, Store.appendHistories, List.filter_append, List.find?_append, found]

/-- What a user's request finds stays as it is while others change other monitors. -/
theorem findMonitor_save (op : Operation World) (loaded : Store)
    (found : ApplicationDbContext.findMonitor { currentUserId := userId } store id = some monitor)
    (other : changed? (op.load loaded) ≠ some id) :
    ApplicationDbContext.findMonitor { currentUserId := userId }
      ((op.load loaded).save store).2 id = some monitor := by
  rcases load_cases op loaded with
    none | ⟨creator, checker, world, utcNow, form, result, -, statements, -⟩ |
    ⟨deleter, target, targeted, -, -, pending⟩ | ⟨pauser, target, targeted, -, -, pending⟩ |
    ⟨run, rows, -, -, pending⟩
  · rw [Pending.save_of_no_statements none]
    exact found
  · rw [Pending.save_addedMonitor statements]
    split
    · exact findMonitor_insertMonitor _ _ found
    · exact found
  · rw [pending] at other ⊢
    have different : id ≠ target := fun same => other (congrArg some same.symm)
    rw [Pending.save_deletedMonitor]
    split
    · exact (ApplicationDbContext.findMonitor_without_of_ne _ _ different).trans found
    · exact found
  · rw [pending] at other ⊢
    have different : id ≠ target := fun same => other (congrArg some same.symm)
    have key : monitor.id ≠ target := (ApplicationDbContext.findMonitor_some found).2.2 ▸ different
    rw [Pending.save_modifiedIsPaused]
    split
    · rw [ApplicationDbContext.findMonitor_setPaused, found, Option.map_some, if_neg key]
    · exact found
  · rw [pending, Pending.save_batch]
    split
    · exact found
    · exact found

/-- A request that writes would decide the same after another operation's save. -/
theorem load_save (request : WebRequest World) (op : Operation World) (loaded : Store)
    (writes : (request.load userId store).statements ≠ [])
    (other : ∀ id, changed? (request.load userId store) = some id → changed? (op.load loaded) ≠ some id) :
    request.load userId ((op.load loaded).save store).2 = request.load userId store := by
  cases request with
  | create checker world utcNow form =>
      by_cases valid : form.isValid = true
      · simp only [WebRequest.load, Index.onPostAsync, valid]
        rfl
      · simp [WebRequest.load, Index.onPostAsync, valid, Pending.statements] at writes
  | delete id =>
      cases found : ApplicationDbContext.findMonitor { currentUserId := userId } store id with
      | none =>
          rw [load_delete_missing World found] at writes
          contradiction
      | some monitor =>
          rw [load_delete_found World found] at other ⊢
          exact load_delete_found World (findMonitor_save op loaded found (other id rfl))
  | setPause id =>
      cases found : ApplicationDbContext.findMonitor { currentUserId := userId } store id with
      | none =>
          rw [load_setPause_missing World found] at writes
          contradiction
      | some monitor =>
          rw [load_setPause_found World found] at other ⊢
          exact load_setPause_found World (findMonitor_save op loaded found (other id rfl))
  | _ => contradiction

end Reload

/-- Every request under way would decide the same if it loaded now. -/
structure Fresh (system : System Tag World) : Prop where
  keeps : Keeps Store.Valid FromLoad system
  current : ∀ task ∈ system.inFlight, ∀ userId request, task.op = .web userId request →
    task.pending.statements ≠ [] → task.pending = request.load userId system.store
  apart : ∀ left ∈ system.inFlight, ∀ right ∈ system.inFlight, left.tag ≠ right.tag →
    ∀ id, changed? left.pending = some id → changed? right.pending ≠ some id

omit [DecidableEq Tag] in
theorem Fresh.save (fresh : Fresh system) (op : Operation World) (loaded : Store)
    {task : Phased.Task Tag (Operation World) Pending} (member : task ∈ system.inFlight)
    (other : ∀ id, changed? task.pending = some id → changed? (op.load loaded) ≠ some id)
    {userId : Option String} {request : WebRequest World} (same : task.op = .web userId request)
    (writes : task.pending.statements ≠ []) :
    task.pending = request.load userId ((op.load loaded).save system.store).2 := by
  have now := fresh.current task member userId request same writes
  rw [now] at other writes ⊢
  exact (load_save request op loaded writes other).symm

theorem Fresh.step (fresh : Fresh system) {next : Step Tag (Operation World)}
    (apart : ChangesApart system next) : Fresh (Phased.step (machine World) system next) := by
  have keeps := keeps_fromLoad_run fresh.keeps [next]
  simp only [Phased.run] at keeps
  rcases Phased.step_cases (machine World) system next with
    same | ⟨tag, op, rfl, free, begun⟩ | ⟨task, rfl, member, committed⟩ | ⟨op, rfl, called⟩
  · rw [same]
    exact fresh
  · have starts : system.starts? (.load tag op) = some op := if_pos free
    rw [begun] at keeps ⊢
    refine ⟨keeps, ?current, ?apart⟩
    case current =>
      intro task member userId request same writes
      rcases List.mem_append.mp member with old | new
      · exact fresh.current task old userId request same writes
      · rw [List.mem_singleton.mp new] at same ⊢
        simp only at same
        rw [same]
        rfl
    case apart =>
      intro left leftIn right rightIn different id leftChanges rightChanges
      rcases List.mem_append.mp leftIn with oldLeft | newLeft
      · rcases List.mem_append.mp rightIn with oldRight | newRight
        · exact fresh.apart left oldLeft right oldRight different id leftChanges rightChanges
        · rw [List.mem_singleton.mp newRight] at rightChanges
          exact apart op id starts rightChanges left oldLeft leftChanges
      · rcases List.mem_append.mp rightIn with oldRight | newRight
        · rw [List.mem_singleton.mp newLeft] at leftChanges
          exact apart op id starts leftChanges right oldRight rightChanges
        · rw [List.mem_singleton.mp newLeft, List.mem_singleton.mp newRight] at different
          exact different rfl
  · obtain ⟨loaded, -, decided⟩ := fresh.keeps.tasks task member
    rw [committed] at keeps ⊢
    refine ⟨keeps, ?_, ?_⟩
    · intro other remaining userId request same writes
      obtain ⟨inFlight, different⟩ := List.mem_filter.mp remaining
      have tags : other.tag ≠ task.tag := by simpa using different
      have elsewhere := fresh.apart other inFlight task member tags
      have saved : (system.commit (machine World) task).store =
          ((task.op.load loaded).save system.store).2 := by
        rw [← decided]
        rfl
      rw [decided] at elsewhere
      rw [saved]
      exact fresh.save task.op loaded inFlight elsewhere same writes
    · intro left leftIn right rightIn
      exact fresh.apart left (List.mem_of_mem_filter leftIn) right (List.mem_of_mem_filter rightIn)
  · rw [called] at keeps ⊢
    refine ⟨keeps, ?_, fresh.apart⟩
    intro task member userId request same writes
    refine fresh.save op system.store member ?_ same writes
    intro id changes callChanges
    exact apart op id rfl callChanges task member changes

theorem Fresh.saves (fresh : Fresh system) {next : Step Tag (Operation World)}
    (apart : Separate system next) : Phased.Current (quiet World) system next := by
  intro task member same loud
  have writes : task.pending.statements ≠ [] := by
    intro none
    simp [quiet, none] at loud
  cases operation : task.op with
  | web userId request => exact fresh.current task member userId request operation writes
  | worker run => exact apart.runs task member same run operation writes

theorem Fresh.along (fresh : Fresh system) {steps : List (Step Tag (Operation World))}
    (apart : Along (machine World) Separate system steps) :
    Along (machine World) (Phased.Current (quiet World)) system steps := by
  induction steps generalizing system with
  | nil => trivial
  | cons next rest ih => exact ⟨fresh.saves apart.1, ih (fresh.step apart.1.changes) apart.2⟩

theorem fresh_database (database : Database) :
    Fresh ({ store := database.toStore } : System Tag World) where
  keeps := keeps_fromLoad database []
  current := fun _ member => by contradiction
  apart := fun _ member => by contradiction

/-- Where no two changes of one monitor overlap and no run's batch goes stale, a schedule
does what its operations do one at a time.  At each moment the tables and the answers so far
are those of the operations that have taken effect, in that order, and later
moments only append to it. -/
theorem serializable (database : Database) (steps : List (Step Tag (Operation World))) :
    let start : System Tag World := { store := database.toStore }
    Along (machine World) Separate start steps →
    ∀ before, before <+: steps →
      let reached := Phased.run (machine World) start before
      let order := effects (quiet World) start before
      let one := Phased.run (machine World) start (serial order)
      one.store = reached.store ∧
      one.answers.Perm (reached.answers ++ reached.announced (quiet World)) ∧
      order <+: effects (quiet World) start steps := by
  intro start apart before isPrefix reached order one
  obtain ⟨after, rfl⟩ := isPrefix
  have current := (fresh_database database).along apart.of_append
  have started : Phased.Serialized (quiet World) start start := ⟨rfl, List.Perm.refl _, List.nodup_nil⟩
  have finished : Phased.Serialized (quiet World) reached one := started.run current
  refine ⟨finished.store, finished.answers, ?_⟩
  rw [Phased.effects_append]
  exact List.prefix_append _ _

/-- Alice pauses her monitor while Bob deletes his and a page is under way. -/
def interleaved : List (Step Nat (Operation Unit)) :=
  [.load 0 (.web (some "alice") (.setPause 1)), .load 1 (.web (some "alice") .indexGet),
    .load 2 (.web (some "bob") (.delete 2)), .save 2, .save 0, .save 1]

theorem serializable_interleaved :
    let start : System Nat Unit := { store := BatchRun.twoOwners.toStore }
    let reached := Phased.run (machine Unit) start interleaved
    let one := Phased.run (machine Unit) start (serial (effects (quiet Unit) start interleaved))
    one.store = reached.store ∧
      one.answers.Perm (reached.answers ++ reached.announced (quiet Unit)) := by
  have sound := serializable BatchRun.twoOwners interleaved (by decide) interleaved List.prefix_rfl
  exact ⟨sound.1, sound.2.1⟩

/-! ## Users who wait -/

def user? : Operation World → Option (Option String)
  | .web userId _ => some userId
  | .worker _ => none

/-- A user sends a request only when none of his is under way. -/
def Waits (system : System Tag World) (next : Step Tag (Operation World)) : Prop :=
  ∀ op userId, system.starts? next = some op → user? op = some userId →
    ∀ task ∈ system.inFlight, user? task.op ≠ some userId

instance (system : System Tag World) (next : Step Tag (Operation World)) :
    Decidable (Waits system next) :=
  decidable_of_iff
    ((system.starts? next).all fun op => (user? op).all fun userId =>
      system.inFlight.all fun task => user? task.op ≠ some userId) <| by
    simp only [Option.all_eq_true, List.all_eq_true, decide_eq_true_eq]
    constructor
    · intro tested op userId starts
      exact tested op starts userId
    · intro waits op starts userId
      exact waits op userId starts

section Owner

variable {store : Store} {id : Int} {userId : Option String} {request : WebRequest World}

theorem statements_of_changed {pending : Pending} (changes : changed? pending = some id) :
    pending.statements ≠ [] := by
  intro none
  simp [changed?, none] at changes

theorem changed?_batch (rows : List LatencyHistory) (response : Response) :
    changed? { context := { currentUserId := userId, entries := rows.map .addedHistory }
               response } = none := by
  match rows with
  | [] | [_] | _ :: _ :: _ => rfl

/-- Only its owner changes a monitor. -/
theorem owner_of_changed {op : Operation World} (changes : changed? (op.load store) = some id) :
    ∃ monitor request, monitor ∈ store.urlMonitors ∧ monitor.id = id ∧
      op = .web (some monitor.ownerId) request := by
  rcases load_cases op store with
    none | ⟨creator, checker, world, utcNow, form, result, -, statements, -⟩ |
    ⟨deleter, target, monitor, rfl, found, loaded⟩ | ⟨pauser, target, monitor, rfl, found, loaded⟩ |
    ⟨run, rows, -, -, loaded⟩
  · simp [changed?, none] at changes
  · simp [changed?, statements] at changes
  · rw [loaded] at changes
    obtain ⟨stored, owner, key⟩ := ApplicationDbContext.findMonitor_some found
    cases changes
    exact ⟨monitor, _, stored, key, by rw [← owner]⟩
  · rw [loaded] at changes
    obtain ⟨stored, owner, key⟩ := ApplicationDbContext.findMonitor_some found
    cases changes
    exact ⟨monitor, _, stored, key, by rw [← owner]⟩
  · rw [loaded, changed?_batch] at changes
    contradiction

/-- A request fails at its load only where its check does. -/
theorem fault_of_response {fault : Fault}
    (failed : (request.load userId store).response = .exception fault) :
    ∃ checker world utcNow form, request = .create checker world utcNow form ∧
      checker form.inputUrl (form.inputTimeout.getD 5000) world = .error fault := by
  cases request with
  | create checker world utcNow form =>
      refine ⟨checker, world, utcNow, form, rfl, ?_⟩
      by_cases valid : form.isValid = true
      · cases checked : checker form.inputUrl (form.inputTimeout.getD 5000) world with
        | ok outcome => simp [WebRequest.load, Index.onPostAsync, valid, checked] at failed
        | error other =>
            simp only [WebRequest.load, Index.onPostAsync, valid, checked] at failed
            cases failed
            rfl
      · simp [WebRequest.load, Index.onPostAsync, valid] at failed
  | delete target =>
      cases found : ApplicationDbContext.findMonitor { currentUserId := userId } store target with
      | none => simp [load_delete_missing World found] at failed
      | some monitor => simp [load_delete_found World found] at failed
  | setPause target =>
      cases found : ApplicationDbContext.findMonitor { currentUserId := userId } store target with
      | none => simp [load_setPause_missing World found] at failed
      | some monitor => simp [load_setPause_found World found] at failed
  | _ => simp [WebRequest.load] at failed

/-- A create the database has no text for. -/
def Unwritable (userId : Option String) (request : WebRequest World) : Prop :=
  ∃ checker world utcNow form, request = .create checker world utcNow form ∧
    (isText form.inputUrl && isText (userId.getD "")) = false

/-- What an operation decides here goes through here, if it can be written at all. -/
theorem save_load (op : Operation World) (store : Store) :
    ((op.load store).save store).1 = (op.load store).response ∨
      ∃ userId request, op = .web userId request ∧ Unwritable userId request := by
  rcases load_cases op store with
    none | ⟨creator, checker, world, utcNow, form, result, same, statements, -⟩ |
    ⟨deleter, target, monitor, -, found, loaded⟩ | ⟨pauser, target, monitor, -, found, loaded⟩ |
    ⟨run, rows, -, batched, loaded⟩
  · left
    rw [Pending.save_of_no_statements none]
  · rw [Pending.save_addedMonitor statements]
    split
    case isTrue => exact .inl rfl
    case isFalse refused =>
      exact .inr ⟨creator, _, same, checker, world, utcNow, form, rfl, Bool.eq_false_iff.mpr refused⟩
  · left
    rw [loaded, Pending.save_deletedMonitor,
      if_pos (ApplicationDbContext.mem_monitorIds_of_found found)]
  · left
    rw [loaded, Pending.save_modifiedIsPaused,
      if_pos (ApplicationDbContext.mem_monitorIds_of_found found)]
  · left
    have referenced : ∀ row ∈ rows, row.urlMonitorId ∈ store.monitorIds := by
      intro row member
      obtain ⟨monitor, stored, _, result, _, -, rfl⟩ := TimerRun.batch_recorded batched row member
      exact List.mem_map_of_mem stored
    rw [loaded, Pending.save_batch, if_pos referenced]

end Owner

theorem Fresh.changesApart (fresh : Fresh system) {next : Step Tag (Operation World)}
    (waits : Waits system next) : ChangesApart system next := by
  intro op id starts changes task member taskChanges
  obtain ⟨monitor, request, stored, key, rfl⟩ := owner_of_changed changes
  obtain ⟨loaded, -, decided⟩ := fresh.keeps.tasks task member
  obtain ⟨owned, other, -, -, operation⟩ := owner_of_changed (decided ▸ taskChanges)
  have current := fresh.current task member _ other operation (statements_of_changed taskChanges)
  have changesNow : changed? (task.op.load system.store) = some id := by
    rw [operation, ← taskChanges, current]
    rfl
  obtain ⟨sameMonitor, same, sameStored, sameKey, sameOperation⟩ := owner_of_changed changesNow
  have unique := fresh.keeps.store.monitor_unique sameStored stored (sameKey.trans key.symm)
  rw [unique] at sameOperation
  exact waits _ _ starts rfl task member (congrArg user? sameOperation)

/-- The answer to a request is no failure, unless its check threw or it has no text. -/
def Answered (answer : Operation World × Response) : Prop :=
  ∀ userId request fault, answer = (.web userId request, .exception fault) →
    Unwritable userId request ∨
    ∃ checker world utcNow form, request = .create checker world utcNow form ∧
      checker form.inputUrl (form.inputTimeout.getD 5000) world = .error fault

/-- Nothing a fresh request saves is refused. -/
theorem Fresh.answered (fresh : Fresh system) {next : Step Tag (Operation World)}
    {op : Operation World} {pending : Pending}
    (completes : system.completes? (machine World) next = some (op, pending)) :
    Answered (op, (pending.save system.store).1) := by
  intro userId request fault same
  obtain ⟨rfl, failed⟩ := Prod.mk.inj same
  obtain ⟨loaded, -, decided⟩ := fresh.keeps.complete
    (fun _ store _ valid => ⟨store, valid, rfl⟩) completes
  have now : pending.statements = [] ∨ pending = (Operation.web userId request).load system.store := by
    cases next with
    | load tag other => contradiction
    | call other =>
        cases completes
        exact .inr rfl
    | save tag =>
        obtain ⟨task, found, same⟩ := Option.map_eq_some_iff.mp completes
        obtain ⟨operation, rfl⟩ := Prod.mk.inj same
        exact or_iff_not_imp_left.mpr
          (fresh.current task (Phased.Config.task?_some found).1 userId request operation)
  cases now with
  | inl none =>
      rw [Pending.save_of_no_statements none, decided] at failed
      exact .inr (fault_of_response failed)
  | inr current =>
      rcases save_load (Operation.web userId request) system.store with goesThrough | unwritable
      · rw [current, goesThrough] at failed
        exact .inr (fault_of_response failed)
      · obtain ⟨creator, create, same, without⟩ := unwritable
        cases same
        exact .inl without

/-- Where users wait for their answers, no two changes of one monitor are ever under
way together, and a request fails only where its check throws or its text cannot be
written. -/
theorem waiting_users_never_conflict (database : Database) (steps : List (Step Tag (Operation World))) :
    let start : System Tag World := { store := database.toStore }
    let system := Phased.run (machine World) start steps
    Along (machine World) Waits start steps →
    (∀ left ∈ system.inFlight, ∀ right ∈ system.inFlight, left.tag ≠ right.tag →
      ∀ id, changed? left.pending = some id → changed? right.pending ≠ some id) ∧
    ∀ answer ∈ system.answers, Answered answer := by
  intro start system waits
  have kept : ∀ (current : System Tag World) next, Waits current next →
      Fresh current ∧ (∀ answer ∈ current.answers, Answered answer) →
      Fresh (Phased.step (machine World) current next) ∧
        ∀ answer ∈ (Phased.step (machine World) current next).answers, Answered answer := by
    intro current next waiting held
    obtain ⟨fresh, answered⟩ := held
    refine ⟨fresh.step (fresh.changesApart waiting), ?_⟩
    cases completed : current.completes? (machine World) next with
    | none =>
        rw [(Phased.step_incomplete _ _ completed).2]
        exact answered
    | some complete =>
        obtain ⟨op, pending⟩ := complete
        rw [(Phased.step_complete completed).2]
        intro answer member
        rcases List.mem_append.mp member with old | new
        · exact answered answer old
        · rw [List.mem_singleton.mp new]
          exact fresh.answered completed
  have reached := Phased.along_invariant kept waits
    ⟨fresh_database database, fun _ member => by contradiction⟩
  exact ⟨reached.1.apart, reached.2⟩

/-- A run is under way while Alice pauses her monitor and Bob deletes his. -/
def waiting : List (Step Nat (Operation Unit)) :=
  [.load 0 (.worker BatchRun.bothUp), .load 1 (.web (some "alice") (.setPause 1)),
    .load 2 (.web (some "bob") (.delete 2)), .save 2, .save 1, .save 0]

/-- The run is refused, the users are not. -/
theorem waiting_users_never_conflict_waiting :
    let system := Phased.run (machine Unit)
      ({ store := BatchRun.twoOwners.toStore } : System Nat Unit) waiting
    system.answers.map (·.2) =
      [.index .ok, .index (.isPaused true), .exception (.dbUpdate Store.foreignKeyName)] ∧
    ∀ answer ∈ system.answers, Answered answer :=
  ⟨by decide, (waiting_users_never_conflict BatchRun.twoOwners waiting (by decide)).2⟩

end UrlPulse
