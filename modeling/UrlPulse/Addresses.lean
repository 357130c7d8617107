import UrlPulse.Data.Relabel
import UrlPulse.Deletes

namespace UrlPulse

open UrlPulse.Core UrlPulse.Infrastructure UrlPulse.Web UrlPulse.Worker UrlPulse.Data
open UrlPulse.Data.Phased (Step)

/-! # Which addresses are requested

The form is the only way in for an address, and it lets in nothing but http and
https.  Every check goes to an address that has come in this way.
-/

variable {World Tag : Type} {store after : Store}

/-- What the attributes of `InputUrl` let in. -/
def allowed (url : String) : Bool := !isNullOrWhiteSpace url && Index.matchesUrlPattern url

theorem allowed_of_isValid {form : Index.CreateForm} (valid : form.isValid = true) :
    allowed form.inputUrl = true := by
  simp only [Index.CreateForm.isValid, Bool.and_eq_true] at valid
  simp only [allowed, Bool.and_eq_true]
  exact ⟨valid.1.2, valid.2⟩

def AddressesAllowed (store : Store) : Prop :=
  ∀ monitor ∈ store.urlMonitors, allowed monitor.url = true

/-- If it puts in a monitor, the address is allowed. -/
def Admitted (entry : EntityEntry) : Prop :=
  ∀ monitor history, entry = .addedMonitor monitor history → allowed monitor.url = true

theorem load_admitted (op : Operation World) (store : Store) :
    ∀ entry ∈ (op.load store).statements, Admitted entry := by
  rintro _ member monitor history rfl
  rcases load_cases op store with
    none | ⟨userId, checker, world, utcNow, form, result, rfl, statements, -⟩ |
    ⟨userId, target, found, rfl, -, loaded⟩ | ⟨userId, target, found, rfl, -, loaded⟩ |
    ⟨run, rows, rfl, -, loaded⟩
  · rw [none] at member
    contradiction
  · rw [statements] at member
    cases List.mem_singleton.mp member
    by_cases valid : form.isValid = true
    · exact allowed_of_isValid valid
    · simp [Operation.load, WebRequest.load, Index.onPostAsync, valid, Pending.statements] at statements
  · rw [loaded] at member
    cases List.mem_singleton.mp member
  · rw [loaded] at member
    cases List.mem_singleton.mp member
  · rw [loaded] at member
    simp [Pending.statements] at member

theorem AddressesAllowed.apply {entry : EntityEntry} (addresses : AddressesAllowed store)
    (admitted : Admitted entry) (applied : entry.apply store = .ok after) : AddressesAllowed after := by
  intro monitor member
  rcases EntityEntry.apply_cases applied with
    ⟨added, history, rfl, -, rfl⟩ | ⟨row, rfl, -, rfl⟩ | ⟨id, isPaused, rfl, -, rfl⟩ | ⟨id, rfl, -, rfl⟩
  · rcases List.mem_append.mp member with old | new
    · exact addresses monitor old
    · rw [List.mem_singleton.mp new]
      exact admitted added history rfl
  · exact addresses monitor member
  · obtain ⟨original, inside, flag, rfl⟩ := Store.mem_setPaused member
    exact addresses original inside
  · exact addresses monitor (List.mem_of_mem_filter member)

/-! ## Checks of other addresses -/

/-- The checker, with other answers where the address is not allowed. -/
def guarded (elsewhere checker : IUrlChecker World) : IUrlChecker World :=
  fun url => if allowed url then checker url else elsewhere url

def Operation.guarded (elsewhere : IUrlChecker World) : Operation World → Operation World
  | .web userId (.create checker world utcNow form) =>
      .web userId (.create (UrlPulse.guarded elsewhere checker) world utcNow form)
  | .web userId request => .web userId request
  | .worker run => .worker { run with checker := UrlPulse.guarded elsewhere run.checker }

theorem guarded_of_allowed (elsewhere checker : IUrlChecker World) {url : String}
    (address : allowed url = true) : guarded elsewhere checker url = checker url :=
  if_pos address

theorem checkMonitors_guarded (elsewhere checker : IUrlChecker World) (region : String) (now : DateTime)
    {loaded : List (UrlMonitor × List LatencyHistory)} (world : World)
    (addresses : ∀ entry ∈ loaded, allowed entry.1.url = true) :
    checkMonitors (guarded elsewhere checker) region now loaded world =
      checkMonitors checker region now loaded world := by
  induction loaded generalizing world with
  | nil => rfl
  | cons entry rest ih =>
      obtain ⟨first, later⟩ := List.forall_mem_cons.mp addresses
      obtain ⟨monitor, history⟩ := entry
      simp only [checkMonitors, guarded_of_allowed elsewhere checker first, ih _ later]

theorem onPostAsync_guarded (elsewhere checker : IUrlChecker World) (world : World) (utcNow : DateTime)
    (form : Index.CreateForm) (context : ApplicationDbContext) (store : Store) :
    Index.onPostAsync (guarded elsewhere checker) world utcNow form context store =
      Index.onPostAsync checker world utcNow form context store := by
  cases valid : form.isValid with
  | false => simp [Index.onPostAsync, valid]
  | true =>
      simp only [Index.onPostAsync, valid,
        guarded_of_allowed elsewhere checker (allowed_of_isValid valid)]

theorem load_guarded (elsewhere : IUrlChecker World) (op : Operation World)
    (addresses : AddressesAllowed store) : (op.guarded elsewhere).load store = op.load store := by
  cases op with
  | worker run =>
      have entries : ∀ entry ∈ loadMonitors run.checkRegion store, allowed entry.1.url = true := by
        intro entry loaded
        obtain ⟨monitor, selected, rfl⟩ := List.mem_map.mp loaded
        exact addresses monitor (List.mem_of_mem_filter selected)
      have sameRegion : ({ run with checker := guarded elsewhere run.checker } : TimerRun World).checkRegion =
          run.checkRegion := rfl
      have looped := checkMonitors_guarded elsewhere run.checker run.checkRegion run.now run.world entries
      have batched : ({ run with checker := guarded elsewhere run.checker } : TimerRun World).batch store =
          run.batch store := by
        simp only [TimerRun.batch, sameRegion, looped]
      simp only [Operation.guarded, Operation.load, loadRun, TimerRun.runUntilSave, batched]
  | web userId request =>
      cases request with
      | create checker world utcNow form =>
          simp only [Operation.guarded, Operation.load, WebRequest.load, onPostAsync_guarded]
      | _ => rfl

variable [DecidableEq Tag]

theorem addressesAllowed_run {database : Database} (addresses : AddressesAllowed database.toStore)
    (steps : List (Step Tag (Operation World))) :
    AddressesAllowed (Phased.run (machine World)
      ({ store := database.toStore } : System Tag World) steps).store := by
  exact run_statements (P := AddressesAllowed) (Q := Admitted)
    (fun _ _ _ admitted held applied => held.apply admitted applied)
    (fun _ _ op store _ _ => load_admitted op store) (fun _ member => by contradiction) addresses

/-- If the database has no other address to begin with, every stored address is
http or https and has no line feed, in every schedule; and no check ever goes
elsewhere: whatever answers the checkers would give for other addresses, storage, work
under way and all responses are the same. -/
theorem only_allowed_requested (database : Database) (addresses : AddressesAllowed database.toStore)
    (elsewhere : IUrlChecker World) (steps : List (Step Tag (Operation World))) :
    let final := Phased.run (machine World) ({ store := database.toStore } : System Tag World) steps
    let other := Phased.run (machine World) ({ store := database.toStore } : System Tag World)
      (steps.map (Step.mapOp (Operation.guarded elsewhere)))
    AddressesAllowed final.store ∧ other.store = final.store ∧
      other.inFlight.map (fun task => (task.tag, task.pending)) =
        final.inFlight.map (fun task => (task.tag, task.pending)) ∧
      other.answers.map Prod.snd = final.answers.map Prod.snd := by
  intro final other
  have replaced : other = final.mapOp (Operation.guarded elsewhere) :=
    Phased.run_mapOp (P := AddressesAllowed) rfl
      (fun op _ held => load_guarded elsewhere op held)
      fun before _ => addressesAllowed_run addresses before
  refine ⟨addressesAllowed_run addresses steps, ?_⟩
  rw [replaced]
  simp [Phased.Config.mapOp, Phased.Task.mapOp, Function.comp_def]

/-- Alice posts an address of another scheme and then one that is let in; a run follows. -/
def twoForms : List (Step Nat (Operation Unit)) :=
  let up : IUrlChecker Unit := fun _ _ world =>
    .ok ({ isUp := true, latencyMs := some 20, checkedAt := 1000, statusCode := 200 }, world)
  [.call (.web (some "alice") (.create up () 1000 { inputUrl := "file:///etc/passwd" })),
    .call (.web (some "alice") (.create up () 1000 { inputUrl := "http://b.example" })),
    .call (.worker { regionName := some "eastus", now := 2000, checker := up, world := () })]

theorem only_allowed_requested_twoForms :
    let final := Phased.run (machine Unit) ({ store := oneMonitor.toStore } : System Nat Unit) twoForms
    final.store.urlMonitors.map (·.url) = ["https://a.example", "http://b.example"] ∧
    (Phased.run (machine Unit) ({ store := oneMonitor.toStore } : System Nat Unit)
      (twoForms.map (Step.mapOp (Operation.guarded fun _ _ _ => .error .argumentOutOfRange)))).store =
        final.store :=
  ⟨by decide, (only_allowed_requested oneMonitor (by unfold AddressesAllowed; decide)
    (fun _ _ _ => .error .argumentOutOfRange) twoForms).2.1⟩

end UrlPulse
