import UrlPulse.Journal

namespace UrlPulse

open UrlPulse.Core UrlPulse.Infrastructure UrlPulse.Web UrlPulse.Worker UrlPulse.Data
open UrlPulse.Data.Phased (Step)

/-! # What is posted is what is checked

The values of a create form stay with the monitor it makes.  Every row of the
monitor's history comes of a check of the posted address with the posted timeout.
-/

variable {World Tag : Type} {store after : Store} {id : Int} {settings : UrlMonitor}

/-- A check of this address with this timeout can end in this report. -/
def Reports (checker : IUrlChecker World) (url : String) (timeoutMs : Int32) (result : UrlCheckResult) :
    Prop :=
  ∃ found next, checker url timeoutMs found = .ok (result, next)

/-- A run adds rows about monitors it has loaded, and nothing else adds a row alone. -/
theorem addedHistory_of_load {op : Operation World} {row : LatencyHistory}
    (member : .addedHistory row ∈ (op.load store).statements) :
    ∃ run : TimerRun World, op = .worker run ∧ ∃ monitor ∈ store.urlMonitors, ∃ result,
      Reports run.checker monitor.url monitor.timeoutMs result ∧
      row = writtenRow (historyRow run.checkRegion monitor result) := by
  rcases load_cases op store with
    none | ⟨userId, checker, world, utcNow, form, result, rfl, statements, -⟩ |
    ⟨userId, target, monitor, rfl, -, loaded⟩ | ⟨userId, target, monitor, rfl, -, loaded⟩ |
    ⟨run, rows, rfl, batched, loaded⟩
  · rw [none] at member
    contradiction
  · rw [statements] at member
    cases List.mem_singleton.mp member
  · rw [loaded] at member
    cases List.mem_singleton.mp member
  · rw [loaded] at member
    cases List.mem_singleton.mp member
  · rw [statements_of_batch loaded] at member
    obtain ⟨written, inStatements, same⟩ := List.mem_map.mp member
    cases same
    obtain ⟨added, inBatch, rfl⟩ := List.mem_map.mp inStatements
    obtain ⟨monitor, stored, found, result, next, checked, rfl⟩ :=
      TimerRun.batch_recorded batched _ inBatch
    exact ⟨run, rfl, monitor, stored, result, ⟨found, next, checked⟩, rfl⟩

/-- All of a monitor but its flag. -/
def unflagged (monitor : UrlMonitor) : UrlMonitor := { monitor with isPaused := false }

/-- Whoever has the key is this monitor, and its rows have come in as `Recorded` says. -/
structure Carries (id : Int) (settings : UrlMonitor) (Recorded : LatencyHistory → Prop) (store : Store) :
    Prop where
  monitor : Fixed unflagged id settings store
  rows : ∀ row ∈ store.historyOf id, Recorded (Store.unnumbered row)

theorem mem_historyOf_append {rows : List LatencyHistory} {row : LatencyHistory}
    (member : row ∈ (store.appendHistories rows).historyOf id) :
    row ∈ store.historyOf id ∨
      ∃ source ∈ rows, source.urlMonitorId = id ∧ Store.unnumbered row = Store.unnumbered source := by
  rw [historyOf_append] at member
  rcases List.mem_append.mp member with old | new
  · exact .inl old
  · obtain ⟨numbered, points⟩ := List.mem_filter.mp new
    obtain ⟨source, inside, same⟩ := (Store.mem_numbered numbered).1
    refine .inr ⟨source, inside, ?_, by rw [same]; rfl⟩
    rw [same] at points
    exact of_decide_eq_true points

section Carries

variable {Recorded : LatencyHistory → Prop}

/-- If the statement adds a row for the monitor, the row is as `Recorded` says. -/
def HoldsFor (id : Int) (Recorded : LatencyHistory → Prop) (entry : EntityEntry) : Prop :=
  ∀ row, entry = .addedHistory row → row.urlMonitorId = id → Recorded (Store.unnumbered row)

theorem Carries.apply {entry : EntityEntry} (carries : Carries id settings Recorded store)
    (recorded : HoldsFor id Recorded entry) (applied : entry.apply store = .ok after) : Carries id settings Recorded after := by
  refine ⟨carries.monitor.apply (fun _ _ => rfl) applied, ?_⟩
  intro row member
  rcases EntityEntry.apply_cases applied with
    ⟨monitor, history, rfl, -, rfl⟩ | ⟨added, rfl, -, rfl⟩ | ⟨target, isPaused, rfl, -, rfl⟩ | ⟨target, rfl, -, rfl⟩
  · rcases mem_historyOf_append member with old | ⟨source, inside, points, -⟩
    · exact carries.rows row old
    · obtain ⟨original, -, rfl⟩ := List.mem_map.mp inside
      have fresh : store.nextMonitorId = id := points
      have issued := carries.monitor.issued
      omega
  · rcases mem_historyOf_append member with old | ⟨source, inside, points, same⟩
    · exact carries.rows row old
    · rw [List.mem_singleton.mp inside] at points same
      rw [same]
      exact recorded added rfl points
  · exact carries.rows row member
  · obtain ⟨stays, points⟩ := Store.mem_historyOf.mp member
    exact carries.rows row (Store.mem_historyOf.mpr ⟨List.mem_of_mem_filter stays, points⟩)

/-- A monitor that has just gone in has the rows it brought. -/
theorem Carries.insertMonitor {monitor : UrlMonitor} {history : List LatencyHistory}
    (valid : store.Valid) (same : unflagged { monitor with id := store.nextMonitorId } = settings)
    (recorded : ∀ row ∈ history, Recorded (Store.unnumbered { row with urlMonitorId := store.nextMonitorId })) :
    Carries store.nextMonitorId settings Recorded (store.insertMonitor monitor history) := by
  refine ⟨.insertMonitor valid same history, ?_⟩
  intro row member
  rcases mem_historyOf_append member with old | ⟨source, inside, -, unnumbered⟩
  · obtain ⟨stored, points⟩ := Store.mem_historyOf.mp old
    have referenced : row.urlMonitorId ∈ store.monitorIds := valid.foreignKey row stored
    have issued := valid.monitorIssued row.urlMonitorId referenced
    omega
  · obtain ⟨original, listed, rfl⟩ := List.mem_map.mp inside
    rw [unnumbered]
    exact recorded original listed

end Carries

/-! ## Runs -/

variable {form : Index.CreateForm} {userId : Option String} {utcNow : DateTime}

def postedMonitor (id : Int) (userId : Option String) (utcNow : DateTime) (form : Index.CreateForm) :
    UrlMonitor :=
  writtenMonitor { Index.newMonitor form utcNow with id, ownerId := userId.getD "" }

/-- The first row, with the report of the create's own check. -/
def FirstRow (checker : IUrlChecker World) (id : Int) (form : Index.CreateForm) (row : LatencyHistory) :
    Prop :=
  ∃ result, Reports checker form.inputUrl (form.inputTimeout.getD 5000) result ∧
    row = writtenRow { Index.creationRow result with urlMonitorId := id }

/-- A row that one of these runs has made for the monitor. -/
def RunRow (steps : List (Step Tag (Operation World))) (posted : UrlMonitor) (row : LatencyHistory) :
    Prop :=
  ∃ run : TimerRun World, (∃ next ∈ steps, next.op? = some (.worker run)) ∧
    ∃ result, Reports run.checker posted.url posted.timeoutMs result ∧
      row = writtenRow (historyRow run.checkRegion posted result)

variable [DecidableEq Tag]

theorem carries_run {system : System Tag World} {Recorded : LatencyHistory → Prop}
    {posted : UrlMonitor} {steps : List (Step Tag (Operation World))}
    (carries : Carries posted.id (unflagged posted) Recorded system.store)
    (underWay : ∀ task ∈ system.inFlight, ∀ entry ∈ task.pending.statements,
      HoldsFor posted.id Recorded entry)
    (recorded : ∀ row, RunRow steps posted row → Recorded row) :
    Carries posted.id (unflagged posted) Recorded (Phased.run (machine World) system steps).store := by
  refine run_statements (P := Carries posted.id (unflagged posted) Recorded)
    (Q := HoldsFor posted.id Recorded) (fun _ _ _ holds held applied => held.apply holds applied) ?_
    underWay carries
  rintro next member op store starts carries _ inside row rfl points
  obtain ⟨run, rfl, monitor, stored, result, reported, rfl⟩ := addedHistory_of_load inside
  have same : unflagged monitor = unflagged posted := carries.monitor.value monitor stored points
  have url : monitor.url = posted.url := congrArg (·.url) same
  have timeoutMs : monitor.timeoutMs = posted.timeoutMs := congrArg (·.timeoutMs) same
  refine recorded _ ⟨run, ⟨next, member, starts⟩, result, url ▸ timeoutMs ▸ reported, ?_⟩
  have key : monitor.id = posted.id := points
  simp [historyRow, writtenRow, Store.unnumbered, key]

theorem nextMonitorId_run_le (system : System Tag World) (steps : List (Step Tag (Operation World))) :
    system.store.nextMonitorId ≤ (Phased.run (machine World) system steps).store.nextMonitorId := by
  refine run_store_invariant (P := fun store => system.store.nextMonitorId ≤ store.nextMonitorId) ?_
    (le_refl _) steps
  intro entry before next held applied
  rcases EntityEntry.apply_cases applied with
    ⟨monitor, history, rfl, -, rfl⟩ | ⟨row, rfl, -, rfl⟩ | ⟨target, isPaused, rfl, -, rfl⟩ | ⟨target, rfl, -, rfl⟩
  · exact held.trans (by simp [Store.insertMonitor, Store.appendHistories])
  · exact held
  · exact held
  · exact held

/-- What is under way when a key is issued holds nothing for it. -/
theorem holdsFor_fresh (database : Database) {steps : List (Step Tag (Operation World))}
    {task : Phased.Task Tag (Operation World) Pending}
    (inFlight : task ∈ (Phased.run (machine World)
      ({ store := database.toStore } : System Tag World) steps).inFlight)
    (Recorded : LatencyHistory → Prop) :
    ∀ entry ∈ task.pending.statements, HoldsFor (Phased.run (machine World)
      ({ store := database.toStore } : System Tag World) steps).store.nextMonitorId Recorded entry := by
  obtain ⟨before, ⟨rest, rfl⟩, loaded⟩ := Phased.load_of_inFlight rfl inFlight
  rintro _ inside row rfl points
  rw [loaded] at inside
  obtain ⟨run, -, monitor, stored, result, -, rfl⟩ := addedHistory_of_load inside
  have issued := (run_valid database.valid before).monitorIssued monitor.id
    (List.mem_map_of_mem stored)
  have later := nextMonitorId_run_le (Phased.run (machine World)
    ({ store := database.toStore } : System Tag World) before) rest
  rw [← Phased.run_append] at later
  have key : monitor.id = _ := points
  omega

/-- The step that answers a create leaves its monitor, with its first row. -/
theorem carries_of_creation (database : Database) {before : List (Step Tag (Operation World))}
    (rest : List (Step Tag (Operation World)))
    {next : Step Tag (Operation World)} {checker : IUrlChecker World} {world : World} {pending : Pending}
    (completed : (Phased.run (machine World) ({ store := database.toStore } : System Tag World)
      before).completes? (machine World) next =
        some (.web userId (.create checker world utcNow form), pending))
    (answered : (pending.save (Phased.run (machine World)
      ({ store := database.toStore } : System Tag World) before).store).1 = .index .redirectToPage) :
    let earlier := Phased.run (machine World) ({ store := database.toStore } : System Tag World) before
    let id := earlier.store.nextMonitorId
    let posted := postedMonitor id userId utcNow form
    let Recorded := fun row => FirstRow checker id form row ∨ RunRow rest posted row
    Carries posted.id (unflagged posted) Recorded (Phased.step (machine World) earlier next).store ∧
      ∀ task ∈ (Phased.step (machine World) earlier next).inFlight, ∀ entry ∈ task.pending.statements,
        HoldsFor posted.id Recorded entry := by
  intro earlier id posted Recorded
  obtain ⟨loaded, isPrefix, same⟩ := Phased.load_of_completes rfl completed
  rcases load_create userId checker world utcNow form
      (Phased.run (machine World) ({ store := database.toStore } : System Tag World) loaded).store with
    ⟨none, other⟩ | ⟨result, after, checked, one, -⟩
  · have nothing : pending.statements = [] := (congrArg Pending.statements same).trans none
    rw [Pending.save_of_no_statements nothing, same] at answered
    exact absurd answered other
  · have statements : pending.statements = _ := (congrArg Pending.statements same).trans one
    constructor
    · rw [(Phased.step_complete completed).1]
      change Carries posted.id (unflagged posted) Recorded (pending.save earlier.store).2
      rw [Pending.save_addedMonitor statements] at answered ⊢
      rw [if_pos (by
        by_contra refused
        rw [if_neg refused] at answered
        contradiction)]
      refine .insertMonitor (run_valid database.valid before) rfl ?_
      intro row member
      rw [List.mem_singleton.mp member]
      exact .inl ⟨result, ⟨world, after, checked⟩, rfl⟩
    · intro task member
      have earlierTask : task ∈ earlier.inFlight := by
        rcases Phased.step_cases (machine World) earlier next with
          unchanged | ⟨tag, op, rfl, -, begun⟩ | ⟨done, rfl, -, committed⟩ | ⟨op, rfl, called⟩
        · rwa [unchanged] at member
        · contradiction
        · rw [committed] at member
          exact List.mem_of_mem_filter member
        · rwa [called] at member
      exact holdsFor_fresh database earlierTask Recorded

/-- From the answer to a create on, while its monitor is stored: it is what was
posted, by whoever posted it; a table that lists it shows the posted values, and only to
the poster; and every row of its history tells what a check of the posted address
with the posted timeout reported, either the create's own or one of a run since. -/
theorem posted_is_checked (database : Database) (before rest : List (Step Tag (Operation World)))
    (next : Step Tag (Operation World)) (userId : Option String) (checker : IUrlChecker World)
    (world : World) (utcNow : DateTime) (form : Index.CreateForm) (pending : Pending) :
    let after := fun steps => Phased.run (machine World)
      ({ store := database.toStore } : System Tag World) steps
    (after before).completes? (machine World) next =
      some (.web userId (.create checker world utcNow form), pending) →
    (pending.save (after before).store).1 = .index .redirectToPage →
    let id := (after before).store.nextMonitorId
    let final := after (before ++ next :: rest)
    let posted := postedMonitor id userId utcNow form
    (∀ monitor ∈ final.store.urlMonitors, monitor.id = id →
      monitor = { posted with isPaused := monitor.isPaused }) ∧
    (∀ viewer, ∀ listing ∈ Index.onGetAsync { currentUserId := viewer } final.store, listing.id = id →
      viewer = some (userId.getD "") ∧ listing.url = form.inputUrl ∧
      listing.checkIntervalMinutes = form.inputInterval.getD 1 ∧
      listing.timeoutMs = form.inputTimeout.getD 5000 ∧ listing.createdAt = timestamptz utcNow ∧
      listing.isActive = true) ∧
    ∀ row ∈ final.store.historyOf id, FirstRow checker id form (Store.unnumbered row) ∨
      RunRow rest posted (Store.unnumbered row) := by
  intro after completed answered id final posted
  obtain ⟨created, underWay⟩ := carries_of_creation database rest completed answered
  have carries := carries_run created underWay fun row fromRun => Or.inr fromRun
  have whole : final = Phased.run (machine World)
      (Phased.step (machine World) (after before) next) rest := Phased.run_append _ _
  rw [← whole] at carries
  have unchanged : ∀ monitor ∈ final.store.urlMonitors, monitor.id = id →
      monitor = { posted with isPaused := monitor.isPaused } := by
    intro monitor stored key
    have same : unflagged monitor = unflagged posted := carries.monitor.value monitor stored key
    calc
      monitor = { unflagged monitor with isPaused := monitor.isPaused } := rfl
      _ = { unflagged posted with isPaused := monitor.isPaused } := by rw [same]
  refine ⟨unchanged, ?_, carries.rows⟩
  intro viewer listing listed key
  obtain ⟨monitor, ordered, rfl⟩ := List.mem_map.mp listed
  obtain ⟨stored, visible⟩ := List.mem_filter.mp (Linq.mem_orderByDescending.mp ordered)
  have owner : viewer = some monitor.ownerId := by
    simpa [ApplicationDbContext.queryFilter, eq_comm] using visible
  have same := unchanged monitor stored key
  rw [owner, same]
  exact ⟨rfl, rfl, rfl, rfl, rfl, rfl⟩

/-- A site that takes as long as it is given. -/
def lastMinute : IUrlChecker Unit := fun _ timeoutMs world =>
  .ok ({ isUp := true, latencyMs := some timeoutMs.toInt.toNat, checkedAt := 1000, statusCode := 200 }, world)

def aliceForm : Index.CreateForm := { inputUrl := "https://a.example", inputTimeout := some 900 }

/-- Bob's monitor goes in while Alice's is being checked. -/
def bobFirst : List (Step Nat (Operation Unit)) :=
  [.load 0 (.web (some "alice") (.create lastMinute () 1000 aliceForm)),
    .call (.web (some "bob") (.create lastMinute () 1000 { inputUrl := "https://b.example" }))]

def runSince : List (Step Nat (Operation Unit)) :=
  [.call (.worker { regionName := some "eastus", now := TimeSpan.fromHours 1, checker := lastMinute
                    world := () })]

theorem posted_is_checked_bobFirst :
    let final := Phased.run (machine Unit)
      ({ store := ({ valid := by decide } : Database).toStore } : System Nat Unit)
      (bobFirst ++ .save 0 :: runSince)
    (final.store.historyOf 2).map (·.latencyMs) = [900, 900] ∧
    ∀ row ∈ final.store.historyOf 2, FirstRow lastMinute 2 aliceForm (Store.unnumbered row) ∨
      RunRow runSince (postedMonitor 2 (some "alice") 1000 aliceForm) (Store.unnumbered row) := by
  intro final
  let database : Database := { valid := by decide }
  have second : (Phased.run (machine Unit) ({ store := database.toStore } : System Nat Unit)
      bobFirst).store.nextMonitorId = 2 := by decide +kernel
  have told := (posted_is_checked database bobFirst runSince (.save 0) (some "alice") lastMinute () 1000
    aliceForm ((WebRequest.create lastMinute () 1000 aliceForm).load (some "alice") database.toStore)
    rfl (by decide +kernel)).2.2
  rw [second] at told
  exact ⟨by decide +kernel, told⟩

end UrlPulse
