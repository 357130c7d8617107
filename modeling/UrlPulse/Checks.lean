import UrlPulse.Deletion
import UrlPulse.Infrastructure.UrlChecker

namespace UrlPulse

open UrlPulse.Core UrlPulse.Infrastructure UrlPulse.Web UrlPulse.Worker UrlPulse.Data
open UrlPulse.Data.Phased (Step Keeps)

/-! # What the checks leave in the store

Every monitor and every history row goes in with a report of the checker, so
what holds of all reports holds of all rows, for good.
-/

variable {World : Type} {store after : Store}

/-- Every check of the operation is one by `UrlChecker`. -/
def Operation.Deployed : Operation World → Prop
  | .web _ (.create checker _ _ _) => ∃ httpClient, checker = checkUrlAsync httpClient
  | .web _ _ => True
  | .worker run => ∃ httpClient, run.checker = checkUrlAsync httpClient

theorem Operation.Deployed.call {Tag : Type} {op : Operation World} (deployed : op.Deployed) :
    ∀ other, (Step.call op : Step Tag (Operation World)).op? = some other → other.Deployed := by
  intro other starts
  cases starts
  exact deployed

/-- A check with this timeout can end in this report. -/
def Reported (World : Type) (timeoutMs : Int32) (result : UrlCheckResult) : Prop :=
  ∃ (httpClient : HttpClient World) (url : String) (world after : World),
    checkUrlAsync httpClient url timeoutMs world = .ok (result, after)

/-- What the statement inserts is told by a report. -/
def FromReport (World : Type) : EntityEntry → Prop
  | .addedMonitor monitor history =>
      ∃ result, Reported World monitor.timeoutMs result ∧
        history = [writtenRow (Index.creationRow result)]
  | .addedHistory row =>
      ∃ region monitor result, Reported World monitor.timeoutMs result ∧
        row = writtenRow (historyRow region monitor result)
  | _ => True

theorem Operation.Deployed.fromReport {op : Operation World} (deployed : op.Deployed)
    (store : Store) : ∀ entry ∈ (op.load store).statements, FromReport World entry := by
  intro entry member
  rcases load_cases op store with
    none | ⟨userId, checker, world, utcNow, form, -, rfl, -, -⟩ | ⟨userId, id, monitor, rfl, -, loaded⟩ |
    ⟨userId, id, monitor, rfl, -, loaded⟩ | ⟨run, rows, rfl, batched, loaded⟩
  · rw [none] at member
    contradiction
  · obtain ⟨httpClient, rfl⟩ := deployed
    rcases load_create userId (checkUrlAsync httpClient) world utcNow form store with
      ⟨none, -⟩ | ⟨result, next, checked, one, -⟩
    · rw [Operation.load, none] at member
      contradiction
    · rw [Operation.load, one] at member
      rw [List.mem_singleton.mp member]
      exact ⟨result, ⟨httpClient, _, world, next, checked⟩, rfl⟩
  · rw [loaded] at member
    rw [List.mem_singleton.mp member]
    trivial
  · rw [loaded] at member
    rw [List.mem_singleton.mp member]
    trivial
  · obtain ⟨httpClient, made⟩ := deployed
    rw [loaded] at member
    simp only [Pending.statements, List.map_map, List.mem_map, Function.comp_apply,
      EntityEntry.stamp_addedHistory] at member
    obtain ⟨row, inBatch, rfl⟩ := member
    obtain ⟨monitor, -, found, result, next, checked, recorded⟩ :=
      TimerRun.batch_recorded batched row inBatch
    rw [made] at checked
    exact ⟨run.checkRegion, monitor, result, ⟨httpClient, _, found, next, checked⟩,
      congrArg writtenRow recorded⟩

/-! ## Every store -/

/-- The error text is there exactly where the code is none of 200 to 299. -/
def TellsFailure (row : LatencyHistory) : Prop :=
  row.errorMessage = "" ↔ 200 ≤ row.statusCode ∧ row.statusCode < 300

structure Sound (store : Store) : Prop where
  timeouts : ∀ monitor ∈ store.urlMonitors, ¬ monitor.timeoutMs < -1
  rows : ∀ row ∈ store.latencyHistories, TellsFailure row

theorem Reported.allowed {timeoutMs : Int32} {result : UrlCheckResult}
    (reported : Reported World timeoutMs result) : ¬ timeoutMs < -1 := by
  obtain ⟨httpClient, url, world, after, checked⟩ := reported
  exact checkUrlAsync_allowed checked

/-- Both writers leave the text empty exactly where the check was up. -/
theorem Reported.tellsFailure {timeoutMs : Int32} {result : UrlCheckResult}
    (reported : Reported World timeoutMs result) (text : String) (present : text ≠ "") :
    (if result.isUp then "" else text) = "" ↔ 200 ≤ result.statusCode ∧ result.statusCode < 300 := by
  obtain ⟨httpClient, url, world, after, checked⟩ := reported
  have up := checkUrlAsync_isUp checked
  have range : result.isUp = true ↔ 200 ≤ result.statusCode ∧ result.statusCode < 300 := by
    rw [up]
    simp only [isSuccessStatusCode, Bool.and_eq_true, decide_eq_true_eq]
    omega
  rw [← range]
  cases result.isUp with
  | true => simp
  | false => simp [present]

theorem Sound.appendHistories (sound : Sound store) {rows : List LatencyHistory}
    (told : ∀ row ∈ rows, TellsFailure row) : Sound (store.appendHistories rows) := by
  refine ⟨sound.timeouts, ?_⟩
  intro row member
  rcases List.mem_append.mp member with old | new
  · exact sound.rows row old
  · obtain ⟨source, inside, same⟩ := (Store.mem_numbered new).1
    rw [same]
    exact told source inside

theorem Sound.apply {entry : EntityEntry} (sound : Sound store) (reported : FromReport World entry)
    (applied : entry.apply store = .ok after) : Sound after := by
  rcases EntityEntry.apply_cases applied with
    ⟨monitor, history, rfl, -, rfl⟩ | ⟨row, rfl, -, rfl⟩ | ⟨id, isPaused, rfl, -, rfl⟩ | ⟨id, rfl, -, rfl⟩
  · obtain ⟨result, report, rfl⟩ := reported
    have inserted : Sound { store with
        urlMonitors := store.urlMonitors ++ [{ monitor with id := store.nextMonitorId }]
        nextMonitorId := store.nextMonitorId + 1 } := by
      refine ⟨?_, sound.rows⟩
      intro stored member
      rcases List.mem_append.mp member with old | new
      · exact sound.timeouts stored old
      · rw [List.mem_singleton.mp new]
        exact report.allowed
    refine inserted.appendHistories ?_
    intro row member
    rw [List.map_singleton, List.mem_singleton] at member
    rw [member]
    exact report.tellsFailure "Initial check failed" (by decide)
  · obtain ⟨region, monitor, result, report, rfl⟩ := reported
    refine sound.appendHistories ?_
    intro row member
    rw [List.mem_singleton.mp member]
    exact report.tellsFailure "Service Unavailable" (by decide)
  · refine ⟨?_, sound.rows⟩
    intro monitor member
    obtain ⟨original, inside, flag, rfl⟩ := Store.mem_setPaused member
    exact sound.timeouts original inside
  · exact ⟨fun monitor member => sound.timeouts monitor (List.mem_of_mem_filter member),
      fun row member => sound.rows row (List.mem_of_mem_filter member)⟩

variable {Tag : Type} [DecidableEq Tag]

theorem sound_run (steps : List (Step Tag (Operation World)))
    (deployed : ∀ next ∈ steps, ∀ op, next.op? = some op → op.Deployed) :
    Sound (Phased.run (machine World) { store := Store.empty } steps).store := by
  have initial : Keeps Sound (fun _ pending => ∀ entry ∈ pending.statements, FromReport World entry)
      ({ store := Store.empty } : System Tag World) :=
    ⟨⟨fun _ member => by contradiction, fun _ member => by contradiction⟩,
      fun _ member => by contradiction⟩
  refine (initial.run ?_ ?_).store
  · intro next member op store starts _
    exact (deployed next member op starts).fromReport store
  · intro op pending store sound promise
    exact Pending.save_invariant (fun entry member _ _ held applied =>
      held.apply (promise entry member) applied) sound

/-! ## Timeouts -/

/-- In every store that operations leave no run is aborted by a monitor: its loop
comes to the save, with one row for each that is due.  A create whose check throws writes
nothing. -/
theorem no_monitor_aborts (steps : List (Step Tag (Operation World)))
    (deployed : ∀ next ∈ steps, ∀ op, next.op? = some op → op.Deployed) :
    let store := (Phased.run (machine World) { store := Store.empty } steps).store
    (∀ (run : TimerRun World) (httpClient : HttpClient World),
      run.checker = checkUrlAsync httpClient →
      (∀ entry ∈ loadMonitors run.checkRegion store, ∀ world, ∃ outcome,
        checkUrlAsync httpClient entry.1.url entry.1.timeoutMs world = .ok outcome) ∧
      ∃ rows : List LatencyHistory, rows.map (·.urlMonitorId) = (run.due store).map (·.id) ∧
        (Operation.worker run).load store =
          { context := { currentUserId := some systemUserId
                         entries := rows.map .addedHistory }
            response := .completed }) ∧
    ∀ (userId : Option String) (httpClient : HttpClient World) (world : World)
      (utcNow : DateTime) (form : Index.CreateForm) (fault : Fault), form.isValid = true →
      checkUrlAsync httpClient form.inputUrl (form.inputTimeout.getD 5000) world = .error fault →
      ∀ later, Pending.save ((WebRequest.create (checkUrlAsync httpClient) world utcNow form).load
        userId store) later = (.exception fault, later) := by
  intro store
  have sound : Sound store := sound_run steps deployed
  constructor
  · intro run httpClient made
    constructor
    · intro entry loaded world
      obtain ⟨monitor, selected, rfl⟩ := List.mem_map.mp loaded
      exact checkUrlAsync_total (sound.timeouts monitor (List.mem_of_mem_filter selected)) world
    · have total : ∃ rows, run.batch store = .ok rows := by
        apply TimerRun.batch_total
        intro monitor stored world
        rw [made]
        exact checkUrlAsync_total (sound.timeouts monitor stored) world
      obtain ⟨rows, batched⟩ := total
      exact ⟨rows, (TimerRun.batch_rows batched).1, loadRun_ok batched⟩
  · intro userId httpClient world utcNow form fault valid thrown later
    have loaded : (WebRequest.create (checkUrlAsync httpClient) world utcNow form).load userId store =
        { context := { currentUserId := userId }, response := .exception fault } := by
      simp [WebRequest.load, Index.onPostAsync, valid, thrown]
    rw [loaded]
    exact Pending.save_of_no_statements rfl

/-- A client that answers anything within 20 ms, always at the same instant. -/
def prompt : HttpClient Unit where
  utcNow _ := 1000
  getAsync _ _ world := (.response 200 20, world)

/-- Alice creates one monitor without a timeout and one with a timeout of -2 ms. -/
def lowTimeout : List (Step Nat (Operation Unit)) :=
  [.call (.web (some "alice") (.create (checkUrlAsync prompt) () 1000
      { inputUrl := "https://a.example" })),
    .call (.web (some "alice") (.create (checkUrlAsync prompt) () 1000
      { inputUrl := "https://b.example", inputTimeout := some (-2) }))]

theorem lowTimeout_deployed : ∀ next ∈ lowTimeout, ∀ op, next.op? = some op → op.Deployed := by
  have posted : ∀ form, (Operation.web (some "alice")
      (.create (checkUrlAsync prompt) () 1000 form)).Deployed := fun _ => ⟨prompt, rfl⟩
  exact List.forall_mem_cons.mpr ⟨(posted _).call, List.forall_mem_singleton.mpr (posted _).call⟩

theorem no_monitor_aborts_lowTimeout :
    let store := (Phased.run (machine Unit) { store := Store.empty } lowTimeout).store
    store.monitorIds = [1] ∧
    ∃ rows : List LatencyHistory, rows.map (·.urlMonitorId) =
        (TimerRun.due { now := 0, checker := checkUrlAsync prompt, world := () } store).map (·.id) ∧
      (Operation.worker { now := 0, checker := checkUrlAsync prompt, world := () }).load store =
        { context := { currentUserId := some systemUserId
                       entries := rows.map .addedHistory }
          response := .completed } :=
  ⟨by decide, ((no_monitor_aborts lowTimeout lowTimeout_deployed).1
    { now := 0, checker := checkUrlAsync prompt, world := () } prompt rfl).2⟩

end UrlPulse
