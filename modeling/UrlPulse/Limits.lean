import UrlPulse.Posted
import UrlPulse.Throughput

namespace UrlPulse

open UrlPulse.Core UrlPulse.Infrastructure UrlPulse.Web UrlPulse.Worker UrlPulse.Data
open UrlPulse.Data.Phased (Step)

/-! # No latency beyond the timeout

A response comes before its timeout or not at all.  So the rows of a monitor keep to
its timeout, and with them every figure that is made of them.
-/

variable {World Tag : Type} {store after : Store} {slack : Nat}

/-- A latency within a timeout, give or take what the timer is late; -1 is no timeout. -/
def Within (slack : Nat) (timeoutMs : Int32) (latencyMs : Nat) : Prop :=
  0 ≤ timeoutMs → latencyMs ≤ timeoutMs.toInt.toNat + slack

/-- A response is there within the timeout. -/
def CutOff (slack : Nat) (httpClient : HttpClient World) : Prop :=
  ∀ url timeoutMs world statusCode elapsed after,
    httpClient.getAsync url timeoutMs world = (.response statusCode elapsed, after) →
      Within slack timeoutMs elapsed

theorem CutOff.report {httpClient : HttpClient World} {url : String} {timeoutMs : Int32}
    {result : UrlCheckResult} (cutOff : CutOff slack httpClient)
    (reported : Reports (checkUrlAsync httpClient) url timeoutMs result) :
    Within slack timeoutMs (result.latencyMs.getD 0) := by
  obtain ⟨found, next, checked⟩ := reported
  simp only [checkUrlAsync, if_neg (checkUrlAsync_allowed checked)] at checked
  split at checked
  · rename_i statusCode elapsed after got
    cases checked
    exact cutOff url timeoutMs found statusCode elapsed _ got
  · cases checked
    exact fun _ => Nat.zero_le _

/-- The operation checks with clients that cut off. -/
def Operation.CutsOff (slack : Nat) : Operation World → Prop
  | .web _ (.create checker _ _ _) =>
      ∃ httpClient, checker = checkUrlAsync httpClient ∧ CutOff slack httpClient
  | .web _ _ => True
  | .worker run => ∃ httpClient, run.checker = checkUrlAsync httpClient ∧ CutOff slack httpClient

/-! ## The store -/

structure Limited (slack : Nat) (store : Store) : Prop where
  valid : store.Valid
  rows : ∀ monitor ∈ store.urlMonitors, ∀ row ∈ store.historyOf monitor.id,
    Within slack monitor.timeoutMs row.latencyMs

/-- What the statement inserts keeps to the timeout of its monitor. -/
def LimitedEntry (slack : Nat) (store : Store) : EntityEntry → Prop
  | .addedMonitor monitor history => ∀ row ∈ history, Within slack monitor.timeoutMs row.latencyMs
  | .addedHistory row => ∃ timeoutMs, Fixed (·.timeoutMs) row.urlMonitorId timeoutMs store ∧
      Within slack timeoutMs row.latencyMs
  | _ => True

theorem LimitedEntry.apply {entry other : EntityEntry} (limited : LimitedEntry slack store other)
    (applied : entry.apply store = .ok after) : LimitedEntry slack after other := by
  cases other with
  | addedHistory row =>
      obtain ⟨timeoutMs, fixed, within⟩ := limited
      exact ⟨timeoutMs, fixed.apply (fun _ _ => rfl) applied, within⟩
  | addedMonitor monitor history => exact limited
  | modifiedIsPaused id isPaused => trivial
  | deletedMonitor id => trivial

theorem Limited.apply {entry : EntityEntry} (limited : Limited slack store)
    (promised : LimitedEntry slack store entry) (applied : entry.apply store = .ok after) :
    Limited slack after := by
  refine ⟨EntityEntry.apply_valid limited.valid applied, ?_⟩
  intro monitor stored row member
  rcases EntityEntry.apply_cases applied with
    ⟨added, history, rfl, -, rfl⟩ | ⟨added, rfl, -, rfl⟩ | ⟨target, isPaused, rfl, -, rfl⟩ | ⟨target, rfl, -, rfl⟩
  · have issued : ∀ key ∈ store.monitorIds, key < store.nextMonitorId := limited.valid.monitorIssued
    rcases List.mem_append.mp stored with earlier | new
    · have key := issued monitor.id (List.mem_map_of_mem earlier)
      rcases mem_historyOf_append member with old | ⟨source, inside, points, -⟩
      · exact limited.rows monitor earlier row old
      · obtain ⟨original, -, rfl⟩ := List.mem_map.mp inside
        have fresh : store.nextMonitorId = monitor.id := points
        omega
    · rw [List.mem_singleton.mp new] at member ⊢
      rcases mem_historyOf_append member with old | ⟨source, inside, -, same⟩
      · obtain ⟨listed, points⟩ := Store.mem_historyOf.mp old
        have key := issued row.urlMonitorId (limited.valid.foreignKey row listed)
        have fresh : row.urlMonitorId = store.nextMonitorId := points
        omega
      · obtain ⟨original, brought, rfl⟩ := List.mem_map.mp inside
        have latency : row.latencyMs = original.latencyMs := congrArg (·.latencyMs) same
        rw [latency]
        exact promised original brought
  · rcases mem_historyOf_append member with old | ⟨source, inside, points, same⟩
    · exact limited.rows monitor stored row old
    · obtain ⟨timeoutMs, fixed, within⟩ := promised
      rw [List.mem_singleton.mp inside] at points same
      have latency : row.latencyMs = added.latencyMs := congrArg (·.latencyMs) same
      have timeout : monitor.timeoutMs = timeoutMs := fixed.value monitor stored points.symm
      rw [latency, timeout]
      exact within
  · obtain ⟨original, inside, flag, rfl⟩ := Store.mem_setPaused stored
    exact limited.rows original inside row member
  · obtain ⟨stays, points⟩ := Store.mem_historyOf.mp member
    exact limited.rows monitor (List.mem_of_mem_filter stored) row
      (Store.mem_historyOf.mpr ⟨List.mem_of_mem_filter stays, points⟩)

theorem Operation.CutsOff.load {op : Operation World} (cutsOff : op.CutsOff slack)
    (valid : store.Valid) :
    ∀ entry ∈ (op.load store).statements, LimitedEntry slack store entry := by
  intro entry member
  rcases load_cases op store with
    none | ⟨userId, checker, world, utcNow, form, -, rfl, -, -⟩ | ⟨userId, id, monitor, rfl, -, loaded⟩ |
    ⟨userId, id, monitor, rfl, -, loaded⟩ | ⟨run, rows, rfl, batched, loaded⟩
  · rw [none] at member
    contradiction
  · obtain ⟨httpClient, rfl, limited⟩ := cutsOff
    rcases load_create userId (checkUrlAsync httpClient) world utcNow form store with
      ⟨none, -⟩ | ⟨result, next, checked, one, -⟩
    · rw [Operation.load, none] at member
      contradiction
    · rw [Operation.load, one] at member
      rw [List.mem_singleton.mp member]
      intro row only
      rw [List.mem_singleton.mp only]
      exact limited.report ⟨world, next, checked⟩
  · rw [loaded] at member
    rw [List.mem_singleton.mp member]
    trivial
  · rw [loaded] at member
    rw [List.mem_singleton.mp member]
    trivial
  · obtain ⟨httpClient, made, limited⟩ := cutsOff
    rw [statements_of_batch loaded] at member
    obtain ⟨written, inStatements, rfl⟩ := List.mem_map.mp member
    obtain ⟨row, inBatch, rfl⟩ := List.mem_map.mp inStatements
    obtain ⟨monitor, stored, found, result, next, checked, rfl⟩ :=
      TimerRun.batch_recorded batched row inBatch
    rw [made] at checked
    exact ⟨monitor.timeoutMs, fixed_of_stored (·.timeoutMs) valid stored,
      limited.report ⟨found, next, checked⟩⟩

theorem limited_run [DecidableEq Tag] (steps : List (Step Tag (Operation World)))
    (limited : Limited slack store)
    (cutsOff : ∀ next ∈ steps, ∀ op, next.op? = some op → op.CutsOff slack) :
    Limited slack (Phased.run (machine World) ({ store } : System Tag World) steps).store := by
  have initial : Phased.KeepsOver (Limited slack)
      (fun store pending => ∀ entry ∈ Pending.statements pending, LimitedEntry slack store entry)
      ({ store } : System Tag World) := ⟨limited, fun _ member => by contradiction⟩
  refine (initial.run ?loads ?saves ?stays).store
  case loads =>
    intro next member op store starts held
    exact (cutsOff next member op starts).load held.valid
  case saves =>
    intro pending store held promised
    have both : Limited slack (pending.save store).2 ∧
        ∀ entry ∈ pending.statements, LimitedEntry slack (pending.save store).2 entry := by
      refine Pending.save_invariant (P := fun current => Limited slack current ∧
        ∀ entry ∈ pending.statements, LimitedEntry slack current entry) ?_ ⟨held, promised⟩
      intro entry member before next current applied
      exact ⟨current.1.apply (current.2 entry member) applied,
        fun other inside => (current.2 other inside).apply applied⟩
    exact both.1
  case stays =>
    intro pending other store _ _ others entry member
    exact Pending.save_invariant (P := fun current => LimitedEntry slack current entry)
      (fun _ _ _ _ current applied => current.apply applied) (others entry member)

/-! ## The figures -/

section Figures

open UrlPulse.Web.Analytics UrlPulse.Data.Statistics UrlPulse.Data.Linq

variable {rows : List LatencyHistory} {limit : Nat} (limited : ∀ row ∈ rows, row.latencyMs ≤ limit)
include limited

theorem percentile_limited {p : ℚ} (nonempty : rows ≠ []) (positive : 0 < p) (bound : p ≤ 1) :
    percentile (orderBy id (latencies rows)) p ≤ limit := by
  have present : latencies rows ≠ [] := by simpa [latencies] using nonempty
  have ranked := percentile_ranked present positive bound
  obtain ⟨row, member, latency⟩ := List.mem_map.mp ranked.member
  rw [← latency]
  exact limited row member

theorem stats_limited {answer : Stats} (answered : stats rows = some answer) :
    answer.avgLatency ≤ limit ∧ answer.p50 ≤ limit ∧ answer.p95 ≤ limit ∧ answer.p99 ≤ limit := by
  obtain ⟨nonempty, average, p50, p95, p99⟩ := stats_some answered
  rw [average, p50, p95, p99]
  exact ⟨mean_le (List.forall_mem_map.mpr limited),
    percentile_limited limited nonempty (by norm_num) (by norm_num),
    percentile_limited limited nonempty (by norm_num) (by norm_num),
    percentile_limited limited nonempty (by norm_num) (by norm_num)⟩

theorem regionSummary_limited {entry : RegionSummary} (listed : entry ∈ regionSummary rows) :
    entry.avgLatency ≤ limit ∧ entry.p95Latency ≤ limit := by
  obtain ⟨-, ⟨row, member, same⟩, shape⟩ := mem_regionSummary.mp listed
  have inRegion : ∀ row ∈ ofRegion entry.region rows, row.latencyMs ≤ limit :=
    fun row selected => limited row (List.mem_of_mem_filter selected)
  have nonempty : ofRegion entry.region rows ≠ [] :=
    List.ne_nil_of_mem (List.mem_filter.mpr ⟨member, decide_eq_true same⟩)
  rw [shape, avgLatency_summary]
  exact ⟨mean_le (List.forall_mem_map.mpr inRegion),
    percentile_limited inRegion nonempty (by norm_num) (by norm_num)⟩

theorem latencyData_limited {bucket : Nat} {series : LatencySeries}
    (listed : series ∈ latencyData bucket rows) : ∀ point ∈ series.data, point.y ≤ limit := by
  intro entry member
  rw [(mem_latencyData.mp listed).2.2] at member
  rw [(mem_points.mp member).2]
  refine mean_le (List.forall_mem_map.mpr fun row selected => ?_)
  exact limited row (List.mem_of_mem_filter (List.mem_of_mem_filter selected))

end Figures

/-- From a database that keeps to its timeouts, whatever the schedule of operations whose
clients cut off: no latency on any page is beyond its monitor's timeout. -/
theorem figures_within_timeout [DecidableEq Tag] (database : Database) (slack : Nat)
    (steps : List (Step Tag (Operation World))) (limited : Limited slack database.toStore)
    (cutsOff : ∀ next ∈ steps, ∀ op, next.op? = some op → op.CutsOff slack) :
    let store := (Phased.run (machine World) ({ store := database.toStore } : System Tag World) steps).store
    ∀ monitor ∈ store.urlMonitors, 0 ≤ monitor.timeoutMs →
      let limit := monitor.timeoutMs.toInt.toNat + slack
      ∀ (context : ApplicationDbContext) (now : DateTime) (range : String),
        (∀ row ∈ MonitorTable.monitorTable (Index.onGetAsync context store), row.id = monitor.id →
          ∀ latencyMs statusCode, row.response = some (latencyMs, statusCode) → latencyMs ≤ limit) ∧
        (∀ answer, Analytics.onGetStatsAsync context store now monitor.id range = some answer →
          answer.avgLatency ≤ limit ∧ answer.p50 ≤ limit ∧ answer.p95 ≤ limit ∧ answer.p99 ≤ limit) ∧
        (∀ entry ∈ Analytics.onGetRegionSummaryAsync context store now monitor.id range,
          entry.avgLatency ≤ limit ∧ entry.p95Latency ≤ limit) ∧
        ∀ series ∈ Analytics.onGetLatencyDataAsync context store now monitor.id range,
          ∀ point ∈ series.data, point.y ≤ limit := by
  intro store monitor stored cutOff limit context now range
  have kept : Limited slack store := limited_run steps limited cutsOff
  have history : ∀ row ∈ store.historyOf monitor.id, row.latencyMs ≤ limit :=
    fun row member => kept.rows monitor stored row member cutOff
  have window : ∀ row ∈ Analytics.windowRows context store monitor.id (Analytics.parseRange now range),
      row.latencyMs ≤ limit :=
    fun row member => history row ((windowRows_sublist kept.valid context monitor.id _).subset member)
  refine ⟨?table, fun answer => stats_limited window, fun entry => regionSummary_limited window,
    fun series => latencyData_limited window⟩
  case table =>
    intro row shown same latencyMs statusCode answered
    obtain ⟨listing, listed, rfl⟩ := List.mem_map.mp shown
    obtain ⟨other, ordered, rfl⟩ := List.mem_map.mp listed
    have key : other.id = monitor.id := same
    obtain ⟨check, latest, response⟩ := Option.map_eq_some_iff.mp answered
    have recorded := List.mem_of_mem_take (List.mem_of_mem_head? latest)
    rw [Linq.mem_orderByDescending,
      ApplicationDbContext.history_of_visible (Linq.mem_orderByDescending.mp ordered), key] at recorded
    have latency : check.latencyMs = latencyMs := congrArg Prod.fst response
    rw [← latency]
    exact history check recorded

/-- A site that answers after four seconds, if it is given them. -/
def slowSite : HttpClient Unit where
  utcNow _ := 1000
  getAsync _ timeoutMs world :=
    if 4000 ≤ timeoutMs.toInt.toNat then (.response 200 4000, world) else (.exception, world)

theorem slowSite_cutOff : CutOff 0 slowSite := by
  intro url timeoutMs world statusCode elapsed after got _
  simp only [slowSite] at got
  split at got
  · cases got
    assumption
  · cases got

/-- Alice posts it with the default timeout, and again with half a second. -/
def postedTwice : List (Step Nat (Operation Unit)) :=
  [.call (.web (some "alice") (.create (checkUrlAsync slowSite) () 1000
      { inputUrl := "https://a.example" })),
    .call (.web (some "alice") (.create (checkUrlAsync slowSite) () 1000
      { inputUrl := "https://a.example", inputTimeout := some 500 }))]

theorem postedTwice_cutsOff : ∀ next ∈ postedTwice, ∀ op, next.op? = some op → op.CutsOff 0 := by
  have posted : ∀ form, (Operation.web (some "alice")
      (.create (checkUrlAsync slowSite) () 1000 form)).CutsOff 0 := fun _ => ⟨slowSite, rfl, slowSite_cutOff⟩
  intro next member op starts
  rcases List.mem_cons.mp member with rfl | later
  · cases starts
    exact posted _
  · rw [List.mem_singleton.mp later] at starts
    cases starts
    exact posted _

theorem figures_within_timeout_postedTwice :
    let store := (Phased.run (machine Unit)
      ({ store := ({ valid := by decide } : Database).toStore } : System Nat Unit) postedTwice).store
    (store.urlMonitors.map fun monitor => (monitor.id, monitor.timeoutMs)) = [(1, 5000), (2, 500)] ∧
    ∀ answer, Analytics.onGetStatsAsync { currentUserId := some "alice" } store 1000 2 "1h" = some answer →
      answer.p99 ≤ 500 := by
  intro store
  refine ⟨by decide, ?_⟩
  intro answer answered
  let second := store.urlMonitors.getLast (by decide)
  have figures := (figures_within_timeout { valid := by decide } 0 postedTwice
    ⟨by decide, fun _ member => by contradiction⟩ postedTwice_cutsOff second (List.getLast_mem _)
    (by decide) { currentUserId := some "alice" } 1000 "1h").2.1 answer
  exact (figures answered).2.2.2

end UrlPulse
