import UrlPulse.Checks
import UrlPulse.Web.MonitorTable
import UrlPulse.Web.Reconciliation
import UrlPulse.Web.Regional

namespace UrlPulse

open UrlPulse.Core UrlPulse.Infrastructure UrlPulse.Web UrlPulse.Worker UrlPulse.Data
open UrlPulse.Web.Analytics UrlPulse.Web.MonitorTable
open UrlPulse.Data.Phased (Step)

/-! # What counts as up

The writers leave the error text of a row empty where the check was up; the
handlers and the dashboard read the status code instead.
-/

variable {row : LatencyHistory}

theorem TellsFailure.isSuccess_iff (told : TellsFailure row) :
    row.errorMessage = "" ↔ isSuccess row = true := by
  rw [isSuccess, Bool.and_eq_true, decide_eq_true_eq, decide_eq_true_eq]
  exact told

theorem TellsFailure.not_error (told : TellsFailure row) (blank : row.errorMessage = "") :
    isError row = false ∧ isOutage row = false := by
  obtain ⟨lower, upper⟩ := told.mp blank
  simp only [isError, isOutage, Bool.or_eq_false_iff, decide_eq_false_iff_not]
  omega

theorem TellsFailure.isUp_iff (told : TellsFailure row) :
    isUp (some row) = true ↔ row.errorMessage = "" :=
  told.isSuccess_iff.symm

/-! ## The four answers -/

/-- The answers about a window take for up the checks without an error text, and for an error or
an outage only others. -/
structure CountsByText (bucket : Nat) (answer : Option Stats) (summaries : List RegionSummary)
    (distribution : List StatusCount) (data : List LatencySeries) (rows : List LatencyHistory) : Prop where
  uptime : ∀ cards, answer = some cards → cards.uptimePercent =
    round ((rows.countP fun row => row.errorMessage = "" : ℚ) / rows.length * 100) 2
  outages : ∀ cards, answer = some cards → cards.outages =
    rows.countP fun row => row.errorMessage ≠ "" ∧ (row.statusCode = 0 ∨ 500 ≤ row.statusCode)
  successes : ∀ entry ∈ summaries, entry.successPct =
    round (((ofRegion entry.region rows).countP fun row => row.errorMessage = "" : ℚ) /
      (ofRegion entry.region rows).length * 100) 1
  upLabel : countWhere (fun label => label = "2xx") distribution =
    rows.countP fun row => row.errorMessage = ""
  errors : ∀ series ∈ data, ∀ point ∈ series.data, point.errors =
    (interval bucket series.name point.x rows).countP fun row =>
      row.errorMessage ≠ "" ∧ (row.statusCode = 0 ∨ 400 ≤ row.statusCode)

/-- To count what a reader takes for up is to count the blank texts. -/
theorem countP_isSuccess {rows : List LatencyHistory} (told : ∀ row ∈ rows, TellsFailure row) :
    rows.countP isSuccess = rows.countP fun row => row.errorMessage = "" := by
  refine List.countP_congr fun row member => ?_
  rw [decide_eq_true_eq]
  exact (told row member).isSuccess_iff.symm

/-- A failure from some code on has a text, so asking for it leaves the count as it is. -/
theorem countP_failures {rows : List LatencyHistory} (told : ∀ row ∈ rows, TellsFailure row)
    {least : Nat} (beyond : 300 ≤ least) :
    (rows.countP fun row => row.statusCode = 0 || least ≤ row.statusCode) =
      rows.countP fun row => row.errorMessage ≠ "" ∧ (row.statusCode = 0 ∨ least ≤ row.statusCode) := by
  refine List.countP_congr fun row member => ?_
  rw [Bool.or_eq_true, decide_eq_true_eq, decide_eq_true_eq, decide_eq_true_eq]
  constructor
  · intro failed
    refine ⟨fun blank => ?_, failed⟩
    have range := (told row member).mp blank
    omega
  · intro counted
    exact counted.2

theorem countsByText {bucket : Nat} (positive : 0 < bucket) {rows : List LatencyHistory}
    (told : ∀ row ∈ rows, TellsFailure row) :
    CountsByText bucket (stats rows) (regionSummary rows) (statusDistribution rows)
      (latencyData bucket rows) rows where
  uptime := by
    intro cards answered
    rw [← countP_isSuccess told]
    exact (stats_counts answered).1
  outages := by
    intro cards answered
    rw [← countP_failures told (by decide)]
    exact (stats_counts answered).2
  successes := by
    intro entry listed
    have computed := (mem_regionSummary.mp listed).2.2
    have inRegion : ∀ row ∈ ofRegion entry.region rows, TellsFailure row :=
      fun row member => told row (List.mem_of_mem_filter member)
    rw [← countP_isSuccess inRegion]
    exact congrArg RegionSummary.successPct computed
  upLabel := by
    rw [countWhere_statusDistribution, ← countP_isSuccess told]
    refine List.countP_congr fun row _ => ?_
    rw [decide_eq_true_eq]
    exact isSuccess_iff.symm
  errors := by
    intro series listed point inSeries
    rw [(mem_latencyData.mp listed).2.2] at inSeries
    have computed := (point_interval positive inSeries).2
    have inside : ∀ row ∈ interval bucket series.name point.x rows, TellsFailure row :=
      fun row member => told row (mem_interval.mp member).1
    rw [← countP_failures inside (by decide)]
    exact congrArg LatencyPoint.errors computed

theorem stored_of_windowRows {store : Store} {context : ApplicationDbContext} {monitorId since : Int}
    (member : row ∈ windowRows context store monitorId since) : row ∈ store.latencyHistories := by
  obtain ⟨monitor, -, selected⟩ := List.mem_flatMap.mp (List.mem_of_mem_filter member)
  exact List.mem_of_mem_filter (List.mem_of_mem_filter selected)

variable {Tag World : Type} [DecidableEq Tag]

/-- Every row that operations leave in the store says it failed exactly where each
reader takes it for a failure, so the four answers about any window count by the texts; and
the badge of a monitor is about its latest row. -/
theorem writers_and_readers_agree (steps : List (Step Tag (Operation World)))
    (deployed : ∀ next ∈ steps, ∀ op, next.op? = some op → op.Deployed) :
    let store := (Phased.run (machine World) { store := Store.empty } steps).store
    (∀ row ∈ store.latencyHistories,
      (row.errorMessage = "" ↔ 200 ≤ row.statusCode ∧ row.statusCode < 300) ∧
      (row.errorMessage = "" ↔ isSuccess row = true) ∧
      (row.errorMessage = "" ↔ statusLabel row.statusCode = "2xx") ∧
      (row.errorMessage = "" → isError row = false ∧ isOutage row = false)) ∧
    (∀ (context : ApplicationDbContext) (now : DateTime) (monitorId : Int) (range : String),
      CountsByText (getBucketSize range) (onGetStatsAsync context store now monitorId range)
        (onGetRegionSummaryAsync context store now monitorId range)
        (onGetStatusDistributionAsync context store now monitorId range)
        (onGetLatencyDataAsync context store now monitorId range)
        (windowRows context store monitorId (parseRange now range))) ∧
    ∀ (userId : Option String) (listing : Index.MonitorListing),
      listing ∈ Index.onGetAsync { currentUserId := userId } store →
      ((store.historyOf listing.id).map (·.checkedAt)).Nodup →
      ∃ row, Latest (store.historyOf listing.id) row ∧
        (∀ other, Latest (store.historyOf listing.id) other → other = row) ∧
        ((monitorRow listing).badge = "UP" ↔ row.errorMessage = "") := by
  intro store
  have sound : Sound store := sound_run steps deployed
  refine ⟨?_, ?_, ?_⟩
  · intro row stored
    have told := sound.rows row stored
    exact ⟨told, told.isSuccess_iff, told.isSuccess_iff.trans isSuccess_iff, told.not_error⟩
  · intro context now monitorId range
    exact countsByText (range_in_buckets range).1
      fun row member => sound.rows row (stored_of_windowRows member)
  · intro userId listing listed distinct
    have created : Created store := (keeps_promise steps).store.2
    have present : ∃ row ∈ store.latencyHistories, row.urlMonitorId = listing.id := by
      obtain ⟨monitor, ordered, rfl⟩ := List.mem_map.mp listed
      have visible := Linq.mem_orderByDescending.mp ordered
      obtain ⟨row, stored, points, -⟩ := created monitor (List.mem_of_mem_filter visible)
      exact ⟨row, stored, points⟩
    obtain ⟨row, shown, latest⟩ := head?_history_of_listed listed present
    have told := sound.rows row (Store.mem_historyOf.mp latest.1).1
    refine ⟨row, latest, fun other => latest.unique distinct, ?_⟩
    rw [badge_eq_up_iff, shown]
    exact told.isUp_iff

/-- A client that gets no answer. -/
def silent : HttpClient Unit where
  utcNow _ := TimeSpan.fromHours 1
  getAsync _ _ world := (.exception, world)

/-- Alice's first check is up; a run an hour later finds nothing there. -/
def upThenDown : List (Step Nat (Operation Unit)) :=
  [.call (.web (some "alice") (.create (checkUrlAsync prompt) () 1000
      { inputUrl := "https://a.example" })),
    .call (.worker { regionName := some "eastus", now := TimeSpan.fromHours 1
                     checker := checkUrlAsync silent, world := () })]

theorem writers_and_readers_agree_upThenDown :
    let store := (Phased.run (machine Unit) { store := Store.empty } upThenDown).store
    (store.latencyHistories.map (·.errorMessage)) = ["", "Service Unavailable"] ∧
    ∃ listing ∈ Index.onGetAsync { currentUserId := some "alice" } store,
      ∃ row, Latest (store.historyOf listing.id) row ∧
        (∀ other, Latest (store.historyOf listing.id) other → other = row) ∧
        ((monitorRow listing).badge = "UP" ↔ row.errorMessage = "") := by
  have first : (Operation.web (some "alice") (.create (checkUrlAsync prompt) () 1000
      { inputUrl := "https://a.example" })).Deployed := ⟨prompt, rfl⟩
  have second : (Operation.worker { regionName := some "eastus", now := TimeSpan.fromHours 1
                                    checker := checkUrlAsync silent, world := () }).Deployed :=
    ⟨silent, rfl⟩
  have deployed : ∀ next ∈ upThenDown, ∀ op, next.op? = some op → op.Deployed :=
    List.forall_mem_cons.mpr ⟨first.call, List.forall_mem_singleton.mpr second.call⟩
  refine ⟨by decide, ?_⟩
  have listed : (Index.onGetAsync { currentUserId := some "alice" }
      (Phased.run (machine Unit) { store := Store.empty } upThenDown).store).head (by decide) ∈
        Index.onGetAsync { currentUserId := some "alice" }
          (Phased.run (machine Unit) { store := Store.empty } upThenDown).store :=
    List.head_mem _
  exact ⟨_, listed, (writers_and_readers_agree upThenDown deployed).2.2 (some "alice") _ listed
    (by decide)⟩

end UrlPulse
