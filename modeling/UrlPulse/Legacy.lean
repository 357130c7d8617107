import UrlPulse.Infrastructure.Migrations
import UrlPulse.Journal
import UrlPulse.Ownership

namespace UrlPulse

open UrlPulse.Core UrlPulse.Infrastructure UrlPulse.Web UrlPulse.Worker UrlPulse.Data
open UrlPulse.Data.Phased (Step Keeps)
open UrlPulse.Data.Schema (migrate)

/-! # Monitors from before there were owners

The migration gives them the blank owner, which no principal has.  The worker
does not look at owners.
-/

variable {World Tag : Type} [DecidableEq Tag] {store start : Store} {version : Version}

/-- What the program finds when it starts over a database of this version. -/
def startup (version : Version) (store : Store) : Option Store :=
  (migrate migrations (deployed version store)).bind fun database => readStore database.tables

theorem startup_eq (version : Version) (store : Store) :
    startup version store = some (upgraded version store) := by
  rw [startup, migrate_deployed, Option.bind_some]
  exact readStore_tablesOf _

theorem ownerId_upgraded (old : version.hasOwner = false) {monitor : UrlMonitor}
    (member : monitor ∈ (upgraded version store).urlMonitors) : monitor.ownerId = "" := by
  simp only [upgraded, old, Bool.false_eq_true, if_false] at member
  obtain ⟨original, -, rfl⟩ := List.mem_map.mp member
  rfl

theorem region_upgraded (old : version.hasRegion = false) {row : LatencyHistory}
    (member : row ∈ (upgraded version store).latencyHistories) : row.region = "" := by
  simp only [upgraded, old, Bool.false_eq_true, if_false] at member
  obtain ⟨original, -, rfl⟩ := List.mem_map.mp member
  rfl

/-- Nobody acts under the blank id. -/
def Named (op : Operation World) : Prop :=
  ∀ request, op ≠ .web (some "") request

theorem Named.spares {op : Operation World} {monitor : UrlMonitor} (named : Named op)
    (blank : monitor.ownerId = "") : Spares monitor op ∧ toggles monitor op = false := by
  cases op with
  | worker run => exact ⟨nofun, rfl⟩
  | web userId request =>
      have other : userId ≠ some monitor.ownerId := by
        rw [blank]
        intro same
        exact named request (by rw [same])
      constructor
      · intro same
        cases same
        exact other rfl
      · cases request with
        | setPause id => simp [toggles, other]
        | _ => rfl

/-- A monitor whose owner does nothing keeps its row. -/
theorem flagged_run_of_named {steps : List (Step Tag (Operation World))} {monitor : UrlMonitor}
    (valid : start.Valid) (stored : monitor ∈ start.urlMonitors) (blank : monitor.ownerId = "")
    (named : ∀ next ∈ steps, ∀ op, next.op? = some op → Named op) :
    Flagged monitor monitor.isPaused
      (Phased.run (machine World) ({ store := start } : System Tag World) steps).store := by
  refine run_statements (P := Flagged monitor monitor.isPaused) (Q := Avoids monitor.id)
    (fun _ _ _ avoids held applied => held.apply avoids applied) ?_
    (fun _ member => by contradiction) ⟨valid, stored⟩
  intro next member op store same flagged
  obtain ⟨spares, other⟩ := (named next member op same).spares blank
  exact load_avoids flagged spares other

/-- Its rows of the region are all old enough. -/
def Overdue (run : TimerRun World) (monitor : UrlMonitor) (rows : List LatencyHistory) : Prop :=
  ∀ row ∈ rows, row.region = run.checkRegion →
    TimeSpan.fullTicks (thresholdSeconds monitor).toInt ≤ (run.now : Int) - row.checkedAt

theorem mem_due_iff_overdue {run : TimerRun World} {monitor : UrlMonitor}
    (stored : monitor ∈ store.urlMonitors) :
    monitor ∈ run.due store ↔ monitor.isActive = true ∧ monitor.isPaused = false ∧
      Overdue run monitor (store.historyOf monitor.id) := by
  have decided : isDue run.now monitor (includedHistory run.checkRegion store monitor).head? = true ↔
      Overdue run monitor (store.historyOf monitor.id) := by
    rw [isDue_iff]
    constructor
    · intro rows row member inRegion
      obtain ⟨listed, points⟩ := Store.mem_historyOf.mp member
      exact rows row (List.mem_filter.mpr ⟨listed, decide_eq_true inRegion⟩) points
    · intro overdue row member points
      obtain ⟨listed, inRegion⟩ := List.mem_filter.mp member
      exact overdue row (Store.mem_historyOf.mpr ⟨listed, points⟩) (of_decide_eq_true inRegion)
  rw [TimerRun.mem_due_iff, decided]
  simp [stored, and_assoc]

/-- A monitor of the first version, checked at nine. -/
def beforeOwners : UrlMonitor := { id := 1, url := "https://a.example", createdAt := 10 }

def firstVersion : Store where
  urlMonitors := [beforeOwners]
  latencyHistories := [{ id := 1, latencyMs := 20, statusCode := 200
                         checkedAt := TimeSpan.fromHours 9, urlMonitorId := 1 }]
  nextMonitorId := 2
  nextHistoryId := 2

/-- Alice tries to pause and to delete it, and the timer fires just after the last check. -/
def attempts : List (Step Nat (Operation Unit)) :=
  [.call (.web (some "alice") (.setPause 1)), .call (.web (some "alice") (.delete 1)),
    .call (.worker { regionName := some "eastus", now := TimeSpan.fromHours 9
                     checker := fun _ _ world =>
                       .ok ({ isUp := true, latencyMs := some 30, checkedAt := TimeSpan.fromHours 9
                              statusCode := 200 }, world)
                     world := () })]

end UrlPulse
