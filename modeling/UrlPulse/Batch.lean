import UrlPulse.System

namespace UrlPulse

open UrlPulse.Core UrlPulse.Infrastructure UrlPulse.Worker UrlPulse.Data UrlPulse.Data.Phased

/-! # One batch among other operations

A worker run holds all its rows in memory until its save, and a monitor it has
checked can be deleted meanwhile.
-/

/-- A worker run and what else happens before its load and before its save. -/
structure BatchRun (Tag World : Type) where
  database : Database
  tag : Tag
  run : TimerRun World
  before : List (Step Tag (Operation World))
  between : List (Step Tag (Operation World))
  othersBefore : ∀ next ∈ before, next.tag? ≠ some tag
  othersBetween : ∀ next ∈ between, next.tag? ≠ some tag

namespace BatchRun

variable {Tag World : Type} [DecidableEq Tag] (batchRun : BatchRun Tag World)

def loaded : Store :=
  (Phased.run (machine World) { store := batchRun.database.toStore } batchRun.before).store

def untilSave : List (Step Tag (Operation World)) :=
  batchRun.before ++ .load batchRun.tag (.worker batchRun.run) :: batchRun.between

/-- The store its save finds. -/
def found : Store :=
  (Phased.run (machine World) { store := batchRun.database.toStore } batchRun.untilSave).store

def saved : Store :=
  (Phased.run (machine World) { store := batchRun.database.toStore }
    (batchRun.untilSave ++ [.save batchRun.tag])).store

/-- Every monitor the run checked that is still there has got the row of that
check, with its time as the column keeps it. -/
def ResultsStored : Prop :=
  ∀ rows, batchRun.run.batch batchRun.loaded = .ok rows →
    ∀ row ∈ rows, row.urlMonitorId ∈ batchRun.saved.monitorIds →
      ∃ stored ∈ batchRun.saved.latencyHistories,
        batchRun.found.nextHistoryId ≤ stored.id ∧ Store.unnumbered stored = writtenRow row

variable {batchRun}

theorem saved_eq : batchRun.saved =
    ((loadRun batchRun.run batchRun.loaded).save batchRun.found).2 := by
  have split := run_load_save (machine World) { store := batchRun.database.toStore }
    (.worker batchRun.run) rfl batchRun.othersBefore batchRun.othersBetween
  have shape : batchRun.untilSave ++ [.save batchRun.tag] =
      batchRun.before ++ .load batchRun.tag (.worker batchRun.run) :: batchRun.between ++
        [.save batchRun.tag] := rfl
  rw [saved, shape, split]
  rfl

theorem found_valid : batchRun.found.Valid :=
  run_valid batchRun.database.valid batchRun.untilSave

section Reached

variable {rows : List LatencyHistory}
  (reached : batchRun.run.batch batchRun.loaded = .ok rows)
include reached

theorem saved_of_reached : batchRun.saved =
    if ∀ row ∈ rows, row.urlMonitorId ∈ batchRun.found.monitorIds then
      batchRun.found.appendHistories (rows.map writtenRow)
    else batchRun.found := by
  rw [saved_eq, loadRun_ok reached, Pending.save_batch]
  split <;> rfl

theorem forall_rows_iff (p : Int → Prop) :
    (∀ row ∈ rows, p row.urlMonitorId) ↔
      ∀ monitor ∈ batchRun.run.due batchRun.loaded, p monitor.id := by
  have ids := (TimerRun.batch_rows reached).1
  rw [← List.forall_mem_map (f := fun row : LatencyHistory => row.urlMonitorId), ids,
    List.forall_mem_map]

theorem stored_of_committed
    (committed : ∀ row ∈ rows, row.urlMonitorId ∈ batchRun.found.monitorIds) :
    batchRun.ResultsStored := by
  intro inserted batched row member _
  have same : inserted = rows := by
    rw [reached] at batched
    cases batched
    rfl
  subst same
  have asBuilt : Store.unnumbered (writtenRow row) = writtenRow row := by
    have key : (writtenRow row).id = 0 := ((TimerRun.batch_rows reached).2 row member).2
    rw [Store.unnumbered, ← key]
  have image : writtenRow row ∈
      (Store.numbered batchRun.found.nextHistoryId (inserted.map writtenRow)).map Store.unnumbered := by
    rw [Store.numbered_unnumbered]
    exact List.mem_map.mpr ⟨writtenRow row, List.mem_map_of_mem member, asBuilt⟩
  obtain ⟨stored, numbered, unnumbered⟩ := List.mem_map.mp image
  rw [saved_of_reached reached, if_pos committed]
  exact ⟨stored, List.mem_append_right _ numbered, (Store.mem_numbered numbered).2.1, unnumbered⟩

theorem none_stored_of_failed (kept : batchRun.ResultsStored)
    (failed : ¬ ∀ row ∈ rows, row.urlMonitorId ∈ batchRun.found.monitorIds) :
    ∀ row ∈ rows, row.urlMonitorId ∉ batchRun.found.monitorIds := by
  have unchanged : batchRun.saved = batchRun.found := by
    rw [saved_of_reached reached, if_neg failed]
  intro row member present
  obtain ⟨stored, inside, fresh, -⟩ := kept rows reached row member (unchanged ▸ present)
  rw [unchanged] at inside
  have issued := found_valid.historyIssued stored inside
  omega

end Reached

/-- A run that reaches its save keeps every result exactly when the monitors it
checked are all still there, or are all gone: one deleted monitor among others
throws the whole batch away. -/
theorem results_stored_iff (batchRun : BatchRun Tag World) {rows : List LatencyHistory}
    (reached : batchRun.run.batch batchRun.loaded = .ok rows) :
    batchRun.ResultsStored ↔
      (∀ monitor ∈ batchRun.run.due batchRun.loaded, monitor.id ∈ batchRun.found.monitorIds) ∨
        ∀ monitor ∈ batchRun.run.due batchRun.loaded, monitor.id ∉ batchRun.found.monitorIds := by
  rw [← forall_rows_iff reached (· ∈ batchRun.found.monitorIds),
    ← forall_rows_iff reached (· ∉ batchRun.found.monitorIds)]
  constructor
  · intro kept
    by_cases committed : ∀ row ∈ rows, row.urlMonitorId ∈ batchRun.found.monitorIds
    · exact .inl committed
    · exact .inr (none_stored_of_failed reached kept committed)
  · intro together
    by_cases committed : ∀ row ∈ rows, row.urlMonitorId ∈ batchRun.found.monitorIds
    · exact stored_of_committed reached committed
    · cases together with
      | inl present => exact absurd present committed
      | inr gone =>
          intro inserted batched row member present
          rw [reached] at batched
          cases batched
          rw [saved_of_reached reached, if_neg committed] at present
          exact absurd present (gone row member)

def twoOwners : Database where
  urlMonitors :=
    [{ id := 1, ownerId := "alice", url := "https://a.example", createdAt := 10 },
      { id := 2, ownerId := "bob", url := "https://b.example", createdAt := 20 }]
  nextMonitorId := 3
  valid := by decide

def bothUp : TimerRun Unit where
  regionName := some "eastus"
  now := 1000
  checker := fun _ _ world =>
    .ok ({ isUp := true, latencyMs := some 20, checkedAt := 1000, statusCode := 200 }, world)
  world := ()

/-- Bob deletes his monitor while the run is out. -/
def deletedMeanwhile : BatchRun Nat Unit where
  database := twoOwners
  tag := 0
  run := bothUp
  before := []
  between := [.call (.web (some "bob") (.delete 2))]
  othersBefore := by simp
  othersBetween := by simp [Step.tag?]

theorem results_stored_iff_deleted_meanwhile :
    deletedMeanwhile.ResultsStored ↔
      (∀ monitor ∈ bothUp.due deletedMeanwhile.loaded, monitor.id ∈ deletedMeanwhile.found.monitorIds) ∨
        ∀ monitor ∈ bothUp.due deletedMeanwhile.loaded,
          monitor.id ∉ deletedMeanwhile.found.monitorIds :=
  results_stored_iff deletedMeanwhile rfl

/-- Alice's check result is lost to Bob's delete. -/
theorem not_results_stored_deleted_meanwhile : ¬ deletedMeanwhile.ResultsStored := by
  intro kept
  have lost : ¬ ∃ stored ∈ deletedMeanwhile.saved.latencyHistories,
      deletedMeanwhile.found.nextHistoryId ≤ stored.id ∧ Store.unnumbered stored =
        { urlMonitorId := 1, checkedAt := 1000, region := "eastus", latencyMs := 20, statusCode := 200 } := by
    decide
  exact lost (kept _ rfl
    { urlMonitorId := 1, checkedAt := 1000, region := "eastus", latencyMs := 20, statusCode := 200 }
    (by decide) (by decide))

end BatchRun

end UrlPulse
