import Mathlib.Algebra.BigOperators.Ring.List
import Mathlib.Algebra.Order.BigOperators.Group.List
import UrlPulse.Freshness

namespace UrlPulse

open UrlPulse.Core UrlPulse.Infrastructure UrlPulse.Web UrlPulse.Worker UrlPulse.Data
open UrlPulse.Data.Phased

/-! # What the tolerance has room for

A run reads its clock and queries the table, and reaches a monitor when the requests to
those ahead of it are over; nothing but their timeouts bounds how long these take.
-/

variable {World Tag : Type} {store after : Store} {id : Int}

def ticks (timeoutMs : Int32) : Nat := timeoutMs.toInt.toNat * TimeSpan.ticksPerMillisecond

/-- Requests with these timeouts are cut off, and one after the other take no longer than this. -/
structure EndWithin (time : Nat) (timeouts : List Int32) : Prop where
  cutOff : ∀ timeoutMs ∈ timeouts, 0 ≤ timeoutMs
  sum : (timeouts.map ticks).sum ≤ time

instance (time : Nat) (timeouts : List Int32) : Decidable (EndWithin time timeouts) :=
  -- the list decides this, not all of `Int32`
  have : Decidable (∀ timeoutMs ∈ timeouts, 0 ≤ timeoutMs) := List.decidableBAll _ timeouts
  decidable_of_iff ((∀ timeoutMs ∈ timeouts, 0 ≤ timeoutMs) ∧ (timeouts.map ticks).sum ≤ time)
    ⟨fun both => ⟨both.1, both.2⟩, fun within => ⟨within.cutOff, within.sum⟩⟩

theorem EndWithin.sublist {time : Nat} {timeouts others : List Int32} (within : EndWithin time timeouts)
    (fewer : others.Sublist timeouts) : EndWithin time others where
  cutOff timeoutMs member := within.cutOff timeoutMs (fewer.subset member)
  sum := ((fewer.map ticks).sum_le_sum fun _ _ => Nat.zero_le _).trans within.sum

/-- Timeouts are in milliseconds, so a part of a microsecond more makes no difference. -/
theorem EndWithin.of_whole {time more : Nat} {timeouts : List Int32} (whole : 10 ∣ time) (little : more < 10)
    (within : EndWithin (time + more) timeouts) : EndWithin time timeouts := by
  have sums : 10 ∣ (timeouts.map ticks).sum := by
    refine List.dvd_sum fun span member => ?_
    obtain ⟨timeoutMs, -, rfl⟩ := List.mem_map.mp member
    exact (show 10 ∣ TimeSpan.ticksPerMillisecond by decide).mul_left _
  have sum := within.sum
  exact ⟨within.cutOff, by omega⟩

/-! ## The requests of a run -/

def afterRequests (httpClient : HttpClient World) (monitors : List UrlMonitor) (world : World) : World :=
  monitors.foldl (fun world monitor => (httpClient.getAsync monitor.url monitor.timeoutMs world).2) world

section Requests

variable {httpClient : HttpClient World}

theorem le_afterRequests (forward : httpClient.Forward) (monitors : List UrlMonitor) (world : World) :
    httpClient.utcNow world ≤ httpClient.utcNow (afterRequests httpClient monitors world) := by
  induction monitors generalizing world with
  | nil => exact le_rfl
  | cons monitor rest ih => exact (forward monitor.url monitor.timeoutMs world).trans (ih _)

theorem afterRequests_le {time : Nat} {monitors : List UrlMonitor} (timely : httpClient.Timely)
    (within : EndWithin time (monitors.map (·.timeoutMs))) (world : World) :
    httpClient.utcNow (afterRequests httpClient monitors world) ≤ httpClient.utcNow world + time := by
  induction monitors generalizing world time with
  | nil => exact Nat.le_add_right _ _
  | cons monitor rest ih =>
      obtain ⟨cutOff, sum⟩ := within
      rw [List.map_cons, List.forall_mem_cons] at cutOff
      rw [List.map_cons, List.map_cons, List.sum_cons] at sum
      have first := timely monitor.url monitor.timeoutMs world cutOff.1
      have others : EndWithin (time - ticks monitor.timeoutMs) (rest.map (·.timeoutMs)) :=
        ⟨cutOff.2, Nat.le_sub_of_add_le' sum⟩
      have room : ticks monitor.timeoutMs ≤ time := Nat.le_of_add_right_le sum
      calc
        httpClient.utcNow (afterRequests httpClient (monitor :: rest) world) ≤
            httpClient.utcNow (httpClient.getAsync monitor.url monitor.timeoutMs world).2 +
              (time - ticks monitor.timeoutMs) := ih others _
        _ ≤ httpClient.utcNow world + ticks monitor.timeoutMs + (time - ticks monitor.timeoutMs) :=
            Nat.add_le_add_right first _
        _ = httpClient.utcNow world + time := by rw [Nat.add_assoc, Nat.add_sub_cancel' room]

end Requests

/-! ## The table -/

/-- The timeouts of the active monitors that the table has ahead of a key, paused or not. -/
def timeoutsAhead (id : Int) (monitors : List UrlMonitor) : List Int32 :=
  ((monitors.takeWhile fun monitor => monitor.id ≠ id).filter (·.isActive)).map (·.timeoutMs)

theorem takeWhile_append_of_mem {monitors : List UrlMonitor} (stored : ∃ monitor ∈ monitors, monitor.id = id)
    (others : List UrlMonitor) :
    ((monitors ++ others).takeWhile fun monitor => monitor.id ≠ id) =
      monitors.takeWhile fun monitor => monitor.id ≠ id := by
  induction monitors with
  | nil =>
      obtain ⟨monitor, member, -⟩ := stored
      contradiction
  | cons first rest ih =>
      by_cases same : first.id = id
      · simp [same]
      · have later : ∃ monitor ∈ rest, monitor.id = id := by
          obtain ⟨monitor, member, key⟩ := stored
          rcases List.mem_cons.mp member with rfl | inside
          · exact absurd key same
          · exact ⟨monitor, inside, key⟩
        rw [List.cons_append, List.takeWhile_cons_of_pos (by simpa using same),
          List.takeWhile_cons_of_pos (by simpa using same), ih later]

theorem timeoutsAhead_map {f : UrlMonitor → UrlMonitor} (monitors : List UrlMonitor)
    (kept : ∀ monitor, (f monitor).id = monitor.id ∧ (f monitor).isActive = monitor.isActive ∧
      (f monitor).timeoutMs = monitor.timeoutMs) :
    timeoutsAhead id (monitors.map f) = timeoutsAhead id monitors := by
  simp only [timeoutsAhead, List.takeWhile_map, List.filter_map, List.map_map, Function.comp_def,
    (kept _).1, (kept _).2.1, (kept _).2.2]

/-- A part of the table that keeps the monitor has no more ahead of it. -/
theorem takeWhile_filter_of_keeps {p q : UrlMonitor → Bool} {monitors : List UrlMonitor}
    (keeps : ∀ monitor ∈ monitors, q monitor = false → p monitor = true) :
    (monitors.filter p).takeWhile q = (monitors.takeWhile q).filter p := by
  induction monitors with
  | nil => rfl
  | cons monitor rest ih =>
      have later := ih fun other member => keeps other (List.mem_cons_of_mem _ member)
      have first := keeps monitor List.mem_cons_self
      cases asked : q monitor <;> cases selected : p monitor <;> simp_all

/-- The key is out, and its monitor has no other timeouts ahead of it than these. -/
structure Led (id : Int) (timeouts : List Int32) (store : Store) : Prop where
  issued : id < store.nextMonitorId
  ahead : id ∈ store.monitorIds → (timeoutsAhead id store.urlMonitors).Sublist timeouts

theorem Led.apply {timeouts : List Int32} {entry : EntityEntry} (led : Led id timeouts store)
    (applied : entry.apply store = .ok after) : Led id timeouts after := by
  have issued := led.issued
  rcases EntityEntry.apply_cases applied with
    ⟨monitor, history, rfl, -, rfl⟩ | ⟨row, rfl, -, rfl⟩ | ⟨target, isPaused, rfl, -, rfl⟩ | ⟨target, rfl, -, rfl⟩
  · constructor
    · simp only [Store.insertMonitor, Store.appendHistories]
      omega
    · intro stored
      have before : id ∈ store.monitorIds := by
        simp only [Store.monitorIds, Store.insertMonitor, Store.appendHistories, List.map_append,
          List.mem_append, List.map_cons, List.map_nil, List.mem_singleton] at stored
        rcases stored with old | new
        · exact old
        · omega
      have unchanged : timeoutsAhead id (store.insertMonitor monitor history).urlMonitors =
          timeoutsAhead id store.urlMonitors := by
        simp only [timeoutsAhead, Store.insertMonitor, Store.appendHistories]
        rw [takeWhile_append_of_mem (Store.mem_monitorIds.mp before)]
      rw [unchanged]
      exact led.ahead before
  · exact ⟨issued, led.ahead⟩
  · refine ⟨issued, ?_⟩
    intro stored
    rw [Store.setPaused_monitorIds] at stored
    have unchanged : timeoutsAhead id (store.setPaused target isPaused).urlMonitors =
        timeoutsAhead id store.urlMonitors :=
      timeoutsAhead_map _ fun monitor => by split <;> exact ⟨rfl, rfl, rfl⟩
    rw [unchanged]
    exact led.ahead stored
  · refine ⟨issued, ?_⟩
    intro stored
    obtain ⟨before, different⟩ := Store.mem_without_monitorIds.mp stored
    have part : (timeoutsAhead id (store.without target).urlMonitors).Sublist
        (timeoutsAhead id store.urlMonitors) := by
      simp only [timeoutsAhead, Store.without]
      rw [takeWhile_filter_of_keeps fun monitor _ same => by
        have key : monitor.id = id := by simpa using same
        simpa [key] using different]
      exact (List.filter_sublist.filter _).map _
    exact part.trans (led.ahead before)

/-- Whole seconds are whole microseconds. -/
theorem dvd_fromSeconds (seconds : Nat) : 10 ∣ TimeSpan.fromSeconds seconds :=
  (show 10 ∣ TimeSpan.ticksPerSecond by decide).mul_left seconds

/-- Due as a run finds it: active, unpaused, and old enough in the run's region. -/
def dueIn (run : TimerRun World) (store : Store) (monitor : UrlMonitor) : Bool :=
  isDue run.now monitor (includedHistory run.checkRegion store monitor).head? &&
    (monitor.isActive && !monitor.isPaused)

/-- The requests ahead of a due monitor are to due monitors that the table has ahead of it. -/
theorem due_takeWhile {run : TimerRun World} {monitor : UrlMonitor} (valid : store.Valid)
    (due : monitor ∈ run.due store) :
    ((run.due store).takeWhile fun other => other.id ≠ monitor.id) =
      (store.urlMonitors.takeWhile fun other => other.id ≠ monitor.id).filter (dueIn run store) := by
  have selected : run.due store = store.urlMonitors.filter (dueIn run store) := by
    simp only [TimerRun.due, loadMonitors, List.filter_map, List.map_map, Function.comp_def, List.map_id',
      List.filter_filter]
    rfl
  rw [selected]
  refine takeWhile_filter_of_keeps fun other member same => ?_
  have isMonitor : other = monitor :=
    valid.monitor_unique member (TimerRun.mem_due_iff.mp due).1.1 (by simpa using same)
  rw [selected] at due
  rw [isMonitor]
  exact (List.mem_filter.mp due).2

theorem timeouts_due_sublist {run : TimerRun World} {monitor : UrlMonitor} (valid : store.Valid)
    (due : monitor ∈ run.due store) :
    (((run.due store).takeWhile fun other => other.id ≠ monitor.id).map (·.timeoutMs)).Sublist
      (timeoutsAhead monitor.id store.urlMonitors) := by
  rw [due_takeWhile valid due]
  refine List.Sublist.map _ (List.monotone_filter_right _ fun other chosen => ?_)
  simp only [dueIn, Bool.and_eq_true] at chosen
  exact chosen.2.1

namespace Timetable

variable [DecidableEq Tag] {timetable : Timetable Tag World} {monitor : UrlMonitor} {k drift query : Nat}
  {start : DateTime} {httpClient : HttpClient World}

/-- A region's runs start after their minutes, no later than the drift, and check when the
query has come back; each is over before the next one starts, and none is thrown out. -/
structure Punctual (timetable : Timetable Tag World) (httpClient : HttpClient World)
    (monitor : UrlMonitor) (start : DateTime) (drift query : Nat) : Prop where
  forward : httpClient.Forward
  timely : httpClient.Timely
  checker : ∀ i, (timetable.run i).checker = checkUrlAsync httpClient
  queried : ∀ i, (timetable.run i).now ≤ httpClient.utcNow (timetable.run i).world ∧
    httpClient.utcNow (timetable.run i).world ≤ (timetable.run i).now + query
  onTime : ∀ i, start + TimeSpan.fromMinutes i ≤ (timetable.run i).now ∧
    (timetable.run i).now ≤ start + TimeSpan.fromMinutes i + drift
  finished : ∀ i, httpClient.utcNow (afterRequests httpClient ((timetable.run i).due (timetable.loaded i))
    (timetable.run i).world) ≤ (timetable.run (i + 1)).now
  committed : ∀ i, timetable.commits i
  watched : ∀ i, timetable.Watched monitor i

theorem Punctual.mono {longerDrift longerQuery : Nat}
    (punctual : timetable.Punctual httpClient monitor start drift query) (drifts : drift ≤ longerDrift)
    (queries : query ≤ longerQuery) :
    timetable.Punctual httpClient monitor start longerDrift longerQuery :=
  { punctual with
    queried := fun i => ⟨(punctual.queried i).1,
      (punctual.queried i).2.trans (Nat.add_le_add_left queries _)⟩
    onTime := fun i => ⟨(punctual.onTime i).1, (punctual.onTime i).2.trans (Nat.add_le_add_left drifts _)⟩ }

theorem loaded_led {timeouts : List Int32} (led : Led id timeouts timetable.database.toStore) (i : Nat) :
    Led id timeouts (timetable.loaded i) := by
  have apply : ∀ entry before next, Foreign timetable.region entry → Led id timeouts before →
      EntityEntry.apply entry before = .ok next → Led id timeouts next :=
    fun _ _ _ _ held applied => held.apply applied
  induction i with
  | zero => exact kept_loaded apply led
  | succ i ih =>
      have found : Led id timeouts (timetable.found i) := kept_found apply ih
      have saved : Led id timeouts (timetable.saved i) := by
        rcases timetable.saved_cases i with ⟨rows, -, -, appended⟩ | ⟨-, unchanged, -⟩
        · rw [appended]
          exact ⟨found.issued, found.ahead⟩
        · rw [unchanged]
          exact found
      exact kept_loaded apply saved

theorem loaded_fresh (stored : monitor.id ∈ timetable.database.monitorIds)
    (fresh : ∀ row ∈ timetable.database.latencyHistories, row.region ≠ timetable.region)
    (remains : monitor.id ∈ (timetable.loaded 0).monitorIds) :
    rowsOf monitor.id timetable.region (timetable.loaded 0) = [] := by
  have none : rowsOf monitor.id timetable.region timetable.database.toStore = [] := by
    refine List.filter_eq_nil_iff.mpr fun row member _ => ?_
    obtain ⟨listed, same⟩ := List.mem_filter.mp member
    exact fresh row listed (of_decide_eq_true same)
  have undisturbed : Undisturbed monitor.id timetable.region [] (timetable.loaded 0) :=
    kept_loaded (i := 0) (fun _ _ _ foreign held applied => held.apply foreign applied)
      ⟨timetable.database.valid.monitorIssued _ stored, fun _ => none, timetable.database.valid⟩
  exact undisturbed.rows remains

/-- A check is stored with the time when the requests ahead of it are over. -/
theorem Punctual.stamped (punctual : timetable.Punctual httpClient monitor start drift query) {i : Nat}
    (checked : timetable.checks monitor.id i) :
    monitor ∈ (timetable.run i).due (timetable.loaded i) ∧
      timetable.stamp monitor.id i = timestamptz (httpClient.utcNow (afterRequests httpClient
        (((timetable.run i).due (timetable.loaded i)).takeWhile fun other => other.id ≠ monitor.id)
        (timetable.run i).world)) := by
  constructor
  · obtain ⟨other, due, same⟩ := checked
    rwa [(loaded_valid i).monitor_unique (TimerRun.mem_due_iff.mp due).1.1
      (punctual.watched i i le_rfl).1 same] at due
  · exact stamp_eq (punctual.checker i) (punctual.committed i) checked

theorem Punctual.stamp_le {time : Nat} (punctual : timetable.Punctual httpClient monitor start drift query)
    (stored : monitor.id ∈ timetable.database.monitorIds)
    (ahead : EndWithin time (timeoutsAhead monitor.id timetable.database.urlMonitors)) {i : Nat}
    (checked : timetable.checks monitor.id i) :
    ((timetable.run i).now : Int) ≤ timetable.stamp monitor.id i + 10 ∧
      timetable.stamp monitor.id i ≤ timestamptz ((timetable.run i).now + query + time) := by
  have led : Led monitor.id (timeoutsAhead monitor.id timetable.database.urlMonitors)
      (timetable.loaded i) :=
    loaded_led ⟨timetable.database.valid.monitorIssued _ stored, fun _ => .refl _⟩ i
  obtain ⟨due, stamped⟩ := punctual.stamped checked
  have within := ahead.sublist ((timeouts_due_sublist (loaded_valid i) due).trans
    (led.ahead (Store.mem_monitorIds.mpr ⟨monitor, (punctual.watched i i le_rfl).1, rfl⟩)))
  obtain ⟨after, before⟩ := punctual.queried i
  have reached := (afterRequests_le punctual.timely within (timetable.run i).world).trans
    (Nat.add_le_add_right before time)
  rw [stamped]
  refine ⟨?_, Int.ofNat_le.mpr (timestamptz_mono reached)⟩
  exact_mod_cast (after.trans (le_afterRequests punctual.forward _ _)).trans (lt_timestamptz_add _).le

/-- Every `k`-th run checks the monitor and no other one does, whatever the requests around the
runs and the response times of the targets. -/
def Guaranteed (database : Database) (region : String) (monitor : UrlMonitor) (k : Nat)
    (start : DateTime) (drift query : Nat) : Prop :=
  ∀ (Tag World : Type) [DecidableEq Tag] (timetable : Timetable Tag World) (httpClient : HttpClient World),
    timetable.database = database → timetable.region = region →
    timetable.Punctual httpClient monitor start drift query → ∀ i, timetable.checks monitor.id i ↔ k ∣ i

theorem Guaranteed.mono {database : Database} {region : String} {longerDrift longerQuery : Nat}
    (guaranteed : Guaranteed database region monitor k start longerDrift longerQuery)
    (drifts : drift ≤ longerDrift) (queries : query ≤ longerQuery) :
    Guaranteed database region monitor k start drift query :=
  fun Tag World _ timetable httpClient ofDatabase ofRegion punctual =>
    guaranteed Tag World timetable httpClient ofDatabase ofRegion (punctual.mono drifts queries)

theorem guaranteed_of_endWithin {database : Database} {region : String} {time : Nat}
    (stored : monitor ∈ database.urlMonitors) (interval : monitor.checkIntervalMinutes.toInt = k)
    (positive : 1 ≤ k) (fits : k * 60 ≤ 2147483647)
    (fresh : ∀ row ∈ database.latencyHistories, row.region ≠ region) (whole : 10 ∣ start)
    (ahead : EndWithin time (timeoutsAhead monitor.id database.urlMonitors))
    (room : timestamptz (drift + query + time) ≤ TimeSpan.fromSeconds 5) :
    Guaranteed database region monitor k start drift query := by
  intro Tag World decidable timetable httpClient ofDatabase ofRegion punctual i
  subst ofDatabase ofRegion
  have listed : monitor.id ∈ timetable.database.monitorIds := Store.mem_monitorIds.mpr ⟨monitor, stored, rfl⟩
  have fires : ∀ j, timetable.checks monitor.id j ↔ (timetable.attempts monitor).fires j = true :=
    fun j => checks_iff_fires (punctual.watched j) fun l _ => punctual.committed l
  have least : (TimeSpan.fromSeconds 5 : Nat) ≤ leeway k := (leeway_bounds k).1
  have soon : ∀ j, (timestamptz ((timetable.run j).now + query + time) : Int) ≤
      start + minute * j + leeway k := by
    intro j
    have onMinute : 10 ∣ start + TimeSpan.fromMinutes j := Nat.dvd_add whole (dvd_fromSeconds _)
    have late := timestamptz_mono (Nat.add_le_add_right (Nat.add_le_add_right (punctual.onTime j).2 query) time)
    rw [Nat.add_assoc _ drift, Nat.add_assoc _ (drift + query), timestamptz_add onMinute] at late
    have bound := Int.ofNat_le.mpr (late.trans (Nat.add_le_add_left room _))
    rw [Int.natCast_add (start + TimeSpan.fromMinutes j), natCast_minutes] at bound
    exact bound.trans (Int.add_le_add_left least _)
  have initially : (timetable.attempts monitor).initial = [] :=
    congrArg (List.map _) (loaded_fresh listed fresh
      (Store.mem_monitorIds.mpr ⟨monitor, (punctual.watched 0 0 le_rfl).1, rfl⟩))
  have delays : ∀ j ≤ i, (timetable.attempts monitor).fires j = true →
      ((timetable.run j).now : Int) ≤ timetable.stamp monitor.id j + 10 ∧
        timetable.stamp monitor.id j ≤ start + minute * j + leeway k := by
    intro j _ fired
    obtain ⟨after, before⟩ := punctual.stamp_le listed ahead ((fires j).mpr fired)
    exact ⟨after, before.trans (soon j)⟩
  rw [fires i]
  -- Up to a microsecond of the drift may come on top of the tolerance.
  have small : leeway k + (TimeSpan.fromSeconds 5 + 10 : Nat) + 10 < minute := by
    have bounds := leeway_bounds k
    have seconds : tolerance = (TimeSpan.fromSeconds 5 : Nat) := rfl
    have period : minute = 12 * tolerance := by decide
    have more : (40 : Int) < tolerance := by decide
    push_cast
    omega
  have drifts : ∀ j ≤ i, (start : Int) + minute * j ≤ (timetable.run j).now ∧
      ((timetable.run j).now : Int) ≤ start + minute * j + (TimeSpan.fromSeconds 5 + 10 : Nat) := by
    intro j _
    obtain ⟨notEarly, late⟩ := punctual.onTime j
    have bound : drift < TimeSpan.fromSeconds 5 + 10 := by
      have part : drift ≤ drift + query + time := (Nat.le_add_right _ _).trans (Nat.le_add_right _ _)
      exact part.trans_lt ((lt_timestamptz_add _).trans_le (Nat.add_le_add_right room 10))
    rw [← natCast_minutes]
    exact ⟨Int.ofNat_le.mpr notEarly, Int.ofNat_le.mpr (late.trans (Nat.add_le_add_left bound.le _))⟩
  exact Throttle.Attempts.fires_iff_dvd positive (gap_eq interval positive fits) (by decide) small
    initially drifts delays

end Timetable

/-! ## An outage

For some time nothing answers, and a request takes its whole timeout; then everything
answers at once.
-/

def outageUntil (limit : DateTime) : HttpClient DateTime where
  utcNow clock := clock
  getAsync _ timeoutMs clock :=
    (.exception, max clock (if timeoutMs < 0 then limit else min (clock + ticks timeoutMs) limit))

theorem outageUntil_forward (limit : DateTime) : (outageUntil limit).Forward :=
  fun _ _ _ => le_max_left _ _

theorem outageUntil_timely (limit : DateTime) : (outageUntil limit).Timely := by
  intro url timeoutMs clock cutOff
  have limited : ¬ timeoutMs < 0 := by simpa using cutOff
  simp only [outageUntil, if_neg limited]
  exact max_le (Nat.le_add_right _ _) (min_le_left _ _)

theorem afterRequests_outage_le (limit : DateTime) (monitors : List UrlMonitor) (clock : DateTime) :
    afterRequests (outageUntil limit) monitors clock ≤ max clock limit := by
  induction monitors generalizing clock with
  | nil => exact le_max_left _ _
  | cons monitor rest ih =>
      refine (ih _).trans (max_le (max_le (le_max_left _ _) ?_) (le_max_right _ _))
      split
      · exact le_max_right _ _
      · exact (min_le_right _ _).trans (le_max_right _ _)

/-- Requests that are not bound to end within some time last longer than that. -/
theorem lt_afterRequests_outage (limit clock : Nat) {time : Nat} {monitors : List UrlMonitor}
    (longer : ¬ EndWithin time (monitors.map (·.timeoutMs))) (room : clock + time < limit) :
    clock + time < afterRequests (outageUntil limit) monitors clock := by
  induction monitors generalizing clock time with
  | nil => exact absurd ⟨by simp, by simp⟩ longer
  | cons monitor rest ih =>
      let next := max clock (if monitor.timeoutMs < 0 then limit else min (clock + ticks monitor.timeoutMs) limit)
      have onwards : next ≤ afterRequests (outageUntil limit) (monitor :: rest) clock :=
        le_afterRequests (outageUntil_forward limit) rest next
      by_cases unlimited : monitor.timeoutMs < 0
      · have reached : limit ≤ next := by
          simp only [next, if_pos unlimited]
          exact le_max_right _ _
        exact (room.trans_le reached).trans_le onwards
      · have first : next = max clock (min (clock + ticks monitor.timeoutMs) limit) := by
          simp only [next, if_neg unlimited]
        by_cases fits : ticks monitor.timeoutMs ≤ time
        · have spent : next = clock + ticks monitor.timeoutMs := by
            rw [first, min_eq_left (by omega)]
            exact max_eq_right (Nat.le_add_right _ _)
          have rest_longer : ¬ EndWithin (time - ticks monitor.timeoutMs) (rest.map (·.timeoutMs)) := by
            intro within
            refine longer ⟨?_, ?_⟩
            · rw [List.map_cons, List.forall_mem_cons]
              exact ⟨by simpa using unlimited, within.cutOff⟩
            · rw [List.map_cons, List.map_cons, List.sum_cons]
              have others := within.sum
              omega
          have left : next + (time - ticks monitor.timeoutMs) = clock + time := by omega
          rw [← left] at room ⊢
          exact ih _ rest_longer room
        · refine lt_of_lt_of_le ?_ onwards
          rw [first]
          exact lt_max_of_lt_right (lt_min (by omega) room)

/-- The delay and the timeouts have room in the tolerance if the outage is over so soon: with a
microsecond more, the time would be stored as a later one. -/
theorem endWithin_of_reached {start delay : Nat} {monitors : List UrlMonitor} (whole : 10 ∣ start)
    (soon : timestamptz (afterRequests (outageUntil (start + TimeSpan.fromSeconds 10)) monitors
      (start + delay)) ≤ start + TimeSpan.fromSeconds 5) :
    timestamptz delay ≤ TimeSpan.fromSeconds 5 ∧
      EndWithin (TimeSpan.fromSeconds 5 - timestamptz delay) (monitors.map (·.timeoutMs)) := by
  have late : start + timestamptz delay ≤ timestamptz
      (afterRequests (outageUntil (start + TimeSpan.fromSeconds 10)) monitors (start + delay)) := by
    rw [← timestamptz_add whole]
    exact timestamptz_mono (le_afterRequests (outageUntil_forward _) monitors _)
  have inside : timestamptz delay ≤ TimeSpan.fromSeconds 5 := Nat.le_of_add_le_add_left (late.trans soon)
  refine ⟨inside, ?_⟩
  by_contra longer
  obtain ⟨kept, same⟩ : ∃ kept : Nat, timestamptz delay = kept := ⟨_, rfl⟩
  have low : kept ≤ delay := same ▸ timestamptz_le _
  have high : delay < kept + 10 := same ▸ lt_timestamptz_add _
  have room : kept ≤ TimeSpan.fromSeconds 5 := same ▸ inside
  have rest : 10 ∣ TimeSpan.fromSeconds 5 - kept := same ▸ Nat.dvd_sub (dvd_fromSeconds 5) (dvd_timestamptz _)
  rw [same] at longer
  -- The timeouts end on whole microseconds, so they outlast the rest of this one too.
  have stillLonger := mt (EndWithin.of_whole rest (show kept + 9 - delay < 10 by omega)) longer
  have last : start + delay + (TimeSpan.fromSeconds 5 - kept + (kept + 9 - delay)) =
      start + (TimeSpan.fromSeconds 5 + 9) := by
    have total : delay + (TimeSpan.fromSeconds 5 - kept + (kept + 9 - delay)) =
        TimeSpan.fromSeconds 5 + 9 := by omega
    rw [Nat.add_assoc, total]
  have beyond := lt_afterRequests_outage (start + TimeSpan.fromSeconds 10) (start + delay) stillLonger (by
    rw [last]
    exact Nat.add_lt_add_left (by decide) start)
  rw [last] at beyond
  have microsecond : 10 ∣ start + TimeSpan.fromSeconds 5 + 10 :=
    Nat.dvd_add (Nat.dvd_add whole (dvd_fromSeconds 5)) (dvd_refl 10)
  have tooLate := timestamptz_mono (show start + TimeSpan.fromSeconds 5 + 10 ≤ _ from Nat.succ_le_of_lt beyond)
  rw [timestamptz_of_dvd microsecond] at tooLate
  exact absurd (tooLate.trans soon) (not_le_of_gt (Nat.lt_add_of_pos_right (by decide)))

/-! ## Resuming everything -/

def resumed (monitor : UrlMonitor) : UrlMonitor := { monitor with isPaused := false }

/-- The owners resume their paused monitors. -/
def resumes (monitors : List UrlMonitor) : List (Step Unit (Operation World)) :=
  (monitors.filter (·.isPaused)).map fun monitor =>
    .call (.web (some monitor.ownerId) (.setPause monitor.id))

theorem setPaused_resumed {before after : List UrlMonitor} {monitor : UrlMonitor}
    (table : store.urlMonitors = before.map resumed ++ monitor :: after)
    (keys : store.monitorIds.Nodup) :
    store.setPaused monitor.id false =
      { store with urlMonitors := (before ++ [monitor]).map resumed ++ after } := by
  have others : ∀ other ∈ before.map resumed ++ after, other.id ≠ monitor.id := by
    rw [Store.monitorIds, table, List.map_append, List.map_cons, List.nodup_middle, ← List.map_append] at keys
    intro other member same
    exact (List.nodup_cons.mp keys).1 (List.mem_map.mpr ⟨other, member, same⟩)
  have unchanged : ∀ part : List UrlMonitor, (∀ other ∈ part, other.id ≠ monitor.id) →
      (part.map fun other => if other.id = monitor.id then { other with isPaused := false } else other) =
        part := by
    intro part apart
    refine (List.map_congr_left fun other member => if_neg (apart other member)).trans (List.map_id _)
  have parts := List.forall_mem_append.mp others
  simp only [Store.setPaused, table, List.map_append, List.map_cons, unchanged _ parts.1,
    unchanged _ parts.2]
  simp [resumed]

theorem run_resumes {before after : List UrlMonitor} {system : System Unit World}
    (valid : system.store.Valid) (table : system.store.urlMonitors = before.map resumed ++ after) :
    (Phased.run (machine World) system (resumes after)).store =
      { system.store with urlMonitors := (before ++ after).map resumed } := by
  induction after generalizing before system with
  | nil =>
      have unchanged : system.store.urlMonitors = before.map resumed := by simpa using table
      simp [resumes, Phased.run, ← unchanged]
  | cons monitor rest ih =>
      cases flag : monitor.isPaused with
      | false =>
          have same : resumed monitor = monitor := by rw [resumed, ← flag]
          have next : system.store.urlMonitors = (before ++ [monitor]).map resumed ++ rest := by
            simp [table, same]
          have later := ih valid next
          simpa [resumes, flag] using later
      | true =>
          have stored : monitor ∈ system.store.urlMonitors := by simp [table]
          have visible : monitor ∈ ApplicationDbContext.urlMonitors
              { currentUserId := some monitor.ownerId } system.store :=
            List.mem_filter.mpr ⟨stored, by simp [ApplicationDbContext.queryFilter]⟩
          have found := ApplicationDbContext.findMonitor_of_visible valid visible
          let next := step (machine World) system
            (.call (.web (some monitor.ownerId) (.setPause monitor.id)))
          have flipped : next.store =
              { system.store with urlMonitors := (before ++ [monitor]).map resumed ++ rest } := by
            have saved : next.store = system.store.setPaused monitor.id false := by
              change (Pending.save (WebRequest.load _ _ _) _).2 = _
              rw [load_setPause_found World found, Pending.save_modifiedIsPaused,
                if_pos (Store.mem_monitorIds.mpr ⟨monitor, stored, rfl⟩), flag]
              rfl
            rw [saved, setPaused_resumed table valid.monitorKeys]
          have later : (Phased.run (machine World) next (resumes rest)).store =
              { next.store with urlMonitors := ((before ++ [monitor]) ++ rest).map resumed } :=
            ih (run_valid valid [_]) (congrArg (·.urlMonitors) flipped)
          have began : (resumes (monitor :: rest) : List (Step Unit (Operation World))) =
              .call (.web (some monitor.ownerId) (.setPause monitor.id)) :: resumes rest := by
            simp [resumes, flag]
          rw [began, Phased.run]
          refine later.trans ?_
          rw [flipped]
          simp

namespace Timetable

variable {database : Database} {region : String} {monitor : UrlMonitor} {k drift query late : Nat}
  {start : DateTime}

/-- Minute `i`, or in minute zero so much later. -/
def startOf (start : DateTime) (late i : Nat) : Nat :=
  start + TimeSpan.fromMinutes i + if i = 0 then late else 0

theorem startOf_succ (early : late ≤ TimeSpan.fromMinutes 1) (i : Nat) :
    max (startOf start late i) (start + TimeSpan.fromSeconds 10) ≤ startOf start drift (i + 1) := by
  have seconds : TimeSpan.fromSeconds 10 ≤ TimeSpan.fromMinutes 1 := by decide
  have late : (if i = 0 then late else 0) ≤ TimeSpan.fromMinutes 1 := by
    split <;> omega
  rw [startOf, startOf, if_neg (Nat.succ_ne_zero i), TimeSpan.fromMinutes_add, ← Nat.add_assoc]
  refine max_le (Nat.add_le_add_left late _) ?_
  exact (Nat.add_le_add_left seconds start).trans
    (Nat.add_le_add_right (Nat.le_add_right start _) _)

/-- Run zero is late and its query slow, and nothing answers in the first ten seconds. -/
def throughOutage (database : Database) (region : String) (start : DateTime) (drift query : Nat) :
    Timetable Unit DateTime where
  database := database
  region := region
  tag := ()
  run i := { regionName := some region
             now := startOf start drift i
             checker := checkUrlAsync (outageUntil (start + TimeSpan.fromSeconds 10))
             world := startOf start (drift + query) i }
  before i := if i = 0 then resumes database.urlMonitors else []
  during _ := []
  ofRegion _ := rfl
  apartBefore i next member := by
    split at member
    · obtain ⟨monitor, -, rfl⟩ := List.mem_map.mp member
      simp [Apart, Step.tag?, Step.op?]
    · contradiction
  apartDuring _ _ member := by contradiction

theorem throughOutage_loaded_zero : (throughOutage database region start drift query).loaded 0 =
    { database.toStore with urlMonitors := database.urlMonitors.map resumed } := by
  let initial : System Unit DateTime := { store := database.toStore }
  have table : initial.store.urlMonitors = ([] : List UrlMonitor).map resumed ++ database.urlMonitors := rfl
  exact run_resumes (show initial.store.Valid from database.valid) table

theorem throughOutage_found (i : Nat) :
    (throughOutage database region start drift query).found i =
      (throughOutage database region start drift query).loaded i := by
  rw [found, untilSave, run_loaded (settled i)]
  rfl

theorem throughOutage_urlMonitors (i : Nat) :
    ((throughOutage database region start drift query).loaded i).urlMonitors = database.urlMonitors.map resumed := by
  induction i with
  | zero => rw [throughOutage_loaded_zero]
  | succ i ih =>
      have next : (throughOutage database region start drift query).loaded (i + 1) =
          (throughOutage database region start drift query).saved i := rfl
      rw [next]
      rcases (throughOutage database region start drift query).saved_cases i with
        ⟨rows, -, -, saved⟩ | ⟨-, saved, -⟩
      · rw [saved, throughOutage_found]
        exact ih
      · rw [saved, throughOutage_found]
        exact ih

theorem throughOutage_commits (allowed : ∀ other ∈ database.urlMonitors, ¬ other.timeoutMs < -1) (i : Nat) :
    (throughOutage database region start drift query).commits i := by
  have total : ∃ rows, ((throughOutage database region start drift query).run i).batch
      ((throughOutage database region start drift query).loaded i) = .ok rows := by
    refine TimerRun.batch_total ?_
    rw [throughOutage_urlMonitors]
    intro other member world
    obtain ⟨original, inside, rfl⟩ := List.mem_map.mp member
    change ∃ outcome, checkUrlAsync (outageUntil _) original.url original.timeoutMs world = .ok outcome
    exact checkUrlAsync_total (allowed original inside) world
  obtain ⟨rows, batched⟩ := total
  rcases (throughOutage database region start drift query).saved_cases i with
    ⟨-, -, committed, -⟩ | ⟨-, -, missing⟩
  · exact committed
  · obtain ⟨row, member, absent⟩ := missing rows batched
    have listed : row.urlMonitorId ∈ rows.map (·.urlMonitorId) := List.mem_map_of_mem member
    rw [(TimerRun.batch_rows batched).1] at listed
    obtain ⟨other, due, key⟩ := List.mem_map.mp listed
    rw [throughOutage_found] at absent
    exact absurd (Store.mem_monitorIds.mpr ⟨other, (TimerRun.mem_due_iff.mp due).1.1, key⟩) absent

theorem throughOutage_punctual (stored : monitor ∈ database.urlMonitors)
    (running : monitor.isActive = true ∧ monitor.isPaused = false)
    (allowed : ∀ other ∈ database.urlMonitors, ¬ other.timeoutMs < -1)
    (early : drift + query ≤ TimeSpan.fromMinutes 1) :
    (throughOutage database region start drift query).Punctual
      (outageUntil (start + TimeSpan.fromSeconds 10)) monitor start drift query where
  forward := outageUntil_forward _
  timely := outageUntil_timely _
  checker _ := rfl
  queried i := by
    change startOf start drift i ≤ startOf start (drift + query) i ∧
      startOf start (drift + query) i ≤ startOf start drift i + query
    rw [startOf, startOf, Nat.add_assoc (start + TimeSpan.fromMinutes i)]
    constructor
    · refine Nat.add_le_add_left ?_ _
      split <;> omega
    · refine Nat.add_le_add_left ?_ _
      split <;> omega
  onTime i := by
    have late : ∀ i, (if i = 0 then drift else 0) ≤ drift := by
      intro i
      split <;> omega
    exact ⟨Nat.le_add_right _ _, Nat.add_le_add_left (late i) _⟩
  finished i := by
    exact (afterRequests_outage_le _ _ _).trans (startOf_succ early i)
  committed := throughOutage_commits allowed
  watched i j _ := by
    rw [throughOutage_urlMonitors]
    exact ⟨List.mem_map.mpr ⟨monitor, stored, by rw [resumed, ← running.2]⟩, running⟩

/-- The requests ahead of the monitor in run zero are all that the table has ahead of it. -/
theorem throughOutage_timeouts (fresh : ∀ row ∈ database.latencyHistories, row.region ≠ region)
    (due : monitor ∈ ((throughOutage database region start drift query).run 0).due
      ((throughOutage database region start drift query).loaded 0)) :
    ((((throughOutage database region start drift query).run 0).due
        ((throughOutage database region start drift query).loaded 0)).takeWhile
      fun other => other.id ≠ monitor.id).map (·.timeoutMs) = timeoutsAhead monitor.id database.urlMonitors := by
  rw [due_takeWhile (loaded_valid 0) due, throughOutage_urlMonitors,
    ← timeoutsAhead_map (f := resumed) database.urlMonitors fun monitor => ⟨rfl, rfl, rfl⟩, timeoutsAhead]
  congr 1
  refine List.filter_congr fun other member => ?_
  obtain ⟨original, -, rfl⟩ := List.mem_map.mp ((List.takeWhile_subset _) member)
  have old : isDue ((throughOutage database region start drift query).run 0).now (resumed original)
      (includedHistory ((throughOutage database region start drift query).run 0).checkRegion
        ((throughOutage database region start drift query).loaded 0) (resumed original)).head? = true := by
    refine isDue_iff.mpr fun row inRegion _ => ?_
    rw [throughOutage_loaded_zero] at inRegion
    obtain ⟨listed, same⟩ := List.mem_filter.mp inRegion
    exact absurd (of_decide_eq_true same) (fresh row listed)
  rw [dueIn, old]
  simp [resumed]

/-- A monitor that keeps its beat through the outage is reached within the tolerance. -/
theorem reached_of_beat (punctual : (throughOutage database region start drift query).Punctual
      (outageUntil (start + TimeSpan.fromSeconds 10)) monitor start drift query)
    (interval : monitor.checkIntervalMinutes.toInt = k) (positive : 1 ≤ k) (fits : k * 60 ≤ 2147483647)
    (whole : 10 ∣ start) (first : (throughOutage database region start drift query).checks monitor.id 0)
    (again : (throughOutage database region start drift query).checks monitor.id k) :
    timestamptz (afterRequests (outageUntil (start + TimeSpan.fromSeconds 10))
      ((((throughOutage database region start drift query).run 0).due
        ((throughOutage database region start drift query).loaded 0)).takeWhile
          fun other => other.id ≠ monitor.id) (start + (drift + query))) ≤
      start + TimeSpan.fromSeconds 5 := by
  have fires : ∀ j, (throughOutage database region start drift query).checks monitor.id j →
      ((throughOutage database region start drift query).attempts monitor).fires j = true :=
    fun j => (checks_iff_fires (punctual.watched j) fun l _ => punctual.committed l).mp
  have away := (Throttle.Attempts.fires_iff.mp (fires k again)).2 0 positive (fires 0 first)
  obtain ⟨-, stamped⟩ := punctual.stamped first
  let ahead := (((throughOutage database region start drift query).run 0).due
    ((throughOutage database region start drift query).loaded 0)).takeWhile fun other => other.id ≠ monitor.id
  let reached : Nat := afterRequests (outageUntil (start + TimeSpan.fromSeconds 10)) ahead
    (start + (drift + query))
  have began : startOf start (drift + query) 0 = start + (drift + query) := by
    simp [startOf, TimeSpan.fromMinutes, TimeSpan.fromSeconds]
  have onTheMinute : ((throughOutage database region start drift query).attempts monitor).now k =
      (start : Int) + minute * k := by
    rw [← natCast_minutes]
    exact congrArg Int.ofNat (by simp [throughOutage, startOf, Nat.pos_iff_ne_zero.mp positive])
  have recorded : ((throughOutage database region start drift query).attempts monitor).stamp 0 =
      timestamptz reached := by
    refine stamped.trans (congrArg (fun time : DateTime => (timestamptz time : Int)) ?_)
    exact congrArg (afterRequests (outageUntil (start + TimeSpan.fromSeconds 10)) ahead) began
  have distance : ((throughOutage database region start drift query).attempts monitor).gap =
      minute * k - leeway k := gap_eq interval positive fits
  rw [recorded, onTheMinute, distance] at away
  -- Both sides are whole microseconds, so a tick or two of the leeway do not count.
  have bound : (timestamptz reached : Int) ≤ (start : Int) + (TimeSpan.fromSeconds 5 : Nat) + 2 := by
    have most : leeway k ≤ (TimeSpan.fromSeconds 5 : Nat) + 2 := (leeway_bounds k).2
    linarith
  obtain ⟨count, stamp⟩ := dvd_timestamptz reached
  obtain ⟨limit, latest⟩ := Nat.dvd_add whole (dvd_fromSeconds 5)
  have inMicroseconds : (10 * count : Nat) ≤ 10 * limit + 2 := by
    rw [← stamp, ← latest]
    exact_mod_cast bound
  have less : (10 * count : Nat) ≤ 10 * limit := by omega
  change timestamptz reached ≤ _
  rw [stamp, latest]
  exact less

/-- Where the first run can be so late, the outage shows how much the tolerance has room for. -/
theorem room_of_guaranteed (stored : monitor ∈ database.urlMonitors)
    (running : monitor.isActive = true ∧ monitor.isPaused = false)
    (interval : monitor.checkIntervalMinutes.toInt = k) (positive : 1 ≤ k) (fits : k * 60 ≤ 2147483647)
    (allowed : ∀ other ∈ database.urlMonitors, ¬ other.timeoutMs < -1)
    (fresh : ∀ row ∈ database.latencyHistories, row.region ≠ region) (whole : 10 ∣ start)
    (early : drift + query ≤ TimeSpan.fromMinutes 1)
    (guaranteed : Guaranteed database region monitor k start drift query) :
    timestamptz (drift + query) ≤ TimeSpan.fromSeconds 5 ∧
      EndWithin (TimeSpan.fromSeconds 5 - timestamptz (drift + query))
        (timeoutsAhead monitor.id database.urlMonitors) := by
  have punctual : (throughOutage database region start drift query).Punctual
      (outageUntil (start + TimeSpan.fromSeconds 10)) monitor start drift query :=
    throughOutage_punctual stored running allowed early
  have beat := guaranteed Unit DateTime (throughOutage database region start drift query) _ rfl rfl punctual
  have first := (beat 0).mpr (Nat.dvd_zero k)
  have again := (beat k).mpr (Nat.dvd_refl k)
  obtain ⟨due, -⟩ := punctual.stamped first
  rw [← throughOutage_timeouts fresh due]
  exact endWithin_of_reached whole (reached_of_beat punctual interval positive fits whole first again)

/-- A monitor with the default interval and timeout. -/
def byDefault (id : Int) : UrlMonitor := { id, ownerId := "alice", createdAt := 10 }

def fourByDefault : Database where
  urlMonitors := [byDefault 1, byDefault 2, { byDefault 3 with isPaused := true }, byDefault 4]
  nextMonitorId := 5
  valid := by decide

end Timetable

end UrlPulse
