import UrlPulse.Data.AsyncView
import UrlPulse.Web.AnalyticsPage

namespace UrlPulse.Web.AnalyticsPage

open UrlPulse.Core UrlPulse.Infrastructure UrlPulse.Data UrlPulse.Data.AsyncView
open UrlPulse.Web.Analytics

/-! # What the analytics page comes to rest with

No response is tied to the choice it was requested for, so the page shows the
current choice at rest only where the responses arrive in a fit order.
-/

/-! ## The session alone -/

namespace Session

def selection (session : Session) : Option Selection :=
  session.currentMonitorId.map fun id => ⟨id, session.currentRange⟩

def load (session : Session) (id : Int) (range : String) : Session where
  currentMonitorId := some id
  currentRange := range
  inFlight := session.inFlight ++ panels.map fun panel => (panel, ⟨id, range⟩)

def step (session : Session) : Event → Session
  | .change none => { session with currentMonitorId := none }
  | .change (some id) => session.load id session.currentRange
  | .click range =>
      match session.currentMonitorId with
      | none => session
      | some id => if id = 0 then session else session.load id range
  | .response panel selection =>
      { session with inFlight := session.inFlight.erase (panel, selection) }

def run : Session → List Event → Session
  | session, [] => session
  | session, next :: rest => run (session.step next) rest

/-- What an event is for the panels; a click that does nothing is none. -/
def viewEvent (session : Session) : Event → Option (AsyncView.Event Panel Selection)
  | .change none => some .clear
  | .change (some id) => some (.request ⟨id, session.currentRange⟩ fun panel => panel ≠ .stats)
  | .click range =>
      match session.currentMonitorId with
      | none => none
      | some id => if id = 0 then none else some (.request ⟨id, range⟩ fun _ => false)
  | .response panel selection => some (.deliver panel selection)

/-- A response is for the current choice, or the current choice's own is to follow. -/
def Timely (session : Session) : Event → Prop
  | .response panel selection => (panel, selection) ∈ session.inFlight →
      session.selection = some selection ∨
        ∃ current, session.selection = some current ∧ current ≠ selection ∧
          (panel, current) ∈ session.inFlight
  | _ => True

/-- The event makes the page load or clear. -/
def Chooses (session : Session) : Event → Prop
  | .change _ => True
  | .click _ => ∃ id, session.currentMonitorId = some id ∧ id ≠ 0
  | .response _ _ => False

/-- `timely`, unless a choice follows it, and every response since the last choice is
timely in the session it finds. -/
def TimelySince : Prop → Session → List Event → Prop
  | timely, _, [] => timely
  | timely, session, next :: rest =>
      TimelySince (session.Chooses next ∨ timely ∧ session.Timely next) (session.step next) rest

end Session

theorem toSession_draw (page : Page) (answers : Answers) (selection : Selection) (panel : Panel) :
    (page.draw answers selection panel).toSession = page.toSession := by
  cases panel <;> rfl

theorem toSession_step (page : Page) (answers : Answers) (event : Event) :
    (page.step answers event).toSession = page.toSession.step event := by
  cases event with
  | change id => cases id <;> rfl
  | click range =>
      simp only [Page.step, Page.onClick, Session.step]
      cases page.currentMonitorId with
      | none => rfl
      | some id =>
          by_cases zero : id = 0
          · simp only [if_pos zero]
          · simp only [if_neg zero]
            rfl
  | response panel selection =>
      simp only [Page.step, Page.onResponse, Session.step]
      by_cases inFlight : (panel, selection) ∈ page.inFlight
      · rw [if_pos inFlight, toSession_draw]
      · rw [if_neg inFlight, List.erase_of_not_mem inFlight]

theorem toSession_run (answers : Answers) (page : Page) (events : List Event) :
    (run answers page events).toSession = page.toSession.run events := by
  induction events generalizing page with
  | nil => rfl
  | cons next rest ih =>
      rw [run, ih, toSession_step]
      rfl

/-! ## The session and its view -/

theorem mem_panels (panel : Panel) : panel ∈ panels := by
  cases panel <;> decide

/-- The view follows the session: the same choice, the same requests. -/
structure Follows (session : Session) (view : View Panel Selection) : Prop where
  selected : view.selected = session.selection
  inFlight : view.inFlight = session.inFlight

def Session.viewEvents : Session → List Event → List (AsyncView.Event Panel Selection)
  | _, [] => []
  | session, next :: rest =>
      (session.viewEvent next).toList ++ viewEvents (session.step next) rest

def viewStep (session : Session) (view : View Panel Selection) (event : Event) :
    View Panel Selection :=
  AsyncView.run panels view (session.viewEvent event).toList

def viewRun (session : Session) (view : View Panel Selection) (events : List Event) :
    View Panel Selection :=
  AsyncView.run panels view (session.viewEvents events)

section View

variable {session : Session} {view : View Panel Selection} {event : Event}

theorem viewRun_cons (next : Event) (rest : List Event) :
    viewRun session view (next :: rest) =
      viewRun (session.step next) (viewStep session view next) rest :=
  run_append _ _

theorem Follows.step (follows : Follows session view) (event : Event) :
    Follows (session.step event) (viewStep session view event) := by
  cases event with
  | change id =>
      cases id with
      | none => exact ⟨rfl, follows.inFlight⟩
      | some id => exact ⟨rfl, congrArg (· ++ _) follows.inFlight⟩
  | click range =>
      cases chosen : session.currentMonitorId with
      | none =>
          simp only [Session.step, viewStep, Session.viewEvent, chosen, Option.toList, AsyncView.run]
          exact follows
      | some id =>
          by_cases zero : id = 0
          · simp only [Session.step, viewStep, Session.viewEvent, chosen, if_pos zero, Option.toList,
              AsyncView.run]
            exact follows
          · simp only [Session.step, viewStep, Session.viewEvent, chosen, if_neg zero]
            exact ⟨rfl, congrArg (· ++ _) follows.inFlight⟩
  | response panel selection =>
      simp only [Session.step, viewStep, Session.viewEvent, Option.toList, AsyncView.run,
        AsyncView.step]
      by_cases inFlight : (panel, selection) ∈ view.inFlight
      · rw [if_pos inFlight]
        exact ⟨follows.selected, congrArg (fun l => l.erase (panel, selection)) follows.inFlight⟩
      · rw [if_neg inFlight]
        refine ⟨follows.selected, ?_⟩
        rw [← follows.inFlight, List.erase_of_not_mem inFlight]

theorem Follows.run (follows : Follows session view) (events : List Event) :
    Follows (session.run events) (viewRun session view events) := by
  induction events generalizing session view with
  | nil => exact follows
  | cons next rest ih =>
      rw [viewRun_cons]
      exact ih (follows.step next)

theorem Follows.timelySince_event (follows : Follows session view) (timely : Prop)
    (event : Event) :
    AsyncView.TimelySince panels timely view (session.viewEvent event).toList ↔
      session.Chooses event ∨ timely ∧ session.Timely event := by
  cases event with
  | change id =>
      cases id <;> simp [Session.viewEvent, Session.Chooses, AsyncView.TimelySince,
        AsyncView.Event.isChoice]
  | click range =>
      simp only [Session.viewEvent, Session.Chooses, Session.Timely, and_true]
      cases session.currentMonitorId with
      | none => simp [AsyncView.TimelySince]
      | some id =>
          by_cases zero : id = 0 <;> simp [zero, AsyncView.TimelySince, AsyncView.Event.isChoice]
  | response panel selection =>
      simp only [Session.viewEvent, Session.Chooses, Session.Timely, Option.toList,
        AsyncView.TimelySince, AsyncView.Event.isChoice, AsyncView.Timely, follows.selected,
        follows.inFlight, Bool.false_eq_true]

theorem Follows.timelySince_iff (follows : Follows session view) (timely : Prop)
    (events : List Event) : Session.TimelySince timely session events ↔
      AsyncView.TimelySince panels timely view (session.viewEvents events) := by
  induction events generalizing timely session view with
  | nil => exact Iff.rfl
  | cons next rest ih =>
      rw [Session.viewEvents, timelySince_append, follows.timelySince_event]
      exact ih (follows.step next) _

end View

/-! ## The page and its view -/

variable {answers : Answers} {page : Page} {view : View Panel Selection}

/-- The page shows in each panel the answer to what the view says of it. -/
structure Draws (answers : Answers) (page : Page) (view : View Panel Selection) : Prop where
  stats : page.statsRow = match view.shown .stats with
    | none => .empty
    | some asked => statsRow (answers.stats asked.monitorId asked.range)
  latencyData : page.latencyChart = (view.shown .latencyData).map fun asked =>
    apexSeries (answers.latencyData asked.monitorId asked.range)
  regionSummary : page.regionChart = (view.shown .regionSummary).map fun asked =>
    regionData (answers.regionSummary asked.monitorId asked.range)
  statusDistribution : page.statusChart = (view.shown .statusDistribution).map fun asked =>
    statusChart (answers.statusDistribution asked.monitorId asked.range)

theorem Draws.step (draws : Draws answers page view) (follows : Follows page.toSession view)
    (event : Event) :
    Draws answers (page.step answers event) (viewStep page.toSession view event) := by
  cases event with
  | change id =>
      cases id with
      | none => exact ⟨rfl, rfl, rfl, rfl⟩
      | some id => exact ⟨draws.stats, rfl, rfl, rfl⟩
  | click range =>
      cases chosen : page.currentMonitorId with
      | none =>
          simp only [Page.step, Page.onClick, viewStep, Session.viewEvent, chosen, Option.toList,
            AsyncView.run]
          exact draws
      | some id =>
          by_cases zero : id = 0
          · simp only [Page.step, Page.onClick, viewStep, Session.viewEvent, chosen, if_pos zero,
              Option.toList, AsyncView.run]
            exact draws
          · simp only [Page.step, Page.onClick, viewStep, Session.viewEvent, chosen, if_neg zero]
            exact ⟨draws.stats, draws.latencyData, draws.regionSummary, draws.statusDistribution⟩
  | response panel selection =>
      simp only [Page.step, Page.onResponse, viewStep, Session.viewEvent, Option.toList,
        AsyncView.run, AsyncView.step, follows.inFlight]
      by_cases inFlight : (panel, selection) ∈ page.inFlight
      · simp only [if_pos inFlight]
        cases panel with
        | stats => exact ⟨rfl, draws.latencyData, draws.regionSummary, draws.statusDistribution⟩
        | latencyData => exact ⟨draws.stats, rfl, draws.regionSummary, draws.statusDistribution⟩
        | regionSummary => exact ⟨draws.stats, draws.latencyData, rfl, draws.statusDistribution⟩
        | statusDistribution => exact ⟨draws.stats, draws.latencyData, draws.regionSummary, rfl⟩
      · simp only [if_neg inFlight]
        exact draws

theorem Draws.run (draws : Draws answers page view) (follows : Follows page.toSession view)
    (events : List Event) :
    Draws answers (run answers page events) (viewRun page.toSession view events) := by
  induction events generalizing page view with
  | nil => exact draws
  | cons next rest ih =>
      rw [viewRun_cons, ← toSession_step page answers]
      refine ih (draws.step follows next) ?_
      rw [toSession_step]
      exact follows.step next

/-- The panels show the data of the current choice; without one there is no chart
and the stats row is empty. -/
def ShowsSelection (answers : Answers) (page : Page) : Prop :=
  match page.currentMonitorId with
  | none => page.statsRow = .empty ∧ page.latencyChart = none ∧ page.regionChart = none ∧
      page.statusChart = none
  | some id =>
      page.statsRow = statsRow (answers.stats id page.currentRange) ∧
      page.latencyChart = some (apexSeries (answers.latencyData id page.currentRange)) ∧
      page.regionChart = some (regionData (answers.regionSummary id page.currentRange)) ∧
      page.statusChart = some (statusChart (answers.statusDistribution id page.currentRange))

theorem Draws.showsSelection (draws : Draws answers page view)
    (follows : Follows page.toSession view) (settled : Settled view) :
    ShowsSelection answers page := by
  have selected : ∀ panel, view.shown panel = page.toSession.selection :=
    fun panel => (settled panel).trans follows.selected
  have stats := draws.stats
  have latencyData := draws.latencyData
  have regionSummary := draws.regionSummary
  have statusDistribution := draws.statusDistribution
  simp only [selected, Session.selection] at stats latencyData regionSummary statusDistribution
  unfold ShowsSelection
  cases chosen : page.currentMonitorId with
  | none =>
      simp only [chosen, Option.map_none] at stats latencyData regionSummary statusDistribution
      exact ⟨stats, latencyData, regionSummary, statusDistribution⟩
  | some id =>
      simp only [chosen, Option.map_some] at stats latencyData regionSummary statusDistribution
      exact ⟨stats, latencyData, regionSummary, statusDistribution⟩

/-- No data for one choice, and a single failed check for any other. -/
def telling (choice : Selection) : Answers where
  stats id range := if ⟨id, range⟩ = choice then none else some ⟨1, 0, 0, 0, 0, 0, 1⟩
  latencyData id range :=
    if ⟨id, range⟩ = choice then [] else [⟨"eastus2", [⟨unixEpoch, 0, 1⟩]⟩]
  regionSummary id range := if ⟨id, range⟩ = choice then [] else [⟨"eastus2", 0, 0, 0, 1⟩]
  statusDistribution id range := if ⟨id, range⟩ = choice then [] else [⟨"Timeout", 1⟩]

theorem statsRow_ne_empty (data : Option Stats) : statsRow data ≠ .empty := by
  cases data <;> exact StatsRow.noConfusion

theorem eq_some_of_map {C : Type} {draw : Selection → C} {shown : Option Selection}
    {choice : Selection} (same : shown.map draw = some (draw choice))
    (apart : ∀ asked, asked ≠ choice → draw asked ≠ draw choice) : shown = some choice := by
  cases shown with
  | none => contradiction
  | some asked =>
      by_contra other
      exact apart asked (fun equal => other (congrArg some equal)) (Option.some.inj same)

section Telling

variable {choice asked : Selection}

theorem telling_stats (other : asked ≠ choice) :
    statsRow ((telling choice).stats asked.monitorId asked.range) ≠
      statsRow ((telling choice).stats choice.monitorId choice.range) := by
  simp [telling, other, statsRow]

theorem telling_latencyData (other : asked ≠ choice) :
    apexSeries ((telling choice).latencyData asked.monitorId asked.range) ≠
      apexSeries ((telling choice).latencyData choice.monitorId choice.range) := by
  simp only [telling, if_neg other]
  decide

theorem telling_regionSummary (other : asked ≠ choice) :
    regionData ((telling choice).regionSummary asked.monitorId asked.range) ≠
      regionData ((telling choice).regionSummary choice.monitorId choice.range) := by
  simp only [telling, if_neg other]
  decide

theorem telling_statusDistribution (other : asked ≠ choice) :
    statusChart ((telling choice).statusDistribution asked.monitorId asked.range) ≠
      statusChart ((telling choice).statusDistribution choice.monitorId choice.range) := by
  simp only [telling, if_neg other]
  decide

end Telling

section Shows

variable (follows : Follows page.toSession view) (shows : ShowsSelection answers page)
include follows shows

theorem shows_nothing (chosen : view.selected = none) :
    page.statsRow = .empty ∧ page.latencyChart = none ∧ page.regionChart = none ∧
      page.statusChart = none := by
  have cleared : page.currentMonitorId = none := by
    have selected := follows.selected
    rw [chosen, Session.selection] at selected
    exact Option.map_eq_none_iff.mp selected.symm
  simpa only [ShowsSelection, cleared] using shows

theorem shows_choice {choice : Selection} (chosen : view.selected = some choice) :
    page.statsRow = statsRow (answers.stats choice.monitorId choice.range) ∧
      page.latencyChart = some (apexSeries (answers.latencyData choice.monitorId choice.range)) ∧
      page.regionChart = some (regionData (answers.regionSummary choice.monitorId choice.range)) ∧
      page.statusChart =
        some (statusChart (answers.statusDistribution choice.monitorId choice.range)) := by
  have selected := follows.selected
  rw [chosen, Session.selection] at selected
  obtain ⟨id, current, rfl⟩ := Option.map_eq_some_iff.mp selected.symm
  simpa only [ShowsSelection, current] using shows

end Shows

/-- A page that shows nothing of any selection has settled on none. -/
theorem Draws.shown_eq_none (draws : Draws answers page view)
    (follows : Follows page.toSession view) (shows : ShowsSelection answers page)
    (chosen : view.selected = none) (panel : Panel) : view.shown panel = none := by
  obtain ⟨stats, latency, region, status⟩ := shows_nothing follows shows chosen
  cases panel with
  | stats =>
      have drawn := draws.stats
      cases shown : view.shown .stats with
      | none => rfl
      | some asked =>
          rw [stats, shown] at drawn
          exact absurd drawn.symm (statsRow_ne_empty _)
  | latencyData => exact Option.map_eq_none_iff.mp (draws.latencyData.symm.trans latency)
  | regionSummary => exact Option.map_eq_none_iff.mp (draws.regionSummary.symm.trans region)
  | statusDistribution => exact Option.map_eq_none_iff.mp (draws.statusDistribution.symm.trans status)

theorem Draws.shown_eq_choice {choice : Selection} (draws : Draws (telling choice) page view)
    (follows : Follows page.toSession view) (shows : ShowsSelection (telling choice) page)
    (chosen : view.selected = some choice) (panel : Panel) : view.shown panel = some choice := by
  obtain ⟨stats, latency, region, status⟩ := shows_choice follows shows chosen
  cases panel with
  | stats =>
      have drawn := stats.symm.trans draws.stats
      cases shown : view.shown .stats with
      | none =>
          rw [shown] at drawn
          exact absurd drawn (statsRow_ne_empty _)
      | some asked =>
          rw [shown] at drawn
          by_contra other
          exact telling_stats (fun same => other (congrArg some same)) drawn.symm
  | latencyData =>
      exact eq_some_of_map (draws.latencyData.symm.trans latency) fun _ => telling_latencyData
  | regionSummary =>
      exact eq_some_of_map (draws.regionSummary.symm.trans region) fun _ => telling_regionSummary
  | statusDistribution =>
      exact eq_some_of_map (draws.statusDistribution.symm.trans status)
        fun _ => telling_statusDistribution

/-! ## Every session -/

section Session

variable (events : List Event)

theorem follows_run (answers : Answers) :
    Follows (run answers {} events).toSession (viewRun {} {} events) := by
  rw [toSession_run]
  exact Follows.run ⟨rfl, rfl⟩ events

theorem draws_run (answers : Answers) :
    Draws answers (run answers {} events) (viewRun {} {} events) :=
  Draws.run ⟨rfl, rfl, rfl, rfl⟩ ⟨rfl, rfl⟩ events

theorem settled_iff_shows : Settled (viewRun {} {} events) ↔
    ∀ answers, ShowsSelection answers (run answers {} events) := by
  constructor
  · intro settled answers
    exact (draws_run events answers).showsSelection (follows_run events answers) settled
  · intro shows panel
    cases chosen : (viewRun {} {} events).selected with
    | none =>
        exact (draws_run events (telling ⟨0, ""⟩)).shown_eq_none (follows_run events _) (shows _)
          chosen panel
    | some choice =>
        exact (draws_run events (telling choice)).shown_eq_choice (follows_run events _) (shows _)
          chosen panel

end Session

/-- Two monitors chosen one after the other, the answers for the first coming last. -/
def overtaken : List Event :=
  [.change (some 1), .change (some 2)] ++ panels.map (fun panel => .response panel ⟨2, "24h"⟩) ++
    panels.map fun panel => .response panel ⟨1, "24h"⟩

/-- With no request in flight the page shows the current choice, for whatever the
handlers answer, exactly when each response since the last choice came while it
was for the choice or the choice's own was still to come. -/
theorem settles_iff (events : List Event)
    (quiet : (({} : Session).run events).inFlight = []) :
    (∀ answers, ShowsSelection answers (run answers {} events)) ↔
      Session.TimelySince True {} events := by
  have follows : Follows (({} : Session).run events) (viewRun {} {} events) :=
    Follows.run ⟨rfl, rfl⟩ events
  have initial : Follows {} ({} : View Panel Selection) := ⟨rfl, rfl⟩
  rw [← settled_iff_shows, initial.timelySince_iff]
  refine settled_iff_timelySince mem_panels (fun _ panel => .inl rfl) (fun late => ?_) ?_
  · exact absurd trivial late
  · exact follows.inFlight.trans quiet

theorem settles_iff_overtaken : (({} : Session).run overtaken).inFlight = [] ∧
    ((∀ answers, ShowsSelection answers (run answers {} overtaken)) ↔
      Session.TimelySince True {} overtaken) :=
  ⟨by decide, settles_iff overtaken (by decide)⟩

/-- The page rests with monitor 2 chosen and monitor 1 drawn. -/
theorem not_settles_overtaken : ¬ ∀ (answers : Answers) (events : List Event),
    (({} : Session).run events).inFlight = [] → ShowsSelection answers (run answers {} events) := by
  intro settles
  have shows := settles (telling ⟨2, "24h"⟩) overtaken (by decide)
  have follows := follows_run overtaken (telling ⟨2, "24h"⟩)
  have selected : (viewRun {} {} overtaken).selected = some ⟨2, "24h"⟩ := by decide
  obtain ⟨stats, -⟩ := shows_choice follows shows selected
  exact absurd stats (by decide)

end UrlPulse.Web.AnalyticsPage
