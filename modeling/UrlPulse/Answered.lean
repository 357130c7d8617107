import UrlPulse.Agreement
import UrlPulse.Web.AnalyticsTab
import UrlPulse.Web.Settling

namespace UrlPulse.Web.AnalyticsTab

open UrlPulse.Core UrlPulse.Infrastructure UrlPulse.Web.Analytics UrlPulse.Web.AnalyticsPage
open UrlPulse.Data UrlPulse.Data.Linq UrlPulse.Worker
open UrlPulse.Data.Phased (Step Keeps)

/-! # What the analytics page tells of the server

A panel shows what the server answered to one of its requests, from the tables as they
were when it was processed.  The tables may have changed since, and the panels may tell
of different moments.
-/

variable {Tag World : Type} [DecidableEq Tag] {userId : Option String} {tab start : Tab Tag World}
  {page other : Page} {panel : Panel} {asked : Selection} {response : Response}
  {events : List (Event Tag World)}

theorem run_append (first second : List (Event Tag World)) :
    tab.run userId (first ++ second) = (tab.run userId first).run userId second := by
  induction first generalizing tab with
  | nil => rfl
  | cons next rest ih => exact ih

/-! ## One panel -/

/-- A panel looks the same on both pages. -/
def SamePanel (page other : Page) : Panel → Prop
  | .stats => page.statsRow = other.statsRow
  | .latencyData => page.latencyChart = other.latencyChart
  | .regionSummary => page.regionChart = other.regionChart
  | .statusDistribution => page.statusChart = other.statusChart

theorem SamePanel.rfl {page : Page} {panel : Panel} : SamePanel page page panel := by
  cases panel <;> exact Eq.refl _

theorem SamePanel.trans {third : Page} (first : SamePanel page other panel)
    (second : SamePanel other third panel) : SamePanel page third panel := by
  cases panel with
  | stats => exact Eq.trans first second
  | latencyData => exact Eq.trans first second
  | regionSummary => exact Eq.trans first second
  | statusDistribution => exact Eq.trans first second

theorem samePanel_draw (answers : Answers) (page other : Page) :
    SamePanel (page.draw answers asked panel) (other.draw answers asked panel) panel := by
  cases panel <;> rfl

theorem samePanel_drawResponse (page : Page) (response : Response) {target : Panel}
    (different : panel ≠ target) : SamePanel (drawResponse page target response) page panel := by
  cases target <;> cases response <;> cases panel <;> first | rfl | contradiction

theorem inFlight_drawResponse (page : Page) (panel : Panel) (response : Response) :
    (drawResponse page panel response).inFlight = page.inFlight := by
  cases panel <;> cases response <;> rfl

theorem samePanel_onChange (page : Page) (id : Option Int) (panel : Panel) :
    SamePanel (page.onChange id) {} panel ∨ SamePanel (page.onChange id) page panel := by
  cases id with
  | none => cases panel <;> exact .inl rfl
  | some id =>
      cases panel with
      | stats => exact .inr rfl
      | latencyData => exact .inl rfl
      | regionSummary => exact .inl rfl
      | statusDistribution => exact .inl rfl

theorem samePanel_onClick (page : Page) (range : String) (panel : Panel) :
    SamePanel (page.onClick range) page panel := by
  unfold Page.onClick
  split
  · cases panel <;> rfl
  · split <;> cases panel <;> rfl

/-! ## One request -/

/-- What is drawn from a response is what the handlers answer from the tables of its moment. -/
theorem drawResponse_handle (page : Page) (userId : Option String) (asked : Selection)
    (utcNow : DateTime) (panel : Panel) (store : Store) :
    drawResponse page panel (handle userId (toWeb asked utcNow panel : WebRequest World) store).1 =
      page.draw (answersOf { currentUserId := userId } store utcNow) asked panel := by
  cases panel <;> rfl

theorem process_of_mem {utcNow : DateTime} (sent : (panel, asked) ∈ tab.page.inFlight) :
    tab.process userId panel asked utcNow =
      { server := Phased.step (machine World) tab.server (.call (.web userId (toWeb asked utcNow panel)))
        page := { tab.page with inFlight := tab.page.inFlight.erase (panel, asked) }
        responses :=
          (panel, (handle userId (toWeb asked utcNow panel : WebRequest World) tab.server.store).1) ::
            tab.responses } :=
  if_pos (List.contains_iff_mem.mpr sent)

theorem process_absent {utcNow : DateTime} (absent : (panel, asked) ∉ tab.page.inFlight) :
    tab.process userId panel asked utcNow = tab :=
  if_neg (mt List.contains_iff_mem.mp absent)

omit [DecidableEq Tag] in
theorem deliver_of_mem (sent : (panel, response) ∈ tab.responses) :
    tab.deliver panel response =
      { tab with
        page := drawResponse tab.page panel response
        responses := tab.responses.erase (panel, response) } :=
  if_pos sent

omit [DecidableEq Tag] in
theorem deliver_absent (absent : (panel, response) ∉ tab.responses) :
    tab.deliver panel response = tab :=
  if_neg absent

/-- The server gave the response to a request of the panel, at some moment of the events. -/
def Given (userId : Option String) (start : Tab Tag World) (events : List (Event Tag World))
    (panel : Panel) (asked : Selection) (response : Response) : Prop :=
  ∃ moment utcNow later, events = moment ++ .process panel asked utcNow :: later ∧
    (panel, asked) ∈ (start.run userId moment).page.inFlight ∧
    response = (handle userId (toWeb asked utcNow panel : WebRequest World)
      (start.run userId moment).server.store).1

/-- The page shows in a panel what the server had for a request, at some moment of the events. -/
def Told (userId : Option String) (start : Tab Tag World) (events : List (Event Tag World))
    (panel : Panel) (asked : Selection) (page : Page) : Prop :=
  ∃ moment utcNow later, events = moment ++ .process panel asked utcNow :: later ∧
    (panel, asked) ∈ (start.run userId moment).page.inFlight ∧
    SamePanel page (({} : Page).draw (answersOf { currentUserId := userId }
      (start.run userId moment).server.store utcNow) asked panel) panel

theorem Given.later (given : Given userId start events panel asked response)
    (more : List (Event Tag World)) : Given userId start (events ++ more) panel asked response := by
  obtain ⟨moment, utcNow, later, split, sent, same⟩ := given
  exact ⟨moment, utcNow, later ++ more, by rw [split, List.append_assoc, List.cons_append], sent, same⟩

theorem Told.later (told : Told userId start events panel asked page) (more : List (Event Tag World)) :
    Told userId start (events ++ more) panel asked page := by
  obtain ⟨moment, utcNow, later, split, sent, same⟩ := told
  exact ⟨moment, utcNow, later ++ more, by rw [split, List.append_assoc, List.cons_append], sent, same⟩

theorem Told.congr (told : Told userId start events panel asked page)
    (same : SamePanel other page panel) : Told userId start events panel asked other := by
  obtain ⟨moment, utcNow, later, split, sent, shown⟩ := told
  exact ⟨moment, utcNow, later, split, sent, same.trans shown⟩

theorem Given.told (given : Given userId start events panel asked response) (page : Page) :
    Told userId start events panel asked (drawResponse page panel response) := by
  obtain ⟨moment, utcNow, later, split, sent, rfl⟩ := given
  refine ⟨moment, utcNow, later, split, sent, ?_⟩
  rw [drawResponse_handle]
  exact samePanel_draw _ page {}

theorem given_process {utcNow : DateTime} (sent : (panel, asked) ∈ (start.run userId events).page.inFlight) :
    Given userId start (events ++ [.process panel asked utcNow]) panel asked
      (handle userId (toWeb asked utcNow panel : WebRequest World)
        (start.run userId events).server.store).1 :=
  ⟨events, utcNow, [], rfl, sent, rfl⟩

/-! ## Whole sessions -/

/-- All responses are given ones, and every panel is blank or told. -/
structure Honest (userId : Option String) (start : Tab Tag World) (events : List (Event Tag World))
    (tab : Tab Tag World) : Prop where
  responses : ∀ flight ∈ tab.responses, ∃ asked, Given userId start events flight.1 asked flight.2
  panels : ∀ panel, SamePanel tab.page {} panel ∨ ∃ asked, Told userId start events panel asked tab.page

theorem Honest.redrawn (honest : Honest userId start events tab) (more : List (Event Tag World))
    {after : Tab Tag World} (responses : ∀ flight ∈ after.responses,
      flight ∈ tab.responses ∨ ∃ asked, Given userId start (events ++ more) flight.1 asked flight.2)
    (panels : ∀ panel, SamePanel after.page {} panel ∨ SamePanel after.page tab.page panel ∨
      ∃ asked, Told userId start (events ++ more) panel asked after.page) :
    Honest userId start (events ++ more) after where
  responses := by
    intro flight member
    rcases responses flight member with old | new
    · obtain ⟨asked, given⟩ := honest.responses flight old
      exact ⟨asked, given.later more⟩
    · exact new
  panels := by
    intro panel
    rcases panels panel with blank | same | told
    · exact .inl blank
    · rcases honest.panels panel with blank | ⟨asked, told⟩
      · exact .inl (same.trans blank)
      · exact .inr ⟨asked, (told.later more).congr same⟩
    · exact .inr told

theorem Honest.step (honest : Honest userId start events (start.run userId events))
    (next : Event Tag World) :
    Honest userId start (events ++ [next]) ((start.run userId events).step userId next) := by
  cases next with
  | change id =>
      refine honest.redrawn _ (fun flight member => .inl member) fun panel => ?_
      rcases samePanel_onChange (start.run userId events).page id panel with blank | same
      · exact .inl blank
      · exact .inr (.inl same)
  | click range =>
      exact honest.redrawn _ (fun flight member => .inl member) fun panel =>
        .inr (.inl (samePanel_onClick _ range panel))
  | server next =>
      exact honest.redrawn _ (fun flight member => .inl member) fun panel => .inr (.inl .rfl)
  | process panel asked utcNow =>
      by_cases sent : (panel, asked) ∈ (start.run userId events).page.inFlight
      · rw [Tab.step, process_of_mem sent]
        refine honest.redrawn _ (fun flight member => ?_) fun other => .inr (.inl ?_)
        · rcases List.mem_cons.mp member with rfl | old
          · exact .inr ⟨asked, given_process sent⟩
          · exact .inl old
        · cases other <;> rfl
      · rw [Tab.step, process_absent sent]
        exact honest.redrawn _ (fun flight member => .inl member) fun other => .inr (.inl .rfl)
  | deliver panel response =>
      by_cases sent : (panel, response) ∈ (start.run userId events).responses
      · rw [Tab.step, deliver_of_mem sent]
        refine honest.redrawn _ (fun flight member => .inl (List.mem_of_mem_erase member)) fun other => ?_
        by_cases same : other = panel
        · obtain ⟨asked, given⟩ := honest.responses _ sent
          subst same
          exact .inr (.inr ⟨asked, (given.later _).told _⟩)
        · exact .inr (.inl (samePanel_drawResponse _ response same))
      · rw [Tab.step, deliver_absent sent]
        exact honest.redrawn _ (fun flight member => .inl member) fun other => .inr (.inl .rfl)

theorem honest_run (userId : Option String) (server : System Tag World) (events : List (Event Tag World)) :
    Honest userId { server } events (({ server } : Tab Tag World).run userId events) := by
  induction events using List.reverseRecOn with
  | nil => exact ⟨fun _ member => by contradiction, fun _ => .inl .rfl⟩
  | append_singleton events next ih =>
      rw [run_append]
      exact ih.step next

/-- Whatever the user chooses, however the responses overtake each other and whatever goes on at
the server meanwhile: a panel is blank, or shows what the tables had for a monitor and a range
at the moment that the server processed a request of this panel for them. -/
theorem shown_was_answered (userId : Option String) (database : Database) (events : List (Event Tag World))
    (panel : Panel) :
    let start : Tab Tag World := { server := { store := database.toStore } }
    SamePanel (start.run userId events).page {} panel ∨ ∃ asked moment utcNow later,
      events = moment ++ .process panel asked utcNow :: later ∧
      (panel, asked) ∈ (start.run userId moment).page.inFlight ∧
      SamePanel (start.run userId events).page (({} : Page).draw (answersOf { currentUserId := userId }
        (start.run userId moment).server.store utcNow) asked panel) panel :=
  (honest_run userId { store := database.toStore } events).panels panel

/-! ## After a choice -/

def Event.choice : Event Tag World → Bool
  | .change _ | .click _ => true
  | .server _ | .process _ _ _ | .deliver _ _ => false

/-- What the event makes every panel ask for. -/
def Event.asks (page : Page) : Event Tag World → Option Selection
  | .change (some id) => some ⟨id, page.currentRange⟩
  | .click range =>
      match page.currentMonitorId with
      | none => none
      | some id => if id = 0 then none else some ⟨id, range⟩
  | _ => none

theorem step_of_asks {next : Event Tag World} (asks : next.asks tab.page = some asked) :
    (tab.step userId next).page.inFlight =
        tab.page.inFlight ++ panels.map (fun panel => (panel, asked)) ∧
      (tab.step userId next).responses = tab.responses ∧ (tab.step userId next).server = tab.server := by
  cases next with
  | change id =>
      cases id with
      | none => contradiction
      | some id =>
          cases asks
          exact ⟨rfl, rfl, rfl⟩
  | click range =>
      simp only [Event.asks] at asks
      cases chosen : tab.page.currentMonitorId with
      | none => simp [chosen] at asks
      | some id =>
          by_cases zero : id = 0
          · simp [chosen, zero] at asks
          · simp only [chosen, if_neg zero, Option.some.injEq] at asks
            subst asks
            have loaded : tab.page.onClick range = { tab.page with currentRange := range }.loadAll id := by
              simp only [Page.onClick, chosen, if_neg zero]
            refine ⟨?_, rfl, rfl⟩
            rw [Tab.step, loaded]
            rfl
  | server next => contradiction
  | process panel asked utcNow => contradiction
  | deliver panel response => contradiction

/-- All that is under way is for the choice, and each panel waits for it or has been told. -/
structure Answering (userId : Option String) (start : Tab Tag World) (events : List (Event Tag World))
    (asked : Selection) (tab : Tab Tag World) : Prop where
  requests : ∀ flight ∈ tab.page.inFlight, flight.2 = asked
  responses : ∀ flight ∈ tab.responses, Given userId start events flight.1 asked flight.2
  panels : ∀ panel, (panel, asked) ∈ tab.page.inFlight ∨ (∃ response, (panel, response) ∈ tab.responses) ∨
    Told userId start events panel asked tab.page

theorem Answering.step {next : Event Tag World} (waits : next.choice = false)
    (answering : Answering userId start events asked (start.run userId events)) :
    Answering userId start (events ++ [next]) asked ((start.run userId events).step userId next) := by
  have unchanged : Answering userId start (events ++ [next]) asked (start.run userId events) :=
    ⟨answering.requests, fun flight member => (answering.responses flight member).later _, fun panel =>
      (answering.panels panel).imp_right fun open_ => open_.imp_right fun told => told.later _⟩
  cases next with
  | change id => contradiction
  | click range => contradiction
  | server next => exact ⟨unchanged.requests, unchanged.responses, unchanged.panels⟩
  | process panel request utcNow =>
      by_cases sent : (panel, request) ∈ (start.run userId events).page.inFlight
      · have same : request = asked := answering.requests _ sent
        subst same
        rw [Tab.step, process_of_mem sent]
        refine ⟨fun flight member => unchanged.requests flight (List.mem_of_mem_erase member), ?_, ?_⟩
        · intro flight member
          rcases List.mem_cons.mp member with rfl | old
          · exact given_process sent
          · exact unchanged.responses flight old
        · intro other
          rcases unchanged.panels other with awaits | ⟨response, arrives⟩ | told
          · by_cases here : other = panel
            · subst here
              exact .inr (.inl ⟨_, List.mem_cons_self⟩)
            · refine .inl ((List.mem_erase_of_ne ?_).mpr awaits)
              exact fun equal => here (congrArg Prod.fst equal)
          · exact .inr (.inl ⟨response, List.mem_cons_of_mem _ arrives⟩)
          · exact .inr (.inr (told.congr (by cases other <;> rfl)))
      · rw [Tab.step, process_absent sent]
        exact unchanged
  | deliver panel response =>
      by_cases sent : (panel, response) ∈ (start.run userId events).responses
      · rw [Tab.step, deliver_of_mem sent]
        refine ⟨?_, fun flight member => unchanged.responses flight (List.mem_of_mem_erase member), ?_⟩
        · rw [inFlight_drawResponse]
          exact unchanged.requests
        · intro other
          by_cases here : other = panel
          · subst here
            exact .inr (.inr ((unchanged.responses _ sent).told _))
          · rcases unchanged.panels other with awaits | ⟨response, arrives⟩ | told
            · rw [inFlight_drawResponse]
              exact .inl awaits
            · refine .inr (.inl ⟨response, (List.mem_erase_of_ne ?_).mpr arrives⟩)
              exact fun equal => here (congrArg Prod.fst equal)
            · exact .inr (.inr (told.congr (samePanel_drawResponse _ _ here)))
      · rw [Tab.step, deliver_absent sent]
        exact unchanged

theorem Answering.run (answering : Answering userId start [] asked start)
    (waits : ∀ event ∈ events, event.choice = false) :
    Answering userId start events asked (start.run userId events) := by
  induction events using List.reverseRecOn with
  | nil => exact answering
  | append_singleton events next ih =>
      rw [List.forall_mem_append, List.forall_mem_singleton] at waits
      rw [run_append]
      exact (ih waits.1).step waits.2

theorem server_step (userId : Option String) (tab : Tab Tag World) (next : Event Tag World) :
    ∃ steps, (tab.step userId next).server = Phased.run (machine World) tab.server steps := by
  cases next with
  | change id => exact ⟨[], rfl⟩
  | click range => exact ⟨[], rfl⟩
  | server next => exact ⟨[next], rfl⟩
  | process panel asked utcNow =>
      by_cases sent : (panel, asked) ∈ tab.page.inFlight
      · rw [Tab.step, process_of_mem sent]
        exact ⟨[.call (.web userId (toWeb asked utcNow panel))], rfl⟩
      · rw [Tab.step, process_absent sent]
        exact ⟨[], rfl⟩
  | deliver panel response =>
      by_cases sent : (panel, response) ∈ tab.responses
      · rw [Tab.step, deliver_of_mem sent]
        exact ⟨[], rfl⟩
      · rw [Tab.step, deliver_absent sent]
        exact ⟨[], rfl⟩

/-- At the server, a session is a part of its schedule. -/
theorem server_run (userId : Option String) (tab : Tab Tag World) (events : List (Event Tag World)) :
    ∃ steps, (tab.run userId events).server = Phased.run (machine World) tab.server steps := by
  induction events generalizing tab with
  | nil => exact ⟨[], rfl⟩
  | cons next rest ih =>
      obtain ⟨steps, reached⟩ := server_step userId tab next
      obtain ⟨later, ended⟩ := ih (tab.step userId next)
      exact ⟨steps ++ later, by rw [Phased.run_append, ← reached]; exact ended⟩

/-- A choice with nothing under way, once all is answered and if no other choice comes: each panel
shows what the tables had for it at a moment since, and that has every check that was stored
when the user chose and that the window reaches back to. -/
theorem choice_shown (userId : Option String) (database : Database) (before waited : List (Event Tag World))
    (choice : Event Tag World) (asked : Selection) :
    let start : Tab Tag World := { server := { store := database.toStore } }
    let chosen := start.run userId before
    let late := (chosen.step userId choice).run userId waited
    chosen.Quiet → choice.asks chosen.page = some asked → (∀ event ∈ waited, event.choice = false) →
    late.Quiet → ∀ panel, ∃ since utcNow more, waited = since ++ .process panel asked utcNow :: more ∧
      let store := ((chosen.step userId choice).run userId since).server.store
      SamePanel late.page
        (({} : Page).draw (answersOf { currentUserId := userId } store utcNow) asked panel) panel ∧
      ∀ check ∈ chosen.server.store.historyOf asked.monitorId,
        (∃ option ∈ onGetAsync { currentUserId := userId } store, option.id = asked.monitorId) →
        parseRange utcNow asked.range ≤ check.checkedAt →
        Charted { currentUserId := userId } store utcNow asked.monitorId asked.range check := by
  intro start chosen late calm asks waits rests panel
  obtain ⟨requests, responses, server⟩ := step_of_asks asks
  rw [calm.1, List.nil_append] at requests
  rw [calm.2] at responses
  have answering : Answering userId (chosen.step userId choice) [] asked (chosen.step userId choice) := by
    refine ⟨?_, ?_, fun panel => .inl ?_⟩
    · rw [requests]
      exact List.forall_mem_map.mpr fun _ _ => rfl
    · rw [responses]
      exact fun _ member => by contradiction
    · rw [requests]
      exact List.mem_map_of_mem (mem_panels panel)
  have answered := (answering.run waits).panels panel
  rw [rests.1, rests.2] at answered
  obtain ⟨since, utcNow, more, split, -, shown⟩ : Told userId (chosen.step userId choice) waited panel asked
      late.page := by simpa using answered
  refine ⟨since, utcNow, more, split, shown, ?_⟩
  intro check member visible inside
  obtain ⟨option, listed, same⟩ := visible
  obtain ⟨other, ordered, rfl⟩ := List.mem_map.mp listed
  obtain ⟨steps, reached⟩ := server_run userId start before
  obtain ⟨later, grown⟩ := server_run userId (chosen.step userId choice) since
  have keeps : Keeps Store.Valid FromLoad chosen.server := by
    rw [reached]
    exact keeps_fromLoad database steps
  rw [server] at grown
  have seen := mem_orderByDescending.mp ordered
  rw [grown] at seen ⊢
  exact charted_later keeps later member seen same inside

def noChecksYet : Database where
  urlMonitors := [{ id := 1, ownerId := "alice", createdAt := 500 }]
  nextMonitorId := 2
  valid := by decide

def failedRun : TimerRun Unit where
  regionName := some "eastus2"
  now := 1000
  checker := fun _ _ world =>
    .ok ({ isUp := false, latencyMs := none, statusCode := 503, checkedAt := 1000 }, world)
  world := ()

def lastDay : Selection := ⟨1, "24h"⟩

/-- A run saves a failed check between the first and the second answer. -/
def answeredApart : List (Event Unit Unit) :=
  let answer := fun panel store =>
    (handle (some "alice") (toWeb lastDay 2000 panel : WebRequest Unit) store).1
  let checked := (Phased.step (machine Unit) ({ store := noChecksYet.toStore } : System Unit Unit)
    (.call (.worker failedRun))).store
  [.process .stats lastDay 2000, .server (.call (.worker failedRun)),
    .process .latencyData lastDay 2000, .process .regionSummary lastDay 2000,
    .process .statusDistribution lastDay 2000, .deliver .latencyData (answer .latencyData checked),
    .deliver .regionSummary (answer .regionSummary checked),
    .deliver .statusDistribution (answer .statusDistribution checked),
    .deliver .stats (answer .stats noChecksYet.toStore)]

/-- The cards have no data, and next to them a chart counts the check. -/
theorem choice_shown_answeredApart :
    let chosen : Tab Unit Unit := { server := { store := noChecksYet.toStore } }
    let late := (chosen.step (some "alice") (.change (some 1))).run (some "alice") answeredApart
    late.page.statsRow = .noData ∧ late.page.statusChart.map (·.labels) = some ["5xx"] ∧
    ∀ panel, ∃ since utcNow more, answeredApart = since ++ .process panel lastDay utcNow :: more ∧
      SamePanel late.page (({} : Page).draw (answersOf { currentUserId := some "alice" }
        ((chosen.step (some "alice") (.change (some 1))).run (some "alice") since).server.store utcNow)
          lastDay panel) panel := by
  refine ⟨by decide +kernel, by decide +kernel, fun panel => ?_⟩
  obtain ⟨since, utcNow, more, split, shown, -⟩ := choice_shown (some "alice") noChecksYet [] answeredApart
    (.change (some 1)) lastDay ⟨rfl, rfl⟩ rfl (by decide) ⟨by decide +kernel, by decide +kernel⟩ panel
  exact ⟨since, utcNow, more, split, shown⟩

end UrlPulse.Web.AnalyticsTab
