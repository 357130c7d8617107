import UrlPulse.Resting

namespace UrlPulse.Web.IndexPage

open UrlPulse.Core UrlPulse.Infrastructure UrlPulse.Web.Index UrlPulse.Web.MonitorTable

/-! # How the dashboard recovers

Whatever it has come to show, its requests can all be answered, no button then stays
disabled, and the next refresh brings the table that the server has.
-/

variable {userId : Option String} {store : Store} {tab : Tab} {request : Request} {response : Response}

/-! ## Requests come to an end -/

theorem inFlight_deliver (orderly : Orderly userId tab) (sent : ⟨request, some response⟩ ∈ tab.inFlight) :
    (tab.deliver request response).inFlight = tab.inFlight.erase ⟨request, some response⟩ := by
  rcases deliver_cases orderly sent with
    ⟨-, -, landed⟩ | ⟨id, wasPaused, rfl, ⟨flag, rfl, settled⟩ | ⟨-, rfl, settled⟩⟩ |
    ⟨rfl, view, model, rfl, -, -, replaced⟩
  · rw [landed]
    rfl
  · rw [settled]
    rfl
  · rw [settled]
    rfl
  · rw [replaced]
    rfl

theorem length_deliver (orderly : Orderly userId tab) (sent : ⟨request, some response⟩ ∈ tab.inFlight) :
    (tab.deliver request response).inFlight.length + 1 = tab.inFlight.length := by
  rw [inFlight_deliver orderly sent, List.length_erase_of_mem sent]
  have some := List.length_pos_of_mem sent
  omega

/-- Whatever is under way, the server and the network can bring to an end. -/
theorem drains (orderly : Orderly userId tab) :
    ∃ waited : List Event, (∀ event ∈ waited, event.remote) ∧ (tab.run userId waited).inFlight = [] := by
  generalize left : tab.inFlight.length = count
  induction count generalizing tab with
  | zero => exact ⟨[], by simp, List.length_eq_zero_iff.mp left⟩
  | succ count ih =>
      -- the first flight is answered, if it is not yet, and comes in
      obtain ⟨flight, rest, inFlight⟩ := List.exists_cons_of_length_eq_add_one left
      obtain ⟨request, answer⟩ := flight
      cases answer with
      | some response =>
          have sent : ⟨request, some response⟩ ∈ tab.inFlight := inFlight ▸ List.mem_cons_self
          have shorter := length_deliver orderly sent
          obtain ⟨waited, remote, quiet⟩ := ih (orderly.step (.deliver request response))
            (Nat.succ_injective (shorter.trans left))
          exact ⟨.deliver request response :: waited, List.forall_mem_cons.mpr ⟨rfl, remote⟩, quiet⟩
      | none =>
          have sent : { request } ∈ tab.inFlight := inFlight ▸ List.mem_cons_self
          let response := (handle userId request.toWeb tab.store).1
          have answered : (tab.process userId request).inFlight =
              ⟨request, some response⟩ :: tab.inFlight.erase { request } := by
            rw [Tab.process, if_pos sent]
          have here : ⟨request, some response⟩ ∈ (tab.process userId request).inFlight :=
            answered ▸ List.mem_cons_self
          have shorter := length_deliver (orderly.process request) here
          have same : (tab.process userId request).inFlight.length = tab.inFlight.length := by
            rw [answered, List.length_cons, List.length_erase_of_mem sent]
            omega
          obtain ⟨waited, remote, quiet⟩ :=
            ih ((orderly.process request).step (.deliver request response))
              (Nat.succ_injective ((shorter.trans same).trans left))
          refine ⟨.process request :: .deliver request response :: waited, ?_, quiet⟩
          exact List.forall_mem_cons.mpr ⟨rfl, List.forall_mem_cons.mpr ⟨rfl, remote⟩⟩

/-! ## A refresh with no change under way -/

/-- The events that the user makes. -/
def Event.click : Event → Bool
  | .pause _ | .delete _ => true
  | .refresh | .process _ | .deliver _ _ => false

/-- Only refreshes are under way, and the table is the server's or about to be replaced by it. -/
structure Refreshed (userId : Option String) (store : Store) (tab : Tab) : Prop where
  unchanged : tab.store = store
  requests : ∀ flight ∈ tab.inFlight, flight.request = .monitorsPartial
  responses : ∀ request response, ⟨request, some response⟩ ∈ tab.inFlight →
    response = .index (.partialView "_MonitorTable" (onGetAsync { currentUserId := userId } store))
  rows : tab.inFlight ≠ [] ∨ tab.rows = rendered (onGetAsync { currentUserId := userId } store)

theorem refreshed_start (quiet : tab.inFlight = []) : Refreshed userId tab.store tab.refreshTable where
  unchanged := rfl
  requests := by simp [Tab.refreshTable, Tab.fetch, quiet]
  responses := by simp [Tab.refreshTable, Tab.fetch, quiet]
  rows := .inl (List.cons_ne_nil _ _)

theorem Refreshed.refresh (refreshed : Refreshed userId store tab) :
    Refreshed userId store tab.refreshTable where
  unchanged := refreshed.unchanged
  requests := List.forall_mem_cons.mpr ⟨rfl, refreshed.requests⟩
  responses := by
    intro request response member
    rcases List.mem_cons.mp member with same | old
    · cases same
    · exact refreshed.responses request response old
  rows := .inl (List.cons_ne_nil _ _)

theorem Refreshed.process (refreshed : Refreshed userId store tab) (request : Request) :
    Refreshed userId store (tab.process userId request) := by
  by_cases sent : { request } ∈ tab.inFlight
  · have partialRequest : request = .monitorsPartial := refreshed.requests _ sent
    subst partialRequest
    rw [Tab.process, if_pos sent, Request.toWeb, handle_monitorsPartial, refreshed.unchanged]
    constructor
    case unchanged => rfl
    case requests =>
      exact List.forall_mem_cons.mpr
        ⟨rfl, fun flight member => refreshed.requests flight (List.mem_of_mem_erase member)⟩
    case responses =>
      intro request response member
      rcases List.mem_cons.mp member with same | old
      · cases same
        rfl
      · exact refreshed.responses request response (List.mem_of_mem_erase old)
    case rows => exact .inl (List.cons_ne_nil _ _)
  · rw [Tab.process, if_neg sent]
    exact refreshed

theorem Refreshed.deliver (refreshed : Refreshed userId store tab) (request : Request)
    (response : Response) : Refreshed userId store (tab.deliver request response) := by
  by_cases sent : ⟨request, some response⟩ ∈ tab.inFlight
  · have partialRequest : request = .monitorsPartial := refreshed.requests _ sent
    subst partialRequest
    rw [Tab.deliver, if_pos sent, refreshed.responses _ _ sent]
    constructor
    case unchanged => exact refreshed.unchanged
    case requests => exact fun flight member => refreshed.requests flight (List.mem_of_mem_erase member)
    case responses =>
      exact fun request response member =>
        refreshed.responses request response (List.mem_of_mem_erase member)
    case rows => exact .inr rfl
  · rw [deliver_absent sent]
    exact refreshed

theorem Refreshed.step {event : Event} (refreshed : Refreshed userId store tab)
    (waits : event.click = false) : Refreshed userId store (tab.step userId event) := by
  cases event with
  | pause id => contradiction
  | delete id => contradiction
  | refresh => exact refreshed.refresh
  | process request => exact refreshed.process request
  | deliver request response => exact refreshed.deliver request response

theorem Refreshed.run {events : List Event} (refreshed : Refreshed userId store tab)
    (waits : ∀ event ∈ events, event.click = false) : Refreshed userId store (tab.run userId events) := by
  induction events generalizing tab with
  | nil => exact refreshed
  | cons next rest ih =>
      obtain ⟨first, later⟩ := List.forall_mem_cons.mp waits
      exact ih (refreshed.step first) later

/-- Whatever clicks, refreshes, requests and responses there have been: no monitor is
shown twice and none of another user; a button is disabled exactly while its own
request is under way, which is one; all requests can come to an end; and with none left,
no button is disabled, and after the next refresh, if nobody clicks, the table is the one
the server has as soon as nothing is under way. -/
theorem dashboard_recovers (userId : Option String) (database : Database) (events : List Event) :
    let tab := (load userId database.toStore).run userId events
    (tab.rows.map (·.id)).Nodup ∧
    (∀ row ∈ tab.rows, Owned userId tab.store row.id ∧
      tab.inFlight.countP (fromButton tab.table row.id) = if row.disabled then 1 else 0) ∧
    (∃ waited : List Event, (∀ event ∈ waited, event.remote) ∧ (tab.run userId waited).inFlight = []) ∧
    (tab.inFlight = [] → (∀ row ∈ tab.rows, row.disabled = false) ∧
      ∀ waited : List Event, (∀ event ∈ waited, event.click = false) →
        (tab.run userId (.refresh :: waited)).inFlight = [] →
          (tab.run userId (.refresh :: waited)).store = tab.store ∧
          (tab.run userId (.refresh :: waited)).rows =
            rendered (onGetAsync { currentUserId := userId } tab.store)) := by
  intro tab
  have orderly : Orderly userId tab := (orderly_load database.valid).run events
  refine ⟨orderly.ids, fun row shown => ⟨orderly.owned row shown, orderly.buttons row shown⟩,
    drains orderly, ?_⟩
  intro quiet
  constructor
  · intro row shown
    have counted := orderly.buttons row shown
    rw [quiet] at counted
    cases disabled : row.disabled with
    | false => rfl
    | true => simp [disabled] at counted
  · intro waited waits settled
    have refreshed : Refreshed userId tab.store (tab.run userId (.refresh :: waited)) :=
      (refreshed_start quiet).run waits
    exact ⟨refreshed.unchanged, refreshed.rows.resolve_left (not_not.mpr settled)⟩

/-- The timer fires again, and its table comes. -/
def nextRefresh : List Event :=
  [.process .monitorsPartial, .deliver .monitorsPartial (.index (.partialView "_MonitorTable"
    (onGetAsync { currentUserId := some "alice" } (oneMonitor.toStore.setPaused 1 true))))]

theorem dashboard_recovers_overtakenRefresh :
    let tab := (load (some "alice") oneMonitor.toStore).run (some "alice") overtakenRefresh
    tab.rows.map (·.isPaused) = [false] ∧
      (tab.run (some "alice") (.refresh :: nextRefresh)).rows =
        rendered (onGetAsync { currentUserId := some "alice" } tab.store) ∧
      (tab.run (some "alice") (.refresh :: nextRefresh)).rows.map (·.isPaused) = [true] :=
  ⟨by decide, ((dashboard_recovers (some "alice") oneMonitor overtakenRefresh).2.2.2 (by decide)).2
    nextRefresh (by decide) (by decide) |>.2, by decide⟩

end UrlPulse.Web.IndexPage
