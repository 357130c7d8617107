import UrlPulse.Data.Eventual
import UrlPulse.Web.IndexPage

namespace UrlPulse.Web.IndexPage

open UrlPulse.Core UrlPulse.Infrastructure UrlPulse.Web.Index UrlPulse.Web.MonitorTable
open UrlPulse.Data.Eventual

/-! # The script and the server

What a request of the dashboard changes, what its response can say, and what the
script keeps in order however requests and responses interleave.
-/

variable {userId : Option String} {store : Store} {id : Int}

/-! ## The server -/

/-- The pause flags of the monitors the user sees. -/
def stored (userId : Option String) (store : Store) : Table Int :=
  fun id => (ApplicationDbContext.findMonitor { currentUserId := userId } store id).map (·.isPaused)

def Request.change? : Request → Option (Change Int)
  | .setPause _ id _ => some (.toggle id)
  | .delete id => some (.remove id)
  | .monitorsPartial => none

theorem handle_setPause {monitor : UrlMonitor}
    (found : ApplicationDbContext.findMonitor { currentUserId := userId } store id = some monitor) :
    handle userId (.setPause id : WebRequest Unit) store =
      (.index (.isPaused !monitor.isPaused), store.setPaused id !monitor.isPaused) := by
  have present : id ∈ store.monitorIds := ApplicationDbContext.mem_monitorIds_of_found found
  rw [handle, load_setPause_found Unit found, Pending.save_modifiedIsPaused, if_pos present]

theorem handle_setPause_missing
    (missing : ApplicationDbContext.findMonitor { currentUserId := userId } store id = none) :
    handle userId (.setPause id : WebRequest Unit) store = (.index .notFound, store) := by
  rw [handle, load_setPause_missing Unit missing, Pending.save_of_no_statements rfl]

theorem handle_delete {monitor : UrlMonitor}
    (found : ApplicationDbContext.findMonitor { currentUserId := userId } store id = some monitor) :
    handle userId (.delete id : WebRequest Unit) store = (.index .ok, store.without id) := by
  have present : id ∈ store.monitorIds := ApplicationDbContext.mem_monitorIds_of_found found
  rw [handle, load_delete_found Unit found, Pending.save_deletedMonitor, if_pos present]

theorem handle_delete_missing
    (missing : ApplicationDbContext.findMonitor { currentUserId := userId } store id = none) :
    handle userId (.delete id : WebRequest Unit) store = (.index .ok, store) := by
  rw [handle, load_delete_missing Unit missing, Pending.save_of_no_statements rfl]

theorem handle_monitorsPartial (userId : Option String) (store : Store) :
    handle userId (.monitorsPartial : WebRequest Unit) store =
      (.index (.partialView "_MonitorTable" (onGetAsync { currentUserId := userId } store)), store) :=
  Pending.save_of_no_statements rfl

theorem stored_setPaused {monitor : UrlMonitor}
    (found : ApplicationDbContext.findMonitor { currentUserId := userId } store id = some monitor) :
    stored userId (store.setPaused id !monitor.isPaused) =
      (Change.toggle id).apply (stored userId store) := by
  funext other
  simp only [stored, ApplicationDbContext.findMonitor_setPaused, Option.map_map]
  by_cases same : id = other
  · subst same
    have key := (ApplicationDbContext.findMonitor_some found).2.2
    simp [stored, found, key]
  · have apart : (Change.toggle id).key ≠ other := same
    rw [Change.apply_of_ne apart, stored]
    cases seen : ApplicationDbContext.findMonitor { currentUserId := userId } store other with
    | none => rfl
    | some monitor =>
        have key := (ApplicationDbContext.findMonitor_some seen).2.2
        have different : monitor.id ≠ id := fun equal => same (equal.symm.trans key)
        simp [different]

theorem stored_without (userId : Option String) (store : Store) (id : Int) :
    stored userId (store.without id) = (Change.remove id).apply (stored userId store) := by
  funext other
  by_cases same : id = other
  · subst same
    rw [stored, ApplicationDbContext.findMonitor_without, Change.remove_apply]
    rfl
  · have apart : (Change.remove id).key ≠ other := same
    rw [Change.apply_of_ne apart, stored,
      ApplicationDbContext.findMonitor_without_of_ne _ store (Ne.symm same), stored]

/-- The server makes the change a request asks for. -/
theorem stored_handle (userId : Option String) (store : Store) (request : Request) :
    stored userId (handle userId request.toWeb store).2 =
      eventual request.change?.toList (stored userId store) := by
  cases request with
  | setPause table id wasPaused =>
      cases found : ApplicationDbContext.findMonitor { currentUserId := userId } store id with
      | none =>
          have absent : stored userId store (Change.toggle id).key = none := by
            rw [Change.key, stored, found, Option.map_none]
          rw [Request.toWeb, handle_setPause_missing found]
          exact (Change.apply_absent absent).symm
      | some monitor =>
          rw [Request.toWeb, handle_setPause found]
          exact stored_setPaused found
  | delete id =>
      cases found : ApplicationDbContext.findMonitor { currentUserId := userId } store id with
      | none =>
          have absent : stored userId store (Change.remove id).key = none := by
            rw [Change.key, stored, found, Option.map_none]
          rw [Request.toWeb, handle_delete_missing found]
          exact (Change.apply_absent absent).symm
      | some monitor =>
          rw [Request.toWeb, handle_delete found]
          exact stored_without userId store id
  | monitorsPartial =>
      rw [Request.toWeb, handle_monitorsPartial]
      rfl

/-- No other user has the monitor of this id. -/
def Owned (userId : Option String) (store : Store) (id : Int) : Prop :=
  ∀ monitor ∈ store.urlMonitors, monitor.id = id →
    ApplicationDbContext.queryFilter { currentUserId := userId } monitor

theorem handle_store (userId : Option String) (store : Store) (request : Request) :
    (handle userId request.toWeb store).2 = store ∨
      (∃ id flag, (handle userId request.toWeb store).2 = store.setPaused id flag) ∨
      ∃ id, (handle userId request.toWeb store).2 = store.without id := by
  cases request with
  | setPause table id wasPaused =>
      cases found : ApplicationDbContext.findMonitor { currentUserId := userId } store id with
      | none =>
          rw [Request.toWeb, handle_setPause_missing found]
          exact .inl rfl
      | some monitor =>
          rw [Request.toWeb, handle_setPause found]
          exact .inr (.inl ⟨_, _, rfl⟩)
  | delete id =>
      cases found : ApplicationDbContext.findMonitor { currentUserId := userId } store id with
      | none =>
          rw [Request.toWeb, handle_delete_missing found]
          exact .inl rfl
      | some monitor =>
          rw [Request.toWeb, handle_delete found]
          exact .inr (.inr ⟨_, rfl⟩)
  | monitorsPartial => exact .inl rfl

theorem Owned.later (owned : Owned userId store id) (request : Request) :
    Owned userId (handle userId request.toWeb store).2 id := by
  intro monitor inTable key
  rcases handle_store userId store request with same | ⟨target, flag, set⟩ | ⟨target, removed⟩
  · rw [same] at inTable
    exact owned monitor inTable key
  · rw [set] at inTable
    obtain ⟨original, inside, value, rfl⟩ := Store.mem_setPaused inTable
    exact owned original inside key
  · rw [removed] at inTable
    exact owned monitor (List.mem_of_mem_filter inTable) key

/-- What the response to a request can be. -/
def Answers (userId : Option String) (store : Store) : Request → Response → Prop
  | .setPause _ id _, response =>
      (∃ flag, response = .index (.isPaused flag)) ∨
        response = .index .notFound ∧ stored userId store id = none
  | .delete _, response => response = .index .ok
  | .monitorsPartial, response =>
      ∃ model, response = .index (.partialView "_MonitorTable" model) ∧
        (model.map (·.id)).Nodup ∧ ∀ listing ∈ model, Owned userId store listing.id

theorem nodup_listed (valid : store.Valid) :
    ((onGetAsync { currentUserId := userId } store).map (·.id)).Nodup := by
  rw [onGetAsync, List.map_map]
  have ordered := (Data.Linq.orderByDescending_perm (·.createdAt)
    (ApplicationDbContext.urlMonitors { currentUserId := userId } store)).map (·.id)
  exact (ordered.nodup_iff).mpr (valid.monitorKeys.sublist (List.Sublist.map _ List.filter_sublist))

theorem owned_listed (valid : store.Valid) {listing : MonitorListing}
    (listed : listing ∈ onGetAsync { currentUserId := userId } store) :
    Owned userId store listing.id := by
  obtain ⟨monitor, ordered, rfl⟩ := List.mem_map.mp listed
  obtain ⟨inTable, visible⟩ := List.mem_filter.mp (Data.Linq.mem_orderByDescending.mp ordered)
  intro other inside same
  have equal : other = monitor := valid.monitor_unique inside inTable same
  exact equal ▸ visible

theorem answers_handle (valid : store.Valid) (request : Request) :
    Answers userId (handle userId request.toWeb store).2 request
      (handle userId request.toWeb store).1 := by
  cases request with
  | setPause table id wasPaused =>
      cases found : ApplicationDbContext.findMonitor { currentUserId := userId } store id with
      | none =>
          rw [Request.toWeb, handle_setPause_missing found]
          exact .inr ⟨rfl, by rw [stored, found, Option.map_none]⟩
      | some monitor =>
          rw [Request.toWeb, handle_setPause found]
          exact .inl ⟨_, rfl⟩
  | delete id =>
      cases found : ApplicationDbContext.findMonitor { currentUserId := userId } store id with
      | none => rw [Request.toWeb, handle_delete_missing found, Answers]
      | some monitor => rw [Request.toWeb, handle_delete found, Answers]
  | monitorsPartial =>
      rw [Request.toWeb, handle_monitorsPartial]
      exact ⟨_, rfl, nodup_listed valid, fun listing listed => owned_listed valid listed⟩

/-- Later requests leave a true answer true. -/
theorem Answers.later {request : Request} {response : Response}
    (answers : Answers userId store request response) (other : Request) :
    Answers userId (handle userId other.toWeb store).2 request response := by
  cases request with
  | setPause table id wasPaused =>
      rcases answers with flagged | ⟨missing, absent⟩
      · exact .inl flagged
      · refine .inr ⟨missing, ?_⟩
        rw [stored_handle]
        exact eventual_none absent
  | delete id => exact answers
  | monitorsPartial =>
      obtain ⟨model, same, nodup, owned⟩ := answers
      exact ⟨model, same, nodup, fun listing listed => (owned listing listed).later other⟩

/-! ## What the script keeps in order -/

/-- The request came from the button of this monitor in this table. -/
def fromButton (table : Nat) (id : Int) (flight : Flight) : Bool :=
  match flight.request with
  | .setPause other target _ => other = table && target = id
  | _ => false

/-- One row for each monitor, of monitors of this user; a button disabled exactly while
its own request is under way; and answers the server can have given. -/
structure Orderly (userId : Option String) (tab : Tab) : Prop where
  valid : tab.store.Valid
  ids : (tab.rows.map (·.id)).Nodup
  owned : ∀ row ∈ tab.rows, Owned userId tab.store row.id
  tables : ∀ table id wasPaused response,
    ⟨.setPause table id wasPaused, response⟩ ∈ tab.inFlight → table ≤ tab.table
  buttons : ∀ row ∈ tab.rows,
    tab.inFlight.countP (fromButton tab.table row.id) = if row.disabled then 1 else 0
  answers : ∀ request response, ⟨request, some response⟩ ∈ tab.inFlight →
    Answers userId tab.store request response

section Orderly

variable {tab : Tab} {request : Request} {response : Response}

theorem Orderly.filter (orderly : Orderly userId tab) (keep : Row → Bool) :
    Orderly userId { tab with rows := tab.rows.filter keep } where
  valid := orderly.valid
  ids := orderly.ids.sublist (List.Sublist.map _ List.filter_sublist)
  owned := fun row member => orderly.owned row (List.mem_of_mem_filter member)
  tables := orderly.tables
  buttons := fun row member => orderly.buttons row (List.mem_of_mem_filter member)
  answers := orderly.answers

theorem Orderly.fetch (orderly : Orderly userId tab)
    (other : ∀ table id wasPaused, request ≠ .setPause table id wasPaused) :
    Orderly userId (tab.fetch request) where
  valid := orderly.valid
  ids := orderly.ids
  owned := orderly.owned
  tables := by
    intro table id wasPaused response member
    rcases List.mem_cons.mp member with same | old
    · cases same
      exact absurd rfl (other table id wasPaused)
    · exact orderly.tables table id wasPaused response old
  buttons := by
    intro row member
    have unrelated : fromButton tab.table row.id { request } = false := by
      cases request with
      | setPause table id wasPaused => exact absurd rfl (other table id wasPaused)
      | delete id => rfl
      | monitorsPartial => rfl
    rw [Tab.fetch, List.countP_cons_of_neg (by simp [unrelated])]
    exact orderly.buttons row member
  answers := by
    intro request response member
    rcases List.mem_cons.mp member with same | old
    · cases same
    · exact orderly.answers request response old

theorem mem_setButton {change : Row → Row} {row : Row} :
    row ∈ (tab.setButton id change).rows ↔
      ∃ old ∈ tab.rows, (if old.id = id then change old else old) = row :=
  List.mem_map

theorem ids_setButton {change : Row → Row} (same : ∀ row, (change row).id = row.id) :
    (tab.setButton id change).rows.map (·.id) = tab.rows.map (·.id) := by
  simp only [Tab.setButton, List.map_map]
  refine List.map_congr_left ?_
  intro row _
  by_cases chosen : row.id = id <;> simp [chosen, same]

/-- What holds of every displayed id still does after a change of one button. -/
theorem forall_setButton {P : Int → Prop} {change : Row → Row} (same : ∀ row, (change row).id = row.id)
    (holds : ∀ row ∈ tab.rows, P row.id) :
    ∀ row ∈ (tab.setButton id change).rows, P row.id := by
  intro row member
  obtain ⟨old, inside, rfl⟩ := mem_setButton.mp member
  by_cases chosen : old.id = id
  · rw [if_pos chosen, same]
    exact holds old inside
  · rw [if_neg chosen]
    exact holds old inside

theorem countP_erase {flight : Flight} (member : flight ∈ tab.inFlight) (test : Flight → Bool) :
    tab.inFlight.countP test =
      (tab.inFlight.erase flight).countP test + if test flight then 1 else 0 := by
  rw [(List.perm_cons_erase member).countP_eq, List.countP_cons]

theorem fromButton_setPause {table other : Nat} {target : Int} {wasPaused : Bool}
    {response : Option Response} :
    fromButton table id ⟨.setPause other target wasPaused, response⟩ = true ↔
      other = table ∧ target = id := by
  simp [fromButton]

theorem Orderly.landed {flight : Flight} (orderly : Orderly userId tab) (member : flight ∈ tab.inFlight)
    (unrelated : ∀ row ∈ tab.rows, fromButton tab.table row.id flight = false) :
    Orderly userId { tab with inFlight := tab.inFlight.erase flight } where
  valid := orderly.valid
  ids := orderly.ids
  owned := orderly.owned
  tables := fun table id wasPaused response inside =>
    orderly.tables table id wasPaused response (List.mem_of_mem_erase inside)
  buttons := by
    intro row inside
    have counted := orderly.buttons row inside
    rw [countP_erase member, unrelated row inside] at counted
    exact counted
  answers := fun request response inside =>
    orderly.answers request response (List.mem_of_mem_erase inside)

/-- The answer to a displayed button's own request frees the button. -/
theorem Orderly.freed {wasPaused : Bool} {change : Row → Row} (orderly : Orderly userId tab)
    (member : ⟨.setPause tab.table id wasPaused, some response⟩ ∈ tab.inFlight)
    (same : ∀ row, (change row).id = row.id) (enabled : ∀ row, (change row).disabled = false) :
    Orderly userId ({ tab with
      inFlight := tab.inFlight.erase ⟨.setPause tab.table id wasPaused, some response⟩ }.setButton
        id change) where
  valid := orderly.valid
  ids := by
    rw [ids_setButton same]
    exact orderly.ids
  owned := forall_setButton same orderly.owned
  tables := fun table id wasPaused response inside =>
    orderly.tables table id wasPaused response (List.mem_of_mem_erase inside)
  buttons := by
    intro row inside
    obtain ⟨old, oldInside, rfl⟩ := mem_setButton.mp inside
    have counted := orderly.buttons old oldInside
    rw [countP_erase member] at counted
    by_cases chosen : old.id = id
    · simp only [if_pos chosen, same, enabled, Tab.setButton, Bool.false_eq_true, if_false]
      rw [if_pos (fromButton_setPause.mpr ⟨rfl, chosen.symm⟩)] at counted
      have most : (if old.disabled then 1 else 0) ≤ 1 := by split <;> omega
      omega
    · simp only [if_neg chosen, Tab.setButton]
      rw [if_neg fun from_ => chosen (fromButton_setPause.mp from_).2.symm] at counted
      exact counted
  answers := fun request response inside =>
    orderly.answers request response (List.mem_of_mem_erase inside)

theorem Orderly.row_unique (orderly : Orderly userId tab) {row other : Row} (inside : row ∈ tab.rows)
    (otherInside : other ∈ tab.rows) (same : row.id = other.id) : row = other :=
  List.inj_on_of_nodup_map orderly.ids inside otherInside same

/-- A click on a button that is enabled disables it and sends its request. -/
theorem Orderly.clicked {btn : Row} {change : Row → Row} (orderly : Orderly userId tab)
    (inside : btn ∈ tab.rows) (enabled : btn.disabled = false)
    (same : ∀ row, (change row).id = row.id) (disabled : ∀ row, (change row).disabled = true) :
    Orderly userId ((tab.setButton btn.id change).fetch
      (.setPause tab.table btn.id btn.dataPaused)) where
  valid := orderly.valid
  ids := (ids_setButton same).symm ▸ orderly.ids
  owned := forall_setButton same orderly.owned
  tables := by
    intro table id wasPaused response member
    rcases List.mem_cons.mp member with fresh | old
    · cases fresh
      exact le_rfl
    · exact orderly.tables table id wasPaused response old
  buttons := by
    intro row member
    obtain ⟨old, oldInside, rfl⟩ := mem_setButton.mp member
    have counted := orderly.buttons old oldInside
    by_cases chosen : old.id = btn.id
    · have here := orderly.row_unique oldInside inside chosen
      subst here
      simp only [Tab.fetch, Tab.setButton, same, disabled, if_true]
      rw [enabled] at counted
      rw [List.countP_cons_of_pos (fromButton_setPause.mpr ⟨rfl, rfl⟩), counted]
      rfl
    · simp only [Tab.fetch, Tab.setButton, if_neg chosen]
      rw [List.countP_cons_of_neg fun here => chosen (fromButton_setPause.mp here).2.symm]
      exact counted
  answers := by
    intro request response member
    rcases List.mem_cons.mp member with fresh | old
    · cases fresh
    · exact orderly.answers request response old

theorem Orderly.refreshed {model : List MonitorListing} (orderly : Orderly userId tab)
    (nodup : (model.map (·.id)).Nodup) (owned : ∀ listing ∈ model, Owned userId tab.store listing.id) :
    Orderly userId { tab with rows := rendered model, table := tab.table + 1 } where
  valid := orderly.valid
  ids := by
    rw [rendered, monitorTable, List.map_map, List.map_map]
    exact nodup
  owned := by
    intro row member
    obtain ⟨listed, ofTable, rfl⟩ := List.mem_map.mp member
    obtain ⟨listing, inside, rfl⟩ := List.mem_map.mp ofTable
    exact owned listing inside
  tables := fun table id wasPaused response member =>
    (orderly.tables table id wasPaused response member).trans (Nat.le_succ _)
  buttons := by
    intro row member
    obtain ⟨listed, -, rfl⟩ := List.mem_map.mp member
    have none : tab.inFlight.countP (fromButton (tab.table + 1) (rowOf listed).id) = 0 := by
      refine List.countP_eq_zero.mpr ?_
      intro flight inside here
      obtain ⟨request, response⟩ := flight
      cases request with
      | setPause table id wasPaused =>
          have bound := orderly.tables table id wasPaused response inside
          have later := (fromButton_setPause.mp here).1
          omega
      | delete id => contradiction
      | monitorsPartial => contradiction
    exact none
  answers := orderly.answers

theorem Orderly.process (orderly : Orderly userId tab) (request : Request) :
    Orderly userId (tab.process userId request) := by
  by_cases sent : { request } ∈ tab.inFlight
  · rw [Tab.process, if_pos sent]
    constructor
    case valid => exact Pending.save_valid orderly.valid
    case ids => exact orderly.ids
    case owned => exact fun row member => (orderly.owned row member).later request
    case tables =>
      intro table id wasPaused response member
      rcases List.mem_cons.mp member with same | old
      · cases same
        exact orderly.tables table id wasPaused none sent
      · exact orderly.tables table id wasPaused response (List.mem_of_mem_erase old)
    case buttons =>
      intro row member
      have counted := orderly.buttons row member
      rw [countP_erase sent] at counted
      rw [List.countP_cons]
      exact counted
    case answers =>
      intro other response member
      rcases List.mem_cons.mp member with same | old
      · cases same
        exact answers_handle orderly.valid request
      · exact (orderly.answers other response (List.mem_of_mem_erase old)).later request
  · rw [Tab.process, if_neg sent]
    exact orderly

/-! ## What a click and a response do -/

theorem handlePause_cases (tab : Tab) (id : Int) :
    tab.handlePause id = tab ∨ ∃ btn ∈ tab.rows, btn.id = id ∧ btn.disabled = false ∧
      tab.handlePause id = (tab.setButton btn.id (optimistic btn.dataPaused)).fetch
        (.setPause tab.table btn.id btn.dataPaused) := by
  cases found : tab.rows.find? fun row => row.id = id with
  | none => exact .inl (by simp only [Tab.handlePause, found])
  | some btn =>
      have key : btn.id = id := by simpa using List.find?_some found
      subst key
      cases enabled : btn.disabled with
      | true => exact .inl (by simp only [Tab.handlePause, found, enabled, if_true])
      | false =>
          refine .inr ⟨btn, List.mem_of_find?_eq_some found, rfl, enabled, ?_⟩
          simp only [Tab.handlePause, found, enabled, Bool.false_eq_true, if_false]

theorem handleDelete_cases (tab : Tab) (id : Int) :
    tab.handleDelete id = tab ∨
      tab.handleDelete id =
        { tab with rows := tab.rows.filter fun row => row.id ≠ id }.fetch (.delete id) := by
  cases found : tab.rows.find? fun row => row.id = id with
  | none => exact .inl (by simp only [Tab.handleDelete, found])
  | some row => exact .inr (by simp only [Tab.handleDelete, found])

/-- The flight has left. -/
def landing (tab : Tab) (request : Request) (response : Response) : Tab :=
  { tab with inFlight := tab.inFlight.erase ⟨request, some response⟩ }

theorem deliver_absent (absent : ⟨request, some response⟩ ∉ tab.inFlight) :
    tab.deliver request response = tab :=
  if_neg absent

/-- A response changes nothing the tab shows, or it settles the button it is for, or
it brings a new table. -/
theorem deliver_cases (orderly : Orderly userId tab) (sent : ⟨request, some response⟩ ∈ tab.inFlight) :
    (request ≠ .monitorsPartial ∧
        (∀ id, fromButton tab.table id ⟨request, some response⟩ = false) ∧
        tab.deliver request response = landing tab request response) ∨
      (∃ id wasPaused, request = .setPause tab.table id wasPaused ∧
        ((∃ flag, response = .index (.isPaused flag) ∧
            tab.deliver request response =
              (landing tab request response).setButton id (reconcile flag)) ∨
          stored userId tab.store id = none ∧ response = .index .notFound ∧
            tab.deliver request response =
              (landing tab request response).setButton id (revert wasPaused))) ∨
      (request = .monitorsPartial ∧ ∃ view model, response = .index (.partialView view model) ∧
        (model.map (·.id)).Nodup ∧ (∀ listing ∈ model, Owned userId tab.store listing.id) ∧
        tab.deliver request response =
          { landing tab request response with rows := rendered model, table := tab.table + 1 }) := by
  have delivered : tab.deliver request response =
      (landing tab request response).onResponse response request := if_pos sent
  have answers := orderly.answers request response sent
  rw [delivered]
  cases request with
  | setPause table id wasPaused =>
      by_cases own : table = tab.table
      · subst own
        refine .inr (.inl ⟨id, wasPaused, rfl, ?_⟩)
        rcases answers with ⟨flag, rfl⟩ | ⟨rfl, absent⟩
        · exact .inl ⟨flag, rfl, if_pos rfl⟩
        · exact .inr ⟨absent, rfl, if_pos rfl⟩
      · refine .inl ⟨by simp, ?_, if_neg own⟩
        intro other
        simp [fromButton, own]
  | delete id =>
      cases answers
      exact .inl ⟨by simp, fun _ => rfl, rfl⟩
  | monitorsPartial =>
      obtain ⟨model, rfl, nodup, owned⟩ := answers
      exact .inr (.inr ⟨rfl, "_MonitorTable", model, rfl, nodup, owned, rfl⟩)

theorem Orderly.step (orderly : Orderly userId tab) (event : Event) :
    Orderly userId (tab.step userId event) := by
  cases event with
  | pause id =>
      rcases handlePause_cases tab id with same | ⟨btn, inside, rfl, enabled, clicked⟩
      · rw [Tab.step, same]
        exact orderly
      · rw [Tab.step, clicked]
        exact orderly.clicked inside enabled (fun _ => rfl) fun _ => rfl
  | delete id =>
      rcases handleDelete_cases tab id with same | removed
      · rw [Tab.step, same]
        exact orderly
      · rw [Tab.step, removed]
        exact (orderly.filter _).fetch (by simp)
  | refresh => exact orderly.fetch (by simp)
  | process request => exact orderly.process request
  | deliver request response =>
      by_cases sent : ⟨request, some response⟩ ∈ tab.inFlight
      · rcases deliver_cases orderly sent with unrelated | own | replaced
        · obtain ⟨-, other, delivered⟩ := unrelated
          rw [Tab.step, delivered]
          exact orderly.landed sent fun row _ => other row.id
        · obtain ⟨id, wasPaused, rfl, ⟨flag, rfl, delivered⟩ | ⟨-, rfl, delivered⟩⟩ := own
          · rw [Tab.step, delivered]
            exact orderly.freed sent (fun _ => rfl) fun _ => rfl
          · rw [Tab.step, delivered]
            exact orderly.freed sent (fun _ => rfl) fun _ => rfl
        · obtain ⟨rfl, view, model, rfl, nodup, owned, delivered⟩ := replaced
          rw [Tab.step, delivered]
          exact (orderly.landed sent fun _ _ => rfl).refreshed nodup owned
      · rw [Tab.step, deliver_absent sent]
        exact orderly

theorem Orderly.run (orderly : Orderly userId tab) (events : List Event) :
    Orderly userId (tab.run userId events) := by
  induction events generalizing tab with
  | nil => exact orderly
  | cons next rest ih => exact ih (orderly.step next)

end Orderly

end UrlPulse.Web.IndexPage
