import UrlPulse.Dashboard
import UrlPulse.Deletes

namespace UrlPulse.Web.IndexPage

open UrlPulse.Core UrlPulse.Infrastructure UrlPulse.Web.Index UrlPulse.Web.MonitorTable
open UrlPulse.Data.Eventual

/-! # The dashboard at rest

What a row shows agrees with the database once nothing is under way, as long as
the answers that reach the table last are not older than what they tell of.
-/

variable {userId : Option String} {store : Store} {tab : Tab} {request : Request} {response : Response}
  {row : Row} {id : Int}

/-! ## What the server will hold -/

/-- The change a flight will still make. -/
def Flight.change? (flight : Flight) : Option (Change Int) :=
  match flight.response with
  | none => flight.request.change?
  | some _ => none

def waiting (inFlight : List Flight) : List (Change Int) := inFlight.filterMap Flight.change?

/-- The pause flags once the server has processed everything in flight. -/
def Tab.eventually (userId : Option String) (tab : Tab) : Table Int :=
  eventual (waiting tab.inFlight) (stored userId tab.store)

theorem waiting_cons (flight : Flight) (inFlight : List Flight) :
    waiting (flight :: inFlight) = flight.change?.toList ++ waiting inFlight := by
  cases made : flight.change? with
  | none => exact List.filterMap_cons_none made
  | some change => exact List.filterMap_cons_some made

theorem waiting_erase {flight : Flight} {inFlight : List Flight} (member : flight ∈ inFlight) :
    (waiting inFlight).Perm (flight.change?.toList ++ waiting (inFlight.erase flight)) := by
  rw [← waiting_cons]
  exact (List.perm_cons_erase member).filterMap Flight.change?

theorem eventually_fetch (userId : Option String) (tab : Tab) (request : Request) :
    (tab.fetch request).eventually userId =
      eventual request.change?.toList (tab.eventually userId) := by
  rw [Tab.eventually, Tab.fetch, waiting_cons, eventual_append]
  rfl

theorem eventually_process (tab : Tab) (request : Request) :
    (tab.process userId request).eventually userId = tab.eventually userId := by
  by_cases sent : { request } ∈ tab.inFlight
  · rw [Tab.process, if_pos sent, Tab.eventually, Tab.eventually, waiting_cons,
      eventual_perm (waiting_erase sent)]
    simp only [stored_handle]
    calc
      eventual ([] ++ waiting (tab.inFlight.erase { request }))
          (eventual request.change?.toList (stored userId tab.store)) =
          eventual (waiting (tab.inFlight.erase { request }) ++ request.change?.toList)
            (stored userId tab.store) := (eventual_append _ _ _).symm
      _ = eventual (request.change?.toList ++ waiting (tab.inFlight.erase { request }))
            (stored userId tab.store) := eventual_perm List.perm_append_comm
  · rw [Tab.process, if_neg sent]

theorem eventually_landing (sent : ⟨request, some response⟩ ∈ tab.inFlight) :
    (landing tab request response).eventually userId = tab.eventually userId :=
  (eventual_perm (waiting_erase sent)).symm

/-! ## When a row agrees with that -/

/-- What the answer to a button has told, or will. -/
def Tells (flag : Option Bool) : Option Response → Prop
  | none => flag.isSome
  | some response => ∃ value, response = .index (.isPaused value) ∧ flag = some value

/-- An enabled button shows what the server will hold; a disabled one is about to. -/
def Agrees (userId : Option String) (tab : Tab) (row : Row) : Prop :=
  if row.disabled then
    ∀ flight ∈ tab.inFlight, fromButton tab.table row.id flight →
      Tells (tab.eventually userId row.id) flight.response
  else tab.eventually userId row.id = some row.isPaused ∧ row.dataPaused = row.isPaused

def Refreshing (inFlight : List Flight) : Prop :=
  ∃ response, ⟨.monitorsPartial, response⟩ ∈ inFlight

/-- The rows agree with what the server will hold, or are about to be replaced. -/
def Coherent (userId : Option String) (tab : Tab) : Prop :=
  Refreshing tab.inFlight ∨ ∀ row ∈ tab.rows, Agrees userId tab row

theorem agrees_congr {other : Tab} (table : other.table = tab.table)
    (flag : other.eventually userId row.id = tab.eventually userId row.id)
    (flights : ∀ flight, fromButton tab.table row.id flight →
      (flight ∈ other.inFlight ↔ flight ∈ tab.inFlight)) :
    Agrees userId other row ↔ Agrees userId tab row := by
  rw [Agrees, Agrees, table, flag]
  cases row.disabled with
  | false => exact Iff.rfl
  | true =>
      refine forall_congr' fun flight => ?_
      constructor
      · intro told member own
        exact told ((flights flight own).mpr member) own
      · intro told member own
        exact told ((flights flight own).mp member) own

/-- A displayed button has one request under way at most. -/
theorem Orderly.agrees_own {flight : Flight} (orderly : Orderly userId tab) (inside : row ∈ tab.rows)
    (member : flight ∈ tab.inFlight) (own : fromButton tab.table row.id flight) :
    Agrees userId tab row ↔ Tells (tab.eventually userId row.id) flight.response := by
  have counted := orderly.buttons row inside
  rw [countP_erase member, if_pos own] at counted
  cases disabled : row.disabled with
  | false => simp [disabled] at counted
  | true =>
      have alone : (tab.inFlight.erase flight).countP (fromButton tab.table row.id) = 0 := by
        simpa [disabled] using counted
      simp only [Agrees, disabled, if_true]
      constructor
      · intro told
        exact told flight member own
      · intro tells other otherMember otherOwn
        rcases List.mem_cons.mp ((List.perm_cons_erase member).mem_iff.mp otherMember) with
          same | left
        · exact same ▸ tells
        · exact absurd otherOwn (List.countP_eq_zero.mp alone other left)

/-! ## What a step leaves of it -/

theorem refreshing_fetch (refreshing : Refreshing tab.inFlight) :
    Refreshing (tab.fetch request).inFlight := by
  obtain ⟨response, member⟩ := refreshing
  exact ⟨response, List.mem_cons_of_mem _ member⟩

theorem mem_fetch {flight : Flight} (other : fromButton tab.table row.id { request } = false)
    (own : fromButton tab.table row.id flight) :
    flight ∈ (tab.fetch request).inFlight ↔ flight ∈ tab.inFlight := by
  constructor
  · intro member
    rcases List.mem_cons.mp member with same | old
    · rw [same, other] at own
      contradiction
    · exact old
  · exact List.mem_cons_of_mem _

theorem Coherent.handlePause (coherent : Coherent userId tab) (orderly : Orderly userId tab) (id : Int) :
    Coherent userId (tab.handlePause id) := by
  rcases handlePause_cases tab id with same | ⟨btn, inside, rfl, enabled, clicked⟩
  · rw [same]
    exact coherent
  · have ordered : Orderly userId (tab.handlePause btn.id) := orderly.step (.pause btn.id)
    rw [clicked] at ordered ⊢
    rcases coherent with refreshing | agree
    · exact .inl (refreshing_fetch refreshing)
    · refine .inr ?_
      intro row member
      obtain ⟨old, oldInside, rfl⟩ := mem_setButton.mp member
      by_cases chosen : old.id = btn.id
      · have here := orderly.row_unique oldInside inside chosen
        subst here
        have known := agree old oldInside
        rw [Agrees, enabled] at known
        rw [if_pos rfl] at member ⊢
        refine (ordered.agrees_own member List.mem_cons_self (fromButton_setPause.mpr ⟨rfl, rfl⟩)).mpr ?_
        rw [eventually_fetch]
        change ((Change.toggle old.id).apply (tab.eventually userId) old.id).isSome
        rw [Change.toggle_apply, known.1]
        rfl
      · rw [if_neg chosen]
        refine (agrees_congr ?_ ?_ ?_).mpr (agree old oldInside)
        · rfl
        · rw [eventually_fetch]
          exact Change.apply_of_ne fun same => chosen same.symm
        · intro flight own
          refine mem_fetch ?_ own
          simp [fromButton, Ne.symm chosen]

theorem Coherent.handleDelete (coherent : Coherent userId tab) (id : Int) :
    Coherent userId (tab.handleDelete id) := by
  rcases handleDelete_cases tab id with same | removed
  · rw [same]
    exact coherent
  · rw [removed]
    rcases coherent with refreshing | agree
    · exact .inl (refreshing_fetch refreshing)
    · refine .inr ?_
      intro row member
      obtain ⟨inside, left⟩ := List.mem_filter.mp member
      have apart : row.id ≠ id := by simpa using left
      refine (agrees_congr ?_ ?_ ?_).mpr (agree row inside)
      · rfl
      · rw [eventually_fetch]
        exact Change.apply_of_ne fun same => apart same.symm
      · intro flight own
        exact mem_fetch rfl own

/-- The event does not leave the rows behind what the server will hold: a table that
comes with no other on its way lists what the server will hold, and the request of a
displayed button is processed when the other changes of its monitor cancel out. -/
def Fresh (userId : Option String) (tab : Tab) : Event → Prop
  | .process request =>
      { request } ∈ tab.inFlight → ¬ Refreshing tab.inFlight → ∀ row ∈ tab.rows, ∀ wasPaused,
        request = .setPause tab.table row.id wasPaused →
          tab.eventually userId row.id = (stored userId tab.store row.id).map (!·)
  | .deliver .monitorsPartial (.index (.partialView view model)) =>
      ⟨.monitorsPartial, some (.index (.partialView view model))⟩ ∈ tab.inFlight →
        ¬ Refreshing (landing tab .monitorsPartial (.index (.partialView view model))).inFlight →
          ∀ listing ∈ model, tab.eventually userId listing.id = some listing.isPaused
  | _ => True

theorem not_fromButton (other : ∀ wasPaused, request ≠ .setPause tab.table row.id wasPaused)
    (response : Option Response) : fromButton tab.table row.id ⟨request, response⟩ = false := by
  cases request with
  | setPause table id wasPaused =>
      refine Bool.eq_false_iff.mpr fun own => ?_
      obtain ⟨rfl, rfl⟩ := fromButton_setPause.mp own
      exact other wasPaused rfl
  | delete id => rfl
  | monitorsPartial => rfl

theorem mem_erase_of_own {flight left : Flight} (own : fromButton tab.table row.id flight)
    (other : fromButton tab.table row.id left = false) :
    flight ∈ tab.inFlight.erase left ↔ flight ∈ tab.inFlight := by
  refine List.mem_erase_of_ne fun same => ?_
  rw [same, other] at own
  contradiction

/-- The answer tells what the button awaited when nothing else changes its monitor. -/
theorem tells_handle (flag : Option Bool) (store : Store) (id : Int) :
    Tells flag (some (handle userId (.setPause id : WebRequest Unit) store).1) ↔
      flag.isSome ∧ flag = (stored userId store id).map (!·) := by
  cases found : ApplicationDbContext.findMonitor { currentUserId := userId } store id with
  | none =>
      rw [handle_setPause_missing found, stored, found]
      constructor
      · rintro ⟨value, answered, -⟩
        cases answered
      · rintro ⟨there, rfl⟩
        contradiction
  | some monitor =>
      rw [handle_setPause found, stored, found]
      constructor
      · rintro ⟨value, answered, rfl⟩
        cases answered
        exact ⟨rfl, rfl⟩
      · rintro ⟨-, rfl⟩
        exact ⟨_, rfl, rfl⟩

theorem agrees_process (orderly : Orderly userId tab) (sent : { request } ∈ tab.inFlight)
    (inside : row ∈ tab.rows) :
    Agrees userId (tab.process userId request) row ↔
      Agrees userId tab row ∧ ∀ wasPaused, request = .setPause tab.table row.id wasPaused →
        tab.eventually userId row.id = (stored userId tab.store row.id).map (!·) := by
  have later := orderly.process request
  have same : (tab.process userId request).eventually userId = tab.eventually userId :=
    eventually_process tab request
  rw [Tab.process, if_pos sent] at later same ⊢
  by_cases own : ∃ wasPaused, request = .setPause tab.table row.id wasPaused
  · obtain ⟨wasPaused, rfl⟩ := own
    rw [orderly.agrees_own inside sent (fromButton_setPause.mpr ⟨rfl, rfl⟩),
      later.agrees_own inside List.mem_cons_self (fromButton_setPause.mpr ⟨rfl, rfl⟩), same]
    refine (tells_handle _ _ _).trans (and_congr_right fun _ => ?_)
    constructor
    · intro told other _
      exact told
    · intro told
      exact told wasPaused rfl
  · have other : ∀ wasPaused, request ≠ .setPause tab.table row.id wasPaused :=
      fun wasPaused equal => own ⟨wasPaused, equal⟩
    rw [and_iff_left fun wasPaused equal => absurd equal (other wasPaused)]
    refine agrees_congr rfl (congrFun same row.id) ?_
    intro flight ofRow
    rw [List.mem_cons, mem_erase_of_own ofRow (not_fromButton other none)]
    refine or_iff_right fun equal => ?_
    rw [equal, not_fromButton other] at ofRow
    contradiction

theorem refreshing_process :
    Refreshing (tab.process userId request).inFlight ↔ Refreshing tab.inFlight := by
  by_cases sent : { request } ∈ tab.inFlight
  · rw [Tab.process, if_pos sent]
    constructor
    · rintro ⟨response, member⟩
      rcases List.mem_cons.mp member with same | old
      · cases same
        exact ⟨none, sent⟩
      · exact ⟨response, List.mem_of_mem_erase old⟩
    · rintro ⟨response, member⟩
      by_cases same : (⟨.monitorsPartial, response⟩ : Flight) = { request }
      · cases same
        exact ⟨_, List.mem_cons_self⟩
      · exact ⟨response, List.mem_cons_of_mem _ ((List.mem_erase_of_ne same).mpr member)⟩
  · rw [Tab.process, if_neg sent]

theorem coherent_process_iff (orderly : Orderly userId tab) :
    Coherent userId (tab.process userId request) ↔
      Coherent userId tab ∧ Fresh userId tab (.process request) := by
  by_cases sent : { request } ∈ tab.inFlight
  · rw [Coherent, refreshing_process, Coherent]
    by_cases refreshing : Refreshing tab.inFlight
    · simp [refreshing, Fresh]
    · have rows : (tab.process userId request).rows = tab.rows := by
        rw [Tab.process, if_pos sent]
      rw [rows, or_iff_right refreshing, or_iff_right refreshing, Fresh]
      simp only [sent, refreshing, not_false_eq_true, forall_const]
      rw [← forall₂_and]
      exact forall₂_congr fun row inside => agrees_process orderly sent inside
  · rw [Tab.process, if_neg sent]
    exact iff_self_and.mpr fun _ inFlight => absurd inFlight sent

theorem refreshing_landing (other : request ≠ .monitorsPartial) :
    Refreshing (landing tab request response).inFlight ↔ Refreshing tab.inFlight := by
  refine exists_congr fun told => List.mem_erase_of_ne fun same => ?_
  cases same
  exact other rfl

theorem agrees_landing (sent : ⟨request, some response⟩ ∈ tab.inFlight)
    (other : fromButton tab.table row.id ⟨request, some response⟩ = false) :
    Agrees userId (landing tab request response) row ↔ Agrees userId tab row :=
  agrees_congr rfl (congrFun (eventually_landing sent) row.id) fun _ own =>
    mem_erase_of_own own other

theorem fresh_deliver (other : request ≠ .monitorsPartial) :
    Fresh userId tab (.deliver request response) := by
  cases request with
  | setPause table id wasPaused => trivial
  | delete id => trivial
  | monitorsPartial => exact absurd rfl other

theorem fresh_absent (absent : ⟨request, some response⟩ ∉ tab.inFlight) :
    Fresh userId tab (.deliver request response) := by
  unfold Fresh
  split
  · rename_i equal
    cases equal
  · rename_i equal
    cases equal
    exact fun sent => absurd sent absent
  · trivial

/-- The answer to its own request leaves a button with what it told. -/
theorem agrees_answered {wasPaused : Bool} {change : Row → Row} (orderly : Orderly userId tab)
    (sent : ⟨.setPause tab.table id wasPaused, some response⟩ ∈ tab.inFlight)
    (settled : ∀ row : Row, row.id = id →
      (Agrees userId (landing tab (.setPause tab.table id wasPaused) response) (change row) ↔
        Tells (tab.eventually userId id) (some response))) :
    (∀ row ∈ ((landing tab (.setPause tab.table id wasPaused) response).setButton id change).rows,
        Agrees userId (landing tab (.setPause tab.table id wasPaused) response) row) ↔
      ∀ row ∈ tab.rows, Agrees userId tab row := by
  refine List.forall_mem_map.trans (forall₂_congr fun row inside => ?_)
  by_cases chosen : row.id = id
  · subst chosen
    rw [if_pos rfl, settled row rfl,
      orderly.agrees_own inside sent (fromButton_setPause.mpr ⟨rfl, rfl⟩)]
  · rw [if_neg chosen]
    refine agrees_landing sent ?_
    simp [fromButton, Ne.symm chosen]

theorem eventually_absent (absent : stored userId tab.store id = none) :
    tab.eventually userId id = none :=
  eventual_none absent

theorem agrees_reconcile (tab : Tab) (row : Row) (flag : Bool) :
    Agrees userId tab (reconcile flag row) ↔ tab.eventually userId row.id = some flag := by
  simp [Agrees, reconcile, setPauseUI]

theorem tells_isPaused (expected : Option Bool) (flag : Bool) :
    Tells expected (some (.index (.isPaused flag))) ↔ expected = some flag := by
  constructor
  · rintro ⟨value, answered, told⟩
    cases answered
    exact told
  · intro told
    exact ⟨flag, rfl, told⟩

theorem agrees_rendered (tab : Tab) (model : List MonitorListing) :
    (∀ row ∈ rendered model, Agrees userId tab row) ↔
      ∀ listing ∈ model, tab.eventually userId listing.id = some listing.isPaused := by
  rw [rendered, monitorTable, List.map_map]
  refine List.forall_mem_map.trans (forall₂_congr fun listing _ => ?_)
  simp [Agrees, rowOf, monitorRow]

theorem coherent_deliver_iff (orderly : Orderly userId tab) :
    Coherent userId (tab.deliver request response) ↔
      Coherent userId tab ∧ Fresh userId tab (.deliver request response) := by
  by_cases sent : ⟨request, some response⟩ ∈ tab.inFlight
  · rcases deliver_cases orderly sent with unrelated | own | replaced
    · obtain ⟨notRefresh, other, delivered⟩ := unrelated
      rw [delivered, and_iff_left (fresh_deliver notRefresh), Coherent, Coherent]
      refine or_congr (refreshing_landing notRefresh) (forall₂_congr fun row _ => ?_)
      exact agrees_landing sent (other row.id)
    · obtain ⟨id, wasPaused, rfl, ⟨flag, rfl, delivered⟩ | ⟨absent, rfl, delivered⟩⟩ := own
      · rw [delivered, and_iff_left (fresh_deliver (by simp)), Coherent, Coherent]
        refine or_congr (refreshing_landing (by simp)) (agrees_answered orderly sent ?_)
        rintro row rfl
        rw [agrees_reconcile, tells_isPaused, eventually_landing sent]
      · rw [delivered, and_iff_left (fresh_deliver (by simp)), Coherent, Coherent]
        refine or_congr (refreshing_landing (by simp)) (agrees_answered orderly sent ?_)
        rintro row rfl
        simp [Agrees, revert, setPauseUI, Tells, eventually_landing sent, eventually_absent absent]
    · obtain ⟨rfl, view, model, rfl, -, -, delivered⟩ := replaced
      have coherent : Coherent userId tab := .inl ⟨_, sent⟩
      rw [delivered, and_iff_right coherent, Coherent, Fresh]
      simp only [agrees_rendered, sent, forall_const]
      rw [← or_iff_not_imp_left]
      refine or_congr Iff.rfl (forall₂_congr fun listing _ => ?_)
      rw [← eventually_landing sent]
      rfl
  · rw [deliver_absent sent, and_iff_left (fresh_absent sent)]

/-! ## Runs -/

theorem Coherent.step {event : Event} (coherent : Coherent userId tab) (orderly : Orderly userId tab)
    (fresh : Fresh userId tab event) : Coherent userId (tab.step userId event) := by
  cases event with
  | pause id => exact coherent.handlePause orderly id
  | delete id => exact coherent.handleDelete id
  | refresh => exact .inl ⟨none, List.mem_cons_self⟩
  | process request => exact (coherent_process_iff orderly).mpr ⟨coherent, fresh⟩
  | deliver request response => exact (coherent_deliver_iff orderly).mpr ⟨coherent, fresh⟩

/-- Every event of the run is fresh where it happens. -/
def AllFresh (userId : Option String) : Tab → List Event → Prop
  | _, [] => True
  | tab, next :: rest => Fresh userId tab next ∧ AllFresh userId (tab.step userId next) rest

theorem Coherent.run {events : List Event} (coherent : Coherent userId tab)
    (orderly : Orderly userId tab) (fresh : AllFresh userId tab events) :
    Coherent userId (tab.run userId events) := by
  induction events generalizing tab with
  | nil => exact coherent
  | cons next rest ih =>
      exact ih (coherent.step orderly fresh.1) (orderly.step next) fresh.2

/-- The events that are not the user's or the timer's. -/
def Event.remote : Event → Bool
  | .process _ | .deliver _ _ => true
  | .pause _ | .delete _ | .refresh => false

theorem coherent_step_iff {event : Event} (orderly : Orderly userId tab) (remote : event.remote) :
    Coherent userId (tab.step userId event) ↔ Coherent userId tab ∧ Fresh userId tab event := by
  cases event with
  | process request => exact coherent_process_iff orderly
  | deliver request response => exact coherent_deliver_iff orderly
  | pause id => cases remote
  | delete id => cases remote
  | refresh => cases remote

theorem coherent_run_iff {events : List Event} (orderly : Orderly userId tab)
    (remote : ∀ event ∈ events, event.remote) :
    Coherent userId (tab.run userId events) ↔
      Coherent userId tab ∧ AllFresh userId tab events := by
  induction events generalizing tab with
  | nil => exact (and_iff_left trivial).symm
  | cons next rest ih =>
      have later : ∀ event ∈ rest, event.remote :=
        fun event member => remote event (List.mem_cons_of_mem next member)
      rw [Tab.run, ih (orderly.step next) later,
        coherent_step_iff orderly (remote next List.mem_cons_self), and_assoc, AllFresh]

theorem run_append (tab : Tab) (before after : List Event) :
    tab.run userId (before ++ after) = (tab.run userId before).run userId after := by
  induction before generalizing tab with
  | nil => rfl
  | cons next rest ih => exact ih (tab.step userId next)

/-! ## At rest -/

/-- Every displayed row belongs to a stored monitor and shows what is stored. -/
def AtRest (tab : Tab) : Prop :=
  ∀ row ∈ tab.rows, ∃ monitor ∈ tab.store.urlMonitors, monitor.id = row.id ∧
    row.isPaused = monitor.isPaused ∧ row.dataPaused = monitor.isPaused

theorem stored_of_mem {monitor : UrlMonitor} (valid : store.Valid)
    (inTable : monitor ∈ store.urlMonitors)
    (visible : ApplicationDbContext.queryFilter { currentUserId := userId } monitor) :
    stored userId store monitor.id = some monitor.isPaused := by
  have seen : monitor ∈ ApplicationDbContext.urlMonitors { currentUserId := userId } store :=
    List.mem_filter.mpr ⟨inTable, visible⟩
  rw [stored, ApplicationDbContext.findMonitor_of_visible valid seen, Option.map_some]

theorem stored_eq_some_iff (orderly : Orderly userId tab) (inside : row ∈ tab.rows) {flag : Bool} :
    stored userId tab.store row.id = some flag ↔
      ∃ monitor ∈ tab.store.urlMonitors, monitor.id = row.id ∧ flag = monitor.isPaused := by
  constructor
  · intro told
    obtain ⟨monitor, found, rfl⟩ := Option.map_eq_some_iff.mp told
    obtain ⟨inTable, -, key⟩ := ApplicationDbContext.findMonitor_some found
    exact ⟨monitor, inTable, key, rfl⟩
  · rintro ⟨monitor, inTable, key, rfl⟩
    rw [← key]
    exact stored_of_mem orderly.valid inTable (orderly.owned row inside monitor inTable key)

theorem coherent_iff_atRest (orderly : Orderly userId tab) (quiet : tab.inFlight = []) :
    Coherent userId tab ↔ AtRest tab := by
  have notRefreshing : ¬ Refreshing tab.inFlight := by
    rintro ⟨response, member⟩
    rw [quiet] at member
    contradiction
  rw [Coherent, or_iff_right notRefreshing]
  refine forall₂_congr fun row inside => ?_
  have enabled : row.disabled = false := by
    have counted := orderly.buttons row inside
    rw [quiet] at counted
    cases disabled : row.disabled with
    | false => rfl
    | true => simp [disabled] at counted
  have settled : tab.eventually userId = stored userId tab.store := by
    rw [Tab.eventually, quiet]
    rfl
  rw [Agrees, enabled, settled]
  simp only [Bool.false_eq_true, if_false]
  rw [stored_eq_some_iff orderly inside]
  constructor
  · rintro ⟨⟨monitor, inTable, key, shown⟩, same⟩
    exact ⟨monitor, inTable, key, shown, same.trans shown⟩
  · rintro ⟨monitor, inTable, key, shown, data⟩
    exact ⟨⟨monitor, inTable, key, shown⟩, data.trans shown.symm⟩

theorem orderly_load (valid : store.Valid) : Orderly userId (load userId store) where
  valid := valid
  ids := by
    rw [load, rendered, monitorTable, List.map_map, List.map_map]
    exact nodup_listed valid
  owned := by
    intro row member
    obtain ⟨listed, ofTable, rfl⟩ := List.mem_map.mp member
    obtain ⟨listing, inside, rfl⟩ := List.mem_map.mp ofTable
    exact owned_listed valid inside
  tables := fun _ _ _ _ member => absurd member List.not_mem_nil
  buttons := by
    intro row member
    obtain ⟨listed, -, rfl⟩ := List.mem_map.mp member
    rfl
  answers := fun _ _ member => absurd member List.not_mem_nil

theorem coherent_load (valid : store.Valid) : Coherent userId (load userId store) := by
  refine .inr ((agrees_rendered _ _).mpr ?_)
  intro listing listed
  obtain ⟨monitor, ordered, rfl⟩ := List.mem_map.mp listed
  obtain ⟨inTable, visible⟩ := List.mem_filter.mp (Data.Linq.mem_orderByDescending.mp ordered)
  exact stored_of_mem valid inTable visible

/-- The dashboard of a run whose events are all fresh agrees with the database whenever
nothing is in flight.  Once the user only waits, that is also the only way to get there. -/
theorem rests_iff (userId : Option String) (database : Database) :
    (∀ events, AllFresh userId (load userId database.toStore) events →
        ((load userId database.toStore).run userId events).inFlight = [] →
          AtRest ((load userId database.toStore).run userId events)) ∧
      ∀ events waited, AllFresh userId (load userId database.toStore) events →
        (∀ event ∈ waited, event.remote) →
        ((load userId database.toStore).run userId (events ++ waited)).inFlight = [] →
          (AtRest ((load userId database.toStore).run userId (events ++ waited)) ↔
            AllFresh userId ((load userId database.toStore).run userId events) waited) := by
  have orderly : Orderly userId (load userId database.toStore) := orderly_load database.valid
  have coherent : Coherent userId (load userId database.toStore) := coherent_load database.valid
  constructor
  · intro events fresh quiet
    exact (coherent_iff_atRest (orderly.run events) quiet).mp (coherent.run orderly fresh)
  · intro events waited fresh remote quiet
    rw [← coherent_iff_atRest (orderly.run (events ++ waited)) quiet, run_append,
      coherent_run_iff (orderly.run events) remote, and_iff_right (coherent.run orderly fresh)]

/-- How the only click is answered. -/
def answeredClick : List Event :=
  [.process (.setPause 0 1 false), .deliver (.setPause 0 1 false) (.index (.isPaused true))]

theorem allFresh_answeredClick :
    AllFresh (some "alice") (load (some "alice") oneMonitor.toStore) (.pause 1 :: answeredClick) := by
  refine ⟨trivial, ?_, trivial, trivial⟩
  intro _ _
  decide

theorem rests_iff_answeredClick :
    AtRest ((load (some "alice") oneMonitor.toStore).run (some "alice") (.pause 1 :: answeredClick)) ∧
      (AtRest ((load (some "alice") oneMonitor.toStore).run (some "alice") ([.pause 1] ++ answeredClick)) ↔
        AllFresh (some "alice") ((load (some "alice") oneMonitor.toStore).run (some "alice") [.pause 1])
          answeredClick) :=
  ⟨(rests_iff (some "alice") oneMonitor).1 (.pause 1 :: answeredClick) allFresh_answeredClick (by decide),
    (rests_iff (some "alice") oneMonitor).2 [.pause 1] answeredClick ⟨trivial, trivial⟩ (by decide)
      (by decide)⟩

/-- The timer's table is rendered before the click is processed and arrives after its answer. -/
def overtakenRefresh : List Event :=
  [.refresh, .process .monitorsPartial, .pause 1, .process (.setPause 0 1 false),
    .deliver (.setPause 0 1 false) (.index (.isPaused true)),
    .deliver .monitorsPartial (.index (.partialView "_MonitorTable"
      (onGetAsync { currentUserId := some "alice" } oneMonitor.toStore)))]

theorem not_atRest_overtakenRefresh :
    ((load (some "alice") oneMonitor.toStore).run (some "alice") overtakenRefresh).inFlight = [] ∧
      ¬ AtRest ((load (some "alice") oneMonitor.toStore).run (some "alice") overtakenRefresh) := by
  refine ⟨by decide, ?_⟩
  rw [AtRest]
  decide

end UrlPulse.Web.IndexPage
