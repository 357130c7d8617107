import UrlPulse.System
import UrlPulse.Web.MonitorTable

namespace UrlPulse.Web.IndexPage

open UrlPulse.Core UrlPulse.Infrastructure UrlPulse.Web.Index UrlPulse.Web.MonitorTable

/-! The script of the dashboard in one tab, with the server that its requests go
to.  A request is processed some time after it is sent, and its response reaches
the tab some time after that.
-/

/-- What the script reads and writes of a row: the look of its pause button, the
button's `data-paused`, and whether it is disabled. -/
structure Row where
  id : Int
  isPaused : Bool
  dataPaused : Bool
  disabled : Bool := false
deriving DecidableEq, Repr

def rowOf (row : MonitorRow) : Row where
  id := row.id
  isPaused := row.pauseButton.isPaused
  dataPaused := row.pauseButton.dataPaused

def rendered (model : List MonitorListing) : List Row := (monitorTable model).map rowOf

/-- A pause keeps the button it came from, which is one of a certain table, and
the flag it found there. -/
inductive Request where
  | setPause (table : Nat) (id : Int) (wasPaused : Bool)
  | delete (id : Int)
  | monitorsPartial
deriving DecidableEq, Repr

/-- A request with its response, once the server has given it. -/
structure Flight where
  request : Request
  response : Option Response := none
deriving DecidableEq

structure Tab where
  store : Store
  rows : List Row
  /-- how often the table has been replaced -/
  table : Nat := 0
  inFlight : List Flight := []

namespace Tab

variable (tab : Tab)

def fetch (request : Request) : Tab :=
  { tab with inFlight := { request } :: tab.inFlight }

def refreshTable : Tab := tab.fetch .monitorsPartial

def setButton (id : Int) (change : Row → Row) : Tab :=
  { tab with rows := tab.rows.map fun row => if row.id = id then change row else row }

end Tab

def setPauseUI (isPaused : Bool) (row : Row) : Row := { row with isPaused }

/-- Optimistic update, with the button disabled. -/
def optimistic (wasPaused : Bool) (btn : Row) : Row :=
  { setPauseUI (!wasPaused) btn with disabled := true }

/-- Reconcile with server truth. -/
def reconcile (isPaused : Bool) (btn : Row) : Row :=
  { setPauseUI isPaused btn with dataPaused := isPaused, disabled := false }

/-- Revert on failure. -/
def revert (wasPaused : Bool) (btn : Row) : Row :=
  { setPauseUI wasPaused btn with disabled := false }

namespace Tab

variable (tab : Tab)

/-- A disabled button takes no click. -/
def handlePause (id : Int) : Tab :=
  match tab.rows.find? fun row => row.id = id with
  | none => tab
  | some btn =>
      if btn.disabled then tab
      else
        (tab.setButton id (optimistic btn.dataPaused)).fetch
          (.setPause tab.table id btn.dataPaused)

/-- After the confirmation. -/
def handleDelete (id : Int) : Tab :=
  match tab.rows.find? fun row => row.id = id with
  | none => tab
  | some _ => { tab with rows := tab.rows.filter fun row => row.id ≠ id }.fetch (.delete id)

def onSetPause (id : Int) (wasPaused : Bool) : Response → Tab
  | .index (.isPaused isPaused) => tab.setButton id (reconcile isPaused)
  | _ => tab.setButton id (revert wasPaused)

/-- What the script does with a response; a button of a replaced table is no longer shown. -/
def onResponse (response : Response) : Request → Tab
  | .setPause table id wasPaused =>
      if table = tab.table then tab.onSetPause id wasPaused response else tab
  | .delete _ =>
      match response with
      | .index .ok => tab
      | _ => tab.refreshTable
  | .monitorsPartial =>
      match response with
      | .index (.partialView _ model) =>
          { tab with rows := rendered model, table := tab.table + 1 }
      | _ => tab

end Tab

def Request.toWeb : Request → WebRequest Unit
  | .setPause _ id _ => .setPause id
  | .delete id => .delete id
  | .monitorsPartial => .monitorsPartial

inductive Event where
  | pause (id : Int)
  | delete (id : Int)
  | refresh
  | process (request : Request)
  | deliver (request : Request) (response : Response)
deriving DecidableEq

namespace Tab

variable (userId : Option String) (tab : Tab)

/-- The server takes up one request that it has not answered yet. -/
def process (request : Request) : Tab :=
  if { request } ∈ tab.inFlight then
    { tab with
      store := (handle userId request.toWeb tab.store).2
      inFlight := { request, response := some (handle userId request.toWeb tab.store).1 } ::
        tab.inFlight.erase { request } }
  else tab

def deliver (request : Request) (response : Response) : Tab :=
  if { request, response := some response } ∈ tab.inFlight then
    { tab with inFlight := tab.inFlight.erase { request, response := some response } }.onResponse
      response request
  else tab

def step : Event → Tab
  | .pause id => tab.handlePause id
  | .delete id => tab.handleDelete id
  | .refresh => tab.refreshTable
  | .process request => tab.process userId request
  | .deliver request response => tab.deliver request response

def run : Tab → List Event → Tab
  | tab, [] => tab
  | tab, next :: rest => run (tab.step userId next) rest

end Tab

/-- The page as the server first sends it. -/
def load (userId : Option String) (store : Store) : Tab where
  store
  rows := rendered (onGetAsync { currentUserId := userId } store)

end UrlPulse.Web.IndexPage
