import UrlPulse.System
import UrlPulse.Web.AnalyticsPage

namespace UrlPulse.Web.AnalyticsTab

open UrlPulse.Core UrlPulse.Infrastructure UrlPulse.Web.Analytics UrlPulse.Web.AnalyticsPage
open UrlPulse.Data
open UrlPulse.Data.Phased (Step)

/-! The analytics page in one tab, with the server that its requests go to.  A request
is processed some time after it is sent, and its response reaches the tab some time
after that; meanwhile other requests and the worker's runs go on at the server.
-/

variable {Tag World : Type}

/-- `?handler=...&monitorId=...&range=...`, taken up at some time. -/
def toWeb (asked : Selection) (utcNow : DateTime) : Panel → WebRequest World
  | .stats => .stats utcNow asked.monitorId asked.range
  | .latencyData => .latencyData utcNow asked.monitorId asked.range
  | .regionSummary => .regionSummary utcNow asked.monitorId asked.range
  | .statusDistribution => .statusDistribution utcNow asked.monitorId asked.range

/-- What the script of a panel draws from a response; `res.json()` throws at an error page. -/
def drawResponse (page : Page) : Panel → Response → Page
  | .stats, .stats data => { page with statsRow := statsRow data }
  | .latencyData, .latencyData series => { page with latencyChart := some (apexSeries series) }
  | .regionSummary, .regionSummary data => { page with regionChart := some (regionData data) }
  | .statusDistribution, .statusDistribution data =>
      { page with statusChart := some (statusChart data) }
  | _, _ => page

/-- The requests the page has under way are those the server has not processed yet. -/
structure Tab (Tag World : Type) where
  server : System Tag World
  page : Page := {}
  responses : List (Panel × Response) := []

inductive Event (Tag World : Type) where
  | change (id : Option Int)
  | click (range : String)
  | server (next : Step Tag (Operation World))
  | process (panel : Panel) (asked : Selection) (utcNow : DateTime)
  | deliver (panel : Panel) (response : Response)

namespace Tab

variable [DecidableEq Tag] (userId : Option String) (tab : Tab Tag World)

def process (panel : Panel) (asked : Selection) (utcNow : DateTime) : Tab Tag World :=
  if tab.page.inFlight.contains (panel, asked) then
    { server := Phased.step (machine World) tab.server (.call (.web userId (toWeb asked utcNow panel)))
      page := { tab.page with inFlight := tab.page.inFlight.erase (panel, asked) }
      responses :=
        (panel, (handle userId (toWeb asked utcNow panel : WebRequest World) tab.server.store).1) ::
          tab.responses }
  else tab

def deliver (panel : Panel) (response : Response) : Tab Tag World :=
  if (panel, response) ∈ tab.responses then
    { tab with
      page := drawResponse tab.page panel response
      responses := tab.responses.erase (panel, response) }
  else tab

def step : Event Tag World → Tab Tag World
  | .change id => { tab with page := tab.page.onChange id }
  | .click range => { tab with page := tab.page.onClick range }
  | .server next => { tab with server := Phased.step (machine World) tab.server next }
  | .process panel asked utcNow => tab.process userId panel asked utcNow
  | .deliver panel response => tab.deliver panel response

def run : Tab Tag World → List (Event Tag World) → Tab Tag World
  | tab, [] => tab
  | tab, next :: rest => run (tab.step userId next) rest

/-- Nothing is under way. -/
def Quiet (tab : Tab Tag World) : Prop :=
  tab.page.inFlight = [] ∧ tab.responses = []

end Tab

end UrlPulse.Web.AnalyticsTab
