import UrlPulse.Web.Analytics

namespace UrlPulse.Web.AnalyticsPage

open UrlPulse.Core UrlPulse.Infrastructure UrlPulse.Data.Linq UrlPulse.Web.Analytics

/-! The script of the analytics page: what it draws from the four answers, and
what it keeps between the user's choices and the responses. -/

/-! ## Drawing -/

def regionColors : List (String × String) :=
  [("eastus2", "#0d6efd"), ("westus3", "#20c997"), ("northcentralus", "#fd7e14"),
    ("southcentralus", "#6f42c1"), ("canadacentral", "#dc3545")]

def regionOrder : List String :=
  ["eastus2", "westus3", "northcentralus", "southcentralus", "canadacentral"]

def statusColors : List (String × String) :=
  [("2xx", "#198754"), ("3xx", "#0d6efd"), ("4xx", "#fd7e14"), ("5xx", "#dc3545"),
    ("Timeout", "#6c757d")]

/-- `colors[name] ?? '#adb5bd'`. -/
def colorOf (colors : List (String × String)) (name : String) : String :=
  (colors.lookup name).getD "#adb5bd"

/-- `Array.prototype.indexOf`. -/
def indexOf (values : List String) (value : String) : Int :=
  match values.findIdx? (· = value) with
  | some index => index
  | none => -1

/-- What both sorts compare: a region that is not in the order counts as 999. -/
def regionRank (name : String) : Int :=
  if indexOf regionOrder name = -1 then 999 else indexOf regionOrder name

structure StatusChart where
  series : List Nat
  labels : List String
  colors : List String
deriving DecidableEq, Repr

structure ApexPoint where
  x : Int
  y : Nat
  errors : Nat
deriving DecidableEq, Repr

structure ApexSeries where
  name : String
  color : String
  data : List ApexPoint
deriving DecidableEq, Repr

/-- Ticks of the first instant of 1970. -/
def unixEpoch : Nat := 621355968000000000

/-- `new Date(x).getTime()`. -/
def getTime (x : DateTime) : Int :=
  ((x : Int) - unixEpoch) / TimeSpan.ticksPerMillisecond

def apexSeriesOf (s : LatencySeries) : ApexSeries where
  name := s.name
  color := colorOf regionColors s.name
  data := s.data.map fun d => { x := getTime d.x, y := d.y, errors := d.errors }

def apexSeries (series : List LatencySeries) : List ApexSeries :=
  orderBy (fun s => regionRank s.name) (series.map apexSeriesOf)

def regionData (data : List RegionSummary) : List RegionSummary :=
  orderBy (fun entry => regionRank entry.region) data

def statusChart (data : List StatusCount) : StatusChart where
  series := data.map (·.count)
  labels := data.map (·.label)
  colors := data.map fun d => colorOf statusColors d.label

inductive StatsRow where
  | empty
  | noData
  | cards (uptimePercent : ℚ) (uptimeClass : String)
      (avgLatency p50 p95 p99 totalChecks : Nat)
deriving DecidableEq, Repr

def uptimeClass (uptimePercent : ℚ) : String :=
  if 99 ≤ uptimePercent then "text-success"
  else if 95 ≤ uptimePercent then "text-warning"
  else "text-danger"

def statsRow : Option Stats → StatsRow
  | none => .noData
  | some data =>
      .cards data.uptimePercent (uptimeClass data.uptimePercent) data.avgLatency data.p50
        data.p95 data.p99 data.totalChecks

/-! ## Choices and responses -/

inductive Panel where
  | stats
  | latencyData
  | regionSummary
  | statusDistribution
deriving DecidableEq, Repr

def panels : List Panel := [.stats, .latencyData, .regionSummary, .statusDistribution]

/-- The two values a request's address is made of when it is sent. -/
structure Selection where
  monitorId : Int
  range : String
deriving DecidableEq, Repr

/-- The script's own variables, and the requests that are not answered yet. -/
structure Session where
  currentMonitorId : Option Int := none
  currentRange : String := "24h"
  inFlight : List (Panel × Selection) := []
deriving DecidableEq, Repr

structure Page extends Session where
  statsRow : StatsRow := .empty
  latencyChart : Option (List ApexSeries) := none
  regionChart : Option (List RegionSummary) := none
  statusChart : Option StatusChart := none
deriving DecidableEq, Repr

/-- What the four handlers answer to a monitor and a range. -/
structure Answers where
  stats : Int → String → Option Stats
  latencyData : Int → String → List LatencySeries
  regionSummary : Int → String → List RegionSummary
  statusDistribution : Int → String → List StatusCount

def answersOf (context : ApplicationDbContext) (store : Store) (utcNow : DateTime) : Answers where
  stats := onGetStatsAsync context store utcNow
  latencyData := onGetLatencyDataAsync context store utcNow
  regionSummary := onGetRegionSummaryAsync context store utcNow
  statusDistribution := onGetStatusDistributionAsync context store utcNow

/-- `change` carries `parseInt(this.value)`, with `none` for NaN. -/
inductive Event where
  | change (id : Option Int)
  | click (range : String)
  | response (panel : Panel) (selection : Selection)
deriving DecidableEq, Repr

namespace Page

variable (page : Page)

def destroyCharts : Page :=
  { page with latencyChart := none, regionChart := none, statusChart := none }

def showEmptyState : Page :=
  { page.destroyCharts with currentMonitorId := none, statsRow := .empty }

/-- The four requests go out before the first of them is answered. -/
def loadAll (monitorId : Int) : Page :=
  { page with inFlight := page.inFlight ++
      panels.map fun panel => (panel, ⟨monitorId, page.currentRange⟩) }

def onChange : Option Int → Page
  | none => page.showEmptyState
  | some id => { page with currentMonitorId := some id }.destroyCharts.loadAll id

/-- `!currentMonitorId` holds of 0 as it does of null. -/
def onClick (range : String) : Page :=
  match page.currentMonitorId with
  | none => page
  | some id => if id = 0 then page else { page with currentRange := range }.loadAll id

def draw (answers : Answers) (asked : Selection) : Panel → Page
  | .stats =>
      { page with
        statsRow := AnalyticsPage.statsRow (answers.stats asked.monitorId asked.range) }
  | .latencyData =>
      { page with
        latencyChart := some (apexSeries (answers.latencyData asked.monitorId asked.range)) }
  | .regionSummary =>
      { page with
        regionChart := some (regionData (answers.regionSummary asked.monitorId asked.range)) }
  | .statusDistribution =>
      { page with
        statusChart := some (AnalyticsPage.statusChart
          (answers.statusDistribution asked.monitorId asked.range)) }

def onResponse (answers : Answers) (panel : Panel) (selection : Selection) : Page :=
  if (panel, selection) ∈ page.inFlight then
    { (page.draw answers selection panel) with
      inFlight := page.inFlight.erase (panel, selection) }
  else page

def step (answers : Answers) : Event → Page
  | .change id => page.onChange id
  | .click range => page.onClick range
  | .response panel selection => page.onResponse answers panel selection

end Page

def run (answers : Answers) : Page → List Event → Page
  | page, [] => page
  | page, next :: rest => run answers (page.step answers next) rest

end UrlPulse.Web.AnalyticsPage
