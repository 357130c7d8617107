import Mathlib.Data.String.Basic
import UrlPulse.Data.Linq
import UrlPulse.Data.Rounding
import UrlPulse.Infrastructure.ApplicationDbContext

namespace UrlPulse.Web.Analytics

open UrlPulse.Core UrlPulse.Infrastructure UrlPulse.Data.Linq UrlPulse.Data.Rounding

/-! The analytics page: the monitor selector and the four JSON handlers.  Each
handler reads the rows of one window and aggregates them in memory; means and
quotients are exact rationals. -/

structure MonitorOption where
  id : Int
  url : String
  isActive : Bool
  isPaused : Bool
deriving DecidableEq, Repr

def onGetAsync (context : ApplicationDbContext) (store : Store) : List MonitorOption :=
  (orderByDescending (·.createdAt) (context.urlMonitors store)).map fun u =>
    { id := u.id, url := u.url, isActive := u.isActive, isPaused := u.isPaused }

/-! ## Private helpers -/

def rangeLength (range : String) : Nat :=
  if range = "1h" then TimeSpan.fromHours 1
  else if range = "6h" then TimeSpan.fromHours 6
  else if range = "7d" then TimeSpan.fromDays 7
  else if range = "30d" then TimeSpan.fromDays 30
  else TimeSpan.fromHours 24

/-- The clock in whole microseconds, as the query's parameter carries the result. -/
def parseRange (utcNow : DateTime) (range : String) : Int :=
  (utcNow : Int) - rangeLength range

def getBucketSize (range : String) : Nat :=
  if range = "1h" then TimeSpan.fromMinutes 1
  else if range = "6h" then TimeSpan.fromMinutes 5
  else if range = "24h" then TimeSpan.fromMinutes 15
  else if range = "7d" then TimeSpan.fromHours 1
  else if range = "30d" then TimeSpan.fromHours 6
  else TimeSpan.fromMinutes 15

def truncateToBucket (dt : DateTime) (bucket : Nat) : DateTime :=
  dt / bucket * bucket

/-- Nearest rank on a sorted list, with the index clamped into it. -/
def percentile (sorted : List Nat) (p : ℚ) : Nat :=
  if sorted.length = 0 then 0
  else
    let index : Int := ⌈p * sorted.length⌉ - 1
    sorted.getD (max 0 (min index (sorted.length - 1))).toNat 0

/-- `(int)values.Average()`. -/
def truncatedAverage (values : List Nat) : Nat :=
  values.sum / values.length

/-- `Math.Round(x, digits)`. -/
def round (x : ℚ) (digits : Nat) : ℚ :=
  roundHalfEven (x * 10 ^ digits) / 10 ^ digits

def isSuccess (row : LatencyHistory) : Bool :=
  200 ≤ row.statusCode && row.statusCode < 300

/-! ## The window a handler reads -/

/-- `SelectMany` over the filtered monitors, so an id of someone else selects nothing. -/
def windowRows (context : ApplicationDbContext) (store : Store) (monitorId : Int) (since : Int) :
    List LatencyHistory :=
  (((context.urlMonitors store).filter fun u => u.id = monitorId).flatMap
    fun u => context.history store u.id).filter fun h => since ≤ (h.checkedAt : Int)

/-! ## Latency over time -/

structure LatencyPoint where
  x : DateTime
  y : Nat
  errors : Nat
deriving DecidableEq, Repr

structure LatencySeries where
  name : String
  data : List LatencyPoint
deriving DecidableEq, Repr

def isError (row : LatencyHistory) : Bool :=
  row.statusCode = 0 || 400 ≤ row.statusCode

/-- `ORDER BY CheckedAt`, then grouped by region, then by time bucket. -/
def latencyData (bucket : Nat) (rows : List LatencyHistory) : List LatencySeries :=
  (groupBy (·.region)
    ((orderBy (·.checkedAt) rows).filter fun h => !isNullOrWhiteSpace h.region)).map fun g =>
      { name := g.1
        data := (orderBy Prod.fst (groupBy (fun h => truncateToBucket h.checkedAt bucket) g.2)).map
          fun b => { x := b.1
                     y := truncatedAverage (b.2.map (·.latencyMs))
                     errors := b.2.countP isError } }

def onGetLatencyDataAsync (context : ApplicationDbContext) (store : Store) (utcNow : DateTime)
    (monitorId : Int) (range : String) : List LatencySeries :=
  latencyData (getBucketSize range)
    (windowRows context store monitorId (parseRange utcNow range))

/-! ## Regional comparison -/

structure RegionSummary where
  region : String
  avgLatency : Nat
  p95Latency : Nat
  successPct : ℚ
  totalChecks : Nat
deriving DecidableEq, Repr

def regionSummary (rows : List LatencyHistory) : List RegionSummary :=
  orderBy (·.avgLatency)
    ((groupBy (·.region) (rows.filter fun h => !isNullOrWhiteSpace h.region)).map fun g =>
      let sorted := orderBy id (g.2.map (·.latencyMs))
      { region := g.1
        avgLatency := truncatedAverage sorted
        p95Latency := percentile sorted (95 / 100)
        successPct := round ((g.2.countP isSuccess : ℚ) / g.2.length * 100) 1
        totalChecks := g.2.length })

def onGetRegionSummaryAsync (context : ApplicationDbContext) (store : Store) (utcNow : DateTime)
    (monitorId : Int) (range : String) : List RegionSummary :=
  regionSummary (windowRows context store monitorId (parseRange utcNow range))

/-! ## Stat cards -/

structure Stats where
  totalChecks : Nat
  uptimePercent : ℚ
  avgLatency : Nat
  p50 : Nat
  p95 : Nat
  p99 : Nat
  outages : Nat
deriving DecidableEq, Repr

def isOutage (row : LatencyHistory) : Bool :=
  row.statusCode = 0 || 500 ≤ row.statusCode

def successCount (records : List LatencyHistory) : Nat :=
  records.countP isSuccess

/-- An empty window answers `null`. -/
def stats (records : List LatencyHistory) : Option Stats :=
  if records.length = 0 then none
  else
    let sorted := orderBy id (records.map (·.latencyMs))
    some { totalChecks := records.length
           uptimePercent := round ((successCount records : ℚ) / records.length * 100) 2
           avgLatency := truncatedAverage sorted
           p50 := percentile sorted (50 / 100)
           p95 := percentile sorted (95 / 100)
           p99 := percentile sorted (99 / 100)
           outages := records.countP isOutage }

def onGetStatsAsync (context : ApplicationDbContext) (store : Store) (utcNow : DateTime)
    (monitorId : Int) (range : String) : Option Stats :=
  stats (windowRows context store monitorId (parseRange utcNow range))

/-! ## Status distribution -/

structure StatusCount where
  label : String
  count : Nat
deriving DecidableEq, Repr

/-- The family `2xx`, `3xx`, ... -/
def familyLabel (family : Nat) : String := toString family ++ "xx"

def statusLabel (code : Nat) : String :=
  if code = 0 then "Timeout" else familyLabel (code / 100)

def statusDistribution (rows : List LatencyHistory) : List StatusCount :=
  orderBy (·.label)
    ((groupBy statusLabel (rows.map (·.statusCode))).map fun g =>
      { label := g.1, count := g.2.length })

def onGetStatusDistributionAsync (context : ApplicationDbContext) (store : Store)
    (utcNow : DateTime) (monitorId : Int) (range : String) : List StatusCount :=
  statusDistribution (windowRows context store monitorId (parseRange utcNow range))

end UrlPulse.Web.Analytics
