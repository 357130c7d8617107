import UrlPulse.Data.Linq
import UrlPulse.Infrastructure.ApplicationDbContext

namespace UrlPulse.Web.Index

open UrlPulse.Core UrlPulse.Infrastructure UrlPulse.Data.Linq

/-! The dashboard handlers, each up to its `SaveChangesAsync`: what it tracks on
its context and what it answers once the save has gone through. -/

/-- The projection of a monitor the table shows; the owner is not part of it. -/
structure MonitorListing where
  id : Int
  url : String
  checkIntervalMinutes : Int32
  timeoutMs : Int32
  createdAt : DateTime
  isActive : Bool
  isPaused : Bool
  history : List LatencyHistory
deriving DecidableEq, Repr

inductive ActionResult where
  | page (urlMonitors : List MonitorListing)
  | partialView (viewName : String) (model : List MonitorListing)
  | redirectToPage
  | ok
  | notFound
  | isPaused (value : Bool)
deriving DecidableEq, Repr

/-- A posted form.  `bindingFailed` says that a number in it did not parse,
which is a model error like those of the attributes. -/
structure CreateForm where
  inputUrl : String
  inputInterval : Option Int32 := none
  inputTimeout : Option Int32 := none
  bindingFailed : Bool := false
deriving DecidableEq, Repr

/-- `^https?://.*` over the whole string; the dot stops at a line feed. -/
def matchesUrlPattern (url : String) : Bool :=
  ("http://".toList.isPrefixOf url.toList || "https://".toList.isPrefixOf url.toList) &&
    !url.toList.contains '\n'

/-- `ModelState.IsValid`: the field is required and must match the pattern. -/
def CreateForm.isValid (form : CreateForm) : Bool :=
  !form.bindingFailed && !isNullOrWhiteSpace form.inputUrl && matchesUrlPattern form.inputUrl

/-- `ORDER BY ... DESC LIMIT 1` leaves open which of several rows with one time it is;
here it is the first inserted. -/
def onGetAsync (context : ApplicationDbContext) (store : Store) : List MonitorListing :=
  (orderByDescending (·.createdAt) (context.urlMonitors store)).map fun u =>
    { id := u.id
      url := u.url
      checkIntervalMinutes := u.checkIntervalMinutes
      timeoutMs := u.timeoutMs
      createdAt := u.createdAt
      isActive := u.isActive
      isPaused := u.isPaused
      history := (orderByDescending (·.checkedAt) (context.history store u.id)).take 1 }

def onGetMonitorsPartialAsync (context : ApplicationDbContext) (store : Store) : ActionResult :=
  .partialView "_MonitorTable" (onGetAsync context store)

def newMonitor (form : CreateForm) (utcNow : DateTime) : UrlMonitor where
  url := form.inputUrl
  createdAt := utcNow
  checkIntervalMinutes := form.inputInterval.getD 1
  timeoutMs := form.inputTimeout.getD 5000
  isActive := true

def creationRow (result : UrlCheckResult) : LatencyHistory where
  checkedAt := result.checkedAt
  latencyMs := result.latencyMs.getD 0
  statusCode := result.statusCode
  errorMessage := if result.isUp then "" else "Initial check failed"

def onPostAsync {World : Type} (checker : IUrlChecker World) (world : World) (utcNow : DateTime)
    (form : CreateForm) (context : ApplicationDbContext) (store : Store) :
    Except Fault (ApplicationDbContext × ActionResult) :=
  if !form.isValid then .ok (context, .page (onGetAsync context store))
  else
    let finalTimeout := form.inputTimeout.getD 5000
    match checker form.inputUrl finalTimeout world with
    | .error fault => .error fault
    | .ok (result, _) =>
        .ok (context.track (.addedMonitor (newMonitor form utcNow) [creationRow result]),
          .redirectToPage)

def onPostDeleteAsync (id : Int) (context : ApplicationDbContext) (store : Store) :
    ApplicationDbContext × ActionResult :=
  match context.findMonitor store id with
  | some urlMonitor => (context.track (.deletedMonitor urlMonitor.id), .ok)
  | none => (context, .ok)

def onPostSetPauseAsync (id : Int) (context : ApplicationDbContext) (store : Store) :
    ApplicationDbContext × ActionResult :=
  match context.findMonitor store id with
  | none => (context, .notFound)
  | some monitor =>
      (context.track (.modifiedIsPaused monitor.id !monitor.isPaused), .isPaused !monitor.isPaused)

end UrlPulse.Web.Index
