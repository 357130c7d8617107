import UrlPulse.Data.Linq
import UrlPulse.Data.Phased
import UrlPulse.Core.Models
import UrlPulse.Infrastructure.ApplicationDbContext
import UrlPulse.Infrastructure.UrlChecker
import UrlPulse.Worker.UrlMonitorFunction
import UrlPulse.Web.Index
import UrlPulse.Web.Analytics
import UrlPulse.System
import UrlPulse.Tenancy
import UrlPulse.Batch
import UrlPulse.Deletion
import UrlPulse.Data.Removal
import UrlPulse.Deletes
import UrlPulse.Data.ReadModifyWrite
import UrlPulse.Toggle
import UrlPulse.Regions
import UrlPulse.Data.Throttle
import UrlPulse.Timetable
import UrlPulse.Cadence
import UrlPulse.Web.Reconciliation
import UrlPulse.Data.Statistics
import UrlPulse.Web.Percentile
import UrlPulse.Web.Bucketing
import UrlPulse.Web.Regional
import UrlPulse.Data.AsyncView
import UrlPulse.Web.AnalyticsPage
import UrlPulse.Web.Settling
import UrlPulse.Web.RowOrder
import UrlPulse.Checks
import UrlPulse.Web.MonitorTable
import UrlPulse.Ownership
import UrlPulse.Status
import UrlPulse.Web.Measured
import UrlPulse.Data.Eventual
import UrlPulse.Web.IndexPage
import UrlPulse.Dashboard
import UrlPulse.Resting
import UrlPulse.DueTest
import UrlPulse.Web.Uptime
import UrlPulse.Data.Nest
import UrlPulse.Directory
import UrlPulse.Journal
import UrlPulse.Pause
import UrlPulse.Data.Serial
import UrlPulse.Serial
import UrlPulse.Web.Zoom
import UrlPulse.Data.Schema
import UrlPulse.Infrastructure.Migrations
import UrlPulse.Legacy
import UrlPulse.Posted
import UrlPulse.Recovery
import UrlPulse.Throughput
import UrlPulse.Freshness
import UrlPulse.Data.Relabel
import UrlPulse.Addresses
import UrlPulse.Capacity
import UrlPulse.Limits
import UrlPulse.Coverage
import UrlPulse.Agreement
import UrlPulse.Answered
