import TmsApi.Properties.Tenancy
import TmsApi.Properties.Hierarchy
import TmsApi.Properties.ProjectLinks
import TmsApi.Properties.Assignments
import TmsApi.Properties.Privileges
import TmsApi.Properties.Refusals
import TmsApi.Properties.Interruptions
import TmsApi.Properties.Rejections
import TmsApi.Properties.Backdating
import TmsApi.Properties.Queue
import TmsApi.Properties.Confidentiality
import TmsApi.Properties.Rotation
import TmsApi.Properties.Revocation
import TmsApi.Properties.SettingsRange
import TmsApi.Properties.DailyLimit
import TmsApi.Properties.Descriptions
import TmsApi.Properties.Weeks
import TmsApi.Properties.WeekPartition
import TmsApi.Properties.Freeze
import TmsApi.Properties.Lifecycle
import TmsApi.Properties.Ledger
import TmsApi.Properties.Aggregates
import TmsApi.Properties.Monthly
import TmsApi.Properties.Copies
import TmsApi.Properties.WorkingHours
import TmsApi.Properties.ServerDates
import TmsApi.Properties.CsvExport
import TmsApi.Properties.Replacement
import TmsApi.Properties.EntryUpdates
import TmsApi.Properties.Paging
import TmsApi.Properties.Authentication
import TmsApi.Concurrency.Decisions
import TmsApi.Concurrency.Closing
import TmsApi.Concurrency.EntryEdits
import TmsApi.Concurrency.WeekRace
import TmsApi.Concurrency.Refreshes
import TmsApi.Concurrency.Bookings
import TmsApi.Properties.Rosters
import TmsApi.Properties.Workbooks
import TmsApi.Properties.MonthlySheets
import TmsApi.Properties.Isolation
