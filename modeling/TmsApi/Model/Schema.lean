import TmsApi.Core.Table
import TmsApi.Core.Week
import TmsApi.Core.LocalTime
import TmsApi.Model.Errors
import Mathlib.Data.Rat.Defs

/-!
# The database schema

The rows of `schema.prisma` and the database they form.  Hours are exact
rationals.  The seven parallel hour, description and time-off columns of a
time entry are one `Week` each.  `varchar` and `text` are the widths of the
migrations' string columns.

`Integrity` states the foreign keys of the schema.  It is the guarantee of the
database server, and `TmsApi.Model.Prisma` shows that every statement keeps
it.
-/

namespace TmsApi

open TmsApi.Core

/-! ## Rows -/

structure Organisation where
  id : Nat
  name : String
deriving DecidableEq

inductive TimeFormat where
  | decimal
  | hhmm
deriving DecidableEq

inductive Weekday where
  | monday
  | tuesday
  | wednesday
  | thursday
  | friday
  | saturday
  | sunday
deriving DecidableEq

structure OrgSettings where
  id : Nat
  organisationId : Nat
  workWeekStart : WorkWeekStart
  standardHours : ℚ
  timeFormat : TimeFormat
  timeIncrement : Nat
  maxHoursPerDay : ℚ
  maxHoursPerWeek : ℚ
  requireApproval : Bool
  allowBackdated : Bool
  enableOvertime : Bool
  mandatoryDesc : Bool
  allowCopyWeek : Bool
  dailyReminderTime : Option String
  weeklyDeadline : Option Weekday
  payrollType : Option String
  pmType : Option String
deriving DecidableEq

/-- The column defaults of `OrgSettings`. -/
def OrgSettings.defaults (organisationId id : Nat) : OrgSettings where
  id := id
  organisationId := organisationId
  workWeekStart := .monday
  standardHours := 8
  timeFormat := .decimal
  timeIncrement := 30
  maxHoursPerDay := 24
  maxHoursPerWeek := 60
  requireApproval := true
  allowBackdated := true
  enableOvertime := true
  mandatoryDesc := false
  allowCopyWeek := true
  dailyReminderTime := none
  weeklyDeadline := none
  payrollType := none
  pmType := none

structure User where
  id : Nat
  organisationId : Nat
  name : String
  email : String
  passwordHash : String
  role : UserRole
  department : Option String
  status : ActiveStatus
  refreshToken : Option String
  createdAt : Instant
  updatedAt : Instant
deriving DecidableEq

structure ManagerEmployee where
  id : Nat
  managerId : Nat
  employeeId : Nat
deriving DecidableEq

structure Project where
  id : Nat
  organisationId : Nat
  code : String
  name : String
  client : String
  budgetHours : ℚ
  usedHours : ℚ
  status : ActiveStatus
  createdAt : Instant
  updatedAt : Instant
deriving DecidableEq

structure ProjectManager where
  id : Nat
  projectId : Nat
  managerId : Nat
deriving DecidableEq

structure ProjectEmployee where
  id : Nat
  projectId : Nat
  employeeId : Nat
deriving DecidableEq

structure Timesheet where
  id : Nat
  organisationId : Nat
  userId : Nat
  weekStartDate : Instant
  weekEndDate : Instant
  status : TimesheetStatus
  totalHours : ℚ
  billableHours : ℚ
  approvedById : Option Nat
  approvedAt : Option Instant
  rejectedReason : Option String
  updatedAt : Instant
deriving DecidableEq

structure TimeEntry where
  id : Nat
  timesheetId : Nat
  projectId : Nat
  billable : Bool
  hours : Week ℚ
  desc : Week (Option String)
  timeOff : Week ℚ
  totalHours : ℚ
  createdAt : Instant
deriving DecidableEq

structure Holiday where
  id : Nat
  organisationId : Nat
  name : String
  date : Instant
  recurring : Bool
deriving DecidableEq

inductive NotificationType where
  | timesheetDue
  | approved
  | rejected
  | reminder
deriving DecidableEq

structure Notification where
  id : Nat
  userId : Nat
  type : NotificationType
  message : String
  read : Bool
  createdAt : Instant
deriving DecidableEq

instance : Keyed Organisation := ⟨Organisation.id⟩
instance : Keyed OrgSettings := ⟨OrgSettings.id⟩
instance : Keyed User := ⟨User.id⟩
instance : Keyed ManagerEmployee := ⟨ManagerEmployee.id⟩
instance : Keyed Project := ⟨Project.id⟩
instance : Keyed ProjectManager := ⟨ProjectManager.id⟩
instance : Keyed ProjectEmployee := ⟨ProjectEmployee.id⟩
instance : Keyed Timesheet := ⟨Timesheet.id⟩
instance : Keyed TimeEntry := ⟨TimeEntry.id⟩
instance : Keyed Holiday := ⟨Holiday.id⟩
instance : Keyed Notification := ⟨Notification.id⟩

/-! ## Column widths -/

/-- The value fits a `VARCHAR(191)` column. -/
def varchar (s : String) : Prop := s.length ≤ 191

instance (s : String) : Decidable (varchar s) :=
  inferInstanceAs (Decidable (s.length ≤ 191))

/-- A nullable `VARCHAR(191)` value. -/
def varchar? (s : Option String) : Prop := ∀ v ∈ s, varchar v

instance (s : Option String) : Decidable (varchar? s) :=
  inferInstanceAs (Decidable (∀ v ∈ s, varchar v))

/-- A nullable `TEXT` value, bounded in bytes. -/
def text? (s : Option String) : Prop := ∀ v ∈ s, v.utf8ByteSize ≤ 65535

instance : DecidablePred text? := fun s =>
  inferInstanceAs (Decidable (∀ v ∈ s, v.utf8ByteSize ≤ 65535))

/-! ## The database -/

structure Db where
  organisations : Table Organisation
  orgSettings : Table OrgSettings
  users : Table User
  managerEmployees : Table ManagerEmployee
  projects : Table Project
  projectManagers : Table ProjectManager
  projectEmployees : Table ProjectEmployee
  timesheets : Table Timesheet
  timeEntries : Table TimeEntry
  holidays : Table Holiday
  notifications : Table Notification

namespace Db

/-- The freshly migrated database. -/
def empty : Db where
  organisations := .empty
  orgSettings := .empty
  users := .empty
  managerEmployees := .empty
  projects := .empty
  projectManagers := .empty
  projectEmployees := .empty
  timesheets := .empty
  timeEntries := .empty
  holidays := .empty
  notifications := .empty

/-- `orgSettings.findUnique` by organisation. -/
def settingsOf (db : Db) (orgId : Nat) : Option OrgSettings :=
  db.orgSettings.find? (fun s => s.organisationId = orgId)

/-- `timeEntry.findMany` by timesheet. -/
def entriesOf (db : Db) (timesheetId : Nat) : List TimeEntry :=
  db.timeEntries.select (fun e => e.timesheetId = timesheetId)

/-- The user with this identifier belongs to the organisation. -/
def Member (db : Db) (userId orgId : Nat) : Prop :=
  ∃ u ∈ db.users.rows, u.id = userId ∧ u.organisationId = orgId

instance (db : Db) (userId orgId : Nat) : Decidable (db.Member userId orgId) :=
  inferInstanceAs
    (Decidable (∃ u ∈ db.users.rows, u.id = userId ∧ u.organisationId = orgId))

/-- The foreign keys of the schema. -/
structure Integrity (db : Db) : Prop where
  settings_org :
    References db.orgSettings (·.organisationId) db.organisations
  user_org : References db.users (·.organisationId) db.organisations
  link_manager : References db.managerEmployees (·.managerId) db.users
  link_employee : References db.managerEmployees (·.employeeId) db.users
  project_org : References db.projects (·.organisationId) db.organisations
  projectManager_project :
    References db.projectManagers (·.projectId) db.projects
  projectManager_user : References db.projectManagers (·.managerId) db.users
  projectEmployee_project :
    References db.projectEmployees (·.projectId) db.projects
  projectEmployee_user :
    References db.projectEmployees (·.employeeId) db.users
  timesheet_org :
    References db.timesheets (·.organisationId) db.organisations
  timesheet_user : References db.timesheets (·.userId) db.users
  timesheet_approver :
    ∀ t ∈ db.timesheets.rows, ∀ u ∈ t.approvedById, db.users.HasKey u
  entry_timesheet : References db.timeEntries (·.timesheetId) db.timesheets
  entry_project : References db.timeEntries (·.projectId) db.projects
  holiday_org : References db.holidays (·.organisationId) db.organisations
  notification_user : References db.notifications (·.userId) db.users

theorem integrity_empty : Integrity empty := by
  constructor <;> intro row member <;> simp [empty] at member

end Db

end TmsApi
