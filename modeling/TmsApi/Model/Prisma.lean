import TmsApi.Core.Program
import TmsApi.Model.Dto

/-!
# Prisma statements

Each definition is one call of the Prisma client as a transaction on the
database: it answers and changes the state, or it raises a driver fault and
leaves the state as it was.  A statement checks the column widths, unique
indexes and foreign keys of the columns it writes.  Deleting a timesheet
cascades to its entries, deleting a project cascades to its manager and
employee links and is refused while a time entry refers to it.

Strings are compared through the collation key of the database, which is a
parameter.  The last section shows that every statement keeps the foreign
keys.
-/

namespace TmsApi

open TmsApi.Core

/-- A statement or an interactive transaction. -/
abbrev Tx (α : Type) := StateT Db (Except Thrown) α

/-- A service function: a program over the database. -/
abbrev Service (α : Type) := Program Db Thrown α

/-- Raise a driver fault unless the condition holds. -/
@[irreducible]
def ensure {α : Type} (condition : Prop) [Decidable condition]
    (fault : DriverFault) (result : Except Thrown α) : Except Thrown α :=
  if condition then result else .error (.driver fault)

@[simp]
theorem ensure_eq_ok {α : Type} {condition : Prop} [Decidable condition]
    {fault : DriverFault} {result : Except Thrown α} {a : α} :
    ensure condition fault result = .ok a ↔ condition ∧ result = .ok a := by
  by_cases holds : condition <;> simp [ensure, holds]

theorem ensure_of {α : Type} {condition : Prop} [Decidable condition]
    (holds : condition) (fault : DriverFault)
    (result : Except Thrown α) :
    ensure condition fault result = result := by
  simp [ensure, holds]

/-! ## Partial updates -/

/-- The columns a `user.update` writes. -/
structure UserUpdate where
  name : Option String := none
  role : Option UserRole := none
  department : Option String := none
  status : Option ActiveStatus := none
  refreshToken : Option (Option String) := none
deriving DecidableEq

/-- The written columns; an update without columns keeps `updatedAt`. -/
def UserUpdate.apply (data : UserUpdate) (now : Instant) (u : User) : User :=
  { u with
    name := data.name.getD u.name
    role := data.role.getD u.role
    department := data.department.or u.department
    status := data.status.getD u.status
    refreshToken := data.refreshToken.getD u.refreshToken
    updatedAt := if data = {} then u.updatedAt else now }

instance (data : UserUpdate) (now : Instant) :
    Table.KeepsKey (data.apply now) := ⟨fun _ => rfl⟩

/-- The columns a `project.update` with the body of the API writes. -/
structure ProjectUpdate where
  code : Option String := none
  name : Option String := none
  client : Option String := none
  budgetHours : Option ℚ := none
  status : Option ActiveStatus := none
deriving DecidableEq

/-- The written columns; an update without columns keeps `updatedAt`. -/
def ProjectUpdate.apply (data : ProjectUpdate) (now : Instant)
    (p : Project) : Project :=
  { p with
    code := data.code.getD p.code
    name := data.name.getD p.name
    client := data.client.getD p.client
    budgetHours := data.budgetHours.getD p.budgetHours
    status := data.status.getD p.status
    updatedAt := if data = {} then p.updatedAt else now }

instance (data : ProjectUpdate) (now : Instant) :
    Table.KeepsKey (data.apply now) := ⟨fun _ => rfl⟩

/-- The columns a `timesheet.update` writes. -/
structure TimesheetUpdate where
  weekStartDate : Option Instant := none
  status : Option TimesheetStatus := none
  totalHours : Option ℚ := none
  billableHours : Option ℚ := none
  approvedById : Option Nat := none
  approvedAt : Option Instant := none
  rejectedReason : Option (Option String) := none
deriving DecidableEq

/-- The written columns; an update without columns keeps `updatedAt`. -/
def TimesheetUpdate.apply (data : TimesheetUpdate) (now : Instant)
    (t : Timesheet) : Timesheet :=
  { t with
    weekStartDate := data.weekStartDate.getD t.weekStartDate
    status := data.status.getD t.status
    totalHours := data.totalHours.getD t.totalHours
    billableHours := data.billableHours.getD t.billableHours
    approvedById := data.approvedById.or t.approvedById
    approvedAt := data.approvedAt.or t.approvedAt
    rejectedReason := data.rejectedReason.getD t.rejectedReason
    updatedAt := if data = {} then t.updatedAt else now }

instance (data : TimesheetUpdate) (now : Instant) :
    Table.KeepsKey (data.apply now) := ⟨fun _ => rfl⟩

/-- The columns a `timeEntry.update` writes. -/
structure TimeEntryUpdate where
  projectId : Option Nat
  billable : Option Bool
  hours : Week ℚ
  desc : Week (Option String)
  timeOff : Week ℚ
  totalHours : ℚ

def TimeEntryUpdate.apply (data : TimeEntryUpdate) (e : TimeEntry) :
    TimeEntry :=
  { e with
    projectId := data.projectId.getD e.projectId
    billable := data.billable.getD e.billable
    hours := data.hours
    desc := data.desc
    timeOff := data.timeOff
    totalHours := data.totalHours }

instance (data : TimeEntryUpdate) : Table.KeepsKey data.apply :=
  ⟨fun _ => rfl⟩

/-- The columns of an inserted time entry besides its key and timestamp. -/
structure TimeEntryData where
  timesheetId : Nat
  projectId : Nat
  billable : Bool
  hours : Week ℚ
  desc : Week (Option String)
  timeOff : Week ℚ
  totalHours : ℚ
deriving DecidableEq

def TimeEntryData.row (data : TimeEntryData) (now : Instant) (id : Nat) :
    TimeEntry where
  id := id
  timesheetId := data.timesheetId
  projectId := data.projectId
  billable := data.billable
  hours := data.hours
  desc := data.desc
  timeOff := data.timeOff
  totalHours := data.totalHours
  createdAt := now

instance (data : TimeEntryData) (now : Instant) :
    Table.Stamps (data.row now) := ⟨fun _ => rfl⟩

/-- The columns of an inserted timesheet. -/
structure TimesheetData where
  userId : Nat
  organisationId : Nat
  weekStartDate : Instant
  weekEndDate : Instant
  status : TimesheetStatus
  totalHours : ℚ := 0
  billableHours : ℚ := 0

def TimesheetData.row (data : TimesheetData) (now : Instant) (id : Nat) :
    Timesheet where
  id := id
  organisationId := data.organisationId
  userId := data.userId
  weekStartDate := data.weekStartDate
  weekEndDate := data.weekEndDate
  status := data.status
  totalHours := data.totalHours
  billableHours := data.billableHours
  approvedById := none
  approvedAt := none
  rejectedReason := none
  updatedAt := now

instance (data : TimesheetData) (now : Instant) :
    Table.Stamps (data.row now) := ⟨fun _ => rfl⟩

/-- The columns of an inserted user. -/
structure UserData where
  organisationId : Nat
  name : String
  email : String
  passwordHash : String
  role : UserRole
  department : Option String

def UserData.row (data : UserData) (now : Instant) (id : Nat) : User where
  id := id
  organisationId := data.organisationId
  name := data.name
  email := data.email
  passwordHash := data.passwordHash
  role := data.role
  department := data.department
  status := .active
  refreshToken := none
  createdAt := now
  updatedAt := now

instance (data : UserData) (now : Instant) : Table.Stamps (data.row now) :=
  ⟨fun _ => rfl⟩

/-- The columns of an inserted project. -/
structure ProjectData where
  organisationId : Nat
  code : String
  name : String
  client : String
  budgetHours : ℚ
  status : ActiveStatus

def ProjectData.row (data : ProjectData) (now : Instant) (id : Nat) :
    Project where
  id := id
  organisationId := data.organisationId
  code := data.code
  name := data.name
  client := data.client
  budgetHours := data.budgetHours
  usedHours := 0
  status := data.status
  createdAt := now
  updatedAt := now

instance (data : ProjectData) (now : Instant) : Table.Stamps (data.row now) :=
  ⟨fun _ => rfl⟩

/-- The columns of an inserted notification. -/
structure NotificationData where
  userId : Nat
  type : NotificationType
  message : String

def NotificationData.row (data : NotificationData) (now : Instant)
    (id : Nat) : Notification where
  id := id
  userId := data.userId
  type := data.type
  message := data.message
  read := false
  createdAt := now

instance (data : NotificationData) (now : Instant) :
    Table.Stamps (data.row now) := ⟨fun _ => rfl⟩

namespace Prisma

/--
`skip` and `take` of a query: a negative `skip` is refused, a negative `take`
counts from the end.
-/
def paginate {Row : Type} (skip take : Int) (rows : List Row) :
    Except Thrown (List Row) :=
  if skip < 0 then
    .error (.driver .invalidValue)
  else if 0 ≤ take then
    .ok ((rows.drop skip.toNat).take take.toNat)
  else
    .ok ((rows.reverse.drop skip.toNat).take take.natAbs).reverse

/-! ## Organisations and settings -/

instance (name : String) :
    Table.Stamps fun id => (⟨id, name⟩ : Organisation) :=
  ⟨fun _ => rfl⟩

def organisationCreate (name : String) : Tx Organisation := fun db =>
  ensure (varchar name) .valueTooLong <|
  .ok (⟨db.organisations.next, name⟩,
    { db with
      organisations :=
        db.organisations.insert (fun id => ⟨id, name⟩) })

instance (organisationId : Nat) :
    Table.Stamps (OrgSettings.defaults organisationId) :=
  ⟨fun _ => rfl⟩

def orgSettingsCreate (organisationId : Nat) : Tx OrgSettings := fun db =>
  ensure (db.settingsOf organisationId = none) .uniqueConstraint <|
  ensure (db.organisations.HasKey organisationId) .foreignKey <|
  .ok (.defaults organisationId db.orgSettings.next,
    { db with
      orgSettings :=
        db.orgSettings.insert (.defaults organisationId) })

instance (dto : UpdateSettingsDto) : Table.KeepsKey dto.apply :=
  ⟨fun _ => rfl⟩

instance (dto : UpdateSettingsDto) (organisationId : Nat) :
    Table.Stamps fun id => dto.apply (.defaults organisationId id) :=
  ⟨fun _ => rfl⟩

/-- `orgSettings.upsert`: update the row, or create it from the defaults. -/
def orgSettingsUpsert (organisationId : Nat) (dto : UpdateSettingsDto) :
    Tx OrgSettings := fun db =>
  ensure
    (varchar? dto.dailyReminderTime ∧ varchar? dto.payrollType ∧
      varchar? dto.pmType) .valueTooLong <|
  match db.settingsOf organisationId with
  | some s =>
      .ok (dto.apply s,
        { db with
          orgSettings :=
            db.orgSettings.modify (fun s => s.organisationId = organisationId)
              dto.apply })
  | none =>
      ensure (db.organisations.HasKey organisationId) .foreignKey <|
      .ok (dto.apply (.defaults organisationId db.orgSettings.next),
        { db with
          orgSettings :=
            db.orgSettings.insert
              (fun id => dto.apply (.defaults organisationId id)) })

/-! ## Users and the hierarchy -/

/-- `user.create`; `collate` gives the comparison key of the collation. -/
def userCreate (collate : String → String) (now : Instant)
    (data : UserData) : Tx User := fun db =>
  ensure
    (varchar data.name ∧ varchar data.email ∧ varchar? data.department)
    .valueTooLong <|
  ensure (∀ u ∈ db.users.rows, collate u.email ≠ collate data.email)
    .uniqueConstraint <|
  ensure (db.organisations.HasKey data.organisationId) .foreignKey <|
  .ok (data.row now db.users.next,
    { db with users := db.users.insert (data.row now) })

def userUpdate (now : Instant) (id : Nat) (data : UserUpdate) :
    Tx User := fun db =>
  match db.users.find? (fun u => u.id = id) with
  | none => .error (.driver .recordNotFound)
  | some u =>
      ensure (varchar? data.name ∧ varchar? data.department)
        .valueTooLong <|
      .ok (data.apply now u,
        { db with
          users :=
            db.users.modify (fun u => u.id = id) (data.apply now) })

def managerEmployeeDeleteMany (p : ManagerEmployee → Prop)
    [DecidablePred p] : Tx PUnit := fun db =>
  .ok (⟨⟩,
    { db with managerEmployees := db.managerEmployees.deleteWhere p })

/-- The link rows of a list of manager and employee keys. -/
def linkManager (link : Nat × Nat) (id : Nat) : ManagerEmployee :=
  ⟨id, link.1, link.2⟩

instance (link : Nat × Nat) : Table.Stamps (linkManager link) :=
  ⟨fun _ => rfl⟩

def managerEmployeeCreateMany (links : List (Nat × Nat)) : Tx PUnit :=
  fun db =>
  ensure
    (links.Nodup ∧ ∀ r ∈ db.managerEmployees.rows,
      (r.managerId, r.employeeId) ∉ links) .uniqueConstraint <|
  ensure
    (∀ link ∈ links, db.users.HasKey link.1 ∧ db.users.HasKey link.2)
    .foreignKey <|
  .ok (⟨⟩,
    { db with
      managerEmployees :=
        Table.insertMany linkManager
          db.managerEmployees links })

/-! ## Projects and their links -/

def projectManagerDeleteMany (projectId : Nat) : Tx PUnit := fun db =>
  .ok (⟨⟩,
    { db with
      projectManagers :=
        db.projectManagers.deleteWhere (fun r => r.projectId = projectId) })

def linkProjectManager (link : Nat × Nat) (id : Nat) : ProjectManager :=
  ⟨id, link.1, link.2⟩

instance (link : Nat × Nat) : Table.Stamps (linkProjectManager link) :=
  ⟨fun _ => rfl⟩

/-- Links are pairs of a project and a manager. -/
def projectManagerCreateMany (links : List (Nat × Nat)) : Tx PUnit :=
  fun db =>
  ensure
    (links.Nodup ∧ ∀ r ∈ db.projectManagers.rows,
      (r.projectId, r.managerId) ∉ links) .uniqueConstraint <|
  ensure
    (∀ link ∈ links, db.projects.HasKey link.1 ∧ db.users.HasKey link.2)
    .foreignKey <|
  .ok (⟨⟩,
    { db with
      projectManagers :=
        Table.insertMany linkProjectManager
          db.projectManagers links })

def projectEmployeeDeleteMany (p : ProjectEmployee → Prop)
    [DecidablePred p] : Tx PUnit := fun db =>
  .ok (⟨⟩,
    { db with projectEmployees := db.projectEmployees.deleteWhere p })

def linkProjectEmployee (link : Nat × Nat) (id : Nat) : ProjectEmployee :=
  ⟨id, link.1, link.2⟩

instance (link : Nat × Nat) : Table.Stamps (linkProjectEmployee link) :=
  ⟨fun _ => rfl⟩

/-- Links are pairs of a project and an employee. -/
def projectEmployeeCreateMany (links : List (Nat × Nat)) : Tx PUnit :=
  fun db =>
  ensure
    (links.Nodup ∧ ∀ r ∈ db.projectEmployees.rows,
      (r.projectId, r.employeeId) ∉ links) .uniqueConstraint <|
  ensure
    (∀ link ∈ links, db.projects.HasKey link.1 ∧ db.users.HasKey link.2)
    .foreignKey <|
  .ok (⟨⟩,
    { db with
      projectEmployees :=
        Table.insertMany linkProjectEmployee
          db.projectEmployees links })

/-- The row of a `project.create`, without its nested links. -/
def projectCreateRow (collate : String → String) (now : Instant)
    (data : ProjectData) : Tx Project := fun db =>
  ensure (varchar data.code ∧ varchar data.name ∧ varchar data.client)
    .valueTooLong <|
  ensure
    (∀ p ∈ db.projects.rows, ¬ (p.organisationId = data.organisationId ∧
      collate p.code = collate data.code)) .uniqueConstraint <|
  ensure (db.organisations.HasKey data.organisationId) .foreignKey <|
  .ok (data.row now db.projects.next,
    { db with projects := db.projects.insert (data.row now) })

/-- `project.create` with nested creation of its links. -/
def projectCreate (collate : String → String) (now : Instant)
    (data : ProjectData) (managers employees : List Nat) : Tx Project := do
  let project ← projectCreateRow collate now data
  projectManagerCreateMany (managers.map fun id => (project.id, id))
  projectEmployeeCreateMany (employees.map fun id => (project.id, id))
  return project

def projectUpdate (collate : String → String) (now : Instant) (id : Nat)
    (data : ProjectUpdate) : Tx Project := fun db =>
  match db.projects.find? (fun p => p.id = id) with
  | none => .error (.driver .recordNotFound)
  | some p =>
      ensure
        (varchar? data.code ∧ varchar? data.name ∧ varchar? data.client)
        .valueTooLong <|
      ensure
        (∀ code ∈ data.code, ∀ q ∈ db.projects.rows, q.id ≠ id →
          ¬ (q.organisationId = p.organisationId ∧
            collate q.code = collate code)) .uniqueConstraint <|
      .ok (data.apply now p,
        { db with
          projects :=
            db.projects.modify (fun p => p.id = id) (data.apply now) })

/-- The row after `usedHours: { increment: hours }`. -/
def book (now : Instant) (hours : ℚ) (p : Project) : Project :=
  { p with
    usedHours := p.usedHours + hours
    updatedAt := now }

instance (now : Instant) (hours : ℚ) : Table.KeepsKey (book now hours) :=
  ⟨fun _ => rfl⟩

def projectIncrementUsedHours (now : Instant) (id : Nat) (hours : ℚ) :
    Tx PUnit := fun db =>
  ensure (db.projects.HasKey id) .recordNotFound <|
  .ok (⟨⟩,
    { db with
      projects :=
        db.projects.modify (fun p => p.id = id) (book now hours) })

/-- Refused while time entries refer to the project; links cascade. -/
def projectDelete (id : Nat) : Tx PUnit := fun db =>
  ensure (db.projects.HasKey id) .recordNotFound <|
  ensure (∀ e ∈ db.timeEntries.rows, e.projectId ≠ id) .foreignKey <|
  .ok (⟨⟩,
    { db with
      projects := db.projects.deleteWhere (fun p => p.id = id)
      projectManagers :=
        db.projectManagers.deleteWhere (fun r => r.projectId = id)
      projectEmployees :=
        db.projectEmployees.deleteWhere (fun r => r.projectId = id) })

/-! ## Timesheets and entries -/

def timesheetCreate (now : Instant) (data : TimesheetData) :
    Tx Timesheet := fun db =>
  ensure
    (db.organisations.HasKey data.organisationId ∧
      db.users.HasKey data.userId) .foreignKey <|
  .ok (data.row now db.timesheets.next,
    { db with
      timesheets := db.timesheets.insert (data.row now) })

def timesheetUpdate (now : Instant) (id : Nat) (data : TimesheetUpdate) :
    Tx Timesheet := fun db =>
  match db.timesheets.find? (fun t => t.id = id) with
  | none => .error (.driver .recordNotFound)
  | some t =>
      ensure (∀ reason ∈ data.rejectedReason, varchar? reason)
        .valueTooLong <|
      ensure (∀ u ∈ data.approvedById, db.users.HasKey u) .foreignKey <|
      .ok (data.apply now t,
        { db with
          timesheets :=
            db.timesheets.modify (fun t => t.id = id) (data.apply now) })

/-- Entries cascade. -/
def timesheetDelete (id : Nat) : Tx PUnit := fun db =>
  ensure (db.timesheets.HasKey id) .recordNotFound <|
  .ok (⟨⟩,
    { db with
      timesheets := db.timesheets.deleteWhere (fun t => t.id = id)
      timeEntries :=
        db.timeEntries.deleteWhere (fun e => e.timesheetId = id) })

def timeEntryCreateMany (now : Instant) (data : List TimeEntryData) :
    Tx PUnit := fun db =>
  ensure (∀ d ∈ data, d.desc.All text?) .valueTooLong <|
  ensure
    (∀ d ∈ data, db.timesheets.HasKey d.timesheetId ∧
      db.projects.HasKey d.projectId) .foreignKey <|
  .ok (⟨⟩,
    { db with
      timeEntries :=
        Table.insertMany (fun d => d.row now)
          db.timeEntries data })

def timeEntryCreate (now : Instant) (data : TimeEntryData) :
    Tx TimeEntry := fun db =>
  ensure (data.desc.All text?) .valueTooLong <|
  ensure
    (db.timesheets.HasKey data.timesheetId ∧
      db.projects.HasKey data.projectId) .foreignKey <|
  .ok (data.row now db.timeEntries.next,
    { db with
      timeEntries := db.timeEntries.insert (data.row now) })

def timeEntryUpdate (id : Nat) (data : TimeEntryUpdate) : Tx TimeEntry :=
  fun db =>
  match db.timeEntries.find? (fun e => e.id = id) with
  | none => .error (.driver .recordNotFound)
  | some e =>
      ensure (data.desc.All text?) .valueTooLong <|
      ensure (∀ p ∈ data.projectId, db.projects.HasKey p) .foreignKey <|
      .ok (data.apply e,
        { db with
          timeEntries :=
            db.timeEntries.modify (fun e => e.id = id) data.apply })

def timeEntryDelete (id : Nat) : Tx PUnit := fun db =>
  ensure (db.timeEntries.HasKey id) .recordNotFound <|
  .ok (⟨⟩,
    { db with
      timeEntries := db.timeEntries.deleteWhere (fun e => e.id = id) })

def timeEntryDeleteMany (timesheetId : Nat) : Tx PUnit := fun db =>
  .ok (⟨⟩,
    { db with
      timeEntries :=
        db.timeEntries.deleteWhere (fun e => e.timesheetId = timesheetId) })

/-! ## Holidays and notifications -/

instance (organisationId : Nat) (name : String) (date : Instant)
    (recurring : Bool) :
    Table.Stamps fun id =>
      (⟨id, organisationId, name, date, recurring⟩ : Holiday) :=
  ⟨fun _ => rfl⟩

def holidayCreate (organisationId : Nat) (name : String) (date : JsDate)
    (recurring : Bool) : Tx Holiday := fun db =>
  match date with
  | none => .error (.driver .invalidValue)
  | some date =>
      ensure (varchar name) .valueTooLong <|
      ensure (db.organisations.HasKey organisationId) .foreignKey <|
      .ok (⟨db.holidays.next, organisationId, name, date, recurring⟩,
        { db with
          holidays :=
            db.holidays.insert
              (fun id => ⟨id, organisationId, name, date, recurring⟩) })

def holidayDelete (id : Nat) : Tx PUnit := fun db =>
  ensure (db.holidays.HasKey id) .recordNotFound <|
  .ok (⟨⟩,
    { db with holidays := db.holidays.deleteWhere (fun h => h.id = id) })

def notificationCreate (now : Instant) (data : NotificationData) :
    Tx Notification := fun db =>
  ensure (varchar data.message) .valueTooLong <|
  ensure (db.users.HasKey data.userId) .foreignKey <|
  .ok (data.row now db.notifications.next,
    { db with
      notifications :=
        db.notifications.insert (data.row now) })

/-- The row after `data: { read: true }`. -/
def readNotification (n : Notification) : Notification :=
  { n with read := true }

instance : Table.KeepsKey readNotification :=
  ⟨fun _ => rfl⟩

/-- `notification.updateMany` with `data: { read: true }`. -/
def notificationMarkRead (p : Notification → Prop) [DecidablePred p] :
    Tx PUnit := fun db =>
  .ok (⟨⟩,
    { db with
      notifications :=
        db.notifications.modify p readNotification })

end Prisma

end TmsApi
