import TmsApi.Services.Team
import Mathlib.Data.List.Sort

/-!
# `services/timesheets.service.ts`

The timesheets of a user and their time entries.  Every function is the
source's function statement by statement: a `query` or a `statement` is one
awaited Prisma call, and everything between two of them is computation on what
was read.
-/

namespace TmsApi

open TmsApi.Core
open TmsApi.Core.Program

section

variable (host : Host)

def recalculateTimesheetTotals (timesheetId : Nat) : Service PUnit := do
  let entries ← query fun db => db.entriesOf timesheetId
  let totalHours := sumBy (·.totalHours) entries
  let billableHours := sumBy (·.totalHours) (entries.filter (·.billable))
  let _ ← statement <| Prisma.timesheetUpdate host.now timesheetId
    { totalHours := some totalHours, billableHours := some billableHours }
  return ⟨⟩

/-- `timesheet.findFirst` by key, owner and organisation. -/
def Db.ownTimesheet (db : Db) (id userId orgId : Nat) : Option Timesheet :=
  db.timesheets.find? fun t =>
    t.id = id ∧ t.userId = userId ∧ t.organisationId = orgId

/-- An entry with `include: { project: true }`. -/
structure EntryWithProject where
  entry : TimeEntry
  project : Option Project
deriving DecidableEq

/-- The entries of a timesheet with their projects, oldest first. -/
def Db.entriesWithProject (db : Db) (timesheetId : Nat) :
    List EntryWithProject :=
  ((db.entriesOf timesheetId).insertionSort fun a b =>
    a.createdAt ≤ b.createdAt).map fun e =>
      ⟨e, db.projects.find? fun p => p.id = e.projectId⟩

def getTimesheetById (id userId orgId : Nat) :
    Service (Timesheet × List EntryWithProject) := do
  let found ← query fun db => (db.ownTimesheet id userId orgId).map fun t =>
    (t, db.entriesWithProject t.id)
  orThrow found (.notFoundError "Timesheet")

/-- `timesheet.findFirst` by owner, organisation and week. -/
def Db.weekTimesheet (db : Db) (userId orgId : Nat) (week : Instant) :
    Option Timesheet :=
  db.timesheets.find? fun t =>
    t.userId = userId ∧ t.organisationId = orgId ∧ t.weekStartDate = week

def createTimesheet (userId orgId : Nat) (dto : CreateTimesheetDto) :
    Service Timesheet := do
  let settings ← query fun db => db.settingsOf orgId
  let startDay := (settings.map (·.workWeekStart)).getD .monday
  let weekStart : JsDate :=
    dto.weekStartDate.toDate.map (getWeekStart host.zone · startDay)
  throwIf
    (¬ settings.any (·.allowBackdated) ∧ ∃ d ∈ weekStart, isInPast host d)
    (.appError "Backdated timesheets are not allowed" 400
      .backdatingNotAllowed)
  let weekStartDate ← orThrow weekStart (.driver .invalidValue)
  let existing ← query fun db => db.weekTimesheet userId orgId weekStartDate
  throwIf (existing.isSome)
    (.conflictError "A timesheet already exists for this week")
  statement <| Prisma.timesheetCreate host.now
    { userId := userId
      organisationId := orgId
      weekStartDate := weekStartDate
      weekEndDate := getWeekEnd host.zone weekStartDate
      status := .draft }

def updateTimesheet (id userId orgId : Nat) (dto : UpdateTimesheetDto) :
    Service Timesheet := do
  let found ← query fun db => db.ownTimesheet id userId orgId
  let timesheet ← orThrow found (.notFoundError "Timesheet")
  throwIf (timesheet.status ≠ .draft) .immutableTimesheetError
  throwIf (∃ date ∈ dto.weekStartDate, date.toDate = none)
    (.driver .invalidValue)
  statement <| Prisma.timesheetUpdate host.now id
    { weekStartDate := dto.weekStartDate.bind (·.toDate) }

def deleteTimesheet (id userId orgId : Nat) : Service PUnit := do
  let found ← query fun db => db.ownTimesheet id userId orgId
  let timesheet ← orThrow found (.notFoundError "Timesheet")
  throwIf (timesheet.status ≠ .draft) .immutableTimesheetError
  statement <| Prisma.timesheetDelete id

def submitTimesheet (id userId orgId : Nat) : Service Timesheet := do
  let found ← query fun db => db.ownTimesheet id userId orgId
  let timesheet ← orThrow found (.notFoundError "Timesheet")
  throwIf (¬ (timesheet.status = .draft ∨ timesheet.status = .rejected))
    (.invalidTransitionError timesheet.status .submitted)
  statement <| Prisma.timesheetUpdate host.now id
    { status := some .submitted
      rejectedReason :=
        if timesheet.status = .rejected then some none else none }

/-- The latest submitted or approved timesheet: `orderBy` week, descending. -/
def latest : List Timesheet → Option Timesheet
  | [] => none
  | t :: rest =>
      match latest rest with
      | some u => if t.weekStartDate < u.weekStartDate then some u else some t
      | none => some t

def Db.previousTimesheet (db : Db) (userId orgId : Nat) :
    Option Timesheet :=
  latest <| db.timesheets.select fun t =>
    t.userId = userId ∧ t.organisationId = orgId ∧
      (t.status = .approved ∨ t.status = .submitted)

/-- One element of `entryData`; time off is not copied. -/
def copiedEntry (timesheetId : Nat) (e : TimeEntry) : TimeEntryData where
  timesheetId := timesheetId
  projectId := e.projectId
  billable := e.billable
  hours := e.hours
  desc := e.desc
  timeOff := .const 0
  totalHours := e.totalHours

/-- `if (entryData.length > 0) await tx.timeEntry.createMany(..)`. -/
def createEntries (timesheetId : Nat) (entries : List TimeEntry) :
    Tx PUnit :=
  if entries.length > 0 then
    Prisma.timeEntryCreateMany host.now
      (entries.map (copiedEntry timesheetId))
  else
    return ⟨⟩

/-- The forced branch of the copy: one interactive transaction. -/
def overwriteEntries (existingId : Nat) (entries : List TimeEntry)
    (totalHours billableHours : ℚ) : Tx Timesheet := do
  Prisma.timeEntryDeleteMany existingId
  createEntries host existingId entries
  Prisma.timesheetUpdate host.now existingId
    { totalHours := some totalHours, billableHours := some billableHours }

/-- The other branch of the copy: one interactive transaction. -/
def createCopy (data : TimesheetData) (entries : List TimeEntry) :
    Tx Timesheet := do
  let ts ← Prisma.timesheetCreate host.now data
  createEntries host ts.id entries
  return ts

/-- For an EMPLOYEE, the entries of projects still assigned to them. -/
def copyableEntries (userId orgId : Nat) (userRole : UserRole)
    (entries : List TimeEntry) : Service (List TimeEntry) :=
  if userRole = .employee then do
    let assignedIds ← getAssignedProjectIds userId orgId
    return entries.filter fun e => e.projectId ∈ assignedIds
  else
    return entries

/--
The second part of `copyPreviousWeek`, from the look at the target week on:
the timesheet written and the number of entries left out.
-/
def copyIntoWeek (userId orgId : Nat) (userRole : UserRole) (force : Bool)
    (previous : Timesheet × List TimeEntry) (weekStartDate : Instant) :
    Service (Timesheet × Nat) := do
  let existing ← query fun db => db.weekTimesheet userId orgId weekStartDate
  throwIf (existing.isSome ∧ force = false)
    (.conflictError "A timesheet already exists for the target week")
  throwIf (force = true ∧ ∃ t ∈ existing, t.status ≠ .draft)
    (.appError
      ("Cannot overwrite a " ++
        ((existing.map (·.status.lower)).getD "") ++ " timesheet") 403
      .immutableTimesheet)
  let entriesToCopy ← copyableEntries userId orgId userRole previous.2
  let skippedCount := previous.2.length - entriesToCopy.length
  let copiedTotalHours := sumBy (·.totalHours) entriesToCopy
  let copiedBillableHours :=
    sumBy (·.totalHours) (entriesToCopy.filter (·.billable))
  let copied ← statement <|
    match existing with
    | some t =>
        overwriteEntries host t.id entriesToCopy copiedTotalHours
          copiedBillableHours
    | none =>
        createCopy host
          { userId := userId
            organisationId := orgId
            weekStartDate := weekStartDate
            weekEndDate := getWeekEnd host.zone weekStartDate
            status := .draft
            totalHours := copiedTotalHours
            billableHours := copiedBillableHours }
          entriesToCopy
  return (copied, skippedCount)

def copyPreviousWeek (userId orgId : Nat) (targetWeekStart : JsDate)
    (userRole : UserRole) (force : Bool) : Service (Timesheet × Nat) := do
  let found ← query fun db => db.settingsOf orgId
  throwIf (¬ found.any (·.allowCopyWeek))
    (.appError "Copy Previous Week feature is disabled" 400
      .copyWeekDisabled)
  let startDay := (found.map (·.workWeekStart)).getD .monday
  let source ← query fun db =>
    (db.previousTimesheet userId orgId).map fun t => (t, db.entriesOf t.id)
  let previous ← orThrow source
    (.notFoundError "Previous submitted or approved timesheet")
  let weekStart : JsDate :=
    targetWeekStart.map (getWeekStart host.zone · startDay)
  let weekStartDate ← orThrow weekStart (.driver .invalidValue)
  copyIntoWeek host userId orgId userRole force previous weekStartDate

/-! ## Time entries -/

def listEntries (timesheetId userId orgId : Nat) :
    Service (List EntryWithProject) := do
  let found ← query fun db => db.ownTimesheet timesheetId userId orgId
  let _ ← orThrow found (.notFoundError "Timesheet")
  query fun db => db.entriesWithProject timesheetId

/-- `(data.monHours ?? 0) + …`. -/
def calcEntryTotal (hours : Week (Option ℚ)) : ℚ :=
  hours.mon.getD 0 + hours.tue.getD 0 + hours.wed.getD 0 +
    hours.thu.getD 0 + hours.fri.getD 0 + hours.sat.getD 0 +
    hours.sun.getD 0

/-- A day with hours and without a description. -/
def missingDescription (hours : Option ℚ) (desc : Option String) : Bool :=
  decide (0 < hours.getD 0) && desc.all isBlank

/-- The timesheet an entry operation may edit. -/
def editableTimesheet (timesheetId userId orgId : Nat) :
    Service Timesheet := do
  let found ← query fun db => db.ownTimesheet timesheetId userId orgId
  let timesheet ← orThrow found (.notFoundError "Timesheet")
  throwIf (timesheet.status ≠ .draft ∧ timesheet.status ≠ .rejected)
    .immutableTimesheetError
  return timesheet

/-- The assignment check of an EMPLOYEE caller. -/
def assertAssigned (projectId userId : Nat) : Service PUnit := do
  let assignment ← query fun db =>
    db.projectEmployees.find? fun r =>
      r.projectId = projectId ∧ r.employeeId = userId
  throwIf (assignment.isNone)
    (.appError "You are not assigned to this project" 403
      .employeeNotAssigned)

def createEntry (timesheetId userId orgId : Nat) (dto : CreateTimeEntryDto)
    (userRole : UserRole) : Service TimeEntry := do
  let _ ← editableTimesheet timesheetId userId orgId
  let settings ← query fun db => db.settingsOf orgId
  throwIf
    (settings.any (·.mandatoryDesc) ∧
      (dto.hours.zipWith missingDescription dto.desc).toList.any id)
    (.appError "Description is required for each day with logged hours" 400
      .descriptionRequired)
  let project ← query fun db =>
    db.projects.find? fun p =>
      p.id = dto.projectId ∧ p.organisationId = orgId
  throwIf (project.isNone) (.notFoundError "Project")
  whenever (userRole = .employee) (assertAssigned dto.projectId userId)
  let maxPerDay := (settings.map (·.maxHoursPerDay)).getD 24
  throwIf (dto.hours.toList.any fun h => h.any fun q => maxPerDay < q)
    (.appError
      ("Cannot log more than " ++ numberText maxPerDay ++ " hours per day")
      400 .maxHoursExceeded)
  let entry ← statement <| Prisma.timeEntryCreate host.now
    { timesheetId := timesheetId
      projectId := dto.projectId
      billable := dto.billable.getD true
      hours := dto.hours.map (·.getD 0)
      desc := dto.desc
      timeOff := dto.timeOff.map (·.getD 0)
      totalHours := calcEntryTotal dto.hours }
  recalculateTimesheetTotals host timesheetId
  return entry

/-- `{ ...dto, ...merged, totalHours }`. -/
def mergedEntry (dto : UpdateTimeEntryDto) (entry : TimeEntry) :
    TimeEntryUpdate :=
  let hours := dto.hours.zipWith (fun new old => new.getD old) entry.hours
  { projectId := dto.projectId
    billable := dto.billable
    hours := hours
    desc := dto.desc.zipWith (fun new old => new.or old) entry.desc
    timeOff :=
      dto.timeOff.zipWith (fun new old => new.getD old) entry.timeOff
    totalHours := calcEntryTotal (hours.map some) }

/-- `timeEntry.findFirst` by key and timesheet. -/
def Db.entryOf (db : Db) (entryId timesheetId : Nat) : Option TimeEntry :=
  db.timeEntries.find? fun e =>
    e.id = entryId ∧ e.timesheetId = timesheetId

def updateEntry (timesheetId entryId userId orgId : Nat)
    (dto : UpdateTimeEntryDto) (userRole : UserRole) :
    Service TimeEntry := do
  let _ ← editableTimesheet timesheetId userId orgId
  let found ← query fun db => db.entryOf entryId timesheetId
  let entry ← orThrow found (.notFoundError "TimeEntry")
  whenever (dto.projectId.isSome ∧ userRole = .employee)
    (assertAssigned (dto.projectId.getD 0) userId)
  let updated ← statement <|
    Prisma.timeEntryUpdate entryId (mergedEntry dto entry)
  recalculateTimesheetTotals host timesheetId
  return updated

def deleteEntry (timesheetId entryId userId orgId : Nat) :
    Service PUnit := do
  let _ ← editableTimesheet timesheetId userId orgId
  let found ← query fun db => db.entryOf entryId timesheetId
  let _ ← orThrow found (.notFoundError "TimeEntry")
  statement <| Prisma.timeEntryDelete entryId
  recalculateTimesheetTotals host timesheetId

end

end TmsApi
