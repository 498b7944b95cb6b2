import TmsApi.Services.Team
import Mathlib.Data.List.Sort

/-!
# `services/approvals.service.ts`

The queue of submitted timesheets with its counts, and their approval and
rejection.  The two decisions share their guards and differ in the text of the
self-approval error, in the columns they write and in the message they leave.
-/

namespace TmsApi

open TmsApi.Core
open TmsApi.Core.Program

/-! ## The queue -/

/-- The reports of a MANAGER; no filter for an ADMIN. -/
def buildTeamFilter (userId : Nat) (userRole : UserRole) (orgId : Nat) :
    Service (Option (List Nat)) :=
  if userRole = .admin then
    return none
  else do
    let directReportIds ← getDirectReportIds userId orgId
    return some directReportIds

/-- The spread of a team filter into a `where`. -/
def InTeam (teamFilter : Option (List Nat)) (t : Timesheet) : Prop :=
  ∀ ids ∈ teamFilter, t.userId ∈ ids

instance (teamFilter : Option (List Nat)) (t : Timesheet) :
    Decidable (InTeam teamFilter t) :=
  inferInstanceAs (Decidable (∀ ids ∈ teamFilter, t.userId ∈ ids))

/-- The submitted timesheets of an organisation and a team. -/
def Db.pendingRows (db : Db) (orgId : Nat)
    (teamFilter : Option (List Nat)) : List Timesheet :=
  db.timesheets.select fun t =>
    t.organisationId = orgId ∧ t.status = .submitted ∧ InTeam teamFilter t

/-- A page of the queue with its `meta`. -/
structure PendingPage where
  data : List Timesheet
  total : Nat
  page : Int
  limit : Int

def listPendingApprovals (orgId userId : Nat) (userRole : UserRole)
    (page limit : Int) : Service PendingPage := do
  let teamFilter ← buildTeamFilter userId userRole orgId
  let skip := (page - 1) * limit
  statement fun db =>
    let rows := db.pendingRows orgId teamFilter
    match Prisma.paginate skip limit
        (rows.insertionSort fun a b => a.updatedAt ≤ b.updatedAt) with
    | .ok data => .ok (⟨data, rows.length, page, limit⟩, db)
    | .error e => .error e

structure ApprovalStats where
  pendingCount : Nat
  approvedThisWeek : Nat
  teamHours : ℚ
  teamMembers : Nat

/-- The Monday of the current week in local time. -/
def currentWeekStart (host : Host) : Instant :=
  let dayOfWeek := getDay host.zone host.now
  let diff := if dayOfWeek = 0 then -6 else 1 - dayOfWeek
  host.zone.midnight (host.zone.dayOf host.now + diff)

def getApprovalStats (host : Host) (orgId userId : Nat)
    (userRole : UserRole) : Service ApprovalStats := do
  let teamFilter ← buildTeamFilter userId userRole orgId
  let weekStart := currentWeekStart host
  query fun db =>
    { pendingCount := (db.pendingRows orgId teamFilter).length
      approvedThisWeek :=
        (db.timesheets.select fun t =>
          t.organisationId = orgId ∧ t.status = .approved ∧
            (∃ instant ∈ t.approvedAt, weekStart ≤ instant) ∧
              InTeam teamFilter t).length
      teamHours :=
        sumBy (·.totalHours) (db.timesheets.select fun t =>
          t.organisationId = orgId ∧
            (t.status = .submitted ∨ t.status = .approved) ∧
              InTeam teamFilter t)
      teamMembers :=
        if userRole = .admin then
          (db.users.select fun u =>
            u.organisationId = orgId ∧ u.status = .active).length
        else
          (db.managerEmployees.select fun r =>
            r.managerId = userId ∧ db.Member r.managerId orgId).length }

/-! ## Decisions -/

section

variable (host : Host)

/-- `timesheet.findFirst` by key and organisation. -/
def Db.orgTimesheet (db : Db) (id orgId : Nat) : Option Timesheet :=
  db.timesheets.find? fun t => t.id = id ∧ t.organisationId = orgId

/-- The guards of a decision on a timesheet that becomes `target`. -/
def decidableTimesheet (timesheetId approvingUserId orgId : Nat)
    (userRole : UserRole) (selfMessage : String)
    (target : TimesheetStatus) : Service Timesheet := do
  let found ← query fun db => db.orgTimesheet timesheetId orgId
  let timesheet ← orThrow found (.notFoundError "Timesheet")
  throwIf (timesheet.userId = approvingUserId)
    (.forbiddenError selfMessage .selfApprovalForbidden)
  whenever (userRole = .manager)
    (assertIsDirectReport approvingUserId timesheet.userId orgId)
  throwIf (timesheet.status ≠ .submitted)
    (.invalidTransitionError timesheet.status target)
  return timesheet

/-- The opening words of both notifications. -/
def weekMessage (timesheet : Timesheet) : String :=
  "Your timesheet for week starting " ++
    toDateString timesheet.weekStartDate

def approvedMessage (timesheet : Timesheet) : String :=
  weekMessage timesheet ++ " has been approved."

def rejectedMessage (timesheet : Timesheet) (reason : String) : String :=
  weekMessage timesheet ++ " was rejected. Reason: " ++ reason

/-- One step of the loop over the entries. -/
def bookEntry (entry : TimeEntry) : Service PUnit :=
  statement <|
    Prisma.projectIncrementUsedHours host.now entry.projectId
      entry.totalHours

def approveTimesheet (timesheetId approvingUserId orgId : Nat)
    (userRole : UserRole) : Service Timesheet := do
  let timesheet ← decidableTimesheet timesheetId approvingUserId orgId
    userRole "Managers cannot approve their own timesheets" .approved
  let approved ← statement <| Prisma.timesheetUpdate host.now timesheetId
    { status := some .approved
      approvedById := some approvingUserId
      approvedAt := some host.now }
  let entries ← query fun db => db.entriesOf timesheetId
  forEach (bookEntry host) entries
  let _ ← statement <| Prisma.notificationCreate host.now
    { userId := timesheet.userId
      type := .approved
      message := approvedMessage timesheet }
  return approved

def rejectTimesheet (timesheetId approvingUserId orgId : Nat)
    (reason : String) (userRole : UserRole) : Service Timesheet := do
  let timesheet ← decidableTimesheet timesheetId approvingUserId orgId
    userRole "Managers cannot reject their own timesheets" .rejected
  let rejected ← statement <| Prisma.timesheetUpdate host.now timesheetId
    { status := some .rejected
      rejectedReason := some (some reason) }
  let _ ← statement <| Prisma.notificationCreate host.now
    { userId := timesheet.userId
      type := .rejected
      message := rejectedMessage timesheet reason }
  return rejected

end

end TmsApi
