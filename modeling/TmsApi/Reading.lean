import TmsApi.Listing
import TmsApi.Services.Exports

/-!
# The reading routes

The routes of the API that answer a GET request, behind `authenticate` and,
where they have one, `requireRole`.  Parameters of the query string arrive as
texts; `parseInt` may leave nothing of them.  How `new Date(..)` reads a text,
and how a number is written, are parameters.
-/

namespace TmsApi

open TmsApi.Core
open TmsApi.Core.Program

/--
`req.query` of a report.  A status is one of the enumeration; the driver refuses
any other text.
-/
structure ReportQuery where
  dateFrom : Option String
  dateTo : Option String
  userId : Option String
  status : Option TimesheetStatus
  projectId : Option String

/-- A parameter of the query string; an empty one is falsy. -/
def given (parameter : Option String) : Option String :=
  parameter.filter (· ≠ "")

/-- `parameter ? parseInt(parameter) : undefined`. -/
def parseGiven (parameter : Option String) : Option Int :=
  (given parameter).bind parseInt

/-- A pending timesheet with the relations `listPendingApprovals` includes. -/
structure PendingListing where
  timesheet : Timesheet
  user : Option ReportUser
  timeEntries : List EntryWithProject

def Db.pendingListing (db : Db) (t : Timesheet) : PendingListing where
  timesheet := t
  user := db.reportUser t.userId
  timeEntries := (db.entriesOf t.id).map fun e =>
    ⟨e, db.projects.find? fun p => p.id = e.projectId⟩

/-- `listPendingApprovals`, with all that the route answers. -/
def pendingApprovals (orgId userId : Nat) (userRole : UserRole)
    (page limit : Int) : Service (Page PendingListing) := do
  let teamFilter ← buildTeamFilter userId userRole orgId
  findManyAndCount (fun db => db.pendingRows orgId teamFilter)
    (fun a b => a.updatedAt ≤ b.updatedAt) Db.pendingListing page limit

/-- Without the relations it is the page of the queue. -/
theorem listPendingApprovals_exec (orgId userId : Nat) (userRole : UserRole)
    (page limit : Int) (db : Db) :
    ((listPendingApprovals orgId userId userRole page limit).exec db).1 =
      ((pendingApprovals orgId userId userRole page limit).exec db).1.map
        fun answer => ⟨answer.data.map (·.timesheet), answer.total,
          answer.page, answer.limit⟩ := by
  have plain (state : Db) (t : Timesheet) :
      (state.pendingListing t).timesheet = t := rfl
  rw [listPendingApprovals, pendingApprovals, exec_bind, exec_bind]
  rcases (buildTeamFilter userId userRole orgId).exec db with ⟨filter, after⟩
  cases filter with
  | error e => rfl
  | ok filter =>
      simp only [findManyAndCount, findManyAndCountIn, statement, exec,
        answer]
      cases Prisma.paginate ((page - 1) * limit) limit
        ((after.pendingRows orgId filter).insertionSort fun a b =>
          a.updatedAt ≤ b.updatedAt) with
      | error e => rfl
      | ok data => simp [Except.map, plain, Function.comp_def]

/-- The routes behind `authenticate` that answer a GET request. -/
inductive Query where
  | listTimesheets (query : ListQuery)
  | getTimesheet (id : Nat)
  | listEntries (timesheetId : Nat)
  | listPendingApprovals (query : ListQuery)
  | approvalStats
  | generateReport (query : ReportQuery)
  | exportReport (format : Option String) (query : ReportQuery)
  | exportMonthlyTimesheet (userId year month : Option String)
  | listProjects (query : ListQuery)
  | listUsers (query : ListQuery)
  | listHolidays (year : Option String)
  | getSettings
  | listNotifications
  | myManagers
  | myReports
  | getUserManagers (id : Nat)

/-- The data of a response; a PDF file is drawn from a report. -/
inductive Reading where
  | timesheets (page : Page Timesheet)
  | timesheet (row : Timesheet) (entries : List EntryWithProject)
  | entries (rows : List EntryWithProject)
  | pending (page : Page PendingListing)
  | stats (stats : ApprovalStats)
  | report (data : Report)
  | csv (text : String)
  | workbook (sheet : Sheet SheetRow)
  | pdf (data : Report)
  | projects (page : Page ProjectListing)
  | users (page : Page UserListing)
  | holidays (rows : List Holiday)
  | settings (row : OrgSettings)
  | notifications (rows : List Notification)
  | managers (users : List TeamUser)
  | members (users : List TeamMember)

section

variable (parseDate : String → JsDate) (numberToString : ℚ → String)

/-- The filters of a report. -/
def ReportQuery.filters (query : ReportQuery) (dateFrom dateTo : String) :
    ReportFilters where
  dateFrom := parseDate dateFrom
  dateTo := parseDate dateTo
  userId := parseGiven query.userId
  status := query.status
  projectId := parseGiven query.projectId

/-- The report both routes ask for; they differ in the text of the error. -/
def requestReport (caller : JwtPayload) (query : ReportQuery)
    (missing : String) : Service Report := do
  let dateFrom ← orThrow (given query.dateFrom) (.validationError missing)
  let dateTo ← orThrow (given query.dateTo) (.validationError missing)
  TmsApi.generateReport caller.orgId
    (query.filters parseDate dateFrom dateTo) caller.userId caller.role

def exportReport (caller : JwtPayload) (format : Option String)
    (query : ReportQuery) : Service Reading := do
  let data ← requestReport parseDate caller query
    "dateFrom and dateTo are required"
  if format = some "csv" then
    return .csv (generateCSV numberToString data)
  else if format = some "excel" then
    return .workbook (generateExcel numberToString data)
  else if format = some "pdf" then
    return .pdf data
  else
    .done (.error
      (.validationError "Invalid format. Supported: csv, excel, pdf"))

/-- `userId ? parseInt(userId) : req.user.userId`. -/
def exportTarget (caller : JwtPayload) (userId : Option String) :
    Option Int :=
  match given userId with
  | some text => parseInt text
  | none => some (caller.userId : Int)

/--
A user or a month that is not a number reaches the driver, which refuses it.
Like -1 it is the key of no user.  Left out is the header with the name of the
file, made of the employee's name; Node refuses one beyond Latin-1.
-/
def exportMonthlyTimesheet (host : Host) (caller : JwtPayload)
    (userId year month : Option String) : Service Reading := do
  let missing := "year and month are required query parameters"
  let yearText ← orThrow (given year) (.validationError missing)
  let monthText ← orThrow (given month) (.validationError missing)
  match exportTarget caller userId, parseInt yearText, parseInt monthText with
  | some targetUserId, some year, some month => do
      let data ← generateMonthlyTimesheetData host caller.orgId targetUserId
        year month caller.userId caller.role
      return .workbook (generateMonthlyTimesheetExcel data)
  | target, _, _ => do
      assertCanExport caller.orgId (target.getD (-1)) caller.userId
        caller.role
      whenever (target.isSome) do
        let found ← query fun db => db.users.find? fun u =>
          (u.id : Int) = target.getD (-1) ∧ u.organisationId = caller.orgId
        let _ ← orThrow found (.notFoundError "User")
        return ⟨⟩
      .done (.error (.driver .invalidValue))

variable (host : Host)

/-- The reading routes, after `req.user = caller`. -/
def handleQuery (caller : JwtPayload) : Query → Service Reading
  | .listTimesheets query => do
      let page ← handleListTimesheets caller query
      return .timesheets page
  | .getTimesheet id => do
      let (row, entries) ←
        TmsApi.getTimesheetById id caller.userId caller.orgId
      return .timesheet row entries
  | .listEntries timesheetId => do
      let rows ← TmsApi.listEntries timesheetId caller.userId caller.orgId
      return .entries rows
  | .listPendingApprovals query => do
      requireRole [.manager, .admin] caller.role
      let page ← pendingApprovals caller.orgId caller.userId caller.role
        query.pageNumber query.limitNumber
      return .pending page
  | .approvalStats => do
      requireRole [.manager, .admin] caller.role
      let stats ← getApprovalStats host caller.orgId caller.userId
        caller.role
      return .stats stats
  | .generateReport query => do
      requireRole [.manager, .admin] caller.role
      let data ← requestReport parseDate caller query
        "dateFrom and dateTo are required query parameters"
      return .report data
  | .exportReport format query =>
      TmsApi.exportReport parseDate numberToString caller format query
  | .exportMonthlyTimesheet userId year month =>
      TmsApi.exportMonthlyTimesheet host caller userId year month
  | .listProjects query => do
      let page ← handleListProjects caller query
      return .projects page
  | .listUsers query => do
      let page ← handleListUsers caller query
      return .users page
  | .listHolidays year => do
      let rows ← TmsApi.listHolidays parseDate caller.orgId
        (parseGiven year)
      return .holidays rows
  | .getSettings => do
      requireRole [.admin] caller.role
      let row ← TmsApi.getSettings caller.orgId
      return .settings row
  | .listNotifications => do
      let rows ← TmsApi.listNotifications caller.userId
      return .notifications rows
  | .myManagers => do
      let users ← getManagersOfUser caller.userId caller.orgId
      return .managers users
  | .myReports => do
      requireRole [.manager, .admin] caller.role
      let users ← getTeamMembers caller.userId caller.orgId
      return .members users
  | .getUserManagers id => do
      requireRole [.admin] caller.role
      let users ← getManagersOfUser id caller.orgId
      return .managers users

end

end TmsApi
