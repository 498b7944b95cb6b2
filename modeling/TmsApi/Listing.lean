import TmsApi.Api

/-!
# The list routes

The routes that list timesheets, pending approvals, projects and users by
pages.  Page and size are read from the query string by `parseInt`.  The
numbers are integers here, without the rounding of numbers beyond `2 ^ 53`.
-/

namespace TmsApi

open TmsApi.Core
open TmsApi.Core.Program

/-! ## The query string -/

/-- The value of a digit in a radix up to 36. -/
def digitValue (radix : Nat) (c : Char) : Option Nat :=
  let value :=
    if '0' ≤ c ∧ c ≤ '9' then c.toNat - '0'.toNat
    else if 'a' ≤ c ∧ c ≤ 'z' then c.toNat - 'a'.toNat + 10
    else if 'A' ≤ c ∧ c ≤ 'Z' then c.toNat - 'A'.toNat + 10
    else radix
  if value < radix then some value else none

/-- The longest prefix of digits, after those read so far. -/
def readDigits (radix : Nat) : Option Nat → List Char → Option Nat
  | read, [] => read
  | read, c :: rest =>
      match digitValue radix c with
      | some d => readDigits radix (some (read.getD 0 * radix + d)) rest
      | none => read

/-- The magnitude, hexadecimal after `0x`. -/
def readMagnitude : List Char → Option Nat
  | '0' :: 'x' :: rest => readDigits 16 none rest
  | '0' :: 'X' :: rest => readDigits 16 none rest
  | digits => readDigits 10 none digits

/-- `parseInt(text)`; `none` is `NaN`. -/
def parseInt (text : String) : Option Int :=
  match text.toList.dropWhile fun c => isBlank c.toString with
  | '-' :: rest => (readMagnitude rest).map fun n => -(n : Int)
  | '+' :: rest => (readMagnitude rest).map fun n => (n : Int)
  | digits => (readMagnitude digits).map fun n => (n : Int)

example : parseInt "  -0x1Fg" = some (-31) := by decide +kernel

/-- `parsed || fallback`. -/
def orDefault (parsed : Option Int) (fallback : Int) : Int :=
  match parsed with
  | some n => if n = 0 then fallback else n
  | none => fallback

/-- `DEFAULT_PAGE`. -/
def defaultPage : Int := 1

/-- `DEFAULT_LIMIT`. -/
def defaultLimit : Int := 20

/-- `req.query`, as far as the list routes read it. -/
structure ListQuery where
  page : Option String
  limit : Option String

namespace ListQuery

/-- A parameter as `parseInt` sees it. -/
def text (parameter : Option String) : String :=
  parameter.getD "undefined"

def pageNumber (query : ListQuery) : Int :=
  orDefault (parseInt (text query.page)) defaultPage

def limitNumber (query : ListQuery) : Int :=
  min (orDefault (parseInt (text query.limit)) defaultLimit) 100

end ListQuery

/-! ## The services -/

/-- `{ data, meta }`. -/
structure Page (Row : Type) where
  data : List Row
  total : Nat
  page : Int
  limit : Int

/--
`prisma.$transaction([findMany, count])` with the included relations, for the
arrangement that the database makes of the rows.
-/
def findManyAndCountIn {Row Included : Type} (arrange : List Row → List Row)
    (matching : Db → List Row) (included : Db → Row → Included)
    (page limit : Int) : Service (Page Included) :=
  let skip := (page - 1) * limit
  statement fun db =>
    match Prisma.paginate skip limit (arrange (matching db)) with
    | .ok data =>
        .ok (⟨data.map (included db), (matching db).length, page, limit⟩, db)
    | .error e => .error e

/-- The arrangement that keeps the rows of a tie in the order of the table. -/
def findManyAndCount {Row Included : Type} (matching : Db → List Row)
    (ordered : Row → Row → Prop) [DecidableRel ordered]
    (included : Db → Row → Included) (page limit : Int) :
    Service (Page Included) :=
  findManyAndCountIn (fun rows => rows.insertionSort ordered) matching included
    page limit

/-- The timesheets of a user in an organisation. -/
def Db.userSheets (db : Db) (userId orgId : Nat) : List Timesheet :=
  db.timesheets.select fun t => t.userId = userId ∧ t.organisationId = orgId

def listTimesheets (userId orgId : Nat) (page limit : Int) :
    Service (Page Timesheet) :=
  findManyAndCount (fun db => db.userSheets userId orgId)
    (fun a b => b.weekStartDate ≤ a.weekStartDate) (fun _ t => t) page limit

/-- The names of users, by their keys. -/
def Db.userNames (db : Db) (ids : List Nat) : List (Nat × String) :=
  ids.filterMap fun id =>
    (db.users.find? fun u => u.id = id).map fun u => (u.id, u.name)

/-- A project with `PROJECT_INCLUDE`. -/
structure ProjectListing where
  project : Project
  managers : List (Nat × String)
  assignedEmployees : List (Nat × String)

def Db.projectListing (db : Db) (p : Project) : ProjectListing where
  project := p
  managers := db.userNames
    ((db.projectManagers.select fun r => r.projectId = p.id).map
      (·.managerId))
  assignedEmployees := db.userNames
    ((db.projectEmployees.select fun r => r.projectId = p.id).map
      (·.employeeId))

/-- An EMPLOYEE sees the assigned projects, everyone else all of them. -/
def Db.visibleProjects (db : Db) (orgId userId : Nat) (role : UserRole) :
    List Project :=
  db.projects.select fun p => p.organisationId = orgId ∧
    (role = .employee → ∃ r ∈ db.projectEmployees.rows,
      r.projectId = p.id ∧ r.employeeId = userId)

def listProjects (orgId userId : Nat) (role : UserRole)
    (page limit : Int) : Service (Page ProjectListing) :=
  findManyAndCount (fun db => db.visibleProjects orgId userId role)
    (fun a b => b.createdAt ≤ a.createdAt) Db.projectListing page limit

/-- The columns and relations of `USER_SELECT`. -/
structure UserListing where
  id : Nat
  name : String
  email : String
  role : UserRole
  department : Option String
  status : ActiveStatus
  createdAt : Instant
  updatedAt : Instant
  managers : List (Nat × String)
  assignedProjects : List (Nat × String × String)

def Db.userListing (db : Db) (u : User) : UserListing where
  id := u.id
  name := u.name
  email := u.email
  role := u.role
  department := u.department
  status := u.status
  createdAt := u.createdAt
  updatedAt := u.updatedAt
  managers := db.userNames
    ((db.managerEmployees.select fun r => r.employeeId = u.id).map
      (·.managerId))
  assignedProjects :=
    (db.projectEmployees.select fun r => r.employeeId = u.id).filterMap
      fun r => (db.projects.find? fun p => p.id = r.projectId).map fun p =>
        (p.id, p.name, p.code)

/-- The users of an organisation, and of a team when there is a filter. -/
def Db.filteredUsers (db : Db) (orgId : Nat) (filter : Option (List Nat)) :
    List User :=
  db.users.select fun u => u.organisationId = orgId ∧
    ∀ ids ∈ filter, u.id ∈ ids

/-- The direct reports of a MANAGER; no filter for anyone else. -/
def userFilter (orgId requestingUserId : Nat) (requestingRole : UserRole) :
    Service (Option (List Nat)) :=
  if requestingRole = .manager then do
    let directReportIds ← getDirectReportIds requestingUserId orgId
    return some directReportIds
  else
    return none

/-- `listUsers` for an arrangement of the users by the database. -/
def listUsersIn (arrange : List User → List User)
    (orgId requestingUserId : Nat) (requestingRole : UserRole)
    (page limit : Int) : Service (Page UserListing) := do
  let filter ← userFilter orgId requestingUserId requestingRole
  findManyAndCountIn arrange (fun db => db.filteredUsers orgId filter)
    Db.userListing page limit

def listUsers (orgId requestingUserId : Nat) (requestingRole : UserRole)
    (page limit : Int) : Service (Page UserListing) :=
  listUsersIn
    (fun rows => rows.insertionSort fun a b => b.createdAt ≤ a.createdAt)
    orgId requestingUserId requestingRole page limit

/-! ## The routes, after `req.user = caller` -/

def handleListTimesheets (caller : JwtPayload) (query : ListQuery) :
    Service (Page Timesheet) :=
  listTimesheets caller.userId caller.orgId query.pageNumber
    query.limitNumber

def handleListPendingApprovals (caller : JwtPayload) (query : ListQuery) :
    Service PendingPage := do
  requireRole [.manager, .admin] caller.role
  listPendingApprovals caller.orgId caller.userId caller.role
    query.pageNumber query.limitNumber

def handleListProjects (caller : JwtPayload) (query : ListQuery) :
    Service (Page ProjectListing) :=
  listProjects caller.orgId caller.userId caller.role query.pageNumber
    query.limitNumber

def handleListUsersIn (arrange : List User → List User)
    (caller : JwtPayload) (query : ListQuery) :
    Service (Page UserListing) := do
  requireRole [.manager, .admin] caller.role
  listUsersIn arrange caller.orgId caller.userId caller.role query.pageNumber
    query.limitNumber

def handleListUsers (caller : JwtPayload) (query : ListQuery) :
    Service (Page UserListing) := do
  requireRole [.manager, .admin] caller.role
  listUsers caller.orgId caller.userId caller.role query.pageNumber
    query.limitNumber

end TmsApi
