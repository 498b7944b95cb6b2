import TmsApi.Model.Runtime

/-!
# `services/team.service.ts`

The manager and employee hierarchy and the assignment of employees to
projects.
-/

namespace TmsApi

open TmsApi.Core
open TmsApi.Core.Program

/-- The keys of the direct reports, as one query returns them. -/
def Db.directReportIds (db : Db) (managerId orgId : Nat) : List Nat :=
  (db.managerEmployees.select fun r =>
    r.managerId = managerId ∧ db.Member r.managerId orgId).map
      (·.employeeId)

def getDirectReportIds (managerId orgId : Nat) : Service (List Nat) :=
  query fun db => db.directReportIds managerId orgId

/-- The keys of the managers, as one query returns them. -/
def Db.managerIds (db : Db) (employeeId orgId : Nat) : List Nat :=
  (db.managerEmployees.select fun r =>
    r.employeeId = employeeId ∧ db.Member r.employeeId orgId).map
      (·.managerId)

/-- The columns of `select` that both team routes answer with. -/
structure TeamUser where
  id : Nat
  name : String
  email : String
  role : UserRole
  department : Option String
  status : ActiveStatus
deriving DecidableEq

def User.teamUser (u : User) : TeamUser where
  id := u.id
  name := u.name
  email := u.email
  role := u.role
  department := u.department
  status := u.status

/-- A direct report, with the two timestamps only this route selects. -/
structure TeamMember where
  user : TeamUser
  createdAt : Instant
  updatedAt : Instant
deriving DecidableEq

def User.teamMember (u : User) : TeamMember where
  user := u.teamUser
  createdAt := u.createdAt
  updatedAt := u.updatedAt

/-- The users with these keys, one for each key that has a row. -/
def Db.usersOf (db : Db) (ids : List Nat) : List User :=
  ids.filterMap fun id => db.users.find? fun u => u.id = id

def getTeamMembers (managerId orgId : Nat) : Service (List TeamMember) :=
  query fun db =>
    (db.usersOf (db.directReportIds managerId orgId)).map User.teamMember

def getManagersOfUser (employeeId orgId : Nat) : Service (List TeamUser) :=
  query fun db =>
    (db.usersOf (db.managerIds employeeId orgId)).map User.teamUser

/-- Users that `assignManagers` accepts as managers in an organisation. -/
def Db.validManager (db : Db) (orgId id : Nat) : Prop :=
  ∃ u ∈ db.users.rows, u.id = id ∧ u.organisationId = orgId ∧
    (u.role = .manager ∨ u.role = .admin) ∧ u.status = .active

instance (db : Db) (orgId id : Nat) : Decidable (db.validManager orgId id) :=
  inferInstanceAs (Decidable (∃ u ∈ db.users.rows, _))

/-- `ids.join(', ')`. -/
def joinIds (ids : List Nat) : String :=
  ", ".intercalate (ids.map toString)

/-- Replaces the whole set of managers in one transaction. -/
def replaceManagers (employeeId : Nat) (managerIds : List Nat) :
    Tx PUnit := do
  Prisma.managerEmployeeDeleteMany (fun r => r.employeeId = employeeId)
  if managerIds.length > 0 then
    Prisma.managerEmployeeCreateMany
      (managerIds.map fun managerId => (managerId, employeeId))
  else
    return ⟨⟩

def assignManagers (employeeId : Nat) (managerIds : List Nat)
    (orgId : Nat) : Service PUnit := do
  throwIf (employeeId ∈ managerIds)
    (.validationError "A user cannot be assigned as their own manager")
  whenever (managerIds.length > 0) do
    let invalidIds ← query fun db =>
      managerIds.filter fun id => ¬ db.validManager orgId id
    throwIf (invalidIds.length > 0)
      (.validationError
        ("Invalid manager IDs: " ++ joinIds invalidIds ++
          ". Must be active users with MANAGER or ADMIN role in the same " ++
          "organisation."))
  statement (replaceManagers employeeId managerIds)

def removeAllManagedEmployees (managerId : Nat) : Service PUnit :=
  statement
    (Prisma.managerEmployeeDeleteMany fun r => r.managerId = managerId)

/-- The projects of the organisation assigned to an employee. -/
def Db.assignedProjectIds (db : Db) (employeeId orgId : Nat) : List Nat :=
  (db.projectEmployees.select fun r =>
    r.employeeId = employeeId ∧
      ∃ p ∈ db.projects.rows, p.id = r.projectId ∧
        p.organisationId = orgId).map (·.projectId)

def getAssignedProjectIds (employeeId orgId : Nat) : Service (List Nat) :=
  query fun db => db.assignedProjectIds employeeId orgId

/-- Users that `assignEmployeesToProject` accepts. -/
def Db.validEmployee (db : Db) (orgId id : Nat) : Prop :=
  ∃ u ∈ db.users.rows, u.id = id ∧ u.organisationId = orgId ∧
    u.status = .active

instance (db : Db) (orgId id : Nat) : Decidable (db.validEmployee orgId id) :=
  inferInstanceAs (Decidable (∃ u ∈ db.users.rows, _))

/-- Replaces the whole set of assigned employees in one transaction. -/
def replaceEmployees (projectId : Nat) (employeeIds : List Nat) :
    Tx PUnit := do
  Prisma.projectEmployeeDeleteMany (fun r => r.projectId = projectId)
  if employeeIds.length > 0 then
    Prisma.projectEmployeeCreateMany
      (employeeIds.map fun employeeId => (projectId, employeeId))
  else
    return ⟨⟩

/-- Exported beside `assignProjectsToEmployee`, but no route calls it. -/
def assignEmployeesToProject (projectId : Nat) (employeeIds : List Nat)
    (orgId : Nat) : Service PUnit := do
  whenever (employeeIds.length > 0) do
    let invalidIds ← query fun db =>
      employeeIds.filter fun id => ¬ db.validEmployee orgId id
    throwIf (invalidIds.length > 0)
      (.validationError
        ("Invalid employee IDs: " ++ joinIds invalidIds ++
          ". Must be active users in the same organisation."))
  statement (replaceEmployees projectId employeeIds)

/-- Projects that `assignProjectsToEmployee` accepts. -/
def Db.validProject (db : Db) (orgId id : Nat) : Prop :=
  ∃ p ∈ db.projects.rows, p.id = id ∧ p.organisationId = orgId ∧
    p.status = .active

instance (db : Db) (orgId id : Nat) : Decidable (db.validProject orgId id) :=
  inferInstanceAs (Decidable (∃ p ∈ db.projects.rows, _))

/-- Replaces the whole set of assigned projects in one transaction. -/
def replaceProjects (employeeId : Nat) (projectIds : List Nat) :
    Tx PUnit := do
  Prisma.projectEmployeeDeleteMany (fun r => r.employeeId = employeeId)
  if projectIds.length > 0 then
    Prisma.projectEmployeeCreateMany
      (projectIds.map fun projectId => (projectId, employeeId))
  else
    return ⟨⟩

def assignProjectsToEmployee (employeeId : Nat) (projectIds : List Nat)
    (orgId : Nat) : Service PUnit := do
  whenever (projectIds.length > 0) do
    let invalidIds ← query fun db =>
      projectIds.filter fun id => ¬ db.validProject orgId id
    throwIf (invalidIds.length > 0)
      (.validationError
        ("Invalid project IDs: " ++ joinIds invalidIds ++
          ". Must be active projects in the same organisation."))
  statement (replaceProjects employeeId projectIds)

/-- The row `assertIsDirectReport` looks for. -/
def Db.isDirectReport (db : Db) (managerId employeeId orgId : Nat) : Prop :=
  ∃ r ∈ db.managerEmployees.rows, r.managerId = managerId ∧
    r.employeeId = employeeId ∧ db.Member r.managerId orgId

instance (db : Db) (managerId employeeId orgId : Nat) :
    Decidable (db.isDirectReport managerId employeeId orgId) :=
  inferInstanceAs (Decidable (∃ r ∈ db.managerEmployees.rows, _))

def assertIsDirectReport (managerId employeeId orgId : Nat) :
    Service PUnit := do
  let assignment ← query fun db =>
    decide (db.isDirectReport managerId employeeId orgId)
  throwIf (assignment = false)
    (.forbiddenError "You can only manage timesheets of your direct reports"
      .notDirectReport)

end TmsApi
