import TmsApi.Services.Team

/-!
# `services/projects.service.ts`

Creation, update and deletion of projects with their manager and employee
links.
-/

namespace TmsApi

open TmsApi.Core
open TmsApi.Core.Program

section

variable (lib : Libs) (host : Host)

/-- The guard on the employees a MANAGER assigns to a project. -/
def assertDirectReports (employeeIds : List Nat) (userId orgId : Nat) :
    Service PUnit := do
  let directReportIds ← getDirectReportIds userId orgId
  let unauthorized := employeeIds.filter fun id => id ∉ directReportIds
  throwIf (unauthorized.length > 0)
    (.forbidden "Managers can only assign their direct reports to projects")

/-- `managerCreateList`. -/
def managerCreateList (managerIds : Option (List Nat))
    (creatingUserId : Nat) (creatingUserRole : UserRole) : List Nat :=
  if creatingUserRole = .manager then
    creatingUserId ::
      (managerIds.getD []).filter fun id => id ≠ creatingUserId
  else
    managerIds.getD []

def createProject (orgId : Nat) (dto : CreateProjectDto)
    (creatingUserId : Nat) (creatingUserRole : UserRole) :
    Service Project := do
  let existing ← query fun db => db.projects.find? fun p =>
    p.organisationId = orgId ∧ lib.collate p.code = lib.collate dto.code
  throwIf (existing.isSome)
    (.conflictError
      ("Project code \"" ++ dto.code ++
        "\" already exists in this organisation"))
  let employeeIds := dto.employeeIds.getD []
  whenever (employeeIds.length > 0 ∧ creatingUserRole = .manager)
    (assertDirectReports employeeIds creatingUserId orgId)
  statement <| Prisma.projectCreate lib.collate host.now
    { organisationId := orgId
      code := dto.code
      name := dto.name
      client := dto.client
      budgetHours := dto.budgetHours.getD 0
      status := dto.status.getD .active }
    (managerCreateList dto.managerIds creatingUserId creatingUserRole)
    employeeIds

/-- The replacement of one set of links, when the body has the list. -/
def replaceLinks (delete : Tx PUnit) (create : List (Nat × Nat) → Tx PUnit)
    (projectId : Nat) : Option (List Nat) → Tx PUnit
  | none => return ⟨⟩
  | some ids => do
      delete
      if ids.length > 0 then
        create (ids.map fun id => (projectId, id))
      else
        return ⟨⟩

/-- The transaction of `updateProject`. -/
def writeProject (id : Nat) (dto : UpdateProjectDto) : Tx Project := do
  let project ← Prisma.projectUpdate lib.collate host.now id
    { code := dto.code
      name := dto.name
      client := dto.client
      budgetHours := dto.budgetHours
      status := dto.status }
  replaceLinks (Prisma.projectManagerDeleteMany id)
    Prisma.projectManagerCreateMany id dto.managerIds
  replaceLinks (Prisma.projectEmployeeDeleteMany fun r => r.projectId = id)
    Prisma.projectEmployeeCreateMany id dto.employeeIds
  return project

def updateProject (id orgId : Nat) (dto : UpdateProjectDto)
    (requestingUserId : Nat) (requestingRole : UserRole) :
    Service Project := do
  let found ← query fun db => db.projects.find? fun p =>
    p.id = id ∧ p.organisationId = orgId
  let project ← orThrow found (.notFoundError "Project")
  whenever (∃ code ∈ dto.code, code ≠ project.code) do
    let codeConflict ← query fun db => db.projects.find? fun p =>
      p.organisationId = orgId ∧
        (∃ code ∈ dto.code, lib.collate p.code = lib.collate code) ∧
        p.id ≠ id
    throwIf (codeConflict.isSome)
      (.conflictError
        ("Project code \"" ++ dto.code.getD "" ++ "\" already exists"))
  whenever (dto.employeeIds.isSome ∧ requestingRole = .manager)
    (assertDirectReports (dto.employeeIds.getD []) requestingUserId orgId)
  statement (writeProject lib host id dto)

def deleteProject (id orgId : Nat) : Service PUnit := do
  let found ← query fun db => db.projects.find? fun p =>
    p.id = id ∧ p.organisationId = orgId
  let _ ← orThrow found (.notFoundError "Project")
  statement (Prisma.projectDelete id)

end

end TmsApi
