import TmsApi.Services.Team

/-!
# `services/users.service.ts` and `services/auth.service.ts`

User management by managers and administrators, and the sessions of users:
registration of an organisation with its first administrator, login, token
refresh and logout.
-/

namespace TmsApi

open TmsApi.Core
open TmsApi.Core.Program

section

variable (lib : Libs) (host : Host)

/-! ## User management -/

def assertCanManageUser (requestingUserId : Nat)
    (requestingRole : UserRole) (targetUserId orgId : Nat) :
    Service PUnit :=
  whenever (requestingRole ≠ .admin) do
    let directReportIds ← getDirectReportIds requestingUserId orgId
    throwIf (targetUserId ∉ directReportIds)
      (.forbiddenError "You can only manage your direct reports"
        .notDirectReport)

/-- The projects a MANAGER may assign: those they manage. -/
def assertManagesProjects (projectIds : List Nat)
    (requestingUserId orgId : Nat) : Service PUnit := do
  let managedIds ← query fun db =>
    (db.projectManagers.select fun r =>
      r.managerId = requestingUserId ∧
        ∃ p ∈ db.projects.rows, p.id = r.projectId ∧
          p.organisationId = orgId).map (·.projectId)
  let unauthorized := projectIds.filter fun pid => pid ∉ managedIds
  throwIf (unauthorized.length > 0)
    (.forbidden "Managers can only assign projects they manage")

/-- The last part of `createUser` and `updateUser`. -/
def assignGivenProjects (userId : Nat) (projectIds : List Nat)
    (orgId requestingUserId : Nat) (requestingRole : UserRole) :
    Service PUnit := do
  whenever (requestingRole = .manager)
    (assertManagesProjects projectIds requestingUserId orgId)
  assignProjectsToEmployee userId projectIds orgId

/-- The managers a new user gets; a MANAGER caller gets the user by default. -/
def initialManagers (managerIds : Option (List Nat))
    (requestingUserId : Nat) (requestingRole : UserRole) : List Nat :=
  if requestingRole = .manager ∧ (managerIds.getD []).length = 0 then
    [requestingUserId]
  else
    managerIds.getD []

def createUser (orgId : Nat) (dto : CreateUserDto)
    (requestingUserId : Nat) (requestingRole : UserRole) :
    Service User := do
  throwIf (requestingRole = .manager ∧ ∃ r ∈ dto.role, r ≠ .employee)
    (.forbidden "Managers can only create employees")
  let existing ← query fun db => db.users.find? fun u =>
    lib.collate u.email = lib.collate dto.email
  throwIf (existing.isSome)
    (.conflictError "Email address is already in use")
  let user ← statement <| Prisma.userCreate lib.collate host.now
    { organisationId := orgId
      name := dto.name
      email := dto.email
      passwordHash := lib.bcryptHash dto.password host.salt
      role := dto.role.getD .employee
      department := dto.department }
  let managerIds :=
    initialManagers dto.managerIds requestingUserId requestingRole
  whenever (managerIds.length > 0)
    (assignManagers user.id managerIds orgId)
  let projectIds := dto.projectIds.getD []
  whenever (projectIds.length > 0)
    (assignGivenProjects user.id projectIds orgId requestingUserId
      requestingRole)
  return user

def updateUser (id orgId : Nat) (dto : UpdateUserDto)
    (requestingUserId : Nat) (requestingRole : UserRole) :
    Service User := do
  let found ← query fun db => db.users.find? fun u =>
    u.id = id ∧ u.organisationId = orgId
  let user ← orThrow found (.notFoundError "User")
  assertCanManageUser requestingUserId requestingRole id orgId
  throwIf (requestingRole = .manager ∧ ∃ r ∈ dto.role, r ≠ .employee)
    (.forbidden "Managers can only assign the Employee role")
  let updated ← statement <| Prisma.userUpdate host.now id
    { name := dto.name
      role := dto.role
      department := dto.department
      status := dto.status }
  let newRole := dto.role.getD user.role
  whenever (newRole = .employee ∧ user.role ≠ .employee)
    (removeAllManagedEmployees id)
  whenever (dto.managerIds.isSome)
    (assignManagers id (dto.managerIds.getD []) orgId)
  whenever (dto.projectIds.isSome)
    (assignGivenProjects id (dto.projectIds.getD []) orgId requestingUserId
      requestingRole)
  return updated

def deactivateUser (id orgId requestingUserId : Nat)
    (requestingRole : UserRole) : Service PUnit := do
  let found ← query fun db => db.users.find? fun u =>
    u.id = id ∧ u.organisationId = orgId
  let _ ← orThrow found (.notFoundError "User")
  assertCanManageUser requestingUserId requestingRole id orgId
  let _ ← statement <| Prisma.userUpdate host.now id
    { status := some .inactive, refreshToken := some none }
  return ⟨⟩

/-! ## Sessions -/

/-- `AuthResult`; the payload is the one both tokens were signed for. -/
structure AuthResult where
  accessToken : String
  refreshToken : String
  user : JwtPayload
  name : String
  email : String

/-- The payload of a user's tokens. -/
def User.payload (u : User) : JwtPayload where
  userId := u.id
  orgId := u.organisationId
  role := u.role

/-- Signs both tokens, stores the hash of the refresh token and answers. -/
def openSession (user : User) : Service AuthResult := do
  let accessToken := lib.jwtSign .access user.payload host.now
  let refreshToken := lib.jwtSign .refresh user.payload host.now
  let _ ← statement <| Prisma.userUpdate host.now user.id
    { refreshToken := some (some (lib.bcryptHash refreshToken host.salt)) }
  return {
    accessToken := accessToken
    refreshToken := refreshToken
    user := user.payload
    name := user.name
    email := user.email }

/-- The transaction of `registerUser`. -/
def createOrganisation (dto : RegisterDto) (passwordHash : String) :
    Tx User := do
  let org ← Prisma.organisationCreate dto.organisationName
  let _ ← Prisma.orgSettingsCreate org.id
  Prisma.userCreate lib.collate host.now
    { organisationId := org.id
      name := dto.name
      email := dto.email
      passwordHash := passwordHash
      role := .admin
      department := none }

def registerUser (dto : RegisterDto) : Service AuthResult := do
  let existing ← query fun db => db.users.find? fun u =>
    lib.collate u.email = lib.collate dto.email
  throwIf (existing.isSome)
    (.conflictError "Email address is already registered")
  let user ← statement <|
    createOrganisation lib host dto (lib.bcryptHash dto.password host.salt)
  openSession lib host user

def loginUser (dto : LoginDto) : Service AuthResult := do
  let found ← query fun db => db.users.find? fun u =>
    lib.collate u.email = lib.collate dto.email
  let user ← orThrow (found.filter fun u => u.status ≠ .inactive)
    (.unauthorizedError "Invalid email or password")
  throwIf (lib.bcryptCompare dto.password user.passwordHash = false)
    (.unauthorizedError "Invalid email or password")
  openSession lib host user

def refreshAccessToken (incomingRefreshToken : String) :
    Service AuthResult := do
  let payload ←
    orThrow (lib.jwtVerify .refresh incomingRefreshToken host.now)
      (.unauthorizedError "Invalid or expired refresh token")
  let found ← query fun db => db.users.find? fun u =>
    u.id = payload.userId
  let user ← orThrow found (.unauthorizedError "Refresh token revoked")
  let stored ← orThrow user.refreshToken
    (.unauthorizedError "Refresh token revoked")
  whenever (lib.bcryptCompare incomingRefreshToken stored = false) do
    let _ ← statement <| Prisma.userUpdate host.now payload.userId
      { refreshToken := some none }
    throw (.unauthorizedError "Refresh token mismatch")
  openSession lib host user

def logoutUser (userId : Nat) : Service PUnit := do
  let _ ← statement <| Prisma.userUpdate host.now userId
    { refreshToken := some none }
  return ⟨⟩

end

end TmsApi
