import TmsApi.Refinement.TeamRuns

/-!
# No escalation without an administrator

A run whose user, team and project requests all come from managers and
employees keeps what these callers cannot reach in an organisation: nobody
of it gains the role of a manager or an administrator, and a
user without a manager keeps its profile and stays without one.  Managers move
their reports and create new users, so the users in reach change along the
run; a user nobody manages is never among them.
-/

namespace TmsApi

open TmsApi.Core
open TmsApi.Core.Program

namespace Db

/-- A user of the organisation with the role of a manager or administrator. -/
def LeadsIn (db : Db) (orgId id : Nat) : Prop :=
  ∃ u ∈ db.users.rows, u.id = id ∧ u.organisationId = orgId ∧
    (u.role = .manager ∨ u.role = .admin)

end Db

/-- The columns of a user that only user requests write. -/
structure SameProfile (before after : User) : Prop where
  id : after.id = before.id
  name : after.name = before.name
  role : after.role = before.role
  department : after.department = before.department
  status : after.status = before.status

/-- What cannot be reached in an organisation without an administrator. -/
structure Confined (orgId : Nat) (before after : Db) : Prop where
  leads : ∀ id, after.LeadsIn orgId id → before.LeadsIn orgId id
  profiles : ∀ u ∈ before.users.rows, u.organisationId = orgId →
    before.Unmanaged u.id →
      after.Unmanaged u.id ∧ ∃ v ∈ after.users.rows, SameProfile u v

/-- The user, team and project requests. -/
inductive Call.Staffing : Call → Prop where
  | createUser (dto : CreateUserDto) : Staffing (.createUser dto)
  | updateUser (id : Nat) (dto : UpdateUserDto) :
      Staffing (.updateUser id dto)
  | deactivateUser (id : Nat) : Staffing (.deactivateUser id)
  | setUserManagers (id : Nat) (managerIds : List Nat) :
      Staffing (.setUserManagers id managerIds)
  | createProject (dto : CreateProjectDto) : Staffing (.createProject dto)
  | updateProject (id : Nat) (dto : UpdateProjectDto) :
      Staffing (.updateProject id dto)
  | deleteProject (id : Nat) : Staffing (.deleteProject id)

/-- User, team and project requests come from managers and employees. -/
def Request.StaffedBelow : Request → Prop
  | .authenticated _ caller call => call.Staffing → caller.role ≠ .admin
  | .anonymous _ _ => True

namespace SameProfile

theorem refl (u : User) : SameProfile u u :=
  ⟨rfl, rfl, rfl, rfl, rfl⟩

theorem trans {u v w : User} (left : SameProfile u v)
    (right : SameProfile v w) : SameProfile u w :=
  ⟨right.id.trans left.id, right.name.trans left.name,
    right.role.trans left.role, right.department.trans left.department,
    right.status.trans left.status⟩

end SameProfile

namespace Confined

variable {orgId : Nat} {origin db : Db}

theorem refl (db : Db) : Confined orgId db db :=
  ⟨fun _ => id, fun u member _ unmanaged =>
    ⟨unmanaged, u, member, .refl u⟩⟩

/-- A change that promotes nobody and leaves the unmanaged users alone. -/
theorem extend {after : Db} (confined : Confined orgId origin db)
    (leads : ∀ u ∈ after.users.rows, u.organisationId = orgId →
      (u.role = .manager ∨ u.role = .admin) → db.LeadsIn orgId u.id)
    (unmanaged : ∀ u ∈ origin.users.rows, u.organisationId = orgId →
      origin.Unmanaged u.id → db.Unmanaged u.id → after.Unmanaged u.id)
    (profiles : ∀ u ∈ origin.users.rows, u.organisationId = orgId →
      origin.Unmanaged u.id → ∀ v ∈ db.users.rows, v.id = u.id →
        ∃ w ∈ after.users.rows, SameProfile v w) :
    Confined orgId origin after where
  leads id leading := by
    rcases leading with ⟨u, member, rfl, org, role⟩
    exact confined.leads u.id (leads u member org role)
  profiles u member org free := by
    rcases confined.profiles u member org free with
      ⟨still, v, vMem, profile⟩
    rcases profiles u member org free v vMem profile.id with
      ⟨w, wMem, same⟩
    exact ⟨unmanaged u member org free still, w, wMem, profile.trans same⟩

/-- Changes that do not touch the users and drop no protection. -/
theorem of_users {after : Db} (confined : Confined orgId origin db)
    (users : after.users = db.users)
    (unmanaged : ∀ u ∈ origin.users.rows, u.organisationId = orgId →
      origin.Unmanaged u.id → db.Unmanaged u.id → after.Unmanaged u.id) :
    Confined orgId origin after := by
  refine confined.extend ?_ unmanaged ?_
  · intro u member org role
    rw [users] at member
    exact ⟨u, member, rfl, org, role⟩
  · intro u _ _ _ v member _
    rw [users]
    exact ⟨v, member, .refl v⟩

/-- A new user that leads nobody here. -/
theorem addUser (confined : Confined orgId origin db) {data : UserData}
    (harmless : data.organisationId = orgId → data.role = .employee)
    (now : Instant) : Confined orgId origin (db.addUser now data) := by
  refine confined.extend ?_ (fun _ _ _ _ free => free) ?_
  · intro u member org role
    rcases Db.mem_addUser.mp member with old | rfl
    · exact ⟨u, old, rfl, org, role⟩
    · have junior : (data.row now db.users.next).role = .employee :=
        harmless org
      simp [junior] at role
  · intro u _ _ _ v member _
    exact ⟨v, Db.mem_addUser.mpr (.inl member), .refl v⟩

/-- An update that promotes nobody, of a user that is not protected. -/
theorem setUser (confined : Confined orgId origin db) {id : Nat}
    {data : UserUpdate} (junior : ∀ role ∈ data.role, role = .employee)
    (now : Instant)
    (reached : data = { refreshToken := data.refreshToken } ∨
      ∀ u ∈ origin.users.rows, u.organisationId = orgId →
        origin.Unmanaged u.id → u.id ≠ id) :
    Confined orgId origin (db.setUser now id data) := by
  refine confined.extend ?_ (fun _ _ _ _ free => free) ?_
  · intro u member org role
    rcases Db.mem_setUser.mp member with ⟨old, oldMem, rfl⟩
    by_cases touched : old.id = id
    · rw [if_pos touched] at org role ⊢
      refine ⟨old, oldMem, rfl, org, ?_⟩
      cases given : data.role with
      | none => simpa [UserUpdate.apply, given] using role
      | some new =>
          cases junior new given
          simp [UserUpdate.apply, given] at role
    · rw [if_neg touched] at org role ⊢
      exact ⟨old, oldMem, rfl, org, role⟩
  · intro u member org free v vMem key
    refine ⟨_, Db.mem_setUser.mpr ⟨v, vMem, rfl⟩, ?_⟩
    split
    · rename_i touched
      rcases reached with session | apart
      · rw [session]
        exact ⟨rfl, rfl, rfl, rfl, rfl⟩
      · exact (apart u member org free (key.symm.trans touched)).elim
    · exact .refl v

end Confined

section

variable {lib : Libs} {host : Host} {caller : JwtPayload} {call : Call}
  {orgId : Nat} {origin start db after : Db}

theorem Call.SavesUser.staffing (saves : call.SavesUser) : call.Staffing := by
  cases saves with
  | create dto => exact .createUser dto
  | update id dto => exact .updateUser id dto

theorem Managing.manager (role : Managing caller)
    (below : caller.role ≠ .admin) : caller.role = .manager :=
  role.resolve_right below

/-- Without an administrator only managed users are managed. -/
theorem Manages.managed {id : Nat} (manages : Manages caller db id)
    (below : caller.role ≠ .admin) : ¬ db.Unmanaged id := by
  intro free
  rcases List.mem_map.mp (manages.report below) with ⟨r, selected, key⟩
  exact free r (Table.mem_select.mp selected).1 key

/-- A user without a manager is out of reach in the whole request. -/
theorem Confined.not_reached (confined : Confined orgId origin start)
    (below : caller.role ≠ .admin) {id : Nat}
    (reach : Reaches caller start db id) :
    ∀ u ∈ origin.users.rows, u.organisationId = orgId →
      origin.Unmanaged u.id → u.id ≠ id := by
  rintro u member org free rfl
  rcases confined.profiles u member org free with ⟨still, v, vMem, profile⟩
  cases reach with
  | managed manages => exact manages.managed below still
  | created fresh _ => exact fresh ⟨v, vMem, profile.id⟩

theorem Confined.withManagers (confined : Confined orgId origin db)
    {employeeId : Nat} {managerIds : List Nat}
    (apart : ∀ u ∈ origin.users.rows, u.organisationId = orgId →
      origin.Unmanaged u.id → u.id ≠ employeeId) :
    Confined orgId origin (db.withManagers employeeId managerIds) := by
  refine confined.of_users rfl fun u member org free still r rMem => ?_
  rcases Db.mem_withManagers rMem with ⟨old, _⟩ | ⟨_, key⟩
  · exact still r old
  · exact fun same => apart u member org free (same.symm.trans key)

theorem Confined.reviseUser (confined : Confined orgId origin db)
    {user : User} {dto : UpdateUserDto}
    (junior : ∀ role ∈ dto.role, role = .employee) (now : Instant)
    (apart : ∀ u ∈ origin.users.rows, u.organisationId = orgId →
      origin.Unmanaged u.id → u.id ≠ user.id) :
    Confined orgId origin (db.reviseUser now user dto) := by
  have updated : Confined orgId origin (db.setUser now user.id dto.columns) :=
    confined.setUser junior now (.inr apart)
  refine updated.of_users Db.reviseUser_users ?_
  exact fun u _ _ _ still r member => still r (Db.mem_reviseUser.mp member).1

theorem TeamChange.confined (began : Confined orgId origin start)
    (below : call.Staffing → caller.role ≠ .admin)
    (confined : Confined orgId origin db)
    (change : TeamChange lib host caller call start db after) :
    Confined orgId origin after := by
  cases change with
  | loggedOut made known =>
      exact confined.setUser (by simp) host.now (.inl rfl)
  | userCreated dto made begins role may =>
      subst made
      have lower := below (.createUser dto)
      refine confined.addUser (fun _ => ?_) host.now
      show dto.role.getD .employee = .employee
      cases given : dto.role with
      | none => rfl
      | some new => exact may.junior (role.manager lower) new given
  | userUpdated user dto made begins role may =>
      subst made begins
      have lower := below (.updateUser user.id dto)
      have reach : Reaches caller db db user.id := .managed may.manages
      exact confined.reviseUser (may.junior (role.manager lower)) host.now
        (began.not_reached lower reach)
  | deactivated id made begins role manages =>
      subst made begins
      have lower := below (.deactivateUser id)
      have reach : Reaches caller db db id := .managed manages
      exact confined.setUser (by simp [deactivation]) host.now
        (.inr (began.not_reached lower reach))
  | managersReplaced employeeId managerIds made role reach may =>
      exact confined.withManagers
        (began.not_reached (below made.staffing) reach)
  | managersSet employeeId managerIds made begins role accepted may =>
      subst made
      exact (below (.setUserManagers employeeId managerIds) role).elim
  | projectsReplaced employeeId projectIds made role reach may =>
      exact confined.of_users rfl fun _ _ _ _ still => still
  | projectCreated dto made begins role accepted may =>
      exact confined.of_users rfl fun _ _ _ _ still => still
  | projectUpdated p dto made begins role accepted may =>
      exact confined.of_users rfl fun _ _ _ _ still => still
  | projectDeleted p made begins role member org unused =>
      exact confined.of_users rfl fun _ _ _ _ still => still

/-- A registration founds another organisation. -/
theorem PublicChange.confined (founded : db.organisations.HasKey orgId)
    (confined : Confined orgId origin db)
    (change : PublicChange lib host db after) :
    Confined orgId origin after := by
  rcases change.cases_after with ⟨dto, passwordHash, rfl⟩ | ⟨id, token, rfl⟩
  · refine (confined.of_users rfl fun _ _ _ _ still => still :
      Confined orgId origin
        { db.addOrganisation host dto passwordHash with
          users := db.users }).addUser (fun home => ?_) host.now
    subst home
    exact (db.organisations.not_hasKey_next founded).elim
  · exact confined.setUser (by simp) host.now (.inl rfl)

end

/-! ## Runs -/

namespace World

variable {lib : Libs} {orgId : Nat} {origin : Db} {world : World}
  {request : Request}

/-- A world some of these requests can have led to. -/
structure Reached (orgId : Nat) (origin : Db) (world : World) : Prop where
  integrity : world.db.Integrity
  founded : world.db.organisations.HasKey orgId
  confined : Confined orgId origin world.db

theorem Reached.step (reached : Reached orgId origin world)
    (below : request.StaffedBelow) :
    Reached orgId origin (world.step lib request) := by
  have grows := step_grows lib world request
  have kept : (world.step lib request).db.organisations.HasKey orgId ∧
      Confined orgId origin (world.step lib request).db := by
    refine team_keeps (fun db => db.organisations.HasKey orgId ∧
      Confined orgId origin db) reached.integrity
      ⟨reached.founded, reached.confined⟩ ?_ ?_ ?_
    · intro after same
      refine ⟨same.organisations ▸ reached.founded,
        reached.confined.of_users same.users fun _ _ _ _ still => ?_⟩
      rwa [Db.Unmanaged, same.managerEmployees]
    · rintro host caller call rfl signed db after steps ⟨founded, confined⟩
        change
      exact ⟨change.organisations ▸ founded,
        change.confined reached.confined below confined⟩
    · rintro host call _ db after ⟨founded, confined⟩ change
      refine ⟨?_, change.confined founded confined⟩
      rcases change.cases_after with ⟨dto, hash, rfl⟩ | ⟨id, token, rfl⟩
      · exact founded.insert
      · exact founded
  exact ⟨grows.integrity reached.integrity, kept.1, kept.2⟩

end World

/--
From any database with the foreign keys of the schema, requests of managers
and employees add no manager or administrator to an organisation, and leave
its users without a manager as they are.
-/
theorem no_escalation (lib : Libs) (orgId : Nat) (world : World)
    (holds : world.db.Integrity)
    (founded : world.db.organisations.HasKey orgId)
    (requests : List Request)
    (below : ∀ request ∈ requests, request.StaffedBelow) :
    Confined orgId world.db (world.run lib requests).db := by
  have start : World.Reached orgId world.db world :=
    ⟨holds, founded, .refl world.db⟩
  exact (World.run_along (fun _ _ reached below => reached.step below) start
    (World.along_of_forall below world)).confined

/-- A manager creates an employee; the administrator, whom nobody manages,
is as before. -/
theorem no_escalation_office :
    Confined 1 officeDb
      ((World.empty.run plainLibs officeRun).run plainLibs
        [.addUser eve "joe@acme" .employee]).db := by
  refine no_escalation plainLibs 1 (World.empty.run plainLibs officeRun)
    (World.sound_run plainLibs officeRun).integrity ?_ _ ?_
  · decide +kernel
  · intro request member
    cases List.mem_singleton.mp member
    exact fun _ => by decide

end TmsApi
