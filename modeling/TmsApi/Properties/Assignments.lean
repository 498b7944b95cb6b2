import TmsApi.Refinement.Runs

/-!
# Assignments outside a manager's authority

`updateProject` and `updateUser` replace a whole set of assignments and check
the authority of a MANAGER caller on the new set only.  What other managers
had assigned is dropped without a check, so the assignments outside the
authority of the caller are kept exactly when the replaced set has none.
-/

namespace TmsApi

open TmsApi.Core
open TmsApi.Core.Program

namespace Db

/-- The employee is a direct report of the manager. -/
def ReportsTo (db : Db) (managerId employeeId : Nat) : Prop :=
  ∃ r ∈ db.managerEmployees.rows,
    r.managerId = managerId ∧ r.employeeId = employeeId

/-- The project is managed by the manager. -/
def ManagedBy (db : Db) (managerId projectId : Nat) : Prop :=
  ∃ r ∈ db.projectManagers.rows,
    r.managerId = managerId ∧ r.projectId = projectId

/-- Every assignment of a kind is the same before and after. -/
def KeepsAssignments (before after : Db) (kind : ProjectEmployee → Prop) :
    Prop :=
  ∀ r, kind r →
    (r ∈ after.projectEmployees.rows ↔ r ∈ before.projectEmployees.rows)

theorem KeepsAssignments.of_same {before after : Db}
    {kind : ProjectEmployee → Prop}
    (same : after.projectEmployees = before.projectEmployees) :
    before.KeepsAssignments after kind := by
  intro r _
  rw [same]

/--
Where the replaced rows give way to rows of another kind, the rows of the kind
are kept exactly when no replaced row is of it.
-/
theorem keepsAssignments_iff {before after : Db}
    {kind : ProjectEmployee → Prop} (replaced : ProjectEmployee → Prop)
    (kept : ∀ r, ¬ replaced r →
      (r ∈ after.projectEmployees.rows ↔ r ∈ before.projectEmployees.rows))
    (given : ∀ r ∈ after.projectEmployees.rows, replaced r → ¬ kind r) :
    before.KeepsAssignments after kind ↔
      ∀ r ∈ before.projectEmployees.rows, replaced r → ¬ kind r := by
  constructor
  · intro keeps r member gone outside
    exact given r ((keeps r outside).mpr member) gone outside
  · intro clean r outside
    by_cases gone : replaced r
    · constructor
      · intro member
        exact (given r member gone outside).elim
      · intro member
        exact (clean r member gone outside).elim
    · exact kept r gone

/-- Other users keep their projects. -/
theorem mem_withProjects_other {employeeId : Nat} {projectIds : List Nat}
    {db : Db} {r : ProjectEmployee} (apart : r.employeeId ≠ employeeId) :
    r ∈ (db.withProjects employeeId projectIds).projectEmployees.rows ↔
      r ∈ db.projectEmployees.rows :=
  Table.mem_replace_other (fun _ _ _ => rfl) apart

theorem mem_replacedEmployees {projectId : Nat} {ids : List Nat} {db : Db}
    {r : ProjectEmployee}
    (member : r ∈
      (db.withProjectEmployees projectId (some ids)).projectEmployees.rows) :
    (r ∈ db.projectEmployees.rows ∧ r.projectId ≠ projectId) ∨
      (r.projectId = projectId ∧ r.employeeId ∈ ids) := by
  rcases Table.mem_insertMany_map member with old | ⟨id, given, k, rfl⟩
  · exact .inl (Table.mem_deleteWhere.mp old)
  · exact .inr ⟨rfl, given⟩

/-- Other projects keep their employees. -/
theorem mem_replacedEmployees_other {projectId : Nat} {ids : List Nat}
    {db : Db} {r : ProjectEmployee} (apart : r.projectId ≠ projectId) :
    r ∈ (db.withProjectEmployees projectId
        (some ids)).projectEmployees.rows ↔
      r ∈ db.projectEmployees.rows :=
  Table.mem_replace_other (fun _ _ _ => rfl) apart

/-- A direct report, as the guard of the project routes lists them. -/
theorem reportsTo_of_directReport {db : Db} {managerId orgId employeeId : Nat}
    (report : employeeId ∈ db.directReportIds managerId orgId) :
    db.ReportsTo managerId employeeId := by
  rcases List.mem_map.mp report with ⟨r, selected, rfl⟩
  rcases Table.mem_select.mp selected with ⟨member, manager, _⟩
  exact ⟨r, member, manager, rfl⟩

/-- A managed project, as the guard of the user routes lists them. -/
theorem managesProject.managedBy {db : Db} {managerId orgId projectId : Nat}
    (manages : db.managesProject managerId orgId projectId) :
    db.ManagedBy managerId projectId := by
  rcases manages with ⟨r, member, ⟨manager, _⟩, rfl⟩
  exact ⟨r, member, manager, rfl⟩

end Db

/-! ## What the checks of `updateUser` see after its first write -/

section

variable {lib : Libs} {host : Host} {caller : JwtPayload} {db : Db}

/-- The update of a user leaves the other users as they are. -/
theorem validManager_reviseUser {now : Instant} {user : User}
    {dto : UpdateUserDto} {orgId id : Nat} (other : id ≠ user.id) :
    (db.reviseUser now user dto).validManager orgId id ↔
      db.validManager orgId id := by
  simp only [Db.validManager, Db.reviseUser_users]
  constructor
  · rintro ⟨u, member, rfl, valid⟩
    rcases Db.mem_setUser.mp member with ⟨old, oldMem, rfl⟩
    by_cases same : old.id = user.id
    · rw [if_pos same] at other
      exact (other same).elim
    · rw [if_neg same] at valid
      exact ⟨old, oldMem, by rw [if_neg same], valid⟩
  · rintro ⟨u, member, rfl, valid⟩
    exact ⟨u, Db.mem_setUser.mpr ⟨u, member, by rw [if_neg other]⟩, rfl, valid⟩

theorem hasKey_reviseUser {now : Instant} {user : User}
    {dto : UpdateUserDto} {id : Nat} :
    (db.reviseUser now user dto).users.HasKey id ↔ db.users.HasKey id := by
  rw [Db.reviseUser_users]
  exact Table.hasKey_modify

theorem replaceable_reviseUser {now : Instant} {user : User}
    {dto : UpdateUserDto} {orgId : Nat} {ids : List Nat} :
    Replaceable (db.reviseUser now user dto) orgId user.id ids ↔
      Replaceable db orgId user.id ids := by
  have valid (notSelf : user.id ∉ ids) :
      (∀ id ∈ ids, (db.reviseUser now user dto).validManager orgId id) ↔
        ∀ id ∈ ids, db.validManager orgId id :=
    forall₂_congr fun id given => validManager_reviseUser fun same =>
      notSelf (same ▸ given)
  constructor
  · intro may
    exact ⟨may.notSelf, (valid may.notSelf).mp may.valid, may.distinct,
      fun given => hasKey_reviseUser.mp (may.employee given)⟩
  · intro may
    exact ⟨may.notSelf, (valid may.notSelf).mpr may.valid, may.distinct,
      fun given => hasKey_reviseUser.mpr (may.employee given)⟩

/-- Projects that can be given depend on projects, links and user keys. -/
theorem Grantable.congr {other : Db} {id : Nat} {ids : List Nat}
    (projects : other.projects = db.projects)
    (managers : other.projectManagers = db.projectManagers)
    (users : ∀ id, other.users.HasKey id ↔ db.users.HasKey id) :
    Grantable caller other id ids ↔ Grantable caller db id ids := by
  have managed (id : Nat) :
      other.managesProject caller.userId caller.orgId id ↔
        db.managesProject caller.userId caller.orgId id := by
    simp only [Db.managesProject, projects, managers]
  have valid (id : Nat) : other.validProject caller.orgId id ↔
      db.validProject caller.orgId id := by
    simp only [Db.validProject, projects]
  constructor
  · rintro ⟨manages, assignable⟩
    refine ⟨fun role id given => (managed id).mp (manages role id given),
      fun id given => (valid id).mp (assignable.valid id given),
      assignable.distinct,
      fun given => (users _).mp (assignable.employee given)⟩
  · rintro ⟨manages, assignable⟩
    refine ⟨fun role id given => (managed id).mpr (manages role id given),
      fun id given => (valid id).mpr (assignable.valid id given),
      assignable.distinct, fun given =>
        (users _).mpr (assignable.employee given)⟩

/-! ## The two updates -/

/--
Where the update of a project goes through with a list of employees, everyone
assigned to the project reports to the caller.
-/
def DropsReportsOnly (lib : Libs) (caller : JwtPayload) (db : Db) (id : Nat)
    (dto : UpdateProjectDto) : Prop :=
  ∀ p, p.id = id → UpdatesProject lib caller db p dto →
    dto.employeeIds.isSome → ∀ r ∈ db.projectEmployees.rows,
      r.projectId = id → db.ReportsTo caller.userId r.employeeId

/--
Where the update of a user goes through with a list of projects, every project
of the user is managed by the caller.
-/
def DropsManagedOnly (caller : JwtPayload) (db : Db) (id : Nat)
    (dto : UpdateUserDto) : Prop :=
  ∀ user, user.id = id → UpdatesUser caller db user dto →
    (dto.managerIds.isSome →
      Replaceable db caller.orgId id (dto.managerIds.getD [])) →
    dto.projectIds.isSome →
    Grantable caller db id (dto.projectIds.getD []) →
      ∀ r ∈ db.projectEmployees.rows, r.employeeId = id →
        db.ManagedBy caller.userId r.projectId

theorem updateProject_keepsAssignments_iff (manager : caller.role = .manager)
    (id : Nat) (dto : UpdateProjectDto) :
    wp (updateProject lib host id caller.orgId dto caller.userId caller.role)
      (fun _ after => db.KeepsAssignments after fun r =>
        ¬ db.ReportsTo caller.userId r.employeeId) db ↔
      DropsReportsOnly lib caller db id dto := by
  refine wp_iff.mp (wp_updateProject ?_ ?_)
  · intro refused _
    refine iff_of_true (.of_same rfl) ?_
    intro p key may
    exact (refused ⟨p, key, may⟩).elim
  rintro p rfl may
  cases asked : dto.employeeIds with
  | none =>
      refine iff_of_true (.of_same rfl) ?_
      intro _ _ _ given
      simp [asked] at given
  | some ids =>
      refine (Db.keepsAssignments_iff (fun r => r.projectId = p.id)
        ?_ ?_).trans ?_
      · intro r apart
        exact Db.mem_replacedEmployees_other apart
      · intro r member replaced outside
        rcases Db.mem_replacedEmployees member with old | new
        · exact old.2 replaced
        · have given : r.employeeId ∈ dto.employeeIds.getD [] := by
            simpa [asked] using new.2
          exact outside
            (Db.reportsTo_of_directReport (may.reports manager _ given))
      · simp only [not_not]
        constructor
        · intro clean _ _ _ _
          exact clean
        · intro drops
          exact drops p rfl may (by simp [asked])

theorem updateUser_keepsAssignments_iff (manager : caller.role = .manager)
    (id : Nat) (dto : UpdateUserDto) :
    wp (updateUser host id caller.orgId dto caller.userId caller.role)
      (fun _ after => db.KeepsAssignments after fun r =>
        ¬ db.ManagedBy caller.userId r.projectId) db ↔
      DropsManagedOnly caller db id dto := by
  refine wp_iff.mp (wp_updateUser ?_ ?_)
  · intro refused _
    refine iff_of_true (.of_same rfl) ?_
    intro user key may
    exact (refused ⟨user, key, may⟩).elim
  rintro user rfl may
  have grantable (ids : List Nat) : Grantable caller
      ((db.reviseUser host.now user dto).withManagersIf dto.managerIds.isSome
        user.id (dto.managerIds.getD [])) user.id ids ↔
      Grantable caller db user.id ids := by
    refine Grantable.congr (by simp) (by simp) fun id => ?_
    rw [Db.withManagersIf_users]
    exact hasKey_reviseUser
  refine wp_assignLinks ?_ ?_ ?_
  · intro asked unmanaged _
    refine iff_of_true (.of_same (by simp)) ?_
    intro _ _ _ managers
    exact (unmanaged (replaceable_reviseUser.mpr (managers asked))).elim
  · intro _ _ ungranted _
    refine iff_of_true (.of_same (by simp)) ?_
    intro _ _ _ _ _ granted
    exact (ungranted ((grantable _).mpr granted)).elim
  · intro managers granted
    have managed (asked : dto.managerIds.isSome) :=
      replaceable_reviseUser.mp (managers asked)
    by_cases asked : dto.projectIds.isSome
    · have given := (grantable _).mp (granted asked)
      rw [Db.withProjectsIf, if_pos asked]
      refine (Db.keepsAssignments_iff (fun r => r.employeeId = user.id)
        ?_ ?_).trans ?_
      · intro r apart
        rw [Db.mem_withProjects_other apart, Db.withManagersIf_projectEmployees,
          Db.reviseUser_projectEmployees]
      · intro r member replaced outside
        rcases Db.mem_withProjects member with old | new
        · exact old.2 replaced
        · exact outside (given.managed manager _ new.1).managedBy
      · simp only [not_not]
        constructor
        · intro clean _ _ _ _ _ _
          exact clean
        · intro drops
          exact drops user rfl may managed asked given
    · rw [Db.withProjectsIf, if_neg asked]
      refine iff_of_true (.of_same (by simp)) ?_
      intro _ _ _ _ given
      exact (asked given).elim

end

/--
An update by a MANAGER keeps every assignment outside the manager's authority
exactly when the replaced set has none: for a project, when all its employees
report to the manager, and for a user, when the manager manages all its
projects.
-/
theorem manager_assignments_iff (lib : Libs) (host : Host)
    (userId orgId : Nat) (db : Db) (id : Nat) :
    (∀ dto : UpdateProjectDto,
      wp (updateProject lib host id orgId dto userId .manager)
        (fun _ after => db.KeepsAssignments after fun r =>
          ¬ db.ReportsTo userId r.employeeId) db ↔
        DropsReportsOnly lib ⟨userId, orgId, .manager⟩ db id dto) ∧
    (∀ dto : UpdateUserDto,
      wp (updateUser host id orgId dto userId .manager)
        (fun _ after => db.KeepsAssignments after fun r =>
          ¬ db.ManagedBy userId r.projectId) db ↔
        DropsManagedOnly ⟨userId, orgId, .manager⟩ db id dto) := by
  have manager : (⟨userId, orgId, .manager⟩ : JwtPayload).role = .manager :=
    rfl
  constructor
  · intro dto
    exact updateProject_keepsAssignments_iff manager id dto
  · intro dto
    exact updateUser_keepsAssignments_iff manager id dto

/-- An administrator creates an employee with the given managers. -/
def Request.addEmployee (admin : JwtPayload) (email : String)
    (managerIds : Option (List Nat)) : Request :=
  .authenticated plainHost admin
    (.createUser
      { name := "Bob"
        email := email
        password := "password"
        role := none
        department := none
        managerIds := managerIds
        projectIds := none })

/-- Ada's project has a report of Eve and an employee who is none. -/
def assignedDb : Db :=
  (World.empty.run plainLibs
    [.register "acme" "ada@acme", .addUser ada "eve@acme" .manager,
      .addEmployee ada "bob@acme" (some [2]),
      .addEmployee ada "cyd@acme" none,
      .authenticated plainHost ada
        (.createProject
          { code := "A"
            name := "A"
            client := "client"
            budgetHours := none
            status := none
            managerIds := none
            employeeIds := some [3, 4] })]).db

/-- A body that leaves only the given employees on a project. -/
def staffOnly (employeeIds : List Nat) : UpdateProjectDto where
  code := none
  name := none
  client := none
  budgetHours := none
  status := none
  managerIds := none
  employeeIds := some employeeIds

/-- A body that leaves only the given projects to a user. -/
def assignOnly (projectIds : List Nat) : UpdateUserDto where
  name := none
  role := none
  department := none
  status := none
  managerIds := none
  projectIds := some projectIds

/--
Eve drops an employee who does not report to her from a project, and the
project of another manager from her report.
-/
theorem foreign_assignments_dropped :
    (¬ wp (updateProject plainLibs plainHost 1 1 (staffOnly [3]) 2 .manager)
      (fun _ after => assignedDb.KeepsAssignments after fun r =>
        ¬ assignedDb.ReportsTo 2 r.employeeId) assignedDb) ∧
    ¬ wp (updateUser plainHost 3 1 (assignOnly []) 2 .manager)
      (fun _ after => assignedDb.KeepsAssignments after fun r =>
        ¬ assignedDb.ManagedBy 2 r.projectId) assignedDb := by
  have stored : assignedDb.projectEmployees.rows = [⟨1, 1, 3⟩, ⟨2, 1, 4⟩] ∧
      (∀ r ∈ assignedDb.managerEmployees.rows, r.employeeId ≠ 4) ∧
      assignedDb.projectManagers.rows = [] := by
    decide +kernel
  have left : ⟨2, 1, 4⟩ ∉ ((updateProject plainLibs plainHost 1 1
        (staffOnly [3]) 2 .manager).exec assignedDb).2.projectEmployees.rows ∧
      ⟨1, 1, 3⟩ ∉ ((updateUser plainHost 3 1 (assignOnly []) 2
        .manager).exec assignedDb).2.projectEmployees.rows := by
    decide +kernel
  rcases stored with ⟨rows, reports, managers⟩
  constructor
  · intro keeps
    refine left.1 ((keeps ⟨2, 1, 4⟩ ?_).mpr (by simp [rows]))
    rintro ⟨r, member, _, same⟩
    exact reports r member same
  · intro keeps
    refine left.2 ((keeps ⟨1, 1, 3⟩ ?_).mpr (by simp [rows]))
    rintro ⟨r, member, _⟩
    simp [managers] at member

end TmsApi
