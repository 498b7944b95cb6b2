import TmsApi.Properties.Hierarchy

/-!
# Links between projects and users

Every row that links a manager or an employee to a project stays inside one
organisation as long as no accepted `createProject` or `updateProject` names a
user of another organisation.  The routes check the employees only against the
reports of a MANAGER caller and the managers not at all, while the projects
given to a user are validated by `assignProjectsToEmployee`.
-/

namespace TmsApi

open TmsApi.Core
open TmsApi.Core.Program

namespace Db

/-- The project and the user belong to one organisation. -/
def Staffs (db : Db) (projectId userId : Nat) : Prop :=
  ∃ orgId, db.OrgProject projectId orgId ∧ db.Member userId orgId

/-- Every manager and every employee of a project is of its organisation. -/
structure StaffedInside (db : Db) : Prop where
  managers : ∀ r ∈ db.projectManagers.rows, db.Staffs r.projectId r.managerId
  employees :
    ∀ r ∈ db.projectEmployees.rows, db.Staffs r.projectId r.employeeId

/-- A link survives when its project and the members do. -/
theorem Staffs.of {before after : Db} {projectId userId : Nat}
    (staffs : before.Staffs projectId userId)
    (projects : ∀ orgId, before.OrgProject projectId orgId →
      after.OrgProject projectId orgId)
    (members : ∀ orgId, before.Member userId orgId →
      after.Member userId orgId) : after.Staffs projectId userId := by
  rcases staffs with ⟨orgId, project, member⟩
  exact ⟨orgId, projects orgId project, members orgId member⟩

theorem mem_linkManagers {projectId : Nat} {ids : List Nat} {db : Db}
    {r : ProjectManager}
    (member : r ∈ (db.linkManagers projectId ids).projectManagers.rows) :
    r ∈ db.projectManagers.rows ∨
      r.projectId = projectId ∧ r.managerId ∈ ids := by
  rcases Table.mem_insertMany_map member with old | ⟨id, given, k, rfl⟩
  · exact .inl old
  · exact .inr ⟨rfl, given⟩

theorem mem_linkEmployees {projectId : Nat} {ids : List Nat} {db : Db}
    {r : ProjectEmployee}
    (member : r ∈ (db.linkEmployees projectId ids).projectEmployees.rows) :
    r ∈ db.projectEmployees.rows ∨
      r.projectId = projectId ∧ r.employeeId ∈ ids := by
  rcases Table.mem_insertMany_map member with old | ⟨id, given, k, rfl⟩
  · exact .inl old
  · exact .inr ⟨rfl, given⟩

theorem mem_withProjectManagers {projectId : Nat} {given : Option (List Nat)}
    {db : Db} {r : ProjectManager}
    (member : r ∈
      (db.withProjectManagers projectId given).projectManagers.rows) :
    r ∈ db.projectManagers.rows ∨
      r.projectId = projectId ∧ r.managerId ∈ given.getD [] := by
  cases given with
  | none => exact .inl member
  | some ids =>
      rcases mem_linkManagers member with old | new
      · exact .inl (Table.mem_deleteWhere.mp old).1
      · exact .inr new

theorem mem_withProjectEmployees {projectId : Nat}
    {given : Option (List Nat)} {db : Db} {r : ProjectEmployee}
    (member : r ∈
      (db.withProjectEmployees projectId given).projectEmployees.rows) :
    r ∈ db.projectEmployees.rows ∨
      r.projectId = projectId ∧ r.employeeId ∈ given.getD [] := by
  cases given with
  | none => exact .inl member
  | some ids =>
      rcases mem_linkEmployees member with old | new
      · exact .inl (Table.mem_deleteWhere.mp old).1
      · exact .inr new

end Db

/-! ## The requests that link foreign users -/

/-- An accepted project request names a user of another organisation. -/
def StaffsForeign (lib : Libs) (db : Db) (caller : JwtPayload) :
    Call → Prop
  | .createProject dto =>
      Managing caller ∧ Schemas.createProjectSchema dto = [] ∧
        CreatesProject lib caller db dto ∧
        ∃ id ∈ managerCreateList dto.managerIds caller.userId caller.role ++
            dto.employeeIds.getD [],
          db.ForeignUser caller.orgId id
  | .updateProject projectId dto =>
      Managing caller ∧ Schemas.updateProjectSchema dto = [] ∧
        ∃ p, p.id = projectId ∧ UpdatesProject lib caller db p dto ∧
          ∃ id ∈ dto.managerIds.getD [] ++ dto.employeeIds.getD [],
            db.ForeignUser caller.orgId id
  | _ => False

section

variable {lib : Libs} {host : Host} {caller : JwtPayload} {call : Call}
  {start db after : Db}

/-- The links of a database whose projects and members are kept. -/
theorem Db.StaffedInside.of (inside : db.StaffedInside)
    (projects : ∀ projectId orgId, db.OrgProject projectId orgId →
      after.OrgProject projectId orgId)
    (members : ∀ userId orgId, db.Member userId orgId →
      after.Member userId orgId)
    (managers : ∀ r ∈ after.projectManagers.rows,
      r ∈ db.projectManagers.rows ∨ after.Staffs r.projectId r.managerId)
    (employees : ∀ r ∈ after.projectEmployees.rows,
      r ∈ db.projectEmployees.rows ∨
        after.Staffs r.projectId r.employeeId) :
    after.StaffedInside where
  managers r member := by
    rcases managers r member with old | staffs
    · exact (inside.managers r old).of (projects _) (members _)
    · exact staffs
  employees r member := by
    rcases employees r member with old | staffs
    · exact (inside.employees r old).of (projects _) (members _)
    · exact staffs

/-- Projects and their links are the same. -/
structure SameStaff (before after : Db) : Prop where
  projects : after.projects = before.projects
  projectManagers : after.projectManagers = before.projectManagers
  projectEmployees : after.projectEmployees = before.projectEmployees

theorem Db.StaffedInside.same (inside : db.StaffedInside)
    (same : SameStaff db after)
    (members : ∀ userId orgId, db.Member userId orgId →
      after.Member userId orgId) : after.StaffedInside := by
  refine inside.of (fun _ _ project => ?_) members ?_ ?_
  · rwa [Db.OrgProject, same.projects]
  · exact fun r member => .inl (same.projectManagers ▸ member)
  · exact fun r member => .inl (same.projectEmployees ▸ member)

theorem Db.validProject.orgProject {orgId id : Nat}
    (valid : db.validProject orgId id) : db.OrgProject id orgId := by
  rcases valid with ⟨p, member, key, org, _⟩
  exact ⟨p, member, key, org⟩

/-- Columns of a project change neither its key nor its organisation. -/
theorem Db.orgProject_setProject {now : Instant} {id projectId orgId : Nat}
    {data : ProjectUpdate} (project : db.OrgProject projectId orgId) :
    (db.setProject now id data).OrgProject projectId orgId := by
  rcases project with ⟨p, member, key, org⟩
  refine ⟨_, Table.mem_modify.mpr ⟨p, member, rfl⟩, ?_, ?_⟩
  · split <;> exact key
  · split <;> exact org

/-- The users a project request may name, when none of them is foreign. -/
theorem members_of_linkable {orgId : Nat} {ids : List Nat}
    (linkable : db.Linkable ids)
    (home : ∀ id ∈ ids, ¬ db.ForeignUser orgId id) :
    ∀ id ∈ ids, db.Member id orgId :=
  fun id given => Db.member_of_not_foreign (linkable.2 id given) (home id given)

theorem Db.StaffedInside.addProject {dto : CreateProjectDto}
    {managers : List Nat} (inside : db.StaffedInside)
    (linked : db.Linkable managers)
    (staffed : db.Linkable (dto.employeeIds.getD []))
    (home : ∀ id ∈ managers ++ dto.employeeIds.getD [],
      ¬ db.ForeignUser caller.orgId id) :
    (db.addProject host.now (dto.data caller.orgId) managers
      (dto.employeeIds.getD [])).StaffedInside := by
  have created : (db.addProject host.now (dto.data caller.orgId) managers
      (dto.employeeIds.getD [])).OrgProject db.projects.next caller.orgId :=
    ⟨_, Table.mem_insert.mpr (.inr rfl), rfl, rfl⟩
  refine inside.of ?_ (fun _ _ => id) ?_ ?_
  · rintro projectId orgId ⟨p, member, key, org⟩
    exact ⟨p, Table.mem_insert.mpr (.inl member), key, org⟩
  · intro r member
    rcases Db.mem_linkManagers member with old | ⟨project, given⟩
    · exact .inl old
    · refine .inr ⟨caller.orgId, project ▸ created, ?_⟩
      exact members_of_linkable linked
        (fun id given => home id (List.mem_append_left _ given)) _ given
  · intro r member
    rcases Db.mem_linkEmployees member with old | ⟨project, given⟩
    · exact .inl old
    · refine .inr ⟨caller.orgId, project ▸ created, ?_⟩
      exact members_of_linkable staffed
        (fun id given => home id (List.mem_append_right _ given)) _ given

theorem Db.StaffedInside.updateProject {p : Project}
    {dto : UpdateProjectDto} (inside : db.StaffedInside)
    (may : UpdatesProject lib caller db p dto)
    (home : ∀ id ∈ dto.managerIds.getD [] ++ dto.employeeIds.getD [],
      ¬ db.ForeignUser caller.orgId id) :
    (((db.setProject host.now p.id dto.columns).withProjectManagers p.id
      dto.managerIds).withProjectEmployees p.id
        dto.employeeIds).StaffedInside := by
  have updated : (db.setProject host.now p.id dto.columns).OrgProject p.id
      caller.orgId :=
    Db.orgProject_setProject ⟨p, may.member, rfl, may.org⟩
  -- A list the body omits is empty here and links nobody.
  have members {given : Option (List Nat)} {userId : Nat}
      (linkable : ∀ ids ∈ given, db.Linkable ids)
      (home : ∀ id ∈ given.getD [], ¬ db.ForeignUser caller.orgId id)
      (member : userId ∈ given.getD []) : db.Member userId caller.orgId := by
    cases listed : given with
    | none => simp [listed] at member
    | some ids =>
        rw [listed] at member home
        exact members_of_linkable (linkable ids listed) home userId member
  refine inside.of (fun _ _ => Db.orgProject_setProject) (fun _ _ => id)
    ?_ ?_
  · intro r member
    rcases Db.mem_withProjectManagers member with old | ⟨project, given⟩
    · exact .inl old
    · exact .inr ⟨caller.orgId, project ▸ updated, members may.managers
        (fun id given => home id (List.mem_append_left _ given)) given⟩
  · intro r member
    rcases Db.mem_withProjectEmployees member with old | ⟨project, given⟩
    · exact .inl old
    · exact .inr ⟨caller.orgId, project ▸ updated, members may.employees
        (fun id given => home id (List.mem_append_right _ given)) given⟩

theorem Db.StaffedInside.dropProject (inside : db.StaffedInside)
    (dropped : Nat) :
    (db.dropProject dropped).StaffedInside := by
  have kept (projectId orgId : Nat) (apart : projectId ≠ dropped)
      (project : db.OrgProject projectId orgId) :
      (db.dropProject dropped).OrgProject projectId orgId := by
    rcases project with ⟨p, member, rfl, org⟩
    exact ⟨p, Table.mem_deleteWhere.mpr ⟨member, apart⟩, rfl, org⟩
  constructor
  · intro r member
    rcases Table.mem_deleteWhere.mp member with ⟨old, apart⟩
    exact (inside.managers r old).of (fun _ => kept _ _ apart) fun _ => id
  · intro r member
    rcases Table.mem_deleteWhere.mp member with ⟨old, apart⟩
    exact (inside.employees r old).of (fun _ => kept _ _ apart) fun _ => id

/--
`assignEmployeesToProject` validates the employees against the organisation,
the check the project routes lack, and so keeps every link inside.
-/
theorem assignEmployeesToProject_inside {projectId orgId : Nat}
    {employeeIds : List Nat} (inside : db.StaffedInside)
    (project : db.OrgProject projectId orgId) :
    wp (assignEmployeesToProject projectId employeeIds orgId)
      (fun _ after => after.StaffedInside) db := by
  have write (valid : ∀ id ∈ employeeIds, db.validEmployee orgId id) :
      wp (statement (replaceEmployees projectId employeeIds))
        (fun _ after => after.StaffedInside) db := by
    rw [wp_statement]
    refine ⟨fun _ _ => inside, fun done after wrote => ?_⟩
    have unfolded : replaceEmployees projectId employeeIds db =
        Prisma.projectEmployeeCreateMany
          (employeeIds.map fun id => (projectId, id))
          (db.unlinkEmployees projectId) := by
      rw [← createGiven projectEmployeeCreateMany_nil]
      rfl
    have known : (db.unlinkEmployees projectId).projects.HasKey projectId := by
      rcases project with ⟨p, member, key, _⟩
      exact ⟨p, member, key⟩
    rw [unfolded] at wrote
    rcases (projectEmployeeCreateMany_eq_ok _ _ _ known
      (db.unlinkEmployees_free projectId)).mp wrote with ⟨_, rfl⟩
    refine inside.of (fun _ _ => id) (fun _ _ => id) (fun _ => .inl) ?_
    intro r member
    rcases Db.mem_linkEmployees member with old | ⟨key, given⟩
    · exact .inl (Table.mem_deleteWhere.mp old).1
    · rcases valid _ given with ⟨u, uMem, uKey, org, _⟩
      exact .inr ⟨orgId, key ▸ project, u, uMem, uKey, org⟩
  simp only [assignEmployeesToProject, wp_bind, wp_throwIf, wp_whenever,
    wp_query, andThen_ok, andThen_error, noneInvalid_iff]
  refine ⟨fun _ => ⟨fun _ => inside, write⟩, fun none => write ?_⟩
  intro id given
  exact (none (List.length_pos_of_mem given)).elim

theorem TeamChange.staffedInside (holds : start.Integrity)
    (clean : ¬ StaffsForeign lib start caller call)
    (steps : TeamSteps lib host caller call start db)
    (inside : db.StaffedInside)
    (change : TeamChange lib host caller call start db after) :
    after.StaffedInside := by
  have members := (change.grows holds).member
  cases change with
  | userUpdated user dto made begins role may =>
      exact inside.same ⟨Db.reviseUser_projects,
        Db.reviseUser_projectManagers, Db.reviseUser_projectEmployees⟩ members
  | projectsReplaced employeeId projectIds made role reach may =>
      refine inside.of (fun _ _ => id) members (fun _ => .inl) ?_
      intro r member
      rcases Db.mem_withProjects member with ⟨old, _⟩ | ⟨given, rfl⟩
      · exact .inl old
      · exact .inr ⟨caller.orgId, (may.valid _ given).orgProject,
          reach.member (TeamSteps.grows holds steps)⟩
  | projectCreated dto made begins role accepted may =>
      subst made begins
      refine inside.addProject may.managers may.employees ?_
      exact fun id given foreign =>
        clean ⟨role, accepted, may, id, given, foreign⟩
  | projectUpdated p dto made begins role accepted may =>
      subst made begins
      refine inside.updateProject may ?_
      exact fun id given foreign =>
        clean ⟨role, accepted, p, rfl, may, id, given, foreign⟩
  | projectDeleted p made begins role member org unused =>
      exact inside.dropProject p.id
  | _ => exact inside.same ⟨rfl, rfl, rfl⟩ members

theorem PublicChange.staffedInside (inside : db.StaffedInside)
    (change : PublicChange lib host db after) : after.StaffedInside :=
  inside.same
    ⟨change.sameLinks.projects, change.sameLinks.projectManagers,
      change.sameLinks.projectEmployees⟩
    change.grows.member

end

/-! ## Runs -/

/-- The request links a user of another organisation to a project. -/
def World.StaffsForeign (lib : Libs) (world : World) : Request → Prop
  | .authenticated _ caller call =>
      caller ∈ world.issued ∧ TmsApi.StaffsForeign lib world.db caller call
  | .anonymous _ _ => False

theorem World.Sound.staffedInside {lib : Libs} {world : World}
    {request : Request} (sound : world.Sound)
    (inside : world.db.StaffedInside)
    (clean : ¬ world.StaffsForeign lib request) :
    (world.step lib request).db.StaffedInside := by
  refine World.team_keeps _ sound.integrity inside ?_ ?_ ?_
  · intro after same
    refine inside.of (fun _ _ => (same.projects _ _).mpr) ?_ ?_ ?_
    · intro userId orgId member
      rwa [Db.Member, same.users]
    · exact fun r member => .inl (same.projectManagers ▸ member)
    · exact fun r member => .inl (same.projectEmployees ▸ member)
  · rintro host caller call rfl signed db after steps kept change
    exact change.staffedInside sound.integrity
      (fun staffs => clean ⟨signed, staffs⟩) steps kept
  · exact fun _ _ _ _ _ kept change => change.staffedInside kept

/--
While no accepted project request names a user of another organisation, every
link of a project stays inside one organisation.
-/
theorem projects_staffed_inside (lib : Libs) (requests : List Request)
    (met : World.Along
      (fun world request => ¬ world.StaffsForeign lib request) lib .empty
      requests) :
    (World.empty.run lib requests).db.StaffedInside := by
  have kept : ∀ (world : World) (request : Request),
      world.Sound ∧ world.db.StaffedInside →
        ¬ world.StaffsForeign lib request →
          (world.step lib request).Sound ∧
            (world.step lib request).db.StaffedInside := by
    rintro world request ⟨sound, inside⟩ clean
    exact ⟨sound.step lib request, sound.staffedInside inside clean⟩
  have empty : World.empty.db.StaffedInside := by
    constructor <;> intro r member <;> simp [World.empty, Db.empty] at member
  exact (World.run_along kept ⟨World.sound_empty, empty⟩ met).2

/-- An administrator creates a project and names its managers. -/
def staffRun (managerIds : List Nat) : List Request :=
  [.register "bolt" "bob@bolt", .register "acme" "ada@acme",
    .authenticated plainHost ⟨2, 2, .admin⟩
      (.createProject
        { code := "A"
          name := "A"
          client := "client"
          budgetHours := none
          status := none
          managerIds := some managerIds
          employeeIds := none })]

/-- A project managed by its own organisation. -/
theorem projects_staffed_inside_ada :
    World.Along (fun world request => ¬ world.StaffsForeign plainLibs request)
        plainLibs .empty (staffRun [2]) ∧
      (World.empty.run plainLibs (staffRun [2])).db.StaffedInside := by
  have met : World.Along
      (fun world request => ¬ world.StaffsForeign plainLibs request)
      plainLibs .empty (staffRun [2]) := by
    refine ⟨id, id, fun staffs => ?_, trivial⟩
    rcases staffs with ⟨_, _, _, _, id, given, foreign⟩
    cases List.mem_singleton.mp given
    revert foreign
    decide +kernel
  exact ⟨met, projects_staffed_inside plainLibs _ met⟩

/-- A project of one organisation is managed by a user of the other. -/
theorem foreign_project_manager :
    ¬ (World.empty.run plainLibs (staffRun [1])).db.StaffedInside := by
  intro inside
  have row : ⟨1, 1, 1⟩ ∈ (World.empty.run plainLibs
      (staffRun [1])).db.projectManagers.rows := by
    decide +kernel
  have apart : ∀ p ∈ (World.empty.run plainLibs
      (staffRun [1])).db.projects.rows,
      ∀ u ∈ (World.empty.run plainLibs (staffRun [1])).db.users.rows,
        p.id = 1 → u.id = 1 → p.organisationId ≠ u.organisationId := by
    decide +kernel
  rcases inside.managers _ row with
    ⟨orgId, ⟨p, pMem, pKey, rfl⟩, u, uMem, uKey, same⟩
  exact apart p pMem u uMem pKey uKey same.symm

end TmsApi
