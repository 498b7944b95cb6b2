import TmsApi.Refinement.Integrity

/-!
# Changes of users, teams and project links

A second abstract view of the service, for the tables that decide who may do
what: users, the manager hierarchy and the links of projects.  A `TeamChange`
is one step of a user, team or project request and carries everything the
request has checked before it, also what it checked in the database `start`
it began in.  The removal of the reports of a demoted user follows its update
without a check in between, so the two are one step.

`TmsApi.Refinement.Requests` forgets these checks where they do not matter.
-/

namespace TmsApi

open TmsApi.Core
open TmsApi.Core.Program

/-- The project of this key belongs to the organisation. -/
def Db.OrgProject (db : Db) (projectId orgId : Nat) : Prop :=
  ∃ p ∈ db.projects.rows, p.id = projectId ∧ p.organisationId = orgId

/-- Users, links and the owners of projects are the same. -/
structure SameTeam (before after : Db) : Prop where
  organisations : after.organisations = before.organisations
  users : after.users = before.users
  managerEmployees : after.managerEmployees = before.managerEmployees
  projectManagers : after.projectManagers = before.projectManagers
  projectEmployees : after.projectEmployees = before.projectEmployees
  projects : ∀ projectId orgId,
    after.OrgProject projectId orgId ↔ before.OrgProject projectId orgId

theorem SameTeam.refl (db : Db) : SameTeam db db :=
  ⟨rfl, rfl, rfl, rfl, rfl, fun _ _ => Iff.rfl⟩

/-! ## Replacing the links of a user -/

namespace Db

/-- No row of the hierarchy has this employee. -/
def Unmanaged (db : Db) (id : Nat) : Prop :=
  ∀ r ∈ db.managerEmployees.rows, r.employeeId ≠ id

/-- The managers of a user replaced. -/
def withManagers (employeeId : Nat) (managerIds : List Nat) (db : Db) :
    Db :=
  { db with
    managerEmployees :=
      Table.insertMany Prisma.linkManager
        (db.managerEmployees.deleteWhere fun r => r.employeeId = employeeId)
        (managerIds.map fun managerId => (managerId, employeeId)) }

/-- The assigned projects of a user replaced. -/
def withProjects (employeeId : Nat) (projectIds : List Nat) (db : Db) :
    Db :=
  { db with
    projectEmployees :=
      Table.insertMany Prisma.linkProjectEmployee
        (db.projectEmployees.deleteWhere fun r => r.employeeId = employeeId)
        (projectIds.map fun projectId => (projectId, employeeId)) }

/-- A row after the replacement is an old one or links a given manager. -/
theorem mem_withManagers {employeeId : Nat} {managerIds : List Nat}
    {db : Db} {r : ManagerEmployee}
    (member : r ∈
      (db.withManagers employeeId managerIds).managerEmployees.rows) :
    (r ∈ db.managerEmployees.rows ∧ r.employeeId ≠ employeeId) ∨
      (r.managerId ∈ managerIds ∧ r.employeeId = employeeId) := by
  rcases Table.mem_insertMany_map member with old | ⟨managerId, given, k, rfl⟩
  · exact .inl (Table.mem_deleteWhere.mp old)
  · exact .inr ⟨given, rfl⟩

/-- A given manager makes a row that was not there before. -/
theorem exists_new_manager (db : Db) (employeeId : Nat)
    {managerIds : List Nat} (given : managerIds ≠ []) :
    ∃ r ∈ (db.withManagers employeeId managerIds).managerEmployees.rows,
      r.employeeId = employeeId ∧ r ∉ db.managerEmployees.rows := by
  rcases List.exists_cons_of_ne_nil given with ⟨managerId, rest, rfl⟩
  refine ⟨⟨db.managerEmployees.next, managerId, employeeId⟩, ?_, rfl, ?_⟩
  · simp only [withManagers, Table.rows_insertMany]
    exact List.mem_append_right _ List.mem_cons_self
  · exact fun member =>
      db.managerEmployees.not_hasKey_next ⟨_, member, rfl⟩

/-- Other users keep their managers. -/
theorem mem_withManagers_other {employeeId : Nat} {managerIds : List Nat}
    {db : Db} {r : ManagerEmployee} (apart : r.employeeId ≠ employeeId) :
    r ∈ (db.withManagers employeeId managerIds).managerEmployees.rows ↔
      r ∈ db.managerEmployees.rows :=
  Table.mem_replace_other (fun _ _ _ => rfl) apart

theorem mem_withProjects {employeeId : Nat} {projectIds : List Nat}
    {db : Db} {r : ProjectEmployee}
    (member : r ∈
      (db.withProjects employeeId projectIds).projectEmployees.rows) :
    (r ∈ db.projectEmployees.rows ∧ r.employeeId ≠ employeeId) ∨
      (r.projectId ∈ projectIds ∧ r.employeeId = employeeId) := by
  rcases Table.mem_insertMany_map member with old | ⟨projectId, given, k, rfl⟩
  · exact .inl (Table.mem_deleteWhere.mp old)
  · exact .inr ⟨given, rfl⟩

/-- The written columns of one user. -/
def setUser (now : Instant) (id : Nat) (data : UserUpdate) (db : Db) : Db :=
  { db with
    users := db.users.modify (fun u => u.id = id) (data.apply now) }

def addUser (now : Instant) (data : UserData) (db : Db) : Db :=
  { db with users := db.users.insert (data.row now) }

theorem mem_setUser {now : Instant} {id : Nat} {data : UserUpdate}
    {db : Db} {u : User} :
    u ∈ (db.setUser now id data).users.rows ↔
      ∃ old ∈ db.users.rows,
        u = if old.id = id then data.apply now old else old :=
  Table.mem_modify

theorem mem_addUser {now : Instant} {data : UserData} {db : Db} {u : User} :
    u ∈ (db.addUser now data).users.rows ↔
      u ∈ db.users.rows ∨ u = data.row now db.users.next :=
  Table.mem_insert

end Db

/-- When an update of a user succeeds, and what it leaves. -/
theorem userUpdate_eq_ok {now : Instant} {id : Nat} {data : UserUpdate}
    {db after : Db} {updated : User} :
    Prisma.userUpdate now id data db = .ok (updated, after) ↔
      (varchar? data.name ∧ varchar? data.department) ∧
        (∃ u ∈ db.users.rows, u.id = id ∧ updated = data.apply now u) ∧
          after = db.setUser now id data := by
  simp only [Prisma.userUpdate]
  cases found : db.users.find? (fun u => u.id = id) with
  | none =>
      have absent := Table.find?_eq_none.mp found
      simp only [reduceCtorEq, false_iff]
      rintro ⟨_, ⟨u, member, key, _⟩, _⟩
      exact absent u member key
  | some u =>
      rcases Table.find?_spec found with ⟨member, key⟩
      simp only [ensure_eq_ok, Except.ok.injEq, Prod.mk.injEq]
      constructor
      · rintro ⟨fits, rfl, rfl⟩
        exact ⟨fits, ⟨u, member, key, rfl⟩, rfl⟩
      · rintro ⟨fits, ⟨other, otherMem, otherKey, rfl⟩, rfl⟩
        cases db.users.eq_of_key otherMem member (otherKey.trans key.symm)
        exact ⟨fits, rfl, rfl⟩

/-- The update of a row that is there. -/
theorem userUpdate_eq_ok_of {now : Instant} {data : UserUpdate}
    {db after : Db} {user updated : User} (member : user ∈ db.users.rows) :
    Prisma.userUpdate now user.id data db = .ok (updated, after) ↔
      (varchar? data.name ∧ varchar? data.department) ∧
        updated = data.apply now user ∧
          after = db.setUser now user.id data := by
  rw [userUpdate_eq_ok]
  refine and_congr_right fun _ => and_congr_left fun _ => ?_
  constructor
  · rintro ⟨u, uMem, key, rfl⟩
    rw [db.users.eq_of_key uMem member key]
  · intro same
    exact ⟨user, member, rfl, same⟩

/-- When a user is created, and what the creation leaves. -/
theorem userCreate_eq_ok {collate : String → String} {now : Instant}
    {data : UserData} {db after : Db} {created : User} :
    Prisma.userCreate collate now data db = .ok (created, after) ↔
      ((varchar data.name ∧ varchar data.email ∧ varchar? data.department) ∧
        (∀ u ∈ db.users.rows, collate u.email ≠ collate data.email) ∧
          db.organisations.HasKey data.organisationId) ∧
        created = data.row now db.users.next ∧ after = db.addUser now data := by
  simp only [Prisma.userCreate, ensure_eq_ok, Except.ok.injEq,
    Prod.mk.injEq, Db.addUser, and_assoc, eq_comm (a := created),
    eq_comm (a := after)]

/-- Creating no links does nothing, so the guard on the list is idle. -/
theorem createGiven {Link : Type} {create : List Link → Tx PUnit}
    (idle : create [] = pure ⟨⟩) (ids : List Nat) (link : Nat → Link) :
    (if ids.length > 0 then create (ids.map link) else pure ⟨⟩) =
      create (ids.map link) := by
  cases ids with
  | nil => exact idle.symm
  | cons id ids => rfl

/-- When links that are not stored yet are inserted. -/
theorem ensure_links_eq_ok {distinct apart exist : Prop}
    [Decidable (distinct ∧ apart)] [Decidable exist]
    {duplicate missing : DriverFault} {linked after : Db} (absent : apart) :
    ensure (distinct ∧ apart) duplicate
        (ensure exist missing (.ok (PUnit.unit, linked))) =
        .ok (⟨⟩, after) ↔
      (distinct ∧ exist) ∧ after = linked := by
  simp only [ensure_eq_ok, Except.ok.injEq, Prod.mk.injEq, true_and]
  constructor
  · rintro ⟨⟨unique, -⟩, known, rfl⟩
    exact ⟨⟨unique, known⟩, rfl⟩
  · rintro ⟨⟨unique, known⟩, rfl⟩
    exact ⟨⟨unique, absent⟩, known, rfl⟩

section Links

variable {k a b : Nat} {ids : List Nat}

/-- The links of one request share one of their two keys. -/
theorem nodup_links : (ids.map fun id => (k, id)).Nodup ↔ ids.Nodup :=
  List.nodup_map_iff fun _ _ same => (Prod.mk.inj same).2

theorem nodup_linksTo : (ids.map fun id => (id, k)).Nodup ↔ ids.Nodup :=
  List.nodup_map_iff fun _ _ same => (Prod.mk.inj same).1

theorem notMem_links (apart : a ≠ k) : (a, b) ∉ ids.map fun id => (k, id) := by
  intro linked
  rcases List.mem_map.mp linked with ⟨id, _, same⟩
  exact apart (Prod.mk.inj same).1.symm

theorem notMem_linksTo (apart : b ≠ k) :
    (a, b) ∉ ids.map fun id => (id, k) := by
  intro linked
  rcases List.mem_map.mp linked with ⟨id, _, same⟩
  exact apart (Prod.mk.inj same).2.symm

end Links

theorem managerEmployeeCreateMany_nil :
    Prisma.managerEmployeeCreateMany [] = pure ⟨⟩ := by
  funext db
  simp only [Prisma.managerEmployeeCreateMany]
  rw [ensure_of (by simp), ensure_of (by simp)]
  rfl

theorem projectEmployeeCreateMany_nil :
    Prisma.projectEmployeeCreateMany [] = pure ⟨⟩ := by
  funext db
  simp only [Prisma.projectEmployeeCreateMany]
  rw [ensure_of (by simp), ensure_of (by simp)]
  rfl

/-- When the replacement of the managers succeeds, and what it leaves. -/
theorem replaceManagers_eq_ok {employeeId : Nat} {managerIds : List Nat}
    {db after : Db} :
    replaceManagers employeeId managerIds db = .ok (⟨⟩, after) ↔
      (managerIds.Nodup ∧
        ∀ managerId ∈ managerIds,
          db.users.HasKey managerId ∧ db.users.HasKey employeeId) ∧
      after = db.withManagers employeeId managerIds := by
  have apart : ∀ r ∈ (db.managerEmployees.deleteWhere fun r =>
      r.employeeId = employeeId).rows,
      (r.managerId, r.employeeId) ∉
        managerIds.map fun managerId => (managerId, employeeId) := by
    intro r member
    exact notMem_linksTo (Table.mem_deleteWhere.mp member).2
  have unfolded : replaceManagers employeeId managerIds db =
      Prisma.managerEmployeeCreateMany
        (managerIds.map fun managerId => (managerId, employeeId))
        { db with
          managerEmployees := db.managerEmployees.deleteWhere fun r =>
            r.employeeId = employeeId } := by
    rw [← createGiven managerEmployeeCreateMany_nil]
    rfl
  rw [unfolded, Prisma.managerEmployeeCreateMany, ensure_links_eq_ok apart,
    nodup_linksTo, List.forall_mem_map]
  exact Iff.rfl

theorem replaceProjects_eq_ok {employeeId : Nat} {projectIds : List Nat}
    {db after : Db} :
    replaceProjects employeeId projectIds db = .ok (⟨⟩, after) ↔
      (projectIds.Nodup ∧
        ∀ projectId ∈ projectIds,
          db.projects.HasKey projectId ∧ db.users.HasKey employeeId) ∧
      after = db.withProjects employeeId projectIds := by
  have apart : ∀ r ∈ (db.projectEmployees.deleteWhere fun r =>
      r.employeeId = employeeId).rows,
      (r.projectId, r.employeeId) ∉
        projectIds.map fun projectId => (projectId, employeeId) := by
    intro r member
    exact notMem_linksTo (Table.mem_deleteWhere.mp member).2
  have unfolded : replaceProjects employeeId projectIds db =
      Prisma.projectEmployeeCreateMany
        (projectIds.map fun projectId => (projectId, employeeId))
        { db with
          projectEmployees := db.projectEmployees.deleteWhere fun r =>
            r.employeeId = employeeId } := by
    rw [← createGiven projectEmployeeCreateMany_nil]
    rfl
  rw [unfolded, Prisma.projectEmployeeCreateMany, ensure_links_eq_ok apart,
    nodup_linksTo, List.forall_mem_map]
  exact Iff.rfl

/-! ## Writing a project with its links -/

/-- Distinct keys of users. -/
def Db.Linkable (db : Db) (ids : List Nat) : Prop :=
  ids.Nodup ∧ ∀ id ∈ ids, db.users.HasKey id

namespace Db

/-- Managers linked to a project. -/
def linkManagers (projectId : Nat) (ids : List Nat) (db : Db) : Db :=
  { db with
    projectManagers :=
      Table.insertMany Prisma.linkProjectManager db.projectManagers
        (ids.map fun id => (projectId, id)) }

/-- Employees linked to a project. -/
def linkEmployees (projectId : Nat) (ids : List Nat) (db : Db) : Db :=
  { db with
    projectEmployees :=
      Table.insertMany Prisma.linkProjectEmployee db.projectEmployees
        (ids.map fun id => (projectId, id)) }

def insertProject (now : Instant) (data : ProjectData) (db : Db) : Db :=
  { db with projects := db.projects.insert (data.row now) }

/-- A new project with its manager and employee links. -/
def addProject (now : Instant) (data : ProjectData)
    (managers employees : List Nat) (db : Db) : Db :=
  linkEmployees db.projects.next employees <|
    linkManagers db.projects.next managers (db.insertProject now data)

/-- The written columns of one project. -/
def setProject (now : Instant) (id : Nat) (data : ProjectUpdate)
    (db : Db) : Db :=
  { db with
    projects := db.projects.modify (fun p => p.id = id) (data.apply now) }

def unlinkManagers (projectId : Nat) (db : Db) : Db :=
  { db with
    projectManagers :=
      db.projectManagers.deleteWhere fun r => r.projectId = projectId }

def unlinkEmployees (projectId : Nat) (db : Db) : Db :=
  { db with
    projectEmployees :=
      db.projectEmployees.deleteWhere fun r => r.projectId = projectId }

/-- The managers of a project replaced, when the body has the list. -/
def withProjectManagers (projectId : Nat) (given : Option (List Nat))
    (db : Db) : Db :=
  { db with
    projectManagers :=
      match given with
      | none => db.projectManagers
      | some ids =>
          (linkManagers projectId ids
            (db.unlinkManagers projectId)).projectManagers }

/-- The employees of a project replaced, when the body has the list. -/
def withProjectEmployees (projectId : Nat) (given : Option (List Nat))
    (db : Db) : Db :=
  { db with
    projectEmployees :=
      match given with
      | none => db.projectEmployees
      | some ids =>
          (linkEmployees projectId ids
            (db.unlinkEmployees projectId)).projectEmployees }

theorem unlinkManagers_free (db : Db) (projectId : Nat) :
    ∀ r ∈ (db.unlinkManagers projectId).projectManagers.rows,
      r.projectId ≠ projectId :=
  fun _ member => (Table.mem_deleteWhere.mp member).2

theorem unlinkEmployees_free (db : Db) (projectId : Nat) :
    ∀ r ∈ (db.unlinkEmployees projectId).projectEmployees.rows,
      r.projectId ≠ projectId :=
  fun _ member => (Table.mem_deleteWhere.mp member).2

end Db

/-- Linking managers to a project without links. -/
theorem projectManagerCreateMany_eq_ok (db after : Db) {projectId : Nat}
    (ids : List Nat) (project : db.projects.HasKey projectId)
    (free : ∀ r ∈ db.projectManagers.rows, r.projectId ≠ projectId) :
    Prisma.projectManagerCreateMany (ids.map fun id => (projectId, id)) db =
        .ok (⟨⟩, after) ↔
      db.Linkable ids ∧ after = db.linkManagers projectId ids := by
  have apart : ∀ r ∈ db.projectManagers.rows,
      (r.projectId, r.managerId) ∉ ids.map fun id => (projectId, id) := by
    intro r member
    exact notMem_links (free r member)
  rw [Prisma.projectManagerCreateMany, ensure_links_eq_ok apart, nodup_links]
  simp only [List.forall_mem_map, project, true_and, Db.Linkable,
    Db.linkManagers]

/-- Linking employees to a project without links. -/
theorem projectEmployeeCreateMany_eq_ok (db after : Db) {projectId : Nat}
    (ids : List Nat) (project : db.projects.HasKey projectId)
    (free : ∀ r ∈ db.projectEmployees.rows, r.projectId ≠ projectId) :
    Prisma.projectEmployeeCreateMany (ids.map fun id => (projectId, id)) db =
        .ok (⟨⟩, after) ↔
      db.Linkable ids ∧ after = db.linkEmployees projectId ids := by
  have apart : ∀ r ∈ db.projectEmployees.rows,
      (r.projectId, r.employeeId) ∉ ids.map fun id => (projectId, id) := by
    intro r member
    exact notMem_links (free r member)
  rw [Prisma.projectEmployeeCreateMany, ensure_links_eq_ok apart, nodup_links]
  simp only [List.forall_mem_map, project, true_and, Db.Linkable,
    Db.linkEmployees]

theorem projectCreateRow_eq_ok {collate : String → String} {now : Instant}
    {data : ProjectData} {db after : Db} {project : Project} :
    Prisma.projectCreateRow collate now data db = .ok (project, after) ↔
      ((varchar data.code ∧ varchar data.name ∧ varchar data.client) ∧
        (∀ p ∈ db.projects.rows, ¬ (p.organisationId = data.organisationId ∧
          collate p.code = collate data.code)) ∧
        db.organisations.HasKey data.organisationId) ∧
      project = data.row now db.projects.next ∧
        after = db.insertProject now data := by
  simp only [Prisma.projectCreateRow, ensure_eq_ok, Except.ok.injEq,
    Prod.mk.injEq, and_assoc, eq_comm (a := project), eq_comm (a := after),
    Db.insertProject]

/-- When a project is created, and what the creation leaves. -/
theorem projectCreate_eq_ok {collate : String → String} {now : Instant}
    {data : ProjectData} {managers employees : List Nat} {db after : Db}
    {project : Project} (holds : db.Integrity) :
    Prisma.projectCreate collate now data managers employees db =
        .ok (project, after) ↔
      ((varchar data.code ∧ varchar data.name ∧ varchar data.client) ∧
        (∀ p ∈ db.projects.rows, ¬ (p.organisationId = data.organisationId ∧
          collate p.code = collate data.code)) ∧
        db.organisations.HasKey data.organisationId ∧
        db.Linkable managers ∧ db.Linkable employees) ∧
      project = data.row now db.projects.next ∧
        after = db.addProject now data managers employees := by
  have fresh := db.projects.not_hasKey_next
  have inserted : (db.insertProject now data).projects.HasKey
      db.projects.next :=
    ⟨_, Table.mem_insert.mpr (.inr rfl), rfl⟩
  have managersFree : ∀ r ∈ (db.insertProject now data).projectManagers.rows,
      r.projectId ≠ db.projects.next := fun r member same =>
    fresh (same ▸ holds.projectManager_project r member)
  have employeesFree : ∀ r ∈ db.projectEmployees.rows,
      r.projectId ≠ db.projects.next := fun r member same =>
    fresh (same ▸ holds.projectEmployee_project r member)
  have staffing (last : Db) := projectEmployeeCreateMany_eq_ok
    (Db.linkManagers db.projects.next managers (db.insertProject now data))
    last employees inserted employeesFree
  constructor
  · intro wrote
    rcases bind_eq_ok.mp wrote with ⟨row, db₁, created, wrote⟩
    rcases bind_eq_ok.mp wrote with ⟨_, db₂, managed, wrote⟩
    rcases bind_eq_ok.mp wrote with ⟨_, db₃, staffed, same⟩
    rcases projectCreateRow_eq_ok.mp created with
      ⟨⟨fits, free, org⟩, rfl, rfl⟩
    rcases (projectManagerCreateMany_eq_ok _ _ _ inserted managersFree).mp
      managed with ⟨managersExist, rfl⟩
    rcases (staffing _).mp staffed with ⟨employeesExist, rfl⟩
    cases same
    exact ⟨⟨fits, free, org, managersExist, employeesExist⟩, rfl, rfl⟩
  · rintro ⟨⟨fits, free, org, managersExist, employeesExist⟩, rfl, rfl⟩
    refine bind_eq_ok.mpr
      ⟨_, _, projectCreateRow_eq_ok.mpr ⟨⟨fits, free, org⟩, rfl, rfl⟩, ?_⟩
    refine bind_eq_ok.mpr ⟨⟨⟩, _,
      (projectManagerCreateMany_eq_ok _ _ _ inserted managersFree).mpr
        ⟨managersExist, rfl⟩, ?_⟩
    exact bind_eq_ok.mpr ⟨⟨⟩, _,
      (staffing _).mpr ⟨employeesExist, rfl⟩, rfl⟩

/-- The columns `updateProject` writes. -/
def UpdateProjectDto.columns (dto : UpdateProjectDto) : ProjectUpdate where
  code := dto.code
  name := dto.name
  client := dto.client
  budgetHours := dto.budgetHours
  status := dto.status

theorem projectManagerCreateMany_nil :
    Prisma.projectManagerCreateMany [] = pure ⟨⟩ := by
  funext db
  simp only [Prisma.projectManagerCreateMany]
  rw [ensure_of (by simp), ensure_of (by simp)]
  rfl

/-- When a replacement of links succeeds, and what it leaves. -/
theorem replaceLinks_eq_ok {delete : Tx PUnit}
    {create : List (Nat × Nat) → Tx PUnit} {projectId : Nat}
    {db unlinked after : Db} {linked : List Nat → Db}
    (idle : create [] = pure ⟨⟩) (deletes : delete db = .ok (⟨⟩, unlinked))
    (creates : ∀ ids,
      create (ids.map fun id => (projectId, id)) unlinked = .ok (⟨⟩, after) ↔
        unlinked.Linkable ids ∧ after = linked ids)
    (given : Option (List Nat)) :
    replaceLinks delete create projectId given db = .ok (⟨⟩, after) ↔
      (∀ ids ∈ given, unlinked.Linkable ids) ∧
        after = given.elim db linked := by
  cases given with
  | none =>
      have skipped : replaceLinks delete create projectId none db =
          .ok (⟨⟩, db) := rfl
      simp [skipped, eq_comm]
  | some ids =>
      have replaced : replaceLinks delete create projectId (some ids) =
          delete >>= fun _ =>
            create (ids.map fun id => (projectId, id)) := by
        rw [← createGiven idle]
        rfl
      rw [replaced, bind_eq_ok]
      simp [deletes, creates]

theorem replaceProjectManagers_eq_ok (db after : Db) {projectId : Nat}
    (given : Option (List Nat)) (project : db.projects.HasKey projectId) :
    replaceLinks (Prisma.projectManagerDeleteMany projectId)
        Prisma.projectManagerCreateMany projectId given db =
        .ok (⟨⟩, after) ↔
      (∀ ids ∈ given, db.Linkable ids) ∧
        after = db.withProjectManagers projectId given := by
  have created (ids : List Nat) := projectManagerCreateMany_eq_ok
    (db.unlinkManagers projectId) after ids project
    (db.unlinkManagers_free projectId)
  refine (replaceLinks_eq_ok projectManagerCreateMany_nil rfl created
    given).trans ?_
  cases given with
  | none => exact Iff.rfl
  | some ids => exact Iff.rfl

theorem replaceProjectEmployees_eq_ok (db after : Db) {projectId : Nat}
    (given : Option (List Nat)) (project : db.projects.HasKey projectId) :
    replaceLinks
        (Prisma.projectEmployeeDeleteMany fun r => r.projectId = projectId)
        Prisma.projectEmployeeCreateMany projectId given db =
        .ok (⟨⟩, after) ↔
      (∀ ids ∈ given, db.Linkable ids) ∧
        after = db.withProjectEmployees projectId given := by
  have created (ids : List Nat) := projectEmployeeCreateMany_eq_ok
    (db.unlinkEmployees projectId) after ids project
    (db.unlinkEmployees_free projectId)
  refine (replaceLinks_eq_ok projectEmployeeCreateMany_nil rfl created
    given).trans ?_
  cases given with
  | none => exact Iff.rfl
  | some ids => exact Iff.rfl

/-- When an update of a project succeeds, and what it leaves. -/
theorem projectUpdate_eq_ok {collate : String → String} {now : Instant}
    {data : ProjectUpdate} {db after : Db} {p project : Project}
    (member : p ∈ db.projects.rows) :
    Prisma.projectUpdate collate now p.id data db = .ok (project, after) ↔
      ((varchar? data.code ∧ varchar? data.name ∧ varchar? data.client) ∧
        ∀ code ∈ data.code, ∀ q ∈ db.projects.rows, q.id ≠ p.id →
          ¬ (q.organisationId = p.organisationId ∧
            collate q.code = collate code)) ∧
      project = data.apply now p ∧ after = db.setProject now p.id data := by
  have found : db.projects.find? (fun q => q.id = p.id) = some p :=
    Table.find?_of_mem member rfl fun _ key => key
  simp only [Prisma.projectUpdate, found, ensure_eq_ok, Except.ok.injEq,
    Prod.mk.injEq, Db.setProject, and_assoc, eq_comm (a := project),
    eq_comm (a := after)]

/-- When the transaction of `updateProject` succeeds, and what it leaves. -/
theorem writeProject_eq_ok {lib : Libs} {host : Host}
    {dto : UpdateProjectDto} {db after : Db} {p project : Project}
    (member : p ∈ db.projects.rows) :
    writeProject lib host p.id dto db = .ok (project, after) ↔
      ((varchar? dto.code ∧ varchar? dto.name ∧ varchar? dto.client) ∧
        (∀ code ∈ dto.code, ∀ q ∈ db.projects.rows, q.id ≠ p.id →
          ¬ (q.organisationId = p.organisationId ∧
            lib.collate q.code = lib.collate code)) ∧
        (∀ ids ∈ dto.managerIds, db.Linkable ids) ∧
        ∀ ids ∈ dto.employeeIds, db.Linkable ids) ∧
      project = dto.columns.apply host.now p ∧
        after = ((db.setProject host.now p.id dto.columns).withProjectManagers
          p.id dto.managerIds).withProjectEmployees p.id dto.employeeIds := by
  have written :
      (db.setProject host.now p.id dto.columns).projects.HasKey p.id :=
    Table.hasKey_modify.mpr ⟨p, member, rfl⟩
  have staffing (last : Db) := replaceProjectEmployees_eq_ok
    ((db.setProject host.now p.id dto.columns).withProjectManagers p.id
      dto.managerIds)
    last dto.employeeIds written
  constructor
  · intro wrote
    rcases bind_eq_ok.mp wrote with ⟨row, db₁, updated, wrote⟩
    rcases bind_eq_ok.mp wrote with ⟨_, db₂, managed, wrote⟩
    rcases bind_eq_ok.mp wrote with ⟨_, db₃, staffed, same⟩
    rcases (projectUpdate_eq_ok member).mp updated with
      ⟨⟨fits, free⟩, rfl, rfl⟩
    rcases (replaceProjectManagers_eq_ok _ _ _ written).mp managed with
      ⟨managersExist, rfl⟩
    rcases (staffing _).mp
      staffed with ⟨employeesExist, rfl⟩
    cases same
    exact ⟨⟨fits, free, managersExist, employeesExist⟩, rfl, rfl⟩
  · rintro ⟨⟨fits, free, managersExist, employeesExist⟩, rfl, rfl⟩
    refine bind_eq_ok.mpr
      ⟨_, _, (projectUpdate_eq_ok member).mpr ⟨⟨fits, free⟩, rfl, rfl⟩, ?_⟩
    refine bind_eq_ok.mpr ⟨⟨⟩, _,
      (replaceProjectManagers_eq_ok _ _ _ written).mpr ⟨managersExist, rfl⟩, ?_⟩
    exact bind_eq_ok.mpr ⟨⟨⟩, _,
      (staffing _).mpr
        ⟨employeesExist, rfl⟩, rfl⟩

/-! ## One step of a user, team or project request -/

/-- The row `createUser` inserts. -/
def CreateUserDto.data (lib : Libs) (host : Host) (orgId : Nat)
    (dto : CreateUserDto) : UserData where
  organisationId := orgId
  name := dto.name
  email := dto.email
  passwordHash := lib.bcryptHash dto.password host.salt
  role := dto.role.getD .employee
  department := dto.department

/-- The columns `updateUser` writes. -/
def UpdateUserDto.columns (dto : UpdateUserDto) : UserUpdate where
  name := dto.name
  role := dto.role
  department := dto.department
  status := dto.status

/-- The row `createProject` inserts. -/
def CreateProjectDto.data (orgId : Nat) (dto : CreateProjectDto) :
    ProjectData where
  organisationId := orgId
  code := dto.code
  name := dto.name
  client := dto.client
  budgetHours := dto.budgetHours.getD 0
  status := dto.status.getD .active

/-- The body takes the user away from the managers and administrators. -/
def UpdateUserDto.Demotes (dto : UpdateUserDto) (user : User) : Prop :=
  dto.role.getD user.role = .employee ∧ user.role ≠ .employee

instance (dto : UpdateUserDto) (user : User) : Decidable (dto.Demotes user) :=
  inferInstanceAs (Decidable (_ ∧ _))

/-- The columns `deactivateUser` writes. -/
def deactivation : UserUpdate where
  status := some .inactive
  refreshToken := some none

namespace Db

/-- The reports of a manager dropped. -/
def dropReports (managerId : Nat) (db : Db) : Db :=
  { db with
    managerEmployees :=
      db.managerEmployees.deleteWhere fun r => r.managerId = managerId }

/-- The update of a user, with its reports dropped after a demotion. -/
def reviseUser (now : Instant) (user : User) (dto : UpdateUserDto)
    (db : Db) : Db :=
  if dto.Demotes user then
    (db.setUser now user.id dto.columns).dropReports user.id
  else
    db.setUser now user.id dto.columns

theorem reviseUser_demoted {now : Instant} {user : User}
    {dto : UpdateUserDto} {db : Db} (demoted : dto.Demotes user) :
    db.reviseUser now user dto =
      (db.setUser now user.id dto.columns).dropReports user.id :=
  if_pos demoted

theorem reviseUser_kept {now : Instant} {user : User} {dto : UpdateUserDto}
    {db : Db} (kept : ¬ dto.Demotes user) :
    db.reviseUser now user dto = db.setUser now user.id dto.columns :=
  if_neg kept

@[simp]
theorem reviseUser_users {now : Instant} {user : User} {dto : UpdateUserDto}
    {db : Db} :
    (db.reviseUser now user dto).users =
      (db.setUser now user.id dto.columns).users := by
  unfold reviseUser
  split <;> rfl

@[simp]
theorem reviseUser_projects {now : Instant} {user : User}
    {dto : UpdateUserDto} {db : Db} :
    (db.reviseUser now user dto).projects = db.projects := by
  unfold reviseUser
  split <;> rfl

@[simp]
theorem reviseUser_projectManagers {now : Instant} {user : User}
    {dto : UpdateUserDto} {db : Db} :
    (db.reviseUser now user dto).projectManagers = db.projectManagers := by
  unfold reviseUser
  split <;> rfl

@[simp]
theorem reviseUser_projectEmployees {now : Instant} {user : User}
    {dto : UpdateUserDto} {db : Db} :
    (db.reviseUser now user dto).projectEmployees = db.projectEmployees := by
  unfold reviseUser
  split <;> rfl

theorem mem_reviseUser {now : Instant} {user : User} {dto : UpdateUserDto}
    {db : Db} {r : ManagerEmployee} :
    r ∈ (db.reviseUser now user dto).managerEmployees.rows ↔
      r ∈ db.managerEmployees.rows ∧
        ¬ (dto.Demotes user ∧ r.managerId = user.id) := by
  by_cases demoted : dto.Demotes user
  · rw [reviseUser_demoted demoted]
    simp only [demoted, true_and]
    exact Table.mem_deleteWhere
  · rw [reviseUser_kept demoted]
    simp [demoted, setUser]

/-- The project and its links gone. -/
def dropProject (id : Nat) (db : Db) : Db :=
  { db with
    projects := db.projects.deleteWhere fun p => p.id = id
    projectManagers :=
      db.projectManagers.deleteWhere fun r => r.projectId = id
    projectEmployees :=
      db.projectEmployees.deleteWhere fun r => r.projectId = id }

end Db

/-- The role a managing route asks for. -/
def Managing (caller : JwtPayload) : Prop :=
  caller.role = .manager ∨ caller.role = .admin

/-- The caller may operate on a user of its organisation. -/
structure Manages (caller : JwtPayload) (db : Db) (id : Nat) : Prop where
  member : db.Member id caller.orgId
  report : caller.role ≠ .admin →
    id ∈ db.directReportIds caller.userId caller.orgId

/-- The users whose links a request may replace. -/
inductive Reaches (caller : JwtPayload) (start db : Db) (id : Nat) : Prop where
  | managed (manages : Manages caller start id)
  | created (fresh : ¬ start.users.HasKey id)
      (member : db.Member id caller.orgId)

/-- What holds when a user is created. -/
structure CreatesUser (lib : Libs) (caller : JwtPayload) (db : Db)
    (dto : CreateUserDto) : Prop where
  junior : caller.role = .manager → ∀ r ∈ dto.role, r = .employee
  fits : varchar dto.name ∧ varchar dto.email ∧ varchar? dto.department
  free : ∀ u ∈ db.users.rows, lib.collate u.email ≠ lib.collate dto.email
  org : db.organisations.HasKey caller.orgId

/-- What holds when a user is updated. -/
structure UpdatesUser (caller : JwtPayload) (db : Db) (user : User)
    (dto : UpdateUserDto) : Prop where
  member : user ∈ db.users.rows
  manages : Manages caller db user.id
  junior : caller.role = .manager → ∀ r ∈ dto.role, r = .employee
  fits : varchar? dto.name ∧ varchar? dto.department

/-- Links that can replace those of a user. -/
structure Replaceable (db : Db) (orgId employeeId : Nat)
    (managerIds : List Nat) : Prop where
  notSelf : employeeId ∉ managerIds
  valid : ∀ id ∈ managerIds, db.validManager orgId id
  distinct : managerIds.Nodup
  employee : managerIds ≠ [] → db.users.HasKey employeeId

theorem Db.validManager.hasKey {db : Db} {orgId id : Nat}
    (valid : db.validManager orgId id) : db.users.HasKey id := by
  rcases valid with ⟨u, member, key, _⟩
  exact ⟨u, member, key⟩

theorem Db.validProject.hasKey {db : Db} {orgId id : Nat}
    (valid : db.validProject orgId id) : db.projects.HasKey id := by
  rcases valid with ⟨p, member, key, _⟩
  exact ⟨p, member, key⟩

theorem Replaceable.wrote {db : Db} {orgId employeeId : Nat}
    {managerIds : List Nat}
    (may : Replaceable db orgId employeeId managerIds) :
    replaceManagers employeeId managerIds db =
      .ok (⟨⟩, db.withManagers employeeId managerIds) :=
  replaceManagers_eq_ok.mpr ⟨⟨may.distinct, fun id given =>
    ⟨(may.valid id given).hasKey,
      may.employee (List.ne_nil_of_mem given)⟩⟩, rfl⟩

/-- Projects that can replace those of a user. -/
structure Assignable (db : Db) (orgId employeeId : Nat)
    (projectIds : List Nat) : Prop where
  valid : ∀ id ∈ projectIds, db.validProject orgId id
  distinct : projectIds.Nodup
  employee : projectIds ≠ [] → db.users.HasKey employeeId

theorem Assignable.wrote {db : Db} {orgId employeeId : Nat}
    {projectIds : List Nat}
    (may : Assignable db orgId employeeId projectIds) :
    replaceProjects employeeId projectIds db =
      .ok (⟨⟩, db.withProjects employeeId projectIds) :=
  replaceProjects_eq_ok.mpr ⟨⟨may.distinct, fun id given =>
    ⟨(may.valid id given).hasKey,
      may.employee (List.ne_nil_of_mem given)⟩⟩, rfl⟩

/-- What holds when a project is created. -/
structure CreatesProject (lib : Libs) (caller : JwtPayload) (db : Db)
    (dto : CreateProjectDto) : Prop where
  reports : caller.role = .manager → ∀ id ∈ dto.employeeIds.getD [],
    id ∈ db.directReportIds caller.userId caller.orgId
  fits : varchar dto.code ∧ varchar dto.name ∧ varchar dto.client
  free : ∀ p ∈ db.projects.rows, ¬ (p.organisationId = caller.orgId ∧
    lib.collate p.code = lib.collate dto.code)
  org : db.organisations.HasKey caller.orgId
  managers : db.Linkable
    (managerCreateList dto.managerIds caller.userId caller.role)
  employees : db.Linkable (dto.employeeIds.getD [])

/-- What holds when a project is updated. -/
structure UpdatesProject (lib : Libs) (caller : JwtPayload) (db : Db)
    (p : Project) (dto : UpdateProjectDto) : Prop where
  member : p ∈ db.projects.rows
  org : p.organisationId = caller.orgId
  reports : caller.role = .manager → ∀ id ∈ dto.employeeIds.getD [],
    id ∈ db.directReportIds caller.userId caller.orgId
  fits : varchar? dto.code ∧ varchar? dto.name ∧ varchar? dto.client
  free : ∀ code ∈ dto.code, ∀ q ∈ db.projects.rows, q.id ≠ p.id →
    ¬ (q.organisationId = p.organisationId ∧
      lib.collate q.code = lib.collate code)
  managers : ∀ ids ∈ dto.managerIds, db.Linkable ids
  employees : ∀ ids ∈ dto.employeeIds, db.Linkable ids

/-- The requests that create or update a user, with its links. -/
inductive Call.SavesUser : Call → Prop where
  | create (dto : CreateUserDto) : SavesUser (.createUser dto)
  | update (id : Nat) (dto : UpdateUserDto) : SavesUser (.updateUser id dto)

/--
One step of a request of `caller` that began in `start`.  A request that makes
several steps creates or updates a user first.
-/
inductive TeamChange (lib : Libs) (host : Host) (caller : JwtPayload)
    (call : Call) (start db : Db) : Db → Prop where
  | loggedOut (made : call = .logout) (known : db.users.HasKey caller.userId) :
      TeamChange lib host caller call start db
        (db.setUser host.now caller.userId { refreshToken := some none })
  | userCreated (dto : CreateUserDto) (made : call = .createUser dto)
      (begins : db = start) (role : Managing caller)
      (may : CreatesUser lib caller db dto) :
      TeamChange lib host caller call start db
        (db.addUser host.now (dto.data lib host caller.orgId))
  | userUpdated (user : User) (dto : UpdateUserDto)
      (made : call = .updateUser user.id dto) (begins : db = start)
      (role : Managing caller) (may : UpdatesUser caller db user dto) :
      TeamChange lib host caller call start db
        (db.reviseUser host.now user dto)
  | deactivated (id : Nat) (made : call = .deactivateUser id)
      (begins : db = start) (role : Managing caller)
      (manages : Manages caller db id) :
      TeamChange lib host caller call start db
        (db.setUser host.now id deactivation)
  | managersReplaced (employeeId : Nat) (managerIds : List Nat)
      (made : call.SavesUser) (role : Managing caller)
      (reach : Reaches caller start db employeeId)
      (may : Replaceable db caller.orgId employeeId managerIds) :
      TeamChange lib host caller call start db
        (db.withManagers employeeId managerIds)
  | managersSet (employeeId : Nat) (managerIds : List Nat)
      (made : call = .setUserManagers employeeId managerIds)
      (begins : db = start) (role : caller.role = .admin)
      (accepted : Schemas.setUserManagersSchema managerIds = [])
      (may : Replaceable db caller.orgId employeeId managerIds) :
      TeamChange lib host caller call start db
        (db.withManagers employeeId managerIds)
  | projectsReplaced (employeeId : Nat) (projectIds : List Nat)
      (made : call.SavesUser) (role : Managing caller)
      (reach : Reaches caller start db employeeId)
      (may : Assignable db caller.orgId employeeId projectIds) :
      TeamChange lib host caller call start db
        (db.withProjects employeeId projectIds)
  | projectCreated (dto : CreateProjectDto) (made : call = .createProject dto)
      (begins : db = start) (role : Managing caller)
      (accepted : Schemas.createProjectSchema dto = [])
      (may : CreatesProject lib caller db dto) :
      TeamChange lib host caller call start db
        (db.addProject host.now (dto.data caller.orgId)
          (managerCreateList dto.managerIds caller.userId caller.role)
          (dto.employeeIds.getD []))
  | projectUpdated (p : Project) (dto : UpdateProjectDto)
      (made : call = .updateProject p.id dto) (begins : db = start)
      (role : Managing caller)
      (accepted : Schemas.updateProjectSchema dto = [])
      (may : UpdatesProject lib caller db p dto) :
      TeamChange lib host caller call start db
        (((db.setProject host.now p.id dto.columns).withProjectManagers p.id
          dto.managerIds).withProjectEmployees p.id dto.employeeIds)
  | projectDeleted (p : Project) (made : call = .deleteProject p.id)
      (begins : db = start) (role : Managing caller)
      (member : p ∈ db.projects.rows)
      (org : p.organisationId = caller.orgId)
      (unused : ∀ e ∈ db.timeEntries.rows, e.projectId ≠ p.id) :
      TeamChange lib host caller call start db (db.dropProject p.id)

end TmsApi
