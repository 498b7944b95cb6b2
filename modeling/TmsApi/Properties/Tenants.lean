import TmsApi.Reading
import TmsApi.Core.TwoRuns
import TmsApi.Properties.Paging
import TmsApi.Properties.ProjectLinks

/-!
# The rows of one tenant

A tenant is an organisation with all that belongs to it.  `Db.only` deletes
the rows of everyone else, and `SameTenant` says that two databases have the
same rows of one tenant.  Queries follow foreign keys, so what a tenant reads
is determined by its own rows only while no row refers to one of another
tenant.  From two databases that are `Separated` in this sense and have the
same rows of the caller's organisation, every reading route answers the same.
-/

namespace TmsApi

open TmsApi.Core
open TmsApi.Core.Program

/-! ## Whose a row is -/

namespace Db

/-- The timesheet of this key belongs to the organisation. -/
def OrgSheet (db : Db) (timesheetId orgId : Nat) : Prop :=
  ∃ t ∈ db.timesheets.rows, t.id = timesheetId ∧ t.organisationId = orgId

instance (db : Db) (timesheetId orgId : Nat) :
    Decidable (db.OrgSheet timesheetId orgId) :=
  inferInstanceAs (Decidable (∃ t ∈ db.timesheets.rows, _))

instance (db : Db) (projectId orgId : Nat) :
    Decidable (db.OrgProject projectId orgId) :=
  inferInstanceAs (Decidable (∃ p ∈ db.projects.rows, _))

/-- The database without the rows of other tenants. -/
def only (db : Db) (orgId : Nat) : Db where
  organisations := db.organisations.deleteWhere fun o => o.id ≠ orgId
  orgSettings := db.orgSettings.deleteWhere fun s => s.organisationId ≠ orgId
  users := db.users.deleteWhere fun u => u.organisationId ≠ orgId
  managerEmployees :=
    db.managerEmployees.deleteWhere fun r => ¬ db.Member r.employeeId orgId
  projects := db.projects.deleteWhere fun p => p.organisationId ≠ orgId
  projectManagers :=
    db.projectManagers.deleteWhere fun r => ¬ db.OrgProject r.projectId orgId
  projectEmployees :=
    db.projectEmployees.deleteWhere fun r => ¬ db.OrgProject r.projectId orgId
  timesheets := db.timesheets.deleteWhere fun t => t.organisationId ≠ orgId
  timeEntries :=
    db.timeEntries.deleteWhere fun e => ¬ db.OrgSheet e.timesheetId orgId
  holidays := db.holidays.deleteWhere fun h => h.organisationId ≠ orgId
  notifications :=
    db.notifications.deleteWhere fun n => ¬ db.Member n.userId orgId

/-- A user belongs to one organisation. -/
theorem Member.agree {db : Db} {userId first second : Nat}
    (left : db.Member userId first) (right : db.Member userId second) :
    first = second := by
  rcases right with ⟨u, member, key, rfl⟩
  exact (left.organisation member key).symm

/-- A project belongs to one organisation. -/
theorem OrgProject.agree {db : Db} {projectId first second : Nat}
    (left : db.OrgProject projectId first)
    (right : db.OrgProject projectId second) : first = second := by
  rcases left with ⟨p, pMem, pKey, rfl⟩
  rcases right with ⟨q, qMem, qKey, rfl⟩
  rw [db.projects.eq_of_key pMem qMem (pKey.trans qKey.symm)]

/-- Every entry is on a project of the organisation of its timesheet. -/
def EntriesInside (db : Db) : Prop :=
  ∀ e ∈ db.timeEntries.rows, ∀ t ∈ db.timesheets.rows,
    t.id = e.timesheetId → db.OrgProject e.projectId t.organisationId

/-- No row refers to a row of another tenant. -/
structure Separated (db : Db) : Prop where
  owned : db.Owned
  links : db.OneOrganisation
  staff : db.StaffedInside
  entries : db.EntriesInside

section Separated

variable {db : Db} {orgId : Nat}

theorem orgSheet_of_own {id userId : Nat} {t : Timesheet}
    (found : db.ownTimesheet id userId orgId = some t) :
    t.id = id ∧ db.OrgSheet t.id orgId := by
  rcases Table.find?_spec found with ⟨row, key, _, org⟩
  exact ⟨key, t, row, rfl, org⟩

theorem Separated.employee (separated : db.Separated) {r : ManagerEmployee}
    (row : r ∈ db.managerEmployees.rows)
    (manager : db.Member r.managerId orgId) :
    db.Member r.employeeId orgId := by
  rcases separated.links r row with ⟨home, ofManager, ofEmployee⟩
  exact manager.agree ofManager ▸ ofEmployee

theorem Separated.manager (separated : db.Separated) {r : ManagerEmployee}
    (row : r ∈ db.managerEmployees.rows)
    (employee : db.Member r.employeeId orgId) :
    db.Member r.managerId orgId := by
  rcases separated.links r row with ⟨home, ofManager, ofEmployee⟩
  exact employee.agree ofEmployee ▸ ofManager

theorem Separated.projectManager (separated : db.Separated)
    {r : ProjectManager} (row : r ∈ db.projectManagers.rows)
    (project : db.OrgProject r.projectId orgId) :
    db.Member r.managerId orgId := by
  rcases separated.staff.managers r row with ⟨home, ofProject, ofManager⟩
  exact project.agree ofProject ▸ ofManager

theorem Separated.projectEmployee (separated : db.Separated)
    {r : ProjectEmployee} (row : r ∈ db.projectEmployees.rows)
    (project : db.OrgProject r.projectId orgId) :
    db.Member r.employeeId orgId := by
  rcases separated.staff.employees r row with ⟨home, ofProject, ofEmployee⟩
  exact project.agree ofProject ▸ ofEmployee

theorem Separated.project (separated : db.Separated)
    {r : ProjectEmployee} (row : r ∈ db.projectEmployees.rows)
    (employee : db.Member r.employeeId orgId) :
    db.OrgProject r.projectId orgId := by
  rcases separated.staff.employees r row with ⟨home, ofProject, ofEmployee⟩
  exact employee.agree ofEmployee ▸ ofProject

end Separated

end Db

/-! ## The same rows of one tenant -/

/-- Two databases have the same rows of an organisation, in the same order. -/
structure SameTenant (orgId : Nat) (db other : Db) : Prop where
  settings : other.orgSettings.select (fun s => s.organisationId = orgId) =
    db.orgSettings.select fun s => s.organisationId = orgId
  users : other.users.select (fun u => u.organisationId = orgId) =
    db.users.select fun u => u.organisationId = orgId
  managerEmployees :
    other.managerEmployees.select (fun r => db.Member r.employeeId orgId) =
      db.managerEmployees.select fun r => db.Member r.employeeId orgId
  projects : other.projects.select (fun p => p.organisationId = orgId) =
    db.projects.select fun p => p.organisationId = orgId
  projectManagers :
    other.projectManagers.select (fun r => db.OrgProject r.projectId orgId) =
      db.projectManagers.select fun r => db.OrgProject r.projectId orgId
  projectEmployees :
    other.projectEmployees.select (fun r => db.OrgProject r.projectId orgId) =
      db.projectEmployees.select fun r => db.OrgProject r.projectId orgId
  timesheets : other.timesheets.select (fun t => t.organisationId = orgId) =
    db.timesheets.select fun t => t.organisationId = orgId
  timeEntries :
    other.timeEntries.select (fun e => db.OrgSheet e.timesheetId orgId) =
      db.timeEntries.select fun e => db.OrgSheet e.timesheetId orgId
  holidays : other.holidays.select (fun h => h.organisationId = orgId) =
    db.holidays.select fun h => h.organisationId = orgId
  notifications :
    other.notifications.select (fun n => db.Member n.userId orgId) =
      db.notifications.select fun n => db.Member n.userId orgId

namespace SameTenant

variable {orgId : Nat} {db other : Db}

theorem refl (orgId : Nat) (db : Db) : SameTenant orgId db db := by
  constructor <;> rfl

/-- Deleting what belongs to others changes nothing of a tenant. -/
theorem only (db : Db) (orgId : Nat) :
    SameTenant orgId db (db.only orgId) := by
  constructor <;> exact Table.select_deleteWhere fun _ _ apart => apart

theorem member (same : SameTenant orgId db other) (userId : Nat) :
    other.Member userId orgId ↔ db.Member userId orgId := by
  have among (state : Db) : state.Member userId orgId ↔
      ∃ u ∈ state.users.select fun u => u.organisationId = orgId,
        u.id = userId := by
    simp only [Db.Member, Table.mem_select, and_assoc, and_comm]
  rw [among, among, same.users]

theorem orgProject (same : SameTenant orgId db other) (projectId : Nat) :
    other.OrgProject projectId orgId ↔ db.OrgProject projectId orgId := by
  have among (state : Db) : state.OrgProject projectId orgId ↔
      ∃ p ∈ state.projects.select fun p => p.organisationId = orgId,
        p.id = projectId := by
    simp only [Db.OrgProject, Table.mem_select, and_assoc, and_comm]
  rw [among, among, same.projects]

theorem orgSheet (same : SameTenant orgId db other) (timesheetId : Nat) :
    other.OrgSheet timesheetId orgId ↔ db.OrgSheet timesheetId orgId := by
  have among (state : Db) : state.OrgSheet timesheetId orgId ↔
      ∃ t ∈ state.timesheets.select fun t => t.organisationId = orgId,
        t.id = timesheetId := by
    simp only [Db.OrgSheet, Table.mem_select, and_assoc, and_comm]
  rw [among, among, same.timesheets]

theorem trans {third : Db} (left : SameTenant orgId db other)
    (right : SameTenant orgId other third) : SameTenant orgId db third := by
  -- The rows of the links are selected by what the databases agree on.
  have widen {Row : Type} [Keyed Row] {a b c : Table Row} {p q : Row → Prop}
      [DecidablePred p] [DecidablePred q] (same : ∀ row, q row ↔ p row)
      (first : b.select p = a.select p) (second : c.select q = b.select q) :
      c.select p = a.select p := by
    rw [← Table.select_congr fun row _ => same row, second,
      Table.select_congr fun row _ => same row, first]
  exact
    { settings := right.settings.trans left.settings
      users := right.users.trans left.users
      managerEmployees := widen (fun _ => left.member _)
        left.managerEmployees right.managerEmployees
      projects := right.projects.trans left.projects
      projectManagers := widen (fun _ => left.orgProject _)
        left.projectManagers right.projectManagers
      projectEmployees := widen (fun _ => left.orgProject _)
        left.projectEmployees right.projectEmployees
      timesheets := right.timesheets.trans left.timesheets
      timeEntries := widen (fun _ => left.orgSheet _)
        left.timeEntries right.timeEntries
      holidays := right.holidays.trans left.holidays
      notifications := widen (fun _ => left.member _)
        left.notifications right.notifications }

end SameTenant

/-- What is left without the other tenants is separated too. -/
theorem Db.Separated.only {db : Db} (separated : db.Separated)
    (orgId : Nat) : (db.only orgId).Separated := by
  have same := SameTenant.only db orgId
  have ours {org : Nat} (own : ¬ org ≠ orgId) : org = orgId := not_not.mp own
  constructor
  · intro t row
    rcases Table.mem_deleteWhere.mp row with ⟨old, own⟩
    have owner := separated.owned t old
    rw [ours own] at owner ⊢
    exact (same.member _).mpr owner
  · intro r row
    rcases Table.mem_deleteWhere.mp row with ⟨old, own⟩
    have employee := not_not.mp own
    exact ⟨orgId, (same.member _).mpr (separated.manager old employee),
      (same.member _).mpr employee⟩
  · constructor
    · intro r row
      rcases Table.mem_deleteWhere.mp row with ⟨old, own⟩
      have project := not_not.mp own
      exact ⟨orgId, (same.orgProject _).mpr project,
        (same.member _).mpr (separated.projectManager old project)⟩
    · intro r row
      rcases Table.mem_deleteWhere.mp row with ⟨old, own⟩
      have project := not_not.mp own
      exact ⟨orgId, (same.orgProject _).mpr project,
        (same.member _).mpr (separated.projectEmployee old project)⟩
  · intro e eRow t tRow key
    have old := (Table.mem_deleteWhere.mp eRow).1
    rcases Table.mem_deleteWhere.mp tRow with ⟨sheet, own⟩
    have project := separated.entries e old t sheet key
    rw [ours own] at project ⊢
    exact (same.orgProject _).mpr project

/-! ## Queries -/

/-- Separated databases with the same rows of a tenant. -/
structure Twins (orgId : Nat) (db other : Db) : Prop where
  same : SameTenant orgId db other
  left : db.Separated
  right : other.Separated

namespace Twins

variable {orgId : Nat} {db other : Db}

theorem user (twins : Twins orgId db other) {id : Nat}
    (member : db.Member id orgId) :
    other.users.find? (fun u => u.id = id) =
      db.users.find? fun u => u.id = id := by
  rcases member with ⟨u, row, key, org⟩
  exact Table.find?_of_shared twins.same.users row org key
    fun _ found => found.trans key.symm

theorem project (twins : Twins orgId db other) {id : Nat}
    (project : db.OrgProject id orgId) :
    other.projects.find? (fun p => p.id = id) =
      db.projects.find? fun p => p.id = id := by
  rcases project with ⟨p, row, key, org⟩
  exact Table.find?_of_shared twins.same.projects row org key
    fun _ found => found.trans key.symm

theorem usersOf (twins : Twins orgId db other) {ids : List Nat}
    (members : ∀ id ∈ ids, db.Member id orgId) :
    other.usersOf ids = db.usersOf ids :=
  List.filterMap_congr fun id given => twins.user (members id given)

theorem userNames (twins : Twins orgId db other) {ids : List Nat}
    (members : ∀ id ∈ ids, db.Member id orgId) :
    other.userNames ids = db.userNames ids := by
  refine List.filterMap_congr fun id given => ?_
  rw [twins.user (members id given)]

/-- The reports of any manager of the organisation. -/
theorem directReportIds (twins : Twins orgId db other) (managerId : Nat) :
    other.directReportIds managerId orgId =
      db.directReportIds managerId orgId := by
  simp only [Db.directReportIds, twins.same.member]
  rw [Table.select_of_select twins.same.managerEmployees]
  · exact fun r row meets => twins.left.employee row meets.2
  · intro r row meets
    have manager := (twins.same.member r.managerId).mpr meets.2
    exact (twins.same.member _).mp (twins.right.employee row manager)

theorem reports_members (twins : Twins orgId db other) {managerId id : Nat}
    (report : id ∈ db.directReportIds managerId orgId) :
    db.Member id orgId := by
  rcases List.mem_map.mp report with ⟨r, selected, rfl⟩
  rcases Table.mem_select.mp selected with ⟨row, _, manager⟩
  exact twins.left.employee row manager

/-- The managers of any user of the organisation. -/
theorem managerIds (twins : Twins orgId db other) (employeeId : Nat) :
    other.managerIds employeeId orgId = db.managerIds employeeId orgId := by
  simp only [Db.managerIds, twins.same.member]
  rw [Table.select_of_select twins.same.managerEmployees] <;>
    exact fun r row meets => meets.2

theorem managers_members (twins : Twins orgId db other) {employeeId id : Nat}
    (manager : id ∈ db.managerIds employeeId orgId) :
    db.Member id orgId := by
  rcases List.mem_map.mp manager with ⟨r, selected, rfl⟩
  rcases Table.mem_select.mp selected with ⟨row, _, employee⟩
  exact twins.left.manager row employee

/-- A query of timesheets that names the organisation. -/
theorem sheets (twins : Twins orgId db other) {p : Timesheet → Prop}
    [DecidablePred p] (within : ∀ t, p t → t.organisationId = orgId) :
    other.timesheets.select p = db.timesheets.select p :=
  Table.select_of_select twins.same.timesheets (fun t _ => within t)
    fun t _ => within t

/-- A query of the entries of a timesheet of the organisation. -/
theorem entries (twins : Twins orgId db other) {timesheetId : Nat}
    (sheet : db.OrgSheet timesheetId orgId) {p : TimeEntry → Prop}
    [DecidablePred p] (within : ∀ e, p e → e.timesheetId = timesheetId) :
    other.timeEntries.select p = db.timeEntries.select p := by
  have inside (e : TimeEntry) (meets : p e) :
      db.OrgSheet e.timesheetId orgId := by
    rwa [within e meets]
  exact Table.select_of_select twins.same.timeEntries (fun e _ => inside e)
    fun e _ => inside e

/-- The projects of the entries of a timesheet are the tenant's. -/
theorem entryProject (twins : Twins orgId db other) {e : TimeEntry}
    (row : e ∈ db.timeEntries.rows) (sheet : db.OrgSheet e.timesheetId orgId) :
    other.projects.find? (fun p => p.id = e.projectId) =
      db.projects.find? fun p => p.id = e.projectId := by
  rcases sheet with ⟨t, member, key, rfl⟩
  exact twins.project (twins.left.entries e row t member key)

/-! ## Timesheets -/

theorem entriesWithProject (twins : Twins orgId db other)
    {timesheetId : Nat} (sheet : db.OrgSheet timesheetId orgId) :
    other.entriesWithProject timesheetId =
      db.entriesWithProject timesheetId := by
  have entries : other.entriesOf timesheetId = db.entriesOf timesheetId :=
    twins.entries sheet fun _ own => own
  rw [Db.entriesWithProject, Db.entriesWithProject, entries]
  refine List.map_congr_left fun e listed => ?_
  rcases Table.mem_select.mp ((List.mem_insertionSort _).mp listed) with
    ⟨row, rfl⟩
  rw [twins.entryProject row sheet]

theorem ownTimesheet (twins : Twins orgId db other) (id userId : Nat) :
    other.ownTimesheet id userId orgId = db.ownTimesheet id userId orgId :=
  Table.find?_of_select (twins.sheets fun _ meets => meets.2.2)

theorem getTimesheetById_alike (twins : Twins orgId db other)
    (id userId : Nat) :
    Alike (getTimesheetById id userId orgId) db other := by
  refine .bind (.query ?_) fun found _ => .orThrow _ _
  rw [twins.ownTimesheet]
  cases found : db.ownTimesheet id userId orgId with
  | none => rfl
  | some t =>
      have sheet := (Db.orgSheet_of_own found).2
      rw [Option.map_some, Option.map_some, twins.entriesWithProject sheet]

theorem listEntries_alike (twins : Twins orgId db other)
    (timesheetId userId : Nat) :
    Alike (listEntries timesheetId userId orgId) db other := by
  refine .bind (.query (twins.ownTimesheet _ _).symm) fun found read => ?_
  refine .bind (.orThrow _ _) fun t known => .query ?_
  cases eq_some_of_orThrow known
  rcases Db.orgSheet_of_own (Except.ok.inj read) with ⟨rfl, sheet⟩
  exact (twins.entriesWithProject sheet).symm

/-! ## Pages -/

/-- A page of the same rows with the same relations. -/
theorem findManyAndCount_alike {Row Included : Type}
    {matching : Db → List Row} {ordered : Row → Row → Prop}
    [DecidableRel ordered] {included : Db → Row → Included} {page limit : Int}
    (rows : matching other = matching db)
    (relations : ∀ row ∈ matching db, included other row = included db row) :
    Alike (findManyAndCount matching ordered included page limit) db
      other := by
  let skip := (page - 1) * limit
  let answer (state : Db) : Except Thrown (Page Included) :=
    (Prisma.paginate skip limit (((matching state).insertionSort ordered).map
      (included state))).map fun data =>
        ⟨data, (matching state).length, page, limit⟩
  have listed : ((matching db).insertionSort ordered).map (included other) =
      ((matching db).insertionSort ordered).map (included db) :=
    List.map_congr_left fun row sorted =>
      relations row ((List.mem_insertionSort _).mp sorted)
  have same : answer db = answer other := by
    simp only [answer, rows, listed]
  refine .statement (fun state => ?_) same
  simp only [answer, skip, Prisma.paginate_map]
  cases Prisma.paginate ((page - 1) * limit) limit
    ((matching state).insertionSort ordered) <;> rfl

theorem listTimesheets_alike (twins : Twins orgId db other) (userId : Nat)
    (page limit : Int) :
    Alike (listTimesheets userId orgId page limit) db other :=
  findManyAndCount_alike (twins.sheets fun _ meets => meets.2) fun _ _ => rfl

/-- The managers and employees of a project of the organisation. -/
theorem projectListing (twins : Twins orgId db other) {p : Project}
    (project : db.OrgProject p.id orgId) :
    other.projectListing p = db.projectListing p := by
  have managers : other.projectManagers.select (fun r => r.projectId = p.id) =
      db.projectManagers.select fun r => r.projectId = p.id := by
    refine Table.select_of_select twins.same.projectManagers ?_ ?_ <;>
      exact fun r _ own => own ▸ project
  have employees : other.projectEmployees.select (fun r => r.projectId = p.id) =
      db.projectEmployees.select fun r => r.projectId = p.id := by
    refine Table.select_of_select twins.same.projectEmployees ?_ ?_ <;>
      exact fun r _ own => own ▸ project
  rw [Db.projectListing, Db.projectListing, managers, employees,
    twins.userNames, twins.userNames]
  · intro id given
    rcases List.mem_map.mp given with ⟨r, selected, rfl⟩
    rcases Table.mem_select.mp selected with ⟨row, own⟩
    exact twins.left.projectEmployee row (own ▸ project)
  · intro id given
    rcases List.mem_map.mp given with ⟨r, selected, rfl⟩
    rcases Table.mem_select.mp selected with ⟨row, own⟩
    exact twins.left.projectManager row (own ▸ project)

/-- An assignment to a project of the organisation is in both databases. -/
theorem assigned (twins : Twins orgId db other) {projectId userId : Nat}
    (project : db.OrgProject projectId orgId) :
    (∃ r ∈ other.projectEmployees.rows,
        r.projectId = projectId ∧ r.employeeId = userId) ↔
      ∃ r ∈ db.projectEmployees.rows,
        r.projectId = projectId ∧ r.employeeId = userId := by
  have among (state : Db) : (∃ r ∈ state.projectEmployees.rows,
        r.projectId = projectId ∧ r.employeeId = userId) ↔
      ∃ r ∈ state.projectEmployees.select fun r =>
        db.OrgProject r.projectId orgId,
          r.projectId = projectId ∧ r.employeeId = userId := by
    simp only [Table.mem_select, and_assoc]
    refine exists_congr fun r => and_congr_right fun _ => ?_
    exact ⟨fun own => ⟨own.1 ▸ project, own⟩, And.right⟩
  rw [among, among, twins.same.projectEmployees]

theorem visibleProjects (twins : Twins orgId db other) (userId : Nat)
    (role : UserRole) :
    other.visibleProjects orgId userId role =
      db.visibleProjects orgId userId role := by
  have asked : other.visibleProjects orgId userId role =
      other.projects.select fun p => p.organisationId = orgId ∧
        (role = .employee → ∃ r ∈ db.projectEmployees.rows,
          r.projectId = p.id ∧ r.employeeId = userId) := by
    refine Table.select_congr fun p row => and_congr_right fun own => ?_
    have project : db.OrgProject p.id orgId :=
      (twins.same.orgProject p.id).mp ⟨p, row, rfl, own⟩
    rw [twins.assigned project]
  rw [asked]
  exact Table.select_of_select twins.same.projects (fun p _ own => own.1)
    fun p _ own => own.1

theorem listProjects_alike (twins : Twins orgId db other) (userId : Nat)
    (role : UserRole) (page limit : Int) :
    Alike (listProjects orgId userId role page limit) db other := by
  refine findManyAndCount_alike (twins.visibleProjects userId role) ?_
  intro p listed
  rcases Table.mem_select.mp listed with ⟨row, own, _⟩
  exact twins.projectListing ⟨p, row, rfl, own⟩

/-! ## Users -/

/-- The managers and the projects of a user of the organisation. -/
theorem userListing (twins : Twins orgId db other) {u : User}
    (member : db.Member u.id orgId) :
    other.userListing u = db.userListing u := by
  have links : other.managerEmployees.select (fun r => r.employeeId = u.id) =
      db.managerEmployees.select fun r => r.employeeId = u.id := by
    refine Table.select_of_select twins.same.managerEmployees ?_ ?_ <;>
      exact fun r _ own => own ▸ member
  have assignments :
      other.projectEmployees.select (fun r => r.employeeId = u.id) =
        db.projectEmployees.select fun r => r.employeeId = u.id := by
    refine Table.select_of_select twins.same.projectEmployees ?_ ?_
    · exact fun r row own => twins.left.project row (own ▸ member)
    · intro r row own
      have employee := (twins.same.member u.id).mpr member
      rw [← own] at employee
      exact (twins.same.orgProject _).mp (twins.right.project row employee)
  have managers : other.userNames ((db.managerEmployees.select fun r =>
        r.employeeId = u.id).map (·.managerId)) =
      db.userNames ((db.managerEmployees.select fun r =>
        r.employeeId = u.id).map (·.managerId)) := by
    refine twins.userNames fun id given => ?_
    rcases List.mem_map.mp given with ⟨r, selected, rfl⟩
    rcases Table.mem_select.mp selected with ⟨row, own⟩
    exact twins.left.manager row (own ▸ member)
  have projects : (db.projectEmployees.select fun r =>
        r.employeeId = u.id).filterMap (fun r =>
          (other.projects.find? fun p => p.id = r.projectId).map fun p =>
            (p.id, p.name, p.code)) =
      (db.projectEmployees.select fun r =>
        r.employeeId = u.id).filterMap fun r =>
          (db.projects.find? fun p => p.id = r.projectId).map fun p =>
            (p.id, p.name, p.code) := by
    refine List.filterMap_congr fun r selected => ?_
    rcases Table.mem_select.mp selected with ⟨row, own⟩
    rw [twins.project (twins.left.project row (own ▸ member))]
  rw [Db.userListing, Db.userListing, links, assignments, managers, projects]

theorem userFilter_alike (twins : Twins orgId db other) (userId : Nat)
    (role : UserRole) : Alike (userFilter orgId userId role) db other := by
  unfold userFilter
  split
  · exact .bind (.query (twins.directReportIds _).symm) fun _ _ => .done _
  · exact .done _

theorem listUsers_alike (twins : Twins orgId db other) (userId : Nat)
    (role : UserRole) (page limit : Int) :
    Alike (listUsers orgId userId role page limit) db other := by
  refine .bind (twins.userFilter_alike userId role) fun filter _ => ?_
  refine findManyAndCount_alike ?_ fun u listed => ?_
  · exact Table.select_of_select twins.same.users (fun u _ own => own.1)
      fun u _ own => own.1
  · rcases Table.mem_select.mp listed with ⟨row, own, _⟩
    exact twins.userListing ⟨u, row, rfl, own⟩

theorem getTeamMembers_alike (twins : Twins orgId db other)
    (managerId : Nat) : Alike (getTeamMembers managerId orgId) db other := by
  refine .query ?_
  rw [twins.directReportIds, twins.usersOf fun id => twins.reports_members]

theorem getManagersOfUser_alike (twins : Twins orgId db other)
    (employeeId : Nat) :
    Alike (getManagersOfUser employeeId orgId) db other := by
  refine .query ?_
  rw [twins.managerIds, twins.usersOf fun id => twins.managers_members]

/-! ## The queue -/

theorem buildTeamFilter_alike (twins : Twins orgId db other) (userId : Nat)
    (role : UserRole) : Alike (buildTeamFilter userId role orgId) db other := by
  unfold buildTeamFilter
  split
  · exact .done _
  · exact .bind (.query (twins.directReportIds _).symm) fun _ _ => .done _

theorem pendingRows (twins : Twins orgId db other)
    (teamFilter : Option (List Nat)) :
    other.pendingRows orgId teamFilter = db.pendingRows orgId teamFilter :=
  twins.sheets fun _ meets => meets.1

/-- The owner and the entries of a pending timesheet. -/
theorem pendingListing (twins : Twins orgId db other) {t : Timesheet}
    (row : t ∈ db.timesheets.rows) (org : t.organisationId = orgId) :
    other.pendingListing t = db.pendingListing t := by
  have sheet : db.OrgSheet t.id orgId := ⟨t, row, rfl, org⟩
  have owner : db.Member t.userId orgId := org ▸ twins.left.owned t row
  have entries : other.entriesOf t.id = db.entriesOf t.id :=
    twins.entries sheet fun _ own => own
  have projects : (db.entriesOf t.id).map (fun e => (⟨e,
        other.projects.find? fun p => p.id = e.projectId⟩ : EntryWithProject)) =
      (db.entriesOf t.id).map fun e =>
        ⟨e, db.projects.find? fun p => p.id = e.projectId⟩ := by
    refine List.map_congr_left fun e listed => ?_
    rcases Table.mem_select.mp listed with ⟨eRow, own⟩
    rw [twins.entryProject eRow (own ▸ sheet)]
  rw [Db.pendingListing, Db.pendingListing, entries, projects, Db.reportUser,
    Db.reportUser, twins.user owner]

theorem pendingApprovals_alike (twins : Twins orgId db other)
    (userId : Nat) (role : UserRole) (page limit : Int) :
    Alike (pendingApprovals orgId userId role page limit) db other := by
  refine .bind (twins.buildTeamFilter_alike userId role) fun filter _ => ?_
  refine findManyAndCount_alike (twins.pendingRows filter) fun t listed => ?_
  rcases Table.mem_select.mp listed with ⟨row, org, _⟩
  exact twins.pendingListing row org

theorem getApprovalStats_alike (twins : Twins orgId db other) (host : Host)
    (userId : Nat) (role : UserRole) :
    Alike (getApprovalStats host orgId userId role) db other := by
  refine .bind (twins.buildTeamFilter_alike userId role) fun filter _ =>
    .query ?_
  have users : other.users.select (fun u =>
        u.organisationId = orgId ∧ u.status = .active) =
      db.users.select fun u => u.organisationId = orgId ∧ u.status = .active :=
    Table.select_of_select twins.same.users (fun u _ own => own.1)
      fun u _ own => own.1
  have team := congrArg List.length (twins.directReportIds userId)
  simp only [Db.directReportIds, List.length_map] at team
  rw [twins.pendingRows, twins.sheets fun _ meets => meets.1,
    twins.sheets fun _ meets => meets.1, users, team]

/-! ## Reports -/

/-- A timesheet of the organisation is reported with its entries. -/
theorem reportTimesheet (twins : Twins orgId db other)
    (projectId : Option Int) {t : Timesheet} (row : t ∈ db.timesheets.rows)
    (org : t.organisationId = orgId) :
    other.reportTimesheet projectId t = db.reportTimesheet projectId t := by
  have sheet : db.OrgSheet t.id orgId := ⟨t, row, rfl, org⟩
  have owner : db.Member t.userId orgId := org ▸ twins.left.owned t row
  have entries : other.timeEntries.select (fun e =>
        e.timesheetId = t.id ∧ ∀ id ∈ projectId, (e.projectId : Int) = id) =
      db.timeEntries.select fun e =>
        e.timesheetId = t.id ∧ ∀ id ∈ projectId, (e.projectId : Int) = id :=
    twins.entries sheet fun _ meets => meets.1
  have projects : (db.timeEntries.select fun e =>
        e.timesheetId = t.id ∧ ∀ id ∈ projectId, (e.projectId : Int) = id).map
          (fun e => (⟨e, other.reportProject e.projectId⟩ : ReportEntry)) =
      (db.timeEntries.select fun e =>
        e.timesheetId = t.id ∧ ∀ id ∈ projectId, (e.projectId : Int) = id).map
          fun e => ⟨e, db.reportProject e.projectId⟩ := by
    refine List.map_congr_left fun e selected => ?_
    rcases Table.mem_select.mp selected with ⟨listed, own, _⟩
    rw [Db.reportProject, Db.reportProject,
      twins.entryProject listed (own ▸ sheet)]
  rw [Db.reportTimesheet, Db.reportTimesheet, entries, projects,
    Db.reportUser, Db.reportUser, twins.user owner]

/-- The timesheets a query of the organisation reports. -/
theorem reported (twins : Twins orgId db other) (projectId : Option Int)
    {rows : List Timesheet} (ours : ∀ t ∈ rows, t ∈ db.timesheets.rows ∧
      t.organisationId = orgId) :
    rows.map (other.reportTimesheet projectId) =
      rows.map (db.reportTimesheet projectId) :=
  List.map_congr_left fun t listed =>
    twins.reportTimesheet projectId (ours t listed).1 (ours t listed).2

theorem userScope_alike (twins : Twins orgId db other)
    (filters : ReportFilters) (userId : Nat) (role : UserRole) :
    Alike (userScope orgId filters userId role) db other := by
  cases role with
  | employee => exact .bind (.throwIf _ _) fun _ _ => .done _
  | manager =>
      refine .bind (.query (twins.directReportIds _).symm) fun _ _ => ?_
      exact .bind (.throwIf _ _) fun _ _ => .done _
  | admin => exact .done _

theorem generateReport_alike (twins : Twins orgId db other)
    (filters : ReportFilters) (userId : Nat) (role : UserRole) :
    Alike (generateReport orgId filters userId role) db other := by
  refine .bind (twins.userScope_alike filters userId role) fun scope _ =>
    .bind (.orThrow _ _) fun dates _ => .bind (.query ?_) fun _ _ => .done _
  have rows : other.reportRows orgId dates.1 dates.2 (filters.owner scope)
        filters.status =
      db.reportRows orgId dates.1 dates.2 (filters.owner scope)
        filters.status := by
    rw [Db.reportRows, Db.reportRows, twins.sheets fun _ meets => meets.1]
  rw [rows, twins.reported]
  intro t listed
  rcases Table.mem_select.mp ((List.mem_insertionSort _).mp listed) with
    ⟨row, org, _⟩
  exact ⟨row, org⟩

theorem assertCanExport_alike (twins : Twins orgId db other)
    (targetUserId : Int) (userId : Nat) (role : UserRole) :
    Alike (assertCanExport orgId targetUserId userId role) db other := by
  cases role with
  | employee => exact .throwIf _ _
  | manager =>
      refine .whenever fun _ => .bind (.query ?_) fun _ _ => .throwIf _ _
      exact (twins.directReportIds _).symm
  | admin => exact .done _

/-- The user a monthly timesheet is asked for. -/
theorem target (twins : Twins orgId db other) (targetUserId : Int) :
    other.users.find? (fun u =>
        (u.id : Int) = targetUserId ∧ u.organisationId = orgId) =
      db.users.find? fun u =>
        (u.id : Int) = targetUserId ∧ u.organisationId = orgId :=
  Table.find?_of_select <| Table.select_of_select twins.same.users
    (fun _ _ meets => meets.2) fun _ _ meets => meets.2

theorem generateMonthlyTimesheetData_alike (twins : Twins orgId db other)
    (host : Host) (targetUserId year month : Int) (userId : Nat)
    (role : UserRole) :
    Alike (generateMonthlyTimesheetData host orgId targetUserId year month
      userId role) db other := by
  refine .bind (twins.assertCanExport_alike targetUserId userId role)
    fun _ _ => .bind (.query (twins.target _).symm) fun _ _ =>
      .bind (.orThrow _ _) fun user _ => .bind (.query ?_) fun _ _ =>
        .bind (.query twins.same.holidays.symm) fun _ _ => .done _
  rw [Db.monthTimesheets, Db.monthTimesheets,
    twins.sheets fun _ meets => meets.2.1, twins.reported]
  intro t listed
  rcases Table.mem_select.mp listed with ⟨row, _, org, _⟩
  exact ⟨row, org⟩

/-! ## The office -/

theorem listHolidays_alike (twins : Twins orgId db other)
    (engineDate : String → JsDate) (year : Option Int) :
    Alike (listHolidays engineDate orgId year) db other := by
  have holidays (p : Holiday → Prop) [DecidablePred p] :
      db.orgHolidays orgId p = other.orgHolidays orgId p := by
    rw [Db.orgHolidays, Db.orgHolidays,
      Table.select_of_select twins.same.holidays (fun h _ meets => meets.1)
        fun h _ meets => meets.1]
  unfold listHolidays
  split
  · exact .query (holidays _)
  · exact .bind (.orThrow _ _) fun _ _ => .bind (.orThrow _ _) fun _ _ =>
      .query (holidays _)

theorem getSettings_alike (twins : Twins orgId db other) :
    Alike (getSettings orgId) db other :=
  .bind (.query (Table.find?_of_select twins.same.settings).symm)
    fun _ _ => .orThrow _ _

theorem listNotifications_alike (twins : Twins orgId db other) {userId : Nat}
    (member : db.Member userId orgId) :
    Alike (listNotifications userId) db other := by
  refine .query ?_
  rw [Table.select_of_select twins.same.notifications] <;>
    exact fun n _ own => own ▸ member

/-! ## Every reading route -/

variable {caller : JwtPayload}

/-- The answer of a service in an envelope. -/
theorem respond {α : Type} {program : Service α} {envelope : α → Reading}
    (alike : Alike program db other) :
    Alike (program >>= fun a => pure (envelope a)) db other :=
  .bind alike fun _ _ => .done _

theorem requestReport_alike (twins : Twins caller.orgId db other)
    (parseDate : String → JsDate) (query : ReportQuery) (missing : String) :
    Alike (requestReport parseDate caller query missing) db other :=
  .bind (.orThrow _ _) fun _ _ => .bind (.orThrow _ _) fun _ _ =>
    twins.generateReport_alike _ _ _

theorem exportReport_alike (twins : Twins caller.orgId db other)
    (parseDate : String → JsDate) (numberToString : ℚ → String)
    (format : Option String) (query : ReportQuery) :
    Alike (exportReport parseDate numberToString caller format query) db
      other := by
  refine .bind (twins.requestReport_alike parseDate query _) fun data _ => ?_
  split_ifs <;> exact .done _

theorem exportMonthlyTimesheet_alike (twins : Twins caller.orgId db other)
    (host : Host) (userId year month : Option String) :
    Alike (exportMonthlyTimesheet host caller userId year month) db
      other := by
  refine .bind (.orThrow _ _) fun _ _ => .bind (.orThrow _ _) fun _ _ => ?_
  split
  · exact respond (twins.generateMonthlyTimesheetData_alike _ _ _ _ _ _)
  · refine .bind (twins.assertCanExport_alike _ _ _) fun _ _ =>
      .bind (.whenever fun _ => ?_) fun _ _ => .done _
    exact .bind (.query (twins.target _).symm) fun _ _ =>
      .bind (.orThrow _ _) fun _ _ => .done _

theorem handleQuery_alike (twins : Twins caller.orgId db other)
    (member : db.Member caller.userId caller.orgId)
    (parseDate : String → JsDate) (numberToString : ℚ → String)
    (host : Host) (query : Query) :
    Alike (handleQuery parseDate numberToString host caller query) db
      other := by
  have allowed {α : Type} {roles : List UserRole} {program : Service α}
      (alike : Alike program db other) :
      Alike (requireRole roles caller.role >>= fun _ => program) db other :=
    .bind (.throwIf _ _) fun _ _ => alike
  cases query with
  | listTimesheets query => exact respond (twins.listTimesheets_alike _ _ _)
  | getTimesheet id => exact respond (twins.getTimesheetById_alike _ _)
  | listEntries timesheetId => exact respond (twins.listEntries_alike _ _)
  | listPendingApprovals query =>
      exact allowed (respond (twins.pendingApprovals_alike _ _ _ _))
  | approvalStats =>
      exact allowed (respond (twins.getApprovalStats_alike _ _ _))
  | generateReport query =>
      exact allowed (respond (twins.requestReport_alike _ _ _))
  | exportReport format query => exact twins.exportReport_alike _ _ _ _
  | exportMonthlyTimesheet userId year month =>
      exact twins.exportMonthlyTimesheet_alike _ _ _ _
  | listProjects query => exact respond (twins.listProjects_alike _ _ _ _)
  | listUsers query =>
      exact respond (allowed (twins.listUsers_alike _ _ _ _))
  | listHolidays year => exact respond (twins.listHolidays_alike _ _)
  | getSettings => exact allowed (respond twins.getSettings_alike)
  | listNotifications => exact respond (twins.listNotifications_alike member)
  | myManagers => exact respond (twins.getManagersOfUser_alike _)
  | myReports => exact allowed (respond (twins.getTeamMembers_alike _))
  | getUserManagers id =>
      exact allowed (respond (twins.getManagersOfUser_alike _))

end Twins

end TmsApi
