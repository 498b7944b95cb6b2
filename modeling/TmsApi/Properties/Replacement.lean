import TmsApi.Properties.Assignments

/-!
# The links of an employee are replaced as a whole

`assignManagers` and `assignProjectsToEmployee` check a list of keys, delete
the links of the employee and insert one for each key of the list.  The check
asks whether a key is in a set of valid ones, so it does not see a key that is
listed twice; the insert does, because the link tables have a unique index.
-/

namespace TmsApi

open TmsApi.Core
open TmsApi.Core.Program

/--
The links of one employee are exactly those to the given keys, and the links
of all others are those before.
-/
structure Relinked {Row : Type} (employee target : Row → Nat)
    (employeeId : Nat) (ids : List Nat) (before after : List Row) :
    Prop where
  exactly : ∀ id,
    (∃ r ∈ after, employee r = employeeId ∧ target r = id) ↔ id ∈ ids
  others : ∀ r, employee r ≠ employeeId → (r ∈ after ↔ r ∈ before)

/-- Deleting the links of an employee and inserting new ones relinks. -/
theorem relinked_insertMany {Row : Type} [Keyed Row] {Link : Type}
    {make : Link → Nat → Row} [∀ link, Table.Stamps (make link)]
    {employee target : Row → Nat} {employeeId : Nat} {link : Nat → Link}
    (links : ∀ id k, employee (make (link id) k) = employeeId ∧
      target (make (link id) k) = id)
    (table : Table Row) (ids : List Nat) :
    Relinked employee target employeeId ids table.rows
      (Table.insertMany make
        (table.deleteWhere fun r => employee r = employeeId)
        (ids.map link)).rows where
  exactly id := by
    constructor
    · rintro ⟨r, member, key, rfl⟩
      rcases Table.mem_insertMany_map member with old | ⟨new, given, k, rfl⟩
      · exact ((Table.mem_deleteWhere.mp old).2 key).elim
      · rw [(links new k).2]
        exact given
    · intro given
      obtain ⟨k, new⟩ := Table.exists_mem_insertMany_map make
        (table.deleteWhere fun r => employee r = employeeId) link given
      exact ⟨make (link id) k, new, links id k⟩
  others _ apart :=
    Table.mem_replace_other (fun id _ k => (links id k).1) apart

/--
A replacement goes through exactly with valid keys, and otherwise it ends in a
validation error and changes nothing.
-/
structure ReplacesAll (valid : Prop) (relinked : Db → Prop)
    (replacement : Service PUnit) (db : Db) : Prop where
  succeeds : valid →
    wp replacement (fun result after => result = .ok ⟨⟩ ∧ relinked after) db
  refuses : ¬ valid →
    wp replacement
      (fun result after =>
        (∃ text, result = .error (.validationError text)) ∧ after = db) db

/-- A replacement that refuses invalid keys and writes the valid ones. -/
theorem replacesAll_iff {valid written : Prop} {relinked : Db → Prop}
    {replacement : Service PUnit} {db : Db}
    (refuses : ¬ valid → wp replacement
      (fun result after =>
        (∃ text, result = .error (.validationError text)) ∧ after = db) db)
    (succeeds : valid →
      (wp replacement (fun result after => result = .ok ⟨⟩ ∧ relinked after)
        db ↔ written)) :
    ReplacesAll valid relinked replacement db ↔ written ∨ ¬ valid := by
  constructor
  · intro replaces
    by_cases holds : valid
    · exact .inl ((succeeds holds).mp (replaces.succeeds holds))
    · exact .inr holds
  · intro either
    refine ⟨fun holds => (succeeds holds).mpr ?_, refuses⟩
    exact either.resolve_right (not_not_intro holds)

section

variable {db : Db} {employeeId orgId : Nat}

/-! ## Managers -/

/-- What `assignManagers` promises. -/
def ReplacesManagers (db : Db) (orgId employeeId : Nat)
    (managerIds : List Nat) : Prop :=
  ReplacesAll (db.AcceptsManagers orgId employeeId managerIds)
    (fun after =>
      Relinked ManagerEmployee.employeeId ManagerEmployee.managerId employeeId
        managerIds db.managerEmployees.rows after.managerEmployees.rows)
    (assignManagers employeeId managerIds orgId) db

theorem Db.withManagers_relinked (db : Db) (employeeId : Nat)
    (managerIds : List Nat) :
    Relinked ManagerEmployee.employeeId ManagerEmployee.managerId employeeId
      managerIds db.managerEmployees.rows
      (db.withManagers employeeId managerIds).managerEmployees.rows :=
  relinked_insertMany (fun _ _ => ⟨rfl, rfl⟩) _ _

theorem replacesManagers_iff (employee : db.users.HasKey employeeId)
    (managerIds : List Nat) :
    ReplacesManagers db orgId employeeId managerIds ↔
      managerIds.Nodup ∨
        ¬ db.AcceptsManagers orgId employeeId managerIds := by
  refine replacesAll_iff (fun fails => ?_) fun accepted => ?_
  · apply wp_assignManagers_of (fun _ text => ⟨⟨text, rfl⟩, rfl⟩)
    intro accepted
    exact (fails accepted).elim
  · refine wp_iff.mp (wp_assignManagers ?_ ?_)
    · intro irreplaceable e
      refine iff_of_false (fun done => ?_) fun distinct => ?_
      · cases done.1
      · exact irreplaceable
          ⟨accepted.notSelf, accepted.valid, distinct, fun _ => employee⟩
    · intro may
      exact iff_of_true ⟨rfl, db.withManagers_relinked _ _⟩ may.distinct

/-! ## Projects -/

/-- What `assignProjectsToEmployee` promises. -/
def ReplacesProjects (db : Db) (orgId employeeId : Nat)
    (projectIds : List Nat) : Prop :=
  ReplacesAll (∀ id ∈ projectIds, db.validProject orgId id)
    (fun after =>
      Relinked ProjectEmployee.employeeId ProjectEmployee.projectId employeeId
        projectIds db.projectEmployees.rows after.projectEmployees.rows)
    (assignProjectsToEmployee employeeId projectIds orgId) db

theorem Db.withProjects_relinked (db : Db) (employeeId : Nat)
    (projectIds : List Nat) :
    Relinked ProjectEmployee.employeeId ProjectEmployee.projectId employeeId
      projectIds db.projectEmployees.rows
      (db.withProjects employeeId projectIds).projectEmployees.rows :=
  relinked_insertMany (fun _ _ => ⟨rfl, rfl⟩) _ _

theorem replacesProjects_iff (employee : db.users.HasKey employeeId)
    (projectIds : List Nat) :
    ReplacesProjects db orgId employeeId projectIds ↔
      projectIds.Nodup ∨ ¬ ∀ id ∈ projectIds, db.validProject orgId id := by
  refine replacesAll_iff (fun fails => ?_) fun valid => ?_
  · refine wp_assignProjectsToEmployee_of
      (fun _ text => ⟨⟨text, rfl⟩, rfl⟩) ?_
    intro valid
    exact (fails valid).elim
  · refine wp_iff.mp (wp_assignProjectsToEmployee ?_ ?_)
    · intro unassignable e
      refine iff_of_false (fun done => ?_) fun distinct => ?_
      · cases done.1
      · exact unassignable ⟨valid, distinct, fun _ => employee⟩
    · intro may
      exact iff_of_true ⟨rfl, db.withProjects_relinked _ _⟩ may.distinct

end

/--
The managers and the projects of an employee are replaced as a whole, or
refused with a validation error, exactly when no key is listed twice or some
listed key is not valid anyway.
-/
theorem replacement_iff (db : Db) (orgId employeeId : Nat)
    (employee : db.users.HasKey employeeId) (ids : List Nat) :
    (ReplacesManagers db orgId employeeId ids ↔
      ids.Nodup ∨ ¬ db.AcceptsManagers orgId employeeId ids) ∧
    (ReplacesProjects db orgId employeeId ids ↔
      ids.Nodup ∨ ¬ ∀ id ∈ ids, db.validProject orgId id) :=
  ⟨replacesManagers_iff employee ids, replacesProjects_iff employee ids⟩

/-- Bob of `assignedDb` gets Eve as his manager and keeps the one project. -/
theorem replacement_iff_bob :
    ReplacesManagers assignedDb 1 3 [2] ∧
      ReplacesProjects assignedDb 1 3 [1] := by
  have employee : assignedDb.users.HasKey 3 := by
    decide +kernel
  constructor
  · exact (replacement_iff assignedDb 1 3 employee [2]).1.mpr
      (.inl (by decide))
  · exact (replacement_iff assignedDb 1 3 employee [1]).2.mpr
      (.inl (by decide))

/--
A valid manager and a valid project, each listed twice: the unique index
refuses the insert, and the answer is the error of the driver.
-/
theorem listed_twice :
    (((assignManagers 3 [2, 2] 1).exec assignedDb).1 =
        .error (.driver .uniqueConstraint) ∧
      ¬ ReplacesManagers assignedDb 1 3 [2, 2]) ∧
    ((assignProjectsToEmployee 3 [1, 1] 1).exec assignedDb).1 =
        .error (.driver .uniqueConstraint) ∧
      ¬ ReplacesProjects assignedDb 1 3 [1, 1] := by
  have bob : assignedDb.users.HasKey 3 ∧ assignedDb.validManager 1 2 ∧
      assignedDb.validProject 1 1 ∧
      ((assignManagers 3 [2, 2] 1).exec assignedDb).1 =
        .error (.driver .uniqueConstraint) ∧
      ((assignProjectsToEmployee 3 [1, 1] 1).exec assignedDb).1 =
        .error (.driver .uniqueConstraint) := by
    decide +kernel
  rcases bob with ⟨employee, manager, project, managers, projects⟩
  refine ⟨⟨managers, fun replaces => ?_⟩, projects, fun replaces => ?_⟩
  · rcases (replacesManagers_iff employee _).mp replaces with distinct | fails
    · simp at distinct
    · exact fails ⟨by simp, by simpa using manager⟩
  · rcases (replacesProjects_iff employee _).mp replaces with distinct | fails
    · simp at distinct
    · exact fails (by simpa using project)

end TmsApi
