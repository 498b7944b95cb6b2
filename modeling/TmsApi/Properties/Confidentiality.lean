import TmsApi.Core.TwoRuns
import TmsApi.Services.Reports
import TmsApi.Refinement.Runs

/-!
# Confidentiality of reports

Reports are run from two databases that agree on what the caller may see: the
users, the hierarchy, the projects and the holidays, and the timesheets and
entries of the users in the caller's scope within its organisation.  They
answer the same.  The report of an administrator filters by the organisation
of a timesheet alone, so there it matters that the timesheets of an
organisation belong to its users, as they do in every reachable state.
-/

namespace TmsApi

open TmsApi.Core
open TmsApi.Core.Program

/-! ## What a caller may see -/

namespace Db

/-- The users whose timesheets a caller may see. -/
def InScope (db : Db) (caller : JwtPayload) (userId : Nat) : Prop :=
  match caller.role with
  | .employee => userId = caller.userId
  | .manager =>
      userId = caller.userId ∨
        userId ∈ db.directReportIds caller.userId caller.orgId
  | .admin => db.Member userId caller.orgId

instance (db : Db) (caller : JwtPayload) (userId : Nat) :
    Decidable (db.InScope caller userId) :=
  match role : caller.role with
  | .employee =>
      decidable_of_iff (userId = caller.userId) (by rw [InScope, role])
  | .manager =>
      decidable_of_iff
        (userId = caller.userId ∨
          userId ∈ db.directReportIds caller.userId caller.orgId)
        (by rw [InScope, role])
  | .admin =>
      decidable_of_iff (db.Member userId caller.orgId) (by rw [InScope, role])

/-- A timesheet of a user in scope within the organisation. -/
def Visible (db : Db) (caller : JwtPayload) (t : Timesheet) : Prop :=
  t.organisationId = caller.orgId ∧ db.InScope caller t.userId

instance (db : Db) (caller : JwtPayload) :
    DecidablePred (db.Visible caller) :=
  fun t => inferInstanceAs
    (Decidable (t.organisationId = caller.orgId ∧ db.InScope caller t.userId))

/-- An entry of such a timesheet. -/
def VisibleEntry (db : Db) (caller : JwtPayload) (e : TimeEntry) : Prop :=
  ∃ t ∈ db.timesheets.rows, t.id = e.timesheetId ∧ db.Visible caller t

instance (db : Db) (caller : JwtPayload) :
    DecidablePred (db.VisibleEntry caller) :=
  fun e => inferInstanceAs
    (Decidable (∃ t ∈ db.timesheets.rows,
      t.id = e.timesheetId ∧ db.Visible caller t))

/-- The timesheets of an organisation belong to its users. -/
def Filed (db : Db) (orgId : Nat) : Prop :=
  ∀ t ∈ db.timesheets.rows, t.organisationId = orgId →
    db.Member t.userId orgId

end Db

/-- Two databases with the same rows in the caller's sight. -/
structure SameInScope (caller : JwtPayload) (db other : Db) : Prop where
  users : other.users.rows = db.users.rows
  managerEmployees : other.managerEmployees.rows = db.managerEmployees.rows
  projects : other.projects.rows = db.projects.rows
  holidays : other.holidays.rows = db.holidays.rows
  timesheets : other.timesheets.select (db.Visible caller) =
    db.timesheets.select (db.Visible caller)
  timeEntries : other.timeEntries.select (db.VisibleEntry caller) =
    db.timeEntries.select (db.VisibleEntry caller)

instance (caller : JwtPayload) (db other : Db) :
    Decidable (SameInScope caller db other) :=
  decidable_of_iff
    (other.users.rows = db.users.rows ∧
      other.managerEmployees.rows = db.managerEmployees.rows ∧
      other.projects.rows = db.projects.rows ∧
      other.holidays.rows = db.holidays.rows ∧
      other.timesheets.select (db.Visible caller) =
        db.timesheets.select (db.Visible caller) ∧
      other.timeEntries.select (db.VisibleEntry caller) =
        db.timeEntries.select (db.VisibleEntry caller))
    ⟨fun ⟨users, links, projects, holidays, timesheets, entries⟩ =>
      ⟨users, links, projects, holidays, timesheets, entries⟩,
    fun same => ⟨same.users, same.managerEmployees, same.projects,
      same.holidays, same.timesheets, same.timeEntries⟩⟩

namespace SameInScope

variable {caller : JwtPayload} {db other : Db}

theorem refl (caller : JwtPayload) (db : Db) : SameInScope caller db db :=
  ⟨rfl, rfl, rfl, rfl, rfl, rfl⟩

theorem member (same : SameInScope caller db other) (userId orgId : Nat) :
    other.Member userId orgId ↔ db.Member userId orgId := by
  rw [Db.Member, Db.Member, same.users]

theorem directReportIds (same : SameInScope caller db other)
    (managerId orgId : Nat) :
    other.directReportIds managerId orgId =
      db.directReportIds managerId orgId := by
  simp only [Db.directReportIds, Table.select, same.managerEmployees,
    same.member]

theorem inScope (same : SameInScope caller db other) (userId : Nat) :
    other.InScope caller userId ↔ db.InScope caller userId := by
  simp only [Db.InScope, same.directReportIds, same.member]

theorem reportProject (same : SameInScope caller db other) (id : Nat) :
    other.reportProject id = db.reportProject id := by
  rw [Db.reportProject, Db.reportProject, Table.find?_of_rows same.projects]

theorem reportUser (same : SameInScope caller db other) (id : Nat) :
    other.reportUser id = db.reportUser id := by
  rw [Db.reportUser, Db.reportUser, Table.find?_of_rows same.users]

/-- A timesheet in sight is reported with the same entries. -/
theorem reportTimesheet (same : SameInScope caller db other)
    (projectId : Option Int) {t : Timesheet} (member : t ∈ db.timesheets.rows)
    (visible : db.Visible caller t) :
    other.reportTimesheet projectId t = db.reportTimesheet projectId t := by
  have entries : other.timeEntries.select (fun e =>
        e.timesheetId = t.id ∧ ∀ id ∈ projectId, (e.projectId : Int) = id) =
      db.timeEntries.select (fun e =>
        e.timesheetId = t.id ∧ ∀ id ∈ projectId, (e.projectId : Int) = id) := by
    refine Table.select_of_select same.timeEntries ?_ ?_
    · exact fun e _ own => ⟨t, member, own.1.symm, visible⟩
    · exact fun e _ own => ⟨t, member, own.1.symm, visible⟩
  simp only [Db.reportTimesheet, same.reportUser, same.reportProject, entries]

/-- A query within sight returns the same timesheets with their entries. -/
theorem rows (same : SameInScope caller db other) {p : Timesheet → Prop}
    [DecidablePred p]
    (within : ∀ t ∈ db.timesheets.rows, p t → db.Visible caller t)
    (otherWithin : ∀ t ∈ other.timesheets.rows, p t → db.Visible caller t) :
    other.timesheets.select p = db.timesheets.select p :=
  Table.select_of_select same.timesheets within otherWithin

end SameInScope

/-! ## Reports -/

/-- The scope of the caller's role. -/
def Db.reportScope (db : Db) (caller : JwtPayload) : UserFilter :=
  match caller.role with
  | .employee => .only caller.userId
  | .manager =>
      .within (db.directReportIds caller.userId caller.orgId ++
        [caller.userId])
  | .admin => .all

/-- The user the report asks for, if any, is one the role may ask for. -/
def ReportFilters.Permitted (filters : ReportFilters) (caller : JwtPayload)
    (db : Db) : Prop :=
  match caller.role with
  | .employee => ∀ userId ∈ truthy filters.userId, userId = caller.userId
  | .manager => ∀ userId ∈ truthy filters.userId,
      ∃ id ∈ db.directReportIds caller.userId caller.orgId ++ [caller.userId],
        (id : Int) = userId
  | .admin => True

theorem Db.mem_reportRows {db : Db} {orgId : Nat} {gte lte : Instant}
    {owner : UserFilter} {status : Option TimesheetStatus} {t : Timesheet} :
    t ∈ db.reportRows orgId gte lte owner status ↔
      t ∈ db.timesheets.rows ∧ t.organisationId = orgId ∧
        (gte ≤ t.weekStartDate ∧ t.weekStartDate ≤ lte) ∧
          owner.Admits t.userId ∧ ∀ s ∈ status, t.status = s := by
  rw [Db.reportRows, List.mem_insertionSort, Table.mem_select]

section

variable {caller : JwtPayload} {db other : Db} {filters : ReportFilters}

theorem userScope_alike (same : SameInScope caller db other)
    (filters : ReportFilters) (role : UserRole) :
    Alike (userScope caller.orgId filters caller.userId role) db other := by
  cases role with
  | employee => exact .bind (.throwIf _ _) fun _ _ => .done _
  | manager =>
      refine .bind (.query ?_) fun directReportIds _ =>
        .bind (.throwIf _ _) fun _ _ => .done _
      exact (same.directReportIds _ _).symm
  | admin => exact .done _

/-- The check of the caller grants exactly the scope of its role. -/
theorem wp_userScope :
    wp (userScope caller.orgId filters caller.userId caller.role)
      (fun answer after => after = db ∧ ∀ scope, answer = .ok scope ↔
        filters.Permitted caller db ∧ db.reportScope caller = scope) db := by
  unfold ReportFilters.Permitted Db.reportScope
  cases caller.role with
  | employee =>
      simp only [userScope, wp_bind, wp_throwIf, andThen_ok, andThen_error,
        pure_eq, wp_done, true_and, reduceCtorEq, Except.ok.injEq]
      constructor
      · rintro ⟨userId, asked, other⟩ scope
        refine iff_of_false (fun absurd => by cases absurd) ?_
        intro permitted
        exact other (permitted.1 userId asked)
      · intro own scope
        push Not at own
        exact (and_iff_right own).symm
  | manager =>
      simp only [userScope, getDirectReportIds, wp_bind, wp_query, wp_throwIf,
        andThen_ok, andThen_error, pure_eq, wp_done, true_and, reduceCtorEq,
        Except.ok.injEq]
      constructor
      · rintro ⟨userId, asked, outside⟩ scope
        refine iff_of_false (fun absurd => by cases absurd) ?_
        intro permitted
        obtain ⟨id, inside, same⟩ := permitted.1 userId asked
        exact outside id inside same
      · intro allowed scope
        push Not at allowed
        exact (and_iff_right allowed).symm
  | admin =>
      simp only [userScope, pure_eq, wp_done, true_and, Except.ok.injEq,
        implies_true]

/-- Below administrators the owners a report may select are in scope. -/
theorem inScope_of_admits (below : caller.role ≠ .admin)
    (permitted : filters.Permitted caller db) {id : Nat}
    (admits : (filters.owner (db.reportScope caller)).Admits id) :
    db.InScope caller id := by
  unfold ReportFilters.owner at admits
  unfold ReportFilters.Permitted at permitted
  unfold Db.reportScope at admits
  unfold Db.InScope
  cases role : caller.role with
  | employee =>
      rw [role] at admits permitted
      cases asked : truthy filters.userId with
      | none =>
          rw [asked] at admits
          exact Int.ofNat_inj.mp admits
      | some userId =>
          rw [asked] at admits
          exact Int.ofNat_inj.mp (admits.trans (permitted userId asked))
  | manager =>
      rw [role] at admits permitted
      have inTeam (member : id ∈ db.directReportIds caller.userId
          caller.orgId ++ [caller.userId]) : id = caller.userId ∨
            id ∈ db.directReportIds caller.userId caller.orgId := by
        rcases List.mem_append.mp member with report | self
        · exact .inr report
        · exact .inl (List.mem_singleton.mp self)
      cases asked : truthy filters.userId with
      | none =>
          rw [asked] at admits
          exact inTeam admits
      | some userId =>
          rw [asked] at admits
          obtain ⟨other, inside, same⟩ := permitted userId asked
          cases Int.ofNat_inj.mp (same.trans admits.symm)
          exact inTeam inside
  | admin => exact (below role).elim

/-- A report that asks for no user may select every owner in scope. -/
theorem admits_of_inScope (anyUser : truthy filters.userId = none) {id : Nat}
    (inScope : db.InScope caller id) :
    (filters.owner (db.reportScope caller)).Admits id := by
  unfold Db.InScope at inScope
  rw [ReportFilters.owner, anyUser]
  unfold Db.reportScope
  cases role : caller.role with
  | employee =>
      rw [role] at inScope
      exact congrArg Int.ofNat inScope
  | manager =>
      rw [role] at inScope
      rcases inScope with rfl | report
      · exact List.mem_append_right _ (List.mem_singleton.mpr rfl)
      · exact List.mem_append_left _ report
  | admin => trivial

theorem permitted_of_anyUser (anyUser : truthy filters.userId = none) :
    filters.Permitted caller db := by
  unfold ReportFilters.Permitted
  rw [anyUser]
  split
  · intro userId asked
    cases asked
  · intro userId asked
    cases asked
  · trivial

/-- Below administrators the owners a report selects are in scope. -/
theorem userScope_within (below : caller.role ≠ .admin) :
    wp (userScope caller.orgId filters caller.userId caller.role)
      (fun answer _ => ∀ scope, answer = .ok scope →
        ∀ id, (filters.owner scope).Admits id → db.InScope caller id) db := by
  refine wp_mono ?_ wp_userScope
  rintro answer _ ⟨-, grants⟩ scope granted id admits
  obtain ⟨permitted, rfl⟩ := (grants scope).mp granted
  exact inScope_of_admits below permitted admits

theorem generateReport_alike (same : SameInScope caller db other)
    (filed : caller.role = .admin →
      db.Filed caller.orgId ∧ other.Filed caller.orgId)
    (filters : ReportFilters) :
    Alike (generateReport caller.orgId filters caller.userId caller.role) db
      other := by
  refine .bind (userScope_alike same filters caller.role)
    fun scope answered => ?_
  refine .bind (.orThrow _ _) fun dates _ => ?_
  -- an administrator sees the organisation, the others their scope
  have sees (state : Db) (agrees : SameInScope caller db state)
      (orderly : caller.role = .admin → state.Filed caller.orgId)
      (t : Timesheet) (member : t ∈ state.timesheets.rows)
      (org : t.organisationId = caller.orgId)
      (admits : (filters.owner scope).Admits t.userId) :
      db.Visible caller t := by
    refine ⟨org, ?_⟩
    by_cases role : caller.role = .admin
    · have owner := orderly role t member org
      rw [agrees.member] at owner
      rw [Db.InScope, role]
      exact owner
    · exact userScope_within role scope answered _ admits
  have rows : other.reportRows caller.orgId dates.1 dates.2
        (filters.owner scope) filters.status =
      db.reportRows caller.orgId dates.1 dates.2 (filters.owner scope)
        filters.status := by
    rw [Db.reportRows, Db.reportRows, same.rows]
    · exact fun t member meets => sees db (.refl caller db)
        (fun role => (filed role).1) t member meets.1 meets.2.2.1
    · exact fun t member meets => sees other same
        (fun role => (filed role).2) t member meets.1 meets.2.2.1
  refine .bind (.query ?_) fun timesheets _ => .done _
  rw [rows]
  refine List.map_congr_left fun t listed => ?_
  rcases Db.mem_reportRows.mp listed with ⟨member, org, _, admits, _⟩
  exact (same.reportTimesheet _ member
    (sees db (.refl caller db) (fun role => (filed role).1) t member org
      admits)).symm

/-- A report that asks for no user selects all owners in scope. -/
theorem userScope_all (anyUser : truthy filters.userId = none) :
    wp (userScope caller.orgId filters caller.userId caller.role)
      (fun answer after => after = db ∧ ∃ scope, answer = .ok scope ∧
        ∀ id, db.InScope caller id → (filters.owner scope).Admits id) db := by
  refine wp_mono ?_ wp_userScope
  rintro answer after ⟨unchanged, grants⟩
  have granted : answer = .ok (db.reportScope caller) :=
    (grants _).mpr ⟨permitted_of_anyUser anyUser, rfl⟩
  exact ⟨unchanged, _, granted, fun id inScope =>
    admits_of_inScope anyUser inScope⟩

theorem generateReport_complete {gte lte : Instant}
    (anyUser : truthy filters.userId = none) (anyStatus : filters.status = none)
    (anyProject : truthy filters.projectId = none)
    (dateFrom : filters.dateFrom = some gte)
    (dateTo : filters.dateTo = some lte) :
    wp (generateReport caller.orgId filters caller.userId caller.role)
      (fun answer _ => ∃ report, answer = .ok report ∧
        ∀ t ∈ db.timesheets.rows, db.Visible caller t →
          gte ≤ t.weekStartDate → t.weekStartDate ≤ lte →
            db.reportTimesheet none t ∈ report.timesheets) db := by
  rw [generateReport, wp_bind]
  refine wp_mono ?_ (userScope_all anyUser)
  rintro _ _ ⟨rfl, scope, rfl, selects⟩
  simp only [andThen_ok, dateFrom, dateTo, Option.bind_some, Option.map_some,
    orThrow, ok_bind, wp_bind, wp_query, pure_eq, wp_done, anyProject]
  refine ⟨_, rfl, fun t member visible lower upper => ?_⟩
  refine List.mem_map.mpr ⟨t, Db.mem_reportRows.mpr ⟨member, visible.1,
    ⟨lower, upper⟩, selects _ visible.2, ?_⟩, rfl⟩
  simp [anyStatus]

/-! ## The monthly timesheet -/

theorem assertCanExport_alike (same : SameInScope caller db other)
    (targetUserId : Int) (role : UserRole) :
    Alike (assertCanExport caller.orgId targetUserId caller.userId role) db
      other := by
  cases role with
  | employee => exact .throwIf _ _
  | manager =>
      refine .whenever fun _ => .bind (.query ?_) fun _ _ => .throwIf _ _
      exact (same.directReportIds _ _).symm
  | admin => exact .done _

/-- Past the check the target is in scope, when it is a user at all. -/
theorem assertCanExport_within (targetUserId : Int) :
    wp (assertCanExport caller.orgId targetUserId caller.userId caller.role)
      (fun answer _ => answer = .ok ⟨⟩ → ∀ id : Nat, (id : Int) = targetUserId →
        db.Member id caller.orgId → db.InScope caller id) db := by
  cases role : caller.role with
  | employee =>
      simp only [assertCanExport, wp_throwIf, reduceCtorEq, false_implies,
        implies_true, true_and]
      intro own _ id key _
      rw [Db.InScope, role]
      exact Int.ofNat_inj.mp (key.trans (not_not.mp own))
  | manager =>
      simp only [assertCanExport, getDirectReportIds, wp_whenever, wp_bind,
        wp_query, wp_throwIf, andThen_ok, reduceCtorEq, false_implies,
        implies_true, true_and]
      constructor
      · intro _ report _ id key _
        rw [Db.InScope, role]
        push Not at report
        rcases report with ⟨member, listed, same⟩
        cases Int.ofNat_inj.mp (same.trans key.symm)
        exact .inr listed
      · intro own _ id key _
        rw [Db.InScope, role]
        exact .inl (Int.ofNat_inj.mp (key.trans (not_not.mp own)))
  | admin =>
      intro _ id _ member
      rw [Db.InScope, role]
      exact member

theorem generateMonthlyTimesheetData_alike (host : Host)
    (same : SameInScope caller db other) (targetUserId year month : Int) :
    Alike (generateMonthlyTimesheetData host caller.orgId targetUserId year
      month caller.userId caller.role) db other := by
  refine .bind (assertCanExport_alike same targetUserId caller.role)
    fun _ permitted => ?_
  refine .bind (.query (Table.find?_of_rows same.users _).symm)
    fun found read => ?_
  refine .bind (.orThrow _ _) fun targetUser known => ?_
  -- the timesheets of the month belong to the user that was found
  have sees (t : Timesheet) (key : (t.userId : Int) = targetUserId)
      (org : t.organisationId = caller.orgId) : db.Visible caller t := by
    cases eq_some_of_orThrow known
    rcases Table.find?_spec (Except.ok.inj read) with ⟨member, userKey, userOrg⟩
    refine ⟨org, assertCanExport_within targetUserId permitted t.userId key ?_⟩
    exact ⟨targetUser, member, Int.ofNat_inj.mp (userKey.trans key.symm),
      userOrg⟩
  refine .bind (.query ?_) fun timesheets _ =>
    .bind (.query (Table.select_of_rows same.holidays _).symm)
      fun holidays _ => .done _
  rw [Db.monthTimesheets, Db.monthTimesheets, same.rows]
  · refine List.map_congr_left fun t listed => ?_
    rcases Table.mem_select.mp listed with ⟨member, key, org, _⟩
    exact (same.reportTimesheet none member (sees t key org)).symm
  · exact fun t _ meets => sees t meets.1 meets.2.1
  · exact fun t _ meets => sees t meets.1 meets.2.1

end

/--
Two databases that agree on what the caller may see answer its reports alike,
for an administrator when the timesheets of its organisation belong to the
users of it, as they do after every run.  A report without filters shows all
the caller may see.
-/
theorem reports_confidential (host : Host) (caller : JwtPayload)
    (filters : ReportFilters) (targetUserId year month : Int) :
    let report :=
      generateReport caller.orgId filters caller.userId caller.role
    let monthly := generateMonthlyTimesheetData host caller.orgId targetUserId
      year month caller.userId caller.role
    (∀ db other, SameInScope caller db other →
      (caller.role = .admin →
        db.Filed caller.orgId ∧ other.Filed caller.orgId) →
        (report.exec db).1 = (report.exec other).1 ∧
          (monthly.exec db).1 = (monthly.exec other).1) ∧
      (∀ lib requests,
        (World.empty.run lib requests).db.Filed caller.orgId) ∧
      ∀ (db : Db) (gte lte : Instant), truthy filters.userId = none →
        filters.status = none → truthy filters.projectId = none →
        filters.dateFrom = some gte → filters.dateTo = some lte →
          ∃ answer, (report.exec db).1 = .ok answer ∧
            ∀ t ∈ db.timesheets.rows, db.Visible caller t →
              gte ≤ t.weekStartDate → t.weekStartDate ≤ lte →
                db.reportTimesheet none t ∈ answer.timesheets := by
  refine ⟨fun db other same filed => ⟨?_, ?_⟩, fun lib requests => ?_, ?_⟩
  · exact (generateReport_alike same filed filters).answers
  · exact (generateMonthlyTimesheetData_alike host same targetUserId year
      month).answers
  · intro t member org
    rw [← org]
    exact (World.sound_run lib requests).owned t member
  · intro db gte lte anyUser anyStatus anyProject dateFrom dateTo
    exact generateReport_complete anyUser anyStatus anyProject dateFrom dateTo

/-! ## Reports of January 2024 -/

/-- All timesheets of the month. -/
def januaryFilters : ReportFilters where
  dateFrom := (january 1).toDate
  dateTo := (january 31).toDate
  userId := none
  status := none
  projectId := none

/-- The administrator has a timesheet of its own beside Eve's. -/
def twoSheetsDb : Db :=
  (World.empty.run plainLibs
    (officeRun ++
      [.authenticated plainHost ada (.createTimesheet ⟨january 1⟩),
        .authenticated plainHost ada (.createEntry 2 (mondayEntry 1 4))])).db

/-- Eve's report does not tell whether the administrator has a timesheet. -/
theorem reports_confidential_manager :
    ((generateReport 1 januaryFilters 2 .manager).exec officeDb).1 =
      ((generateReport 1 januaryFilters 2 .manager).exec twoSheetsDb).1 := by
  have same : SameInScope eve officeDb twoSheetsDb := by decide +kernel
  exact ((reports_confidential plainHost eve januaryFilters 2 2024 1).1
    officeDb twoSheetsDb same (fun role => by cases role)).1

/-- Two organisations with an administrator each. -/
def boltDb : Db :=
  (World.empty.run plainLibs
    [.register "acme" "ada@acme", .register "bolt" "bob@bolt"]).db

/-- A timesheet of the second administrator filed in the first organisation. -/
def misfiledDb : Db :=
  settle
    (Prisma.timesheetCreate plainHost.now
      { userId := 2
        organisationId := 1
        weekStartDate := plainHost.now
        weekEndDate := plainHost.now
        status := .draft }) boltDb

/-- The number of timesheets in an answered report. -/
def reported (answer : Except Thrown Report) : Option Nat :=
  answer.toOption.map fun report => report.aggregates.timesheetCount

/-- The misfiled timesheet is nobody's in scope and shows in the report. -/
theorem misfiled_timesheet_reported :
    boltDb.Integrity ∧ misfiledDb.Integrity ∧
      SameInScope ada boltDb misfiledDb ∧
        ((generateReport 1 januaryFilters 1 .admin).exec boltDb).1 ≠
          ((generateReport 1 januaryFilters 1 .admin).exec misfiledDb).1 := by
  have integrity : boltDb.Integrity := (World.sound_run plainLibs _).integrity
  have grows : boltDb.Grows misfiledDb := by
    unfold misfiledDb settle
    split
    · rename_i outcome
      exact Prisma.timesheetCreate_grows _ _ _ _ _ outcome
    · exact .refl _
  have same : SameInScope ada boltDb misfiledDb := by decide +kernel
  have counts :
      reported ((generateReport 1 januaryFilters 1 .admin).exec boltDb).1 ≠
        reported
          ((generateReport 1 januaryFilters 1 .admin).exec misfiledDb).1 := by
    decide +kernel
  exact ⟨integrity, grows.integrity integrity, same,
    fun equal => counts (congrArg reported equal)⟩

end TmsApi
