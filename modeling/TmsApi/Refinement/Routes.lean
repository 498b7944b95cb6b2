import TmsApi.Refinement.Integrity

/-!
# Foreign keys under every route

`KeepsKeys` lifts `Db.Grows` from statements to programs: whatever a statement
of the program meets, the database grows.  Every service function and every
route has it, so the foreign keys hold between any two statements and after
any interleaving of requests.
-/

namespace TmsApi

open TmsApi.Core
open TmsApi.Core.Program

/-- Every statement of the program lets the database grow. -/
abbrev KeepsKeys {α : Type} (program : Service α) : Prop :=
  program.Safe (fun _ => True) Db.Grows

/-- A growing transaction may stand as a statement. -/
theorem keeps_statement {α : Type} {tx : Tx α}
    (grows : Effects Db.Grows tx) :
    KeepsKeys (statement tx) :=
  Safe.statement Db.Grows.refl fun s a s' outcome _ =>
    ⟨grows s a s' outcome, trivial⟩

/-- A check of what a query reads. -/
theorem keeps_check {α : Type} {read : Db → α} {fails : α → Prop}
    [∀ a, Decidable (fails a)] {e : α → Thrown} :
    KeepsKeys (query read >>= fun a => throwIf (fails a) (e a)) :=
  .bind (.query Db.Grows.refl _) fun _ => .throwIf _ _

/-- A guard in front of a program. -/
theorem KeepsKeys.guarded {α : Type} {condition : Prop}
    [Decidable condition] {e : Thrown} {program : Service α}
    (keeps : KeepsKeys program) :
    KeepsKeys (throwIf condition e >>= fun _ => program) :=
  .bind (.throwIf _ _) fun _ => keeps

/-- The answer of a program in another form. -/
theorem KeepsKeys.respond {α β : Type} {program : Service α} {f : α → β}
    (keeps : KeepsKeys program) :
    KeepsKeys (program >>= fun a => pure (f a)) :=
  .bind keeps fun _ => safe_done _

/-- Transactions are built from growing statements. -/
theorem grows_bind {α β : Type} {tx : Tx α} {f : α → Tx β}
    (first : Effects Db.Grows tx) (rest : ∀ a, Effects Db.Grows (f a)) :
    Effects Db.Grows (tx >>= f) := by
  have trans := fun s t u => @Db.Grows.trans s t u
  exact Effects.bind trans first rest

theorem grows_pure {α : Type} (a : α) :
    Effects Db.Grows (pure a : Tx α) :=
  Effects.pure Db.Grows.refl a

/-- A transaction may do nothing. -/
theorem grows_ite {condition : Prop} [Decidable condition]
    {tx : Tx PUnit} (grows : Effects Db.Grows tx) :
    Effects Db.Grows (if condition then tx else pure ⟨⟩) := by
  split
  · exact grows
  · exact grows_pure _

section

variable (lib : Libs) (host : Host)

/-! ## Timesheets -/

theorem recalculateTimesheetTotals_keeps (timesheetId : Nat) :
    KeepsKeys (recalculateTimesheetTotals host timesheetId) := by
  refine .bind (.query Db.Grows.refl _) fun entries => ?_
  exact .bind (keeps_statement (Prisma.timesheetUpdate_grows _ _ _)) fun _ =>
    safe_done _

theorem createTimesheet_keeps (userId orgId : Nat)
    (dto : CreateTimesheetDto) :
    KeepsKeys (createTimesheet host userId orgId dto) := by
  refine .bind (.query Db.Grows.refl _) fun settings => ?_
  refine .bind (.throwIf _ _) fun _ => ?_
  refine .bind (.orThrow _ _) fun week => ?_
  refine .bind (.query Db.Grows.refl _) fun existing => ?_
  refine .bind (.throwIf _ _) fun _ => ?_
  exact keeps_statement (Prisma.timesheetCreate_grows _ _)

theorem updateTimesheet_keeps (id userId orgId : Nat)
    (dto : UpdateTimesheetDto) :
    KeepsKeys (updateTimesheet host id userId orgId dto) := by
  refine .bind (.query Db.Grows.refl _) fun found => ?_
  refine .bind (.orThrow _ _) fun timesheet => ?_
  refine .bind (.throwIf _ _) fun _ => ?_
  refine .bind (.throwIf _ _) fun _ => ?_
  exact keeps_statement (Prisma.timesheetUpdate_grows _ _ _)

theorem deleteTimesheet_keeps (id userId orgId : Nat) :
    KeepsKeys (deleteTimesheet id userId orgId) := by
  refine .bind (.query Db.Grows.refl _) fun found => ?_
  refine .bind (.orThrow _ _) fun timesheet => ?_
  refine .bind (.throwIf _ _) fun _ => ?_
  exact keeps_statement (Prisma.timesheetDelete_grows _)

theorem submitTimesheet_keeps (id userId orgId : Nat) :
    KeepsKeys (submitTimesheet host id userId orgId) := by
  refine .bind (.query Db.Grows.refl _) fun found => ?_
  refine .bind (.orThrow _ _) fun timesheet => ?_
  refine .bind (.throwIf _ _) fun _ => ?_
  exact keeps_statement (Prisma.timesheetUpdate_grows _ _ _)

theorem createEntries_grows (timesheetId : Nat)
    (entries : List TimeEntry) :
    Effects Db.Grows (createEntries host timesheetId entries) :=
  grows_ite (Prisma.timeEntryCreateMany_grows _ _)

theorem overwriteEntries_grows (existingId : Nat)
    (entries : List TimeEntry) (totalHours billableHours : ℚ) :
    Effects Db.Grows
      (overwriteEntries host existingId entries totalHours
        billableHours) := by
  refine grows_bind (Prisma.timeEntryDeleteMany_grows _) fun _ => ?_
  refine grows_bind (createEntries_grows host _ _) fun _ => ?_
  exact Prisma.timesheetUpdate_grows _ _ _

theorem createCopy_grows (data : TimesheetData)
    (entries : List TimeEntry) :
    Effects Db.Grows (createCopy host data entries) := by
  refine grows_bind (Prisma.timesheetCreate_grows _ _) fun t => ?_
  refine grows_bind (createEntries_grows host _ _) fun _ => ?_
  exact grows_pure t

theorem copyableEntries_keeps (userId orgId : Nat) (userRole : UserRole)
    (entries : List TimeEntry) :
    KeepsKeys (copyableEntries userId orgId userRole entries) := by
  unfold copyableEntries
  split
  · exact .bind (.query Db.Grows.refl _) fun _ => safe_done _
  · exact safe_done _

theorem copyIntoWeek_keeps (userId orgId : Nat) (userRole : UserRole)
    (force : Bool) (previous : Timesheet × List TimeEntry) (week : Instant) :
    KeepsKeys
      (copyIntoWeek host userId orgId userRole force previous week) := by
  refine .bind (.query Db.Grows.refl _) fun existing => ?_
  refine .bind (.throwIf _ _) fun _ => ?_
  refine .bind (.throwIf _ _) fun _ => ?_
  refine .bind (copyableEntries_keeps _ _ _ _) fun entries => ?_
  refine .bind (keeps_statement ?_) fun _ => safe_done _
  cases existing with
  | none => exact createCopy_grows host _ _
  | some t => exact overwriteEntries_grows host _ _ _ _

theorem copyPreviousWeek_keeps (userId orgId : Nat)
    (targetWeekStart : JsDate) (userRole : UserRole) (force : Bool) :
    KeepsKeys
      (copyPreviousWeek host userId orgId targetWeekStart userRole
        force) := by
  refine .bind (.query Db.Grows.refl _) fun found => ?_
  refine .bind (.throwIf _ _) fun _ => ?_
  refine .bind (.query Db.Grows.refl _) fun source => ?_
  refine .bind (.orThrow _ _) fun previous => ?_
  refine .bind (.orThrow _ _) fun week => ?_
  exact copyIntoWeek_keeps host _ _ _ _ _ _

theorem editableTimesheet_keeps (timesheetId userId orgId : Nat) :
    KeepsKeys (editableTimesheet timesheetId userId orgId) := by
  refine .bind (.query Db.Grows.refl _) fun found => ?_
  refine .bind (.orThrow _ _) fun timesheet => ?_
  exact .bind (.throwIf _ _) fun _ => safe_done _

theorem assertAssigned_keeps (projectId userId : Nat) :
    KeepsKeys (assertAssigned projectId userId) :=
  keeps_check

theorem createEntry_keeps (timesheetId userId orgId : Nat)
    (dto : CreateTimeEntryDto) (userRole : UserRole) :
    KeepsKeys
      (createEntry host timesheetId userId orgId dto userRole) := by
  refine .bind (editableTimesheet_keeps _ _ _) fun _ => ?_
  refine .bind (.query Db.Grows.refl _) fun settings => ?_
  refine .bind (.throwIf _ _) fun _ => ?_
  refine .bind (.query Db.Grows.refl _) fun project => ?_
  refine .bind (.throwIf _ _) fun _ => ?_
  refine .bind (.whenever fun _ => assertAssigned_keeps _ _) fun _ => ?_
  refine .bind (.throwIf _ _) fun _ => ?_
  refine .bind (keeps_statement (Prisma.timeEntryCreate_grows _ _)) fun _ => ?_
  exact .bind (recalculateTimesheetTotals_keeps host _) fun _ =>
    safe_done _

theorem updateEntry_keeps (timesheetId entryId userId orgId : Nat)
    (dto : UpdateTimeEntryDto) (userRole : UserRole) :
    KeepsKeys
      (updateEntry host timesheetId entryId userId orgId dto
        userRole) := by
  refine .bind (editableTimesheet_keeps _ _ _) fun _ => ?_
  refine .bind (.query Db.Grows.refl _) fun found => ?_
  refine .bind (.orThrow _ _) fun entry => ?_
  refine .bind (.whenever fun _ => assertAssigned_keeps _ _) fun _ => ?_
  refine .bind (keeps_statement (Prisma.timeEntryUpdate_grows _ _)) fun _ => ?_
  exact .bind (recalculateTimesheetTotals_keeps host _) fun _ =>
    safe_done _

theorem deleteEntry_keeps (timesheetId entryId userId orgId : Nat) :
    KeepsKeys (deleteEntry host timesheetId entryId userId orgId) := by
  refine .bind (editableTimesheet_keeps _ _ _) fun _ => ?_
  refine .bind (.query Db.Grows.refl _) fun found => ?_
  refine .bind (.orThrow _ _) fun entry => ?_
  refine .bind (keeps_statement (Prisma.timeEntryDelete_grows _)) fun _ => ?_
  exact recalculateTimesheetTotals_keeps host _

/-! ## Approvals -/

theorem assertIsDirectReport_keeps (managerId employeeId orgId : Nat) :
    KeepsKeys (assertIsDirectReport managerId employeeId orgId) :=
  keeps_check

theorem decidableTimesheet_keeps (timesheetId approvingUserId orgId : Nat)
    (userRole : UserRole) (selfMessage : String)
    (target : TimesheetStatus) :
    KeepsKeys
      (decidableTimesheet timesheetId approvingUserId orgId userRole
        selfMessage target) := by
  refine .bind (.query Db.Grows.refl _) fun found => ?_
  refine .bind (.orThrow _ _) fun timesheet => ?_
  refine .bind (.throwIf _ _) fun _ => ?_
  refine .bind
    (.whenever fun _ => assertIsDirectReport_keeps _ _ _) fun _ => ?_
  exact .bind (.throwIf _ _) fun _ => safe_done _

theorem bookEntry_keeps (entry : TimeEntry) :
    KeepsKeys (bookEntry host entry) :=
  keeps_statement (Prisma.projectIncrementUsedHours_grows _ _ _)

theorem approveTimesheet_keeps (timesheetId approvingUserId orgId : Nat)
    (userRole : UserRole) :
    KeepsKeys
      (approveTimesheet host timesheetId approvingUserId orgId
        userRole) := by
  refine .bind (decidableTimesheet_keeps _ _ _ _ _ _) fun timesheet => ?_
  refine .bind (keeps_statement (Prisma.timesheetUpdate_grows _ _ _))
    fun _ => ?_
  refine .bind (.query Db.Grows.refl _) fun entries => ?_
  refine .bind (.forEach (bookEntry_keeps host) _) fun _ => ?_
  exact .bind (keeps_statement (Prisma.notificationCreate_grows _ _)) fun _ =>
    safe_done _

theorem rejectTimesheet_keeps (timesheetId approvingUserId orgId : Nat)
    (reason : String) (userRole : UserRole) :
    KeepsKeys
      (rejectTimesheet host timesheetId approvingUserId orgId reason
        userRole) := by
  refine .bind (decidableTimesheet_keeps _ _ _ _ _ _) fun timesheet => ?_
  refine .bind (keeps_statement (Prisma.timesheetUpdate_grows _ _ _))
    fun _ => ?_
  exact .bind (keeps_statement (Prisma.notificationCreate_grows _ _)) fun _ =>
    safe_done _

/-! ## Hierarchy and projects -/

theorem replaceManagers_grows (employeeId : Nat)
    (managerIds : List Nat) :
    Effects Db.Grows (replaceManagers employeeId managerIds) := by
  refine grows_bind
    (Prisma.managerEmployeeDeleteMany_grows _) fun _ => ?_
  exact grows_ite (Prisma.managerEmployeeCreateMany_grows _)

theorem assignManagers_keeps (employeeId : Nat) (managerIds : List Nat)
    (orgId : Nat) :
    KeepsKeys (assignManagers employeeId managerIds orgId) := by
  refine .bind (.throwIf _ _) fun _ => ?_
  refine .bind (.whenever fun _ => keeps_check) fun _ => ?_
  exact keeps_statement (replaceManagers_grows _ _)

theorem replaceProjects_grows (employeeId : Nat)
    (projectIds : List Nat) :
    Effects Db.Grows (replaceProjects employeeId projectIds) := by
  refine grows_bind
    (Prisma.projectEmployeeDeleteMany_grows _) fun _ => ?_
  exact grows_ite (Prisma.projectEmployeeCreateMany_grows _)

theorem assignProjectsToEmployee_keeps (employeeId : Nat)
    (projectIds : List Nat) (orgId : Nat) :
    KeepsKeys (assignProjectsToEmployee employeeId projectIds orgId) := by
  refine .bind (.whenever fun _ => keeps_check) fun _ => ?_
  exact keeps_statement (replaceProjects_grows _ _)

theorem assertDirectReports_keeps (employeeIds : List Nat)
    (userId orgId : Nat) :
    KeepsKeys (assertDirectReports employeeIds userId orgId) :=
  keeps_check

theorem createProject_keeps (orgId : Nat) (dto : CreateProjectDto)
    (creatingUserId : Nat) (creatingUserRole : UserRole) :
    KeepsKeys
      (createProject lib host orgId dto creatingUserId
        creatingUserRole) := by
  refine .bind (.query Db.Grows.refl _) fun existing => ?_
  refine .bind (.throwIf _ _) fun _ => ?_
  refine .bind
    (.whenever fun _ => assertDirectReports_keeps _ _ _) fun _ => ?_
  exact keeps_statement (Prisma.projectCreate_grows _ _ _ _ _)

theorem replaceLinks_grows {delete : Tx PUnit}
    {create : List (Nat × Nat) → Tx PUnit} (projectId : Nat)
    (deletes : Effects Db.Grows delete)
    (creates : ∀ links, Effects Db.Grows (create links))
    (ids : Option (List Nat)) :
    Effects Db.Grows (replaceLinks delete create projectId ids) := by
  cases ids with
  | none => exact grows_pure _
  | some ids =>
      exact grows_bind deletes fun _ =>
        grows_ite (creates _)

theorem writeProject_grows (id : Nat) (dto : UpdateProjectDto) :
    Effects Db.Grows (writeProject lib host id dto) := by
  refine grows_bind (Prisma.projectUpdate_grows _ _ _ _) fun p => ?_
  refine grows_bind
    (replaceLinks_grows _ (Prisma.projectManagerDeleteMany_grows _)
      Prisma.projectManagerCreateMany_grows _) fun _ => ?_
  refine grows_bind
    (replaceLinks_grows _ (Prisma.projectEmployeeDeleteMany_grows _)
      Prisma.projectEmployeeCreateMany_grows _) fun _ => ?_
  exact grows_pure p

theorem updateProject_keeps (id orgId : Nat) (dto : UpdateProjectDto)
    (requestingUserId : Nat) (requestingRole : UserRole) :
    KeepsKeys
      (updateProject lib host id orgId dto requestingUserId
        requestingRole) := by
  refine .bind (.query Db.Grows.refl _) fun found => ?_
  refine .bind (.orThrow _ _) fun project => ?_
  refine .bind (.whenever fun _ => keeps_check) fun _ => ?_
  refine .bind
    (.whenever fun _ => assertDirectReports_keeps _ _ _) fun _ => ?_
  exact keeps_statement (writeProject_grows lib host _ _)

theorem deleteProject_keeps (id orgId : Nat) :
    KeepsKeys (deleteProject id orgId) := by
  refine .bind (.query Db.Grows.refl _) fun found => ?_
  refine .bind (.orThrow _ _) fun _ => ?_
  exact keeps_statement (Prisma.projectDelete_grows _)

/-! ## Users and sessions -/

theorem assertCanManageUser_keeps (requestingUserId : Nat)
    (requestingRole : UserRole) (targetUserId orgId : Nat) :
    KeepsKeys
      (assertCanManageUser requestingUserId requestingRole targetUserId
        orgId) :=
  .whenever fun _ => keeps_check

theorem assignGivenProjects_keeps (userId : Nat) (projectIds : List Nat)
    (orgId requestingUserId : Nat) (requestingRole : UserRole) :
    KeepsKeys
      (assignGivenProjects userId projectIds orgId requestingUserId
        requestingRole) := by
  refine .bind (.whenever fun _ => keeps_check) fun _ => ?_
  exact assignProjectsToEmployee_keeps _ _ _

theorem createUser_keeps (orgId : Nat) (dto : CreateUserDto)
    (requestingUserId : Nat) (requestingRole : UserRole) :
    KeepsKeys
      (createUser lib host orgId dto requestingUserId
        requestingRole) := by
  refine .bind (.throwIf _ _) fun _ => ?_
  refine .bind (.query Db.Grows.refl _) fun existing => ?_
  refine .bind (.throwIf _ _) fun _ => ?_
  refine .bind (keeps_statement (Prisma.userCreate_grows _ _ _)) fun user => ?_
  refine .bind (.whenever fun _ => assignManagers_keeps _ _ _) fun _ => ?_
  refine .bind
    (.whenever fun _ => assignGivenProjects_keeps _ _ _ _ _) fun _ => ?_
  exact safe_done _

theorem updateUser_keeps (id orgId : Nat) (dto : UpdateUserDto)
    (requestingUserId : Nat) (requestingRole : UserRole) :
    KeepsKeys
      (updateUser host id orgId dto requestingUserId requestingRole) := by
  refine .bind (.query Db.Grows.refl _) fun found => ?_
  refine .bind (.orThrow _ _) fun user => ?_
  refine .bind (assertCanManageUser_keeps _ _ _ _) fun _ => ?_
  refine .bind (.throwIf _ _) fun _ => ?_
  refine .bind (keeps_statement (Prisma.userUpdate_grows _ _ _))
    fun updated => ?_
  refine .bind (.whenever fun _ =>
    keeps_statement (Prisma.managerEmployeeDeleteMany_grows _)) fun _ => ?_
  refine .bind (.whenever fun _ => assignManagers_keeps _ _ _) fun _ => ?_
  refine .bind
    (.whenever fun _ => assignGivenProjects_keeps _ _ _ _ _) fun _ => ?_
  exact safe_done _

theorem deactivateUser_keeps (id orgId requestingUserId : Nat)
    (requestingRole : UserRole) :
    KeepsKeys
      (deactivateUser host id orgId requestingUserId requestingRole) := by
  refine .bind (.query Db.Grows.refl _) fun found => ?_
  refine .bind (.orThrow _ _) fun user => ?_
  refine .bind (assertCanManageUser_keeps _ _ _ _) fun _ => ?_
  exact .bind (keeps_statement (Prisma.userUpdate_grows _ _ _)) fun _ =>
    safe_done _

theorem openSession_keeps (user : User) :
    KeepsKeys (openSession lib host user) :=
  .bind (keeps_statement (Prisma.userUpdate_grows _ _ _)) fun _ => safe_done _

theorem createOrganisation_grows (dto : RegisterDto)
    (passwordHash : String) :
    Effects Db.Grows (createOrganisation lib host dto passwordHash) := by
  refine grows_bind (Prisma.organisationCreate_grows _) fun _ => ?_
  refine grows_bind (Prisma.orgSettingsCreate_grows _) fun _ => ?_
  exact Prisma.userCreate_grows _ _ _

theorem registerUser_keeps (dto : RegisterDto) :
    KeepsKeys (registerUser lib host dto) := by
  refine .bind (.query Db.Grows.refl _) fun existing => ?_
  refine .bind (.throwIf _ _) fun _ => ?_
  refine .bind (keeps_statement (createOrganisation_grows lib host _ _))
    fun user => ?_
  exact openSession_keeps lib host user

theorem loginUser_keeps (dto : LoginDto) :
    KeepsKeys (loginUser lib host dto) := by
  refine .bind (.query Db.Grows.refl _) fun found => ?_
  refine .bind (.orThrow _ _) fun user => ?_
  refine .bind (.throwIf _ _) fun _ => ?_
  exact openSession_keeps lib host user

theorem refreshAccessToken_keeps (incomingRefreshToken : String) :
    KeepsKeys (refreshAccessToken lib host incomingRefreshToken) := by
  refine .bind (.orThrow _ _) fun payload => ?_
  refine .bind (.query Db.Grows.refl _) fun found => ?_
  refine .bind (.orThrow _ _) fun user => ?_
  refine .bind (.orThrow _ _) fun stored => ?_
  refine .bind (.whenever fun _ =>
    .bind (keeps_statement (Prisma.userUpdate_grows _ _ _)) fun _ =>
      safe_done _) fun _ => ?_
  exact openSession_keeps lib host user

/-! ## Routes -/

theorem handlePublic_keeps (call : PublicCall) :
    KeepsKeys (handlePublic lib host call) := by
  cases call with
  | register dto =>
      refine .guarded ?_
      exact .respond (registerUser_keeps lib host dto)
  | login dto =>
      refine .guarded ?_
      exact .respond (loginUser_keeps lib host dto)
  | refresh token =>
      exact .respond (refreshAccessToken_keeps lib host token)

theorem handle_keeps (caller : JwtPayload) (call : Call) :
    KeepsKeys (handle lib host caller call) := by
  cases call with
  | logout =>
      refine .respond ?_
      exact .bind (keeps_statement (Prisma.userUpdate_grows _ _ _)) fun _ =>
        safe_done _
  | createTimesheet dto =>
      exact .respond (createTimesheet_keeps host _ _ _)
  | copyPreviousWeek targetWeekStart force =>
      exact .respond (copyPreviousWeek_keeps host _ _ _ _ _)
  | updateTimesheet id dto =>
      exact .respond (updateTimesheet_keeps host _ _ _ _)
  | deleteTimesheet id =>
      exact .respond (deleteTimesheet_keeps _ _ _)
  | submitTimesheet id =>
      exact .respond (submitTimesheet_keeps host _ _ _)
  | createEntry timesheetId dto =>
      refine .guarded ?_
      exact .respond (createEntry_keeps host _ _ _ _ _)
  | updateEntry timesheetId entryId dto =>
      refine .guarded ?_
      exact .respond (updateEntry_keeps host _ _ _ _ _ _)
  | deleteEntry timesheetId entryId =>
      exact .respond (deleteEntry_keeps host _ _ _ _)
  | approveTimesheet id =>
      refine .guarded ?_
      exact .respond (approveTimesheet_keeps host _ _ _ _)
  | rejectTimesheet id dto =>
      refine .guarded ?_
      refine .guarded ?_
      exact .respond (rejectTimesheet_keeps host _ _ _ _ _)
  | createProject dto =>
      refine .guarded ?_
      refine .guarded ?_
      exact .respond (createProject_keeps lib host _ _ _ _)
  | updateProject id dto =>
      refine .guarded ?_
      refine .guarded ?_
      exact .respond (updateProject_keeps lib host _ _ _ _ _)
  | deleteProject id =>
      refine .guarded ?_
      exact .respond (deleteProject_keeps _ _)
  | createUser dto =>
      refine .guarded ?_
      refine .guarded ?_
      exact .respond (createUser_keeps lib host _ _ _ _)
  | updateUser id dto =>
      refine .guarded ?_
      refine .guarded ?_
      exact .respond (updateUser_keeps host _ _ _ _ _)
  | deactivateUser id =>
      refine .guarded ?_
      exact .respond (deactivateUser_keeps host _ _ _ _)
  | setUserManagers id managerIds =>
      refine .guarded ?_
      refine .guarded ?_
      exact .respond (assignManagers_keeps _ _ _)
  | createHoliday dto =>
      refine .guarded ?_
      refine .guarded ?_
      exact .respond (keeps_statement (Prisma.holidayCreate_grows _ _ _ _))
  | deleteHoliday id =>
      refine .guarded ?_
      refine .respond ?_
      refine .bind (.query Db.Grows.refl _) fun found => ?_
      refine .bind (.orThrow _ _) fun _ => ?_
      exact keeps_statement (Prisma.holidayDelete_grows _)
  | updateSettings dto =>
      refine .guarded ?_
      refine .guarded ?_
      exact .respond (keeps_statement (Prisma.orgSettingsUpsert_grows _ _))
  | markRead id =>
      refine .respond ?_
      refine .bind (.query Db.Grows.refl _) fun found => ?_
      refine .bind (.orThrow _ _) fun _ => ?_
      exact .bind (keeps_statement (Prisma.notificationMarkRead_grows _))
        fun _ => safe_done _
  | markAllRead =>
      exact .respond (keeps_statement (Prisma.notificationMarkRead_grows _))

end

end TmsApi
