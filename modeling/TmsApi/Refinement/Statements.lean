import TmsApi.Api
import TmsApi.Core.Rely

/-!
# The statements of the API

`Issued` lists the statements and transactions that the services await, with
any arguments.  Those that decide a timesheet, write entries, book hours or
notify somebody need a permit, so that a route can be recognised as one that
does none of it.

Every route is shown to issue nothing else, with the permits its call needs.
What all statements keep is then kept by any number of requests, however they
are interleaved.
-/

namespace TmsApi

open TmsApi.Core
open TmsApi.Core.Program

/-- What statements may do; `decides` relates an approver to a timesheet. -/
structure Permits where
  decides : Nat → Nat → Prop
  /-- The timesheets whose entries may be written as a whole or added to. -/
  edits : Nat → Prop
  /-- The entries that may be changed or deleted. -/
  changes : Nat → Prop
  books : Prop
  notifies : Prop

/-- Everything is permitted. -/
def Permits.all : Permits where
  decides _ _ := True
  edits _ := True
  changes _ := True
  books := True
  notifies := True

/-- What the services await besides queries. -/
inductive Issued (lib : Libs) (may : Permits) :
    (γ : Type) → Tx γ → Prop where
  | createOrganisation (host : Host) (dto : RegisterDto) (hash : String) :
      Issued lib may _ (createOrganisation lib host dto hash)
  | upsertSettings (orgId : Nat) (dto : UpdateSettingsDto) :
      Issued lib may _ (Prisma.orgSettingsUpsert orgId dto)
  | createUser (now : Instant) (data : UserData) :
      Issued lib may _ (Prisma.userCreate lib.collate now data)
  | updateUser (now : Instant) (id : Nat) (data : UserUpdate) :
      Issued lib may _ (Prisma.userUpdate now id data)
  | removeManaged (managerId : Nat) :
      Issued lib may _
        (Prisma.managerEmployeeDeleteMany fun r => r.managerId = managerId)
  | replaceManagers (employeeId : Nat) (managerIds : List Nat) :
      Issued lib may _ (replaceManagers employeeId managerIds)
  | replaceProjects (employeeId : Nat) (projectIds : List Nat) :
      Issued lib may _ (replaceProjects employeeId projectIds)
  | createProject (now : Instant) (data : ProjectData)
      (managers employees : List Nat) :
      Issued lib may _
        (Prisma.projectCreate lib.collate now data managers employees)
  | writeProject (host : Host) (id : Nat) (dto : UpdateProjectDto) :
      Issued lib may _ (writeProject lib host id dto)
  | incrementUsedHours (now : Instant) (id : Nat) (hours : ℚ)
      (permit : may.books) :
      Issued lib may _ (Prisma.projectIncrementUsedHours now id hours)
  | deleteProject (id : Nat) :
      Issued lib may _ (Prisma.projectDelete id)
  | createTimesheet (now : Instant) (data : TimesheetData) :
      Issued lib may _ (Prisma.timesheetCreate now data)
  | updateTimesheet (now : Instant) (id : Nat) (data : TimesheetUpdate)
      (permit : ∀ u ∈ data.approvedById, may.decides u id) :
      Issued lib may _ (Prisma.timesheetUpdate now id data)
  | deleteTimesheet (id : Nat) (permit : may.edits id) :
      Issued lib may _ (Prisma.timesheetDelete id)
  | overwriteEntries (host : Host) (id : Nat) (entries : List TimeEntry)
      (totalHours billableHours : ℚ) (permit : may.edits id) :
      Issued lib may _
        (overwriteEntries host id entries totalHours billableHours)
  | createCopy (host : Host) (data : TimesheetData)
      (entries : List TimeEntry) :
      Issued lib may _ (createCopy host data entries)
  | createEntry (now : Instant) (data : TimeEntryData)
      (permit : may.edits data.timesheetId) :
      Issued lib may _ (Prisma.timeEntryCreate now data)
  | updateEntry (id : Nat) (data : TimeEntryUpdate)
      (permit : may.changes id) :
      Issued lib may _ (Prisma.timeEntryUpdate id data)
  | deleteEntry (id : Nat) (permit : may.changes id) :
      Issued lib may _ (Prisma.timeEntryDelete id)
  | createHoliday (orgId : Nat) (name : String) (date : JsDate)
      (recurring : Bool) :
      Issued lib may _ (Prisma.holidayCreate orgId name date recurring)
  | deleteHoliday (id : Nat) :
      Issued lib may _ (Prisma.holidayDelete id)
  | createNotification (now : Instant) (data : NotificationData)
      (permit : may.notifies) :
      Issued lib may _ (Prisma.notificationCreate now data)
  | markRead (p : Notification → Prop) [DecidablePred p] :
      Issued lib may _ (Prisma.notificationMarkRead p)

section

variable {lib : Libs} {may : Permits} {host : Host}

/-- A check of what a query reads. -/
theorem issues_check {kind : ∀ γ : Type, Tx γ → Prop} {α : Type}
    {read : Db → α} {fails : α → Prop} [∀ a, Decidable (fails a)]
    {e : α → Thrown} :
    (query read >>= fun a => throwIf (fails a) (e a)).Issues kind :=
  .bind (issues_query _) fun _ => issues_throwIf _ _

/-- A guard in front of a program. -/
theorem issues_guarded {α : Type} {condition : Prop} [Decidable condition]
    {e : Thrown} {program : Service α}
    (issues : program.Issues (Issued lib may)) :
    (throwIf condition e >>= fun _ => program).Issues (Issued lib may) :=
  .bind (issues_throwIf _ _) fun _ => issues

/-- The answer of a program in another form. -/
theorem issues_respond {α β : Type} {program : Service α} {f : α → β}
    (issues : program.Issues (Issued lib may)) :
    (program >>= fun a => pure (f a)).Issues (Issued lib may) :=
  .bind issues fun _ => issues_done _

/-! ## Timesheets -/

theorem recalculateTimesheetTotals_issues (timesheetId : Nat) :
    (recalculateTimesheetTotals host timesheetId).Issues
      (Issued lib may) := by
  refine .bind (issues_query _) fun entries => ?_
  refine .bind (issues_statement (.updateTimesheet _ _ _ ?_)) fun _ =>
    issues_done _
  exact fun u absurd => by cases absurd

theorem createTimesheet_issues (userId orgId : Nat)
    (dto : CreateTimesheetDto) :
    (createTimesheet host userId orgId dto).Issues (Issued lib may) := by
  refine .bind (issues_query _) fun settings => ?_
  refine .bind (issues_throwIf _ _) fun _ => ?_
  refine .bind (issues_orThrow _ _) fun week => ?_
  refine .bind (issues_query _) fun existing => ?_
  refine .bind (issues_throwIf _ _) fun _ => ?_
  exact issues_statement (.createTimesheet _ _)

theorem updateTimesheet_issues (id userId orgId : Nat)
    (dto : UpdateTimesheetDto) :
    (updateTimesheet host id userId orgId dto).Issues
      (Issued lib may) := by
  refine .bind (issues_query _) fun found => ?_
  refine .bind (issues_orThrow _ _) fun timesheet => ?_
  refine .bind (issues_throwIf _ _) fun _ => ?_
  refine .bind (issues_throwIf _ _) fun _ => ?_
  refine issues_statement (.updateTimesheet _ _ _ ?_)
  exact fun u absurd => by cases absurd

theorem deleteTimesheet_issues (id userId orgId : Nat)
    (permit : may.edits id) :
    (deleteTimesheet id userId orgId).Issues (Issued lib may) := by
  refine .bind (issues_query _) fun found => ?_
  refine .bind (issues_orThrow _ _) fun timesheet => ?_
  refine .bind (issues_throwIf _ _) fun _ => ?_
  exact issues_statement (.deleteTimesheet _ permit)

theorem submitTimesheet_issues (id userId orgId : Nat) :
    (submitTimesheet host id userId orgId).Issues (Issued lib may) := by
  refine .bind (issues_query _) fun found => ?_
  refine .bind (issues_orThrow _ _) fun timesheet => ?_
  refine .bind (issues_throwIf _ _) fun _ => ?_
  refine issues_statement (.updateTimesheet _ _ _ ?_)
  exact fun u absurd => by cases absurd

theorem copyableEntries_issues (userId orgId : Nat) (userRole : UserRole)
    (entries : List TimeEntry) :
    (copyableEntries userId orgId userRole entries).Issues
      (Issued lib may) := by
  unfold copyableEntries
  split
  · exact .bind (issues_query _) fun _ => issues_done _
  · exact issues_done _

theorem copyIntoWeek_issues (userId orgId : Nat) (userRole : UserRole)
    (force : Bool) (previous : Timesheet × List TimeEntry) (week : Instant)
    (permit : ∀ id, may.edits id) :
    (copyIntoWeek host userId orgId userRole force previous week).Issues
      (Issued lib may) := by
  refine .bind (issues_query _) fun existing => ?_
  refine .bind (issues_throwIf _ _) fun _ => ?_
  refine .bind (issues_throwIf _ _) fun _ => ?_
  refine .bind (copyableEntries_issues _ _ _ _) fun entries => ?_
  refine .bind (issues_statement ?_) fun _ => issues_done _
  cases existing with
  | none => exact .createCopy _ _ _
  | some t => exact .overwriteEntries _ _ _ _ _ (permit t.id)

theorem copyPreviousWeek_issues (userId orgId : Nat)
    (targetWeekStart : JsDate) (userRole : UserRole) (force : Bool)
    (permit : ∀ id, may.edits id) :
    (copyPreviousWeek host userId orgId targetWeekStart userRole
      force).Issues (Issued lib may) := by
  refine .bind (issues_query _) fun found => ?_
  refine .bind (issues_throwIf _ _) fun _ => ?_
  refine .bind (issues_query _) fun source => ?_
  refine .bind (issues_orThrow _ _) fun previous => ?_
  refine .bind (issues_orThrow _ _) fun week => ?_
  exact copyIntoWeek_issues _ _ _ _ _ _ permit

theorem editableTimesheet_issues (timesheetId userId orgId : Nat) :
    (editableTimesheet timesheetId userId orgId).Issues
      (Issued lib may) := by
  refine .bind (issues_query _) fun found => ?_
  refine .bind (issues_orThrow _ _) fun timesheet => ?_
  exact .bind (issues_throwIf _ _) fun _ => issues_done _

theorem createEntry_issues (timesheetId userId orgId : Nat)
    (dto : CreateTimeEntryDto) (userRole : UserRole)
    (permit : may.edits timesheetId) :
    (createEntry host timesheetId userId orgId dto userRole).Issues
      (Issued lib may) := by
  refine .bind (editableTimesheet_issues _ _ _) fun _ => ?_
  refine .bind (issues_query _) fun settings => ?_
  refine .bind (issues_throwIf _ _) fun _ => ?_
  refine .bind (issues_query _) fun project => ?_
  refine .bind (issues_throwIf _ _) fun _ => ?_
  refine .bind (.whenever issues_check) fun _ => ?_
  refine .bind (issues_throwIf _ _) fun _ => ?_
  refine .bind (issues_statement (.createEntry _ _ permit)) fun _ => ?_
  exact issues_respond (recalculateTimesheetTotals_issues _)

theorem updateEntry_issues (timesheetId entryId userId orgId : Nat)
    (dto : UpdateTimeEntryDto) (userRole : UserRole)
    (permit : may.changes entryId) :
    (updateEntry host timesheetId entryId userId orgId dto
      userRole).Issues (Issued lib may) := by
  refine .bind (editableTimesheet_issues _ _ _) fun _ => ?_
  refine .bind (issues_query _) fun found => ?_
  refine .bind (issues_orThrow _ _) fun entry => ?_
  refine .bind (.whenever issues_check) fun _ => ?_
  refine .bind (issues_statement (.updateEntry _ _ permit)) fun _ => ?_
  exact issues_respond (recalculateTimesheetTotals_issues _)

theorem deleteEntry_issues (timesheetId entryId userId orgId : Nat)
    (permit : may.changes entryId) :
    (deleteEntry host timesheetId entryId userId orgId).Issues
      (Issued lib may) := by
  refine .bind (editableTimesheet_issues _ _ _) fun _ => ?_
  refine .bind (issues_query _) fun found => ?_
  refine .bind (issues_orThrow _ _) fun entry => ?_
  refine .bind (issues_statement (.deleteEntry _ permit)) fun _ => ?_
  exact recalculateTimesheetTotals_issues _

/-! ## Approvals -/

theorem decidableTimesheet_issues (timesheetId approvingUserId orgId : Nat)
    (userRole : UserRole) (selfMessage : String)
    (target : TimesheetStatus) :
    (decidableTimesheet timesheetId approvingUserId orgId userRole
      selfMessage target).Issues (Issued lib may) := by
  refine .bind (issues_query _) fun found => ?_
  refine .bind (issues_orThrow _ _) fun timesheet => ?_
  refine .bind (issues_throwIf _ _) fun _ => ?_
  refine .bind (.whenever issues_check) fun _ => ?_
  exact .bind (issues_throwIf _ _) fun _ => issues_done _

theorem approveTimesheet_issues (timesheetId approvingUserId orgId : Nat)
    (userRole : UserRole) (decides : may.decides approvingUserId timesheetId)
    (books : may.books) (notifies : may.notifies) :
    (approveTimesheet host timesheetId approvingUserId orgId
      userRole).Issues (Issued lib may) := by
  refine .bind (decidableTimesheet_issues _ _ _ _ _ _) fun timesheet => ?_
  refine .bind (issues_statement (.updateTimesheet _ _ _ ?_)) fun _ => ?_
  · intro u written
    cases written
    exact decides
  refine .bind (issues_query _) fun entries => ?_
  refine .bind (.forEach (fun _ => issues_statement ?_) _) fun _ => ?_
  · exact .incrementUsedHours _ _ _ books
  · exact issues_respond
      (issues_statement (.createNotification _ _ notifies))

theorem rejectTimesheet_issues (timesheetId approvingUserId orgId : Nat)
    (reason : String) (userRole : UserRole) (notifies : may.notifies) :
    (rejectTimesheet host timesheetId approvingUserId orgId reason
      userRole).Issues (Issued lib may) := by
  refine .bind (decidableTimesheet_issues _ _ _ _ _ _) fun timesheet => ?_
  refine .bind (issues_statement (.updateTimesheet _ _ _ ?_)) fun _ => ?_
  · exact fun u absurd => by cases absurd
  · exact issues_respond
      (issues_statement (.createNotification _ _ notifies))

/-! ## Hierarchy and projects -/

theorem assignManagers_issues (employeeId : Nat) (managerIds : List Nat)
    (orgId : Nat) :
    (assignManagers employeeId managerIds orgId).Issues
      (Issued lib may) := by
  refine .bind (issues_throwIf _ _) fun _ => ?_
  refine .bind (.whenever issues_check) fun _ => ?_
  exact issues_statement (.replaceManagers _ _)

theorem createProject_issues (orgId : Nat) (dto : CreateProjectDto)
    (creatingUserId : Nat) (creatingUserRole : UserRole) :
    (createProject lib host orgId dto creatingUserId
      creatingUserRole).Issues (Issued lib may) := by
  refine .bind (issues_query _) fun existing => ?_
  refine .bind (issues_throwIf _ _) fun _ => ?_
  refine .bind (.whenever issues_check) fun _ => ?_
  exact issues_statement (.createProject _ _ _ _)

theorem updateProject_issues (id orgId : Nat) (dto : UpdateProjectDto)
    (requestingUserId : Nat) (requestingRole : UserRole) :
    (updateProject lib host id orgId dto requestingUserId
      requestingRole).Issues (Issued lib may) := by
  refine .bind (issues_query _) fun found => ?_
  refine .bind (issues_orThrow _ _) fun project => ?_
  refine .bind (.whenever issues_check) fun _ => ?_
  refine .bind (.whenever issues_check) fun _ => ?_
  exact issues_statement (.writeProject _ _ _)

theorem deleteProject_issues (id orgId : Nat) :
    (deleteProject id orgId).Issues (Issued lib may) := by
  refine .bind (issues_query _) fun found => ?_
  refine .bind (issues_orThrow _ _) fun _ => ?_
  exact issues_statement (.deleteProject _)

/-! ## Users and sessions -/

theorem assignGivenProjects_issues (userId : Nat) (projectIds : List Nat)
    (orgId requestingUserId : Nat) (requestingRole : UserRole) :
    (assignGivenProjects userId projectIds orgId requestingUserId
      requestingRole).Issues (Issued lib may) := by
  refine .bind (.whenever issues_check) fun _ => ?_
  refine .bind (.whenever issues_check) fun _ => ?_
  exact issues_statement (.replaceProjects _ _)

theorem createUser_issues (orgId : Nat) (dto : CreateUserDto)
    (requestingUserId : Nat) (requestingRole : UserRole) :
    (createUser lib host orgId dto requestingUserId
      requestingRole).Issues (Issued lib may) := by
  refine .bind (issues_throwIf _ _) fun _ => ?_
  refine .bind (issues_query _) fun existing => ?_
  refine .bind (issues_throwIf _ _) fun _ => ?_
  refine .bind (issues_statement (.createUser _ _)) fun user => ?_
  refine .bind (.whenever (assignManagers_issues _ _ _)) fun _ => ?_
  exact issues_respond
    (Issues.whenever (assignGivenProjects_issues _ _ _ _ _))

theorem updateUser_issues (id orgId : Nat) (dto : UpdateUserDto)
    (requestingUserId : Nat) (requestingRole : UserRole) :
    (updateUser host id orgId dto requestingUserId requestingRole).Issues
      (Issued lib may) := by
  refine .bind (issues_query _) fun found => ?_
  refine .bind (issues_orThrow _ _) fun user => ?_
  refine .bind (.whenever issues_check) fun _ => ?_
  refine .bind (issues_throwIf _ _) fun _ => ?_
  refine .bind (issues_statement (.updateUser _ _ _)) fun updated => ?_
  refine .bind (.whenever (issues_statement (.removeManaged _))) fun _ => ?_
  refine .bind (.whenever (assignManagers_issues _ _ _)) fun _ => ?_
  exact issues_respond
    (Issues.whenever (assignGivenProjects_issues _ _ _ _ _))

theorem deactivateUser_issues (id orgId requestingUserId : Nat)
    (requestingRole : UserRole) :
    (deactivateUser host id orgId requestingUserId requestingRole).Issues
      (Issued lib may) := by
  refine .bind (issues_query _) fun found => ?_
  refine .bind (issues_orThrow _ _) fun user => ?_
  refine .bind (.whenever issues_check) fun _ => ?_
  exact issues_respond (issues_statement (.updateUser _ _ _))

theorem openSession_issues (user : User) :
    (openSession lib host user).Issues (Issued lib may) :=
  issues_respond (issues_statement (.updateUser _ _ _))

theorem registerUser_issues (dto : RegisterDto) :
    (registerUser lib host dto).Issues (Issued lib may) := by
  refine .bind (issues_query _) fun existing => ?_
  refine .bind (issues_throwIf _ _) fun _ => ?_
  refine .bind (issues_statement (.createOrganisation _ _ _)) fun user => ?_
  exact openSession_issues user

theorem loginUser_issues (dto : LoginDto) :
    (loginUser lib host dto).Issues (Issued lib may) := by
  refine .bind (issues_query _) fun found => ?_
  refine .bind (issues_orThrow _ _) fun user => ?_
  refine .bind (issues_throwIf _ _) fun _ => ?_
  exact openSession_issues user

theorem refreshAccessToken_issues (incomingRefreshToken : String) :
    (refreshAccessToken lib host incomingRefreshToken).Issues
      (Issued lib may) := by
  refine .bind (issues_orThrow _ _) fun payload => ?_
  refine .bind (issues_query _) fun found => ?_
  refine .bind (issues_orThrow _ _) fun user => ?_
  refine .bind (issues_orThrow _ _) fun stored => ?_
  refine .bind (.whenever ?_) fun _ => openSession_issues user
  exact .bind (issues_statement (.updateUser _ _ _)) fun _ => issues_done _

/-! ## Routes -/

theorem handlePublic_issues (call : PublicCall) :
    (handlePublic lib host call).Issues (Issued lib may) := by
  cases call with
  | register dto =>
      exact issues_guarded (issues_respond (registerUser_issues dto))
  | login dto => exact issues_guarded (issues_respond (loginUser_issues dto))
  | refresh token => exact issues_respond (refreshAccessToken_issues token)

/-- The permits a call needs; all other calls do without. -/
def Call.Needs (caller : JwtPayload) (may : Permits) : Call → Prop
  | .approveTimesheet id =>
      may.decides caller.userId id ∧ may.books ∧ may.notifies
  | .rejectTimesheet _ _ => may.notifies
  | .deleteTimesheet id => may.edits id
  | .copyPreviousWeek _ _ => ∀ id, may.edits id
  | .createEntry timesheetId _ => may.edits timesheetId
  | .updateEntry _ entryId _ => may.changes entryId
  | .deleteEntry _ entryId => may.changes entryId
  | _ => True

theorem Call.needs_all (caller : JwtPayload) (call : Call) :
    call.Needs caller .all := by
  cases call <;> simp [Needs, Permits.all]

theorem handle_issues (caller : JwtPayload) (call : Call)
    (needs : call.Needs caller may) :
    (handle lib host caller call).Issues (Issued lib may) := by
  cases call with
  | logout =>
      exact issues_respond
        (issues_respond (issues_statement (.updateUser _ _ _)))
  | createTimesheet dto => exact issues_respond (createTimesheet_issues _ _ _)
  | copyPreviousWeek targetWeekStart force =>
      exact issues_respond (copyPreviousWeek_issues _ _ _ _ _ needs)
  | updateTimesheet id dto =>
      exact issues_respond (updateTimesheet_issues _ _ _ _)
  | deleteTimesheet id =>
      exact issues_respond (deleteTimesheet_issues _ _ _ needs)
  | submitTimesheet id => exact issues_respond (submitTimesheet_issues _ _ _)
  | createEntry timesheetId dto =>
      exact issues_guarded
        (issues_respond (createEntry_issues _ _ _ _ _ needs))
  | updateEntry timesheetId entryId dto =>
      exact issues_guarded
        (issues_respond (updateEntry_issues _ _ _ _ _ _ needs))
  | deleteEntry timesheetId entryId =>
      exact issues_respond (deleteEntry_issues _ _ _ _ needs)
  | approveTimesheet id =>
      exact issues_guarded
        (issues_respond (approveTimesheet_issues _ _ _ _ needs.1 needs.2.1
          needs.2.2))
  | rejectTimesheet id dto =>
      refine issues_guarded (issues_guarded ?_)
      exact issues_respond (rejectTimesheet_issues _ _ _ _ _ needs)
  | createProject dto =>
      refine issues_guarded (issues_guarded ?_)
      exact issues_respond (createProject_issues _ _ _ _)
  | updateProject id dto =>
      refine issues_guarded (issues_guarded ?_)
      exact issues_respond (updateProject_issues _ _ _ _ _)
  | deleteProject id =>
      exact issues_guarded (issues_respond (deleteProject_issues _ _))
  | createUser dto =>
      refine issues_guarded (issues_guarded ?_)
      exact issues_respond (createUser_issues _ _ _ _)
  | updateUser id dto =>
      refine issues_guarded (issues_guarded ?_)
      exact issues_respond (updateUser_issues _ _ _ _ _)
  | deactivateUser id =>
      exact issues_guarded (issues_respond (deactivateUser_issues _ _ _ _))
  | setUserManagers id managerIds =>
      refine issues_guarded (issues_guarded ?_)
      exact issues_respond (assignManagers_issues _ _ _)
  | createHoliday dto =>
      refine issues_guarded (issues_guarded ?_)
      exact issues_respond (issues_statement (.createHoliday _ _ _ _))
  | deleteHoliday id =>
      refine issues_guarded (issues_respond ?_)
      refine .bind (issues_query _) fun found => ?_
      refine .bind (issues_orThrow _ _) fun _ => ?_
      exact issues_statement (.deleteHoliday _)
  | updateSettings dto =>
      refine issues_guarded (issues_guarded ?_)
      exact issues_respond (issues_statement (.upsertSettings _ _))
  | markRead id =>
      refine issues_respond ?_
      refine .bind (issues_query _) fun found => ?_
      refine .bind (issues_orThrow _ _) fun _ => ?_
      exact issues_respond (issues_statement (.markRead _))
  | markAllRead => exact issues_respond (issues_statement (.markRead _))

end

/-! ## Requests in flight -/

/-- The program a request starts; the caller may be anyone. -/
def Request.program (lib : Libs) : Request → Service Response
  | .anonymous host call => handlePublic lib host call
  | .authenticated host caller call => handle lib host caller call

/-- Requests of any kind before their first statement. -/
def inFlight {ι : Type} (lib : Libs) (requests : ι → Request) (db : Db) :
    Pool Db Thrown Response ι where
  state := db
  threads i := (requests i).program lib

theorem Request.program_issues (lib : Libs) (request : Request) :
    (request.program lib).Issues (Issued lib .all) := by
  cases request with
  | anonymous host call => exact handlePublic_issues call
  | authenticated host caller call =>
      exact handle_issues caller call (call.needs_all caller)

end TmsApi
