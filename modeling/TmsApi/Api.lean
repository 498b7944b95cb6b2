import TmsApi.Services.Timesheets
import TmsApi.Services.Approvals
import TmsApi.Services.Projects
import TmsApi.Services.Users
import TmsApi.Services.Office

/-!
# Routes and runs

The writing routes of the API with the middleware each of them is mounted
behind: `requireRole` for the roles of the route and `validate` for the schema
of its body.  `copy-previous-week` has no schema, so its target date is
whatever `new Date(..)` makes of the body.

A `World` is the database together with the payloads of the tokens the server
has signed.  Serving a request runs its program to completion; a request whose
token was never signed is answered 401 and changes nothing.  A run is a list
of requests served one after another.
-/

namespace TmsApi

open TmsApi.Core
open TmsApi.Core.Program

/-- Routes that need no token. -/
inductive PublicCall where
  | register (dto : RegisterDto)
  | login (dto : LoginDto)
  | refresh (token : String)

/-- Writing routes behind `authenticate`. -/
inductive Call where
  | logout
  | createTimesheet (dto : CreateTimesheetDto)
  | copyPreviousWeek (targetWeekStart : JsDate) (force : Bool)
  | updateTimesheet (id : Nat) (dto : UpdateTimesheetDto)
  | deleteTimesheet (id : Nat)
  | submitTimesheet (id : Nat)
  | createEntry (timesheetId : Nat) (dto : CreateTimeEntryDto)
  | updateEntry (timesheetId entryId : Nat) (dto : UpdateTimeEntryDto)
  | deleteEntry (timesheetId entryId : Nat)
  | approveTimesheet (id : Nat)
  | rejectTimesheet (id : Nat) (dto : RejectTimesheetDto)
  | createProject (dto : CreateProjectDto)
  | updateProject (id : Nat) (dto : UpdateProjectDto)
  | deleteProject (id : Nat)
  | createUser (dto : CreateUserDto)
  | updateUser (id : Nat) (dto : UpdateUserDto)
  | deactivateUser (id : Nat)
  | setUserManagers (id : Nat) (managerIds : List Nat)
  | createHoliday (dto : CreateHolidayDto)
  | deleteHoliday (id : Nat)
  | updateSettings (dto : UpdateSettingsDto)
  | markRead (id : Nat)
  | markAllRead

/-- The data of a successful response. -/
inductive Response where
  | session (result : AuthResult)
  | timesheet (row : Timesheet)
  | copied (row : Timesheet) (skippedCount : Nat)
  | entry (row : TimeEntry)
  | project (row : Project)
  | user (row : User)
  | holiday (row : Holiday)
  | settings (row : OrgSettings)
  | notification (row : Notification)
  | message (text : String)

/-- The error text of a rejected body. -/
def issueText (issues : List Issue) : String :=
  "; ".intercalate (issues.map fun i => i.path ++ ": " ++ i.message)

/-- The `validate` middleware. -/
def validate (issues : List Issue) : Service PUnit :=
  throwIf (issues ≠ []) (.validationError (issueText issues))

/-- The `requireRole` middleware. -/
def requireRole (roles : List UserRole) (role : UserRole) : Service PUnit :=
  throwIf (role ∉ roles) (.forbidden "Insufficient permissions")

section

variable (lib : Libs) (host : Host)

/-- The public routes. -/
def handlePublic : PublicCall → Service Response
  | .register dto => do
      validate (Schemas.registerSchema lib.isEmail dto)
      let result ← registerUser lib host dto
      return .session result
  | .login dto => do
      validate (Schemas.loginSchema lib.isEmail dto)
      let result ← loginUser lib host dto
      return .session result
  | .refresh token => do
      let result ← refreshAccessToken lib host token
      return .session result

/-- The authenticated routes, after `req.user = caller`. -/
def handle (caller : JwtPayload) : Call → Service Response
  | .logout => do
      logoutUser host caller.userId
      return .message "Logged out successfully"
  | .createTimesheet dto => do
      let row ← TmsApi.createTimesheet host caller.userId caller.orgId dto
      return .timesheet row
  | .copyPreviousWeek targetWeekStart force => do
      let result ← TmsApi.copyPreviousWeek host caller.userId caller.orgId
        targetWeekStart caller.role force
      return .copied result.1 result.2
  | .updateTimesheet id dto => do
      let row ←
        TmsApi.updateTimesheet host id caller.userId caller.orgId dto
      return .timesheet row
  | .deleteTimesheet id => do
      TmsApi.deleteTimesheet id caller.userId caller.orgId
      return .message "Timesheet deleted"
  | .submitTimesheet id => do
      let row ← TmsApi.submitTimesheet host id caller.userId caller.orgId
      return .timesheet row
  | .createEntry timesheetId dto => do
      validate (Schemas.createTimeEntrySchema dto)
      let row ← TmsApi.createEntry host timesheetId caller.userId
        caller.orgId dto caller.role
      return .entry row
  | .updateEntry timesheetId entryId dto => do
      validate (Schemas.updateTimeEntrySchema dto)
      let row ← TmsApi.updateEntry host timesheetId entryId caller.userId
        caller.orgId dto caller.role
      return .entry row
  | .deleteEntry timesheetId entryId => do
      TmsApi.deleteEntry host timesheetId entryId caller.userId caller.orgId
      return .message "Entry deleted"
  | .approveTimesheet id => do
      requireRole [.manager, .admin] caller.role
      let row ← TmsApi.approveTimesheet host id caller.userId caller.orgId
        caller.role
      return .timesheet row
  | .rejectTimesheet id dto => do
      requireRole [.manager, .admin] caller.role
      validate (Schemas.rejectTimesheetSchema dto)
      let row ← TmsApi.rejectTimesheet host id caller.userId caller.orgId
        dto.reason caller.role
      return .timesheet row
  | .createProject dto => do
      requireRole [.manager, .admin] caller.role
      validate (Schemas.createProjectSchema dto)
      let row ← TmsApi.createProject lib host caller.orgId dto caller.userId
        caller.role
      return .project row
  | .updateProject id dto => do
      requireRole [.manager, .admin] caller.role
      validate (Schemas.updateProjectSchema dto)
      let row ← TmsApi.updateProject lib host id caller.orgId dto
        caller.userId caller.role
      return .project row
  | .deleteProject id => do
      requireRole [.manager, .admin] caller.role
      TmsApi.deleteProject id caller.orgId
      return .message "Project deleted"
  | .createUser dto => do
      requireRole [.manager, .admin] caller.role
      validate (Schemas.createUserSchema lib.isEmail dto)
      let row ← TmsApi.createUser lib host caller.orgId dto caller.userId
        caller.role
      return .user row
  | .updateUser id dto => do
      requireRole [.manager, .admin] caller.role
      validate (Schemas.updateUserSchema dto)
      let row ← TmsApi.updateUser host id caller.orgId dto
        caller.userId caller.role
      return .user row
  | .deactivateUser id => do
      requireRole [.manager, .admin] caller.role
      TmsApi.deactivateUser host id caller.orgId caller.userId
        caller.role
      return .message "User deactivated"
  | .setUserManagers id managerIds => do
      requireRole [.admin] caller.role
      validate (Schemas.setUserManagersSchema managerIds)
      assignManagers id managerIds caller.orgId
      return .message "Managers updated"
  | .createHoliday dto => do
      requireRole [.admin] caller.role
      validate (Schemas.createHolidaySchema dto)
      let row ← TmsApi.createHoliday caller.orgId dto
      return .holiday row
  | .deleteHoliday id => do
      requireRole [.admin] caller.role
      TmsApi.deleteHoliday id caller.orgId
      return .message "Holiday deleted"
  | .updateSettings dto => do
      requireRole [.admin] caller.role
      validate (Schemas.updateSettingsSchema dto)
      let row ← TmsApi.updateSettings caller.orgId dto
      return .settings row
  | .markRead id => do
      let row ← markAsRead id caller.userId
      return .notification row
  | .markAllRead => do
      markAllAsRead caller.userId
      return .message "All notifications marked as read"

end

/-! ## Runs -/

/-- A request with the process state it meets. -/
inductive Request where
  | anonymous (host : Host) (call : PublicCall)
  | authenticated (host : Host) (caller : JwtPayload) (call : Call)

/-- The database and the payloads of all tokens signed so far. -/
structure World where
  db : Db
  issued : List JwtPayload

namespace World

/-- A fresh deployment. -/
def empty : World where
  db := .empty
  issued := []

/-- The tokens a response puts into circulation. -/
def tokens : Except Thrown Response → List JwtPayload
  | .ok (.session result) => [result.user]
  | _ => []

/-- The answer to a request and the world after it. -/
def serve (lib : Libs) (world : World) :
    Request → Except Thrown Response × World
  | .anonymous host call =>
      let (answer, db) := (handlePublic lib host call).exec world.db
      (answer, { db := db, issued := tokens answer ++ world.issued })
  | .authenticated host caller call =>
      if caller ∈ world.issued then
        let (answer, db) := (handle lib host caller call).exec world.db
        (answer, { world with db := db })
      else
        (.error (.unauthorizedError "No token provided"), world)

/-- The world after a request. -/
def step (lib : Libs) (world : World) (request : Request) : World :=
  (world.serve lib request).2

/-- The world after a list of requests. -/
def run (lib : Libs) (world : World) (requests : List Request) : World :=
  requests.foldl (step lib) world

/-- Every request of a run meets a condition in the world it is served in. -/
def Along (condition : World → Request → Prop) (lib : Libs) :
    World → List Request → Prop
  | _, [] => True
  | world, request :: requests =>
      condition world request ∧
        Along condition lib (world.step lib request) requests

/-- A property kept by the requests that meet a condition. -/
theorem run_along {lib : Libs} {inv : World → Prop}
    {condition : World → Request → Prop}
    (preserved : ∀ world request, inv world → condition world request →
      inv (world.step lib request))
    {world : World} (start : inv world) {requests : List Request}
    (met : Along condition lib world requests) :
    inv (world.run lib requests) := by
  induction requests generalizing world with
  | nil => exact start
  | cons request requests ih =>
      exact ih (preserved world request start met.1) met.2

/-- A condition on the requests alone is met along every run of them. -/
theorem along_of_forall {lib : Libs} {condition : Request → Prop}
    {requests : List Request}
    (met : ∀ request ∈ requests, condition request) (world : World) :
    Along (fun _ => condition) lib world requests := by
  induction requests generalizing world with
  | nil => trivial
  | cons request requests ih =>
      exact ⟨met request List.mem_cons_self,
        ih (fun later member => met later (List.mem_cons_of_mem _ member)) _⟩

/-- A property of the empty world kept by every request holds after a run. -/
theorem run_invariant {lib : Libs} {inv : World → Prop}
    (preserved : ∀ world request, inv world → inv (world.step lib request))
    {world : World} (start : inv world) (requests : List Request) :
    inv (world.run lib requests) := by
  induction requests generalizing world with
  | nil => exact start
  | cons request requests ih => exact ih (preserved world request start)

/-- A property of all states of a run. -/
def Always (inv : World → Prop) (lib : Libs) (world : World)
    (requests : List Request) : Prop :=
  ∀ initial, initial <+: requests → inv (world.run lib initial)

instance {inv : World → Prop} [DecidablePred inv] (lib : Libs)
    (world : World) (requests : List Request) :
    Decidable (Always inv lib world requests) :=
  decidable_of_iff
    (∀ initial ∈ requests.inits, inv (world.run lib initial))
    (by simp only [Always, List.mem_inits])

theorem Always.here {inv : World → Prop} {lib : Libs} {world : World}
    {requests : List Request} (always : Always inv lib world requests) :
    inv world :=
  always [] (by simp)

theorem Always.tail {inv : World → Prop} {lib : Libs} {world : World}
    {request : Request} {requests : List Request}
    (always : Always inv lib world (request :: requests)) :
    Always inv lib (world.step lib request) requests :=
  fun initial within =>
    always (request :: initial) (List.cons_prefix_cons.mpr ⟨rfl, within⟩)

theorem always_cons {inv : World → Prop} {lib : Libs} {world : World}
    {request : Request} {requests : List Request} (here : inv world)
    (tail : Always inv lib (world.step lib request) requests) :
    Always inv lib world (request :: requests) := by
  intro initial within
  cases initial with
  | nil => exact here
  | cons other initial =>
      rcases List.cons_prefix_cons.mp within with ⟨rfl, rest⟩
      exact tail initial rest

/--
Where each request keeps a property exactly when it meets a condition, the
property holds in all states of a run exactly when every request meets it.
-/
theorem always_iff_along {lib : Libs} {good inv steady : World → Prop}
    {condition : World → Request → Prop}
    (keeps : ∀ world request, good world → good (world.step lib request))
    (exactly : ∀ world request, good world → steady world → inv world →
      (inv (world.step lib request) ↔ condition world request))
    {world : World} {requests : List Request} (start : good world)
    (holds : inv world) (constant : Always steady lib world requests) :
    Always inv lib world requests ↔ Along condition lib world requests := by
  induction requests generalizing world with
  | nil =>
      constructor
      · exact fun _ => trivial
      · intro _ initial within
        rw [List.prefix_nil.mp within]
        exact holds
  | cons request requests ih =>
      have first := exactly world request start constant.here holds
      constructor
      · intro always
        have next := always.tail.here
        exact ⟨first.mp next,
          (ih (keeps _ _ start) next constant.tail).mp always.tail⟩
      · intro along
        have next := first.mpr along.1
        exact always_cons holds
          ((ih (keeps _ _ start) next constant.tail).mpr along.2)

@[simp]
theorem run_append (lib : Libs) (world : World)
    (first second : List Request) :
    world.run lib (first ++ second) =
      (world.run lib first).run lib second := by
  simp [run]

end World

end TmsApi
