import TmsApi.Refinement.Beside
import TmsApi.Refinement.Footprint
import TmsApi.Refinement.Requests

/-!
# Runs of the service

A world is sound when the foreign keys hold, every signed payload names a
member of its organisation and every timesheet belongs to a member of its
organisation.  Soundness holds in every reachable world, and from a sound
world each request is a change of the abstract system.  An invariant of the
timesheets therefore has two proof obligations, packaged in
`World.run_sheets`.
-/

namespace TmsApi

open TmsApi.Core
open TmsApi.Core.Program

/-! ## Owners of timesheets -/

section Owners

variable {lib : Libs} {host : Host} {caller : JwtPayload} {call : Call}
  {db after : Db}

/-- Every timesheet belongs to a member of its organisation. -/
def Db.Owned (db : Db) : Prop :=
  ∀ t ∈ db.timesheets.rows, db.Member t.userId t.organisationId

theorem Db.Owned.sheet (owned : db.Owned)
    (grows : db.Grows after) (member : db.Member caller.userId caller.orgId)
    (change : SheetChange host caller call db after) : after.Owned := by
  refine change.rows_keep (fun t tMem => grows.member _ _ (owned t tMem))
    ?_ ?_
  · intro data entries opens
    rw [← opens.owner, ← opens.org] at member
    exact grows.member _ _ member
  · intro t _ new becomes member
    cases becomes <;> exact member

theorem Db.Owned.beside (owned : db.Owned) (grows : db.Grows after)
    (beside : Beside db after) : after.Owned := by
  intro t tMem
  rw [beside.timesheets] at tMem
  exact grows.member _ _ (owned t tMem)

end Owners

/-! ## Signed payloads -/

section Tokens

variable {lib : Libs} {host : Host} {db : Db}

/-- The payload of an answered session names a member. -/
def SignsMember (answer : Except Thrown AuthResult) (after : Db) : Prop :=
  ∀ result, answer = .ok result →
    after.Member result.user.userId result.user.orgId

@[simp]
theorem signsMember_error (e : Thrown) : SignsMember (.error e) db :=
  fun _ absurd => by cases absurd

theorem openSession_signs {user : User}
    (member : db.Member user.id user.organisationId) :
    wp (openSession lib host user) SignsMember db := by
  simp only [openSession, wp_bind, wp_statement, andThen_ok, andThen_error,
    pure_eq, wp_done, signsMember_error, implies_true, true_and]
  intro u after wrote result same
  cases same
  exact (Prisma.userUpdate_grows _ _ _ _ _ _ wrote).member _ _ member

theorem registerUser_signs (dto : RegisterDto) :
    wp (registerUser lib host dto) SignsMember db := by
  simp only [registerUser, wp_bind, wp_query, wp_throwIf, wp_statement,
    andThen_ok, andThen_error, signsMember_error, implies_true, true_and]
  intro _ user after wrote
  refine openSession_signs ?_
  rcases bind_eq_ok.mp wrote with ⟨org, first, _, wrote⟩
  rcases bind_eq_ok.mp wrote with ⟨settings, second, _, created⟩
  simp only [Prisma.userCreate, ensure_eq_ok, Except.ok.injEq,
    Prod.mk.injEq] at created
  rcases created with ⟨_, _, _, rfl, rfl⟩
  exact ⟨_, (Table.mem_insert).mpr (.inr rfl), rfl, rfl⟩

theorem loginUser_signs (dto : LoginDto) :
    wp (loginUser lib host dto) SignsMember db := by
  simp only [loginUser, wp_bind, wp_query, wp_orThrow, wp_throwIf,
    andThen_ok, andThen_error, signsMember_error, implies_true, true_and]
  intro user active _
  have found := (Option.filter_eq_some_iff.mp active).1
  exact openSession_signs ⟨user, Table.mem_of_find? found, rfl, rfl⟩

theorem refreshAccessToken_signs (token : String) :
    wp (refreshAccessToken lib host token) SignsMember db := by
  simp only [refreshAccessToken, wp_bind, wp_query, wp_orThrow, wp_whenever,
    wp_statement, andThen_ok, andThen_error, throw_eq, wp_done,
    signsMember_error, implies_true, true_and]
  intro payload _ user found stored _ _
  exact openSession_signs ⟨user, Table.mem_of_find? found, rfl, rfl⟩

theorem handlePublic_signs (call : PublicCall) :
    wp (handlePublic lib host call)
      (fun answer after => ∀ p ∈ World.tokens answer,
        after.Member p.userId p.orgId) db := by
  have respond {program : Service AuthResult}
      (signs : wp program SignsMember db) :
      wp program
        (andThen (fun result => done (.ok (Response.session result)))
          (fun answer after => ∀ p ∈ World.tokens answer,
            after.Member p.userId p.orgId)) db := by
    refine wp_mono ?_ signs
    intro answer after signed
    cases answer with
    | ok result =>
        intro p member
        cases List.mem_singleton.mp member
        exact signed result rfl
    | error e => simp [andThen, World.tokens]
  cases call with
  | register dto =>
      simp only [handlePublic, validate, wp_bind, wp_throwIf, andThen_ok,
        andThen_error]
      exact ⟨fun _ => by simp [World.tokens], fun _ =>
        respond (registerUser_signs dto)⟩
  | login dto =>
      simp only [handlePublic, validate, wp_bind, wp_throwIf, andThen_ok,
        andThen_error]
      exact ⟨fun _ => by simp [World.tokens], fun _ =>
        respond (loginUser_signs dto)⟩
  | refresh token =>
      simp only [handlePublic, wp_bind]
      exact respond (refreshAccessToken_signs token)

end Tokens

/-! ## Sound worlds -/

namespace World

/-- What every reachable world satisfies. -/
structure Sound (world : World) : Prop where
  integrity : world.db.Integrity
  callers : ∀ p ∈ world.issued, world.db.Member p.userId p.orgId
  owned : world.db.Owned

theorem sound_empty : Sound empty where
  integrity := Db.integrity_empty
  callers := by simp [empty]
  owned := by
    intro t member
    simp [empty, Db.empty] at member

/-- A request as a change of the abstract system. -/
inductive Change (lib : Libs) (world : World) : Request → Db → Prop where
  | publicly {host : Host} {call : PublicCall} {after : Db}
      (changes :
        Relation.ReflTransGen (PublicChange lib host) world.db after) :
      Change lib world (.anonymous host call) after
  | effect {host : Host} {caller : JwtPayload} {call : Call} {after : Db}
      (signed : caller ∈ world.issued)
      (effect : Effect lib host caller call world.db after) :
      Change lib world (.authenticated host caller call) after
  | refused {host : Host} {caller : JwtPayload} {call : Call}
      (unsigned : caller ∉ world.issued) :
      Change lib world (.authenticated host caller call) world.db

variable {lib : Libs} {world : World}

/-- A signed request runs its route on the database. -/
theorem step_signed {host : Host} {caller : JwtPayload} {call : Call}
    (signed : caller ∈ world.issued) :
    (world.step lib (.authenticated host caller call)).db =
      ((handle lib host caller call).exec world.db).2 := by
  simp [step, serve, signed]

/-- Serving a request is a change of the abstract system. -/
theorem Sound.change (sound : world.Sound) (lib : Libs)
    (request : Request) :
    Change lib world request (world.step lib request).db := by
  cases request with
  | anonymous host call =>
      exact .publicly (handlePublic_chains call world.db)
  | authenticated host caller call =>
      by_cases signed : caller ∈ world.issued
      · have served : Effect lib host caller call world.db
            ((handle lib host caller call).exec world.db).2 :=
          Served.effect sound.integrity
            (handle_served sound.integrity call)
        rw [step_signed signed]
        exact .effect signed served
      · have refused :
            Change lib world (.authenticated host caller call) world.db :=
          .refused signed
        simpa [step, serve, signed] using refused

theorem step_grows (lib : Libs) (world : World) (request : Request) :
    world.db.Grows (world.step lib request).db := by
  have trans := fun s t u => @Db.Grows.trans s t u
  cases request with
  | anonymous host call =>
      exact (handlePublic_keeps lib host call).rel_exec Db.Grows.refl trans
        trivial
  | authenticated host caller call =>
      by_cases signed : caller ∈ world.issued
      · have grows := (handle_keeps lib host caller call).rel_exec
          Db.Grows.refl trans (s := world.db) trivial
        simpa [step, serve, signed] using grows
      · simpa [step, serve, signed] using Db.Grows.refl world.db

/-- A request changes one timesheet for its caller, or none at all. -/
theorem Sound.sheet_or_beside (sound : world.Sound) (lib : Libs)
    (request : Request) :
    (∃ host caller call, request = .authenticated host caller call ∧
        caller ∈ world.issued ∧
        SheetChange host caller call world.db (world.step lib request).db) ∨
      Beside world.db (world.step lib request).db := by
  cases request with
  | anonymous host call =>
      cases sound.change lib (.anonymous host call) with
      | publicly changes =>
          exact .inr (.of_chain (fun _ _ => PublicChange.beside) changes)
  | authenticated host caller call =>
      generalize made : (world.step lib
        (.authenticated host caller call)).db = after
      have change := sound.change lib (.authenticated host caller call)
      rw [made] at change
      cases change with
      | effect signed effect =>
          cases effect with
          | sheet change => exact .inl ⟨host, caller, call, rfl, signed, change⟩
          | side changes =>
              exact .inr (.of_chain (fun _ _ => SideChange.beside) changes)
      | refused => exact .inr (.refl world.db)

/-- The payloads in circulation after a request name members. -/
theorem Sound.signed (sound : world.Sound) (lib : Libs)
    (request : Request) :
    ∀ p ∈ (world.step lib request).issued,
      (world.step lib request).db.Member p.userId p.orgId := by
  have grows := step_grows lib world request
  cases request with
  | anonymous host call =>
      intro p member
      rcases List.mem_append.mp member with new | old
      · exact handlePublic_signs call p new
      · exact grows.member _ _ (sound.callers p old)
  | authenticated host caller call =>
      intro p member
      refine grows.member _ _ (sound.callers p ?_)
      by_cases signed : caller ∈ world.issued <;>
        simpa [step, serve, signed] using member

theorem Sound.step (sound : world.Sound) (lib : Libs)
    (request : Request) : (world.step lib request).Sound := by
  have grows := step_grows lib world request
  refine ⟨grows.integrity sound.integrity, sound.signed lib request, ?_⟩
  rcases sound.sheet_or_beside lib request with
    ⟨host, caller, call, _, signed, change⟩ | beside
  · exact sound.owned.sheet grows (sound.callers caller signed) change
  · exact sound.owned.beside grows beside

theorem sound_run (lib : Libs) (requests : List Request) :
    (empty.run lib requests).Sound :=
  run_invariant (fun _ request sound => sound.step lib request) sound_empty
    requests

/--
An invariant of the timesheets: it holds of the empty database, and sheet
changes and changes beside the timesheets keep it.
-/
theorem run_sheets {inv : Db → Prop} (start : inv .empty)
    (sheet : ∀ host caller call db after, db.Integrity → inv db →
      SheetChange host caller call db after → inv after)
    (beside : ∀ db after, db.Integrity → inv db → Beside db after →
      inv after)
    (lib : Libs) (requests : List Request) :
    inv (empty.run lib requests).db := by
  have kept : ∀ (world : World) (request : Request),
      world.Sound ∧ inv world.db →
        (world.step lib request).Sound ∧ inv (world.step lib request).db := by
    rintro world request ⟨sound, holds⟩
    refine ⟨sound.step lib request, ?_⟩
    rcases sound.sheet_or_beside lib request with
      ⟨host, caller, call, _, _, change⟩ | change
    · exact sheet host caller call _ _ sound.integrity holds change
    · exact beside _ _ sound.integrity holds change
  exact (run_invariant kept ⟨sound_empty, start⟩ requests).2

end World

/-! ## A deployment to evaluate runs on -/

/-- Packages that collate, hash and compare plainly. -/
def plainLibs : Libs where
  collate s := s
  isEmail _ := true
  bcryptHash password _ := password
  bcryptCompare password hash := password == hash
  jwtSign _ _ _ := ""
  jwtVerify _ _ _ := none

/-- A server in UTC on the first of January 2024, a Monday. -/
def plainHost : Host where
  zone := .fixed 0
  now := 1704067200000
  salt := 0

/-- A date of January 2024. -/
def january (day : Nat) : IsoDate := ⟨2024, 1, Fin.ofNat 100 day⟩

/-- A body that changes no setting. -/
def sameSettings : UpdateSettingsDto where
  workWeekStart := none
  standardHours := none
  timeFormat := none
  timeIncrement := none
  maxHoursPerDay := none
  maxHoursPerWeek := none
  requireApproval := none
  allowBackdated := none
  enableOvertime := none
  mandatoryDesc := none
  allowCopyWeek := none
  dailyReminderTime := none
  weeklyDeadline := none
  payrollType := none
  pmType := none

namespace Request

/-- A new organisation; its administrator signs in with the answer. -/
def register (organisation email : String) : Request :=
  .anonymous plainHost
    (.register ⟨organisation, "Ada", email, "password"⟩)

def login (email : String) : Request :=
  .anonymous plainHost (.login ⟨email, "password"⟩)

/-- An administrator creates a user in a role. -/
def addUser (admin : JwtPayload) (email : String) (role : UserRole) :
    Request :=
  .authenticated plainHost admin
    (.createUser
      { name := "Eve"
        email := email
        password := "password"
        role := some role
        department := none
        managerIds := none
        projectIds := none })

def setSettings (admin : JwtPayload) (dto : UpdateSettingsDto) : Request :=
  .authenticated plainHost admin (.updateSettings dto)

/-- A project without budget, managers or employees. -/
def addProject (caller : JwtPayload) (code : String) : Request :=
  .authenticated plainHost caller
    (.createProject
      { code := code
        name := code
        client := "client"
        budgetHours := none
        status := none
        managerIds := none
        employeeIds := none })

end Request

/-- Hours on Monday and none on the other days. -/
def onMonday (hours : ℚ) : Week (Option ℚ) :=
  { Week.const none with mon := some hours }

/-- An entry of one day on a project. -/
def mondayEntry (projectId : Nat) (hours : ℚ) : CreateTimeEntryDto where
  projectId := projectId
  billable := none
  hours := onMonday hours
  desc := .const none
  timeOff := .const none

/-! ## A timesheet to evaluate requests on -/

/-- The administrator of `officeRun`. -/
def ada : JwtPayload := ⟨1, 1, .admin⟩

/-- The manager of `officeRun`. -/
def eve : JwtPayload := ⟨2, 1, .manager⟩

/-- Eve's draft with eight hours on a project. -/
def officeRun : List Request :=
  [.register "acme" "ada@acme", .addProject ada "A",
    .addUser ada "eve@acme" .manager, .login "eve@acme",
    .authenticated plainHost eve (.createTimesheet ⟨january 1⟩),
    .authenticated plainHost eve (.createEntry 1 (mondayEntry 1 8))]

def officeDb : Db := (World.empty.run plainLibs officeRun).db

/-- The same timesheet after its submission. -/
def submittedDb : Db :=
  (World.empty.run plainLibs
    (officeRun ++ [.authenticated plainHost eve (.submitTimesheet 1)])).db

theorem submittedDb_integrity : submittedDb.Integrity :=
  (World.sound_run plainLibs _).integrity

/-- Eve's timesheet, which Ada may decide. -/
theorem mem_submittedDb :
    ∃ t ∈ submittedDb.timesheets.rows, t.id = 1 ∧
      MayDecide ada submittedDb t := by
  have row : ∃ t ∈ submittedDb.timesheets.rows, t.id = 1 ∧
      t.organisationId = 1 ∧ t.userId = 2 ∧ t.status = .submitted := by
    decide +kernel
  rcases row with ⟨t, member, key, org, owner, submitted⟩
  refine ⟨t, member, key, ?_⟩
  exact
    { member := member
      org := org
      other := by
        rw [owner]
        decide
      role := .inr rfl
      report := fun absurd => by cases absurd
      submitted := submitted }

end TmsApi
