import TmsApi.Properties.Tenants
import TmsApi.Properties.EntryWrites
import TmsApi.Refinement.Lineage
import TmsApi.Refinement.Sessions

/-!
# Isolation of the tenants

Three kinds of requests make a row of one tenant refer to a row of another:
an administrator sets the managers of a foreign user, a project request names
a foreign user, and an update moves an entry to a foreign project.  While
nobody makes such a request the tenants stay separated.  Then the reading
routes answer as if the other tenants did not exist, and no request of
theirs changes an answer.
-/

namespace TmsApi

open TmsApi.Core
open TmsApi.Core.Program

/-! ## Entries on foreign projects -/

/-- An accepted update moves an entry to a project of another organisation. -/
def MovesForeign (db : Db) (caller : JwtPayload) : Call → Prop
  | .updateEntry timesheetId entryId dto =>
      Schemas.updateTimeEntrySchema dto = [] ∧
        ∃ t e, t.id = timesheetId ∧ e.id = entryId ∧
          MayUpdate caller db t e dto ∧
            ∃ id ∈ dto.projectId, ¬ db.OrgProject id caller.orgId
  | _ => False

/-- The entries are on projects of the organisation. -/
def Db.OnOwn (db : Db) (orgId : Nat) (entries : List TimeEntry) : Prop :=
  ∀ e ∈ entries, db.OrgProject e.projectId orgId

theorem onOwn_passesOn (db : Db) (orgId : Nat) : PassesOn (db.OnOwn orgId) :=
  passesOn_content fun data => db.OrgProject data.projectId orgId

theorem Db.EntriesInside.onOwn {db : Db} (inside : db.EntriesInside)
    (orgId : Nat) : db.AllSheets orgId (db.OnOwn orgId) := by
  rintro t row rfl e listed
  rcases Db.mem_entriesOf.mp listed with ⟨eRow, key⟩
  exact inside e eRow t row key.symm

namespace World

variable {lib : Libs} {world : World} {request : Request}

/-- An update moves an entry to a foreign project. -/
def MovesForeign (world : World) : Request → Prop
  | .authenticated _ caller call =>
      caller ∈ world.issued ∧ TmsApi.MovesForeign world.db caller call
  | .anonymous _ _ => False

/-- A created entry is on a project that was looked up for the caller. -/
theorem onOwn_obeyed (inside : world.db.EntriesInside)
    (clean : ¬ world.MovesForeign request) (orgId : Nat) :
    Obeys orgId (world.db.OnOwn orgId) world request := by
  cases request with
  | anonymous host call => trivial
  | authenticated host caller call =>
      have old (t : Timesheet) (owns : Owns caller world.db t) :
          world.db.OnOwn caller.orgId (world.db.entriesOf t.id) :=
        inside.onOwn caller.orgId t owns.member owns.org
      cases call with
      | createEntry id dto =>
          rintro signed rfl accepted t rfl may
          exact (forall_afterCreate (old t may.owns)).mpr may.project
      | updateEntry id entryId dto =>
          rintro signed rfl accepted t e rfl rfl may
          refine (forall_afterUpdate may.entry (old t may.owns)).mpr ?_
          cases moved : dto.projectId with
          | none =>
              simpa [mergedEntry, TimeEntryUpdate.apply, moved]
                using old t may.owns e may.entry
          | some project =>
              have home : world.db.OrgProject project caller.orgId := by
                by_contra foreign
                exact clean ⟨signed, accepted, t, e, rfl, rfl, may, project,
                  moved, foreign⟩
              simpa [mergedEntry, TimeEntryUpdate.apply, moved] using home
      | _ => trivial

theorem Sound.entriesInside (sound : world.Sound) (totals : Totals world.db)
    (inside : world.db.EntriesInside) (clean : ¬ world.MovesForeign request) :
    (world.step lib request).db.EntriesInside := by
  intro e eRow t tRow key
  have kept := run_kept lib world [request]
  have home : world.db.OrgProject e.projectId t.organisationId :=
    sound.rule_kept totals (onOwn_passesOn _ _) (inside.onOwn _)
      (onOwn_obeyed inside clean _) t tRow rfl e
      (Db.mem_entriesOf.mpr ⟨eRow, key.symm⟩)
  -- A project that entries refer to is still there, with its organisation.
  rcases home with ⟨p, row, pKey, org⟩
  rcases (sound.step lib request).integrity.entry_project e eRow with
    ⟨q, qRow, qKey⟩
  have same := kept.projects.reads_eq row qRow (qKey.trans pKey.symm)
  have orgs : q.organisationId = p.organisationId :=
    congrArg (fun reads => reads.2.1) same
  exact ⟨q, qRow, qKey, orgs.trans org⟩

/-- The request makes a row of one tenant refer to a row of another. -/
def Crosses (lib : Libs) (world : World) (request : Request) : Prop :=
  world.SetsForeign request ∨ world.StaffsForeign lib request ∨
    world.MovesForeign request

/-- A reachable world with separated tenants. -/
structure Tenanted (world : World) : Prop where
  sound : world.Sound
  totals : Totals world.db
  separated : world.db.Separated
  ordered : world.db.Ordered

theorem tenanted_empty : Tenanted empty where
  sound := sound_empty
  totals := totals_empty
  separated := by
    have nobody {Row : Type} {p : Row → Prop} :
        ∀ row ∈ ([] : List Row), p row := fun _ absurd => by cases absurd
    exact ⟨nobody, nobody, ⟨nobody, nobody⟩, nobody⟩
  ordered := Db.ordered_empty

theorem Tenanted.step (tenanted : world.Tenanted)
    (clean : ¬ world.Crosses lib request) :
    (world.step lib request).Tenanted := by
  have sound := tenanted.sound
  have separated := tenanted.separated
  have apart := not_or.mp clean
  have apart' := not_or.mp apart.2
  exact
    { sound := sound.step lib request
      totals := sound.totals_step tenanted.totals request
      separated :=
        { owned := (sound.step lib request).owned
          links := sound.oneOrganisation separated.links apart.1
          staff := sound.staffedInside separated.staff apart'.1
          entries := sound.entriesInside tenanted.totals separated.entries
            apart'.2 }
      ordered := (run_kept lib world [request]).ordered tenanted.ordered }

theorem tenanted_run {requests : List Request}
    (met : Along (fun world request => ¬ world.Crosses lib request) lib .empty
      requests) : (empty.run lib requests).Tenanted :=
  run_along (fun _ _ tenanted clean => tenanted.step clean) tenanted_empty met

end World

/-! ## The staff of foreign projects -/

/-- The links of the projects of an organisation stay as they are. -/
structure KeepsStaff (orgId : Nat) (start before after : Db) : Prop where
  managers :
    after.projectManagers.select (fun r => start.OrgProject r.projectId orgId) =
      before.projectManagers.select fun r => start.OrgProject r.projectId orgId
  employees :
    after.projectEmployees.select
        (fun r => start.OrgProject r.projectId orgId) =
      before.projectEmployees.select fun r => start.OrgProject r.projectId orgId

section Staff

variable {lib : Libs} {host : Host} {caller : JwtPayload} {call : Call}
  {orgId : Nat} {start before db after : Db}

theorem KeepsStaff.of_same
    (managers : after.projectManagers = before.projectManagers)
    (employees : after.projectEmployees = before.projectEmployees) :
    KeepsStaff orgId start before after :=
  ⟨by rw [managers], by rw [employees]⟩

theorem KeepsStaff.trans (left : KeepsStaff orgId start before db)
    (right : KeepsStaff orgId start db after) :
    KeepsStaff orgId start before after :=
  ⟨right.managers.trans left.managers, right.employees.trans left.employees⟩

end Staff

/-! ## Requests of strangers -/

section Authenticated

variable {orgId home : Nat} {db after : Db}

end Authenticated

section Anonymous

variable {lib : Libs} {host : Host} {orgId : Nat} {db after : Db}

theorem SameTenant.setUser {u : User} (row : u ∈ db.users.rows)
    (foreign : u.organisationId ≠ orgId) (now : Instant) (data : UserUpdate) :
    SameTenant orgId db (db.setUser now u.id data) := by
  refine { SameTenant.refl orgId db with
    users := Table.select_modify fun other otherRow key => ?_ }
  cases db.users.eq_of_key otherRow row key
  exact ⟨foreign, foreign⟩

/-- A new organisation is not this one. -/
theorem SameTenant.addOrganisation (known : db.organisations.HasKey orgId)
    (dto : RegisterDto) (passwordHash : String) :
    SameTenant orgId db (db.addOrganisation host dto passwordHash) := by
  have fresh : db.organisations.next ≠ orgId := Nat.ne_of_gt known.below
  refine { SameTenant.refl orgId db with settings := ?_, users := ?_ }
  · refine (Table.select_insert _).trans ?_
    exact (congrArg (_ ++ ·) (if_neg fresh)).trans (List.append_nil _)
  · refine (Table.select_insert _).trans ?_
    exact (congrArg (_ ++ ·) (if_neg fresh)).trans (List.append_nil _)

end Anonymous

/-! ## Runs -/

namespace World

variable {lib : Libs} {world : World} {request : Request} {orgId : Nat}

/-- What is met along a run is met along both of its parts. -/
theorem along_append {condition : World → Request → Prop}
    {first second : List Request} :
    Along condition lib world (first ++ second) ↔
      Along condition lib world first ∧
        Along condition lib (world.run lib first) second := by
  induction first generalizing world with
  | nil => exact (and_iff_right trivial).symm
  | cons request requests ih =>
      exact (and_congr_right fun _ => ih).trans and_assoc.symm

end World

/-! ## Two tenants -/

/-- The administrator of the second organisation. -/
def zoe : JwtPayload := ⟨2, 2, .admin⟩

/-- Two organisations with a second user in the first. -/
def tenantsRun : List Request :=
  [.register "acme" "ada@acme", .register "bolt" "zoe@bolt",
    .addUser ada "eve@acme" .manager]

/-- What the second organisation goes on to do. -/
def boltRun : List Request :=
  [.addUser zoe "fay@bolt" .employee, .login "fay@bolt",
    .addProject zoe "B"]

section

variable {lib : Libs} {world : World} {host : Host}

theorem anonymous_inside (call : PublicCall) :
    ¬ world.Crosses lib (.anonymous host call) := by
  rintro (sets | staffs | moves)
  · exact sets
  · exact staffs
  · exact moves

/-- Users are created in the organisation of the caller. -/
theorem addUser_inside (admin : JwtPayload) (email : String)
    (role : UserRole) : ¬ world.Crosses lib (.addUser admin email role) := by
  rintro (sets | staffs | moves)
  · exact sets.2
  · exact staffs.2
  · exact moves.2

/-- A project of an administrator that names nobody. -/
theorem addProject_inside (code : String) :
    ¬ world.Crosses lib (.addProject zoe code) := by
  rintro (sets | ⟨_, _, _, _, id, given, _⟩ | moves)
  · exact sets.2
  · exact List.not_mem_nil given
  · exact moves.2

theorem tenantsRun_inside :
    World.Along (fun world request => ¬ world.Crosses plainLibs request)
      plainLibs .empty (tenantsRun ++ boltRun) :=
  ⟨anonymous_inside _, anonymous_inside _, addUser_inside _ _ _,
    addUser_inside _ _ _, anonymous_inside _, addProject_inside _, trivial⟩

end

/-! ## What a tenant reads -/

section

variable (lib : Libs) (parseDate : String → JsDate)
  (numberToString : ℚ → String) (host : Host)

/--
While no request makes a row of one tenant refer to a row of another, every
reading route answers a caller as if the database had no rows but those of the
caller's organisation.
-/
theorem answers_from_own_rows (requests : List Request)
    (clean : World.Along (fun world request => ¬ world.Crosses lib request)
      lib .empty requests)
    (caller : JwtPayload)
    (signed : caller ∈ (World.empty.run lib requests).issued)
    (query : Query) :
    let db := (World.empty.run lib requests).db
    let reading := handleQuery parseDate numberToString host caller query
    (reading.exec db).1 = (reading.exec (db.only caller.orgId)).1 := by
  have tenanted := World.tenanted_run clean
  have twins : Twins caller.orgId (World.empty.run lib requests).db
      ((World.empty.run lib requests).db.only caller.orgId) :=
    { same := .only _ _
      left := tenanted.separated
      right := tenanted.separated.only _ }
  exact (twins.handleQuery_alike (tenanted.sound.callers caller signed)
    parseDate numberToString host query).answers

/-- Ada's list of users where the second organisation has one, too. -/
theorem answers_from_own_rows_ada :
    let db := (World.empty.run plainLibs tenantsRun).db
    let reading := handleQuery (fun _ => none) (fun _ => "") plainHost ada
      (.listUsers ⟨none, none⟩)
    (reading.exec db).1 = (reading.exec (db.only 1)).1 ∧
      db.users.rows.length = 3 ∧ (db.only 1).users.rows.length = 2 := by
  refine ⟨?_, by decide +kernel, by decide +kernel⟩
  exact answers_from_own_rows plainLibs _ _ plainHost tenantsRun
    (World.along_append.mp tenantsRun_inside).1 ada (by decide +kernel) _

/-- With a manager from the other organisation a tenant reads of it. -/
example :
    let db := (World.empty.run plainLibs (foreignManagerRun 1)).db
    (db.usersOf (db.managerIds 1 1)).map (·.email) = ["ada@acme"] ∧
      (db.only 1).usersOf ((db.only 1).managerIds 1 1) = [] := by
  decide +kernel

end

end TmsApi
