import TmsApi.Refinement.TeamRuns
import TmsApi.Properties.Tenancy

/-!
# The manager hierarchy

Two invariants of the rows that link a manager to an employee.  Both ends of
a row belong to one organisation, as long as no administrator sets the
managers of a user of another organisation: `setUserManagers` hands the user
it is given to `assignManagers`, which only validates the managers.  And in
every reachable state a row links two different users, of whom the manager
has the role for it: a demotion removes the rows before the request can end.
-/

namespace TmsApi

open TmsApi.Core
open TmsApi.Core.Program

/-! ## One organisation -/

namespace Db

/-- Both users of a link belong to one organisation. -/
def Linked (db : Db) (managerId employeeId : Nat) : Prop :=
  ∃ orgId, db.Member managerId orgId ∧ db.Member employeeId orgId

/-- Every row of the hierarchy links users of one organisation. -/
def OneOrganisation (db : Db) : Prop :=
  ∀ r ∈ db.managerEmployees.rows, db.Linked r.managerId r.employeeId

theorem Linked.grows {before after : Db} {managerId employeeId : Nat}
    (linked : before.Linked managerId employeeId)
    (grows : before.Grows after) : after.Linked managerId employeeId := by
  rcases linked with ⟨orgId, manager, employee⟩
  exact ⟨orgId, grows.member _ _ manager, grows.member _ _ employee⟩

end Db

/--
An administrator sets the managers of a user of another organisation, and the
request is accepted and changes something.
-/
def ManagesForeign (db : Db) (caller : JwtPayload) : Call → Prop
  | .setUserManagers id managerIds =>
      caller.role = .admin ∧
        Schemas.setUserManagersSchema managerIds = [] ∧
        db.ForeignUser caller.orgId id ∧ managerIds.Nodup ∧
        (∀ managerId ∈ managerIds, db.validManager caller.orgId managerId) ∧
        (managerIds ≠ [] ∨
          ∃ r ∈ db.managerEmployees.rows, r.employeeId = id)
  | _ => False

/-- The same links for the users of other organisations. -/
def SameReports (orgId : Nat) (before after : Db) : Prop :=
  Table.Agrees (fun r => before.ForeignUser orgId r.employeeId)
    before.managerEmployees after.managerEmployees

section Steps

variable {lib : Libs} {host : Host} {caller : JwtPayload} {call : Call}
  {start db after : Db}

theorem Db.validManager.member {orgId id : Nat}
    (valid : db.validManager orgId id) : db.Member id orgId := by
  rcases valid with ⟨u, member, key, org, _⟩
  exact ⟨u, member, key, org⟩

theorem Reaches.member {id : Nat} (reach : Reaches caller start db id)
    (grows : start.Grows db) : db.Member id caller.orgId := by
  cases reach with
  | managed manages => exact grows.member _ _ manages.member
  | created fresh member => exact member

/-- A user a request reaches is not one of another organisation. -/
theorem Reaches.not_foreign {id : Nat} (reach : Reaches caller start db id) :
    ¬ start.ForeignUser caller.orgId id := by
  cases reach with
  | managed manages => exact manages.member.not_foreign
  | created fresh member =>
      rintro ⟨u, uMem, key, _⟩
      exact fresh ⟨u, uMem, key⟩

/-- A user that is not foreign belongs to the organisation. -/
theorem Db.member_of_not_foreign {orgId id : Nat}
    (known : db.users.HasKey id) (home : ¬ db.ForeignUser orgId id) :
    db.Member id orgId := by
  rcases known with ⟨u, member, key⟩
  refine ⟨u, member, key, ?_⟩
  by_contra foreign
  exact home ⟨u, member, key, foreign⟩

/-- Replacing the managers of a member by valid ones. -/
theorem Db.OneOrganisation.withManagers (one : db.OneOrganisation)
    {orgId employeeId : Nat} {managerIds : List Nat}
    (grows : db.Grows (db.withManagers employeeId managerIds))
    (valid : ∀ id ∈ managerIds, db.validManager orgId id)
    (employee : managerIds ≠ [] → db.Member employeeId orgId) :
    (db.withManagers employeeId managerIds).OneOrganisation := by
  intro r member
  rcases mem_withManagers member with ⟨old, _⟩ | ⟨given, rfl⟩
  · exact (one r old).grows grows
  · exact Linked.grows ⟨orgId, (valid _ given).member,
      employee (List.ne_nil_of_mem given)⟩ grows

theorem TeamChange.oneOrganisation (holds : start.Integrity)
    (clean : ¬ ManagesForeign start caller call)
    (steps : TeamSteps lib host caller call start db)
    (one : db.OneOrganisation)
    (change : TeamChange lib host caller call start db after) :
    after.OneOrganisation := by
  have grows := change.grows holds
  have kept (rows : ∀ r ∈ after.managerEmployees.rows,
      r ∈ db.managerEmployees.rows) : after.OneOrganisation :=
    fun r member => (one r (rows r member)).grows grows
  cases change with
  | userUpdated user dto made begins role may =>
      exact kept fun r member => (Db.mem_reviseUser.mp member).1
  | managersReplaced employeeId managerIds made role reach may =>
      exact one.withManagers grows may.valid fun _ =>
        reach.member (TeamSteps.grows holds steps)
  | managersSet employeeId managerIds made begins role accepted may =>
      subst made begins
      refine one.withManagers grows may.valid fun given => ?_
      refine Db.member_of_not_foreign (may.employee given) fun foreign => ?_
      exact clean ⟨role, accepted, foreign, may.distinct, may.valid,
        .inl given⟩
  | _ => exact kept fun r member => member

theorem TeamChange.sameReports (holds : start.Integrity)
    (clean : ¬ ManagesForeign start caller call)
    (one : start.OneOrganisation)
    (change : TeamChange lib host caller call start db after) :
    Table.Agrees (fun r => start.ForeignUser caller.orgId r.employeeId)
      db.managerEmployees after.managerEmployees := by
  cases change with
  | userUpdated user dto made begins role may =>
      subst begins
      intro r foreign
      rw [Db.mem_reviseUser]
      refine ⟨And.left, fun member => ⟨member, ?_⟩⟩
      -- The rows a demotion drops have employees of the same organisation.
      rintro ⟨_, key⟩
      rcases one r member with ⟨orgId, manager, employee⟩
      rw [key] at manager
      have own := manager.organisation may.member rfl
      have home := may.manages.member.organisation may.member rfl
      rw [← own, home] at employee
      exact employee.not_foreign foreign
  | managersReplaced employeeId managerIds made role reach may =>
      intro r foreign
      refine Db.mem_withManagers_other ?_
      rintro rfl
      exact reach.not_foreign foreign
  | managersSet employeeId managerIds made begins role accepted may =>
      subst made begins
      intro r foreign
      by_cases apart : r.employeeId ≠ employeeId
      · exact Db.mem_withManagers_other apart
      · rw [not_not] at apart
        rw [apart] at foreign
        have untouched (changes : managerIds ≠ [] ∨
            ∃ r ∈ db.managerEmployees.rows, r.employeeId = employeeId) :
            False :=
          clean ⟨role, accepted, foreign, may.distinct, may.valid, changes⟩
        constructor
        · intro member
          rcases Db.mem_withManagers member with ⟨_, other⟩ | ⟨given, _⟩
          · exact (other apart).elim
          · exact (untouched (.inl (List.ne_nil_of_mem given))).elim
        · exact fun member => (untouched (.inr ⟨r, member, apart⟩)).elim
  | _ => exact Table.Agrees.refl _

end Steps

section Requests

variable {lib : Libs} {world : World} {request : Request} {host : Host}
  {caller : JwtPayload} {call : Call}

/-- An administrator sets the managers of a foreign user. -/
def World.SetsForeign (world : World) : Request → Prop
  | .authenticated _ caller call =>
      caller ∈ world.issued ∧ ManagesForeign world.db caller call
  | .anonymous _ _ => False

theorem World.Sound.oneOrganisation (sound : world.Sound)
    (one : world.db.OneOrganisation)
    (clean : ¬ world.SetsForeign request) :
    (world.step lib request).db.OneOrganisation := by
  refine World.team_keeps _ sound.integrity one ?_ ?_ ?_
  · intro after same r member
    rw [same.managerEmployees] at member
    rcases one r member with ⟨orgId, linked⟩
    exact ⟨orgId, by simpa only [Db.Member, same.users] using linked⟩
  · rintro host caller call rfl signed db after steps kept change
    exact change.oneOrganisation sound.integrity
      (fun sets => clean ⟨signed, sets⟩) steps kept
  · intro host call _ db after kept change r member
    rw [change.sameLinks.managerEmployees] at member
    exact (kept r member).grows change.grows

theorem World.Sound.sameReports (sound : world.Sound)
    (one : world.db.OneOrganisation)
    (clean : ¬ (caller ∈ world.issued ∧
      ManagesForeign world.db caller call)) :
    SameReports caller.orgId world.db
      (world.step lib (.authenticated host caller call)).db := by
  refine World.team_keeps (SameReports caller.orgId world.db)
    sound.integrity (Table.Agrees.refl _) ?_ ?_ ?_
  · intro after same
    rw [SameReports, same.managerEmployees]
    exact Table.Agrees.refl _
  · rintro host' caller' call' made signed db after steps kept change
    cases made
    exact Table.Agrees.trans kept (change.sameReports sound.integrity
      (fun sets => clean ⟨signed, sets⟩) one)
  · intro host call _ db after kept change
    rw [SameReports, change.sameLinks.managerEmployees]
    exact kept

theorem World.step_setUserManagers {id : Nat} {managerIds : List Nat}
    (signed : caller ∈ world.issued) (role : caller.role = .admin)
    (accepted : Schemas.setUserManagersSchema managerIds = [])
    (may : Replaceable world.db caller.orgId id managerIds) :
    (world.step lib
      (.authenticated host caller (.setUserManagers id managerIds))).db =
        world.db.withManagers id managerIds := by
  have run : wp (handle lib host caller (.setUserManagers id managerIds))
      (fun _ after => after = world.db.withManagers id managerIds)
      world.db := by
    simp only [handle, requireRole, validate, wp_bind, wp_throwIf, andThen_ok,
      role, accepted, List.mem_singleton, not_true_eq_false, false_implies,
      not_false_eq_true, true_implies, true_and, ne_eq]
    exact wp_assignManagers (fun refused => (refused may).elim) fun _ => rfl
  rw [World.step_signed signed]
  exact run

/-- The new links of a user, or the lost ones, are visible. -/
theorem withManagers_not_same {db : Db} {orgId id : Nat}
    {managerIds : List Nat} (foreign : db.ForeignUser orgId id)
    (changes : managerIds ≠ [] ∨
      ∃ r ∈ db.managerEmployees.rows, r.employeeId = id) :
    ¬ SameReports orgId db (db.withManagers id managerIds) := by
  intro same
  by_cases none : managerIds = []
  · subst none
    rcases changes.resolve_left (by simp) with ⟨r, member, key⟩
    rw [← key] at foreign
    have kept := (same r foreign).mpr member
    rcases Db.mem_withManagers kept with ⟨_, apart⟩ | ⟨given, _⟩
    · exact apart key
    · exact List.not_mem_nil given
  · rcases Db.exists_new_manager db id none with ⟨r, member, key, new⟩
    rw [← key] at foreign
    exact new ((same r foreign).mp member)

theorem World.Sound.sameReports_iff (sound : world.Sound)
    (one : world.db.OneOrganisation) :
    SameReports caller.orgId world.db
        (world.step lib (.authenticated host caller call)).db ↔
      ¬ (caller ∈ world.issued ∧ ManagesForeign world.db caller call) := by
  refine ⟨?_, sound.sameReports one⟩
  rintro same ⟨signed, sets⟩
  cases call with
  | setUserManagers id managerIds =>
      rcases sets with ⟨role, accepted, foreign, distinct, valid, changes⟩
      have notSelf : id ∉ managerIds := fun given =>
        (valid id given).member.not_foreign foreign
      have known : world.db.users.HasKey id := by
        rcases foreign with ⟨u, member, key, _⟩
        exact ⟨u, member, key⟩
      rw [World.step_setUserManagers signed role accepted
        ⟨notSelf, valid, distinct, fun _ => known⟩] at same
      exact withManagers_not_same foreign changes same
  | _ => exact sets

end Requests

/--
While no administrator sets the managers of a user of another organisation,
every link of the hierarchy stays inside one organisation.  In every state
reached so, a request leaves the managers of foreign users as they are exactly
when it is not such a request itself.
-/
theorem hierarchy_inside_organisation (lib : Libs) (requests : List Request)
    (met : World.Along (fun world request => ¬ world.SetsForeign request)
      lib .empty requests) :
    (World.empty.run lib requests).db.OneOrganisation ∧
      ∀ host caller call,
        SameReports caller.orgId (World.empty.run lib requests).db
            ((World.empty.run lib requests).step lib
              (.authenticated host caller call)).db ↔
          ¬ (caller ∈ (World.empty.run lib requests).issued ∧
            ManagesForeign (World.empty.run lib requests).db caller call) := by
  have kept : ∀ (world : World) (request : Request),
      world.Sound ∧ world.db.OneOrganisation → ¬ world.SetsForeign request →
        (world.step lib request).Sound ∧
          (world.step lib request).db.OneOrganisation := by
    rintro world request ⟨sound, one⟩ clean
    exact ⟨sound.step lib request, sound.oneOrganisation one clean⟩
  have empty : World.empty.db.OneOrganisation := by
    intro r member
    simp [World.empty, Db.empty] at member
  rcases World.run_along kept ⟨World.sound_empty, empty⟩ met with
    ⟨sound, one⟩
  exact ⟨one, fun _ _ _ => sound.sameReports_iff one⟩

/-- An administrator of one organisation gives Eve of the other a manager. -/
def foreignManagerRun (employeeId : Nat) : List Request :=
  [.register "bolt" "bob@bolt", .register "acme" "ada@acme",
    .addUser ⟨2, 2, .admin⟩ "eve@acme" .employee,
    .authenticated plainHost ⟨2, 2, .admin⟩ (.setUserManagers employeeId [2])]

/-- Inside the organisation the links stay there. -/
theorem hierarchy_inside_organisation_eve :
    World.Along (fun world request => ¬ world.SetsForeign request)
        plainLibs .empty (foreignManagerRun 3) ∧
      (World.empty.run plainLibs (foreignManagerRun 3)).db.OneOrganisation := by
  have met : World.Along (fun world request => ¬ world.SetsForeign request)
      plainLibs .empty (foreignManagerRun 3) := by
    refine ⟨id, id, fun sets => sets.2, fun sets => ?_, trivial⟩
    exact absurd sets.2.2.2.1 (by decide +kernel)
  exact ⟨met, (hierarchy_inside_organisation plainLibs _ met).1⟩

/-- The administrator of the other organisation gets a manager. -/
theorem foreign_manager_linked :
    let before := World.empty.run plainLibs ((foreignManagerRun 1).take 3)
    let after := World.empty.run plainLibs (foreignManagerRun 1)
    ¬ after.db.OneOrganisation ∧ ¬ SameReports 2 before.db after.db := by
  intro before after
  have row : ⟨1, 2, 1⟩ ∈ after.db.managerEmployees.rows := by decide +kernel
  constructor
  · intro one
    rcases one _ row with ⟨orgId, manager, employee⟩
    have apart : ∀ u ∈ after.db.users.rows, ∀ v ∈ after.db.users.rows,
        u.id = 2 → v.id = 1 → u.organisationId ≠ v.organisationId := by
      decide +kernel
    rcases manager with ⟨u, uMem, uKey, rfl⟩
    rcases employee with ⟨v, vMem, vKey, same⟩
    exact apart u uMem v vMem uKey vKey same.symm
  · intro same
    have foreign : before.db.ForeignUser 2 1 := by decide +kernel
    have none : before.db.managerEmployees.rows = [] := by decide +kernel
    have old := (same _ foreign).mp row
    rw [none] at old
    exact List.not_mem_nil old

/-! ## Managers and their role -/

namespace Db

/-- The user has a role that can manage others. -/
def Leads (db : Db) (id : Nat) : Prop :=
  ∃ u ∈ db.users.rows, u.id = id ∧ (u.role = .manager ∨ u.role = .admin)

/-- Every row has two ends, and its manager leads. -/
def WellLed (db : Db) : Prop :=
  ∀ r ∈ db.managerEmployees.rows,
    r.managerId ≠ r.employeeId ∧ db.Leads r.managerId

theorem Leads.addUser {db : Db} {id : Nat} (leads : db.Leads id)
    (now : Instant) (data : UserData) : (db.addUser now data).Leads id := by
  rcases leads with ⟨u, member, key, role⟩
  exact ⟨u, mem_addUser.mpr (.inl member), key, role⟩

/-- An update that leaves the user a role for it keeps every lead. -/
theorem Leads.setUser {db : Db} {id target : Nat} (leads : db.Leads id)
    (now : Instant) (data : UserUpdate)
    (role : ∀ u ∈ db.users.rows, u.id = id → id = target →
      (u.role = .manager ∨ u.role = .admin) →
      (data.role.getD u.role = .manager ∨ data.role.getD u.role = .admin)) :
    (db.setUser now target data).Leads id := by
  rcases leads with ⟨u, member, rfl, leading⟩
  refine ⟨_, mem_setUser.mpr ⟨u, member, rfl⟩, ?_, ?_⟩
  · split <;> rfl
  · split
    · exact role u member rfl ‹_› leading
    · exact leading

theorem validManager.leads {db : Db} {orgId id : Nat}
    (valid : db.validManager orgId id) : db.Leads id := by
  rcases valid with ⟨u, member, key, _, role, _⟩
  exact ⟨u, member, key, role⟩

theorem WellLed.withManagers {db : Db} {orgId employeeId : Nat}
    {managerIds : List Nat} (led : db.WellLed)
    (may : Replaceable db orgId employeeId managerIds) :
    (db.withManagers employeeId managerIds).WellLed := by
  intro r member
  rcases mem_withManagers member with ⟨old, _⟩ | ⟨given, key⟩
  · exact led r old
  · refine ⟨fun same => may.notSelf ?_, (may.valid _ given).leads⟩
    rwa [← key, ← same]

end Db

/-- A role that is not the one of an employee. -/
theorem UserRole.leading {role : UserRole} :
    (role = .manager ∨ role = .admin) ↔ role ≠ .employee := by
  cases role <;> simp

theorem Db.WellLed.reviseUser {db : Db} {user : User} {dto : UpdateUserDto}
    (led : db.WellLed) (member : user ∈ db.users.rows) (now : Instant) :
    (db.reviseUser now user dto).WellLed := by
  intro r rMem
  rcases mem_reviseUser.mp rMem with ⟨old, kept⟩
  refine ⟨(led r old).1, ?_⟩
  rw [Leads, reviseUser_users]
  refine (led r old).2.setUser now dto.columns ?_
  intro u uMem key target role
  cases db.users.eq_of_key uMem member (key.trans target)
  -- The row of a demoted user is gone, so the new role still leads.
  rw [UserRole.leading] at role ⊢
  exact fun demoted => kept ⟨⟨demoted, role⟩, target⟩

section

variable {lib : Libs} {host : Host} {caller : JwtPayload} {call : Call}
  {start db after : Db} {world : World} {request : Request}

theorem TeamChange.wellLed (led : db.WellLed)
    (change : TeamChange lib host caller call start db after) :
    after.WellLed := by
  have unpromoted (id : Nat) (data : UserUpdate) (none : data.role = none) :
      (db.setUser host.now id data).WellLed := fun r member =>
    ⟨(led r member).1, (led r member).2.setUser host.now data
      fun u _ _ _ role => by rwa [none]⟩
  cases change with
  | loggedOut made known => exact unpromoted _ _ rfl
  | userCreated dto made begins role may =>
      exact fun r member =>
        ⟨(led r member).1, (led r member).2.addUser host.now _⟩
  | userUpdated user dto made begins role may =>
      exact led.reviseUser may.member host.now
  | deactivated id made begins role manages => exact unpromoted _ _ rfl
  | managersReplaced employeeId managerIds made role reach may =>
      exact led.withManagers may
  | managersSet employeeId managerIds made begins role accepted may =>
      exact led.withManagers may
  | _ => exact led

theorem PublicChange.wellLed (led : db.WellLed)
    (change : PublicChange lib host db after) : after.WellLed := by
  rcases change.cases_after with ⟨dto, passwordHash, rfl⟩ | ⟨id, token, rfl⟩
  · exact fun r member =>
      ⟨(led r member).1, (led r member).2.addUser host.now _⟩
  · exact fun r member =>
      ⟨(led r member).1, (led r member).2.setUser host.now _
        fun u _ _ _ role => role⟩

theorem World.step_wellLed (lib : Libs) (holds : world.db.Integrity)
    (led : world.db.WellLed) : (world.step lib request).db.WellLed := by
  refine World.team_keeps _ holds led ?_ ?_ ?_
  · intro after same r member
    rw [same.managerEmployees] at member
    rw [Db.Leads, same.users]
    exact led r member
  · exact fun _ _ _ _ _ _ _ _ kept change => change.wellLed kept
  · exact fun _ _ _ _ _ kept change => change.wellLed kept

end

theorem World.wellLed_run (lib : Libs) (requests : List Request) :
    (World.empty.run lib requests).db.WellLed := by
  have kept : ∀ (world : World) (request : Request),
      world.Sound ∧ world.db.WellLed →
        (world.step lib request).Sound ∧
          (world.step lib request).db.WellLed := by
    rintro world request ⟨sound, led⟩
    exact ⟨sound.step lib request, World.step_wellLed lib sound.integrity led⟩
  have empty : World.empty.db.WellLed := by
    intro r member
    simp [World.empty, Db.empty] at member
  exact (World.run_invariant kept ⟨World.sound_empty, empty⟩ requests).2

/--
In every reachable state no user manages itself, and every manager has the
role of one, also after requests that end in an error.
-/
theorem hierarchy_well_led (lib : Libs) (requests : List Request) :
    ∀ r ∈ (World.empty.run lib requests).db.managerEmployees.rows,
      r.managerId ≠ r.employeeId ∧
        (World.empty.run lib requests).db.Leads r.managerId :=
  World.wellLed_run lib requests

/-- Eve's manager is the administrator. -/
theorem hierarchy_well_led_eve :
    let after := (World.empty.run plainLibs (foreignManagerRun 3)).db
    (⟨1, 2, 3⟩ : ManagerEmployee) ∈ after.managerEmployees.rows ∧
      2 ≠ 3 ∧ after.Leads 2 := by
  intro after
  have row : (⟨1, 2, 3⟩ : ManagerEmployee) ∈ after.managerEmployees.rows := by
    decide +kernel
  exact ⟨row, hierarchy_well_led plainLibs (foreignManagerRun 3) _ row⟩

end TmsApi
