import TmsApi.Refinement.Teams

/-!
# User, team and project requests make team changes

One rule for each service function, with a premise for every way the function
can end.  The rules of `createUser` and `updateUser` name the database after
each of their writes, so the same rule serves the chains of team changes and
the question what a refused request leaves behind.
-/

namespace TmsApi

open TmsApi.Core
open TmsApi.Core.Program

section

variable {lib : Libs} {host : Host} {caller : JwtPayload} {call : Call}
  {db start : Db}

/-! ## Replacing the links of a user -/

/-- A guard that lists the invalid keys passes when there are none. -/
theorem noneInvalid_iff {ids : List Nat} {valid : Nat → Prop}
    [DecidablePred valid] :
    ¬ (ids.filter fun id => ¬ valid id).length > 0 ↔ ∀ id ∈ ids, valid id := by
  simp [List.length_pos_iff, List.filter_eq_nil_iff]

theorem noneUnauthorized_iff {ids allowed : List Nat} :
    ¬ (ids.filter fun id => id ∉ allowed).length > 0 ↔
      ∀ id ∈ ids, id ∈ allowed :=
  noneInvalid_iff

/-- The check of the given keys before the links of a user are replaced. -/
theorem wp_checkIds {ids : List Nat} {valid : Db → Nat → Prop}
    [∀ db id, Decidable (valid db id)] {message : List Nat → String}
    {write : Service PUnit} {post : Except Thrown PUnit → Db → Prop}
    (invalid : (¬ ∀ id ∈ ids, valid db id) →
      ∀ text, post (.error (.validationError text)) db)
    (passes : (∀ id ∈ ids, valid db id) → wp write post db) :
    wp (whenever (ids.length > 0) (do
        let invalidIds ← query fun db => ids.filter fun id => ¬ valid db id
        throwIf (invalidIds.length > 0)
          (.validationError (message invalidIds))) >>= fun _ => write) post
      db := by
  simp only [wp_bind, wp_whenever, wp_query, andThen_ok, wp_throwIf,
    andThen_error]
  constructor
  · intro _
    constructor
    · intro some
      exact invalid (fun all => noneInvalid_iff.mpr all some) _
    · intro none
      exact passes (noneInvalid_iff.mp none)
  · intro none
    refine passes fun id given => ?_
    exact (none (List.length_pos_of_mem given)).elim

/-- The keys `assignManagers` accepts as the managers of a user. -/
structure Db.AcceptsManagers (db : Db) (orgId employeeId : Nat)
    (managerIds : List Nat) : Prop where
  notSelf : employeeId ∉ managerIds
  valid : ∀ id ∈ managerIds, db.validManager orgId id

theorem wp_assignManagers_of {employeeId orgId : Nat} {managerIds : List Nat}
    {post : Except Thrown PUnit → Db → Prop}
    (invalid : ¬ db.AcceptsManagers orgId employeeId managerIds →
      ∀ text, post (.error (.validationError text)) db)
    (passes : db.AcceptsManagers orgId employeeId managerIds →
      wp (statement (replaceManagers employeeId managerIds)) post db) :
    wp (assignManagers employeeId managerIds orgId) post db := by
  rw [assignManagers, wp_bind, wp_throwIf]
  constructor
  · intro self
    exact invalid (fun accepted => accepted.notSelf self) _
  · intro notSelf
    refine wp_checkIds (fun fails => ?_) fun valid => ?_
    · exact invalid fun accepted => fails accepted.valid
    · exact passes ⟨notSelf, valid⟩

theorem wp_assignManagers {employeeId orgId : Nat} {managerIds : List Nat}
    {post : Except Thrown PUnit → Db → Prop}
    (refused : ¬ Replaceable db orgId employeeId managerIds →
      ∀ e, post (.error e) db)
    (written : Replaceable db orgId employeeId managerIds →
      post (.ok ⟨⟩) (db.withManagers employeeId managerIds)) :
    wp (assignManagers employeeId managerIds orgId) post db := by
  apply wp_assignManagers_of
  · intro unaccepted text
    exact refused (fun may => unaccepted ⟨may.notSelf, may.valid⟩) _
  · rintro ⟨notSelf, valid⟩
    rw [wp_statement]
    constructor
    · intro e failed
      refine refused (fun may => ?_) e
      cases failed.symm.trans may.wrote
    · intro done after wrote
      rcases replaceManagers_eq_ok.mp wrote with ⟨⟨distinct, exist⟩, rfl⟩
      refine written ⟨notSelf, valid, distinct, fun given => ?_⟩
      rcases List.exists_mem_of_ne_nil _ given with ⟨id, member⟩
      exact (exist id member).2

theorem wp_assignProjectsToEmployee_of {employeeId orgId : Nat}
    {projectIds : List Nat} {post : Except Thrown PUnit → Db → Prop}
    (invalid : (¬ ∀ id ∈ projectIds, db.validProject orgId id) →
      ∀ text, post (.error (.validationError text)) db)
    (passes : (∀ id ∈ projectIds, db.validProject orgId id) →
      wp (statement (replaceProjects employeeId projectIds)) post db) :
    wp (assignProjectsToEmployee employeeId projectIds orgId) post db :=
  wp_checkIds invalid passes

theorem wp_assignProjectsToEmployee {employeeId orgId : Nat}
    {projectIds : List Nat} {post : Except Thrown PUnit → Db → Prop}
    (refused : ¬ Assignable db orgId employeeId projectIds →
      ∀ e, post (.error e) db)
    (written : Assignable db orgId employeeId projectIds →
      post (.ok ⟨⟩) (db.withProjects employeeId projectIds)) :
    wp (assignProjectsToEmployee employeeId projectIds orgId) post db := by
  apply wp_assignProjectsToEmployee_of
  · intro unaccepted text
    exact refused (fun may => unaccepted may.valid) _
  · intro valid
    rw [wp_statement]
    constructor
    · intro e failed
      refine refused (fun may => ?_) e
      cases failed.symm.trans may.wrote
    · intro done after wrote
      rcases replaceProjects_eq_ok.mp wrote with ⟨⟨distinct, exist⟩, rfl⟩
      refine written ⟨valid, distinct, fun given => ?_⟩
      rcases List.exists_mem_of_ne_nil _ given with ⟨id, member⟩
      exact (exist id member).2

/-- The user manages a project of the organisation. -/
def Db.managesProject (db : Db) (userId orgId projectId : Nat) : Prop :=
  ∃ r ∈ db.projectManagers.rows,
    (r.managerId = userId ∧
      ∃ p ∈ db.projects.rows, p.id = r.projectId ∧
        p.organisationId = orgId) ∧ r.projectId = projectId

/-- Projects a caller can give to a user. -/
structure Grantable (caller : JwtPayload) (db : Db) (employeeId : Nat)
    (projectIds : List Nat) : Prop where
  managed : caller.role = .manager → ∀ id ∈ projectIds,
    db.managesProject caller.userId caller.orgId id
  assignable : Assignable db caller.orgId employeeId projectIds

theorem wp_assertManagesProjects {projectIds : List Nat}
    {userId orgId : Nat} {post : Except Thrown PUnit → Db → Prop}
    (refused : (¬ ∀ id ∈ projectIds, db.managesProject userId orgId id) →
      ∀ e, post (.error e) db)
    (passes : (∀ id ∈ projectIds, db.managesProject userId orgId id) →
      post (.ok ⟨⟩) db) :
    wp (assertManagesProjects projectIds userId orgId) post db := by
  have managed (id : Nat) :
      id ∈ ((db.projectManagers.select fun r =>
        r.managerId = userId ∧
          ∃ p ∈ db.projects.rows, p.id = r.projectId ∧
            p.organisationId = orgId).map (·.projectId)) ↔
        db.managesProject userId orgId id := by
    simp [Db.managesProject, and_assoc]
  simp only [assertManagesProjects, wp_bind, wp_query, andThen_ok, wp_throwIf]
  constructor
  · intro unauthorized
    refine refused (fun all => ?_) _
    exact noneUnauthorized_iff.mpr
      (fun id given => (managed id).mpr (all id given)) unauthorized
  · intro clear
    refine passes fun id given => ?_
    exact (managed id).mp (noneUnauthorized_iff.mp clear id given)

theorem wp_assignGivenProjects {employeeId : Nat} {projectIds : List Nat}
    {post : Except Thrown PUnit → Db → Prop}
    (refused : ¬ Grantable caller db employeeId projectIds →
      ∀ e, post (.error e) db)
    (written : Grantable caller db employeeId projectIds →
      post (.ok ⟨⟩) (db.withProjects employeeId projectIds)) :
    wp (assignGivenProjects employeeId projectIds caller.orgId caller.userId
      caller.role) post db := by
  have assign (managed : caller.role = .manager → ∀ id ∈ projectIds,
      db.managesProject caller.userId caller.orgId id) :
      wp (assignProjectsToEmployee employeeId projectIds caller.orgId) post
        db :=
    wp_assignProjectsToEmployee
      (fun unassignable => refused fun may => unassignable may.assignable)
      fun assignable => written ⟨managed, assignable⟩
  simp only [assignGivenProjects, wp_bind, wp_whenever]
  constructor
  · intro manager
    refine wp_assertManagesProjects (fun unmanaged => ?_) fun managed => ?_
    · exact refused fun may => unmanaged (may.managed manager)
    · exact assign fun _ => managed
  · intro other
    refine assign fun manager => ?_
    exact (other manager).elim

/-! ## Users -/

/-- The managers of a user replaced when the request asks for it. -/
def Db.withManagersIf (asked : Prop) [Decidable asked] (employeeId : Nat)
    (managerIds : List Nat) (db : Db) : Db :=
  if asked then db.withManagers employeeId managerIds else db

section

variable {asked : Prop} [Decidable asked] {employeeId : Nat}
  {managerIds : List Nat}

@[simp]
theorem Db.withManagersIf_users :
    (db.withManagersIf asked employeeId managerIds).users = db.users := by
  unfold Db.withManagersIf
  split <;> rfl

@[simp]
theorem Db.withManagersIf_projects :
    (db.withManagersIf asked employeeId managerIds).projects =
      db.projects := by
  unfold Db.withManagersIf
  split <;> rfl

@[simp]
theorem Db.withManagersIf_projectManagers :
    (db.withManagersIf asked employeeId managerIds).projectManagers =
      db.projectManagers := by
  unfold Db.withManagersIf
  split <;> rfl

@[simp]
theorem Db.withManagersIf_projectEmployees :
    (db.withManagersIf asked employeeId managerIds).projectEmployees =
      db.projectEmployees := by
  unfold Db.withManagersIf
  split <;> rfl

end

def Db.withProjectsIf (asked : Prop) [Decidable asked] (employeeId : Nat)
    (projectIds : List Nat) (db : Db) : Db :=
  if asked then db.withProjects employeeId projectIds else db

/-- The last part of `createUser` and `updateUser`. -/
def assignLinks {α : Type} (caller : JwtPayload) (employeeId : Nat)
    (managed granted : Prop) [Decidable managed] [Decidable granted]
    (managerIds projectIds : List Nat) (a : α) : Service α := do
  whenever managed (assignManagers employeeId managerIds caller.orgId)
  whenever granted
    (assignGivenProjects employeeId projectIds caller.orgId caller.userId
      caller.role)
  return a

theorem wp_assignLinks {α : Type} {employeeId : Nat} {managed granted : Prop}
    [Decidable managed] [Decidable granted] {managerIds projectIds : List Nat}
    {a : α} {post : Except Thrown α → Db → Prop}
    (unmanaged : managed →
      ¬ Replaceable db caller.orgId employeeId managerIds →
      ∀ e, post (.error e) db)
    (ungranted :
      (managed → Replaceable db caller.orgId employeeId managerIds) →
      granted →
      ¬ Grantable caller (db.withManagersIf managed employeeId managerIds)
        employeeId projectIds →
      ∀ e, post (.error e) (db.withManagersIf managed employeeId managerIds))
    (assigned :
      (managed → Replaceable db caller.orgId employeeId managerIds) →
      (granted → Grantable caller
        (db.withManagersIf managed employeeId managerIds) employeeId
        projectIds) →
      post (.ok a)
        ((db.withManagersIf managed employeeId managerIds).withProjectsIf
          granted employeeId projectIds)) :
    wp (assignLinks caller employeeId managed granted managerIds projectIds a)
      post db := by
  have grant (may : managed →
      Replaceable db caller.orgId employeeId managerIds) :
      wp (whenever granted
        (assignGivenProjects employeeId projectIds caller.orgId caller.userId
          caller.role) >>= fun _ => pure a) post
        (db.withManagersIf managed employeeId managerIds) := by
    simp only [wp_bind, wp_whenever]
    constructor
    · intro asked
      refine wp_assignGivenProjects (ungranted may asked) fun grantable => ?_
      have done := assigned may fun _ => grantable
      rwa [Db.withProjectsIf, if_pos asked] at done
    · intro unasked
      have done := assigned may fun asked => (unasked asked).elim
      rwa [Db.withProjectsIf, if_neg unasked] at done
  simp only [assignLinks, wp_bind, wp_whenever]
  constructor
  · intro asked
    refine wp_assignManagers (unmanaged asked) fun replaceable => ?_
    have rest := grant fun _ => replaceable
    rw [Db.withManagersIf, if_pos asked] at rest
    exact rest
  · intro unasked
    have rest := grant fun asked => (unasked asked).elim
    rw [Db.withManagersIf, if_neg unasked] at rest
    exact rest

theorem wp_createUser {dto : CreateUserDto}
    {post : Except Thrown User → Db → Prop}
    (refused : ¬ CreatesUser lib caller db dto → ∀ e, post (.error e) db)
    (created : CreatesUser lib caller db dto →
      wp (assignLinks caller db.users.next
        ((initialManagers dto.managerIds caller.userId caller.role).length > 0)
        ((dto.projectIds.getD []).length > 0)
        (initialManagers dto.managerIds caller.userId caller.role)
        (dto.projectIds.getD [])
        ((dto.data lib host caller.orgId).row host.now db.users.next)) post
        (db.addUser host.now (dto.data lib host caller.orgId))) :
    wp (createUser lib host caller.orgId dto caller.userId caller.role) post
      db := by
  simp only [createUser, wp_bind, wp_throwIf, wp_query, andThen_ok,
    andThen_error]
  constructor
  · rintro ⟨manager, r, given, senior⟩
    refine refused (fun may => ?_) _
    exact senior (may.junior manager r given)
  intro junior
  constructor
  · intro taken
    refine refused (fun may => ?_) _
    rcases Option.isSome_iff_exists.mp taken with ⟨u, found⟩
    rcases Table.find?_spec found with ⟨member, same⟩
    exact may.free u member same
  intro _
  apply wp_statement_iff (fun _ _ => userCreate_eq_ok)
  · intro unfit
    refine refused fun may => ?_
    exact unfit ⟨may.fits, may.free, may.org⟩
  · rintro ⟨fits, free, org⟩
    refine created ⟨fun manager r given => ?_, fits, free, org⟩
    by_contra senior
    exact junior ⟨manager, r, given, senior⟩

/-- The guard on the target of a user operation. -/
theorem wp_assertCanManageUser {id : Nat}
    {post : Except Thrown PUnit → Db → Prop}
    (refused : ¬ (caller.role ≠ .admin →
      id ∈ db.directReportIds caller.userId caller.orgId) →
      ∀ e, post (.error e) db)
    (passes : (caller.role ≠ .admin →
      id ∈ db.directReportIds caller.userId caller.orgId) →
      post (.ok ⟨⟩) db) :
    wp (assertCanManageUser caller.userId caller.role id caller.orgId) post
      db := by
  simp only [assertCanManageUser, getDirectReportIds, wp_whenever, wp_bind,
    wp_query, andThen_ok, wp_throwIf]
  constructor
  · intro lower
    constructor
    · intro foreign
      exact refused (fun report => foreign (report lower)) _
    · intro report
      exact passes fun _ => not_not.mp report
  · intro admin
    exact passes fun lower => (admin lower).elim

theorem wp_updateUser {id : Nat} {dto : UpdateUserDto}
    {post : Except Thrown User → Db → Prop}
    (refused : ¬ (∃ user, user.id = id ∧ UpdatesUser caller db user dto) →
      ∀ e, post (.error e) db)
    (updated : ∀ user, user.id = id → UpdatesUser caller db user dto →
      wp (assignLinks caller id dto.managerIds.isSome dto.projectIds.isSome
        (dto.managerIds.getD []) (dto.projectIds.getD [])
        (dto.columns.apply host.now user)) post
        (db.reviseUser host.now user dto)) :
    wp (updateUser host id caller.orgId dto caller.userId caller.role) post
      db := by
  simp only [updateUser, wp_bind, wp_query, wp_orThrow, andThen_ok,
    andThen_error]
  constructor
  · intro missing
    refine refused ?_ _
    rintro ⟨user, rfl, may⟩
    rcases may.manages.member with ⟨other, otherMem, key, org⟩
    cases db.users.eq_of_key otherMem may.member key
    exact Table.find?_eq_none.mp missing user may.member ⟨rfl, org⟩
  · intro user found
    rcases Table.find?_spec found with ⟨member, rfl, org⟩
    have only {other : User} (key : other.id = user.id)
        (may : UpdatesUser caller db other dto) :
        UpdatesUser caller db user dto := by
      cases db.users.eq_of_key may.member member key
      exact may
    refine wp_assertCanManageUser (fun foreign => refused ?_) fun report => ?_
    · rintro ⟨other, key, may⟩
      exact foreign (only key may).manages.report
    simp only [wp_bind, wp_throwIf, andThen_ok, andThen_error]
    have manages : Manages caller db user.id :=
      ⟨⟨user, member, rfl, org⟩, report⟩
    constructor
    · rintro ⟨manager, r, given, senior⟩
      refine refused ?_ _
      rintro ⟨other, key, may⟩
      exact senior (may.junior manager r given)
    intro junior
    apply wp_statement_iff (fun _ _ => userUpdate_eq_ok_of member)
    · intro unfit
      refine refused ?_
      rintro ⟨other, key, may⟩
      exact unfit may.fits
    · intro fits
      have may : UpdatesUser caller db user dto := by
        refine ⟨member, manages, fun manager r given => ?_, fits⟩
        by_contra senior
        exact junior ⟨manager, r, given, senior⟩
      have rest := updated user rfl may
      rw [andThen_ok, wp_bind, wp_whenever]
      constructor
      · intro demoted
        rw [Db.reviseUser_demoted demoted] at rest
        have dropped : Prisma.managerEmployeeDeleteMany
            (fun r => r.managerId = user.id)
            (db.setUser host.now user.id dto.columns) =
            .ok (⟨⟩, (db.setUser host.now user.id dto.columns).dropReports
              user.id) := rfl
        exact (wp_statement_of dropped).mpr rest
      · intro kept
        rw [Db.reviseUser_kept kept] at rest
        exact rest

/-! ## Chains of team changes -/

/-- The database after some steps of a request that began in `start`. -/
abbrev TeamSteps (lib : Libs) (host : Host) (caller : JwtPayload)
    (call : Call) (start db : Db) : Prop :=
  Relation.ReflTransGen (TeamChange lib host caller call start) start db

/-- A new user and a managed one stay within reach. -/
theorem Reaches.of_users {after : Db} {id : Nat}
    (reach : Reaches caller start db id) (same : after.users = db.users) :
    Reaches caller start after id := by
  cases reach with
  | managed manages => exact .managed manages
  | created fresh member =>
      refine .created fresh ?_
      rwa [Db.Member, same]

theorem assignLinks_team {α : Type} {employeeId : Nat}
    {managed granted : Prop} [Decidable managed] [Decidable granted]
    {managerIds projectIds : List Nat} {a : α} (made : call.SavesUser)
    (role : Managing caller)
    (steps : TeamSteps lib host caller call start db)
    (reach : Reaches caller start db employeeId) :
    wp (assignLinks caller employeeId managed granted managerIds projectIds a)
      (fun _ after => TeamSteps lib host caller call start after) db := by
  have withManagers (may : managed →
      Replaceable db caller.orgId employeeId managerIds) :
      TeamSteps lib host caller call start
        (db.withManagersIf managed employeeId managerIds) := by
    unfold Db.withManagersIf
    split
    · exact steps.tail (.managersReplaced _ _ made role reach (may ‹_›))
    · exact steps
  have reachable : Reaches caller start
      (db.withManagersIf managed employeeId managerIds) employeeId :=
    reach.of_users Db.withManagersIf_users
  refine wp_assignLinks (fun _ _ _ => steps)
    (fun may _ _ _ => withManagers may) fun may grantable => ?_
  unfold Db.withProjectsIf
  split
  · exact (withManagers may).tail
      (.projectsReplaced _ _ made role reachable (grantable ‹_›).assignable)
  · exact withManagers may

theorem createUser_team (dto : CreateUserDto) (role : Managing caller) :
    wp (createUser lib host caller.orgId dto caller.userId caller.role)
      (fun _ after =>
        TeamSteps lib host caller (.createUser dto) start after) start := by
  refine wp_createUser (fun _ _ => .refl) fun may => ?_
  refine assignLinks_team (.create dto) role
    (.single (.userCreated dto rfl rfl role may)) ?_
  refine .created start.users.not_hasKey_next ?_
  exact ⟨_, Db.mem_addUser.mpr (.inr rfl), rfl, rfl⟩

theorem updateUser_team (id : Nat) (dto : UpdateUserDto)
    (role : Managing caller) :
    wp (updateUser host id caller.orgId dto caller.userId caller.role)
      (fun _ after =>
        TeamSteps lib host caller (.updateUser id dto) start after) start := by
  refine wp_updateUser (fun _ _ => .refl) fun user key may => ?_
  subst key
  exact assignLinks_team (.update user.id dto) role
    (.single (.userUpdated user dto rfl rfl role may)) (.managed may.manages)

theorem deactivateUser_team (id : Nat) (role : Managing caller) :
    wp (deactivateUser host id caller.orgId caller.userId caller.role)
      (fun _ after =>
        TeamSteps lib host caller (.deactivateUser id) start after) start := by
  simp only [deactivateUser, wp_bind, wp_query, wp_orThrow, andThen_ok,
    andThen_error]
  refine ⟨fun _ => .refl, fun user found => ?_⟩
  rcases Table.find?_spec found with ⟨member, rfl, org⟩
  refine wp_assertCanManageUser (fun _ _ => .refl) fun report => ?_
  simp only [wp_bind, wp_statement, andThen_ok, andThen_error, pure_eq,
    wp_done]
  refine ⟨fun _ _ => .refl, fun row after wrote => ?_⟩
  rcases userUpdate_eq_ok.mp wrote with ⟨_, _, rfl⟩
  exact .single
    (.deactivated user.id rfl rfl role ⟨⟨user, member, rfl, org⟩, report⟩)

theorem setUserManagers_team (id : Nat) (managerIds : List Nat)
    (role : caller.role = .admin)
    (accepted : Schemas.setUserManagersSchema managerIds = []) :
    wp (assignManagers id managerIds caller.orgId)
      (fun _ after => TeamSteps lib host caller
        (.setUserManagers id managerIds) start after) start :=
  wp_assignManagers (fun _ _ => .refl) fun may =>
    .single (.managersSet id managerIds rfl rfl role accepted may)

theorem logoutUser_team :
    wp (logoutUser host caller.userId)
      (fun _ after => TeamSteps lib host caller .logout start after)
      start := by
  simp only [logoutUser, wp_bind, wp_statement, andThen_ok, andThen_error,
    pure_eq, wp_done]
  refine ⟨fun _ _ => .refl, fun row after wrote => ?_⟩
  rcases userUpdate_eq_ok.mp wrote with ⟨_, ⟨u, member, key, _⟩, rfl⟩
  exact .single (.loggedOut rfl ⟨u, member, key⟩)

/-! ## Projects -/

/-- The guard on the employees a MANAGER assigns to a project. -/
theorem wp_assertDirectReports {employeeIds : List Nat}
    {userId orgId : Nat} {post : Except Thrown PUnit → Db → Prop}
    (refused :
      (¬ ∀ id ∈ employeeIds, id ∈ db.directReportIds userId orgId) →
      ∀ e, post (.error e) db)
    (passes : (∀ id ∈ employeeIds, id ∈ db.directReportIds userId orgId) →
      post (.ok ⟨⟩) db) :
    wp (assertDirectReports employeeIds userId orgId) post db := by
  simp only [assertDirectReports, getDirectReportIds, wp_bind, wp_query,
    andThen_ok, wp_throwIf]
  constructor
  · intro unauthorized
    refine refused (fun all => ?_) _
    exact noneUnauthorized_iff.mpr all unauthorized
  · intro clear
    exact passes (noneUnauthorized_iff.mp clear)

theorem createProject_team (dto : CreateProjectDto) (role : Managing caller)
    (accepted : Schemas.createProjectSchema dto = [])
    (holds : start.Integrity) :
    wp (createProject lib host caller.orgId dto caller.userId caller.role)
      (fun _ after =>
        TeamSteps lib host caller (.createProject dto) start after)
      start := by
  simp only [createProject, wp_bind, wp_query, wp_throwIf, wp_whenever,
    andThen_ok, andThen_error]
  have write (reports : caller.role = .manager →
      ∀ id ∈ dto.employeeIds.getD [],
        id ∈ start.directReportIds caller.userId caller.orgId) :
      wp (statement (Prisma.projectCreate lib.collate host.now
        (dto.data caller.orgId)
        (managerCreateList dto.managerIds caller.userId caller.role)
        (dto.employeeIds.getD [])))
      (fun _ after =>
        TeamSteps lib host caller (.createProject dto) start after)
      start := by
    rw [wp_statement]
    refine ⟨fun _ _ => .refl, fun project after wrote => ?_⟩
    rcases (projectCreate_eq_ok holds).mp wrote with
      ⟨⟨fits, free, org, managers, employees⟩, _, rfl⟩
    exact .single (.projectCreated dto rfl rfl role accepted
      ⟨reports, fits, free, org, managers, employees⟩)
  refine ⟨fun _ => .refl, fun _ => ⟨fun _ => ?_, fun unguarded => ?_⟩⟩
  · exact wp_assertDirectReports (fun _ _ => .refl) fun reports =>
      write fun _ => reports
  · refine write fun manager id given => ?_
    exact (unguarded ⟨List.length_pos_of_mem given, manager⟩).elim

theorem wp_updateProject {id : Nat} {dto : UpdateProjectDto}
    {post : Except Thrown Project → Db → Prop}
    (refused : ¬ (∃ p, p.id = id ∧ UpdatesProject lib caller db p dto) →
      ∀ e, post (.error e) db)
    (updated : ∀ p, p.id = id → UpdatesProject lib caller db p dto →
      post (.ok (dto.columns.apply host.now p))
        (((db.setProject host.now p.id dto.columns).withProjectManagers p.id
          dto.managerIds).withProjectEmployees p.id dto.employeeIds)) :
    wp (updateProject lib host id caller.orgId dto caller.userId caller.role)
      post db := by
  simp only [updateProject, wp_bind, wp_query, wp_orThrow, andThen_ok,
    andThen_error]
  constructor
  · intro missing
    refine refused ?_ _
    rintro ⟨p, rfl, may⟩
    exact Table.find?_eq_none.mp missing p may.member ⟨rfl, may.org⟩
  intro p found
  rcases Table.find?_spec found with ⟨member, rfl, org⟩
  have only {q : Project} (key : q.id = p.id)
      (may : UpdatesProject lib caller db q dto) :
      UpdatesProject lib caller db p dto := by
    cases db.projects.eq_of_key may.member member key
    exact may
  have write (reports : caller.role = .manager →
      ∀ id ∈ dto.employeeIds.getD [],
        id ∈ db.directReportIds caller.userId caller.orgId) :
      wp (statement (writeProject lib host p.id dto)) post db := by
    apply wp_statement_iff (fun _ _ => writeProject_eq_ok member)
    · intro unfit
      apply refused
      rintro ⟨q, key, may⟩
      have may := only key may
      exact unfit ⟨may.fits, may.free, may.managers, may.employees⟩
    · rintro ⟨fits, free, managers, employees⟩
      exact updated p rfl
        ⟨member, org, reports, fits, free, managers, employees⟩
  have staffed : wp
      (whenever (dto.employeeIds.isSome ∧ caller.role = .manager)
        (assertDirectReports (dto.employeeIds.getD []) caller.userId
          caller.orgId) >>= fun _ => statement (writeProject lib host p.id dto))
      post db := by
    simp only [wp_bind, wp_whenever, andThen_ok]
    constructor
    · rintro ⟨_, manager⟩
      refine wp_assertDirectReports (fun foreign => refused ?_) ?_
      · rintro ⟨q, key, may⟩
        exact foreign ((only key may).reports manager)
      · exact fun reports => write fun _ => reports
    · intro unguarded
      refine write fun manager id given => ?_
      cases asked : dto.employeeIds with
      | none => simp [asked] at given
      | some ids => exact (unguarded ⟨by simp [asked], manager⟩).elim
  rw [wp_whenever]
  constructor
  · intro renamed
    simp only [wp_bind, wp_query, wp_throwIf, andThen_ok, andThen_error]
    constructor
    · intro taken
      refine refused ?_ _
      rintro ⟨q, key, may⟩
      rcases Option.isSome_iff_exists.mp taken with ⟨other, found⟩
      rcases Table.find?_spec found with
        ⟨otherMem, otherOrg, ⟨code, given, same⟩, apart⟩
      exact (only key may).free code given other otherMem apart
        ⟨otherOrg.trans org.symm, same⟩
    · intro _
      exact (wp_bind _ _ _).mp staffed
  · intro _
    exact staffed

theorem updateProject_team (id : Nat) (dto : UpdateProjectDto)
    (role : Managing caller)
    (accepted : Schemas.updateProjectSchema dto = []) :
    wp (updateProject lib host id caller.orgId dto caller.userId caller.role)
      (fun _ after =>
        TeamSteps lib host caller (.updateProject id dto) start after)
      start := by
  refine wp_updateProject (fun _ _ => .refl) fun p key may => ?_
  subst key
  exact .single (.projectUpdated p dto rfl rfl role accepted may)

theorem deleteProject_team (id : Nat) (role : Managing caller) :
    wp (deleteProject id caller.orgId)
      (fun _ after =>
        TeamSteps lib host caller (.deleteProject id) start after) start := by
  simp only [deleteProject, wp_bind, wp_query, wp_orThrow, wp_statement,
    andThen_ok, andThen_error]
  refine ⟨fun _ => .refl, fun p found => ⟨fun _ _ => .refl, ?_⟩⟩
  rcases Table.find?_spec found with ⟨member, rfl, org⟩
  intro done after wrote
  simp only [Prisma.projectDelete, ensure_eq_ok, Except.ok.injEq,
    Prod.mk.injEq] at wrote
  rcases wrote with ⟨_, unused, _, rfl⟩
  exact .single (.projectDeleted p rfl rfl role member org unused)

end

end TmsApi
