import TmsApi.Refinement.Runs

/-!
# What refused user requests leave behind

`createUser` and `updateUser` write the user before they check the managers
and the projects of the body, without a transaction around the writes.  The
main result says exactly when a request that ends in an error has left every
user and every link as it was: when it ends before its first write, when its
later checks pass, or when the writes before the failing check change nothing.
-/

namespace TmsApi

open TmsApi.Core
open TmsApi.Core.Program

/-- The rows of users, of the hierarchy and of assigned projects. -/
structure SameUserRows (before after : Db) : Prop where
  users : after.users.rows = before.users.rows
  managerEmployees : after.managerEmployees.rows = before.managerEmployees.rows
  projectEmployees : after.projectEmployees.rows = before.projectEmployees.rows

/-- The same rows whenever the answer is an error. -/
def TracelessError {α : Type} (before : Db) (answer : Except Thrown α)
    (after : Db) : Prop :=
  ∀ e, answer = .error e → SameUserRows before after

/-- A request that ends in an error leaves the rows as they were. -/
def Traceless {α : Type} (program : Service α) (db : Db) : Prop :=
  wp program (TracelessError db) db

/-- Managers that `assignManagers` accepts for a user. -/
structure LinksManagers (db : Db) (orgId employeeId : Nat)
    (managerIds : List Nat) : Prop where
  notSelf : employeeId ∉ managerIds
  valid : ∀ id ∈ managerIds, db.validManager orgId id
  distinct : managerIds.Nodup

/-- Projects that a caller can give to a user. -/
structure GrantsProjects (caller : JwtPayload) (db : Db)
    (projectIds : List Nat) : Prop where
  managed : caller.role = .manager → ∀ id ∈ projectIds,
    db.managesProject caller.userId caller.orgId id
  valid : ∀ id ∈ projectIds, db.validProject caller.orgId id
  distinct : projectIds.Nodup

/-- A creation whose insertion succeeds passes the later checks too. -/
def SettledCreation (lib : Libs) (caller : JwtPayload) (db : Db)
    (dto : CreateUserDto) : Prop :=
  CreatesUser lib caller db dto →
    LinksManagers db caller.orgId db.users.next
        (initialManagers dto.managerIds caller.userId caller.role) ∧
      GrantsProjects caller db (dto.projectIds.getD [])

/--
After the update of a user, the check of the managers passes, or the columns
have changed nothing; and then the check of the projects passes, or neither
the columns nor the managers have changed anything.
-/
def UpdateUserDto.Settles (host : Host) (caller : JwtPayload) (db : Db)
    (user : User) (dto : UpdateUserDto) : Prop :=
  ((dto.managerIds.isSome →
      LinksManagers db caller.orgId user.id (dto.managerIds.getD [])) ∨
    dto.columns.apply host.now user = user) ∧
  ((dto.managerIds.isSome →
      LinksManagers db caller.orgId user.id (dto.managerIds.getD [])) →
    (dto.projectIds.isSome →
      GrantsProjects caller db (dto.projectIds.getD [])) ∨
    dto.columns.apply host.now user = user ∧
      (dto.managerIds.isSome →
        dto.managerIds.getD [] = [] ∧ db.Unmanaged user.id))

/-- An update that starts to write fails no check after a visible write. -/
def SettledUpdate (host : Host) (caller : JwtPayload) (db : Db) (id : Nat)
    (dto : UpdateUserDto) : Prop :=
  ∀ user, user.id = id → UpdatesUser caller db user dto →
    dto.Settles host caller db user

section

variable {lib : Libs} {host : Host} {caller : JwtPayload} {db start : Db}

theorem SameUserRows.refl (db : Db) : SameUserRows db db :=
  ⟨rfl, rfl, rfl⟩

/-! ## The later checks, seen from the first state -/

/-- Only the user itself was written, and it is not its own manager. -/
theorem replaceable_iff {orgId employeeId : Nat} {managerIds : List Nat}
    (others : ∀ u : User, u.id ≠ employeeId →
      (u ∈ db.users.rows ↔ u ∈ start.users.rows))
    (known : db.users.HasKey employeeId) :
    Replaceable db orgId employeeId managerIds ↔
      LinksManagers start orgId employeeId managerIds := by
  have valid (id : Nat) (apart : id ≠ employeeId) :
      db.validManager orgId id ↔ start.validManager orgId id := by
    constructor
    · rintro ⟨u, member, rfl, rest⟩
      exact ⟨u, (others u apart).mp member, rfl, rest⟩
    · rintro ⟨u, member, rfl, rest⟩
      exact ⟨u, (others u apart).mpr member, rfl, rest⟩
  constructor
  · intro may
    refine ⟨may.notSelf, fun id given => ?_, may.distinct⟩
    refine (valid id ?_).mp (may.valid id given)
    rintro rfl
    exact may.notSelf given
  · intro may
    refine ⟨may.notSelf, fun id given => ?_, may.distinct, fun _ => known⟩
    refine (valid id ?_).mpr (may.valid id given)
    rintro rfl
    exact may.notSelf given

variable (start) in
theorem grantable_iff {asked : Prop} [Decidable asked] {employeeId : Nat}
    {managerIds projectIds : List Nat} (known : db.users.HasKey employeeId)
    (projects : db.projects = start.projects)
    (projectManagers : db.projectManagers = start.projectManagers) :
    Grantable caller (db.withManagersIf asked employeeId managerIds) employeeId
        projectIds ↔
      GrantsProjects caller start projectIds := by
  have manages (id : Nat) : (db.withManagersIf asked employeeId
      managerIds).managesProject caller.userId caller.orgId id ↔
      start.managesProject caller.userId caller.orgId id := by
    simp [Db.managesProject, projects, projectManagers]
  have valid (id : Nat) : (db.withManagersIf asked employeeId
      managerIds).validProject caller.orgId id ↔
      start.validProject caller.orgId id := by
    simp [Db.validProject, projects]
  constructor
  · rintro ⟨managed, may⟩
    exact ⟨fun manager id given => (manages id).mp (managed manager id given),
      fun id given => (valid id).mp (may.valid id given), may.distinct⟩
  · rintro ⟨managed, exist, distinct⟩
    exact ⟨fun manager id given => (manages id).mpr (managed manager id given),
      fun id given => (valid id).mpr (exist id given), distinct,
      fun _ => by simpa using known⟩

/-- Without managers and projects there is nothing to check. -/
theorem LinksManagers.nil (orgId employeeId : Nat) :
    LinksManagers db orgId employeeId [] :=
  ⟨by simp, by simp, List.nodup_nil⟩

theorem GrantsProjects.nil : GrantsProjects caller db [] :=
  ⟨by simp, by simp, List.nodup_nil⟩

/-- The last part of both requests fails at one of its two checks. -/
theorem traceless_assignLinks {α : Type} {employeeId : Nat}
    {managed granted : Prop} [Decidable managed] [Decidable granted]
    {managerIds projectIds : List Nat} {a : α} :
    wp (assignLinks caller employeeId managed granted managerIds projectIds a)
        (TracelessError start) db ↔
      ((managed → Replaceable db caller.orgId employeeId managerIds) ∨
          SameUserRows start db) ∧
        ((managed → Replaceable db caller.orgId employeeId managerIds) →
          (granted → Grantable caller
            (db.withManagersIf managed employeeId managerIds) employeeId
            projectIds) ∨
          SameUserRows start
            (db.withManagersIf managed employeeId managerIds)) := by
  constructor
  · intro traceless
    refine wp_elim (wp_assignLinks ?_ ?_ ?_) traceless
    · intro asked refused e traceless
      exact ⟨.inr (traceless e rfl), fun may => (refused (may asked)).elim⟩
    · intro may asked refused e traceless
      exact ⟨.inl may, fun _ => .inr (traceless e rfl)⟩
    · intro may grantable _
      exact ⟨.inl may, fun _ => .inl grantable⟩
  · rintro ⟨managers, projects⟩
    refine wp_assignLinks ?_ ?_ ?_
    · intro asked refused e _ _
      exact managers.resolve_left fun may => refused (may asked)
    · intro may asked refused e _ _
      exact (projects may).resolve_left fun grants => refused (grants asked)
    · intro _ _ e failed
      cases failed

/-! ## Writes that change nothing -/

theorem addUser_visible (now : Instant) (data : UserData) :
    (db.addUser now data).users.rows ≠ db.users.rows := by
  simp [Db.addUser]

theorem row_silent {user : User} {data : UserUpdate} {now : Instant}
    (member : user ∈ db.users.rows)
    (same : (db.setUser now user.id data).users.rows = db.users.rows) :
    data.apply now user = user := by
  have written : data.apply now user ∈
      (db.setUser now user.id data).users.rows :=
    Db.mem_setUser.mpr ⟨user, member, by simp⟩
  rw [same] at written
  exact db.users.eq_of_key written member rfl

/-- The written user shows unless its row stays the same. -/
theorem reviseUser_silent {user : User} {dto : UpdateUserDto}
    (member : user ∈ db.users.rows) (now : Instant) :
    SameUserRows db (db.reviseUser now user dto) ↔
      dto.columns.apply now user = user := by
  constructor
  · intro same
    refine row_silent member ?_
    simpa using same.users
  · intro silent
    have kept : ¬ dto.Demotes user := by
      rintro ⟨demoted, other⟩
      have role : (dto.columns.apply now user).role = user.role := by
        rw [silent]
      exact other (role.symm.trans demoted)
    rw [Db.reviseUser_kept kept]
    refine ⟨?_, rfl, rfl⟩
    have rows : ∀ u ∈ db.users.rows,
        (if u.id = user.id then dto.columns.apply now u else u) = u := by
      intro u uMem
      split
      · rename_i key
        cases db.users.eq_of_key uMem member key
        exact silent
      · rfl
    rw [Db.setUser, Table.rows_modify, List.map_congr_left rows, List.map_id']

/-- The replaced managers show unless there were and are none. -/
theorem withManagers_silent {employeeId : Nat} {managerIds : List Nat} :
    (db.withManagers employeeId managerIds).managerEmployees.rows =
        db.managerEmployees.rows ↔
      managerIds = [] ∧ db.Unmanaged employeeId := by
  constructor
  · intro same
    have none : managerIds = [] := by
      by_contra given
      rcases Db.exists_new_manager db employeeId given with
        ⟨r, member, _, new⟩
      exact new (same ▸ member)
    subst none
    refine ⟨rfl, fun r member key => ?_⟩
    rw [← same] at member
    rcases Db.mem_withManagers member with ⟨_, apart⟩ | ⟨given, _⟩
    · exact apart key
    · exact List.not_mem_nil given
  · rintro ⟨rfl, free⟩
    -- Nothing is deleted and nothing inserted.
    show (db.managerEmployees.deleteWhere fun r =>
      r.employeeId = employeeId).rows = _
    rw [Table.rows_deleteWhere, List.filter_eq_self]
    intro r member
    simpa using free r member

/-- The writes of an update before its last check. -/
theorem reviseUser_withManagers_silent {user : User} {dto : UpdateUserDto}
    {asked : Prop} [Decidable asked] {managerIds : List Nat}
    (member : user ∈ db.users.rows) (now : Instant) :
    SameUserRows db ((db.reviseUser now user dto).withManagersIf asked user.id
        managerIds) ↔
      dto.columns.apply now user = user ∧
        (asked → managerIds = [] ∧ db.Unmanaged user.id) := by
  have revised : SameUserRows db (db.reviseUser now user dto) ↔
      dto.columns.apply now user = user :=
    reviseUser_silent member now
  have users (same : SameUserRows db ((db.reviseUser now user
      dto).withManagersIf asked user.id managerIds)) :
      dto.columns.apply now user = user := by
    refine row_silent member ?_
    simpa using same.users
  constructor
  · intro same
    have silent := users same
    refine ⟨silent, fun yes => ?_⟩
    have kept := (revised.mpr silent).managerEmployees
    have replaced := same.managerEmployees
    rw [Db.withManagersIf, if_pos yes, ← kept, withManagers_silent] at replaced
    rwa [Db.Unmanaged, kept] at replaced
  · rintro ⟨silent, replaced⟩
    have kept := revised.mpr silent
    refine ⟨by simpa using kept.users, ?_, by simp⟩
    by_cases yes : asked
    · rw [Db.withManagersIf, if_pos yes, ← kept.managerEmployees,
        withManagers_silent]
      rw [Db.Unmanaged, kept.managerEmployees]
      exact replaced yes
    · rw [Db.withManagersIf, if_neg yes]
      exact kept.managerEmployees

/-! ## Both requests -/

variable (host) in
/-- The last part of a creation, begun after the insertion of the user. -/
theorem traceless_afterCreate (data : UserData)
    {managerIds projectIds : List Nat} :
    wp (assignLinks caller db.users.next (managerIds.length > 0)
        (projectIds.length > 0) managerIds projectIds
        (data.row host.now db.users.next)) (TracelessError db)
        (db.addUser host.now data) ↔
      LinksManagers db caller.orgId db.users.next managerIds ∧
        GrantsProjects caller db projectIds := by
  have others : ∀ u : User, u.id ≠ db.users.next →
      (u ∈ (db.addUser host.now data).users.rows ↔ u ∈ db.users.rows) := by
    intro u apart
    rw [Db.mem_addUser, or_iff_left]
    rintro rfl
    exact apart rfl
  have known : (db.addUser host.now data).users.HasKey db.users.next :=
    ⟨_, Db.mem_addUser.mpr (.inr rfl), rfl⟩
  have managers : (managerIds.length > 0 →
      Replaceable (db.addUser host.now data) caller.orgId db.users.next
        managerIds) ↔
      LinksManagers db caller.orgId db.users.next managerIds := by
    rw [replaceable_iff others known]
    refine ⟨fun checked => ?_, fun may _ => may⟩
    cases managerIds with
    | nil => exact .nil _ _
    | cons managerId rest => exact checked (by simp)
  have projects : (projectIds.length > 0 →
      Grantable caller
        ((db.addUser host.now data).withManagersIf (managerIds.length > 0)
          db.users.next managerIds) db.users.next projectIds) ↔
      GrantsProjects caller db projectIds := by
    refine ⟨fun checked => ?_,
      fun may _ => (grantable_iff db known rfl rfl).mpr may⟩
    cases projectIds with
    | nil => exact .nil
    | cons projectId rest =>
        exact (grantable_iff db known rfl rfl).mp (checked (by simp))
  have visible : ¬ SameUserRows db (db.addUser host.now data) :=
    fun same => addUser_visible host.now data same.users
  have stillVisible : ¬ SameUserRows db
      ((db.addUser host.now data).withManagersIf (managerIds.length > 0)
        db.users.next managerIds) :=
    fun same => addUser_visible host.now data (by simpa using same.users)
  rw [traceless_assignLinks, managers, projects, or_iff_left visible,
    or_iff_left stillVisible]
  exact ⟨fun checks => ⟨checks.1, checks.2 checks.1⟩,
    fun checks => ⟨checks.1, fun _ => checks.2⟩⟩

theorem createUser_traceless_iff (dto : CreateUserDto) :
    Traceless (createUser lib host caller.orgId dto caller.userId caller.role)
        db ↔
      SettledCreation lib caller db dto := by
  constructor
  · intro traceless may
    refine (traceless_afterCreate host (dto.data lib host caller.orgId)).mp
      (wp_elim (wp_createUser ?_ ?_) traceless)
    · exact fun refused => (refused may).elim
    · exact fun _ kept => kept
  · intro settled
    refine wp_createUser (fun _ e _ _ => .refl db) fun may => ?_
    exact (traceless_afterCreate host _).mpr (settled may)

/-- The last part of an update, begun after its first writes. -/
theorem traceless_afterUpdate {user : User} {dto : UpdateUserDto}
    (member : user ∈ db.users.rows) :
    wp (assignLinks caller user.id dto.managerIds.isSome dto.projectIds.isSome
        (dto.managerIds.getD []) (dto.projectIds.getD [])
        (dto.columns.apply host.now user)) (TracelessError db)
        (db.reviseUser host.now user dto) ↔
      dto.Settles host caller db user := by
  have others : ∀ u : User, u.id ≠ user.id →
      (u ∈ (db.reviseUser host.now user dto).users.rows ↔
        u ∈ db.users.rows) := by
    intro u apart
    rw [Db.reviseUser_users, Db.mem_setUser]
    constructor
    · rintro ⟨old, oldMem, rfl⟩
      by_cases touched : old.id = user.id
      · rw [if_pos touched] at apart
        exact (apart touched).elim
      · rwa [if_neg touched]
    · exact fun uMem => ⟨u, uMem, (if_neg apart).symm⟩
  have known : (db.reviseUser host.now user dto).users.HasKey user.id := by
    rw [Db.reviseUser_users]
    exact Table.hasKey_modify.mpr ⟨user, member, rfl⟩
  have managers : Replaceable (db.reviseUser host.now user dto) caller.orgId
      user.id (dto.managerIds.getD []) ↔
      LinksManagers db caller.orgId user.id (dto.managerIds.getD []) :=
    replaceable_iff others known
  rw [traceless_assignLinks, managers, reviseUser_silent member,
    reviseUser_withManagers_silent member]
  refine and_congr_right fun _ => imp_congr_right fun _ =>
    or_congr_left (imp_congr_right fun _ => ?_)
  exact grantable_iff db known Db.reviseUser_projects
    Db.reviseUser_projectManagers

theorem updateUser_traceless_iff (id : Nat) (dto : UpdateUserDto) :
    Traceless
        (updateUser host id caller.orgId dto caller.userId caller.role) db ↔
      SettledUpdate host caller db id dto := by
  constructor
  · rintro traceless user rfl may
    refine (traceless_afterUpdate may.member).mp
      (wp_elim (wp_updateUser ?_ ?_) traceless)
    · exact fun refused => (refused ⟨user, rfl, may⟩).elim
    · intro other key otherMay
      cases db.users.eq_of_key otherMay.member may.member key
      exact fun kept => kept
  · intro settled
    refine wp_updateUser (fun _ e _ _ => .refl db) ?_
    rintro user rfl may
    exact (traceless_afterUpdate may.member).mpr (settled user rfl may)

end

/--
A refused request to create or update a user leaves every user and link as it
was exactly when no check fails after a write that changed something.
-/
theorem refused_user_requests_traceless (lib : Libs) (host : Host)
    (caller : JwtPayload) (db : Db) :
    (∀ dto, Traceless
        (createUser lib host caller.orgId dto caller.userId caller.role) db ↔
      SettledCreation lib caller db dto) ∧
    ∀ id dto, Traceless
        (updateUser host id caller.orgId dto caller.userId caller.role) db ↔
      SettledUpdate host caller db id dto :=
  ⟨createUser_traceless_iff, updateUser_traceless_iff⟩

/-- A body with a manager that does not exist. -/
def unknownManagerDto : CreateUserDto where
  name := "Joe"
  email := "joe@acme"
  password := "password"
  role := none
  department := none
  managerIds := some [9]
  projectIds := none

/-- A new name and a manager that does not exist. -/
def renamedDto : UpdateUserDto where
  name := some "Joe"
  role := none
  department := none
  status := none
  managerIds := some [9]
  projectIds := none

/-- The user of a refused creation stays, and so does a refused new name. -/
theorem refused_user_requests_write :
    (∃ text, ((createUser plainLibs plainHost 1 unknownManagerDto 1
        .admin).exec officeDb).1 = .error (.validationError text)) ∧
      ¬ Traceless (createUser plainLibs plainHost 1 unknownManagerDto 1 .admin)
        officeDb ∧
      (∃ text, ((updateUser plainHost 2 1 renamedDto 1 .admin).exec
        officeDb).1 = .error (.validationError text)) ∧
      ¬ Traceless (updateUser plainHost 2 1 renamedDto 1 .admin)
        officeDb := by
  have created : ((createUser plainLibs plainHost 1 unknownManagerDto 1
      .admin).exec officeDb).1 = .error (.validationError
        ("Invalid manager IDs: 9. Must be active users with MANAGER or " ++
          "ADMIN role in the same organisation.")) := by
    decide +kernel
  have updated : ((updateUser plainHost 2 1 renamedDto 1 .admin).exec
      officeDb).1 = .error (.validationError
        ("Invalid manager IDs: 9. Must be active users with MANAGER or " ++
          "ADMIN role in the same organisation.")) := by
    decide +kernel
  have inserted : ((createUser plainLibs plainHost 1 unknownManagerDto 1
      .admin).exec officeDb).2.users.rows ≠ officeDb.users.rows := by
    decide +kernel
  have renamed : ((updateUser plainHost 2 1 renamedDto 1 .admin).exec
      officeDb).2.users.rows ≠ officeDb.users.rows := by
    decide +kernel
  exact ⟨⟨_, created⟩, fun traceless => inserted (traceless _ created).users,
    ⟨_, updated⟩, fun traceless => renamed (traceless _ updated).users⟩

end TmsApi
