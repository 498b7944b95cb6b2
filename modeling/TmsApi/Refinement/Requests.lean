import TmsApi.Refinement.SheetRoutes
import TmsApi.Refinement.TeamRoutes

/-!
# Served requests make the changes of the abstract system

An authenticated request makes one sheet change, the team changes of its
caller, or a change of settings, holidays or notifications; the routes without
a token make chains of public changes.  The routes are assembled from the
services in one place, `handle_served`, and the coarser view of side changes
follows from it.
-/

namespace TmsApi

open TmsApi.Core
open TmsApi.Core.Program

section

variable {lib : Libs} {host : Host} {caller : JwtPayload} {call : Call}
  {db : Db}

/-- Side changes let the database grow. -/
theorem SideChange.grows {after : Db}
    (change : SideChange lib host caller db after) : db.Grows after := by
  cases change with
  | loggedOut wrote => exact Prisma.userUpdate_grows _ _ _ _ _ _ wrote
  | settings dto role wrote =>
      exact Prisma.orgSettingsUpsert_grows _ _ _ _ _ wrote
  | holidayCreated name date recurring role wrote =>
      exact Prisma.holidayCreate_grows _ _ _ _ _ _ _ wrote
  | holidayDeleted h role member org wrote =>
      exact Prisma.holidayDelete_grows _ _ _ _ wrote
  | notificationsRead p own wrote =>
      exact Prisma.notificationMarkRead_grows _ _ _ _ wrote
  | projectCreated data managers employees role org wrote =>
      exact Prisma.projectCreate_grows _ _ _ _ _ _ _ _ wrote
  | projectUpdated p dto role member org wrote =>
      exact writeProject_grows lib host _ _ _ _ _ wrote
  | projectDeleted p role member org wrote =>
      exact Prisma.projectDelete_grows _ _ _ _ wrote
  | userCreated data role org wrote =>
      exact Prisma.userCreate_grows _ _ _ _ _ _ wrote
  | userUpdated id data role member wrote =>
      exact Prisma.userUpdate_grows _ _ _ _ _ _ wrote
  | reportsDropped managerId wrote =>
      exact Prisma.managerEmployeeDeleteMany_grows _ _ _ _ wrote
  | managersReplaced employeeId managerIds notSelf valid wrote =>
      exact replaceManagers_grows _ _ _ _ _ wrote
  | projectsReplaced employeeId projectIds valid wrote =>
      exact replaceProjects_grows _ _ _ _ _ wrote

/-! ## Users, teams and projects -/

/-- A step of a user, team or project request as side changes. -/
theorem TeamChange.side {start after : Db} (holds : start.Integrity)
    (change : TeamChange lib host caller call start db after) :
    Relation.ReflTransGen (SideChange lib host caller) db after := by
  cases change with
  | loggedOut made known =>
      rcases known with ⟨u, member, key⟩
      exact .single (.loggedOut (userUpdate_eq_ok.mpr
        ⟨by simp [varchar?], ⟨u, member, key, rfl⟩, rfl⟩))
  | userCreated dto made begins role may =>
      exact .single (.userCreated (dto.data lib host caller.orgId) role rfl
        (userCreate_eq_ok.mpr ⟨⟨may.fits, may.free, may.org⟩, rfl, rfl⟩))
  | userUpdated user dto made begins role may =>
      have updated : SideChange lib host caller db
          (db.setUser host.now user.id dto.columns) :=
        .userUpdated user.id dto.columns role may.manages.member
          (userUpdate_eq_ok.mpr
            ⟨may.fits, ⟨user, may.member, rfl, rfl⟩, rfl⟩)
      by_cases demoted : dto.Demotes user
      · rw [Db.reviseUser_demoted demoted]
        exact (Relation.ReflTransGen.single updated).tail
          (.reportsDropped user.id rfl)
      · rw [Db.reviseUser_kept demoted]
        exact .single updated
  | deactivated id made begins role manages =>
      rcases manages.member with ⟨u, member, key, _⟩
      exact .single (.userUpdated id deactivation role manages.member
        (userUpdate_eq_ok.mpr
          ⟨by simp [varchar?, deactivation], ⟨u, member, key, rfl⟩, rfl⟩))
  | managersReplaced employeeId managerIds made role reach may =>
      exact .single (.managersReplaced employeeId managerIds may.notSelf
        may.valid may.wrote)
  | managersSet employeeId managerIds made begins role accepted may =>
      exact .single (.managersReplaced employeeId managerIds may.notSelf
        may.valid may.wrote)
  | projectsReplaced employeeId projectIds made role reach may =>
      exact .single (.projectsReplaced employeeId projectIds may.valid
        may.wrote)
  | projectCreated dto made begins role accepted may =>
      subst begins
      exact .single (.projectCreated (dto.data caller.orgId) _ _ role rfl
        ((projectCreate_eq_ok holds).mpr
          ⟨⟨may.fits, may.free, may.org, may.managers, may.employees⟩,
            rfl, rfl⟩))
  | projectUpdated p dto made begins role accepted may =>
      exact .single (.projectUpdated p dto role may.member may.org
        ((writeProject_eq_ok may.member).mpr
          ⟨⟨may.fits, may.free, may.managers, may.employees⟩, rfl, rfl⟩))
  | projectDeleted p made begins role member org unused =>
      refine .single (.projectDeleted p role member org ?_)
      simp only [Prisma.projectDelete, ensure_eq_ok]
      exact ⟨⟨p, member, rfl⟩, unused, rfl⟩

theorem sideChanges_grow {after : Db}
    (changes : Relation.ReflTransGen (SideChange lib host caller) db after) :
    db.Grows after := by
  induction changes with
  | refl => exact .refl _
  | tail _ change ih => exact ih.trans change.grows

theorem TeamChange.grows {start after : Db} (holds : start.Integrity)
    (change : TeamChange lib host caller call start db after) :
    db.Grows after :=
  sideChanges_grow (change.side holds)

theorem TeamSteps.side {start after : Db} (holds : start.Integrity)
    (steps : TeamSteps lib host caller call start after) :
    Relation.ReflTransGen (SideChange lib host caller) start after := by
  induction steps with
  | refl => exact .refl
  | tail _ change ih => exact ih.trans (change.side holds)

theorem TeamSteps.grows {start after : Db} (holds : start.Integrity)
    (steps : TeamSteps lib host caller call start after) :
    start.Grows after :=
  sideChanges_grow (TeamSteps.side holds steps)

/-! ## Settings, holidays and notifications -/

/-- A side change that leaves users, links and projects alone. -/
structure Aside (lib : Libs) (host : Host) (caller : JwtPayload)
    (db after : Db) : Prop where
  change : SideChange lib host caller db after
  same : SameTeam db after

/-- Nothing, or one change aside. -/
def AsideStep {α : Type} (lib : Libs) (host : Host) (caller : JwtPayload)
    (db : Db) (_ : Except Thrown α) (after : Db) : Prop :=
  after = db ∨ Aside lib host caller db after

/-- A write of settings, by a request whose body was accepted. -/
structure WritesSettings (caller : JwtPayload) (call : Call) (db after : Db)
    (dto : UpdateSettingsDto) : Prop where
  made : call = .updateSettings dto
  accepted : Schemas.updateSettingsSchema dto = []
  wrote : ∃ s, Prisma.orgSettingsUpsert caller.orgId dto db = .ok (s, after)

/-- Nothing, or one change aside; and settings only from their own route. -/
structure AsideEffect {α : Type} (lib : Libs) (host : Host)
    (caller : JwtPayload) (call : Call) (db : Db)
    (result : Except Thrown α) (after : Db) : Prop where
  step : AsideStep lib host caller db result after
  settings : after.orgSettings = db.orgSettings ∨
    ∃ dto, WritesSettings caller call db after dto

@[simp]
theorem asideEffect_self {α : Type} (result : Except Thrown α) :
    AsideEffect lib host caller call db result db :=
  ⟨.inl rfl, .inl rfl⟩

theorem updateSettings_asideEffect (dto : UpdateSettingsDto)
    (role : caller.role = .admin)
    (accepted : Schemas.updateSettingsSchema dto = []) :
    wp (updateSettings caller.orgId dto)
      (AsideEffect lib host caller (.updateSettings dto) db) db := by
  simp only [updateSettings, wp_statement, asideEffect_self, implies_true,
    true_and]
  intro s after wrote
  refine ⟨.inr ⟨.settings dto role wrote, ?_⟩,
    .inr ⟨dto, rfl, accepted, s, wrote⟩⟩
  simp only [Prisma.orgSettingsUpsert, ensure_eq_ok] at wrote
  rcases wrote with ⟨_, wrote⟩
  split at wrote
  · cases wrote
    exact { SameTeam.refl db with }
  · simp only [ensure_eq_ok, Except.ok.injEq, Prod.mk.injEq] at wrote
    rcases wrote with ⟨_, _, rfl⟩
    exact { SameTeam.refl db with }

theorem createHoliday_asideEffect (dto : CreateHolidayDto)
    (role : caller.role = .admin) :
    wp (createHoliday caller.orgId dto) (AsideEffect lib host caller call db)
      db := by
  simp only [createHoliday, wp_statement, asideEffect_self, implies_true,
    true_and]
  intro h after wrote
  have change : SideChange lib host caller db after :=
    .holidayCreated _ _ _ role wrote
  cases date : dto.date.toDate with
  | none => simp [Prisma.holidayCreate, date] at wrote
  | some date =>
      simp only [Prisma.holidayCreate, date, ensure_eq_ok, Except.ok.injEq,
        Prod.mk.injEq] at wrote
      rcases wrote with ⟨_, _, _, rfl⟩
      exact ⟨.inr ⟨change, { SameTeam.refl db with }⟩, .inl rfl⟩

theorem deleteHoliday_asideEffect (id : Nat) (role : caller.role = .admin) :
    wp (deleteHoliday id caller.orgId) (AsideEffect lib host caller call db)
      db := by
  simp only [deleteHoliday, wp_bind, wp_query, wp_orThrow, wp_statement,
    andThen_ok, andThen_error, asideEffect_self, implies_true, true_and]
  intro h found done after wrote
  rcases Table.find?_spec found with ⟨member, rfl, org⟩
  have change : SideChange lib host caller db after :=
    .holidayDeleted h role member org wrote
  simp only [Prisma.holidayDelete, ensure_eq_ok, Except.ok.injEq,
    Prod.mk.injEq] at wrote
  rcases wrote with ⟨_, _, rfl⟩
  exact ⟨.inr ⟨change, { SameTeam.refl db with }⟩, .inl rfl⟩

theorem markAsRead_asideEffect (id : Nat) :
    wp (markAsRead id caller.userId) (AsideEffect lib host caller call db)
      db := by
  simp only [markAsRead, wp_bind, wp_query, wp_orThrow, wp_statement,
    andThen_ok, andThen_error, pure_eq, wp_done, asideEffect_self,
    implies_true, true_and]
  intro n found done after wrote
  rcases Table.find?_spec found with ⟨member, rfl, owner⟩
  have change : SideChange lib host caller db after := by
    refine .notificationsRead _ ?_ wrote
    intro other otherMem same
    rw [db.notifications.eq_of_key otherMem member same, owner]
  cases wrote
  exact ⟨.inr ⟨change, { SameTeam.refl db with }⟩, .inl rfl⟩

theorem markAllAsRead_asideEffect :
    wp (markAllAsRead caller.userId) (AsideEffect lib host caller call db)
      db := by
  simp only [markAllAsRead, wp_statement, asideEffect_self, implies_true,
    true_and]
  intro done after wrote
  have change : SideChange lib host caller db after :=
    .notificationsRead _ (fun _ _ own => own.1) wrote
  cases wrote
  exact ⟨.inr ⟨change, { SameTeam.refl db with }⟩, .inl rfl⟩

/-! ## Routes without a token -/

theorem openSession_chains (user : User) :
    Chains (PublicChange lib host) (openSession lib host user) := by
  intro db
  simp only [openSession, wp_bind, wp_statement, andThen_ok, andThen_error,
    pure_eq, wp_done]
  exact ⟨fun _ _ => .refl, fun u after wrote =>
    .single (.tokenStored user.id _ wrote)⟩

theorem registerUser_chains (dto : RegisterDto) :
    Chains (PublicChange lib host) (registerUser lib host dto) := by
  intro db
  simp only [registerUser, wp_bind, wp_query, wp_throwIf, wp_statement,
    andThen_ok, andThen_error]
  refine ⟨fun _ => .refl, fun _ => ⟨fun _ _ => .refl, ?_⟩⟩
  intro user after wrote
  exact Chains.after (openSession_chains user)
    (.single (.registered dto _ wrote))

theorem loginUser_chains (dto : LoginDto) :
    Chains (PublicChange lib host) (loginUser lib host dto) := by
  intro db
  simp only [loginUser, wp_bind, wp_query, wp_orThrow, wp_throwIf,
    andThen_ok, andThen_error]
  exact ⟨fun _ => .refl, fun user _ =>
    ⟨fun _ => .refl, fun _ => openSession_chains user db⟩⟩

theorem refreshAccessToken_chains (token : String) :
    Chains (PublicChange lib host) (refreshAccessToken lib host token) := by
  intro db
  simp only [refreshAccessToken, wp_bind, wp_query, wp_orThrow, wp_whenever,
    wp_statement, andThen_ok, andThen_error, throw_eq, wp_done]
  refine ⟨fun _ => .refl, fun payload _ => ⟨fun _ => .refl, ?_⟩⟩
  refine fun user _ => ⟨fun _ => .refl, fun stored _ => ⟨fun _ => ?_, ?_⟩⟩
  · exact ⟨fun _ _ => .refl, fun u after wrote =>
      .single (.tokenStored payload.userId _ wrote)⟩
  · exact fun _ => openSession_chains user db

theorem handlePublic_chains (call : PublicCall) :
    Chains (PublicChange lib host) (handlePublic lib host call) := by
  have validated (issues : List Issue) :
      Chains (PublicChange lib host) (validate issues) := by
    intro db
    simp only [validate, wp_throwIf]
    exact ⟨fun _ => .refl, fun _ => .refl⟩
  cases call with
  | register dto =>
      exact .bind (validated _) fun _ =>
        .bind (registerUser_chains dto) fun _ => chains_done _
  | login dto =>
      exact .bind (validated _) fun _ =>
        .bind (loginUser_chains dto) fun _ => chains_done _
  | refresh token =>
      exact .bind (refreshAccessToken_chains token) fun _ => chains_done _

/-! ## Authenticated routes -/

/-- The response does not matter for what is left in the database. -/
theorem wp_respond {α β : Type} {program : Service α} {g : α → β}
    {left : Db → Prop} (step : wp program (fun _ => left) db) :
    wp (program >>= fun a => pure (g a)) (fun _ => left) db := by
  rw [wp_bind]
  refine wp_mono ?_ step
  intro result after holds
  cases result with
  | ok a => exact holds
  | error e => exact holds

/-- Middleware passes its condition on to the rest of the route. -/
theorem wp_guarded {α : Type} {condition : Prop} [Decidable condition]
    {error : Thrown} {rest : PUnit → Service α} {left : Db → Prop}
    (here : left db)
    (served : ¬ condition → wp (rest ⟨⟩) (fun _ => left) db) :
    wp (throwIf condition error >>= rest) (fun _ => left) db := by
  simp only [wp_bind, wp_throwIf, andThen_error, andThen_ok]
  exact ⟨fun _ => here, served⟩

/-- The routes that write timesheets and their entries. -/
def Call.OnSheets : Call → Prop
  | .createTimesheet _ => True
  | .copyPreviousWeek _ _ => True
  | .updateTimesheet _ _ => True
  | .deleteTimesheet _ => True
  | .submitTimesheet _ => True
  | .createEntry _ _ => True
  | .updateEntry _ _ _ => True
  | .deleteEntry _ _ => True
  | .approveTimesheet _ => True
  | .rejectTimesheet _ _ => True
  | _ => False

/-- What a request off the timesheets does to the database. -/
inductive OffSheets (lib : Libs) (host : Host) (caller : JwtPayload)
    (call : Call) (db : Db) : Db → Prop where
  | team {after : Db} (steps : TeamSteps lib host caller call db after) :
      OffSheets lib host caller call db after
  | aside {α : Type} {result : Except Thrown α} {after : Db}
      (effect : AsideEffect lib host caller call db result after) :
      OffSheets lib host caller call db after

theorem offSheets_self : OffSheets lib host caller call db db :=
  .team .refl

theorem OffSheets.ofTeam {α : Type} {program : Service α}
    (steps : wp program
      (fun _ after => TeamSteps lib host caller call db after) db) :
    wp program (fun _ => OffSheets lib host caller call db) db :=
  wp_mono (fun _ _ steps => .team steps) steps

theorem OffSheets.ofAside {α : Type} {program : Service α}
    (effect : wp program (AsideEffect lib host caller call db) db) :
    wp program (fun _ => OffSheets lib host caller call db) db :=
  wp_mono (fun _ _ effect => .aside effect) effect

/-- The routes of managers and administrators. -/
theorem managing {role : UserRole}
    (passed : ¬ role ∉ [UserRole.manager, UserRole.admin]) :
    role = .manager ∨ role = .admin := by
  have member := not_not.mp passed
  simpa using member

theorem administrating {role : UserRole}
    (passed : ¬ role ∉ [UserRole.admin]) : role = .admin := by
  simpa using passed

theorem handle_offSheets (holds : db.Integrity) (off : ¬ call.OnSheets) :
    wp (handle lib host caller call)
      (fun _ => OffSheets lib host caller call db) db := by
  have here : OffSheets lib host caller call db db := offSheets_self
  cases call with
  | logout => exact wp_respond (.ofTeam logoutUser_team)
  | createProject dto =>
      exact wp_guarded here fun role => wp_guarded here fun accepted =>
        wp_respond (.ofTeam (createProject_team dto (managing role)
          (not_not.mp accepted) holds))
  | updateProject id dto =>
      exact wp_guarded here fun role => wp_guarded here fun accepted =>
        wp_respond (.ofTeam (updateProject_team id dto (managing role)
          (not_not.mp accepted)))
  | deleteProject id =>
      exact wp_guarded here fun role =>
        wp_respond (.ofTeam (deleteProject_team id (managing role)))
  | createUser dto =>
      exact wp_guarded here fun role => wp_guarded here fun _ =>
        wp_respond (.ofTeam (createUser_team dto (managing role)))
  | updateUser id dto =>
      exact wp_guarded here fun role => wp_guarded here fun _ =>
        wp_respond (.ofTeam (updateUser_team id dto (managing role)))
  | deactivateUser id =>
      exact wp_guarded here fun role =>
        wp_respond (.ofTeam (deactivateUser_team id (managing role)))
  | setUserManagers id managerIds =>
      exact wp_guarded here fun role => wp_guarded here fun accepted =>
        wp_respond (.ofTeam (setUserManagers_team id managerIds
          (administrating role) (not_not.mp accepted)))
  | createHoliday dto =>
      exact wp_guarded here fun role => wp_guarded here fun _ =>
        wp_respond
          (.ofAside (createHoliday_asideEffect dto (administrating role)))
  | deleteHoliday id =>
      exact wp_guarded here fun role =>
        wp_respond
          (.ofAside (deleteHoliday_asideEffect id (administrating role)))
  | updateSettings dto =>
      exact wp_guarded here fun role => wp_guarded here fun accepted =>
        wp_respond (.ofAside (updateSettings_asideEffect dto
          (administrating role) (not_not.mp accepted)))
  | markRead id => exact wp_respond (.ofAside (markAsRead_asideEffect id))
  | markAllRead => exact wp_respond (.ofAside markAllAsRead_asideEffect)
  | _ => exact (off trivial).elim

/-- What an authenticated request does to the database. -/
inductive Served (lib : Libs) (host : Host) (caller : JwtPayload)
    (call : Call) (db : Db) : Db → Prop where
  | sheet {after : Db} (change : SheetChange host caller call db after) :
      Served lib host caller call db after
  | team {after : Db} (steps : TeamSteps lib host caller call db after) :
      Served lib host caller call db after
  | aside {after : Db} (aside : Aside lib host caller db after) :
      Served lib host caller call db after

/-- The response does not matter for what is served. -/
def Serves {α : Type} (lib : Libs) (host : Host) (caller : JwtPayload)
    (call : Call) (db : Db) (_ : Except Thrown α) (after : Db) : Prop :=
  Served lib host caller call db after

theorem OffSheets.served {after : Db}
    (off : OffSheets lib host caller call db after) :
    Served lib host caller call db after := by
  cases off with
  | team steps => exact .team steps
  | aside effect =>
      rcases effect.step with rfl | aside
      · exact .team .refl
      · exact .aside aside

/-- The routes of timesheets change one timesheet or nothing. -/
theorem handle_onSheets (holds : db.Integrity) (on : call.OnSheets) :
    wp (handle lib host caller call)
      (fun _ after => after = db ∨ SheetChange host caller call db after)
      db := by
  have here : db = db ∨ SheetChange host caller call db db := .inl rfl
  cases call with
  | createTimesheet dto => exact wp_respond (createTimesheet_step dto)
  | copyPreviousWeek targetWeekStart force =>
      exact wp_respond (copyPreviousWeek_step targetWeekStart force)
  | updateTimesheet id dto => exact wp_respond (updateTimesheet_step id dto)
  | deleteTimesheet id => exact wp_respond (deleteTimesheet_step id)
  | submitTimesheet id => exact wp_respond (submitTimesheet_step id)
  | createEntry timesheetId dto =>
      exact wp_guarded here fun accepted => wp_respond
        (createEntry_step timesheetId dto (not_not.mp accepted))
  | updateEntry timesheetId entryId dto =>
      exact wp_guarded here fun accepted => wp_respond
        (updateEntry_step timesheetId entryId dto (not_not.mp accepted))
  | deleteEntry timesheetId entryId =>
      exact wp_respond (deleteEntry_step timesheetId entryId)
  | approveTimesheet id =>
      exact wp_guarded here fun role => wp_respond
        (approveTimesheet_step id holds (managing role))
  | rejectTimesheet id dto =>
      exact wp_guarded here fun role => wp_guarded here fun _ => wp_respond
        (rejectTimesheet_step id dto.reason holds (managing role))
  | _ => exact on.elim

theorem handle_served (holds : db.Integrity) (call : Call) :
    wp (handle lib host caller call) (Serves lib host caller call db) db := by
  by_cases on : call.OnSheets
  · refine wp_mono ?_ (handle_onSheets holds on)
    rintro _ after (rfl | change)
    · exact Served.team .refl
    · exact Served.sheet change
  · exact wp_mono (fun _ _ off => OffSheets.served off)
      (handle_offSheets holds on)

/-- The coarser view: one sheet change or side changes. -/
theorem Served.effect {after : Db} (holds : db.Integrity)
    (served : Served lib host caller call db after) :
    Effect lib host caller call db after := by
  cases served with
  | sheet change => exact .sheet change
  | team steps => exact .side (TeamSteps.side holds steps)
  | aside aside => exact .side (.single aside.change)

end

end TmsApi
