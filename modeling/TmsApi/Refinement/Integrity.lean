import TmsApi.Api

/-!
# Foreign keys under every statement

`Grows` is what every statement of the service does to the database whatever
its arguments: the foreign keys survive and no user leaves its organisation.
It is shown once for each statement and lifted to whole routes, so it holds
between any two statements of a request and under any interleaving.
-/

namespace TmsApi

open TmsApi.Core
open TmsApi.Core.Program

namespace Db

/-- Foreign keys are kept and members stay members. -/
structure Grows (before after : Db) : Prop where
  integrity : before.Integrity → after.Integrity
  member : ∀ userId orgId, before.Member userId orgId →
    after.Member userId orgId

theorem Grows.refl (db : Db) : db.Grows db where
  integrity := id
  member _ _ := id

theorem Grows.trans {first second third : Db}
    (left : first.Grows second) (right : second.Grows third) :
    first.Grows third where
  integrity holds := right.integrity (left.integrity holds)
  member u o holds := right.member u o (left.member u o holds)

theorem Member.hasKey {db : Db} {userId orgId : Nat}
    (member : db.Member userId orgId) : db.users.HasKey userId := by
  rcases member with ⟨u, uMem, rfl, _⟩
  exact ⟨u, uMem, rfl⟩

/-- Membership only depends on keys and organisations of the user rows. -/
theorem member_modify {db : Db} {p : User → Prop} [DecidablePred p]
    {data : UserUpdate} {now : Instant} {userId orgId : Nat}
    (member : db.Member userId orgId) :
    { db with users := db.users.modify p (data.apply now) }.Member
      userId orgId := by
  rcases member with ⟨u, uMem, key, org⟩
  refine ⟨if p u then data.apply now u else u,
    (Table.mem_modify).mpr ⟨u, uMem, rfl⟩, ?_⟩
  split <;> exact ⟨key, org⟩

theorem member_insert {db : Db} {make : Nat → User} [Table.Stamps make]
    {userId orgId : Nat}
    (member : db.Member userId orgId) :
    { db with users := db.users.insert make }.Member userId orgId := by
  rcases member with ⟨u, uMem, facts⟩
  exact ⟨u, Table.mem_insert.mpr (.inl uMem), facts⟩

/-! ## Changes of one table -/

section Users

variable {db : Db} (holds : db.Integrity)

include holds

theorem Integrity.insertUser (make : Nat → User) [Table.Stamps make]
    (org : db.organisations.HasKey (make db.users.next).organisationId) :
    { db with users := db.users.insert make }.Integrity :=
  { holds with
    user_org := holds.user_org.insert org
    link_manager := holds.link_manager.insertParent
    link_employee := holds.link_employee.insertParent
    projectManager_user := holds.projectManager_user.insertParent
    projectEmployee_user :=
      holds.projectEmployee_user.insertParent
    timesheet_user := holds.timesheet_user.insertParent
    timesheet_approver := fun t member u approver =>
      (holds.timesheet_approver t member u approver).insert
    notification_user := holds.notification_user.insertParent }

theorem Integrity.modifyUser (p : User → Prop) [DecidablePred p]
    (f : User → User) [Table.KeepsKey f]
    (org : ∀ u, (f u).organisationId = u.organisationId) :
    { db with users := db.users.modify p f }.Integrity :=
  { holds with
    user_org := holds.user_org.modifyOther org
    link_manager := holds.link_manager.modifyParent
    link_employee := holds.link_employee.modifyParent
    projectManager_user := holds.projectManager_user.modifyParent
    projectEmployee_user :=
      holds.projectEmployee_user.modifyParent
    timesheet_user := holds.timesheet_user.modifyParent
    timesheet_approver := fun t member u approver =>
      Table.hasKey_modify.mpr
        (holds.timesheet_approver t member u approver)
    notification_user := holds.notification_user.modifyParent }

end Users

end Db

namespace Prisma

open Db

theorem organisationCreate_grows (name : String) :
    Effects Grows (organisationCreate name) := by
  intro db org after outcome
  simp only [organisationCreate, ensure_eq_ok, Except.ok.injEq,
    Prod.mk.injEq] at outcome
  rcases outcome with ⟨_, rfl, rfl⟩
  refine ⟨fun holds => ?_, fun _ _ => id⟩
  exact
    { holds with
      settings_org := holds.settings_org.insertParent
      user_org := holds.user_org.insertParent
      project_org := holds.project_org.insertParent
      timesheet_org := holds.timesheet_org.insertParent
      holiday_org := holds.holiday_org.insertParent }

theorem orgSettingsCreate_grows (organisationId : Nat) :
    Effects Grows (orgSettingsCreate organisationId) := by
  intro db settings after outcome
  simp only [orgSettingsCreate, ensure_eq_ok, Except.ok.injEq,
    Prod.mk.injEq] at outcome
  rcases outcome with ⟨_, org, rfl, rfl⟩
  exact ⟨fun holds =>
    { holds with settings_org := holds.settings_org.insert org },
    fun _ _ => id⟩

theorem orgSettingsUpsert_grows (organisationId : Nat)
    (dto : UpdateSettingsDto) :
    Effects Grows (orgSettingsUpsert organisationId dto) := by
  intro db settings after outcome
  simp only [orgSettingsUpsert, ensure_eq_ok] at outcome
  rcases outcome with ⟨_, outcome⟩
  split at outcome
  · cases outcome
    exact ⟨fun holds =>
      { holds with
        settings_org := holds.settings_org.modifyOther fun _ => rfl },
      fun _ _ => id⟩
  · simp only [ensure_eq_ok, Except.ok.injEq, Prod.mk.injEq] at outcome
    rcases outcome with ⟨org, rfl, rfl⟩
    exact ⟨fun holds =>
      { holds with settings_org := holds.settings_org.insert org },
      fun _ _ => id⟩

theorem userCreate_grows (collate : String → String) (now : Instant)
    (data : UserData) :
    Effects Grows (userCreate collate now data) := by
  intro db user after outcome
  simp only [userCreate, ensure_eq_ok, Except.ok.injEq, Prod.mk.injEq]
    at outcome
  rcases outcome with ⟨_, _, org, rfl, rfl⟩
  exact ⟨fun holds => holds.insertUser _ org,
    fun _ _ => member_insert⟩

theorem userUpdate_grows (now : Instant) (id : Nat) (data : UserUpdate) :
    Effects Grows (userUpdate now id data) := by
  intro db user after outcome
  simp only [userUpdate] at outcome
  split at outcome
  · cases outcome
  · simp only [ensure_eq_ok, Except.ok.injEq, Prod.mk.injEq] at outcome
    rcases outcome with ⟨_, rfl, rfl⟩
    exact ⟨fun holds => holds.modifyUser _ _ fun _ => rfl,
      fun _ _ => member_modify⟩

theorem managerEmployeeDeleteMany_grows (p : ManagerEmployee → Prop)
    [DecidablePred p] : Effects Grows (managerEmployeeDeleteMany p) := by
  intro db done after outcome
  cases outcome
  exact ⟨fun holds =>
    { holds with
      link_manager := holds.link_manager.deleteWhere
      link_employee := holds.link_employee.deleteWhere },
    fun _ _ => id⟩

theorem managerEmployeeCreateMany_grows (links : List (Nat × Nat)) :
    Effects Grows (managerEmployeeCreateMany links) := by
  intro db done after outcome
  simp only [managerEmployeeCreateMany, ensure_eq_ok, Except.ok.injEq,
    Prod.mk.injEq] at outcome
  rcases outcome with ⟨_, users, _, rfl⟩
  exact ⟨fun holds =>
    { holds with
      link_manager := holds.link_manager.insertMany
        fun link member _ => (users link member).1
      link_employee := holds.link_employee.insertMany
        fun link member _ => (users link member).2 },
    fun _ _ => id⟩

theorem projectManagerDeleteMany_grows (projectId : Nat) :
    Effects Grows (projectManagerDeleteMany projectId) := by
  intro db done after outcome
  cases outcome
  exact ⟨fun holds =>
    { holds with
      projectManager_project := holds.projectManager_project.deleteWhere
      projectManager_user := holds.projectManager_user.deleteWhere },
    fun _ _ => id⟩

theorem projectManagerCreateMany_grows (links : List (Nat × Nat)) :
    Effects Grows (projectManagerCreateMany links) := by
  intro db done after outcome
  simp only [projectManagerCreateMany, ensure_eq_ok, Except.ok.injEq,
    Prod.mk.injEq] at outcome
  rcases outcome with ⟨_, keys, _, rfl⟩
  exact ⟨fun holds =>
    { holds with
      projectManager_project := holds.projectManager_project.insertMany
        fun link member _ => (keys link member).1
      projectManager_user := holds.projectManager_user.insertMany
        fun link member _ => (keys link member).2 },
    fun _ _ => id⟩

theorem projectEmployeeDeleteMany_grows (p : ProjectEmployee → Prop)
    [DecidablePred p] : Effects Grows (projectEmployeeDeleteMany p) := by
  intro db done after outcome
  cases outcome
  exact ⟨fun holds =>
    { holds with
      projectEmployee_project := holds.projectEmployee_project.deleteWhere
      projectEmployee_user := holds.projectEmployee_user.deleteWhere },
    fun _ _ => id⟩

theorem projectEmployeeCreateMany_grows (links : List (Nat × Nat)) :
    Effects Grows (projectEmployeeCreateMany links) := by
  intro db done after outcome
  simp only [projectEmployeeCreateMany, ensure_eq_ok, Except.ok.injEq,
    Prod.mk.injEq] at outcome
  rcases outcome with ⟨_, keys, _, rfl⟩
  exact ⟨fun holds =>
    { holds with
      projectEmployee_project := holds.projectEmployee_project.insertMany
        fun link member _ => (keys link member).1
      projectEmployee_user := holds.projectEmployee_user.insertMany
        fun link member _ => (keys link member).2 },
    fun _ _ => id⟩

theorem projectCreateRow_grows (collate : String → String) (now : Instant)
    (data : ProjectData) :
    Effects Grows (projectCreateRow collate now data) := by
  intro db project after outcome
  simp only [projectCreateRow, ensure_eq_ok, Except.ok.injEq,
    Prod.mk.injEq] at outcome
  rcases outcome with ⟨_, _, org, rfl, rfl⟩
  exact ⟨fun holds =>
    { holds with
      project_org := holds.project_org.insert org
      projectManager_project :=
        holds.projectManager_project.insertParent
      projectEmployee_project :=
        holds.projectEmployee_project.insertParent
      entry_project := holds.entry_project.insertParent },
    fun _ _ => id⟩

theorem projectCreate_grows (collate : String → String) (now : Instant)
    (data : ProjectData) (managers employees : List Nat) :
    Effects Grows (projectCreate collate now data managers employees) := by
  have trans := fun first second third => @Grows.trans first second third
  refine Effects.bind trans (projectCreateRow_grows _ _ _) fun project => ?_
  refine Effects.bind trans (projectManagerCreateMany_grows _) fun _ => ?_
  refine Effects.bind trans (projectEmployeeCreateMany_grows _) fun _ => ?_
  exact Effects.pure Grows.refl project

/-- Project rows may change in any column but key and organisation. -/
theorem modifyProject_grows (db : Db) (p : Project → Prop)
    [DecidablePred p] (f : Project → Project) [Table.KeepsKey f]
    (org : ∀ row, (f row).organisationId = row.organisationId) :
    db.Grows { db with projects := db.projects.modify p f } :=
  ⟨fun holds =>
    { holds with
      project_org := holds.project_org.modifyOther org
      projectManager_project :=
        holds.projectManager_project.modifyParent
      projectEmployee_project :=
        holds.projectEmployee_project.modifyParent
      entry_project := holds.entry_project.modifyParent },
    fun _ _ => id⟩

theorem projectUpdate_grows (collate : String → String) (now : Instant)
    (id : Nat) (data : ProjectUpdate) :
    Effects Grows (projectUpdate collate now id data) := by
  intro db project after outcome
  simp only [projectUpdate] at outcome
  split at outcome
  · cases outcome
  · simp only [ensure_eq_ok, Except.ok.injEq, Prod.mk.injEq] at outcome
    rcases outcome with ⟨_, _, rfl, rfl⟩
    exact modifyProject_grows db _ _ fun _ => rfl

theorem projectIncrementUsedHours_grows (now : Instant) (id : Nat)
    (hours : ℚ) : Effects Grows (projectIncrementUsedHours now id hours) := by
  intro db done after outcome
  simp only [projectIncrementUsedHours, ensure_eq_ok, Except.ok.injEq,
    Prod.mk.injEq] at outcome
  rcases outcome with ⟨_, _, rfl⟩
  exact modifyProject_grows db _ _ fun _ => rfl

theorem projectDelete_grows (id : Nat) :
    Effects Grows (projectDelete id) := by
  intro db done after outcome
  simp only [projectDelete, ensure_eq_ok, Except.ok.injEq, Prod.mk.injEq]
    at outcome
  rcases outcome with ⟨_, unused, _, rfl⟩
  refine ⟨fun holds => ?_, fun _ _ => fun member => member⟩
  exact
    { holds with
      project_org := holds.project_org.deleteWhere
      projectManager_project :=
        (holds.projectManager_project.deleteWhere).deleteParent
          fun row member other _ key gone => by
            have kept := (Table.mem_deleteWhere.mp member).2
            exact kept (key ▸ gone)
      projectManager_user := holds.projectManager_user.deleteWhere
      projectEmployee_project :=
        (holds.projectEmployee_project.deleteWhere).deleteParent
          fun row member other _ key gone => by
            have kept := (Table.mem_deleteWhere.mp member).2
            exact kept (key ▸ gone)
      projectEmployee_user := holds.projectEmployee_user.deleteWhere
      entry_project := holds.entry_project.deleteParent
        fun e member other _ key gone => unused e member (key ▸ gone) }

theorem timesheetCreate_grows (now : Instant) (data : TimesheetData) :
    Effects Grows (timesheetCreate now data) := by
  intro db t after outcome
  simp only [timesheetCreate, ensure_eq_ok, Except.ok.injEq,
    Prod.mk.injEq] at outcome
  rcases outcome with ⟨⟨org, user⟩, rfl, rfl⟩
  refine ⟨fun holds => ?_, fun _ _ => id⟩
  exact
    { holds with
      timesheet_org := holds.timesheet_org.insert org
      timesheet_user := holds.timesheet_user.insert user
      timesheet_approver := fun t member u approver => by
        rcases (Table.mem_insert).mp member with old | rfl
        · exact holds.timesheet_approver t old u approver
        · cases approver
      entry_timesheet := holds.entry_timesheet.insertParent }

theorem timesheetUpdate_grows (now : Instant) (id : Nat)
    (data : TimesheetUpdate) :
    Effects Grows (timesheetUpdate now id data) := by
  intro db t after outcome
  simp only [timesheetUpdate] at outcome
  split at outcome
  · cases outcome
  · simp only [ensure_eq_ok, Except.ok.injEq, Prod.mk.injEq] at outcome
    rcases outcome with ⟨_, approvers, rfl, rfl⟩
    refine ⟨fun holds => ?_, fun _ _ => fun member => member⟩
    exact
      { holds with
        timesheet_org := holds.timesheet_org.modifyOther fun _ => rfl
        timesheet_user := holds.timesheet_user.modifyOther fun _ => rfl
        timesheet_approver := fun t member u approver => by
          rcases (Table.mem_modify).mp member with
            ⟨old, oldMem, rfl⟩
          split at approver
          · rcases Option.or_eq_some_iff.mp approver with new | ⟨_, kept⟩
            · exact approvers u new
            · exact holds.timesheet_approver old oldMem u kept
          · exact holds.timesheet_approver old oldMem u approver
        entry_timesheet := holds.entry_timesheet.modifyParent }

theorem timesheetDelete_grows (id : Nat) :
    Effects Grows (timesheetDelete id) := by
  intro db done after outcome
  simp only [timesheetDelete, ensure_eq_ok, Except.ok.injEq,
    Prod.mk.injEq] at outcome
  rcases outcome with ⟨_, _, rfl⟩
  refine ⟨fun holds => ?_, fun _ _ => fun member => member⟩
  exact
    { holds with
      timesheet_org := holds.timesheet_org.deleteWhere
      timesheet_user := holds.timesheet_user.deleteWhere
      timesheet_approver := fun t member =>
        holds.timesheet_approver t (Table.mem_deleteWhere.mp member).1
      entry_timesheet :=
        (holds.entry_timesheet.deleteWhere).deleteParent
          fun e member other _ key gone => by
            have kept := (Table.mem_deleteWhere.mp member).2
            exact kept (key ▸ gone)
      entry_project := holds.entry_project.deleteWhere }

theorem timeEntryCreateMany_grows (now : Instant)
    (data : List TimeEntryData) :
    Effects Grows (timeEntryCreateMany now data) := by
  intro db done after outcome
  simp only [timeEntryCreateMany, ensure_eq_ok, Except.ok.injEq,
    Prod.mk.injEq] at outcome
  rcases outcome with ⟨_, keys, _, rfl⟩
  exact ⟨fun holds =>
    { holds with
      entry_timesheet := holds.entry_timesheet.insertMany
        fun d member _ => (keys d member).1
      entry_project := holds.entry_project.insertMany
        fun d member _ => (keys d member).2 },
    fun _ _ => id⟩

theorem timeEntryCreate_grows (now : Instant) (data : TimeEntryData) :
    Effects Grows (timeEntryCreate now data) := by
  intro db e after outcome
  simp only [timeEntryCreate, ensure_eq_ok, Except.ok.injEq,
    Prod.mk.injEq] at outcome
  rcases outcome with ⟨_, ⟨timesheet, project⟩, rfl, rfl⟩
  exact ⟨fun holds =>
    { holds with
      entry_timesheet := holds.entry_timesheet.insert timesheet
      entry_project := holds.entry_project.insert project },
    fun _ _ => id⟩

theorem timeEntryUpdate_grows (id : Nat) (data : TimeEntryUpdate) :
    Effects Grows (timeEntryUpdate id data) := by
  intro db e after outcome
  simp only [timeEntryUpdate] at outcome
  split at outcome
  · cases outcome
  · simp only [ensure_eq_ok, Except.ok.injEq, Prod.mk.injEq] at outcome
    rcases outcome with ⟨_, project, rfl, rfl⟩
    refine ⟨fun holds => ?_, fun _ _ => fun member => member⟩
    exact
      { holds with
        entry_timesheet := holds.entry_timesheet.modifyOther fun _ => rfl
        entry_project := holds.entry_project.modify
          fun e member _ => by
            cases given : data.projectId with
            | none =>
                simpa [TimeEntryUpdate.apply, given] using
                  holds.entry_project e member
            | some p =>
                simpa [TimeEntryUpdate.apply, given] using
                  project p given }

theorem timeEntryDelete_grows (id : Nat) :
    Effects Grows (timeEntryDelete id) := by
  intro db done after outcome
  simp only [timeEntryDelete, ensure_eq_ok, Except.ok.injEq,
    Prod.mk.injEq] at outcome
  rcases outcome with ⟨_, _, rfl⟩
  exact ⟨fun holds =>
    { holds with
      entry_timesheet := holds.entry_timesheet.deleteWhere
      entry_project := holds.entry_project.deleteWhere },
    fun _ _ => fun member => member⟩

theorem timeEntryDeleteMany_grows (timesheetId : Nat) :
    Effects Grows (timeEntryDeleteMany timesheetId) := by
  intro db done after outcome
  cases outcome
  exact ⟨fun holds =>
    { holds with
      entry_timesheet := holds.entry_timesheet.deleteWhere
      entry_project := holds.entry_project.deleteWhere },
    fun _ _ => id⟩

theorem holidayCreate_grows (organisationId : Nat) (name : String)
    (date : JsDate) (recurring : Bool) :
    Effects Grows (holidayCreate organisationId name date recurring) := by
  intro db holiday after outcome
  cases date with
  | none => cases outcome
  | some date =>
      simp only [holidayCreate, ensure_eq_ok, Except.ok.injEq,
        Prod.mk.injEq] at outcome
      rcases outcome with ⟨_, org, rfl, rfl⟩
      exact ⟨fun holds =>
        { holds with holiday_org := holds.holiday_org.insert org },
        fun _ _ => id⟩

theorem holidayDelete_grows (id : Nat) :
    Effects Grows (holidayDelete id) := by
  intro db done after outcome
  simp only [holidayDelete, ensure_eq_ok, Except.ok.injEq, Prod.mk.injEq]
    at outcome
  rcases outcome with ⟨_, _, rfl⟩
  exact ⟨fun holds =>
    { holds with holiday_org := holds.holiday_org.deleteWhere },
    fun _ _ => fun member => member⟩

theorem notificationCreate_grows (now : Instant)
    (data : NotificationData) :
    Effects Grows (notificationCreate now data) := by
  intro db n after outcome
  simp only [notificationCreate, ensure_eq_ok, Except.ok.injEq,
    Prod.mk.injEq] at outcome
  rcases outcome with ⟨_, user, rfl, rfl⟩
  exact ⟨fun holds =>
    { holds with
      notification_user := holds.notification_user.insert user },
    fun _ _ => id⟩

theorem notificationMarkRead_grows (p : Notification → Prop)
    [DecidablePred p] : Effects Grows (notificationMarkRead p) := by
  intro db done after outcome
  cases outcome
  exact ⟨fun holds =>
    { holds with
      notification_user := holds.notification_user.modifyOther fun _ => rfl },
    fun _ _ => id⟩

end Prisma

end TmsApi
