import TmsApi.Refinement.Changes

/-!
# Changes that leave the timesheets alone

Side and public changes leave timesheets and entries alone and never touch
the booked hours of a project.  `Beside` collects this, so an invariant of
timesheets has to be checked on `SheetChange` and on `Beside` only.
-/

namespace TmsApi

open TmsApi.Core
open TmsApi.Core.Program

/--
Timesheets and entries are untouched, and every project has the hours it had
or is new and has none.
-/
structure Beside (before after : Db) : Prop where
  timesheets : after.timesheets = before.timesheets
  timeEntries : after.timeEntries = before.timeEntries
  counter : before.projects.next ≤ after.projects.next
  hours : ∀ p ∈ after.projects.rows,
    (∃ q ∈ before.projects.rows, q.id = p.id ∧ q.usedHours = p.usedHours) ∨
      (before.projects.next ≤ p.id ∧ p.usedHours = 0)

namespace Beside

theorem of_eq {before after : Db}
    (timesheets : after.timesheets = before.timesheets)
    (timeEntries : after.timeEntries = before.timeEntries)
    (projects : after.projects = before.projects) :
    Beside before after where
  timesheets := timesheets
  timeEntries := timeEntries
  counter := by rw [projects]
  hours p member := .inl ⟨p, projects ▸ member, rfl, rfl⟩

theorem refl (db : Db) : Beside db db := of_eq rfl rfl rfl

theorem trans {first second third : Db} (left : Beside first second)
    (right : Beside second third) : Beside first third where
  timesheets := right.timesheets.trans left.timesheets
  timeEntries := right.timeEntries.trans left.timeEntries
  counter := le_trans left.counter right.counter
  hours p member := by
    rcases right.hours p member with ⟨q, qMem, key, used⟩ | ⟨fresh, none⟩
    · rcases left.hours q qMem with ⟨r, rMem, key', used'⟩ | ⟨fresh, none⟩
      · exact .inl ⟨r, rMem, key'.trans key, used'.trans used⟩
      · exact .inr ⟨key ▸ fresh, used ▸ none⟩
    · exact .inr ⟨le_trans left.counter fresh, none⟩

theorem bind {α β : Type} {tx : Tx α} {f : α → Tx β}
    (first : Effects Beside tx) (rest : ∀ a, Effects Beside (f a)) :
    Effects Beside (tx >>= f) := by
  have trans := fun s t u => @Beside.trans s t u
  exact Effects.bind trans first rest

theorem pure {α : Type} (a : α) : Effects Beside (pure a : Tx α) :=
  Effects.pure Beside.refl a

theorem ite {condition : Prop} [Decidable condition] {tx : Tx PUnit}
    (beside : Effects Beside tx) :
    Effects Beside (if condition then tx else Pure.pure ⟨⟩) := by
  split
  · exact beside
  · exact Beside.pure _

/-- A chain of changes beside the timesheets is one. -/
theorem of_chain {rel : Db → Db → Prop}
    (each : ∀ db after, rel db after → Beside db after) {db after : Db}
    (chain : Relation.ReflTransGen rel db after) : Beside db after := by
  induction chain with
  | refl => exact Beside.refl db
  | tail _ change ih => exact ih.trans (each _ _ change)

end Beside

/-! ## Statements -/

namespace Prisma

theorem organisationCreate_beside (name : String) :
    Effects Beside (organisationCreate name) := by
  intro db a after outcome
  simp only [organisationCreate, ensure_eq_ok, Except.ok.injEq,
    Prod.mk.injEq] at outcome
  rcases outcome with ⟨_, rfl, rfl⟩
  exact .of_eq rfl rfl rfl

theorem orgSettingsCreate_beside (organisationId : Nat) :
    Effects Beside (orgSettingsCreate organisationId) := by
  intro db a after outcome
  simp only [orgSettingsCreate, ensure_eq_ok, Except.ok.injEq,
    Prod.mk.injEq] at outcome
  rcases outcome with ⟨_, _, rfl, rfl⟩
  exact .of_eq rfl rfl rfl

theorem orgSettingsUpsert_beside (organisationId : Nat)
    (dto : UpdateSettingsDto) :
    Effects Beside (orgSettingsUpsert organisationId dto) := by
  intro db a after outcome
  simp only [orgSettingsUpsert, ensure_eq_ok] at outcome
  rcases outcome with ⟨_, outcome⟩
  split at outcome
  · cases outcome
    exact .of_eq rfl rfl rfl
  · simp only [ensure_eq_ok, Except.ok.injEq, Prod.mk.injEq] at outcome
    rcases outcome with ⟨_, rfl, rfl⟩
    exact .of_eq rfl rfl rfl

theorem userCreate_beside (collate : String → String) (now : Instant)
    (data : UserData) : Effects Beside (userCreate collate now data) := by
  intro db a after outcome
  simp only [userCreate, ensure_eq_ok, Except.ok.injEq, Prod.mk.injEq]
    at outcome
  rcases outcome with ⟨_, _, _, rfl, rfl⟩
  exact .of_eq rfl rfl rfl

theorem userUpdate_beside (now : Instant) (id : Nat) (data : UserUpdate) :
    Effects Beside (userUpdate now id data) := by
  intro db a after outcome
  simp only [userUpdate] at outcome
  split at outcome
  · cases outcome
  · simp only [ensure_eq_ok, Except.ok.injEq, Prod.mk.injEq] at outcome
    rcases outcome with ⟨_, rfl, rfl⟩
    exact .of_eq rfl rfl rfl

theorem managerEmployeeDeleteMany_beside (p : ManagerEmployee → Prop)
    [DecidablePred p] : Effects Beside (managerEmployeeDeleteMany p) := by
  intro db a after outcome
  cases outcome
  exact .of_eq rfl rfl rfl

theorem managerEmployeeCreateMany_beside (links : List (Nat × Nat)) :
    Effects Beside (managerEmployeeCreateMany links) := by
  intro db a after outcome
  simp only [managerEmployeeCreateMany, ensure_eq_ok, Except.ok.injEq,
    Prod.mk.injEq] at outcome
  rcases outcome with ⟨_, _, _, rfl⟩
  exact .of_eq rfl rfl rfl

theorem projectManagerDeleteMany_beside (projectId : Nat) :
    Effects Beside (projectManagerDeleteMany projectId) := by
  intro db a after outcome
  cases outcome
  exact .of_eq rfl rfl rfl

theorem projectManagerCreateMany_beside (links : List (Nat × Nat)) :
    Effects Beside (projectManagerCreateMany links) := by
  intro db a after outcome
  simp only [projectManagerCreateMany, ensure_eq_ok, Except.ok.injEq,
    Prod.mk.injEq] at outcome
  rcases outcome with ⟨_, _, _, rfl⟩
  exact .of_eq rfl rfl rfl

theorem projectEmployeeDeleteMany_beside (p : ProjectEmployee → Prop)
    [DecidablePred p] : Effects Beside (projectEmployeeDeleteMany p) := by
  intro db a after outcome
  cases outcome
  exact .of_eq rfl rfl rfl

theorem projectEmployeeCreateMany_beside (links : List (Nat × Nat)) :
    Effects Beside (projectEmployeeCreateMany links) := by
  intro db a after outcome
  simp only [projectEmployeeCreateMany, ensure_eq_ok, Except.ok.injEq,
    Prod.mk.injEq] at outcome
  rcases outcome with ⟨_, _, _, rfl⟩
  exact .of_eq rfl rfl rfl

theorem projectCreateRow_beside (collate : String → String)
    (now : Instant) (data : ProjectData) :
    Effects Beside (projectCreateRow collate now data) := by
  intro db a after outcome
  simp only [projectCreateRow, ensure_eq_ok, Except.ok.injEq,
    Prod.mk.injEq] at outcome
  rcases outcome with ⟨_, _, _, rfl, rfl⟩
  refine ⟨rfl, rfl, Nat.le_succ _, fun p member => ?_⟩
  rcases (Table.mem_insert).mp member with old | rfl
  · exact .inl ⟨p, old, rfl, rfl⟩
  · exact .inr ⟨le_refl _, rfl⟩

theorem projectCreate_beside (collate : String → String) (now : Instant)
    (data : ProjectData) (managers employees : List Nat) :
    Effects Beside
      (projectCreate collate now data managers employees) := by
  refine Beside.bind (projectCreateRow_beside _ _ _) fun project => ?_
  refine Beside.bind (projectManagerCreateMany_beside _) fun _ => ?_
  refine Beside.bind (projectEmployeeCreateMany_beside _) fun _ => ?_
  exact Beside.pure project

/-- The body of a project update has no hours. -/
theorem projectUpdate_beside (collate : String → String) (now : Instant)
    (id : Nat) (data : ProjectUpdate) :
    Effects Beside (projectUpdate collate now id data) := by
  intro db a after outcome
  simp only [projectUpdate] at outcome
  split at outcome
  · cases outcome
  · simp only [ensure_eq_ok, Except.ok.injEq, Prod.mk.injEq] at outcome
    rcases outcome with ⟨_, _, rfl, rfl⟩
    refine ⟨rfl, rfl, le_refl _, fun p member => .inl ?_⟩
    rcases (Table.mem_modify).mp member with ⟨old, oldMem, rfl⟩
    refine ⟨old, oldMem, ?_⟩
    split <;> exact ⟨rfl, rfl⟩

theorem projectDelete_beside (id : Nat) :
    Effects Beside (projectDelete id) := by
  intro db a after outcome
  simp only [projectDelete, ensure_eq_ok, Except.ok.injEq, Prod.mk.injEq]
    at outcome
  rcases outcome with ⟨_, _, _, rfl⟩
  refine ⟨rfl, rfl, le_refl _, fun p member => .inl ?_⟩
  exact ⟨p, (Table.mem_deleteWhere.mp member).1, rfl, rfl⟩

theorem holidayCreate_beside (organisationId : Nat) (name : String)
    (date : JsDate) (recurring : Bool) :
    Effects Beside (holidayCreate organisationId name date recurring) := by
  intro db a after outcome
  cases date with
  | none => cases outcome
  | some date =>
      simp only [holidayCreate, ensure_eq_ok, Except.ok.injEq,
        Prod.mk.injEq] at outcome
      rcases outcome with ⟨_, _, rfl, rfl⟩
      exact .of_eq rfl rfl rfl

theorem holidayDelete_beside (id : Nat) :
    Effects Beside (holidayDelete id) := by
  intro db a after outcome
  simp only [holidayDelete, ensure_eq_ok, Except.ok.injEq, Prod.mk.injEq]
    at outcome
  rcases outcome with ⟨_, _, rfl⟩
  exact .of_eq rfl rfl rfl

theorem notificationMarkRead_beside (p : Notification → Prop)
    [DecidablePred p] : Effects Beside (notificationMarkRead p) := by
  intro db a after outcome
  cases outcome
  exact .of_eq rfl rfl rfl

end Prisma

/-! ## Changes -/

section

variable {lib : Libs} {host : Host} {caller : JwtPayload} {db after : Db}

theorem writeProject_beside (id : Nat) (dto : UpdateProjectDto) :
    Effects Beside (writeProject lib host id dto) := by
  have links {delete : Tx PUnit} {create : List (Nat × Nat) → Tx PUnit}
      (deletes : Effects Beside delete)
      (creates : ∀ list, Effects Beside (create list))
      (ids : Option (List Nat)) :
      Effects Beside (replaceLinks delete create id ids) := by
    cases ids with
    | none => exact Beside.pure _
    | some ids => exact Beside.bind deletes fun _ => Beside.ite (creates _)
  refine Beside.bind (Prisma.projectUpdate_beside _ _ _ _) fun p => ?_
  refine Beside.bind
    (links (Prisma.projectManagerDeleteMany_beside _)
      Prisma.projectManagerCreateMany_beside _) fun _ => ?_
  refine Beside.bind
    (links (Prisma.projectEmployeeDeleteMany_beside _)
      Prisma.projectEmployeeCreateMany_beside _) fun _ => ?_
  exact Beside.pure p

theorem SideChange.beside (change : SideChange lib host caller db after) :
    Beside db after := by
  cases change with
  | loggedOut wrote => exact Prisma.userUpdate_beside _ _ _ _ _ _ wrote
  | settings dto role wrote =>
      exact Prisma.orgSettingsUpsert_beside _ _ _ _ _ wrote
  | holidayCreated name date recurring role wrote =>
      exact Prisma.holidayCreate_beside _ _ _ _ _ _ _ wrote
  | holidayDeleted h role member org wrote =>
      exact Prisma.holidayDelete_beside _ _ _ _ wrote
  | notificationsRead p own wrote =>
      exact Prisma.notificationMarkRead_beside _ _ _ _ wrote
  | projectCreated data managers employees role org wrote =>
      exact Prisma.projectCreate_beside _ _ _ _ _ _ _ _ wrote
  | projectUpdated p dto role member org wrote =>
      exact writeProject_beside _ _ _ _ _ wrote
  | projectDeleted p role member org wrote =>
      exact Prisma.projectDelete_beside _ _ _ _ wrote
  | userCreated data role org wrote =>
      exact Prisma.userCreate_beside _ _ _ _ _ _ wrote
  | userUpdated id data role member wrote =>
      exact Prisma.userUpdate_beside _ _ _ _ _ _ wrote
  | reportsDropped managerId wrote =>
      exact Prisma.managerEmployeeDeleteMany_beside _ _ _ _ wrote
  | managersReplaced employeeId managerIds notSelf valid wrote =>
      exact (Beside.bind (Prisma.managerEmployeeDeleteMany_beside _)
        fun _ => Beside.ite (Prisma.managerEmployeeCreateMany_beside _))
        _ _ _ wrote
  | projectsReplaced employeeId projectIds valid wrote =>
      exact (Beside.bind (Prisma.projectEmployeeDeleteMany_beside _)
        fun _ => Beside.ite (Prisma.projectEmployeeCreateMany_beside _))
        _ _ _ wrote

theorem PublicChange.beside (change : PublicChange lib host db after) :
    Beside db after := by
  cases change with
  | registered dto passwordHash wrote =>
      exact (Beside.bind (Prisma.organisationCreate_beside _) fun _ =>
        Beside.bind (Prisma.orgSettingsCreate_beside _) fun _ =>
          Prisma.userCreate_beside _ _ _) _ _ _ wrote
  | tokenStored id token wrote =>
      exact Prisma.userUpdate_beside _ _ _ _ _ _ wrote

end

end TmsApi
