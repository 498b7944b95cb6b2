import TmsApi.Core.Histories
import TmsApi.Refinement.SheetRoutes
import TmsApi.Refinement.Statements

/-!
# What no request ever changes

The columns that say whose a row is: the organisation and the address of a
user, the owner and the organisation of a timesheet, the timesheet of an
entry, the organisation of a project, whole holidays, and all of a
notification but its read mark.  No statement writes them in an existing row.
Organisations, their settings, users and notifications are never deleted, and
a new organisation has settings and a member from the start.

`Kept` says so of two states of the database.  It also says what stays when
some permits are withheld: approvers, the entries of timesheets, the hours
booked on projects and the contents of the inboxes.  The tables stay in the
order of their keys.  Every statement the API
issues keeps to it, so it relates the ends of any interleaving.
-/

namespace TmsApi

open TmsApi.Core
open TmsApi.Core.Program

/-! ## Whose a row is -/

def OrgSettings.identity (s : OrgSettings) : Nat × Nat :=
  (s.id, s.organisationId)

def User.identity (u : User) : Nat × Nat × String × Instant :=
  (u.id, u.organisationId, u.email, u.createdAt)

def Project.identity (p : Project) : Nat × Nat × Instant :=
  (p.id, p.organisationId, p.createdAt)

def Timesheet.identity (t : Timesheet) : Nat × Nat × Nat :=
  (t.id, t.organisationId, t.userId)

def TimeEntry.identity (e : TimeEntry) : Nat × Nat × Instant :=
  (e.id, e.timesheetId, e.createdAt)

def Notification.content (n : Notification) :
    Nat × Nat × NotificationType × String × Instant :=
  (n.id, n.userId, n.type, n.message, n.createdAt)

namespace Db

/-- Every organisation has settings and a member. -/
def Founded (db : Db) : Prop :=
  ∀ o ∈ db.organisations.rows,
    (∃ s ∈ db.orgSettings.rows, s.organisationId = o.id) ∧
      ∃ u ∈ db.users.rows, u.organisationId = o.id

/-- The rows of all tables stand in the order of their keys. -/
structure Ordered (db : Db) : Prop where
  orgSettings : db.orgSettings.Ordered
  users : db.users.Ordered
  managerEmployees : db.managerEmployees.Ordered
  projects : db.projects.Ordered
  projectManagers : db.projectManagers.Ordered
  projectEmployees : db.projectEmployees.Ordered
  timesheets : db.timesheets.Ordered
  timeEntries : db.timeEntries.Ordered
  holidays : db.holidays.Ordered
  notifications : db.notifications.Ordered

theorem ordered_empty : Db.empty.Ordered := by
  constructor <;> exact .empty

/--
What two states of the database have in common.  An approver is one that was
there before or one that may decide the timesheet.
-/
structure Kept (may : Permits) (before after : Db) : Prop where
  organisations : Table.Appends id before.organisations after.organisations
  orgSettings :
    Table.Appends OrgSettings.identity before.orgSettings after.orgSettings
  users : Table.Appends User.identity before.users after.users
  projects : Table.Descends Project.identity before.projects after.projects
  timesheets :
    Table.Descends Timesheet.identity before.timesheets after.timesheets
  timeEntries :
    Table.Descends TimeEntry.identity before.timeEntries after.timeEntries
  holidays : Table.Descends id before.holidays after.holidays
  notifications :
    Table.Appends Notification.content before.notifications
      after.notifications
  approvers : ∀ t ∈ after.timesheets.rows, ∀ u ∈ t.approvedById,
    may.decides u t.id ∨ ∃ old ∈ before.timesheets.rows,
      old.id = t.id ∧ old.approvedById = some u
  entries : ∀ k < before.timesheets.next, ¬ may.edits k →
    (∀ e ∈ before.entriesOf k, ¬ may.changes e.id) →
      after.entriesOf k = before.entriesOf k
  booked : ¬ may.books →
    Table.Descends Project.usedHours before.projects after.projects
  notices : ¬ may.notifies →
    after.notifications.rows.map Notification.content =
      before.notifications.rows.map Notification.content
  founded : before.Founded → after.Founded
  ordered : before.Ordered → after.Ordered

namespace Kept

variable {may : Permits} {first second third : Db}

theorem refl (db : Db) : Kept may db db where
  organisations := .refl _ _
  orgSettings := .refl _ _
  users := .refl _ _
  projects := .refl _ _
  timesheets := .refl _ _
  timeEntries := .refl _ _
  holidays := .refl _ _
  notifications := .refl _ _
  approvers t member _ approver := .inr ⟨t, member, rfl, approver⟩
  entries _ _ _ _ := rfl
  booked _ := .refl _ _
  notices _ := rfl
  founded := id
  ordered := id

theorem trans (left : Kept may first second)
    (right : Kept may second third) : Kept may first third where
  organisations := left.organisations.trans right.organisations
  orgSettings := left.orgSettings.trans right.orgSettings
  users := left.users.trans right.users
  projects := left.projects.trans right.projects
  timesheets := left.timesheets.trans right.timesheets
  timeEntries := left.timeEntries.trans right.timeEntries
  holidays := left.holidays.trans right.holidays
  notifications := left.notifications.trans right.notifications
  approvers t member u approver := by
    rcases right.approvers t member u approver with
      may | ⟨middle, middleMem, same, approved⟩
    · exact .inl may
    · rw [← same]
      exact left.approvers middle middleMem u approved
  entries k old kept spared := by
    have first := left.entries k old kept spared
    rw [← first]
    refine right.entries k (lt_of_lt_of_le old left.timesheets.next_le) kept
      fun e member => spared e ?_
    rwa [← first]
  booked never := (left.booked never).trans (right.booked never)
  notices never := (right.notices never).trans (left.notices never)
  founded := right.founded ∘ left.founded
  ordered := right.ordered ∘ left.ordered

/-- Members stay members. -/
theorem member (kept : Kept may first second) {userId orgId : Nat}
    (member : first.Member userId orgId) : second.Member userId orgId := by
  rcases member with ⟨u, uMem, rfl, rfl⟩
  rcases kept.users.exists_of_mem uMem with ⟨new, newMem, same⟩
  exact ⟨new, newMem, congrArg Prod.fst same,
    congrArg (fun reads => reads.2.1) same⟩

/-- With all permits less is in common. -/
theorem weaken (kept : Kept may first second) : Kept .all first second :=
  { kept with
    approvers := fun _ _ _ _ => .inl trivial
    entries := fun _ _ withheld _ => (withheld trivial).elim
    booked := fun withheld => (withheld trivial).elim
    notices := fun withheld => (withheld trivial).elim }

end Kept

/-- Settings and members that stay are those an organisation began with. -/
theorem Founded.carry {before after : Db} (founded : before.Founded)
    (organisations : after.organisations.rows = before.organisations.rows)
    (settings :
      Table.Appends OrgSettings.identity before.orgSettings after.orgSettings)
    (users : Table.Appends User.identity before.users after.users) :
    after.Founded := by
  intro o member
  rw [organisations] at member
  rcases founded o member with ⟨⟨s, sMem, sOrg⟩, u, uMem, uOrg⟩
  rcases settings.exists_of_mem sMem with ⟨s', sMem', sSame⟩
  rcases users.exists_of_mem uMem with ⟨u', uMem', uSame⟩
  have sOrg' : s'.organisationId = s.organisationId :=
    congrArg Prod.snd sSame
  have uOrg' : u'.organisationId = u.organisationId :=
    congrArg (fun reads => reads.2.1) uSame
  exact ⟨⟨s', sMem', sOrg'.trans sOrg⟩, u', uMem', uOrg'.trans uOrg⟩

end Db

/-! ## Statements -/

namespace Prisma

open Db

variable {may : Permits}

theorem kept_bind {α β : Type} {tx : Tx α} {f : α → Tx β}
    (left : Effects (Kept may) tx)
    (right : ∀ a, Effects (Kept may) (f a)) :
    Effects (Kept may) (tx >>= f) :=
  Effects.bind (fun s t u => @Kept.trans may s t u) left right

theorem kept_pure {α : Type} (a : α) :
    Effects (Kept may) (pure a : Tx α) :=
  Effects.pure Kept.refl a

theorem kept_ite {condition : Prop} [Decidable condition] {tx : Tx PUnit}
    (kept : Effects (Kept may) tx) :
    Effects (Kept may) (if condition then tx else pure ⟨⟩) := by
  split
  · exact kept
  · exact kept_pure _

/-- Settings are written in no column that tells whose they are. -/
theorem orgSettingsUpsert_kept (orgId : Nat) (dto : UpdateSettingsDto) :
    Effects (Kept may) (orgSettingsUpsert orgId dto) := by
  intro db settings after outcome
  simp only [orgSettingsUpsert, ensure_eq_ok] at outcome
  rcases outcome with ⟨_, outcome⟩
  split at outcome
  · cases outcome
    have settings : Table.Appends OrgSettings.identity db.orgSettings
        (db.orgSettings.modify (fun s => s.organisationId = orgId)
          dto.apply) := .modify fun _ => rfl
    exact { Kept.refl db with
      orgSettings := settings
      founded := fun holds => holds.carry rfl settings (.refl _ _)
      ordered := fun order =>
        { order with orgSettings := order.orgSettings.modify } }
  · simp only [ensure_eq_ok, Except.ok.injEq, Prod.mk.injEq] at outcome
    rcases outcome with ⟨_, rfl, rfl⟩
    exact { Kept.refl db with
      orgSettings := .insert _
      founded := fun holds => holds.carry rfl (.insert _) (.refl _ _)
      ordered := fun order =>
        { order with orgSettings := order.orgSettings.insert _ } }

theorem userCreate_kept (collate : String → String) (now : Instant)
    (data : UserData) :
    Effects (Kept may) (userCreate collate now data) := by
  intro db user after outcome
  simp only [userCreate, ensure_eq_ok, Except.ok.injEq, Prod.mk.injEq]
    at outcome
  rcases outcome with ⟨_, _, _, rfl, rfl⟩
  exact { Kept.refl db with
    users := .insert _
    founded := fun holds => holds.carry rfl (.refl _ _) (.insert _)
    ordered := fun order => { order with users := order.users.insert _ } }

theorem userUpdate_kept (now : Instant) (id : Nat) (data : UserUpdate) :
    Effects (Kept may) (userUpdate now id data) := by
  intro db user after outcome
  simp only [userUpdate] at outcome
  split at outcome
  · cases outcome
  · simp only [ensure_eq_ok, Except.ok.injEq, Prod.mk.injEq] at outcome
    rcases outcome with ⟨_, rfl, rfl⟩
    have users : Table.Appends User.identity db.users
        (db.users.modify (fun u => u.id = id) (data.apply now)) :=
      .modify fun _ => rfl
    exact { Kept.refl db with
      users := users
      founded := fun holds => holds.carry rfl (.refl _ _) users
      ordered := fun order => { order with users := order.users.modify } }

/-- The transaction of a registration founds the organisation it creates. -/
theorem createOrganisation_kept (lib : Libs) (host : Host)
    (dto : RegisterDto) (hash : String) :
    Effects (Kept may) (createOrganisation lib host dto hash) := by
  intro db user after outcome
  unfold createOrganisation at outcome
  rcases bind_eq_ok.mp outcome with ⟨org, second, created, outcome⟩
  rcases bind_eq_ok.mp outcome with ⟨settings, third, defaults, member⟩
  simp only [organisationCreate, ensure_eq_ok, Except.ok.injEq,
    Prod.mk.injEq] at created
  rcases created with ⟨_, rfl, rfl⟩
  simp only [orgSettingsCreate, ensure_eq_ok, Except.ok.injEq,
    Prod.mk.injEq] at defaults
  rcases defaults with ⟨_, _, rfl, rfl⟩
  simp only [userCreate, ensure_eq_ok, Except.ok.injEq, Prod.mk.injEq]
    at member
  rcases member with ⟨_, _, _, rfl, rfl⟩
  refine { Kept.refl db with
    organisations := .insert _
    orgSettings := .insert _
    users := .insert _
    founded := fun holds o member => ?_
    ordered := fun order =>
      { order with
        orgSettings := order.orgSettings.insert _
        users := order.users.insert _ } }
  rcases Table.mem_insert.mp member with old | rfl
  · rcases holds o old with ⟨⟨s, sMem, sOrg⟩, u, uMem, uOrg⟩
    exact ⟨⟨s, Table.mem_insert.mpr (.inl sMem), sOrg⟩,
      u, Table.mem_insert.mpr (.inl uMem), uOrg⟩
  · exact ⟨⟨_, Table.mem_insert.mpr (.inr rfl), rfl⟩,
      _, Table.mem_insert.mpr (.inr rfl), rfl⟩

theorem managerEmployeeDeleteMany_kept (p : ManagerEmployee → Prop)
    [DecidablePred p] :
    Effects (Kept may) (managerEmployeeDeleteMany p) := by
  intro db done after outcome
  cases outcome
  exact { Kept.refl db with
    ordered := fun order =>
      { order with managerEmployees := order.managerEmployees.deleteWhere } }

theorem managerEmployeeCreateMany_kept (links : List (Nat × Nat)) :
    Effects (Kept may) (managerEmployeeCreateMany links) := by
  intro db done after outcome
  simp only [managerEmployeeCreateMany, ensure_eq_ok, Except.ok.injEq,
    Prod.mk.injEq] at outcome
  rcases outcome with ⟨_, _, _, rfl⟩
  exact { Kept.refl db with
    ordered := fun order =>
      { order with managerEmployees := order.managerEmployees.insertMany _ } }

theorem projectManagerDeleteMany_kept (projectId : Nat) :
    Effects (Kept may) (projectManagerDeleteMany projectId) := by
  intro db done after outcome
  cases outcome
  exact { Kept.refl db with
    ordered := fun order =>
      { order with projectManagers := order.projectManagers.deleteWhere } }

theorem projectManagerCreateMany_kept (links : List (Nat × Nat)) :
    Effects (Kept may) (projectManagerCreateMany links) := by
  intro db done after outcome
  simp only [projectManagerCreateMany, ensure_eq_ok, Except.ok.injEq,
    Prod.mk.injEq] at outcome
  rcases outcome with ⟨_, _, _, rfl⟩
  exact { Kept.refl db with
    ordered := fun order =>
      { order with projectManagers := order.projectManagers.insertMany _ } }

theorem projectEmployeeDeleteMany_kept (p : ProjectEmployee → Prop)
    [DecidablePred p] :
    Effects (Kept may) (projectEmployeeDeleteMany p) := by
  intro db done after outcome
  cases outcome
  exact { Kept.refl db with
    ordered := fun order =>
      { order with projectEmployees := order.projectEmployees.deleteWhere } }

theorem projectEmployeeCreateMany_kept (links : List (Nat × Nat)) :
    Effects (Kept may) (projectEmployeeCreateMany links) := by
  intro db done after outcome
  simp only [projectEmployeeCreateMany, ensure_eq_ok, Except.ok.injEq,
    Prod.mk.injEq] at outcome
  rcases outcome with ⟨_, _, _, rfl⟩
  exact { Kept.refl db with
    ordered := fun order =>
      { order with projectEmployees := order.projectEmployees.insertMany _ } }

theorem projectCreate_kept (collate : String → String) (now : Instant)
    (data : ProjectData) (managers employees : List Nat) :
    Effects (Kept may)
      (projectCreate collate now data managers employees) := by
  refine kept_bind ?_ fun project => ?_
  · intro db project after outcome
    simp only [projectCreateRow, ensure_eq_ok, Except.ok.injEq,
      Prod.mk.injEq] at outcome
    rcases outcome with ⟨_, _, _, rfl, rfl⟩
    have same : Kept may db db := .refl db
    exact { same with
      projects := .insert _
      booked := fun _ => .insert _
      ordered := fun order =>
        { order with projects := order.projects.insert _ } }
  · refine kept_bind (projectManagerCreateMany_kept _) fun _ => ?_
    refine kept_bind (projectEmployeeCreateMany_kept _) fun _ => ?_
    exact kept_pure project

theorem replaceLinks_kept {delete : Tx PUnit}
    {create : List (Nat × Nat) → Tx PUnit} (projectId : Nat)
    (deletes : Effects (Kept may) delete)
    (creates : ∀ links, Effects (Kept may) (create links))
    (ids : Option (List Nat)) :
    Effects (Kept may) (replaceLinks delete create projectId ids) := by
  cases ids with
  | none => exact kept_pure _
  | some ids => exact kept_bind deletes fun _ => kept_ite (creates _)

theorem writeProject_kept (lib : Libs) (host : Host) (id : Nat)
    (dto : UpdateProjectDto) :
    Effects (Kept may) (writeProject lib host id dto) := by
  refine kept_bind ?_ fun project => ?_
  · intro db project after outcome
    simp only [projectUpdate] at outcome
    split at outcome
    · cases outcome
    · simp only [ensure_eq_ok, Except.ok.injEq, Prod.mk.injEq] at outcome
      rcases outcome with ⟨_, _, rfl, rfl⟩
      have same : Kept may db db := .refl db
      exact { same with
        projects := .modify fun _ => rfl
        booked := fun _ => .modify fun _ => rfl
        ordered := fun order =>
          { order with projects := order.projects.modify } }
  · refine kept_bind
      (replaceLinks_kept _ (projectManagerDeleteMany_kept _)
        projectManagerCreateMany_kept _) fun _ => ?_
    refine kept_bind
      (replaceLinks_kept _ (projectEmployeeDeleteMany_kept _)
        projectEmployeeCreateMany_kept _) fun _ => ?_
    exact kept_pure project

theorem projectIncrementUsedHours_kept (now : Instant) (id : Nat) (hours : ℚ)
    (permit : may.books) :
    Effects (Kept may) (projectIncrementUsedHours now id hours) := by
  intro db done after outcome
  simp only [projectIncrementUsedHours, ensure_eq_ok, Except.ok.injEq,
    Prod.mk.injEq] at outcome
  rcases outcome with ⟨_, _, rfl⟩
  have same : Kept may db db := .refl db
  exact { same with
    projects := .modify fun _ => rfl
    booked := fun never => (never permit).elim
    ordered := fun order =>
      { order with projects := order.projects.modify } }

theorem projectDelete_kept (id : Nat) :
    Effects (Kept may) (projectDelete id) := by
  intro db done after outcome
  simp only [projectDelete, ensure_eq_ok, Except.ok.injEq, Prod.mk.injEq]
    at outcome
  rcases outcome with ⟨_, _, _, rfl⟩
  have same : Kept may db db := .refl db
  exact { same with
    projects := .deleteWhere
    booked := fun _ => .deleteWhere
    ordered := fun order =>
      { order with
        projects := order.projects.deleteWhere
        projectManagers := order.projectManagers.deleteWhere
        projectEmployees := order.projectEmployees.deleteWhere } }

theorem timesheetCreate_kept (now : Instant) (data : TimesheetData) :
    Effects (Kept may) (timesheetCreate now data) := by
  intro db timesheet after outcome
  simp only [timesheetCreate, ensure_eq_ok, Except.ok.injEq, Prod.mk.injEq]
    at outcome
  rcases outcome with ⟨_, rfl, rfl⟩
  have same : Kept may db db := .refl db
  refine { same with
    timesheets := .insert _
    approvers := fun t member u approver => ?_
    ordered := fun order =>
      { order with timesheets := order.timesheets.insert _ } }
  rcases Table.mem_insert.mp member with old | rfl
  · exact .inr ⟨t, old, rfl, approver⟩
  · cases approver

theorem timesheetUpdate_kept (now : Instant) (id : Nat)
    (data : TimesheetUpdate)
    (permit : ∀ u ∈ data.approvedById, may.decides u id) :
    Effects (Kept may) (timesheetUpdate now id data) := by
  intro db timesheet after outcome
  simp only [timesheetUpdate] at outcome
  split at outcome
  · cases outcome
  simp only [ensure_eq_ok, Except.ok.injEq, Prod.mk.injEq] at outcome
  rcases outcome with ⟨_, _, rfl, rfl⟩
  have same : Kept may db db := .refl db
  refine { same with
    timesheets := .modify fun _ => rfl
    approvers := fun t member u approver => ?_
    ordered := fun order =>
      { order with timesheets := order.timesheets.modify } }
  rcases Table.mem_modify.mp member with ⟨old, oldMem, rfl⟩
  by_cases touched : old.id = id
  · rw [if_pos touched] at approver ⊢
    cases written : data.approvedById with
    | some v =>
        have approver : data.approvedById.or old.approvedById = some u :=
          approver
        rw [written] at approver
        cases approver
        exact .inl (touched ▸ permit u written)
    | none =>
        have approver : data.approvedById.or old.approvedById = some u :=
          approver
        rw [written] at approver
        exact .inr ⟨old, oldMem, rfl, approver⟩
  · rw [if_neg touched] at approver ⊢
    exact .inr ⟨old, oldMem, rfl, approver⟩

/-- The entries of a timesheet that may be edited belong to no other one. -/
theorem apart_of_withheld {db : Db} {id k : Nat} (permit : may.edits id)
    (withheld : ¬ may.edits k) :
    ∀ e ∈ db.timeEntries.rows, e.timesheetId = id → e.timesheetId ≠ k := by
  rintro e _ rfl same
  exact withheld (same ▸ permit)

theorem timesheetDelete_kept (id : Nat) (permit : may.edits id) :
    Effects (Kept may) (timesheetDelete id) := by
  intro db done after outcome
  simp only [timesheetDelete, ensure_eq_ok, Except.ok.injEq, Prod.mk.injEq]
    at outcome
  rcases outcome with ⟨_, _, rfl⟩
  have same : Kept may db db := .refl db
  exact { same with
    timesheets := .deleteWhere
    timeEntries := .deleteWhere
    approvers := fun t member u approver =>
      .inr ⟨t, (Table.mem_deleteWhere.mp member).1, rfl, approver⟩
    entries := fun k _ withheld _ =>
      Table.select_deleteWhere (apart_of_withheld permit withheld)
    ordered := fun order =>
      { order with
        timesheets := order.timesheets.deleteWhere
        timeEntries := order.timeEntries.deleteWhere } }

/-- Copies belong to the timesheet they are made for. -/
theorem copies_apart {id k : Nat} {now : Instant} {entries : List TimeEntry}
    (apart : id ≠ k) :
    ∀ data ∈ entries.map (copiedEntry id), ∀ next,
      ¬ (data.row now next).timesheetId = k := by
  rintro data member next same
  rcases List.mem_map.mp member with ⟨e, _, rfl⟩
  exact apart same

theorem createEntries_kept (host : Host) (timesheetId : Nat)
    (entries : List TimeEntry) (permit : may.edits timesheetId) :
    Effects (Kept may) (createEntries host timesheetId entries) := by
  intro db done after outcome
  rw [createEntries_after outcome]
  have same : Kept may db db := .refl db
  refine { same with
    timeEntries := .insertMany _ _ _
    entries := fun k _ withheld _ => ?_
    ordered := fun order =>
      { order with timeEntries := order.timeEntries.insertMany _ } }
  refine Table.select_insertMany (copies_apart ?_)
  rintro rfl
  exact withheld permit

theorem overwriteEntries_kept (host : Host) (id : Nat)
    (entries : List TimeEntry) (totalHours billableHours : ℚ)
    (permit : may.edits id) :
    Effects (Kept may)
      (overwriteEntries host id entries totalHours billableHours) := by
  refine kept_bind ?_ fun _ => ?_
  · intro db done after outcome
    cases outcome
    have same : Kept may db db := .refl db
    exact { same with
      timeEntries := .deleteWhere
      entries := fun k _ withheld _ =>
        Table.select_deleteWhere (apart_of_withheld permit withheld)
      ordered := fun order =>
        { order with timeEntries := order.timeEntries.deleteWhere } }
  · refine kept_bind (createEntries_kept host _ _ permit) fun _ => ?_
    exact timesheetUpdate_kept _ _ _ fun u absurd => by cases absurd

/-- The copies belong to a timesheet that was not there before. -/
theorem createCopy_kept (host : Host) (data : TimesheetData)
    (entries : List TimeEntry) :
    Effects (Kept may) (createCopy host data entries) := by
  intro db t after outcome
  rw [createCopy_after outcome]
  have same : Kept may db db := .refl db
  refine { same with
    timesheets := .insert _
    timeEntries := .insertMany _ _ _
    approvers := fun t member u approver => ?_
    entries := fun k old _ _ => ?_
    ordered := fun order =>
      { order with
        timesheets := order.timesheets.insert _
        timeEntries := order.timeEntries.insertMany _ } }
  · rcases Table.mem_insert.mp member with old | rfl
    · exact .inr ⟨t, old, rfl, approver⟩
    · cases approver
  · exact Table.select_insertMany (copies_apart (Nat.ne_of_gt old))

theorem timeEntryCreate_kept (now : Instant) (data : TimeEntryData)
    (permit : may.edits data.timesheetId) :
    Effects (Kept may) (timeEntryCreate now data) := by
  intro db entry after outcome
  simp only [timeEntryCreate, ensure_eq_ok, Except.ok.injEq, Prod.mk.injEq]
    at outcome
  rcases outcome with ⟨_, _, rfl, rfl⟩
  have same : Kept may db db := .refl db
  refine { same with
    timeEntries := .insert _
    entries := fun k _ withheld _ => ?_
    ordered := fun order =>
      { order with timeEntries := order.timeEntries.insert _ } }
  refine (Table.select_insert _).trans ?_
  rw [if_neg, List.append_nil]
  · rfl
  · rintro rfl
    exact withheld permit

theorem timeEntryUpdate_kept (id : Nat) (data : TimeEntryUpdate)
    (permit : may.changes id) :
    Effects (Kept may) (timeEntryUpdate id data) := by
  intro db entry after outcome
  simp only [timeEntryUpdate] at outcome
  split at outcome
  · cases outcome
  · simp only [ensure_eq_ok, Except.ok.injEq, Prod.mk.injEq] at outcome
    rcases outcome with ⟨_, _, rfl, rfl⟩
    have same : Kept may db db := .refl db
    refine { same with
      timeEntries := .modify fun _ => rfl
      entries := fun k _ _ spared => Table.select_modify ?_
      ordered := fun order =>
        { order with timeEntries := order.timeEntries.modify } }
    rintro e member rfl
    have apart : e.timesheetId ≠ k := fun belongs =>
      spared e (Db.mem_entriesOf.mpr ⟨member, belongs⟩) permit
    exact ⟨apart, apart⟩

theorem timeEntryDelete_kept (id : Nat) (permit : may.changes id) :
    Effects (Kept may) (timeEntryDelete id) := by
  intro db done after outcome
  simp only [timeEntryDelete, ensure_eq_ok, Except.ok.injEq, Prod.mk.injEq]
    at outcome
  rcases outcome with ⟨_, _, rfl⟩
  have same : Kept may db db := .refl db
  refine { same with
    timeEntries := .deleteWhere
    entries := fun k _ _ spared => Table.select_deleteWhere ?_
    ordered := fun order =>
      { order with timeEntries := order.timeEntries.deleteWhere } }
  rintro e member rfl belongs
  exact spared e (Db.mem_entriesOf.mpr ⟨member, belongs⟩) permit

theorem holidayCreate_kept (orgId : Nat) (name : String) (date : JsDate)
    (recurring : Bool) :
    Effects (Kept may) (holidayCreate orgId name date recurring) := by
  intro db holiday after outcome
  cases date with
  | none => cases outcome
  | some date =>
      simp only [holidayCreate, ensure_eq_ok, Except.ok.injEq,
        Prod.mk.injEq] at outcome
      rcases outcome with ⟨_, _, rfl, rfl⟩
      have holidays : Table.Descends id db.holidays
          (db.holidays.insert fun id =>
            ⟨id, orgId, name, date, recurring⟩) := .insert _
      exact { Kept.refl db with
        holidays := holidays
        ordered := fun order =>
          { order with holidays := order.holidays.insert _ } }

theorem holidayDelete_kept (id : Nat) :
    Effects (Kept may) (holidayDelete id) := by
  intro db done after outcome
  simp only [holidayDelete, ensure_eq_ok, Except.ok.injEq, Prod.mk.injEq]
    at outcome
  rcases outcome with ⟨_, _, rfl⟩
  exact { Kept.refl db with
    holidays := .deleteWhere
    ordered := fun order =>
      { order with holidays := order.holidays.deleteWhere } }

theorem notificationCreate_kept (now : Instant) (data : NotificationData)
    (permit : may.notifies) :
    Effects (Kept may) (notificationCreate now data) := by
  intro db notification after outcome
  simp only [notificationCreate, ensure_eq_ok, Except.ok.injEq,
    Prod.mk.injEq] at outcome
  rcases outcome with ⟨_, _, rfl, rfl⟩
  have same : Kept may db db := .refl db
  exact { same with
    notifications := .insert _
    notices := fun never => (never permit).elim
    ordered := fun order =>
      { order with notifications := order.notifications.insert _ } }

theorem notificationMarkRead_kept (p : Notification → Prop)
    [DecidablePred p] :
    Effects (Kept may) (notificationMarkRead p) := by
  intro db done after outcome
  cases outcome
  have same : Kept may db db := .refl db
  refine { same with
    notifications := .modify fun _ => rfl
    notices := fun _ => ?_
    ordered := fun order =>
      { order with notifications := order.notifications.modify } }
  exact Table.map_modify fun _ => rfl

end Prisma

/-! ## Programs -/

section

variable {lib : Libs} {may : Permits}

open Prisma in
/-- Every statement of the API keeps to it. -/
theorem Issued.kept {γ : Type} {tx : Tx γ} (issued : Issued lib may γ tx) :
    Effects (Db.Kept may) tx := by
  cases issued with
  | createOrganisation host dto hash => exact createOrganisation_kept _ _ _ _
  | upsertSettings orgId dto => exact orgSettingsUpsert_kept _ _
  | createUser now data => exact userCreate_kept _ _ _
  | updateUser now id data => exact userUpdate_kept _ _ _
  | removeManaged managerId => exact managerEmployeeDeleteMany_kept _
  | replaceManagers employeeId managerIds =>
      exact kept_bind (managerEmployeeDeleteMany_kept _) fun _ =>
        kept_ite (managerEmployeeCreateMany_kept _)
  | replaceProjects employeeId projectIds =>
      exact kept_bind (projectEmployeeDeleteMany_kept _) fun _ =>
        kept_ite (projectEmployeeCreateMany_kept _)
  | createProject now data managers employees =>
      exact projectCreate_kept _ _ _ _ _
  | writeProject host id dto => exact writeProject_kept _ _ _ _
  | incrementUsedHours now id hours permit =>
      exact projectIncrementUsedHours_kept _ _ _ permit
  | deleteProject id => exact projectDelete_kept _
  | createTimesheet now data => exact timesheetCreate_kept _ _
  | updateTimesheet now id data permit =>
      exact timesheetUpdate_kept _ _ _ permit
  | deleteTimesheet id permit => exact timesheetDelete_kept _ permit
  | overwriteEntries host id entries totalHours billableHours permit =>
      exact overwriteEntries_kept _ _ _ _ _ permit
  | createCopy host data entries => exact createCopy_kept _ _ _
  | createEntry now data permit => exact timeEntryCreate_kept _ _ permit
  | updateEntry id data permit => exact timeEntryUpdate_kept _ _ permit
  | deleteEntry id permit => exact timeEntryDelete_kept _ permit
  | createHoliday orgId name date recurring =>
      exact holidayCreate_kept _ _ _ _
  | deleteHoliday id => exact holidayDelete_kept _
  | createNotification now data permit =>
      exact notificationCreate_kept _ _ permit
  | markRead p => exact notificationMarkRead_kept _

open Prisma in
/-- Every statement of the API keeps the foreign keys. -/
theorem Issued.grows {γ : Type} {tx : Tx γ} (issued : Issued lib may γ tx) :
    Effects Db.Grows tx := by
  cases issued with
  | createOrganisation host dto hash => exact createOrganisation_grows _ _ _ _
  | upsertSettings orgId dto => exact orgSettingsUpsert_grows _ _
  | createUser now data => exact userCreate_grows _ _ _
  | updateUser now id data => exact userUpdate_grows _ _ _
  | removeManaged managerId => exact managerEmployeeDeleteMany_grows _
  | replaceManagers employeeId managerIds => exact replaceManagers_grows _ _
  | replaceProjects employeeId projectIds => exact replaceProjects_grows _ _
  | createProject now data managers employees =>
      exact projectCreate_grows _ _ _ _ _
  | writeProject host id dto => exact writeProject_grows _ _ _ _
  | incrementUsedHours now id hours permit =>
      exact projectIncrementUsedHours_grows _ _ _
  | deleteProject id => exact projectDelete_grows _
  | createTimesheet now data => exact timesheetCreate_grows _ _
  | updateTimesheet now id data permit => exact timesheetUpdate_grows _ _ _
  | deleteTimesheet id permit => exact timesheetDelete_grows _
  | overwriteEntries host id entries totalHours billableHours permit =>
      exact overwriteEntries_grows _ _ _ _ _
  | createCopy host data entries => exact createCopy_grows _ _ _
  | createEntry now data permit => exact timeEntryCreate_grows _ _
  | updateEntry id data permit => exact timeEntryUpdate_grows _ _
  | deleteEntry id permit => exact timeEntryDelete_grows _
  | createHoliday orgId name date recurring =>
      exact holidayCreate_grows _ _ _ _
  | deleteHoliday id => exact holidayDelete_grows _
  | createNotification now data permit => exact notificationCreate_grows _ _
  | markRead p => exact notificationMarkRead_grows _

theorem kept_of_issues {α : Type} {program : Service α}
    (issues : program.Issues (Issued lib may)) :
    program.Safe (fun _ => True) (Db.Kept may) :=
  issues.safe Db.Kept.refl fun _ _ issued => issued.kept

/-- A request keeps to it whatever it is and whoever sends it. -/
theorem Request.program_kept (lib : Libs) (request : Request) :
    (request.program lib).Safe (fun _ => True)
      (Db.Kept .all) :=
  kept_of_issues (request.program_issues lib)

/-- Whatever is in flight, the two ends of a schedule have this in common. -/
theorem inFlight_kept {ι : Type} [DecidableEq ι] {requests : ι → Request}
    {db : Db} {schedule : List ι} {after : Pool Db Thrown Response ι}
    (ran : (inFlight lib requests db).run schedule = some after) :
    Db.Kept .all db after.state := by
  have among := Pool.run_among Db.Kept.refl (fun _ _ _ => .trans) ran fun i =>
    ((requests i).program_kept lib).among (fun _ _ _ => .trans)
      (fun _ _ (_ : True) _ => trivial) trivial
  exact among.1

end

/-- A run of requests keeps to it. -/
theorem World.run_kept (lib : Libs) (world : World)
    (requests : List Request) :
    Db.Kept .all world.db (world.run lib requests).db := by
  induction requests generalizing world with
  | nil => exact .refl _
  | cons request requests ih =>
      refine .trans ?_ (ih _)
      have exec {α : Type} {program : Service α}
          (safe : program.Safe (fun _ => True) (Db.Kept .all)) :
          Db.Kept .all world.db (program.exec world.db).2 :=
        safe.rel_exec Db.Kept.refl (fun _ _ _ => .trans) trivial
      cases request with
      | anonymous host call =>
          exact exec (Request.program_kept lib (.anonymous host call))
      | authenticated host caller call =>
          by_cases signed : caller ∈ world.issued
          · simp only [World.step, World.serve, if_pos signed]
            exact exec
              (Request.program_kept lib (.authenticated host caller call))
          · simp only [World.step, World.serve, if_neg signed]
            exact .refl _

end TmsApi
