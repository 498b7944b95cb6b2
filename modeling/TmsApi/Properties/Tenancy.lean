import TmsApi.Properties.Ledger
import TmsApi.Properties.Totals

/-!
# Tenant isolation

A request leaves the rows of every other organisation as they are, with one
exception: `updateEntry` does not ask whether the project it writes into an
entry belongs to the caller's organisation, so a later approval can increment
the hours of a foreign project.  `tenant_isolation_iff` says that this is the
only way.
-/

namespace TmsApi

open TmsApi.Core
open TmsApi.Core.Program

namespace Db

/-- The timesheet of this key belongs to another organisation. -/
def ForeignSheet (db : Db) (orgId timesheetId : Nat) : Prop :=
  ∃ t ∈ db.timesheets.rows, t.id = timesheetId ∧ t.organisationId ≠ orgId

/-- The user of this key belongs to another organisation. -/
def ForeignUser (db : Db) (orgId userId : Nat) : Prop :=
  ∃ u ∈ db.users.rows, u.id = userId ∧ u.organisationId ≠ orgId

instance (db : Db) (orgId userId : Nat) :
    Decidable (db.ForeignUser orgId userId) :=
  inferInstanceAs (Decidable (∃ u ∈ db.users.rows, _))

end Db

/-- The rows that belong to other organisations are the same. -/
structure SameOutside (orgId : Nat) (before after : Db) : Prop where
  users : Table.Agrees (fun u => u.organisationId ≠ orgId)
    before.users after.users
  projects : Table.Agrees (fun p => p.organisationId ≠ orgId)
    before.projects after.projects
  timesheets : Table.Agrees (fun t => t.organisationId ≠ orgId)
    before.timesheets after.timesheets
  timeEntries :
    Table.Agrees (fun e => before.ForeignSheet orgId e.timesheetId)
      before.timeEntries after.timeEntries
  holidays : Table.Agrees (fun h => h.organisationId ≠ orgId)
    before.holidays after.holidays
  settings : Table.Agrees (fun s => s.organisationId ≠ orgId)
    before.orgSettings after.orgSettings
  notifications :
    Table.Agrees (fun n => before.ForeignUser orgId n.userId)
      before.notifications after.notifications

namespace SameOutside

variable {orgId : Nat} {db after : Db}

theorem refl (orgId : Nat) (db : Db) : SameOutside orgId db db := by
  constructor <;> exact .refl _

theorem foreignSheet (same : SameOutside orgId db after)
    (timesheetId : Nat) :
    after.ForeignSheet orgId timesheetId ↔
      db.ForeignSheet orgId timesheetId := by
  constructor
  · rintro ⟨t, member, key, foreign⟩
    exact ⟨t, (same.timesheets t foreign).mp member, key, foreign⟩
  · rintro ⟨t, member, key, foreign⟩
    exact ⟨t, (same.timesheets t foreign).mpr member, key, foreign⟩

theorem foreignUser (same : SameOutside orgId db after) (userId : Nat) :
    after.ForeignUser orgId userId ↔ db.ForeignUser orgId userId := by
  constructor
  · rintro ⟨u, member, key, foreign⟩
    exact ⟨u, (same.users u foreign).mp member, key, foreign⟩
  · rintro ⟨u, member, key, foreign⟩
    exact ⟨u, (same.users u foreign).mpr member, key, foreign⟩

theorem trans {first second third : Db}
    (left : SameOutside orgId first second)
    (right : SameOutside orgId second third) :
    SameOutside orgId first third where
  users := left.users.trans right.users
  projects := left.projects.trans right.projects
  timesheets := left.timesheets.trans right.timesheets
  timeEntries := left.timeEntries.trans
    (right.timeEntries.congr fun _ => (left.foreignSheet _).symm)
  holidays := left.holidays.trans right.holidays
  settings := left.settings.trans right.settings
  notifications := left.notifications.trans
    (right.notifications.congr fun _ => (left.foreignUser _).symm)

end SameOutside

/-- A key names one user, so a member is not foreign. -/
theorem Db.Member.not_foreign {db : Db} {userId orgId : Nat}
    (member : db.Member userId orgId) : ¬ db.ForeignUser orgId userId := by
  rintro ⟨u, uMem, key, foreign⟩
  rcases member with ⟨v, vMem, key', org⟩
  cases db.users.eq_of_key uMem vMem (key.trans key'.symm)
  exact foreign org

theorem Db.Member.organisation {db : Db} {userId orgId : Nat}
    (member : db.Member userId orgId) {u : User}
    (uMem : u ∈ db.users.rows) (key : u.id = userId) :
    u.organisationId = orgId := by
  by_contra foreign
  exact member.not_foreign ⟨u, uMem, key, foreign⟩

/-! ## Changes beside the timesheets -/

section Side

variable {lib : Libs} {host : Host} {caller : JwtPayload} {db after : Db}

/-- A transaction that writes no row of another organisation. -/
theorem outside_bind {orgId : Nat} {α β : Type} {tx : Tx α}
    {f : α → Tx β} (first : Effects (SameOutside orgId) tx)
    (rest : ∀ a, Effects (SameOutside orgId) (f a)) :
    Effects (SameOutside orgId) (tx >>= f) := by
  have trans := fun s t u => @SameOutside.trans orgId s t u
  exact Effects.bind trans first rest

theorem outside_pure {orgId : Nat} {α : Type} (a : α) :
    Effects (SameOutside orgId) (pure a : Tx α) :=
  Effects.pure (SameOutside.refl orgId) a

theorem outside_ite {orgId : Nat} {condition : Prop}
    [Decidable condition] {tx : Tx PUnit}
    (outside : Effects (SameOutside orgId) tx) :
    Effects (SameOutside orgId)
      (if condition then tx else pure ⟨⟩) := by
  split
  · exact outside
  · exact outside_pure _

/-! The link tables have no organisation. -/

theorem managerEmployeeDeleteMany_outside {orgId : Nat}
    (p : ManagerEmployee → Prop) [DecidablePred p] :
    Effects (SameOutside orgId) (Prisma.managerEmployeeDeleteMany p) := by
  intro db a after wrote
  cases wrote
  exact { SameOutside.refl orgId db with }

theorem managerEmployeeCreateMany_outside {orgId : Nat}
    (links : List (Nat × Nat)) :
    Effects (SameOutside orgId)
      (Prisma.managerEmployeeCreateMany links) := by
  intro db a after wrote
  simp only [Prisma.managerEmployeeCreateMany, ensure_eq_ok,
    Except.ok.injEq, Prod.mk.injEq] at wrote
  rcases wrote with ⟨_, _, _, rfl⟩
  exact { SameOutside.refl orgId db with }

theorem projectManagerDeleteMany_outside {orgId : Nat} (projectId : Nat) :
    Effects (SameOutside orgId)
      (Prisma.projectManagerDeleteMany projectId) := by
  intro db a after wrote
  cases wrote
  exact { SameOutside.refl orgId db with }

theorem projectManagerCreateMany_outside {orgId : Nat}
    (links : List (Nat × Nat)) :
    Effects (SameOutside orgId)
      (Prisma.projectManagerCreateMany links) := by
  intro db a after wrote
  simp only [Prisma.projectManagerCreateMany, ensure_eq_ok,
    Except.ok.injEq, Prod.mk.injEq] at wrote
  rcases wrote with ⟨_, _, _, rfl⟩
  exact { SameOutside.refl orgId db with }

theorem projectEmployeeDeleteMany_outside {orgId : Nat}
    (p : ProjectEmployee → Prop) [DecidablePred p] :
    Effects (SameOutside orgId) (Prisma.projectEmployeeDeleteMany p) := by
  intro db a after wrote
  cases wrote
  exact { SameOutside.refl orgId db with }

theorem projectEmployeeCreateMany_outside {orgId : Nat}
    (links : List (Nat × Nat)) :
    Effects (SameOutside orgId)
      (Prisma.projectEmployeeCreateMany links) := by
  intro db a after wrote
  simp only [Prisma.projectEmployeeCreateMany, ensure_eq_ok,
    Except.ok.injEq, Prod.mk.injEq] at wrote
  rcases wrote with ⟨_, _, _, rfl⟩
  exact { SameOutside.refl orgId db with }

theorem replaceLinks_outside {orgId projectId : Nat} {delete : Tx PUnit}
    {create : List (Nat × Nat) → Tx PUnit}
    (deletes : Effects (SameOutside orgId) delete)
    (creates : ∀ links, Effects (SameOutside orgId) (create links))
    (ids : Option (List Nat)) :
    Effects (SameOutside orgId)
      (replaceLinks delete create projectId ids) := by
  cases ids with
  | none => exact outside_pure _
  | some ids => exact outside_bind deletes fun _ => outside_ite (creates _)

/-- An update of a member of the organisation. -/
theorem userUpdate_outside {now : Instant} {id orgId : Nat}
    {data : UserUpdate} {u : User}
    (member : db.Member id orgId)
    (wrote : Prisma.userUpdate now id data db = .ok (u, after)) :
    SameOutside orgId db after := by
  simp only [Prisma.userUpdate] at wrote
  split at wrote
  · cases wrote
  · simp only [ensure_eq_ok, Except.ok.injEq, Prod.mk.injEq] at wrote
    rcases wrote with ⟨_, rfl, rfl⟩
    refine { SameOutside.refl orgId db with users := ?_ }
    refine Table.agrees_modify fun row rowMem key => ?_
    have org := member.organisation rowMem key
    exact ⟨fun foreign => foreign org, fun foreign => foreign org⟩

/-- A new project of the organisation with its links. -/
theorem projectCreate_outside {orgId : Nat} {data : ProjectData}
    {managers employees : List Nat} {project : Project}
    (org : data.organisationId = orgId)
    (wrote : Prisma.projectCreate lib.collate host.now data managers
      employees db = .ok (project, after)) :
    SameOutside orgId db after := by
  rcases bind_eq_ok.mp wrote with ⟨row, created, inserted, linked⟩
  have first : SameOutside orgId db created := by
    simp only [Prisma.projectCreateRow, ensure_eq_ok, Except.ok.injEq,
      Prod.mk.injEq] at inserted
    rcases inserted with ⟨_, _, _, _, rfl⟩
    refine { SameOutside.refl orgId db with projects := ?_ }
    exact Table.agrees_insert fun foreign => foreign org
  refine first.trans ?_
  exact outside_bind (projectManagerCreateMany_outside _)
    (fun _ => outside_bind (projectEmployeeCreateMany_outside _)
      fun _ => outside_pure row) _ _ _ linked

/-- An update of a project of the organisation and its links. -/
theorem writeProject_outside {orgId : Nat} {p project : Project}
    {dto : UpdateProjectDto} (member : p ∈ db.projects.rows)
    (org : p.organisationId = orgId)
    (wrote : writeProject lib host p.id dto db = .ok (project, after)) :
    SameOutside orgId db after := by
  rcases bind_eq_ok.mp wrote with ⟨row, updated, update, linked⟩
  have first : SameOutside orgId db updated := by
    simp only [Prisma.projectUpdate] at update
    split at update
    · cases update
    · simp only [ensure_eq_ok, Except.ok.injEq, Prod.mk.injEq] at update
      rcases update with ⟨_, _, _, rfl⟩
      refine { SameOutside.refl orgId db with projects := ?_ }
      refine Table.agrees_modify fun other otherMem key => ?_
      have home : other.organisationId = orgId := by
        rw [db.projects.eq_of_key otherMem member key, org]
      exact ⟨fun foreign => foreign home, fun foreign => foreign home⟩
  refine first.trans ?_
  exact outside_bind
    (replaceLinks_outside (projectManagerDeleteMany_outside _)
      projectManagerCreateMany_outside _)
    (fun _ => outside_bind
      (replaceLinks_outside (projectEmployeeDeleteMany_outside _)
        projectEmployeeCreateMany_outside _)
      fun _ => outside_pure row) _ _ _ linked

theorem SideChange.outside
    (change : SideChange lib host caller db after)
    (signed : db.Member caller.userId caller.orgId) :
    SameOutside caller.orgId db after := by
  cases change with
  | loggedOut wrote => exact userUpdate_outside signed wrote
  | settings dto role wrote =>
      simp only [Prisma.orgSettingsUpsert, ensure_eq_ok] at wrote
      rcases wrote with ⟨_, wrote⟩
      split at wrote
      · cases wrote
        refine { SameOutside.refl caller.orgId db with settings := ?_ }
        exact Table.agrees_modify fun row _ own =>
          ⟨fun foreign => foreign own, fun foreign => foreign own⟩
      · simp only [ensure_eq_ok, Except.ok.injEq, Prod.mk.injEq] at wrote
        rcases wrote with ⟨_, rfl, rfl⟩
        refine { SameOutside.refl caller.orgId db with settings := ?_ }
        exact Table.agrees_insert fun foreign => foreign rfl
  | holidayCreated name date recurring role wrote =>
      cases date with
      | none => cases wrote
      | some date =>
          simp only [Prisma.holidayCreate, ensure_eq_ok, Except.ok.injEq,
            Prod.mk.injEq] at wrote
          rcases wrote with ⟨_, _, rfl, rfl⟩
          refine { SameOutside.refl caller.orgId db with holidays := ?_ }
          exact Table.agrees_insert fun foreign => foreign rfl
  | holidayDeleted h role member org wrote =>
      simp only [Prisma.holidayDelete, ensure_eq_ok, Except.ok.injEq,
        Prod.mk.injEq] at wrote
      rcases wrote with ⟨_, _, rfl⟩
      refine { SameOutside.refl caller.orgId db with holidays := ?_ }
      refine Table.agrees_deleteWhere fun row rowMem key foreign => ?_
      rw [db.holidays.eq_of_key rowMem member key] at foreign
      exact foreign org
  | notificationsRead p own wrote =>
      cases wrote
      refine { SameOutside.refl caller.orgId db with notifications := ?_ }
      refine Table.agrees_modify fun row rowMem touched => ?_
      have mine := own row rowMem touched
      have inside : ¬ db.ForeignUser caller.orgId row.userId := by
        rw [mine]
        exact signed.not_foreign
      exact ⟨inside, inside⟩
  | projectCreated data managers employees role org wrote =>
      exact projectCreate_outside org wrote
  | projectUpdated p dto role member org wrote =>
      exact writeProject_outside member org wrote
  | projectDeleted p role member org wrote =>
      simp only [Prisma.projectDelete, ensure_eq_ok, Except.ok.injEq,
        Prod.mk.injEq] at wrote
      rcases wrote with ⟨_, _, _, rfl⟩
      refine { SameOutside.refl caller.orgId db with projects := ?_ }
      refine Table.agrees_deleteWhere fun row rowMem key foreign => ?_
      rw [db.projects.eq_of_key rowMem member key] at foreign
      exact foreign org
  | userCreated data role org wrote =>
      simp only [Prisma.userCreate, ensure_eq_ok, Except.ok.injEq,
        Prod.mk.injEq] at wrote
      rcases wrote with ⟨_, _, _, rfl, rfl⟩
      refine { SameOutside.refl caller.orgId db with users := ?_ }
      exact Table.agrees_insert fun foreign => foreign org
  | userUpdated id data role member wrote =>
      exact userUpdate_outside member wrote
  | reportsDropped managerId wrote =>
      cases wrote
      exact { SameOutside.refl caller.orgId db with }
  | managersReplaced employeeId managerIds notSelf valid wrote =>
      exact outside_bind (managerEmployeeDeleteMany_outside _)
        (fun _ => outside_ite (managerEmployeeCreateMany_outside _))
        _ _ _ wrote
  | projectsReplaced employeeId projectIds valid wrote =>
      exact outside_bind (projectEmployeeDeleteMany_outside _)
        (fun _ => outside_ite (projectEmployeeCreateMany_outside _))
        _ _ _ wrote

/-- The caller stays a member along its side changes. -/
theorem sideChanges_outside
    (changes : Relation.ReflTransGen (SideChange lib host caller) db after)
    (signed : db.Member caller.userId caller.orgId) :
    SameOutside caller.orgId db after ∧
      after.Member caller.userId caller.orgId := by
  induction changes with
  | refl => exact ⟨.refl _ db, signed⟩
  | tail _ change ih =>
      rcases ih with ⟨same, member⟩
      exact ⟨same.trans (change.outside member),
        change.grows.member _ _ member⟩

end Side

/-! ## Sheet changes -/

section Sheets

variable {host : Host} {caller : JwtPayload} {call : Call} {db after : Db}

/-- Only the caller's own organisation gains, loses or changes timesheets. -/
theorem SheetChange.timesheets_outside
    (change : SheetChange host caller call db after) :
    Table.Agrees (fun t => t.organisationId ≠ caller.orgId)
      db.timesheets after.timesheets := by
  have kept {t new : Timesheet} (foreign : t.organisationId ≠ caller.orgId)
      (becomes : Becomes host caller call db t new) : new = t := by
    cases becomes with
    | kept => rfl
    | totalled entries owns editable => exact (foreign owns.org).elim
    | moved dto owns draft made => exact (foreign owns.org).elim
    | submitted owns editable => exact (foreign owns.org).elim
    | approved may => exact (foreign may.org).elim
    | rejected reason may => exact (foreign may.org).elim
  intro t foreign
  constructor
  · intro member
    rcases change.origin member with
      ⟨old, oldMem, becomes⟩ | ⟨data, entries, opens, rfl⟩
    · have home : old.organisationId = t.organisationId := by
        cases becomes <;> rfl
      rw [kept (home ▸ foreign) becomes]
      exact oldMem
    · exact (foreign opens.org).elim
  · intro member
    rcases change.fate member with ⟨new, newMem, becomes⟩ | ⟨owns, _, _⟩
    · rwa [kept foreign becomes] at newMem
    · exact (foreign owns.org).elim

/-- Entries of foreign timesheets are out of reach. -/
theorem SheetChange.entries_outside
    (change : SheetChange host caller call db after) :
    Table.Agrees (fun e => db.ForeignSheet caller.orgId e.timesheetId)
      db.timeEntries after.timeEntries := by
  rcases change.footprint with
    ⟨id, edits⟩ | ⟨t, may, _, rfl⟩ | ⟨t, reason, may, entries, _, _⟩
  · rintro e ⟨t, tMem, key, foreign⟩
    have apart : e.timesheetId ≠ id := fun same =>
      foreign (edits.own t tMem (key.trans same)).org
    have same := edits.entriesOf apart
    have mine : ∀ books : Db, e ∈ books.entriesOf e.timesheetId ↔
        e ∈ books.timeEntries.rows := fun books => by
      simp [Db.mem_entriesOf]
    rw [← mine after, ← mine db, same]
  · exact .refl _
  · rw [entries]
    exact .refl _

/-- A notification goes to the owner of the decided timesheet. -/
theorem notify_outside {orgId : Nat} {now : Instant}
    {data : NotificationData} (member : db.Member data.userId orgId) :
    Table.Agrees (fun n => db.ForeignUser orgId n.userId)
      db.notifications (db.notify now data).notifications :=
  Table.agrees_insert member.not_foreign

theorem MayDecide.owner_member {t : Timesheet}
    (may : MayDecide caller db t) (owned : db.Owned) :
    db.Member t.userId caller.orgId :=
  may.org ▸ owned t may.member

/-- Beside projects, a sheet change stays within the organisation. -/
theorem SheetChange.outside
    (change : SheetChange host caller call db after) (owned : db.Owned)
    (projects : Table.Agrees (fun p => p.organisationId ≠ caller.orgId)
      db.projects after.projects) :
    SameOutside caller.orgId db after := by
  have sheets := change.timesheets_outside
  have entries := change.entries_outside
  cases change with
  | approved t may =>
      exact { SameOutside.refl caller.orgId db with
        projects := projects
        timesheets := sheets
        timeEntries := entries
        notifications := notify_outside (may.owner_member owned) }
  | rejected t reason may =>
      exact { SameOutside.refl caller.orgId db with
        projects := projects
        timesheets := sheets
        timeEntries := entries
        notifications := notify_outside (may.owner_member owned) }
  | _ =>
      exact { SameOutside.refl caller.orgId db with
        projects := projects
        timesheets := sheets
        timeEntries := entries }

end Sheets

/-! ## Approvals that book on a foreign project -/

/--
The call approves a timesheet the caller may decide, and the timesheet has an
entry on a project of another organisation.  The booking of no hours still
sets `updatedAt`, unless the project has been updated at the same instant.
-/
def BooksForeign (db : Db) (host : Host) (caller : JwtPayload) : Call → Prop
  | .approveTimesheet id =>
      ∃ t, t.id = id ∧ MayDecide caller db t ∧
        ∃ e ∈ db.entriesOf id, ∃ p ∈ db.projects.rows,
          p.id = e.projectId ∧ p.organisationId ≠ caller.orgId ∧
            (e.totalHours ≠ 0 ∨ p.updatedAt ≠ host.now)
  | _ => False

section Approvals

variable {host : Host} {caller : JwtPayload} {call : Call} {db after : Db}

/-- Empty bookings at the instant of the last update leave a project alone. -/
theorem bookOn_eq_self {now : Instant} {entries : List TimeEntry} {p : Project}
    (empty : ∀ e ∈ entries, e.projectId = p.id →
      e.totalHours = 0 ∧ p.updatedAt = now) :
    bookOn now entries p = p := by
  let own := entries.filter fun e => e.projectId = p.id
  have each : ∀ e ∈ own, e.totalHours = 0 ∧ p.updatedAt = now := by
    intro e member
    have spec := List.mem_filter.mp member
    exact empty e spec.1 (of_decide_eq_true spec.2)
  have hours : (own.map (·.totalHours)).sum = 0 := by
    refine List.sum_eq_zero fun q given => ?_
    rcases List.mem_map.mp given with ⟨e, member, rfl⟩
    exact (each e member).1
  have updated : (if own = [] then p.updatedAt else now) = p.updatedAt := by
    split
    · rfl
    · rename_i some
      obtain ⟨e, member⟩ := List.exists_mem_of_ne_nil own some
      exact (each e member).2.symm
  show { p with
    usedHours := p.usedHours + (own.map (·.totalHours)).sum
    updatedAt := if own = [] then p.updatedAt else now } = p
  rw [hours, updated, add_zero]

/-- A project that a booking leaves alone has got no hours. -/
theorem hours_of_bookOn_eq_self {now : Instant} {entries : List TimeEntry}
    {p : Project} (nonneg : ∀ e ∈ entries, 0 ≤ e.totalHours)
    (same : bookOn now entries p = p) {e : TimeEntry} (member : e ∈ entries)
    (key : p.id = e.projectId) :
    e.totalHours = 0 ∧ p.updatedAt = now := by
  let own := entries.filter fun e => e.projectId = p.id
  have given : e ∈ own := List.mem_filter.mpr ⟨member, by simp [key]⟩
  have zero : (own.map (·.totalHours)).sum = 0 := by
    have used : p.usedHours + (own.map (·.totalHours)).sum = p.usedHours :=
      congrArg Project.usedHours same
    linarith
  have updated : (if own = [] then p.updatedAt else now) = p.updatedAt :=
    congrArg Project.updatedAt same
  rw [if_neg (List.ne_nil_of_mem given)] at updated
  -- The entry is one of the summands, and none of them is negative.
  have each : ∀ q ∈ own.map (·.totalHours), (0 : ℚ) ≤ q := by
    intro q qMem
    rcases List.mem_map.mp qMem with ⟨other, otherMem, rfl⟩
    exact nonneg other (List.mem_filter.mp otherMem).1
  have summand := List.mem_map_of_mem (f := (·.totalHours)) given
  have below : e.totalHours ≤ 0 :=
    zero ▸ List.single_le_sum each _ summand
  exact ⟨le_antisymm below (each _ summand), updated.symm⟩

/-- Without entries on foreign projects an approval leaves them alone. -/
theorem bookAll_outside {now : Instant} {t : Timesheet}
    (alone : ∀ p ∈ db.projects.rows, p.organisationId ≠ caller.orgId →
      bookOn now (db.entriesOf t.id) p = p) :
    Table.Agrees (fun p => p.organisationId ≠ caller.orgId) db.projects
      (bookAll now (db.entriesOf t.id) db.projects) := by
  intro p foreign
  rw [mem_bookAll]
  constructor
  · rintro ⟨old, oldMem, rfl⟩
    rwa [alone old oldMem foreign]
  · intro member
    exact ⟨p, member, (alone p member foreign).symm⟩

theorem bookOn_foreign {t : Timesheet} (may : MayDecide caller db t)
    (clean : ¬ BooksForeign db host caller (.approveTimesheet t.id))
    {p : Project} (member : p ∈ db.projects.rows)
    (foreign : p.organisationId ≠ caller.orgId) :
    bookOn host.now (db.entriesOf t.id) p = p := by
  refine bookOn_eq_self fun e entry key => ?_
  by_contra books
  refine clean ⟨t, rfl, may, e, entry, p, member, key.symm, foreign, ?_⟩
  by_cases hours : e.totalHours = 0
  · exact .inr fun now => books ⟨hours, now⟩
  · exact .inl hours

/-- A booking on a foreign project changes it. -/
theorem approve_not_outside {t : Timesheet} {now : Instant}
    (totals : Totals db) {e : TimeEntry} (entry : e ∈ db.entriesOf t.id)
    {p : Project} (member : p ∈ db.projects.rows) (key : p.id = e.projectId)
    (foreign : p.organisationId ≠ caller.orgId)
    (books : e.totalHours ≠ 0 ∨ p.updatedAt ≠ now) :
    ¬ SameOutside caller.orgId db (db.approve now caller.userId t) := by
  intro same
  have kept := (same.projects p foreign).mpr member
  have booked : bookOn now (db.entriesOf t.id) p ∈
      (db.approve now caller.userId t).projects.rows :=
    mem_bookAll.mpr ⟨p, member, rfl⟩
  have nonneg : ∀ other ∈ db.entriesOf t.id, 0 ≤ other.totalHours := by
    intro other otherMem
    have row := Db.mem_entriesOf.mp otherMem
    exact (totals.entry other row.1).totalHours_nonneg
  have none := hours_of_bookOn_eq_self nonneg
    (Table.eq_of_key _ booked kept rfl) entry key
  exact books.elim (fun hours => hours none.1) fun apart => apart none.2

end Approvals

/-! ## Runs -/

namespace World

variable {world : World} {host : Host} {caller : JwtPayload} {call : Call}

theorem Sound.outside (sound : world.Sound) (lib : Libs)
    (clean : ¬ (caller ∈ world.issued ∧
      BooksForeign world.db host caller call)) :
    SameOutside caller.orgId world.db
      (world.step lib (.authenticated host caller call)).db := by
  generalize made :
    (world.step lib (.authenticated host caller call)).db = after
  have change := sound.change lib (.authenticated host caller call)
  rw [made] at change
  cases change with
  | refused => exact .refl _ _
  | effect signed effect =>
      cases effect with
      | side changes =>
          exact (sideChanges_outside changes (sound.callers _ signed)).1
      | sheet change =>
          refine change.outside sound.owned ?_
          rcases change.footprint with
            ⟨id, edits⟩ | ⟨t, may, rfl, rfl⟩ | ⟨t, reason, may, _, same, _⟩
          · rw [edits.projects]
            exact .refl _
          · exact bookAll_outside fun p member foreign =>
              bookOn_foreign may (fun books => clean ⟨signed, books⟩)
                member foreign
          · rw [same]
            exact .refl _

theorem Sound.step_approve (sound : world.Sound) (lib : Libs)
    {t : Timesheet} (signed : caller ∈ world.issued)
    (may : MayDecide caller world.db t) :
    (world.step lib
      (.authenticated host caller (.approveTimesheet t.id))).db =
        world.db.approve host.now caller.userId t := by
  have role : caller.role ∈ [UserRole.manager, UserRole.admin] := by
    rcases may.role with manager | admin
    · simp [manager]
    · simp [admin]
  have run : wp (handle lib host caller (.approveTimesheet t.id))
      (fun _ after => after = world.db.approve host.now caller.userId t)
      world.db := by
    simp only [handle, requireRole, wp_bind, wp_throwIf, andThen_ok, role,
      not_true_eq_false, false_implies, not_false_eq_true, true_implies,
      true_and]
    refine (wp_approveTimesheet_of sound.integrity may
      (sound.callers caller signed)).mpr ?_
    rfl
  rw [step_signed signed]
  exact run

end World

/--
After every run, a request of a caller leaves the rows of all other
organisations as they are, unless it approves a timesheet with an entry on a
foreign project, and then it does not.
-/
theorem tenant_isolation_iff (lib : Libs) (requests : List Request)
    (host : Host) (caller : JwtPayload) (call : Call) :
    SameOutside caller.orgId (World.empty.run lib requests).db
        ((World.empty.run lib requests).step lib
          (.authenticated host caller call)).db ↔
      ¬ (caller ∈ (World.empty.run lib requests).issued ∧
        BooksForeign (World.empty.run lib requests).db host caller call) := by
  have sound := World.sound_run lib requests
  refine ⟨?_, sound.outside lib⟩
  rintro same ⟨signed, books⟩
  cases call with
  | approveTimesheet id =>
      rcases books with ⟨t, rfl, may, e, entry, p, member, key, foreign,
        books⟩
      rw [sound.step_approve lib signed may] at same
      exact approve_not_outside (totals_run lib requests) entry member key
        foreign books same
  | _ => exact books

/-- An update moves an entry of one organisation to a project of another. -/
def foreignEntryRun : List Request :=
  let ada : JwtPayload := ⟨1, 1, .admin⟩
  let bob : JwtPayload := ⟨2, 2, .admin⟩
  [.register "acme" "ada@acme", .register "bolt" "bob@bolt",
    .addProject bob "B", .addProject ada "A",
    .addUser ada "eve@acme" .admin, .login "eve@acme",
    .authenticated plainHost ada (.createTimesheet ⟨january 1⟩),
    .authenticated plainHost ada (.createEntry 1 (mondayEntry 2 8)),
    .authenticated plainHost ada
      (.updateEntry 1 1
        { projectId := some 1
          billable := none
          hours := .const none
          desc := .const none
          timeOff := .const none }),
    .authenticated plainHost ada (.submitTimesheet 1)]

/-- The approval that follows books eight hours on the other organisation. -/
theorem foreign_project_booked :
    let before := World.empty.run plainLibs foreignEntryRun
    let after := before.step plainLibs
      (.authenticated plainHost ⟨3, 1, .admin⟩ (.approveTimesheet 1))
    ¬ SameOutside 1 before.db after.db := by
  intro before after same
  have changed : ∃ p ∈ before.db.projects.rows, p.organisationId ≠ 1 ∧
      p ∉ after.db.projects.rows := by
    decide +kernel
  rcases changed with ⟨p, member, foreign, gone⟩
  exact gone ((same.projects p foreign).mpr member)

end TmsApi
