import TmsApi.Refinement.Changes
import TmsApi.Refinement.Routes

/-!
# Timesheet services make sheet changes

Each service function on timesheets, entries and approvals is run
symbolically: its guards become the conditions of a constructor of
`SheetChange`, its statements the database after the change.
-/

namespace TmsApi

open TmsApi.Core
open TmsApi.Core.Program

/-! ## Statements as changes -/

namespace Prisma

variable {db : Db} {now : Instant}

theorem timesheetUpdate_after {id : Nat} {data : TimesheetUpdate}
    {t : Timesheet} {after : Db}
    (outcome : timesheetUpdate now id data db = .ok (t, after)) :
    after = db.setSheet now id data := by
  simp only [timesheetUpdate] at outcome
  split at outcome
  · cases outcome
  · simp only [ensure_eq_ok, Except.ok.injEq, Prod.mk.injEq] at outcome
    exact outcome.2.2.2.symm

/-- An update of an existing timesheet within the constraints succeeds. -/
theorem timesheetUpdate_of {id : Nat} {data : TimesheetUpdate}
    {t : Timesheet} (member : t ∈ db.timesheets.rows) (key : t.id = id)
    (fits : ∀ reason ∈ data.rejectedReason, varchar? reason)
    (approver : ∀ u ∈ data.approvedById, db.users.HasKey u) :
    timesheetUpdate now id data db =
      .ok (data.apply now t, db.setSheet now id data) := by
  have found : db.timesheets.find? (fun t => t.id = id) = some t :=
    Table.find?_of_mem member key fun other same => same.trans key.symm
  simp only [timesheetUpdate, found, ensure_of fits, ensure_of approver]
  rfl

/-- A successful update names an existing approver, if any. -/
theorem timesheetUpdate_approver {id : Nat} {data : TimesheetUpdate}
    {t : Timesheet} {after : Db}
    (outcome : timesheetUpdate now id data db = .ok (t, after)) :
    ∀ u ∈ data.approvedById, db.users.HasKey u := by
  simp only [timesheetUpdate] at outcome
  split at outcome
  · cases outcome
  · simp only [ensure_eq_ok] at outcome
    exact outcome.2.1

theorem timesheetCreate_after {data : TimesheetData} {t : Timesheet}
    {after : Db}
    (outcome : timesheetCreate now data db = .ok (t, after)) :
    after = db.openSheet now data [] ∧ t = data.row now db.timesheets.next := by
  simp only [timesheetCreate, ensure_eq_ok, Except.ok.injEq,
    Prod.mk.injEq] at outcome
  exact ⟨outcome.2.2.symm, outcome.2.1.symm⟩

theorem timesheetDelete_after {id : Nat} {done : PUnit} {after : Db}
    (outcome : timesheetDelete id db = .ok (done, after)) :
    after = db.dropSheet id := by
  simp only [timesheetDelete, ensure_eq_ok, Except.ok.injEq,
    Prod.mk.injEq] at outcome
  exact outcome.2.2.symm

theorem timeEntryCreate_eq_ok {data : TimeEntryData} {e : TimeEntry}
    {after : Db} :
    timeEntryCreate now data db = .ok (e, after) ↔
      (data.desc.All text? ∧ db.timesheets.HasKey data.timesheetId ∧
        db.projects.HasKey data.projectId) ∧
      e = data.row now db.timeEntries.next ∧
        after = db.insertEntry now data := by
  simp only [timeEntryCreate, ensure_eq_ok, Except.ok.injEq, Prod.mk.injEq,
    and_assoc, eq_comm (a := e), eq_comm (a := after)]
  rfl

theorem timeEntryUpdate_eq_ok {id : Nat} {data : TimeEntryUpdate}
    {row : TimeEntry} {after : Db} :
    timeEntryUpdate id data db = .ok (row, after) ↔
      (data.desc.All text? ∧ ∀ p ∈ data.projectId, db.projects.HasKey p) ∧
        (∃ e ∈ db.timeEntries.rows, e.id = id ∧ row = data.apply e) ∧
          after = db.setEntry id data := by
  simp only [timeEntryUpdate]
  cases found : db.timeEntries.find? (fun e => e.id = id) with
  | none =>
      have absent := Table.find?_eq_none.mp found
      simp only [reduceCtorEq, false_iff]
      rintro ⟨_, ⟨e, member, key, _⟩, _⟩
      exact absent e member key
  | some e =>
      rcases Table.find?_spec found with ⟨member, key⟩
      simp only [ensure_eq_ok, Except.ok.injEq, Prod.mk.injEq]
      constructor
      · rintro ⟨fits, project, rfl, rfl⟩
        exact ⟨⟨fits, project⟩, ⟨e, member, key, rfl⟩, rfl⟩
      · rintro ⟨⟨fits, project⟩, ⟨other, otherMem, otherKey, rfl⟩, rfl⟩
        cases db.timeEntries.eq_of_key otherMem member
          (otherKey.trans key.symm)
        exact ⟨fits, project, rfl, rfl⟩

theorem timeEntryDelete_after {id : Nat} {done : PUnit} {after : Db}
    (outcome : timeEntryDelete id db = .ok (done, after)) :
    after = db.dropEntry id := by
  simp only [timeEntryDelete, ensure_eq_ok, Except.ok.injEq,
    Prod.mk.injEq] at outcome
  exact outcome.2.2.symm

theorem notificationCreate_after {data : NotificationData}
    {n : Notification} {after : Db}
    (outcome : notificationCreate now data db = .ok (n, after)) :
    after = db.notify now data := by
  simp only [notificationCreate, ensure_eq_ok, Except.ok.injEq,
    Prod.mk.injEq] at outcome
  exact outcome.2.2.2.symm

theorem notificationCreate_of (data : NotificationData)
    (fits : varchar data.message) (user : db.users.HasKey data.userId) :
    notificationCreate now data db =
      .ok (data.row now db.notifications.next, db.notify now data) := by
  rw [notificationCreate, ensure_of fits, ensure_of user]
  rfl

/-- A notification to an existing user fails only for its length. -/
theorem notificationCreate_error {data : NotificationData} {e : Thrown}
    (outcome : notificationCreate now data db = .error e)
    (user : db.users.HasKey data.userId) :
    ¬ varchar data.message := by
  intro fits
  rw [notificationCreate_of data fits user] at outcome
  cases outcome

end Prisma

theorem Owns.of_ownTimesheet {caller : JwtPayload} {db : Db} {id : Nat}
    {t : Timesheet}
    (found : db.ownTimesheet id caller.userId caller.orgId = some t) :
    Owns caller db t ∧ t.id = id := by
  have facts := Table.holds_of_find? found
  exact ⟨⟨Table.mem_of_find? found, facts.2.1, facts.2.2⟩, facts.1⟩

theorem Owns.of_weekTimesheet {caller : JwtPayload} {db : Db}
    {week : Instant} {t : Timesheet}
    (found : db.weekTimesheet caller.userId caller.orgId week = some t) :
    Owns caller db t := by
  have facts := Table.holds_of_find? found
  exact ⟨Table.mem_of_find? found, facts.1, facts.2.1⟩

section

variable {host : Host} {caller : JwtPayload} {call : Call} {db : Db}

/-- Nothing, or one sheet change. -/
def SheetStep {α : Type} (host : Host) (caller : JwtPayload)
    (call : Call) (db : Db) (_ : Except Thrown α) (after : Db) : Prop :=
  after = db ∨ SheetChange host caller call db after

@[simp]
theorem sheetStep_self {α : Type} (result : Except Thrown α) :
    SheetStep host caller call db result db :=
  .inl rfl

/-! ## Drafts -/

/-- A new draft for the week of a date. -/
theorem wp_createTimesheet {dto : CreateTimesheetDto}
    {post : Except Thrown Timesheet → Db → Prop}
    (fails : ∀ e, post (.error e) db)
    (opens : ∀ data : TimesheetData, Opens host caller db data [] →
      post (.ok (data.row host.now db.timesheets.next))
        (db.openSheet host.now data [])) :
    wp (createTimesheet host caller.userId caller.orgId dto) post db := by
  simp only [createTimesheet, wp_bind, wp_query, andThen_ok, andThen_error,
    wp_throwIf, wp_orThrow, wp_statement, fails, implies_true, true_and]
  intro _ week parsed free t after outcome
  rcases Option.map_eq_some_iff.mp parsed with ⟨date, _, normal⟩
  rcases Prisma.timesheetCreate_after outcome with ⟨rfl, rfl⟩
  refine opens _ ?_
  exact
    { owner := rfl
      org := rfl
      draft := rfl
      week := ⟨date, normal.symm⟩
      weekEnd := rfl
      free := by simpa using free
      total := rfl
      billable := rfl }

theorem createTimesheet_step (dto : CreateTimesheetDto) :
    wp (createTimesheet host caller.userId caller.orgId dto)
      (SheetStep host caller call db) db :=
  wp_createTimesheet (fun _ => sheetStep_self _) fun data opens =>
    .inr (.opened data [] opens (.inl rfl))

/-- The guard of the operations on a timesheet of the caller. -/
theorem wp_ownTimesheet {α : Type} {id : Nat} {error : Thrown}
    {rest : Timesheet → Service α} {post : Except Thrown α → Db → Prop}
    (fails : ∀ e, post (.error e) db)
    (passes : ∀ t, Owns caller db t → t.id = id → wp (rest t) post db) :
    wp (query (fun db => db.ownTimesheet id caller.userId caller.orgId) >>=
      fun found => orThrow found error >>= rest) post db := by
  simp only [wp_bind, wp_query, andThen_ok, andThen_error, wp_orThrow,
    fails, implies_true, true_and]
  intro t found
  rcases Owns.of_ownTimesheet found with ⟨owns, key⟩
  exact passes t owns key

/-- A draft moved to another date. -/
theorem wp_updateTimesheet {id : Nat} {dto : UpdateTimesheetDto}
    {post : Except Thrown Timesheet → Db → Prop}
    (fails : ∀ e, post (.error e) db)
    (moves : ∀ t row, Owns caller db t → t.id = id → t.status = .draft →
      post (.ok row) (db.setSheet host.now t.id (Db.move dto))) :
    wp (updateTimesheet host id caller.userId caller.orgId dto) post db := by
  refine wp_ownTimesheet fails ?_
  rintro t owns rfl
  simp only [wp_bind, wp_statement, andThen_ok, andThen_error, wp_throwIf,
    fails, implies_true, true_and]
  intro draft _ row after outcome
  rw [Prisma.timesheetUpdate_after outcome]
  exact moves t row owns rfl (not_not.mp draft)

theorem updateTimesheet_step (id : Nat) (dto : UpdateTimesheetDto) :
    wp (updateTimesheet host id caller.userId caller.orgId dto)
      (SheetStep host caller (.updateTimesheet id dto) db) db := by
  refine wp_updateTimesheet (fun _ => sheetStep_self _) ?_
  rintro t row owns rfl draft
  exact .inr (.moved t dto owns draft rfl)

/-- A draft deleted with its entries. -/
theorem wp_deleteTimesheet {id : Nat}
    {post : Except Thrown PUnit → Db → Prop}
    (fails : ∀ e, post (.error e) db)
    (drops : ∀ t, Owns caller db t → t.id = id → t.status = .draft →
      post (.ok ⟨⟩) (db.dropSheet t.id)) :
    wp (deleteTimesheet id caller.userId caller.orgId) post db := by
  refine wp_ownTimesheet fails ?_
  rintro t owns rfl
  simp only [wp_bind, wp_statement, andThen_ok, andThen_error, wp_throwIf,
    fails, implies_true, true_and]
  intro draft done after outcome
  rw [Prisma.timesheetDelete_after outcome]
  exact drops t owns rfl (not_not.mp draft)

theorem deleteTimesheet_step (id : Nat) :
    wp (deleteTimesheet id caller.userId caller.orgId)
      (SheetStep host caller call db) db := by
  refine wp_deleteTimesheet (fun _ => sheetStep_self _) ?_
  intro t owns _ draft
  exact .inr (.dropped t owns draft)

/-- An editable timesheet submitted. -/
theorem wp_submitTimesheet {id : Nat}
    {post : Except Thrown Timesheet → Db → Prop}
    (fails : ∀ e, post (.error e) db)
    (submits : ∀ t row, Owns caller db t → t.id = id → Editable t →
      post (.ok row) (db.setSheet host.now t.id (Db.submission t))) :
    wp (submitTimesheet host id caller.userId caller.orgId) post db := by
  refine wp_ownTimesheet fails ?_
  rintro t owns rfl
  simp only [wp_bind, wp_statement, andThen_ok, andThen_error, wp_throwIf,
    fails, implies_true, true_and]
  intro editable row after outcome
  rw [Prisma.timesheetUpdate_after outcome]
  exact submits t row owns rfl (not_not.mp editable)

theorem submitTimesheet_step (id : Nat) :
    wp (submitTimesheet host id caller.userId caller.orgId)
      (SheetStep host caller call db) db := by
  refine wp_submitTimesheet (fun _ => sheetStep_self _) ?_
  intro t row owns _ editable
  exact .inr (.submitted t owns editable)

/-! ## Copies -/

theorem mem_of_latest {ts : List Timesheet} {t : Timesheet}
    (found : latest ts = some t) : t ∈ ts := by
  induction ts generalizing t with
  | nil => cases found
  | cons head rest ih =>
      simp only [latest] at found
      split at found
      · split at found
        · cases found
          exact List.mem_cons_of_mem _ (ih ‹_›)
        · cases found
          exact List.mem_cons_self
      · cases found
        exact List.mem_cons_self

theorem createEntries_after {id : Nat} {entries : List TimeEntry}
    {done : PUnit} {after : Db}
    (outcome : createEntries host id entries db = .ok (done, after)) :
    after =
      { db with
        timeEntries :=
          Table.insertMany (fun d => d.row host.now)
            db.timeEntries (entries.map (copiedEntry id)) } := by
  cases entries with
  | nil =>
      cases outcome
      rfl
  | cons e entries =>
      simp only [createEntries, List.length_cons, Nat.zero_lt_succ, if_true,
        Prisma.timeEntryCreateMany, ensure_eq_ok, Except.ok.injEq,
        Prod.mk.injEq] at outcome
      exact outcome.2.2.2.symm

theorem overwriteEntries_after {id : Nat} {entries : List TimeEntry}
    {t : Timesheet} {after : Db}
    (outcome : overwriteEntries host id entries
      (sumBy (·.totalHours) entries)
      (sumBy (·.totalHours) (entries.filter (·.billable))) db =
        .ok (t, after)) :
    after = db.overwriteSheet host.now id entries := by
  rcases bind_eq_ok.mp outcome with ⟨_, cleared, deleted, outcome⟩
  rcases bind_eq_ok.mp outcome with ⟨_, filled, created, updated⟩
  cases deleted
  rw [Prisma.timesheetUpdate_after updated, createEntries_after created]
  rfl

theorem createCopy_after {data : TimesheetData} {entries : List TimeEntry}
    {t : Timesheet} {after : Db}
    (outcome : createCopy host data entries db = .ok (t, after)) :
    after = db.openSheet host.now data entries := by
  rcases bind_eq_ok.mp outcome with ⟨row, opened, created, outcome⟩
  rcases bind_eq_ok.mp outcome with ⟨_, filled, copied, returned⟩
  cases returned
  rcases Prisma.timesheetCreate_after created with ⟨rfl, rfl⟩
  exact createEntries_after copied

/-- The rows the two branches of a copy answer with. -/
theorem overwriteEntries_row {t row : Timesheet} {entries : List TimeEntry}
    {after : Db} (member : t ∈ db.timesheets.rows)
    (outcome : overwriteEntries host t.id entries
      (sumBy (·.totalHours) entries)
      (sumBy (·.totalHours) (entries.filter (·.billable))) db =
        .ok (row, after)) :
    row = (totalsOf entries).apply host.now t := by
  rcases bind_eq_ok.mp outcome with ⟨_, cleared, deleted, outcome⟩
  rcases bind_eq_ok.mp outcome with ⟨_, filled, created, updated⟩
  cases deleted
  have same : filled.timesheets = db.timesheets := by
    rw [createEntries_after created]
  have written : Prisma.timesheetUpdate host.now t.id (totalsOf entries)
      filled = _ :=
    Prisma.timesheetUpdate_of (same ▸ member) rfl
      (by intro reason given; cases given) (by intro u given; cases given)
  cases updated.symm.trans written
  rfl

theorem createCopy_row {data : TimesheetData} {entries : List TimeEntry}
    {t : Timesheet} {after : Db}
    (outcome : createCopy host data entries db = .ok (t, after)) :
    t = data.row host.now db.timesheets.next := by
  rcases bind_eq_ok.mp outcome with ⟨row, opened, created, outcome⟩
  rcases bind_eq_ok.mp outcome with ⟨_, filled, copied, returned⟩
  cases returned
  exact (Prisma.timesheetCreate_after created).2

/-- The entries of a source that are copied for a caller. -/
def Db.copyable (db : Db) (caller : JwtPayload) (source : Timesheet) :
    List TimeEntry :=
  if caller.role = .employee then
    (db.entriesOf source.id).filter fun e =>
      e.projectId ∈ db.assignedProjectIds caller.userId caller.orgId
  else
    db.entriesOf source.id

/-- Only entries of the source are copied, in their order. -/
theorem Db.copyable_sublist (db : Db) (caller : JwtPayload)
    (source : Timesheet) :
    (db.copyable caller source).Sublist (db.entriesOf source.id) := by
  unfold Db.copyable
  split
  · exact List.filter_sublist
  · exact List.Sublist.refl _

theorem wp_copyableEntries {source : Timesheet}
    {post : Except Thrown (List TimeEntry) → Db → Prop} :
    wp (copyableEntries caller.userId caller.orgId caller.role
      (db.entriesOf source.id)) post db ↔
      post (.ok (db.copyable caller source)) db := by
  unfold copyableEntries Db.copyable
  split <;> rfl

/-- The number of entries of a source that are left out. -/
def Db.skipped (db : Db) (caller : JwtPayload) (source : Timesheet) : Nat :=
  (db.entriesOf source.id).length - (db.copyable caller source).length

/-- The source of a copy and the week it is made for. -/
structure CopiesTo (host : Host) (caller : JwtPayload) (db : Db)
    (target : JsDate) (source : Timesheet) (week : Instant) : Prop where
  latest : db.previousTimesheet caller.userId caller.orgId = some source
  week : (target.map fun date =>
    getWeekStart host.zone date (db.startDay caller.orgId)) = some week

/-- The source is a submitted or approved timesheet of the caller. -/
theorem CopiesTo.source {target : JsDate} {source : Timesheet}
    {week : Instant}
    (copies : CopiesTo host caller db target source week) :
    Owns caller db source ∧
      (source.status = .approved ∨ source.status = .submitted) := by
  have facts := Table.mem_select.mp (mem_of_latest copies.latest)
  exact ⟨⟨facts.1, facts.2.1, facts.2.2.1⟩, facts.2.2.2⟩

theorem CopiesTo.ownEntries {target : JsDate} {source : Timesheet}
    {week : Instant}
    (copies : CopiesTo host caller db target source week) :
    OwnEntries caller db (db.copyable caller source) := by
  have owns := copies.source.1
  exact ⟨source, owns.member, owns.owner, owns.org,
    fun e member => (db.copyable_sublist caller source).subset member⟩

/-- The entries of the latest closed timesheet, in a new or an old draft. -/
theorem wp_copyPreviousWeek {targetWeekStart : JsDate} {force : Bool}
    {post : Except Thrown (Timesheet × Nat) → Db → Prop}
    (fails : ∀ e, post (.error e) db)
    (opens : ∀ source (data : TimesheetData),
      CopiesTo host caller db targetWeekStart source data.weekStartDate →
      Opens host caller db data (db.copyable caller source) →
      post (.ok (data.row host.now db.timesheets.next,
          db.skipped caller source))
        (db.openSheet host.now data (db.copyable caller source)))
    (overwrites : ∀ source t,
      CopiesTo host caller db targetWeekStart source t.weekStartDate →
      db.weekTimesheet caller.userId caller.orgId t.weekStartDate = some t →
      t.status = .draft → force = true →
      post (.ok ((totalsOf (db.copyable caller source)).apply host.now t,
          db.skipped caller source))
        (db.overwriteSheet host.now t.id (db.copyable caller source))) :
    wp (copyPreviousWeek host caller.userId caller.orgId targetWeekStart
      caller.role force) post db := by
  simp only [copyPreviousWeek, copyIntoWeek, wp_bind, wp_query, andThen_ok,
    andThen_error, wp_throwIf, wp_orThrow, fails, implies_true, true_and]
  intro _ previous found week parsed notTaken notFrozen
  rcases Option.map_eq_some_iff.mp found with ⟨source, latestSheet, rfl⟩
  rcases Option.map_eq_some_iff.mp parsed with ⟨date, given, normal⟩
  have copies : CopiesTo host caller db targetWeekStart source week :=
    ⟨latestSheet, parsed⟩
  refine wp_copyableEntries.mpr ?_
  simp only [andThen_ok, wp_bind, wp_statement, andThen_error, pure_eq,
    wp_done, fails, implies_true, true_and]
  intro row after outcome
  cases existing : db.weekTimesheet caller.userId caller.orgId week with
  | none =>
      rw [existing] at outcome
      rw [createCopy_after outcome, createCopy_row outcome]
      refine opens source _ copies ?_
      exact
        { owner := rfl
          org := rfl
          draft := rfl
          week := ⟨date, normal.symm⟩
          weekEnd := rfl
          free := existing
          total := rfl
          billable := rfl }
  | some t =>
      rw [existing] at outcome notTaken notFrozen
      rcases Table.find?_spec existing with ⟨member, _, _, rfl⟩
      rw [overwriteEntries_after outcome,
        overwriteEntries_row member outcome]
      have forced : force = true := by simpa using notTaken
      have draft : t.status = .draft := by
        by_contra other
        exact notFrozen ⟨forced, t, rfl, other⟩
      exact overwrites source t copies existing draft forced

theorem copyPreviousWeek_step (targetWeekStart : JsDate) (force : Bool) :
    wp (copyPreviousWeek host caller.userId caller.orgId targetWeekStart
      caller.role force) (SheetStep host caller call db) db := by
  refine wp_copyPreviousWeek (fun _ => sheetStep_self _) ?_ ?_
  · intro source data copies opens
    exact .inr (.opened data _ opens (.inr copies.ownEntries))
  · intro source t copies found draft _
    exact .inr (.overwritten t _ (.of_weekTimesheet found) draft
      copies.ownEntries)

/-! ## Time entries -/

/-- The columns of the entry a body creates. -/
def createdEntry (timesheetId : Nat) (dto : CreateTimeEntryDto) :
    TimeEntryData where
  timesheetId := timesheetId
  projectId := dto.projectId
  billable := dto.billable.getD true
  hours := dto.hours.map (·.getD 0)
  desc := dto.desc
  timeOff := dto.timeOff.map (·.getD 0)
  totalHours := calcEntryTotal dto.hours

/-- The limit `createEntry` checks each value against. -/
def Db.maxPerDay (db : Db) (orgId : Nat) : ℚ :=
  ((db.settingsOf orgId).map (·.maxHoursPerDay)).getD 24

/-- Whether `createEntry` asks for descriptions. -/
def Db.asksForDesc (db : Db) (orgId : Nat) : Bool :=
  (db.settingsOf orgId).any (·.mandatoryDesc)

/-- A link of the project to the employee. -/
def Db.Assigned (db : Db) (projectId employeeId : Nat) : Prop :=
  ∃ r ∈ db.projectEmployees.rows, r.projectId = projectId ∧
    r.employeeId = employeeId

/-- What `createEntry` checks before it writes an entry. -/
structure MayCreate (caller : JwtPayload) (db : Db) (t : Timesheet)
    (dto : CreateTimeEntryDto) : Prop where
  owns : Owns caller db t
  editable : Editable t
  described : db.asksForDesc caller.orgId = true →
    ¬ (dto.hours.zipWith missingDescription dto.desc).toList.any id = true
  project : ∃ p ∈ db.projects.rows, p.id = dto.projectId ∧
    p.organisationId = caller.orgId
  assigned : caller.role = .employee →
    db.Assigned dto.projectId caller.userId
  within : dto.hours.All fun h => ∀ q ∈ h, q ≤ db.maxPerDay caller.orgId
  fits : dto.desc.All text?

/-- What `updateEntry` checks before it writes an entry. -/
structure MayUpdate (caller : JwtPayload) (db : Db) (t : Timesheet)
    (e : TimeEntry) (dto : UpdateTimeEntryDto) : Prop where
  owns : Owns caller db t
  editable : Editable t
  entry : e ∈ db.entriesOf t.id
  project : ∀ p ∈ dto.projectId, db.projects.HasKey p
  assigned : ∀ p ∈ dto.projectId, caller.role = .employee →
    db.Assigned p caller.userId
  fits : (mergedEntry dto e).desc.All text?

/-- The recalculation of an existing timesheet always succeeds. -/
theorem wp_recalculate {t : Timesheet} (member : t ∈ db.timesheets.rows)
    {post : Except Thrown PUnit → Db → Prop} :
    wp (recalculateTimesheetTotals host t.id) post db ↔
      post (.ok ⟨⟩) (db.recalculated host.now t.id) := by
  have written :
      Prisma.timesheetUpdate host.now t.id (totalsOf (db.entriesOf t.id))
        db = .ok (_, db.recalculated host.now t.id) :=
    Prisma.timesheetUpdate_of member rfl
      (by intro reason given; cases given) (by intro u given; cases given)
  simp only [recalculateTimesheetTotals, wp_bind, wp_query, andThen_ok]
  exact wp_statement_of written

/-- The guard of the entry operations, with the timesheet it found. -/
theorem wp_editableTimesheet {id : Nat}
    {post : Except Thrown Timesheet → Db → Prop}
    (fails : ∀ e, post (.error e) db)
    (passes : ∀ t, Owns caller db t → Editable t → t.id = id →
      post (.ok t) db) :
    wp (editableTimesheet id caller.userId caller.orgId) post db := by
  simp only [editableTimesheet, wp_bind, wp_query, andThen_ok,
    andThen_error, wp_throwIf, wp_orThrow, pure_eq, wp_done, fails,
    implies_true, true_and]
  intro t found open_
  rcases Owns.of_ownTimesheet found with ⟨owns, key⟩
  refine passes t owns ?_ key
  by_contra closed
  exact open_ (not_or.mp closed)

/-- The assignment check passes on an assigned project only. -/
theorem wp_assertAssigned {projectId userId : Nat}
    {post : Except Thrown PUnit → Db → Prop}
    (fails : ∀ e, post (.error e) db)
    (passes : (∃ r ∈ db.projectEmployees.rows, r.projectId = projectId ∧
      r.employeeId = userId) → post (.ok ⟨⟩) db) :
    wp (assertAssigned projectId userId) post db := by
  simp only [assertAssigned, wp_bind, wp_query, andThen_ok, wp_throwIf,
    fails, implies_true, true_and]
  exact fun assigned => passes (Table.exists_of_find? assigned)

/-- The hours of an accepted body are non-negative on every day. -/
theorem nonneg_of_accepted {dto : CreateTimeEntryDto}
    (accepted : Schemas.createTimeEntrySchema dto = []) :
    (dto.hours.map (·.getD 0)).All fun q => 0 ≤ q := by
  have checked : Schemas.weekOf Schemas.hourValue "Hours" dto.hours = [] := by
    simp only [Schemas.createTimeEntrySchema, List.append_eq_nil_iff]
      at accepted
    exact accepted.1.2
  have given := Schemas.weekOf_eq_nil.mp checked
  have nonneg : ∀ field : Option ℚ,
      (∀ q ∈ field, 0 ≤ q ∧ q ≤ ((24 : ℕ) : ℚ)) → 0 ≤ field.getD 0 := by
    intro field bounds
    cases field with
    | none => exact le_refl (0 : ℚ)
    | some q => exact (bounds q rfl).1
  rw [Week.all_iff] at given ⊢
  simp only [Week.map]
  exact ⟨nonneg _ given.1, nonneg _ given.2.1, nonneg _ given.2.2.1,
    nonneg _ given.2.2.2.1, nonneg _ given.2.2.2.2.1,
    nonneg _ given.2.2.2.2.2.1, nonneg _ given.2.2.2.2.2.2⟩

/-- A created entry and the totals of its timesheet after it. -/
def Db.withEntry (now : Instant) (t : Timesheet) (dto : CreateTimeEntryDto)
    (db : Db) : Db :=
  (db.insertEntry now (createdEntry t.id dto)).recalculated now t.id

/-- An updated entry and the totals of its timesheet after it. -/
def Db.withUpdate (now : Instant) (t : Timesheet) (e : TimeEntry)
    (dto : UpdateTimeEntryDto) (db : Db) : Db :=
  (db.setEntry e.id (mergedEntry dto e)).recalculated now t.id

/-- The check of the day limit, value by value. -/
theorem within_iff {hours : Week (Option ℚ)} {limit : ℚ} :
    ¬ (hours.toList.any fun h => h.any fun q => decide (limit < q)) = true ↔
      hours.All fun h => ∀ q ∈ h, q ≤ limit := by
  simp only [Week.All, List.any_eq_true, Option.any_eq_true, decide_eq_true_eq,
    not_exists, not_and, not_lt, Option.mem_def]

theorem wp_createEntry {timesheetId : Nat} {dto : CreateTimeEntryDto}
    {post : Except Thrown TimeEntry → Db → Prop}
    (fails : ∀ e, post (.error e) db)
    (adds : ∀ t e, t.id = timesheetId → MayCreate caller db t dto →
      post (.ok e) (db.withEntry host.now t dto)) :
    wp (createEntry host timesheetId caller.userId caller.orgId dto
      caller.role) post db := by
  simp only [createEntry, wp_bind]
  refine wp_editableTimesheet (by simpa using fails) ?_
  rintro t owns editable rfl
  simp only [wp_bind, wp_query, andThen_ok, andThen_error, wp_throwIf,
    fails, implies_true, true_and]
  intro described found
  refine wp_whenever_of wp_assertAssigned (by simpa using fails)
    fun assigned => ?_
  simp only [wp_bind, andThen_ok, andThen_error, wp_throwIf, wp_statement,
    fails, implies_true, true_and]
  intro within e after outcome
  rcases Prisma.timeEntryCreate_eq_ok.mp outcome with ⟨⟨fits, _⟩, _, rfl⟩
  refine (wp_recalculate ?_).mpr (adds t e rfl ?_)
  · exact owns.member
  exact
    { owns := owns
      editable := editable
      described := fun asked missing => described ⟨asked, missing⟩
      project := Table.exists_of_find? found
      assigned := assigned
      within := within_iff.mp within
      fits := fits }

theorem createEntry_step (timesheetId : Nat) (dto : CreateTimeEntryDto)
    (accepted : Schemas.createTimeEntrySchema dto = []) :
    wp (createEntry host timesheetId caller.userId caller.orgId dto
      caller.role) (SheetStep host caller call db) db := by
  refine wp_createEntry (fun _ => sheetStep_self _) ?_
  intro t e _ may
  exact .inr (.entryAdded t _ may.owns may.editable rfl rfl
    (nonneg_of_accepted accepted) may.project)

theorem wp_updateEntry {timesheetId entryId : Nat}
    {dto : UpdateTimeEntryDto}
    {post : Except Thrown TimeEntry → Db → Prop}
    (fails : ∀ e, post (.error e) db)
    (changes : ∀ t e row, t.id = timesheetId → e.id = entryId →
      MayUpdate caller db t e dto →
      post (.ok row) (db.withUpdate host.now t e dto)) :
    wp (updateEntry host timesheetId entryId caller.userId caller.orgId dto
      caller.role) post db := by
  simp only [updateEntry, wp_bind]
  refine wp_editableTimesheet (by simpa using fails) ?_
  rintro t owns editable rfl
  simp only [wp_bind, wp_query, andThen_ok, andThen_error, wp_orThrow,
    fails, implies_true, true_and]
  intro e found
  rcases Table.find?_spec found with ⟨member, rfl, sheet⟩
  have entry : e ∈ db.entriesOf t.id :=
    Db.mem_entriesOf.mpr ⟨member, sheet⟩
  refine wp_whenever_of wp_assertAssigned (by simpa using fails)
    fun assigned => ?_
  simp only [wp_bind, andThen_ok, andThen_error, wp_statement,
    fails, implies_true, true_and]
  intro row after outcome
  rcases Prisma.timeEntryUpdate_eq_ok.mp outcome with
    ⟨⟨fits, project⟩, _, rfl⟩
  refine (wp_recalculate ?_).mpr (changes t e row rfl rfl ?_)
  · exact owns.member
  exact
    { owns := owns
      editable := editable
      entry := entry
      project := project
      assigned := by
        intro p given employee
        have known := Option.mem_def.mp given
        simpa [known, Db.Assigned] using assigned ⟨by simp [known], employee⟩
      fits := fits }

theorem updateEntry_step (timesheetId entryId : Nat)
    (dto : UpdateTimeEntryDto)
    (accepted : Schemas.updateTimeEntrySchema dto = []) :
    wp (updateEntry host timesheetId entryId caller.userId caller.orgId dto
      caller.role) (SheetStep host caller call db) db := by
  refine wp_updateEntry (fun _ => sheetStep_self _) ?_
  intro t e row _ _ may
  exact .inr (.entryChanged t e dto may.owns may.editable may.entry accepted
    may.project may.assigned)

theorem wp_deleteEntry {timesheetId entryId : Nat}
    {post : Except Thrown PUnit → Db → Prop}
    (fails : ∀ e, post (.error e) db)
    (drops : ∀ t e, Owns caller db t → Editable t → t.id = timesheetId →
      e ∈ db.entriesOf t.id → e.id = entryId →
      post (.ok ⟨⟩) ((db.dropEntry e.id).recalculated host.now t.id)) :
    wp (deleteEntry host timesheetId entryId caller.userId caller.orgId)
      post db := by
  simp only [deleteEntry, wp_bind]
  refine wp_editableTimesheet (by simpa using fails) ?_
  rintro t owns editable rfl
  simp only [wp_bind, wp_query, andThen_ok, andThen_error, wp_orThrow,
    wp_statement, fails, implies_true, true_and]
  intro e found row after outcome
  rcases Table.find?_spec found with ⟨member, rfl, sheet⟩
  rw [Prisma.timeEntryDelete_after outcome]
  refine (wp_recalculate ?_).mpr (drops t e owns editable rfl ?_ rfl)
  · exact owns.member
  · exact Db.mem_entriesOf.mpr ⟨member, sheet⟩

theorem deleteEntry_step (timesheetId entryId : Nat) :
    wp (deleteEntry host timesheetId entryId caller.userId caller.orgId)
      (SheetStep host caller call db) db := by
  refine wp_deleteEntry (fun _ => sheetStep_self _) ?_
  intro t e owns editable _ entry _
  exact .inr (.entryDropped t e owns editable entry)

/-! ## Entry operations that pass their checks -/

/-- A check that does not apply. -/
theorem wp_throwIf_of {condition : Prop} [Decidable condition]
    {error : Thrown} (passes : ¬ condition)
    {post : Except Thrown PUnit → Db → Prop} :
    wp (throwIf condition error) post db ↔ post (.ok ⟨⟩) db := by
  simp [passes]

/-- A conditional guard that passes. -/
theorem wp_whenever_passed {condition : Prop} [Decidable condition]
    {program : Service PUnit} {post : Except Thrown PUnit → Db → Prop}
    (passes : condition → (wp program post db ↔ post (.ok ⟨⟩) db)) :
    wp (whenever condition program) post db ↔ post (.ok ⟨⟩) db := by
  rw [wp_whenever]
  by_cases holds : condition
  · simpa [holds] using passes holds
  · simp [holds]

/-- The caller's own timesheet is found by its key. -/
theorem Owns.found {t : Timesheet} (owns : Owns caller db t) :
    db.ownTimesheet t.id caller.userId caller.orgId = some t :=
  Table.find?_of_mem owns.member ⟨rfl, owns.owner, owns.org⟩
    fun _ facts => facts.1

theorem wp_editableTimesheet_of {t : Timesheet} (owns : Owns caller db t)
    (editable : Editable t) {post : Except Thrown Timesheet → Db → Prop} :
    wp (editableTimesheet t.id caller.userId caller.orgId) post db ↔
      post (.ok t) db := by
  have open_ : ¬ (t.status ≠ .draft ∧ t.status ≠ .rejected) :=
    fun closed => editable.elim closed.1 closed.2
  simp only [editableTimesheet, wp_bind, wp_query, andThen_ok, owns.found,
    orThrow, wp_done, wp_throwIf_of open_, pure_eq]

theorem wp_assertAssigned_of {projectId userId : Nat}
    (assigned : db.Assigned projectId userId)
    {post : Except Thrown PUnit → Db → Prop} :
    wp (assertAssigned projectId userId) post db ↔ post (.ok ⟨⟩) db := by
  have found : ¬ (db.projectEmployees.find? fun r =>
      r.projectId = projectId ∧ r.employeeId = userId).isNone := by
    rcases assigned with ⟨r, member, link⟩
    rw [Option.isNone_iff_eq_none, Table.find?_eq_none]
    exact fun absent => absent r member link
  simp only [assertAssigned, wp_bind, wp_query, andThen_ok,
    wp_throwIf_of found]

theorem wp_createEntry_of {t : Timesheet} {dto : CreateTimeEntryDto}
    (may : MayCreate caller db t dto)
    {post : Except Thrown TimeEntry → Db → Prop} :
    wp (createEntry host t.id caller.userId caller.orgId dto caller.role)
      post db ↔
      post (.ok ((createdEntry t.id dto).row host.now db.timeEntries.next))
        (db.withEntry host.now t dto) := by
  rcases may.project with ⟨p, member, key, org⟩
  have project : ¬ (db.projects.find? fun p =>
      p.id = dto.projectId ∧ p.organisationId = caller.orgId).isNone := by
    rw [Option.isNone_iff_eq_none, Table.find?_eq_none]
    exact fun absent => absent p member ⟨key, org⟩
  have described : ¬ (db.asksForDesc caller.orgId = true ∧
      (dto.hours.zipWith missingDescription dto.desc).toList.any id = true) :=
    fun missing => may.described missing.1 missing.2
  have written : Prisma.timeEntryCreate host.now (createdEntry t.id dto) db =
      .ok (_, db.insertEntry host.now (createdEntry t.id dto)) :=
    Prisma.timeEntryCreate_eq_ok.mpr
      ⟨⟨may.fits, ⟨t, may.owns.member, rfl⟩, ⟨p, member, key⟩⟩, rfl, rfl⟩
  simp only [createEntry, wp_bind,
    wp_editableTimesheet_of may.owns may.editable, andThen_ok, wp_query]
  refine (wp_throwIf_of described).trans ?_
  simp only [andThen_ok, wp_bind, wp_query]
  refine (wp_throwIf_of project).trans ?_
  simp only [andThen_ok, wp_bind]
  refine (wp_whenever_passed fun employee =>
    wp_assertAssigned_of (may.assigned employee)).trans ?_
  simp only [andThen_ok, wp_bind]
  refine (wp_throwIf_of (within_iff.mpr may.within)).trans ?_
  simp only [andThen_ok, wp_bind]
  refine (wp_statement_of written).trans ?_
  simp only [andThen_ok, wp_bind]
  refine (wp_recalculate ?_).trans ?_
  · exact may.owns.member
  · exact Iff.rfl

theorem wp_updateEntry_of {t : Timesheet} {e : TimeEntry}
    {dto : UpdateTimeEntryDto} (may : MayUpdate caller db t e dto)
    {post : Except Thrown TimeEntry → Db → Prop} :
    wp (updateEntry host t.id e.id caller.userId caller.orgId dto
      caller.role) post db ↔
      post (.ok ((mergedEntry dto e).apply e))
        (db.withUpdate host.now t e dto) := by
  rcases Db.mem_entriesOf.mp may.entry with ⟨member, sheet⟩
  have found : db.entryOf e.id t.id = some e :=
    Table.find?_of_mem member ⟨rfl, sheet⟩ fun _ facts => facts.1
  have written : Prisma.timeEntryUpdate e.id (mergedEntry dto e) db =
      .ok (_, db.setEntry e.id (mergedEntry dto e)) :=
    Prisma.timeEntryUpdate_eq_ok.mpr
      ⟨⟨may.fits, may.project⟩, ⟨e, member, rfl, rfl⟩, rfl⟩
  have assigned : dto.projectId.isSome = true ∧ caller.role = .employee →
      db.Assigned (dto.projectId.getD 0) caller.userId := by
    rintro ⟨given, employee⟩
    rcases Option.isSome_iff_exists.mp given with ⟨p, known⟩
    simpa [known] using may.assigned p known employee
  simp only [updateEntry, wp_bind,
    wp_editableTimesheet_of may.owns may.editable, andThen_ok, wp_query,
    found, orThrow, wp_done]
  refine (wp_whenever_passed fun asked =>
    wp_assertAssigned_of (assigned asked)).trans ?_
  simp only [andThen_ok, wp_bind]
  refine (wp_statement_of written).trans ?_
  simp only [andThen_ok, wp_bind]
  refine (wp_recalculate ?_).trans ?_
  · exact may.owns.member
  · exact Iff.rfl

/-! ## Decisions -/

/-- The hierarchy check passes for a direct report only. -/
theorem wp_assertIsDirectReport {managerId employeeId orgId : Nat}
    {post : Except Thrown PUnit → Db → Prop}
    (fails : ∀ e, post (.error e) db)
    (passes : db.isDirectReport managerId employeeId orgId →
      post (.ok ⟨⟩) db) :
    wp (assertIsDirectReport managerId employeeId orgId) post db := by
  simp only [assertIsDirectReport, wp_bind, wp_query, andThen_ok,
    wp_throwIf, fails, implies_true, true_and]
  intro report
  exact passes (by simpa using report)

/-- The guards of a decision, with the timesheet they let through. -/
theorem wp_decidableTimesheet {id : Nat} {selfMessage : String}
    {target : TimesheetStatus}
    {post : Except Thrown Timesheet → Db → Prop}
    (role : caller.role = .manager ∨ caller.role = .admin)
    (fails : ∀ e, post (.error e) db)
    (passes : ∀ t, MayDecide caller db t → t.id = id →
      post (.ok t) db) :
    wp (decidableTimesheet id caller.userId caller.orgId caller.role
      selfMessage target) post db := by
  simp only [decidableTimesheet, wp_bind, wp_query, andThen_ok,
    andThen_error, wp_throwIf, wp_orThrow, fails, implies_true, true_and]
  intro t found other
  have facts := Table.holds_of_find? found
  refine wp_whenever_of wp_assertIsDirectReport (by simpa using fails)
    fun report => ?_
  simp only [wp_bind, andThen_ok, andThen_error, wp_throwIf, pure_eq,
    wp_done, fails, implies_true, true_and]
  intro submitted
  exact passes t
    { member := Table.mem_of_find? found
      org := facts.2
      other := other
      role := role
      report := report
      submitted := not_not.mp submitted } facts.1

theorem hasKey_book {projects : Table Project} {now : Instant}
    {id k : Nat} {hours : ℚ} :
    (projects.modify (fun p => p.id = id) (Prisma.book now hours)).HasKey k ↔
      projects.HasKey k :=
  Table.hasKey_modify

/-- One entry booked. -/
theorem Prisma.projectIncrementUsedHours_of (now : Instant) {e : TimeEntry}
    (project : db.projects.HasKey e.projectId) :
    Prisma.projectIncrementUsedHours now e.projectId e.totalHours db =
      .ok (⟨⟩, { db with
        projects :=
          db.projects.modify (fun p => p.id = e.projectId)
            (Prisma.book now e.totalHours) }) := by
  rw [Prisma.projectIncrementUsedHours, ensure_of project]

/-- The loop over the entries books all of them. -/
theorem wp_bookEntries {entries : List TimeEntry}
    (projects : ∀ e ∈ entries, db.projects.HasKey e.projectId)
    {post : Except Thrown PUnit → Db → Prop} :
    wp (forEach (bookEntry host) entries) post db ↔
      post (.ok ⟨⟩)
        { db with projects := bookAll host.now entries db.projects } := by
  induction entries generalizing db with
  | nil => exact Iff.rfl
  | cons e entries ih =>
      have booked := Prisma.projectIncrementUsedHours_of host.now
        (projects e List.mem_cons_self)
      rw [wp_forEach_cons, bookEntry, wp_statement_of booked, andThen_ok]
      refine ih ?_
      intro other member
      have kept := projects other (List.mem_cons_of_mem _ member)
      exact hasKey_book.mpr kept

theorem varchar_approvedMessage (t : Timesheet) :
    varchar (approvedMessage t) := by
  have date := length_toDateString_le t.weekStartDate
  have before : "Your timesheet for week starting ".length = 33 := by decide
  have after : " has been approved.".length = 19 := by decide
  unfold varchar approvedMessage weekMessage
  rw [String.length_append, String.length_append, before, after]
  omega

/-- The statements of the guards: the timesheet, and for a manager the link. -/
def checks (caller : JwtPayload) : Nat :=
  if caller.role = .manager then 2 else 1

/-- A caller who may decide passes the guards. -/
theorem wp_decidableTimesheet_of {t : Timesheet} {selfMessage : String}
    {target : TimesheetStatus}
    {post : Except Thrown Timesheet → Db → Prop}
    (may : MayDecide caller db t) :
    wp (decidableTimesheet t.id caller.userId caller.orgId caller.role
      selfMessage target) post db ↔ post (.ok t) db := by
  have found : db.orgTimesheet t.id caller.orgId = some t :=
    Table.find?_of_mem may.member ⟨rfl, may.org⟩
      fun other facts => facts.1
  have hierarchy : wp (whenever (caller.role = .manager)
      (assertIsDirectReport caller.userId t.userId caller.orgId))
      (andThen (fun _ => throwIf (t.status ≠ .submitted)
        (.invalidTransitionError t.status target) >>= fun _ => pure t) post)
      db ↔ post (.ok t) db := by
    by_cases manager : caller.role = .manager
    · simp [manager, assertIsDirectReport, may.report manager,
        may.submitted]
    · simp [manager, may.submitted]
  simp only [decidableTimesheet, wp_bind, wp_query, andThen_ok, found]
  simpa [may.other] using hierarchy

/-- `approveTimesheet` past its guards. -/
def recordApproval (host : Host) (timesheetId approvingUserId : Nat)
    (timesheet : Timesheet) : Service Timesheet := do
  let approved ← statement <| Prisma.timesheetUpdate host.now timesheetId
    (Db.approval host.now approvingUserId)
  let entries ← query fun db => db.entriesOf timesheetId
  forEach (bookEntry host) entries
  let _ ← statement <| Prisma.notificationCreate host.now
    { userId := timesheet.userId
      type := .approved
      message := approvedMessage timesheet }
  return approved

theorem approveTimesheet_eq (timesheetId userId orgId : Nat)
    (role : UserRole) :
    approveTimesheet host timesheetId userId orgId role =
      decidableTimesheet timesheetId userId orgId role
          "Managers cannot approve their own timesheets" .approved >>=
        recordApproval host timesheetId userId := rfl

section

variable {t : Timesheet} {approver : Nat}
  (member : t ∈ db.timesheets.rows) (known : db.users.HasKey approver)

include member known

theorem approval_written :
    Prisma.timesheetUpdate host.now t.id (Db.approval host.now approver) db =
      .ok ((Db.approval host.now approver).apply host.now t,
        db.setSheet host.now t.id (Db.approval host.now approver)) := by
  refine Prisma.timesheetUpdate_of member rfl ?_ ?_
  · intro reason given
    cases given
  · intro u given
    cases given
    exact known

/-- Past its guards an approval succeeds. -/
theorem wp_recordApproval (holds : db.Integrity)
    {post : Except Thrown Timesheet → Db → Prop} :
    wp (recordApproval host t.id approver t) post db ↔
      post (.ok ((Db.approval host.now approver).apply host.now t))
        (db.approve host.now approver t) := by
  have projects : ∀ e ∈ db.entriesOf t.id, db.projects.HasKey e.projectId :=
    fun e eMem => holds.entry_project e (Db.mem_entriesOf.mp eMem).1
  have user : db.users.HasKey t.userId := holds.timesheet_user t member
  rw [recordApproval, wp_bind]
  refine (wp_statement_of (approval_written member known)).trans ?_
  simp only [andThen_ok, wp_bind, wp_query]
  refine (wp_bookEntries ?_).trans ?_
  · exact projects
  simp only [andThen_ok, wp_bind]
  refine (wp_statement_of (Prisma.notificationCreate_of
    { userId := t.userId
      type := .approved
      message := approvedMessage t }
    (varchar_approvedMessage t) ?_)).trans ?_
  · exact user
  · exact Iff.rfl

end

/-- An approval by a member who may decide succeeds. -/
theorem wp_approveTimesheet_of {t : Timesheet}
    {post : Except Thrown Timesheet → Db → Prop}
    (holds : db.Integrity) (may : MayDecide caller db t)
    (signed : db.Member caller.userId caller.orgId) :
    wp (approveTimesheet host t.id caller.userId caller.orgId caller.role)
      post db ↔
      post (.ok ((Db.approval host.now caller.userId).apply host.now t))
        (db.approve host.now caller.userId t) := by
  rw [approveTimesheet_eq, wp_bind, wp_decidableTimesheet_of may, andThen_ok]
  exact wp_recordApproval may.member signed.hasKey holds

/-- The guards passed, an approval of a member succeeds. -/
theorem wp_approveTimesheet {id : Nat} (holds : db.Integrity)
    (role : caller.role = .manager ∨ caller.role = .admin)
    {post : Except Thrown Timesheet → Db → Prop}
    (fails : ∀ e, post (.error e) db)
    (approves : ∀ t row, MayDecide caller db t → t.id = id →
      post (.ok row) (db.approve host.now caller.userId t)) :
    wp (approveTimesheet host id caller.userId caller.orgId caller.role)
      post db := by
  rw [approveTimesheet_eq, wp_bind]
  refine wp_decidableTimesheet role (by simpa using fails) ?_
  rintro t may rfl
  rw [andThen_ok]
  by_cases known : db.users.HasKey caller.userId
  · exact (wp_recordApproval may.member known holds).mpr
      (approves t _ may rfl)
  · -- The foreign key of the approver refuses the first write.
    simp only [recordApproval, wp_bind, wp_statement, andThen_error, fails,
      implies_true, true_and]
    intro row after outcome
    have approver := Prisma.timesheetUpdate_approver outcome
    exact absurd (approver _ rfl) known

theorem approveTimesheet_step (id : Nat) (holds : db.Integrity)
    (role : caller.role = .manager ∨ caller.role = .admin) :
    wp (approveTimesheet host id caller.userId caller.orgId caller.role)
      (SheetStep host caller (.approveTimesheet id) db) db := by
  refine wp_approveTimesheet holds role (fun _ => sheetStep_self _) ?_
  rintro t row may rfl
  exact .inr (.approved t may rfl)

/-- The guards passed, the status is written and then the notification. -/
theorem wp_rejectTimesheet {id : Nat} {reason : String}
    (holds : db.Integrity)
    (role : caller.role = .manager ∨ caller.role = .admin)
    {post : Except Thrown Timesheet → Db → Prop}
    (fails : ∀ e, post (.error e) db)
    (silently : ∀ t e, MayDecide caller db t → t.id = id →
      ¬ varchar (rejectedMessage t reason) →
      post (.error e) (db.setSheet host.now t.id (Db.rejection reason)))
    (rejects : ∀ t row, MayDecide caller db t → t.id = id →
      post (.ok row)
        ((db.setSheet host.now t.id (Db.rejection reason)).notify host.now
          { userId := t.userId
            type := .rejected
            message := rejectedMessage t reason })) :
    wp (rejectTimesheet host id caller.userId caller.orgId reason
      caller.role) post db := by
  simp only [rejectTimesheet, wp_bind]
  refine wp_decidableTimesheet role (by simpa using fails) ?_
  rintro t may rfl
  simp only [andThen_ok, wp_bind, wp_statement, andThen_error, fails,
    implies_true, true_and, pure_eq, wp_done]
  intro row after outcome
  rw [Prisma.timesheetUpdate_after outcome]
  constructor
  · intro e refused
    have user : db.users.HasKey t.userId :=
      holds.timesheet_user t may.member
    have tooLong := Prisma.notificationCreate_error refused user
    exact silently t e may rfl tooLong
  · intro n final delivered
    rw [Prisma.notificationCreate_after delivered]
    exact rejects t row may rfl

theorem rejectTimesheet_step (id : Nat) (reason : String)
    (holds : db.Integrity)
    (role : caller.role = .manager ∨ caller.role = .admin) :
    wp (rejectTimesheet host id caller.userId caller.orgId reason
      caller.role) (SheetStep host caller call db) db := by
  refine wp_rejectTimesheet holds role (fun _ => sheetStep_self _) ?_ ?_
  · intro t e may _ tooLong
    exact .inr (.rejectedSilently t reason may tooLong)
  · intro t row may _
    exact .inr (.rejected t reason may)

end

end TmsApi
