import TmsApi.Refinement.Integrity

/-!
# The changes a request can make

The abstract view of the service: a transition system on databases whose
steps are the changes one request makes, each with what the service has
checked before.  A `SheetChange` is a step of a timesheet and its entries; a
`SideChange` is a statement on users, links, projects, settings, holidays or
notifications; a `PublicChange` belongs to the routes without a token.

`TmsApi.Refinement.Requests` shows that every served request is made of these
steps, so a property of all runs only has to be checked on them.
-/

namespace TmsApi

open TmsApi.Core

/-! ## Databases after a change -/

/-- The totals `recalculateTimesheetTotals` writes for these entries. -/
def totalsOf (entries : List TimeEntry) : TimesheetUpdate where
  totalHours := some (sumBy (·.totalHours) entries)
  billableHours := some (sumBy (·.totalHours) (entries.filter (·.billable)))

/-- `usedHours` incremented entry by entry. -/
def bookAll (now : Instant) : List TimeEntry → Table Project → Table Project
  | [], projects => projects
  | e :: entries, projects =>
      bookAll now entries
        (projects.modify (fun p => p.id = e.projectId)
          (Prisma.book now e.totalHours))

/-- A project after the booking of entries, of which some are on it. -/
def bookOn (now : Instant) (entries : List TimeEntry) (p : Project) :
    Project :=
  let own := entries.filter fun e => e.projectId = p.id
  { p with
    usedHours := p.usedHours + (own.map (·.totalHours)).sum
    updatedAt := if own = [] then p.updatedAt else now }

namespace Db

/-- The week start of an organisation, `monday` without settings. -/
def startDay (db : Db) (orgId : Nat) : WorkWeekStart :=
  ((db.settingsOf orgId).map (·.workWeekStart)).getD .monday

/-- A new timesheet with copies of the given entries. -/
def openSheet (now : Instant) (data : TimesheetData)
    (entries : List TimeEntry) (db : Db) : Db :=
  { db with
    timesheets := db.timesheets.insert (data.row now)
    timeEntries :=
      Table.insertMany (fun d => d.row now) db.timeEntries
        (entries.map (copiedEntry db.timesheets.next)) }

/-- The written columns of one timesheet. -/
def setSheet (now : Instant) (id : Nat) (data : TimesheetUpdate)
    (db : Db) : Db :=
  { db with
    timesheets :=
      db.timesheets.modify (fun t => t.id = id) (data.apply now) }

/-- The entries of a timesheet replaced by copies of the given ones. -/
def overwriteSheet (now : Instant) (id : Nat) (entries : List TimeEntry)
    (db : Db) : Db :=
  setSheet now id (totalsOf entries)
    { db with
      timeEntries :=
        Table.insertMany (fun d => d.row now)
          (db.timeEntries.deleteWhere fun e => e.timesheetId = id)
          (entries.map (copiedEntry id)) }

/-- A timesheet and its entries gone. -/
def dropSheet (id : Nat) (db : Db) : Db :=
  { db with
    timesheets := db.timesheets.deleteWhere (fun t => t.id = id)
    timeEntries :=
      db.timeEntries.deleteWhere (fun e => e.timesheetId = id) }

/-- The totals of a timesheet taken from its current entries. -/
def recalculated (now : Instant) (id : Nat) (db : Db) : Db :=
  db.setSheet now id (totalsOf (db.entriesOf id))

def insertEntry (now : Instant) (data : TimeEntryData) (db : Db) : Db :=
  { db with
    timeEntries := db.timeEntries.insert (data.row now) }

def setEntry (id : Nat) (data : TimeEntryUpdate) (db : Db) : Db :=
  { db with
    timeEntries :=
      db.timeEntries.modify (fun e => e.id = id) data.apply }

def dropEntry (id : Nat) (db : Db) : Db :=
  { db with
    timeEntries := db.timeEntries.deleteWhere (fun e => e.id = id) }

/-- A notification delivered. -/
def notify (now : Instant) (data : NotificationData) (db : Db) : Db :=
  { db with
    notifications := db.notifications.insert (data.row now) }

/-- The columns `approveTimesheet` writes. -/
def approval (now : Instant) (approver : Nat) : TimesheetUpdate where
  status := some .approved
  approvedById := some approver
  approvedAt := some now

/-- The status, the project hours and the notification of an approval. -/
def approve (now : Instant) (approver : Nat) (t : Timesheet) (db : Db) :
    Db :=
  { db.setSheet now t.id (approval now approver) with
    projects := bookAll now (db.entriesOf t.id) db.projects
    notifications :=
      db.notifications.insert
        (NotificationData.row
          { userId := t.userId
            type := .approved
            message := approvedMessage t } now) }

/-- The columns `rejectTimesheet` writes. -/
def rejection (reason : String) : TimesheetUpdate where
  status := some .rejected
  rejectedReason := some (some reason)

/-- The columns `updateTimesheet` writes. -/
def move (dto : UpdateTimesheetDto) : TimesheetUpdate where
  weekStartDate := dto.weekStartDate.bind (·.toDate)

/-- The columns `submitTimesheet` writes to a timesheet. -/
def submission (t : Timesheet) : TimesheetUpdate where
  status := some .submitted
  rejectedReason := if t.status = .rejected then some none else none

end Db

/-! ## Rows after a change -/

section Rows

variable {db : Db} {now : Instant}

theorem Db.mem_entriesOf {timesheetId : Nat} {e : TimeEntry} :
    e ∈ db.entriesOf timesheetId ↔
      e ∈ db.timeEntries.rows ∧ e.timesheetId = timesheetId := by
  simp [Db.entriesOf]

theorem Db.mem_setSheet {id : Nat} {data : TimesheetUpdate}
    {t : Timesheet} :
    t ∈ (db.setSheet now id data).timesheets.rows ↔
      ∃ old ∈ db.timesheets.rows,
        t = if old.id = id then data.apply now old else old :=
  Table.mem_modify

theorem Db.mem_openSheet {data : TimesheetData}
    {entries : List TimeEntry} {t : Timesheet} :
    t ∈ (db.openSheet now data entries).timesheets.rows ↔
      t ∈ db.timesheets.rows ∨ t = data.row now db.timesheets.next :=
  Table.mem_insert

theorem Db.mem_dropSheet {id : Nat} {t : Timesheet} :
    t ∈ (db.dropSheet id).timesheets.rows ↔
      t ∈ db.timesheets.rows ∧ t.id ≠ id :=
  Table.mem_deleteWhere

theorem Db.mem_insertEntry {data : TimeEntryData} {e : TimeEntry} :
    e ∈ (db.insertEntry now data).timeEntries.rows ↔
      e ∈ db.timeEntries.rows ∨ e = data.row now db.timeEntries.next :=
  Table.mem_insert

theorem Db.mem_setEntry {id : Nat} {data : TimeEntryUpdate}
    {e : TimeEntry} :
    e ∈ (db.setEntry id data).timeEntries.rows ↔
      ∃ old ∈ db.timeEntries.rows,
        e = if old.id = id then data.apply old else old :=
  Table.mem_modify

theorem Db.mem_dropEntry {id : Nat} {e : TimeEntry} :
    e ∈ (db.dropEntry id).timeEntries.rows ↔
      e ∈ db.timeEntries.rows ∧ e.id ≠ id :=
  Table.mem_deleteWhere

@[simp]
theorem TimesheetUpdate.apply_id (data : TimesheetUpdate) (t : Timesheet) :
    (data.apply now t).id = t.id := rfl

@[simp]
theorem TimesheetUpdate.apply_userId (data : TimesheetUpdate)
    (t : Timesheet) : (data.apply now t).userId = t.userId := rfl

@[simp]
theorem TimesheetUpdate.apply_organisationId (data : TimesheetUpdate)
    (t : Timesheet) :
    (data.apply now t).organisationId = t.organisationId := rfl

/-- The rows after booking all entries, with the hours each one got. -/
theorem mem_bookAll {entries : List TimeEntry} {projects : Table Project}
    {p : Project} :
    p ∈ (bookAll now entries projects).rows ↔
      ∃ old ∈ projects.rows, p = bookOn now entries old := by
  induction entries generalizing projects with
  | nil => simp [bookAll, bookOn]
  | cons e entries ih =>
      rw [bookAll, ih]
      have step : ∀ old : Project,
          bookOn now entries
            (if old.id = e.projectId then
              Prisma.book now e.totalHours old else old) =
          bookOn now (e :: entries) old := by
        intro old
        by_cases same : old.id = e.projectId
        · simp [same, bookOn, Prisma.book, add_assoc]
        · have apart : e.projectId ≠ old.id := fun equal => same equal.symm
          simp [same, apart, bookOn]
      constructor
      · rintro ⟨row, rowMem, rfl⟩
        rcases (Table.mem_modify).mp rowMem with ⟨old, oldMem, rfl⟩
        exact ⟨old, oldMem, step old⟩
      · rintro ⟨old, oldMem, rfl⟩
        exact ⟨_, (Table.mem_modify).mpr ⟨old, oldMem, rfl⟩,
          (step old).symm⟩

end Rows

/-! ## Timesheet changes -/

/-- What holds when a new draft is written. -/
structure Opens (host : Host) (caller : JwtPayload) (db : Db)
    (data : TimesheetData) (entries : List TimeEntry) : Prop where
  owner : data.userId = caller.userId
  org : data.organisationId = caller.orgId
  draft : data.status = .draft
  week : ∃ date, data.weekStartDate =
    getWeekStart host.zone date (db.startDay caller.orgId)
  weekEnd : data.weekEndDate = getWeekEnd host.zone data.weekStartDate
  free : db.weekTimesheet caller.userId caller.orgId data.weekStartDate = none
  total : data.totalHours = sumBy (·.totalHours) entries
  billable :
    data.billableHours = sumBy (·.totalHours) (entries.filter (·.billable))

/-- Entries of one submitted or approved timesheet of the caller. -/
def OwnEntries (caller : JwtPayload) (db : Db) (entries : List TimeEntry) :
    Prop :=
  ∃ t ∈ db.timesheets.rows, t.userId = caller.userId ∧
    t.organisationId = caller.orgId ∧ ∀ e ∈ entries, e ∈ db.entriesOf t.id

/-- A timesheet of the caller. -/
structure Owns (caller : JwtPayload) (db : Db) (t : Timesheet) : Prop where
  member : t ∈ db.timesheets.rows
  owner : t.userId = caller.userId
  org : t.organisationId = caller.orgId

/-- A submitted timesheet the caller may decide. -/
structure MayDecide (caller : JwtPayload) (db : Db) (t : Timesheet) :
    Prop where
  member : t ∈ db.timesheets.rows
  org : t.organisationId = caller.orgId
  other : t.userId ≠ caller.userId
  role : caller.role = .manager ∨ caller.role = .admin
  report : caller.role = .manager →
    db.isDirectReport caller.userId t.userId caller.orgId
  submitted : t.status = .submitted

/-- Entries may be edited in a draft and after a rejection. -/
def Editable (t : Timesheet) : Prop :=
  t.status = .draft ∨ t.status = .rejected

/--
One step of a timesheet and its entries, made by a call.  The call is only
remembered where a later property depends on it.
-/
inductive SheetChange (host : Host) (caller : JwtPayload) (call : Call)
    (db : Db) : Db → Prop where
  | opened (data : TimesheetData) (entries : List TimeEntry)
      (opens : Opens host caller db data entries)
      (source : entries = [] ∨ OwnEntries caller db entries) :
      SheetChange host caller call db (db.openSheet host.now data entries)
  | overwritten (t : Timesheet) (entries : List TimeEntry)
      (owns : Owns caller db t) (draft : t.status = .draft)
      (source : OwnEntries caller db entries) :
      SheetChange host caller call db (db.overwriteSheet host.now t.id entries)
  | moved (t : Timesheet) (dto : UpdateTimesheetDto)
      (owns : Owns caller db t) (draft : t.status = .draft)
      (made : call = .updateTimesheet t.id dto) :
      SheetChange host caller call db
        (db.setSheet host.now t.id (Db.move dto))
  | dropped (t : Timesheet)
      (owns : Owns caller db t) (draft : t.status = .draft) :
      SheetChange host caller call db (db.dropSheet t.id)
  | submitted (t : Timesheet)
      (owns : Owns caller db t) (editable : Editable t) :
      SheetChange host caller call db
        (db.setSheet host.now t.id (Db.submission t))
  | entryAdded (t : Timesheet) (data : TimeEntryData)
      (owns : Owns caller db t) (editable : Editable t)
      (sheet : data.timesheetId = t.id)
      (total : data.totalHours = data.hours.sum)
      (nonneg : data.hours.All fun q => 0 ≤ q)
      (project : ∃ p ∈ db.projects.rows, p.id = data.projectId ∧
        p.organisationId = caller.orgId) :
      SheetChange host caller call db
        ((db.insertEntry host.now data).recalculated host.now t.id)
  | entryChanged (t : Timesheet) (e : TimeEntry) (dto : UpdateTimeEntryDto)
      (owns : Owns caller db t) (editable : Editable t)
      (entry : e ∈ db.entriesOf t.id)
      (accepted : Schemas.updateTimeEntrySchema dto = [])
      (project : ∀ p ∈ dto.projectId, db.projects.HasKey p)
      (assigned : ∀ p ∈ dto.projectId, caller.role = .employee →
        ∃ r ∈ db.projectEmployees.rows, r.projectId = p ∧
          r.employeeId = caller.userId) :
      SheetChange host caller call db
        ((db.setEntry e.id (mergedEntry dto e)).recalculated host.now t.id)
  | entryDropped (t : Timesheet) (e : TimeEntry)
      (owns : Owns caller db t) (editable : Editable t)
      (entry : e ∈ db.entriesOf t.id) :
      SheetChange host caller call db
        ((db.dropEntry e.id).recalculated host.now t.id)
  | approved (t : Timesheet) (may : MayDecide caller db t)
      (made : call = .approveTimesheet t.id) :
      SheetChange host caller call db (db.approve host.now caller.userId t)
  | rejected (t : Timesheet) (reason : String)
      (may : MayDecide caller db t) :
      SheetChange host caller call db
        ((db.setSheet host.now t.id (Db.rejection reason)).notify host.now
          { userId := t.userId
            type := .rejected
            message := rejectedMessage t reason })
  | rejectedSilently (t : Timesheet) (reason : String)
      (may : MayDecide caller db t)
      (tooLong : ¬ varchar (rejectedMessage t reason)) :
      SheetChange host caller call db
        (db.setSheet host.now t.id (Db.rejection reason))

/-! ## Changes beside the timesheets -/

/-- One statement on the other tables, with what was checked before it. -/
inductive SideChange (lib : Libs) (host : Host) (caller : JwtPayload)
    (db : Db) : Db → Prop where
  | loggedOut {u : User} {after : Db}
      (wrote : Prisma.userUpdate host.now caller.userId
        { refreshToken := some none } db = .ok (u, after)) :
      SideChange lib host caller db after
  | settings (dto : UpdateSettingsDto) {s : OrgSettings} {after : Db}
      (role : caller.role = .admin)
      (wrote : Prisma.orgSettingsUpsert caller.orgId dto db =
        .ok (s, after)) :
      SideChange lib host caller db after
  | holidayCreated (name : String) (date : JsDate) (recurring : Bool)
      {h : Holiday} {after : Db}
      (role : caller.role = .admin)
      (wrote : Prisma.holidayCreate caller.orgId name date recurring db =
        .ok (h, after)) :
      SideChange lib host caller db after
  | holidayDeleted (h : Holiday) {after : Db}
      (role : caller.role = .admin)
      (member : h ∈ db.holidays.rows)
      (org : h.organisationId = caller.orgId)
      (wrote : Prisma.holidayDelete h.id db = .ok (⟨⟩, after)) :
      SideChange lib host caller db after
  | notificationsRead (p : Notification → Prop) [DecidablePred p]
      {after : Db}
      (own : ∀ n ∈ db.notifications.rows, p n → n.userId = caller.userId)
      (wrote : Prisma.notificationMarkRead p db = .ok (⟨⟩, after)) :
      SideChange lib host caller db after
  | projectCreated (data : ProjectData) (managers employees : List Nat)
      {project : Project} {after : Db}
      (role : caller.role = .manager ∨ caller.role = .admin)
      (org : data.organisationId = caller.orgId)
      (wrote : Prisma.projectCreate lib.collate host.now data managers
        employees db = .ok (project, after)) :
      SideChange lib host caller db after
  | projectUpdated (p : Project) (dto : UpdateProjectDto)
      {project : Project} {after : Db}
      (role : caller.role = .manager ∨ caller.role = .admin)
      (member : p ∈ db.projects.rows)
      (org : p.organisationId = caller.orgId)
      (wrote : writeProject lib host p.id dto db = .ok (project, after)) :
      SideChange lib host caller db after
  | projectDeleted (p : Project) {after : Db}
      (role : caller.role = .manager ∨ caller.role = .admin)
      (member : p ∈ db.projects.rows)
      (org : p.organisationId = caller.orgId)
      (wrote : Prisma.projectDelete p.id db = .ok (⟨⟩, after)) :
      SideChange lib host caller db after
  | userCreated (data : UserData) {u : User} {after : Db}
      (role : caller.role = .manager ∨ caller.role = .admin)
      (org : data.organisationId = caller.orgId)
      (wrote : Prisma.userCreate lib.collate host.now data db =
        .ok (u, after)) :
      SideChange lib host caller db after
  | userUpdated (id : Nat) (data : UserUpdate) {u : User} {after : Db}
      (role : caller.role = .manager ∨ caller.role = .admin)
      (member : db.Member id caller.orgId)
      (wrote : Prisma.userUpdate host.now id data db = .ok (u, after)) :
      SideChange lib host caller db after
  | reportsDropped (managerId : Nat) {after : Db}
      (wrote : Prisma.managerEmployeeDeleteMany
        (fun r => r.managerId = managerId) db = .ok (⟨⟩, after)) :
      SideChange lib host caller db after
  | managersReplaced (employeeId : Nat) (managerIds : List Nat)
      {after : Db}
      (notSelf : employeeId ∉ managerIds)
      (valid : ∀ id ∈ managerIds, db.validManager caller.orgId id)
      (wrote : replaceManagers employeeId managerIds db =
        .ok (⟨⟩, after)) :
      SideChange lib host caller db after
  | projectsReplaced (employeeId : Nat) (projectIds : List Nat)
      {after : Db}
      (valid : ∀ id ∈ projectIds, db.validProject caller.orgId id)
      (wrote : replaceProjects employeeId projectIds db =
        .ok (⟨⟩, after)) :
      SideChange lib host caller db after

/-- One statement of a route without a token. -/
inductive PublicChange (lib : Libs) (host : Host) (db : Db) :
    Db → Prop where
  | registered (dto : RegisterDto) (passwordHash : String) {u : User}
      {after : Db}
      (wrote : createOrganisation lib host dto passwordHash db =
        .ok (u, after)) :
      PublicChange lib host db after
  | tokenStored (id : Nat) (token : Option String) {u : User} {after : Db}
      (wrote : Prisma.userUpdate host.now id { refreshToken := some token }
        db = .ok (u, after)) :
      PublicChange lib host db after

/-- What an authenticated request does: one sheet change or side changes. -/
inductive Effect (lib : Libs) (host : Host) (caller : JwtPayload)
    (call : Call) (db : Db) : Db → Prop where
  | sheet {after : Db} (change : SheetChange host caller call db after) :
      Effect lib host caller call db after
  | side {after : Db}
      (changes : Relation.ReflTransGen (SideChange lib host caller) db after) :
      Effect lib host caller call db after

end TmsApi
