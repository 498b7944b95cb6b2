import TmsApi.Concurrency.Pools
import TmsApi.Properties.Freeze

/-!
# Editing while a timesheet is being submitted

All edits of a timesheet check its status in an earlier statement than the one
that writes.  An edit that starts after the submission is refused, and one
that is over before it is harmless.  What the checks do not exclude is a
submission between the check of an edit and its write.
-/

namespace TmsApi

open TmsApi.Core
open TmsApi.Core.Program

/-! ## Closed timesheets -/

/-- The timesheet of this key is closed for editing. -/
def Db.Shut (db : Db) (id : Nat) : Prop :=
  ∃ t ∈ db.timesheets.rows, t.id = id ∧ Closed t

/-- A step that leaves the timesheet and its entries alone if it is closed. -/
def Frozen (id : Nat) (before after : Db) : Prop :=
  ∀ t ∈ before.timesheets.rows, t.id = id → Closed t →
    (∃ new ∈ after.timesheets.rows, SameContent t new) ∧
      after.entriesOf id = before.entriesOf id

/-- A step that does not close the timesheet. -/
def KeepsOpen (id : Nat) (before after : Db) : Prop :=
  after.Shut id → before.Shut id

section Steps

variable {id : Nat} {db mid after : Db} {now : Instant}

/-- A step beside the timesheets and entries. -/
structure Elsewhere (before after : Db) : Prop where
  sheets : after.timesheets = before.timesheets
  entries : after.timeEntries = before.timeEntries

theorem Elsewhere.refl (db : Db) : Elsewhere db db := ⟨rfl, rfl⟩

theorem Elsewhere.frozen (elsewhere : Elsewhere db after) :
    Frozen id db after := by
  intro t member _ _
  refine ⟨⟨t, elsewhere.sheets ▸ member, .refl t⟩, ?_⟩
  simp [Db.entriesOf, elsewhere.entries]

theorem Elsewhere.shut (elsewhere : Elsewhere db after) :
    after.Shut id ↔ db.Shut id := by
  simp only [Db.Shut, elsewhere.sheets]

theorem KeepsOpen.of_sheets (sheets : after.timesheets = db.timesheets) :
    KeepsOpen id db after := by
  intro shut
  simpa only [Db.Shut, sheets] using shut

theorem keepsOpen_refl (db : Db) : KeepsOpen id db db :=
  fun shut => shut

/-- Columns other than the status keep a timesheet open. -/
theorem keepsOpen_setSheet {sheet : Nat} {data : TimesheetUpdate}
    (status : data.status = none) (sheets : mid.timesheets = db.timesheets) :
    KeepsOpen id db (mid.setSheet now sheet data) := by
  rintro ⟨t, member, key, closed⟩
  rcases Db.mem_setSheet.mp member with ⟨old, oldMem, rfl⟩
  rw [sheets] at oldMem
  by_cases same : old.id = sheet
  · rw [if_pos same] at key closed
    refine ⟨old, oldMem, key, ?_⟩
    simpa [Closed, TimesheetUpdate.apply, status] using closed
  · rw [if_neg same] at key closed
    exact ⟨old, oldMem, key, closed⟩

theorem keepsOpen_dropSheet (sheet : Nat) :
    KeepsOpen id db (db.dropSheet sheet) := by
  rintro ⟨t, member, key, closed⟩
  exact ⟨t, (Db.mem_dropSheet.mp member).1, key, closed⟩

theorem keepsOpen_openSheet {data : TimesheetData}
    {entries : List TimeEntry} (draft : data.status = .draft) :
    KeepsOpen id db (db.openSheet now data entries) := by
  rintro ⟨t, member, key, closed⟩
  rcases Db.mem_openSheet.mp member with old | rfl
  · exact ⟨t, old, key, closed⟩
  · rcases closed with status | status <;>
      simp [TimesheetData.row, draft] at status

/-- A closed timesheet is left alone and stays closed. -/
def LeavesShut (id : Nat) (before after : Db) : Prop :=
  before.Shut id → Frozen id before after ∧ after.Shut id

theorem Elsewhere.leavesShut (elsewhere : Elsewhere db after) :
    LeavesShut id db after :=
  fun shut => ⟨elsewhere.frozen, elsewhere.shut.mpr shut⟩

theorem leavesShut_refl (db : Db) : LeavesShut id db db :=
  (Elsewhere.refl db).leavesShut

/-- Writing another timesheet of the same database. -/
theorem leavesShut_overwriteSheet {sheet : Nat} {entries : List TimeEntry}
    (apart : id ≠ sheet) :
    LeavesShut id db (db.overwriteSheet now sheet entries) := by
  have rows : ∀ t : Timesheet, t.id = id → t ∈ db.timesheets.rows →
      t ∈ (db.overwriteSheet now sheet entries).timesheets.rows := by
    intro t key member
    exact (mem_setSheet_other (key ▸ apart)).mpr member
  have kept : (db.overwriteSheet now sheet entries).entriesOf id =
      db.entriesOf id := by
    refine (Table.select_insertMany ?_).trans
      (Table.select_deleteWhere fun e _ gone selected =>
        apart (selected.symm.trans gone))
    intro item member k selected
    rcases List.mem_map.mp member with ⟨e, _, rfl⟩
    exact apart selected.symm
  rintro ⟨row, rowMem, rowKey, rowClosed⟩
  exact ⟨fun t member key _ => ⟨⟨t, rows t key member, .refl t⟩, kept⟩,
    row, rows row rowKey rowMem, rowKey, rowClosed⟩

/-- A new timesheet beside an existing one. -/
theorem leavesShut_openSheet {data : TimesheetData}
    {entries : List TimeEntry} :
    LeavesShut id db (db.openSheet now data entries) := by
  rintro ⟨row, rowMem, rowKey, rowClosed⟩
  have apart : id ≠ db.timesheets.next :=
    Nat.ne_of_lt (rowKey ▸ db.timesheets.keys_below row rowMem)
  have kept : (db.openSheet now data entries).entriesOf id =
      db.entriesOf id := by
    refine Table.select_insertMany ?_
    intro item member k selected
    rcases List.mem_map.mp member with ⟨e, _, rfl⟩
    exact apart selected.symm
  exact ⟨fun t member _ _ => ⟨⟨t, Db.mem_openSheet.mpr (.inl member),
      .refl t⟩, kept⟩,
    row, Db.mem_openSheet.mpr (.inl rowMem), rowKey, rowClosed⟩

/-- Columns that describe the progress of a timesheet and close it. -/
structure Closing (data : TimesheetUpdate) : Prop where
  status : data.status = some .submitted ∨ data.status = some .approved
  week : data.weekStartDate = none
  total : data.totalHours = none
  billable : data.billableHours = none

theorem Closing.becomes {data : TimesheetUpdate} (closing : Closing data)
    (t : Timesheet) :
    SameContent t (data.apply now t) ∧ Closed (data.apply now t) := by
  constructor
  · constructor <;>
      simp [TimesheetUpdate.apply, closing.week, closing.total,
        closing.billable]
  · rcases closing.status with status | status
    · exact .inl (by simp [TimesheetUpdate.apply, status])
    · exact .inr (by simp [TimesheetUpdate.apply, status])

/-- Submitting or approving leaves the content of all timesheets alone. -/
theorem leavesShut_closing {sheet : Nat} {data : TimesheetUpdate}
    (closing : Closing data) :
    LeavesShut id db (db.setSheet now sheet data) := by
  have becomes : ∀ t ∈ db.timesheets.rows, t.id = id → Closed t →
      ∃ new ∈ (db.setSheet now sheet data).timesheets.rows,
        SameContent t new ∧ Closed new := by
    intro t member key closed
    refine ⟨_, Db.mem_setSheet.mpr ⟨t, member, rfl⟩, ?_⟩
    by_cases same : t.id = sheet
    · rw [if_pos same]
      exact closing.becomes t
    · rw [if_neg same]
      exact ⟨.refl t, closed⟩
  rintro ⟨row, rowMem, rowKey, rowClosed⟩
  constructor
  · intro t member key closed
    rcases becomes t member key closed with ⟨new, newMem, same, _⟩
    exact ⟨⟨new, newMem, same⟩, rfl⟩
  · rcases becomes row rowMem rowKey rowClosed with ⟨new, newMem, same, shut⟩
    exact ⟨new, newMem, same.id.trans rowKey, shut⟩

end Steps

/-! ## Edits while the timesheet is open -/

section Open

variable {host : Host} {id : Nat}

/-- No statement of the program closes the timesheet. -/
abbrev StaysOpen {α : Type} (id : Nat) (program : Service α) : Prop :=
  program.Safe (fun _ => True) (KeepsOpen id)

theorem staysOpen_query {α : Type} (read : Db → α) :
    StaysOpen id (query read) :=
  Safe.query keepsOpen_refl read

theorem staysOpen_statement {α : Type} {tx : Tx α}
    (effect : ∀ db a after, tx db = .ok (a, after) →
      KeepsOpen id db after) : StaysOpen id (statement tx) :=
  Safe.writes keepsOpen_refl effect

theorem recalculateTimesheetTotals_staysOpen (sheet : Nat) :
    StaysOpen id (recalculateTimesheetTotals host sheet) := by
  refine (staysOpen_query _).bind fun entries => ?_
  refine (staysOpen_statement ?_).bind fun _ => safe_done _
  intro db t after outcome
  rw [Prisma.timesheetUpdate_after outcome]
  exact keepsOpen_setSheet rfl rfl

theorem editableTimesheet_staysOpen (sheet userId orgId : Nat) :
    StaysOpen id (editableTimesheet sheet userId orgId) := by
  refine (staysOpen_query _).bind fun found => ?_
  refine (Safe.orThrow _ _).bind fun t => ?_
  exact (Safe.throwIf _ _).bind fun _ => safe_done _

theorem assertAssigned_staysOpen (projectId userId : Nat) :
    StaysOpen id (assertAssigned projectId userId) :=
  (staysOpen_query _).bind fun _ => Safe.throwIf _ _

theorem updateTimesheet_staysOpen (sheet userId orgId : Nat)
    (dto : UpdateTimesheetDto) :
    StaysOpen id (updateTimesheet host sheet userId orgId dto) := by
  refine (staysOpen_query _).bind fun found => ?_
  refine (Safe.orThrow _ _).bind fun t => ?_
  refine (Safe.throwIf _ _).bind fun _ => ?_
  refine (Safe.throwIf _ _).bind fun _ => staysOpen_statement ?_
  intro db row after outcome
  rw [Prisma.timesheetUpdate_after outcome]
  exact keepsOpen_setSheet rfl rfl

theorem deleteTimesheet_staysOpen (sheet userId orgId : Nat) :
    StaysOpen id (deleteTimesheet sheet userId orgId) := by
  refine (staysOpen_query _).bind fun found => ?_
  refine (Safe.orThrow _ _).bind fun t => ?_
  refine (Safe.throwIf _ _).bind fun _ => staysOpen_statement ?_
  intro db done after outcome
  rw [Prisma.timesheetDelete_after outcome]
  exact keepsOpen_dropSheet sheet

theorem createEntry_staysOpen (sheet userId orgId : Nat)
    (dto : CreateTimeEntryDto) (userRole : UserRole) :
    StaysOpen id (createEntry host sheet userId orgId dto userRole) := by
  refine (editableTimesheet_staysOpen _ _ _).bind fun _ => ?_
  refine (staysOpen_query _).bind fun settings => ?_
  refine (Safe.throwIf _ _).bind fun _ => ?_
  refine (staysOpen_query _).bind fun project => ?_
  refine (Safe.throwIf _ _).bind fun _ => ?_
  refine (Safe.whenever fun _ => assertAssigned_staysOpen _ _).bind
    fun _ => ?_
  refine (Safe.throwIf _ _).bind fun _ => ?_
  refine (staysOpen_statement ?_).bind fun _ =>
    (recalculateTimesheetTotals_staysOpen _).bind fun _ => safe_done _
  intro db e after outcome
  rcases Prisma.timeEntryCreate_eq_ok.mp outcome with ⟨_, _, rfl⟩
  exact .of_sheets rfl

theorem updateEntry_staysOpen (sheet entryId userId orgId : Nat)
    (dto : UpdateTimeEntryDto) (userRole : UserRole) :
    StaysOpen id
      (updateEntry host sheet entryId userId orgId dto userRole) := by
  refine (editableTimesheet_staysOpen _ _ _).bind fun _ => ?_
  refine (staysOpen_query _).bind fun found => ?_
  refine (Safe.orThrow _ _).bind fun e => ?_
  refine (Safe.whenever fun _ => assertAssigned_staysOpen _ _).bind
    fun _ => ?_
  refine (staysOpen_statement ?_).bind fun _ =>
    (recalculateTimesheetTotals_staysOpen _).bind fun _ => safe_done _
  intro db row after outcome
  rcases Prisma.timeEntryUpdate_eq_ok.mp outcome with ⟨_, _, rfl⟩
  exact .of_sheets rfl

theorem deleteEntry_staysOpen (sheet entryId userId orgId : Nat) :
    StaysOpen id (deleteEntry host sheet entryId userId orgId) := by
  refine (editableTimesheet_staysOpen _ _ _).bind fun _ => ?_
  refine (staysOpen_query _).bind fun found => ?_
  refine (Safe.orThrow _ _).bind fun e => ?_
  refine (staysOpen_statement ?_).bind fun _ =>
    recalculateTimesheetTotals_staysOpen _
  intro db done after outcome
  rw [Prisma.timeEntryDelete_after outcome]
  exact .of_sheets rfl

theorem copyableEntries_staysOpen (userId orgId : Nat)
    (userRole : UserRole) (entries : List TimeEntry) :
    StaysOpen id (copyableEntries userId orgId userRole entries) := by
  unfold copyableEntries
  split
  · exact (staysOpen_query _).bind fun _ => safe_done _
  · exact safe_done _

theorem copyIntoWeek_staysOpen (userId orgId : Nat) (userRole : UserRole)
    (force : Bool) (previous : Timesheet × List TimeEntry)
    (week : Instant) :
    StaysOpen id
      (copyIntoWeek host userId orgId userRole force previous week) := by
  refine (staysOpen_query _).bind fun existing => ?_
  refine (Safe.throwIf _ _).bind fun _ => ?_
  refine (Safe.throwIf _ _).bind fun _ => ?_
  refine (copyableEntries_staysOpen _ _ _ _).bind fun entries => ?_
  refine (staysOpen_statement ?_).bind fun _ => safe_done _
  intro db t after outcome
  cases existing with
  | none =>
      rw [createCopy_after outcome]
      exact keepsOpen_openSheet rfl
  | some existing =>
      rw [overwriteEntries_after outcome]
      exact keepsOpen_setSheet rfl rfl

theorem copyPreviousWeek_staysOpen (userId orgId : Nat)
    (targetWeekStart : JsDate) (userRole : UserRole) (force : Bool) :
    StaysOpen id
      (copyPreviousWeek host userId orgId targetWeekStart userRole
        force) := by
  refine (staysOpen_query _).bind fun found => ?_
  refine (Safe.throwIf _ _).bind fun _ => ?_
  refine (staysOpen_query _).bind fun source => ?_
  refine (Safe.orThrow _ _).bind fun previous => ?_
  refine (Safe.orThrow _ _).bind fun week => ?_
  exact copyIntoWeek_staysOpen _ _ _ _ _ _

end Open

/-! ## Edits of a closed timesheet -/

section Shut

variable {lib : Libs} {host : Host} {caller : JwtPayload} {id : Nat}
  {db : Db}

/-- While the timesheet is closed, every statement leaves it alone. -/
abbrev RespectsShut {α : Type} (id : Nat) (program : Service α) : Prop :=
  program.Safe (fun db => db.Shut id) (Frozen id)

theorem frozen_refl (db : Db) : Frozen id db db :=
  (Elsewhere.refl db).frozen

theorem respectsShut_query {α : Type} (read : Db → α) :
    RespectsShut id (query read) :=
  Safe.query frozen_refl read

theorem respectsShut_statement {α : Type} {tx : Tx α}
    (effect : ∀ db a after, tx db = .ok (a, after) → db.Shut id →
      Frozen id db after ∧ after.Shut id) :
    RespectsShut id (statement tx) :=
  Safe.statement frozen_refl effect

theorem closed_of_shut {t : Timesheet} (shut : db.Shut id)
    (member : t ∈ db.timesheets.rows) (key : t.id = id) : Closed t := by
  rcases shut with ⟨row, rowMem, rowKey, closed⟩
  rwa [db.timesheets.eq_of_key member rowMem (key.trans rowKey.symm)]

theorem Closed.not_draft {t : Timesheet} (closed : Closed t) :
    t.status ≠ .draft :=
  fun draft => closed.not_editable (.inl draft)

theorem Closed.refuses_entries {t : Timesheet} (closed : Closed t) :
    t.status ≠ .draft ∧ t.status ≠ .rejected :=
  not_or.mp closed.not_editable

/-- A status check in the first statement refuses a closed timesheet. -/
theorem respectsShut_of_check {α : Type} {userId orgId : Nat} {e e' : Thrown}
    {refuses : Timesheet → Prop} [DecidablePred refuses]
    {f : Timesheet → Service α} (check : ∀ t, Closed t → refuses t) :
    RespectsShut id
      ((query fun db => db.ownTimesheet id userId orgId) >>= fun found =>
        orThrow found e >>= fun t =>
          throwIf (refuses t) e' >>= fun _ => f t) := by
  refine Safe.query_bind (fun db _ => frozen_refl db) fun db shut => ?_
  refine Safe.orThrow_bind fun t found => ?_
  refine Safe.throwIf_bind fun passes => (passes (check t ?_)).elim
  exact closed_of_shut shut (Table.mem_of_find? found)
    (Table.holds_of_find? found).1

theorem updateTimesheet_respectsShut (userId orgId : Nat)
    (dto : UpdateTimesheetDto) :
    RespectsShut id (updateTimesheet host id userId orgId dto) :=
  respectsShut_of_check fun _ closed => closed.not_draft

theorem deleteTimesheet_respectsShut (userId orgId : Nat) :
    RespectsShut id (deleteTimesheet id userId orgId) :=
  respectsShut_of_check fun _ closed => closed.not_draft

/-- The check of the entry operations, in front of anything. -/
theorem editableTimesheet_respectsShut {α : Type} (userId orgId : Nat)
    (f : Timesheet → Service α) :
    RespectsShut id (editableTimesheet id userId orgId >>= f) := by
  rw [editableTimesheet, bind_assoc]
  simp only [bind_assoc]
  exact respectsShut_of_check fun _ closed => closed.refuses_entries

theorem copyableEntries_respectsShut (userId orgId : Nat)
    (userRole : UserRole) (entries : List TimeEntry) :
    RespectsShut id (copyableEntries userId orgId userRole entries) := by
  unfold copyableEntries
  split
  · exact (respectsShut_query _).bind fun _ => safe_done _
  · exact safe_done _

/-- A copy goes to a draft or to a new timesheet. -/
theorem copyIntoWeek_respectsShut (userId orgId : Nat)
    (userRole : UserRole) (force : Bool)
    (previous : Timesheet × List TimeEntry) (week : Instant) :
    RespectsShut id
      (copyIntoWeek host userId orgId userRole force previous week) := by
  refine Safe.query_bind (fun db _ => frozen_refl db) fun db shut => ?_
  refine Safe.throwIf_bind fun notTaken => ?_
  refine Safe.throwIf_bind fun notFrozen => ?_
  refine (copyableEntries_respectsShut _ _ _ _).bind fun entries => ?_
  refine (respectsShut_statement ?_).bind fun _ => safe_done _
  intro later t after outcome stillShut
  cases found : db.weekTimesheet userId orgId week with
  | none =>
      rw [found] at outcome
      rw [createCopy_after outcome]
      exact leavesShut_openSheet stillShut
  | some existing =>
      rw [found] at outcome notTaken notFrozen
      rw [overwriteEntries_after outcome]
      have apart : id ≠ existing.id := by
        intro same
        have closed := closed_of_shut shut (Table.mem_of_find? found)
          same.symm
        exact notFrozen ⟨by simpa using notTaken, existing, rfl,
          closed.not_draft⟩
      have kept : LeavesShut id later
          (later.overwriteSheet host.now existing.id entries) :=
        leavesShut_overwriteSheet apart
      exact kept stillShut

/-- A copy has not looked at the target week in its first two statements. -/
theorem copyPreviousWeek_unchecked (inv : Db → Prop) (userId orgId : Nat)
    (targetWeekStart : JsDate) (userRole : UserRole) (force : Bool)
    {α : Type} (f : Timesheet × Nat → α) {n : Nat} (few : n < 3) :
    (copyPreviousWeek host userId orgId targetWeekStart userRole force >>=
      fun result => (pure (f result) : Service α)).Leads inv (Frozen id)
        (RespectsShut id) n := by
  have week (previous : Option (Timesheet × List TimeEntry))
      (startDay : WorkWeekStart) :
      RespectsShut id
        (orThrow previous
            (.notFoundError "Previous submitted or approved timesheet") >>=
          fun previous =>
            orThrow (targetWeekStart.map
                (getWeekStart host.zone · startDay))
              (.driver .invalidValue) >>= fun weekStartDate =>
                copyIntoWeek host userId orgId userRole force previous
                  weekStartDate >>= fun result =>
                    (pure (f result) : Service α)) :=
    (Safe.orThrow _ _).bind fun _ => (Safe.orThrow _ _).bind fun _ =>
      (copyIntoWeek_respectsShut _ _ _ _ _ _).bind fun _ => safe_done _
  simp only [copyPreviousWeek, bind_assoc]
  have within : n = 0 ∨ n = 1 ∨ n = 2 := by omega
  rcases within with rfl | rfl | rfl
  · refine (respectsShut_query _).bind fun found => ?_
    refine (Safe.throwIf _ _).bind fun _ => ?_
    exact (respectsShut_query _).bind fun source => week source _
  · refine Leads.query_bind (fun db _ => frozen_refl db) fun db _ => ?_
    refine Leads.throwIf_bind (fun _ => safe_done _) fun _ => ?_
    exact (respectsShut_query _).bind fun source => week source _
  · refine Leads.query_bind (fun db _ => frozen_refl db) fun db _ => ?_
    refine Leads.throwIf_bind (fun _ => safe_done _) fun _ => ?_
    refine Leads.query_bind (fun db _ => frozen_refl db) fun db _ => ?_
    exact week _ _

end Shut

/-! ## The two sides -/

section Sides

variable {lib : Libs} {host : Host} {caller : JwtPayload} {call : Call}
  {id : Nat}

/-- A request that edits the timesheet, if only by copying into its week. -/
inductive EditOf (id : Nat) : Call → Prop where
  | updateTimesheet (dto : UpdateTimesheetDto) :
      EditOf id (.updateTimesheet id dto)
  | deleteTimesheet : EditOf id (.deleteTimesheet id)
  | createEntry (dto : CreateTimeEntryDto) :
      EditOf id (.createEntry id dto)
  | updateEntry (entryId : Nat) (dto : UpdateTimeEntryDto) :
      EditOf id (.updateEntry id entryId dto)
  | deleteEntry (entryId : Nat) : EditOf id (.deleteEntry id entryId)
  | copyPreviousWeek (targetWeekStart : JsDate) (force : Bool) :
      EditOf id (.copyPreviousWeek targetWeekStart force)

/-- The position of the statement that reads the status. -/
def statusCheck : Call → Nat
  | .copyPreviousWeek _ _ => 3
  | _ => 1

/-- An edit never closes a timesheet. -/
theorem EditOf.staysOpen (edit : EditOf id call) :
    StaysOpen id (handle lib host caller call) := by
  cases edit with
  | updateTimesheet dto =>
      exact (updateTimesheet_staysOpen _ _ _ _).bind fun _ => safe_done _
  | deleteTimesheet =>
      exact (deleteTimesheet_staysOpen _ _ _).bind fun _ => safe_done _
  | createEntry dto =>
      refine (Safe.throwIf _ _).bind fun _ => ?_
      exact (createEntry_staysOpen _ _ _ _ _).bind fun _ => safe_done _
  | updateEntry entryId dto =>
      refine (Safe.throwIf _ _).bind fun _ => ?_
      exact (updateEntry_staysOpen _ _ _ _ _ _).bind fun _ => safe_done _
  | deleteEntry entryId =>
      exact (deleteEntry_staysOpen _ _ _ _).bind fun _ => safe_done _
  | copyPreviousWeek targetWeekStart force =>
      exact (copyPreviousWeek_staysOpen _ _ _ _ _).bind fun _ =>
        safe_done _

/-- An edit that starts on a closed timesheet leaves it alone. -/
theorem EditOf.respectsShut (edit : EditOf id call) :
    RespectsShut id (handle lib host caller call) := by
  cases edit with
  | updateTimesheet dto =>
      exact (updateTimesheet_respectsShut _ _ _).bind fun _ => safe_done _
  | deleteTimesheet =>
      exact (deleteTimesheet_respectsShut _ _).bind fun _ => safe_done _
  | createEntry dto =>
      refine (Safe.throwIf _ _).bind fun _ => ?_
      exact (editableTimesheet_respectsShut _ _ _).bind fun _ =>
        safe_done _
  | updateEntry entryId dto =>
      refine (Safe.throwIf _ _).bind fun _ => ?_
      exact (editableTimesheet_respectsShut _ _ _).bind fun _ =>
        safe_done _
  | deleteEntry entryId =>
      exact (editableTimesheet_respectsShut _ _ _).bind fun _ =>
        safe_done _
  | copyPreviousWeek targetWeekStart force =>
      exact copyPreviousWeek_unchecked (fun _ => True) _ _ _ _ _ _
        (by decide : 0 < 3)

/-- Before its status check an edit still leaves a closed timesheet alone. -/
theorem EditOf.unchecked {inv : Db → Prop} (edit : EditOf id call) {n : Nat}
    (few : n < statusCheck call) :
    (handle lib host caller call).Leads inv (Frozen id) (RespectsShut id)
      n := by
  cases edit with
  | copyPreviousWeek targetWeekStart force =>
      exact copyPreviousWeek_unchecked _ _ _ _ _ _ _ few
  | _ =>
      obtain rfl : n = 0 := Nat.lt_one_iff.mp few
      exact EditOf.respectsShut (by constructor)

/-- Whatever an approval meets, a closed timesheet is left alone. -/
theorem approve_leavesShut :
    (handle lib host caller (.approveTimesheet id)).Safe (fun _ => True)
      (LeavesShut id) := by
  refine (Safe.throwIf _ _).bind fun _ => ?_
  refine Safe.bind ?_ fun _ => safe_done _
  refine ((decidableTimesheet_reads _ _ _ _ _ _).mono ?_).bind fun t => ?_
  · rintro s s' _ rfl
    exact leavesShut_refl _
  refine (Safe.writes leavesShut_refl ?_).bind fun approved => ?_
  · intro s row s' outcome
    rw [Prisma.timesheetUpdate_after outcome]
    exact leavesShut_closing ⟨.inr rfl, rfl, rfl, rfl⟩
  refine (Safe.query leavesShut_refl _).bind fun entries => ?_
  refine (Safe.forEach (fun e => ?_) entries).bind fun _ => ?_
  · refine Safe.writes leavesShut_refl ?_
    intro s done s' outcome
    simp only [Prisma.projectIncrementUsedHours, ensure_eq_ok,
      Except.ok.injEq, Prod.mk.injEq] at outcome
    rcases outcome with ⟨_, _, rfl⟩
    exact Elsewhere.leavesShut ⟨rfl, rfl⟩
  · refine (Safe.writes leavesShut_refl ?_).bind fun _ => safe_done _
    intro s n s' outcome
    rw [Prisma.notificationCreate_after outcome]
    exact Elsewhere.leavesShut ⟨rfl, rfl⟩

/-- The guards of a decision refuse a timesheet that is open. -/
theorem decidableTimesheet_refuses_open (userId orgId : Nat)
    (role : UserRole) (selfMessage : String) (target : TimesheetStatus) :
    (decidableTimesheet id userId orgId role selfMessage target).Ends
      (fun db => ¬ db.Shut id) (fun result => ∃ e, result = .error e) := by
  refine Ends.query_bind fun db open_ => ?_
  refine Ends.orThrow_bind (fun _ => ⟨_, rfl⟩) fun t found => ?_
  refine Ends.throwIf_bind (fun _ => ⟨_, rfl⟩) fun _ => ?_
  refine (Ends.trivially _).bind (fun e _ => ⟨e, rfl⟩) fun _ _ => ?_
  refine Ends.throwIf_bind (fun _ => ⟨_, rfl⟩) fun submitted => ?_
  refine (open_ ⟨t, Table.mem_of_find? found,
    (Table.holds_of_find? found).1, .inl ?_⟩).elim
  exact not_not.mp submitted

/-- An approval of an open timesheet does nothing. -/
theorem approve_open :
    (handle lib host caller (.approveTimesheet id)).Safe
      (fun db => ¬ db.Shut id) (Frozen id) := by
  refine (Safe.throwIf _ _).bind fun _ => ?_
  refine Safe.bind ?_ fun _ => safe_done _
  refine ((decidableTimesheet_reads _ _ _ _ _ _).mono ?_).bind_ends
    (decidableTimesheet_refuses_open _ _ _ _ _) ?_
  · rintro s s' _ rfl
    exact frozen_refl _
  · rintro t ⟨e, absurd⟩
    cases absurd

/-- Over, or over after one more statement. -/
def Short (program : Service Response) : Prop :=
  (∃ result, program = done result) ∨
    ∃ write next, program = atomic write next ∧
      ∀ s, ∃ result, next s = done result

/-- What `submitTimesheet` does with the row it read. -/
def submitFound (host : Host) (id : Nat) (found : Option Timesheet) :
    Service Response :=
  orThrow found (.notFoundError "Timesheet") >>= fun timesheet =>
    throwIf (¬ (timesheet.status = .draft ∨ timesheet.status = .rejected))
      (.invalidTransitionError timesheet.status .submitted) >>= fun _ =>
        statement (Prisma.timesheetUpdate host.now id
          (Db.submission timesheet)) >>= fun row =>
            done (.ok (.timesheet row))

theorem handle_submit :
    handle lib host caller (.submitTimesheet id) =
      (query fun db => db.ownTimesheet id caller.userId caller.orgId) >>=
        submitFound host id := by
  simp only [handle, submitTimesheet, bind_assoc, pure_eq]
  rfl

/-- A submission is refused after it read, or makes its only write. -/
theorem submitFound_short (found : Option Timesheet) :
    Short (submitFound host id found) := by
  cases found with
  | none => exact .inl ⟨_, rfl⟩
  | some t =>
      by_cases open_ : t.status = .draft ∨ t.status = .rejected
      · rw [submitFound, orThrow_some, ok_bind,
          throwIf_of_not (not_not.mpr open_), ok_bind, statement_bind]
        refine .inr ⟨_, _, rfl, fun s => ?_⟩
        cases answer (Prisma.timesheetUpdate host.now id
          (Db.submission t)) s with
        | ok row => exact ⟨_, rfl⟩
        | error e => exact ⟨_, rfl⟩
      · rw [submitFound, orThrow_some, ok_bind, throwIf_of open_]
        exact .inl ⟨_, rfl⟩

/-- Whatever a submission meets, a closed timesheet is left alone. -/
theorem submit_leavesShut :
    (handle lib host caller (.submitTimesheet id)).Safe (fun _ => True)
      (LeavesShut id) := by
  rw [handle_submit]
  refine (Safe.query leavesShut_refl _).bind fun found => ?_
  refine (Safe.orThrow _ _).bind fun t => (Safe.throwIf _ _).bind fun _ => ?_
  refine (Safe.writes leavesShut_refl ?_).bind fun _ => safe_done _
  intro s row s' outcome
  rw [Prisma.timesheetUpdate_after outcome]
  exact leavesShut_closing ⟨.inl rfl, rfl, rfl, rfl⟩

/-- A submission, and the approval that may follow it. -/
structure Closer where
  host : Host
  caller : JwtPayload
  approval : Option (Host × JwtPayload)

/-- The requests of a closer, one after the other. -/
def Closer.program (closer : Closer) (lib : Libs) (id : Nat) :
    Service Response :=
  let submission :=
    handle lib closer.host closer.caller (.submitTimesheet id)
  match closer.approval with
  | none => submission
  | some (host, caller) =>
      submission.followedBy (handle lib host caller (.approveTimesheet id))

/-- Harmless to an open timesheet and to a closed one. -/
structure Settles (id : Nat) (program : Service Response) : Prop where
  opened : program.Safe (fun db => ¬ db.Shut id) (Frozen id)
  closed : program.Safe (fun _ => True) (LeavesShut id)

theorem settles_done (result : Except Thrown Response) :
    Settles id (done result) :=
  ⟨safe_done _, safe_done _⟩

theorem approve_settles :
    Settles id (handle lib host caller (.approveTimesheet id)) :=
  ⟨approve_open, approve_leavesShut⟩

/-- After its next statement the program settles. -/
def Commits (id : Nat) (program : Service Response) : Prop :=
  ∀ write next, program = atomic write next → ∀ db, ¬ db.Shut id →
    Settles id (next db)

theorem Settles.commits {program : Service Response}
    (settles : Settles id program) : Commits id program := by
  rintro write next rfl db open_
  exact ⟨(settles.opened db open_).2.2, (settles.closed db trivial).2.2⟩

/-- A closer closes the timesheet with its second statement, if at all. -/
theorem Closer.commits (closer : Closer) :
    (closer.program lib id).Leads (fun db => ¬ db.Shut id) (Frozen id)
      (Commits id) 1 := by
  have single (host : Host) (found : Option Timesheet) :
      Commits id (submitFound host id found) := by
    intro write next same db _
    rcases submitFound_short found with
      ⟨result, ended⟩ | ⟨write', next', written, ends⟩
    · rw [ended] at same
      cases same
    · rw [written] at same
      cases same
      rcases ends db with ⟨result, ended⟩
      rw [ended]
      exact settles_done result
  have followed (host : Host) (found : Option Timesheet)
      {second : Service Response} (settles : Settles id second) :
      Commits id ((submitFound host id found).followedBy second) := by
    rcases submitFound_short found with
      ⟨result, ended⟩ | ⟨write', next', written, ends⟩
    · rw [ended]
      exact settles.commits
    · rw [written]
      rintro write next same db _
      cases same
      rcases ends db with ⟨result, ended⟩
      simpa only [ended, followedBy] using settles
  rcases closer with ⟨host, caller, approval⟩
  simp only [Closer.program, handle_submit]
  cases approval with
  | none =>
      exact Leads.query_bind (fun db _ => frozen_refl db)
        fun db _ => single host _
  | some second =>
      intro db open_
      exact ⟨frozen_refl db, open_, followed host _ approve_settles⟩

theorem Closer.leavesShut (closer : Closer) :
    (closer.program lib id).Safe (fun _ => True) (LeavesShut id) := by
  have submission : (handle lib closer.host closer.caller
      (.submitTimesheet id)).Safe (fun _ => True) (LeavesShut id) :=
    submit_leavesShut
  unfold Closer.program
  cases closer.approval with
  | none => exact submission
  | some second => exact submission.followedBy approve_leavesShut

/-- What leaves a closed timesheet alone may rely on its being closed. -/
theorem respectsShut_of_leavesShut {program : Service Response}
    (leaves : program.Safe (fun _ => True) (LeavesShut id)) :
    RespectsShut id program :=
  (leaves.assume fun _ _ shut left => (left shut).2).mono
    fun _ _ shut left => (left shut).1

/-- An open timesheet is trivially left alone. -/
theorem EditOf.opened (edit : EditOf id call) :
    (handle lib host caller call).Safe (fun db => ¬ db.Shut id)
      (Frozen id) :=
  ((edit.staysOpen).assume fun _ _ open_ keeps shut =>
      open_ (keeps shut)).mono
    fun _ _ open_ _ t member key closed =>
      (open_ ⟨t, member, key, closed⟩).elim

end Sides

/-! ## A submission against an edit -/

/-- The two sides of the race. -/
inductive Side where
  | closer
  | writer
deriving DecidableEq

/-- A submission, with or without approval, and an edit in flight. -/
structure Race where
  closer : Closer
  host : Host
  caller : JwtPayload
  call : Call

def Race.pool (race : Race) (lib : Libs) (id : Nat) (db : Db) :
    Pool Db Thrown Response Side where
  state := db
  threads
    | .closer => race.closer.program lib id
    | .writer => handle lib race.host race.caller race.call

/--
When the submission is written, which is the second statement of its side, the
edit has not reached its status check or makes no further statement.
-/
def Timely (call : Call) (schedule : List Side) : Prop :=
  ∀ pre post, schedule = pre ++ .closer :: post →
    pre.count .closer = 1 →
      pre.count .writer < statusCheck call ∨ .writer ∉ post

section Races

variable {lib : Libs} {race : Race} {id : Nat} {db : Db}
  {schedule : List Side} {last : Pool Db Thrown Response Side}

/-- On a closed timesheet both sides leave it alone. -/
theorem Race.shut (edit : EditOf id race.call) (shut : db.Shut id)
    (ran : (race.pool lib id db).run schedule = some last) :
    (race.pool lib id db).Each (Frozen id) schedule := by
  refine (Pool.run_safe (fun db => db.Shut id) _ ran shut ?_).1
  intro side _
  cases side with
  | closer => exact respectsShut_of_leavesShut (Closer.leavesShut _)
  | writer => exact edit.respectsShut

/-- Until the submission is written the timesheet stays open. -/
theorem Race.opened (edit : EditOf id race.call) (open_ : ¬ db.Shut id)
    (ran : (race.pool lib id db).run schedule = some last)
    (early : schedule.count .closer ≤ 1) :
    (race.pool lib id db).Each (Frozen id) schedule ∧
      ¬ last.state.Shut id ∧
      (schedule.count .closer = 1 →
        Commits id (last.threads .closer)) ∧
      (last.threads .writer).Safe (fun db => ¬ db.Shut id) (Frozen id) ∧
      (schedule.count .writer < statusCheck race.call →
        RespectsShut id (last.threads .writer)) := by
  let rest : Side → Service Response → Prop
    | .closer, left => schedule.count .closer = 1 → Commits id left
    | .writer, left =>
        left.Safe (fun db => ¬ db.Shut id) (Frozen id) ∧
          (schedule.count .writer < statusCheck race.call →
            RespectsShut id left)
  have leads : ∀ side, ((race.pool lib id db).threads side).Leads
      (fun db => ¬ db.Shut id) (Frozen id) (rest side)
      (schedule.count side) := by
    intro side
    cases side with
    | closer =>
        rcases Nat.le_one_iff_eq_zero_or_eq_one.mp early with none | one
        · rw [none]
          intro absurd
          rw [none] at absurd
          cases absurd
        · rw [one]
          exact (race.closer.commits).mono fun _ commits _ => commits
    | writer =>
        refine (edit.opened.leads _).and ?_
        by_cases unchecked : schedule.count .writer < statusCheck race.call
        · exact (edit.unchecked unchecked).mono fun _ respects _ => respects
        · refine (edit.opened.leads _).mono fun _ _ absurd => ?_
          exact (unchecked absurd).elim
  have result := Pool.run_leads ran open_ leads
  exact ⟨result.1, result.2.1, result.2.2 .closer,
    (result.2.2 .writer).1, (result.2.2 .writer).2⟩

end Races

/--
Every step of a submission, followed or not by an approval, and of a
concurrent edit leaves the timesheet and its entries alone while it is closed,
if it is closed from the start or if the submission is written outside the
edit.
-/
theorem frozen_of_timely (lib : Libs) (race : Race) (id : Nat) (db : Db)
    (edit : EditOf id race.call) (schedule : List Side)
    (last : Pool Db Thrown Response Side)
    (ran : (race.pool lib id db).run schedule = some last)
    (timely : db.Shut id ∨ Timely race.call schedule) :
    (race.pool lib id db).Each (Frozen id) schedule := by
  by_cases shut : db.Shut id
  · exact race.shut edit shut ran
  have timely := timely.resolve_left shut
  by_cases early : schedule.count .closer ≤ 1
  · exact (race.opened edit shut ran early).1
  rcases exists_split_of_lt_count (Nat.lt_of_not_le early) with
    ⟨pre, post, rfl, once⟩
  rcases Pool.run_append.mp ran with ⟨middle, began, remaining⟩
  rcases race.opened edit shut began (le_of_eq once) with
    ⟨each, open_, commits, writer, unchecked⟩
  refine Pool.each_append.mpr ⟨each, fun other same => ?_⟩
  cases began.symm.trans same
  rcases Pool.run_cons.mp remaining with ⟨after, step, tail⟩
  rcases Pool.step_eq_some.mp step with ⟨write, next, thread, made⟩
  have settles := commits once write next thread middle.state open_
  have own : after.threads .closer = next middle.state := by
    simp [made]
  have other : after.threads .writer = middle.threads .writer := by
    simp [made]
  intro taken same
  cases step.symm.trans same
  refine ⟨fun t member key closed => (open_ ⟨t, member, key, closed⟩).elim,
    ?_⟩
  by_cases closed : after.state.Shut id
  · refine (Pool.run_safe (fun db => db.Shut id) _ tail closed ?_).1
    intro side scheduled
    cases side with
    | closer =>
        rw [own]
        exact respectsShut_of_leavesShut settles.closed
    | writer =>
        rw [other]
        refine unchecked ?_
        exact (timely pre post rfl once).resolve_right
          fun idle => idle scheduled
  · refine (Pool.run_safe (fun db => ¬ db.Shut id) _ tail closed ?_).1
    intro side _
    cases side with
    | closer =>
        rw [own]
        exact settles.opened
    | writer =>
        rw [other]
        exact writer

/-- Eve submits her draft and deletes its entry. -/
def submitAndDelete : Race where
  closer :=
    { host := plainHost
      caller := eve
      approval := some (plainHost, ada) }
  host := plainHost
  caller := eve
  call := .deleteEntry 1 1

/-- A deletion that starts after the submission is harmless. -/
theorem frozen_of_timely_deletion :
    (submitAndDelete.pool plainLibs 1 officeDb).Each (Frozen 1)
      [.closer, .closer, .writer, .closer] := by
  have ended : ∃ last, (submitAndDelete.pool plainLibs 1 officeDb).run
      [.closer, .closer, .writer, .closer] = some last ∧ True :=
    Pool.exists_of_any (by decide +kernel)
  rcases ended with ⟨last, ran, _⟩
  refine frozen_of_timely plainLibs submitAndDelete 1 officeDb
    (.deleteEntry 1) _ last ran (.inr fun pre post split once => .inl ?_)
  match pre, split, once with
  | [.closer], _, _ => decide
  | .closer :: .closer :: _, _, once => simp at once

/-- A submission between the check of a deletion and its write. -/
theorem not_frozen_between :
    ∃ last, (submitAndDelete.pool plainLibs 1 officeDb).run
        [.writer, .writer, .closer, .closer, .writer] = some last ∧
      ¬ (submitAndDelete.pool plainLibs 1 officeDb).Each (Frozen 1)
        [.writer, .writer, .closer, .closer, .writer] := by
  have between : ∃ middle,
      (submitAndDelete.pool plainLibs 1 officeDb).run
        [.writer, .writer, .closer, .closer] = some middle ∧
      (∃ t ∈ middle.state.timesheets.rows, t.id = 1 ∧
        t.status = .submitted) ∧
      (middle.step .writer).any fun after =>
        decide (after.state.entriesOf 1 ≠ middle.state.entriesOf 1) :=
    Pool.exists_of_any (by decide +kernel)
  rcases between with ⟨middle, ran, ⟨t, member, key, submitted⟩, changes⟩
  rcases (Option.any_eq_true _ _).mp changes with ⟨after, step, changed⟩
  refine ⟨after, ?_, fun each => ?_⟩
  · exact Pool.run_append.mpr ⟨middle, ran, Pool.run_cons.mpr
      ⟨after, step, rfl⟩⟩
  · have frozen := ((Pool.each_append.mp each).2 middle ran after step).1
    exact of_decide_eq_true changed (frozen t member key (.inl submitted)).2

end TmsApi
