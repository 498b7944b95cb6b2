import TmsApi.Properties.Copies
import TmsApi.Services.Reports

/-!
# Partial updates of an entry compose

The body of `updateEntry` gives some of the columns of an entry.  Hours and
time off fall back to the stored value, a description to the stored one when
its key is missing, and project and billable flag are spread over the row.  On
accepted bodies the three conventions are one: a column holds what the body
gives for it, or else what it held before.  The totals follow the columns.
-/

namespace TmsApi

open TmsApi.Core
open TmsApi.Core.Program

/-! ## Columns of an entry and what a body gives for them -/

/-- The columns of an entry that a body can give. -/
inductive EntryColumn where
  | projectId
  | billable
  | hours (day : Weekday)
  | desc (day : Weekday)
  | timeOff (day : Weekday)

/-- The values of a column. -/
abbrev EntryColumn.Value : EntryColumn → Type
  | .projectId => Nat
  | .billable => Bool
  | .hours _ => ℚ
  | .desc _ => Option String
  | .timeOff _ => ℚ

/-- What an entry holds in a column. -/
def TimeEntry.column (e : TimeEntry) :
    (column : EntryColumn) → column.Value
  | .projectId => e.projectId
  | .billable => e.billable
  | .hours day => columnOf e.hours day
  | .desc day => columnOf e.desc day
  | .timeOff day => columnOf e.timeOff day

/-- What holds of the values of two options holds of the first one present. -/
theorem forall_mem_or {α : Type} {p : α → Prop} {new old : Option α}
    (newAll : ∀ a ∈ new, p a) (oldAll : ∀ a ∈ old, p a) :
    ∀ a ∈ new.or old, p a := by
  intro a given
  rcases Option.or_eq_some_iff.mp given with here | there
  · exact newAll a here
  · exact oldAll a there.2

namespace UpdateTimeEntryDto

/-- What a body gives for a column; a description it gives is a string. -/
def given (dto : UpdateTimeEntryDto) :
    (column : EntryColumn) → Option column.Value
  | .projectId => dto.projectId
  | .billable => dto.billable
  | .hours day => columnOf dto.hours day
  | .desc day => (columnOf dto.desc day).map some
  | .timeOff day => columnOf dto.timeOff day

/-- The fields of the second body, and those of the first it leaves out. -/
def overriddenBy (first second : UpdateTimeEntryDto) :
    UpdateTimeEntryDto where
  projectId := second.projectId.or first.projectId
  billable := second.billable.or first.billable
  hours := second.hours.zipWith Option.or first.hours
  desc := second.desc.zipWith Option.or first.desc
  timeOff := second.timeOff.zipWith Option.or first.timeOff

/-- No column is given by both bodies. -/
def DisjointFrom (first second : UpdateTimeEntryDto) : Prop :=
  ∀ column, first.given column = none ∨ second.given column = none

theorem given_overriddenBy (first second : UpdateTimeEntryDto)
    (column : EntryColumn) :
    (first.overriddenBy second).given column =
      (second.given column).or (first.given column) := by
  cases column with
  | projectId => rfl
  | billable => rfl
  | hours day => exact columnOf_zipWith _ _ _ day
  | desc day =>
      simp only [given, overriddenBy, columnOf_zipWith]
      cases columnOf second.desc day <;> rfl
  | timeOff day => exact columnOf_zipWith _ _ _ day

end UpdateTimeEntryDto

namespace TimeEntry

/-- The row `updateEntry` writes. -/
def mergedWith (e : TimeEntry) (dto : UpdateTimeEntryDto) : TimeEntry :=
  (mergedEntry dto e).apply e

/-- The three conventions of the merge are one. -/
theorem column_mergedWith (e : TimeEntry) (dto : UpdateTimeEntryDto)
    (column : EntryColumn) :
    (e.mergedWith dto).column column =
      (dto.given column).getD (e.column column) := by
  cases column with
  | projectId => rfl
  | billable => rfl
  | hours day => exact columnOf_zipWith _ _ _ day
  | desc day =>
      apply (columnOf_zipWith _ _ _ day).trans
      simp only [UpdateTimeEntryDto.given, column]
      cases columnOf dto.desc day <;> rfl
  | timeOff day => exact columnOf_zipWith _ _ _ day

/-- Two updates of an entry that agree on every column write the same row. -/
theorem mergedWith_congr {left right : TimeEntry}
    {dto other : UpdateTimeEntryDto} (id : left.id = right.id)
    (sheet : left.timesheetId = right.timesheetId)
    (created : left.createdAt = right.createdAt)
    (same : ∀ column, (left.mergedWith dto).column column =
      (right.mergedWith other).column column) :
    left.mergedWith dto = right.mergedWith other := by
  have hours : (left.mergedWith dto).hours = (right.mergedWith other).hours :=
    ext_columnOf fun day => same (.hours day)
  have desc : (left.mergedWith dto).desc = (right.mergedWith other).desc :=
    ext_columnOf fun day => same (.desc day)
  have timeOff :
      (left.mergedWith dto).timeOff = (right.mergedWith other).timeOff :=
    ext_columnOf fun day => same (.timeOff day)
  have total : (left.mergedWith dto).totalHours =
      (right.mergedWith other).totalHours :=
    congrArg (fun week : Week ℚ => calcEntryTotal (week.map some)) hours
  have project : (left.mergedWith dto).projectId =
      (right.mergedWith other).projectId :=
    same .projectId
  have billable : (left.mergedWith dto).billable =
      (right.mergedWith other).billable :=
    same .billable
  exact mk.injEq .. |>.mpr
    ⟨id, sheet, project, billable, hours, desc, timeOff, total, created⟩

/-- Two updates one after the other are one update. -/
theorem mergedWith_mergedWith (e : TimeEntry)
    (first second : UpdateTimeEntryDto) :
    (e.mergedWith first).mergedWith second =
      e.mergedWith (first.overriddenBy second) := by
  refine mergedWith_congr rfl rfl rfl fun column => ?_
  simp only [column_mergedWith, UpdateTimeEntryDto.given_overriddenBy]
  cases second.given column <;> rfl

/-- Updates of disjoint columns commute. -/
theorem mergedWith_comm (e : TimeEntry) {first second : UpdateTimeEntryDto}
    (apart : first.DisjointFrom second) :
    (e.mergedWith first).mergedWith second =
      (e.mergedWith second).mergedWith first := by
  refine mergedWith_congr rfl rfl rfl fun column => ?_
  simp only [column_mergedWith]
  rcases apart column with absent | absent
  · rw [absent]
    rfl
  · rw [absent]
    rfl

end TimeEntry

/-! ## What updates of one entry leave -/

/-- A timesheet but for the time of its last update. -/
def Timesheet.unstamped (t : Timesheet) : Timesheet :=
  { t with updatedAt := 0 }

/-- The totals of a timesheet set to those of the entries. -/
def Timesheet.totalled (timesheetId : Nat) (entries : List TimeEntry)
    (t : Timesheet) : Timesheet :=
  if t.id = timesheetId then (totalsOf entries).apply 0 t else t.unstamped

/-- The last recalculation counts. -/
theorem Timesheet.totalled_totalled (timesheetId : Nat)
    (old entries : List TimeEntry) (t : Timesheet) :
    (t.totalled timesheetId old).totalled timesheetId entries =
      t.totalled timesheetId entries := by
  unfold totalled
  by_cases same : t.id = timesheetId
  · simp [same, TimesheetUpdate.apply, totalsOf]
  · simp [same, unstamped]

/-- An entry replaced by a row, and the totals of its timesheet after it. -/
structure Db.Leaves (db : Db) (timesheetId : Nat) (row : TimeEntry)
    (after : Db) : Prop where
  entries : after.timeEntries.rows =
    db.timeEntries.rows.map fun other =>
      if other.id = row.id then row else other
  next : after.timeEntries.next = db.timeEntries.next
  sheets : after.timesheets.rows.map Timesheet.unstamped =
    db.timesheets.rows.map
      (Timesheet.totalled timesheetId (after.entriesOf timesheetId))

/-- The same entries and timesheets, `updatedAt` apart. -/
structure Db.SameSheets (left right : Db) : Prop where
  entries : left.timeEntries = right.timeEntries
  sheets : left.timesheets.rows.map Timesheet.unstamped =
    right.timesheets.rows.map Timesheet.unstamped

section

variable {db mid after other : Db} {timesheetId : Nat} {row : TimeEntry}

theorem Db.Leaves.same (leaves : db.Leaves timesheetId row after)
    (others : db.Leaves timesheetId row other) : after.SameSheets other := by
  have entries : after.timeEntries = other.timeEntries :=
    Table.ext (leaves.entries.trans others.entries.symm)
      (leaves.next.trans others.next.symm)
  refine ⟨entries, ?_⟩
  rw [leaves.sheets, others.sheets, Db.entriesOf, Db.entriesOf, entries]

theorem Db.Leaves.trans {last : TimeEntry} (same : last.id = row.id)
    (first : db.Leaves timesheetId row mid)
    (second : mid.Leaves timesheetId last after) :
    db.Leaves timesheetId last after where
  entries := by
    rw [second.entries, first.entries, List.map_map]
    refine List.map_congr_left fun e _ => ?_
    simp only [Function.comp, same]
    by_cases hit : e.id = row.id
    · simp [hit]
    · simp [hit]
  next := second.next.trans first.next
  sheets := by
    have unstamped : mid.timesheets.rows.map
        (Timesheet.totalled timesheetId (after.entriesOf timesheetId)) =
        (mid.timesheets.rows.map Timesheet.unstamped).map
          (Timesheet.totalled timesheetId (after.entriesOf timesheetId)) := by
      rw [List.map_map]
      rfl
    rw [second.sheets, unstamped, first.sheets, List.map_map]
    exact List.map_congr_left fun t _ => t.totalled_totalled _ _ _

/-- A single update leaves the merged entry. -/
theorem Db.leaves_withUpdate {now : Instant} {t : Timesheet} {e : TimeEntry}
    (entry : e ∈ db.timeEntries.rows) (dto : UpdateTimeEntryDto) :
    db.Leaves t.id (e.mergedWith dto) (db.withUpdate now t e dto) where
  entries := by
    refine List.map_congr_left fun other member => ?_
    by_cases hit : other.id = e.id
    · cases db.timeEntries.eq_of_key member entry hit
      rfl
    · exact (if_neg hit).trans (if_neg hit).symm
  next := rfl
  sheets := by
    simp only [Db.withUpdate, Db.recalculated, Db.setSheet,
      Table.rows_modify, List.map_map]
    refine List.map_congr_left fun sheet _ => ?_
    simp only [Function.comp, Timesheet.totalled]
    split <;> rfl

end

/-! ## Requests -/

/-- The request of the caller to update an entry succeeds. -/
def Updates (host : Host) (caller : JwtPayload) (timesheetId entryId : Nat)
    (dto : UpdateTimeEntryDto) (db after : Db) : Prop :=
  ∃ row, (updateEntry host timesheetId entryId caller.userId caller.orgId dto
    caller.role).exec db = (.ok row, after)

/-- The entry and its timesheet, which the caller may edit. -/
structure MayEdit (caller : JwtPayload) (db : Db) (timesheetId entryId : Nat)
    (t : Timesheet) (e : TimeEntry) : Prop where
  owns : Owns caller db t
  editable : Editable t
  entry : e ∈ db.entriesOf t.id
  sheetKey : t.id = timesheetId
  entryKey : e.id = entryId

/-- The project of a body exists, and an EMPLOYEE is assigned to it. -/
structure MayBook (caller : JwtPayload) (db : Db) (dto : UpdateTimeEntryDto) :
    Prop where
  project : ∀ p ∈ dto.projectId, db.projects.HasKey p
  assigned : ∀ p ∈ dto.projectId, caller.role = .employee →
    db.Assigned p caller.userId

section

variable {host : Host} {caller : JwtPayload} {db mid after : Db}
  {timesheetId entryId : Nat} {t : Timesheet} {e : TimeEntry}
  {dto first second : UpdateTimeEntryDto} {now : Instant}

theorem updates_iff :
    Updates host caller timesheetId entryId dto db after ↔
      ∃ t e, MayEdit caller db timesheetId entryId t e ∧
        MayBook caller db dto ∧ (e.mergedWith dto).desc.All text? ∧
          after = db.withUpdate host.now t e dto := by
  constructor
  · rintro ⟨row, ran⟩
    have reached : wp (updateEntry host timesheetId entryId caller.userId
        caller.orgId dto caller.role)
        (fun result final => result = .ok row → ∃ t e,
          MayEdit caller db timesheetId entryId t e ∧
            MayBook caller db dto ∧ (e.mergedWith dto).desc.All text? ∧
              final = db.withUpdate host.now t e dto) db := by
      apply wp_updateEntry
      · rintro e ⟨⟩
      · intro t e _ sheetKey entryKey may _
        exact ⟨t, e, ⟨may.owns, may.editable, may.entry, sheetKey, entryKey⟩,
          ⟨may.project, may.assigned⟩, may.fits, rfl⟩
    unfold wp at reached
    rw [ran] at reached
    exact reached rfl
  · rintro ⟨t, e, ⟨owns, editable, entry, rfl, rfl⟩, ⟨project, assigned⟩,
      fits, rfl⟩
    have may : MayUpdate caller db t e dto :=
      ⟨owns, editable, entry, project, assigned, fits⟩
    refine ⟨e.mergedWith dto, ?_⟩
    have ran : wp (updateEntry host t.id e.id caller.userId caller.orgId dto
        caller.role)
        (fun result final => (result, final) =
          (.ok (e.mergedWith dto), db.withUpdate host.now t e dto)) db :=
      (wp_updateEntry_of may).mpr rfl
    exact ran

theorem MayEdit.unique {other : Timesheet} {row : TimeEntry}
    (may : MayEdit caller db timesheetId entryId t e)
    (also : MayEdit caller db timesheetId entryId other row) :
    other = t ∧ row = e := by
  constructor
  · exact may.owns.eq_of_id also.owns.member
      (also.sheetKey.trans may.sheetKey.symm)
  · exact db.timeEntries.eq_of_key (Db.mem_entriesOf.mp also.entry).1
      (Db.mem_entriesOf.mp may.entry).1 (also.entryKey.trans may.entryKey.symm)

/-- After an update the caller may edit the merged entry. -/
theorem MayEdit.update (may : MayEdit caller db timesheetId entryId t e)
    (now : Instant) (dto : UpdateTimeEntryDto) :
    ∃ updated, MayEdit caller (db.withUpdate now t e dto) timesheetId entryId
      updated (e.mergedWith dto) := by
  have entry := (Db.mem_entriesOf.mp may.entry)
  refine ⟨_, ⟨⟨Db.mem_setSheet.mpr ⟨t, may.owns.member, (if_pos rfl).symm⟩,
    may.owns.owner, may.owns.org⟩, may.editable, ?_, may.sheetKey,
      may.entryKey⟩⟩
  refine Db.mem_entriesOf.mpr ⟨?_, entry.2⟩
  rw [(Db.leaves_withUpdate entry.1 dto).entries]
  exact List.mem_map.mpr ⟨e, entry.1, if_pos rfl⟩

theorem mayBook_withUpdate :
    MayBook caller (db.withUpdate now t e first) second ↔
      MayBook caller db second := by
  constructor
  · rintro ⟨project, assigned⟩
    exact ⟨project, assigned⟩
  · rintro ⟨project, assigned⟩
    exact ⟨project, assigned⟩

/-- What a request that succeeds has found and leaves. -/
theorem Updates.leaves
    (ran : Updates host caller timesheetId entryId dto db after)
    (may : MayEdit caller db timesheetId entryId t e) :
    MayBook caller db dto ∧ (e.mergedWith dto).desc.All text? ∧
      (∃ updated, MayEdit caller after timesheetId entryId updated
        (e.mergedWith dto)) ∧
      (∀ body, MayBook caller after body ↔ MayBook caller db body) ∧
      db.Leaves timesheetId (e.mergedWith dto) after := by
  rcases updates_iff.mp ran with ⟨t', e', may', book, fits, rfl⟩
  rcases may.unique may' with ⟨rfl, rfl⟩
  refine ⟨book, fits, may.update _ _, fun _ => mayBook_withUpdate, ?_⟩
  rw [← may.sheetKey]
  exact Db.leaves_withUpdate (Db.mem_entriesOf.mp may.entry).1 dto

theorem Updates.of_may (host : Host)
    (may : MayEdit caller db timesheetId entryId t e)
    (book : MayBook caller db dto) (fits : (e.mergedWith dto).desc.All text?) :
    ∃ after, Updates host caller timesheetId entryId dto db after :=
  ⟨_, updates_iff.mpr ⟨t, e, may, book, fits, rfl⟩⟩

/-- Two requests in a row: what they found, and the entry they leave. -/
structure UpdatesTwice (caller : JwtPayload) (timesheetId entryId : Nat)
    (first second : UpdateTimeEntryDto) (db : Db) (t : Timesheet)
    (e : TimeEntry) (after : Db) : Prop where
  may : MayEdit caller db timesheetId entryId t e
  bookFirst : MayBook caller db first
  bookSecond : MayBook caller db second
  fitsFirst : (e.mergedWith first).desc.All text?
  fits : ((e.mergedWith first).mergedWith second).desc.All text?
  leaves : db.Leaves timesheetId ((e.mergedWith first).mergedWith second) after

theorem Updates.twice {host' : Host}
    (ran : Updates host caller timesheetId entryId first db mid)
    (again : Updates host' caller timesheetId entryId second mid after) :
    ∃ t e, UpdatesTwice caller timesheetId entryId first second db t e
      after := by
  rcases updates_iff.mp ran with ⟨t, e, may, _⟩
  rcases ran.leaves may with ⟨book, fits, ⟨updated, mayAgain⟩, books, leaves⟩
  rcases again.leaves mayAgain with ⟨bookAgain, fitsAgain, _, _, left⟩
  refine ⟨t, e, may, book, (books second).mp bookAgain, fits, fitsAgain, ?_⟩
  refine Db.Leaves.trans ?_ leaves left
  rfl

/-- The single request with the overridden body succeeds as well. -/
theorem UpdatesTwice.single
    (twice : UpdatesTwice caller timesheetId entryId first second db t e after)
    (host : Host) :
    ∃ single, Updates host caller timesheetId entryId
      (first.overriddenBy second) db single ∧ single.SameSheets after := by
  have merged := e.mergedWith_mergedWith first second
  have book : MayBook caller db (first.overriddenBy second) := by
    constructor
    · exact forall_mem_or twice.bookSecond.project twice.bookFirst.project
    · exact forall_mem_or twice.bookSecond.assigned twice.bookFirst.assigned
  rcases Updates.of_may host twice.may book (merged ▸ twice.fits) with
    ⟨single, ran⟩
  refine ⟨single, ran, ?_⟩
  have leaves := (ran.leaves twice.may).2.2.2.2
  rw [← merged] at leaves
  exact leaves.same twice.leaves

/-- The same two requests the other way round. -/
theorem UpdatesTwice.swapped
    (twice : UpdatesTwice caller timesheetId entryId first second db t e after)
    (apart : first.DisjointFrom second)
    (stored : TextsFit db.timeEntries.rows) (host host' : Host) :
    ∃ mid after, Updates host caller timesheetId entryId second db mid ∧
      Updates host' caller timesheetId entryId first mid after := by
  have entry := (Db.mem_entriesOf.mp twice.may.entry).1
  have fits : (e.mergedWith second).desc.All text? := by
    refine all_iff_columnOf.mpr fun day => ?_
    have old := all_iff_columnOf.mp (stored e entry) day
    have new := all_iff_columnOf.mp twice.fits day
    have shows := (e.mergedWith first).column_mergedWith second (.desc day)
    have alone := e.column_mergedWith second (.desc day)
    simp only [TimeEntry.column] at shows alone
    rw [shows] at new
    rw [alone]
    cases given : second.given (.desc day) with
    | none => exact old
    | some text =>
        rw [given] at new
        exact new
  rcases Updates.of_may host twice.may twice.bookSecond fits with ⟨mid, ran⟩
  rcases ran.leaves twice.may with ⟨_, _, ⟨updated, may⟩, books, _⟩
  have fitsAgain := e.mergedWith_comm apart ▸ twice.fits
  rcases Updates.of_may host' may ((books first).mpr twice.bookFirst)
    fitsAgain with ⟨last, again⟩
  exact ⟨mid, last, ran, again⟩

/-- Both orders leave the same. -/
theorem UpdatesTwice.same {other : Db} {t' : Timesheet} {e' : TimeEntry}
    (twice : UpdatesTwice caller timesheetId entryId first second db t e after)
    (apart : first.DisjointFrom second)
    (swapped : UpdatesTwice caller timesheetId entryId second first db t' e'
      other) : other.SameSheets after := by
  rcases twice.may.unique swapped.may with ⟨rfl, rfl⟩
  have leaves := swapped.leaves
  rw [← e'.mergedWith_comm apart] at leaves
  exact leaves.same twice.leaves

/-- A column that neither body gives. -/
theorem UpdatesTwice.untouched
    (twice : UpdatesTwice caller timesheetId entryId first second db t e after)
    {old : TimeEntry} (member : old ∈ db.timeEntries.rows)
    (key : old.id = entryId) :
    ∃ row ∈ after.timeEntries.rows, row.id = entryId ∧
      ∀ column, first.given column = none → second.given column = none →
        row.column column = old.column column := by
  have entry := (Db.mem_entriesOf.mp twice.may.entry).1
  cases db.timeEntries.eq_of_key member entry
    (key.trans twice.may.entryKey.symm)
  refine ⟨(e.mergedWith first).mergedWith second, ?_, key, ?_⟩
  · rw [twice.leaves.entries]
    exact List.mem_map.mpr ⟨e, entry, if_pos rfl⟩
  · intro column left right
    rw [TimeEntry.column_mergedWith, right, TimeEntry.column_mergedWith, left]
    rfl

end

/-- A body of two accepted ones is accepted. -/
theorem accepted_overriddenBy {first second : UpdateTimeEntryDto}
    (acceptedFirst : Schemas.updateTimeEntrySchema first = [])
    (acceptedSecond : Schemas.updateTimeEntrySchema second = []) :
    Schemas.updateTimeEntrySchema (first.overriddenBy second) = [] := by
  simp only [Schemas.updateTimeEntrySchema, List.append_eq_nil_iff,
    Schemas.optional_eq_nil, Schemas.hourValue, Schemas.timeOffValue,
    Schemas.weekOf_eq_nil] at *
  rcases acceptedFirst with ⟨⟨project, hours⟩, timeOff⟩
  rcases acceptedSecond with ⟨⟨project', hours'⟩, timeOff'⟩
  exact ⟨⟨forall_mem_or project' project,
    hours'.zipWith (fun _ _ => forall_mem_or) hours⟩,
    timeOff'.zipWith (fun _ _ => forall_mem_or) timeOff⟩

/--
Two accepted bodies that update an entry one after the other: the body in
which the second overrides the first is accepted, succeeds and leaves the same
entries and timesheets, `updatedAt` apart.  A column that neither body gives
keeps its value.  Bodies that give no column both leave the same in either
order, and where the stored texts fit their columns the other order succeeds
as well.
-/
theorem entry_updates_compose (caller : JwtPayload)
    (timesheetId entryId : Nat) (first second : UpdateTimeEntryDto)
    (acceptedFirst : Schemas.updateTimeEntrySchema first = [])
    (acceptedSecond : Schemas.updateTimeEntrySchema second = [])
    (db mid after : Db) (host₁ host₂ : Host)
    (ran : Updates host₁ caller timesheetId entryId first db mid)
    (again : Updates host₂ caller timesheetId entryId second mid after) :
    (Schemas.updateTimeEntrySchema (first.overriddenBy second) = [] ∧
      ∀ host, ∃ single, Updates host caller timesheetId entryId
        (first.overriddenBy second) db single ∧ single.SameSheets after) ∧
    (∀ old ∈ db.timeEntries.rows, old.id = entryId →
      ∃ row ∈ after.timeEntries.rows, row.id = entryId ∧
        ∀ column, first.given column = none → second.given column = none →
          row.column column = old.column column) ∧
    (first.DisjointFrom second → ∀ host₃ host₄,
      (TextsFit db.timeEntries.rows → ∃ mid' after',
        Updates host₃ caller timesheetId entryId second db mid' ∧
          Updates host₄ caller timesheetId entryId first mid' after') ∧
      ∀ mid' after',
        Updates host₃ caller timesheetId entryId second db mid' →
        Updates host₄ caller timesheetId entryId first mid' after' →
          after'.SameSheets after) := by
  rcases ran.twice again with ⟨t, e, twice⟩
  refine ⟨⟨accepted_overriddenBy acceptedFirst acceptedSecond, twice.single⟩,
    fun old member key => twice.untouched member key, ?_⟩
  intro apart host₃ host₄
  constructor
  · intro stored
    exact twice.swapped apart stored host₃ host₄
  · intro mid' after' ran' again'
    rcases ran'.twice again' with ⟨t', e', swapped⟩
    exact twice.same apart swapped

/-- A body without fields. -/
def noFields : UpdateTimeEntryDto where
  projectId := none
  billable := none
  hours := .const none
  desc := .const none
  timeOff := .const none

/-- A request that answers with a row succeeds. -/
theorem Updates.of_isOk {host : Host} {caller : JwtPayload}
    {timesheetId entryId : Nat} {dto : UpdateTimeEntryDto} {db : Db}
    (answered : ((updateEntry host timesheetId entryId caller.userId
      caller.orgId dto caller.role).exec db).1.isOk = true) :
    Updates host caller timesheetId entryId dto db
      ((updateEntry host timesheetId entryId caller.userId caller.orgId dto
        caller.role).exec db).2 := by
  unfold Updates
  cases outcome : (updateEntry host timesheetId entryId caller.userId
      caller.orgId dto caller.role).exec db with
  | mk result after =>
      cases result with
      | error e =>
          rw [outcome] at answered
          cases answered
      | ok row => exact ⟨row, rfl⟩

/--
Eve sets the hours of Monday to zero, and then its description to the empty
string and the entry to not billable.
-/
theorem entry_updates_compose_office :
    ∃ mid after single,
      Updates plainHost eve 1 1 { noFields with hours := onMonday 0 } officeDb
        mid ∧
      Updates plainHost eve 1 1
        { noFields with
          billable := some false
          desc := { Week.const none with mon := some "" } } mid after ∧
      Updates plainHost eve 1 1
        { noFields with
          billable := some false
          hours := onMonday 0
          desc := { Week.const none with mon := some "" } } officeDb single ∧
      single.SameSheets after := by
  have zero : ((updateEntry plainHost 1 1 eve.userId eve.orgId
      { noFields with hours := onMonday 0 } eve.role).exec
        officeDb).1.isOk = true := by
    decide +kernel
  have note : ((updateEntry plainHost 1 1 eve.userId eve.orgId
      { noFields with
        billable := some false
        desc := { Week.const none with mon := some "" } } eve.role).exec
      ((updateEntry plainHost 1 1 eve.userId eve.orgId
        { noFields with hours := onMonday 0 } eve.role).exec
          officeDb).2).1.isOk = true := by
    decide +kernel
  obtain ⟨single, ran, same⟩ := (entry_updates_compose eve 1 1 _ _
    (by decide +kernel) (by decide +kernel) officeDb _ _ plainHost plainHost
    (.of_isOk zero) (.of_isOk note)).1.2 plainHost
  exact ⟨_, _, single, .of_isOk zero, .of_isOk note, ran, same⟩

end TmsApi
