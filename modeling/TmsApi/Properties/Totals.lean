import TmsApi.Refinement.Footprint
import TmsApi.Refinement.Runs
import Mathlib.Algebra.Order.BigOperators.Group.List
import Mathlib.Tactic.Linarith

/-!
# Derived totals

The hours of an entry, a timesheet and its billable part are stored next to
the values they are computed from.  Every path that writes them leaves them
equal to the sums, and since accepted hours are non-negative the billable part
never exceeds the total.
-/

namespace TmsApi

open TmsApi.Core

/-- The stored total is the sum of the days, and no day is negative. -/
structure EntryTotal (e : TimeEntry) : Prop where
  total : e.totalHours = e.hours.sum
  nonneg : e.hours.All fun q => 0 ≤ q

theorem EntryTotal.totalHours_nonneg {e : TimeEntry}
    (holds : EntryTotal e) : 0 ≤ e.totalHours := by
  have days := Week.all_iff.mp holds.nonneg
  rcases days with ⟨mon, tue, wed, thu, fri, sat, sun⟩
  rw [holds.total, Week.sum]
  linarith

/-- The stored totals of a timesheet are those of its entries. -/
structure SheetTotal (t : Timesheet) (entries : List TimeEntry) : Prop where
  total : t.totalHours = sumBy (·.totalHours) entries
  billable :
    t.billableHours = sumBy (·.totalHours) (entries.filter (·.billable))

/-- All stored totals agree with what they are computed from. -/
structure Totals (db : Db) : Prop where
  entry : ∀ e ∈ db.timeEntries.rows, EntryTotal e
  sheet : ∀ t ∈ db.timesheets.rows, SheetTotal t (db.entriesOf t.id)

theorem totals_empty : Totals .empty where
  entry := by simp [Db.empty]
  sheet := by simp [Db.empty]

/-! ## Entries -/

section Entries

/-- A copy has the hours of its source. -/
theorem EntryTotal.copied {e : TimeEntry} (holds : EntryTotal e)
    (timesheetId : Nat) (now : Instant) (id : Nat) :
    EntryTotal ((copiedEntry timesheetId e).row now id) :=
  ⟨holds.total, holds.nonneg⟩

/-- A merge of accepted hours into an entry recomputes its total. -/
theorem EntryTotal.merged {e : TimeEntry} (holds : EntryTotal e)
    {dto : UpdateTimeEntryDto}
    (accepted : Schemas.updateTimeEntrySchema dto = []) :
    EntryTotal ((mergedEntry dto e).apply e) := by
  have checked :
      Schemas.weekOf Schemas.hourValue "Hours" dto.hours = [] := by
    simp only [Schemas.updateTimeEntrySchema, List.append_eq_nil_iff]
      at accepted
    exact accepted.1.2
  refine ⟨rfl, ?_⟩
  refine Week.All.zipWith ?_ (Schemas.weekOf_eq_nil.mp checked) holds.nonneg
  intro new old bounds nonneg
  cases new with
  | none => exact nonneg
  | some q => exact (bounds q rfl).1

variable {db : Db}

/-- Copies appended to entries that add up add up. -/
theorem entryTotal_insertMany {entries : List TimeEntry}
    {table : Table TimeEntry} {id : Nat} {now : Instant}
    (old : ∀ e ∈ table.rows, EntryTotal e)
    (source : ∀ e ∈ entries, EntryTotal e) :
    ∀ e ∈ (Table.insertMany (fun d : TimeEntryData => d.row now) table
      (entries.map (copiedEntry id))).rows, EntryTotal e := by
  intro e member
  rcases Table.mem_insertMany_map member with
    kept | ⟨original, given, k, rfl⟩
  · exact old e kept
  · exact (source original given).copied id now k

theorem OwnEntries.entryTotal {caller : JwtPayload}
    {entries : List TimeEntry} (own : OwnEntries caller db entries)
    (holds : Totals db) : ∀ e ∈ entries, EntryTotal e := by
  rcases own with ⟨t, _, _, _, source⟩
  intro e member
  exact holds.entry e (Db.mem_entriesOf.mp (source e member)).1

end Entries

/-! ## Timesheets -/

section Sheets

variable {db after mid : Db} {now : Instant}

/-- The row of an inserted entry. -/
abbrev entryRow (now : Instant) (data : TimeEntryData) (id : Nat) :
    TimeEntry :=
  data.row now id

/-- Copies have the totals of their sources. -/
theorem totalsOf_copies {id k : Nat} (entries : List TimeEntry) :
    totalsOf (Table.stamped (entryRow now) k
      (entries.map (copiedEntry id))) = totalsOf entries := by
  have total := Table.map_stamped (entryRow now) (·.totalHours)
    (·.totalHours) (fun _ _ => rfl) k (entries.map (copiedEntry id))
  have billable := Table.filter_stamped_map (entryRow now) (·.billable)
    (·.billable) (·.totalHours) (·.totalHours) (fun _ _ => rfl)
    (fun _ _ => rfl) k (entries.map (copiedEntry id))
  simp only [totalsOf, sumBy_eq, total, billable]
  simp [List.filter_map, Function.comp_def, copiedEntry]

/-- Entries with the same totals settle the same timesheets. -/
theorem SheetTotal.of_totals {t : Timesheet}
    {entries others : List TimeEntry} (holds : SheetTotal t entries)
    (same : totalsOf others = totalsOf entries) : SheetTotal t others := by
  have total := congrArg TimesheetUpdate.totalHours same
  have billable := congrArg TimesheetUpdate.billableHours same
  simp only [totalsOf, Option.some.injEq] at total billable
  exact ⟨holds.total.trans total.symm, holds.billable.trans billable.symm⟩

theorem entriesOf_openSheet (integrity : db.Integrity)
    {data : TimesheetData} {entries : List TimeEntry} :
    (db.openSheet now data entries).entriesOf db.timesheets.next =
      Table.stamped (entryRow now) db.timeEntries.next
        (entries.map (copiedEntry db.timesheets.next)) := by
  refine Table.select_insertMany_new ?_ ?_
  · intro e member
    exact integrity.entry_timesheet.ne_next member
  · intro item member k
    rcases List.mem_map.mp member with ⟨e, _, rfl⟩
    rfl

theorem entriesOf_overwriteSheet {id : Nat} {entries : List TimeEntry} :
    (db.overwriteSheet now id entries).entriesOf id =
      Table.stamped (entryRow now) db.timeEntries.next
        (entries.map (copiedEntry id)) := by
  refine Table.select_insertMany_new ?_ ?_
  · intro e member
    exact (Table.mem_deleteWhere.mp member).2
  · intro item member k
    rcases List.mem_map.mp member with ⟨e, _, rfl⟩
    rfl

/-- A recalculated timesheet has the totals of its entries. -/
theorem SheetTotal.recalculated {id : Nat} {t : Timesheet}
    (member : t ∈ (mid.recalculated now id).timesheets.rows)
    (key : t.id = id) :
    SheetTotal t ((mid.recalculated now id).entriesOf id) := by
  rcases Db.mem_setSheet.mp member with ⟨old, _, rfl⟩
  by_cases same : old.id = id
  · rw [if_pos same]
    exact ⟨rfl, rfl⟩
  · simp [same] at key

/-- An edit that settles its own timesheet keeps all totals. -/
theorem Totals.edit {caller : JwtPayload} {id : Nat}
    (holds : Totals db) (edits : Edits caller id db after)
    (entry : ∀ e ∈ after.timeEntries.rows, EntryTotal e)
    (own : ∀ t ∈ after.timesheets.rows, t.id = id →
      SheetTotal t (after.entriesOf id)) : Totals after where
  entry := entry
  sheet t member := by
    by_cases same : t.id = id
    · rw [same]
      exact own t member same
    · rw [edits.entriesOf same]
      exact holds.sheet t ((edits.sheets t same).mp member)

/-- Writing other columns of a timesheet keeps all totals. -/
theorem Totals.set {id : Nat} {data : TimesheetUpdate} (holds : Totals db)
    (total : data.totalHours = none) (billable : data.billableHours = none)
    (entries : after.timeEntries = db.timeEntries)
    (sheets : after.timesheets = (db.setSheet now id data).timesheets) :
    Totals after where
  entry := by
    rw [entries]
    exact holds.entry
  sheet t member := by
    rw [sheets] at member
    have same : after.entriesOf t.id = db.entriesOf t.id := by
      simp [Db.entriesOf, entries]
    rw [same]
    rcases Db.mem_setSheet.mp member with ⟨old, oldMem, rfl⟩
    have kept := holds.sheet old oldMem
    split
    · refine ⟨?_, ?_⟩
      · simpa [TimesheetUpdate.apply, total] using kept.total
      · simpa [TimesheetUpdate.apply, billable] using kept.billable
    · exact kept

theorem Totals.beside (holds : Totals db) (beside : Beside db after) :
    Totals after where
  entry := by
    rw [beside.timeEntries]
    exact holds.entry
  sheet := by
    have same : after.entriesOf = db.entriesOf := by
      funext id
      simp [Db.entriesOf, beside.timeEntries]
    rw [beside.timesheets, same]
    exact holds.sheet

/-- Every sheet change restores the totals. -/
theorem Totals.sheetChange {host : Host} {caller : JwtPayload}
    {call : Call}
    (integrity : db.Integrity) (holds : Totals db)
    (change : SheetChange host caller call db after) : Totals after := by
  cases change with
  | opened data entries opens source =>
      have total : ∀ e ∈ entries, EntryTotal e := by
        rcases source with rfl | own
        · simp
        · exact own.entryTotal holds
      refine holds.edit (.open opens)
        (entryTotal_insertMany holds.entry total) fun t member key => ?_
      rw [entriesOf_openSheet integrity]
      rcases Db.mem_openSheet.mp member with old | rfl
      · exact (Nat.ne_of_lt (db.timesheets.keys_below t old) key).elim
      · exact SheetTotal.of_totals ⟨opens.total, opens.billable⟩
          (totalsOf_copies entries)
  | overwritten t entries owns draft source =>
      refine holds.edit (.overwrite owns (.inl draft))
        (entryTotal_insertMany ?_ (source.entryTotal holds))
        fun row member key => ?_
      · intro e member
        exact holds.entry e (Table.mem_deleteWhere.mp member).1
      · rw [entriesOf_overwriteSheet]
        rcases Db.mem_setSheet.mp member with ⟨old, _, rfl⟩
        have same : old.id = t.id := by
          by_contra apart
          simp [apart] at key
        rw [if_pos same]
        exact SheetTotal.of_totals ⟨rfl, rfl⟩ (totalsOf_copies entries)
  | moved t dto owns draft made => exact holds.set rfl rfl rfl rfl
  | dropped t owns draft =>
      refine holds.edit (.drop owns (.inl draft)) ?_ fun row member key => ?_
      · intro e member
        exact holds.entry e (Table.mem_deleteWhere.mp member).1
      · exact ((Db.mem_dropSheet.mp member).2 key).elim
  | submitted t owns editable => exact holds.set rfl rfl rfl rfl
  | entryAdded t data owns editable sheet total nonneg project =>
      refine holds.edit (.addEntry owns editable sheet) ?_
        fun t member key => .recalculated member key
      intro e member
      rcases Db.mem_insertEntry.mp member with old | rfl
      · exact holds.entry e old
      · exact ⟨total, nonneg⟩
  | entryChanged t e dto owns editable entry accepted project assigned =>
      refine holds.edit (.setEntry owns editable entry) ?_
        fun t member key => .recalculated member key
      intro row member
      rcases Db.mem_setEntry.mp member with ⟨old, oldMem, rfl⟩
      split
      · have entryMem := (Db.mem_entriesOf.mp entry).1
        cases db.timeEntries.eq_of_key oldMem entryMem ‹_›
        exact (holds.entry e entryMem).merged accepted
      · exact holds.entry old oldMem
  | entryDropped t e owns editable entry =>
      refine holds.edit (.dropEntry owns editable entry) ?_
        fun t member key => .recalculated member key
      intro row member
      exact holds.entry row (Db.mem_dropEntry.mp member).1
  | approved t may made => exact holds.set rfl rfl rfl rfl
  | rejected t reason may => exact holds.set rfl rfl rfl rfl
  | rejectedSilently t reason may tooLong => exact holds.set rfl rfl rfl rfl

end Sheets

/-! ## Every reachable database -/

theorem totals_run (lib : Libs) (requests : List Request) :
    Totals (World.empty.run lib requests).db :=
  World.run_sheets totals_empty
    (fun _ _ _ _ _ integrity holds change =>
      holds.sheetChange integrity change)
    (fun _ _ _ holds beside => holds.beside beside) lib requests

/-- The billable part of settled totals lies between zero and the total. -/
theorem SheetTotal.bounds {t : Timesheet} {entries : List TimeEntry}
    (holds : SheetTotal t entries)
    (entry : ∀ e ∈ entries, EntryTotal e) :
    0 ≤ t.billableHours ∧ t.billableHours ≤ t.totalHours := by
  have nonneg : ∀ q ∈ entries.map (·.totalHours), (0 : ℚ) ≤ q := by
    intro q member
    rcases List.mem_map.mp member with ⟨e, eMem, rfl⟩
    exact (entry e eMem).totalHours_nonneg
  have part : ((entries.filter (·.billable)).map (·.totalHours)).Sublist
      (entries.map (·.totalHours)) :=
    List.filter_sublist.map _
  rw [holds.total, holds.billable, sumBy_eq, sumBy_eq]
  constructor
  · exact List.sum_nonneg fun q member => nonneg q (part.subset member)
  · exact part.sum_le_sum nonneg

/--
In every database the service can reach, the total of an entry is the sum of
its seven days, the totals of a timesheet are the sums over its entries and
its billable entries, and the billable part is between zero and the total.
-/
theorem totals_agree (lib : Libs) (requests : List Request) :
    let db := (World.empty.run lib requests).db
    (∀ e ∈ db.timeEntries.rows,
      e.totalHours = e.hours.mon + e.hours.tue + e.hours.wed + e.hours.thu +
        e.hours.fri + e.hours.sat + e.hours.sun) ∧
    ∀ t ∈ db.timesheets.rows,
      t.totalHours = ((db.entriesOf t.id).map (·.totalHours)).sum ∧
      t.billableHours =
        (((db.entriesOf t.id).filter (·.billable)).map
          (·.totalHours)).sum ∧
      0 ≤ t.billableHours ∧ t.billableHours ≤ t.totalHours := by
  intro db
  have holds : Totals db := totals_run lib requests
  refine ⟨fun e member => (holds.entry e member).total, ?_⟩
  intro t member
  have sheet := holds.sheet t member
  refine ⟨?_, ?_, sheet.bounds fun e entry =>
    holds.entry e (Db.mem_entriesOf.mp entry).1⟩
  · rw [sheet.total, sumBy_eq]
  · rw [sheet.billable, sumBy_eq]

end TmsApi
