import TmsApi.Properties.Holidays

/-!
# Regular hours and overtime of a month

A row shows the hours of its day up to eight as time and those beyond as
overtime.  Its time is cleared on a holiday and on a day of leave, and the sums
of the report leave weekends out as well, but the overtime of a row is not
cleared: the rows and the sums agree as long as nobody works longer than eight
hours on such a day.

A day is one of leave as soon as one entry records time off on it, or hours on
a project of that name, and then none of its hours count.
-/

namespace TmsApi

open TmsApi.Core
open TmsApi.Core.Program

/-! ## What the entries of a day add up to -/

/-- The hours of a cell, if there are any. -/
def loggedHours (reading : ReportEntry × DayCell) : ℚ :=
  if reading.2.hours > 0 then reading.2.hours else 0

/-- The project of an entry is one of leave by its name or its code. -/
def ReportEntry.OnLeaveProject (entry : ReportEntry) : Prop :=
  mentionsLeave ((entry.project.map (·.name)).getD "") = true ∨
    mentionsLeave ((entry.project.map (·.code)).getD "") = true

instance : DecidablePred ReportEntry.OnLeaveProject :=
  fun _ => inferInstanceAs (Decidable (_ ∨ _))

/-- The cell records time off, or hours on a project of leave. -/
def RecordsLeave (reading : ReportEntry × DayCell) : Prop :=
  reading.2.timeOff > 0 ∨
    reading.2.hours > 0 ∧ reading.1.OnLeaveProject

instance : DecidablePred RecordsLeave :=
  fun _ => inferInstanceAs (Decidable (_ ∨ _ ∧ _))

theorem loggedHours_nonneg (reading : ReportEntry × DayCell) :
    0 ≤ loggedHours reading := by
  unfold loggedHours
  split
  · rename_i positive
    exact le_of_lt positive
  · exact le_rfl

theorem addCell_dayHours (day : DayTotals) (reading : ReportEntry × DayCell) :
    (addCell day reading).dayHours = day.dayHours + loggedHours reading := by
  unfold addCell loggedHours
  dsimp only
  split <;> split <;> simp

theorem addCell_isLeave (day : DayTotals) (reading : ReportEntry × DayCell) :
    (addCell day reading).isLeave = true ↔
      day.isLeave = true ∨ RecordsLeave reading := by
  unfold addCell RecordsLeave ReportEntry.OnLeaveProject
  dsimp only
  by_cases off : reading.2.timeOff > 0
  · simp [off]
  · by_cases hours : reading.2.hours > 0
    · simp [off, hours, or_assoc]
    · simp [off, hours]

theorem foldl_addCell_dayHours (cells : List (ReportEntry × DayCell))
    (day : DayTotals) :
    (cells.foldl addCell day).dayHours =
      day.dayHours + sumBy loggedHours cells := by
  induction cells generalizing day with
  | nil => simp [sumBy_eq]
  | cons reading cells ih =>
      rw [List.foldl_cons, ih, addCell_dayHours, sumBy_cons, add_assoc]

theorem foldl_addCell_isLeave (cells : List (ReportEntry × DayCell))
    (day : DayTotals) :
    (cells.foldl addCell day).isLeave = true ↔
      day.isLeave = true ∨ ∃ reading ∈ cells, RecordsLeave reading := by
  induction cells generalizing day with
  | nil => simp
  | cons reading cells ih =>
      rw [List.foldl_cons, ih, addCell_isLeave, or_assoc,
        List.exists_mem_cons_iff]

/-! ## The days of a report -/

namespace Db

section

variable (db : Db) (zone : Zone) (orgId : Nat) (userId year month : Int)

/-- The hours in the cells that the report reads for a day. -/
def loggedOn (d : Nat) : ℚ :=
  sumBy loggedHours (db.usedCells zone orgId userId year month d)

/-- The hours of these cells on projects that are not ones of leave. -/
def workedOn (d : Nat) : ℚ :=
  sumBy loggedHours ((db.usedCells zone orgId userId year month d).filter
    fun reading => ¬ reading.1.OnLeaveProject)

/-- A day of leave: such a cell has time off, or hours on such a project. -/
def LeaveOn (d : Nat) : Prop :=
  ∃ reading ∈ db.usedCells zone orgId userId year month d,
    RecordsLeave reading

/-- A day that is no holiday of the organisation and not on a weekend. -/
def WeekdayOn (d : Nat) : Prop :=
  ¬ db.MarkedOn zone orgId year month d ∧
    ¬ (weekdayIn year month d = 0 ∨ weekdayIn year month d = 6)

/-- A regular working day. -/
def WorkingDay (d : Nat) : Prop :=
  db.WeekdayOn zone orgId year month d ∧
    ¬ db.LeaveOn zone orgId userId year month d

instance : DecidablePred (db.LeaveOn zone orgId userId year month) :=
  fun d => inferInstanceAs (Decidable
    (∃ reading ∈ db.usedCells zone orgId userId year month d, _))

instance : DecidablePred (db.WeekdayOn zone orgId year month) :=
  fun _ => inferInstanceAs (Decidable (¬ db.HolidayOn _ _ _ ∧ ¬ (_ ∨ _)))

instance : DecidablePred (db.WorkingDay zone orgId userId year month) :=
  fun _ => inferInstanceAs (Decidable (_ ∧ _))

end

end Db

section

variable {db : Db} {zone : Zone} {orgId : Nat} {userId year month : Int}
  {d : Nat} {row : MonthlyDayRow}

/-- What the row of a day shows. -/
abbrev RowOf (db : Db) (zone : Zone) (orgId : Nat) (userId year month : Int)
    (d : Nat) (row : MonthlyDayRow) : Prop :=
  row.Records year month d (db.MarkedOn zone orgId year month d)
    (db.dayTotals zone orgId userId year month d)

theorem Db.dayTotals_dayHours :
    (db.dayTotals zone orgId userId year month d).dayHours =
      db.loggedOn zone orgId userId year month d :=
  (foldl_addCell_dayHours _ _).trans (zero_add _)

/-- The rows of regular working days are those of the days. -/
theorem MonthlyDayRow.Records.regular_iff
    (records : RowOf db zone orgId userId year month d row) :
    row.Regular ↔ db.WorkingDay zone orgId userId year month d := by
  have leave : row.isLeave = true ↔
      db.LeaveOn zone orgId userId year month d := by
    rw [records.isLeave]
    exact (foldl_addCell_isLeave _ _).trans
      (or_iff_right Bool.false_ne_true)
  unfold MonthlyDayRow.Regular Db.WorkingDay Db.WeekdayOn
  rw [← leave, ← records.isHoliday, ← records.isWeekend]
  simp only [Bool.not_eq_true]
  constructor
  · rintro ⟨holiday, present, weekend⟩
    exact ⟨⟨holiday, weekend⟩, present⟩
  · rintro ⟨⟨holiday, weekend⟩, present⟩
    exact ⟨holiday, present, weekend⟩

/-- The overtime of a row are the hours beyond eight, on whatever day. -/
theorem MonthlyDayRow.Records.overtime_eq
    (records : RowOf db zone orgId userId year month d row) :
    row.overtime = max (db.loggedOn zone orgId userId year month d - 8) 0 := by
  rw [records.overtime, Db.dayTotals_dayHours]
  split
  · rename_i beyond
    exact (max_eq_left (by linarith)).symm
  · rename_i within
    exact (max_eq_right (by linarith)).symm

/-- The total of a row splits into time and overtime when overtime may be. -/
theorem MonthlyDayRow.Records.totalTime_iff
    (records : RowOf db zone orgId userId year month d row) :
    row.totalTime = row.time + row.overtime ↔
      (row.isHoliday = true ∨ row.isLeave = true → row.overtime = 0) := by
  have total := records.totalTime
  rw [← records.isLeave] at total
  rw [total, records.time]
  by_cases cleared : row.isHoliday = true ∨ row.isLeave = true
  · rw [if_pos cleared, if_pos cleared, zero_add, eq_comm]
    exact ⟨fun zero _ => zero, fun zero => zero cleared⟩
  · rw [if_neg cleared, if_neg cleared]
    refine iff_of_true ?_ fun cleared' => absurd cleared' cleared
    rw [records.overtime_eq, Db.dayTotals_dayHours, add_comm, min_def, max_def]
    split <;> split <;> linarith

/-- On a regular working day time and overtime are the hours logged. -/
theorem MonthlyDayRow.Records.time_add_overtime
    (records : RowOf db zone orgId userId year month d row)
    (regular : row.Regular) :
    row.time + row.overtime = db.loggedOn zone orgId userId year month d := by
  have uncleared : ¬ (row.isHoliday = true ∨ row.isLeave = true) := by
    simp [regular.1, regular.2.1]
  have split : row.totalTime = row.time + row.overtime :=
    records.totalTime_iff.mpr fun cleared => absurd cleared uncleared
  rw [← split, records.totalTime, ← records.isLeave, if_neg uncleared,
    Db.dayTotals_dayHours]

end

/-- What all rows say is what all their days say. -/
theorem forall_rows_iff {α β : Type} {R : α → β → Prop} {P : β → Prop}
    {Q : α → Prop} {xs : List α} {ys : List β} (rows : List.Forall₂ R xs ys)
    (exactly : ∀ x y, R x y → (P y ↔ Q x)) :
    (∀ y ∈ ys, P y) ↔ ∀ x ∈ xs, Q x := by
  induction rows with
  | nil => simp
  | cons row _ ih =>
      rw [List.forall_mem_cons, exactly _ _ row, ih, List.forall_mem_cons]

theorem sumBy_add {α : Type} (f g : α → ℚ) (xs : List α) :
    sumBy (fun x => f x + g x) xs = sumBy f xs + sumBy g xs := by
  simp only [sumBy_eq, List.sum_map_add]

/-- A sum over some rows is the one over their days. -/
theorem sumBy_rows_eq {α β : Type} {R : α → β → Prop} {p : β → Prop}
    {q : α → Prop} [DecidablePred p] [DecidablePred q] {f : β → ℚ}
    {g : α → ℚ} {xs : List α} {ys : List β} (rows : List.Forall₂ R xs ys)
    (selected : ∀ x y, R x y → (p y ↔ q x))
    (same : ∀ x y, R x y → p y → f y = g x) :
    sumBy f (ys.filter fun y => p y) = sumBy g (xs.filter fun x => q x) := by
  induction rows with
  | nil => simp [sumBy_eq]
  | @cons x y xs ys row _ ih =>
      rw [List.filter_cons, List.filter_cons]
      simp only [← selected x y row]
      by_cases holds : p y
      · simp only [holds, decide_true, if_true, sumBy_cons, ih,
          same x y row holds]
      · simp only [holds, decide_false, Bool.false_eq_true, if_false, ih]

/-! ## Overtime -/

/-- Totals of rows split, and overtime is that of regular working days. -/
structure MonthlyTimesheetData.BooksOvertime (data : MonthlyTimesheetData) :
    Prop where
  split : ∀ row ∈ data.days, row.totalTime = row.time + row.overtime
  regular : ∀ row ∈ data.days, ¬ row.Regular → row.overtime = 0
  total : data.totalOvertime = sumBy (·.overtime) data.days

section

variable {db : Db} {host : Host} {orgId requestingUserId : Nat}
  {userId year month : Int} {role : UserRole} {data : MonthlyTimesheetData}

/-- Each row of a report is the one of a day. -/
theorem Db.ReportsMonth.rowOf
    (reports : db.ReportsMonth host.zone orgId userId year month data)
    {row : MonthlyDayRow} (listed : row ∈ data.days) :
    ∃ d, RowOf db host.zone orgId userId year month d row := by
  have every := forall_rows_iff reports.rows fun d row records =>
    iff_true_intro (⟨d, records⟩ :
      ∃ d, RowOf db host.zone orgId userId year month d row)
  exact every.mpr (fun _ _ => trivial) row listed

/-- The books are kept when other days have no overtime. -/
theorem Db.ReportsMonth.booksOvertime_iff
    (reports : db.ReportsMonth host.zone orgId userId year month data) :
    data.BooksOvertime ↔
      ∀ row ∈ data.days, ¬ row.Regular → row.overtime = 0 := by
  have nonneg : ∀ row ∈ data.days, 0 ≤ row.overtime := by
    intro row listed
    obtain ⟨d, records⟩ := reports.rowOf listed
    rw [records.overtime_eq]
    exact le_max_right _ _
  constructor
  · intro books
    exact books.regular
  · intro regular
    refine ⟨?_, regular, ?_⟩
    · intro row listed
      obtain ⟨d, records⟩ := reports.rowOf listed
      rw [records.totalTime_iff]
      intro cleared
      apply regular row listed
      rintro ⟨noHoliday, noLeave, -⟩
      rw [noHoliday, noLeave] at cleared
      simp at cleared
    · rw [reports.totalOvertime]
      exact (sumBy_filter_eq_iff nonneg MonthlyDayRow.Regular).mpr regular

theorem Db.ReportsMonth.booksOvertime_iff_days
    (reports : db.ReportsMonth host.zone orgId userId year month data) :
    data.BooksOvertime ↔
      ∀ d ∈ monthDays host.zone year month,
        ¬ db.WorkingDay host.zone orgId userId year month d →
          db.loggedOn host.zone orgId userId year month d ≤ 8 := by
  rw [reports.booksOvertime_iff]
  apply forall_rows_iff reports.rows
  intro d row records
  rw [records.regular_iff, records.overtime_eq, max_eq_right_iff, sub_nonpos]

/--
A report keeps its books of overtime exactly when nobody works longer than
eight hours on a holiday, on a day of leave or on a weekend.
-/
theorem overtime_books_iff (least : 1 ≤ month) (most : month ≤ 12)
    (answered : ((generateMonthlyTimesheetData host orgId userId year month
      requestingUserId role).exec db).1 = .ok data) :
    data.BooksOvertime ↔
      ∀ d ∈ monthDays host.zone year month,
        ¬ db.WorkingDay host.zone orgId userId year month d →
          db.loggedOn host.zone orgId userId year month d ≤ 8 :=
  (Db.reportsMonth least most answered).booksOvertime_iff_days

/-! ## Hours that count -/

theorem Db.workedOn_nonneg {zone : Zone} {d : Nat} :
    0 ≤ db.workedOn zone orgId userId year month d :=
  sumBy_nonneg fun reading _ => loggedHours_nonneg reading

/-- Without leave all hours of a day are hours of work. -/
theorem Db.workedOn_eq_loggedOn {zone : Zone} {d : Nat}
    (present : ¬ db.LeaveOn zone orgId userId year month d) :
    db.workedOn zone orgId userId year month d =
      db.loggedOn zone orgId userId year month d := by
  refine (sumBy_filter_eq_iff (fun reading _ => loggedHours_nonneg reading)
    fun reading => ¬ reading.1.OnLeaveProject).mpr ?_
  intro reading used onLeave
  unfold loggedHours
  by_cases hours : reading.2.hours > 0
  · exact absurd ⟨reading, used, .inr ⟨hours, not_not.mp onLeave⟩⟩ present
  · exact if_neg hours

/-- The totals of a report are the hours of the regular working days. -/
theorem Db.ReportsMonth.totals
    (reports : db.ReportsMonth host.zone orgId userId year month data) :
    data.totalHours + data.totalOvertime =
      sumBy (db.workedOn host.zone orgId userId year month)
        ((monthDays host.zone year month).filter fun d =>
          db.WorkingDay host.zone orgId userId year month d) := by
  rw [reports.totalHours, reports.totalOvertime, ← sumBy_add]
  refine sumBy_rows_eq reports.rows (fun d row records => records.regular_iff)
    ?_
  intro d row records regular
  rw [records.time_add_overtime regular,
    Db.workedOn_eq_loggedOn (records.regular_iff.mp regular).2]

/-- They are all hours of work when there are none on days of leave. -/
theorem Db.ReportsMonth.totals_iff
    (reports : db.ReportsMonth host.zone orgId userId year month data) :
    data.totalHours + data.totalOvertime =
        sumBy (db.workedOn host.zone orgId userId year month)
          ((monthDays host.zone year month).filter fun d =>
            db.WeekdayOn host.zone orgId year month d) ↔
      ∀ d ∈ monthDays host.zone year month,
        db.WeekdayOn host.zone orgId year month d →
          db.LeaveOn host.zone orgId userId year month d →
            db.workedOn host.zone orgId userId year month d = 0 := by
  have part : ((monthDays host.zone year month).filter fun d =>
      db.WorkingDay host.zone orgId userId year month d) =
        ((monthDays host.zone year month).filter fun d =>
          db.WeekdayOn host.zone orgId year month d).filter fun d =>
            ¬ db.LeaveOn host.zone orgId userId year month d := by
    rw [List.filter_filter]
    refine List.filter_congr fun d _ => ?_
    rw [← Bool.decide_and]
    exact decide_eq_decide.mpr and_comm
  rw [reports.totals, part, sumBy_filter_eq_iff fun d _ => Db.workedOn_nonneg]
  simp only [List.mem_filter, decide_eq_true_eq, not_not, and_imp]

/--
The totals of a report are the hours of work on the weekdays without leave, and
all hours of work exactly when no weekday with leave has any.  They are taken
from the cells that the report reads for a day, which are the ones named after
the day when the weeks of the user begin on Monday.
-/
theorem monthly_totals (least : 1 ≤ month) (most : month ≤ 12)
    (answered : ((generateMonthlyTimesheetData host orgId userId year month
      requestingUserId role).exec db).1 = .ok data) :
    data.totalHours + data.totalOvertime =
        sumBy (db.workedOn host.zone orgId userId year month)
          ((monthDays host.zone year month).filter fun d =>
            db.WorkingDay host.zone orgId userId year month d) ∧
      (data.totalHours + data.totalOvertime =
          sumBy (db.workedOn host.zone orgId userId year month)
            ((monthDays host.zone year month).filter fun d =>
              db.WeekdayOn host.zone orgId year month d) ↔
        ∀ d ∈ monthDays host.zone year month,
          db.WeekdayOn host.zone orgId year month d →
            db.LeaveOn host.zone orgId userId year month d →
              db.workedOn host.zone orgId userId year month d = 0) ∧
      (host.zone.Steady → 100 ≤ year →
        db.WeeksFrom host.zone orgId userId .monday →
          db.ColumnsRight host.zone orgId userId year month) := by
  have reports := Db.reportsMonth least most answered
  exact ⟨reports.totals, reports.totals_iff, fun steady late weeks =>
    Db.columnsRight_of_monday weeks steady late least most⟩

end

/-! ## A week with leave and a Saturday -/

/-- Half of Tuesday off, and ten hours on Saturday. -/
def mixedEntry : CreateTimeEntryDto where
  projectId := 1
  billable := none
  hours := { Week.const none with tue := some 4, sat := some 10 }
  desc := .const none
  timeOff := { Week.const none with tue := some 4 }

/-- Eve's week of `officeRun` with that entry added. -/
def mixedDb : Db :=
  (World.empty.run plainLibs
    (officeRun ++
      [.authenticated plainHost eve (.createEntry 1 mixedEntry)])).db

theorem officeDb_eve : ∃ user, officeDb.users.find? (fun u =>
    (u.id : Int) = 2 ∧ u.organisationId = 1) = some user :=
  Option.isSome_iff_exists.mp (by decide +kernel)

theorem mixedDb_eve : ∃ user, mixedDb.users.find? (fun u =>
    (u.id : Int) = 2 ∧ u.organisationId = 1) = some user :=
  Option.isSome_iff_exists.mp (by decide +kernel)

theorem overtime_books_iff_office : ∃ data,
    ((generateMonthlyTimesheetData plainHost 1 2 2024 1 1 .admin).exec
      officeDb).1 = .ok data ∧ data.BooksOvertime := by
  obtain ⟨user, found⟩ := officeDb_eve
  obtain ⟨data, answered⟩ := monthly_answers found
  refine ⟨data, answered, ?_⟩
  exact (overtime_books_iff (by decide) (by decide) answered).mpr
    (by decide +kernel)

/-- The ten hours of Saturday the sixth are two of overtime in its row. -/
theorem saturday_overtime : ∃ data,
    ((generateMonthlyTimesheetData plainHost 1 2 2024 1 1 .admin).exec
      mixedDb).1 = .ok data ∧ ¬ data.BooksOvertime := by
  obtain ⟨user, found⟩ := mixedDb_eve
  obtain ⟨data, answered⟩ := monthly_answers found
  refine ⟨data, answered, ?_⟩
  rw [(Db.reportsMonth (by decide) (by decide)
    answered).booksOvertime_iff_days]
  intro short
  have long : ¬ mixedDb.WorkingDay plainHost.zone 1 2 2024 1 6 ∧
      ¬ mixedDb.loggedOn plainHost.zone 1 2 2024 1 6 ≤ 8 := by
    decide +kernel
  exact long.2 (short 6 (by decide) long.1)

theorem monthly_totals_office : ∃ data,
    ((generateMonthlyTimesheetData plainHost 1 2 2024 1 1 .admin).exec
      officeDb).1 = .ok data ∧
      data.totalHours + data.totalOvertime =
        sumBy (officeDb.workedOn plainHost.zone 1 2 2024 1)
          ((monthDays plainHost.zone 2024 1).filter fun d =>
            officeDb.WorkingDay plainHost.zone 1 2 2024 1 d) ∧
      officeDb.ColumnsRight plainHost.zone 1 2 2024 1 := by
  obtain ⟨user, found⟩ := officeDb_eve
  obtain ⟨data, answered⟩ := monthly_answers found
  have january : (1 : Int) ≤ 1 ∧ (1 : Int) ≤ 12 := by decide
  obtain ⟨sum, -, columns⟩ := monthly_totals january.1 january.2 answered
  have weeks : officeDb.WeeksFrom plainHost.zone 1 2 .monday :=
    weeksFrom_of_starts plainHost.now 1 2 (by decide +kernel)
  exact ⟨data, answered, sum,
    columns (Zone.fixed_steady 0) (by decide) weeks⟩

/-- The four hours worked on Tuesday the second are in no sum. -/
theorem half_day_lost : ∃ data,
    ((generateMonthlyTimesheetData plainHost 1 2 2024 1 1 .admin).exec
      mixedDb).1 = .ok data ∧
      data.totalHours + data.totalOvertime ≠
        sumBy (mixedDb.workedOn plainHost.zone 1 2 2024 1)
          ((monthDays plainHost.zone 2024 1).filter fun d =>
            mixedDb.WeekdayOn plainHost.zone 1 2024 1 d) := by
  obtain ⟨user, found⟩ := mixedDb_eve
  obtain ⟨data, answered⟩ := monthly_answers found
  refine ⟨data, answered, ?_⟩
  rw [ne_eq, (Db.reportsMonth (by decide) (by decide) answered).totals_iff]
  intro none
  have worked : mixedDb.WeekdayOn plainHost.zone 1 2024 1 2 ∧
      mixedDb.LeaveOn plainHost.zone 1 2 2024 1 2 ∧
        mixedDb.workedOn plainHost.zone 1 2 2024 1 2 ≠ 0 := by
    decide +kernel
  exact worked.2.2 (none 2 (by decide) worked.1 worked.2.1)

end TmsApi
