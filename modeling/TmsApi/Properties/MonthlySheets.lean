import TmsApi.Properties.WorkingHours
import TmsApi.Services.Exports

/-!
# The workbook of a monthly timesheet

The workbook has a row a day between its headers and three rows of sums.  Its
cells and their colours are all that is left of the exported data: a reader
gets back everything but the tasks of shaded days and leave that falls on a
holiday without any time off.
-/

namespace TmsApi

open TmsApi.Core
open TmsApi.Core.Program

/-! ## Rows of the workbook -/

/-- The rows of the workbook from top to bottom. -/
theorem generateMonthlyTimesheetExcel_holds (data : MonthlyTimesheetData) :
    (generateMonthlyTimesheetExcel data).Holds SheetRow.blank
      ([writeName data SheetRow.blank, writeMonth data SheetRow.blank,
          SheetRow.blank, writeHeaders SheetRow.blank] ++
        (data.days.map fun day => writeDay day SheetRow.blank) ++
        [writeTotal data SheetRow.blank,
          writeCount "Holiday" data.holidayCount holidayBg SheetRow.blank,
          writeCount "Leave" data.leaveCount leaveBg SheetRow.blank]) := by
  have headers : ((((Sheet.empty SheetRow.blank).edit 1 (writeName data)).edit
      2 (writeMonth data)).edit 4 writeHeaders).Holds SheetRow.blank
        [writeName data SheetRow.blank, writeMonth data SheetRow.blank,
          SheetRow.blank, writeHeaders SheetRow.blank] :=
    (((Sheet.Holds.empty SheetRow.blank).edit_next rfl _).edit_next
      rfl _).edit 1 rfl _
  have first : 5 = ((((Sheet.empty SheetRow.blank).edit 1
      (writeName data)).edit 2 (writeMonth data)).edit 4
        writeHeaders).rowCount + 1 := rfl
  obtain ⟨days, next⟩ := headers.writeRows first writeDay data.days
  have rowCount := days.rowCount
  unfold generateMonthlyTimesheetExcel
  dsimp only
  rw [next]
  refine (((days.edit_next ?_ _).edit_next ?_ _).edit_next ?_ _).cast ?_
  · rw [rowCount]
    simp
    omega
  · rw [Sheet.rowCount_edit, rowCount]
    simp
    omega
  · rw [Sheet.rowCount_edit, Sheet.rowCount_edit, rowCount]
    simp
    omega
  · simp

/-! ## What a reader gets back -/

/-- The number of a cell; none is zero. -/
def SheetCell.readNumber (cell : SheetCell) : ℚ :=
  match cell.value with
  | some (.number q) => q
  | _ => 0

/-- A day as the workbook shows it. -/
def MonthlyDayRow.shown (row : MonthlyDayRow) : MonthlyDayRow :=
  { row with
    task := if row.isHoliday ∨ row.isLeave then "" else row.task
    isLeave :=
      if row.isHoliday then decide (row.timeOffHours ≠ 0) else row.isLeave }

/-- A timesheet as the workbook shows it. -/
def MonthlyTimesheetData.shown (data : MonthlyTimesheetData) :
    MonthlyTimesheetData :=
  { data with
    department :=
      if data.department = "" then "Fullsteam" else data.department
    monthFull := ""
    days := data.days.map MonthlyDayRow.shown }

/-- What every row of an export keeps. -/
structure MonthlyDayRow.Kept (row : MonthlyDayRow) : Prop where
  named : row.holidayName.isSome = row.isHoliday
  weekend : row.isWeekend = true ↔ row.day ∈ ["Saturday", "Sunday"]
  cleared : row.isHoliday = true ∨ row.isLeave = true → row.time = 0
  present : row.isLeave = false → row.timeOffHours = 0

theorem SheetCell.readNumber_of {cell : SheetCell} {n : ℚ}
    (value : cell.value = some (numberOrBlank n)) : cell.readNumber = n := by
  rw [readNumber, value]
  unfold numberOrBlank
  by_cases zero : n = 0
  · rw [if_pos zero, zero]
  · rw [if_neg zero]

section

variable (day : MonthlyDayRow)

/-- The text of the task column. -/
def taskText : String :=
  if day.isHoliday then "Holiday - " ++ day.holidayName.getD "Holiday"
  else if day.isLeave then "Leave"
  else day.task

/-- The values of a day's row. -/
theorem writeDay_values :
    ((writeDay day SheetRow.blank .a).value = some (.text day.date) ∧
      (writeDay day SheetRow.blank .b).value = some (.text day.day) ∧
      (writeDay day SheetRow.blank .c).value = some (.text day.project) ∧
      (writeDay day SheetRow.blank .d).value = some (.text (taskText day))) ∧
    (writeDay day SheetRow.blank .e).value = some (numberOrBlank
        (if day.isLeave then day.timeOffHours else day.time)) ∧
      (writeDay day SheetRow.blank .f).value =
        some (numberOrBlank day.overtime) ∧
      (writeDay day SheetRow.blank .g).value =
        some (numberOrBlank day.totalTime) := by
  unfold writeDay bgColor taskText
  cases day.isHoliday <;> cases day.isLeave <;> cases day.isWeekend <;>
    exact ⟨⟨rfl, rfl, rfl, rfl⟩, rfl, rfl, rfl⟩

/-- The colour of a day's row. -/
theorem writeDay_fill :
    (writeDay day SheetRow.blank .a).fill = bgColor day := by
  unfold writeDay bgColor
  cases day.isHoliday <;> cases day.isLeave <;> cases day.isWeekend <;> rfl

variable {day}

/-- The colour of a row tells a holiday, and leave on other days. -/
theorem bgColor_eq :
    (bgColor day = some holidayBg ↔ day.isHoliday = true) ∧
      (bgColor day = some leaveBg ↔
        day.isHoliday = false ∧ day.isLeave = true) ∧
      (bgColor day = none ↔ day.Regular) := by
  unfold bgColor MonthlyDayRow.Regular
  cases day.isHoliday <;> cases day.isLeave <;> cases day.isWeekend <;> decide

end

section

variable (data : MonthlyTimesheetData)

/-- Where the rows of the workbook are. -/
theorem generateMonthlyTimesheetExcel_rows :
    ((generateMonthlyTimesheetExcel data).rowCount = data.days.length + 7 ∧
      (generateMonthlyTimesheetExcel data).row 1 =
        writeName data SheetRow.blank ∧
      (generateMonthlyTimesheetExcel data).row 2 =
        writeMonth data SheetRow.blank) ∧
    (generateMonthlyTimesheetExcel data).rows 5 data.days.length =
        (data.days.map fun day => writeDay day SheetRow.blank) ∧
      (generateMonthlyTimesheetExcel data).row (data.days.length + 5) =
        writeTotal data SheetRow.blank ∧
      (generateMonthlyTimesheetExcel data).row (data.days.length + 6) =
        writeCount "Holiday" data.holidayCount holidayBg SheetRow.blank ∧
      (generateMonthlyTimesheetExcel data).row (data.days.length + 7) =
        writeCount "Leave" data.leaveCount leaveBg SheetRow.blank := by
  have holds := generateMonthlyTimesheetExcel_holds data
  refine ⟨⟨?_, holds.row 0, holds.row 1⟩, ?_, ?_, ?_, ?_⟩
  · rw [holds.rowCount]
    simp
  · refine (holds.rows (show 4 + data.days.length ≤ _ from ?_)).trans ?_
    · simp
      omega
    · simp
  · rw [holds.row (data.days.length + 4),
      List.getD_append_right _ _ _ _ (by simp)]
    simp
  · rw [holds.row (data.days.length + 5),
      List.getD_append_right _ _ _ _ (by simp)]
    simp
  · rw [holds.row (data.days.length + 6),
      List.getD_append_right _ _ _ _ (by simp)]
    simp

variable {data}

end

/-! ## Rows of an export -/

section

variable {zone : Zone} {year month : Int} {map : List (String × String)}
  {timesheets : List ReportTimesheet}

end

section

variable {db : Db} {host : Host} {orgId requestingUserId : Nat}
  {userId year month : Int} {role : UserRole} {data : MonthlyTimesheetData}

/-- The rows of the days that are not shaded. -/
def plainRows (rows : List SheetRow) : List SheetRow :=
  rows.filter fun row => (row .a).fill = none

/--
The three rows behind those of the days have the sums of the rows without a
colour, and the number of rows with that of a holiday.
-/
structure SheetAddsUp (sheet : Sheet SheetRow) (days : Nat) : Prop where
  rowCount : sheet.rowCount = days + 7
  time : (sheet.row (days + 5) .e).readNumber =
    sumBy (fun row => (row .e).readNumber) (plainRows (sheet.rows 5 days))
  overtime : (sheet.row (days + 5) .f).readNumber =
    sumBy (fun row => (row .f).readNumber) (plainRows (sheet.rows 5 days))
  total : (sheet.row (days + 5) .g).readNumber =
    sumBy (fun row => (row .g).readNumber) (plainRows (sheet.rows 5 days))
  holidays : (sheet.row (days + 6) .g).readNumber =
    (sheet.rows 5 days).countP fun row => (row .a).fill = some holidayBg

theorem plainRows_workbook :
    plainRows (data.days.map fun day => writeDay day SheetRow.blank) =
      (data.days.filter fun day => day.Regular).map fun day =>
        writeDay day SheetRow.blank := by
  rw [plainRows, List.filter_map]
  congr 1
  refine List.filter_congr fun day _ => ?_
  rw [Function.comp_apply, writeDay_fill]
  exact decide_eq_decide.mpr bgColor_eq.2.2

theorem sumBy_map {α β : Type} (f : β → ℚ) (g : α → β) (xs : List α) :
    sumBy f (xs.map g) = sumBy (fun x => f (g x)) xs := by
  simp only [sumBy_eq, List.map_map]
  rfl

/-- The sums of an export are those of the rows a reader sees. -/
theorem Db.ReportsMonth.sheetAddsUp
    (reports : db.ReportsMonth host.zone orgId userId year month data) :
    SheetAddsUp (generateMonthlyTimesheetExcel data)
      (monthDays host.zone year month).length := by
  obtain ⟨⟨rowCount, -, -⟩, days, total, holidays, -⟩ :=
    generateMonthlyTimesheetExcel_rows data
  rw [reports.rows.length_eq]
  have hours : ∀ day ∈ data.days.filter fun day => day.Regular,
      (writeDay day SheetRow.blank .e).readNumber = day.time ∧
      (writeDay day SheetRow.blank .f).readNumber = day.overtime ∧
      (writeDay day SheetRow.blank .g).readNumber =
        day.time + day.overtime := by
    intro day member
    obtain ⟨listed, regular⟩ := List.mem_filter.mp member
    replace regular := of_decide_eq_true regular
    obtain ⟨-, time, overtime, totalTime⟩ := writeDay_values day
    rw [regular.2.1] at time
    obtain ⟨d, records⟩ := reports.rowOf listed
    have split : day.totalTime = day.time + day.overtime := by
      rw [records.totalTime_iff, regular.1, regular.2.1]
      simp
    rw [SheetCell.readNumber_of time, SheetCell.readNumber_of overtime,
      SheetCell.readNumber_of totalTime, split]
    exact ⟨rfl, rfl, rfl⟩
  refine ⟨rowCount, ?_, ?_, ?_, ?_⟩
  · rw [total, days, plainRows_workbook, sumBy_map,
      sumBy_congr fun day member => (hours day member).1]
    exact reports.totalHours
  · rw [total, days, plainRows_workbook, sumBy_map,
      sumBy_congr fun day member => (hours day member).2.1]
    exact reports.totalOvertime
  · rw [total, days, plainRows_workbook, sumBy_map,
      sumBy_congr fun day member => (hours day member).2.2, sumBy_add]
    exact congrArg₂ (· + ·) reports.totalHours reports.totalOvertime
  · have counted : ((writeCount "Holiday" data.holidayCount holidayBg
        SheetRow.blank) .g).readNumber = data.holidayCount :=
      rfl
    rw [holidays, days, counted, reports.holidayCount, List.countP_map]
    congr 1
    refine List.countP_congr fun day _ => ?_
    rw [Function.comp_apply, writeDay_fill, decide_eq_true_iff]
    exact bgColor_eq.1.symm

/-- Nothing is counted out when nothing counted is left out. -/
theorem countP_filter_eq_iff {α : Type} {p q : α → Bool} {xs : List α} :
    xs.countP p = (xs.filter q).countP p ↔ ∀ x ∈ xs, p x → q x := by
  rw [xs.countP_eq_countP_filter_add p q, Nat.add_eq_left, List.countP_eq_zero]
  simp only [List.mem_filter, Bool.not_eq_true', and_imp]
  refine forall₂_congr fun x _ => ?_
  cases p x <;> cases q x <;> decide

/-- The row of a day is one of leave when its entries say so. -/
theorem MonthlyDayRow.Records.leave_iff {zone : Zone} {d : Nat}
    {row : MonthlyDayRow}
    (records : RowOf db zone orgId userId year month d row) :
    row.isLeave = true ↔ db.LeaveOn zone orgId userId year month d := by
  rw [records.isLeave]
  exact (foldl_addCell_isLeave _ _).trans (or_iff_right Bool.false_ne_true)

/-- The number of leave is that of its rows unless it falls on a holiday. -/
theorem Db.ReportsMonth.leaveRows_iff
    (reports : db.ReportsMonth host.zone orgId userId year month data) :
    (((generateMonthlyTimesheetExcel data).row
        ((monthDays host.zone year month).length + 7) .g).readNumber =
      (((generateMonthlyTimesheetExcel data).rows 5
        (monthDays host.zone year month).length).countP fun row =>
          (row .a).fill = some leaveBg)) ↔
      ∀ d ∈ monthDays host.zone year month,
        db.LeaveOn host.zone orgId userId year month d →
          ¬ db.MarkedOn host.zone orgId year month d := by
  obtain ⟨-, days, -, -, leaves⟩ := generateMonthlyTimesheetExcel_rows data
  have counted : ((writeCount "Leave" data.leaveCount leaveBg
      SheetRow.blank) .g).readNumber = data.leaveCount :=
    rfl
  have shaded : ((data.days.map fun day => writeDay day SheetRow.blank).countP
      fun row => (row .a).fill = some leaveBg) =
        (data.days.filter fun day => ¬ day.isHoliday).countP (·.isLeave) := by
    rw [List.countP_map, List.countP_filter]
    refine List.countP_congr fun day _ => ?_
    rw [Function.comp_apply, writeDay_fill, decide_eq_true_iff,
      bgColor_eq.2.1]
    simp [and_comm]
  rw [reports.rows.length_eq, leaves, days, counted, shaded,
    reports.leaveCount, Nat.cast_inj, countP_filter_eq_iff]
  refine forall_rows_iff reports.rows fun d row records => ?_
  rw [decide_eq_true_iff, records.isHoliday, records.leave_iff]

/--
The sums of an exported workbook are those of its rows: the hours are the ones
of the days without a colour, which are the hours of work on regular working
days, and the leave is that of the rows in its colour exactly when none falls
on a holiday.  The hours are those of the cells that the report reads, which are
the ones named after the days when the weeks of the user begin on Monday.
-/
theorem monthly_workbook_adds_up (least : 1 ≤ month) (most : month ≤ 12)
    (answered : ((generateMonthlyTimesheetData host orgId userId year month
      requestingUserId role).exec db).1 = .ok data) :
    let sheet := generateMonthlyTimesheetExcel data
    let days := (monthDays host.zone year month).length
    SheetAddsUp sheet days ∧
    (sheet.row (days + 5) .g).readNumber =
      sumBy (db.workedOn host.zone orgId userId year month)
        ((monthDays host.zone year month).filter fun d =>
          db.WorkingDay host.zone orgId userId year month d) ∧
    ((sheet.row (days + 7) .g).readNumber =
        ((sheet.rows 5 days).countP fun row => (row .a).fill = some leaveBg) ↔
      ∀ d ∈ monthDays host.zone year month,
        db.LeaveOn host.zone orgId userId year month d →
          ¬ db.MarkedOn host.zone orgId year month d) ∧
    (host.zone.Steady → 100 ≤ year →
      db.WeeksFrom host.zone orgId userId .monday →
        db.ColumnsRight host.zone orgId userId year month) := by
  have reports := Db.reportsMonth least most answered
  refine ⟨reports.sheetAddsUp, ?_, reports.leaveRows_iff, fun steady late
    weeks => Db.columnsRight_of_monday weeks steady late least most⟩
  rw [reports.rows.length_eq,
    (generateMonthlyTimesheetExcel_rows data).2.2.1, ← reports.totals]
  rfl

end

/-! ## The workbook of a week with leave -/

theorem monthly_workbook_adds_up_mixed : ∃ data,
    ((generateMonthlyTimesheetData plainHost 1 2 2024 1 1 .admin).exec
      mixedDb).1 = .ok data ∧
      SheetAddsUp (generateMonthlyTimesheetExcel data)
        (monthDays plainHost.zone 2024 1).length ∧
      mixedDb.ColumnsRight plainHost.zone 1 2 2024 1 := by
  obtain ⟨user, found⟩ := mixedDb_eve
  obtain ⟨data, answered⟩ := monthly_answers found
  have january : (1 : Int) ≤ 1 ∧ (1 : Int) ≤ 12 := by decide
  obtain ⟨sums, -, -, columns⟩ :=
    monthly_workbook_adds_up january.1 january.2 answered
  have weeks : mixedDb.WeeksFrom plainHost.zone 1 2 .monday :=
    weeksFrom_of_starts plainHost.now 1 2 (by decide +kernel)
  exact ⟨data, answered, sums,
    columns (Zone.fixed_steady 0) (by decide) weeks⟩

end TmsApi
