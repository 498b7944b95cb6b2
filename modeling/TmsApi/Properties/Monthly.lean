import TmsApi.Core.Calendar
import TmsApi.Refinement.Runs
import TmsApi.Services.Reports
import Mathlib.Tactic.IntervalCases

/-!
# The columns a monthly timesheet reads

The export finds the column of a day by counting days from the start of a
week.  Its table of columns begins with Monday, so the count leads to the
column of the day itself for weeks that begin on Monday and to the column of
the following day for weeks that begin on Sunday.
-/

namespace TmsApi

open TmsApi.Core
open TmsApi.Core.Program

/-! ## Columns and what they hold -/

/-- The column named after the weekday of a day. -/
def weekdayOf (day : Int) : Weekday :=
  match (weekday day).toNat with
  | 0 => .sunday
  | 1 => .monday
  | 2 => .tuesday
  | 3 => .wednesday
  | 4 => .thursday
  | 5 => .friday
  | _ => .saturday

theorem weekdayOf_congr {left right : Int}
    (same : weekday left = weekday right) :
    weekdayOf left = weekdayOf right := by
  rw [weekdayOf, weekdayOf, same]

/-- The number `getDay` returns on the days of a column. -/
def Weekday.number : Weekday → Int
  | .sunday => 0
  | .monday => 1
  | .tuesday => 2
  | .wednesday => 3
  | .thursday => 4
  | .friday => 5
  | .saturday => 6

theorem weekdayOf_eq_iff (day : Int) (column : Weekday) :
    weekdayOf day = column ↔ weekday day = column.number := by
  have lower : 0 ≤ weekday day := by
    unfold weekday
    omega
  have upper : weekday day < 7 := by
    unfold weekday
    omega
  unfold weekdayOf
  generalize weekday day = number at *
  interval_cases number <;> cases column <;> decide

/-- Each column is named after one day of any seven consecutive ones. -/
theorem existsUnique_weekdayOf (start : Int) (column : Weekday) :
    ∃! day, (start ≤ day ∧ day < start + 7) ∧ weekdayOf day = column := by
  have range : 0 ≤ column.number ∧ column.number < 7 := by
    cases column <;> decide
  refine ⟨start + (column.number - weekday start) % 7, ⟨by omega, ?_⟩, ?_⟩
  · rw [weekdayOf_eq_iff]
    unfold weekday
    omega
  · rintro day ⟨covered, same⟩
    rw [weekdayOf_eq_iff] at same
    unfold weekday at *
    omega

/-- What an entry holds in the columns of one weekday. -/
structure DayCell where
  hours : ℚ
  timeOff : ℚ
  desc : Option String
deriving DecidableEq

def cellOf (entry : TimeEntry) (day : Weekday) : DayCell where
  hours := columnOf entry.hours day
  timeOff := columnOf entry.timeOff day
  desc := columnOf entry.desc day

/-- What a day takes from the cell of an entry. -/
def addCell (day : DayTotals) (reading : ReportEntry × DayCell) : DayTotals :=
  let cell := reading.2
  let pName := (reading.1.project.map (·.name)).getD ""
  let code := (reading.1.project.map (·.code)).getD ""
  let day :=
    if cell.hours > 0 then
      { day with
        dayHours := day.dayHours + cell.hours
        projectNames := pushNew day.projectNames pName
        taskDescs := pushNew day.taskDescs (cell.desc.getD "")
        isLeave := day.isLeave || mentionsLeave pName || mentionsLeave code }
    else day
  if cell.timeOff > 0 then
    { day with dayTimeOff := day.dayTimeOff + cell.timeOff, isLeave := true }
  else day

/-- The cells of a timesheet that the loop uses for a date. -/
def sheetReadings (date : Instant) (ts : ReportTimesheet) :
    List (ReportEntry × DayCell) :=
  match getDayKeyForDate date ts.timesheet.weekStartDate with
  | none => []
  | some dayKey => ts.timeEntries.map fun e => (e, cellOf e.entry dayKey)

/-- The inner loops add up these cells and nothing else. -/
theorem foldl_addTimesheet (date : Instant) (day : DayTotals)
    (timesheets : List ReportTimesheet) :
    timesheets.foldl (addTimesheet date) day =
      (timesheets.flatMap (sheetReadings date)).foldl addCell day := by
  induction timesheets generalizing day with
  | nil => rfl
  | cons ts timesheets ih =>
      rw [List.foldl_cons, List.flatMap_cons, List.foldl_append, ih]
      congr 1
      unfold addTimesheet sheetReadings
      cases getDayKeyForDate date ts.timesheet.weekStartDate with
      | none => rfl
      | some dayKey =>
          rw [List.foldl_map]
          rfl

/-- The row of a day shows what its entries add up to. -/
structure MonthlyDayRow.Shows (row : MonthlyDayRow) (day : DayTotals) :
    Prop where
  project : row.project = ", ".intercalate day.projectNames
  task : row.task = ", ".intercalate day.taskDescs
  totalTime : row.totalTime =
    if row.isHoliday ∨ day.isLeave then 0 else day.dayHours
  timeOff : row.timeOffHours = day.dayTimeOff
  isLeave : row.isLeave = day.isLeave

/-! ## Rows and sums of the loop -/

/-- A working day: no holiday, no leave, no weekend. -/
def MonthlyDayRow.Regular (row : MonthlyDayRow) : Prop :=
  row.isHoliday = false ∧ row.isLeave = false ∧ row.isWeekend = false

instance : DecidablePred MonthlyDayRow.Regular :=
  fun _ => inferInstanceAs (Decidable (_ ∧ _))

/-- The weekday of a day of a month. -/
def weekdayIn (year month : Int) (d : Nat) : Int :=
  weekday (localDay year (month - 1) d)

/-- The row of a day, by whether it is marked and what its entries are. -/
structure MonthlyDayRow.Records (row : MonthlyDayRow) (year month : Int)
    (d : Nat) (marked : Prop) (day : DayTotals) : Prop
    extends row.Shows day where
  date : row.date = padStart2 d ++ "-" ++ nameAt monthShort (month - 1)
  dayName : row.day = nameAt dayNames (weekdayIn year month d)
  isHoliday : row.isHoliday = true ↔ marked
  isWeekend : row.isWeekend = true ↔
    weekdayIn year month d = 0 ∨ weekdayIn year month d = 6
  time : row.time =
    if row.isHoliday ∨ row.isLeave then 0 else min day.dayHours 8
  overtime : row.overtime = if day.dayHours > 8 then day.dayHours - 8 else 0

/-- The sums of an export are those of its rows. -/
structure MonthlyTimesheetData.AddsUp (data : MonthlyTimesheetData) : Prop where
  totalHours : data.totalHours =
    sumBy (·.time) (data.days.filter fun row => row.Regular)
  totalOvertime : data.totalOvertime =
    sumBy (·.overtime) (data.days.filter fun row => row.Regular)
  holidayCount : data.holidayCount = data.days.countP (·.isHoliday)
  leaveCount : data.leaveCount = data.days.countP (·.isLeave)

/-- The rounds of the loop in between appended these rows. -/
structure MonthTotals.Extends (before after : MonthTotals)
    (rows : List MonthlyDayRow) : Prop where
  days : after.days = before.days ++ rows
  totalHours : after.totalHours = before.totalHours +
    sumBy (·.time) (rows.filter fun row => row.Regular)
  totalOvertime : after.totalOvertime = before.totalOvertime +
    sumBy (·.overtime) (rows.filter fun row => row.Regular)
  holidayCount : after.holidayCount =
    before.holidayCount + rows.countP (·.isHoliday)
  leaveCount : after.leaveCount =
    before.leaveCount + rows.countP (·.isLeave)

theorem MonthTotals.Extends.refl (totals : MonthTotals) :
    totals.Extends totals [] :=
  ⟨(List.append_nil _).symm, (add_zero _).symm, (add_zero _).symm, rfl, rfl⟩

theorem MonthTotals.Extends.trans {first second third : MonthTotals}
    {left right : List MonthlyDayRow} (before : first.Extends second left)
    (after : second.Extends third right) :
    first.Extends third (left ++ right) where
  days := by
    rw [after.days, before.days, List.append_assoc]
  totalHours := by
    rw [after.totalHours, before.totalHours, List.filter_append, sumBy_append,
      add_assoc]
  totalOvertime := by
    rw [after.totalOvertime, before.totalOvertime, List.filter_append,
      sumBy_append, add_assoc]
  holidayCount := by
    rw [after.holidayCount, before.holidayCount, List.countP_append, add_assoc]
  leaveCount := by
    rw [after.leaveCount, before.leaveCount, List.countP_append, add_assoc]

/-- A round appends one row, and adds its hours if the day is regular. -/
theorem MonthTotals.Extends.single {before after : MonthTotals}
    {row : MonthlyDayRow} (days : after.days = before.days ++ [row])
    (totalHours : after.totalHours =
      if row.Regular then before.totalHours + row.time else before.totalHours)
    (totalOvertime : after.totalOvertime =
      if row.Regular then before.totalOvertime + row.overtime
      else before.totalOvertime)
    (holidayCount : after.holidayCount =
      before.holidayCount + if row.isHoliday then 1 else 0)
    (leaveCount : after.leaveCount =
      before.leaveCount + if row.isLeave then 1 else 0) :
    before.Extends after [row] where
  days := days
  totalHours := by
    rw [totalHours]
    by_cases regular : row.Regular <;> simp [regular, sumBy_eq]
  totalOvertime := by
    rw [totalOvertime]
    by_cases regular : row.Regular <;> simp [regular, sumBy_eq]
  holidayCount := by
    rw [holidayCount, List.countP_singleton]
  leaveCount := by
    rw [leaveCount, List.countP_singleton]

section

variable {zone : Zone} {year month : Int} {map : List (String × String)}
  {timesheets : List ReportTimesheet}

/-- What the loop has of a day. -/
abbrev recordsOf (zone : Zone) (year month : Int)
    (map : List (String × String)) (timesheets : List ReportTimesheet)
    (d : Nat) (row : MonthlyDayRow) : Prop :=
  row.Records year month d (map.lookup (dateKey year month d)).isSome
    (timesheets.foldl (addTimesheet (localDate zone year (month - 1) d))
      ⟨0, 0, [], [], false⟩)

/-- One round of the loop adds the row of its day. -/
theorem addDay_extends (totals : MonthTotals) (d : Nat) :
    ∃ row, totals.Extends
        (addDay zone year month map timesheets totals d) [row] ∧
      recordsOf zone year month map timesheets d row := by
  have dayOfWeek : getDay zone (localDate zone year (month - 1) d) =
      weekdayIn year month d := by
    rw [getDay, localDate, zone.dayOf_midnight]
    rfl
  unfold recordsOf addDay
  dsimp only
  rw [dayOfWeek]
  generalize timesheets.foldl _ _ = day
  generalize map.lookup _ = holidayName
  refine ⟨_, .single rfl ?_ ?_ rfl rfl, ⟨rfl, rfl, ?_, rfl, rfl⟩, rfl, rfl,
    ?_, ?_, ?_, rfl⟩
  · dsimp only [MonthlyDayRow.Regular]
    cases holidayName <;> cases day.isLeave <;> simp
  · dsimp only [MonthlyDayRow.Regular]
    cases holidayName <;> cases day.isLeave <;> simp
  · dsimp only
  · rfl
  · exact decide_eq_true_iff
  · dsimp only

/-- The loop adds a row for each of its days. -/
theorem foldl_addDay_extends (ds : List Nat) (totals : MonthTotals) :
    ∃ rows, totals.Extends
        (ds.foldl (addDay zone year month map timesheets) totals) rows ∧
      List.Forall₂ (recordsOf zone year month map timesheets) ds rows := by
  induction ds generalizing totals with
  | nil => exact ⟨[], .refl totals, .nil⟩
  | cons d ds ih =>
      obtain ⟨row, round, records⟩ := addDay_extends totals d
      obtain ⟨rows, rest, all⟩ :=
        ih (addDay zone year month map timesheets totals d)
      exact ⟨row :: rows, round.trans rest, .cons records all⟩

end

/-! ## The column of a day -/

/-- Counting from a week's start leads to a column by the start's weekday. -/
theorem getDayKeyForDate_eq {zone : Zone} (steady : zone.Steady)
    (day start : Int) :
    getDayKeyForDate (zone.midnight day) (zone.midnight start) =
      if start ≤ day ∧ day < start + 7 then
        some (weekdayOf (day + 1 - weekday start))
      else none := by
  unfold getDayKeyForDate
  rw [steady.rounded_days]
  by_cases covered : start ≤ day ∧ day < start + 7
  · rw [if_pos covered]
    obtain ⟨index, rfl⟩ : ∃ index, day = start + index :=
      ⟨day - start, by omega⟩
    have column : weekdayOf (start + index + 1 - weekday start) =
        weekdayOf (index + 4) := by
      apply weekdayOf_congr
      unfold weekday
      omega
    rw [column, add_sub_cancel_left]
    have lower : 0 ≤ index := by omega
    have upper : index ≤ 6 := by omega
    interval_cases index <;> rfl
  · rw [if_neg covered]
    have outside : day - start < 0 ∨ day - start > 6 := by omega
    exact if_pos outside

/-- The column the loop reads for a day, by the first day of the weeks. -/
def WorkWeekStart.columnRead (setting : WorkWeekStart) (day : Int) : Weekday :=
  weekdayOf (day + 1 - setting.weekday)

/-! ## Days of a month -/

/-- The rounds of the loop over the days of a month. -/
def monthDays (zone : Zone) (year month : Int) : List Nat :=
  let monthEnd := localDate zone year month 0
  let daysInMonth := (civilFromDays (zone.dayOf monthEnd)).2.2
  (List.range daysInMonth.toNat).map (· + 1)

theorem localDay_eq {year : Int} (late : 100 ≤ year) (monthIndex day : Int) :
    localDay year monthIndex day =
      firstOfMonth (12 * year + monthIndex) + day - 1 := by
  have full : ¬ (0 ≤ year ∧ year ≤ 99) := by omega
  unfold localDay firstOfMonth
  simp only [if_neg full]
  rw [show (12 * year + monthIndex) / 12 = year + monthIndex / 12 by omega,
    show (12 * year + monthIndex) % 12 = monthIndex % 12 by omega]
  omega

/-- The days of a month, in order. -/
def calendarDays (year month : Int) : List Nat :=
  (List.range (monthLength (12 * year + month - 1)).toNat).map (· + 1)

/-- The loop goes through the days of the month in order. -/
theorem monthDays_eq (zone : Zone) {year month : Int} (late : 100 ≤ year) :
    monthDays zone year month = calendarDays year month := by
  have last : civilFromDays (zone.dayOf (localDate zone year month 0)) =
      ((12 * year + month - 1) / 12, (12 * year + month - 1) % 12 + 1,
        monthLength (12 * year + month - 1)) := by
    have long := firstOfMonth_strictMono
      (show 12 * year + month - 1 < 12 * year + month - 1 + 1 by omega)
    rw [localDate, zone.dayOf_midnight, civilFromDays_eq_iff, localDay_eq late,
      show 12 * ((12 * year + month - 1) / 12) +
        ((12 * year + month - 1) % 12 + 1) - 1 = 12 * year + month - 1 by omega]
    simp only [monthLength, Int.sub_add_cancel] at long ⊢
    exact ⟨by omega, by omega, by omega, le_rfl, by omega⟩
  simp only [monthDays, last, calendarDays]

theorem mem_monthDays {zone : Zone} {year month : Int} (late : 100 ≤ year)
    (d : Nat) :
    d ∈ monthDays zone year month ↔
      1 ≤ d ∧ (d : Int) ≤ monthLength (12 * year + month - 1) := by
  rw [monthDays_eq zone late, calendarDays]
  simp only [List.mem_map, List.mem_range]
  constructor
  · rintro ⟨index, below, rfl⟩
    omega
  · rintro ⟨least, most⟩
    exact ⟨d - 1, by omega, by omega⟩

/-- The report of a month searches the weeks that reach into it. -/
theorem searched (zone : Zone) {year month day start : Int}
    (late : 100 ≤ year) (date : ∃ d, civilFromDays day = (year, month, d))
    (covered : start ≤ day ∧ day < start + 7) :
    localDate zone year (month - 1) (-6) ≤ zone.midnight start ∧
      zone.midnight start ≤ localDate zone year month 6 := by
  obtain ⟨d, date⟩ := date
  rw [civilFromDays_eq_iff] at date
  obtain ⟨-, -, positive, last, rfl⟩ := date
  unfold monthLength at last
  simp only [localDate, zone.increasing.le_iff_le, localDay_eq late]
  rw [show 12 * year + (month - 1) = 12 * year + month - 1 by omega]
  rw [Int.sub_add_cancel] at last
  exact ⟨by omega, by omega⟩

namespace Db

/-- The timesheets of a user whose week contains a day. -/
def sheetsOn (db : Db) (zone : Zone) (orgId : Nat) (userId : Int)
    (day : Int) : List Timesheet :=
  db.timesheets.select fun t =>
    (t.userId : Int) = userId ∧ t.organisationId = orgId ∧
      zone.dayOf t.weekStartDate ≤ day ∧
        day < zone.dayOf t.weekStartDate + 7

/-- The entries of these timesheets. -/
def entriesOn (db : Db) (zone : Zone) (orgId : Nat) (userId : Int)
    (day : Int) : List ReportEntry :=
  (db.sheetsOn zone orgId userId day).flatMap fun t =>
    (db.reportTimesheet none t).timeEntries

/-- The cells named after a day, in the entries of its timesheets. -/
def ownCells (db : Db) (zone : Zone) (orgId : Nat) (userId : Int)
    (day : Int) : List (ReportEntry × DayCell) :=
  (db.entriesOn zone orgId userId day).map fun e =>
    (e, cellOf e.entry (weekdayOf day))

/-- The cells the report of a month uses in round `d` of its loop. -/
def usedCells (db : Db) (zone : Zone) (orgId : Nat) (userId year month : Int)
    (d : Nat) : List (ReportEntry × DayCell) :=
  (db.monthTimesheets orgId userId
    (localDate zone year (month - 1) (-6))
    (localDate zone year month 6)).flatMap
      (sheetReadings (localDate zone year (month - 1) d))

/-- What the loop adds up in a round are the cells it uses. -/
theorem dayTotals_usedCells (db : Db) (zone : Zone) (orgId : Nat)
    (userId year month : Int) (d : Nat) (day : DayTotals) :
    (db.monthTimesheets orgId userId
        (localDate zone year (month - 1) (-6))
        (localDate zone year month 6)).foldl
          (addTimesheet (localDate zone year (month - 1) d)) day =
      (db.usedCells zone orgId userId year month d).foldl addCell day :=
  foldl_addTimesheet _ _ _

/-- The export has the rows and the sums of the loop. -/
theorem wp_generateMonthlyTimesheetData (db : Db) (host : Host) (orgId : Nat)
    (userId year month : Int) (requestingUserId : Nat) (role : UserRole) :
    wp (generateMonthlyTimesheetData host orgId userId year month
      requestingUserId role) (fun answer _ => ∀ data, answer = .ok data →
        List.Forall₂ (recordsOf host.zone year month
            ((db.holidays.select fun h => h.organisationId = orgId).foldl
              (addHoliday host.zone year) [])
            (db.monthTimesheets orgId userId
              (localDate host.zone year (month - 1) (-6))
              (localDate host.zone year month 6)))
          (monthDays host.zone year month) data.days ∧ data.AddsUp) db := by
  have checked : wp (assertCanExport orgId userId requestingUserId role)
      (fun _ after => after = db) db := by
    cases role <;>
      simp [assertCanExport, getDirectReportIds, wp_whenever]
  rw [generateMonthlyTimesheetData, wp_bind]
  refine wp_mono ?_ checked
  rintro answer _ rfl
  cases answer with
  | error e =>
      intro data absurd
      cases absurd
  | ok passed =>
      simp only [andThen_ok, wp_bind, wp_query, wp_orThrow, andThen_error,
        reduceCtorEq, false_implies, implies_true, true_and, pure_eq, wp_done,
        Except.ok.injEq, forall_eq']
      intro user found
      obtain ⟨rows, total, records⟩ := foldl_addDay_extends
        (monthDays host.zone year month) ⟨[], 0, 0, 0, 0⟩
      obtain rfl := total.days
      refine ⟨records, ?_, ?_, ?_, ?_⟩
      · exact total.totalHours.trans (zero_add _)
      · exact total.totalOvertime.trans (zero_add _)
      · exact total.holidayCount.trans (zero_add _)
      · exact total.leaveCount.trans (zero_add _)

/-- Each row of the export shows the cells used in the round of its day. -/
theorem monthly_rows_usedCells (db : Db) (host : Host) (orgId : Nat)
    (userId year month : Int) (requestingUserId : Nat) (role : UserRole) :
    wp (generateMonthlyTimesheetData host orgId userId year month
      requestingUserId role) (fun answer _ => ∀ data, answer = .ok data →
        List.Forall₂ (fun d row => row.Shows
            ((db.usedCells host.zone orgId userId year month d).foldl addCell
              ⟨0, 0, [], [], false⟩))
          (monthDays host.zone year month) data.days) db := by
  refine wp_mono ?_ (db.wp_generateMonthlyTimesheetData host orgId userId year
    month requestingUserId role)
  intro answer _ made data answered
  refine (made data answered).1.imp ?_
  intro d row records
  rw [← dayTotals_usedCells]
  exact records.toShows

/-- Every timesheet of the user starts a week of a setting. -/
def WeeksFrom (db : Db) (zone : Zone) (orgId : Nat) (userId : Int)
    (setting : WorkWeekStart) : Prop :=
  ∀ t ∈ db.timesheets.rows, (t.userId : Int) = userId →
    t.organisationId = orgId →
      ∃ date, t.weekStartDate = getWeekStart zone date setting

variable {db : Db} {zone : Zone} {orgId : Nat} {userId : Int}
variable {setting : WorkWeekStart}

theorem WeeksFrom.start (weeks : db.WeeksFrom zone orgId userId setting)
    {t : Timesheet} (member : t ∈ db.timesheets.rows)
    (user : (t.userId : Int) = userId) (org : t.organisationId = orgId) :
    ∃ start, t.weekStartDate = zone.midnight start ∧
      weekday start = setting.weekday := by
  obtain ⟨date, produced⟩ := weeks t member user org
  refine ⟨_, produced.trans (getWeekStart_eq zone date setting), ?_⟩
  apply weekday_weekFloor
  · cases setting <;> decide
  · cases setting <;> decide

/-- The column the loop finds for a day in a timesheet. -/
theorem WeeksFrom.getDayKeyForDate
    (weeks : db.WeeksFrom zone orgId userId setting) (steady : zone.Steady)
    {t : Timesheet} (member : t ∈ db.timesheets.rows)
    (user : (t.userId : Int) = userId) (org : t.organisationId = orgId)
    (day : Int) :
    TmsApi.getDayKeyForDate (zone.midnight day) t.weekStartDate =
      if zone.dayOf t.weekStartDate ≤ day ∧
          day < zone.dayOf t.weekStartDate + 7 then
        some (setting.columnRead day)
      else none := by
  obtain ⟨start, produced, first⟩ := weeks.start member user org
  rw [produced, getDayKeyForDate_eq steady, zone.dayOf_midnight, first]
  rfl

/-- For each day the loop uses the same column of the entries of its week. -/
theorem usedCells_eq (weeks : db.WeeksFrom zone orgId userId setting)
    (steady : zone.Steady) {day year month : Int} {d : Nat}
    (late : 100 ≤ year) (date : civilFromDays day = (year, month, (d : Int))) :
    db.usedCells zone orgId userId year month d =
      (db.entriesOn zone orgId userId day).map fun e =>
        (e, cellOf e.entry (setting.columnRead day)) := by
  have instant : localDate zone year (month - 1) d = zone.midnight day := by
    rw [civilFromDays_eq_iff] at date
    rw [localDate, localDay_eq late, date.2.2.2.2,
      show 12 * year + (month - 1) = 12 * year + month - 1 by omega]
  unfold usedCells monthTimesheets entriesOn sheetsOn
  rw [List.flatMap_map, List.map_flatMap, instant]
  apply Table.flatMap_select
  · rintro t member ⟨user, org, -⟩ ⟨-, -, covered⟩
    unfold sheetReadings
    have column := weeks.getDayKeyForDate steady member user org day
    rw [if_pos covered] at column
    simp only [reportTimesheet, column]
  · rintro t member ⟨user, org, -⟩ apart
    unfold sheetReadings
    have column := weeks.getDayKeyForDate steady member user org day
    rw [if_neg fun covered => apart ⟨user, org, covered⟩] at column
    simp only [reportTimesheet, column]
  · rintro t member ⟨user, org, covered⟩ apart
    obtain ⟨start, produced, -⟩ := weeks.start member user org
    rw [produced, zone.dayOf_midnight] at covered
    have inside := searched zone late ⟨d, date⟩ covered
    rw [← produced] at inside
    exact absurd ⟨user, org, inside⟩ apart

/-- The report of a month uses a column of a timesheet in a round. -/
def UsesColumn (db : Db) (zone : Zone) (orgId : Nat) (userId : Int)
    (t : Timesheet) (column : Weekday) (year month : Int) (d : Nat) : Prop :=
  d ∈ monthDays zone year month ∧
    ∃ ts ∈ db.monthTimesheets orgId userId
        (localDate zone year (month - 1) (-6)) (localDate zone year month 6),
      ts.timesheet = t ∧
        TmsApi.getDayKeyForDate (localDate zone year (month - 1) d)
          t.weekStartDate = some column

/-- The date is one of a report, and its report uses the column for it. -/
def AttributedTo (db : Db) (zone : Zone) (orgId : Nat) (userId : Int)
    (t : Timesheet) (column : Weekday) (date : Int × Int × Nat) : Prop :=
  100 ≤ date.1 ∧ (1 ≤ date.2.1 ∧ date.2.1 ≤ 12) ∧
    db.UsesColumn zone orgId userId t column date.1 date.2.1 date.2.2

/-- Over the reports of all months each column is used for one date. -/
def ColumnsOnce (db : Db) (zone : Zone) (orgId : Nat) (userId : Int) : Prop :=
  ∀ t ∈ db.timesheets.rows, (t.userId : Int) = userId →
    t.organisationId = orgId →
      100 ≤ (civilFromDays (zone.dayOf t.weekStartDate)).1 →
        ∀ column, ∃! date, db.AttributedTo zone orgId userId t column date

/-- The report of a month uses the cells named after each of its days. -/
structure ColumnsRight (db : Db) (zone : Zone) (orgId : Nat) (userId : Int)
    (year month : Int) : Prop where
  days : ∀ d : Nat, d ∈ monthDays zone year month ↔
    ∃ day, civilFromDays day = (year, month, (d : Int))
  cells : ∀ (day : Int) (d : Nat),
    civilFromDays day = (year, month, (d : Int)) →
      db.usedCells zone orgId userId year month d =
        db.ownCells zone orgId userId day

/-- A day of a month is one of the rounds of its report. -/
theorem mem_monthDays_iff {year month : Int} (late : 100 ≤ year)
    (least : 1 ≤ month) (most : month ≤ 12) (d : Nat) :
    d ∈ monthDays zone year month ↔
      ∃ day, civilFromDays day = (year, month, (d : Int)) := by
  simp only [mem_monthDays late, civilFromDays_eq_iff]
  constructor
  · rintro ⟨positive, last⟩
    exact ⟨_, least, most, by omega, last, rfl⟩
  · rintro ⟨day, -, -, positive, last, -⟩
    exact ⟨by omega, last⟩

/-- A date of the reports is the one of its day. -/
theorem attributedTo_iff (weeks : db.WeeksFrom zone orgId userId setting)
    (steady : zone.Steady) {t : Timesheet} (member : t ∈ db.timesheets.rows)
    (user : (t.userId : Int) = userId) (org : t.organisationId = orgId)
    (column : Weekday) {day year month : Int} {d : Nat}
    (date : civilFromDays day = (year, month, (d : Int))) :
    db.AttributedTo zone orgId userId t column (year, month, d) ↔
      100 ≤ year ∧ (zone.dayOf t.weekStartDate ≤ day ∧
        day < zone.dayOf t.weekStartDate + 7) ∧
          setting.columnRead day = column := by
  have key := weeks.getDayKeyForDate steady member user org day
  have bounds := civilFromDays_eq_iff.mp date
  have instant (late : 100 ≤ year) :
      localDate zone year (month - 1) d = zone.midnight day := by
    rw [localDate, localDay_eq late, bounds.2.2.2.2,
      show 12 * year + (month - 1) = 12 * year + month - 1 by omega]
  constructor
  · rintro ⟨late, -, -, ts, -, -, used⟩
    dsimp only at late used
    rw [instant late, key] at used
    split at used
    · rename_i covered
      exact ⟨late, covered, Option.some.inj used⟩
    · cases used
  · rintro ⟨late, covered, same⟩
    refine ⟨late, ⟨bounds.1, bounds.2.1⟩, ?_, db.reportTimesheet none t, ?_,
      rfl, ?_⟩
    · exact (mem_monthDays_iff late bounds.1 bounds.2.1 d).mpr ⟨day, date⟩
    · obtain ⟨start, produced, -⟩ := weeks.start member user org
      have inside := covered
      rw [produced, zone.dayOf_midnight] at inside
      have within := searched zone late ⟨d, date⟩ inside
      rw [← produced] at within
      exact List.mem_map_of_mem (Table.mem_select.mpr
        ⟨member, user, org, within⟩)
    · dsimp only
      rw [instant late, key, if_pos covered, same]

/-- With weeks from Monday the count leads to the columns of the days. -/
theorem columnsRight_of_monday (weeks : db.WeeksFrom zone orgId userId .monday)
    (steady : zone.Steady) {year month : Int} (late : 100 ≤ year)
    (least : 1 ≤ month) (most : month ≤ 12) :
    db.ColumnsRight zone orgId userId year month where
  days := mem_monthDays_iff late least most
  cells := by
    intro day d date
    rw [usedCells_eq weeks steady late date, ownCells,
      WorkWeekStart.columnRead, WorkWeekStart.weekday, add_sub_cancel_right]

/-- No column is lost between two months and none is used twice. -/
theorem columnsOnce (weeks : db.WeeksFrom zone orgId userId setting)
    (steady : zone.Steady) : db.ColumnsOnce zone orgId userId := by
  intro t member user org late column
  obtain ⟨shifted, ⟨covered, named⟩, unique⟩ := existsUnique_weekdayOf
    (zone.dayOf t.weekStartDate + 1 - setting.weekday) column
  let day := shifted - 1 + setting.weekday
  have read : setting.columnRead day = column := by
    rw [WorkWeekStart.columnRead, show day + 1 - setting.weekday = shifted by
      omega]
    exact named
  rcases date : civilFromDays day with ⟨year, month, dayOfMonth⟩
  have bounds := civilFromDays_eq_iff.mp date
  lift dayOfMonth to Nat using (by omega) with d
  have lateYear : 100 ≤ year := by
    have later := monthOf_mono (show zone.dayOf t.weekStartDate ≤ day by omega)
    have index : year = monthOf day / 12 := by
      rw [(monthOf_spec day).2.2, Prod.mk.injEq] at date
      exact date.1.symm
    rw [(monthOf_spec _).2.2] at late
    dsimp only at late
    omega
  refine ⟨(year, month, d), ?_, ?_⟩
  · exact (attributedTo_iff weeks steady member user org column date).mpr
      ⟨lateYear, by omega, read⟩
  · rintro ⟨otherYear, otherMonth, otherD⟩ attributed
    have attributes := attributed
    obtain ⟨otherLate, bounds, round, -⟩ := attributes
    obtain ⟨other, otherDate⟩ :=
      (mem_monthDays_iff otherLate bounds.1 bounds.2 otherD).mp round
    obtain ⟨-, otherCovered, otherRead⟩ :=
      (attributedTo_iff weeks steady member user org column otherDate).mp
        attributed
    have same := unique (other + 1 - setting.weekday)
      ⟨by omega, otherRead⟩
    have sameDay : other = day := by omega
    rw [sameDay, date] at otherDate
    simp only [Prod.mk.injEq] at otherDate ⊢
    omega

end Db

/--
The rows of a monthly report show the cells that it uses for its days.  These
are the ones named after the days, and the reports together use each column
once, exactly when weeks begin on Monday or the entries of the month hold the
same in the column of a day and in that of the following weekday.
-/
theorem monthly_columns_iff {db : Db} {host : Host} {orgId : Nat}
    {userId : Int} {setting : WorkWeekStart} (steady : host.zone.Steady)
    (weeks : db.WeeksFrom host.zone orgId userId setting) {year month : Int}
    (late : 100 ≤ year) (least : 1 ≤ month) (most : month ≤ 12) :
    (∀ (requestingUserId : Nat) (role : UserRole) (data : MonthlyTimesheetData),
      ((generateMonthlyTimesheetData host orgId userId year month
        requestingUserId role).exec db).1 = .ok data →
        List.Forall₂ (fun d row => row.Shows
            ((db.usedCells host.zone orgId userId year month d).foldl addCell
              ⟨0, 0, [], [], false⟩))
          (monthDays host.zone year month) data.days) ∧
    (db.ColumnsRight host.zone orgId userId year month ∧
        db.ColumnsOnce host.zone orgId userId ↔
      setting = .monday ∨
        ∀ (day : Int) (d : Nat),
          civilFromDays day = (year, month, (d : Int)) →
            ∀ e ∈ db.entriesOn host.zone orgId userId day,
              cellOf e.entry (weekdayOf (day + 1)) =
                cellOf e.entry (weekdayOf day)) := by
  have same {day : Int} {d : Nat}
      (date : civilFromDays day = (year, month, (d : Int))) :
      db.usedCells host.zone orgId userId year month d =
          db.ownCells host.zone orgId userId day ↔
        ∀ e ∈ db.entriesOn host.zone orgId userId day,
          cellOf e.entry (setting.columnRead day) =
            cellOf e.entry (weekdayOf day) := by
    rw [Db.usedCells_eq weeks steady late date, Db.ownCells, List.map_inj_left]
    simp only [Prod.mk.injEq, true_and]
  refine ⟨fun requestingUserId role data => db.monthly_rows_usedCells host
    orgId userId year month requestingUserId role data, ?_⟩
  cases setting with
  | monday =>
      refine iff_of_true ⟨?_, Db.columnsOnce weeks steady⟩ (.inl rfl)
      exact Db.columnsRight_of_monday weeks steady late least most
  | sunday =>
      simp only [WorkWeekStart.columnRead, WorkWeekStart.weekday, sub_zero]
        at same
      constructor
      · rintro ⟨right, -⟩
        exact .inr fun day d date => (same date).mp (right.cells day d date)
      · rintro (absurd | repeats)
        · cases absurd
        · exact ⟨⟨Db.mem_monthDays_iff late least most, fun day d date =>
            (same date).mpr (repeats day d date)⟩,
            Db.columnsOnce weeks steady⟩

/-! ## A week that begins on Sunday -/

/-- All timesheets are for one week of the setting. -/
theorem weeksFrom_of_starts {db : Db} {zone : Zone} {setting : WorkWeekStart}
    (date : Instant) (orgId : Nat) (userId : Int)
    (starts : ∀ t ∈ db.timesheets.rows,
      t.weekStartDate = getWeekStart zone date setting) :
    db.WeeksFrom zone orgId userId setting :=
  fun t member _ _ => ⟨date, starts t member⟩

/-- Eight hours on Monday the first of January, in a week of a setting. -/
def newYearDb (setting : WorkWeekStart) : Db :=
  (World.empty.run plainLibs
    [.register "acme" "ada@acme",
      .setSettings ada { sameSettings with workWeekStart := some setting },
      .addProject ada "A",
      .authenticated plainHost ada (.createTimesheet ⟨january 1⟩),
      .authenticated plainHost ada (.createEntry 1 (mondayEntry 1 8))]).db

theorem newYearDb_weeks (setting : WorkWeekStart) :
    (newYearDb setting).WeeksFrom plainHost.zone 1 1 setting := by
  have starts : ∀ t ∈ (newYearDb setting).timesheets.rows,
      t.weekStartDate = getWeekStart plainHost.zone plainHost.now setting := by
    cases setting <;> decide +kernel
  exact weeksFrom_of_starts plainHost.now 1 1 starts

theorem monthly_columns_iff_monday :
    (newYearDb .monday).ColumnsRight plainHost.zone 1 1 2024 1 ∧
      (newYearDb .monday).ColumnsOnce plainHost.zone 1 1 := by
  have steady : plainHost.zone.Steady := Zone.fixed_steady 0
  exact (monthly_columns_iff steady (newYearDb_weeks .monday) (by decide)
    (by decide) (by decide)).2.mpr (.inl rfl)

/--
The hours of Monday the first appear on the Sunday before it, in the report of
December, and the exported January has none.
-/
theorem sunday_hours_shifted :
    plainHost.zone.Steady ∧
    (newYearDb .sunday).WeeksFrom plainHost.zone 1 1 .sunday ∧
    ((newYearDb .sunday).usedCells plainHost.zone 1 1 2024 1 1).map
      (·.2.hours) = [0] ∧
    ((newYearDb .sunday).ownCells plainHost.zone 1 1 19723).map
      (·.2.hours) = [8] ∧
    ((newYearDb .sunday).usedCells plainHost.zone 1 1 2023 12 31).map
      (·.2.hours) = [8] ∧
    ((generateMonthlyTimesheetData plainHost 1 1 2024 1 1 .admin).exec
      (newYearDb .sunday)).1.toOption.map
        (fun data => data.days.map (·.totalTime)) =
      some (List.replicate 31 0) ∧
    ¬ (newYearDb .sunday).ColumnsRight plainHost.zone 1 1 2024 1 := by
  have used : ((newYearDb .sunday).usedCells plainHost.zone 1 1 2024 1 1).map
      (·.2.hours) = [0] := by
    decide +kernel
  have own : ((newYearDb .sunday).ownCells plainHost.zone 1 1 19723).map
      (·.2.hours) = [8] := by
    decide +kernel
  refine ⟨Zone.fixed_steady 0, newYearDb_weeks .sunday, used, own,
    by decide +kernel, by decide +kernel, ?_⟩
  intro right
  rw [right.cells 19723 1 (by decide), own] at used
  exact absurd used (by decide +kernel)

end TmsApi
