import TmsApi.Core.Csv
import TmsApi.Core.Sheet
import TmsApi.Services.Reports

/-!
# The exports of `utils/exportHelpers.ts`

`numberToString` is `Number.prototype.toString`.  The dates of a stored
timesheet are dates, so the branch of `toDateStr` for strings is not reached.
A workbook is the sheet the code fills: the values of its cells and the
colours they are filled with.  What ExcelJS makes of it in the file (a carriage
return in a text becomes a line feed) is outside of it, and so are fonts,
borders, widths and the merging of cells.
-/

namespace TmsApi

open TmsApi.Core

def toDateStr (d : Instant) : String :=
  toDateString d

/-- A comma, a quote or a line feed puts the value into quotes. -/
def escapeCsv (val : String) : String :=
  if ',' ∈ val.toList ∨ Csv.quote ∈ val.toList ∨ '\n' ∈ val.toList then
    String.ofList (Csv.quote :: Csv.double val.toList ++ [Csv.quote])
  else val

def csvHeaders : List String :=
  ["Employee", "Email", "Department", "Week Start", "Week End", "Total Hours",
    "Billable Hours", "Status"]

section

variable (numberToString : ℚ → String)

/-- The row of a timesheet; only the columns of the user are escaped. -/
def csvRow (ts : ReportTimesheet) : List String :=
  [escapeCsv ((ts.user.map (·.name)).getD ""),
    escapeCsv ((ts.user.map (·.email)).getD ""),
    escapeCsv ((ts.user.bind (·.department)).getD ""),
    toDateStr ts.timesheet.weekStartDate, toDateStr ts.timesheet.weekEndDate,
    numberToString ts.timesheet.totalHours,
    numberToString ts.timesheet.billableHours, ts.timesheet.status.text]

def csvSummary (aggregates : ReportAggregates) : List (List String) :=
  [[],
    ["Summary"],
    ["Total Hours", numberToString aggregates.totalHours],
    ["Billable Hours", numberToString aggregates.billableHours],
    ["Non-Billable Hours", numberToString aggregates.nonBillableHours],
    ["Utilization %", numberToString aggregates.utilization ++ "%"],
    ["Timesheet Count", numberToString aggregates.timesheetCount]]

def generateCSV (data : Report) : String :=
  "\n".intercalate
    (",".intercalate csvHeaders ::
      (data.timesheets.map fun ts => ",".intercalate (csvRow numberToString ts))
        ++ (csvSummary numberToString data.aggregates).map (",".intercalate ·))

end

/-! ## Workbooks -/

/-- The columns that are written. -/
inductive Column where
  | a | b | c | d | e | f | g | h
deriving DecidableEq

inductive CellValue where
  | text (s : String)
  | number (q : ℚ)
deriving DecidableEq

structure SheetCell where
  value : Option CellValue
  fill : Option String
deriving DecidableEq

abbrev SheetRow := Column → SheetCell

namespace SheetRow

def blank : SheetRow :=
  fun _ => ⟨none, none⟩

/-- `row.getCell(col).value = value`. -/
def set (row : SheetRow) (col : Column) (value : CellValue) : SheetRow :=
  Function.update row col { row col with value := some value }

/-- `row.getCell(col).fill`, a solid pattern, for some columns. -/
def shade (row : SheetRow) (cols : List Column) (argb : String) : SheetRow :=
  fun col => if col ∈ cols then { row col with fill := some argb } else row col

end SheetRow

/-- The columns of a timesheet. -/
def sheetColumns : List Column :=
  [.a, .b, .c, .d, .e, .f, .g]

/-- The cells of a row of the report, from the first on. -/
def reportCells (values : List CellValue) (row : SheetRow) : SheetRow :=
  ([Column.a, .b, .c, .d, .e, .f, .g, .h].zip values).foldl
    (fun row cell => row.set cell.1 cell.2) row

section

variable (numberToString : ℚ → String)

/-- The values of a timesheet's row. -/
def excelRow (ts : ReportTimesheet) : List CellValue :=
  [.text ((ts.user.map (·.name)).getD ""),
    .text ((ts.user.map (·.email)).getD ""),
    .text ((ts.user.bind (·.department)).getD ""),
    .text (toDateStr ts.timesheet.weekStartDate),
    .text (toDateStr ts.timesheet.weekEndDate),
    .number ts.timesheet.totalHours, .number ts.timesheet.billableHours,
    .text ts.timesheet.status.text]

/-- The cells A and B of a row of the summary. -/
def summaryCells (label : String) (value : CellValue) (row : SheetRow) :
    SheetRow :=
  (row.set .a (.text label)).set .b value

/-- The sheet `Report`, before ExcelJS writes it to the buffer. -/
def generateExcel (data : Report) : Sheet SheetRow :=
  let sheet := (Sheet.empty SheetRow.blank).edit 1 fun row =>
    (reportCells (csvHeaders.map .text) row).shade
      [.a, .b, .c, .d, .e, .f, .g, .h] "FF2C5F7C"
  let sheet := data.timesheets.foldl
    (fun sheet ts => sheet.addRow (reportCells (excelRow ts))) sheet
  let gap := sheet.rowCount + 2
  let aggregates := data.aggregates
  let sheet := sheet.edit gap (·.set .a (.text "Summary"))
  let sheet := sheet.edit (gap + 1)
    (summaryCells "Total Hours" (.number aggregates.totalHours))
  let sheet := sheet.edit (gap + 2)
    (summaryCells "Billable Hours" (.number aggregates.billableHours))
  let sheet := sheet.edit (gap + 3)
    (summaryCells "Non-Billable Hours" (.number aggregates.nonBillableHours))
  sheet.edit (gap + 4)
    (summaryCells "Utilization %"
      (.text (numberToString aggregates.utilization ++ "%")))

end

/-! ## The workbook of a monthly timesheet -/

def orangeHeader : String := "FFE8A44C"

def holidayBg : String := "FFFFE0E0"

def leaveYellow : String := "FFFFFF00"

def leaveBg : String := "FFFFFFCC"

def weekendBg : String := "FFF0F0F0"

/-- `text.padStart(width, fill)`. -/
def padStart (width : Nat) (fill : Char) (text : String) : String :=
  String.ofList (List.replicate (width - text.length) fill ++ text.toList)

/-- `n || ''`. -/
def numberOrBlank (n : ℚ) : CellValue :=
  if n = 0 then .text "" else .number n

/-- `isHoliday ? HOLIDAY_BG : isLeave ? LEAVE_BG : isWeekend ? WEEKEND_BG`. -/
def bgColor (day : MonthlyDayRow) : Option String :=
  if day.isHoliday then some holidayBg
  else if day.isLeave then some leaveBg
  else if day.isWeekend then some weekendBg
  else none

/-- The row of a day: its values, and then its colours. -/
def writeDay (day : MonthlyDayRow) (row : SheetRow) : SheetRow :=
  let row := (row.set .a (.text day.date)).set .b (.text day.day)
  let row :=
    if day.isHoliday then
      (row.set .c (.text day.project)).set .d
        (.text ("Holiday - " ++ day.holidayName.getD "Holiday"))
    else if day.isLeave then
      (row.set .c (.text day.project)).set .d (.text "Leave")
    else (row.set .c (.text day.project)).set .d (.text day.task)
  let row := row.set .e
    (if day.isLeave then numberOrBlank day.timeOffHours
      else numberOrBlank day.time)
  let row := row.set .f (numberOrBlank day.overtime)
  let row := row.set .g (numberOrBlank day.totalTime)
  let row :=
    match bgColor day with
    | some argb => row.shade sheetColumns argb
    | none => row
  if day.isHoliday then row
  else if day.isLeave then row.shade [.d] leaveYellow
  else row

/-- The row of name, code and process. -/
def writeName (data : MonthlyTimesheetData) (row : SheetRow) : SheetRow :=
  let row := (row.set .a (.text "Name -")).set .b (.text data.employeeName)
  let row := (row.set .d (.text "Emp Code")).set .e
    (.text ("EMP" ++ padStart 4 '0' (toString data.employeeId)))
  (row.set .f (.text "Process")).set .g
    (.text (if data.department = "" then "Fullsteam" else data.department))

def writeMonth (data : MonthlyTimesheetData) (row : SheetRow) : SheetRow :=
  (row.set .a (.text "Month -")).set .b (.text data.month)

/-- The column headers. -/
def writeHeaders (row : SheetRow) : SheetRow :=
  (reportCells
    (["Date", "Day", "Project / BD Lead /Others activity", "Task", "Time",
      "Over time", "Total Time"].map .text) row).shade sheetColumns
        orangeHeader

/--
The row of the sums.  `mergeCells` joins A to D; here B, C and D stay without a
value.
-/
def writeTotal (data : MonthlyTimesheetData) (row : SheetRow) : SheetRow :=
  let row := (row.set .a (.text "Total Working Hours")).set .e
    (.number data.totalHours)
  let row := (row.set .f (.number data.totalOvertime)).set .g
    (.number (data.totalHours + data.totalOvertime))
  row.shade sheetColumns orangeHeader

/--
A row with the number of days of a kind.  `mergeCells` joins A to F; here B to F
stay as they are, without the colour of A.
-/
def writeCount (label : String) (count : Nat) (argb : String)
    (row : SheetRow) : SheetRow :=
  ((row.set .a (.text label)).set .g (.number count)).shade [.a, .g] argb

def generateMonthlyTimesheetExcel (data : MonthlyTimesheetData) :
    Sheet SheetRow :=
  let sheet := (Sheet.empty SheetRow.blank).edit 1 (writeName data)
  let sheet := sheet.edit 2 (writeMonth data)
  let sheet := sheet.edit 4 writeHeaders
  let (sheet, rowNum) := Sheet.writeRows writeDay (sheet, 5) data.days
  let sheet := sheet.edit rowNum (writeTotal data)
  let sheet := sheet.edit (rowNum + 1)
    (writeCount "Holiday" data.holidayCount holidayBg)
  sheet.edit (rowNum + 2) (writeCount "Leave" data.leaveCount leaveBg)

end TmsApi
