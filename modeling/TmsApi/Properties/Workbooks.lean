import TmsApi.Properties.CsvExport
import Mathlib.Data.List.DropRight

/-!
# The workbook of a report

The workbook of a report and its CSV file are written by different loops, yet
the file is what the workbook is when it is saved as one.
-/

namespace TmsApi

open TmsApi.Core

/-! ## A workbook as a CSV file -/

theorem escapeCsv_plain {s : String} (plain : PlainText s) :
    escapeCsv s = s := by
  refine if_neg ?_
  rintro (comma | quoted | feed)
  · exact (plain _ comma).1.1 rfl
  · exact (plain _ quoted).1.2.2 rfl
  · exact (plain _ feed).1.2.1 rfl

/-- The values of a row. -/
def SheetRow.values (row : SheetRow) : List (Option CellValue) :=
  [(row .a).value, (row .b).value, (row .c).value, (row .d).value,
    (row .e).value, (row .f).value, (row .g).value, (row .h).value]

section

variable (numberToString : ℚ → String)

def CellValue.print : CellValue → String
  | .text s => s
  | .number q => numberToString q

/-- The line of a row: up to its last cell with a value, a comma between. -/
def csvLine (row : SheetRow) : String :=
  ",".intercalate ((row.values.rdropWhile (·.isNone)).map fun value =>
    escapeCsv ((value.map (CellValue.print numberToString)).getD ""))

/-- The lines of a sheet, down to its last row. -/
def csvLines (sheet : Sheet SheetRow) : List String :=
  (sheet.rows 1 sheet.rowCount).map (csvLine numberToString)

/-- The rows below the table of a report. -/
def summaryRows (aggregates : ReportAggregates) : List SheetRow :=
  [SheetRow.blank,
    SheetRow.blank.set .a (.text "Summary"),
    summaryCells "Total Hours" (.number aggregates.totalHours) SheetRow.blank,
    summaryCells "Billable Hours" (.number aggregates.billableHours)
      SheetRow.blank,
    summaryCells "Non-Billable Hours" (.number aggregates.nonBillableHours)
      SheetRow.blank,
    summaryCells "Utilization %"
      (.text (numberToString aggregates.utilization ++ "%")) SheetRow.blank]

/-- The headers of a report. -/
def reportHeader : SheetRow :=
  (reportCells (csvHeaders.map .text) SheetRow.blank).shade
    [.a, .b, .c, .d, .e, .f, .g, .h] "FF2C5F7C"

variable {numberToString}

/-- The workbook has the headers, a row a timesheet, and the summary. -/
theorem generateExcel_holds (data : Report) :
    (generateExcel numberToString data).Holds SheetRow.blank
      (reportHeader ::
        (data.timesheets.map fun ts =>
          reportCells (excelRow ts) SheetRow.blank) ++
        summaryRows numberToString data.aggregates) := by
  have first : 1 = (Sheet.empty SheetRow.blank).rowCount + 1 := rfl
  have header := (Sheet.Holds.empty SheetRow.blank).edit_next first fun row =>
    (reportCells (csvHeaders.map .text) row).shade
      [.a, .b, .c, .d, .e, .f, .g, .h] "FF2C5F7C"
  have table := header.addRows
    (fun ts : ReportTimesheet => reportCells (excelRow ts)) data.timesheets
  unfold generateExcel
  dsimp only
  refine (((((table.edit 1 rfl _).edit_next ?_ _).edit_next ?_ _).edit_next
    ?_ _).edit_next ?_ _).cast ?_
  · rw [Sheet.rowCount_edit]
    omega
  · rw [Sheet.rowCount_edit, Sheet.rowCount_edit]
    omega
  · rw [Sheet.rowCount_edit, Sheet.rowCount_edit, Sheet.rowCount_edit]
    omega
  · simp only [Sheet.rowCount_edit]
    omega
  · simp [summaryRows, reportHeader]

/-- Cells without a value at the end of a row are left out of its line. -/
theorem csvLine_of_values {row : SheetRow} (values : List CellValue)
    (unused : Nat)
    (filled : row.values = values.map some ++ List.replicate unused none) :
    csvLine numberToString row =
      ",".intercalate (values.map fun value =>
        escapeCsv (value.print numberToString)) := by
  have kept : row.values.rdropWhile (·.isNone) = values.map some := by
    rw [filled, List.rdropWhile, List.reverse_append,
      List.dropWhile_append_of_pos]
    · rw [← List.rdropWhile, List.rdropWhile_eq_self_iff]
      intro nonempty
      rw [List.getLast_map]
      simp
    · simp +contextual
  rw [csvLine, kept, List.map_map]
  rfl

theorem csvLine_reportHeader :
    csvLine numberToString reportHeader = ",".intercalate csvHeaders := by
  rw [csvLine_of_values (csvHeaders.map .text) 0 rfl, List.map_map]
  congr 1
  have plain : ∀ header ∈ csvHeaders, PlainText header := by
    decide
  exact (List.map_congr_left fun header member =>
    escapeCsv_plain (plain header member)).trans (List.map_id _)

/-- Dates, numbers and statuses are the same with quotes where needed. -/
theorem csvLine_reportCells (plain : ∀ q, PlainText (numberToString q))
    (ts : ReportTimesheet) :
    csvLine numberToString (reportCells (excelRow ts) SheetRow.blank) =
      ",".intercalate (csvRow numberToString ts) := by
  rw [csvLine_of_values (excelRow ts) 0 rfl]
  simp only [excelRow, csvRow, List.map_cons, List.map_nil, CellValue.print,
    escapeCsv_plain (plain_toDateStr _), escapeCsv_plain (plain _),
    escapeCsv_plain (plain_status _)]

/-- A row with a label, and a value next to it. -/
theorem csvLine_labelled {label text : String} (plainLabel : PlainText label)
    (plainText : PlainText text) {value : CellValue}
    (prints : value.print numberToString = text) :
    csvLine numberToString (summaryCells label value SheetRow.blank) =
      ",".intercalate [label, text] := by
  rw [csvLine_of_values [.text label, value] 6 rfl, List.map_cons,
    List.map_singleton, prints, escapeCsv_plain plainText]
  exact congrArg (",".intercalate [·, text]) (escapeCsv_plain plainLabel)

/-- The summary of the file has the number of timesheets as well. -/
theorem csvSummary_eq (plain : ∀ q, PlainText (numberToString q))
    (aggregates : ReportAggregates) :
    (csvSummary numberToString aggregates).map (",".intercalate ·) =
      (summaryRows numberToString aggregates).map (csvLine numberToString) ++
        ["Timesheet Count," ++ numberToString aggregates.timesheetCount] := by
  have percent : PlainText (numberToString aggregates.utilization ++ "%") :=
    (plain _).append (by decide)
  have plainTitle : PlainText "Summary" := by
    decide
  have title : csvLine numberToString
      (SheetRow.blank.set .a (.text "Summary")) = "Summary" :=
    (csvLine_of_values [.text "Summary"] 7 rfl).trans
      (escapeCsv_plain plainTitle)
  have gap : csvLine numberToString SheetRow.blank = "" :=
    csvLine_of_values [] 8 rfl
  rw [summaryRows, List.map_cons, List.map_cons, List.map_cons, List.map_cons,
    List.map_cons, List.map_singleton, gap, title,
    csvLine_labelled (by decide) (plain _) rfl,
    csvLine_labelled (by decide) (plain _) rfl,
    csvLine_labelled (by decide) (plain _) rfl,
    csvLine_labelled (by decide) percent rfl]
  rfl

/--
The file is the workbook of the report saved as one, and a line with the number
of timesheets behind it.
-/
theorem generateCSV_eq_workbook (plain : ∀ q, PlainText (numberToString q))
    (data : Report) :
    generateCSV numberToString data =
      "\n".intercalate
        (csvLines numberToString (generateExcel numberToString data) ++
          ["Timesheet Count," ++
            numberToString data.aggregates.timesheetCount]) := by
  have table : (data.timesheets.map fun ts =>
      csvLine numberToString (reportCells (excelRow ts) SheetRow.blank)) =
        data.timesheets.map fun ts =>
          ",".intercalate (csvRow numberToString ts) :=
    List.map_congr_left fun ts _ => csvLine_reportCells plain ts
  rw [csvLines, (generateExcel_holds data).rows_all, generateCSV,
    csvSummary_eq plain, List.map_append, List.map_cons, List.map_map,
    csvLine_reportHeader, ← table, ← List.append_assoc]
  rfl

end

theorem generateCSV_eq_workbook_special :
    generateCSV numberText specialReport =
      "\n".intercalate
        (csvLines numberText (generateExcel numberText specialReport) ++
          ["Timesheet Count," ++
            numberText specialReport.aggregates.timesheetCount]) :=
  generateCSV_eq_workbook plain_numberText specialReport

end TmsApi
