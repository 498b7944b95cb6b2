import TmsApi.Services.Exports

/-!
# The CSV export is lossless

The rows of the export are derivations of the grammar of `TmsApi.Core.Csv`: the
columns of the user are written in quotes where they need it, and dates,
numbers and statuses need none.  So a reader gets back the values that were
written, whatever characters the name, the address or the department has.
-/

namespace TmsApi

open TmsApi.Core

/-- The text needs no quotes, wherever it stands in a record. -/
def PlainText (s : String) : Prop :=
  ∀ c ∈ s.toList, (c ≠ ',' ∧ c ≠ '\n' ∧ c ≠ Csv.quote) ∧ c ≠ '\r'

instance : DecidablePred PlainText :=
  fun s => List.decidableBAll _ s.toList

/-! ## Values without special characters -/

theorem PlainText.append {left right : String} (first : PlainText left)
    (second : PlainText right) : PlainText (left ++ right) := by
  intro c member
  rw [String.toList_append, List.mem_append] at member
  rcases member with inFirst | inSecond
  · exact first c inFirst
  · exact second c inSecond

/-- Digits, and the characters between and before them. -/
theorem plain_of_digit {c : Char} (digit : c ∈ "0123456789-+.".toList) :
    (c ≠ ',' ∧ c ≠ '\n' ∧ c ≠ Csv.quote) ∧ c ≠ '\r' := by
  have plain : PlainText "0123456789-+." := by
    decide
  exact plain c digit

theorem mem_digits {width n : Nat} {c : Char} (member : c ∈ digits width n) :
    c ∈ "0123456789-+.".toList := by
  induction width generalizing n with
  | zero => cases member
  | succ width ih =>
      rcases List.mem_append.mp member with front | last
      · exact ih front
      · rw [List.mem_singleton.mp last]
        have every : ∀ k < 10, Nat.digitChar k ∈ "0123456789-+.".toList := by
          decide
        exact every _ (Nat.mod_lt _ (by decide))

theorem plain_toDateStr (d : Instant) : PlainText (toDateStr d) := by
  intro c member
  apply plain_of_digit
  simp only [toDateStr, toDateString, isoYear, String.toList_ofList,
    List.mem_append, List.mem_cons] at member
  rcases member with (year | dash | month) | dash | day
  · split at year
    · exact mem_digits year
    · rcases List.mem_cons.mp year with sign | year
      · split at sign <;> rw [sign] <;> decide
      · exact mem_digits year
  · rw [dash]
    decide
  · exact mem_digits month
  · rw [dash]
    decide
  · exact mem_digits day

theorem plain_status (status : TimesheetStatus) : PlainText status.text := by
  cases status <;> decide

/-! ## Derivations of the export -/

/-- A text and the way it stands in a record. -/
def Written (text code : String) : Prop :=
  Csv.Field text.toList code.toList

theorem written_escapeCsv (val : String) : Written val (escapeCsv val) := by
  unfold Written escapeCsv
  split
  · rw [String.toList_ofList]
    exact .quoted _
  · rename_i plain
    push Not at plain
    refine .bare _ ?_
    intro c member
    refine ⟨?_, ?_, ?_⟩
    · rintro rfl
      exact plain.1 member
    · rintro rfl
      exact plain.2.2 member
    · rintro rfl
      exact plain.2.1 member

theorem written_plain {s : String} (plain : PlainText s) : Written s s :=
  .bare _ fun c member => (plain c member).1

/-- Joined by commas, values are a record. -/
theorem record_join {texts codes : List String}
    (written : List.Forall₂ Written texts codes)
    (last : ∃ text ∈ texts.getLast?, PlainText text) :
    Csv.Record (texts.map String.toList) (",".intercalate codes).toList := by
  induction written with
  | nil =>
      obtain ⟨text, absurd, -⟩ := last
      cases absurd
  | @cons text code texts codes field rest ih =>
      cases rest with
      | nil =>
          obtain ⟨text, isLast, plain⟩ := last
          cases isLast
          rw [String.intercalate_singleton]
          exact .last field fun c member => (plain c member).2
      | @cons next nextCode texts codes nextField rest =>
          rw [List.getLast?_cons_cons] at last
          have record := ih last
          rw [String.intercalate_cons_cons, String.toList_append,
            String.toList_append, List.append_assoc]
          exact .cons field record

/-- A record and the line it is written in. -/
def WrittenLine (texts : List String) (line : String) : Prop :=
  Csv.Record (texts.map String.toList) line.toList

/-- Joined by line feeds, lines are a file. -/
theorem file_join {records : List (List String)} {lines : List String}
    (written : List.Forall₂ WrittenLine records lines)
    (last : ∃ texts ∈ records.getLast?, texts.map String.toList ≠ [[]]) :
    Csv.File (records.map (·.map String.toList))
      ("\n".intercalate lines).toList := by
  induction written with
  | nil =>
      obtain ⟨texts, absurd, -⟩ := last
      cases absurd
  | @cons texts line records lines record rest ih =>
      cases rest with
      | nil =>
          obtain ⟨texts, isLast, nonempty⟩ := last
          cases isLast
          rw [String.intercalate_singleton]
          exact .last record nonempty
      | @cons next nextLine records lines nextRecord rest =>
          rw [List.getLast?_cons_cons] at last
          have file := ih last
          rw [String.intercalate_cons_cons, String.toList_append,
            String.toList_append, List.append_assoc]
          exact .cons record file

/-! ## What a reader gets back -/

/-- The records of a text. -/
def parseCsv (text : String) : Option (List (List String)) :=
  (Csv.parse text.toList).map (·.map (·.map String.ofList))

theorem parseCsv_file {records : List (List String)} {text : String}
    (written : Csv.File (records.map (·.map String.toList)) text.toList) :
    parseCsv text = some records := by
  rw [parseCsv, Csv.parse_file written, Option.map_some, List.map_map]
  refine congrArg some (List.map_id'' (fun texts => ?_) records)
  exact (List.map_map ..).trans
    (List.map_id'' (fun s => String.ofList_toList) texts)

section

variable (numberToString : ℚ → String)

/-- The values of a timesheet's row. -/
def csvFields (ts : ReportTimesheet) : List String :=
  [(ts.user.map (·.name)).getD "", (ts.user.map (·.email)).getD "",
    (ts.user.bind (·.department)).getD "",
    toDateStr ts.timesheet.weekStartDate, toDateStr ts.timesheet.weekEndDate,
    numberToString ts.timesheet.totalHours,
    numberToString ts.timesheet.billableHours, ts.timesheet.status.text]

/-- The records of the summary; an empty line has one empty field. -/
def summaryRecords (aggregates : ReportAggregates) : List (List String) :=
  [[""],
    ["Summary"],
    ["Total Hours", numberToString aggregates.totalHours],
    ["Billable Hours", numberToString aggregates.billableHours],
    ["Non-Billable Hours", numberToString aggregates.nonBillableHours],
    ["Utilization %", numberToString aggregates.utilization ++ "%"],
    ["Timesheet Count", numberToString aggregates.timesheetCount]]

variable {numberToString}

theorem written_csvRow (plain : ∀ q, PlainText (numberToString q))
    (ts : ReportTimesheet) :
    WrittenLine (csvFields numberToString ts)
      (",".intercalate (csvRow numberToString ts)) := by
  refine record_join ?_ ⟨_, rfl, plain_status _⟩
  refine .cons (written_escapeCsv _) (.cons (written_escapeCsv _)
    (.cons (written_escapeCsv _) ?_))
  refine .cons (written_plain (plain_toDateStr _))
    (.cons (written_plain (plain_toDateStr _)) ?_)
  refine .cons (written_plain (plain _)) (.cons (written_plain (plain _)) ?_)
  exact .cons (written_plain (plain_status _)) .nil

/-- A line of plain values. -/
theorem written_plainLine {texts : List String} (nonempty : texts ≠ [])
    (plain : ∀ text ∈ texts, PlainText text) :
    WrittenLine texts (",".intercalate texts) := by
  refine record_join ?_ ⟨texts.getLast nonempty,
    List.getLast?_eq_getLast_of_ne_nil nonempty,
    plain _ (List.getLast_mem nonempty)⟩
  exact List.forall₂_same.mpr fun text member =>
    written_plain (plain text member)

theorem written_summary (plain : ∀ q, PlainText (numberToString q))
    (aggregates : ReportAggregates) :
    List.Forall₂ WrittenLine (summaryRecords numberToString aggregates)
      ((csvSummary numberToString aggregates).map (",".intercalate ·)) := by
  have labelled {label value : String} (plainLabel : PlainText label)
      (plainValue : PlainText value) :
      WrittenLine [label, value] (",".intercalate [label, value]) :=
    written_plainLine (List.cons_ne_nil _ _) (List.forall_mem_cons.mpr
      ⟨plainLabel, List.forall_mem_singleton.mpr plainValue⟩)
  have percent : PlainText (numberToString aggregates.utilization ++ "%") :=
    (plain _).append (by decide)
  refine .cons ?_ (.cons ?_ ?_)
  · exact written_plainLine (List.cons_ne_nil _ _) (by decide)
  · exact written_plainLine (List.cons_ne_nil _ _) (by decide)
  refine .cons (labelled (by decide) (plain _))
    (.cons (labelled (by decide) (plain _)) ?_)
  refine .cons (labelled (by decide) (plain _))
    (.cons (labelled (by decide) percent) ?_)
  exact .cons (labelled (by decide) (plain _)) .nil

/--
A reader of the export gets the headers, one record with the eight values of
each timesheet in order, and the records of the summary.
-/
theorem generateCSV_lossless (plain : ∀ q, PlainText (numberToString q))
    (data : Report) :
    parseCsv (generateCSV numberToString data) =
      some (csvHeaders :: data.timesheets.map (csvFields numberToString) ++
        summaryRecords numberToString data.aggregates) := by
  refine parseCsv_file (file_join ?_ ?_)
  · refine List.rel_append (.cons ?_ ?_) (written_summary plain _)
    · exact written_plainLine (List.cons_ne_nil _ _) (by decide)
    · rw [List.forall₂_map_left_iff, List.forall₂_map_right_iff,
        List.forall₂_same]
      exact fun ts _ => written_csvRow plain ts
  · rw [List.getLast?_append]
    exact ⟨_, rfl, by simp⟩

end

/-! ## A report with a comma and a line break -/

/-- Every character a digit is written with is plain. -/
theorem plain_digitChar (n : Nat) :
    (Nat.digitChar n ≠ ',' ∧ Nat.digitChar n ≠ '\n' ∧
      Nat.digitChar n ≠ Csv.quote) ∧ Nat.digitChar n ≠ '\r' := by
  by_cases hexadecimal : n < 16
  · have every : ∀ k < 16, (Nat.digitChar k ≠ ',' ∧ Nat.digitChar k ≠ '\n' ∧
        Nat.digitChar k ≠ Csv.quote) ∧ Nat.digitChar k ≠ '\r' := by
      decide
    exact every n hexadecimal
  · have star : Nat.digitChar n = '*' := by
      simp (disch := omega) only [Nat.digitChar, if_neg]
    rw [star]
    decide

theorem plain_fractionDigits (fuel : Nat) (q : ℚ) :
    PlainText (String.ofList (fractionDigits fuel q)) := by
  induction fuel generalizing q with
  | zero =>
      intro c member
      cases member
  | succ fuel ih =>
      unfold fractionDigits
      split
      · decide
      · intro c member
        rw [String.toList_ofList] at member
        rcases List.mem_cons.mp member with rfl | rest
        · exact plain_digitChar _
        · exact ih _ c (by rwa [String.toList_ofList])

theorem plain_natRepr (n : Nat) : PlainText (Nat.repr n) := by
  intro c member
  have digit := Nat.isDigit_of_mem_toDigits (by decide) (by decide)
    (show c ∈ Nat.toDigits 10 n by rwa [Nat.toList_repr] at member)
  refine ⟨⟨?_, ?_, ?_⟩, ?_⟩ <;> rintro rfl <;> exact absurd digit (by decide)

/-- The numbers of the templates are plain. -/
theorem plain_numberText (q : ℚ) : PlainText (numberText q) := by
  unfold numberText
  apply PlainText.append
  · cases q.floor with
    | ofNat n => exact plain_natRepr n
    | negSucc n =>
        exact PlainText.append (show PlainText "-" by decide)
          (plain_natRepr n.succ)
  · split
    · decide
    · exact PlainText.append (by decide) (plain_fractionDigits _ _)

/-- One timesheet of a user with special characters in every column. -/
def specialReport : Report :=
  let sheet : Timesheet :=
    ⟨1, 1, 2, 1704067200000, 1704671999999, .approved, 15 / 2, 4, some 1,
      some 0, none, 0⟩
  let row : ReportTimesheet :=
    ⟨sheet, some ⟨2, "Eve, \"the\" boss", "eve\n@acme", some "R\rD"⟩, []⟩
  ⟨[row], reportAggregates [row]⟩

theorem generateCSV_lossless_special :
    parseCsv (generateCSV numberText specialReport) =
      some (csvHeaders ::
        specialReport.timesheets.map (csvFields numberText) ++
          summaryRecords numberText specialReport.aggregates) :=
  generateCSV_lossless plain_numberText specialReport

end TmsApi
