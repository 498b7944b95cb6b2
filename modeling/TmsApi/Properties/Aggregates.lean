import TmsApi.Properties.Confidentiality
import TmsApi.Properties.Totals

/-!
# Aggregates of a report

A report adds up the stored totals of its timesheets and lists their entries,
of one project if it is asked to.  Stored totals are the sums over all entries
of a timesheet, so the aggregates describe what is listed exactly when the
entries left out have no hours.
-/

namespace TmsApi

open TmsApi.Core
open TmsApi.Core.Program

/-- All entries a report contains. -/
def Report.entries (report : Report) : List TimeEntry :=
  report.timesheets.flatMap fun ts => ts.timeEntries.map (·.entry)

/-- The aggregates are those of the entries the report contains. -/
structure DescribesEntries (report : Report) : Prop where
  total : report.aggregates.totalHours = sumBy (·.totalHours) report.entries
  billable : report.aggregates.billableHours =
    sumBy (·.totalHours) (report.entries.filter (·.billable))
  nonBillable : report.aggregates.nonBillableHours =
    sumBy (·.totalHours) report.entries -
      sumBy (·.totalHours) (report.entries.filter (·.billable))
  utilization : report.aggregates.utilization =
    if sumBy (·.totalHours) report.entries > 0 then
      mathRound (sumBy (·.totalHours) (report.entries.filter (·.billable)) /
        sumBy (·.totalHours) report.entries * 100)
    else 0
  range : 0 ≤ report.aggregates.utilization ∧
    report.aggregates.utilization ≤ 100

/-- The report asks for one project, and the entry is on another. -/
def ReportFilters.LeavesOut (filters : ReportFilters) (e : TimeEntry) : Prop :=
  ∃ id ∈ truthy filters.projectId, (e.projectId : Int) ≠ id

/-- The timesheets of the report are those its filters select. -/
def ReportFilters.Selects (filters : ReportFilters) (caller : JwtPayload)
    (db : Db) (t : Timesheet) : Prop :=
  t.organisationId = caller.orgId ∧
    (∃ gte ∈ filters.dateFrom, gte ≤ t.weekStartDate) ∧
      (∃ lte ∈ filters.dateTo, t.weekStartDate ≤ lte) ∧
        (filters.owner (db.reportScope caller)).Admits t.userId ∧
          ∀ s ∈ filters.status, t.status = s

/-! ## Sums over parts of a list -/

section Sums

variable {α : Type} {f : α → ℚ} {xs : List α}

theorem sumBy_cons (x : α) (xs : List α) :
    sumBy f (x :: xs) = f x + sumBy f xs := by
  simp [sumBy_eq]

theorem sumBy_nonneg (nonneg : ∀ x ∈ xs, 0 ≤ f x) : 0 ≤ sumBy f xs := by
  rw [sumBy_eq]
  apply List.sum_nonneg
  intro q member
  obtain ⟨x, xMem, rfl⟩ := List.mem_map.mp member
  exact nonneg x xMem

theorem sumBy_eq_zero_iff (nonneg : ∀ x ∈ xs, 0 ≤ f x) :
    sumBy f xs = 0 ↔ ∀ x ∈ xs, f x = 0 := by
  induction xs with
  | nil => simp [sumBy_eq]
  | cons x xs ih =>
      have tail : ∀ y ∈ xs, 0 ≤ f y := fun y member =>
        nonneg y (List.mem_cons_of_mem _ member)
      rw [sumBy_cons, add_eq_zero_iff_of_nonneg
        (nonneg x List.mem_cons_self) (sumBy_nonneg tail), ih tail,
        List.forall_mem_cons]

/-- A sum splits into what a condition selects and the rest. -/
theorem sumBy_filter_add (p : α → Prop) [DecidablePred p] (xs : List α) :
    sumBy f (xs.filter fun x => p x) + sumBy f (xs.filter fun x => ¬ p x) =
      sumBy f xs := by
  induction xs with
  | nil => simp [sumBy_eq]
  | cons x xs ih =>
      rw [sumBy_cons]
      by_cases holds : p x
      · simp only [holds, decide_true, not_true, decide_false,
          List.filter_cons_of_pos, List.filter_cons_of_neg, sumBy_cons,
          Bool.false_eq_true, not_false_eq_true]
        rw [← ih, add_assoc]
      · simp only [holds, decide_false, not_false_eq_true, decide_true,
          List.filter_cons_of_pos, List.filter_cons_of_neg, sumBy_cons,
          Bool.false_eq_true]
        rw [← ih, add_left_comm]

/-- A part has the whole sum when the rest, not negative, is zero. -/
theorem sumBy_filter_eq_iff (nonneg : ∀ x ∈ xs, 0 ≤ f x) (p : α → Prop)
    [DecidablePred p] :
    sumBy f (xs.filter fun x => p x) = sumBy f xs ↔
      ∀ x ∈ xs, ¬ p x → f x = 0 := by
  have rest : ∀ x ∈ xs.filter fun x => ¬ p x, 0 ≤ f x := fun x member =>
    nonneg x (List.mem_of_mem_filter member)
  rw [← sumBy_filter_add p xs, left_eq_add, sumBy_eq_zero_iff rest]
  simp only [List.mem_filter, decide_eq_true_eq, and_imp]

theorem sumBy_filter_le (nonneg : ∀ x ∈ xs, 0 ≤ f x) (p : α → Bool) :
    sumBy f (xs.filter p) ≤ sumBy f xs := by
  have whole := sumBy_filter_add (f := f) (fun x => p x) xs
  have rest : 0 ≤ sumBy f (xs.filter fun x => ¬ p x) :=
    sumBy_nonneg fun x member => nonneg x (List.mem_of_mem_filter member)
  simp only [Bool.decide_eq_true] at whole
  linarith

theorem sumBy_flatMap {β : Type} (g : β → List α) (ys : List β) :
    sumBy f (ys.flatMap g) = sumBy (fun y => sumBy f (g y)) ys := by
  induction ys with
  | nil => simp [sumBy_eq]
  | cons y ys ih =>
      rw [List.flatMap_cons, sumBy_cons, ← ih]
      simp only [sumBy_eq, List.map_append, List.sum_append]

theorem sumBy_congr {g : α → ℚ} (same : ∀ x ∈ xs, f x = g x) :
    sumBy f xs = sumBy g xs := by
  rw [sumBy_eq, sumBy_eq, List.map_congr_left same]

end Sums

/-! ## The utilization -/

/-- A part of a whole is between nothing and a hundred percent. -/
theorem mathRound_percent {part whole : ℚ} (nonneg : 0 ≤ part)
    (le : part ≤ whole) (positive : 0 < whole) :
    0 ≤ mathRound (part / whole * 100) ∧
      mathRound (part / whole * 100) ≤ 100 := by
  have lower : 0 ≤ part / whole := div_nonneg nonneg positive.le
  have upper : part / whole ≤ 1 := div_le_one_of_le₀ le positive.le
  unfold mathRound
  constructor
  · rw [Rat.le_floor_iff]
    push_cast
    linarith
  · rw [← Int.lt_add_one_iff, Rat.floor_lt_iff]
    push_cast
    linarith

/-! ## The entries of a report -/

instance (filters : ReportFilters) : DecidablePred filters.LeavesOut :=
  fun _ => inferInstanceAs (Decidable (∃ id ∈ truthy filters.projectId, _))

/-- The report on some timesheets. -/
def Db.reportOn (db : Db) (filters : ReportFilters)
    (rows : List Timesheet) : Report where
  timesheets := rows.map (db.reportTimesheet (truthy filters.projectId))
  aggregates := reportAggregates
    (rows.map (db.reportTimesheet (truthy filters.projectId)))

section

variable {db : Db} {filters : ReportFilters} {caller : JwtPayload}
  {rows : List Timesheet}

theorem entries_reportTimesheet (t : Timesheet) :
    (db.reportTimesheet (truthy filters.projectId) t).timeEntries.map
        (·.entry) =
      (db.entriesOf t.id).filter fun e => ¬ filters.LeavesOut e := by
  unfold Db.reportTimesheet Db.entriesOf Table.select
  rw [List.map_map, List.filter_filter]
  apply (List.map_id'' (fun _ => rfl) _).trans
  refine List.filter_congr fun e _ => ?_
  rw [← Bool.decide_and]
  apply decide_eq_decide.mpr
  refine (and_congr_right fun _ => ?_).trans and_comm
  unfold ReportFilters.LeavesOut
  push Not
  rfl

theorem entries_reportOn :
    (db.reportOn filters rows).entries =
      (rows.flatMap fun t => db.entriesOf t.id).filter
        fun e => ¬ filters.LeavesOut e := by
  unfold Report.entries Db.reportOn
  rw [List.flatMap_map, List.filter_flatMap]
  exact List.flatMap_congr fun t _ => entries_reportTimesheet t

/-- Stored totals add up to the sum over all entries. -/
theorem totalHours_reportOn (totals : Totals db)
    (stored : ∀ t ∈ rows, t ∈ db.timesheets.rows) :
    (db.reportOn filters rows).aggregates.totalHours =
      sumBy (·.totalHours) (rows.flatMap fun t => db.entriesOf t.id) := by
  rw [sumBy_flatMap]
  have rowTotals : (db.reportOn filters rows).aggregates.totalHours =
      sumBy (·.totalHours) rows := by
    simp only [Db.reportOn, reportAggregates, sumBy_eq, List.map_map]
    rfl
  rw [rowTotals]
  exact sumBy_congr fun t listed => (totals.sheet t (stored t listed)).total

theorem billableHours_reportOn (totals : Totals db)
    (stored : ∀ t ∈ rows, t ∈ db.timesheets.rows) :
    (db.reportOn filters rows).aggregates.billableHours =
      sumBy (·.totalHours)
        ((rows.flatMap fun t => db.entriesOf t.id).filter (·.billable)) := by
  rw [List.filter_flatMap, sumBy_flatMap]
  have rowTotals : (db.reportOn filters rows).aggregates.billableHours =
      sumBy (·.billableHours) rows := by
    simp only [Db.reportOn, reportAggregates, sumBy_eq, List.map_map]
    rfl
  rw [rowTotals]
  exact sumBy_congr fun t listed => (totals.sheet t (stored t listed)).billable

theorem entriesOf_nonneg (totals : Totals db) :
    ∀ e ∈ rows.flatMap fun t => db.entriesOf t.id, 0 ≤ e.totalHours := by
  intro e member
  obtain ⟨t, _, own⟩ := List.mem_flatMap.mp member
  exact (totals.entry e (Db.mem_entriesOf.mp own).1).totalHours_nonneg

/-- The other aggregates follow from the two sums. -/
theorem describesEntries_of_sums
    (nonneg : ∀ e ∈ (db.reportOn filters rows).entries, 0 ≤ e.totalHours)
    (total : (db.reportOn filters rows).aggregates.totalHours =
      sumBy (·.totalHours) (db.reportOn filters rows).entries)
    (billable : (db.reportOn filters rows).aggregates.billableHours =
      sumBy (·.totalHours)
        ((db.reportOn filters rows).entries.filter (·.billable))) :
    DescribesEntries (db.reportOn filters rows) := by
  have utilization : (db.reportOn filters rows).aggregates.utilization =
      if (db.reportOn filters rows).aggregates.totalHours > 0 then
        mathRound ((db.reportOn filters rows).aggregates.billableHours /
          (db.reportOn filters rows).aggregates.totalHours * 100)
      else 0 := rfl
  rw [total, billable] at utilization
  refine ⟨total, billable, ?_, utilization, ?_⟩
  · rw [← total, ← billable]
    rfl
  · rw [utilization]
    split
    case isTrue positive =>
      exact mathRound_percent
        (sumBy_nonneg fun e member => nonneg e (List.mem_of_mem_filter member))
        (sumBy_filter_le nonneg _) positive
    case isFalse => exact ⟨le_rfl, by decide⟩

/-- The aggregates describe the report when nothing it leaves out counts. -/
theorem describesEntries_iff (totals : Totals db)
    (stored : ∀ t ∈ rows, t ∈ db.timesheets.rows) :
    DescribesEntries (db.reportOn filters rows) ↔
      ∀ t ∈ rows, ∀ e ∈ db.entriesOf t.id, filters.LeavesOut e →
        e.totalHours = 0 := by
  have nonneg : ∀ e ∈ rows.flatMap fun t => db.entriesOf t.id,
      0 ≤ e.totalHours := entriesOf_nonneg totals
  have total : (db.reportOn filters rows).aggregates.totalHours = _ :=
    totalHours_reportOn totals stored
  have billable : (db.reportOn filters rows).aggregates.billableHours = _ :=
    billableHours_reportOn totals stored
  have listed : (∀ t ∈ rows, ∀ e ∈ db.entriesOf t.id, filters.LeavesOut e →
      e.totalHours = 0) ↔
      sumBy (·.totalHours) (db.reportOn filters rows).entries =
        sumBy (·.totalHours) (rows.flatMap fun t => db.entriesOf t.id) := by
    rw [entries_reportOn, sumBy_filter_eq_iff nonneg, List.forall_mem_flatMap]
    simp only [not_not]
  rw [listed]
  constructor
  · intro describes
    rw [← total, describes.total]
  · intro same
    have billed :
        sumBy (·.totalHours)
            ((db.reportOn filters rows).entries.filter (·.billable)) =
          sumBy (·.totalHours)
            ((rows.flatMap fun t => db.entriesOf t.id).filter
              (·.billable)) := by
      rw [entries_reportOn, sumBy_filter_eq_iff nonneg] at same
      rw [entries_reportOn, List.filter_comm, sumBy_filter_eq_iff]
      · exact fun e member => same e (List.mem_of_mem_filter member)
      · exact fun e member => nonneg e (List.mem_of_mem_filter member)
    refine describesEntries_of_sums ?_ (total.trans same.symm)
      (billable.trans billed.symm)
    rw [entries_reportOn]
    exact fun e member => nonneg e (List.mem_of_mem_filter member)

/-! ## Reports after any run -/

/-- The rows of a report are the timesheets its filters select. -/
theorem selects_iff {gte lte : Instant} (dateFrom : filters.dateFrom = some gte)
    (dateTo : filters.dateTo = some lte) (t : Timesheet) :
    t ∈ db.reportRows caller.orgId gte lte
        (filters.owner (db.reportScope caller)) filters.status ↔
      t ∈ db.timesheets.rows ∧ filters.Selects caller db t := by
  rw [Db.mem_reportRows, ReportFilters.Selects, dateFrom, dateTo]
  simp only [Option.mem_def, Option.some.injEq, exists_eq_left', and_assoc]

theorem reportRows_stored {orgId : Nat} {gte lte : Instant}
    {owner : UserFilter} {status : Option TimesheetStatus} :
    ∀ t ∈ db.reportRows orgId gte lte owner status, t ∈ db.timesheets.rows :=
  fun _ listed => (Db.mem_reportRows.mp listed).1

/--
What holds of the answers of a report holds of the one on the timesheets that
its dates and the caller's scope select.
-/
theorem wp_generateReport {post : Report → Prop} :
    wp (generateReport caller.orgId filters caller.userId caller.role)
        (fun answer _ => ∀ report, answer = .ok report → post report) db ↔
      (filters.Permitted caller db → ∀ gte lte,
        filters.dateFrom = some gte → filters.dateTo = some lte →
          post (db.reportOn filters (db.reportRows caller.orgId gte lte
            (filters.owner (db.reportScope caller)) filters.status))) := by
  rw [generateReport, wp_bind]
  refine wp_iff.mp (wp_mono ?_ wp_userScope)
  rintro answer _ ⟨rfl, grants⟩
  cases answer with
  | error error =>
      apply iff_of_true
      · intro report absurd
        cases absurd
      · intro permitted
        cases (grants _).mpr ⟨permitted, rfl⟩
  | ok scope =>
      obtain ⟨permitted, rfl⟩ := (grants scope).mp rfl
      simp only [permitted, true_implies, andThen_ok, wp_bind, wp_orThrow,
        andThen_error, reduceCtorEq, false_implies, implies_true, true_and,
        wp_query, pure_eq, wp_done, Except.ok.injEq, forall_eq']
      constructor
      · intro answers gte lte dateFrom dateTo
        apply answers (gte, lte)
        rw [dateFrom, dateTo]
        rfl
      · intro answers dates valid
        obtain ⟨gte, dateFrom, rest⟩ := Option.bind_eq_some_iff.mp valid
        obtain ⟨lte, dateTo, rfl⟩ := Option.map_eq_some_iff.mp rest
        exact answers gte lte dateFrom dateTo

/-- An answer is a report between the dates of the request. -/
theorem exists_reportOn {report : Report}
    (answered : ((generateReport caller.orgId filters caller.userId
      caller.role).exec db).1 = .ok report) :
    ∃ gte lte, filters.dateFrom = some gte ∧ filters.dateTo = some lte ∧
      report = db.reportOn filters (db.reportRows caller.orgId gte lte
        (filters.owner (db.reportScope caller)) filters.status) := by
  have every : wp (generateReport caller.orgId filters caller.userId
      caller.role) (fun answer _ => ∀ report, answer = .ok report →
        ∃ gte lte, filters.dateFrom = some gte ∧ filters.dateTo = some lte ∧
          report = db.reportOn filters (db.reportRows caller.orgId gte lte
            (filters.owner (db.reportScope caller)) filters.status)) db := by
    rw [wp_generateReport]
    intro _ gte lte dateFrom dateTo
    exact ⟨gte, lte, dateFrom, dateTo, rfl⟩
  exact every report answered

theorem generateReport_describes_iff (totals : Totals db) :
    wp (generateReport caller.orgId filters caller.userId caller.role)
        (fun answer _ =>
          ∀ report, answer = .ok report → DescribesEntries report) db ↔
      (filters.Permitted caller db → ∀ t ∈ db.timesheets.rows,
        filters.Selects caller db t → ∀ e ∈ db.entriesOf t.id,
          filters.LeavesOut e → e.totalHours = 0) := by
  rw [wp_generateReport]
  refine imp_congr_right fun _ => ?_
  simp only [describesEntries_iff totals reportRows_stored]
  constructor
  · intro uncounted t stored selects
    have dated := selects
    obtain ⟨-, ⟨gte, dateFrom, -⟩, ⟨lte, dateTo, -⟩, -⟩ := dated
    have listed := (selects_iff dateFrom dateTo t).mpr ⟨stored, selects⟩
    exact uncounted gte lte dateFrom dateTo t listed
  · intro uncounted gte lte dateFrom dateTo t listed
    obtain ⟨stored, selects⟩ := (selects_iff dateFrom dateTo t).mp listed
    exact uncounted t stored selects

end

/--
In every reachable state the aggregates of a report describe the entries it
contains exactly when the entries it leaves out have no hours.
-/
theorem aggregates_describe_iff (lib : Libs) (requests : List Request)
    (caller : JwtPayload) (filters : ReportFilters) :
    let db := (World.empty.run lib requests).db
    wp (generateReport caller.orgId filters caller.userId caller.role)
        (fun answer _ =>
          ∀ report, answer = .ok report → DescribesEntries report) db ↔
      (filters.Permitted caller db → ∀ t ∈ db.timesheets.rows,
        filters.Selects caller db t → ∀ e ∈ db.entriesOf t.id,
          filters.LeavesOut e → e.totalHours = 0) :=
  generateReport_describes_iff (totals_run lib requests)

/-! ## A report on one of two projects -/

/-- Eve adds four hours on a second project to her timesheet. -/
def projectsRun : List Request :=
  officeRun ++
    [.addProject ada "B",
      .authenticated plainHost eve (.createEntry 1 (mondayEntry 2 4))]

/-- The total of a report beside the hours of the entries it contains. -/
def reportedHours : Except Thrown Report → Option (ℚ × ℚ)
  | .ok report =>
      some (report.aggregates.totalHours,
        sumBy (·.totalHours) report.entries)
  | .error _ => none

/-- The report on the first project has the hours of both. -/
theorem project_hours_miscounted :
    ¬ wp (generateReport 1 { januaryFilters with projectId := some 1 } 2
        .manager)
      (fun answer _ =>
        ∀ report, answer = .ok report → DescribesEntries report)
      (World.empty.run plainLibs projectsRun).db := by
  intro describes
  have hours : reportedHours
      ((generateReport 1 { januaryFilters with projectId := some 1 } 2
        .manager).exec (World.empty.run plainLibs projectsRun).db).1 =
      some (12, 8) := by
    decide +kernel
  unfold reportedHours at hours
  split at hours
  case h_1 report answered =>
    have total := (describes report answered).total
    simp only [Option.some.injEq, Prod.mk.injEq] at hours
    rw [hours.1, hours.2] at total
    norm_num at total
  case h_2 => cases hours

end TmsApi
