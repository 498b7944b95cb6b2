import TmsApi.Properties.Aggregates
import TmsApi.Properties.Holidays

/-!
# Dates on a server away from UTC

A date of a request is read as the midnight of UTC that begins it.  Weeks are
counted from there in local time, so behind UTC they are those of the day
before.  The start of a week is a local midnight, which is printed, and
compared with the bounds of a report, in UTC again: ahead of UTC it lies on the
day before, and behind UTC it lies some hours after the midnight of its day.
-/

namespace TmsApi

open TmsApi.Core
open TmsApi.Core.Program

/-! ## Printed dates -/

/-- The instant lies in a year of at most six digits. -/
def Printable (t : Int) : Prop :=
  -1000000 ≤ t / dayMs ∧ t / dayMs ≤ 4000000

/-- Days of the range have years that six digits hold. -/
theorem civilFromDays_year {day : Int} (lower : -1000000 ≤ day)
    (upper : day ≤ 4000000) : (civilFromDays day).1.natAbs < 10 ^ 6 := by
  have first : -12000 ≤ monthOf (-1000000) := by
    decide
  have last : monthOf 4000000 ≤ 200000 := by
    decide
  have least := monthOf_mono lower
  have most := monthOf_mono upper
  rw [(monthOf_spec day).2.2]
  dsimp only
  omega

/-- Years that fit are told apart by their text. -/
theorem isoYear_inj {left right : Int} (leftFits : left.natAbs < 10 ^ 6)
    (rightFits : right.natAbs < 10 ^ 6) :
    isoYear left = isoYear right ↔ left = right := by
  have sized (year : Int) : (isoYear year).length =
      if 0 ≤ year ∧ year ≤ 9999 then 4 else 7 := by
    unfold isoYear
    split <;> simp [length_digits]
  constructor
  · intro same
    have sizes := congrArg List.length same
    rw [sized, sized] at sizes
    unfold isoYear at same
    by_cases short : 0 ≤ left ∧ left ≤ 9999
    · have short' : 0 ≤ right ∧ right ≤ 9999 := by
        by_contra long
        rw [if_pos short, if_neg long] at sizes
        omega
      rw [if_pos short, if_pos short'] at same
      have numbers := (digits_inj (by omega) (by omega)).mp same
      omega
    · have long' : ¬ (0 ≤ right ∧ right ≤ 9999) := by
        intro short'
        rw [if_neg short, if_pos short'] at sizes
        omega
      rw [if_neg short, if_neg long'] at same
      obtain ⟨signs, numbers⟩ := List.cons.inj same
      have sizes := (digits_inj leftFits rightFits).mp numbers
      have sides : left < 0 ↔ right < 0 := by
        by_cases before : left < 0 <;> by_cases before' : right < 0 <;>
          simp [before, before'] at signs ⊢
      omega
  · rintro rfl
    rfl

theorem civilFromDays_inj {left right : Int} :
    civilFromDays left = civilFromDays right ↔ left = right := by
  constructor
  · intro same
    rcases date : civilFromDays right with ⟨year, month, day⟩
    rw [date] at same
    have first := civilFromDays_eq_iff.mp same
    have second := civilFromDays_eq_iff.mp date
    omega
  · rintro rfl
    rfl

/-- Printing tells days apart. -/
theorem toDateString_inj {left right : Int} (leftFits : Printable left)
    (rightFits : Printable right) :
    toDateString left = toDateString right ↔ left / dayMs = right / dayMs := by
  have leftDigits := twoDigits_civilFromDays (left / dayMs)
  have rightDigits := twoDigits_civilFromDays (right / dayMs)
  have leftYear := civilFromDays_year leftFits.1 leftFits.2
  have rightYear := civilFromDays_year rightFits.1 rightFits.2
  rw [← civilFromDays_inj]
  unfold toDateString
  generalize civilFromDays (left / dayMs) = first at *
  generalize civilFromDays (right / dayMs) = second at *
  obtain ⟨year, month, day⟩ := first
  obtain ⟨year', month', day'⟩ := second
  dsimp only [TwoDigits] at *
  constructor
  · intro same
    have chars := String.ofList_inj.mp same
    obtain ⟨front, sameDay⟩ := List.append_inj' chars (by simp [length_digits])
    obtain ⟨sameYear, sameMonth⟩ :=
      List.append_inj' front (by simp [length_digits])
    have years := (isoYear_inj leftYear rightYear).mp sameYear
    have months := (digits_inj (by omega) (by omega)).mp
      (List.cons.inj sameMonth).2
    have days := (digits_inj (by omega) (by omega)).mp (List.cons.inj sameDay).2
    simp only [Prod.mk.injEq]
    omega
  · intro same
    cases same
    rfl

/-! ## The day of a date string -/

/-- The day number of a date. -/
def IsoDate.number (date : IsoDate) : Int :=
  daysFromCivil date.year.val date.month.val date.day.val

theorem IsoDate.toDate_spec {date : IsoDate} {t : Instant}
    (parsed : date.toDate = some t) :
    t = date.number * dayMs ∧
      -900000 ≤ date.number ∧ date.number ≤ 3000000 := by
  unfold IsoDate.toDate at parsed
  split at parsed
  · rename_i valid
    refine ⟨(Option.some.inj parsed).symm, ?_⟩
    have year := date.year.isLt
    obtain ⟨least, most, first, last⟩ := valid
    unfold IsoDate.number daysFromCivil
    dsimp only
    split <;> omega
  · cases parsed

/-! ## Weeks of a date -/

section

variable {host : Host} {db : Db} {userId orgId : Nat} {offset : Int}

/-- A new timesheet has the local week of its date. -/
theorem createTimesheet_week {dto : CreateTimesheetDto} {t : Timesheet}
    (created : ((createTimesheet host userId orgId dto).exec db).1 = .ok t) :
    (∃ date, dto.weekStartDate.toDate = some date ∧
      t.weekStartDate = getWeekStart host.zone date (db.startDay orgId)) ∧
      t.weekEndDate = getWeekEnd host.zone t.weekStartDate := by
  have every : wp (createTimesheet host userId orgId dto) (fun answer _ =>
      ∀ t, answer = .ok t →
        (∃ date, dto.weekStartDate.toDate = some date ∧
          t.weekStartDate = getWeekStart host.zone date (db.startDay orgId)) ∧
          t.weekEndDate = getWeekEnd host.zone t.weekStartDate) db := by
    simp only [createTimesheet, wp_bind, wp_query, andThen_ok, andThen_error,
      wp_throwIf, wp_orThrow, wp_statement, reduceCtorEq, false_imp_iff,
      implies_true, true_and]
    intro _ week parsed _ t after outcome row same
    cases same
    obtain ⟨date, read, normal⟩ := Option.map_eq_some_iff.mp parsed
    obtain ⟨-, rfl⟩ := Prisma.timesheetCreate_after outcome
    exact ⟨⟨date, read, normal.symm⟩, rfl⟩
  exact every t created

/-- The bounds of the week, in days since the one the week starts with. -/
theorem createTimesheet_days (clock : IsOffset offset)
    (fixed : host.zone = Zone.fixed offset) {dto : CreateTimesheetDto}
    {t : Timesheet}
    (created : ((createTimesheet host userId orgId dto).exec db).1 = .ok t) :
    ∃ start, start = weekFloor (db.startDay orgId).weekday
        (if 0 ≤ offset then dto.weekStartDate.number
          else dto.weekStartDate.number - 1) ∧
      t.weekStartDate = start * dayMs - offset ∧
      host.zone.dayOf t.weekStartDate = start ∧
      host.zone.dayOf t.weekEndDate = start + 6 := by
  obtain ⟨⟨date, read, first⟩, last⟩ := createTimesheet_week created
  obtain ⟨rfl, -⟩ := IsoDate.toDate_spec read
  rw [getWeekStart_eq, fixed, dayOf_utcMidnight clock] at first
  refine ⟨_, rfl, first, ?_, ?_⟩
  · rw [first, fixed, Zone.dayOf_midnight]
  · rw [last, getWeekEnd, first, fixed, Zone.dayOf_midnight]
    simp only [Zone.fixed, dayMs]
    omega

/-- The week covers a day in local time and prints its own first day. -/
@[mk_iff]
structure Timesheet.KeepsDate (t : Timesheet) (zone : Zone)
    (startDay : WorkWeekStart) (day : Int) : Prop where
  covers : zone.dayOf t.weekStartDate ≤ day ∧ day ≤ zone.dayOf t.weekEndDate
  prints : toDateString t.weekStartDate =
    toDateString (weekFloor startDay.weekday day * dayMs)

/--
The date of a new timesheet survives on a server in UTC, behind UTC unless it
is the first day of its week, and not ahead of UTC.
-/
theorem week_dates_iff (clock : IsOffset offset)
    (fixed : host.zone = Zone.fixed offset) {dto : CreateTimesheetDto}
    {t : Timesheet}
    (created : ((createTimesheet host userId orgId dto).exec db).1 = .ok t) :
    t.KeepsDate host.zone (db.startDay orgId) dto.weekStartDate.number ↔
      offset = 0 ∨ offset < 0 ∧
        weekday dto.weekStartDate.number ≠ (db.startDay orgId).weekday := by
  obtain ⟨⟨date, read, -⟩, -⟩ := createTimesheet_week created
  obtain ⟨-, early, late⟩ := IsoDate.toDate_spec read
  obtain ⟨start, floor, stored, first, last⟩ :=
    createTimesheet_days clock fixed created
  have weekdays : 0 ≤ (db.startDay orgId).weekday ∧
      (db.startDay orgId).weekday < 7 := by
    cases db.startDay orgId <;> decide
  rw [Timesheet.keepsDate_iff, first, last, stored]
  generalize dto.weekStartDate.number = day at *
  generalize (db.startDay orgId).weekday = number at *
  unfold IsOffset at clock
  have near : weekFloor number day ≤ day ∧ day < weekFloor number day + 7 :=
    ⟨weekFloor_le number day, lt_weekFloor_add number day⟩
  have before : start ≤ day ∧ day ≤ start + 7 := by
    have lower := weekFloor_le number (day - 1)
    have upper := lt_weekFloor_add number (day - 1)
    split at floor <;> omega
  have printed : (start * dayMs - offset) / dayMs =
      if 0 < offset then start - 1 else start := by
    unfold dayMs
    split <;> omega
  have whole : weekFloor number day * dayMs / dayMs = weekFloor number day :=
    Int.mul_ediv_cancel _ (by decide)
  rw [toDateString_inj, printed, whole]
  · clear printed whole
    unfold weekFloor weekday at *
    split at floor <;> split <;> omega
  · unfold Printable
    rw [printed]
    split <;> omega
  · unfold Printable
    rw [whole]
    omega

/-! ## The dates of a report -/

/-- The report contains the timesheet. -/
def Report.Includes (report : Report) (t : Timesheet) : Prop :=
  ∃ ts ∈ report.timesheets, ts.timesheet = t

/-- The conditions of a report beside its dates. -/
def ReportFilters.AdmitsUndated (filters : ReportFilters) (caller : JwtPayload)
    (db : Db) (t : Timesheet) : Prop :=
  t.organisationId = caller.orgId ∧
    (filters.owner (db.reportScope caller)).Admits t.userId ∧
      ∀ s ∈ filters.status, t.status = s

theorem includes_reportOn {filters : ReportFilters} {rows : List Timesheet}
    {t : Timesheet} : (db.reportOn filters rows).Includes t ↔ t ∈ rows := by
  unfold Report.Includes Db.reportOn
  constructor
  · rintro ⟨ts, listed, rfl⟩
    obtain ⟨row, member, rfl⟩ := List.mem_map.mp listed
    exact member
  · intro member
    exact ⟨_, List.mem_map_of_mem member, rfl⟩

/-- Around a range of UTC days, where a local midnight is in or out. -/
theorem localMidnight_mem_iff (clock : IsOffset offset)
    {start first last : Int} :
    (first * dayMs ≤ start * dayMs - offset ∧
        start * dayMs - offset ≤ last * dayMs ↔
      first ≤ start ∧ start ≤ last) ↔
      (first ≤ last → (0 < offset → start ≠ first) ∧
        (offset < 0 → start ≠ last)) := by
  unfold IsOffset at clock
  unfold dayMs
  omega

/--
The report contains the timesheets whose local midnights lie between the UTC
midnights of its dates.
-/
theorem includes_iff_midnight (clock : IsOffset offset)
    (fixed : host.zone = Zone.fixed offset) {dto : CreateTimesheetDto}
    {before : Db} {created : Timesheet}
    (made : ((createTimesheet host userId orgId dto).exec before).1 =
      .ok created)
    {t : Timesheet} (stored : t ∈ db.timesheets.rows)
    (unmoved : t.weekStartDate = created.weekStartDate)
    {caller : JwtPayload} {filters : ReportFilters} {first last : IsoDate}
    (dateFrom : filters.dateFrom = first.toDate)
    (dateTo : filters.dateTo = last.toDate) {report : Report}
    (answered : ((generateReport caller.orgId filters caller.userId
      caller.role).exec db).1 = .ok report) :
    report.Includes t ↔ filters.AdmitsUndated caller db t ∧
      first.number * dayMs ≤
          host.zone.dayOf t.weekStartDate * dayMs - offset ∧
        host.zone.dayOf t.weekStartDate * dayMs - offset ≤
          last.number * dayMs := by
  obtain ⟨start, -, produced, day, -⟩ := createTimesheet_days clock fixed made
  obtain ⟨gte, lte, lower, upper, rfl⟩ := exists_reportOn answered
  obtain ⟨rfl, -⟩ := IsoDate.toDate_spec (dateFrom.symm.trans lower)
  obtain ⟨rfl, -⟩ := IsoDate.toDate_spec (dateTo.symm.trans upper)
  rw [includes_reportOn, Db.mem_reportRows, unmoved, day, ← produced, ← unmoved]
  constructor
  · rintro ⟨-, own, between, admits, status⟩
    exact ⟨⟨own, admits, status⟩, between⟩
  · rintro ⟨⟨own, admits, status⟩, between⟩
    exact ⟨stored, own, between, admits, status⟩

/--
A report contains the timesheets whose weeks start within its dates exactly
when the server is in UTC or the week does not start on the first of the dates,
ahead of UTC, or on the last, behind UTC.
-/
theorem report_range_iff (clock : IsOffset offset)
    (fixed : host.zone = Zone.fixed offset) {dto : CreateTimesheetDto}
    {before : Db} {created : Timesheet}
    (made : ((createTimesheet host userId orgId dto).exec before).1 =
      .ok created)
    {t : Timesheet} (stored : t ∈ db.timesheets.rows)
    (unmoved : t.weekStartDate = created.weekStartDate)
    {caller : JwtPayload} {filters : ReportFilters} {first last : IsoDate}
    (dateFrom : filters.dateFrom = first.toDate)
    (dateTo : filters.dateTo = last.toDate) {report : Report}
    (answered : ((generateReport caller.orgId filters caller.userId
      caller.role).exec db).1 = .ok report) :
    (report.Includes t ↔ filters.AdmitsUndated caller db t ∧
        first.number ≤ host.zone.dayOf t.weekStartDate ∧
          host.zone.dayOf t.weekStartDate ≤ last.number) ↔
      (filters.AdmitsUndated caller db t → first.number ≤ last.number →
        (0 < offset → host.zone.dayOf t.weekStartDate ≠ first.number) ∧
          (offset < 0 → host.zone.dayOf t.weekStartDate ≠ last.number)) := by
  rw [includes_iff_midnight clock fixed made stored unmoved dateFrom dateTo
    answered, ← localMidnight_mem_iff clock]
  exact and_congr_right_iff

end

/-! ## Five hours behind UTC -/

/-- An answer that passes a test. -/
theorem ok_of_any {α : Type} {answer : Except Thrown α} {p : α → Bool}
    (passes : answer.toOption.any p = true) :
    ∃ a, answer = .ok a ∧ p a = true := by
  cases answer with
  | error e => cases passes
  | ok a => exact ⟨a, rfl, passes⟩

/-- Eve's timesheet for the second Monday, and the state with it. -/
def secondWeek (host : Host) : Except Thrown Timesheet × Db :=
  (createTimesheet host 2 1 ⟨january 8⟩).exec officeDb

theorem secondWeek_utc : ∃ t, (secondWeek plainHost).1 = .ok t ∧
    t ∈ (secondWeek plainHost).2.timesheets.rows := by
  obtain ⟨t, created, stored⟩ := ok_of_any (p := fun t =>
    t ∈ (secondWeek plainHost).2.timesheets.rows)
    (show (secondWeek plainHost).1.toOption.any _ = true by decide +kernel)
  exact ⟨t, created, of_decide_eq_true stored⟩

/-- Behind UTC it is the first week that she gets. -/
theorem secondWeek_eastern : ∃ t, (secondWeek easternHost).1 = .ok t ∧
    t ∈ (secondWeek easternHost).2.timesheets.rows ∧ t.organisationId = 1 ∧
      easternHost.zone.dayOf t.weekStartDate = 19723 ∧
        easternHost.zone.dayOf t.weekEndDate = 19729 := by
  obtain ⟨t, created, stored⟩ := ok_of_any (p := fun t =>
    t ∈ (secondWeek easternHost).2.timesheets.rows ∧ t.organisationId = 1 ∧
      easternHost.zone.dayOf t.weekStartDate = 19723 ∧
        easternHost.zone.dayOf t.weekEndDate = 19729)
    (show (secondWeek easternHost).1.toOption.any _ = true by decide +kernel)
  exact ⟨t, created, of_decide_eq_true stored⟩

theorem week_dates_iff_utc : ∃ t, (secondWeek plainHost).1 = .ok t ∧
    t.KeepsDate plainHost.zone (officeDb.startDay 1) (january 8).number := by
  obtain ⟨t, created, -⟩ := secondWeek_utc
  refine ⟨t, created, ?_⟩
  exact (week_dates_iff (by decide) rfl created).mpr (.inl rfl)

/-- The date of the request is after the week of the timesheet. -/
theorem monday_lost : IsOffset (-18000000) ∧
    ∃ t, (secondWeek easternHost).1 = .ok t ∧
      ¬ t.KeepsDate easternHost.zone (officeDb.startDay 1)
        (january 8).number := by
  obtain ⟨t, created, -, -, -, last⟩ := secondWeek_eastern
  refine ⟨by decide, t, created, ?_⟩
  intro keeps
  have covers := keeps.covers.2
  rw [last] at covers
  exact absurd covers (by decide)

/-- An administrator's report on valid dates does not fail. -/
theorem generateReport_answers {db : Db} {orgId userId : Nat}
    {filters : ReportFilters} {gte lte : Instant}
    (dateFrom : filters.dateFrom = some gte)
    (dateTo : filters.dateTo = some lte) :
    ∃ report, ((generateReport orgId filters userId .admin).exec db).1 =
      .ok report := by
  have answered : wp (generateReport orgId filters userId .admin)
      (fun answer _ => ∃ report, answer = .ok report) db := by
    simp [generateReport, userScope, dateFrom, dateTo]
  exact answered

theorem report_range_iff_utc : ∃ t ∈ (secondWeek plainHost).2.timesheets.rows,
    ∃ report, ((generateReport 1 januaryFilters 1 .admin).exec
        (secondWeek plainHost).2).1 = .ok report ∧
      (report.Includes t ↔
        januaryFilters.AdmitsUndated ada (secondWeek plainHost).2 t ∧
          (january 1).number ≤ plainHost.zone.dayOf t.weekStartDate ∧
            plainHost.zone.dayOf t.weekStartDate ≤ (january 31).number) := by
  obtain ⟨t, created, stored⟩ := secondWeek_utc
  have answers : ∃ report, ((generateReport ada.orgId januaryFilters ada.userId
      ada.role).exec (secondWeek plainHost).2).1 = .ok report :=
    generateReport_answers rfl rfl
  obtain ⟨report, answered⟩ := answers
  refine ⟨t, stored, report, answered, ?_⟩
  refine (report_range_iff (by decide) rfl created stored rfl
    rfl rfl answered).mpr ?_
  intro _ _
  exact ⟨fun absurd => absurd.false.elim, fun absurd => absurd.false.elim⟩

/-- A report on the first of January. -/
def newYearFilters : ReportFilters :=
  { januaryFilters with dateTo := (january 1).toDate }

/-- It misses the week that starts on that day. -/
theorem newYear_missed : IsOffset (-18000000) ∧
    ∃ t, (secondWeek easternHost).1 = .ok t ∧
      t ∈ (secondWeek easternHost).2.timesheets.rows ∧
      ∃ report, ((generateReport 1 newYearFilters 1 .admin).exec
          (secondWeek easternHost).2).1 = .ok report ∧
        ¬ (report.Includes t ↔
          newYearFilters.AdmitsUndated ada (secondWeek easternHost).2 t ∧
            (january 1).number ≤ easternHost.zone.dayOf t.weekStartDate ∧
              easternHost.zone.dayOf t.weekStartDate ≤
                (january 1).number) := by
  obtain ⟨t, created, stored, org, start, -⟩ := secondWeek_eastern
  have answers : ∃ report, ((generateReport ada.orgId newYearFilters ada.userId
      ada.role).exec (secondWeek easternHost).2).1 = .ok report :=
    generateReport_answers rfl rfl
  obtain ⟨report, answered⟩ := answers
  refine ⟨by decide, t, created, stored, report, answered, ?_⟩
  have newYear : newYearFilters.dateFrom = (january 1).toDate ∧
      newYearFilters.dateTo = (january 1).toDate := ⟨rfl, rfl⟩
  rw [includes_iff_midnight (by decide) rfl created stored rfl newYear.1
    newYear.2 answered, start]
  intro same
  have admits : newYearFilters.AdmitsUndated ada (secondWeek easternHost).2 t :=
    ⟨org, trivial, fun _ absurd => by cases absurd⟩
  have shown := (same.mpr ⟨admits, by decide⟩).2.2
  exact absurd shown (by decide)

end TmsApi
