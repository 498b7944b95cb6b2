import TmsApi.Properties.Aggregates
import TmsApi.Properties.Monthly

/-!
# Holidays of a monthly timesheet

The loop over a month looks each day up in a map of holidays.  The map has a
key for the date of a holiday and, for a recurring one, a second key for its
month and day in the year of the report; keys are texts and tell dates apart.

A holiday is stored as the midnight of UTC that begins its date, and its date
is read in local time.  That is the date itself where the server is not behind
UTC, and the day before elsewhere.
-/

namespace TmsApi

open TmsApi.Core
open TmsApi.Core.Program

/-! ## Keys of the map -/

/-- The month and the day of a date have at most two digits. -/
def TwoDigits (date : Int × Int × Int) : Prop :=
  (0 ≤ date.2.1 ∧ date.2.1 < 100) ∧ 0 ≤ date.2.2 ∧ date.2.2 < 100

theorem twoDigits_civilFromDays (day : Int) :
    TwoDigits (civilFromDays day) := by
  rcases date : civilFromDays day with ⟨year, month, dayOfMonth⟩
  obtain ⟨least, most, positive, last, -⟩ := civilFromDays_eq_iff.mp date
  have short := monthLength_le (12 * year + month - 1)
  dsimp only [TwoDigits]
  omega

/-- Padding gives a number of at most two digits both of them. -/
theorem toList_padStart2 {n : Int} (nonneg : 0 ≤ n) (small : n < 100) :
    (padStart2 n).toList = digits 2 n.toNat := by
  lift n to Nat using nonneg
  have text : toString (n : Int) = String.ofList (Nat.toDigits 10 n) := rfl
  unfold padStart2
  dsimp only
  rw [text, String.length_ofList, Int.toNat_natCast]
  by_cases single : n < 10
  · rw [Nat.toDigits_of_lt_base single]
    have high : n / 10 % 10 = 0 := by omega
    have low : n % 10 = n := by omega
    simp [digits, high, low]
  · rw [Nat.toDigits_of_base_le (by decide) (by omega),
      Nat.toDigits_of_lt_base (show n / 10 < 10 by omega)]
    have high : n / 10 % 10 = n / 10 := by omega
    simp [digits, high]

/-- Decimal digits give the number back. -/
theorem natRepr_injective : Function.Injective Nat.repr := by
  intro m n same
  have digits : Nat.toDigits 10 m = Nat.toDigits 10 n := by
    rw [← Nat.toList_repr, ← Nat.toList_repr, same]
  have numbers := congrArg (fun ds => Nat.ofDigitChars 10 ds 0) digits
  simpa using numbers

/-- No natural number starts with a sign. -/
theorem minus_append_ne_repr (m n : Nat) : "-" ++ m.repr ≠ n.repr := by
  intro same
  have chars := congrArg String.toList same
  simp only [String.toList_append, Nat.toList_repr] at chars
  have sign : '-' ∈ Nat.toDigits 10 n := by
    rw [← chars]
    simp
  have digit := Nat.isDigit_of_mem_toDigits (by decide) (by decide) sign
  exact absurd digit (by decide)

theorem intRepr_injective : Function.Injective Int.repr := by
  intro a b same
  rw [Int.repr_eq_if, Int.repr_eq_if] at same
  split at same
  case isTrue left =>
    split at same
    case isTrue right =>
      have numbers := natRepr_injective same
      omega
    case isFalse => exact (minus_append_ne_repr _ _ same.symm).elim
  case isFalse left =>
    split at same
    case isTrue => exact (minus_append_ne_repr _ _ same).elim
    case isFalse right =>
      have numbers := natRepr_injective (String.append_right_inj "-" |>.mp same)
      omega

/-- Keys tell dates apart. -/
theorem dateKey_inj {left right : Int × Int × Int} (leftFits : TwoDigits left)
    (rightFits : TwoDigits right) :
    dateKey left.1 left.2.1 left.2.2 = dateKey right.1 right.2.1 right.2.2 ↔
      left = right := by
  obtain ⟨year, month, day⟩ := left
  obtain ⟨year', month', day'⟩ := right
  obtain ⟨⟨m0, m1⟩, d0, d1⟩ := leftFits
  obtain ⟨⟨m0', m1'⟩, d0', d1'⟩ := rightFits
  dsimp only at *
  constructor
  · intro same
    have chars := congrArg String.toList same
    simp only [dateKey, String.toList_append, toList_padStart2 m0 m1,
      toList_padStart2 d0 d1, toList_padStart2 m0' m1',
      toList_padStart2 d0' d1'] at chars
    obtain ⟨front, sameDay⟩ := List.append_inj' chars (by simp [length_digits])
    obtain ⟨front, -⟩ := List.append_inj' front rfl
    obtain ⟨front, sameMonth⟩ :=
      List.append_inj' front (by simp [length_digits])
    obtain ⟨sameYear, -⟩ := List.append_inj' front rfl
    have years : year = year' :=
      intRepr_injective (String.toList_inj.mp sameYear)
    have months := (digits_inj (by omega) (by omega)).mp sameMonth
    have days := (digits_inj (by omega) (by omega)).mp sameDay
    simp only [Prod.mk.injEq]
    omega
  · intro same
    cases same
    rfl

/-- A holiday held on one date marks another one. -/
def Holiday.Marks (h : Holiday) (held date : Int × Int × Int) : Prop :=
  held = date ∨ h.recurring = true ∧ held.2 = date.2

instance (h : Holiday) (held date : Int × Int × Int) :
    Decidable (h.Marks held date) :=
  inferInstanceAs (Decidable (_ ∨ _))

section

variable {zone : Zone}

/-- The keys of a holiday are those of the dates of the year it marks. -/
theorem lookup_addHoliday {date : Int × Int × Int} (fits : TwoDigits date)
    (map : List (String × String)) (h : Holiday) :
    ((addHoliday zone date.1 map h).lookup
        (dateKey date.1 date.2.1 date.2.2)).isSome ↔
      (map.lookup (dateKey date.1 date.2.1 date.2.2)).isSome ∨
        h.Marks (civilFromDays (zone.dayOf h.date)) date := by
  have held := twoDigits_civilFromDays (zone.dayOf h.date)
  unfold addHoliday Holiday.Marks
  generalize civilFromDays (zone.dayOf h.date) = local_ at held
  have exactly := dateKey_inj fits held
  have yearly := dateKey_inj fits
    (show TwoDigits (date.1, local_.2) from held)
  have sameYear : date = (date.1, local_.2) ↔ local_.2 = date.2 := by
    rw [Prod.ext_iff]
    exact ⟨fun same => same.2.symm, fun same => ⟨rfl, same.symm⟩⟩
  rw [sameYear] at yearly
  dsimp only at exactly yearly ⊢
  cases h.recurring with
  | false =>
      simp only [Bool.false_eq_true, if_false, List.lookup_isSome_iff,
        List.exists_mem_cons_iff, beq_iff_eq, false_and, or_false]
      rw [exactly, or_comm, eq_comm]
  | true =>
      simp only [if_true, List.lookup_isSome_iff, List.exists_mem_cons_iff,
        beq_iff_eq, true_and]
      rw [exactly, yearly, ← or_assoc, or_comm, eq_comm]

/-- A date is found in the map exactly when a holiday marks it. -/
theorem lookup_foldl_addHoliday {date : Int × Int × Int}
    (fits : TwoDigits date) (holidays : List Holiday)
    (map : List (String × String)) :
    ((holidays.foldl (addHoliday zone date.1) map).lookup
        (dateKey date.1 date.2.1 date.2.2)).isSome ↔
      (map.lookup (dateKey date.1 date.2.1 date.2.2)).isSome ∨
        ∃ h ∈ holidays,
          h.Marks (civilFromDays (zone.dayOf h.date)) date := by
  induction holidays generalizing map with
  | nil => simp
  | cons h holidays ih =>
      rw [List.foldl_cons, ih, lookup_addHoliday fits, or_assoc]
      simp only [List.mem_cons, exists_eq_or_imp]

end

namespace Db

/--
A holiday of the organisation marks a date, each taken to be held on some day.
-/
def HolidayOn (db : Db) (orgId : Nat) (held : Holiday → Int)
    (date : Int × Int × Int) : Prop :=
  ∃ h ∈ db.holidays.rows,
    h.organisationId = orgId ∧ h.Marks (civilFromDays (held h)) date

instance (db : Db) (orgId : Nat) (held : Holiday → Int)
    (date : Int × Int × Int) : Decidable (db.HolidayOn orgId held date) :=
  inferInstanceAs (Decidable (∃ h ∈ db.holidays.rows, _ ∧ _))

/-- The map of the report has the dates marked in local time. -/
theorem lookup_holidayMap (db : Db) (zone : Zone) (orgId : Nat)
    {date : Int × Int × Int} (fits : TwoDigits date) :
    (((db.holidays.select fun h => h.organisationId = orgId).foldl
        (addHoliday zone date.1) []).lookup
          (dateKey date.1 date.2.1 date.2.2)).isSome ↔
      db.HolidayOn orgId (fun h => zone.dayOf h.date) date := by
  rw [lookup_foldl_addHoliday fits]
  simp only [List.lookup_nil, Option.isSome_none, Bool.false_eq_true, false_or,
    Table.mem_select, HolidayOn, and_assoc]

end Db

/-! ## Rows of a report -/

/-- The rounds of the loop are numbered with two digits. -/
theorem monthDays_le {zone : Zone} {year month : Int} {d : Nat}
    (round : d ∈ monthDays zone year month) : d ≤ 31 := by
  rcases date : civilFromDays (zone.dayOf (localDate zone year month 0))
    with ⟨lastYear, lastMonth, last⟩
  obtain ⟨-, -, -, bounded, -⟩ := civilFromDays_eq_iff.mp date
  have short := monthLength_le (12 * lastYear + lastMonth - 1)
  simp only [monthDays, date, List.mem_map, List.mem_range] at round
  obtain ⟨index, below, rfl⟩ := round
  omega

namespace Db

/-- A day that the report of a month marks. -/
def MarkedOn (db : Db) (zone : Zone) (orgId : Nat) (year month : Int)
    (d : Nat) : Prop :=
  db.HolidayOn orgId (fun h => zone.dayOf h.date) (year, month, d)

/-- What the entries of a day add up to. -/
def dayTotals (db : Db) (zone : Zone) (orgId : Nat)
    (userId year month : Int) (d : Nat) : DayTotals :=
  (db.usedCells zone orgId userId year month d).foldl addCell
    ⟨0, 0, [], [], false⟩

/-- The report has a row for each round and adds the rows up. -/
structure ReportsMonth (db : Db) (zone : Zone) (orgId : Nat)
    (userId year month : Int) (data : MonthlyTimesheetData) : Prop
    extends data.AddsUp where
  rows : List.Forall₂ (fun d row => row.Records year month d
      (db.MarkedOn zone orgId year month d)
      (db.dayTotals zone orgId userId year month d))
    (monthDays zone year month) data.days

/-- Every answer of the export is such a report of the state it reads. -/
theorem reportsMonth {db : Db} {host : Host} {orgId : Nat}
    {userId year month : Int} (least : 1 ≤ month) (most : month ≤ 12)
    {requestingUserId : Nat} {role : UserRole} {data : MonthlyTimesheetData}
    (answered : ((generateMonthlyTimesheetData host orgId userId year month
      requestingUserId role).exec db).1 = .ok data) :
    db.ReportsMonth host.zone orgId userId year month data := by
  obtain ⟨records, addsUp⟩ := db.wp_generateMonthlyTimesheetData host orgId
    userId year month requestingUserId role data answered
  refine ⟨addsUp, ?_⟩
  have bounded := (List.forall₂_and_left _ _).mpr
    ⟨fun d round => monthDays_le round, records⟩
  apply bounded.imp
  rintro d row ⟨short, record⟩
  unfold recordsOf at record
  rw [db.dayTotals_usedCells] at record
  have fits : TwoDigits (year, month, (d : Int)) := by
    dsimp only [TwoDigits]
    omega
  have marked := db.lookup_holidayMap host.zone orgId fits
  exact { record with isHoliday := record.isHoliday.trans marked }

end Db

/-! ## Holidays held on their dates -/

/-- The offsets from UTC that are in use on earth. -/
def IsOffset (offset : Int) : Prop :=
  -43200000 ≤ offset ∧ offset ≤ 50400000

instance : DecidablePred IsOffset :=
  fun _ => inferInstanceAs (Decidable (_ ∧ _))

/-- The local date of a midnight of UTC. -/
theorem dayOf_utcMidnight {offset : Int} (clock : IsOffset offset)
    (day : Int) :
    (Zone.fixed offset).dayOf (day * dayMs) =
      if 0 ≤ offset then day else day - 1 := by
  unfold IsOffset at clock
  simp only [Zone.fixed, dayMs]
  split <;> omega

namespace Db

/-- Every holiday was created with a date. -/
def HolidaysDated (db : Db) : Prop :=
  ∀ h ∈ db.holidays.rows, ∃ date : IsoDate, date.toDate = some h.date

/-- Creating a holiday stores the date of the body. -/
theorem wp_createHoliday {db : Db} (dated : db.HolidaysDated) (orgId : Nat)
    (dto : CreateHolidayDto) :
    wp (createHoliday orgId dto) (fun _ after => after.HolidaysDated) db := by
  simp only [createHoliday, wp_statement]
  refine ⟨fun _ _ => dated, ?_⟩
  intro h after wrote
  cases parsed : dto.date.toDate with
  | none => simp [Prisma.holidayCreate, parsed] at wrote
  | some date =>
      simp only [Prisma.holidayCreate, parsed, ensure_eq_ok, Except.ok.injEq,
        Prod.mk.injEq] at wrote
      obtain ⟨-, -, -, rfl⟩ := wrote
      intro row member
      rcases Table.mem_insert.mp member with old | rfl
      · exact dated row old
      · exact ⟨dto.date, parsed⟩

/-- The calls of `createHoliday` for organisations, one after the other. -/
def createHolidays (db : Db) (calls : List (Nat × CreateHolidayDto)) : Db :=
  calls.foldl (fun db call => ((createHoliday call.1 call.2).exec db).2) db

theorem HolidaysDated.createHolidays {db : Db} (dated : db.HolidaysDated)
    (calls : List (Nat × CreateHolidayDto)) :
    (db.createHolidays calls).HolidaysDated := by
  induction calls generalizing db with
  | nil => exact dated
  | cons call calls ih => exact ih (wp_createHoliday dated call.1 call.2)

/-- In local time a dated holiday is held on its date or the day before. -/
theorem markedOn_fixed {db : Db} {orgId : Nat} (dated : db.HolidaysDated)
    {offset : Int} (clock : IsOffset offset) (year month : Int) (d : Nat) :
    db.MarkedOn (Zone.fixed offset) orgId year month d ↔
      db.HolidayOn orgId
        (fun h => if 0 ≤ offset then h.date / dayMs else h.date / dayMs - 1)
        (year, month, d) := by
  refine exists_congr fun h => and_congr_right fun member => ?_
  obtain ⟨date, parsed⟩ := dated h member
  obtain ⟨day, stored⟩ : ∃ day, h.date = day * dayMs := by
    unfold IsoDate.toDate at parsed
    split at parsed
    · exact ⟨_, (Option.some.inj parsed).symm⟩
    · cases parsed
  dsimp only
  rw [stored, dayOf_utcMidnight clock,
    Int.mul_ediv_cancel _ (by decide : dayMs ≠ 0)]

end Db

/-- The row is the one of a day and marks it as the holidays' dates say. -/
def MonthlyDayRow.MarksDay (row : MonthlyDayRow) (db : Db) (orgId : Nat)
    (year month : Int) (d : Nat) : Prop :=
  row.date = padStart2 d ++ "-" ++ nameAt monthShort (month - 1) ∧
    (row.isHoliday = true ↔
      db.HolidayOn orgId (fun h => h.date / dayMs) (year, month, d))

/-- One row a day in order, marked as the dates of the holidays say. -/
structure MonthlyTimesheetData.MarksHolidays (data : MonthlyTimesheetData)
    (db : Db) (orgId : Nat) (year month : Int) : Prop where
  rows : List.Forall₂ (fun d row => row.MarksDay db orgId year month d)
    (calendarDays year month) data.days
  count : data.holidayCount = data.days.countP (·.isHoliday)

/-- What rows say of their days says it of the days. -/
theorem forall₂_iff_forall {α β : Type} {R P : α → β → Prop} {Q : α → Prop}
    {xs : List α} {ys : List β} (rows : List.Forall₂ R xs ys)
    (exactly : ∀ x y, R x y → (P x y ↔ Q x)) :
    List.Forall₂ P xs ys ↔ ∀ x ∈ xs, Q x := by
  induction rows with
  | nil => simp
  | cons row _ ih =>
      rw [List.forall₂_cons, exactly _ _ row, ih, List.forall_mem_cons]

section

variable {db : Db} {host : Host} {offset : Int} {orgId requestingUserId : Nat}
  {userId year month : Int} {role : UserRole} {data : MonthlyTimesheetData}

/-- A report marks the right days when its local marks are the right ones. -/
theorem Db.ReportsMonth.marksHolidays_iff
    (reports : db.ReportsMonth host.zone orgId userId year month data)
    (late : 100 ≤ year) :
    data.MarksHolidays db orgId year month ↔
      ∀ d ∈ calendarDays year month,
        (db.MarkedOn host.zone orgId year month d ↔
          db.HolidayOn orgId (fun h => h.date / dayMs) (year, month, d)) := by
  have rows := reports.rows
  rw [monthDays_eq host.zone late] at rows
  have marked : ∀ (d : Nat) (row : MonthlyDayRow), row.Records year month d
      (db.MarkedOn host.zone orgId year month d)
      (db.dayTotals host.zone orgId userId year month d) →
        (row.MarksDay db orgId year month d ↔
          (db.MarkedOn host.zone orgId year month d ↔
            db.HolidayOn orgId (fun h => h.date / dayMs)
              (year, month, d))) := by
    intro d row records
    rw [MonthlyDayRow.MarksDay, records.isHoliday]
    exact and_iff_right records.date
  rw [← forall₂_iff_forall rows marked]
  exact ⟨fun marks => marks.rows, fun marks => ⟨marks, reports.holidayCount⟩⟩

/--
A report marks the days on which holidays are held exactly when the server is
not behind UTC, or the days before the holidays are the same days of the month.
-/
theorem holiday_marking_iff (clock : IsOffset offset)
    (fixed : host.zone = Zone.fixed offset) (dated : db.HolidaysDated)
    (late : 100 ≤ year) (least : 1 ≤ month) (most : month ≤ 12)
    (answered : ((generateMonthlyTimesheetData host orgId userId year month
      requestingUserId role).exec db).1 = .ok data) :
    data.MarksHolidays db orgId year month ↔
      0 ≤ offset ∨ ∀ d ∈ calendarDays year month,
        (db.HolidayOn orgId (fun h => h.date / dayMs - 1) (year, month, d) ↔
          db.HolidayOn orgId (fun h => h.date / dayMs) (year, month, d)) := by
  rw [(Db.reportsMonth least most answered).marksHolidays_iff late, fixed]
  simp only [Db.markedOn_fixed dated clock]
  by_cases ahead : 0 ≤ offset
  · simp only [ahead, if_true, implies_true, true_or]
  · simp only [ahead, if_false, false_or]

/-- An administrator may export the timesheet of every user. -/
theorem monthly_answers {user : User}
    (found : db.users.find? (fun u =>
      (u.id : Int) = userId ∧ u.organisationId = orgId) = some user) :
    ∃ data, ((generateMonthlyTimesheetData host orgId userId year month
      requestingUserId .admin).exec db).1 = .ok data := by
  have answered : wp (generateMonthlyTimesheetData host orgId userId year month
      requestingUserId .admin)
      (fun answer _ => ∃ data, answer = .ok data) db := by
    simp [generateMonthlyTimesheetData, assertCanExport, found]
  exact answered

end

/-! ## A server behind UTC -/

/-- The first of January is a holiday of an organisation. -/
def holidayDb : Db :=
  officeDb.createHolidays [(1, ⟨"New Year", january 1, none⟩)]

theorem holidayDb_dated : holidayDb.HolidaysDated := by
  have none : officeDb.holidays.rows = [] := by
    decide +kernel
  refine Db.HolidaysDated.createHolidays ?_ _
  intro h member
  rw [none] at member
  cases member

theorem holidayDb_ada : ∃ user, holidayDb.users.find? (fun u =>
    (u.id : Int) = 1 ∧ u.organisationId = 1) = some user :=
  Option.isSome_iff_exists.mp (by decide +kernel)

theorem holiday_marking_iff_utc : ∃ data,
    ((generateMonthlyTimesheetData plainHost 1 1 2024 1 1 .admin).exec
      holidayDb).1 = .ok data ∧ data.MarksHolidays holidayDb 1 2024 1 := by
  obtain ⟨user, found⟩ := holidayDb_ada
  obtain ⟨data, answered⟩ := monthly_answers found
  refine ⟨data, answered, ?_⟩
  exact (holiday_marking_iff (by decide) rfl holidayDb_dated
    (by decide) (by decide) (by decide) answered).mpr (.inl le_rfl)

/-- A server five hours behind UTC. -/
def easternHost : Host := { plainHost with zone := .fixed (-18000000) }

/-- On that server the export of January does not mark the first. -/
theorem newYear_unmarked :
    IsOffset (-18000000) ∧ holidayDb.HolidaysDated ∧ ∃ data,
      ((generateMonthlyTimesheetData easternHost 1 1 2024 1 1 .admin).exec
        holidayDb).1 = .ok data ∧
      ¬ data.MarksHolidays holidayDb 1 2024 1 := by
  obtain ⟨user, found⟩ := holidayDb_ada
  obtain ⟨data, answered⟩ := monthly_answers found
  refine ⟨by decide, holidayDb_dated, data, answered, ?_⟩
  rw [(Db.reportsMonth (by decide) (by decide) answered).marksHolidays_iff
    (by decide)]
  intro marked
  have first := marked 1 (by decide)
  have held : holidayDb.HolidayOn 1 (fun h => h.date / dayMs) (2024, 1, 1) ∧
      ¬ holidayDb.HolidayOn 1
        (fun h => easternHost.zone.dayOf h.date) (2024, 1, 1) := by
    decide +kernel
  exact held.2 (first.mpr held.1)

end TmsApi
