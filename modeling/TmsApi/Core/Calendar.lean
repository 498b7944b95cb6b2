import TmsApi.Core.LocalTime

/-!
# Months of the civil calendar

The months of the proleptic Gregorian calendar are numbered consecutively and
cut the line of days into blocks.  A month is fixed by the number of its first
day, which is strictly increasing, and the two conversions of
`TmsApi.Core.LocalTime` are inverse to each other on valid dates.

The computations count years from the first of March, so that the leap day
ends a year, and eras of four hundred years from a leap year.
-/

namespace TmsApi.Core

/-! ## Years counted from March -/

/-- The number of days before a year, counted from an era's first. -/
def daysBeforeYear (year : Int) : Int :=
  365 * year + year / 4 - year / 100 + year / 400

/-- The number of days before a month, counted from March. -/
def daysBeforeMonth (month : Int) : Int :=
  (153 * month + 2) / 5

/-- The days of an era without its leap days, as 365 days for each year. -/
def withoutLeapDays (dayOfEra : Int) : Int :=
  dayOfEra - dayOfEra / 1460 + dayOfEra / 36524 - dayOfEra / 146096

theorem withoutLeapDays_mono : Monotone withoutLeapDays := by
  apply monotone_int_of_le_succ
  intro dayOfEra
  unfold withoutLeapDays
  omega

/-- The first day of a year and the last of the year before are told apart. -/
theorem withoutLeapDays_firstDay : ∀ before : Nat, before < 400 →
    365 * (before + 1 : Int) ≤ withoutLeapDays (daysBeforeYear (before + 1)) ∧
      withoutLeapDays (daysBeforeYear (before + 1) - 1) <
        365 * (before + 1 : Int) := by
  decide +kernel

/-- The year of a day of an era is the last one that has begun. -/
theorem le_yearOfEra_iff {year dayOfEra : Int} (positive : 0 < year)
    (inEra : year ≤ 400) :
    year ≤ withoutLeapDays dayOfEra / 365 ↔ daysBeforeYear year ≤ dayOfEra := by
  obtain ⟨reached, missed⟩ := withoutLeapDays_firstDay (year - 1).toNat
    (by omega)
  rw [show ((year - 1).toNat : Int) + 1 = year by omega] at reached missed
  constructor
  · intro le
    by_contra before
    have less := withoutLeapDays_mono
      (show dayOfEra ≤ daysBeforeYear year - 1 by omega)
    omega
  · intro begun
    have least := withoutLeapDays_mono begun
    omega

/-- The year of a day of an era has begun and the next one has not. -/
theorem yearOfEra_spec {dayOfEra year : Int} (first : 0 ≤ dayOfEra)
    (last : dayOfEra < 146097) (is : year = withoutLeapDays dayOfEra / 365) :
    (0 ≤ year ∧ year < 400) ∧ daysBeforeYear year ≤ dayOfEra ∧
      dayOfEra < daysBeforeYear (year + 1) := by
  have nonneg : 0 ≤ year := by
    have least := withoutLeapDays_mono first
    have zero : withoutLeapDays 0 = 0 := by decide
    omega
  have lastYear : year < 400 := by
    by_contra past
    have begun : daysBeforeYear 400 ≤ dayOfEra :=
      (le_yearOfEra_iff (by decide) le_rfl).mp (by omega)
    have whole : daysBeforeYear 400 = 146097 := by decide
    omega
  refine ⟨⟨nonneg, lastYear⟩, ?_, ?_⟩
  · rcases Int.lt_or_eq_of_le nonneg with positive | zero
    · exact (le_yearOfEra_iff positive (by omega)).mp is.le
    · rw [← zero]
      exact first
  · by_contra reached
    have later := (le_yearOfEra_iff (show 0 < year + 1 by omega)
      (by omega)).mpr (Int.not_lt.mp reached)
    omega

/-- The month of a day of a year has begun and the next one has not. -/
theorem monthOfYear_spec {dayOfYear month : Int} (first : 0 ≤ dayOfYear)
    (last : dayOfYear ≤ 365) (is : month = (5 * dayOfYear + 2) / 153) :
    (0 ≤ month ∧ month < 12) ∧ daysBeforeMonth month ≤ dayOfYear ∧
      dayOfYear < daysBeforeMonth (month + 1) := by
  unfold daysBeforeMonth
  omega

/-! ## Months counted from March of year zero -/

/-- The number of days before a month. -/
def daysBefore (month : Int) : Int :=
  daysBeforeYear (month / 12) + daysBeforeMonth (month % 12)

theorem daysBefore_strictMono : StrictMono daysBefore := by
  apply strictMono_int_of_lt_succ
  intro month
  unfold daysBefore daysBeforeYear daysBeforeMonth
  omega

theorem daysBefore_add (year : Int) {month : Int} (nonneg : 0 ≤ month)
    (inYear : month < 12) :
    daysBefore (12 * year + month) =
      daysBeforeYear year + daysBeforeMonth month := by
  rw [daysBefore, show (12 * year + month) / 12 = year by omega,
    show (12 * year + month) % 12 = month by omega]

/-- Eras have the same number of days. -/
theorem daysBeforeYear_add_era (year era : Int) :
    daysBeforeYear (year + era * 400) = daysBeforeYear year + era * 146097 := by
  unfold daysBeforeYear
  omega

theorem daysBeforeYear_succ_le (year : Int) :
    daysBeforeYear (year + 1) ≤ daysBeforeYear year + 366 := by
  unfold daysBeforeYear
  omega

/-- A month ends before the next one, which may be in the next year. -/
theorem lt_daysBefore_succ {year month dayOfYear : Int} (nonneg : 0 ≤ month)
    (inYear : month < 12) (ahead : dayOfYear < daysBeforeMonth (month + 1))
    (yearAhead : daysBeforeYear year + dayOfYear < daysBeforeYear (year + 1)) :
    daysBeforeYear year + dayOfYear < daysBefore (12 * year + month + 1) := by
  rcases Int.lt_or_eq_of_le (show month + 1 ≤ 12 by omega) with same | last
  · rw [show 12 * year + month + 1 = 12 * year + (month + 1) by omega,
      daysBefore_add _ (by omega) same]
    omega
  · rw [show 12 * year + month + 1 = 12 * (year + 1) + 0 by omega,
      daysBefore_add _ (by decide) (by decide)]
    have zero : daysBeforeMonth 0 = 0 := by decide
    omega

/-- The conversion to day numbers, month by month. -/
theorem daysFromCivil_eq {year month : Int} (day : Int)
    (least : 1 ≤ month) (most : month ≤ 12) :
    daysFromCivil year month day =
      daysBefore (12 * year + month - 3) + day - 719469 := by
  have split : ∀ y m : Int, 0 ≤ m → m < 12 → m = (month + 9) % 12 →
      12 * year + month - 3 = 12 * y + m →
        y / 400 * 146097 + ((y - y / 400 * 400) * 365 +
          (y - y / 400 * 400) / 4 - (y - y / 400 * 400) / 100 +
            ((153 * ((month + 9) % 12) + 2) / 5 + day - 1)) - 719468 =
          daysBefore (12 * year + month - 3) + day - 719469 := by
    intro y m nonneg inYear shifted index
    rw [index, daysBefore_add y nonneg inYear, ← shifted]
    unfold daysBeforeYear daysBeforeMonth
    omega
  unfold daysFromCivil
  dsimp only
  by_cases early : month ≤ 2
  · rw [if_pos early]
    exact split (year - 1) (month + 9) (by omega) (by omega) (by omega)
      (by omega)
  · rw [if_neg early]
    exact split year (month - 3) (by omega) (by omega) (by omega) (by omega)

/-! ## Months counted from January of year zero -/

/-- The first day of a month. -/
def firstOfMonth (month : Int) : Int :=
  daysFromCivil (month / 12) (month % 12 + 1) 1

theorem firstOfMonth_eq (month : Int) :
    firstOfMonth month = daysBefore (month - 2) - 719468 := by
  rw [firstOfMonth, daysFromCivil_eq 1 (by omega) (by omega)]
  rw [show 12 * (month / 12) + (month % 12 + 1) - 3 = month - 2 by omega]
  omega

theorem firstOfMonth_strictMono : StrictMono firstOfMonth := by
  intro earlier later less
  rw [firstOfMonth_eq, firstOfMonth_eq]
  have before := daysBefore_strictMono
    (show earlier - 2 < later - 2 by omega)
  omega

/-- The number of days of a month. -/
def monthLength (month : Int) : Int :=
  firstOfMonth (month + 1) - firstOfMonth month

theorem monthLength_le (month : Int) : monthLength month ≤ 31 := by
  let year := (month - 2) / 12
  let index := (month - 2) % 12
  have first := daysBefore_add year (show 0 ≤ index by omega) (by omega)
  rw [monthLength, firstOfMonth_eq, firstOfMonth_eq,
    show month - 2 = 12 * year + index by omega, first]
  -- The last month counted from March is followed by the next year's first.
  by_cases last : index = 11
  · have longest := daysBeforeYear_succ_le year
    have next := daysBefore_add (year + 1) (le_refl 0) (by decide)
    rw [show month + 1 - 2 = 12 * (year + 1) + 0 by omega, next, last]
    unfold daysBeforeMonth
    omega
  · have next := daysBefore_add year (show 0 ≤ index + 1 by omega) (by omega)
    rw [show month + 1 - 2 = 12 * year + (index + 1) by omega, next]
    unfold daysBeforeMonth
    omega

/-- The month a day belongs to. -/
def monthOf (day : Int) : Int :=
  12 * (civilFromDays day).1 + (civilFromDays day).2.1 - 1

/-- The conversion to dates finds the block of days of a month. -/
theorem civilFromDays_spec (day : Int) :
    ∃ month, firstOfMonth month ≤ day ∧ day < firstOfMonth (month + 1) ∧
      civilFromDays day =
        (month / 12, month % 12 + 1, day - firstOfMonth month + 1) := by
  let era := (day + 719468) / 146097
  let dayOfEra := day + 719468 - era * 146097
  let yearOfEra := withoutLeapDays dayOfEra / 365
  let dayOfYear :=
    dayOfEra - (365 * yearOfEra + yearOfEra / 4 - yearOfEra / 100)
  let shifted := (5 * dayOfYear + 2) / 153
  let year := yearOfEra + era * 400
  obtain ⟨inEra, begun, ahead⟩ : (0 ≤ yearOfEra ∧ yearOfEra < 400) ∧ _ :=
    yearOfEra_spec (show 0 ≤ dayOfEra by omega) (by omega) rfl
  have sameYear : dayOfYear = dayOfEra - daysBeforeYear yearOfEra := by
    unfold daysBeforeYear
    omega
  have longest := daysBeforeYear_succ_le yearOfEra
  obtain ⟨inYear, monthBegun, monthAhead⟩ : (0 ≤ shifted ∧ shifted < 12) ∧ _ :=
    monthOfYear_spec (show 0 ≤ dayOfYear by omega) (by omega) rfl
  have start : daysBeforeYear year =
      daysBeforeYear yearOfEra + era * 146097 :=
    daysBeforeYear_add_era yearOfEra era
  have nextStart : daysBeforeYear (year + 1) =
      daysBeforeYear (yearOfEra + 1) + era * 146097 := by
    rw [show year + 1 = yearOfEra + 1 + era * 400 by omega]
    exact daysBeforeYear_add_era _ era
  have first := daysBefore_add year inYear.1 inYear.2
  have next : daysBeforeYear year + dayOfYear <
      daysBefore (12 * year + shifted + 1) :=
    lt_daysBefore_succ inYear.1 inYear.2 monthAhead (by omega)
  refine ⟨12 * year + shifted + 2, ?_⟩
  rw [firstOfMonth_eq, firstOfMonth_eq, Int.add_sub_cancel,
    show 12 * year + shifted + 2 + 1 - 2 = 12 * year + shifted + 1 by omega]
  refine ⟨by omega, by omega, ?_⟩
  have date : civilFromDays day =
      (if (if shifted < 10 then shifted + 3 else shifted - 9) ≤ 2 then
          year + 1 else year,
        if shifted < 10 then shifted + 3 else shifted - 9,
        dayOfYear - daysBeforeMonth shifted + 1) := rfl
  rw [date, Prod.mk.injEq, Prod.mk.injEq]
  refine ⟨?_, ?_, by omega⟩
  · split <;> split <;> omega
  · split <;> omega

/-- A date names the month of its day and the place of the day in it. -/
theorem monthOf_spec (day : Int) :
    firstOfMonth (monthOf day) ≤ day ∧
      day < firstOfMonth (monthOf day + 1) ∧
        civilFromDays day =
          (monthOf day / 12, monthOf day % 12 + 1,
            day - firstOfMonth (monthOf day) + 1) := by
  obtain ⟨month, begun, ahead, date⟩ := civilFromDays_spec day
  have index : monthOf day = month := by
    unfold monthOf
    rw [date]
    dsimp only
    omega
  rw [index]
  exact ⟨begun, ahead, date⟩

/-- The day lies in a month exactly between two first days. -/
theorem monthOf_eq_iff (day month : Int) :
    monthOf day = month ↔
      firstOfMonth month ≤ day ∧ day < firstOfMonth (month + 1) := by
  constructor
  · rintro rfl
    obtain ⟨begun, ahead, -⟩ := monthOf_spec day
    exact ⟨begun, ahead⟩
  · rintro ⟨begun, ahead⟩
    obtain ⟨lower, upper, -⟩ := monthOf_spec day
    have notBefore : month < monthOf day + 1 :=
      firstOfMonth_strictMono.lt_iff_lt.mp (lt_of_le_of_lt begun upper)
    have notAfter : monthOf day < month + 1 :=
      firstOfMonth_strictMono.lt_iff_lt.mp (lt_of_le_of_lt lower ahead)
    omega

theorem monthOf_mono : Monotone monthOf := by
  intro earlier later le
  obtain ⟨lower, -⟩ := monthOf_spec earlier
  obtain ⟨-, upper, -⟩ := monthOf_spec later
  have less : monthOf earlier < monthOf later + 1 :=
    firstOfMonth_strictMono.lt_iff_lt.mp (by omega)
  omega

/-- The date of a day, counted from the first of its month. -/
theorem civilFromDays_eq_iff {day year month dayOfMonth : Int} :
    civilFromDays day = (year, month, dayOfMonth) ↔
      1 ≤ month ∧ month ≤ 12 ∧ 1 ≤ dayOfMonth ∧
        dayOfMonth ≤ monthLength (12 * year + month - 1) ∧
          day = firstOfMonth (12 * year + month - 1) + dayOfMonth - 1 := by
  constructor
  · intro date
    obtain ⟨lower, upper, spec⟩ := monthOf_spec day
    rw [spec, Prod.mk.injEq, Prod.mk.injEq] at date
    obtain ⟨rfl, rfl, rfl⟩ := date
    rw [show 12 * (monthOf day / 12) + (monthOf day % 12 + 1) - 1 =
      monthOf day by omega]
    refine ⟨by omega, by omega, by omega, ?_, by omega⟩
    unfold monthLength
    omega
  · rintro ⟨least, most, positive, last, rfl⟩
    unfold monthLength at last
    have index := (monthOf_eq_iff
      (firstOfMonth (12 * year + month - 1) + dayOfMonth - 1)
      (12 * year + month - 1)).mpr ⟨by omega, by omega⟩
    rw [(monthOf_spec _).2.2, index, Prod.mk.injEq, Prod.mk.injEq]
    exact ⟨by omega, by omega, by omega⟩

end TmsApi.Core
