import Mathlib.Order.Monotone.Basic
import Mathlib.Order.Lattice.Nat
import Mathlib.Algebra.Order.Ring.Int
import Mathlib.Data.Int.ConditionallyCompleteOrder

/-!
# Local days, weeks and the civil calendar

Instants are integers counting milliseconds.  A time zone enters only through
the way it cuts the line of instants into numbered local days, so a zone is
the function naming the first instant of each day together with the function
naming the day of each instant, and the two agree by construction.

Weeks are the blocks of seven consecutive day numbers that begin on a chosen
residue.  The civil calendar turns day numbers into dates of the proleptic
Gregorian calendar and back.
-/

namespace TmsApi.Core

/-- Milliseconds since the epoch. -/
abbrev Instant := Int

/-- Milliseconds of a day. -/
def dayMs : Int := 86400000

/-- A division of time into local days. -/
structure Zone where
  /-- The first instant of a day. -/
  midnight : Int → Int
  /-- The day an instant belongs to. -/
  dayOf : Int → Int
  midnight_le : ∀ t, midnight (dayOf t) ≤ t
  lt_midnight : ∀ t, t < midnight (dayOf t + 1)
  increasing : StrictMono midnight

namespace Zone

variable (zone : Zone)

/-- An instant lies in a day exactly between two midnights. -/
theorem dayOf_eq_iff (t n : Int) :
    zone.dayOf t = n ↔ zone.midnight n ≤ t ∧ t < zone.midnight (n + 1) := by
  constructor
  · rintro rfl
    exact ⟨zone.midnight_le t, zone.lt_midnight t⟩
  · rintro ⟨lower, upper⟩
    have notBefore : n < zone.dayOf t + 1 :=
      zone.increasing.lt_iff_lt.mp (lt_of_le_of_lt lower (zone.lt_midnight t))
    have notAfter : zone.dayOf t < n + 1 :=
      zone.increasing.lt_iff_lt.mp (lt_of_le_of_lt (zone.midnight_le t) upper)
    omega

@[simp]
theorem dayOf_midnight (n : Int) : zone.dayOf (zone.midnight n) = n :=
  (zone.dayOf_eq_iff _ n).mpr
    ⟨le_refl _, zone.increasing (Int.lt_succ n)⟩

@[simp]
theorem midnight_inj {m n : Int} :
    zone.midnight m = zone.midnight n ↔ m = n :=
  zone.increasing.injective.eq_iff

/-- A server whose clock is a fixed number of milliseconds ahead of UTC. -/
def fixed (offset : Int) : Zone where
  midnight n := n * dayMs - offset
  dayOf t := (t + offset) / dayMs
  midnight_le t := by
    have bound := Int.mul_ediv_self_le (x := t + offset) (k := dayMs)
      (by decide)
    simp only [dayMs] at bound ⊢
    omega
  lt_midnight t := by
    have bound := Int.lt_mul_ediv_self_add (x := t + offset) (k := dayMs)
      (by decide)
    simp only [dayMs] at bound ⊢
    omega
  increasing := by
    intro m n less
    simp only [dayMs]
    omega

/-- How far a midnight lies behind that of UTC. -/
def lag (n : Int) : Int := zone.midnight n - n * dayMs

/-- The offsets of any two midnights differ by less than half a day. -/
def Steady : Prop := ∀ m n, 2 * (zone.lag m - zone.lag n) < dayMs

/-- The difference of two midnights, rounded to days, counts the days. -/
theorem Steady.rounded_days {zone : Zone} (steady : zone.Steady)
    (m n : Int) :
    (2 * (zone.midnight n - zone.midnight m) + dayMs) / (2 * dayMs) =
      n - m := by
  have forward := steady n m
  have backward := steady m n
  simp only [lag, dayMs] at *
  omega

/-- A fixed offset does not change. -/
theorem fixed_steady (offset : Int) : (fixed offset).Steady := by
  intro m n
  simp only [lag, fixed, dayMs]
  omega

end Zone

/-! ## Weeks of days -/

/-- The day of the week, with Sunday as zero; day zero was a Thursday. -/
def weekday (day : Int) : Int := (day + 4) % 7

/-- The last day at or before `day` whose weekday is `first`. -/
def weekFloor (first day : Int) : Int := day - (weekday day - first) % 7

theorem weekFloor_le (first day : Int) : weekFloor first day ≤ day := by
  unfold weekFloor
  omega

theorem lt_weekFloor_add (first day : Int) :
    day < weekFloor first day + 7 := by
  unfold weekFloor
  omega

/-- The first day of a week falls on the chosen weekday. -/
theorem weekday_weekFloor {first : Int} (nonneg : 0 ≤ first) (less : first < 7)
    (day : Int) : weekday (weekFloor first day) = first := by
  unfold weekFloor weekday
  omega

/-- The first day of a week is the first day of its own week. -/
@[simp]
theorem weekFloor_idem (first day : Int) :
    weekFloor first (weekFloor first day) = weekFloor first day := by
  unfold weekFloor weekday
  omega

/-! ## The civil calendar -/

/-- The day number of a civil date; days past a month's end run on. -/
def daysFromCivil (year month day : Int) : Int :=
  let y := if month ≤ 2 then year - 1 else year
  let era := y / 400
  let yearOfEra := y - era * 400
  let dayOfYear := (153 * ((month + 9) % 12) + 2) / 5 + day - 1
  let dayOfEra := yearOfEra * 365 + yearOfEra / 4 - yearOfEra / 100 + dayOfYear
  era * 146097 + dayOfEra - 719468

/-- The civil date of a day number, as year, month and day. -/
def civilFromDays (number : Int) : Int × Int × Int :=
  let z := number + 719468
  let era := z / 146097
  let dayOfEra := z - era * 146097
  let yearOfEra :=
    (dayOfEra - dayOfEra / 1460 + dayOfEra / 36524 - dayOfEra / 146096) / 365
  let dayOfYear :=
    dayOfEra - (365 * yearOfEra + yearOfEra / 4 - yearOfEra / 100)
  let shifted := (5 * dayOfYear + 2) / 153
  let day := dayOfYear - (153 * shifted + 2) / 5 + 1
  let month := if shifted < 10 then shifted + 3 else shifted - 9
  let year := yearOfEra + era * 400
  (if month ≤ 2 then year + 1 else year, month, day)

example : daysFromCivil 2024 2 29 = 19782 := by decide

example : civilFromDays 19782 = (2024, 2, 29) := by decide

end TmsApi.Core
