import Mathlib.Order.Bounds.Basic
import Mathlib.Order.GaloisConnection.Basic
import Mathlib.Order.Interval.Set.Basic
import TmsApi.Core.LocalTime

/-!
# Periods of a division of time

A division of time names the period of each instant and the first instant of
each period, and the two maps are adjoint.  Going back to the first instant of
a period is therefore monotone and idempotent, and it is constant exactly on
the periods, which are intervals that follow each other without a gap.

Seven periods taken together form the periods of a division again.  For local
days these are the weeks that begin on a chosen weekday.
-/

namespace TmsApi.Core

namespace Zone

variable (zone : Zone)

/-- A period has begun by an instant when it is no later than the instant's. -/
theorem midnight_le_iff {n : Int} {t : Instant} :
    zone.midnight n ≤ t ↔ n ≤ zone.dayOf t := by
  constructor
  · intro begun
    have before : zone.midnight n < zone.midnight (zone.dayOf t + 1) :=
      lt_of_le_of_lt begun (zone.lt_midnight t)
    exact Int.lt_add_one_iff.mp (zone.increasing.lt_iff_lt.mp before)
  · intro earlier
    exact (zone.increasing.monotone earlier).trans (zone.midnight_le t)

theorem galois : GaloisConnection zone.midnight zone.dayOf :=
  fun _ _ => zone.midnight_le_iff

/-- The first instant of the period of an instant. -/
def floor (t : Instant) : Instant := zone.midnight (zone.dayOf t)

/-- The last instant of the period of an instant. -/
def last (t : Instant) : Instant := zone.midnight (zone.dayOf t + 1) - 1

theorem floor_le (t : Instant) : zone.floor t ≤ t :=
  zone.galois.l_u_le t

theorem le_last (t : Instant) : t ≤ zone.last t :=
  Int.le_sub_one_of_lt (zone.lt_midnight t)

theorem floor_mono : Monotone zone.floor :=
  zone.galois.monotone_l.comp zone.galois.monotone_u

@[simp]
theorem floor_midnight (n : Int) :
    zone.floor (zone.midnight n) = zone.midnight n := by
  rw [floor, dayOf_midnight]

/-- Instants go back to the same instant exactly within one period. -/
theorem floor_eq_floor_iff {t u : Instant} :
    zone.floor t = zone.floor u ↔ u ∈ Set.Icc (zone.floor t) (zone.last t) := by
  rw [floor, floor, midnight_inj, eq_comm, dayOf_eq_iff, Set.mem_Icc, last,
    Int.le_sub_one_iff]

/-- The instant after the last one of a period begins the next period. -/
theorem isLeast_last_add_one (t : Instant) :
    IsLeast (Set.range zone.floor ∩ Set.Ioi (zone.floor t))
      (zone.last t + 1) := by
  unfold last
  rw [Int.sub_add_cancel]
  constructor
  · constructor
    · exact ⟨_, zone.floor_midnight _⟩
    · exact zone.increasing (Int.lt_succ _)
  · rintro _ ⟨⟨u, rfl⟩, later⟩
    have next : zone.dayOf t + 1 ≤ zone.dayOf u :=
      Int.add_one_le_iff.mpr (zone.increasing.lt_iff_lt.mp later)
    exact zone.increasing.monotone next

/-! ## Weeks as periods -/

/-- The weeks that begin on a weekday, numbered like days. -/
def weeks (first : Int) : Zone where
  midnight n := zone.midnight (7 * n + first - 4)
  dayOf t := (zone.dayOf t + 4 - first) / 7
  midnight_le t := by
    apply zone.midnight_le_iff.mpr
    omega
  lt_midnight t := by
    apply (zone.lt_midnight t).trans_le
    apply zone.increasing.monotone
    omega
  increasing := by
    intro m n less
    apply zone.increasing
    omega

theorem floor_weeks (first : Int) (t : Instant) :
    (zone.weeks first).floor t =
      zone.midnight (weekFloor first (zone.dayOf t)) := by
  apply congrArg zone.midnight
  unfold weeks weekFloor weekday
  dsimp only
  omega

theorem last_weeks (first : Int) (t : Instant) :
    (zone.weeks first).last t =
      zone.midnight (weekFloor first (zone.dayOf t) + 7) - 1 := by
  apply congrArg (zone.midnight · - 1)
  unfold weeks weekFloor weekday
  dsimp only
  omega

end Zone

end TmsApi.Core
