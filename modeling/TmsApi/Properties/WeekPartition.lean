import TmsApi.Core.Periods
import TmsApi.Properties.Weeks

/-!
# Weeks partition local time

`getWeekStart` goes back to the first instant of a week and `getWeekEnd` goes
on to its last one.  Both are those of the division of local time into weeks,
whatever the start day, although the source computes the shift differently for
Monday and for Sunday.

In an organisation whose timesheets lie on whole and distinct weeks, an instant
therefore belongs to one timesheet of a user at most.
-/

namespace TmsApi

open TmsApi.Core

section

variable (zone : Zone) (t u : Instant) (startDay : WorkWeekStart)

/-! ## Weeks as periods -/

theorem getWeekStart_eq_floor :
    getWeekStart zone t startDay = (zone.weeks startDay.weekday).floor t := by
  rw [getWeekStart_eq, Zone.floor_weeks]

theorem getWeekEnd_getWeekStart :
    getWeekEnd zone (getWeekStart zone t startDay) =
      (zone.weeks startDay.weekday).last t := by
  rw [getWeekStart_eq, getWeekEnd, Zone.dayOf_midnight, Zone.last_weeks,
    add_assoc]
  rfl

/-- The instants of the week of an instant. -/
def weekOf : Set Instant :=
  Set.Icc (getWeekStart zone t startDay)
    (getWeekEnd zone (getWeekStart zone t startDay))

theorem weekOf_eq :
    weekOf zone t startDay =
      Set.Icc ((zone.weeks startDay.weekday).floor t)
        ((zone.weeks startDay.weekday).last t) := by
  rw [weekOf, getWeekEnd_getWeekStart, getWeekStart_eq_floor]

/-- Every instant is in its own week. -/
theorem mem_weekOf : t ∈ weekOf zone t startDay := by
  rw [weekOf_eq]
  exact ⟨Zone.floor_le _ t, Zone.le_last _ t⟩

/-- Instants have the same week start exactly within one week. -/
theorem getWeekStart_eq_iff :
    getWeekStart zone t startDay = getWeekStart zone u startDay ↔
      u ∈ weekOf zone t startDay := by
  rw [weekOf_eq, getWeekStart_eq_floor, getWeekStart_eq_floor]
  exact Zone.floor_eq_floor_iff _

/-- A week starts at a local midnight. -/
theorem floor_getWeekStart :
    zone.floor (getWeekStart zone t startDay) =
      getWeekStart zone t startDay := by
  rw [getWeekStart_eq, Zone.floor_midnight]

theorem getDay_getWeekStart :
    getDay zone (getWeekStart zone t startDay) = startDay.weekday := by
  rw [getDay, getWeekStart_eq, Zone.dayOf_midnight]
  cases startDay with
  | monday => exact weekday_weekFloor (by decide) (by decide) _
  | sunday => exact weekday_weekFloor (by decide) (by decide) _

theorem getWeekStart_mono :
    Monotone fun t => getWeekStart zone t startDay := by
  intro t u earlier
  simp only [getWeekStart_eq_floor]
  exact Zone.floor_mono _ earlier

/-- A millisecond after the end of a week the next one starts. -/
theorem isLeast_getWeekEnd_add_one :
    IsLeast
      (Set.range (fun u => getWeekStart zone u startDay) ∩
        Set.Ioi (getWeekStart zone t startDay))
      (getWeekEnd zone (getWeekStart zone t startDay) + 1) := by
  rw [getWeekEnd_getWeekStart]
  simp only [getWeekStart_eq_floor]
  exact Zone.isLeast_last_add_one _ t

end

/-- What it takes of the two functions to cut local time into weeks. -/
structure PartitionsTime (zone : Zone) (startDay : WorkWeekStart) : Prop where
  /-- The first instant of a week is a local midnight on the start day. -/
  midnight : ∀ t, zone.floor (getWeekStart zone t startDay) =
    getWeekStart zone t startDay
  firstDay : ∀ t, getDay zone (getWeekStart zone t startDay) =
    startDay.weekday
  covers : ∀ t, t ∈ weekOf zone t startDay
  idem : ∀ t, getWeekStart zone (getWeekStart zone t startDay) startDay =
    getWeekStart zone t startDay
  mono : Monotone fun t => getWeekStart zone t startDay
  sameWeek : ∀ t u, getWeekStart zone t startDay =
    getWeekStart zone u startDay ↔ u ∈ weekOf zone t startDay
  /-- The instant after a week is the least of the later week starts. -/
  next : ∀ t, IsLeast
    (Set.range (fun u => getWeekStart zone u startDay) ∩
      Set.Ioi (getWeekStart zone t startDay))
    (getWeekEnd zone (getWeekStart zone t startDay) + 1)

/-- With a constant offset from UTC, weeks partition local time. -/
theorem weeks_partition_time (offset : Int) (startDay : WorkWeekStart) :
    PartitionsTime (Zone.fixed offset) startDay where
  midnight t := floor_getWeekStart _ t startDay
  firstDay t := getDay_getWeekStart _ t startDay
  covers t := mem_weekOf _ t startDay
  idem t := getWeekStart_idem _ t startDay
  mono := getWeekStart_mono _ startDay
  sameWeek t u := getWeekStart_eq_iff _ t u startDay
  next t := isLeast_getWeekEnd_add_one _ t startDay

-- The first Sunday after the epoch is in the week of a Monday before it.
example : getWeekStart (.fixed 0) (3 * dayMs) .monday = -3 * dayMs := by
  decide

/-! ## The range of dates -/

/-- The instants a `Date` holds, a hundred million days around the epoch. -/
def dateRange : Set Instant :=
  Set.Icc (-100000000 * dayMs) (100000000 * dayMs)

/-- With a constant offset a week has seven days of equal length. -/
theorem weekOf_fixed (offset : Int) (t : Instant) (startDay : WorkWeekStart) :
    weekOf (Zone.fixed offset) t startDay =
      Set.Ico (getWeekStart (Zone.fixed offset) t startDay)
        (getWeekStart (Zone.fixed offset) t startDay + 7 * dayMs) := by
  ext u
  have last : getWeekEnd (Zone.fixed offset)
      (getWeekStart (Zone.fixed offset) t startDay) =
        getWeekStart (Zone.fixed offset) t startDay + 7 * dayMs - 1 := by
    have days (n : Int) : (n + 6 + 1) * dayMs - offset - 1 =
        n * dayMs - offset + 7 * dayMs - 1 := by
      unfold dayMs
      omega
    rw [getWeekStart_eq, getWeekEnd, Zone.dayOf_midnight]
    exact days _
  rw [weekOf, Set.mem_Icc, Set.mem_Ico, last, Int.le_sub_one_iff]

/-- Seven days inside the range the two functions stay within it. -/
theorem weekOf_subset_dateRange (offset : Int) {t : Instant}
    (startDay : WorkWeekStart) (early : t - 7 * dayMs ∈ dateRange)
    (late : t + 7 * dayMs ∈ dateRange) :
    weekOf (Zone.fixed offset) t startDay ⊆ dateRange := by
  intro u member
  have own := mem_weekOf (Zone.fixed offset) t startDay
  rw [weekOf_fixed, Set.mem_Ico] at own member
  constructor
  · have start := sub_le_iff_le_add.mpr own.2.le
    exact (early.1.trans start).trans member.1
  · have finish := member.2.le.trans (add_le_add_left own.1 (7 * dayMs))
    exact finish.trans late.2

/-! ## Timesheets on weeks -/

/-- The instants between the dates of a timesheet. -/
def Timesheet.period (t : Timesheet) : Set Instant :=
  Set.Icc t.weekStartDate t.weekEndDate

/-- A timesheet on a whole week starts where the week of its instants does. -/
theorem NormalWeek.getWeekStart_eq {zone : Zone} {startDay : WorkWeekStart}
    {t : Timesheet} (normal : NormalWeek zone startDay t) {date : Instant}
    (covered : date ∈ t.period) :
    getWeekStart zone date startDay = t.weekStartDate := by
  have week : t.period = weekOf zone t.weekStartDate startDay := by
    rw [Timesheet.period, weekOf, normal.start, normal.finish]
  rw [week] at covered
  rw [← (getWeekStart_eq_iff _ _ _ _).mpr covered, normal.start]

/-- No instant belongs to two timesheets of a user. -/
theorem WeekCalendar.eq_of_mem_period {zone : Zone} {startDay : WorkWeekStart}
    {orgId : Nat} {db : Db} (calendar : WeekCalendar zone startDay orgId db)
    {t u : Timesheet} (tMem : t ∈ db.timesheets.rows)
    (uMem : u ∈ db.timesheets.rows) (tOrg : t.organisationId = orgId)
    (uOrg : u.organisationId = orgId) (owner : t.userId = u.userId)
    {date : Instant} (inT : date ∈ t.period) (inU : date ∈ u.period) :
    t = u := by
  have tStart := (calendar.normal t tMem tOrg).getWeekStart_eq inT
  have uStart := (calendar.normal u uMem uOrg).getWeekStart_eq inU
  exact calendar.unique t tMem u uMem tOrg uOrg owner
    (tStart.symm.trans uStart)

/--
After a run with a constant zone and week start, whose moves name the date the
timesheet already has, no instant belongs to two timesheets of a user.
-/
theorem periods_apart_along (lib : Libs) (zone : Zone)
    (startDay : WorkWeekStart) (orgId : Nat) (requests : List Request)
    (met : World.Along
      (fun world request => SteadyWeek zone startDay orgId world request ∧
        KeepsWeek orgId world request)
      lib .empty requests)
    {t u : Timesheet}
    (tMem : t ∈ (World.empty.run lib requests).db.timesheets.rows)
    (uMem : u ∈ (World.empty.run lib requests).db.timesheets.rows)
    (tOrg : t.organisationId = orgId) (uOrg : u.organisationId = orgId)
    (owner : t.userId = u.userId) {date : Instant} (inT : date ∈ t.period)
    (inU : date ∈ u.period) : t = u :=
  (weekCalendar_along lib zone startDay orgId requests met).eq_of_mem_period
    tMem uMem tOrg uOrg owner inT inU

end TmsApi
