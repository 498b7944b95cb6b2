import TmsApi.Services.Team
import Mathlib.Data.List.Sort

/-!
# `services/reports.service.ts`

Reports over a range of dates and the data of the monthly timesheet export.
Both only read.  An identifier of the query string is an integer or, like
`NaN` and a missing one, `none`; the service takes zero for missing as well.
-/

namespace TmsApi

open TmsApi.Core
open TmsApi.Core.Program

/-! ## Reports -/

structure ReportFilters where
  dateFrom : JsDate
  dateTo : JsDate
  userId : Option Int
  status : Option TimesheetStatus
  projectId : Option Int

/-- The user columns a report includes. -/
structure ReportUser where
  id : Nat
  name : String
  email : String
  department : Option String
deriving DecidableEq

/-- The project columns a report includes. -/
structure ReportProject where
  id : Nat
  code : String
  name : String
  client : String
deriving DecidableEq

structure ReportEntry where
  entry : TimeEntry
  project : Option ReportProject
deriving DecidableEq

structure ReportTimesheet where
  timesheet : Timesheet
  user : Option ReportUser
  timeEntries : List ReportEntry
deriving DecidableEq

structure ReportAggregates where
  totalHours : ℚ
  billableHours : ℚ
  nonBillableHours : ℚ
  utilization : Int
  timesheetCount : Nat
deriving DecidableEq

structure Report where
  timesheets : List ReportTimesheet
  aggregates : ReportAggregates
deriving DecidableEq

/-- An identifier as a condition: zero is falsy. -/
def truthy (id : Option Int) : Option Int :=
  id.filter (· ≠ 0)

/-- The condition of a `where` on the owner of a timesheet. -/
inductive UserFilter where
  | all
  | only (userId : Int)
  | within (ids : List Nat)
deriving DecidableEq

/-- The owner meets the condition. -/
def UserFilter.Admits : UserFilter → Nat → Prop
  | .all, _ => True
  | .only userId, id => (id : Int) = userId
  | .within ids, id => id ∈ ids

instance : ∀ (filter : UserFilter) (id : Nat), Decidable (filter.Admits id)
  | .all, _ => .isTrue trivial
  | .only userId, id => inferInstanceAs (Decidable ((id : Int) = userId))
  | .within ids, id => inferInstanceAs (Decidable (id ∈ ids))

/-- The scope of a role, and its check of the user a report asks for. -/
def userScope (orgId : Nat) (filters : ReportFilters)
    (requestingUserId : Nat) : UserRole → Service UserFilter
  | .employee => do
      throwIf (∃ userId ∈ truthy filters.userId, userId ≠ requestingUserId)
        (.forbidden "Insufficient permissions")
      return .only requestingUserId
  | .manager => do
      let directReportIds ← getDirectReportIds requestingUserId orgId
      let allowedIds := directReportIds ++ [requestingUserId]
      throwIf (∃ userId ∈ truthy filters.userId,
          ∀ id ∈ allowedIds, (id : Int) ≠ userId)
        (.forbidden "You can only view reports for your direct reports")
      return .within allowedIds
  | .admin => return .all

/-- `...(filters.userId ? { userId: filters.userId } : userScope)`. -/
def ReportFilters.owner (filters : ReportFilters) (scope : UserFilter) :
    UserFilter :=
  match truthy filters.userId with
  | some userId => .only userId
  | none => scope

namespace Db

/-- The project columns included with an entry. -/
def reportProject (db : Db) (id : Nat) : Option ReportProject :=
  (db.projects.find? fun p => p.id = id).map fun p =>
    ⟨p.id, p.code, p.name, p.client⟩

/-- The user columns included with a timesheet. -/
def reportUser (db : Db) (id : Nat) : Option ReportUser :=
  (db.users.find? fun u => u.id = id).map fun u =>
    ⟨u.id, u.name, u.email, u.department⟩

/-- A timesheet with its entries, of one project or of all. -/
def reportTimesheet (db : Db) (projectId : Option Int) (t : Timesheet) :
    ReportTimesheet where
  timesheet := t
  user := db.reportUser t.userId
  timeEntries :=
    (db.timeEntries.select fun e =>
      e.timesheetId = t.id ∧ ∀ id ∈ projectId, (e.projectId : Int) = id).map
        fun e => ⟨e, db.reportProject e.projectId⟩

/-- The `where` of a report, newest week first. -/
def reportRows (db : Db) (orgId : Nat) (gte lte : Instant)
    (user : UserFilter) (status : Option TimesheetStatus) :
    List Timesheet :=
  (db.timesheets.select fun t =>
    t.organisationId = orgId ∧ (gte ≤ t.weekStartDate ∧
      t.weekStartDate ≤ lte) ∧ user.Admits t.userId ∧
        ∀ s ∈ status, t.status = s).insertionSort fun a b =>
          b.weekStartDate ≤ a.weekStartDate

end Db

/--
`Math.round`.  Hours are rational here, and so is a percentage of them.  The
quotient of two doubles may fall below a half: 5.75 of 10 hours is 57 percent
there.
-/
def mathRound (q : ℚ) : Int :=
  (q + 1 / 2).floor

/-- The sums of a report. -/
def reportAggregates (timesheets : List ReportTimesheet) :
    ReportAggregates :=
  let totalHours := sumBy (·.timesheet.totalHours) timesheets
  let billableHours := sumBy (·.timesheet.billableHours) timesheets
  { totalHours := totalHours
    billableHours := billableHours
    nonBillableHours := totalHours - billableHours
    utilization :=
      if totalHours > 0 then mathRound (billableHours / totalHours * 100)
      else 0
    timesheetCount := timesheets.length }

def generateReport (orgId : Nat) (filters : ReportFilters)
    (requestingUserId : Nat) (requestingUserRole : UserRole) :
    Service Report := do
  let scope ← userScope orgId filters requestingUserId requestingUserRole
  let dates ← orThrow
    (filters.dateFrom.bind fun gte => filters.dateTo.map fun lte => (gte, lte))
    (.driver .invalidValue)
  let timesheets ← query fun db =>
    (db.reportRows orgId dates.1 dates.2 (filters.owner scope)
      filters.status).map
      (db.reportTimesheet (truthy filters.projectId))
  return {
    timesheets := timesheets
    aggregates := reportAggregates timesheets }

/-! ## The monthly timesheet -/

/-- The local day of `new Date(year, monthIndex, day)`; 24 means 1924. -/
def localDay (year monthIndex day : Int) : Int :=
  let full := if 0 ≤ year ∧ year ≤ 99 then 1900 + year else year
  daysFromCivil (full + monthIndex / 12) (monthIndex % 12 + 1) 1 + (day - 1)

example : civilFromDays (localDay 2024 2 0) = (2024, 2, 29) := by decide

/-- `new Date(year, monthIndex, day)`. -/
def localDate (zone : Zone) (year monthIndex day : Int) : Instant :=
  zone.midnight (localDay year monthIndex day)

/-- `String(n).padStart(2, '0')`. -/
def padStart2 (n : Int) : String :=
  let text := toString n
  if text.length < 2 then "0" ++ text else text

/-- The keys of the holiday map. -/
def dateKey (year month day : Int) : String :=
  toString year ++ "-" ++ padStart2 month ++ "-" ++ padStart2 day

/-- `DAY_KEYS`. -/
def dayKeys : List Weekday :=
  [.monday, .tuesday, .wednesday, .thursday, .friday, .saturday, .sunday]

/-- The column of a weekday. -/
def columnOf {α : Type} (week : Week α) : Weekday → α
  | .monday => week.mon
  | .tuesday => week.tue
  | .wednesday => week.wed
  | .thursday => week.thu
  | .friday => week.fri
  | .saturday => week.sat
  | .sunday => week.sun

@[simp]
theorem columnOf_map {α β : Type} (f : α → β) (week : Week α)
    (day : Weekday) : columnOf (week.map f) day = f (columnOf week day) := by
  cases day <;> rfl

@[simp]
theorem columnOf_zipWith {α β γ : Type} (f : α → β → γ) (left : Week α)
    (right : Week β) (day : Weekday) :
    columnOf (left.zipWith f right) day =
      f (columnOf left day) (columnOf right day) := by
  cases day <;> rfl

/-- Weeks with the same columns are the same. -/
theorem ext_columnOf {α : Type} {left right : Week α}
    (same : ∀ day, columnOf left day = columnOf right day) :
    left = right :=
  Week.ext (same .monday) (same .tuesday) (same .wednesday) (same .thursday)
    (same .friday) (same .saturday) (same .sunday)

/-- A property of every day is one of every column. -/
theorem all_iff_columnOf {α : Type} {p : α → Prop} {week : Week α} :
    week.All p ↔ ∀ day, p (columnOf week day) := by
  rw [Week.all_iff]
  constructor
  · rintro ⟨mon, tue, wed, thu, fri, sat, sun⟩ day
    cases day <;> assumption
  · intro every
    exact ⟨every .monday, every .tuesday, every .wednesday, every .thursday,
      every .friday, every .saturday, every .sunday⟩

def dayNames : List String :=
  ["Sunday", "Monday", "Tuesday", "Wednesday", "Thursday", "Friday",
    "Saturday"]

def monthShort : List String :=
  ["Jan", "Feb", "Mar", "Apr", "May", "Jun", "Jul", "Aug", "Sep", "Oct",
    "Nov", "Dec"]

def monthFull : List String :=
  ["January", "February", "March", "April", "May", "June", "July", "August",
    "September", "October", "November", "December"]

/-- `names[index]` in a template literal. -/
def nameAt (names : List String) (index : Int) : String :=
  if 0 ≤ index then names.getD index.toNat "undefined" else "undefined"

/-- The weekday column a date falls into, counted from the week's start. -/
def getDayKeyForDate (date weekStart : Instant) : Option Weekday :=
  let diff := (2 * (date - weekStart) + dayMs) / (2 * dayMs)
  if diff < 0 ∨ diff > 6 then none else dayKeys[diff.toNat]?

/-- Both keys of a holiday, later ones before earlier ones. -/
def addHoliday (zone : Zone) (year : Int) (map : List (String × String))
    (h : Holiday) : List (String × String) :=
  let (hYear, hMonth, hDay) := civilFromDays (zone.dayOf h.date)
  let recurring :=
    if h.recurring then (dateKey year hMonth hDay, h.name) :: map else map
  (dateKey hYear hMonth hDay, h.name) :: recurring

/-- `s.toLowerCase().includes('leave')`. -/
def mentionsLeave (s : String) : Bool :=
  decide ("leave".toList <:+: s.toLower.toList)

/-- `if (text && !texts.includes(text)) texts.push(text)`. -/
def pushNew (texts : List String) (text : String) : List String :=
  if text ≠ "" ∧ text ∉ texts then texts ++ [text] else texts

/-- What the entries of a day add up to. -/
structure DayTotals where
  dayHours : ℚ
  dayTimeOff : ℚ
  projectNames : List String
  taskDescs : List String
  isLeave : Bool

/-- One entry of the week a day belongs to. -/
def addEntry (dayKey : Weekday) (day : DayTotals) (entry : ReportEntry) :
    DayTotals :=
  let hours := columnOf entry.entry.hours dayKey
  let timeOff := columnOf entry.entry.timeOff dayKey
  let pName := (entry.project.map (·.name)).getD ""
  let code := (entry.project.map (·.code)).getD ""
  let day :=
    if hours > 0 then
      { day with
        dayHours := day.dayHours + hours
        projectNames := pushNew day.projectNames pName
        taskDescs :=
          pushNew day.taskDescs
            ((columnOf entry.entry.desc dayKey).getD "")
        isLeave := day.isLeave || mentionsLeave pName || mentionsLeave code }
    else day
  if timeOff > 0 then
    { day with dayTimeOff := day.dayTimeOff + timeOff, isLeave := true }
  else day

/-- The entries of one timesheet, when it covers the date. -/
def addTimesheet (date : Instant) (day : DayTotals) (ts : ReportTimesheet) :
    DayTotals :=
  match getDayKeyForDate date ts.timesheet.weekStartDate with
  | none => day
  | some dayKey => ts.timeEntries.foldl (addEntry dayKey) day

structure MonthlyDayRow where
  date : String
  day : String
  project : String
  task : String
  time : ℚ
  overtime : ℚ
  totalTime : ℚ
  timeOffHours : ℚ
  isHoliday : Bool
  holidayName : Option String
  isLeave : Bool
  isWeekend : Bool
deriving DecidableEq

structure MonthlyTimesheetData where
  employeeName : String
  employeeId : Nat
  department : String
  month : String
  monthFull : String
  days : List MonthlyDayRow
  totalHours : ℚ
  totalOvertime : ℚ
  holidayCount : Nat
  leaveCount : Nat
deriving DecidableEq

/-- The variables of the loop over the days of a month. -/
structure MonthTotals where
  days : List MonthlyDayRow
  totalHours : ℚ
  totalOvertime : ℚ
  holidayCount : Nat
  leaveCount : Nat

/-- One round of the loop. -/
def addDay (zone : Zone) (year month : Int)
    (holidayMap : List (String × String)) (timesheets : List ReportTimesheet)
    (totals : MonthTotals) (d : Nat) : MonthTotals :=
  let date := localDate zone year (month - 1) d
  let dayOfWeek := getDay zone date
  let isWeekend := dayOfWeek = 0 ∨ dayOfWeek = 6
  let holidayName := holidayMap.lookup (dateKey year month d)
  let isHoliday := holidayName.isSome
  let day := timesheets.foldl (addTimesheet date) ⟨0, 0, [], [], false⟩
  let regularHours := min day.dayHours 8
  let overtime := if day.dayHours > 8 then day.dayHours - 8 else 0
  let worked := ¬ isHoliday ∧ ¬ day.isLeave ∧ ¬ isWeekend
  { days :=
      totals.days ++
        [{ date := padStart2 d ++ "-" ++ nameAt monthShort (month - 1)
           day := nameAt dayNames dayOfWeek
           project := ", ".intercalate day.projectNames
           task := ", ".intercalate day.taskDescs
           time := if isHoliday ∨ day.isLeave then 0 else regularHours
           overtime := overtime
           totalTime := if isHoliday ∨ day.isLeave then 0 else day.dayHours
           timeOffHours := day.dayTimeOff
           isHoliday := isHoliday
           holidayName := holidayName
           isLeave := day.isLeave
           isWeekend := isWeekend }]
    totalHours :=
      if worked then totals.totalHours + regularHours else totals.totalHours
    totalOvertime :=
      if worked then totals.totalOvertime + overtime
      else totals.totalOvertime
    holidayCount := totals.holidayCount + if isHoliday then 1 else 0
    leaveCount := totals.leaveCount + if day.isLeave then 1 else 0 }

/-- The timesheets of a user that may overlap a month, with their entries. -/
def Db.monthTimesheets (db : Db) (orgId : Nat) (userId : Int)
    (searchStart searchEnd : Instant) : List ReportTimesheet :=
  (db.timesheets.select fun t =>
    (t.userId : Int) = userId ∧ t.organisationId = orgId ∧
      searchStart ≤ t.weekStartDate ∧ t.weekStartDate ≤ searchEnd).map
        (db.reportTimesheet none)

/-- The permission check of the monthly timesheet. -/
def assertCanExport (orgId : Nat) (targetUserId : Int)
    (requestingUserId : Nat) : UserRole → Service PUnit
  | .employee =>
      throwIf (targetUserId ≠ requestingUserId)
        (.forbidden "Insufficient permissions")
  | .manager =>
      whenever (targetUserId ≠ requestingUserId) do
        let directReportIds ← getDirectReportIds requestingUserId orgId
        throwIf (∀ id ∈ directReportIds, (id : Int) ≠ targetUserId)
          (.forbidden "You can only view reports for your direct reports")
  | .admin => return ⟨⟩

/--
An instant has no range here.  A `Date` has: far years, from 275760 on, are
invalid there, and the driver refuses the query.
-/
def generateMonthlyTimesheetData (host : Host) (orgId : Nat)
    (targetUserId year month : Int) (requestingUserId : Nat)
    (requestingUserRole : UserRole) : Service MonthlyTimesheetData := do
  assertCanExport orgId targetUserId requestingUserId requestingUserRole
  let found ← query fun db => db.users.find? fun u =>
    (u.id : Int) = targetUserId ∧ u.organisationId = orgId
  let targetUser ← orThrow found (.notFoundError "User")
  let monthEnd := localDate host.zone year month 0
  let daysInMonth := (civilFromDays (host.zone.dayOf monthEnd)).2.2
  let timesheets ← query fun db => db.monthTimesheets orgId targetUserId
    (localDate host.zone year (month - 1) (-6))
    (localDate host.zone year month 6)
  let holidays ← query fun db =>
    db.holidays.select fun h => h.organisationId = orgId
  let holidayMap := holidays.foldl (addHoliday host.zone year) []
  let totals :=
    ((List.range daysInMonth.toNat).map (· + 1)).foldl
      (addDay host.zone year month holidayMap timesheets) ⟨[], 0, 0, 0, 0⟩
  let shortYear := String.ofList ((toString year).toList.drop 2)
  return {
    employeeName := targetUser.name
    employeeId := targetUser.id
    department := targetUser.department.getD ""
    month := nameAt monthShort (month - 1) ++ "'" ++ shortYear
    monthFull := nameAt monthFull (month - 1) ++ " " ++ toString year
    days := totals.days
    totalHours := totals.totalHours
    totalOvertime := totals.totalOvertime
    holidayCount := totals.holidayCount
    leaveCount := totals.leaveCount }

end TmsApi
