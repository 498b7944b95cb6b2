import TmsApi.Model.Schema

/-!
# Request bodies and their Zod schemas

The bodies of the API after JSON decoding, and the checks of
`types/schemas.ts` on them.  An optional field is an `Option`; a schema is the
list of the issues it reports, each with the path of its field, and a body is
accepted when that list is empty.

A date string accepted by the `YYYY-MM-DD` pattern is its eight digits.
`JsDate` is the value of `new Date(..)`: an instant, or an invalid date.
-/

namespace TmsApi

open TmsApi.Core

/-- A JavaScript `Date`; `none` is an invalid date. -/
abbrev JsDate := Option Instant

/-- A string matching `^\d{4}-\d{2}-\d{2}$`, read as its three numbers. -/
structure IsoDate where
  year : Fin 10000
  month : Fin 100
  day : Fin 100
deriving DecidableEq

/--
`new Date("YYYY-MM-DD")` is the UTC midnight of that date.  The engine checks
the month and that the day is at most 31; days past the month's end run on.
-/
def IsoDate.toDate (date : IsoDate) : JsDate :=
  if 1 ≤ date.month.val ∧ date.month.val ≤ 12 ∧
      1 ≤ date.day.val ∧ date.day.val ≤ 31 then
    some (daysFromCivil date.year.val date.month.val date.day.val * dayMs)
  else
    none

/-! ## Bodies -/

structure RegisterDto where
  organisationName : String
  name : String
  email : String
  password : String

structure LoginDto where
  email : String
  password : String

structure CreateTimesheetDto where
  weekStartDate : IsoDate

structure UpdateTimesheetDto where
  weekStartDate : Option IsoDate

structure CreateTimeEntryDto where
  projectId : Nat
  billable : Option Bool
  hours : Week (Option ℚ)
  desc : Week (Option String)
  timeOff : Week (Option ℚ)

structure UpdateTimeEntryDto where
  projectId : Option Nat
  billable : Option Bool
  hours : Week (Option ℚ)
  desc : Week (Option String)
  timeOff : Week (Option ℚ)

structure RejectTimesheetDto where
  reason : String

structure CreateProjectDto where
  code : String
  name : String
  client : String
  budgetHours : Option ℚ
  status : Option ActiveStatus
  managerIds : Option (List Nat)
  employeeIds : Option (List Nat)

structure UpdateProjectDto where
  code : Option String
  name : Option String
  client : Option String
  budgetHours : Option ℚ
  status : Option ActiveStatus
  managerIds : Option (List Nat)
  employeeIds : Option (List Nat)

structure CreateUserDto where
  name : String
  email : String
  password : String
  role : Option UserRole
  department : Option String
  managerIds : Option (List Nat)
  projectIds : Option (List Nat)

structure UpdateUserDto where
  name : Option String
  role : Option UserRole
  department : Option String
  status : Option ActiveStatus
  managerIds : Option (List Nat)
  projectIds : Option (List Nat)

structure CreateHolidayDto where
  name : String
  date : IsoDate
  recurring : Option Bool

structure UpdateSettingsDto where
  workWeekStart : Option WorkWeekStart
  standardHours : Option ℚ
  timeFormat : Option TimeFormat
  timeIncrement : Option Nat
  maxHoursPerDay : Option ℚ
  maxHoursPerWeek : Option ℚ
  requireApproval : Option Bool
  allowBackdated : Option Bool
  enableOvertime : Option Bool
  mandatoryDesc : Option Bool
  allowCopyWeek : Option Bool
  dailyReminderTime : Option String
  weeklyDeadline : Option Weekday
  payrollType : Option String
  pmType : Option String

/-- The settings row after `update: dto`. -/
def UpdateSettingsDto.apply (dto : UpdateSettingsDto) (s : OrgSettings) :
    OrgSettings :=
  { s with
    workWeekStart := dto.workWeekStart.getD s.workWeekStart
    standardHours := dto.standardHours.getD s.standardHours
    timeFormat := dto.timeFormat.getD s.timeFormat
    timeIncrement := dto.timeIncrement.getD s.timeIncrement
    maxHoursPerDay := dto.maxHoursPerDay.getD s.maxHoursPerDay
    maxHoursPerWeek := dto.maxHoursPerWeek.getD s.maxHoursPerWeek
    requireApproval := dto.requireApproval.getD s.requireApproval
    allowBackdated := dto.allowBackdated.getD s.allowBackdated
    enableOvertime := dto.enableOvertime.getD s.enableOvertime
    mandatoryDesc := dto.mandatoryDesc.getD s.mandatoryDesc
    allowCopyWeek := dto.allowCopyWeek.getD s.allowCopyWeek
    dailyReminderTime := dto.dailyReminderTime.or s.dailyReminderTime
    weeklyDeadline := dto.weeklyDeadline.or s.weeklyDeadline
    payrollType := dto.payrollType.or s.payrollType
    pmType := dto.pmType.or s.pmType }

/-! ## Schemas -/

/-- One issue of a Zod error: the field it is about and its message. -/
structure Issue where
  path : String
  message : String
deriving DecidableEq

/-- `s.length` in JavaScript counts UTF-16 code units. -/
def jsLength (s : String) : Nat :=
  (s.toList.map fun c => if c.val < 0x10000 then 1 else 2).sum

namespace Schemas

/-- An issue reported unless the condition holds. -/
def check (path message : String) (condition : Prop)
    [Decidable condition] : List Issue :=
  if condition then [] else [⟨path, message⟩]

/-- The checks of an optional field. -/
def optional {α : Type} (schema : α → List Issue) :
    Option α → List Issue
  | some a => schema a
  | none => []

/-- `z.number().min(0).max(bound)`. -/
def boundedNumber (bound : Nat) (path : String) (q : ℚ) : List Issue :=
  check path "Number must be greater than or equal to 0" (0 ≤ q) ++
    check path
      ("Number must be less than or equal to " ++ toString bound)
      (q ≤ bound)

/-- `hourValue`. -/
def hourValue : String → ℚ → List Issue := boundedNumber 24

/-- `timeOffValue`. -/
def timeOffValue : String → ℚ → List Issue := boundedNumber 8

/-- `z.string().min(1, message)`. -/
def nonEmpty (path message s : String) : List Issue :=
  check path message (s ≠ "")

/-- The default message of `z.string().min(1)`. -/
def minOne : String := "String must contain at least 1 character(s)"

/-- `z.number().int().positive()`. -/
def positiveId (path : String) (n : Nat) : List Issue :=
  check path "Number must be greater than 0" (0 < n)

/-- `z.array(z.number().int().positive())`. -/
def positiveIds (path : String) (ids : List Nat) : List Issue :=
  ids.zipIdx.flatMap fun item =>
    positiveId (path ++ "." ++ toString item.2) item.1

/-- The seven optional numeric fields with one suffix. -/
def weekOf (schema : String → ℚ → List Issue) (suffix : String)
    (week : Week (Option ℚ)) : List Issue :=
  optional (schema ("mon" ++ suffix)) week.mon ++
  optional (schema ("tue" ++ suffix)) week.tue ++
  optional (schema ("wed" ++ suffix)) week.wed ++
  optional (schema ("thu" ++ suffix)) week.thu ++
  optional (schema ("fri" ++ suffix)) week.fri ++
  optional (schema ("sat" ++ suffix)) week.sat ++
  optional (schema ("sun" ++ suffix)) week.sun

def registerSchema (isEmail : String → Bool) (dto : RegisterDto) :
    List Issue :=
  nonEmpty "organisationName" "Organisation name is required"
      dto.organisationName ++
    nonEmpty "name" "Name is required" dto.name ++
    check "email" "Must be a valid email address" (isEmail dto.email) ++
    check "password" "Password must be at least 8 characters"
      (8 ≤ jsLength dto.password)

def loginSchema (isEmail : String → Bool) (dto : LoginDto) : List Issue :=
  check "email" "Must be a valid email address" (isEmail dto.email) ++
    nonEmpty "password" "Password is required" dto.password

def createTimeEntrySchema (dto : CreateTimeEntryDto) : List Issue :=
  positiveId "projectId" dto.projectId ++
    weekOf hourValue "Hours" dto.hours ++
    weekOf timeOffValue "TimeOff" dto.timeOff

def updateTimeEntrySchema (dto : UpdateTimeEntryDto) : List Issue :=
  optional (positiveId "projectId") dto.projectId ++
    weekOf hourValue "Hours" dto.hours ++
    weekOf timeOffValue "TimeOff" dto.timeOff

def rejectTimesheetSchema (dto : RejectTimesheetDto) : List Issue :=
  nonEmpty "reason" "Rejection reason is required" dto.reason

def createProjectSchema (dto : CreateProjectDto) : List Issue :=
  nonEmpty "code" "Project code is required" dto.code ++
    nonEmpty "name" "Project name is required" dto.name ++
    nonEmpty "client" "Client is required" dto.client ++
    optional
      (fun q => check "budgetHours"
        "Number must be greater than or equal to 0" (0 ≤ q))
      dto.budgetHours ++
    optional (positiveIds "managerIds") dto.managerIds ++
    optional (positiveIds "employeeIds") dto.employeeIds

def updateProjectSchema (dto : UpdateProjectDto) : List Issue :=
  optional (nonEmpty "code" minOne) dto.code ++
    optional (nonEmpty "name" minOne) dto.name ++
    optional (nonEmpty "client" minOne) dto.client ++
    optional
      (fun q => check "budgetHours"
        "Number must be greater than or equal to 0" (0 ≤ q))
      dto.budgetHours ++
    optional (positiveIds "managerIds") dto.managerIds ++
    optional (positiveIds "employeeIds") dto.employeeIds

def createUserSchema (isEmail : String → Bool) (dto : CreateUserDto) :
    List Issue :=
  nonEmpty "name" "Name is required" dto.name ++
    check "email" "Must be a valid email address" (isEmail dto.email) ++
    check "password" "Password must be at least 8 characters"
      (8 ≤ jsLength dto.password) ++
    optional (positiveIds "managerIds") dto.managerIds ++
    optional (positiveIds "projectIds") dto.projectIds

def updateUserSchema (dto : UpdateUserDto) : List Issue :=
  optional (nonEmpty "name" minOne) dto.name ++
    optional (positiveIds "managerIds") dto.managerIds ++
    optional (positiveIds "projectIds") dto.projectIds

def createHolidaySchema (dto : CreateHolidayDto) : List Issue :=
  nonEmpty "name" "Holiday name is required" dto.name

/-- `^\d{2}:\d{2}$`. -/
def isHhMm (s : String) : Bool :=
  match s.toList with
  | [a, b, ':', c, d] => a.isDigit && b.isDigit && c.isDigit && d.isDigit
  | _ => false

def updateSettingsSchema (dto : UpdateSettingsDto) : List Issue :=
  optional (boundedNumber 24 "standardHours") dto.standardHours ++
    optional
      (fun n => check "timeIncrement" "Invalid input"
        (n = 15 ∨ n = 30 ∨ n = 60))
      dto.timeIncrement ++
    optional (boundedNumber 24 "maxHoursPerDay") dto.maxHoursPerDay ++
    optional (boundedNumber 168 "maxHoursPerWeek") dto.maxHoursPerWeek ++
    optional
      (fun s => check "dailyReminderTime" "Must be HH:MM format" (isHhMm s))
      dto.dailyReminderTime

def setUserManagersSchema (managerIds : List Nat) : List Issue :=
  positiveIds "managerIds" managerIds

/-! ## What an accepted body satisfies -/

theorem check_eq_nil {path message : String} {condition : Prop}
    [Decidable condition] :
    check path message condition = [] ↔ condition := by
  simp [check]

theorem boundedNumber_eq_nil {bound : Nat} {path : String} {q : ℚ} :
    boundedNumber bound path q = [] ↔ 0 ≤ q ∧ q ≤ bound := by
  simp [boundedNumber, check_eq_nil]

theorem optional_eq_nil {α : Type} {schema : α → List Issue}
    {field : Option α} :
    optional schema field = [] ↔ ∀ a ∈ field, schema a = [] := by
  cases field <;> simp [optional]

/-- An accepted week of numbers is within its bound on every given day. -/
theorem weekOf_eq_nil {bound : Nat} {suffix : String}
    {week : Week (Option ℚ)} :
    weekOf (boundedNumber bound) suffix week = [] ↔
      week.All fun field =>
        ∀ q ∈ field, (0 : ℚ) ≤ q ∧ q ≤ (bound : ℚ) := by
  simp only [weekOf, List.append_eq_nil_iff, optional_eq_nil,
    boundedNumber_eq_nil, Week.all_iff, and_assoc]

end Schemas

end TmsApi
