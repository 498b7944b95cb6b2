/-!
# Roles, statuses and the errors of the service

The enumerations of the Prisma schema, the error classes of `types/errors.ts`
with their status codes and texts, and the faults the database driver raises
on its own.  A driver fault is not an `AppError`, so the central handler
answers it with status 500.
-/

namespace TmsApi

/-- `enum UserRole`. -/
inductive UserRole where
  | employee
  | manager
  | admin
deriving DecidableEq, Repr

/-- `enum TimesheetStatus`. -/
inductive TimesheetStatus where
  | draft
  | submitted
  | approved
  | rejected
deriving DecidableEq, Repr

/-- The status as it is printed. -/
def TimesheetStatus.text : TimesheetStatus → String
  | .draft => "DRAFT"
  | .submitted => "SUBMITTED"
  | .approved => "APPROVED"
  | .rejected => "REJECTED"

/-- `status.toLowerCase()`. -/
def TimesheetStatus.lower : TimesheetStatus → String
  | .draft => "draft"
  | .submitted => "submitted"
  | .approved => "approved"
  | .rejected => "rejected"

/-- `USER_STATUS` and `PROJECT_STATUS`. -/
inductive ActiveStatus where
  | active
  | inactive
deriving DecidableEq, Repr

/-- `WORK_WEEK_START`. -/
inductive WorkWeekStart where
  | monday
  | sunday
deriving DecidableEq, Repr

/-- `ERROR_CODES`. -/
inductive ErrorCode where
  | forbidden
  | unauthorized
  | notFound
  | conflict
  | validationError
  | internalError
  | selfApprovalForbidden
  | immutableTimesheet
  | invalidTransition
  | maxHoursExceeded
  | backdatingNotAllowed
  | descriptionRequired
  | copyWeekDisabled
  | notDirectReport
  | selfManagerAssignment
  | employeeNotAssigned
deriving DecidableEq, Repr

/-- What the database driver refuses by itself. -/
inductive DriverFault where
  /-- A value that is no value of the column, such as an invalid date. -/
  | invalidValue
  /-- A string longer than its column. -/
  | valueTooLong
  /-- A unique index already holds the value. -/
  | uniqueConstraint
  /-- A foreign key without its row, or a restricted deletion. -/
  | foreignKey
  /-- `update` or `delete` of a row that does not exist. -/
  | recordNotFound
deriving DecidableEq, Repr

/-- Everything a request can throw. -/
inductive Thrown where
  | appError (message : String) (statusCode : Nat) (code : ErrorCode)
  | validationError (message : String)
  | unauthorizedError (message : String)
  | forbiddenError (message : String) (code : ErrorCode)
  | notFoundError (resource : String)
  | conflictError (message : String)
  | immutableTimesheetError
  | invalidTransitionError (source target : TimesheetStatus)
  | driver (fault : DriverFault)
deriving DecidableEq, Repr

namespace Thrown

/-- `err.message`, and the generic text for a driver fault. -/
def message : Thrown → String
  | appError text _ _ => text
  | validationError text => text
  | unauthorizedError text => text
  | forbiddenError text _ => text
  | notFoundError resource => resource ++ " not found"
  | conflictError text => text
  | immutableTimesheetError =>
      "Timesheet cannot be modified after submission"
  | invalidTransitionError source target =>
      "Cannot transition timesheet from " ++ source.text ++ " to " ++
        target.text
  | driver _ => "An unexpected error occurred"

/-- The HTTP status the central handler answers with. -/
def statusCode : Thrown → Nat
  | appError _ status _ => status
  | validationError _ => 400
  | unauthorizedError _ => 401
  | forbiddenError _ _ => 403
  | notFoundError _ => 404
  | conflictError _ => 409
  | immutableTimesheetError => 403
  | invalidTransitionError _ _ => 400
  | driver _ => 500

/-- `err.code`. -/
def code : Thrown → ErrorCode
  | appError _ _ code => code
  | validationError _ => .validationError
  | unauthorizedError _ => .unauthorized
  | forbiddenError _ code => code
  | notFoundError _ => .notFound
  | conflictError _ => .conflict
  | immutableTimesheetError => .immutableTimesheet
  | invalidTransitionError _ _ => .invalidTransition
  | driver _ => .internalError

/-- `new ForbiddenError(message)` with its default code. -/
def forbidden (message : String) : Thrown :=
  forbiddenError message .forbidden

end Thrown

end TmsApi
