import TmsApi.Api

/-!
# Authentication and the central error handler

`middleware/authenticate.ts`, `utils/tryCatch.ts` and
`middleware/errorHandler.ts`.  Besides the errors of the services a middleware
can throw an error of the token package or a plain `Error`; neither of them is
an `AppError`.
-/

namespace TmsApi

open TmsApi.Core
open TmsApi.Core.Program

/-- Everything the error middleware can receive. -/
inductive Failure where
  /-- An `AppError`, or a fault of the database driver. -/
  | thrown (raised : Thrown)
  /-- `JsonWebTokenError` and its subclasses. -/
  | jsonWebTokenError
  /-- `new Error(message)`. -/
  | plainError (message : String)
deriving DecidableEq

/-- `err instanceof AppError && err.isOperational`. -/
def Failure.operational : Failure → Option Thrown
  | .thrown (.driver _) => none
  | .thrown raised => some raised
  | .jsonWebTokenError => none
  | .plainError _ => none

/-- A response with `success: false`. -/
structure ErrorResponse where
  status : Nat
  error : String
  code : ErrorCode
deriving DecidableEq

def errorHandler (err : Failure) : ErrorResponse :=
  match err.operational with
  | some raised => ⟨raised.statusCode, raised.message, raised.code⟩
  | none => ⟨500, "An unexpected error occurred", .internalError⟩

/-- The answer to an error of a service is the one `Thrown` describes. -/
theorem errorHandler_thrown (raised : Thrown) :
    errorHandler (.thrown raised) =
      ⟨raised.statusCode, raised.message, raised.code⟩ := by
  cases raised <;> rfl

/-- Where Express continues: with the next handler or the error handler. -/
inductive Continues (α : Type) where
  | next (value : α)
  | fails (err : Failure)
deriving DecidableEq

/-- `Promise.resolve(fn(req, res, next)).catch(next)`. -/
def tryCatch {Req α : Type} (fn : Req → Except Failure α) (req : Req) :
    Continues α :=
  match fn req with
  | .ok value => .next value
  | .error err => .fails err

/-- `authHeader.split(' ')[1]`. -/
def tokenOf (authHeader : String) : Option String :=
  (authHeader.toList.splitOn ' ')[1]?.map String.ofList

section

variable (lib : Libs) (host : Host) (jwtSecret : Option String)

/-- `jwt.verify`, which throws on a token that does not verify. -/
def verifyAccess (token : String) : Except Failure JwtPayload :=
  match lib.jwtVerify .access token host.now with
  | some payload => .ok payload
  | none => .error .jsonWebTokenError

/-- The function `authenticate` wraps; it answers with `req.user`. -/
def authenticateHeader (authorization : Option String) :
    Except Failure JwtPayload := do
  let some authHeader := authorization
    | throw (.thrown (.unauthorizedError "No token provided"))
  unless "Bearer ".toList <+: authHeader.toList do
    throw (.thrown (.unauthorizedError "No token provided"))
  let token := (tokenOf authHeader).getD ""
  if jwtSecret.getD "" = "" then
    throw (.plainError "JWT_SECRET environment variable is not set")
  verifyAccess lib host token

/-- The `authenticate` middleware. -/
def authenticate (authorization : Option String) : Continues JwtPayload :=
  tryCatch (authenticateHeader lib host jwtSecret) authorization

/-- The response of a handler and the database after it. -/
def respond {Answer : Type} (handler : Service Answer) (db : Db) :
    Except ErrorResponse Answer × Db :=
  ((handler.exec db).1.mapError fun raised => errorHandler (.thrown raised),
    (handler.exec db).2)

/-- A route behind `authenticate`. -/
def protect {Answer : Type} (handler : JwtPayload → Service Answer)
    (authorization : Option String) (db : Db) :
    Except ErrorResponse Answer × Db :=
  match authenticate lib host jwtSecret authorization with
  | .next user => respond (handler user) db
  | .fails err => (.error (errorHandler err), db)

end

end TmsApi
