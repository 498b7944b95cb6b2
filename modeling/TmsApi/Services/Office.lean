import TmsApi.Model.Runtime
import Mathlib.Data.List.Sort

/-!
# Settings, holidays and notifications

The small services `settings.service.ts`, `holidays.service.ts` and
`notifications.service.ts`.
-/

namespace TmsApi

open TmsApi.Core
open TmsApi.Core.Program

def getSettings (orgId : Nat) : Service OrgSettings := do
  let settings ← query fun db => db.settingsOf orgId
  orThrow settings (.notFoundError "Organisation settings")

def updateSettings (orgId : Nat) (dto : UpdateSettingsDto) :
    Service OrgSettings :=
  statement (Prisma.orgSettingsUpsert orgId dto)

/--
`new Date` of a template such as `${year}-01-01`.  With four digits the text
is an ISO date; how any other text is read is left to the engine.
-/
def yearDate (engineDate : String → JsDate) (year : Int)
    (month day : Fin 100) : JsDate :=
  if four : 1000 ≤ year ∧ year ≤ 9999 then
    IsoDate.toDate ⟨⟨year.toNat, by omega⟩, month, day⟩
  else
    engineDate (toString year ++ "-" ++
      String.ofList (digits 2 month.val ++ '-' :: digits 2 day.val))

/-- The holidays of an organisation that meet a condition, by date. -/
def Db.orgHolidays (db : Db) (orgId : Nat) (p : Holiday → Prop)
    [DecidablePred p] : List Holiday :=
  (db.holidays.select fun h => h.organisationId = orgId ∧ p h).insertionSort
    fun a b => a.date ≤ b.date

/-- A missing year, `NaN` and zero are all falsy. -/
def listHolidays (engineDate : String → JsDate) (orgId : Nat)
    (year : Option Int) : Service (List Holiday) :=
  match year.filter (· ≠ 0) with
  | none => query fun db => db.orgHolidays orgId fun _ => True
  | some year => do
      let gte ← orThrow
        (yearDate engineDate year ⟨1, by decide⟩ ⟨1, by decide⟩)
        (.driver .invalidValue)
      let lte ← orThrow
        (yearDate engineDate year ⟨12, by decide⟩ ⟨31, by decide⟩)
        (.driver .invalidValue)
      query fun db => db.orgHolidays orgId fun h =>
        gte ≤ h.date ∧ h.date ≤ lte

def createHoliday (orgId : Nat) (dto : CreateHolidayDto) :
    Service Holiday :=
  statement <| Prisma.holidayCreate orgId dto.name dto.date.toDate
    (dto.recurring.getD false)

def deleteHoliday (id orgId : Nat) : Service PUnit := do
  let found ← query fun db => db.holidays.find? fun h =>
    h.id = id ∧ h.organisationId = orgId
  let _ ← orThrow found (.notFoundError "Holiday")
  statement (Prisma.holidayDelete id)

/-- `orderBy`: unread ones first, the newest first among them. -/
def Notification.Precedes (a b : Notification) : Prop :=
  (a.read = false ∧ b.read = true) ∨
    (a.read = b.read ∧ b.createdAt ≤ a.createdAt)

instance : DecidableRel Notification.Precedes := fun _ _ =>
  inferInstanceAs (Decidable (_ ∨ _))

def listNotifications (userId : Nat) : Service (List Notification) :=
  query fun db => (db.notifications.select fun n =>
    n.userId = userId).insertionSort Notification.Precedes

def markAsRead (id userId : Nat) : Service Notification := do
  let found ← query fun db => db.notifications.find? fun n =>
    n.id = id ∧ n.userId = userId
  let notification ← orThrow found (.notFoundError "Notification")
  statement (Prisma.notificationMarkRead fun n => n.id = id)
  return Prisma.readNotification notification

def markAllAsRead (userId : Nat) : Service PUnit :=
  statement <| Prisma.notificationMarkRead fun n =>
    n.userId = userId ∧ n.read = false

end TmsApi
