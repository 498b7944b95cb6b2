import TmsApi.Refinement.Faults
import TmsApi.Refinement.Runs

/-!
# Backdated timesheets

Three requests choose the week of a timesheet.  `createTimesheet` compares the
start of the week with today's midnight, so it refuses earlier weeks and also
the current one on every day but its first; `copyPreviousWeek` and
`updateTimesheet` compare nothing.
-/

namespace TmsApi

open TmsApi.Core
open TmsApi.Core.Program

/-- The error is the one of the backdating policy. -/
def Thrown.Backdating (e : Thrown) : Prop :=
  ∃ message statusCode,
    e = .appError message statusCode .backdatingNotAllowed

/-- The request is refused for backdating. -/
def RefusedAsBackdated {α : Type} (answer : Except Thrown α) : Prop :=
  ∃ e, answer = .error e ∧ e.Backdating

/-- The week of a date lies wholly before the one of the current instant. -/
def PastWeek (host : Host) (startDay : WorkWeekStart) (date : Instant) : Prop :=
  getWeekStart host.zone date startDay <
    getWeekStart host.zone host.now startDay

/-- The week of a date is the one of the current instant. -/
def CurrentWeek (host : Host) (startDay : WorkWeekStart) (date : Instant) :
    Prop :=
  getWeekStart host.zone date startDay =
    getWeekStart host.zone host.now startDay

/-- Today is the first day of its week. -/
def FirstDay (host : Host) (startDay : WorkWeekStart) : Prop :=
  getWeekStart host.zone host.now startDay =
    host.zone.midnight (host.zone.dayOf host.now)

/-- The request puts a timesheet on a date, if its other checks let it. -/
def Call.Places (host : Host) (caller : JwtPayload) (db : Db)
    (date : Instant) : Call → Prop
  | .createTimesheet dto =>
      dto.weekStartDate.toDate = some date ∧
        db.weekTimesheet caller.userId caller.orgId
          (getWeekStart host.zone date (db.startDay caller.orgId)) = none
  | .copyPreviousWeek targetWeekStart _ =>
      targetWeekStart = some date ∧
        (∃ s ∈ db.settingsOf caller.orgId, s.allowCopyWeek = true) ∧
        (db.previousTimesheet caller.userId caller.orgId).isSome ∧
        db.weekTimesheet caller.userId caller.orgId
          (getWeekStart host.zone date (db.startDay caller.orgId)) = none
  | .updateTimesheet id dto =>
      (∃ given ∈ dto.weekStartDate, given.toDate = some date) ∧
        ∃ t ∈ db.ownTimesheet id caller.userId caller.orgId,
          t.status = .draft
  | _ => False

/-- The answer follows the policy: past weeks are refused, no others are. -/
def FollowsBackdating (lib : Libs) (host : Host) (caller : JwtPayload)
    (db : Db) (call : Call) (date : Instant) : Prop :=
  wp (handle lib host caller call) (fun answer _ =>
    RefusedAsBackdated answer ↔
      PastWeek host (db.startDay caller.orgId) date) db

/--
A new timesheet is not for the current week, or it is its first day; a copy
and a move are not for a past week.
-/
def Call.Timely (host : Host) (startDay : WorkWeekStart) (date : Instant) :
    Call → Prop
  | .createTimesheet _ =>
      CurrentWeek host startDay date → FirstDay host startDay
  | _ => ¬ PastWeek host startDay date

section

variable {lib : Libs} {host : Host} {caller : JwtPayload} {db : Db}
  {call : Call} {date : Instant}

theorem not_refused_ok {α : Type} (a : α) :
    ¬ RefusedAsBackdated (.ok a : Except Thrown α) := by
  rintro ⟨e, absurd, -⟩
  cases absurd

theorem refused_error_iff {α : Type} {e : Thrown} :
    RefusedAsBackdated (.error e : Except Thrown α) ↔ e.Backdating := by
  constructor
  · rintro ⟨other, same, backdating⟩
    cases same
    exact backdating
  · intro backdating
    exact ⟨e, rfl, backdating⟩

/-- The errors of the other checks and of the driver. -/
theorem driver_not_backdating (fault : DriverFault) :
    ¬ (Thrown.driver fault).Backdating := by
  rintro ⟨message, statusCode, absurd⟩
  cases absurd

/-- A program that cannot raise the error is not refused for it. -/
theorem wp_of_raises {α : Type} {program : Service α}
    (raises : program.Raises fun e => ¬ e.Backdating) :
    wp program (fun answer _ => ¬ RefusedAsBackdated answer) db := by
  refine wp_mono ?_ (raises.exec db)
  rintro answer _ others ⟨e, rfl, backdating⟩
  exact others e rfl backdating

/-! ## The paths without a comparison -/

theorem updateTimesheet_raises (id userId orgId : Nat)
    (dto : UpdateTimesheetDto) :
    (updateTimesheet host id userId orgId dto).Raises
      fun e => ¬ e.Backdating := by
  refine (raises_query _).bind fun found => ?_
  refine (raises_orThrow found ?_).bind fun t => ?_
  · simp [Thrown.Backdating]
  refine (raises_throwIf ?_).bind fun _ => ?_
  · simp [Thrown.Backdating]
  refine (raises_throwIf ?_).bind fun _ => ?_
  · exact driver_not_backdating _
  exact (Prisma.timesheetUpdate_faults _ _).raises driver_not_backdating

theorem copyPreviousWeek_raises (userId orgId : Nat) (target : JsDate)
    (role : UserRole) (force : Bool) :
    (copyPreviousWeek host userId orgId target role force).Raises
      fun e => ¬ e.Backdating := by
  refine (raises_query _).bind fun found => ?_
  refine (raises_throwIf ?_).bind fun _ => ?_
  · simp [Thrown.Backdating]
  refine (raises_query _).bind fun source => ?_
  refine (raises_orThrow source ?_).bind fun previous => ?_
  · simp [Thrown.Backdating]
  refine (raises_orThrow _ ?_).bind fun week => ?_
  · exact driver_not_backdating _
  refine copyIntoWeek_raises ?_ ?_ driver_not_backdating
  · simp [Thrown.Backdating]
  · simp [Thrown.Backdating]

/-! ## The path with a comparison -/

/-- The rest of `createTimesheet`, after its comparison. -/
theorem createTimesheet_tail_raises (userId orgId : Nat) (week : JsDate) :
    (orThrow week (.driver .invalidValue) >>= fun weekStartDate =>
      query (fun db : Db => db.weekTimesheet userId orgId weekStartDate) >>=
        fun existing => throwIf (existing.isSome)
            (Thrown.conflictError "A timesheet already exists for this week")
          >>= fun _ => statement <| Prisma.timesheetCreate host.now
            { userId := userId
              organisationId := orgId
              weekStartDate := weekStartDate
              weekEndDate := getWeekEnd host.zone weekStartDate
              status := .draft }).Raises fun e => ¬ e.Backdating := by
  refine (raises_orThrow _ ?_).bind fun weekStartDate => ?_
  · exact driver_not_backdating _
  refine (raises_query _).bind fun existing => ?_
  refine (raises_throwIf ?_).bind fun _ => ?_
  · simp [Thrown.Backdating]
  exact (Prisma.timesheetCreate_faults _).raises driver_not_backdating

/-- A new timesheet is refused when its week has begun before today. -/
theorem createTimesheet_refused_iff {dto : CreateTimesheetDto}
    (parsed : dto.weekStartDate.toDate = some date)
    (strict : ¬ (db.settingsOf caller.orgId).any (·.allowBackdated)) :
    wp (createTimesheet host caller.userId caller.orgId dto)
      (fun answer _ => RefusedAsBackdated answer ↔
        isInPast host
          (getWeekStart host.zone date (db.startDay caller.orgId))) db := by
  simp only [createTimesheet, parsed, Option.map_some]
  rw [wp_bind, wp_query, andThen_ok, wp_bind, wp_throwIf]
  constructor
  · rintro ⟨-, week, same, past⟩
    cases same
    rw [andThen_error, refused_error_iff]
    exact iff_of_true ⟨_, _, rfl⟩ past
  · intro open_
    rw [andThen_ok]
    refine wp_mono ?_ (wp_of_raises (createTimesheet_tail_raises _ _ _))
    intro answer _ other
    refine iff_of_false other fun past => open_ ⟨strict, _, rfl, past⟩

/-- The comparison with today agrees with the policy, but for one week. -/
theorem isInPast_iff_pastWeek {startDay : WorkWeekStart} :
    (isInPast host (getWeekStart host.zone date startDay) ↔
        PastWeek host startDay date) ↔
      (CurrentWeek host startDay date → FirstDay host startDay) := by
  simp only [isInPast, PastWeek, CurrentWeek, FirstDay, getWeekStart_eq,
    host.zone.increasing.lt_iff_lt, Zone.midnight_inj]
  generalize host.zone.dayOf date = day
  generalize host.zone.dayOf host.now = today
  unfold weekFloor weekday
  omega

/-- A route answers with what its service returned. -/
theorem wp_answers {α : Type} {program : Service α} {respond : α → Response}
    {fact : Prop} :
    wp (program >>= fun a => done (.ok (respond a)))
        (fun answer _ => RefusedAsBackdated answer ↔ fact) db ↔
      wp program (fun answer _ => RefusedAsBackdated answer ↔ fact) db := by
  rw [wp_bind]
  unfold wp
  cases (program.exec db).1 with
  | ok a =>
      simp only [andThen_ok, wp_done, not_refused_ok]
  | error e => simp only [andThen_error, refused_error_iff]

end

/--
In an organisation that does not allow backdating, a request that would put a
timesheet on a date follows the policy exactly when it is timely.
-/
theorem backdating_policy_iff (lib : Libs) {host : Host} {caller : JwtPayload}
    {db : Db} {call : Call} {date : Instant}
    (strict : ∃ s ∈ db.settingsOf caller.orgId, s.allowBackdated = false)
    (places : call.Places host caller db date) :
    FollowsBackdating lib host caller db call date ↔
      call.Timely host (db.startDay caller.orgId) date := by
  have unchecked {α : Type} {program : Service α}
      (raises : program.Raises fun e => ¬ e.Backdating) :
      wp program (fun answer _ => RefusedAsBackdated answer ↔
          PastWeek host (db.startDay caller.orgId) date) db ↔
        ¬ PastWeek host (db.startDay caller.orgId) date := by
    refine wp_iff.mp (wp_mono ?_ (wp_of_raises raises))
    intro answer _ other
    rw [iff_false_left other]
  unfold FollowsBackdating
  cases call with
  | createTimesheet dto =>
      refine wp_answers.trans ?_
      have closed : ¬ (db.settingsOf caller.orgId).any (·.allowBackdated) := by
        obtain ⟨s, found, forbids⟩ := strict
        rw [Option.mem_def.mp found]
        simp [forbids]
      refine wp_iff.mp
        (wp_mono ?_ (createTimesheet_refused_iff places.1 closed))
      intro answer _ refused
      rw [refused]
      exact isInPast_iff_pastWeek
  | copyPreviousWeek target force =>
      refine wp_answers.trans ?_
      exact unchecked (copyPreviousWeek_raises _ _ _ _ _)
  | updateTimesheet id dto =>
      refine wp_answers.trans ?_
      exact unchecked (updateTimesheet_raises _ _ _ _)
  | _ => exact places.elim

/-! ## The three requests on a Wednesday -/

instance (e : Thrown) : Decidable e.Backdating :=
  match e with
  | .appError message statusCode code =>
      decidable_of_iff (code = .backdatingNotAllowed) <| by
        simp [Thrown.Backdating]
  | .validationError _ | .unauthorizedError _ | .forbiddenError _ _
  | .notFoundError _ | .conflictError _ | .immutableTimesheetError
  | .invalidTransitionError _ _ | .driver _ =>
      .isFalse (by simp [Thrown.Backdating])

instance {α : Type} (answer : Except Thrown α) :
    Decidable (RefusedAsBackdated answer) :=
  match answer with
  | .ok a => .isFalse (not_refused_ok a)
  | .error _ => decidable_of_iff' _ refused_error_iff

instance (host : Host) (startDay : WorkWeekStart) (date : Instant) :
    Decidable (PastWeek host startDay date) :=
  inferInstanceAs (Decidable (_ < _))

instance (host : Host) (startDay : WorkWeekStart) (date : Instant) :
    Decidable (CurrentWeek host startDay date) :=
  inferInstanceAs (Decidable (_ = _))

instance (lib : Libs) (host : Host) (caller : JwtPayload) (db : Db)
    (call : Call) (date : Instant) :
    Decidable (FollowsBackdating lib host caller db call date) :=
  inferInstanceAs (Decidable (_ ↔ _))

/-- A server in UTC on Wednesday, the seventeenth of January 2024. -/
def midweekHost : Host :=
  { plainHost with now := 1705449600000 }

/-- A submitted week, a later draft, and backdating no longer allowed. -/
def strictDb : Db :=
  (World.empty.run plainLibs
    [.register "acme" "ada@acme",
      .authenticated plainHost ada (.createTimesheet ⟨january 1⟩),
      .authenticated plainHost ada (.submitTimesheet 1),
      .authenticated plainHost ada (.createTimesheet ⟨january 22⟩),
      .setSettings ada { sameSettings with allowBackdated := some false }]).db

theorem strictDb_strict :
    ∃ s ∈ strictDb.settingsOf ada.orgId, s.allowBackdated = false := by
  decide +kernel

/-- The week of the eighth of January lies before the seventeenth. -/
theorem backdating_policy_iff_past :
    (Call.createTimesheet ⟨january 8⟩).Places midweekHost ada strictDb
        1704672000000 ∧
      FollowsBackdating plainLibs midweekHost ada strictDb
        (.createTimesheet ⟨january 8⟩) 1704672000000 := by
  have places : (Call.createTimesheet ⟨january 8⟩).Places midweekHost ada
      strictDb 1704672000000 := by
    constructor <;> decide +kernel
  refine ⟨places, ?_⟩
  refine (backdating_policy_iff plainLibs strictDb_strict places).mpr ?_
  intro current
  exact absurd current (by decide +kernel)

/--
The current week is refused, and a copy and a move into the week before are
not.
-/
theorem backdating_policy_uneven :
    (strictDb.settingsOf ada.orgId).map (·.allowBackdated) = some false ∧
    (CurrentWeek midweekHost (strictDb.startDay ada.orgId) 1705276800000 ∧
      PastWeek midweekHost (strictDb.startDay ada.orgId) 1704672000000) ∧
    ((Call.createTimesheet ⟨january 15⟩).Places midweekHost ada strictDb
        1705276800000 ∧
      ¬ FollowsBackdating plainLibs midweekHost ada strictDb
        (.createTimesheet ⟨january 15⟩) 1705276800000) ∧
    ((Call.copyPreviousWeek (some 1704672000000) false).Places midweekHost ada
        strictDb 1704672000000 ∧
      ¬ FollowsBackdating plainLibs midweekHost ada strictDb
        (.copyPreviousWeek (some 1704672000000) false) 1704672000000) ∧
    ((Call.updateTimesheet 2 ⟨some (january 8)⟩).Places midweekHost ada
        strictDb 1704672000000 ∧
      ¬ FollowsBackdating plainLibs midweekHost ada strictDb
        (.updateTimesheet 2 ⟨some (january 8)⟩) 1704672000000) := by
  refine ⟨by decide +kernel, by decide +kernel, ⟨?_, by decide +kernel⟩,
    ⟨?_, by decide +kernel⟩, ?_, by decide +kernel⟩
  · constructor <;> decide +kernel
  · refine ⟨rfl, ?_, ?_, ?_⟩ <;> decide +kernel
  · constructor <;> decide +kernel

end TmsApi
