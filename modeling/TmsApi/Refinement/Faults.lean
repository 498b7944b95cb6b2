import TmsApi.Core.Interleaving
import TmsApi.Api

/-!
# What the statements of a request can raise

A statement raises nothing but faults of the driver, so every other error of
an approval, a rejection or a copy comes from its guards, which only read.
-/

namespace TmsApi

open TmsApi.Core
open TmsApi.Core.Program

/-- A statement that raises, raises a driver fault. -/
def Faults {α : Type} (tx : Tx α) : Prop :=
  ∀ db e, tx db = .error e → ∃ fault, e = .driver fault

/-- A check raises its own fault, and what follows it raises faults. -/
theorem fault_of_ensure {α : Type} {condition : Prop} [Decidable condition]
    {fault : DriverFault} {result : Except Thrown α} {e : Thrown}
    (failed : ensure condition fault result = .error e)
    (rest : result = .error e → ∃ fault, e = .driver fault) :
    ∃ fault, e = .driver fault := by
  by_cases holds : condition
  · exact rest (by simpa [ensure, holds] using failed)
  · exact ⟨fault, by simpa [ensure, holds, eq_comm] using failed⟩

theorem faults_ensure {α : Type} {condition : Db → Prop}
    [DecidablePred condition] {fault : DriverFault} {rest : Tx α}
    (next : Faults rest) :
    Faults fun db => ensure (condition db) fault (rest db) :=
  fun db e failed => fault_of_ensure failed (next db e)

theorem faults_ok {α : Type} (outcome : Db → α × Db) :
    Faults fun db => .ok (outcome db) := by
  intro db e absurd
  cases absurd

/-- A transaction raises what its statements raise. -/
theorem Faults.bind {α β : Type} {tx : Tx α} {rest : α → Tx β}
    (first : Faults tx) (next : ∀ a, Faults (rest a)) :
    Faults (tx >>= rest) := by
  intro db e failed
  change (tx db).bind (fun p => rest p.1 p.2) = .error e at failed
  cases outcome : tx db with
  | error other =>
      rw [outcome] at failed
      cases failed
      exact first db e outcome
  | ok result =>
      rw [outcome] at failed
      exact next result.1 result.2 e failed

theorem faults_pure {α : Type} (a : α) : Faults (pure a : Tx α) :=
  faults_ok fun db => (a, db)

namespace Prisma

variable {now : Instant}

theorem timesheetCreate_faults (data : TimesheetData) :
    Faults (timesheetCreate now data) :=
  faults_ensure (faults_ok _)

theorem timeEntryDeleteMany_faults (timesheetId : Nat) :
    Faults (timeEntryDeleteMany timesheetId) :=
  faults_ok _

theorem timeEntryCreateMany_faults (data : List TimeEntryData) :
    Faults (timeEntryCreateMany now data) :=
  faults_ensure (faults_ensure (faults_ok _))

theorem timesheetUpdate_faults (id : Nat) (data : TimesheetUpdate) :
    Faults (timesheetUpdate now id data) := by
  intro db e failed
  simp only [timesheetUpdate] at failed
  split at failed
  · cases failed
    exact ⟨_, rfl⟩
  · apply fault_of_ensure failed
    intro failed
    apply fault_of_ensure failed
    intro absurd
    cases absurd

theorem projectIncrementUsedHours_faults (id : Nat) (hours : ℚ) :
    Faults (projectIncrementUsedHours now id hours) :=
  faults_ensure (faults_ok _)

theorem notificationCreate_faults (data : NotificationData) :
    Faults (notificationCreate now data) :=
  faults_ensure (faults_ensure (faults_ok _))

end Prisma

/-- Both transactions of a copy raise nothing but driver faults. -/
theorem createEntries_faults (host : Host) (timesheetId : Nat)
    (entries : List TimeEntry) :
    Faults (createEntries host timesheetId entries) := by
  unfold createEntries
  split
  · exact Prisma.timeEntryCreateMany_faults _
  · exact faults_pure _

theorem overwriteEntries_faults (host : Host) (existingId : Nat)
    (entries : List TimeEntry) (totalHours billableHours : ℚ) :
    Faults (overwriteEntries host existingId entries totalHours
      billableHours) :=
  (Prisma.timeEntryDeleteMany_faults _).bind fun _ =>
    (createEntries_faults host _ _).bind fun _ =>
      Prisma.timesheetUpdate_faults _ _

theorem createCopy_faults (host : Host) (data : TimesheetData)
    (entries : List TimeEntry) : Faults (createCopy host data entries) :=
  (Prisma.timesheetCreate_faults _).bind fun _ =>
    (createEntries_faults host _ _).bind fun _ => faults_pure _

/-- A statement raises nothing but driver faults. -/
theorem Faults.raises {α : Type} {tx : Tx α} {allowed : Thrown → Prop}
    (faults : Faults tx) (driver : ∀ fault, allowed (.driver fault)) :
    (statement tx).Raises allowed := by
  refine raises_statement fun db e failed => ?_
  rcases faults db e failed with ⟨fault, rfl⟩
  exact driver fault

theorem copyableEntries_raises {allowed : Thrown → Prop}
    (userId orgId : Nat) (role : UserRole) (entries : List TimeEntry) :
    (copyableEntries userId orgId role entries).Raises allowed := by
  unfold copyableEntries
  split
  · exact (raises_query _).bind fun _ => raises_ok _
  · exact raises_ok _

/-- A copy that has found its source raises no other errors than these. -/
theorem copyIntoWeek_raises {allowed : Thrown → Prop} {host : Host}
    {userId orgId : Nat} {role : UserRole} {force : Bool}
    {previous : Timesheet × List TimeEntry} {week : Instant}
    (taken : ∀ message, allowed (.conflictError message))
    (frozen : ∀ message, allowed (.appError message 403 .immutableTimesheet))
    (driver : ∀ fault, allowed (.driver fault)) :
    (copyIntoWeek host userId orgId role force previous week).Raises
      allowed := by
  refine (raises_query _).bind fun existing => ?_
  refine (raises_throwIf (taken _)).bind fun _ => ?_
  refine (raises_throwIf (frozen _)).bind fun _ => ?_
  refine (copyableEntries_raises userId orgId role _).bind fun entries => ?_
  refine Raises.bind (Faults.raises ?_ driver) fun copied => raises_ok _
  cases existing with
  | none => exact createCopy_faults host _ _
  | some t => exact overwriteEntries_faults host _ _ _ _

/-- The guards of a decision only read. -/
theorem decidableTimesheet_reads {inv : Db → Prop} (id userId orgId : Nat)
    (role : UserRole) (selfMessage : String) (target : TimesheetStatus) :
    (decidableTimesheet id userId orgId role selfMessage target).Safe inv
      (fun s s' => s' = s) := by
  refine (Safe.reads _).bind fun found => ?_
  refine (Safe.orThrow _ _).bind fun t => ?_
  refine (Safe.throwIf _ _).bind fun _ => ?_
  refine (Safe.whenever fun _ => ?_).bind fun _ => ?_
  · exact (Safe.reads _).bind fun _ => Safe.throwIf _ _
  · exact (Safe.throwIf _ _).bind fun _ => safe_done _

end TmsApi
