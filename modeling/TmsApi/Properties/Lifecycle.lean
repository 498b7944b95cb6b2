import TmsApi.Refinement.Runs

/-!
# The status machine and the audit columns

A timesheet moves from draft to submitted, from submitted to a decision and
from rejected back to submitted, and only drafts are deleted.  The approver,
the approval time and the rejection reason are set exactly in the status they
belong to, and a decision is made by an administrator or a manager of the
owner within the organisation.
-/

namespace TmsApi

open TmsApi.Core

/-- The moves of the status machine. -/
inductive Transition : TimesheetStatus → TimesheetStatus → Prop where
  | submit : Transition .draft .submitted
  | approve : Transition .submitted .approved
  | reject : Transition .submitted .rejected
  | resubmit : Transition .rejected .submitted

/-- The audit columns of a timesheet agree with its status. -/
structure Audited (t : Timesheet) : Prop where
  approver : t.approvedById.isSome ↔ t.status = .approved
  time : t.approvedAt.isSome ↔ t.status = .approved
  other : ∀ u ∈ t.approvedById, u ≠ t.userId
  reason : t.rejectedReason.isSome ↔ t.status = .rejected

/-- The caller may decide on the timesheet in this database. -/
structure Deciding (db : Db) (caller : JwtPayload) (t : Timesheet) :
    Prop where
  org : caller.orgId = t.organisationId
  member : db.Member caller.userId t.organisationId
  entitled : caller.role = .admin ∨
    ∃ r ∈ db.managerEmployees.rows,
      r.managerId = caller.userId ∧ r.employeeId = t.userId

/-- What one request may do to the timesheets. -/
structure LifecycleStep (before : World) (request : Request)
    (after : World) : Prop where
  /-- A timesheet keeps its status, moves it, or is deleted as a draft. -/
  moves : ∀ t ∈ before.db.timesheets.rows,
    (∃ new ∈ after.db.timesheets.rows, new.id = t.id ∧
        (new.status = t.status ∨ Transition t.status new.status)) ∨
      (t.status = .draft ∧ ¬ after.db.timesheets.HasKey t.id)
  /-- A new timesheet is a draft. -/
  opens : ∀ new ∈ after.db.timesheets.rows,
    ¬ before.db.timesheets.HasKey new.id → new.status = .draft
  /-- A decision is made by an entitled caller, an approval in their name. -/
  decided : ∀ t ∈ before.db.timesheets.rows,
    ∀ new ∈ after.db.timesheets.rows, new.id = t.id →
      new.status ≠ t.status →
      new.status = .approved ∨ new.status = .rejected →
      ∃ host caller call, request = .authenticated host caller call ∧
        caller ∈ before.issued ∧ Deciding before.db caller t ∧
        (new.status = .approved → new.approvedById = some caller.userId)

/-! ## Rows -/

section Rows

variable {host : Host} {caller : JwtPayload} {call : Call} {db after : Db}

theorem Becomes.status {t new : Timesheet}
    (becomes : Becomes host caller call db t new) :
    new.status = t.status ∨ Transition t.status new.status := by
  cases becomes with
  | kept => exact .inl rfl
  | totalled entries owns editable => exact .inl rfl
  | moved dto owns draft made => exact .inl rfl
  | submitted owns editable =>
      rcases editable with draft | rejected
      · exact .inr (draft ▸ .submit)
      · exact .inr (rejected ▸ .resubmit)
  | approved may => exact .inr (may.submitted ▸ .approve)
  | rejected reason may => exact .inr (may.submitted ▸ .reject)

/-- Every change of a row keeps its audit columns in step. -/
theorem Becomes.audited {t new : Timesheet}
    (becomes : Becomes host caller call db t new) (holds : Audited t) :
    Audited new := by
  rcases holds with ⟨approver, time, other, reason⟩
  cases becomes with
  | kept => exact ⟨approver, time, other, reason⟩
  | totalled entries owns editable => exact ⟨approver, time, other, reason⟩
  | moved dto owns draft made => exact ⟨approver, time, other, reason⟩
  | submitted owns editable =>
      have open_ := editable.not_approved
      simp only [open_, iff_false] at approver time
      refine ⟨?_, ?_, other, ?_⟩
      · simpa [TimesheetUpdate.apply, Db.submission] using approver
      · simpa [TimesheetUpdate.apply, Db.submission] using time
      · -- The reason is cleared in the branch where there was one.
        rcases editable with draft | rejected
        · simpa [TimesheetUpdate.apply, Db.submission, draft] using reason
        · simp [TimesheetUpdate.apply, Db.submission, rejected]
  | approved may =>
      simp only [may.submitted] at reason
      refine ⟨?_, ?_, ?_, ?_⟩
      · simp [TimesheetUpdate.apply, Db.approval]
      · simp [TimesheetUpdate.apply, Db.approval]
      · intro u given
        simp only [TimesheetUpdate.apply, Db.approval, Option.some_or,
          Option.mem_def, Option.some.injEq] at given
        exact given ▸ may.other.symm
      · simpa [TimesheetUpdate.apply, Db.approval] using reason
  | rejected reason may =>
      simp only [may.submitted] at approver time
      refine ⟨?_, ?_, other, ?_⟩
      · simpa [TimesheetUpdate.apply, Db.rejection] using approver
      · simpa [TimesheetUpdate.apply, Db.rejection] using time
      · simp [TimesheetUpdate.apply, Db.rejection]

theorem MayDecide.deciding {t : Timesheet} (may : MayDecide caller db t)
    (member : db.Member caller.userId caller.orgId) :
    Deciding db caller t where
  org := may.org.symm
  member := may.org ▸ member
  entitled := by
    rcases may.role with manager | admin
    · rcases may.report manager with ⟨r, rMem, manages, reports, _⟩
      exact .inr ⟨r, rMem, manages, reports⟩
    · exact .inl admin

/-- A row that becomes decided is decided by its caller. -/
theorem Becomes.decided {t new : Timesheet}
    (becomes : Becomes host caller call db t new)
    (moved : new.status ≠ t.status)
    (decided : new.status = .approved ∨ new.status = .rejected) :
    MayDecide caller db t ∧
      (new.status = .approved → new.approvedById = some caller.userId) := by
  cases becomes with
  | kept => exact (moved rfl).elim
  | totalled entries owns editable => exact (moved rfl).elim
  | moved dto owns draft made => exact (moved rfl).elim
  | submitted owns editable =>
      simp [TimesheetUpdate.apply, Db.submission] at decided
  | approved may => exact ⟨may, fun _ => rfl⟩
  | rejected reason may =>
      refine ⟨may, fun approved => ?_⟩
      simp [TimesheetUpdate.apply, Db.rejection] at approved

theorem TimesheetData.audited {data : TimesheetData}
    (draft : data.status = .draft) (now : Instant) (id : Nat) :
    Audited (data.row now id) := by
  constructor <;> simp [TimesheetData.row, draft]

end Rows

/-! ## Runs -/

/-- The audit columns of every timesheet agree with its status. -/
def Db.Audited (db : Db) : Prop :=
  ∀ t ∈ db.timesheets.rows, TmsApi.Audited t

theorem audited_run (lib : Libs) (requests : List Request) :
    (World.empty.run lib requests).db.Audited := by
  refine World.run_sheets ?_ ?_ ?_ lib requests
  · simp [Db.Audited, Db.empty]
  · intro host caller call db after _ holds change
    exact change.rows_keep holds
      (fun data entries opens => TimesheetData.audited opens.draft _ _)
      fun t _ new becomes => becomes.audited
  · intro db after _ holds beside
    rw [Db.Audited, beside.timesheets]
    exact holds

theorem World.Sound.lifecycle {world : World} (sound : world.Sound)
    (lib : Libs) (request : Request) :
    LifecycleStep world request (world.step lib request) := by
  rcases sound.sheet_or_beside lib request with
    ⟨host, caller, call, served, signed, change⟩ | beside
  · refine ⟨?_, ?_, ?_⟩
    · intro t member
      rcases change.fate member with
        ⟨new, newMem, becomes⟩ | ⟨_, draft, gone⟩
      · exact .inl ⟨new, newMem, becomes.id, becomes.status⟩
      · exact .inr ⟨draft, gone⟩
    · intro new member unknown
      rcases change.origin member with
        ⟨old, oldMem, becomes⟩ | ⟨data, entries, opens, rfl⟩
      · exact (unknown ⟨old, oldMem, becomes.id.symm⟩).elim
      · exact opens.draft
    · intro t tMem new newMem key moved decided
      rcases change.fate tMem with ⟨row, rowMem, becomes⟩ | ⟨_, _, gone⟩
      · have same : row.id = new.id := becomes.id.trans key.symm
        cases (world.step lib request).db.timesheets.eq_of_key rowMem newMem
          same
        rcases becomes.decided moved decided with ⟨may, named⟩
        exact ⟨host, caller, call, served, signed,
          may.deciding (sound.callers caller signed), named⟩
      · exact (gone ⟨new, newMem, key⟩).elim
  · refine ⟨?_, ?_, ?_⟩
    · intro t member
      exact .inl ⟨t, beside.timesheets ▸ member, rfl, .inl rfl⟩
    · intro new member unknown
      rw [beside.timesheets] at member
      exact (unknown ⟨new, member, rfl⟩).elim
    · intro t tMem new newMem key moved
      rw [beside.timesheets] at newMem
      cases world.db.timesheets.eq_of_key newMem tMem key
      exact (moved rfl).elim

/--
After every run the audit columns of every timesheet agree with its status,
and every further request respects the life cycle.
-/
theorem lifecycle_and_audit (lib : Libs) (requests : List Request) :
    (World.empty.run lib requests).db.Audited ∧
      ∀ request,
        LifecycleStep (World.empty.run lib requests) request
          ((World.empty.run lib requests).step lib request) :=
  ⟨audited_run lib requests, fun request =>
    (World.sound_run lib requests).lifecycle lib request⟩

end TmsApi
