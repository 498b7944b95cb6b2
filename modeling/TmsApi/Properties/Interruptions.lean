import TmsApi.Core.Faults
import TmsApi.Refinement.Faults
import TmsApi.Refinement.Runs

/-!
# Interrupted approvals

`approveTimesheet` writes the status, books the hours entry by entry and leaves
a notification, with no transaction around these statements.  Interrupted up to
the status an approval has done nothing; interrupted past it, it leaves the
timesheet approved with the hours of the first entries booked.  A retry is
refused there, so an approval is all or nothing exactly when no statement after
the status fails.
-/

namespace TmsApi

open TmsApi.Core
open TmsApi.Core.Program

section

variable {host : Host} {caller : JwtPayload} {db : Db} {t : Timesheet}
  {fault : Thrown} {k : Nat}

/-! ## Every way an approval can be interrupted -/

section

variable (may : MayDecide caller db t) (selfMessage : String)
  (target : TimesheetStatus)

include may

/-- A fault in the guards comes before any write. -/
theorem decidableTimesheet_interrupted (early : k < checks caller) :
    (decidableTimesheet t.id caller.userId caller.orgId caller.role
      selfMessage target).failing fault k db = (.error fault, 0, db) := by
  have found : db.orgTimesheet t.id caller.orgId = some t :=
    Table.find?_of_mem may.member ⟨rfl, may.org⟩
      fun other facts => facts.1
  by_cases manager : caller.role = .manager
  · rw [checks, if_pos manager] at early
    rcases k with _ | _ | k
    · rfl
    · simp [decidableTimesheet, found, orThrow, throwIf, may.other, whenever,
        manager, assertIsDirectReport]
    · omega
  · rw [checks, if_neg manager] at early
    cases Nat.lt_one_iff.mp early
    rfl

/-- A caller who may decide passes the guards after their statements. -/
theorem decidableTimesheet_passed :
    (decidableTimesheet t.id caller.userId caller.orgId caller.role
      selfMessage target).failing fault (k + checks caller) db =
        (.ok t, k, db) := by
  have found : db.orgTimesheet t.id caller.orgId = some t :=
    Table.find?_of_mem may.member ⟨rfl, may.org⟩
      fun other facts => facts.1
  by_cases manager : caller.role = .manager
  · rw [checks, if_pos manager]
    simp [decidableTimesheet, found, orThrow, throwIf, may.other,
      may.submitted, whenever, manager, assertIsDirectReport,
      may.report manager]
  · rw [checks, if_neg manager]
    simp [decidableTimesheet, found, orThrow, throwIf, may.other,
      may.submitted, whenever, manager]

end

/-- One entry booked. -/
theorem bookEntry_failing {e : TimeEntry}
    (project : db.projects.HasKey e.projectId) :
    (bookEntry host e).failing fault (k + 1) db =
      (.ok ⟨⟩, k, { db with
        projects :=
          db.projects.modify (fun p => p.id = e.projectId)
            (Prisma.book host.now e.totalHours) }) :=
  failing_statement_succ (Prisma.projectIncrementUsedHours_of _ project)

/-- The loop interrupted: the entries before the fault are booked. -/
theorem bookEntries_interrupted {entries : List TimeEntry}
    (projects : ∀ e ∈ entries, db.projects.HasKey e.projectId)
    (early : k < entries.length) :
    (forEach (bookEntry host) entries).failing fault k db =
      (.error fault, 0,
        { db with
          projects := bookAll host.now (entries.take k) db.projects }) := by
  induction entries generalizing k db with
  | nil => exact (Nat.not_lt_zero k early).elim
  | cons e entries ih =>
      cases k with
      | zero => rfl
      | succ k =>
          have project := projects e List.mem_cons_self
          rw [forEach, failing_bind_ok (bookEntry_failing project)]
          refine ih ?_ (Nat.lt_of_succ_lt_succ early)
          intro other member
          have kept := projects other (List.mem_cons_of_mem _ member)
          exact hasKey_book.mpr kept

theorem bookEntries_passed {entries : List TimeEntry}
    (projects : ∀ e ∈ entries, db.projects.HasKey e.projectId) :
    (forEach (bookEntry host) entries).failing fault (k + entries.length) db =
      (.ok ⟨⟩, k,
        { db with
          projects := bookAll host.now entries db.projects }) := by
  induction entries generalizing db with
  | nil => rfl
  | cons e entries ih =>
      have project := projects e List.mem_cons_self
      rw [List.length_cons, ← Nat.add_assoc, forEach,
        failing_bind_ok (bookEntry_failing project)]
      refine ih ?_
      intro other member
      have kept := projects other (List.mem_cons_of_mem _ member)
      exact hasKey_book.mpr kept

/-- The timesheet approved and the first entries booked. -/
def Db.interrupted (now : Instant) (approver : Nat) (t : Timesheet)
    (booked : Nat) (db : Db) : Db :=
  { db.setSheet now t.id (Db.approval now approver) with
    projects := bookAll now ((db.entriesOf t.id).take booked) db.projects }

section

variable {approver : Nat} (holds : db.Integrity)
  (member : t ∈ db.timesheets.rows) (known : db.users.HasKey approver)

include member known

include holds

/-- Past the status, a fault leaves the timesheet approved. -/
theorem recordApproval_interrupted
    (early : k < 2 + (db.entriesOf t.id).length) :
    (recordApproval host t.id approver t).failing fault (k + 1) db =
      (.error fault, 0, db.interrupted host.now approver t (k - 1)) := by
  have projects : ∀ e ∈ db.entriesOf t.id,
      (db.setSheet host.now t.id
        (Db.approval host.now approver)).projects.HasKey e.projectId :=
    fun e eMem => holds.entry_project e (Db.mem_entriesOf.mp eMem).1
  rw [recordApproval,
    failing_bind_ok (failing_statement_succ (approval_written member known))]
  cases k with
  | zero => rfl
  | succ k =>
      rw [failing_bind_ok (failing_query_succ _)]
      rcases Nat.lt_or_ge k (db.entriesOf t.id).length with looping | left
      · exact failing_bind_error (bookEntries_interrupted projects looping) _
      · have last : k = 0 + (db.entriesOf t.id).length := by omega
        subst last
        refine (failing_bind_ok (bookEntries_passed projects) _).trans ?_
        rw [Db.interrupted, List.take_of_length_le (by omega)]
        rfl

theorem recordApproval_passed :
    (recordApproval host t.id approver t).failing fault
        (k + 1 + (db.entriesOf t.id).length + 1 + 1) db =
      (.ok ((Db.approval host.now approver).apply host.now t), k,
        db.approve host.now approver t) := by
  have projects : ∀ e ∈ db.entriesOf t.id,
      (db.setSheet host.now t.id
        (Db.approval host.now approver)).projects.HasKey e.projectId :=
    fun e eMem => holds.entry_project e (Db.mem_entriesOf.mp eMem).1
  have user : db.users.HasKey t.userId := holds.timesheet_user t member
  rw [recordApproval,
    failing_bind_ok (failing_statement_succ (approval_written member known)),
    failing_bind_ok (failing_query_succ _)]
  refine (failing_bind_ok (bookEntries_passed projects) _).trans ?_
  refine (failing_bind_ok (failing_statement_succ
    (Prisma.notificationCreate_of
      { userId := t.userId
        type := .approved
        message := approvedMessage t } (varchar_approvedMessage t) ?_))
      _).trans ?_
  · exact user
  · rfl

end

/-! ## All or nothing -/

/--
An approval with a failing statement that ends in an error has changed
nothing, and a retry does what an undisturbed approval does.
-/
def AllOrNothing (host : Host) (caller : JwtPayload) (t : Timesheet)
    (fault : Thrown) (k : Nat) (db : Db) : Prop :=
  let approval :=
    approveTimesheet host t.id caller.userId caller.orgId caller.role
  let (answer, _, after) := approval.failing fault k db
  (∃ e, answer = .error e) →
    (∃ u ∈ after.timesheets.rows, u.id = t.id ∧ u.status = .submitted) ∧
      after.projects = db.projects ∧
      after.notifications = db.notifications ∧
      approval.exec after = approval.exec db

section

variable {answer : Except Thrown Timesheet} {left : Nat} {after : Db}
  (ends : (approveTimesheet host t.id caller.userId caller.orgId
    caller.role).failing fault k db = (answer, left, after))

include ends

/-- A run that leaves the database alone has changed nothing. -/
theorem AllOrNothing.of_untouched (member : t ∈ db.timesheets.rows)
    (submitted : t.status = .submitted) (untouched : after = db) :
    AllOrNothing host caller t fault k db := by
  subst untouched
  rw [AllOrNothing, ends]
  exact fun _ => ⟨⟨t, member, rfl, submitted⟩, rfl, rfl, rfl⟩

theorem AllOrNothing.of_ok {row : Timesheet} (succeeded : answer = .ok row) :
    AllOrNothing host caller t fault k db := by
  subst succeeded
  rw [AllOrNothing, ends]
  rintro ⟨e, failed⟩
  cases failed

end

/-- The timesheet of an interrupted approval is not submitted any more. -/
theorem interrupted_approved {now : Instant} {approver booked : Nat}
    {u : Timesheet}
    (member : u ∈ (db.interrupted now approver t booked).timesheets.rows)
    (key : u.id = t.id) : u.status = .approved := by
  rcases Db.mem_setSheet.mp member with ⟨old, _, rfl⟩
  by_cases touched : old.id = t.id
  · rw [if_pos touched]
    rfl
  · rw [if_neg touched] at key
    exact (touched key).elim

/-- A caller the guards refuse changes nothing, whatever fails. -/
theorem approveTimesheet_refused (role : Managing caller)
    (member : t ∈ db.timesheets.rows) (refused : ¬ MayDecide caller db t) :
    ∃ e left, (approveTimesheet host t.id caller.userId caller.orgId
      caller.role).failing fault k db = (.error e, left, db) := by
  have reads := Safe.failing (decidableTimesheet_reads t.id caller.userId
    caller.orgId caller.role "Managers cannot approve their own timesheets"
    .approved) (rfl : db = db) fault k
  rcases ends : (decidableTimesheet t.id caller.userId caller.orgId
    caller.role "Managers cannot approve their own timesheets"
    .approved).failing fault k db with ⟨answer, left, after⟩
  rw [ends] at reads
  cases reads
  cases answer with
  | error e => exact ⟨e, left, failing_bind_error ends _⟩
  | ok row =>
      have passed := exec_of_failing ends
      have deciding : wp (decidableTimesheet t.id caller.userId caller.orgId
          caller.role "Managers cannot approve their own timesheets" .approved)
          (fun answer _ => ∀ row, answer = .ok row →
            MayDecide caller after row ∧ row.id = t.id) after := by
        refine wp_decidableTimesheet role (by simp) ?_
        rintro row may key _ ⟨⟩
        exact ⟨may, key⟩
      rw [wp, passed] at deciding
      rcases deciding row rfl with ⟨may, key⟩
      cases after.timesheets.eq_of_key may.member member key
      exact (refused may).elim

/--
An approval of a submitted timesheet is all or nothing exactly when the
statement that fails is not one between its first write and its end.
-/
theorem approval_all_or_nothing_iff (host : Host) (caller : JwtPayload)
    (db : Db) (holds : db.Integrity) (role : Managing caller)
    (signed : db.Member caller.userId caller.orgId) (t : Timesheet)
    (member : t ∈ db.timesheets.rows) (submitted : t.status = .submitted)
    (fault : Thrown) (k : Nat) :
    AllOrNothing host caller t fault k db ↔
      (MayDecide caller db t → k ≤ checks caller ∨
        checks caller + 3 + (db.entriesOf t.id).length ≤ k) := by
  by_cases may : MayDecide caller db t
  · simp only [may, true_implies]
    rcases Nat.lt_or_ge k (checks caller) with early | late
    · constructor
      · intro _
        exact .inl early.le
      · intro _
        exact .of_untouched (failing_bind_error
          (decidableTimesheet_interrupted may _ _ early) _) member submitted
          rfl
    obtain ⟨j, rfl⟩ := Nat.exists_eq_add_of_le' late
    have passed : (approveTimesheet host t.id caller.userId caller.orgId
        caller.role).failing fault (j + checks caller) db =
        (recordApproval host t.id caller.userId t).failing fault j db := by
      rw [approveTimesheet_eq]
      exact failing_bind_ok (decidableTimesheet_passed may _ _) _
    rcases j with _ | j
    · constructor
      · intro _
        exact .inl (by omega)
      · intro _
        exact .of_untouched passed member submitted rfl
    rcases Nat.lt_or_ge j (2 + (db.entriesOf t.id).length) with middle | done
    · rw [recordApproval_interrupted holds member signed.hasKey middle]
        at passed
      constructor
      · intro whole
        rw [AllOrNothing, passed] at whole
        rcases (whole ⟨fault, rfl⟩).1 with ⟨u, uMem, key, still⟩
        cases still.symm.trans (interrupted_approved uMem key)
      · intro outside
        exact absurd outside (by omega)
    · obtain ⟨i, rfl⟩ : ∃ i, j = i + 1 + (db.entriesOf t.id).length + 1 :=
        ⟨j - (2 + (db.entriesOf t.id).length), by omega⟩
      rw [recordApproval_passed holds member signed.hasKey] at passed
      constructor
      · intro _
        exact .inr (by omega)
      · intro _
        exact .of_ok passed rfl
  · constructor
    · intro _ passes
      exact (may passes).elim
    · intro _
      rcases approveTimesheet_refused role member may with ⟨e, left, ends⟩
      exact .of_untouched ends member submitted rfl

end

/-- The status update of Eve's timesheet fails. -/
theorem approval_all_or_nothing_submitted :
    ∃ t ∈ submittedDb.timesheets.rows,
      AllOrNothing plainHost ada t (.driver .recordNotFound) 1 submittedDb := by
  have found : (∃ t ∈ submittedDb.timesheets.rows, t.status = .submitted) ∧
      submittedDb.Member 1 1 := by
    decide +kernel
  rcases found with ⟨⟨t, member, submitted⟩, signed⟩
  have holds : submittedDb.Integrity :=
    (World.sound_run plainLibs _).integrity
  refine ⟨t, member, ?_⟩
  refine (approval_all_or_nothing_iff plainHost ada submittedDb holds
    (.inr rfl) signed t member submitted _ 1).mpr fun _ => ?_
  exact .inl (by decide)

/-- The increment of the project's hours fails: the approval stays. -/
theorem interrupted_approval_kept :
    ∃ t ∈ submittedDb.timesheets.rows, t.status = .submitted ∧
      ¬ AllOrNothing plainHost ada t (.driver .recordNotFound) 3
        submittedDb := by
  have kept : ∃ t ∈ submittedDb.timesheets.rows, t.status = .submitted ∧
      ((approveTimesheet plainHost t.id 1 1 .admin).failing
        (.driver .recordNotFound) 3 submittedDb).1 =
          .error (.driver .recordNotFound) ∧
      ∀ u ∈ ((approveTimesheet plainHost t.id 1 1 .admin).failing
        (.driver .recordNotFound) 3 submittedDb).2.2.timesheets.rows,
          u.id = t.id → u.status = .approved := by
    decide +kernel
  rcases kept with ⟨t, member, submitted, failed, approved⟩
  refine ⟨t, member, submitted, fun whole => ?_⟩
  rcases (whole ⟨_, failed⟩).1 with ⟨u, uMem, key, still⟩
  cases still.symm.trans (approved u uMem key)

end TmsApi
