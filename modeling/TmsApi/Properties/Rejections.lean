import TmsApi.Refinement.Runs

/-!
# Recording a rejection and announcing it

`rejectTimesheet` stores the reason twice: bare in the timesheet, and behind
the words of a message in a notification, in columns of the same width and by
two statements without a transaction.  A reason that fits the first column and
not the second is recorded and never announced.
-/

namespace TmsApi

open TmsApi.Core
open TmsApi.Core.Program

/-- The rejected timesheet, and one new notification for its owner. -/
structure RejectedAndNotified (db after : Db) (t : Timesheet)
    (reason : String) : Prop where
  row : ∃ new ∈ after.timesheets.rows, new.id = t.id ∧
    new.status = .rejected ∧ new.rejectedReason = some reason
  notice : ∃ n : Notification, n.type = .rejected ∧ n.userId = t.userId ∧
    after.notifications.rows = db.notifications.rows ++ [n]

/-- A rejection records and notifies, or it fails and does neither. -/
def RejectsTogether (db : Db) (t : Timesheet) (reason : String) :
    Except Thrown Timesheet → Db → Prop
  | .ok _, after => RejectedAndNotified db after t reason
  | .error _, after => after.timesheets = db.timesheets ∧
      after.notifications = db.notifications

/-- The notification of a rejection. -/
def rejectionNotice (t : Timesheet) (reason : String) : NotificationData where
  userId := t.userId
  type := .rejected
  message := rejectedMessage t reason

section

variable {host : Host} {caller : JwtPayload} {db : Db} {t : Timesheet}
  {reason : String}

/-- The message is longer than the reason in it. -/
theorem length_rejectedMessage (t : Timesheet) (reason : String) :
    (toDateString t.weekStartDate).length + 56 + reason.length =
      (rejectedMessage t reason).length := by
  have before : "Your timesheet for week starting ".length = 33 := by decide
  have middle : " was rejected. Reason: ".length = 23 := by decide
  unfold rejectedMessage weekMessage
  simp only [String.length_append, before, middle]
  omega

/-- A reason too long for its own column is refused at once. -/
theorem wp_rejectTimesheet_long (may : MayDecide caller db t)
    (long : ¬ varchar reason)
    {post : Except Thrown Timesheet → Db → Prop} :
    wp (rejectTimesheet host t.id caller.userId caller.orgId reason
      caller.role) post db ↔ post (.error (.driver .valueTooLong)) db := by
  have refused : Prisma.timesheetUpdate host.now t.id (Db.rejection reason)
      db = .error (.driver .valueTooLong) := by
    have found : db.timesheets.find? (fun other => other.id = t.id) =
        some t :=
      Table.find?_of_mem may.member rfl fun other same => same
    have unfit : ¬ ∀ text ∈ (Db.rejection reason).rejectedReason,
        varchar? text := fun fits => long (fits _ rfl reason rfl)
    simp only [Prisma.timesheetUpdate, found, ensure, if_neg unfit]
  simp only [rejectTimesheet, wp_bind]
  refine (wp_decidableTimesheet_of may).trans ?_
  simp only [andThen_ok, wp_bind, wp_statement]
  constructor
  · intro outcome
    exact outcome.1 _ refused
  · intro fails
    refine ⟨fun e failed => ?_, fun row after written => ?_⟩
    · cases failed.symm.trans refused
      exact fails
    · cases written.symm.trans refused

/-- Past its own column, the reason decides about the notification. -/
theorem wp_rejectTimesheet_fit (may : MayDecide caller db t)
    (fits : varchar reason) {post : Except Thrown Timesheet → Db → Prop} :
    wp (rejectTimesheet host t.id caller.userId caller.orgId reason
      caller.role) post db ↔
      wp (statement (Prisma.notificationCreate host.now
          (rejectionNotice t reason)))
        (andThen (fun _ => pure
          ((Db.rejection reason).apply host.now t)) post)
        (db.setSheet host.now t.id (Db.rejection reason)) := by
  have written : Prisma.timesheetUpdate host.now t.id (Db.rejection reason)
      db = .ok (_, _) :=
    Prisma.timesheetUpdate_of may.member rfl
      (by rintro _ ⟨⟩ _ ⟨⟩; exact fits) (by rintro u ⟨⟩)
  simp only [rejectTimesheet, wp_bind]
  refine (wp_decidableTimesheet_of may).trans ?_
  simp only [andThen_ok, wp_bind]
  refine (wp_statement_of written).trans ?_
  simp only [andThen_ok, wp_bind]
  exact Iff.rfl

/-- The row of a rejection is in the table after it. -/
theorem rejected_mem (member : t ∈ db.timesheets.rows) (now : Instant) :
    (Db.rejection reason).apply now t ∈
      (db.setSheet now t.id (Db.rejection reason)).timesheets.rows :=
  Db.mem_setSheet.mpr ⟨t, member, by simp⟩

/-- A message that fits is delivered with the rejection. -/
theorem rejects_announced (may : MayDecide caller db t)
    (user : db.users.HasKey t.userId) (fits : varchar reason)
    (announced : varchar (rejectedMessage t reason)) :
    wp (rejectTimesheet host t.id caller.userId caller.orgId reason
      caller.role) (RejectsTogether db t reason) db := by
  have delivered : Prisma.notificationCreate host.now
      (rejectionNotice t reason)
      (db.setSheet host.now t.id (Db.rejection reason)) = _ :=
    Prisma.notificationCreate_of (rejectionNotice t reason) announced user
  rw [wp_rejectTimesheet_fit may fits]
  refine (wp_statement_of delivered).mpr ?_
  constructor
  · exact ⟨_, rejected_mem may.member host.now, rfl, rfl, rfl⟩
  · exact ⟨_, rfl, rfl, rfl⟩

/-- A message that does not fit is lost, and the timesheet is rejected. -/
theorem rejects_unannounced (may : MayDecide caller db t)
    (fits : varchar reason) (long : ¬ varchar (rejectedMessage t reason)) :
    ¬ wp (rejectTimesheet host t.id caller.userId caller.orgId reason
      caller.role) (RejectsTogether db t reason) db := by
  have refused : Prisma.notificationCreate host.now
      (rejectionNotice t reason)
      (db.setSheet host.now t.id (Db.rejection reason)) =
        .error (.driver .valueTooLong) := by
    have unfit : ¬ varchar (rejectionNotice t reason).message := long
    rw [Prisma.notificationCreate, ensure, if_neg unfit]
  rw [wp_rejectTimesheet_fit may fits, wp_statement]
  intro together
  have same : (db.setSheet host.now t.id
      (Db.rejection reason)).timesheets = db.timesheets :=
    (together.1 _ refused).1
  have row : (Db.rejection reason).apply host.now t ∈ _ :=
    rejected_mem may.member host.now
  rw [same] at row
  have kept := db.timesheets.eq_of_key row may.member rfl
  have status : (TimesheetStatus.rejected : TimesheetStatus) = t.status :=
    congrArg Timesheet.status kept
  rw [may.submitted] at status
  cases status

end

/--
For a caller who may decide about a submitted timesheet, a rejection records
and notifies or does neither, exactly when the reason does not even fit its own
column or its message fits the column of notifications.
-/
theorem rejection_together_iff (host : Host) (caller : JwtPayload) (db : Db)
    (holds : db.Integrity) (t : Timesheet) (may : MayDecide caller db t)
    (reason : String) :
    wp (rejectTimesheet host t.id caller.userId caller.orgId reason
        caller.role) (RejectsTogether db t reason) db ↔
      191 < reason.length ∨
        (toDateString t.weekStartDate).length + 56 + reason.length ≤ 191 := by
  rw [length_rejectedMessage t reason]
  by_cases fits : varchar reason
  · have short : ¬ 191 < reason.length := not_lt.mpr fits
    rw [or_iff_right short]
    by_cases announced : varchar (rejectedMessage t reason)
    · have user := holds.timesheet_user t may.member
      exact iff_of_true (rejects_announced may user fits announced) announced
    · exact iff_of_false (rejects_unannounced may fits announced) announced
  · have long : 191 < reason.length := not_le.mp fits
    rw [wp_rejectTimesheet_long may fits]
    exact iff_of_true ⟨rfl, rfl⟩ (.inl long)

/-- A short reason is recorded and announced. -/
theorem rejection_together_short :
    ∃ t ∈ submittedDb.timesheets.rows,
      wp (rejectTimesheet plainHost t.id 1 1 "late" .admin)
        (RejectsTogether submittedDb t "late") submittedDb := by
  rcases mem_submittedDb with ⟨t, member, key, may⟩
  have short : ∀ t ∈ submittedDb.timesheets.rows,
      (toDateString t.weekStartDate).length + 56 + "late".length ≤ 191 := by
    decide +kernel
  exact ⟨t, member, (rejection_together_iff plainHost ada submittedDb
    submittedDb_integrity t may "late").mpr (.inr (short t member))⟩

/-- A reason of 150 characters. -/
def longReason : String := String.ofList (List.replicate 150 'x')

theorem length_longReason : longReason.length = 150 :=
  String.length_ofList.trans List.length_replicate

/-- The long reason is recorded and its announcement fails. -/
theorem rejection_unannounced :
    Schemas.rejectTimesheetSchema ⟨longReason⟩ = [] ∧
      ∃ t ∈ submittedDb.timesheets.rows, MayDecide ada submittedDb t ∧
        ¬ wp (rejectTimesheet plainHost t.id 1 1 longReason .admin)
          (RejectsTogether submittedDb t longReason) submittedDb := by
  refine ⟨by decide +kernel, ?_⟩
  rcases mem_submittedDb with ⟨t, member, key, may⟩
  have fits : varchar longReason := by
    rw [varchar, length_longReason]
    decide
  have long : ¬ varchar (rejectedMessage t longReason) := by
    rw [varchar, ← length_rejectedMessage, length_longReason]
    omega
  have unsent : ¬ wp (rejectTimesheet plainHost t.id ada.userId ada.orgId
      longReason ada.role) (RejectsTogether submittedDb t longReason)
      submittedDb :=
    rejects_unannounced may fits long
  exact ⟨t, member, may, unsent⟩

end TmsApi
