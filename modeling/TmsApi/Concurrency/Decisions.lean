import TmsApi.Concurrency.Pools
import TmsApi.Properties.Ledger

/-!
# Concurrent decisions on one timesheet

`approveTimesheet` and `rejectTimesheet` check the status in their first
statement and overwrite it in a later one.  A decision that starts after
another one wrote the status is refused; two decisions that both read
SUBMITTED are never told apart.  Decisions are therefore exclusive exactly
when the first of them reaches its write before any other one starts.
-/

namespace TmsApi

open TmsApi.Core
open TmsApi.Core.Program

/-! ## Guards -/

section Guards

variable {caller : JwtPayload} {db : Db} {t : Timesheet}

/-- `t` is decided; users and hierarchy are as they were in `db`. -/
structure Settled (db : Db) (t : Timesheet) (later : Db) : Prop where
  users : later.users = db.users
  links : later.managerEmployees = db.managerEmployees
  row : ∃ row ∈ later.timesheets.rows, row.id = t.id ∧
    row.organisationId = t.organisationId ∧ row.userId = t.userId ∧
    (row.status = .approved ∨ row.status = .rejected)

/-- The error of a decision that is not possible any more. -/
def IsTransition {α : Type} (result : Except Thrown α) : Prop :=
  ∃ source target, result = .error (.invalidTransitionError source target)

/-- Any other error. -/
def NotTransition (e : Thrown) : Prop :=
  ∀ source target, e ≠ .invalidTransitionError source target

theorem notTransition_driver (fault : DriverFault) :
    NotTransition (.driver fault) :=
  fun _ _ absurd => by cases absurd

theorem Settled.isDirectReport {later : Db} (settled : Settled db t later)
    (managerId employeeId orgId : Nat) :
    later.isDirectReport managerId employeeId orgId ↔
      db.isDirectReport managerId employeeId orgId := by
  simp only [Db.isDirectReport, Db.Member, settled.links, settled.users]

/-- Once a timesheet is decided the guards refuse another decision. -/
theorem decidableTimesheet_refuses (may : MayDecide caller db t)
    (selfMessage : String) (target : TimesheetStatus) :
    (decidableTimesheet t.id caller.userId caller.orgId caller.role
      selfMessage target).Ends (Settled db t) IsTransition := by
  rw [decidableTimesheet, query_bind]
  intro first settled
  rcases settled.row with ⟨row, member, key, org, owner, decided⟩
  have found : first.orgTimesheet t.id caller.orgId = some row :=
    Table.find?_of_mem member ⟨key, org.trans may.org⟩
      fun other facts => facts.1.trans key.symm
  have apart : row.userId ≠ caller.userId := owner ▸ may.other
  have refused : row.status ≠ .submitted := by
    rcases decided with status | status <;> simp [status]
  have report : (whenever (caller.role = .manager)
      (assertIsDirectReport caller.userId row.userId caller.orgId)).Ends
        (Settled db t) (· = .ok ⟨⟩) := by
    by_cases manager : caller.role = .manager
    · rw [whenever_of manager, assertIsDirectReport, query_bind]
      intro second settled
      have linked : second.isDirectReport caller.userId row.userId
          caller.orgId :=
        (settled.isDirectReport _ _ _).mpr (owner ▸ may.report manager)
      simp [linked, throwIf, Ends]
    · rw [whenever_of_not manager]
      rfl
  simp only [found, orThrow_some, ok_bind, throwIf_of_not apart,
    throwIf_of refused, error_bind]
  exact report.bind (fun e absurd => by cases absurd) fun _ _ => ⟨_, _, rfl⟩

/-- The guards at a timesheet the caller may decide, after reading it. -/
theorem decidableTimesheet_eq (may : MayDecide caller db t)
    (selfMessage : String) (target : TimesheetStatus) :
    ∃ guards : Option Timesheet → Service Timesheet,
      decidableTimesheet t.id caller.userId caller.orgId caller.role
        selfMessage target =
          (query fun s => s.orgTimesheet t.id caller.orgId) >>= guards ∧
      guards (db.orgTimesheet t.id caller.orgId) =
        whenever (caller.role = .manager)
          (assertIsDirectReport caller.userId t.userId caller.orgId) >>=
            fun _ => pure t := by
  refine ⟨_, rfl, ?_⟩
  have found : db.orgTimesheet t.id caller.orgId = some t :=
    Table.find?_of_mem may.member ⟨rfl, may.org⟩
      fun other facts => facts.1
  have open_ : ¬ t.status ≠ .submitted := not_not.mpr may.submitted
  simp only [found, orThrow_some, ok_bind, throwIf_of_not may.other,
    throwIf_of_not open_]

/-- Undisturbed, the guards let a caller pass who may decide. -/
theorem decidableTimesheet_passes {α : Type} (may : MayDecide caller db t)
    (selfMessage : String) (target : TimesheetStatus)
    {f : Timesheet → Service α} {rest : Service α → Prop}
    (holds : rest (f t)) :
    (decidableTimesheet t.id caller.userId caller.orgId caller.role
      selfMessage target >>= f).Leads (· = db) (fun s s' => s' = s) rest
        (checks caller) := by
  rcases decidableTimesheet_eq may selfMessage target with
    ⟨guards, same, passed⟩
  simp only [same, query_bind, atomic_bind, checks]
  by_cases manager : caller.role = .manager
  · rw [if_pos manager]
    rintro first rfl
    refine ⟨rfl, rfl, ?_⟩
    simp only [passed, whenever_of manager, assertIsDirectReport,
      query_bind, atomic_bind]
    rintro second rfl
    refine ⟨rfl, rfl, ?_⟩
    simpa [may.report manager, throwIf, Leads] using holds
  · rw [if_neg manager]
    rintro first rfl
    refine ⟨rfl, rfl, ?_⟩
    simpa [passed, whenever_of_not manager, Leads] using holds

/-- Past its first statement a decision is not refused for the status. -/
theorem decidableTimesheet_read {α : Type} (may : MayDecide caller db t)
    (selfMessage : String) (target : TimesheetStatus)
    {f : Timesheet → Service α} {post : Except Thrown α → Prop}
    (forbidden : ∀ message code,
      post (.error (.forbiddenError message code)))
    (rest : (f t).Ends (fun _ => True) post) :
    (decidableTimesheet t.id caller.userId caller.orgId caller.role
      selfMessage target >>= f).Leads (· = db) (fun s s' => s' = s)
        (Ends (fun _ => True) post) 1 := by
  rcases decidableTimesheet_eq may selfMessage target with
    ⟨guards, same, passed⟩
  simp only [same, query_bind, atomic_bind]
  rintro first rfl
  refine ⟨rfl, rfl, ?_⟩
  simp only [passed, Leads]
  by_cases manager : caller.role = .manager
  · simp only [whenever_of manager, assertIsDirectReport, query_bind,
      atomic_bind]
    intro second _
    by_cases linked : second.isDirectReport caller.userId t.userId
      caller.orgId
    · simpa [linked, throwIf] using rest
    · simpa [linked, throwIf, Ends] using forbidden _ _
  · simpa [whenever_of_not manager] using rest

end Guards

/-! ## The two decisions -/

section Shapes

variable {lib : Libs} {host : Host} {caller : JwtPayload} {call : Call}
  {db : Db} {t : Timesheet}

/-- What `approveTimesheet` does after it wrote the status. -/
def bookApproved (host : Host) (id : Nat) (timesheet approved : Timesheet) :
    Service Response := do
  let entries ← query fun db => db.entriesOf id
  forEach (bookEntry host) entries
  let _ ← statement <| Prisma.notificationCreate host.now
    { userId := timesheet.userId
      type := .approved
      message := approvedMessage timesheet }
  return .timesheet approved

/-- The notification of a rejection. -/
def rejectedNotice (timesheet : Timesheet) (reason : String) :
    NotificationData where
  userId := timesheet.userId
  type := .rejected
  message := rejectedMessage timesheet reason

/-- What `rejectTimesheet` does after it wrote the status. -/
def announceRejected (host : Host) (reason : String)
    (timesheet rejected : Timesheet) : Service Response := do
  let _ ← statement <| Prisma.notificationCreate host.now
    (rejectedNotice timesheet reason)
  return .timesheet rejected

/-- A decision: its guards, its status write and the rest. -/
def decision (host : Host) (caller : JwtPayload) (id : Nat)
    (selfMessage : String) (target : TimesheetStatus)
    (data : TimesheetUpdate)
    (rest : Timesheet → Timesheet → Service Response) :
    Service Response :=
  decidableTimesheet id caller.userId caller.orgId caller.role selfMessage
    target >>= fun timesheet =>
      statement (Prisma.timesheetUpdate host.now id data) >>=
        rest timesheet

theorem requireRole_of {roles : List UserRole} {role : UserRole}
    (member : role ∈ roles) : requireRole roles role = pure ⟨⟩ :=
  throwIf_of_not (not_not.mpr member) _

theorem MayDecide.mem_roles (may : MayDecide caller db t) :
    caller.role ∈ [UserRole.manager, .admin] := by
  rcases may.role with role | role <;> simp [role]

theorem handle_approve (may : MayDecide caller db t) :
    handle lib host caller (.approveTimesheet t.id) =
      decision host caller t.id
        "Managers cannot approve their own timesheets" .approved
        (Db.approval host.now caller.userId) (bookApproved host t.id) := by
  simp only [handle, requireRole_of may.mem_roles, pure_eq, ok_bind,
    approveTimesheet, bind_assoc]
  rfl

theorem handle_reject (may : MayDecide caller db t)
    {dto : RejectTimesheetDto}
    (accepted : Schemas.rejectTimesheetSchema dto = []) :
    handle lib host caller (.rejectTimesheet t.id dto) =
      decision host caller t.id
        "Managers cannot reject their own timesheets" .rejected
        (Db.rejection dto.reason) (announceRejected host dto.reason) := by
  simp only [handle, requireRole_of may.mem_roles, validate,
    throwIf_of_not (not_not.mpr accepted), pure_eq, ok_bind,
    rejectTimesheet, bind_assoc]
  rfl

end Shapes

/-! ## What a decision does among others -/

section Contention

variable {lib : Libs} {host : Host} {caller : JwtPayload} {call : Call}
  {db : Db} {t : Timesheet}

/-- Statements on other tables leave a decision alone. -/
theorem Settled.of_same {later after : Db} (settled : Settled db t later)
    (sheets : after.timesheets = later.timesheets)
    (users : after.users = later.users)
    (links : after.managerEmployees = later.managerEmployees) :
    Settled db t after where
  users := users.trans settled.users
  links := links.trans settled.links
  row := sheets ▸ settled.row

theorem bookEntry_settled (e : TimeEntry) :
    (bookEntry host e).Safe (Settled db t) (fun _ _ => True) := by
  refine Safe.statement (fun _ => trivial) ?_
  intro s _ s' outcome settled
  simp only [Prisma.projectIncrementUsedHours, ensure_eq_ok,
    Except.ok.injEq, Prod.mk.injEq] at outcome
  rcases outcome with ⟨_, _, rfl⟩
  exact ⟨trivial, settled.of_same rfl rfl rfl⟩

theorem notify_settled (now : Instant) (data : NotificationData) :
    (statement (Prisma.notificationCreate now data)).Safe (Settled db t)
      (fun _ _ => True) := by
  refine Safe.statement (fun _ => trivial) ?_
  intro s _ s' outcome settled
  rw [Prisma.notificationCreate_after outcome]
  exact ⟨trivial, settled.of_same rfl rfl rfl⟩

/-- The rest of a decision neither decides nor complains about the status. -/
structure Follows (db : Db) (t : Timesheet)
    (rest : Timesheet → Timesheet → Service Response) : Prop where
  settled : ∀ timesheet row,
    (rest timesheet row).Safe (Settled db t) (fun _ _ => True)
  raises : ∀ timesheet row, (rest timesheet row).Raises NotTransition

theorem bookApproved_follows (id : Nat) :
    Follows db t (bookApproved host id) where
  settled timesheet row := by
    refine (Safe.query (fun _ => trivial) _).bind fun entries => ?_
    refine (Safe.forEach bookEntry_settled entries).bind fun _ => ?_
    refine Safe.bind ?_ fun _ => safe_done _
    exact notify_settled _ _
  raises timesheet row := by
    refine (raises_query _).bind fun entries => ?_
    refine (Raises.forEach (fun e => ?_) entries).bind fun _ => ?_
    · exact (Prisma.projectIncrementUsedHours_faults _ _).raises
        notTransition_driver
    · refine Raises.bind ?_ ?_
      · refine Faults.raises ?_ notTransition_driver
        exact Prisma.notificationCreate_faults _
      · intro n
        exact raises_ok _

theorem announceRejected_follows (reason : String) :
    Follows db t (announceRejected host reason) where
  settled timesheet row := by
    unfold announceRejected
    refine Safe.bind ?_ fun _ => safe_done _
    exact notify_settled _ _
  raises timesheet row := by
    unfold announceRejected
    refine Raises.bind ?_ ?_
    · refine Faults.raises ?_ notTransition_driver
      exact Prisma.notificationCreate_faults _
    · intro n
      exact raises_ok _

/-- The columns a decision writes; the approver is the caller. -/
structure DecisionData (caller : JwtPayload) (data : TimesheetUpdate) :
    Prop where
  status : data.status = some .approved ∨ data.status = some .rejected
  approver : ∀ u ∈ data.approvedById, u = caller.userId

/-- The status write, when its values fit their columns. -/
theorem decided_of (may : MayDecide caller db t)
    (signed : db.Member caller.userId caller.orgId)
    {data : TimesheetUpdate} (columns : DecisionData caller data)
    (fits : ∀ reason ∈ data.rejectedReason, varchar? reason)
    (now : Instant) :
    Prisma.timesheetUpdate now t.id data db =
        .ok (data.apply now t, db.setSheet now t.id data) ∧
      Settled db t (db.setSheet now t.id data) := by
  refine ⟨Prisma.timesheetUpdate_of may.member rfl fits ?_, rfl, rfl, ?_⟩
  · intro u given
    rw [columns.approver u given]
    exact signed.hasKey
  · refine ⟨data.apply now t, Db.mem_setSheet.mpr ⟨t, may.member, ?_⟩, rfl,
      rfl, rfl, ?_⟩
    · rw [if_pos rfl]
    · rcases columns.status with status | status <;>
        simp [TimesheetUpdate.apply, status]

/-- The next statement decides, and the rest keeps the decision. -/
def Decisive (db : Db) (t : Timesheet) (left : Service Response) : Prop :=
  ∃ write next, left = atomic write next ∧ Settled db t (write db) ∧
    (next db).Safe (Settled db t) (fun _ _ => True)

/-- The hours of a timesheet on a project. -/
def Db.hoursOn (db : Db) (timesheetId projectId : Nat) : ℚ :=
  (((db.entriesOf timesheetId).filter fun e =>
    e.projectId = projectId).map (·.totalHours)).sum

/-- `t` is decided, and booked once if and only if it is approved. -/
structure Outcome (db : Db) (t : Timesheet) (after : Db) : Prop where
  decided : ∃ row ∈ after.timesheets.rows, row.id = t.id ∧
    (row.status = .approved ∨ row.status = .rejected)
  booked : ∀ row ∈ after.timesheets.rows, row.id = t.id →
    row.status = .approved → ∀ p ∈ db.projects.rows,
      ∃ q ∈ after.projects.rows, q.id = p.id ∧
        q.usedHours = p.usedHours + db.hoursOn t.id p.id
  unbooked : ∀ row ∈ after.timesheets.rows, row.id = t.id →
    row.status = .rejected → ∀ p ∈ db.projects.rows,
      ∃ q ∈ after.projects.rows, q.id = p.id ∧ q.usedHours = p.usedHours

/-- The decided row is the one the decision wrote. -/
theorem mem_decided {now : Instant} {data : TimesheetUpdate}
    (member : t ∈ db.timesheets.rows) {row : Timesheet}
    (rowMem : row ∈ (db.setSheet now t.id data).timesheets.rows)
    (key : row.id = t.id) : row = data.apply now t := by
  rcases Db.mem_setSheet.mp rowMem with ⟨old, oldMem, rfl⟩
  by_cases same : old.id = t.id
  · rw [if_pos same, db.timesheets.eq_of_key oldMem member same]
  · rw [if_neg same] at key
    exact (same key).elim

theorem outcome_approve (may : MayDecide caller db t) (now : Instant) :
    Outcome db t (db.approve now caller.userId t) where
  decided := by
    refine ⟨_, Db.mem_setSheet.mpr ⟨t, may.member, rfl⟩, ?_⟩
    rw [if_pos rfl]
    exact ⟨rfl, .inl rfl⟩
  booked row rowMem key approved p member :=
    ⟨_, mem_bookAll.mpr ⟨p, member, rfl⟩, rfl, rfl⟩
  unbooked row rowMem key rejected := by
    rw [mem_decided may.member rowMem key] at rejected
    cases rejected

theorem outcome_reject (may : MayDecide caller db t) (now : Instant)
    (reason : String) (data : NotificationData) :
    Outcome db t ((db.setSheet now t.id (Db.rejection reason)).notify now
      data) where
  decided := by
    refine ⟨_, Db.mem_setSheet.mpr ⟨t, may.member, rfl⟩, ?_⟩
    rw [if_pos rfl]
    exact ⟨rfl, .inr rfl⟩
  booked row rowMem key approved := by
    rw [mem_decided may.member rowMem key] at approved
    cases approved
  unbooked row rowMem key rejected p member := ⟨p, member, rfl, rfl⟩

/-- What the pool needs to know of one decision among others. -/
structure Contends (db : Db) (t : Timesheet) (guards : Nat) (fits : Prop)
    (program : Service Response) : Prop where
  quiet : program.Safe (Settled db t) (fun s s' => s' = s)
  refused : program.Ends (Settled db t) IsTransition
  read : program.Leads (· = db) (fun s s' => s' = s)
    (Raises NotTransition) 1
  waits : program.Leads (· = db) (fun s s' => s' = s)
    (fun left => fits → Decisive db t left) guards
  unfit : ¬ fits → program.Leads (· = db) (fun s s' => s' = s)
    (Ends (fun _ => True) fun result =>
      ∃ e, result = .error e ∧ NotTransition e) 1
  alone : fits → wp program (fun result after =>
    (∃ response, result = .ok response) ∧ Outcome db t after) db

section Decision

variable {selfMessage : String} {target : TimesheetStatus}
  {data : TimesheetUpdate}
  {rest : Timesheet → Timesheet → Service Response}

theorem decision_quiet (may : MayDecide caller db t) :
    (decision host caller t.id selfMessage target data rest).Safe
      (Settled db t) (fun s s' => s' = s) := by
  refine (decidableTimesheet_reads _ _ _ _ _ _).bind_ends
    (decidableTimesheet_refuses may _ _) ?_
  rintro row ⟨_, _, absurd⟩
  cases absurd

theorem decision_refused (may : MayDecide caller db t) :
    (decision host caller t.id selfMessage target data rest).Ends
      (Settled db t) IsTransition := by
  refine (decidableTimesheet_refuses may _ _).bind ?_ ?_
  · rintro e ⟨source, target, same⟩
    cases same
    exact ⟨source, target, rfl⟩
  · rintro row ⟨_, _, absurd⟩
    cases absurd

theorem decision_read (may : MayDecide caller db t)
    (follows : Follows db t rest) :
    (decision host caller t.id selfMessage target data rest).Leads (· = db)
      (fun s s' => s' = s) (Raises NotTransition) 1 := by
  refine decidableTimesheet_read may _ _ ?_ ?_
  · rintro message code e same
    cases same
    exact fun _ _ absurd => by cases absurd
  · refine Raises.bind ?_ fun row => follows.raises t row
    refine Faults.raises ?_ notTransition_driver
    exact Prisma.timesheetUpdate_faults _ _

theorem decision_waits (may : MayDecide caller db t)
    (signed : db.Member caller.userId caller.orgId)
    (columns : DecisionData caller data) (follows : Follows db t rest)
    {fits : Prop}
    (width : fits → ∀ reason ∈ data.rejectedReason, varchar? reason) :
    (decision host caller t.id selfMessage target data rest).Leads (· = db)
      (fun s s' => s' = s) (fun left => fits → Decisive db t left)
      (checks caller) := by
  refine decidableTimesheet_passes may _ _ fun holds => ?_
  have written := decided_of may signed columns (width holds) host.now
  refine ⟨_, _, rfl, ?_, ?_⟩
  · rw [settle_of written.1]
    exact written.2
  · simp only [answer_of written.1]
    exact follows.settled t _

theorem decision_unfit (may : MayDecide caller db t)
    (fails : ∀ row, (rest t row).Ends (fun _ => True)
      fun result => ∃ e, result = .error e ∧ NotTransition e) :
    (decision host caller t.id selfMessage target data rest).Leads (· = db)
      (fun s s' => s' = s)
      (Ends (fun _ => True) fun result =>
        ∃ e, result = .error e ∧ NotTransition e) 1 := by
  have first : (statement
      (Prisma.timesheetUpdate host.now t.id data)).Ends (fun _ => True)
      fun result => ∀ e, result = .error e → NotTransition e :=
    (Prisma.timesheetUpdate_faults _ _).raises notTransition_driver
  refine decidableTimesheet_read may _ _ ?_ ?_
  · exact fun message code => ⟨_, rfl, fun _ _ absurd => by cases absurd⟩
  · refine first.bind ?_ ?_
    · exact fun e notTransition => ⟨e, rfl, notTransition e rfl⟩
    · exact fun row _ => fails row

end Decision

theorem approve_contends (holds : db.Integrity)
    (may : MayDecide caller db t)
    (signed : db.Member caller.userId caller.orgId) {fits : Prop}
    (always : fits) :
    Contends db t (checks caller) fits
      (handle lib host caller (.approveTimesheet t.id)) := by
  have columns : DecisionData caller
      (Db.approval host.now caller.userId) :=
    ⟨.inl rfl, fun u given => by cases given; rfl⟩
  have follows : Follows db t (bookApproved host t.id) :=
    bookApproved_follows t.id
  have alone : wp (handle lib host caller (.approveTimesheet t.id))
      (fun result after =>
        (∃ response, result = .ok response) ∧ Outcome db t after) db := by
    simp only [handle, requireRole_of may.mem_roles, pure_eq, ok_bind,
      wp_bind]
    refine (wp_approveTimesheet_of holds may signed).mpr ?_
    exact ⟨⟨_, rfl⟩, outcome_approve may host.now⟩
  rw [handle_approve may] at alone ⊢
  exact
    { quiet := decision_quiet may
      refused := decision_refused may
      read := decision_read may follows
      waits := decision_waits may signed columns follows
        fun _ reason absurd => by cases absurd
      unfit := fun absurd => (absurd always).elim
      alone := fun _ => alone }

theorem varchar_of_rejectedMessage {reason : String}
    (fits : varchar (rejectedMessage t reason)) : varchar reason := by
  unfold varchar rejectedMessage at *
  rw [String.length_append] at fits
  omega

/-- A rejection whose message is too long never succeeds. -/
theorem announceRejected_fails {reason : String}
    (tooLong : ¬ varchar (rejectedMessage t reason)) (row : Timesheet) :
    (announceRejected host reason t row).Ends (fun _ => True)
      fun result => ∃ e, result = .error e ∧ NotTransition e := by
  intro s _
  have failed : Prisma.notificationCreate host.now
      (rejectedNotice t reason) s = .error (.driver .valueTooLong) := by
    have long : ¬ varchar (rejectedNotice t reason).message := tooLong
    rw [Prisma.notificationCreate, ensure, if_neg long]
  simp only [answer, failed]
  exact ⟨_, rfl, notTransition_driver _⟩

theorem reject_alone (holds : db.Integrity) (may : MayDecide caller db t)
    (signed : db.Member caller.userId caller.orgId) {reason : String}
    (fits : varchar (rejectedMessage t reason)) {selfMessage : String}
    {target : TimesheetStatus} :
    wp (decision host caller t.id selfMessage target (Db.rejection reason)
        (announceRejected host reason))
      (fun result after =>
        (∃ response, result = .ok response) ∧ Outcome db t after) db := by
  have columns : DecisionData caller (Db.rejection reason) :=
    ⟨.inr rfl, fun u absurd => by cases absurd⟩
  have width : ∀ text ∈ (Db.rejection reason).rejectedReason,
      varchar? text := by
    intro text given value same
    cases given
    cases same
    exact varchar_of_rejectedMessage fits
  have written := decided_of may signed columns width host.now
  have user : db.users.HasKey t.userId := holds.timesheet_user t may.member
  simp only [decision, wp_bind]
  rw [wp_decidableTimesheet_of may, andThen_ok, wp_bind]
  refine (wp_statement_of written.1).mpr ?_
  simp only [andThen_ok, announceRejected, wp_bind]
  refine (wp_statement_of
    (Prisma.notificationCreate_of (rejectedNotice t reason) fits ?_)).mpr ?_
  · exact user
  · exact ⟨⟨_, rfl⟩, outcome_reject may host.now reason _⟩

theorem reject_contends (holds : db.Integrity)
    (may : MayDecide caller db t)
    (signed : db.Member caller.userId caller.orgId)
    {dto : RejectTimesheetDto}
    (accepted : Schemas.rejectTimesheetSchema dto = []) :
    Contends db t (checks caller) (varchar (rejectedMessage t dto.reason))
      (handle lib host caller (.rejectTimesheet t.id dto)) := by
  have columns : DecisionData caller (Db.rejection dto.reason) :=
    ⟨.inr rfl, fun u absurd => by cases absurd⟩
  have follows : Follows db t (announceRejected host dto.reason) :=
    announceRejected_follows dto.reason
  rw [handle_reject may accepted]
  refine
    { quiet := decision_quiet may
      refused := decision_refused may
      read := decision_read may follows
      waits := decision_waits may signed columns follows ?_
      unfit := fun tooLong =>
        decision_unfit may (announceRejected_fails tooLong)
      alone := fun fits => reject_alone holds may signed fits }
  intro fits text given value same
  cases given
  cases same
  exact varchar_of_rejectedMessage fits

/-- An authorised caller's decision on a submitted timesheet. -/
structure Decides (db : Db) (t : Timesheet) (caller : JwtPayload)
    (call : Call) : Prop where
  signed : db.Member caller.userId caller.orgId
  may : MayDecide caller db t
  call : call = .approveTimesheet t.id ∨
    ∃ dto, Schemas.rejectTimesheetSchema dto = [] ∧
      call = .rejectTimesheet t.id dto

/-- The message of a rejection fits its column. -/
def Fits (t : Timesheet) (call : Call) : Prop :=
  ∀ id dto, call = .rejectTimesheet id dto →
    varchar (rejectedMessage t dto.reason)

theorem Decides.contends (decides : Decides db t caller call)
    (holds : db.Integrity) :
    Contends db t (checks caller) (Fits t call)
      (handle lib host caller call) := by
  rcases decides.call with rfl | ⟨dto, accepted, rfl⟩
  · exact approve_contends holds decides.may decides.signed
      fun id dto absurd => by cases absurd
  · have same : Fits t (.rejectTimesheet t.id dto) ↔
        varchar (rejectedMessage t dto.reason) := by
      constructor
      · exact fun fits => fits t.id dto rfl
      · rintro fits id other equal
        cases equal
        exact fits
    rw [same]
    exact reject_contends holds decides.may decides.signed accepted

end Contention

/-! ## Exclusive decisions -/

section Exclusion

variable {ι : Type} [DecidableEq ι] {db : Db} {t : Timesheet}
  {pool last : Pool Db Thrown Response ι} {guards : ι → Nat}
  {fits : ι → Prop} {schedule : List ι}

/-- One decision succeeds, every other one comes too late. -/
structure Exclusive (db : Db) (t : Timesheet)
    (last : Pool Db Thrown Response ι) : Prop where
  winner : ∃ i, (∃ response, last.threads i = .done (.ok response)) ∧
    ∀ j, j ≠ i → ∃ result, last.threads j = .done result ∧
      IsTransition result
  outcome : Outcome db t last.state

/-- A list begins with `d` copies of `i`, or something else comes earlier. -/
theorem replicate_prefix_or (i : ι) (d : Nat) (xs : List ι) :
    List.replicate d i <+: xs ∨
      ∃ m < d, ∃ rest, xs = List.replicate m i ++ rest ∧
        ∀ j ∈ rest.head?, j ≠ i := by
  induction d generalizing xs with
  | zero => exact .inl (List.nil_prefix)
  | succ d ih =>
      cases xs with
      | nil => exact .inr ⟨0, Nat.succ_pos d, [], rfl, by simp⟩
      | cons x xs =>
          by_cases same : x = i
          · subst same
            rcases ih xs with initial | ⟨m, less, rest, split, apart⟩
            · exact .inl (List.cons_prefix_cons.mpr ⟨rfl, initial⟩)
            · refine .inr ⟨m + 1, Nat.succ_lt_succ less, rest, ?_, apart⟩
              rw [split]
              rfl
          · exact .inr ⟨0, Nat.succ_pos d, x :: xs, rfl, by simpa using same⟩

section Reads

variable {middle : Pool Db Thrown Response ι} {i : ι} {n : Nat}
  {fit : Prop} (own : Contends db t n fit (pool.threads i))
  (start : pool.state = db)

include own start

/-- While one thread is within its guards the database is untouched. -/
theorem state_of_guards {m : Nat} (few : m ≤ n)
    (ran : pool.run (List.replicate m i) = some middle) :
    middle.state = db := by
  have leads : ∀ j, (pool.threads j).Leads (· = db) (fun s s' => s' = s)
      (fun _ => True) ((List.replicate m i).count j) := by
    intro j
    by_cases same : j = i
    · subst same
      rcases Nat.exists_eq_add_of_le few with ⟨more, total⟩
      have waits := own.waits
      rw [total] at waits
      rw [List.count_replicate_self]
      exact (leads_add waits).mono fun _ _ => trivial
    · rw [List.count_replicate, if_neg (by simpa using Ne.symm same)]
      trivial
  exact (Pool.run_leads ran start leads).2.1

/-- Past its guards the thread writes next. -/
theorem decisive_of_guards (fits : fit)
    (ran : pool.run (List.replicate n i) = some middle) :
    middle.state = db ∧ Decisive db t (middle.threads i) := by
  have leads : ∀ j, (pool.threads j).Leads (· = db) (fun s s' => s' = s)
      (fun left => j = i → Decisive db t left)
      ((List.replicate n i).count j) := by
    intro j
    by_cases same : j = i
    · subst same
      rw [List.count_replicate_self]
      exact own.waits.mono fun _ decisive _ => decisive fits
    · rw [List.count_replicate, if_neg (by simpa using Ne.symm same)]
      exact fun equal => (same equal).elim
  have result := Pool.run_leads ran start leads
  exact ⟨result.2.1, result.2.2 i rfl⟩

/-- A thread that read the undecided timesheet is not refused. -/
theorem not_refused_of_read (step : pool.step i = some middle)
    (ran : middle.run schedule = some last) {result : Except Thrown Response}
    (finished : last.threads i = .done result) :
    ¬ IsTransition result ∧
      (¬ fit → ∀ response, result ≠ .ok response) := by
  rcases Pool.step_eq_some.mp step with ⟨write, next, thread, rfl⟩
  have ends {post : Except Thrown Response → Prop}
      (leads : (pool.threads i).Leads (· = db) (fun s s' => s' = s)
        (Ends (fun _ => True) post) 1) : post result := by
    rw [thread] at leads
    have holds := (leads pool.state start).2.2
    refine Pool.ends_of_thread ran ?_ finished
    simpa [Leads] using holds
  constructor
  · rintro ⟨source, target, rfl⟩
    exact ends own.read _ rfl source target rfl
  · rintro unfit response rfl
    rcases ends (own.unfit unfit) with ⟨e, absurd, _⟩
    cases absurd

/-- With exclusive decisions a thread that read early is the winner. -/
theorem wins_of_read (step : pool.step i = some middle)
    (ran : middle.run schedule = some last)
    (exclusive : Exclusive db t last) :
    fit ∧ ∃ response, last.threads i = .done (.ok response) := by
  rcases exclusive.winner with ⟨winner, ⟨response, won⟩, lost⟩
  by_cases same : i = winner
  · subst same
    refine ⟨?_, response, won⟩
    by_contra unfit
    exact (not_refused_of_read own start step ran won).2 unfit response rfl
  · rcases lost i same with ⟨result, finished, refused⟩
    exact ((not_refused_of_read own start step ran finished).1 refused).elim

end Reads

/-- There is one winner. -/
theorem Exclusive.unique (exclusive : Exclusive db t last) {i j : ι}
    (left : ∃ response, last.threads i = .done (.ok response))
    (right : ∃ response, last.threads j = .done (.ok response)) :
    i = j := by
  rcases exclusive.winner with ⟨winner, _, lost⟩
  have only {k : ι}
      (won : ∃ response, last.threads k = .done (.ok response)) :
      k = winner := by
    by_contra apart
    rcases lost k apart with ⟨result, finished, _, _, rfl⟩
    rcases won with ⟨response, finished'⟩
    rw [finished'] at finished
    cases finished
  exact (only left).trans (only right).symm

variable (all : ∀ i, Contends db t (guards i) (fits i) (pool.threads i))

include all

/-- Exclusive decisions begin with all statements up to the first write. -/
theorem guards_of_exclusive (start : pool.state = db)
    (member : t ∈ db.timesheets.rows) (submitted : t.status = .submitted)
    (ran : pool.run schedule = some last)
    (exclusive : Exclusive db t last) :
    ∃ i, fits i ∧ List.replicate (guards i + 1) i <+: schedule := by
  have changed : last.state ≠ db := by
    intro same
    rcases exclusive.outcome.decided with ⟨row, rowMem, key, decided⟩
    rw [same] at rowMem
    rw [db.timesheets.eq_of_key rowMem member key, submitted] at decided
    rcases decided with absurd | absurd <;> cases absurd
  cases schedule with
  | nil =>
      cases ran
      exact (changed start).elim
  | cons i schedule =>
      rcases Pool.run_cons.mp ran with ⟨first, step, tail⟩
      have won := wins_of_read (all i) start step tail exclusive
      refine ⟨i, won.1, ?_⟩
      refine (replicate_prefix_or i (guards i + 1) _).resolve_right ?_
      rintro ⟨m, less, rest, split, apart⟩
      rw [split] at ran
      rcases Pool.run_append.mp ran with ⟨middle, guarded, remaining⟩
      have few : m ≤ guards i := Nat.lt_succ_iff.mp less
      have untouched := state_of_guards (all i) start few guarded
      cases rest with
      | nil =>
          cases remaining
          exact changed untouched
      | cons j rest =>
          -- `j` is still at its first statement, and reads `db` with it
          have other : j ≠ i := apart j rfl
          have same : middle.threads j = pool.threads j :=
            Pool.run_threads_of_notMem guarded
              fun scheduled => other (List.eq_of_mem_replicate scheduled)
          rcases Pool.run_cons.mp remaining with ⟨second, step', tail'⟩
          have alsoWon := wins_of_read (same ▸ all j) untouched step' tail'
            exclusive
          exact other (exclusive.unique alsoWon.2 won.2)

/-- A decision that reaches its write first excludes all others. -/
theorem exclusive_of_guards (start : pool.state = db) {i : ι}
    (fit : fits i) (ran : pool.run schedule = some last)
    (finished : last.Finished)
    (first : List.replicate (guards i + 1) i <+: schedule) :
    Exclusive db t last := by
  rcases first with ⟨rest, rfl⟩
  rcases Pool.run_append.mp ran with ⟨middle, began, remaining⟩
  have idle : ∀ j, j ≠ i → middle.threads j = pool.threads j :=
    fun j apart => Pool.run_threads_of_notMem began
      fun scheduled => apart (List.eq_of_mem_replicate scheduled)
  -- the first statements of `i` decide the timesheet
  have decided : Settled db t middle.state ∧
      (middle.threads i).Safe (Settled db t) (fun _ _ => True) := by
    rw [List.replicate_succ'] at began
    rcases Pool.run_append.mp began with ⟨before, guarded, wrote⟩
    rcases decisive_of_guards (all i) start fit guarded with
      ⟨untouched, write, next, thread, settled, safe⟩
    rcases Pool.run_cons.mp wrote with ⟨_, step, same⟩
    cases same
    rcases Pool.step_eq_some.mp step with ⟨write', next', thread', rfl⟩
    rw [thread] at thread'
    cases thread'
    simp only [Function.update_self, untouched]
    exact ⟨settled, safe⟩
  -- from there on everybody else only reads, so `i` ends as if alone
  have alone : (pool.threads i).exec db = (last.threads i).exec last.state := by
    rw [Pool.run_alone remaining decided.1 decided.2
        fun j _ apart => idle j apart ▸ (all j).quiet,
      Pool.run_alone began trivial (Safe.trivially _)
        fun j scheduled apart =>
          (apart (List.eq_of_mem_replicate scheduled)).elim, start]
  rcases finished i with ⟨result, answered⟩
  have outcome := (all i).alone fit
  unfold wp at outcome
  rw [alone, answered] at outcome
  rcases outcome with ⟨⟨response, rfl⟩, outcome⟩
  refine ⟨⟨i, ⟨response, answered⟩, fun j apart => ?_⟩, outcome⟩
  rcases finished j with ⟨refused, ended⟩
  refine ⟨refused, ended, ?_⟩
  have each : ∀ k, (middle.threads k).Ends (Settled db t)
      (fun result => k ≠ i → IsTransition result) := by
    intro k
    by_cases same : k = i
    · exact Ends.mono (fun _ _ other => (other same).elim)
        (Ends.trivially _)
    · rw [idle k same]
      exact (all k).refused.mono fun _ holds _ => holds
  have safe : ∀ k, (middle.threads k).Safe (Settled db t)
      (fun _ _ => True) := by
    intro k
    by_cases same : k = i
    · rw [same]
      exact decided.2
    · rw [idle k same]
      exact (all k).quiet.mono fun _ _ _ _ => trivial
  exact Pool.run_ends remaining decided.1 safe each ended apart

end Exclusion

/--
Concurrent decisions of authorised callers on a submitted timesheet are
exclusive if and only if one of them performs its statements up to the status
write before any other one starts, and its message fits the column if it is a
rejection.
-/
theorem decisions_exclusive_iff (lib : Libs) {ι : Type} [DecidableEq ι]
    (requests : Concurrent ι) (db : Db) (t : Timesheet)
    (schedule : List ι) (last : Pool Db Thrown Response ι)
    (holds : db.Integrity) (member : t ∈ db.timesheets.rows)
    (submitted : t.status = .submitted)
    (decides : ∀ i, Decides db t (requests.caller i) (requests.call i))
    (ran : (requests.pool lib db).run schedule = some last)
    (finished : last.Finished) :
    Exclusive db t last ↔
      ∃ i, Fits t (requests.call i) ∧
        List.replicate (checks (requests.caller i) + 1) i <+: schedule := by
  have all : ∀ i, Contends db t (checks (requests.caller i))
      (Fits t (requests.call i)) ((requests.pool lib db).threads i) :=
    fun i => (decides i).contends holds
  constructor
  · exact guards_of_exclusive all rfl member submitted ran
  · rintro ⟨i, fit, first⟩
    exact exclusive_of_guards all rfl fit ran finished first

/-- Ada approves Eve's timesheet twice. -/
def twoApprovals : Concurrent Bool where
  host _ := plainHost
  caller _ := ada
  call _ := .approveTimesheet 1

theorem twoApprovals_decide {t : Timesheet} (key : t.id = 1)
    (may : MayDecide ada submittedDb t) (i : Bool) :
    Decides submittedDb t (twoApprovals.caller i) (twoApprovals.call i) where
  signed := by
    have member : submittedDb.Member 1 1 := by decide +kernel
    exact member
  may := may
  call := .inl (by rw [key]; rfl)

/-- One after the other, one approval succeeds and the other is refused. -/
theorem decisions_exclusive_in_turn :
    ∃ t ∈ submittedDb.timesheets.rows, ∃ last,
      (twoApprovals.pool plainLibs submittedDb).run
        [true, true, false, true, true, true] = some last ∧
      Exclusive submittedDb t last := by
  rcases mem_submittedDb with ⟨t, member, key, may⟩
  have ended : ∃ last, (twoApprovals.pool plainLibs submittedDb).run
      [true, true, false, true, true, true] = some last ∧
        ∀ i, ((last.threads i).result?).isSome :=
    Pool.exists_of_any (by decide +kernel)
  rcases ended with ⟨last, ran, answered⟩
  have finished : last.Finished := finished_of_answers answered
  refine ⟨t, member, last, ran, ?_⟩
  refine (decisions_exclusive_iff plainLibs twoApprovals submittedDb t _ last
    submittedDb_integrity member may.submitted (twoApprovals_decide key may)
    ran finished).mpr ⟨true, ?_, ?_⟩
  · exact fun id dto absurd => by cases absurd
  · exact ⟨[false, true, true, true], rfl⟩

/-- Both read SUBMITTED, both approve, and the hours are booked twice. -/
theorem decisions_not_exclusive :
    ∃ t ∈ submittedDb.timesheets.rows, ∃ last,
      (∀ i, Decides submittedDb t (twoApprovals.caller i)
        (twoApprovals.call i)) ∧
      (twoApprovals.pool plainLibs submittedDb).run
        [true, false, true, false, true, true, true, false, false, false] =
          some last ∧
      last.Finished ∧
      (∃ p ∈ last.state.projects.rows, p.usedHours = 16) ∧
      ¬ Exclusive submittedDb t last := by
  rcases mem_submittedDb with ⟨t, member, key, may⟩
  have ended : ∃ last, (twoApprovals.pool plainLibs submittedDb).run
      [true, false, true, false, true, true, true, false, false, false] =
        some last ∧
      (∀ i, (last.threads i).succeeded) ∧
        ∃ p ∈ last.state.projects.rows, p.usedHours = 16 :=
    Pool.exists_of_any (by decide +kernel)
  rcases ended with ⟨last, ran, succeeded, doubled⟩
  have won : ∀ i, ∃ response, last.threads i = .done (.ok response) :=
    fun i => succeeded_iff.mp (succeeded i)
  refine ⟨t, member, last, twoApprovals_decide key may, ran,
    fun i => ?_, doubled, fun exclusive => ?_⟩
  · rcases won i with ⟨response, answered⟩
    exact ⟨_, answered⟩
  · cases exclusive.unique (won true) (won false)

end TmsApi
