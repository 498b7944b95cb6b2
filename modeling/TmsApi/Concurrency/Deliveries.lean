import TmsApi.Concurrency.Ownership
import TmsApi.Core.Accounts

/-!
# Every decision is delivered once

The notifications of a user are written by approvals and rejections only, as
their last statement.  However the statements of the requests in flight are
interleaved, a user gets one notification for each decision on an own
timesheet that is answered with success, and none otherwise.

The guards of a decision show the timesheet in a state that the other requests
may have left behind by the time of the update.  `Shown` is what remains true
of it.
-/

namespace TmsApi

open TmsApi.Core
open TmsApi.Core.Program

/-! ## The timesheet a decision has read -/

/-- A row under the key of the timesheet still belongs to whom it did. -/
def Db.Shown (ts : Timesheet) (db : Db) : Prop :=
  ts.id < db.timesheets.next ∧
    ∀ row ∈ db.timesheets.rows, row.id = ts.id → row.identity = ts.identity

theorem Db.Kept.shown {may : Permits} {before after : Db}
    (kept : Kept may before after) {ts : Timesheet}
    (shown : before.Shown ts) : after.Shown ts := by
  obtain ⟨old, same⟩ := shown
  refine ⟨lt_of_lt_of_le old kept.timesheets.next_le,
    fun row member key => ?_⟩
  rcases kept.timesheets.origin row member (key.trans_lt old) with
    ⟨first, firstMem, firstKey, reads⟩
  exact reads.symm.trans (same first firstMem (firstKey.trans key))

theorem Db.shown_of_mem {db : Db} {ts : Timesheet}
    (member : ts ∈ db.timesheets.rows) : db.Shown ts :=
  ⟨db.timesheets.keys_below ts member, fun row rowMem key => by
    rw [db.timesheets.eq_of_key rowMem member key]⟩

/-- The guards of a decision add nothing to any amount. -/
theorem decidableTimesheet_adds {M : Type} [AddCommMonoid M]
    {rel : Db → Db → Prop} (admits : Db → Db → Prop) (amount : Db → M)
    (refl : ∀ s, rel s s)
    (keeps : ∀ s t, rel s t → Db.Kept .all s t) (db : Db)
    (id approvingUserId orgId : Nat) (userRole : UserRole)
    (selfMessage : String) (target : TimesheetStatus) :
    (decidableTimesheet id approvingUserId orgId userRole selfMessage
      target).Adds rel admits amount
        (fun result paid t => paid = 0 ∧ ∀ ts, result = .ok ts →
          ts.id = id ∧ t.Shown ts) 0 db := by
  have refused (e : Thrown) (t : Db) : (0 : M) = 0 ∧
      ∀ ts, (.error e : Except Thrown Timesheet) = .ok ts →
        ts.id = id ∧ t.Shown ts :=
    ⟨rfl, fun ts absurd => by cases absurd⟩
  refine Adds.query_bind refl fun t led => ?_
  refine Adds.orThrow_bind (fun u _ => refused _ u) fun ts found => ?_
  refine Adds.throwIf_bind (fun u _ => refused _ u) fun apart => ?_
  have spec := Table.find?_spec found
  have stable (s u : Db) (shown : s.Shown ts) (led : rel s u) : u.Shown ts :=
    (keeps s u led).shown shown
  have check : (whenever (userRole = .manager)
      (assertIsDirectReport approvingUserId ts.userId orgId)).Issues
        fun _ _ => False :=
    .whenever issues_check
  refine Adds.bind refl (check.adds refl stable
    (fun _ _ never => never.elim) (Db.shown_of_mem spec.1)) ?_ ?_
  · rintro e paid u ⟨rfl, _⟩
    exact refused e u
  · rintro _ paid u ⟨rfl, shown⟩
    refine Adds.throwIf_bind (fun v _ => refused _ v) fun _ => ?_
    rintro v led
    refine ⟨rfl, fun ts' same => ?_⟩
    cases same
    exact ⟨spec.2.1, stable u v shown led⟩

/-- The update of a decision answers a row of the same owner. -/
theorem timesheetUpdate_shown {now : Instant} {id : Nat}
    {data : TimesheetUpdate} {ts row : Timesheet} {before after : Db}
    (outcome : Prisma.timesheetUpdate now id data before = .ok (row, after))
    (key : ts.id = id) (shown : before.Shown ts) :
    row.identity = ts.identity := by
  simp only [Prisma.timesheetUpdate] at outcome
  split at outcome
  · cases outcome
  · rename_i old found
    simp only [ensure_eq_ok, Except.ok.injEq, Prod.mk.injEq] at outcome
    rcases outcome with ⟨_, _, rfl, _⟩
    have spec := Table.find?_spec found
    exact shown.2 old spec.1 (spec.2.trans key.symm)

/-! ## Notifications of a type -/

/-- How many notifications of a type a user has. -/
def Db.delivered (userId : Nat) (type : NotificationType) (db : Db) : Nat :=
  db.notifications.rows.countP fun n => n.userId = userId ∧ n.type = type

/-- Everything but to notify somebody is permitted. -/
def Permits.silent : Permits :=
  { Permits.all with notifies := False }

section

variable {lib : Libs} {userId : Nat} {type : NotificationType}

theorem Db.Kept.delivered {before after : Db}
    (kept : Kept .silent before after) :
    after.delivered userId type = before.delivered userId type := by
  have counts (db : Db) : db.delivered userId type =
      (db.notifications.rows.map Notification.content).countP
        fun n => n.2.1 = userId ∧ n.2.2.1 = type := by
    rw [List.countP_map]
    rfl
  rw [counts, counts, kept.notices id]

/-- A program without notifications delivers nothing. -/
theorem delivered_of_issues {α : Type} {program : Service α} {paid : Nat}
    {db : Db} (issues : program.Issues (Issued lib .silent)) :
    program.Adds (Db.Kept .all) ⊤ (Db.delivered userId type)
      (fun _ now _ => now = paid) paid db := by
  refine Adds.mono (issues.adds Db.Kept.refl (fun _ _ (_ : True) _ => trivial)
    (fun γ tx issued s a t outcome _ _ => ?_) trivial)
    fun _ _ _ ended => ended.1
  have kept := issued.kept s a t outcome
  exact ⟨kept.weaken, kept.delivered⟩

/-- What a decision with this answer delivers. -/
def delivery (userId : Nat) (type : NotificationType) (wrote : NotificationType)
    (result : Except Thrown Timesheet) : Nat :=
  match result with
  | .ok row => if row.userId = userId ∧ wrote = type then 1 else 0
  | .error _ => 0

/-- The loop of an approval over the entries. -/
def bookEntries (host : Host) (id : Nat) : Service PUnit :=
  query (fun db => db.entriesOf id) >>= forEach (bookEntry host)

/-- An approval as a decision with something to book. -/
theorem approveTimesheet_shape (host : Host)
    (id approvingUserId orgId : Nat) (userRole : UserRole) :
    approveTimesheet host id approvingUserId orgId userRole =
      decidableTimesheet id approvingUserId orgId userRole
          "Managers cannot approve their own timesheets" .approved >>=
        fun ts => statement (Prisma.timesheetUpdate host.now id
            { status := some .approved
              approvedById := some approvingUserId
              approvedAt := some host.now }) >>=
          fun row => bookEntries host id >>= fun _ =>
            statement (Prisma.notificationCreate host.now
              { userId := ts.userId
                type := .approved
                message := approvedMessage ts }) >>=
              fun _ => pure row :=
  rfl

/-- The common shape of an approval and a rejection. -/
theorem decision_delivers {host : Host} {db : Db}
    (id approvingUserId orgId : Nat) (userRole : UserRole)
    (selfMessage : String) (target : TimesheetStatus)
    (data : TimesheetUpdate) (wrote : NotificationType)
    (message : Timesheet → String) {booking : Service PUnit}
    (books : booking.Issues (Issued lib .silent)) :
    (decidableTimesheet id approvingUserId orgId userRole selfMessage target >>=
      fun ts => statement (Prisma.timesheetUpdate host.now id data) >>=
        fun row => booking >>= fun _ =>
          statement (Prisma.notificationCreate host.now
            { userId := ts.userId, type := wrote, message := message ts }) >>=
            fun _ => (pure row : Service Timesheet)).Adds (Db.Kept .all) ⊤
      (Db.delivered userId type)
      (fun result paid _ => paid = delivery userId type wrote result) 0 db := by
  refine Adds.bind Db.Kept.refl (decidableTimesheet_adds _ _ Db.Kept.refl
    (fun _ _ kept => kept) db id approvingUserId orgId userRole selfMessage
      target) (fun _ _ _ ended => ended.1) ?_
  rintro ts paid s ⟨rfl, guards⟩
  obtain ⟨key, shown⟩ := guards ts rfl
  refine Adds.statement_bind Db.Kept.refl (fun _ _ _ _ _ _ => rfl)
    fun row t u led outcome _ => ?_
  have same := timesheetUpdate_shown outcome key (led.shown shown)
  have kept : Db.Kept .silent t u :=
    Prisma.timesheetUpdate_kept _ _ _ (fun _ _ => trivial) t row u outcome
  refine ⟨kept.weaken, 0, kept.delivered, ?_⟩
  rw [add_zero]
  refine Adds.bind Db.Kept.refl (delivered_of_issues books)
    (fun _ _ _ ended => ended) ?_
  rintro _ paid v rfl
  refine Adds.statement_bind Db.Kept.refl (fun _ _ _ _ _ _ => rfl)
    fun n v w _ outcome _ => ?_
  have kept : Db.Kept .all v w :=
    Prisma.notificationCreate_kept _ _ trivial v n w outcome
  refine ⟨kept, if row.userId = userId ∧ wrote = type then 1 else 0, ?_,
    fun _ _ => zero_add _⟩
  simp only [Prisma.notificationCreate, ensure_eq_ok, Except.ok.injEq,
    Prod.mk.injEq] at outcome
  rcases outcome with ⟨_, _, _, rfl⟩
  have owner : row.userId = ts.userId := congrArg (fun r => r.2.2) same
  rw [owner]
  simp [Db.delivered, NotificationData.row, List.countP_append]

/-! ## Requests -/

/-- Whose timesheet a successful decision decided, and how. -/
def Request.announces : Request → Response → Option (Nat × NotificationType)
  | .authenticated _ _ (.approveTimesheet _), .timesheet row =>
      some (row.userId, .approved)
  | .authenticated _ _ (.rejectTimesheet _ _), .timesheet row =>
      some (row.userId, .rejected)
  | _, _ => none

/-- What a request delivers, told by what it has answered. -/
def Request.delivers (request : Request) (userId : Nat)
    (type : NotificationType) (thread : Service Response) : Nat :=
  match thread with
  | .done (.ok response) =>
      if request.announces response = some (userId, type) then 1 else 0
  | _ => 0

theorem Request.delivers_respond {request : Request}
    (wrote : NotificationType)
    (announces : ∀ row, request.announces (.timesheet row) =
      some (row.userId, wrote)) {db : Db} {paid : Nat}
    {program : Service Timesheet}
    (adds : program.Adds (Db.Kept .all) ⊤ (Db.delivered userId type)
      (fun result now _ => now = delivery userId type wrote result) paid db) :
    (program >>= fun row => (pure (.timesheet row) : Service Response)).Adds
      (Db.Kept .all) ⊤ (Db.delivered userId type)
      (fun result now _ => now = request.delivers userId type (.done result))
      paid db := by
  refine Adds.bind Db.Kept.refl adds (fun _ _ _ ended => ended) ?_
  rintro row now s rfl t _
  simp [delivery, Request.delivers, announces]

theorem Request.program_delivers (request : Request) (db : Db) :
    (request.program lib).Adds (Db.Kept .all) ⊤ (Db.delivered userId type)
      (fun result paid _ =>
        paid = request.delivers userId type (.done result)) 0 db := by
  have quiet (never : ∀ response, request.announces response = none)
      (issues : (request.program lib).Issues (Issued lib .silent)) :
      (request.program lib).Adds (Db.Kept .all) ⊤ (Db.delivered userId type)
        (fun result paid _ =>
          paid = request.delivers userId type (.done result)) 0 db := by
    refine (delivered_of_issues issues).mono ?_
    rintro result paid t rfl
    cases result with
    | ok response => simp [delivers, never]
    | error e => rfl
  have guarded {condition : Prop} [Decidable condition] {e : Thrown}
      {program : Service Response}
      (adds : program.Adds (Db.Kept .all) ⊤ (Db.delivered userId type)
        (fun result paid _ =>
          paid = request.delivers userId type (.done result)) 0 db) :
      (throwIf condition e >>= fun _ => program).Adds (Db.Kept .all) ⊤
        (Db.delivered userId type)
        (fun result paid _ =>
          paid = request.delivers userId type (.done result)) 0 db :=
    Adds.throwIf_bind (fun _ _ => rfl) fun _ => adds
  cases request with
  | anonymous host call => exact quiet (fun _ => rfl) (handlePublic_issues call)
  | authenticated host caller call =>
      have issues := @handle_issues lib .silent host caller call
      cases call with
      | approveTimesheet id =>
          refine guarded
            (Request.delivers_respond .approved (fun _ => rfl) ?_)
          have books : (bookEntries host id).Issues (Issued lib .silent) :=
            .bind (issues_query _) fun _ => .forEach (fun _ =>
              issues_statement (.incrementUsedHours _ _ _ trivial)) _
          rw [approveTimesheet_shape]
          exact decision_delivers id caller.userId caller.orgId caller.role _ _
            _ _ approvedMessage books
      | rejectTimesheet id dto =>
          have books : (pure ⟨⟩ : Service PUnit).Issues
              (Issued lib .silent) := issues_done _
          refine guarded (guarded
            (Request.delivers_respond .rejected (fun _ => rfl) ?_))
          exact decision_delivers id caller.userId caller.orgId caller.role _ _
            _ _ (fun ts => rejectedMessage ts dto.reason) books
      | _ =>
          refine quiet (fun _ => rfl) (issues ?_)
          simp [Call.Needs, Permits.silent, Permits.all]

end

/--
When all requests in flight are answered, a user has as many notifications of
a type as before and one more for each successful decision of that kind.
-/
theorem deliveries_exact {ι : Type} [DecidableEq ι] [Fintype ι] {lib : Libs}
    {requests : ι → Request} {db : Db} {schedule : List ι}
    {after : Pool Db Thrown Response ι} (userId : Nat)
    (type : NotificationType)
    (ran : (inFlight lib requests db).run schedule = some after)
    (finished : after.Finished) :
    after.state.delivered userId type = db.delivered userId type +
      ∑ i, (requests i).delivers userId type (after.threads i) := by
  rcases Pool.run_adds Db.Kept.refl (fun _ _ _ => .trans) ran
    (fun _ _ _ _ _ _ _ => trivial) fun i =>
      (requests i).program_delivers db with ⟨paid, sum, threads⟩
  have told : ∀ i, paid i =
      (requests i).delivers userId type (after.threads i) := by
    intro i
    rcases finished i with ⟨result, ended⟩
    rw [ended]
    exact Pool.adds_finished Db.Kept.refl (threads i) ended
  rw [sum]
  exact congrArg _ (Finset.sum_congr rfl fun i _ => told i)

/-- The approval at the busy moment is the only request that is delivered. -/
theorem deliveries_exact_busy :
    ∃ last, (inFlight plainLibs busyRequests submittedDb).run busySchedule =
      some last ∧ last.state.delivered 2 .approved =
        submittedDb.delivered 2 .approved + ∑ i,
          (busyRequests i).delivers 2 .approved (last.threads i) := by
  rcases busy_ends with ⟨last, ran, _, _, _, finished⟩
  exact ⟨last, ran, deliveries_exact 2 .approved ran finished⟩

end TmsApi
