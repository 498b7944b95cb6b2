import TmsApi.Concurrency.Deliveries

/-!
# Approvals at the same time lose no hours

An approval books the hours of its entries one increment after the other,
while any number of other approvals do the same, on the same projects or the
same timesheet.  The other requests in flight may be anything, as long as the
entries of the timesheets under approval stay as they are.  Once all are
answered, each project has gained exactly the hours of every successful
approval.

`Steady` is what all these requests grant each other, and `Due` the fact about
one project that they rely on: one of its entries is under approval, so nobody
can delete it.
-/

namespace TmsApi

open TmsApi.Core
open TmsApi.Core.Program

/-- The used hours of a project, none if it does not exist. -/
def Db.usedHours (projectId : Nat) (db : Db) : ℚ :=
  ((db.projects.find? fun p => p.id = projectId).map (·.usedHours)).getD 0

/-- The hours entries book on a project. -/
def entryHours (projectId : Nat) (entries : List TimeEntry) : ℚ :=
  ((entries.filter fun e => e.projectId = projectId).map (·.totalHours)).sum

theorem entryHours_cons (projectId : Nat) (e : TimeEntry)
    (entries : List TimeEntry) :
    entryHours projectId (e :: entries) =
      (if e.projectId = projectId then e.totalHours else 0) +
        entryHours projectId entries := by
  by_cases own : e.projectId = projectId <;> simp [entryHours, own]

/-- The timesheets under approval keep their entries. -/
def KeepsEntries (approved : Nat → Prop) (before after : Db) : Prop :=
  ∀ k, approved k → after.entriesOf k = before.entriesOf k

/-- What the requests in flight grant each other. -/
structure Steady (approved : Nat → Prop) (before after : Db) : Prop where
  kept : Db.Kept .all before after
  grows : before.Grows after
  entries : KeepsEntries approved before after

namespace Steady

variable {approved : Nat → Prop} {first second third : Db}

theorem refl (db : Db) : Steady approved db db where
  kept := .refl db
  grows := .refl db
  entries _ _ := rfl

theorem trans (left : Steady approved first second)
    (right : Steady approved second third) : Steady approved first third where
  kept := left.kept.trans right.kept
  grows := left.grows.trans right.grows
  entries k is := (right.entries k is).trans (left.entries k is)

end Steady

/-- A project has an entry under approval. -/
structure Due (approved : Nat → Prop) (projectId : Nat) (db : Db) :
    Prop where
  integrity : db.Integrity
  booked : ∃ k, approved k ∧ ∃ e ∈ db.entriesOf k, e.projectId = projectId

/-- Everything but to book hours is permitted. -/
def Permits.unbooked : Permits :=
  { Permits.all with books := False }

section

variable {lib : Libs} {approved : Nat → Prop} {projectId : Nat}
variable {before after : Db}

theorem Due.stable (s t : Db) (due : Due approved projectId s)
    (led : Steady approved s t) : Due approved projectId t where
  integrity := led.grows.integrity due.integrity
  booked := by
    rcases due.booked with ⟨k, is, e, member, own⟩
    exact ⟨k, is, e, led.entries k is ▸ member, own⟩

/-- The project of an entry under approval exists. -/
theorem project_of_entry {db : Db} (integrity : db.Integrity) {k : Nat}
    {e : TimeEntry} (member : e ∈ db.entriesOf k) :
    db.projects.HasKey e.projectId :=
  integrity.entry_project e (Db.mem_entriesOf.mp member).1

theorem Due.project (due : Due approved projectId before) :
    ∃ p ∈ before.projects.rows, p.id = projectId := by
  rcases due.booked with ⟨k, _, e, member, rfl⟩
  exact project_of_entry due.integrity member

/-- An existing project has the used hours of its row. -/
theorem Db.usedHours_of_mem (db : Db) {p : Project}
    (member : p ∈ db.projects.rows) : db.usedHours p.id = p.usedHours := by
  have found : db.projects.find? (fun q => q.id = p.id) = some p :=
    Table.find?_of_mem member rfl fun _ same => same
  rw [usedHours, found]
  rfl

/-- Statements that may not book leave the hours of a due project alone. -/
theorem Due.quiet (lib : Libs) {γ : Type} {tx : Tx γ}
    (issued : Issued lib .unbooked γ tx) :
    Effects (fun s t => Due approved projectId s → KeepsEntries approved s t →
      Steady approved s t ∧ t.usedHours projectId = s.usedHours projectId)
      tx := by
  intro s a t outcome due stay
  have kept := issued.kept s a t outcome
  have steady : Steady approved s t :=
    ⟨kept.weaken, issued.grows s a t outcome, stay⟩
  refine ⟨steady, ?_⟩
  rcases due.project with ⟨p, pMem, rfl⟩
  rcases (due.stable s t steady).project with ⟨q, qMem, same⟩
  rw [s.usedHours_of_mem pMem, ← same, t.usedHours_of_mem qMem]
  exact (kept.booked id).reads_eq pMem qMem same

theorem due_of_issues (lib : Libs) {α : Type} {program : Service α} {paid : ℚ}
    (issues : program.Issues (Issued lib .unbooked))
    (due : Due approved projectId before) :
    program.Adds (Steady approved) (KeepsEntries approved)
      (Db.usedHours projectId)
      (fun _ now t => now = paid ∧ Due approved projectId t) paid before :=
  issues.adds Steady.refl Due.stable
    (fun _ _ issued => Due.quiet lib issued) due

/-! ## Booking -/

/-- One increment adds the hours of its entry. -/
theorem increment_usedHours {now : Instant} {e : TimeEntry} {done : PUnit}
    (due : Due approved projectId before)
    (stay : KeepsEntries approved before after)
    (outcome : Prisma.projectIncrementUsedHours now e.projectId e.totalHours
      before = .ok (done, after)) :
    Steady approved before after ∧
      after.usedHours projectId = before.usedHours projectId +
        if e.projectId = projectId then e.totalHours else 0 := by
  have steady : Steady approved before after :=
    ⟨Prisma.projectIncrementUsedHours_kept _ _ _ trivial before done after
        outcome,
      Prisma.projectIncrementUsedHours_grows _ _ _ before done after outcome,
      stay⟩
  refine ⟨steady, ?_⟩
  rcases due.project with ⟨p, pMem, rfl⟩
  have written : after.projects = before.projects.modify
      (fun q => q.id = e.projectId) (Prisma.book now e.totalHours) := by
    simp only [Prisma.projectIncrementUsedHours, ensure_eq_ok,
      Except.ok.injEq, Prod.mk.injEq] at outcome
    rcases outcome with ⟨_, _, rfl⟩
    rfl
  have member : (if p.id = e.projectId then Prisma.book now e.totalHours p
      else p) ∈ after.projects.rows := by
    rw [written]
    exact Table.mem_modify.mpr ⟨p, pMem, rfl⟩
  rw [before.usedHours_of_mem pMem]
  by_cases own : p.id = e.projectId
  · rw [if_pos own] at member
    rw [if_pos own.symm]
    exact after.usedHours_of_mem member
  · rw [if_neg own] at member
    rw [if_neg (Ne.symm own), add_zero]
    exact after.usedHours_of_mem member

/-- The loop over entries under approval succeeds and books all of them. -/
theorem forEach_books (host : Host) {entries : List TimeEntry} {k : Nat}
    {paid : ℚ} (is : approved k) (due : Due approved projectId before)
    (members : ∀ e ∈ entries, e ∈ before.entriesOf k) :
    (forEach (bookEntry host) entries).Adds (Steady approved)
      (KeepsEntries approved) (Db.usedHours projectId)
      (fun result now t => result = .ok ⟨⟩ ∧
        now = paid + entryHours projectId entries ∧
          Due approved projectId t) paid before := by
  induction entries generalizing before paid with
  | nil =>
      intro t led
      exact ⟨rfl, (add_zero paid).symm, due.stable _ _ led⟩
  | cons e entries ih =>
      have still {t : Db} (led : Steady approved before t) :
          ∀ f ∈ e :: entries, f ∈ t.entriesOf k := by
        intro f member
        rw [led.entries k is]
        exact members f member
      refine Adds.statement_bind Steady.refl ?_ ?_
      · intro error t u led refused
        have has := project_of_entry (due.stable _ _ led).integrity
          (still led e List.mem_cons_self)
        rw [Prisma.projectIncrementUsedHours, ensure_of has] at refused
        cases refused
      · intro done t u led outcome stay
        have now := due.stable _ _ led
        obtain ⟨steady, added⟩ := increment_usedHours now stay outcome
        refine ⟨steady, _, added, ?_⟩
        rw [entryHours_cons, ← add_assoc]
        exact ih (now.stable _ _ steady) fun f member =>
          still (led.trans steady) f (List.mem_cons_of_mem e member)

/-- The query and the loop over what it finds book the whole timesheet. -/
theorem bookEntries_books (host : Host) (paid : ℚ) {k : Nat} (is : approved k)
    (due : Due approved projectId before) :
    (bookEntries host k).Adds (Steady approved) (KeepsEntries approved)
      (Db.usedHours projectId)
      (fun result now t => result = .ok ⟨⟩ ∧
        now = paid + entryHours projectId (before.entriesOf k) ∧
          Due approved projectId t) paid before := by
  refine Adds.query_bind Steady.refl fun t led => ?_
  rw [led.entries k is]
  refine forEach_books host is (due.stable _ _ led) fun e member => ?_
  rwa [led.entries k is]

/-- The owner of a decided timesheet exists. -/
theorem timesheetUpdate_owner {now : Instant} {k : Nat}
    {data : TimesheetUpdate} {row : Timesheet} (integrity : before.Integrity)
    (outcome : Prisma.timesheetUpdate now k data before = .ok (row, after)) :
    before.users.HasKey row.userId := by
  simp only [Prisma.timesheetUpdate] at outcome
  split at outcome
  · cases outcome
  · rename_i old found
    simp only [ensure_eq_ok, Except.ok.injEq, Prod.mk.injEq] at outcome
    rcases outcome with ⟨_, _, rfl, _⟩
    exact integrity.timesheet_user old (Table.mem_of_find? found)

theorem Db.Kept.hasUser {may : Permits} (kept : Db.Kept may before after)
    {userId : Nat} (has : before.users.HasKey userId) :
    after.users.HasKey userId := by
  rcases has with ⟨u, member, rfl⟩
  rcases kept.users.exists_of_mem member with ⟨new, newMem, same⟩
  exact ⟨new, newMem, congrArg Prod.fst same⟩

/-- What an approval with this answer books. -/
def booking (hours : ℚ) (result : Except Thrown Timesheet) : ℚ :=
  match result with
  | .ok _ => hours
  | .error _ => 0

/-- An approval adds its hours when it succeeds, and nothing otherwise. -/
theorem approveTimesheet_books (lib : Libs) {host : Host} {db : Db}
    (caller : JwtPayload) {k : Nat} (is : approved k)
    (due : Due approved projectId db) :
    (approveTimesheet host k caller.userId caller.orgId caller.role).Adds
      (Steady approved) (KeepsEntries approved) (Db.usedHours projectId)
      (fun result paid _ => paid =
        booking (entryHours projectId (db.entriesOf k)) result) 0 db := by
  have trans (s t u : Db) : Steady approved s t → Steady approved t u →
      Steady approved s u := .trans
  have guards := decidableTimesheet_adds (KeepsEntries approved)
    (Db.usedHours projectId)
    Steady.refl (fun s t (led : Steady approved s t) => led.kept) db k
    caller.userId caller.orgId caller.role
    "Managers cannot approve their own timesheets" .approved
  rw [approveTimesheet_shape]
  refine Adds.bind Steady.refl (guards.since Steady.refl trans) ?_ ?_
  · rintro e paid t ⟨⟨rfl, _⟩, _⟩
    rfl
  rintro ts paid t ⟨⟨rfl, found⟩, led⟩
  obtain ⟨key, shown⟩ := found ts rfl
  refine Adds.statement_bind Steady.refl (fun _ _ _ _ _ _ => rfl)
    fun row u v more outcome stay => ?_
  have dueU := due.stable _ _ (led.trans more)
  have same := timesheetUpdate_shown outcome key (more.kept.shown shown)
  have owner := timesheetUpdate_owner dueU.integrity outcome
  obtain ⟨steady, still⟩ := Due.quiet lib
    (.updateTimesheet _ _ _ fun _ _ => trivial) u row v outcome dueU stay
  have entries := ((led.trans more).trans steady).entries k is
  refine ⟨steady, 0, by rw [still, add_zero], ?_⟩
  rw [add_zero]
  have loop := bookEntries_books host 0 is (dueU.stable _ _ steady)
  rw [entries] at loop
  refine Adds.bind Steady.refl (loop.since Steady.refl trans) ?_ ?_
  · rintro e paid w ⟨⟨absurd, _⟩, _⟩
    cases absurd
  rintro _ paid w ⟨⟨_, rfl, dueW⟩, ledW⟩
  refine Adds.statement_bind Steady.refl ?_ fun n x y ledX outcome stay => ?_
  · intro e x y ledX refused _
    have user : x.users.HasKey ts.userId := by
      have now := ((steady.trans ledW).trans ledX).kept.hasUser owner
      rwa [show row.userId = ts.userId from congrArg (fun r => r.2.2) same]
        at now
    exact (Prisma.notificationCreate_error refused user
      (varchar_approvedMessage ts)).elim
  · obtain ⟨steady, still⟩ := Due.quiet lib
      (.createNotification _ _ trivial) x n y outcome
      (dueW.stable _ _ ledX) stay
    refine ⟨steady, 0, by rw [still, add_zero], fun _ _ => ?_⟩
    rw [zero_add, add_zero]
    rfl

end

/-! ## Requests -/

/-- The timesheet a request approves. -/
def Request.approves : Request → Option Nat
  | .authenticated _ _ (.approveTimesheet id) => some id
  | _ => none

/-- Some request in flight approves the timesheet. -/
def UnderApproval {ι : Type} (requests : ι → Request) (k : Nat) : Prop :=
  ∃ i, (requests i).approves = some k

/-- What a request books on a project, told by what it has answered. -/
def Request.books (request : Request) (projectId : Nat) (db : Db)
    (thread : Service Response) : ℚ :=
  match request.approves, thread with
  | some k, .done (.ok _) => entryHours projectId (db.entriesOf k)
  | _, _ => 0

theorem Request.program_books (lib : Libs) {approved : Nat → Prop}
    {projectId : Nat} {db : Db} (request : Request)
    (is : ∀ k, request.approves = some k → approved k)
    (due : Due approved projectId db) :
    (request.program lib).Adds (Steady approved) (KeepsEntries approved)
      (Db.usedHours projectId)
      (fun result paid _ =>
        paid = request.books projectId db (.done result)) 0 db := by
  have quiet (never : request.approves = none)
      (issues : (request.program lib).Issues (Issued lib .unbooked)) :
      (request.program lib).Adds (Steady approved) (KeepsEntries approved)
        (Db.usedHours projectId)
        (fun result paid _ =>
          paid = request.books projectId db (.done result)) 0 db := by
    refine (due_of_issues lib issues due).mono ?_
    rintro result paid t ⟨rfl, _⟩
    simp [books, never]
  cases request with
  | anonymous host call => exact quiet rfl (handlePublic_issues call)
  | authenticated host caller call =>
      have issues := @handle_issues lib .unbooked host caller call
      cases call with
      | approveTimesheet k =>
          refine Adds.throwIf_bind (fun _ _ => rfl) fun _ => ?_
          refine Adds.bind Steady.refl
            (approveTimesheet_books lib caller (is k rfl) due)
            (fun _ _ _ ended => ended) ?_
          rintro row paid t rfl u _
          rfl
      | _ =>
          refine quiet rfl (issues ?_)
          simp [Call.Needs, Permits.unbooked, Permits.all]

/-- Throughout a schedule the timesheets under approval keep their entries. -/
def EntriesStay {ι : Type} [DecidableEq ι] (lib : Libs)
    (requests : ι → Request) (db : Db) (schedule : List ι) : Prop :=
  ∀ pre now, pre <+: schedule →
    (inFlight lib requests db).run pre = some now →
      KeepsEntries (UnderApproval requests) db now.state

theorem EntriesStay.admitted {ι : Type} [DecidableEq ι] {lib : Libs}
    {requests : ι → Request} {db : Db} {schedule : List ι}
    (stay : EntriesStay lib requests db schedule) :
    (inFlight lib requests db).Admitted
      (KeepsEntries (UnderApproval requests)) schedule := by
  intro pre i before after initial ran step k is
  have again : (inFlight lib requests db).run (pre ++ [i]) = some after :=
    Pool.run_append.mpr ⟨before, ran, Pool.run_cons.mpr ⟨after, step, rfl⟩⟩
  rw [stay _ after initial again k is]
  exact (stay pre before ((List.prefix_append _ _).trans initial) ran k
    is).symm

/--
When all requests in flight are answered, a project has gained the hours of
every successful approval, each with all entries of its timesheet, and no
others.
-/
theorem bookings_exact {ι : Type} [DecidableEq ι] [Fintype ι] {lib : Libs}
    {requests : ι → Request} {db : Db} {schedule : List ι}
    {after : Pool Db Thrown Response ι} {projectId : Nat}
    (start : db.Integrity) (stay : EntriesStay lib requests db schedule)
    (due : ∃ k, UnderApproval requests k ∧
      ∃ e ∈ db.entriesOf k, e.projectId = projectId)
    (ran : (inFlight lib requests db).run schedule = some after)
    (finished : after.Finished) :
    after.state.usedHours projectId = db.usedHours projectId +
      ∑ i, (requests i).books projectId db (after.threads i) := by
  have owed : Due (UnderApproval requests) projectId db := ⟨start, due⟩
  rcases Pool.run_adds Steady.refl (fun _ _ _ => .trans) ran stay.admitted
    fun i => (requests i).program_books lib (fun k same => ⟨i, same⟩) owed
    with ⟨paid, sum, threads⟩
  have told : ∀ i,
      paid i = (requests i).books projectId db (after.threads i) := by
    intro i
    rcases finished i with ⟨result, ended⟩
    rw [ended]
    exact Pool.adds_finished Steady.refl (threads i) ended
  rw [sum]
  exact congrArg _ (Finset.sum_congr rfl fun i _ => told i)

/-! ## Two approvals, a copy and a refused edit at the same time -/

/-- A second manager of `officeRun`. -/
def bob : JwtPayload := ⟨3, 1, .manager⟩

/-- Eight hours of Eve and five of Bob, submitted. -/
def pairedDb : Db :=
  (World.empty.run plainLibs
    (officeRun ++ [.authenticated plainHost eve (.submitTimesheet 1),
      .addUser ada "bob@acme" .manager, .login "bob@acme",
      .authenticated plainHost bob (.createTimesheet ⟨january 1⟩),
      .authenticated plainHost bob (.createEntry 2 (mondayEntry 1 5)),
      .authenticated plainHost bob (.submitTimesheet 2)])).db

/--
Ada approves both while Eve copies her week to the next one and Bob tries to
delete his entry.
-/
def approvalRequests : Fin 4 → Request
  | 0 => .authenticated plainHost ada (.approveTimesheet 1)
  | 1 => .authenticated plainHost ada (.approveTimesheet 2)
  | 2 => .authenticated plainHost eve
      (.copyPreviousWeek (january 8).toDate true)
  | 3 => .authenticated plainHost bob (.deleteEntry 2 2)

/-- The statements of the approvals take turns. -/
def approvalSchedule : List (Fin 4) :=
  [0, 1, 0, 2, 1, 2, 0, 2, 1, 3, 0, 1, 2, 0, 1]

theorem approvals_end :
    ∃ last, (inFlight plainLibs approvalRequests pairedDb).run
      approvalSchedule = some last ∧ last.Finished ∧
        (last.threads 2).succeeded ∧ last.state.usedHours 1 = 13 := by
  have ended : ∃ last, (inFlight plainLibs approvalRequests pairedDb).run
      approvalSchedule = some last ∧
        (∀ i, ((last.threads i).result?).isSome) ∧
          (last.threads 2).succeeded ∧ last.state.usedHours 1 = 13 :=
    Pool.exists_of_any (by decide +kernel)
  rcases ended with ⟨last, ran, answered, hours⟩
  exact ⟨last, ran, finished_of_answers answered, hours⟩

theorem approvals_entriesStay :
    EntriesStay plainLibs approvalRequests pairedDb approvalSchedule := by
  have named : ∀ i, (approvalRequests i).approves.all fun k =>
      decide (k ∈ [1, 2]) := by
    decide
  intro pre now initial ran
  have stay : ∀ k ∈ [1, 2],
      now.state.entriesOf k = pairedDb.entriesOf k :=
    Pool.forall_prefix_of_all (p := fun _ now => ∀ k ∈ [1, 2],
      now.state.entriesOf k = pairedDb.entriesOf k) (by decide +kernel)
      initial ran
  rintro k ⟨i, same⟩
  have one := named i
  rw [same, Option.all_some, decide_eq_true_eq] at one
  exact stay k one

/-- Neither approval loses the increment of the other. -/
theorem bookings_exact_two :
    ∃ last, (inFlight plainLibs approvalRequests pairedDb).run
      approvalSchedule = some last ∧
        last.state.usedHours 1 = pairedDb.usedHours 1 + ∑ i,
          (approvalRequests i).books 1 pairedDb (last.threads i) := by
  have integrity : pairedDb.Integrity :=
    (World.sound_run plainLibs _).integrity
  have booked : ∃ e ∈ pairedDb.entriesOf 1, e.projectId = 1 := by
    decide +kernel
  rcases approvals_end with ⟨last, ran, finished, _⟩
  exact ⟨last, ran, bookings_exact integrity approvals_entriesStay
    ⟨1, ⟨0, rfl⟩, booked⟩ ran finished⟩

end TmsApi
