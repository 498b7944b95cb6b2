import TmsApi.Concurrency.Pools
import TmsApi.Refinement.Lineage

/-!
# What holds under every interleaving

Any number of requests of any kind in flight at the same time, with one
awaited statement as one step.  Rows keep saying whose they are.  An approver
is never the owner of the timesheet and belongs to its organisation, although
the checks of an approval and its update are separate statements.  Every
organisation has its settings and a member at every moment, and of the
requests that would give an address to a new user at most one succeeds.
-/

namespace TmsApi

open TmsApi.Core
open TmsApi.Core.Program

/-! ## Invariants and a busy moment to evaluate them on -/

/-- An approver is another member of the timesheet's organisation. -/
def Db.FourEyes (db : Db) : Prop :=
  ∀ t ∈ db.timesheets.rows, ∀ u ∈ t.approvedById,
    u ≠ t.userId ∧ db.Member u t.organisationId

instance (db : Db) : Decidable db.FourEyes :=
  inferInstanceAs (Decidable (∀ t ∈ db.timesheets.rows, _))

/-- Two registrations with one address, beside an approval by Ada. -/
def busyRequests : Option Bool → Request
  | some true => .register "bolt" "bob@bolt"
  | some false => .register "cord" "bob@bolt"
  | none => .authenticated plainHost ada (.approveTimesheet 1)

/-- Both registrations look for the address before either takes it. -/
def busySchedule : List (Option Bool) :=
  [some true, some false, none, some true, some false, none, some true, none,
    none, none]

theorem busy_ends :
    ∃ last, (inFlight plainLibs busyRequests submittedDb).run busySchedule =
      some last ∧ (last.threads (some true)).succeeded ∧ last.state.Member 3 2 ∧
        (∃ t ∈ last.state.timesheets.rows, t.approvedById = some 1) ∧
          last.Finished := by
  have ended : ∃ last,
      (inFlight plainLibs busyRequests submittedDb).run busySchedule =
        some last ∧ (last.threads (some true)).succeeded ∧
          last.state.Member 3 2 ∧
            (∃ t ∈ last.state.timesheets.rows, t.approvedById = some 1) ∧
              ∀ i, ((last.threads i).result?).isSome :=
    Pool.exists_of_any (by decide +kernel)
  rcases ended with ⟨last, ran, succeeded, member, approved, answered⟩
  exact ⟨last, ran, succeeded, member, approved, finished_of_answers answered⟩

theorem submittedDb_good : submittedDb.Founded ∧ submittedDb.FourEyes ∧
    submittedDb.Member 1 1 := by
  unfold Db.Founded
  decide +kernel

section

variable {ι : Type} [DecidableEq ι] {lib : Libs} {requests : ι → Request}
variable {db : Db} {schedule : List ι} {after : Pool Db Thrown Response ι}

/-! ## Rows keep their owners -/

/--
A row under an old key still belongs to whom it did, no key is given out
again, and users and notifications are never lost.
-/
theorem owners_survive
    (ran : (inFlight lib requests db).run schedule = some after) :
    db.Kept .all after.state :=
  inFlight_kept ran

theorem owners_survive_busy :
    ∃ last, (inFlight plainLibs busyRequests submittedDb).run busySchedule =
      some last ∧ submittedDb.Kept .all last.state := by
  rcases busy_ends with ⟨last, ran, _⟩
  exact ⟨last, ran, owners_survive ran⟩

/-! ## Nobody approves an own timesheet -/

/-- Only the approvers a step writes have to be looked at. -/
theorem Db.Kept.fourEyes {may : Permits} {before after : Db}
    (kept : Kept may before after) (holds : before.FourEyes)
    (permitted : ∀ t ∈ after.timesheets.rows, ∀ u, may.decides u t.id →
      u ≠ t.userId ∧ after.Member u t.organisationId) : after.FourEyes := by
  intro t member u approver
  rcases kept.approvers t member u approver with
    now | ⟨old, oldMem, same, before⟩
  · exact permitted t member u now
  · obtain ⟨apart, colleague⟩ := holds old oldMem u before
    have reads := kept.timesheets.reads_eq oldMem member same.symm
    have owner : t.userId = old.userId := congrArg (fun r => r.2.2) reads
    have org : t.organisationId = old.organisationId :=
      congrArg (fun r => r.2.1) reads
    rw [owner, org]
    exact ⟨apart, kept.member colleague⟩

/-- What a request may rely on, and owes the others. -/
def Colleagues (before after : Db) : Prop :=
  Db.Kept .all before after ∧
    (before.FourEyes → after.FourEyes)

theorem Colleagues.refl (db : Db) : Colleagues db db :=
  ⟨.refl db, id⟩

theorem Colleagues.trans (first second third : Db)
    (left : Colleagues first second) (right : Colleagues second third) :
    Colleagues first third :=
  ⟨left.1.trans right.1, right.2 ∘ left.2⟩

/-- Everything but to write an approver is permitted. -/
def Permits.undecided : Permits :=
  { Permits.all with decides := fun _ _ => False }

theorem Call.needs_undecided (caller : JwtPayload) {call : Call}
    (never : ¬ ∃ id, call = .approveTimesheet id) :
    call.Needs caller .undecided := by
  cases call with
  | approveTimesheet id => exact (never ⟨id, rfl⟩).elim
  | _ => simp [Needs, Permits.undecided, Permits.all]

/-- A program that never writes an approver. -/
theorem colleagues_of_issues {α : Type} {program : Service α}
    (issues : program.Issues (Issued lib .undecided)) :
    program.Safe (fun _ => True) Colleagues := by
  refine issues.safe Colleagues.refl fun γ tx issued s a s' outcome => ?_
  have kept := issued.kept s a s' outcome
  exact ⟨kept.weaken, fun holds =>
    kept.fourEyes holds fun _ _ _ never => never.elim⟩

/-- The timesheet was found in the caller's organisation, and not its own. -/
def Foreign (caller : JwtPayload) (id : Nat) (db : Db) : Prop :=
  db.Member caller.userId caller.orgId ∧ id < db.timesheets.next ∧
    ∀ t ∈ db.timesheets.rows, t.id = id →
      caller.userId ≠ t.userId ∧ t.organisationId = caller.orgId

theorem Foreign.kept {caller : JwtPayload} {id : Nat} {before after : Db}
    {may : Permits} (foreign : Foreign caller id before)
    (kept : Db.Kept may before after) : Foreign caller id after := by
  obtain ⟨member, old, apart⟩ := foreign
  refine ⟨kept.member member, lt_of_lt_of_le old kept.timesheets.next_le,
    fun t tMem same => ?_⟩
  rcases kept.timesheets.origin t tMem (same.trans_lt old) with
    ⟨first, firstMem, key, reads⟩
  have owner : first.userId = t.userId := congrArg (fun r => r.2.2) reads
  have org : first.organisationId = t.organisationId :=
    congrArg (fun r => r.2.1) reads
  rw [← owner, ← org]
  exact apart first firstMem (key.trans same)

theorem Foreign.stable {caller : JwtPayload} {id : Nat} (before after : Db)
    (foreign : Foreign caller id before)
    (led : Colleagues before after) : Foreign caller id after :=
  foreign.kept led.1

/-- The guards of a decision only let a foreign timesheet through. -/
theorem decidableTimesheet_among (lib : Libs) (caller : JwtPayload)
    (id : Nat) (selfMessage : String) (target : TimesheetStatus)
    (member : db.Member caller.userId caller.orgId) :
    (decidableTimesheet id caller.userId caller.orgId caller.role selfMessage
      target).Among Colleagues
        (fun result t => ∀ a, result = .ok a → Foreign caller id t) db := by
  refine Among.query_bind Colleagues.refl fun t led => ?_
  refine Among.orThrow_bind (fun _ _ _ absurd => by cases absurd)
    fun timesheet found => ?_
  refine Among.throwIf_bind (fun _ _ _ absurd => by cases absurd)
    fun apart => ?_
  have spec := Table.find?_spec found
  have foreign : Foreign caller id t := by
    refine ⟨led.1.member member, spec.2.1 ▸ t.timesheets.keys_below _ spec.1,
      fun other otherMem same => ?_⟩
    rw [t.timesheets.eq_of_key otherMem spec.1 (same.trans spec.2.1.symm)]
    exact ⟨Ne.symm apart, spec.2.2⟩
  have rest : (whenever (caller.role = .manager)
      (assertIsDirectReport caller.userId timesheet.userId caller.orgId) >>=
        fun _ => throwIf (timesheet.status ≠ .submitted)
          (.invalidTransitionError timesheet.status target) >>= fun _ =>
            (pure timesheet : Service Timesheet)).Issues
      (Issued lib .undecided) :=
    .bind (.whenever issues_check) fun _ =>
      .bind (issues_throwIf _ _) fun _ => issues_done _
  exact ((colleagues_of_issues rest).among Colleagues.trans Foreign.stable
    foreign).mono fun _ _ foreign _ _ => foreign

/-- The update of an approval comes after checks that still hold. -/
theorem approveTimesheet_among (lib : Libs) (host : Host)
    (caller : JwtPayload) (id : Nat)
    (member : db.Member caller.userId caller.orgId) :
    (approveTimesheet host id caller.userId caller.orgId caller.role).Among
      Colleagues (fun _ _ => True) db := by
  refine Among.bind Colleagues.refl
    (decidableTimesheet_among lib caller id _ _ member)
    (fun _ _ _ => trivial) fun timesheet s checked => ?_
  have foreign := checked timesheet rfl
  refine Among.statement_bind Colleagues.refl (fun _ _ _ _ => trivial)
    (fun _ _ _ _ _ => trivial) fun approved t u led written => ?_
  let own : Permits :=
    { Permits.all with decides := fun v k => v = caller.userId ∧ k = id }
  have kept : Db.Kept own t u := by
    refine Prisma.timesheetUpdate_kept _ _ _ (fun v writes => ?_) t approved u
      written
    cases writes
    exact ⟨rfl, rfl⟩
  have now := (foreign.kept led.1).kept kept
  refine ⟨⟨kept.weaken, fun holds => kept.fourEyes holds ?_⟩, ?_⟩
  · rintro row rowMem v ⟨rfl, same⟩
    obtain ⟨apart, org⟩ := now.2.2 row rowMem same
    exact ⟨apart, org ▸ now.1⟩
  · have rest : (query (fun db : Db => db.entriesOf id) >>= fun entries =>
        forEach (bookEntry host) entries >>= fun _ =>
          statement (Prisma.notificationCreate host.now
            { userId := timesheet.userId
              type := .approved
              message := approvedMessage timesheet }) >>= fun _ =>
            (pure approved : Service Timesheet)).Issues
        (Issued lib .undecided) := by
      refine .bind (issues_query _) fun entries => ?_
      refine .bind (.forEach (fun _ => issues_statement ?_) _) fun _ => ?_
      · exact .incrementUsedHours _ _ _ trivial
      · exact issues_respond
          (issues_statement (.createNotification _ _ trivial))
    exact (colleagues_of_issues rest).among Colleagues.trans
      (fun _ _ _ _ => trivial) trivial

theorem Request.program_colleagues (request : Request)
    (members : ∀ host caller call,
      request = .authenticated host caller call →
        db.Member caller.userId caller.orgId) :
    (request.program lib).Among Colleagues (fun _ _ => True) db := by
  have plain {program : Service Response}
      (issues : program.Issues (Issued lib .undecided)) :
      program.Among Colleagues (fun _ _ => True) db :=
    (colleagues_of_issues issues).among Colleagues.trans
      (fun _ _ _ _ => trivial) trivial
  cases request with
  | anonymous host call => exact plain (handlePublic_issues call)
  | authenticated host caller call =>
      by_cases approves : ∃ id, call = .approveTimesheet id
      · rcases approves with ⟨id, rfl⟩
        have member := members host caller _ rfl
        refine Among.throwIf_bind (fun _ _ => trivial) fun _ => ?_
        exact Among.bind Colleagues.refl
          (approveTimesheet_among lib host caller id member)
          (fun _ _ _ => trivial) fun _ _ _ _ _ => trivial
      · exact plain
          (handle_issues caller call (call.needs_undecided caller approves))

/-- No interleaving of any requests of members lets anyone approve alone. -/
theorem approvals_need_two (start : db.FourEyes)
    (members : ∀ i host caller call,
      requests i = .authenticated host caller call →
        db.Member caller.userId caller.orgId)
    (ran : (inFlight lib requests db).run schedule = some after) :
    after.state.FourEyes :=
  (Pool.run_among Colleagues.refl Colleagues.trans ran
    fun i => (requests i).program_colleagues (members i)).1.2 start

/-- Ada's approval is recorded, and Ada is not the owner. -/
theorem approvals_need_two_busy :
    ∃ last, (inFlight plainLibs busyRequests submittedDb).run busySchedule =
      some last ∧ last.state.FourEyes ∧
        ∃ t ∈ last.state.timesheets.rows, t.approvedById = some 1 := by
  rcases busy_ends with ⟨last, ran, _, _, approved, _⟩
  refine ⟨last, ran, approvals_need_two submittedDb_good.2.1 ?_ ran, approved⟩
  intro i host caller call same
  cases i with
  | none =>
      cases same
      exact submittedDb_good.2.2
  | some first => cases first <;> cases same

/-! ## Organisations are founded as a whole -/

/-- The foreign keys hold at every moment as well. -/
theorem inFlight_integrity (start : db.Integrity)
    (ran : (inFlight lib requests db).run schedule = some after) :
    after.state.Integrity := by
  have safe : ∀ i, ((requests i).program lib).Safe (fun _ => True)
      Db.Grows := by
    intro i
    cases requests i with
    | anonymous host call => exact handlePublic_keeps lib host call
    | authenticated host caller call => exact handle_keeps lib host caller call
  have among := Pool.run_among Db.Grows.refl (fun _ _ _ => .trans) ran
    fun i => (safe i).among (fun _ _ _ => .trans)
      (fun _ _ (_ : True) _ => trivial) trivial
  exact among.1.integrity start

/-- A member's organisation has settings, in all states of all schedules. -/
theorem settingsOf_member {userId orgId : Nat} (start : db.Integrity)
    (founded : db.Founded)
    (ran : (inFlight lib requests db).run schedule = some after)
    (member : after.state.Member userId orgId) :
    ∃ s, after.state.settingsOf orgId = some s := by
  rcases member with ⟨u, uMem, _, rfl⟩
  rcases (inFlight_integrity start ran).user_org u uMem with ⟨o, oMem, same⟩
  rcases ((inFlight_kept ran).founded founded o oMem).1 with ⟨s, sMem, sOrg⟩
  cases found : after.state.settingsOf u.organisationId with
  | none =>
      exact (Table.find?_eq_none.mp found s sMem (sOrg.trans same)).elim
  | some s => exact ⟨s, rfl⟩

/-- No member ever meets an organisation half made. -/
theorem getSettings_answers {userId orgId : Nat} (start : db.Integrity)
    (founded : db.Founded)
    (ran : (inFlight lib requests db).run schedule = some after)
    (member : after.state.Member userId orgId) :
    ∃ s, s.organisationId = orgId ∧
      (getSettings orgId).exec after.state = (.ok s, after.state) := by
  obtain ⟨s, found⟩ := settingsOf_member start founded ran member
  have listed : after.state.orgSettings.find?
      (fun s => s.organisationId = orgId) = some s := found
  refine ⟨s, (Table.find?_spec listed).2, ?_⟩
  change ((orThrow (after.state.settingsOf orgId) _ : Service OrgSettings).exec
    after.state) = _
  rw [found]
  rfl

/-- The organisation registered at the busy moment. -/
theorem getSettings_answers_busy :
    ∃ last, (inFlight plainLibs busyRequests submittedDb).run busySchedule =
      some last ∧ ∃ s, s.organisationId = 2 ∧
        (getSettings 2).exec last.state = (.ok s, last.state) := by
  rcases busy_ends with ⟨last, ran, _, member, _⟩
  exact ⟨last, ran,
    getSettings_answers submittedDb_integrity submittedDb_good.1 ran member⟩

/-! ## An address is given once -/

/-- The address a request would give to a new user, as it is compared. -/
def Request.claims (lib : Libs) : Request → Option String
  | .anonymous _ (.register dto) => some (lib.collate dto.email)
  | .authenticated _ _ (.createUser dto) => some (lib.collate dto.email)
  | _ => none

/-- Some user has the address. -/
def Db.Taken (lib : Libs) (address : String) (db : Db) : Prop :=
  ∃ u ∈ db.users.rows, lib.collate u.email = address

theorem Db.Kept.taken {may : Permits} {before after : Db}
    (kept : Kept may before after) {address : String}
    (taken : before.Taken lib address) : after.Taken lib address := by
  rcases taken with ⟨u, uMem, rfl⟩
  rcases kept.users.exists_of_mem uMem with ⟨new, newMem, same⟩
  have email : new.email = u.email := congrArg (fun reads => reads.2.2.1) same
  exact ⟨new, newMem, by rw [email]⟩

/-- The insertion of a user is what gives the address away. -/
theorem userCreate_takes {now : Instant} {data : UserData} {user : User}
    {before after : Db}
    (outcome : Prisma.userCreate lib.collate now data before =
      .ok (user, after)) :
    ¬ before.Taken lib (lib.collate data.email) ∧
      after.Taken lib (lib.collate data.email) := by
  simp only [Prisma.userCreate, ensure_eq_ok, Except.ok.injEq, Prod.mk.injEq]
    at outcome
  rcases outcome with ⟨_, free, _, rfl, rfl⟩
  constructor
  · rintro ⟨u, uMem, same⟩
    exact free u uMem same
  · exact ⟨_, Table.mem_insert.mpr (.inr rfl), rfl⟩

theorem createOrganisation_takes {host : Host} {dto : RegisterDto}
    {hash : String} {user : User} {before after : Db}
    (outcome : createOrganisation lib host dto hash before =
      .ok (user, after)) :
    ¬ before.Taken lib (lib.collate dto.email) ∧
      after.Taken lib (lib.collate dto.email) := by
  unfold createOrganisation at outcome
  rcases bind_eq_ok.mp outcome with ⟨org, second, created, outcome⟩
  rcases bind_eq_ok.mp outcome with ⟨settings, third, defaults, member⟩
  simp only [Prisma.organisationCreate, ensure_eq_ok, Except.ok.injEq,
    Prod.mk.injEq] at created
  rcases created with ⟨_, rfl, rfl⟩
  simp only [Prisma.orgSettingsCreate, ensure_eq_ok, Except.ok.injEq,
    Prod.mk.injEq] at defaults
  rcases defaults with ⟨_, _, rfl, rfl⟩
  exact userCreate_takes member

theorem Request.program_pending (request : Request) {address : String}
    (claims : request.claims lib = some address) :
    (request.program lib).Pending (Db.Taken lib address) := by
  cases request with
  | anonymous host call =>
      cases call with
      | register dto =>
          cases claims
          refine Pending.throwIf_bind (Pending.bind ?_)
          refine Pending.query_bind fun existing => Pending.throwIf_bind ?_
          exact Pending.bind
            (pending_statement fun _ _ _ => createOrganisation_takes)
      | login dto => cases claims
      | refresh token => cases claims
  | authenticated host caller call =>
      cases call <;> cases claims
      refine Pending.throwIf_bind (Pending.throwIf_bind (Pending.bind ?_))
      refine Pending.throwIf_bind (Pending.query_bind fun existing => ?_)
      refine Pending.throwIf_bind (Pending.bind ?_)
      exact pending_statement fun _ _ _ => userCreate_takes

/--
Of all registrations and new users that compete for an address, in whatever
order their statements run, at most one succeeds, and only where it was free.
-/
theorem address_given_once {address : String} {i : ι} {response : Response}
    (claims : (requests i).claims lib = some address)
    (ran : (inFlight lib requests db).run schedule = some after)
    (succeeded : after.threads i = .done (.ok response)) :
    ¬ db.Taken lib address ∧ after.state.Taken lib address ∧
      ∀ j other, (requests j).claims lib = some address →
        after.threads j = .done (.ok other) → j = i := by
  have stable : ∀ i, ((requests i).program lib).Safe (fun _ => True)
      fun s s' => Db.Taken lib address s → Db.Taken lib address s' :=
    fun i => ((requests i).program_kept lib).mono
      fun _ _ _ kept taken => kept.taken taken
  exact Pool.run_pending stable
    (fun j is => (requests j).program_pending is) ran claims succeeded

/-- The first registration succeeds, so the second one cannot. -/
theorem address_given_once_busy :
    ∃ last, (inFlight plainLibs busyRequests submittedDb).run busySchedule =
      some last ∧ ∀ other, last.threads (some false) ≠ .done (.ok other) := by
  rcases busy_ends with ⟨last, ran, succeeded, _⟩
  rcases succeeded_iff.mp succeeded with ⟨response, finished⟩
  refine ⟨last, ran, fun other also => ?_⟩
  have first : (busyRequests (some true)).claims plainLibs =
      some "bob@bolt" := rfl
  have once := address_given_once first ran finished
  cases once.2.2 (some false) other rfl also

end

end TmsApi
