import TmsApi.Refinement.Faults
import TmsApi.Properties.Hierarchy

/-!
# The queue of approvals

The pages of `listPendingApprovals` together are the submitted timesheets of
the caller's team, which is also what `getApprovalStats` counts.  For a
MANAGER these are exactly the timesheets an approval or a rejection lets pass.
An ADMIN sees the whole organisation and so also its own submitted timesheets,
which nobody may decide for themselves; they are the only difference.
-/

namespace TmsApi

open TmsApi.Core
open TmsApi.Core.Program

/-- No check throws; a fault of the driver is not a check. -/
def ChecksPass {α : Type} (program : Service α) (db : Db) : Prop :=
  wp program (fun answer _ => ∀ e, answer = .error e →
    ∃ fault, e = .driver fault) db

namespace Db

/-- The team filter of a caller. -/
def teamFilter (db : Db) (caller : JwtPayload) : Option (List Nat) :=
  if caller.role = .admin then none
  else some (db.directReportIds caller.userId caller.orgId)

/-- The timesheet of this key waits in the queue of the caller. -/
def Pending (db : Db) (caller : JwtPayload) (id : Nat) : Prop :=
  ∃ t ∈ db.pendingRows caller.orgId (db.teamFilter caller), t.id = id

instance (db : Db) (caller : JwtPayload) (id : Nat) :
    Decidable (db.Pending caller id) :=
  inferInstanceAs (Decidable (∃ t ∈ db.pendingRows _ _, _))

/-- The timesheet of this key is the caller's own. -/
def OwnSheet (db : Db) (caller : JwtPayload) (id : Nat) : Prop :=
  ∃ t ∈ db.timesheets.rows, t.id = id ∧ t.userId = caller.userId

instance (db : Db) (caller : JwtPayload) (id : Nat) :
    Decidable (db.OwnSheet caller id) :=
  inferInstanceAs (Decidable (∃ t ∈ db.timesheets.rows, _))

end Db

/-- The timesheet of this key is on some page of the given length. -/
def Listed (caller : JwtPayload) (limit : Int) (db : Db) (id : Nat) : Prop :=
  ∃ page : Int, 1 ≤ page ∧
    wp (listPendingApprovals caller.orgId caller.userId caller.role page limit)
      (fun answer _ => ∃ result, answer = .ok result ∧
        ∃ t ∈ result.data, t.id = id) db

section

variable {host : Host} {caller : JwtPayload} {db : Db} {id : Nat}

/-! ## The pages -/

theorem wp_buildTeamFilter
    {post : Except Thrown (Option (List Nat)) → Db → Prop} :
    wp (buildTeamFilter caller.userId caller.role caller.orgId) post db ↔
      post (.ok (db.teamFilter caller)) db := by
  unfold buildTeamFilter Db.teamFilter
  split
  · exact Iff.rfl
  · simp [getDirectReportIds]

/-- An element of a list is on the page of its index. -/
theorem mem_page {Row : Type} {row : Row} {rows : List Row} {n : Nat}
    (positive : 0 < n) (member : row ∈ rows) :
    ∃ k, row ∈ (rows.drop (k * n)).take n := by
  rcases List.getElem_of_mem member with ⟨i, bound, rfl⟩
  have start : i / n * n + i % n = i := Nat.div_add_mod' i n
  have offset := Nat.mod_lt i positive
  refine ⟨i / n, List.mem_iff_getElem.mpr ⟨i % n, ?_, ?_⟩⟩
  · rw [List.length_take, List.length_drop]
    omega
  · simp only [List.getElem_take, List.getElem_drop, start]

/-- Every row is on some page, and nothing else is. -/
theorem Prisma.mem_paginate {Row : Type} {row : Row} {rows : List Row}
    {limit : Int} (positive : 1 ≤ limit) :
    (∃ page : Int, 1 ≤ page ∧ ∃ data,
        Prisma.paginate ((page - 1) * limit) limit rows = .ok data ∧
          row ∈ data) ↔
      row ∈ rows := by
  have paged (skip : Int) (start : 0 ≤ skip) :
      Prisma.paginate skip limit rows =
        .ok ((rows.drop skip.toNat).take limit.toNat) := by
    rw [Prisma.paginate, if_neg (by omega), if_pos (by omega)]
  constructor
  · rintro ⟨page, first, data, answered, member⟩
    rw [paged _ (mul_nonneg (by omega) (by omega))] at answered
    cases answered
    exact List.mem_of_mem_drop (List.mem_of_mem_take member)
  · intro member
    obtain ⟨n, rfl⟩ := Int.eq_ofNat_of_zero_le (by omega : 0 ≤ limit)
    rcases mem_page (by omega : 0 < n) member with ⟨k, onPage⟩
    have skip : ((k : Int) + 1 - 1) * n = ((k * n : Nat) : Int) := by
      push_cast
      ring
    refine ⟨k + 1, by omega, _, ?_, onPage⟩
    rw [skip, paged _ (Int.natCast_nonneg _)]
    rfl

/-- One page of the sorted queue. -/
theorem wp_listPendingApprovals {page limit : Int}
    {post : Except Thrown PendingPage → Db → Prop} :
    wp (listPendingApprovals caller.orgId caller.userId caller.role page limit)
        post db ↔
      ∀ answer, Prisma.paginate ((page - 1) * limit) limit
          ((db.pendingRows caller.orgId (db.teamFilter caller)).insertionSort
            fun a b => a.updatedAt ≤ b.updatedAt) = answer →
        post (answer.map fun data =>
          ⟨data, (db.pendingRows caller.orgId (db.teamFilter caller)).length,
            page, limit⟩) db := by
  simp only [listPendingApprovals, wp_bind, wp_buildTeamFilter, andThen_ok,
    forall_eq']
  cases outcome : Prisma.paginate ((page - 1) * limit) limit
    ((db.pendingRows caller.orgId (db.teamFilter caller)).insertionSort
      fun a b => a.updatedAt ≤ b.updatedAt) <;>
    simp [wp_statement, outcome, Except.map]

/-- The pages of any length list the queue. -/
theorem listed_iff_pending {limit : Int} (positive : 1 ≤ limit) :
    Listed caller limit db id ↔ db.Pending caller id := by
  have onPage (t : Timesheet) : (∃ page : Int, 1 ≤ page ∧ ∃ data,
      Prisma.paginate ((page - 1) * limit) limit
        ((db.pendingRows caller.orgId (db.teamFilter caller)).insertionSort
          fun a b => a.updatedAt ≤ b.updatedAt) = .ok data ∧ t ∈ data) ↔
      t ∈ db.pendingRows caller.orgId (db.teamFilter caller) := by
    rw [Prisma.mem_paginate positive, List.mem_insertionSort]
  constructor
  · rintro ⟨page, first, answered⟩
    rcases wp_listPendingApprovals.mp answered _ rfl with
      ⟨result, same, t, listed, key⟩
    cases outcome : Prisma.paginate ((page - 1) * limit) limit
      ((db.pendingRows caller.orgId (db.teamFilter caller)).insertionSort
        fun a b => a.updatedAt ≤ b.updatedAt) with
    | error e => simp [outcome, Except.map] at same
    | ok data =>
        rw [outcome] at same
        cases same
        exact ⟨t, (onPage t).mp ⟨page, first, data, outcome, listed⟩, key⟩
  · rintro ⟨t, pending, key⟩
    rcases (onPage t).mpr pending with ⟨page, first, data, outcome, listed⟩
    refine ⟨page, first, wp_listPendingApprovals.mpr ?_⟩
    rintro _ rfl
    rw [outcome]
    exact ⟨_, rfl, t, listed, key⟩

theorem mem_pendingRows {t : Timesheet} :
    t ∈ db.pendingRows caller.orgId (db.teamFilter caller) ↔
      t ∈ db.timesheets.rows ∧ t.organisationId = caller.orgId ∧
        t.status = .submitted ∧
        (caller.role ≠ .admin →
          t.userId ∈ db.directReportIds caller.userId caller.orgId) := by
  rw [Db.pendingRows, Table.mem_select, InTeam, Db.teamFilter]
  split <;> simp [*]

/-! ## The decisions -/

theorem mem_directReportIds {managerId orgId employeeId : Nat} :
    employeeId ∈ db.directReportIds managerId orgId ↔
      db.isDirectReport managerId employeeId orgId := by
  simp only [Db.directReportIds, List.mem_map, Table.mem_select,
    Db.isDirectReport]
  constructor
  · rintro ⟨r, ⟨member, manager, org⟩, key⟩
    exact ⟨r, member, manager, key, org⟩
  · rintro ⟨r, member, manager, key, org⟩
    exact ⟨r, ⟨member, manager, org⟩, key⟩

/-- What the caller may not decide is refused by the service itself. -/
theorem decidableTimesheet_refused {selfMessage : String}
    {target : TimesheetStatus} (role : Managing caller)
    (refused : ¬ ∃ t, t.id = id ∧ MayDecide caller db t) :
    wp (decidableTimesheet id caller.userId caller.orgId caller.role
      selfMessage target)
      (fun answer _ => ∃ e, answer = .error e ∧ ∀ fault, e ≠ .driver fault)
      db := by
  simp only [decidableTimesheet, wp_bind, wp_query, wp_orThrow, wp_throwIf,
    andThen_ok, andThen_error]
  constructor
  · intro missing
    exact ⟨_, rfl, by simp⟩
  intro t found
  rcases Table.find?_spec found with ⟨member, key, org⟩
  constructor
  · intro own
    exact ⟨_, rfl, by simp⟩
  intro other
  have closed (report : caller.role = .manager →
      db.isDirectReport caller.userId t.userId caller.orgId) :
      t.status ≠ .submitted := fun submitted =>
    refused ⟨t, key, member, org, other, role, report, submitted⟩
  simp only [wp_whenever, assertIsDirectReport, wp_bind, wp_query, wp_throwIf,
    andThen_ok, andThen_error, decide_eq_false_iff_not, not_not]
  constructor
  · intro manager
    constructor
    · intro stranger
      exact ⟨_, rfl, by simp⟩
    · intro report
      have decided := closed fun _ => report
      exact ⟨fun _ => ⟨_, rfl, by simp⟩,
        fun submitted => (decided submitted).elim⟩
  · intro other
    have decided := closed fun manager => (other manager).elim
    exact ⟨fun _ => ⟨_, rfl, by simp⟩,
      fun submitted => (decided submitted).elim⟩

/-- The guards of a decision let pass what the caller may decide. -/
theorem checksPass_iff {selfMessage : String} {target : TimesheetStatus}
    (role : Managing caller) {rest : Timesheet → Service Timesheet}
    (faults : ∀ t, (rest t).Raises fun e => ∃ fault, e = .driver fault) :
    ChecksPass (decidableTimesheet id caller.userId caller.orgId caller.role
        selfMessage target >>= rest) db ↔
      ∃ t, t.id = id ∧ MayDecide caller db t := by
  rw [ChecksPass, wp_bind]
  constructor
  · intro passes
    by_contra refused
    refine wp_elim (wp_mono ?_ (decidableTimesheet_refused role refused))
      passes
    rintro _ after ⟨e, rfl, own⟩ passed
    rcases passed e rfl with ⟨fault, same⟩
    exact own fault same
  · rintro ⟨t, rfl, may⟩
    exact (wp_decidableTimesheet_of may).mpr ((faults t).exec db)

theorem approveTimesheet_checks (role : Managing caller) :
    ChecksPass (approveTimesheet host id caller.userId caller.orgId
        caller.role) db ↔
      ∃ t, t.id = id ∧ MayDecide caller db t := by
  refine checksPass_iff role fun t => ?_
  refine Raises.bind ?_ fun approved => ?_
  · exact (Prisma.timesheetUpdate_faults _ _).raises fun fault => ⟨fault, rfl⟩
  refine (raises_query _).bind fun entries => ?_
  refine (Raises.forEach (fun e => ?_) entries).bind fun _ => ?_
  · exact (Prisma.projectIncrementUsedHours_faults _ _).raises
      fun fault => ⟨fault, rfl⟩
  · exact ((Prisma.notificationCreate_faults _).raises
      fun fault => ⟨fault, rfl⟩).bind fun _ => raises_ok _

theorem rejectTimesheet_checks (reason : String) (role : Managing caller) :
    ChecksPass (rejectTimesheet host id caller.userId caller.orgId reason
        caller.role) db ↔
      ∃ t, t.id = id ∧ MayDecide caller db t := by
  refine checksPass_iff role fun t => ?_
  refine Raises.bind ?_ fun rejected => ?_
  · exact (Prisma.timesheetUpdate_faults _ _).raises fun fault => ⟨fault, rfl⟩
  · exact ((Prisma.notificationCreate_faults _).raises
      fun fault => ⟨fault, rfl⟩).bind fun _ => raises_ok _

/-- In a well-led hierarchy nobody is their own report. -/
theorem mayDecide_iff_pending (led : db.WellLed) (role : Managing caller) :
    (∃ t, t.id = id ∧ MayDecide caller db t) ↔
      db.Pending caller id ∧
        ¬ (caller.role = .admin ∧ db.OwnSheet caller id) := by
  constructor
  · rintro ⟨t, rfl, may⟩
    refine ⟨⟨t, mem_pendingRows.mpr ⟨may.member, may.org, may.submitted,
      fun lower => ?_⟩, rfl⟩, ?_⟩
    · exact mem_directReportIds.mpr
        (may.report (role.resolve_right lower))
    · rintro ⟨_, u, uMem, key, own⟩
      cases db.timesheets.eq_of_key uMem may.member key
      exact may.other own
  · rintro ⟨⟨t, pending, rfl⟩, apart⟩
    rcases mem_pendingRows.mp pending with ⟨member, org, submitted, team⟩
    have report (manager : caller.role = .manager) :
        db.isDirectReport caller.userId t.userId caller.orgId :=
      mem_directReportIds.mp (team (by simp [manager]))
    refine ⟨t, rfl, member, org, fun own => ?_, role, report, submitted⟩
    rcases role with manager | admin
    · rcases report manager with ⟨r, rMem, rManager, rEmployee, _⟩
      exact (led r rMem).1 (rManager.trans (own.symm.trans rEmployee.symm))
    · exact apart ⟨admin, t, member, rfl, own⟩

/-- The number on the dashboard is the length of the queue. -/
theorem getApprovalStats_pending :
    wp (getApprovalStats host caller.orgId caller.userId caller.role)
      (fun answer _ => ∃ stats, answer = .ok stats ∧
        stats.pendingCount =
          (db.pendingRows caller.orgId (db.teamFilter caller)).length) db := by
  simp only [getApprovalStats, wp_bind, wp_buildTeamFilter, andThen_ok,
    wp_query]
  exact ⟨_, rfl, rfl⟩

end

/--
In every reachable state the pages of the queue and the count of the dashboard
show the same timesheets, and these are the ones an approval and a rejection
let pass, except that an ADMIN's own submitted timesheets are listed and may
not be decided.
-/
theorem pending_iff_decidable (lib : Libs) (requests : List Request)
    (host : Host) (caller : JwtPayload) (role : Managing caller) (id : Nat) :
    let db := (World.empty.run lib requests).db
    (∀ limit, 1 ≤ limit →
        (Listed caller limit db id ↔ db.Pending caller id)) ∧
      wp (getApprovalStats host caller.orgId caller.userId caller.role)
        (fun answer _ => ∃ stats, answer = .ok stats ∧
          stats.pendingCount =
            (db.pendingRows caller.orgId (db.teamFilter caller)).length) db ∧
      (ChecksPass (approveTimesheet host id caller.userId caller.orgId
          caller.role) db ↔
        db.Pending caller id ∧
          ¬ (caller.role = .admin ∧ db.OwnSheet caller id)) ∧
      ∀ reason, (ChecksPass (rejectTimesheet host id caller.userId
          caller.orgId reason caller.role) db ↔
        db.Pending caller id ∧
          ¬ (caller.role = .admin ∧ db.OwnSheet caller id)) := by
  intro db
  have decides : (∃ t, t.id = id ∧ MayDecide caller db t) ↔
      db.Pending caller id ∧
        ¬ (caller.role = .admin ∧ db.OwnSheet caller id) :=
    mayDecide_iff_pending (World.wellLed_run lib requests) role
  refine ⟨fun limit => listed_iff_pending, getApprovalStats_pending,
    (approveTimesheet_checks role).trans decides, fun reason => ?_⟩
  exact (rejectTimesheet_checks reason role).trans decides

/-- Eve's submitted timesheet waits for the administrator. -/
theorem pending_iff_decidable_submitted :
    ChecksPass (approveTimesheet plainHost 1 ada.userId ada.orgId ada.role)
      submittedDb := by
  have pending : submittedDb.Pending ada 1 ∧
      ¬ (ada.role = .admin ∧ submittedDb.OwnSheet ada 1) := by
    decide +kernel
  exact (pending_iff_decidable plainLibs _ plainHost ada (.inr rfl)
    1).2.2.1.mpr pending

/-- An administrator submits a timesheet. -/
def ownSheetRun : List Request :=
  [.register "acme" "ada@acme", .addProject ada "A",
    .authenticated plainHost ada (.createTimesheet ⟨january 1⟩),
    .authenticated plainHost ada (.createEntry 1 (mondayEntry 1 8)),
    .authenticated plainHost ada (.submitTimesheet 1)]

/-- The administrator's own timesheet is listed and may not be decided. -/
theorem own_sheet_listed :
    let db := (World.empty.run plainLibs ownSheetRun).db
    Listed ada 20 db 1 ∧
      ¬ ChecksPass (approveTimesheet plainHost 1 1 1 .admin) db ∧
      ¬ ChecksPass (rejectTimesheet plainHost 1 1 1 "late" .admin) db := by
  intro db
  have pending : db.Pending ada 1 := by decide +kernel
  have approval : ((approveTimesheet plainHost 1 1 1 .admin).exec db).1 =
      .error (.forbiddenError "Managers cannot approve their own timesheets"
        .selfApprovalForbidden) := by
    decide +kernel
  have rejection : ((rejectTimesheet plainHost 1 1 1 "late" .admin).exec
      db).1 =
      .error (.forbiddenError "Managers cannot reject their own timesheets"
        .selfApprovalForbidden) := by
    decide +kernel
  refine ⟨(listed_iff_pending (by decide)).mpr pending, fun passes => ?_,
    fun passes => ?_⟩
  · rcases passes _ approval with ⟨fault, same⟩
    cases same
  · rcases passes _ rejection with ⟨fault, same⟩
    cases same

end TmsApi
