import TmsApi.Core.Claims
import TmsApi.Concurrency.Pools

/-!
# Concurrent timesheets for one week

`createTimesheet` and `copyPreviousWeek` look whether the user has a timesheet
for the week in one statement and insert it in a later one.  A request that
looks after the insertion gives way: it raises a conflict, or it overwrites
the draft if it is a forced copy.  Two requests that both look before the
insertion both insert.
-/

namespace TmsApi

open TmsApi.Core
open TmsApi.Core.Program

/-! ## The slot -/

section Slot

variable {db later : Db} {userId orgId : Nat} {week : Instant}

/-- The timesheets of a user and organisation for a week. -/
def OfWeek (userId orgId : Nat) (week : Instant) (t : Timesheet) : Prop :=
  t.userId = userId ∧ t.organisationId = orgId ∧ t.weekStartDate = week

/-- The entry can be copied: its texts fit, and its project exists. -/
def Copyable (db : Db) (e : TimeEntry) : Prop :=
  e.desc.All text? ∧ db.projects.HasKey e.projectId

/-- The week has one timesheet, a draft inserted into `db`. -/
structure Held (db : Db) (userId orgId : Nat) (week : Instant)
    (later : Db) : Prop where
  settings : later.orgSettings = db.orgSettings
  projects : later.projects = db.projects
  stored : ∀ e ∈ later.timeEntries.rows, Copyable db e
  sheet : ∃ t ∈ later.timesheets.rows, t.id = db.timesheets.next ∧
    OfWeek userId orgId week t ∧ t.status = .draft
  only : ∀ t ∈ later.timesheets.rows, OfWeek userId orgId week t →
    t.id = db.timesheets.next

/-- The look at the week finds the draft. -/
theorem Held.found (held : Held db userId orgId week later) :
    ∃ t ∈ later.timesheets.rows,
      later.weekTimesheet userId orgId week = some t ∧
        t.id = db.timesheets.next ∧ t.status = .draft := by
  rcases held.sheet with ⟨t, member, key, ofWeek, draft⟩
  refine ⟨t, member, ?_, key, draft⟩
  cases found : later.weekTimesheet userId orgId week with
  | none => exact (Table.find?_eq_none.mp found t member ofWeek).elim
  | some other =>
      rcases Table.find?_spec found with ⟨otherMem, otherWeek⟩
      have same := held.only other otherMem otherWeek
      rw [later.timesheets.eq_of_key otherMem member (same.trans key.symm)]

theorem copiedEntry_copyable {timesheetId k : Nat} {now : Instant}
    {e : TimeEntry} (copyable : Copyable db e) :
    Copyable db ((copiedEntry timesheetId e).row now k) :=
  copyable

/-- The first draft of the week takes the slot. -/
theorem held_openSheet {now : Instant} {data : TimesheetData}
    {entries : List TimeEntry}
    (stored : ∀ e ∈ db.timeEntries.rows, Copyable db e)
    (copyable : ∀ e ∈ entries, Copyable db e)
    (free : db.weekTimesheet userId orgId week = none)
    (owner : data.userId = userId) (org : data.organisationId = orgId)
    (start : data.weekStartDate = week) (draft : data.status = .draft) :
    Held db userId orgId week (db.openSheet now data entries) where
  settings := rfl
  projects := rfl
  stored e member := by
    rcases Table.mem_insertMany_map member with
      old | ⟨source, sourceMem, k, rfl⟩
    · exact stored e old
    · exact copiedEntry_copyable (copyable source sourceMem)
  sheet :=
    ⟨data.row now db.timesheets.next, Db.mem_openSheet.mpr (.inr rfl), rfl,
      ⟨owner, org, start⟩, draft⟩
  only t member ofWeek := by
    rcases Db.mem_openSheet.mp member with old | rfl
    · exact (Table.find?_eq_none.mp free t old ofWeek).elim
    · rfl

/-- Overwriting the draft leaves the slot taken. -/
theorem Held.overwrite (held : Held db userId orgId week later)
    {now : Instant} {id : Nat} {entries : List TimeEntry}
    (copyable : ∀ e ∈ entries, Copyable db e) :
    Held db userId orgId week (later.overwriteSheet now id entries) where
  settings := held.settings
  projects := held.projects
  stored e member := by
    rcases Table.mem_insertMany_map member with
      old | ⟨source, sourceMem, k, rfl⟩
    · exact held.stored e ((Table.mem_deleteWhere).mp old).1
    · exact copiedEntry_copyable (copyable source sourceMem)
  sheet := by
    rcases held.sheet with ⟨t, member, key, ofWeek, draft⟩
    refine ⟨_, Db.mem_setSheet.mpr ⟨t, member, rfl⟩, ?_⟩
    by_cases same : t.id = id
    · rw [if_pos same]
      exact ⟨key, ofWeek, draft⟩
    · rw [if_neg same]
      exact ⟨key, ofWeek, draft⟩
  only t member ofWeek := by
    rcases Db.mem_setSheet.mp member with ⟨old, oldMem, rfl⟩
    by_cases same : old.id = id
    · rw [if_pos same] at ofWeek ⊢
      exact held.only old oldMem ofWeek
    · rw [if_neg same] at ofWeek ⊢
      exact held.only old oldMem ofWeek

end Slot

/-! ## The two requests -/

section Requests

variable {lib : Libs} {host : Host} {caller : JwtPayload} {call : Call}
  {db later : Db} {week : Instant}

/-- How a request ends that meets the draft which has taken the week. -/
inductive Yields (draft : Nat) : Call → Except Thrown Response → Prop where
  | conflict (call : Call) (message : String) :
      Yields draft call (.error (.conflictError message))
  | backdated (dto : CreateTimesheetDto) :
      Yields draft (.createTimesheet dto)
        (.error (.appError "Backdated timesheets are not allowed" 400
          .backdatingNotAllowed))
  | disabled (targetWeekStart : JsDate) (force : Bool) :
      Yields draft (.copyPreviousWeek targetWeekStart force)
        (.error (.appError "Copy Previous Week feature is disabled" 400
          .copyWeekDisabled))
  | noPrevious (targetWeekStart : JsDate) (force : Bool) :
      Yields draft (.copyPreviousWeek targetWeekStart force)
        (.error (.notFoundError "Previous submitted or approved timesheet"))
  | overwrote (targetWeekStart : JsDate) (row : Timesheet) (skipped : Nat)
      (same : row.id = draft) :
      Yields draft (.copyPreviousWeek targetWeekStart true)
        (.ok (.copied row skipped))

/-- The organisation of the caller starts its week as in `db`. -/
theorem Held.startDay (held : Held db caller.userId caller.orgId week later) :
    ((later.settingsOf caller.orgId).map (·.workWeekStart)).getD .monday =
      db.startDay caller.orgId := by
  simp only [Db.startDay, Db.settingsOf, held.settings]

/-- The look of a creation at the week, in front of anything. -/
theorem existing_givesWay (message : String)
    (f : PUnit → Service Response) :
    GivesWay (Held db caller.userId caller.orgId week)
      (Yields db.timesheets.next call)
      ((query fun db => db.weekTimesheet caller.userId caller.orgId week) >>=
        fun existing =>
          throwIf (existing.isSome) (.conflictError message) >>= f) := by
  refine GivesWay.query_bind fun s held => ?_
  rcases held.found with ⟨t, _, found, _, _⟩
  rw [found]
  exact GivesWay.throwIf_bind (fun _ => .conflict _ _)
    fun free => (free rfl).elim

theorem handle_create (dto : CreateTimesheetDto) :
    handle lib host caller (.createTimesheet dto) =
      (createTimesheet host caller.userId caller.orgId dto >>= fun row =>
        done (.ok (.timesheet row))) :=
  rfl

/-- A creation that meets a taken week raises a conflict. -/
theorem createTimesheet_givesWay {dto : CreateTimesheetDto} {date : Instant}
    (parsed : dto.weekStartDate.toDate = some date)
    (normal : getWeekStart host.zone date (db.startDay caller.orgId) = week) :
    GivesWay (Held db caller.userId caller.orgId week)
      (Yields db.timesheets.next (.createTimesheet dto))
      (handle lib host caller (.createTimesheet dto)) := by
  simp only [handle_create, createTimesheet, bind_assoc]
  refine GivesWay.query_bind fun s held => ?_
  refine GivesWay.throwIf_bind (fun _ => .backdated dto) fun _ => ?_
  rw [held.startDay, parsed, Option.map_some, normal, orThrow_some, ok_bind]
  exact existing_givesWay _ _

/-- A creation looks at the week with its second statement. -/
theorem createTimesheet_looks {dto : CreateTimesheetDto} {date : Instant}
    (stored : ∀ e ∈ db.timeEntries.rows, Copyable db e)
    (free : db.weekTimesheet caller.userId caller.orgId week = none)
    (parsed : dto.weekStartDate.toDate = some date)
    (normal : getWeekStart host.zone date (db.startDay caller.orgId) = week) :
    (handle lib host caller (.createTimesheet dto)).Looks db
      (Held db caller.userId caller.orgId week)
      (Yields db.timesheets.next (.createTimesheet dto)) 1 := by
  have gives : GivesWay (Held db caller.userId caller.orgId week)
      (Yields db.timesheets.next (.createTimesheet dto))
      (handle lib host caller (.createTimesheet dto)) :=
    createTimesheet_givesWay parsed normal
  simp only [handle_create, createTimesheet, bind_assoc] at gives ⊢
  refine Looks.query_bind gives ?_
  refine Looks.throwIf_bind (fun _ => .backdated dto) fun _ => ?_
  rw [← Db.startDay, parsed, Option.map_some, normal, orThrow_some, ok_bind]
  refine Looks.look (existing_givesWay _ _) (Takes.throwIf_bind fun _ => ?_)
  refine Takes.statement_bind fun t after outcome => ⟨?_, _, rfl⟩
  rw [(Prisma.timesheetCreate_after outcome).1]
  exact held_openSheet stored (fun e absurd => by cases absurd) free rfl rfl
    rfl rfl

/-- For an EMPLOYEE a copy reads the assigned projects in between. -/
theorem copyableEntries_givesWay {held : Db → Prop}
    {yields : Except Thrown Response → Prop} {userId orgId : Nat}
    {userRole : UserRole} {entries : List TimeEntry}
    {f : List TimeEntry → Service Response}
    (next : ∀ copied, copied ⊆ entries → (f copied).GivesWay held yields) :
    (copyableEntries userId orgId userRole entries >>= f).GivesWay held
      yields := by
  unfold copyableEntries
  split
  · simp only [getAssignedProjectIds, bind_assoc, pure_eq, ok_bind]
    exact GivesWay.query_bind fun s _ =>
      next _ (List.filter_subset_self _)
  · exact next _ (List.Subset.refl _)

theorem copyableEntries_takes {start : Db} {held : Db → Prop}
    {userId orgId : Nat} {userRole : UserRole} {entries : List TimeEntry}
    {f : List TimeEntry → Service Response}
    (next : ∀ copied, copied ⊆ entries → (f copied).Takes start held) :
    (copyableEntries userId orgId userRole entries >>= f).Takes start
      held := by
  unfold copyableEntries
  split
  · simp only [getAssignedProjectIds, bind_assoc, pure_eq, ok_bind]
    exact Takes.query_bind (next _ (List.filter_subset_self _))
  · exact next _ (List.Subset.refl _)

/-- Copies of entries that can be copied are inserted. -/
theorem createEntries_of (host : Host) {id : Nat} {entries : List TimeEntry}
    (projects : later.projects = db.projects)
    (known : later.timesheets.HasKey id)
    (copyable : ∀ e ∈ entries, Copyable db e) :
    createEntries host id entries later =
      .ok (⟨⟩,
        { later with
          timeEntries :=
            Table.insertMany (fun d => d.row host.now)
              later.timeEntries (entries.map (copiedEntry id)) }) := by
  have texts : ∀ d ∈ entries.map (copiedEntry id), d.desc.All text? := by
    intro d given
    rcases List.mem_map.mp given with ⟨e, source, rfl⟩
    exact (copyable e source).1
  have keys : ∀ d ∈ entries.map (copiedEntry id),
      later.timesheets.HasKey d.timesheetId ∧
        later.projects.HasKey d.projectId := by
    intro d given
    rcases List.mem_map.mp given with ⟨e, source, rfl⟩
    have project : later.projects.HasKey e.projectId :=
      projects ▸ (copyable e source).2
    exact ⟨known, project⟩
  cases entries with
  | nil => rfl
  | cons e entries =>
      simp only [createEntries, List.length_cons, Nat.zero_lt_succ,
        if_true, Prisma.timeEntryCreateMany, ensure_of texts,
        ensure_of keys]

/-- Overwriting the draft of a taken week succeeds. -/
theorem overwriteEntries_of (host : Host) {t : Timesheet} {id : Nat}
    {entries : List TimeEntry} (projects : later.projects = db.projects)
    (member : t ∈ later.timesheets.rows) (key : t.id = id)
    (copyable : ∀ e ∈ entries, Copyable db e) :
    ∃ row, row.id = id ∧
      overwriteEntries host id entries (sumBy (·.totalHours) entries)
        (sumBy (·.totalHours) (entries.filter (·.billable))) later =
          .ok (row, later.overwriteSheet host.now id entries) := by
  let cleared : Db :=
    { later with
      timeEntries :=
        later.timeEntries.deleteWhere fun e => e.timesheetId = id }
  let filled : Db :=
    { cleared with
      timeEntries :=
        Table.insertMany (fun d => d.row host.now)
          cleared.timeEntries (entries.map (copiedEntry id)) }
  have created : createEntries host id entries cleared = .ok (⟨⟩, filled) :=
    createEntries_of host projects ⟨t, member, key⟩ copyable
  have still : t ∈ filled.timesheets.rows := member
  have updated : Prisma.timesheetUpdate host.now id (totalsOf entries)
      filled = .ok ((totalsOf entries).apply host.now t,
        later.overwriteSheet host.now id entries) :=
    Prisma.timesheetUpdate_of still key
      (by intro reason absurd; cases absurd)
      (by intro u absurd; cases absurd)
  exact ⟨(totalsOf entries).apply host.now t, key,
    bind_eq_ok.mpr ⟨⟨⟩, cleared, rfl,
      bind_eq_ok.mpr ⟨⟨⟩, filled, created, updated⟩⟩⟩

/-- A new draft for a known user is created with the copies. -/
theorem createCopy_of (host : Host) {data : TimesheetData}
    {entries : List TimeEntry}
    (org : db.organisations.HasKey data.organisationId)
    (user : db.users.HasKey data.userId)
    (copyable : ∀ e ∈ entries, Copyable db e) :
    createCopy host data entries db =
      .ok (data.row host.now db.timesheets.next,
        db.openSheet host.now data entries) := by
  let opened : Db :=
    { db with timesheets := db.timesheets.insert (data.row host.now) }
  have created : Prisma.timesheetCreate host.now data db =
      .ok (data.row host.now db.timesheets.next, opened) := by
    rw [Prisma.timesheetCreate, ensure_of ⟨org, user⟩]
  have known : opened.timesheets.HasKey db.timesheets.next :=
    ⟨data.row host.now db.timesheets.next,
      Table.mem_insert.mpr (.inr rfl), rfl⟩
  have filled : createEntries host _ entries opened = _ :=
    createEntries_of host rfl known copyable
  exact bind_eq_ok.mpr ⟨_, opened, created,
    bind_eq_ok.mpr ⟨⟨⟩, _, filled, rfl⟩⟩

/-- The second part of a copy that meets a taken week. -/
theorem copyIntoWeek_givesWay {targetWeekStart : JsDate} {force : Bool}
    {previous : Timesheet × List TimeEntry}
    (copyable : ∀ e ∈ previous.2, Copyable db e) :
    GivesWay (Held db caller.userId caller.orgId week)
      (Yields db.timesheets.next (.copyPreviousWeek targetWeekStart force))
      (copyIntoWeek host caller.userId caller.orgId caller.role force
        previous week >>= fun result =>
          done (.ok (.copied result.1 result.2))) := by
  simp only [copyIntoWeek, bind_assoc, pure_eq, ok_bind]
  refine GivesWay.query_bind fun s held => ?_
  rcases held.found with ⟨t, _, found, key, draft⟩
  rw [found]
  refine GivesWay.throwIf_bind (fun _ => .conflict _ _) fun forced => ?_
  have forced : force = true := by simpa using forced
  refine GivesWay.throwIf_bind ?_ fun _ => ?_
  · rintro ⟨_, other, same, frozen⟩
    cases same
    exact (frozen draft).elim
  · refine copyableEntries_givesWay fun copied source => ?_
    refine GivesWay.statement_bind fun later held => ?_
    rcases held.sheet with ⟨row, member, rowKey, _, _⟩
    have still : ∀ e ∈ copied, Copyable db e :=
      fun e given => copyable e (source given)
    rcases overwriteEntries_of host held.projects member
      (rowKey.trans key.symm) still with ⟨updated, same, outcome⟩
    refine ⟨updated, _, outcome, held.overwrite still, ?_⟩
    rw [forced]
    exact givesWay_done (.overwrote _ _ _ (same.trans key))

/-- The second part of a copy that finds the week free. -/
theorem copyIntoWeek_looks {force : Bool}
    {previous : Timesheet × List TimeEntry}
    (stored : ∀ e ∈ db.timeEntries.rows, Copyable db e)
    (free : db.weekTimesheet caller.userId caller.orgId week = none)
    (copyable : ∀ e ∈ previous.2, Copyable db e)
    {targetWeekStart : JsDate} :
    (copyIntoWeek host caller.userId caller.orgId caller.role force
      previous week >>= fun result =>
        (done (.ok (.copied result.1 result.2)) : Service Response)).Looks db
      (Held db caller.userId caller.orgId week)
      (Yields db.timesheets.next (.copyPreviousWeek targetWeekStart force))
      0 := by
  have gives : GivesWay (Held db caller.userId caller.orgId week)
      (Yields db.timesheets.next (.copyPreviousWeek targetWeekStart force))
      (copyIntoWeek host caller.userId caller.orgId caller.role force
        previous week >>= fun result =>
          done (.ok (.copied result.1 result.2))) :=
    copyIntoWeek_givesWay copyable
  simp only [copyIntoWeek, bind_assoc, pure_eq, ok_bind] at gives ⊢
  refine Looks.look gives ?_
  rw [free]
  refine Takes.throwIf_bind fun _ => Takes.throwIf_bind fun _ => ?_
  refine copyableEntries_takes fun copied source => ?_
  refine Takes.statement_bind fun t after outcome => ⟨?_, _, rfl⟩
  rw [createCopy_after outcome]
  exact held_openSheet stored (fun e given => copyable e (source given))
    free rfl rfl rfl rfl

theorem handle_copy (targetWeekStart : JsDate) (force : Bool) :
    handle lib host caller (.copyPreviousWeek targetWeekStart force) =
      (copyPreviousWeek host caller.userId caller.orgId targetWeekStart
        caller.role force >>= fun result =>
          done (.ok (.copied result.1 result.2))) :=
  rfl

/-- What a copy reads as its source can be copied. -/
theorem source_copyable {s : Db}
    (stored : ∀ e ∈ s.timeEntries.rows, Copyable db e)
    {previous : Timesheet × List TimeEntry}
    (found : ((s.previousTimesheet caller.userId caller.orgId).map
      fun t => (t, s.entriesOf t.id)) = some previous) :
    ∀ e ∈ previous.2, Copyable db e := by
  rcases Option.map_eq_some_iff.mp found with ⟨t, _, rfl⟩
  exact fun e member => stored e (Db.mem_entriesOf.mp member).1

section Copy

variable {date : Instant} {force : Bool}

/-- The part of a copy after its first statement, in a taken week. -/
theorem copySource_givesWay
    (normal : getWeekStart host.zone date (db.startDay caller.orgId) = week) :
    GivesWay (Held db caller.userId caller.orgId week)
      (Yields db.timesheets.next (.copyPreviousWeek (some date) force))
      ((query fun s =>
          (s.previousTimesheet caller.userId caller.orgId).map
            fun t => (t, s.entriesOf t.id)) >>= fun source =>
        orThrow source
            (.notFoundError "Previous submitted or approved timesheet") >>=
          fun previous =>
            orThrow ((some date : JsDate).map (getWeekStart host.zone ·
                (db.startDay caller.orgId)))
              (.driver .invalidValue) >>= fun weekStartDate =>
                copyIntoWeek host caller.userId caller.orgId caller.role
                  force previous weekStartDate >>= fun result =>
                    done (.ok (.copied result.1 result.2))) := by
  refine GivesWay.query_bind fun s held => ?_
  refine GivesWay.orThrow_bind (fun _ => .noPrevious _ _)
    fun previous found => ?_
  rw [Option.map_some, normal, orThrow_some, ok_bind]
  exact copyIntoWeek_givesWay (source_copyable held.stored found)

theorem copyPreviousWeek_givesWay
    (normal : getWeekStart host.zone date (db.startDay caller.orgId) = week) :
    GivesWay (Held db caller.userId caller.orgId week)
      (Yields db.timesheets.next (.copyPreviousWeek (some date) force))
      (handle lib host caller (.copyPreviousWeek (some date) force)) := by
  simp only [handle_copy, copyPreviousWeek, bind_assoc]
  refine GivesWay.query_bind fun s held => ?_
  refine GivesWay.throwIf_bind (fun _ => .disabled _ _) fun _ => ?_
  rw [held.startDay]
  exact copySource_givesWay normal

/-- A copy looks at the week with its third statement. -/
theorem copyPreviousWeek_looks
    (stored : ∀ e ∈ db.timeEntries.rows, Copyable db e)
    (free : db.weekTimesheet caller.userId caller.orgId week = none)
    (normal : getWeekStart host.zone date (db.startDay caller.orgId) = week) :
    (handle lib host caller (.copyPreviousWeek (some date) force)).Looks db
      (Held db caller.userId caller.orgId week)
      (Yields db.timesheets.next (.copyPreviousWeek (some date) force)) 2 := by
  have gives : GivesWay (Held db caller.userId caller.orgId week)
      (Yields db.timesheets.next (.copyPreviousWeek (some date) force))
      (handle lib host caller (.copyPreviousWeek (some date) force)) :=
    copyPreviousWeek_givesWay normal
  simp only [handle_copy, copyPreviousWeek, bind_assoc] at gives ⊢
  refine Looks.query_bind gives ?_
  refine Looks.throwIf_bind (fun _ => .disabled _ _) fun _ => ?_
  rw [← Db.startDay]
  refine Looks.query_bind (copySource_givesWay normal) ?_
  refine Looks.orThrow_bind (fun _ => .noPrevious _ _)
    fun previous found => ?_
  rw [Option.map_some, normal, orThrow_some, ok_bind]
  exact copyIntoWeek_looks stored free (source_copyable stored found)

end Copy

end Requests

/-! ## Any number of requests for one week -/

/-- The reads of a request before it looks at the week. -/
def readsBeforeLook : Call → Nat
  | .copyPreviousWeek _ _ => 2
  | _ => 1

/-- A request for a timesheet whose date normalises to the week. -/
def ForWeek (host : Host) (startDay : WorkWeekStart) (week : Instant)
    (call : Call) : Prop :=
  ∃ date, getWeekStart host.zone date startDay = week ∧
    ((∃ dto, call = .createTimesheet dto ∧
        dto.weekStartDate.toDate = some date) ∨
      ∃ force, call = .copyPreviousWeek (some date) force)

/-- The foreign keys and column widths of the stored entries. -/
def Stored (db : Db) : Prop :=
  db.Integrity ∧ ∀ e ∈ db.timeEntries.rows, e.desc.All text?

theorem Stored.copyable {db : Db} (stored : Stored db) :
    ∀ e ∈ db.timeEntries.rows, Copyable db e :=
  fun e member => ⟨stored.2 e member, stored.1.entry_project e member⟩

theorem ForWeek.looks {lib : Libs} {host : Host} {caller : JwtPayload}
    {call : Call} {db : Db} {week : Instant} (stored : Stored db)
    (free : db.weekTimesheet caller.userId caller.orgId week = none)
    (forWeek : ForWeek host (db.startDay caller.orgId) week call) :
    (handle lib host caller call).Looks db
      (Held db caller.userId caller.orgId week)
      (Yields db.timesheets.next call) (readsBeforeLook call) := by
  rcases forWeek with ⟨date, normal, ⟨dto, rfl, parsed⟩ | ⟨force, rfl⟩⟩
  · exact createTimesheet_looks stored.copyable free parsed normal
  · exact copyPreviousWeek_looks stored.copyable free normal

section Turns

variable {ι : Type} [DecidableEq ι] (lib : Libs) (requests : Concurrent ι)
  (db : Db) (userId orgId : Nat) (week : Instant) (schedule : List ι)

/-- A request looks at the week while it is free. -/
def LooksFree (i : ι) : Prop :=
  ∃ p before, p ++ [i] <+: schedule ∧
    p.count i = readsBeforeLook (requests.call i) ∧
      (requests.pool lib db).run p = some before ∧
        before.state.weekTimesheet userId orgId week = none

/-- No two requests look at the week while it is free. -/
def LookInTurn : Prop :=
  ∀ i j, LooksFree lib requests db userId orgId week schedule i →
    LooksFree lib requests db userId orgId week schedule j → i = j

variable {lib requests db userId orgId week schedule}

theorem looksFree_of_looked {i : ι}
    (free : db.weekTimesheet userId orgId week = none)
    (looked : (requests.pool lib db).Looked db
      (fun k => readsBeforeLook (requests.call k)) schedule i) :
    LooksFree lib requests db userId orgId week schedule i := by
  rcases looked with ⟨p, before, initial, count, ran, same⟩
  exact ⟨p, before, initial, count, ran, same ▸ free⟩

end Turns

/--
Concurrent requests of one user for the same free week, of which no two look
at the week while it is free, leave at most one timesheet for it, under the
key of the first insertion.  All but the one that finds the week free raise a
conflict, fail before they look at the week, or are forced copies that
overwrite this draft.
-/
theorem one_timesheet_of_lookInTurn (lib : Libs) {ι : Type} [DecidableEq ι]
    (requests : Concurrent ι) (db : Db) (userId orgId : Nat)
    (week : Instant) (schedule : List ι)
    (last : Pool Db Thrown Response ι) (stored : Stored db)
    (free : db.weekTimesheet userId orgId week = none)
    (owner : ∀ i, (requests.caller i).userId = userId ∧
      (requests.caller i).orgId = orgId)
    (forWeek : ∀ i, ForWeek (requests.host i) (db.startDay orgId) week
      (requests.call i))
    (ran : (requests.pool lib db).run schedule = some last)
    (inTurn : LookInTurn lib requests db userId orgId week schedule) :
    (∀ t ∈ last.state.timesheets.rows, OfWeek userId orgId week t →
      t.id = db.timesheets.next ∧
        ∀ other ∈ last.state.timesheets.rows,
          OfWeek userId orgId week other → t = other) ∧
    ∀ i result, last.threads i = .done result →
      LooksFree lib requests db userId orgId week schedule i ∨
        Yields db.timesheets.next (requests.call i) result := by
  have all : ∀ i, ((requests.pool lib db).threads i).Looks db
      (Held db userId orgId week)
      (Yields db.timesheets.next (requests.call i))
      (readsBeforeLook (requests.call i)) := by
    intro i
    have looks :
        db.weekTimesheet (requests.caller i).userId (requests.caller i).orgId
            week = none →
          ForWeek (requests.host i) (db.startDay (requests.caller i).orgId)
            week (requests.call i) →
          (handle lib (requests.host i) (requests.caller i)
            (requests.call i)).Looks db
            (Held db (requests.caller i).userId (requests.caller i).orgId
              week)
            (Yields db.timesheets.next (requests.call i))
            (readsBeforeLook (requests.call i)) :=
      ForWeek.looks stored
    rw [(owner i).1, (owner i).2] at looks
    exact looks free (forWeek i)
  have unique : ∀ i j,
      (requests.pool lib db).Looked db
        (fun k => readsBeforeLook (requests.call k)) schedule i →
      (requests.pool lib db).Looked db
        (fun k => readsBeforeLook (requests.call k)) schedule j →
      i = j :=
    fun i j first second => inTurn i j (looksFree_of_looked free first)
      (looksFree_of_looked free second)
  have claimed := Pool.run_claims rfl all unique ran
  refine ⟨?_, fun i result ended =>
    (claimed.looked_or_yields ended).imp_left (looksFree_of_looked free)⟩
  intro t member ofWeek
  cases claimed with
  | free untouched _ =>
      rw [untouched] at member
      exact (Table.find?_eq_none.mp free t member ofWeek).elim
  | taken winner result held _ _ _ =>
      have key := held.only t member ofWeek
      refine ⟨key, fun other otherMem otherWeek => ?_⟩
      exact last.state.timesheets.eq_of_key member otherMem
        (key.trans (held.only other otherMem otherWeek).symm)

/-- The second Monday of 2024. -/
def nextMonday : Instant := 1704672000000

theorem submittedDb_stored : Stored submittedDb :=
  ⟨(World.sound_run plainLibs _).integrity, by decide +kernel⟩

theorem submittedDb_free : submittedDb.weekTimesheet 2 1 nextMonday = none := by
  decide +kernel

/-- Eve creates the timesheet of the second week, and copies the first. -/
def createAndCopy : Concurrent Bool where
  host _ := plainHost
  caller _ := eve
  call
    | true => .createTimesheet ⟨january 8⟩
    | false => .copyPreviousWeek (some nextMonday) true

theorem createAndCopy_forWeek (i : Bool) :
    ForWeek plainHost (submittedDb.startDay 1) nextMonday
      (createAndCopy.call i) := by
  refine ⟨nextMonday, by decide +kernel, ?_⟩
  cases i with
  | true => exact .inl ⟨_, rfl, by decide +kernel⟩
  | false => exact .inr ⟨true, rfl⟩

/-- The creation, and then the copy. -/
def createThenCopy : List Bool :=
  List.replicate 3 true ++ List.replicate 4 false

/-- The creation finds the week free, and the copy finds the draft. -/
theorem createThenCopy_inTurn (i : Bool)
    (looks : LooksFree plainLibs createAndCopy submittedDb 2 1 nextMonday
      createThenCopy i) : i = true := by
  rcases looks with ⟨pre, before, initial, count, ran, free⟩
  cases i with
  | true => rfl
  | false =>
      have taken : pre.count false = 2 →
          before.state.weekTimesheet 2 1 nextMonday ≠ none :=
        Pool.forall_prefix_of_all (p := fun pre now => pre.count false = 2 →
          now.state.weekTimesheet 2 1 nextMonday ≠ none) (by decide +kernel)
          ((List.prefix_append pre [false]).trans initial) ran
      exact (taken count free).elim

/-- A copy that looks after the insertion overwrites the draft. -/
theorem one_timesheet_in_turn :
    ∃ last, (createAndCopy.pool plainLibs submittedDb).run createThenCopy =
        some last ∧
      (∃ response, last.threads false = .done (.ok response) ∧
        Yields submittedDb.timesheets.next (createAndCopy.call false)
          (.ok response)) ∧
      ∀ t ∈ last.state.timesheets.rows,
        ∀ other ∈ last.state.timesheets.rows, OfWeek 2 1 nextMonday t →
          OfWeek 2 1 nextMonday other → t = other := by
  have ended : ∃ last,
      (createAndCopy.pool plainLibs submittedDb).run createThenCopy =
        some last ∧ (last.threads false).succeeded :=
    Pool.exists_of_any (by decide +kernel)
  rcases ended with ⟨last, ran, succeeded⟩
  obtain ⟨response, answered⟩ := succeeded_iff.mp succeeded
  obtain ⟨one, others⟩ := one_timesheet_of_lookInTurn plainLibs createAndCopy
    submittedDb 2 1 nextMonday createThenCopy last submittedDb_stored
    submittedDb_free (fun _ => ⟨rfl, rfl⟩) createAndCopy_forWeek ran
    fun i j first second => (createThenCopy_inTurn i first).trans
      (createThenCopy_inTurn j second).symm
  refine ⟨last, ran, ⟨response, answered, ?_⟩,
    fun t member other otherMem ofWeek => (one t member ofWeek).2 other
      otherMem⟩
  rcases others false _ answered with looks | yields
  · cases createThenCopy_inTurn false looks
  · exact yields

/-- Eve clicks twice. -/
def createTwice : Concurrent Bool where
  host _ := plainHost
  caller _ := eve
  call _ := .createTimesheet ⟨january 8⟩

/--
A forced copy after a creation succeeds as well, and two creations that look
before either of them inserts leave two timesheets.
-/
theorem timesheets_of_both :
    submittedDb.weekTimesheet 2 1 nextMonday = none ∧
      (∃ last,
        (createAndCopy.pool plainLibs submittedDb).run createThenCopy =
          some last ∧
        ∀ i, ∃ response, last.threads i = .done (.ok response)) ∧
      ∃ last, (createTwice.pool plainLibs submittedDb).run
          [true, false, true, false, true, false] = some last ∧
        (∀ i, ∃ response, last.threads i = .done (.ok response)) ∧
        ∃ t ∈ last.state.timesheets.rows,
          ∃ other ∈ last.state.timesheets.rows, OfWeek 2 1 nextMonday t ∧
            OfWeek 2 1 nextMonday other ∧ t.id ≠ other.id := by
  have copied : ∃ last,
      (createAndCopy.pool plainLibs submittedDb).run createThenCopy =
        some last ∧ ∀ i, (last.threads i).succeeded :=
    Pool.exists_of_any (by decide +kernel)
  have doubled : ∃ last, (createTwice.pool plainLibs submittedDb).run
      [true, false, true, false, true, false] = some last ∧
        (∀ i, (last.threads i).succeeded) ∧
        ∃ t ∈ last.state.timesheets.rows,
          ∃ other ∈ last.state.timesheets.rows, OfWeek 2 1 nextMonday t ∧
            OfWeek 2 1 nextMonday other ∧ t.id ≠ other.id := by
    unfold OfWeek
    exact Pool.exists_of_any (by decide +kernel)
  rcases copied with ⟨last, ran, succeeded⟩
  rcases doubled with ⟨twice, ranTwice, succeededTwice, two⟩
  exact ⟨submittedDb_free,
    ⟨last, ran, fun i => succeeded_iff.mp (succeeded i)⟩,
    twice, ranTwice, fun i => succeeded_iff.mp (succeededTwice i), two⟩

end TmsApi
