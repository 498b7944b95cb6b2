import TmsApi.Properties.EntryWrites
import TmsApi.Concurrency.WeekRace

/-!
# Copies of a week

`copyPreviousWeek` writes the entries of one timesheet into another, in a new
draft or over the entries of an old one.  The copy is faithful to its source
and leaves everything else alone.  The source is the latest submitted or
approved timesheet of the user, whichever week is asked for.
-/

namespace TmsApi

open TmsApi.Core
open TmsApi.Core.Program

/-- The columns of an entry that a copy keeps. -/
structure CopiedColumns where
  projectId : Nat
  billable : Bool
  hours : Week ℚ
  desc : Week (Option String)
  totalHours : ℚ
deriving DecidableEq

def TimeEntry.copiedColumns (e : TimeEntry) : CopiedColumns where
  projectId := e.projectId
  billable := e.billable
  hours := e.hours
  desc := e.desc
  totalHours := e.totalHours

/-- The project is assigned to the employee in the organisation. -/
def Db.AssignedIn (db : Db) (employeeId orgId projectId : Nat) : Prop :=
  (∃ r ∈ db.projectEmployees.rows,
      r.employeeId = employeeId ∧ r.projectId = projectId) ∧
    ∃ p ∈ db.projects.rows, p.id = projectId ∧ p.organisationId = orgId

instance (db : Db) (employeeId orgId projectId : Nat) :
    Decidable (db.AssignedIn employeeId orgId projectId) :=
  inferInstanceAs (Decidable (_ ∧ _))

/-- An EMPLOYEE copies what is assigned to them, everybody else all entries. -/
def MayCopy (caller : JwtPayload) (db : Db) (e : TimeEntry) : Prop :=
  caller.role = .employee →
    db.AssignedIn caller.userId caller.orgId e.projectId

instance (caller : JwtPayload) (db : Db) :
    DecidablePred (MayCopy caller db) := fun _ =>
  inferInstanceAs (Decidable (_ → _))

/-- The timesheet holds a copy of the source and nothing else has changed. -/
structure FaithfulCopy (caller : JwtPayload) (before after : Db)
    (source t : Timesheet) (skippedCount : Nat) : Prop where
  owns : Owns caller after t
  draft : t.status = .draft
  entries : ((after.entriesOf t.id).map TimeEntry.copiedColumns).Perm
    (((before.entriesOf source.id).filter fun e => MayCopy caller before e).map
      TimeEntry.copiedColumns)
  replaced : ∀ e ∈ before.entriesOf t.id, e ∉ after.entriesOf t.id
  totals : SheetTotal t (after.entriesOf t.id)
  skipped : skippedCount =
    ((before.entriesOf source.id).filter
      fun e => ¬ MayCopy caller before e).length
  apart : source.id ≠ t.id
  others : ∀ u : Timesheet, u.id ≠ t.id →
    (u ∈ after.timesheets.rows ↔ u ∈ before.timesheets.rows) ∧
      after.entriesOf u.id = before.entriesOf u.id

section

variable {host : Host} {caller : JwtPayload} {db after : Db}

theorem mem_assignedProjectIds {employeeId orgId projectId : Nat} :
    projectId ∈ db.assignedProjectIds employeeId orgId ↔
      db.AssignedIn employeeId orgId projectId := by
  unfold Db.assignedProjectIds Db.AssignedIn
  rw [List.mem_map]
  constructor
  · rintro ⟨r, selected, rfl⟩
    obtain ⟨member, employee, project⟩ := Table.mem_select.mp selected
    exact ⟨⟨r, member, employee, rfl⟩, project⟩
  · rintro ⟨⟨r, member, employee, rfl⟩, project⟩
    exact ⟨r, Table.mem_select.mpr ⟨member, employee, project⟩, rfl⟩

/-- What is copied is what the caller may copy. -/
theorem copyable_eq (source : Timesheet) :
    db.copyable caller source =
      (db.entriesOf source.id).filter fun e => MayCopy caller db e := by
  unfold Db.copyable
  split
  · rename_i employee
    refine List.filter_congr fun e _ => ?_
    simp only [MayCopy, employee, true_imp_iff, mem_assignedProjectIds]
  · rename_i other
    refine (List.filter_eq_self.mpr fun e _ => ?_).symm
    exact decide_eq_true fun employee => (other employee).elim

/-- What is left out is what the caller may not copy. -/
theorem skipped_eq (source : Timesheet) :
    db.skipped caller source =
      ((db.entriesOf source.id).filter
        fun e => ¬ MayCopy caller db e).length := by
  unfold Db.skipped
  rw [copyable_eq, List.length_eq_length_filter_add
    (l := db.entriesOf source.id) fun e => decide (MayCopy caller db e)]
  simp only [Nat.add_sub_cancel_left, decide_not]

theorem copiedColumns_copies {now : Instant} {id k : Nat}
    (entries : List TimeEntry) :
    (Table.stamped (entryRow now) k (entries.map (copiedEntry id))).map
      TimeEntry.copiedColumns = entries.map TimeEntry.copiedColumns := by
  have read := Table.map_stamped (entryRow now) TimeEntry.copiedColumns
    (fun data => (data.row 0 0).copiedColumns) (fun _ _ => rfl) k
    (entries.map (copiedEntry id))
  rw [read, List.map_map]
  rfl

/-- An edit that fills a timesheet with copies is a faithful copy. -/
theorem FaithfulCopy.of_edits {id : Nat} {source t : Timesheet} {now : Instant}
    (key : t.id = id) (edits : Edits caller id db after)
    (owns : Owns caller after t) (draft : t.status = .draft)
    (apart : source.id ≠ id)
    (filled : after.entriesOf id = Table.stamped (entryRow now)
      db.timeEntries.next ((db.copyable caller source).map (copiedEntry id)))
    (totals : SheetTotal t (db.copyable caller source)) :
    FaithfulCopy caller db after source t (db.skipped caller source) where
  owns := owns
  draft := draft
  entries := by
    rw [key, filled, copiedColumns_copies, copyable_eq]
  replaced := by
    intro e old new
    rw [key, filled] at new
    obtain ⟨item, -, k, least, rfl⟩ := Table.mem_stamped new
    have below := db.timeEntries.keys_below _ (Db.mem_entriesOf.mp old).1
    exact absurd below (Nat.not_lt.mpr least)
  totals := by
    rw [key, filled]
    exact totals.of_totals (totalsOf_copies _)
  skipped := skipped_eq source
  apart := key ▸ apart
  others u other :=
    ⟨edits.sheets u (key ▸ other), edits.entriesOf (key ▸ other)⟩

/-- A closed timesheet is not the draft that is written. -/
theorem CopiesTo.apart {target : JsDate} {source t : Timesheet}
    {week : Instant} (copies : CopiesTo host caller db target source week)
    (owns : Owns caller db t) (draft : t.status = .draft) :
    source.id ≠ t.id := by
  intro same
  obtain ⟨source_, closed⟩ := copies.source
  cases owns.eq_of_id source_.member same
  rcases closed with approved | submitted
  · rw [draft] at approved
    cases approved
  · rw [draft] at submitted
    cases submitted

end

/--
A copy that succeeds is faithful to its source and changes nothing else, and
one that fails changes nothing.
-/
theorem copy_faithful {db : Db} (integrity : db.Integrity) (host : Host)
    (caller : JwtPayload) (target : JsDate) (force : Bool) :
    wp (copyPreviousWeek host caller.userId caller.orgId target caller.role
      force) (fun answer after =>
        (∀ e, answer = .error e → after = db) ∧
        ∀ t skippedCount, answer = .ok (t, skippedCount) →
          ∃ source, CopiesTo host caller db target source t.weekStartDate ∧
            FaithfulCopy caller db after source t skippedCount) db := by
  refine wp_copyPreviousWeek ?_ ?_ ?_
  · intro e
    refine ⟨fun _ _ => rfl, ?_⟩
    intro t skippedCount absurd
    cases absurd
  · intro source data copies opens
    refine ⟨nofun, ?_⟩
    rintro t skippedCount same
    cases same
    have written : data.row host.now db.timesheets.next ∈ (db.openSheet
        host.now data (db.copyable caller source)).timesheets.rows :=
      Db.mem_openSheet.mpr (.inr rfl)
    have apart : source.id ≠ db.timesheets.next :=
      Nat.ne_of_lt (db.timesheets.keys_below _ copies.source.1.member)
    have key : (data.row host.now db.timesheets.next).id =
        db.timesheets.next := rfl
    have totals : SheetTotal (data.row host.now db.timesheets.next)
        (db.copyable caller source) :=
      ⟨opens.total, opens.billable⟩
    refine ⟨source, copies, ?_⟩
    exact .of_edits key (.open opens) ⟨written, opens.owner, opens.org⟩
      opens.draft apart (entriesOf_openSheet integrity) totals
  · intro source t copies found draft _
    refine ⟨nofun, ?_⟩
    have owns : Owns caller db t := .of_weekTimesheet found
    rintro row skippedCount same
    cases same
    have written : (totalsOf (db.copyable caller source)).apply host.now t ∈
        (db.overwriteSheet host.now t.id
          (db.copyable caller source)).timesheets.rows :=
      Db.mem_setSheet.mpr ⟨t, owns.member, by rw [if_pos rfl]⟩
    have edits : Edits caller t.id db (db.overwriteSheet host.now t.id
        (db.copyable caller source)) :=
      .overwrite owns (.inl draft)
    have key : ((totalsOf (db.copyable caller source)).apply host.now t).id =
        t.id := rfl
    have totals : SheetTotal
        ((totalsOf (db.copyable caller source)).apply host.now t)
        (db.copyable caller source) :=
      ⟨rfl, rfl⟩
    refine ⟨source, copies, ?_⟩
    exact .of_edits key edits ⟨written, owns.owner, owns.org⟩ draft
      (copies.apart owns draft) entriesOf_overwriteSheet totals

/-- Eve copies the submitted week into the next one. -/
theorem copy_faithful_office :
    let answer := (copyPreviousWeek plainHost eve.userId eve.orgId
      (some 1704672000000) eve.role false).exec submittedDb
    answer.1.isOk = true ∧
      ∀ t skippedCount, answer.1 = .ok (t, skippedCount) →
        ∃ source, FaithfulCopy eve submittedDb answer.2 source t
          skippedCount := by
  intro answer
  refine ⟨by decide +kernel, ?_⟩
  intro t skippedCount answered
  obtain ⟨source, -, faithful⟩ := (copy_faithful submittedDb_integrity
    plainHost eve (some 1704672000000) false).2 t skippedCount answered
  exact ⟨source, faithful⟩

/-! ## What a copy needs to succeed -/

/-- The texts of the entries fit into their columns. -/
def TextsFit (entries : List TimeEntry) : Prop :=
  ∀ e ∈ entries, e.desc.All text?

theorem textsFit_passesOn : PassesOn TextsFit :=
  passesOn_content fun data => data.desc.All text?

/-- Every request leaves entries whose texts fit. -/
theorem obeys_textsFit {orgId : Nat} {world : World}
    (holds : world.db.AllSheets orgId TextsFit) (request : Request) :
    Obeys orgId TextsFit world request := by
  unfold Obeys
  split
  · rintro - rfl - t rfl may
    have old := holds t may.owns.member may.owns.org
    exact (forall_afterCreate old).mpr may.fits
  · rintro - rfl - t e rfl rfl may
    have old := holds t may.owns.member may.owns.org
    exact (forall_afterUpdate may.entry old).mpr may.fits
  · trivial

/-- What is stored in a reachable state can be stored once more. -/
theorem stored_run (lib : Libs) (requests : List Request) :
    Stored (World.empty.run lib requests).db := by
  have fit : ∀ orgId,
      (World.empty.run lib requests).db.AllSheets orgId TextsFit := by
    intro orgId
    have kept : ∀ (world : World) (request : Request),
        (world.Sound ∧ Totals world.db) ∧ world.db.AllSheets orgId TextsFit →
          ((world.step lib request).Sound ∧
            Totals (world.step lib request).db) ∧
              (world.step lib request).db.AllSheets orgId TextsFit := by
      rintro world request ⟨⟨sound, totals⟩, holds⟩
      exact ⟨⟨sound.step lib request, sound.totals_step totals request⟩,
        sound.rule_kept totals textsFit_passesOn holds
          (obeys_textsFit holds request)⟩
    refine (World.run_invariant kept
      ⟨⟨World.sound_empty, totals_empty⟩, ?_⟩ requests).2
    intro t absurd
    exact (List.not_mem_nil absurd).elim
  refine ⟨(World.sound_run lib requests).integrity, ?_⟩
  intro e member
  obtain ⟨t, sheet, key⟩ :=
    (World.sound_run lib requests).integrity.entry_timesheet e member
  exact fit t.organisationId t sheet rfl e
    (Db.mem_entriesOf.mpr ⟨member, key.symm⟩)

/-! ## The source of a copy -/

/-- A submitted or approved timesheet of the caller from before a week. -/
structure ClosedBefore (caller : JwtPayload) (db : Db) (week : Instant)
    (t : Timesheet) : Prop where
  owns : Owns caller db t
  closed : t.status = .approved ∨ t.status = .submitted
  before : t.weekStartDate < week

/-- The one of the latest week. -/
def LatestBefore (caller : JwtPayload) (db : Db) (week : Instant)
    (t : Timesheet) : Prop :=
  ClosedBefore caller db week t ∧
    ∀ u, ClosedBefore caller db week u → u.weekStartDate ≤ t.weekStartDate

/-- The organisation lets its users copy weeks. -/
def Db.CopyEnabled (db : Db) (orgId : Nat) : Prop :=
  (db.settingsOf orgId).any (·.allowCopyWeek) = true

instance (db : Db) (orgId : Nat) : Decidable (db.CopyEnabled orgId) :=
  inferInstanceAs (Decidable (_ = _))

/-- The error of a copy without a source. -/
def noPrevious : Thrown :=
  .notFoundError "Previous submitted or approved timesheet"

/--
A copy into a week takes the entries of the latest earlier one; where there is
none it fails and changes nothing.
-/
def CopiesEarlier (host : Host) (caller : JwtPayload) (db : Db)
    (date : Instant) (force : Bool) : Prop :=
  wp (copyPreviousWeek host caller.userId caller.orgId (some date) caller.role
    force) (fun answer after =>
      (∀ t skippedCount, answer = .ok (t, skippedCount) →
        ∃ source, CopiesTo host caller db (some date) source t.weekStartDate ∧
          LatestBefore caller db t.weekStartDate source) ∧
      (db.CopyEnabled caller.orgId →
        (∀ t, ¬ ClosedBefore caller db
          (getWeekStart host.zone date (db.startDay caller.orgId)) t) →
          answer = .error noPrevious ∧ after = db)) db

/-- The latest closed timesheet of the caller, if any, is from before a week. -/
def SourceBefore (caller : JwtPayload) (db : Db) (week : Instant) : Prop :=
  ∀ source ∈ db.previousTimesheet caller.userId caller.orgId,
    source.weekStartDate < week

/-- The week is taken by a timesheet that the copy may not overwrite. -/
def Taken (caller : JwtPayload) (db : Db) (week : Instant) (force : Bool) :
    Prop :=
  ∃ t ∈ db.weekTimesheet caller.userId caller.orgId week,
    force = true → t.status ≠ .draft

section

variable {host : Host} {caller : JwtPayload} {db : Db} {date : Instant}
  {force : Bool}

theorem latest_eq_none {ts : List Timesheet} (none : latest ts = none) :
    ts = [] := by
  cases ts with
  | nil => rfl
  | cons t rest =>
      simp only [latest] at none
      split at none
      · split at none <;> cases none
      · cases none

/-- The latest timesheet of a list is not earlier than any other of it. -/
theorem le_latest {ts : List Timesheet} {t u : Timesheet}
    (found : latest ts = some t) (member : u ∈ ts) :
    u.weekStartDate ≤ t.weekStartDate := by
  induction ts generalizing t with
  | nil => cases member
  | cons head rest ih =>
      simp only [latest] at found
      split at found
      · rename_i later best
        have others : u ∈ rest → u.weekStartDate ≤ later.weekStartDate :=
          ih best
        split at found
        · rename_i sooner
          cases found
          rcases List.mem_cons.mp member with rfl | tail
          · exact le_of_lt sooner
          · exact others tail
        · rename_i notSooner
          cases found
          rcases List.mem_cons.mp member with rfl | tail
          · exact le_refl _
          · exact le_trans (others tail) (not_lt.mp notSooner)
      · rename_i alone
        rw [latest_eq_none alone] at member
        cases found
        cases List.mem_singleton.mp member
        exact le_refl _

/-- The source of a copy, compared with all other closed timesheets. -/
theorem latestBefore_of_previous {source : Timesheet} {week : Instant}
    (found : db.previousTimesheet caller.userId caller.orgId = some source)
    (before : source.weekStartDate < week) :
    LatestBefore caller db week source := by
  obtain ⟨member, owner, org, closed⟩ :=
    Table.mem_select.mp (mem_of_latest found)
  refine ⟨⟨⟨member, owner, org⟩, closed, before⟩, ?_⟩
  intro u other
  exact le_latest found (Table.mem_select.mpr ⟨other.owns.member,
    other.owns.owner, other.owns.org, other.closed⟩)

/-- Without a source a copy ends with the error and writes nothing. -/
theorem copy_without_source (enabled : db.CopyEnabled caller.orgId)
    (none : db.previousTimesheet caller.userId caller.orgId = none) :
    wp (copyPreviousWeek host caller.userId caller.orgId (some date)
      caller.role force) (fun answer after =>
        answer = .error noPrevious ∧ after = db) db := by
  rw [Db.CopyEnabled] at enabled
  simp only [copyPreviousWeek, wp_bind, wp_query, andThen_ok, wp_throwIf,
    enabled, none, Option.map_none, wp_orThrow, andThen_error, noPrevious]
  simp

/-- A copy where the feature is disabled fails. -/
theorem copy_disabled (disabled : ¬ db.CopyEnabled caller.orgId) :
    wp (copyPreviousWeek host caller.userId caller.orgId (some date)
      caller.role force)
      (fun answer _ => ∀ result, answer ≠ .ok result) db := by
  rw [Db.CopyEnabled] at disabled
  simp [copyPreviousWeek, disabled]

/-- A copy from an earlier source is one from the latest earlier week. -/
theorem copy_from_earlier
    (before : SourceBefore caller db
      (getWeekStart host.zone date (db.startDay caller.orgId))) :
    wp (copyPreviousWeek host caller.userId caller.orgId (some date)
      caller.role force) (fun answer _ =>
        ∀ t skippedCount, answer = .ok (t, skippedCount) →
          ∃ source, CopiesTo host caller db (some date) source
              t.weekStartDate ∧
            LatestBefore caller db t.weekStartDate source) db := by
  have latest {source : Timesheet} {week : Instant}
      (copies : CopiesTo host caller db (some date) source week) :
      LatestBefore caller db week source := by
    have target := Option.some.inj copies.week
    rw [← target]
    exact latestBefore_of_previous copies.latest (before source copies.latest)
  refine wp_copyPreviousWeek ?_ ?_ ?_
  · intro e t skippedCount absurd
    cases absurd
  · rintro source data copies opens t skippedCount same
    cases same
    exact ⟨source, copies, latest copies⟩
  · rintro source t copies found draft forced row skippedCount same
    cases same
    exact ⟨source, copies, latest copies⟩

/-- With a source a copy does not end with the error. -/
theorem copy_with_source {source : Timesheet}
    (found : db.previousTimesheet caller.userId caller.orgId = some source) :
    wp (copyPreviousWeek host caller.userId caller.orgId (some date)
      caller.role force) (fun answer _ => answer ≠ .error noPrevious) db := by
  simp only [copyPreviousWeek, wp_bind, wp_query, andThen_ok, wp_throwIf,
    found, Option.map_some, wp_orThrow, andThen_error, noPrevious]
  refine ⟨by simp, fun _ => ⟨by simp, ?_⟩⟩
  rintro previous -
  refine ⟨by simp, ?_⟩
  rintro week -
  have raises : (copyIntoWeek host caller.userId caller.orgId caller.role force
      previous week).Raises fun e => e ≠ noPrevious := by
    refine copyIntoWeek_raises ?_ ?_ ?_ <;> simp [noPrevious]
  refine wp_mono ?_ (raises.exec db)
  rintro answer after others rfl
  exact others _ rfl rfl

/-- A taken week is not written. -/
theorem copy_taken
    (taken : Taken caller db
      (getWeekStart host.zone date (db.startDay caller.orgId)) force) :
    wp (copyPreviousWeek host caller.userId caller.orgId (some date)
      caller.role force)
      (fun answer _ => ∀ result, answer ≠ .ok result) db := by
  obtain ⟨other, found, frozen⟩ := taken
  refine wp_copyPreviousWeek ?_ ?_ ?_
  · intro e result absurd
    cases absurd
  · intro source data copies opens
    have week := Option.some.inj copies.week
    have free := opens.free
    rw [← week, found] at free
    cases free
  · intro source t copies sheet draft forced
    have week := Option.some.inj copies.week
    rw [← week, found] at sheet
    cases sheet
    exact absurd draft (frozen forced)

/-- With a source and a week to write, a copy succeeds. -/
theorem copyIntoWeek_succeeds (stored : Stored db)
    (member : db.Member caller.userId caller.orgId) (source : Timesheet)
    {week : Instant} (free : ¬ Taken caller db week force) :
    wp (copyIntoWeek host caller.userId caller.orgId caller.role force
      (source, db.entriesOf source.id) week)
      (fun answer _ => ∃ result, answer = .ok result) db := by
  have copyable : ∀ e ∈ db.copyable caller source, Copyable db e := by
    intro e copied
    have listed := (db.copyable_sublist caller source).subset copied
    exact stored.copyable e (Db.mem_entriesOf.mp listed).1
  simp only [copyIntoWeek, wp_bind, wp_query, andThen_ok]
  cases existing : db.weekTimesheet caller.userId caller.orgId week with
  | none =>
      refine (wp_throwIf_of (by simp)).mpr ?_
      rw [andThen_ok, wp_bind]
      refine (wp_throwIf_of (by simp)).mpr ?_
      rw [andThen_ok, wp_bind, wp_copyableEntries, andThen_ok, wp_bind]
      obtain ⟨u, userMem, key, home⟩ := member
      have user : db.users.HasKey caller.userId := ⟨u, userMem, key⟩
      have org : db.organisations.HasKey caller.orgId :=
        home ▸ stored.1.user_org u userMem
      exact (wp_statement_of (createCopy_of host org user copyable)).mpr
        ⟨_, rfl⟩
  | some t =>
      have overwritable : force = true ∧ t.status = .draft := by
        by_contra frozen
        refine free ⟨t, existing, fun forced draft => frozen ⟨forced, draft⟩⟩
      refine (wp_throwIf_of (by simp [overwritable.1])).mpr ?_
      rw [andThen_ok, wp_bind]
      refine (wp_throwIf_of (by simp [overwritable.2])).mpr ?_
      rw [andThen_ok, wp_bind, wp_copyableEntries, andThen_ok, wp_bind]
      have projects : db.projects = db.projects := rfl
      have stored := (Owns.of_weekTimesheet existing).member
      obtain ⟨row, _, written⟩ :=
        overwriteEntries_of host projects stored rfl copyable
      exact (wp_statement_of written).mpr ⟨_, rfl⟩

theorem copy_succeeds (stored : Stored db)
    (member : db.Member caller.userId caller.orgId)
    (enabled : db.CopyEnabled caller.orgId) {source : Timesheet}
    (found : db.previousTimesheet caller.userId caller.orgId = some source)
    (free : ¬ Taken caller db
      (getWeekStart host.zone date (db.startDay caller.orgId)) force) :
    wp (copyPreviousWeek host caller.userId caller.orgId (some date)
      caller.role force)
      (fun answer _ => ∃ result, answer = .ok result) db := by
  rw [Db.CopyEnabled] at enabled
  simp only [copyPreviousWeek, wp_bind, wp_query, andThen_ok]
  refine (wp_throwIf_of (by simp [enabled])).mpr ?_
  simp only [andThen_ok, wp_bind, wp_query, found, Option.map_some,
    orThrow_some, wp_done]
  exact copyIntoWeek_succeeds stored member source free

/-- A copy that fails takes no entries from a later week. -/
theorem copiesEarlier_of_failing
    (fails : wp (copyPreviousWeek host caller.userId caller.orgId (some date)
      caller.role force)
      (fun answer _ => ∀ result, answer ≠ .ok result) db)
    (earlier : db.CopyEnabled caller.orgId → ∃ t, ClosedBefore caller db
      (getWeekStart host.zone date (db.startDay caller.orgId)) t) :
    CopiesEarlier host caller db date force := by
  refine wp_mono ?_ fails
  intro answer after failed
  constructor
  · intro t skippedCount answered
    exact (failed _ answered).elim
  · intro enabled none
    obtain ⟨t, closed⟩ := earlier enabled
    exact (none t closed).elim

/-- With an earlier source, or with none at all, the right week is copied. -/
theorem copiesEarlier_of_before (enabled : db.CopyEnabled caller.orgId)
    (before : SourceBefore caller db
      (getWeekStart host.zone date (db.startDay caller.orgId))) :
    CopiesEarlier host caller db date force := by
  cases found : db.previousTimesheet caller.userId caller.orgId with
  | none =>
      refine wp_mono ?_ (copy_without_source enabled found)
      rintro answer after ⟨rfl, unchanged⟩
      refine ⟨?_, fun _ _ => ⟨rfl, unchanged⟩⟩
      intro t skippedCount absurd
      cases absurd
  | some source =>
      have latest := latestBefore_of_previous found (before source found)
      refine wp_mono ?_ (copy_from_earlier before)
      intro answer after copied
      exact ⟨copied, fun _ none => (none source latest.1).elim⟩

end

/--
In a reachable state, a copy takes the latest earlier week exactly when the
feature is disabled, the latest closed timesheet is from before the week, or
the week is taken while an earlier closed timesheet exists.
-/
theorem copies_earlier_iff (lib : Libs) (requests : List Request)
    {caller : JwtPayload}
    (signed : caller ∈ (World.empty.run lib requests).issued) (host : Host)
    (date : Instant) (force : Bool) :
    let db := (World.empty.run lib requests).db
    let week := getWeekStart host.zone date (db.startDay caller.orgId)
    CopiesEarlier host caller db date force ↔
      (db.CopyEnabled caller.orgId →
        SourceBefore caller db week ∨
          ((∃ t, ClosedBefore caller db week t) ∧
            Taken caller db week force)) := by
  intro db week
  have stored : Stored db := stored_run lib requests
  have member : db.Member caller.userId caller.orgId :=
    (World.sound_run lib requests).callers caller signed
  constructor
  · intro earlier enabled
    by_contra neither
    obtain ⟨source, found, late⟩ : ∃ source ∈
        db.previousTimesheet caller.userId caller.orgId,
          ¬ source.weekStartDate < week := by
      by_contra all
      refine neither (.inl fun source found => ?_)
      by_contra late
      exact all ⟨source, found, late⟩
    by_cases exists_ : ∃ t, ClosedBefore caller db week t
    · have free : ¬ Taken caller db week force := fun taken =>
        neither (.inr ⟨exists_, taken⟩)
      obtain ⟨result, answered⟩ :=
        copy_succeeds stored member enabled found free
      obtain ⟨other, copies, latest, -⟩ := earlier.1 _ _ answered
      have same := Option.some.inj (found.symm.trans copies.latest)
      have target := Option.some.inj copies.week
      rw [← same, ← target] at latest
      exact late latest.before
    · have failed := earlier.2 enabled fun t closed => exists_ ⟨t, closed⟩
      exact copy_with_source found failed.1
  · intro condition
    by_cases enabled : db.CopyEnabled caller.orgId
    · rcases condition enabled with before | ⟨earlier, taken⟩
      · exact copiesEarlier_of_before enabled before
      · exact copiesEarlier_of_failing (copy_taken taken) fun _ => earlier
    · exact copiesEarlier_of_failing (copy_disabled enabled)
        fun on => (enabled on).elim

/-! ## A copy from a later week -/

/-- The run of `submittedDb`: Eve has submitted the first week of January. -/
def submittedRun : List Request :=
  officeRun ++ [.authenticated plainHost eve (.submitTimesheet 1)]

theorem eve_signed : eve ∈ (World.empty.run plainLibs submittedRun).issued := by
  decide +kernel

theorem copies_earlier_iff_next :
    CopiesEarlier plainHost eve submittedDb 1704672000000 false := by
  refine (copies_earlier_iff plainLibs submittedRun eve_signed plainHost
    1704672000000 false).mpr fun _ => .inl ?_
  intro source found
  have starts : ∀ t ∈ submittedDb.timesheets.rows,
      t.weekStartDate < getWeekStart plainHost.zone 1704672000000
        (submittedDb.startDay eve.orgId) := by
    decide +kernel
  exact starts source (Table.mem_select.mp (mem_of_latest found)).1

/-- The last week of December is filled from the first one of January. -/
theorem later_week_copied :
    eve ∈ (World.empty.run plainLibs submittedRun).issued ∧
    ((copyPreviousWeek plainHost eve.userId eve.orgId (some 1703462400000)
      eve.role false).exec submittedDb).1.isOk = true ∧
    ¬ CopiesEarlier plainHost eve submittedDb 1703462400000 false := by
  have copied : ((copyPreviousWeek plainHost eve.userId eve.orgId
      (some 1703462400000) eve.role false).exec submittedDb).1.isOk =
        true := by
    decide +kernel
  refine ⟨eve_signed, copied, ?_⟩
  intro earlier
  have starts : ∀ t ∈ submittedDb.timesheets.rows,
      ¬ t.weekStartDate < getWeekStart plainHost.zone 1703462400000
        (submittedDb.startDay eve.orgId) := by
    decide +kernel
  have failed := (earlier.2 (by decide +kernel) fun t closed =>
    starts t closed.owns.member closed.before).1
  rw [failed] at copied
  cases copied

end TmsApi
