import TmsApi.Properties.Totals

/-!
# Which routes write the days of an entry

Only `createEntry` and `updateEntry` put hours and descriptions of a body into
the database.  Every other route leaves the entries of each timesheet a part
of those some timesheet of the same organisation had before: copies, what a
deletion spares, or the entries as they were.

A rule on the entries of single timesheets that passes on to parts is
therefore kept by every route but those two, and for those two it is a
question about one list of entries.  `World.rule_iff` states this for whole
runs.
-/

namespace TmsApi

open TmsApi.Core
open TmsApi.Core.Program

/-! ## Parts of timesheets -/

/-- What an entry shares with its copies. -/
def TimeEntry.content (e : TimeEntry) : TimeEntryData := copiedEntry 0 e

/-- The entries are part of those of a timesheet, up to copying. -/
def PartOf (db : Db) (orgId : Nat) (entries : List TimeEntry) : Prop :=
  entries = [] ∨ ∃ old ∈ db.timesheets.rows, old.organisationId = orgId ∧
    (entries.map TimeEntry.content).Sublist
      ((db.entriesOf old.id).map TimeEntry.content)

/-- Every timesheet has a part of the entries of an earlier one. -/
def Inherits (db after : Db) : Prop :=
  ∀ t ∈ after.timesheets.rows,
    PartOf db t.organisationId (after.entriesOf t.id)

section Inherits

variable {host : Host} {caller : JwtPayload} {db after : Db} {now : Instant}

theorem PartOf.of_sublist {old : Timesheet} {entries : List TimeEntry}
    (member : old ∈ db.timesheets.rows)
    (part : entries.Sublist (db.entriesOf old.id)) :
    PartOf db old.organisationId entries :=
  .inr ⟨old, member, rfl, part.map _⟩

theorem Inherits.refl (db : Db) : Inherits db db :=
  fun _ member => .of_sublist member (List.Sublist.refl _)

/-- An edit whose own timesheet has a part of earlier entries. -/
theorem Inherits.edit {id : Nat} (edits : Edits caller id db after)
    (own : ∀ t ∈ after.timesheets.rows, t.id = id →
      PartOf db t.organisationId (after.entriesOf id)) :
    Inherits db after := by
  intro t member
  by_cases same : t.id = id
  · rw [same]
    exact own t member same
  · rw [edits.entriesOf same]
    exact .of_sublist ((edits.sheets t same).mp member) (List.Sublist.refl _)

/-- Writing columns of a timesheet moves no entry. -/
theorem Inherits.set {id : Nat} {data : TimesheetUpdate}
    (entries : after.timeEntries = db.timeEntries)
    (sheets : after.timesheets = (db.setSheet now id data).timesheets) :
    Inherits db after := by
  intro t member
  rw [sheets] at member
  rcases Db.mem_setSheet.mp member with ⟨old, oldMem, rfl⟩
  have same : after.entriesOf old.id = db.entriesOf old.id := by
    simp [Db.entriesOf, entries]
  have whole : PartOf db old.organisationId (after.entriesOf old.id) := by
    rw [same]
    exact .of_sublist oldMem (List.Sublist.refl _)
  split <;> exact whole

theorem Inherits.beside (beside : Beside db after) : Inherits db after := by
  intro t member
  rw [beside.timesheets] at member
  have same : after.entriesOf t.id = db.entriesOf t.id := by
    simp [Db.entriesOf, beside.timeEntries]
  rw [same]
  exact .of_sublist member (List.Sublist.refl _)

/-- Copies have the contents of their sources. -/
theorem map_content_copies {id k : Nat} (entries : List TimeEntry) :
    (Table.stamped (entryRow now) k (entries.map (copiedEntry id))).map
      TimeEntry.content = entries.map TimeEntry.content := by
  have read := Table.map_stamped (entryRow now) TimeEntry.content
    (fun data => (data.row 0 0).content) (fun _ _ => rfl) k
    (entries.map (copiedEntry id))
  rw [read, List.map_map]
  rfl

/-- Copies of what a copy takes from its source. -/
theorem CopiesTo.partOf {target : JsDate} {source : Timesheet}
    {week : Instant} (copies : CopiesTo host caller db target source week)
    (id k : Nat) :
    PartOf db caller.orgId (Table.stamped (entryRow now) k
      ((db.copyable caller source).map (copiedEntry id))) := by
  have owns := copies.source.1
  refine .inr ⟨source, owns.member, owns.org, ?_⟩
  rw [map_content_copies]
  exact (db.copyable_sublist caller source).map _

theorem Inherits.opened {data : TimesheetData} {entries : List TimeEntry}
    (integrity : db.Integrity) (opens : Opens host caller db data entries)
    (part : PartOf db caller.orgId (Table.stamped (entryRow host.now)
      db.timeEntries.next
      (entries.map (copiedEntry db.timesheets.next)))) :
    Inherits db (db.openSheet host.now data entries) := by
  refine .edit (.open opens) fun t member key => ?_
  rw [entriesOf_openSheet integrity]
  rcases Db.mem_openSheet.mp member with old | rfl
  · exact (Nat.ne_of_lt (db.timesheets.keys_below t old) key).elim
  · rw [← opens.org] at part
    exact part

theorem Inherits.overwritten {t : Timesheet} {entries : List TimeEntry}
    (owns : Owns caller db t) (draft : t.status = .draft)
    (part : PartOf db caller.orgId (Table.stamped (entryRow now)
      db.timeEntries.next (entries.map (copiedEntry t.id)))) :
    Inherits db (db.overwriteSheet now t.id entries) := by
  refine .edit (.overwrite owns (.inl draft)) fun row member key => ?_
  rw [entriesOf_overwriteSheet]
  rcases Db.mem_setSheet.mp member with ⟨old, oldMem, rfl⟩
  have same : old.id = t.id := by
    by_contra apart
    simp [apart] at key
  cases owns.eq_of_id oldMem same
  rw [if_pos rfl, TimesheetUpdate.apply_organisationId, owns.org]
  exact part

theorem Inherits.dropped {t : Timesheet} (owns : Owns caller db t)
    (draft : t.status = .draft) : Inherits db (db.dropSheet t.id) := by
  refine .edit (.drop owns (.inl draft)) fun row member key => ?_
  exact ((Db.mem_dropSheet.mp member).2 key).elim

theorem Inherits.entryDropped {t : Timesheet} {e : TimeEntry}
    (owns : Owns caller db t) (editable : Editable t)
    (entry : e ∈ db.entriesOf t.id) :
    Inherits db ((db.dropEntry e.id).recalculated now t.id) := by
  refine .edit (.dropEntry owns editable entry) fun row member key => ?_
  rcases Db.mem_setSheet.mp member with ⟨old, oldMem, rfl⟩
  have same : old.id = t.id := by
    by_contra apart
    simp [apart] at key
  cases owns.eq_of_id oldMem same
  rw [if_pos rfl, TimesheetUpdate.apply_organisationId]
  exact .of_sublist owns.member (List.filter_sublist.filter _)

end Inherits

/-! ## The routes -/

/-- What a request does to the entries of the timesheets. -/
inductive EntryStep (host : Host) (caller : JwtPayload) (db : Db) :
    Call → Db → Prop where
  | inherits {call : Call} {after : Db} (inherits : Inherits db after) :
      EntryStep host caller db call after
  | created (t : Timesheet) (dto : CreateTimeEntryDto)
      (accepted : Schemas.createTimeEntrySchema dto = [])
      (may : MayCreate caller db t dto) :
      EntryStep host caller db (.createEntry t.id dto)
        (db.withEntry host.now t dto)
  | updated (t : Timesheet) (e : TimeEntry) (dto : UpdateTimeEntryDto)
      (accepted : Schemas.updateTimeEntrySchema dto = [])
      (may : MayUpdate caller db t e dto) :
      EntryStep host caller db (.updateEntry t.id e.id dto)
        (db.withUpdate host.now t e dto)

section Routes

variable {lib : Libs} {host : Host} {caller : JwtPayload} {db : Db}

/-- A request off the timesheets leaves them and their entries alone. -/
theorem OffSheets.beside {call : Call} {after : Db} (holds : db.Integrity)
    (off : OffSheets lib host caller call db after) : Beside db after := by
  cases off with
  | team steps =>
      exact .of_chain (fun _ _ => SideChange.beside)
        (TeamSteps.side holds steps)
  | aside effect =>
      rcases effect.step with rfl | aside
      · exact .refl _
      · exact aside.change.beside

theorem handle_entries (holds : db.Integrity) (call : Call) :
    wp (handle lib host caller call)
      (fun _ => EntryStep host caller db call) db := by
  have here : EntryStep host caller db call db := .inherits (.refl db)
  cases call with
  | createTimesheet dto =>
      refine wp_respond (wp_createTimesheet (fun _ => here) ?_)
      intro data opens
      exact .inherits (.opened holds opens (.inl rfl))
  | copyPreviousWeek targetWeekStart force =>
      refine wp_respond (wp_copyPreviousWeek (fun _ => here) ?_ ?_)
      · intro source data copies opens
        exact .inherits (.opened holds opens (copies.partOf _ _))
      · intro source t copies found draft _
        exact .inherits (.overwritten (.of_weekTimesheet found) draft
          (copies.partOf _ _))
  | updateTimesheet id dto =>
      refine wp_respond (wp_updateTimesheet (fun _ => here) ?_)
      intro t row _ _ _
      exact .inherits (.set rfl rfl)
  | deleteTimesheet id =>
      refine wp_respond (wp_deleteTimesheet (fun _ => here) ?_)
      intro t owns _ draft
      exact .inherits (.dropped owns draft)
  | submitTimesheet id =>
      refine wp_respond (wp_submitTimesheet (fun _ => here) ?_)
      intro t row _ _ _
      exact .inherits (.set rfl rfl)
  | createEntry timesheetId dto =>
      refine wp_guarded here fun accepted => ?_
      refine wp_respond (wp_createEntry (fun _ => here) ?_)
      rintro t e rfl may
      exact .created t dto (not_not.mp accepted) may
  | updateEntry timesheetId entryId dto =>
      refine wp_guarded here fun accepted => ?_
      refine wp_respond (wp_updateEntry (fun _ => here) ?_)
      rintro t e row rfl rfl may
      exact .updated t e dto (not_not.mp accepted) may
  | deleteEntry timesheetId entryId =>
      refine wp_respond (wp_deleteEntry (fun _ => here) ?_)
      intro t e owns editable _ entry _
      exact .inherits (.entryDropped owns editable entry)
  | approveTimesheet id =>
      refine wp_guarded here fun role => ?_
      refine wp_respond
        (wp_approveTimesheet holds (managing role) (fun _ => here) ?_)
      intro t row _ _
      exact .inherits (.set rfl rfl)
  | rejectTimesheet id dto =>
      refine wp_guarded here fun role => wp_guarded here fun _ => ?_
      refine wp_respond
        (wp_rejectTimesheet holds (managing role) (fun _ => here) ?_ ?_)
      · intro t e _ _ _
        exact .inherits (.set rfl rfl)
      · intro t row _ _
        exact .inherits (.set rfl rfl)
  | _ =>
      refine wp_mono ?_ (handle_offSheets holds id)
      intro _ after off
      exact .inherits (.beside (off.beside holds))

/-- A request to create an entry that passes its checks creates it. -/
theorem handle_createEntry {t : Timesheet} {dto : CreateTimeEntryDto}
    (accepted : Schemas.createTimeEntrySchema dto = [])
    (may : MayCreate caller db t dto) :
    wp (handle lib host caller (.createEntry t.id dto))
      (fun _ after => after = db.withEntry host.now t dto) db := by
  simp only [handle, validate, wp_bind]
  refine (wp_throwIf_of (by simp [accepted])).mpr ?_
  simp only [andThen_ok, wp_bind]
  exact (wp_createEntry_of may).mpr rfl

/-- A request to update an entry that passes its checks updates it. -/
theorem handle_updateEntry {t : Timesheet} {e : TimeEntry}
    {dto : UpdateTimeEntryDto}
    (accepted : Schemas.updateTimeEntrySchema dto = [])
    (may : MayUpdate caller db t e dto) :
    wp (handle lib host caller (.updateEntry t.id e.id dto))
      (fun _ after => after = db.withUpdate host.now t e dto) db := by
  simp only [handle, validate, wp_bind]
  refine (wp_throwIf_of (by simp [accepted])).mpr ?_
  simp only [andThen_ok, wp_bind]
  exact (wp_updateEntry_of may).mpr rfl

end Routes

/-! ## Rules on the entries of single timesheets -/

/-- A rule on lists of entries, for the timesheets of an organisation. -/
def Db.AllSheets (orgId : Nat) (rule : List TimeEntry → Prop) (db : Db) :
    Prop :=
  ∀ t ∈ db.timesheets.rows, t.organisationId = orgId →
    rule (db.entriesOf t.id)

instance (orgId : Nat) (rule : List TimeEntry → Prop) [DecidablePred rule]
    (db : Db) : Decidable (db.AllSheets orgId rule) :=
  inferInstanceAs (Decidable (∀ t ∈ db.timesheets.rows, _))

/-- The rule holds of no entries, and it passes on to parts. -/
structure PassesOn (rule : List TimeEntry → Prop) : Prop where
  nil : rule []
  part : ∀ entries part, (∀ e ∈ entries, EntryTotal e) → rule entries →
    (part.map TimeEntry.content).Sublist (entries.map TimeEntry.content) →
    rule part

/-- The entries of a timesheet after `createEntry`. -/
def afterCreate (db : Db) (now : Instant) (t : Timesheet)
    (dto : CreateTimeEntryDto) : List TimeEntry :=
  db.entriesOf t.id ++
    [entryRow now (createdEntry t.id dto) db.timeEntries.next]

/-- The entries of a timesheet after `updateEntry`. -/
def afterUpdate (db : Db) (t : Timesheet) (e : TimeEntry)
    (dto : UpdateTimeEntryDto) : List TimeEntry :=
  (db.entriesOf t.id).map fun other =>
    if other.id = e.id then (mergedEntry dto e).apply e else other

/-- The rule holds of the entries a request is about to leave. -/
def Obeys (orgId : Nat) (rule : List TimeEntry → Prop) (world : World) :
    Request → Prop
  | .authenticated host caller (.createEntry id dto) =>
      caller ∈ world.issued → caller.orgId = orgId →
      Schemas.createTimeEntrySchema dto = [] →
      ∀ t, t.id = id → MayCreate caller world.db t dto →
        rule (afterCreate world.db host.now t dto)
  | .authenticated _ caller (.updateEntry id entryId dto) =>
      caller ∈ world.issued → caller.orgId = orgId →
      Schemas.updateTimeEntrySchema dto = [] →
      ∀ t e, t.id = id → e.id = entryId → MayUpdate caller world.db t e dto →
        rule (afterUpdate world.db t e dto)
  | _ => True

section Rules

variable {host : Host} {caller : JwtPayload} {db after : Db} {now : Instant}
  {orgId : Nat} {rule : List TimeEntry → Prop}

theorem entriesOf_withEntry {t : Timesheet} {dto : CreateTimeEntryDto} :
    (db.withEntry now t dto).entriesOf t.id = afterCreate db now t dto := by
  refine (Table.select_insert _).trans ?_
  exact congrArg (db.entriesOf t.id ++ ·) (if_pos rfl)

theorem entriesOf_withUpdate {t : Timesheet} {e : TimeEntry}
    {dto : UpdateTimeEntryDto} (entry : e ∈ db.entriesOf t.id) :
    (db.withUpdate now t e dto).entriesOf t.id = afterUpdate db t e dto := by
  have selected : (db.setEntry e.id (mergedEntry dto e)).entriesOf t.id =
      (db.entriesOf t.id).map fun other =>
        if other.id = e.id then (mergedEntry dto e).apply other else other :=
    Table.select_modify_map fun _ _ _ => Iff.rfl
  refine selected.trans (List.map_congr_left fun row member => ?_)
  by_cases same : row.id = e.id
  · have row_e : row = e :=
      db.timeEntries.eq_of_key (Db.mem_entriesOf.mp member).1
        (Db.mem_entriesOf.mp entry).1 same
    rw [row_e]
  · rw [if_neg same, if_neg same]

/-- A rule on the content of each entry passes on to parts. -/
theorem passesOn_content (p : TimeEntryData → Prop) :
    PassesOn fun entries => ∀ e ∈ entries, p e.content where
  nil e member := (List.not_mem_nil member).elim
  part entries part _ holds sub := by
    intro e member
    have kept : e.content ∈ entries.map TimeEntry.content :=
      sub.subset (List.mem_map_of_mem member)
    obtain ⟨source, sourceMem, same⟩ := List.mem_map.mp kept
    rw [← same]
    exact holds source sourceMem

/-- Among obeying entries a new one decides. -/
theorem forall_afterCreate {t : Timesheet} {dto : CreateTimeEntryDto}
    {p : TimeEntry → Prop} (old : ∀ e ∈ db.entriesOf t.id, p e) :
    (∀ e ∈ afterCreate db now t dto, p e) ↔
      p (entryRow now (createdEntry t.id dto) db.timeEntries.next) := by
  unfold afterCreate
  rw [List.forall_mem_append, List.forall_mem_singleton]
  exact and_iff_right old

/-- Among obeying entries the updated one decides. -/
theorem forall_afterUpdate {t : Timesheet} {e : TimeEntry}
    {dto : UpdateTimeEntryDto} (entry : e ∈ db.entriesOf t.id)
    {p : TimeEntry → Prop} (old : ∀ e ∈ db.entriesOf t.id, p e) :
    (∀ row ∈ afterUpdate db t e dto, p row) ↔
      p ((mergedEntry dto e).apply e) := by
  constructor
  · intro all
    have updated : (mergedEntry dto e).apply e ∈ afterUpdate db t e dto :=
      List.mem_map.mpr ⟨e, entry, if_pos rfl⟩
    exact all _ updated
  · intro holds row member
    obtain ⟨other, otherMem, rfl⟩ := List.mem_map.mp member
    split
    · exact holds
    · exact old other otherMem

/-- Inherited entries obey the rule. -/
theorem Inherits.allSheets (inherits : Inherits db after)
    (passes : PassesOn rule) (totals : Totals db)
    (holds : db.AllSheets orgId rule) : after.AllSheets orgId rule := by
  intro t member org
  rcases inherits t member with none | ⟨old, oldMem, same, part⟩
  · rw [none]
    exact passes.nil
  · exact passes.part _ _
      (fun e entry => totals.entry e (Db.mem_entriesOf.mp entry).1)
      (holds old oldMem (same.trans org)) part

/-- An edit keeps the rule exactly when its own timesheet obeys it. -/
theorem Edits.allSheets_iff {t : Timesheet}
    (edits : Edits caller t.id db after) (owns : Owns caller db t)
    (stays : ∃ new ∈ after.timesheets.rows, new.id = t.id ∧
      new.organisationId = t.organisationId)
    (holds : db.AllSheets orgId rule) :
    after.AllSheets orgId rule ↔
      (caller.orgId = orgId → rule (after.entriesOf t.id)) := by
  rcases stays with ⟨new, newMem, key, sameOrg⟩
  constructor
  · intro obeys home
    rw [← key]
    exact obeys new newMem (sameOrg.trans (owns.org.trans home))
  · intro own row member org
    by_cases same : row.id = t.id
    · have row_new : row = new :=
        after.timesheets.eq_of_key member newMem (same.trans key.symm)
      rw [same]
      refine own (owns.org.symm.trans ?_)
      rw [← sameOrg, ← row_new]
      exact org
    · rw [edits.entriesOf same]
      exact holds row ((edits.sheets row same).mp member) org

/-- The timesheet whose totals are recalculated stays. -/
theorem recalculated_stays {t : Timesheet} {mid : Db}
    (member : t ∈ mid.timesheets.rows) :
    ∃ new ∈ (mid.recalculated now t.id).timesheets.rows, new.id = t.id ∧
      new.organisationId = t.organisationId :=
  ⟨(totalsOf (mid.entriesOf t.id)).apply now t,
    Db.mem_setSheet.mpr ⟨t, member, by simp⟩, rfl, rfl⟩

theorem MayCreate.allSheets_iff {t : Timesheet} {dto : CreateTimeEntryDto}
    (may : MayCreate caller db t dto) (holds : db.AllSheets orgId rule) :
    (db.withEntry now t dto).AllSheets orgId rule ↔
      (caller.orgId = orgId → rule (afterCreate db now t dto)) := by
  rw [← entriesOf_withEntry]
  refine Edits.allSheets_iff ?_ may.owns ?_ holds
  · exact .addEntry may.owns may.editable rfl
  · exact recalculated_stays may.owns.member

theorem MayUpdate.allSheets_iff {t : Timesheet} {e : TimeEntry}
    {dto : UpdateTimeEntryDto} (may : MayUpdate caller db t e dto)
    (holds : db.AllSheets orgId rule) :
    (db.withUpdate now t e dto).AllSheets orgId rule ↔
      (caller.orgId = orgId → rule (afterUpdate db t e dto)) := by
  have own : (db.withUpdate now t e dto).entriesOf t.id =
      afterUpdate db t e dto := entriesOf_withUpdate may.entry
  rw [← own]
  refine Edits.allSheets_iff ?_ may.owns ?_ holds
  · exact .setEntry may.owns may.editable may.entry
  · exact recalculated_stays may.owns.member

end Rules

namespace World

variable {lib : Libs} {world : World} {orgId : Nat}
  {rule : List TimeEntry → Prop}

theorem step_createEntry {host : Host} {caller : JwtPayload} {t : Timesheet}
    {dto : CreateTimeEntryDto} (signed : caller ∈ world.issued)
    (accepted : Schemas.createTimeEntrySchema dto = [])
    (may : MayCreate caller world.db t dto) :
    (world.step lib (.authenticated host caller (.createEntry t.id dto))).db =
      world.db.withEntry host.now t dto := by
  rw [step_signed signed]
  exact handle_createEntry accepted may

theorem step_updateEntry {host : Host} {caller : JwtPayload} {t : Timesheet}
    {e : TimeEntry} {dto : UpdateTimeEntryDto}
    (signed : caller ∈ world.issued)
    (accepted : Schemas.updateTimeEntrySchema dto = [])
    (may : MayUpdate caller world.db t e dto) :
    (world.step lib
      (.authenticated host caller (.updateEntry t.id e.id dto))).db =
      world.db.withUpdate host.now t e dto := by
  rw [step_signed signed]
  exact handle_updateEntry accepted may

/-- A request that obeys the rule keeps it. -/
theorem Sound.rule_kept (sound : world.Sound) (totals : Totals world.db)
    (passes : PassesOn rule) (holds : world.db.AllSheets orgId rule)
    {request : Request} (obeys : Obeys orgId rule world request) :
    (world.step lib request).db.AllSheets orgId rule := by
  cases request with
  | anonymous host call =>
      rcases sound.sheet_or_beside lib (.anonymous host call) with
        ⟨_, _, _, same, _⟩ | beside
      · cases same
      · exact (Inherits.beside beside).allSheets passes totals holds
  | authenticated host caller call =>
      by_cases signed : caller ∈ world.issued
      · generalize made : (world.step lib
          (.authenticated host caller call)).db = after
        rw [step_signed signed] at made
        have step : EntryStep host caller world.db call after :=
          made ▸ handle_entries sound.integrity call
        cases step with
        | inherits inherits => exact inherits.allSheets passes totals holds
        | created t dto accepted may =>
            refine (may.allSheets_iff holds).mpr fun home => ?_
            exact obeys signed home accepted t rfl may
        | updated t e dto accepted may =>
            refine (may.allSheets_iff holds).mpr fun home => ?_
            exact obeys signed home accepted t e rfl rfl may
      · simpa [World.step, serve, signed] using holds

/-- One request keeps the rule exactly when it obeys it. -/
theorem Sound.rule_iff (sound : world.Sound) (totals : Totals world.db)
    (passes : PassesOn rule) (holds : world.db.AllSheets orgId rule)
    (request : Request) :
    (world.step lib request).db.AllSheets orgId rule ↔
      Obeys orgId rule world request := by
  refine ⟨fun after => ?_, sound.rule_kept totals passes holds⟩
  unfold Obeys
  split
  · rename_i host caller id dto
    rintro signed home accepted t rfl may
    rw [step_createEntry signed accepted may] at after
    exact (may.allSheets_iff holds).mp after home
  · rename_i host caller id entryId dto
    rintro signed home accepted t e rfl rfl may
    rw [step_updateEntry signed accepted may] at after
    exact (may.allSheets_iff holds).mp after home
  · trivial

theorem Sound.totals_step (sound : world.Sound) (totals : Totals world.db)
    (request : Request) : Totals (world.step lib request).db := by
  rcases sound.sheet_or_beside lib request with
    ⟨host, caller, call, _, _, change⟩ | beside
  · exact totals.sheetChange sound.integrity change
  · exact totals.beside beside

/--
From a reachable database that obeys a rule, all states of a run obey it
exactly when every request meets what obeying amounts to.
-/
theorem rule_always_iff (lib : Libs) (passes : PassesOn rule)
    {steady : World → Prop} {condition : World → Request → Prop}
    (amounts : ∀ world request, steady world →
      world.db.AllSheets orgId rule →
      (Obeys orgId rule world request ↔ condition world request))
    (before requests : List Request)
    (constant : Always steady lib (empty.run lib before) requests)
    (start : (empty.run lib before).db.AllSheets orgId rule) :
    Always (fun world => world.db.AllSheets orgId rule) lib
        (empty.run lib before) requests ↔
      Along condition lib (empty.run lib before) requests := by
  have keeps : ∀ (world : World) (request : Request),
      world.Sound ∧ Totals world.db →
        (world.step lib request).Sound ∧
          Totals (world.step lib request).db := by
    rintro world request ⟨sound, totals⟩
    exact ⟨sound.step lib request, sound.totals_step totals request⟩
  refine always_iff_along keeps ?_ ⟨sound_run lib before, totals_run lib before⟩
    start constant
  rintro world request ⟨sound, totals⟩ set holds
  exact (sound.rule_iff totals passes holds request).trans
    (amounts world request set holds)

end World

end TmsApi
