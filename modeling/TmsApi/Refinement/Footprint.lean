import TmsApi.Refinement.Changes

/-!
# The footprint of a sheet change

A sheet change is either an edit of one timesheet or a decision on one.  An
edit leaves every other timesheet, the entries of every other timesheet and
all projects alone; the edited timesheet was open for editing before and is
not approved afterwards.  A decision leaves all entries alone.

`Becomes` says what is made of a single timesheet row, and
`SheetChange.origin` where the rows after a change come from.  The invariants
of later modules are derived from these lemmas.
-/

namespace TmsApi

open TmsApi.Core

/-- An edit of the caller's timesheet `id`, seen from everything else. -/
structure Edits (caller : JwtPayload) (id : Nat) (before after : Db) :
    Prop where
  entries : ∀ (q : TimeEntry → Prop) [DecidablePred q],
    (∀ e, q e → e.timesheetId ≠ id) →
      after.timeEntries.select q = before.timeEntries.select q
  sheets : ∀ t : Timesheet, t.id ≠ id →
    (t ∈ after.timesheets.rows ↔ t ∈ before.timesheets.rows)
  projects : after.projects = before.projects
  own : ∀ t ∈ before.timesheets.rows, t.id = id → Owns caller before t
  editable : ∀ t ∈ before.timesheets.rows, t.id = id → Editable t
  undecided : ∀ t ∈ after.timesheets.rows, t.id = id → t.status ≠ .approved

/-- The entries of another timesheet are the same list. -/
theorem Edits.entriesOf {caller : JwtPayload} {id other : Nat}
    {before after : Db} (edits : Edits caller id before after)
    (apart : other ≠ id) :
    after.entriesOf other = before.entriesOf other :=
  edits.entries _ fun _ belongs => belongs ▸ apart

section

variable {host : Host} {caller : JwtPayload} {call : Call} {db after : Db}

theorem Editable.not_approved {t : Timesheet} (editable : Editable t) :
    t.status ≠ .approved := by
  rcases editable with draft | rejected
  · simp [draft]
  · simp [rejected]

/-- The timesheet of a key is determined. -/
theorem Owns.eq_of_id {t other : Timesheet} (owns : Owns caller db t)
    (member : other ∈ db.timesheets.rows) (key : other.id = t.id) :
    other = t :=
  db.timesheets.eq_of_key member owns.member key

theorem mem_setSheet_other {now : Instant} {id : Nat}
    {data : TimesheetUpdate} {t : Timesheet} (apart : t.id ≠ id) :
    t ∈ (db.setSheet now id data).timesheets.rows ↔
      t ∈ db.timesheets.rows := by
  rw [Db.mem_setSheet]
  constructor
  · rintro ⟨old, oldMem, rfl⟩
    by_cases touched : old.id = id
    · simp [touched] at apart
    · simpa [touched] using oldMem
  · intro member
    exact ⟨t, member, by simp [apart]⟩

/-- Writing columns of an open timesheet other than an approval. -/
theorem Edits.set {t : Timesheet} {now : Instant} {data : TimesheetUpdate}
    {mid : Db} (owns : Owns caller db t) (editable : Editable t)
    (status : ∀ status ∈ data.status, status ≠ .approved)
    (sheets : mid.timesheets = db.timesheets)
    (projects : mid.projects = db.projects)
    (entries : ∀ (q : TimeEntry → Prop) [DecidablePred q],
      (∀ e, q e → e.timesheetId ≠ t.id) →
        mid.timeEntries.select q = db.timeEntries.select q) :
    Edits caller t.id db (mid.setSheet now t.id data) where
  entries := entries
  sheets other apart := by
    rw [mem_setSheet_other apart, sheets]
  projects := projects
  own other member key := owns.eq_of_id member key ▸ owns
  editable other member key := owns.eq_of_id member key ▸ editable
  undecided other member key := by
    rcases Db.mem_setSheet.mp member with ⟨old, oldMem, rfl⟩
    rw [sheets] at oldMem
    have same : old.id = t.id := by
      by_contra apart
      simp [apart] at key
    cases owns.eq_of_id oldMem same
    simp only [if_true, TimesheetUpdate.apply]
    cases given : data.status with
    | none => exact editable.not_approved
    | some s => exact status s given

/-- A new draft edits the key it is given. -/
theorem Edits.open {data : TimesheetData} {entries : List TimeEntry}
    (opens : Opens host caller db data entries) :
    Edits caller db.timesheets.next db
      (db.openSheet host.now data entries) where
  entries q _ avoids := by
    refine Table.select_insertMany ?_
    intro item member k selected
    rcases List.mem_map.mp member with ⟨e, _, rfl⟩
    exact avoids _ selected rfl
  sheets t apart := by
    rw [Db.mem_openSheet]
    refine ⟨fun member => member.resolve_right ?_, .inl⟩
    rintro rfl
    exact apart rfl
  projects := rfl
  own t member key :=
    (Nat.ne_of_lt (db.timesheets.keys_below t member) key).elim
  editable t member key :=
    (Nat.ne_of_lt (db.timesheets.keys_below t member) key).elim
  undecided t member key := by
    rcases Db.mem_openSheet.mp member with old | rfl
    · exact (Nat.ne_of_lt (db.timesheets.keys_below t old) key).elim
    · simp [TimesheetData.row, opens.draft]

theorem Edits.drop {t : Timesheet} (owns : Owns caller db t)
    (editable : Editable t) :
    Edits caller t.id db (db.dropSheet t.id) where
  entries q _ avoids :=
    Table.select_deleteWhere fun e _ gone selected =>
      avoids e selected gone
  sheets other apart := by
    rw [Db.mem_dropSheet]
    exact ⟨fun member => member.1, fun member => ⟨member, apart⟩⟩
  projects := rfl
  own other member key := owns.eq_of_id member key ▸ owns
  editable other member key := owns.eq_of_id member key ▸ editable
  undecided other member key := ((Db.mem_dropSheet.mp member).2 key).elim

/-- The entry of a key is determined, and so is its timesheet. -/
theorem entry_sheet {e row : TimeEntry} {id : Nat}
    (entry : e ∈ db.entriesOf id) (member : row ∈ db.timeEntries.rows)
    (key : row.id = e.id) : row.timesheetId = id := by
  rcases Db.mem_entriesOf.mp entry with ⟨entryMem, sheet⟩
  rw [db.timeEntries.eq_of_key member entryMem key, sheet]

theorem Edits.overwrite {t : Timesheet} {now : Instant}
    {entries : List TimeEntry} (owns : Owns caller db t)
    (editable : Editable t) :
    Edits caller t.id db (db.overwriteSheet now t.id entries) := by
  refine .set owns editable (by intro _ given; cases given) rfl rfl
    fun q _ avoids => ?_
  refine (Table.select_insertMany ?_).trans
    (Table.select_deleteWhere fun e _ gone selected =>
      avoids e selected gone)
  intro item member k selected
  rcases List.mem_map.mp member with ⟨e, _, rfl⟩
  exact avoids _ selected rfl

theorem Edits.addEntry {t : Timesheet} {now : Instant}
    {data : TimeEntryData} (owns : Owns caller db t)
    (editable : Editable t) (sheet : data.timesheetId = t.id) :
    Edits caller t.id db
      ((db.insertEntry now data).recalculated now t.id) := by
  refine .set owns editable (by intro _ given; cases given) rfl rfl
    fun q _ avoids => ?_
  have away : ¬ q (data.row now db.timeEntries.next) :=
    fun selected => avoids _ selected sheet
  exact (Table.select_insert q).trans (by simp [away])

theorem Edits.setEntry {t : Timesheet} {e : TimeEntry} {now : Instant}
    {data : TimeEntryUpdate} (owns : Owns caller db t)
    (editable : Editable t) (entry : e ∈ db.entriesOf t.id) :
    Edits caller t.id db
      ((db.setEntry e.id data).recalculated now t.id) := by
  refine .set owns editable (by intro _ given; cases given) rfl rfl
    fun q _ avoids => ?_
  refine Table.select_modify fun row member touched => ?_
  have sheet := entry_sheet entry member touched
  exact ⟨fun selected => avoids _ selected sheet,
    fun selected => avoids _ selected sheet⟩

theorem Edits.dropEntry {t : Timesheet} {e : TimeEntry} {now : Instant}
    (owns : Owns caller db t) (editable : Editable t)
    (entry : e ∈ db.entriesOf t.id) :
    Edits caller t.id db
      ((db.dropEntry e.id).recalculated now t.id) := by
  refine .set owns editable (by intro _ given; cases given) rfl rfl
    fun q _ avoids => ?_
  refine Table.select_deleteWhere fun row member gone selected => ?_
  exact avoids row selected (entry_sheet entry member gone)

/-- A sheet change is an edit of one timesheet or a decision on one. -/
theorem SheetChange.footprint (change : SheetChange host caller call db after) :
    (∃ id, Edits caller id db after) ∨
      (∃ t, MayDecide caller db t ∧ call = .approveTimesheet t.id ∧
        after = db.approve host.now caller.userId t) ∨
      ∃ t reason, MayDecide caller db t ∧
        after.timeEntries = db.timeEntries ∧
        after.projects = db.projects ∧
        after.timesheets =
          (db.setSheet host.now t.id (Db.rejection reason)).timesheets := by
  cases change with
  | opened data entries opens source =>
      exact .inl ⟨_, .open opens⟩
  | overwritten t entries owns draft source =>
      exact .inl ⟨t.id, .overwrite owns (.inl draft)⟩
  | moved t dto owns draft made =>
      exact .inl ⟨t.id, .set owns (.inl draft)
        (by intro _ given; cases given) rfl rfl fun _ _ _ => rfl⟩
  | dropped t owns draft =>
      exact .inl ⟨t.id, .drop owns (.inl draft)⟩
  | submitted t owns editable =>
      exact .inl ⟨t.id, .set owns editable
        (by intro _ given; cases given; simp) rfl rfl fun _ _ _ => rfl⟩
  | entryAdded t data owns editable sheet total nonneg project =>
      exact .inl ⟨t.id, .addEntry owns editable sheet⟩
  | entryChanged t e dto owns editable entry accepted project assigned =>
      exact .inl ⟨t.id, .setEntry owns editable entry⟩
  | entryDropped t e owns editable entry =>
      exact .inl ⟨t.id, .dropEntry owns editable entry⟩
  | approved t may made => exact .inr (.inl ⟨t, may, made, rfl⟩)
  | rejected t reason may =>
      exact .inr (.inr ⟨t, reason, may, rfl, rfl, rfl⟩)
  | rejectedSilently t reason may tooLong =>
      exact .inr (.inr ⟨t, reason, may, rfl, rfl, rfl⟩)

/-! ## The fate of a row -/

/-- What a sheet change makes of a timesheet it does not drop. -/
inductive Becomes (host : Host) (caller : JwtPayload) (call : Call)
    (db : Db) (t : Timesheet) : Timesheet → Prop where
  | kept : Becomes host caller call db t t
  | totalled (entries : List TimeEntry) (owns : Owns caller db t)
      (editable : Editable t) :
      Becomes host caller call db t ((totalsOf entries).apply host.now t)
  | moved (dto : UpdateTimesheetDto) (owns : Owns caller db t)
      (draft : t.status = .draft)
      (made : call = .updateTimesheet t.id dto) :
      Becomes host caller call db t ((Db.move dto).apply host.now t)
  | submitted (owns : Owns caller db t) (editable : Editable t) :
      Becomes host caller call db t ((Db.submission t).apply host.now t)
  | approved (may : MayDecide caller db t) :
      Becomes host caller call db t
        ((Db.approval host.now caller.userId).apply host.now t)
  | rejected (reason : String) (may : MayDecide caller db t) :
      Becomes host caller call db t ((Db.rejection reason).apply host.now t)

theorem Becomes.id {t new : Timesheet}
    (becomes : Becomes host caller call db t new) : new.id = t.id := by
  cases becomes <;> rfl

/-- The written row has its new columns and every other row is kept. -/
theorem fate_set {t old : Timesheet} {now : Instant}
    {data : TimesheetUpdate} (member : t ∈ db.timesheets.rows)
    (sheets : after.timesheets = (db.setSheet now t.id data).timesheets)
    (oldMem : old ∈ db.timesheets.rows) :
    old ∈ after.timesheets.rows ∨
      old = t ∧ data.apply now t ∈ after.timesheets.rows := by
  rw [sheets]
  by_cases same : old.id = t.id
  · cases db.timesheets.eq_of_key oldMem member same
    exact .inr ⟨rfl, Db.mem_setSheet.mpr ⟨t, member, by simp⟩⟩
  · exact .inl ((mem_setSheet_other same).mpr oldMem)

/-- A row is dropped as a draft or becomes a row of the same key. -/
theorem SheetChange.fate (change : SheetChange host caller call db after)
    {old : Timesheet} (member : old ∈ db.timesheets.rows) :
    (∃ new ∈ after.timesheets.rows, Becomes host caller call db old new) ∨
      (Owns caller db old ∧ old.status = .draft ∧
        ¬ after.timesheets.HasKey old.id) := by
  have ofSet {t : Timesheet} {data : TimesheetUpdate}
      (tMem : t ∈ db.timesheets.rows)
      (sheets :
        after.timesheets = (db.setSheet host.now t.id data).timesheets)
      (becomes : Becomes host caller call db t (data.apply host.now t)) :
      ∃ new ∈ after.timesheets.rows, Becomes host caller call db old new := by
    rcases fate_set tMem sheets member with kept | ⟨rfl, row⟩
    · exact ⟨old, kept, .kept⟩
    · exact ⟨_, row, becomes⟩
  cases change with
  | opened data entries opens source =>
      exact .inl ⟨old, Db.mem_openSheet.mpr (.inl member), .kept⟩
  | overwritten t entries owns draft source =>
      exact .inl (ofSet owns.member rfl (.totalled _ owns (.inl draft)))
  | moved t dto owns draft made =>
      exact .inl (ofSet owns.member rfl (.moved dto owns draft made))
  | dropped t owns draft =>
      by_cases same : old.id = t.id
      · cases owns.eq_of_id member same
        refine .inr ⟨owns, draft, ?_⟩
        rintro ⟨row, rowMem, key⟩
        exact (Db.mem_dropSheet.mp rowMem).2 key
      · exact .inl ⟨old, Db.mem_dropSheet.mpr ⟨member, same⟩, .kept⟩
  | submitted t owns editable =>
      exact .inl (ofSet owns.member rfl (.submitted owns editable))
  | entryAdded t data owns editable sheet total nonneg project =>
      exact .inl (ofSet owns.member rfl (.totalled _ owns editable))
  | entryChanged t e dto owns editable entry accepted project assigned =>
      exact .inl (ofSet owns.member rfl (.totalled _ owns editable))
  | entryDropped t e owns editable entry =>
      exact .inl (ofSet owns.member rfl (.totalled _ owns editable))
  | approved t may made =>
      exact .inl (ofSet may.member rfl (.approved may))
  | rejected t reason may =>
      exact .inl (ofSet may.member rfl (.rejected reason may))
  | rejectedSilently t reason may tooLong =>
      exact .inl (ofSet may.member rfl (.rejected reason may))

/-- The keys after a change are old keys and the key of a new draft. -/
theorem SheetChange.key_origin (change : SheetChange host caller call db after)
    {new : Timesheet} (member : new ∈ after.timesheets.rows) :
    db.timesheets.HasKey new.id ∨
      ∃ data entries, Opens host caller db data entries ∧
        new = data.row host.now db.timesheets.next := by
  have ofSet {now : Instant} {id : Nat} {data : TimesheetUpdate} {mid : Db}
      (sheets : mid.timesheets = db.timesheets)
      (member : new ∈ (mid.setSheet now id data).timesheets.rows) :
      db.timesheets.HasKey new.id := by
    rcases Db.mem_setSheet.mp member with ⟨old, oldMem, rfl⟩
    rw [sheets] at oldMem
    refine ⟨old, oldMem, ?_⟩
    split <;> rfl
  cases change with
  | opened data entries opens source =>
      rcases Db.mem_openSheet.mp member with kept | rfl
      · exact .inl ⟨new, kept, rfl⟩
      · exact .inr ⟨data, entries, opens, rfl⟩
  | dropped other owns draft =>
      exact .inl ⟨new, (Db.mem_dropSheet.mp member).1, rfl⟩
  | overwritten => exact .inl (ofSet rfl member)
  | moved => exact .inl (ofSet rfl member)
  | submitted => exact .inl (ofSet rfl member)
  | entryAdded => exact .inl (ofSet rfl member)
  | entryChanged => exact .inl (ofSet rfl member)
  | entryDropped => exact .inl (ofSet rfl member)
  | approved => exact .inl (ofSet rfl member)
  | rejected => exact .inl (ofSet rfl member)
  | rejectedSilently => exact .inl (ofSet rfl member)

/-- A row after a change is what an old row became, or a new draft. -/
theorem SheetChange.origin (change : SheetChange host caller call db after)
    {new : Timesheet} (member : new ∈ after.timesheets.rows) :
    (∃ old ∈ db.timesheets.rows, Becomes host caller call db old new) ∨
      ∃ data entries, Opens host caller db data entries ∧
        new = data.row host.now db.timesheets.next := by
  rcases change.key_origin member with ⟨old, oldMem, key⟩ | opened
  · refine .inl ⟨old, oldMem, ?_⟩
    rcases change.fate oldMem with ⟨row, rowMem, becomes⟩ | ⟨_, _, gone⟩
    · have same : row.id = new.id := becomes.id.trans key
      rwa [after.timesheets.eq_of_key rowMem member same] at becomes
    · exact (gone ⟨new, member, key.symm⟩).elim
  · exact .inr opened

/-- A property of rows that every change of a row keeps. -/
theorem SheetChange.rows_keep {P : Timesheet → Prop}
    (change : SheetChange host caller call db after)
    (holds : ∀ t ∈ db.timesheets.rows, P t)
    (opened : ∀ data entries, Opens host caller db data entries →
      P (data.row host.now db.timesheets.next))
    (becomes : ∀ t ∈ db.timesheets.rows, ∀ new,
      Becomes host caller call db t new → P t → P new) :
    ∀ t ∈ after.timesheets.rows, P t := by
  intro new member
  rcases change.origin member with
    ⟨old, oldMem, becoming⟩ | ⟨data, entries, opens, rfl⟩
  · exact becomes old oldMem new becoming (holds old oldMem)
  · exact opened data entries opens

end

end TmsApi
