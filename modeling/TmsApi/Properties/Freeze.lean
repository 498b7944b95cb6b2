import TmsApi.Refinement.Runs

/-!
# Immutability after submission

While a timesheet is submitted its totals, its week and its entries stay as
they are until it is rejected, and an approved timesheet and its entries never
change again.  Every write path guards its timesheet by a status that is open
for editing, so a closed one is out of reach of every edit.
-/

namespace TmsApi

open TmsApi.Core

/-- Submitted or approved: closed for editing. -/
def Closed (t : Timesheet) : Prop :=
  t.status = .submitted ∨ t.status = .approved

theorem Closed.not_editable {t : Timesheet} (closed : Closed t) :
    ¬ Editable t := by
  rintro (draft | rejected) <;> rcases closed with status | status <;>
    simp_all

/-- The columns that are not status, audit or bookkeeping columns. -/
structure SameContent (t new : Timesheet) : Prop where
  id : new.id = t.id
  organisation : new.organisationId = t.organisationId
  owner : new.userId = t.userId
  weekStart : new.weekStartDate = t.weekStartDate
  weekEnd : new.weekEndDate = t.weekEndDate
  total : new.totalHours = t.totalHours
  billable : new.billableHours = t.billableHours

theorem SameContent.refl (t : Timesheet) : SameContent t t := by
  constructor <;> rfl

theorem SameContent.trans {first second third : Timesheet}
    (left : SameContent first second) (right : SameContent second third) :
    SameContent first third where
  id := right.id.trans left.id
  organisation := right.organisation.trans left.organisation
  owner := right.owner.trans left.owner
  weekStart := right.weekStart.trans left.weekStart
  weekEnd := right.weekEnd.trans left.weekEnd
  total := right.total.trans left.total
  billable := right.billable.trans left.billable

/-! ## One change -/

section Changes

variable {host : Host} {caller : JwtPayload} {call : Call} {db after : Db}
  {t new : Timesheet}

/-- A closed row only changes by a decision on it. -/
theorem Becomes.frozen (becomes : Becomes host caller call db t new)
    (closed : Closed t) :
    SameContent t new ∧ (Closed new ∨ new.status = .rejected) ∧
      (t.status = .approved → new = t) := by
  cases becomes with
  | kept => exact ⟨.refl t, .inl closed, fun _ => rfl⟩
  | totalled entries owns editable => exact (closed.not_editable editable).elim
  | moved dto owns draft made => exact (closed.not_editable (.inl draft)).elim
  | submitted owns editable => exact (closed.not_editable editable).elim
  | approved may =>
      refine ⟨by constructor <;> rfl, .inl (.inr rfl), fun approved => ?_⟩
      rw [may.submitted] at approved
      cases approved
  | rejected reason may =>
      refine ⟨by constructor <;> rfl, .inr rfl, fun approved => ?_⟩
      rw [may.submitted] at approved
      cases approved

/-- No change reaches the entries of a closed timesheet. -/
theorem SheetChange.entries_frozen
    (change : SheetChange host caller call db after)
    (member : t ∈ db.timesheets.rows) (closed : Closed t) :
    after.entriesOf t.id = db.entriesOf t.id := by
  rcases change.footprint with
    ⟨id, edits⟩ | ⟨other, may, _, rfl⟩ | ⟨other, reason, may, entries, _, _⟩
  · refine edits.entriesOf fun same => ?_
    exact closed.not_editable (edits.editable t member same)
  · rfl
  · simp [Db.entriesOf, entries]

end Changes

/-! ## Runs -/

namespace World

variable {world : World} {t : Timesheet}

/-- One request leaves a closed timesheet as it is, or decides on it. -/
theorem Sound.frozen (sound : world.Sound) (lib : Libs) (request : Request)
    (member : t ∈ world.db.timesheets.rows) (closed : Closed t) :
    (∃ new ∈ (world.step lib request).db.timesheets.rows,
      SameContent t new ∧ (Closed new ∨ new.status = .rejected) ∧
        (t.status = .approved → new = t)) ∧
      (world.step lib request).db.entriesOf t.id =
        world.db.entriesOf t.id := by
  rcases sound.sheet_or_beside lib request with
    ⟨host, caller, call, _, _, change⟩ | beside
  · refine ⟨?_, change.entries_frozen member closed⟩
    rcases change.fate member with ⟨new, newMem, becomes⟩ | ⟨_, draft, _⟩
    · exact ⟨new, newMem, becomes.frozen closed⟩
    · exact (closed.not_editable (.inl draft)).elim
  · refine ⟨⟨t, beside.timesheets ▸ member, .refl t, .inl closed,
      fun _ => rfl⟩, ?_⟩
    simp [Db.entriesOf, beside.timeEntries]

/-- The timesheet is rejected in no state before the last of the run. -/
def Unrejected (lib : Libs) (world : World) (requests : List Request)
    (id : Nat) : Prop :=
  ∀ before, before <+: requests → before ≠ requests →
    ∀ row ∈ (world.run lib before).db.timesheets.rows,
      row.id = id → row.status ≠ .rejected

theorem Unrejected.tail {lib : Libs} {request : Request}
    {requests : List Request} {id : Nat}
    (unrejected : Unrejected lib world (request :: requests) id) :
    Unrejected lib (world.step lib request) requests id :=
  fun before initial proper => unrejected (request :: before)
    (List.cons_prefix_cons.mpr ⟨rfl, initial⟩)
    (mt List.tail_eq_of_cons_eq proper)

/-- Until it is rejected, a closed timesheet keeps content and entries. -/
theorem Sound.frozen_run (sound : world.Sound) (lib : Libs)
    (requests : List Request) (member : t ∈ world.db.timesheets.rows)
    (closed : Closed t) (unrejected : Unrejected lib world requests t.id) :
    (∃ new ∈ (world.run lib requests).db.timesheets.rows,
      SameContent t new) ∧
      (world.run lib requests).db.entriesOf t.id =
        world.db.entriesOf t.id := by
  induction requests generalizing world t with
  | nil => exact ⟨⟨t, member, .refl t⟩, rfl⟩
  | cons request requests ih =>
      rcases sound.frozen lib request member closed with
        ⟨⟨new, newMem, same, status, _⟩, entries⟩
      by_cases ended : requests = []
      · subst ended
        exact ⟨⟨new, newMem, same⟩, entries⟩
      have stillClosed : Closed new := by
        refine status.resolve_right ?_
        exact unrejected [request] (by simp) (by simpa using Ne.symm ended)
          new newMem same.id
      have tail := ih (sound.step lib request) newMem stillClosed
        (same.id ▸ unrejected.tail)
      rw [same.id] at tail
      rcases tail with ⟨⟨last, lastMem, rest⟩, kept⟩
      exact ⟨⟨last, lastMem, same.trans rest⟩, kept.trans entries⟩

/-- An approved timesheet and its entries stay for the rest of the run. -/
theorem Sound.approved_run (sound : world.Sound) (lib : Libs)
    (requests : List Request) (member : t ∈ world.db.timesheets.rows)
    (approved : t.status = .approved) :
    t ∈ (world.run lib requests).db.timesheets.rows ∧
      (world.run lib requests).db.entriesOf t.id =
        world.db.entriesOf t.id := by
  induction requests generalizing world with
  | nil => exact ⟨member, rfl⟩
  | cons request requests ih =>
      rcases sound.frozen lib request member (.inr approved) with
        ⟨⟨new, newMem, _, _, same⟩, entries⟩
      rw [same approved] at newMem
      rcases ih (sound.step lib request) newMem with ⟨stays, kept⟩
      exact ⟨stays, kept.trans entries⟩

end World

/--
A timesheet that is submitted after a run keeps its content and its entries
through every continuation up to its rejection, and an approved one its whole
row and its entries through every continuation.
-/
theorem immutable_after_submission (lib : Libs)
    (requests more : List Request) (t : Timesheet)
    (member : t ∈ (World.empty.run lib requests).db.timesheets.rows) :
    let before := World.empty.run lib requests
    let after := World.empty.run lib (requests ++ more)
    (t.status = .submitted →
      World.Unrejected lib before more t.id →
      (∃ new ∈ after.db.timesheets.rows, SameContent t new) ∧
        after.db.entriesOf t.id = before.db.entriesOf t.id) ∧
    (t.status = .approved →
      t ∈ after.db.timesheets.rows ∧
        after.db.entriesOf t.id = before.db.entriesOf t.id) := by
  intro before after
  have sound : before.Sound := World.sound_run lib requests
  have split : after = before.run lib more := World.run_append lib _ _ _
  rw [split]
  exact ⟨fun submitted unrejected =>
      sound.frozen_run lib more member (.inl submitted) unrejected,
    fun approved => sound.approved_run lib more member approved⟩

/-- Eve submits her timesheet and Ada approves it. -/
def approvedRun : List Request :=
  officeRun ++
    [.authenticated plainHost eve (.submitTimesheet 1),
      .authenticated plainHost ada (.approveTimesheet 1)]

/-- The approved timesheet outlives a request to delete it. -/
theorem immutable_after_submission_deletion :
    ∃ t ∈ (World.empty.run plainLibs approvedRun).db.timesheets.rows,
      t ∈ (World.empty.run plainLibs (approvedRun ++
        [.authenticated plainHost eve
          (.deleteTimesheet t.id)])).db.timesheets.rows := by
  have approved :
      ∃ t ∈ (World.empty.run plainLibs approvedRun).db.timesheets.rows,
        t.status = .approved := by
    decide +kernel
  rcases approved with ⟨t, member, status⟩
  exact ⟨t, member, ((immutable_after_submission plainLibs approvedRun
    [.authenticated plainHost eve (.deleteTimesheet t.id)] t member).2
      status).1⟩

end TmsApi
