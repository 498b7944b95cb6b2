import TmsApi.Refinement.Footprint
import TmsApi.Refinement.Runs
import Mathlib.Tactic.Ring

/-!
# The hours booked on a project

`usedHours` is a counter that approvals increment and nothing recomputes.  It
nevertheless equals the hours of the approved entries of the project: an edit
never touches an approved timesheet, an approval books each entry of the
timesheet once, and project changes keep the counter.
-/

namespace TmsApi

open TmsApi.Core

namespace Db

/-- The timesheet of this key is approved. -/
def Approved (db : Db) (timesheetId : Nat) : Prop :=
  ∃ t ∈ db.timesheets.rows, t.id = timesheetId ∧ t.status = .approved

instance (db : Db) (timesheetId : Nat) : Decidable (db.Approved timesheetId) :=
  inferInstanceAs (Decidable (∃ t ∈ db.timesheets.rows, _))

/-- The approved entries of a project. -/
def approvedEntries (db : Db) (projectId : Nat) : List TimeEntry :=
  db.timeEntries.select fun e =>
    e.projectId = projectId ∧ db.Approved e.timesheetId

/-- Their hours. -/
def bookedHours (db : Db) (projectId : Nat) : ℚ :=
  ((db.approvedEntries projectId).map (·.totalHours)).sum

/-- Every project has the hours of its approved entries. -/
def Ledger (db : Db) : Prop :=
  ∀ p ∈ db.projects.rows, p.usedHours = db.bookedHours p.id

theorem ledger_empty : Ledger .empty := by
  intro p member
  simp [empty] at member

end Db

/-! ## Edits and rejections -/

section Edits

variable {caller : JwtPayload} {db after : Db}

/-- No edit approves or disapproves anything. -/
theorem Edits.approved {id : Nat} (edits : Edits caller id db after)
    (other : Nat) : after.Approved other ↔ db.Approved other := by
  constructor
  · rintro ⟨t, member, key, approved⟩
    have apart : t.id ≠ id :=
      fun same => edits.undecided t member same approved
    exact ⟨t, (edits.sheets t apart).mp member, key, approved⟩
  · rintro ⟨t, member, key, approved⟩
    have apart : t.id ≠ id :=
      fun same => (edits.editable t member same).not_approved approved
    exact ⟨t, (edits.sheets t apart).mpr member, key, approved⟩

theorem Edits.approvedEntries {id : Nat} (edits : Edits caller id db after)
    (projectId : Nat) :
    after.approvedEntries projectId = db.approvedEntries projectId := by
  simp only [Db.approvedEntries, edits.approved]
  refine edits.entries _ ?_
  rintro e ⟨_, t, member, key, approved⟩ same
  exact (edits.editable t member (key.trans same)).not_approved approved

theorem Db.bookedHours_of_same
    (entries : after.timeEntries = db.timeEntries)
    (approved : ∀ id, after.Approved id ↔ db.Approved id) :
    after.bookedHours = db.bookedHours := by
  funext projectId
  simp only [Db.bookedHours, Db.approvedEntries, entries, approved]

/-- With the same entries, approvals and projects the ledger is the same. -/
theorem Db.Ledger.of_same (holds : db.Ledger)
    (entries : after.timeEntries = db.timeEntries)
    (approved : ∀ id, after.Approved id ↔ db.Approved id)
    (projects : after.projects = db.projects) : after.Ledger := by
  intro p member
  rw [projects] at member
  rw [holds p member, Db.bookedHours_of_same entries approved]

theorem Db.Ledger.edit {id : Nat} (holds : db.Ledger)
    (edits : Edits caller id db after) : after.Ledger := by
  intro p member
  rw [edits.projects] at member
  rw [holds p member, Db.bookedHours, Db.bookedHours,
    edits.approvedEntries]

theorem approved_rejection {now : Instant} {t : Timesheet} {reason : String}
    (member : t ∈ db.timesheets.rows) (submitted : t.status = .submitted)
    (id : Nat) :
    (db.setSheet now t.id (Db.rejection reason)).Approved id ↔
      db.Approved id := by
  constructor
  · rintro ⟨row, rowMem, key, approved⟩
    rcases Db.mem_setSheet.mp rowMem with ⟨old, oldMem, rfl⟩
    by_cases same : old.id = t.id
    · simp [same, TimesheetUpdate.apply, Db.rejection] at approved
    · rw [if_neg same] at key approved
      exact ⟨old, oldMem, key, approved⟩
  · rintro ⟨row, rowMem, key, approved⟩
    have apart : row.id ≠ t.id := by
      intro same
      rw [db.timesheets.eq_of_key rowMem member same, submitted] at approved
      cases approved
    exact ⟨row, (mem_setSheet_other apart).mpr rowMem, key, approved⟩

end Edits

/-! ## Approvals -/

section Approvals

/-- A sum over two disjoint selections is the sum of the sums. -/
theorem sum_filter_or {α : Type} (p q : α → Prop) [DecidablePred p]
    [DecidablePred q] (f : α → ℚ) (xs : List α)
    (disjoint : ∀ a ∈ xs, p a → ¬ q a) :
    ((xs.filter fun a => p a ∨ q a).map f).sum =
      ((xs.filter fun a => p a).map f).sum +
        ((xs.filter fun a => q a).map f).sum := by
  induction xs with
  | nil => simp
  | cons a xs ih =>
      have tail := ih fun b member => disjoint b (List.mem_cons_of_mem _ member)
      by_cases left : p a
      · have right := disjoint a List.mem_cons_self left
        simp [left, right] at tail ⊢
        rw [tail, add_assoc]
      · by_cases right : q a
        · simp [left, right] at tail ⊢
          rw [tail]
          ring
        · simpa [left, right] using tail

variable {db : Db} {now : Instant} {approver : Nat} {t : Timesheet}

/-- An approval approves its timesheet and no other. -/
theorem approved_approve (member : t ∈ db.timesheets.rows) (id : Nat) :
    (db.approve now approver t).Approved id ↔
      db.Approved id ∨ id = t.id := by
  constructor
  · rintro ⟨row, rowMem, key, approved⟩
    rcases Db.mem_setSheet.mp rowMem with ⟨old, oldMem, rfl⟩
    by_cases same : old.id = t.id
    · rw [if_pos same] at key
      exact .inr (key.symm.trans same)
    · rw [if_neg same] at key approved
      exact .inl ⟨old, oldMem, key, approved⟩
  · rintro (⟨row, rowMem, key, approved⟩ | rfl)
    · by_cases same : row.id = t.id
      · exact ⟨_, Db.mem_setSheet.mpr ⟨row, rowMem, rfl⟩,
          by rw [if_pos same]; exact key, by rw [if_pos same]; rfl⟩
      · exact ⟨row, (mem_setSheet_other same).mpr rowMem, key, approved⟩
    · exact ⟨_, Db.mem_setSheet.mpr ⟨t, member, rfl⟩,
        by rw [if_pos rfl]; rfl, by rw [if_pos rfl]; rfl⟩

theorem Db.Ledger.approve (holds : db.Ledger)
    (member : t ∈ db.timesheets.rows) (submitted : t.status = .submitted) :
    (db.approve now approver t).Ledger := by
  intro p pMem
  rcases mem_bookAll.mp pMem with ⟨old, oldMem, rfl⟩
  have fresh : ¬ db.Approved t.id := by
    rintro ⟨row, rowMem, key, approved⟩
    rw [db.timesheets.eq_of_key rowMem member key, submitted] at approved
    cases approved
  have split := sum_filter_or
    (fun e : TimeEntry => e.projectId = old.id ∧ db.Approved e.timesheetId)
    (fun e => e.projectId = old.id ∧ e.timesheetId = t.id)
    (·.totalHours) db.timeEntries.rows
    (fun e _ left right => fresh (right.2 ▸ left.2))
  have booked : (db.approve now approver t).bookedHours old.id =
      db.bookedHours old.id +
        (((db.entriesOf t.id).filter fun e => e.projectId = old.id).map
          (·.totalHours)).sum := by
    simp only [Db.bookedHours, Db.approvedEntries, approved_approve member,
      Table.select, Db.entriesOf, List.filter_filter, ← and_or_left,
      ← Bool.decide_and] at split ⊢
    exact split
  show old.usedHours + _ = _
  rw [holds old oldMem]
  exact booked.symm

end Approvals

/-! ## Every reachable database -/

section Runs

variable {db after : Db}

theorem Db.Ledger.beside (integrity : db.Integrity) (holds : db.Ledger)
    (beside : Beside db after) : after.Ledger := by
  have same : after.bookedHours = db.bookedHours :=
    Db.bookedHours_of_same beside.timeEntries fun id => by
      simp only [Db.Approved, beside.timesheets]
  intro p member
  rw [same]
  rcases beside.hours p member with ⟨q, qMem, key, used⟩ | ⟨fresh, none⟩
  · rw [← used, ← key]
    exact holds q qMem
  · -- No entry refers to a project that did not exist.
    have empty : db.approvedEntries p.id = [] := by
      rw [Db.approvedEntries, Table.select, List.filter_eq_nil_iff]
      intro e eMem
      have below : e.projectId < db.projects.next :=
        (integrity.entry_project e eMem).below
      have apart : e.projectId ≠ p.id := by
        intro equal
        omega
      simp [apart]
    rw [none, Db.bookedHours, empty]
    rfl

theorem Db.Ledger.sheetChange {host : Host} {caller : JwtPayload}
    {call : Call} (holds : db.Ledger)
    (change : SheetChange host caller call db after) : after.Ledger := by
  rcases change.footprint with
    ⟨id, edits⟩ | ⟨t, may, _, rfl⟩ | ⟨t, reason, may, entries, projects, sheets⟩
  · exact holds.edit edits
  · exact holds.approve may.member may.submitted
  · refine holds.of_same entries (fun id => ?_) projects
    have approved :
        (db.setSheet host.now t.id (Db.rejection reason)).Approved id ↔
          db.Approved id :=
      approved_rejection may.member may.submitted id
    simpa only [Db.Approved, sheets] using approved

theorem ledger_run (lib : Libs) (requests : List Request) :
    (World.empty.run lib requests).db.Ledger :=
  World.run_sheets Db.ledger_empty
    (fun _ _ _ _ _ _ holds change => holds.sheetChange change)
    (fun _ _ integrity holds beside => holds.beside integrity beside)
    lib requests

/--
In every database the service can reach, the used hours of a project are the
hours of its entries on approved timesheets.
-/
theorem usedHours_eq_approved (lib : Libs) (requests : List Request) :
    let db := (World.empty.run lib requests).db
    ∀ p ∈ db.projects.rows,
      p.usedHours =
        ((db.timeEntries.rows.filter fun e =>
          e.projectId = p.id ∧ ∃ t ∈ db.timesheets.rows,
            t.id = e.timesheetId ∧ t.status = .approved).map
          (·.totalHours)).sum := by
  intro db p member
  exact ledger_run lib requests p member

end Runs

end TmsApi
