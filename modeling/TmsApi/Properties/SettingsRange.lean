import TmsApi.Refinement.TeamRuns
import Mathlib.Tactic.NormNum

/-!
# Settings stay in the range of their schema

The settings of an organisation begin with the column defaults and are written
by one route only, behind the schema that bounds them.  Every stored row is
therefore within the bounds the schema states, whatever the order of requests.
-/

namespace TmsApi

open TmsApi.Core
open TmsApi.Core.Program

/-- The bounds of `updateSettingsSchema` on a stored row. -/
structure OrgSettings.InRange (s : OrgSettings) : Prop where
  standardHours : 0 ≤ s.standardHours ∧ s.standardHours ≤ (24 : ℕ)
  timeIncrement : s.timeIncrement = 15 ∨ s.timeIncrement = 30 ∨
    s.timeIncrement = 60
  maxHoursPerDay : 0 ≤ s.maxHoursPerDay ∧ s.maxHoursPerDay ≤ (24 : ℕ)
  maxHoursPerWeek : 0 ≤ s.maxHoursPerWeek ∧ s.maxHoursPerWeek ≤ (168 : ℕ)
  dailyReminderTime : ∀ time ∈ s.dailyReminderTime,
    Schemas.isHhMm time = true

/-- Every default passes its own check. -/
theorem OrgSettings.defaults_inRange (organisationId id : Nat) :
    (OrgSettings.defaults organisationId id).InRange where
  standardHours := by norm_num [OrgSettings.defaults]
  timeIncrement := .inr (.inl rfl)
  maxHoursPerDay := by norm_num [OrgSettings.defaults]
  maxHoursPerWeek := by norm_num [OrgSettings.defaults]
  dailyReminderTime := by simp [OrgSettings.defaults]

/-- A given field replaces the stored one, a missing field keeps it. -/
theorem getD_of_forall {α : Type} {p : α → Prop} {field : Option α} {old : α}
    (given : ∀ a ∈ field, p a) (kept : p old) : p (field.getD old) := by
  cases field with
  | none => exact kept
  | some a => exact given a rfl

/-- An accepted body keeps a row in range. -/
theorem UpdateSettingsDto.apply_inRange {dto : UpdateSettingsDto}
    {s : OrgSettings} (accepted : Schemas.updateSettingsSchema dto = [])
    (range : s.InRange) : (dto.apply s).InRange := by
  simp only [Schemas.updateSettingsSchema, List.append_eq_nil_iff,
    Schemas.optional_eq_nil, Schemas.boundedNumber_eq_nil,
    Schemas.check_eq_nil] at accepted
  rcases accepted with ⟨⟨⟨⟨standard, increment⟩, perDay⟩, perWeek⟩, reminder⟩
  constructor
  · exact getD_of_forall standard range.standardHours
  · exact getD_of_forall increment range.timeIncrement
  · exact getD_of_forall perDay range.maxHoursPerDay
  · exact getD_of_forall perWeek range.maxHoursPerWeek
  · intro time stored
    rcases Option.or_eq_some_iff.mp stored with given | ⟨_, kept⟩
    · exact reminder time given
    · exact range.dailyReminderTime time kept

/-- All stored settings are in range. -/
def Db.SettingsInRange (db : Db) : Prop :=
  ∀ s ∈ db.orgSettings.rows, s.InRange

section Steps

variable {lib : Libs} {host : Host} {caller : JwtPayload} {call : Call}
  {db after : Db}

theorem SheetChange.orgSettings
    (change : SheetChange host caller call db after) :
    after.orgSettings = db.orgSettings := by
  cases change <;> rfl

theorem TeamSteps.orgSettings {start : Db}
    (steps : TeamSteps lib host caller call start after) :
    after.orgSettings = start.orgSettings := by
  induction steps with
  | refl => rfl
  | tail _ change ih =>
      refine Eq.trans ?_ ih
      cases change with
      | userUpdated user dto made begins role may =>
          unfold Db.reviseUser
          split <;> rfl
      | _ => rfl

theorem Db.SettingsInRange.public (range : db.SettingsInRange)
    (change : PublicChange lib host db after) : after.SettingsInRange := by
  rcases change.cases_after with ⟨dto, passwordHash, rfl⟩ | ⟨id, token, rfl⟩
  · intro s member
    rcases Table.mem_insert.mp member with old | rfl
    · exact range s old
    · exact OrgSettings.defaults_inRange _ _
  · exact range

theorem Db.SettingsInRange.written {dto : UpdateSettingsDto}
    (range : db.SettingsInRange)
    (writes : WritesSettings caller call db after dto) :
    after.SettingsInRange := by
  rcases writes.wrote with ⟨s, wrote⟩
  simp only [Prisma.orgSettingsUpsert, ensure_eq_ok] at wrote
  rcases wrote with ⟨_, wrote⟩
  split at wrote
  · cases wrote
    intro row member
    rcases Table.mem_modify.mp member with ⟨old, oldMem, rfl⟩
    split
    · exact UpdateSettingsDto.apply_inRange writes.accepted (range old oldMem)
    · exact range old oldMem
  · simp only [ensure_eq_ok, Except.ok.injEq, Prod.mk.injEq] at wrote
    rcases wrote with ⟨_, _, rfl⟩
    intro row member
    rcases Table.mem_insert.mp member with old | rfl
    · exact range row old
    · exact UpdateSettingsDto.apply_inRange writes.accepted
        (OrgSettings.defaults_inRange _ _)

/-- A route keeps the settings in range. -/
theorem Db.SettingsInRange.handle (holds : db.Integrity)
    (range : db.SettingsInRange) (call : Call) :
    wp (handle lib host caller call)
      (fun _ after => after.SettingsInRange) db := by
  by_cases on : call.OnSheets
  · refine wp_mono ?_ (handle_onSheets holds on)
    rintro _ after (rfl | change)
    · exact range
    · rw [Db.SettingsInRange, change.orgSettings]
      exact range
  · refine wp_mono ?_ (handle_offSheets holds on)
    intro _ after off
    cases off with
    | team steps =>
        rw [Db.SettingsInRange, TeamSteps.orgSettings steps]
        exact range
    | aside effect =>
        rcases effect.settings with same | ⟨dto, writes⟩
        · rw [Db.SettingsInRange, same]
          exact range
        · exact range.written writes

end Steps

/-- The settings of every reachable database are in range. -/
theorem settings_inRange (lib : Libs) (requests : List Request) :
    (World.empty.run lib requests).db.SettingsInRange := by
  have kept : ∀ (world : World) (request : Request),
      world.Sound ∧ world.db.SettingsInRange →
        (world.step lib request).Sound ∧
          (world.step lib request).db.SettingsInRange := by
    rintro world request ⟨sound, range⟩
    refine ⟨sound.step lib request, ?_⟩
    cases request with
    | anonymous host call =>
        have chain : wp (handlePublic lib host call) _ world.db :=
          handlePublic_chains call world.db
        show ((handlePublic lib host call).exec world.db).2.SettingsInRange
        rw [wp] at chain
        generalize ((handlePublic lib host call).exec world.db).2 = after
          at chain ⊢
        induction chain with
        | refl => exact range
        | tail _ change ih => exact ih.public change
    | authenticated host caller call =>
        by_cases signed : caller ∈ world.issued
        · rw [World.step_signed signed]
          exact range.handle sound.integrity call
        · simpa [World.step, World.serve, signed] using range
  have empty : Db.empty.SettingsInRange := by
    intro s member
    simp [Db.empty] at member
  exact (World.run_invariant kept ⟨World.sound_empty, empty⟩ requests).2

end TmsApi
