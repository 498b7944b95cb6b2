import TmsApi.Properties.EntryWrites
import TmsApi.Services.Reports

/-!
# Mandatory descriptions

Where an organisation asks for descriptions, `createEntry` refuses a day with
hours and without a text.  `updateEntry` merges hours and descriptions of a
body into the stored ones, each field on its own, and checks nothing.  Every
entry is described along exactly those runs in which each update leaves a
described entry.
-/

namespace TmsApi

open TmsApi.Core

/-- Each day with hours has a text that is not blank. -/
def Described (hours : Week ℚ) (desc : Week (Option String)) : Prop :=
  ∀ day, 0 < columnOf hours day →
    ∃ text ∈ columnOf desc day, isBlank text = false

/-- Each entry of a list is described. -/
def AllDescribed (entries : List TimeEntry) : Prop :=
  ∀ e ∈ entries, Described e.hours e.desc

/-- The fields a body leaves out are taken from the stored entry. -/
def DescribesUpdates (orgId : Nat) (world : World) : Request → Prop
  | .authenticated _ caller (.updateEntry id entryId dto) =>
      caller ∈ world.issued → caller.orgId = orgId →
      Schemas.updateTimeEntrySchema dto = [] →
      ∀ t e, t.id = id → e.id = entryId → MayUpdate caller world.db t e dto →
      ∀ day, 0 < (columnOf dto.hours day).getD (columnOf e.hours day) →
        ∃ text ∈ (columnOf dto.desc day).or (columnOf e.desc day),
          isBlank text = false
  | _ => True

section Rows

variable {caller : JwtPayload} {db : Db} {orgId : Nat} {world : World}

/-- Copies are as described as their sources. -/
theorem allDescribed_passesOn : PassesOn AllDescribed :=
  passesOn_content fun data => Described data.hours data.desc

/-- The check of `createEntry` is the description of the created entry. -/
theorem missing_iff {hours : Week (Option ℚ)}
    {desc : Week (Option String)} :
    ¬ (hours.zipWith missingDescription desc).toList.any id = true ↔
      Described (hours.map (·.getD 0)) desc := by
  have column (day : Weekday) : columnOf
      (hours.zipWith missingDescription desc) day = false ↔
      (0 < (columnOf hours day).getD 0 →
        ∃ text ∈ columnOf desc day, isBlank text = false) := by
    rw [columnOf_zipWith, missingDescription]
    cases columnOf desc day <;> simp [imp_iff_not_or]
  have all : ¬ (hours.zipWith missingDescription desc).toList.any id = true ↔
      (hours.zipWith missingDescription desc).All fun missing =>
        missing = false := by
    simp [Week.All]
  rw [all, all_iff_columnOf]
  refine forall_congr' fun day => ?_
  rw [column day, columnOf_map]

/-- Where descriptions are asked for, updates decide about the rule. -/
theorem describesUpdates_iff (asked : world.db.asksForDesc orgId = true)
    (holds : world.db.AllSheets orgId AllDescribed) (request : Request) :
    Obeys orgId AllDescribed world request ↔
      DescribesUpdates orgId world request := by
  have old (caller : JwtPayload) (t : Timesheet)
      (owns : Owns caller world.db t) (home : caller.orgId = orgId) :
      AllDescribed (world.db.entriesOf t.id) :=
    holds t owns.member (owns.org.trans home)
  cases request with
  | anonymous host call => exact Iff.rfl
  | authenticated host caller call =>
      cases call with
      | createEntry id dto =>
          refine ⟨fun _ => trivial, fun _ => ?_⟩
          rintro signed rfl accepted t rfl may
          refine (forall_afterCreate (old caller t may.owns rfl)).mpr ?_
          exact missing_iff.mp (may.described asked)
      | updateEntry id entryId dto =>
          refine forall_congr' fun signed => forall_congr' fun home =>
            forall_congr' fun accepted => forall_congr' fun t =>
            forall_congr' fun e => forall_congr' fun sheet =>
            forall_congr' fun key => forall_congr' fun may => ?_
          have merged : Described (mergedEntry dto e).hours
              (mergedEntry dto e).desc ↔
              ∀ day,
                0 < (columnOf dto.hours day).getD (columnOf e.hours day) →
                ∃ text ∈ (columnOf dto.desc day).or (columnOf e.desc day),
                  isBlank text = false := by
            simp only [Described, mergedEntry, columnOf_zipWith]
          rw [← merged]
          exact forall_afterUpdate may.entry (old caller t may.owns home)
      | _ => exact Iff.rfl

end Rows

/-! ## Runs -/

/-- The organisation asks for descriptions. -/
def AsksForDesc (orgId : Nat) (world : World) : Prop :=
  world.db.asksForDesc orgId = true

/-- Every entry of the organisation is described. -/
def KeepsDescriptions (orgId : Nat) (world : World) : Prop :=
  world.db.AllSheets orgId AllDescribed

/--
Along a run of an organisation that asks for descriptions throughout and whose
entries are described at its start, all entries stay described exactly when
every update leaves a described entry.
-/
theorem descriptions_iff (lib : Libs) (orgId : Nat)
    (before requests : List Request)
    (constant : World.Always (AsksForDesc orgId) lib
      (World.empty.run lib before) requests)
    (start : KeepsDescriptions orgId (World.empty.run lib before)) :
    World.Always (KeepsDescriptions orgId) lib (World.empty.run lib before)
        requests ↔
      World.Along (DescribesUpdates orgId) lib (World.empty.run lib before)
        requests :=
  World.rule_always_iff lib allDescribed_passesOn
    (fun _ request asked holds => describesUpdates_iff asked holds request)
    before requests constant start

/-! ## Updates that keep a description and one that does not -/

instance (hours : Week ℚ) (desc : Week (Option String)) :
    Decidable (Described hours desc) :=
  decidable_of_iff
    (∀ day ∈ dayKeys, 0 < columnOf hours day →
      (columnOf desc day).any (fun text => !isBlank text) = true) <| by
    have every (day : Weekday) : day ∈ dayKeys := by
      cases day <;> simp [dayKeys]
    simp [Described, every, Option.any_eq_true]

instance : DecidablePred AllDescribed := fun entries =>
  inferInstanceAs (Decidable (∀ e ∈ entries, Described e.hours e.desc))

instance (orgId : Nat) : DecidablePred (KeepsDescriptions orgId) :=
  fun world => inferInstanceAs (Decidable (world.db.AllSheets _ _))

instance (orgId : Nat) : DecidablePred (AsksForDesc orgId) :=
  fun world => inferInstanceAs (Decidable (world.db.asksForDesc orgId = true))

/-- A text on Monday and none on the other days. -/
def textOnMonday (text : String) : Week (Option String) :=
  { Week.const none with mon := some text }

/-- An organisation that asks for descriptions, and a described Monday. -/
def describedRun : List Request :=
  [.register "acme" "ada@acme",
    .setSettings ada { sameSettings with mandatoryDesc := some true },
    .addProject ada "A",
    .authenticated plainHost ada (.createTimesheet ⟨january 1⟩),
    .authenticated plainHost ada
      (.createEntry 1
        { mondayEntry 1 8 with desc := textOnMonday "planning" })]

/-- The description of Monday replaced. -/
def rewriteMonday (text : String) : Request :=
  .authenticated plainHost ada
    (.updateEntry 1 1
      { projectId := none
        billable := none
        hours := .const none
        desc := textOnMonday text
        timeOff := .const none })

theorem descriptions_iff_rewritten :
    World.Always (AsksForDesc 1) plainLibs
        (World.empty.run plainLibs describedRun)
        [rewriteMonday "testing"] ∧
      World.Along (DescribesUpdates 1) plainLibs
        (World.empty.run plainLibs describedRun)
        [rewriteMonday "testing"] := by
  have constant : World.Always (AsksForDesc 1) plainLibs
      (World.empty.run plainLibs describedRun)
      [rewriteMonday "testing"] := by
    decide +kernel
  refine ⟨constant, ?_⟩
  refine (descriptions_iff plainLibs 1 describedRun
    [rewriteMonday "testing"] constant (by decide +kernel)).mp ?_
  decide +kernel

/-- An update may blank the description of a day with hours. -/
theorem description_blanked :
    let world := World.empty.run plainLibs describedRun
    KeepsDescriptions 1 world ∧
      World.Always (AsksForDesc 1) plainLibs world [rewriteMonday " "] ∧
      ¬ World.Always (KeepsDescriptions 1) plainLibs world
        [rewriteMonday " "] := by
  decide +kernel

end TmsApi
