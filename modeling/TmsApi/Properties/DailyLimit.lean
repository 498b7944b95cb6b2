import TmsApi.Properties.EntryWrites
import TmsApi.Properties.SettingsRange
import TmsApi.Services.Reports

/-!
# The daily limit

`createEntry` compares each value of its body with the limit of the
organisation, on its own: neither the other entries of the timesheet count nor
does `updateEntry` look at the limit at all.  The hours logged on a weekday
stay within the limit along exactly those runs in which every created and
every updated entry leaves the sum of its day within it.
-/

namespace TmsApi

open TmsApi.Core

/-- The hours of a weekday over a list of entries. -/
def loggedOn (entries : List TimeEntry) (day : Weekday) : ℚ :=
  (entries.map fun e => columnOf e.hours day).sum

/-- No weekday has more hours than the limit. -/
def WithinLimit (limit : ℚ) (entries : List TimeEntry) : Prop :=
  ∀ day, loggedOn entries day ≤ limit

/-- The new hours fit on top of what is logged on their days. -/
def LeavesRoom (orgId : Nat) (world : World) : Request → Prop
  | .authenticated _ caller (.createEntry id dto) =>
      caller ∈ world.issued → caller.orgId = orgId →
      Schemas.createTimeEntrySchema dto = [] →
      ∀ t, t.id = id → MayCreate caller world.db t dto →
      ∀ day, loggedOn (world.db.entriesOf t.id) day +
        (columnOf dto.hours day).getD 0 ≤ world.db.maxPerDay orgId
  | .authenticated _ caller (.updateEntry id entryId dto) =>
      caller ∈ world.issued → caller.orgId = orgId →
      Schemas.updateTimeEntrySchema dto = [] →
      ∀ t e, t.id = id → e.id = entryId → MayUpdate caller world.db t e dto →
      ∀ day, loggedOn (world.db.entriesOf t.id) day -
        columnOf e.hours day +
        (columnOf dto.hours day).getD (columnOf e.hours day) ≤
          world.db.maxPerDay orgId
  | _ => True

/-! ## The sum of a day -/

section Sums

variable {caller : JwtPayload} {db : Db} {limit : ℚ}

theorem EntryTotal.column_nonneg {e : TimeEntry} (holds : EntryTotal e)
    (day : Weekday) : 0 ≤ columnOf e.hours day :=
  all_iff_columnOf.mp holds.nonneg day

/-- Hours are part of the content of an entry. -/
theorem loggedOn_content (entries : List TimeEntry) (day : Weekday) :
    loggedOn entries day =
      ((entries.map TimeEntry.content).map fun data =>
        columnOf data.hours day).sum := by
  rw [List.map_map]
  rfl

/-- A part of a list of entries logs no more than the list. -/
theorem withinLimit_passesOn (nonneg : 0 ≤ limit) :
    PassesOn (WithinLimit limit) where
  nil _ := nonneg
  part entries part total within sub := by
    intro day
    refine le_trans ?_ (within day)
    rw [loggedOn_content, loggedOn_content]
    refine (sub.map _).sum_le_sum ?_
    intro hours member
    rw [List.map_map, List.mem_map] at member
    rcases member with ⟨e, eMem, rfl⟩
    exact (total e eMem).column_nonneg day

theorem loggedOn_afterCreate (now : Instant) (t : Timesheet)
    (dto : CreateTimeEntryDto) (day : Weekday) :
    loggedOn (afterCreate db now t dto) day =
      loggedOn (db.entriesOf t.id) day +
        (columnOf dto.hours day).getD 0 := by
  simp only [loggedOn, afterCreate, List.map_append, List.map_cons,
    List.map_nil, List.sum_append, List.sum_cons, List.sum_nil, add_zero]
  congr 1
  exact columnOf_map _ _ day

theorem loggedOn_afterUpdate {t : Timesheet} {e : TimeEntry}
    (entry : e ∈ db.entriesOf t.id) (dto : UpdateTimeEntryDto)
    (day : Weekday) :
    loggedOn (afterUpdate db t e dto) day =
      loggedOn (db.entriesOf t.id) day - columnOf e.hours day +
        (columnOf dto.hours day).getD (columnOf e.hours day) := by
  have nodup : ((db.entriesOf t.id).map Keyed.key).Nodup :=
    db.timeEntries.keys_nodup.sublist (List.filter_sublist.map _)
  refine (Table.sum_map_replace nodup entry _).trans ?_
  congr 1
  exact columnOf_zipWith _ _ _ day

/-- Where the limit is the organisation's, room is what the rule asks for. -/
theorem leavesRoom_iff {orgId : Nat} {world : World}
    (set : world.db.maxPerDay orgId = limit) (request : Request) :
    LeavesRoom orgId world request ↔
      Obeys orgId (WithinLimit limit) world request := by
  cases request with
  | anonymous host call => exact Iff.rfl
  | authenticated host caller call =>
      cases call with
      | createEntry id dto =>
          simp only [LeavesRoom, Obeys, WithinLimit, loggedOn_afterCreate,
            set]
      | updateEntry id entryId dto =>
          refine forall_congr' fun signed => forall_congr' fun home =>
            forall_congr' fun accepted => forall_congr' fun t =>
            forall_congr' fun e => forall_congr' fun sheet =>
            forall_congr' fun key => forall_congr' fun may => ?_
          simp only [WithinLimit, loggedOn_afterUpdate may.entry, set]
      | _ => exact Iff.rfl

end Sums

/-! ## Runs -/

/-- The limit of an organisation is never negative. -/
theorem maxPerDay_nonneg (lib : Libs) (requests : List Request)
    (orgId : Nat) :
    0 ≤ (World.empty.run lib requests).db.maxPerDay orgId := by
  have range := settings_inRange lib requests
  unfold Db.maxPerDay
  cases found : (World.empty.run lib requests).db.settingsOf orgId with
  | none => norm_num
  | some s => exact (range s (Table.mem_of_find? found)).maxHoursPerDay.1

/-- The limit of the organisation. -/
def LimitedTo (orgId : Nat) (limit : ℚ) (world : World) : Prop :=
  world.db.maxPerDay orgId = limit

/-- The hours of every weekday of the organisation's timesheets. -/
def KeepsLimit (orgId : Nat) (limit : ℚ) (world : World) : Prop :=
  world.db.AllSheets orgId (WithinLimit limit)

/--
Along a run with a constant limit that starts within it, the hours of every
weekday stay within the limit in all states exactly when every entry created
or updated leaves room.
-/
theorem daily_limit_iff (lib : Libs) (orgId : Nat) (limit : ℚ)
    (before requests : List Request)
    (constant : World.Always (LimitedTo orgId limit) lib
      (World.empty.run lib before) requests)
    (start : KeepsLimit orgId limit (World.empty.run lib before)) :
    World.Always (KeepsLimit orgId limit) lib (World.empty.run lib before)
        requests ↔
      World.Along (LeavesRoom orgId) lib (World.empty.run lib before)
        requests := by
  have nonneg : 0 ≤ limit := by
    rw [← constant.here]
    exact maxPerDay_nonneg lib before orgId
  refine World.rule_always_iff lib (withinLimit_passesOn nonneg) ?_ before
    requests constant start
  intro world request set _
  exact (leavesRoom_iff set request).symm

/-! ## Runs within the limit and beyond it -/

instance (limit : ℚ) : DecidablePred (WithinLimit limit) := fun entries =>
  decidable_of_iff (∀ day ∈ dayKeys, loggedOn entries day ≤ limit) <| by
    refine ⟨fun every day => every day ?_, fun every day _ => every day⟩
    cases day <;> simp [dayKeys]

instance (orgId : Nat) (limit : ℚ) : DecidablePred (KeepsLimit orgId limit) :=
  fun world => inferInstanceAs (Decidable (world.db.AllSheets _ _))

instance (orgId : Nat) (limit : ℚ) : DecidablePred (LimitedTo orgId limit) :=
  fun world => inferInstanceAs (Decidable (world.db.maxPerDay orgId = limit))

/-- A limit of eight hours, and a timesheet with eight hours on Monday. -/
def limitedRun : List Request :=
  [.register "acme" "ada@acme",
    .setSettings ada { sameSettings with maxHoursPerDay := some 8 },
    .addProject ada "A",
    .authenticated plainHost ada (.createTimesheet ⟨january 1⟩),
    .authenticated plainHost ada (.createEntry 1 (mondayEntry 1 8))]

/-- The hours of Monday raised in place. -/
def raiseMonday (hours : ℚ) : Request :=
  .authenticated plainHost ada
    (.updateEntry 1 1
      { projectId := none
        billable := none
        hours := onMonday hours
        desc := .const none
        timeOff := .const none })

/-- Eight more hours on the same Monday. -/
def secondEntry : Request :=
  .authenticated plainHost ada (.createEntry 1 (mondayEntry 1 8))

theorem daily_limit_iff_lowered :
    World.Always (LimitedTo 1 8) plainLibs
        (World.empty.run plainLibs limitedRun) [raiseMonday 6] ∧
      World.Along (LeavesRoom 1) plainLibs
        (World.empty.run plainLibs limitedRun) [raiseMonday 6] := by
  have constant : World.Always (LimitedTo 1 8) plainLibs
      (World.empty.run plainLibs limitedRun) [raiseMonday 6] := by
    decide +kernel
  refine ⟨constant, ?_⟩
  refine (daily_limit_iff plainLibs 1 8 limitedRun [raiseMonday 6] constant
    (by decide +kernel)).mp ?_
  decide +kernel

/-- A second entry and an update each put too many hours on one Monday. -/
theorem daily_limit_exceeded :
    let world := World.empty.run plainLibs limitedRun
    KeepsLimit 1 8 world ∧
    (World.Always (LimitedTo 1 8) plainLibs world [secondEntry] ∧
      ¬ World.Always (KeepsLimit 1 8) plainLibs world [secondEntry]) ∧
    (World.Always (LimitedTo 1 8) plainLibs world [raiseMonday 20] ∧
      ¬ World.Always (KeepsLimit 1 8) plainLibs world [raiseMonday 20]) := by
  decide +kernel

end TmsApi
