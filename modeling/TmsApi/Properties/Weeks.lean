import TmsApi.Refinement.Runs

/-!
# The week calendar

`createTimesheet` and `copyPreviousWeek` normalise the date to the start of
its week, derive the end date from it and check that the week is free.
`updateTimesheet` writes the date as it is given and does none of this.  The
calendar of an organisation therefore holds along the runs in which every
move names the date the timesheet already has, and a move to any other date
breaks it at once.
-/

namespace TmsApi

open TmsApi.Core
open TmsApi.Core.Program

/-- The start of a week is the start of its own week. -/
theorem getWeekStart_idem (zone : Zone) (date : Instant)
    (startDay : WorkWeekStart) :
    getWeekStart zone (getWeekStart zone date startDay) startDay =
      getWeekStart zone date startDay := by
  simp only [getWeekStart_eq, Zone.dayOf_midnight, weekFloor_idem]

/-- The dates of a timesheet are the first and last instant of a week. -/
structure NormalWeek (zone : Zone) (startDay : WorkWeekStart)
    (t : Timesheet) : Prop where
  start : getWeekStart zone t.weekStartDate startDay = t.weekStartDate
  finish : t.weekEndDate = getWeekEnd zone t.weekStartDate

/-- The timesheets of an organisation lie on whole and distinct weeks. -/
structure WeekCalendar (zone : Zone) (startDay : WorkWeekStart)
    (orgId : Nat) (db : Db) : Prop where
  normal : ∀ t ∈ db.timesheets.rows, t.organisationId = orgId →
    NormalWeek zone startDay t
  unique : ∀ t ∈ db.timesheets.rows, ∀ u ∈ db.timesheets.rows,
    t.organisationId = orgId → u.organisationId = orgId →
    t.userId = u.userId → t.weekStartDate = u.weekStartDate → t = u

/-- A move of a timesheet of the organisation names the date it has. -/
def KeepsWeek (orgId : Nat) (world : World) : Request → Prop
  | .authenticated _ caller (.updateTimesheet id dto) =>
      caller ∈ world.issued →
      ∀ t ∈ world.db.timesheets.rows, t.id = id →
        t.userId = caller.userId → t.organisationId = caller.orgId →
        t.organisationId = orgId → t.status = .draft →
        ∀ date ∈ dto.weekStartDate.bind (·.toDate), date = t.weekStartDate
  | _ => True

/-! ## One change -/

section Changes

variable {host : Host} {caller : JwtPayload} {call : Call} {db after : Db}
  {zone : Zone} {startDay : WorkWeekStart} {orgId : Nat}

/-- The owner and the week of a row stay what they are. -/
structure SameWeek (t new : Timesheet) : Prop where
  id : new.id = t.id
  organisation : new.organisationId = t.organisationId
  owner : new.userId = t.userId
  start : new.weekStartDate = t.weekStartDate
  finish : new.weekEndDate = t.weekEndDate

theorem SameWeek.normal {t new : Timesheet} (same : SameWeek t new)
    (normal : NormalWeek zone startDay t) : NormalWeek zone startDay new := by
  constructor
  · rw [same.start]
    exact normal.start
  · rw [same.finish, same.start]
    exact normal.finish

/-- Only a move touches the dates, and it touches the start date only. -/
theorem Becomes.sameWeek {t new : Timesheet}
    (becomes : Becomes host caller call db t new)
    (unmoved : ∀ dto, call = .updateTimesheet t.id dto →
      t.userId = caller.userId → t.organisationId = caller.orgId →
      t.status = .draft →
      ∀ date ∈ dto.weekStartDate.bind (·.toDate), date = t.weekStartDate) :
    SameWeek t new := by
  cases becomes with
  | moved dto owns draft made =>
      have kept := unmoved dto made owns.owner owns.org draft
      refine ⟨rfl, rfl, rfl, ?_, rfl⟩
      simp only [TimesheetUpdate.apply, Db.move]
      cases given : dto.weekStartDate.bind (·.toDate) with
      | none => rfl
      | some date => exact kept date given
  | _ => constructor <;> rfl

/-- The week of a new draft is normal and was free. -/
theorem Opens.normal {data : TimesheetData} {entries : List TimeEntry}
    (opens : Opens host caller db data entries) (id : Nat) :
    NormalWeek host.zone (db.startDay caller.orgId)
      (data.row host.now id) := by
  rcases opens.week with ⟨date, week⟩
  refine ⟨?_, opens.weekEnd⟩
  show getWeekStart host.zone data.weekStartDate _ = data.weekStartDate
  rw [week, getWeekStart_idem]

theorem Opens.unused {data : TimesheetData} {entries : List TimeEntry}
    (opens : Opens host caller db data entries) {t : Timesheet}
    (member : t ∈ db.timesheets.rows) (owner : t.userId = data.userId)
    (org : t.organisationId = data.organisationId) :
    t.weekStartDate ≠ data.weekStartDate := by
  intro same
  refine Table.find?_eq_none.mp opens.free t member ⟨?_, ?_, same⟩
  · exact owner.trans opens.owner
  · exact org.trans opens.org

/-- Sheet changes keep the calendar unless they move a timesheet. -/
theorem WeekCalendar.sheetChange
    (calendar : WeekCalendar zone startDay orgId db)
    (zoned : host.zone = zone)
    (start : caller.orgId = orgId → db.startDay orgId = startDay)
    (unmoved : ∀ t ∈ db.timesheets.rows, t.organisationId = orgId →
      ∀ dto, call = .updateTimesheet t.id dto →
      t.userId = caller.userId → t.organisationId = caller.orgId →
      t.status = .draft →
      ∀ date ∈ dto.weekStartDate.bind (·.toDate), date = t.weekStartDate)
    (change : SheetChange host caller call db after) :
    WeekCalendar zone startDay orgId after := by
  -- A row of the organisation is an old row on its week or a new draft.
  have origin : ∀ new ∈ after.timesheets.rows,
      new.organisationId = orgId →
      (∃ old ∈ db.timesheets.rows, SameWeek old new) ∨
        ∃ data entries, Opens host caller db data entries ∧
          new = data.row host.now db.timesheets.next := by
    intro new member org
    rcases change.origin member with ⟨old, oldMem, becomes⟩ | opened
    · have sameOrg : new.organisationId = old.organisationId := by
        cases becomes <;> rfl
      exact .inl ⟨old, oldMem, becomes.sameWeek
        (unmoved old oldMem (sameOrg.symm.trans org))⟩
    · exact .inr opened
  constructor
  · intro new member org
    rcases origin new member org with
      ⟨old, oldMem, same⟩ | ⟨data, entries, opens, rfl⟩
    · exact same.normal
        (calendar.normal old oldMem (same.organisation ▸ org))
    · have home : caller.orgId = orgId := opens.org.symm.trans org
      have normal := opens.normal db.timesheets.next
      rwa [zoned, home, start home] at normal
  · intro t tMem u uMem tOrg uOrg owner week
    rcases origin t tMem tOrg with
      ⟨t', tMem', tSame⟩ | ⟨data, entries, opens, rfl⟩ <;>
    rcases origin u uMem uOrg with
      ⟨u', uMem', uSame⟩ | ⟨data', entries', opens', rfl⟩
    · have same : t' = u' := calendar.unique t' tMem' u' uMem'
        (tSame.organisation ▸ tOrg) (uSame.organisation ▸ uOrg)
        (by rw [← tSame.owner, owner, uSame.owner])
        (by rw [← tSame.start, week, uSame.start])
      refine after.timesheets.eq_of_key tMem uMem ?_
      show t.id = u.id
      rw [tSame.id, same, uSame.id]
    · refine (opens'.unused tMem' ?_ ?_ ?_).elim
      · exact tSame.owner.symm.trans owner
      · exact tSame.organisation.symm.trans (tOrg.trans uOrg.symm)
      · exact tSame.start.symm.trans week
    · refine (opens.unused uMem' ?_ ?_ ?_).elim
      · exact uSame.owner.symm.trans owner.symm
      · exact uSame.organisation.symm.trans (uOrg.trans tOrg.symm)
      · exact uSame.start.symm.trans week.symm
    · exact after.timesheets.eq_of_key tMem uMem rfl

/-- A move to another date breaks the calendar at once. -/
theorem WeekCalendar.broken_by_move {t : Timesheet}
    {dto : UpdateTimesheetDto} {date : Instant}
    (calendar : WeekCalendar zone startDay orgId db)
    (member : t ∈ db.timesheets.rows) (org : t.organisationId = orgId)
    (parsed : dto.weekStartDate.bind (·.toDate) = some date)
    (moves : date ≠ t.weekStartDate) (now : Instant) :
    ¬ WeekCalendar zone startDay orgId
      (db.setSheet now t.id (Db.move dto)) := by
  intro broken
  have row : (Db.move dto).apply now t ∈
      (db.setSheet now t.id (Db.move dto)).timesheets.rows :=
    Db.mem_setSheet.mpr ⟨t, member, by simp⟩
  have before := calendar.normal t member org
  have normal := broken.normal _ row org
  have start : getWeekStart zone date startDay = date := by
    simpa [TimesheetUpdate.apply, Db.move, parsed] using normal.start
  have finish : t.weekEndDate = getWeekEnd zone date := by
    simpa [TimesheetUpdate.apply, Db.move, parsed] using normal.finish
  -- Both dates end the same day, so they begin the same week.
  have sameDay : zone.dayOf t.weekStartDate = zone.dayOf date := by
    have ends := before.finish.symm.trans finish
    simp only [getWeekEnd, sub_left_inj, Zone.midnight_inj] at ends
    omega
  refine moves ?_
  rw [← start, ← before.start, getWeekStart_eq, getWeekStart_eq, sameDay]

end Changes

/-! ## Runs -/

/-- The process that serves a request. -/
def Request.host : Request → Host
  | .anonymous host _ => host
  | .authenticated host _ _ => host

/-- The zone and the week start of the organisation are constant. -/
def SteadyWeek (zone : Zone) (startDay : WorkWeekStart) (orgId : Nat)
    (world : World) (request : Request) : Prop :=
  request.host.zone = zone ∧
    (world.db.organisations.HasKey orgId →
      world.db.startDay orgId = startDay)

section Steps

variable {lib : Libs} {world : World} {request : Request} {zone : Zone}
  {startDay : WorkWeekStart} {orgId : Nat}

/-- One step keeps the calendar. -/
theorem WeekCalendar.step (sound : world.Sound)
    (calendar : WeekCalendar zone startDay orgId world.db)
    (steady : SteadyWeek zone startDay orgId world request)
    (keeps : KeepsWeek orgId world request) :
    WeekCalendar zone startDay orgId (world.step lib request).db := by
  rcases sound.sheet_or_beside lib request with
    ⟨host, caller, call, rfl, signed, change⟩ | beside
  · refine calendar.sheetChange steady.1 ?_ ?_ change
    · rintro rfl
      rcases sound.callers caller signed with ⟨u, uMem, _, org⟩
      exact steady.2 (org ▸ sound.integrity.user_org u uMem)
    · rintro t member org dto rfl owner home draft
      exact keeps signed t member rfl owner home org draft
  · constructor
    · rw [beside.timesheets]
      exact calendar.normal
    · rw [beside.timesheets]
      exact calendar.unique

/-- A move of a draft to a date succeeds. -/
theorem step_updateTimesheet {host : Host} {caller : JwtPayload}
    {dto : UpdateTimesheetDto} {date : Instant} {t : Timesheet}
    (signed : caller ∈ world.issued) (member : t ∈ world.db.timesheets.rows)
    (owner : t.userId = caller.userId)
    (home : t.organisationId = caller.orgId) (draft : t.status = .draft)
    (parsed : dto.weekStartDate.bind (·.toDate) = some date) :
    (world.step lib
      (.authenticated host caller (.updateTimesheet t.id dto))).db =
        world.db.setSheet host.now t.id (Db.move dto) := by
  have found : world.db.ownTimesheet t.id caller.userId caller.orgId =
      some t :=
    Table.find?_of_mem member ⟨rfl, owner, home⟩ fun _ same => same.1
  have valid : ¬ ∃ given ∈ dto.weekStartDate, given.toDate = none := by
    rintro ⟨given, written, invalid⟩
    rw [Option.mem_def.mp written, Option.bind_some, invalid] at parsed
    cases parsed
  have moved : Prisma.timesheetUpdate host.now t.id (Db.move dto) world.db =
      .ok _ :=
    Prisma.timesheetUpdate_of member rfl
      (by intro reason absurd; cases absurd)
      (by intro u absurd; cases absurd)
  have run : wp (handle lib host caller (.updateTimesheet t.id dto))
      (fun _ after => after = world.db.setSheet host.now t.id (Db.move dto))
      world.db := by
    simp only [handle, updateTimesheet, wp_bind, wp_query, andThen_ok, found,
      wp_orThrow]
    refine ⟨fun absent => (Option.some_ne_none t absent).elim, ?_⟩
    rintro a ⟨⟩
    refine (wp_throwIf_of (not_not.mpr draft)).mpr ?_
    rw [andThen_ok, wp_bind]
    refine (wp_throwIf_of valid).mpr ?_
    rw [andThen_ok]
    exact (wp_statement_of moved).mpr rfl
  rw [World.step_signed signed]
  exact run

/-- The step that keeps the calendar moves nothing. -/
theorem WeekCalendar.keepsWeek
    (calendar : WeekCalendar zone startDay orgId world.db)
    (after : WeekCalendar zone startDay orgId (world.step lib request).db) :
    KeepsWeek orgId world request := by
  cases request with
  | anonymous host call => trivial
  | authenticated host caller call =>
      cases call with
      | updateTimesheet id dto =>
          rintro signed t member rfl owner home org draft date parsed
          by_contra moves
          rw [step_updateTimesheet signed member owner home draft parsed]
            at after
          exact calendar.broken_by_move member org parsed moves host.now after
      | _ => trivial

end Steps

/-- Each step keeps the calendar, so a run does. -/
theorem weekCalendar_along (lib : Libs) (zone : Zone)
    (startDay : WorkWeekStart) (orgId : Nat) (requests : List Request)
    (met : World.Along
      (fun world request => SteadyWeek zone startDay orgId world request ∧
        KeepsWeek orgId world request)
      lib .empty requests) :
    WeekCalendar zone startDay orgId (World.empty.run lib requests).db := by
  have kept : ∀ (world : World) (request : Request),
      (world.Sound ∧ WeekCalendar zone startDay orgId world.db) →
      (SteadyWeek zone startDay orgId world request ∧
        KeepsWeek orgId world request) →
      (world.step lib request).Sound ∧
        WeekCalendar zone startDay orgId (world.step lib request).db := by
    rintro world request ⟨sound, calendar⟩ ⟨steady, keeps⟩
    exact ⟨sound.step lib request, calendar.step sound steady keeps⟩
  have empty : WeekCalendar zone startDay orgId .empty := by
    constructor <;> simp [Db.empty]
  exact (World.run_along kept ⟨World.sound_empty, empty⟩ met).2

/--
With a constant zone and week start, the calendar of an organisation holds
after every run whose moves name the date the timesheet already has, and
the next request keeps it exactly when it does so too.
-/
theorem week_calendar_of_unmoved (lib : Libs) (zone : Zone)
    (startDay : WorkWeekStart) (orgId : Nat) (requests : List Request)
    (met : World.Along
      (fun world request => SteadyWeek zone startDay orgId world request ∧
        KeepsWeek orgId world request)
      lib .empty requests) :
    WeekCalendar zone startDay orgId (World.empty.run lib requests).db ∧
      ∀ request,
        SteadyWeek zone startDay orgId (World.empty.run lib requests)
            request →
          (WeekCalendar zone startDay orgId
              ((World.empty.run lib requests).step lib request).db ↔
            KeepsWeek orgId (World.empty.run lib requests) request) := by
  have calendar := weekCalendar_along lib zone startDay orgId requests met
  have sound := World.sound_run lib requests
  refine ⟨calendar, fun request steady => ⟨calendar.keepsWeek, ?_⟩⟩
  exact calendar.step sound steady

/-- An administrator creates a timesheet and moves it to a date. -/
def moveRun (date : IsoDate) : List Request :=
  [.register "acme" "ada@acme",
    .authenticated plainHost ⟨1, 1, .admin⟩
      (.createTimesheet ⟨january 3⟩),
    .authenticated plainHost ⟨1, 1, .admin⟩ (.updateTimesheet 1 ⟨date⟩)]

/--
The calendar survives a move to the Monday the timesheet has, and not a next
one to the Wednesday.
-/
theorem week_calendar_of_unmoved_monday :
    World.Along
        (fun world request =>
          SteadyWeek (.fixed 0) .monday 1 world request ∧
            KeepsWeek 1 world request)
        plainLibs .empty (moveRun ⟨2024, 1, 1⟩) ∧
      WeekCalendar (.fixed 0) .monday 1
        (World.empty.run plainLibs (moveRun ⟨2024, 1, 1⟩)).db ∧
      ¬ WeekCalendar (.fixed 0) .monday 1
        ((World.empty.run plainLibs (moveRun ⟨2024, 1, 1⟩)).step plainLibs
          (.authenticated plainHost ⟨1, 1, .admin⟩
            (.updateTimesheet 1 ⟨january 3⟩))).db := by
  have met : World.Along
      (fun world request => SteadyWeek (.fixed 0) .monday 1 world request ∧
        KeepsWeek 1 world request)
      plainLibs .empty (moveRun ⟨2024, 1, 1⟩) := by
    refine ⟨⟨⟨rfl, by decide +kernel⟩, trivial⟩,
      ⟨⟨rfl, by decide +kernel⟩, trivial⟩,
      ⟨⟨rfl, by decide +kernel⟩, ?_⟩, trivial⟩
    unfold KeepsWeek
    decide +kernel
  obtain ⟨calendar, next⟩ := week_calendar_of_unmoved plainLibs _ _ 1 _ met
  have moves : ¬ KeepsWeek 1
      (World.empty.run plainLibs (moveRun ⟨2024, 1, 1⟩))
      (.authenticated plainHost ⟨1, 1, .admin⟩
        (.updateTimesheet 1 ⟨january 3⟩)) := by
    unfold KeepsWeek
    decide +kernel
  exact ⟨met, calendar, fun after => moves
    ((next _ ⟨rfl, by decide +kernel⟩).mp after)⟩

/-- The calendar does not survive a move to a Wednesday. -/
theorem week_calendar_moved_wednesday :
    World.Along (SteadyWeek (.fixed 0) .monday 1) plainLibs .empty
        (moveRun ⟨2024, 1, 3⟩) ∧
      ¬ WeekCalendar (.fixed 0) .monday 1
        (World.empty.run plainLibs (moveRun ⟨2024, 1, 3⟩)).db := by
  refine ⟨⟨⟨rfl, by decide +kernel⟩, ⟨rfl, by decide +kernel⟩,
    ⟨rfl, by decide +kernel⟩, trivial⟩, fun calendar => ?_⟩
  have normal : ∀ t ∈ (World.empty.run plainLibs
      (moveRun ⟨2024, 1, 3⟩)).db.timesheets.rows, t.organisationId = 1 →
      getWeekStart (.fixed 0) t.weekStartDate .monday = t.weekStartDate :=
    fun t member org => (calendar.normal t member org).start
  revert normal
  decide +kernel

end TmsApi
