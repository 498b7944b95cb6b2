import TmsApi.Concurrency.Pools

/-!
# Concurrent edits of entries

`createEntry`, `updateEntry` and `deleteEntry` write their entry, read all
entries and overwrite the totals, in three statements.  The totals that remain
are those of the request that writes last, so they are right if this request
read the entries after every entry had been written.
-/

namespace TmsApi

open TmsApi.Core
open TmsApi.Core.Program

/-! ## Stages of an entry request -/

section Stages

variable {id : Nat} {program : Service Response}

/-- What is left is to recalculate the totals. -/
def Recalculating (id : Nat) (program : Service Response) : Prop :=
  ∃ host response, program =
    (recalculateTimesheetTotals host id >>= fun _ => done (.ok response))

/-- What is left is to write the totals of these entries. -/
def Totalling (id : Nat) (entries : List TimeEntry)
    (program : Service Response) : Prop :=
  ∃ now response, program =
    (statement (Prisma.timesheetUpdate now id (totalsOf entries)) >>=
      fun _ => done (.ok response))

/-- Up to its entry write; the recalculation comes after it. -/
def Writing (id : Nat) : Service Response → Prop
  | done result => ∃ e, result = .error e
  | atomic _ next => ∀ s, Writing id (next s) ∨ Recalculating id (next s)

/-- Past the entry write. -/
inductive Late (id : Nat) (program : Service Response) : Prop where
  | recalculating (left : Recalculating id program)
  | totalling (entries : List TimeEntry)
      (left : Totalling id entries program)
  | finished (result : Except Thrown Response)
      (left : program = done result)

theorem recalculating_eq (left : Recalculating id program) :
    ∃ next, program = ((query fun db => db.entriesOf id) >>= next) ∧
      ∀ entries, Totalling id entries (next entries) := by
  rcases left with ⟨host, response, rfl⟩
  refine ⟨fun entries =>
    statement (Prisma.timesheetUpdate host.now id (totalsOf entries)) >>=
      fun _ => done (.ok response), ?_, fun entries => ⟨_, _, rfl⟩⟩
  simp only [recalculateTimesheetTotals, bind_assoc, pure_eq, ok_bind]
  rfl

/-- Anything may come before the entry write. -/
theorem Writing.bind {α : Type} (first : Service α)
    {f : α → Service Response} (rest : ∀ a, Writing id (f a)) :
    Writing id (first >>= f) := by
  induction first with
  | done result =>
      cases result with
      | ok a => exact rest a
      | error e => exact ⟨e, rfl⟩
  | atomic write next ih => exact fun s => .inl (ih s)

/-- The entry write. -/
theorem Writing.statement {α : Type} (tx : Tx α)
    {f : α → Service Response} (rest : ∀ a, Recalculating id (f a)) :
    Writing id (Program.statement tx >>= f) := by
  intro s
  change Writing id (done (answer tx s) >>= f) ∨
    Recalculating id (done (answer tx s) >>= f)
  cases answer tx s with
  | ok a => exact .inr (rest a)
  | error e => exact .inl ⟨e, rfl⟩

theorem Recalculating.needs (left : Recalculating id program) :
    program.Needs 2 := by
  rcases recalculating_eq left with ⟨next, rfl, totalling⟩
  rw [query_bind]
  intro s
  change (next (s.entriesOf id)).Needs 1
  rcases totalling (s.entriesOf id) with ⟨now, response, same⟩
  rw [same, statement_bind]
  exact fun _ => trivial

/-- Three statements are left at least before a success. -/
theorem Writing.needs (writing : Writing id program) : program.Needs 3 := by
  induction program with
  | done result => exact writing
  | atomic write next ih =>
      intro s
      rcases writing s with still | recalculating
      · exact (ih s still).mono (by decide)
      · exact recalculating.needs

/-- Past its entry write a request leaves all entries alone. -/
theorem Late.step {write : Db → Db} {next : Db → Service Response}
    (late : Late id (atomic write next)) (db : Db) :
    (write db).timeEntries = db.timeEntries ∧ Late id (next db) := by
  cases late with
  | recalculating left =>
      rcases recalculating_eq left with ⟨rest, same, totalling⟩
      cases same
      exact ⟨rfl, .totalling _ (totalling _)⟩
  | totalling entries left =>
      rcases left with ⟨now, response, same⟩
      cases same
      rcases settle_eq_or (Prisma.timesheetUpdate now id (totalsOf entries))
        db with ⟨t, after, outcome, wrote, answered⟩ |
          ⟨e, _, wrote, answered⟩
      · simp only [wrote, answered, Prisma.timesheetUpdate_after outcome]
        exact ⟨rfl, .finished _ rfl⟩
      · simp only [wrote, answered, true_and]
        exact .finished _ rfl
  | finished result left => cases left

/-- After the totals are written the request is over. -/
theorem Totalling.leads {entries : List TimeEntry}
    (left : Totalling id entries program) :
    program.Leads (fun _ => True) (fun _ _ => True)
      (fun rest => ∃ result, rest = done result) 1 := by
  rcases left with ⟨now, response, rfl⟩
  rw [statement_bind]
  intro s _
  refine ⟨trivial, trivial, ?_⟩
  change ∃ result, (done (answer (Prisma.timesheetUpdate now id
    (totalsOf entries)) s) >>= fun _ => done (.ok response)) = done result
  cases answer (Prisma.timesheetUpdate now id (totalsOf entries)) s with
  | ok t => exact ⟨_, rfl⟩
  | error e => exact ⟨_, rfl⟩

end Stages

/-! ## The three requests -/

section Requests

variable {lib : Libs} {host : Host} {caller : JwtPayload} {call : Call}
  {id : Nat}

/-- A request that edits the entries of a timesheet. -/
inductive EntryEdit (id : Nat) : Call → Prop where
  | createEntry (dto : CreateTimeEntryDto) :
      EntryEdit id (.createEntry id dto)
  | updateEntry (entryId : Nat) (dto : UpdateTimeEntryDto) :
      EntryEdit id (.updateEntry id entryId dto)
  | deleteEntry (entryId : Nat) : EntryEdit id (.deleteEntry id entryId)

theorem createEntry_writing (dto : CreateTimeEntryDto) :
    Writing id (handle lib host caller (.createEntry id dto)) := by
  simp only [handle, createEntry, bind_assoc, pure_eq, ok_bind]
  refine .bind _ fun _ => .bind _ fun _ => .bind _ fun settings => ?_
  refine .bind _ fun _ => .bind _ fun project => .bind _ fun _ => ?_
  refine .bind _ fun _ => .bind _ fun _ => ?_
  exact .statement _ fun entry => ⟨host, _, rfl⟩

theorem updateEntry_writing (entryId : Nat) (dto : UpdateTimeEntryDto) :
    Writing id (handle lib host caller (.updateEntry id entryId dto)) := by
  simp only [handle, updateEntry, bind_assoc, pure_eq, ok_bind]
  refine .bind _ fun _ => .bind _ fun _ => .bind _ fun found => ?_
  refine .bind _ fun entry => .bind _ fun _ => ?_
  exact .statement _ fun updated => ⟨host, _, rfl⟩

theorem deleteEntry_writing (entryId : Nat) :
    Writing id (handle lib host caller (.deleteEntry id entryId)) := by
  simp only [handle, deleteEntry, bind_assoc, pure_eq]
  refine .bind _ fun _ => .bind _ fun found => .bind _ fun _ => ?_
  exact .statement _ fun _ => ⟨host, _, rfl⟩

theorem EntryEdit.writing (edit : EntryEdit id call) :
    Writing id (handle lib host caller call) := by
  cases edit with
  | createEntry dto => exact createEntry_writing dto
  | updateEntry entryId dto => exact updateEntry_writing entryId dto
  | deleteEntry entryId => exact deleteEntry_writing entryId

end Requests

/-! ## The last write -/

section LastWrite

variable {ι : Type} [DecidableEq ι] {id : Nat} {i : ι}
  {schedule : List ι} {pool last : Pool Db Thrown Response ι}

/-- A request is before or past its entry write. -/
def Staged (id : Nat) (program : Service Response) : Prop :=
  Writing id program ∨ Late id program

theorem Staged.step {write : Db → Db} {next : Db → Service Response}
    (staged : Staged id (atomic write next)) (db : Db) :
    Staged id (next db) := by
  rcases staged with writing | late
  · rcases writing db with still | recalculating
    · exact .inl still
    · exact .inr (.recalculating recalculating)
  · exact .inr (late.step db).2

/-- With at most two statements left a request is past its entry write. -/
theorem late_of_few (staged : Staged id (pool.threads i))
    (ran : pool.run schedule = some last) (few : schedule.count i ≤ 2)
    {response : Response} (succeeded : last.threads i = .done (.ok response)) :
    Late id (pool.threads i) := by
  refine staged.resolve_left fun writing => ?_
  have three := Pool.needs_le_count ran writing.needs succeeded
  exact absurd (three.trans few) (by decide)

/-- With exactly two statements left it is about to read the entries. -/
theorem recalculating_of_two (staged : Staged id (pool.threads i))
    (ran : pool.run schedule = some last) (two : schedule.count i = 2)
    {response : Response} (succeeded : last.threads i = .done (.ok response)) :
    Recalculating id (pool.threads i) := by
  cases late_of_few staged ran (le_of_eq two) succeeded with
  | recalculating left => exact left
  | totalling entries left =>
      have once := Pool.count_le_of_leads ran left.leads
      rw [two] at once
      exact absurd once (by decide)
  | finished result left =>
      have idle := Pool.notMem_of_done ran left
      rw [List.count_eq_zero_of_not_mem idle] at two
      cases two

/-- The totals of the timesheet are those of its entries. -/
def TotalsAgree (db : Db) (id : Nat) : Prop :=
  ∃ t ∈ db.timesheets.rows, t.id = id ∧
    t.totalHours = ((db.entriesOf id).map (·.totalHours)).sum ∧
    t.billableHours =
      (((db.entriesOf id).filter (·.billable)).map (·.totalHours)).sum

/-- The statement that writes the totals of the current entries. -/
theorem totalsAgree_of_written {db after : Db} {now : Instant}
    {t : Timesheet}
    (outcome : Prisma.timesheetUpdate now id (totalsOf (db.entriesOf id)) db =
      .ok (t, after)) : TotalsAgree after id := by
  have found : ∃ old ∈ db.timesheets.rows, old.id = id := by
    rw [Prisma.timesheetUpdate] at outcome
    cases found : db.timesheets.find? (fun t => t.id = id) with
    | none =>
        rw [found] at outcome
        cases outcome
    | some old =>
        exact ⟨old, Table.find?_spec found⟩
  rcases found with ⟨old, member, key⟩
  rw [Prisma.timesheetUpdate_after outcome]
  refine ⟨_, Db.mem_setSheet.mpr ⟨old, member, rfl⟩, ?_⟩
  rw [if_pos key]
  exact ⟨key, sumBy_eq _ _, sumBy_eq _ _⟩

/-- Threads past their entry writes leave the entries of all sheets alone. -/
theorem entries_of_late {middle : Pool Db Thrown Response ι}
    (late : ∀ j, Late id (pool.threads j))
    (ran : pool.run schedule = some middle) :
    middle.state.entriesOf id = pool.state.entriesOf id := by
  have result := Pool.run_threads
    (fun db => db.entriesOf id = pool.state.entriesOf id)
    (fun _ _ => True) (fun _ left => Late id left) ?_ ran rfl late
  · exact result.2.1
  · intro j write next late db same
    have step := late.step db
    refine ⟨trivial, ?_, step.2⟩
    rw [← same, Db.entriesOf, Db.entriesOf, step.1]

/--
The request that makes the last statement made its read when every other one
had at most its two last statements left.
-/
def ReadsLast (schedule : List ι) : Prop :=
  ∃ i pre mid, schedule = pre ++ i :: (mid ++ [i]) ∧ i ∉ mid ∧
    ∀ j, j ≠ i → mid.count j ≤ 2

end LastWrite

/--
After concurrent entry edits that all succeed the totals agree with the
entries, if the request that writes the totals last read the entries after
every entry had been written.
-/
theorem totalsAgree_of_readsLast (lib : Libs) {ι : Type} [DecidableEq ι]
    (requests : Concurrent ι) (id : Nat) (db : Db)
    (edits : ∀ i, EntryEdit id (requests.call i))
    (schedule : List ι) (last : Pool Db Thrown Response ι)
    (ran : (requests.pool lib db).run schedule = some last)
    (succeeded : ∀ i, ∃ response, last.threads i = .done (.ok response))
    (ordered : ReadsLast schedule) : TotalsAgree last.state id := by
  rcases ordered with ⟨i, pre, mid, rfl, absent, few⟩
  rcases Pool.run_append.mp ran with ⟨before, began, remaining⟩
  -- every request is in one of its stages when `i` reads the entries
  have staged : ∀ j, Staged id (before.threads j) := by
    have result := Pool.run_threads (fun _ => True) (fun _ _ => True)
      (fun _ left => Staged id left)
      (fun j write next staged db _ => ⟨trivial, trivial, staged.step db⟩)
      began trivial (fun j => .inl (edits j).writing)
    exact result.2.2
  have counts : ∀ j, j ≠ i →
      (i :: (mid ++ [i])).count j = mid.count j := by
    intro j apart
    simp [List.count_cons_of_ne (Ne.symm apart)]
  have two : (i :: (mid ++ [i])).count i = 2 := by
    simp [List.count_eq_zero_of_not_mem absent]
  have late : ∀ j, Late id (before.threads j) := by
    intro j
    rcases succeeded j with ⟨response, won⟩
    refine late_of_few (staged j) remaining ?_ won
    by_cases same : j = i
    · rw [same, two]
    · rw [counts j same]
      exact few j same
  rcases succeeded i with ⟨response, won⟩
  rcases recalculating_eq
      (recalculating_of_two (staged i) remaining two won) with
    ⟨next, reading, totalling⟩
  rcases Pool.run_cons.mp remaining with ⟨read, step, remaining⟩
  rcases Pool.step_eq_some.mp step with ⟨write, rest, thread, made⟩
  rw [reading, query_bind] at thread
  cases thread
  have unread : read.state = before.state := by rw [made]; rfl
  have own : read.threads i = next (before.state.entriesOf id) := by
    simp [made]
  have late' : ∀ j, Late id (read.threads j) := by
    intro j
    by_cases same : j = i
    · rw [same, own]
      exact .totalling _ (totalling _)
    · rw [made]
      simpa [Function.update_of_ne same] using late j
  -- nobody changes the entries until `i` writes their totals
  rcases Pool.run_append.mp remaining with ⟨middle, waited, remaining⟩
  have kept := entries_of_late late' waited
  rw [unread] at kept
  rw [← kept, ← Pool.run_threads_of_notMem waited absent] at own
  rcases totalling (middle.state.entriesOf id) with ⟨now, answered, left⟩
  rw [left, statement_bind] at own
  rcases Pool.run_cons.mp remaining with ⟨_, step, ended⟩
  cases ended
  rcases Pool.step_eq_some.mp step with ⟨write, rest, thread, rfl⟩
  rw [own] at thread
  cases thread
  rcases settle_eq_or (Prisma.timesheetUpdate now id
      (totalsOf (middle.state.entriesOf id))) middle.state with
    ⟨t, after, outcome, wrote, _⟩ | ⟨e, _, _, failed⟩
  · rw [wrote]
    exact totalsAgree_of_written outcome
  · simp [failed] at won

/-- Eve adds four hours to her draft and deletes the eight it has. -/
def addAndDelete : Concurrent Bool where
  host _ := plainHost
  caller _ := eve
  call
    | true => .createEntry 1 (mondayEntry 1 4)
    | false => .deleteEntry 1 1

theorem addAndDelete_edits (i : Bool) :
    EntryEdit 1 (addAndDelete.call i) := by
  cases i with
  | true => exact .createEntry _
  | false => exact .deleteEntry 1

/-- One after the other the two requests leave the right totals. -/
theorem totalsAgree_in_turn :
    ∃ last, (addAndDelete.pool plainLibs officeDb).run
        (List.replicate 6 true ++ List.replicate 5 false) = some last ∧
      TotalsAgree last.state 1 := by
  have ended : ∃ last, (addAndDelete.pool plainLibs officeDb).run
      (List.replicate 6 true ++ List.replicate 5 false) = some last ∧
        ∀ i, (last.threads i).succeeded :=
    Pool.exists_of_any (by decide +kernel)
  rcases ended with ⟨last, ran, succeeded⟩
  refine ⟨last, ran, ?_⟩
  refine totalsAgree_of_readsLast plainLibs addAndDelete 1 officeDb
    addAndDelete_edits _ last ran
    (fun i => succeeded_iff.mp (succeeded i)) ?_
  exact ⟨false, List.replicate 6 true ++ List.replicate 3 false, [], rfl,
    List.not_mem_nil, fun _ _ => Nat.zero_le 2⟩

/-- The sum of twelve hours read before the deletion is written last. -/
theorem totals_lost :
    (∃ t ∈ officeDb.timesheets.rows, t.id = 1 ∧ t.status = .draft) ∧
      TotalsAgree officeDb 1 ∧
      ∃ last, (addAndDelete.pool plainLibs officeDb).run
        (List.replicate 5 true ++ List.replicate 5 false ++ [true]) =
          some last ∧
        (∀ i, ∃ response, last.threads i = .done (.ok response)) ∧
        ¬ TotalsAgree last.state 1 := by
  refine ⟨by decide +kernel, by unfold TotalsAgree; decide +kernel, ?_⟩
  have ended : ∃ last, (addAndDelete.pool plainLibs officeDb).run
      (List.replicate 5 true ++ List.replicate 5 false ++ [true]) =
        some last ∧
      (∀ i, (last.threads i).succeeded) ∧
        ∀ t ∈ last.state.timesheets.rows, t.totalHours ≠
          ((last.state.entriesOf 1).map (·.totalHours)).sum :=
    Pool.exists_of_any (by decide +kernel)
  rcases ended with ⟨last, ran, succeeded, lost⟩
  refine ⟨last, ran, fun i => succeeded_iff.mp (succeeded i), ?_⟩
  rintro ⟨t, member, _, total, _⟩
  exact lost t member total

end TmsApi
