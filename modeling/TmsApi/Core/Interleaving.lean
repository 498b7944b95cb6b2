import TmsApi.Core.Program
import Mathlib.Logic.Function.Basic
import Mathlib.Data.List.Count
import Mathlib.Data.List.Infix

/-!
# Interleaved programs

A pool is a shared state with one program for each thread.  A step of a thread
is its next atomic statement, and a finished thread has no step, so a schedule
is a list of threads and counts exactly the statements each of them performed.

The rules below derive what a schedule does from what single programs do.
`run_threads` carries an invariant of the state together with a property of
each thread.  `run_leads` follows every thread for exactly the number of steps
the schedule gives it.  `run_alone` says that threads that only read leave the
one that writes undisturbed.
-/

namespace TmsApi.Core

universe u v

namespace Program

variable {σ ε α β : Type u}

/-! ## Single statements in front of a program -/

@[simp]
theorem query_bind (read : σ → α) (f : α → Program σ ε β) :
    (query read >>= f) = atomic id (fun s => f (read s)) := rfl

@[simp]
theorem statement_bind (tx : StateT σ (Except ε) α)
    (f : α → Program σ ε β) :
    (statement tx >>= f) =
      atomic (settle tx) (fun s => done (answer tx s) >>= f) := rfl

theorem bind_assoc {γ : Type u} (program : Program σ ε α)
    (f : α → Program σ ε β) (g : β → Program σ ε γ) :
    (program >>= f >>= g) = (program >>= fun a => f a >>= g) := by
  induction program with
  | done result => cases result <;> rfl
  | atomic write next ih =>
      simp only [atomic_bind, ih]

theorem throwIf_of {condition : Prop} [Decidable condition]
    (holds : condition) (error : ε) :
    (throwIf condition error : Program σ ε PUnit) = done (.error error) :=
  if_pos holds

theorem throwIf_of_not {condition : Prop} [Decidable condition]
    (fails : ¬ condition) (error : ε) :
    (throwIf condition error : Program σ ε PUnit) = done (.ok ⟨⟩) :=
  if_neg fails

theorem whenever_of {condition : Prop} [Decidable condition]
    (holds : condition) (program : Program σ ε PUnit) :
    whenever condition program = program :=
  if_pos holds

theorem whenever_of_not {condition : Prop} [Decidable condition]
    (fails : ¬ condition) (program : Program σ ε PUnit) :
    whenever condition program = done (.ok ⟨⟩) :=
  if_neg fails

@[simp]
theorem orThrow_some (a : α) (error : ε) :
    (orThrow (some a) error : Program σ ε α) = done (.ok a) := rfl

@[simp]
theorem orThrow_none (error : ε) :
    (orThrow none error : Program σ ε α) = done (.error error) := rfl

theorem settle_of {tx : StateT σ (Except ε) α} {s s' : σ} {a : α}
    (outcome : tx s = .ok (a, s')) : settle tx s = s' := by
  simp [settle, outcome]

theorem answer_of {tx : StateT σ (Except ε) α} {s s' : σ} {a : α}
    (outcome : tx s = .ok (a, s')) : answer tx s = .ok a := by
  simp [answer, outcome]

/-- A transaction that raises changes nothing. -/
theorem settle_eq_or (tx : StateT σ (Except ε) α) (s : σ) :
    (∃ a s', tx s = .ok (a, s') ∧ settle tx s = s' ∧
      answer tx s = .ok a) ∨
      ∃ e, tx s = .error e ∧ settle tx s = s ∧ answer tx s = .error e := by
  cases outcome : tx s with
  | ok result =>
      exact .inl ⟨result.1, result.2, rfl, settle_of outcome,
        answer_of outcome⟩
  | error e => exact .inr ⟨e, rfl, by simp [settle, outcome],
      by simp [answer, outcome]⟩

/-- Run the second program after the first, whatever its answer. -/
def followedBy : Program σ ε α → Program σ ε β → Program σ ε β
  | done _, second => second
  | atomic write next, second =>
      atomic write (fun s => (next s).followedBy second)

/-- The answer of a finished program. -/
def result? : Program σ ε α → Option (Except ε α)
  | done result => some result
  | atomic _ _ => none

@[simp]
theorem result?_eq_some {program : Program σ ε α} {result : Except ε α} :
    program.result? = some result ↔ program = done result := by
  cases program <;> simp [result?]

/-- The program ended without an exception. -/
def succeeded : Program σ ε α → Bool
  | done (.ok _) => true
  | _ => false

theorem succeeded_iff {program : Program σ ε α} :
    program.succeeded ↔ ∃ a, program = done (.ok a) := by
  cases program with
  | done result => cases result <;> simp [succeeded]
  | atomic write next => simp [succeeded]

/-! ## Properties of the remaining steps -/

section Remaining

variable {inv : σ → Prop} {rel : σ → σ → Prop}

theorem Safe.mono {weak : σ → σ → Prop} {program : Program σ ε α}
    (safe : program.Safe inv rel)
    (implies : ∀ s s', inv s → rel s s' → weak s s') :
    program.Safe inv weak := by
  induction program with
  | done result => trivial
  | atomic write next ih =>
      intro s holds
      rcases safe s holds with ⟨step, kept, tail⟩
      exact ⟨implies _ _ holds step, kept, ih s tail⟩

theorem Safe.followedBy {first : Program σ ε α} {second : Program σ ε β}
    (left : first.Safe inv rel) (right : second.Safe inv rel) :
    (first.followedBy second).Safe inv rel := by
  induction first with
  | done result => exact right
  | atomic write next ih =>
      intro s holds
      rcases left s holds with ⟨step, kept, tail⟩
      exact ⟨step, kept, ih s tail⟩

/-- A statement whose every success is a step in `rel`. -/
theorem Safe.writes (refl : ∀ s, rel s s) {tx : StateT σ (Except ε) α}
    (effect : Effects rel tx) :
    (Program.statement tx).Safe (fun _ => True) rel :=
  Safe.statement refl fun s a s' outcome _ =>
    ⟨effect s a s' outcome, trivial⟩

theorem Safe.query_bind (refl : ∀ s, inv s → rel s s) {read : σ → α}
    {f : α → Program σ ε β}
    (next : ∀ s, inv s → (f (read s)).Safe inv rel) :
    (Program.query read >>= f).Safe inv rel :=
  fun s holds => ⟨refl s holds, holds, next s holds⟩

theorem Safe.throwIf_bind {condition : Prop} [Decidable condition] {e : ε}
    {f : PUnit → Program σ ε β}
    (next : ¬ condition → (f ⟨⟩).Safe inv rel) :
    (Program.throwIf condition e >>= f).Safe inv rel := by
  by_cases holds : condition
  · rw [throwIf_of holds]
    trivial
  · rw [throwIf_of_not holds]
    exact next holds

theorem Safe.orThrow_bind {found : Option α} {e : ε}
    {f : α → Program σ ε β}
    (next : ∀ a, found = some a → (f a).Safe inv rel) :
    (Program.orThrow found e >>= f).Safe inv rel := by
  cases found with
  | none => trivial
  | some a => exact next a rfl

/-- A fact that the steps keep may be assumed beside the invariant. -/
theorem Safe.assume_and {fact : σ → Prop} {program : Program σ ε α}
    (safe : program.Safe inv rel)
    (keeps : ∀ s s', fact s → rel s s' → fact s') :
    program.Safe (fun s => inv s ∧ fact s) rel := by
  induction program with
  | done result => trivial
  | atomic write next ih =>
      rintro s ⟨holds, here⟩
      rcases safe s holds with ⟨step, kept, tail⟩
      exact ⟨step, ⟨kept, keeps s _ here step⟩, ih s tail⟩

/-- An invariant that the steps keep may be assumed. -/
theorem Safe.assume {program : Program σ ε α}
    (safe : program.Safe (fun _ => True) rel)
    (keeps : ∀ s s', inv s → rel s s' → inv s') :
    program.Safe inv rel := by
  simpa using safe.assume_and keeps

/-- Nothing is asked of the steps. -/
theorem Safe.trivially (program : Program σ ε α) :
    program.Safe (fun _ => True) (fun _ _ => True) := by
  induction program with
  | done result => trivial
  | atomic write next ih => exact fun s _ => ⟨trivial, trivial, ih s⟩

/-- A query leaves the state alone. -/
theorem Safe.reads (read : σ → α) :
    (Program.query (ε := ε) read).Safe inv (fun s s' => s' = s) :=
  fun _ holds => ⟨rfl, holds, trivial⟩

/-- In states that satisfy `inv` the program only ends in `post`. -/
def Ends (inv : σ → Prop) (post : Except ε α → Prop) :
    Program σ ε α → Prop
  | done result => post result
  | atomic _ next => ∀ s, inv s → (next s).Ends inv post

theorem Ends.mono {post weak : Except ε α → Prop}
    (implies : ∀ result, post result → weak result)
    {program : Program σ ε α} (ends : program.Ends inv post) :
    program.Ends inv weak := by
  induction program with
  | done result => exact implies result ends
  | atomic write next ih => exact fun s holds => ih s (ends s holds)

theorem Ends.trivially (program : Program σ ε α) :
    program.Ends inv (fun _ => True) := by
  induction program with
  | done result => trivial
  | atomic write next ih => exact fun s _ => ih s

theorem Ends.bind {program : Program σ ε α} {f : α → Program σ ε β}
    {middle : Except ε α → Prop} {post : Except ε β → Prop}
    (first : program.Ends inv middle)
    (fails : ∀ e, middle (.error e) → post (.error e))
    (rest : ∀ a, middle (.ok a) → (f a).Ends inv post) :
    (program >>= f).Ends inv post := by
  induction program with
  | done result =>
      cases result with
      | ok a => exact rest a first
      | error e => exact fails e first
  | atomic write next ih => exact fun s holds => ih s (first s holds)

theorem Ends.query_bind {read : σ → α} {f : α → Program σ ε β}
    {post : Except ε β → Prop}
    (next : ∀ s, inv s → (f (read s)).Ends inv post) :
    (query read >>= f).Ends inv post :=
  next

theorem Ends.throwIf_bind {condition : Prop} [Decidable condition] {e : ε}
    {f : PUnit → Program σ ε β} {post : Except ε β → Prop}
    (fails : condition → post (.error e))
    (next : ¬ condition → (f ⟨⟩).Ends inv post) :
    (throwIf condition e >>= f).Ends inv post := by
  by_cases holds : condition
  · rw [throwIf_of holds]
    exact fails holds
  · rw [throwIf_of_not holds]
    exact next holds

theorem Ends.orThrow_bind {found : Option α} {e : ε}
    {f : α → Program σ ε β} {post : Except ε β → Prop}
    (fails : found = none → post (.error e))
    (next : ∀ a, found = some a → (f a).Ends inv post) :
    (orThrow found e >>= f).Ends inv post := by
  cases found with
  | none => exact fails rfl
  | some a => exact next a rfl

/-- An undisturbed run that keeps the invariant ends as the program can. -/
theorem Ends.exec {program : Program σ ε α} {post : Except ε α → Prop}
    (ends : program.Ends inv post) (safe : program.Safe inv rel) {s : σ}
    (holds : inv s) : wp program (fun result _ => post result) s := by
  induction program generalizing s with
  | done result => exact ends
  | atomic write next ih =>
      rcases safe s holds with ⟨_, kept, tail⟩
      exact ih s (ends s holds) tail kept

/-- The rest of a program is only asked about the values it can get. -/
theorem Safe.bind_ends {program : Program σ ε α} {f : α → Program σ ε β}
    {middle : Except ε α → Prop}
    (first : program.Safe inv rel) (ends : program.Ends inv middle)
    (rest : ∀ a, middle (.ok a) → (f a).Safe inv rel) :
    (program >>= f).Safe inv rel := by
  induction program with
  | done result =>
      cases result with
      | ok a => exact rest a ends
      | error e => trivial
  | atomic write next ih =>
      intro s holds
      rcases first s holds with ⟨step, kept, tail⟩
      exact ⟨step, kept, ih s tail (ends s holds)⟩

/-- Every error the program can raise, in any state, is an allowed one. -/
def Raises (allowed : ε → Prop) (program : Program σ ε α) : Prop :=
  program.Ends (fun _ => True) fun result =>
    ∀ e, result = .error e → allowed e

section Raises

variable {allowed : ε → Prop}

/-- An undisturbed run raises what the program can raise. -/
theorem Raises.exec {program : Program σ ε α}
    (raises : program.Raises allowed) (s : σ) :
    wp program (fun result _ => ∀ e, result = .error e → allowed e) s :=
  Ends.exec raises (Safe.trivially program) trivial

theorem raises_ok (a : α) :
    (done (.ok a) : Program σ ε α).Raises allowed :=
  fun _ absurd => by cases absurd

theorem raises_error {e : ε} (may : allowed e) :
    (done (.error e) : Program σ ε α).Raises allowed := by
  intro other same
  cases same
  exact may

theorem raises_query (read : σ → α) :
    (query (ε := ε) read).Raises allowed :=
  fun _ _ => raises_ok _

theorem raises_throwIf {condition : Prop} [Decidable condition] {e : ε}
    (may : allowed e) :
    (throwIf (σ := σ) condition e).Raises allowed := by
  unfold throwIf
  split
  · exact raises_error may
  · exact raises_ok _

theorem raises_orThrow {e : ε} (found : Option α) (may : allowed e) :
    (orThrow (σ := σ) found e).Raises allowed := by
  cases found with
  | none => exact raises_error may
  | some a => exact raises_ok a

theorem raises_statement {tx : StateT σ (Except ε) α}
    (may : ∀ s e, tx s = .error e → allowed e) :
    (statement tx).Raises allowed := by
  intro s _
  change (done (answer tx s) : Program σ ε α).Raises allowed
  rcases settle_eq_or tx s with
    ⟨a, _, _, _, answered⟩ | ⟨e, failed, _, answered⟩
  · rw [answered]
    exact raises_ok a
  · rw [answered]
    exact raises_error (may s e failed)

theorem Raises.bind {program : Program σ ε α} {f : α → Program σ ε β}
    (first : program.Raises allowed) (rest : ∀ a, (f a).Raises allowed) :
    (program >>= f).Raises allowed :=
  Ends.bind first (fun _ may other same => by cases same; exact may _ rfl)
    fun a _ => rest a

theorem Raises.forEach {body : β → Program σ ε PUnit}
    (each : ∀ item, (body item).Raises allowed) (items : List β) :
    (Program.forEach body items).Raises allowed := by
  induction items with
  | nil => exact raises_ok _
  | cons item items ih => exact (each item).bind fun _ => ih

end Raises

/--
The next `n` steps, from states that satisfy `inv`, are steps in `rel` that
keep `inv`, and the program left after them satisfies `rest`.
-/
def Leads (inv : σ → Prop) (rel : σ → σ → Prop)
    (rest : Program σ ε α → Prop) : Nat → Program σ ε α → Prop
  | 0, program => rest program
  | _ + 1, done _ => True
  | n + 1, atomic write next => ∀ s, inv s →
      rel s (write s) ∧ inv (write s) ∧ (next s).Leads inv rel rest n

theorem Leads.mono {rest weak : Program σ ε α → Prop}
    (implies : ∀ program, rest program → weak program) {n : Nat}
    {program : Program σ ε α} (leads : program.Leads inv rel rest n) :
    program.Leads inv rel weak n := by
  induction n generalizing program with
  | zero => exact implies program leads
  | succ n ih =>
      cases program with
      | done result => trivial
      | atomic write next =>
          intro s holds
          rcases leads s holds with ⟨step, kept, tail⟩
          exact ⟨step, kept, ih tail⟩

/-- A program that is over may be counted on. -/
theorem leads_done {rest : Program σ ε α → Prop} {result : Except ε α}
    (ended : rest (done result)) (n : Nat) :
    (done result).Leads inv rel rest n := by
  cases n with
  | zero => exact ended
  | succ n => trivial

theorem Leads.query_bind {rest : Program σ ε β → Prop} {n : Nat}
    (refl : ∀ s, inv s → rel s s) {read : σ → α}
    {f : α → Program σ ε β}
    (next : ∀ s, inv s → (f (read s)).Leads inv rel rest n) :
    (query read >>= f).Leads inv rel rest (n + 1) :=
  fun s holds => ⟨refl s holds, holds, next s holds⟩

theorem Leads.throwIf_bind {rest : Program σ ε β → Prop} {n : Nat}
    {condition : Prop} [Decidable condition] {e : ε}
    {f : PUnit → Program σ ε β}
    (fails : condition → rest (done (.error e)))
    (next : ¬ condition → (f ⟨⟩).Leads inv rel rest n) :
    (throwIf condition e >>= f).Leads inv rel rest n := by
  by_cases holds : condition
  · rw [throwIf_of holds]
    exact leads_done (fails holds) n
  · rw [throwIf_of_not holds]
    exact next holds

theorem Leads.and {left right : Program σ ε α → Prop} {n : Nat}
    {program : Program σ ε α} (first : program.Leads inv rel left n)
    (second : program.Leads inv rel right n) :
    program.Leads inv rel (fun p => left p ∧ right p) n := by
  induction n generalizing program with
  | zero => exact ⟨first, second⟩
  | succ n ih =>
      cases program with
      | done result => trivial
      | atomic write next =>
          intro s holds
          rcases first s holds with ⟨step, kept, tail⟩
          exact ⟨step, kept, ih tail (second s holds).2.2⟩

/-- A safe program is still safe after any number of steps. -/
theorem Safe.leads {program : Program σ ε α}
    (safe : program.Safe inv rel) (n : Nat) :
    program.Leads inv rel (Safe inv rel) n := by
  induction n generalizing program with
  | zero => exact safe
  | succ n ih =>
      cases program with
      | done result => trivial
      | atomic write next =>
          intro s holds
          rcases safe s holds with ⟨step, kept, tail⟩
          exact ⟨step, kept, ih tail⟩

/-- Steps may be counted in two parts. -/
theorem leads_add {rest : Program σ ε α → Prop} {m n : Nat}
    {program : Program σ ε α} :
    program.Leads inv rel rest (m + n) →
      program.Leads inv rel (Leads inv rel rest n) m := by
  induction m generalizing program with
  | zero =>
      intro leads
      simpa [Leads] using leads
  | succ m ih =>
      rw [Nat.succ_add]
      cases program with
      | done result => exact fun _ => trivial
      | atomic write next =>
          intro leads s holds
          rcases leads s holds with ⟨step, kept, tail⟩
          exact ⟨step, kept, ih tail⟩

/--
From states that satisfy `inv`, which its steps keep, the program is not over
before `n` more steps, and what is left then satisfies `rest`.
-/
def Waits (inv : σ → Prop) (rest : Program σ ε α → Prop) :
    Nat → Program σ ε α → Prop
  | 0, program => rest program
  | _ + 1, done _ => False
  | n + 1, atomic write next => ∀ s, inv s →
      inv (write s) ∧ (next s).Waits inv rest n

theorem Waits.leads {rest : Program σ ε α → Prop} {m n : Nat}
    {program : Program σ ε α} (waits : program.Waits inv rest (m + n)) :
    program.Leads inv (fun _ _ => True) (Waits inv rest n) m := by
  induction m generalizing program with
  | zero => simpa [Leads] using waits
  | succ m ih =>
      rw [Nat.succ_add] at waits
      cases program with
      | done result => trivial
      | atomic write next =>
          intro s holds
          rcases waits s holds with ⟨kept, tail⟩
          exact ⟨trivial, kept, ih tail⟩

/-- A program that is over does not wait. -/
theorem not_waits_done {rest : Program σ ε α → Prop} {n : Nat}
    {result : Except ε α} (open_ : ¬ rest (done result)) :
    ¬ (done result).Waits inv rest n := by
  cases n with
  | zero => exact open_
  | succ n => exact id

/-- A program that succeeds only after `n` more steps. -/
def Needs : Nat → Program σ ε α → Prop
  | 0, _ => True
  | _ + 1, done result => ∃ e, result = .error e
  | n + 1, atomic _ next => ∀ s, (next s).Needs n

theorem Needs.mono {m n : Nat} {program : Program σ ε α}
    (needs : program.Needs n) (fewer : m ≤ n) : program.Needs m := by
  induction program generalizing m n with
  | done result =>
      cases m with
      | zero => trivial
      | succ m =>
          cases n with
          | zero => exact (Nat.not_succ_le_zero m fewer).elim
          | succ n => exact needs
  | atomic write next ih =>
      cases m with
      | zero => trivial
      | succ m =>
          cases n with
          | zero => exact (Nat.not_succ_le_zero m fewer).elim
          | succ n =>
              exact fun s => ih s (needs s) (Nat.le_of_succ_le_succ fewer)

end Remaining

end Program

/-! ## Pools -/

/-- A list with more than `n` occurrences splits at the next one. -/
theorem exists_split_of_lt_count {ι : Type} [DecidableEq ι] {i : ι}
    {n : Nat} {xs : List ι} (more : n < xs.count i) :
    ∃ pre post, xs = pre ++ i :: post ∧ pre.count i = n := by
  induction xs generalizing n with
  | nil => simp at more
  | cons x xs ih =>
      by_cases same : x = i
      · subst same
        cases n with
        | zero => exact ⟨[], xs, rfl, rfl⟩
        | succ n =>
            rw [List.count_cons_self] at more
            rcases ih (Nat.lt_of_succ_lt_succ more) with
              ⟨pre, post, split, count⟩
            refine ⟨x :: pre, post, by rw [split]; rfl, ?_⟩
            rw [List.count_cons_self, count]
      · rw [List.count_cons_of_ne same] at more
        rcases ih more with ⟨pre, post, split, count⟩
        refine ⟨x :: pre, post, by rw [split]; rfl, ?_⟩
        rw [List.count_cons_of_ne same, count]

/-- A shared state and the program of each thread. -/
structure Pool (σ ε α : Type u) (ι : Type v) where
  state : σ
  threads : ι → Program σ ε α

namespace Pool

variable {σ ε α : Type u} {ι : Type v} [DecidableEq ι]

/-- The next statement of a thread. -/
def step (pool : Pool σ ε α ι) (i : ι) : Option (Pool σ ε α ι) :=
  match pool.threads i with
  | .done _ => none
  | .atomic write next =>
      some
        { state := write pool.state
          threads := Function.update pool.threads i (next pool.state) }

/-- The statements of a schedule, one after another. -/
def run : Pool σ ε α ι → List ι → Option (Pool σ ε α ι)
  | pool, [] => some pool
  | pool, i :: schedule =>
      match pool.step i with
      | some after => after.run schedule
      | none => none

/-- Every thread has an answer. -/
def Finished (pool : Pool σ ε α ι) : Prop :=
  ∀ i, ∃ result, pool.threads i = .done result

variable {pool middle after : Pool σ ε α ι} {i : ι} {schedule : List ι}

theorem step_eq_some :
    pool.step i = some after ↔
      ∃ write next, pool.threads i = .atomic write next ∧
        after =
          { state := write pool.state
            threads :=
              Function.update pool.threads i (next pool.state) } := by
  unfold step
  cases thread : pool.threads i with
  | done result => simp
  | atomic write next =>
      simp only [Option.some.injEq, Program.atomic.injEq]
      constructor
      · rintro rfl
        exact ⟨write, next, ⟨rfl, rfl⟩, rfl⟩
      · rintro ⟨_, _, ⟨rfl, rfl⟩, rfl⟩
        rfl

@[simp]
theorem run_nil : pool.run ([] : List ι) = some pool := rfl

theorem run_cons :
    pool.run (i :: schedule) = some after ↔
      ∃ middle, pool.step i = some middle ∧
        middle.run schedule = some after := by
  rw [run]
  cases pool.step i <;> simp

theorem run_append {first second : List ι} :
    pool.run (first ++ second) = some after ↔
      ∃ middle, pool.run first = some middle ∧
        middle.run second = some after := by
  induction first generalizing pool with
  | nil => simp
  | cons i first ih =>
      simp only [List.cons_append, run_cons, ih]
      constructor
      · rintro ⟨next, step, middle, left, right⟩
        exact ⟨middle, ⟨next, step, left⟩, right⟩
      · rintro ⟨middle, ⟨next, step, left⟩, right⟩
        exact ⟨next, step, middle, left, right⟩

/-- A schedule that can be evaluated, with a decidable property of its end. -/
theorem exists_of_any {p : Pool σ ε α ι → Prop} [DecidablePred p]
    (ended : (pool.run schedule).any (fun last => decide (p last)) = true) :
    ∃ last, pool.run schedule = some last ∧ p last := by
  rcases (Option.any_eq_true _ _).mp ended with ⟨last, ran, holds⟩
  exact ⟨last, ran, of_decide_eq_true holds⟩

/-- The same for the pools after all prefixes of a schedule. -/
theorem forall_prefix_of_all {p : List ι → Pool σ ε α ι → Prop}
    [∀ pre, DecidablePred (p pre)]
    (holds : ∀ pre ∈ schedule.inits,
      (pool.run pre).all (fun now => decide (p pre now)) = true)
    {pre : List ι} {now : Pool σ ε α ι} (initial : pre <+: schedule)
    (ran : pool.run pre = some now) : p pre now := by
  have there := holds pre ((List.mem_inits _ _).mpr initial)
  rw [ran, Option.all_some] at there
  exact of_decide_eq_true there

/-- Threads outside the schedule stay as they are. -/
theorem run_threads_of_notMem (ran : pool.run schedule = some after)
    (idle : i ∉ schedule) : after.threads i = pool.threads i := by
  induction schedule generalizing pool with
  | nil =>
      cases ran
      rfl
  | cons j schedule ih =>
      rcases run_cons.mp ran with ⟨middle, step, rest⟩
      rcases step_eq_some.mp step with ⟨write, next, _, rfl⟩
      rw [List.mem_cons, not_or] at idle
      rw [ih rest idle.2]
      exact Function.update_of_ne idle.1 _ _

/-- A finished thread is not scheduled. -/
theorem notMem_of_done {result : Except ε α}
    (ran : pool.run schedule = some after)
    (finished : pool.threads i = .done result) : i ∉ schedule := by
  induction schedule generalizing pool with
  | nil => simp
  | cons j schedule ih =>
      rcases run_cons.mp ran with ⟨middle, step, rest⟩
      rcases step_eq_some.mp step with ⟨write, next, thread, rfl⟩
      have apart : i ≠ j := by
        rintro rfl
        rw [finished] at thread
        cases thread
      rw [List.mem_cons, not_or]
      refine ⟨apart, ih rest ?_⟩
      exact (Function.update_of_ne apart _ _).trans finished

/-! ## Rules -/

section Rules

variable {inv : σ → Prop} {rel : σ → σ → Prop}

/-- Every step of a schedule relates the states around it. -/
def Each (rel : σ → σ → Prop) : Pool σ ε α ι → List ι → Prop
  | _, [] => True
  | pool, i :: schedule => ∀ after, pool.step i = some after →
      rel pool.state after.state ∧ after.Each rel schedule

theorem each_append {first second : List ι} :
    pool.Each rel (first ++ second) ↔
      pool.Each rel first ∧ ∀ middle, pool.run first = some middle →
        middle.Each rel second := by
  induction first generalizing pool with
  | nil => simp [Each]
  | cons i first ih =>
      simp only [List.cons_append, Each, ih, run_cons]
      constructor
      · intro each
        exact ⟨fun next step => ⟨(each next step).1, (each next step).2.1⟩,
          fun middle ⟨next, step, ran⟩ => (each next step).2.2 middle ran⟩
      · rintro ⟨left, right⟩ next step
        exact ⟨(left next step).1, (left next step).2,
          fun middle ran => right middle ⟨next, step, ran⟩⟩

/--
A property of single threads that each of their steps keeps, together with an
invariant of the state, holds along every schedule.
-/
theorem run_threads (inv : σ → Prop) (rel : σ → σ → Prop)
    (good : ι → Program σ ε α → Prop)
    (kept : ∀ i write next, good i (.atomic write next) → ∀ s, inv s →
      rel s (write s) ∧ inv (write s) ∧ good i (next s))
    (ran : pool.run schedule = some after)
    (holds : inv pool.state) (all : ∀ i, good i (pool.threads i)) :
    pool.Each rel schedule ∧ inv after.state ∧
      ∀ i, good i (after.threads i) := by
  induction schedule generalizing pool with
  | nil =>
      cases ran
      exact ⟨trivial, holds, all⟩
  | cons i schedule ih =>
      rcases run_cons.mp ran with ⟨middle, step, rest⟩
      rcases step_eq_some.mp step with ⟨write, next, thread, made⟩
      rcases kept i write next (thread ▸ all i) pool.state holds with
        ⟨related, stays, tail⟩
      have good' : ∀ j, good j (middle.threads j) := by
        intro j
        subst made
        by_cases same : j = i
        · subst same
          simpa using tail
        · simpa [Function.update_of_ne same] using all j
      have holds' : inv middle.state := by simpa [made] using stays
      rcases ih rest holds' good' with ⟨each, last⟩
      refine ⟨?_, last⟩
      intro other taken
      cases step.symm.trans taken
      exact ⟨by simpa [made] using related, each⟩

/-- Threads followed for exactly the steps a schedule gives them. -/
theorem run_leads {rest : ι → Program σ ε α → Prop}
    (ran : pool.run schedule = some after) (holds : inv pool.state)
    (all : ∀ i, (pool.threads i).Leads inv rel (rest i)
      (schedule.count i)) :
    pool.Each rel schedule ∧ inv after.state ∧
      ∀ i, rest i (after.threads i) := by
  induction schedule generalizing pool with
  | nil =>
      cases ran
      exact ⟨trivial, holds, fun i => by simpa [Program.Leads] using all i⟩
  | cons i schedule ih =>
      rcases run_cons.mp ran with ⟨middle, step, tail⟩
      rcases step_eq_some.mp step with ⟨write, next, thread, made⟩
      have own := all i
      rw [thread, List.count_cons_self] at own
      rcases own pool.state holds with ⟨related, stays, leads⟩
      have all' : ∀ j, (middle.threads j).Leads inv rel (rest j)
          (schedule.count j) := by
        intro j
        subst made
        by_cases same : j = i
        · subst same
          simpa using leads
        · have other := all j
          rw [List.count_cons_of_ne (Ne.symm same)] at other
          simpa [Function.update_of_ne same] using other
      have holds' : inv middle.state := by simpa [made] using stays
      rcases ih tail holds' all' with ⟨each, last⟩
      refine ⟨?_, last⟩
      intro other taken
      cases step.symm.trans taken
      exact ⟨by simpa [made] using related, each⟩

/-- Threads that are safe keep the invariant and stay safe. -/
theorem run_all_safe (ran : pool.run schedule = some after)
    (holds : inv pool.state)
    (all : ∀ i, (pool.threads i).Safe inv rel) :
    pool.Each rel schedule ∧ inv after.state ∧
      ∀ i, (after.threads i).Safe inv rel :=
  run_threads inv rel (fun _ program => program.Safe inv rel)
    (fun _ _ _ safe s holds => safe s holds) ran holds all

/-- Threads that are safe whenever they are scheduled keep the invariant. -/
theorem run_safe (inv : σ → Prop) (rel : σ → σ → Prop)
    (ran : pool.run schedule = some after) (holds : inv pool.state)
    (all : ∀ i ∈ schedule, (pool.threads i).Safe inv rel) :
    pool.Each rel schedule ∧ inv after.state := by
  have leads : ∀ i, (pool.threads i).Leads inv rel (fun _ => True)
      (schedule.count i) := by
    intro i
    by_cases scheduled : i ∈ schedule
    · exact Program.Leads.mono (fun _ _ => trivial)
        ((all i scheduled).leads _)
    · rw [List.count_eq_zero_of_not_mem scheduled]
      trivial
  have result := run_leads ran holds leads
  exact ⟨result.1, result.2.1⟩

/-- What a thread ends in while everybody keeps the invariant. -/
theorem run_ends {post : ι → Except ε α → Prop}
    (ran : pool.run schedule = some after) (holds : inv pool.state)
    (safe : ∀ i, (pool.threads i).Safe inv rel)
    (ends : ∀ i, (pool.threads i).Ends inv (post i)) {result : Except ε α}
    (finished : after.threads i = .done result) : post i result := by
  have all := run_threads inv rel
    (fun i program => program.Safe inv rel ∧ program.Ends inv (post i))
    ?_ ran holds (fun i => ⟨safe i, ends i⟩)
  · have own := (all.2.2 i).2
    rwa [finished] at own
  · rintro j write next ⟨safe, ends⟩ s holds
    rcases safe s holds with ⟨related, stays, tail⟩
    exact ⟨related, stays, tail, ends s holds⟩

/-- A thread that is safe in every state stays so along a run. -/
theorem safe_of_thread (ran : pool.run schedule = some after)
    (safe : (pool.threads i).Safe (fun _ => True) rel) :
    (after.threads i).Safe (fun _ => True) rel := by
  have kept : ∀ j write next,
      (j = i → (Program.atomic write next : Program σ ε α).Safe
        (fun _ => True) rel) → ∀ s : σ, True →
        True ∧ True ∧ (j = i → (next s).Safe (fun _ => True) rel) := by
    intro j write next safe s _
    exact ⟨trivial, trivial, fun same => (safe same s trivial).2.2⟩
  refine (run_threads (fun _ => True) (fun _ _ => True)
    (fun j program => j = i → program.Safe (fun _ => True) rel) kept ran
    trivial ?_).2.2 i rfl
  rintro j rfl
  exact safe

/-- What a thread ends in whatever the others do. -/
theorem ends_of_thread {post : Except ε α → Prop}
    (ran : pool.run schedule = some after)
    (ends : (pool.threads i).Ends (fun _ => True) post)
    {result : Except ε α} (finished : after.threads i = .done result) :
    post result := by
  have every : ∀ j, (pool.threads j).Ends (fun _ => True)
      (fun result => j = i → post result) := by
    intro j
    by_cases same : j = i
    · subst same
      exact ends.mono fun _ holds _ => holds
    · exact Program.Ends.mono (fun _ _ equal => (same equal).elim)
        (Program.Ends.trivially _)
  exact run_ends ran trivial (fun j => Program.Safe.trivially _) every
    finished rfl

/-- A thread that succeeds has made the steps it needs. -/
theorem needs_le_count {n : Nat} {a : α}
    (ran : pool.run schedule = some after)
    (needs : (pool.threads i).Needs n)
    (succeeded : after.threads i = .done (.ok a)) :
    n ≤ schedule.count i := by
  induction schedule generalizing pool n with
  | nil =>
      cases ran
      rw [succeeded] at needs
      cases n with
      | zero => exact Nat.zero_le _
      | succ n =>
          rcases needs with ⟨e, absurd⟩
          cases absurd
  | cons j schedule ih =>
      rcases run_cons.mp ran with ⟨middle, step, rest⟩
      rcases step_eq_some.mp step with ⟨write, next, thread, rfl⟩
      by_cases same : i = j
      · subst same
        rw [List.count_cons_self]
        cases n with
        | zero => exact Nat.zero_le _
        | succ n =>
            rw [thread] at needs
            refine Nat.succ_le_succ (ih rest ?_)
            simpa using needs pool.state
      · rw [List.count_cons_of_ne (Ne.symm same)]
        refine ih rest ?_
        simpa [Function.update_of_ne same] using needs

/-- A thread that is short after `n` steps is scheduled `n` times at most. -/
theorem count_le_of_leads {n : Nat}
    (ran : pool.run schedule = some after)
    (short : (pool.threads i).Leads (fun _ => True) (fun _ _ => True)
      (fun left => ∃ result, left = .done result) n) :
    schedule.count i ≤ n := by
  induction schedule generalizing pool n with
  | nil => exact Nat.zero_le n
  | cons j schedule ih =>
      rcases run_cons.mp ran with ⟨middle, step, rest⟩
      rcases step_eq_some.mp step with ⟨write, next, thread, rfl⟩
      by_cases same : i = j
      · subst same
        rw [thread] at short
        cases n with
        | zero =>
            rcases short with ⟨result, absurd⟩
            cases absurd
        | succ n =>
            rw [List.count_cons_self]
            refine Nat.succ_le_succ (ih rest ?_)
            simpa using (short pool.state trivial).2.2
      · rw [List.count_cons_of_ne (Ne.symm same)]
        refine ih rest ?_
        simpa [Function.update_of_ne same] using short

/-- A thread that waits is scheduled more often before it is over. -/
theorem lt_count_of_waits {rest : Program σ ε α → Prop} {n : Nat}
    {result : Except ε α} (ran : pool.run schedule = some after)
    (holds : inv pool.state)
    (waits : (pool.threads i).Waits inv rest n)
    (others : ∀ j, j ≠ i → (pool.threads j).Safe inv (fun _ _ => True))
    (finished : after.threads i = .done result)
    (open_ : ¬ rest (.done result)) : n < schedule.count i := by
  by_contra few
  rcases Nat.exists_eq_add_of_le (Nat.le_of_not_lt few) with ⟨k, rfl⟩
  have leads : ∀ j, (pool.threads j).Leads inv (fun _ _ => True)
      (fun left => j = i → left.Waits inv rest k) (schedule.count j) := by
    intro j
    by_cases same : j = i
    · subst same
      exact waits.leads.mono fun _ left _ => left
    · exact ((others j same).leads _).mono
        fun _ _ equal => (same equal).elim
  have left := (run_leads ran holds leads).2.2 i rfl
  rw [finished] at left
  exact Program.not_waits_done open_ left

/--
While the others only read, a thread runs as if it were alone: what is left of
it ends in the same answer and state, whatever is scheduled in between.
-/
theorem run_alone (ran : pool.run schedule = some after)
    (holds : inv pool.state)
    (own : (pool.threads i).Safe inv rel)
    (others : ∀ j ∈ schedule, j ≠ i →
      (pool.threads j).Safe inv (fun s s' => s' = s)) :
    (after.threads i).exec after.state =
      (pool.threads i).exec pool.state := by
  induction schedule generalizing pool with
  | nil =>
      cases ran
      rfl
  | cons j schedule ih =>
      rcases run_cons.mp ran with ⟨middle, step, rest⟩
      rcases step_eq_some.mp step with ⟨write, next, thread, rfl⟩
      by_cases same : j = i
      · subst same
        rw [thread] at own
        rcases own pool.state holds with ⟨_, stays, tail⟩
        rw [ih rest stays (by simpa using tail) ?_, thread]
        · simp [Program.exec]
        · intro k scheduled apart
          simpa [Function.update_of_ne apart] using
            others k (List.mem_cons_of_mem _ scheduled) apart
      · have reads := others j List.mem_cons_self same
        rw [thread] at reads
        rcases reads pool.state holds with ⟨unchanged, stays, tail⟩
        rw [ih rest stays ?_ ?_]
        · simp [Function.update_of_ne (Ne.symm same), unchanged]
        · simpa [Function.update_of_ne (Ne.symm same)] using own
        · intro k scheduled apart
          by_cases again : k = j
          · subst again
            simpa using tail
          · simpa [Function.update_of_ne again] using
              others k (List.mem_cons_of_mem _ scheduled) apart

end Rules

end Pool

end TmsApi.Core
