import TmsApi.Core.Interleaving

/-!
# Programs among others

A relation on states that everybody keeps to is what a program may rely on
between its statements, and what each of its statements owes the others.
`Among` follows one program from the state it is met in, and `run_among`
turns it into a fact about every schedule of a pool.

Two rules avoid looking into programs.  A program `Issues` transactions of a
kind when that is all its statements do, so that a relation every transaction
of the kind keeps is kept by all such programs.  A program is `Pending` on a
condition when it cannot succeed before one of its statements is the first to
establish the condition; of several such programs at most one succeeds.
-/

namespace TmsApi.Core

universe u v

namespace Program

variable {σ ε α β : Type u}

/-! ## Transactions of a kind -/

/-- Every statement reads or settles a transaction of the kind. -/
def Issues (kind : ∀ γ : Type u, StateT σ (Except ε) γ → Prop) :
    Program σ ε α → Prop
  | done _ => True
  | atomic write next =>
      (write = id ∨ ∃ γ tx, kind γ tx ∧ write = settle tx) ∧
        ∀ s, (next s).Issues kind

section Issues

variable {kind : ∀ γ : Type u, StateT σ (Except ε) γ → Prop}

theorem issues_done (result : Except ε α) :
    (done result : Program σ ε α).Issues kind := trivial

theorem Issues.bind {program : Program σ ε α} {f : α → Program σ ε β}
    (first : program.Issues kind) (rest : ∀ a, (f a).Issues kind) :
    (program >>= f).Issues kind := by
  induction program with
  | done result =>
      cases result with
      | ok a => exact rest a
      | error e => trivial
  | atomic write next ih =>
      exact ⟨first.1, fun s => ih s (first.2 s)⟩

theorem issues_query (read : σ → α) :
    (query (ε := ε) read).Issues kind :=
  ⟨.inl rfl, fun _ => trivial⟩

theorem issues_statement {tx : StateT σ (Except ε) α} (is : kind α tx) :
    (statement tx).Issues kind :=
  ⟨.inr ⟨α, tx, is, rfl⟩, fun _ => trivial⟩

theorem issues_throwIf (condition : Prop) [Decidable condition] (error : ε) :
    (throwIf (σ := σ) condition error).Issues kind := by
  unfold throwIf
  split <;> trivial

theorem issues_orThrow (found : Option α) (error : ε) :
    (orThrow (σ := σ) found error).Issues kind := by
  cases found <;> trivial

theorem Issues.whenever {condition : Prop} [Decidable condition]
    {program : Program σ ε PUnit} (branch : program.Issues kind) :
    (Program.whenever condition program).Issues kind := by
  unfold Program.whenever
  split
  · exact branch
  · trivial

theorem Issues.forEach {body : β → Program σ ε PUnit}
    (each : ∀ item, (body item).Issues kind) (items : List β) :
    (Program.forEach body items).Issues kind := by
  induction items with
  | nil => trivial
  | cons item items ih => exact (each item).bind fun _ => ih

/-- What every transaction of the kind does, every statement does. -/
theorem Issues.safe {rel : σ → σ → Prop} (refl : ∀ s, rel s s)
    (effects : ∀ γ tx, kind γ tx → Effects rel tx)
    {program : Program σ ε α} (issues : program.Issues kind) :
    program.Safe (fun _ => True) rel := by
  induction program with
  | done result => trivial
  | atomic write next ih =>
      intro s _
      refine ⟨?_, trivial, ih s (issues.2 s)⟩
      rcases issues.1 with rfl | ⟨γ, tx, is, rfl⟩
      · exact refl s
      · rcases settle_eq_or tx s with
          ⟨a, s', outcome, left, _⟩ | ⟨_, _, left, _⟩
        · rw [left]
          exact effects γ tx is s a s' outcome
        · rw [left]
          exact refl s

end Issues

/-! ## One program among others -/

/--
Met in `s`, the program keeps to the relation as long as the others do, and
ends in the postcondition.  The others may have led the state on before each
statement and after the last one.
-/
def Among (rel : σ → σ → Prop) (post : Except ε α → σ → Prop) :
    Program σ ε α → σ → Prop
  | done result, s => ∀ t, rel s t → post result t
  | atomic write next, s =>
      ∀ t, rel s t → rel t (write t) ∧ (next t).Among rel post (write t)

section Among

variable {rel : σ → σ → Prop} {post : Except ε α → σ → Prop} {s : σ}

theorem Among.mono {weak : Except ε α → σ → Prop} {program : Program σ ε α}
    (among : program.Among rel post s)
    (implies : ∀ result t, post result t → weak result t) :
    program.Among rel weak s := by
  induction program generalizing s with
  | done result => exact fun t led => implies result t (among t led)
  | atomic write next ih =>
      exact fun t led => ⟨(among t led).1, ih t (among t led).2⟩

/-- What holds of a program in a state still holds when others led it on. -/
theorem Among.later (trans : ∀ s t u, rel s t → rel t u → rel s u)
    {program : Program σ ε α} {t : σ} (among : program.Among rel post s)
    (led : rel s t) : program.Among rel post t := by
  cases program with
  | done result => exact fun u more => among u (trans _ _ _ led more)
  | atomic write next => exact fun u more => among u (trans _ _ _ led more)

theorem Among.bind (refl : ∀ s, rel s s)
    {middle : Except ε β → σ → Prop} {program : Program σ ε β}
    {f : β → Program σ ε α} (first : program.Among rel middle s)
    (fails : ∀ e t, middle (.error e) t → post (.error e) t)
    (rest : ∀ b t, middle (.ok b) t → (f b).Among rel post t) :
    (program >>= f).Among rel post s := by
  induction program generalizing s with
  | done result =>
      cases result with
      | ok b => exact rest b s (first s (refl s))
      | error e => exact fun t led => fails e t (first t led)
  | atomic write next ih =>
      exact fun t led => ⟨(first t led).1, ih t (first t led).2⟩

theorem Among.query_bind (refl : ∀ s, rel s s) {read : σ → β}
    {f : β → Program σ ε α}
    (next : ∀ t, rel s t → (f (read t)).Among rel post t) :
    (query read >>= f).Among rel post s :=
  fun t led => ⟨refl t, next t led⟩

theorem Among.statement_bind (refl : ∀ s, rel s s)
    {tx : StateT σ (Except ε) β} {f : β → Program σ ε α}
    (raises : ∀ e t, rel s t → tx t = .error e → post (.error e) t)
    (stable : ∀ e t u, post (.error e) t → rel t u → post (.error e) u)
    (writes : ∀ b t u, rel s t → tx t = .ok (b, u) →
      rel t u ∧ (f b).Among rel post u) :
    (statement tx >>= f).Among rel post s := by
  rw [Program.statement_bind]
  intro t led
  dsimp only
  rcases settle_eq_or tx t with
    ⟨b, u, outcome, left, answers⟩ | ⟨e, outcome, left, answers⟩
  · rw [left, answers]
    exact writes b t u led outcome
  · rw [left, answers]
    exact ⟨refl t, fun u more => stable e t u (raises e t led outcome) more⟩

theorem Among.throwIf_bind {condition : Prop} [Decidable condition] {e : ε}
    {f : PUnit → Program σ ε α}
    (fails : ∀ t, rel s t → post (.error e) t)
    (next : ¬ condition → (f ⟨⟩).Among rel post s) :
    (throwIf condition e >>= f).Among rel post s := by
  by_cases holds : condition
  · rw [throwIf_of holds]
    exact fails
  · rw [throwIf_of_not holds]
    exact next holds

theorem Among.orThrow_bind {found : Option β} {e : ε}
    {f : β → Program σ ε α} (fails : ∀ t, rel s t → post (.error e) t)
    (next : ∀ b, found = some b → (f b).Among rel post s) :
    (orThrow found e >>= f).Among rel post s := by
  cases found with
  | none => exact fails
  | some b => exact next b rfl

/-- A program that keeps to the relation, and a fact nobody else undoes. -/
theorem Safe.among (trans : ∀ s t u, rel s t → rel t u → rel s u)
    {fact : σ → Prop} (stable : ∀ s t, fact s → rel s t → fact t)
    {program : Program σ ε α} (safe : program.Safe (fun _ => True) rel)
    (holds : fact s) : program.Among rel (fun _ t => fact t) s := by
  induction program generalizing s with
  | done result => exact fun t led => stable s t holds led
  | atomic write next ih =>
      intro t led
      obtain ⟨moved, -, rest⟩ := safe t trivial
      exact ⟨moved, ih t rest (stable s _ holds (trans _ _ _ led moved))⟩

end Among

/-! ## The first to establish a condition -/

/-- No success before a statement of the program turns the condition true. -/
def Pending (taken : σ → Prop) : Program σ ε α → Prop
  | done result => ∀ a, result ≠ .ok a
  | atomic write next =>
      ∀ s, (¬ taken s ∧ taken (write s)) ∨ (next s).Pending taken

section Pending

variable {taken : σ → Prop}

theorem pending_error (e : ε) :
    (done (.error e) : Program σ ε α).Pending taken :=
  fun _ absurd => by cases absurd

/-- What follows a program that waits does not matter. -/
theorem Pending.bind {program : Program σ ε β} {f : β → Program σ ε α}
    (pending : program.Pending taken) : (program >>= f).Pending taken := by
  induction program with
  | done result =>
      cases result with
      | ok b => exact (pending b rfl).elim
      | error e => exact pending_error e
  | atomic write next ih => exact fun s => (pending s).imp_right (ih s)

theorem Pending.query_bind {read : σ → β} {f : β → Program σ ε α}
    (next : ∀ b, (f b).Pending taken) : (query read >>= f).Pending taken :=
  fun s => .inr (next (read s))

theorem Pending.throwIf_bind {condition : Prop} [Decidable condition] {e : ε}
    {f : PUnit → Program σ ε α} (next : (f ⟨⟩).Pending taken) :
    (throwIf condition e >>= f).Pending taken := by
  by_cases holds : condition
  · rw [throwIf_of holds]
    exact pending_error e
  · rw [throwIf_of_not holds]
    exact next

/-- The statement succeeds only where it turns the condition true. -/
theorem pending_statement {tx : StateT σ (Except ε) α}
    (first : ∀ a s s', tx s = .ok (a, s') → ¬ taken s ∧ taken s') :
    (statement tx).Pending taken := by
  intro s
  dsimp only
  rcases settle_eq_or tx s with
    ⟨b, s', outcome, left, _⟩ | ⟨e, _, _, answers⟩
  · rw [left]
    exact .inl (first b s s' outcome)
  · right
    rw [answers]
    exact pending_error e

end Pending

end Program

namespace Pool

open Program

variable {σ ε α : Type u} {ι : Type v} [DecidableEq ι]

variable {rel : σ → σ → Prop} {pool after : Pool σ ε α ι}
variable {schedule : List ι}

/-- A property of pools that every step keeps holds along a schedule. -/
theorem run_induction (inv : Pool σ ε α ι → Prop)
    (kept : ∀ (pool middle : Pool σ ε α ι) i, pool.step i = some middle →
      inv pool → inv middle)
    (ran : pool.run schedule = some after) (holds : inv pool) :
    inv after := by
  induction schedule generalizing pool with
  | nil =>
      cases ran
      exact holds
  | cons i schedule ih =>
      rcases run_cons.mp ran with ⟨middle, step, rest⟩
      exact ih rest (kept pool middle i step holds)

/-- Threads that keep to a relation among each other do so on any schedule. -/
theorem run_among (refl : ∀ s, rel s s)
    (trans : ∀ s t u, rel s t → rel t u → rel s u)
    {post : ι → Except ε α → σ → Prop}
    (ran : pool.run schedule = some after)
    (all : ∀ i, (pool.threads i).Among rel (post i) pool.state) :
    rel pool.state after.state ∧
      ∀ i, (after.threads i).Among rel (post i) after.state := by
  let inv : Pool σ ε α ι → Prop := fun now =>
    rel pool.state now.state ∧
      ∀ i, (now.threads i).Among rel (post i) now.state
  refine run_induction inv ?_ ran ⟨refl _, all⟩
  rintro now middle i step ⟨led, threads⟩
  rcases step_eq_some.mp step with ⟨write, next, thread, rfl⟩
  have own := threads i
  rw [thread] at own
  obtain ⟨moved, rest⟩ := own now.state (refl _)
  refine ⟨trans _ _ _ led moved, fun j => ?_⟩
  by_cases same : j = i
  · subst same
    simpa using rest
  · simpa [Function.update_of_ne same] using (threads j).later trans moved

/--
At most one of the waiting threads has established what they wait for, and
none has where it was so from the start.
-/
structure Exclusive (taken : σ → Prop) (waits : ι → Prop) (start : Prop)
    (pool : Pool σ ε α ι) : Prop where
  stable : ∀ i, (pool.threads i).Safe (fun _ => True)
    fun s s' => taken s → taken s'
  initially : start → taken pool.state
  established : ∀ i, waits i → ¬ (pool.threads i).Pending taken →
    ¬ start ∧ taken pool.state
  alone : ∀ i j, waits i → waits j → ¬ (pool.threads i).Pending taken →
    ¬ (pool.threads j).Pending taken → i = j

theorem Exclusive.step {taken : σ → Prop} {waits : ι → Prop} {start : Prop}
    (holds : pool.Exclusive taken waits start) {k : ι}
    (step : pool.step k = some after) :
    after.Exclusive taken waits start := by
  rcases step_eq_some.mp step with ⟨write, next, thread, rfl⟩
  have own := holds.stable k
  rw [thread] at own
  obtain ⟨keeps, -, rest⟩ := own pool.state trivial
  -- Whoever is no longer pending was so before, or has just been the first.
  have beyond (i : ι) (is : waits i)
      (now : ¬ (Function.update pool.threads k (next pool.state) i).Pending
        taken) :
      ¬ (pool.threads i).Pending taken ∨
        i = k ∧ ¬ taken pool.state ∧ taken (write pool.state) := by
    by_cases same : i = k
    · subst same
      rw [Function.update_self] at now
      by_cases before : (pool.threads i).Pending taken
      · rw [thread] at before
        exact .inr ⟨rfl, (before pool.state).resolve_right now⟩
      · exact .inl before
    · rw [Function.update_of_ne same] at now
      exact .inl now
  constructor
  · intro i
    by_cases same : i = k
    · subst same
      simpa using rest
    · simpa [Function.update_of_ne same] using holds.stable i
  · exact fun so => keeps (holds.initially so)
  · intro i is now
    rcases beyond i is now with before | ⟨_, free, taken⟩
    · have was := holds.established i is before
      exact ⟨was.1, keeps was.2⟩
    · exact ⟨fun so => free (holds.initially so), taken⟩
  · intro i j is js left right
    rcases beyond i is left with before | ⟨rfl, free, _⟩
    · rcases beyond j js right with before' | ⟨rfl, free, _⟩
      · exact holds.alone i j is js before before'
      · exact (free (holds.established i is before).2).elim
    · rcases beyond j js right with before' | ⟨rfl, _, _⟩
      · exact (free (holds.established j js before').2).elim
      · rfl

/--
Of the threads that wait for the same condition, which nobody withdraws, at
most one succeeds, and none where it held from the start.
-/
theorem run_pending {taken : σ → Prop} {waits : ι → Prop}
    (stable : ∀ i, (pool.threads i).Safe (fun _ => True)
      fun s s' => taken s → taken s')
    (pending : ∀ i, waits i → (pool.threads i).Pending taken)
    (ran : pool.run schedule = some after) {i : ι} {a : α} (is : waits i)
    (finished : after.threads i = .done (.ok a)) :
    ¬ taken pool.state ∧ taken after.state ∧
      ∀ j b, waits j → after.threads j = .done (.ok b) → j = i := by
  have start : pool.Exclusive taken waits (taken pool.state) :=
    ⟨stable, id, fun i is beyond => (beyond (pending i is)).elim,
      fun i _ is _ beyond => (beyond (pending i is)).elim⟩
  have holds := run_induction (Exclusive taken waits (taken pool.state))
    (fun _ _ _ step holds => holds.step step) ran start
  have beyond {j : ι} {b : α} (done : after.threads j = .done (.ok b)) :
      ¬ (after.threads j).Pending taken := by
    rw [done]
    exact fun never => never b rfl
  have own := holds.established i is (beyond finished)
  exact ⟨own.1, own.2,
    fun j b js done => holds.alone j i js is (beyond done) (beyond finished)⟩

end Pool

end TmsApi.Core
