import TmsApi.Core.Rely
import Mathlib.Algebra.BigOperators.Pi
import Mathlib.Algebra.BigOperators.Group.Finset.Basic

/-!
# What programs add to an amount

An amount is read off the state.  Of each program in a pool it is recorded
what its own statements have added to the amount so far, which no statement of
another program can disturb.  The amount at the end of a schedule is then the
amount at its start and all that was added, and what a program has added is
told by what it ended in.

Some schedules only are of interest, so each step is taken to be admitted: a
program has to account for its statements as far as they are.
-/

namespace TmsApi.Core

universe u v w

namespace Program

variable {σ ε α β : Type u} {M : Type w} [AddCommMonoid M]

/--
Met in `s` after it has added `paid`, the program keeps to the relation with
its admitted steps and ends in the postcondition, which speaks of all it has
added.
-/
def Adds (rel admits : σ → σ → Prop) (amount : σ → M)
    (post : Except ε α → M → σ → Prop) : Program σ ε α → M → σ → Prop
  | done result, paid, s => ∀ t, rel s t → post result paid t
  | atomic write next, paid, s =>
      ∀ t, rel s t → admits t (write t) → rel t (write t) ∧ ∃ more,
        amount (write t) = amount t + more ∧
          (next t).Adds rel admits amount post (paid + more) (write t)

section Adds

variable {rel admits : σ → σ → Prop} {amount : σ → M}
variable {post : Except ε α → M → σ → Prop} {paid : M} {s : σ}

theorem Adds.later (trans : ∀ s t u, rel s t → rel t u → rel s u)
    {program : Program σ ε α} {t : σ}
    (adds : program.Adds rel admits amount post paid s) (led : rel s t) :
    program.Adds rel admits amount post paid t := by
  cases program with
  | done result => exact fun u more => adds u (trans _ _ _ led more)
  | atomic write next => exact fun u more => adds u (trans _ _ _ led more)

theorem Adds.mono {weak : Except ε α → M → σ → Prop}
    {program : Program σ ε α}
    (adds : program.Adds rel admits amount post paid s)
    (implies : ∀ result paid t, post result paid t → weak result paid t) :
    program.Adds rel admits amount weak paid s := by
  induction program generalizing paid s with
  | done result => exact fun t led => implies result paid t (adds t led)
  | atomic write next ih =>
      intro t led step
      obtain ⟨moved, more, added, rest⟩ := adds t led step
      exact ⟨moved, more, added, ih t rest⟩

/-- What the program met at first may be said of the end. -/
theorem Adds.since (refl : ∀ s, rel s s)
    (trans : ∀ s t u, rel s t → rel t u → rel s u)
    {program : Program σ ε α}
    (adds : program.Adds rel admits amount post paid s) :
    program.Adds rel admits amount
      (fun result now t => post result now t ∧ rel s t) paid s := by
  have from_ (first : σ) (led : rel first s) : program.Adds rel admits amount
      (fun result now t => post result now t ∧ rel first t) paid s := by
    induction program generalizing paid s with
    | done result =>
        exact fun t more => ⟨adds t more, trans _ _ _ led more⟩
    | atomic write next ih =>
        intro t more step
        obtain ⟨moved, plus, added, rest⟩ := adds t more step
        exact ⟨moved, plus, added,
          ih t rest (trans _ _ _ led (trans _ _ _ more moved))⟩
  exact from_ s (refl s)

theorem Adds.bind (refl : ∀ s, rel s s)
    {middle : Except ε β → M → σ → Prop} {program : Program σ ε β}
    {f : β → Program σ ε α}
    (first : program.Adds rel admits amount middle paid s)
    (fails : ∀ e paid t, middle (.error e) paid t → post (.error e) paid t)
    (rest : ∀ b paid t, middle (.ok b) paid t →
      (f b).Adds rel admits amount post paid t) :
    (program >>= f).Adds rel admits amount post paid s := by
  induction program generalizing paid s with
  | done result =>
      cases result with
      | ok b => exact rest b paid s (first s (refl s))
      | error e => exact fun t led => fails e paid t (first t led)
  | atomic write next ih =>
      intro t led step
      obtain ⟨moved, more, added, tail⟩ := first t led step
      exact ⟨moved, more, added, ih t tail⟩

theorem Adds.query_bind (refl : ∀ s, rel s s) {read : σ → β}
    {f : β → Program σ ε α}
    (next : ∀ t, rel s t → (f (read t)).Adds rel admits amount post paid t) :
    (query read >>= f).Adds rel admits amount post paid s := by
  intro t led _
  refine ⟨refl t, 0, (add_zero _).symm, ?_⟩
  rw [add_zero]
  exact next t led

theorem Adds.statement_bind (refl : ∀ s, rel s s)
    {tx : StateT σ (Except ε) β} {f : β → Program σ ε α}
    (raises : ∀ e t u, rel s t → tx t = .error e → rel t u →
      post (.error e) paid u)
    (writes : ∀ b t u, rel s t → tx t = .ok (b, u) → admits t u →
      rel t u ∧ ∃ more, amount u = amount t + more ∧
        (f b).Adds rel admits amount post (paid + more) u) :
    (statement tx >>= f).Adds rel admits amount post paid s := by
  rw [Program.statement_bind]
  intro t led step
  dsimp only at step ⊢
  rcases settle_eq_or tx t with
    ⟨b, u, outcome, left, answers⟩ | ⟨e, outcome, left, answers⟩
  · rw [left] at step ⊢
    rw [answers]
    exact writes b t u led outcome step
  · rw [left, answers]
    refine ⟨refl t, 0, (add_zero _).symm, fun u more => ?_⟩
    rw [add_zero]
    exact raises e t u led outcome more

theorem Adds.throwIf_bind {condition : Prop} [Decidable condition] {e : ε}
    {f : PUnit → Program σ ε α}
    (fails : ∀ t, rel s t → post (.error e) paid t)
    (next : ¬ condition → (f ⟨⟩).Adds rel admits amount post paid s) :
    (throwIf condition e >>= f).Adds rel admits amount post paid s := by
  by_cases holds : condition
  · rw [throwIf_of holds]
    exact fails
  · rw [throwIf_of_not holds]
    exact next holds

theorem Adds.orThrow_bind {found : Option β} {e : ε}
    {f : β → Program σ ε α} (fails : ∀ t, rel s t → post (.error e) paid t)
    (next : ∀ b, found = some b → (f b).Adds rel admits amount post paid s) :
    (orThrow found e >>= f).Adds rel admits amount post paid s := by
  cases found with
  | none => exact fails
  | some b => exact next b rfl

/--
A program adds nothing when no transaction it issues does so, as long as a
fact holds that nobody undoes.
-/
theorem Issues.adds {kind : ∀ γ : Type u, StateT σ (Except ε) γ → Prop}
    (refl : ∀ s, rel s s) {fact : σ → Prop}
    (stable : ∀ s t, fact s → rel s t → fact t)
    (effects : ∀ γ tx, kind γ tx →
      Effects (fun s t => fact s → admits s t →
        rel s t ∧ amount t = amount s) tx)
    {program : Program σ ε α} (issues : program.Issues kind)
    (holds : fact s) :
    program.Adds rel admits amount (fun _ now t => now = paid ∧ fact t) paid
      s := by
  induction program generalizing s with
  | done result => exact fun t led => ⟨rfl, stable s t holds led⟩
  | atomic write next ih =>
      intro t led admitted
      have before := stable s t holds led
      have step : rel t (write t) ∧ amount (write t) = amount t := by
        rcases issues.1 with rfl | ⟨γ, tx, is, rfl⟩
        · exact ⟨refl t, rfl⟩
        · rcases settle_eq_or tx t with
            ⟨a, t', outcome, left, _⟩ | ⟨_, _, left, _⟩
          · rw [left] at admitted ⊢
            exact effects γ tx is t a t' outcome before admitted
          · rw [left]
            exact ⟨refl t, rfl⟩
      refine ⟨step.1, 0, step.2.trans (add_zero _).symm, ?_⟩
      rw [add_zero]
      exact ih t (issues.2 t) (stable t _ before step.1)

end Adds

end Program

namespace Pool

open Program

variable {σ ε α : Type u} {ι : Type v} [DecidableEq ι] [Fintype ι]
variable {M : Type w} [AddCommMonoid M]
variable {rel admits : σ → σ → Prop} {amount : σ → M}
variable {pool after : Pool σ ε α ι} {schedule : List ι}

/-- All steps of a schedule are admitted. -/
def Admitted (pool : Pool σ ε α ι) (admits : σ → σ → Prop)
    (schedule : List ι) : Prop :=
  ∀ pre i before after, pre ++ [i] <+: schedule →
    pool.run pre = some before → before.step i = some after →
      admits before.state after.state

/-- The amount at the end of a schedule is accounted for by the threads. -/
theorem run_adds (refl : ∀ s, rel s s)
    (trans : ∀ s t u, rel s t → rel t u → rel s u)
    {post : ι → Except ε α → M → σ → Prop}
    (ran : pool.run schedule = some after)
    (admitted : pool.Admitted admits schedule)
    (all : ∀ i, (pool.threads i).Adds rel admits amount (post i) 0 pool.state) :
    ∃ paid : ι → M, amount after.state = amount pool.state + ∑ i, paid i ∧
      ∀ i, (after.threads i).Adds rel admits amount (post i) (paid i)
        after.state := by
  induction schedule using List.reverseRecOn generalizing after with
  | nil =>
      cases ran
      exact ⟨0, by simp, all⟩
  | append_singleton schedule i ih =>
      rcases run_append.mp ran with ⟨now, began, ended⟩
      rcases run_cons.mp ended with ⟨_, step, same⟩
      cases same
      have steps : pool.Admitted admits schedule :=
        fun pre i before after initial =>
          admitted pre i before after (initial.trans (List.prefix_append _ _))
      rcases ih began steps with ⟨paid, sum, threads⟩
      have taken := admitted schedule i now after (List.prefix_refl _) began
        step
      rcases step_eq_some.mp step with ⟨write, next, thread, rfl⟩
      have own := threads i
      rw [thread] at own
      obtain ⟨moved, more, added, rest⟩ := own now.state (refl _) taken
      refine ⟨paid + Pi.single i more, ?_, fun j => ?_⟩
      · dsimp only
        rw [added, sum, add_assoc]
        simp only [Pi.add_apply, Finset.sum_add_distrib,
          Finset.sum_pi_single', Finset.mem_univ, if_true]
      · by_cases same : j = i
        · subst same
          simpa using rest
        · simpa [Function.update_of_ne same, Pi.single_eq_of_ne same] using
            (threads j).later trans moved

/-- What a finished thread has added is told by what it ended in. -/
theorem adds_finished (refl : ∀ s, rel s s)
    {post : Except ε α → M → σ → Prop} {program : Program σ ε α} {paid : M}
    {s : σ} {result : Except ε α}
    (adds : program.Adds rel admits amount post paid s)
    (finished : program = .done result) : post result paid s := by
  rw [finished] at adds
  exact adds s (refl s)

end Pool

end TmsApi.Core
