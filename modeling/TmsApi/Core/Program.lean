import Mathlib.Logic.Relation

/-!
# Request programs over a shared state

A request is a program that performs atomic statements on a shared state and
ends with a value or an exception.  Between two statements it computes on what
it has read so far, so a program is either finished or a statement together
with the rest of the program, which depends on the state the statement saw.

One term gives both readings of a request.  `exec` runs it to completion from
a state, which is the sequential reading, and `wp` is the corresponding
weakest precondition.  The interleaved reading lives in
`TmsApi.Core.Interleaving` and uses the single steps of the same term.
-/

namespace TmsApi.Core

universe u

/--
A program over the state `σ` that may throw `ε` and returns `α`.

`atomic write next` replaces the current state `s` by `write s` in one
indivisible step and continues with `next s`.
-/
inductive Program (σ ε α : Type u) : Type u where
  | done (result : Except ε α)
  | atomic (write : σ → σ) (next : σ → Program σ ε α)

namespace Program

variable {σ ε α β : Type u}

/-- Sequential composition; an exception skips the rest. -/
def bind : Program σ ε α → (α → Program σ ε β) → Program σ ε β
  | done (.ok a), f => f a
  | done (.error e), _ => done (.error e)
  | atomic write next, f => atomic write (fun s => (next s).bind f)

instance : Monad (Program σ ε) where
  pure a := done (.ok a)
  bind := bind

instance : MonadExceptOf ε (Program σ ε) where
  throw e := done (.error e)
  tryCatch
    | done (.error e), handle => handle e
    | program, _ => program

@[simp]
theorem pure_eq (a : α) :
    (pure a : Program σ ε α) = done (.ok a) := rfl

@[simp]
theorem throw_eq (e : ε) :
    (throw e : Program σ ε α) = done (.error e) := rfl

@[simp]
theorem ok_bind (a : α) (f : α → Program σ ε β) :
    (done (.ok a) >>= f) = f a := rfl

@[simp]
theorem error_bind (e : ε) (f : α → Program σ ε β) :
    (done (.error e) >>= f) = done (.error e) := rfl

@[simp]
theorem atomic_bind (write : σ → σ) (next : σ → Program σ ε α)
    (f : α → Program σ ε β) :
    (atomic write next >>= f) =
      atomic write (fun s => next s >>= f) := rfl

/-! ## The statements a program is built from -/

/-- A read-only statement. -/
def query (read : σ → α) : Program σ ε α :=
  atomic id (fun s => done (.ok (read s)))

/-- The state a transaction leaves: its own on success, the old on failure. -/
def settle (tx : StateT σ (Except ε) α) (s : σ) : σ :=
  match tx s with
  | .ok (_, s') => s'
  | .error _ => s

/-- What a transaction answers. -/
def answer (tx : StateT σ (Except ε) α) (s : σ) : Except ε α :=
  match tx s with
  | .ok (a, _) => .ok a
  | .error e => .error e

/--
A statement or a transaction of several statements: it takes effect as a
whole, or it raises and leaves the state alone.
-/
def statement (tx : StateT σ (Except ε) α) : Program σ ε α :=
  atomic (settle tx) (fun s => done (answer tx s))

/-- `if (condition) throw error`. -/
def throwIf (condition : Prop) [Decidable condition] (error : ε) :
    Program σ ε PUnit :=
  if condition then done (.error error) else done (.ok ⟨⟩)

/-- `if (!found) throw error`, with the value found otherwise. -/
def orThrow (found : Option α) (error : ε) : Program σ ε α :=
  match found with
  | some a => done (.ok a)
  | none => done (.error error)

/-- `if (condition) await program`. -/
def whenever (condition : Prop) [Decidable condition]
    (program : Program σ ε PUnit) : Program σ ε PUnit :=
  if condition then program else done (.ok ⟨⟩)

/-- `for (const item of items) await body(item)`. -/
def forEach (body : β → Program σ ε PUnit) :
    List β → Program σ ε PUnit
  | [] => done (.ok ⟨⟩)
  | item :: items => body item >>= fun _ => forEach body items

/-! ## Running to completion -/

/-- The answer and the final state of a program that runs undisturbed. -/
def exec : Program σ ε α → σ → Except ε α × σ
  | done result, s => (result, s)
  | atomic write next, s => (next s).exec (write s)

/-- `post` holds of the answer and the final state of an undisturbed run. -/
def wp (program : Program σ ε α) (post : Except ε α → σ → Prop)
    (s : σ) : Prop :=
  post (program.exec s).1 (program.exec s).2

theorem exec_bind (program : Program σ ε α) (f : α → Program σ ε β)
    (s : σ) :
    (program >>= f).exec s =
      match program.exec s with
      | (.ok a, s') => (f a).exec s'
      | (.error e, s') => (.error e, s') := by
  induction program generalizing s with
  | done result => cases result <;> rfl
  | atomic write next ih => exact ih s (write s)

/-- The postcondition that hands a value on to the rest of the program. -/
def andThen (f : α → Program σ ε β) (post : Except ε β → σ → Prop) :
    Except ε α → σ → Prop
  | .ok a, s => wp (f a) post s
  | .error e, s => post (.error e) s

section Rules

variable {post : Except ε α → σ → Prop} {s : σ}

@[simp]
theorem wp_done (result : Except ε α) :
    wp (done result) post s ↔ post result s := Iff.rfl

@[simp]
theorem wp_atomic (write : σ → σ) (next : σ → Program σ ε α) :
    wp (atomic write next) post s ↔ wp (next s) post (write s) :=
  Iff.rfl

@[simp]
theorem wp_bind (program : Program σ ε α) (f : α → Program σ ε β)
    (post : Except ε β → σ → Prop) :
    wp (program >>= f) post s ↔ wp program (andThen f post) s := by
  induction program generalizing s with
  | done result => cases result <;> rfl
  | atomic write next ih => exact ih s

@[simp]
theorem andThen_ok (f : α → Program σ ε β)
    (post : Except ε β → σ → Prop) (a : α) :
    andThen f post (.ok a) s ↔ wp (f a) post s := Iff.rfl

@[simp]
theorem andThen_error (f : α → Program σ ε β)
    (post : Except ε β → σ → Prop) (e : ε) :
    andThen f post (.error e) s ↔ post (.error e) s := Iff.rfl

@[simp]
theorem wp_query (read : σ → α) :
    wp (query read) post s ↔ post (.ok (read s)) s := Iff.rfl

theorem wp_statement (tx : StateT σ (Except ε) α) :
    wp (statement tx) post s ↔
      (∀ e, tx s = .error e → post (.error e) s) ∧
        ∀ a s', tx s = .ok (a, s') → post (.ok a) s' := by
  cases outcome : tx s with
  | error e => simp [statement, settle, answer, outcome]
  | ok result =>
      rcases result with ⟨a, s'⟩
      simp [statement, settle, answer, outcome]

/-- A statement that has its one outcome exactly under a condition. -/
theorem wp_statement_iff {tx : StateT σ (Except ε) α} {may : Prop} {a : α}
    {s' : σ}
    (exactly : ∀ b after, tx s = .ok (b, after) ↔ may ∧ b = a ∧ after = s')
    (refused : ¬ may → ∀ e, post (.error e) s)
    (written : may → post (.ok a) s') :
    wp (statement tx) post s := by
  rw [wp_statement]
  constructor
  · intro e failed
    refine refused (fun holds => ?_) e
    have wrote : tx s = .ok (a, s') := (exactly a s').mpr ⟨holds, rfl, rfl⟩
    cases failed.symm.trans wrote
  · intro b after wrote
    rcases (exactly b after).mp wrote with ⟨holds, rfl, rfl⟩
    exact written holds

/-- A statement whose outcome is known. -/
theorem wp_statement_of {tx : StateT σ (Except ε) α} {a : α} {s' : σ}
    (outcome : tx s = .ok (a, s')) :
    wp (statement tx) post s ↔ post (.ok a) s' := by
  simp [statement, settle, answer, outcome]

@[simp]
theorem wp_throwIf (condition : Prop) [Decidable condition] (error : ε)
    {post : Except ε PUnit → σ → Prop} :
    wp (throwIf condition error) post s ↔
      (condition → post (.error error) s) ∧
        (¬ condition → post (.ok ⟨⟩) s) := by
  by_cases holds : condition <;> simp [throwIf, holds]

@[simp]
theorem wp_orThrow (found : Option α) (error : ε) :
    wp (orThrow found error) post s ↔
      (found = none → post (.error error) s) ∧
        ∀ a, found = some a → post (.ok a) s := by
  cases found <;> simp [orThrow]

@[simp]
theorem wp_whenever (condition : Prop) [Decidable condition]
    (program : Program σ ε PUnit) {post : Except ε PUnit → σ → Prop} :
    wp (whenever condition program) post s ↔
      (condition → wp program post s) ∧
        (¬ condition → post (.ok ⟨⟩) s) := by
  by_cases holds : condition <;> simp [whenever, holds]

/--
A conditional guard: past it, the fact the guard checks holds whenever its
condition does.
-/
theorem wp_whenever_of {condition fact : Prop} [Decidable condition]
    {program : Program σ ε PUnit} {post : Except ε PUnit → σ → Prop}
    (guard : (∀ e, post (.error e) s) → (fact → post (.ok ⟨⟩) s) →
      wp program post s)
    (fails : ∀ e, post (.error e) s)
    (passes : (condition → fact) → post (.ok ⟨⟩) s) :
    wp (whenever condition program) post s := by
  rw [wp_whenever]
  exact ⟨fun _ => guard fails fun checked => passes fun _ => checked,
    fun skipped => passes fun holds => (skipped holds).elim⟩

theorem wp_forEach_cons (body : β → Program σ ε PUnit) (item : β)
    (items : List β) {post : Except ε PUnit → σ → Prop} :
    wp (forEach body (item :: items)) post s ↔
      wp (body item) (andThen (fun _ => forEach body items) post) s :=
  wp_bind _ _ _

/-- A weaker postcondition asks less. -/
theorem wp_mono {program : Program σ ε α}
    {weak : Except ε α → σ → Prop}
    (implies : ∀ result s', post result s' → weak result s')
    (holds : wp program post s) :
    wp program weak s :=
  implies _ _ holds

/-- What follows from the postcondition wherever the program ends. -/
theorem wp_elim {program : Program σ ε α} {fact : Prop}
    (follows : wp program (fun result s' => post result s' → fact) s)
    (holds : wp program post s) : fact :=
  follows holds

/-- A fact decides how the program ends when it does so at every end. -/
theorem wp_iff {program : Program σ ε α} {fact : Prop} :
    wp program (fun result s' => post result s' ↔ fact) s ↔
      (wp program post s ↔ fact) :=
  Iff.rfl

end Rules

/-- An undisturbed run is a chain of `rel` steps. -/
def Chains (rel : σ → σ → Prop) (program : Program σ ε α) : Prop :=
  ∀ s, wp program (fun _ s' => Relation.ReflTransGen rel s s') s

section Chains

variable {rel : σ → σ → Prop}

theorem chains_done (result : Except ε α) :
    Chains rel (done (σ := σ) result) :=
  fun _ => Relation.ReflTransGen.refl

/-- A chain may be continued by a program that makes chains. -/
theorem Chains.after {program : Program σ ε α} {s t : σ}
    (makes : Chains rel program) (chain : Relation.ReflTransGen rel s t) :
    wp program (fun _ s' => Relation.ReflTransGen rel s s') t :=
  wp_mono (fun _ _ more => chain.trans more) (makes t)

theorem Chains.bind {program : Program σ ε α} {f : α → Program σ ε β}
    (first : Chains rel program) (rest : ∀ a, Chains rel (f a)) :
    Chains rel (program >>= f) := by
  intro s
  rw [wp_bind]
  refine wp_mono ?_ (first s)
  intro result middle chain
  cases result with
  | ok a => exact (rest a).after chain
  | error e => exact chain

end Chains

/-! ## What every statement of a program keeps -/

/-- A transaction relates the states before and after its success. -/
def Effects (rel : σ → σ → Prop) (tx : StateT σ (Except ε) α) : Prop :=
  ∀ s a s', tx s = .ok (a, s') → rel s s'

theorem Effects.pure {rel : σ → σ → Prop} (refl : ∀ s, rel s s) (a : α) :
    Effects rel (pure a : StateT σ (Except ε) α) := by
  intro s b s' outcome
  cases outcome
  exact refl s

/-- A sequence succeeds when both parts do, one after the other. -/
theorem bind_eq_ok {tx : StateT σ (Except ε) α}
    {f : α → StateT σ (Except ε) β} {s u : σ} {b : β} :
    (tx >>= f) s = .ok (b, u) ↔
      ∃ a t, tx s = .ok (a, t) ∧ f a t = .ok (b, u) := by
  have unfolded : (tx >>= f) s = (tx s >>= fun r => f r.1 r.2) := rfl
  rw [unfolded]
  cases tx s with
  | error e => simp [Bind.bind, Except.bind]
  | ok result =>
      rcases result with ⟨a, t⟩
      constructor
      · intro holds
        exact ⟨a, t, rfl, holds⟩
      · rintro ⟨_, _, same, holds⟩
        cases same
        exact holds

theorem Effects.bind {rel : σ → σ → Prop}
    (trans : ∀ s t u, rel s t → rel t u → rel s u)
    {tx : StateT σ (Except ε) α} {f : α → StateT σ (Except ε) β}
    (first : Effects rel tx) (rest : ∀ a, Effects rel (f a)) :
    Effects rel (tx >>= f) := by
  intro s b u outcome
  rcases bind_eq_ok.mp outcome with ⟨a, t, left, right⟩
  exact trans s t u (first s a t left) (rest a t b u right)

/--
From every state satisfying `inv`, each statement makes a step in `rel` and
re-establishes `inv`.  The rest of a program is only asked about states that
satisfy `inv`, which is enough as long as nobody else breaks it.
-/
def Safe (inv : σ → Prop) (rel : σ → σ → Prop) :
    Program σ ε α → Prop
  | done _ => True
  | atomic write next =>
      ∀ s, inv s → rel s (write s) ∧ inv (write s) ∧ (next s).Safe inv rel

section Safe

variable {inv : σ → Prop} {rel : σ → σ → Prop}

@[simp]
theorem safe_done (result : Except ε α) :
    (done result).Safe inv rel := trivial

theorem Safe.bind {program : Program σ ε α} {f : α → Program σ ε β}
    (first : program.Safe inv rel) (rest : ∀ a, (f a).Safe inv rel) :
    (program >>= f).Safe inv rel := by
  induction program with
  | done result =>
      cases result with
      | ok a => exact rest a
      | error e => trivial
  | atomic write next ih =>
      intro s holds
      rcases first s holds with ⟨step, kept, tail⟩
      exact ⟨step, kept, ih s tail⟩

theorem Safe.query (refl : ∀ s, rel s s) (read : σ → α) :
    (Program.query (ε := ε) read).Safe inv rel :=
  fun s holds => ⟨refl s, holds, trivial⟩

theorem Safe.statement (refl : ∀ s, rel s s)
    {tx : StateT σ (Except ε) α}
    (effect : Effects (fun s s' => inv s → rel s s' ∧ inv s') tx) :
    (Program.statement tx).Safe inv rel := by
  intro s holds
  cases outcome : tx s with
  | error e =>
      simp only [settle, outcome]
      exact ⟨refl s, holds, trivial⟩
  | ok result =>
      rcases result with ⟨a, s'⟩
      simp only [settle, outcome]
      exact ⟨(effect s a s' outcome holds).1, (effect s a s' outcome holds).2,
        trivial⟩

theorem Safe.throwIf (condition : Prop) [Decidable condition] (error : ε) :
    (Program.throwIf (σ := σ) condition error).Safe inv rel := by
  by_cases holds : condition <;> simp [Program.throwIf, holds]

theorem Safe.orThrow (found : Option α) (error : ε) :
    (Program.orThrow (σ := σ) found error).Safe inv rel := by
  cases found <;> simp [Program.orThrow]

theorem Safe.whenever {condition : Prop} [Decidable condition]
    {program : Program σ ε PUnit}
    (branch : condition → program.Safe inv rel) :
    (Program.whenever condition program).Safe inv rel := by
  by_cases holds : condition
  · simpa [Program.whenever, holds] using branch holds
  · simp [Program.whenever, holds]

theorem Safe.forEach {body : β → Program σ ε PUnit}
    (each : ∀ item, (body item).Safe inv rel) (items : List β) :
    (Program.forEach body items).Safe inv rel := by
  induction items with
  | nil => trivial
  | cons item items ih => exact (each item).bind fun _ => ih

/-- For a preorder the steps of an undisturbed run add up. -/
theorem Safe.rel_exec {program : Program σ ε α}
    (refl : ∀ s, rel s s) (trans : ∀ s t u, rel s t → rel t u → rel s u)
    (safe : program.Safe inv rel) {s : σ} (holds : inv s) :
    rel s (program.exec s).2 := by
  induction program generalizing s with
  | done result => exact refl s
  | atomic write next ih =>
      rcases safe s holds with ⟨step, kept, tail⟩
      exact trans _ _ _ step (ih s tail kept)

end Safe

end Program

end TmsApi.Core
