import TmsApi.Core.Interleaving
import Mathlib.Data.List.Induction

/-!
# Claiming a slot

Threads that look whether a slot is free in one statement and take it in a
later one.  A thread gives way if it finds the slot held.  As long as only one
of them looks while the slot is free, the slot is taken once at most and all
others give way; two that both find it free are not told apart.
-/

namespace TmsApi.Core

universe u v

namespace Program

variable {σ ε α : Type u}

/-- Once the slot is held, the program leaves it held and ends in `yields`. -/
structure GivesWay (held : σ → Prop) (yields : Except ε α → Prop)
    (program : Program σ ε α) : Prop where
  keeps : program.Safe held (fun _ _ => True)
  ends : program.Ends held yields

/-- The slot was free: the program reads, and takes it at most at its end. -/
def Takes (start : σ) (held : σ → Prop) : Program σ ε α → Prop
  | done _ => True
  | atomic write next =>
      (write start = start ∧ Takes start held (next start)) ∨
        (held (write start) ∧ ∃ result, next start = done result)

/-- The program reads `n` times before it looks at the slot. -/
def Looks (start : σ) (held : σ → Prop) (yields : Except ε α → Prop) :
    Nat → Program σ ε α → Prop
  | _, done result => yields result
  | 0, atomic write next =>
      GivesWay held yields (atomic write next) ∧ write start = start ∧
        Takes start held (next start)
  | n + 1, atomic write next =>
      GivesWay held yields (atomic write next) ∧ write start = start ∧
        Looks start held yields n (next start)

variable {start : σ} {held : σ → Prop} {yields : Except ε α → Prop}

theorem givesWay_done {result : Except ε α} (holds : yields result) :
    GivesWay held yields (done result : Program σ ε α) :=
  ⟨safe_done _, holds⟩

theorem Looks.givesWay {n : Nat} {program : Program σ ε α}
    (looks : program.Looks start held yields n) :
    GivesWay held yields program := by
  cases program with
  | done result =>
      cases n with
      | zero => exact givesWay_done looks
      | succ n => exact givesWay_done looks
  | atomic write next =>
      cases n with
      | zero => exact looks.1
      | succ n => exact looks.1

theorem looks_done {result : Except ε α} (holds : yields result) (n : Nat) :
    (done result : Program σ ε α).Looks start held yields n := by
  cases n with
  | zero => exact holds
  | succ n => exact holds

/-! ## Rules for programs built from statements -/

section Rules

variable {β : Type u} {f : β → Program σ ε α}

theorem GivesWay.query_bind {read : σ → β}
    (next : ∀ s, held s → (f (read s)).GivesWay held yields) :
    (query read >>= f).GivesWay held yields where
  keeps := Safe.query_bind (fun _ _ => trivial)
    fun s holds => (next s holds).keeps
  ends := Ends.query_bind fun s holds => (next s holds).ends

theorem GivesWay.throwIf_bind {condition : Prop} [Decidable condition]
    {e : ε} {f : PUnit → Program σ ε α}
    (fails : condition → yields (.error e))
    (next : ¬ condition → (f ⟨⟩).GivesWay held yields) :
    (throwIf condition e >>= f).GivesWay held yields where
  keeps := Safe.throwIf_bind fun passes => (next passes).keeps
  ends := Ends.throwIf_bind fails fun passes => (next passes).ends

theorem GivesWay.orThrow_bind {found : Option β} {e : ε}
    (fails : found = none → yields (.error e))
    (next : ∀ b, found = some b → (f b).GivesWay held yields) :
    (orThrow found e >>= f).GivesWay held yields where
  keeps := Safe.orThrow_bind fun b same => (next b same).keeps
  ends := Ends.orThrow_bind fails fun b same => (next b same).ends

/-- A statement that succeeds whenever the slot is held, and leaves it so. -/
theorem GivesWay.statement_bind {tx : StateT σ (Except ε) β}
    (succeeds : ∀ s, held s → ∃ b s', tx s = .ok (b, s') ∧ held s' ∧
      (f b).GivesWay held yields) :
    (statement tx >>= f).GivesWay held yields := by
  rw [Program.statement_bind]
  constructor
  · intro s holds
    rcases succeeds s holds with ⟨b, s', outcome, stays, gives⟩
    simp only [settle_of outcome, answer_of outcome]
    exact ⟨trivial, stays, gives.keeps⟩
  · intro s holds
    rcases succeeds s holds with ⟨b, s', outcome, stays, gives⟩
    simp only [answer_of outcome]
    exact gives.ends

theorem Takes.query_bind {read : σ → β}
    (next : (f (read start)).Takes start held) :
    (query read >>= f).Takes start held :=
  .inl ⟨rfl, next⟩

theorem Takes.throwIf_bind {condition : Prop} [Decidable condition]
    {e : ε} {f : PUnit → Program σ ε α}
    (next : ¬ condition → (f ⟨⟩).Takes start held) :
    (throwIf condition e >>= f).Takes start held := by
  by_cases holds : condition
  · rw [throwIf_of holds]
    trivial
  · rw [throwIf_of_not holds]
    exact next holds

/-- The statement that takes the slot, if it succeeds. -/
theorem Takes.statement_bind {tx : StateT σ (Except ε) β}
    (taken : ∀ b s', tx start = .ok (b, s') →
      held s' ∧ ∃ result, f b = done result) :
    (statement tx >>= f).Takes start held := by
  rw [Program.statement_bind]
  rcases settle_eq_or tx start with
    ⟨b, s', outcome, wrote, answered⟩ | ⟨e, _, wrote, answered⟩
  · refine .inr ?_
    simp only [wrote, answered]
    exact taken b s' outcome
  · refine .inl ?_
    simp only [wrote, answered]
    exact ⟨trivial, trivial⟩

theorem Looks.look {read : σ → β}
    (gives : (query read >>= f).GivesWay held yields)
    (next : (f (read start)).Takes start held) :
    (query read >>= f).Looks start held yields 0 :=
  ⟨gives, rfl, next⟩

theorem Looks.query_bind {read : σ → β} {n : Nat}
    (gives : (query read >>= f).GivesWay held yields)
    (next : (f (read start)).Looks start held yields n) :
    (query read >>= f).Looks start held yields (n + 1) :=
  ⟨gives, rfl, next⟩

theorem Looks.throwIf_bind {condition : Prop} [Decidable condition]
    {e : ε} {f : PUnit → Program σ ε α} {n : Nat}
    (fails : condition → yields (.error e))
    (next : ¬ condition → (f ⟨⟩).Looks start held yields n) :
    (throwIf condition e >>= f).Looks start held yields n := by
  by_cases holds : condition
  · rw [throwIf_of holds]
    exact looks_done (fails holds) n
  · rw [throwIf_of_not holds]
    exact next holds

theorem Looks.orThrow_bind {found : Option β} {e : ε} {n : Nat}
    (fails : found = none → yields (.error e))
    (next : ∀ b, found = some b → (f b).Looks start held yields n) :
    (orThrow found e >>= f).Looks start held yields n := by
  cases found with
  | none => exact looks_done (fails rfl) n
  | some b => exact next b rfl

end Rules

end Program

namespace Pool

variable {σ ε α : Type u} {ι : Type v} [DecidableEq ι]
  {pool last : Pool σ ε α ι} {schedule : List ι}

/-- `i` looks at the slot in this schedule while the state is `start`. -/
def Looked (pool : Pool σ ε α ι) (start : σ) (reads : ι → Nat)
    (schedule : List ι) (i : ι) : Prop :=
  ∃ pre before, pre ++ [i] <+: schedule ∧ pre.count i = reads i ∧
    pool.run pre = some before ∧ before.state = start

theorem Looked.append {start : σ} {reads : ι → Nat} {i : ι}
    (looked : pool.Looked start reads schedule i) (more : List ι) :
    pool.Looked start reads (schedule ++ more) i := by
  rcases looked with ⟨pre, before, initial, count, ran, same⟩
  exact ⟨pre, before, initial.trans (List.prefix_append _ _), count, ran,
    same⟩

section Claims

variable {start : σ} {held : σ → Prop} {yields : ι → Except ε α → Prop}
  {reads : ι → Nat}

/-- The slot is free: a thread has not looked, gave up, or is to take it. -/
inductive Claiming (pool : Pool σ ε α ι) (start : σ) (held : σ → Prop)
    (yields : ι → Except ε α → Prop) (reads : ι → Nat)
    (schedule : List ι) (i : ι) (program : Program σ ε α) : Prop where
  | looks (n : Nat) (count : schedule.count i + n = reads i)
      (left : program.Looks start held (yields i) n)
  | gaveUp (result : Except ε α) (left : program = .done result)
      (yielded : yields i result)
  | takes (looked : pool.Looked start reads schedule i)
      (left : program.Takes start held)

/-- What holds of a pool of claimants after a schedule. -/
inductive Claimed (pool : Pool σ ε α ι) (start : σ) (held : σ → Prop)
    (yields : ι → Except ε α → Prop) (reads : ι → Nat)
    (schedule : List ι) (last : Pool σ ε α ι) : Prop where
  | free (untouched : last.state = start)
      (all : ∀ i, Claiming pool start held yields reads schedule i
        (last.threads i))
  | taken (winner : ι) (result : Except ε α) (holds : held last.state)
      (looked : pool.Looked start reads schedule winner)
      (won : last.threads winner = .done result)
      (others : ∀ j, j ≠ winner →
        (last.threads j).GivesWay held (yields j))

/-- Threads that are not scheduled keep their stage. -/
theorem Claiming.idle {i j : ι} {program : Program σ ε α}
    (claiming : Claiming pool start held yields reads schedule j program)
    (apart : j ≠ i) :
    Claiming pool start held yields reads (schedule ++ [i]) j program := by
  cases claiming with
  | looks n count left =>
      refine .looks n ?_ left
      simpa [List.count_append, Ne.symm apart] using count
  | gaveUp result left yielded => exact .gaveUp result left yielded
  | takes looked left => exact .takes (looked.append [i]) left

/-- A thread that has not taken the slot gives way or has looked. -/
theorem Claiming.givesWay {i : ι} {program : Program σ ε α}
    (claiming : Claiming pool start held yields reads schedule i program) :
    program.GivesWay held (yields i) ∨
      pool.Looked start reads schedule i := by
  cases claiming with
  | looks n count left => exact .inl left.givesWay
  | gaveUp result left yielded =>
      exact .inl (left ▸ Program.givesWay_done yielded)
  | takes looked left => exact .inr looked

/-- One statement of a claimant while the slot is free. -/
theorem Claiming.step {i : ι} {middle : Pool σ ε α ι}
    {write : σ → σ} {next : σ → Program σ ε α}
    (ran : pool.run schedule = some middle)
    (untouched : middle.state = start)
    (claiming : Claiming pool start held yields reads schedule i
      (.atomic write next)) :
    (write start = start ∧
        Claiming pool start held yields reads (schedule ++ [i]) i
          (next start)) ∨
      (held (write start) ∧ pool.Looked start reads schedule i ∧
        ∃ result, next start = .done result) := by
  cases claiming with
  | looks n count left =>
      cases n with
      | zero =>
          refine .inl ⟨left.2.1, .takes ?_ left.2.2⟩
          exact ⟨schedule, middle, List.prefix_refl _, count, ran,
            untouched⟩
      | succ n =>
          refine .inl ⟨left.2.1, .looks n ?_ left.2.2⟩
          simp only [List.count_append, List.count_singleton_self]
          omega
  | gaveUp result left yielded => cases left
  | takes looked left =>
      rcases left with ⟨reading, more⟩ | ⟨taken, ended⟩
      · exact .inl ⟨reading, .takes (looked.append [i]) more⟩
      · exact .inr ⟨taken, looked, ended⟩

/-- A statement of a thread that gives way, once the slot is held. -/
theorem Claimed.step_taken {i winner : ι} {middle : Pool σ ε α ι}
    {result : Except ε α} (holds : held middle.state)
    (looked : pool.Looked start reads schedule winner)
    (won : middle.threads winner = .done result)
    (others : ∀ j, j ≠ winner →
      (middle.threads j).GivesWay held (yields j))
    (step : middle.step i = some last) :
    Claimed pool start held yields reads (schedule ++ [i]) last := by
  rcases step_eq_some.mp step with ⟨write, next, thread, rfl⟩
  have apart : i ≠ winner := by
    rintro rfl
    rw [won] at thread
    cases thread
  have gives := others i apart
  rw [thread] at gives
  rcases gives.keeps middle.state holds with ⟨_, stays, keeps⟩
  refine .taken winner result stays (looked.append [i]) ?_ ?_
  · simpa [Function.update_of_ne (Ne.symm apart)] using won
  · intro j other
    by_cases same : j = i
    · subst same
      simpa using Program.GivesWay.mk keeps (gives.ends _ holds)
    · simpa [Function.update_of_ne same] using others j other

/--
Claimants of which at most one looks while the slot is free: the slot is free
after them, or held by one of them while all others give way.
-/
theorem run_claims (begun : pool.state = start)
    (all : ∀ i, (pool.threads i).Looks start held (yields i) (reads i))
    (unique : ∀ i j, pool.Looked start reads schedule i →
      pool.Looked start reads schedule j → i = j)
    (ran : pool.run schedule = some last) :
    Claimed pool start held yields reads schedule last := by
  induction schedule using List.reverseRecOn generalizing last with
  | nil =>
      cases ran
      exact .free begun fun i => .looks (reads i) (by simp) (all i)
  | append_singleton schedule i ih =>
      rcases run_append.mp ran with ⟨middle, began, ended⟩
      rcases run_cons.mp ended with ⟨_, step, same⟩
      cases same
      have before := ih
        (fun i j left right => unique i j (left.append _) (right.append _))
        began
      cases before with
      | taken winner result holds looked won others =>
          exact Claimed.step_taken holds looked won others step
      | free untouched stages =>
          rcases step_eq_some.mp step with ⟨write, next, thread, rfl⟩
          have stage := stages i
          rw [thread] at stage
          rcases stage.step began untouched with
            ⟨reading, stage⟩ | ⟨taken, looked, result, ended⟩
          · refine .free (by simpa [untouched] using reading) fun j => ?_
            by_cases same : j = i
            · subst same
              simpa [untouched] using stage
            · simpa [Function.update_of_ne same] using
                (stages j).idle same
          · refine .taken i result (by simpa [untouched] using taken)
              (looked.append [i]) (by simpa [untouched] using ended)
              fun j apart => ?_
            have gives := (stages j).givesWay.resolve_right
              fun other => apart (unique j i (other.append _)
                (looked.append _))
            simpa [Function.update_of_ne apart] using gives

/-- A claimant that has ended gave way, unless it found the slot free. -/
theorem Claimed.looked_or_yields (claimed : Claimed pool start held yields
      reads schedule last)
    {i : ι} {result : Except ε α} (ended : last.threads i = .done result) :
    pool.Looked start reads schedule i ∨ yields i result := by
  have of_gives (gives : (last.threads i).GivesWay held (yields i)) :
      yields i result := by
    have ends := gives.ends
    rwa [ended] at ends
  cases claimed with
  | taken winner answer holds looked won others =>
      by_cases same : i = winner
      · exact .inl (same ▸ looked)
      · exact .inr (of_gives (others i same))
  | free untouched stages =>
      exact (stages i).givesWay.symm.imp_right of_gives

end Claims

end Pool

end TmsApi.Core
