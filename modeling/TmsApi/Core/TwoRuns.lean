import TmsApi.Core.Program

/-!
# Two runs of one program

A program that only reads is run from two states side by side.  It answers
the same from both when all it reads along the way is the same in both, where
a guard passed on the way may be what makes the next statement read the same.
-/

namespace TmsApi.Core.Program

universe u

variable {σ ε α β : Type u}

/-- Undisturbed runs from two states answer the same and write nothing. -/
structure Alike (program : Program σ ε α) (s t : σ) : Prop where
  answers : (program.exec s).1 = (program.exec t).1
  left : (program.exec s).2 = s
  right : (program.exec t).2 = t

namespace Alike

variable {s t : σ}

theorem done (result : Except ε α) : Alike (done result) s t :=
  ⟨rfl, rfl, rfl⟩

theorem query {read : σ → α} (same : read s = read t) :
    Alike (query (ε := ε) read) s t :=
  ⟨congrArg Except.ok same, rfl, rfl⟩

/-- A statement that only reads. -/
theorem statement {tx : StateT σ (Except ε) α} {read : σ → Except ε α}
    (reads : ∀ state, tx state = (read state).map fun a => (a, state))
    (same : read s = read t) : Alike (statement tx) s t := by
  have run (state : σ) :
      (Program.statement tx).exec state = (read state, state) := by
    cases outcome : read state <;>
      simp [Program.statement, exec, settle, answer, reads, outcome,
        Except.map]
  refine ⟨?_, by rw [run], by rw [run]⟩
  rw [run, run]
  exact same

theorem throwIf (condition : Prop) [Decidable condition] (error : ε) :
    Alike (throwIf condition error) s t := by
  by_cases holds : condition <;>
    simp only [Program.throwIf, holds, ↓reduceIte] <;>
    exact done _

theorem orThrow (found : Option α) (error : ε) :
    Alike (orThrow found error) s t := by
  cases found <;> exact done _

/-- The rest is only run after an answer, and then in the same states. -/
theorem bind {program : Program σ ε α} {f : α → Program σ ε β}
    (first : Alike program s t)
    (rest : ∀ a, (program.exec s).1 = .ok a → Alike (f a) s t) :
    Alike (program >>= f) s t := by
  have answers := first.answers
  have left := first.left
  have right := first.right
  rcases leftRun : program.exec s with ⟨result, s'⟩
  rcases rightRun : program.exec t with ⟨result', t'⟩
  rw [leftRun] at answers left
  rw [rightRun] at answers right
  dsimp only at answers left right
  subst answers left right
  cases result with
  | error e =>
      refine ⟨?_, ?_, ?_⟩
      · rw [exec_bind, exec_bind, leftRun, rightRun]
      · rw [exec_bind, leftRun]
      · rw [exec_bind, rightRun]
  | ok a =>
      have tail := rest a (by rw [leftRun])
      refine ⟨?_, ?_, ?_⟩
      · rw [exec_bind, exec_bind, leftRun, rightRun]
        exact tail.answers
      · rw [exec_bind, leftRun]
        exact tail.left
      · rw [exec_bind, rightRun]
        exact tail.right

theorem whenever {condition : Prop} [Decidable condition]
    {program : Program σ ε PUnit} (branch : condition → Alike program s t) :
    Alike (whenever condition program) s t := by
  by_cases holds : condition
  · rw [Program.whenever, if_pos holds]
    exact branch holds
  · rw [Program.whenever, if_neg holds]
    exact done _

end Alike

/-! ## What an answer tells about a guard -/

variable {s : σ}

theorem eq_some_of_orThrow {found : Option α} {error : ε} {a : α}
    (answered : ((orThrow found error).exec s).1 = .ok a) : found = some a := by
  cases found with
  | none => cases answered
  | some b =>
      cases answered
      rfl

end TmsApi.Core.Program
