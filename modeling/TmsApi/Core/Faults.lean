import TmsApi.Core.Program

/-!
# Runs with a failing statement

Every statement of a program either takes effect or raises and leaves the
state alone.  `failing` runs a program until a given number of statements has
taken effect and lets the next one raise.  It answers with the number of
statements that were still to come, so that the rest of a program continues
with what its first part has left over.

A program without further statements is not disturbed, so a large number gives
the undisturbed run.
-/

namespace TmsApi.Core

universe u

namespace Program

variable {σ ε α β : Type u}

/-- Raise `fault` in the statement after `k` others. -/
def failing (fault : ε) :
    Program σ ε α → Nat → σ → Except ε α × Nat × σ
  | done result, k, s => (result, k, s)
  | atomic _ _, 0, s => (.error fault, 0, s)
  | atomic write next, k + 1, s => (next s).failing fault k (write s)

section

variable {fault : ε} {k left : Nat} {s s' : σ}

@[simp]
theorem failing_done (result : Except ε α) :
    (done result).failing fault k s = (result, k, s) := rfl

@[simp]
theorem failing_atomic_zero (write : σ → σ) (next : σ → Program σ ε α) :
    (atomic write next).failing fault 0 s = (.error fault, 0, s) := rfl

@[simp]
theorem failing_atomic_succ (write : σ → σ) (next : σ → Program σ ε α) :
    (atomic write next).failing fault (k + 1) s =
      (next s).failing fault k (write s) := rfl

@[simp]
theorem failing_query_zero (read : σ → α) :
    (query read).failing fault 0 s = (.error fault, 0, s) := rfl

@[simp]
theorem failing_query_succ (read : σ → α) :
    (query read).failing fault (k + 1) s = (.ok (read s), k, s) := rfl

@[simp]
theorem failing_statement_zero (tx : StateT σ (Except ε) α) :
    (statement tx).failing fault 0 s = (.error fault, 0, s) := rfl

theorem failing_statement_succ {tx : StateT σ (Except ε) α} {a : α}
    (outcome : tx s = .ok (a, s')) :
    (statement tx).failing fault (k + 1) s = (.ok a, k, s') := by
  simp [statement, failing, answer, settle, outcome]

/-- The rest of a program meets what its first part has left over. -/
theorem failing_bind (program : Program σ ε α) (f : α → Program σ ε β) :
    (program >>= f).failing fault k s =
      match program.failing fault k s with
      | (.ok a, left, s') => (f a).failing fault left s'
      | (.error e, left, s') => (.error e, left, s') := by
  induction program generalizing k s with
  | done result => cases result <;> rfl
  | atomic write next ih =>
      cases k with
      | zero => rfl
      | succ k => exact ih s

theorem failing_bind_ok {program : Program σ ε α} {a : α}
    (ends : program.failing fault k s = (.ok a, left, s'))
    (f : α → Program σ ε β) :
    (program >>= f).failing fault k s = (f a).failing fault left s' := by
  rw [failing_bind, ends]

theorem failing_bind_error {program : Program σ ε α} {e : ε}
    (ends : program.failing fault k s = (.error e, left, s'))
    (f : α → Program σ ε β) :
    (program >>= f).failing fault k s = (.error e, left, s') := by
  rw [failing_bind, ends]

/-- A run with an answer has met no fault. -/
theorem exec_of_failing {program : Program σ ε α} {a : α}
    (ends : program.failing fault k s = (.ok a, left, s')) :
    program.exec s = (.ok a, s') := by
  induction program generalizing k s with
  | done result =>
      cases ends
      rfl
  | atomic write next ih =>
      cases k with
      | zero => cases ends
      | succ k => exact ih s ends

/-- A fault leaves an invariant that every statement keeps. -/
theorem Safe.failing {inv : σ → Prop} {rel : σ → σ → Prop}
    {program : Program σ ε α} (safe : program.Safe inv rel) (holds : inv s)
    (fault : ε) (k : Nat) : inv (program.failing fault k s).2.2 := by
  induction program generalizing k s with
  | done result => exact holds
  | atomic write next ih =>
      cases k with
      | zero => exact holds
      | succ k =>
          rcases safe s holds with ⟨_, kept, tail⟩
          exact ih s tail kept k

end

end Program

end TmsApi.Core
