import Mathlib.Algebra.Group.Basic

/-!
# Seven values, one for each weekday

Seven parallel columns of a record are one field of type `Week`.  The columns
keep their order, Monday first.
-/

namespace TmsApi.Core

universe u v w

/-- One value for each day of the week. -/
@[ext]
structure Week (α : Type u) where
  mon : α
  tue : α
  wed : α
  thu : α
  fri : α
  sat : α
  sun : α
deriving DecidableEq

namespace Week

variable {α : Type u} {β : Type v} {γ : Type w}

/-- The same value on every day. -/
def const (a : α) : Week α := ⟨a, a, a, a, a, a, a⟩

/-- Apply a function day by day. -/
def map (f : α → β) (week : Week α) : Week β :=
  ⟨f week.mon, f week.tue, f week.wed, f week.thu, f week.fri, f week.sat,
    f week.sun⟩

/-- Combine two weeks day by day. -/
def zipWith (f : α → β → γ) (left : Week α) (right : Week β) : Week γ :=
  ⟨f left.mon right.mon, f left.tue right.tue, f left.wed right.wed,
    f left.thu right.thu, f left.fri right.fri, f left.sat right.sat,
    f left.sun right.sun⟩

/-- The days in column order. -/
def toList (week : Week α) : List α :=
  [week.mon, week.tue, week.wed, week.thu, week.fri, week.sat, week.sun]

/-- The sum over the seven days. -/
def sum [Add α] (week : Week α) : α :=
  week.mon + week.tue + week.wed + week.thu + week.fri + week.sat + week.sun

/-- A property of every day. -/
def All (p : α → Prop) (week : Week α) : Prop :=
  ∀ a ∈ week.toList, p a

theorem all_iff {p : α → Prop} {week : Week α} :
    week.All p ↔
      p week.mon ∧ p week.tue ∧ p week.wed ∧ p week.thu ∧ p week.fri ∧
        p week.sat ∧ p week.sun := by
  simp [All, toList]

instance (p : α → Prop) [DecidablePred p] (week : Week α) :
    Decidable (week.All p) :=
  inferInstanceAs (Decidable (∀ a ∈ week.toList, p a))

/-- Day by day combination keeps what holds of every pair. -/
theorem All.zipWith {p : α → Prop} {q : β → Prop} {r : γ → Prop}
    {f : α → β → γ} (combine : ∀ a b, p a → q b → r (f a b))
    {left : Week α} {right : Week β}
    (leftAll : left.All p) (rightAll : right.All q) :
    (left.zipWith f right).All r := by
  rw [all_iff] at leftAll rightAll ⊢
  rcases leftAll with ⟨a1, a2, a3, a4, a5, a6, a7⟩
  rcases rightAll with ⟨b1, b2, b3, b4, b5, b6, b7⟩
  exact ⟨combine _ _ a1 b1, combine _ _ a2 b2, combine _ _ a3 b3,
    combine _ _ a4 b4, combine _ _ a5 b5, combine _ _ a6 b6,
    combine _ _ a7 b7⟩

end Week

end TmsApi.Core
