import Mathlib.Data.List.GetD
import Mathlib.Logic.Function.Basic

/-!
# Sheets written row by row

A sheet has a row for every number and knows the last one that was written.
Written from top to bottom it holds a list of rows: writing a row behind the
last one appends to this list, with blank rows where some are skipped, and a
loop that writes one row an item appends those of its items.
-/

namespace TmsApi.Core

universe u v

structure Sheet (Row : Type u) where
  row : Nat → Row
  rowCount : Nat

namespace Sheet

variable {Row : Type u} {Item : Type v}

/-- Nothing is written yet. -/
def empty (blank : Row) : Sheet Row :=
  ⟨fun _ => blank, 0⟩

/-- The row with a number is written over. -/
def edit (sheet : Sheet Row) (number : Nat) (change : Row → Row) :
    Sheet Row where
  row := Function.update sheet.row number (change (sheet.row number))
  rowCount := max sheet.rowCount number

/-- The first row behind all others is written. -/
def addRow (sheet : Sheet Row) (change : Row → Row) : Sheet Row :=
  sheet.edit (sheet.rowCount + 1) change

/-- One row an item, and the number of the row behind them. -/
def writeRows (write : Item → Row → Row) (start : Sheet Row × Nat)
    (items : List Item) : Sheet Row × Nat :=
  items.foldl
    (fun place item => (place.1.edit place.2 (write item), place.2 + 1)) start

/-- So many rows from a number on. -/
def rows (sheet : Sheet Row) (first count : Nat) : List Row :=
  (List.range' first count).map sheet.row

@[simp]
theorem rowCount_edit (sheet : Sheet Row) (number : Nat)
    (change : Row → Row) :
    (sheet.edit number change).rowCount = max sheet.rowCount number :=
  rfl

/-- The rows from the first on are those of a list, and then blank ones. -/
structure Holds (sheet : Sheet Row) (blank : Row) (list : List Row) :
    Prop where
  rowCount : sheet.rowCount = list.length
  row : ∀ index, sheet.row (index + 1) = list.getD index blank

namespace Holds

variable {sheet : Sheet Row} {blank : Row} {list : List Row}

theorem empty (blank : Row) : (Sheet.empty blank).Holds blank [] where
  rowCount := rfl
  row _ := rfl

theorem cast (holds : sheet.Holds blank list) {other : List Row}
    (same : list = other) : sheet.Holds blank other :=
  same ▸ holds

/-- A row behind the last one is appended, with the blank ones between. -/
theorem edit (holds : sheet.Holds blank list) (skipped : Nat) {number : Nat}
    (behind : number = sheet.rowCount + skipped + 1) (change : Row → Row) :
    (sheet.edit number change).Holds blank
      (list ++ List.replicate skipped blank ++ [change blank]) where
  rowCount := by
    rw [rowCount_edit, holds.rowCount, List.length_append, List.length_append,
      List.length_replicate, List.length_singleton, behind, holds.rowCount]
    omega
  row index := by
    have length : (list ++ List.replicate skipped blank).length =
        list.length + skipped := by
      rw [List.length_append, List.length_replicate]
    rw [holds.rowCount] at behind
    subst behind
    change Function.update _ _ _ _ = _
    rcases Nat.lt_trichotomy index (list.length + skipped) with
      before | rfl | later
    · rw [Function.update_of_ne (by omega), holds.row,
        List.getD_append _ _ _ _ (by omega)]
      by_cases within : index < list.length
      · rw [List.getD_append _ _ _ _ within]
      · rw [List.getD_append_right _ _ _ _ (by omega),
          List.getD_eq_default _ _ (by omega),
          List.getD_replicate _ (by omega)]
    · rw [Function.update_self, holds.row,
        List.getD_append_right _ _ _ _ (by omega), length, Nat.sub_self,
        List.getD_eq_default _ _ (by omega)]
      rfl
    · rw [Function.update_of_ne (by omega), holds.row,
        List.getD_eq_default _ _ (by omega), List.getD_eq_default]
      rw [List.length_append, length, List.length_singleton]
      omega

/-- The row right behind the last one is appended. -/
theorem edit_next (holds : sheet.Holds blank list) {number : Nat}
    (next : number = sheet.rowCount + 1) (change : Row → Row) :
    (sheet.edit number change).Holds blank (list ++ [change blank]) := by
  simpa using holds.edit 0 next change

theorem addRow (holds : sheet.Holds blank list) (change : Row → Row) :
    (sheet.addRow change).Holds blank (list ++ [change blank]) :=
  holds.edit_next rfl change

/-- A loop of such rows appends one an item. -/
theorem addRows (holds : sheet.Holds blank list) (write : Item → Row → Row)
    (items : List Item) :
    (items.foldl (fun sheet item => sheet.addRow (write item)) sheet).Holds
      blank (list ++ items.map fun item => write item blank) := by
  induction items generalizing sheet list with
  | nil => simpa using holds
  | cons item items ih =>
      rw [List.foldl_cons, List.map_cons, List.append_cons]
      exact ih (holds.addRow (write item))

/-- So does the loop that counts its rows. -/
theorem writeRows (holds : sheet.Holds blank list) {first : Nat}
    (next : first = sheet.rowCount + 1) (write : Item → Row → Row)
    (items : List Item) :
    (Sheet.writeRows write (sheet, first) items).1.Holds blank
        (list ++ items.map fun item => write item blank) ∧
      (Sheet.writeRows write (sheet, first) items).2 =
        first + items.length := by
  induction items generalizing sheet list first with
  | nil => exact ⟨by simpa [Sheet.writeRows] using holds, rfl⟩
  | cons item items ih =>
      have step : Sheet.writeRows write (sheet, first) (item :: items) =
          Sheet.writeRows write (sheet.edit first (write item), first + 1)
            items :=
        rfl
      have behind : first + 1 =
          (sheet.edit first (write item)).rowCount + 1 := by
        rw [rowCount_edit]
        omega
      have written := ih (holds.edit_next next (write item)) behind
      rw [step, List.map_cons, List.append_cons, List.length_cons]
      exact ⟨written.1, written.2.trans (by omega)⟩

/-- The rows of a part of the list. -/
theorem rows (holds : sheet.Holds blank list) {first count : Nat}
    (within : first + count ≤ list.length) :
    sheet.rows (first + 1) count = (list.drop first).take count := by
  refine List.ext_getElem ?_ fun index left right => ?_
  · simp only [Sheet.rows, List.length_map, List.length_range',
      List.length_take, List.length_drop]
    omega
  · rw [List.length_take, List.length_drop] at right
    simp only [Sheet.rows, List.getElem_map, List.getElem_range', Nat.one_mul,
      List.getElem_take, List.getElem_drop]
    rw [Nat.add_right_comm, holds.row, List.getD_eq_getElem]

/-- All rows down to the last one. -/
theorem rows_all (holds : sheet.Holds blank list) :
    sheet.rows 1 sheet.rowCount = list := by
  have within : 0 + list.length ≤ list.length := by
    omega
  rw [holds.rowCount]
  exact (holds.rows within).trans (by rw [List.drop_zero, List.take_length])

end Holds

end Sheet

end TmsApi.Core
