import TmsApi.Core.Table
import Mathlib.Data.List.Sort

/-!
# Histories of a table

Two ways in which a table can come from an earlier one, each in terms of what
a function reads of the rows.  In `Appends` rows are only added at the end and
the reading of the old ones never changes.  In `Descends` rows may also be
deleted, but a key is never handed out twice, so a row under an old key is the
old row as far as the function reads it.

Both are preorders that the operations of a relational client keep.  They also
keep rows in the order of their keys, so that rows which are in both of two
tables are in the same order there.
-/

namespace TmsApi.Core.Table

open Keyed

universe u v

variable {Row : Type u} [Keyed Row] {Out : Type v} {f : Row → Out}
variable {before middle after table : Table Row}

/-- Rows that are changed where it is not read read the same. -/
theorem map_modify {p : Row → Prop} [DecidablePred p] {g : Row → Row}
    [KeepsKey g] (same : ∀ row, f (g row) = f row) :
    (table.modify p g).rows.map f = table.rows.map f := by
  rw [rows_modify, List.map_map]
  refine List.map_congr_left fun row _ => ?_
  rw [Function.comp_apply]
  split
  · exact same row
  · rfl

/-! ## Rows that stay -/

/-- Rows are only added, at the end, and old ones read the same. -/
def Appends (f : Row → Out) (before after : Table Row) : Prop :=
  before.rows.map f <+: after.rows.map f

namespace Appends

theorem refl (f : Row → Out) (table : Table Row) : Appends f table table :=
  List.prefix_rfl

theorem trans (left : Appends f before middle)
    (right : Appends f middle after) : Appends f before after :=
  List.IsPrefix.trans left right

theorem insert (make : Nat → Row) [Stamps make] :
    Appends f table (table.insert make) := by
  unfold Appends
  rw [rows_insert, List.map_append]
  exact List.prefix_append _ _

theorem modify {p : Row → Prop} [DecidablePred p] {g : Row → Row}
    [KeepsKey g] (same : ∀ row, f (g row) = f row) :
    Appends f table (table.modify p g) :=
  ⟨[], by rw [List.append_nil, map_modify same]⟩

/-- A row is still there, and reads as before. -/
theorem exists_of_mem (appends : Appends f before after) {row : Row}
    (member : row ∈ before.rows) : ∃ new ∈ after.rows, f new = f row :=
  List.mem_map.mp (List.IsPrefix.subset appends (List.mem_map_of_mem member))

end Appends

/-! ## Rows that may go -/

/-- A row under an old key is an old row, as far as it is read. -/
structure Descends (f : Row → Out) (before after : Table Row) : Prop where
  next_le : before.next ≤ after.next
  origin : ∀ row ∈ after.rows, key row < before.next →
    ∃ old ∈ before.rows, key old = key row ∧ f old = f row

namespace Descends

theorem refl (f : Row → Out) (table : Table Row) : Descends f table table where
  next_le := le_rfl
  origin row member _ := ⟨row, member, rfl, rfl⟩

theorem trans (left : Descends f before middle)
    (right : Descends f middle after) : Descends f before after where
  next_le := left.next_le.trans right.next_le
  origin row member old := by
    rcases right.origin row member (lt_of_lt_of_le old left.next_le) with
      ⟨mid, midMem, midKey, midReads⟩
    rcases left.origin mid midMem (midKey ▸ old) with
      ⟨first, firstMem, firstKey, firstReads⟩
    exact ⟨first, firstMem, firstKey.trans midKey, firstReads.trans midReads⟩

theorem insert (make : Nat → Row) [Stamps make] :
    Descends f table (table.insert make) where
  next_le := by
    rw [next_insert]
    exact Nat.le_succ _
  origin row member old := by
    rcases mem_insert.mp member with here | rfl
    · exact ⟨row, here, rfl, rfl⟩
    · rw [Stamps.key_make] at old
      exact (Nat.lt_irrefl _ old).elim

theorem insertMany {Item : Type v} (make : Item → Nat → Row)
    [∀ item, Stamps (make item)] (table : Table Row) (items : List Item) :
    Descends f table (Table.insertMany make table items) := by
  induction items generalizing table with
  | nil => exact refl f table
  | cons item items ih => exact (insert (make item)).trans (ih _)

theorem modify {p : Row → Prop} [DecidablePred p] {g : Row → Row}
    [KeepsKey g] (same : ∀ row, f (g row) = f row) :
    Descends f table (table.modify p g) where
  next_le := le_rfl
  origin row member _ := by
    rcases mem_modify.mp member with ⟨old, oldMem, rfl⟩
    refine ⟨old, oldMem, ?_⟩
    split
    · exact ⟨(KeepsKey.key_map old).symm, (same old).symm⟩
    · exact ⟨rfl, rfl⟩

theorem deleteWhere {p : Row → Prop} [DecidablePred p] :
    Descends f table (table.deleteWhere p) where
  next_le := le_rfl
  origin row member _ := ⟨row, (mem_deleteWhere.mp member).1, rfl, rfl⟩

/-- What a row of both tables reads is the same in both. -/
theorem reads_eq (descends : Descends f before after) {old row : Row}
    (oldMem : old ∈ before.rows) (member : row ∈ after.rows)
    (same : key row = key old) : f row = f old := by
  have below := before.keys_below old oldMem
  rcases descends.origin row member (same ▸ below) with
    ⟨first, firstMem, firstKey, reads⟩
  rw [before.eq_of_key oldMem firstMem (same.symm.trans firstKey.symm), reads]

end Descends

/-! ## Rows in the order of their keys -/

/-- Later rows have greater keys. -/
def Ordered (table : Table Row) : Prop :=
  table.rows.Pairwise fun left right => key left < key right

namespace Ordered

theorem empty : (empty : Table Row).Ordered :=
  List.Pairwise.nil

theorem insert (ordered : table.Ordered) (make : Nat → Row)
    [Stamps make] : (table.insert make).Ordered := by
  rw [Ordered, rows_insert, List.pairwise_append]
  refine ⟨ordered, List.pairwise_singleton _ _, ?_⟩
  intro row member new last
  rw [List.mem_singleton.mp last, Stamps.key_make]
  exact table.keys_below row member

theorem insertMany {Item : Type v} {make : Item → Nat → Row}
    [∀ item, Stamps (make item)] (ordered : table.Ordered)
    (items : List Item) : (Table.insertMany make table items).Ordered := by
  induction items generalizing table with
  | nil => exact ordered
  | cons item items ih => exact ih (ordered.insert (make item))

theorem modify (ordered : table.Ordered) {p : Row → Prop} [DecidablePred p]
    {g : Row → Row} [KeepsKey g] : (table.modify p g).Ordered := by
  have same : ∀ row, key (if p row then g row else row) = key row := by
    intro row
    split
    · exact KeepsKey.key_map row
    · rfl
  rw [Ordered, rows_modify, List.pairwise_map]
  refine ordered.imp fun {left right} before => ?_
  rwa [same, same]

theorem deleteWhere (ordered : table.Ordered) {p : Row → Prop}
    [DecidablePred p] : (table.deleteWhere p).Ordered := by
  rw [Ordered, rows_deleteWhere]
  exact List.Pairwise.filter _ ordered

end Ordered

end TmsApi.Core.Table
