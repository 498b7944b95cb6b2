import Mathlib.Data.List.Nodup
import Mathlib.Algebra.BigOperators.Group.List.Basic
import Mathlib.Tactic.Abel

/-!
# Tables with an autoincrement primary key

A table is the list of its rows together with the next key the server hands
out.  Two facts are carried by the structure itself: no key occurs twice, and
every key lies below the next one.  Hence a row is determined by its key, and
a freshly inserted row never meets an old reference.

The operations are those of a relational client: insertion of one row or of a
list of rows, modification and deletion of the rows selected by a predicate,
and lookup.  A foreign key is the proposition `References`, and its rules say
which operations on either table keep it.
-/

namespace TmsApi.Core

universe u v

/-- Rows addressed by a numerical primary key. -/
class Keyed (Row : Type u) where
  key : Row → Nat

/-- The rows of a table and the next autoincrement value. -/
structure Table (Row : Type u) [Keyed Row] where
  rows : List Row
  next : Nat
  keys_nodup : (rows.map Keyed.key).Nodup
  keys_below : ∀ row ∈ rows, Keyed.key row < next

namespace Table

open Keyed

variable {Row : Type u} [Keyed Row]

/-- The table of a fresh schema; autoincrement starts at one. -/
def empty : Table Row where
  rows := []
  next := 1
  keys_nodup := by simp
  keys_below := by simp

@[simp]
theorem rows_empty : (empty : Table Row).rows = [] := rfl

/-- A table is its rows and its counter. -/
@[ext]
theorem ext {left right : Table Row}
    (rows : left.rows = right.rows) (next : left.next = right.next) :
    left = right := by
  cases left
  cases right
  cases rows
  cases next
  rfl

/-- Two rows of one table with the same key are the same row. -/
theorem eq_of_key (table : Table Row) {left right : Row}
    (leftMem : left ∈ table.rows) (rightMem : right ∈ table.rows)
    (keys : key left = key right) :
    left = right :=
  List.inj_on_of_nodup_map table.keys_nodup leftMem rightMem keys

/-! ## Lookup -/

/-- Some row of the table carries the key. -/
def HasKey (table : Table Row) (k : Nat) : Prop :=
  ∃ row ∈ table.rows, key row = k

instance (table : Table Row) (k : Nat) : Decidable (table.HasKey k) :=
  inferInstanceAs (Decidable (∃ row ∈ table.rows, key row = k))

theorem HasKey.below {table : Table Row} {k : Nat}
    (has : table.HasKey k) : k < table.next := by
  rcases has with ⟨row, member, rfl⟩
  exact table.keys_below row member

theorem not_hasKey_next (table : Table Row) :
    ¬ table.HasKey table.next :=
  fun has => Nat.lt_irrefl _ has.below

/-- The rows selected by a predicate, in table order. -/
def select (table : Table Row) (p : Row → Prop) [DecidablePred p] :
    List Row :=
  table.rows.filter (fun row => decide (p row))

@[simp]
theorem mem_select {table : Table Row} {p : Row → Prop}
    [DecidablePred p] {row : Row} :
    row ∈ table.select p ↔ row ∈ table.rows ∧ p row := by
  simp [select]

theorem select_of_rows {left right : Table Row} (same : right.rows = left.rows)
    (p : Row → Prop) [DecidablePred p] : right.select p = left.select p := by
  rw [select, select, same]

theorem select_congr {table : Table Row} {p q : Row → Prop}
    [DecidablePred p] [DecidablePred q]
    (same : ∀ row ∈ table.rows, p row ↔ q row) :
    table.select p = table.select q :=
  List.filter_congr fun row member => decide_eq_decide.mpr (same row member)

/-- A narrower condition selects the same where a wider one does. -/
theorem select_of_select {left right : Table Row} {p q : Row → Prop}
    [DecidablePred p] [DecidablePred q]
    (same : right.select q = left.select q)
    (leftWithin : ∀ row ∈ left.rows, p row → q row)
    (rightWithin : ∀ row ∈ right.rows, p row → q row) :
    right.select p = left.select p := by
  have through (table : Table Row)
      (within : ∀ row ∈ table.rows, p row → q row) :
      table.select p = (table.select q).filter fun row => decide (p row) := by
    rw [select, select, List.filter_filter]
    refine List.filter_congr fun row member => ?_
    by_cases holds : p row
    · simp [holds, within row member holds]
    · simp [holds]
  rw [through right rightWithin, through left leftWithin, same]

/-- Where a row contributes to one selection only, it contributes nothing. -/
theorem flatMap_select {Out : Type v} {table : Table Row} {p q : Row → Prop}
    [DecidablePred p] [DecidablePred q] {f g : Row → List Out}
    (both : ∀ row ∈ table.rows, p row → q row → f row = g row)
    (left : ∀ row ∈ table.rows, p row → ¬ q row → f row = [])
    (right : ∀ row ∈ table.rows, q row → ¬ p row → g row = []) :
    (table.select p).flatMap f = (table.select q).flatMap g := by
  have through (p : Row → Prop) [DecidablePred p] (f : Row → List Out) :
      (table.select p).flatMap f =
        table.rows.flatMap fun row => if p row then f row else [] := by
    unfold select
    induction table.rows with
    | nil => rfl
    | cons row rows ih =>
        by_cases holds : p row
        · simp [holds, ih]
        · simp [holds, ih]
  rw [through p f, through q g]
  refine List.flatMap_congr fun row member => ?_
  by_cases inLeft : p row
  · by_cases inRight : q row
    · rw [if_pos inLeft, if_pos inRight, both row member inLeft inRight]
    · rw [if_pos inLeft, if_neg inRight, left row member inLeft inRight]
  · by_cases inRight : q row
    · rw [if_neg inLeft, if_pos inRight, right row member inRight inLeft]
    · rw [if_neg inLeft, if_neg inRight]

/-- The first row selected by a predicate. -/
def find? (table : Table Row) (p : Row → Prop) [DecidablePred p] :
    Option Row :=
  table.rows.find? (fun row => decide (p row))

theorem find?_of_rows {left right : Table Row} (same : right.rows = left.rows)
    (p : Row → Prop) [DecidablePred p] : right.find? p = left.find? p := by
  rw [find?, find?, same]

theorem find?_of_select {left right : Table Row} {p : Row → Prop}
    [DecidablePred p] (same : right.select p = left.select p) :
    right.find? p = left.find? p := by
  have first (table : Table Row) : table.find? p = (table.select p).head? :=
    List.head?_filter.symm
  rw [first, first, same]

theorem mem_of_find? {table : Table Row} {p : Row → Prop}
    [DecidablePred p] {row : Row}
    (found : table.find? p = some row) :
    row ∈ table.rows :=
  List.mem_of_find?_eq_some found

theorem holds_of_find? {table : Table Row} {p : Row → Prop}
    [DecidablePred p] {row : Row}
    (found : table.find? p = some row) :
    p row := by
  simpa using List.find?_some found

/-- A found row is a row of the table that the predicate selects. -/
theorem find?_spec {table : Table Row} {p : Row → Prop}
    [DecidablePred p] {row : Row}
    (found : table.find? p = some row) :
    row ∈ table.rows ∧ p row :=
  ⟨mem_of_find? found, holds_of_find? found⟩

theorem find?_eq_none {table : Table Row} {p : Row → Prop}
    [DecidablePred p] :
    table.find? p = none ↔ ∀ row ∈ table.rows, ¬ p row := by
  simp [find?]

theorem exists_of_find? {table : Table Row} {p : Row → Prop}
    [DecidablePred p] (found : ¬ (table.find? p).isNone) :
    ∃ row ∈ table.rows, p row := by
  by_contra none
  refine found ?_
  rw [Option.isNone_iff_eq_none, find?_eq_none]
  intro row member holds
  exact none ⟨row, member, holds⟩

/-- A predicate that pins the key finds the row it holds of. -/
theorem find?_of_mem {table : Table Row} {p : Row → Prop}
    [DecidablePred p] {row : Row}
    (member : row ∈ table.rows) (holds : p row)
    (pins : ∀ other, p other → key other = key row) :
    table.find? p = some row := by
  cases found : table.find? p with
  | none =>
      exact (find?_eq_none.mp found row member holds).elim
  | some other =>
      have same := pins other (holds_of_find? found)
      rw [table.eq_of_key (mem_of_find? found) member same]

/-- A row that both tables select is found in both by its key. -/
theorem find?_of_shared {left right : Table Row} {p q : Row → Prop}
    [DecidablePred p] [DecidablePred q] {row : Row}
    (same : right.select q = left.select q) (member : row ∈ left.rows)
    (inside : q row) (holds : p row)
    (pins : ∀ other, p other → key other = key row) :
    right.find? p = left.find? p := by
  have selected : row ∈ right.select q := by
    rw [same]
    exact mem_select.mpr ⟨member, inside⟩
  rw [find?_of_mem member holds pins,
    find?_of_mem (mem_select.mp selected).1 holds pins]

/-! ## Insertion -/

/-- A row constructor that stores the key it is given. -/
class Stamps (make : Nat → Row) : Prop where
  key_make : ∀ k, key (make k) = k

/-- A map on rows that keeps their key. -/
class KeepsKey (f : Row → Row) : Prop where
  key_map : ∀ row, key (f row) = key row

/-- Insert the row built for the next key. -/
def insert (table : Table Row) (make : Nat → Row) [Stamps make] :
    Table Row where
  rows := table.rows ++ [make table.next]
  next := table.next + 1
  keys_nodup := by
    simp only [List.map_append, List.map_cons, List.map_nil,
      Stamps.key_make]
    refine List.Nodup.append table.keys_nodup (by simp) ?_
    intro k member new
    rcases List.mem_map.mp member with ⟨row, rowMem, rfl⟩
    simp only [List.mem_singleton] at new
    exact absurd (table.keys_below row rowMem) (by omega)
  keys_below := by
    intro row member
    rcases List.mem_append.mp member with old | new
    · exact Nat.lt_succ_of_lt (table.keys_below row old)
    · simp only [List.mem_singleton] at new
      rw [new, Stamps.key_make]
      exact Nat.lt_succ_self _

section Insert

variable {table : Table Row} {make : Nat → Row} [Stamps make]

@[simp]
theorem rows_insert :
    (table.insert make).rows = table.rows ++ [make table.next] := rfl

@[simp]
theorem next_insert : (table.insert make).next = table.next + 1 := rfl

theorem mem_insert {row : Row} :
    row ∈ (table.insert make).rows ↔
      row ∈ table.rows ∨ row = make table.next := by
  simp

theorem HasKey.insert {k : Nat} (has : table.HasKey k) :
    (table.insert make).HasKey k := by
  rcases has with ⟨row, member, equal⟩
  exact ⟨row, by simp [member], equal⟩

theorem select_insert (p : Row → Prop) [DecidablePred p] :
    (table.insert make).select p =
      table.select p ++
        if p (make table.next) then [make table.next] else [] := by
  by_cases holds : p (make table.next) <;>
    simp [select, List.filter_append, holds]

end Insert

/-- Insert one row for each item, in order. -/
def insertMany {Item : Type v} (make : Item → Nat → Row)
    [∀ item, Stamps (make item)] : Table Row → List Item → Table Row
  | table, [] => table
  | table, item :: items =>
      insertMany make (table.insert (make item)) items

/-- The rows built for consecutive keys. -/
def stamped {Item : Type v} (make : Item → Nat → Row) :
    Nat → List Item → List Row
  | _, [] => []
  | k, item :: items => make item k :: stamped make (k + 1) items

section InsertMany

variable {Item : Type v} {make : Item → Nat → Row}

theorem rows_insertMany [∀ item, Stamps (make item)] (table : Table Row)
    (items : List Item) :
    (insertMany make table items).rows =
      table.rows ++ stamped make table.next items := by
  induction items generalizing table with
  | nil => simp [insertMany, stamped]
  | cons item items ih => simp [insertMany, stamped, ih]

omit [Keyed Row] in
theorem mem_stamped {k : Nat} {items : List Item} {row : Row}
    (member : row ∈ stamped make k items) :
    ∃ item ∈ items, ∃ j, k ≤ j ∧ row = make item j := by
  induction items generalizing k with
  | nil => simp [stamped] at member
  | cons item items ih =>
      rcases List.mem_cons.mp member with rfl | later
      · exact ⟨item, by simp, k, Nat.le_refl k, rfl⟩
      · rcases ih later with ⟨other, otherMem, j, bound, equal⟩
        exact ⟨other, by simp [otherMem], j, by omega, equal⟩

omit [Keyed Row] in
theorem exists_stamped {k : Nat} {items : List Item} {item : Item}
    (given : item ∈ items) :
    ∃ j, make item j ∈ stamped make k items := by
  induction items generalizing k with
  | nil => simp at given
  | cons other items ih =>
      rcases List.mem_cons.mp given with rfl | later
      · exact ⟨k, List.mem_cons_self⟩
      · rcases ih later with ⟨j, member⟩
        exact ⟨j, List.mem_cons_of_mem _ member⟩

/-- A row after the insertion is an old one or was made of some item. -/
theorem mem_insertMany_map {Source : Type v} [∀ item, Stamps (make item)]
    {table : Table Row} {f : Source → Item} {sources : List Source}
    {row : Row}
    (member : row ∈ (insertMany make table (sources.map f)).rows) :
    row ∈ table.rows ∨
      ∃ source ∈ sources, ∃ k, row = make (f source) k := by
  rw [rows_insertMany] at member
  rcases List.mem_append.mp member with old | new
  · exact .inl old
  · rcases mem_stamped new with ⟨item, itemMem, k, _, rfl⟩
    rcases List.mem_map.mp itemMem with ⟨source, sourceMem, rfl⟩
    exact .inr ⟨source, sourceMem, k, rfl⟩

theorem exists_mem_insertMany_map {Source : Type v}
    (make : Item → Nat → Row) [∀ item, Stamps (make item)]
    (table : Table Row) (f : Source → Item) {sources : List Source}
    {source : Source} (given : source ∈ sources) :
    ∃ k, make (f source) k ∈
      (insertMany make table (sources.map f)).rows := by
  have listed : f source ∈ sources.map f := List.mem_map_of_mem given
  obtain ⟨k, new⟩ : ∃ k, make (f source) k ∈
      stamped make table.next (sources.map f) := exists_stamped listed
  refine ⟨k, ?_⟩
  rw [rows_insertMany]
  exact List.mem_append_right _ new

omit [Keyed Row] in
/-- A quantity that ignores the key is read off the items. -/
theorem map_stamped {Out : Type v} (make : Item → Nat → Row)
    (f : Row → Out) (g : Item → Out)
    (agree : ∀ item k, f (make item k) = g item)
    (k : Nat) (items : List Item) :
    (stamped make k items).map f = items.map g := by
  induction items generalizing k with
  | nil => rfl
  | cons item items ih => simp [stamped, agree, ih]

omit [Keyed Row] in
theorem filter_stamped_map {Out : Type v} (make : Item → Nat → Row)
    (p : Row → Bool) (q : Item → Bool) (f : Row → Out) (g : Item → Out)
    (selects : ∀ item k, p (make item k) = q item)
    (agree : ∀ item k, f (make item k) = g item)
    (k : Nat) (items : List Item) :
    ((stamped make k items).filter p).map f = (items.filter q).map g := by
  induction items generalizing k with
  | nil => rfl
  | cons item items ih =>
      by_cases holds : q item = true <;>
        simp [stamped, selects, holds, agree, ih]

/-- A selection none of the new rows belongs to stays the same list. -/
theorem select_insertMany [∀ item, Stamps (make item)] {table : Table Row}
    {items : List Item}
    {q : Row → Prop} [DecidablePred q]
    (apart : ∀ item ∈ items, ∀ k, ¬ q (make item k)) :
    (insertMany make table items).select q = table.select q := by
  have none : (stamped make table.next items).filter
      (fun row => decide (q row)) = [] := by
    rw [List.filter_eq_nil_iff]
    intro row member
    rcases mem_stamped member with ⟨item, itemMem, k, _, rfl⟩
    simpa using apart item itemMem k
  rw [select, rows_insertMany table items, List.filter_append, none,
    List.append_nil, select]

/-- A selection of nothing but new rows is all of them. -/
theorem select_insertMany_new [∀ item, Stamps (make item)]
    {table : Table Row} {items : List Item}
    {q : Row → Prop} [DecidablePred q]
    (old : ∀ row ∈ table.rows, ¬ q row)
    (new : ∀ item ∈ items, ∀ k, q (make item k)) :
    (insertMany make table items).select q =
      stamped make table.next items := by
  have none : table.rows.filter (fun row => decide (q row)) = [] := by
    rw [List.filter_eq_nil_iff]
    intro row member
    simpa using old row member
  have all : (stamped make table.next items).filter
      (fun row => decide (q row)) = stamped make table.next items := by
    rw [List.filter_eq_self]
    intro row member
    rcases mem_stamped member with ⟨item, itemMem, k, _, rfl⟩
    simpa using new item itemMem k
  rw [select, rows_insertMany table items, List.filter_append, none,
    all, List.nil_append]

end InsertMany

/-! ## Modification -/

/-- Replace every selected row by its image under a key-preserving map. -/
def modify (table : Table Row) (p : Row → Prop) [DecidablePred p]
    (f : Row → Row) [KeepsKey f] : Table Row where
  rows := table.rows.map (fun row => if p row then f row else row)
  next := table.next
  keys_nodup := by
    have same :
        (fun row => key (if p row then f row else row)) = key := by
      funext row
      split <;> simp [KeepsKey.key_map]
    simpa [List.map_map, Function.comp_def, same] using table.keys_nodup
  keys_below := by
    intro row member
    rcases List.mem_map.mp member with ⟨old, oldMem, rfl⟩
    have below := table.keys_below old oldMem
    split <;> simpa [KeepsKey.key_map] using below

section Modify

variable {table : Table Row} {p : Row → Prop} [DecidablePred p]
  {f : Row → Row} [KeepsKey f]

@[simp]
theorem rows_modify :
    (table.modify p f).rows =
      table.rows.map (fun row => if p row then f row else row) := rfl

@[simp]
theorem next_modify : (table.modify p f).next = table.next := rfl

theorem mem_modify {row : Row} :
    row ∈ (table.modify p f).rows ↔
      ∃ old ∈ table.rows, row = if p old then f old else old := by
  simp only [rows_modify, List.mem_map]
  constructor
  · rintro ⟨old, member, equal⟩
    exact ⟨old, member, equal.symm⟩
  · rintro ⟨old, member, equal⟩
    exact ⟨old, member, equal.symm⟩

@[simp]
theorem hasKey_modify {k : Nat} :
    (table.modify p f).HasKey k ↔ table.HasKey k := by
  constructor
  · rintro ⟨row, member, rfl⟩
    rcases mem_modify.mp member with ⟨old, oldMem, rfl⟩
    refine ⟨old, oldMem, ?_⟩
    split <;> simp [KeepsKey.key_map]
  · rintro ⟨old, oldMem, rfl⟩
    refine ⟨if p old then f old else old,
      mem_modify.mpr ⟨old, oldMem, rfl⟩, ?_⟩
    split <;> simp [KeepsKey.key_map]

/-- Modifying no row does nothing. -/
theorem modify_of_none (apart : ∀ row ∈ table.rows, ¬ p row) :
    table.modify p f = table := by
  refine ext ?_ rfl
  rw [rows_modify]
  have same : ∀ row ∈ table.rows,
      (if p row then f row else row) = id row :=
    fun row member => if_neg (apart row member)
  rw [List.map_congr_left same, List.map_id]

/-- A selection none of whose candidates is touched stays the same list. -/
theorem select_modify {q : Row → Prop} [DecidablePred q]
    (apart : ∀ row ∈ table.rows, p row → ¬ q row ∧ ¬ q (f row)) :
    (table.modify p f).select q = table.select q := by
  simp only [select, rows_modify]
  have frame : ∀ rows : List Row,
      (∀ row ∈ rows, p row → ¬ q row ∧ ¬ q (f row)) →
        (rows.map fun row => if p row then f row else row).filter
            (fun row => decide (q row)) =
          rows.filter (fun row => decide (q row)) := by
    intro rows
    induction rows with
    | nil => intro _; rfl
    | cons row rows ih =>
        intro untouched
        have tail := ih fun other member =>
          untouched other (List.mem_cons_of_mem _ member)
        by_cases touched : p row
        · have away := untouched row List.mem_cons_self touched
          simp [touched, away.1, away.2, tail]
        · simp [touched, List.filter_cons, tail]
  exact frame table.rows apart

/-- A selection the map respects is mapped as it stands. -/
theorem select_modify_map {q : Row → Prop} [DecidablePred q]
    (respects : ∀ row ∈ table.rows, p row → (q (f row) ↔ q row)) :
    (table.modify p f).select q =
      (table.select q).map fun row => if p row then f row else row := by
  simp only [select, rows_modify, List.filter_map]
  refine congrArg _ (List.filter_congr fun row member => ?_)
  by_cases touched : p row
  · simp [touched, respects row member touched]
  · simp [touched]

/-- A sum over selected rows after one of them is replaced. -/
theorem sum_map_replace {M : Type v} [AddCommGroup M] {rows : List Row}
    {row new : Row} (nodup : (rows.map key).Nodup) (member : row ∈ rows)
    (g : Row → M) :
    ((rows.map fun other =>
        if key other = key row then new else other).map g).sum =
      (rows.map g).sum - g row + g new := by
  induction rows with
  | nil => cases member
  | cons head rows ih =>
      rw [List.map_cons, List.nodup_cons] at nodup
      rcases List.mem_cons.mp member with rfl | later
      · have rest : (rows.map fun other =>
            if key other = key row then new else other) = rows := by
          refine (List.map_congr_left fun other otherMem => ?_).trans
            (List.map_id rows)
          have apart : key other ≠ key row := fun same =>
            nodup.1 (same ▸ List.mem_map_of_mem otherMem)
          rw [if_neg apart, id]
        simp only [List.map_cons, if_true, List.sum_cons, rest]
        abel
      · have apart : key head ≠ key row := fun same =>
          nodup.1 (same ▸ List.mem_map_of_mem later)
        simp only [List.map_cons, if_neg apart, List.sum_cons,
          ih nodup.2 later]
        abel

end Modify

/-! ## Deletion -/

/-- Delete the selected rows; the counter never moves back. -/
def deleteWhere (table : Table Row) (p : Row → Prop) [DecidablePred p] :
    Table Row where
  rows := table.rows.filter (fun row => decide (¬ p row))
  next := table.next
  keys_nodup :=
    table.keys_nodup.sublist (List.filter_sublist.map _)
  keys_below := by
    intro row member
    exact table.keys_below row (List.mem_of_mem_filter member)

section Delete

variable {table : Table Row} {p : Row → Prop} [DecidablePred p]

@[simp]
theorem rows_deleteWhere :
    (table.deleteWhere p).rows =
      table.rows.filter (fun row => decide (¬ p row)) := rfl

@[simp]
theorem next_deleteWhere :
    (table.deleteWhere p).next = table.next := rfl

theorem mem_deleteWhere {row : Row} :
    row ∈ (table.deleteWhere p).rows ↔ row ∈ table.rows ∧ ¬ p row := by
  simp

theorem hasKey_deleteWhere {k : Nat}
    (spared : ∀ row ∈ table.rows, key row = k → ¬ p row)
    (has : table.HasKey k) :
    (table.deleteWhere p).HasKey k := by
  rcases has with ⟨row, member, equal⟩
  exact ⟨row, by simp [member, spared row member equal], equal⟩

theorem select_deleteWhere {q : Row → Prop} [DecidablePred q]
    (apart : ∀ row ∈ table.rows, p row → ¬ q row) :
    (table.deleteWhere p).select q = table.select q := by
  simp only [select, rows_deleteWhere, List.filter_filter]
  refine List.filter_congr ?_
  intro row member
  by_cases deleted : p row
  · simp [deleted, apart row member deleted]
  · simp [deleted]

/-- Rows of a kind replaced by rows of that kind leave all others. -/
theorem mem_replace_other {Item Source : Type v} {make : Item → Nat → Row}
    [∀ item, Stamps (make item)] {f : Source → Item} {sources : List Source}
    (same : ∀ source ∈ sources, ∀ k, p (make (f source) k)) {row : Row}
    (apart : ¬ p row) :
    row ∈ (insertMany make (table.deleteWhere p) (sources.map f)).rows ↔
      row ∈ table.rows := by
  constructor
  · intro member
    rcases mem_insertMany_map member with old | ⟨source, given, k, rfl⟩
    · exact (mem_deleteWhere.mp old).1
    · exact (apart (same source given k)).elim
  · intro member
    rw [rows_insertMany]
    exact List.mem_append_left _ (mem_deleteWhere.mpr ⟨member, apart⟩)

end Delete

/-! ## Frames -/

/-- Two tables have the same rows where the predicate holds. -/
def Agrees (q : Row → Prop) (left right : Table Row) : Prop :=
  ∀ row, q row → (row ∈ right.rows ↔ row ∈ left.rows)

section Agrees

variable {table : Table Row} {q : Row → Prop}

theorem Agrees.refl (table : Table Row) : Agrees q table table :=
  fun _ _ => Iff.rfl

theorem Agrees.trans {left middle right : Table Row}
    (first : Agrees q left middle) (second : Agrees q middle right) :
    Agrees q left right :=
  fun row holds => (second row holds).trans (first row holds)

/-- Rows of a narrower kind are the same too. -/
theorem Agrees.mono {r : Row → Prop} {left right : Table Row}
    (agrees : Agrees q left right) (within : ∀ row, r row → q row) :
    Agrees r left right :=
  fun row holds => agrees row (within row holds)

theorem Agrees.congr {r : Row → Prop} {left right : Table Row}
    (agrees : Agrees q left right) (same : ∀ row, r row ↔ q row) :
    Agrees r left right :=
  fun row holds => agrees row ((same row).mp holds)

theorem agrees_insert {make : Nat → Row} [Stamps make]
    (new : ¬ q (make table.next)) :
    Agrees q table (table.insert make) := by
  intro row holds
  rw [mem_insert]
  refine ⟨fun member => member.resolve_right ?_, .inl⟩
  rintro rfl
  exact new holds

theorem agrees_modify {p : Row → Prop} [DecidablePred p] {f : Row → Row}
    [KeepsKey f]
    (apart : ∀ row ∈ table.rows, p row → ¬ q row ∧ ¬ q (f row)) :
    Agrees q table (table.modify p f) := by
  intro row holds
  rw [mem_modify]
  constructor
  · rintro ⟨old, oldMem, rfl⟩
    by_cases touched : p old
    · rw [if_pos touched] at holds
      exact ((apart old oldMem touched).2 holds).elim
    · rwa [if_neg touched]
  · intro member
    refine ⟨row, member, ?_⟩
    rw [if_neg fun touched => (apart row member touched).1 holds]

theorem agrees_deleteWhere {p : Row → Prop} [DecidablePred p]
    (apart : ∀ row ∈ table.rows, p row → ¬ q row) :
    Agrees q table (table.deleteWhere p) := by
  intro row holds
  rw [mem_deleteWhere]
  exact ⟨fun member => member.1, fun member =>
    ⟨member, fun touched => apart row member touched holds⟩⟩

end Agrees

end Table

/-! ## Foreign keys -/

/-- Every value of the column `ref` is the key of a row of `parent`. -/
def References {Child Parent : Type u} [Keyed Child] [Keyed Parent]
    (child : Table Child) (ref : Child → Nat) (parent : Table Parent) :
    Prop :=
  ∀ row ∈ child.rows, parent.HasKey (ref row)

namespace References

open Keyed

variable {Child Parent : Type u} [Keyed Child] [Keyed Parent]
  {child : Table Child} {ref : Child → Nat} {parent : Table Parent}

/-- No row refers to the key that is handed out next. -/
theorem ne_next (fk : References child ref parent) {row : Child}
    (member : row ∈ child.rows) :
    ref row ≠ parent.next :=
  fun equal => parent.not_hasKey_next (equal ▸ fk row member)

theorem insert (fk : References child ref parent)
    {make : Nat → Child} [Table.Stamps make]
    (checked : parent.HasKey (ref (make child.next))) :
    References (child.insert make) ref parent := by
  intro row member
  rcases Table.mem_insert.mp member with old | rfl
  · exact fk row old
  · exact checked

theorem insertMany {Item : Type v} (fk : References child ref parent)
    {make : Item → Nat → Child}
    [∀ item, Table.Stamps (make item)] {items : List Item}
    (checked : ∀ item ∈ items, ∀ k, parent.HasKey (ref (make item k))) :
    References (Table.insertMany make child items) ref parent := by
  intro row member
  rw [Table.rows_insertMany child items] at member
  rcases List.mem_append.mp member with old | new
  · exact fk row old
  · rcases Table.mem_stamped new with ⟨item, itemMem, k, _, rfl⟩
    exact checked item itemMem k

theorem modify (fk : References child ref parent)
    {p : Child → Prop} [DecidablePred p] {f : Child → Child}
    [Table.KeepsKey f]
    (checked : ∀ row ∈ child.rows, p row → parent.HasKey (ref (f row))) :
    References (child.modify p f) ref parent := by
  intro row member
  rcases Table.mem_modify.mp member with
    ⟨old, oldMem, rfl⟩
  split
  · exact checked old oldMem ‹_›
  · exact fk old oldMem

/-- A modification of other columns is no concern of the key. -/
theorem modifyOther (fk : References child ref parent)
    {p : Child → Prop} [DecidablePred p] {f : Child → Child}
    [Table.KeepsKey f]
    (same : ∀ row, ref (f row) = ref row) :
    References (child.modify p f) ref parent :=
  fk.modify fun row member _ => by
    rw [same]
    exact fk row member

theorem deleteWhere (fk : References child ref parent)
    {p : Child → Prop} [DecidablePred p] :
    References (child.deleteWhere p) ref parent := by
  intro row member
  exact fk row (Table.mem_deleteWhere.mp member).1

theorem insertParent (fk : References child ref parent)
    {make : Nat → Parent} [Table.Stamps make] :
    References child ref (parent.insert make) :=
  fun row member => (fk row member).insert

theorem modifyParent (fk : References child ref parent)
    {p : Parent → Prop} [DecidablePred p] {f : Parent → Parent}
    [Table.KeepsKey f] :
    References child ref (parent.modify p f) :=
  fun row member =>
    Table.hasKey_modify.mpr (fk row member)

/-- Parents may go when no remaining child refers to them. -/
theorem deleteParent (fk : References child ref parent)
    {p : Parent → Prop} [DecidablePred p]
    (unused : ∀ row ∈ child.rows, ∀ other ∈ parent.rows,
      key other = ref row → ¬ p other) :
    References child ref (parent.deleteWhere p) :=
  fun row member =>
    Table.hasKey_deleteWhere (unused row member) (fk row member)

end References

end TmsApi.Core
