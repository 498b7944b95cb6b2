import Mathlib.Data.List.Nodup
import Mathlib.Data.List.Sort
import Mathlib.Data.List.TakeDrop

/-!
# Windows of a list and its pages

A window of a list holds the rows from one index up to another.  The pages of
a list for a page size are the windows between consecutive multiples of it.
In a list without repetitions a window determines its indices, so whether a
window is a page can be read off them.

Who reads the pages one after the other reads each from a later list.  As long
as rows only come in between the old ones, none of these is missed.
-/

namespace TmsApi.Core

universe u

variable {Row : Type u} {rows data : List Row} {first last bound : Nat}

/-- The rows with an index from `first` up to `last`. -/
def window (rows : List Row) (first last : Nat) : List Row :=
  (rows.drop first).take (last - first)

@[simp]
theorem length_window :
    (window rows first last).length = min last rows.length - first := by
  rw [window, List.length_take, List.length_drop]
  omega

theorem window_of_le (empty : last ≤ first) : window rows first last = [] := by
  rw [window, Nat.sub_eq_zero_of_le empty, List.take_zero]

theorem window_of_length_le (beyond : rows.length ≤ first) :
    window rows first last = [] := by
  rw [window, List.drop_eq_nil_of_le beyond, List.take_nil]

/-- An index behind the end is one at the end. -/
theorem window_min :
    window rows first (min rows.length last) = window rows first last := by
  refine List.ext_getElem ?_ fun i _ _ => ?_
  · simp only [length_window]
    omega
  · simp only [window, List.getElem_take, List.getElem_drop]

/-- Counting from the end of a list. -/
theorem reverse_take_drop_reverse (skip count : Nat) :
    ((rows.reverse.drop skip).take count).reverse =
      window rows (rows.length - skip - count) (rows.length - skip) := by
  have length : (rows.take (rows.length - skip)).length =
      rows.length - skip := by
    rw [List.length_take]
    omega
  rw [List.drop_reverse, List.take_reverse, List.reverse_reverse, length,
    window, List.take_drop]
  congr 2
  omega

/-- A window that is not empty starts at one index only. -/
theorem window_start (distinct : rows.Nodup) {other stop : Nat}
    (nonempty : first < last) (within : last ≤ rows.length)
    (same : window rows first last = window rows other stop) :
    first = other := by
  have lengths := congrArg List.length same
  simp only [length_window] at lengths
  have bound : 0 < (window rows first last).length := by
    rw [length_window]
    omega
  have bound' : 0 < (window rows other stop).length := same ▸ bound
  have heads : (window rows first last)[0] = (window rows other stop)[0] := by
    simp only [same]
  simp only [window, List.getElem_take, List.getElem_drop, Nat.add_zero]
    at heads
  exact (distinct.getElem_inj_iff).mp heads

/-! ## Pages -/

/-- A page of the rows, for some page size up to a bound. -/
def IsPage (bound : Nat) (rows data : List Row) : Prop :=
  ∃ page limit, 1 ≤ page ∧ (1 ≤ limit ∧ limit ≤ bound) ∧
    data = window rows ((page - 1) * limit) (page * limit)

theorem IsPage.length_le (page : IsPage bound rows data) :
    data.length ≤ bound := by
  rcases page with ⟨page, limit, started, ⟨_, bounded⟩, rfl⟩
  have size : page * limit - (page - 1) * limit = limit := by
    rw [← Nat.sub_mul, Nat.sub_sub_self started, Nat.one_mul]
  rw [length_window]
  omega

/-- The rows from one index up to another are a page: none, or from a
multiple of a page size on, as many as the page size or up to the end. -/
def PageBounds (bound count first last : Nat) : Prop :=
  last ≤ first ∨ ∃ limit ≤ bound, 1 ≤ limit ∧ limit ∣ first ∧
    last = min count (first + limit)

instance (bound count first last : Nat) :
    Decidable (PageBounds bound count first last) :=
  inferInstanceAs (Decidable (_ ∨ ∃ limit ≤ bound, _))

theorem isPage_window_iff (distinct : rows.Nodup) (positive : 1 ≤ bound)
    (within : last ≤ rows.length) :
    IsPage bound rows (window rows first last) ↔
      PageBounds bound rows.length first last := by
  constructor
  · rintro ⟨page, limit, started, ⟨least, bounded⟩, same⟩
    by_cases empty : last ≤ first
    · exact .inl empty
    · have start := window_start distinct (by omega) within same
      have next : page * limit = first + limit := by
        obtain ⟨before, rfl⟩ := Nat.exists_eq_add_of_le' started
        rw [start, Nat.add_sub_cancel, Nat.succ_mul]
      have lengths := congrArg List.length same
      rw [length_window, length_window, ← start, next] at lengths
      refine .inr ⟨limit, bounded, least, ⟨page - 1, ?_⟩, ?_⟩
      · rw [start, Nat.mul_comm]
      · omega
  · rintro (empty | ⟨limit, bounded, least, ⟨before, rfl⟩, rfl⟩)
    · refine ⟨rows.length + 1, 1, by omega, ⟨Nat.le_refl 1, positive⟩, ?_⟩
      rw [window_of_le empty, window_of_length_le (by omega)]
    · refine ⟨before + 1, limit, by omega, ⟨least, bounded⟩, ?_⟩
      rw [window_min, Nat.add_sub_cancel, Nat.mul_comm limit, Nat.add_one_mul]

/-! ## Sorted lists of rows -/

/-- Rows come out in order, and as it pleases where the order is silent. -/
structure Arranges (ordered : Row → Row → Prop)
    (arrange : List Row → List Row) : Prop where
  perm : ∀ rows, (arrange rows).Perm rows
  sorted : ∀ rows, (arrange rows).Pairwise ordered

section Arranges

variable {ordered : Row → Row → Prop} [DecidableRel ordered]
  [Std.Total ordered] [IsTrans Row ordered]

/-- Sorting after any other permutation is such an arrangement. -/
theorem arranges_insertionSort {before : List Row → List Row}
    (perm : ∀ rows, (before rows).Perm rows) :
    Arranges ordered fun rows => (before rows).insertionSort ordered where
  perm rows := (List.perm_insertionSort ordered _).trans (perm rows)
  sorted _ := List.pairwise_insertionSort ordered _

/-- Rows that the order tells apart come out in one way only. -/
theorem Arranges.eq_insertionSort {arrange : List Row → List Row}
    (arranges : Arranges ordered arrange) {rows : List Row}
    (apart : ∀ a ∈ rows, ∀ b ∈ rows, ordered a b → ordered b a → a = b) :
    arrange rows = rows.insertionSort ordered := by
  have sorts := List.perm_insertionSort ordered rows
  refine List.Perm.eq_of_pairwise ?_ (arranges.sorted rows)
    (List.pairwise_insertionSort ordered rows)
    ((arranges.perm rows).trans sorts.symm)
  intro a b left right
  exact apart a ((arranges.perm rows).subset left) b (sorts.subset right)

end Arranges

/-! ## Pages of a list that grows -/

/-- Rows keep their order when more are sorted in among them. -/
theorem insertionSort_sublist_append (ordered : Row → Row → Prop)
    [DecidableRel ordered] [Std.Total ordered] [IsTrans Row ordered]
    (rows more : List Row) :
    (rows.insertionSort ordered).Sublist
      ((rows ++ more).insertionSort ordered) := by
  induction rows with
  | nil => exact List.nil_sublist _
  | cons row rows ih =>
      exact List.Sublist.orderedInsert_sublist row ih
        (List.pairwise_insertionSort ordered _)

/-- What is behind the pages read so far is on the next one or behind it. -/
theorem mem_window_or_mem_drop {row : Row} {limit : Nat}
    (member : row ∈ rows.drop first) :
    row ∈ window rows first (first + limit) ∨
      row ∈ rows.drop (first + limit) := by
  rw [← List.take_append_drop limit (rows.drop first), List.drop_drop]
    at member
  rw [window, Nat.add_sub_cancel_left]
  exact List.mem_append.mp member

/-- Of a list that grows between its pages no old row is missed. -/
theorem exists_mem_page {lists : Nat → List Row} {limit : Nat}
    (grows : ∀ k, (lists k).Sublist (lists (k + 1)))
    (finished : (lists last).length ≤ (last + 1) * limit) {row : Row}
    (member : row ∈ lists 0) :
    ∃ k ≤ last, row ∈ window (lists k) (k * limit) ((k + 1) * limit) := by
  have reached : ∀ k, (∃ j < k, row ∈ window (lists j) (j * limit)
      ((j + 1) * limit)) ∨ row ∈ (lists k).drop (k * limit) := by
    intro k
    induction k with
    | zero =>
        right
        rwa [Nat.zero_mul, List.drop_zero]
    | succ k ih =>
        rcases ih with ⟨j, earlier, seen⟩ | behind
        · exact .inl ⟨j, Nat.lt_succ_of_lt earlier, seen⟩
        · rcases mem_window_or_mem_drop behind with seen | still
          · exact .inl ⟨k, Nat.lt_succ_self k, by rwa [Nat.add_one_mul]⟩
          · right
            rw [Nat.add_one_mul]
            exact ((grows k).drop _).subset still
  rcases reached last with ⟨j, earlier, seen⟩ | behind
  · exact ⟨j, Nat.le_of_lt earlier, seen⟩
  · rcases mem_window_or_mem_drop behind with seen | still
    · exact ⟨last, Nat.le_refl last, by rwa [Nat.add_one_mul]⟩
    · rw [Nat.add_one_mul] at finished
      rw [List.drop_eq_nil_of_le finished] at still
      cases still

end TmsApi.Core
