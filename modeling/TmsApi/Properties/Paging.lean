import TmsApi.Core.Pages
import TmsApi.Listing
import TmsApi.Properties.Assignments
import TmsApi.Properties.Queue

/-!
# The size of a page

The list routes bound the page size from above, `Math.min(limit, 100)`, but
not from below: a negative limit reaches the database, which takes the rows
from the end.  It is refused only with a page number from two on, where the
number of skipped rows is negative.
-/

namespace TmsApi

open TmsApi.Core
open TmsApi.Core.Program

/-- A list route fails, or it answers a page of at most 100 of the rows. -/
def AnswersPage {Row Answer : Type} (rows : List Row)
    (data : Answer → List Row) (route : Service Answer) (db : Db) : Prop :=
  wp route (fun answer _ => ∀ result, answer = .ok result →
    (data result).length ≤ 100 ∧ IsPage 100 rows (data result)) db

/--
What page number and limit select of `count` rows is refused or a page: the
limit is positive, or the page number makes the skipped rows negative, or the
rows that a negative limit counts from the end happen to be a page.
-/
def SelectsPage (count : Nat) (page limit : Int) : Prop :=
  1 ≤ limit ∨ 2 ≤ page ∨
    PageBounds 100 count
      (count - ((page - 1) * limit).toNat - limit.natAbs)
      (count - ((page - 1) * limit).toNat)

instance (count : Nat) (page limit : Int) :
    Decidable (SelectsPage count page limit) :=
  inferInstanceAs (Decidable (_ ∨ _ ∨ _))

/-! ## What a query string asks for -/

/-- Zero is replaced by the default. -/
theorem orDefault_ne_zero {parsed : Option Int} {fallback : Int}
    (nonzero : fallback ≠ 0) : orDefault parsed fallback ≠ 0 := by
  unfold orDefault
  cases parsed with
  | none => exact nonzero
  | some n =>
      by_cases zero : n = 0
      · simpa [zero] using nonzero
      · simp [zero]

theorem ListQuery.limitNumber_ne_zero (query : ListQuery) :
    query.limitNumber ≠ 0 := by
  have given : orDefault (parseInt (text query.limit)) defaultLimit ≠ 0 :=
    orDefault_ne_zero (by decide)
  unfold limitNumber
  omega

theorem ListQuery.limitNumber_le (query : ListQuery) :
    query.limitNumber ≤ 100 :=
  min_le_right _ _

/-! ## What the database takes -/

section

variable {Row Included : Type} {rows : List Row} {page limit : Int}

theorem Prisma.paginate_map (f : Row → Included) {skip take : Int} :
    Prisma.paginate skip take (rows.map f) =
      (Prisma.paginate skip take rows).map (List.map f) := by
  unfold Prisma.paginate
  split
  · rfl
  · split
    · simp [Except.map]
    · simp [Except.map, List.map_reverse]

theorem Prisma.paginate_refused {skip : Int} (negative : skip < 0)
    {take : Int} {data : List Row} :
    Prisma.paginate skip take rows ≠ .ok data := by
  rw [Prisma.paginate, if_pos negative]
  rintro ⟨⟩

/-- A positive limit takes a page, or the page number is refused. -/
theorem Prisma.isPage_of_paginate {data : List Row} (positive : 1 ≤ limit)
    (bounded : limit ≤ 100)
    (taken : Prisma.paginate ((page - 1) * limit) limit rows = .ok data) :
    IsPage 100 rows data := by
  by_cases started : 1 ≤ page
  · obtain ⟨before, counted⟩ := Int.eq_ofNat_of_zero_le
      (by omega : 0 ≤ page - 1)
    obtain ⟨size, rfl⟩ := Int.eq_ofNat_of_zero_le (by omega : 0 ≤ limit)
    have skip : (page - 1) * (size : Int) = ((before * size : Nat) : Int) := by
      rw [counted]
      push_cast
      rfl
    rw [skip, Prisma.paginate, if_neg (by omega), if_pos (by omega)] at taken
    cases taken
    refine ⟨before + 1, size, by omega, by omega, ?_⟩
    rw [window, Nat.add_sub_cancel, Nat.add_one_mul, Nat.add_sub_cancel_left]
    rfl
  · have negative : (page - 1) * limit < 0 :=
      mul_neg_of_neg_of_pos (by omega) (by omega)
    exact (Prisma.paginate_refused negative taken).elim

theorem Prisma.paginate_pages_iff (page : Int) (distinct : rows.Nodup)
    (nonzero : limit ≠ 0) (bounded : limit ≤ 100) :
    (∀ data, Prisma.paginate ((page - 1) * limit) limit rows = .ok data →
      data.length ≤ 100 ∧ IsPage 100 rows data) ↔
      SelectsPage rows.length page limit := by
  have sized (data : List Row) :
      data.length ≤ 100 ∧ IsPage 100 rows data ↔ IsPage 100 rows data :=
    and_iff_right_of_imp IsPage.length_le
  simp only [sized]
  rcases Int.lt_or_gt_of_ne nonzero with negative | positive
  · by_cases later : 2 ≤ page
    · have skip : (page - 1) * limit < 0 :=
        mul_neg_of_pos_of_neg (by omega) negative
      refine iff_of_true (fun data taken => ?_) (.inr (.inl later))
      exact (Prisma.paginate_refused skip taken).elim
    · -- only here the rows are counted from the end
      have skip : 0 ≤ (page - 1) * limit :=
        mul_nonneg_of_nonpos_of_nonpos (by omega) (by omega)
      have selects : SelectsPage rows.length page limit ↔
          PageBounds 100 rows.length
            (rows.length - ((page - 1) * limit).toNat - limit.natAbs)
            (rows.length - ((page - 1) * limit).toNat) := by
        unfold SelectsPage
        rw [or_iff_right (by omega), or_iff_right later]
      rw [selects, ← isPage_window_iff distinct (by decide)
        (Nat.sub_le _ _), ← reverse_take_drop_reverse]
      rw [Prisma.paginate, if_neg (by omega), if_neg (by omega)]
      simp only [Except.ok.injEq, forall_eq']
  · refine iff_of_true (fun data taken => ?_) (.inl (by omega))
    exact Prisma.isPage_of_paginate (by omega) bounded taken

end

/-! ## The routes -/

/-- The rows of a list endpoint are distinct, so their order does not matter. -/
theorem findManyAndCount_pages_iff {Row Included : Type} {db : Db}
    {matching : Db → List Row} {ordered : Row → Row → Prop}
    [DecidableRel ordered] {included : Db → Row → Included}
    (distinct : ((matching db).map (included db)).Nodup) {page limit : Int}
    (nonzero : limit ≠ 0) (bounded : limit ≤ 100) :
    AnswersPage
        (((matching db).insertionSort ordered).map (included db)) Page.data
        (findManyAndCount matching ordered included page limit) db ↔
      SelectsPage (matching db).length page limit := by
  have sorted := (matching db).perm_insertionSort ordered
  have distinct' :
      (((matching db).insertionSort ordered).map (included db)).Nodup :=
    (sorted.map _).nodup_iff.mpr distinct
  have selects := Prisma.paginate_pages_iff page distinct' nonzero
    bounded
  rw [List.length_map, sorted.length_eq, Prisma.paginate_map] at selects
  rw [← selects, AnswersPage, findManyAndCount, findManyAndCountIn,
    wp_statement]
  cases Prisma.paginate ((page - 1) * limit) limit
    ((matching db).insertionSort ordered) <;>
    simp [Except.map]

namespace Db

variable (db : Db) (caller : JwtPayload)

/-- The timesheets of the caller, the latest week first. -/
def sheetsListed : List Timesheet :=
  (db.userSheets caller.userId caller.orgId).insertionSort
    fun a b => b.weekStartDate ≤ a.weekStartDate

/-- The queue of the caller, the oldest submission first. -/
def pendingListed : List Timesheet :=
  (db.pendingRows caller.orgId (db.teamFilter caller)).insertionSort
    fun a b => a.updatedAt ≤ b.updatedAt

/-- The projects the caller sees, the newest first. -/
def projectsListed : List ProjectListing :=
  ((db.visibleProjects caller.orgId caller.userId caller.role).insertionSort
    fun a b => b.createdAt ≤ a.createdAt).map db.projectListing

/-- The reports of a MANAGER; no filter for anyone else. -/
def userFilter : Option (List Nat) :=
  if caller.role = .manager then
    some (db.directReportIds caller.userId caller.orgId)
  else
    none

/-- The users the caller sees, the newest first. -/
def usersListed : List UserListing :=
  ((db.filteredUsers caller.orgId (db.userFilter caller)).insertionSort
    fun a b => b.createdAt ≤ a.createdAt).map db.userListing

end Db

section

variable {caller : JwtPayload} {query : ListQuery} {db : Db}

/-- The rows of a selection are distinct. -/
theorem nodup_select {Row : Type} [Keyed Row] (table : Table Row)
    (p : Row → Prop) [DecidablePred p] : (table.select p).Nodup :=
  (List.Nodup.of_map _ table.keys_nodup).filter _

theorem listTimesheets_pages_iff :
    AnswersPage (db.sheetsListed caller) Page.data
        (handleListTimesheets caller query) db ↔
      SelectsPage (db.userSheets caller.userId caller.orgId).length
        query.pageNumber query.limitNumber := by
  have rows : db.sheetsListed caller =
      (db.sheetsListed caller).map fun t => t :=
    (List.map_id' _).symm
  rw [rows]
  refine findManyAndCount_pages_iff ?_ query.limitNumber_ne_zero
    query.limitNumber_le
  rw [List.map_id']
  exact nodup_select _ _

/-- A route of managers and administrators. -/
theorem answersPage_requireRole {Row Answer : Type} {rows : List Row}
    {data : Answer → List Row} {route : Service Answer} {selects : Prop}
    (answers : AnswersPage rows data route db ↔ selects) :
    AnswersPage rows data
        (requireRole [.manager, .admin] caller.role >>= fun _ => route) db ↔
      caller.role = .employee ∨ selects := by
  unfold AnswersPage at *
  rw [wp_bind, requireRole, wp_throwIf]
  cases role : caller.role with
  | employee =>
      refine iff_of_true ⟨?_, ?_⟩ (.inl rfl)
      · rintro _ result ⟨⟩
      · intro allowed
        exact (allowed (by decide)).elim
  | manager => simpa using answers
  | admin => simpa using answers

theorem listPendingApprovals_pages_iff :
    AnswersPage (db.pendingListed caller) PendingPage.data
        (handleListPendingApprovals caller query) db ↔
      caller.role = .employee ∨
        SelectsPage
          (db.pendingRows caller.orgId (db.teamFilter caller)).length
          query.pageNumber query.limitNumber := by
  apply answersPage_requireRole
  have distinct : (db.pendingListed caller).Nodup :=
    (List.perm_insertionSort _ _).nodup_iff.mpr (nodup_select _ _)
  have selects := Prisma.paginate_pages_iff query.pageNumber distinct
    query.limitNumber_ne_zero query.limitNumber_le
  rw [Db.pendingListed, List.length_insertionSort] at selects
  rw [← selects, AnswersPage, wp_listPendingApprovals, forall_eq']
  cases Prisma.paginate ((query.pageNumber - 1) * query.limitNumber)
    query.limitNumber
    ((db.pendingRows caller.orgId (db.teamFilter caller)).insertionSort
      fun a b => a.updatedAt ≤ b.updatedAt) <;>
    simp [Except.map, Db.pendingListed]

theorem listProjects_pages_iff :
    AnswersPage (db.projectsListed caller) Page.data
        (handleListProjects caller query) db ↔
      SelectsPage
        (db.visibleProjects caller.orgId caller.userId caller.role).length
        query.pageNumber query.limitNumber := by
  refine findManyAndCount_pages_iff ?_ query.limitNumber_ne_zero
    query.limitNumber_le
  refine List.Nodup.map ?_ (nodup_select _ _)
  intro p q same
  exact congrArg ProjectListing.project same

theorem wp_userFilter {post : Except Thrown (Option (List Nat)) → Db → Prop} :
    wp (userFilter caller.orgId caller.userId caller.role) post db ↔
      post (.ok (db.userFilter caller)) db := by
  unfold userFilter Db.userFilter
  split
  · simp [getDirectReportIds]
  · exact Iff.rfl

theorem listUsers_pages_iff :
    AnswersPage (db.usersListed caller) Page.data
        (handleListUsers caller query) db ↔
      caller.role = .employee ∨
        SelectsPage
          (db.filteredUsers caller.orgId (db.userFilter caller)).length
          query.pageNumber query.limitNumber := by
  apply answersPage_requireRole
  refine (wp_bind _ _ _).trans (wp_userFilter.trans ?_)
  refine findManyAndCount_pages_iff ?_ query.limitNumber_ne_zero
    query.limitNumber_le
  refine List.Nodup.map_on ?_ (nodup_select _ _)
  intro u uMem v vMem same
  exact db.users.eq_of_key (Table.mem_select.mp uMem).1
    (Table.mem_select.mp vMem).1 (congrArg UserListing.id same)

end

/--
Each list route fails or answers a page of at most 100 of its rows exactly
when it is refused to the caller or page number and limit select a page.
-/
theorem list_pages_iff (caller : JwtPayload) (query : ListQuery) (db : Db) :
    (AnswersPage (db.sheetsListed caller) Page.data
        (handleListTimesheets caller query) db ↔
      SelectsPage (db.userSheets caller.userId caller.orgId).length
        query.pageNumber query.limitNumber) ∧
    (AnswersPage (db.pendingListed caller) PendingPage.data
        (handleListPendingApprovals caller query) db ↔
      caller.role = .employee ∨
        SelectsPage
          (db.pendingRows caller.orgId (db.teamFilter caller)).length
          query.pageNumber query.limitNumber) ∧
    (AnswersPage (db.projectsListed caller) Page.data
        (handleListProjects caller query) db ↔
      SelectsPage
        (db.visibleProjects caller.orgId caller.userId caller.role).length
        query.pageNumber query.limitNumber) ∧
    (AnswersPage (db.usersListed caller) Page.data
        (handleListUsers caller query) db ↔
      caller.role = .employee ∨
        SelectsPage
          (db.filteredUsers caller.orgId (db.userFilter caller)).length
          query.pageNumber query.limitNumber) :=
  ⟨listTimesheets_pages_iff, listPendingApprovals_pages_iff,
    listProjects_pages_iff, listUsers_pages_iff⟩

/--
`limit=-3` makes Ada see the last three of the four users of `assignedDb`,
which is no page of them for any page size.
-/
theorem last_three_users :
    ¬ AnswersPage (assignedDb.usersListed ada) Page.data
      (handleListUsers ada ⟨none, some "-3"⟩) assignedDb := by
  have users : (assignedDb.filteredUsers ada.orgId
      (assignedDb.userFilter ada)).length = 4 := by
    decide +kernel
  have asked : ListQuery.pageNumber ⟨none, some "-3"⟩ = 1 ∧
      ListQuery.limitNumber ⟨none, some "-3"⟩ = -3 := by
    decide +kernel
  intro answers
  rcases listUsers_pages_iff.mp answers with role | selects
  · exact absurd role (by decide)
  · rw [users, asked.1, asked.2] at selects
    exact absurd selects (by decide +kernel)

end TmsApi
