import TmsApi.Properties.Paging
import TmsApi.Refinement.Lineage

/-!
# Reading all pages of the users

An administrator reads the pages of the users one request after the other, up
to the page at which the `total` of the answer is reached.  In between the API
serves any requests of anyone.  Users are never deleted and keep the time they
were created at, which the pages are sorted by, so every list of users
contains the earlier ones in their order, and nobody is missed.

The database may arrange users of the same creation time as it pleases, in each
query anew.  So the times are taken to differ within the organisation.
-/

namespace TmsApi

open TmsApi.Core
open TmsApi.Core.Program

/-! ## The list behind the pages -/

/-- The sorted users of an organisation, as far as nothing changes them. -/
def Db.roster (db : Db) (orgId : Nat) : List (Nat × Nat × String × Instant) :=
  ((db.users.rows.map User.identity).filter fun u =>
    u.2.1 = orgId).insertionSort fun a b => b.2.2.2 ≤ a.2.2.2

section

variable {lib : Libs} {caller : JwtPayload} {db : Db}

/-- There is no filter on the users an administrator sees. -/
theorem filteredUsers_admin (admin : caller.role = .admin) :
    db.filteredUsers caller.orgId (db.userFilter caller) =
      db.users.rows.filter fun u => u.organisationId = caller.orgId := by
  have all : db.userFilter caller = none := by
    rw [Db.userFilter, if_neg (by rw [admin]; decide)]
  simp [Db.filteredUsers, Table.select, all]

theorem usersListed_admin (admin : caller.role = .admin) :
    (db.usersListed caller).map (·.id) =
      (db.roster caller.orgId).map (·.1) := by
  have identities : (db.users.rows.map User.identity).filter
      (fun u => u.2.1 = caller.orgId) =
        (db.users.rows.filter fun u =>
          u.organisationId = caller.orgId).map User.identity :=
    List.filter_map
  rw [Db.usersListed, Db.roster, filteredUsers_admin admin, identities,
    List.map_map, ← List.map_insertionSort
      (fun a b : User => b.createdAt ≤ a.createdAt), List.map_map]
  · rfl
  · exact fun _ _ _ _ => Iff.rfl

/-- Later users are sorted in among the earlier ones. -/
theorem roster_grows {before after : Db} {may : Permits}
    (kept : Db.Kept may before after) (orgId : Nat) :
    (before.roster orgId).Sublist (after.roster orgId) := by
  rcases kept.users with ⟨added, rows⟩
  have : Std.Total fun a b : Nat × Nat × String × Instant =>
      b.2.2.2 ≤ a.2.2.2 := ⟨fun a b => le_total b.2.2.2 a.2.2.2⟩
  have : IsTrans (Nat × Nat × String × Instant) fun a b =>
      b.2.2.2 ≤ a.2.2.2 := ⟨fun _ _ _ left right => right.trans left⟩
  rw [Db.roster, Db.roster, ← rows, List.filter_append]
  exact insertionSort_sublist_append _ _ _

/-- No two users of an organisation were created at the same instant. -/
def Db.CreatedApart (db : Db) (orgId : Nat) : Prop :=
  ∀ u ∈ db.users.rows, ∀ v ∈ db.users.rows, u.organisationId = orgId →
    v.organisationId = orgId → u.createdAt = v.createdAt → u.id = v.id

theorem Db.CreatedApart.of_kept {before after : Db} {may : Permits}
    {orgId : Nat} (apart : after.CreatedApart orgId)
    (kept : Db.Kept may before after) : before.CreatedApart orgId := by
  intro u uMem v vMem uOrg vOrg created
  rcases kept.users.exists_of_mem uMem with ⟨u', uMem', uSame⟩
  rcases kept.users.exists_of_mem vMem with ⟨v', vMem', vSame⟩
  simp only [User.identity, Prod.mk.injEq] at uSame vSame
  rw [← uSame.1, ← vSame.1]
  refine apart u' uMem' v' vMem' (uSame.2.1.trans uOrg)
    (vSame.2.1.trans vOrg) ?_
  rw [uSame.2.2.2, vSame.2.2.2, created]

theorem createdAt_total :
    Std.Total fun a b : User => b.createdAt ≤ a.createdAt :=
  ⟨fun a b => le_total b.createdAt a.createdAt⟩

theorem createdAt_trans :
    IsTrans User fun a b => b.createdAt ≤ a.createdAt :=
  ⟨fun _ _ _ left right => right.trans left⟩

/-- There is one way then to list the users, the newest first. -/
theorem Db.CreatedApart.arranged (apart : db.CreatedApart caller.orgId)
    {arrange : List User → List User}
    (arranges : Arranges (fun a b => b.createdAt ≤ a.createdAt) arrange) :
    arrange (db.filteredUsers caller.orgId (db.userFilter caller)) =
      (db.filteredUsers caller.orgId (db.userFilter caller)).insertionSort
        fun a b => b.createdAt ≤ a.createdAt := by
  have := createdAt_total
  have := createdAt_trans
  refine arranges.eq_insertionSort fun u uMem v vMem later earlier => ?_
  rcases Table.mem_select.mp uMem with ⟨uRow, uOrg, _⟩
  rcases Table.mem_select.mp vMem with ⟨vRow, vOrg, _⟩
  exact db.users.eq_of_key uRow vRow
    (apart u uRow v vRow uOrg vOrg (le_antisymm earlier later))

/-- The page an administrator is answered. -/
theorem handleListUsersIn_exec {arrange : List User → List User}
    {query : ListQuery} {k limit : Nat} (admin : caller.role = .admin)
    (page : query.pageNumber = k + 1) (size : query.limitNumber = limit) :
    (handleListUsersIn arrange caller query).exec db =
      (.ok ⟨(window (arrange (db.filteredUsers caller.orgId
            (db.userFilter caller))) (k * limit) ((k + 1) * limit)).map
          db.userListing,
        (db.filteredUsers caller.orgId (db.userFilter caller)).length,
        k + 1, limit⟩, db) := by
  have skip : ((k : Int) + 1 - 1) * limit = ((k * limit : Nat) : Int) := by
    push_cast
    ring
  have answers : wp (handleListUsersIn arrange caller query)
      (fun answer after => (answer, after) =
        (.ok ⟨(window (arrange (db.filteredUsers caller.orgId
              (db.userFilter caller))) (k * limit) ((k + 1) * limit)).map
            db.userListing,
          (db.filteredUsers caller.orgId (db.userFilter caller)).length,
          k + 1, limit⟩, db)) db := by
    unfold handleListUsersIn listUsersIn
    rw [wp_bind, requireRole, wp_throwIf]
    refine ⟨fun refused => ?_, fun _ => ?_⟩
    · rw [admin] at refused
      exact absurd refused (by decide)
    · rw [andThen_ok, wp_bind, wp_userFilter, andThen_ok]
      unfold findManyAndCountIn
      rw [page, size, skip]
      refine (wp_statement_of ?_).mpr rfl
      rw [Prisma.paginate, if_neg (by omega), if_pos (by omega)]
      simp only [Int.toNat_natCast, window, Nat.add_one_mul,
        Nat.add_sub_cancel_left]
  exact answers

/--
Whoever was a user of the organisation when its administrator asked for the
first page is on one of the pages, in whatever way the API is used between
them and the database arranges its answers, if no two users were created at
the same instant.  The last page is the one that reaches the total of its
answer.
-/
theorem roster_complete {worlds : Nat → World} {gaps : Nat → List Request}
    {queries : Nat → ListQuery} {arrange : Nat → List User → List User}
    {limit last : Nat} (admin : caller.role = .admin)
    (served : ∀ k, worlds (k + 1) = (worlds k).run lib (gaps k))
    (arranges : ∀ k, Arranges (fun a b => b.createdAt ≤ a.createdAt)
      (arrange k))
    (apart : (worlds last).db.CreatedApart caller.orgId)
    (page : ∀ k ≤ last, (queries k).pageNumber = k + 1)
    (size : ∀ k ≤ last, (queries k).limitNumber = limit)
    (finished : ∀ answer, ((handleListUsersIn (arrange last) caller
      (queries last)).exec (worlds last).db).1 = .ok answer →
        answer.total ≤ (last + 1) * limit)
    {u : User} (member : u ∈ (worlds 0).db.users.rows)
    (org : u.organisationId = caller.orgId) :
    ∃ k ≤ last, ∃ answer,
      (handleListUsersIn (arrange k) caller (queries k)).exec (worlds k).db =
        (.ok answer, (worlds k).db) ∧ ∃ row ∈ answer.data, row.id = u.id := by
  have total := finished _ (congrArg Prod.fst
    (handleListUsersIn_exec admin (page last le_rfl) (size last le_rfl)))
  have kept (k : Nat) : Db.Kept .all (worlds k).db (worlds (k + 1)).db := by
    rw [served k]
    exact (worlds k).run_kept lib (gaps k)
  have apart : ∀ k ≤ last, (worlds k).db.CreatedApart caller.orgId :=
    fun k bound => Nat.decreasingInduction
      (fun j _ later => later.of_kept (kept j)) apart bound
  have grows : ∀ k, (((worlds k).db.roster caller.orgId).map (·.1)).Sublist
      (((worlds (k + 1)).db.roster caller.orgId).map (·.1)) :=
    fun k => (roster_grows (kept k) _).map _
  have listed : u.id ∈ ((worlds 0).db.roster caller.orgId).map (·.1) := by
    refine List.mem_map.mpr ⟨u.identity, ?_, rfl⟩
    rw [Db.roster, List.mem_insertionSort, List.mem_filter]
    exact ⟨List.mem_map_of_mem member, decide_eq_true org⟩
  have reached : (((worlds last).db.roster caller.orgId).map (·.1)).length ≤
      (last + 1) * limit := by
    rw [← usersListed_admin admin, List.length_map, Db.usersListed,
      List.length_map, List.length_insertionSort]
    exact total
  rcases exists_mem_page grows reached listed with ⟨k, bound, seen⟩
  refine ⟨k, bound, _, handleListUsersIn_exec admin (page k bound)
    (size k bound), ?_⟩
  rw [(apart k bound).arranged (arranges k)]
  rw [← usersListed_admin admin, Db.usersListed, window, ← List.map_drop,
    ← List.map_take, ← List.map_drop, ← List.map_take] at seen
  exact List.mem_map.mp seen

end

/-- Ada creates an employee some days later. -/
def laterUser (days : Int) (email : String) : Request :=
  .authenticated { plainHost with now := plainHost.now + days * dayMs } ada
    (.createUser
      { name := "Bob"
        email := email
        password := "password"
        role := none
        department := none
        managerIds := none
        projectIds := none })

/-- Bob is created after Ada was on the first page. -/
def crowdedWorlds : Nat → World
  | 0 => World.empty.run plainLibs
      [.register "acme" "ada@acme", laterUser 1 "eve@acme"]
  | k + 1 => (crowdedWorlds k).run plainLibs
      (if k = 0 then [laterUser 2 "bob@acme"] else [])

/-- A database that goes through its rows from the last one. -/
def fromLast (rows : List User) : List User :=
  rows.reverse.insertionSort fun a b => b.createdAt ≤ a.createdAt

theorem arranges_fromLast :
    Arranges (fun a b : User => b.createdAt ≤ a.createdAt) fromLast := by
  have := createdAt_total
  have := createdAt_trans
  exact arranges_insertionSort List.reverse_perm

/-- With one user a page Ada moves from the second to the third. -/
theorem roster_complete_crowded :
    ∃ k ≤ 2, ∃ answer,
      (handleListUsersIn fromLast ada
          ⟨some (toString (k + 1)), some "1"⟩).exec (crowdedWorlds k).db =
        (.ok answer, (crowdedWorlds k).db) ∧
          ∃ row ∈ answer.data, row.id = 1 := by
  have asked : ∀ k : Nat, k ≤ 2 →
      ListQuery.pageNumber ⟨some (toString (k + 1)), some "1"⟩ = k + 1 ∧
        ListQuery.limitNumber ⟨some (toString (k + 1)), some "1"⟩ =
          (1 : Nat) := by
    decide +kernel
  have users : ((crowdedWorlds 2).db.filteredUsers ada.orgId
        ((crowdedWorlds 2).db.userFilter ada)).length = 3 ∧
      (∃ u ∈ (crowdedWorlds 0).db.users.rows,
        u.organisationId = ada.orgId ∧ u.id = 1) ∧
      (crowdedWorlds 2).db.CreatedApart ada.orgId := by
    unfold Db.CreatedApart
    decide +kernel
  rcases users with ⟨total, ⟨u, member, org, key⟩, apart⟩
  have served : ∀ k, crowdedWorlds (k + 1) = (crowdedWorlds k).run plainLibs
      (if k = 0 then [laterUser 2 "bob@acme"] else []) := fun _ => rfl
  have seen := roster_complete rfl served (fun _ => arranges_fromLast) apart
    (fun k bound => (asked k bound).1) (fun k bound => (asked k bound).2)
    (fun answer answered => ?_) member org
  · rwa [key] at seen
  · rw [handleListUsersIn_exec rfl (asked 2 le_rfl).1 (asked 2 le_rfl).2]
      at answered
    cases answered
    exact total.le

end TmsApi
