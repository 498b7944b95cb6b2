import TmsApi.Concurrency.Pools
import TmsApi.Properties.Rotation

/-!
# Concurrent refreshes and revocations

`refreshAccessToken` reads the stored hash in its first statement and replaces
it in its second, whatever is stored by then.  A revocation is undone exactly
when a refresh of its user has read the hash before the revocation is written
and stores its own after it.  And since the stored hash matches every refresh
token of its user, of several refreshes with one token each succeeds that
would succeed alone.
-/

namespace TmsApi

open TmsApi.Core
open TmsApi.Core.Program

/-! ## Writing the token of a user -/

/-- The user, if there is one, has no refresh token. -/
def Db.Revoked (db : Db) (id : Nat) : Prop :=
  ∀ hash, ¬ db.Holds id hash

/-- Members and hierarchy are as they were in `db`. -/
structure Alongside (db later : Db) : Prop where
  members : ∀ id orgId, later.Member id orgId ↔ db.Member id orgId
  links : later.managerEmployees = db.managerEmployees

theorem Alongside.refl (db : Db) : Alongside db db :=
  ⟨fun _ _ => Iff.rfl, rfl⟩

section Writes

variable {db later : Db} {now : Instant} {id : Nat} {data : UserUpdate}

/-- An update of a user whose texts fit writes its columns, if at all. -/
theorem settle_userUpdate
    (fits : varchar? data.name ∧ varchar? data.department) (s : Db) :
    settle (Prisma.userUpdate now id data) s = s.setUser now id data := by
  by_cases known : s.users.HasKey id
  · rcases known with ⟨u, member, key⟩
    exact settle_of
      (userUpdate_eq_ok.mpr ⟨fits, ⟨u, member, key, rfl⟩, rfl⟩)
  · have apart : ∀ u ∈ s.users.rows, u.id ≠ id :=
      fun u member key => known ⟨u, member, key⟩
    have missing : Prisma.userUpdate now id data s =
        .error (.driver .recordNotFound) := by
      rw [Prisma.userUpdate, Table.find?_eq_none.mpr apart]
    rw [settle, missing, Db.setUser, Table.modify_of_none apart]

theorem member_setUser {other orgId : Nat} :
    (db.setUser now id data).Member other orgId ↔ db.Member other orgId := by
  constructor
  · rintro ⟨u, member, rfl, rfl⟩
    rcases Db.mem_setUser.mp member with ⟨old, oldMem, rfl⟩
    refine ⟨old, oldMem, ?_⟩
    split <;> exact ⟨rfl, rfl⟩
  · rintro ⟨u, member, rfl, rfl⟩
    refine ⟨_, Db.mem_setUser.mpr ⟨u, member, rfl⟩, ?_⟩
    split <;> exact ⟨rfl, rfl⟩

theorem Alongside.trans {last : Db} (along : Alongside db later)
    (next : Alongside later last) : Alongside db last :=
  ⟨fun other orgId => (next.members other orgId).trans
      (along.members other orgId),
    next.links.trans along.links⟩

theorem Alongside.setUser (along : Alongside db later) :
    Alongside db (later.setUser now id data) :=
  ⟨fun other orgId => member_setUser.trans (along.members other orgId),
    along.links⟩

theorem revoked_clear (clears : data.refreshToken = some none) :
    (db.setUser now id data).Revoked id :=
  fun _ held => (Db.holds_clear clears held).1 rfl

/-- Writing the token of one user leaves another revoked. -/
theorem Db.Revoked.setUser {other : Nat} (revoked : db.Revoked other)
    (harmless : other ≠ id ∨ data.refreshToken = some none) :
    (db.setUser now id data).Revoked other := by
  intro hash held
  rcases Db.holds_setUser held with ⟨own, written⟩ | ⟨_, old⟩
  · rcases harmless with apart | clears
    · exact apart own
    · rw [clears] at written
      cases written
  · exact revoked hash old

end Writes

/-! ## The statements of a refresh -/

/-- A refresh of the user: its token is read as one of theirs. -/
def ReadsAs (lib : Libs) (host : Host) (token : String) (id : Nat) : Prop :=
  ∃ payload, lib.jwtVerify .refresh token host.now = some payload ∧
    payload.userId = id

section Refreshing

variable {lib : Libs} {host : Host} {token : String} {payload : JwtPayload}
  {found : Option User}

/-- What `refreshAccessToken` does with the row it read. -/
def refreshFound (lib : Libs) (host : Host) (token : String)
    (payload : JwtPayload) (found : Option User) : Service Response :=
  orThrow found (.unauthorizedError "Refresh token revoked") >>= fun user =>
    orThrow user.refreshToken
      (.unauthorizedError "Refresh token revoked") >>= fun stored =>
        whenever (lib.bcryptCompare token stored = false)
          (statement (Prisma.userUpdate host.now payload.userId
              { refreshToken := some none }) >>= fun _ =>
            throw (.unauthorizedError "Refresh token mismatch")) >>= fun _ =>
          openSession lib host user >>= fun result =>
            done (.ok (.session result))

theorem handle_refresh
    (verified : lib.jwtVerify .refresh token host.now = some payload) :
    handlePublic lib host (.refresh token) =
      (query fun db => db.users.find? fun u => u.id = payload.userId) >>=
        refreshFound lib host token payload := by
  simp only [handlePublic, refreshAccessToken, verified, orThrow_some, ok_bind,
    bind_assoc, pure_eq]
  rfl

/-- A token that does not verify is refused without a statement. -/
theorem handle_refresh_unread
    (unread : lib.jwtVerify .refresh token host.now = none) :
    handlePublic lib host (.refresh token) =
      done
        (.error (.unauthorizedError "Invalid or expired refresh token")) := by
  simp only [handlePublic, refreshAccessToken, unread, orThrow_none,
    error_bind]

/-- What is left of a refresh after its first statement. -/
inductive Refreshing (lib : Libs) (host : Host) (token : String)
    (payload : JwtPayload) (found : Option User) : Service Response → Prop where
  | refused (absent : ∀ user ∈ found, user.refreshToken = none) (e : Thrown) :
      Refreshing lib host token payload found (done (.error e))
  | clears {user : User} {stored : String} (read : found = some user)
      (held : user.refreshToken = some stored)
      (rejected : lib.bcryptCompare token stored = false) (e : Db → Thrown) :
      Refreshing lib host token payload found
        (atomic
          (fun s => s.setUser host.now payload.userId
            { refreshToken := some none })
          fun s => done (.error (e s)))
  | stores {user : User} {stored : String} (read : found = some user)
      (held : user.refreshToken = some stored)
      (accepted : lib.bcryptCompare token stored = true)
      (answer : Db → Except Thrown Response)
      (answers : ∀ s, s.users.HasKey user.id →
        answer s = .ok (.session (session lib host user))) :
      Refreshing lib host token payload found
        (atomic (fun s => s.storeSession lib host user)
          fun s => done (answer s))

/-- A write of the token column always succeeds on its user. -/
theorem settle_token (now : Instant) (id : Nat) (token : Option String) :
    settle (Prisma.userUpdate now id { refreshToken := some token }) =
      fun s => s.setUser now id { refreshToken := some token } :=
  funext fun s => settle_userUpdate (by simp [varchar?]) s

theorem refreshFound_refreshing (lib : Libs) (host : Host) (token : String)
    (payload : JwtPayload) (found : Option User) :
    Refreshing lib host token payload found
      (refreshFound lib host token payload found) := by
  cases found with
  | none => exact .refused (by simp) _
  | some user =>
      cases held : user.refreshToken with
      | none =>
          rw [refreshFound, orThrow_some, ok_bind, held]
          exact .refused (by simpa using held) _
      | some stored =>
          rw [refreshFound, orThrow_some, ok_bind, held, orThrow_some,
            ok_bind]
          by_cases rejected : lib.bcryptCompare token stored = false
          · rw [whenever_of rejected, bind_assoc, statement_bind,
              settle_token]
            have ends (result : Except Thrown User) : ∃ e : Thrown,
                (done result >>= fun _ =>
                  (throw (.unauthorizedError "Refresh token mismatch") :
                    Service PUnit) >>= fun _ =>
                  openSession lib host user >>= fun session =>
                    (done (.ok (.session session)) : Service Response)) =
                  done (.error e) := by
              cases result with
              | ok row => exact ⟨_, rfl⟩
              | error e => exact ⟨e, rfl⟩
            choose error ends using ends
            simp only [ends]
            exact .clears rfl held rejected _
          · rw [whenever_of_not rejected, ok_bind, openSession,
              statement_bind, settle_token, atomic_bind]
            have accepted : lib.bcryptCompare token stored = true := by
              simpa using rejected
            have ends (result : Except Thrown User) (opened : AuthResult) :
                ((done result >>= fun _ =>
                    (pure opened : Service AuthResult)) >>= fun opened =>
                  (done (.ok (.session opened)) : Service Response)) =
                  done (result.map fun _ => .session opened) := by
              cases result with
              | ok row => rfl
              | error e => rfl
            simp only [ends]
            refine .stores rfl held accepted _ fun s known => ?_
            rcases known with ⟨u, member, key⟩
            have key : u.id = user.id := key
            rw [← key, answer_of (tokenUpdate_ok member _)]
            rfl

theorem refresh_safe {inv : Db → Prop} {rel : Db → Db → Prop}
    (refl : ∀ s, inv s → rel s s)
    (rest : ∀ payload, lib.jwtVerify .refresh token host.now = some payload →
      ∀ s, inv s → ∀ left, Refreshing lib host token payload
        (s.users.find? fun u => u.id = payload.userId) left →
          left.Safe inv rel) :
    (handlePublic lib host (.refresh token)).Safe inv rel := by
  cases verified : lib.jwtVerify .refresh token host.now with
  | none =>
      rw [handle_refresh_unread verified]
      trivial
  | some payload =>
      rw [handle_refresh verified]
      exact Safe.query_bind refl fun s holds =>
        rest payload verified s holds _ (refreshFound_refreshing _ _ _ _ _)

theorem refresh_ends {inv : Db → Prop} {post : Except Thrown Response → Prop}
    (unread : lib.jwtVerify .refresh token host.now = none →
      ∀ e, post (.error e))
    (rest : ∀ payload, lib.jwtVerify .refresh token host.now = some payload →
      ∀ s, inv s → ∀ left, Refreshing lib host token payload
        (s.users.find? fun u => u.id = payload.userId) left →
          left.Ends inv post) :
    (handlePublic lib host (.refresh token)).Ends inv post := by
  cases verified : lib.jwtVerify .refresh token host.now with
  | none =>
      rw [handle_refresh_unread verified]
      exact unread verified _
  | some payload =>
      rw [handle_refresh verified]
      exact Ends.query_bind fun s holds =>
        rest payload verified s holds _ (refreshFound_refreshing _ _ _ _ _)

/-- A refresh is over after two statements. -/
theorem refresh_short :
    (handlePublic lib host (.refresh token)).Leads (fun _ => True)
      (fun _ _ => True) (fun left => ∃ result, left = done result) 2 := by
  cases verified : lib.jwtVerify .refresh token host.now with
  | none =>
      rw [handle_refresh_unread verified]
      exact leads_done ⟨_, rfl⟩ 2
  | some payload =>
      rw [handle_refresh verified]
      refine Leads.query_bind (fun _ _ => trivial) fun s _ => ?_
      have stage := refreshFound_refreshing lib host token payload
        (s.users.find? fun u => u.id = payload.userId)
      generalize refreshFound lib host token payload _ = left at stage ⊢
      cases stage with
      | refused absent e => exact leads_done ⟨_, rfl⟩ 1
      | clears read held rejected e =>
          exact fun s _ => ⟨trivial, trivial, _, rfl⟩
      | stores read held accepted answer answers =>
          exact fun s _ => ⟨trivial, trivial, _, rfl⟩

/-- Refreshes keep members and hierarchy as they are. -/
theorem refresh_alongside (db : Db) :
    (handlePublic lib host (.refresh token)).Safe (Alongside db)
      (fun _ _ => True) := by
  refine refresh_safe (fun _ _ => trivial) fun payload _ s along left stage =>
    ?_
  cases stage with
  | refused absent e => trivial
  | clears read held rejected e =>
      exact fun s along => ⟨trivial, along.setUser, trivial⟩
  | stores read held accepted answer answers =>
      exact fun s along => ⟨trivial, along.setUser, trivial⟩

/-- A refresh that starts after a revocation leaves it alone. -/
theorem refresh_revoked (id : Nat) :
    (handlePublic lib host (.refresh token)).Safe (fun s => s.Revoked id)
      (fun _ _ => True) := by
  refine refresh_safe (fun _ _ => trivial)
    fun payload _ s revoked left stage => ?_
  have apart {user : User} {stored : String}
      (read : s.users.find? (fun u => u.id = payload.userId) = some user)
      (held : user.refreshToken = some stored) : id ≠ user.id := by
    rintro rfl
    exact revoked stored ⟨user, Table.mem_of_find? read, rfl, held⟩
  cases stage with
  | refused absent e => trivial
  | clears read held rejected e =>
      exact fun s revoked => ⟨trivial, revoked.setUser (.inr rfl), trivial⟩
  | stores read held accepted answer answers =>
      exact fun s revoked =>
        ⟨trivial, revoked.setUser (.inl (apart read held)), trivial⟩

/-- A refresh of another user leaves a revocation alone at any time. -/
theorem refresh_other {id : Nat} (other : ¬ ReadsAs lib host token id) :
    (handlePublic lib host (.refresh token)).Safe (fun _ => True)
      (fun s s' => s.Revoked id → s'.Revoked id) := by
  refine refresh_safe (fun _ _ revoked => revoked)
    fun payload verified s _ left stage => ?_
  have apart : id ≠ payload.userId := fun same =>
    other ⟨payload, verified, same.symm⟩
  cases stage with
  | refused absent e => trivial
  | clears read held rejected e =>
      exact fun s _ =>
        ⟨fun revoked => revoked.setUser (.inr rfl), trivial, trivial⟩
  | stores read held accepted answer answers =>
      rw [← (Table.find?_spec read).2] at apart
      exact fun s _ =>
        ⟨fun revoked => revoked.setUser (.inl apart), trivial, trivial⟩

end Refreshing

/-! ## The statements of a revocation -/

/-- A request that takes the refresh token of a user away. -/
inductive Revocation where
  | logout (host : Host) (caller : JwtPayload)
  | deactivation (host : Host) (caller : JwtPayload) (id : Nat)

namespace Revocation

def userId : Revocation → Nat
  | logout _ caller => caller.userId
  | deactivation _ _ id => id

def program (lib : Libs) : Revocation → Service Response
  | logout host caller => handle lib host caller .logout
  | deactivation host caller id => handle lib host caller (.deactivateUser id)

/-- The statements in front of the write. -/
def checks : Revocation → Nat
  | logout _ _ => 0
  | deactivation _ caller _ => if caller.role = .admin then 1 else 2

/-- The caller may revoke: a deactivation needs authority over the user. -/
def Authorised (db : Db) : Revocation → Prop
  | logout _ _ => True
  | deactivation _ caller id => Managing caller ∧ Manages caller db id

end Revocation

/-- The next statement revokes and is the last one. -/
def Revokes (id : Nat) (program : Service Response) : Prop :=
  ∃ write next, program = atomic write next ∧
    (∀ s, (write s).Revoked id ∧ Alongside s (write s)) ∧
      ∀ s, ∃ result, next s = done result

section Revocations

variable {lib : Libs} {db : Db} {revocation : Revocation}

theorem revokes_statement {now : Instant} {id : Nat} {data : UserUpdate}
    (fits : varchar? data.name ∧ varchar? data.department)
    (clears : data.refreshToken = some none) {f : User → Service Response}
    (ends : ∀ row, ∃ result, f row = done result) :
    Revokes id (statement (Prisma.userUpdate now id data) >>= f) := by
  refine ⟨_, _, statement_bind _ _, fun s => ?_, fun s => ?_⟩
  · rw [settle_userUpdate fits]
    exact ⟨revoked_clear clears, (Alongside.refl s).setUser⟩
  · cases answer (Prisma.userUpdate now id data) s with
    | ok row => exact ends row
    | error e => exact ⟨_, rfl⟩

/-- The member is found in every later state. -/
theorem Alongside.finds {later : Db} {id orgId : Nat}
    (along : Alongside db later) (member : db.Member id orgId) :
    ∃ u, (later.users.find? fun u => u.id = id ∧ u.organisationId = orgId) =
      some u := by
  rcases (along.members id orgId).mpr member with ⟨u, present, key, org⟩
  exact ⟨u, Table.find?_of_mem present ⟨key, org⟩
    fun other facts => facts.1.trans key.symm⟩

theorem Alongside.directReportIds {later : Db} (along : Alongside db later)
    (managerId orgId : Nat) :
    later.directReportIds managerId orgId =
      db.directReportIds managerId orgId := by
  simp only [Db.directReportIds, along.links, along.members]

/-- The last statements of a deactivation. -/
theorem revokes_deactivation {host : Host} {id : Nat} :
    Revokes id
      (statement (Prisma.userUpdate host.now id deactivation) >>= fun _ =>
        done (.ok (.message "User deactivated"))) :=
  revokes_statement (by simp [varchar?, deactivation]) rfl fun _ => ⟨_, rfl⟩

/-- An authorised revocation reads until its write. -/
theorem Revocation.waits (may : revocation.Authorised db) :
    (revocation.program lib).Waits (Alongside db)
      (Revokes revocation.userId) revocation.checks := by
  cases revocation with
  | logout host caller =>
      simp only [Revocation.program, handle, logoutUser, bind_assoc]
      exact revokes_statement (by simp [varchar?]) rfl fun _ => ⟨_, rfl⟩
  | deactivation host caller id =>
      rcases may with ⟨role, manages⟩
      have allowed : ¬ caller.role ∉ [UserRole.manager, UserRole.admin] := by
        rcases role with manager | admin
        · simp [manager]
        · simp [admin]
      simp only [Revocation.program, handle, requireRole,
        throwIf_of_not allowed, ok_bind, deactivateUser, assertCanManageUser,
        getDirectReportIds, bind_assoc, pure_eq, Revocation.checks,
        Revocation.userId]
      by_cases admin : caller.role = .admin
      · rw [if_pos admin, query_bind]
        intro s along
        refine ⟨along, ?_⟩
        rcases along.finds manages.member with ⟨u, found⟩
        have idle : ¬ caller.role ≠ .admin := not_not.mpr admin
        simp only [found, orThrow_some, ok_bind, whenever_of_not idle]
        exact revokes_deactivation
      · rw [if_neg admin, query_bind]
        intro s along
        refine ⟨along, ?_⟩
        rcases along.finds manages.member with ⟨u, found⟩
        simp only [found, orThrow_some, ok_bind, whenever_of admin,
          query_bind, atomic_bind]
        intro s along
        refine ⟨along, ?_⟩
        have report : ¬ id ∉ s.directReportIds caller.userId caller.orgId := by
          rw [along.directReportIds]
          exact not_not.mpr (manages.report admin)
        simp only [throwIf_of_not report, ok_bind]
        exact revokes_deactivation

end Revocations

/-! ## Refreshes in flight -/

/-- Whose statement is next: the revocation's or that of a refresh. -/
inductive Turn (ι : Type) where
  | revocation
  | refresh (i : ι)
deriving DecidableEq

/-- Refreshes in flight, one for each index. -/
structure Refreshes (ι : Type) where
  host : ι → Host
  token : ι → String

namespace Refreshes

variable {ι : Type}

def program (refreshes : Refreshes ι) (lib : Libs) (i : ι) :
    Service Response :=
  handlePublic lib (refreshes.host i) (.refresh (refreshes.token i))

/-- The refreshes before their first statement. -/
def pool (refreshes : Refreshes ι) (lib : Libs) (db : Db) :
    Pool Db Thrown Response ι where
  state := db
  threads := refreshes.program lib

/-- The refreshes and a revocation before their first statement. -/
def poolWith (refreshes : Refreshes ι) (revocation : Revocation) (lib : Libs)
    (db : Db) : Pool Db Thrown Response (Turn ι) where
  state := db
  threads
    | .revocation => revocation.program lib
    | .refresh i => refreshes.program lib i

/-- The refresh is one of the user. -/
def OfUser (refreshes : Refreshes ι) (lib : Libs) (id : Nat) (i : ι) :
    Prop :=
  ReadsAs lib (refreshes.host i) (refreshes.token i) id

end Refreshes

/--
When the revocation is written, no refresh of its user has read the stored
hash and is still to make its second statement.
-/
def Uncrossed {ι : Type} [DecidableEq ι] (lib : Libs)
    (refreshes : Refreshes ι) (revocation : Revocation)
    (schedule : List (Turn ι)) : Prop :=
  ∀ pre post, schedule = pre ++ .revocation :: post →
    pre.count .revocation = revocation.checks →
      ∀ i, refreshes.OfUser lib revocation.userId i →
        pre.count (.refresh i) = 1 → .refresh i ∉ post

/-- A revocation that is the last step of its schedule crosses no refresh. -/
theorem uncrossed_of_last {ι : Type} [DecidableEq ι] (lib : Libs)
    (refreshes : Refreshes ι) (revocation : Revocation)
    {steps : List (Turn ι)} (before : .revocation ∉ steps) :
    Uncrossed lib refreshes revocation (steps ++ [.revocation]) := by
  intro pre post split checked i own once scheduled
  rcases List.append_eq_append_iff.mp split with
    ⟨rest, -, tail⟩ | ⟨rest, inside, tail⟩
  · cases rest with
    | nil =>
        cases tail
        cases scheduled
    | cons step rest =>
        have length := congrArg List.length tail
        simp only [List.cons_append, List.length_cons, List.length_append,
          List.length_nil] at length
        omega
  · cases rest with
    | nil =>
        cases tail
        cases scheduled
    | cons step rest =>
        cases tail
        rw [inside] at before
        exact before (List.mem_append_right _ List.mem_cons_self)

section Crossing

variable {ι : Type} [DecidableEq ι] {lib : Libs} {refreshes : Refreshes ι}
  {revocation : Revocation} {db : Db} {schedule : List (Turn ι)}
  {last : Pool Db Thrown Response (Turn ι)}

/-- The run around the write of a revocation. -/
structure Crossing (lib : Libs) (refreshes : Refreshes ι)
    (revocation : Revocation) (db : Db)
    (last : Pool Db Thrown Response (Turn ι)) (pre post : List (Turn ι))
    (before after : Pool Db Thrown Response (Turn ι)) : Prop where
  began : (refreshes.poolWith revocation lib db).run pre = some before
  rest : after.run post = some last
  refreshes : ∀ i, after.threads (.refresh i) = before.threads (.refresh i)
  ended : ∃ answer, after.threads .revocation = done answer
  revoked : after.state.Revoked revocation.userId
  along : Alongside db after.state

theorem not_revokes_done {id : Nat} {result : Except Thrown Response} :
    ¬ Revokes id (done result) := by
  rintro ⟨write, next, absurd, _⟩
  cases absurd

omit [DecidableEq ι] in
theorem refreshes_alongside (j : Turn ι) (apart : j ≠ .revocation) :
    ((refreshes.poolWith revocation lib db).threads j).Safe (Alongside db)
      (fun _ _ => True) := by
  cases j with
  | revocation => exact (apart rfl).elim
  | refresh i => exact refresh_alongside db

theorem crossing_of_split (may : revocation.Authorised db)
    {pre post : List (Turn ι)}
    (ran : (refreshes.poolWith revocation lib db).run
      (pre ++ .revocation :: post) = some last)
    (checked : pre.count .revocation = revocation.checks) :
    ∃ before after,
      Crossing lib refreshes revocation db last pre post before after := by
  rcases Pool.run_append.mp ran with ⟨before, began, rest⟩
  rcases Pool.run_cons.mp rest with ⟨after, step, tail⟩
  have waits : (revocation.program lib).Waits (Alongside db)
      (Revokes revocation.userId) (pre.count .revocation + 0) :=
    checked ▸ revocation.waits may
  have leads : ∀ j, ((refreshes.poolWith revocation lib db).threads j).Leads
      (Alongside db) (fun _ _ => True)
      (fun left => j = .revocation → Revokes revocation.userId left)
      (pre.count j) := by
    intro j
    by_cases same : j = .revocation
    · subst same
      exact waits.leads.mono fun _ revokes _ => revokes
    · exact ((refreshes_alongside j same).leads _).mono
        fun _ _ equal => (same equal).elim
  rcases Pool.run_leads began (Alongside.refl db) leads with
    ⟨_, along, threads⟩
  rcases threads .revocation rfl with ⟨write, next, thread, revokes, ends⟩
  rcases Pool.step_eq_some.mp step with ⟨write', next', same, made⟩
  cases thread.symm.trans same
  rcases ends before.state with ⟨answer, ended⟩
  refine ⟨before, after, ?_⟩
  exact
    { began := began
      rest := tail
      refreshes := fun i => by simp [made]
      ended := ⟨answer, by simp [made, ended]⟩
      revoked := by simpa [made] using (revokes before.state).1
      along := by simpa [made] using along.trans (revokes before.state).2 }

/-- In a finished run an authorised revocation has been written. -/
theorem exists_crossing (may : revocation.Authorised db)
    (ran : (refreshes.poolWith revocation lib db).run schedule = some last)
    (finished : last.Finished) :
    ∃ pre post before after, schedule = pre ++ .revocation :: post ∧
      pre.count .revocation = revocation.checks ∧
      Crossing lib refreshes revocation db last pre post before after := by
  have waits : ((refreshes.poolWith revocation lib db).threads
      .revocation).Waits (Alongside db) (Revokes revocation.userId)
        revocation.checks :=
    revocation.waits may
  rcases finished .revocation with ⟨result, ended⟩
  have more := Pool.lt_count_of_waits ran (Alongside.refl db) waits
    refreshes_alongside ended not_revokes_done
  rcases exists_split_of_lt_count more with ⟨pre, post, rfl, checked⟩
  rcases crossing_of_split may ran checked with ⟨before, after, crossing⟩
  exact ⟨pre, post, before, after, rfl, checked, crossing⟩

/-- A refresh of the user in the rest of the schedule has not begun. -/
theorem Crossing.fresh {pre post : List (Turn ι)}
    {before after : Pool Db Thrown Response (Turn ι)}
    (crossing : Crossing lib refreshes revocation db last pre post before
      after)
    (ran : (refreshes.poolWith revocation lib db).run
      (pre ++ .revocation :: post) = some last) {i : ι}
    (apart : pre.count (.refresh i) ≠ 1) (scheduled : .refresh i ∈ post) :
    after.threads (.refresh i) = refreshes.program lib i := by
  have short := Pool.count_le_of_leads ran (i := .refresh i) refresh_short
  rw [List.count_append, List.count_cons_of_ne (by simp)] at short
  have later : 0 < post.count (.refresh i) := List.count_pos_iff.mpr scheduled
  have idle : .refresh i ∉ pre := List.count_eq_zero.mp (by omega)
  rw [crossing.refreshes i, Pool.run_threads_of_notMem crossing.began idle]
  rfl

/-- A revocation that crosses no refresh of its user stands. -/
theorem revoked_of_uncrossed (may : revocation.Authorised db)
    (ran : (refreshes.poolWith revocation lib db).run schedule = some last)
    (finished : last.Finished)
    (uncrossed : Uncrossed lib refreshes revocation schedule) :
    last.state.Revoked revocation.userId := by
  rcases exists_crossing may ran finished with
    ⟨pre, post, before, after, rfl, checked, crossing⟩
  -- a refresh of another user is harmless wherever it has got to
  have others : ∀ i, ¬ refreshes.OfUser lib revocation.userId i →
      (after.threads (.refresh i)).Safe (fun _ => True)
        (fun s s' => s.Revoked revocation.userId →
          s'.Revoked revocation.userId) := by
    intro i other
    rw [crossing.refreshes i]
    exact Pool.safe_of_thread crossing.began (refresh_other other)
  refine (Pool.run_safe (fun s => s.Revoked revocation.userId)
    (fun _ _ => True) crossing.rest crossing.revoked ?_).2
  intro j scheduled
  cases j with
  | revocation =>
      rcases crossing.ended with ⟨answer, ended⟩
      exact (Pool.notMem_of_done crossing.rest ended scheduled).elim
  | refresh i =>
      by_cases own : refreshes.OfUser lib revocation.userId i
      · have apart : pre.count (.refresh i) ≠ 1 := fun once =>
          uncrossed pre post rfl checked i own once scheduled
        rw [crossing.fresh ran apart scheduled]
        exact refresh_revoked _
      · exact ((others i own).assume fun _ _ revoked keeps =>
          keeps revoked).mono fun _ _ _ _ => trivial

end Crossing

/-! ## Tokens that match every hash of their user -/

/-- The hash of a refresh token signed for the user. -/
def SignedFor (lib : Libs) (db : Db) (id : Nat) (hash : String) : Prop :=
  ∃ payload now salt, payload.userId = id ∧ db.Member id payload.orgId ∧
    hash = lib.bcryptHash (lib.jwtSign .refresh payload now) salt

/-- The token begins like every refresh token of the user. -/
def Genuine (lib : Libs) (db : Db) (id : Nat) (token : String) : Prop :=
  ∀ payload now, payload.userId = id → db.Member id payload.orgId →
    first72 token = first72 (lib.jwtSign .refresh payload now)

/-- Members as in `db`, and the hash of the user is one of their tokens. -/
structure Faithful (lib : Libs) (db : Db) (id : Nat) (later : Db) : Prop where
  along : Alongside db later
  signed : ∀ hash, later.Holds id hash → SignedFor lib db id hash

/-- A step leaves a user who holds a hash one. -/
def KeepsHolding (id : Nat) (s s' : Db) : Prop :=
  (∃ hash, s.Holds id hash) → ∃ hash, s'.Holds id hash

section Faithfully

variable {lib : Libs} {host : Host} {token : String} {db later : Db}
  {id : Nat}

theorem Genuine.accepted (laws : SessionLibs lib)
    (genuine : Genuine lib db id token) {hash : String}
    (signed : SignedFor lib db id hash) :
    lib.bcryptCompare token hash = true := by
  rcases signed with ⟨payload, now, salt, own, member, rfl⟩
  exact laws.truncates _ _ _ (genuine payload now own member)

/-- A genuine token of the user matches what a refresh reads. -/
theorem Genuine.not_rejected (laws : SessionLibs lib)
    (genuine : Genuine lib db id token) (faithful : Faithful lib db id later)
    {user : User} {stored : String}
    (read : later.users.find? (fun u => u.id = id) = some user)
    (held : user.refreshToken = some stored)
    (rejected : lib.bcryptCompare token stored = false) : False := by
  rcases Table.find?_spec read with ⟨member, key⟩
  have signed := faithful.signed _ ⟨_, member, key, held⟩
  rw [genuine.accepted laws signed] at rejected
  cases rejected

/-- A session stored for a member keeps the hashes of the user. -/
theorem Faithful.storeSession (faithful : Faithful lib db id later)
    {user : User} (member : user.id = id → db.Member id user.organisationId) :
    Faithful lib db id (later.storeSession lib host user) := by
  refine ⟨faithful.along.setUser, fun hash held => ?_⟩
  rcases Db.holds_storeSession held with ⟨own, rfl⟩ | ⟨_, old⟩
  · exact ⟨user.payload, host.now, host.salt, own.symm, member own.symm, rfl⟩
  · exact faithful.signed hash old

/-- Clearing the token of some user keeps the hashes of this one. -/
theorem Faithful.clear (faithful : Faithful lib db id later) {now : Instant}
    {other : Nat} :
    Faithful lib db id
      (later.setUser now other { refreshToken := some none }) :=
  ⟨faithful.along.setUser,
    fun hash held => faithful.signed hash (Db.holds_clear rfl held).2⟩

/-- A stored session is held. -/
theorem holds_storeSession {user : User} (known : later.users.HasKey user.id) :
    ∃ hash, (later.storeSession lib host user).Holds user.id hash := by
  rcases known with ⟨u, member, key⟩
  have key : u.id = user.id := key
  exact ⟨lib.bcryptHash (session lib host user).refreshToken host.salt, _,
    Db.mem_setUser.mpr ⟨u, member, (if_pos key).symm⟩, key, rfl⟩

/-- Writing the token of another user leaves what this one holds. -/
theorem Db.Holds.setUser_other {now : Instant} {other : Nat}
    {data : UserUpdate} {hash : String} (held : later.Holds id hash)
    (apart : id ≠ other) : (later.setUser now other data).Holds id hash := by
  rcases held with ⟨u, member, rfl, held⟩
  exact ⟨u, Db.mem_setUser.mpr ⟨u, member, (if_neg apart).symm⟩, rfl, held⟩

/-- The user of a member keeps its row. -/
theorem Alongside.hasKey {s s' : Db} (before : Alongside db s)
    (after : Alongside db s') {id : Nat} (known : s.users.HasKey id) :
    s'.users.HasKey id := by
  rcases known with ⟨u, member, rfl⟩
  have known : db.Member u.id u.organisationId :=
    (before.members _ _).mp ⟨u, member, rfl, rfl⟩
  rcases (after.members _ _).mpr known with ⟨v, present, key, _⟩
  exact ⟨v, present, key⟩

/--
While every hash of the user is one of their tokens, a refresh keeps it so and
takes no hash away.
-/
theorem refresh_faithful (laws : SessionLibs lib)
    (genuine : ReadsAs lib host token id → Genuine lib db id token) :
    (handlePublic lib host (.refresh token)).Safe (Faithful lib db id)
      (KeepsHolding id) := by
  refine refresh_safe (fun _ _ held => held)
    fun payload verified s faithful left stage => ?_
  cases stage with
  | refused absent e => trivial
  | clears read held rejected e =>
      intro s' faithful'
      refine ⟨?_, faithful'.clear, trivial⟩
      rintro ⟨hash, there⟩
      refine ⟨hash, there.setUser_other ?_⟩
      rintro rfl
      have genuine := genuine ⟨payload, verified, rfl⟩
      exact genuine.not_rejected laws faithful read held rejected
  | stores read held accepted answer answers =>
      rcases Table.find?_spec read with ⟨member, key⟩
      intro s' faithful'
      refine ⟨?_, faithful'.storeSession fun own => ?_, trivial⟩
      · rintro ⟨hash, there⟩
        by_cases own : id = payload.userId
        · subst own
          rw [← key]
          exact holds_storeSession
            (faithful.along.hasKey faithful'.along ⟨_, member, rfl⟩)
        · rw [← key] at own
          exact ⟨hash, there.setUser_other own⟩
      · exact (faithful.along.members _ _).mp ⟨_, member, own, rfl⟩

/-- After one statement a refresh of the user is over or stores a hash. -/
def Stores (db : Db) (id : Nat) (left : Service Response) : Prop :=
  ∃ write next, left = atomic write next ∧
    ∀ s, Alongside db s → ∃ hash, (write s).Holds id hash

theorem refresh_stores (laws : SessionLibs lib)
    (own : ReadsAs lib host token id) (genuine : Genuine lib db id token) :
    (handlePublic lib host (.refresh token)).Leads (Faithful lib db id)
      (fun _ _ => True)
      (fun left => (∃ result, left = done result) ∨ Stores db id left) 1 := by
  rcases own with ⟨payload, verified, rfl⟩
  rw [handle_refresh verified]
  refine Leads.query_bind (fun _ _ => trivial) fun s faithful => ?_
  have stage := refreshFound_refreshing lib host token payload
    (s.users.find? fun u => u.id = payload.userId)
  generalize refreshFound lib host token payload _ = left at stage ⊢
  cases stage with
  | refused absent e => exact .inl ⟨_, rfl⟩
  | clears read held rejected e =>
      exact (genuine.not_rejected laws faithful read held rejected).elim
  | stores read held accepted answer answers =>
      rcases Table.find?_spec read with ⟨member, key⟩
      refine .inr ⟨_, _, rfl, fun s' along => ?_⟩
      rw [← key]
      exact holds_storeSession
        (faithful.along.hasKey along ⟨_, member, rfl⟩)

/-- A revocation stores no hash. -/
theorem revocation_faithful (revocation : Revocation) :
    (revocation.program lib).Safe (Faithful lib db id) (fun _ _ => True) := by
  have clears (now : Instant) (other : Nat) {data : UserUpdate}
      (fits : varchar? data.name ∧ varchar? data.department)
      (clears : data.refreshToken = some none) :
      (statement (Prisma.userUpdate now other data)).Safe
        (Faithful lib db id) (fun _ _ => True) := by
    intro s faithful
    refine ⟨trivial, ?_, trivial⟩
    rw [settle_userUpdate fits]
    exact ⟨faithful.along.setUser, fun hash held =>
      faithful.signed hash (Db.holds_clear clears held).2⟩
  cases revocation with
  | logout host caller =>
      simp only [Revocation.program, handle, logoutUser, bind_assoc]
      exact (clears _ _ (by simp [varchar?]) rfl).bind fun _ => safe_done _
  | deactivation host caller other =>
      simp only [Revocation.program, handle, requireRole, deactivateUser,
        assertCanManageUser, getDirectReportIds, bind_assoc]
      refine (Safe.throwIf _ _).bind fun _ => ?_
      refine (Safe.query (fun _ => trivial) _).bind fun found => ?_
      refine (Safe.orThrow _ _).bind fun user => ?_
      refine (Safe.whenever fun _ => (Safe.query (fun _ => trivial) _).bind
        fun ids => Safe.throwIf _ _).bind fun _ => ?_
      exact (clears _ _ (by simp [varchar?]) rfl).bind fun _ => safe_done _

end Faithfully

section Crossed

variable {ι : Type} [DecidableEq ι] {lib : Libs} {refreshes : Refreshes ι}
  {revocation : Revocation} {db : Db} {id : Nat}
  {last : Pool Db Thrown Response (Turn ι)}

/-- Everything in flight leaves the user with hashes of their tokens only. -/
def Harmless (lib : Libs) (db : Db) (id : Nat) (j : Turn ι)
    (left : Service Response) : Prop :=
  left.Safe (Faithful lib db id) (fun _ _ => True) ∧
    (j ≠ .revocation → left.Safe (Faithful lib db id) (KeepsHolding id))

omit [DecidableEq ι] in
theorem Harmless.step {j : Turn ι} {write : Db → Db}
    {next : Db → Service Response}
    (harmless : Harmless lib db id j (atomic write next)) {s : Db}
    (faithful : Faithful lib db id s) :
    True ∧ Faithful lib db id (write s) ∧ Harmless lib db id j (next s) := by
  rcases harmless.1 s faithful with ⟨_, kept, tail⟩
  exact ⟨trivial, kept, tail, fun apart =>
    (harmless.2 apart s faithful).2.2⟩

omit [DecidableEq ι] in
theorem poolWith_harmless (laws : SessionLibs lib)
    (genuine : ∀ i, refreshes.OfUser lib id i →
      Genuine lib db id (refreshes.token i)) (j : Turn ι) :
    Harmless lib db id j
      ((refreshes.poolWith revocation lib db).threads j) := by
  cases j with
  | revocation =>
      exact ⟨revocation_faithful revocation, fun apart => (apart rfl).elim⟩
  | refresh i =>
      have keeps : (handlePublic lib (refreshes.host i)
          (.refresh (refreshes.token i))).Safe _ _ :=
        refresh_faithful laws (genuine i)
      exact ⟨keeps.mono fun _ _ _ _ => trivial, fun _ => keeps⟩

/-- A refresh of the user that made one statement is over or will store. -/
theorem stores_after_one (laws : SessionLibs lib)
    (faithful : Faithful lib db id db)
    (genuine : ∀ i, refreshes.OfUser lib id i →
      Genuine lib db id (refreshes.token i))
    {pre : List (Turn ι)} {before : Pool Db Thrown Response (Turn ι)}
    (began : (refreshes.poolWith revocation lib db).run pre = some before)
    {i : ι} (own : refreshes.OfUser lib id i)
    (once : pre.count (.refresh i) = 1) :
    (∃ result, before.threads (.refresh i) = done result) ∨
      Stores db id (before.threads (.refresh i)) := by
  have leads : ∀ j, ((refreshes.poolWith revocation lib db).threads j).Leads
      (Faithful lib db id) (fun _ _ => True)
      (fun left => j = .refresh i →
        (∃ result, left = done result) ∨ Stores db id left)
      (pre.count j) := by
    intro j
    by_cases same : j = .refresh i
    · subst same
      rw [once]
      exact (refresh_stores laws own (genuine i own)).mono
        fun _ left _ => left
    · have harmless : Harmless lib db id j
          ((refreshes.poolWith revocation lib db).threads j) :=
        poolWith_harmless laws genuine j
      exact (harmless.1.leads _).mono fun _ _ equal => (same equal).elim
  exact (Pool.run_leads began faithful leads).2.2 _ rfl

/-- A revocation that crosses a refresh of its user is undone. -/
theorem holds_of_crossed (laws : SessionLibs lib)
    (may : revocation.Authorised db)
    (faithful : Faithful lib db revocation.userId db)
    (genuine : ∀ i, refreshes.OfUser lib revocation.userId i →
      Genuine lib db revocation.userId (refreshes.token i))
    {pre post : List (Turn ι)}
    (ran : (refreshes.poolWith revocation lib db).run
      (pre ++ .revocation :: post) = some last)
    (checked : pre.count .revocation = revocation.checks) {i : ι}
    (own : refreshes.OfUser lib revocation.userId i)
    (once : pre.count (.refresh i) = 1) (scheduled : .refresh i ∈ post) :
    ∃ hash, last.state.Holds revocation.userId hash := by
  rcases crossing_of_split may ran checked with ⟨before, after, crossing⟩
  have harmless := (Pool.run_threads (Faithful lib db revocation.userId)
    (fun _ _ => True) (Harmless lib db revocation.userId)
    (fun _ _ _ harmless _ faithful => harmless.step faithful) crossing.began
    faithful (poolWith_harmless laws genuine)).2.2
  -- after the write only refreshes are left, and each of them keeps a hash
  have safe : ∀ j, (after.threads j).Safe (Faithful lib db revocation.userId)
      (KeepsHolding revocation.userId) := by
    intro j
    cases j with
    | revocation =>
        rcases crossing.ended with ⟨answer, ended⟩
        rw [ended]
        exact safe_done _
    | refresh i =>
        rw [crossing.refreshes i]
        exact (harmless (.refresh i)).2 (by simp)
  have wiped : Faithful lib db revocation.userId after.state :=
    ⟨crossing.along, fun hash held => (crossing.revoked hash held).elim⟩
  rcases List.eq_append_cons_of_mem scheduled with ⟨mid, tail, rfl, idle⟩
  rcases Pool.run_append.mp crossing.rest with ⟨middle, reached, rest⟩
  rcases Pool.run_cons.mp rest with ⟨stored, step, rest⟩
  rcases Pool.run_all_safe reached wiped safe with ⟨_, kept, safe⟩
  rcases Pool.step_eq_some.mp step with ⟨write, next, thread, made⟩
  have waiting : before.threads (.refresh i) = atomic write next := by
    rw [← crossing.refreshes i,
      ← Pool.run_threads_of_notMem reached idle, thread]
  rcases stores_after_one laws faithful genuine crossing.began own once with
    ⟨result, ended⟩ | ⟨write', next', same, stores⟩
  · rw [ended] at waiting
    cases waiting
  cases same.symm.trans waiting
  have single : middle.run [.refresh i] = some stored :=
    Pool.run_cons.mpr ⟨stored, step, rfl⟩
  rcases Pool.run_all_safe single kept safe with ⟨_, kept', safe'⟩
  have held : ∃ hash, stored.state.Holds revocation.userId hash := by
    rw [made]
    exact stores middle.state kept.along
  exact (Pool.run_safe _ _ rest ⟨kept', held⟩ fun j _ =>
    (safe' j).assume_and fun _ _ held keeps => keeps held).2.2

end Crossed

/-! ## Refreshes with one token -/

/-- Alone, a refresh would succeed: its token is read and matches the hash. -/
def OpensAt (lib : Libs) (host : Host) (db : Db) (token : String) : Prop :=
  ∃ user stored, Presents lib host db token user stored ∧
    lib.bcryptCompare token stored = true

/-- The hash of the user, if there is one, is not that of the token. -/
def Mismatched (lib : Libs) (token : String) (id : Nat) (db : Db) : Prop :=
  ∀ hash, db.Holds id hash → lib.bcryptCompare token hash = false

section OneToken

variable {lib : Libs} {host : Host} {token : String} {db : Db} {id : Nat}

/-- What is read as a token of the user, and matches, opens a session. -/
theorem refresh_succeeds (laws : SessionLibs lib)
    (own : ReadsAs lib host token id) (genuine : Genuine lib db id token) :
    (handlePublic lib host (.refresh token)).Ends
      (fun s => Faithful lib db id s ∧ ∃ hash, s.Holds id hash)
      (fun result => ∃ response, result = .ok response) := by
  rcases own with ⟨payload, verified, rfl⟩
  refine refresh_ends (fun unread => ?_) fun again reread s here left stage =>
    ?_
  · rw [verified] at unread
    cases unread
  cases verified.symm.trans reread
  rcases here with ⟨faithful, hash, u, member, key, held⟩
  have found : s.users.find? (fun u => u.id = payload.userId) = some u :=
    Table.find?_of_mem member key fun other same => same.trans key.symm
  cases stage with
  | refused absent e =>
      rw [absent u found] at held
      cases held
  | clears read held rejected e =>
      exact (genuine.not_rejected laws faithful read held rejected).elim
  | stores read held accepted answer answers =>
      rcases Table.find?_spec read with ⟨_, key⟩
      rintro s' ⟨_, hash', v, present, own, _⟩
      exact ⟨_, answers s' ⟨v, present, own.trans key.symm⟩⟩

/-- What was read does not match. -/
theorem Mismatched.rejects {payload : JwtPayload} {user : User}
    {stored : String} (mismatched : Mismatched lib token payload.userId db)
    (read : db.users.find? (fun u => u.id = payload.userId) = some user)
    (held : user.refreshToken = some stored) :
    ¬ lib.bcryptCompare token stored = true := by
  rcases Table.find?_spec read with ⟨member, key⟩
  rw [mismatched stored ⟨user, member, key, held⟩]
  exact Bool.false_ne_true

/-- A token that does not match clears the hash, or leaves it alone. -/
theorem refresh_mismatched
    (sole : ∀ payload, lib.jwtVerify .refresh token host.now = some payload →
      payload.userId = id) :
    (handlePublic lib host (.refresh token)).Safe (Mismatched lib token id)
      (fun _ _ => True) := by
  refine refresh_safe (fun _ _ => trivial)
    fun payload verified s mismatched left stage => ?_
  cases sole payload verified
  cases stage with
  | refused absent e => trivial
  | clears read held rejected e =>
      intro s' mismatched'
      exact ⟨trivial, fun hash held =>
        mismatched' hash (Db.holds_clear rfl held).2, trivial⟩
  | stores read held accepted answer answers =>
      exact (mismatched.rejects read held accepted).elim

/-- A token that does not match is refused. -/
theorem refresh_refused
    (sole : ∀ payload, lib.jwtVerify .refresh token host.now = some payload →
      payload.userId = id) :
    (handlePublic lib host (.refresh token)).Ends (Mismatched lib token id)
      (fun result => ∃ e, result = .error e) := by
  refine refresh_ends (fun _ e => ⟨e, rfl⟩)
    fun payload verified s mismatched left stage => ?_
  cases sole payload verified
  cases stage with
  | refused absent e => exact ⟨e, rfl⟩
  | clears read held rejected e => exact fun s' _ => ⟨e s', rfl⟩
  | stores read held accepted answer answers =>
      exact (mismatched.rejects read held accepted).elim

end OneToken

/-! ## After a run -/

section Runs

variable {lib : Libs} {host : Host} {token : String} {db : Db} {id : Nat}

theorem Db.Member.unique {first second : Nat} (left : db.Member id first)
    (right : db.Member id second) : first = second := by
  rcases left with ⟨u, uMem, uKey, rfl⟩
  rcases right with ⟨v, vMem, vKey, rfl⟩
  rw [db.users.eq_of_key uMem vMem (uKey.trans vKey.symm)]

/-- The hashes after a run are those of tokens signed for members. -/
theorem faithful_run (laws : SessionLibs lib) (requests : List Request)
    (id : Nat) :
    Faithful lib (World.empty.run lib requests).db id
      (World.empty.run lib requests).db := by
  have remembers := Remembers.run laws requests
  refine ⟨.refl _, fun hash held => ?_⟩
  rw [← Trace.world_run] at held ⊢
  rcases remembers.stored id hash held with ⟨token, salt, latest, rfl⟩
  rcases latestToken_mem latest with ⟨call, result, member, own, rfl⟩
  rcases remembers.signed call result member with ⟨now, signed⟩
  have known := remembers.sound.callers _
    (remembers.issued call result member)
  rw [signed]
  exact ⟨result.user, now, salt, own, own ▸ known, rfl⟩

/-- A token signed for a member begins like all tokens of the user. -/
theorem genuine_sign (laws : SessionLibs lib) {payload : JwtPayload}
    (known : db.Member payload.userId payload.orgId) (now : Instant) :
    Genuine lib db payload.userId (lib.jwtSign .refresh payload now) := by
  intro other later own member
  exact laws.first72_sign own.symm
    (known.unique (own ▸ member)) now later

/-- A token that matched a hash of the user begins like all their tokens. -/
theorem Genuine.of_accepted (laws : SessionLibs lib)
    (own : ReadsAs lib host token id) {hash : String}
    (signed : SignedFor lib db id hash)
    (accepted : lib.bcryptCompare token hash = true) :
    Genuine lib db id token := by
  rcases own with ⟨read, verified, rfl⟩
  rcases signed with ⟨payload, now, salt, same, known, rfl⟩
  have begins := laws.separates _ _ _ (laws.plain _ _ _ verified)
    (laws.zeroFree_sign payload now) accepted
  intro other later own member
  rw [begins]
  exact genuine_sign laws (same ▸ known) now other later
    (own.trans same.symm) (same ▸ member)

/-- A user without a token has none that matches. -/
theorem Db.Revoked.mismatched (revoked : db.Revoked id) :
    Mismatched lib token id db :=
  fun hash held => (revoked hash held).elim

end Runs

/-- No token of the user is stored, and no refresh of the user succeeds. -/
structure RevocationStands (lib : Libs) (id : Nat) (db : Db) : Prop where
  revoked : db.Revoked id
  refused : ∀ host token, ReadsAs lib host token id →
    ∃ e, ((handlePublic lib host (.refresh token)).exec db).1 = .error e

theorem revocationStands_iff {lib : Libs} {id : Nat} {db : Db} :
    RevocationStands lib id db ↔ db.Revoked id := by
  constructor
  · exact RevocationStands.revoked
  · intro revoked
    refine ⟨revoked, fun host token own => ?_⟩
    have sole : ∀ payload,
        lib.jwtVerify .refresh token host.now = some payload →
          payload.userId = id := by
      rcases own with ⟨payload, verified, rfl⟩
      intro other again
      cases verified.symm.trans again
      rfl
    exact (refresh_refused sole).exec (refresh_mismatched sole)
      revoked.mismatched

/-- What verifies was signed by the service, for a payload in circulation. -/
def Refreshes.Circulating {ι : Type} (refreshes : Refreshes ι) (lib : Libs)
    (world : World) : Prop :=
  ∀ i payload, lib.jwtVerify .refresh (refreshes.token i)
      (refreshes.host i).now = some payload →
    payload ∈ world.issued ∧
      ∃ earlier, refreshes.token i = lib.jwtSign .refresh payload earlier

/-- No two requests of the pool have succeeded. -/
def AtMostOne {ι : Type} (last : Pool Db Thrown Response ι) : Prop :=
  ∀ i j, (last.threads i).succeeded → (last.threads j).succeeded → i = j

section Outcomes

variable {ι : Type} [DecidableEq ι] {lib : Libs} {refreshes : Refreshes ι}

theorem stands_iff_uncrossed (laws : SessionLibs lib)
    (requests : List Request)
    (circulating : refreshes.Circulating lib (World.empty.run lib requests))
    {revocation : Revocation} {schedule : List (Turn ι)}
    {last : Pool Db Thrown Response (Turn ι)}
    (may : revocation.Authorised (World.empty.run lib requests).db)
    (ran : (refreshes.poolWith revocation lib
      (World.empty.run lib requests).db).run schedule = some last)
    (finished : last.Finished) :
    last.state.Revoked revocation.userId ↔
      Uncrossed lib refreshes revocation schedule := by
  have genuine : ∀ i, refreshes.OfUser lib revocation.userId i →
      Genuine lib (World.empty.run lib requests).db revocation.userId
        (refreshes.token i) := by
    rintro i ⟨payload, verified, own⟩
    rcases circulating i payload verified with ⟨issued, earlier, signed⟩
    have known := (World.sound_run lib requests).callers payload issued
    rw [signed, ← own]
    exact genuine_sign laws known earlier
  constructor
  · rintro revoked pre post rfl checked i own once scheduled
    rcases holds_of_crossed laws may (faithful_run laws requests _) genuine
      ran checked own once scheduled with ⟨hash, held⟩
    exact revoked hash held
  · exact revoked_of_uncrossed may ran finished

omit [DecidableEq ι] in
theorem pool_threads {token : String} (same : ∀ i, refreshes.token i = token)
    (db : Db) (i : ι) :
    (refreshes.pool lib db).threads i =
      handlePublic lib (refreshes.host i) (.refresh token) := by
  rw [← same i]
  rfl

/-- With a token that matches no hash of its user every refresh fails. -/
theorem fails_of_mismatched {db : Db} {token : String} {id : Nat}
    (same : ∀ i, refreshes.token i = token)
    (sole : ∀ i payload, lib.jwtVerify .refresh token
      (refreshes.host i).now = some payload → payload.userId = id)
    (mismatched : Mismatched lib token id db) {schedule : List ι}
    {last : Pool Db Thrown Response ι}
    (ran : (refreshes.pool lib db).run schedule = some last) {i : ι}
    {result : Except Thrown Response}
    (ended : last.threads i = done result) : ∃ e, result = .error e := by
  have safe : ∀ j, ((refreshes.pool lib db).threads j).Safe
      (Mismatched lib token id) (fun _ _ => True) := by
    intro j
    rw [pool_threads same]
    exact refresh_mismatched (sole j)
  have ends : ∀ j, ((refreshes.pool lib db).threads j).Ends
      (Mismatched lib token id) (fun result => ∃ e, result = .error e) := by
    intro j
    rw [pool_threads same]
    exact refresh_refused (sole j)
  exact Pool.run_ends ran mismatched safe ends ended

/-- With a token that matches its user's tokens every refresh succeeds. -/
theorem succeeds_of_genuine (laws : SessionLibs lib) {db : Db}
    {token : String} {id : Nat} (same : ∀ i, refreshes.token i = token)
    (genuine : Genuine lib db id token) (faithful : Faithful lib db id db)
    (held : ∃ hash, db.Holds id hash) {schedule : List ι}
    {last : Pool Db Thrown Response ι}
    (ran : (refreshes.pool lib db).run schedule = some last) {i : ι}
    {result : Except Thrown Response}
    (ended : last.threads i = done result)
    (own : ReadsAs lib (refreshes.host i) token id) :
    ∃ response, result = .ok response := by
  have safe : ∀ j, ((refreshes.pool lib db).threads j).Safe
      (fun s => Faithful lib db id s ∧ ∃ hash, s.Holds id hash)
      (KeepsHolding id) := by
    intro j
    rw [pool_threads same]
    exact (refresh_faithful laws fun _ => genuine).assume_and
      fun _ _ held keeps => keeps held
  have ends : ∀ j, ((refreshes.pool lib db).threads j).Ends
      (fun s => Faithful lib db id s ∧ ∃ hash, s.Holds id hash)
      (fun result => ReadsAs lib (refreshes.host j) token id →
        ∃ response, result = .ok response) := by
    intro j
    rw [pool_threads same]
    by_cases own : ReadsAs lib (refreshes.host j) token id
    · exact (refresh_succeeds laws own genuine).mono
        fun _ succeeded _ => succeeded
    · exact (Ends.trivially _).mono fun _ _ again => (own again).elim
  exact Pool.run_ends ran ⟨faithful, held⟩ safe ends ended own

/-- With one token, every refresh succeeds that would succeed alone. -/
theorem succeeded_iff_opensAt (laws : SessionLibs lib)
    (requests : List Request) {token : String}
    (same : ∀ i, refreshes.token i = token) {schedule : List ι}
    {last : Pool Db Thrown Response ι}
    (ran : (refreshes.pool lib (World.empty.run lib requests).db).run
      schedule = some last)
    (finished : last.Finished) (i : ι) :
    (last.threads i).succeeded ↔
      OpensAt lib (refreshes.host i) (World.empty.run lib requests).db
        token := by
  rcases finished i with ⟨result, ended⟩
  constructor
  · intro succeeded
    rcases succeeded_iff.mp succeeded with ⟨response, answered⟩
    cases ended.symm.trans answered
    by_contra shut
    cases verified : lib.jwtVerify .refresh token (refreshes.host i).now with
    | none =>
        have refused : ((refreshes.pool lib
            (World.empty.run lib requests).db).threads i).Ends
              (fun _ => True) (fun result => ∃ e, result = .error e) := by
          rw [pool_threads same, handle_refresh_unread verified]
          exact ⟨_, rfl⟩
        rcases Pool.ends_of_thread ran refused ended with ⟨e, failed⟩
        cases failed
    | some payload =>
        have sole (j : ι) (other : JwtPayload)
            (again : lib.jwtVerify .refresh token (refreshes.host j).now =
              some other) : other.userId = payload.userId := by
          rw [laws.reads token _ _ other payload again verified]
        have mismatched : Mismatched lib token payload.userId
            (World.empty.run lib requests).db := by
          rintro hash ⟨u, member, key, held⟩
          by_contra accepted
          exact shut ⟨u, hash, ⟨⟨payload, verified, key⟩, member, held⟩,
            by simpa using accepted⟩
        rcases fails_of_mismatched same sole mismatched ran ended with
          ⟨e, failed⟩
        cases failed
  · rintro ⟨user, stored, presents, accepted⟩
    rcases presents.verified with ⟨payload, verified, key⟩
    have own : ReadsAs lib (refreshes.host i) token user.id :=
      ⟨payload, verified, key.symm⟩
    have held : (World.empty.run lib requests).db.Holds user.id stored :=
      ⟨user, presents.member, rfl, presents.held⟩
    have faithful := faithful_run laws requests user.id
    have genuine := Genuine.of_accepted laws own
      (faithful.signed stored held) accepted
    rcases succeeds_of_genuine laws same genuine faithful ⟨stored, held⟩ ran
      ended own with ⟨response, rfl⟩
    exact succeeded_iff.mpr ⟨response, ended⟩

end Outcomes

/--
A revocation stands when it crosses no refresh of its user, and only then as
far as the presented tokens were signed by the service; and of refreshes with
one token at most one succeeds exactly when at most one would succeed alone.
-/
theorem concurrent_refreshes_iff {ι : Type} [DecidableEq ι] (lib : Libs)
    (laws : SessionLibs lib) (refreshes : Refreshes ι) :
    (∀ db revocation schedule last, revocation.Authorised db →
      (refreshes.poolWith revocation lib db).run schedule = some last →
      last.Finished → Uncrossed lib refreshes revocation schedule →
        RevocationStands lib revocation.userId last.state) ∧
    (∀ requests revocation schedule last,
      revocation.Authorised (World.empty.run lib requests).db →
      (refreshes.poolWith revocation lib
        (World.empty.run lib requests).db).run schedule = some last →
      last.Finished →
      refreshes.Circulating lib (World.empty.run lib requests) →
        (RevocationStands lib revocation.userId last.state ↔
          Uncrossed lib refreshes revocation schedule)) ∧
    (∀ requests token schedule last, (∀ i, refreshes.token i = token) →
      (refreshes.pool lib (World.empty.run lib requests).db).run schedule =
        some last → last.Finished →
        (AtMostOne last ↔ ∀ i j,
          OpensAt lib (refreshes.host i) (World.empty.run lib requests).db
            token →
          OpensAt lib (refreshes.host j) (World.empty.run lib requests).db
            token → i = j)) := by
  refine ⟨?_, ?_, ?_⟩
  · intro db revocation schedule last may ran finished uncrossed
    exact revocationStands_iff.mpr
      (revoked_of_uncrossed may ran finished uncrossed)
  · intro requests revocation schedule last may ran finished circulating
    exact revocationStands_iff.trans
      (stands_iff_uncrossed laws requests circulating may ran finished)
  · intro requests token schedule last same ran finished
    simp only [AtMostOne,
      succeeded_iff_opensAt laws requests same ran finished]

/-! ## Ada's token presented twice -/

/-- A week and a minute after `plainHost`; its tokens have expired. -/
def expiredHost : Host := { plainHost with now := plainHost.now + 604860000 }

/-- Ada's first token, in time and too late. -/
def timelyAndLate : Refreshes Bool where
  host inTime := if inTime then laterHost else expiredHost
  token _ := firstToken

/-- Ada's first token, twice in time. -/
def twiceInTime : Refreshes Bool where
  host _ := laterHost
  token _ := firstToken

/-- The organisation of an administrator. -/
def adaRun : List Request :=
  [.register "acme" "ada@acme"]

/-- All parties of a pool with a revocation have answered. -/
def Answered (last : Pool Db Thrown Response (Turn Bool)) : Prop :=
  ((last.threads .revocation).result?).isSome ∧
    ∀ i, ((last.threads (.refresh i)).result?).isSome

instance (last : Pool Db Thrown Response (Turn Bool)) :
    Decidable (Answered last) :=
  inferInstanceAs (Decidable (_ ∧ _))

theorem Answered.finished {last : Pool Db Thrown Response (Turn Bool)}
    (answered : Answered last) : last.Finished := by
  refine finished_of_answers fun j => ?_
  cases j with
  | revocation => exact answered.1
  | refresh i => exact answered.2 i

theorem firstToken_late :
    tokenLibs.jwtVerify .refresh firstToken expiredHost.now = none := by
  decide +kernel

/-- Ada's token was signed for her when she registered. -/
theorem timelyAndLate_circulating :
    timelyAndLate.Circulating tokenLibs (World.empty.run tokenLibs adaRun) := by
  intro i payload verified
  cases i with
  | false => cases firstToken_late.symm.trans verified
  | true =>
      have read : tokenLibs.jwtVerify .refresh firstToken laterHost.now =
          some ada := by
        decide +kernel
      cases read.symm.trans verified
      exact ⟨by decide +kernel, plainHost.now, rfl⟩

/--
Ada refreshes before her logout and around it, and one of two tokens is too
late.
-/
theorem concurrent_refreshes_iff_timely :
    (∃ last, (timelyAndLate.poolWith (.logout laterHost ada) tokenLibs
        (World.empty.run tokenLibs adaRun).db).run
          [.refresh true, .refresh true, .revocation] = some last ∧
      RevocationStands tokenLibs 1 last.state) ∧
    (∃ last, (timelyAndLate.poolWith (.logout laterHost ada) tokenLibs
        (World.empty.run tokenLibs adaRun).db).run
          [.refresh true, .revocation, .refresh true] = some last ∧
      (RevocationStands tokenLibs 1 last.state ↔
        Uncrossed tokenLibs timelyAndLate (.logout laterHost ada)
          [.refresh true, .revocation, .refresh true])) ∧
    ∃ last, (timelyAndLate.pool tokenLibs
        (World.empty.run tokenLibs adaRun).db).run [true, true] = some last ∧
      AtMostOne last := by
  have law := concurrent_refreshes_iff tokenLibs sessionLibs_tokenLibs
    timelyAndLate
  refine ⟨?_, ?_, ?_⟩
  · have ended : ∃ last, (timelyAndLate.poolWith (.logout laterHost ada)
        tokenLibs (World.empty.run tokenLibs adaRun).db).run
          [.refresh true, .refresh true, .revocation] = some last ∧
        Answered last :=
      Pool.exists_of_any (by decide +kernel)
    rcases ended with ⟨last, ran, answered⟩
    refine ⟨last, ran, law.1 _ (.logout laterHost ada) _ last trivial ran
      answered.finished ?_⟩
    have before : Turn.revocation ∉ [.refresh true, .refresh true] := by
      decide
    exact uncrossed_of_last tokenLibs timelyAndLate _ before
  · have ended : ∃ last, (timelyAndLate.poolWith (.logout laterHost ada)
        tokenLibs (World.empty.run tokenLibs adaRun).db).run
          [.refresh true, .revocation, .refresh true] = some last ∧
        Answered last :=
      Pool.exists_of_any (by decide +kernel)
    rcases ended with ⟨last, ran, answered⟩
    exact ⟨last, ran, law.2.1 adaRun (.logout laterHost ada) _ last trivial ran
      answered.finished timelyAndLate_circulating⟩
  · have ended : ∃ last, (timelyAndLate.pool tokenLibs
        (World.empty.run tokenLibs adaRun).db).run [true, true] = some last ∧
        ∀ i, ((last.threads i).result?).isSome :=
      Pool.exists_of_any (by decide +kernel)
    rcases ended with ⟨last, ran, answered⟩
    refine ⟨last, ran, (law.2.2 adaRun firstToken _ last (fun _ => rfl) ran
      (finished_of_answers answered)).mpr ?_⟩
    have inTime : ∀ i, OpensAt tokenLibs (timelyAndLate.host i)
        (World.empty.run tokenLibs adaRun).db firstToken → i = true := by
      rintro i ⟨user, stored, presents, _⟩
      cases i with
      | true => rfl
      | false =>
          rcases presents.verified with ⟨payload, verified, _⟩
          cases firstToken_late.symm.trans verified
    intro i j first second
    rw [inTime i first, inTime j second]

/--
A refresh around Ada's logout stores a new token, and two refreshes with one
token both succeed.
-/
theorem refresh_undoes_logout :
    (∃ last, (timelyAndLate.poolWith (.logout laterHost ada) tokenLibs
        (World.empty.run tokenLibs adaRun).db).run
          [.refresh true, .revocation, .refresh true] = some last ∧
      last.Finished ∧ ¬ RevocationStands tokenLibs 1 last.state) ∧
    ∃ last, (twiceInTime.pool tokenLibs
        (World.empty.run tokenLibs adaRun).db).run
          [true, false, true, false] = some last ∧
      last.Finished ∧ ¬ AtMostOne last := by
  constructor
  · have ended : ∃ last, (timelyAndLate.poolWith (.logout laterHost ada)
        tokenLibs (World.empty.run tokenLibs adaRun).db).run
          [.refresh true, .revocation, .refresh true] = some last ∧
        (Answered last ∧ ∃ u ∈ last.state.users.rows,
          u.id = 1 ∧ u.refreshToken.isSome) :=
      Pool.exists_of_any (by decide +kernel)
    rcases ended with ⟨last, ran, answered, u, member, key, some⟩
    refine ⟨last, ran, answered.finished, fun stands => ?_⟩
    rcases Option.isSome_iff_exists.mp some with ⟨hash, held⟩
    exact stands.revoked hash ⟨u, member, key, held⟩
  · have ended : ∃ last, (twiceInTime.pool tokenLibs
        (World.empty.run tokenLibs adaRun).db).run
          [true, false, true, false] = some last ∧
        ∀ i, (last.threads i).succeeded :=
      Pool.exists_of_any (by decide +kernel)
    rcases ended with ⟨last, ran, succeeded⟩
    refine ⟨last, ran, fun i => ?_, fun most => ?_⟩
    · rcases succeeded_iff.mp (succeeded i) with ⟨response, ended⟩
      exact ⟨_, ended⟩
    · cases most true false (succeeded true) (succeeded false)

end TmsApi
