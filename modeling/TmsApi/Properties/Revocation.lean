import TmsApi.Refinement.Sessions

/-!
# Revocation lasts until the next login

A logout and a deactivation clear the stored token of a user, a refresh needs
one, and a login, which stores one again, is refused to inactive users.  What
has to hold in between is that no inactive user has a stored token.  An update
of the status column alone breaks this: the runs below are those without such
an update of a user who has a session.
-/

namespace TmsApi

open TmsApi.Core
open TmsApi.Core.Program

/-! ## What is revoked -/

/-- The user was revoked and has not logged in since. -/
def Revoked (id : Nat) : List Event → Prop
  | [] => False
  | .revoked userId :: earlier => userId = id ∨ Revoked id earlier
  | .opened (.login _) result :: earlier =>
      result.user.userId ≠ id ∧ Revoked id earlier
  | .opened (.register _) _ :: earlier => Revoked id earlier
  | .opened (.refresh _) _ :: earlier => Revoked id earlier

instance decidableRevoked (id : Nat) : DecidablePred (Revoked id)
  | [] => .isFalse False.elim
  | .revoked userId :: earlier =>
      have := decidableRevoked id earlier
      inferInstanceAs (Decidable (userId = id ∨ Revoked id earlier))
  | .opened (.login _) result :: earlier =>
      have := decidableRevoked id earlier
      inferInstanceAs
        (Decidable (result.user.userId ≠ id ∧ Revoked id earlier))
  | .opened (.register _) _ :: earlier => decidableRevoked id earlier
  | .opened (.refresh _) _ :: earlier => decidableRevoked id earlier

theorem revoked_append {id : Nat} {later log : List Event}
    (revocations : ∀ e ∈ later, ∃ userId, e = .revoked userId)
    (revoked : Revoked id (later ++ log)) :
    .revoked id ∈ later ∨ Revoked id log := by
  induction later with
  | nil => exact .inr revoked
  | cons e later ih =>
      rcases revocations e List.mem_cons_self with ⟨userId, rfl⟩
      rcases revoked with rfl | revoked
      · exact .inl List.mem_cons_self
      · have rest := ih
          (fun other member =>
            revocations other (List.mem_cons_of_mem _ member)) revoked
        exact rest.imp_left (List.mem_cons_of_mem _)

/-- An update that makes a user inactive and leaves it its session. -/
inductive LeavesSession (world : World) : Request → Prop where
  | updated (host : Host) {caller : JwtPayload} {user : User}
      {dto : UpdateUserDto} (signed : caller ∈ world.issued)
      (role : Managing caller) (accepted : Schemas.updateUserSchema dto = [])
      (may : UpdatesUser caller world.db user dto)
      (deactivates : dto.status = some .inactive)
      (opened : user.refreshToken ≠ none) :
      LeavesSession world
        (.authenticated host caller (.updateUser user.id dto))

/-! ## Inactive users have no session -/

/-- No inactive user has a stored token. -/
def Db.Settled (db : Db) : Prop :=
  ∀ u ∈ db.users.rows, u.status = .inactive → u.refreshToken = none

section

variable {lib : Libs} {host : Host} {caller : JwtPayload} {call : Call}
  {db after : Db}

/-- The rows an update writes decide. -/
theorem Db.Settled.setUser (settled : db.Settled) {now : Instant} {id : Nat}
    {data : UserUpdate}
    (written : ∀ u ∈ db.users.rows, u.id = id →
      (data.apply now u).status = .inactive →
        (data.apply now u).refreshToken = none) :
    (db.setUser now id data).Settled := by
  intro u member inactive
  rcases Db.mem_setUser.mp member with ⟨old, oldMem, rfl⟩
  by_cases own : old.id = id
  · rw [if_pos own] at inactive ⊢
    exact written old oldMem own inactive
  · rw [if_neg own] at inactive ⊢
    exact settled old oldMem inactive

theorem Db.Settled.clear (settled : db.Settled) {now : Instant} {id : Nat}
    {data : UserUpdate} (clears : data.refreshToken = some none) :
    (db.setUser now id data).Settled :=
  settled.setUser fun u _ _ _ => by simp [UserUpdate.apply, clears]

/-- A new row is an active one. -/
theorem Db.Settled.insert (settled : db.Settled) {now : Instant}
    (data : UserData)
    (users : after.users = db.users.insert (data.row now)) :
    after.Settled := by
  intro u member inactive
  rw [users] at member
  rcases Table.mem_insert.mp member with old | rfl
  · exact settled u old inactive
  · cases inactive

theorem Db.Settled.closed (settled : db.Settled) {u : User}
    (member : u ∈ db.users.rows) (inactive : u.status = .inactive)
    (hash : String) : ¬ db.Holds u.id hash := by
  rintro ⟨v, other, key, held⟩
  cases db.users.eq_of_key other member key
  rw [settled u member inactive] at held
  cases held

theorem TeamChange.settled {start : Db}
    (change : TeamChange lib host caller call start db after)
    (closes : ∀ user dto, call = .updateUser user.id dto →
      Managing caller → UpdatesUser caller start user dto →
        dto.status = some .inactive → user.refreshToken = none)
    (settled : db.Settled) : after.Settled := by
  cases change with
  | loggedOut made known => exact settled.clear rfl
  | userCreated dto made begins role may => exact settled.insert _ rfl
  | userUpdated user dto made begins role may =>
      subst begins
      rw [Db.Settled, Db.reviseUser_users]
      refine settled.setUser fun u member key inactive => ?_
      cases db.users.eq_of_key member may.member key
      cases status : dto.status with
      | none =>
          refine settled user may.member ?_
          simpa [UserUpdate.apply, UpdateUserDto.columns, status] using inactive
      | some written =>
          cases written with
          | active =>
              simp [UserUpdate.apply, UpdateUserDto.columns, status] at inactive
          | inactive => exact closes user dto made role may status
  | deactivated id made begins role manages => exact settled.clear rfl
  | _ => exact settled

theorem Admits.settled {user : User} {before : Db} {call : PublicCall}
    (admits : Admits lib host db call user before) (settled : db.Settled) :
    before.Settled ∧ user.status ≠ .inactive := by
  cases admits with
  | registered dto wrote =>
      rcases (createOrganisation_after wrote).2 with ⟨data, rfl, users⟩
      exact ⟨settled.insert data users, fun inactive => by cases inactive⟩
  | loggedIn dto member active => exact ⟨settled, active⟩
  | refreshed token presents accepted =>
      refine ⟨settled, fun inactive => ?_⟩
      have closed := settled user presents.member inactive
      rw [presents.held] at closed
      cases closed

/-- The admitted user was not inactive before. -/
theorem Admits.active {user u : User} {before : Db} {call : PublicCall}
    (admits : Admits lib host db call user before) (settled : db.Settled)
    (member : u ∈ db.users.rows) (key : u.id = user.id) :
    u.status ≠ .inactive := by
  have status := (admits.settled settled).2
  cases admits with
  | registered dto wrote =>
      rcases (createOrganisation_after wrote).2 with ⟨data, rfl, _⟩
      exact (db.users.not_hasKey_next ⟨u, member, key⟩).elim
  | loggedIn dto known active =>
      cases db.users.eq_of_key member known key
      exact status
  | refreshed token presents accepted =>
      cases db.users.eq_of_key member presents.member key
      exact status

/-- An answered logout leaves the caller without a token. -/
theorem logout_clears :
    wp (handle lib host caller .logout)
      (fun answer after => ∀ response, answer = .ok response →
        after.users.HasKey caller.userId ∧
          ∀ hash, ¬ after.Holds caller.userId hash) db := by
  simp only [handle, logoutUser, wp_bind, wp_statement, andThen_ok,
    andThen_error, pure_eq, wp_done, reduceCtorEq, false_implies,
    implies_true, true_and]
  intro row after wrote response _
  rcases userUpdate_eq_ok.mp wrote with ⟨_, ⟨u, member, key, _⟩, rfl⟩
  refine ⟨⟨_, Db.mem_setUser.mpr ⟨u, member, rfl⟩, ?_⟩, fun hash held => ?_⟩
  · rw [if_pos key]
    exact key
  · exact (Db.holds_clear rfl held).1 rfl

/-- An answered deactivation leaves an inactive user. -/
theorem deactivateUser_deactivates (id : Nat) :
    wp (handle lib host caller (.deactivateUser id))
      (fun answer after => ∀ response, answer = .ok response →
        ∃ u ∈ after.users.rows, u.id = id ∧ u.status = .inactive) db := by
  simp only [handle, requireRole, deactivateUser, wp_bind, wp_throwIf,
    wp_query, wp_orThrow, andThen_ok, andThen_error, reduceCtorEq,
    false_implies, implies_true, true_and]
  intro _ user found
  rcases Table.find?_spec found with ⟨member, rfl, org⟩
  refine wp_assertCanManageUser (fun _ _ response same => by cases same)
    fun _ => ?_
  simp only [wp_bind, wp_statement, andThen_ok, andThen_error, pure_eq,
    wp_done, reduceCtorEq, false_implies, implies_true, true_and]
  intro row after wrote response _
  rcases userUpdate_eq_ok.mp wrote with ⟨_, _, rfl⟩
  exact ⟨_, Db.mem_setUser.mpr ⟨user, member, (if_pos rfl).symm⟩, rfl, rfl⟩

end

/-- An update with a rejected body writes nothing. -/
theorem World.updateUser_rejected {world : World} {lib : Libs} {host : Host}
    {caller : JwtPayload} {id : Nat} {dto : UpdateUserDto}
    (rejected : Schemas.updateUserSchema dto ≠ []) :
    (world.step lib (.authenticated host caller (.updateUser id dto))).db =
      world.db := by
  have unchanged : wp (handle lib host caller (.updateUser id dto))
      (fun _ after => after = world.db) world.db := by
    simp only [handle, requireRole, validate, wp_bind, wp_throwIf, andThen_ok,
      andThen_error, implies_true, true_and]
    exact fun _ accepted => (accepted rejected).elim
  by_cases signed : caller ∈ world.issued
  · simp only [step, serve, if_pos signed]
    exact unchanged
  · simp only [step, serve, if_neg signed]

/-- An answer of an authenticated request is what its route leaves. -/
theorem World.serve_answered {world : World} {lib : Libs} {host : Host}
    {caller : JwtPayload} {call : Call} {response : Response}
    {fact : Db → Prop}
    (served : wp (handle lib host caller call)
      (fun answer after => ∀ response, answer = .ok response → fact after)
      world.db)
    (answered : (world.serve lib (.authenticated host caller call)).1 =
      .ok response) :
    fact (world.step lib (.authenticated host caller call)).db := by
  by_cases signed : caller ∈ world.issued
  · simp only [serve, if_pos signed] at answered
    simp only [step, serve, if_pos signed]
    exact served response answered
  · simp only [serve, if_neg signed] at answered
    cases answered

theorem World.step_hasKey {world : World} (lib : Libs) (request : Request)
    {id : Nat} (known : world.db.users.HasKey id) :
    (world.step lib request).db.users.HasKey id := by
  rcases known with ⟨u, member, rfl⟩
  exact ((world.step_grows lib request).member u.id u.organisationId
    ⟨u, member, rfl, rfl⟩).hasKey

/-! ## The invariant of a run -/

/-- Revoked and inactive users have no session. -/
structure Shut (trace : Trace) : Prop where
  sound : trace.world.Sound
  settled : trace.world.db.Settled
  known : ∀ id, Revoked id trace.log → trace.world.db.users.HasKey id
  closed : ∀ id, Revoked id trace.log →
    ∀ hash, ¬ trace.world.db.Holds id hash

namespace Shut

variable {lib : Libs} {host : Host} {trace : Trace}

theorem empty : Shut .empty where
  sound := World.sound_empty
  settled := by simp [Db.Settled, Trace.empty, World.empty, Db.empty]
  known := fun _ revoked => revoked.elim
  closed := fun _ revoked => revoked.elim

/-- A user is admitted by a login, or was not revoked. -/
theorem revoked_opened (shut : Shut trace) {call : PublicCall} {user : User}
    {before : Db} (admits : Admits lib host trace.world.db call user before)
    {id : Nat}
    (revoked : Revoked id
      (.opened call (session lib host user) :: trace.log)) :
    id ≠ user.id ∧ Revoked id trace.log := by
  cases admits with
  | registered dto wrote =>
      refine ⟨?_, revoked⟩
      rintro rfl
      rcases (createOrganisation_after wrote).2 with ⟨data, rfl, _⟩
      exact trace.world.db.users.not_hasKey_next (shut.known _ revoked)
  | loggedIn dto member active =>
      exact ⟨fun own => revoked.1 own.symm, revoked.2⟩
  | refreshed token presents accepted =>
      refine ⟨?_, revoked⟩
      rintro rfl
      exact shut.closed _ revoked _
        ⟨user, presents.member, rfl, presents.held⟩

theorem step_anonymous (shut : Shut trace) (host : Host)
    (call : PublicCall) : Shut (trace.step lib (.anonymous host call)) := by
  have sound := shut.sound.step lib (.anonymous host call)
  have grows := fun id (known : trace.world.db.users.HasKey id) =>
    trace.world.step_hasKey lib (.anonymous host call) known
  rw [← Trace.world_step] at sound grows
  rcases trace.step_anonymous lib host call with
    ⟨answer, after, served, made⟩
  rw [made] at sound grows ⊢
  cases served with
  | admitted admits =>
      rename_i user before
      have settles := admits.settled shut.settled
      refine ⟨sound, ?_, fun id revoked => ?_, fun id revoked hash held => ?_⟩
      · refine settles.1.setUser fun u member key inactive => ?_
        cases before.users.eq_of_key member admits.member key
        exact (settles.2 inactive).elim
      · exact grows id (shut.known id (shut.revoked_opened admits revoked).2)
      · rcases shut.revoked_opened admits revoked with ⟨other, old⟩
        rcases Db.holds_storeSession held with ⟨own, _⟩ | ⟨_, held⟩
        · exact other own
        · exact shut.closed id old hash (admits.holds held)
  | wiped _ made presents rejected error =>
      exact ⟨sound, shut.settled.clear rfl,
        fun id revoked => grows id (shut.known id revoked),
        fun id revoked hash held =>
          shut.closed id revoked hash (Db.holds_clear rfl held).2⟩
  | refused absent error =>
      exact ⟨sound, shut.settled, shut.known, shut.closed⟩

/-- Without an update that leaves a session, inactive users stay without. -/
theorem settled_step (shut : Shut trace) (lib : Libs) {caller : JwtPayload}
    {call : Call}
    (clean : ¬ LeavesSession trace.world (.authenticated host caller call)) :
    (trace.world.step lib
      (.authenticated host caller call)).db.Settled := by
  by_cases rejected : ∃ id dto, call = .updateUser id dto ∧
      Schemas.updateUserSchema dto ≠ []
  · rcases rejected with ⟨id, dto, rfl, rejected⟩
    rw [World.updateUser_rejected rejected]
    exact shut.settled
  refine World.team_keeps _ shut.sound.integrity shut.settled ?_ ?_ ?_
  · intro after same
    rw [Db.Settled, same.users]
    exact shut.settled
  · rintro host' caller' call' made signed db after _ settled change
    cases made
    refine change.settled (fun user dto called role may inactive => ?_) settled
    by_contra opened
    have accepted : Schemas.updateUserSchema dto = [] := by
      by_contra issues
      exact rejected ⟨user.id, dto, called, issues⟩
    subst called
    exact clean (.updated host signed role accepted may inactive opened)
  · intro host' call' made
    cases made

/-- A user a request revokes has no session after it. -/
theorem revokes {caller : JwtPayload} {call : Call}
    (settled : (trace.world.step lib
      (.authenticated host caller call)).db.Settled) {id : Nat}
    (event : .revoked id ∈ events (.authenticated host caller call)
      (trace.world.serve lib (.authenticated host caller call)).1
      (trace.world.step lib (.authenticated host caller call)).db) :
    (trace.world.step lib
        (.authenticated host caller call)).db.users.HasKey id ∧
      ∀ hash, ¬ (trace.world.step lib
        (.authenticated host caller call)).db.Holds id hash := by
  have inactive (left : ∃ u ∈ (trace.world.step lib
      (.authenticated host caller call)).db.users.rows,
        u.id = id ∧ u.status = .inactive) :
      (trace.world.step lib
          (.authenticated host caller call)).db.users.HasKey id ∧
        ∀ hash, ¬ (trace.world.step lib
          (.authenticated host caller call)).db.Holds id hash := by
    rcases left with ⟨u, member, rfl, status⟩
    exact ⟨⟨u, member, rfl⟩, settled.closed member status⟩
  rcases Trace.events_revoked event with
    ⟨rfl, rfl, response, answered⟩ | ⟨rfl, response, answered⟩ | left
  · exact World.serve_answered logout_clears answered
  · exact inactive
      (World.serve_answered (deactivateUser_deactivates id) answered)
  · exact inactive left

theorem step_authenticated (shut : Shut trace) {caller : JwtPayload}
    {call : Call}
    (clean : ¬ LeavesSession trace.world (.authenticated host caller call)) :
    Shut (trace.step lib (.authenticated host caller call)) := by
  have settled := shut.settled_step lib clean
  have old {id : Nat} (revoked : Revoked id
      (trace.step lib (.authenticated host caller call)).log) :=
    revoked_append (fun _ => Trace.events_authenticated) revoked
  have sound := shut.sound.step lib (.authenticated host caller call)
  refine ⟨sound, settled, fun id revoked => ?_, fun id revoked => ?_⟩
  · rcases old revoked with event | revoked
    · exact (revokes settled event).1
    · exact trace.world.step_hasKey lib (.authenticated host caller call)
        (shut.known id revoked)
  · rcases old revoked with event | revoked
    · exact (revokes settled event).2
    · exact fun hash held => shut.closed id revoked hash
        (World.holds_authenticated shut.sound.integrity held)

theorem run {requests : List Request}
    (met : World.Along (fun world request => ¬ LeavesSession world request)
      lib .empty requests) : Shut (Trace.run lib requests) := by
  refine Trace.run_along (fun trace request shut clean => ?_) empty met
  cases request with
  | anonymous host call => exact shut.step_anonymous host call
  | authenticated host caller call => exact shut.step_authenticated clean

end Shut

/--
Along every run without an update that deactivates a user and leaves it its
session, nobody who is inactive is given tokens, and a refresh gives none to
a user who was revoked and has not logged in since.
-/
theorem revocation_final {lib : Libs} {requests : List Request}
    (met : World.Along (fun world request => ¬ LeavesSession world request)
      lib .empty requests) (host : Host) (call : PublicCall)
    (result : AuthResult) :
    let trace := Trace.run lib requests
    (trace.world.serve lib (.anonymous host call)).1 =
        .ok (.session result) →
      (∀ token, call = .refresh token →
          ¬ Revoked result.user.userId trace.log) ∧
        ∀ u ∈ trace.world.db.users.rows, u.id = result.user.userId →
          u.status ≠ .inactive := by
  intro trace answered
  have shut : Shut trace := Shut.run met
  have served : SessionServed lib host trace.world.db call
      (trace.world.serve lib (.anonymous host call)).1
      (trace.world.serve lib (.anonymous host call)).2.db :=
    handlePublic_served call
  rw [answered] at served
  generalize (trace.world.serve lib (.anonymous host call)).2.db = after
    at served
  cases served with
  | admitted admits =>
      rename_i user before
      refine ⟨?_, fun u member key inactive => ?_⟩
      · rintro token rfl revoked
        cases admits with
        | refreshed _ presents accepted =>
            exact shut.closed _ revoked _
              ⟨user, presents.member, rfl, presents.held⟩
      · exact admits.active shut.settled member key inactive

/-- A logged-out administrator is given no tokens for its refresh token. -/
theorem revocation_final_logout :
    let trace := Trace.run tokenLibs
      [.register "acme" "ada@acme", .authenticated plainHost ada .logout]
    Revoked 1 trace.log ∧
      ∀ result, (trace.world.serve tokenLibs (.anonymous laterHost
          (.refresh (weekToken ada plainHost.now)))).1 =
          .ok (.session result) →
        ¬ Revoked result.user.userId trace.log := by
  intro trace
  have met : World.Along (fun world request => ¬ LeavesSession world request)
      tokenLibs .empty
      [.register "acme" "ada@acme", .authenticated plainHost ada .logout] :=
    ⟨nofun, nofun, trivial⟩
  exact ⟨by decide +kernel, fun result answered =>
    (revocation_final met laterHost _ result answered).1 _ rfl⟩

/-- Eve logs in and is made inactive by an update. -/
def inactiveRun : List Request :=
  [.register "acme" "ada@acme", .addUser ada "eve@acme" .manager,
    .login "eve@acme",
    .authenticated plainHost ada
      (.updateUser 2
        { name := none
          role := none
          department := none
          status := some .inactive
          managerIds := none
          projectIds := none })]

/-- The inactive user is given tokens for its refresh token. -/
theorem inactive_user_refreshed :
    let trace := Trace.run tokenLibs inactiveRun
    ∃ result, (trace.world.serve tokenLibs (.anonymous laterHost
        (.refresh (weekToken eve plainHost.now)))).1 =
        .ok (.session result) ∧
      Revoked result.user.userId trace.log ∧
      ∃ u ∈ trace.world.db.users.rows, u.id = result.user.userId ∧
        u.status = .inactive := by
  intro trace
  have signs : World.tokens (trace.world.serve tokenLibs (.anonymous laterHost
      (.refresh (weekToken eve plainHost.now)))).1 = [eve] := by
    decide +kernel
  have left : Revoked 2 trace.log ∧ ∃ u ∈ trace.world.db.users.rows,
      u.id = 2 ∧ u.status = .inactive := by
    decide +kernel
  rcases World.tokens_eq_singleton signs with ⟨result, answered, payload⟩
  rw [answered]
  refine ⟨result, rfl, ?_⟩
  rw [payload]
  exact left

end TmsApi
