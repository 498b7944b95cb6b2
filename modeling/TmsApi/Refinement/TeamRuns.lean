import TmsApi.Refinement.Runs

/-!
# Users, teams and project links along runs

Every request leaves the team tables as they are, makes the team changes of
its caller, or belongs to a route without a token.  This holds in every
database that satisfies the foreign keys, so the rule `World.team_keeps` also
serves runs that begin in an arbitrary one.
-/

namespace TmsApi

open TmsApi.Core
open TmsApi.Core.Program

section

variable {lib : Libs} {host : Host} {caller : JwtPayload} {call : Call}
  {db after : Db}

/-- Booking hours keeps the key and the organisation of every project. -/
theorem bookAll_orgProject (now : Instant) (entries : List TimeEntry)
    (projectId orgId : Nat) :
    { db with projects := bookAll now entries db.projects }.OrgProject
        projectId orgId ↔ db.OrgProject projectId orgId := by
  constructor
  · rintro ⟨p, member, key, org⟩
    rcases mem_bookAll.mp member with ⟨old, oldMem, rfl⟩
    exact ⟨old, oldMem, key, org⟩
  · rintro ⟨old, oldMem, key, org⟩
    exact ⟨_, mem_bookAll.mpr ⟨old, oldMem, rfl⟩, key, org⟩

theorem SheetChange.sameTeam
    (change : SheetChange host caller call db after) : SameTeam db after := by
  cases change with
  | approved t may made =>
      exact { SameTeam.refl db with
        projects := bookAll_orgProject _ (db.entriesOf t.id) }
  | _ => exact { SameTeam.refl db with }

theorem TeamChange.organisations {start : Db}
    (change : TeamChange lib host caller call start db after) :
    after.organisations = db.organisations := by
  cases change with
  | userUpdated user dto made begins role may =>
      unfold Db.reviseUser
      split <;> rfl
  | _ => rfl

/-! ## Routes without a token -/

/-- The rows a registration adds. -/
def Db.addOrganisation (host : Host) (dto : RegisterDto)
    (passwordHash : String) (db : Db) : Db :=
  { db with
    organisations :=
      db.organisations.insert fun id => ⟨id, dto.organisationName⟩
    orgSettings := db.orgSettings.insert (.defaults db.organisations.next)
    users := db.users.insert
      (UserData.row
        { organisationId := db.organisations.next
          name := dto.name
          email := dto.email
          passwordHash := passwordHash
          role := .admin
          department := none } host.now) }

/-- The registered administrator is the new row of the users. -/
theorem createOrganisation_after {dto : RegisterDto} {passwordHash : String}
    {u : User}
    (wrote : createOrganisation lib host dto passwordHash db =
      .ok (u, after)) :
    after = db.addOrganisation host dto passwordHash ∧
      ∃ data : UserData, u = data.row host.now db.users.next ∧
        after.users = db.users.insert (data.row host.now) := by
  rcases bind_eq_ok.mp wrote with ⟨org, _, first, wrote⟩
  rcases bind_eq_ok.mp wrote with ⟨settings, _, second, wrote⟩
  simp only [Prisma.organisationCreate, ensure_eq_ok, Except.ok.injEq,
    Prod.mk.injEq] at first
  rcases first with ⟨_, rfl, rfl⟩
  simp only [Prisma.orgSettingsCreate, ensure_eq_ok, Except.ok.injEq,
    Prod.mk.injEq] at second
  rcases second with ⟨_, _, rfl, rfl⟩
  rcases userCreate_eq_ok.mp wrote with ⟨_, rfl, rfl⟩
  exact ⟨rfl, _, rfl, rfl⟩

/-- A request without a token adds an organisation or writes a session. -/
theorem PublicChange.cases_after (change : PublicChange lib host db after) :
    (∃ dto passwordHash, after = db.addOrganisation host dto passwordHash) ∨
      ∃ id token, after =
        db.setUser host.now id { refreshToken := some token } := by
  cases change with
  | registered dto passwordHash wrote =>
      exact .inl ⟨dto, passwordHash, (createOrganisation_after wrote).1⟩
  | tokenStored id token wrote =>
      exact .inr ⟨id, token, (userUpdate_eq_ok.mp wrote).2.2⟩

theorem PublicChange.grows (change : PublicChange lib host db after) :
    db.Grows after := by
  cases change with
  | registered dto passwordHash wrote =>
      exact createOrganisation_grows _ _ _ _ _ _ _ wrote
  | tokenStored id token wrote =>
      exact Prisma.userUpdate_grows _ _ _ _ _ _ wrote

/-- Without a token no link is written. -/
structure SameLinks (before after : Db) : Prop where
  managerEmployees : after.managerEmployees = before.managerEmployees
  projects : after.projects = before.projects
  projectManagers : after.projectManagers = before.projectManagers
  projectEmployees : after.projectEmployees = before.projectEmployees

theorem PublicChange.sameLinks (change : PublicChange lib host db after) :
    SameLinks db after := by
  rcases change.cases_after with ⟨dto, passwordHash, rfl⟩ | ⟨id, token, rfl⟩ <;>
    exact ⟨rfl, rfl, rfl, rfl⟩

end

/-! ## Every request -/

namespace World

variable {lib : Libs} {world : World} {request : Request}

/-- A request as a change of the team tables. -/
inductive TeamServed (lib : Libs) (world : World) : Request → Db → Prop where
  | same {request : Request} {after : Db} (same : SameTeam world.db after) :
      TeamServed lib world request after
  | team {host : Host} {caller : JwtPayload} {call : Call} {after : Db}
      (signed : caller ∈ world.issued)
      (steps : TeamSteps lib host caller call world.db after) :
      TeamServed lib world (.authenticated host caller call) after
  | publicly {host : Host} {call : PublicCall} {after : Db}
      (changes :
        Relation.ReflTransGen (PublicChange lib host) world.db after) :
      TeamServed lib world (.anonymous host call) after

theorem teamServed (lib : Libs) (holds : world.db.Integrity)
    (request : Request) :
    TeamServed lib world request (world.step lib request).db := by
  cases request with
  | anonymous host call => exact .publicly (handlePublic_chains call world.db)
  | authenticated host caller call =>
      by_cases signed : caller ∈ world.issued
      · have served : Served lib host caller call world.db
            ((handle lib host caller call).exec world.db).2 :=
          handle_served holds call
        rw [step_signed signed]
        cases served with
        | sheet change => exact .same change.sameTeam
        | team steps => exact .team signed steps
        | aside aside => exact .same aside.same
      · have made : (world.step lib
            (.authenticated host caller call)).db = world.db := by
          simp [step, serve, signed]
        rw [made]
        exact .same (.refl _)

/--
A property of users, links and projects survives a request when it survives
each team change of its caller and each change of a route without a token.
-/
theorem team_keeps (inv : Db → Prop) (holds : world.db.Integrity)
    (start : inv world.db)
    (same : ∀ after, SameTeam world.db after → inv after)
    (team : ∀ host caller call,
      request = .authenticated host caller call → caller ∈ world.issued →
      ∀ db after, TeamSteps lib host caller call world.db db → inv db →
        TeamChange lib host caller call world.db db after → inv after)
    (publicly : ∀ host call, request = .anonymous host call →
      ∀ db after, inv db → PublicChange lib host db after → inv after) :
    inv (world.step lib request).db := by
  have served := teamServed lib holds request
  generalize (world.step lib request).db = after at served
  cases served with
  | same unchanged => exact same after unchanged
  | team signed steps =>
      induction steps with
      | refl => exact start
      | tail before change ih =>
          exact team _ _ _ rfl signed _ _ before ih change
  | publicly changes =>
      induction changes with
      | refl => exact start
      | tail before change ih => exact publicly _ _ rfl _ _ ih change

end World

end TmsApi
