import TmsApi.Model.Tokens
import TmsApi.Refinement.TeamRuns

/-!
# Sessions along runs

The routes without a token open sessions: they store the hash of a refresh
token with the user and answer with the token.  `SessionServed` says what such
a route answers and leaves, with all it has checked before.  A `Trace` keeps
what a run has answered and revoked so far beside the world, newest first.
-/

namespace TmsApi

open TmsApi.Core
open TmsApi.Core.Program

/-- The hash of the refresh token of a user. -/
def Db.Holds (db : Db) (id : Nat) (stored : String) : Prop :=
  ∃ u ∈ db.users.rows, u.id = id ∧ u.refreshToken = some stored

section

variable {lib : Libs} {host : Host} {db : Db}

/-! ## Opening a session -/

/-- The answer to an admitted user. -/
def session (lib : Libs) (host : Host) (user : User) : AuthResult where
  accessToken := lib.jwtSign .access user.payload host.now
  refreshToken := lib.jwtSign .refresh user.payload host.now
  user := user.payload
  name := user.name
  email := user.email

/-- The hash of the answered refresh token stored. -/
def Db.storeSession (lib : Libs) (host : Host) (user : User) (db : Db) : Db :=
  db.setUser host.now user.id
    { refreshToken := some (some
        (lib.bcryptHash (session lib host user).refreshToken host.salt)) }

/-- The token column of a user can always be written. -/
theorem tokenUpdate_ok {now : Instant} {user : User}
    (member : user ∈ db.users.rows) (token : Option String) :
    Prisma.userUpdate now user.id { refreshToken := some token } db =
      .ok (UserUpdate.apply { refreshToken := some token } now user,
        db.setUser now user.id { refreshToken := some token }) :=
  (userUpdate_eq_ok_of member).mpr ⟨by simp [varchar?], rfl, rfl⟩

theorem wp_openSession {user : User} (member : user ∈ db.users.rows)
    {post : Except Thrown AuthResult → Db → Prop} :
    wp (openSession lib host user) post db ↔
      post (.ok (session lib host user)) (db.storeSession lib host user) := by
  rw [openSession, wp_bind]
  exact wp_statement_of (tokenUpdate_ok member _)

/-- The hashes held after an update: the written one, or old ones. -/
theorem Db.holds_setUser {now : Instant} {id other : Nat} {data : UserUpdate}
    {stored : String} (holds : (db.setUser now id data).Holds other stored) :
    (other = id ∧ data.refreshToken = some (some stored)) ∨
      ((other = id → data.refreshToken = none) ∧ db.Holds other stored) := by
  rcases holds with ⟨u, member, rfl, held⟩
  rcases Db.mem_setUser.mp member with ⟨old, oldMem, rfl⟩
  by_cases own : old.id = id
  · rw [if_pos own] at held ⊢
    cases written : data.refreshToken with
    | none =>
        rw [UserUpdate.apply, written] at held
        exact .inr ⟨fun _ => rfl, old, oldMem, rfl, held⟩
    | some token =>
        simp only [UserUpdate.apply, written, Option.getD_some] at held
        exact .inl ⟨own, by rw [held]⟩
  · rw [if_neg own] at held ⊢
    exact .inr ⟨fun same => (own same).elim, old, oldMem, rfl, held⟩

theorem Db.holds_storeSession {user : User} {id : Nat} {stored : String}
    (holds : (db.storeSession lib host user).Holds id stored) :
    (id = user.id ∧ stored =
        lib.bcryptHash (session lib host user).refreshToken host.salt) ∨
      (id ≠ user.id ∧ db.Holds id stored) := by
  rcases Db.holds_setUser holds with ⟨own, written⟩ | ⟨apart, old⟩
  · exact .inl ⟨own,
      (Option.some.inj (Option.some.inj written)).symm⟩
  · exact .inr ⟨fun own => absurd (apart own) (by simp), old⟩

/-- Clearing the token of a user leaves the others. -/
theorem Db.holds_clear {now : Instant} {id other : Nat} {data : UserUpdate}
    {stored : String} (clears : data.refreshToken = some none)
    (holds : (db.setUser now id data).Holds other stored) :
    other ≠ id ∧ db.Holds other stored := by
  rcases Db.holds_setUser holds with ⟨_, written⟩ | ⟨apart, old⟩
  · rw [clears] at written
    cases written
  · rw [clears] at apart
    exact ⟨fun own => absurd (apart own) (by simp), old⟩

/-! ## Routes without a token -/

/-- A user with a session whose refresh token is read in `token`. -/
structure Presents (lib : Libs) (host : Host) (db : Db) (token : String)
    (user : User) (stored : String) : Prop where
  verified : ∃ payload,
    lib.jwtVerify .refresh token host.now = some payload ∧
      user.id = payload.userId
  member : user ∈ db.users.rows
  held : user.refreshToken = some stored

theorem createOrganisation_member {dto : RegisterDto} {passwordHash : String}
    {user : User} {after : Db}
    (wrote : createOrganisation lib host dto passwordHash db =
      .ok (user, after)) : user ∈ after.users.rows := by
  rcases (createOrganisation_after wrote).2 with ⟨data, rfl, users⟩
  exact users ▸ Table.mem_insert.mpr (.inr rfl)

/-- The user a route opens a session for, and the database then. -/
inductive Admits (lib : Libs) (host : Host) (db : Db) :
    PublicCall → User → Db → Prop where
  | registered (dto : RegisterDto) {user : User} {after : Db}
      (wrote : createOrganisation lib host dto
        (lib.bcryptHash dto.password host.salt) db = .ok (user, after)) :
      Admits lib host db (.register dto) user after
  | loggedIn (dto : LoginDto) {user : User} (member : user ∈ db.users.rows)
      (active : user.status ≠ .inactive) :
      Admits lib host db (.login dto) user db
  | refreshed (token : String) {user : User} {stored : String}
      (presents : Presents lib host db token user stored)
      (accepted : lib.bcryptCompare token stored = true) :
      Admits lib host db (.refresh token) user db

/-- What a route without a token answers and leaves. -/
inductive SessionServed (lib : Libs) (host : Host) (db : Db)
    (call : PublicCall) : Except Thrown Response → Db → Prop where
  | admitted {user : User} {before : Db}
      (admits : Admits lib host db call user before) :
      SessionServed lib host db call
        (.ok (.session (session lib host user)))
        (before.storeSession lib host user)
  | wiped (token : String) {user : User} {stored : String}
      (made : call = .refresh token)
      (presents : Presents lib host db token user stored)
      (rejected : lib.bcryptCompare token stored = false) (error : Thrown) :
      SessionServed lib host db call (.error error)
        (db.setUser host.now user.id { refreshToken := some none })
  | refused (absent : ∀ token, call = .refresh token →
        ∀ user stored, ¬ Presents lib host db token user stored)
      (error : Thrown) :
      SessionServed lib host db call (.error error) db

/-- The route answers with the session of the service. -/
def Answers (lib : Libs) (host : Host) (db : Db) (call : PublicCall)
    (answer : Except Thrown AuthResult) (after : Db) : Prop :=
  SessionServed lib host db call (answer.map Response.session) after

theorem Answers.admit {call : PublicCall} {user : User} {before : Db}
    (member : user ∈ before.users.rows)
    (admits : Admits lib host db call user before) :
    wp (openSession lib host user) (Answers lib host db call) before :=
  (wp_openSession member).mpr (SessionServed.admitted admits)

theorem registerUser_answers (dto : RegisterDto) :
    wp (registerUser lib host dto) (Answers lib host db (.register dto))
      db := by
  have refused (error : Thrown) :
      Answers lib host db (.register dto) (.error error) db :=
    SessionServed.refused (fun _ made => by cases made) error
  simp only [registerUser, wp_bind, wp_query, wp_throwIf, wp_statement,
    andThen_ok, andThen_error, refused, implies_true, true_and]
  intro _ user after wrote
  exact Answers.admit (createOrganisation_member wrote) (.registered dto wrote)

theorem loginUser_answers (dto : LoginDto) :
    wp (loginUser lib host dto) (Answers lib host db (.login dto)) db := by
  have refused (error : Thrown) :
      Answers lib host db (.login dto) (.error error) db :=
    SessionServed.refused (fun _ made => by cases made) error
  simp only [loginUser, wp_bind, wp_query, wp_orThrow, wp_throwIf,
    andThen_ok, andThen_error, refused, implies_true, true_and]
  intro user found _
  rcases Option.filter_eq_some_iff.mp found with ⟨found, active⟩
  have member := Table.mem_of_find? found
  exact Answers.admit member
    (.loggedIn dto member (by simpa using active))

theorem refreshAccessToken_answers (token : String) :
    wp (refreshAccessToken lib host token)
      (Answers lib host db (.refresh token)) db := by
  have refused (error : Thrown)
      (absent : ∀ user stored, ¬ Presents lib host db token user stored) :
      Answers lib host db (.refresh token) (.error error) db := by
    refine SessionServed.refused (fun presented made => ?_) error
    cases made
    exact absent
  simp only [refreshAccessToken, wp_bind, wp_query, wp_orThrow, wp_whenever,
    andThen_ok, andThen_error]
  constructor
  · intro unread
    refine refused _ fun user stored presents => ?_
    rcases presents.verified with ⟨payload, read, _⟩
    rw [unread] at read
    cases read
  intro payload read
  constructor
  · intro unknown
    refine refused _ fun user stored presents => ?_
    rcases presents.verified with ⟨other, again, key⟩
    cases read.symm.trans again
    exact Table.find?_eq_none.mp unknown user presents.member key
  intro user found
  rcases Table.find?_spec found with ⟨member, key⟩
  constructor
  · intro revoked
    refine refused _ fun other stored presents => ?_
    rcases presents.verified with ⟨again, reread, otherKey⟩
    cases read.symm.trans reread
    cases db.users.eq_of_key presents.member member (otherKey.trans key.symm)
    rw [presents.held] at revoked
    cases revoked
  intro stored held
  have presents : Presents lib host db token user stored :=
    ⟨⟨payload, read, key⟩, member, held⟩
  constructor
  · intro rejected
    rw [← key]
    refine (wp_statement_of (tokenUpdate_ok member none)).mpr ?_
    exact SessionServed.wiped token rfl presents rejected _
  · intro matched
    exact Answers.admit member
      (.refreshed token presents (by simpa using matched))

theorem handlePublic_served (call : PublicCall) :
    wp (handlePublic lib host call) (SessionServed lib host db call) db := by
  have respond {program : Service AuthResult}
      (answers : wp program (Answers lib host db call) db) :
      wp program
        (andThen (fun result => done (.ok (Response.session result)))
          (SessionServed lib host db call)) db := by
    refine wp_mono ?_ answers
    intro answer after served
    cases answer with
    | ok result => exact served
    | error e => exact served
  cases call with
  | register dto =>
      simp only [handlePublic, validate, wp_bind, wp_throwIf, andThen_ok,
        andThen_error]
      exact ⟨fun _ => .refused (fun _ made => by cases made) _,
        fun _ => respond (registerUser_answers dto)⟩
  | login dto =>
      simp only [handlePublic, validate, wp_bind, wp_throwIf, andThen_ok,
        andThen_error]
      exact ⟨fun _ => .refused (fun _ made => by cases made) _,
        fun _ => respond (loginUser_answers dto)⟩
  | refresh token =>
      simp only [handlePublic, wp_bind]
      exact respond (refreshAccessToken_answers token)

namespace Admits

variable {call : PublicCall} {user : User} {before : Db}

theorem member (admits : Admits lib host db call user before) :
    user ∈ before.users.rows := by
  cases admits with
  | registered dto wrote => exact createOrganisation_member wrote
  | loggedIn dto member _ => exact member
  | refreshed token presents _ => exact presents.member

/-- Nobody holds a hash because of an admission. -/
theorem holds (admits : Admits lib host db call user before) {id : Nat}
    {stored : String} (held : before.Holds id stored) :
    db.Holds id stored := by
  cases admits with
  | registered dto wrote =>
      rcases (createOrganisation_after wrote).2 with ⟨data, rfl, users⟩
      rcases held with ⟨u, member, key, held⟩
      rw [users] at member
      rcases Table.mem_insert.mp member with old | rfl
      · exact ⟨u, old, key, held⟩
      · cases held
  | loggedIn dto _ _ => exact held
  | refreshed token _ _ => exact held

end Admits

/-! ## Authenticated requests -/

/-- No team change stores a hash. -/
theorem TeamChange.holds {caller : JwtPayload} {call : Call}
    {start after : Db}
    (change : TeamChange lib host caller call start db after) {id : Nat}
    {stored : String} (held : after.Holds id stored) :
    db.Holds id stored := by
  cases change with
  | loggedOut made known => exact (Db.holds_clear rfl held).2
  | userCreated dto made begins role may =>
      rcases held with ⟨u, member, key, held⟩
      rcases Db.mem_addUser.mp member with old | rfl
      · exact ⟨u, old, key, held⟩
      · cases held
  | userUpdated user dto made begins role may =>
      rw [Db.Holds, Db.reviseUser_users] at held
      rcases Db.holds_setUser held with ⟨_, written⟩ | ⟨_, old⟩
      · cases written
      · exact old
  | deactivated id' made begins role manages =>
      exact (Db.holds_clear rfl held).2
  | _ => exact held

theorem World.holds_authenticated {world : World} (holds : world.db.Integrity)
    {host : Host} {caller : JwtPayload} {call : Call} {id : Nat}
    {stored : String}
    (held : (world.step lib (.authenticated host caller call)).db.Holds id
      stored) :
    world.db.Holds id stored := by
  revert held
  refine World.team_keeps
    (fun db => db.Holds id stored → world.db.Holds id stored) holds
    (fun held => held) ?_ ?_ ?_
  · intro after same held
    rwa [Db.Holds, same.users] at held
  · intro host' caller' call' _ _ db after _ kept change held
    exact kept (change.holds held)
  · intro host' call' made
    cases made

end

/-! ## Traces -/

/-- What a request has opened or revoked. -/
inductive Event where
  | opened (call : PublicCall) (result : AuthResult)
  | revoked (userId : Nat)

/--
The events of a request.  An update whose later checks fail has written the
status, so the row it leaves decides and not its answer.
-/
def events : Request → Except Thrown Response → Db → List Event
  | .anonymous _ call, .ok (.session result), _ => [.opened call result]
  | .authenticated _ caller .logout, .ok _, _ => [.revoked caller.userId]
  | .authenticated _ _ (.deactivateUser id), .ok _, _ => [.revoked id]
  | .authenticated _ _ (.updateUser id dto), _, after =>
      if dto.status = some .inactive ∧
          ∃ u ∈ after.users.rows, u.id = id ∧ u.status = .inactive then
        [.revoked id]
      else []
  | _, _, _ => []

/-- A world with the events that led to it, newest first. -/
structure Trace where
  world : World
  log : List Event

namespace Trace

def empty : Trace where
  world := .empty
  log := []

def step (lib : Libs) (trace : Trace) (request : Request) : Trace :=
  let (answer, world) := trace.world.serve lib request
  { world := world, log := events request answer world.db ++ trace.log }

def run (lib : Libs) (requests : List Request) : Trace :=
  requests.foldl (step lib) empty

@[simp]
theorem world_step (lib : Libs) (trace : Trace) (request : Request) :
    (trace.step lib request).world = trace.world.step lib request := rfl

theorem world_run (lib : Libs) (requests : List Request) :
    (run lib requests).world = World.empty.run lib requests :=
  (List.foldl_hom Trace.world fun _ _ => rfl).symm

/-- A property of traces kept by the requests that meet a condition. -/
theorem run_along {lib : Libs} {inv : Trace → Prop}
    {condition : World → Request → Prop}
    (preserved : ∀ trace request, inv trace →
      condition trace.world request → inv (trace.step lib request))
    (start : inv empty) {requests : List Request}
    (met : World.Along condition lib .empty requests) :
    inv (run lib requests) := by
  have from_trace : ∀ trace, inv trace →
      World.Along condition lib trace.world requests →
        inv (requests.foldl (step lib) trace) := by
    clear met
    induction requests with
    | nil => exact fun trace holds _ => holds
    | cons request requests ih =>
        intro trace holds met
        exact ih _ (preserved trace request holds met.1) met.2
  exact from_trace empty start met

theorem run_invariant {lib : Libs} {inv : Trace → Prop}
    (preserved : ∀ trace request, inv trace → inv (trace.step lib request))
    (start : inv empty) (requests : List Request) : inv (run lib requests) :=
  run_along (fun trace request holds _ => preserved trace request holds)
    start (World.along_of_forall (fun _ _ => trivial) _)

/-- What a request without a token does to a trace. -/
theorem step_anonymous (lib : Libs) (trace : Trace) (host : Host)
    (call : PublicCall) :
    ∃ answer after,
      SessionServed lib host trace.world.db call answer after ∧
        trace.step lib (.anonymous host call) =
          { world :=
              { db := after
                issued := World.tokens answer ++ trace.world.issued }
            log := events (.anonymous host call) answer after ++
              trace.log } :=
  ⟨_, _, handlePublic_served call, rfl⟩

/-- Authenticated requests open no session. -/
theorem events_authenticated {host : Host} {caller : JwtPayload}
    {call : Call} {answer : Except Thrown Response} {after : Db} {e : Event}
    (member : e ∈ events (.authenticated host caller call) answer after) :
    ∃ id, e = .revoked id := by
  unfold events at member
  split at member
  all_goals simp_all

/-- What revokes a user. -/
theorem events_revoked {host : Host} {caller : JwtPayload} {call : Call}
    {answer : Except Thrown Response} {after : Db} {id : Nat}
    (member : .revoked id ∈
      events (.authenticated host caller call) answer after) :
    (call = .logout ∧ id = caller.userId ∧
        ∃ response, answer = .ok response) ∨
      (call = .deactivateUser id ∧ ∃ response, answer = .ok response) ∨
        ∃ u ∈ after.users.rows, u.id = id ∧ u.status = .inactive := by
  unfold events at member
  split at member
  all_goals simp_all

end Trace

theorem World.tokens_eq_singleton {answer : Except Thrown Response}
    {payload : JwtPayload} (signs : World.tokens answer = [payload]) :
    ∃ result, answer = .ok (.session result) ∧ result.user = payload := by
  unfold World.tokens at signs
  split at signs
  · exact ⟨_, rfl, by simpa using signs⟩
  · cases signs

/-! ## Packages to evaluate sessions on -/

/-- A minute after `plainHost`. -/
def laterHost : Host := { plainHost with now := plainHost.now + 60000 }

/-- A refresh token valid for a week. -/
def weekToken (payload : JwtPayload) (now : Instant) : String :=
  jwtText (fun _ => "signature") 604800 payload now

/-- The tokens that are presented in the runs below. -/
def knownTokens : List (JwtPayload × Instant) :=
  [(ada, plainHost.now), (ada, laterHost.now), (eve, plainHost.now)]

/-- The signer of a token and the instant of the signature. -/
def signer (token : String) : Option (JwtPayload × Instant) :=
  knownTokens.find? fun known => token = weekToken known.1 known.2

/-- One character for each byte that is hashed. -/
def plainHash (text : String) : String :=
  String.ofList ((first72 text).map fun byte => Char.ofNat byte.toNat)

/-- Packages that sign, verify and hash as documented. -/
def tokenLibs : Libs where
  collate s := s
  isEmail _ := true
  bcryptHash text _ := plainHash text
  bcryptCompare text hash := plainHash text == hash
  jwtSign _ := weekToken
  jwtVerify _ token now := do
    let (payload, signed) ← signer token
    if now / 1000 < signed / 1000 + 604800 then some payload else none

theorem plainHash_inj {first second : String}
    (same : plainHash first = plainHash second) :
    first72 first = first72 second := by
  have injective : Function.Injective fun byte : UInt8 =>
      Char.ofNat byte.toNat := by
    intro left right same
    have small (byte : UInt8) : (Char.ofNat byte.toNat).toNat = byte.toNat := by
      have bound := byte.toNat_lt
      have valid : byte.toNat.isValidChar := .inl (by omega)
      rw [Char.ofNat, dif_pos valid]
      rfl
    have equal := congrArg Char.toNat same
    rw [small, small] at equal
    exact UInt8.toNat_inj.mp equal
  exact injective.list_map (String.ofList_injective same)

theorem zeroFree_signature : ZeroFree "signature" := by
  unfold ZeroFree
  decide +kernel

/-- A token that is read is the one of its signer. -/
theorem tokenLibs_verify {kind : TokenKind} {token : String} {now : Instant}
    {payload : JwtPayload}
    (read : tokenLibs.jwtVerify kind token now = some payload) :
    ∃ signed, signer token = some (payload, signed) := by
  rcases Option.bind_eq_some_iff.mp read with ⟨⟨owner, signed⟩, found, valid⟩
  dsimp only at valid
  split at valid
  · cases valid
    exact ⟨signed, found⟩
  · cases valid

theorem signer_token {token : String} {payload : JwtPayload}
    {signed : Instant} (found : signer token = some (payload, signed)) :
    token = weekToken payload signed := by
  simpa using List.find?_some found

theorem sessionLibs_tokenLibs : SessionLibs tokenLibs where
  signs :=
    ⟨fun _ => "signature", 604800, fun _ => zeroFree_signature,
      fun _ _ => rfl⟩
  plain := by
    intro token now payload read
    rcases tokenLibs_verify read with ⟨signed, found⟩
    rw [signer_token found]
    exact zeroFree_jwtText (fun _ => zeroFree_signature) _ _ _
  reads := by
    intro token now later first second read reread
    rcases tokenLibs_verify read with ⟨signed, found⟩
    rcases tokenLibs_verify reread with ⟨again, refound⟩
    rw [found] at refound
    cases refound
    rfl
  truncates := by
    intro first second salt same
    have equal : plainHash first = plainHash second := by
      rw [plainHash, plainHash, same]
    exact beq_iff_eq.mpr equal
  separates := by
    intro first second salt _ _ accepted
    exact plainHash_inj (beq_iff_eq.mp accepted)

end TmsApi
