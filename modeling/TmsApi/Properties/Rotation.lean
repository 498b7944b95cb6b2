import TmsApi.Model.Tokens
import TmsApi.Refinement.Sessions

/-!
# Refresh-token rotation

A refresh replaces the stored hash and a mismatch clears it, so a user should
be able to use its newest refresh token only, and only once.  All refresh
tokens of a user agree in the 72 bytes a hash depends on, so the stored hash
matches every one of them: the rotation of a token that a user of an open
session has exchanged before never happens.
-/

namespace TmsApi

open TmsApi.Core
open TmsApi.Core.Program

/-! ## What the log says about tokens -/

/-- The refresh token of the newest session of a user. -/
def latestToken (id : Nat) : List Event → Option String
  | [] => none
  | .opened _ result :: earlier =>
      if result.user.userId = id then some result.refreshToken
      else latestToken id earlier
  | .revoked _ :: earlier => latestToken id earlier

/-- A successful refresh of the user with this token. -/
def Event.Exchanges (id : Nat) (token : String) : Event → Prop
  | .opened (.refresh presented) result =>
      presented = token ∧ result.user.userId = id
  | _ => False

instance (id : Nat) (token : String) :
    DecidablePred (Event.Exchanges id token)
  | .opened (.refresh presented) result =>
      inferInstanceAs
        (Decidable (presented = token ∧ result.user.userId = id))
  | .opened (.register _) _ => .isFalse False.elim
  | .opened (.login _) _ => .isFalse False.elim
  | .revoked _ => .isFalse False.elim

/-- The token was exchanged by a successful refresh of the user. -/
def Exchanged (id : Nat) (token : String) (log : List Event) : Prop :=
  ∃ e ∈ log, e.Exchanges id token

instance (id : Nat) (token : String) (log : List Event) :
    Decidable (Exchanged id token log) :=
  inferInstanceAs (Decidable (∃ e ∈ log, e.Exchanges id token))

theorem latestToken_mem {id : Nat} {token : String} {log : List Event}
    (latest : latestToken id log = some token) :
    ∃ call result, .opened call result ∈ log ∧ result.user.userId = id ∧
      result.refreshToken = token := by
  induction log with
  | nil => cases latest
  | cons e earlier ih =>
      cases e with
      | opened call result =>
          rw [latestToken] at latest
          by_cases own : result.user.userId = id
          · rw [if_pos own] at latest
            exact ⟨call, result, List.mem_cons_self, own,
              Option.some.inj latest⟩
          · rw [if_neg own] at latest
            rcases ih latest with ⟨older, known, member, rest⟩
            exact ⟨older, known, List.mem_cons_of_mem _ member, rest⟩
      | revoked userId =>
          rcases ih latest with ⟨older, known, member, rest⟩
          exact ⟨older, known, List.mem_cons_of_mem _ member, rest⟩

/-- Revocations do not change the newest token. -/
theorem latestToken_append {id : Nat} {later log : List Event}
    (revoked : ∀ e ∈ later, ∃ userId, e = .revoked userId) :
    latestToken id (later ++ log) = latestToken id log := by
  induction later with
  | nil => rfl
  | cons e later ih =>
      rcases revoked e List.mem_cons_self with ⟨userId, rfl⟩
      exact ih fun other member => revoked other (List.mem_cons_of_mem _ member)

theorem exchanged_iff {id : Nat} {token : String} {log : List Event} :
    Exchanged id token log ↔
      ∃ result, .opened (.refresh token) result ∈ log ∧
        result.user.userId = id := by
  constructor
  · rintro ⟨e, member, exchanges⟩
    unfold Event.Exchanges at exchanges
    split at exchanges
    · rcases exchanges with ⟨rfl, own⟩
      exact ⟨_, member, own⟩
    · exact exchanges.elim
  · rintro ⟨result, member, own⟩
    exact ⟨_, member, rfl, own⟩

/-! ## The invariant of a run -/

/-- What the log of a run says about the stored hashes. -/
structure Remembers (lib : Libs) (trace : Trace) : Prop where
  sound : trace.world.Sound
  issued : ∀ call result, .opened call result ∈ trace.log →
    result.user ∈ trace.world.issued
  signed : ∀ call result, .opened call result ∈ trace.log →
    ∃ now, result.refreshToken = lib.jwtSign .refresh result.user now
  read : ∀ token result, .opened (.refresh token) result ∈ trace.log →
    ∃ now payload, lib.jwtVerify .refresh token now = some payload ∧
      payload.userId = result.user.userId
  alike : ∀ token result, .opened (.refresh token) result ∈ trace.log →
    first72 token = first72 result.refreshToken
  stored : ∀ id hash, trace.world.db.Holds id hash →
    ∃ token salt, latestToken id trace.log = some token ∧
      hash = lib.bcryptHash token salt

namespace Remembers

variable {lib : Libs} {trace : Trace}

theorem empty : Remembers lib .empty where
  sound := World.sound_empty
  issued := by simp [Trace.empty]
  signed := by simp [Trace.empty]
  read := by simp [Trace.empty]
  alike := by simp [Trace.empty]
  stored := by simp [Trace.empty, World.empty, Db.empty, Db.Holds]

/-- The tokens of a user in the log are one to bcrypt, and so is a new one. -/
theorem first72_eq (laws : SessionLibs lib) (holds : Remembers lib trace)
    {call : PublicCall} {result : AuthResult}
    (member : .opened call result ∈ trace.log) {payload : JwtPayload}
    (known : trace.world.db.Member payload.userId payload.orgId)
    (same : result.user.userId = payload.userId) (now : Instant) :
    first72 result.refreshToken =
      first72 (lib.jwtSign .refresh payload now) := by
  rcases holds.signed call result member with ⟨earlier, signed⟩
  rcases holds.sound.callers _ (holds.issued call result member) with
    ⟨u, uMem, uKey, uOrg⟩
  rcases known with ⟨v, vMem, vKey, vOrg⟩
  cases trace.world.db.users.eq_of_key uMem vMem
    (uKey.trans (same.trans vKey.symm))
  rw [signed]
  exact laws.first72_sign same (uOrg.symm.trans vOrg) earlier now

/-- A presented token that is accepted begins like the stored one. -/
theorem first72_accepted (laws : SessionLibs lib)
    (holds : Remembers lib trace) {host : Host} {token hash : String}
    {user : User}
    (presents : Presents lib host trace.world.db token user hash)
    (accepted : lib.bcryptCompare token hash = true) :
    ∃ newest, latestToken user.id trace.log = some newest ∧
      first72 token = first72 newest := by
  rcases holds.stored user.id hash
    ⟨user, presents.member, rfl, presents.held⟩ with
    ⟨newest, salt, latest, rfl⟩
  rcases presents.verified with ⟨payload, read, _⟩
  rcases latestToken_mem latest with ⟨call, result, member, _, rfl⟩
  rcases holds.signed call result member with ⟨earlier, signed⟩
  have plain : ZeroFree result.refreshToken := by
    rw [signed]
    exact laws.zeroFree_sign _ _
  exact ⟨_, latest,
    laws.separates _ _ _ (laws.plain _ _ _ read) plain accepted⟩

/-- An authenticated request opens no session and stores no hash. -/
theorem step_authenticated (holds : Remembers lib trace) (host : Host)
    (caller : JwtPayload) (call : Call) :
    Remembers lib (trace.step lib (.authenticated host caller call)) := by
  have sound := holds.sound.step lib (.authenticated host caller call)
  have old : ∀ call' result, .opened call' result ∈
      (trace.step lib (.authenticated host caller call)).log →
        .opened call' result ∈ trace.log := by
    intro call' result member
    rcases List.mem_append.mp member with new | old
    · rcases Trace.events_authenticated new with ⟨id, absurd⟩
      cases absurd
    · exact old
  have issued : (trace.world.step lib
      (.authenticated host caller call)).issued = trace.world.issued := by
    by_cases signed : caller ∈ trace.world.issued <;>
      simp [World.step, World.serve, signed]
  refine
    { sound := sound
      issued := fun call' result member =>
        issued ▸ holds.issued call' result (old _ _ member)
      signed := fun call' result member => holds.signed _ _ (old _ _ member)
      read := fun token result member => holds.read _ _ (old _ _ member)
      alike := fun token result member => holds.alike _ _ (old _ _ member)
      stored := fun id hash held => ?_ }
  rcases holds.stored id hash
    (World.holds_authenticated holds.sound.integrity held) with
    ⟨token, salt, latest, same⟩
  refine ⟨token, salt, ?_, same⟩
  exact (latestToken_append fun _ => Trace.events_authenticated).trans latest

/-- An answered session is the newest of its user. -/
theorem step_admitted (laws : SessionLibs lib) (holds : Remembers lib trace)
    {host : Host} {call : PublicCall} {user : User} {before after : Db}
    (admits : Admits lib host trace.world.db call user before)
    (stores : after = before.storeSession lib host user)
    (sound : World.Sound
      ⟨after, user.payload :: trace.world.issued⟩) :
    Remembers lib
      { world := ⟨after, user.payload :: trace.world.issued⟩
        log := .opened call (session lib host user) :: trace.log } where
  sound := sound
  issued := by
    intro call' result member
    rcases List.mem_cons.mp member with new | old
    · cases new
      exact List.mem_cons_self
    · exact List.mem_cons_of_mem _ (holds.issued call' result old)
  signed := by
    intro call' result member
    rcases List.mem_cons.mp member with new | old
    · cases new
      exact ⟨host.now, rfl⟩
    · exact holds.signed call' result old
  read := by
    intro token result member
    rcases List.mem_cons.mp member with new | old
    · cases new
      cases admits with
      | refreshed _ presents accepted =>
          rcases presents.verified with ⟨payload, read, key⟩
          exact ⟨host.now, payload, read, key.symm⟩
    · exact holds.read token result old
  alike := by
    intro token result member
    rcases List.mem_cons.mp member with new | old
    · cases new
      cases admits with
      | refreshed _ presents accepted =>
          rcases holds.first72_accepted laws presents accepted with
            ⟨newest, latest, begins⟩
          rcases latestToken_mem latest with ⟨older, known, logged, own, rfl⟩
          exact begins.trans (holds.first72_eq laws logged
            ⟨user, presents.member, rfl, rfl⟩ own host.now)
    · exact holds.alike token result old
  stored := by
    intro id hash held
    subst stores
    rcases Db.holds_storeSession held with ⟨rfl, rfl⟩ | ⟨apart, held⟩
    · exact ⟨_, host.salt, if_pos rfl, rfl⟩
    · rcases holds.stored id hash (admits.holds held) with
        ⟨token, salt, latest, same⟩
      exact ⟨token, salt, (if_neg (Ne.symm apart)).trans latest, same⟩

theorem step_anonymous (laws : SessionLibs lib) (holds : Remembers lib trace)
    (host : Host) (call : PublicCall) :
    Remembers lib (trace.step lib (.anonymous host call)) := by
  have sound := holds.sound.step lib (.anonymous host call)
  rw [← Trace.world_step] at sound
  rcases trace.step_anonymous lib host call with
    ⟨answer, after, served, made⟩
  rw [made] at sound ⊢
  cases served with
  | admitted admits => exact holds.step_admitted laws admits rfl sound
  | wiped token _ presents rejected error =>
      exact { holds with
        sound := sound
        stored := fun id hash held =>
          holds.stored id hash (Db.holds_clear rfl held).2 }
  | refused absent error => exact { holds with sound := sound }

theorem run (laws : SessionLibs lib) (requests : List Request) :
    Remembers lib (Trace.run lib requests) := by
  refine Trace.run_invariant (fun trace request holds => ?_) empty requests
  cases request with
  | anonymous host call => exact holds.step_anonymous laws host call
  | authenticated host caller call =>
      exact holds.step_authenticated host caller call

end Remembers

/-! ## The next refresh -/

/-- What rotation asks of the answer to a refresh and the world after it. -/
structure Rotates (trace : Trace) (token : String)
    (served : Except Thrown Response × World) : Prop where
  newest : ∀ result, served.1 = .ok (.session result) →
    latestToken result.user.userId trace.log = some token
  spent : ∀ id, Exchanged id token trace.log →
    (∃ error, served.1 = .error error) ∧ ∀ hash, ¬ served.2.db.Holds id hash

/--
A user with a session has exchanged the token before; or the token is read as
one of the user, is not its newest and begins like it.
-/
def Replayed (lib : Libs) (host : Host) (trace : Trace) (token : String) :
    Prop :=
  ∃ u ∈ trace.world.db.users.rows, u.refreshToken.isSome ∧
    (Exchanged u.id token trace.log ∨
      ((∃ payload ∈ lib.jwtVerify .refresh token host.now,
          payload.userId = u.id) ∧
        ∃ newest ∈ latestToken u.id trace.log,
          token ≠ newest ∧ first72 token = first72 newest))

instance (lib : Libs) (host : Host) (trace : Trace) (token : String) :
    Decidable (Replayed lib host trace token) :=
  inferInstanceAs (Decidable (∃ u ∈ _, _))

section

variable {lib : Libs} {host : Host} {trace : Trace} {token : String}

/-- A replayed token, where it is read, matches the hash of its user. -/
theorem Replayed.matches (laws : SessionLibs lib)
    (holds : Remembers lib trace)
    (replayed : Replayed lib host trace token) :
    ∃ u hash, u ∈ trace.world.db.users.rows ∧ u.refreshToken = some hash ∧
      (Exchanged u.id token trace.log ∨
        latestToken u.id trace.log ≠ some token ∧
          Presents lib host trace.world.db token u hash) ∧
      (∀ payload, lib.jwtVerify .refresh token host.now = some payload →
        payload.userId = u.id) ∧
      lib.bcryptCompare token hash = true := by
  rcases replayed with ⟨u, member, opened, replayed⟩
  rcases Option.isSome_iff_exists.mp opened with ⟨hash, held⟩
  rcases holds.stored u.id hash ⟨u, member, rfl, held⟩ with
    ⟨stored, salt, latest, rfl⟩
  refine ⟨u, _, member, held, ?_⟩
  rcases replayed with exchanged | ⟨⟨payload, read, key⟩, newest, found,
    apart, begins⟩
  · rcases exchanged_iff.mp exchanged with ⟨result, logged, own⟩
    rcases latestToken_mem latest with ⟨call, known, knownMem, knownOwn, rfl⟩
    rcases holds.signed call known knownMem with ⟨earlier, signed⟩
    refine ⟨.inl exchanged, fun payload read => ?_, laws.truncates _ _ _ ?_⟩
    · rcases holds.read token result logged with ⟨now, same, reread, key⟩
      rw [laws.reads token host.now now payload same read reread, key, own]
    · have callers := holds.sound.callers _
        (holds.issued call known knownMem)
      rw [signed, holds.alike token result logged]
      exact holds.first72_eq laws logged callers (own.trans knownOwn.symm) _
  · cases Option.some.inj (latest.symm.trans found)
    refine ⟨.inr ⟨fun same => ?_, ⟨payload, read, key.symm⟩, member, held⟩,
      fun other again => ?_, laws.truncates _ _ _ begins⟩
    · exact apart (Option.some.inj (same.symm.trans latest))
    · cases again.symm.trans read
      exact key

/-- A token exchanged or replaced before goes through again. -/
theorem Replayed.not_rotates (laws : SessionLibs lib)
    (holds : Remembers lib trace) (replayed : Replayed lib host trace token)
    {answer : Except Thrown Response} {after : World}
    (served : SessionServed lib host trace.world.db (.refresh token) answer
      after.db) :
    ¬ Rotates trace token (answer, after) := by
  intro rotates
  rcases replayed.matches laws holds with
    ⟨u, hash, member, held, stale, reads, accepted⟩
  -- whoever presents the token is the user it was replayed for
  have presenter {user : User} {stored : String}
      (presents : Presents lib host trace.world.db token user stored) :
      user = u := by
    rcases presents.verified with ⟨payload, read, key⟩
    exact trace.world.db.users.eq_of_key presents.member member
      (key.trans (reads payload read))
  generalize left : after.db = db at served
  cases served with
  | admitted admits =>
      cases admits with
      | refreshed _ presents _ =>
          cases presenter presents
          rcases stale with exchanged | ⟨older, _⟩
          · rcases (rotates.spent _ exchanged).1 with ⟨error, failed⟩
            cases failed
          · exact older (rotates.newest _ rfl)
  | wiped _ made presents rejected error =>
      cases made
      cases presenter presents
      cases held.symm.trans presents.held
      rw [accepted] at rejected
      cases rejected
  | refused absent error =>
      rcases stale with exchanged | ⟨_, presents⟩
      · refine (rotates.spent _ exchanged).2 hash ?_
        rw [left]
        exact ⟨u, member, rfl, held⟩
      · exact absent token rfl u hash presents

theorem rotates_of_not_replayed (laws : SessionLibs lib)
    (holds : Remembers lib trace) (fresh : ¬ Replayed lib host trace token)
    {answer : Except Thrown Response} {after : World}
    (served : SessionServed lib host trace.world.db (.refresh token) answer
      after.db) :
    Rotates trace token (answer, after) := by
  -- a token that is accepted is the newest, and was not exchanged
  have accepted_newest {user : User} {hash : String}
      (presents : Presents lib host trace.world.db token user hash)
      (accepted : lib.bcryptCompare token hash = true) :
      latestToken user.id trace.log = some token := by
    rcases holds.first72_accepted laws presents accepted with
      ⟨newest, latest, begins⟩
    by_contra older
    rcases presents.verified with ⟨payload, read, key⟩
    refine fresh ⟨user, presents.member, by simp [presents.held],
      .inr ⟨⟨payload, read, key.symm⟩, newest, latest, ?_, begins⟩⟩
    rintro rfl
    exact older latest
  have closed {id : Nat} (exchanged : Exchanged id token trace.log)
      (hash : String) : ¬ trace.world.db.Holds id hash := by
    rintro ⟨u, member, rfl, held⟩
    exact fresh ⟨u, member, by simp [held], .inl exchanged⟩
  generalize left : after.db = db at served
  cases served with
  | admitted admits =>
      cases admits with
      | refreshed _ presents accepted =>
          constructor
          · rintro result ⟨⟩
            exact accepted_newest presents accepted
          · intro id exchanged
            rcases exchanged_iff.mp exchanged with ⟨result, logged, rfl⟩
            rcases holds.read token result logged with ⟨now, old, reread, own⟩
            rcases presents.verified with ⟨payload, read, key⟩
            refine (closed exchanged _
              ⟨_, presents.member, ?_, presents.held⟩).elim
            rw [key, laws.reads token host.now now payload old read reread,
              own]
  | wiped _ made presents rejected error =>
      constructor
      · rintro result ⟨⟩
      · intro id exchanged
        refine ⟨⟨error, rfl⟩, fun hash remains => ?_⟩
        rw [left] at remains
        exact closed exchanged hash (Db.holds_clear rfl remains).2
  | refused absent error =>
      constructor
      · rintro result ⟨⟩
      · intro id exchanged
        refine ⟨⟨error, rfl⟩, fun hash remains => ?_⟩
        rw [left] at remains
        exact closed exchanged hash remains

end

/--
After every run, a refresh rotates the tokens as it should exactly when its
token is not replayed.
-/
theorem rotates_iff {lib : Libs} (laws : SessionLibs lib)
    (requests : List Request) (host : Host) (token : String) :
    let trace := Trace.run lib requests
    Rotates trace token
        (trace.world.serve lib (.anonymous host (.refresh token))) ↔
      ¬ Replayed lib host trace token := by
  intro trace
  have holds : Remembers lib trace := Remembers.run laws requests
  have served : SessionServed lib host trace.world.db (.refresh token)
      (trace.world.serve lib (.anonymous host (.refresh token))).1
      (trace.world.serve lib (.anonymous host (.refresh token))).2.db :=
    handlePublic_served (.refresh token)
  exact ⟨fun rotates replayed =>
      replayed.not_rotates laws holds served rotates,
    fun fresh => rotates_of_not_replayed laws holds fresh served⟩

/-- The first refresh token of an administrator. -/
def firstToken : String := weekToken ada plainHost.now

/-- The newest token of an administrator is exchanged once. -/
theorem rotates_iff_first :
    let trace := Trace.run tokenLibs [.register "acme" "ada@acme"]
    Rotates trace firstToken
      (trace.world.serve tokenLibs
        (.anonymous laterHost (.refresh firstToken))) :=
  (rotates_iff sessionLibs_tokenLibs [.register "acme" "ada@acme"] laterHost
    firstToken).mpr (by decide +kernel)

/-- The exchanged token of the administrator opens a session once more. -/
theorem exchanged_token_accepted :
    let trace := Trace.run tokenLibs
      [.register "acme" "ada@acme",
        .anonymous laterHost (.refresh firstToken)]
    Exchanged 1 firstToken trace.log ∧
      ¬ Rotates trace firstToken
        (trace.world.serve tokenLibs
          (.anonymous laterHost (.refresh firstToken))) := by
  intro trace
  have exchanged : Exchanged 1 firstToken trace.log := by decide +kernel
  have accepted : (trace.world.serve tokenLibs
      (.anonymous laterHost (.refresh firstToken))).1.isOk = true := by
    decide +kernel
  refine ⟨exchanged, fun rotates => ?_⟩
  rcases (rotates.spent 1 exchanged).1 with ⟨error, failed⟩
  rw [failed] at accepted
  cases accepted

end TmsApi
