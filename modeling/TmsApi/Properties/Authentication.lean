import TmsApi.Middleware
import TmsApi.Refinement.Sessions

/-!
# What a route behind `authenticate` answers

The middleware takes the second of the words of the header that spaces part.
A missing header or another scheme is an `UnauthorizedError`.  The errors of
`jwt.verify` are passed on as they are; they are no `AppError`s, so the error
handler answers them with status 500 and not with 401.
-/

namespace TmsApi

open TmsApi.Core
open TmsApi.Core.Program

/-- The header is `Bearer `, a token, and possibly more behind a space. -/
def BearerToken (authorization : Option String) (token : String) : Prop :=
  ∃ rest : String, authorization = some ("Bearer " ++ token ++ rest) ∧
    ' ' ∉ token.toList ∧
      (rest.toList = [] ∨ ∃ tail, rest.toList = ' ' :: tail)

/--
The handler runs with the payload of a token of the header that verifies, or
the response has status 401 and the database is the same.
-/
def Authenticates (lib : Libs) (host : Host) (jwtSecret : Option String)
    (authorization : Option String) : Prop :=
  ∀ (Answer : Type) (handler : JwtPayload → Service Answer) (db : Db),
    (∃ token user, BearerToken authorization token ∧
      lib.jwtVerify .access token host.now = some user ∧
      protect lib host jwtSecret handler authorization db =
        respond (handler user) db) ∨
    ∃ response, response.status = 401 ∧
      protect lib host jwtSecret handler authorization db =
        (.error response, db)

/-! ## The header -/

/-- A word, and what is left when a space ends it. -/
theorem splitOn_space {word rest : List Char} (plain : ' ' ∉ word)
    (ends : rest = [] ∨ ∃ tail, rest = ' ' :: tail) :
    ((word ++ rest).splitOn ' ')[0]? = some word := by
  rcases ends with rfl | ⟨tail, rfl⟩
  · rw [List.append_nil, List.splitOn_eq_singleton plain]
    rfl
  · rw [List.splitOn_append_cons_self_of_not_mem plain]
    rfl

/-- The second word of a header of the scheme is its token. -/
theorem BearerToken.tokenOf {authHeader token : String}
    (carried : BearerToken (some authHeader) token) :
    TmsApi.tokenOf authHeader = some token := by
  rcases carried with ⟨rest, ⟨⟩, plain, ends⟩
  have scheme : "Bearer ".toList = "Bearer".toList ++ ' ' :: [] := by
    decide
  have first : ' ' ∉ "Bearer".toList := by
    decide
  rw [TmsApi.tokenOf, String.toList_append, String.toList_append, scheme,
    List.append_assoc, List.append_assoc, List.cons_append, List.nil_append,
    List.splitOn_append_cons_self_of_not_mem first, List.getElem?_cons_succ,
    splitOn_space plain ends, Option.map_some, String.ofList_toList]

/-- A header with a token starts with the scheme. -/
theorem BearerToken.scheme {authHeader token : String}
    (carried : BearerToken (some authHeader) token) :
    "Bearer ".toList <+: authHeader.toList := by
  rcases carried with ⟨rest, ⟨⟩, _⟩
  rw [String.toList_append, String.toList_append, List.append_assoc]
  exact List.prefix_append _ _

/-- Every text starts with a word, which may be empty. -/
theorem exists_word (text : List Char) :
    ∃ word rest, word ++ rest = text ∧ ' ' ∉ word ∧
      (rest = [] ∨ ∃ tail, rest = ' ' :: tail) := by
  induction text with
  | nil => exact ⟨[], [], rfl, by simp, .inl rfl⟩
  | cons c text ih =>
      by_cases space : c = ' '
      · exact ⟨[], c :: text, rfl, by simp, .inr ⟨text, by rw [space]⟩⟩
      · rcases ih with ⟨word, rest, rfl, plain, ends⟩
        refine ⟨c :: word, rest, rfl, ?_, ends⟩
        simp [plain, Ne.symm space]

/-- A header of the scheme has a token. -/
theorem exists_bearerToken {authHeader : String}
    (scheme : "Bearer ".toList <+: authHeader.toList) :
    ∃ token, BearerToken (some authHeader) token := by
  rcases scheme with ⟨body, parts⟩
  rcases exists_word body with ⟨word, rest, rfl, plain, ends⟩
  refine ⟨String.ofList word, String.ofList rest, ?_, ?_, ?_⟩
  · refine congrArg some (String.toList_inj.mp ?_)
    rw [String.toList_append, String.toList_append,
      String.toList_ofList (l := word), String.toList_ofList (l := rest),
      List.append_assoc, parts]
  · rw [String.toList_ofList]
    exact plain
  · rw [String.toList_ofList]
    exact ends

section

variable {lib : Libs} {host : Host} {jwtSecret : Option String}
  {authorization : Option String}

/-- The token of the header decides. -/
theorem authenticate_bearer (configured : jwtSecret.getD "" ≠ "")
    {token : String} (carried : BearerToken authorization token) :
    authenticate lib host jwtSecret authorization =
      tryCatch (verifyAccess lib host) token := by
  cases authorization with
  | none =>
      rcases carried with ⟨_, absent, _⟩
      cases absent
  | some authHeader =>
      unfold authenticate tryCatch authenticateHeader
      simp only [carried.scheme, carried.tokenOf, configured]
      rfl

/-- Any other header is answered by the middleware itself. -/
theorem authenticate_other
    (other : ∀ token, ¬ BearerToken authorization token) :
    authenticate lib host jwtSecret authorization =
      .fails (.thrown (.unauthorizedError "No token provided")) := by
  cases authorization with
  | none => rfl
  | some authHeader =>
      have scheme : ¬ "Bearer ".toList <+: authHeader.toList := by
        intro scheme
        rcases exists_bearerToken scheme with ⟨token, carried⟩
        exact other token carried
      unfold authenticate tryCatch authenticateHeader
      simp only [scheme]
      rfl

theorem tryCatch_verifyAccess (token : String) :
    tryCatch (verifyAccess lib host) token =
      match lib.jwtVerify .access token host.now with
      | some user => .next user
      | none => .fails .jsonWebTokenError := by
  unfold tryCatch verifyAccess
  cases lib.jwtVerify .access token host.now <;> rfl

/-- A header that is not of the scheme is answered with 401. -/
theorem authenticates_of_other
    (other : ∀ token, ¬ BearerToken authorization token) :
    Authenticates lib host jwtSecret authorization := by
  intro Answer handler db
  refine .inr ⟨_, ?_, by rw [protect, authenticate_other other]⟩
  rfl

/-- A header of the scheme is right exactly when its token verifies. -/
theorem authenticates_bearer_iff (configured : jwtSecret.getD "" ≠ "")
    {token : String} (carried : BearerToken authorization token) :
    Authenticates lib host jwtSecret authorization ↔
      (lib.jwtVerify .access token host.now).isSome := by
  have continues : authenticate lib host jwtSecret authorization = _ :=
    authenticate_bearer configured carried
  rw [tryCatch_verifyAccess] at continues
  cases verified : lib.jwtVerify .access token host.now with
  | some user =>
      rw [verified] at continues
      refine iff_of_true ?_ rfl
      intro Answer handler db
      refine .inl ⟨token, user, carried, verified, ?_⟩
      rw [protect, continues]
  | none =>
      rw [verified] at continues
      refine iff_of_false ?_ (by simp)
      intro authenticates
      have answered (handler : JwtPayload → Service PUnit) :
          protect lib host jwtSecret handler authorization .empty =
            (.error (errorHandler .jsonWebTokenError), .empty) := by
        rw [protect, continues]
      rcases authenticates PUnit (fun _ => .done (.ok ⟨⟩)) .empty with
        ⟨_, user, _, _, ran⟩ | ⟨response, status, same⟩
      · rw [answered] at ran
        cases ran
      · rw [answered] at same
        cases same
        exact absurd status (by decide)

end

/--
With a secret configured, a route behind `authenticate` runs its handler with
the payload of a token that verifies or answers 401 exactly when the header is
missing or of another scheme, or its token verifies.
-/
theorem authentication_iff (lib : Libs) (host : Host)
    (jwtSecret : Option String) (configured : jwtSecret.getD "" ≠ "")
    (authorization : Option String) :
    Authenticates lib host jwtSecret authorization ↔
      ∀ token, BearerToken authorization token →
        (lib.jwtVerify .access token host.now).isSome := by
  constructor
  · intro authenticates token carried
    exact (authenticates_bearer_iff configured carried).mp authenticates
  · intro verifies
    by_cases carries : ∃ token, BearerToken authorization token
    · rcases carries with ⟨token, carried⟩
      exact (authenticates_bearer_iff configured carried).mpr
        (verifies token carried)
    · exact authenticates_of_other (not_exists.mp carries)

/-- The header of a client that shows Ada's token. -/
def adaHeader : String := "Bearer " ++ weekToken ada plainHost.now

theorem adaHeader_token :
    BearerToken (some adaHeader) (weekToken ada plainHost.now) := by
  refine ⟨"", by rw [adaHeader, String.append_empty], ?_, .inl rfl⟩
  decide +kernel

/-- Ada's token lets her pass. -/
theorem authentication_iff_ada :
    Authenticates tokenLibs plainHost (some "secret") (some adaHeader) := by
  refine (authentication_iff tokenLibs plainHost (some "secret") (by decide)
    (some adaHeader)).mpr fun token carried => ?_
  have same := carried.tokenOf.symm.trans adaHeader_token.tokenOf
  cases same
  decide +kernel

/-- A token that nobody signed is answered with status 500. -/
theorem unsigned_token :
    ¬ Authenticates tokenLibs plainHost (some "secret") (some "Bearer x") ∧
    ∀ handler : JwtPayload → Service PUnit, ∀ db,
      protect tokenLibs plainHost (some "secret") handler (some "Bearer x")
        db =
      (.error ⟨500, "An unexpected error occurred", .internalError⟩, db) := by
  have carried : BearerToken (some "Bearer x") "x" :=
    ⟨"", by decide, by decide, .inl rfl⟩
  have unsigned :
      tokenLibs.jwtVerify .access "x" plainHost.now = none := by
    decide +kernel
  constructor
  · intro authenticates
    have verified := (authenticates_bearer_iff (by decide) carried).mp
      authenticates
    rw [unsigned] at verified
    cases verified
  · intro handler db
    rw [protect, authenticate_bearer (by decide) carried,
      tryCatch_verifyAccess, unsigned]
    rfl

end TmsApi
