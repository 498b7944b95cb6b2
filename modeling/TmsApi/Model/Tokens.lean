import TmsApi.Core.Base64
import TmsApi.Model.Runtime

/-!
# Signed tokens and their hashes

The documented behaviour of the two packages behind the sessions.  A signed
token is `header.payload.signature` in base64url; its payload is JSON with the
members in the order the service lists them, followed by the issue time and
the expiry in whole seconds.  A bcrypt hash depends on the first 72 bytes of
its input.

Together the two make all refresh tokens of one user alike: the header and
the beginning of the payload, which ends before the issue time, already take
72 bytes.
-/

namespace TmsApi

open TmsApi.Core

/-! ## Tokens -/

/-- The role as the database and the tokens spell it. -/
def UserRole.text : UserRole → String
  | .employee => "EMPLOYEE"
  | .manager => "MANAGER"
  | .admin => "ADMIN"

/-- A text in base64url. -/
def base64 (text : String) : String :=
  String.ofList (Base64.url (Base64.utf8 text))

/-- The header of a token with the default algorithm. -/
def jwtHeader : String := "eyJhbGciOiJIUzI1NiIsInR5cCI6IkpXVCJ9"

example :
    jwtHeader = base64 "\x7b\"alg\":\"HS256\",\"typ\":\"JWT\"\x7d" := by
  decide +kernel

/-- The payload up to the value of its `role`. -/
def claimsHead (userId orgId : Nat) : String :=
  "\x7b\"userId\":" ++ toString userId ++ ",\"orgId\":" ++ toString orgId ++
    ",\"role\":"

/-- The JSON text of the payload. -/
def claims (payload : JwtPayload) (iat lifetime : Int) : String :=
  claimsHead payload.userId payload.orgId ++
    ("\"" ++ payload.role.text ++ "\",\"iat\":" ++ toString iat ++
      ",\"exp\":" ++ toString (iat + lifetime) ++ "\x7d")

/-- `jwt.sign` for a signature function and a lifetime in seconds. -/
def jwtText (signature : String → String) (lifetime : Int)
    (payload : JwtPayload) (now : Instant) : String :=
  let signed :=
    jwtHeader ++ "." ++ base64 (claims payload (now / 1000) lifetime)
  signed ++ "." ++ signature signed

/-! ## What bcrypt reads -/

/-- The bytes of its input a bcrypt hash depends on. -/
def first72 (text : String) : List UInt8 :=
  (Base64.utf8 text).take 72

theorem first72_append {first : String} (long : 72 ≤ first.length)
    (rest : String) : first72 (first ++ rest) = first72 first := by
  have bytes : 72 ≤ (Base64.utf8 first).length :=
    long.trans (Base64.length_le_length_utf8 first)
  rw [first72, Base64.utf8_append, List.take_append_of_le_length bytes,
    first72]

/-- The beginning of every token of a user: 73 characters. -/
def tokenHead (userId orgId : Nat) : String :=
  jwtHeader ++ "." ++
    String.ofList
      (Base64.url ((Base64.utf8 (claimsHead userId orgId)).take 27))

theorem claimsHead_long (userId orgId : Nat) :
    27 ≤ (Base64.utf8 (claimsHead userId orgId)).length := by
  refine le_trans ?_ (Base64.length_le_length_utf8 _)
  have user : 0 < (toString userId).length := Nat.length_repr_pos
  have org : 0 < (toString orgId).length := Nat.length_repr_pos
  have first : "\x7b\"userId\":".length = 10 := rfl
  have second : ",\"orgId\":".length = 9 := rfl
  have third : ",\"role\":".length = 8 := rfl
  simp only [claimsHead, String.length_append, first, second, third]
  omega

theorem claimsHead_groups (userId orgId : Nat) :
    ((Base64.utf8 (claimsHead userId orgId)).take 27).length = 3 * 9 := by
  rw [List.length_take, Nat.min_eq_left (claimsHead_long userId orgId)]

theorem tokenHead_long (userId orgId : Nat) :
    72 ≤ (tokenHead userId orgId).length := by
  have header : jwtHeader.length = 36 := by decide +kernel
  have dot : ".".length = 1 := rfl
  simp only [tokenHead, String.length_append, String.length_ofList,
    Base64.length_url (claimsHead_groups userId orgId), header, dot]
  omega

/-- A token begins with the head of its user and organisation. -/
theorem jwtText_eq (signature : String → String) (lifetime : Int)
    (payload : JwtPayload) (now : Instant) :
    ∃ rest, jwtText signature lifetime payload now =
      tokenHead payload.userId payload.orgId ++ rest := by
  simp only [jwtText, base64, claims, Base64.utf8_append]
  rw [← List.take_append_drop 27
    (Base64.utf8 (claimsHead payload.userId payload.orgId)),
    List.append_assoc, Base64.url_append (claimsHead_groups _ _),
    String.ofList_append]
  exact ⟨_, by simp only [tokenHead, String.append_assoc]; rfl⟩

/-- The tokens of one user agree in all that bcrypt reads. -/
theorem first72_jwtText {signature : String → String} {lifetime : Int}
    {first second : JwtPayload} (sameUser : first.userId = second.userId)
    (sameOrg : first.orgId = second.orgId) (now later : Instant) :
    first72 (jwtText signature lifetime first now) =
      first72 (jwtText signature lifetime second later) := by
  rcases jwtText_eq signature lifetime first now with ⟨left, leftEq⟩
  rcases jwtText_eq signature lifetime second later with ⟨right, rightEq⟩
  rw [leftEq, rightEq, first72_append (tokenHead_long _ _),
    first72_append (tokenHead_long _ _), sameUser, sameOrg]

/-- bcrypt ends its key with a zero byte, so texts have none. -/
def ZeroFree (text : String) : Prop :=
  Char.ofNat 0 ∉ text.toList

theorem zeroFree_append {first second : String} (left : ZeroFree first)
    (right : ZeroFree second) : ZeroFree (first ++ second) := by
  rw [ZeroFree, String.toList_append, List.mem_append]
  exact fun zero => zero.elim left right

theorem zeroFree_base64 (text : String) : ZeroFree (base64 text) := by
  have apart : Char.ofNat 0 ∉ Base64.alphabet := by decide +kernel
  rw [ZeroFree, base64, String.toList_ofList]
  exact fun zero => apart (Base64.mem_url zero)

theorem zeroFree_jwtText {signature : String → String}
    (plain : ∀ text, ZeroFree (signature text)) (lifetime : Int)
    (payload : JwtPayload) (now : Instant) :
    ZeroFree (jwtText signature lifetime payload now) := by
  have header : ZeroFree jwtHeader := by unfold ZeroFree; decide +kernel
  have dot : ZeroFree "." := by unfold ZeroFree; decide +kernel
  exact zeroFree_append
    (zeroFree_append
      (zeroFree_append (zeroFree_append header dot) (zeroFree_base64 _)) dot)
    (plain _)

/-! ## The packages -/

/-- What `jsonwebtoken` and `bcryptjs` document about refresh tokens. -/
structure SessionLibs (lib : Libs) : Prop where
  /-- `sign` writes the members in order and the time in seconds. -/
  signs : ∃ (signature : String → String) (lifetime : Int),
    (∀ text, ZeroFree (signature text)) ∧ ∀ payload now,
      lib.jwtSign .refresh payload now =
        jwtText signature lifetime payload now
  /-- `verify` reads base64url and dots only. -/
  plain : ∀ token now payload,
    lib.jwtVerify .refresh token now = some payload → ZeroFree token
  /-- What `verify` reads in a token does not depend on the time. -/
  reads : ∀ token now later first second,
    lib.jwtVerify .refresh token now = some first →
      lib.jwtVerify .refresh token later = some second → first = second
  /-- `compare` does not look beyond 72 bytes. -/
  truncates : ∀ first second salt, first72 first = first72 second →
    lib.bcryptCompare first (lib.bcryptHash second salt) = true
  /-- `compare` tells apart texts that differ within 72 bytes. -/
  separates : ∀ first second salt, ZeroFree first → ZeroFree second →
    lib.bcryptCompare first (lib.bcryptHash second salt) = true →
      first72 first = first72 second

namespace SessionLibs

variable {lib : Libs}

theorem zeroFree_sign (laws : SessionLibs lib) (payload : JwtPayload)
    (now : Instant) : ZeroFree (lib.jwtSign .refresh payload now) := by
  rcases laws.signs with ⟨signature, lifetime, plain, signs⟩
  rw [signs]
  exact zeroFree_jwtText plain lifetime payload now

/-- The refresh tokens of one user are one to bcrypt. -/
theorem first72_sign (laws : SessionLibs lib) {first second : JwtPayload}
    (sameUser : first.userId = second.userId)
    (sameOrg : first.orgId = second.orgId) (now later : Instant) :
    first72 (lib.jwtSign .refresh first now) =
      first72 (lib.jwtSign .refresh second later) := by
  rcases laws.signs with ⟨signature, lifetime, _, signs⟩
  rw [signs, signs]
  exact first72_jwtText sameUser sameOrg now later

end SessionLibs

end TmsApi
