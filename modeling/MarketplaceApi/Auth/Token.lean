import Mathlib.Data.List.Basic

/-!
# Access tokens

A token as it is signed and as it is verified. What `jose` and the crypto library do is a
parameter: importing PEM text, thumbprints, signatures. A uuid that `z.uuid()` accepts is a
value of `Uuid`.
-/
namespace MarketplaceApi.Auth

abbrev Uuid := Nat

def ACCESS_TOKEN_ALGORITHM : String := "ES256"
def ACCESS_TOKEN_ISSUER : String := "identity-service"
def ACCESS_TOKEN_TTL_SECONDS : Nat := 15 * 60
def ACCESS_TOKEN_CLOCK_TOLERANCE_SECONDS : Nat := 5

inductive RoleEnum where
  | owner
  | seller
  | admin
  | user
  deriving DecidableEq

def RoleEnum.text : RoleEnum → String
  | owner => "owner"
  | seller => "seller"
  | admin => "admin"
  | user => "user"

/-- The columns of an identity that go into its tokens. -/
structure Identity where
  publicId : Uuid
  role : RoleEnum
  email : Option String
  fullNumber : Option String
  deriving DecidableEq

structure AccessTokenHeader where
  alg : String
  kid : String
  typ : String
  deriving DecidableEq

structure AccessTokenPayload where
  role : RoleEnum
  sid : Uuid
  email : Option String
  phone_number : Option String
  sub : Uuid
  jti : Uuid
  iss : String
  iat : Nat
  exp : Nat
  deriving DecidableEq

structure AccessToken (Signature : Type) where
  header : AccessTokenHeader
  payload : AccessTokenPayload
  signature : Signature
  deriving DecidableEq

structure AccessTokenClaims where
  identityPublicId : Uuid
  tokenId : Uuid
  familyId : Uuid
  role : RoleEnum
  email : Option String
  phoneNumber : Option String
  deriving DecidableEq

/-- The library: what a private key signs, its public key verifies. -/
structure Jose (PrivateKey PublicKey Signature : Type) where
  importPKCS8 : String → Option PrivateKey
  importSPKI : String → Option PublicKey
  publicKeyOf : PrivateKey → PublicKey
  calculateJwkThumbprint : PublicKey → String
  sign : PrivateKey → AccessTokenHeader × AccessTokenPayload → Signature
  verifies : PublicKey → AccessTokenHeader × AccessTokenPayload → Signature → Bool
  verifies_sign : ∀ key content, verifies (publicKeyOf key) content (sign key content) = true

structure Jwk (PublicKey : Type) where
  key : PublicKey
  kid : String
  alg : String
  use : String

variable {PrivateKey PublicKey Signature : Type} (jose : Jose PrivateKey PublicKey Signature)

def Jose.kid (key : PrivateKey) : String := jose.calculateJwkThumbprint (jose.publicKeyOf key)

/-- `Math.floor(Date.now() / 1000)` -/
def epoch (now : Nat) : Nat := now / 1000

namespace TokenService

def header (keyId : String) : AccessTokenHeader := ⟨ACCESS_TOKEN_ALGORITHM, keyId, "JWT"⟩

def payload (identity : Identity) (tokenId familyId : Uuid) (now : Nat) : AccessTokenPayload where
  role := identity.role
  sid := familyId
  email := identity.email
  phone_number := identity.fullNumber
  sub := identity.publicId
  jti := tokenId
  iss := ACCESS_TOKEN_ISSUER
  iat := epoch now
  exp := epoch now + ACCESS_TOKEN_TTL_SECONDS

/-- The token of `createTokenPair`: `kid` and key are read, and the times taken, in one turn of
the event loop. -/
def accessToken (privateKey : PrivateKey) (keyId : String) (identity : Identity) (tokenId familyId : Uuid) (now : Nat) :
    AccessToken Signature :=
  ⟨header keyId, payload identity tokenId familyId now,
    jose.sign privateKey (header keyId, payload identity tokenId familyId now)⟩

end TokenService

def selects (header : AccessTokenHeader) (jwk : Jwk PublicKey) : Bool :=
  jwk.kid == header.kid && jwk.alg == header.alg && jwk.use == "sig"

/-- `createLocalJWKSet`: the one key that the header selects. -/
def getKey (keys : List (Jwk PublicKey)) (header : AccessTokenHeader) : Option (Jwk PublicKey) :=
  match keys.filter (selects header) with
  | [jwk] => some jwk
  | _ => none

def toClaims (payload : AccessTokenPayload) : AccessTokenClaims where
  identityPublicId := payload.sub
  tokenId := payload.jti
  familyId := payload.sid
  role := payload.role
  email := payload.email
  phoneNumber := payload.phone_number

/-- `payload.exp <= now - tolerance` is expired. -/
def AccessTokenPayload.expired (payload : AccessTokenPayload) (now : Nat) : Bool :=
  decide (payload.exp + ACCESS_TOKEN_CLOCK_TOLERANCE_SECONDS ≤ epoch now)

namespace AccessTokenVerifierService

/-- `none` is `UnauthorizedException('Invalid access token')`. -/
def verifySignature (keys : List (Jwk PublicKey)) (token : AccessToken Signature) (now : Nat) :
    Option AccessTokenClaims :=
  if token.header.alg != ACCESS_TOKEN_ALGORITHM then none
  else
    match getKey keys token.header with
    | none => none
    | some jwk =>
      if !jose.verifies jwk.key (token.header, token.payload) token.signature then none
      else if token.payload.iss != ACCESS_TOKEN_ISSUER then none
      else if token.payload.expired now then none
      else some (toClaims token.payload)

end AccessTokenVerifierService

section
variable {jose} {keys : List (Jwk PublicKey)} {jwk : Jwk PublicKey} {privateKey : PrivateKey} {identity : Identity}
  {tokenId familyId : Uuid} {issuedAt now : Nat}

/-- A token is good for fifteen minutes and the tolerance from the second it was signed in. -/
theorem expired_iff : (TokenService.payload identity tokenId familyId issuedAt).expired now = true ↔
    issuedAt / 1000 + 905 ≤ now / 1000 := by
  unfold AccessTokenPayload.expired
  rw [decide_eq_true_eq]
  change issuedAt / 1000 + 900 + 5 ≤ now / 1000 ↔ _
  omega

/-- A verified token is not expired. -/
theorem verifySignature_live {token : AccessToken Signature} {claims : AccessTokenClaims}
    (h : AccessTokenVerifierService.verifySignature jose keys token now = some claims) :
    token.payload.expired now = false := by
  unfold AccessTokenVerifierService.verifySignature at h
  split at h
  · cases h
  · split at h
    · cases h
    · split at h
      · cases h
      · split at h
        · cases h
        · split at h
          · cases h
          · rename_i hlive
            simpa using hlive

theorem verifySignature_signed {header : AccessTokenHeader} {payload : AccessTokenPayload}
    (halg : header.alg = ACCESS_TOKEN_ALGORITHM) (hkey : getKey keys header = some jwk)
    (hpublic : jwk.key = jose.publicKeyOf privateKey) (hiss : payload.iss = ACCESS_TOKEN_ISSUER)
    (hlive : payload.expired now = false) : AccessTokenVerifierService.verifySignature jose keys
      ⟨header, payload, jose.sign privateKey (header, payload)⟩ now = some (toClaims payload) := by
  unfold AccessTokenVerifierService.verifySignature
  simp only [halg, hkey, hpublic, hiss, hlive, jose.verifies_sign, bne_self_eq_false, Bool.not_true,
    Bool.false_eq_true, if_false]

/-- A key set in which the kid of the signing key selects its public key verifies the token. -/
theorem verifySignature_accessToken
    (hkey : getKey keys (TokenService.header (jose.kid privateKey)) = some jwk)
    (hpublic : jwk.key = jose.publicKeyOf privateKey) (hlive : now / 1000 < issuedAt / 1000 + 905) :
    AccessTokenVerifierService.verifySignature jose keys
      (TokenService.accessToken jose privateKey (jose.kid privateKey) identity tokenId familyId issuedAt) now =
      some ⟨identity.publicId, tokenId, familyId, identity.role, identity.email, identity.fullNumber⟩ := by
  have hexpired : (TokenService.payload identity tokenId familyId issuedAt).expired now = false := by
    rw [Bool.eq_false_iff, Ne, expired_iff]
    omega
  exact verifySignature_signed rfl hkey hpublic rfl hexpired

end

end MarketplaceApi.Auth
