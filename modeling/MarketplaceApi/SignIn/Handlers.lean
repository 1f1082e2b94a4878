import MarketplaceApi.SignIn.Tables
import MarketplaceApi.Txn.Interleaving

/-!
# Registering, signing in and linking as transactions

The transactions of `IdentityRegisterCommandHandler` and `IdentityOidcSignInCommandHandler`. What the
database and `randomUUID` make up comes with the request.
-/
namespace MarketplaceApi.SignIn

open Txn

/-- `unique` is SQL state 23505. -/
inductive Failure where
  | unique (k : Key)
  | check
  | foreignKey
  | unauthorized
  | emailRegistered
  | linkedToAnother
  deriving DecidableEq

abbrev Program := Prog Key Tables Failure

/-- Values of a new identity and of a new session; `now` is the start of the transaction. -/
structure Generated where
  id : Nat
  publicId : String
  familyId : String
  tokenHash : String
  now : Nat

/-- Whose tokens a response carries: `sub` and `sid` of the access token, and the refresh token. -/
structure IdentityToken where
  identityId : Nat
  sub : String
  sid : String
  tokenHash : String
  deriving DecidableEq

/-- `OidcIdentityInterface` -/
structure OidcIdentity where
  subject : String
  email : Option String
  emailVerified : Bool
  deriving DecidableEq

structure IdentityRegisterInput where
  email : Option String
  loginPhone : LoginPhone

namespace IdentityRepository

def create (row : Identity) : Program Unit :=
  if row.allowed then Prog.insertRow Row.keys .unique (.identity row) else .throw .check

def findById (id : Nat) : Program (Option Identity) := Prog.look fun s => findIdentity s fun row => row.id == id

def findByPublicId (publicId : String) : Program (Option Identity) :=
  Prog.look fun s => findIdentity s fun row => row.publicId == publicId

def findByEmail (email : String) : Program (Option Identity) :=
  Prog.look fun s => findIdentity s fun row => row.email.map citext == some (citext email)

/-- The check of a foreign key, which sees soft-deleted rows too. -/
def rowExists (id : Nat) : Program Bool :=
  Prog.look fun s => s.rows.any fun row => (row.identity?.map Identity.id) == some id

end IdentityRepository

namespace IdentityExternalAccountRepository

def create (row : IdentityExternalAccount) : Program Unit := do
  if !row.allowed then
    .throw .check
  else if ← IdentityRepository.rowExists row.identityId then
    Prog.insertRow Row.keys .unique (.account row)
  else
    .throw .foreignKey

def findByProviderSubject (provider : IdentityProvider) (subject : String) :
    Program (Option IdentityExternalAccount) :=
  Prog.look fun s => findAccount s fun row => row.provider == provider && row.subject == subject

end IdentityExternalAccountRepository

namespace IdentityOutboxRepository

def create (row : IdentityOutbox) : Program Unit := Prog.insertRow Row.keys .unique (.outbox row)

end IdentityOutboxRepository

namespace IdentityMessageService

def toIdentityRegisteredOutbox (identity : Identity) : IdentityOutbox where
  id := identity.publicId
  topic := Provisioning.IdentityRegisteredEvent.TOPIC
  aggregateType := "Identity"
  aggregateId := identity.publicId
  type := Provisioning.IdentityRegisteredEvent.TYPE
  payload :=
    { identityId := identity.id
      identityPublicId := identity.publicId
      email := identity.email
      phoneNumber := identity.loginPhone.fullNumber
      role := identity.role.text
      createdAt := identity.createdAt }

end IdentityMessageService

namespace TokenService

def createTokenPair (gen : Generated) (identity : Identity) : Program IdentityToken := do
  if ← IdentityRepository.rowExists identity.id then
    Prog.insertRow Row.keys .unique (.session ⟨identity.id, gen.familyId, gen.tokenHash⟩)
    return ⟨identity.id, identity.publicId, gen.familyId, gen.tokenHash⟩
  else
    .throw .foreignKey

end TokenService

namespace IdentityRegisterCommandHandler

def identity (gen : Generated) (input : IdentityRegisterInput) (passwordHash : String) : Identity where
  id := gen.id
  publicId := gen.publicId
  email := input.email
  loginPhone := input.loginPhone
  passwordHash := some passwordHash
  role := .user
  createdAt := gen.now

def register (gen : Generated) (input : IdentityRegisterInput) (passwordHash : String) : Program IdentityToken := do
  let identity := identity gen input passwordHash
  IdentityRepository.create identity
  IdentityOutboxRepository.create (IdentityMessageService.toIdentityRegisteredOutbox identity)
  TokenService.createTokenPair gen identity

end IdentityRegisterCommandHandler

namespace IdentityOidcSignInCommandHandler

/-- The identity that a sign-up creates. -/
def identity (gen : Generated) (email : String) : Identity where
  id := gen.id
  publicId := gen.publicId
  email := some email
  loginPhone := ⟨none, none, none, none⟩
  passwordHash := none
  role := .user
  createdAt := gen.now

def signIn (gen : Generated) (provider : IdentityProvider) (external : OidcIdentity) (email : String) :
    Program IdentityToken := do
  match ← IdentityExternalAccountRepository.findByProviderSubject provider external.subject with
  | some account =>
    match ← IdentityRepository.findById account.identityId with
    | none => .throw .unauthorized
    | some identity => TokenService.createTokenPair gen identity
  | none =>
    match ← IdentityRepository.findByEmail email with
    | some _ => .throw .emailRegistered
    | none =>
      let identity := identity gen email
      IdentityRepository.create identity
      IdentityExternalAccountRepository.create ⟨identity.id, provider, external.subject⟩
      IdentityOutboxRepository.create (IdentityMessageService.toIdentityRegisteredOutbox identity)
      TokenService.createTokenPair gen identity

def link (gen : Generated) (provider : IdentityProvider) (external : OidcIdentity) (identityPublicId : String) :
    Program IdentityToken := do
  match ← IdentityRepository.findByPublicId identityPublicId with
  | none => .throw .unauthorized
  | some identity =>
    match ← IdentityExternalAccountRepository.findByProviderSubject provider external.subject with
    | some account =>
      if account.identityId != identity.id then .throw .linkedToAnother
      else TokenService.createTokenPair gen identity
    | none =>
      IdentityExternalAccountRepository.create ⟨identity.id, provider, external.subject⟩
      TokenService.createTokenPair gen identity

end IdentityOidcSignInCommandHandler

inductive Request where
  | register (gen : Generated) (input : IdentityRegisterInput) (passwordHash : String)
  | signIn (gen : Generated) (provider : IdentityProvider) (external : OidcIdentity) (email : String)
  | link (gen : Generated) (provider : IdentityProvider) (external : OidcIdentity) (identityPublicId : String)

def Request.gen : Request → Generated
  | .register gen .. => gen
  | .signIn gen .. => gen
  | .link gen .. => gen

/-- The external account a callback is about. -/
def Request.external? : Request → Option (IdentityProvider × String)
  | .register .. => none
  | .signIn _ provider external _ => some (provider, external.subject)
  | .link _ provider external _ => some (provider, external.subject)

def handler : Request → Program IdentityToken
  | .register gen input passwordHash => IdentityRegisterCommandHandler.register gen input passwordHash
  | .signIn gen provider external email => IdentityOidcSignInCommandHandler.signIn gen provider external email
  | .link gen provider external identityPublicId =>
    IdentityOidcSignInCommandHandler.link gen provider external identityPublicId

end MarketplaceApi.SignIn
