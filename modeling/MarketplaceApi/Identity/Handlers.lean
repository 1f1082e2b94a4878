import MarketplaceApi.Identity.Tables
import MarketplaceApi.Txn.Interleaving

/-!
# Sign-in, refresh and revocation as transactions

`now()` in SQL is the start of the transaction, so every request carries its `start`; the
`Date` that `consume` compares with and the expiry of a new session come from the
application's clock and are arbitrary. The advisory lock of a family is on a hash, a parameter, and
two families may share it; the locks of a family's rows are one, `family`.
-/
namespace MarketplaceApi.Identity

open Txn

inductive Lock where
  | advisory (key : Int)
  | family (familyId : Uuid)
  | token (tokenHash : TokenHash)
  | identity (id : Nat)
  deriving DecidableEq

/-- The violated constraints, the refused sign-in, and the repeated `randomUUID` that is left out. -/
inductive Failure where
  | expiresAtOrder
  | usedAtOrder
  | revokedAtOrder
  | tokenHashKey
  | identityKey
  | foreignKey
  | unauthorized
  | familyTaken
  deriving DecidableEq

/-- The random parts of a token pair: the hash of the new refresh token and its expiry. -/
structure NewToken where
  tokenHash : TokenHash
  expiresAt : Nat
  deriving DecidableEq

/-- Whom a sign-in is for: an identity found by its login, or one the same transaction creates. -/
inductive SignIn where
  | found (identityId : Nat)
  | created (identityId : Nat)
  deriving DecidableEq

/-- `IdentitySessionConsumedInterface`. -/
structure IdentitySessionConsumed where
  identityId : Nat
  familyId : Uuid

inductive Request where
  | refresh (start readAt : Nat) (presented : TokenHash) (next : NewToken)
  | reuse (start : Nat) (presented : TokenHash) (familyId : Uuid)
  | logout (start : Nat) (presented : TokenHash) (familyId : Uuid)
  | signIn (start : Nat) (who : SignIn) (familyId : Uuid) (next : NewToken)
  deriving DecidableEq

inductive Status where
  | pair (tokenHash : TokenHash)
  | invalid
  | revoked
  deriving DecidableEq

abbrev Program := Prog Lock Tables Failure

namespace IdentityRepository

/-- A soft-deleted identity is not found. -/
def findById (id : Nat) : Program Bool := Prog.look fun s => s.identities id == some false

def create (id : Nat) : Program Unit :=
  Prog.exec [.identity id] fun s =>
    if (s.identities id).isNone then .ok (s.addIdentity id, ()) else .error .identityKey

end IdentityRepository

def IdentitySession.consume (x : IdentitySession) (tokenHash : TokenHash) (now : Nat) : IdentitySession :=
  if x.tokenHash = tokenHash then { x with usedAt := some now } else x

def IdentitySession.revoke (x : IdentitySession) (familyId : Uuid) (now : Nat) : IdentitySession :=
  if x.familyId = familyId ∧ x.revokedAt = none then { x with revokedAt := some now } else x

@[simp] theorem consume_tokenHash (x : IdentitySession) (tokenHash : TokenHash) (now : Nat) :
    (x.consume tokenHash now).tokenHash = x.tokenHash := by
  unfold IdentitySession.consume
  split <;> rfl

@[simp] theorem revoke_tokenHash (x : IdentitySession) (familyId : Uuid) (now : Nat) :
    (x.revoke familyId now).tokenHash = x.tokenHash := by
  unfold IdentitySession.revoke
  split <;> rfl

namespace IdentitySessionRepository

def findByTokenHash (tokenHash : TokenHash) : Program (Option IdentitySession) :=
  Prog.look fun s => s.find tokenHash

/-- `SELECT pg_advisory_xact_lock(hashtextextended($1, 0))`; `hash` is that of `identity-session-family:`
with the id. -/
def lockFamily (hash : Uuid → Int) (familyId : Uuid) : Program Unit :=
  Prog.exec [.advisory (hash familyId)] fun s => .ok (s, ())

def create (start identityId : Nat) (familyId : Uuid) (next : NewToken) : Program Unit := do
  if ← Prog.look fun s => (s.identities identityId).isNone then
    .throw .foreignKey
  else
    Prog.exec [.family familyId, .token next.tokenHash] fun s =>
      if h : s.find next.tokenHash = none then
        if start < next.expiresAt then
          .ok (s.insert ⟨identityId, familyId, next.tokenHash, next.expiresAt, none, none, start⟩ h, ())
        else .error .expiresAtOrder
      else .error .tokenHashKey

/-- `UPDATE … SET "usedAt" = now() WHERE "tokenHash" = $1 AND "usedAt" IS NULL AND "revokedAt" IS NULL
AND "expiresAt" > $2 RETURNING "identityId", "familyId"`; `familyId` only names the lock. -/
def consume (start readAt : Nat) (tokenHash : TokenHash) (familyId : Uuid) :
    Program (Option IdentitySessionConsumed) :=
  Prog.exec [.family familyId] fun s =>
    match s.find tokenHash with
    | some x =>
      if x.live && decide (readAt < x.expiresAt) then
        if x.createdAt ≤ start then
          .ok (s.update (fun x => x.consume tokenHash start) (by simp), some ⟨x.identityId, x.familyId⟩)
        else .error .usedAtOrder
      else .ok (s, none)
    | none => .ok (s, none)

/-- `UPDATE … SET "revokedAt" = now() WHERE "familyId" = $1 AND "revokedAt" IS NULL`, under its CHECK. -/
def revokeFamily (start : Nat) (familyId : Uuid) : Program Unit :=
  Prog.exec [.family familyId] fun s =>
    if (s.family familyId).any fun x => x.revokedAt.isNone && decide (start < x.createdAt) then
      .error .revokedAtOrder
    else .ok (s.update (fun x => x.revoke familyId start) (by simp), ())

/-- A `randomUUID()` for a new family is one no session has. -/
def freshFamily (familyId : Uuid) : Program Unit :=
  Prog.exec [.family familyId] fun s =>
    if (s.family familyId).isEmpty then .ok (s, ()) else .error .familyTaken

end IdentitySessionRepository

namespace TokenService

def createTokenPair (start identityId : Nat) (familyId : Uuid) (next : NewToken) : Program Status := do
  IdentitySessionRepository.create start identityId familyId next
  return .pair next.tokenHash

end TokenService

namespace IdentityRefreshCommandHandler

def rotate (hash : Uuid → Int) (start readAt : Nat) (tokenHash : TokenHash) (next : NewToken) :
    Program Status := do
  match ← IdentitySessionRepository.findByTokenHash tokenHash with
  | none => return .invalid
  | some presented =>
    IdentitySessionRepository.lockFamily hash presented.familyId
    match ← IdentitySessionRepository.consume start readAt tokenHash presented.familyId with
    | none => return .invalid
    | some session =>
      if ← IdentityRepository.findById session.identityId then
        TokenService.createTokenPair start session.identityId session.familyId next
      else
        return .invalid

def revokeFamily (hash : Uuid → Int) (start : Nat) (familyId : Uuid) : Program Status := do
  IdentitySessionRepository.lockFamily hash familyId
  IdentitySessionRepository.revokeFamily start familyId
  return .revoked

end IdentityRefreshCommandHandler

namespace IdentityLogoutCommandHandler

def revokeFamily (hash : Uuid → Int) (start : Nat) (familyId : Uuid) : Program Status := do
  IdentitySessionRepository.lockFamily hash familyId
  IdentitySessionRepository.revokeFamily start familyId
  return .revoked

end IdentityLogoutCommandHandler

/-- The end of register, login and both ways through an OIDC sign-in: a token pair of a new family. -/
def signIn (start : Nat) (who : SignIn) (familyId : Uuid) (next : NewToken) : Program Status := do
  IdentitySessionRepository.freshFamily familyId
  match who with
  | .found identityId =>
    if ← IdentityRepository.findById identityId then
      TokenService.createTokenPair start identityId familyId next
    else
      .throw .unauthorized
  | .created identityId =>
    IdentityRepository.create identityId
    TokenService.createTokenPair start identityId familyId next

def handler (hash : Uuid → Int) : Request → Program Status
  | .refresh start readAt presented next =>
    IdentityRefreshCommandHandler.rotate hash start readAt presented next
  | .reuse start _ familyId => IdentityRefreshCommandHandler.revokeFamily hash start familyId
  | .logout start _ familyId => IdentityLogoutCommandHandler.revokeFamily hash start familyId
  | .signIn start who familyId next => signIn start who familyId next

/-- When a request may begin its transaction: at the clock's time; a revocation after its
`execute` found the presented token in that family, used already if the refresh was refused. -/
def Allowed (s : Tables) : Request → Prop
  | .refresh start _ _ _ => start = s.clock
  | .reuse start presented familyId => start = s.clock ∧ ∃ x ∈ s.sessions,
      x.tokenHash = presented ∧ x.familyId = familyId ∧ x.usedAt.isSome
  | .logout start presented familyId => start = s.clock ∧ ∃ x ∈ s.sessions,
      x.tokenHash = presented ∧ x.familyId = familyId
  | .signIn start _ _ _ => start = s.clock

/-- Time passes; an identity may be soft-deleted or restored. -/
def Env (s s' : Tables) : Prop :=
  s.clock ≤ s'.clock ∧ s'.sessions = s.sessions ∧
    ∀ id, (s'.identities id).isSome = (s.identities id).isSome

end MarketplaceApi.Identity
