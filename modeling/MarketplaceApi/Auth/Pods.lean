import MarketplaceApi.Auth.Keys
import MarketplaceApi.Reload.Reads

/-!
# Pods that reload their keys

Each pod re-reads both secrets on its own timers. Nothing keeps two reloads of one secret from
being under way together, so a read of the vault and what it leads to are two steps. The operator
moves the vault through the documented stages.
-/
namespace MarketplaceApi.Auth

open Reload

variable {PrivateKey PublicKey Signature : Type} {jose : Jose PrivateKey PublicKey Signature}

structure Pod (jose : Jose PrivateKey PublicKey Signature) where
  keys : JwtVerificationKeysService PublicKey
  tokens : TokenService PrivateKey
  publicReads : List (Read (List String))
  privateReads : List (Read String)

inductive PodEvent where
  | readPublicKeys
  | loadPublicKeys (n : Nat)
  | failPublicKeys (n : Nat)
  | readPrivateKey
  | loadPrivateKey (n : Nat)
  | failPrivateKey (n : Nat)

/-- A pod while the vault holds `blocks` and `pem`. A failure may strike a reload at any point. -/
inductive PodStep (blocks : List String) (pem : String) (now : Nat) : Pod jose → PodEvent → Pod jose → Prop
  | readPublicKeys {p} : PodStep blocks pem now p .readPublicKeys { p with publicReads := start blocks p.publicReads }
  | loadPublicKeys {p n r} : p.publicReads[n]? = some r → PodStep blocks pem now p (.loadPublicKeys n)
      { p with
        keys := JwtVerificationKeysService.refresh jose r.value now p.keys
        publicReads := finish n p.publicReads }
  | failPublicKeys {p n} : PodStep blocks pem now p (.failPublicKeys n) { p with publicReads := fail n p.publicReads }
  | readPrivateKey {p} : PodStep blocks pem now p .readPrivateKey { p with privateReads := start pem p.privateReads }
  | loadPrivateKey {p n r} : p.privateReads[n]? = some r → PodStep blocks pem now p (.loadPrivateKey n)
      { p with
        tokens := TokenService.refreshSigningKey jose p.keys.loadedKids r.value now p.tokens
        privateReads := finish n p.privateReads }
  | failPrivateKey {p n} : PodStep blocks pem now p (.failPrivateKey n) { p with privateReads := fail n p.privateReads }

/-- The reload that takes effect was not overtaken by one that read the vault later. -/
def Pod.InOrder (p : Pod jose) : PodEvent → Prop
  | .loadPublicKeys n => ∀ r, p.publicReads[n]? = some r → r.overtaken = false
  | .loadPrivateKey n => ∀ r, p.privateReads[n]? = some r → r.overtaken = false
  | _ => True

/-- The reload fails, before or after the vault answered. -/
def Pod.Fails (p : Pod jose) (now : Nat) : PodEvent → Prop
  | .failPublicKeys _ | .failPrivateKey _ => True
  | .loadPublicKeys n => ∀ r, p.publicReads[n]? = some r →
      JwtVerificationKeysService.load jose r.value now p.keys = none
  | .loadPrivateKey n => ∀ r, p.privateReads[n]? = some r →
      TokenService.loadSigningKey jose p.keys.loadedKids r.value now p.tokens = none
  | _ => False

/-- A pod that came up with the keys of `k`. -/
def Pod.boot (k : KeyPair jose) (now : Nat) : Pod jose where
  keys := ⟨[k.jwk], [k.kid], [k.jwk], [(now, [k.kid])]⟩
  tokens := ⟨k.privateKey, k.kid, [(now, .signingKey k.kid)]⟩
  publicReads := []
  privateReads := []

/-- Where the operator is. -/
inductive Stage (jose : Jose PrivateKey PublicKey Signature) where
  | stable (k : KeyPair jose)
  | published (k next : KeyPair jose)
  | switched (k next : KeyPair jose)

namespace Stage

/-- The keys in `JWT_PUBLIC_KEY`. -/
def keys : Stage jose → List (KeyPair jose)
  | stable k => [k]
  | published k next => [k, next]
  | switched k next => [k, next]

/-- The key in `JWT_PRIVATE_KEY`. -/
def signing : Stage jose → KeyPair jose
  | stable k => k
  | published k _ => k
  | switched _ next => next

/-- The keys that pods sign with, and that live tokens are signed with. -/
def signers : Stage jose → List (KeyPair jose)
  | stable k => [k]
  | published k _ => [k]
  | switched k next => [k, next]

end Stage

/-- What a pod signed, with what, and when. -/
structure Issued (ι PrivateKey : Type) where
  pod : ι
  privateKey : PrivateKey
  keyId : String
  identity : Identity
  tokenId : Uuid
  familyId : Uuid
  issuedAt : Nat

def Issued.token {ι : Type} (jose : Jose PrivateKey PublicKey Signature) (x : Issued ι PrivateKey) :
    AccessToken Signature :=
  TokenService.accessToken jose x.privateKey x.keyId x.identity x.tokenId x.familyId x.issuedAt

def Issued.claims {ι : Type} (x : Issued ι PrivateKey) : AccessTokenClaims :=
  ⟨x.identity.publicId, x.tokenId, x.familyId, x.identity.role, x.identity.email, x.identity.fullNumber⟩

/-- `used` are the kids of all keys that were ever published. -/
structure World (ι : Type) (jose : Jose PrivateKey PublicKey Signature) where
  now : Nat
  stage : Stage jose
  used : List String
  pods : ι → Pod jose
  issued : List (Issued ι PrivateKey)

inductive Event (ι : Type) (jose : Jose PrivateKey PublicKey Signature) where
  | tick (d : Nat)
  | pod (i : ι) (ev : PodEvent)
  | issue (i : ι) (identity : Identity) (tokenId familyId : Uuid)
  | publish (next : KeyPair jose)
  | switch
  | drop

section
variable {ι : Type} [DecidableEq ι]

def World.start (k : KeyPair jose) (now : Nat) (booted : ι → Nat) : World ι jose :=
  ⟨now, .stable k, [k.kid], fun i => .boot k (booted i), []⟩

def World.setPod (w : World ι jose) (i : ι) (p : Pod jose) : World ι jose :=
  { w with pods := Function.update w.pods i p }

/-- `switch` waits until every pod has logged both keys, `drop` until 15 min + 5 s after the last
one logged the new signing key. -/
inductive Step : World ι jose → Event ι jose → World ι jose → Prop
  | tick {w d} : Step w (.tick d) { w with now := w.now + d }
  | pod {w i ev p} : PodStep (w.stage.keys.map KeyPair.publicPem) w.stage.signing.privatePem w.now (w.pods i) ev p →
      Step w (.pod i ev) (w.setPod i p)
  | issue {w i identity tokenId familyId} : Step w (.issue i identity tokenId familyId)
      { w with issued := ⟨i, (w.pods i).tokens.privateKey, (w.pods i).tokens.keyId, identity, tokenId, familyId,
          w.now⟩ :: w.issued }
  | publish {w k next} : w.stage = .stable k → next.kid ∉ w.used →
      Step w (.publish next) { w with stage := .published k next, used := next.kid :: w.used }
  | switch {w k next} : w.stage = .published k next → (∀ i, ∃ t, (t, [k.kid, next.kid]) ∈ (w.pods i).keys.log) →
      Step w .switch { w with stage := .switched k next }
  | drop {w k next} : w.stage = .switched k next →
      (∀ i, ∃ t, (t, .signingKey next.kid) ∈ (w.pods i).tokens.log ∧
        t + (ACCESS_TOKEN_TTL_SECONDS + ACCESS_TOKEN_CLOCK_TOLERANCE_SECONDS) * 1000 ≤ w.now) →
      Step w .drop { w with stage := .stable next }

end

end MarketplaceApi.Auth
