import MarketplaceApi.Auth.Token
import MarketplaceApi.Identity.Revocation

/-!
# The denylist of revoked families

Logout and reuse detection revoke a family in the tables and then deny it in Redis, which every
verification of an access token asks after the signature. Pods read clocks of their own, a `SET` may be
executed after its caller gave up, and Redis keeps a key for its TTL. Times are milliseconds.
-/
namespace MarketplaceApi.Denylist

open Auth
open Identity (Lock Tables Failure Status Request system)

abbrev Database := Txn.Config Lock Tables Failure Status Request

/-- Families with a key in Redis, and when the key expires. -/
abbrev DeniedFamilies := Uuid → Option Nat

namespace AccessTokenDenylistService

def deniedTtlSeconds : Nat := ACCESS_TOKEN_TTL_SECONDS + ACCESS_TOKEN_CLOCK_TOLERANCE_SECONDS

/-- `SET denied-family:… 1 EX …` -/
def set (denied : DeniedFamilies) (now : Nat) (familyId : Uuid) : DeniedFamilies :=
  Function.update denied familyId (some (now + deniedTtlSeconds * 1000))

/-- `EXISTS denied-family:…` -/
def isDenied (denied : DeniedFamilies) (now : Nat) (familyId : Uuid) : Bool :=
  (denied familyId).any fun expiresAt => decide (now < expiresAt)

/-- `answer` is what Redis said in time, if anything; `none` is a 503. -/
def isFamilyDenied (failOpen : Bool) (answer : Option Bool) : Option Bool :=
  answer.orElse fun _ => if failOpen then some false else none

end AccessTokenDenylistService

open AccessTokenDenylistService (deniedTtlSeconds isDenied isFamilyDenied)

/-- A token with the time at which it was signed. -/
structure Issued (Signature : Type) where
  token : AccessToken Signature
  signedAt : Nat

/-- Where a request is: revoking a family, or verifying a token whose signature was good at `checkedAt`. `asked` keeps
what Redis found when it executed the `EXISTS`. -/
inductive Call (Signature : Type) where
  | idle
  | transacting
  | revoked (familyId : Uuid)
  | denying (familyId : Uuid)
  | denied (familyId : Uuid)
  | checking (issued : Issued Signature) (checkedAt : Nat)
  | asked (issued : Issued Signature) (checkedAt : Nat) (denied : Bool)

/-- `late` are `SET`s that nobody waits for. `finished` and `unrecorded` only record the families whose
revocation was answered, and those it was answered for without Redis. -/
structure World (Signature : Type) where
  db : Database
  now : Nat
  denied : DeniedFamilies
  late : List Uuid
  tokens : List (Issued Signature)
  calls : Nat → Call Signature
  finished : List Uuid
  unrecorded : List Uuid

inductive Event (Signature : Type) where
  | tick (now : Nat)
  | tx (event : Txn.Event Request)
  | issue (n : Nat) (issued : Issued Signature)
  | deny (n : Nat)
  | set (n : Nat)
  | finish (n : Nat)
  | giveUp (n : Nat)
  | crash (n : Nat)
  | land (familyId : Uuid)
  | check (n : Nat) (issued : Issued Signature)
  | lookup (n : Nat)
  | verdict (n : Nat) (answer : Option Bool)

variable {PrivateKey PublicKey Signature : Type}

def World.start (s : Tables) (now : Nat) : World Signature :=
  ⟨.start s, now, fun _ => none, [], [], fun _ => .idle, [], []⟩

def World.put (w : World Signature) (n : Nat) (call : Call Signature) : World Signature :=
  { w with calls := Function.update w.calls n call }

/-- The family a request in `denyFamily` is about. -/
def Call.denies : Call Signature → Option Uuid
  | .revoked familyId => some familyId
  | .denying familyId => some familyId
  | .denied familyId => some familyId
  | _ => none

/-- The `SET` that a call leaves behind. -/
def Call.leaves : Call Signature → List Uuid
  | .denying familyId => [familyId]
  | _ => []

/-- The call verifies the token, before or after Redis executed its `EXISTS`. -/
def Call.Verifies (issued : Issued Signature) (checkedAt : Nat) (call : Call Signature) : Prop :=
  call = .checking issued checkedAt ∨ ∃ denied, call = .asked issued checkedAt denied

/-- What comes after the transaction of a request. -/
def next : Request → Call Signature
  | .reuse _ _ familyId => .revoked familyId
  | .logout _ _ familyId => .revoked familyId
  | _ => .idle

/-- What a step of a transaction means for its call. An aborted one may be tried again. -/
def settle (w : World Signature) : Txn.Event Request → Nat → Call Signature
  | .begin n _ => Function.update w.calls n .transacting
  | .commit n => Function.update w.calls n ((w.db.txs n).elim .idle fun t => next t.request)
  | .rollback n => Function.update w.calls n .idle
  | _ => w.calls

section
variable (jose : Jose PrivateKey PublicKey Signature) (hash : Identity.Uuid → Int) (failOpen : Bool)
  (ahead behind : Nat)

/-- A token of `createTokenPair`, signed with some key at a pod's clock. -/
def Signed (issued : Issued Signature) : Prop :=
  ∃ privateKey keyId identity tokenId familyId clock, clock ≤ issued.signedAt + ahead ∧
    issued.token = TokenService.accessToken jose privateKey keyId identity tokenId familyId clock

/-- A signing pod's clock is at most `ahead` of the time, a verifying pod's at most `behind`. -/
inductive Step : World Signature → Event Signature → World Signature → Prop
  | tick {w now} : w.now ≤ now → Step w (.tick now) { w with now := now }
  | tx {w e db} : Txn.Step (system hash) w.db e db → (∀ n q, e = .begin n q → w.calls n = .idle) →
      Step w (.tx e) { w with db := db, calls := settle w e }
  /-- The commit whose token pair is answered. A login inserts its session without a transaction; nobody
  knows of the family before the answer. -/
  | issue {w n db q tokenHash issued} : Txn.Step (system hash) w.db (.commit n) db →
      db.answers = (q, .ok (.pair tokenHash)) :: w.db.answers → Signed jose ahead issued → issued.signedAt ≤ w.now →
      (∃ x ∈ db.db.sessions, x.tokenHash = tokenHash ∧ x.familyId = issued.token.payload.sid) →
      Step w (.issue n issued) { w with
        db := db, calls := settle w (.commit n), tokens := issued :: w.tokens }
  | deny {w n familyId} : w.calls n = .revoked familyId → Step w (.deny n) (w.put n (.denying familyId))
  | set {w n familyId} : w.calls n = .denying familyId → Step w (.set n) { w.put n (.denied familyId) with
      denied := AccessTokenDenylistService.set w.denied w.now familyId }
  | finish {w n familyId} : w.calls n = .denied familyId →
      Step w (.finish n) { w.put n .idle with finished := familyId :: w.finished }
  /-- Redis is not ready, fails or does not answer in time. -/
  | giveUp {w n familyId} : (w.calls n).denies = some familyId →
      Step w (.giveUp n) { w.put n .idle with
        late := (w.calls n).leaves ++ w.late
        finished := if failOpen then familyId :: w.finished else w.finished
        unrecorded := if failOpen then familyId :: w.unrecorded else w.unrecorded }
  | crash {w n} : w.db.txs n = none →
      Step w (.crash n) { w.put n .idle with late := (w.calls n).leaves ++ w.late }
  | land {w familyId} : familyId ∈ w.late → Step w (.land familyId) { w with
      late := w.late.erase familyId, denied := AccessTokenDenylistService.set w.denied w.now familyId }
  /-- `verifySignature` accepts the token. -/
  | check {w n issued keys clock claims} : w.calls n = .idle → issued ∈ w.tokens → w.now ≤ clock + behind →
      AccessTokenVerifierService.verifySignature jose keys issued.token clock = some claims →
      Step w (.check n issued) (w.put n (.checking issued w.now))
  | lookup {w n issued checkedAt} : w.calls n = .checking issued checkedAt →
      Step w (.lookup n) (w.put n (.asked issued checkedAt (isDenied w.denied w.now issued.token.payload.sid)))
  /-- The answer of the `EXISTS` is here, or Redis is not ready, fails or does not answer in time. -/
  | verdict {w n issued checkedAt answer} : (w.calls n).Verifies issued checkedAt →
      (∀ b, answer = some b → w.calls n = .asked issued checkedAt b) → Step w (.verdict n answer) (w.put n .idle)

end

end MarketplaceApi.Denylist
