import Mathlib.Logic.Function.Basic
import MarketplaceApi.Transition.Run

/-!
# The secret manager

`SecretManagerService` without `SKIP_VAULT`, and any number of overlapping calls of `get`. The
memoised session is a promise of `authenticate`: it can be pending, kept or broken, and stays
in `session` in each case. What a secret is in the vault is the parameter `stored`.
-/
namespace MarketplaceApi.Vault

inductive SecretName where
  | DBPASSWORD
  | DBUSER
  | RABBITMQ_USER
  | RABBITMQ_PASSWORD
  | JWT_PRIVATE_KEY
  | JWT_PUBLIC_KEY
  | REDIS_CACHE_URL
  | REDIS_QUEUE_URL
  | REFRESH_TOKEN_PEPPER
  | GOOGLE_CLIENT_SECRET
  deriving DecidableEq

/-- A promise of `authenticate`; a rejected one knows since when. -/
inductive Login where
  | pending
  | fulfilled
  | rejected (since : Nat)
  deriving DecidableEq

/-- Before and after the `catch` of `get`. -/
inductive Attempt where
  | first
  | retry
  deriving DecidableEq

inductive Phase where
  /-- at `await this.ready()`, for that promise -/
  | waiting (attempt : Attempt) (login : Nat)
  /-- at `await this.readSecret(name)` -/
  | reading (attempt : Attempt)
  /-- the first read was rejected -/
  | caught
  | returned (value : String)
  | thrown
  deriving DecidableEq

/-- `logins` are the promises the call has waited for, `failedReads` when reads of its own failed. -/
structure Call where
  name : SecretName
  startedAt : Nat
  logins : List Nat
  failedReads : List Nat
  phase : Phase
  deriving DecidableEq

/-- `authenticated`: the vault accepts the token of the last login. `now` counts the steps. -/
structure SecretManagerService where
  session : Option Nat
  logins : Nat → Login
  issued : Nat
  authenticated : Bool
  calls : Nat → Option Call
  now : Nat

namespace SecretManagerService

def start : SecretManagerService := ⟨none, fun _ => .pending, 0, false, fun _ => none, 0⟩

def put (s : SecretManagerService) (i : Nat) (call : Call) : SecretManagerService :=
  { s with calls := Function.update s.calls i (some call), now := s.now + 1 }

/-- `this.session ??= this.authenticate()` -/
def ready (s : SecretManagerService) : SecretManagerService × Nat :=
  match s.session with
  | some login => (s, login)
  | none =>
    ({ s with
        session := some s.issued
        logins := Function.update s.logins s.issued .pending
        issued := s.issued + 1 }, s.issued)

def get (s : SecretManagerService) (i : Nat) (name : SecretName) : SecretManagerService :=
  s.ready.1.put i ⟨name, s.now, [s.ready.2], [], .waiting .first s.ready.2⟩

/-- `authenticate` ends; a login that succeeds renews the client's token. -/
def settle (s : SecretManagerService) (login : Nat) (ok : Bool) : SecretManagerService :=
  { s with
    logins := Function.update s.logins login (if ok then .fulfilled else .rejected s.now)
    authenticated := s.authenticated || ok
    now := s.now + 1 }

/-- After `await this.ready()`: the promise was kept, or the call throws. -/
def resume (s : SecretManagerService) (i : Nat) (call : Call) (attempt : Attempt) (login : Nat) :
    SecretManagerService :=
  s.put i { call with phase := if s.logins login = .fulfilled then .reading attempt else .thrown }

def readOk (s : SecretManagerService) (i : Nat) (call : Call) (value : String) : SecretManagerService :=
  s.put i { call with phase := .returned value }

/-- The first failure is caught, the second is thrown. -/
def readFail (s : SecretManagerService) (i : Nat) (call : Call) (attempt : Attempt) : SecretManagerService :=
  s.put i { call with
    failedReads := call.failedReads ++ [s.now]
    phase := if attempt = .first then .caught else .thrown }

/-- The `catch`: `this.session = null; await this.ready()`. -/
def retry (s : SecretManagerService) (i : Nat) (call : Call) : SecretManagerService :=
  let fresh := { s with session := none }.ready
  fresh.1.put i { call with logins := call.logins ++ [fresh.2], phase := .waiting .retry fresh.2 }

end SecretManagerService

inductive Event where
  | get (i : Nat) (name : SecretName)
  | login (login : Nat) (ok : Bool)
  | resume (i : Nat)
  | readOk (i : Nat)
  | readFail (i : Nat)
  | retry (i : Nat)
  | expire
  deriving DecidableEq

/-- The call that goes on after it was begun. -/
def Event.call : Event → Option Nat
  | get _ _ | login _ _ | expire => none
  | resume i | readOk i | readFail i | retry i => some i

/-- A read needs a token the vault accepts; it may fail for any other reason as well. -/
inductive Step (stored : SecretName → String) (s : SecretManagerService) : Event → SecretManagerService → Prop
  | get {i name} : s.calls i = none → Step stored s (.get i name) (s.get i name)
  | login {login ok} : login < s.issued → s.logins login = .pending →
      Step stored s (.login login ok) (s.settle login ok)
  | resume {i call attempt login} : s.calls i = some call → call.phase = .waiting attempt login →
      s.logins login ≠ .pending → Step stored s (.resume i) (s.resume i call attempt login)
  | readOk {i call attempt} : s.calls i = some call → call.phase = .reading attempt → s.authenticated = true →
      Step stored s (.readOk i) (s.readOk i call (stored call.name))
  | readFail {i call attempt} : s.calls i = some call → call.phase = .reading attempt →
      Step stored s (.readFail i) (s.readFail i call attempt)
  | retry {i call} : s.calls i = some call → call.phase = .caught → Step stored s (.retry i) (s.retry i call)
  | expire : Step stored s .expire { s with authenticated := false, now := s.now + 1 }

end MarketplaceApi.Vault
