import MarketplaceApi.SignIn.Commit

/-!
# Sign-in attempts between browsers, Redis and the tables

An attempt is stored under its random state and taken by the callback that presents this state in
its query and its cookie. A `SET` may be executed late or never; a stored attempt can go at any
time, by its TTL or by a `GETDEL` nobody waits for. The provider answers an exchange with any identity.
-/
namespace MarketplaceApi.SignIn

open Txn

/-- What changes outside every lock: soft deletions. -/
def Env (s s' : Tables) : Prop := s'.rows = s.rows

def signIns : System Key Tables Failure IdentityToken Request where
  isolation := isolation
  handler := handler
  allowed _ _ := True
  env := Env
  safe := safe_handler
  env_part h k := congrArg (fun rows => List.filter (fun row => decide (k ∈ Row.keys row)) rows) h
  env_le h := (List.Sublist.refl _).trans (h ▸ List.Sublist.refl _)

abbrev Database := Config Key Tables Failure IdentityToken Request

/-- `OidcSignInAttemptInterface` -/
structure OidcSignInAttempt where
  provider : IdentityProvider
  state : String
  nonce : String
  codeVerifier : String
  linkIdentityPublicId : Option String
  deriving DecidableEq

namespace PasswordService

/-- `argon2` is the library's `verify`. -/
def verify (argon2 : String → String → Bool) (dummyHash : String) (passwordHash : Option String)
    (password : String) : Bool :=
  let hash := (passwordHash.filter fun hash => "$argon2".isPrefixOf hash).getD dummyHash
  passwordHash.isSome && argon2 hash password

end PasswordService

namespace IdentityOidcSignInCommandHandler

/-- `!state || state !== browserState` refuses. -/
def checkedState (state browserState : Option String) : Option String :=
  state.filter fun state => state != "" && browserState == some state

/-- `!attempt || attempt.provider !== provider` refuses. -/
def checkedAttempt (provider : IdentityProvider) (attempt : Option OidcSignInAttempt) : Option OidcSignInAttempt :=
  attempt.filter fun attempt => attempt.provider == provider

/-- `!external.email || !external.emailVerified` refuses. -/
def verifiedEmail (external : OidcIdentity) : Option String :=
  external.email.filter fun email => email != "" && external.emailVerified

/-- The transaction `execute` ends with. -/
def request (gen : Generated) (provider : IdentityProvider) (attempt : OidcSignInAttempt) (external : OidcIdentity)
    (email : String) : Request :=
  match attempt.linkIdentityPublicId.filter fun publicId => publicId != "" with
  | some identityPublicId => .link gen provider external identityPublicId
  | none => .signIn gen provider external email

end IdentityOidcSignInCommandHandler

/-- Where a request of a browser is. -/
inductive Call where
  | idle
  | registering
  | saving (attempt : OidcSignInAttempt)
  | taking (provider : IdentityProvider) (state : String) (browserState : Option String)
  | taken (provider : IdentityProvider) (browserState : Option String) (attempt : OidcSignInAttempt)
  | exchanging (provider : IdentityProvider) (browserState : Option String) (attempt : OidcSignInAttempt)
  | transacting (provider : IdentityProvider) (browserState : Option String) (attempt : OidcSignInAttempt)
      (external : OidcIdentity) (email : String)

/-- `sets` are the `SET`s that Redis may still execute. `drawn` and `taken` only record the states
that were drawn, and those whose attempt a callback took. -/
structure World where
  db : Database
  attempts : String → Option OidcSignInAttempt
  sets : List OidcSignInAttempt
  calls : Nat → Call
  drawn : List String
  taken : List String

inductive Event where
  | authorize (n : Nat) (attempt : OidcSignInAttempt)
  | link (n : Nat) (identityPublicId password : String) (attempt : OidcSignInAttempt)
  | set (attempt : OidcSignInAttempt)
  | redirect (n : Nat)
  | callback (n : Nat) (provider : IdentityProvider) (state browserState : Option String)
  | take (n : Nat)
  | exchange (n : Nat) (attempt : OidcSignInAttempt)
  | exchanged (n : Nat) (external : OidcIdentity)
  | fail (n : Nat)
  | drop (state : String)
  | tx (event : Txn.Event Request)

def World.put (w : World) (n : Nat) (call : Call) : World := { w with calls := Function.update w.calls n call }

def World.start (s : Tables) : World := ⟨.start s, fun _ => none, [], fun _ => .idle, [], []⟩

/-- The transaction a call may begin. -/
inductive Fits : Call → Request → Prop
  | register {gen input passwordHash} : Fits .idle (.register gen input passwordHash)
  | callback {gen provider browserState attempt external email} :
      Fits (.transacting provider browserState attempt external email)
        (IdentityOidcSignInCommandHandler.request gen provider attempt external email)

/-- What a step of a transaction means for its call. An aborted one may be tried again. -/
def settle (calls : Nat → Call) : Txn.Event Request → Nat → Call
  | .begin n (.register ..) => Function.update calls n .registering
  | .commit n => Function.update calls n .idle
  | .rollback n => Function.update calls n .idle
  | _ => calls

section
variable (argon2 : String → String → Bool) (dummyHash : String)

inductive Step : World → Event → World → Prop
  /-- `GET /auth/:provider` -/
  | authorize {w n attempt} : w.calls n = .idle → attempt.state ∉ w.drawn → attempt.linkIdentityPublicId = none →
      Step w (.authorize n attempt) { w.put n (.saving attempt) with
        sets := attempt :: w.sets, drawn := attempt.state :: w.drawn }
  /-- `POST /auth/:provider/link`, the password confirmed -/
  | link {w n identityPublicId password attempt identity} : w.calls n = .idle → attempt.state ∉ w.drawn →
      findIdentity w.db.db (fun row => row.publicId == identityPublicId) = some identity →
      PasswordService.verify argon2 dummyHash identity.passwordHash password = true →
      attempt.linkIdentityPublicId = some identity.publicId →
      Step w (.link n identityPublicId password attempt) { w.put n (.saving attempt) with
        sets := attempt :: w.sets, drawn := attempt.state :: w.drawn }
  | set {w attempt} : attempt ∈ w.sets → Step w (.set attempt) { w with
      sets := w.sets.erase attempt, attempts := Function.update w.attempts attempt.state (some attempt) }
  /-- the `SET` has answered -/
  | redirect {w n attempt} : w.calls n = .saving attempt → attempt ∉ w.sets → Step w (.redirect n) (w.put n .idle)
  /-- `GET /auth/:provider/callback` -/
  | callback {w n provider state browserState s} : w.calls n = .idle →
      IdentityOidcSignInCommandHandler.checkedState state browserState = some s →
      Step w (.callback n provider state browserState) (w.put n (.taking provider s browserState))
  | take {w n provider state browserState attempt} : w.calls n = .taking provider state browserState →
      IdentityOidcSignInCommandHandler.checkedAttempt provider (w.attempts state) = some attempt →
      Step w (.take n) { w.put n (.taken provider browserState attempt) with
        attempts := Function.update w.attempts state none, taken := state :: w.taken }
  /-- the code goes to the provider, once: the library repeats no request -/
  | exchange {w n provider browserState attempt} : w.calls n = .taken provider browserState attempt →
      Step w (.exchange n attempt) (w.put n (.exchanging provider browserState attempt))
  /-- the provider has answered -/
  | exchanged {w n provider browserState attempt external email} :
      w.calls n = .exchanging provider browserState attempt →
      IdentityOidcSignInCommandHandler.verifiedEmail external = some email →
      Step w (.exchanged n external) (w.put n (.transacting provider browserState attempt external email))
  /-- an error, a timeout or a crash; a refused attempt is dropped besides -/
  | fail {w n} : w.db.txs n = none → Step w (.fail n) (w.put n .idle)
  | drop {w state} : Step w (.drop state) { w with attempts := Function.update w.attempts state none }
  | tx {w e db} : Txn.Step signIns w.db e db → (∀ n q, e = .begin n q → Fits (w.calls n) q) →
      Step w (.tx e) { w with db := db, calls := settle w.calls e }

end

end MarketplaceApi.SignIn
