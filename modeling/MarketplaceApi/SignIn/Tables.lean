import MarketplaceApi.Auth.Token
import MarketplaceApi.Provisioning.Users
import MarketplaceApi.Txn.Rows

/-!
# Tables of signing up and in

`Identity` with its login, the external accounts bound to it, `IdentityOutbox`, and the sessions
that token pairs open. Their unique constraints are keys of the rows.
-/
namespace MarketplaceApi.SignIn

open Txn
open Auth (RoleEnum)
open Placement (CountryCode isE164 isDigits)
open Provisioning (OutboxRow isEmailFormat)

inductive IdentityProvider where
  | google
  deriving DecidableEq

structure LoginPhone where
  countryCode : Option CountryCode
  rawNumber : Option String
  fullNumber : Option String
  nationalNumber : Option String
  deriving DecidableEq

structure Identity where
  id : Nat
  publicId : String
  email : Option String
  loginPhone : LoginPhone
  passwordHash : Option String
  role : RoleEnum
  createdAt : Nat
  deriving DecidableEq

structure IdentityExternalAccount where
  identityId : Nat
  provider : IdentityProvider
  subject : String
  deriving DecidableEq

/-- The columns of a session that say whose it is. -/
structure IdentitySession where
  identityId : Nat
  familyId : String
  tokenHash : String
  deriving DecidableEq

abbrev IdentityOutbox := OutboxRow Provisioning.IdentityRegisteredEvent.Data

inductive Row where
  | identity (row : Identity)
  | account (row : IdentityExternalAccount)
  | session (row : IdentitySession)
  | outbox (row : IdentityOutbox)

inductive Key where
  | identityId (id : Nat)
  | publicId (publicId : String)
  | email (email : String)
  | phone (fullNumber : String)
  | subject (provider : IdentityProvider) (subject : String)
  | provider (identityId : Nat) (provider : IdentityProvider)
  | tokenHash (tokenHash : String)
  | event (id : String)
  deriving DecidableEq

/-- What a `citext` column compares. Beyond ASCII its locale lowers more letters. -/
def citext (text : String) : String := text.toLower

def Identity.keys (row : Identity) : List Key :=
  [.identityId row.id, .publicId row.publicId] ++ (row.email.map fun email => .email (citext email)).toList ++
    (row.loginPhone.fullNumber.map .phone).toList

def Row.keys : Row → List Key
  | .identity row => row.keys
  | .account row => [.subject row.provider row.subject, .provider row.identityId row.provider]
  | .session row => [.tokenHash row.tokenHash]
  | .outbox row => [.event row.id]

/-- `other` are the identities with a `deletedAt`. -/
abbrev Tables := Rows Row (List Nat)

def isolation : Isolation Key Tables := rowIsolation Row.keys

def varchar (length : Nat) (text : Option String) : Bool := text.all fun text => decide (text.length ≤ length)

/-- The CHECK constraints and column lengths of `Identity`. -/
def Identity.allowed (row : Identity) : Bool :=
  (row.email.isSome || row.loginPhone.fullNumber.isSome) &&
    (row.loginPhone.fullNumber.all fun fullNumber => isE164 fullNumber.toList) &&
    (row.loginPhone.nationalNumber.all fun nationalNumber => isDigits 4 15 nationalNumber.toList) &&
    (row.email.all fun email => isEmailFormat email.toList) && varchar 32 row.loginPhone.rawNumber &&
    varchar 16 row.loginPhone.fullNumber && varchar 15 row.loginPhone.nationalNumber && varchar 255 row.passwordHash

/-- The CHECK constraints of `Identity` alone. -/
def Identity.checked (row : Identity) : Bool :=
  (row.email.isSome || row.loginPhone.fullNumber.isSome) &&
    (row.loginPhone.fullNumber.all fun fullNumber => isE164 fullNumber.toList) &&
    (row.loginPhone.nationalNumber.all fun nationalNumber => isDigits 4 15 nationalNumber.toList) &&
    (row.email.all fun email => isEmailFormat email.toList)

/-- `btrim("subject") <> ''` and the column's length. -/
def IdentityExternalAccount.allowed (row : IdentityExternalAccount) : Bool :=
  row.subject.toList.any (fun c => c != ' ') && decide (row.subject.length ≤ 255)

/-- The rows of one table. -/
def Row.identity? : Row → Option Identity
  | .identity row => some row
  | _ => none

def Row.account? : Row → Option IdentityExternalAccount
  | .account row => some row
  | _ => none

/-- `findOne` on `Identity` leaves out soft-deleted rows. -/
def findIdentity (s : Tables) (p : Identity → Bool) : Option Identity :=
  (s.rows.filterMap Row.identity?).find? fun row => p row && !decide (row.id ∈ s.other)

def findAccount (s : Tables) (p : IdentityExternalAccount → Bool) : Option IdentityExternalAccount :=
  (s.rows.filterMap Row.account?).find? p

section
variable {s : Tables}

@[simp] theorem identity?_eq {row : Row} {x : Identity} : row.identity? = some x ↔ row = .identity x := by
  cases row <;> simp [Row.identity?]

@[simp] theorem account?_eq {row : Row} {x : IdentityExternalAccount} : row.account? = some x ↔ row = .account x := by
  cases row <;> simp [Row.account?]

theorem findIdentity_some {p : Identity → Bool} {x : Identity} (h : findIdentity s p = some x) :
    .identity x ∈ s.rows ∧ p x = true := by
  have hmem := List.mem_of_find?_eq_some h
  have hp := List.find?_some h
  rw [Bool.and_eq_true] at hp
  obtain ⟨row, hrow, heq⟩ := List.mem_filterMap.mp hmem
  rw [identity?_eq.mp heq] at hrow
  exact ⟨hrow, hp.1⟩

theorem findAccount_some {p : IdentityExternalAccount → Bool} {x : IdentityExternalAccount}
    (h : findAccount s p = some x) : .account x ∈ s.rows ∧ p x = true := by
  have hmem := List.mem_of_find?_eq_some h
  obtain ⟨row, hrow, heq⟩ := List.mem_filterMap.mp hmem
  rw [account?_eq.mp heq] at hrow
  exact ⟨hrow, List.find?_some h⟩

end

end MarketplaceApi.SignIn
