import MarketplaceApi.Messaging.Gateway
import MarketplaceApi.Outbox.Services
import MarketplaceApi.Placement.Place
import MarketplaceApi.Text.Digits

/-!
# Creating users from registered identities

`User` and `UserOutbox`, the transaction of `UserCreateCommandHandler`, and the gateway that runs
it for `identity.registered` events. `User` has four unique columns, and a conflict on any of them
is ignored. Published outbox rows stay in the list although a daily job deletes them.
-/
namespace MarketplaceApi.Provisioning

open Messaging Txn
open Placement (isE164 maxInteger)

inductive Language where
  | en
  | ua
  deriving DecidableEq

namespace IdentityRegisteredEvent

def TOPIC : String := "identity.events"
def TYPE : String := "identity.registered"
def SOURCE : String := "/identity-service"

/-- `createdAt` is a date, sent as its ISO text; the profile reads neither it nor `role`. -/
structure Data where
  identityId : Nat
  identityPublicId : String
  email : Option String
  phoneNumber : Option String
  role : String
  createdAt : Nat
  deriving DecidableEq

end IdentityRegisteredEvent

namespace UserCreatedEvent

def TOPIC : String := "user.events"
def TYPE : String := "user.created"
def SOURCE : String := "/user-service"

/-- Events written before the column existed have no `identityPublicId`. -/
structure Data where
  userId : Nat
  userPublicId : String
  identityId : Nat
  identityPublicId : Option String
  email : Option String
  phoneNumber : Option String
  firstName : Option String
  lastName : Option String
  language : Language
  createdAt : Nat
  deriving DecidableEq

end UserCreatedEvent

structure User where
  id : Nat
  publicId : String
  identityId : Nat
  identityPublicId : String
  email : Option String
  phoneNumber : Option String
  firstName : Option String
  lastName : Option String
  language : Language
  createdAt : Nat
  deriving DecidableEq

/-- A row of `IdentityOutbox` or `UserOutbox`. -/
structure OutboxRow (D : Type) extends Outbox.EventColumns D where
  id : String

abbrev UserOutbox := OutboxRow UserCreatedEvent.Data

/-- What a relay makes of a row. -/
def toCloudEvent {D : Type} (source : String) (row : OutboxRow D) : CloudEvent D where
  specversion := "1.0"
  id := row.id
  source := source
  type := row.type
  datacontenttype := "application/json"
  subject := some row.aggregateId
  correlationid := some row.aggregateId
  data := row.payload

/-- `UserCreateEntityInterface` -/
structure UserCreate where
  identityId : Nat
  identityPublicId : String
  email : Option String
  phoneNumber : Option String

/-- The values the database makes up for a new user, as long as its sequence lasts. -/
structure Generated where
  id : Nat
  publicId : String
  now : Nat

structure UserTables where
  users : List User
  outbox : List UserOutbox

inductive UserLock where
  | id (id : Nat)
  | publicId (publicId : String)
  | identityId (identityId : Nat)
  | identityPublicId (identityPublicId : String)
  | event (id : String)
  deriving DecidableEq

inductive UserFailure where
  | rejectedMessage
  | integerOverflow
  | userCheck
  | entityNotFound
  | eventKey
  deriving DecidableEq

abbrev UserProgram := Prog UserLock UserTables UserFailure

/-- The unique columns of a row. -/
def User.keys (user : User) : List UserLock :=
  [.id user.id, .publicId user.publicId, .identityId user.identityId, .identityPublicId user.identityPublicId]

/-- `^[^@\s]+@[^@\s]+\.[^@\s]+$` -/
def isEmailFormat (text : List Char) : Bool :=
  match text.splitOn '@' with
  | [name, domain] => !name.isEmpty && !text.any Text.isSpace && (domain.drop 1).dropLast.contains '.'
  | _ => false

/-- What an `integer` column takes. -/
def isInteger (n : Int) : Bool := decide (-maxInteger - 1 ≤ n ∧ n ≤ maxInteger)

/-- `z.int().positive()` -/
def isPositiveInt (n : Nat) : Bool := decide (0 < n ∧ n < 2 ^ 53)

/-- The CHECK constraints of `User` on the inserted columns. -/
def User.allowed (user : User) : Bool :=
  (user.email.all fun email => isEmailFormat email.toList) &&
    user.phoneNumber.all fun phoneNumber => isE164 phoneNumber.toList

def UserTables.addUser (s : UserTables) (user : User) : UserTables := { s with users := user :: s.users }

def UserTables.addOutbox (s : UserTables) (row : UserOutbox) : UserTables := { s with outbox := row :: s.outbox }

/-- A row exists under the key. -/
def UserTables.taken (s : UserTables) (k : UserLock) : Bool :=
  s.users.any (fun user => k ∈ user.keys) || s.outbox.any fun row => k = .event row.id

/-- The columns the database fills in itself. -/
def UserCreate.toUser (input : UserCreate) (gen : Generated) : User where
  id := gen.id
  publicId := gen.publicId
  identityId := input.identityId
  identityPublicId := input.identityPublicId
  email := input.email
  phoneNumber := input.phoneNumber
  firstName := none
  lastName := none
  language := .en
  createdAt := gen.now

namespace UserRepository

/-- `INSERT … ON CONFLICT DO NOTHING RETURNING`; the checks come before the conflicts. -/
def createIfAbsent (gen : Generated) (input : UserCreate) : UserProgram Bool := do
  if !isInteger input.identityId then
    .throw .integerOverflow
  else if !(input.toUser gen).allowed then
    .throw .userCheck
  else if ← Prog.look fun s => (input.toUser gen).keys.any s.taken then
    return false
  else
    Prog.exec (input.toUser gen).keys fun s =>
      if (input.toUser gen).keys.any s.taken then .ok (s, false) else .ok (s.addUser (input.toUser gen), true)

/-- Read after the row was inserted under the same key. -/
def findByIdentityIdOrFail (identityId : Nat) : UserProgram User :=
  Prog.exec [.identityId identityId] fun s =>
    match s.users.find? fun user => user.identityId = identityId with
    | some user => .ok (s, user)
    | none => .error .entityNotFound

end UserRepository

namespace UserOutboxRepository

def create (row : UserOutbox) : UserProgram Unit :=
  Prog.exec [.event row.id] fun s =>
    if s.taken (.event row.id) then .error .eventKey else .ok (s.addOutbox row, ())

end UserOutboxRepository

namespace UserMessageService

def toUserCreatedOutbox (user : User) : UserOutbox where
  id := user.publicId
  topic := UserCreatedEvent.TOPIC
  aggregateType := "User"
  aggregateId := user.publicId
  type := UserCreatedEvent.TYPE
  payload :=
    { userId := user.id
      userPublicId := user.publicId
      identityId := user.identityId
      identityPublicId := some user.identityPublicId
      email := user.email
      phoneNumber := user.phoneNumber
      firstName := user.firstName
      lastName := user.lastName
      language := user.language
      createdAt := user.createdAt }

end UserMessageService

namespace UserCreateCommandHandler

def execute (gen : Generated) (input : UserCreate) : UserProgram Unit := do
  if ← UserRepository.createIfAbsent gen input then
    let user ← UserRepository.findByIdentityIdOrFail input.identityId
    UserOutboxRepository.create (UserMessageService.toUserCreatedOutbox user)
  else
    return ()

end UserCreateCommandHandler

section
variable (isUuid isEmail : String → Bool)

/-- `z.uuid()` and `z.email()` are zod's. -/
def identityRegisteredEventSchema (event : CloudEvent IdentityRegisteredEvent.Data) : Bool :=
  event.specversion == "1.0" && isUuid event.id && event.type == IdentityRegisteredEvent.TYPE &&
    isPositiveInt event.data.identityId && isUuid event.data.identityPublicId && event.data.email.all isEmail &&
    event.data.phoneNumber.all fun phoneNumber => isE164 phoneNumber.toList

namespace UserIdentityEventsGateway

/-- Other event types are skipped, and a message that does not parse is rejected. -/
def handle (gen : Generated) (event : CloudEvent IdentityRegisteredEvent.Data) : UserProgram Unit :=
  if event.type != IdentityRegisteredEvent.TYPE then
    return ()
  else if !identityRegisteredEventSchema isUuid isEmail event then
    .throw .rejectedMessage
  else
    UserCreateCommandHandler.execute gen
      ⟨event.data.identityId, event.data.identityPublicId, event.data.email, event.data.phoneNumber⟩

end UserIdentityEventsGateway

end

end MarketplaceApi.Provisioning
