import Mathlib.Data.List.Sort
import MarketplaceApi.Migrations.Columns
import MarketplaceApi.Sql.Table
import MarketplaceApi.Text.Digits

/-!
# Contacts embedded where they are used

The statements of `OrderOwnsUserAndContact` and `IdentityOwnsLoginPhone` in both directions, on
the tables as the migrations before them leave them. Columns that no statement reads or writes are
left out with the constraints on them; a column that may be `NULL` or that comes and goes is an
option, and `NOT NULL` and the type of a column are constraints named after it.
-/
namespace MarketplaceApi.Migrations

open Sql

inductive CountryCodeEnum where
  | UA
  | US
  | PL
  | DE
  | GB
  deriving DecidableEq

namespace Contact

inductive TableId where
  | user
  | phone
  | address
  | identity
  | recipient
  | order
  deriving DecidableEq

structure User where
  id : Nat
  deliveryAddressId : Option Nat
  deriving DecidableEq

structure Phone where
  id : Nat
  countryCode : Option CountryCodeEnum
  rawNumber : Option String
  fullNumber : Option String
  nationalNumber : Option String
  createdAt : Nat
  updatedAt : Nat
  deletedAt : Option Nat
  recipientId : Option Nat
  identityId : Option Nat
  deriving DecidableEq

structure DeliveryAddress where
  id : Nat
  addressLine : Option String
  city : Option String
  building : Option String
  createdAt : Nat
  updatedAt : Nat
  deletedAt : Option Nat
  recipientId : Option Nat
  deriving DecidableEq

structure Identity where
  id : Nat
  email : Option String
  phoneId : Option Nat
  createdAt : Nat
  updatedAt : Nat
  loginPhoneCountryCode : Option CountryCodeEnum
  loginPhoneRawNumber : Option String
  loginPhoneFullNumber : Option String
  loginPhoneNationalNumber : Option String
  deriving DecidableEq

structure OrderRecipient where
  id : Nat
  buyerId : Option Nat
  phoneId : Option Nat
  deliveryAddressId : Option Nat
  createdAt : Nat
  updatedAt : Nat
  phoneCountryCode : Option CountryCodeEnum
  phoneRawNumber : Option String
  phoneFullNumber : Option String
  phoneNationalNumber : Option String
  addressLine : Option String
  addressCity : Option String
  addressBuilding : Option String
  deriving DecidableEq

structure Order where
  id : Nat
  orderRecipientId : Nat
  userId : Option Nat
  updatedAt : Nat
  deriving DecidableEq

structure Db where
  users : Option (Table TableId User)
  phones : Option (Table TableId Phone)
  addresses : Option (Table TableId DeliveryAddress)
  identities : Option (Table TableId Identity)
  recipients : Option (Table TableId OrderRecipient)
  orders : Option (Table TableId Order)

def rowsOf {R : Type} (t : Option (Table TableId R)) : List R := t.elim [] Table.rows

def Db.ids (db : Db) : TableId → List Nat
  | .user => (rowsOf db.users).map User.id
  | .phone => (rowsOf db.phones).map Phone.id
  | .address => (rowsOf db.addresses).map DeliveryAddress.id
  | .identity => (rowsOf db.identities).map Identity.id
  | .recipient => (rowsOf db.recipients).map OrderRecipient.id
  | .order => (rowsOf db.orders).map Order.id

/-- The foreign keys to a table, with what they refer to. -/
def Db.referring (target : TableId) (db : Db) : List (String × List Nat) :=
  db.users.elim [] (Table.referring target) ++ db.phones.elim [] (Table.referring target) ++
    db.addresses.elim [] (Table.referring target) ++ db.identities.elim [] (Table.referring target) ++
    db.recipients.elim [] (Table.referring target) ++ db.orders.elim [] (Table.referring target)

def phones : Slot Db TableId Phone := ⟨Db.phones, fun t db => { db with phones := t }⟩
def addresses : Slot Db TableId DeliveryAddress := ⟨Db.addresses, fun t db => { db with addresses := t }⟩
def identities : Slot Db TableId Identity := ⟨Db.identities, fun t db => { db with identities := t }⟩
def recipients : Slot Db TableId OrderRecipient := ⟨Db.recipients, fun t db => { db with recipients := t }⟩
def orders : Slot Db TableId Order := ⟨Db.orders, fun t db => { db with orders := t }⟩

/-- `"x" ~ '^\+[1-9][0-9]{7,14}$'` -/
def e164 (x : String) : Bool :=
  match x.toList with
  | '+' :: c :: cs => c.isDigit && c ≠ '0' && decide (7 ≤ cs.length) && decide (cs.length ≤ 14) && cs.all Char.isDigit
  | _ => false

/-- `"x" ~ '^[0-9]{4,15}$'` -/
def nationalFormat (x : String) : Bool :=
  decide (4 ≤ x.length) && decide (x.length ≤ 15) && x.toList.all Char.isDigit

/-- `"x" ~ '^[^@\s]+@[^@\s]+\.[^@\s]+$'` -/
def emailFormat (x : String) : Bool :=
  !x.toList.any Text.isSpace &&
    match x.toList.splitOn '@' with
    | [name, domain] => !name.isEmpty && (domain.drop 1).dropLast.contains '.'
    | _ => false

/-- Two values of the type `citext` are equal. Beyond ASCII its locale lowers more letters. -/
def sameText (x y : Option String) : Bool := equal (x.map String.toLower) (y.map String.toLower)

def varchar (length : Nat) (x : Option String) : Bool := x.all fun x => x.length ≤ length

/-- What an `integer` column takes. -/
def integer (x : Option Nat) : Bool := x.all fun n => n < 2147483648

def userConstraints : List (Constraint TableId User) :=
  [⟨"User_pkey", ["id"], .unique fun u u' => u.id = u'.id⟩,
    ⟨"deliveryAddressId uint", ["deliveryAddressId"], .check fun u => u.deliveryAddressId.all uint⟩,
    ⟨"User_deliveryAddressId_key", ["deliveryAddressId"],
      .unique fun u u' => equal u.deliveryAddressId u'.deliveryAddressId⟩,
    ⟨"User_deliveryAddressId_fkey", ["deliveryAddressId"], .references .address User.deliveryAddressId⟩]

def phoneConstraints : List (Constraint TableId Phone) :=
  [⟨"id integer", ["id"], .check fun p => uint p.id⟩,
    ⟨"countryCode NOT NULL", ["countryCode"], .check fun p => p.countryCode.isSome⟩,
    ⟨"rawNumber NOT NULL", ["rawNumber"], .check fun p => p.rawNumber.isSome⟩,
    ⟨"rawNumber varchar(32)", ["rawNumber"], .check fun p => varchar 32 p.rawNumber⟩,
    ⟨"fullNumber NOT NULL", ["fullNumber"], .check fun p => p.fullNumber.isSome⟩,
    ⟨"fullNumber varchar(16)", ["fullNumber"], .check fun p => varchar 16 p.fullNumber⟩,
    ⟨"nationalNumber NOT NULL", ["nationalNumber"], .check fun p => p.nationalNumber.isSome⟩,
    ⟨"nationalNumber varchar(15)", ["nationalNumber"], .check fun p => varchar 15 p.nationalNumber⟩,
    ⟨"Phone_fullNumber_e164", ["fullNumber"], .check fun p => p.fullNumber.all e164⟩,
    ⟨"Phone_nationalNumber_fmt", ["nationalNumber"], .check fun p => p.nationalNumber.all nationalFormat⟩,
    ⟨"Phone_deletedAt_order", ["deletedAt", "createdAt"], .check fun p => deletedAtOrder p.createdAt p.deletedAt⟩,
    ⟨"Phone_pkey", ["id"], .unique fun p p' => p.id = p'.id⟩]

def addressConstraints : List (Constraint TableId DeliveryAddress) :=
  [⟨"id integer", ["id"], .check fun a => uint a.id⟩,
    ⟨"addressLine NOT NULL", ["addressLine"], .check fun a => a.addressLine.isSome⟩,
    ⟨"addressLine varchar(255)", ["addressLine"], .check fun a => varchar 255 a.addressLine⟩,
    ⟨"city NOT NULL", ["city"], .check fun a => a.city.isSome⟩,
    ⟨"city varchar(100)", ["city"], .check fun a => varchar 100 a.city⟩,
    ⟨"building varchar(32)", ["building"], .check fun a => varchar 32 a.building⟩,
    ⟨"DeliveryAddress_deletedAt_order", ["deletedAt", "createdAt"],
      .check fun a => deletedAtOrder a.createdAt a.deletedAt⟩,
    ⟨"DeliveryAddress_pkey", ["id"], .unique fun a a' => a.id = a'.id⟩]

def identityConstraints : List (Constraint TableId Identity) :=
  [⟨"id integer", ["id"], .check fun i => uint i.id⟩,
    ⟨"phoneId uint", ["phoneId"], .check fun i => i.phoneId.all uint⟩,
    ⟨"Identity_email_key", ["email"], .unique fun i i' => sameText i.email i'.email⟩,
    ⟨"Identity_phoneId_key", ["phoneId"], .unique fun i i' => equal i.phoneId i'.phoneId⟩,
    ⟨"Identity_login_present", ["email", "phoneId"], .check fun i => i.email.isSome || i.phoneId.isSome⟩,
    ⟨"Identity_email_format", ["email"], .check fun i => i.email.all emailFormat⟩,
    ⟨"Identity_pkey", ["id"], .unique fun i i' => i.id = i'.id⟩,
    ⟨"Identity_phoneId_fkey", ["phoneId"], .references .phone Identity.phoneId⟩]

def recipientConstraints : List (Constraint TableId OrderRecipient) :=
  [⟨"id integer", ["id"], .check fun r => uint r.id⟩,
    ⟨"buyerId uint", ["buyerId"], .check fun r => r.buyerId.all uint⟩,
    ⟨"buyerId NOT NULL", ["buyerId"], .check fun r => r.buyerId.isSome⟩,
    ⟨"phoneId uint", ["phoneId"], .check fun r => r.phoneId.all uint⟩,
    ⟨"phoneId NOT NULL", ["phoneId"], .check fun r => r.phoneId.isSome⟩,
    ⟨"deliveryAddressId uint", ["deliveryAddressId"], .check fun r => r.deliveryAddressId.all uint⟩,
    ⟨"deliveryAddressId NOT NULL", ["deliveryAddressId"], .check fun r => r.deliveryAddressId.isSome⟩,
    ⟨"OrderRecipient_phoneId_key", ["phoneId"], .unique fun r r' => equal r.phoneId r'.phoneId⟩,
    ⟨"OrderRecipient_deliveryAddressId_key", ["deliveryAddressId"],
      .unique fun r r' => equal r.deliveryAddressId r'.deliveryAddressId⟩,
    ⟨"OrderRecipient_pkey", ["id"], .unique fun r r' => r.id = r'.id⟩,
    ⟨"OrderRecipient_buyerId_fkey", ["buyerId"], .references .user OrderRecipient.buyerId⟩,
    ⟨"OrderRecipient_phoneId_fkey", ["phoneId"], .references .phone OrderRecipient.phoneId⟩,
    ⟨"OrderRecipient_deliveryAddressId_fkey", ["deliveryAddressId"],
      .references .address OrderRecipient.deliveryAddressId⟩]

def orderConstraints : List (Constraint TableId Order) :=
  [⟨"orderRecipientId uint", ["orderRecipientId"], .check fun o => uint o.orderRecipientId⟩,
    ⟨"Order_orderRecipientId_key", ["orderRecipientId"], .unique fun o o' => o.orderRecipientId = o'.orderRecipientId⟩,
    ⟨"Order_pkey", ["id"], .unique fun o o' => o.id = o'.id⟩,
    ⟨"Order_orderRecipientId_fkey", ["orderRecipientId"], .references .recipient fun o => some o.orderRecipientId⟩]

/-- The orders in which Postgres visits the rows of the updates. -/
structure Plan where
  orders : List Nat → List Nat
  recipients : List Nat → List Nat
  identities : List Nat → List Nat
  orders_perm : ∀ l, (orders l).Perm l
  recipients_perm : ∀ l, (recipients l).Perm l
  identities_perm : ∀ l, (identities l).Perm l

/-- The join of `UPDATE "Order" … WHERE r."id" = o."orderRecipientId"`. -/
def owned (recipients : List OrderRecipient) (o : Order) : Option Order :=
  (recipients.find? fun r => r.id = o.orderRecipientId).map fun r => { o with userId := r.buyerId }

/-- The join of `UPDATE "OrderRecipient" … WHERE p."id" = r."phoneId" AND a."id" = r."deliveryAddressId"`. -/
def embedded (phones : List Phone) (addresses : List DeliveryAddress) (r : OrderRecipient) : Option OrderRecipient :=
  (phones.find? fun p => some p.id = r.phoneId).bind fun p =>
    (addresses.find? fun a => some a.id = r.deliveryAddressId).map fun a =>
      { r with
        phoneCountryCode := p.countryCode
        phoneRawNumber := p.rawNumber
        phoneFullNumber := p.fullNumber
        phoneNationalNumber := p.nationalNumber
        addressLine := a.addressLine
        addressCity := a.city
        addressBuilding := a.building }

/-- The join of `UPDATE "Identity" … WHERE p."id" = i."phoneId"`. -/
def loginEmbedded (phones : List Phone) (i : Identity) : Option Identity :=
  (phones.find? fun p => some p.id = i.phoneId).map fun p =>
    { i with
      loginPhoneCountryCode := p.countryCode
      loginPhoneRawNumber := p.rawNumber
      loginPhoneFullNumber := p.fullNumber
      loginPhoneNationalNumber := p.nationalNumber }

/-- The join of `UPDATE "Identity" … WHERE p."identityId" = i."id"`. -/
def loginReferenced (phones : List Phone) (i : Identity) : Option Identity :=
  (phones.find? fun p => p.identityId = some i.id).map fun p => { i with phoneId := some p.id }

/-- The join of `UPDATE "OrderRecipient" … WHERE o."orderRecipientId" = r."id" AND …`. -/
def referenced (orders : List Order) (phones : List Phone) (addresses : List DeliveryAddress) (r : OrderRecipient) :
    Option OrderRecipient :=
  (orders.find? fun o => o.orderRecipientId = r.id).bind fun o =>
    (phones.find? fun p => p.recipientId = some r.id).bind fun p =>
      (addresses.find? fun a => a.recipientId = some r.id).map fun a =>
        { r with buyerId := o.userId, phoneId := some p.id, deliveryAddressId := some a.id }

/-- `SELECT … FROM "Identity" WHERE "loginPhoneFullNumber" IS NOT NULL ORDER BY "id"` -/
def loginPhones (identities : List Identity) : List (Nat → Phone) :=
  ((identities.filter fun i => i.loginPhoneFullNumber.isSome).insertionSort fun i i' => i.id ≤ i'.id).map fun i id =>
    ⟨id, i.loginPhoneCountryCode, i.loginPhoneRawNumber, i.loginPhoneFullNumber, i.loginPhoneNationalNumber,
      i.createdAt, i.createdAt, none, none, some i.id⟩

/-- `SELECT … FROM "OrderRecipient" ORDER BY "id"`, into `Phone`. -/
def recipientPhones (recipients : List OrderRecipient) : List (Nat → Phone) :=
  (recipients.insertionSort fun r r' => r.id ≤ r'.id).map fun r id =>
    ⟨id, r.phoneCountryCode, r.phoneRawNumber, r.phoneFullNumber, r.phoneNationalNumber, r.createdAt, r.createdAt, none,
      some r.id, none⟩

/-- `SELECT … FROM "OrderRecipient" ORDER BY "id"`, into `DeliveryAddress`. -/
def recipientAddresses (recipients : List OrderRecipient) : List (Nat → DeliveryAddress) :=
  (recipients.insertionSort fun r r' => r.id ≤ r'.id).map fun r id =>
    ⟨id, r.addressLine, r.addressCity, r.addressBuilding, r.createdAt, r.createdAt, none, some r.id⟩

/-- The phones and addresses that the two `DELETE` statements remove. -/
def phoneGoes (recipients : List OrderRecipient) (identities : List Identity) (p : Phone) : Bool :=
  decide (some p.id ∈ recipients.map OrderRecipient.phoneId) && decide (some p.id ∉ identities.map Identity.phoneId)

def addressGoes (recipients : List OrderRecipient) (users : List User) (a : DeliveryAddress) : Bool :=
  decide (some a.id ∈ recipients.map OrderRecipient.deliveryAddressId) &&
    decide (some a.id ∉ users.map User.deliveryAddressId)

/-- The opening `DO` block. -/
def requireOrders : Statement Db := fun db =>
  if (rowsOf db.recipients).any fun r => !(rowsOf db.orders).any fun o => o.orderRecipientId = r.id then
    .error (.raised "OrderRecipient rows without an Order cannot be migrated")
  else .ok db

namespace OrderOwnsUserAndContact

variable (plan : Plan)

def ownUser : List (Statement Db) :=
  [requireOrders,
    orders.alter "Order" fun _ => Table.addColumn "userId"
      ⟨"userId uint", ["userId"], .check fun o => o.userId.all uint⟩ fun o => { o with userId := none },
    orders.alter "Order" fun _ => Table.setTrigger "Order_setUpdatedAt" false,
    orders.alter "Order" fun db => Table.update db.ids Order.id (owned (rowsOf db.recipients))
      (plan.orders ((rowsOf db.orders).map Order.id)),
    orders.alter "Order" fun _ => Table.setTrigger "Order_setUpdatedAt" true,
    orders.alter "Order" fun db => Table.addConstraint db.ids
      ⟨"userId NOT NULL", ["userId"], .check fun o => o.userId.isSome⟩]

def embedContact : List (Statement Db) :=
  [recipients.alter "OrderRecipient" fun _ => Table.addColumn "phoneCountryCode"
      ⟨"phoneCountryCode CountryCodeEnum", ["phoneCountryCode"], .check fun _ => true⟩
      fun r => { r with phoneCountryCode := none },
    recipients.alter "OrderRecipient" fun _ => Table.addColumn "phoneRawNumber"
      ⟨"phoneRawNumber varchar(32)", ["phoneRawNumber"], .check fun r => varchar 32 r.phoneRawNumber⟩
      fun r => { r with phoneRawNumber := none },
    recipients.alter "OrderRecipient" fun _ => Table.addColumn "phoneFullNumber"
      ⟨"phoneFullNumber varchar(16)", ["phoneFullNumber"], .check fun r => varchar 16 r.phoneFullNumber⟩
      fun r => { r with phoneFullNumber := none },
    recipients.alter "OrderRecipient" fun _ => Table.addColumn "phoneNationalNumber"
      ⟨"phoneNationalNumber varchar(15)", ["phoneNationalNumber"], .check fun r => varchar 15 r.phoneNationalNumber⟩
      fun r => { r with phoneNationalNumber := none },
    recipients.alter "OrderRecipient" fun _ => Table.addColumn "addressLine"
      ⟨"addressLine varchar(255)", ["addressLine"], .check fun r => varchar 255 r.addressLine⟩
      fun r => { r with addressLine := none },
    recipients.alter "OrderRecipient" fun _ => Table.addColumn "addressCity"
      ⟨"addressCity varchar(100)", ["addressCity"], .check fun r => varchar 100 r.addressCity⟩
      fun r => { r with addressCity := none },
    recipients.alter "OrderRecipient" fun _ => Table.addColumn "addressBuilding"
      ⟨"addressBuilding varchar(32)", ["addressBuilding"], .check fun r => varchar 32 r.addressBuilding⟩
      fun r => { r with addressBuilding := none },
    recipients.alter "OrderRecipient" fun _ => Table.setTrigger "OrderRecipient_setUpdatedAt" false,
    recipients.alter "OrderRecipient" fun db => Table.update db.ids OrderRecipient.id
      (embedded (rowsOf db.phones) (rowsOf db.addresses))
      (plan.recipients ((rowsOf db.recipients).map OrderRecipient.id)),
    recipients.alter "OrderRecipient" fun _ => Table.setTrigger "OrderRecipient_setUpdatedAt" true,
    recipients.alter "OrderRecipient" fun db => Table.addConstraint db.ids
      ⟨"phoneCountryCode NOT NULL", ["phoneCountryCode"], .check fun r => r.phoneCountryCode.isSome⟩,
    recipients.alter "OrderRecipient" fun db => Table.addConstraint db.ids
      ⟨"phoneRawNumber NOT NULL", ["phoneRawNumber"], .check fun r => r.phoneRawNumber.isSome⟩,
    recipients.alter "OrderRecipient" fun db => Table.addConstraint db.ids
      ⟨"phoneFullNumber NOT NULL", ["phoneFullNumber"], .check fun r => r.phoneFullNumber.isSome⟩,
    recipients.alter "OrderRecipient" fun db => Table.addConstraint db.ids
      ⟨"phoneNationalNumber NOT NULL", ["phoneNationalNumber"], .check fun r => r.phoneNationalNumber.isSome⟩,
    recipients.alter "OrderRecipient" fun db => Table.addConstraint db.ids
      ⟨"addressLine NOT NULL", ["addressLine"], .check fun r => r.addressLine.isSome⟩,
    recipients.alter "OrderRecipient" fun db => Table.addConstraint db.ids
      ⟨"addressCity NOT NULL", ["addressCity"], .check fun r => r.addressCity.isSome⟩,
    recipients.alter "OrderRecipient" fun db => Table.addConstraint db.ids
      ⟨"OrderRecipient_phoneFullNumber_e164", ["phoneFullNumber"], .check fun r => r.phoneFullNumber.all e164⟩,
    recipients.alter "OrderRecipient" fun db => Table.addConstraint db.ids
      ⟨"OrderRecipient_phoneNationalNumber_fmt", ["phoneNationalNumber"],
        .check fun r => r.phoneNationalNumber.all nationalFormat⟩]

def dropReferences : List (Statement Db) :=
  [recipients.alter "OrderRecipient" fun _ => Table.dropConstraint "OrderRecipient_buyerId_fkey",
    recipients.alter "OrderRecipient" fun _ => Table.dropConstraint "OrderRecipient_phoneId_fkey",
    recipients.alter "OrderRecipient" fun _ => Table.dropConstraint "OrderRecipient_deliveryAddressId_fkey",
    recipients.alter "OrderRecipient" fun _ => Table.dropConstraint "OrderRecipient_phoneId_key",
    recipients.alter "OrderRecipient" fun _ => Table.dropConstraint "OrderRecipient_deliveryAddressId_key",
    phones.alter "Phone" fun db => Table.delete Phone.id
      (phoneGoes (rowsOf db.recipients) (rowsOf db.identities)) (db.referring .phone),
    addresses.alter "DeliveryAddress" fun db => Table.delete DeliveryAddress.id
      (addressGoes (rowsOf db.recipients) (rowsOf db.users)) (db.referring .address),
    recipients.alter "OrderRecipient" fun _ => Table.dropColumn "buyerId" fun r => { r with buyerId := none },
    recipients.alter "OrderRecipient" fun _ => Table.dropColumn "phoneId" fun r => { r with phoneId := none },
    recipients.alter "OrderRecipient" fun _ => Table.dropColumn "deliveryAddressId"
      fun r => { r with deliveryAddressId := none }]

def up : List (Statement Db) := ownUser plan ++ embedContact plan ++ dropReferences

def rebuild : List (Statement Db) :=
  [phones.alter "Phone" fun _ => Table.addColumn "recipientId"
      ⟨"recipientId integer", ["recipientId"], .check fun p => integer p.recipientId⟩
      fun p => { p with recipientId := none },
    addresses.alter "DeliveryAddress" fun _ => Table.addColumn "recipientId"
      ⟨"recipientId integer", ["recipientId"], .check fun a => integer a.recipientId⟩
      fun a => { a with recipientId := none },
    phones.alter "Phone" fun db => Table.insert db.ids (recipientPhones (rowsOf db.recipients)),
    addresses.alter "DeliveryAddress" fun db => Table.insert db.ids (recipientAddresses (rowsOf db.recipients))]

def reference : List (Statement Db) :=
  [recipients.alter "OrderRecipient" fun _ => Table.addColumn "buyerId"
      ⟨"buyerId uint", ["buyerId"], .check fun r => r.buyerId.all uint⟩ fun r => { r with buyerId := none },
    recipients.alter "OrderRecipient" fun _ => Table.addColumn "phoneId"
      ⟨"phoneId uint", ["phoneId"], .check fun r => r.phoneId.all uint⟩ fun r => { r with phoneId := none },
    recipients.alter "OrderRecipient" fun _ => Table.addColumn "deliveryAddressId"
      ⟨"deliveryAddressId uint", ["deliveryAddressId"], .check fun r => r.deliveryAddressId.all uint⟩
      fun r => { r with deliveryAddressId := none },
    recipients.alter "OrderRecipient" fun _ => Table.setTrigger "OrderRecipient_setUpdatedAt" false,
    recipients.alter "OrderRecipient" fun db => Table.update db.ids OrderRecipient.id
      (referenced (rowsOf db.orders) (rowsOf db.phones) (rowsOf db.addresses))
      (plan.recipients ((rowsOf db.recipients).map OrderRecipient.id)),
    recipients.alter "OrderRecipient" fun _ => Table.setTrigger "OrderRecipient_setUpdatedAt" true,
    recipients.alter "OrderRecipient" fun db => Table.addConstraint db.ids
      ⟨"buyerId NOT NULL", ["buyerId"], .check fun r => r.buyerId.isSome⟩,
    recipients.alter "OrderRecipient" fun db => Table.addConstraint db.ids
      ⟨"phoneId NOT NULL", ["phoneId"], .check fun r => r.phoneId.isSome⟩,
    recipients.alter "OrderRecipient" fun db => Table.addConstraint db.ids
      ⟨"deliveryAddressId NOT NULL", ["deliveryAddressId"], .check fun r => r.deliveryAddressId.isSome⟩,
    recipients.alter "OrderRecipient" fun db => Table.addConstraint db.ids
      ⟨"OrderRecipient_phoneId_key", ["phoneId"], .unique fun r r' => equal r.phoneId r'.phoneId⟩,
    recipients.alter "OrderRecipient" fun db => Table.addConstraint db.ids
      ⟨"OrderRecipient_deliveryAddressId_key", ["deliveryAddressId"],
        .unique fun r r' => equal r.deliveryAddressId r'.deliveryAddressId⟩,
    recipients.alter "OrderRecipient" fun db => Table.addConstraint db.ids
      ⟨"OrderRecipient_buyerId_fkey", ["buyerId"], .references .user OrderRecipient.buyerId⟩,
    recipients.alter "OrderRecipient" fun db => Table.addConstraint db.ids
      ⟨"OrderRecipient_phoneId_fkey", ["phoneId"], .references .phone OrderRecipient.phoneId⟩,
    recipients.alter "OrderRecipient" fun db => Table.addConstraint db.ids
      ⟨"OrderRecipient_deliveryAddressId_fkey", ["deliveryAddressId"],
        .references .address OrderRecipient.deliveryAddressId⟩]

def dropEmbedded : List (Statement Db) :=
  [phones.alter "Phone" fun _ => Table.dropColumn "recipientId" fun p => { p with recipientId := none },
    addresses.alter "DeliveryAddress" fun _ => Table.dropColumn "recipientId" fun a => { a with recipientId := none },
    recipients.alter "OrderRecipient" fun _ => Table.dropConstraint "OrderRecipient_phoneNationalNumber_fmt",
    recipients.alter "OrderRecipient" fun _ => Table.dropConstraint "OrderRecipient_phoneFullNumber_e164",
    recipients.alter "OrderRecipient" fun _ => Table.dropColumn "addressBuilding" fun r =>
      { r with addressBuilding := none },
    recipients.alter "OrderRecipient" fun _ => Table.dropColumn "addressCity" fun r => { r with addressCity := none },
    recipients.alter "OrderRecipient" fun _ => Table.dropColumn "addressLine" fun r => { r with addressLine := none },
    recipients.alter "OrderRecipient" fun _ => Table.dropColumn "phoneNationalNumber" fun r =>
      { r with phoneNationalNumber := none },
    recipients.alter "OrderRecipient" fun _ => Table.dropColumn "phoneFullNumber" fun r =>
      { r with phoneFullNumber := none },
    recipients.alter "OrderRecipient" fun _ => Table.dropColumn "phoneRawNumber" fun r =>
      { r with phoneRawNumber := none },
    recipients.alter "OrderRecipient" fun _ => Table.dropColumn "phoneCountryCode" fun r =>
      { r with phoneCountryCode := none },
    orders.alter "Order" fun _ => Table.dropColumn "userId" fun o => { o with userId := none }]

def down : List (Statement Db) := rebuild ++ reference plan ++ dropEmbedded

end OrderOwnsUserAndContact

namespace IdentityOwnsLoginPhone

variable (now : Nat) (plan : Plan)

def embedLogin : List (Statement Db) :=
  [identities.alter "Identity" fun _ => Table.addColumn "loginPhoneCountryCode"
      ⟨"loginPhoneCountryCode CountryCodeEnum", ["loginPhoneCountryCode"], .check fun _ => true⟩
      fun i => { i with loginPhoneCountryCode := none },
    identities.alter "Identity" fun _ => Table.addColumn "loginPhoneRawNumber"
      ⟨"loginPhoneRawNumber varchar(32)", ["loginPhoneRawNumber"], .check fun i => varchar 32 i.loginPhoneRawNumber⟩
      fun i => { i with loginPhoneRawNumber := none },
    identities.alter "Identity" fun _ => Table.addColumn "loginPhoneFullNumber"
      ⟨"loginPhoneFullNumber varchar(16)", ["loginPhoneFullNumber"], .check fun i => varchar 16 i.loginPhoneFullNumber⟩
      fun i => { i with loginPhoneFullNumber := none },
    identities.alter "Identity" fun _ => Table.addColumn "loginPhoneNationalNumber"
      ⟨"loginPhoneNationalNumber varchar(15)", ["loginPhoneNationalNumber"],
        .check fun i => varchar 15 i.loginPhoneNationalNumber⟩
      fun i => { i with loginPhoneNationalNumber := none },
    identities.alter "Identity" fun _ => Table.setTrigger "Identity_setUpdatedAt" false,
    identities.alter "Identity" fun db => Table.update db.ids Identity.id (loginEmbedded (rowsOf db.phones))
      (plan.identities ((rowsOf db.identities).map Identity.id)),
    identities.alter "Identity" fun _ => Table.setTrigger "Identity_setUpdatedAt" true,
    identities.alter "Identity" fun db => Table.addConstraint db.ids
      ⟨"Identity_loginPhoneFullNumber_e164", ["loginPhoneFullNumber"], .check fun i => i.loginPhoneFullNumber.all e164⟩,
    identities.alter "Identity" fun db => Table.addConstraint db.ids
      ⟨"Identity_loginPhoneNationalNumber_fmt", ["loginPhoneNationalNumber"],
        .check fun i => i.loginPhoneNationalNumber.all nationalFormat⟩]

def dropPhone : List (Statement Db) :=
  [identities.alter "Identity" fun _ => Table.dropConstraint "Identity_login_present",
    identities.alter "Identity" fun db => Table.addConstraint db.ids
      ⟨"Identity_login_present", ["email", "loginPhoneFullNumber"],
        .check fun i => i.email.isSome || i.loginPhoneFullNumber.isSome⟩,
    identities.alter "Identity" fun _ => Table.dropConstraint "Identity_phoneId_fkey",
    identities.alter "Identity" fun _ => Table.dropConstraint "Identity_phoneId_key",
    identities.alter "Identity" fun _ => Table.dropColumn "phoneId" fun i => { i with phoneId := none },
    phones.drop "Phone" (Db.referring .phone)]

def up : List (Statement Db) := embedLogin plan ++ dropPhone

def createPhone : List (Statement Db) :=
  [phones.create ⟨"Phone", ["id", "countryCode", "rawNumber", "fullNumber", "nationalNumber", "createdAt", "updatedAt",
      "deletedAt"], phoneConstraints, [], 1, []⟩,
    phones.alter "Phone" fun _ => Table.createTrigger
      ⟨"Phone_setUpdatedAt", true, fun p => { p with updatedAt := now }⟩,
    phones.alter "Phone" fun _ => Table.addColumn "identityId"
      ⟨"identityId integer", ["identityId"], .check fun p => integer p.identityId⟩
      fun p => { p with identityId := none },
    phones.alter "Phone" fun db => Table.insert db.ids (loginPhones (rowsOf db.identities))]

def reference : List (Statement Db) :=
  [identities.alter "Identity" fun _ => Table.addColumn "phoneId"
      ⟨"phoneId uint", ["phoneId"], .check fun i => i.phoneId.all uint⟩ fun i => { i with phoneId := none },
    identities.alter "Identity" fun _ => Table.setTrigger "Identity_setUpdatedAt" false,
    identities.alter "Identity" fun db => Table.update db.ids Identity.id (loginReferenced (rowsOf db.phones))
      (plan.identities ((rowsOf db.identities).map Identity.id)),
    identities.alter "Identity" fun _ => Table.setTrigger "Identity_setUpdatedAt" true,
    phones.alter "Phone" fun _ => Table.dropColumn "identityId" fun p => { p with identityId := none },
    identities.alter "Identity" fun db => Table.addConstraint db.ids
      ⟨"Identity_phoneId_key", ["phoneId"], .unique fun i i' => equal i.phoneId i'.phoneId⟩,
    identities.alter "Identity" fun db => Table.addConstraint db.ids
      ⟨"Identity_phoneId_fkey", ["phoneId"], .references .phone Identity.phoneId⟩,
    identities.alter "Identity" fun _ => Table.dropConstraint "Identity_login_present",
    identities.alter "Identity" fun db => Table.addConstraint db.ids
      ⟨"Identity_login_present", ["email", "phoneId"], .check fun i => i.email.isSome || i.phoneId.isSome⟩]

def dropLogin : List (Statement Db) :=
  [identities.alter "Identity" fun _ => Table.dropConstraint "Identity_loginPhoneNationalNumber_fmt",
    identities.alter "Identity" fun _ => Table.dropConstraint "Identity_loginPhoneFullNumber_e164",
    identities.alter "Identity" fun _ => Table.dropColumn "loginPhoneNationalNumber" fun i =>
      { i with loginPhoneNationalNumber := none },
    identities.alter "Identity" fun _ => Table.dropColumn "loginPhoneFullNumber" fun i =>
      { i with loginPhoneFullNumber := none },
    identities.alter "Identity" fun _ => Table.dropColumn "loginPhoneRawNumber" fun i =>
      { i with loginPhoneRawNumber := none },
    identities.alter "Identity" fun _ => Table.dropColumn "loginPhoneCountryCode" fun i =>
      { i with loginPhoneCountryCode := none }]

def down : List (Statement Db) := createPhone now ++ reference plan ++ dropLogin

end IdentityOwnsLoginPhone

/-- The two migrations, and their `down` in reverse order. -/
def up (plan : Plan) : List (Statement Db) := OrderOwnsUserAndContact.up plan ++ IdentityOwnsLoginPhone.up plan

def down (now : Nat) (plan : Plan) : List (Statement Db) :=
  IdentityOwnsLoginPhone.down now plan ++ OrderOwnsUserAndContact.down plan

/-- The rows of a database before the two migrations. -/
structure Rows where
  users : List User
  phones : List Phone
  addresses : List DeliveryAddress
  identities : List Identity
  recipients : List OrderRecipient
  orders : List Order
  next : TableId → Nat

namespace Rows

variable (now : Nat) (d : Rows)

def userTable : Table TableId User := ⟨"User", ["id", "deliveryAddressId"], userConstraints, [], d.next .user, d.users⟩

def phoneTable : Table TableId Phone :=
  ⟨"Phone", ["id", "countryCode", "rawNumber", "fullNumber", "nationalNumber", "createdAt", "updatedAt", "deletedAt"],
    phoneConstraints, [⟨"Phone_setUpdatedAt", true, fun p => { p with updatedAt := now }⟩], d.next .phone, d.phones⟩

def addressTable : Table TableId DeliveryAddress :=
  ⟨"DeliveryAddress", ["id", "addressLine", "city", "building", "createdAt", "updatedAt", "deletedAt"],
    addressConstraints, [⟨"DeliveryAddress_setUpdatedAt", true, fun a => { a with updatedAt := now }⟩],
    d.next .address, d.addresses⟩

def identityTable : Table TableId Identity :=
  ⟨"Identity", ["id", "email", "phoneId", "createdAt", "updatedAt"], identityConstraints,
    [⟨"Identity_setUpdatedAt", true, fun i => { i with updatedAt := now }⟩], d.next .identity, d.identities⟩

def recipientTable : Table TableId OrderRecipient :=
  ⟨"OrderRecipient", ["id", "buyerId", "phoneId", "deliveryAddressId", "createdAt", "updatedAt"], recipientConstraints,
    [⟨"OrderRecipient_setUpdatedAt", true, fun r => { r with updatedAt := now }⟩], d.next .recipient, d.recipients⟩

def orderTable : Table TableId Order :=
  ⟨"Order", ["id", "orderRecipientId", "updatedAt"], orderConstraints,
    [⟨"Order_setUpdatedAt", true, fun o => { o with updatedAt := now }⟩], d.next .order, d.orders⟩

def db : Db where
  users := some d.userTable
  phones := some (d.phoneTable now)
  addresses := some (d.addressTable now)
  identities := some (d.identityTable now)
  recipients := some (d.recipientTable now)
  orders := some (d.orderTable now)

end Rows

/-- A database that satisfies the constraints in force before the migrations, with an order for
every recipient. An identity column has handed out every id in use. -/
structure State extends Rows where
  users_valid : ∀ now, toRows.userTable.Valid (toRows.db now).ids
  phones_valid : ∀ now, (toRows.phoneTable now).Valid (toRows.db now).ids
  addresses_valid : ∀ now, (toRows.addressTable now).Valid (toRows.db now).ids
  identities_valid : ∀ now, (toRows.identityTable now).Valid (toRows.db now).ids
  recipients_valid : ∀ now, (toRows.recipientTable now).Valid (toRows.db now).ids
  orders_valid : ∀ now, (toRows.orderTable now).Valid (toRows.db now).ids
  next_pos : 0 < toRows.next .address
  addresses_next : ∀ a ∈ toRows.addresses, a.id < toRows.next .address
  ordered : ∀ r ∈ toRows.recipients, ∃ o ∈ toRows.orders, o.orderRecipientId = r.id

/-- The fields of a phone or an address, wherever they are stored. -/
structure Number where
  countryCode : Option CountryCodeEnum
  rawNumber : Option String
  fullNumber : Option String
  nationalNumber : Option String
  deriving DecidableEq

structure Place where
  addressLine : Option String
  city : Option String
  building : Option String
  deriving DecidableEq

structure RecipientContact where
  id : Nat
  buyerId : Option Nat
  phone : Option Number
  address : Option Place
  createdAt : Nat
  updatedAt : Nat
  deriving DecidableEq

structure IdentityContact where
  id : Nat
  email : Option String
  phone : Option Number
  createdAt : Nat
  updatedAt : Nat
  deriving DecidableEq

structure UserContact where
  id : Nat
  address : Option Place
  deriving DecidableEq

structure OrderContact where
  id : Nat
  orderRecipientId : Nat
  updatedAt : Nat
  deriving DecidableEq

/-- What a database says about contacts, apart from the ids and timestamps of phones and addresses. -/
structure Contacts where
  users : List UserContact
  identities : List IdentityContact
  recipients : List RecipientContact
  orders : List OrderContact
  deriving DecidableEq

def Phone.number (p : Phone) : Number := ⟨p.countryCode, p.rawNumber, p.fullNumber, p.nationalNumber⟩

def DeliveryAddress.place (a : DeliveryAddress) : Place := ⟨a.addressLine, a.city, a.building⟩

namespace Db

variable (db : Db)

def numberOf (phoneId : Option Nat) : Option Number :=
  ((rowsOf db.phones).find? fun p => some p.id = phoneId).map Phone.number

def placeOf (addressId : Option Nat) : Option Place :=
  ((rowsOf db.addresses).find? fun a => some a.id = addressId).map DeliveryAddress.place

def buyerOf (recipientId : Nat) : Option Nat :=
  ((rowsOf db.orders).find? fun o => o.orderRecipientId = recipientId).bind Order.userId

def userContacts : List UserContact :=
  (rowsOf db.users).map fun u => ⟨u.id, db.placeOf u.deliveryAddressId⟩

def orderContacts : List OrderContact :=
  (rowsOf db.orders).map fun o => ⟨o.id, o.orderRecipientId, o.updatedAt⟩

/-- The contacts of a database that refers to phones and addresses. -/
def referencedContacts : Contacts where
  users := db.userContacts
  identities := (rowsOf db.identities).map fun i => ⟨i.id, i.email, db.numberOf i.phoneId, i.createdAt, i.updatedAt⟩
  recipients := (rowsOf db.recipients).map fun r =>
    ⟨r.id, r.buyerId, db.numberOf r.phoneId, db.placeOf r.deliveryAddressId, r.createdAt, r.updatedAt⟩
  orders := db.orderContacts

def loginNumber (i : Identity) : Option Number :=
  i.loginPhoneFullNumber.map fun fullNumber =>
    ⟨i.loginPhoneCountryCode, i.loginPhoneRawNumber, some fullNumber, i.loginPhoneNationalNumber⟩

/-- The contacts of a database that embeds them in identities and recipients. -/
def embeddedContacts : Contacts where
  users := db.userContacts
  identities := (rowsOf db.identities).map fun i => ⟨i.id, i.email, loginNumber i, i.createdAt, i.updatedAt⟩
  recipients := (rowsOf db.recipients).map fun r =>
    ⟨r.id, db.buyerOf r.id, some ⟨r.phoneCountryCode, r.phoneRawNumber, r.phoneFullNumber, r.phoneNationalNumber⟩,
      some ⟨r.addressLine, r.addressCity, r.addressBuilding⟩, r.createdAt, r.updatedAt⟩
  orders := db.orderContacts

end Db

end Contact

end MarketplaceApi.Migrations
