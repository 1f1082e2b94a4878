import MarketplaceApi.Account.Tables
import MarketplaceApi.Txn.Interleaving

/-!
# Account handlers as transactions

The repository statements, the inbox and the command handlers, in the order the source
awaits them. An insert that meets a committed row and an update whose condition the
committed row fails take no lock; otherwise both wait for the row and look again. The
rows of `Transaction` are inserted by transactions that hold their customer's `Account`
row, so that row's lock stands for both.
-/
namespace MarketplaceApi.Account

open Txn

inductive Lock where
  | inbox (consumer : Consumer) (messageId : Uuid)
  | account (customerId : Nat)
  deriving DecidableEq

inductive RejectReason where
  | insufficientAmount
  | customerNotFound
  deriving DecidableEq

inductive Failure where
  | rejected (reason : RejectReason) (amount : Nat) (balance : Int)
  | numericOverflow
  | integerOverflow
  | foreignKey
  deriving DecidableEq

/-- `DataInterface` after `isValidMovement`: a safe customer id and a positive amount of the money domain. -/
structure Movement where
  customerId : Nat
  amount : Nat
  customerId_pos : 0 < customerId
  customerId_safe : customerId < 2 ^ 53
  amount_pos : 0 < amount
  amount_fits : amount < 10 ^ 12
  deriving DecidableEq

structure ChargeRequest where
  id : Uuid
  data : Movement
  deriving DecidableEq

structure RefundRequest where
  id : Uuid
  data : Movement
  chargeId : Uuid
  deriving DecidableEq

inductive Request where
  | charge (msg : ChargeRequest)
  | refund (msg : RefundRequest)
  | userCreated (customerId : Nat)
  deriving DecidableEq

/-- What a handler that committed answers. A rejected charge answers from its `Failure`. -/
inductive Status where
  | success
  | refunded
  | notCharged
  | created (inserted : Bool)
  deriving DecidableEq

abbrev Program := Prog Lock Tables Failure

namespace AccountInboxRepository

/-- `INSERT INTO "AccountInbox" … ON CONFLICT DO NOTHING RETURNING`. -/
def createIfAbsent (consumer : Consumer) (messageId : Uuid) : Program Bool := do
  if ← Prog.look fun s => decide ((consumer, messageId) ∈ s.inbox) then
    return false
  else
    Prog.exec [.inbox consumer messageId] fun s =>
      if (consumer, messageId) ∈ s.inbox then .ok (s, false)
      else .ok (s.addInbox consumer messageId, true)

end AccountInboxRepository

namespace AccountRepository

/-- A value for the column `customerId`. -/
def bindInteger (customerId : Nat) : Program Unit :=
  if maxInteger < customerId then .throw .integerOverflow else .ret ()

/-- The condition of the guarded update: the account exists and holds the amount. -/
def covers (s : Tables) (customerId amount : Nat) : Bool :=
  match s.balance customerId with
  | some balance => decide (customerId ≤ maxInteger ∧ (amount : Int) ≤ balance)
  | none => false

/-- `UPDATE "Account" SET "balance" = "balance" - $2 WHERE … AND "balance" >= $2 RETURNING`. -/
def debit (customerId amount : Nat) : Program Bool := do
  bindInteger customerId
  if ← Prog.look fun s => covers s customerId amount then
    Prog.exec [.account customerId] fun s =>
      match s.balance customerId with
      | some balance =>
        if (amount : Int) ≤ balance then .ok (s.setBalance customerId (balance - amount), true)
        else .ok (s, false)
      | none => .ok (s, false)
  else
    return false

/-- `INSERT INTO "Account" … ON CONFLICT DO UPDATE SET "balance" = "Account"."balance" + EXCLUDED."balance"`. -/
def credit (customerId amount : Nat) : Program Unit := do
  bindInteger customerId
  Prog.exec [.account customerId] fun s =>
    let balance := (s.balance customerId).getD 0 + amount
    if fitsNumeric balance then .ok (s.setBalance customerId balance, ()) else .error .numericOverflow

def createIfAbsent (customerId : Nat) : Program Bool := do
  bindInteger customerId
  if ← Prog.look fun s => (s.balance customerId).isSome then
    return false
  else
    Prog.exec [.account customerId] fun s =>
      if (s.balance customerId).isSome then .ok (s, false)
      else .ok (s.setBalance customerId 0, true)

def findBalance (customerId : Nat) : Program (Option Int) := do
  bindInteger customerId
  Prog.look fun s => s.balance customerId

/-- The insert of a ledger row, under `Transaction_customerId_fkey`. -/
def create (t : Transaction) : Program Unit := do
  bindInteger t.customerId
  Prog.exec [.account t.customerId] fun s =>
    if (s.balance t.customerId).isSome then .ok (s.addTransaction t, ()) else .error .foreignKey

end AccountRepository

namespace AccountInboxService

/-- The effect's own result is kept for the caller: `none` is a skipped duplicate. -/
def processOnce {R : Type} (consumer : Consumer) (messageId : Uuid) (effect : Program R) :
    Program (Option R) := do
  if ← AccountInboxRepository.createIfAbsent consumer messageId then
    return some (← effect)
  else
    return none

def markProcessed (consumer : Consumer) (messageId : Uuid) : Program Bool :=
  AccountInboxRepository.createIfAbsent consumer messageId

end AccountInboxService

def payment (msg : ChargeRequest) : Transaction :=
  ⟨msg.data.customerId, msg.data.amount, .payment, .success, some msg.id, some msg.id⟩

def refundRow (msg : RefundRequest) : Transaction :=
  ⟨msg.data.customerId, msg.data.amount, .refund, .success, some msg.chargeId, some msg.id⟩

namespace AccountCustomerChargeCommandHandler

def execute (msg : ChargeRequest) : Program Unit := do
  if ← AccountRepository.debit msg.data.customerId msg.data.amount then
    AccountRepository.create (payment msg)
  else
    match ← AccountRepository.findBalance msg.data.customerId with
    | none => .throw (.rejected .customerNotFound 0 0)
    | some balance => .throw (.rejected .insufficientAmount msg.data.amount balance)

end AccountCustomerChargeCommandHandler

namespace AccountCustomerRefundCommandHandler

/-- Without a row of the charge the refund writes it itself, as a fence, and moves no money. -/
def execute (msg : RefundRequest) : Program Bool := do
  if ← AccountInboxService.markProcessed .customerCharge msg.chargeId then
    return false
  else
    AccountRepository.credit msg.data.customerId msg.data.amount
    AccountRepository.create (refundRow msg)
    return true

end AccountCustomerRefundCommandHandler

namespace AccountGateway

/-- The transaction behind `handleCustomerCharge`, applied or skipped. -/
def handleCustomerCharge (msg : ChargeRequest) : Program Status := do
  let _ ← AccountInboxService.processOnce .customerCharge msg.id
    (AccountCustomerChargeCommandHandler.execute msg)
  return .success

/-- The transaction behind `handleCustomerRefund`; `refunded` starts as true and only the effect sets it. -/
def handleCustomerRefund (msg : RefundRequest) : Program Status := do
  let applied ← AccountInboxService.processOnce .customerRefund msg.id
    (AccountCustomerRefundCommandHandler.execute msg)
  return if applied.getD true then .refunded else .notCharged

end AccountGateway

namespace AccountCreateCommandHandler

/-- The effect of a `user.created` event. -/
def execute (customerId : Nat) : Program Status := do
  let inserted ← AccountRepository.createIfAbsent customerId
  return .created inserted

end AccountCreateCommandHandler

def handler : Request → Program Status
  | .charge msg => AccountGateway.handleCustomerCharge msg
  | .refund msg => AccountGateway.handleCustomerRefund msg
  | .userCreated customerId => AccountCreateCommandHandler.execute customerId

end MarketplaceApi.Account
