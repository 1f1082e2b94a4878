import Mathlib.Algebra.BigOperators.Group.List.Basic
import Mathlib.Algebra.Order.Ring.Int
import Mathlib.Logic.Function.Basic

/-!
# Tables of the account context

`Account`, `Transaction` and `AccountInbox` with the columns the handlers use. Money is
`numeric(12,2)`, kept as whole cents. Two fields of a ledger row are not columns: they
record which charge the row belongs to and which message wrote it, so that exactly-once
statements can be made about the rows themselves.
-/
namespace MarketplaceApi.Account

abbrev Uuid := Nat

inductive TransactionType where
  | deposit
  | payment
  | withdrawal
  | refund
  deriving DecidableEq

inductive TransactionStatus where
  | pending
  | failed
  | success
  deriving DecidableEq

/-- `AccountInbox.consumer`. -/
inductive Consumer where
  | customerCharge
  | customerRefund
  deriving DecidableEq

structure Transaction where
  customerId : Nat
  amount : Nat
  type : TransactionType
  status : TransactionStatus
  chargeId : Option Uuid
  messageId : Option Uuid
  deriving DecidableEq

structure Tables where
  balance : Nat → Option Int
  transactions : List Transaction
  inbox : List (Consumer × Uuid)

/-- No rows at all. -/
def Tables.empty : Tables := ⟨fun _ => none, [], []⟩

/-- One customer, funded by one deposit. -/
def Tables.funded (customerId amount : Nat) : Tables where
  balance c := if c = customerId then some amount else none
  transactions := [⟨customerId, amount, .deposit, .success, none, none⟩]
  inbox := []

/-- The last value of an `integer` column. -/
def maxInteger : Nat := 2147483647

/-- The range of `numeric(12,2)`, in cents. -/
def fitsNumeric (cents : Int) : Bool := decide (-(10 ^ 12) < cents ∧ cents < 10 ^ 12)

/-- The direction of money is in the type, the amount itself is never negative. -/
def Transaction.signed (t : Transaction) : Int :=
  match t.type with
  | .deposit | .refund => t.amount
  | .payment | .withdrawal => -t.amount

/-- The sum a customer's balance has to equal. -/
def Tables.ledger (s : Tables) (customerId : Nat) : Int :=
  ((s.transactions.filter fun t => t.customerId = customerId ∧ t.status = .success).map
    Transaction.signed).sum

/-- Ledger rows that belong to one charge. -/
def Tables.rowsOf (s : Tables) (chargeId : Uuid) : List Transaction :=
  s.transactions.filter fun t => t.chargeId = some chargeId

def Tables.rows (s : Tables) (type : TransactionType) (chargeId : Uuid) : List Transaction :=
  (s.rowsOf chargeId).filter fun t => t.type = type

def Tables.setBalance (s : Tables) (customerId : Nat) (cents : Int) : Tables :=
  { s with balance := Function.update s.balance customerId (some cents) }

def Tables.addTransaction (s : Tables) (t : Transaction) : Tables :=
  { s with transactions := t :: s.transactions }

def Tables.addInbox (s : Tables) (consumer : Consumer) (messageId : Uuid) : Tables :=
  { s with inbox := (consumer, messageId) :: s.inbox }

section
variable (s : Tables) (customerId : Nat) (cents : Int) (t : Transaction) (consumer : Consumer)
  (messageId : Uuid)

@[simp] theorem setBalance_transactions : (s.setBalance customerId cents).transactions = s.transactions := rfl
@[simp] theorem setBalance_inbox : (s.setBalance customerId cents).inbox = s.inbox := rfl
@[simp] theorem addTransaction_balance : (s.addTransaction t).balance = s.balance := rfl
@[simp] theorem addTransaction_inbox : (s.addTransaction t).inbox = s.inbox := rfl
@[simp] theorem addTransaction_transactions : (s.addTransaction t).transactions = t :: s.transactions := rfl
@[simp] theorem addInbox_balance : (s.addInbox consumer messageId).balance = s.balance := rfl
@[simp] theorem addInbox_transactions : (s.addInbox consumer messageId).transactions = s.transactions := rfl
@[simp] theorem addInbox_inbox : (s.addInbox consumer messageId).inbox = (consumer, messageId) :: s.inbox := rfl

@[simp] theorem setBalance_self : (s.setBalance customerId cents).balance customerId = some cents :=
  Function.update_self ..

theorem setBalance_other {customerId c : Nat} (h : c ≠ customerId) :
    (s.setBalance customerId cents).balance c = s.balance c := Function.update_of_ne h ..

@[simp] theorem ledger_setBalance (c : Nat) : (s.setBalance customerId cents).ledger c = s.ledger c := rfl
@[simp] theorem ledger_addInbox (c : Nat) : (s.addInbox consumer messageId).ledger c = s.ledger c := rfl

/-- One more successful row moves its own customer's sum only. -/
theorem ledger_addTransaction (h : t.status = .success) (c : Nat) :
    (s.addTransaction t).ledger c = s.ledger c + if t.customerId = c then t.signed else 0 := by
  unfold Tables.ledger
  by_cases hc : t.customerId = c
  · rw [addTransaction_transactions, List.filter_cons_of_pos (by simp [hc, h]), if_pos hc,
      List.map_cons, List.sum_cons]
    omega
  · rw [addTransaction_transactions, List.filter_cons_of_neg (by simp [hc]), if_neg hc]
    omega

@[simp] theorem rowsOf_setBalance (id : Uuid) : (s.setBalance customerId cents).rowsOf id = s.rowsOf id := rfl
@[simp] theorem rowsOf_addInbox (id : Uuid) : (s.addInbox consumer messageId).rowsOf id = s.rowsOf id := rfl

theorem rowsOf_addTransaction (id : Uuid) : (s.addTransaction t).rowsOf id =
    if t.chargeId = some id then t :: s.rowsOf id else s.rowsOf id := by
  unfold Tables.rowsOf
  by_cases h : t.chargeId = some id
  · rw [addTransaction_transactions, List.filter_cons_of_pos (by simpa using h), if_pos h]
  · rw [addTransaction_transactions, List.filter_cons_of_neg (by simpa using h), if_neg h]

end

end MarketplaceApi.Account
