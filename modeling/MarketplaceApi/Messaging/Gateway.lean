import MarketplaceApi.Account.Handlers
import MarketplaceApi.Money.Decimal
import MarketplaceApi.Stock.Handlers

/-!
# Requests between the contexts and the checks at their receivers

The four request contracts as they travel, and the validation each gateway handler makes
before anything else. A message that fails it is answered with `Nack(false)`, here `none`;
one that passes becomes the request its handler works on. `isUUID` is class-validator's;
`key` turns the text of a uuid into the value it denotes.
-/
namespace MarketplaceApi.Messaging

open Money

/-- `CloudEventInterface` but for `time`, which nothing reads. -/
structure CloudEvent (D : Type) where
  specversion : String
  id : String
  source : String
  type : String
  datacontenttype : String
  subject : Option String
  correlationid : Option String
  data : D
  deriving DecidableEq

namespace StockReserveRequest

def TYPE : String := "seller-offer.stock.reserve"
def SOURCE : String := "/order-service"

structure Item where
  offerId : Int
  quantity : Int
  deriving DecidableEq

structure Data where
  items : List Item
  deriving DecidableEq

end StockReserveRequest

namespace StockReleaseRequest

def TYPE : String := "seller-offer.stock.release"
def SOURCE : String := "/order-service"

structure Data where
  orderPublicId : String
  deriving DecidableEq

end StockReleaseRequest

namespace AccountCustomerChargeRequest

def TYPE : String := "account.customer.charge"
def SOURCE : String := "/order-service"

structure Data where
  customerId : Int
  amount : List Char
  deriving DecidableEq

end AccountCustomerChargeRequest

namespace AccountCustomerRefundRequest

def TYPE : String := "account.customer.refund"
def SOURCE : String := "/order-service"

structure Data where
  customerId : Int
  amount : List Char
  chargeId : String
  deriving DecidableEq

end AccountCustomerRefundRequest

/-- `Number.isSafeInteger` -/
def isSafeInteger (n : Int) : Bool := decide (-(2 ^ 53 - 1) ≤ n ∧ n ≤ 2 ^ 53 - 1)

section
variable (isUUID : String → Bool)

namespace AccountGateway

def isValidMovement (customerId : Int) (amount : List Char) : Bool :=
  isSafeInteger customerId && decide (0 < customerId) && matchesAmount amount && decide (0 < toCents amount)

/-- The condition at the head of `handleCustomerCharge`. -/
def acceptsCharge (msg : CloudEvent AccountCustomerChargeRequest.Data) : Bool :=
  msg.specversion == "1.0" && msg.type == AccountCustomerChargeRequest.TYPE && isUUID msg.id &&
    msg.subject.any isUUID && isValidMovement msg.data.customerId msg.data.amount

/-- The condition at the head of `handleCustomerRefund`. -/
def acceptsRefund (msg : CloudEvent AccountCustomerRefundRequest.Data) : Bool :=
  msg.specversion == "1.0" && msg.type == AccountCustomerRefundRequest.TYPE && isUUID msg.id &&
    isUUID msg.data.chargeId && isValidMovement msg.data.customerId msg.data.amount

theorem isValidMovement_iff {customerId : Int} {amount : List Char} :
    isValidMovement customerId amount = true ↔ isSafeInteger customerId = true ∧ 0 < customerId ∧
      matchesAmount amount = true ∧ 0 < toCents amount := by
  simp only [isValidMovement, Bool.and_eq_true, decide_eq_true_eq, and_assoc]

def movement? (customerId : Int) (amount : List Char) : Option Account.Movement :=
  if h : isValidMovement customerId amount = true then
    have hm := isValidMovement_iff.mp h
    have hsafe := of_decide_eq_true hm.1
    some ⟨customerId.toNat, toCents amount, by omega, by omega, hm.2.2.2, toCents_lt hm.2.2.1⟩
  else none

theorem movement?_some {customerId : Int} {amount : List Char} {m : Account.Movement}
    (h : movement? customerId amount = some m) : (m.customerId : Int) = customerId ∧ m.amount = toCents amount := by
  unfold movement? at h
  split at h
  · rename_i hvalid
    have hpos := (isValidMovement_iff.mp hvalid).2.1
    cases h
    exact ⟨Int.toNat_of_nonneg (Int.le_of_lt hpos), rfl⟩
  · cases h

def chargeRequest? (key : String → Account.Uuid) (msg : CloudEvent AccountCustomerChargeRequest.Data) :
    Option Account.Request :=
  if acceptsCharge isUUID msg then
    (movement? msg.data.customerId msg.data.amount).map fun data => .charge ⟨key msg.id, data⟩
  else none

def refundRequest? (key : String → Account.Uuid) (msg : CloudEvent AccountCustomerRefundRequest.Data) :
    Option Account.Request :=
  if acceptsRefund isUUID msg then
    (movement? msg.data.customerId msg.data.amount).map fun data =>
      .refund ⟨key msg.id, data, key msg.data.chargeId⟩
  else none

end AccountGateway

namespace SellerOfferGateway

def isValidItem (item : StockReserveRequest.Item) : Bool :=
  isSafeInteger item.offerId && decide (0 < item.offerId) && isSafeInteger item.quantity &&
    decide (0 < item.quantity)

def isValidItems (items : List StockReserveRequest.Item) : Bool :=
  decide (0 < items.length) && items.all isValidItem

/-- The condition at the head of `handleStockReserve`. -/
def acceptsReserve (msg : CloudEvent StockReserveRequest.Data) : Bool :=
  msg.specversion == "1.0" && msg.type == StockReserveRequest.TYPE && msg.subject.any isUUID &&
    isValidItems msg.data.items

/-- The condition at the head of `handleStockRelease`. -/
def acceptsRelease (msg : CloudEvent StockReleaseRequest.Data) : Bool :=
  msg.specversion == "1.0" && msg.type == StockReleaseRequest.TYPE && isUUID msg.data.orderPublicId

theorem isValidItem_iff {item : StockReserveRequest.Item} : isValidItem item = true ↔
    (isSafeInteger item.offerId = true ∧ 0 < item.offerId) ∧
      isSafeInteger item.quantity = true ∧ 0 < item.quantity := by
  simp only [isValidItem, Bool.and_eq_true, decide_eq_true_eq, and_assoc]

def item? (item : StockReserveRequest.Item) : Option Stock.Item :=
  if h : isValidItem item = true then
    have hi := isValidItem_iff.mp h
    some ⟨item.offerId.toNat, item.quantity.toNat, by omega⟩
  else none

def reserveRequest? (key : String → Stock.Uuid) (msg : CloudEvent StockReserveRequest.Data) :
    Option Stock.Request :=
  if acceptsReserve isUUID msg then
    some (.reserve (key (msg.subject.getD "")) (msg.data.items.filterMap item?))
  else none

def releaseRequest? (key : String → Stock.Uuid) (msg : CloudEvent StockReleaseRequest.Data) :
    Option Stock.Request :=
  if acceptsRelease isUUID msg then some (.release (key msg.data.orderPublicId)) else none

end SellerOfferGateway

end

end MarketplaceApi.Messaging
