import MarketplaceApi.Money.Decimal

/-!
# Tables of the order context

`Order` with its recipient and lines, the two outboxes, and the columns of `SellerOffer`
that pricing reads. Prices are values of the domain `amount` and a discount is never above
its price, by construction. A timestamp is in milliseconds, as the driver returns it; those that
nothing reads are left out.
-/
namespace MarketplaceApi.Placement

open Money

/-- `OrderStatusEnum` -/
inductive OrderStatus where
  | created
  | pendingPayment
  | failedPayment
  | paid
  | confirmed
  | preparing
  | shipped
  | delivered
  | completed
  | canceled
  | refunded
  deriving DecidableEq

def OrderStatus.text : OrderStatus → String
  | .created => "created"
  | .pendingPayment => "pending_payment"
  | .failedPayment => "failed_payment"
  | .paid => "paid"
  | .confirmed => "confirmed"
  | .preparing => "preparing"
  | .shipped => "shipped"
  | .delivered => "delivered"
  | .completed => "completed"
  | .canceled => "canceled"
  | .refunded => "refunded"

inductive Currency where
  | uah
  | eur
  | usd
  deriving DecidableEq

def Currency.text : Currency → String
  | .uah => "UAH"
  | .eur => "EUR"
  | .usd => "USD"

inductive CountryCode where
  | ua
  | us
  | pl
  | de
  | gb
  deriving DecidableEq

/-- The domain `amount`: `numeric(12,2)` of at least 0, in cents. -/
abbrev Amount := { cents : Nat // cents < 10 ^ 12 }

structure SellerOffer where
  price : Amount
  discountPrice : Option Amount
  currency : Currency
  deleted : Bool
  discount_le : ∀ d ∈ discountPrice, d.val ≤ price.val

structure RecipientPhone where
  countryCode : CountryCode
  rawNumber : String
  fullNumber : String
  nationalNumber : String
  deriving DecidableEq

structure RecipientAddress where
  addressLine : String
  city : String
  building : Option String
  deriving DecidableEq

structure OrderRecipient where
  id : Nat
  fullName : String
  phone : RecipientPhone
  address : RecipientAddress
  deriving DecidableEq

/-- `totalAmount` and `discountAmount` are the strings the driver returns. -/
structure Order where
  id : Nat
  publicId : String
  userId : Int
  ownerIdentityPublicId : String
  orderRecipientId : Nat
  idempotencyKey : Option String
  status : OrderStatus
  totalAmount : List Char
  discountAmount : List Char
  currency : Currency
  createdAt : Nat
  updatedAt : Nat
  deriving DecidableEq

structure OrderLine where
  orderId : Nat
  offerId : Nat
  quantity : Nat
  unitPrice : Amount
  unitDiscountPrice : Option Amount
  deriving DecidableEq

structure OrderPlaceItem where
  offerId : Nat
  quantity : Nat
  deriving DecidableEq

structure OrderPlaceWorkflowInput where
  orderId : Nat
  orderPublicId : String
  userId : Int
  totalAmount : List Char
  items : List OrderPlaceItem
  deriving DecidableEq

/-- `OrderFailedEvent.ReasonType` -/
inductive FailureReason where
  | insufficientStock
  | paymentRejected
  | error
  deriving DecidableEq

def FailureReason.text : FailureReason → String
  | .insufficientStock => "insufficient_stock"
  | .paymentRejected => "payment_rejected"
  | .error => "error"

/-- `OrderFailureInterface` -/
structure OrderFailure where
  status : OrderStatus
  reason : FailureReason
  deriving DecidableEq

/-- The payloads of `order.created`, `order.paid` and `order.failed`. -/
inductive OrderEvent where
  | created (orderId : Nat) (orderPublicId : String) (userId : Int) (totalAmount discountAmount : List Char)
      (currency : Currency) (createdAt : Nat)
  | paid (orderId : Nat) (orderPublicId : String) (userId : Int) (totalAmount discountAmount : List Char)
      (currency : Currency) (lines : List OrderLine) (paidAt : Nat)
  | failed (orderId : Nat) (orderPublicId : String) (userId : Int) (failure : OrderFailure) (failedAt : Nat)
  deriving DecidableEq

namespace OrderEvent

def type : OrderEvent → String
  | .created .. => "order.created"
  | .paid .. => "order.paid"
  | .failed .. => "order.failed"

def orderId : OrderEvent → Nat
  | .created orderId .. => orderId
  | .paid orderId .. => orderId
  | .failed orderId .. => orderId

/-- The status of the order when it was written. -/
def status : OrderEvent → OrderStatus
  | .created .. => .pendingPayment
  | .paid .. => .paid
  | .failed _ _ _ failure _ => failure.status

theorem status_of_type (event : OrderEvent) :
    (event.type = "order.created" → event.status = .pendingPayment) ∧
      (event.type = "order.paid" → event.status = .paid) := by
  cases event <;> simp [type, status]

end OrderEvent

structure OrderOutbox where
  id : Nat
  topic : String
  aggregateType : String
  aggregateId : String
  payload : OrderEvent
  deriving DecidableEq

structure OrderWorkflowOutbox where
  workflowId : String
  workflowType : String
  taskQueue : String
  input : OrderPlaceWorkflowInput
  deriving DecidableEq

structure OrderBuyer where
  identityPublicId : String
  userId : Int
  deriving DecidableEq

structure Tables where
  offers : Nat → Option SellerOffer
  recipients : List OrderRecipient
  orders : List Order
  lines : List OrderLine
  outbox : List OrderOutbox
  workflowOutbox : List OrderWorkflowOutbox

/-- `discountPrice` if there is one, else `price`. -/
def SellerOffer.payable (offer : SellerOffer) : Nat := (offer.discountPrice.getD offer.price).val

theorem payable_le (offer : SellerOffer) : offer.payable ≤ offer.price.val := by
  unfold SellerOffer.payable
  cases h : offer.discountPrice with
  | none => exact Nat.le_refl _
  | some d => exact offer.discount_le d h

/-- What an offer costs the buyer; nothing if there is no such offer. -/
def Tables.payable (s : Tables) (offerId : Nat) : Nat :=
  ((s.offers offerId).map SellerOffer.payable).getD 0

def Tables.linesOf (s : Tables) (orderId : Nat) : List OrderLine :=
  s.lines.filter fun line => line.orderId = orderId

def Tables.addRecipient (s : Tables) (recipient : OrderRecipient) : Tables :=
  { s with recipients := recipient :: s.recipients }

def Tables.addOrder (s : Tables) (order : Order) : Tables := { s with orders := order :: s.orders }

def Tables.addLines (s : Tables) (lines : List OrderLine) : Tables := { s with lines := lines ++ s.lines }

def Tables.addOutbox (s : Tables) (row : OrderOutbox) : Tables := { s with outbox := row :: s.outbox }

def Tables.addWorkflow (s : Tables) (row : OrderWorkflowOutbox) : Tables :=
  { s with workflowOutbox := row :: s.workflowOutbox }

section
variable (s : Tables) (recipient : OrderRecipient) (order : Order) (lines : List OrderLine)
  (row : OrderOutbox) (w : OrderWorkflowOutbox)

@[simp] theorem addRecipient_workflowOutbox : (s.addRecipient recipient).workflowOutbox = s.workflowOutbox := rfl
@[simp] theorem addOrder_workflowOutbox : (s.addOrder order).workflowOutbox = s.workflowOutbox := rfl
@[simp] theorem addLines_workflowOutbox : (s.addLines lines).workflowOutbox = s.workflowOutbox := rfl
@[simp] theorem addOutbox_workflowOutbox : (s.addOutbox row).workflowOutbox = s.workflowOutbox := rfl
@[simp] theorem addWorkflow_workflowOutbox : (s.addWorkflow w).workflowOutbox = w :: s.workflowOutbox := rfl

end

end MarketplaceApi.Placement
