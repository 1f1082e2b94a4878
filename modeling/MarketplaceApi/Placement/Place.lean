import MarketplaceApi.Placement.Tables
import MarketplaceApi.Text.Digits
import MarketplaceApi.Txn.Interleaving

/-!
# `createPending`

The transaction that places an order, statement by statement. What the database generates
(identity columns, `gen_random_uuid()`, the outbox `randomUUID()`) comes with the request
and is checked for uniqueness on insert. Sums are over exact cents.
-/
namespace MarketplaceApi.Placement

open Money Txn

inductive Lock where
  | advisory (key : Int)
  | idempotency (userId : Int) (idempotencyKey : String)
  | recipient (id : Nat)
  | order (id : Nat)
  | publicId (publicId : String)
  | event (id : Nat)
  | workflow (workflowId : String)
  deriving DecidableEq

/-- The 404 of an unknown offer and the violated constraints. -/
inductive Failure where
  | offerNotFound (message : String)
  | integerOverflow
  | uintDomain
  | numericOverflow
  | recipientCheck
  | recipientKey
  | orderKey
  | publicIdKey
  | idempotencyKey
  | lineKey
  | eventKey
  | workflowKey
  | entityNotFound
  deriving DecidableEq

abbrev Program := Prog Lock Tables Failure

/-- The largest value of an `integer` column. -/
def maxInteger : Nat := 2147483647

/-- A value the domain `uint` takes. -/
def isUint (n : Int) : Bool := decide (0 < n ∧ n ≤ maxInteger)

/-- `OrderCreateItemInput` after validation: two positive integers. -/
structure OrderCreateItemInput where
  offerId : Nat
  quantity : Nat
  offerId_positive : 0 < offerId
  quantity_min : 1 ≤ quantity

structure OrderCreateRecipientInput where
  fullName : String
  phone : RecipientPhone
  address : RecipientAddress
  deriving DecidableEq

/-- `OrderCreateInput` after validation. -/
structure OrderCreateInput where
  recipient : OrderCreateRecipientInput
  items : List OrderCreateItemInput
  currency : Currency
  items_notEmpty : items ≠ []

structure PricedOrderLine where
  offerId : Nat
  quantity : Nat
  unitPrice : Amount
  unitDiscountPrice : Option Amount
  amount : Nat
  discount : Nat

/-- The values the database and `randomUUID` make up for one order; `now()` is when its transaction began. -/
structure Generated where
  recipientId : Nat
  orderId : Nat
  publicId : String
  eventId : Nat
  now : Nat

/-- `^[0-9]{lo,hi}$` -/
def isDigits (lo hi : Nat) (s : List Char) : Bool :=
  decide (lo ≤ s.length ∧ s.length ≤ hi) && s.all Char.isDigit

/-- `^\+[1-9][0-9]{7,14}$` -/
def isE164 : List Char → Bool
  | '+' :: first :: rest => first.isDigit && first != '0' && isDigits 7 14 rest
  | _ => false

/-- The CHECK constraints and column lengths of `OrderRecipient`, and texts that can be stored. -/
def OrderRecipient.allowed (r : OrderRecipient) : Bool :=
  decide (r.fullName.length ≤ 201) && r.fullName.toList.any (fun c => c != ' ') &&
    decide (r.phone.rawNumber.length ≤ 32) && isE164 r.phone.fullNumber.toList &&
    isDigits 4 15 r.phone.nationalNumber.toList && decide (r.address.addressLine.length ≤ 255) &&
    decide (r.address.city.length ≤ 100) && r.address.building.all (fun b => decide (b.length ≤ 32)) &&
    ([r.fullName, r.phone.rawNumber, r.address.addressLine, r.address.city] ++ r.address.building.toList).all
      Text.isStorable

/-- The value a `uuid` column compares: letter case does not matter. -/
def uuidValue (text : String) : String := text.toLower

namespace OrderRepository

/-- `SELECT pg_advisory_xact_lock(hashtextextended($1, 0))` -/
def lockIdempotencyKey (hashtextextended : String → Int) (userId : Int) (idempotencyKey : String) : Program Unit :=
  Prog.exec [.advisory (hashtextextended ("order:" ++ toString userId ++ ":" ++ idempotencyKey))] fun s => .ok (s, ())

def findByIdempotencyKey (userId : Int) (idempotencyKey : String) : Program (Option Order) :=
  Prog.look fun s => s.orders.find? fun order =>
    order.userId = userId ∧ order.idempotencyKey = some (uuidValue idempotencyKey)

/-- The domains of `Order`, its keys, then the row. -/
def create (order : Order) : Program Order :=
  Prog.exec (.order order.id :: .publicId order.publicId ::
      (order.idempotencyKey.map (Lock.idempotency order.userId)).toList) fun s =>
    if !isUint order.userId then .error .uintDomain
    else if 10 ^ 12 ≤ toCents order.totalAmount ∨ 10 ^ 12 ≤ toCents order.discountAmount then
      .error .numericOverflow
    else if s.orders.any fun o => o.id = order.id then .error .orderKey
    else if s.orders.any fun o => o.publicId = order.publicId then .error .publicIdKey
    else if s.orders.any fun o =>
        order.idempotencyKey.isSome && o.userId = order.userId && o.idempotencyKey = order.idempotencyKey then
      .error .idempotencyKey
    else .ok (s.addOrder order, order)

end OrderRepository

namespace OrderRecipientRepository

def create (recipient : OrderRecipient) : Program OrderRecipient :=
  Prog.exec [.recipient recipient.id] fun s =>
    if !recipient.allowed then .error .recipientCheck
    else if s.recipients.any fun r => r.id = recipient.id then .error .recipientKey
    else .ok (s.addRecipient recipient, recipient)

end OrderRecipientRepository

namespace OrderLineRepository

/-- The domains of `OrderLine` and its key `(orderId, offerId)`, also among the new rows, which
are all of the order `orderId`. -/
def create (orderId : Nat) (lines : List OrderLine) : Program (List OrderLine) :=
  Prog.exec [.order orderId] fun s =>
    if lines.any fun line => !isUint line.offerId || !isUint line.quantity then .error .uintDomain
    else if ((lines ++ s.linesOf orderId).map fun line => (line.orderId, line.offerId)).Nodup then
      .ok (s.addLines lines, lines)
    else .error .lineKey

end OrderLineRepository

namespace OrderOutboxRepository

def create (row : OrderOutbox) : Program Unit :=
  Prog.exec [.event row.id] fun s =>
    if s.outbox.any fun r => r.id = row.id then .error .eventKey else .ok (s.addOutbox row, ())

end OrderOutboxRepository

namespace OrderWorkflowOutboxRepository

def create (row : OrderWorkflowOutbox) : Program Unit :=
  Prog.exec [.workflow row.workflowId] fun s =>
    if s.workflowOutbox.any fun r => r.workflowId = row.workflowId then .error .workflowKey
    else .ok (s.addWorkflow row, ())

end OrderWorkflowOutboxRepository

namespace SellerOfferService

/-- `findBy({ id: In(ids) })`; soft-deleted offers are left out. -/
def findByIds (ids : List Nat) : Program (List (Nat × SellerOffer)) := do
  if ids.any fun id => decide (maxInteger < id) then
    .throw .integerOverflow
  else
    Prog.look fun s => ids.filterMap fun id =>
      match s.offers id with
      | some offer => if offer.deleted then none else some (id, offer)
      | none => none

end SellerOfferService

namespace OrderPlaceMessageService

def toOrderCreatedOutbox (eventId : Nat) (order : Order) : OrderOutbox where
  id := eventId
  topic := "order.events"
  aggregateType := "Order"
  aggregateId := order.publicId
  payload := .created order.id order.publicId order.userId order.totalAmount order.discountAmount
    order.currency order.createdAt

def toOrderPlaceWorkflowOutbox (order : Order) (items : List OrderCreateItemInput) :
    OrderWorkflowOutbox where
  workflowId := "order-place-" ++ order.publicId
  workflowType := "orderPlaceWorkflow"
  taskQueue := "order-place"
  input :=
    { orderId := order.id
      orderPublicId := order.publicId
      userId := order.userId
      totalAmount := order.totalAmount
      items := items.map fun item => ⟨item.offerId, item.quantity⟩ }

end OrderPlaceMessageService

namespace OrderPlaceCommandHandler

def createRecipient (gen : Generated) (recipient : OrderCreateRecipientInput) : Program OrderRecipient :=
  OrderRecipientRepository.create ⟨gen.recipientId, recipient.fullName, recipient.phone, recipient.address⟩

def toPriceItemOrFail (offersById : List (Nat × SellerOffer)) (item : OrderCreateItemInput) :
    Except Failure PricedOrderLine :=
  match offersById.lookup item.offerId with
  | none => .error (.offerNotFound
      ("Product with this id " ++ toString item.offerId ++ " not existed, please try again"))
  | some offer => .ok
    { offerId := item.offerId
      quantity := item.quantity
      unitPrice := offer.price
      unitDiscountPrice := offer.discountPrice
      amount := offer.payable * item.quantity
      discount := (offer.price.val - offer.payable) * item.quantity }

def createOrder (gen : Generated) (buyer : OrderBuyer) (orderRecipientId : Nat)
    (items : List PricedOrderLine) (currency : Currency) (idempotencyKey : Option String) :
    Program Order :=
  let totalAmount := items.foldl (fun sum priced => sum + priced.amount) 0
  let discountAmount := items.foldl (fun sum priced => sum + priced.discount) 0
  OrderRepository.create
    { id := gen.orderId
      publicId := gen.publicId
      userId := buyer.userId
      ownerIdentityPublicId := buyer.identityPublicId
      orderRecipientId := orderRecipientId
      idempotencyKey := idempotencyKey.map uuidValue
      status := .pendingPayment
      totalAmount := toFixed totalAmount
      discountAmount := toFixed discountAmount
      currency := currency
      createdAt := gen.now
      updatedAt := gen.now }

def createItems (pricedItems : List PricedOrderLine) (orderId : Nat) : Program (List OrderLine) :=
  OrderLineRepository.create orderId (pricedItems.map fun priced =>
    ⟨orderId, priced.offerId, priced.quantity, priced.unitPrice, priced.unitDiscountPrice⟩)

/-- The part of `createPending` after the idempotency key. -/
def place (gen : Generated) (input : OrderCreateInput) (buyer : OrderBuyer)
    (idempotencyKey : Option String) : Program Order := do
  let offers ← SellerOfferService.findByIds (input.items.map OrderCreateItemInput.offerId)
  let recipient ← createRecipient gen input.recipient
  match input.items.mapM (toPriceItemOrFail offers) with
  | .error e => .throw e
  | .ok pricedItems =>
    let order ← createOrder gen buyer recipient.id pricedItems input.currency idempotencyKey
    let _ ← createItems pricedItems order.id
    OrderOutboxRepository.create (OrderPlaceMessageService.toOrderCreatedOutbox gen.eventId order)
    OrderWorkflowOutboxRepository.create
      (OrderPlaceMessageService.toOrderPlaceWorkflowOutbox order input.items)
    return order

def createPending (hashtextextended : String → Int) (gen : Generated) (input : OrderCreateInput) (buyer : OrderBuyer)
    (idempotencyKey : Option String) : Program Order := do
  match idempotencyKey with
  | some key =>
    OrderRepository.lockIdempotencyKey hashtextextended buyer.userId key
    match ← OrderRepository.findByIdempotencyKey buyer.userId key with
    | some placed => return placed
    | none => place gen input buyer idempotencyKey
  | none => place gen input buyer idempotencyKey

end OrderPlaceCommandHandler

end MarketplaceApi.Placement
