import MarketplaceApi.Placement.Place

/-!
# `markPaid` and `markFailed`

The two activities that take an order out of `pending_payment`, each one transaction. The
`randomUUID()` of an outbox row and the time of the transaction come with the request.
-/
namespace MarketplaceApi.Placement

open Txn

/-- What an attempt draws: the id of its event, and when its transaction began. -/
structure Drawn where
  eventId : Nat
  now : Nat

/-- `SET "status" = $1, "updatedAt" = CURRENT_TIMESTAMP` -/
structure Change where
  status : OrderStatus
  updatedAt : Nat

/-- The row after the update `WHERE "id" = $2 AND "status" = 'pending_payment'`. -/
def Order.updatePending (order : Order) (id : Nat) (change : Change) : Order :=
  if order.id = id ∧ order.status = .pendingPayment then
    { order with status := change.status, updatedAt := change.updatedAt }
  else order

def Order.isPending (order : Order) (id : Nat) : Bool :=
  decide (order.id = id ∧ order.status = .pendingPayment)

def Tables.updatePending (s : Tables) (id : Nat) (change : Change) : Tables :=
  { s with orders := s.orders.map fun order => order.updatePending id change }

namespace OrderRepository

def findByIdOrFail (id : Nat) : Program (Order × List OrderLine) :=
  Prog.exec [.order id] fun s =>
    match s.orders.find? fun order => order.id = id with
    | some order => .ok (s, order, s.linesOf id)
    | none => .error .entityNotFound

/-- The update waits only for a row its snapshot shows as pending. -/
def updatePendingStatusById (id : Nat) (change : Change) :
    Program (Option (Order × List OrderLine)) := do
  if ← Prog.look fun s => s.orders.any fun order => order.isPending id then
    let updated ← Prog.exec [.order id] fun s =>
      .ok (s.updatePending id change, s.orders.any fun order => order.isPending id)
    if updated then
      let order ← findByIdOrFail id
      return some order
    else
      return none
  else
    return none

end OrderRepository

namespace OrderPlaceMessageService

def toOrderPaidOutbox (eventId : Nat) (order : Order) (lines : List OrderLine) : OrderOutbox where
  id := eventId
  topic := "order.events"
  aggregateType := "Order"
  aggregateId := order.publicId
  payload := .paid order.id order.publicId order.userId order.totalAmount order.discountAmount
    order.currency lines order.updatedAt

def toOrderFailedOutbox (eventId : Nat) (order : Order) (failure : OrderFailure) : OrderOutbox where
  id := eventId
  topic := "order.events"
  aggregateType := "Order"
  aggregateId := order.publicId
  payload := .failed order.id order.publicId order.userId failure order.updatedAt

end OrderPlaceMessageService

namespace OrderPlaceActivity

def markPaid (drawn : Drawn) (orderId : Nat) : Program Unit := do
  match ← OrderRepository.updatePendingStatusById orderId ⟨.paid, drawn.now⟩ with
  | some (paid, lines) =>
    OrderOutboxRepository.create (OrderPlaceMessageService.toOrderPaidOutbox drawn.eventId paid lines)
  | none => return ()

def markFailed (drawn : Drawn) (orderId : Nat) (failure : OrderFailure) : Program Unit := do
  match ← OrderRepository.updatePendingStatusById orderId ⟨failure.status, drawn.now⟩ with
  | some (failed, _) =>
    OrderOutboxRepository.create (OrderPlaceMessageService.toOrderFailedOutbox drawn.eventId failed failure)
  | none => return ()

end OrderPlaceActivity

inductive Request where
  | place (gen : Generated) (input : OrderCreateInput) (buyer : OrderBuyer) (idempotencyKey : Option String)
  | markPaid (drawn : Drawn) (orderId : Nat)
  | markFailed (drawn : Drawn) (orderId : Nat) (failure : OrderFailure)

inductive Answer where
  | order (order : Order)
  | marked

def handler (hashtextextended : String → Int) : Request → Program Answer
  | .place gen input buyer idempotencyKey => do
    let order ← OrderPlaceCommandHandler.createPending hashtextextended gen input buyer idempotencyKey
    return .order order
  | .markPaid drawn orderId => do
    OrderPlaceActivity.markPaid drawn orderId
    return .marked
  | .markFailed drawn orderId failure => do
    OrderPlaceActivity.markFailed drawn orderId failure
    return .marked

/-- The type of `OrderFailedEvent.DataInterface['status']`. -/
def Request.WellTyped : Request → Prop
  | .markFailed _ _ failure => failure.status = .canceled ∨ failure.status = .failedPayment
  | _ => True

end MarketplaceApi.Placement
