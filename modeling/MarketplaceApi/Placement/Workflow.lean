import MarketplaceApi.Durable.Flow
import MarketplaceApi.Placement.Tables

/-!
# `orderPlaceWorkflow`

The saga of one order: reserve, charge, mark paid, and on any failure of the first two the
compensations and `markFailed` in a non-cancellable scope. `chart` lists its positions.
-/
namespace MarketplaceApi.Placement

open Durable

/-- `OrderPlaceChargeInterface` -/
structure OrderPlaceCharge where
  orderPublicId : String
  userId : Int
  totalAmount : List Char
  deriving DecidableEq

/-- `OrderPlaceActivitiesInterface` -/
inductive Activity where
  | reserveStock (orderPublicId : String) (items : List OrderPlaceItem)
  | releaseStock (orderPublicId : String)
  | chargeCustomer (charge : OrderPlaceCharge)
  | refundCustomer (charge : OrderPlaceCharge)
  | markPaid (orderId : Nat)
  | markFailed (orderId : Nat) (failure : OrderFailure)
  deriving DecidableEq

/-- What an awaited activity rejects with: an `ActivityFailure` by its cause, or a cancellation. -/
inductive ActivityError where
  | application (type : String)
  | timeout
  | cancelled
  deriving DecidableEq

inductive OrderPlaceFailureType where
  | insufficientStock
  | paymentRejected
  deriving DecidableEq

def OrderPlaceFailureType.text : OrderPlaceFailureType → String
  | .insufficientStock => "InsufficientStock"
  | .paymentRejected => "PaymentRejected"

def toFailureType : ActivityError → Option OrderPlaceFailureType
  | .application type =>
    [OrderPlaceFailureType.insufficientStock, .paymentRejected].find? fun t => t.text = type
  | .timeout => none
  | .cancelled => none

def toFailure : Option OrderPlaceFailureType → OrderFailure
  | some .insufficientStock => ⟨.canceled, .insufficientStock⟩
  | some .paymentRejected => ⟨.failedPayment, .paymentRejected⟩
  | none => ⟨.canceled, .error⟩

/-- Reserve and charge have a schedule-to-close timeout and one rejection each; the other
activities are retried until they succeed. -/
def Ends : Activity → Except ActivityError Unit → Prop
  | _, .ok _ => True
  | .reserveStock .., .error e => e ≠ .cancelled ∧ toFailureType e ≠ some .paymentRejected
  | .chargeCustomer .., .error e => e ≠ .cancelled ∧ toFailureType e ≠ some .insufficientStock
  | .releaseStock .., .error _ => False
  | .refundCustomer .., .error _ => False
  | .markPaid .., .error _ => False
  | .markFailed .., .error _ => False

/-- `updatePendingStatusById`: only a pending order changes its status. -/
def OrderStatus.updatePending (status new : OrderStatus) : OrderStatus :=
  if status = .pendingPayment then new else status

/-- The status an activity asks for. -/
def Activity.marks : Activity → Option OrderStatus
  | .markPaid _ => some .paid
  | .markFailed _ failure => some failure.status
  | _ => none

abbrev Workflow := Flow Activity ActivityError

def toCharge (input : OrderPlaceWorkflowInput) : OrderPlaceCharge :=
  ⟨input.orderPublicId, input.userId, input.totalAmount⟩

/-- The `catch` block. -/
def compensate (input : OrderPlaceWorkflowInput) (isChargeSent : Bool) (error : ActivityError) :
    Workflow OrderStatus := do
  let failureType := toFailureType error
  let failure := toFailure failureType
  Flow.nonCancellable do
    if isChargeSent ∧ failureType ≠ some .paymentRejected then
      Flow.call (.refundCustomer (toCharge input))
    if failureType ≠ some .insufficientStock then
      Flow.call (.releaseStock input.orderPublicId)
    Flow.call (.markFailed input.orderId failure)
  if failureType = none then
    .throw error
  else
    return failure.status

/-- `isChargeSent` is set between the two calls of the `try` block, so it is known at each. -/
def orderPlaceWorkflow (input : OrderPlaceWorkflowInput) : Workflow OrderStatus :=
  (Flow.call (.reserveStock input.orderPublicId input.items)).tryCatch
    (fun _ => (Flow.call (.chargeCustomer (toCharge input))).tryCatch
      (fun _ => do
        Flow.call (.markPaid input.orderId)
        return .paid)
      (compensate input true))
    (compensate input false)

/-- Where the workflow stands; a compensating position carries the failure it was caused by. -/
inductive Stage where
  | reserving
  | charging
  | paying
  | refunding (e : ActivityError)
  | releasing (e : ActivityError)
  | failing (e : ActivityError)
  | paid
  | failed (e : ActivityError)
  | thrown (e : ActivityError)
  deriving DecidableEq

namespace Stage

def call (input : OrderPlaceWorkflowInput) : Stage → Option (Bool × Activity)
  | .reserving => some (true, .reserveStock input.orderPublicId input.items)
  | .charging => some (true, .chargeCustomer (toCharge input))
  | .paying => some (true, .markPaid input.orderId)
  | .refunding _ => some (false, .refundCustomer (toCharge input))
  | .releasing _ => some (false, .releaseStock input.orderPublicId)
  | .failing e => some (false, .markFailed input.orderId (toFailure (toFailureType e)))
  | .paid => none
  | .failed _ => none
  | .thrown _ => none

/-- The compensation after a refund, or without one. -/
def unheld (e : ActivityError) : Stage :=
  if toFailureType e = some .insufficientStock then .failing e else .releasing e

def next : Stage → Except ActivityError Unit → Stage
  | .reserving, .ok _ => .charging
  | .reserving, .error e => unheld e
  | .charging, .ok _ => .paying
  | .charging, .error e =>
    if toFailureType e = some .paymentRejected then unheld e else .refunding e
  | .paying, .ok _ => .paid
  | .refunding e, .ok _ => unheld e
  | .releasing e, .ok _ => .failing e
  | .failing e, .ok _ => .failed e
  | .paying, .error e => .thrown e
  | .refunding _, .error e => .thrown e
  | .releasing _, .error e => .thrown e
  | .failing _, .error e => .thrown e
  | .paid, _ => .paid
  | .failed e, _ => .failed e
  | .thrown e, _ => .thrown e

def closing (e : ActivityError) : Workflow OrderStatus :=
  if toFailureType e = none then .throw e else .ret (toFailure (toFailureType e)).status

def failingFlow (input : OrderPlaceWorkflowInput) (e : ActivityError) : Workflow OrderStatus :=
  .await false (.markFailed input.orderId (toFailure (toFailureType e))) fun
    | .ok _ => closing e
    | .error e' => .throw e'

def releasingFlow (input : OrderPlaceWorkflowInput) (e : ActivityError) : Workflow OrderStatus :=
  .await false (.releaseStock input.orderPublicId) fun
    | .ok _ => failingFlow input e
    | .error e' => .throw e'

def unheldFlow (input : OrderPlaceWorkflowInput) (e : ActivityError) : Workflow OrderStatus :=
  if toFailureType e = some .insufficientStock then failingFlow input e else releasingFlow input e

def refundingFlow (input : OrderPlaceWorkflowInput) (e : ActivityError) : Workflow OrderStatus :=
  .await false (.refundCustomer (toCharge input)) fun
    | .ok _ => unheldFlow input e
    | .error e' => .throw e'

def payingFlow (input : OrderPlaceWorkflowInput) : Workflow OrderStatus :=
  .await true (.markPaid input.orderId) fun
    | .ok _ => .ret .paid
    | .error e => .throw e

def chargingFlow (input : OrderPlaceWorkflowInput) : Workflow OrderStatus :=
  .await true (.chargeCustomer (toCharge input)) fun
    | .ok _ => payingFlow input
    | .error e => if toFailureType e = some .paymentRejected then unheldFlow input e else refundingFlow input e

def flow (input : OrderPlaceWorkflowInput) : Stage → Workflow OrderStatus
  | .reserving => orderPlaceWorkflow input
  | .charging => chargingFlow input
  | .paying => payingFlow input
  | .refunding e => refundingFlow input e
  | .releasing e => releasingFlow input e
  | .failing e => failingFlow input e
  | .paid => .ret .paid
  | .failed e => closing e
  | .thrown e => .throw e

end Stage

section
variable (input : OrderPlaceWorkflowInput)

theorem nonCancellable_markFailed (e : ActivityError) :
    ((Flow.call (.markFailed input.orderId (toFailure (toFailureType e)))).nonCancellable).bind
      (fun _ => Stage.closing e) = Stage.failingFlow input e := by
  refine congrArg (Flow.await false _) (funext fun r => ?_)
  cases r <;> rfl

theorem nonCancellable_release (e : ActivityError) :
    ((do
      if toFailureType e ≠ some .insufficientStock then Flow.call (.releaseStock input.orderPublicId)
      Flow.call (.markFailed input.orderId (toFailure (toFailureType e))) : Workflow Unit).nonCancellable).bind
      (fun _ => Stage.closing e) = Stage.unheldFlow input e := by
  unfold Stage.unheldFlow
  by_cases h : toFailureType e = some .insufficientStock
  · rw [if_pos h, if_neg (not_not.mpr h)]
    exact nonCancellable_markFailed input e
  · rw [if_neg h, if_pos h]
    refine congrArg (Flow.await false _) (funext fun r => ?_)
    cases r with
    | ok u => exact nonCancellable_markFailed input e
    | error e' => rfl

/-- The `catch` block, for each failure and for a charge sent or not. -/
theorem compensate_eq (isChargeSent : Bool) (e : ActivityError) : compensate input isChargeSent e =
    if isChargeSent ∧ toFailureType e ≠ some .paymentRejected then Stage.refundingFlow input e
    else Stage.unheldFlow input e := by
  change Flow.bind _ (fun _ : Unit => Stage.closing e) = _
  by_cases h : isChargeSent ∧ toFailureType e ≠ some .paymentRejected
  · rw [if_pos h, if_pos h]
    refine congrArg (Flow.await false _) (funext fun r => ?_)
    cases r with
    | ok u => exact nonCancellable_release input e
    | error e' => rfl
  · rw [if_neg h, if_neg h]
    exact nonCancellable_release input e

/-- The second half of the `try` block. -/
theorem tryCatch_charge : (Flow.call (.chargeCustomer (toCharge input))).tryCatch
    (fun _ => do
      Flow.call (.markPaid input.orderId)
      return OrderStatus.paid)
    (compensate input true) = Stage.chargingFlow input := by
  refine congrArg (Flow.await true _) (funext fun r => ?_)
  cases r with
  | ok u =>
    refine congrArg (Flow.await true _) (funext fun r => ?_)
    cases r <;> rfl
  | error e =>
    change compensate input true e = if toFailureType e = some .paymentRejected then _ else _
    rw [compensate_eq]
    by_cases h : toFailureType e = some .paymentRejected
    · rw [if_pos h, if_neg (fun hn => hn.2 h)]
    · rw [if_neg h, if_pos ⟨rfl, h⟩]

theorem flow_unheld (e : ActivityError) :
    Stage.flow input (Stage.unheld e) = Stage.unheldFlow input e := by
  unfold Stage.unheld Stage.unheldFlow
  split <;> rfl

end

/-- The positions of `orderPlaceWorkflow`. -/
def chart (input : OrderPlaceWorkflowInput) : Chart Activity ActivityError OrderStatus Stage where
  flow := Stage.flow input
  call := Stage.call input
  next := Stage.next
  awaits := by
    intro st c a h
    cases st with
    | reserving =>
      cases h
      refine congrArg (Flow.await true _) (funext fun r => ?_)
      cases r with
      | ok u => exact tryCatch_charge input
      | error e =>
        change compensate input false e = Stage.flow input (Stage.unheld e)
        rw [compensate_eq, if_neg (by simp), flow_unheld]
    | charging =>
      cases h
      refine congrArg (Flow.await true _) (funext fun r => ?_)
      cases r with
      | ok u => rfl
      | error e =>
        simp only [Stage.next]
        split
        · rw [flow_unheld]
        · rfl
    | paying =>
      cases h
      refine congrArg (Flow.await true _) (funext fun r => ?_)
      cases r <;> rfl
    | refunding e =>
      cases h
      refine congrArg (Flow.await false _) (funext fun r => ?_)
      cases r with
      | ok u => exact (flow_unheld input e).symm
      | error e' => rfl
    | releasing e =>
      cases h
      refine congrArg (Flow.await false _) (funext fun r => ?_)
      cases r <;> rfl
    | failing e =>
      cases h
      refine congrArg (Flow.await false _) (funext fun r => ?_)
      cases r <;> rfl
    | paid => cases h
    | failed e => cases h
    | thrown e => cases h
  closes := by
    intro st h
    cases st with
    | failed e =>
      change (Stage.closing e).closed = true
      unfold Stage.closing
      split <;> rfl
    | paid => rfl
    | thrown e => rfl
    | _ => cases h

/-- An order of four pieces of offer 3 for 3.00. -/
def sampleInput : OrderPlaceWorkflowInput :=
  ⟨1, "3f2504e0-4f89-41d3-9a0c-0305e82c3301", 7, ['3', '.', '0', '0'], [⟨3, 4⟩]⟩

end MarketplaceApi.Placement
