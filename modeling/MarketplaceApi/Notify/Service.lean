import MarketplaceApi.Json.Value
import MarketplaceApi.Placement.Tables
import MarketplaceApi.Transition.Run

/-!
# Order status streams

`OrderNotifyService` of one app instance with the SSE streams of `OrdersController`, which
open behind `OrderAccessGuard`. A `Set` of listeners is an object: a stream keeps a reference
to the one it joined, also when the map has forgotten it. `record`, opening and closing are
synchronous, so each is one step.
-/
namespace MarketplaceApi.Notify

open Placement

structure OrderStatusEvent where
  id : Nat
  orderId : Nat
  status : OrderStatus
  deriving DecidableEq

def orderEventHistoryLimit : Nat := 100

/-- The two maps, and the `Set` objects by reference. A listener is the stream it writes to. -/
structure OrderNotifyService where
  history : Nat → Option (List OrderStatusEvent)
  listeners : Nat → Option Nat
  sets : Nat → List Nat
  fresh : Nat

namespace OrderNotifyService

def start : OrderNotifyService := ⟨fun _ => none, fun _ => none, fun _ => [], 0⟩

def historyOf (s : OrderNotifyService) (orderId : Nat) : List OrderStatusEvent := (s.history orderId).getD []

/-- The last event of the order is older. -/
def accepts (s : OrderNotifyService) (event : OrderStatusEvent) : Bool :=
  (s.historyOf event.orderId).getLast?.all fun last => decide (last.id < event.id)

def shift (history : List OrderStatusEvent) : List OrderStatusEvent :=
  if orderEventHistoryLimit < history.length then history.tail else history

/-- The service after `record`, and the listeners it calls. -/
def record (s : OrderNotifyService) (event : OrderStatusEvent) : OrderNotifyService × List Nat :=
  if s.accepts event then
    let history := shift (s.historyOf event.orderId ++ [event])
    ({ s with history := Function.update s.history event.orderId (some history) },
      ((s.listeners event.orderId).map s.sets).getD [])
  else (s, [])

def getAfter (s : OrderNotifyService) (orderId : Nat) (lastEventId : Number) : List OrderStatusEvent :=
  (s.historyOf orderId).filter fun event => lastEventId.below event.id

/-- The service and the `Set` the listener was added to. -/
def subscribe (s : OrderNotifyService) (orderId listener : Nat) : OrderNotifyService × Nat :=
  match s.listeners orderId with
  | some set =>
    let members := if listener ∈ s.sets set then s.sets set else s.sets set ++ [listener]
    ({ s with sets := Function.update s.sets set members }, set)
  | none =>
    ({ s with
        listeners := Function.update s.listeners orderId (some s.fresh)
        sets := Function.update s.sets s.fresh [listener]
        fresh := s.fresh + 1 }, s.fresh)

def unsubscribe (s : OrderNotifyService) (orderId set listener : Nat) : OrderNotifyService :=
  let members := (s.sets set).erase listener
  { s with
    sets := Function.update s.sets set members
    listeners := if members = [] then Function.update s.listeners orderId none else s.listeners }

end OrderNotifyService

/-- One subscription of the observable that `OrdersController.events` returns. -/
structure Stream where
  orderId : Nat
  lastEventId : Number
  lastSentId : Number
  listeners : Nat
  emitted : List OrderStatusEvent
  isOpen : Bool

def Stream.writeEvent (stream : Stream) (event : OrderStatusEvent) : Stream :=
  if stream.lastSentId.covers event.id then stream
  else { stream with lastSentId := .finite event.id, emitted := stream.emitted ++ [event] }

structure Instance where
  service : OrderNotifyService
  streams : Nat → Option Stream

namespace Instance

def start : Instance := ⟨.start, fun _ => none⟩

def isOpen (s : Instance) (sid : Nat) : Bool := (s.streams sid).any Stream.isOpen

def emitEvent (event : OrderStatusEvent) (s : Instance) (sid : Nat) : Instance :=
  { s with streams := Function.update s.streams sid ((s.streams sid).map fun stream => stream.writeEvent event) }

def record (s : Instance) (event : OrderStatusEvent) : Instance :=
  (s.service.record event).2.foldl (emitEvent event) { s with service := (s.service.record event).1 }

/-- `OrdersController.events`: subscribe, then replay what the history has after `lastEventId`. -/
def events (s : Instance) (sid id : Nat) (lastEventId : Number) : Instance :=
  let service := (s.service.subscribe id sid).1
  let stream : Stream := ⟨id, lastEventId, lastEventId, (s.service.subscribe id sid).2, [], true⟩
  { service
    streams := Function.update s.streams sid
      (some ((service.getAfter id lastEventId).foldl Stream.writeEvent stream)) }

def close (s : Instance) (sid : Nat) (stream : Stream) : Instance where
  service := s.service.unsubscribe stream.orderId stream.listeners sid
  streams := Function.update s.streams sid (some { stream with isOpen := false })

end Instance

inductive Event where
  | record (event : OrderStatusEvent)
  | connect (sid id : Nat) (lastEventIdHeader : Option String)
  | disconnect (sid : Nat)

inductive QueryError where
  | entityNotFound
  | failed
  deriving DecidableEq

inductive AccessError where
  | badRequest (message : String)
  | notFound (message : String)
  | forbidden (message : String)
  | failed
  deriving DecidableEq

def OrderAccessService.canAccess (findByIdOrFail : Int → Except QueryError Order) (orderId : Int)
    (userId : Option Int) : Except AccessError Unit :=
  match findByIdOrFail orderId with
  | .error .entityNotFound => .error (.notFound s!"Order with id {orderId} not found")
  | .error .failed => .error .failed
  | .ok order =>
    if userId.any fun id => order.userId ≠ id then .error (.forbidden "Order belongs to a different buyer")
    else .ok ()

section
variable (parse : String → Number)

/-- `lastEventIdHeader === undefined ? 0 : Number(lastEventIdHeader)`, `Number` being `parse`. -/
def lastEventId (lastEventIdHeader : Option String) : Number := lastEventIdHeader.elim (.finite 0) parse

namespace OrderAccessGuard

/-- A safe integer from `least` on, else a 400. -/
def integer (least : Int) (message : String) (value : Number) : Except AccessError Int :=
  match value.safeInteger? with
  | some n => if n < least then .error (.badRequest message) else .ok n
  | none => .error (.badRequest message)

/-- The order is there and, where the query has a `userId`, belongs to that buyer. -/
def access (findByIdOrFail : Int → Except QueryError Order) (orderId : Int) :
    Option String → Except AccessError Unit
  | some userIdValue => do
    let userId ← integer 1 "A valid userId query parameter is required" (parse userIdValue)
    OrderAccessService.canAccess findByIdOrFail orderId (some userId)
  | none => OrderAccessService.canAccess findByIdOrFail orderId none

/-- `id` is the path parameter, `userIdValue` the query's `userId`. -/
def canActivate (findByIdOrFail : Int → Except QueryError Order) (id : String)
    (userIdValue lastEventIdHeader : Option String) : Except AccessError Unit := do
  let orderId ← integer 1 "A valid order id is required" (parse id)
  access parse findByIdOrFail orderId userIdValue
  let _ ← integer 0 "Last-Event-ID must be a non-negative safe integer" (lastEventId parse lastEventIdHeader)
  return ()

variable {parse}

theorem of_bind {α β : Type} {x : Except AccessError α} {f : α → Except AccessError β} {b : β}
    (h : x.bind f = .ok b) : ∃ a, x = .ok a ∧ f a = .ok b := by
  cases x with
  | error e => cases h
  | ok a => exact ⟨a, rfl, h⟩

theorem integer_ok {least n : Int} {message : String} {value : Number} (h : integer least message value = .ok n) :
    value = .finite n ∧ least ≤ n := by
  unfold integer at h
  split at h
  · rename_i m hsafe
    split at h
    · cases h
    · rename_i hle
      obtain rfl := Except.ok.inj h
      exact ⟨Number.finite_of_safeInteger hsafe, not_lt.mp hle⟩
  · cases h

/-- A request that the guard lets through has a natural number as its `Last-Event-ID`. -/
theorem lastEventId_of_canActivate {findByIdOrFail : Int → Except QueryError Order} {id : String}
    {userIdValue header : Option String} (h : canActivate parse findByIdOrFail id userIdValue header = .ok ()) :
    ∃ last : Nat, lastEventId parse header = .finite last := by
  obtain ⟨_, _, h⟩ := of_bind h
  obtain ⟨_, _, h⟩ := of_bind h
  obtain ⟨n, hinteger, _⟩ := of_bind h
  obtain ⟨hlast, hpos⟩ := integer_ok hinteger
  obtain ⟨last, rfl⟩ := Int.eq_ofNat_of_zero_le hpos
  exact ⟨last, hlast⟩

end OrderAccessGuard

/-- `ParseIntPipe` reads the number of the path that the guard has read. -/
inductive Step : Instance → Event → Instance → Prop
  | record {s event} : Step s (.record event) (s.record event)
  | connect {s sid id header findByIdOrFail path userIdValue} : s.streams sid = none → parse path = .finite (id : Nat) →
      OrderAccessGuard.canActivate parse findByIdOrFail path userIdValue header = .ok () →
      Step s (.connect sid id header) (s.events sid id (lastEventId parse header))
  | disconnect {s sid stream} : s.streams sid = some stream → stream.isOpen = true →
      Step s (.disconnect sid) (s.close sid stream)

end

end MarketplaceApi.Notify
