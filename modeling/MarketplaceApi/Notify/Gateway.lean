import MarketplaceApi.Notify.Delivery

/-!
# Instances fed from Kafka

Every app instance consumes `order.events` as a broadcast consumer: its gateway turns a message
and its offset into an event or drops it. A fleet is any producer of the topic with any number
of instances that handle messages at any offset, more than once if need be.
-/
namespace MarketplaceApi.Notify

open Placement Transition

/-- What `orderStatusEventSchema` leaves of a message. -/
inductive OrderStatusMessage where
  | created (orderId : Nat)
  | paid (orderId : Nat)
  | failed (orderId : Nat) (status : OrderStatus)

def OrderStatusMessage.orderId : OrderStatusMessage → Nat
  | .created orderId => orderId
  | .paid orderId => orderId
  | .failed orderId _ => orderId

/-- `z.int().positive()` of `data.orderId` -/
def orderIdSchema (event : Json) : Option Nat :=
  ((event.get? "data").bind (Json.get? "orderId")).bind Json.positiveInteger?

/-- `z.enum([canceled, failed_payment])` of `data.status` -/
def failedStatusSchema (event : Json) : Option OrderStatus :=
  match (event.get? "data").bind (Json.get? "status") with
  | some (.string status) =>
    if status = "canceled" then some .canceled
    else if status = "failed_payment" then some .failedPayment
    else none
  | _ => none

/-- `event?.type ?? ''` -/
def typeOf (event : Json) : String :=
  match event.get? "type" with
  | some (.string type) => type
  | _ => ""

def orderStatusEventSchema (event : Json) : Option OrderStatusMessage :=
  if typeOf event = "order.created" then (orderIdSchema event).map .created
  else if typeOf event = "order.paid" then (orderIdSchema event).map .paid
  else if typeOf event = "order.failed" then
    (orderIdSchema event).bind fun orderId => (failedStatusSchema event).map fun status => .failed orderId status
  else none

/-- A rejected message is logged and skipped: a broadcast consumer has no dead-letter topic. -/
inductive Handled where
  | ignored
  | rejected
  | recorded (event : OrderStatusEvent)

def Handled.event? : Handled → Option OrderStatusEvent
  | .recorded event => some event
  | _ => none

namespace OrderNotifyEventsGateway

def handledTypes : List String := ["order.created", "order.paid", "order.failed"]

def toStatus : OrderStatusMessage → OrderStatus
  | .created _ => .pendingPayment
  | .paid _ => .paid
  | .failed _ status => status

def handle (event : Json) (offset : Nat) : Handled :=
  if typeOf event ∈ handledTypes then
    match orderStatusEventSchema event with
    | none => .rejected
    | some parsed => .recorded ⟨offset + 1, parsed.orderId, toStatus parsed⟩
  else .ignored

end OrderNotifyEventsGateway

theorem event?_id {event : Json} {offset : Nat} {e : OrderStatusEvent}
    (h : (OrderNotifyEventsGateway.handle event offset).event? = some e) : e.id = offset + 1 := by
  unfold OrderNotifyEventsGateway.handle at h
  split at h
  · split at h
    · cases h
    · cases h
      rfl
  · cases h

/-- Whatever fills the partitions of `order.events`. -/
structure Source (σ ε : Type) where
  step : σ → ε → σ → Prop
  log : σ → Nat → List Json
  grows : ∀ {s ev s'}, step s ev s' → ∀ p, log s p <+: log s' p

structure Fleet (σ : Type) where
  source : σ
  nodes : Nat → Instance

variable {σ ε : Type}

namespace Fleet

inductive Event (ε : Type) where
  | source (ev : ε)
  | handle (n p offset : Nat)
  | connect (n sid id : Nat) (lastEventIdHeader : Option String)
  | disconnect (n sid : Nat)

def start (s : σ) : Fleet σ := ⟨s, fun _ => .start⟩

def set (F : Fleet σ) (n : Nat) (s : Instance) : Fleet σ := { F with nodes := Function.update F.nodes n s }

/-- The event a message of the log is recorded as. -/
def eventAt (Y : Source σ ε) (F : Fleet σ) (p offset : Nat) : Option OrderStatusEvent :=
  (Y.log F.source p)[offset]?.bind fun message => (OrderNotifyEventsGateway.handle message offset).event?

def deliver (F : Fleet σ) (n : Nat) : Option OrderStatusEvent → Fleet σ
  | none => F
  | some event => F.set n ((F.nodes n).record event)

inductive Step (parse : String → Number) (Y : Source σ ε) : Fleet σ → Event ε → Fleet σ → Prop
  | source {F ev s'} : Y.step F.source ev s' → Step parse Y F (.source ev) { F with source := s' }
  | handle {F n p offset} : offset < (Y.log F.source p).length →
      Step parse Y F (.handle n p offset) (F.deliver n (F.eventAt Y p offset))
  | connect {F n sid id header s} : Notify.Step parse (F.nodes n) (.connect sid id header) s →
      Step parse Y F (.connect n sid id header) (F.set n s)
  | disconnect {F n sid s} : Notify.Step parse (F.nodes n) (.disconnect sid) s →
      Step parse Y F (.disconnect n sid) (F.set n s)

/-- What a condition on the producer asks of the fleet. -/
def Produces (Meets : σ → ε → Prop) (F : Fleet σ) : Event ε → Prop
  | .source ev => Meets F.source ev
  | _ => True

/-- What an event of the fleet is for one instance. -/
def Event.at (Y : Source σ ε) (n : Nat) (F : Fleet σ) : Event ε → Option Notify.Event
  | .source _ => none
  | .handle m p offset => if m = n then (F.eventAt Y p offset).map .record else none
  | .connect m sid id header => if m = n then some (.connect sid id header) else none
  | .disconnect m sid => if m = n then some (.disconnect sid) else none

/-- The run of one instance within a run of the fleet. -/
def traceOf (Y : Source σ ε) (n : Nat) (tr : List (Fleet σ × Event ε)) : Trace :=
  tr.filterMap fun p => (p.2.at Y n p.1).map fun ev => (p.1.nodes n, ev)

section
variable {parse : String → Number} {Y : Source σ ε} {F F' : Fleet σ} {ev : Event ε}
  {tr tr' : List (Fleet σ × Event ε)} {n p : Nat}

theorem set_self (F : Fleet σ) (n : Nat) (s : Instance) : (F.set n s).nodes n = s := Function.update_self ..

theorem set_other (F : Fleet σ) {n m : Nat} (h : m ≠ n) (s : Instance) : (F.set n s).nodes m = F.nodes m :=
  Function.update_of_ne h ..

theorem traceOf_snoc : traceOf Y n (tr ++ [(F, ev)]) =
    traceOf Y n tr ++ ((ev.at Y n F).map fun e => (F.nodes n, e)).toList := by
  unfold traceOf
  rw [List.filterMap_append]
  cases h : ev.at Y n F with
  | none => simp [h]
  | some e => simp [h]

theorem traceOf_append : traceOf Y n (tr ++ tr') = traceOf Y n tr ++ traceOf Y n tr' := List.filterMap_append

/-- One step of the fleet is one step of an instance, or leaves the instance as it was. -/
theorem node_step (hs : Step parse Y F ev F') (n : Nat) :
    (ev.at Y n F = none ∧ F'.nodes n = F.nodes n) ∨
      ∃ e, ev.at Y n F = some e ∧ Notify.Step parse (F.nodes n) e (F'.nodes n) := by
  cases hs with
  | source _ => exact Or.inl ⟨rfl, rfl⟩
  | @handle m p offset _ =>
    cases hevent : F.eventAt Y p offset with
    | none =>
      refine Or.inl ⟨?_, rfl⟩
      change (if m = n then (F.eventAt Y p offset).map _ else none) = none
      rw [hevent]
      exact ite_self _
    | some e =>
      by_cases hm : m = n
      · subst hm
        refine Or.inr ⟨.record e, ?_, ?_⟩
        · change (if m = m then (F.eventAt Y p offset).map _ else none) = _
          rw [if_pos rfl, hevent]
          rfl
        · change Notify.Step parse (F.nodes m) _ ((F.set m _).nodes m)
          rw [set_self]
          exact .record
      · exact Or.inl ⟨if_neg hm, set_other F (Ne.symm hm) _⟩
  | @connect m sid id header s h =>
    by_cases hm : m = n
    · subst hm
      exact Or.inr ⟨_, if_pos rfl, (set_self F m s).symm ▸ h⟩
    · exact Or.inl ⟨if_neg hm, set_other F (Ne.symm hm) _⟩
  | @disconnect m sid s h =>
    by_cases hm : m = n
    · subst hm
      exact Or.inr ⟨_, if_pos rfl, (set_self F m s).symm ▸ h⟩
    · exact Or.inl ⟨if_neg hm, set_other F (Ne.symm hm) _⟩

/-- A run of the fleet is a run of each of its instances. -/
theorem node_run (hr : Run (Step parse Y) F tr F') (n : Nat) :
    Run (Notify.Step parse) (F.nodes n) (traceOf Y n tr) (F'.nodes n) := by
  induction hr with
  | nil => exact .nil
  | snoc _ hs ih =>
    rw [traceOf_snoc]
    rcases node_step hs n with ⟨hnone, hsame⟩ | ⟨e, hsome, hstep⟩
    · rw [hnone, hsame, Option.map_none, Option.toList_none, List.append_nil]
      exact ih
    · rw [hsome]
      exact ih.snoc hstep

theorem eventAt_id {offset : Nat} {e : OrderStatusEvent} (h : F.eventAt Y p offset = some e) : e.id = offset + 1 := by
  obtain ⟨message, _, he⟩ := Option.bind_eq_some_iff.mp h
  exact event?_id he

/-- A log only grows. -/
theorem log_step (hs : Step parse Y F ev F') (p : Nat) : Y.log F.source p <+: Y.log F'.source p := by
  cases hs with
  | source hstep => exact Y.grows hstep p
  | @handle n q k _ =>
    cases F.eventAt Y q k with
    | none => exact List.prefix_rfl
    | some e => exact List.prefix_rfl
  | connect _ => exact List.prefix_rfl
  | disconnect _ => exact List.prefix_rfl

/-- Messages stay where they are. -/
theorem eventAt_step (hs : Step parse Y F ev F') {offset : Nat} {e : OrderStatusEvent}
    (h : F.eventAt Y p offset = some e) : F'.eventAt Y p offset = some e := by
  obtain ⟨message, hm, he⟩ := Option.bind_eq_some_iff.mp h
  refine Option.bind_eq_some_iff.mpr ⟨message, ?_, he⟩
  obtain ⟨hlt, hget⟩ := List.getElem?_eq_some_iff.mp hm
  obtain ⟨more, hmore⟩ := log_step hs p
  rw [← hmore, List.getElem?_append_left hlt]
  exact hm

/-- The run of the producer in a run of the fleet. -/
theorem source_run {Meets : σ → ε → Prop} {s : σ} (hr : Run (Step parse Y) (start s) tr F)
    (hm : Always (Produces Meets) tr) :
    ∃ tr', Run Y.step s tr' F.source ∧ Always Meets tr' := by
  induction hr with
  | nil => exact ⟨[], .nil, always_nil⟩
  | @snoc tr F F' ev _ hs ih =>
    obtain ⟨ht, he⟩ := always_snoc.mp hm
    obtain ⟨tr', hr', hm'⟩ := ih ht
    cases hs with
    | source hstep => exact ⟨_, hr'.snoc hstep, always_snoc.mpr ⟨hm', he⟩⟩
    | @handle n p offset _ =>
      refine ⟨tr', ?_, hm'⟩
      cases F.eventAt Y p offset <;> exact hr'
    | connect _ => exact ⟨tr', hr', hm'⟩
    | disconnect _ => exact ⟨tr', hr', hm'⟩

theorem reaches_source {Meets : σ → ε → Prop} {s s' : σ} {nodes : Nat → Instance} (h : Reaches Y.step Meets s s') :
    Reaches (Step parse Y) (Produces Meets) ⟨s, nodes⟩ ⟨s', nodes⟩ := by
  obtain ⟨tr, hr, hm⟩ := h
  induction hr with
  | nil => exact .refl
  | snoc _ hs ih =>
    obtain ⟨ht, he⟩ := always_snoc.mp hm
    exact (ih ht).step (.source hs) he

end

end Fleet

end MarketplaceApi.Notify
