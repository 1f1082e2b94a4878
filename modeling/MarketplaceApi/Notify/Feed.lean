import MarketplaceApi.Notify.Handover
import MarketplaceApi.Outbox.Ordering
import MarketplaceApi.Placement.Status

/-!
# The topic `order.events`

Order commits its events with the statuses they tell of, and the relay sends them on, each once or
more often. What the gateway of an instance reads of a message is the order and the status of the
event it was made from.
-/
namespace MarketplaceApi.Notify

open Outbox (KafkaMessage EventColumns EventWorld Row Row.onPartition OrderOutboxRelayService)
open Placement
open Transition

/-! ## Messages -/

section
variable (uuid toISOString : Nat → String)

def lineToJson (line : OrderLine) : Json :=
  .object [("offerId", .number line.offerId), ("quantity", .number line.quantity),
    ("unitPrice", .string (String.ofList (Money.toFixed line.unitPrice.val))),
    ("unitDiscountPrice", line.unitDiscountPrice.elim .null fun price =>
      .string (String.ofList (Money.toFixed price.val)))]

/-- `data` of an event; times are in milliseconds. -/
def dataToJson : OrderEvent → Json
  | .created orderId orderPublicId userId totalAmount discountAmount currency createdAt =>
    .object [("orderId", .number orderId), ("orderPublicId", .string orderPublicId), ("userId", .number userId),
      ("totalAmount", .string (String.ofList totalAmount)), ("discountAmount", .string (String.ofList discountAmount)),
      ("currency", .string currency.text), ("createdAt", .string (toISOString createdAt))]
  | .paid orderId orderPublicId userId totalAmount discountAmount currency lines paidAt =>
    .object [("orderId", .number orderId), ("orderPublicId", .string orderPublicId), ("userId", .number userId),
      ("totalAmount", .string (String.ofList totalAmount)), ("discountAmount", .string (String.ofList discountAmount)),
      ("currency", .string currency.text), ("lines", .array (lines.map lineToJson)),
      ("paidAt", .string (toISOString paidAt))]
  | .failed orderId orderPublicId userId failure failedAt =>
    .object [("orderId", .number orderId), ("orderPublicId", .string orderPublicId), ("userId", .number userId),
      ("status", .string failure.status.text), ("reason", .string failure.reason.text),
      ("failedAt", .string (toISOString failedAt))]

/-- What a consumer parses of a message; `time` is in microseconds. -/
def toJson (message : KafkaMessage Nat OrderEvent) : Json :=
  .object [("specversion", .string message.value.specversion), ("id", .string (uuid message.value.id)),
    ("source", .string message.value.source), ("type", .string message.value.type),
    ("time", .string (toISOString (message.value.time / 1000))),
    ("datacontenttype", .string message.value.datacontenttype), ("subject", .string message.value.subject),
    ("correlationid", .string message.value.correlationid), ("data", dataToJson toISOString message.value.data)]

variable {uuid toISOString} {message : KafkaMessage Nat OrderEvent} {offset : Nat} {e : OrderStatusEvent}

theorem orderIdSchema_toJson : orderIdSchema (toJson uuid toISOString message) =
    Json.positiveInteger? (.number message.value.data.orderId) := by
  change ((dataToJson toISOString message.value.data).get? "orderId").bind Json.positiveInteger? = _
  cases message.value.data <;> rfl

theorem orderId_schema {id : Nat} (h : orderIdSchema (toJson uuid toISOString message) = some id) :
    id = message.value.data.orderId := by
  rw [orderIdSchema_toJson] at h
  change (if _ then some (message.value.data.orderId : Rat).num.toNat else none) = some id at h
  rw [Rat.num_natCast, Int.toNat_natCast, Option.ite_none_right_eq_some] at h
  exact (Option.some.inj h.2).symm

/-- The status of a failed order is read back. -/
theorem failedStatusSchema_toJson (htype : message.value.data.type = "order.failed") :
    failedStatusSchema (toJson uuid toISOString message) =
      if message.value.data.status = .canceled ∨ message.value.data.status = .failedPayment
      then some message.value.data.status else none := by
  cases hdata : message.value.data with
  | created => exact absurd htype (by rw [hdata]; simp [OrderEvent.type])
  | paid => exact absurd htype (by rw [hdata]; simp [OrderEvent.type])
  | failed orderId orderPublicId userId failure failedAt =>
    have hmember : ((toJson uuid toISOString message).get? "data").bind (Json.get? "status") =
        some (.string failure.status.text) := by
      change (dataToJson toISOString message.value.data).get? "status" = _
      rw [hdata]
      rfl
    unfold failedStatusSchema
    rw [hmember]
    change _ = if failure.status = .canceled ∨ failure.status = .failedPayment then some failure.status else none
    cases failure.status <;> rfl

/-- What is recorded of a message. -/
theorem event?_message (htype : message.value.type = message.value.data.type)
    (h : (OrderNotifyEventsGateway.handle (toJson uuid toISOString message) offset).event? = some e) :
    e.id = offset + 1 ∧ e.orderId = message.value.data.orderId ∧ e.status = message.value.data.status := by
  have htypeOf : typeOf (toJson uuid toISOString message) = message.value.data.type := htype
  unfold OrderNotifyEventsGateway.handle at h
  rw [htypeOf] at h
  split at h
  · split at h
    · cases h
    · rename_i parsed hparsed
      obtain rfl := Option.some.inj h
      refine ⟨rfl, ?_⟩
      unfold orderStatusEventSchema at hparsed
      rw [htypeOf] at hparsed
      split at hparsed
      · rename_i hcreated
        obtain ⟨id, hid, rfl⟩ := Option.map_eq_some_iff.mp hparsed
        exact ⟨orderId_schema hid, (OrderEvent.status_of_type _).1 hcreated |>.symm⟩
      · split at hparsed
        · rename_i hpaid
          obtain ⟨id, hid, rfl⟩ := Option.map_eq_some_iff.mp hparsed
          exact ⟨orderId_schema hid, (OrderEvent.status_of_type _).2 hpaid |>.symm⟩
        · split at hparsed
          · rename_i hfailed
            obtain ⟨id, hid, hrest⟩ := Option.bind_eq_some_iff.mp hparsed
            obtain ⟨status, hstatus, rfl⟩ := Option.map_eq_some_iff.mp hrest
            rw [failedStatusSchema_toJson hfailed, Option.ite_none_right_eq_some] at hstatus
            exact ⟨orderId_schema hid, (Option.some.inj hstatus.2).symm⟩
          · cases hparsed
  · cases h

/-- A message with an id of the column `id` is recorded. -/
theorem recorded_message (htype : message.value.type = message.value.data.type)
    (hid : 0 < message.value.data.orderId ∧ message.value.data.orderId ≤ maxInteger)
    (hfinal : message.value.data.type = "order.failed" → message.value.data.status = .canceled ∨
      message.value.data.status = .failedPayment) :
    (OrderNotifyEventsGateway.handle (toJson uuid toISOString message) offset).event? =
      some ⟨offset + 1, message.value.data.orderId, message.value.data.status⟩ := by
  have htypeOf : typeOf (toJson uuid toISOString message) = message.value.data.type := htype
  have hschema : orderIdSchema (toJson uuid toISOString message) = some message.value.data.orderId := by
    have hbounds : 0 < (message.value.data.orderId : Int) ∧ (message.value.data.orderId : Int) < 2 ^ 53 := by
      have hle := hid.2
      unfold maxInteger at hle
      omega
    rw [orderIdSchema_toJson]
    change (if _ then some (message.value.data.orderId : Rat).num.toNat else none) = _
    rw [if_pos ⟨Rat.den_natCast _, hbounds⟩, Rat.num_natCast, Int.toNat_natCast]
  unfold OrderNotifyEventsGateway.handle orderStatusEventSchema
  rw [htypeOf, hschema]
  cases hdata : message.value.data with
  | created => rfl
  | paid => rfl
  | failed orderId orderPublicId userId failure failedAt =>
    have hfailed : message.value.data.type = "order.failed" := by rw [hdata]; rfl
    have hstatus : failedStatusSchema (toJson uuid toISOString message) = some message.value.data.status :=
      (failedStatusSchema_toJson hfailed).trans (if_pos (hfinal hfailed))
    rw [hstatus, hdata]
    rfl

end

/-! ## Order and its relay -/

/-- The tables of order with their transactions, and its outbox with the topic. -/
structure Feed where
  orders : Txn.Config Lock Tables Failure Answer Request
  outbox : EventWorld Nat OrderEvent

namespace Feed

inductive Event where
  | orders (ev : Txn.Event Request)
  | relay (ev : Outbox.Event Nat (EventColumns OrderEvent))

def start (offers : Nat → Option SellerOffer) : Feed := ⟨.start (Tables.empty offers), .start fun _ _ => []⟩

/-- The columns that an insert names; `type` is that of the payload. -/
def columns (row : OrderOutbox) : EventColumns OrderEvent where
  topic := row.topic
  aggregateType := row.aggregateType
  aggregateId := row.aggregateId
  type := row.payload.type
  payload := row.payload

/-- A row of the outbox as its transaction leaves it. -/
def toRow (createdAt committedAt : Nat) (row : OrderOutbox) : Row Nat (EventColumns OrderEvent) where
  id := row.id
  columns := columns row
  createdAt := createdAt
  committedAt := committedAt
  publishedAt := none
  attempts := 0
  lastError := none

section
variable (hash : String → Int) (partition : String → String → Nat)

/-- A row of the outbox is there from the commit of its transaction on; no commit writes two. -/
inductive Step : Feed → Event → Feed → Prop
  | quiet {w ev c} : Txn.Step (Placement.orders hash) w.orders ev c → c.db.outbox = w.orders.db.outbox →
      Step w (.orders ev) { w with orders := c }
  | written {w ev c row createdAt o} : Txn.Step (Placement.orders hash) w.orders ev c →
      c.db.outbox = row :: w.orders.db.outbox → Outbox.Step (OrderOutboxRelayService Nat OrderEvent partition) w.outbox
        (.write (toRow createdAt w.outbox.now row)) o → Step w (.orders ev) ⟨c, o⟩
  | relay {w ev o} : (∀ row, ev ≠ .write row) →
      Outbox.Step (OrderOutboxRelayService Nat OrderEvent partition) w.outbox ev o →
      Step w (.relay ev) { w with outbox := o }

/-- The rows the outbox has had are those order has written. -/
def Linked (w : Feed) : Prop :=
  w.outbox.written.map (fun row => (row.id, row.columns)) = w.orders.db.outbox.map fun row => (row.id, columns row)

variable {hash partition} {w w' : Feed} {ev : Event} {tr : List (Feed × Event)} {offers : Nat → Option SellerOffer}

theorem written_step {o o' : EventWorld Nat OrderEvent} {ev : Outbox.Event Nat (EventColumns OrderEvent)}
    (hs : Outbox.Step (OrderOutboxRelayService Nat OrderEvent partition) o ev o') (hev : ∀ row, ev ≠ .write row) :
    o'.written = o.written := by
  cases hs with
  | write _ _ _ _ => exact absurd rfl (hev _)
  | _ => rfl

theorem linked_step (h : w.Linked) (hs : Step hash partition w ev w') : w'.Linked := by
  cases hs with
  | quiet _ hsame =>
    unfold Linked
    rw [hsame]
    exact h
  | written _ hrow hwrite =>
    cases hwrite with
    | write _ _ _ _ =>
      unfold Linked
      rw [hrow, List.map_cons, List.map_cons]
      exact congrArg _ h
  | relay hev hrelay =>
    unfold Linked
    rw [written_step hrelay hev]
    exact h

theorem linked_run (hr : Run (Step hash partition) (start offers) tr w) : w.Linked :=
  hr.invariant rfl fun h hs => linked_step h hs

/-- The transactions of order in a run of the whole. -/
theorem orders_run (hr : Run (Step hash partition) (start offers) tr w) :
    ∃ tr', Run (Txn.Step (Placement.orders hash)) (.start (Tables.empty offers)) tr' w.orders := by
  induction hr with
  | nil => exact ⟨[], .nil⟩
  | snoc _ hs ih =>
    obtain ⟨tr', hr'⟩ := ih
    cases hs with
    | quiet hstep _ => exact ⟨_, hr'.snoc hstep⟩
    | written hstep _ _ => exact ⟨_, hr'.snoc hstep⟩
    | relay _ _ => exact ⟨tr', hr'⟩

/-- And the run of its relay. -/
theorem relay_run (hr : Run (Step hash partition) (start offers) tr w) :
    ∃ tr', Run (Outbox.Step (OrderOutboxRelayService Nat OrderEvent partition)) (.start fun _ _ => []) tr'
      w.outbox := by
  induction hr with
  | nil => exact ⟨[], .nil⟩
  | snoc _ hs ih =>
    obtain ⟨tr', hr'⟩ := ih
    cases hs with
    | quiet _ _ => exact ⟨tr', hr'⟩
    | written _ _ hwrite => exact ⟨_, hr'.snoc hwrite⟩
    | relay _ hrelay => exact ⟨_, hr'.snoc hrelay⟩

/-- A row that Kafka has accepted was written by order. -/
theorem accepted_written (hr : Run (Step hash partition) (start offers) tr w)
    {row : Row Nat (EventColumns OrderEvent)} (hrow : row ∈ w.outbox.accepted) :
    ∃ source ∈ w.orders.db.outbox, columns source = row.columns := by
  obtain ⟨_, hrelay⟩ := relay_run hr
  have hreceived := Outbox.received_run (Outbox.logged 100 Outbox.sevenDays) hrelay
  obtain ⟨⟨first, hfirst, hsame⟩, _⟩ := hreceived.accepted row hrow
  have hlinked : (first.id, first.columns) ∈ w.orders.db.outbox.map fun row => (row.id, columns row) :=
    linked_run hr ▸ List.mem_map_of_mem hfirst
  obtain ⟨source, hsource, he⟩ := List.mem_map.mp hlinked
  refine ⟨source, hsource, (Prod.ext_iff.mp he).2.trans ?_⟩
  rw [hsame]

theorem consistent_run (hr : Run (Step hash partition) (start offers) tr w) : Consistent w.orders.db := by
  obtain ⟨_, horders⟩ := orders_run hr
  exact Placement.consistent_run (consistent_empty offers) horders

theorem log_step (hs : Step hash partition w ev w') (topic : String) (p : Nat) :
    w.outbox.sink topic p <+: w'.outbox.sink topic p := by
  have hdeliver : ∀ (row : Row Nat (EventColumns OrderEvent)) (log : Outbox.Log Nat OrderEvent),
      log topic p <+: (OrderOutboxRelayService Nat OrderEvent partition).deliver row log topic p := by
    intro row log
    change _ <+: if _ then _ else _
    split
    · exact List.prefix_append _ _
    · exact List.prefix_rfl
  have hsink : ∀ {o o' : EventWorld Nat OrderEvent} {ev}, Outbox.Step (OrderOutboxRelayService Nat OrderEvent partition)
      o ev o' → o.sink topic p <+: o'.sink topic p := by
    intro o o' ev hs
    cases hs with
    | send _ _ => exact hdeliver _ _
    | land _ => exact hdeliver _ _
    | drift hd => exact hd.elim
    | _ => exact List.prefix_rfl
  cases hs with
  | quiet _ _ => exact List.prefix_rfl
  | written _ _ hwrite => exact hsink hwrite
  | relay _ hrelay => exact hsink hrelay

end

end Feed

/-- `order.events` as its consumers parse it. -/
def orderEvents (hash : String → Int) (partition : String → String → Nat) (uuid toISOString : Nat → String) :
    Source Feed Feed.Event where
  step := Feed.Step hash partition
  log w p := (w.outbox.sink "order.events" p).map (toJson uuid toISOString)
  grows hs p := (Feed.log_step hs _ p).map _

namespace Feed

variable {hash : String → Int} {partition : String → String → Nat} {uuid toISOString : Nat → String} {w : Feed}
  {tr : List (Feed × Event)} {offers : Nat → Option SellerOffer}

/-- A partition of the topic has its rows of what Kafka has accepted. -/
theorem log_rows (hr : Run (Step hash partition) (start offers) tr w) (p : Nat) :
    (orderEvents hash partition uuid toISOString).log w p =
      (w.outbox.accepted.filter (Row.onPartition partition "order.events" p)).map fun row =>
        toJson uuid toISOString (Outbox.KafkaProducerService.toMessage (Outbox.toCloudEvent "/order-service" row)) := by
  obtain ⟨_, hrelay⟩ := relay_run hr
  have hlog : w.outbox.sink "order.events" p = Outbox.published partition "order.events" p w.outbox.accepted :=
    congrFun (congrFun (Outbox.log_run hrelay) "order.events") p
  change (w.outbox.sink "order.events" p).map (toJson uuid toISOString) = _
  rw [hlog, Outbox.published, List.map_map]
  rfl

/-- All that Kafka has accepted of order is on one topic. -/
theorem accepted_topic (hr : Run (Step hash partition) (start offers) tr w) {row : Row Nat (EventColumns OrderEvent)}
    (hrow : row ∈ w.outbox.accepted) : row.columns.topic = "order.events" := by
  obtain ⟨source, hsource, hcolumns⟩ := accepted_written hr hrow
  obtain ⟨_, horders⟩ := orders_run hr
  rw [← hcolumns]
  exact topic_run (fun _ h => by cases h) horders source hsource

/-- And on the partition of its order. -/
theorem accepted_on (hr : Run (Step hash partition) (start offers) tr w) {row : Row Nat (EventColumns OrderEvent)}
    (hrow : row ∈ w.outbox.accepted) :
    row.onPartition partition "order.events" (partition "order.events" row.columns.aggregateId) = true := by
  refine decide_eq_true ⟨(accepted_topic hr hrow).symm, ?_⟩
  rw [accepted_topic hr hrow]

end Feed

end MarketplaceApi.Notify
