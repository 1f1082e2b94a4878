import MarketplaceApi.Notify.Feed

/-!
# Whether a status stream goes back

Ids grow with the offsets, so what a stream shows of an order is in the order of the topic. The topic
has `order.created` behind the payment where a relay's transaction was lost after both were sent:
sent again, it has a newer offset, and so a newer id.
-/
namespace MarketplaceApi.Notify

open Outbox (EventColumns EventWorld Row Row.onPartition OrderOutboxRelayService)
open Placement
open Transition

variable {hash : String → Int} {partition : String → String → Nat} {uuid toISOString : Nat → String}
  {offers : Nat → Option SellerOffer}

namespace Feed

/-- No `order.created` is sent, and none whose send timed out arrives, once Kafka has accepted a later event of its
order. -/
def Onward (w : Feed) : Event → Prop
  | .relay ev => ∀ row ∈ w.outbox.accepts? ev, row.columns.type = "order.created" →
      ∀ other ∈ w.outbox.accepted, other.columns.aggregateId = row.columns.aggregateId →
        other.columns.type = "order.created"
  | .orders _ => True

/-- Of each order, Kafka has accepted `order.created` before its other event. -/
def CreatedFirst (accepted : List (Row Nat (EventColumns OrderEvent))) : Prop :=
  accepted.Pairwise fun row later => row.columns.aggregateId = later.columns.aggregateId →
    row.columns.type ≠ "order.created" → later.columns.type ≠ "order.created"

variable {w w' : Feed} {ev : Event} {tr : List (Feed × Event)}

theorem createdFirst_step (h : CreatedFirst w.outbox.accepted) (hm : w.Onward ev) (hs : Step hash partition w ev w') :
    CreatedFirst w'.outbox.accepted := by
  cases hs with
  | quiet _ _ => exact h
  | written _ _ hwrite =>
    rw [Outbox.accepted_step hwrite]
    exact (List.append_nil _).symm ▸ h
  | @relay ev o hev hrelay =>
    change CreatedFirst o.accepted
    rw [Outbox.accepted_step hrelay]
    refine List.pairwise_append.mpr ⟨h, ?_, fun row hrow later hlater hid ht hcreated => ?_⟩
    · cases w.outbox.accepts? ev with
      | none => exact .nil
      | some row => exact List.pairwise_singleton _ _
    · exact ht (hm later (Option.mem_toList.mp hlater) hcreated row hrow hid)

theorem createdFirst_run (hr : Run (Step hash partition) (start offers) tr w) (hm : Always Onward tr) :
    CreatedFirst w.outbox.accepted := by
  induction hr with
  | nil => exact .nil
  | snoc _ hs ih =>
    obtain ⟨ht, he⟩ := always_snoc.mp hm
    exact createdFirst_step (ih ht) he hs

end Feed

/-- A status an order never leaves. -/
def Final (status : OrderStatus) : Prop := status = .paid ∨ status = .canceled ∨ status = .failedPayment

/-- After a final status neither `pending_payment` nor another final status. -/
def NeverBack (events : List OrderStatusEvent) : Prop :=
  events.Pairwise fun e later => Final e.status →
    later.status ≠ .pendingPayment ∧ (Final later.status → later.status = e.status)

namespace Fleet

variable {parse : String → Number} {F : Fleet Feed} {tr : List (Fleet Feed × Event Feed.Event)} {id : Nat}

/-- The row a recorded event goes back to, where Kafka has it and as order wrote it. -/
theorem event_row {trace : List (Feed × Feed.Event)}
    (hr : Run (Feed.Step hash partition) (.start offers) trace F.source) {p offset : Nat} {e : OrderStatusEvent}
    (h : F.eventAt (orderEvents hash partition uuid toISOString) p offset = some e) :
    ∃ row source, (F.source.outbox.accepted.filter (Row.onPartition partition "order.events" p))[offset]? = some row ∧
      e.id = offset + 1 ∧ source ∈ F.source.orders.db.outbox ∧ Feed.columns source = row.columns ∧
      e.orderId = source.payload.orderId ∧ e.status = source.payload.status := by
  obtain ⟨message, hmessage, hevent⟩ := Option.bind_eq_some_iff.mp h
  rw [Feed.log_rows hr, List.getElem?_map] at hmessage
  obtain ⟨row, hrow, rfl⟩ := Option.map_eq_some_iff.mp hmessage
  obtain ⟨source, hsource, hcolumns⟩ := Feed.accepted_written hr (List.mem_filter.mp (List.mem_of_getElem? hrow)).1
  have htype : row.columns.type = row.columns.payload.type := by
    rw [← hcolumns]
    rfl
  obtain ⟨hid, horder, hstatus⟩ := event?_message htype hevent
  have hpayload : row.columns.payload = source.payload := by
    rw [← hcolumns]
    rfl
  exact ⟨row, source, hrow, hid, hsource, hcolumns, hpayload ▸ horder, hpayload ▸ hstatus⟩

/-- Two events of one order, the first of them final. -/
theorem final_stays
    (hr : Run (Step parse (orderEvents hash partition uuid toISOString)) (start (Feed.start offers)) tr F)
    (hm : Always (Produces Feed.Onward) tr) {e later : OrderStatusEvent}
    (he : Located (orderEvents hash partition uuid toISOString) F e)
    (hlater : Located (orderEvents hash partition uuid toISOString) F later) (hid : e.orderId = later.orderId)
    (hlt : e.id < later.id) (hfinal : Final e.status) : later.status = e.status := by
  obtain ⟨_, hfeed, honward⟩ := source_run hr hm
  have hconsistent := Feed.consistent_run hfeed
  obtain ⟨p, offset, hat⟩ := he
  obtain ⟨p', offset', hat'⟩ := hlater
  obtain ⟨row, source, hrow, hoffset, hsource, hcolumns, horder, hstatus⟩ := event_row hfeed hat
  obtain ⟨row', source', hrow', hoffset', hsource', hcolumns', horder', hstatus'⟩ := event_row hfeed hat'
  obtain ⟨hpublic, hsame⟩ := hconsistent.same_order hsource hsource' (horder.symm.trans (hid.trans horder'))
  have haggregate : row.columns.aggregateId = row'.columns.aggregateId := by
    rw [← hcolumns, ← hcolumns']
    exact hpublic
  have hpartition : p = p' := by
    have hon := of_decide_eq_true (List.mem_filter.mp (List.mem_of_getElem? hrow)).2
    have hon' := of_decide_eq_true (List.mem_filter.mp (List.mem_of_getElem? hrow')).2
    rw [hon.2, hon'.2, ← hon.1, ← hon'.1, haggregate]
  subst hpartition
  obtain ⟨hlength, hget⟩ := List.getElem?_eq_some_iff.mp hrow
  obtain ⟨hlength', hget'⟩ := List.getElem?_eq_some_iff.mp hrow'
  have hordered := List.pairwise_iff_getElem.mp ((Feed.createdFirst_run hfeed honward).filter
    (Row.onPartition partition "order.events" p)) offset offset' hlength hlength' (by omega)
  rw [hget, hget'] at hordered
  have hcreated : source.payload.type ≠ "order.created" := by
    intro ht
    rw [hstatus, (OrderEvent.status_of_type _).1 ht] at hfinal
    simp [Final] at hfinal
  have htype : row.columns.type = source.payload.type := by
    rw [← hcolumns]
    rfl
  have htype' : row'.columns.type = source'.payload.type := by
    rw [← hcolumns']
    rfl
  rw [hstatus, hstatus', hsame hcreated (htype' ▸ hordered haggregate (htype ▸ hcreated))]

/-- Events of one order that are shown in the order of their ids. -/
theorem neverBack_of_increasing
    (hr : Run (Step parse (orderEvents hash partition uuid toISOString)) (start (Feed.start offers)) tr F)
    (hm : Always (Produces Feed.Onward) tr) {events : List OrderStatusEvent} (hincreasing : Increasing events)
    (hevents : ∀ e ∈ events, e.orderId = id ∧ Located (orderEvents hash partition uuid toISOString) F e) :
    NeverBack events := by
  refine hincreasing.imp_of_mem fun {e later} he hlater hlt hfinal => ?_
  obtain ⟨hid, hat⟩ := hevents e he
  obtain ⟨hid', hat'⟩ := hevents later hlater
  have hsame := final_stays hr hm hat hat' (hid.trans hid'.symm) hlt hfinal
  refine ⟨fun hpending => ?_, fun _ => hsame⟩
  rw [← hsame, hpending] at hfinal
  simp [Final] at hfinal

/-- What a row that Kafka has accepted is recorded as. -/
theorem recorded_row {trace : List (Feed × Feed.Event)}
    (hr : Run (Feed.Step hash partition) (.start offers) trace F.source)
    (hids : ∀ order ∈ F.source.orders.db.orders, 0 < order.id ∧ order.id ≤ maxInteger) {p offset : Nat}
    {row : Row Nat (EventColumns OrderEvent)}
    (hrow : (F.source.outbox.accepted.filter (Row.onPartition partition "order.events" p))[offset]? = some row) :
    F.eventAt (orderEvents hash partition uuid toISOString) p offset =
      some ⟨offset + 1, row.columns.payload.orderId, row.columns.payload.status⟩ := by
  obtain ⟨source, hsource, hcolumns⟩ := Feed.accepted_written hr (List.mem_filter.mp (List.mem_of_getElem? hrow)).1
  have hconsistent := Feed.consistent_run hr
  obtain ⟨order, horder, _, _, hid⟩ := hconsistent.order hsource
  have hpayload : row.columns.payload = source.payload := by
    rw [← hcolumns]
    rfl
  have htype : row.columns.type = row.columns.payload.type := by
    rw [← hcolumns]
    rfl
  have hvalid : 0 < row.columns.payload.orderId ∧ row.columns.payload.orderId ≤ maxInteger := by
    rw [hpayload, hid]
    exact hids order horder
  unfold eventAt
  rw [Feed.log_rows hr, List.getElem?_map, hrow, Option.map_some, Option.bind_some]
  refine recorded_message htype hvalid fun hfailed => ?_
  change row.columns.payload.status = .canceled ∨ row.columns.payload.status = .failedPayment
  change row.columns.payload.type = "order.failed" at hfailed
  rw [hpayload] at hfailed ⊢
  exact hconsistent.failed_status hsource hfailed

/-- An instance that records its first two events of an order. -/
theorem history_two {e later : OrderStatusEvent} (hid : later.orderId = e.orderId) (hlt : e.id < later.id) :
    ((Instance.start.record e).record later).service.historyOf e.orderId = [e, later] := by
  have hfirst : (Instance.start.record e).service.historyOf e.orderId = [e] := by
    rw [Instance.service_record, OrderNotifyService.historyOf_record, if_pos ⟨rfl, rfl⟩]
    rfl
  have haccepts : (Instance.start.record e).service.accepts later = true := by
    unfold OrderNotifyService.accepts
    rw [hid, hfirst]
    exact decide_eq_true hlt
  rw [Instance.service_record, OrderNotifyService.historyOf_record, if_pos ⟨haccepts, hid⟩, hfirst]
  rfl

/-- Where `order.created` is accepted behind a later event of its order, an instance that handles both goes back. -/
theorem goes_back (hr : Run (Step parse (orderEvents hash partition uuid toISOString)) (start (Feed.start offers)) tr F)
    {ev : Feed.Event} {w : Feed} (hs : Feed.Step hash partition F.source ev w) (hbreaks : ¬ F.source.Onward ev)
    (hids : ∀ order ∈ w.orders.db.orders, 0 < order.id ∧ order.id ≤ maxInteger) :
    ∃ n id more F', Run (Step parse (orderEvents hash partition uuid toISOString)) { F with source := w } more F' ∧
      ¬ NeverBack ((F'.nodes n).service.historyOf id) := by
  have htrivial : Always (Produces fun (_ : Feed) (_ : Feed.Event) => True) tr := by
    intro p _
    cases p.2 <;> trivial
  obtain ⟨_, hbefore, _⟩ := source_run hr htrivial
  have hfeed : Run (Feed.Step hash partition) (.start offers) _ w := hbefore.snoc hs
  cases ev with
  | orders _ => exact absurd trivial hbreaks
  | relay rev =>
    unfold Feed.Onward at hbreaks
    push Not at hbreaks
    obtain ⟨row, hrow, hcreated, other, hother, haggregate, hlater⟩ := hbreaks
    have haccepted : w.outbox.accepted = F.source.outbox.accepted ++ [row] := by
      cases hs with
      | relay _ hrelay =>
        have hstep := Outbox.accepted_step hrelay
        rw [Option.mem_def.mp hrow] at hstep
        exact hstep
    have hin : row ∈ w.outbox.accepted := haccepted ▸ List.mem_append_right _ (List.mem_singleton_self row)
    have hin' : other ∈ w.outbox.accepted := haccepted ▸ List.mem_append_left _ hother
    obtain ⟨source, hsource, hcolumns⟩ := Feed.accepted_written hfeed hin
    obtain ⟨source', hsource', hcolumns'⟩ := Feed.accepted_written hfeed hin'
    have hconsistent := Feed.consistent_run hfeed
    have hsame : other.columns.payload.orderId = row.columns.payload.orderId := by
      rw [← hcolumns, ← hcolumns'] at haggregate ⊢
      exact hconsistent.same_id hsource' hsource haggregate
    -- both are on the partition of the order, the later event in front
    have hon := Feed.accepted_on hfeed hin
    have hon' := Feed.accepted_on hfeed hin'
    rw [haggregate] at hon'
    generalize partition "order.events" row.columns.aggregateId = p at hon hon'
    have hfilter : w.outbox.accepted.filter (Row.onPartition partition "order.events" p) =
        F.source.outbox.accepted.filter (Row.onPartition partition "order.events" p) ++ [row] := by
      rw [haccepted, List.filter_append, List.filter_cons_of_pos hon]
      rfl
    obtain ⟨k, hk, hget⟩ := List.getElem_of_mem (List.mem_filter.mpr ⟨hother, hon'⟩)
    have hfirst : ({ F with source := w } : Fleet Feed).eventAt (orderEvents hash partition uuid toISOString) p k =
        some ⟨k + 1, other.columns.payload.orderId, other.columns.payload.status⟩ :=
      recorded_row (F := { F with source := w }) hfeed hids
        (hfilter ▸ (List.getElem?_append_left hk).trans (List.getElem?_eq_some_iff.mpr ⟨hk, hget⟩))
    have hsecond : ({ F with source := w } : Fleet Feed).eventAt (orderEvents hash partition uuid toISOString) p _ =
        some ⟨_, row.columns.payload.orderId, row.columns.payload.status⟩ :=
      recorded_row (F := { F with source := w }) hfeed hids (hfilter ▸ List.getElem?_concat_length)
    obtain ⟨n, hfresh⟩ := fresh_run hr
    have hhandled : Step parse (orderEvents hash partition uuid toISOString) { F with source := w } (.handle n p k) _ :=
      handle_event hfirst
    have hrun := (Run.nil.snoc hhandled).snoc (handle_event (n := n) hsecond)
    refine ⟨n, other.columns.payload.orderId, _, _, hrun, fun hback => ?_⟩
    rw [set_self, set_self, show (({ F with source := w } : Fleet Feed).nodes n) = .start from hfresh n (Nat.le_refl n),
      history_two hsame.symm (Nat.succ_lt_succ hk)] at hback
    have hfinal : Final other.columns.payload.status := by
      rw [← hcolumns'] at hlater ⊢
      exact hconsistent.final_status hsource' hlater
    have hpending : row.columns.payload.status = .pendingPayment := by
      rw [← hcolumns] at hcreated ⊢
      exact (OrderEvent.status_of_type _).1 hcreated
    exact ((List.pairwise_cons.mp hback).1 _ (List.mem_singleton_self _) hfinal).1 hpending

end Fleet

/-- Nothing that is shown of an order goes back: not what an instance passes on to its listeners, not its history, no
stream, and no stream that resumes another one on any instance. -/
structure NoReturn (Y : Source Feed Feed.Event) (tr : List (Fleet Feed × Fleet.Event Feed.Event)) (F : Fleet Feed) :
    Prop where
  passed : ∀ n id, NeverBack (acceptedIn id (Fleet.traceOf Y n tr))
  history : ∀ n id, NeverBack ((F.nodes n).service.historyOf id)
  streams : ∀ n sid stream, (F.nodes n).streams sid = some stream → NeverBack stream.emitted
  resumed : ∀ n m sid sid' first second received last, (F.nodes n).streams sid = some first →
    (F.nodes m).streams sid' = some second → second.orderId = first.orderId → received <+: first.emitted →
    received.getLast? = some last → second.lastEventId = .finite last.id → NeverBack (received ++ second.emitted)

theorem noReturn_run {parse : String → Number} {F : Fleet Feed} {tr : List (Fleet Feed × Fleet.Event Feed.Event)}
    (hr : Run (Fleet.Step parse (orderEvents hash partition uuid toISOString)) (.start (.start offers)) tr F)
    (hm : Always (Fleet.Produces Feed.Onward) tr) : NoReturn (orderEvents hash partition uuid toISOString) tr F := by
  have hpassed : ∀ n id,
      NeverBack (acceptedIn id (Fleet.traceOf (orderEvents hash partition uuid toISOString) n tr)) := fun n id =>
    Fleet.neverBack_of_increasing hr hm ((logged_run (Fleet.node_run hr n)).increasing id) fun e he =>
      ⟨acceptedIn_orderId he, Fleet.located_accepted hr e he⟩
  refine ⟨hpassed, fun n id => ?_, fun n sid stream hat => ?_, fun n m sid sid' first second received last hfirst
    hsecond hid hreceived hlast hresumes => ?_⟩
  · rw [(logged_run (Fleet.node_run hr n)).history]
    exact List.Pairwise.drop (hpassed n id)
  · obtain ⟨hsteady, hevents⟩ := Fleet.emitted_located hr hat
    exact Fleet.neverBack_of_increasing hr hm hsteady.increasing hevents
  · obtain ⟨hsteady, hevents⟩ := Fleet.emitted_located hr hfirst
    obtain ⟨hsteady', hevents'⟩ := Fleet.emitted_located hr hsecond
    have hincreasing := hsteady.increasing.sublist hreceived.sublist
    have hboth : Increasing (received ++ second.emitted) := by
      refine List.pairwise_append.mpr ⟨hincreasing, hsteady'.increasing, fun e he later hlater => ?_⟩
      obtain ⟨newest, hnewest, hle⟩ := Increasing.le_last hincreasing he
      obtain rfl := Option.some.inj (hlast.symm.trans hnewest)
      have huncovered := hsteady'.uncovered later hlater
      rw [hresumes, Number.covers_nat, decide_eq_false_iff_not] at huncovered
      omega
    have hall : ∀ e ∈ received ++ second.emitted, e.orderId = first.orderId ∧
        Fleet.Located (orderEvents hash partition uuid toISOString) F e := by
      intro e he
      rcases List.mem_append.mp he with hin | hin
      · exact hevents e (hreceived.subset hin)
      · exact hid ▸ hevents' e hin
    exact Fleet.neverBack_of_increasing hr hm hboth hall

/-- As long as every step meets the condition nothing goes back, and after a step that breaks it an instance can. -/
theorem status_onward (parse : String → Number) (hash : String → Int) (partition : String → String → Nat)
    (uuid toISOString : Nat → String) (offers : Nat → Option SellerOffer) :
    (∀ tr F, Run (Fleet.Step parse (orderEvents hash partition uuid toISOString)) (.start (.start offers)) tr F →
      Always (Fleet.Produces Feed.Onward) tr → NoReturn (orderEvents hash partition uuid toISOString) tr F) ∧
    ∀ tr F ev w, Run (Fleet.Step parse (orderEvents hash partition uuid toISOString)) (.start (.start offers)) tr F →
      Feed.Step hash partition F.source ev w → ¬ F.source.Onward ev →
      (∀ order ∈ w.orders.db.orders, 0 < order.id ∧ order.id ≤ maxInteger) → ∃ n id more F',
        Run (Fleet.Step parse (orderEvents hash partition uuid toISOString)) { F with source := w } more F' ∧
        ¬ NeverBack ((F'.nodes n).service.historyOf id) :=
  ⟨fun _ _ => noReturn_run, fun _ _ _ _ hr hs => Fleet.goes_back hr hs⟩

/-! ## Runs of one relay -/

namespace Feed

section
variable {hash : String → Int} {partition : String → String → Nat} {Meets : Feed → Event → Prop}
  {c : Txn.Config Lock Tables Failure Answer Request} {o o' : EventWorld Nat OrderEvent}

/-- The statements of a transaction. -/
theorem reaches_statements (horders : ∀ w ev, Meets w (.orders ev)) {c' : Txn.Config Lock Tables Failure Answer Request}
    {tr : List (Txn.Config Lock Tables Failure Answer Request × Txn.Event Request)}
    (hr : Run (Txn.Step (Placement.orders hash)) c tr c') (h : ∀ p ∈ tr, p.2 = .statement 0) :
    Reaches (Step hash partition) Meets ⟨c, o⟩ ⟨c', o⟩ := by
  induction hr with
  | nil => exact .refl
  | @snoc tr s s' ev hr hs ih =>
    have hbefore := fun p hp => h p (List.mem_append_left _ hp)
    have hdb := Txn.statements_db (hr.snoc hs) h
    refine (ih hbefore).step (.quiet hs ?_) (horders _ _)
    rw [hdb, Txn.statements_db hr hbefore]

/-- A request alone that writes an event. -/
theorem reaches_commit (horders : ∀ w ev, Meets w (.orders ev)) {q : Request} {s s' : Tables} {answer : Answer}
    {as : List (Request × Except Failure Answer)} {row : OrderOutbox} (hq : q.WellTyped)
    (h : (handler hash q).run s = .ok (s', answer)) (hrow : s'.outbox = row :: s.outbox)
    (hfresh : ∀ other ∈ o.written, other.id ≠ row.id) :
    Reaches (Step hash partition) Meets ⟨⟨s, fun _ => none, as⟩, o⟩
      ⟨⟨s', fun _ => none, (q, .ok answer) :: as⟩, { o with
        rows := toRow o.now o.now row :: o.rows, written := toRow o.now o.now row :: o.written }⟩ := by
  have hbegin : Txn.Step (Placement.orders hash) ⟨s, fun _ => none, as⟩ (.begin 0 q) _ := .begin rfl hq
  obtain ⟨tr, last, ev, hr, _, hlast, hstatements, _⟩ := Txn.drain_uses (Y := Placement.orders hash)
    (c := (⟨s, fun _ => none, as⟩ : Txn.Config Lock Tables Failure Answer Request).set 0
      (some ⟨q, handler hash q, id, []⟩)) (i := 0) (Txn.Config.set_self _ 0 _)
    (Txn.Prog.uses_all _ fun k j u hj hu => by
      rw [Txn.Config.set_other _ hj] at hu
      cases hu)
  rw [Txn.Config.close_set] at hlast
  change Txn.Step _ last ev (Txn.Config.close _ 0 q ((handler hash q).run s)) at hlast
  simp only [h, Txn.Config.close, Txn.Config.set, Function.update_eq_self] at hlast
  have hsame : last.db = s := Txn.statements_db hr hstatements
  have hbegun : Reaches (Step hash partition) Meets ⟨⟨s, fun _ => none, as⟩, o⟩ ⟨_, o⟩ :=
    Reaches.refl.step (.quiet hbegin rfl) (horders _ _)
  have hran := hbegun.trans (reaches_statements horders hr hstatements)
  exact hran.step (.written hlast (by rw [hsame]; exact hrow) (.write (Nat.le_refl _) rfl rfl hfresh)) (horders _ _)

/-- What the relay alone does. -/
theorem reaches_relay {M : EventWorld Nat OrderEvent → Outbox.Event Nat (EventColumns OrderEvent) → Prop}
    (hrelay : ∀ w ev, M w.outbox ev → Meets w (.relay ev)) (hwrite : ∀ o row, ¬ M o (.write row))
    (h : Reaches (Outbox.Step (OrderOutboxRelayService Nat OrderEvent partition)) M o o') :
    Reaches (Step hash partition) Meets ⟨c, o⟩ ⟨c, o'⟩ := by
  obtain ⟨tr, hr, hm⟩ := h
  induction hr with
  | nil => exact .refl
  | @snoc tr o o' ev hr hs ih =>
    obtain ⟨ht, he⟩ := always_snoc.mp hm
    refine (ih ht).step (.relay ?_ hs) (hrelay ⟨c, o⟩ ev he)
    rintro row rfl
    exact hwrite o row he

end

/-- Only instance 0 relays. -/
def OneRelay (_ : Feed) : Event → Prop
  | .relay (.begin i) => i = 0
  | _ => True

def sampleOffers : Nat → Option SellerOffer := (oneOffer ⟨150, by decide⟩).offers

def createdEvent : OrderOutbox := ⟨1, "order.events", "Order", sampleGenerated.publicId,
  .created 1 sampleGenerated.publicId 7 "3.00".toList "0.00".toList .uah 1_500⟩

def paidEvent : OrderOutbox := ⟨2, "order.events", "Order", sampleGenerated.publicId,
  .paid 1 sampleGenerated.publicId 7 "3.00".toList "0.00".toList .uah [⟨1, 3, 2, ⟨150, samplePrice_lt⟩, none⟩] 1_700⟩

def createdRow : Row Nat (EventColumns OrderEvent) := toRow 0 0 createdEvent

def paidRow : Row Nat (EventColumns OrderEvent) := toRow 0 0 paidEvent

/-- One partition. -/
def sampleRelay : Outbox.Service Nat (EventColumns OrderEvent) (Outbox.Log Nat OrderEvent) :=
  OrderOutboxRelayService Nat OrderEvent fun _ _ => 0

/-- Nothing is being relayed, and nothing is marked. -/
def calm (rows accepted : List (Row Nat (EventColumns OrderEvent))) : EventWorld Nat OrderEvent :=
  ⟨0, rows, fun _ => none, fun topic p => Outbox.published (fun _ _ => 0) topic p accepted, [], accepted, rows⟩

/-- In the middle of a batch. -/
def sending (rows accepted sent rest : List (Row Nat (EventColumns OrderEvent))) : EventWorld Nat OrderEvent :=
  (calm rows accepted).set 0 (some ⟨0, .sending sent rest, false⟩)

section
variable {rows accepted sent rest : List (Row Nat (EventColumns OrderEvent))} {row : Row Nat (EventColumns OrderEvent)}

theorem send_sending : Outbox.Step sampleRelay (sending rows accepted sent (row :: rest)) (.send 0)
    (sending rows (accepted ++ [row]) (sent ++ [row]) rest) := by
  have hstep : Outbox.Step sampleRelay (sending rows accepted sent (row :: rest)) (.send 0) _ :=
    .send (Outbox.World.set_self _ 0 _) rfl
  unfold sending at hstep
  rw [Outbox.World.set_set] at hstep
  unfold sending calm
  rw [← Outbox.deliver_published]
  exact hstep

theorem rollback_sending : Outbox.Step sampleRelay (sending rows accepted sent rest) (.rollback 0)
    (calm rows accepted) := by
  have hstep : Outbox.Step sampleRelay (sending rows accepted sent rest) (.rollback 0) _ :=
    .rollback (Outbox.World.set_self _ 0 _)
  unfold sending at hstep
  rw [Outbox.World.set_set, show (calm rows accepted).set 0 none = calm rows accepted from
    congrArg (fun relays => { calm rows accepted with relays }) (Function.update_eq_self 0 _)] at hstep
  exact hstep

theorem claims_calm (hunpublished : Outbox.OutboxRepository.unpublished rows = rest) (hlength : rest.length ≤ 100) :
    Reaches (Outbox.Step sampleRelay) (fun _ ev => ev.claims) (calm rows accepted) (sending rows accepted [] rest) := by
  subst hunpublished
  exact Outbox.claims_all (fun _ _ => rfl) rfl hlength

end

theorem unpublished_created : Outbox.OutboxRepository.unpublished [createdRow] = [createdRow] :=
  List.mergeSort_singleton createdRow

theorem unpublished_both : Outbox.OutboxRepository.unpublished [paidRow, createdRow] = [createdRow, paidRow] := by
  simp [Outbox.OutboxRepository.unpublished, List.mergeSort, List.MergeSort.Internal.splitInTwo, List.splitAt,
    List.splitAt.go, paidRow, createdRow, toRow, paidEvent, createdEvent, Row.before]

/-- A placement, and the payment of its order. -/
theorem sample_commits : ∃ s order s',
    (handler plainHash (.place sampleGenerated oneItem sampleBuyer none)).run (Tables.empty sampleOffers) =
      .ok (s, order) ∧ s.outbox = [createdEvent] ∧
    (handler plainHash (.markPaid ⟨2, 1_700⟩ 1)).run s = .ok (s', .marked) ∧
    s'.outbox = [paidEvent, createdEvent] ∧ s'.orders.map Order.id = [1] :=
  ⟨_, _, _, rfl, rfl, rfl, rfl, rfl⟩

section
variable {Meets : Feed → Event → Prop} {c : Txn.Config Lock Tables Failure Answer Request}
  {rows accepted sent rest : List (Row Nat (EventColumns OrderEvent))} {row : Row Nat (EventColumns OrderEvent)}
  {w : Feed}

theorem reaches_claims (hclaims : ∀ (w : Feed) (ev : Outbox.Event Nat (EventColumns OrderEvent)), ev.claims →
    Meets w (.relay ev)) (h : Reaches (Step plainHash fun _ _ => 0) Meets w ⟨c, calm rows accepted⟩)
    (hunpublished : Outbox.OutboxRepository.unpublished rows = rest) (hlength : rest.length ≤ 100) :
    Reaches (Step plainHash fun _ _ => 0) Meets w ⟨c, sending rows accepted [] rest⟩ :=
  h.trans (reaches_relay (fun w ev => hclaims w ev) (fun _ _ => id) (claims_calm hunpublished hlength))

theorem reaches_send (h : Reaches (Step plainHash fun _ _ => 0) Meets w ⟨c, sending rows accepted sent (row :: rest)⟩)
    (hm : Meets ⟨c, sending rows accepted sent (row :: rest)⟩ (.relay (.send 0))) :
    Reaches (Step plainHash fun _ _ => 0) Meets w ⟨c, sending rows (accepted ++ [row]) (sent ++ [row]) rest⟩ := by
  have hstep : Step plainHash (fun _ _ => 0) ⟨c, sending rows accepted sent (row :: rest)⟩ (.relay (.send 0)) _ :=
    .relay (fun _ he => by cases he) send_sending
  exact h.step hstep hm

theorem reaches_rollback (h : Reaches (Step plainHash fun _ _ => 0) Meets w ⟨c, sending rows accepted sent rest⟩)
    (hm : Meets ⟨c, sending rows accepted sent rest⟩ (.relay (.rollback 0))) :
    Reaches (Step plainHash fun _ _ => 0) Meets w ⟨c, calm rows accepted⟩ := by
  have hstep : Step plainHash (fun _ _ => 0) ⟨c, sending rows accepted sent rest⟩ (.relay (.rollback 0)) _ :=
    .relay (fun _ he => by cases he) rollback_sending
  exact h.step hstep hm

/-- A request alone while nothing is relayed. -/
theorem reaches_written (horders : ∀ w ev, Meets w (.orders ev)) {q : Request} {s s' : Tables} {answer : Answer}
    {as : List (Request × Except Failure Answer)} {source : OrderOutbox}
    (h : Reaches (Step plainHash fun _ _ => 0) Meets w ⟨⟨s, fun _ => none, as⟩, calm rows accepted⟩) (hq : q.WellTyped)
    (hrun : (handler plainHash q).run s = .ok (s', answer)) (hrow : s'.outbox = source :: s.outbox)
    (hfresh : ∀ other ∈ rows, other.id ≠ source.id) :
    Reaches (Step plainHash fun _ _ => 0) Meets w
      ⟨⟨s', fun _ => none, (q, .ok answer) :: as⟩, calm (toRow 0 0 source :: rows) accepted⟩ :=
  h.trans (reaches_commit horders hq hrun hrow hfresh)

end

theorem start_reaches (Meets : Feed → Event → Prop) : Reaches (Step plainHash fun _ _ => 0) Meets (start sampleOffers)
    ⟨⟨Tables.empty sampleOffers, fun _ => none, []⟩, calm [] []⟩ := .refl

theorem claims_oneRelay (w : Feed) (ev : Outbox.Event Nat (EventColumns OrderEvent)) (h : ev.claims) :
    OneRelay w (.relay ev) := by
  cases ev with
  | begin i => exact h
  | _ => trivial

/-- Both events were sent, and both are claimed again. -/
def claimedAgain : EventWorld Nat OrderEvent :=
  sending [paidRow, createdRow] [createdRow, paidRow] [] [createdRow, paidRow]

/-- The relay sends both events, its transaction is lost, and the next batch has claimed them again. -/
theorem reaches_lost : ∃ c, c.db.orders.map Order.id = [1] ∧
    Reaches (Step plainHash fun _ _ => 0) OneRelay (start sampleOffers) ⟨c, claimedAgain⟩ := by
  obtain ⟨s, order, s', hplace, hcreated, hmark, hpaid, hids⟩ := sample_commits
  have horders : ∀ w ev, OneRelay w (.orders ev) := fun _ _ => trivial
  have hstart := start_reaches OneRelay
  have hplaced := reaches_written horders hstart (by trivial) hplace hcreated (by simp)
  have hmarked := reaches_written horders hplaced (by trivial) hmark (hcreated ▸ hpaid) (by decide)
  have hfirst := reaches_claims claims_oneRelay hmarked unpublished_both (by decide)
  have hlost := reaches_rollback (reaches_send (reaches_send hfirst trivial) trivial) trivial
  exact ⟨_, hids, reaches_claims claims_oneRelay hlost unpublished_both (by decide)⟩

theorem onward_of_none {w : Feed} {ev : Outbox.Event Nat (EventColumns OrderEvent)} (h : w.outbox.accepts? ev = none) :
    Onward w (.relay ev) := by
  intro row hrow
  rw [h] at hrow
  cases hrow

theorem claims_onward (w : Feed) (ev : Outbox.Event Nat (EventColumns OrderEvent)) (h : ev.claims) :
    Onward w (.relay ev) := by
  refine onward_of_none ?_
  cases ev with
  | begin _ => rfl
  | claim _ => rfl
  | lock _ _ => rfl
  | claimed _ => rfl
  | _ => exact h.elim

theorem onward_send {c : Txn.Config Lock Tables Failure Answer Request}
    {rows accepted sent rest : List (Row Nat (EventColumns OrderEvent))} {row : Row Nat (EventColumns OrderEvent)}
    (h : row.columns.type = "order.created" → ∀ other ∈ accepted, other.columns.type = "order.created") :
    Onward ⟨c, sending rows accepted sent (row :: rest)⟩ (.relay (.send 0)) := by
  intro next hnext ht other hother _
  obtain rfl : row = next := Option.some.inj hnext
  exact h ht other hother

/-- The transaction is lost when the relay has sent `order.created` alone, and the order is paid afterwards. -/
theorem reaches_again : ∃ c, Reaches (Step plainHash fun _ _ => 0) Onward (start sampleOffers)
    ⟨c, sending [paidRow, createdRow] [createdRow, createdRow, paidRow] [createdRow, paidRow] []⟩ := by
  obtain ⟨s, order, s', hplace, hcreated, hmark, hpaid, _⟩ := sample_commits
  have horders : ∀ w ev, Onward w (.orders ev) := fun _ _ => trivial
  have hstart := start_reaches Onward
  have hplaced := reaches_written horders hstart (by trivial) hplace hcreated (by simp)
  have hfirst := reaches_claims claims_onward hplaced unpublished_created (by decide)
  have hlost := reaches_rollback (reaches_send hfirst (onward_send fun _ _ hin => nomatch hin)) (onward_of_none rfl)
  have hmarked := reaches_written horders hlost (by trivial) hmark (hcreated ▸ hpaid) (by decide)
  have hsecond := reaches_claims claims_onward hmarked unpublished_both (by decide)
  refine ⟨_, reaches_send (reaches_send hsecond (onward_send fun _ other hother => ?_)) (onward_send ?_)⟩
  · rw [List.mem_singleton.mp hother]
    rfl
  · exact fun hcreated => absurd hcreated (by decide)

end Feed

/-- One partition, and plain texts of ids and times. -/
def sampleTopic : Source Feed Feed.Event := orderEvents plainHash (fun _ _ => 0) toString toString

/-- A stream that is open from the start on an instance that handles the first three messages. -/
theorem reaches_shown {Meets : Feed → Feed.Event → Prop} {w : Feed} {first second third : OrderStatus}
    (h : Reaches sampleTopic.step Meets (.start Feed.sampleOffers) w)
    (hfirst : (⟨w, fun _ => .start⟩ : Fleet Feed).eventAt sampleTopic 0 0 = some ⟨1, 1, first⟩)
    (hsecond : (⟨w, fun _ => .start⟩ : Fleet Feed).eventAt sampleTopic 0 1 = some ⟨2, 1, second⟩)
    (hthird : (⟨w, fun _ => .start⟩ : Fleet Feed).eventAt sampleTopic 0 2 = some ⟨3, 1, third⟩) :
    ∃ F stream,
      Reaches (Fleet.Step sampleNumber sampleTopic) (Fleet.Produces Meets) (.start (.start Feed.sampleOffers)) F ∧
      (F.nodes 0).streams 0 = some stream ∧ stream.emitted = [⟨1, 1, first⟩, ⟨2, 1, second⟩, ⟨3, 1, third⟩] := by
  have hguard : OrderAccessGuard.canActivate sampleNumber (fun _ => .ok sampleOrder) "1" none none = .ok () := by decide
  have hopen : Step sampleNumber .start (.connect 0 1 none) (Instance.start.events 0 1 (.finite 0)) :=
    .connect rfl (show sampleNumber "1" = .finite (1 : Nat) from rfl) hguard
  have hconnect : Fleet.Step sampleNumber sampleTopic ⟨w, fun _ => .start⟩ (.connect 0 0 1 none) _ := .connect hopen
  have h₀ := (Fleet.reaches_source h).step hconnect trivial
  have h₁ := h₀.step (Fleet.handle_event (n := 0) hfirst) trivial
  have h₂ := h₁.step (Fleet.handle_event (n := 0) hsecond) trivial
  exact ⟨_, _, h₂.step (Fleet.handle_event (n := 0) hthird) trivial, rfl, rfl⟩

/-- The relay alone sends `order.created` and `order.paid`, its transaction is lost, and both are sent again: the stream
goes from `paid` back to `pending_payment`. -/
theorem status_onward_refuted : ¬ ∀ (tr : List (Fleet Feed × Fleet.Event Feed.Event)) (F : Fleet Feed),
    Run (Fleet.Step sampleNumber sampleTopic) (.start (.start Feed.sampleOffers)) tr F →
    Always (Fleet.Produces Feed.OneRelay) tr →
    ∀ n sid stream, (F.nodes n).streams sid = some stream → NeverBack stream.emitted := by
  intro hclaim
  obtain ⟨c, _, hlost⟩ := Feed.reaches_lost
  obtain ⟨F, stream, ⟨tr, hr, hm⟩, hat, hemitted⟩ := reaches_shown (Feed.reaches_send hlost trivial) rfl rfl rfl
  have hback := hclaim tr F hr hm 0 0 stream hat
  rw [hemitted] at hback
  have hlater := (List.pairwise_cons.mp (List.pairwise_cons.mp hback).2).1 _ List.mem_cons_self (Or.inl rfl)
  exact hlater.1 rfl

/-- A transaction that is lost before the order is paid: `order.created` is there twice, and nothing goes back. One that
is lost afterwards: something does. -/
theorem status_onward_both :
    (∃ (tr : List (Fleet Feed × Fleet.Event Feed.Event)) (F : Fleet Feed) (stream : Stream),
      Run (Fleet.Step sampleNumber sampleTopic) (.start (.start Feed.sampleOffers)) tr F ∧
      Always (Fleet.Produces Feed.Onward) tr ∧ (F.nodes 0).streams 0 = some stream ∧
      stream.emitted = [⟨1, 1, .pendingPayment⟩, ⟨2, 1, .pendingPayment⟩, ⟨3, 1, .paid⟩] ∧ NoReturn sampleTopic tr F) ∧
    ∃ (tr : List (Fleet Feed × Fleet.Event Feed.Event)) (F : Fleet Feed) (ev : Feed.Event) (w : Feed),
      Run (Fleet.Step sampleNumber sampleTopic) (.start (.start Feed.sampleOffers)) tr F ∧
      Feed.Step plainHash (fun _ _ => 0) F.source ev w ∧ ¬ F.source.Onward ev ∧ ∃ n id more F',
        Run (Fleet.Step sampleNumber sampleTopic) { F with source := w } more F' ∧
        ¬ NeverBack ((F'.nodes n).service.historyOf id) := by
  obtain ⟨hmeets, hbreaks⟩ := status_onward sampleNumber plainHash (fun _ _ => 0) toString toString Feed.sampleOffers
  constructor
  · obtain ⟨c, hagain⟩ := Feed.reaches_again
    obtain ⟨F, stream, ⟨tr, hr, hm⟩, hat, hemitted⟩ := reaches_shown hagain rfl rfl rfl
    exact ⟨tr, F, stream, hr, hm, hat, hemitted, hmeets tr F hr hm⟩
  · obtain ⟨c, hids, hlost⟩ := Feed.reaches_lost
    have hreaches : Reaches (Fleet.Step sampleNumber sampleTopic) (Fleet.Produces Feed.OneRelay)
        (.start (.start Feed.sampleOffers)) ⟨⟨c, Feed.claimedAgain⟩, fun _ => .start⟩ := Fleet.reaches_source hlost
    obtain ⟨tr, hr, _⟩ := hreaches
    have hstep : Feed.Step plainHash (fun _ _ => 0) ⟨c, Feed.claimedAgain⟩ (.relay (.send 0)) _ :=
      .relay (fun _ he => by cases he) Feed.send_sending
    have hbroken : ¬ Feed.Onward ⟨c, Feed.claimedAgain⟩ (.relay (.send 0)) := fun honward =>
      absurd (honward Feed.createdRow rfl rfl Feed.paidRow (List.mem_of_getElem? (i := 1) rfl) rfl) (by decide)
    have hpositive : ∀ order ∈ c.db.orders, 0 < order.id ∧ order.id ≤ maxInteger := by
      intro order horder
      have hid := List.mem_map_of_mem (f := Order.id) horder
      rw [hids] at hid
      rw [List.mem_singleton.mp hid]
      decide
    exact ⟨tr, _, _, _, hr, hstep, hbroken, hbreaks tr _ _ _ hr hstep hbroken hpositive⟩

end MarketplaceApi.Notify
