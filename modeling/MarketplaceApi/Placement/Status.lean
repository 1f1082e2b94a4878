import Mathlib.Data.List.Nodup
import MarketplaceApi.Placement.Isolation
import MarketplaceApi.Placement.Requests

/-!
# Order status and order events

A commit of the order context writes a new order with its two outbox rows, or moves a pending
order to its final status with one event, or nothing. The events of an order are therefore
determined by its status.
-/
namespace MarketplaceApi.Placement

open Money Txn Transition

/-- The rows of one placed order. -/
def Tables.placed (s : Tables) (order : Order) (recipient : OrderRecipient) (lines : List OrderLine)
    (eventId : Nat) (items : List OrderCreateItemInput) : Tables :=
  ((((s.addRecipient recipient).addOrder order).addLines lines).addOutbox
    (OrderPlaceMessageService.toOrderCreatedOutbox eventId order)).addWorkflow
    (OrderPlaceMessageService.toOrderPlaceWorkflowOutbox order items)

/-- The row of a priced line. -/
def PricedOrderLine.toLine (orderId : Nat) (priced : PricedOrderLine) : OrderLine :=
  ⟨orderId, priced.offerId, priced.quantity, priced.unitPrice, priced.unitDiscountPrice⟩

/-- What `place` writes: a pending order of the request under keys nothing has, with its
recipient and lines. -/
structure Drafted (gen : Generated) (buyer : OrderBuyer) (key : Option String) (s : Tables) (order : Order)
    (recipient : OrderRecipient) (lines : List OrderLine) : Prop where
  id : order.id = gen.orderId
  publicId : order.publicId = gen.publicId
  userId : order.userId = buyer.userId
  idempotencyKey : order.idempotencyKey = key.map uuidValue
  status : order.status = .pendingPayment
  recipientId : recipient.id = gen.recipientId
  orderRecipientId : order.orderRecipientId = recipient.id
  lineOrder : ∀ line ∈ lines, line.orderId = order.id
  lineKey : (lines.map OrderLine.offerId).Nodup
  keys : ∀ k ∈ order.keys, s.taken k = false
  recipientKey : s.taken (.recipient recipient.id) = false
  eventKey : s.taken (.event gen.eventId) = false

inductive Commit : Request → Tables → Tables → Answer → Prop
  | placed {gen input buyer key s order recipient lines} : Drafted gen buyer key s order recipient lines →
      Commit (.place gen input buyer key) s (s.placed order recipient lines gen.eventId input.items)
        (.order order)
  | found {gen input buyer key s order later} : later ∈ s.orders → order.Later later →
      order.userId = buyer.userId → order.idempotencyKey = some (uuidValue key) →
      Commit (.place gen input buyer (some key)) s s (.order order)
  | paid {drawn orderId s found} : (s.orders.any fun order => order.isPending orderId) = true →
      (s.updatePending orderId ⟨.paid, drawn.now⟩).orders.find? (fun order => order.id = orderId) = some found →
      s.taken (.event drawn.eventId) = false →
      Commit (.markPaid drawn orderId) s ((s.updatePending orderId ⟨.paid, drawn.now⟩).addOutbox
        (OrderPlaceMessageService.toOrderPaidOutbox drawn.eventId found (s.linesOf orderId))) .marked
  | failed {drawn orderId failure s found} : (s.orders.any fun order => order.isPending orderId) = true →
      (s.updatePending orderId ⟨failure.status, drawn.now⟩).orders.find? (fun order => order.id = orderId) =
        some found →
      s.taken (.event drawn.eventId) = false →
      Commit (.markFailed drawn orderId failure) s ((s.updatePending orderId ⟨failure.status, drawn.now⟩).addOutbox
        (OrderPlaceMessageService.toOrderFailedOutbox drawn.eventId found failure)) .marked
  | settled {q s} : Commit q s s .marked

section
variable {hash : String → Int} {b s s' m : Tables}

theorem exec_findByIds {ids : List Nat} {offers : List (Nat × SellerOffer)}
    (h : Exec isolation b (SellerOfferService.findByIds ids) s m (.ok offers)) : m = s := by
  unfold SellerOfferService.findByIds at h
  split at h
  · cases h
  · exact h.of_look.1

theorem exec_createRecipient {recipient r : OrderRecipient}
    (h : Exec isolation b (OrderRecipientRepository.create recipient) s m (.ok r)) :
    r = recipient ∧ m = s.addRecipient recipient ∧ s.taken (.recipient recipient.id) = false := by
  have he := h.of_exec
  rw [any_recipient] at he
  split at he
  · cases he
  · split at he
    · cases he
    · cases he
      exact ⟨rfl, rfl, by simp_all⟩

theorem exec_createOrder {draft order : Order}
    (h : Exec isolation b (OrderRepository.create draft) s m (.ok order)) :
    order = draft ∧ m = s.addOrder draft ∧ ∀ k ∈ draft.keys, s.taken k = false := by
  have he := h.of_exec
  rw [any_order, any_publicId, any_idempotency] at he
  split at he
  · cases he
  · split at he
    · cases he
    · split at he
      · cases he
      · rename_i horder
        split at he
        · cases he
        · rename_i hpublic
          split at he
          · cases he
          · rename_i hidem
            cases he
            refine ⟨rfl, rfl, fun k hk => ?_⟩
            rcases mem_keys.mp hk with rfl | rfl | ⟨key, hkey, rfl⟩
            · exact Bool.not_eq_true _ ▸ horder
            · exact Bool.not_eq_true _ ▸ hpublic
            · rw [hkey, Option.any_some] at hidem
              exact Bool.not_eq_true _ ▸ hidem

theorem exec_createItems {priced : List PricedOrderLine} {orderId : Nat} {ls : List OrderLine}
    (h : Exec isolation b (OrderPlaceCommandHandler.createItems priced orderId) s m (.ok ls)) :
    m = s.addLines (priced.map (PricedOrderLine.toLine orderId)) ∧
      ((priced.map (PricedOrderLine.toLine orderId)).map OrderLine.offerId).Nodup := by
  have he := h.of_exec
  split at he
  · cases he
  · split at he
    · rename_i hkey
      cases he
      refine ⟨rfl, List.Nodup.of_map (fun offerId => (orderId, offerId)) ?_⟩
      rw [List.map_append, List.nodup_append, List.map_map] at hkey
      rw [List.map_map, List.map_map]
      exact hkey.1
    · cases he

theorem exec_createOutbox {row : OrderOutbox} {u : Unit}
    (h : Exec isolation b (OrderOutboxRepository.create row) s m (.ok u)) :
    m = s.addOutbox row ∧ s.taken (.event row.id) = false := by
  have he := h.of_exec
  rw [any_event] at he
  split at he
  · cases he
  · rename_i hfree
    cases he
    exact ⟨rfl, Bool.not_eq_true _ ▸ hfree⟩

theorem exec_createWorkflow {row : OrderWorkflowOutbox} {u : Unit}
    (h : Exec isolation b (OrderWorkflowOutboxRepository.create row) s m (.ok u)) : m = s.addWorkflow row := by
  have he := h.of_exec
  split at he
  · cases he
  · cases he
    rfl

/-- A placement that commits has drafted its order from the lines it priced. -/
theorem exec_place_priced {gen : Generated} {input : OrderCreateInput} {buyer : OrderBuyer} {key : Option String}
    {order : Order} (h : Exec isolation b (OrderPlaceCommandHandler.place gen input buyer key) s s' (.ok order)) :
    ∃ offers priced recipient, input.items.mapM (OrderPlaceCommandHandler.toPriceItemOrFail offers) = .ok priced ∧
      order.totalAmount = toFixed (priced.foldl (fun sum p => sum + p.amount) 0) ∧
      order.discountAmount = toFixed (priced.foldl (fun sum p => sum + p.discount) 0) ∧
      order.currency = input.currency ∧
      s' = s.placed order recipient (priced.map (PricedOrderLine.toLine order.id)) gen.eventId input.items ∧
      Drafted gen buyer key s order recipient (priced.map (PricedOrderLine.toLine order.id)) := by
  obtain ⟨b₁, m₁, offers, _, hfound, h₁⟩ := Exec.of_bind h
  obtain rfl := exec_findByIds hfound
  obtain ⟨b₂, m₂, recipient, _, hrecipient, h₂⟩ := Exec.of_bind h₁
  obtain ⟨rfl, rfl, hr⟩ := exec_createRecipient hrecipient
  split at h₂
  · cases h₂
  · rename_i priced hmap
    obtain ⟨b₃, m₃, created, _, horder, h₃⟩ := Exec.of_bind h₂
    obtain ⟨rfl, rfl, hkeys⟩ := exec_createOrder horder
    obtain ⟨b₄, m₄, lines, _, hlines, h₄⟩ := Exec.of_bind h₃
    obtain ⟨rfl, hlineKey⟩ := exec_createItems hlines
    obtain ⟨b₅, m₅, _, _, hevent, h₅⟩ := Exec.of_bind h₄
    obtain ⟨rfl, hfree⟩ := exec_createOutbox hevent
    obtain ⟨b₆, m₆, _, _, hworkflow, h₆⟩ := Exec.of_bind h₅
    obtain rfl := exec_createWorkflow hworkflow
    cases h₆
    refine ⟨offers, priced, _, hmap, rfl, rfl, rfl, rfl, rfl, rfl, rfl, rfl, rfl, rfl, rfl, fun line hin => ?_,
      hlineKey, fun k hk => ?_, hr, ?_⟩
    · obtain ⟨p, _, rfl⟩ := List.mem_map.mp hin
      rfl
    · have hkey := hkeys k hk
      rw [taken_addRecipient, Bool.or_eq_false_iff] at hkey
      exact hkey.2
    · change (((m₁.addRecipient _).addOrder _).addLines _).taken (.event gen.eventId) = false at hfree
      rw [taken_addLines, taken_addOrder, taken_addRecipient] at hfree
      simp only [Bool.or_eq_false_iff] at hfree
      exact hfree.2.2

theorem exec_place {gen : Generated} {input : OrderCreateInput} {buyer : OrderBuyer} {key : Option String}
    {order : Order} (h : Exec isolation b (OrderPlaceCommandHandler.place gen input buyer key) s s' (.ok order)) :
    Commit (.place gen input buyer key) s s' (.order order) := by
  obtain ⟨_, _, _, _, _, _, _, rfl, hd⟩ := exec_place_priced h
  exact .placed hd

theorem exec_createPending {gen : Generated} {input : OrderCreateInput} {buyer : OrderBuyer}
    {key : Option String} {order : Order}
    (h : Exec isolation b (OrderPlaceCommandHandler.createPending hash gen input buyer key) s s' (.ok order)) :
    Commit (.place gen input buyer key) s s' (.order order) := by
  cases key with
  | none => exact exec_place h
  | some key =>
    obtain ⟨b₁, m₁, _, _, hlock, h₁⟩ := Exec.of_bind h
    cases hlock.of_exec
    obtain ⟨b₂, m₂, found, _, hlook, h₂⟩ := Exec.of_bind h₁
    obtain ⟨rfl, v, _, hv, hfind⟩ := hlook.of_look
    cases found with
    | none => exact exec_place h₂
    | some placed =>
      cases h₂
      have hmem := List.mem_of_find?_eq_some hfind
      have hkey := List.find?_some hfind
      simp only [decide_eq_true_eq] at hkey
      obtain ⟨later, hin, hl⟩ := hv order hmem
      exact .found hin hl hkey.1 hkey.2

theorem updatePending_eq_self {id : Nat} {change : Change}
    (h : (s.orders.any fun order => order.isPending id) = false) : s.updatePending id change = s := by
  unfold Tables.updatePending
  have hsame : ∀ order ∈ s.orders, order.updatePending id change = order := by
    intro order hin
    have hno := List.any_eq_false.mp h order hin
    unfold Order.updatePending
    rw [if_neg]
    simpa [Order.isPending] using hno
  rw [List.map_congr_left hsame, List.map_id']

/-- The guarded update finds a pending order and moves it, or changes nothing. -/
theorem exec_updatePendingStatusById {id : Nat} {change : Change} {updated : Option (Order × List OrderLine)}
    (h : Exec isolation b (OrderRepository.updatePendingStatusById id change) s m (.ok updated)) :
    (updated = none ∧ m = s) ∨ ∃ found, updated = some (found, s.linesOf id) ∧
      m = s.updatePending id change ∧ (s.orders.any fun order => order.isPending id) = true ∧
      m.orders.find? (fun order => order.id = id) = some found := by
  obtain ⟨b₁, m₁, seen, _, hlook, h₁⟩ := Exec.of_bind h
  obtain ⟨rfl, _⟩ := hlook.of_look
  split at h₁
  · obtain ⟨b₂, m₂, moved, _, hexec, h₂⟩ := Exec.of_bind h₁
    cases hexec.of_exec
    split at h₂
    · rename_i hpending
      obtain ⟨b₃, m₃, order, _, hfind, h₃⟩ := Exec.of_bind h₂
      cases h₃
      have he := hfind.of_exec
      split at he
      · rename_i found hfound
        cases he
        exact Or.inr ⟨found, rfl, rfl, hpending, hfound⟩
      · cases he
    · rename_i hno
      cases h₂
      exact Or.inl ⟨rfl, updatePending_eq_self (Bool.not_eq_true _ ▸ hno)⟩
  · cases h₁
    exact Or.inl ⟨rfl, rfl⟩

/-- Every serial execution of a request that commits is one of the cases of `Commit`. -/
theorem commit_of_exec {q : Request} {answer : Answer} (h : Exec isolation b (handler hash q) s s' (.ok answer)) :
    Commit q s s' answer := by
  cases q with
  | place gen input buyer key =>
    obtain ⟨_, _, order, _, hp, hr⟩ := Exec.of_bind h
    cases hr
    exact exec_createPending hp
  | markPaid drawn orderId =>
    obtain ⟨_, _, _, _, hm, hr⟩ := Exec.of_bind h
    cases hr
    obtain ⟨_, m₁, paid, _, hu, h₁⟩ := Exec.of_bind hm
    rcases exec_updatePendingStatusById hu with ⟨rfl, rfl⟩ | ⟨found, rfl, rfl, hpending, hfound⟩
    · cases h₁
      exact .settled
    · obtain ⟨rfl, hfree⟩ := exec_createOutbox h₁
      exact .paid hpending hfound ((taken_updatePending _ _ _).symm.trans hfree)
  | markFailed drawn orderId failure =>
    obtain ⟨_, _, _, _, hm, hr⟩ := Exec.of_bind h
    cases hr
    obtain ⟨_, m₁, failed, _, hu, h₁⟩ := Exec.of_bind hm
    rcases exec_updatePendingStatusById hu with ⟨rfl, rfl⟩ | ⟨found, rfl, rfl, hpending, hfound⟩
    · cases h₁
      exact .settled
    · obtain ⟨rfl, hfree⟩ := exec_createOutbox h₁
      exact .failed hpending hfound ((taken_updatePending _ _ _).symm.trans hfree)

end

/-- The events of an order, latest first. -/
def Tables.eventsOf (s : Tables) (publicId : String) : List OrderEvent :=
  (s.outbox.filter fun row => row.aggregateId = publicId).map OrderOutbox.payload

def Tables.workflowsOf (s : Tables) (publicId : String) : List OrderWorkflowOutbox :=
  s.workflowOutbox.filter fun row => row.workflowId = "order-place-" ++ publicId

def Order.created (order : Order) : OrderEvent :=
  .created order.id order.publicId order.userId order.totalAmount order.discountAmount order.currency order.createdAt

def Order.paid (order : Order) (lines : List OrderLine) : OrderEvent :=
  .paid order.id order.publicId order.userId order.totalAmount order.discountAmount order.currency lines
    order.updatedAt

def Order.failed (order : Order) (failure : OrderFailure) : OrderEvent :=
  .failed order.id order.publicId order.userId failure order.updatedAt

/-- The events an order of each status has had. -/
inductive Agrees (order : Order) : List OrderEvent → Prop
  | pending : order.status = .pendingPayment → Agrees order [order.created]
  | paid (lines : List OrderLine) : order.status = .paid → Agrees order [order.paid lines, order.created]
  | failed (failure : OrderFailure) : order.status = failure.status →
      failure.status = .canceled ∨ failure.status = .failedPayment →
      Agrees order [order.failed failure, order.created]

theorem Agrees.of_pending {order : Order} {events : List OrderEvent} (h : Agrees order events)
    (hstatus : order.status = .pendingPayment) : events = [order.created] := by
  cases h with
  | pending => rfl
  | paid lines hpaid =>
    rw [hstatus] at hpaid
    cases hpaid
  | failed failure hfailed hterminal =>
    rw [← hfailed, hstatus] at hterminal
    simp at hterminal

/-- Besides `order.created` an order has one event at most. -/
theorem Agrees.final {order : Order} {events : List OrderEvent} (h : Agrees order events) {e e' : OrderEvent}
    (he : e ∈ events) (he' : e' ∈ events) (ht : e.type ≠ "order.created") (ht' : e'.type ≠ "order.created") :
    e = e' := by
  have hcreated : ∀ {e : OrderEvent}, e ∈ [order.created] → e.type = "order.created" := by
    intro e he
    rw [List.mem_singleton.mp he]
    rfl
  cases h with
  | pending _ => exact absurd (hcreated he) ht
  | paid lines _ =>
    have hlast := (List.mem_cons.mp he).resolve_right fun hin => ht (hcreated hin)
    have hlast' := (List.mem_cons.mp he').resolve_right fun hin => ht' (hcreated hin)
    rw [hlast, hlast']
  | failed failure _ _ =>
    have hlast := (List.mem_cons.mp he).resolve_right fun hin => ht (hcreated hin)
    have hlast' := (List.mem_cons.mp he').resolve_right fun hin => ht' (hcreated hin)
    rw [hlast, hlast']

/-- Every order has its events and its workflow row, and every row belongs to an order. -/
structure Consistent (s : Tables) : Prop where
  ids : (s.orders.map Order.id).Nodup
  publicIds : (s.orders.map Order.publicId).Nodup
  agrees : ∀ order ∈ s.orders, Agrees order (s.eventsOf order.publicId)
  workflow : ∀ order ∈ s.orders, ∃ items,
    s.workflowsOf order.publicId = [OrderPlaceMessageService.toOrderPlaceWorkflowOutbox order items]
  outboxOwned : ∀ row ∈ s.outbox, ∃ order ∈ s.orders, order.publicId = row.aggregateId
  workflowOwned : ∀ row ∈ s.workflowOutbox, ∃ order ∈ s.orders, row.workflowId = "order-place-" ++ order.publicId

/-- An order context nobody has used yet. -/
def Tables.empty (offers : Nat → Option SellerOffer) : Tables := ⟨offers, [], [], [], [], []⟩

theorem consistent_empty (offers : Nat → Option SellerOffer) : Consistent (Tables.empty offers) where
  ids := List.nodup_nil
  publicIds := List.nodup_nil
  agrees _ h := nomatch h
  workflow _ h := nomatch h
  outboxOwned _ h := nomatch h
  workflowOwned _ h := nomatch h

theorem workflowId_injective {p p' : String} (h : "order-place-" ++ p = "order-place-" ++ p') : p = p' := by
  have hl := congrArg String.toList h
  rw [String.toList_append, String.toList_append] at hl
  exact String.toList_injective (List.append_cancel_left hl)

section
variable {s : Tables}

theorem eventsOf_addOutbox (row : OrderOutbox) (publicId : String) : (s.addOutbox row).eventsOf publicId =
    if row.aggregateId = publicId then row.payload :: s.eventsOf publicId else s.eventsOf publicId := by
  unfold Tables.eventsOf Tables.addOutbox
  rw [List.filter_cons]
  simp only [decide_eq_true_eq]
  split <;> rfl

theorem workflowsOf_addWorkflow (row : OrderWorkflowOutbox) (publicId : String) :
    (s.addWorkflow row).workflowsOf publicId =
      if row.workflowId = "order-place-" ++ publicId then row :: s.workflowsOf publicId
      else s.workflowsOf publicId := by
  unfold Tables.workflowsOf Tables.addWorkflow
  rw [List.filter_cons]
  simp only [decide_eq_true_eq]

theorem eventsOf_placed (order : Order) (recipient : OrderRecipient) (lines : List OrderLine) (eventId : Nat)
    (items : List OrderCreateItemInput) (publicId : String) :
    (s.placed order recipient lines eventId items).eventsOf publicId =
      if order.publicId = publicId then order.created :: s.eventsOf publicId else s.eventsOf publicId :=
  eventsOf_addOutbox (OrderPlaceMessageService.toOrderCreatedOutbox eventId order) publicId

theorem workflowsOf_placed (order : Order) (recipient : OrderRecipient) (lines : List OrderLine) (eventId : Nat)
    (items : List OrderCreateItemInput) (publicId : String) :
    (s.placed order recipient lines eventId items).workflowsOf publicId =
      if order.publicId = publicId then
        OrderPlaceMessageService.toOrderPlaceWorkflowOutbox order items :: s.workflowsOf publicId
      else s.workflowsOf publicId := by
  refine (workflowsOf_addWorkflow _ _).trans ?_
  by_cases he : order.publicId = publicId
  · subst he
    exact (if_pos rfl).trans (if_pos rfl).symm
  · exact (if_neg fun h => he (workflowId_injective h)).trans (if_neg he).symm

/-- Before an order is placed there is nothing under its public id. -/
theorem Consistent.unwritten (h : Consistent s) {publicId : String} (hfree : s.taken (.publicId publicId) = false) :
    s.eventsOf publicId = [] ∧ s.workflowsOf publicId = [] := by
  have hno : ∀ order ∈ s.orders, order.publicId ≠ publicId := by
    intro order hin he
    have htaken := taken_publicId.mpr ⟨order, hin, he.symm⟩
    rw [hfree] at htaken
    cases htaken
  constructor
  · unfold Tables.eventsOf
    rw [List.map_eq_nil_iff, List.filter_eq_nil_iff]
    intro row hin
    obtain ⟨order, ho, he⟩ := h.outboxOwned row hin
    simpa [← he] using hno order ho
  · refine List.filter_eq_nil_iff.mpr fun row hin => ?_
    obtain ⟨order, ho, he⟩ := h.workflowOwned row hin
    rw [he]
    simp only [decide_eq_true_eq]
    exact fun hid => hno order ho (workflowId_injective hid)

/-- The order an event tells of. -/
theorem Consistent.order (h : Consistent s) {row : OrderOutbox} (hrow : row ∈ s.outbox) :
    ∃ order ∈ s.orders, order.publicId = row.aggregateId ∧ row.payload ∈ s.eventsOf order.publicId ∧
      row.payload.orderId = order.id := by
  obtain ⟨order, horder, hid⟩ := h.outboxOwned row hrow
  have hmem : row.payload ∈ s.eventsOf order.publicId :=
    List.mem_map_of_mem (List.mem_filter.mpr ⟨hrow, decide_eq_true hid.symm⟩)
  refine ⟨order, horder, hid, hmem, ?_⟩
  have hagrees := h.agrees order horder
  generalize s.eventsOf order.publicId = events at hagrees hmem
  cases hagrees with
  | pending _ =>
    rw [List.mem_singleton.mp hmem]
    rfl
  | paid lines _ =>
    rcases List.mem_cons.mp hmem with he | hin
    · rw [he]
      rfl
    · rw [List.mem_singleton.mp hin]
      rfl
  | failed failure _ _ =>
    rcases List.mem_cons.mp hmem with he | hin
    · rw [he]
      rfl
    · rw [List.mem_singleton.mp hin]
      rfl

/-- Events with one order id are those of one public id. -/
theorem Consistent.same_order (h : Consistent s) {row other : OrderOutbox} (hrow : row ∈ s.outbox)
    (hother : other ∈ s.outbox) (hid : row.payload.orderId = other.payload.orderId) :
    row.aggregateId = other.aggregateId ∧ (row.payload.type ≠ "order.created" →
      other.payload.type ≠ "order.created" → row.payload = other.payload) := by
  obtain ⟨order, horder, hpublic, hin, he⟩ := h.order hrow
  obtain ⟨order', horder', hpublic', hin', he'⟩ := h.order hother
  obtain rfl := List.inj_on_of_nodup_map h.ids horder horder' (he.symm.trans (hid.trans he'))
  exact ⟨hpublic.symm.trans hpublic', (h.agrees order horder).final hin hin'⟩

/-- Events with one public id are those of one order id. -/
theorem Consistent.same_id (h : Consistent s) {row other : OrderOutbox} (hrow : row ∈ s.outbox)
    (hother : other ∈ s.outbox) (hid : row.aggregateId = other.aggregateId) :
    row.payload.orderId = other.payload.orderId := by
  obtain ⟨order, horder, hpublic, _, he⟩ := h.order hrow
  obtain ⟨order', horder', hpublic', _, he'⟩ := h.order hother
  obtain rfl := List.inj_on_of_nodup_map h.publicIds horder horder' (hpublic.trans (hid.trans hpublic'.symm))
  exact he.trans he'.symm

/-- An order only fails to a status that the message may carry. -/
theorem Consistent.failed_status (h : Consistent s) {row : OrderOutbox} (hrow : row ∈ s.outbox)
    (ht : row.payload.type = "order.failed") :
    row.payload.status = .canceled ∨ row.payload.status = .failedPayment := by
  obtain ⟨order, horder, _, hin, _⟩ := h.order hrow
  have hagrees := h.agrees order horder
  generalize s.eventsOf order.publicId = events at hagrees hin
  have hcreated : row.payload ∉ [order.created] := by
    intro he
    rw [List.mem_singleton.mp he] at ht
    exact absurd ht (by simp [OrderEvent.type, Order.created])
  cases hagrees with
  | pending _ => exact absurd hin hcreated
  | paid lines _ =>
    rw [(List.mem_cons.mp hin).resolve_right hcreated] at ht
    exact absurd ht (by simp [OrderEvent.type, Order.paid])
  | failed failure _ hfinal =>
    rw [(List.mem_cons.mp hin).resolve_right hcreated]
    exact hfinal

/-- Every other event has a final status. -/
theorem Consistent.final_status (h : Consistent s) {row : OrderOutbox} (hrow : row ∈ s.outbox)
    (ht : row.payload.type ≠ "order.created") :
    row.payload.status = .paid ∨ row.payload.status = .canceled ∨ row.payload.status = .failedPayment := by
  by_cases hfailed : row.payload.type = "order.failed"
  · exact Or.inr (h.failed_status hrow hfailed)
  · cases hp : row.payload with
    | created => exact absurd (congrArg OrderEvent.type hp) ht
    | paid => exact Or.inl rfl
    | failed => exact absurd (congrArg OrderEvent.type hp) hfailed

/-- No order has the keys of a new one. -/
theorem Drafted.fresh {gen : Generated} {buyer : OrderBuyer} {key : Option String} {order : Order}
    {recipient : OrderRecipient} {lines : List OrderLine} (hd : Drafted gen buyer key s order recipient lines)
    {o : Order} (ho : o ∈ s.orders) : o.id ≠ order.id ∧ order.publicId ≠ o.publicId := by
  constructor
  · intro he
    have htaken := taken_order.mpr ⟨o, ho, he.symm⟩
    rw [hd.keys _ (mem_keys.mpr (Or.inl rfl))] at htaken
    cases htaken
  · intro he
    have htaken := taken_publicId.mpr ⟨o, ho, he⟩
    rw [hd.keys _ (mem_keys.mpr (Or.inr (Or.inl rfl)))] at htaken
    cases htaken

theorem consistent_placed {gen : Generated} {buyer : OrderBuyer} {key : Option String} {order : Order}
    {recipient : OrderRecipient} {lines : List OrderLine} (h : Consistent s)
    (hd : Drafted gen buyer key s order recipient lines) (eventId : Nat) (items : List OrderCreateItemInput) :
    Consistent (s.placed order recipient lines eventId items) := by
  obtain ⟨hevents, hworkflows⟩ := h.unwritten (hd.keys _ (mem_keys.mpr (Or.inr (Or.inl rfl))))
  have hnew : ∀ o ∈ s.orders, order.publicId ≠ o.publicId := fun o ho => (hd.fresh ho).2
  have hfresh : ∀ o ∈ s.orders, o.id ≠ order.id := fun o ho => (hd.fresh ho).1
  refine ⟨List.nodup_cons.mpr ⟨?_, h.ids⟩, List.nodup_cons.mpr ⟨?_, h.publicIds⟩, ?_, ?_, ?_, ?_⟩
  · intro hin
    obtain ⟨o, ho, he⟩ := List.mem_map.mp hin
    exact hfresh o ho he
  · intro hin
    obtain ⟨o, ho, he⟩ := List.mem_map.mp hin
    exact hnew o ho he.symm
  · intro o ho
    rw [eventsOf_placed]
    rcases List.mem_cons.mp ho with rfl | ho
    · rw [if_pos rfl, hevents]
      exact .pending hd.status
    · rw [if_neg (hnew o ho)]
      exact h.agrees o ho
  · intro o ho
    rw [workflowsOf_placed]
    rcases List.mem_cons.mp ho with rfl | ho
    · rw [if_pos rfl, hworkflows]
      exact ⟨items, rfl⟩
    · rw [if_neg (hnew o ho)]
      exact h.workflow o ho
  · intro row hin
    rcases List.mem_cons.mp hin with rfl | hin
    · exact ⟨order, List.mem_cons_self, rfl⟩
    · obtain ⟨o, ho, he⟩ := h.outboxOwned row hin
      exact ⟨o, List.mem_cons_of_mem _ ho, he⟩
  · intro row hin
    rcases List.mem_cons.mp hin with rfl | hin
    · exact ⟨order, List.mem_cons_self, rfl⟩
    · obtain ⟨o, ho, he⟩ := h.workflowOwned row hin
      exact ⟨o, List.mem_cons_of_mem _ ho, he⟩

/-- A pending order that changes with the event `payload`. -/
theorem consistent_moved {id : Nat} {change : Change} {found : Order} {row : OrderOutbox} (h : Consistent s)
    (hpending : (s.orders.any fun order => order.isPending id) = true)
    (hfound : (s.updatePending id change).orders.find? (fun order => order.id = id) = some found)
    (hrow : row.aggregateId = found.publicId)
    (hmoved : found.status = change.status → Agrees found [row.payload, found.created]) :
    Consistent ((s.updatePending id change).addOutbox row) := by
  obtain ⟨order, hin, hp⟩ := List.any_eq_true.mp hpending
  obtain ⟨rfl, hstatus⟩ := of_decide_eq_true hp
  have hfields : ∀ o : Order, (o.updatePending order.id change).id = o.id ∧
      (o.updatePending order.id change).publicId = o.publicId := by
    intro o
    rw [later_updatePending o order.id change]
    exact ⟨rfl, rfl⟩
  have hids : (s.updatePending order.id change).orders.map Order.id = s.orders.map Order.id := by
    rw [Tables.updatePending, List.map_map]
    exact List.map_congr_left fun o _ => (hfields o).1
  have hpublics : (s.updatePending order.id change).orders.map Order.publicId = s.orders.map Order.publicId := by
    rw [Tables.updatePending, List.map_map]
    exact List.map_congr_left fun o _ => (hfields o).2
  have hmove : order.updatePending order.id change =
      { order with status := change.status, updatedAt := change.updatedAt } := if_pos ⟨rfl, hstatus⟩
  obtain rfl : found = { order with status := change.status, updatedAt := change.updatedAt } := by
    have hmem := List.mem_of_find?_eq_some hfound
    have hid := List.find?_some hfound
    rw [decide_eq_true_eq] at hid
    rw [← hmove]
    refine List.inj_on_of_nodup_map (hids ▸ h.ids) hmem (List.mem_map_of_mem hin) ?_
    rw [hid, (hfields order).1]
  have hevents : s.eventsOf order.publicId = [order.created] := (h.agrees order hin).of_pending hstatus
  refine ⟨hids ▸ h.ids, hpublics ▸ h.publicIds, ?_, ?_, ?_, ?_⟩
  · intro o ho
    obtain ⟨x, hx, rfl⟩ := List.mem_map.mp ho
    rw [eventsOf_addOutbox, hrow, (hfields x).2]
    by_cases he : order.publicId = x.publicId
    · obtain rfl := List.inj_on_of_nodup_map h.publicIds hin hx he
      rw [if_pos rfl, hmove]
      change Agrees _ (row.payload :: s.eventsOf order.publicId)
      rw [hevents]
      exact hmoved rfl
    · have hne : x.id ≠ order.id := fun hid => he (List.inj_on_of_nodup_map h.ids hin hx hid.symm ▸ rfl)
      rw [if_neg he, Order.updatePending, if_neg fun hx => hne hx.1]
      exact h.agrees x hx
  · intro o ho
    obtain ⟨x, hx, rfl⟩ := List.mem_map.mp ho
    obtain ⟨items, hitems⟩ := h.workflow x hx
    refine ⟨items, ?_⟩
    rw [later_updatePending x order.id change]
    exact hitems
  · intro r hr
    have howned : ∃ o ∈ s.orders, o.publicId = r.aggregateId := by
      rcases List.mem_cons.mp hr with rfl | hr
      · exact ⟨order, hin, hrow.symm⟩
      · exact h.outboxOwned r hr
    obtain ⟨o, ho, he⟩ := howned
    exact ⟨_, List.mem_map_of_mem ho, (hfields o).2.trans he⟩
  · intro r hr
    obtain ⟨o, ho, he⟩ := h.workflowOwned r hr
    exact ⟨_, List.mem_map_of_mem ho, (hfields o).2.symm ▸ he⟩

theorem consistent_commit {q : Request} {s' : Tables} {answer : Answer} (h : Consistent s) (hq : q.WellTyped)
    (hc : Commit q s s' answer) : Consistent s' := by
  cases hc with
  | placed hd => exact consistent_placed h hd _ _
  | found _ _ _ _ => exact h
  | paid hpending hfound _ => exact consistent_moved h hpending hfound rfl fun hs => .paid _ hs
  | failed hpending hfound _ => exact consistent_moved h hpending hfound rfl fun hs => .failed _ hs hq
  | settled => exact h

theorem Consistent.setOffers (h : Consistent s) (offers : Nat → Option SellerOffer) :
    Consistent { s with offers } := ⟨h.ids, h.publicIds, h.agrees, h.workflow, h.outboxOwned, h.workflowOwned⟩

variable {hash : String → Int} {c c' : Config Lock Tables Failure Answer Request} {ev : Txn.Event Request}
  {tr : List (Config Lock Tables Failure Answer Request × Txn.Event Request)}

theorem consistent_run (h : Consistent s) (hr : Run (Step (orders hash)) (Config.start s) tr c) : Consistent c.db := by
  refine run_serial_invariant (J := fun s _ => Consistent s) h ?_ ?_ ?_ hr
  · exact fun h hq _ he => consistent_commit h hq (commit_of_exec he)
  · exact fun h _ _ _ => h
  · rintro s _ _ h ⟨offers, rfl⟩
    exact h.setOffers offers

theorem topic_commit {q : Request} {s' : Tables} {answer : Answer} (hc : Commit q s s' answer)
    (h : ∀ row ∈ s.outbox, row.topic = "order.events") : ∀ row ∈ s'.outbox, row.topic = "order.events" := by
  intro row hrow
  cases hc with
  | placed _ =>
    rcases List.mem_cons.mp hrow with rfl | hold
    · rfl
    · exact h row hold
  | found _ _ _ _ => exact h row hrow
  | paid _ _ _ =>
    rcases List.mem_cons.mp hrow with rfl | hold
    · rfl
    · exact h row hold
  | failed _ _ _ =>
    rcases List.mem_cons.mp hrow with rfl | hold
    · rfl
    · exact h row hold
  | settled => exact h row hrow

/-- Every event of order goes to one topic. -/
theorem topic_run (h : ∀ row ∈ s.outbox, row.topic = "order.events")
    (hr : Run (Step (orders hash)) (Config.start s) tr c) :
    ∀ row ∈ c.db.outbox, row.topic = "order.events" := by
  refine run_serial_invariant (J := fun s _ => ∀ row ∈ s.outbox, row.topic = "order.events") h ?_ ?_ ?_ hr
  · exact fun h _ _ he => topic_commit (commit_of_exec he) h
  · exact fun h _ _ _ => h
  · rintro s _ _ h ⟨offers, rfl⟩
    exact h

/-- A status that is no longer `pending_payment` stays. -/
theorem settled_commit {q : Request} {s' : Tables} {answer : Answer} (hc : Commit q s s' answer) {order : Order}
    (hin : order ∈ s.orders) (hs : order.status ≠ .pendingPayment) : order ∈ s'.orders := by
  have hmoved : ∀ id change, order ∈ (s.updatePending id change).orders := by
    intro id change
    have hsame : order.updatePending id change = order := if_neg fun h => hs h.2
    exact List.mem_map.mpr ⟨order, hin, hsame⟩
  cases hc with
  | placed _ => exact List.mem_cons_of_mem _ hin
  | found _ _ _ _ => exact hin
  | paid _ _ _ => exact hmoved _ _
  | failed _ _ _ => exact hmoved _ _
  | settled => exact hin

/-- An order that was not there before its commit came with its two rows. -/
theorem written_commit {q : Request} {s' : Tables} {answer : Answer} (h : Consistent s) (hc : Commit q s s' answer)
    {order : Order} (hin : order ∈ s'.orders) (hnew : ∀ o ∈ s.orders, o.id ≠ order.id) :
    (s.eventsOf order.publicId = [] ∧ s'.eventsOf order.publicId = [order.created]) ∧
      s.workflowsOf order.publicId = [] ∧ ∃ items, s'.workflowsOf order.publicId =
        [OrderPlaceMessageService.toOrderPlaceWorkflowOutbox order items] := by
  have hold : ∀ id change, order ∉ (s.updatePending id change).orders := by
    intro id change hin
    obtain ⟨o, ho, rfl⟩ := List.mem_map.mp hin
    refine hnew o ho ?_
    rw [later_updatePending o id change]
  cases hc with
  | @placed gen input _ _ _ placed _ _ hd =>
    rcases List.mem_cons.mp hin with rfl | hin
    · obtain ⟨hevents, hworkflows⟩ := h.unwritten (hd.keys _ (mem_keys.mpr (Or.inr (Or.inl rfl))))
      rw [eventsOf_placed, workflowsOf_placed, if_pos rfl, if_pos rfl, hevents, hworkflows]
      exact ⟨⟨rfl, rfl⟩, rfl, input.items, rfl⟩
    · exact absurd rfl (hnew order hin)
  | found _ _ _ _ => exact absurd rfl (hnew order hin)
  | paid _ _ _ => exact absurd hin (hold _ _)
  | failed _ _ _ => exact absurd hin (hold _ _)
  | settled => exact absurd rfl (hnew order hin)

theorem settled_run {more : List (Config Lock Tables Failure Answer Request × Txn.Event Request)}
    (hr : Run (Step (orders hash)) (Config.start s) tr c) (hmore : Run (Step (orders hash)) c more c') {order : Order}
    (hin : order ∈ c.db.orders) (hs : order.status ≠ .pendingPayment) : order ∈ c'.db.orders := by
  induction hmore with
  | nil => exact hin
  | snoc hmore hstep ih =>
    rcases hstep.moves (coherent_run (hr.append hmore)) with ⟨_, hd | ⟨offers, hd⟩⟩ | ⟨_, _, _, _, _, _, _, he⟩
    · rw [hd]
      exact ih
    · rw [hd]
      exact ih
    · exact settled_commit (commit_of_exec he) ih hs

/-- In every reachable state each order has the events of its status and one workflow row; an
order comes with its rows in one commit; a final status is kept by every continuation. -/
theorem status_agrees {offers : Nat → Option SellerOffer}
    (hr : Run (Step (orders hash)) (Config.start (Tables.empty offers)) tr c) :
    Consistent c.db ∧
      (∀ ev c', Step (orders hash) c ev c' → ∀ order ∈ c'.db.orders, (∀ o ∈ c.db.orders, o.id ≠ order.id) →
        (c.db.eventsOf order.publicId = [] ∧ c'.db.eventsOf order.publicId = [order.created]) ∧
        c.db.workflowsOf order.publicId = [] ∧ ∃ items, c'.db.workflowsOf order.publicId =
          [OrderPlaceMessageService.toOrderPlaceWorkflowOutbox order items]) ∧
      ∀ more c', Run (Step (orders hash)) c more c' → ∀ order ∈ c.db.orders, order.status ≠ .pendingPayment →
        ∀ later ∈ c'.db.orders, later.id = order.id → later = order := by
  have hc := consistent_run (consistent_empty offers) hr
  refine ⟨hc, fun ev c' hstep order hin hnew => ?_, fun more c' hmore order hin hs later hlater hid => ?_⟩
  · rcases hstep.moves (coherent_run hr) with ⟨_, hd | ⟨_, hd⟩⟩ | ⟨_, _, _, _, _, _, _, he⟩
    · rw [hd] at hin
      exact absurd rfl (hnew order hin)
    · rw [hd] at hin
      exact absurd rfl (hnew order hin)
    · exact written_commit hc (commit_of_exec he) hin hnew
  · have hkept := settled_run hr hmore hin hs
    have hc' := consistent_run (consistent_empty offers) (hr.append hmore)
    exact List.inj_on_of_nodup_map hc'.ids hlater hkept hid

end

/-- An order that was paid before a late attempt of `markFailed` ran. -/
theorem status_agrees_paid : ∃ tr c, Run (Step (orders plainHash))
    (Config.start (Tables.empty (oneOffer ⟨150, by decide⟩).offers)) tr c ∧ Consistent c.db ∧
    c.db.orders.map Order.status = [.paid] ∧ c.db.outbox.length = 2 ∧ c.answers.length = 3 := by
  have hserial : ∃ s order, (handler plainHash (.place sampleGenerated oneItem sampleBuyer none)).run
      (Tables.empty (oneOffer ⟨150, by decide⟩).offers) = .ok (s, order) ∧
      ∃ s', (handler plainHash (.markPaid ⟨2, 1_700⟩ 1)).run s = .ok (s', .marked) ∧
      (handler plainHash (.markFailed ⟨3, 1_800⟩ 1 ⟨.canceled, .error⟩)).run s' = .ok (s', .marked) ∧
      s'.orders.map Order.status = [.paid] ∧ s'.outbox.length = 2 :=
    ⟨_, _, rfl, _, rfl, rfl, rfl, rfl⟩
  obtain ⟨s, order, hplace, s', hpaid, hfailed, hstatus, hevents⟩ := hserial
  obtain ⟨_, h₁⟩ := process_idle (Y := orders plainHash) (.place sampleGenerated oneItem sampleBuyer none) _ []
    trivial hplace
  obtain ⟨_, h₂⟩ := process_idle (Y := orders plainHash) (.markPaid ⟨2, 1_700⟩ 1) s _ trivial hpaid
  obtain ⟨_, h₃⟩ := process_idle (Y := orders plainHash) (.markFailed ⟨3, 1_800⟩ 1 ⟨.canceled, .error⟩) s' _
    (Or.inl rfl) hfailed
  have hr := (h₁.append h₂).append h₃
  exact ⟨_, _, hr, (status_agrees hr).1, hstatus, hevents, rfl⟩

end MarketplaceApi.Placement
