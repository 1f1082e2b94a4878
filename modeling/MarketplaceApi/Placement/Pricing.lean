import MarketplaceApi.Placement.OneOrder
import MarketplaceApi.Placement.Saga

/-!
# What an order costs

The total is summed over the priced items, the lines are stored under a key, the workflow gets
the items of the request and the paid event the stored lines. They agree because an order is
written by one commit, and no later commit touches its amounts or its lines.
-/
namespace MarketplaceApi.Placement

open Durable Money Transition Txn

def OrderLine.payable (line : OrderLine) : Nat := (line.unitDiscountPrice.getD line.unitPrice).val

def OrderLine.toItem (line : OrderLine) : OrderPlaceItem := ⟨line.offerId, line.quantity⟩

/-- Quantity times `discountPrice` if present, else `price`. -/
def payableSum (lines : List OrderLine) : Nat := (lines.map fun line => line.payable * line.quantity).sum

def discountSum (lines : List OrderLine) : Nat :=
  (lines.map fun line => (line.unitPrice.val - line.payable) * line.quantity).sum

/-- The sum before discounts. -/
def priceSum (lines : List OrderLine) : Nat := (lines.map fun line => line.unitPrice.val * line.quantity).sum

/-- The amounts of an order are those of its lines. -/
structure Billed (order : Order) (lines : List OrderLine) : Prop where
  discounted : ∀ line ∈ lines, line.payable ≤ line.unitPrice.val
  totalAmount : order.totalAmount = toFixed (payableSum lines)
  discountAmount : order.discountAmount = toFixed (discountSum lines)

/-- The line of an item: the prices its offer has in `s`. -/
def LineOf (s : Tables) (orderId : Nat) (item : OrderCreateItemInput) (line : OrderLine) : Prop :=
  ∃ offer, s.offers item.offerId = some offer ∧ offer.deleted = false ∧
    line = ⟨orderId, item.offerId, item.quantity, offer.price, offer.discountPrice⟩

/-- The amount an activity asks its receiver to move. -/
def Activity.amount : Activity → Option (List Char)
  | .chargeCustomer charge => some (OrderPlaceMessageService.toAccountCustomerChargeRequest charge.orderPublicId
      charge.userId charge.totalAmount).data.amount
  | .refundCustomer charge => some (OrderPlaceMessageService.toAccountCustomerRefundRequest charge.orderPublicId
      charge.userId charge.totalAmount).data.amount
  | _ => none

/-- Everything that is known of an order's price: its lines, its workflow input, the requests this
workflow sends and the events agree. -/
structure Accounted (s : Tables) (order : Order) : Prop where
  billed : Billed order (s.linesOf order.id)
  workflow : ∃ row, s.workflowsOf order.publicId = [row] ∧ row.input =
    ⟨order.id, order.publicId, order.userId, order.totalAmount, (s.linesOf order.id).map OrderLine.toItem⟩
  events : ∀ event ∈ s.eventsOf order.publicId, event = order.created ∨ event = order.paid (s.linesOf order.id) ∨
    ∃ failure, event = order.failed failure

section
variable {hash : String → Int} {order : Order} {lines : List OrderLine} {offers : List (Nat × SellerOffer)}
  {items : List OrderCreateItemInput} {priced : List PricedOrderLine} {b s s' m : Tables}

/-! ## One placement -/

theorem Billed.sum (h : Billed order lines) :
    toCents order.totalAmount + toCents order.discountAmount = priceSum lines := by
  rw [h.totalAmount, h.discountAmount, toCents_toFixed, toCents_toFixed]
  have hle := h.discounted
  clear h
  induction lines with
  | nil => rfl
  | cons line lines ih =>
    have hrest := ih fun l hl => hle l (List.mem_cons_of_mem _ hl)
    have hline := hle line List.mem_cons_self
    have hsplit : line.payable * line.quantity + (line.unitPrice.val - line.payable) * line.quantity =
        line.unitPrice.val * line.quantity := by
      rw [← Nat.add_mul, Nat.add_sub_cancel' hline]
    simp only [payableSum, discountSum, priceSum, List.map_cons, List.sum_cons] at hrest ⊢
    omega

/-- What `toPriceItemOrFail` makes of an offer. -/
def priceItem (item : OrderCreateItemInput) (offer : SellerOffer) : PricedOrderLine where
  offerId := item.offerId
  quantity := item.quantity
  unitPrice := offer.price
  unitDiscountPrice := offer.discountPrice
  amount := offer.payable * item.quantity
  discount := (offer.price.val - offer.payable) * item.quantity

def PricedAs (offers : List (Nat × SellerOffer)) (item : OrderCreateItemInput) (p : PricedOrderLine) : Prop :=
  ∃ offer, offers.lookup item.offerId = some offer ∧ p = priceItem item offer

theorem pricedAs_of_ok (item : OrderCreateItemInput) (p : PricedOrderLine)
    (h : OrderPlaceCommandHandler.toPriceItemOrFail offers item = .ok p) : PricedAs offers item p := by
  unfold OrderPlaceCommandHandler.toPriceItemOrFail at h
  split at h
  · cases h
  · rename_i offer hlookup
    cases h
    exact ⟨offer, hlookup, rfl⟩

theorem items_of_priced (h : List.Forall₂ (PricedAs offers) items priced) (orderId : Nat) :
    (priced.map (PricedOrderLine.toLine orderId)).map OrderLine.toItem =
      items.map fun item => ⟨item.offerId, item.quantity⟩ := by
  induction h with
  | nil => rfl
  | cons hitem _ ih =>
    obtain ⟨offer, _, rfl⟩ := hitem
    rw [List.map_cons, List.map_cons, List.map_cons, ih]
    rfl

theorem billed_of_priced (h : List.Forall₂ (PricedAs offers) items priced)
    (htotal : order.totalAmount = toFixed (priced.foldl (fun sum p => sum + p.amount) 0))
    (hdiscount : order.discountAmount = toFixed (priced.foldl (fun sum p => sum + p.discount) 0)) :
    Billed order (priced.map (PricedOrderLine.toLine order.id)) := by
  have hlines : (∀ line ∈ priced.map (PricedOrderLine.toLine order.id), line.payable ≤ line.unitPrice.val) ∧
      payableSum (priced.map (PricedOrderLine.toLine order.id)) = (priced.map PricedOrderLine.amount).sum ∧
      discountSum (priced.map (PricedOrderLine.toLine order.id)) = (priced.map PricedOrderLine.discount).sum := by
    clear htotal hdiscount
    induction h with
    | nil => exact ⟨nofun, rfl, rfl⟩
    | @cons item p items priced hitem _ ih =>
      obtain ⟨offer, _, rfl⟩ := hitem
      obtain ⟨hle, hpay, hdisc⟩ := ih
      refine ⟨?_, ?_, ?_⟩
      · intro line hin
        rcases List.mem_cons.mp hin with rfl | hin
        · exact payable_le offer
        · exact hle line hin
      · unfold payableSum at hpay ⊢
        rw [List.map_cons, List.map_cons, List.sum_cons, hpay]
        rfl
      · unfold discountSum at hdisc ⊢
        rw [List.map_cons, List.map_cons, List.sum_cons, hdisc]
        rfl
  refine ⟨hlines.1, ?_, ?_⟩
  · rw [htotal, foldl_sum, Nat.zero_add, hlines.2.1]
  · rw [hdiscount, foldl_sum, Nat.zero_add, hlines.2.2]

/-- The lines a placement writes have the prices the offers had. -/
theorem lines_of_run {gen : Generated} {input : OrderCreateInput} {buyer : OrderBuyer} {key : Option String}
    (h : (OrderPlaceCommandHandler.place gen input buyer key).run s = .ok (s', order)) :
    ∃ lines, s'.lines = lines ++ s.lines ∧ List.Forall₂ (LineOf s order.id) input.items lines := by
  unfold OrderPlaceCommandHandler.place at h
  obtain ⟨m₁, offers, hfound, h₁⟩ := Prog.run_bind_ok h
  obtain ⟨rfl, hoffers⟩ := run_findByIds hfound
  obtain ⟨m₂, recipient, hrecipient, h₂⟩ := Prog.run_bind_ok h₁
  obtain rfl := run_createRecipient hrecipient
  split at h₂
  · cases h₂
  · rename_i priced hmap
    have hpriced := forall₂_of_mapM pricedAs_of_ok hmap
    obtain ⟨m₃, created, horder, h₃⟩ := Prog.run_bind_ok h₂
    obtain ⟨_, rfl, _, _⟩ := run_orderCreate horder
    obtain ⟨m₄, lines, hlines, h₄⟩ := Prog.run_bind_ok h₃
    have hcreated := (exec_createItems (Exec.of_run (isolation.le_refl _) (safe_createLines _ _ _ fun line hin => by
      obtain ⟨p, _, rfl⟩ := List.mem_map.mp hin
      rfl) hlines)).1
    obtain ⟨m₅, _, hevent, h₅⟩ := Prog.run_bind_ok h₄
    obtain rfl := run_outboxCreate hevent
    obtain ⟨m₆, _, hworkflow, hret⟩ := Prog.run_bind_ok h₅
    obtain rfl := run_workflowCreate hworkflow
    cases hret
    refine ⟨priced.map (PricedOrderLine.toLine order.id), ?_, ?_⟩
    · rw [hcreated]
      rfl
    · rw [List.forall₂_map_right_iff]
      apply hpriced.imp
      intro item p hp
      obtain ⟨offer, hlookup, rfl⟩ := hp
      obtain ⟨hoffer, hlive⟩ := hoffers _ _ hlookup
      exact ⟨offer, hoffer, hlive, rfl⟩

/-! ## Every state -/

theorem linesOf_addLines (lines : List OrderLine) (orderId : Nat) :
    (s.addLines lines).linesOf orderId = (lines.filter fun line => line.orderId = orderId) ++ s.linesOf orderId :=
  List.filter_append ..

/-- A new order has no lines yet. -/
theorem Whole.linesOf_free (h : Whole s) {orderId : Nat} (hfree : s.taken (.order orderId) = false) :
    s.linesOf orderId = [] := by
  unfold Tables.linesOf
  rw [List.filter_eq_nil_iff]
  intro line hin
  obtain ⟨o, ho, hid⟩ := h.lines line hin
  simp only [decide_eq_true_eq]
  intro he
  have htaken := taken_order.mpr ⟨o, ho, (hid.trans he).symm⟩
  rw [hfree] at htaken
  cases htaken

theorem linesOf_placed_self {gen : Generated} {buyer : OrderBuyer} {key : Option String} {recipient : OrderRecipient}
    {eventId : Nat} (h : Whole s) (hd : Drafted gen buyer key s order recipient lines) :
    (s.placed order recipient lines eventId items).linesOf order.id = lines := by
  have hall : lines.filter (fun line => line.orderId = order.id) = lines :=
    List.filter_eq_self.mpr fun line hin => by simp [hd.lineOrder line hin]
  have hold := h.linesOf_free (hd.keys _ (mem_keys.mpr (Or.inl rfl)))
  refine (linesOf_addLines (s := (s.addRecipient recipient).addOrder order) lines order.id).trans ?_
  rw [hall]
  exact (congrArg (lines ++ ·) hold).trans (List.append_nil _)

theorem linesOf_placed_other {gen : Generated} {buyer : OrderBuyer} {key : Option String}
    {recipient : OrderRecipient} {eventId : Nat} (hd : Drafted gen buyer key s order recipient lines) {id : Nat}
    (hne : id ≠ order.id) : (s.placed order recipient lines eventId items).linesOf id = s.linesOf id := by
  have hnone : lines.filter (fun line => line.orderId = id) = [] := by
    rw [List.filter_eq_nil_iff]
    intro line hin
    simpa [hd.lineOrder line hin] using hne.symm
  refine (linesOf_addLines (s := (s.addRecipient recipient).addOrder order) lines id).trans ?_
  rw [hnone]
  rfl

/-- Only a pending order changes, and `order.created` is its one event. -/
theorem Accounted.updatePending (h : Accounted s order) (hc : Consistent s) (hin : order ∈ s.orders) (id : Nat)
    (change : Change) : Accounted s (order.updatePending id change) := by
  unfold Order.updatePending
  split
  · rename_i hpending
    have hevents := (hc.agrees order hin).of_pending hpending.2
    refine ⟨⟨h.billed.discounted, h.billed.totalAmount, h.billed.discountAmount⟩, h.workflow, fun event hevent => ?_⟩
    change event ∈ s.eventsOf order.publicId at hevent
    rw [hevents] at hevent
    exact Or.inl (List.mem_singleton.mp hevent)
  · exact h

/-- A write that leaves the lines, the workflow row and the events of an order. -/
theorem Accounted.of_same (h : Accounted s order) (hlines : s'.linesOf order.id = s.linesOf order.id)
    (hworkflow : s'.workflowsOf order.publicId = s.workflowsOf order.publicId)
    (hevents : s'.eventsOf order.publicId = s.eventsOf order.publicId) : Accounted s' order := by
  obtain ⟨hb, hw, he⟩ := h
  constructor
  · rw [hlines]
    exact hb
  · rw [hlines, hworkflow]
    exact hw
  · rw [hlines, hevents]
    exact he

theorem accounted_placed {gen : Generated} {buyer : OrderBuyer} {key : Option String} {recipient : OrderRecipient}
    (hc : Consistent s) (hw : Whole s) (ha : ∀ o ∈ s.orders, Accounted s o)
    (hd : Drafted gen buyer key s order recipient lines) (hb : Billed order lines)
    (hitems : lines.map OrderLine.toItem = items.map fun item => ⟨item.offerId, item.quantity⟩) {eventId : Nat} :
    ∀ o ∈ (s.placed order recipient lines eventId items).orders,
      Accounted (s.placed order recipient lines eventId items) o := by
  obtain ⟨hevents, hworkflows⟩ := hc.unwritten (hd.keys _ (mem_keys.mpr (Or.inr (Or.inl rfl))))
  intro o ho
  rcases List.mem_cons.mp ho with rfl | hold
  · have hlines : (s.placed o recipient lines eventId items).linesOf o.id = lines := linesOf_placed_self hw hd
    constructor
    · rw [hlines]
      exact hb
    · rw [hlines, workflowsOf_placed, if_pos rfl, hworkflows, hitems]
      exact ⟨_, rfl, rfl⟩
    · rw [eventsOf_placed, if_pos rfl, hevents]
      intro event hevent
      exact Or.inl (List.mem_singleton.mp hevent)
  · obtain ⟨hid, hpublic⟩ := hd.fresh (show o ∈ s.orders from hold)
    apply (ha o hold).of_same (linesOf_placed_other hd hid)
    · rw [workflowsOf_placed, if_neg hpublic]
    · rw [eventsOf_placed, if_neg hpublic]

theorem accounted_moved {id : Nat} {change : Change} {row : OrderOutbox} {found : Order} (hc : Consistent s)
    (ha : ∀ o ∈ s.orders, Accounted s o)
    (hfound : (s.updatePending id change).orders.find? (fun order => order.id = id) = some found)
    (hrow : row.aggregateId = found.publicId)
    (hpayload : row.payload = found.paid (s.linesOf id) ∨ ∃ failure, row.payload = found.failed failure) :
    ∀ o ∈ ((s.updatePending id change).addOutbox row).orders,
      Accounted ((s.updatePending id change).addOutbox row) o := by
  intro o ho
  obtain ⟨old, hold, rfl⟩ := List.mem_map.mp ho
  have hacc := (ha old hold).updatePending hc hold id change
  generalize old.updatePending id change = o at hacc ho
  have hsame : (s.updatePending id change).eventsOf o.publicId = s.eventsOf o.publicId := rfl
  refine ⟨hacc.billed, hacc.workflow, fun event hevent => ?_⟩
  rw [eventsOf_addOutbox, hsame, hrow] at hevent
  by_cases he : found.publicId = o.publicId
  · rw [if_pos he] at hevent
    rcases List.mem_cons.mp hevent with rfl | hin
    · -- public ids are unique, so the row found under the id is this order
      have hmem := List.mem_of_find?_eq_some hfound
      have hid : found.id = id := by simpa using List.find?_some hfound
      have hpublics : ((s.updatePending id change).orders.map Order.publicId).Nodup := by
        have hmap : (s.updatePending id change).orders.map Order.publicId = s.orders.map Order.publicId := by
          rw [Tables.updatePending, List.map_map]
          refine List.map_congr_left fun x _ => ?_
          rw [Function.comp_apply, later_updatePending x id change]
        rw [hmap]
        exact hc.publicIds
      obtain rfl := List.inj_on_of_nodup_map hpublics hmem ho he
      rw [← hid] at hpayload
      exact Or.inr hpayload
    · exact hacc.events event hin
  · rw [if_neg he] at hevent
    exact hacc.events event hevent

/-- The books of the order context. -/
structure Kept (s : Tables) : Prop where
  consistent : Consistent s
  whole : Whole s
  accounted : ∀ order ∈ s.orders, Accounted s order

theorem kept_empty (offers : Nat → Option SellerOffer) : Kept (Tables.empty offers) :=
  ⟨consistent_empty offers, whole_empty offers, nofun⟩

theorem kept_place {gen : Generated} {input : OrderCreateInput} {buyer : OrderBuyer} {key : Option String}
    (h : Kept s) (he : Exec isolation b (OrderPlaceCommandHandler.place gen input buyer key) s s' (.ok order)) :
    ∃ recipient lines, s' = s.placed order recipient lines gen.eventId input.items ∧
      order.currency = input.currency ∧ Drafted gen buyer key s order recipient lines ∧ Billed order lines ∧
      lines.map OrderLine.toItem = input.items.map (fun item => ⟨item.offerId, item.quantity⟩) ∧ Kept s' := by
  have hcommit := exec_place he
  obtain ⟨offers, priced, recipient, hmap, htotal, hdiscount, hcurrency, rfl, hd⟩ := exec_place_priced he
  have hpriced := forall₂_of_mapM pricedAs_of_ok hmap
  have hb := billed_of_priced hpriced htotal hdiscount
  have hitems := items_of_priced hpriced order.id
  refine ⟨recipient, _, rfl, hcurrency, hd, hb, hitems, consistent_placed h.consistent hd _ _,
    whole_placed h.whole hd _ _, accounted_placed h.consistent h.whole h.accounted hd hb hitems⟩

theorem kept_commit {q : Request} {answer : Answer} (h : Kept s) (hq : q.WellTyped)
    (he : Exec isolation b (handler hash q) s s' (.ok answer)) : Kept s' := by
  have hcommit := commit_of_exec he
  refine ⟨consistent_commit h.consistent hq hcommit, whole_commit h.whole hcommit, ?_⟩
  cases q with
  | place gen input buyer key =>
    obtain ⟨_, _, order, _, hp, hr⟩ := Exec.of_bind he
    cases hr
    have hplace : ∀ {b' : Tables}, Exec isolation b' (OrderPlaceCommandHandler.place gen input buyer key) s s'
        (.ok order) → ∀ o ∈ s'.orders, Accounted s' o := by
      intro b' hexec
      obtain ⟨_, _, _, _, _, _, _, hkept⟩ := kept_place h hexec
      exact hkept.accounted
    cases key with
    | none => exact hplace hp
    | some key =>
      obtain ⟨_, _, _, _, hlock, h₁⟩ := Exec.of_bind hp
      cases hlock.of_exec
      obtain ⟨_, _, found, _, hlook, h₂⟩ := Exec.of_bind h₁
      obtain ⟨rfl, _⟩ := hlook.of_look
      cases found with
      | none => exact hplace h₂
      | some placed =>
        cases h₂
        exact h.accounted
  | markPaid drawn orderId =>
    cases hcommit with
    | paid _ hfound _ => exact accounted_moved h.consistent h.accounted hfound rfl (Or.inl rfl)
    | settled => exact h.accounted
  | markFailed drawn orderId failure =>
    cases hcommit with
    | failed _ hfound _ => exact accounted_moved h.consistent h.accounted hfound rfl (Or.inr ⟨failure, rfl⟩)
    | settled => exact h.accounted

theorem Kept.setOffers (h : Kept s) (offers : Nat → Option SellerOffer) : Kept { s with offers } :=
  ⟨h.consistent.setOffers offers, ⟨h.whole.recipientIds, h.whole.recipients, h.whole.lines, h.whole.lineKeys,
    h.whole.created, h.whole.workflows, h.whole.keys⟩,
    fun order hin => ⟨(h.accounted order hin).billed, (h.accounted order hin).workflow,
      (h.accounted order hin).events⟩⟩

theorem kept_run {c : Config Lock Tables Failure Answer Request}
    {tr : List (Config Lock Tables Failure Answer Request × Txn.Event Request)} (h : Kept s)
    {hash : String → Int} (hr : Run (Step (orders hash)) (Config.start s) tr c) : Kept c.db := by
  refine run_serial_invariant (J := fun s _ => Kept s) h ?_ ?_ ?_ hr
  · exact fun h hq _ he => kept_commit h hq he
  · exact fun h _ _ _ => h
  · intro u u' _ h henv
    obtain ⟨offers, rfl⟩ := henv
    exact h.setOffers offers

/-- Every request for money an order's workflow sends is for its total. -/
theorem sent_amount {isUUID : String → Bool} {uuid : String → Nat} {input : OrderPlaceWorkflowInput} {w : World}
    {tr : List (PlacementSaga × SagaEvent Activity ActivityError Other)} {x : PlacementSaga}
    (hr : Run (SagaStep (receivers isUUID uuid input)) (Saga.start (orderPlaceWorkflow input) w) tr x)
    {a : Activity} (ha : a ∈ x.sent) {amount : List Char} (hamount : a.amount = some amount) :
    amount = input.totalAmount := by
  have hinv : (chart input).Invariant (receivers isUUID uuid input) (fun _ _ _ _ => True) fun _ _ _ => True :=
    ⟨fun _ h => h, fun _ _ h => h, fun _ _ _ => trivial, fun _ _ _ h => h, fun _ h _ => h, fun _ _ h => h,
      fun _ h => h, fun _ h => h⟩
  obtain ⟨_, hholds⟩ := hinv.run .reserving trivial hr
  obtain ⟨st, c, hcall⟩ := hholds.sent a ha
  cases st with
  | charging =>
    cases hcall
    exact (Option.some.inj hamount).symm
  | refunding e =>
    cases hcall
    exact (Option.some.inj hamount).symm
  | _ =>
    cases hcall <;> cases hamount

/-- A new order was priced by the offers of `s`, and is stored with its rows. -/
structure Priced (input : OrderCreateInput) (s s' : Tables) (order : Order) : Prop where
  stored : order ∈ s'.orders
  lines : List.Forall₂ (LineOf s order.id) input.items (s'.linesOf order.id)
  currency : order.currency = input.currency
  accounted : Accounted s' order

/-- The key was used before: the order placed under it is the answer. -/
structure Replayed (buyer : OrderBuyer) (key : Option String) (s s' : Tables) (order : Order) : Prop where
  unchanged : s' = s
  stored : order ∈ s.orders
  userId : order.userId = buyer.userId
  idempotencyKey : key.isSome ∧ order.idempotencyKey = key.map uuidValue

theorem priced_of_place {gen : Generated} {input : OrderCreateInput} {buyer : OrderBuyer} {key : Option String}
    (h : Kept s) (hrun : (OrderPlaceCommandHandler.place gen input buyer key).run s = .ok (s', order)) :
    Priced input s s' order := by
  have he := Exec.of_run (isolation.le_refl s) (safe_place s gen input buyer key) hrun
  obtain ⟨recipient, lines, hs', hcurrency, hd, _, _, hkept⟩ := kept_place h he
  obtain ⟨written, hwritten, hlines⟩ := lines_of_run hrun
  have hof : s'.linesOf order.id = lines := by
    rw [hs']
    exact linesOf_placed_self h.whole hd
  have hsame : written = lines := by
    rw [hs'] at hwritten
    exact (List.append_cancel_right hwritten).symm
  have hin : order ∈ s'.orders := by
    rw [hs']
    exact List.mem_cons_self
  rw [hsame, ← hof] at hlines
  exact ⟨hin, hlines, hcurrency, hkept.accounted order hin⟩

theorem priced_of_createPending {gen : Generated} {input : OrderCreateInput} {buyer : OrderBuyer}
    {key : Option String} (h : Kept s)
    (hrun : (OrderPlaceCommandHandler.createPending hash gen input buyer key).run s = .ok (s', order)) :
    Replayed buyer key s s' order ∨ Priced input s s' order := by
  cases key with
  | none => exact Or.inr (priced_of_place h hrun)
  | some key =>
    obtain ⟨m₁, _, hlock, h₁⟩ := Prog.run_bind_ok hrun
    cases hlock
    obtain ⟨m₂, found, hlook, h₂⟩ := Prog.run_bind_ok h₁
    cases hlook
    split at h₂
    · rename_i placed hfind
      cases h₂
      have hkey := List.find?_some hfind
      simp only [decide_eq_true_eq] at hkey
      exact Or.inl ⟨rfl, List.mem_of_find?_eq_some hfind, hkey.1, rfl, hkey.2⟩
    · exact Or.inr (priced_of_place h h₂)

/-- An item without a live offer is not priced. -/
theorem Priced.live {input : OrderCreateInput} (h : Priced input s s' order) {item : OrderCreateItemInput}
    (hin : item ∈ input.items) : ∃ offer, s.offers item.offerId = some offer ∧ offer.deleted = false := by
  obtain ⟨_, _, offer, hoffer, hlive, _⟩ := forall₂_mem h.lines hin
  exact ⟨offer, hoffer, hlive⟩

/-- The offers an order was priced by have its currency exactly if the offers of the items have that of the request. -/
theorem Priced.currency_iff {input : OrderCreateInput} (h : Priced input s s' order) :
    (∀ line ∈ s'.linesOf order.id, ∀ offer, s.offers line.offerId = some offer → offer.currency = order.currency) ↔
      ∀ item ∈ input.items, ∀ offer, s.offers item.offerId = some offer → offer.currency = input.currency := by
  rw [h.currency]
  constructor
  · intro hall item hin offer hoffer
    obtain ⟨line, hline, _, _, _, rfl⟩ := forall₂_mem h.lines hin
    exact hall _ hline offer hoffer
  · intro hall line hin offer hoffer
    obtain ⟨item, hitem, _, _, _, rfl⟩ := forall₂_mem h.lines.flip hin
    exact hall item hitem offer hoffer

end

/-- What holds of the orders, their lines and their amounts in a state of the system. -/
structure Books (hash : String → Int) (c : Config Lock Tables Failure Answer Request) : Prop where
  accounted : ∀ order ∈ c.db.orders, Accounted c.db order
  sum : ∀ order ∈ c.db.orders,
    toCents order.totalAmount + toCents order.discountAmount = priceSum (c.db.linesOf order.id)
  requests : ∀ order ∈ c.db.orders, ∀ row ∈ c.db.workflowsOf order.publicId, ∀ isUUID uuid w tr x,
    Run (SagaStep (receivers isUUID uuid row.input)) (Saga.start (orderPlaceWorkflow row.input) w) tr x →
    ∀ a ∈ x.sent, ∀ amount, a.amount = some amount → amount = order.totalAmount
  placed : ∀ gen input buyer key s' order,
    (OrderPlaceCommandHandler.createPending hash gen input buyer key).run c.db = .ok (s', order) →
    Replayed buyer key c.db s' order ∨ Priced input c.db s' order
  missing : ∀ gen input buyer key,
    (∃ item ∈ input.items, ∀ offer, c.db.offers item.offerId = some offer → offer.deleted = true) →
    ((OrderPlaceCommandHandler.createPending hash gen input buyer key).transact c.db).1 = c.db
  failed : ∀ gen input buyer key s' e,
    (OrderPlaceCommandHandler.createPending hash gen input buyer key).transact c.db = (s', .error e) → s' = c.db
  aborted : ∀ i c', Step (orders hash) c (.rollback i) c' ∨ Step (orders hash) c (.abort i) c' → c'.db = c.db

/-- In every reachable state the books agree. -/
theorem books_agree {offers : Nat → Option SellerOffer} {c : Config Lock Tables Failure Answer Request}
    {tr : List (Config Lock Tables Failure Answer Request × Txn.Event Request)}
    {hash : String → Int} (hr : Run (Step (orders hash)) (Config.start (Tables.empty offers)) tr c) :
    Books hash c := by
  have hkept := kept_run (kept_empty offers) hr
  constructor
  · exact hkept.accounted
  · exact fun order hin => (hkept.accounted order hin).billed.sum
  · intro order hin row hrow isUUID uuid w tr x hsaga a ha amount hamount
    obtain ⟨r, hr, hinput⟩ := (hkept.accounted order hin).workflow
    rw [hr] at hrow
    obtain rfl := List.mem_singleton.mp hrow
    rw [sent_amount hsaga ha hamount, hinput]
  · exact fun _ _ _ _ _ _ hrun => priced_of_createPending hkept hrun
  · intro gen input buyer key hmissing
    obtain ⟨item, hin, hnone⟩ := hmissing
    cases hrun : (OrderPlaceCommandHandler.createPending hash gen input buyer key).run c.db with
    | error e => simp [Prog.transact, hrun]
    | ok p =>
      rw [Prog.transact_ok.mpr hrun]
      rcases priced_of_createPending hkept hrun with hreplayed | hpriced
      · exact hreplayed.unchanged
      · obtain ⟨offer, hoffer, hlive⟩ := hpriced.live hin
        rw [hnone offer hoffer] at hlive
        cases hlive
  · intro gen input buyer key s' e hfail
    have herror : ((OrderPlaceCommandHandler.createPending hash gen input buyer key).transact c.db).2 = .error e := by
      rw [hfail]
    rw [← Prog.transact_error herror, hfail]
  · intro i c' hstep
    rcases hstep with hstep | hstep <;> cases hstep <;> rfl

/-- Five pieces of the same offer. -/
def fiveItems : OrderCreateInput where
  recipient := oneItem.recipient
  items := [⟨3, 5, sampleOffer_positive, by decide⟩]
  currency := .uah
  items_notEmpty := by decide

/-- A key that has placed two pieces answers a request for five with that order. -/
theorem books_agree_refuted : ∃ tr c s' order, Run (Step (orders plainHash)) (Config.start sampleShop) tr c ∧
    (OrderPlaceCommandHandler.createPending plainHash sampleGenerated fiveItems sampleBuyer (some lowerKey)).run c.db =
      .ok (s', order) ∧ (s'.linesOf order.id).map OrderLine.toItem ≠
        fiveItems.items.map fun item => ⟨item.offerId, item.quantity⟩ := by
  have hlower : uuidValue lowerKey = lowerKey := by decide +kernel
  have hserial : ∃ s order, (handler plainHash lowerRequest).run sampleShop = .ok (s, order) ∧ ∃ found,
      (OrderPlaceCommandHandler.createPending plainHash sampleGenerated fiveItems sampleBuyer (some lowerKey)).run s =
        .ok (s, found) ∧ (s.linesOf found.id).map OrderLine.toItem = [⟨3, 2⟩] := by
    simp only [handler, lowerRequest, OrderPlaceCommandHandler.createPending, OrderRepository.findByIdempotencyKey,
      OrderPlaceCommandHandler.place, OrderPlaceCommandHandler.createOrder, Option.map_some, hlower]
    exact ⟨_, _, rfl, _, rfl, rfl⟩
  obtain ⟨s, answer, hplace, found, hreplay, hlines⟩ := hserial
  obtain ⟨_, hr⟩ := process_idle (Y := orders plainHash) lowerRequest sampleShop [] trivial hplace
  refine ⟨_, _, _, found, hr, hreplay, ?_⟩
  rw [hlines]
  decide

/-- An order of two pieces at 1.50. -/
theorem books_agree_placed : ∃ tr c, Run (Step (orders plainHash)) (Config.start sampleShop) tr c ∧ Books plainHash c ∧
    c.db.orders.map Order.totalAmount = [['3', '.', '0', '0']] := by
  have hserial : ∃ s order, (handler plainHash (.place sampleGenerated oneItem sampleBuyer none)).run sampleShop =
      .ok (s, order) ∧ s.orders.map Order.totalAmount = [['3', '.', '0', '0']] := ⟨_, _, rfl, rfl⟩
  obtain ⟨s, order, hplace, htotal⟩ := hserial
  obtain ⟨_, hr⟩ := process_idle (Y := orders plainHash) (.place sampleGenerated oneItem sampleBuyer none) sampleShop []
    trivial hplace
  exact ⟨_, _, hr, books_agree hr, htotal⟩

/-- The offers that priced a new order are in its currency exactly if those of the items are in the
currency of the request. -/
theorem currency_agrees {offers : Nat → Option SellerOffer} {c : Config Lock Tables Failure Answer Request}
    {tr : List (Config Lock Tables Failure Answer Request × Txn.Event Request)}
    {hash : String → Int} (hr : Run (Step (orders hash)) (Config.start (Tables.empty offers)) tr c) {gen : Generated}
    {input : OrderCreateInput} {buyer : OrderBuyer} {key : Option String} {s' : Tables} {order : Order}
    (hrun : (OrderPlaceCommandHandler.createPending hash gen input buyer key).run c.db = .ok (s', order))
    (hnew : s' ≠ c.db) :
    (∀ line ∈ s'.linesOf order.id, ∀ offer, c.db.offers line.offerId = some offer →
      offer.currency = order.currency) ↔
    ∀ item ∈ input.items, ∀ offer, c.db.offers item.offerId = some offer → offer.currency = input.currency := by
  rcases priced_of_createPending (kept_run (kept_empty offers) hr) hrun with hreplayed | hpriced
  · exact absurd hreplayed.unchanged hnew
  · exact hpriced.currency_iff

/-- The offer of `oneItem` sells for UAH, and the request asks for USD. -/
def dollarItem : OrderCreateInput := { oneItem with currency := .usd }

theorem currency_agrees_refuted : ∃ s' order line offer,
    (OrderPlaceCommandHandler.createPending plainHash sampleGenerated dollarItem sampleBuyer none).run sampleShop =
      .ok (s', order) ∧ line ∈ s'.linesOf order.id ∧ sampleShop.offers line.offerId = some offer ∧
      offer.currency ≠ order.currency :=
  ⟨_, _, _, _, rfl, List.mem_cons_self, rfl, by decide⟩

theorem currency_agrees_uah : ∃ s' order,
    (OrderPlaceCommandHandler.createPending plainHash sampleGenerated oneItem sampleBuyer none).run sampleShop =
      .ok (s', order) ∧ ∀ line ∈ s'.linesOf order.id, ∀ offer, sampleShop.offers line.offerId = some offer →
      offer.currency = order.currency := by
  have hrun : ∃ s' order,
      (OrderPlaceCommandHandler.createPending plainHash sampleGenerated oneItem sampleBuyer none).run sampleShop =
        .ok (s', order) ∧ s'.orders.length = 1 := ⟨_, _, rfl, rfl⟩
  obtain ⟨s', order, hrun, hlength⟩ := hrun
  have hnew : s' ≠ sampleShop := by
    intro he
    rw [he] at hlength
    cases hlength
  have hnil : Run (Step (orders plainHash)) (Config.start sampleShop) [] (Config.start sampleShop) := .nil
  refine ⟨s', order, hrun, (currency_agrees hnil hrun hnew).mpr ?_⟩
  intro item hin offer hoffer
  obtain rfl := List.mem_singleton.mp hin
  cases hoffer
  rfl

end MarketplaceApi.Placement
