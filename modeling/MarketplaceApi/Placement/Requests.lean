import Mathlib.Data.List.Forall2
import MarketplaceApi.Messaging.Gateway
import MarketplaceApi.Placement.Place

/-!
# The requests of an order and their receivers

`OrderPlaceMessageService` builds four requests from a workflow input. Each is checked
again by its receiver; for a committed order the checks agree with the database on
everything but a total of zero.
-/
namespace MarketplaceApi.Placement

open Messaging Money Txn

namespace OrderPlaceMessageService

def toAccountCustomerRefundRequest (orderPublicId : String) (customerId : Int) (amount : List Char) :
    CloudEvent AccountCustomerRefundRequest.Data where
  specversion := "1.0"
  id := orderPublicId
  source := AccountCustomerRefundRequest.SOURCE
  type := AccountCustomerRefundRequest.TYPE
  datacontenttype := "application/json"
  subject := some orderPublicId
  correlationid := some orderPublicId
  data := { customerId, amount, chargeId := orderPublicId }

def toStockReleaseRequest (orderPublicId : String) : CloudEvent StockReleaseRequest.Data where
  specversion := "1.0"
  id := orderPublicId
  source := StockReleaseRequest.SOURCE
  type := StockReleaseRequest.TYPE
  datacontenttype := "application/json"
  subject := some orderPublicId
  correlationid := some orderPublicId
  data := { orderPublicId }

def toStockReserveRequest (id : String) (items : List OrderPlaceItem) :
    CloudEvent StockReserveRequest.Data where
  specversion := "1.0"
  id := id
  source := StockReserveRequest.SOURCE
  type := StockReserveRequest.TYPE
  datacontenttype := "application/json"
  subject := some id
  correlationid := some id
  data := { items := items.map fun item => ⟨item.offerId, item.quantity⟩ }

def toAccountCustomerChargeRequest (id : String) (customerId : Int) (amount : List Char) :
    CloudEvent AccountCustomerChargeRequest.Data where
  specversion := "1.0"
  id := id
  source := AccountCustomerChargeRequest.SOURCE
  type := AccountCustomerChargeRequest.TYPE
  datacontenttype := "application/json"
  subject := some id
  correlationid := some id
  data := { customerId, amount }

end OrderPlaceMessageService

/-- All four requests built from a workflow input pass the check at their receiver. -/
structure Acceptable (isUUID : String → Bool) (input : OrderPlaceWorkflowInput) : Prop where
  reserve : SellerOfferGateway.acceptsReserve isUUID
    (OrderPlaceMessageService.toStockReserveRequest input.orderPublicId input.items) = true
  release : SellerOfferGateway.acceptsRelease isUUID
    (OrderPlaceMessageService.toStockReleaseRequest input.orderPublicId) = true
  charge : AccountGateway.acceptsCharge isUUID
    (OrderPlaceMessageService.toAccountCustomerChargeRequest input.orderPublicId input.userId
      input.totalAmount) = true
  refund : AccountGateway.acceptsRefund isUUID
    (OrderPlaceMessageService.toAccountCustomerRefundRequest input.orderPublicId input.userId
      input.totalAmount) = true

/-- The price of the items of a request. -/
def total (s : Tables) (items : List OrderCreateItemInput) : Nat :=
  (items.map fun item => s.payable item.offerId * item.quantity).sum

/-- What a committed placement of a new order has checked and written. -/
structure Placed (gen : Generated) (input : OrderCreateInput) (buyer : OrderBuyer) (s s' : Tables)
    (order : Order) : Prop where
  userId : isUint buyer.userId = true
  items : ∀ item ∈ input.items, item.offerId ≤ maxInteger ∧ item.quantity ≤ maxInteger
  distinct : (input.items.map OrderCreateItemInput.offerId).Nodup
  fits : total s input.items < 10 ^ 12
  order_publicId : order.publicId = gen.publicId
  order_userId : order.userId = buyer.userId
  order_totalAmount : order.totalAmount = toFixed (total s input.items)
  workflow : s'.workflowOutbox =
    OrderPlaceMessageService.toOrderPlaceWorkflowOutbox order input.items :: s.workflowOutbox

section
variable {hash : String → Int} {gen : Generated} {input : OrderCreateInput} {buyer : OrderBuyer} {key : Option String}
  {s s' m : Tables} {order : Order}

theorem run_findByIds {ids : List Nat} {offers : List (Nat × SellerOffer)}
    (h : (SellerOfferService.findByIds ids).run s = .ok (m, offers)) : m = s ∧
      ∀ id offer, offers.lookup id = some offer → s.offers id = some offer ∧ offer.deleted = false := by
  unfold SellerOfferService.findByIds at h
  split at h
  · cases h
  · rw [Prog.run_look] at h
    cases h
    refine ⟨rfl, fun id offer hlookup => ?_⟩
    obtain ⟨before, after, heq, _⟩ := List.lookup_eq_some_iff.mp hlookup
    have hmem : (id, offer) ∈ before ++ (id, offer) :: after := by simp
    rw [← heq] at hmem
    obtain ⟨i, _, hi⟩ := List.mem_filterMap.mp hmem
    split at hi
    · rename_i found hfound
      split at hi
      · cases hi
      · rename_i hlive
        cases hi
        exact ⟨hfound, Bool.not_eq_true _ ▸ hlive⟩
    · cases hi

theorem run_createRecipient {recipient : OrderCreateRecipientInput} {r : OrderRecipient}
    (h : (OrderPlaceCommandHandler.createRecipient gen recipient).run s = .ok (m, r)) :
    m = s.addRecipient r := by
  unfold OrderPlaceCommandHandler.createRecipient OrderRecipientRepository.create at h
  rw [Prog.run_exec] at h
  split at h
  · cases h
  · split at h
    · cases h
    · cases h
      rfl

theorem run_orderCreate {draft : Order} (h : (OrderRepository.create draft).run s = .ok (m, order)) :
    order = draft ∧ m = s.addOrder order ∧ isUint order.userId = true ∧
      toCents order.totalAmount < 10 ^ 12 := by
  unfold OrderRepository.create at h
  rw [Prog.run_exec] at h
  split at h
  · cases h
  · rename_i huint
    split at h
    · cases h
    · rename_i hfits
      split at h
      · cases h
      · split at h
        · cases h
        · split at h
          · cases h
          · cases h
            simp only [Bool.not_eq_true', Bool.not_eq_false] at huint
            exact ⟨rfl, rfl, huint, Nat.lt_of_not_le fun hle => hfits (Or.inl hle)⟩

theorem run_createItems {priced : List PricedOrderLine} {orderId : Nat} {lines : List OrderLine}
    (h : (OrderPlaceCommandHandler.createItems priced orderId).run s = .ok (m, lines)) :
    m = s.addLines lines ∧ (priced.map PricedOrderLine.offerId).Nodup ∧
      ∀ p ∈ priced, p.offerId ≤ maxInteger ∧ p.quantity ≤ maxInteger := by
  unfold OrderPlaceCommandHandler.createItems OrderLineRepository.create at h
  rw [Prog.run_exec] at h
  split at h
  · cases h
  · rename_i huint
    split at h
    · rename_i hkey
      cases h
      refine ⟨rfl, ?_, fun p hp => ?_⟩
      · rw [List.map_append, List.nodup_append, List.map_map] at hkey
        refine List.Nodup.of_map (fun offerId => (orderId, offerId)) ?_
        rw [List.map_map]
        exact hkey.1
      rw [Bool.not_eq_true, List.any_eq_false] at huint
      have hline := huint _ (List.mem_map_of_mem hp)
      simp only [isUint, Bool.or_eq_true, Bool.not_eq_true', decide_eq_false_iff_not, not_or,
        Decidable.not_not] at hline
      omega
    · cases h

theorem run_outboxCreate {row : OrderOutbox} {u : Unit}
    (h : (OrderOutboxRepository.create row).run s = .ok (m, u)) : m = s.addOutbox row := by
  unfold OrderOutboxRepository.create at h
  rw [Prog.run_exec] at h
  split at h
  · cases h
  · cases h
    rfl

theorem run_workflowCreate {row : OrderWorkflowOutbox} {u : Unit}
    (h : (OrderWorkflowOutboxRepository.create row).run s = .ok (m, u)) : m = s.addWorkflow row := by
  unfold OrderWorkflowOutboxRepository.create at h
  rw [Prog.run_exec] at h
  split at h
  · cases h
  · cases h
    rfl

theorem forall₂_of_mapM {E X Y : Type} {f : X → Except E Y} {R : X → Y → Prop}
    (hf : ∀ x y, f x = .ok y → R x y) {xs : List X} {ys : List Y} (h : xs.mapM f = .ok ys) :
    List.Forall₂ R xs ys := by
  induction xs generalizing ys with
  | nil =>
    cases h
    exact .nil
  | cons x xs ih =>
    rw [List.mapM_cons] at h
    cases hx : f x with
    | error e =>
      rw [hx] at h
      cases h
    | ok y =>
      cases hxs : xs.mapM f with
      | error e =>
        rw [hx, hxs] at h
        cases h
      | ok rest =>
        rw [hx, hxs] at h
        cases h
        exact .cons (hf x y hx) (ih hxs)

theorem forall₂_mem {X Y : Type} {R : X → Y → Prop} {xs : List X} {ys : List Y}
    (h : List.Forall₂ R xs ys) {x : X} (hx : x ∈ xs) : ∃ y ∈ ys, R x y := by
  induction h with
  | nil => cases hx
  | cons hr _ ih =>
    rcases List.mem_cons.mp hx with rfl | hin
    · exact ⟨_, List.mem_cons_self, hr⟩
    · obtain ⟨y, hy, hxy⟩ := ih hin
      exact ⟨y, List.mem_cons_of_mem _ hy, hxy⟩

/-- A priced line keeps its item and has the price of the item's offer. -/
def Prices (s : Tables) (item : OrderCreateItemInput) (p : PricedOrderLine) : Prop :=
  p.offerId = item.offerId ∧ p.quantity = item.quantity ∧
    p.amount = s.payable item.offerId * item.quantity

theorem prices_of_ok {offers : List (Nat × SellerOffer)}
    (hoffers : ∀ id offer, offers.lookup id = some offer → s.offers id = some offer)
    (item : OrderCreateItemInput) (p : PricedOrderLine)
    (h : OrderPlaceCommandHandler.toPriceItemOrFail offers item = .ok p) : Prices s item p := by
  unfold OrderPlaceCommandHandler.toPriceItemOrFail at h
  split at h
  · cases h
  · rename_i offer hlookup
    cases h
    exact ⟨rfl, rfl, by simp [Tables.payable, hoffers _ _ hlookup]⟩

theorem foldl_sum {X : Type} (f : X → Nat) (xs : List X) (sum : Nat) :
    xs.foldl (fun sum x => sum + f x) sum = sum + (xs.map f).sum := by
  induction xs generalizing sum with
  | nil => rfl
  | cons x xs ih => rw [List.foldl_cons, ih, List.map_cons, List.sum_cons, Nat.add_assoc]

theorem total_of_priced {items : List OrderCreateItemInput} {priced : List PricedOrderLine}
    (h : List.Forall₂ (Prices s) items priced) :
    (priced.map PricedOrderLine.amount).sum = total s items := by
  induction h with
  | nil => rfl
  | cons hitem _ ih =>
    unfold total at ih ⊢
    rw [List.map_cons, List.sum_cons, ih, hitem.2.2, List.map_cons, List.sum_cons]

theorem offerIds_of_priced {items : List OrderCreateItemInput} {priced : List PricedOrderLine}
    (h : List.Forall₂ (Prices s) items priced) :
    priced.map PricedOrderLine.offerId = items.map OrderCreateItemInput.offerId := by
  induction h with
  | nil => rfl
  | cons hitem _ ih => rw [List.map_cons, List.map_cons, ih, hitem.1]

/-- What `place` has done when it commits. -/
theorem placed_of_run (h : (OrderPlaceCommandHandler.place gen input buyer key).run s = .ok (s', order)) :
    Placed gen input buyer s s' order := by
  unfold OrderPlaceCommandHandler.place at h
  obtain ⟨m₁, offers, hfound, h₁⟩ := Prog.run_bind_ok h
  obtain ⟨rfl, hoffers⟩ := run_findByIds hfound
  obtain ⟨m₂, recipient, hrecipient, h₂⟩ := Prog.run_bind_ok h₁
  obtain rfl := run_createRecipient hrecipient
  split at h₂
  · cases h₂
  · rename_i priced hmap
    have hpriced := forall₂_of_mapM (prices_of_ok fun id offer h => (hoffers id offer h).1) hmap
    obtain ⟨m₃, created, horder, h₃⟩ := Prog.run_bind_ok h₂
    obtain ⟨hdraft, rfl, huser, hfits⟩ := run_orderCreate horder
    obtain ⟨m₄, lines, hlines, h₄⟩ := Prog.run_bind_ok h₃
    obtain ⟨rfl, hnodup, hints⟩ := run_createItems hlines
    obtain ⟨m₅, _, hevent, h₅⟩ := Prog.run_bind_ok h₄
    obtain rfl := run_outboxCreate hevent
    obtain ⟨m₆, _, hworkflow, hret⟩ := Prog.run_bind_ok h₅
    obtain rfl := run_workflowCreate hworkflow
    cases hret
    have hsum : order.totalAmount = toFixed (total m₁ input.items) := by
      rw [hdraft, foldl_sum, total_of_priced hpriced, Nat.zero_add]
    have hitems : ∀ item ∈ input.items, item.offerId ≤ maxInteger ∧ item.quantity ≤ maxInteger := by
      intro item hitem
      obtain ⟨p, hp, ho, hq, _⟩ := forall₂_mem hpriced hitem
      have hp' := hints p hp
      rwa [ho, hq] at hp'
    rw [offerIds_of_priced hpriced] at hnodup
    rw [hsum, toCents_toFixed] at hfits
    exact ⟨by rwa [hdraft] at huser, hitems, hnodup, hfits, by rw [hdraft], by rw [hdraft], hsum, rfl⟩

/-- A commit of `createPending` returns an order placed before, or places a new one. -/
theorem placed_of_createPending
    (h : (OrderPlaceCommandHandler.createPending hash gen input buyer key).run s = .ok (s', order)) :
    s' = s ∨ Placed gen input buyer s s' order := by
  cases key with
  | none => exact Or.inr (placed_of_run h)
  | some key =>
    obtain ⟨m₁, _, hlock, h₁⟩ := Prog.run_bind_ok h
    cases hlock
    obtain ⟨m₂, found, hlook, h₂⟩ := Prog.run_bind_ok h₁
    cases hlook
    split at h₂
    · cases h₂
      exact Or.inl rfl
    · exact Or.inr (placed_of_run h₂)

theorem total_pos_iff {items : List OrderCreateItemInput} :
    0 < total s items ↔ ∃ item ∈ items, 0 < s.payable item.offerId := by
  induction items with
  | nil => simp [total]
  | cons item items ih =>
    have hcons : total s (item :: items) = s.payable item.offerId * item.quantity + total s items := by
      rw [total, List.map_cons, List.sum_cons, total]
    have hitem : 0 < s.payable item.offerId * item.quantity ↔ 0 < s.payable item.offerId :=
      Nat.mul_pos_iff_of_pos_right item.quantity_min
    simp only [List.mem_cons, exists_eq_or_imp]
    rw [hcons, ← ih, ← hitem]
    omega

theorem isSafeInteger_of_uint {n : Int} (h : isUint n = true) : isSafeInteger n = true ∧ 0 < n := by
  have hrange : 0 < n ∧ n ≤ maxInteger := of_decide_eq_true h
  simp only [maxInteger] at hrange
  simp only [isSafeInteger, decide_eq_true_eq]
  omega

theorem Placed.isValidItems (h : Placed gen input buyer s s' order) :
    SellerOfferGateway.isValidItems
      (input.items.map fun item => ⟨(item.offerId : Int), (item.quantity : Int)⟩) = true := by
  rw [SellerOfferGateway.isValidItems, Bool.and_eq_true, decide_eq_true_eq, List.length_map,
    List.all_eq_true]
  refine ⟨List.length_pos_of_ne_nil input.items_notEmpty, fun i hi => ?_⟩
  obtain ⟨item, hitem, rfl⟩ := List.mem_map.mp hi
  have hmax := h.items item hitem
  have hoffer := item.offerId_positive
  have hquantity := item.quantity_min
  rw [SellerOfferGateway.isValidItem_iff]
  simp only [isSafeInteger, maxInteger, decide_eq_true_eq] at hmax ⊢
  omega

/-- A committed order's movement is valid exactly when it moves money. -/
theorem Placed.isValidMovement_iff (h : Placed gen input buyer s s' order) :
    AccountGateway.isValidMovement order.userId order.totalAmount = true ↔ 0 < total s input.items := by
  have huser := isSafeInteger_of_uint h.userId
  have hmatches := matchesAmount_toFixed.mpr h.fits
  rw [AccountGateway.isValidMovement_iff, h.order_userId, h.order_totalAmount, toCents_toFixed]
  exact ⟨fun hv => hv.2.2.2, fun hpos => ⟨huser.1, huser.2, hmatches, hpos⟩⟩

theorem Placed.acceptable_iff (h : Placed gen input buyer s s' order) {isUUID : String → Bool}
    (huuid : isUUID gen.publicId = true) :
    Acceptable isUUID (OrderPlaceMessageService.toOrderPlaceWorkflowOutbox order input.items).input ↔
      0 < total s input.items := by
  have hid : isUUID order.publicId = true := by rw [h.order_publicId, huuid]
  rw [← h.isValidMovement_iff]
  constructor
  · intro hall
    have hcharge := hall.charge
    simp only [AccountGateway.acceptsCharge, Bool.and_eq_true] at hcharge
    exact hcharge.2
  · intro hvalid
    refine ⟨?_, ?_, ?_, ?_⟩
    · have hitems := h.isValidItems
      simp only [SellerOfferGateway.acceptsReserve, OrderPlaceMessageService.toStockReserveRequest,
        OrderPlaceMessageService.toOrderPlaceWorkflowOutbox, List.map_map, Bool.and_eq_true]
      exact ⟨⟨⟨rfl, rfl⟩, hid⟩, hitems⟩
    · simp only [SellerOfferGateway.acceptsRelease, Bool.and_eq_true]
      exact ⟨⟨rfl, rfl⟩, hid⟩
    · simp only [AccountGateway.acceptsCharge, Bool.and_eq_true]
      exact ⟨⟨⟨⟨rfl, rfl⟩, hid⟩, hid⟩, hvalid⟩
    · simp only [AccountGateway.acceptsRefund, Bool.and_eq_true]
      exact ⟨⟨⟨⟨rfl, rfl⟩, hid⟩, hid⟩, hvalid⟩

/-- The four requests of an order that `createPending` commits are accepted by their receivers
exactly when some item of the order has a price to pay. -/
theorem requests_acceptable_iff {isUUID : String → Bool} (huuid : isUUID gen.publicId = true)
    (h : (OrderPlaceCommandHandler.createPending hash gen input buyer key).run s = .ok (s', order)) :
    ∀ row, s'.workflowOutbox = row :: s.workflowOutbox →
      (Acceptable isUUID row.input ↔ ∃ item ∈ input.items, 0 < s.payable item.offerId) := by
  intro row hrow
  rcases placed_of_createPending h with rfl | hplaced
  · have hlen := congrArg List.length hrow
    rw [List.length_cons] at hlen
    omega
  · rw [hplaced.workflow] at hrow
    obtain rfl := (List.cons.inj hrow).1
    rw [hplaced.acceptable_iff huuid, total_pos_iff]

end

/-- One offer, number 3, at a given price. -/
def oneOffer (price : Amount) : Tables where
  offers id := if id = 3 then some ⟨price, none, .uah, false, nofun⟩ else none
  recipients := []
  orders := []
  lines := []
  outbox := []
  workflowOutbox := []

theorem samplePrice_lt : 150 < 10 ^ 12 := by decide

theorem sampleOffer_positive : 0 < 3 := by decide

def oneItem : OrderCreateInput where
  recipient := ⟨"A", ⟨.ua, "0501234567", "+380501234567", "501234567"⟩, ⟨"street", "city", none⟩⟩
  items := [⟨3, 2, by decide, by decide⟩]
  currency := .uah
  items_notEmpty := by decide

def sampleGenerated : Generated := ⟨1, 1, "3f2504e0-4f89-41d3-9a0c-0305e82c3301", 1, 1_500⟩

def sampleBuyer : OrderBuyer := ⟨"9b2d4c1e-8a37-4f5d-b6e0-2c71f3a9d845", 7⟩

/-- A polynomial in the characters, of 64 bits. -/
def plainHash (text : String) : Int := text.toList.foldl (fun hash c => (hash * 31 + c.toNat) % 2 ^ 64) 0

/-- Five groups of hexadecimal digits, as `isUUID` asks of any version. -/
def hasUuidShape (text : String) : Bool :=
  (text.toList.splitOn '-').map List.length == [8, 4, 4, 4, 12] &&
    text.toList.all fun c => c == '-' || c.isDigit || ('a' ≤ c.toLower && c.toLower ≤ 'f')

/-- A free offer makes an order whose total is `0.00`. -/
theorem requests_acceptable_refuted : ¬ ∀ (isUUID : String → Bool) gen input buyer key s s' order row,
    isUUID gen.publicId = true →
    (OrderPlaceCommandHandler.createPending plainHash gen input buyer key).run s = .ok (s', order) →
    s'.workflowOutbox = row :: s.workflowOutbox → Acceptable isUUID row.input := by
  intro hclaim
  have hall := hclaim hasUuidShape sampleGenerated oneItem sampleBuyer none
    (oneOffer ⟨0, by decide⟩) _ _ _ (by decide) rfl rfl
  have hcharge := hall.charge
  revert hcharge
  decide

theorem requests_acceptable_iff_priced : ∃ s' order row,
    (OrderPlaceCommandHandler.createPending plainHash sampleGenerated oneItem sampleBuyer none).run
      (oneOffer ⟨150, by decide⟩) = .ok (s', order) ∧
    s'.workflowOutbox = [row] ∧ Acceptable hasUuidShape row.input := by
  have huuid : hasUuidShape sampleGenerated.publicId = true := by decide
  have hrun : ∃ s' order, (OrderPlaceCommandHandler.createPending plainHash sampleGenerated oneItem sampleBuyer
      none).run (oneOffer ⟨150, by decide⟩) = .ok (s', order) ∧ ∃ row, s'.workflowOutbox = [row] :=
    ⟨_, _, rfl, _, rfl⟩
  obtain ⟨s', order, hrun, row, hrow⟩ := hrun
  have hpriced : ∃ item ∈ oneItem.items, 0 < (oneOffer ⟨150, by decide⟩).payable item.offerId :=
    ⟨_, List.mem_cons_self, by decide⟩
  exact ⟨s', order, row, hrun, hrow, (requests_acceptable_iff huuid hrun row hrow).mpr hpriced⟩

end MarketplaceApi.Placement
