import MarketplaceApi.Placement.Saga

/-!
# The stock of a placement

The phase of the order's reservations at each position of the workflow, whatever attempts of
its reserve and release are processed and when.
-/
namespace MarketplaceApi.Placement

open Durable Messaging Transition Txn
open Stock.StockReservationRepository (activeOffers)

section
variable (key : String → Nat) (input : OrderPlaceWorkflowInput)

/-- The items as the reserve handler receives them. -/
def orderItems : List Stock.Item :=
  (OrderPlaceMessageService.toStockReserveRequest input.orderPublicId input.items).data.items.filterMap
    SellerOfferGateway.item?

/-- The gateway accepts the items. -/
def ItemsValid : Prop := SellerOfferGateway.isValidItems
  (OrderPlaceMessageService.toStockReserveRequest input.orderPublicId input.items).data.items = true

/-- The order is to hold nothing any more: its reserve was rejected, or its release confirmed. -/
def GivenUp (h : Heard) : Prop :=
  (∃ e, (.reserveStock input.orderPublicId input.items, .error e) ∈ h ∧
    toFailureType e = some .insufficientStock) ∨ (.releaseStock input.orderPublicId, .ok ()) ∈ h

structure StockPhase (s : Stock.Tables) (p : Stock.Phase) : Prop where
  phase : Stock.InPhase (key input.orderPublicId) (orderItems input) s p
  valid : p = .unreserved ∨ ItemsValid input
  represented : Stock.Represented s

structure Held (sent : List Activity) (h : Heard) (p : Stock.Phase) : Prop where
  wanted : ¬ GivenUp input h
  unreleased : .releaseStock input.orderPublicId ∉ sent
  held : p = .held

def StockAt (sent : List Activity) (h : Heard) (p : Stock.Phase) : Stage → Prop
  | .reserving => ¬ GivenUp input h ∧ .releaseStock input.orderPublicId ∉ sent ∧ p ≠ .released
  | .charging => Held input sent h p
  | .paying => Held input sent h p
  | .paid => Held input sent h p
  | .refunding e => Held input sent h p ∧ toFailureType e ≠ some .insufficientStock
  | .releasing _ => ¬ GivenUp input h
  | .failing _ => GivenUp input h
  | .failed _ => GivenUp input h
  | .thrown _ => True

def StockInv (st : Stage) (sent : List Activity) (h : Heard) (w : World) : Prop :=
  ∃ p, StockPhase key input w.stock p ∧ StockAt input sent h p st

/-- The answer is one the activity can end with; a reserve that succeeded has left its rows. -/
structure StockAnswered (st : Stage) (r : Except ActivityError Unit) (w : World) : Prop where
  ends : ∀ c a, Stage.call input st = some (c, a) → Ends a r
  rows : st = .reserving → r = .ok () → ItemsValid input ∧
    ∀ item ∈ orderItems input, w.stock.hasRow (key input.orderPublicId) item.offerId = true

end

section
variable {isUUID : String → Bool} {key : String → Nat} {input : OrderPlaceWorkflowInput} {st : Stage}
  {c : Bool} {a : Activity} {r : Except ActivityError Unit} {w w' : World} {sent : List Activity}
  {h : Heard} {p p' : Stock.Phase} {s s' : Stock.Tables} {e : ActivityError} {q : Stock.Request}

theorem item?_some {item : StockReserveRequest.Item} {i : Stock.Item}
    (hi : SellerOfferGateway.item? item = some i) :
    (i.offerId : Int) = item.offerId ∧ (i.quantity : Int) = item.quantity := by
  unfold SellerOfferGateway.item? at hi
  split at hi
  · rename_i hvalid
    obtain ⟨⟨_, hoffer⟩, _, hquantity⟩ := SellerOfferGateway.isValidItem_iff.mp hvalid
    cases hi
    exact ⟨Int.toNat_of_nonneg (Int.le_of_lt hoffer), Int.toNat_of_nonneg (Int.le_of_lt hquantity)⟩
  · cases hi

theorem mem_orderItems {i : Stock.Item} : i ∈ orderItems input ↔ ∃ item ∈ input.items,
    SellerOfferGateway.item? ⟨item.offerId, item.quantity⟩ = some i := by
  unfold orderItems OrderPlaceMessageService.toStockReserveRequest
  simp only [List.mem_filterMap, List.mem_map]
  constructor
  · rintro ⟨_, ⟨item, hin, rfl⟩, hi⟩
    exact ⟨item, hin, hi⟩
  · rintro ⟨item, hin, hi⟩
    exact ⟨_, ⟨item, hin, rfl⟩, hi⟩

/-- Decoding keeps the offers of the order pairwise distinct. -/
theorem orderItems_nodup (hn : (input.items.map OrderPlaceItem.offerId).Nodup) :
    ((orderItems input).map Stock.Item.offerId).Nodup := by
  unfold orderItems OrderPlaceMessageService.toStockReserveRequest
  simp only
  generalize input.items = items at hn
  induction items with
  | nil => exact List.nodup_nil
  | cons item items ih =>
    rw [List.map_cons, List.nodup_cons] at hn
    rw [List.map_cons, List.filterMap_cons]
    have hrest := ih hn.2
    cases hi : SellerOfferGateway.item? ⟨item.offerId, item.quantity⟩ with
    | none => exact hrest
    | some i =>
      rw [List.map_cons, List.nodup_cons]
      refine ⟨fun hin => hn.1 ?_, hrest⟩
      obtain ⟨j, hj, hoffer⟩ := List.mem_map.mp hin
      obtain ⟨_, hmem, hitem⟩ := List.mem_filterMap.mp hj
      obtain ⟨other, hother, rfl⟩ := List.mem_map.mp hmem
      have hi' := (item?_some hi).1
      have hj' := (item?_some hitem).1
      refine List.mem_map.mpr ⟨other, hother, ?_⟩
      simp only at hi' hj'
      omega

/-- A valid order has all its items in the request. -/
theorem orderItems_complete (hv : ItemsValid input) : ∀ item ∈ input.items, ∃ i ∈ orderItems input,
    i.offerId = item.offerId ∧ i.quantity = item.quantity := by
  unfold ItemsValid SellerOfferGateway.isValidItems at hv
  rw [Bool.and_eq_true, List.all_eq_true] at hv
  intro item hin
  have hvalid := hv.2 ⟨item.offerId, item.quantity⟩ (List.mem_map_of_mem hin)
  have hi : SellerOfferGateway.item? ⟨item.offerId, item.quantity⟩ =
      some ⟨(item.offerId : Int).toNat, (item.quantity : Int).toNat, by
        have hpos := SellerOfferGateway.isValidItem_iff.mp hvalid
        simp only at hpos
        omega⟩ := dif_pos hvalid
  exact ⟨_, mem_orderItems.mpr ⟨item, hin, hi⟩, Int.toNat_natCast _, Int.toNat_natCast _⟩

theorem orderItems_ne_nil (hv : ItemsValid input) : orderItems input ≠ [] := by
  have hcomplete := orderItems_complete hv
  unfold ItemsValid SellerOfferGateway.isValidItems OrderPlaceMessageService.toStockReserveRequest at hv
  rw [Bool.and_eq_true] at hv
  cases hitems : input.items with
  | nil =>
    rw [hitems] at hv
    cases hv.1
  | cons item items =>
    obtain ⟨i, hi, _⟩ := hcomplete item (hitems ▸ List.mem_cons_self)
    exact List.ne_nil_of_mem hi

theorem reserveRequest_some (hq : reserveRequest isUUID key input.orderPublicId input.items = some q) :
    ItemsValid input ∧ q = .reserve (key input.orderPublicId) (orderItems input) := by
  unfold reserveRequest SellerOfferGateway.reserveRequest? at hq
  split at hq
  · rename_i haccepts
    cases hq
    unfold SellerOfferGateway.acceptsReserve at haccepts
    simp only [Bool.and_eq_true] at haccepts
    exact ⟨haccepts.2, rfl⟩
  · cases hq

theorem releaseRequest_some (hq : releaseRequest isUUID key input.orderPublicId = some q) :
    q = .release (key input.orderPublicId) := by
  unfold releaseRequest SellerOfferGateway.releaseRequest? at hq
  split at hq
  · cases hq
    rfl
  · cases hq

theorem StockPhase.reserve {status : Stock.Status} (hn : (input.items.map OrderPlaceItem.offerId).Nodup)
    (hp : StockPhase key input s p)
    (hq : reserveRequest isUUID key input.orderPublicId input.items = some q)
    (hrun : (Stock.handler q).run s = .ok (s', status)) : StockPhase key input s' p.reserve := by
  obtain ⟨hvalid, rfl⟩ := reserveRequest_some hq
  have hcommit := Stock.commit_of_run hrun
  exact ⟨hp.phase.reserve (orderItems_nodup hn) hcommit, Or.inr hvalid, hp.represented.commit hcommit⟩

theorem StockPhase.release {status : Stock.Status} (hn : (input.items.map OrderPlaceItem.offerId).Nodup)
    (hp : StockPhase key input s p) (hq : releaseRequest isUUID key input.orderPublicId = some q)
    (hrun : (Stock.handler q).run s = .ok (s', status)) : StockPhase key input s' p.release := by
  obtain rfl := releaseRequest_some hq
  have hvalid : p.release = .unreserved ∨ ItemsValid input := by
    rcases hp.valid with rfl | hvalid
    · exact Or.inl rfl
    · exact Or.inr hvalid
  exact ⟨hp.phase.release (orderItems_nodup hn) (Stock.released_of_run hrun), hvalid,
    hp.represented.commit (Stock.commit_of_run hrun)⟩

theorem StockPhase.other {status : Stock.Status} (hp : StockPhase key input s p)
    (hq : q.order ≠ key input.orderPublicId) (hc : Stock.Commit q s s' status) :
    StockPhase key input s' p :=
  ⟨hp.phase.other hc hq, hp.valid, hp.represented.commit hc⟩

/-- Whether the order holds stock is read off its phase. -/
theorem StockPhase.active (hp : StockPhase key input s p) :
    activeOffers s (key input.orderPublicId) = [] ↔ p ≠ .held := by
  refine hp.phase.activeOffers_iff fun hheld => ?_
  rcases hp.valid with rfl | hvalid
  · cases hheld
  · exact orderItems_ne_nil hvalid

theorem givenUp_cons : GivenUp input ((a, r) :: h) ↔ GivenUp input [(a, r)] ∨ GivenUp input h := by
  unfold GivenUp
  simp only [List.mem_cons, List.not_mem_nil, or_false]
  constructor
  · intro hg
    rcases hg with ⟨e, heq | hin, htype⟩ | heq | hin
    · exact Or.inl (Or.inl ⟨e, heq, htype⟩)
    · exact Or.inr (Or.inl ⟨e, hin, htype⟩)
    · exact Or.inl (Or.inr heq)
    · exact Or.inr (Or.inr hin)
  · intro hg
    rcases hg with (⟨e, heq, htype⟩ | heq) | ⟨e, hin, htype⟩ | hin
    · exact Or.inl ⟨e, Or.inl heq, htype⟩
    · exact Or.inr (Or.inl heq)
    · exact Or.inl ⟨e, Or.inr hin, htype⟩
    · exact Or.inr (Or.inr hin)

theorem givenUp_reserve : GivenUp input [(.reserveStock input.orderPublicId input.items, .error e)] ↔
    toFailureType e = some .insufficientStock := by
  unfold GivenUp
  simp

theorem givenUp_release : GivenUp input [(.releaseStock input.orderPublicId, .ok ())] :=
  Or.inr List.mem_cons_self

/-- Only a failed reserve and a confirmed release give an order up. -/
theorem not_givenUp_cons (hg : ¬ GivenUp input h)
    (hreserve : ∀ e, r = .error e → a ≠ .reserveStock input.orderPublicId input.items)
    (hrelease : a ≠ .releaseStock input.orderPublicId) : ¬ GivenUp input ((a, r) :: h) := by
  rw [givenUp_cons]
  rintro ((⟨e, heq, _⟩ | heq) | hold)
  · cases List.mem_singleton.mp heq
    exact hreserve e rfl rfl
  · cases List.mem_singleton.mp heq
    exact hrelease rfl
  · exact hg hold

theorem Held.later (hh : Held input sent h p)
    (hreserve : ∀ e, r = .error e → a ≠ .reserveStock input.orderPublicId input.items)
    (hrelease : a ≠ .releaseStock input.orderPublicId) : Held input sent ((a, r) :: h) p :=
  ⟨not_givenUp_cons hh.wanted hreserve hrelease, hh.unreleased, hh.held⟩

theorem Held.attempt (hh : Held input sent h p) (ha : .releaseStock input.orderPublicId ≠ a) :
    Held input (a :: sent) h p :=
  ⟨hh.wanted, List.not_mem_cons_of_ne_of_not_mem ha hh.unreleased, hh.held⟩

theorem Held.reserve (hh : Held input sent h p) : Held input sent h p.reserve := by
  obtain ⟨hw, hu, rfl⟩ := hh
  exact ⟨hw, hu, rfl⟩

/-- A reserve that was sent, processed at any time. -/
theorem StockAt.reserve (hm : StockAt input sent h p st) : StockAt input sent h p.reserve st := by
  cases st with
  | reserving =>
    obtain ⟨hg, hu, hne⟩ := hm
    refine ⟨hg, hu, ?_⟩
    cases p with
    | unreserved => nofun
    | held => nofun
    | released => exact absurd rfl hne
  | charging => exact Held.reserve hm
  | paying => exact Held.reserve hm
  | paid => exact Held.reserve hm
  | refunding e => exact ⟨hm.1.reserve, hm.2⟩
  | _ => exact hm

/-- A release that was sent, processed at any time. -/
theorem StockAt.release (hm : StockAt input sent h p st) (hsent : .releaseStock input.orderPublicId ∈ sent) :
    StockAt input sent h p.release st := by
  cases st with
  | reserving => exact absurd hsent hm.2.1
  | charging => exact absurd hsent hm.unreleased
  | paying => exact absurd hsent hm.unreleased
  | paid => exact absurd hsent hm.unreleased
  | refunding e => exact absurd hsent hm.1.unreleased
  | _ => exact hm

theorem StockAt.attempt (hm : StockAt input sent h p st) (hcall : Stage.call input st = some (c, a)) :
    StockAt input (a :: sent) h p st := by
  cases st with
  | reserving =>
    cases hcall
    exact ⟨hm.1, List.not_mem_cons_of_ne_of_not_mem nofun hm.2.1, hm.2.2⟩
  | charging =>
    cases hcall
    exact Held.attempt hm nofun
  | paying =>
    cases hcall
    exact Held.attempt hm nofun
  | refunding e =>
    cases hcall
    exact ⟨hm.1.attempt nofun, hm.2⟩
  | paid => cases hcall
  | failed e => cases hcall
  | thrown e => cases hcall
  | _ => exact hm

theorem stockAt_releasing (hg : ¬ GivenUp input h) (htype : toFailureType e ≠ some .insufficientStock) :
    StockAt input sent h p (Stage.unheld e) := by
  unfold Stage.unheld
  rw [if_neg htype]
  exact hg

/-- A call that came back leads to its next position. -/
theorem StockAt.next (hm : StockAt input sent h p st) (hp : StockPhase key input w.stock p)
    (hcall : Stage.call input st = some (c, a)) (hans : StockAnswered key input st r w) :
    StockAt input sent ((a, r) :: h) p (Stage.next st r) := by
  have hends := hans.ends c a hcall
  cases st with
  | reserving =>
    cases hcall
    obtain ⟨hg, hu, hne⟩ := hm
    cases r with
    | ok u =>
      obtain ⟨hvalid, hrows⟩ := hans.rows rfl rfl
      refine ⟨not_givenUp_cons hg nofun nofun, hu, ?_⟩
      cases p with
      | held => rfl
      | released => exact absurd rfl hne
      | unreserved =>
        obtain ⟨i, hi⟩ := List.exists_mem_of_ne_nil _ (orderItems_ne_nil hvalid)
        have hrow := hrows i hi
        rw [hp.phase.no_row] at hrow
        cases hrow
    | error e =>
      by_cases htype : toFailureType e = some .insufficientStock
      · simp only [Stage.next, Stage.unheld, if_pos htype]
        exact givenUp_cons.mpr (Or.inl (givenUp_reserve.mpr htype))
      · refine stockAt_releasing (fun hgiven => ?_) htype
        rcases givenUp_cons.mp hgiven with hnew | hold
        · exact htype (givenUp_reserve.mp hnew)
        · exact hg hold
  | charging =>
    cases hcall
    cases r with
    | ok u => exact Held.later hm nofun nofun
    | error e =>
      have hheld : Held input sent ((Activity.chargeCustomer (toCharge input), .error e) :: h) p :=
        Held.later hm nofun nofun
      simp only [Stage.next]
      split
      · exact stockAt_releasing hheld.wanted hends.2
      · exact ⟨hheld, hends.2⟩
  | paying =>
    cases hcall
    cases r with
    | ok u => exact Held.later hm nofun nofun
    | error e => trivial
  | refunding e =>
    cases hcall
    cases r with
    | ok u => exact stockAt_releasing (not_givenUp_cons hm.1.wanted nofun nofun) hm.2
    | error e' => trivial
  | releasing e =>
    cases hcall
    cases r with
    | ok u => exact givenUp_cons.mpr (Or.inl givenUp_release)
    | error e' => trivial
  | failing e =>
    cases hcall
    cases r with
    | ok u => exact givenUp_cons.mpr (Or.inr hm)
    | error e' => trivial
  | paid => cases hcall
  | failed e => cases hcall
  | thrown e => cases hcall

theorem hasRow_perform {o f : Nat} (hrow : w.stock.hasRow o f = true) :
    (perform isUUID key a w).1.stock.hasRow o f = true := by
  have grows : ∀ (reply : Except Stock.Failure Stock.Status → Reply) (q : Option Stock.Request),
      (deliver Stock.handler reply q w.stock).1.hasRow o f = true := by
    intro reply q
    rcases deliver_run Stock.handler reply q w.stock with hsame | ⟨q', s', status, _, hrun, hs'⟩
    · rw [hsame]
      exact hrow
    · rw [hs']
      exact Stock.hasRow_commit (Stock.commit_of_run hrun) hrow
  cases a with
  | reserveStock id items => exact grows _ _
  | releaseStock id => exact grows _ _
  | _ => exact hrow

theorem StockInv.perform (hn : (input.items.map OrderPlaceItem.offerId).Nodup)
    (hi : StockInv key input st sent h w) (hcalls : (chart input).Calls a) (hsent : a ∈ sent) :
    StockInv key input st sent h (perform isUUID key a w).1 := by
  obtain ⟨p, hp, hm⟩ := hi
  obtain ⟨st₀, c, hcall⟩ := hcalls
  have hcall' : Stage.call input st₀ = some (c, a) := hcall
  cases st₀ with
  | reserving =>
    cases hcall'
    rcases deliver_run Stock.handler reserveReply (reserveRequest isUUID key input.orderPublicId input.items)
      w.stock with hsame | ⟨q, s', status, hq, hrun, hs'⟩
    · refine ⟨p, ?_, hm⟩
      change StockPhase key input (deliver _ _ _ _).1 p
      rw [hsame]
      exact hp
    · refine ⟨p.reserve, ?_, hm.reserve⟩
      change StockPhase key input (deliver _ _ _ _).1 p.reserve
      rw [hs']
      exact hp.reserve hn hq hrun
  | releasing e =>
    cases hcall'
    rcases deliver_run Stock.handler anyReply (releaseRequest isUUID key input.orderPublicId) w.stock with
      hsame | ⟨q, s', status, hq, hrun, hs'⟩
    · refine ⟨p, ?_, hm⟩
      change StockPhase key input (deliver _ _ _ _).1 p
      rw [hsame]
      exact hp
    · refine ⟨p.release, ?_, hm.release hsent⟩
      change StockPhase key input (deliver _ _ _ _).1 p.release
      rw [hs']
      exact hp.release hn hq hrun
  | charging =>
    cases hcall'
    exact ⟨p, hp, hm⟩
  | paying =>
    cases hcall'
    exact ⟨p, hp, hm⟩
  | refunding e =>
    cases hcall'
    exact ⟨p, hp, hm⟩
  | failing e =>
    cases hcall'
    exact ⟨p, hp, hm⟩
  | paid => cases hcall'
  | failed e => cases hcall'
  | thrown e => cases hcall'

theorem stockAnswered_perform (hcall : Stage.call input st = some (c, a))
    (hr : (perform isUUID key a w).2 = some r) : StockAnswered key input st r (perform isUUID key a w).1 := by
  refine ⟨fun c' a' hcall' => ?_, ?_⟩
  · rw [hcall] at hcall'
    cases hcall'
    exact ends_perform hr
  · rintro rfl rfl
    cases hcall
    have hd : (deliver Stock.handler reserveReply
      (reserveRequest isUUID key input.orderPublicId input.items) w.stock).2 = some (.ok ()) := hr
    obtain ⟨q, s', status, hq, hrun, hs'⟩ := deliver_ok reserveReply_error hd
    obtain ⟨hvalid, rfl⟩ := reserveRequest_some hq
    refine ⟨hvalid, fun item hitem => ?_⟩
    change (deliver Stock.handler reserveReply (reserveRequest isUUID key input.orderPublicId input.items)
      w.stock).1.hasRow _ _ = true
    rw [hs']
    have hcommit := Stock.commit_of_run hrun
    cases hcommit with
    | reserved hres => exact Stock.hasRow_of_reserved hres item ((List.mem_insertionSort _).mpr hitem)

theorem stock_invariant (isUUID : String → Bool) (key : String → Nat) (input : OrderPlaceWorkflowInput)
    (hn : (input.items.map OrderPlaceItem.offerId).Nodup) :
    (chart input).Invariant (receivers isUUID key input) (StockInv key input) (StockAnswered key input) where
  attempt hcall hi := by
    obtain ⟨p, hp, hm⟩ := hi
    exact ⟨p, hp, hm.attempt hcall⟩
  perform hcalls hsent hi := hi.perform hn hcalls hsent
  answer hcall _ hr := stockAnswered_perform hcall hr
  keep _ _ _ hf := ⟨hf.ends, fun hst hok =>
    ⟨(hf.rows hst hok).1, fun item hitem => hasRow_perform ((hf.rows hst hok).2 item hitem)⟩⟩
  settle hcall hi hf := by
    obtain ⟨p, hp, hm⟩ := hi
    exact ⟨p, hp, hm.next hp hcall hf⟩
  fail {st c a sent h w e} hcall hfail hi := by
    obtain ⟨p, hp, hm⟩ := hi
    refine ⟨p, hp, hm.next hp hcall ⟨fun c' a' hcall' => ?_, nofun⟩⟩
    have heq : some (c, a) = some (c', a') := hcall.symm.trans hcall'
    cases heq
    exact hfail.1
  env he hi := by
    obtain ⟨p, hp, hm⟩ := hi
    cases he with
    | account _ _ => exact ⟨p, hp, hm⟩
    | stock hq hc => exact ⟨p, hp.other hq hc, hm⟩
  envKeep he hf := by
    cases he with
    | account _ _ => exact ⟨hf.ends, hf.rows⟩
    | stock _ hc => exact ⟨hf.ends, fun hst hok =>
        ⟨(hf.rows hst hok).1, fun item hitem => Stock.hasRow_commit hc ((hf.rows hst hok).2 item hitem)⟩⟩

end

end MarketplaceApi.Placement
