import MarketplaceApi.Stock.Representation

/-!
# When a reserve takes stock

Run alone with pairwise distinct offers, a reserve looks at every item as the table stood when it
began: the items before it have changed other offers. So it rejects exactly the items whose offer
is missing, or else exactly those that do not fit, and otherwise holds every new one.
-/
namespace MarketplaceApi.Stock

open Txn StockReservationRepository

/-- The offer as `findByIds` finds it. -/
def found (s : Tables) (id : Nat) : Option FoundOffer :=
  match s.offers id with
  | some offer => if offer.deleted then none else some ⟨id, offer.onHandQuantity, offer.reservedQuantity⟩
  | none => none

/-- The items whose offer does not exist or is deleted. -/
def missing (s : Tables) (items : List Item) : List Item := items.filter fun item => (found s item.offerId).isNone

/-- The item has no row of the order and more than its offer has free. -/
def Tables.unfit (s : Tables) (o : Uuid) (item : Item) : Bool :=
  !s.hasRow o item.offerId && !((s.offers item.offerId).any fun offer => offer.covers item.quantity)

/-- `onHandQuantity - reservedQuantity` -/
def Tables.free (s : Tables) (f : Nat) : Int :=
  match s.offers f with
  | some offer => offer.onHandQuantity - offer.reservedQuantity
  | none => 0

/-- No item has a row of the order yet, and every offer can hold its item. -/
def Takes (o : Uuid) (items : List Item) (s : Tables) : Prop := ∀ item ∈ items,
  s.hasRow o item.offerId = false ∧ item.offerId ≤ maxInteger ∧ item.quantity ≤ maxInteger ∧
    ∃ offer, s.offers item.offerId = some offer ∧ offer.covers item.quantity = true

/-- The ids of the items are values of an `integer` column. -/
def IdsInRange (items : List Item) : Prop := ∀ item ∈ items, item.offerId ≤ maxInteger

/-- Their quantities are. -/
def QuantitiesInRange (items : List Item) : Prop := ∀ item ∈ items, item.quantity ≤ maxInteger

/-- `SellerOffer_reserved_range` -/
def Tables.Checked (s : Tables) : Prop := ∀ f offer, s.offers f = some offer →
  0 ≤ offer.reservedQuantity ∧ offer.reservedQuantity ≤ offer.onHandQuantity

section
variable {o : Uuid} {f : Nat} {items : List Item} {s s' : Tables} {offer : Offer} {item : Item}

theorem run_insert {quantity : Nat} (hno : s.hasRow o f = false) (hoffer : s.offers f = some offer) :
    (StockReservationRepository.insert o f quantity).run s =
      .ok (s.addReservation ⟨o, f, quantity, .reserved⟩, true) := by
  unfold StockReservationRepository.insert
  rw [Prog.bind_eq, Prog.run_bind, Prog.run_look, hno]
  change (Prog.bind _ _).run s = _
  rw [Prog.run_bind, Prog.run_look, hoffer]
  simp only [Except.bind, Option.isNone_some, Bool.false_eq_true, if_false]
  rw [Prog.run_exec, hno]
  rfl

theorem run_insert_found {quantity : Nat} (hrow : s.hasRow o f = true) :
    (StockReservationRepository.insert o f quantity).run s = .ok (s, false) := by
  unfold StockReservationRepository.insert
  rw [Prog.bind_eq, Prog.run_bind, Prog.run_look, hrow]
  rfl

theorem run_hold {quantity : Nat} (hoffer : s.offers f = some offer) (hcov : offer.covers quantity = true)
    (hnn : 0 ≤ offer.reservedQuantity) : (hold f quantity).run s =
      .ok (s.setOffer f { offer with reservedQuantity := offer.reservedQuantity + quantity }, true) := by
  have hle : (quantity : Int) ≤ offer.onHandQuantity - offer.reservedQuantity := by
    simp only [Offer.covers, Bool.and_eq_true, decide_eq_true_eq] at hcov
    exact hcov.2
  unfold hold
  rw [Prog.run_exec]
  simp only [hoffer, hcov, if_true]
  unfold Tables.setReserved
  rw [if_pos ⟨by omega, by omega⟩]

def Item.reservation (item : Item) (o : Uuid) : Reservation := ⟨o, item.offerId, item.quantity, .reserved⟩

/-- What the statement of one item leaves. -/
def Tables.next (s : Tables) (o : Uuid) (item : Item) : Tables :=
  match s.offers item.offerId with
  | none => s
  | some offer =>
    if s.hasRow o item.offerId then s
    else if offer.covers item.quantity then heldOne s o item offer
    else s.addReservation (item.reservation o)

/-- What it reports. -/
def outcomeOf (s : Tables) (o : Uuid) (item : Item) : Outcome where
  offerId := item.offerId
  inserted := !s.hasRow o item.offerId
  held := !s.hasRow o item.offerId && (s.offers item.offerId).any fun offer => offer.covers item.quantity

/-- What the statements report, one after the other. -/
def outcomesOf (s : Tables) (o : Uuid) : List Item → List Outcome
  | [] => []
  | item :: items => outcomeOf s o item :: outcomesOf (s.next o item) o items

theorem failed_outcomeOf : (outcomeOf s o item).failed = s.unfit o item := by
  unfold Outcome.failed outcomeOf Tables.unfit
  cases s.hasRow o item.offerId <;> rfl

/-- The offer is there, removed or not. -/
def Tables.Stocks (s : Tables) (f : Nat) : Prop := ∃ offer, s.offers f = some offer ∧ 0 ≤ offer.reservedQuantity

theorem next_eq (hoffer : s.offers item.offerId = some offer) : s.next o item =
    if s.hasRow o item.offerId then s
    else if offer.covers item.quantity then heldOne s o item offer
    else s.addReservation (item.reservation o) := by
  unfold Tables.next
  rw [hoffer]

theorem run_reserveOne (hq : item.quantity ≤ maxInteger) (hstocks : s.Stocks item.offerId) :
    (reserveOne o item).run s = .ok (s.next o item, outcomeOf s o item) := by
  obtain ⟨offer, hoffer, hnn⟩ := hstocks
  rw [next_eq hoffer]
  unfold reserveOne outcomeOf
  rw [if_neg (Nat.not_lt.mpr hq), Prog.bind_eq, Prog.run_bind, Prog.run_look, hoffer]
  change ((StockReservationRepository.insert _ _ _).bind _).run s = _
  rw [Prog.run_bind, Option.any_some]
  cases hrow : s.hasRow o item.offerId with
  | true =>
    rw [run_insert_found hrow]
    rfl
  | false =>
    rw [run_insert hrow hoffer]
    cases hcov : offer.covers item.quantity with
    | false => rfl
    | true =>
      have hhold := run_hold (s := s.addReservation (item.reservation o)) hoffer hcov hnn
      simp only [Except.bind, Bool.and_self, if_true]
      rw [Prog.bind_eq, Prog.run_bind]
      change ((hold item.offerId item.quantity).run (s.addReservation (item.reservation o))).bind _ = _
      rw [hhold]
      rfl

/-- The statement of one item leaves the other offers and their rows. -/
theorem next_other {g : Nat} (hne : g ≠ item.offerId) :
    (s.next o item).offers g = s.offers g ∧ (s.next o item).hasRow o g = s.hasRow o g := by
  have hkey : (item.reservation o).hasKey o g = false := decide_eq_false fun h => hne h.2.symm
  have hadd : (s.addReservation (item.reservation o)).hasRow o g = s.hasRow o g := by
    rw [hasRow_addReservation, hkey, Bool.false_or]
  unfold Tables.next
  split
  · exact ⟨rfl, rfl⟩
  · split
    · exact ⟨rfl, rfl⟩
    · split
      · exact ⟨setOffer_other _ _ hne, hadd⟩
      · exact ⟨rfl, hadd⟩

/-- After it the order has a row. -/
theorem next_hasRow (hstocks : s.Stocks item.offerId) : (s.next o item).hasRow o item.offerId = true := by
  obtain ⟨offer, hoffer, _⟩ := hstocks
  have hkey : (item.reservation o).hasKey o item.offerId = true := decide_eq_true ⟨rfl, rfl⟩
  have hadd : (s.addReservation (item.reservation o)).hasRow o item.offerId = true := by
    rw [hasRow_addReservation, hkey, Bool.true_or]
  unfold Tables.next
  rw [hoffer]
  dsimp only
  split
  · assumption
  · split
    · exact hadd
    · exact hadd

theorem Tables.Stocks.next {f : Nat} (h : s.Stocks f) : (s.next o item).Stocks f := by
  by_cases hf : f = item.offerId
  · subst hf
    obtain ⟨offer, hoffer, hnn⟩ := h
    unfold Tables.next
    rw [hoffer]
    dsimp only
    split
    · exact ⟨offer, hoffer, hnn⟩
    · split
      · refine ⟨_, setOffer_self .., ?_⟩
        change 0 ≤ offer.reservedQuantity + (item.quantity : Int)
        omega
      · exact ⟨offer, hoffer, hnn⟩
  · obtain ⟨offer, hoffer, hnn⟩ := h
    exact ⟨offer, (next_other hf).1.trans hoffer, hnn⟩

/-- The statements of all items. -/
theorem run_reserveEach (hq : QuantitiesInRange items) (h : ∀ item ∈ items, s.Stocks item.offerId) :
    ∃ s', (reserveEach o items).run s = .ok (s', outcomesOf s o items) := by
  induction items generalizing s with
  | nil => exact ⟨s, rfl⟩
  | cons item items ih =>
    obtain ⟨s', heach⟩ := ih (fun i hi => hq i (List.mem_cons_of_mem _ hi)) (s := s.next o item)
      fun i hi => (h i (List.mem_cons_of_mem _ hi)).next
    refine ⟨s', ?_⟩
    unfold reserveEach
    rw [Prog.bind_eq, Prog.run_bind, run_reserveOne (hq item List.mem_cons_self) (h item List.mem_cons_self)]
    change ((reserveEach o items).bind _).run _ = _
    rw [Prog.run_bind, heach]
    rfl

/-- A quantity that no `integer` column can hold fails its statement. -/
theorem run_reserveEach_overflow (hq : ¬ QuantitiesInRange items) (h : ∀ item ∈ items, s.Stocks item.offerId) :
    (reserveEach o items).run s = .error .integerOverflow := by
  induction items generalizing s with
  | nil => exact absurd (fun i hi => absurd hi List.not_mem_nil) hq
  | cons item items ih =>
    unfold reserveEach
    rw [Prog.bind_eq, Prog.run_bind]
    by_cases hitem : item.quantity ≤ maxInteger
    · have hrest : ¬ QuantitiesInRange items := fun hrest => hq (List.forall_mem_cons.mpr ⟨hitem, hrest⟩)
      have heach := ih hrest (s := s.next o item) fun i hi => (h i (List.mem_cons_of_mem _ hi)).next
      rw [run_reserveOne hitem (h item List.mem_cons_self)]
      change ((reserveEach o items).bind _).run _ = _
      rw [Prog.run_bind, heach]
      rfl
    · unfold reserveOne
      rw [if_pos (Nat.lt_of_not_le hitem)]
      rfl

/-- With pairwise distinct offers every item is decided on the table as it stood at the start. -/
theorem outcomesOf_eq (hn : (items.map Item.offerId).Nodup) : outcomesOf s o items = items.map (outcomeOf s o) := by
  induction items generalizing s with
  | nil => rfl
  | cons item items ih =>
    rw [List.map_cons, List.nodup_cons] at hn
    have hsame : items.map (outcomeOf (s.next o item) o) = items.map (outcomeOf s o) := by
      refine List.map_congr_left fun i hi => ?_
      have hne : i.offerId ≠ item.offerId := fun heq => hn.1 (heq ▸ List.mem_map_of_mem hi)
      unfold outcomeOf
      rw [(next_other hne).1, (next_other hne).2]
    unfold outcomesOf
    rw [ih hn.2, hsame, List.map_cons]

theorem run_findByIds {ids : List Nat} (hids : ∀ id ∈ ids, id ≤ maxInteger) :
    (SellerOfferRepository.findByIds ids).run s = .ok (s, ids.filterMap (found s)) := by
  unfold SellerOfferRepository.findByIds
  have hany : ids.any (fun id => decide (maxInteger < id)) = false := by
    simpa using hids
  rw [hany, if_neg Bool.false_ne_true]
  exact Prog.run_look _ _

theorem found_id {id : Nat} {offer : FoundOffer} (h : found s id = some offer) :
    offer.id = id ∧ (offer.onHandQuantity : Int) - offer.reservedQuantity = s.free id := by
  unfold found at h
  unfold Tables.free
  split at h
  · rename_i x hx
    split at h
    · cases h
    · cases h
      exact ⟨rfl, rfl⟩
  · cases h

theorem mem_found {ids : List Nat} {id : Nat} (hid : id ∈ ids) :
    id ∈ (ids.filterMap (found s)).map FoundOffer.id ↔ (found s id).isSome := by
  constructor
  · intro h
    obtain ⟨offer, hin, hsame⟩ := List.mem_map.mp h
    obtain ⟨other, _, hother⟩ := List.mem_filterMap.mp hin
    rw [← hsame, (found_id hother).1, hother]
    rfl
  · intro h
    obtain ⟨offer, hoffer⟩ := Option.isSome_iff_exists.mp h
    exact List.mem_map.mpr ⟨offer, List.mem_filterMap.mpr ⟨id, hid, hoffer⟩, (found_id hoffer).1⟩

/-- The report of a rejection gives what was free at the start. -/
theorem available_found {ids : List Nat} {id : Nat} (hid : id ∈ ids) (h : (found s id).isSome) :
    SellerOfferStockReserveCommandHandler.available (ids.filterMap (found s)) id = s.free id := by
  unfold SellerOfferStockReserveCommandHandler.available
  split
  · rename_i offer hfind
    have hsame : offer.id = id := by simpa using List.find?_some hfind
    obtain ⟨other, _, hother⟩ := List.mem_filterMap.mp (List.mem_of_find?_eq_some hfind)
    obtain ⟨hid', hfree⟩ := found_id hother
    rw [hfree, ← hid', hsame]
  · rename_i hfind
    obtain ⟨offer, hin, hsame⟩ := List.mem_map.mp ((mem_found hid).mpr h)
    exact absurd (by simpa using hsame) (List.find?_eq_none.mp hfind offer hin)

/-- The order the statements run in. -/
abbrev sorted (items : List Item) : List Item := items.insertionSort fun left right => left.offerId ≤ right.offerId

theorem sorted_perm (items : List Item) : (sorted items).Perm items :=
  List.perm_insertionSort (fun left right : Item => left.offerId ≤ right.offerId) items

theorem run_offers (hids : IdsInRange items) : (SellerOfferRepository.findByIds (items.map Item.offerId)).run s =
    .ok (s, (items.map Item.offerId).filterMap (found s)) := by
  apply run_findByIds
  intro id hid
  obtain ⟨item, hitem, rfl⟩ := List.mem_map.mp hid
  exact hids item hitem

theorem missing_eq : (items.filter fun item =>
    item.offerId ∉ ((items.map Item.offerId).filterMap (found s)).map FoundOffer.id) = missing s items := by
  refine List.filter_congr fun item hitem => ?_
  rw [Bool.eq_iff_iff, decide_eq_true_eq, mem_found (List.mem_map_of_mem hitem)]
  cases found s item.offerId <;> simp

theorem stocks_of_none_missing (hcheck : s.Checked) (hnone : missing s items = []) :
    ∀ item ∈ items, s.Stocks item.offerId := by
  intro item hitem
  have hfound := List.filter_eq_nil_iff.mp hnone item hitem
  unfold found at hfound
  cases hoffer : s.offers item.offerId with
  | none =>
    rw [hoffer] at hfound
    exact absurd rfl hfound
  | some offer => exact ⟨offer, hoffer, (hcheck _ _ hoffer).1⟩

/-- The items that are the first of their offer and do not fit it. -/
def Tables.Short (s : Tables) (o : Uuid) (items : List Item) : Prop := ∃ item ∈ items,
  (items.find? fun other => other.offerId = item.offerId) = some item ∧ s.unfit o item = true

/-- Where an offer is named again its row is there, so the first item decides. -/
theorem short_iff (h : ∀ item ∈ items, s.Stocks item.offerId) :
    (∃ outcome ∈ outcomesOf s o items, outcome.failed = true) ↔ s.Short o items := by
  induction items generalizing s with
  | nil => simp [outcomesOf, Tables.Short]
  | cons first items ih =>
    have hrest : ∀ item ∈ items, (s.next o first).Stocks item.offerId := fun i hi =>
      (h i (List.mem_cons_of_mem _ hi)).next
    have hrow := next_hasRow (o := o) (h first List.mem_cons_self)
    have hunfit : ∀ item : Item, item.offerId ≠ first.offerId → (s.next o first).unfit o item = s.unfit o item := by
      intro item hne
      unfold Tables.unfit
      rw [(next_other hne).1, (next_other hne).2]
    have hfit : ∀ item : Item, item.offerId = first.offerId → (s.next o first).unfit o item = false := by
      intro item heq
      unfold Tables.unfit
      rw [heq, hrow]
      rfl
    unfold outcomesOf
    rw [List.exists_mem_cons_iff, failed_outcomeOf, ih hrest]
    unfold Tables.Short
    rw [List.exists_mem_cons_iff]
    constructor
    · rintro (hfirst | ⟨item, hitem, hfind, hitemUnfit⟩)
      · exact Or.inl ⟨by simp, hfirst⟩
      · have hne : item.offerId ≠ first.offerId := fun heq => by simp [hfit item heq] at hitemUnfit
        refine Or.inr ⟨item, hitem, ?_, hunfit item hne ▸ hitemUnfit⟩
        rw [List.find?_cons_of_neg (by simpa using Ne.symm hne)]
        exact hfind
    · rintro (⟨_, hfirst⟩ | ⟨item, hitem, hfind, hitemUnfit⟩)
      · exact Or.inl hfirst
      · by_cases heq : first.offerId = item.offerId
        · rw [List.find?_cons_of_pos (by simpa using heq)] at hfind
          obtain rfl := Option.some.inj hfind
          exact Or.inl hitemUnfit
        · rw [List.find?_cons_of_neg (by simpa using heq)] at hfind
          exact Or.inr ⟨item, hitem, hfind, (hunfit item (Ne.symm heq)).symm ▸ hitemUnfit⟩

/-- The look at the offers fails on an id that is too large. -/
theorem execute_ids (hids : ¬ IdsInRange items) :
    (SellerOfferStockReserveCommandHandler.execute o items).run s = .error .integerOverflow := by
  have hany : (items.map Item.offerId).any (fun id => decide (maxInteger < id)) = true := by
    obtain ⟨item, hlarge⟩ := not_forall.mp hids
    obtain ⟨hitem, hlarge⟩ := Classical.not_imp.mp hlarge
    exact List.any_eq_true.mpr ⟨item.offerId, List.mem_map_of_mem hitem, decide_eq_true (Nat.lt_of_not_le hlarge)⟩
  unfold SellerOfferStockReserveCommandHandler.execute SellerOfferRepository.findByIds
  rw [hany, if_pos rfl]
  rfl

theorem execute_missing (hids : IdsInRange items) (hsome : missing s items ≠ []) :
    (SellerOfferStockReserveCommandHandler.execute o items).run s =
      .error (.rejected .offerNotFound ((missing s items).map fun item => (item, 0))) := by
  unfold SellerOfferStockReserveCommandHandler.execute
  rw [Prog.bind_eq, Prog.run_bind, run_offers hids]
  have hlength : 0 < (missing s items).length := List.length_pos_iff.mpr hsome
  simp only [Except.bind, missing_eq, gt_iff_lt, if_pos hlength]
  rfl

theorem execute_overflow (hids : IdsInRange items) (hcheck : s.Checked) (hnone : missing s items = [])
    (hq : ¬ QuantitiesInRange items) :
    (SellerOfferStockReserveCommandHandler.execute o items).run s = .error .integerOverflow := by
  have hperm := sorted_perm items
  have hsorted : ¬ QuantitiesInRange (sorted items) := fun h => hq fun item hitem => h item (hperm.mem_iff.mpr hitem)
  have heach := run_reserveEach_overflow (o := o) hsorted fun item hitem =>
    stocks_of_none_missing hcheck hnone item (hperm.mem_iff.mp hitem)
  unfold SellerOfferStockReserveCommandHandler.execute
  rw [Prog.bind_eq, Prog.run_bind, run_offers hids]
  simp only [Except.bind, missing_eq, hnone, List.length_nil, gt_iff_lt, Nat.lt_irrefl, if_false]
  rw [Prog.bind_eq, Prog.run_bind]
  unfold StockReservationRepository.reserve
  rw [heach]
  rfl

/-- What the statements reported as failed. -/
def failedIds (s : Tables) (o : Uuid) (items : List Item) : List Nat :=
  ((outcomesOf s o (sorted items)).filter Outcome.failed).map Outcome.offerId

/-- The statements have run, and the verdict is on their outcomes. -/
theorem execute_reported (hids : IdsInRange items) (hq : QuantitiesInRange items) (hcheck : s.Checked)
    (hnone : missing s items = []) : ∃ s', (SellerOfferStockReserveCommandHandler.execute o items).run s =
      if failedIds s o items = [] then .ok (s', ())
      else .error (.rejected .insufficientStock
        ((items.filter fun item => item.offerId ∈ failedIds s o items).map fun item =>
          (item, s.free item.offerId))) := by
  have hperm := sorted_perm items
  have hq' : QuantitiesInRange (sorted items) := fun item hitem => hq item (hperm.mem_iff.mp hitem)
  obtain ⟨s', heach⟩ := run_reserveEach (o := o) hq' fun item hitem =>
    stocks_of_none_missing hcheck hnone item (hperm.mem_iff.mp hitem)
  refine ⟨s', ?_⟩
  have hlive : ∀ item ∈ items, (found s item.offerId).isSome := by
    intro item hitem
    have hno := List.filter_eq_nil_iff.mp hnone item hitem
    rwa [Option.isNone_iff_eq_none, ← ne_eq, Option.ne_none_iff_isSome] at hno
  unfold SellerOfferStockReserveCommandHandler.execute
  rw [Prog.bind_eq, Prog.run_bind, run_offers hids]
  simp only [Except.bind, missing_eq, hnone, List.length_nil, gt_iff_lt, Nat.lt_irrefl, if_false]
  rw [Prog.bind_eq, Prog.run_bind]
  unfold StockReservationRepository.reserve
  rw [heach]
  simp only [Except.bind]
  change (if (failedIds s o items).length = 0 then _ else _ : Program Unit).run s' = _
  by_cases hfit : failedIds s o items = []
  · rw [if_pos (List.length_eq_zero_iff.mpr hfit), if_pos hfit]
    rfl
  · rw [if_neg fun hzero => hfit (List.length_eq_zero_iff.mp hzero), if_neg hfit]
    refine congrArg (fun rows => Except.error (Failure.rejected .insufficientStock rows)) ?_
    refine List.map_congr_left fun item hin => ?_
    have hitem := (List.mem_filter.mp hin).1
    rw [available_found (List.mem_map_of_mem hitem) (hlive item hitem)]

/-- The first items of each offer keep their order. -/
theorem find_sorted (f : Nat) : ((sorted items).find? fun item => item.offerId = f) =
    items.find? fun item => item.offerId = f := by
  have hpair : (items.filter fun item => item.offerId = f).Pairwise fun left right => left.offerId ≤ right.offerId := by
    refine List.pairwise_filter.mpr (List.pairwise_of_forall_mem_list fun left _ right _ hleft hright => ?_)
    have hl := of_decide_eq_true hleft
    have hr := of_decide_eq_true hright
    omega
  have hsub : (items.filter fun item => item.offerId = f).Sublist (sorted items) :=
    List.sublist_insertionSort hpair List.filter_sublist
  have hfiltered := hsub.filter fun item => decide (item.offerId = f)
  have htwice : ((items.filter fun item => item.offerId = f).filter fun item => item.offerId = f) =
      items.filter fun item => item.offerId = f := by simp
  rw [htwice] at hfiltered
  have hsame := hfiltered.eq_of_length ((sorted_perm items).filter fun item => item.offerId = f).length_eq.symm
  rw [← List.head?_filter, ← List.head?_filter, hsame]

/-- Some statement fails if an offer is short. -/
theorem failedIds_iff (hcheck : s.Checked) (hnone : missing s items = []) :
    failedIds s o items ≠ [] ↔ s.Short o items := by
  have hperm := sorted_perm items
  have hstocks : ∀ item ∈ sorted items, s.Stocks item.offerId := fun item hitem =>
    stocks_of_none_missing hcheck hnone item (hperm.mem_iff.mp hitem)
  have hshort := short_iff (o := o) hstocks
  have hsorted : s.Short o (sorted items) ↔ s.Short o items := by
    unfold Tables.Short
    refine exists_congr fun item => ?_
    rw [hperm.mem_iff, find_sorted]
  rw [← hsorted, ← hshort]
  unfold failedIds
  rw [ne_eq, List.map_eq_nil_iff, List.filter_eq_nil_iff]
  simp

theorem failedIds_eq (hn : (items.map Item.offerId).Nodup) {item : Item} (hitem : item ∈ items) :
    item.offerId ∈ failedIds s o items ↔ s.unfit o item = true := by
  have hperm := sorted_perm items
  unfold failedIds
  rw [outcomesOf_eq ((hperm.map Item.offerId).nodup_iff.mpr hn)]
  constructor
  · intro h
    obtain ⟨outcome, hin, hid⟩ := List.mem_map.mp h
    obtain ⟨hmem, hfailed⟩ := List.mem_filter.mp hin
    obtain ⟨other, hother, rfl⟩ := List.mem_map.mp hmem
    obtain rfl := List.inj_on_of_nodup_map hn (hperm.mem_iff.mp hother) hitem hid
    exact failed_outcomeOf ▸ hfailed
  · intro hunfit
    refine List.mem_map.mpr ⟨outcomeOf s o item, List.mem_filter.mpr ⟨?_, failed_outcomeOf ▸ hunfit⟩, rfl⟩
    exact List.mem_map_of_mem (hperm.mem_iff.mpr hitem)

/-- With pairwise distinct offers the verdict is on the items that do not fit. -/
theorem execute_decided (hn : (items.map Item.offerId).Nodup) (hids : IdsInRange items) (hq : QuantitiesInRange items)
    (hcheck : s.Checked) (hnone : missing s items = []) :
    ∃ s', (SellerOfferStockReserveCommandHandler.execute o items).run s =
      if items.filter (s.unfit o) = [] then .ok (s', ())
      else .error (.rejected .insufficientStock
        ((items.filter (s.unfit o)).map fun item => (item, s.free item.offerId))) := by
  have hitems : (items.filter fun item => item.offerId ∈ failedIds s o items) = items.filter (s.unfit o) := by
    refine List.filter_congr fun item hitem => ?_
    rw [Bool.eq_iff_iff, decide_eq_true_eq]
    exact failedIds_eq hn hitem
  have hnil : failedIds s o items = [] ↔ items.filter (s.unfit o) = [] := by
    rw [← not_iff_not, ← ne_eq, failedIds_iff hcheck hnone, List.filter_eq_nil_iff, not_forall₂]
    refine exists_congr fun item => ⟨fun ⟨hitem, _, hunfit⟩ => ⟨hitem, not_not.mpr hunfit⟩, fun ⟨hitem, hunfit⟩ => ?_⟩
    obtain ⟨other, hother⟩ := Option.isSome_iff_exists.mp
      ((List.find?_isSome (p := fun other : Item => other.offerId = item.offerId)).mpr ⟨item, hitem, by simp⟩)
    obtain rfl := List.inj_on_of_nodup_map hn (List.mem_of_find?_eq_some hother) hitem
      (by simpa using List.find?_some hother)
    exact ⟨hitem, hother, not_not.mp hunfit⟩
  obtain ⟨s', hrun⟩ := execute_reported (o := o) hids hq hcheck hnone
  refine ⟨s', hrun.trans ?_⟩
  rw [hitems]
  exact if_congr hnil rfl rfl

/-- Where no item has a row, a reserve commits if every item is covered. -/
theorem run_reserve (hn : (items.map Item.offerId).Nodup) (hs : Represented s) (h : Takes o items s) :
    ∃ s', (handler (.reserve o items)).run s = .ok (s', .reserved) := by
  have hids : IdsInRange items := fun item hitem => (h item hitem).2.1
  have hq : QuantitiesInRange items := fun item hitem => (h item hitem).2.2.1
  have hnone : missing s items = [] := by
    refine List.filter_eq_nil_iff.mpr fun item hitem => ?_
    obtain ⟨_, _, _, offer, hoffer, hcov⟩ := h item hitem
    simp only [Offer.covers, Bool.and_eq_true, Bool.not_eq_true'] at hcov
    unfold found
    simp [hoffer, hcov.1]
  have hfit : items.filter (s.unfit o) = [] := by
    refine List.filter_eq_nil_iff.mpr fun item hitem => ?_
    obtain ⟨_, _, _, offer, hoffer, hcov⟩ := h item hitem
    unfold Tables.unfit
    simp [hoffer, hcov]
  obtain ⟨s', hrun⟩ := execute_decided hn hids hq hs.range hnone
  rw [if_pos hfit] at hrun
  refine ⟨s', ?_⟩
  change ((SellerOfferStockReserveCommandHandler.execute o items).bind _).run s = _
  rw [Prog.run_bind, hrun]
  rfl

theorem quantity_of_run {outcomes : List Outcome} (h : (reserveEach o items).run s = .ok (s', outcomes)) :
    QuantitiesInRange items := by
  induction items generalizing s s' outcomes with
  | nil => exact nofun
  | cons item items ih =>
    obtain ⟨m, outcome, hone, hrest⟩ := Prog.run_bind_ok h
    obtain ⟨m', rest, heach, _⟩ := Prog.run_bind_ok hrest
    intro i hi
    rcases List.mem_cons.mp hi with rfl | hi
    · unfold reserveOne at hone
      split at hone
      · cases hone
      · omega
    · exact ih heach i hi

/-- A reserve that commits where no item has a row found every item covered at the start. -/
theorem reserved_covers (h : Reserved o items s s') (hn : (items.map Item.offerId).Nodup)
    (hno : ∀ item ∈ items, s.hasRow o item.offerId = false) :
    ∀ item ∈ items, ∃ offer, s.offers item.offerId = some offer ∧ offer.covers item.quantity = true := by
  induction h with
  | nil => exact nofun
  | skip hrow _ _ =>
    rw [hno _ List.mem_cons_self] at hrow
    cases hrow
  | @hold item items s s' offer _ hoffer hcov _ _ ih =>
    rw [List.map_cons, List.nodup_cons] at hn
    have hne : ∀ i ∈ items, i.offerId ≠ item.offerId := fun i hi heq => hn.1 (heq ▸ List.mem_map_of_mem hi)
    intro i hi
    rcases List.mem_cons.mp hi with rfl | hi
    · exact ⟨offer, hoffer, hcov⟩
    · have hrest := ih hn.2 fun j hj => by
        rw [hasRow_heldOne, hno j (List.mem_cons_of_mem _ hj)]
        simp [(hne j hj).symm]
      obtain ⟨x, hx, hxcov⟩ := hrest i hi
      rw [heldOne, setOffer_other _ _ (hne i hi)] at hx
      exact ⟨x, hx, hxcov⟩

theorem commit_of_run {q : Request} {status : Status} (h : (handler q).run s = .ok (s', status)) :
    Commit q s s' status :=
  commit_of_exec (Exec.of_run (isolation.le_refl s) (safe_handler s q) h)

/-- A reserve that commits had values of `integer` columns. -/
theorem inRange_of_run (h : (SellerOfferStockReserveCommandHandler.execute o items).run s = .ok (s', ())) :
    IdsInRange items ∧ QuantitiesInRange items := by
  have hperm := sorted_perm items
  obtain ⟨m, offers, hfind, hexec⟩ := Prog.run_bind_ok h
  unfold SellerOfferRepository.findByIds at hfind
  split at hfind
  · cases hfind
  · rename_i hids
    dsimp only at hexec
    split at hexec
    · cases hexec
    · obtain ⟨m', outcomes, heach, _⟩ := Prog.run_bind_ok hexec
      refine ⟨fun item hitem => ?_, fun item hitem => quantity_of_run heach item (hperm.mem_iff.mpr hitem)⟩
      by_contra hlarge
      refine hids (List.any_eq_true.mpr ⟨item.offerId, List.mem_map_of_mem hitem, ?_⟩)
      exact decide_eq_true (Nat.lt_of_not_le hlarge)

/-- It commits only then. -/
theorem takes_of_run {status : Status} (hn : (items.map Item.offerId).Nodup)
    (hno : ∀ item ∈ items, s.hasRow o item.offerId = false)
    (h : (handler (.reserve o items)).run s = .ok (s', status)) : Takes o items s := by
  have hperm := sorted_perm items
  obtain ⟨_, _, hexec, _⟩ := Prog.run_bind_ok h
  obtain ⟨hids, hq⟩ := inRange_of_run hexec
  have hcommit := commit_of_run h
  cases hcommit with
  | reserved hr =>
    have hcovers := reserved_covers hr ((hperm.map Item.offerId).nodup_iff.mpr hn)
      fun item hitem => hno item (hperm.mem_iff.mp hitem)
    intro item hitem
    exact ⟨hno item hitem, hids item hitem, hq item hitem, hcovers item (hperm.mem_iff.mpr hitem)⟩

end

end MarketplaceApi.Stock
