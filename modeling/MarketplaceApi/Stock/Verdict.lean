import MarketplaceApi.Stock.Replies

/-!
# All or nothing

What one reserve does to the tables and to its caller, whatever rows the order has already.
-/
namespace MarketplaceApi.Stock

open Txn
open SellerOfferStockReserveCommandHandler (execute)

/-- The items without a row of the order. -/
def Tables.newItems (s : Tables) (o : Uuid) (items : List Item) : List Item :=
  items.filter fun item => !s.hasRow o item.offerId

/-- The new items have their rows, and their offers hold as much more. -/
structure Taken (o : Uuid) (items : List Item) (s s' : Tables) : Prop where
  reservations : s'.reservations.Perm ((s.newItems o items).map (fun item => item.reservation o) ++ s.reservations)
  offers : ∀ f, s'.offers f = (s.offers f).map fun offer =>
    { offer with reservedQuantity := offer.reservedQuantity + requested (s.newItems o items) f }

/-- The item's offer is there, and an item without a row fits it. -/
def Tables.Fits (s : Tables) (o : Uuid) (item : Item) : Prop :=
  ∃ offer, s.offers item.offerId = some offer ∧ offer.deleted = false ∧
    (s.hasRow o item.offerId = false → (item.quantity : Int) ≤ offer.onHandQuantity - offer.reservedQuantity)

/-- The ids are values of an `integer` column and, unless an offer is missing, so are the quantities. -/
def Tables.InRange (s : Tables) (items : List Item) : Prop :=
  IdsInRange items ∧ (missing s items = [] → QuantitiesInRange items)

/-- The rejection of a request that cannot be met. -/
def rejection (s : Tables) (o : Uuid) (items : List Item) : Failure :=
  if missing s items = [] then
    .rejected .insufficientStock ((items.filter (s.unfit o)).map fun item => (item, s.free item.offerId))
  else .rejected .offerNotFound ((missing s items).map fun item => (item, 0))

structure Verdict (o : Uuid) (items : List Item) (s : Tables) : Prop where
  accepts : ((execute o items).transact s).2 = .ok () ↔ ∀ item ∈ items, s.Fits o item
  taken : ∀ s', (execute o items).transact s = (s', .ok ()) →
    Taken o items s s' ∧ (execute o items).transact s' = (s', .ok ())
  rejects : ∀ s' e, (execute o items).transact s = (s', .error e) → s' = s ∧ e = rejection s o items

section
variable {o : Uuid} {items : List Item} {s s' : Tables} {item : Item}

theorem newItems_cons : s.newItems o (item :: items) =
    if s.hasRow o item.offerId then s.newItems o items else item :: s.newItems o items := by
  unfold Tables.newItems
  rw [List.filter_cons]
  cases s.hasRow o item.offerId <;> rfl

theorem newItems_heldOne {offer : Offer} (hne : ∀ i ∈ items, i.offerId ≠ item.offerId) :
    (heldOne s o item offer).newItems o items = s.newItems o items := by
  refine List.filter_congr fun i hi => ?_
  rw [hasRow_heldOne, decide_eq_false fun h => hne i hi h.2.symm, Bool.false_or]

/-- A reserve that went through has taken the new items. -/
theorem Reserved.taken (h : Reserved o items s s') (hn : (items.map Item.offerId).Nodup) : Taken o items s s' := by
  induction h with
  | nil => exact ⟨List.Perm.refl _, fun f => by simp [Tables.newItems, requested]⟩
  | @skip item items s s' hrow _ ih =>
    have htail := ih (List.nodup_cons.mp hn).2
    have hnew : s.newItems o (item :: items) = s.newItems o items := by rw [newItems_cons, if_pos hrow]
    exact ⟨hnew ▸ htail.reservations, hnew ▸ htail.offers⟩
  | @hold item items s s' offer hno hoffer _ _ _ ih =>
    rw [List.map_cons, List.nodup_cons] at hn
    have hne : ∀ i ∈ items, i.offerId ≠ item.offerId := fun i hi heq => hn.1 (heq ▸ List.mem_map_of_mem hi)
    have htail := ih hn.2
    have hnew : s.newItems o (item :: items) = item :: s.newItems o items := by rw [newItems_cons, hno]; rfl
    refine ⟨?_, fun f => ?_⟩
    · rw [hnew, List.map_cons, List.cons_append]
      refine htail.reservations.trans ?_
      rw [newItems_heldOne hne]
      exact List.perm_middle
    · rw [htail.offers, newItems_heldOne hne, hnew, requested_cons]
      by_cases hf : item.offerId = f
      · subst hf
        have hzero : requested (s.newItems o items) item.offerId = 0 := by
          refine requested_eq_zero.mpr fun hin => ?_
          obtain ⟨i, hi, heq⟩ := List.mem_map.mp hin
          exact hne i (List.mem_filter.mp hi).1 heq
        rw [hzero, if_pos rfl, hoffer]
        simp [heldOne]
      · rw [if_neg hf, Nat.zero_add, heldOne, setOffer_other _ _ (Ne.symm hf)]
        rfl

theorem Taken.perm {sorted : List Item} (h : Taken o sorted s s') (hp : sorted.Perm items) : Taken o items s s' := by
  have hnew : (s.newItems o sorted).Perm (s.newItems o items) := hp.filter _
  refine ⟨h.reservations.trans ((hnew.map _).append_right _), fun f => ?_⟩
  rw [h.offers, requested_perm hnew]

theorem found_taken (h : Taken o items s s') (f : Nat) : (found s' f).isNone = (found s f).isNone := by
  unfold found
  rw [h.offers]
  cases s.offers f with
  | none => rfl
  | some offer => cases hdel : offer.deleted <;> simp [hdel]

theorem missing_taken (h : Taken o items s s') : missing s' items = missing s items :=
  List.filter_congr fun item _ => found_taken h item.offerId

/-- Nothing is missing and nothing unfit exactly when every item fits. -/
theorem fits_iff : (missing s items = [] ∧ items.filter (s.unfit o) = []) ↔ ∀ item ∈ items, s.Fits o item := by
  unfold missing
  rw [List.filter_eq_nil_iff, List.filter_eq_nil_iff, ← forall₂_and]
  refine forall₂_congr fun item _ => ?_
  unfold found Tables.unfit Tables.Fits
  cases s.offers item.offerId with
  | none => simp
  | some offer => cases hdel : offer.deleted <;> cases s.hasRow o item.offerId <;> simp [Offer.covers, hdel]

theorem transact_of_ok (h : (execute o items).run s = .ok (s', ())) : (execute o items).transact s = (s', .ok ()) :=
  Prog.transact_ok.mpr h

theorem transact_of_error {e : Failure} (h : (execute o items).run s = .error e) :
    (execute o items).transact s = (s, .error e) := by
  unfold Prog.transact
  rw [h]

/-- A request that every item fits goes through. -/
theorem execute_fits (hn : (items.map Item.offerId).Nodup) (hrange : s.InRange items) (hcheck : s.Checked)
    (hfits : ∀ item ∈ items, s.Fits o item) : ∃ s', (execute o items).run s = .ok (s', ()) ∧
      Reserved o (sorted items) s s' := by
  obtain ⟨hnone, hfit⟩ := fits_iff.mpr hfits
  obtain ⟨s', hrun⟩ := execute_decided (o := o) hn hrange.1 (hrange.2 hnone) hcheck hnone
  rw [if_pos hfit] at hrun
  have hhandled : (handler (.reserve o items)).run s = .ok (s', .reserved) := by
    change ((execute o items).bind _).run s = _
    rw [Prog.run_bind, hrun]
    rfl
  have hcommit := commit_of_run hhandled
  cases hcommit with
  | reserved h => exact ⟨s', hrun, h⟩

/-- Otherwise it is rejected. -/
theorem execute_rejects (hn : (items.map Item.offerId).Nodup) (hrange : s.InRange items) (hcheck : s.Checked)
    (hno : ¬ ∀ item ∈ items, s.Fits o item) : (execute o items).run s = .error (rejection s o items) := by
  unfold rejection
  by_cases hnone : missing s items = []
  · have hunfit : items.filter (s.unfit o) ≠ [] := fun hfit => hno (fits_iff.mp ⟨hnone, hfit⟩)
    obtain ⟨_, hrun⟩ := execute_decided (o := o) hn hrange.1 (hrange.2 hnone) hcheck hnone
    rw [hrun, if_neg hunfit, if_pos hnone]
  · rw [execute_missing hrange.1 hnone, if_neg hnone]

/-- The same request again finds all its rows. -/
theorem execute_again (hn : (items.map Item.offerId).Nodup) (hrange : s.InRange items) (hcheck : s.Checked)
    (hnone : missing s items = []) (h : Reserved o (sorted items) s s') :
    (execute o items).transact s' = (s', .ok ()) := by
  have hperm := sorted_perm items
  have htaken := (h.taken ((hperm.map Item.offerId).nodup_iff.mpr hn)).perm hperm
  have hrows : ∀ item ∈ items, s'.hasRow o item.offerId = true := fun item hitem =>
    hasRow_of_reserved h item (hperm.mem_iff.mpr hitem)
  have hfit : items.filter (s'.unfit o) = [] := by
    refine List.filter_eq_nil_iff.mpr fun item hitem => ?_
    unfold Tables.unfit
    rw [hrows item hitem]
    exact Bool.false_ne_true
  have hrange' : s'.InRange items := ⟨hrange.1, fun _ => hrange.2 hnone⟩
  obtain ⟨s'', hrun, hagain⟩ := execute_fits hn hrange' (h.checked hcheck)
    (fits_iff.mp ⟨(missing_taken htaken).trans hnone, hfit⟩)
  have hsame : s'' = s' := reserved_of_rows hagain fun item hitem => hrows item (hperm.mem_iff.mp hitem)
  exact transact_of_ok (hsame ▸ hrun)

/-- A number that no `integer` column can hold. -/
theorem execute_large (hcheck : s.Checked) (hlarge : ¬ s.InRange items) :
    (execute o items).run s = .error .integerOverflow := by
  by_cases hids : IdsInRange items
  · have hmissing : ¬ (missing s items = [] → QuantitiesInRange items) := fun h => hlarge ⟨hids, h⟩
    obtain ⟨hnone, hq⟩ := Classical.not_imp.mp hmissing
    exact execute_overflow hids hcheck hnone hq
  · exact execute_ids hids

/-- A reserve with pairwise distinct offers, run as one transaction, is decided exactly and is all or nothing. With
an id that no `integer` column can hold, or such a quantity of an offer that is there, it fails on the type of the
column and changes nothing. -/
theorem reserve_decides (hn : (items.map Item.offerId).Nodup) (hcheck : s.Checked) :
    (s.InRange items → Verdict o items s) ∧
      (¬ s.InRange items → (execute o items).transact s = (s, .error .integerOverflow)) := by
  refine ⟨fun hrange => ?_, fun hlarge => ?_⟩
  · by_cases hfits : ∀ item ∈ items, s.Fits o item
    · obtain ⟨s', hrun, hreserved⟩ := execute_fits hn hrange hcheck hfits
      have htransact := transact_of_ok hrun
      have hperm := sorted_perm items
      refine ⟨iff_of_true (by rw [htransact]) hfits, fun t ht => ?_, fun t e ht => ?_⟩
      · obtain ⟨rfl, _⟩ := Prod.mk.inj (htransact.symm.trans ht)
        exact ⟨(hreserved.taken ((hperm.map Item.offerId).nodup_iff.mpr hn)).perm hperm,
          execute_again hn hrange hcheck (fits_iff.mpr hfits).1 hreserved⟩
      · cases (htransact.symm.trans ht)
    · have htransact := transact_of_error (execute_rejects hn hrange hcheck hfits)
      refine ⟨iff_of_false (by rw [htransact]; exact nofun) hfits, fun t ht => ?_, fun t e ht => ?_⟩
      · cases (htransact.symm.trans ht)
      · obtain ⟨rfl, he⟩ := Prod.mk.inj (htransact.symm.trans ht)
        exact ⟨rfl, (Except.error.inj he).symm⟩
  · exact transact_of_error (execute_large hcheck hlarge)

end

/-- Eleven of an offer that has ten are rejected with what is free. -/
theorem reserve_decides_rejected : Verdict 1 [⟨3, 11, by decide⟩] (.stocked 3 10) ∧
    rejection (.stocked 3 10) 1 [⟨3, 11, by decide⟩] =
      .rejected .insufficientStock [(⟨3, 11, by decide⟩, 10)] :=
  ⟨(reserve_decides (by decide) (represented_stocked 3 10).range).1
    ⟨List.forall_mem_singleton.mpr (by decide), fun _ => List.forall_mem_singleton.mpr (by decide)⟩, by decide⟩

/-- A quantity beyond the `integer` column fails in the statement, without a report. -/
theorem reserve_decides_refuted : ¬ ∀ o items s, (items.map Item.offerId).Nodup → s.Checked → Verdict o items s := by
  intro hclaim
  have hverdict := hclaim 1 [⟨3, 2147483648, by decide⟩] (.stocked 3 10) (by decide) (represented_stocked 3 10).range
  have hrun : (execute 1 [⟨3, 2147483648, by decide⟩]).transact (.stocked 3 10) =
      (.stocked 3 10, .error .integerOverflow) := rfl
  have he := (hverdict.rejects _ _ hrun).2
  revert he
  decide

end MarketplaceApi.Stock
