import MarketplaceApi.Stock.Isolation

/-!
# What a committed stock request can have done

A reserve that commits has, item by item in offer order, found its row or inserted and held
it; a release has, offer by offer, given back what was still active. A release only knows
the offers of its snapshot.
-/
namespace MarketplaceApi.Stock

open Txn

def heldOne (s : Tables) (orderPublicId : Uuid) (item : Item) (offer : Offer) : Tables :=
  (s.addReservation ⟨orderPublicId, item.offerId, item.quantity, .reserved⟩).setOffer item.offerId
    { offer with reservedQuantity := offer.reservedQuantity + item.quantity }

def releasedOne (s : Tables) (orderPublicId : Uuid) (offerId quantity : Nat) (offer : Offer) : Tables :=
  (s.setReleased orderPublicId offerId).setOffer offerId
    { offer with reservedQuantity := offer.reservedQuantity - quantity }

inductive Reserved (orderPublicId : Uuid) : List Item → Tables → Tables → Prop
  | nil {s} : Reserved orderPublicId [] s s
  | skip {item : Item} {items s s'} : s.hasRow orderPublicId item.offerId = true →
      Reserved orderPublicId items s s' → Reserved orderPublicId (item :: items) s s'
  | hold {item : Item} {items s s' offer} : s.hasRow orderPublicId item.offerId = false →
      s.offers item.offerId = some offer → offer.covers item.quantity = true →
      (0 : Int) ≤ offer.reservedQuantity + item.quantity →
      Reserved orderPublicId items (heldOne s orderPublicId item offer) s' →
      Reserved orderPublicId (item :: items) s s'

inductive Released (orderPublicId : Uuid) : List Nat → Tables → Tables → Prop
  | nil {s} : Released orderPublicId [] s s
  | skip {offerId offerIds s s'} :
      (∀ r, s.row? orderPublicId offerId = some r → r.active = false) →
      Released orderPublicId offerIds s s' → Released orderPublicId (offerId :: offerIds) s s'
  | release {offerId offerIds s s' r} {offer : Offer} : s.row? orderPublicId offerId = some r →
      r.active = true → s.offers offerId = some offer →
      (0 : Int) ≤ offer.reservedQuantity - r.quantity →
      Released orderPublicId offerIds (releasedOne s orderPublicId offerId r.quantity offer) s' →
      Released orderPublicId (offerId :: offerIds) s s'
  | orphan {offerId offerIds s s' r} : s.row? orderPublicId offerId = some r →
      r.active = true → s.offers offerId = none →
      Released orderPublicId offerIds (s.setReleased orderPublicId offerId) s' →
      Released orderPublicId (offerId :: offerIds) s s'

inductive Commit : Request → Tables → Tables → Status → Prop
  | reserved {orderPublicId items s s'} :
      Reserved orderPublicId (items.insertionSort fun left right => left.offerId ≤ right.offerId) s s' →
      Commit (.reserve orderPublicId items) s s' .reserved
  | released {orderPublicId offerIds s s' n} : Released orderPublicId offerIds s s' →
      Commit (.release orderPublicId) s s' (.released n)

section
variable {b s s' : Tables} {orderPublicId : Uuid} {offerId quantity : Nat}

theorem exec_insert {inserted : Bool}
    (h : Exec isolation b (StockReservationRepository.insert orderPublicId offerId quantity) s s'
      (.ok inserted)) :
    (inserted = true ∧ s.hasRow orderPublicId offerId = false ∧
      s' = s.addReservation ⟨orderPublicId, offerId, quantity, .reserved⟩) ∨
    (inserted = false ∧ s.hasRow orderPublicId offerId = true ∧ s' = s) := by
  obtain ⟨_, m, found, _, hl, hf⟩ := Exec.of_bind h
  obtain ⟨rfl, v, _, hv, hvf⟩ := hl.of_look
  cases found with
  | true =>
    cases hf
    exact Or.inr ⟨rfl, hv.1 _ _ hvf, rfl⟩
  | false =>
    obtain ⟨_, m', missing, _, hl, hf⟩ := Exec.of_bind hf
    obtain ⟨rfl, _⟩ := hl.of_look
    cases missing with
    | true => cases hf
    | false =>
      have he := hf.of_exec
      split at he
      · cases he; exact Or.inr ⟨rfl, ‹_›, rfl⟩
      · rename_i hno
        cases he
        exact Or.inl ⟨rfl, Bool.not_eq_true _ ▸ hno, rfl⟩

theorem setReserved_ok {offer : Offer} {x : Int} {u : Bool}
    (h : s.setReserved offerId offer x = .ok (s', u)) :
    u = true ∧ 0 ≤ x ∧ s' = s.setOffer offerId { offer with reservedQuantity := x } := by
  unfold Tables.setReserved at h
  split at h
  · rename_i hx
    cases h
    exact ⟨rfl, hx.1, rfl⟩
  · cases h

theorem exec_hold {held : Bool}
    (h : Exec isolation b (StockReservationRepository.hold offerId quantity) s s' (.ok held)) :
    (held = true ∧ ∃ offer, s.offers offerId = some offer ∧ offer.covers quantity = true ∧
      0 ≤ offer.reservedQuantity + quantity ∧ s' = s.setOffer offerId
        { offer with reservedQuantity := offer.reservedQuantity + quantity }) ∨
    (held = false ∧ s' = s) := by
  have he := h.of_exec
  cases hoffer : s.offers offerId with
  | none =>
    simp only [hoffer] at he
    cases he
    exact Or.inr ⟨rfl, rfl⟩
  | some offer =>
    simp only [hoffer] at he
    split at he
    · obtain ⟨rfl, hx, rfl⟩ := setReserved_ok he
      exact Or.inl ⟨rfl, offer, rfl, ‹_›, hx, rfl⟩
    · cases he
      exact Or.inr ⟨rfl, rfl⟩

theorem exec_subtract {updated : Bool}
    (h : Exec isolation b (StockReservationRepository.subtract offerId quantity) s s' (.ok updated)) :
    (∃ offer, s.offers offerId = some offer ∧ 0 ≤ offer.reservedQuantity - quantity ∧
      s' = s.setOffer offerId { offer with reservedQuantity := offer.reservedQuantity - quantity }) ∨
    (s.offers offerId = none ∧ s' = s) := by
  have he := h.of_exec
  cases hoffer : s.offers offerId with
  | none =>
    simp only [hoffer] at he
    cases he
    exact Or.inr ⟨rfl, rfl⟩
  | some offer =>
    simp only [hoffer] at he
    obtain ⟨_, hx, rfl⟩ := setReserved_ok he
    exact Or.inl ⟨offer, rfl, hx, rfl⟩

/-- One item that did not fail found its row, or inserted it and held the stock. -/
theorem exec_reserveOne {item : Item} {outcome : Outcome}
    (h : Exec isolation b (StockReservationRepository.reserveOne orderPublicId item) s s' (.ok outcome))
    (hok : outcome.failed = false) :
    (s.hasRow orderPublicId item.offerId = true ∧ s' = s) ∨
    (s.hasRow orderPublicId item.offerId = false ∧ ∃ offer, s.offers item.offerId = some offer ∧
      offer.covers item.quantity = true ∧ 0 ≤ offer.reservedQuantity + item.quantity ∧
      s' = heldOne s orderPublicId item offer) := by
  unfold StockReservationRepository.reserveOne at h
  split at h
  · cases h
  · obtain ⟨_, m, covered, _, hl, hf⟩ := Exec.of_bind h
    obtain ⟨rfl, _⟩ := hl.of_look
    obtain ⟨_, m', inserted, _, hi, hf⟩ := Exec.of_bind hf
    rcases exec_insert hi with ⟨rfl, hno, rfl⟩ | ⟨rfl, hrow, hm⟩
    · cases covered with
      | false =>
        cases hf
        cases hok
      | true =>
        obtain ⟨_, m'', held, _, hh, hr⟩ := Exec.of_bind hf
        cases hr
        rcases exec_hold hh with ⟨rfl, offer, hoffer, hcov, hx, rfl⟩ | ⟨rfl, rfl⟩
        · exact Or.inr ⟨hno, offer, hoffer, hcov, hx, rfl⟩
        · cases hok
    · cases hf
      exact Or.inl ⟨hrow, hm⟩

theorem exec_reserveEach {items : List Item} {outcomes : List Outcome}
    (h : Exec isolation b (StockReservationRepository.reserveEach orderPublicId items) s s' (.ok outcomes))
    (hok : ∀ outcome ∈ outcomes, outcome.failed = false) : Reserved orderPublicId items s s' := by
  induction items generalizing b s outcomes with
  | nil =>
    cases h
    exact .nil
  | cons item items ih =>
    obtain ⟨_, m, outcome, _, ho, hf⟩ := Exec.of_bind h
    obtain ⟨_, m', rest, _, hrest, hr⟩ := Exec.of_bind hf
    cases hr
    have htail := ih hrest fun x hx => hok x (List.mem_cons_of_mem _ hx)
    rcases exec_reserveOne ho (hok _ List.mem_cons_self) with
      ⟨hrow, rfl⟩ | ⟨hno, offer, hoffer, hcov, hx, rfl⟩
    · exact .skip hrow htail
    · exact .hold hno hoffer hcov hx htail

theorem exec_releaseRow {released : Option Nat}
    (h : Exec isolation b (StockReservationRepository.releaseRow orderPublicId offerId) s s' (.ok released)) :
    (∃ r, released = some r.quantity ∧ s.row? orderPublicId offerId = some r ∧ r.active = true ∧
      s' = s.setReleased orderPublicId offerId) ∨
    (released = none ∧ s' = s ∧ ∀ r, s.row? orderPublicId offerId = some r → r.active = false) := by
  have he := h.of_exec
  cases hrow : s.row? orderPublicId offerId with
  | none =>
    simp only [hrow] at he
    cases he
    exact Or.inr ⟨rfl, rfl, nofun⟩
  | some r =>
    simp only [hrow] at he
    split at he
    · cases he
      exact Or.inl ⟨r, rfl, rfl, ‹_›, rfl⟩
    · rename_i hno
      cases he
      refine Or.inr ⟨rfl, rfl, ?_⟩
      rintro _ ⟨⟩
      simpa using hno

theorem exec_releaseEach {offerIds : List Nat} {n : Nat}
    (h : Exec isolation b (StockReservationRepository.releaseEach orderPublicId offerIds) s s' (.ok n)) :
    Released orderPublicId offerIds s s' := by
  induction offerIds generalizing b s n with
  | nil =>
    cases h
    exact .nil
  | cons offerId offerIds ih =>
    obtain ⟨_, m, released, _, hr, hf⟩ := Exec.of_bind h
    rcases exec_releaseRow hr with ⟨r, rfl, hrow, hact, rfl⟩ | ⟨rfl, rfl, hno⟩
    · obtain ⟨_, m', updated, _, hs, hf⟩ := Exec.of_bind hf
      obtain ⟨_, m'', rows, _, hrest, hret⟩ := Exec.of_bind hf
      cases hret
      rcases exec_subtract hs with ⟨offer, hoffer, hx, rfl⟩ | ⟨hnone, rfl⟩
      · exact .release hrow hact hoffer hx (ih hrest)
      · exact .orphan hrow hact hnone (ih hrest)
    · exact .skip hno (ih hf)

/-- Every serial execution of a handler that commits is one of the cases of `Commit`. -/
theorem commit_of_exec {q : Request} {status : Status}
    (h : Exec isolation b (handler q) s s' (.ok status)) : Commit q s s' status := by
  cases q with
  | reserve o items =>
    obtain ⟨_, m, _, _, hx, hr⟩ := Exec.of_bind h
    cases hr
    obtain ⟨_, m', offers, _, hl, hf⟩ := Exec.of_bind hx
    have hm : m' = s := by
      unfold SellerOfferRepository.findByIds at hl
      split at hl
      · cases hl
      · exact hl.of_look.1
    subst hm
    dsimp only at hf
    split at hf
    · cases hf
    · obtain ⟨_, m'', outcomes, _, ho, hf⟩ := Exec.of_bind hf
      split at hf
      · rename_i hnone
        cases hf
        refine .reserved (exec_reserveEach ho fun outcome hin => ?_)
        rw [List.length_map, List.length_eq_zero_iff, List.filter_eq_nil_iff] at hnone
        simpa using hnone outcome hin
      · cases hf
  | release o =>
    obtain ⟨_, m, n, _, hx, hr⟩ := Exec.of_bind h
    cases hr
    obtain ⟨_, m', offerIds, _, hl, hf⟩ := Exec.of_bind hx
    obtain ⟨rfl, _⟩ := hl.of_look
    exact .released (exec_releaseEach hf)

end

end MarketplaceApi.Stock
