import MarketplaceApi.Stock.Handlers

/-!
# The stock handlers run interleaved

Every row operation is confined to its row, so the two handlers form a `Txn.System`.
-/
namespace MarketplaceApi.Stock

open Txn

/-- What each lock protects; reservation rows and offers are never deleted. -/
def isolation : Isolation Lock Tables where
  Part
    | .reservation .. => List Reservation
    | .offer .. => Option Offer
  part
    | .reservation orderPublicId offerId, s => s.rowsAt orderPublicId offerId
    | .offer offerId, s => s.offers offerId
  le s s' := (∀ o f, s.hasRow o f = true → s'.hasRow o f = true) ∧
    ∀ f, (s.offers f).isSome → (s'.offers f).isSome
  le_refl _ := ⟨fun _ _ h => h, fun _ h => h⟩
  le_trans h h' := ⟨fun o f hr => h'.1 o f (h.1 o f hr), fun f hf => h'.2 f (h.2 f hf)⟩

section
variable {s s' b : Tables} {orderPublicId : Uuid} {offerId : Nat}

theorem agree_reservation (h : isolation.Agree [.reservation orderPublicId offerId] s s') :
    s.rowsAt orderPublicId offerId = s'.rowsAt orderPublicId offerId := by
  exact h (.reservation orderPublicId offerId) (by simp)

theorem agree_offer (h : isolation.Agree [.offer offerId] s s') : s.offers offerId = s'.offers offerId := by
  exact h (.offer offerId) (by simp)

theorem agree_row? (h : isolation.Agree [.reservation orderPublicId offerId] s s') :
    s.row? orderPublicId offerId = s'.row? orderPublicId offerId := by
  unfold Tables.row?
  rw [agree_reservation h]

theorem agree_hasRow (h : isolation.Agree [.reservation orderPublicId offerId] s s') :
    s.hasRow orderPublicId offerId = s'.hasRow orderPublicId offerId := by
  unfold Tables.hasRow
  rw [agree_row? h]

/-- The insert of one reservation, decided by its key. -/
theorem confined_insert (r : Reservation) {w : Tables → Tables}
    (hw : ∀ s, w s = if s.hasRow r.orderPublicId r.offerId then s else s.addReservation r) :
    Confined isolation b [.reservation r.orderPublicId r.offerId] w where
  frame {s} _ k hk := by
    rw [hw]
    split
    · rfl
    · cases k with
      | offer f => rfl
      | reservation o f =>
        simp only [List.mem_singleton, Lock.reservation.injEq] at hk
        change (s.addReservation r).rowsAt o f = s.rowsAt o f
        rw [rowsAt_addReservation, if_neg]
        simp only [Reservation.hasKey, decide_eq_true_eq]
        exact fun h => hk ⟨h.1.symm, h.2.symm⟩
  inside {s s'} _ _ ha k hk := by
    simp only [List.mem_singleton] at hk
    subst hk
    have hrow := agree_hasRow ha
    have hat := agree_reservation ha
    rw [hw, hw, ← hrow]
    split
    · exact hat
    · change (s.addReservation r).rowsAt _ _ = (s'.addReservation r).rowsAt _ _
      rw [rowsAt_addReservation, rowsAt_addReservation, hat]
  grows {s} _ := by
    rw [hw]
    split
    · exact isolation.le_refl s
    · refine ⟨fun o f h => ?_, fun _ h => h⟩
      rw [hasRow_addReservation, h, Bool.or_true]
  mono {s s'} _ hle ha := by
    rw [hw, hw, ← agree_hasRow ha]
    split
    · exact hle
    · refine ⟨fun o f h => ?_, hle.2⟩
      rw [hasRow_addReservation, Bool.or_eq_true] at h ⊢
      exact h.imp_right (hle.1 o f)

/-- The release of one reservation, decided by its key. -/
theorem confined_release (orderPublicId : Uuid) (offerId : Nat) (p : List Reservation → Bool)
    {w : Tables → Tables}
    (hw : ∀ s, w s = if p (s.rowsAt orderPublicId offerId) then s.setReleased orderPublicId offerId else s) :
    Confined isolation b [.reservation orderPublicId offerId] w where
  frame {s} _ k hk := by
    rw [hw]
    split
    · cases k with
      | offer f => rfl
      | reservation o f =>
        simp only [List.mem_singleton, Lock.reservation.injEq] at hk
        exact rowsAt_setReleased_other s orderPublicId o offerId f hk
    · rfl
  inside {s s'} _ _ ha k hk := by
    simp only [List.mem_singleton] at hk
    subst hk
    have hat := agree_reservation ha
    rw [hw, hw, ← hat]
    split
    · change (s.setReleased _ _).rowsAt _ _ = (s'.setReleased _ _).rowsAt _ _
      rw [rowsAt_setReleased, rowsAt_setReleased, hat]
    · exact hat
  grows {s} _ := by
    rw [hw]
    split
    · exact ⟨fun o f h => by rwa [hasRow_setReleased], fun _ h => h⟩
    · exact isolation.le_refl s
  mono {s s'} _ hle ha := by
    rw [hw, hw, ← agree_reservation ha]
    split
    · refine ⟨fun o f h => ?_, hle.2⟩
      rw [hasRow_setReleased] at h ⊢
      exact hle.1 o f h
    · exact hle

/-- A write of one offer, decided by the offer. -/
theorem confined_offer (offerId : Nat) (g : Option Offer → Option Offer) {w : Tables → Tables}
    (hw : ∀ s, w s = match g (s.offers offerId) with
      | some offer => s.setOffer offerId offer
      | none => s) :
    Confined isolation b [.offer offerId] w where
  frame {s} _ k hk := by
    rw [hw]
    split
    · cases k with
      | offer f =>
        simp only [List.mem_singleton, Lock.offer.injEq] at hk
        exact setOffer_other s _ hk
      | reservation o f => rfl
    · rfl
  inside {s s'} _ _ ha k hk := by
    simp only [List.mem_singleton] at hk
    subst hk
    have hat := agree_offer ha
    rw [hw, hw, ← hat]
    split
    · simp [isolation]
    · exact hat
  grows {s} _ := by
    rw [hw]
    split
    · refine ⟨fun _ _ h => h, fun f h => ?_⟩
      by_cases e : f = offerId
      · subst e; simp
      · rwa [setOffer_other s _ e]
    · exact isolation.le_refl s
  mono {s s'} _ hle ha := by
    rw [hw, hw, ← agree_offer ha]
    split
    · refine ⟨hle.1, fun f h => ?_⟩
      by_cases e : f = offerId
      · subst e; simp
      · rw [setOffer_other s' _ e]
        rw [setOffer_other s _ e] at h
        exact hle.2 f h
    · exact hle

end

section
variable (b : Tables) (orderPublicId : Uuid) (offerId quantity : Nat)

theorem safe_findByIds (ids : List Nat) : (SellerOfferRepository.findByIds ids).Safe isolation b := by
  unfold SellerOfferRepository.findByIds
  split
  · trivial
  · exact Prog.safe_look _ b

theorem safe_insert :
    (StockReservationRepository.insert orderPublicId offerId quantity).Safe isolation b := by
  refine (Prog.safe_look _ b).bind fun found b' _ => ?_
  split
  · trivial
  · refine (Prog.safe_look _ b').bind fun missing b'' _ => ?_
    split
    · trivial
    · refine Prog.safe_exec (confined_insert ⟨orderPublicId, offerId, quantity, .reserved⟩
        fun s => ?_) fun s s' _ _ ha => ?_
      · split <;> rfl
      · rw [agree_hasRow ha]
        split <;> rfl

/-- The write of `hold` and `subtract`: the offer moves to `reservedQuantity`, or nothing happens. -/
theorem safe_setReserved (p : Offer → Bool) (x : Offer → Int) :
    (Prog.exec (E := Failure) [.offer offerId] fun s : Tables =>
      match s.offers offerId with
      | some offer => if p offer then s.setReserved offerId offer (x offer) else .ok (s, false)
      | none => .ok (s, false)).Safe isolation b := by
  refine Prog.safe_exec (confined_offer offerId (fun o => o.bind fun offer =>
    if p offer ∧ 0 ≤ x offer ∧ x offer ≤ offer.onHandQuantity then
      some { offer with reservedQuantity := x offer } else none) fun s => ?_) fun s s' _ _ ha => ?_
  · cases s.offers offerId with
    | none => rfl
    | some offer =>
      by_cases hp : p offer <;> by_cases hx : 0 ≤ x offer ∧ x offer ≤ offer.onHandQuantity <;>
        simp [hp, hx, Tables.setReserved, Prog.leave]
  · rw [agree_offer ha]
    cases s'.offers offerId with
    | none => rfl
    | some offer =>
      by_cases hp : p offer <;> by_cases hx : 0 ≤ x offer ∧ x offer ≤ offer.onHandQuantity <;>
        simp [hp, hx, Tables.setReserved, Except.map]

theorem safe_hold : (StockReservationRepository.hold offerId quantity).Safe isolation b :=
  safe_setReserved b offerId (fun offer => offer.covers quantity)
    fun offer => offer.reservedQuantity + quantity

theorem safe_subtract : (StockReservationRepository.subtract offerId quantity).Safe isolation b :=
  safe_setReserved b offerId (fun _ => true) fun offer => offer.reservedQuantity - quantity

theorem safe_reserveOne (item : Item) :
    (StockReservationRepository.reserveOne orderPublicId item).Safe isolation b := by
  unfold StockReservationRepository.reserveOne
  split
  · trivial
  · refine (Prog.safe_look _ b).bind fun covered b' _ => ?_
    refine (safe_insert b' _ _ _).bind fun inserted b'' _ => ?_
    split
    · exact (safe_hold b'' _ _).bind fun _ _ _ => trivial
    · trivial

theorem safe_reserveEach (items : List Item) :
    (StockReservationRepository.reserveEach orderPublicId items).Safe isolation b := by
  induction items generalizing b with
  | nil => trivial
  | cons item items ih =>
    exact (safe_reserveOne b _ item).bind fun _ b' _ => (ih b').bind fun _ _ _ => trivial

theorem safe_releaseRow :
    (StockReservationRepository.releaseRow orderPublicId offerId).Safe isolation b := by
  refine Prog.safe_exec (confined_release orderPublicId offerId
    (fun rows => rows.head?.any Reservation.active) fun s => ?_) fun s s' _ _ ha => ?_
  · have hhead : (s.rowsAt orderPublicId offerId).head? = s.row? orderPublicId offerId := rfl
    rw [hhead]
    cases s.row? orderPublicId offerId with
    | none => rfl
    | some r => cases hr : r.active <;> simp [hr, Prog.leave]
  · rw [agree_row? ha]
    cases s'.row? orderPublicId offerId with
    | none => rfl
    | some r => cases hr : r.active <;> simp [hr, Except.map]

theorem safe_releaseEach (offerIds : List Nat) :
    (StockReservationRepository.releaseEach orderPublicId offerIds).Safe isolation b := by
  induction offerIds generalizing b with
  | nil => trivial
  | cons offerId offerIds ih =>
    refine (safe_releaseRow b _ _).bind fun released b' _ => ?_
    cases released with
    | none => exact ih b'
    | some quantity =>
      exact (safe_subtract b' _ _).bind fun _ b'' _ => (ih b'').bind fun _ _ _ => trivial

theorem safe_execute (items : List Item) :
    (SellerOfferStockReserveCommandHandler.execute orderPublicId items).Safe isolation b := by
  refine (safe_findByIds b _).bind fun offers b' _ => ?_
  dsimp only
  split
  · trivial
  · refine (safe_reserveEach b' _ _).bind fun outcomes b'' _ => ?_
    split <;> trivial

theorem safe_handler (q : Request) : (handler q).Safe isolation b := by
  cases q with
  | reserve o items => exact (safe_execute b o items).bind fun _ _ _ => trivial
  | release o =>
    refine Prog.Safe.bind ?_ fun _ _ _ => trivial
    exact (Prog.safe_look _ b).bind fun _ b' _ => safe_releaseEach b' _ _

end

/-- Any number of reserve and release requests of any orders, in any interleaving. -/
def system : System Lock Tables Failure Status Request where
  isolation := isolation
  handler := handler
  allowed _ _ := True
  env _ _ := False
  safe q b := safe_handler b q
  env_part h := h.elim
  env_le h := h.elim

end MarketplaceApi.Stock
