import Mathlib.Algebra.BigOperators.Group.List.Basic
import Mathlib.Algebra.Order.Ring.Int
import Mathlib.Data.List.Sort
import Mathlib.Logic.Function.Basic

/-!
# Tables of the seller-offer context

`SellerOffer` and `StockReservation` with the columns that reserving and releasing read or
write. `held` is the quantity the active reservations of an offer add up to.
-/
namespace MarketplaceApi.Stock

abbrev Uuid := Nat

/-- `StockReservationStatusEnum`. -/
inductive ReservationStatus where
  | reserved
  | confirmed
  | fulfilled
  | released
  deriving DecidableEq

structure Offer where
  onHandQuantity : Nat
  reservedQuantity : Int
  deleted : Bool
  deriving DecidableEq

structure Reservation where
  orderPublicId : Uuid
  offerId : Nat
  quantity : Nat
  status : ReservationStatus
  deriving DecidableEq

structure Tables where
  offers : Nat → Option Offer
  reservations : List Reservation

/-- The statuses that hold stock. -/
def Reservation.active (r : Reservation) : Bool := r.status = .reserved ∨ r.status = .confirmed

def Reservation.hasKey (r : Reservation) (orderPublicId : Uuid) (offerId : Nat) : Bool :=
  r.orderPublicId = orderPublicId ∧ r.offerId = offerId

def Reservation.release (r : Reservation) (orderPublicId : Uuid) (offerId : Nat) : Reservation :=
  if r.hasKey orderPublicId offerId ∧ r.active then { r with status := .released } else r

def Tables.rowsAt (s : Tables) (orderPublicId : Uuid) (offerId : Nat) : List Reservation :=
  s.reservations.filter fun r => r.hasKey orderPublicId offerId

/-- The row under the primary key. -/
def Tables.row? (s : Tables) (orderPublicId : Uuid) (offerId : Nat) : Option Reservation :=
  (s.rowsAt orderPublicId offerId).head?

def Tables.hasRow (s : Tables) (orderPublicId : Uuid) (offerId : Nat) : Bool :=
  (s.row? orderPublicId offerId).isSome

/-- The stock held under one key. -/
def Tables.heldAt (s : Tables) (orderPublicId : Uuid) (offerId : Nat) : Int :=
  (((s.rowsAt orderPublicId offerId).filter Reservation.active).map fun r => (r.quantity : Int)).sum

/-- The stock the active reservations of an offer hold. -/
def Tables.held (s : Tables) (offerId : Nat) : Int :=
  ((s.reservations.filter fun r => r.offerId = offerId ∧ r.active).map fun r => (r.quantity : Int)).sum

def Tables.setOffer (s : Tables) (offerId : Nat) (offer : Offer) : Tables :=
  { s with offers := Function.update s.offers offerId (some offer) }

def Tables.addReservation (s : Tables) (r : Reservation) : Tables :=
  { s with reservations := r :: s.reservations }

def Tables.setReleased (s : Tables) (orderPublicId : Uuid) (offerId : Nat) : Tables :=
  { s with reservations := s.reservations.map fun r => r.release orderPublicId offerId }

section
variable (s : Tables) (o p : Uuid) (f g : Nat) (offer : Offer) (r : Reservation)

@[simp] theorem setOffer_reservations : (s.setOffer f offer).reservations = s.reservations := rfl
@[simp] theorem addReservation_offers : (s.addReservation r).offers = s.offers := rfl
@[simp] theorem addReservation_reservations : (s.addReservation r).reservations = r :: s.reservations := rfl
@[simp] theorem setReleased_offers : (s.setReleased o f).offers = s.offers := rfl
@[simp] theorem setOffer_self : (s.setOffer f offer).offers f = some offer := Function.update_self ..
@[simp] theorem setOffer_rowsAt : (s.setOffer f offer).rowsAt o g = s.rowsAt o g := rfl
@[simp] theorem setOffer_row? : (s.setOffer f offer).row? o g = s.row? o g := rfl
@[simp] theorem setOffer_hasRow : (s.setOffer f offer).hasRow o g = s.hasRow o g := rfl
@[simp] theorem setOffer_held : (s.setOffer f offer).held g = s.held g := rfl

theorem setOffer_other {f g : Nat} (h : g ≠ f) : (s.setOffer f offer).offers g = s.offers g :=
  Function.update_of_ne h ..

@[simp] theorem release_key : (r.release o f).orderPublicId = r.orderPublicId ∧
    (r.release o f).offerId = r.offerId ∧ (r.release o f).quantity = r.quantity := by
  unfold Reservation.release
  split <;> exact ⟨rfl, rfl, rfl⟩

@[simp] theorem release_hasKey : (r.release o f).hasKey p g = r.hasKey p g := by
  simp [Reservation.hasKey]

theorem release_other (h : r.hasKey o f = false) : r.release o f = r := by
  simp [Reservation.release, h]

theorem release_active : (r.release o f).active = (r.active && !r.hasKey o f) := by
  unfold Reservation.release
  by_cases hk : r.hasKey o f = true ∧ r.active = true
  · rw [if_pos hk, hk.1, hk.2]
    rfl
  · rw [if_neg hk]
    cases h : r.active <;> cases h' : r.hasKey o f <;> simp_all

theorem rowsAt_addReservation : (s.addReservation r).rowsAt o f =
    if r.hasKey o f then r :: s.rowsAt o f else s.rowsAt o f := by
  unfold Tables.rowsAt
  rw [addReservation_reservations, List.filter_cons]

theorem rowsAt_setReleased :
    (s.setReleased o f).rowsAt p g = (s.rowsAt p g).map fun r => r.release o f := by
  simp only [Tables.rowsAt, Tables.setReleased, List.filter_map, Function.comp_def, release_hasKey]

/-- Releasing one key leaves the rows of every other key. -/
theorem rowsAt_setReleased_other (h : ¬ (p = o ∧ g = f)) :
    (s.setReleased o f).rowsAt p g = s.rowsAt p g := by
  rw [rowsAt_setReleased]
  refine (List.map_congr_left fun r hr => ?_).trans (List.map_id _)
  have hk := (List.mem_filter.mp hr).2
  refine release_other o f r ?_
  simp only [Reservation.hasKey, decide_eq_true_eq, decide_eq_false_iff_not] at hk ⊢
  rintro ⟨rfl, rfl⟩
  exact h ⟨hk.1.symm, hk.2.symm⟩

@[simp] theorem hasRow_setReleased : (s.setReleased o f).hasRow p g = s.hasRow p g := by
  unfold Tables.hasRow Tables.row?
  rw [rowsAt_setReleased, List.head?_map, Option.isSome_map]

theorem hasRow_addReservation :
    (s.addReservation r).hasRow o f = (r.hasKey o f || s.hasRow o f) := by
  unfold Tables.hasRow Tables.row?
  rw [rowsAt_addReservation]
  cases r.hasKey o f <;> rfl

theorem held_addReservation : (s.addReservation r).held f =
    s.held f + if r.offerId = f ∧ r.active then (r.quantity : Int) else 0 := by
  unfold Tables.held
  by_cases h : r.offerId = f ∧ r.active
  · rw [addReservation_reservations, List.filter_cons_of_pos (by simpa using h), if_pos h,
      List.map_cons, List.sum_cons, Int.add_comm]
  · rw [addReservation_reservations, List.filter_cons_of_neg (by simpa using h), if_neg h, Int.add_zero]

/-- A release gives back what its key held, and touches no other offer. -/
theorem held_setReleased :
    (s.setReleased o f).held g = s.held g - if g = f then s.heldAt o f else 0 := by
  obtain ⟨offers, rows⟩ := s
  unfold Tables.held Tables.heldAt Tables.rowsAt Tables.setReleased
  induction rows with
  | nil => split <;> rfl
  | cons r rows ih =>
    have hoffer : (r.release o f).offerId = r.offerId := (release_key o f r).2.1
    simp only [List.map_cons, List.filter_cons, hoffer, release_active] at ih ⊢
    by_cases hk : r.hasKey o f = true
    · have hf : r.offerId = f := by
        simp only [Reservation.hasKey, decide_eq_true_eq] at hk
        exact hk.2
      by_cases hg : g = f
      · subst hg
        cases ha : r.active
        · simpa [hk, hf, ha] using ih
        · simp [hk, hf, ha] at ih ⊢
          omega
      · simpa [hk, hf, Ne.symm hg, hg] using ih
    · simp only [Bool.not_eq_true] at hk
      by_cases hr : r.offerId = g ∧ r.active = true
      · simp [hk, hr] at ih ⊢
        omega
      · simpa [hk, hr] using ih

end

end MarketplaceApi.Stock
