import MarketplaceApi.Stock.Tables
import MarketplaceApi.Txn.Interleaving

/-!
# Reserve and release as transactions

The repository statements and the command handlers, in the order the source awaits them.
Each SQL statement with several parts is a sequence of row operations after one look, the
statement's snapshot; a part that meets a row changed since then looks at that row again
under its lock.
-/
namespace MarketplaceApi.Stock

open Txn

inductive Lock where
  | reservation (orderPublicId : Uuid) (offerId : Nat)
  | offer (offerId : Nat)
  deriving DecidableEq

/-- `StockReserveRequest.ItemInterface` after `isValidItems`. -/
structure Item where
  offerId : Nat
  quantity : Nat
  positive : 0 < offerId ∧ 0 < quantity
  deriving DecidableEq

inductive RejectReason where
  | offerNotFound
  | insufficientStock
  deriving DecidableEq

inductive Failure where
  | rejected (reason : RejectReason) (items : List (Item × Int))
  | integerOverflow
  | foreignKey
  | reservedRange
  deriving DecidableEq

inductive Request where
  | reserve (orderPublicId : Uuid) (items : List Item)
  | release (orderPublicId : Uuid)
  deriving DecidableEq

inductive Status where
  | reserved
  | released (offers : Nat)
  deriving DecidableEq

abbrev Program := Prog Lock Tables Failure

/-- The largest value of an `integer` column. -/
def maxInteger : Nat := 2147483647

structure FoundOffer where
  id : Nat
  onHandQuantity : Nat
  reservedQuantity : Int

/-- `StockReservationOutcomeInterface`. -/
structure Outcome where
  offerId : Nat
  inserted : Bool
  held : Bool

def Outcome.failed (outcome : Outcome) : Bool := outcome.inserted && !outcome.held

namespace SellerOfferRepository

/-- `findBy({ id: In(ids) })`; soft-deleted offers are left out. -/
def findByIds (ids : List Nat) : Program (List FoundOffer) := do
  if ids.any fun id => decide (maxInteger < id) then
    .throw .integerOverflow
  else
    Prog.look fun s => ids.filterMap fun id =>
      match s.offers id with
      | some offer =>
        if offer.deleted then none
        else some ⟨id, offer.onHandQuantity, offer.reservedQuantity⟩
      | none => none

end SellerOfferRepository

/-- `"deletedAt" IS NULL AND "onHandQuantity" - "reservedQuantity" >= quantity`. -/
def Offer.covers (offer : Offer) (quantity : Nat) : Bool :=
  !offer.deleted && decide ((quantity : Int) ≤ offer.onHandQuantity - offer.reservedQuantity)

/-- An update of `reservedQuantity` under `SellerOffer_reserved_range`. -/
def Tables.setReserved (s : Tables) (offerId : Nat) (offer : Offer) (reservedQuantity : Int) :
    Except Failure (Tables × Bool) :=
  if 0 ≤ reservedQuantity ∧ reservedQuantity ≤ offer.onHandQuantity then
    .ok (s.setOffer offerId { offer with reservedQuantity }, true)
  else .error .reservedRange

namespace StockReservationRepository

/-- `INSERT … ON CONFLICT DO NOTHING`, under `StockReservation_offerId_fkey`. Offers are never deleted. -/
def insert (orderPublicId : Uuid) (offerId quantity : Nat) : Program Bool := do
  if ← Prog.look fun s => s.hasRow orderPublicId offerId then
    return false
  else if ← Prog.look fun s => (s.offers offerId).isNone then
    .throw .foreignKey
  else
    Prog.exec [.reservation orderPublicId offerId] fun s =>
      if s.hasRow orderPublicId offerId then .ok (s, false)
      else .ok (s.addReservation ⟨orderPublicId, offerId, quantity, .reserved⟩, true)

def hold (offerId quantity : Nat) : Program Bool :=
  Prog.exec [.offer offerId] fun s =>
    match s.offers offerId with
    | some offer =>
      if offer.covers quantity then
        s.setReserved offerId offer (offer.reservedQuantity + quantity)
      else .ok (s, false)
    | none => .ok (s, false)

/-- The statement of one item: `held` runs on the inserted row and only if the snapshot covers it. -/
def reserveOne (orderPublicId : Uuid) (item : Item) : Program Outcome := do
  if maxInteger < item.quantity then
    .throw .integerOverflow
  else
    let covered ← Prog.look fun s => (s.offers item.offerId).any fun offer => offer.covers item.quantity
    let inserted ← insert orderPublicId item.offerId item.quantity
    if inserted && covered then
      let held ← hold item.offerId item.quantity
      return ⟨item.offerId, inserted, held⟩
    else
      return ⟨item.offerId, inserted, false⟩

def reserveEach (orderPublicId : Uuid) : List Item → Program (List Outcome)
  | [] => return []
  | item :: items => do
    let outcome ← reserveOne orderPublicId item
    let outcomes ← reserveEach orderPublicId items
    return outcome :: outcomes

def reserve (orderPublicId : Uuid) (items : List Item) : Program (List Outcome) :=
  reserveEach orderPublicId (items.insertionSort fun left right => left.offerId ≤ right.offerId)

/-- One row of the `released` part: its quantity, if it is still active. -/
def releaseRow (orderPublicId : Uuid) (offerId : Nat) : Program (Option Nat) :=
  Prog.exec [.reservation orderPublicId offerId] fun s =>
    match s.row? orderPublicId offerId with
    | some r => if r.active then .ok (s.setReleased orderPublicId offerId, some r.quantity) else .ok (s, none)
    | none => .ok (s, none)

def subtract (offerId quantity : Nat) : Program Bool :=
  Prog.exec [.offer offerId] fun s =>
    match s.offers offerId with
    | some offer => s.setReserved offerId offer (offer.reservedQuantity - quantity)
    | none => .ok (s, false)

/-- The number of offers updated. -/
def releaseEach (orderPublicId : Uuid) : List Nat → Program Nat
  | [] => return 0
  | offerId :: offerIds => do
    match ← releaseRow orderPublicId offerId with
    | some quantity =>
      let updated ← subtract offerId quantity
      let rows ← releaseEach orderPublicId offerIds
      return rows + updated.toNat
    | none => releaseEach orderPublicId offerIds

def activeOffers (s : Tables) (orderPublicId : Uuid) : List Nat :=
  (s.reservations.filter fun r => r.orderPublicId = orderPublicId ∧ r.active).map Reservation.offerId

def release (orderPublicId : Uuid) : Program Nat := do
  let offerIds ← Prog.look fun s => activeOffers s orderPublicId
  releaseEach orderPublicId offerIds

end StockReservationRepository

namespace SellerOfferStockReserveCommandHandler

/-- The quantity still free when the handler looked the offers up. -/
def available (offers : List FoundOffer) (offerId : Nat) : Int :=
  match offers.find? fun offer => offer.id = offerId with
  | some offer => offer.onHandQuantity - offer.reservedQuantity
  | none => 0

def execute (orderPublicId : Uuid) (items : List Item) : Program Unit := do
  let offers ← SellerOfferRepository.findByIds (items.map Item.offerId)
  let missing := items.filter fun item => item.offerId ∉ offers.map FoundOffer.id
  if missing.length > 0 then
    .throw (.rejected .offerNotFound (missing.map fun item => (item, 0)))
  else
    let outcomes ← StockReservationRepository.reserve orderPublicId items
    let failedIds := (outcomes.filter Outcome.failed).map Outcome.offerId
    if failedIds.length = 0 then
      return ()
    else
      .throw (.rejected .insufficientStock
        ((items.filter fun item => item.offerId ∈ failedIds).map fun item =>
          (item, available offers item.offerId)))

end SellerOfferStockReserveCommandHandler

namespace SellerOfferGateway

def handleStockReserve (orderPublicId : Uuid) (items : List Item) : Program Status := do
  SellerOfferStockReserveCommandHandler.execute orderPublicId items
  return .reserved

def handleStockRelease (orderPublicId : Uuid) : Program Status := do
  let offers ← StockReservationRepository.release orderPublicId
  return .released offers

end SellerOfferGateway

def handler : Request → Program Status
  | .reserve orderPublicId items => SellerOfferGateway.handleStockReserve orderPublicId items
  | .release orderPublicId => SellerOfferGateway.handleStockRelease orderPublicId

end MarketplaceApi.Stock
