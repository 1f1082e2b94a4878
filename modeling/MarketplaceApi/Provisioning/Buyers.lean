import MarketplaceApi.Account.Ledger
import MarketplaceApi.Provisioning.Creation

/-!
# The consumers of `user.created`

The order context keeps one `OrderBuyer` per identity, the account context opens an account.
Each has its own schema for the same event.
-/
namespace MarketplaceApi.Provisioning

open Messaging Txn
open Placement (OrderBuyer)

inductive BuyerLock where
  | identityPublicId (identityPublicId : String)
  | userId (userId : Int)
  deriving DecidableEq

inductive BuyerFailure where
  | rejectedMessage
  | integerOverflow
  deriving DecidableEq

/-- How a delivery ended: of another type, without the identity, or handed to the command. -/
inductive BuyerStatus where
  | ignored
  | predates
  | registered (inserted : Bool)
  deriving DecidableEq

abbrev BuyerProgram := Prog BuyerLock (List OrderBuyer) BuyerFailure

/-- `OrderBuyer_pkey` and `OrderBuyer_userId_key` -/
def buyerKeys (buyer : OrderBuyer) : List BuyerLock :=
  [.identityPublicId buyer.identityPublicId, .userId buyer.userId]

/-- A row exists under one of the keys of `buyer`. -/
def conflicts (buyer : OrderBuyer) (buyers : List OrderBuyer) : Bool :=
  (buyerKeys buyer).any fun k => buyers.any fun other => k ∈ buyerKeys other

namespace OrderBuyerRepository

def createIfAbsent (buyer : OrderBuyer) : BuyerProgram Bool := do
  if !isInteger buyer.userId then
    .throw .integerOverflow
  else if ← Prog.look (conflicts buyer) then
    return false
  else
    Prog.exec (buyerKeys buyer) fun buyers =>
      if conflicts buyer buyers then .ok (buyers, false) else .ok (buyer :: buyers, true)

def findByIdentityPublicId (identityPublicId : String) (buyers : List OrderBuyer) : Option OrderBuyer :=
  buyers.find? fun buyer => buyer.identityPublicId = identityPublicId

end OrderBuyerRepository

section
variable (isUuid : String → Bool)

/-- The schema of the order context. -/
def orderUserCreatedEventSchema (event : CloudEvent UserCreatedEvent.Data) : Bool :=
  event.specversion == "1.0" && isUuid event.id && event.type == UserCreatedEvent.TYPE &&
    isPositiveInt event.data.userId && isUuid event.data.userPublicId && event.data.identityPublicId.all isUuid

/-- The schema of the account context, which does not read `identityPublicId`. -/
def accountUserCreatedEventSchema (event : CloudEvent UserCreatedEvent.Data) : Bool :=
  event.specversion == "1.0" && isUuid event.id && event.type == UserCreatedEvent.TYPE &&
    isPositiveInt event.data.userId && isUuid event.data.userPublicId

namespace OrderUserEventsGateway

def handle (event : CloudEvent UserCreatedEvent.Data) : BuyerProgram BuyerStatus :=
  if event.type != UserCreatedEvent.TYPE then
    return .ignored
  else if !orderUserCreatedEventSchema isUuid event then
    .throw .rejectedMessage
  else
    match event.data.identityPublicId with
    | none => return .predates
    | some identityPublicId => do
      let inserted ← OrderBuyerRepository.createIfAbsent ⟨identityPublicId, event.data.userId⟩
      return .registered inserted

end OrderUserEventsGateway

namespace AccountUserEventsGateway

/-- The request an accepted event becomes. -/
def userCreated? (event : CloudEvent UserCreatedEvent.Data) : Option Account.Request :=
  if event.type == UserCreatedEvent.TYPE && accountUserCreatedEventSchema isUuid event then
    some (.userCreated event.data.userId)
  else none

end AccountUserEventsGateway

end

def buyerIsolation : Isolation BuyerLock (List OrderBuyer) where
  Part _ := List OrderBuyer
  part k buyers := buyers.filter fun buyer => k ∈ buyerKeys buyer
  le := List.Sublist
  le_refl _ := .refl _
  le_trans h h' := h.trans h'

section
variable {b buyers buyers' : List OrderBuyer} {buyer : OrderBuyer} {isUuid : String → Bool}
  {event : CloudEvent UserCreatedEvent.Data}

theorem conflicts_iff :
    conflicts buyer buyers = true ↔ ∃ other ∈ buyers, ∃ k ∈ buyerKeys buyer, k ∈ buyerKeys other := by
  simp only [conflicts, List.any_eq_true, decide_eq_true_eq]
  constructor
  · rintro ⟨k, hk, other, hother, hkey⟩
    exact ⟨other, hother, k, hk, hkey⟩
  · rintro ⟨other, hother, k, hk, hkey⟩
    exact ⟨k, hk, other, hother, hkey⟩

theorem conflicts_later (h : buyers.Sublist buyers') (hc : conflicts buyer buyers = true) :
    conflicts buyer buyers' = true := by
  obtain ⟨other, hother, hkey⟩ := conflicts_iff.mp hc
  exact conflicts_iff.mpr ⟨other, h.subset hother, hkey⟩

theorem agree_conflicts (h : buyerIsolation.Agree (buyerKeys buyer) buyers buyers') :
    conflicts buyer buyers = conflicts buyer buyers' := by
  have hany : ∀ (k : BuyerLock) (rows : List OrderBuyer), (rows.any fun other => k ∈ buyerKeys other) =
      (rows.filter fun other => k ∈ buyerKeys other).any fun _ => true := by
    intro k rows
    simp only [List.any_filter, Bool.and_true]
  rw [conflicts, conflicts, Bool.eq_iff_iff, List.any_eq_true, List.any_eq_true]
  refine exists_congr fun k => and_congr_right fun hk => ?_
  rw [hany, hany, show (buyers.filter fun other => k ∈ buyerKeys other) = _ from h k hk]
  rfl

theorem safe_buyerCreateIfAbsent : (OrderBuyerRepository.createIfAbsent buyer).Safe buyerIsolation b := by
  unfold OrderBuyerRepository.createIfAbsent
  split
  · trivial
  refine (Prog.safe_look _ b).bind fun found b' _ => ?_
  split
  · trivial
  · refine Prog.safe_add (fun buyers => if conflicts buyer buyers then some (.ok false) else none)
      (fun buyers => buyer :: buyers) true (fun k p => if k ∈ buyerKeys buyer then buyer :: p else p)
      (fun buyers => ?_) (fun buyers k => ?_) (fun k hk p => if_neg hk) (fun buyers buyers' ha => ?_)
      (fun buyers => List.sublist_cons_self _ _) fun buyers buyers' hle => hle.cons_cons _
    · split <;> rfl
    · change ((buyer :: buyers).filter fun other => k ∈ buyerKeys other) = _
      by_cases hk : k ∈ buyerKeys buyer
      · rw [List.filter_cons_of_pos (by simpa using hk)]
        exact (if_pos hk).symm
      · rw [List.filter_cons_of_neg (by simpa using hk)]
        exact (if_neg hk).symm
    · rw [agree_conflicts ha]

theorem safe_userEvent : (OrderUserEventsGateway.handle isUuid event).Safe buyerIsolation b := by
  unfold OrderUserEventsGateway.handle
  split
  · trivial
  · split
    · trivial
    · split
      · trivial
      · exact safe_buyerCreateIfAbsent.bind fun _ _ _ => trivial

theorem exec_buyerCreateIfAbsent {inserted : Bool}
    (h : Exec buyerIsolation b (OrderBuyerRepository.createIfAbsent buyer) buyers buyers' (.ok inserted)) :
    (inserted = true ∧ conflicts buyer buyers = false ∧ buyers' = buyer :: buyers) ∨
      (inserted = false ∧ conflicts buyer buyers = true ∧ buyers' = buyers) := by
  unfold OrderBuyerRepository.createIfAbsent at h
  split at h
  · cases h
  obtain ⟨_, m, found, _, hl, hf⟩ := Exec.of_bind h
  obtain ⟨rfl, v, _, hv, hseen⟩ := hl.of_look
  cases found with
  | true =>
    cases hf
    exact Or.inr ⟨rfl, conflicts_later hv hseen, rfl⟩
  | false =>
    have he := hf.of_exec
    split at he
    · cases he
      exact Or.inr ⟨rfl, ‹_›, rfl⟩
    · rename_i hfree
      cases he
      exact Or.inl ⟨rfl, by simpa using hfree, rfl⟩

/-- A committed delivery left the table as it was, or inserted a row under keys no row had. -/
theorem exec_userEvent {status : BuyerStatus}
    (h : Exec buyerIsolation b (OrderUserEventsGateway.handle isUuid event) buyers buyers' (.ok status)) :
    buyers' = buyers ∨ ∃ identityPublicId, event.data.identityPublicId = some identityPublicId ∧
      conflicts ⟨identityPublicId, event.data.userId⟩ buyers = false ∧
      buyers' = ⟨identityPublicId, event.data.userId⟩ :: buyers := by
  unfold OrderUserEventsGateway.handle at h
  split at h
  · cases h
    exact Or.inl rfl
  · split at h
    · cases h
    · split at h
      · cases h
        exact Or.inl rfl
      · rename_i identityPublicId hid
        obtain ⟨_, _, inserted, _, hc, hf⟩ := Exec.of_bind h
        cases hf
        rcases exec_buyerCreateIfAbsent hc with ⟨_, hfree, rfl⟩ | ⟨_, _, rfl⟩
        · exact Or.inr ⟨identityPublicId, hid, hfree, rfl⟩
        · exact Or.inl rfl

end

/-- The buyers consumers: any number of deliveries, interleaved statement by statement. -/
def buyersConsumer (isUuid : String → Bool) :
    System BuyerLock (List OrderBuyer) BuyerFailure BuyerStatus (CloudEvent UserCreatedEvent.Data) where
  isolation := buyerIsolation
  handler event := OrderUserEventsGateway.handle isUuid event
  allowed _ _ := True
  env _ _ := False
  safe _ _ := safe_userEvent
  env_part h := h.elim
  env_le h := h.elim

end MarketplaceApi.Provisioning
