import MarketplaceApi.Auth.Token
import MarketplaceApi.Cache.Eviction

/-!
# Who reads a cached order

`OrderService.findReadableById` asks the ability of the caller about the order that `findById` gave, which may be out
of date. Its owner is not: orders change in their status and `updatedAt` only.
-/
namespace MarketplaceApi.Cache

open Auth (RoleEnum)
open Transition
open Placement (Order OrderLine Request Answer Commit)

/-- What `createFor` reads of the claims of a token. -/
structure AccessTokenClaims where
  identityPublicId : String
  role : RoleEnum

inductive Action where
  | create
  | read
  deriving DecidableEq

inductive Subject where
  | order
  | product
  deriving DecidableEq

/-- `can(action, subject, { ownerIdentityPublicId })` -/
structure Rule where
  action : Action
  subject : Subject
  ownerIdentityPublicId : Option String

namespace AbilityFactory

def createFor (identity : AccessTokenClaims) : List Rule :=
  [⟨.create, .order, none⟩] ++
    (if identity.role = .admin ∨ identity.role = .owner then [⟨.read, .order, none⟩]
      else [⟨.read, .order, some identity.identityPublicId⟩]) ++
    (if identity.role = .seller ∨ identity.role = .admin ∨ identity.role = .owner then [⟨.create, .product, none⟩]
      else [])

end AbilityFactory

/-- The rule is about the subject with that owner. -/
def Rule.Matches (rule : Rule) (action : Action) (subject : Subject) (ownerIdentityPublicId : String) : Prop :=
  rule.action = action ∧ rule.subject = subject ∧ ∀ owner ∈ rule.ownerIdentityPublicId, owner = ownerIdentityPublicId

/-- `ability.can` of `@casl/ability`: a matching rule allows, and where none matches nothing is allowed. -/
structure Casl where
  can : List Rule → Action → Subject → String → Bool
  can_of_matches : ∀ {ability rule action subject owner}, rule ∈ ability → rule.Matches action subject owner →
    can ability action subject owner = true
  matches_of_can : ∀ {ability action subject owner}, can ability action subject owner = true →
    ∃ rule ∈ ability, rule.Matches action subject owner

inductive ReadFailure where
  | forbidden
  deriving DecidableEq

namespace OrderService

/-- After `findById`. -/
def findReadableById (lib : Casl) (order : Order) (ability : List Rule) : Except ReadFailure Order :=
  if !lib.can ability .read .order order.ownerIdentityPublicId then .error .forbidden else .ok order

end OrderService

/-- A privileged role, or the owner. -/
def MayRead (identity : AccessTokenClaims) (order : Order) : Prop :=
  identity.role = .admin ∨ identity.role = .owner ∨ order.ownerIdentityPublicId = identity.identityPublicId

variable {E : Type} {id : Nat} {w w' : OrderState E} {mv : OrderMove E} {lib : Casl}

theorem can_read_iff (identity : AccessTokenClaims) (order : Order) :
    lib.can (AbilityFactory.createFor identity) .read .order order.ownerIdentityPublicId = true ↔
      MayRead identity order := by
  constructor
  · intro hcan
    obtain ⟨rule, hrule, haction, _, howner⟩ := lib.matches_of_can hcan
    simp only [AbilityFactory.createFor, List.mem_append] at hrule
    rcases hrule with (hcreate | hread) | hproduct
    · rw [List.mem_singleton.mp hcreate] at haction
      cases haction
    · split at hread
      · rename_i hrole
        exact hrole.elim Or.inl fun h => Or.inr (Or.inl h)
      · rw [List.mem_singleton.mp hread] at howner
        exact Or.inr (Or.inr (howner identity.identityPublicId rfl).symm)
    · split at hproduct
      · rw [List.mem_singleton.mp hproduct] at haction
        cases haction
      · cases hproduct
  · intro hmay
    by_cases hrole : identity.role = .admin ∨ identity.role = .owner
    · have hrule : (⟨.read, .order, none⟩ : Rule) ∈ AbilityFactory.createFor identity := by
        simp [AbilityFactory.createFor, hrole]
      exact lib.can_of_matches hrule ⟨rfl, rfl, nofun⟩
    · have hrule : (⟨.read, .order, some identity.identityPublicId⟩ : Rule) ∈ AbilityFactory.createFor identity := by
        simp [AbilityFactory.createFor, hrole]
      refine lib.can_of_matches hrule ⟨rfl, rfl, fun owner howner => ?_⟩
      obtain rfl := Option.some.inj howner
      rcases hmay with hadmin | hrow | hown
      · exact absurd (Or.inl hadmin) hrole
      · exact absurd (Or.inr hrow) hrole
      · exact hown.symm

theorem findReadableById_ok {order found : Order} {identity : AccessTokenClaims} :
    OrderService.findReadableById lib order (AbilityFactory.createFor identity) = .ok found ↔
      found = order ∧ MayRead identity order := by
  rw [← @can_read_iff lib]
  unfold OrderService.findReadableById
  cases lib.can (AbilityFactory.createFor identity) .read .order order.ownerIdentityPublicId with
  | true => simp [eq_comm]
  | false => simp

/-- The value was the row of the order at some time. -/
def Was (id : Nat) (s : Placement.Tables) (value : Order × List OrderLine) : Prop :=
  ∃ row ∈ s.orders, row.id = id ∧ value.1.Later row

/-- Every order stays, as it was but for its status and its time. -/
theorem later_commit {s s' : Placement.Tables} {q : Request} {answer : Answer} (hc : Commit q s s' answer)
    {order : Order} (hin : order ∈ s.orders) : ∃ later ∈ s'.orders, order.Later later := by
  have hmoved : ∀ orderId change, ∃ later ∈ (s.updatePending orderId change).orders, order.Later later :=
    fun orderId change => ⟨_, List.mem_map_of_mem hin, Placement.later_updatePending order orderId change⟩
  cases hc with
  | placed _ => exact ⟨order, List.mem_cons_of_mem _ hin, .refl _⟩
  | found _ _ _ _ | settled => exact ⟨order, hin, .refl _⟩
  | paid _ _ _ => exact hmoved _ _
  | failed _ _ _ => exact hmoved _ _

theorem Was.commit {s s' : Placement.Tables} {q : Request} {answer : Answer} {value : Order × List OrderLine}
    (h : Was id s value) (hc : Commit q s s' answer) : Was id s' value := by
  obtain ⟨row, hin, hid, hlater⟩ := h
  obtain ⟨later, hin', hmore⟩ := later_commit hc hin
  have hsame : later.id = row.id := by rw [hmore]
  exact ⟨later, hin', hsame.trans hid, hlater.trans hmore⟩

/-- What is stored and what is carried was the row. -/
structure Remembers (id : Nat) (w : OrderState E) : Prop where
  stored : ∀ value, w.cache.value = some value → Was id w.tables value
  carried : ∀ i value, (w.cache.callers i).carried = some (.ok value) → Was id w.tables value
  lost : ∀ value, .set value ∈ w.cache.lost → Was id w.tables value

theorem remembers_start (offers : Nat → Option Placement.SellerOffer) :
    Remembers id (.start (.empty offers) : OrderState E) where
  stored value h := by cases h
  carried i value h := by cases h
  lost value h := by cases h

theorem Remembers.commit (h : Remembers id w) {q : Request} {s' : Placement.Tables} {answer : Answer}
    (hc : Commit q w.tables s' answer) {calls : Nat → Call} :
    Remembers id { w with tables := s', calls := calls } where
  stored value hvalue := (h.stored value hvalue).commit hc
  carried i value hvalue := (h.carried i value hvalue).commit hc
  lost value hvalue := (h.lost value hvalue).commit hc

theorem Remembers.delete (h : Remembers id w) : Remembers id w.delete where
  stored value hvalue := by cases hvalue
  carried := h.carried
  lost := h.lost

theorem remembers_step (h : Remembers id w) (hs : OrderStep id w mv w') : Remembers id w' := by
  cases hs with
  | other _ _ hc => exact h.commit hc
  | commit _ _ _ hc => exact h.commit hc
  | evict _ => exact ⟨h.delete.stored, h.delete.carried, h.delete.lost⟩
  | faultEvict hcall =>
    rename_i c changed effect
    cases effect with
    | false => exact ⟨h.stored, h.carried, h.lost⟩
    | true => exact ⟨h.delete.stored, h.delete.carried, h.delete.lost⟩
  | cache hs hloads =>
    have hfrom : ∀ value, (∃ i, (w.cache.callers i).carried = some (.ok value)) ∨ .set value ∈ w.cache.lost →
        Was id w.tables value := by
      rintro value (⟨i, hcarried⟩ | hlost)
      · exact h.carried i value hcarried
      · exact h.lost value hlost
    refine ⟨fun value hvalue => ?_, fun i value hvalue => ?_, fun value hvalue => hfrom value (lost_step hs hvalue)⟩
    · rcases value_step hs hvalue with hold | hstores
      · exact h.stored value hold
      · exact hfrom value (stores_from hs hstores)
    · rcases carried_step hs hvalue with hold | ⟨other, hstored, hsame⟩ | ⟨result, rfl, hload⟩ | ⟨hredis, _⟩
      · exact h.carried i value hold
      · cases hsame
        exact h.stored value hstored
      · cases result with
        | ok other =>
          cases hload
          obtain ⟨hin, hid⟩ := loaded hloads
          exact ⟨_, hin, hid, .refl _⟩
        | error error => cases hload
      · cases hredis

/-- However old the cached order is: a read gives it to those, and only to those, who may read the order as it stands
now, and it differs from that one in its status and `updatedAt` only. -/
theorem reads_authorized (lib : Casl) {offers : Nat → Option Placement.SellerOffer}
    {tr : List (OrderState E × OrderMove E)}
    (hr : Run (OrderStep id) (.start (.empty offers)) tr w) (i : Nat) (value : Order × List OrderLine)
    (hdone : w.cache.callers i = .done (.ok value)) (identity : AccessTokenClaims) :
    ∃ row ∈ w.tables.orders, row.id = id ∧ value.1.Later row ∧
      (MayRead identity row ↔
        OrderService.findReadableById lib value.1 (AbilityFactory.createFor identity) = .ok value.1) := by
  have h : Remembers id w := hr.invariant (remembers_start offers) remembers_step
  have hcarried : (w.cache.callers i).carried = some (.ok value) := by rw [hdone]; rfl
  obtain ⟨row, hin, hid, hlater⟩ := h.carried i value hcarried
  have howner : row.ownerIdentityPublicId = value.1.ownerIdentityPublicId := by rw [hlater]
  refine ⟨row, hin, hid, hlater, ?_⟩
  rw [findReadableById_ok, MayRead, MayRead, howner]
  simp

/-- Rules that allow, as casl checks them. -/
def plainCasl : Casl where
  can ability action subject ownerIdentityPublicId := ability.any fun rule => rule.action = action &&
    rule.subject = subject && rule.ownerIdentityPublicId.all fun owner => owner = ownerIdentityPublicId
  can_of_matches := by
    intro ability rule action subject owner hrule hmatches
    obtain ⟨haction, hsubject, howner⟩ := hmatches
    refine List.any_eq_true.mpr ⟨rule, hrule, ?_⟩
    simpa [haction, hsubject, Option.all_eq_true] using howner
  matches_of_can := by
    intro ability action subject owner hcan
    obtain ⟨rule, hrule, hmatches⟩ := List.any_eq_true.mp hcan
    simp only [Bool.and_eq_true, decide_eq_true_eq, Option.all_eq_true] at hmatches
    exact ⟨rule, hrule, hmatches.1.1, hmatches.1.2, hmatches.2⟩

/-- A stale read: the order is paid, and its owner gets the pending one. -/
theorem reads_authorized_stale : ∃ tr value, ∃ w : OrderState String,
    Run (OrderStep 1) (.start (.empty sampleOffers)) tr w ∧ w.cache.callers 1 = .done (.ok value) ∧
      value.1.status = .pendingPayment ∧ ∃ row ∈ w.tables.orders, row.id = 1 ∧ value.1.Later row ∧
        (MayRead ⟨value.1.ownerIdentityPublicId, .user⟩ row ↔ OrderService.findReadableById plainCasl value.1
          (AbilityFactory.createFor ⟨value.1.ownerIdentityPublicId, .user⟩) = .ok value.1) := by
  obtain ⟨s, answer, s', value, _, hplace, hmark, hload, hpending, _⟩ := placed_and_paid
  have hnil : Run (OrderStep 1) (.start (.empty sampleOffers) : OrderState String) [] (.start (.empty sampleOffers)) :=
    .nil
  have hr := Run.snoc (Run.snoc (Run.snoc (Run.snoc (Run.snoc (Run.snoc (Run.snoc (Run.snoc hnil
    (.other (q := sampleRequest) rfl True.intro (commit_of_run hplace)))
    (.cache (.read (i := 0) rfl) True.intro)) (.cache (.enter (i := 0) rfl) True.intro))
    (.cache (.turn (i := 0) rfl (show 0 < 5000 by decide)) True.intro))
    (.cache (.acquire (i := 0) rfl (show World.Fresh _ "a" from List.forall_mem_nil _) rfl) True.intro))
    (.cache (Step.load rfl : Step _ (.load 0 (.ok value)) _) hload))
    (.commit (c := 0) (q := .markPaid ⟨2, 1_700⟩ 1) rfl rfl True.intro (commit_of_run hmark))) (.evict (c := 0) rfl)
  have hread := Run.snoc (Run.snoc hr (.cache (.store (i := 0) rfl) True.intro))
    (.cache (.read (i := 1) rfl) True.intro)
  exact ⟨_, value, _, hread, rfl, hpending, reads_authorized plainCasl hread 1 value rfl _⟩

end MarketplaceApi.Cache
