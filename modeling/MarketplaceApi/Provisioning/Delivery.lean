import MarketplaceApi.Provisioning.Buyers

/-!
# From a registration to its user, account and buyer

The three consumers behind the two topics. A topic keeps its events, and a consumer may begin
any of them at any time and any number of times: that covers redelivery, replay, concurrent
consumers and a crash before the offset was committed. A relay may append the event of a
committed row as often as it likes.
-/
namespace MarketplaceApi.Provisioning

open Messaging Txn
open Placement (OrderBuyer)

/-- What `identity.registered` tells of an `Identity`. -/
structure Identity where
  id : Nat
  publicId : String
  email : Option String
  fullNumber : Option String
  role : String
  createdAt : Nat
  deriving DecidableEq

namespace IdentityMessageService

def toIdentityRegisteredOutbox (identity : Identity) : OutboxRow IdentityRegisteredEvent.Data where
  id := identity.publicId
  topic := IdentityRegisteredEvent.TOPIC
  aggregateType := "Identity"
  aggregateId := identity.publicId
  type := IdentityRegisteredEvent.TYPE
  payload :=
    { identityId := identity.id
      identityPublicId := identity.publicId
      email := identity.email
      phoneNumber := identity.fullNumber
      role := identity.role
      createdAt := identity.createdAt }

end IdentityMessageService

/-- A registration inserts its identity and that identity's row together. -/
structure World where
  identities : List Identity
  identityTopic : List (CloudEvent IdentityRegisteredEvent.Data)
  users : Config UserLock UserTables UserFailure Unit UserRequest
  userTopic : List (CloudEvent UserCreatedEvent.Data)
  buyers : Config BuyerLock (List OrderBuyer) BuyerFailure BuyerStatus (CloudEvent UserCreatedEvent.Data)
  accounts : Config Account.Lock Account.Tables Account.Failure Account.Status Account.Request

inductive Event where
  | register (identity : Identity)
  | relayIdentity (identity : Identity)
  | profile (ev : Txn.Event UserRequest)
  | relayUser (row : UserOutbox)
  | buyers (ev : Txn.Event (CloudEvent UserCreatedEvent.Data))
  | accounts (ev : Txn.Event Account.Request)

/-- The id and the public id of an identity are unique columns. -/
def Identity.Distinct (identity other : Identity) : Prop :=
  identity.id ≠ other.id ∧ identity.publicId ≠ other.publicId

section
variable (isUuid isEmail : String → Bool)

/-- Charges and refunds of any customers go on beside the deliveries. -/
inductive Step : World → Event → World → Prop
  | register {w identity} : (∀ other ∈ w.identities, identity.Distinct other) →
      Step w (.register identity) { w with identities := identity :: w.identities }
  | relayIdentity {w identity} : identity ∈ w.identities →
      Step w (.relayIdentity identity) { w with identityTopic := w.identityTopic ++
        [toCloudEvent IdentityRegisteredEvent.SOURCE (IdentityMessageService.toIdentityRegisteredOutbox identity)] }
  | profile {w ev c} : Txn.Step (profile isUuid isEmail) w.users ev c →
      (∀ i q, ev = .begin i q → q.event ∈ w.identityTopic) → Step w (.profile ev) { w with users := c }
  | relayUser {w row} : row ∈ w.users.db.outbox →
      Step w (.relayUser row)
        { w with userTopic := w.userTopic ++ [toCloudEvent UserCreatedEvent.SOURCE row] }
  | buyers {w ev c} : Txn.Step (buyersConsumer isUuid) w.buyers ev c →
      (∀ i event, ev = .begin i event → event ∈ w.userTopic) → Step w (.buyers ev) { w with buyers := c }
  | accounts {w ev c} : Txn.Step Account.traffic w.accounts ev c →
      (∀ i customerId, ev = .begin i (.userCreated customerId) → ∃ event ∈ w.userTopic,
        AccountUserEventsGateway.userCreated? isUuid event = some (.userCreated customerId)) →
      Step w (.accounts ev) { w with accounts := c }

end

/-- No two rows share a key. -/
def Keyed {R K : Type} (keys : R → List K) (rows : List R) : Prop :=
  rows.Pairwise fun x y => ∀ k ∈ keys x, k ∉ keys y

/-- How the tables and the topics fit together. An event from before `identityPublicId` existed
names no identity. -/
structure Consistent (w : World) : Prop where
  identities : w.identities.Pairwise Identity.Distinct
  announced : ∀ event ∈ w.identityTopic, ∃ identity ∈ w.identities,
    event.data.identityId = identity.id ∧ event.data.identityPublicId = identity.publicId
  users : Keyed User.keys w.users.db.users
  owned : ∀ user ∈ w.users.db.users, ∃ identity ∈ w.identities,
    user.identityId = identity.id ∧ user.identityPublicId = identity.publicId
  rows : ∀ row ∈ w.users.db.outbox, ∃ user ∈ w.users.db.users, row = UserMessageService.toUserCreatedOutbox user
  created : ∀ event ∈ w.userTopic, ∀ identityPublicId, event.data.identityPublicId = some identityPublicId →
    ∃ user ∈ w.users.db.users, event.data.userId = user.id ∧ identityPublicId = user.identityPublicId
  buyers : Keyed buyerKeys w.buyers.db
  bound : ∀ buyer ∈ w.buyers.db, ∃ user ∈ w.users.db.users,
    buyer.userId = user.id ∧ buyer.identityPublicId = user.identityPublicId

/-- The answer to a `user.created` event that opened the account. -/
def opened (customerId : Nat) : Account.Request × Except Account.Failure Account.Status → Bool
  | (.userCreated c, .ok (.created true)) => decide (c = customerId)
  | _ => false

/-- A consistent start, with no transaction open. -/
structure Deployed (w : World) : Prop where
  consistent : Consistent w
  users : w.users = .start w.users.db
  buyers : w.buyers = .start w.buyers.db
  accounts : w.accounts = .start w.accounts.db

/-- What every step keeps: the tables, coherent transactions, and requests taken from the topics. -/
structure Invariant (isUuid isEmail : String → Bool) (w : World) : Prop where
  consistent : Consistent w
  profiles : Coherent (profile isUuid isEmail) w.users
  registrations : Coherent (buyersConsumer isUuid) w.buyers
  openings : Coherent Account.traffic w.accounts
  profiling : ∀ i t, w.users.txs i = some t → t.request.event ∈ w.identityTopic
  registering : ∀ i t, w.buyers.txs i = some t → t.request ∈ w.userTopic

section
variable {isUuid isEmail : String → Bool} {w w' : World} {ev : Event}

theorem invariant_deployed (h : Deployed w) : Invariant isUuid isEmail w where
  consistent := h.consistent
  profiles := by
    rw [h.users]
    exact coherent_start _
  registrations := by
    rw [h.buyers]
    exact coherent_start _
  openings := by
    rw [h.accounts]
    exact coherent_start _
  profiling i t hi := by
    rw [h.users] at hi
    cases hi
  registering i t hi := by
    rw [h.buyers] at hi
    cases hi

/-- The rows of a table only ever gain one whose keys are free. -/
theorem Keyed.cons {R K : Type} {keys : R → List K} {rows : List R} {row : R} (h : Keyed keys rows)
    (hfree : ∀ other ∈ rows, ∀ k ∈ keys row, k ∉ keys other) : Keyed keys (row :: rows) :=
  List.pairwise_cons.mpr ⟨hfree, h⟩

/-- A commit of the profile consumer inserts nothing, or one user of an announced identity with its row. -/
theorem profile_step {c : Config UserLock UserTables UserFailure Unit UserRequest} {e : Txn.Event UserRequest}
    (h : Invariant isUuid isEmail w) (hs : Txn.Step (profile isUuid isEmail) w.users e c) :
    c.db = w.users.db ∨ ∃ i t, e = .commit i ∧ w.users.txs i = some t ∧
      t.request.event ∈ w.identityTopic ∧ t.request.user.keys.any w.users.db.taken = false ∧
      c.db = w.users.db.provision t.request.user := by
  rcases hs.moves h.profiles with ⟨_, hsame | henv⟩ | ⟨i, t, b, u, hcommit, hi, _, he⟩
  · exact Or.inl hsame
  · exact henv.elim
  · rcases exec_identityEvent he with hsame | ⟨_, hfree, hdb⟩
    · exact Or.inl hsame
    · exact Or.inr ⟨i, t, hcommit, hi, h.profiling i t hi, hfree, hdb⟩

/-- A commit of the buyers consumer inserts nothing, or the pair of an event of its topic. -/
theorem buyers_step {c : Config BuyerLock (List OrderBuyer) BuyerFailure BuyerStatus (CloudEvent UserCreatedEvent.Data)}
    {e : Txn.Event (CloudEvent UserCreatedEvent.Data)} (h : Invariant isUuid isEmail w)
    (hs : Txn.Step (buyersConsumer isUuid) w.buyers e c) :
    c.db = w.buyers.db ∨ ∃ event ∈ w.userTopic, ∃ identityPublicId,
      event.data.identityPublicId = some identityPublicId ∧
      conflicts ⟨identityPublicId, event.data.userId⟩ w.buyers.db = false ∧
      c.db = ⟨identityPublicId, event.data.userId⟩ :: w.buyers.db := by
  rcases hs.moves h.registrations with ⟨_, hsame | henv⟩ | ⟨i, t, b, status, _, hi, _, he⟩
  · exact Or.inl hsame
  · exact henv.elim
  · rcases exec_userEvent he with hsame | ⟨identityPublicId, hid, hfree, hdb⟩
    · exact Or.inl hsame
    · exact Or.inr ⟨t.request, h.registering i t hi, identityPublicId, hid, hfree, hdb⟩

theorem free_of_taken {s : UserTables} {user other : User} (h : user.keys.any s.taken = false)
    (hother : other ∈ s.users) : ∀ k ∈ user.keys, k ∉ other.keys := by
  intro k hk hin
  have hno := List.any_eq_false.mp h k hk
  refine hno ?_
  unfold UserTables.taken
  rw [Bool.or_eq_true, List.any_eq_true]
  exact Or.inl ⟨other, hother, decide_eq_true hin⟩

/-- The new user belongs to the identity its event announced. -/
theorem Consistent.provision {q : UserRequest} {c : Config UserLock UserTables UserFailure Unit UserRequest}
    (h : Consistent w) (hin : q.event ∈ w.identityTopic) (hfree : q.user.keys.any w.users.db.taken = false)
    (hdb : c.db = w.users.db.provision q.user) : Consistent { w with users := c } where
  identities := h.identities
  announced := h.announced
  users := by
    change Keyed User.keys c.db.users
    rw [hdb]
    exact Keyed.cons h.users fun other hother => free_of_taken hfree hother
  owned user huser := by
    change user ∈ c.db.users at huser
    rw [hdb] at huser
    rcases List.mem_cons.mp huser with rfl | hold
    · exact h.announced q.event hin
    · exact h.owned user hold
  rows row hrow := by
    change row ∈ c.db.outbox at hrow
    change ∃ user ∈ c.db.users, _
    rw [hdb] at hrow ⊢
    rcases List.mem_cons.mp hrow with rfl | hold
    · exact ⟨q.user, List.mem_cons_self, rfl⟩
    · obtain ⟨user, huser, hrow⟩ := h.rows row hold
      exact ⟨user, List.mem_cons_of_mem _ huser, hrow⟩
  created event hevent identityPublicId hid := by
    change ∃ user ∈ c.db.users, _
    rw [hdb]
    obtain ⟨user, huser, hboth⟩ := h.created event hevent identityPublicId hid
    exact ⟨user, List.mem_cons_of_mem _ huser, hboth⟩
  buyers := h.buyers
  bound buyer hbuyer := by
    change ∃ user ∈ c.db.users, _
    rw [hdb]
    obtain ⟨user, huser, hboth⟩ := h.bound buyer hbuyer
    exact ⟨user, List.mem_cons_of_mem _ huser, hboth⟩

/-- Tables that did not move. -/
theorem Consistent.same (h : Consistent w) {c : Config UserLock UserTables UserFailure Unit UserRequest}
    (hdb : c.db = w.users.db) : Consistent { w with users := c } := by
  constructor
  · exact h.identities
  · exact h.announced
  · change Keyed User.keys c.db.users
    rw [hdb]
    exact h.users
  · change ∀ user ∈ c.db.users, _
    rw [hdb]
    exact h.owned
  · change ∀ row ∈ c.db.outbox, ∃ user ∈ c.db.users, _
    rw [hdb]
    exact h.rows
  · change ∀ event ∈ w.userTopic, ∀ identityPublicId, _ → ∃ user ∈ c.db.users, _
    rw [hdb]
    exact h.created
  · exact h.buyers
  · change ∀ buyer ∈ w.buyers.db, ∃ user ∈ c.db.users, _
    rw [hdb]
    exact h.bound

theorem invariant_step (h : Invariant isUuid isEmail w) (hs : Step isUuid isEmail w ev w') :
    Invariant isUuid isEmail w' := by
  have hc := h.consistent
  cases hs with
  | @register identity hdistinct =>
    refine ⟨?_, h.profiles, h.registrations, h.openings, h.profiling, h.registering⟩
    refine ⟨List.pairwise_cons.mpr ⟨hdistinct, hc.identities⟩, fun event hevent => ?_, hc.users,
      fun user huser => ?_, hc.rows, hc.created, hc.buyers, hc.bound⟩
    · obtain ⟨identity, hin, hboth⟩ := hc.announced event hevent
      exact ⟨identity, List.mem_cons_of_mem _ hin, hboth⟩
    · obtain ⟨identity, hin, hboth⟩ := hc.owned user huser
      exact ⟨identity, List.mem_cons_of_mem _ hin, hboth⟩
  | @relayIdentity identity hidentity =>
    refine ⟨?_, h.profiles, h.registrations, h.openings, fun i t hi => ?_, h.registering⟩
    · refine ⟨hc.identities, fun event hevent => ?_, hc.users, hc.owned, hc.rows, hc.created, hc.buyers, hc.bound⟩
      rcases List.mem_append.mp hevent with hold | hnew
      · exact hc.announced event hold
      · rw [List.mem_singleton] at hnew
        subst hnew
        exact ⟨identity, hidentity, rfl, rfl⟩
    · exact List.mem_append_left _ (h.profiling i t hi)
  | @profile e c hstep hbegin =>
    have hrequests : ∀ i t, c.txs i = some t → t.request.event ∈ w.identityTopic :=
      hstep.requests (P := fun q => q.event ∈ w.identityTopic) h.profiling hbegin
    refine ⟨?_, coherent_step h.profiles hstep, h.registrations, h.openings, hrequests, h.registering⟩
    rcases profile_step h hstep with hsame | ⟨_, t, _, _, hin, hfree, hdb⟩
    · exact hc.same hsame
    · exact hc.provision hin hfree hdb
  | @relayUser row hrow =>
    refine ⟨?_, h.profiles, h.registrations, h.openings, h.profiling, fun i t hi => ?_⟩
    · refine ⟨hc.identities, hc.announced, hc.users, hc.owned, hc.rows, fun event hevent identityPublicId hid => ?_,
        hc.buyers, hc.bound⟩
      rcases List.mem_append.mp hevent with hold | hnew
      · exact hc.created event hold identityPublicId hid
      · rw [List.mem_singleton] at hnew
        subst hnew
        obtain ⟨user, huser, rfl⟩ := hc.rows row hrow
        refine ⟨user, huser, rfl, ?_⟩
        change some user.identityPublicId = some identityPublicId at hid
        exact (Option.some.inj hid).symm
    · exact List.mem_append_left _ (h.registering i t hi)
  | @buyers e c hstep hbegin =>
    have hrequests : ∀ i t, c.txs i = some t → t.request ∈ w.userTopic :=
      hstep.requests (P := fun event => event ∈ w.userTopic) h.registering hbegin
    refine ⟨?_, h.profiles, coherent_step h.registrations hstep, h.openings, h.profiling, hrequests⟩
    refine ⟨hc.identities, hc.announced, hc.users, hc.owned, hc.rows, hc.created, ?_, ?_⟩
    · change Keyed buyerKeys c.db
      rcases buyers_step h hstep with hsame | ⟨event, _, identityPublicId, _, hfree, hdb⟩
      · rw [hsame]
        exact hc.buyers
      · rw [hdb]
        refine Keyed.cons hc.buyers fun other hother k hk hin => ?_
        rw [conflicts_iff.mpr ⟨other, hother, k, hk, hin⟩] at hfree
        cases hfree
    · change ∀ buyer ∈ c.db, _
      rcases buyers_step h hstep with hsame | ⟨event, hevent, identityPublicId, hid, _, hdb⟩
      · rw [hsame]
        exact hc.bound
      · rw [hdb]
        intro buyer hbuyer
        rcases List.mem_cons.mp hbuyer with rfl | hold
        · obtain ⟨user, huser, hsame, hpublic⟩ := hc.created event hevent identityPublicId hid
          exact ⟨user, huser, congrArg Nat.cast hsame, hpublic⟩
        · exact hc.bound buyer hold
  | accounts hstep _ =>
    exact ⟨⟨hc.identities, hc.announced, hc.users, hc.owned, hc.rows, hc.created, hc.buyers, hc.bound⟩, h.profiles,
      h.registrations, coherent_step h.openings hstep, h.profiling, h.registering⟩

end

end MarketplaceApi.Provisioning
