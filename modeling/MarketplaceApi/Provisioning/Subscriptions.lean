import MarketplaceApi.Kafka.Delivery
import MarketplaceApi.Provisioning.Once

/-!
# The groups behind the two topics

`user.profile` reads `identity.events`, `order.buyers` and `account.provisioning` read `user.events`. Each is a
subscription of `KafkaConsumerService`, with what it owes to every event that is valid for it.
-/
namespace MarketplaceApi.Provisioning

open Messaging Txn
open Kafka (Parsed Subscription Purpose Message)
open Placement (OrderBuyer)

section
variable (isUuid isEmail : String → Bool)

/-- `decode` is `JSON.parse`. A value that is no event of the topic is skipped for its `type`, or refused for its
shape. -/
def profileSubscription (decode : String → Parsed (CloudEvent IdentityRegisteredEvent.Data)) :
    Subscription UserLock UserTables UserFailure Unit UserRequest (CloudEvent IdentityRegisteredEvent.Data) where
  system := profile isUuid isEmail
  parse := decode
  request event q := q.event = event
  rejected failure := decide (failure = .rejectedMessage)

def buyersSubscription (decode : String → Parsed (CloudEvent UserCreatedEvent.Data)) :
    Subscription BuyerLock (List OrderBuyer) BuyerFailure BuyerStatus (CloudEvent UserCreatedEvent.Data)
      (CloudEvent UserCreatedEvent.Data) where
  system := buyersConsumer isUuid
  parse := decode
  request event q := q = event
  rejected failure := decide (failure = .rejectedMessage)

/-- The checks of `AccountUserEventsGateway.handle` come before its transaction. -/
def accountParse (decode : String → Parsed (CloudEvent UserCreatedEvent.Data)) (text : String) :
    Parsed (CloudEvent UserCreatedEvent.Data) :=
  match decode text with
  | .event event =>
    if event.type != UserCreatedEvent.TYPE then .skipped
    else if !accountUserCreatedEventSchema isUuid event then .rejected
    else .event event
  | other => other

/-- Nothing that `AccountCreateCommandHandler` throws is a `KafkaRejectedMessageException`. -/
def accountSubscription (decode : String → Parsed (CloudEvent UserCreatedEvent.Data)) :
    Subscription Account.Lock Account.Tables Account.Failure Account.Status Account.Request
      (CloudEvent UserCreatedEvent.Data) where
  system := Account.traffic
  parse := accountParse isUuid decode
  request event q := AccountUserEventsGateway.userCreated? isUuid event = some q
  rejected _ := false

end

/-- The user of an event: both ids of its identity. -/
def User.isFor (user : User) (data : IdentityRegisteredEvent.Data) : Prop :=
  user.identityId = data.identityId ∧ user.identityPublicId = data.identityPublicId

section
variable {isUuid isEmail : String → Bool} {b s s' : UserTables} {q : UserRequest}
  {decode : String → Parsed (CloudEvent IdentityRegisteredEvent.Data)}

/-- A committed delivery: skipped, done before, or done now. -/
theorem exec_profile {u : Unit}
    (h : Exec userIsolation b (UserIdentityEventsGateway.handle isUuid isEmail q.gen q.event) s s' (.ok u)) :
    (q.event.type ≠ IdentityRegisteredEvent.TYPE ∧ s' = s) ∨
      (identityRegisteredEventSchema isUuid isEmail q.event = true ∧
        ((q.user.keys.any s.taken = true ∧ s' = s) ∨
          (q.user.keys.any s.taken = false ∧ s' = s.provision q.user))) := by
  unfold UserIdentityEventsGateway.handle at h
  split at h
  · rename_i hother
    cases h
    exact Or.inl ⟨by simpa using hother, rfl⟩
  · split at h
    · cases h
    · rename_i haccepted
      refine Or.inr ⟨by simpa using haccepted, ?_⟩
      exact exec_userCreate h

theorem exec_userCreate_error {gen : Generated} {input : UserCreate} {e : UserFailure}
    (h : Exec userIsolation b (UserCreateCommandHandler.execute gen input) s s' (.error e)) : e ≠ .rejectedMessage := by
  have hinsert : ∀ {b s s'}, Exec userIsolation b (UserRepository.createIfAbsent gen input) s s' (.error e) →
      e ≠ .rejectedMessage := by
    intro b s s' h
    unfold UserRepository.createIfAbsent at h
    split at h
    · cases h
      simp
    split at h
    · cases h
      simp
    · rcases Exec.of_bind_error h with hl | ⟨_, _, found, _, _, hf⟩
      · cases hl with
        | peek _ _ _ h => cases h
      · split at hf
        · cases hf
        · have he := hf.of_exec_error
          split at he <;> cases he
  rcases Exec.of_bind_error h with hc | ⟨_, _, created, _, _, hf⟩
  · exact hinsert hc
  · split at hf
    · rcases Exec.of_bind_error hf with hfind | ⟨_, _, user, _, _, hcreate⟩
      · have he := hfind.of_exec_error
        split at he
        · cases he
        · cases he
          simp
      · have he := hcreate.of_exec_error
        split at he
        · cases he
          simp
        · cases he
    · cases hf

/-- A delivery is rejected for what the event is, whatever the tables. -/
theorem exec_profile_rejected
    (h : Exec userIsolation b (UserIdentityEventsGateway.handle isUuid isEmail q.gen q.event) s s'
      (.error .rejectedMessage)) :
    q.event.type = IdentityRegisteredEvent.TYPE ∧ identityRegisteredEventSchema isUuid isEmail q.event = false := by
  unfold UserIdentityEventsGateway.handle at h
  split at h
  · cases h
  · rename_i htype
    split at h
    · rename_i hrefused
      exact ⟨by simpa using htype, by simpa using hrefused⟩
    · exact absurd rfl (exec_userCreate_error h)

end

section
variable {isUuid : String → Bool} {b buyers buyers' : List OrderBuyer} {event : CloudEvent UserCreatedEvent.Data}

/-- A committed delivery of `user.created` to the buyers. -/
theorem exec_buyer {status : BuyerStatus}
    (h : Exec buyerIsolation b (OrderUserEventsGateway.handle isUuid event) buyers buyers' (.ok status)) :
    (event.type ≠ UserCreatedEvent.TYPE ∧ buyers' = buyers) ∨ (orderUserCreatedEventSchema isUuid event = true ∧
      ((event.data.identityPublicId = none ∧ buyers' = buyers) ∨ ∃ identityPublicId,
        event.data.identityPublicId = some identityPublicId ∧
          ((conflicts ⟨identityPublicId, event.data.userId⟩ buyers = true ∧ buyers' = buyers) ∨
            buyers' = ⟨identityPublicId, event.data.userId⟩ :: buyers))) := by
  unfold OrderUserEventsGateway.handle at h
  split at h
  · rename_i hother
    cases h
    exact Or.inl ⟨by simpa using hother, rfl⟩
  · split at h
    · cases h
    · rename_i haccepted
      refine Or.inr ⟨by simpa using haccepted, ?_⟩
      split at h
      · rename_i hnone
        cases h
        exact Or.inl ⟨hnone, rfl⟩
      · rename_i identityPublicId hid
        obtain ⟨_, _, inserted, _, hc, hf⟩ := Exec.of_bind h
        cases hf
        rcases exec_buyerCreateIfAbsent hc with ⟨_, _, hdb⟩ | ⟨_, htaken, hdb⟩
        · exact Or.inr ⟨identityPublicId, hid, Or.inr hdb⟩
        · exact Or.inr ⟨identityPublicId, hid, Or.inl ⟨htaken, hdb⟩⟩

theorem exec_buyerCreateIfAbsent_error {buyer : OrderBuyer} {e : BuyerFailure}
    (h : Exec buyerIsolation b (OrderBuyerRepository.createIfAbsent buyer) buyers buyers' (.error e)) :
    e = .integerOverflow := by
  unfold OrderBuyerRepository.createIfAbsent at h
  split at h
  · cases h
    rfl
  · rcases Exec.of_bind_error h with hl | ⟨_, _, found, _, _, hf⟩
    · cases hl with
      | peek _ _ _ h => cases h
    · split at hf
      · cases hf
      · have he := hf.of_exec_error
        split at he <;> cases he

theorem exec_buyer_rejected
    (h : Exec buyerIsolation b (OrderUserEventsGateway.handle isUuid event) buyers buyers' (.error .rejectedMessage)) :
    event.type = UserCreatedEvent.TYPE ∧ orderUserCreatedEventSchema isUuid event = false := by
  unfold OrderUserEventsGateway.handle at h
  split at h
  · cases h
  · rename_i htype
    split at h
    · rename_i hrefused
      exact ⟨by simpa using htype, by simpa using hrefused⟩
    · split at h
      · cases h
      · rcases Exec.of_bind_error h with hc | ⟨_, _, inserted, _, _, hf⟩
        · cases exec_buyerCreateIfAbsent_error hc
        · cases hf

end

/-- Two identities never share one of their ids. -/
def Identified (identities : List Identity) : Prop :=
  ∀ x ∈ identities, ∀ y ∈ identities, x.id = y.id ∨ x.publicId = y.publicId → x = y

/-- Two buyers never share a key. -/
def Known (known : List OrderBuyer) : Prop :=
  ∀ x ∈ known, ∀ y ∈ known, (∃ k ∈ buyerKeys x, k ∈ buyerKeys y) → x = y

/-- The identity of an event. -/
def Identity.isOf (identity : Identity) (data : IdentityRegisteredEvent.Data) : Prop :=
  data.identityId = identity.id ∧ data.identityPublicId = identity.publicId

/-- The identity of a user. -/
def Identity.owns (identity : Identity) (user : User) : Prop :=
  user.identityId = identity.id ∧ user.identityPublicId = identity.publicId

section
variable (isUuid isEmail : String → Bool)

/-- Nothing to do for an event of another type, and a user for a registration. -/
def Registered (s : UserTables) (event : CloudEvent IdentityRegisteredEvent.Data) : Prop :=
  event.type ≠ IdentityRegisteredEvent.TYPE ∨
    (identityRegisteredEventSchema isUuid isEmail event = true ∧ ∃ user ∈ s.users, user.isFor event.data)

/-- Nothing to do for an event of another type or from before `identityPublicId`, and else the buyer. -/
def Bound (buyers : List OrderBuyer) (event : CloudEvent UserCreatedEvent.Data) : Prop :=
  event.type ≠ UserCreatedEvent.TYPE ∨ (orderUserCreatedEventSchema isUuid event = true ∧
    ∀ identityPublicId, event.data.identityPublicId = some identityPublicId →
      ⟨identityPublicId, (event.data.userId : Int)⟩ ∈ buyers)

end

section
variable {isUuid isEmail : String → Bool} {identities : List Identity} {known : List OrderBuyer}

/-- A taken key is the key of the identity's own user, as the drawn values are fresh. -/
theorem isFor_of_taken {s : UserTables} {q : UserRequest} (hids : Identified identities)
    (hgood : ∀ user ∈ s.users, ∃ identity ∈ identities, identity.owns user)
    (hfresh : ∀ user ∈ s.users, user.id ≠ q.gen.id ∧ user.publicId ≠ q.gen.publicId)
    (hof : ∃ identity ∈ identities, identity.isOf q.event.data) (htaken : q.user.keys.any s.taken = true) :
    ∃ user ∈ s.users, user.isFor q.event.data := by
  obtain ⟨k, hk, htaken⟩ := List.any_eq_true.mp htaken
  obtain ⟨identity, hidentity, hid, hpublic⟩ := hof
  have hevent : ∀ id, k ≠ .event id := by
    rintro id rfl
    simp [User.keys] at hk
  obtain ⟨user, huser, hkey⟩ : ∃ user ∈ s.users, k ∈ user.keys := by
    unfold UserTables.taken at htaken
    rw [Bool.or_eq_true, List.any_eq_true, List.any_eq_true] at htaken
    rcases htaken with ⟨user, huser, hkey⟩ | ⟨row, _, hrow⟩
    · exact ⟨user, huser, of_decide_eq_true hkey⟩
    · exact absurd (of_decide_eq_true hrow) (hevent row.id)
  obtain ⟨owner, howner, howns⟩ := hgood user huser
  have hshared : identity.id = owner.id ∨ identity.publicId = owner.publicId := by
    obtain ⟨hnoId, hnoPublic⟩ := hfresh user huser
    rw [← hid, ← hpublic, ← howns.1, ← howns.2]
    simp only [User.keys, UserRequest.user, UserCreate.toUser, UserRequest.input, List.mem_cons, List.not_mem_nil,
      or_false] at hk hkey
    rcases hk with rfl | rfl | rfl | rfl
    · simp [Ne.symm hnoId] at hkey
    · simp [Ne.symm hnoPublic] at hkey
    · exact Or.inl (by simpa using hkey)
    · exact Or.inr (by simpa using hkey)
  obtain rfl := hids identity hidentity owner howner hshared
  exact ⟨user, huser, howns.1.trans hid.symm, howns.2.trans hpublic.symm⟩

/-- What a schema accepts is not refused. -/
theorem not_refused {p : Prop} {accepted : Bool} (h : accepted = true) : ¬ (p ∧ accepted = false) := by
  rw [h]
  simp

/-- Every user is an identity's, and its row is the one that announces it. -/
structure Provisioned (identities : List Identity) (s : UserTables) : Prop where
  owned : ∀ user ∈ s.users, ∃ identity ∈ identities, identity.owns user
  rows : s.outbox = s.users.map UserMessageService.toUserCreatedOutbox
  keyed : Keyed User.keys s.users

theorem provisioned_empty : Provisioned identities ⟨[], []⟩ where
  owned _ huser := absurd huser List.not_mem_nil
  rows := rfl
  keyed := .nil

theorem Provisioned.provision {s : UserTables} {user : User} (h : Provisioned identities s)
    (howned : ∃ identity ∈ identities, identity.owns user) (hfree : user.keys.any s.taken = false) :
    Provisioned identities (s.provision user) where
  owned := List.forall_mem_cons.mpr ⟨howned, h.owned⟩
  rows := by
    change UserMessageService.toUserCreatedOutbox user :: s.outbox = _
    rw [h.rows]
    rfl
  keyed := h.keyed.cons fun _ hother => free_of_taken hfree hother

/-- What `user.profile` rejects is a registration that its schema refuses. -/
theorem profile_refused {decode : String → Parsed (CloudEvent IdentityRegisteredEvent.Data)}
    {event : CloudEvent IdentityRegisteredEvent.Data} {q : UserRequest} {b s s' : UserTables} {e : UserFailure}
    (hq : (profileSubscription isUuid isEmail decode).request event q)
    (hrejected : (profileSubscription isUuid isEmail decode).rejected e = true)
    (_ : (profileSubscription isUuid isEmail decode).system.isolation.le b s)
    (he : Exec (profileSubscription isUuid isEmail decode).system.isolation b
      ((profileSubscription isUuid isEmail decode).system.handler q) s s' (.error e)) :
    event.type = IdentityRegisteredEvent.TYPE ∧ identityRegisteredEventSchema isUuid isEmail event = false := by
  obtain rfl : q.event = event := hq
  obtain rfl : e = .rejectedMessage := of_decide_eq_true hrejected
  exact exec_profile_rejected he

/-- `user.profile` owes every valid registration of `identities` a user. -/
def profilePurpose (decode : String → Parsed (CloudEvent IdentityRegisteredEvent.Data)) (hids : Identified identities) :
    Purpose (profileSubscription isUuid isEmail decode) where
  Admitted q := identityRegisteredEventSchema isUuid isEmail q.event = true →
    ∃ identity ∈ identities, identity.isOf q.event.data
  Fresh s q := ∀ user ∈ s.users, user.id ≠ q.gen.id ∧ user.publicId ≠ q.gen.publicId
  Good := Provisioned identities
  Done := Registered isUuid isEmail
  Refused event :=
    event.type = IdentityRegisteredEvent.TYPE ∧ identityRegisteredEventSchema isUuid isEmail event = false
  done := by
    intro event q b s s' u hq hadmitted hfresh hgood _ he
    obtain rfl : q.event = event := hq
    rcases exec_profile he with ⟨hother, _⟩ | ⟨haccepted, ⟨htaken, rfl⟩ | ⟨_, rfl⟩⟩
    · exact Or.inl hother
    · exact Or.inr ⟨haccepted, isFor_of_taken hids hgood.owned hfresh (hadmitted haccepted) htaken⟩
    · exact Or.inr ⟨haccepted, q.user, List.mem_cons_self, rfl, rfl⟩
  refused := @profile_refused isUuid isEmail decode
  apart := by
    rintro s event hrefused (hother | ⟨haccepted, _⟩)
    · exact hother hrefused.1
    · exact not_refused haccepted hrefused
  good := by
    intro q b s s' u hadmitted _ hgood _ he
    rcases exec_profile he with ⟨_, rfl⟩ | ⟨haccepted, ⟨_, rfl⟩ | ⟨hfree, rfl⟩⟩
    · exact hgood
    · exact hgood
    · exact hgood.provision (hadmitted haccepted) hfree
  kept := by
    rintro event q b s s' u hle he (hother | ⟨haccepted, user, huser, hfor⟩)
    · exact Or.inl hother
    · have hgrow := he.grows (safe_identityEvent isUuid isEmail q.event) hle
      exact Or.inr ⟨haccepted, user, hgrow.1.subset huser, hfor⟩
  env_good h := h.elim
  env_kept h := h.elim

/-- `order.buyers` owes every valid event a buyer, when the events tell of known pairs only. -/
def buyersPurpose (decode : String → Parsed (CloudEvent UserCreatedEvent.Data)) (hknown : Known known) :
    Purpose (buyersSubscription isUuid decode) where
  Admitted event := orderUserCreatedEventSchema isUuid event = true → ∀ identityPublicId,
    event.data.identityPublicId = some identityPublicId → ⟨identityPublicId, (event.data.userId : Int)⟩ ∈ known
  Fresh _ _ := True
  Good buyers := ∀ buyer ∈ buyers, buyer ∈ known
  Done := Bound isUuid
  Refused event := event.type = UserCreatedEvent.TYPE ∧ orderUserCreatedEventSchema isUuid event = false
  done := by
    intro event q b buyers buyers' status hq hadmitted _ hgood _ he
    obtain rfl : q = event := hq
    rcases exec_buyer he with ⟨hother, _⟩ | ⟨haccepted, ⟨hnone, _⟩ | ⟨identityPublicId, hid, hrow⟩⟩
    · exact Or.inl hother
    · refine Or.inr ⟨haccepted, fun identityPublicId hid => ?_⟩
      rw [hnone] at hid
      cases hid
    · refine Or.inr ⟨haccepted, fun identityPublicId' hid' => ?_⟩
      obtain rfl : identityPublicId = identityPublicId' := Option.some.inj (hid.symm.trans hid')
      rcases hrow with ⟨htaken, rfl⟩ | rfl
      · obtain ⟨other, hother, hshared⟩ := conflicts_iff.mp htaken
        rw [hknown _ (hadmitted haccepted _ hid) other (hgood other hother) hshared]
        exact hother
      · exact List.mem_cons_self
  refused := by
    intro event q b buyers buyers' e hq hrejected _ he
    obtain rfl : q = event := hq
    obtain rfl : e = .rejectedMessage := of_decide_eq_true hrejected
    exact exec_buyer_rejected he
  apart := by
    rintro buyers event hrefused (hother | ⟨haccepted, _⟩)
    · exact hother hrefused.1
    · exact not_refused haccepted hrefused
  good := by
    intro event b buyers buyers' status hadmitted _ hgood _ he
    rcases exec_buyer he with ⟨_, rfl⟩ | ⟨haccepted, ⟨_, rfl⟩ | ⟨identityPublicId, hid, ⟨_, rfl⟩ | rfl⟩⟩
    · exact hgood
    · exact hgood
    · exact hgood
    · exact List.forall_mem_cons.mpr ⟨hadmitted haccepted identityPublicId hid, hgood⟩
  kept := by
    rintro event q b buyers buyers' status hle he (hother | ⟨haccepted, hbound⟩)
    · exact Or.inl hother
    · have hgrow : buyers.Sublist buyers' := he.grows safe_userEvent hle
      exact Or.inr ⟨haccepted, fun identityPublicId hid => hgrow.subset (hbound identityPublicId hid)⟩
  env_good h := h.elim
  env_kept h := h.elim

/-- `account.provisioning` owes every valid event an account, with charges and refunds going on beside it. -/
def accountPurpose (decode : String → Parsed (CloudEvent UserCreatedEvent.Data)) :
    Purpose (accountSubscription isUuid decode) where
  Admitted _ := True
  Fresh _ _ := True
  Good _ := True
  Done s event := (s.balance event.data.userId).isSome
  Refused _ := False
  done := by
    intro event q b s s' status hq _ _ _ _ he
    change AccountUserEventsGateway.userCreated? isUuid event = some q at hq
    unfold AccountUserEventsGateway.userCreated? at hq
    split at hq
    · obtain rfl := Option.some.inj hq
      have hc := Account.commit_of_exec (q := .userCreated event.data.userId) he
      cases hc with
      | accountCreated _ =>
        rw [Account.setBalance_self]
        rfl
      | accountKept hsome => exact hsome
    · cases hq
  refused := by
    intro event q b s s' e _ hrejected
    cases hrejected
  apart h := h.elim
  good := by
    intros
    trivial
  kept := by
    intro event q b s s' status hle he hopen
    exact (he.grows (Account.safe_handler b q) hle).2.2 _ hopen
  env_good h := h.elim
  env_kept h := h.elim

end

end MarketplaceApi.Provisioning
