import MarketplaceApi.Provisioning.Subscriptions

/-!
# From a registration to its buyer and account, through Kafka

The two topics with their three groups: each group has its members, its committed offsets and its dead letters.
The relays write to the topics, to any partition, and so may anyone what no group takes up.
-/
namespace MarketplaceApi.Provisioning

open Messaging Txn
open Kafka (Parsed Message Delivered)
open Placement (OrderBuyer)
open Transition (Run Always always_snoc)

/-- `JSON.stringify` of a relay, and what a group makes of a text. -/
structure Codec (D : Type) where
  encode : CloudEvent D → String
  decode : String → Parsed (CloudEvent D)
  decode_encode : ∀ event, decode (encode event) = .event event

/-- What a relay sends for a row. -/
def Codec.message {D : Type} (J : Codec D) (source : String) (row : OutboxRow D) : Message where
  key := some row.aggregateId
  value := some (J.encode (toCloudEvent source row))

/-- A text that is no event, or one that is not accepted. -/
def Codec.Foreign {D : Type} (J : Codec D) (accepts : CloudEvent D → Bool) (message : Message) : Prop :=
  ∀ event, J.decode (message.value.getD "") = .event event → accepts event = false

abbrev ProfileGroup := Kafka.World UserLock UserTables UserFailure Unit UserRequest

abbrev BuyersGroup :=
  Kafka.World BuyerLock (List OrderBuyer) BuyerFailure BuyerStatus (CloudEvent UserCreatedEvent.Data)

abbrev AccountsGroup := Kafka.World Account.Lock Account.Tables Account.Failure Account.Status Account.Request

structure Pipeline where
  identities : List Identity
  profile : ProfileGroup
  buyers : BuyersGroup
  accounts : AccountsGroup

inductive Pipeline.Event where
  | register (identity : Identity)
  | relayIdentity (identity : Identity) (partition : Nat)
  | foreignIdentity (message : Message) (partition : Nat)
  | profile (ev : Kafka.Event UserRequest)
  | relayUser (row : UserOutbox) (partition : Nat)
  | foreignUser (message : Message) (partition : Nat)
  | buyers (ev : Kafka.Event (CloudEvent UserCreatedEvent.Data))
  | accounts (ev : Kafka.Event Account.Request)

def Pipeline.start : Pipeline := ⟨[], .start ⟨[], []⟩, .start [], .start .empty⟩

/-- The groups get what is in their topics, and nothing else begins their transactions. -/
def Fed {K S E R Q : Type} (w : Kafka.World K S E R Q) (own : Q → Prop) (ev : Kafka.Event Q) : Prop :=
  (∀ partition message, ev ≠ .append partition message) ∧ ∀ i q, ev = .tx (.begin i q) → w.members i = none → ¬ own q

section
variable (isUuid isEmail : String → Bool) (I : Codec IdentityRegisteredEvent.Data) (U : Codec UserCreatedEvent.Data)

def identityMessage (identity : Identity) : Message :=
  I.message IdentityRegisteredEvent.SOURCE (IdentityMessageService.toIdentityRegisteredOutbox identity)

def userMessage (user : User) : Message :=
  U.message UserCreatedEvent.SOURCE (UserMessageService.toUserCreatedOutbox user)

/-- Charges and refunds share the tables of `account.provisioning`. -/
def opensAccount : Account.Request → Prop
  | .userCreated _ => True
  | _ => False

/-- An event that tells `order.buyers` of a pair: before `identityPublicId` existed there was none. -/
def bindsBuyer (event : CloudEvent UserCreatedEvent.Data) : Bool :=
  orderUserCreatedEventSchema isUuid event && event.data.identityPublicId.isSome

inductive Pipeline.Step : Pipeline → Pipeline.Event → Pipeline → Prop
  | register {w identity} : isInteger identity.id = true → (∀ other ∈ w.identities, identity.Distinct other) →
      Step w (.register identity) { w with identities := identity :: w.identities }
  | relayIdentity {w identity partition} : identity ∈ w.identities → Step w (.relayIdentity identity partition)
      { w with profile := w.profile.append partition (identityMessage I identity) }
  /-- Malformed texts, events of other types, events that are refused. -/
  | foreignIdentity {w message partition} : I.Foreign (identityRegisteredEventSchema isUuid isEmail) message →
      Step w (.foreignIdentity message partition) { w with profile := w.profile.append partition message }
  | profile {w ev c} : Fed w.profile (fun _ => True) ev →
      Kafka.Step (profileSubscription isUuid isEmail I.decode) w.profile ev c →
      Step w (.profile ev) { w with profile := c }
  | relayUser {w row partition} : row ∈ w.profile.db.db.outbox → Step w (.relayUser row partition) { w with
      buyers := w.buyers.append partition (U.message UserCreatedEvent.SOURCE row)
      accounts := w.accounts.append partition (U.message UserCreatedEvent.SOURCE row) }
  | foreignUser {w message partition} : U.Foreign (bindsBuyer isUuid) message →
      Step w (.foreignUser message partition) { w with
        buyers := w.buyers.append partition message, accounts := w.accounts.append partition message }
  | buyers {w ev c} : Fed w.buyers (fun _ => True) ev →
      Kafka.Step (buyersSubscription isUuid U.decode) w.buyers ev c → Step w (.buyers ev) { w with buyers := c }
  | accounts {w ev c} : Fed w.accounts opensAccount ev →
      Kafka.Step (accountSubscription isUuid U.decode) w.accounts ev c → Step w (.accounts ev) { w with accounts := c }

/-- The database draws ids that no user has. -/
def DrawsFreshIds (w : Pipeline) (ev : Pipeline.Event) : Prop :=
  ∀ i t, ev = .profile (.tx (.commit i)) → w.profile.db.txs i = some t →
    ∀ user ∈ w.profile.db.db.users, user.id ≠ t.request.gen.id ∧ user.publicId ≠ t.request.gen.publicId

/-- An event that the schema of `user.profile` accepts. -/
def Identity.valid (identity : Identity) : Prop :=
  identityRegisteredEventSchema isUuid isEmail (toCloudEvent IdentityRegisteredEvent.SOURCE
    (IdentityMessageService.toIdentityRegisteredOutbox identity)) = true

def User.validFor (schema : (String → Bool) → CloudEvent UserCreatedEvent.Data → Bool) (user : User) : Prop :=
  schema isUuid (toCloudEvent UserCreatedEvent.SOURCE (UserMessageService.toUserCreatedOutbox user)) = true

/-- What is behind the committed offsets has arrived, and only what is refused is a dead letter. -/
structure Arrived (w : Pipeline) : Prop where
  users : ∀ position, position.offset < w.profile.committed position.partition → ∀ identity ∈ w.identities,
    w.profile.message? position = some (identityMessage I identity) → identity.valid isUuid isEmail →
    ∃ user ∈ w.profile.db.db.users, identity.owns user
  rows : w.profile.db.db.outbox = w.profile.db.db.users.map UserMessageService.toUserCreatedOutbox
  buyers : ∀ position, position.offset < w.buyers.committed position.partition →
    ∀ user ∈ w.profile.db.db.users, w.buyers.message? position = some (userMessage U user) →
    user.validFor isUuid orderUserCreatedEventSchema → ⟨user.identityPublicId, (user.id : Int)⟩ ∈ w.buyers.db.db
  accounts : ∀ position, position.offset < w.accounts.committed position.partition →
    ∀ user ∈ w.profile.db.db.users, w.accounts.message? position = some (userMessage U user) →
    user.validFor isUuid accountUserCreatedEventSchema →
    (w.accounts.db.db.balance user.id).isSome
  identityLetters : ∀ letter ∈ w.profile.deadLetters, ∀ identity, identity.valid isUuid isEmail →
    letter.message ≠ identityMessage I identity
  buyerLetters : ∀ letter ∈ w.buyers.deadLetters, ∀ user : User, user.validFor isUuid orderUserCreatedEventSchema →
    letter.message ≠ userMessage U user
  accountLetters : ∀ letter ∈ w.accounts.deadLetters, ∀ user : User,
    user.validFor isUuid accountUserCreatedEventSchema → letter.message ≠ userMessage U user

end

section
variable {isUuid isEmail : String → Bool} {I : Codec IdentityRegisteredEvent.Data} {U : Codec UserCreatedEvent.Data}
  {w w' : Pipeline} {ev : Pipeline.Event} {tr : List (Pipeline × Pipeline.Event)} {all : List Identity}
  {known : List OrderBuyer}

@[simp] theorem read_message {D : Type} (J : Codec D) (source : String) (row : OutboxRow D) :
    J.decode ((J.message source row).value.getD "") = .event (toCloudEvent source row) := J.decode_encode _

theorem read_identity (identity : Identity) :
    (profileSubscription isUuid isEmail I.decode).read (identityMessage I identity) =
      .event (toCloudEvent IdentityRegisteredEvent.SOURCE
        (IdentityMessageService.toIdentityRegisteredOutbox identity)) := read_message I _ _

theorem read_user (user : User) : (buyersSubscription isUuid U.decode).read (userMessage U user) =
    .event (toCloudEvent UserCreatedEvent.SOURCE (UserMessageService.toUserCreatedOutbox user)) := read_message U _ _

/-- The group of the accounts checks the event while it reads. -/
theorem read_account {user : User} (h : user.validFor isUuid accountUserCreatedEventSchema) :
    (accountSubscription isUuid U.decode).read (userMessage U user) =
      .event (toCloudEvent UserCreatedEvent.SOURCE (UserMessageService.toUserCreatedOutbox user)) := by
  change accountParse isUuid U.decode _ = _
  have hread : U.decode ((userMessage U user).value.getD "") = _ := read_message U _ _
  have hvalid : accountUserCreatedEventSchema isUuid _ = true := h
  simp only [accountParse, hread, hvalid]
  rfl

theorem identified_of_distinct {identities : List Identity} (h : identities.Pairwise Identity.Distinct) :
    Identified identities := by
  intro x hx y hy hshared
  by_contra hne
  have : Std.Symm Identity.Distinct := ⟨fun _ _ h => ⟨h.1.symm, h.2.symm⟩⟩
  have hdistinct : x.Distinct y := h.forall hx hy hne
  rcases hshared with hid | hpublic
  · exact hdistinct.1 hid
  · exact hdistinct.2 hpublic

theorem distinct_step (h : w.identities.Pairwise Identity.Distinct) (hs : Pipeline.Step isUuid isEmail I U w ev w') :
    w'.identities.Pairwise Identity.Distinct := by
  cases hs with
  | register _ hdistinct => exact List.pairwise_cons.mpr ⟨hdistinct, h⟩
  | _ => exact h

theorem distinct_run (hr : Run (Pipeline.Step isUuid isEmail I U) Pipeline.start tr w) :
    w.identities.Pairwise Identity.Distinct := by
  induction hr with
  | nil => exact .nil
  | snoc _ hstep ih => exact distinct_step ih hstep

theorem identities_step (hs : Pipeline.Step isUuid isEmail I U w ev w') : w.identities ⊆ w'.identities := by
  cases hs with
  | register _ _ => exact List.subset_cons_self _ _
  | _ => exact List.Subset.refl _

/-- A group that is fed its topic meets its purpose, if the database draws fresh values for it. -/
theorem meets_of_fed {K S E R Q V : Type} {X : Kafka.Subscription K S E R Q V} {P : Kafka.Purpose X}
    {c : Kafka.World K S E R Q} {e : Kafka.Event Q} (hfed : Fed c (fun _ => True) e)
    (hfresh : ∀ i u, e = .tx (.commit i) → c.db.txs i = some u → P.Fresh c.db.db u.request) : P.Meets c e where
  fresh := hfresh
  message partition message _ _ he := absurd he (hfed.1 partition message)
  other i q he hi := absurd trivial (hfed.2 i q he hi)

/-- The run of `user.profile` in a run of the whole, against all the identities there will be. -/
theorem profile_run (hids : Identified all) (hr : Run (Pipeline.Step isUuid isEmail I U) Pipeline.start tr w)
    (hm : Always DrawsFreshIds tr) (hall : w.identities ⊆ all) :
    ∃ tr', Run (Kafka.Step (profileSubscription isUuid isEmail I.decode)) (.start ⟨[], []⟩) tr' w.profile ∧
      Always (@profilePurpose isUuid isEmail all I.decode hids).Meets tr' := by
  induction hr with
  | nil => exact ⟨[], .nil, Transition.always_nil⟩
  | @snoc tr w w' ev hr hstep ih =>
    obtain ⟨hbefore, hfresh⟩ := always_snoc.mp hm
    obtain ⟨tr', hr', hm'⟩ := ih hbefore fun x hx => hall (identities_step hstep hx)
    cases hstep with
    | @relayIdentity identity partition hidentity =>
      refine ⟨_, hr'.snoc .append, always_snoc.mpr ⟨hm', Kafka.Purpose.meets_append ?_⟩⟩
      intro event q hread hq _
      change I.decode _ = _ at hread
      rw [identityMessage, read_message] at hread
      obtain rfl := Parsed.event.inj hread
      obtain hq : q.event = _ := hq
      rw [hq]
      exact ⟨identity, hall hidentity, rfl, rfl⟩
    | @foreignIdentity message partition hforeign =>
      refine ⟨_, hr'.snoc .append, always_snoc.mpr ⟨hm', Kafka.Purpose.meets_append ?_⟩⟩
      intro event q hread hq haccepted
      obtain hq : q.event = event := hq
      rw [hq, hforeign event hread] at haccepted
      cases haccepted
    | @profile e c hfed hstep =>
      have hmeets := meets_of_fed (P := @profilePurpose isUuid isEmail all I.decode hids) hfed
        fun i t he hi => hfresh i t (congrArg _ he) hi
      exact ⟨_, hr'.snoc hstep, always_snoc.mpr ⟨hm', hmeets⟩⟩
    | _ => exact ⟨tr', hr', hm'⟩

theorem profile_sound (hr : Run (Pipeline.Step isUuid isEmail I U) Pipeline.start tr w)
    (hm : Always DrawsFreshIds tr) (hids : Identified w.identities) :
    Kafka.Sound (@profilePurpose isUuid isEmail w.identities I.decode hids) w.profile := by
  obtain ⟨_, hr', hm'⟩ := profile_run hids hr hm (List.Subset.refl _)
  exact (Kafka.invariant_run provisioned_empty hr' hm').1

theorem users_provisioned (hr : Run (Pipeline.Step isUuid isEmail I U) Pipeline.start tr w)
    (hm : Always DrawsFreshIds tr) : Provisioned w.identities w.profile.db.db :=
  (profile_sound hr hm (identified_of_distinct (distinct_run hr))).good

theorem users_step (hr : Run (Pipeline.Step isUuid isEmail I U) Pipeline.start tr w) (hm : Always DrawsFreshIds tr)
    (hs : Pipeline.Step isUuid isEmail I U w ev w') : w.profile.db.db.users ⊆ w'.profile.db.db.users := by
  cases hs with
  | profile _ hstep =>
    have hsound := profile_sound hr hm (identified_of_distinct (distinct_run hr))
    have hle := hstep.later hsound.coherent
    exact hle.1.subset
  | _ => exact List.Subset.refl _

/-- The pair that `order.buyers` keeps of a user. -/
def User.buyer (user : User) : OrderBuyer := ⟨user.identityPublicId, user.id⟩

theorem known_of_keyed {users : List User} (h : Keyed User.keys users) : Known (users.map User.buyer) := by
  intro x hx y hy hshared
  obtain ⟨user, huser, rfl⟩ := List.mem_map.mp hx
  obtain ⟨other, hother, rfl⟩ := List.mem_map.mp hy
  obtain ⟨k, hk, hk'⟩ := hshared
  simp only [buyerKeys, User.buyer, List.mem_cons, List.not_mem_nil, or_false] at hk hk'
  rcases hk with rfl | rfl
  · have hsame : user.identityPublicId = other.identityPublicId := by simpa using hk'
    rw [h.forall huser hother (k := .identityPublicId user.identityPublicId) (by simp [User.keys])
      (by simp [User.keys, hsame])]
  · have hsame : user.id = other.id := by simpa using hk'
    rw [h.forall huser hother (k := .id user.id) (by simp [User.keys]) (by simp [User.keys, hsame])]

/-- The run of `order.buyers` in a run of the whole, against all the users there will be. -/
theorem buyers_run (hknown : Known known) (hr : Run (Pipeline.Step isUuid isEmail I U) Pipeline.start tr w)
    (hm : Always DrawsFreshIds tr) (hall : ∀ user ∈ w.profile.db.db.users, user.buyer ∈ known) :
    ∃ tr', Run (Kafka.Step (buyersSubscription isUuid U.decode)) (.start []) tr' w.buyers ∧
      Always (@buyersPurpose isUuid known U.decode hknown).Meets tr' := by
  induction hr with
  | nil => exact ⟨[], .nil, Transition.always_nil⟩
  | @snoc tr w w' ev hr hstep ih =>
    obtain ⟨hbefore, _⟩ := always_snoc.mp hm
    have hgrow := users_step hr hbefore hstep
    obtain ⟨tr', hr', hm'⟩ := ih hbefore fun user huser => hall user (hgrow huser)
    have hrows := (users_provisioned hr hbefore).rows
    cases hstep with
    | @relayUser row partition hrow =>
      rw [hrows] at hrow
      obtain ⟨user, huser, rfl⟩ := List.mem_map.mp hrow
      refine ⟨_, hr'.snoc .append, always_snoc.mpr ⟨hm', Kafka.Purpose.meets_append ?_⟩⟩
      intro event q hread hq _ identityPublicId hid
      change U.decode _ = _ at hread
      rw [read_message] at hread
      obtain rfl := Parsed.event.inj hread
      obtain rfl : q = _ := hq
      obtain rfl := Option.some.inj hid
      exact hall user huser
    | @foreignUser message partition hforeign =>
      refine ⟨_, hr'.snoc .append, always_snoc.mpr ⟨hm', Kafka.Purpose.meets_append ?_⟩⟩
      intro event q hread hq haccepted identityPublicId hid
      obtain rfl : q = event := hq
      have hbinds := hforeign q hread
      rw [bindsBuyer, haccepted, hid] at hbinds
      cases hbinds
    | @buyers e c hfed hstep =>
      exact ⟨_, hr'.snoc hstep, always_snoc.mpr ⟨hm', meets_of_fed hfed fun _ _ _ _ => trivial⟩⟩
    | _ => exact ⟨tr', hr', hm'⟩

/-- The run of `account.provisioning` in a run of the whole. -/
theorem accounts_run (hr : Run (Pipeline.Step isUuid isEmail I U) Pipeline.start tr w) :
    ∃ tr', Run (Kafka.Step (accountSubscription isUuid U.decode)) (.start .empty) tr' w.accounts := by
  induction hr with
  | nil => exact ⟨[], .nil⟩
  | snoc _ hstep ih =>
    obtain ⟨tr', hr'⟩ := ih
    cases hstep with
    | relayUser _ => exact ⟨_, hr'.snoc .append⟩
    | foreignUser _ => exact ⟨_, hr'.snoc .append⟩
    | accounts _ hstep => exact ⟨_, hr'.snoc hstep⟩
    | _ => exact ⟨tr', hr'⟩

theorem accounts_meet {tr : List (AccountsGroup × Kafka.Event Account.Request)} :
    Always (@accountPurpose isUuid U.decode).Meets tr :=
  fun _ _ => ⟨fun _ _ _ _ => trivial, fun _ _ _ _ _ _ _ => trivial, fun _ _ _ _ => trivial⟩

/-- What `user.profile` has done by then, against the identities there are. -/
theorem profile_delivered (hr : Run (Pipeline.Step isUuid isEmail I U) Pipeline.start tr w)
    (hm : Always DrawsFreshIds tr) :
    Kafka.Delivered (@profilePurpose isUuid isEmail w.identities I.decode (identified_of_distinct (distinct_run hr)))
      w.profile := by
  obtain ⟨_, hprofile, hmeets⟩ := profile_run (identified_of_distinct (distinct_run hr)) hr hm (List.Subset.refl _)
  exact Kafka.delivered_run provisioned_empty hprofile hmeets

theorem users_arrived (hr : Run (Pipeline.Step isUuid isEmail I U) Pipeline.start tr w) (hm : Always DrawsFreshIds tr) :
    ∀ position, position.offset < w.profile.committed position.partition → ∀ identity ∈ w.identities,
      w.profile.message? position = some (identityMessage I identity) → identity.valid isUuid isEmail →
      ∃ user ∈ w.profile.db.db.users, identity.owns user := by
  intro position ho identity _ hmessage hvalid
  have hdone := (profile_delivered hr hm).done ho hmessage (read_identity identity) (not_refused hvalid)
  rcases hdone with hother | ⟨_, user, huser, hfor⟩
  · exact absurd rfl hother
  · exact ⟨user, huser, hfor⟩

end

end MarketplaceApi.Provisioning
