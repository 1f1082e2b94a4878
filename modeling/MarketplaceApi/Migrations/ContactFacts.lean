import MarketplaceApi.Migrations.Contact
import MarketplaceApi.Sql.Write

/-!
# What the constraints say about contacts

The constraints of the tables that are rebuilt, reduced to their ids and the fields they store,
and what the constraints in force before the migrations say about a state.
-/
namespace MarketplaceApi.Migrations.Contact

open Sql

/-- The fields of a phone satisfy the constraints on them. -/
structure Number.Fits (n : Number) : Prop where
  countryCode : n.countryCode.isSome = true
  rawNumber : n.rawNumber.isSome = true
  rawLength : varchar 32 n.rawNumber = true
  fullNumber : n.fullNumber.isSome = true
  fullLength : varchar 16 n.fullNumber = true
  nationalNumber : n.nationalNumber.isSome = true
  nationalLength : varchar 15 n.nationalNumber = true
  e164 : n.fullNumber.all Contact.e164 = true
  nationalFormat : n.nationalNumber.all Contact.nationalFormat = true

/-- The fields of an address satisfy the constraints on them. -/
structure Place.Fits (a : Place) : Prop where
  addressLine : a.addressLine.isSome = true
  lineLength : varchar 255 a.addressLine = true
  city : a.city.isSome = true
  cityLength : varchar 100 a.city = true
  buildingLength : varchar 32 a.building = true

variable {ids : TableId → List Nat}

theorem phones_hold {rows : List Phone} : (∀ c ∈ phoneConstraints, c.rule.Holds ids rows) ↔
    (rows.map Phone.id).Nodup ∧ ∀ p ∈ rows, uint p.id = true ∧ p.number.Fits ∧
      deletedAtOrder p.createdAt p.deletedAt = true := by
  unfold phoneConstraints
  simp only [List.forall_mem_cons, Rule.Holds, nodup_iff_unique]
  constructor
  · rintro ⟨hid, h₁, h₂, h₃, h₄, h₅, h₆, h₇, h₈, h₉, hdeleted, hpkey, _⟩
    exact ⟨hpkey, fun p hp => ⟨hid p hp, ⟨h₁ p hp, h₂ p hp, h₃ p hp, h₄ p hp, h₅ p hp, h₆ p hp, h₇ p hp, h₈ p hp,
      h₉ p hp⟩, hdeleted p hp⟩⟩
  · rintro ⟨hpkey, h⟩
    exact ⟨fun p hp => (h p hp).1, fun p hp => (h p hp).2.1.countryCode, fun p hp => (h p hp).2.1.rawNumber,
      fun p hp => (h p hp).2.1.rawLength, fun p hp => (h p hp).2.1.fullNumber, fun p hp => (h p hp).2.1.fullLength,
      fun p hp => (h p hp).2.1.nationalNumber, fun p hp => (h p hp).2.1.nationalLength,
      fun p hp => (h p hp).2.1.e164, fun p hp => (h p hp).2.1.nationalFormat, fun p hp => (h p hp).2.2, hpkey,
      List.forall_mem_nil _⟩

theorem addresses_hold {rows : List DeliveryAddress} : (∀ c ∈ addressConstraints, c.rule.Holds ids rows) ↔
    (rows.map DeliveryAddress.id).Nodup ∧ ∀ a ∈ rows, uint a.id = true ∧ a.place.Fits ∧
      deletedAtOrder a.createdAt a.deletedAt = true := by
  unfold addressConstraints
  simp only [List.forall_mem_cons, Rule.Holds, nodup_iff_unique]
  constructor
  · rintro ⟨hid, h₁, h₂, h₃, h₄, h₅, hdeleted, hpkey, _⟩
    exact ⟨hpkey, fun a ha => ⟨hid a ha, ⟨h₁ a ha, h₂ a ha, h₃ a ha, h₄ a ha, h₅ a ha⟩, hdeleted a ha⟩⟩
  · rintro ⟨hpkey, h⟩
    exact ⟨fun a ha => (h a ha).1, fun a ha => (h a ha).2.1.addressLine, fun a ha => (h a ha).2.1.lineLength,
      fun a ha => (h a ha).2.1.city, fun a ha => (h a ha).2.1.cityLength, fun a ha => (h a ha).2.1.buildingLength,
      fun a ha => (h a ha).2.2, hpkey, List.forall_mem_nil _⟩

/-- What a recipient refers to. -/
structure Refers (s : State) (r : OrderRecipient) (buyer : Nat) (p : Phone) (a : DeliveryAddress) : Prop where
  buyerId : r.buyerId = some buyer
  buyerUint : uint buyer = true
  user : buyer ∈ s.users.map User.id
  phone : p ∈ s.phones
  phoneId : r.phoneId = some p.id
  address : a ∈ s.addresses
  addressId : r.deliveryAddressId = some a.id

/-- What the constraints say about a state. -/
structure Facts (s : State) : Prop where
  phoneIds : (s.phones.map Phone.id).Nodup
  numbers : ∀ p ∈ s.phones, uint p.id = true ∧ p.number.Fits ∧ deletedAtOrder p.createdAt p.deletedAt = true
  addressIds : (s.addresses.map DeliveryAddress.id).Nodup
  places : ∀ a ∈ s.addresses, uint a.id = true ∧ a.place.Fits ∧ deletedAtOrder a.createdAt a.deletedAt = true
  identityIds : (s.identities.map Identity.id).Nodup
  identityUint : ∀ i ∈ s.identities, uint i.id = true
  login : ∀ i ∈ s.identities, (i.email.isSome || i.phoneId.isSome) = true
  loginPhone : ∀ i ∈ s.identities, ∀ id, i.phoneId = some id → ∃ p ∈ s.phones, p.id = id
  loginApart : s.identities.Pairwise fun i i' => equal i.phoneId i'.phoneId = false
  recipientIds : (s.recipients.map OrderRecipient.id).Nodup
  recipientUint : ∀ r ∈ s.recipients, uint r.id = true
  refers : ∀ r ∈ s.recipients, ∃ buyer p a, Refers s r buyer p a
  orderIds : (s.orders.map Order.id).Nodup
  orderRecipients : (s.orders.map Order.orderRecipientId).Nodup
  orderRecipient : ∀ o ∈ s.orders, ∃ r ∈ s.recipients, r.id = o.orderRecipientId
  userAddress : ∀ u ∈ s.users, ∀ id, u.deliveryAddressId = some id → ∃ a ∈ s.addresses, a.id = id

/-- A foreign key in force finds its row. -/
theorem found_of_references {R : Type} {key : R → Nat} {rows : List R} {column : Option Nat} {id : Nat}
    (h : (column.all fun id => id ∈ rows.map key) = true) (hcolumn : column = some id) : ∃ r ∈ rows, key r = id := by
  rw [hcolumn] at h
  exact List.mem_map.mp (of_decide_eq_true h)

theorem facts (s : State) : Facts s := by
  have hphones := phones_hold.mp (s.phones_valid 0)
  have haddresses := addresses_hold.mp (s.addresses_valid 0)
  have husers := s.users_valid 0
  have hidentities := s.identities_valid 0
  have hrecipients := s.recipients_valid 0
  have horders := s.orders_valid 0
  unfold Table.Valid Rows.userTable userConstraints at husers
  unfold Table.Valid Rows.identityTable identityConstraints at hidentities
  unfold Table.Valid Rows.recipientTable recipientConstraints at hrecipients
  unfold Table.Valid Rows.orderTable orderConstraints at horders
  simp only [List.forall_mem_cons, Rule.Holds, nodup_iff_unique] at husers hidentities hrecipients horders
  obtain ⟨_, _, _, huserAddress, _⟩ := husers
  obtain ⟨hidentityUint, _, _, hapart, hlogin, _, hidentityIds, hloginPhone, _⟩ := hidentities
  obtain ⟨hrecipientUint, hbuyerUint, hbuyerSome, _, hphoneSome, _, haddressSome, _, _, hrecipientIds, hbuyer, hphone,
    haddress, _⟩ := hrecipients
  obtain ⟨_, horderRecipients, horderIds, horderRecipient, _⟩ := horders
  refine ⟨hphones.1, hphones.2, haddresses.1, haddresses.2, hidentityIds, hidentityUint, hlogin, fun i hi id hid => ?_,
    hapart, hrecipientIds, hrecipientUint, fun r hr => ?_, horderIds, horderRecipients, fun o ho => ?_,
    fun u hu id hid => ?_⟩
  · exact found_of_references (hloginPhone i hi) hid
  · obtain ⟨buyerId, hbuyerId⟩ := Option.isSome_iff_exists.mp (hbuyerSome r hr)
    obtain ⟨phoneId, hphoneId⟩ := Option.isSome_iff_exists.mp (hphoneSome r hr)
    obtain ⟨addressId, haddressId⟩ := Option.isSome_iff_exists.mp (haddressSome r hr)
    obtain ⟨u, hu, rfl⟩ := found_of_references (hbuyer r hr) hbuyerId
    obtain ⟨p, hp, rfl⟩ := found_of_references (hphone r hr) hphoneId
    obtain ⟨a, ha, rfl⟩ := found_of_references (haddress r hr) haddressId
    have huint := hbuyerUint r hr
    rw [hbuyerId] at huint
    exact ⟨u.id, p, a, hbuyerId, huint, List.mem_map_of_mem hu, hp, hphoneId, ha, haddressId⟩
  · exact List.mem_map.mp (of_decide_eq_true (horderRecipient o ho))
  · exact found_of_references (huserAddress u hu) hid

end MarketplaceApi.Migrations.Contact
