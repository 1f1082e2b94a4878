import MarketplaceApi.Migrations.ContactFacts

/-!
# Embedding the contacts

Both `up` migrations succeed in every state, whatever order the updates visit the rows in, and the
columns they fill equal the rows that were referred to.
-/
namespace MarketplaceApi.Migrations.Contact

open Sql

section
variable (now : Nat) (s : State)

/-- The tables as they are between the groups of statements. -/
def ordersAt (enabled : Bool) (columns : List String) (constraints : List (Constraint TableId Order))
    (rows : List Order) : Table TableId Order :=
  ⟨"Order", columns, constraints, [⟨"Order_setUpdatedAt", enabled, fun o => { o with updatedAt := now }⟩],
    s.next .order, rows⟩

def recipientsAt (enabled : Bool) (columns : List String) (constraints : List (Constraint TableId OrderRecipient))
    (rows : List OrderRecipient) : Table TableId OrderRecipient :=
  ⟨"OrderRecipient", columns, constraints,
    [⟨"OrderRecipient_setUpdatedAt", enabled, fun r => { r with updatedAt := now }⟩], s.next .recipient, rows⟩

def identitiesAt (enabled : Bool) (columns : List String) (constraints : List (Constraint TableId Identity))
    (rows : List Identity) : Table TableId Identity :=
  ⟨"Identity", columns, constraints, [⟨"Identity_setUpdatedAt", enabled, fun i => { i with updatedAt := now }⟩],
    s.next .identity, rows⟩

end

section
variable (s : State)

def phoneAt (phoneId : Option Nat) : Option Phone := s.phones.find? fun p => some p.id = phoneId

def addressAt (addressId : Option Nat) : Option DeliveryAddress := s.addresses.find? fun a => some a.id = addressId

def bareOrder (o : Order) : Order := { o with userId := none }

/-- An order with the user who was the buyer. -/
def ownedOrder (o : Order) : Order :=
  { o with userId := (s.recipients.find? fun r => r.id = o.orderRecipientId).bind OrderRecipient.buyerId }

def bareRecipient (r : OrderRecipient) : OrderRecipient :=
  ⟨r.id, r.buyerId, r.phoneId, r.deliveryAddressId, r.createdAt, r.updatedAt, none, none, none, none, none, none, none⟩

/-- A recipient with the phone and address it refers to. -/
def embeddedRecipient (r : OrderRecipient) : OrderRecipient where
  id := r.id
  buyerId := r.buyerId
  phoneId := r.phoneId
  deliveryAddressId := r.deliveryAddressId
  createdAt := r.createdAt
  updatedAt := r.updatedAt
  phoneCountryCode := (phoneAt s r.phoneId).bind Phone.countryCode
  phoneRawNumber := (phoneAt s r.phoneId).bind Phone.rawNumber
  phoneFullNumber := (phoneAt s r.phoneId).bind Phone.fullNumber
  phoneNationalNumber := (phoneAt s r.phoneId).bind Phone.nationalNumber
  addressLine := (addressAt s r.deliveryAddressId).bind DeliveryAddress.addressLine
  addressCity := (addressAt s r.deliveryAddressId).bind DeliveryAddress.city
  addressBuilding := (addressAt s r.deliveryAddressId).bind DeliveryAddress.building

def bareIdentity (i : Identity) : Identity :=
  ⟨i.id, i.email, i.phoneId, i.createdAt, i.updatedAt, none, none, none, none⟩

/-- An identity with the phone it refers to, if any. -/
def embeddedIdentity (i : Identity) : Identity where
  id := i.id
  email := i.email
  phoneId := i.phoneId
  createdAt := i.createdAt
  updatedAt := i.updatedAt
  loginPhoneCountryCode := (phoneAt s i.phoneId).bind Phone.countryCode
  loginPhoneRawNumber := (phoneAt s i.phoneId).bind Phone.rawNumber
  loginPhoneFullNumber := (phoneAt s i.phoneId).bind Phone.fullNumber
  loginPhoneNationalNumber := (phoneAt s i.phoneId).bind Phone.nationalNumber

end

/-- The constraints that the migrations add and keep. -/
def userIdUint : Constraint TableId Order := ⟨"userId uint", ["userId"], .check fun o => o.userId.all uint⟩

def userIdNotNull : Constraint TableId Order := ⟨"userId NOT NULL", ["userId"], .check fun o => o.userId.isSome⟩

def ownedConstraints : List (Constraint TableId Order) := orderConstraints ++ [userIdUint] ++ [userIdNotNull]

def embeddedTypes : List (Constraint TableId OrderRecipient) :=
  [⟨"phoneCountryCode CountryCodeEnum", ["phoneCountryCode"], .check fun _ => true⟩,
    ⟨"phoneRawNumber varchar(32)", ["phoneRawNumber"], .check fun r => varchar 32 r.phoneRawNumber⟩,
    ⟨"phoneFullNumber varchar(16)", ["phoneFullNumber"], .check fun r => varchar 16 r.phoneFullNumber⟩,
    ⟨"phoneNationalNumber varchar(15)", ["phoneNationalNumber"], .check fun r => varchar 15 r.phoneNationalNumber⟩,
    ⟨"addressLine varchar(255)", ["addressLine"], .check fun r => varchar 255 r.addressLine⟩,
    ⟨"addressCity varchar(100)", ["addressCity"], .check fun r => varchar 100 r.addressCity⟩,
    ⟨"addressBuilding varchar(32)", ["addressBuilding"], .check fun r => varchar 32 r.addressBuilding⟩]

def embeddedChecks : List (Constraint TableId OrderRecipient) :=
  [⟨"phoneCountryCode NOT NULL", ["phoneCountryCode"], .check fun r => r.phoneCountryCode.isSome⟩,
    ⟨"phoneRawNumber NOT NULL", ["phoneRawNumber"], .check fun r => r.phoneRawNumber.isSome⟩,
    ⟨"phoneFullNumber NOT NULL", ["phoneFullNumber"], .check fun r => r.phoneFullNumber.isSome⟩,
    ⟨"phoneNationalNumber NOT NULL", ["phoneNationalNumber"], .check fun r => r.phoneNationalNumber.isSome⟩,
    ⟨"addressLine NOT NULL", ["addressLine"], .check fun r => r.addressLine.isSome⟩,
    ⟨"addressCity NOT NULL", ["addressCity"], .check fun r => r.addressCity.isSome⟩,
    ⟨"OrderRecipient_phoneFullNumber_e164", ["phoneFullNumber"], .check fun r => r.phoneFullNumber.all e164⟩,
    ⟨"OrderRecipient_phoneNationalNumber_fmt", ["phoneNationalNumber"],
      .check fun r => r.phoneNationalNumber.all nationalFormat⟩]

def loginTypes : List (Constraint TableId Identity) :=
  [⟨"loginPhoneCountryCode CountryCodeEnum", ["loginPhoneCountryCode"], .check fun _ => true⟩,
    ⟨"loginPhoneRawNumber varchar(32)", ["loginPhoneRawNumber"], .check fun i => varchar 32 i.loginPhoneRawNumber⟩,
    ⟨"loginPhoneFullNumber varchar(16)", ["loginPhoneFullNumber"], .check fun i => varchar 16 i.loginPhoneFullNumber⟩,
    ⟨"loginPhoneNationalNumber varchar(15)", ["loginPhoneNationalNumber"],
      .check fun i => varchar 15 i.loginPhoneNationalNumber⟩]

def loginChecks : List (Constraint TableId Identity) :=
  [⟨"Identity_loginPhoneFullNumber_e164", ["loginPhoneFullNumber"], .check fun i => i.loginPhoneFullNumber.all e164⟩,
    ⟨"Identity_loginPhoneNationalNumber_fmt", ["loginPhoneNationalNumber"],
      .check fun i => i.loginPhoneNationalNumber.all nationalFormat⟩]

def loginPresent : Constraint TableId Identity :=
  ⟨"Identity_login_present", ["email", "loginPhoneFullNumber"],
    .check fun i => i.email.isSome || i.loginPhoneFullNumber.isSome⟩

section
variable {now : Nat} {plan : Plan} {s : State}

theorem phoneAt_some {p : Phone} (hp : p ∈ s.phones) : phoneAt s (some p.id) = some p :=
  find?_some_key (facts s).phoneIds hp

theorem addressAt_some {a : DeliveryAddress} (ha : a ∈ s.addresses) : addressAt s (some a.id) = some a :=
  find?_some_key (facts s).addressIds ha

theorem phoneAt_none : phoneAt s none = none := by
  unfold phoneAt
  rw [List.find?_eq_none]
  intro p _ h
  cases of_decide_eq_true h

theorem ignores_order : ∀ c ∈ orderConstraints, c.rule.Ignores bareOrder := by
  unfold orderConstraints
  simp only [List.forall_mem_cons, Rule.Ignores]
  exact ⟨fun _ => rfl, ⟨fun a b => decide_eq_decide.mpr eq_comm, fun _ _ => rfl⟩,
    ⟨fun a b => decide_eq_decide.mpr eq_comm, fun _ _ => rfl⟩, fun _ => rfl, List.forall_mem_nil _⟩

/-- The orders satisfy their constraints while the recipients keep their ids. -/
theorem orders_hold (s : State) (ids : TableId → List Nat)
    (h : ids .recipient = s.recipients.map OrderRecipient.id) :
    ∀ c ∈ orderConstraints, c.rule.Holds ids (s.orders.map bareOrder) := by
  intro c hc
  apply (ignores_order c hc).holds_map
  apply (s.orders_valid 0 c hc).congr
  intro target column hrule
  have htarget : ∀ c ∈ orderConstraints, ∀ target column, c.rule = .references target column →
      target = .recipient := by
    unfold orderConstraints
    simp only [List.forall_mem_cons]
    refine ⟨Rule.not_of_check _, Rule.not_of_unique _, Rule.not_of_unique _, ?_, List.forall_mem_nil _⟩
    rintro _ _ ⟨⟩
    rfl
  obtain rfl := htarget c hc target column hrule
  exact h

theorem owned_bare {o : Order} (ho : o ∈ s.orders) : owned s.recipients (bareOrder o) = some (ownedOrder s o) ∧
    ∃ buyer, (ownedOrder s o).userId = some buyer ∧ uint buyer = true := by
  obtain ⟨r, hr, hid⟩ := (facts s).orderRecipient o ho
  obtain ⟨buyer, p, a, hrefers⟩ := (facts s).refers r hr
  have hfound : (s.recipients.find? fun r => r.id = o.orderRecipientId) = some r := by
    rw [← hid]
    exact find?_key (facts s).recipientIds hr
  constructor
  · show (s.recipients.find? fun r => r.id = o.orderRecipientId).map
      (fun r => { bareOrder o with userId := r.buyerId }) = some (ownedOrder s o)
    unfold ownedOrder
    rw [hfound]
    rfl
  · refine ⟨buyer, ?_, hrefers.buyerUint⟩
    unfold ownedOrder
    rw [hfound]
    exact hrefers.buyerId

theorem owned_bareOrder {recipients : List OrderRecipient} {o o' : Order} (h : owned recipients o = some o') :
    bareOrder o' = bareOrder o := by
  obtain ⟨r, _, rfl⟩ := Option.map_eq_some_iff.mp h
  rfl

def orderColumns : List String := ["id", "orderRecipientId", "updatedAt", "userId"]

/-- The database while the orders get their users. -/
def owning (now : Nat) (s : State) (enabled : Bool) (constraints : List (Constraint TableId Order))
    (rows : List Order) : Db :=
  { s.db now with orders := some (ordersAt now s enabled orderColumns constraints rows) }

theorem owning_ok :
    (ordersAt now s false orderColumns (orderConstraints ++ [userIdUint]) (s.orders.map bareOrder)).update
      (owning now s false (orderConstraints ++ [userIdUint]) (s.orders.map bareOrder)).ids Order.id (owned s.recipients)
      (plan.orders ((s.orders.map bareOrder).map Order.id)) =
    .ok (ordersAt now s false orderColumns (orderConstraints ++ [userIdUint]) (s.orders.map (ownedOrder s))) := by
  have hrows : ((s.orders.map bareOrder).map fun o => (owned s.recipients o).elim o id) =
      s.orders.map (ownedOrder s) := by
    rw [List.map_map]
    apply List.map_congr_left
    intro o ho
    rw [Function.comp_apply, (owned_bare ho).1]
    rfl
  rw [← hrows]
  apply Table.update_changing (f := bareOrder) (plan.orders_perm _) _ (fun _ => rfl) (fun o o' h => owned_bareOrder h)
  · intro c hc
    rcases List.mem_append.mp hc with hc | hc
    · exact Or.inl ⟨ignores_order c hc, orders_hold s _ rfl c hc⟩
    · obtain rfl := List.mem_singleton.mp hc
      refine Or.inr ⟨_, rfl, fun o ho o' h => ?_⟩
      obtain ⟨old, hold, rfl⟩ := List.mem_map.mp ho
      obtain ⟨howned, buyer, hbuyer, huint⟩ := owned_bare hold
      rw [howned] at h
      obtain rfl := Option.some.inj h
      show ((ownedOrder s old).userId.all uint) = true
      rw [hbuyer]
      exact huint
  · show ((s.orders.map bareOrder).map Order.id).Nodup
    rw [List.map_map]
    exact (facts s).orderIds

theorem requireOrders_ok : requireOrders (s.db now) = .ok (s.db now) := by
  unfold requireOrders
  rw [if_neg]
  intro hany
  obtain ⟨r, hr, hnone⟩ := List.any_eq_true.mp hany
  obtain ⟨o, ho, heq⟩ := s.ordered r hr
  rw [Bool.not_eq_true', List.any_eq_false] at hnone
  exact hnone o ho (decide_eq_true heq)

theorem ownUser_ok : run (OrderOwnsUserAndContact.ownUser plan) (s.db now) =
    .ok (owning now s true ownedConstraints (s.orders.map (ownedOrder s))) := by
  have hdisable : run ((OrderOwnsUserAndContact.ownUser plan).tail.take 2) (s.db now) =
      .ok (owning now s false (orderConstraints ++ [userIdUint]) (s.orders.map bareOrder)) := rfl
  have hupdate : orders.alter "Order" (fun db => Table.update db.ids Order.id (owned (rowsOf db.recipients))
      (plan.orders ((rowsOf db.orders).map Order.id)))
      (owning now s false (orderConstraints ++ [userIdUint]) (s.orders.map bareOrder)) =
      .ok (owning now s false (orderConstraints ++ [userIdUint]) (s.orders.map (ownedOrder s))) :=
    alter_ok rfl rfl owning_ok
  have henable : orders.alter "Order" (fun _ => Table.setTrigger "Order_setUpdatedAt" true)
      (owning now s false (orderConstraints ++ [userIdUint]) (s.orders.map (ownedOrder s))) =
      .ok (owning now s true (orderConstraints ++ [userIdUint]) (s.orders.map (ownedOrder s))) := rfl
  have hnotNull : userIdNotNull.rule.Holds
      (owning now s true (orderConstraints ++ [userIdUint]) (s.orders.map (ownedOrder s))).ids
      (s.orders.map (ownedOrder s)) := by
    intro o' ho'
    obtain ⟨o, ho, rfl⟩ := List.mem_map.mp ho'
    obtain ⟨_, buyer, hbuyer, _⟩ := owned_bare ho
    show (ownedOrder s o).userId.isSome = true
    rw [hbuyer]
    rfl
  have hset : orders.alter "Order" (fun db => Table.addConstraint db.ids userIdNotNull)
      (owning now s true (orderConstraints ++ [userIdUint]) (s.orders.map (ownedOrder s))) =
      .ok (owning now s true ownedConstraints (s.orders.map (ownedOrder s))) :=
    alter_ok rfl rfl (addConstraint_ok rfl hnotNull)
  have hrest := (run_cons_ok hupdate).trans ((run_cons_ok henable).trans ((run_cons_ok hset).trans (run_nil _)))
  exact (run_cons_ok requireOrders_ok).trans ((run_append_ok hdisable).trans hrest)

def embeddedColumns : List String :=
  ["id", "buyerId", "phoneId", "deliveryAddressId", "createdAt", "updatedAt", "phoneCountryCode", "phoneRawNumber",
    "phoneFullNumber", "phoneNationalNumber", "addressLine", "addressCity", "addressBuilding"]

/-- The database once the orders have their users. -/
def ownedDb (now : Nat) (s : State) : Db := owning now s true ownedConstraints (s.orders.map (ownedOrder s))

/-- The database while the recipients get their contacts. -/
def embedding (now : Nat) (s : State) (enabled : Bool) (constraints : List (Constraint TableId OrderRecipient))
    (rows : List OrderRecipient) : Db :=
  { ownedDb now s with recipients := some (recipientsAt now s enabled embeddedColumns constraints rows) }

theorem ignores_recipient : ∀ c ∈ recipientConstraints, c.rule.Ignores bareRecipient := by
  unfold recipientConstraints
  simp only [List.forall_mem_cons, Rule.Ignores]
  exact ⟨fun _ => rfl, fun _ => rfl, fun _ => rfl, fun _ => rfl, fun _ => rfl, fun _ => rfl, fun _ => rfl,
    ⟨fun _ _ => equal_comm _ _, fun _ _ => rfl⟩, ⟨fun _ _ => equal_comm _ _, fun _ _ => rfl⟩,
    ⟨fun a b => decide_eq_decide.mpr eq_comm, fun _ _ => rfl⟩, fun _ => rfl, fun _ => rfl, fun _ => rfl,
    List.forall_mem_nil _⟩

/-- The recipients satisfy their constraints while what they refer to is there. -/
theorem recipients_hold (s : State) (ids : TableId → List Nat) (huser : ids .user = s.users.map User.id)
    (hphone : ids .phone = s.phones.map Phone.id) (haddress : ids .address = s.addresses.map DeliveryAddress.id) :
    ∀ c ∈ recipientConstraints, c.rule.Holds ids (s.recipients.map bareRecipient) := by
  intro c hc
  apply (ignores_recipient c hc).holds_map
  apply (s.recipients_valid 0 c hc).congr
  intro target column hrule
  have htarget : ∀ c ∈ recipientConstraints, ∀ target column, c.rule = .references target column →
      target = .user ∨ target = .phone ∨ target = .address := by
    unfold recipientConstraints
    simp only [List.forall_mem_cons]
    refine ⟨Rule.not_of_check _, Rule.not_of_check _, Rule.not_of_check _, Rule.not_of_check _,
      Rule.not_of_check _, Rule.not_of_check _, Rule.not_of_check _, Rule.not_of_unique _, Rule.not_of_unique _,
      Rule.not_of_unique _, ?_, ?_, ?_, List.forall_mem_nil _⟩
    all_goals
      rintro _ _ ⟨⟩
      simp
  rcases htarget c hc target column hrule with rfl | rfl | rfl
  · exact huser
  · exact hphone
  · exact haddress

/-- A recipient with a contact. -/
def filled (r : OrderRecipient) (p : Phone) (a : DeliveryAddress) : OrderRecipient :=
  ⟨r.id, r.buyerId, r.phoneId, r.deliveryAddressId, r.createdAt, r.updatedAt, p.countryCode, p.rawNumber, p.fullNumber,
    p.nationalNumber, a.addressLine, a.city, a.building⟩

theorem embedded_bare {r : OrderRecipient} (hr : r ∈ s.recipients) : ∃ buyer p a, Refers s r buyer p a ∧
    embedded s.phones s.addresses (bareRecipient r) = some (embeddedRecipient s r) ∧
    embeddedRecipient s r = filled r p a := by
  obtain ⟨buyer, p, a, hrefers⟩ := (facts s).refers r hr
  have hphone : phoneAt s r.phoneId = some p := by
    rw [hrefers.phoneId]
    exact phoneAt_some hrefers.phone
  have haddress : addressAt s r.deliveryAddressId = some a := by
    rw [hrefers.addressId]
    exact addressAt_some hrefers.address
  have hrow : embeddedRecipient s r = filled r p a := by
    unfold embeddedRecipient
    rw [hphone, haddress]
    rfl
  refine ⟨buyer, p, a, hrefers, ?_, hrow⟩
  rw [hrow]
  show ((phoneAt s r.phoneId).bind fun p => (addressAt s r.deliveryAddressId).map fun a => _) = _
  rw [hphone, haddress]
  rfl

theorem embedded_bareRecipient {phones : List Phone} {addresses : List DeliveryAddress} {r r' : OrderRecipient}
    (h : embedded phones addresses r = some r') : bareRecipient r' = bareRecipient r := by
  obtain ⟨p, _, hr⟩ := Option.bind_eq_some_iff.mp h
  obtain ⟨a, _, rfl⟩ := Option.map_eq_some_iff.mp hr
  rfl

/-- What holds of the contact columns once they are filled. -/
theorem embedded_fits : ∀ c ∈ embeddedTypes ++ embeddedChecks, ∃ holds, c.rule = .check holds ∧
    ∀ r ∈ s.recipients, holds (embeddedRecipient s r) = true := by
  have hcheck : ∀ holds : OrderRecipient → Bool, (∀ (r : OrderRecipient) (p : Phone) (a : DeliveryAddress),
      p.number.Fits → a.place.Fits → holds (filled r p a) = true) →
      ∃ holds', (Rule.check holds : Rule TableId OrderRecipient) = .check holds' ∧
        ∀ r ∈ s.recipients, holds' (embeddedRecipient s r) = true := by
    intro holds h
    refine ⟨holds, rfl, fun r hr => ?_⟩
    obtain ⟨_, p, a, hrefers, _, hrow⟩ := embedded_bare hr
    rw [hrow]
    exact h r p a ((facts s).numbers p hrefers.phone).2.1 ((facts s).places a hrefers.address).2.1
  unfold embeddedTypes embeddedChecks
  simp only [List.forall_mem_append, List.forall_mem_cons]
  exact ⟨⟨hcheck _ fun _ _ _ _ _ => rfl, hcheck _ fun _ _ _ hp _ => hp.rawLength,
      hcheck _ fun _ _ _ hp _ => hp.fullLength, hcheck _ fun _ _ _ hp _ => hp.nationalLength,
      hcheck _ fun _ _ _ _ ha => ha.lineLength, hcheck _ fun _ _ _ _ ha => ha.cityLength,
      hcheck _ fun _ _ _ _ ha => ha.buildingLength, List.forall_mem_nil _⟩,
    hcheck _ fun _ _ _ hp _ => hp.countryCode, hcheck _ fun _ _ _ hp _ => hp.rawNumber,
    hcheck _ fun _ _ _ hp _ => hp.fullNumber, hcheck _ fun _ _ _ hp _ => hp.nationalNumber,
    hcheck _ fun _ _ _ _ ha => ha.addressLine, hcheck _ fun _ _ _ _ ha => ha.city,
    hcheck _ fun _ _ _ hp _ => hp.e164, hcheck _ fun _ _ _ hp _ => hp.nationalFormat,
    List.forall_mem_nil _⟩

theorem embedding_ok : (recipientsAt now s false embeddedColumns (recipientConstraints ++ embeddedTypes)
      (s.recipients.map bareRecipient)).update
      (embedding now s false (recipientConstraints ++ embeddedTypes) (s.recipients.map bareRecipient)).ids
      OrderRecipient.id (embedded s.phones s.addresses)
      (plan.recipients ((s.recipients.map bareRecipient).map OrderRecipient.id)) =
    .ok (recipientsAt now s false embeddedColumns (recipientConstraints ++ embeddedTypes)
      (s.recipients.map (embeddedRecipient s))) := by
  have hrows : ((s.recipients.map bareRecipient).map fun r => (embedded s.phones s.addresses r).elim r id) =
      s.recipients.map (embeddedRecipient s) := by
    rw [List.map_map]
    apply List.map_congr_left
    intro r hr
    obtain ⟨_, _, _, _, hembedded, _⟩ := embedded_bare hr
    rw [Function.comp_apply, hembedded]
    rfl
  rw [← hrows]
  apply Table.update_changing (f := bareRecipient) (plan.recipients_perm _) _ (fun _ => rfl)
    (fun r r' h => embedded_bareRecipient h)
  · intro c hc
    rcases List.mem_append.mp hc with hc | hc
    · exact Or.inl ⟨ignores_recipient c hc, recipients_hold s _ rfl rfl rfl c hc⟩
    · obtain ⟨holds, hrule, hfits⟩ := embedded_fits c (List.mem_append_left _ hc)
      refine Or.inr ⟨holds, hrule, fun r hr r' h => ?_⟩
      obtain ⟨old, hold, rfl⟩ := List.mem_map.mp hr
      obtain ⟨_, _, _, _, hembedded, _⟩ := embedded_bare hold
      rw [hembedded] at h
      obtain rfl := Option.some.inj h
      exact hfits old hold
  · show ((s.recipients.map bareRecipient).map OrderRecipient.id).Nodup
    rw [List.map_map]
    exact (facts s).recipientIds

def embeddedConstraints : List (Constraint TableId OrderRecipient) :=
  recipientConstraints ++ embeddedTypes ++ embeddedChecks

theorem embedContact_ok : run (OrderOwnsUserAndContact.embedContact plan) (ownedDb now s) =
    .ok (embedding now s true embeddedConstraints (s.recipients.map (embeddedRecipient s))) := by
  have hbare : (((((((s.recipients.map fun r => { r with phoneCountryCode := none }).map fun r =>
      { r with phoneRawNumber := none }).map fun r => { r with phoneFullNumber := none }).map fun r =>
      { r with phoneNationalNumber := none }).map fun r => { r with addressLine := none }).map fun r =>
      { r with addressCity := none }).map fun r => { r with addressBuilding := none }) =
      s.recipients.map bareRecipient := by
    simp only [List.map_map]
    rfl
  have hcolumns : run ((OrderOwnsUserAndContact.embedContact plan).take 8) (ownedDb now s) =
      .ok (embedding now s false (recipientConstraints ++ embeddedTypes) (s.recipients.map bareRecipient)) := by
    rw [← hbare]
    rfl
  have hupdate : recipients.alter "OrderRecipient" (fun db => Table.update db.ids OrderRecipient.id
      (embedded (rowsOf db.phones) (rowsOf db.addresses))
      (plan.recipients ((rowsOf db.recipients).map OrderRecipient.id)))
      (embedding now s false (recipientConstraints ++ embeddedTypes) (s.recipients.map bareRecipient)) =
      .ok (embedding now s false (recipientConstraints ++ embeddedTypes) (s.recipients.map (embeddedRecipient s))) :=
    alter_ok rfl rfl embedding_ok
  have henable : recipients.alter "OrderRecipient" (fun _ => Table.setTrigger "OrderRecipient_setUpdatedAt" true)
      (embedding now s false (recipientConstraints ++ embeddedTypes) (s.recipients.map (embeddedRecipient s))) =
      .ok (embedding now s true (recipientConstraints ++ embeddedTypes) (s.recipients.map (embeddedRecipient s))) := rfl
  have hchecks : run (embeddedChecks.map fun c => recipients.alter "OrderRecipient" fun db =>
      Table.addConstraint db.ids c)
      (embedding now s true (recipientConstraints ++ embeddedTypes) (s.recipients.map (embeddedRecipient s))) =
      .ok (embedding now s true embeddedConstraints (s.recipients.map (embeddedRecipient s))) := by
    have hnames : ((recipientConstraints ++ embeddedTypes ++ embeddedChecks).map Constraint.name).Nodup := by
      decide +kernel
    apply run_addConstraints recipients (ownedDb now s)
      (recipientsAt now s true embeddedColumns (recipientConstraints ++ embeddedTypes)
        (s.recipients.map (embeddedRecipient s))) rfl (fun _ _ => rfl) (fun _ _ _ => rfl) _ hnames
    · intro c hc
      obtain ⟨holds, hrule, hfits⟩ := embedded_fits (s := s) c (List.mem_append_right _ hc)
      rw [hrule]
      intro r hr
      obtain ⟨old, hold, rfl⟩ := List.mem_map.mp hr
      exact hfits old hold
    · intro cs
      funext target
      cases target <;> rfl
  exact (run_append_ok hcolumns).trans ((run_cons_ok hupdate).trans ((run_cons_ok henable).trans hchecks))

/-- The phones and addresses that somebody but a recipient refers to. -/
def keptPhones (s : State) : List Phone :=
  s.phones.filter fun p => !phoneGoes (s.recipients.map (embeddedRecipient s)) s.identities p

def keptAddresses (s : State) : List DeliveryAddress :=
  s.addresses.filter fun a => !addressGoes (s.recipients.map (embeddedRecipient s)) s.users a

/-- A recipient that only embeds its contact. -/
def contactRow (s : State) (r : OrderRecipient) : OrderRecipient :=
  { embeddedRecipient s r with buyerId := none, phoneId := none, deliveryAddressId := none }

def contactColumns : List String :=
  ["id", "createdAt", "updatedAt", "phoneCountryCode", "phoneRawNumber", "phoneFullNumber", "phoneNationalNumber",
    "addressLine", "addressCity", "addressBuilding"]

def contactConstraints : List (Constraint TableId OrderRecipient) :=
  [⟨"id integer", ["id"], .check fun r => uint r.id⟩,
    ⟨"OrderRecipient_pkey", ["id"], .unique fun r r' => r.id = r'.id⟩] ++ embeddedTypes ++ embeddedChecks

/-- The constraints on recipients while they embed their contact but refer to it as well. -/
def detachedConstraints : List (Constraint TableId OrderRecipient) :=
  (recipientConstraints.take 7 ++ [⟨"OrderRecipient_pkey", ["id"], .unique fun r r' => r.id = r'.id⟩]) ++
    embeddedTypes ++ embeddedChecks

/-- The database after the first migration. -/
def contactDb (now : Nat) (s : State) : Db :=
  { ownedDb now s with
    phones := some { s.phoneTable now with rows := keptPhones s }
    addresses := some { s.addressTable now with rows := keptAddresses s }
    recipients := some (recipientsAt now s true contactColumns contactConstraints (s.recipients.map (contactRow s))) }

/-- The database while the recipients' old references go. -/
def detached (now : Nat) (s : State) : Db :=
  embedding now s true detachedConstraints (s.recipients.map (embeddedRecipient s))

theorem deletePhones_ok : (s.phoneTable now).delete Phone.id
    (phoneGoes (s.recipients.map (embeddedRecipient s)) s.identities) ((detached now s).referring .phone) =
    .ok { s.phoneTable now with rows := keptPhones s } := by
  have hreferring : (detached now s).referring .phone =
      [("Identity_phoneId_fkey", s.identities.filterMap Identity.phoneId)] := rfl
  rw [hreferring]
  apply Table.delete_ok
  intro q hq p _ hgoes hin
  obtain rfl := List.mem_singleton.mp hq
  rw [phoneGoes, Bool.and_eq_true] at hgoes
  obtain ⟨i, hi, hid⟩ := List.mem_filterMap.mp hin
  exact of_decide_eq_true hgoes.2 (List.mem_map.mpr ⟨i, hi, hid⟩)

theorem deleteAddresses_ok (db : Db) (h : db.referring .address =
    [("User_deliveryAddressId_fkey", s.users.filterMap User.deliveryAddressId)]) :
    (s.addressTable now).delete DeliveryAddress.id
      (addressGoes (s.recipients.map (embeddedRecipient s)) s.users) (db.referring .address) =
      .ok { s.addressTable now with rows := keptAddresses s } := by
  rw [h]
  apply Table.delete_ok
  intro q hq a _ hgoes hin
  obtain rfl := List.mem_singleton.mp hq
  rw [addressGoes, Bool.and_eq_true] at hgoes
  obtain ⟨u, hu, hid⟩ := List.mem_filterMap.mp hin
  exact of_decide_eq_true hgoes.2 (List.mem_map.mpr ⟨u, hu, hid⟩)

theorem dropReferences_ok : run OrderOwnsUserAndContact.dropReferences
    (embedding now s true embeddedConstraints (s.recipients.map (embeddedRecipient s))) = .ok (contactDb now s) := by
  have hdetach : run (OrderOwnsUserAndContact.dropReferences.take 5)
      (embedding now s true embeddedConstraints (s.recipients.map (embeddedRecipient s))) = .ok (detached now s) := rfl
  have hphones : phones.alter "Phone" (fun db => Table.delete Phone.id
      (phoneGoes (rowsOf db.recipients) (rowsOf db.identities)) (db.referring .phone)) (detached now s) =
      .ok { detached now s with phones := some { s.phoneTable now with rows := keptPhones s } } :=
    alter_ok rfl rfl deletePhones_ok
  have haddresses : addresses.alter "DeliveryAddress" (fun db => Table.delete DeliveryAddress.id
      (addressGoes (rowsOf db.recipients) (rowsOf db.users)) (db.referring .address))
      { detached now s with phones := some { s.phoneTable now with rows := keptPhones s } } =
      .ok { detached now s with
        phones := some { s.phoneTable now with rows := keptPhones s }
        addresses := some { s.addressTable now with rows := keptAddresses s } } :=
    alter_ok rfl rfl (deleteAddresses_ok _ rfl)
  have hrow : ((((s.recipients.map (embeddedRecipient s)).map fun r => { r with buyerId := none }).map fun r =>
      { r with phoneId := none }).map fun r => { r with deliveryAddressId := none }) =
      s.recipients.map (contactRow s) := by
    simp only [List.map_map]
    rfl
  have hcolumns : run (OrderOwnsUserAndContact.dropReferences.drop 7)
      { detached now s with
        phones := some { s.phoneTable now with rows := keptPhones s }
        addresses := some { s.addressTable now with rows := keptAddresses s } } = .ok (contactDb now s) := by
    unfold contactDb
    rw [← hrow]
    rfl
  exact (run_append_ok hdetach).trans ((run_cons_ok hphones).trans ((run_cons_ok haddresses).trans hcolumns))

/-- The first migration succeeds in every state. -/
theorem orderOwnsUserAndContact_up_ok : run (OrderOwnsUserAndContact.up plan) (s.db now) = .ok (contactDb now s) := by
  unfold OrderOwnsUserAndContact.up
  rw [List.append_assoc, run_append_ok ownUser_ok]
  exact (run_append_ok embedContact_ok).trans dropReferences_ok

end

end MarketplaceApi.Migrations.Contact
