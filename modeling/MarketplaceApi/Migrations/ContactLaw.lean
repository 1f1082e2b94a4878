import MarketplaceApi.Migrations.ContactDown

/-!
# The round trip of contacts

Up and down again, every recipient, identity and user has the phone and address fields it had, in
rows that are numbered afresh, exactly if the ids for those rows are left.
-/
namespace MarketplaceApi.Migrations.Contact

open Sql

section
variable (s : State)

def newRecipientPhone (r : OrderRecipient) : Option Nat :=
  ((bareLogins s ++ recipientPhoneRows s).find? fun p => p.recipientId = some r.id).map Phone.id

def newRecipientAddress (r : OrderRecipient) : Option Nat :=
  ((bareAddresses s ++ recipientAddressRows s).find? fun a => a.recipientId = some r.id).map DeliveryAddress.id

/-- A recipient that embeds its contact and refers to it. -/
def referencedRow (r : OrderRecipient) : OrderRecipient :=
  { contactRow s r with
    buyerId := r.buyerId, phoneId := newRecipientPhone s r, deliveryAddressId := newRecipientAddress s r }

/-- A recipient after both directions. -/
def restoredRecipient (r : OrderRecipient) : OrderRecipient :=
  ⟨r.id, r.buyerId, newRecipientPhone s r, newRecipientAddress s r, r.createdAt, r.updatedAt, none, none, none, none,
    none, none, none⟩

end

def clearReferences (r : OrderRecipient) : OrderRecipient :=
  { r with buyerId := none, phoneId := none, deliveryAddressId := none }

def referenceTypes : List (Constraint TableId OrderRecipient) :=
  [⟨"buyerId uint", ["buyerId"], .check fun r => r.buyerId.all uint⟩,
    ⟨"phoneId uint", ["phoneId"], .check fun r => r.phoneId.all uint⟩,
    ⟨"deliveryAddressId uint", ["deliveryAddressId"], .check fun r => r.deliveryAddressId.all uint⟩]

def referenceChecks : List (Constraint TableId OrderRecipient) :=
  [⟨"buyerId NOT NULL", ["buyerId"], .check fun r => r.buyerId.isSome⟩,
    ⟨"phoneId NOT NULL", ["phoneId"], .check fun r => r.phoneId.isSome⟩,
    ⟨"deliveryAddressId NOT NULL", ["deliveryAddressId"], .check fun r => r.deliveryAddressId.isSome⟩,
    ⟨"OrderRecipient_phoneId_key", ["phoneId"], .unique fun r r' => equal r.phoneId r'.phoneId⟩,
    ⟨"OrderRecipient_deliveryAddressId_key", ["deliveryAddressId"],
      .unique fun r r' => equal r.deliveryAddressId r'.deliveryAddressId⟩,
    ⟨"OrderRecipient_buyerId_fkey", ["buyerId"], .references .user OrderRecipient.buyerId⟩,
    ⟨"OrderRecipient_phoneId_fkey", ["phoneId"], .references .phone OrderRecipient.phoneId⟩,
    ⟨"OrderRecipient_deliveryAddressId_fkey", ["deliveryAddressId"],
      .references .address OrderRecipient.deliveryAddressId⟩]

section
variable {now : Nat} {plan : Plan} {s : State}

/-- The phone that was inserted for a recipient. -/
theorem recipientPhone_found {r : OrderRecipient} (hr : r ∈ s.recipients) :
    ∃ id, recipientPhone (contactRow s r) id ∈ recipientPhoneRows s ∧
      ((bareLogins s ++ recipientPhoneRows s).find? fun p => p.recipientId = some r.id) =
        some (recipientPhone (contactRow s r) id) := by
  have hnone : ∀ p ∈ bareLogins s, p.recipientId = none := by
    intro p hp
    obtain ⟨q, _, rfl⟩ := mem_bareLogins hp
    rfl
  exact Table.numbered_found recipientPhone Phone.recipientId OrderRecipient.id (fun _ _ => rfl) (sortedContacts_ids s)
    hnone (mem_sortedContacts.mpr ⟨r, hr, rfl⟩) _

theorem recipientAddress_found {r : OrderRecipient} (hr : r ∈ s.recipients) :
    ∃ id, recipientAddress (contactRow s r) id ∈ recipientAddressRows s ∧
      ((bareAddresses s ++ recipientAddressRows s).find? fun a => a.recipientId = some r.id) =
        some (recipientAddress (contactRow s r) id) := by
  have hnone : ∀ a ∈ bareAddresses s, a.recipientId = none := by
    intro a ha
    obtain ⟨old, _, rfl⟩ := List.mem_map.mp ha
    rfl
  exact Table.numbered_found recipientAddress DeliveryAddress.recipientId OrderRecipient.id (fun _ _ => rfl)
    (sortedContacts_ids s) hnone (mem_sortedContacts.mpr ⟨r, hr, rfl⟩) _

/-- What a recipient refers to after the way back. -/
structure Rebuilt (s : State) (r : OrderRecipient) (phoneId addressId : Nat) : Prop where
  phone : recipientPhone (contactRow s r) phoneId ∈ recipientPhoneRows s
  address : recipientAddress (contactRow s r) addressId ∈ recipientAddressRows s
  phoneId : newRecipientPhone s r = some phoneId
  addressId : newRecipientAddress s r = some addressId

theorem referenced_row {r : OrderRecipient} (hr : r ∈ s.recipients) :
    ∃ phoneId addressId, Rebuilt s r phoneId addressId ∧
      referenced (s.orders.map (ownedOrder s)) (bareLogins s ++ recipientPhoneRows s)
        (bareAddresses s ++ recipientAddressRows s) (contactRow s r) = some (referencedRow s r) := by
  obtain ⟨_, o, _, horder, hbuyer⟩ := owned_buyer hr
  obtain ⟨phoneId, hphone, hphoneFound⟩ := recipientPhone_found hr
  obtain ⟨addressId, haddress, haddressFound⟩ := recipientAddress_found hr
  have hnewPhone : newRecipientPhone s r = some phoneId := by
    unfold newRecipientPhone
    rw [hphoneFound]
    rfl
  have hnewAddress : newRecipientAddress s r = some addressId := by
    unfold newRecipientAddress
    rw [haddressFound]
    rfl
  refine ⟨phoneId, addressId, ⟨hphone, haddress, hnewPhone, hnewAddress⟩, ?_⟩
  unfold referencedRow
  rw [hnewPhone, hnewAddress, ← hbuyer]
  show (((s.orders.map (ownedOrder s)).find? fun o => o.orderRecipientId = r.id).bind fun o =>
    ((bareLogins s ++ recipientPhoneRows s).find? fun p => p.recipientId = some r.id).bind fun p =>
      ((bareAddresses s ++ recipientAddressRows s).find? fun a => a.recipientId = some r.id).map fun a => _) = _
  rw [horder, hphoneFound, haddressFound]
  rfl

theorem referenced_clear {orders : List Order} {phones : List Phone} {addresses : List DeliveryAddress}
    {r r' : OrderRecipient} (h : referenced orders phones addresses r = some r') :
    clearReferences r' = clearReferences r := by
  obtain ⟨o, _, ho⟩ := Option.bind_eq_some_iff.mp h
  obtain ⟨p, _, hp⟩ := Option.bind_eq_some_iff.mp ho
  obtain ⟨a, _, rfl⟩ := Option.map_eq_some_iff.mp hp
  rfl

theorem ignores_contact : ∀ c ∈ contactConstraints, c.rule.Ignores clearReferences := by
  unfold contactConstraints embeddedTypes embeddedChecks
  simp only [List.forall_mem_append, List.forall_mem_cons, Rule.Ignores]
  exact ⟨⟨⟨fun _ => rfl, ⟨fun a b => decide_eq_decide.mpr eq_comm, fun _ _ => rfl⟩, List.forall_mem_nil _⟩,
    fun _ => trivial, fun _ => rfl, fun _ => rfl, fun _ => rfl, fun _ => rfl, fun _ => rfl, fun _ => rfl,
    List.forall_mem_nil _⟩, fun _ => rfl, fun _ => rfl, fun _ => rfl, fun _ => rfl, fun _ => rfl, fun _ => rfl,
    fun _ => rfl, fun _ => rfl, List.forall_mem_nil _⟩

/-- The rows that embed their contacts satisfy the constraints of the new schema. -/
theorem contact_hold (s : State) (ids : TableId → List Nat) :
    ∀ c ∈ contactConstraints, c.rule.Holds ids (s.recipients.map (contactRow s)) := by
  have hembedded : ∀ c ∈ contactConstraints, c.rule.Holds ids (s.recipients.map (embeddedRecipient s)) := by
    intro c hc
    unfold contactConstraints at hc
    rw [List.append_assoc] at hc
    rcases List.mem_append.mp hc with hc | hc
    · rcases List.mem_cons.mp hc with rfl | hc
      · intro r' hr'
        obtain ⟨r, hr, rfl⟩ := List.mem_map.mp hr'
        exact (facts s).recipientUint r hr
      · obtain rfl := List.mem_singleton.mp hc
        apply nodup_iff_unique.mpr
        rw [List.map_map]
        exact (facts s).recipientIds
    · obtain ⟨holds, hrule, hfits⟩ := embedded_fits (s := s) c hc
      rw [hrule]
      intro r' hr'
      obtain ⟨r, hr, rfl⟩ := List.mem_map.mp hr'
      exact hfits r hr
  intro c hc
  have hrows : s.recipients.map (contactRow s) = (s.recipients.map (embeddedRecipient s)).map clearReferences := by
    rw [List.map_map]
    rfl
  rw [hrows]
  exact (ignores_contact c hc).holds_map (hembedded c hc)

def referencedColumns : List String := contactColumns ++ ["buyerId"] ++ ["phoneId"] ++ ["deliveryAddressId"]

/-- The database while the recipients refer to their contacts again. -/
def referencing (now : Nat) (s : State) (enabled : Bool) (constraints : List (Constraint TableId OrderRecipient))
    (rows : List OrderRecipient) : Db :=
  { rebuiltDb now s with recipients := some (recipientsAt now s enabled referencedColumns constraints rows) }

theorem newPhone_uint (h : Room s) {r : OrderRecipient} {phoneId addressId : Nat}
    (hr : Rebuilt s r phoneId addressId) : uint phoneId = true ∧ uint addressId = true := by
  have hphone := phones_fit h.1 _ (List.mem_append_right _ hr.phone)
  have haddress := addresses_fit h.2 _ (List.mem_append_right _ hr.address)
  exact ⟨hphone.1, haddress.1⟩

theorem referencing_ok (h : Room s) :
    (recipientsAt now s false referencedColumns (contactConstraints ++ referenceTypes)
      (s.recipients.map (contactRow s))).update
      (referencing now s false (contactConstraints ++ referenceTypes) (s.recipients.map (contactRow s))).ids
      OrderRecipient.id (referenced (s.orders.map (ownedOrder s)) (bareLogins s ++ recipientPhoneRows s)
        (bareAddresses s ++ recipientAddressRows s))
      (plan.recipients ((s.recipients.map (contactRow s)).map OrderRecipient.id)) =
    .ok (recipientsAt now s false referencedColumns (contactConstraints ++ referenceTypes)
      (s.recipients.map (referencedRow s))) := by
  have hrows : ((s.recipients.map (contactRow s)).map fun r => (referenced (s.orders.map (ownedOrder s))
      (bareLogins s ++ recipientPhoneRows s) (bareAddresses s ++ recipientAddressRows s) r).elim r id) =
      s.recipients.map (referencedRow s) := by
    rw [List.map_map]
    apply List.map_congr_left
    intro r hr
    obtain ⟨_, _, _, hrow⟩ := referenced_row hr
    rw [Function.comp_apply, hrow]
    rfl
  rw [← hrows]
  apply Table.update_changing (f := clearReferences) (plan.recipients_perm _) _ (fun _ => rfl)
    (fun r r' h => referenced_clear h)
  · intro c hc
    rcases List.mem_append.mp hc with hc | hc
    · exact Or.inl ⟨ignores_contact c hc, contact_hold s _ c hc⟩
    · have hcheck : ∀ holds : OrderRecipient → Bool, (∀ r ∈ s.recipients, holds (referencedRow s r) = true) →
          ∃ holds', (Rule.check holds : Rule TableId OrderRecipient) = .check holds' ∧
            ∀ r ∈ s.recipients.map (contactRow s), ∀ r', referenced (s.orders.map (ownedOrder s))
              (bareLogins s ++ recipientPhoneRows s) (bareAddresses s ++ recipientAddressRows s) r = some r' →
                holds' r' = true := by
        intro holds hholds
        refine ⟨holds, rfl, fun r₀ hr₀ r' hchange => ?_⟩
        obtain ⟨r, hr, rfl⟩ := List.mem_map.mp hr₀
        obtain ⟨_, _, _, hrow⟩ := referenced_row hr
        rw [hrow] at hchange
        obtain rfl := Option.some.inj hchange
        exact hholds r hr
      have htypes : ∀ c ∈ referenceTypes, ∃ holds, c.rule = .check holds ∧
          ∀ r ∈ s.recipients.map (contactRow s), ∀ r', referenced (s.orders.map (ownedOrder s))
            (bareLogins s ++ recipientPhoneRows s) (bareAddresses s ++ recipientAddressRows s) r = some r' →
              holds r' = true := by
        unfold referenceTypes
        simp only [List.forall_mem_cons]
        refine ⟨hcheck _ fun r hr => ?_, hcheck _ fun r hr => ?_, hcheck _ fun r hr => ?_,
          List.forall_mem_nil _⟩
        · obtain ⟨buyer, _, _, hrefers⟩ := (facts s).refers r hr
          show (r.buyerId.all uint) = true
          rw [hrefers.buyerId]
          exact hrefers.buyerUint
        · obtain ⟨phoneId, addressId, hrebuilt, _⟩ := referenced_row hr
          show ((newRecipientPhone s r).all uint) = true
          rw [hrebuilt.phoneId]
          exact (newPhone_uint h hrebuilt).1
        · obtain ⟨phoneId, addressId, hrebuilt, _⟩ := referenced_row hr
          show ((newRecipientAddress s r).all uint) = true
          rw [hrebuilt.addressId]
          exact (newPhone_uint h hrebuilt).2
      exact Or.inr (htypes c hc)
  · show ((s.recipients.map (contactRow s)).map OrderRecipient.id).Nodup
    rw [List.map_map]
    exact (facts s).recipientIds

/-- Recipients refer to rows of their own, which are there. -/
theorem reference_hold (ids : TableId → List Nat) (huser : ids .user = s.users.map User.id)
    (hphone : ids .phone = (bareLogins s ++ recipientPhoneRows s).map Phone.id)
    (haddress : ids .address = (bareAddresses s ++ recipientAddressRows s).map DeliveryAddress.id) :
    ∀ c ∈ referenceChecks, c.rule.Holds ids (s.recipients.map (referencedRow s)) := by
  have hrow : ∀ p : OrderRecipient → Prop, (∀ r ∈ s.recipients, p (referencedRow s r)) →
      ∀ r' ∈ s.recipients.map (referencedRow s), p r' := by
    intro p hp r' hr'
    obtain ⟨r, hr, rfl⟩ := List.mem_map.mp hr'
    exact hp r hr
  have hunique : ∀ same : OrderRecipient → OrderRecipient → Bool, (∀ r ∈ s.recipients, ∀ r' ∈ s.recipients,
      r.id ≠ r'.id → same (referencedRow s r) (referencedRow s r') = false) →
      (s.recipients.map (referencedRow s)).Pairwise fun r r' => same r r' = false := by
    intro same hsame
    have hnodup := (facts s).recipientIds
    rw [List.Nodup, List.pairwise_map] at hnodup
    rw [List.pairwise_map]
    exact hnodup.imp_of_mem fun hr hr' hne => hsame _ hr _ hr' hne
  unfold referenceChecks
  simp only [List.forall_mem_cons, Rule.Holds]
  refine ⟨hrow _ fun r hr => ?_, hrow _ fun r hr => ?_, hrow _ fun r hr => ?_, hunique _ fun r hr r' hr' hne => ?_,
    hunique _ fun r hr r' hr' hne => ?_, hrow _ fun r hr => ?_, hrow _ fun r hr => ?_, hrow _ fun r hr => ?_,
    List.forall_mem_nil _⟩
  · obtain ⟨buyer, _, _, hrefers⟩ := (facts s).refers r hr
    show r.buyerId.isSome = true
    rw [hrefers.buyerId]
    rfl
  · obtain ⟨_, _, hrebuilt, _⟩ := referenced_row hr
    show (newRecipientPhone s r).isSome = true
    rw [hrebuilt.phoneId]
    rfl
  · obtain ⟨_, _, hrebuilt, _⟩ := referenced_row hr
    show (newRecipientAddress s r).isSome = true
    rw [hrebuilt.addressId]
    rfl
  · obtain ⟨id, _, hrebuilt, _⟩ := referenced_row hr
    obtain ⟨id', _, hrebuilt', _⟩ := referenced_row hr'
    show equal (newRecipientPhone s r) (newRecipientPhone s r') = false
    rw [hrebuilt.phoneId, hrebuilt'.phoneId]
    apply equal_some
    rintro rfl
    have hnodup : ((recipientPhoneRows s).map Phone.id).Nodup := by
      rw [recipientPhoneRows_ids]
      exact List.nodup_range'
    have hsame := List.inj_on_of_nodup_map hnodup hrebuilt.phone hrebuilt'.phone rfl
    have hback : some r.id = some r'.id := congrArg Phone.recipientId hsame
    exact hne (Option.some.inj hback)
  · obtain ⟨_, id, hrebuilt, _⟩ := referenced_row hr
    obtain ⟨_, id', hrebuilt', _⟩ := referenced_row hr'
    show equal (newRecipientAddress s r) (newRecipientAddress s r') = false
    rw [hrebuilt.addressId, hrebuilt'.addressId]
    apply equal_some
    rintro rfl
    have hnodup : ((recipientAddressRows s).map DeliveryAddress.id).Nodup := by
      rw [recipientAddressRows_ids]
      exact List.nodup_range'
    have hsame := List.inj_on_of_nodup_map hnodup hrebuilt.address hrebuilt'.address rfl
    have hback : some r.id = some r'.id := congrArg DeliveryAddress.recipientId hsame
    exact hne (Option.some.inj hback)
  · obtain ⟨buyer, _, _, hrefers⟩ := (facts s).refers r hr
    show (r.buyerId.all fun id => decide (id ∈ ids .user)) = true
    rw [hrefers.buyerId, huser]
    exact decide_eq_true hrefers.user
  · obtain ⟨_, _, hrebuilt, _⟩ := referenced_row hr
    show ((newRecipientPhone s r).all fun id => decide (id ∈ ids .phone)) = true
    rw [hrebuilt.phoneId, hphone]
    exact decide_eq_true (List.mem_map_of_mem (List.mem_append_right _ hrebuilt.phone))
  · obtain ⟨_, _, hrebuilt, _⟩ := referenced_row hr
    show ((newRecipientAddress s r).all fun id => decide (id ∈ ids .address)) = true
    rw [hrebuilt.addressId, haddress]
    exact decide_eq_true (List.mem_map_of_mem (List.mem_append_right _ hrebuilt.address))

theorem reference_ok (h : Room s) : run (OrderOwnsUserAndContact.reference plan) (rebuiltDb now s) =
    .ok (referencing now s true (contactConstraints ++ referenceTypes ++ referenceChecks)
      (s.recipients.map (referencedRow s))) := by
  have hrow : ((((s.recipients.map (contactRow s)).map fun r => { r with buyerId := none }).map fun r =>
      { r with phoneId := none }).map fun r => { r with deliveryAddressId := none }) =
      s.recipients.map (contactRow s) := by
    simp only [List.map_map]
    rfl
  have hcolumns : run ((OrderOwnsUserAndContact.reference plan).take 4) (rebuiltDb now s) =
      .ok (referencing now s false (contactConstraints ++ referenceTypes) (s.recipients.map (contactRow s))) := by
    rw [← hrow]
    rfl
  have hupdate : recipients.alter "OrderRecipient" (fun db => Table.update db.ids OrderRecipient.id
      (referenced (rowsOf db.orders) (rowsOf db.phones) (rowsOf db.addresses))
      (plan.recipients ((rowsOf db.recipients).map OrderRecipient.id)))
      (referencing now s false (contactConstraints ++ referenceTypes) (s.recipients.map (contactRow s))) =
      .ok (referencing now s false (contactConstraints ++ referenceTypes) (s.recipients.map (referencedRow s))) :=
    alter_ok rfl rfl (referencing_ok h)
  have henable : recipients.alter "OrderRecipient" (fun _ => Table.setTrigger "OrderRecipient_setUpdatedAt" true)
      (referencing now s false (contactConstraints ++ referenceTypes) (s.recipients.map (referencedRow s))) =
      .ok (referencing now s true (contactConstraints ++ referenceTypes) (s.recipients.map (referencedRow s))) := rfl
  have hchecks : run (referenceChecks.map fun c => recipients.alter "OrderRecipient" fun db =>
      Table.addConstraint db.ids c)
      (referencing now s true (contactConstraints ++ referenceTypes) (s.recipients.map (referencedRow s))) =
      .ok (referencing now s true (contactConstraints ++ referenceTypes ++ referenceChecks)
        (s.recipients.map (referencedRow s))) := by
    have hnames : ((contactConstraints ++ referenceTypes ++ referenceChecks).map Constraint.name).Nodup := by
      decide +kernel
    apply run_addConstraints recipients (rebuiltDb now s)
      (recipientsAt now s true referencedColumns (contactConstraints ++ referenceTypes)
        (s.recipients.map (referencedRow s))) rfl (fun _ _ => rfl) (fun _ _ _ => rfl) _ hnames
    · exact reference_hold _ rfl rfl rfl
    · intro cs
      funext target
      cases target <;> rfl
  exact (run_append_ok hcolumns).trans ((run_cons_ok hupdate).trans ((run_cons_ok henable).trans hchecks))

def finalConstraints : List (Constraint TableId OrderRecipient) :=
  contactConstraints.take 2 ++ referenceTypes ++ referenceChecks

/-- The database after both directions. -/
def restoredDb (now : Nat) (s : State) : Db :=
  { rebuiltDb now s with
    phones := some (phonesAt now (1 + (logins s).length + s.recipients.length) phoneColumns phoneConstraints
      ((bareLogins s ++ recipientPhoneRows s).map fun p => { p with recipientId := none }))
    addresses := some (addressesAt now (s.next .address + s.recipients.length) addressColumns addressConstraints
      ((bareAddresses s ++ recipientAddressRows s).map fun a => { a with recipientId := none }))
    recipients := some (recipientsAt now s true
      ["id", "createdAt", "updatedAt", "buyerId", "phoneId", "deliveryAddressId"] finalConstraints
      (s.recipients.map (restoredRecipient s)))
    orders := some (ordersAt now s true ["id", "orderRecipientId", "updatedAt"] orderConstraints
      ((s.orders.map (ownedOrder s)).map fun o => { o with userId := none })) }

theorem dropEmbedded_ok : run OrderOwnsUserAndContact.dropEmbedded
    (referencing now s true (contactConstraints ++ referenceTypes ++ referenceChecks)
      (s.recipients.map (referencedRow s))) = .ok (restoredDb now s) := by
  have hbare : ∀ l : List OrderRecipient, (((((((l.map fun r => { r with addressBuilding := none }).map fun r =>
      { r with addressCity := none }).map fun r => { r with addressLine := none }).map fun r =>
      { r with phoneNationalNumber := none }).map fun r => { r with phoneFullNumber := none }).map fun r =>
      { r with phoneRawNumber := none }).map fun r => { r with phoneCountryCode := none }) = l.map bareRecipient := by
    intro l
    simp only [List.map_map]
    apply List.map_congr_left
    rintro ⟨⟩ _
    rfl
  have hrow : (s.recipients.map (referencedRow s)).map bareRecipient = s.recipients.map (restoredRecipient s) := by
    rw [List.map_map]
    rfl
  unfold restoredDb
  rw [← hrow, ← hbare]
  rfl

/-- Reverting both migrations succeeds if the ids for the new rows are left. -/
theorem down_ok (h : Room s) : run (down now plan) (loginDb now s) = .ok (restoredDb now s) := by
  unfold down OrderOwnsUserAndContact.down
  rw [List.append_assoc, run_append_ok identityOwnsLoginPhone_down_ok, run_append_ok (rebuild_ok h)]
  exact (run_append_ok (reference_ok h)).trans dropEmbedded_ok

/-- It fails if they are not. -/
theorem down_error (now : Nat) (plan : Plan) (h : ¬ Room s) : ∃ e, run (down now plan) (loginDb now s) = .error e := by
  obtain ⟨e, he⟩ := rebuild_error now h
  refine ⟨e, ?_⟩
  unfold down OrderOwnsUserAndContact.down
  rw [List.append_assoc, run_append_ok identityOwnsLoginPhone_down_ok]
  exact run_append_error he

theorem restored_numbers (now : Nat) {p : Phone} (hp : p ∈ bareLogins s ++ recipientPhoneRows s) :
    (restoredDb now s).numberOf (some p.id) = some p.number := by
  have hin : { p with recipientId := none } ∈ rowsOf (restoredDb now s).phones := List.mem_map_of_mem hp
  have hnodup : ((rowsOf (restoredDb now s).phones).map Phone.id).Nodup := by
    show (((bareLogins s ++ recipientPhoneRows s).map fun p => { p with recipientId := none }).map Phone.id).Nodup
    rw [List.map_map]
    have hids : ((bareLogins s ++ recipientPhoneRows s).map Phone.id).Nodup := by
      rw [phones_ids]
      exact List.nodup_range'
    exact hids
  have hnumber := numberOf_some hnodup hin
  exact hnumber

theorem restored_addresses (now : Nat) (s : State) :
    ((rowsOf (restoredDb now s).addresses).map DeliveryAddress.id).Nodup := by
  show (((bareAddresses s ++ recipientAddressRows s).map fun a => { a with recipientId := none }).map
    DeliveryAddress.id).Nodup
  rw [List.map_map]
  exact addresses_ids s

theorem restored_places (now : Nat) {a : DeliveryAddress} (ha : a ∈ bareAddresses s ++ recipientAddressRows s) :
    (restoredDb now s).placeOf (some a.id) = some a.place := by
  have hin : { a with recipientId := none } ∈ rowsOf (restoredDb now s).addresses := List.mem_map_of_mem ha
  have hplace := placeOf_some (restored_addresses now s) hin
  exact hplace

/-- After both directions the database says what it said before. -/
theorem restored_contacts (now : Nat) (s : State) :
    (restoredDb now s).referencedContacts = (s.db now).referencedContacts := by
  have husers : (restoredDb now s).userContacts = (s.db now).userContacts := by
    apply userContacts_eq rfl (restored_addresses now s)
    intro a ha
    have hin : { a with recipientId := none } ∈ bareAddresses s ++ recipientAddressRows s :=
      List.mem_append_left _ (List.mem_map_of_mem ha)
    have hin' := List.mem_map_of_mem (f := fun a : DeliveryAddress => { a with recipientId := none }) hin
    exact ⟨_, hin', rfl, rfl⟩
  have hidentities : ((s.identities.map (restoredIdentity s)).map fun i =>
      (⟨i.id, i.email, (restoredDb now s).numberOf i.phoneId, i.createdAt, i.updatedAt⟩ : IdentityContact)) =
      s.identities.map fun i => ⟨i.id, i.email, (s.db now).numberOf i.phoneId, i.createdAt, i.updatedAt⟩ := by
    rw [List.map_map]
    apply List.map_congr_left
    intro i hi
    have hnumber : (restoredDb now s).numberOf (newPhoneId s i) = (s.db now).numberOf i.phoneId := by
      cases hid : i.phoneId with
      | none => rw [newPhoneId_none hi hid, numberOf_none, numberOf_none]
      | some id =>
        have hnew := newPhoneId_isSome hi
        rw [hid] at hnew
        obtain ⟨n, hn⟩ := Option.isSome_iff_exists.mp hnew
        obtain ⟨p, hp, rfl, hfields⟩ := loginPhone_number hi hid
        have hin : { loginPhone (loginRow s i) n with identityId := none, recipientId := none } ∈ bareLogins s :=
          List.mem_map.mpr ⟨_, List.mem_map_of_mem (newPhoneId_some hi hn).1, rfl⟩
        have hnow := restored_numbers now (List.mem_append_left _ hin)
        have hold : (s.db now).numberOf (some p.id) = some p.number := numberOf_some (facts s).phoneIds hp
        rw [hn, hold, ← hfields n]
        exact hnow
    rw [Function.comp_apply, ← hnumber]
    rfl
  have hrecipients : ((s.recipients.map (restoredRecipient s)).map fun r =>
      (⟨r.id, r.buyerId, (restoredDb now s).numberOf r.phoneId, (restoredDb now s).placeOf r.deliveryAddressId,
        r.createdAt, r.updatedAt⟩ : RecipientContact)) =
      s.recipients.map fun r => ⟨r.id, r.buyerId, (s.db now).numberOf r.phoneId,
        (s.db now).placeOf r.deliveryAddressId, r.createdAt, r.updatedAt⟩ := by
    rw [List.map_map]
    apply List.map_congr_left
    intro r hr
    obtain ⟨phoneId, addressId, hrebuilt, _⟩ := referenced_row hr
    obtain ⟨_, p, a, hrefers, hnumber, hplace⟩ := recipientPhone_number hr
    have hcontact := recipient_contact now hrefers
    have hphone : (restoredDb now s).numberOf (newRecipientPhone s r) = (s.db now).numberOf r.phoneId := by
      rw [hrebuilt.phoneId, hcontact.1, ← hnumber phoneId]
      exact restored_numbers now (List.mem_append_right _ hrebuilt.phone)
    have haddress : (restoredDb now s).placeOf (newRecipientAddress s r) = (s.db now).placeOf r.deliveryAddressId := by
      rw [hrebuilt.addressId, hcontact.2, ← hplace addressId]
      exact restored_places now (List.mem_append_right _ hrebuilt.address)
    rw [Function.comp_apply, ← hphone, ← haddress]
    rfl
  have horders : (restoredDb now s).orderContacts = (s.db now).orderContacts := by
    show (((s.orders.map (ownedOrder s)).map fun o => { o with userId := none }).map fun o =>
      (⟨o.id, o.orderRecipientId, o.updatedAt⟩ : OrderContact)) = _
    rw [List.map_map, List.map_map]
    rfl
  unfold Db.referencedContacts
  rw [husers, horders]
  exact congrArg₂ (Contacts.mk _ · · _) hidentities hrecipients

/-- Both migrations always succeed and embed what the database referred to. The way back succeeds,
and the database then says what it said before, exactly if the ids for the rebuilt rows are left. -/
theorem contact_round_trip (now : Nat) (plan back : Plan) (s : State) : ∃ db, run (up plan) (s.db now) = .ok db ∧
    db.embeddedContacts = (s.db now).referencedContacts ∧
    ((∃ db', run (down now back) db = .ok db' ∧ db'.referencedContacts = (s.db now).referencedContacts) ↔ Room s) := by
  refine ⟨loginDb now s, up_ok, embedded_contacts now s, ?_⟩
  constructor
  · rintro ⟨db', hdown, _⟩
    by_contra hroom
    obtain ⟨e, he⟩ := down_error now back hroom
    rw [he] at hdown
    cases hdown
  · intro hroom
    exact ⟨restoredDb now s, down_ok hroom, restored_contacts now s⟩

end

/-- A buyer has ordered to an address that has the last id there is. -/
def lastRows : Rows where
  users := [⟨1, none⟩]
  phones := [⟨1, some .UA, some "0671234567", some "+380671234567", some "0671234567", 0, 0, none, none, none⟩]
  addresses := [⟨2147483647, some "Khreshchatyk 1", some "Kyiv", none, 0, 0, none, none⟩]
  identities := [⟨1, some "buyer@example.com", none, 0, 0, none, none, none, none⟩]
  recipients := [⟨1, some 1, some 1, some 2147483647, 0, 0, none, none, none, none, none, none, none⟩]
  orders := [⟨1, 1, none, 0⟩]
  next
    | .address => 2147483648
    | _ => 2

theorem lastRows_valid : (∀ c ∈ userConstraints, c.rule.Holds (lastRows.db 0).ids lastRows.users) ∧
    (∀ c ∈ phoneConstraints, c.rule.Holds (lastRows.db 0).ids lastRows.phones) ∧
    (∀ c ∈ addressConstraints, c.rule.Holds (lastRows.db 0).ids lastRows.addresses) ∧
    (∀ c ∈ identityConstraints, c.rule.Holds (lastRows.db 0).ids lastRows.identities) ∧
    (∀ c ∈ recipientConstraints, c.rule.Holds (lastRows.db 0).ids lastRows.recipients) ∧
    ∀ c ∈ orderConstraints, c.rule.Holds (lastRows.db 0).ids lastRows.orders := by
  decide +kernel

def lastAddress : State where
  toRows := lastRows
  users_valid := fun _ => lastRows_valid.1
  phones_valid := fun _ => lastRows_valid.2.1
  addresses_valid := fun _ => lastRows_valid.2.2.1
  identities_valid := fun _ => lastRows_valid.2.2.2.1
  recipients_valid := fun _ => lastRows_valid.2.2.2.2.1
  orders_valid := fun _ => lastRows_valid.2.2.2.2.2
  next_pos := by decide
  addresses_next := by decide
  ordered := by decide

/-- Rows visited as they are listed. -/
def asListed : Plan := ⟨id, id, id, List.Perm.refl, List.Perm.refl, List.Perm.refl⟩

/-- The address the way back inserts would need an id that an `integer` does not have. -/
theorem contact_round_trip_refuted :
    ¬ ∃ db db', run (up asListed) (lastAddress.db 0) = .ok db ∧ run (down 0 asListed) db = .ok db' := by
  rintro ⟨db, db', hup, hdown⟩
  have hroom : ¬ Room lastAddress := by
    unfold Room
    decide
  obtain ⟨e, he⟩ := down_error 0 asListed hroom
  rw [up_ok] at hup
  obtain rfl := Except.ok.inj hup
  rw [he] at hdown
  cases hdown

end MarketplaceApi.Migrations.Contact
