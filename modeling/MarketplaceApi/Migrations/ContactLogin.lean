import MarketplaceApi.Migrations.ContactUp

/-!
# Embedding the login phones

The second `up` migration succeeds in every state the first one leaves, and what is then embedded
is what the database referred to before.
-/
namespace MarketplaceApi.Migrations.Contact

open Sql

/-- An identity that only embeds its phone. -/
def loginRow (s : State) (i : Identity) : Identity := { embeddedIdentity s i with phoneId := none }

def loginColumns : List String :=
  ["id", "email", "createdAt", "updatedAt", "loginPhoneCountryCode", "loginPhoneRawNumber", "loginPhoneFullNumber",
    "loginPhoneNationalNumber"]

/-- The constraints on identities that do not mention the phone. -/
def plainConstraints : List (Constraint TableId Identity) := identityConstraints.filter fun c => "phoneId" ∉ c.columns

def loginConstraints : List (Constraint TableId Identity) :=
  plainConstraints ++ loginTypes ++ loginChecks ++ [loginPresent]

section
variable {now : Nat} {plan : Plan} {s : State}

theorem ignores_identity : ∀ c ∈ identityConstraints, c.rule.Ignores bareIdentity := by
  unfold identityConstraints
  simp only [List.forall_mem_cons, Rule.Ignores]
  exact ⟨fun _ => rfl, fun _ => rfl, ⟨fun _ _ => equal_comm _ _, fun _ _ => rfl⟩,
    ⟨fun _ _ => equal_comm _ _, fun _ _ => rfl⟩, fun _ => rfl, fun _ => rfl,
    ⟨fun a b => decide_eq_decide.mpr eq_comm, fun _ _ => rfl⟩, fun _ => rfl, List.forall_mem_nil _⟩

theorem mem_keptPhones {p : Phone} (hp : p ∈ s.phones) {i : Identity} (hi : i ∈ s.identities)
    (hid : i.phoneId = some p.id) : p ∈ keptPhones s := by
  apply List.mem_filter.mpr
  refine ⟨hp, ?_⟩
  have hin : some p.id ∈ s.identities.map Identity.phoneId := List.mem_map.mpr ⟨i, hi, hid⟩
  unfold phoneGoes
  simp [hin]

theorem mem_keptAddresses {a : DeliveryAddress} (ha : a ∈ s.addresses) {u : User} (hu : u ∈ s.users)
    (hid : u.deliveryAddressId = some a.id) : a ∈ keptAddresses s := by
  apply List.mem_filter.mpr
  refine ⟨ha, ?_⟩
  have hin : some a.id ∈ s.users.map User.deliveryAddressId := List.mem_map.mpr ⟨u, hu, hid⟩
  unfold addressGoes
  simp [hin]

theorem keptPhones_ids (s : State) : ((keptPhones s).map Phone.id).Nodup :=
  (facts s).phoneIds.sublist (List.filter_sublist.map _)

theorem keptAddresses_ids (s : State) : ((keptAddresses s).map DeliveryAddress.id).Nodup :=
  (facts s).addressIds.sublist (List.filter_sublist.map _)

/-- The identities satisfy their constraints while their phones are there. -/
theorem identities_hold (s : State) (ids : TableId → List Nat)
    (h : ∀ i ∈ s.identities, ∀ id, i.phoneId = some id → id ∈ ids .phone) :
    ∀ c ∈ identityConstraints, c.rule.Holds ids (s.identities.map bareIdentity) := by
  have hsplit : ∀ c ∈ identityConstraints, (∀ target column, c.rule ≠ .references target column) ∨
      c.rule = .references .phone Identity.phoneId := by
    unfold identityConstraints
    simp only [List.forall_mem_cons]
    exact ⟨Or.inl (Rule.not_of_check _), Or.inl (Rule.not_of_check _), Or.inl (Rule.not_of_unique _),
      Or.inl (Rule.not_of_unique _), Or.inl (Rule.not_of_check _), Or.inl (Rule.not_of_check _),
      Or.inl (Rule.not_of_unique _), Or.inr trivial, List.forall_mem_nil _⟩
  intro c hc
  rcases hsplit c hc with hother | hrule
  · apply (ignores_identity c hc).holds_map
    apply (s.identities_valid 0 c hc).congr
    intro target column hrule
    exact absurd hrule (hother target column)
  · rw [hrule]
    intro i' hi'
    obtain ⟨i, hi, rfl⟩ := List.mem_map.mp hi'
    show (i.phoneId.all fun id => decide (id ∈ ids .phone)) = true
    cases hid : i.phoneId with
    | none => rfl
    | some id => exact decide_eq_true (h i hi id hid)

/-- An identity without a phone embeds nothing. -/
theorem login_none {i : Identity} (hid : i.phoneId = none) : embeddedIdentity s i = bareIdentity i := by
  unfold embeddedIdentity bareIdentity
  rw [hid, phoneAt_none]
  rfl

/-- An identity with a phone embeds it. -/
theorem login_some {i : Identity} (hi : i ∈ s.identities) {id : Nat} (hid : i.phoneId = some id) :
    ∃ p ∈ s.phones, p.id = id ∧ p ∈ keptPhones s ∧ embeddedIdentity s i = ⟨i.id, i.email, i.phoneId, i.createdAt,
      i.updatedAt, p.countryCode, p.rawNumber, p.fullNumber, p.nationalNumber⟩ := by
  obtain ⟨p, hp, rfl⟩ := (facts s).loginPhone i hi id hid
  refine ⟨p, hp, rfl, mem_keptPhones hp hi hid, ?_⟩
  unfold embeddedIdentity
  rw [hid, phoneAt_some hp]
  rfl

theorem loginEmbedded_bare {i : Identity} (hi : i ∈ s.identities) :
    (loginEmbedded (keptPhones s) (bareIdentity i)).elim (bareIdentity i) id = embeddedIdentity s i ∧
      ∀ i', loginEmbedded (keptPhones s) (bareIdentity i) = some i' → i' = embeddedIdentity s i := by
  unfold loginEmbedded
  cases hid : i.phoneId with
  | none =>
    have hnone : ((keptPhones s).find? fun p => some p.id = (bareIdentity i).phoneId) = none := by
      rw [List.find?_eq_none]
      intro p _ h
      have heq : some p.id = i.phoneId := of_decide_eq_true h
      rw [hid] at heq
      cases heq
    rw [hnone, login_none hid]
    exact ⟨rfl, fun _ h => absurd h (by simp)⟩
  | some id =>
    obtain ⟨p, _, rfl, hkept, hrow⟩ := login_some hi hid
    have hfound : ((keptPhones s).find? fun q => some q.id = (bareIdentity i).phoneId) = some p := by
      show ((keptPhones s).find? fun q => some q.id = i.phoneId) = some p
      rw [hid]
      exact find?_some_key (keptPhones_ids s) hkept
    rw [hfound, hrow]
    refine ⟨rfl, ?_⟩
    rintro _ ⟨⟩
    rfl

theorem loginEmbedded_bareIdentity {phones : List Phone} {i i' : Identity} (h : loginEmbedded phones i = some i') :
    bareIdentity i' = bareIdentity i := by
  obtain ⟨p, _, rfl⟩ := Option.map_eq_some_iff.mp h
  rfl

/-- What holds of the login columns once they are filled. -/
theorem login_fits : ∀ c ∈ loginTypes ++ loginChecks ++ [loginPresent], ∃ holds, c.rule = .check holds ∧
    ∀ i ∈ s.identities, holds (embeddedIdentity s i) = true ∧ holds (loginRow s i) = true := by
  have hcheck : ∀ holds : Identity → Bool, (∀ i : Identity, holds { i with phoneId := none } = holds i) →
      (∀ i ∈ s.identities, i.phoneId = none → holds (bareIdentity i) = true) →
      (∀ (i : Identity) (n : Number), n.Fits → holds ⟨i.id, i.email, i.phoneId, i.createdAt, i.updatedAt, n.countryCode,
        n.rawNumber, n.fullNumber, n.nationalNumber⟩ = true) →
      ∃ holds', (Rule.check holds : Rule TableId Identity) = .check holds' ∧
        ∀ i ∈ s.identities, holds' (embeddedIdentity s i) = true ∧ holds' (loginRow s i) = true := by
    intro holds hignores hnone hsome
    refine ⟨holds, rfl, fun i hi => ?_⟩
    have hrow : holds (embeddedIdentity s i) = true := by
      cases hid : i.phoneId with
      | none =>
        rw [login_none hid]
        exact hnone i hi hid
      | some id =>
        obtain ⟨p, hp, _, _, hrow⟩ := login_some hi hid
        rw [hrow]
        exact hsome i p.number ((facts s).numbers p hp).2.1
    exact ⟨hrow, (hignores _).trans hrow⟩
  unfold loginTypes loginChecks loginPresent
  simp only [List.forall_mem_append, List.forall_mem_cons]
  refine ⟨⟨⟨hcheck _ (fun _ => rfl) (fun _ _ _ => rfl) fun _ _ _ => rfl,
      hcheck _ (fun _ => rfl) (fun _ _ _ => rfl) fun _ _ hn => hn.rawLength,
      hcheck _ (fun _ => rfl) (fun _ _ _ => rfl) fun _ _ hn => hn.fullLength,
      hcheck _ (fun _ => rfl) (fun _ _ _ => rfl) fun _ _ hn => hn.nationalLength,
      List.forall_mem_nil _⟩,
    hcheck _ (fun _ => rfl) (fun _ _ _ => rfl) fun _ _ hn => hn.e164,
    hcheck _ (fun _ => rfl) (fun _ _ _ => rfl) fun _ _ hn => hn.nationalFormat,
      List.forall_mem_nil _⟩,
    hcheck _ (fun _ => rfl) (fun i hi hid => ?_) fun i n hn => ?_, List.forall_mem_nil _⟩
  · have hlogin := (facts s).login i hi
    rw [hid] at hlogin
    exact hlogin
  · rw [hn.fullNumber, Bool.or_true]

def embeddedLoginColumns : List String :=
  ["id", "email", "phoneId", "createdAt", "updatedAt", "loginPhoneCountryCode", "loginPhoneRawNumber",
    "loginPhoneFullNumber", "loginPhoneNationalNumber"]

/-- The database while the identities get their phones. -/
def embeddingLogin (now : Nat) (s : State) (enabled : Bool) (constraints : List (Constraint TableId Identity))
    (rows : List Identity) : Db :=
  { contactDb now s with identities := some (identitiesAt now s enabled embeddedLoginColumns constraints rows) }

theorem embeddingLogin_ok : (identitiesAt now s false embeddedLoginColumns (identityConstraints ++ loginTypes)
      (s.identities.map bareIdentity)).update
      (embeddingLogin now s false (identityConstraints ++ loginTypes) (s.identities.map bareIdentity)).ids Identity.id
      (loginEmbedded (keptPhones s)) (plan.identities ((s.identities.map bareIdentity).map Identity.id)) =
    .ok (identitiesAt now s false embeddedLoginColumns (identityConstraints ++ loginTypes)
      (s.identities.map (embeddedIdentity s))) := by
  have hrows : ((s.identities.map bareIdentity).map fun i => (loginEmbedded (keptPhones s) i).elim i id) =
      s.identities.map (embeddedIdentity s) := by
    rw [List.map_map]
    apply List.map_congr_left
    intro i hi
    exact (loginEmbedded_bare hi).1
  rw [← hrows]
  apply Table.update_changing (f := bareIdentity) (plan.identities_perm _) _ (fun _ => rfl)
    (fun i i' h => loginEmbedded_bareIdentity h)
  · intro c hc
    rcases List.mem_append.mp hc with hc | hc
    · refine Or.inl ⟨ignores_identity c hc, identities_hold s _ (fun i hi id hid => ?_) c hc⟩
      obtain ⟨p, _, rfl, hkept, _⟩ := login_some hi hid
      exact List.mem_map_of_mem hkept
    · obtain ⟨holds, hrule, hfits⟩ := login_fits c (List.mem_append_left _ (List.mem_append_left _ hc))
      refine Or.inr ⟨holds, hrule, fun i hi i' h => ?_⟩
      obtain ⟨old, hold, rfl⟩ := List.mem_map.mp hi
      rw [(loginEmbedded_bare hold).2 i' h]
      exact (hfits old hold).1
  · show ((s.identities.map bareIdentity).map Identity.id).Nodup
    rw [List.map_map]
    exact (facts s).identityIds

/-- The database after both migrations. -/
def loginDb (now : Nat) (s : State) : Db :=
  { contactDb now s with
    phones := none
    identities := some (identitiesAt now s true loginColumns loginConstraints (s.identities.map (loginRow s))) }

/-- A check that is added holds of the rows that embed their phones. -/
theorem login_checks (ids : TableId → List Nat) : ∀ c ∈ loginTypes ++ loginChecks ++ [loginPresent],
    c.rule.Holds ids (s.identities.map (embeddedIdentity s)) := by
  intro c hc
  obtain ⟨holds, hrule, hfits⟩ := login_fits (s := s) c hc
  rw [hrule]
  intro i hi
  obtain ⟨old, hold, rfl⟩ := List.mem_map.mp hi
  exact (hfits old hold).1

theorem embedLogin_ok : run (IdentityOwnsLoginPhone.embedLogin plan) (contactDb now s) =
    .ok (embeddingLogin now s true (identityConstraints ++ loginTypes ++ loginChecks)
      (s.identities.map (embeddedIdentity s))) := by
  have hbare : ((((s.identities.map fun i => { i with loginPhoneCountryCode := none }).map fun i =>
      { i with loginPhoneRawNumber := none }).map fun i => { i with loginPhoneFullNumber := none }).map fun i =>
      { i with loginPhoneNationalNumber := none }) = s.identities.map bareIdentity := by
    simp only [List.map_map]
    rfl
  have hcolumns : run ((IdentityOwnsLoginPhone.embedLogin plan).take 5) (contactDb now s) =
      .ok (embeddingLogin now s false (identityConstraints ++ loginTypes) (s.identities.map bareIdentity)) := by
    rw [← hbare]
    rfl
  have hupdate : identities.alter "Identity" (fun db => Table.update db.ids Identity.id
      (loginEmbedded (rowsOf db.phones)) (plan.identities ((rowsOf db.identities).map Identity.id)))
      (embeddingLogin now s false (identityConstraints ++ loginTypes) (s.identities.map bareIdentity)) =
      .ok (embeddingLogin now s false (identityConstraints ++ loginTypes) (s.identities.map (embeddedIdentity s))) :=
    alter_ok rfl rfl embeddingLogin_ok
  have henable : identities.alter "Identity" (fun _ => Table.setTrigger "Identity_setUpdatedAt" true)
      (embeddingLogin now s false (identityConstraints ++ loginTypes) (s.identities.map (embeddedIdentity s))) =
      .ok (embeddingLogin now s true (identityConstraints ++ loginTypes) (s.identities.map (embeddedIdentity s))) := rfl
  have hchecks : run (loginChecks.map fun c => identities.alter "Identity" fun db => Table.addConstraint db.ids c)
      (embeddingLogin now s true (identityConstraints ++ loginTypes) (s.identities.map (embeddedIdentity s))) =
      .ok (embeddingLogin now s true (identityConstraints ++ loginTypes ++ loginChecks)
        (s.identities.map (embeddedIdentity s))) := by
    have hnames : ((identityConstraints ++ loginTypes ++ loginChecks).map Constraint.name).Nodup := by
      decide +kernel
    apply run_addConstraints identities (contactDb now s)
      (identitiesAt now s true embeddedLoginColumns (identityConstraints ++ loginTypes)
        (s.identities.map (embeddedIdentity s))) rfl (fun _ _ => rfl) (fun _ _ _ => rfl) _ hnames
    · intro c hc
      exact login_checks _ c (List.mem_append_left _ (List.mem_append_right _ hc))
    · intro cs
      funext target
      cases target <;> rfl
  exact (run_append_ok hcolumns).trans ((run_cons_ok hupdate).trans ((run_cons_ok henable).trans hchecks))

/-- The constraints on identities between the two checks on their login. -/
def unloggedConstraints : List (Constraint TableId Identity) :=
  identityConstraints.filter (fun c => c.name ≠ "Identity_login_present") ++ loginTypes ++ loginChecks

theorem dropPhone_ok : run IdentityOwnsLoginPhone.dropPhone (embeddingLogin now s true
    (identityConstraints ++ loginTypes ++ loginChecks) (s.identities.map (embeddedIdentity s))) =
    .ok (loginDb now s) := by
  have hdrop : identities.alter "Identity" (fun _ => Table.dropConstraint "Identity_login_present")
      (embeddingLogin now s true (identityConstraints ++ loginTypes ++ loginChecks)
        (s.identities.map (embeddedIdentity s))) =
      .ok (embeddingLogin now s true unloggedConstraints (s.identities.map (embeddedIdentity s))) := rfl
  have hadd : identities.alter "Identity" (fun db => Table.addConstraint db.ids loginPresent)
      (embeddingLogin now s true unloggedConstraints (s.identities.map (embeddedIdentity s))) =
      .ok (embeddingLogin now s true (unloggedConstraints ++ [loginPresent]) (s.identities.map (embeddedIdentity s))) :=
    alter_ok rfl rfl (addConstraint_ok rfl (login_checks _ loginPresent (List.mem_append_right _ List.mem_cons_self)))
  have hrow : ((s.identities.map (embeddedIdentity s)).map fun i => { i with phoneId := none }) =
      s.identities.map (loginRow s) := by
    rw [List.map_map]
    rfl
  have hphone : run (IdentityOwnsLoginPhone.dropPhone.drop 2)
      (embeddingLogin now s true (unloggedConstraints ++ [loginPresent]) (s.identities.map (embeddedIdentity s))) =
      .ok (loginDb now s) := by
    unfold loginDb
    rw [← hrow]
    rfl
  exact (run_cons_ok hdrop).trans ((run_cons_ok hadd).trans hphone)

/-- Both migrations succeed in every state. -/
theorem up_ok : run (up plan) (s.db now) = .ok (loginDb now s) := by
  unfold up IdentityOwnsLoginPhone.up
  exact (run_append_ok orderOwnsUserAndContact_up_ok).trans ((run_append_ok embedLogin_ok).trans dropPhone_ok)

theorem numberOf_some {db : Db} {p : Phone} (hnodup : ((rowsOf db.phones).map Phone.id).Nodup)
    (hp : p ∈ rowsOf db.phones) : db.numberOf (some p.id) = some p.number := by
  unfold Db.numberOf
  rw [find?_some_key hnodup hp]
  rfl

theorem numberOf_none (db : Db) : db.numberOf none = none := by
  unfold Db.numberOf
  have hnone : ((rowsOf db.phones).find? fun p => some p.id = none) = none := by
    rw [List.find?_eq_none]
    intro p _ h
    cases of_decide_eq_true h
  rw [hnone]
  rfl

theorem placeOf_some {db : Db} {a : DeliveryAddress} (hnodup : ((rowsOf db.addresses).map DeliveryAddress.id).Nodup)
    (ha : a ∈ rowsOf db.addresses) : db.placeOf (some a.id) = some a.place := by
  unfold Db.placeOf
  rw [find?_some_key hnodup ha]
  rfl

theorem placeOf_none (db : Db) : db.placeOf none = none := by
  unfold Db.placeOf
  have hnone : ((rowsOf db.addresses).find? fun a => some a.id = none) = none := by
    rw [List.find?_eq_none]
    intro a _ h
    cases of_decide_eq_true h
  rw [hnone]
  rfl

/-- Users keep their addresses as long as the rows they refer to stay. -/
theorem userContacts_eq {db : Db} (husers : rowsOf db.users = s.users)
    (hnodup : ((rowsOf db.addresses).map DeliveryAddress.id).Nodup)
    (hkept : ∀ a ∈ keptAddresses s, ∃ a' ∈ rowsOf db.addresses, a'.id = a.id ∧ a'.place = a.place) :
    db.userContacts = (s.db now).userContacts := by
  unfold Db.userContacts
  rw [husers]
  apply List.map_congr_left
  intro u hu
  congr 1
  cases hid : u.deliveryAddressId with
  | none => rw [placeOf_none, placeOf_none]
  | some id =>
    obtain ⟨a, ha, rfl⟩ := (facts s).userAddress u hu id hid
    obtain ⟨a', ha', hid', hplace⟩ := hkept a (mem_keptAddresses ha hu hid)
    have hold : (s.db now).placeOf (some a.id) = some a.place := placeOf_some (facts s).addressIds ha
    rw [hold, ← hid', placeOf_some hnodup ha', hplace]

/-- The phone and address a recipient refers to. -/
theorem recipient_contact (now : Nat) {r : OrderRecipient} {buyer : Nat} {p : Phone} {a : DeliveryAddress}
    (h : Refers s r buyer p a) : (s.db now).numberOf r.phoneId = some p.number ∧
      (s.db now).placeOf r.deliveryAddressId = some a.place := by
  rw [h.phoneId, h.addressId]
  exact ⟨numberOf_some (facts s).phoneIds h.phone, placeOf_some (facts s).addressIds h.address⟩

/-- The user an order has got is the buyer of its recipient. -/
theorem owned_buyer {r : OrderRecipient} (hr : r ∈ s.recipients) :
    ((s.orders.map (ownedOrder s)).find? fun o => o.orderRecipientId = r.id).bind Order.userId = r.buyerId ∧
      ∃ o ∈ s.orders, ((s.orders.map (ownedOrder s)).find? fun o => o.orderRecipientId = r.id) =
        some (ownedOrder s o) ∧ (ownedOrder s o).userId = r.buyerId := by
  obtain ⟨o, ho, hid⟩ := s.ordered r hr
  have hnodup : ((s.orders.map (ownedOrder s)).map Order.orderRecipientId).Nodup := by
    rw [List.map_map]
    exact (facts s).orderRecipients
  have hfound : ((s.orders.map (ownedOrder s)).find? fun o => o.orderRecipientId = r.id) = some (ownedOrder s o) := by
    rw [← hid]
    exact find?_key hnodup (List.mem_map_of_mem ho)
  have hbuyer : (ownedOrder s o).userId = r.buyerId := by
    unfold ownedOrder
    rw [hid, find?_key (facts s).recipientIds hr]
    rfl
  rw [hfound]
  exact ⟨hbuyer, o, ho, rfl, hbuyer⟩

/-- What is embedded after both migrations is what was referred to before. -/
theorem embedded_contacts (now : Nat) (s : State) :
    (loginDb now s).embeddedContacts = (s.db now).referencedContacts := by
  have husers : (loginDb now s).userContacts = (s.db now).userContacts :=
    userContacts_eq rfl (keptAddresses_ids s) fun a ha => ⟨a, ha, rfl, rfl⟩
  have hidentities : ((s.identities.map (loginRow s)).map fun i =>
      (⟨i.id, i.email, Db.loginNumber i, i.createdAt, i.updatedAt⟩ : IdentityContact)) =
      s.identities.map fun i => ⟨i.id, i.email, (s.db now).numberOf i.phoneId, i.createdAt, i.updatedAt⟩ := by
    rw [List.map_map]
    apply List.map_congr_left
    intro i hi
    have hnumber : Db.loginNumber (loginRow s i) = (s.db now).numberOf i.phoneId := by
      unfold loginRow
      cases hid : i.phoneId with
      | none =>
        rw [login_none hid, numberOf_none]
        rfl
      | some id =>
        obtain ⟨p, hp, rfl, _, hrow⟩ := login_some hi hid
        have hold : (s.db now).numberOf (some p.id) = some p.number := numberOf_some (facts s).phoneIds hp
        obtain ⟨fullNumber, hfull⟩ := Option.isSome_iff_exists.mp ((facts s).numbers p hp).2.1.fullNumber
        have hfull' : p.fullNumber = some fullNumber := hfull
        rw [hrow, hold]
        unfold Db.loginNumber Phone.number
        rw [hfull']
        rfl
    rw [Function.comp_apply, hnumber]
    rfl
  have hrecipients : ((s.recipients.map (contactRow s)).map fun r => (⟨r.id, (loginDb now s).buyerOf r.id,
      some ⟨r.phoneCountryCode, r.phoneRawNumber, r.phoneFullNumber, r.phoneNationalNumber⟩,
      some ⟨r.addressLine, r.addressCity, r.addressBuilding⟩, r.createdAt, r.updatedAt⟩ : RecipientContact)) =
      s.recipients.map fun r => ⟨r.id, r.buyerId, (s.db now).numberOf r.phoneId,
        (s.db now).placeOf r.deliveryAddressId, r.createdAt, r.updatedAt⟩ := by
    rw [List.map_map]
    apply List.map_congr_left
    intro r hr
    obtain ⟨buyer, p, a, hrefers, _, hrow⟩ := embedded_bare hr
    have hbuyer : (loginDb now s).buyerOf r.id = r.buyerId := (owned_buyer hr).1
    have hcontact := recipient_contact now hrefers
    rw [hcontact.1, hcontact.2, ← hbuyer, Function.comp_apply]
    unfold contactRow
    rw [hrow]
    rfl
  have horders : (loginDb now s).orderContacts = (s.db now).orderContacts := by
    show ((s.orders.map (ownedOrder s)).map fun o => (⟨o.id, o.orderRecipientId, o.updatedAt⟩ : OrderContact)) = _
    rw [List.map_map]
    rfl
  unfold Db.embeddedContacts Db.referencedContacts
  rw [husers, horders]
  exact congrArg₂ (Contacts.mk _ · · _) hidentities hrecipients

end

end MarketplaceApi.Migrations.Contact
