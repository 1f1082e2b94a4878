import MarketplaceApi.Migrations.ContactLoginDown

/-!
# Referring to phones and addresses again

`OrderOwnsUserAndContact.down` gives every recipient a phone and an address of its own. It needs
ids for them: it succeeds exactly if the two identity columns have enough left.
-/
namespace MarketplaceApi.Migrations.Contact

open Sql

/-- The ids that the rows to be inserted need are left. -/
def Room (s : State) : Prop :=
  (logins s).length + s.recipients.length < 2147483648 ∧
    (s.recipients ≠ [] → s.next .address + s.recipients.length ≤ 2147483648)

/-- The phone and the address that a recipient embeds, as they are inserted. -/
def recipientPhone (r : OrderRecipient) (id : Nat) : Phone :=
  ⟨id, r.phoneCountryCode, r.phoneRawNumber, r.phoneFullNumber, r.phoneNationalNumber, r.createdAt, r.createdAt, none,
    some r.id, none⟩

def recipientAddress (r : OrderRecipient) (id : Nat) : DeliveryAddress :=
  ⟨id, r.addressLine, r.addressCity, r.addressBuilding, r.createdAt, r.createdAt, none, some r.id⟩

section
variable (s : State)

def sortedContacts : List OrderRecipient :=
  (s.recipients.map (contactRow s)).insertionSort fun r r' => r.id ≤ r'.id

def bareLogins : List Phone := (loginPhonesLeft s).map fun p => { p with recipientId := none }

def bareAddresses : List DeliveryAddress := (keptAddresses s).map fun a => { a with recipientId := none }

def recipientPhoneRows : List Phone := Table.numbered (1 + (logins s).length) ((sortedContacts s).map recipientPhone)

def recipientAddressRows : List DeliveryAddress :=
  Table.numbered (s.next .address) ((sortedContacts s).map recipientAddress)

end

def addressesAt (now next : Nat) (columns : List String) (constraints : List (Constraint TableId DeliveryAddress))
    (rows : List DeliveryAddress) : Table TableId DeliveryAddress :=
  ⟨"DeliveryAddress", columns, constraints,
    [⟨"DeliveryAddress_setUpdatedAt", true, fun a => { a with updatedAt := now }⟩], next, rows⟩

def addressColumns : List String := ["id", "addressLine", "city", "building", "createdAt", "updatedAt", "deletedAt"]

def phoneRecipientId : Constraint TableId Phone :=
  ⟨"recipientId integer", ["recipientId"], .check fun p => integer p.recipientId⟩

def addressRecipientId : Constraint TableId DeliveryAddress :=
  ⟨"recipientId integer", ["recipientId"], .check fun a => integer a.recipientId⟩

section
variable {now : Nat} {plan : Plan} {s : State}

theorem mem_sortedContacts {r' : OrderRecipient} : r' ∈ sortedContacts s ↔ ∃ r ∈ s.recipients, r' = contactRow s r := by
  unfold sortedContacts
  rw [(List.perm_insertionSort _ _).mem_iff, List.mem_map]
  exact ⟨fun ⟨r, hr, h⟩ => ⟨r, hr, h.symm⟩, fun ⟨r, hr, h⟩ => ⟨r, hr, h.symm⟩⟩

theorem sortedContacts_length (s : State) : (sortedContacts s).length = s.recipients.length := by
  unfold sortedContacts
  rw [(List.perm_insertionSort _ _).length_eq, List.length_map]

theorem sortedContacts_ids (s : State) : ((sortedContacts s).map OrderRecipient.id).Nodup := by
  have hperm := (List.perm_insertionSort (fun r r' : OrderRecipient => r.id ≤ r'.id)
    (s.recipients.map (contactRow s))).map OrderRecipient.id
  unfold sortedContacts
  rw [hperm.nodup_iff, List.map_map]
  exact (facts s).recipientIds

/-- The rows made from a recipient have the fields of those it referred to. -/
theorem recipientPhone_number {r : OrderRecipient} (hr : r ∈ s.recipients) : ∃ buyer p a, Refers s r buyer p a ∧
    (∀ id, (recipientPhone (contactRow s r) id).number = p.number) ∧
    ∀ id, (recipientAddress (contactRow s r) id).place = a.place := by
  obtain ⟨buyer, p, a, hrefers, _, hrow⟩ := embedded_bare hr
  refine ⟨buyer, p, a, hrefers, fun id => ?_, fun id => ?_⟩
  · unfold contactRow
    rw [hrow]
    rfl
  · unfold contactRow
    rw [hrow]
    rfl

theorem bareLogins_ids (s : State) : (bareLogins s).map Phone.id = List.range' 1 (logins s).length := by
  have hids : (bareLogins s).map Phone.id = (loginPhonesLeft s).map Phone.id := by
    unfold bareLogins
    rw [List.map_map]
    rfl
  rw [hids, loginPhonesLeft_ids]
  unfold loginPhoneRows
  rw [Table.numbered_ids Phone.id _ (fun _ _ => rfl), sortedLogins_length]

theorem recipientPhoneRows_ids (s : State) :
    (recipientPhoneRows s).map Phone.id = List.range' (1 + (logins s).length) s.recipients.length := by
  unfold recipientPhoneRows
  rw [Table.numbered_ids Phone.id _ (fun _ _ => rfl), sortedContacts_length]

theorem recipientAddressRows_ids (s : State) :
    (recipientAddressRows s).map DeliveryAddress.id = List.range' (s.next .address) s.recipients.length := by
  unfold recipientAddressRows
  rw [Table.numbered_ids DeliveryAddress.id _ (fun _ _ => rfl), sortedContacts_length]

theorem phones_ids (s : State) : (bareLogins s ++ recipientPhoneRows s).map Phone.id =
    List.range' 1 ((logins s).length + s.recipients.length) := by
  rw [List.map_append, bareLogins_ids, recipientPhoneRows_ids, List.range'_append_1]

theorem addresses_ids (s : State) : ((bareAddresses s ++ recipientAddressRows s).map DeliveryAddress.id).Nodup := by
  rw [List.map_append, recipientAddressRows_ids, List.nodup_append]
  have hids : (bareAddresses s).map DeliveryAddress.id = (keptAddresses s).map DeliveryAddress.id := by
    unfold bareAddresses
    rw [List.map_map]
    rfl
  rw [hids]
  refine ⟨keptAddresses_ids s, List.nodup_range', ?_⟩
  rintro id hid _ hid' rfl
  obtain ⟨a, ha, rfl⟩ := List.mem_map.mp hid
  have hlt := s.addresses_next a (List.mem_of_mem_filter ha)
  rw [List.mem_range'_1] at hid'
  omega

theorem mem_bareLogins {p : Phone} (h : p ∈ bareLogins s) : ∃ q ∈ loginPhoneRows s,
    p = { q with identityId := none, recipientId := none } := by
  obtain ⟨p', hp', rfl⟩ := List.mem_map.mp h
  obtain ⟨q, hq, rfl⟩ := List.mem_map.mp hp'
  exact ⟨q, hq, rfl⟩

theorem mem_recipientPhoneRows {p : Phone} (h : p ∈ recipientPhoneRows s) : ∃ r ∈ s.recipients, ∃ id,
    p = recipientPhone (contactRow s r) id := by
  obtain ⟨r', hr', id, _, _, rfl⟩ := Table.mem_numbered h
  obtain ⟨r, hr, rfl⟩ := mem_sortedContacts.mp hr'
  exact ⟨r, hr, id, rfl⟩

theorem mem_recipientAddressRows {a : DeliveryAddress} (h : a ∈ recipientAddressRows s) : ∃ r ∈ s.recipients, ∃ id,
    a = recipientAddress (contactRow s r) id := by
  obtain ⟨r', hr', id, _, _, rfl⟩ := Table.mem_numbered h
  obtain ⟨r, hr, rfl⟩ := mem_sortedContacts.mp hr'
  exact ⟨r, hr, id, rfl⟩

theorem phones_fit (h : (logins s).length + s.recipients.length < 2147483648) :
    ∀ p ∈ bareLogins s ++ recipientPhoneRows s, uint p.id = true ∧ p.number.Fits ∧
      deletedAtOrder p.createdAt p.deletedAt = true := by
  intro p hp
  have hid : p.id ∈ List.range' 1 ((logins s).length + s.recipients.length) := by
    rw [← phones_ids]
    exact List.mem_map_of_mem hp
  have huint : uint p.id = true := by
    rw [List.mem_range'_1] at hid
    simp only [uint, Bool.and_eq_true, decide_eq_true_eq]
    omega
  refine ⟨huint, ?_⟩
  rcases List.mem_append.mp hp with hp | hp
  · obtain ⟨q, hq, rfl⟩ := mem_bareLogins hp
    exact (loginPhoneRows_fit q hq).2
  · obtain ⟨r, hr, id, rfl⟩ := mem_recipientPhoneRows hp
    obtain ⟨_, q, _, hrefers, hnumber, _⟩ := recipientPhone_number hr
    rw [hnumber]
    exact ⟨((facts s).numbers q hrefers.phone).2.1, rfl⟩

theorem addresses_fit (h : s.recipients ≠ [] → s.next .address + s.recipients.length ≤ 2147483648) :
    ∀ a ∈ bareAddresses s ++ recipientAddressRows s, uint a.id = true ∧ a.place.Fits ∧
      deletedAtOrder a.createdAt a.deletedAt = true := by
  intro a ha
  rcases List.mem_append.mp ha with ha | ha
  · obtain ⟨old, hold, rfl⟩ := List.mem_map.mp ha
    exact (facts s).places old (List.mem_of_mem_filter hold)
  · have hid : a.id ∈ List.range' (s.next .address) s.recipients.length := by
      rw [← recipientAddressRows_ids]
      exact List.mem_map_of_mem ha
    have huint : uint a.id = true := by
      rw [List.mem_range'_1] at hid
      have hpos := s.next_pos
      have hne : s.recipients ≠ [] := by
        intro hnil
        rw [hnil] at hid
        simp at hid
        omega
      have hroom := h hne
      simp only [uint, Bool.and_eq_true, decide_eq_true_eq]
      omega
    obtain ⟨r, hr, id, rfl⟩ := mem_recipientAddressRows ha
    obtain ⟨_, _, old, hrefers, _, hplace⟩ := recipientPhone_number hr
    refine ⟨huint, ?_, rfl⟩
    rw [hplace]
    exact ((facts s).places old hrefers.address).2.1

theorem recipientId_integer {r : OrderRecipient} (hr : r ∈ s.recipients) : integer (some r.id) = true := by
  have huint := (facts s).recipientUint r hr
  simp only [uint, Bool.and_eq_true] at huint
  exact huint.2

/-- The database with the columns for the references of phones and addresses to recipients. -/
def backDb (now : Nat) (s : State) (next : Nat) (rows : List Phone) : Db :=
  { restoredLoginDb now s with
    phones := some (phonesAt now next (phoneColumns ++ ["recipientId"]) (phoneConstraints ++ [phoneRecipientId]) rows)
    addresses := some (addressesAt now (s.next .address) (addressColumns ++ ["recipientId"])
      (addressConstraints ++ [addressRecipientId]) (bareAddresses s)) }

/-- The database once every recipient has a phone and an address. -/
def rebuiltDb (now : Nat) (s : State) : Db :=
  { backDb now s (1 + (logins s).length + s.recipients.length) (bareLogins s ++ recipientPhoneRows s) with
    addresses := some (addressesAt now (s.next .address + s.recipients.length) (addressColumns ++ ["recipientId"])
      (addressConstraints ++ [addressRecipientId]) (bareAddresses s ++ recipientAddressRows s)) }

theorem rebuild_columns : run (OrderOwnsUserAndContact.rebuild.take 2) (restoredLoginDb now s) =
    .ok (backDb now s (1 + (logins s).length) (bareLogins s)) := rfl

/-- The phones of the recipients go in if their ids are left. -/
theorem insertPhones_ok (h : (logins s).length + s.recipients.length < 2147483648) :
    (phonesAt now (1 + (logins s).length) (phoneColumns ++ ["recipientId"]) (phoneConstraints ++ [phoneRecipientId])
      (bareLogins s)).insert (backDb now s (1 + (logins s).length) (bareLogins s)).ids
      (recipientPhones (s.recipients.map (contactRow s))) =
    .ok (phonesAt now (1 + (logins s).length + s.recipients.length) (phoneColumns ++ ["recipientId"])
      (phoneConstraints ++ [phoneRecipientId]) (bareLogins s ++ recipientPhoneRows s)) := by
  rw [Table.insert_ok]
  · have hlength : (recipientPhones (s.recipients.map (contactRow s))).length = s.recipients.length := by
      rw [← sortedContacts_length]
      exact List.length_map ..
    rw [hlength]
    rfl
  · intro c hc
    show c.rule.Holds _ (bareLogins s ++ recipientPhoneRows s)
    rcases List.mem_append.mp hc with hc | hc
    · refine phones_hold.mpr ⟨?_, phones_fit h⟩ c hc
      rw [phones_ids]
      exact List.nodup_range'
    · obtain rfl := List.mem_singleton.mp hc
      intro p hp
      rcases List.mem_append.mp hp with hp | hp
      · obtain ⟨q, _, rfl⟩ := mem_bareLogins hp
        rfl
      · obtain ⟨r, hr, id, rfl⟩ := mem_recipientPhoneRows hp
        have hinteger := recipientId_integer hr
        exact hinteger

/-- They do not if the ids run out. -/
theorem insertPhones_error (now : Nat) (h : ¬ (logins s).length + s.recipients.length < 2147483648) :
    ∃ e, (phonesAt now (1 + (logins s).length) (phoneColumns ++ ["recipientId"])
      (phoneConstraints ++ [phoneRecipientId]) (bareLogins s)).insert
      (backDb now s (1 + (logins s).length) (bareLogins s)).ids
      (recipientPhones (s.recipients.map (contactRow s))) = .error e := by
  cases hinsert : (phonesAt now (1 + (logins s).length) (phoneColumns ++ ["recipientId"])
      (phoneConstraints ++ [phoneRecipientId]) (bareLogins s)).insert
      (backDb now s (1 + (logins s).length) (bareLogins s)).ids (recipientPhones (s.recipients.map (contactRow s))) with
  | error e => exact ⟨e, rfl⟩
  | ok t =>
    exfalso
    have hvalid : (phonesAt now (1 + (logins s).length) (phoneColumns ++ ["recipientId"])
        (phoneConstraints ++ [phoneRecipientId]) (bareLogins s)).Valid
        (backDb now s (1 + (logins s).length) (bareLogins s)).ids := by
      intro c hc
      rcases List.mem_append.mp hc with hc | hc
      · refine phones_hold.mpr ⟨?_, fun p hp => ?_⟩ c hc
        · show ((bareLogins s).map Phone.id).Nodup
          rw [bareLogins_ids]
          exact List.nodup_range'
        · obtain ⟨q, hq, rfl⟩ := mem_bareLogins hp
          exact loginPhoneRows_fit q hq
      · obtain rfl := List.mem_singleton.mp hc
        intro p hp
        obtain ⟨q, _, rfl⟩ := mem_bareLogins hp
        rfl
    have hholds := Table.insert_valid hvalid hinsert
    have hfit := (phones_hold.mp fun c hc => hholds c (List.mem_append_left _ hc)).2
    have hcount := logins_length s
    have hlast : (logins s).length + s.recipients.length ∈ (bareLogins s ++ recipientPhoneRows s).map Phone.id := by
      rw [phones_ids, List.mem_range'_1]
      omega
    obtain ⟨p, hp, hid⟩ := List.mem_map.mp hlast
    have huint := (hfit p hp).1
    rw [hid] at huint
    simp only [uint, Bool.and_eq_true, decide_eq_true_eq] at huint
    omega

/-- The database while the addresses go in. -/
def phonesBack (now : Nat) (s : State) : Db :=
  backDb now s (1 + (logins s).length + s.recipients.length) (bareLogins s ++ recipientPhoneRows s)

theorem insertAddresses_ok (h : s.recipients ≠ [] → s.next .address + s.recipients.length ≤ 2147483648) :
    (addressesAt now (s.next .address) (addressColumns ++ ["recipientId"]) (addressConstraints ++ [addressRecipientId])
      (bareAddresses s)).insert (phonesBack now s).ids (recipientAddresses (s.recipients.map (contactRow s))) =
    .ok (addressesAt now (s.next .address + s.recipients.length) (addressColumns ++ ["recipientId"])
      (addressConstraints ++ [addressRecipientId]) (bareAddresses s ++ recipientAddressRows s)) := by
  rw [Table.insert_ok]
  · have hlength : (recipientAddresses (s.recipients.map (contactRow s))).length = s.recipients.length := by
      rw [← sortedContacts_length]
      exact List.length_map ..
    rw [hlength]
    rfl
  · intro c hc
    show c.rule.Holds _ (bareAddresses s ++ recipientAddressRows s)
    rcases List.mem_append.mp hc with hc | hc
    · exact addresses_hold.mpr ⟨addresses_ids s, addresses_fit h⟩ c hc
    · obtain rfl := List.mem_singleton.mp hc
      intro a ha
      rcases List.mem_append.mp ha with ha | ha
      · obtain ⟨old, _, rfl⟩ := List.mem_map.mp ha
        rfl
      · obtain ⟨r, hr, id, rfl⟩ := mem_recipientAddressRows ha
        have hinteger := recipientId_integer hr
        exact hinteger

theorem insertAddresses_error (now : Nat)
    (h : ¬ (s.recipients ≠ [] → s.next .address + s.recipients.length ≤ 2147483648)) :
    ∃ e, (addressesAt now (s.next .address) (addressColumns ++ ["recipientId"])
      (addressConstraints ++ [addressRecipientId]) (bareAddresses s)).insert (phonesBack now s).ids
      (recipientAddresses (s.recipients.map (contactRow s))) = .error e := by
  cases hinsert : (addressesAt now (s.next .address) (addressColumns ++ ["recipientId"])
      (addressConstraints ++ [addressRecipientId]) (bareAddresses s)).insert (phonesBack now s).ids
      (recipientAddresses (s.recipients.map (contactRow s))) with
  | error e => exact ⟨e, rfl⟩
  | ok t =>
    exfalso
    have hold : ∀ a ∈ bareAddresses s, uint a.id = true ∧ a.place.Fits ∧
        deletedAtOrder a.createdAt a.deletedAt = true := by
      intro a ha
      obtain ⟨old, hin, rfl⟩ := List.mem_map.mp ha
      exact (facts s).places old (List.mem_of_mem_filter hin)
    have hids : ((bareAddresses s).map DeliveryAddress.id).Nodup := by
      have hboth := addresses_ids s
      rw [List.map_append] at hboth
      exact hboth.of_append_left
    have hvalid : (addressesAt now (s.next .address) (addressColumns ++ ["recipientId"])
        (addressConstraints ++ [addressRecipientId]) (bareAddresses s)).Valid (phonesBack now s).ids := by
      intro c hc
      rcases List.mem_append.mp hc with hc | hc
      · exact addresses_hold.mpr ⟨hids, hold⟩ c hc
      · obtain rfl := List.mem_singleton.mp hc
        intro a ha
        obtain ⟨old, _, rfl⟩ := List.mem_map.mp ha
        rfl
    have hholds := Table.insert_valid hvalid hinsert
    have hfit := (addresses_hold.mp fun c hc => hholds c (List.mem_append_left _ hc)).2
    push Not at h
    have hpos : 0 < s.recipients.length := List.length_pos_iff.mpr h.1
    have hlast : s.next .address + s.recipients.length - 1 ∈ (recipientAddressRows s).map DeliveryAddress.id := by
      rw [recipientAddressRows_ids, List.mem_range'_1]
      omega
    obtain ⟨a, ha, hid⟩ := List.mem_map.mp hlast
    have huint := (hfit a (List.mem_append_right _ ha)).1
    rw [hid] at huint
    simp only [uint, Bool.and_eq_true, decide_eq_true_eq] at huint
    omega

theorem rebuild_phones (h : (logins s).length + s.recipients.length < 2147483648) :
    phones.alter "Phone" (fun db => Table.insert db.ids (recipientPhones (rowsOf db.recipients)))
      (backDb now s (1 + (logins s).length) (bareLogins s)) = .ok (phonesBack now s) :=
  alter_ok rfl rfl (insertPhones_ok h)

theorem rebuild_ok (h : Room s) :
    run OrderOwnsUserAndContact.rebuild (restoredLoginDb now s) = .ok (rebuiltDb now s) := by
  have haddresses : addresses.alter "DeliveryAddress" (fun db => Table.insert db.ids
      (recipientAddresses (rowsOf db.recipients))) (phonesBack now s) = .ok (rebuiltDb now s) :=
    alter_ok rfl rfl (insertAddresses_ok h.2)
  exact (run_append_ok rebuild_columns).trans ((run_cons_ok (rebuild_phones h.1)).trans ((run_cons_ok haddresses).trans
    (run_nil _)))

theorem rebuild_error (now : Nat) (h : ¬ Room s) :
    ∃ e, run OrderOwnsUserAndContact.rebuild (restoredLoginDb now s) = .error e := by
  by_cases hphones : (logins s).length + s.recipients.length < 2147483648
  · have hno : ¬ (s.recipients ≠ [] → s.next .address + s.recipients.length ≤ 2147483648) := fun hroom =>
      h ⟨hphones, hroom⟩
    obtain ⟨e, he⟩ := insertAddresses_error now hno
    have haddresses : addresses.alter "DeliveryAddress" (fun db => Table.insert db.ids
        (recipientAddresses (rowsOf db.recipients))) (phonesBack now s) = .error e := alter_error rfl rfl he
    exact ⟨e, (run_append_ok rebuild_columns).trans ((run_cons_ok (rebuild_phones hphones)).trans
      (run_cons_error haddresses))⟩
  · obtain ⟨e, he⟩ := insertPhones_error now hphones
    have halter : phones.alter "Phone" (fun db => Table.insert db.ids (recipientPhones (rowsOf db.recipients)))
        (backDb now s (1 + (logins s).length) (bareLogins s)) = .error e := alter_error rfl rfl he
    exact ⟨e, (run_append_ok rebuild_columns).trans (run_cons_error halter)⟩

end

end MarketplaceApi.Migrations.Contact
