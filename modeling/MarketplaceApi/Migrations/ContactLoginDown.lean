import MarketplaceApi.Migrations.ContactLogin

/-!
# Referring to the login phones again

`IdentityOwnsLoginPhone.down` succeeds after both `up` migrations. Every identity that had a phone
refers to a row of its own, which is numbered afresh and has the same fields.
-/
namespace MarketplaceApi.Migrations.Contact

open Sql

/-- A phone that an identity embeds, as it is inserted. -/
def loginPhone (i : Identity) (id : Nat) : Phone :=
  ⟨id, i.loginPhoneCountryCode, i.loginPhoneRawNumber, i.loginPhoneFullNumber, i.loginPhoneNationalNumber, i.createdAt,
    i.createdAt, none, none, some i.id⟩

section
variable (s : State)

/-- The phones that identities refer to. -/
def logins : List Nat := s.identities.filterMap Identity.phoneId

def sortedLogins : List Identity :=
  ((s.identities.map (loginRow s)).filter fun i => i.loginPhoneFullNumber.isSome).insertionSort
    fun i i' => i.id ≤ i'.id

def loginPhoneRows : List Phone := Table.numbered 1 ((sortedLogins s).map loginPhone)

/-- The rows once their references to identities are gone. -/
def loginPhonesLeft : List Phone := (loginPhoneRows s).map fun p => { p with identityId := none }

def newPhoneId (i : Identity) : Option Nat :=
  ((loginPhoneRows s).find? fun p => p.identityId = some i.id).map Phone.id

/-- An identity that embeds its phone and refers to it. -/
def relinkedRow (i : Identity) : Identity := { loginRow s i with phoneId := newPhoneId s i }

/-- An identity after both directions. -/
def restoredIdentity (i : Identity) : Identity :=
  ⟨i.id, i.email, newPhoneId s i, i.createdAt, i.updatedAt, none, none, none, none⟩

end

def phoneColumns : List String :=
  ["id", "countryCode", "rawNumber", "fullNumber", "nationalNumber", "createdAt", "updatedAt", "deletedAt"]

def phonesAt (now next : Nat) (columns : List String) (constraints : List (Constraint TableId Phone))
    (rows : List Phone) : Table TableId Phone :=
  ⟨"Phone", columns, constraints, [⟨"Phone_setUpdatedAt", true, fun p => { p with updatedAt := now }⟩], next, rows⟩

def identityIdInteger : Constraint TableId Phone :=
  ⟨"identityId integer", ["identityId"], .check fun p => integer p.identityId⟩

def phoneIdUint : Constraint TableId Identity := ⟨"phoneId uint", ["phoneId"], .check fun i => i.phoneId.all uint⟩

def phoneIdKey : Constraint TableId Identity :=
  ⟨"Identity_phoneId_key", ["phoneId"], .unique fun i i' => equal i.phoneId i'.phoneId⟩

def phoneIdFkey : Constraint TableId Identity :=
  ⟨"Identity_phoneId_fkey", ["phoneId"], .references .phone Identity.phoneId⟩

def phonePresent : Constraint TableId Identity :=
  ⟨"Identity_login_present", ["email", "phoneId"], .check fun i => i.email.isSome || i.phoneId.isSome⟩

section
variable {now : Nat} {plan : Plan} {s : State}

theorem loginRow_full {i : Identity} (hi : i ∈ s.identities) :
    (loginRow s i).loginPhoneFullNumber.isSome = i.phoneId.isSome := by
  unfold loginRow
  cases hid : i.phoneId with
  | none =>
    rw [login_none hid]
    rfl
  | some id =>
    obtain ⟨p, hp, _, _, hrow⟩ := login_some hi hid
    rw [hrow]
    exact ((facts s).numbers p hp).2.1.fullNumber

theorem mem_sortedLogins {i' : Identity} : i' ∈ sortedLogins s ↔
    ∃ i ∈ s.identities, i.phoneId.isSome = true ∧ i' = loginRow s i := by
  unfold sortedLogins
  rw [(List.perm_insertionSort _ _).mem_iff, List.mem_filter, List.mem_map]
  constructor
  · rintro ⟨⟨i, hi, rfl⟩, hfull⟩
    rw [loginRow_full hi] at hfull
    exact ⟨i, hi, hfull, rfl⟩
  · rintro ⟨i, hi, hsome, rfl⟩
    rw [loginRow_full hi]
    exact ⟨⟨i, hi, rfl⟩, hsome⟩

theorem sortedLogins_length (s : State) : (sortedLogins s).length = (logins s).length := by
  unfold sortedLogins logins
  rw [(List.perm_insertionSort _ _).length_eq, List.filter_map, List.length_map, List.length_filterMap_eq_countP,
    List.countP_eq_length_filter]
  congr 1
  apply List.filter_congr
  intro i hi
  exact loginRow_full hi

theorem sortedLogins_ids (s : State) : ((sortedLogins s).map Identity.id).Nodup := by
  have hperm := (List.perm_insertionSort (fun i i' : Identity => i.id ≤ i'.id)
    ((s.identities.map (loginRow s)).filter fun i => i.loginPhoneFullNumber.isSome)).map Identity.id
  unfold sortedLogins
  rw [hperm.nodup_iff]
  have hids : ((s.identities.map (loginRow s)).map Identity.id).Nodup := by
    rw [List.map_map]
    exact (facts s).identityIds
  exact hids.sublist (List.filter_sublist.map _)

/-- No two identities refer to one phone, so there are no more than there can be phones. -/
theorem logins_length (s : State) : (logins s).length < 2147483648 := by
  apply length_lt_of_uint
  · unfold logins
    rw [List.Nodup, List.pairwise_filterMap]
    apply (facts s).loginApart.imp
    rintro i i' happart id hid _ hid' rfl
    rw [hid, hid'] at happart
    simp [equal] at happart
  · intro id hid
    obtain ⟨i, hi, hphone⟩ := List.mem_filterMap.mp hid
    obtain ⟨p, hp, rfl⟩ := (facts s).loginPhone i hi id hphone
    exact ((facts s).numbers p hp).1

theorem mem_loginPhoneRows {p : Phone} (h : p ∈ loginPhoneRows s) : ∃ i ∈ s.identities, i.phoneId.isSome = true ∧
    ∃ id, 1 ≤ id ∧ id < 1 + (logins s).length ∧ p = loginPhone (loginRow s i) id := by
  obtain ⟨i', hi', id, hle, hlt, rfl⟩ := Table.mem_numbered h
  obtain ⟨i, hi, hsome, rfl⟩ := mem_sortedLogins.mp hi'
  rw [sortedLogins_length] at hlt
  exact ⟨i, hi, hsome, id, hle, hlt, rfl⟩

theorem loginPhoneRows_ids (s : State) : ((loginPhoneRows s).map Phone.id).Nodup := by
  unfold loginPhoneRows
  rw [Table.numbered_ids Phone.id _ (fun _ _ => rfl)]
  exact List.nodup_range'

/-- The fields that an identity embeds, which are those of the phone it referred to. -/
theorem loginPhone_number {i : Identity} (hi : i ∈ s.identities) {id : Nat} (hid : i.phoneId = some id) :
    ∃ p ∈ s.phones, p.id = id ∧ ∀ n, (loginPhone (loginRow s i) n).number = p.number := by
  obtain ⟨p, hp, hpid, _, hrow⟩ := login_some hi hid
  refine ⟨p, hp, hpid, fun n => ?_⟩
  unfold loginRow
  rw [hrow]
  rfl

theorem loginPhoneRows_fit : ∀ p ∈ loginPhoneRows s, uint p.id = true ∧ p.number.Fits ∧
    deletedAtOrder p.createdAt p.deletedAt = true := by
  intro p hp
  obtain ⟨i, hi, hsome, id, hle, hlt, rfl⟩ := mem_loginPhoneRows hp
  obtain ⟨phoneId, hphone⟩ := Option.isSome_iff_exists.mp hsome
  obtain ⟨q, hq, _, hnumber⟩ := loginPhone_number hi hphone
  have hcount := logins_length s
  rw [hnumber]
  refine ⟨?_, ((facts s).numbers q hq).2.1, rfl⟩
  show uint id = true
  simp only [uint, Bool.and_eq_true, decide_eq_true_eq]
  omega

/-- The database once the login phones are rows again. -/
def phonedDb (now : Nat) (s : State) : Db :=
  { loginDb now s with
    phones := some (phonesAt now (1 + (logins s).length) (phoneColumns ++ ["identityId"])
      (phoneConstraints ++ [identityIdInteger]) (loginPhoneRows s)) }

theorem createPhone_ok : run (IdentityOwnsLoginPhone.createPhone now) (loginDb now s) = .ok (phonedDb now s) := by
  have hddl : run ((IdentityOwnsLoginPhone.createPhone now).take 3) (loginDb now s) = .ok { loginDb now s with
      phones := some (phonesAt now 1 (phoneColumns ++ ["identityId"]) (phoneConstraints ++ [identityIdInteger]) []) } :=
    rfl
  have hrows : ([] : List Phone) ++ Table.numbered 1 (loginPhones (s.identities.map (loginRow s))) = loginPhoneRows s :=
    rfl
  have hinsert : (phonesAt now 1 (phoneColumns ++ ["identityId"]) (phoneConstraints ++ [identityIdInteger]) []).insert
      (Db.ids { loginDb now s with phones := some (phonesAt now 1 (phoneColumns ++ ["identityId"])
        (phoneConstraints ++ [identityIdInteger]) []) }) (loginPhones (s.identities.map (loginRow s))) =
      .ok (phonesAt now (1 + (logins s).length) (phoneColumns ++ ["identityId"])
        (phoneConstraints ++ [identityIdInteger]) (loginPhoneRows s)) := by
    rw [Table.insert_ok]
    · have hlength : (loginPhones (s.identities.map (loginRow s))).length = (logins s).length := by
        rw [← sortedLogins_length]
        exact List.length_map ..
      rw [hlength]
      rfl
    · intro c hc
      show c.rule.Holds _ (([] : List Phone) ++ Table.numbered 1 (loginPhones (s.identities.map (loginRow s))))
      rw [hrows]
      rcases List.mem_append.mp hc with hc | hc
      · exact phones_hold.mpr ⟨loginPhoneRows_ids s, loginPhoneRows_fit⟩ c hc
      · obtain rfl := List.mem_singleton.mp hc
        intro p hp
        obtain ⟨i, hi, _, id, _, _, rfl⟩ := mem_loginPhoneRows hp
        have huint := (facts s).identityUint i hi
        simp only [uint, Bool.and_eq_true] at huint
        exact huint.2
  have halter : phones.alter "Phone" (fun db => Table.insert db.ids (loginPhones (rowsOf db.identities)))
      { loginDb now s with phones := some (phonesAt now 1 (phoneColumns ++ ["identityId"])
        (phoneConstraints ++ [identityIdInteger]) []) } = .ok (phonedDb now s) := alter_ok rfl rfl hinsert
  exact (run_append_ok hddl).trans ((run_cons_ok halter).trans (run_nil _))

/-- An identity that had a phone finds its own row. -/
theorem loginPhone_found {i : Identity} (hi : i ∈ s.identities) (hsome : i.phoneId.isSome = true) :
    ∃ id, loginPhone (loginRow s i) id ∈ loginPhoneRows s ∧
      ((loginPhoneRows s).find? fun p => p.identityId = some i.id) = some (loginPhone (loginRow s i) id) := by
  have hnone : ∀ p ∈ ([] : List Phone), p.identityId = none := List.forall_mem_nil _
  exact Table.numbered_found loginPhone Phone.identityId Identity.id (fun _ _ => rfl) (sortedLogins_ids s) hnone
    (mem_sortedLogins.mpr ⟨i, hi, hsome, rfl⟩) 1

/-- An identity that had none finds none. -/
theorem newPhoneId_none {i : Identity} (hi : i ∈ s.identities) (hnone : i.phoneId = none) : newPhoneId s i = none := by
  unfold newPhoneId
  rw [Option.map_eq_none_iff, List.find?_eq_none]
  intro p hp h
  obtain ⟨i', hi', hsome, id, _, _, rfl⟩ := mem_loginPhoneRows hp
  have heq : some i'.id = some i.id := of_decide_eq_true h
  obtain rfl := List.inj_on_of_nodup_map (facts s).identityIds hi' hi (Option.some.inj heq)
  rw [hnone] at hsome
  cases hsome

theorem newPhoneId_some {i : Identity} (hi : i ∈ s.identities) {id : Nat} (h : newPhoneId s i = some id) :
    loginPhone (loginRow s i) id ∈ loginPhoneRows s ∧ i.phoneId.isSome = true := by
  cases hphone : i.phoneId with
  | none =>
    rw [newPhoneId_none hi hphone] at h
    cases h
  | some old =>
    obtain ⟨id', hin, hfound⟩ := loginPhone_found hi (by rw [hphone]; rfl)
    unfold newPhoneId at h
    rw [hfound] at h
    obtain rfl := Option.some.inj h
    exact ⟨hin, rfl⟩

theorem newPhoneId_isSome {i : Identity} (hi : i ∈ s.identities) : (newPhoneId s i).isSome = i.phoneId.isSome := by
  cases hphone : i.phoneId with
  | none =>
    rw [newPhoneId_none hi hphone]
  | some old =>
    obtain ⟨id, _, hfound⟩ := loginPhone_found hi (by rw [hphone]; rfl)
    unfold newPhoneId
    rw [hfound]
    rfl

theorem loginReferenced_row {i : Identity} :
    (loginReferenced (loginPhoneRows s) (loginRow s i)).elim (loginRow s i) id = relinkedRow s i := by
  show (((loginPhoneRows s).find? fun p => p.identityId = some i.id).map fun p =>
    { loginRow s i with phoneId := some p.id }).elim (loginRow s i) id = _
  unfold relinkedRow newPhoneId
  cases (loginPhoneRows s).find? fun p => p.identityId = some i.id with
  | none => rfl
  | some p => rfl

def clearPhoneId (i : Identity) : Identity := { i with phoneId := none }

theorem loginReferenced_clear {phones : List Phone} {i i' : Identity} (h : loginReferenced phones i = some i') :
    clearPhoneId i' = clearPhoneId i := by
  obtain ⟨p, _, rfl⟩ := Option.map_eq_some_iff.mp h
  rfl

/-- A constraint that does not mention the phone sees no difference in what is done to it. -/
theorem ignores_plain {f : Identity → Identity} (hid : ∀ i, (f i).id = i.id) (hemail : ∀ i, (f i).email = i.email) :
    ∀ c ∈ identityConstraints, "phoneId" ∉ c.columns →
      c.rule.Ignores f ∧ ∀ target column, c.rule ≠ .references target column := by
  have hphone : ∀ columns : List String, "phoneId" ∈ columns → ∀ p : Prop, "phoneId" ∉ columns → p :=
    fun _ hin _ hnot => absurd hin hnot
  unfold identityConstraints
  simp only [List.forall_mem_cons, Rule.Ignores, hid, hemail]
  exact ⟨fun _ => ⟨fun _ => trivial, Rule.not_of_check _⟩, hphone _ (by decide) _,
    fun _ => ⟨⟨fun _ _ => equal_comm _ _, fun _ _ => trivial⟩, Rule.not_of_unique _⟩, hphone _ (by decide) _,
    hphone _ (by decide) _, fun _ => ⟨fun _ => trivial, Rule.not_of_check _⟩,
    fun _ => ⟨⟨fun a b => decide_eq_decide.mpr eq_comm, fun _ _ => trivial⟩, Rule.not_of_unique _⟩,
    hphone _ (by decide) _, List.forall_mem_nil _⟩

theorem mem_plainConstraints {c : Constraint TableId Identity} (hc : c ∈ plainConstraints) :
    c ∈ identityConstraints ∧ "phoneId" ∉ c.columns := by
  obtain ⟨hin, hcolumn⟩ := List.mem_filter.mp hc
  exact ⟨hin, of_decide_eq_true hcolumn⟩

theorem ignores_login : ∀ c ∈ loginConstraints, c.rule.Ignores clearPhoneId := by
  intro c hc
  unfold loginConstraints at hc
  rw [List.append_assoc, List.append_assoc] at hc
  rcases List.mem_append.mp hc with hc | hc
  · obtain ⟨hin, hcolumn⟩ := mem_plainConstraints hc
    exact (ignores_plain (f := clearPhoneId) (fun _ => rfl) (fun _ => rfl) c hin hcolumn).1
  · have hchecks : ∀ c ∈ loginTypes ++ (loginChecks ++ [loginPresent]), c.rule.Ignores clearPhoneId := by
      unfold loginTypes loginChecks loginPresent
      simp only [List.forall_mem_append, List.forall_mem_cons, Rule.Ignores]
      exact ⟨⟨fun _ => trivial, fun _ => rfl, fun _ => rfl, fun _ => rfl, List.forall_mem_nil _⟩,
        ⟨fun _ => rfl, fun _ => rfl, List.forall_mem_nil _⟩, fun _ => rfl, List.forall_mem_nil _⟩
    exact hchecks c hc

/-- The rows that embed their phones satisfy the constraints of the new schema. -/
theorem login_hold (s : State) (ids : TableId → List Nat) :
    ∀ c ∈ loginConstraints, c.rule.Holds ids (s.identities.map (loginRow s)) := by
  intro c hc
  unfold loginConstraints at hc
  rw [List.append_assoc, List.append_assoc] at hc
  rcases List.mem_append.mp hc with hc | hc
  · obtain ⟨hin, hcolumn⟩ := mem_plainConstraints hc
    obtain ⟨hignores, hother⟩ := ignores_plain (f := loginRow s) (fun _ => rfl) (fun _ => rfl) c hin hcolumn
    apply hignores.holds_map
    apply (s.identities_valid 0 c hin).congr
    intro target column hrule
    exact absurd hrule (hother target column)
  · rw [← List.append_assoc] at hc
    obtain ⟨holds, hrule, hfits⟩ := login_fits (s := s) c hc
    rw [hrule]
    intro i' hi'
    obtain ⟨i, hi, rfl⟩ := List.mem_map.mp hi'
    exact (hfits i hi).2

/-- The database while the identities refer to their phones again. -/
def relinking (now : Nat) (s : State) (enabled : Bool) (constraints : List (Constraint TableId Identity))
    (rows : List Identity) : Db :=
  { phonedDb now s with
    identities := some (identitiesAt now s enabled (loginColumns ++ ["phoneId"]) constraints rows) }

theorem relinking_ok : (identitiesAt now s false (loginColumns ++ ["phoneId"]) (loginConstraints ++ [phoneIdUint])
      (s.identities.map (loginRow s))).update
      (relinking now s false (loginConstraints ++ [phoneIdUint]) (s.identities.map (loginRow s))).ids Identity.id
      (loginReferenced (loginPhoneRows s)) (plan.identities ((s.identities.map (loginRow s)).map Identity.id)) =
    .ok (identitiesAt now s false (loginColumns ++ ["phoneId"]) (loginConstraints ++ [phoneIdUint])
      (s.identities.map (relinkedRow s))) := by
  have hrows : ((s.identities.map (loginRow s)).map fun i => (loginReferenced (loginPhoneRows s) i).elim i id) =
      s.identities.map (relinkedRow s) := by
    rw [List.map_map]
    apply List.map_congr_left
    intro i _
    exact loginReferenced_row
  rw [← hrows]
  apply Table.update_changing (f := clearPhoneId) (plan.identities_perm _) _ (fun _ => rfl)
    (fun i i' h => loginReferenced_clear h)
  · intro c hc
    rcases List.mem_append.mp hc with hc | hc
    · exact Or.inl ⟨ignores_login c hc, login_hold s _ c hc⟩
    · obtain rfl := List.mem_singleton.mp hc
      refine Or.inr ⟨_, rfl, fun i _ i' h => ?_⟩
      obtain ⟨p, hfound, rfl⟩ := Option.map_eq_some_iff.mp h
      exact (loginPhoneRows_fit p (List.mem_of_find?_eq_some hfound)).1
  · show ((s.identities.map (loginRow s)).map Identity.id).Nodup
    rw [List.map_map]
    exact (facts s).identityIds

/-- The database once the identities refer to their phones and these no longer refer back. -/
def relinked (now : Nat) (s : State) (constraints : List (Constraint TableId Identity)) : Db :=
  { relinking now s true constraints (s.identities.map (relinkedRow s)) with
    phones := some (phonesAt now (1 + (logins s).length) phoneColumns phoneConstraints (loginPhonesLeft s)) }

theorem loginPhonesLeft_ids (s : State) : (loginPhonesLeft s).map Phone.id = (loginPhoneRows s).map Phone.id := by
  unfold loginPhonesLeft
  rw [List.map_map]
  rfl

theorem phoneIdKey_holds (ids : TableId → List Nat) : phoneIdKey.rule.Holds ids (s.identities.map (relinkedRow s)) := by
  show (s.identities.map (relinkedRow s)).Pairwise _
  have hnodup := (facts s).identityIds
  rw [List.Nodup, List.pairwise_map] at hnodup
  rw [List.pairwise_map]
  apply hnodup.imp_of_mem
  intro i i' hi hi' hne
  show equal (newPhoneId s i) (newPhoneId s i') = false
  cases hid : newPhoneId s i with
  | none => rfl
  | some id =>
    cases hid' : newPhoneId s i' with
    | none => rfl
    | some id' =>
      apply equal_some
      rintro rfl
      have hin := (newPhoneId_some hi hid).1
      have hin' := (newPhoneId_some hi' hid').1
      have hsame := List.inj_on_of_nodup_map (loginPhoneRows_ids s) hin hin' rfl
      have hback : some i.id = some i'.id := congrArg Phone.identityId hsame
      exact hne (Option.some.inj hback)

theorem phoneIdFkey_holds (ids : TableId → List Nat) (h : ids .phone = (loginPhonesLeft s).map Phone.id) :
    phoneIdFkey.rule.Holds ids (s.identities.map (relinkedRow s)) := by
  intro i' hi'
  obtain ⟨i, hi, rfl⟩ := List.mem_map.mp hi'
  show ((newPhoneId s i).all fun id => decide (id ∈ ids .phone)) = true
  cases hid : newPhoneId s i with
  | none => rfl
  | some id =>
    rw [h, loginPhonesLeft_ids]
    exact decide_eq_true (List.mem_map_of_mem (newPhoneId_some hi hid).1)

theorem phonePresent_holds (ids : TableId → List Nat) :
    phonePresent.rule.Holds ids (s.identities.map (relinkedRow s)) := by
  intro i' hi'
  obtain ⟨i, hi, rfl⟩ := List.mem_map.mp hi'
  show (i.email.isSome || (newPhoneId s i).isSome) = true
  rw [newPhoneId_isSome hi]
  exact (facts s).login i hi

def restoredConstraints : List (Constraint TableId Identity) :=
  plainConstraints ++ [phoneIdUint] ++ [phoneIdKey] ++ [phoneIdFkey] ++ [phonePresent]

/-- The constraints on identities between the two checks on their login. -/
def unpresentConstraints : List (Constraint TableId Identity) :=
  plainConstraints ++ loginTypes ++ loginChecks ++ [phoneIdUint] ++ [phoneIdKey] ++ [phoneIdFkey]

/-- The database after the second migration has been reverted. -/
def restoredLoginDb (now : Nat) (s : State) : Db :=
  { loginDb now s with
    phones := some (phonesAt now (1 + (logins s).length) phoneColumns phoneConstraints (loginPhonesLeft s))
    identities := some (identitiesAt now s true ["id", "email", "createdAt", "updatedAt", "phoneId"] restoredConstraints
      (s.identities.map (restoredIdentity s))) }

theorem relink_ok : run (IdentityOwnsLoginPhone.reference plan) (phonedDb now s) =
    .ok (relinked now s (unpresentConstraints ++ [phonePresent])) := by
  have hrow : ((s.identities.map (loginRow s)).map fun i => { i with phoneId := none }) =
      s.identities.map (loginRow s) := by
    rw [List.map_map]
    rfl
  have hcolumn : run ((IdentityOwnsLoginPhone.reference plan).take 2) (phonedDb now s) =
      .ok (relinking now s false (loginConstraints ++ [phoneIdUint]) (s.identities.map (loginRow s))) := by
    rw [← hrow]
    rfl
  have hupdate : identities.alter "Identity" (fun db => Table.update db.ids Identity.id
      (loginReferenced (rowsOf db.phones)) (plan.identities ((rowsOf db.identities).map Identity.id)))
      (relinking now s false (loginConstraints ++ [phoneIdUint]) (s.identities.map (loginRow s))) =
      .ok (relinking now s false (loginConstraints ++ [phoneIdUint]) (s.identities.map (relinkedRow s))) :=
    alter_ok rfl rfl relinking_ok
  have henable : run (((IdentityOwnsLoginPhone.reference plan).drop 3).take 2)
      (relinking now s false (loginConstraints ++ [phoneIdUint]) (s.identities.map (relinkedRow s))) =
      .ok (relinked now s (loginConstraints ++ [phoneIdUint])) := rfl
  have hkey : identities.alter "Identity" (fun db => Table.addConstraint db.ids phoneIdKey)
      (relinked now s (loginConstraints ++ [phoneIdUint])) =
      .ok (relinked now s (loginConstraints ++ [phoneIdUint] ++ [phoneIdKey])) :=
    alter_ok rfl rfl (addConstraint_ok rfl (phoneIdKey_holds _))
  have hfkey : identities.alter "Identity" (fun db => Table.addConstraint db.ids phoneIdFkey)
      (relinked now s (loginConstraints ++ [phoneIdUint] ++ [phoneIdKey])) =
      .ok (relinked now s (loginConstraints ++ [phoneIdUint] ++ [phoneIdKey] ++ [phoneIdFkey])) :=
    alter_ok rfl rfl (addConstraint_ok rfl (phoneIdFkey_holds _ rfl))
  have hdrop : identities.alter "Identity" (fun _ => Table.dropConstraint "Identity_login_present")
      (relinked now s (loginConstraints ++ [phoneIdUint] ++ [phoneIdKey] ++ [phoneIdFkey])) =
      .ok (relinked now s unpresentConstraints) := rfl
  have hadd : identities.alter "Identity" (fun db => Table.addConstraint db.ids phonePresent)
      (relinked now s unpresentConstraints) = .ok (relinked now s (unpresentConstraints ++ [phonePresent])) :=
    alter_ok rfl rfl (addConstraint_ok rfl (phonePresent_holds _))
  have hrest := (run_cons_ok hkey).trans ((run_cons_ok hfkey).trans ((run_cons_ok hdrop).trans ((run_cons_ok hadd).trans
    (run_nil _))))
  exact (run_append_ok hcolumn).trans ((run_cons_ok hupdate).trans ((run_append_ok henable).trans hrest))

theorem dropLogin_ok : run IdentityOwnsLoginPhone.dropLogin (relinked now s (unpresentConstraints ++ [phonePresent])) =
    .ok (restoredLoginDb now s) := by
  have hrow : ((((s.identities.map (relinkedRow s)).map fun i =>
      { i with loginPhoneNationalNumber := none }).map fun i => { i with loginPhoneFullNumber := none }).map fun i =>
      { i with loginPhoneRawNumber := none }).map (fun i => { i with loginPhoneCountryCode := none }) =
      s.identities.map (restoredIdentity s) := by
    simp only [List.map_map]
    rfl
  unfold restoredLoginDb
  rw [← hrow]
  rfl

/-- Reverting the second migration succeeds after both. -/
theorem identityOwnsLoginPhone_down_ok :
    run (IdentityOwnsLoginPhone.down now plan) (loginDb now s) = .ok (restoredLoginDb now s) := by
  unfold IdentityOwnsLoginPhone.down
  rw [List.append_assoc]
  exact (run_append_ok createPhone_ok).trans ((run_append_ok relink_ok).trans dropLogin_ok)

end

end MarketplaceApi.Migrations.Contact
