import MarketplaceApi.SignIn.Handlers

/-!
# What a committed sign-in has written

Every transaction only inserts rows. A committed one inserted a session, before it an external
account if it was new, and before that the identity of a sign-up with the row that announces it.
-/
namespace MarketplaceApi.SignIn

open Txn

section
variable {s s' b : Tables} {gen : Generated} {provider : IdentityProvider} {external : OidcIdentity} {r : IdentityToken}

theorem inserts_accountCreate (row : IdentityExternalAccount) :
    (IdentityExternalAccountRepository.create row).Inserts Row.keys := by
  unfold IdentityExternalAccountRepository.create
  split
  · trivial
  · apply (Prog.inserts_look _).bind
    intro found
    split
    · exact inserts_insertRow _ _
    · trivial

theorem inserts_createTokenPair (identity : Identity) :
    (TokenService.createTokenPair gen identity).Inserts Row.keys := by
  unfold TokenService.createTokenPair
  apply (Prog.inserts_look _).bind
  intro found
  split
  · exact (inserts_insertRow _ _).bind fun _ => trivial
  · trivial

theorem inserts_identityCreate (row : Identity) : (IdentityRepository.create row).Inserts Row.keys := by
  unfold IdentityRepository.create
  split
  · exact inserts_insertRow _ _
  · trivial

theorem inserts_handler (q : Request) : (handler q).Inserts Row.keys := by
  cases q with
  | register gen input passwordHash =>
    apply (inserts_identityCreate _).bind
    intro _
    exact (inserts_insertRow _ _).bind fun _ => inserts_createTokenPair _
  | signIn gen provider external email =>
    apply (Prog.inserts_look _).bind
    intro account
    cases account with
    | some account =>
      apply (Prog.inserts_look _).bind
      intro identity
      cases identity with
      | none => trivial
      | some identity => exact inserts_createTokenPair _
    | none =>
      apply (Prog.inserts_look _).bind
      intro found
      cases found with
      | some _ => trivial
      | none =>
        apply (inserts_identityCreate _).bind
        intro _
        apply (inserts_accountCreate _).bind
        intro _
        exact (inserts_insertRow _ _).bind fun _ => inserts_createTokenPair _
  | link gen provider external identityPublicId =>
    apply (Prog.inserts_look _).bind
    intro identity
    cases identity with
    | none => trivial
    | some identity =>
      apply (Prog.inserts_look _).bind
      intro account
      cases account with
      | some account =>
        show (if _ then _ else _ : Program _).Inserts Row.keys
        split
        · trivial
        · exact inserts_createTokenPair _
      | none =>
        apply (inserts_accountCreate _).bind
        intro _
        exact inserts_createTokenPair _

theorem safe_handler (q : Request) (b : Tables) : (handler q).Safe isolation b := (inserts_handler q).safe

/-- The session of a token pair. -/
def Generated.session (gen : Generated) (identity : Identity) : Row :=
  .session ⟨identity.id, gen.familyId, gen.tokenHash⟩

def Generated.token (gen : Generated) (identity : Identity) : IdentityToken :=
  ⟨identity.id, identity.publicId, gen.familyId, gen.tokenHash⟩

theorem exec_createTokenPair {identity : Identity}
    (h : Exec isolation b (TokenService.createTokenPair gen identity) s s' (.ok r)) :
    r = gen.token identity ∧ s' = s.add (gen.session identity) := by
  obtain ⟨_, m, found, _, hlook, hrest⟩ := Exec.of_bind h
  obtain ⟨rfl, _⟩ := hlook.of_look
  cases found with
  | false => cases hrest
  | true =>
    obtain ⟨_, m', u, _, hinsert, hret⟩ := Exec.of_bind hrest
    obtain ⟨_, rfl⟩ := exec_insertRow hinsert
    cases hret
    exact ⟨rfl, rfl⟩

theorem exec_accountCreate {row : IdentityExternalAccount} {u : Unit}
    (h : Exec isolation b (IdentityExternalAccountRepository.create row) s s' (.ok u)) :
    (∀ k ∈ (Row.account row).keys, s.taken Row.keys k = false) ∧ s' = s.add (.account row) := by
  unfold IdentityExternalAccountRepository.create at h
  split at h
  · cases h
  · obtain ⟨_, m, found, _, hlook, hrest⟩ := Exec.of_bind h
    obtain ⟨rfl, _⟩ := hlook.of_look
    cases found with
    | false => cases hrest
    | true => exact exec_insertRow hrest

theorem exec_identityCreate {row : Identity} {u : Unit}
    (h : Exec isolation b (IdentityRepository.create row) s s' (.ok u)) :
    row.allowed = true ∧ (∀ k ∈ row.keys, s.taken Row.keys k = false) ∧ s' = s.add (.identity row) := by
  unfold IdentityRepository.create at h
  split at h
  · obtain ⟨hfree, hadd⟩ := exec_insertRow h
    exact ⟨by assumption, hfree, hadd⟩
  · cases h

/-- The tables after a registration or a sign-up has inserted the identity and its row. -/
def newRows (identity : Identity) (account : Option IdentityExternalAccount) : List Row :=
  .outbox (IdentityMessageService.toIdentityRegisteredOutbox identity) :: (account.map .account).toList ++
    [.identity identity]

theorem exec_register {input : IdentityRegisterInput} {passwordHash : String}
    (h : Exec isolation b (IdentityRegisterCommandHandler.register gen input passwordHash) s s' (.ok r)) :
    let identity := IdentityRegisterCommandHandler.identity gen input passwordHash
    r = gen.token identity ∧ identity.allowed = true ∧ (∀ k ∈ identity.keys, s.taken Row.keys k = false) ∧
      s'.rows = gen.session identity :: newRows identity none ++ s.rows := by
  obtain ⟨_, m, _, _, hcreate, hrest⟩ := Exec.of_bind h
  obtain ⟨hallowed, hfree, rfl⟩ := exec_identityCreate hcreate
  obtain ⟨_, m', _, _, houtbox, hpair⟩ := Exec.of_bind hrest
  obtain ⟨_, rfl⟩ := exec_insertRow houtbox
  obtain ⟨rfl, rfl⟩ := exec_createTokenPair hpair
  exact ⟨rfl, hallowed, hfree, rfl⟩

/-- A sign-in found the account's identity, or signed it up together with the account. -/
theorem exec_signIn {email : String}
    (h : Exec isolation b (IdentityOidcSignInCommandHandler.signIn gen provider external email) s s' (.ok r)) :
    (∃ account identity, .account account ∈ s.rows ∧ account.provider = provider ∧
      account.subject = external.subject ∧ .identity identity ∈ s.rows ∧ identity.id = account.identityId ∧
      r = gen.token identity ∧ s'.rows = gen.session identity :: s.rows) ∨
    let identity := IdentityOidcSignInCommandHandler.identity gen email
    r = gen.token identity ∧ identity.allowed = true ∧ (∀ k ∈ identity.keys, s.taken Row.keys k = false) ∧
      s'.rows = gen.session identity :: newRows identity (some ⟨gen.id, provider, external.subject⟩) ++ s.rows := by
  obtain ⟨b₁, m, account, _, hlook, hrest⟩ := Exec.of_bind h
  obtain ⟨rfl, v, _, hv, hseen⟩ := hlook.of_look
  cases account with
  | some account =>
    left
    obtain ⟨haccount, hp⟩ := findAccount_some hseen
    rw [Bool.and_eq_true, beq_iff_eq, beq_iff_eq] at hp
    obtain ⟨b₂, m', identity, _, hfind, htail⟩ := Exec.of_bind hrest
    obtain ⟨rfl, v', _, hv', hfound⟩ := hfind.of_look
    cases identity with
    | none => cases htail
    | some identity =>
      obtain ⟨hidentity, hid⟩ := findIdentity_some hfound
      obtain ⟨rfl, rfl⟩ := exec_createTokenPair htail
      exact ⟨account, identity, hv.subset haccount, hp.1, hp.2, hv'.subset hidentity, by simpa using hid, rfl, rfl⟩
  | none =>
    right
    obtain ⟨_, m', found, _, hemail, htail⟩ := Exec.of_bind hrest
    obtain ⟨rfl, _⟩ := hemail.of_look
    cases found with
    | some _ => cases htail
    | none =>
      obtain ⟨_, m₁, _, _, hcreate, hrest₁⟩ := Exec.of_bind htail
      obtain ⟨hallowed, hfree, rfl⟩ := exec_identityCreate hcreate
      obtain ⟨_, m₂, _, _, hbind, hrest₂⟩ := Exec.of_bind hrest₁
      obtain ⟨_, rfl⟩ := exec_accountCreate hbind
      obtain ⟨_, m₃, _, _, houtbox, hpair⟩ := Exec.of_bind hrest₂
      obtain ⟨_, rfl⟩ := exec_insertRow houtbox
      obtain ⟨rfl, rfl⟩ := exec_createTokenPair hpair
      exact ⟨rfl, hallowed, hfree, rfl⟩

/-- A link found the identity, and its account bound already or by an insert. -/
theorem exec_link {identityPublicId : String}
    (h : Exec isolation b (IdentityOidcSignInCommandHandler.link gen provider external identityPublicId) s s' (.ok r)) :
    ∃ identity, .identity identity ∈ s.rows ∧ identity.publicId = identityPublicId ∧ r = gen.token identity ∧
      ((.account ⟨identity.id, provider, external.subject⟩ ∈ s.rows ∧ s'.rows = gen.session identity :: s.rows) ∨
        s'.rows = gen.session identity :: .account ⟨identity.id, provider, external.subject⟩ :: s.rows) := by
  obtain ⟨b₁, m, identity, _, hlook, hrest⟩ := Exec.of_bind h
  obtain ⟨rfl, v, _, hv, hseen⟩ := hlook.of_look
  cases identity with
  | none => cases hrest
  | some identity =>
    obtain ⟨hidentity, hpublic⟩ := findIdentity_some hseen
    refine ⟨identity, hv.subset hidentity, by simpa using hpublic, ?_⟩
    obtain ⟨b₂, m', account, _, hfind, htail⟩ := Exec.of_bind hrest
    obtain ⟨rfl, v', _, hv', hfound⟩ := hfind.of_look
    cases account with
    | some account =>
      obtain ⟨haccount, hp⟩ := findAccount_some hfound
      rw [Bool.and_eq_true, beq_iff_eq, beq_iff_eq] at hp
      change Exec isolation b₂ (if account.identityId != identity.id then _ else _) _ _ _ at htail
      split at htail
      · cases htail
      · rename_i hown
        have hid : account.identityId = identity.id := by simpa using hown
        obtain ⟨rfl, rfl⟩ := exec_createTokenPair htail
        refine ⟨rfl, Or.inl ⟨?_, rfl⟩⟩
        have heq : account = ⟨identity.id, provider, external.subject⟩ := by
          rw [← hid, ← hp.1, ← hp.2]
        rw [← heq]
        exact hv'.subset haccount
    | none =>
      obtain ⟨_, m₁, _, _, hbind, hpair⟩ := Exec.of_bind htail
      obtain ⟨_, rfl⟩ := exec_accountCreate hbind
      obtain ⟨rfl, rfl⟩ := exec_createTokenPair hpair
      exact ⟨rfl, Or.inr rfl⟩

end

end MarketplaceApi.SignIn
