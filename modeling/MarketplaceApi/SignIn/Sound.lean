import MarketplaceApi.SignIn.Commit

/-!
# What sign-ins keep of the tables

Every identity is announced by one row and has a password or an external account; every account
and session has its identity. A committed transaction keeps this.
-/
namespace MarketplaceApi.SignIn

open Txn

/-- The identity and the account a request inserts when it creates an identity. -/
inductive Creates : Request → Identity → Option IdentityExternalAccount → Prop
  | register {gen input passwordHash} : Creates (.register gen input passwordHash)
      (IdentityRegisterCommandHandler.identity gen input passwordHash) none
  | signUp {gen provider external email} : Creates (.signIn gen provider external email)
      (IdentityOidcSignInCommandHandler.identity gen email) (some ⟨gen.id, provider, external.subject⟩)

/-- What a committed transaction did, with the tokens it answered. -/
inductive Commit (s s' : Tables) : Request → IdentityToken → Prop
  | created {q identity account} : Creates q identity account → identity.allowed = true →
      (∀ k ∈ identity.keys, s.taken Row.keys k = false) →
      s'.rows = q.gen.session identity :: newRows identity account ++ s.rows → Commit s s' q (q.gen.token identity)
  | found {q identity provider subject} : q.external? = some (provider, subject) → .identity identity ∈ s.rows →
      .account ⟨identity.id, provider, subject⟩ ∈ s.rows → s'.rows = q.gen.session identity :: s.rows →
      Commit s s' q (q.gen.token identity)
  | linked {gen provider external identity} : .identity identity ∈ s.rows →
      s'.rows = gen.session identity :: .account ⟨identity.id, provider, external.subject⟩ :: s.rows →
      Commit s s' (.link gen provider external identity.publicId) (gen.token identity)

/-- How the rows of the tables fit together. -/
structure Sound (s : Tables) : Prop where
  apart : Apart Row.keys s.rows
  allowed : ∀ x, .identity x ∈ s.rows → x.allowed = true
  announced : ∀ x, .identity x ∈ s.rows → .outbox (IdentityMessageService.toIdentityRegisteredOutbox x) ∈ s.rows
  announces : ∀ o, .outbox o ∈ s.rows → ∃ x, .identity x ∈ s.rows ∧
    o = IdentityMessageService.toIdentityRegisteredOutbox x
  owned : ∀ a, .account a ∈ s.rows → ∃ x, .identity x ∈ s.rows ∧ x.id = a.identityId
  credential : ∀ x, .identity x ∈ s.rows → x.passwordHash.isSome ∨ ∃ a, .account a ∈ s.rows ∧ a.identityId = x.id
  sessions : ∀ t, .session t ∈ s.rows → ∃ x, .identity x ∈ s.rows ∧ x.id = t.identityId

section
variable {s s' b : Tables} {q : Request} {r : IdentityToken}

theorem commit_of_exec (h : Exec isolation b (handler q) s s' (.ok r)) : Commit s s' q r := by
  cases q with
  | register gen input passwordHash =>
    obtain ⟨rfl, hallowed, hfree, hrows⟩ := exec_register h
    exact .created .register hallowed hfree hrows
  | signIn gen provider external email =>
    rcases exec_signIn h with ⟨account, identity, haccount, rfl, hsubject, hidentity, hid, rfl, hrows⟩ |
      ⟨rfl, hallowed, hfree, hrows⟩
    · refine .found rfl hidentity ?_ hrows
      rw [hid, ← hsubject]
      exact haccount
    · exact .created .signUp hallowed hfree hrows
  | link gen provider external identityPublicId =>
    obtain ⟨identity, hidentity, rfl, rfl, ⟨haccount, hrows⟩ | hrows⟩ := exec_link h
    · exact .found rfl hidentity haccount hrows
    · exact .linked hidentity hrows

theorem Sound.of_rows (h : Sound s) (heq : s'.rows = s.rows) : Sound s' := by
  obtain ⟨h₁, h₂, h₃, h₄, h₅, h₆, h₇⟩ := h
  rw [← heq] at h₁ h₂ h₃ h₄ h₅ h₆ h₇
  exact ⟨h₁, h₂, h₃, h₄, h₅, h₆, h₇⟩

/-- New rows that fit with each other and with the old ones. -/
theorem Sound.append (h : Sound s) {rows : List Row} (hrows : s'.rows = rows ++ s.rows) (ha : Apart Row.keys s'.rows)
    (hidentity : ∀ x, .identity x ∈ rows → x.allowed = true ∧
      .outbox (IdentityMessageService.toIdentityRegisteredOutbox x) ∈ s'.rows ∧
      (x.passwordHash.isSome ∨ ∃ a, .account a ∈ s'.rows ∧ a.identityId = x.id))
    (houtbox : ∀ o, .outbox o ∈ rows → ∃ x, .identity x ∈ s'.rows ∧
      o = IdentityMessageService.toIdentityRegisteredOutbox x)
    (haccount : ∀ a, .account a ∈ rows → ∃ x, .identity x ∈ s'.rows ∧ x.id = a.identityId)
    (hsession : ∀ t, .session t ∈ rows → ∃ x, .identity x ∈ s'.rows ∧ x.id = t.identityId) : Sound s' := by
  have hkept : ∀ row ∈ s.rows, row ∈ s'.rows := by
    intro row hrow
    rw [hrows]
    exact List.mem_append_right _ hrow
  have hcases : ∀ row ∈ s'.rows, row ∈ rows ∨ row ∈ s.rows := by
    intro row hrow
    rwa [hrows, List.mem_append] at hrow
  refine ⟨ha, fun x hx => ?_, fun x hx => ?_, fun o ho => ?_, fun a hmem => ?_, fun x hx => ?_, fun t ht => ?_⟩
  · rcases hcases _ hx with hnew | hold
    · exact (hidentity x hnew).1
    · exact h.allowed x hold
  · rcases hcases _ hx with hnew | hold
    · exact (hidentity x hnew).2.1
    · exact hkept _ (h.announced x hold)
  · rcases hcases _ ho with hnew | hold
    · exact houtbox o hnew
    · obtain ⟨x, hx, heq⟩ := h.announces o hold
      exact ⟨x, hkept _ hx, heq⟩
  · rcases hcases _ hmem with hnew | hold
    · exact haccount a hnew
    · obtain ⟨x, hx, hid⟩ := h.owned a hold
      exact ⟨x, hkept _ hx, hid⟩
  · rcases hcases _ hx with hnew | hold
    · exact (hidentity x hnew).2.2
    · rcases h.credential x hold with hpassword | ⟨a, hmem, hid⟩
      · exact Or.inl hpassword
      · exact Or.inr ⟨a, hkept _ hmem, hid⟩
  · rcases hcases _ ht with hnew | hold
    · exact hsession t hnew
    · obtain ⟨x, hx, hid⟩ := h.sessions t hold
      exact ⟨x, hkept _ hx, hid⟩

theorem mem_newRows {identity : Identity} {account : Option IdentityExternalAccount} {row : Row} :
    row ∈ newRows identity account ↔ row = .outbox (IdentityMessageService.toIdentityRegisteredOutbox identity) ∨
      (∃ a, account = some a ∧ row = .account a) ∨ row = .identity identity := by
  cases account <;> simp [newRows]

theorem Creates.account {q : Request} {identity : Identity} {account : Option IdentityExternalAccount}
    (h : Creates q identity account) : (∀ a, account = some a → a.identityId = identity.id) ∧
      (identity.passwordHash.isSome ∨ account.isSome) := by
  cases h with
  | register => exact ⟨fun _ ha => (Option.some_ne_none _ ha.symm).elim, Or.inl rfl⟩
  | signUp =>
    refine ⟨fun a ha => ?_, Or.inr rfl⟩
    cases ha
    rfl

/-- A committed transaction keeps the tables sound. -/
theorem Sound.commit (h : Sound s) (hc : Commit s s' q r) (ha : Apart Row.keys s'.rows) : Sound s' := by
  cases hc with
  | @created q identity account hcreates hallowed _ hrows =>
    obtain ⟨howned, hcredential⟩ := hcreates.account
    have hin : ∀ row, row = q.gen.session identity ∨ row ∈ newRows identity account → row ∈ s'.rows := by
      intro row hrow
      rw [hrows, List.mem_append, List.mem_cons]
      exact Or.inl hrow
    have hidentity : .identity identity ∈ s'.rows := hin _ (Or.inr (mem_newRows.mpr (Or.inr (Or.inr rfl))))
    refine h.append hrows ha (fun x hx => ?_) (fun o ho => ?_) (fun a hmem => ?_) fun t ht => ?_
    · rw [List.mem_cons, mem_newRows] at hx
      rcases hx with hx | hx | ⟨_, _, hx⟩ | hx
      · cases hx
      · cases hx
      · cases hx
      · cases hx
        refine ⟨hallowed, hin _ (Or.inr (mem_newRows.mpr (Or.inl rfl))), ?_⟩
        rcases hcredential with hpassword | hsome
        · exact Or.inl hpassword
        · obtain ⟨a, heq⟩ := Option.isSome_iff_exists.mp hsome
          exact Or.inr ⟨a, hin _ (Or.inr (mem_newRows.mpr (Or.inr (Or.inl ⟨a, heq, rfl⟩)))), howned a heq⟩
    · rw [List.mem_cons, mem_newRows] at ho
      rcases ho with ho | ho | ⟨_, _, ho⟩ | ho
      · cases ho
      · cases ho
        exact ⟨identity, hidentity, rfl⟩
      · cases ho
      · cases ho
    · rw [List.mem_cons, mem_newRows] at hmem
      rcases hmem with hmem | hmem | ⟨a', ha', hmem⟩ | hmem
      · cases hmem
      · cases hmem
      · cases hmem
        exact ⟨identity, hidentity, (howned a ha').symm⟩
      · cases hmem
    · rw [List.mem_cons, mem_newRows] at ht
      rcases ht with ht | ht | ⟨_, _, ht⟩ | ht
      · cases ht
        exact ⟨identity, hidentity, rfl⟩
      · cases ht
      · cases ht
      · cases ht
  | @found q identity _ _ _ hidentity _ hrows =>
    have hidentity' : .identity identity ∈ s'.rows := by simp [hrows, hidentity]
    have hnew : s'.rows = [q.gen.session identity] ++ s.rows := hrows
    apply h.append hnew ha
    all_goals simp [Generated.session]
    exact ⟨identity, hidentity', rfl⟩
  | @linked gen provider external identity hidentity hrows =>
    have hidentity' : .identity identity ∈ s'.rows := by simp [hrows, hidentity]
    have hnew : s'.rows = [gen.session identity, .account ⟨identity.id, provider, external.subject⟩] ++ s.rows := hrows
    apply h.append hnew ha
    all_goals simp [Generated.session]
    all_goals exact ⟨identity, hidentity', rfl⟩

end

end MarketplaceApi.SignIn
