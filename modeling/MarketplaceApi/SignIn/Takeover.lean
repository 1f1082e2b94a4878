import MarketplaceApi.SignIn.Bindings

/-!
# External accounts stay with their identity

For any interleaving of sign-ins, sign-ups, links and registrations: who a callback answers with
tokens, how a binding comes about, and that it never changes.
-/
namespace MarketplaceApi.SignIn

open Txn
open Transition (Run Always)

section
variable {argon2 : String → String → Bool} {dummyHash : String} {s : Tables} {w w' : World} {ev : Event}
  {tr tr' : List (World × Event)}

/-- Tokens are of an identity that has the external account. -/
def TokensBound (w : World) : Prop :=
  ∀ q token, (q, .ok token) ∈ w.db.answers → ∀ provider subject, q.external? = some (provider, subject) →
    .account ⟨token.identityId, provider, subject⟩ ∈ w.db.db.rows ∧
      ∃ identity, .identity identity ∈ w.db.db.rows ∧ identity.id = token.identityId ∧ identity.publicId = token.sub

theorem Commit.bound {s s' : Tables} {q : Request} {token : IdentityToken} (h : Commit s s' q token)
    {provider : IdentityProvider} {subject : String} (hq : q.external? = some (provider, subject)) :
    .account ⟨token.identityId, provider, subject⟩ ∈ s'.rows ∧
      ∃ identity, .identity identity ∈ s'.rows ∧ identity.id = token.identityId ∧ identity.publicId = token.sub := by
  cases h with
  | @created q identity account hcreates _ _ hrows =>
    cases hcreates with
    | register => cases hq
    | signUp =>
      cases hq
      refine ⟨?_, _, ?_, rfl, rfl⟩
      · rw [hrows]
        exact List.mem_append_left _ (List.mem_cons_of_mem _ (mem_newRows.mpr (Or.inr (Or.inl ⟨_, rfl, rfl⟩))))
      · rw [hrows]
        exact List.mem_append_left _ (List.mem_cons_of_mem _ (mem_newRows.mpr (Or.inr (Or.inr rfl))))
  | found hexternal hidentity haccount hrows =>
    rw [hq] at hexternal
    cases hexternal
    rw [hrows]
    exact ⟨List.mem_cons_of_mem _ haccount, _, List.mem_cons_of_mem _ hidentity, rfl, rfl⟩
  | linked hidentity hrows =>
    cases hq
    rw [hrows]
    exact ⟨List.mem_cons_of_mem _ List.mem_cons_self, _,
      List.mem_cons_of_mem _ (List.mem_cons_of_mem _ hidentity), rfl, rfl⟩

theorem tokensBound_step (h : Invariant argon2 dummyHash tr w) (hb : TokensBound w)
    (hs : Step argon2 dummyHash w ev w') : TokensBound w' := by
  have hkept := rows_kept h hs
  have hold : ∀ q token, (q, .ok token) ∈ w.db.answers → ∀ provider subject, q.external? = some (provider, subject) →
      .account ⟨token.identityId, provider, subject⟩ ∈ w'.db.db.rows ∧ ∃ identity, .identity identity ∈ w'.db.db.rows ∧
        identity.id = token.identityId ∧ identity.publicId = token.sub := by
    intro q token hin provider subject hq
    obtain ⟨haccount, identity, hidentity, hown⟩ := hb q token hin provider subject hq
    exact ⟨hkept _ haccount, identity, hkept _ hidentity, hown⟩
  cases hs with
  | tx hstep _ =>
    rcases hstep.serial h.coherent with ⟨_, ha, _⟩ | ⟨i, t, b, r, _, _, _, _, he, ha⟩ |
      ⟨_, _, _, _, _, _, _, _, _, _, _, ha⟩ | ⟨_, _, ha⟩
    · intro q token hin
      exact hold q token (ha ▸ hin)
    · intro q token hin provider subject hq
      rw [show _ = _ from ha, List.mem_cons] at hin
      rcases hin with heq | hin
      · cases heq
        exact (commit_of_exec he).bound hq
      · exact hold q token hin provider subject hq
    · intro q token hin
      rw [show _ = _ from ha, List.mem_cons] at hin
      rcases hin with heq | hin
      · cases heq
      · exact hold q token hin
    · intro q token hin
      exact hold q token (ha ▸ hin)
  | _ => exact hold

theorem tokensBound_run (hs : Sound s) (hr : Run (Step argon2 dummyHash) (World.start s) tr w) : TokensBound w := by
  induction hr with
  | nil =>
    intro _ _ hin
    cases hin
  | snoc hr hstep ih => exact tokensBound_step (invariant_run hs hr) ih hstep

/-- Tokens answer a callback only for the identity its external account is bound to. -/
theorem tokens_bound (hs : Sound s) (hr : Run (Step argon2 dummyHash) (World.start s) tr w) : TokensBound w :=
  tokensBound_run hs hr

/-- In every run each identity is allowed, is announced by its row of the outbox and no other, and has a
password or an account; accounts and sessions have their identity. -/
theorem sound_run (hs : Sound s) (hr : Run (Step argon2 dummyHash) (World.start s) tr w) :
    Sound w.db.db ∧ ∀ x, .identity x ∈ w.db.db.rows →
      ∀ o, .outbox o ∈ w.db.db.rows → o.aggregateId = x.publicId →
        o = IdentityMessageService.toIdentityRegisteredOutbox x := by
  have hsound := (invariant_run hs hr).sound
  refine ⟨hsound, fun x hx o ho haggregate => ?_⟩
  obtain ⟨y, hy, rfl⟩ := hsound.announces o ho
  have hsame : Row.identity y = .identity x :=
    hsound.apart.eq_of_key hy hx (k := .publicId x.publicId)
      (by simp [Row.keys, Identity.keys, ← haggregate, IdentityMessageService.toIdentityRegisteredOutbox])
      (by simp [Row.keys, Identity.keys])
  rw [Row.identity.inj hsame]

theorem rows_kept_run (hs : Sound s) (hr : Run (Step argon2 dummyHash) (World.start s) tr w)
    (hr' : Run (Step argon2 dummyHash) w tr' w') : ∀ row ∈ w.db.db.rows, row ∈ w'.db.db.rows := by
  induction hr' with
  | nil => exact fun _ h => h
  | snoc hr' hstep ih => exact fun row hrow => rows_kept (invariant_run hs (hr.append hr')) hstep row (ih row hrow)

/-- A subject is bound once, and an identity once for each provider. -/
theorem Sound.unique_account (hs : Sound s) {account other : IdentityExternalAccount}
    (haccount : .account account ∈ s.rows) (hother : .account other ∈ s.rows)
    (hprovider : other.provider = account.provider)
    (hsame : other.subject = account.subject ∨ other.identityId = account.identityId) : other = account := by
  have heq : Row.account other = .account account := by
    rcases hsame with hsubject | hidentity
    · apply hs.apart.eq_of_key hother haccount (k := .subject account.provider account.subject)
      · simp [Row.keys, hprovider, hsubject]
      · simp [Row.keys]
    · apply hs.apart.eq_of_key hother haccount (k := .provider account.identityId account.provider)
      · simp [Row.keys, hprovider, hidentity]
      · simp [Row.keys]
  exact Row.account.inj heq

/-- A binding stays, and no other binding takes its subject or its place with the identity. -/
theorem bindings_kept (hs : Sound s) (hr : Run (Step argon2 dummyHash) (World.start s) tr w)
    (hr' : Run (Step argon2 dummyHash) w tr' w') {account : IdentityExternalAccount}
    (haccount : .account account ∈ w.db.db.rows) :
    .account account ∈ w'.db.db.rows ∧ ∀ other, .account other ∈ w'.db.db.rows → other.provider = account.provider →
      other.subject = account.subject ∨ other.identityId = account.identityId → other = account := by
  have hlater := rows_kept_run hs hr hr' _ haccount
  have hsound := (invariant_run hs (hr.append hr')).sound
  exact ⟨hlater, fun other hother => hsound.unique_account hlater hother⟩

/-- How a new binding came about: with a new identity of the verified email, or for an identity whose
password the request confirmed that stored the attempt. -/
inductive Origin (argon2 : String → String → Bool) (dummyHash : String) (tr : List (World × Event)) (w w' : World)
    (account : IdentityExternalAccount) (attempt : OidcSignInAttempt) (email : String) : Prop
  | signUp (identity : Identity) : (∀ x, .identity x ∈ w.db.db.rows → x.id ≠ account.identityId) →
      .identity identity ∈ w'.db.db.rows → identity.id = account.identityId → identity.email = some email →
      Origin argon2 dummyHash tr w w' account attempt email
  | link (owner : Identity) (p : World × Event) (n : Nat) (password : String) : .identity owner ∈ w.db.db.rows →
      owner.id = account.identityId → attempt.linkIdentityPublicId = some owner.publicId → p ∈ tr →
      p.2 = .link n owner.publicId password attempt →
      PasswordService.verify argon2 dummyHash owner.passwordHash password = true →
      Origin argon2 dummyHash tr w w' account attempt email

/-- The step is the commit of a callback that presented its attempt's own state in the cookie, at the attempt's
provider, and whose provider verified an email. -/
def BoundBy (argon2 : String → String → Bool) (dummyHash : String) (tr : List (World × Event)) (w : World) (ev : Event)
    (w' : World) (account : IdentityExternalAccount) : Prop :=
  ∃ n browserState attempt external email, ev = .tx (.commit n) ∧
    w.calls n = .transacting account.provider browserState attempt external email ∧
    browserState = some attempt.state ∧ attempt.provider = account.provider ∧ account.subject = external.subject ∧
    external.email = some email ∧ external.emailVerified = true ∧
    Origin argon2 dummyHash tr w w' account attempt email

/-- The request of a callback is for a sign-in, or for the identity that its attempt is to link. -/
theorem request_eq (gen : Generated) (provider : IdentityProvider) (attempt : OidcSignInAttempt)
    (external : OidcIdentity) (email : String) :
    IdentityOidcSignInCommandHandler.request gen provider attempt external email = .signIn gen provider external email ∨
      ∃ publicId, attempt.linkIdentityPublicId = some publicId ∧
        IdentityOidcSignInCommandHandler.request gen provider attempt external email =
          .link gen provider external publicId := by
  unfold IdentityOidcSignInCommandHandler.request
  cases hlink : attempt.linkIdentityPublicId.filter fun publicId => publicId != "" with
  | none => exact Or.inl rfl
  | some publicId => exact Or.inr ⟨publicId, (Option.filter_eq_some_iff.mp hlink).1, rfl⟩

/-- What one commit of a callback says of an account it inserted. -/
theorem Commit.origin (h : Invariant argon2 dummyHash tr w) {gen : Generated} {provider : IdentityProvider}
    {attempt : OidcSignInAttempt} {external : OidcIdentity} {email : String} {token : IdentityToken}
    (hc : Commit w.db.db w'.db.db (IdentityOidcSignInCommandHandler.request gen provider attempt external email) token)
    (hconfirmed : Confirmed argon2 dummyHash tr w.db.db.rows attempt) {account : IdentityExternalAccount}
    (hnew : .account account ∈ w'.db.db.rows) (hold : .account account ∉ w.db.db.rows) :
    account.provider = provider ∧ account.subject = external.subject ∧
      Origin argon2 dummyHash tr w w' account attempt email := by
  generalize hq : IdentityOidcSignInCommandHandler.request gen provider attempt external email = q at hc
  cases hc with
  | @created q identity fresh hcreates _ hfree hrows =>
    cases hcreates with
    | register => rcases request_eq gen provider attempt external email with heq | ⟨_, _, heq⟩ <;> simp [heq] at hq
    | @signUp gen' provider' external' email' =>
      have hsame : Request.signIn gen provider external email = .signIn gen' provider' external' email' := by
        rcases request_eq gen provider attempt external email with heq | ⟨_, _, heq⟩
        · exact heq.symm.trans hq
        · cases heq.symm.trans hq
      cases hsame
      rw [hrows] at hnew
      have hmem : account = ⟨gen.id, provider, external.subject⟩ := by
        rw [List.mem_append, List.mem_cons, mem_newRows] at hnew
        rcases hnew with (hnew | hnew | ⟨a, ha, hnew⟩ | hnew) | hnew
        · cases hnew
        · cases hnew
        · cases hnew
          exact (Option.some_inj.mp ha).symm
        · cases hnew
        · exact absurd hnew hold
      subst hmem
      refine ⟨rfl, rfl, .signUp (IdentityOidcSignInCommandHandler.identity gen email) (fun x hx heq => ?_) ?_ rfl rfl⟩
      · have htaken : w.db.db.taken Row.keys (.identityId gen.id) = true :=
          taken_iff.mpr ⟨_, hx, by simp [Row.keys, Identity.keys, heq]⟩
        rw [hfree _ (by simp [Identity.keys, IdentityOidcSignInCommandHandler.identity])] at htaken
        cases htaken
      · rw [hrows]
        exact List.mem_append_left _ (List.mem_cons_of_mem _ (mem_newRows.mpr (Or.inr (Or.inr rfl))))
  | found _ _ _ hrows =>
    rw [hrows, List.mem_cons] at hnew
    rcases hnew with hnew | hnew
    · cases hnew
    · exact absurd hnew hold
  | @linked gen' provider' external' identity hidentity hrows =>
    obtain ⟨publicId, hlink, heq⟩ : ∃ publicId, attempt.linkIdentityPublicId = some publicId ∧
        Request.link gen provider external publicId = .link gen' provider' external' identity.publicId := by
      rcases request_eq gen provider attempt external email with heq | ⟨publicId, hlink, heq⟩
      · cases heq.symm.trans hq
      · exact ⟨publicId, hlink, heq.symm.trans hq⟩
    cases heq
    obtain ⟨owner, howner, hpublic, p, hp, n, password, hlinked, hverified⟩ := hconfirmed _ hlink
    have hsame : Row.identity owner = .identity identity :=
      h.sound.apart.eq_of_key howner hidentity (k := .publicId identity.publicId)
        (by simp [Row.keys, Identity.keys, hpublic]) (by simp [Row.keys, Identity.keys])
    cases hsame
    rw [hrows, List.mem_cons, List.mem_cons] at hnew
    rcases hnew with hnew | hnew | hnew
    · cases hnew
    · cases hnew
      exact ⟨rfl, rfl, .link identity p n password hidentity rfl hlink hp hlinked hverified⟩
    · exact absurd hnew hold

theorem Invariant.binding (h : Invariant argon2 dummyHash tr w)
    (hstep : Step argon2 dummyHash w ev w') {account : IdentityExternalAccount}
    (hnew : .account account ∈ w'.db.db.rows) (hold : .account account ∉ w.db.db.rows) :
    BoundBy argon2 dummyHash tr w ev w' account := by
  cases hstep with
  | @tx e db htx _ =>
    rcases htx.serial h.coherent with ⟨hdb, _⟩ | ⟨n, t, b, token, rfl, hi, _, _, he, _⟩ |
      ⟨_, _, _, _, _, _, _, _, _, _, hdb, _⟩ | ⟨_, henv, _⟩
    · exact absurd hnew (hdb ▸ hold)
    · have hcommit := commit_of_exec he
      have hcall := h.calls n
      have hrun := h.runs n t hi
      generalize hq : t.request = q at hrun hcommit
      generalize hc : w.calls n = call at hrun hcall
      cases hrun with
      | register =>
        cases hcommit with
        | created hcreates _ _ hrows =>
          cases hcreates
          rw [show db.db.rows = _ from hrows, List.mem_append, List.mem_cons, mem_newRows] at hnew
          rcases hnew with (hnew | hnew | ⟨_, ha, _⟩ | hnew) | hnew
          · cases hnew
          · cases hnew
          · cases ha
          · cases hnew
          · exact absurd hnew hold
        | found hexternal _ _ _ => cases hexternal
      | @callback gen provider browserState attempt external email =>
        obtain ⟨hconfirmed, hprovider, hstate, hverified⟩ := hcall
        obtain ⟨hemail, hp⟩ := Option.filter_eq_some_iff.mp hverified
        rw [Bool.and_eq_true] at hp
        obtain ⟨rfl, hsubject, horigin⟩ := hcommit.origin h hconfirmed hnew hold
        exact ⟨n, browserState, attempt, external, email, rfl, hc, hstate, hprovider, hsubject, hemail, hp.2, horigin⟩
    · exact absurd hnew (hdb ▸ hold)
    · have heq : db.db.rows = w.db.db.rows := henv
      exact absurd hnew (heq ▸ hold)
  | _ => exact absurd hnew hold

/-- A binding is created by a callback that presented its attempt's own state in the cookie, at the
attempt's provider, with the provider's verified email. -/
theorem binding_created (hs : Sound s) (hr : Run (Step argon2 dummyHash) (World.start s) tr w)
    (hstep : Step argon2 dummyHash w ev w') {account : IdentityExternalAccount}
    (hnew : .account account ∈ w'.db.db.rows) (hold : .account account ∉ w.db.db.rows) :
    ∃ n browserState attempt external email, ev = .tx (.commit n) ∧
      w.calls n = .transacting account.provider browserState attempt external email ∧
      browserState = some attempt.state ∧ attempt.provider = account.provider ∧ account.subject = external.subject ∧
      external.email = some email ∧ external.emailVerified = true ∧
      Origin argon2 dummyHash tr w w' account attempt email :=
  (invariant_run hs hr).binding hstep hnew hold

/-- A call can run its transaction when no other is open. -/
theorem transact_run {n : Nat} {q : Request} {s' : Tables} {token : IdentityToken} (hdb : w.db = .start s)
    (hfits : Fits (w.calls n) q) (hcalls : settle w.calls (.begin n q) = w.calls)
    (hrun : (handler q).run s = .ok (s', token)) : ∃ tr last, Run (Step argon2 dummyHash) w tr last ∧
      last.db.db = s ∧ Step argon2 dummyHash last (.tx (.commit n)) { w with
        db := ⟨s', fun _ => none, [(q, .ok token)]⟩, calls := Function.update w.calls n .idle } := by
  obtain ⟨tr, last, hr, hstatements, hsame, _, hcommit, _⟩ := process_commit (Y := signIns) n q s [] hrun
  have hbegin : Step argon2 dummyHash w (.tx (.begin n q)) { w with
      db := (Config.start s).set n (some ⟨q, handler q, id, []⟩), calls := settle w.calls (.begin n q) } := by
    apply Step.tx
    · rw [hdb]
      exact .begin rfl trivial
    · intro m q' heq
      cases heq
      exact hfits
  rw [hcalls] at hbegin
  have halways : Always (fun _ e => e = .statement n) tr := hstatements
  obtain ⟨tr', hlifted⟩ : ∃ tr', Run (Step argon2 dummyHash)
      { w with db := (Config.start s).set n (some ⟨q, handler q, id, []⟩) } tr' { w with db := last } :=
    hr.lift (fun c => { w with db := c }) Event.tx halways fun hstatement hstep => by
      subst hstatement
      exact .tx hstep fun _ _ heq => by cases heq
  refine ⟨_, _, (Run.nil.snoc hbegin).append hlifted, hsame, ?_⟩
  exact .tx hcommit fun _ _ heq => by cases heq

end

def emptyTables : Tables := ⟨[], []⟩

theorem sound_empty : Sound emptyTables where
  apart := List.Pairwise.nil
  allowed := by simp [emptyTables]
  announced := by simp [emptyTables]
  announces := by simp [emptyTables]
  owned := by simp [emptyTables]
  credential := by simp [emptyTables]
  sessions := by simp [emptyTables]

def sampleAttempt : OidcSignInAttempt := ⟨.google, "s", "n", "v", none⟩

def sampleExternal : OidcIdentity := ⟨"sub", some "a@b.co", true⟩

def sampleGenerated : Generated := ⟨1, "p", "f", "h", 1_500⟩

def sampleAccount : IdentityExternalAccount := ⟨1, .google, "sub"⟩

/-- A sign-in whose provider has answered. -/
theorem answered_sample : ∃ tr w, Run (Step (fun _ _ => false) "") (World.start emptyTables) tr w ∧
    w.db = .start emptyTables ∧
    w.calls 1 = .transacting .google (some "s") sampleAttempt sampleExternal "a@b.co" := by
  have hstored := (Run.nil.snoc (@Step.authorize (fun _ _ => false) "" (World.start emptyTables) 0 sampleAttempt rfl
      (by simp [World.start]) rfl)).snoc (@Step.set _ _ _ sampleAttempt List.mem_cons_self)
  have htaken := (hstored.snoc (@Step.callback _ _ _ 1 .google (some "s") (some "s") "s" rfl rfl)).snoc
      (@Step.take _ _ _ 1 .google "s" (some "s") sampleAttempt rfl rfl)
  have hsent := htaken.snoc (@Step.exchange _ _ _ 1 .google (some "s") sampleAttempt rfl)
  exact ⟨_, _, hsent.snoc (@Step.exchanged _ _ _ 1 .google (some "s") sampleAttempt sampleExternal "a@b.co" rfl rfl),
    rfl, rfl⟩

/-- A sign-up from the redirect to the commit. -/
theorem sign_up : ∃ tr w w', Run (Step (fun _ _ => false) "") (World.start emptyTables) tr w ∧
    Step (fun _ _ => false) "" w (.tx (.commit 1)) w' ∧ .account sampleAccount ∈ w'.db.db.rows ∧
    .account sampleAccount ∉ w.db.db.rows ∧
    ∃ q token, q.external? = some (.google, "sub") ∧ (q, .ok token) ∈ w'.db.answers ∧ token.identityId = 1 := by
  have hrun : ∃ s' token, (handler (.signIn sampleGenerated .google sampleExternal "a@b.co")).run emptyTables =
      .ok (s', token) ∧ .account sampleAccount ∈ s'.rows ∧ token.identityId = 1 :=
    ⟨_, _, rfl, List.mem_cons_of_mem _ (List.mem_cons_of_mem _ List.mem_cons_self), rfl⟩
  obtain ⟨s', token, hrun, hnew, hid⟩ := hrun
  obtain ⟨tr, w, hr, hdb, hcall⟩ := answered_sample
  have hfits : Fits (w.calls 1) (.signIn sampleGenerated .google sampleExternal "a@b.co") := by
    rw [hcall]
    exact Fits.callback
  obtain ⟨tr', last, hr', hsame, hcommit⟩ := transact_run hdb hfits rfl hrun
  refine ⟨_, last, _, hr.append hr', hcommit, hnew, ?_, _, token, rfl, List.mem_cons_self, hid⟩
  rw [hsame]
  simp [emptyTables]

theorem sound_run_sample : ∃ tr w, Run (Step (fun _ _ => false) "") (World.start emptyTables) tr w ∧
    .account sampleAccount ∈ w.db.db.rows ∧ Sound w.db.db := by
  obtain ⟨tr, w, w', hr, hstep, hnew, _⟩ := sign_up
  exact ⟨_, w', hr.snoc hstep, hnew, (sound_run sound_empty (hr.snoc hstep)).1⟩

theorem tokens_bound_sample : ∃ tr w, Run (Step (fun _ _ => false) "") (World.start emptyTables) tr w ∧
    .account sampleAccount ∈ w.db.db.rows := by
  obtain ⟨tr, w, w', hr, hstep, _, _, q, token, hq, hin, hid⟩ := sign_up
  refine ⟨_, w', hr.snoc hstep, ?_⟩
  have hbound := (tokens_bound sound_empty (hr.snoc hstep) q token hin .google "sub" hq).1
  rw [hid] at hbound
  exact hbound

theorem binding_created_sample : ∃ tr w w' attempt email,
    Run (Step (fun _ _ => false) "") (World.start emptyTables) tr w ∧
      Origin (fun _ _ => false) "" tr w w' sampleAccount attempt email := by
  obtain ⟨tr, w, w', hr, hstep, hnew, hold, _⟩ := sign_up
  obtain ⟨_, _, attempt, _, email, _, _, _, _, _, _, _, horigin⟩ := binding_created sound_empty hr hstep hnew hold
  exact ⟨tr, w, w', attempt, email, hr, horigin⟩

/-- The binding stays when its identity is deleted softly. -/
theorem bindings_kept_sample : ∃ tr w tr' w', Run (Step (fun _ _ => false) "") (World.start emptyTables) tr w ∧
    Run (Step (fun _ _ => false) "") w tr' w' ∧ w'.db.db.other = [1] ∧
    .account sampleAccount ∈ w'.db.db.rows ∧ ∀ other, .account other ∈ w'.db.db.rows → other.provider = .google →
      other.subject = "sub" ∨ other.identityId = 1 → other = sampleAccount := by
  obtain ⟨tr, w, w', hr, hstep, hnew, _⟩ := sign_up
  have hdeleted : Step (fun _ _ => false) "" w' (.tx .env)
      { w' with db := { w'.db with db := { w'.db.db with other := [1] } } } :=
    .tx (.env rfl) fun _ _ heq => by cases heq
  obtain ⟨hlater, hother⟩ := bindings_kept sound_empty (hr.snoc hstep) (Run.nil.snoc hdeleted) hnew
  exact ⟨_, w', _, _, hr.snoc hstep, Run.nil.snoc hdeleted, rfl, hlater, hother⟩

end MarketplaceApi.SignIn
