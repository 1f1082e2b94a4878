import MarketplaceApi.Identity.Isolation

/-!
# What a committed identity request can have done

A refresh is refused, or consumes its session and inserts the next one; for a deleted
identity it consumes without issuing. A revocation marks what is left of a family. A
sign-in starts a family.
-/
namespace MarketplaceApi.Identity

open Txn

def consumed (s : Tables) (tokenHash : TokenHash) (now : Nat) : Tables :=
  s.update (fun x => x.consume tokenHash now) (by simp)

def revoked (s : Tables) (familyId : Uuid) (now : Nat) : Tables :=
  s.update (fun x => x.revoke familyId now) (by simp)

def newSession (start identityId : Nat) (familyId : Uuid) (next : NewToken) : IdentitySession :=
  ⟨identityId, familyId, next.tokenHash, next.expiresAt, none, none, start⟩

/-- The family and start of the requests that revoke. -/
def Request.Revokes : Request → Uuid → Nat → Prop
  | .reuse start _ familyId, f, t | .logout start _ familyId, f, t => familyId = f ∧ start = t
  | .refresh .., _, _ | .signIn .., _, _ => False

/-- The token a request presents; a sign-in presents none. -/
def Request.Presents : Request → TokenHash → Prop
  | .refresh _ _ presented _, h | .reuse _ presented _, h | .logout _ presented _, h => presented = h
  | .signIn .., _ => False

inductive Commit : Request → Tables → Tables → Status → Prop
  | refused {start readAt presented next s} : Commit (.refresh start readAt presented next) s s .invalid
  | orphaned {start readAt presented next s x} : s.find presented = some x → x.live = true →
      x.createdAt ≤ start →
      Commit (.refresh start readAt presented next) s (consumed s presented start) .invalid
  | rotated {start readAt presented s x} {next : NewToken} : s.find presented = some x →
      x.live = true → x.createdAt ≤ start →
      (h : (consumed s presented start).find next.tokenHash = none) →
      Commit (.refresh start readAt presented next) s
        ((consumed s presented start).insert (newSession start x.identityId x.familyId next) h)
        (.pair next.tokenHash)
  | revoked {q familyId start s} : q.Revokes familyId start →
      (∀ x ∈ s.family familyId, x.revokedAt = none → x.createdAt ≤ start) →
      Commit q s (revoked s familyId start) .revoked
  | signedIn {start identityId familyId s} {next : NewToken} : s.family familyId = [] →
      (h : s.find next.tokenHash = none) →
      Commit (.signIn start (.found identityId) familyId next) s
        (s.insert (newSession start identityId familyId next) h) (.pair next.tokenHash)
  | signedUp {start identityId familyId s} {next : NewToken} : s.family familyId = [] →
      (h : (s.addIdentity identityId).find next.tokenHash = none) →
      Commit (.signIn start (.created identityId) familyId next) s
        ((s.addIdentity identityId).insert (newSession start identityId familyId next) h)
        (.pair next.tokenHash)

section
variable {hash : Uuid → Int} {b s s' : Tables} {start readAt identityId : Nat} {familyId : Uuid} {tokenHash : TokenHash}
  {next : NewToken}

theorem exec_lockFamily {u : Unit}
    (h : Exec isolation b (IdentitySessionRepository.lockFamily hash familyId) s s' (.ok u)) : s' = s := by
  have he := h.of_exec
  cases he
  rfl

theorem exec_freshFamily {u : Unit}
    (h : Exec isolation b (IdentitySessionRepository.freshFamily familyId) s s' (.ok u)) :
    s' = s ∧ s.family familyId = [] := by
  have he := h.of_exec
  split at he
  · rename_i hempty
    cases he
    exact ⟨rfl, by simpa using hempty⟩
  · cases he

theorem exec_createTokenPair {status : Status}
    (h : Exec isolation b (TokenService.createTokenPair start identityId familyId next) s s' (.ok status)) :
    status = .pair next.tokenHash ∧ ∃ hfree : s.find next.tokenHash = none,
      s' = s.insert (newSession start identityId familyId next) hfree := by
  obtain ⟨_, m, _, _, hc, hr⟩ := Exec.of_bind h
  cases hr
  obtain ⟨_, m, missing, _, hl, hf⟩ := Exec.of_bind hc
  obtain ⟨rfl, _⟩ := hl.of_look
  cases missing with
  | true => cases hf
  | false =>
    have he := hf.of_exec
    split at he
    · rename_i hfree
      split at he
      · cases he
        exact ⟨rfl, hfree, rfl⟩
      · cases he
    · cases he

theorem exec_consume {session : Option IdentitySessionConsumed}
    (h : Exec isolation b (IdentitySessionRepository.consume start readAt tokenHash familyId) s s'
      (.ok session)) :
    (session = none ∧ s' = s) ∨ ∃ x, session = some ⟨x.identityId, x.familyId⟩ ∧
      s.find tokenHash = some x ∧ x.live = true ∧ x.createdAt ≤ start ∧ s' = consumed s tokenHash start := by
  have he := h.of_exec
  cases hfind : s.find tokenHash with
  | none =>
    simp only [hfind] at he
    cases he
    exact Or.inl ⟨rfl, rfl⟩
  | some x =>
    simp only [hfind] at he
    split at he
    · rename_i hlive
      split at he
      · rename_i hcreated
        cases he
        rw [Bool.and_eq_true] at hlive
        exact Or.inr ⟨x, rfl, rfl, hlive.1, hcreated, rfl⟩
      · cases he
    · cases he
      exact Or.inl ⟨rfl, rfl⟩

theorem exec_revokeFamily {status : Status}
    (h : Exec isolation b (IdentityRefreshCommandHandler.revokeFamily hash start familyId) s s' (.ok status)) :
    status = .revoked ∧ s' = revoked s familyId start ∧
      ∀ x ∈ s.family familyId, x.revokedAt = none → x.createdAt ≤ start := by
  obtain ⟨_, m, _, _, hl, hf⟩ := Exec.of_bind h
  obtain rfl := exec_lockFamily hl
  obtain ⟨_, m', _, _, hu, hr⟩ := Exec.of_bind hf
  cases hr
  have he := hu.of_exec
  split at he
  · cases he
  · rename_i hno
    cases he
    refine ⟨rfl, rfl, fun x hx hnone => ?_⟩
    rw [Bool.not_eq_true, List.any_eq_false] at hno
    have hle := hno x hx
    simp only [hnone, Option.isNone_none, Bool.true_and, decide_eq_true_eq, Nat.not_lt] at hle
    exact hle

/-- Every serial execution of a handler that commits is one of the cases of `Commit`. -/
theorem commit_of_exec {q : Request} {status : Status}
    (h : Exec isolation b (handler hash q) s s' (.ok status)) : Commit q s s' status := by
  cases q with
  | refresh start readAt presented next =>
    obtain ⟨_, m, found, _, hl, hf⟩ := Exec.of_bind h
    obtain ⟨rfl, _⟩ := hl.of_look
    cases found with
    | none =>
      cases hf
      exact .refused
    | some x =>
      obtain ⟨_, m', _, _, hlock, hlocked⟩ := Exec.of_bind hf
      obtain rfl := exec_lockFamily hlock
      obtain ⟨_, m'', session, _, hc, hrest⟩ := Exec.of_bind hlocked
      rcases exec_consume hc with ⟨rfl, rfl⟩ | ⟨y, rfl, hfind, hlive, hcreated, rfl⟩
      · cases hrest
        exact .refused
      · obtain ⟨_, m₃, alive, _, hi, hissue⟩ := Exec.of_bind hrest
        obtain ⟨rfl, _⟩ := hi.of_look
        cases alive with
        | false =>
          cases hissue
          exact .orphaned hfind hlive hcreated
        | true =>
          obtain ⟨rfl, hfree, rfl⟩ := exec_createTokenPair hissue
          exact .rotated hfind hlive hcreated hfree
  | reuse start presented familyId =>
    obtain ⟨rfl, rfl, hall⟩ := exec_revokeFamily h
    exact .revoked ⟨rfl, rfl⟩ hall
  | logout start presented familyId =>
    obtain ⟨rfl, rfl, hall⟩ := exec_revokeFamily h
    exact .revoked ⟨rfl, rfl⟩ hall
  | signIn start who familyId next =>
    obtain ⟨_, m, _, _, hn, hf⟩ := Exec.of_bind h
    obtain ⟨rfl, hempty⟩ := exec_freshFamily hn
    cases who with
    | found identityId =>
      obtain ⟨_, m', alive, _, hi, hf⟩ := Exec.of_bind hf
      obtain ⟨rfl, _⟩ := hi.of_look
      cases alive with
      | false => cases hf
      | true =>
        obtain ⟨rfl, hfree, rfl⟩ := exec_createTokenPair hf
        exact .signedIn hempty hfree
    | created identityId =>
      obtain ⟨_, m', _, _, hi, hf⟩ := Exec.of_bind hf
      have he := hi.of_exec
      split at he
      · cases he
        obtain ⟨rfl, hfree, rfl⟩ := exec_createTokenPair hf
        exact .signedUp hempty hfree
      · cases he

end

end MarketplaceApi.Identity
