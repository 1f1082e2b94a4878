import MarketplaceApi.Identity.Commit

/-!
# Revoking a session family

A family that was revoked stays without a live session. Whether the revocation gets that far
is a matter of timestamps: `now()` is the start of its transaction, and a rotation that
started later but took the lock earlier leaves a session the CHECK does not let it revoke.
-/
namespace MarketplaceApi.Identity

open Txn Transition

/-- A family with sessions, none of which can be exchanged. -/
structure Closed (s : Tables) (familyId : Uuid) : Prop where
  nonempty : s.family familyId ≠ []
  dead : ∀ x ∈ s.family familyId, x.live = false

section
variable {hash : Uuid → Int} {s s' : Tables} {familyId f : Uuid} {q : Request} {status : Status}

theorem live_consume {x : IdentitySession} (h : x.live = false) (tokenHash : TokenHash) (now : Nat) :
    (x.consume tokenHash now).live = false := by
  unfold IdentitySession.consume
  split
  · rfl
  · exact h

theorem live_revoke (x : IdentitySession) (familyId : Uuid) (now : Nat) (h : x.familyId = familyId) :
    (x.revoke familyId now).live = false := by
  unfold IdentitySession.revoke IdentitySession.live
  cases hr : x.revokedAt with
  | none => simp [h]
  | some t => simp [hr]

theorem live_revoke_of_dead {x : IdentitySession} (h : x.live = false) (familyId : Uuid) (now : Nat) :
    (x.revoke familyId now).live = false := by
  unfold IdentitySession.revoke
  split
  · simp [IdentitySession.live]
  · exact h

theorem family_consumed (tokenHash : TokenHash) (now : Nat) : (consumed s tokenHash now).family f =
    (s.family f).map fun x => x.consume tokenHash now :=
  family_update _ _ fun x => (before_consume x _ _).familyId

theorem family_revoked (now : Nat) : (revoked s familyId now).family f =
    (s.family f).map fun x => x.revoke familyId now :=
  family_update _ _ fun x => (before_revoke x _ _).familyId

theorem Closed.consumed (h : Closed s f) (tokenHash : TokenHash) (now : Nat) :
    Closed (consumed s tokenHash now) f where
  nonempty := by
    rw [family_consumed]
    simpa using h.nonempty
  dead x hx := by
    rw [family_consumed] at hx
    obtain ⟨y, hy, rfl⟩ := List.mem_map.mp hx
    exact live_consume (h.dead y hy) _ _

theorem Closed.insert (h : Closed s f) {x : IdentitySession} (hx : s.find x.tokenHash = none)
    (hf : x.familyId ≠ f) : Closed (s.insert x hx) f where
  nonempty := by
    rw [family_insert, if_neg hf]
    exact h.nonempty
  dead y hy := by
    rw [family_insert, if_neg hf] at hy
    exact h.dead y hy

/-- No request brings a closed family back. -/
theorem Closed.commit (h : Closed s f) (hc : Commit q s s' status) : Closed s' f := by
  cases hc with
  | refused => exact h
  | orphaned _ _ _ => exact h.consumed _ _
  | @rotated start readAt presented _ x next hfind hlive hcreated hfree =>
    refine (h.consumed presented start).insert hfree fun hf => ?_
    have hdead := h.dead x (mem_family.mpr ⟨(find_mem hfind).1, hf⟩)
    rw [hlive] at hdead
    cases hdead
  | @revoked _ familyId start _ _ _ =>
    refine ⟨?_, fun x hx => ?_⟩
    · rw [family_revoked]
      simpa using h.nonempty
    · rw [family_revoked] at hx
      obtain ⟨y, hy, rfl⟩ := List.mem_map.mp hx
      exact live_revoke_of_dead (h.dead y hy) _ _
  | signedIn hempty hfree =>
    exact h.insert hfree fun hf => h.nonempty (hf ▸ hempty)
  | @signedUp _ identityId _ _ _ hempty hfree =>
    have ha : Closed (s.addIdentity identityId) f := ⟨h.nonempty, h.dead⟩
    exact ha.insert hfree fun hf => h.nonempty (hf ▸ hempty)

theorem Request.Revokes.eq {f g : Uuid} {now now' : Nat} (h : q.Revokes f now)
    (h' : q.Revokes g now') : g = f ∧ now' = now := by
  cases q with
  | reuse t presented k => exact ⟨h'.1.symm.trans h.1, h'.2.symm.trans h.2⟩
  | logout t presented k => exact ⟨h'.1.symm.trans h.1, h'.2.symm.trans h.2⟩
  | refresh _ _ _ _ => exact h.elim
  | signIn _ _ _ _ => exact h.elim

theorem commit_of_revokes {now : Nat} (hq : q.Revokes f now) (hc : Commit q s s' status) :
    s' = revoked s f now ∧ ∀ x ∈ s.family f, x.revokedAt = none → x.createdAt ≤ now := by
  cases hc with
  | refused => exact hq.elim
  | orphaned _ _ _ => exact hq.elim
  | rotated _ _ _ _ => exact hq.elim
  | revoked hq' hall =>
    obtain ⟨rfl, rfl⟩ := hq.eq hq'
    exact ⟨rfl, hall⟩
  | signedIn _ _ => exact hq.elim
  | signedUp _ _ => exact hq.elim

/-- A revocation that commits closes its family. -/
theorem closed_of_revoke {now : Nat} (hne : s.family f ≠ []) (hq : q.Revokes f now)
    (hc : Commit q s s' status) : Closed s' f := by
  obtain ⟨rfl, _⟩ := commit_of_revokes hq hc
  refine ⟨?_, fun x hx => ?_⟩
  · rw [family_revoked]
    simpa using hne
  · rw [family_revoked] at hx
    obtain ⟨y, hy, rfl⟩ := List.mem_map.mp hx
    exact live_revoke y _ _ (mem_family.mp hy).2

/-- What a revocation may begin with: the session its token was found to name. -/
theorem Allowed.presented {now : Nat} {b : Tables} (ha : Allowed b q) (hq : q.Revokes f now) :
    ∃ x ∈ b.sessions, x.familyId = f ∧ ∀ h, q.Presents h → x.tokenHash = h := by
  cases q with
  | reuse t presented g =>
    obtain ⟨_, x, hx, ht, hf, _⟩ := ha
    exact ⟨x, hx, hf.trans hq.1, fun _ h => ht.trans h⟩
  | logout t presented g =>
    obtain ⟨_, x, hx, ht, hf⟩ := ha
    exact ⟨x, hx, hf.trans hq.1, fun _ h => ht.trans h⟩
  | refresh _ _ _ _ => exact hq.elim
  | signIn _ _ _ _ => exact hq.elim

theorem Allowed.family_ne_nil {now : Nat} {b : Tables} (ha : Allowed b q) (hq : q.Revokes f now)
    (hle : isolation.le b s) : s.family f ≠ [] := by
  obtain ⟨x, hx, hf, _⟩ := ha.presented hq
  obtain ⟨y, hy, hxy⟩ := hle.2.2 x hx
  exact List.ne_nil_of_mem (mem_family.mpr ⟨hy, hxy.familyId.trans hf⟩)

end

section
variable {hash : Uuid → Int} {s : Tables} {c c' : Config Lock Tables Failure Status Request} {ev : Event Request}
  {tr : List (Config Lock Tables Failure Status Request × Event Request)}

theorem closed_run (hr : Run (Step (system hash)) (Config.start s) tr c) : ∀ q status f now,
    q.Revokes f now → (q, .ok status) ∈ c.answers → Closed c.db f := by
  refine run_serial_invariant (Y := system hash) (J := fun u as => ∀ q status f now,
    q.Revokes f now → (q, .ok status) ∈ as → Closed u f) (fun _ _ _ _ _ h => nomatch h) ?_ ?_ ?_ hr
  · intro q b u u' as r hu ha hle he q' status f now hq hin
    have hc := commit_of_exec he
    rcases List.mem_cons.mp hin with e | hin
    · cases e
      exact closed_of_revoke (ha.family_ne_nil hq hle) hq hc
    · exact (hu q' status f now hq hin).commit hc
  · intro q b u m as e hu _ _ _ q' status f now hq hin
    rcases List.mem_cons.mp hin with e | hin
    · cases e
    · exact hu q' status f now hq hin
  · intro u u' as hu henv q status f now hq hin
    have hc := hu q status f now hq hin
    have hf : u'.family f = u.family f := by unfold Tables.family; rw [henv.2.1]
    exact ⟨hf ▸ hc.nonempty, hf ▸ hc.dead⟩

/-- One identity with one login at time 0: family 5, token 10. -/
def loggedIn : Tables where
  identities id := if id = 1 then some false else none
  sessions := [newSession 0 1 5 ⟨10, 100⟩]
  clock := 0
  tokenHash_unique := by decide

/-- No two families share a lock. -/
def plainHash (familyId : Uuid) : Int := familyId

end

end MarketplaceApi.Identity
