import MarketplaceApi.Identity.Revocation

/-!
# One live token per login

Every writer of `IdentitySession` keeps at most one live session in a family: a rotation
replaces the live one, a revocation removes it, a sign-in starts a family of its own.
-/
namespace MarketplaceApi.Identity

open Txn Transition

/-- A family has at most one session that is neither used nor revoked. -/
def OneLive (s : Tables) : Prop :=
  ∀ x ∈ s.sessions, ∀ y ∈ s.sessions, x.familyId = y.familyId → x.live = true → y.live = true → x = y

section
variable {hash : Uuid → Int} {s s' : Tables} {x : IdentitySession} {q : Request} {status : Status}

theorem eq_of_live_consume {tokenHash : TokenHash} {now : Nat}
    (h : (x.consume tokenHash now).live = true) :
    x.consume tokenHash now = x ∧ x.live = true ∧ x.tokenHash ≠ tokenHash := by
  unfold IdentitySession.consume at h ⊢
  by_cases he : x.tokenHash = tokenHash
  · rw [if_pos he] at h
    cases h
  · rw [if_neg he] at h ⊢
    exact ⟨rfl, h, he⟩

theorem eq_of_live_revoke {familyId : Uuid} {now : Nat} (h : (x.revoke familyId now).live = true) :
    x.revoke familyId now = x ∧ x.live = true := by
  unfold IdentitySession.revoke at h ⊢
  split at h
  · simp [IdentitySession.live] at h
  · rename_i hno
    rw [if_neg hno]
    exact ⟨rfl, h⟩

theorem OneLive.consumed (h : OneLive s) (tokenHash : TokenHash) (now : Nat) :
    OneLive (consumed s tokenHash now) := by
  intro x' hx' y' hy' hf hx hy
  obtain ⟨x, hmx, rfl⟩ := List.mem_map.mp hx'
  obtain ⟨y, hmy, rfl⟩ := List.mem_map.mp hy'
  obtain ⟨ex, lx, _⟩ := eq_of_live_consume hx
  obtain ⟨ey, ly, _⟩ := eq_of_live_consume hy
  rw [ex, ey] at hf ⊢
  exact h x hmx y hmy hf lx ly

theorem OneLive.revoked (h : OneLive s) (familyId : Uuid) (now : Nat) :
    OneLive (revoked s familyId now) := by
  intro x' hx' y' hy' hf hx hy
  obtain ⟨x, hmx, rfl⟩ := List.mem_map.mp hx'
  obtain ⟨y, hmy, rfl⟩ := List.mem_map.mp hy'
  obtain ⟨ex, lx⟩ := eq_of_live_revoke hx
  obtain ⟨ey, ly⟩ := eq_of_live_revoke hy
  rw [ex, ey] at hf ⊢
  exact h x hmx y hmy hf lx ly

/-- A session may join a family that has no live one. -/
theorem OneLive.insert (h : OneLive s) (hfree : s.find x.tokenHash = none)
    (hnone : ∀ y ∈ s.sessions, y.familyId = x.familyId → y.live = false) : OneLive (s.insert x hfree) := by
  intro y hy z hz hf ly lz
  have hy' : y = x ∨ y ∈ s.sessions := List.mem_cons.mp hy
  have hz' : z = x ∨ z ∈ s.sessions := List.mem_cons.mp hz
  rcases hy' with ey | hy'
  · rcases hz' with ez | hz'
    · rw [ey, ez]
    · rw [hnone z hz' (by rw [← hf, ey])] at lz
      cases lz
  · rcases hz' with ez | hz'
    · rw [hnone y hy' (by rw [hf, ez])] at ly
      cases ly
    · exact h y hy' z hz' hf ly lz

/-- Consuming the live session of a family leaves none. -/
theorem no_live_consumed (h : OneLive s) (hx : x ∈ s.sessions) (hlive : x.live = true) (now : Nat) :
    ∀ y ∈ (consumed s x.tokenHash now).sessions, y.familyId = x.familyId → y.live = false := by
  intro y' hy' hf
  obtain ⟨y, hy, rfl⟩ := List.mem_map.mp hy'
  by_contra hl
  rw [Bool.not_eq_false] at hl
  obtain ⟨he, ly, hne⟩ := eq_of_live_consume hl
  rw [he] at hf
  exact hne (by rw [h y hy x hx hf ly hlive])

theorem OneLive.commit (h : OneLive s) (hc : Commit q s s' status) : OneLive s' := by
  cases hc with
  | refused => exact h
  | orphaned _ _ _ => exact h.consumed _ _
  | rotated hfind hlive _ hfree =>
    obtain ⟨hx, rfl⟩ := find_mem hfind
    exact (h.consumed _ _).insert hfree (no_live_consumed h hx hlive _)
  | revoked _ _ => exact h.revoked _ _
  | signedIn hempty hfree =>
    exact h.insert hfree fun y hy hf => absurd (mem_family.mpr ⟨hy, hf⟩) (hempty ▸ List.not_mem_nil)
  | @signedUp _ identityId _ _ _ hempty hfree =>
    have ha : OneLive (s.addIdentity identityId) := h
    exact ha.insert hfree fun y hy hf => absurd (mem_family.mpr ⟨hy, hf⟩) (hempty ▸ List.not_mem_nil)

end

/-- `h` was exchanged: a refresh that presented it was answered with a pair. -/
def exchanges (h : TokenHash) : Request × Except Failure Status → Bool
  | (.refresh _ _ presented _, .ok (.pair _)) => presented = h
  | _ => false

/-- `s'` comes from `s` by consuming the live session `y`, and no other, and inserting `x` after it. -/
structure Replaces (s s' : Tables) (y x : IdentitySession) : Prop where
  mem : y ∈ s.sessions
  live : y.live = true
  family : y.familyId = x.familyId
  identity : y.identityId = x.identityId
  earlier : y.createdAt ≤ x.createdAt
  sessions : s'.sessions = x :: s.sessions.map fun z => z.consume y.tokenHash x.createdAt

/-- Every session a step inserts is the first of its family or replaces one of the family. -/
def Lineage (s s' : Tables) : Prop :=
  ∀ x ∈ s'.sessions, s.find x.tokenHash = none → s.family x.familyId = [] ∨ ∃ y, Replaces s s' y x

/-- A request that presents an exchanged token gets no pair and changes its own family at most. -/
def SpentHarmless (c : Config Lock Tables Failure Status Request) (ev : Event Request)
    (c' : Config Lock Tables Failure Status Request) : Prop :=
  ∀ i t h, ev = .commit i ∨ ev = .rollback i → c.txs i = some t → t.request.Presents h →
    c.answers.any (exchanges h) →
    (∀ token, c'.answers ≠ (t.request, .ok (.pair token)) :: c.answers) ∧
    ∃ x ∈ c.db.sessions, x.tokenHash = h ∧ ∀ f, f ≠ x.familyId → c'.db.family f = c.db.family f

/-- What the rotation keeps: exchanged tokens are marked used, and none is exchanged twice. -/
structure Rotating (s : Tables) (as : List (Request × Except Failure Status)) : Prop where
  oneLive : OneLive s
  spent : ∀ h, as.any (exchanges h) → ∃ x ∈ s.sessions, x.tokenHash = h ∧ x.usedAt.isSome
  once : ∀ h, as.countP (exchanges h) ≤ 1

section
variable {hash : Uuid → Int} {s s' : Tables} {as : List (Request × Except Failure Status)} {q : Request}
  {status : Status} {h : TokenHash}

/-- A commit keeps every row, up to its two timestamps. -/
theorem before_commit (hc : Commit q s s' status) {x : IdentitySession} (hx : x ∈ s.sessions) :
    ∃ y ∈ s'.sessions, Before x y := by
  cases hc with
  | refused => exact ⟨x, hx, .refl x⟩
  | orphaned _ _ _ => exact ⟨_, List.mem_map_of_mem hx, before_consume x _ _⟩
  | rotated _ _ _ _ =>
    exact ⟨_, List.mem_cons_of_mem _ (List.mem_map_of_mem hx), before_consume x _ _⟩
  | revoked _ _ => exact ⟨_, List.mem_map_of_mem hx, before_revoke x _ _⟩
  | signedIn _ _ => exact ⟨x, List.mem_cons_of_mem _ hx, .refl x⟩
  | signedUp _ _ => exact ⟨x, List.mem_cons_of_mem _ hx, .refl x⟩

/-- Only a rotation exchanges, and it finds its token live. -/
theorem exchange_of_commit (hc : Commit q s s' status) (he : exchanges h (q, .ok status) = true) :
    (∃ x ∈ s.sessions, x.tokenHash = h ∧ x.live = true) ∧
      ∃ x ∈ s'.sessions, x.tokenHash = h ∧ x.usedAt.isSome := by
  cases hc with
  | refused => cases he
  | orphaned _ _ _ => cases he
  | @rotated start _ _ _ x _ hfind hlive _ _ =>
    have hp := of_decide_eq_true he
    subst hp
    obtain ⟨hx, ht⟩ := find_mem hfind
    refine ⟨⟨x, hx, ht, hlive⟩, _, List.mem_cons_of_mem _ (List.mem_map_of_mem hx), ?_, ?_⟩
    · rw [consume_tokenHash, ht]
    · rw [IdentitySession.consume, if_pos ht]
      rfl
  | revoked hq _ =>
    cases q with
    | refresh _ _ _ _ => exact hq.elim
    | reuse _ _ _ => cases he
    | logout _ _ _ => cases he
    | signIn _ _ _ _ => cases he
  | signedIn _ _ => cases he
  | signedUp _ _ => cases he

theorem live_of_usedAt {x : IdentitySession} (hu : x.usedAt.isSome) : x.live = false := by
  cases hx : x.usedAt with
  | none => rw [hx] at hu; cases hu
  | some t => simp [IdentitySession.live, hx]

/-- A token that is spent is not exchanged again. -/
theorem Rotating.not_exchanged (hj : Rotating s as) (hc : Commit q s s' status)
    (he : exchanges h (q, .ok status) = true) : as.any (exchanges h) = false := by
  by_contra hany
  rw [Bool.not_eq_false] at hany
  obtain ⟨x, hx, ht, hu⟩ := hj.spent h hany
  obtain ⟨⟨y, hy, ht', hlive⟩, _⟩ := exchange_of_commit hc he
  rw [eq_of_tokenHash hy hx (ht'.trans ht.symm), live_of_usedAt hu] at hlive
  cases hlive

theorem Rotating.commit (hj : Rotating s as) (hc : Commit q s s' status) :
    Rotating s' ((q, .ok status) :: as) where
  oneLive := hj.oneLive.commit hc
  spent h hany := by
    rw [List.any_cons, Bool.or_eq_true] at hany
    rcases hany with he | hany
    · exact (exchange_of_commit hc he).2
    · obtain ⟨x, hx, ht, hu⟩ := hj.spent h hany
      obtain ⟨y, hy, hxy⟩ := before_commit hc hx
      exact ⟨y, hy, hxy.tokenHash.trans ht, hxy.usedAt hu⟩
  once h := by
    rw [List.countP_cons]
    by_cases he : exchanges h (q, .ok status) = true
    · have hnone := hj.not_exchanged hc he
      have hzero : as.countP (exchanges h) = 0 := by
        rw [List.countP_eq_zero]
        simpa using hnone
      simp [hzero, he]
    · rw [if_neg he]
      exact hj.once h

theorem Rotating.fail (hj : Rotating s as) {e : Failure} : Rotating s ((q, .error e) :: as) := by
  have hno : ∀ h, exchanges h (q, .error e) = false := fun h => by cases q <;> rfl
  refine ⟨hj.oneLive, fun h hany => hj.spent h ?_, fun h => ?_⟩
  · rwa [List.any_cons, hno h, Bool.false_or] at hany
  · rw [List.countP_cons, hno h]
    exact hj.once h

theorem Rotating.env (hj : Rotating s as) (he : Env s s') : Rotating s' as where
  oneLive := by unfold OneLive; rw [he.2.1]; exact hj.oneLive
  spent := by rw [he.2.1]; exact hj.spent
  once := hj.once

/-- What a commit inserts starts its family or replaces the session it consumed. -/
theorem lineage_commit (hc : Commit q s s' status) : Lineage s s' := by
  have kept : ∀ {x : IdentitySession}, x ∈ s.sessions → s.find x.tokenHash ≠ none :=
    fun hx hnone => find_eq_none hnone hx rfl
  intro x hx hnew
  cases hc with
  | refused => exact absurd hnew (kept hx)
  | orphaned _ _ _ =>
    obtain ⟨y, hy, rfl⟩ := List.mem_map.mp hx
    rw [consume_tokenHash] at hnew
    exact absurd hnew (kept hy)
  | rotated hfind hlive hcreated _ =>
    have hx' := List.mem_cons.mp hx
    rcases hx' with rfl | hx'
    · obtain ⟨hy, rfl⟩ := find_mem hfind
      exact Or.inr ⟨_, hy, hlive, rfl, rfl, hcreated, rfl⟩
    · obtain ⟨y, hy, rfl⟩ := List.mem_map.mp hx'
      rw [consume_tokenHash] at hnew
      exact absurd hnew (kept hy)
  | revoked _ _ =>
    obtain ⟨y, hy, rfl⟩ := List.mem_map.mp hx
    rw [revoke_tokenHash] at hnew
    exact absurd hnew (kept hy)
  | signedIn hempty _ =>
    have hx' := List.mem_cons.mp hx
    rcases hx' with rfl | hx'
    · exact Or.inl hempty
    · exact absurd hnew (kept hx')
  | signedUp hempty _ =>
    have hx' := List.mem_cons.mp hx
    rcases hx' with rfl | hx'
    · exact Or.inl hempty
    · exact absurd hnew (kept hx')

/-- A revocation of the family its presented token was found in. -/
theorem presented_family {b : Tables} {x : IdentitySession} {g : Uuid} {now : Nat} (ha : Allowed b q)
    (hr : q.Revokes g now) (hq : q.Presents x.tokenHash) (hle : isolation.le b s) (hx : x ∈ s.sessions) :
    x.familyId = g := by
  obtain ⟨y, hy, hf, ht⟩ := ha.presented hr
  exact (family_known hy hle hx (ht x.tokenHash hq).symm).trans hf

/-- With a session that is not live, no request gets a pair or leaves the session's family. -/
theorem harmless_commit {b : Tables} {x : IdentitySession} (hx : x ∈ s.sessions) (hdead : x.live = false)
    (hq : q.Presents x.tokenHash) (ha : Allowed b q) (hle : isolation.le b s)
    (hc : Commit q s s' status) :
    (∀ token, status ≠ .pair token) ∧ ∀ f, f ≠ x.familyId → s'.family f = s.family f := by
  have nolive : ∀ {y}, s.find x.tokenHash = some y → y.live ≠ true := by
    intro y hy hlive
    obtain ⟨hy, ht⟩ := find_mem hy
    rw [eq_of_tokenHash hy hx ht, hdead] at hlive
    cases hlive
  cases hc with
  | refused => exact ⟨nofun, fun _ _ => rfl⟩
  | orphaned hfind hlive _ =>
    obtain rfl := hq
    exact absurd hlive (nolive hfind)
  | rotated hfind hlive _ _ =>
    obtain rfl := hq
    exact absurd hlive (nolive hfind)
  | @revoked _ g now _ hr _ =>
    refine ⟨nofun, fun f hf => ?_⟩
    have hg := presented_family ha hr hq hle hx
    rw [family_revoked]
    refine (List.map_congr_left fun y hy => ?_).trans (List.map_id _)
    have hne : y.familyId ≠ g := by rwa [(mem_family.mp hy).2, ← hg]
    rw [IdentitySession.revoke, if_neg (fun h => hne h.1)]
    rfl
  | signedIn _ _ => exact hq.elim
  | signedUp _ _ => exact hq.elim

end

section
variable {hash : Uuid → Int} {s : Tables} {c c' : Config Lock Tables Failure Status Request} {ev : Event Request}
  {tr : List (Config Lock Tables Failure Status Request × Event Request)}

theorem rotating_run (h₀ : s.sessions = []) (hr : Run (Step (system hash)) (Config.start s) tr c) :
    Rotating c.db c.answers := by
  refine run_serial_invariant (Y := system hash) (J := Rotating) ?_ ?_ ?_ ?_ hr
  · refine ⟨?_, nofun, fun h => Nat.zero_le _⟩
    unfold OneLive
    rw [h₀]
    exact nofun
  · intro q b u u' as r hj _ _ he
    exact hj.commit (commit_of_exec he)
  · intro q b u m as e hj _ _ _
    exact hj.fail
  · intro u u' as hj he
    exact hj.env he

theorem lineage_env {s' : Tables} (hs : s'.sessions = s.sessions) : Lineage s s' := by
  intro x hx hnone
  rw [hs] at hx
  exact absurd rfl (find_eq_none hnone hx)

theorem lineage_step (hr : Run (Step (system hash)) (Config.start s) tr c) (hs : Step (system hash) c ev c') :
    Lineage c.db c'.db := by
  rcases hs.moves (coherent_run hr) with ⟨_, hsame | henv⟩ | ⟨i, t, b, r, _, _, _, he⟩
  · exact lineage_env (by rw [hsame])
  · exact lineage_env henv.2.1
  · exact lineage_commit (commit_of_exec he)

theorem spentHarmless_step (h₀ : s.sessions = []) (hr : Run (Step (system hash)) (Config.start s) tr c)
    (hs : Step (system hash) c ev c') : SpentHarmless c ev c' := by
  intro i u h hev hu hq hany
  obtain ⟨x, hx, rfl, hused⟩ := (rotating_run h₀ hr).spent h hany
  rcases hs.serial (coherent_run hr) with ⟨_, _, hno⟩ | ⟨j, t, b, r, rfl, hj, ha, hle, he, has⟩ |
    ⟨j, t, b, m, e, rfl, hj, _, _, _, hd, has⟩ | ⟨rfl, _, _⟩
  · exact absurd hev (not_or.mpr (hno i))
  · obtain rfl : j = i := by simpa using hev
    rw [hu] at hj
    cases hj
    obtain ⟨hpair, hframe⟩ :=
      harmless_commit hx (live_of_usedAt hused) hq ha hle (commit_of_exec he)
    refine ⟨fun token heq => hpair token ?_, x, hx, rfl, hframe⟩
    rw [has] at heq
    simpa using heq
  · obtain rfl : j = i := by simpa using hev
    rw [hu] at hj
    cases hj
    refine ⟨fun token heq => ?_, x, hx, rfl, fun f _ => by rw [hd]⟩
    rw [has] at heq
    simp at heq
  · simp at hev

/-- In every reachable state a family has one live session at most and no token was exchanged
twice; every step inserts sessions by rotation only, and presenting a spent token is harmless. -/
theorem one_live_token (h₀ : s.sessions = []) (hr : Run (Step (system hash)) (Config.start s) tr c) :
    OneLive c.db ∧ (∀ h, c.answers.countP (exchanges h) ≤ 1) ∧
      ∀ ev c', Step (system hash) c ev c' → Lineage c.db c'.db ∧ SpentHarmless c ev c' := by
  have hj := rotating_run h₀ hr
  refine ⟨hj.oneLive, hj.once, fun ev c' hs => ?_⟩
  exact ⟨lineage_step hr hs, spentHarmless_step h₀ hr hs⟩

/-- Identity 1 exists and has never signed in. -/
def signedOut : Tables where
  identities id := if id = 1 then some false else none
  sessions := []
  clock := 0
  tokenHash_unique := List.nodup_nil

def signedInOnce : Tables := signedOut.insert (newSession 0 1 5 ⟨10, 100⟩) rfl

def rotatedOnce : Tables := (consumed signedInOnce 10 0).insert (newSession 0 1 5 ⟨11, 100⟩) rfl

/-- Identity 1 signs in and presents its first token twice. -/
theorem one_live_token_presented_twice : ∃ tr c, Run (Step (system plainHash)) (Config.start signedOut) tr c ∧
    c.answers.map Prod.snd = [.ok .invalid, .ok (.pair 11), .ok (.pair 10)] ∧ OneLive c.db := by
  obtain ⟨_, hlogin⟩ := process_idle (Y := system plainHash) (.signIn 0 (.found 1) 5 ⟨10, 100⟩) signedOut []
    rfl rfl
  obtain ⟨_, hfirst⟩ := process_idle (Y := system plainHash) (.refresh 0 0 10 ⟨11, 100⟩) signedInOnce _
    rfl rfl
  obtain ⟨_, hsecond⟩ := process_idle (Y := system plainHash) (.refresh 0 0 10 ⟨12, 100⟩) rotatedOnce _
    rfl rfl
  have hrun := (hlogin.append hfirst).append hsecond
  exact ⟨_, _, hrun, rfl, (one_live_token (s := signedOut) rfl hrun).1⟩

end

end MarketplaceApi.Identity
