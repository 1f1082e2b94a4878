import Mathlib.Tactic.Common
import MarketplaceApi.Vault.Service

/-!
# The memoised session

What `ready` hands to the callers of `get`. While the session is not a rejected promise, every
promise a call waits for was still good when the call started, so a call never throws for a
failure that is older than itself.
-/
namespace MarketplaceApi.Vault

open Transition

/-- A login or read that a failed call has waited for failed after the call started. -/
def Call.Blames (s : SecretManagerService) (call : Call) : Prop :=
  (∃ login ∈ call.logins, ∃ t, s.logins login = .rejected t ∧ call.startedAt < t) ∨
    ∃ t ∈ call.failedReads, call.startedAt < t

def Honest (s : SecretManagerService) : Prop :=
  ∀ i call, s.calls i = some call → call.phase = .thrown → call.Blames s

/-- The login that fails is not the memoised session. -/
def SessionKept (s : SecretManagerService) (ev : Event) : Prop :=
  ∀ login, ev = .login login false → s.session ≠ some login

/-- The memoised session is not a rejected promise, and no call waits for one that was rejected
before the call started. -/
structure Unbroken (s : SecretManagerService) : Prop where
  issued : ∀ login t, s.logins login = .rejected t → login < s.issued
  session : ∀ login, s.session = some login → login < s.issued ∧ ∀ t, s.logins login ≠ .rejected t
  started : ∀ i call, s.calls i = some call → call.startedAt < s.now
  waiting : ∀ i call attempt login, s.calls i = some call → call.phase = .waiting attempt login →
    login ∈ call.logins ∧ login < s.issued ∧ ∀ t, s.logins login = .rejected t → call.startedAt < t
  honest : Honest s
  spare : ∃ n, ∀ i, n ≤ i → s.calls i = none

section
variable {stored : SecretName → String} {s s' : SecretManagerService} {ev : Event} {i : Nat} {call : Call}
  {name : SecretName}

theorem put_self (s : SecretManagerService) (i : Nat) (call : Call) : (s.put i call).calls i = some call :=
  Function.update_self ..

theorem put_other {j : Nat} (h : j ≠ i) : (s.put i call).calls j = s.calls j := Function.update_of_ne h ..

/-- `ready` returns the session there is, or makes one. -/
theorem ready_cases (s : SecretManagerService) :
    (∃ login, s.session = some login ∧ s.ready = (s, login)) ∨
    (s.session = none ∧ s.ready = ({ s with
      session := some s.issued
      logins := Function.update s.logins s.issued .pending
      issued := s.issued + 1 }, s.issued)) := by
  unfold SecretManagerService.ready
  cases h : s.session with
  | none => exact Or.inr ⟨rfl, rfl⟩
  | some login => exact Or.inl ⟨login, rfl, rfl⟩

@[simp] theorem ready_calls (s : SecretManagerService) : s.ready.1.calls = s.calls := by
  rcases ready_cases s with ⟨login, _, heq⟩ | ⟨_, heq⟩
  · rw [heq]
  · rw [heq]

@[simp] theorem ready_now (s : SecretManagerService) : s.ready.1.now = s.now := by
  rcases ready_cases s with ⟨login, _, heq⟩ | ⟨_, heq⟩
  · rw [heq]
  · rw [heq]

@[simp] theorem ready_authenticated (s : SecretManagerService) : s.ready.1.authenticated = s.authenticated := by
  rcases ready_cases s with ⟨login, _, heq⟩ | ⟨_, heq⟩
  · rw [heq]
  · rw [heq]

/-- `ready` leaves the promises there are as they are. -/
theorem ready_logins (s : SecretManagerService) {login : Nat} (h : login < s.issued) :
    s.ready.1.logins login = s.logins login ∧ login < s.ready.1.issued := by
  rcases ready_cases s with ⟨_, _, heq⟩ | ⟨_, heq⟩
  · rw [heq]
    exact ⟨rfl, h⟩
  · rw [heq]
    refine ⟨Function.update_of_ne (Nat.ne_of_lt h) .., ?_⟩
    show login < s.issued + 1
    omega

/-- The promise that `ready` returns is not a rejected one. -/
theorem Unbroken.ready_waits (h : Unbroken s) : s.ready.2 < s.ready.1.issued ∧
    ∀ t, s.ready.1.logins s.ready.2 ≠ .rejected t := by
  rcases ready_cases s with ⟨login, hsession, heq⟩ | ⟨_, heq⟩
  · rw [heq]
    exact h.session login hsession
  · rw [heq]
    refine ⟨Nat.lt_succ_self _, fun t => ?_⟩
    show Function.update s.logins s.issued .pending s.issued ≠ _
    rw [Function.update_self]
    simp

theorem Call.Blames.mono (h : call.Blames s)
    (hkept : ∀ login t, s.logins login = .rejected t → s'.logins login = .rejected t) : call.Blames s' := by
  rcases h with ⟨login, hin, t, hrejected, hlt⟩ | hread
  · exact Or.inl ⟨login, hin, t, hkept login t hrejected, hlt⟩
  · exact Or.inr hread

theorem Unbroken.ready_rejected (h : Unbroken s) {login t : Nat} :
    s.ready.1.logins login = .rejected t ↔ s.logins login = .rejected t := by
  constructor
  · intro hrejected
    rcases ready_cases s with ⟨_, _, heq⟩ | ⟨_, heq⟩
    · rwa [heq] at hrejected
    · rw [heq] at hrejected
      change Function.update s.logins s.issued .pending login = _ at hrejected
      by_cases hl : login = s.issued
      · subst hl
        rw [Function.update_self] at hrejected
        cases hrejected
      · rwa [Function.update_of_ne hl] at hrejected
  · intro hrejected
    rw [(ready_logins s (h.issued _ _ hrejected)).1]
    exact hrejected

theorem Unbroken.ready (h : Unbroken s) : Unbroken s.ready.1 where
  issued login t hrejected := (ready_logins s (h.issued _ _ (h.ready_rejected.mp hrejected))).2
  session login hsession := by
    have hlogin : login = s.ready.2 := by
      rcases ready_cases s with ⟨old, hold, heq⟩ | ⟨_, heq⟩
      · rw [heq] at hsession ⊢
        rw [hold] at hsession
        exact (Option.some.inj hsession).symm
      · rw [heq] at hsession ⊢
        exact (Option.some.inj hsession).symm
    rw [hlogin]
    exact h.ready_waits
  started := by
    rw [ready_calls, ready_now]
    exact h.started
  waiting j c attempt login hc hphase := by
    rw [ready_calls] at hc
    obtain ⟨hin, hlt, hafter⟩ := h.waiting j c attempt login hc hphase
    exact ⟨hin, (ready_logins s hlt).2, fun t hrejected => hafter t (h.ready_rejected.mp hrejected)⟩
  honest j c hc hphase := by
    rw [ready_calls] at hc
    exact (h.honest j c hc hphase).mono fun _ _ hrejected => h.ready_rejected.mpr hrejected
  spare := by
    rw [ready_calls]
    exact h.spare

/-- A call goes on: what it waits for was not rejected before it started, and if it throws
there is something to blame. -/
theorem Unbroken.put (h : Unbroken s) (i : Nat) (hstarted : call.startedAt ≤ s.now)
    (hwaiting : ∀ attempt login, call.phase = .waiting attempt login →
      login ∈ call.logins ∧ login < s.issued ∧ ∀ t, s.logins login = .rejected t → call.startedAt < t)
    (hhonest : call.phase = .thrown → call.Blames s) : Unbroken (s.put i call) where
  issued := h.issued
  session := h.session
  started j c hc := by
    show c.startedAt < s.now + 1
    by_cases hj : j = i
    · subst hj
      rw [put_self] at hc
      cases hc
      omega
    · rw [put_other hj] at hc
      have hold := h.started j c hc
      omega
  waiting j c attempt login hc hphase := by
    by_cases hj : j = i
    · subst hj
      rw [put_self] at hc
      cases hc
      exact hwaiting attempt login hphase
    · rw [put_other hj] at hc
      exact h.waiting j c attempt login hc hphase
  honest j c hc hphase := by
    by_cases hj : j = i
    · subst hj
      rw [put_self] at hc
      cases hc
      exact hhonest hphase
    · rw [put_other hj] at hc
      exact h.honest j c hc hphase
  spare := by
    obtain ⟨n, hn⟩ := h.spare
    refine ⟨max n (i + 1), fun j hj => ?_⟩
    have hne : j ≠ i := by omega
    rw [put_other hne]
    exact hn j (by omega)

theorem unbroken_start : Unbroken .start where
  issued := nofun
  session := nofun
  started := nofun
  waiting := nofun
  honest := nofun
  spare := ⟨0, fun _ _ => rfl⟩

theorem Unbroken.get (h : Unbroken s) (i : Nat) (name : SecretName) : Unbroken (s.get i name) := by
  obtain ⟨hlt, hunbroken⟩ := h.ready_waits
  unfold SecretManagerService.get
  apply h.ready.put i
  · exact Nat.le_of_eq (ready_now s).symm
  · intro attempt login hphase
    cases hphase
    exact ⟨List.mem_singleton_self _, hlt, fun t hrejected => absurd hrejected (hunbroken t)⟩
  · intro hphase
    cases hphase

theorem Unbroken.settle (h : Unbroken s) {login : Nat} {ok : Bool} (hlt : login < s.issued)
    (hpending : s.logins login = .pending) (hkept : ok = false → s.session ≠ some login) :
    Unbroken (s.settle login ok) := by
  have hrejected : ∀ other t, (s.settle login ok).logins other = .rejected t →
      (other = login ∧ t = s.now ∧ ok = false) ∨ s.logins other = .rejected t := by
    intro other t hother
    change Function.update s.logins login _ other = _ at hother
    by_cases hl : other = login
    · subst hl
      rw [Function.update_self] at hother
      cases ok with
      | false =>
        cases hother
        exact Or.inl ⟨rfl, rfl, rfl⟩
      | true => cases hother
    · rw [Function.update_of_ne hl] at hother
      exact Or.inr hother
  have hstays : ∀ other t, s.logins other = .rejected t → (s.settle login ok).logins other = .rejected t := by
    intro other t hother
    have hl : other ≠ login := by
      intro heq
      rw [heq, hpending] at hother
      cases hother
    show Function.update s.logins login _ other = _
    rw [Function.update_of_ne hl]
    exact hother
  exact
    { issued := fun other t hother => by
        rcases hrejected other t hother with ⟨rfl, _, _⟩ | hold
        · exact hlt
        · exact h.issued _ _ hold
      session := fun other hsession => by
        refine ⟨(h.session other hsession).1, fun t hother => ?_⟩
        rcases hrejected other t hother with ⟨rfl, _, hfail⟩ | hold
        · exact hkept hfail hsession
        · exact (h.session other hsession).2 t hold
      started := fun j c hc => by
        show c.startedAt < s.now + 1
        have hold := h.started j c hc
        omega
      waiting := fun j c attempt other hc hphase => by
        obtain ⟨hin, hissued, hafter⟩ := h.waiting j c attempt other hc hphase
        refine ⟨hin, hissued, fun t hother => ?_⟩
        rcases hrejected other t hother with ⟨_, rfl, _⟩ | hold
        · exact h.started j c hc
        · exact hafter t hold
      honest := fun j c hc hphase => (h.honest j c hc hphase).mono hstays
      spare := h.spare }

theorem Unbroken.step (h : Unbroken s) (hm : SessionKept s ev) (hs : Step stored s ev s') : Unbroken s' := by
  cases hs with
  | @get i name _ => exact h.get i name
  | @login login ok hlt hpending =>
    apply h.settle hlt hpending
    rintro rfl
    exact hm login rfl
  | @resume i call attempt login hc hphase hsettled =>
    have hstarted := h.started i call hc
    obtain ⟨hin, _, hafter⟩ := h.waiting i call attempt login hc hphase
    unfold SecretManagerService.resume
    apply h.put i
    · exact Nat.le_of_lt hstarted
    · intro attempt' login' hwaiting
      change (if s.logins login = .fulfilled then Phase.reading attempt else .thrown) = _ at hwaiting
      split at hwaiting
      · cases hwaiting
      · cases hwaiting
    · intro hthrown
      cases hlogin : s.logins login with
      | pending => exact absurd hlogin hsettled
      | fulfilled =>
        change (if s.logins login = .fulfilled then Phase.reading attempt else .thrown) = _ at hthrown
        rw [if_pos hlogin] at hthrown
        cases hthrown
      | rejected t => exact Or.inl ⟨login, hin, t, hlogin, hafter t hlogin⟩
  | @readOk i call attempt hc hphase _ =>
    unfold SecretManagerService.readOk
    apply h.put i
    · exact Nat.le_of_lt (h.started i call hc)
    · intro attempt' login' hwaiting
      cases hwaiting
    · intro hthrown
      cases hthrown
  | @readFail i call attempt hc hphase =>
    have hstarted := h.started i call hc
    unfold SecretManagerService.readFail
    apply h.put i
    · exact Nat.le_of_lt hstarted
    · intro attempt' login' hwaiting
      change (if attempt = .first then Phase.caught else .thrown) = _ at hwaiting
      split at hwaiting
      · cases hwaiting
      · cases hwaiting
    · intro _
      exact Or.inr ⟨s.now, List.mem_append_right _ (List.mem_singleton_self _), hstarted⟩
  | @retry i call hc hphase =>
    have hnull : Unbroken { s with session := none } :=
      { issued := h.issued, session := nofun, started := h.started, waiting := h.waiting, honest := h.honest,
        spare := h.spare }
    obtain ⟨hlt, hunbroken⟩ := hnull.ready_waits
    unfold SecretManagerService.retry
    apply hnull.ready.put i
    · rw [ready_now]
      exact Nat.le_of_lt (h.started i call hc)
    · intro attempt login hwaiting
      cases hwaiting
      exact ⟨List.mem_append_right _ (List.mem_singleton_self _), hlt,
        fun t hrejected => absurd hrejected (hunbroken t)⟩
    · intro hthrown
      cases hthrown
  | expire =>
    exact
      { issued := h.issued
        session := h.session
        started := fun j c hc => Nat.lt_succ_of_lt (h.started j c hc)
        waiting := h.waiting
        honest := h.honest
        spare := h.spare }

end

end MarketplaceApi.Vault
