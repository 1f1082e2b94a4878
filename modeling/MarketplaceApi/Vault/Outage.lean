import MarketplaceApi.Vault.Session

/-!
# Outages of the vault

A failed login that stays in `session` fails every later call. As long as none does, the next
call brings its secret once the vault answers again.
-/
namespace MarketplaceApi.Vault

open Transition

/-- Both the login and the read succeed: a read fails at most because the session ran out before. -/
def Succeeds (s : SecretManagerService) : Event → Prop
  | .login _ ok => ok = true
  | .readFail _ => s.authenticated = false
  | .expire => False
  | _ => True

/-- If logins and reads succeed from now on, the next call of `get` takes five steps at most, and
is at every moment on its way to the secret's value. -/
def Recovers (stored : SecretName → String) (s : SecretManagerService) : Prop :=
  ∀ i name, s.calls i = none → ∀ tr s', Run (Step stored) (s.get i name) tr s' → Always Succeeds tr →
    (tr.filter fun p => p.2.call = some i).length ≤ 5 ∧
    ∃ s'' call, Reaches (Step stored) Succeeds s' s'' ∧ s''.calls i = some call ∧
      call.phase = .returned (stored name)

/-- What the steps left to a call are at most. -/
def Phase.rank : Phase → Nat
  | waiting .first _ => 5
  | reading .first => 4
  | caught => 3
  | waiting .retry _ => 2
  | reading .retry => 1
  | returned _ | thrown => 0

/-- Where a call can be while logins and reads succeed. -/
def OnTheWay (stored : SecretName → String) (s : SecretManagerService) (call : Call) : Prop :=
  match call.phase with
  | .waiting .first login => login < s.issued ∧ ∀ t, s.logins login ≠ .rejected t
  | .waiting .retry login => login < s.issued ∧
      (s.logins login = .pending ∨ s.logins login = .fulfilled ∧ s.authenticated = true)
  | .reading .first | .caught => True
  | .reading .retry => s.authenticated = true
  | .returned value => value = stored call.name
  | .thrown => False

section
variable {stored : SecretName → String} {s s' : SecretManagerService} {ev : Event} {i : Nat} {call : Call}
  {name : SecretName} {tr : List (SecretManagerService × Event)}

/-- A call that did not move: what it waits for is not rejected, and a session stays. -/
theorem OnTheWay.frame (h : OnTheWay stored s call) (hissued : s.issued ≤ s'.issued)
    (hlogins : ∀ login, login < s.issued → s'.logins login = s.logins login ∨
      s'.logins login = .fulfilled ∧ s'.authenticated = true)
    (hauthenticated : s.authenticated = true → s'.authenticated = true) : OnTheWay stored s' call := by
  unfold OnTheWay at h ⊢
  cases hphase : call.phase with
  | waiting attempt login =>
    rw [hphase] at h
    cases attempt with
    | first =>
      obtain ⟨hlt, hunbroken⟩ := h
      refine ⟨Nat.lt_of_lt_of_le hlt hissued, fun t => ?_⟩
      rcases hlogins login hlt with hsame | ⟨hkept, _⟩
      · rw [hsame]
        exact hunbroken t
      · rw [hkept]
        simp
    | retry =>
      obtain ⟨hlt, hgood⟩ := h
      refine ⟨Nat.lt_of_lt_of_le hlt hissued, ?_⟩
      rcases hlogins login hlt with hsame | hkept
      · rw [hsame]
        rcases hgood with hpending | ⟨hfulfilled, hauth⟩
        · exact Or.inl hpending
        · exact Or.inr ⟨hfulfilled, hauthenticated hauth⟩
      · exact Or.inr hkept
  | reading attempt =>
    rw [hphase] at h
    cases attempt with
    | first => trivial
    | retry => exact hauthenticated h
  | caught => trivial
  | returned value =>
    rw [hphase] at h
    exact h
  | thrown =>
    rw [hphase] at h
    exact h

/-- A step is one of the call, which brings its end nearer, or leaves the call as it is. -/
theorem call_step (hc : s.calls i = some call) (hs : Step stored s ev s') :
    (ev.call ≠ some i ∧ s'.calls i = some call) ∨
    (ev.call = some i ∧ ∃ call', s'.calls i = some call' ∧ call'.name = call.name ∧
      call'.phase.rank < call.phase.rank) := by
  have hother : ∀ {t : SecretManagerService} {j : Nat} {c : Call}, t.calls i = some call → i ≠ j →
      (t.put j c).calls i = some call := by
    intro t j c ht hne
    rw [put_other hne]
    exact ht
  cases hs with
  | @get j name hnone =>
    have hne : i ≠ j := by
      rintro rfl
      rw [hnone] at hc
      cases hc
    exact Or.inl ⟨nofun, hother (by rw [ready_calls]; exact hc) hne⟩
  | login _ _ => exact Or.inl ⟨nofun, hc⟩
  | @resume j c attempt login hcj hphase _ =>
    by_cases hij : i = j
    · subst hij
      rw [hc] at hcj
      cases hcj
      refine Or.inr ⟨rfl, _, put_self .., rfl, ?_⟩
      rw [hphase]
      show (if s.logins login = .fulfilled then Phase.reading attempt else .thrown).rank < _
      cases attempt with
      | first => split <;> simp [Phase.rank]
      | retry => split <;> simp [Phase.rank]
    · exact Or.inl ⟨by simpa [Event.call] using Ne.symm hij, hother hc hij⟩
  | @readOk j c attempt hcj hphase _ =>
    by_cases hij : i = j
    · subst hij
      rw [hc] at hcj
      cases hcj
      refine Or.inr ⟨rfl, _, put_self .., rfl, ?_⟩
      rw [hphase]
      cases attempt with
      | first => simp [Phase.rank]
      | retry => simp [Phase.rank]
    · exact Or.inl ⟨by simpa [Event.call] using Ne.symm hij, hother hc hij⟩
  | @readFail j c attempt hcj hphase =>
    by_cases hij : i = j
    · subst hij
      rw [hc] at hcj
      cases hcj
      refine Or.inr ⟨rfl, _, put_self .., rfl, ?_⟩
      rw [hphase]
      cases attempt with
      | first => simp [Phase.rank]
      | retry => simp [Phase.rank]
    · exact Or.inl ⟨by simpa [Event.call] using Ne.symm hij, hother hc hij⟩
  | @retry j c hcj hphase =>
    by_cases hij : i = j
    · subst hij
      rw [hc] at hcj
      cases hcj
      refine Or.inr ⟨rfl, _, put_self .., rfl, ?_⟩
      rw [hphase]
      exact Nat.lt_succ_self 2
    · exact Or.inl ⟨by simpa [Event.call] using Ne.symm hij, hother (by rw [ready_calls]; exact hc) hij⟩
  | expire => exact Or.inl ⟨nofun, hc⟩

/-- Within a run a call takes no more steps than its phase allows. -/
theorem steps_bounded (hc : s.calls i = some call) (hr : Run (Step stored) s tr s') :
    ∃ call', s'.calls i = some call' ∧
      (tr.filter fun p => p.2.call = some i).length + call'.phase.rank ≤ call.phase.rank := by
  induction hr with
  | nil => exact ⟨call, hc, by simp⟩
  | @snoc tr u u' ev _ hstep ih =>
    obtain ⟨call', hc', hle⟩ := ih
    rw [List.filter_append, List.length_append]
    rcases call_step hc' hstep with ⟨hev, hsame⟩ | ⟨hev, call'', hc'', _, hlt⟩
    · refine ⟨call', hsame, ?_⟩
      have hzero : ([(u, ev)].filter fun p => decide (p.2.call = some i)).length = 0 := by simp [hev]
      omega
    · refine ⟨call'', hc'', ?_⟩
      have hone : ([(u, ev)].filter fun p => decide (p.2.call = some i)).length = 1 := by simp [hev]
      omega

/-- A call that has thrown stays so. -/
theorem thrown_run (hc : s.calls i = some call) (hphase : call.phase = .thrown) (hr : Run (Step stored) s tr s') :
    s'.calls i = some call := by
  have hstays : ∀ {t e t'}, t.calls i = some call → Step stored t e t' → t'.calls i = some call := by
    intro t e t' ht hs
    rcases call_step ht hs with ⟨_, hsame⟩ | ⟨_, _, _, _, hlt⟩
    · exact hsame
    · rw [hphase] at hlt
      exact absurd hlt (Nat.not_lt_zero _)
  exact hr.invariant hc hstays

/-- A call of `get` from a session that is not rejected is on its way. -/
theorem Unbroken.onTheWay (stored : SecretName → String) (h : Unbroken s) (i : Nat) (name : SecretName) :
    ∃ call, (s.get i name).calls i = some call ∧ call.name = name ∧ call.phase.rank = 5 ∧
      OnTheWay stored (s.get i name) call := by
  refine ⟨_, put_self .., rfl, rfl, ?_⟩
  exact h.ready_waits

theorem OnTheWay.step (h : OnTheWay stored s call) (hc : s.calls i = some call) (hs : Step stored s ev s')
    (hgood : Succeeds s ev) :
    ∃ call', s'.calls i = some call' ∧ call'.name = call.name ∧ OnTheWay stored s' call' := by
  have hready : ∀ t : SecretManagerService, t.issued = s.issued → t.logins = s.logins →
      t.authenticated = s.authenticated → ∀ (j : Nat) (c : Call), OnTheWay stored (t.ready.1.put j c) call := by
    intro t hissued hlogins hauth j c
    refine h.frame ?_ (fun login hlt => Or.inl ?_) fun hs => ?_
    · show s.issued ≤ t.ready.1.issued
      rcases ready_cases t with ⟨_, _, heq⟩ | ⟨_, heq⟩
      · rw [heq]
        exact Nat.le_of_eq hissued.symm
      · rw [heq]
        show s.issued ≤ t.issued + 1
        omega
    · rw [← hlogins]
      exact (ready_logins t (hissued ▸ hlt)).1
    · show t.ready.1.authenticated = true
      rw [ready_authenticated, hauth]
      exact hs
  have hput : ∀ (j : Nat) (c : Call), OnTheWay stored (s.put j c) call := fun j c =>
    h.frame (Nat.le_refl _) (fun _ _ => Or.inl rfl) id
  rcases call_step hc hs with ⟨hev, hsame⟩ | ⟨hev, _⟩
  · refine ⟨call, hsame, rfl, ?_⟩
    cases hs with
    | get _ => exact hready s rfl rfl rfl _ _
    | @login login ok hlt hpending =>
      obtain rfl : ok = true := hgood
      refine h.frame (Nat.le_refl _) (fun other _ => ?_) fun hauth => ?_
      · by_cases hl : other = login
        · subst hl
          right
          refine ⟨Function.update_self .., ?_⟩
          show (s.authenticated || true) = true
          rw [Bool.or_true]
        · left
          exact Function.update_of_ne hl ..
      · show (s.authenticated || true) = true
        rw [Bool.or_true]
    | resume _ _ _ => exact hput _ _
    | readOk _ _ _ => exact hput _ _
    | readFail _ _ => exact hput _ _
    | @retry j c _ _ => exact hready { s with session := none } rfl rfl rfl _ _
    | expire => exact hgood.elim
  · cases hs with
    | get _ => cases hev
    | login _ _ => cases hev
    | @resume j c attempt login hcj hphase hsettled =>
      obtain rfl : j = i := by simpa [Event.call] using hev
      rw [hc] at hcj
      cases hcj
      refine ⟨_, put_self .., rfl, ?_⟩
      unfold OnTheWay at h
      rw [hphase] at h
      have hfulfilled : s.logins login = .fulfilled := by
        cases attempt with
        | first =>
          cases hlogin : s.logins login with
          | pending => exact absurd hlogin hsettled
          | fulfilled => rfl
          | rejected t => exact absurd hlogin (h.2 t)
        | retry => exact (h.2.resolve_left hsettled).1
      unfold OnTheWay
      simp only [if_pos hfulfilled]
      cases attempt with
      | first => trivial
      | retry => exact (h.2.resolve_left hsettled).2
    | @readOk j c attempt hcj hphase _ =>
      obtain rfl : j = i := by simpa [Event.call] using hev
      rw [hc] at hcj
      cases hcj
      exact ⟨_, put_self .., rfl, rfl⟩
    | @readFail j c attempt hcj hphase =>
      obtain rfl : j = i := by simpa [Event.call] using hev
      rw [hc] at hcj
      cases hcj
      refine ⟨_, put_self .., rfl, ?_⟩
      cases attempt with
      | first => trivial
      | retry =>
        unfold OnTheWay at h
        rw [hphase] at h
        have hauth : s.authenticated = true := h
        have hexpired : s.authenticated = false := hgood
        rw [hauth] at hexpired
        cases hexpired
    | @retry j c hcj hphase =>
      obtain rfl : j = i := by simpa [Event.call] using hev
      refine ⟨_, put_self .., ?_, Nat.lt_succ_self _, Or.inl ?_⟩
      · rw [hc] at hcj
        cases hcj
        rfl
      · exact Function.update_self ..
    | expire => cases hev

theorem OnTheWay.reaches (h : OnTheWay stored s call) (hc : s.calls i = some call)
    (hr : Reaches (Step stored) Succeeds s s') :
    ∃ call', s'.calls i = some call' ∧ call'.name = call.name ∧ OnTheWay stored s' call' := by
  obtain ⟨tr, hr, hgood⟩ := hr
  have hway : ∀ {t e t'}, (∃ c, t.calls i = some c ∧ c.name = call.name ∧ OnTheWay stored t c) → Succeeds t e →
      Step stored t e t' → ∃ c, t'.calls i = some c ∧ c.name = call.name ∧ OnTheWay stored t' c := by
    rintro t e t' ⟨c, hct, hname, hway⟩ hm hs
    obtain ⟨c', hc', hname', hway'⟩ := hway.step hct hs hm
    exact ⟨c', hc', hname'.trans hname, hway'⟩
  exact hr.invariant_of_always hgood ⟨call, hc, rfl, h⟩ hway

/-- The promise a call waits for can be kept. -/
theorem OnTheWay.kept (h : OnTheWay stored s call) (hc : s.calls i = some call) {attempt : Attempt} {login : Nat}
    (hphase : call.phase = .waiting attempt login) :
    ∃ s', Reaches (Step stored) Succeeds s s' ∧ s'.calls i = some call ∧ s'.logins login = .fulfilled := by
  have hlt : login < s.issued := by
    unfold OnTheWay at h
    rw [hphase] at h
    cases attempt with
    | first => exact h.1
    | retry => exact h.1
  cases hlogin : s.logins login with
  | pending =>
    have hs : Step stored s (.login login true) (s.settle login true) := .login hlt hlogin
    exact ⟨_, Reaches.refl.step hs rfl, hc, Function.update_self ..⟩
  | fulfilled => exact ⟨s, .refl, hc, hlogin⟩
  | rejected t =>
    unfold OnTheWay at h
    rw [hphase] at h
    cases attempt with
    | first => exact absurd hlogin (h.2 t)
    | retry =>
      have hgood := h.2
      rw [hlogin] at hgood
      simp at hgood

/-- A call that is on its way has returned, or can take its next step. -/
theorem OnTheWay.next (h : OnTheWay stored s call) (hc : s.calls i = some call) :
    call.phase = .returned (stored call.name) ∨ ∃ s₁ ev s₂, Reaches (Step stored) Succeeds s s₁ ∧
      s₁.calls i = some call ∧ Step stored s₁ ev s₂ ∧ Succeeds s₁ ev ∧ ev.call = some i := by
  cases hphase : call.phase with
  | waiting attempt login =>
    obtain ⟨s₁, hreaches, hc₁, hkept⟩ := h.kept hc hphase
    have hsettled : s₁.logins login ≠ .pending := by
      rw [hkept]
      simp
    exact Or.inr ⟨s₁, .resume i, _, hreaches, hc₁, .resume hc₁ hphase hsettled, trivial, rfl⟩
  | reading attempt =>
    right
    cases hauth : s.authenticated with
    | true => exact ⟨s, .readOk i, _, .refl, hc, .readOk hc hphase hauth, trivial, rfl⟩
    | false => exact ⟨s, .readFail i, _, .refl, hc, .readFail hc hphase, hauth, rfl⟩
  | caught => exact Or.inr ⟨s, .retry i, _, .refl, hc, .retry hc hphase, trivial, rfl⟩
  | returned value =>
    unfold OnTheWay at h
    rw [hphase] at h
    have hvalue : value = stored call.name := h
    exact Or.inl (by rw [hvalue])
  | thrown =>
    unfold OnTheWay at h
    rw [hphase] at h
    exact h.elim

/-- From wherever it is, a call that is on its way can return the value. -/
theorem OnTheWay.returns (h : OnTheWay stored s call) (hc : s.calls i = some call) :
    ∃ s' call', Reaches (Step stored) Succeeds s s' ∧ s'.calls i = some call' ∧
      call'.phase = .returned (stored call.name) := by
  induction hrank : call.phase.rank using Nat.strongRecOn generalizing s call with
  | _ n ih =>
    rcases h.next hc with hdone | ⟨s₁, ev, s₂, hreaches, hc₁, hs, hgood, hev⟩
    · exact ⟨s, call, .refl, hc, hdone⟩
    · obtain ⟨call₁, hc₁', _, hway₁⟩ := h.reaches hc hreaches
      rw [hc₁] at hc₁'
      cases hc₁'
      obtain ⟨call₂, hc₂, hname, hway₂⟩ := hway₁.step hc₁ hs hgood
      have hlt : call₂.phase.rank < n := by
        rcases call_step hc₁ hs with ⟨hne, _⟩ | ⟨_, call', hc', _, hlt⟩
        · exact absurd hev hne
        · rw [hc₂] at hc'
          cases hc'
          omega
      obtain ⟨s', call', hr', hc', hdone⟩ := ih _ hlt hway₂ hc₂ rfl
      refine ⟨s', call', ?_, hc', by rw [hdone, hname]⟩
      obtain ⟨tr, hr, ha⟩ := hreaches
      obtain ⟨tr', hr', ha'⟩ := hr'
      exact ⟨_, (hr.snoc hs).append hr', always_append.mpr ⟨always_snoc.mpr ⟨ha, hgood⟩, ha'⟩⟩

theorem Unbroken.recovers (h : Unbroken s) : Recovers stored s := by
  intro i name _ tr s' hr hgood
  obtain ⟨call, hc, hname, hrank, hway⟩ := h.onTheWay stored i name
  refine ⟨?_, ?_⟩
  · obtain ⟨call', _, hle⟩ := steps_bounded hc hr
    omega
  · obtain ⟨call', hc', hname', hway'⟩ := hway.reaches hc ⟨tr, hr, hgood⟩
    obtain ⟨s'', call'', hreaches, hc'', hdone⟩ := hway'.returns hc'
    exact ⟨s'', call'', hreaches, hc'', by rw [hdone, hname', hname]⟩

/-- A rejected session fails the next call, whatever the vault does. -/
theorem not_recovers {login t : Nat} (hspare : ∃ n, ∀ i, n ≤ i → s.calls i = none)
    (hsession : s.session = some login) (hrejected : s.logins login = .rejected t) : ¬ Recovers stored s := by
  intro hrecovers
  obtain ⟨n, hn⟩ := hspare
  have hready : s.ready = (s, login) := by
    unfold SecretManagerService.ready
    rw [hsession]
  have hget : s.get n .DBPASSWORD = s.put n ⟨.DBPASSWORD, s.now, [login], [], .waiting .first login⟩ := by
    unfold SecretManagerService.get
    rw [hready]
  have hc := put_self s n ⟨.DBPASSWORD, s.now, [login], [], .waiting .first login⟩
  rw [← hget] at hc
  have hlogin : (s.get n .DBPASSWORD).logins login = .rejected t := by
    rw [hget]
    exact hrejected
  have hsettled : (s.get n .DBPASSWORD).logins login ≠ .pending := by
    rw [hlogin]
    simp
  have hs : Step stored (s.get n .DBPASSWORD) (.resume n) _ := .resume hc rfl hsettled
  have hthrown : ∃ call, ((s.get n .DBPASSWORD).resume n ⟨.DBPASSWORD, s.now, [login], [], .waiting .first login⟩
      .first login).calls n = some call ∧ call.phase = .thrown := by
    refine ⟨_, put_self .., ?_⟩
    show (if (s.get n .DBPASSWORD).logins login = .fulfilled then Phase.reading .first else .thrown) = _
    rw [hlogin]
    rfl
  obtain ⟨call, hcall, hphase⟩ := hthrown
  have hgood : Always Succeeds [(s.get n .DBPASSWORD, Event.resume n)] :=
    always_snoc.mpr ⟨always_nil, trivial⟩
  obtain ⟨_, s'', call'', ⟨tr, hr, _⟩, hc'', hdone⟩ :=
    hrecovers n .DBPASSWORD (hn n (Nat.le_refl _)) _ _ (Run.nil.snoc hs) hgood
  rw [thrown_run hcall hphase hr] at hc''
  cases hc''
  rw [hphase] at hdone
  cases hdone

theorem session_broken {login : Nat} (hs : Step stored s (.login login false) s') :
    ∃ t, s'.logins login = .rejected t ∧ s'.session = s.session ∧ s'.calls = s.calls := by
  cases hs with
  | login _ _ => exact ⟨s.now, Function.update_self .., rfl, rfl⟩

end

/-- In every state reached the next call recovers, and no call has failed for an old failure,
exactly in the runs where no login fails that is the memoised session at that moment. -/
theorem outage_ends_iff {stored : SecretName → String} {tr : List (SecretManagerService × Event)}
    {s : SecretManagerService} (hr : Run (Step stored) .start tr s) :
    Throughout (fun s => Recovers stored s ∧ Honest s) tr s ↔ Always SessionKept tr := by
  refine hr.throughout_iff_of_invariant unbroken_start (fun h => ⟨h.recovers, h.honest⟩) (fun {t ev t'} h hs => ?_)
    fun h hm hs => h.step hm hs
  constructor
  · rintro ⟨hrecovers, _⟩ login rfl hsession
    obtain ⟨since, hrejected, hsame, hcalls⟩ := session_broken hs
    rw [← hsame] at hsession
    have hspare := h.spare
    rw [← hcalls] at hspare
    exact not_recovers hspare hsession hrejected hrecovers
  · intro hm
    have h' := h.step hm hs
    exact ⟨h'.recovers, h'.honest⟩

/-- A call begins, and its login fails. -/
def brokenOnce : SecretManagerService := (SecretManagerService.start.get 0 .DBPASSWORD).settle 0 false

theorem outage_run (stored : SecretName → String) : ∃ tr, Run (Step stored) .start tr brokenOnce :=
  ⟨_, (Run.nil.snoc (.get rfl)).snoc
    (show Step stored (SecretManagerService.start.get 0 .DBPASSWORD) (.login 0 false) _ from
      .login (Nat.lt_succ_self 0) rfl)⟩

theorem brokenOnce_stays (stored : SecretName → String) : ¬ Recovers stored brokenOnce :=
  not_recovers ⟨1, fun i hi => Function.update_of_ne (by omega) ..⟩ rfl rfl

theorem outage_ends_refuted : ¬ ∀ (stored : SecretName → String) (tr : List (SecretManagerService × Event))
    (s : SecretManagerService), Run (Step stored) .start tr s →
      Throughout (fun s => Recovers stored s ∧ Honest s) tr s := by
  intro hclaim
  obtain ⟨tr, hr⟩ := outage_run fun _ => ""
  exact brokenOnce_stays _ (hclaim _ tr _ hr).2.1

/-- Two calls whose reads failed have logged in again; the second login is the memoised one. -/
def loggedInTwice : SecretManagerService :=
  let s := ((SecretManagerService.start.get 0 .DBUSER).get 1 .DBPASSWORD).settle 0 true
  let s := (s.resume 0 ⟨.DBUSER, 0, [0], [], .waiting .first 0⟩ .first 0).resume 1
    ⟨.DBPASSWORD, 1, [0], [], .waiting .first 0⟩ .first 0
  let s := (s.readFail 0 ⟨.DBUSER, 0, [0], [], .reading .first⟩ .first).readFail 1
    ⟨.DBPASSWORD, 1, [0], [], .reading .first⟩ .first
  (s.retry 0 ⟨.DBUSER, 0, [0], [5], .caught⟩).retry 1 ⟨.DBPASSWORD, 1, [0], [6], .caught⟩

/-- The first of them fails, the second succeeds, and its call returns the secret. -/
theorem kept_run (stored : SecretName → String) : ∃ tr s, Run (Step stored) .start tr s ∧ Always SessionKept tr ∧
    s.logins 1 = .rejected 9 ∧ s.calls 1 = some ⟨.DBPASSWORD, 1, [0, 2], [6], .returned (stored .DBPASSWORD)⟩ := by
  have hr : ∃ tr, Run (Step stored) .start tr loggedInTwice ∧ Always SessionKept tr := by
    refine ⟨_, (((((((((Run.nil.snoc (.get rfl)).snoc (.get rfl)).snoc (.login (by decide) rfl)).snoc
      (.resume rfl rfl (by decide))).snoc (.resume rfl rfl (by decide))).snoc (.readFail rfl rfl)).snoc
      (.readFail rfl rfl)).snoc (.retry rfl rfl)).snoc (.retry rfl rfl)), ?_⟩
    simp [Always, SessionKept]
  obtain ⟨tr, hr, hm⟩ := hr
  have hfailed : Step stored loggedInTwice (.login 1 false) _ := .login (by decide) rfl
  have hsucceeded : Step stored (loggedInTwice.settle 1 false) (.login 2 true) _ := .login (by decide) rfl
  have hresumed : Step stored ((loggedInTwice.settle 1 false).settle 2 true) (.resume 1) _ :=
    .resume rfl rfl (by decide)
  have hread : Step stored (((loggedInTwice.settle 1 false).settle 2 true).resume 1
      ⟨.DBPASSWORD, 1, [0, 2], [6], .waiting .retry 2⟩ .retry 2) (.readOk 1) _ := .readOk rfl rfl rfl
  refine ⟨_, _, (((hr.snoc hfailed).snoc hsucceeded).snoc hresumed).snoc hread, ?_, rfl, rfl⟩
  simp only [always_snoc]
  exact ⟨⟨⟨⟨hm, fun login he => by cases he; decide⟩, nofun⟩, nofun⟩, nofun⟩
theorem outage_ends_iff_once :
    (∃ tr s, Run (Step fun _ => "") .start tr s ∧ ¬ Always SessionKept tr) ∧
    ∃ tr s, Run (Step fun _ => "") .start tr s ∧ s.logins 1 = .rejected 9 ∧
      s.calls 1 = some ⟨.DBPASSWORD, 1, [0, 2], [6], .returned ""⟩ ∧
      Throughout (fun s => Recovers (fun _ => "") s ∧ Honest s) tr s := by
  constructor
  · obtain ⟨tr, hr⟩ := outage_run fun _ => ""
    refine ⟨tr, _, hr, fun hm => ?_⟩
    have hends := (outage_ends_iff hr).mpr hm
    exact brokenOnce_stays _ hends.2.1
  · obtain ⟨tr, s, hr, hm, hrejected, hreturned⟩ := kept_run fun _ => ""
    exact ⟨tr, s, hr, hrejected, hreturned, (outage_ends_iff hr).mpr hm⟩

end MarketplaceApi.Vault
