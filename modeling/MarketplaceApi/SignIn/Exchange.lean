import MarketplaceApi.SignIn.Takeover

/-!
# One exchange for each attempt

`GETDEL` gives an attempt to one callback, and this callback sends its code to the provider once.
-/
namespace MarketplaceApi.SignIn

open Transition (Run)

/-- A callback took the attempt stored under a state. -/
def takes (state : String) (p : World × Event) : Bool :=
  match p.2 with
  | .take n =>
    match p.1.calls n with
    | .taking _ taken _ => taken == state
    | _ => false
  | _ => false

/-- A callback sent its code to the provider, with the attempt of a state. -/
def exchanges (state : String) (p : World × Event) : Bool :=
  match p.2 with
  | .exchange _ attempt => attempt.state == state
  | _ => false

/-- The call took the attempt of a state and has not exchanged the code yet. -/
def Call.Holds (state : String) (call : Call) : Prop :=
  ∃ provider browserState attempt, call = .taken provider browserState attempt ∧ attempt.state = state

section
variable {argon2 : String → String → Bool} {dummyHash : String} {s : Tables} {w w' : World} {ev : Event}
  {tr : List (World × Event)} {state : String}

/-- A code is still to be exchanged for what one callback took, or was exchanged once. -/
structure Exchanged (state : String) (tr : List (World × Event)) (w : World) : Prop where
  once : tr.countP (exchanges state) ≤ 1
  holder : ∀ n, (w.calls n).Holds state →
    tr.countP (exchanges state) = 0 ∧ state ∈ w.taken ∧ ∀ m, (w.calls m).Holds state → m = n
  taken : tr.countP (exchanges state) ≠ 0 → state ∈ w.taken

/-- A step that neither takes the state's attempt nor exchanges its code. -/
theorem Exchanged.keep (h : Exchanged state tr w) (hno : exchanges state (w, ev) = false)
    (hcalls : ∀ n, (w'.calls n).Holds state → (w.calls n).Holds state) (htaken : ∀ t ∈ w.taken, t ∈ w'.taken) :
    Exchanged state (tr ++ [(w, ev)]) w' := by
  have hcount : (tr ++ [(w, ev)]).countP (exchanges state) = tr.countP (exchanges state) := by
    rw [List.countP_append, List.countP_singleton, hno]
    rfl
  constructor
  · rw [hcount]
    exact h.once
  · intro n hn
    obtain ⟨hzero, hin, hone⟩ := h.holder n (hcalls n hn)
    rw [hcount]
    exact ⟨hzero, htaken _ hin, fun m hm => hone m (hcalls m hm)⟩
  · rw [hcount]
    exact fun hne => htaken _ (h.taken hne)

/-- A call that moves on to something else holds nothing. -/
theorem Call.Holds.of_update {calls : Nat → Call} {n m : Nat} {call : Call} (hcall : ¬ call.Holds state)
    (h : (Function.update calls n call m).Holds state) : m ≠ n ∧ (calls m).Holds state := by
  by_cases heq : m = n
  · subst heq
    rw [Function.update_self] at h
    exact absurd h hcall
  · rw [Function.update_of_ne heq] at h
    exact ⟨heq, h⟩

theorem Call.Holds.of_settle {calls : Nat → Call} {e : Txn.Event Request} {m : Nat}
    (h : (settle calls e m).Holds state) : (calls m).Holds state := by
  cases e with
  | begin n q =>
    cases q with
    | register gen input passwordHash => exact (Call.Holds.of_update (by simp [Call.Holds]) h).2
    | signIn gen provider external email => exact h
    | link gen provider external identityPublicId => exact h
  | commit n => exact (Call.Holds.of_update (by simp [Call.Holds]) h).2
  | rollback n => exact (Call.Holds.of_update (by simp [Call.Holds]) h).2
  | statement n => exact h
  | abort n => exact h
  | env => exact h

/-- A call moves on to something that holds nothing. -/
theorem Exchanged.put (h : Exchanged state tr w) (hno : exchanges state (w, ev) = false) {n : Nat} {call : Call}
    (hcall : ¬ call.Holds state) (hcalls : w'.calls = Function.update w.calls n call) (htaken : w'.taken = w.taken) :
    Exchanged state (tr ++ [(w, ev)]) w' := by
  apply h.keep hno
  · intro m hm
    rw [hcalls] at hm
    exact (Call.Holds.of_update hcall hm).2
  · intro t ht
    rw [htaken]
    exact ht

/-- Of a state never taken before, one callback holds the attempt now. -/
theorem Exchanged.take (h : Exchanged state tr w) {n : Nat} (hnew : state ∉ w.taken) {calls : Nat → Call}
    (hcalls : ∀ m, m ≠ n → calls m = w.calls m) (hw : w'.calls = calls) (htaken : state ∈ w'.taken) :
    Exchanged state (tr ++ [(w, .take n)]) w' := by
  have hzero : tr.countP (exchanges state) = 0 := by
    by_contra hne
    exact hnew (h.taken hne)
  have hcount : (tr ++ [(w, Event.take n)]).countP (exchanges state) = 0 := by
    rw [List.countP_append, hzero, List.countP_singleton]
    rfl
  have honly : ∀ m, (w'.calls m).Holds state → m = n := by
    intro m hm
    by_contra hne
    rw [hw, hcalls m hne] at hm
    exact hnew (h.holder m hm).2.1
  refine ⟨hcount ▸ Nat.zero_le 1, fun m hm => ⟨hcount, htaken, fun k hk => ?_⟩, fun hne => absurd hcount hne⟩
  rw [honly m hm, honly k hk]

/-- The callback that holds the attempt exchanges the code, and no callback holds it any more. -/
theorem Exchanged.exchange (h : Exchanged state tr w) {n : Nat} {attempt : OidcSignInAttempt}
    (hn : (w.calls n).Holds state)
    (hcalls : ∀ m, (w'.calls m).Holds state → m ≠ n ∧ (w.calls m).Holds state) (htaken : w'.taken = w.taken) :
    Exchanged state (tr ++ [(w, .exchange n attempt)]) w' := by
  obtain ⟨hzero, hin, hone⟩ := h.holder n hn
  constructor
  · rw [List.countP_append, hzero, List.countP_singleton]
    split <;> omega
  · intro m hm
    obtain ⟨hne, hheld⟩ := hcalls m hm
    exact absurd (hone m hheld) hne
  · intro _
    rw [htaken]
    exact hin

theorem exchanged_step (h : Invariant argon2 dummyHash tr w) (he : Exchanged state tr w)
    (hs : Step argon2 dummyHash w ev w') : Exchanged state (tr ++ [(w, ev)]) w' := by
  cases hs with
  | @take n provider taken browserState attempt hcall hchecked =>
    obtain ⟨hconfirmed, hsame, _, hnew⟩ := h.placed.stored _ _ (checkedAttempt_some hchecked).1
    by_cases heq : taken = state
    · subst heq
      exact he.take hnew (fun m hm => Function.update_of_ne hm _ _) rfl List.mem_cons_self
    · refine he.keep rfl (fun m hm => (Call.Holds.of_update ?_ hm).2) fun _ hin => List.mem_cons_of_mem _ hin
      rintro ⟨_, _, _, hholds, hstate⟩
      cases hholds
      exact heq (hsame.symm.trans hstate)
  | @exchange n provider browserState attempt hcall =>
    have hleft : ∀ m, ((w.put n (.exchanging provider browserState attempt)).calls m).Holds state →
        m ≠ n ∧ (w.calls m).Holds state := fun m hm => Call.Holds.of_update (by simp [Call.Holds]) hm
    by_cases heq : attempt.state = state
    · exact he.exchange ⟨_, _, _, hcall, heq⟩ hleft rfl
    · refine he.keep ?_ (fun m hm => (hleft m hm).2) fun _ hin => hin
      simp [exchanges, heq]
  | authorize _ _ _ => exact he.put rfl (by simp [Call.Holds]) rfl rfl
  | link _ _ _ _ _ => exact he.put rfl (by simp [Call.Holds]) rfl rfl
  | redirect _ _ => exact he.put rfl (by simp [Call.Holds]) rfl rfl
  | callback _ _ => exact he.put rfl (by simp [Call.Holds]) rfl rfl
  | exchanged _ _ => exact he.put rfl (by simp [Call.Holds]) rfl rfl
  | fail _ => exact he.put rfl (by simp [Call.Holds]) rfl rfl
  | set _ => exact he.keep rfl (fun _ hm => hm) fun _ hin => hin
  | drop => exact he.keep rfl (fun _ hm => hm) fun _ hin => hin
  | tx _ _ => exact he.keep rfl (fun _ hm => hm.of_settle) fun _ hin => hin

theorem exchanged_run (hs : Sound s) (hr : Run (Step argon2 dummyHash) (World.start s) tr w) :
    Exchanged state tr w := by
  induction hr with
  | nil => exact ⟨Nat.zero_le 1, fun _ hn => by simp [World.start, Call.Holds] at hn, fun hne => absurd rfl hne⟩
  | snoc hr hstep ih => exact exchanged_step (invariant_run hs hr) ih hstep

theorem taken_run (hr : Run (Step argon2 dummyHash) (World.start s) tr w) (state : String) :
    w.taken.count state = tr.countP (takes state) := by
  induction hr with
  | nil => rfl
  | snoc hr hstep ih =>
    rw [List.countP_append, ← ih, List.countP_singleton]
    cases hstep with
    | take hcall hchecked =>
      simp only [takes, hcall]
      rw [List.count_cons]
    | _ => rfl

theorem taken_once (hs : Sound s) (hr : Run (Step argon2 dummyHash) (World.start s) tr w) (state : String) :
    tr.countP (takes state) ≤ 1 := by
  rw [← taken_run hr]
  exact List.nodup_iff_count_le_one.mp (invariant_run hs hr).placed.once state

/-- A stored attempt is taken at most once, and at most one callback sends its code to the provider. -/
theorem one_exchange (hs : Sound s) (hr : Run (Step argon2 dummyHash) (World.start s) tr w) (state : String) :
    tr.countP (takes state) ≤ 1 ∧ tr.countP (exchanges state) ≤ 1 :=
  ⟨taken_once hs hr state, (exchanged_run hs hr).once⟩

end

/-- Two callbacks present one state: the first takes the attempt and exchanges its code, the other is
refused. -/
theorem one_exchange_twice : ∃ tr w, Run (Step (fun _ _ => false) "") (World.start emptyTables) tr w ∧
    tr.map Prod.snd = [.authorize 0 sampleAttempt, .set sampleAttempt, .callback 1 .google (some "s") (some "s"),
      .callback 2 .google (some "s") (some "s"), .take 1, .exchange 1 sampleAttempt, .fail 2,
      .exchanged 1 sampleExternal] ∧
    tr.countP (takes "s") ≤ 1 ∧ tr.countP (exchanges "s") ≤ 1 := by
  have hstored := (Run.nil.snoc (@Step.authorize (fun _ _ => false) "" (World.start emptyTables) 0 sampleAttempt rfl
      (by simp [World.start]) rfl)).snoc (@Step.set _ _ _ sampleAttempt List.mem_cons_self)
  have hboth := (hstored.snoc (@Step.callback _ _ _ 1 .google (some "s") (some "s") "s" rfl rfl)).snoc
      (@Step.callback _ _ _ 2 .google (some "s") (some "s") "s" rfl rfl)
  have hsent := (hboth.snoc (@Step.take _ _ _ 1 .google "s" (some "s") sampleAttempt rfl rfl)).snoc
      (@Step.exchange _ _ _ 1 .google (some "s") sampleAttempt rfl)
  have hrun := (hsent.snoc (@Step.fail _ _ _ 2 rfl)).snoc
      (@Step.exchanged _ _ _ 1 .google (some "s") sampleAttempt sampleExternal "a@b.co" rfl rfl)
  exact ⟨_, _, hrun, rfl, one_exchange sound_empty hrun "s"⟩

end MarketplaceApi.SignIn
