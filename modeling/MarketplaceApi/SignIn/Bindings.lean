import MarketplaceApi.SignIn.Attempts
import MarketplaceApi.SignIn.Sound

/-!
# What every run of sign-ins keeps

Each attempt is in one place, an attempt to link remembers who confirmed the password, and an open
transaction is the one its call may run.
-/
namespace MarketplaceApi.SignIn

open Txn
open Transition (Run)

/-- An open transaction belongs to its call. -/
inductive Runs : Call → Request → Prop
  | register {gen input passwordHash} : Runs .registering (.register gen input passwordHash)
  | callback {gen provider browserState attempt external email} :
      Runs (.transacting provider browserState attempt external email)
        (IdentityOidcSignInCommandHandler.request gen provider attempt external email)

section
variable (argon2 : String → String → Bool) (dummyHash : String)

/-- An attempt to link an identity was started by a request that confirmed the password of this identity. -/
def Confirmed (tr : List (World × Event)) (rows : List Row) (attempt : OidcSignInAttempt) : Prop :=
  ∀ publicId, attempt.linkIdentityPublicId = some publicId → ∃ owner, .identity owner ∈ rows ∧
    owner.publicId = publicId ∧ ∃ p ∈ tr, ∃ n password, p.2 = .link n publicId password attempt ∧
      PasswordService.verify argon2 dummyHash owner.passwordHash password = true

def Call.Proper (tr : List (World × Event)) (rows : List Row) : Call → Prop
  | .taking _ state browserState => browserState = some state
  | .taken provider browserState attempt => Confirmed argon2 dummyHash tr rows attempt ∧
      attempt.provider = provider ∧ browserState = some attempt.state
  | .exchanging provider browserState attempt => Confirmed argon2 dummyHash tr rows attempt ∧
      attempt.provider = provider ∧ browserState = some attempt.state
  | .transacting provider browserState attempt external email => Confirmed argon2 dummyHash tr rows attempt ∧
      attempt.provider = provider ∧ browserState = some attempt.state ∧
      IdentityOidcSignInCommandHandler.verifiedEmail external = some email
  | _ => True

/-- Where the attempts are: one waiting to be stored is nowhere else, and a taken one is gone. -/
structure Placed (tr : List (World × Event)) (rows : List Row) (attempts : String → Option OidcSignInAttempt)
    (sets : List OidcSignInAttempt) (drawn taken : List String) : Prop where
  distinct : (sets.map OidcSignInAttempt.state).Nodup
  waiting : ∀ a ∈ sets, Confirmed argon2 dummyHash tr rows a ∧ a.state ∈ drawn ∧ attempts a.state = none ∧
    a.state ∉ taken
  stored : ∀ state a, attempts state = some a → Confirmed argon2 dummyHash tr rows a ∧ a.state = state ∧
    state ∈ drawn ∧ state ∉ taken
  once : taken.Nodup
  known : ∀ state ∈ taken, state ∈ drawn

structure Invariant (tr : List (World × Event)) (w : World) : Prop where
  coherent : Coherent signIns w.db
  sound : Sound w.db.db
  placed : Placed argon2 dummyHash tr w.db.db.rows w.attempts w.sets w.drawn w.taken
  calls : ∀ n, (w.calls n).Proper argon2 dummyHash tr w.db.db.rows
  runs : ∀ n t, w.db.txs n = some t → Runs (w.calls n) t.request

end

section
variable {argon2 : String → String → Bool} {dummyHash : String} {w w' : World} {ev : Event}
  {tr : List (World × Event)} {rows rows' : List Row} {attempt : OidcSignInAttempt}
  {attempts : String → Option OidcSignInAttempt} {sets : List OidcSignInAttempt} {drawn taken : List String}

theorem Confirmed.later (h : Confirmed argon2 dummyHash tr rows attempt) (p : World × Event)
    (hrows : ∀ row ∈ rows, row ∈ rows') : Confirmed argon2 dummyHash (tr ++ [p]) rows' attempt := by
  intro publicId hlink
  obtain ⟨owner, howner, hpublic, p', hp', hconfirmed⟩ := h publicId hlink
  exact ⟨owner, hrows _ howner, hpublic, p', List.mem_append_left _ hp', hconfirmed⟩

theorem Call.Proper.later {call : Call} (h : call.Proper argon2 dummyHash tr rows) (p : World × Event)
    (hrows : ∀ row ∈ rows, row ∈ rows') : call.Proper argon2 dummyHash (tr ++ [p]) rows' := by
  cases call with
  | taken provider browserState attempt => exact ⟨h.1.later p hrows, h.2⟩
  | exchanging provider browserState attempt => exact ⟨h.1.later p hrows, h.2⟩
  | transacting provider browserState attempt external email => exact ⟨h.1.later p hrows, h.2⟩
  | taking provider state browserState => exact h
  | _ => trivial

theorem invariant_start {s : Tables} (h : Sound s) : Invariant argon2 dummyHash [] (World.start s) where
  coherent := coherent_start s
  sound := h
  placed := ⟨List.nodup_nil, List.forall_mem_nil _, fun _ _ h => (Option.some_ne_none _ h.symm).elim, List.nodup_nil,
    List.forall_mem_nil _⟩
  calls _ := trivial
  runs _ _ h := by cases h

theorem Placed.later (h : Placed argon2 dummyHash tr rows attempts sets drawn taken) (p : World × Event)
    (hrows : ∀ row ∈ rows, row ∈ rows') : Placed argon2 dummyHash (tr ++ [p]) rows' attempts sets drawn taken where
  distinct := h.distinct
  waiting a ha := ⟨(h.waiting a ha).1.later p hrows, (h.waiting a ha).2⟩
  stored state a ha := ⟨(h.stored state a ha).1.later p hrows, (h.stored state a ha).2⟩
  once := h.once
  known := h.known

/-- A new state is drawn, and its attempt is on its way to Redis. -/
theorem Placed.draw (h : Placed argon2 dummyHash tr rows attempts sets drawn taken)
    (hconfirmed : Confirmed argon2 dummyHash tr rows attempt) (hnew : attempt.state ∉ drawn) :
    Placed argon2 dummyHash tr rows attempts (attempt :: sets) (attempt.state :: drawn) taken where
  distinct := by
    rw [List.map_cons, List.nodup_cons]
    refine ⟨fun hin => ?_, h.distinct⟩
    obtain ⟨a, ha, heq⟩ := List.mem_map.mp hin
    rw [← heq] at hnew
    exact hnew (h.waiting a ha).2.1
  waiting a ha := by
    rcases List.mem_cons.mp ha with rfl | ha
    · refine ⟨hconfirmed, List.mem_cons_self, ?_, fun hin => hnew (h.known _ hin)⟩
      cases hstored : attempts a.state with
      | none => rfl
      | some other => exact absurd (h.stored _ _ hstored).2.2.1 hnew
    · obtain ⟨hold, hdrawn, hrest⟩ := h.waiting a ha
      exact ⟨hold, List.mem_cons_of_mem _ hdrawn, hrest⟩
  stored state a ha := by
    obtain ⟨hold, heq, hdrawn, hrest⟩ := h.stored state a ha
    exact ⟨hold, heq, List.mem_cons_of_mem _ hdrawn, hrest⟩
  once := h.once
  known state hin := List.mem_cons_of_mem _ (h.known state hin)

/-- Redis executes the `SET` of an attempt. -/
theorem Placed.set (h : Placed argon2 dummyHash tr rows attempts sets drawn taken) (hin : attempt ∈ sets) :
    Placed argon2 dummyHash tr rows (Function.update attempts attempt.state (some attempt)) (sets.erase attempt) drawn
      taken where
  distinct := ((List.erase_sublist).map _).nodup h.distinct
  waiting a ha := by
    have hmem := List.mem_of_mem_erase ha
    obtain ⟨hconfirmed, hdrawn, hnone, hrest⟩ := h.waiting a hmem
    have hne : a.state ≠ attempt.state := by
      intro heq
      have hsame := List.inj_on_of_nodup_map h.distinct hmem hin heq
      subst hsame
      exact h.distinct.of_map.not_mem_erase ha
    rw [Function.update_of_ne hne]
    exact ⟨hconfirmed, hdrawn, hnone, hrest⟩
  stored state a ha := by
    by_cases heq : state = attempt.state
    · subst heq
      rw [Function.update_self] at ha
      cases ha
      obtain ⟨hconfirmed, hdrawn, _, hrest⟩ := h.waiting _ hin
      exact ⟨hconfirmed, rfl, hdrawn, hrest⟩
    · rw [Function.update_of_ne heq] at ha
      exact h.stored state a ha
  once := h.once
  known := h.known

theorem Placed.drop (h : Placed argon2 dummyHash tr rows attempts sets drawn taken) (state : String) :
    Placed argon2 dummyHash tr rows (Function.update attempts state none) sets drawn taken where
  distinct := h.distinct
  waiting a ha := by
    obtain ⟨hconfirmed, hdrawn, hnone, hrest⟩ := h.waiting a ha
    refine ⟨hconfirmed, hdrawn, ?_, hrest⟩
    by_cases heq : a.state = state
    · rw [heq, Function.update_self]
    · rw [Function.update_of_ne heq, hnone]
  stored other a ha := by
    by_cases heq : other = state
    · subst heq
      rw [Function.update_self] at ha
      cases ha
    · rw [Function.update_of_ne heq] at ha
      exact h.stored other a ha
  once := h.once
  known := h.known

/-- A callback takes a stored attempt. -/
theorem Placed.take (h : Placed argon2 dummyHash tr rows attempts sets drawn taken) {state : String}
    (hstored : attempts state = some attempt) :
    Placed argon2 dummyHash tr rows (Function.update attempts state none) sets drawn (state :: taken) := by
  obtain ⟨_, _, hdrawn, hnew⟩ := h.stored state attempt hstored
  have hdropped := h.drop state
  refine ⟨h.distinct, fun a ha => ?_, fun other a ha => ?_, ?_, ?_⟩
  · obtain ⟨hconfirmed, hin, hnone, hrest⟩ := hdropped.waiting a ha
    refine ⟨hconfirmed, hin, hnone, ?_⟩
    rw [List.mem_cons, not_or]
    refine ⟨fun heq => ?_, hrest⟩
    have hold := (h.waiting a ha).2.2.1
    rw [heq, hstored] at hold
    cases hold
  · obtain ⟨hconfirmed, heq, hin, hrest⟩ := hdropped.stored other a ha
    refine ⟨hconfirmed, heq, hin, ?_⟩
    rw [List.mem_cons, not_or]
    refine ⟨fun hsame => ?_, hrest⟩
    subst hsame
    rw [Function.update_self] at ha
    cases ha
  · exact List.nodup_cons.mpr ⟨hnew, h.once⟩
  · intro other hin
    rcases List.mem_cons.mp hin with rfl | hin
    · exact hdrawn
    · exact h.known other hin

/-- A committed transaction inserts rows; every other step of a transaction leaves them. -/
theorem moved (hc : Coherent signIns w.db) (hsound : Sound w.db.db) {e : Txn.Event Request} {db : Database}
    (hs : Txn.Step signIns w.db e db) : Sound db.db ∧ ∀ row ∈ w.db.db.rows, row ∈ db.db.rows := by
  rcases hs.moves hc with ⟨_, hsame | henv⟩ | ⟨i, t, b, r, _, _, _, he⟩
  · rw [hsame]
    exact ⟨hsound, fun _ h => h⟩
  · have heq : db.db.rows = w.db.db.rows := henv
    exact ⟨hsound.of_rows heq, fun _ h => by rwa [heq]⟩
  · obtain ⟨ha, hkept, _⟩ := he.inserts (inserts_handler _) hsound.apart
    exact ⟨hsound.commit (commit_of_exec he) ha, fun _ h => hkept.subset h⟩

theorem rows_kept (h : Invariant argon2 dummyHash tr w) (hs : Step argon2 dummyHash w ev w') :
    ∀ row ∈ w.db.db.rows, row ∈ w'.db.db.rows := by
  cases hs with
  | tx hstep _ => exact (moved h.coherent h.sound hstep).2
  | _ => exact fun _ h => h

theorem checkedState_some {state browserState : Option String} {s : String}
    (h : IdentityOidcSignInCommandHandler.checkedState state browserState = some s) : browserState = some s := by
  obtain ⟨_, hp⟩ := Option.filter_eq_some_iff.mp h
  rw [Bool.and_eq_true] at hp
  simpa using hp.2

theorem checkedAttempt_some {provider : IdentityProvider} {stored : Option OidcSignInAttempt}
    (h : IdentityOidcSignInCommandHandler.checkedAttempt provider stored = some attempt) :
    stored = some attempt ∧ attempt.provider = provider := by
  obtain ⟨hsome, hp⟩ := Option.filter_eq_some_iff.mp h
  exact ⟨hsome, beq_iff_eq.mp hp⟩

/-- An attempt to link was stored by the request that is being answered now. -/
theorem Confirmed.begun {n : Nat} {identityPublicId password : String} {identity : Identity}
    (hfound : findIdentity w.db.db (fun row => row.publicId == identityPublicId) = some identity)
    (hpassword : PasswordService.verify argon2 dummyHash identity.passwordHash password = true)
    (hlink : attempt.linkIdentityPublicId = some identity.publicId) :
    Confirmed argon2 dummyHash (tr ++ [(w, .link n identityPublicId password attempt)]) w.db.db.rows attempt := by
  intro publicId heq
  obtain ⟨hidentity, hp⟩ := findIdentity_some hfound
  have hsame : identity.publicId = publicId := Option.some_inj.mp (hlink.symm.trans heq)
  refine ⟨identity, hidentity, hsame, _, List.mem_append_right _ List.mem_cons_self, n, password, ?_, hpassword⟩
  have hpublic : identity.publicId = identityPublicId := by simpa using hp
  rw [← hsame, hpublic]

theorem placed_step (h : Invariant argon2 dummyHash tr w) (hs : Step argon2 dummyHash w ev w') :
    Placed argon2 dummyHash (tr ++ [(w, ev)]) w'.db.db.rows w'.attempts w'.sets w'.drawn w'.taken := by
  have hlater := h.placed.later (w, ev) (rows_kept h hs)
  cases hs with
  | authorize _ hnew hlink =>
    apply hlater.draw _ hnew
    intro publicId heq
    rw [hlink] at heq
    cases heq
  | link _ hnew hfound hpassword hlink => exact hlater.draw (.begun hfound hpassword hlink) hnew
  | set hin => exact hlater.set hin
  | take _ hchecked => exact hlater.take (checkedAttempt_some hchecked).1
  | drop => exact hlater.drop _
  | redirect _ _ => exact hlater
  | callback _ _ => exact hlater
  | exchange _ => exact hlater
  | exchanged _ _ => exact hlater
  | fail _ => exact hlater
  | tx _ _ => exact hlater

theorem proper_put {n m : Nat} {calls : Nat → Call} {call : Call}
    (h : ∀ n, (calls n).Proper argon2 dummyHash tr rows) (hcall : call.Proper argon2 dummyHash tr rows) :
    (Function.update calls n call m).Proper argon2 dummyHash tr rows := by
  by_cases heq : m = n
  · subst heq
    rw [Function.update_self]
    exact hcall
  · rw [Function.update_of_ne heq]
    exact h m

theorem calls_step (h : Invariant argon2 dummyHash tr w) (hs : Step argon2 dummyHash w ev w') (m : Nat) :
    (w'.calls m).Proper argon2 dummyHash (tr ++ [(w, ev)]) w'.db.db.rows := by
  have hlater : ∀ n, (w.calls n).Proper argon2 dummyHash (tr ++ [(w, ev)]) w'.db.db.rows :=
    fun n => (h.calls n).later (w, ev) (rows_kept h hs)
  cases hs with
  | authorize _ _ _ => exact proper_put hlater trivial
  | link _ _ _ _ _ => exact proper_put hlater trivial
  | set _ => exact hlater m
  | redirect _ _ => exact proper_put hlater trivial
  | callback _ hchecked => exact proper_put hlater (checkedState_some hchecked)
  | @take n provider state browserState attempt hcall hchecked =>
    obtain ⟨hstored, hprovider⟩ := checkedAttempt_some hchecked
    obtain ⟨hconfirmed, heq, _⟩ := h.placed.stored _ _ hstored
    have htaking := h.calls n
    rw [hcall] at htaking
    refine proper_put hlater ⟨hconfirmed.later _ fun _ hrow => hrow, hprovider, ?_⟩
    rw [heq]
    exact htaking
  | @exchange n provider browserState attempt hcall =>
    have htaken := h.calls n
    rw [hcall] at htaken
    exact proper_put hlater ⟨htaken.1.later _ fun _ hrow => hrow, htaken.2⟩
  | @exchanged n provider browserState attempt external email hcall hverified =>
    have hexchanging := h.calls n
    rw [hcall] at hexchanging
    obtain ⟨hconfirmed, hprovider, hstate⟩ := hexchanging
    exact proper_put hlater ⟨hconfirmed.later _ fun _ hrow => hrow, hprovider, hstate, hverified⟩
  | fail _ => exact proper_put hlater trivial
  | drop => exact hlater m
  | @tx e db hstep _ =>
    cases e with
    | begin n q =>
      cases q with
      | register gen input passwordHash => exact proper_put hlater trivial
      | signIn gen provider external email => exact hlater m
      | link gen provider external identityPublicId => exact hlater m
    | commit n => exact proper_put hlater trivial
    | rollback n => exact proper_put hlater trivial
    | statement n => exact hlater m
    | abort n => exact hlater m
    | env => exact hlater m

/-- The calls before their transaction. -/
def Call.waits : Call → Bool
  | .registering => false
  | .transacting .. => false
  | _ => true

theorem Runs.not_waits {call : Call} {q : Request} (h : Runs call q) : call.waits = false := by
  cases h <;> rfl

/-- Only a call without a transaction moves by itself. -/
theorem runs_put {txs : Nat → Option (Tx Key Tables Failure IdentityToken Request)} {calls : Nat → Call}
    (h : ∀ m t, txs m = some t → Runs (calls m) t.request) {n : Nat} (hwaits : (calls n).waits = true) (call : Call)
    {m : Nat} {t : Tx Key Tables Failure IdentityToken Request} (ht : txs m = some t) :
    Runs (Function.update calls n call m) t.request := by
  have hne : m ≠ n := by
    rintro rfl
    rw [(h m t ht).not_waits] at hwaits
    cases hwaits
  rw [Function.update_of_ne hne]
  exact h m t ht

theorem runs_closed {c : Database} {calls : Nat → Call} (h : ∀ m t, c.txs m = some t → Runs (calls m) t.request)
    {n : Nat} (call : Call) {m : Nat} {t : Tx Key Tables Failure IdentityToken Request}
    (ht : (c.set n none).txs m = some t) : Runs (Function.update calls n call m) t.request := by
  have hne : m ≠ n := by
    rintro rfl
    rw [Config.set_self] at ht
    cases ht
  rw [Config.set_other c hne] at ht
  rw [Function.update_of_ne hne]
  exact h m t ht

theorem runs_same {c : Database} {calls : Nat → Call} (h : ∀ m t, c.txs m = some t → Runs (calls m) t.request)
    {n : Nat} {u : Tx Key Tables Failure IdentityToken Request} (hu : Runs (calls n) u.request) {m : Nat}
    {t : Tx Key Tables Failure IdentityToken Request} (ht : (c.set n (some u)).txs m = some t) :
    Runs (calls m) t.request := by
  by_cases heq : m = n
  · subst heq
    rw [Config.set_self] at ht
    cases ht
    exact hu
  · rw [Config.set_other c heq] at ht
    exact h m t ht

theorem runs_begun {c : Database} {calls : Nat → Call} (h : ∀ m t, c.txs m = some t → Runs (calls m) t.request)
    {n : Nat} {q : Request} (hnone : c.txs n = none) (hfits : Fits (calls n) q) {m : Nat}
    {t : Tx Key Tables Failure IdentityToken Request}
    (ht : (c.set n (some ⟨q, handler q, id, []⟩)).txs m = some t) : Runs (settle calls (.begin n q) m) t.request := by
  generalize hcall : calls n = call at hfits
  cases hfits with
  | @register gen input passwordHash =>
    have hother : ∀ k u, c.txs k = some u → Runs (Function.update calls n .registering k) u.request := by
      intro k u hu
      have hne : k ≠ n := by
        rintro rfl
        rw [hnone] at hu
        cases hu
      rw [Function.update_of_ne hne]
      exact h k u hu
    apply runs_same hother _ ht
    rw [Function.update_self]
    exact .register
  | @callback gen provider browserState attempt external email =>
    have hsettle : settle calls (.begin n
        (IdentityOidcSignInCommandHandler.request gen provider attempt external email)) = calls := by
      unfold IdentityOidcSignInCommandHandler.request
      split <;> rfl
    rw [hsettle]
    apply runs_same h _ ht
    rw [hcall]
    exact .callback

theorem runs_step (h : Invariant argon2 dummyHash tr w) (hs : Step argon2 dummyHash w ev w') {m : Nat}
    {t : Tx Key Tables Failure IdentityToken Request} (ht : w'.db.txs m = some t) : Runs (w'.calls m) t.request := by
  cases hs with
  | authorize hcall _ _ => exact runs_put h.runs (hcall ▸ rfl) _ ht
  | link hcall _ _ _ _ => exact runs_put h.runs (hcall ▸ rfl) _ ht
  | set _ => exact h.runs m t ht
  | redirect hcall _ => exact runs_put h.runs (hcall ▸ rfl) _ ht
  | callback hcall _ => exact runs_put h.runs (hcall ▸ rfl) _ ht
  | take hcall _ => exact runs_put h.runs (hcall ▸ rfl) _ ht
  | exchange hcall => exact runs_put h.runs (hcall ▸ rfl) _ ht
  | exchanged hcall _ => exact runs_put h.runs (hcall ▸ rfl) _ ht
  | @fail n hnone =>
    have hne : m ≠ n := by
      rintro rfl
      exact absurd ht (by simp [World.put, hnone])
    show Runs (Function.update w.calls n .idle m) t.request
    rw [Function.update_of_ne hne]
    exact h.runs m t ht
  | drop => exact h.runs m t ht
  | @tx e db hstep hfits =>
    cases hstep with
    | begin hnone _ => exact runs_begun h.runs hnone (hfits _ _ rfl) ht
    | peek hi _ =>
      have hopen := h.runs _ _ hi
      apply runs_same h.runs _ ht
      exact hopen
    | stmt hi _ _ =>
      have hopen := h.runs _ _ hi
      apply runs_same h.runs _ ht
      exact hopen
    | commit _ _ => exact runs_closed h.runs _ ht
    | rollback _ _ => exact runs_closed h.runs _ ht
    | @abort n u hi =>
      have hne : m ≠ n := by
        rintro rfl
        rw [Config.set_self] at ht
        cases ht
      rw [Config.set_other w.db hne] at ht
      exact h.runs m t ht
    | env _ => exact h.runs m t ht

theorem invariant_step (h : Invariant argon2 dummyHash tr w) (hs : Step argon2 dummyHash w ev w') :
    Invariant argon2 dummyHash (tr ++ [(w, ev)]) w' where
  coherent := by
    cases hs with
    | tx hstep _ => exact coherent_step h.coherent hstep
    | _ => exact h.coherent
  sound := by
    cases hs with
    | tx hstep _ => exact (moved h.coherent h.sound hstep).1
    | _ => exact h.sound
  placed := placed_step h hs
  calls := calls_step h hs
  runs _ _ ht := runs_step h hs ht

theorem invariant_run {s : Tables} (h : Sound s) (hr : Run (Step argon2 dummyHash) (World.start s) tr w) :
    Invariant argon2 dummyHash tr w := by
  induction hr with
  | nil => exact invariant_start h
  | snoc _ hstep ih => exact invariant_step ih hstep

end

end MarketplaceApi.SignIn
