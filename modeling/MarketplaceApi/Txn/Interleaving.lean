import Mathlib.Logic.Function.Basic
import MarketplaceApi.Transition.Run
import MarketplaceApi.Txn.Program

/-!
# Interleaved transactions at READ COMMITTED

Any number of transactions run statement by statement. Writes stay in the transaction
until it commits; locks are kept until it ends. A view is the latest committed state
under the transaction's own writes. The result of the module is `Step.serial`: a commit
publishes exactly what the whole program, run alone on the committed state of that
moment, would have published.
-/
namespace MarketplaceApi.Txn

open Transition

/-- The transactions of a component: one program for each kind of request. `allowed` says in
which committed states a request may begin, `env` what may change outside every lock. -/
structure System (K S E R Q : Type) where
  isolation : Isolation K S
  handler : Q → Prog K S E R
  allowed : S → Q → Prop
  env : S → S → Prop
  safe : ∀ q b, (handler q).Safe isolation b
  env_part : ∀ {s s'}, env s s' → ∀ k, isolation.part k s' = isolation.part k s
  env_le : ∀ {s s'}, env s s' → isolation.le s s'

/-- An open transaction: what is left to run, its own writes, the locks it holds. -/
structure Tx (K S E R Q : Type) where
  request : Q
  rest : Prog K S E R
  pend : S → S
  locks : List K

structure Config (K S E R Q : Type) where
  db : S
  txs : Nat → Option (Tx K S E R Q)
  answers : List (Q × Except E R)

inductive Event (Q : Type) where
  | begin (i : Nat) (q : Q)
  | statement (i : Nat)
  | commit (i : Nat)
  | rollback (i : Nat)
  | abort (i : Nat)
  | env

variable {K S E R Q : Type}

def Config.start (s : S) : Config K S E R Q := ⟨s, fun _ => none, []⟩

def Config.set (c : Config K S E R Q) (i : Nat) (t : Option (Tx K S E R Q)) : Config K S E R Q :=
  { c with txs := Function.update c.txs i t }

@[simp] theorem Config.set_db (c : Config K S E R Q) (i : Nat) (t : Option (Tx K S E R Q)) :
    (c.set i t).db = c.db := rfl

@[simp] theorem Config.set_answers (c : Config K S E R Q) (i : Nat) (t : Option (Tx K S E R Q)) :
    (c.set i t).answers = c.answers := rfl

theorem Config.set_self (c : Config K S E R Q) (i : Nat) (t : Option (Tx K S E R Q)) :
    (c.set i t).txs i = t := Function.update_self ..

theorem Config.set_other (c : Config K S E R Q) {i j : Nat} (h : j ≠ i) (t : Option (Tx K S E R Q)) :
    (c.set i t).txs j = c.txs j := Function.update_of_ne h ..

/-- A statement waits while another open transaction holds one of its locks. -/
def Config.Free (c : Config K S E R Q) (i : Nat) (ks : List K) : Prop :=
  ∀ j u, j ≠ i → c.txs j = some u → ∀ k ∈ ks, k ∉ u.locks

/-- One step of one transaction. `abort` is a crash, a lost connection or a deadlock victim. -/
inductive Step (Y : System K S E R Q) :
    Config K S E R Q → Event Q → Config K S E R Q → Prop
  | begin {c i q} : c.txs i = none → Y.allowed c.db q →
      Step Y c (.begin i q) (c.set i (some ⟨q, Y.handler q, id, []⟩))
  | peek {c i t next} : c.txs i = some t → t.rest = .peek next →
      Step Y c (.statement i) (c.set i (some { t with rest := next (t.pend c.db) }))
  | stmt {c i t ks w next} : c.txs i = some t → t.rest = .stmt ks w next → c.Free i ks →
      Step Y c (.statement i) (c.set i (some { t with
        rest := next (t.pend c.db), pend := w ∘ t.pend, locks := t.locks ++ ks }))
  | commit {c i t r} : c.txs i = some t → t.rest = .ret r →
      Step Y c (.commit i)
        { (c.set i none) with db := t.pend c.db, answers := (t.request, .ok r) :: c.answers }
  | rollback {c i t e} : c.txs i = some t → t.rest = .throw e →
      Step Y c (.rollback i) { (c.set i none) with answers := (t.request, .error e) :: c.answers }
  | abort {c i t} : c.txs i = some t → Step Y c (.abort i) (c.set i none)
  | env {c s'} : Y.env c.db s' → Step Y c .env { c with db := s' }

/-- `Progress I b p s f q ks`: on `s`, the statements of `p` run so far have the writes `f`
and the locks `ks`, and leave `q` to run. -/
inductive Progress (I : Isolation K S) :
    S → Prog K S E R → S → (S → S) → Prog K S E R → List K → Prop
  | refl {b p s} : Progress I b p s id p []
  | peek {b s f q ks next} (v : S) : I.le b v → I.le v s →
      Progress I v (next v) s f q ks → Progress I b (.peek next) s f q ks
  | stmt {b s f q ks ks' w next} : Progress I b (next s) (w s) f q ks' →
      Progress I b (.stmt ks w next) s (f ∘ w) q (ks ++ ks')

section
variable {I : Isolation K S} {b s s' : S} {f : S → S} {p q : Prog K S E R} {ks : List K}

theorem Progress.grows (h : Progress I b p s f q ks) (hp : p.Safe I b) (hb : I.le b s) :
    I.le s (f s) := by
  induction h with
  | refl => exact I.le_refl _
  | peek v _ hv _ ih => exact ih (hp v ‹_›) hv
  | stmt _ ih =>
    have hg := hp.1.grows hb
    exact I.le_trans hg (ih (hp.2.2 _ hb) (I.le_trans hb hg))

/-- The writes of a transaction touch only what its locks protect. -/
theorem Progress.frame (h : Progress I b p s f q ks) (hp : p.Safe I b) (hb : I.le b s)
    {k : K} (hk : k ∉ ks) : I.part k (f s) = I.part k s := by
  induction h with
  | refl => rfl
  | peek v _ hv _ ih => exact ih (hp v ‹_›) hv hk
  | stmt _ ih =>
    rw [List.mem_append, not_or] at hk
    have hi := ih (hp.2.2 _ hb) (I.le_trans hb (hp.1.grows hb)) hk.2
    exact hi.trans (hp.1.frame hb _ hk.1)

/-- Progress survives any change of the database outside the locks: replaying the program
on the changed state takes the same branches and has the same writes. -/
theorem Progress.stable (h : Progress I b p s f q ks) (hp : p.Safe I b) (hb : I.le b s)
    (hle : I.le s s') (ha : I.Agree ks s s') : Progress I b p s' f q ks := by
  induction h generalizing s' with
  | refl => exact .refl
  | peek v hbv hv _ ih =>
    exact .peek v hbv (I.le_trans hv hle) (ih (hp v hbv) hv hle ha)
  | @stmt b s f q ks ks' w next _ ih =>
    have hb' := I.le_trans hb hle
    have ha₁ : I.Agree ks s s' := fun k hk => ha k (List.mem_append_left _ hk)
    have ha₂ : I.Agree ks' (w s) (w s') := by
      intro k hk
      by_cases hin : k ∈ ks
      · exact hp.1.inside hb hb' ha₁ k hin
      · rw [hp.1.frame hb k hin, hp.1.frame hb' k hin]
        exact ha k (List.mem_append_right _ hk)
    have hs := ih (hp.2.2 s hb) (I.le_trans hb (hp.1.grows hb)) (hp.1.mono hb hle ha₁) ha₂
    rw [hp.2.1 s s' hb hb' ha₁] at hs
    exact .stmt hs

/-- One more look, at the view of the moment. -/
theorem Progress.look {next : S → Prog K S E R} (h : Progress I b p s f (.peek next) ks)
    (hp : p.Safe I b) (hb : I.le b s) : Progress I b p s f (next (f s)) ks := by
  generalize hq : (Prog.peek next : Prog K S E R) = q at h
  induction h with
  | refl => subst hq; exact .peek _ hb (I.le_refl _) .refl
  | peek v hbv hv _ ih => exact .peek v hbv hv (ih (hp v hbv) hv hq)
  | stmt _ ih => exact .stmt (ih (hp.2.2 _ hb) (I.le_trans hb (hp.1.grows hb)) hq)

/-- One more statement, on the view of the moment. -/
theorem Progress.write {ks' : List K} {w : S → S} {next : S → Prog K S E R}
    (h : Progress I b p s f (.stmt ks' w next) ks) :
    Progress I b p s (w ∘ f) (next (f s)) (ks ++ ks') := by
  generalize hq : (Prog.stmt ks' w next : Prog K S E R) = q at h
  induction h with
  | @refl b p s =>
    subst hq
    have h : Progress I b (.stmt ks' w next) s (id ∘ w) (next s) (ks' ++ []) := .stmt .refl
    simpa using h
  | peek v hbv hv _ ih => exact .peek v hbv hv (ih hq)
  | stmt _ ih =>
    rw [List.append_assoc]
    exact .stmt (ih hq)

/-- A program that has run to its end holds the locks of its first statement. -/
theorem Progress.head_locks {ks' : List K} {w : S → S} {next : S → Prog K S E R} {r : R}
    (h : Progress I b (.stmt ks' w next) s f (.ret r) ks) : ∀ k ∈ ks', k ∈ ks := by
  cases h with
  | stmt _ => exact fun k hk => List.mem_append_left _ hk

theorem Progress.exec {r : R} (h : Progress I b p s f (.ret r) ks) : Exec I b p s (f s) (.ok r) := by
  generalize hq : (Prog.ret r : Prog K S E R) = q at h
  induction h with
  | refl => subst hq; exact .ret
  | peek v hbv hv _ ih => exact .peek v hbv hv (ih hq)
  | stmt _ ih => exact .stmt (ih hq)

theorem Progress.exec_error {e : E} (h : Progress I b p s f (.throw e) ks) :
    Exec I b p s (f s) (.error e) := by
  generalize hq : (Prog.throw e : Prog K S E R) = q at h
  induction h with
  | refl => subst hq; exact .throw
  | peek v hbv hv _ ih => exact .peek v hbv hv (ih hq)
  | stmt _ ih => exact .stmt (ih hq)

end

variable {Y : System K S E R Q} {c c' : Config K S E R Q} {ev : Event Q}

/-- What holds between the open transactions and the committed state at every moment. -/
structure Coherent (Y : System K S E R Q) (c : Config K S E R Q) : Prop where
  progress : ∀ i t, c.txs i = some t → ∃ b, Y.allowed b t.request ∧ Y.isolation.le b c.db ∧
    Progress Y.isolation b (Y.handler t.request) c.db t.pend t.rest t.locks
  exclusive : ∀ i j t u, c.txs i = some t → c.txs j = some u → i ≠ j → ∀ k ∈ t.locks, k ∉ u.locks

theorem coherent_start (s : S) : Coherent Y (Config.start s) where
  progress i t h := by simp [Config.start] at h
  exclusive i j t u h := by simp [Config.start] at h

/-- Replacing one transaction, the committed state being kept. -/
theorem Coherent.set (h : Coherent Y c) {i : Nat} {t : Tx K S E R Q}
    (hp : ∃ b, Y.allowed b t.request ∧ Y.isolation.le b c.db ∧
      Progress Y.isolation b (Y.handler t.request) c.db t.pend t.rest t.locks)
    (hx : ∀ j u, j ≠ i → c.txs j = some u → ∀ k ∈ t.locks, k ∉ u.locks) :
    Coherent Y (c.set i (some t)) where
  progress j u hj := by
    by_cases e : j = i
    · subst e
      rw [Config.set_self] at hj
      cases hj
      exact hp
    · rw [Config.set_other c e] at hj
      exact h.progress j u hj
  exclusive j l u v hj hl hne k hk := by
    by_cases e : j = i
    · subst e
      rw [Config.set_self] at hj
      rw [Config.set_other c hne.symm] at hl
      cases hj
      exact hx l v hne.symm hl k hk
    · rw [Config.set_other c e] at hj
      by_cases e' : l = i
      · subst e'
        rw [Config.set_self] at hl
        cases hl
        exact fun hkv => hx j u e hj k hkv hk
      · rw [Config.set_other c e'] at hl
        exact h.exclusive j l u v hj hl hne k hk

/-- Ending one transaction, the others seeing a change outside their locks only. -/
theorem Coherent.finish (h : Coherent Y c) {i : Nat} {s' : S} {as : List (Q × Except E R)}
    (hle : Y.isolation.le c.db s')
    (ha : ∀ j u, j ≠ i → c.txs j = some u → Y.isolation.Agree u.locks c.db s') :
    Coherent Y { (c.set i none) with db := s', answers := as } where
  progress j u hj := by
    have e : j ≠ i := by
      rintro rfl
      rw [show ({ (c.set j none) with db := s', answers := as } : Config K S E R Q).txs j = none from
        Config.set_self ..] at hj
      cases hj
    change (c.set i none).txs j = some u at hj
    rw [Config.set_other c e] at hj
    obtain ⟨b, hq, hb, hp⟩ := h.progress j u hj
    exact ⟨b, hq, Y.isolation.le_trans hb hle, hp.stable (Y.safe _ b) hb hle (ha j u e hj)⟩
  exclusive j l u v hj hl hne := by
    have live : ∀ {m w}, (c.set i none).txs m = some w → c.txs m = some w := by
      intro m w hm
      by_cases e : m = i
      · subst e; rw [Config.set_self] at hm; cases hm
      · rwa [Config.set_other c e] at hm
    exact h.exclusive j l u v (live hj) (live hl) hne

theorem coherent_step (h : Coherent Y c) (hs : Step Y c ev c') : Coherent Y c' := by
  cases hs with
  | begin hi hq =>
    exact h.set ⟨c.db, hq, Y.isolation.le_refl _, .refl⟩ (by intro j u _ _ k hk; cases hk)
  | @peek i t next hi hr =>
    obtain ⟨b, hq, hb, hp⟩ := h.progress i t hi
    rw [hr] at hp
    exact h.set ⟨b, hq, hb, hp.look (Y.safe _ b) hb⟩
      fun j u hj hu => h.exclusive i j t u hi hu hj.symm
  | @stmt i t ks w next hi hr hfree =>
    obtain ⟨b, hq, hb, hp⟩ := h.progress i t hi
    rw [hr] at hp
    refine h.set ⟨b, hq, hb, hp.write⟩ fun j u hj hu k hk => ?_
    rcases List.mem_append.mp hk with hold | hnew
    · exact h.exclusive i j t u hi hu hj.symm k hold
    · exact hfree j u hj hu k hnew
  | @commit i t r hi hr =>
    obtain ⟨b, hq, hb, hp⟩ := h.progress i t hi
    refine h.finish (hp.grows (Y.safe _ b) hb) fun j u hj hu k hk => ?_
    exact (hp.frame (Y.safe _ b) hb (h.exclusive j i u t hu hi hj k hk)).symm
  | rollback hi hr => exact h.finish (Y.isolation.le_refl _) fun _ _ _ _ _ _ => rfl
  | abort hi => exact h.finish (Y.isolation.le_refl _) fun _ _ _ _ _ _ => rfl
  | env he =>
    refine ⟨fun i t hi => ?_, h.exclusive⟩
    obtain ⟨b, hq, hb, hp⟩ := h.progress i t hi
    exact ⟨b, hq, Y.isolation.le_trans hb (Y.env_le he),
      hp.stable (Y.safe _ b) hb (Y.env_le he) fun k _ => (Y.env_part he k).symm⟩

theorem coherent_run {s : S} {tr : List (Config K S E R Q × Event Q)}
    (hr : Run (Step Y) (Config.start s) tr c) : Coherent Y c :=
  hr.invariant (coherent_start s) coherent_step

/-- What one step means for the committed state and the answers given: nothing, one whole
program, one error, or a change outside every lock. -/
inductive Serial (Y : System K S E R Q) (c : Config K S E R Q) (ev : Event Q)
    (c' : Config K S E R Q) : Prop
  | quiet : c'.db = c.db → c'.answers = c.answers → (∀ i, ev ≠ .commit i ∧ ev ≠ .rollback i) →
      Serial Y c ev c'
  | commit (i : Nat) (t : Tx K S E R Q) (b : S) (r : R) : ev = .commit i → c.txs i = some t →
      Y.allowed b t.request → Y.isolation.le b c.db → Exec Y.isolation b (Y.handler t.request) c.db c'.db (.ok r) →
      c'.answers = (t.request, .ok r) :: c.answers → Serial Y c ev c'
  | fail (i : Nat) (t : Tx K S E R Q) (b m : S) (e : E) : ev = .rollback i → c.txs i = some t →
      Y.allowed b t.request → Y.isolation.le b c.db → Exec Y.isolation b (Y.handler t.request) c.db m (.error e) →
      c'.db = c.db → c'.answers = (t.request, .error e) :: c.answers → Serial Y c ev c'
  | env : ev = .env → Y.env c.db c'.db → c'.answers = c.answers → Serial Y c ev c'

/-- Interleaving adds nothing: every step of a coherent configuration is one of the serial kinds. -/
theorem Step.serial (hs : Step Y c ev c') (h : Coherent Y c) : Serial Y c ev c' := by
  cases hs with
  | begin _ _ => exact .quiet rfl rfl (by simp)
  | peek _ _ => exact .quiet rfl rfl (by simp)
  | stmt _ _ _ => exact .quiet rfl rfl (by simp)
  | @commit i t r hi hr =>
    obtain ⟨b, hq, hb, hp⟩ := h.progress i t hi
    rw [hr] at hp
    exact .commit i t b r rfl hi hq hb hp.exec rfl
  | @rollback i t e hi hr =>
    obtain ⟨b, hq, hb, hp⟩ := h.progress i t hi
    rw [hr] at hp
    exact .fail i t b _ e rfl hi hq hb hp.exec_error rfl rfl
  | abort _ => exact .quiet rfl rfl (by simp)
  | env he => exact .env rfl he rfl

/-- The committed state moves by the commit of a whole program, or by the environment. -/
theorem Step.moves (hs : Step Y c ev c') (h : Coherent Y c) :
    ((∀ i, ev ≠ .commit i) ∧ (c'.db = c.db ∨ Y.env c.db c'.db)) ∨ ∃ i t b r, ev = .commit i ∧
      c.txs i = some t ∧ Y.allowed b t.request ∧
      Exec Y.isolation b (Y.handler t.request) c.db c'.db (.ok r) := by
  rcases hs.serial h with ⟨hd, _, hev⟩ | ⟨i, t, b, r, hev, hi, hq, _, he, _⟩ |
    ⟨i, _, _, _, _, rfl, _, _, _, _, hd, _⟩ | ⟨rfl, henv, _⟩
  · exact Or.inl ⟨fun i => (hev i).1, Or.inl hd⟩
  · exact Or.inr ⟨i, t, b, r, hev, hi, hq, he⟩
  · exact Or.inl ⟨nofun, Or.inl hd⟩
  · exact Or.inl ⟨nofun, Or.inr henv⟩

/-- The rule for interleaved transactions: what whole programs and errors preserve, and the
environment preserves, holds of the committed state and the answers in every run. -/
theorem run_serial_invariant {J : S → List (Q × Except E R) → Prop} {s : S}
    {tr : List (Config K S E R Q × Event Q)} (h₀ : J s [])
    (hcommit : ∀ {q b u u' as r}, J u as → Y.allowed b q → Y.isolation.le b u →
      Exec Y.isolation b (Y.handler q) u u' (.ok r) → J u' ((q, .ok r) :: as))
    (hfail : ∀ {q b u m as e}, J u as → Y.allowed b q → Y.isolation.le b u →
      Exec Y.isolation b (Y.handler q) u m (.error e) → J u ((q, .error e) :: as))
    (henv : ∀ {u u' as}, J u as → Y.env u u' → J u' as)
    (hr : Run (Step Y) (Config.start s) tr c) : J c.db c.answers := by
  induction hr with
  | nil => exact h₀
  | snoc hr hstep ih =>
    rcases hstep.serial (coherent_run hr) with ⟨hd, ha, _⟩ | ⟨i, t, b, r, _, _, hq, hb, he, ha⟩ |
      ⟨_, t, b, m, e, _, _, hq, hb, he, hd, ha⟩ | ⟨_, he, ha⟩
    · rw [hd, ha]; exact ih
    · rw [ha]; exact hcommit ih hq hb he
    · rw [hd, ha]; exact hfail ih hq hb he
    · rw [ha]; exact henv ih he

/-- The open requests have what every request had that was begun. -/
theorem Step.requests {P : Q → Prop} (hs : Step Y c ev c') (h : ∀ i t, c.txs i = some t → P t.request)
    (hbegin : ∀ i q, ev = .begin i q → P q) : ∀ i t, c'.txs i = some t → P t.request := by
  have hset : ∀ {i t}, P t.request → ∀ j u, (c.set i (some t)).txs j = some u → P u.request := by
    intro i t ht j u hj
    by_cases he : j = i
    · subst he
      rw [Config.set_self] at hj
      cases hj
      exact ht
    · rw [Config.set_other c he] at hj
      exact h j u hj
  have hclose : ∀ {i} j u, (c.set i none).txs j = some u → P u.request := by
    intro i j u hj
    by_cases he : j = i
    · subst he
      rw [Config.set_self] at hj
      cases hj
    · rw [Config.set_other c he] at hj
      exact h j u hj
  cases hs with
  | begin _ _ => exact hset (hbegin _ _ rfl)
  | @peek i t next hi _ =>
    have ht := h i t hi
    exact hset ht
  | @stmt i t ks w next hi _ _ =>
    have ht := h i t hi
    exact hset ht
  | commit _ _ => exact hclose
  | rollback _ _ => exact hclose
  | abort _ => exact hclose
  | env _ => exact h

/-- The configuration after transaction `i` ended with a given outcome. -/
def Config.close (c : Config K S E R Q) (i : Nat) (q : Q) : Except E (S × R) → Config K S E R Q
  | .ok (s', r) => { (c.set i none) with db := s', answers := (q, .ok r) :: c.answers }
  | .error e => { (c.set i none) with answers := (q, .error e) :: c.answers }

theorem Config.close_set (i : Nat) (t : Option (Tx K S E R Q)) (q : Q) (o : Except E (S × R)) :
    (c.set i t).close i q o = c.close i q o := by
  cases o with
  | ok r => simp only [Config.close, Config.set, Function.update_idem]
  | error e => simp only [Config.close, Config.set, Function.update_idem]

/-- The locks of a transaction, and those it may still take, are of the footprint of its request. -/
theorem uses_run {F : Q → K → Prop} (hF : ∀ q, (Y.handler q).Uses (F q)) {s : S}
    {tr : List (Config K S E R Q × Event Q)} (hr : Run (Step Y) (Config.start s) tr c) :
    ∀ i t, c.txs i = some t → t.rest.Uses (F t.request) ∧ ∀ k ∈ t.locks, F t.request k := by
  induction hr with
  | nil =>
    intro i t h
    simp [Config.start] at h
  | snoc hr hstep ih =>
    have hset : ∀ {c : Config K S E R Q} {i : Nat} {t : Tx K S E R Q},
        (∀ j u, c.txs j = some u → u.rest.Uses (F u.request) ∧ ∀ k ∈ u.locks, F u.request k) →
        (t.rest.Uses (F t.request) ∧ ∀ k ∈ t.locks, F t.request k) →
        ∀ j u, (c.set i (some t)).txs j = some u → u.rest.Uses (F u.request) ∧ ∀ k ∈ u.locks, F u.request k := by
      intro c i t h ht j u hj
      by_cases he : j = i
      · subst he
        rw [Config.set_self] at hj
        cases hj
        exact ht
      · rw [Config.set_other c he] at hj
        exact h j u hj
    have hclose : ∀ {c : Config K S E R Q} {i : Nat},
        (∀ j u, c.txs j = some u → u.rest.Uses (F u.request) ∧ ∀ k ∈ u.locks, F u.request k) →
        ∀ j u, (c.set i none).txs j = some u → u.rest.Uses (F u.request) ∧ ∀ k ∈ u.locks, F u.request k := by
      intro c i h j u hj
      by_cases he : j = i
      · subst he
        rw [Config.set_self] at hj
        cases hj
      · rw [Config.set_other c he] at hj
        exact h j u hj
    cases hstep with
    | @begin i q hi hq => exact hset ih ⟨hF q, nofun⟩
    | @peek i t next hi hrest =>
      obtain ⟨hu, hl⟩ := ih i t hi
      rw [hrest] at hu
      exact hset ih ⟨hu _, hl⟩
    | @stmt i t ks w next hi hrest hfree =>
      obtain ⟨hu, hl⟩ := ih i t hi
      rw [hrest] at hu
      exact hset ih ⟨hu.2 _, fun k hk => (List.mem_append.mp hk).elim (hl k) (hu.1 k)⟩
    | commit _ _ => exact hclose ih
    | rollback _ _ => exact hclose ih
    | abort _ => exact hclose ih
    | env _ => exact ih

/-- Two transactions with disjoint footprints never wait for each other. -/
theorem never_waits {F : Q → K → Prop} (hF : ∀ q, (Y.handler q).Uses (F q)) {s : S}
    {tr : List (Config K S E R Q × Event Q)} (hr : Run (Step Y) (Config.start s) tr c) {i j : Nat}
    {t u : Tx K S E R Q} (hi : c.txs i = some t) (hj : c.txs j = some u)
    (hdisjoint : ∀ k, F t.request k → ¬ F u.request k) {ks : List K} {w : S → S} {next : S → Prog K S E R}
    (hrest : t.rest = .stmt ks w next) : ∀ k ∈ ks, k ∉ u.locks := by
  obtain ⟨ht, _⟩ := uses_run hF hr i t hi
  obtain ⟨_, hu⟩ := uses_run hF hr j u hj
  rw [hrest] at ht
  exact fun k hk hl => hdisjoint k (ht.1 k hk) (hu k hl)

/-- While no other transaction holds a lock it may take, an open transaction can run up to the
step that ends it. -/
theorem drain_uses {i : Nat} {q : Q} {rest : Prog K S E R} {pend : S → S} {locks : List K}
    (hi : c.txs i = some ⟨q, rest, pend, locks⟩)
    (hfree : rest.Uses fun k => ∀ j u, j ≠ i → c.txs j = some u → k ∉ u.locks) :
    ∃ tr last ev, Run (Step Y) c tr last ∧ last.answers = c.answers ∧
      Step Y last ev (c.close i q (rest.run (pend c.db))) ∧ (∀ p ∈ tr, p.2 = .statement i) ∧
      (ev = .commit i ∨ ev = .rollback i) ∧ ∀ j, j ≠ i → last.txs j = c.txs j := by
  induction rest generalizing c pend locks with
  | ret r => exact ⟨[], c, _, .nil, rfl, .commit hi rfl, nofun, Or.inl rfl, fun _ _ => rfl⟩
  | throw e => exact ⟨[], c, _, .nil, rfl, .rollback hi rfl, nofun, Or.inr rfl, fun _ _ => rfl⟩
  | peek next ih =>
    have hstep : Step Y c (.statement i) (c.set i (some ⟨q, next (pend c.db), pend, locks⟩)) :=
      .peek hi rfl
    obtain ⟨tr, last, ev, hr, ha, hlast, htr, hev, hsame⟩ := ih (pend c.db) (Config.set_self c i _)
      ((hfree (pend c.db)).mono fun k hk j u hj hu => hk j u hj (by rwa [Config.set_other c hj] at hu))
    rw [Config.close_set] at hlast
    refine ⟨_, last, ev, (Run.snoc .nil hstep).append hr, ha, hlast, ?_, hev,
      fun j hj => (hsame j hj).trans (Config.set_other c hj _)⟩
    simpa using htr
  | stmt ks w next ih =>
    have hstep : Step Y c (.statement i)
        (c.set i (some ⟨q, next (pend c.db), w ∘ pend, locks ++ ks⟩)) :=
      .stmt hi rfl fun j u hj hu k hk => hfree.1 k hk j u hj hu
    obtain ⟨tr, last, ev, hr, ha, hlast, htr, hev, hsame⟩ := ih (pend c.db) (Config.set_self c i _)
      ((hfree.2 (pend c.db)).mono fun k hk j u hj hu => hk j u hj (by rwa [Config.set_other c hj] at hu))
    rw [Config.close_set] at hlast
    refine ⟨_, last, ev, (Run.snoc .nil hstep).append hr, ha, hlast, ?_, hev,
      fun j hj => (hsame j hj).trans (Config.set_other c hj _)⟩
    simpa using htr

/-- While no other transaction holds a lock, an open transaction can run up to the step that ends it. -/
theorem drain_last {i : Nat} {q : Q} {rest : Prog K S E R} {pend : S → S} {locks : List K}
    (hi : c.txs i = some ⟨q, rest, pend, locks⟩)
    (hfree : ∀ j u, j ≠ i → c.txs j = some u → u.locks = []) :
    ∃ tr last ev, Run (Step Y) c tr last ∧ last.answers = c.answers ∧
      Step Y last ev (c.close i q (rest.run (pend c.db))) := by
  obtain ⟨tr, last, ev, hr, ha, hlast, _⟩ := drain_uses (Y := Y) hi
    (rest.uses_all fun k j u hj hu => by simp [hfree j u hj hu])
  exact ⟨tr, last, ev, hr, ha, hlast⟩

/-- It can run to its end. -/
theorem drain {i : Nat} {q : Q} {rest : Prog K S E R} {pend : S → S} {locks : List K}
    (hi : c.txs i = some ⟨q, rest, pend, locks⟩)
    (hfree : ∀ j u, j ≠ i → c.txs j = some u → u.locks = []) :
    ∃ tr, Run (Step Y) c tr (c.close i q (rest.run (pend c.db))) := by
  obtain ⟨tr, last, ev, hr, _, hlast⟩ := drain_last (Y := Y) hi hfree
  exact ⟨_, .snoc hr hlast⟩

/-- A request can be processed from its first statement to its end without interruption. -/
theorem process {i : Nat} {q : Q} (hi : c.txs i = none) (hq : Y.allowed c.db q)
    (hfree : ∀ j u, c.txs j = some u → u.locks = []) :
    ∃ tr, Run (Step Y) c tr (c.close i q ((Y.handler q).run c.db)) := by
  obtain ⟨tr, hr⟩ := drain (Y := Y) (c := c.set i (some ⟨q, Y.handler q, id, []⟩)) (i := i)
    (Config.set_self c i _) fun j u hj hu => hfree j u (by rwa [Config.set_other c hj] at hu)
  rw [Config.close_set] at hr
  exact ⟨_, (Run.snoc .nil (.begin hi hq)).append hr⟩

/-- A request alone, up to the step that answers it. -/
theorem process_last (q : Q) (s : S) (as : List (Q × Except E R)) {s' : S} {r : R} (hq : Y.allowed s q)
    (h : (Y.handler q).run s = .ok (s', r)) :
    ∃ tr last ev, Run (Step Y) ⟨s, fun _ => none, as⟩ tr last ∧ last.answers = as ∧
      Step Y last ev ⟨s', fun _ => none, (q, .ok r) :: as⟩ := by
  have hbegin : Step Y ⟨s, fun _ => none, as⟩ (.begin 0 q) _ := .begin rfl hq
  obtain ⟨tr, last, ev, hr, ha, hlast⟩ := drain_last (Y := Y)
    (c := (⟨s, fun _ => none, as⟩ : Config K S E R Q).set 0 (some ⟨q, Y.handler q, id, []⟩)) (i := 0)
    (Config.set_self _ 0 _) fun j u hj hu => by
      rw [Config.set_other _ hj] at hu
      cases hu
  rw [Config.close_set] at hlast
  change Step Y last ev (Config.close _ 0 q ((Y.handler q).run s)) at hlast
  simp only [h, Config.close, Config.set, Function.update_eq_self] at hlast
  exact ⟨_, last, ev, (Run.nil.snoc hbegin).append hr, ha, hlast⟩

/-- Requests one after the other, each on the state the previous one left. -/
theorem process_idle (q : Q) (s : S) (as : List (Q × Except E R)) {s' : S} {r : R} (hq : Y.allowed s q)
    (h : (Y.handler q).run s = .ok (s', r)) :
    ∃ tr, Run (Step Y) ⟨s, fun _ => none, as⟩ tr ⟨s', fun _ => none, (q, .ok r) :: as⟩ := by
  obtain ⟨tr, last, ev, hr, _, hlast⟩ := process_last (Y := Y) q s as hq h
  exact ⟨_, .snoc hr hlast⟩

/-- A request alone, all its steps meeting a condition. -/
theorem process_always (Meets : Config K S E R Q → Event Q → Prop) (q : Q) (s : S) (as : List (Q × Except E R))
    {s' : S} {r : R} (hq : Y.allowed s q) (h : (Y.handler q).run s = .ok (s', r))
    (hbegin : Meets ⟨s, fun _ => none, as⟩ (.begin 0 q)) (hstatement : ∀ c, Meets c (.statement 0))
    (hend : ∀ c : Config K S E R Q, (∀ j, j ≠ 0 → c.txs j = none) → Meets c (.commit 0) ∧ Meets c (.rollback 0)) :
    ∃ tr, Run (Step Y) ⟨s, fun _ => none, as⟩ tr ⟨s', fun _ => none, (q, .ok r) :: as⟩ ∧ Always Meets tr := by
  have hfirst : Step Y ⟨s, fun _ => none, as⟩ (.begin 0 q) _ := .begin rfl hq
  have hother : ∀ j, j ≠ 0 → ((⟨s, fun _ => none, as⟩ : Config K S E R Q).set 0
      (some ⟨q, Y.handler q, id, []⟩)).txs j = none := fun j hj => Config.set_other _ hj _
  obtain ⟨tr, last, ev, hr, _, hlast, htr, hev, hsame⟩ := drain_uses (Y := Y)
    (c := (⟨s, fun _ => none, as⟩ : Config K S E R Q).set 0 (some ⟨q, Y.handler q, id, []⟩)) (i := 0)
    (Config.set_self _ 0 _) (Prog.uses_all _ fun k j u hj hu => by
      rw [hother j hj] at hu
      cases hu)
  rw [Config.close_set] at hlast
  change Step Y last ev (Config.close _ 0 q ((Y.handler q).run s)) at hlast
  simp only [h, Config.close, Config.set, Function.update_eq_self] at hlast
  obtain ⟨hcommit, hrollback⟩ := hend last fun j hj => (hsame j hj).trans (hother j hj)
  refine ⟨_, .snoc ((Run.nil.snoc hfirst).append hr) hlast, always_snoc.mpr ⟨always_append.mpr ⟨?_, ?_⟩, ?_⟩⟩
  · exact always_snoc.mpr ⟨always_nil, hbegin⟩
  · intro p hp
    rw [htr p hp]
    exact hstatement p.1
  · rcases hev with rfl | rfl
    · exact hcommit
    · exact hrollback

/-- A request alone begins nothing else. -/
theorem process_begins (q : Q) (s : S) (as : List (Q × Except E R)) {s' : S} {r : R} (hq : Y.allowed s q)
    (h : (Y.handler q).run s = .ok (s', r)) :
    ∃ tr, Run (Step Y) ⟨s, fun _ => none, as⟩ tr ⟨s', fun _ => none, (q, .ok r) :: as⟩ ∧
      Always (fun _ ev => ∀ i q', ev = .begin i q' → q' = q) tr :=
  process_always _ q s as hq h (fun _ _ he => (Event.begin.inj he).2.symm) (fun _ => nofun)
    fun _ _ => ⟨nofun, nofun⟩

/-- Answers are kept. -/
theorem Step.answers_suffix (hs : Step Y c ev c') : c.answers <:+ c'.answers := by
  cases hs with
  | commit _ _ => exact List.suffix_cons _ _
  | rollback _ _ => exact List.suffix_cons _ _
  | _ => exact List.suffix_rfl

theorem statements_db {i : Nat} {tr : List (Config K S E R Q × Event Q)} (hr : Run (Step Y) c tr c')
    (h : ∀ p ∈ tr, p.2 = .statement i) : c'.db = c.db := by
  induction hr with
  | nil => rfl
  | @snoc tr s s' e hr hstep ih =>
    have hlast := h _ (List.mem_append_right _ List.mem_cons_self)
    have hsame := ih fun p hp => h p (List.mem_append_left _ hp)
    cases hlast
    cases hstep <;> exact hsame

/-- A request alone commits after its statements, and nothing is published before. -/
theorem process_commit (i : Nat) (q : Q) (s : S) (as : List (Q × Except E R)) {s' : S} {r : R}
    (h : (Y.handler q).run s = .ok (s', r)) :
    ∃ tr last, Run (Step Y) (Config.set ⟨s, fun _ => none, as⟩ i (some ⟨q, Y.handler q, id, []⟩)) tr last ∧
      (∀ p ∈ tr, p.2 = .statement i) ∧ last.db = s ∧ last.answers = as ∧
      Step Y last (.commit i) ⟨s', fun _ => none, (q, .ok r) :: as⟩ ∧ ∃ t, last.txs i = some t ∧ t.request = q := by
  obtain ⟨tr, last, ev, hr, ha, hlast, htr, hev, _⟩ := drain_uses (Y := Y)
    (c := (⟨s, fun _ => none, as⟩ : Config K S E R Q).set i (some ⟨q, Y.handler q, id, []⟩)) (Config.set_self _ i _)
    (Prog.uses_all _ fun k j u hj hu => by
      rw [Config.set_other _ hj] at hu
      cases hu)
  have hdb := statements_db hr htr
  rw [Config.close_set] at hlast
  change Step Y last ev (Config.close ⟨s, fun _ => none, as⟩ i q ((Y.handler q).run s)) at hlast
  simp only [h, Config.close, Config.set, Function.update_eq_self] at hlast
  refine ⟨tr, last, hr, htr, hdb, ha, ?_⟩
  have hanswer : ∀ c', Step Y last ev c' → c'.answers = (q, .ok r) :: as →
      ev = .commit i ∧ ∃ t, last.txs i = some t ∧ t.request = q := by
    intro c' hstep hanswers
    rcases hev with rfl | rfl
    · cases hstep with
      | commit hi _ => exact ⟨rfl, _, hi, congrArg Prod.fst (List.cons.inj hanswers).1⟩
    · cases hstep with
      | rollback _ _ => cases congrArg Prod.snd (List.cons.inj hanswers).1
  obtain ⟨rfl, hrequest⟩ := hanswer _ hlast rfl
  exact ⟨hlast, hrequest⟩

/-- A request alone commits on the state it began with; its other steps end nothing. -/
theorem process_meets (Meets : Config K S E R Q → Event Q → Prop) (q : Q) (s : S) (as : List (Q × Except E R))
    {s' : S} {r : R} (hq : Y.allowed s q) (h : (Y.handler q).run s = .ok (s', r))
    (hopen : ∀ c ev, (∀ i, ev ≠ .commit i ∧ ev ≠ .rollback i) → Meets c ev)
    (hcommit : ∀ c t, c.db = s → c.txs 0 = some t → t.request = q → Meets c (.commit 0)) :
    ∃ tr, Run (Step Y) ⟨s, fun _ => none, as⟩ tr ⟨s', fun _ => none, (q, .ok r) :: as⟩ ∧ Always Meets tr := by
  have hbegin : Step Y ⟨s, fun _ => none, as⟩ (.begin 0 q) _ := .begin rfl hq
  obtain ⟨tr, last, hr, htr, hdb, _, hstep, t, ht, hrequest⟩ := process_commit (Y := Y) 0 q s as h
  refine ⟨_, ((Run.nil.snoc hbegin).append hr).snoc hstep, always_snoc.mpr ⟨always_append.mpr ⟨?_, ?_⟩, ?_⟩⟩
  · exact always_snoc.mpr ⟨always_nil, hopen _ _ fun _ => ⟨nofun, nofun⟩⟩
  · intro p hp
    rw [htr p hp]
    exact hopen _ _ fun _ => ⟨nofun, nofun⟩
  · exact hcommit last t hdb ht hrequest

/-- A request alone rolls back after its statements. -/
theorem process_rollback (i : Nat) (q : Q) (s : S) (as : List (Q × Except E R)) {e : E}
    (h : (Y.handler q).run s = .error e) :
    ∃ tr last, Run (Step Y) (Config.set ⟨s, fun _ => none, as⟩ i (some ⟨q, Y.handler q, id, []⟩)) tr last ∧
      (∀ p ∈ tr, p.2 = .statement i) ∧ last.answers = as ∧
      Step Y last (.rollback i) ⟨s, fun _ => none, (q, .error e) :: as⟩ := by
  obtain ⟨tr, last, ev, hr, ha, hlast, htr, hev, _⟩ := drain_uses (Y := Y)
    (c := (⟨s, fun _ => none, as⟩ : Config K S E R Q).set i (some ⟨q, Y.handler q, id, []⟩)) (Config.set_self _ i _)
    (Prog.uses_all _ fun k j u hj hu => by
      rw [Config.set_other _ hj] at hu
      cases hu)
  rw [Config.close_set] at hlast
  change Step Y last ev (Config.close ⟨s, fun _ => none, as⟩ i q ((Y.handler q).run s)) at hlast
  simp only [h, Config.close, Config.set, Function.update_eq_self] at hlast
  have hanswer : ∀ c', Step Y last ev c' → c'.answers = (q, .error e) :: as → ev = .rollback i := by
    intro c' hstep hanswers
    rcases hev with rfl | rfl
    · cases hstep with
      | commit _ _ => cases congrArg Prod.snd (List.cons.inj hanswers).1
    · rfl
  obtain rfl := hanswer _ hlast rfl
  exact ⟨tr, last, hr, htr, ha, hlast⟩

/-- The committed state only moves on. -/
theorem Step.later (hs : Step Y c ev c') (h : Coherent Y c) : Y.isolation.le c.db c'.db := by
  rcases hs.serial h with ⟨hd, _, _⟩ | ⟨_, t, _, _, _, _, _, hb, he, _⟩ | ⟨_, _, _, _, _, _, _, _, _, _, hd, _⟩ |
    ⟨_, henv, _⟩
  · rw [hd]
    exact Y.isolation.le_refl _
  · exact he.grows (Y.safe t.request _) hb
  · rw [hd]
    exact Y.isolation.le_refl _
  · exact Y.env_le henv

/-- An open transaction was open before, or it is the one that begins. -/
theorem Step.txs_inv {i : Nat} {t : Tx K S E R Q} (hs : Step Y c ev c') (hi : c'.txs i = some t) :
    ev = .begin i t.request ∨ ∃ u, c.txs i = some u ∧ u.request = t.request := by
  have hset : ∀ {j u}, (c.set j (some u)).txs i = some t → (i = j ∧ t = u) ∨ (i ≠ j ∧ c.txs i = some t) := by
    intro j u hj
    by_cases he : i = j
    · subst he
      rw [Config.set_self] at hj
      exact Or.inl ⟨rfl, (Option.some.inj hj).symm⟩
    · rw [Config.set_other c he] at hj
      exact Or.inr ⟨he, hj⟩
  have hnone : ∀ {j}, (c.set j none).txs i = some t → c.txs i = some t := by
    intro j hj
    by_cases he : i = j
    · subst he
      rw [Config.set_self] at hj
      cases hj
    · rwa [Config.set_other c he] at hj
  cases hs with
  | begin _ _ =>
    rcases hset hi with ⟨rfl, rfl⟩ | ⟨_, hi⟩
    · exact Or.inl rfl
    · exact Or.inr ⟨t, hi, rfl⟩
  | peek hj _ | stmt hj _ _ =>
    rcases hset hi with ⟨rfl, rfl⟩ | ⟨_, hi⟩
    · exact Or.inr ⟨_, hj, rfl⟩
    · exact Or.inr ⟨t, hi, rfl⟩
  | commit _ _ | rollback _ _ | abort _ => exact Or.inr ⟨t, hnone hi, rfl⟩
  | env _ => exact Or.inr ⟨t, hi, rfl⟩

/-- What holds between a request that begins and those that are open holds between any two that are open. -/
theorem open_pairs {G : Q → Q → Prop} (hsymm : ∀ q r, G q r → G r q) {s : S} {tr : List (Config K S E R Q × Event Q)}
    (hr : Run (Step Y) (Config.start s) tr c)
    (hm : Always (fun c ev => ∀ i q, ev = .begin i q → ∀ j u, c.txs j = some u → G q u.request) tr) {i j : Nat}
    {t u : Tx K S E R Q} (hne : i ≠ j) (hi : c.txs i = some t) (hj : c.txs j = some u) : G t.request u.request := by
  induction hr generalizing t u with
  | nil => simp [Config.start] at hi
  | snoc _ hstep ih =>
    obtain ⟨hbefore, hbegin⟩ := always_snoc.mp hm
    rcases hstep.txs_inv hi with rfl | ⟨t', hi', ht⟩
    · rcases hstep.txs_inv hj with he | ⟨u', hj', hu⟩
      · exact absurd (Event.begin.inj he).1 hne
      · rw [← hu]
        exact hbegin i _ rfl j u' hj'
    · rcases hstep.txs_inv hj with rfl | ⟨u', hj', hu⟩
      · rw [← ht]
        exact hsymm _ _ (hbegin j _ rfl i t' hi')
      · rw [← ht, ← hu]
        exact ih hbefore hi' hj'

/-- A transaction can be overtaken: it begins, the environment moves, another request is
processed to its commit, and only then does the first run to its end. -/
theorem overtake (q q' : Q) (s s' : S) {s'' : S} {r : R} (hq : Y.allowed s q) (henv : Y.env s s')
    (hq' : Y.allowed s' q') (h : (Y.handler q').run s' = .ok (s'', r)) :
    ∃ tr c, Run (Step Y) (Config.start s) tr c ∧
      c.answers = [(q, ((Y.handler q).run s'').map Prod.snd), (q', .ok r)] := by
  let waiting : Config K S E R Q := (Config.start s).set 0 (some ⟨q, Y.handler q, id, []⟩)
  have hbegin : Step Y (Config.start s) (.begin 0 q) waiting := .begin rfl hq
  have hmove : Step Y waiting .env { waiting with db := s' } := .env henv
  have hother : ∀ j, j ≠ 0 → waiting.txs j = none := fun j hj => Config.set_other _ hj _
  have hlocks : ∀ j u, waiting.txs j = some u → u.locks = [] := by
    intro j u hu
    by_cases hj : j = 0
    · subst hj
      rw [Config.set_self] at hu
      cases hu
      rfl
    · rw [hother j hj] at hu
      cases hu
  obtain ⟨_, hsecond⟩ := process (Y := Y) (c := { waiting with db := s' }) (i := 1) (q := q')
    (hother 1 (by omega)) hq' hlocks
  rw [h] at hsecond
  have hopen : ((Config.close { waiting with db := s' } 1 q' (.ok (s'', r))).txs 0) =
      some ⟨q, Y.handler q, id, []⟩ := by
    simp only [Config.close, Config.set]
    rw [Function.update_of_ne (by omega)]
    exact Config.set_self _ 0 _
  obtain ⟨_, hlast⟩ := drain (Y := Y) hopen fun j u hj hu => by
    by_cases h1 : j = 1
    · subst h1
      simp [Config.close, Config.set] at hu
    · simp only [Config.close, Config.set, Function.update_of_ne h1] at hu
      exact hlocks j u hu
  refine ⟨_, _, (((Run.nil.snoc hbegin).snoc hmove).append hsecond).append hlast, ?_⟩
  change (Config.close _ 0 q ((Y.handler q).run s'')).answers = _
  cases (Y.handler q).run s'' with
  | ok p => rfl
  | error e => rfl

/-- Two transactions can cross: one takes its first locks and looks, the other runs to its
commit, and only then does the first go on with what it saw. -/
theorem cross (Meets : Config K S E R Q → Event Q → Prop) (q q' : Q) {s s' : S} {r : R} {ks : List K} {w : S → S}
    {next seen : S → Prog K S E R} (hq : Y.allowed s q) (hq' : Y.allowed s q') (hfirst : Y.handler q = .stmt ks w next)
    (hlook : next s = .peek seen) (hfree : (Y.handler q').Uses fun k => k ∉ ks)
    (h : (Y.handler q').run s = .ok (s', r)) (hbegin : Meets (Config.start s) (.begin 0 q))
    (hbegin' : ∀ c, c.db = s → (∀ j u, c.txs j = some u → u.request = q) → Meets c (.begin 1 q'))
    (hothers : ∀ c i, Meets c (.statement i) ∧ Meets c (.commit i) ∧ Meets c (.rollback i)) :
    ∃ tr c, Run (Step Y) (Config.start s) tr c ∧ Always Meets tr ∧
      c.answers = [(q, ((seen (w s)).run (w s')).map Prod.snd), (q', .ok r)] := by
  let begun : Config K S E R Q := (Config.start s).set 0 (some ⟨q, Y.handler q, id, []⟩)
  let locked : Config K S E R Q := begun.set 0 (some ⟨q, .peek seen, w ∘ id, [] ++ ks⟩)
  let looked : Config K S E R Q := locked.set 0 (some ⟨q, seen (w s), w ∘ id, [] ++ ks⟩)
  let joined : Config K S E R Q := looked.set 1 (some ⟨q', Y.handler q', id, []⟩)
  have hother : ∀ j, j ≠ 0 → looked.txs j = none := by
    intro j hj
    rw [Config.set_other _ hj, Config.set_other _ hj, Config.set_other _ hj]
    rfl
  have hstep₁ : Step Y (Config.start s) (.begin 0 q) begun := .begin rfl hq
  have hstep₂ : Step Y begun (.statement 0) locked := by
    have hstmt : Step Y begun (.statement 0) (begun.set 0 (some ⟨q, next s, w ∘ id, [] ++ ks⟩)) :=
      .stmt (Config.set_self _ 0 _) hfirst fun j u hj hu => by
        rw [Config.set_other _ hj] at hu
        cases hu
    rwa [hlook] at hstmt
  have hstep₃ : Step Y locked (.statement 0) looked := .peek (Config.set_self _ 0 _) rfl
  have hstep₄ : Step Y looked (.begin 1 q') joined := .begin (hother 1 (by omega)) hq'
  have hzero : joined.txs 0 = some ⟨q, seen (w s), w ∘ id, [] ++ ks⟩ := by
    rw [Config.set_other _ (by omega)]
    exact Config.set_self _ 0 _
  obtain ⟨tr, last, ev, hr, ha, hlast, htr, hev, _⟩ := drain_uses (Y := Y) (c := joined) (i := 1)
    (Config.set_self _ 1 _) (hfree.mono fun k hk j u hj hu => by
      by_cases h0 : j = 0
      · subst h0
        rw [hzero] at hu
        cases hu
        exact hk
      · rw [Config.set_other _ hj, hother j h0] at hu
        cases hu)
  change Step Y last ev (joined.close 1 q' ((Y.handler q').run s)) at hlast
  rw [h] at hlast
  have hopen : (joined.close 1 q' (.ok (s', r))).txs 0 = some ⟨q, seen (w s), w ∘ id, [] ++ ks⟩ := by
    change (joined.set 1 none).txs 0 = _
    rw [Config.set_other _ (by omega)]
    exact hzero
  obtain ⟨tr', last', ev', hr', ha', hlast', htr', hev', _⟩ := drain_uses (Y := Y) hopen (Prog.uses_all _
    fun k j u hj hu => by
    change (joined.set 1 none).txs j = some u at hu
    by_cases h1 : j = 1
    · subst h1
      rw [Config.set_self] at hu
      cases hu
    · rw [Config.set_other _ h1, Config.set_other _ h1, hother j hj] at hu
      cases hu)
  have hstatements : ∀ {i} {tr : List (Config K S E R Q × Event Q)},
      (∀ p ∈ tr, p.2 = .statement i) → Always Meets tr := by
    intro i tr htr p hp
    rw [htr p hp]
    exact (hothers p.1 i).1
  have hends : ∀ {c i ev}, ev = Event.commit i ∨ ev = Event.rollback i → Meets c ev := by
    rintro c i ev (rfl | rfl)
    · exact (hothers c i).2.1
    · exact (hothers c i).2.2
  have hfour := (((Run.nil.snoc hstep₁).snoc hstep₂).snoc hstep₃).snoc hstep₄
  refine ⟨_, _, .snoc (((hfour.append hr).snoc hlast).append hr') hlast', ?_, ?_⟩
  · have hjoin : Meets looked (.begin 1 q') := hbegin' looked rfl fun j u hu => by
      by_cases hj : j = 0
      · subst hj
        rw [Config.set_self] at hu
        cases hu
        rfl
      · rw [hother j hj] at hu
        cases hu
    have hmeets : Always Meets (([] ++ [(Config.start s, Event.begin 0 q)] ++ [(begun, Event.statement 0)] ++
        [(locked, Event.statement 0)]) ++ [(looked, Event.begin 1 q')]) :=
      always_snoc.mpr ⟨always_snoc.mpr ⟨always_snoc.mpr ⟨always_snoc.mpr ⟨always_nil, hbegin⟩, (hothers _ 0).1⟩,
        (hothers _ 0).1⟩, hjoin⟩
    refine always_snoc.mpr ⟨always_append.mpr ⟨always_snoc.mpr ⟨always_append.mpr ⟨hmeets, ?_⟩, hends hev⟩, ?_⟩,
      hends hev'⟩
    · exact hstatements htr
    · exact hstatements htr'
  · change (Config.close _ 0 q ((seen (w s)).run (w s'))).answers = _
    cases (seen (w s)).run (w s') with
    | ok p => rfl
    | error e => rfl

end MarketplaceApi.Txn
