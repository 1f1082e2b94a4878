import Mathlib.Data.List.Basic

/-!
# Transactions as programs of statements

A transaction is a tree of statements. A write statement first takes its locks and then
acts on the transaction's view of the database; a `peek` is a plain read that takes no
lock. `Exec` is the serial meaning: the whole program on one state, except that a `peek`
may have seen any earlier state. Which facts survive such an early look is the order of
the `Isolation`.
-/
namespace MarketplaceApi.Txn

/-- A transaction over database states `S` with lockable resources `K`. -/
inductive Prog (K S E R : Type) : Type where
  | ret (r : R)
  | throw (e : E)
  | peek (next : S → Prog K S E R)
  | stmt (keys : List K) (write : S → S) (next : S → Prog K S E R)

variable {K S E R R' : Type}

namespace Prog

def bind : Prog K S E R → (R → Prog K S E R') → Prog K S E R'
  | .ret r, f => f r
  | .throw e, _ => .throw e
  | .peek next, f => .peek fun s => (next s).bind f
  | .stmt ks w next, f => .stmt ks w fun s => (next s).bind f

instance : Monad (Prog K S E) where
  pure := .ret
  bind := Prog.bind

/-- A read without a lock. -/
def look (f : S → R) : Prog K S E R := .peek fun s => .ret (f s)

/-- The view a statement leaves: unchanged when the statement failed. -/
def leave (s : S) : Except E (S × R) → S
  | .ok (s', _) => s'
  | .error _ => s

def resume : Except E (S × R) → Prog K S E R
  | .ok (_, r) => .ret r
  | .error e => .throw e

/-- A statement under the locks `keys`; an error of it (a violated constraint) aborts the transaction. -/
def exec (keys : List K) (f : S → Except E (S × R)) : Prog K S E R :=
  .stmt keys (fun s => leave s (f s)) fun s => resume (f s)

/-- Run the program alone: every statement sees the state the previous one left. -/
def run : Prog K S E R → S → Except E (S × R)
  | .ret r, s => .ok (s, r)
  | .throw e, _ => .error e
  | .peek next, s => (next s).run s
  | .stmt _ w next, s => (next s).run (w s)

/-- Run the program as one transaction: after an error nothing of it stays. -/
def transact (p : Prog K S E R) (s : S) : S × Except E R :=
  match p.run s with
  | .ok (s', r) => (s', .ok r)
  | .error e => (s, .error e)

@[simp] theorem pure_eq (r : R) : (pure r : Prog K S E R) = .ret r := rfl

@[simp] theorem bind_eq (p : Prog K S E R) (f : R → Prog K S E R') : p >>= f = p.bind f := rfl

@[simp] theorem ret_bind (r : R) (f : R → Prog K S E R') :
    (Prog.ret r : Prog K S E R).bind f = f r := rfl

@[simp] theorem throw_bind (e : E) (f : R → Prog K S E R') :
    (Prog.throw e : Prog K S E R).bind f = .throw e := rfl

/-- A composed program runs its two parts one after the other. -/
theorem run_bind (p : Prog K S E R) (f : R → Prog K S E R') (s : S) :
    (p.bind f).run s = (p.run s).bind fun q => (f q.2).run q.1 := by
  induction p generalizing s with
  | ret r => rfl
  | throw e => rfl
  | peek next ih => exact ih s s
  | stmt ks w next ih => exact ih s (w s)

/-- A composed program that commits passes through a state both parts agree on. -/
theorem run_bind_ok {p : Prog K S E R} {f : R → Prog K S E R'} {s s' : S} {r : R'}
    (h : (p >>= f).run s = .ok (s', r)) : ∃ m a, p.run s = .ok (m, a) ∧ (f a).run m = .ok (s', r) := by
  rw [bind_eq, run_bind] at h
  cases hp : p.run s with
  | ok q => exact ⟨q.1, q.2, rfl, by rwa [hp] at h⟩
  | error e =>
    rw [hp] at h
    cases h

theorem transact_ok {p : Prog K S E R} {s s' : S} {r : R} :
    p.transact s = (s', .ok r) ↔ p.run s = .ok (s', r) := by
  unfold transact
  cases p.run s with
  | ok q => simp [Prod.ext_iff]
  | error e => simp

theorem transact_error {p : Prog K S E R} {s : S} {e : E} (h : (p.transact s).2 = .error e) :
    (p.transact s).1 = s := by
  unfold transact at h ⊢
  cases hp : p.run s with
  | ok q =>
    rw [hp] at h
    cases h
  | error e' => rfl

theorem run_exec (keys : List K) (f : S → Except E (S × R)) (s : S) :
    (exec keys f).run s = f s := by
  change (resume (f s) : Prog K S E R).run (leave s (f s)) = f s
  cases f s with
  | ok q => rfl
  | error e => rfl

theorem run_look (f : S → R) (s : S) : (look f : Prog K S E R).run s = .ok (s, f s) := rfl

end Prog

/-- `part k` is what the lock `k` protects. `le s s'` says that `s'` may be a later state:
what was seen in `s` without a lock is only trusted as far as `le` preserves it. -/
structure Isolation (K S : Type) where
  Part : K → Type
  part : (k : K) → S → Part k
  le : S → S → Prop
  le_refl : ∀ s, le s s
  le_trans : ∀ {s t u}, le s t → le t u → le s u

variable {I : Isolation K S} {b s s' : S}

/-- The two states agree on everything the locks protect. -/
def Isolation.Agree (I : Isolation K S) (ks : List K) (s s' : S) : Prop :=
  ∀ k ∈ ks, I.part k s = I.part k s'

/-- A write is confined to its locks from the state `b` on: it changes nothing another lock
protects, acts on its own part alone, and never takes back what an earlier look may rely on. -/
structure Confined (I : Isolation K S) (b : S) (ks : List K) (w : S → S) : Prop where
  frame : ∀ {s}, I.le b s → ∀ k, k ∉ ks → I.part k (w s) = I.part k s
  inside : ∀ {s s'}, I.le b s → I.le b s' → I.Agree ks s s' → I.Agree ks (w s) (w s')
  grows : ∀ {s}, I.le b s → I.le s (w s)
  mono : ∀ {s s'}, I.le b s → I.le s s' → I.Agree ks s s' → I.le (w s) (w s')

/-- A statement that writes nothing. -/
theorem Confined.of_id {ks : List K} {w : S → S} (hw : ∀ s, w s = s) : Confined I b ks w where
  frame _ k _ := by rw [hw]
  inside _ _ ha := by simpa only [hw] using ha
  grows _ := by
    rw [hw]
    exact I.le_refl _
  mono _ hle _ := by simpa only [hw] using hle

/-- Every statement the program can reach from `b` is confined to its locks and decides by them. -/
def Prog.Safe (I : Isolation K S) : S → Prog K S E R → Prop
  | _, .ret _ => True
  | _, .throw _ => True
  | b, .peek next => ∀ v, I.le b v → (next v).Safe I v
  | b, .stmt ks w next => Confined I b ks w ∧
      (∀ s s', I.le b s → I.le b s' → I.Agree ks s s' → next s = next s') ∧
      ∀ s, I.le b s → (next s).Safe I b

theorem Prog.Safe.bind {p : Prog K S E R} {f : R → Prog K S E R'} {b : S} (hp : p.Safe I b)
    (hf : ∀ r b', I.le b b' → (f r).Safe I b') : (p.bind f).Safe I b := by
  induction p generalizing b with
  | ret r => exact hf r b (I.le_refl b)
  | throw e => trivial
  | peek next ih =>
    intro v hv
    exact ih v (hp v hv) fun r b' hb' => hf r b' (I.le_trans hv hb')
  | stmt ks w next ih =>
    obtain ⟨hc, hn, hs⟩ := hp
    refine ⟨hc, fun s s' h h' ha => ?_, fun s h => ih s (hs s h) hf⟩
    exact congrArg (fun p => p.bind f) (hn s s' h h' ha)

theorem Prog.safe_look (f : S → R) (b : S) : (Prog.look f : Prog K S E R).Safe I b :=
  fun _ _ => trivial

/-- What follows a look may rely on the state that was seen. -/
theorem Prog.safe_look_bind {f : S → R} {p : R → Prog K S E R'} {b : S}
    (h : ∀ v, I.le b v → (p (f v)).Safe I v) : ((Prog.look f).bind p).Safe I b :=
  fun v hv => h v hv

/-- One statement is safe when its successful writes are confined and its outcome depends on its part. -/
theorem Prog.safe_exec {keys : List K} {f : S → Except E (S × R)} {b : S}
    (hc : Confined I b keys fun s => Prog.leave s (f s))
    (hf : ∀ s s', I.le b s → I.le b s' → I.Agree keys s s' →
      (f s).map Prod.snd = (f s').map Prod.snd) : (Prog.exec keys f).Safe I b := by
  refine ⟨hc, fun s s' h h' ha => ?_, fun s _ => ?_⟩
  · change Prog.resume (f s) = Prog.resume (f s')
    have he := hf s s' h h' ha
    cases hs : f s <;> cases hs' : f s' <;> simp_all [Except.map, Prog.resume]
  · change (Prog.resume (f s)).Safe I b
    cases f s <;> trivial

/-- An insert that may be left out: `skip` answers without writing, `add` is the insert, which does
to each part what `g` says. -/
theorem Prog.safe_add {keys : List K} {f : S → Except E (S × R)} {b : S} (skip : S → Option (Except E R))
    (add : S → S) (r : R) (g : (k : K) → I.Part k → I.Part k)
    (hf : ∀ s, f s = (skip s).elim (.ok (add s, r)) fun o => o.map fun a => (s, a))
    (hpart : ∀ s k, I.part k (add s) = g k (I.part k s)) (hg : ∀ k, k ∉ keys → ∀ p, g k p = p)
    (hskip : ∀ s s', I.Agree keys s s' → skip s = skip s') (hgrows : ∀ s, I.le s (add s))
    (hmono : ∀ s s', I.le s s' → I.le (add s) (add s')) : (Prog.exec keys f).Safe I b := by
  have hw : ∀ s, Prog.leave s (f s) = (skip s).elim (add s) fun _ => s := by
    intro s
    rw [hf]
    cases skip s with
    | none => rfl
    | some o => cases o <;> rfl
  refine Prog.safe_exec ⟨fun {s} _ k hk => ?_, fun {s s'} _ _ ha => ?_, fun {s} _ => ?_,
    fun {s s'} _ hle ha => ?_⟩ fun s s' _ _ ha => ?_
  · rw [hw]
    cases skip s with
    | none => exact (hpart s k).trans (hg k hk _)
    | some o => rfl
  · rw [hw, hw, hskip s s' ha]
    cases skip s' with
    | none =>
      intro k hk
      change I.part k (add s) = I.part k (add s')
      rw [hpart, hpart, ha k hk]
    | some o => exact ha
  · rw [hw]
    cases skip s with
    | none => exact hgrows s
    | some o => exact I.le_refl s
  · rw [hw, hw, hskip s s' ha]
    cases skip s' with
    | none => exact hmono s s' hle
    | some o => exact hle
  · rw [hf, hf, hskip s s' ha]
    cases skip s' with
    | none => rfl
    | some o => cases o <;> rfl

/-- An insert under constraints: `clash` is the one it would violate. -/
theorem Prog.safe_insert {keys : List K} {f : S → Except E (S × R)} {b : S} (clash : S → Option E)
    (add : S → S) (r : R) (g : (k : K) → I.Part k → I.Part k)
    (hf : ∀ s, f s = (clash s).elim (.ok (add s, r)) .error)
    (hpart : ∀ s k, I.part k (add s) = g k (I.part k s)) (hg : ∀ k, k ∉ keys → ∀ p, g k p = p)
    (hclash : ∀ s s', I.Agree keys s s' → clash s = clash s') (hgrows : ∀ s, I.le s (add s))
    (hmono : ∀ s s', I.le s s' → I.le (add s) (add s')) : (Prog.exec keys f).Safe I b := by
  refine Prog.safe_add (fun s => (clash s).map .error) add r g (fun s => ?_) hpart hg (fun s s' ha => ?_) hgrows hmono
  · rw [hf]
    cases clash s <;> rfl
  · rw [hclash s s' ha]

/-- Every statement ahead, whatever the views, takes locks of `F` only. -/
def Prog.Uses (F : K → Prop) : Prog K S E R → Prop
  | .ret _ => True
  | .throw _ => True
  | .peek next => ∀ s, (next s).Uses F
  | .stmt ks _ next => (∀ k ∈ ks, F k) ∧ ∀ s, (next s).Uses F

section
variable {F F' : K → Prop}

theorem Prog.Uses.mono {p : Prog K S E R} (h : p.Uses F) (hF : ∀ k, F k → F' k) : p.Uses F' := by
  induction p with
  | ret r => trivial
  | throw e => trivial
  | peek next ih => exact fun s => ih s (h s)
  | stmt ks w next ih => exact ⟨fun k hk => hF k (h.1 k hk), fun s => ih s (h.2 s)⟩

theorem Prog.uses_all (p : Prog K S E R) (h : ∀ k, F k) : p.Uses F := by
  induction p with
  | ret r => trivial
  | throw e => trivial
  | peek next ih => exact ih
  | stmt ks w next ih => exact ⟨fun k _ => h k, ih⟩

theorem Prog.Uses.bind {p : Prog K S E R} {f : R → Prog K S E R'} (hp : p.Uses F) (hf : ∀ r, (f r).Uses F) :
    (p.bind f).Uses F := by
  induction p with
  | ret r => exact hf r
  | throw e => trivial
  | peek next ih => exact fun s => ih s (hp s)
  | stmt ks w next ih => exact ⟨hp.1, fun s => ih s (hp.2 s)⟩

theorem Prog.uses_look (f : S → R) : (Prog.look f : Prog K S E R).Uses F := fun _ => trivial

theorem Prog.uses_exec_bind {keys : List K} {f : S → Except E (S × R)} {g : R → Prog K S E R'}
    (hk : ∀ k ∈ keys, F k) (hg : ∀ s m r, f s = .ok (m, r) → (g r).Uses F) : ((Prog.exec keys f).bind g).Uses F := by
  refine ⟨hk, fun s => ?_⟩
  change ((Prog.resume (f s)).bind g).Uses F
  cases hf : f s with
  | ok q => exact hg s q.1 q.2 hf
  | error e => trivial

theorem Prog.uses_exec {keys : List K} {f : S → Except E (S × R)} (hk : ∀ k ∈ keys, F k) :
    (Prog.exec keys f).Uses F := by
  refine ⟨hk, fun s => ?_⟩
  change (Prog.resume (f s)).Uses F
  cases f s <;> trivial

end

/-- The serial meaning of a program begun at `b`. The second state is what a commit would
publish; after an error it is discarded. -/
inductive Exec (I : Isolation K S) : S → Prog K S E R → S → S → Except E R → Prop
  | ret {b s : S} {r : R} : Exec I b (.ret r) s s (.ok r)
  | throw {b s : S} {e : E} : Exec I b (.throw e) s s (.error e)
  | peek {b s s' : S} {next : S → Prog K S E R} {o : Except E R} (v : S) :
      I.le b v → I.le v s → Exec I v (next v) s s' o → Exec I b (.peek next) s s' o
  | stmt {b s s' : S} {ks : List K} {w : S → S} {next : S → Prog K S E R} {o : Except E R} :
      Exec I b (next s) (w s) s' o → Exec I b (.stmt ks w next) s s' o

/-- A sequence is an execution of its first part followed by one of its second. -/
theorem Exec.of_bind {p : Prog K S E R} {f : R → Prog K S E R'} {b s s' : S} {r : R'}
    (h : Exec I b (p.bind f) s s' (.ok r)) :
    ∃ b' m a, I.le b b' ∧ Exec I b p s m (.ok a) ∧ Exec I b' (f a) m s' (.ok r) := by
  induction p generalizing b s with
  | ret a => exact ⟨b, s, a, I.le_refl b, .ret, h⟩
  | throw e => cases h
  | peek next ih =>
    cases h with
    | peek v hb hv h =>
      obtain ⟨b', m, a, hb', hp, hf⟩ := ih v h
      exact ⟨b', m, a, I.le_trans hb hb', .peek v hb hv hp, hf⟩
  | stmt ks w next ih =>
    cases h with
    | stmt h =>
      obtain ⟨b', m, a, hb', hp, hf⟩ := ih s h
      exact ⟨b', m, a, hb', .stmt hp, hf⟩

/-- An error of a sequence is one of its first part, or of its second after the first succeeded. -/
theorem Exec.of_bind_error {p : Prog K S E R} {f : R → Prog K S E R'} {b s s' : S} {e : E}
    (h : Exec I b (p.bind f) s s' (.error e)) :
    Exec I b p s s' (.error e) ∨
      ∃ b' m a, I.le b b' ∧ Exec I b p s m (.ok a) ∧ Exec I b' (f a) m s' (.error e) := by
  induction p generalizing b s with
  | ret a => exact Or.inr ⟨b, s, a, I.le_refl b, .ret, h⟩
  | throw e =>
    cases h
    exact Or.inl .throw
  | peek next ih =>
    cases h with
    | peek v hb hv h =>
      rcases ih v h with he | ⟨b', m, a, hb', hp, hf⟩
      · exact Or.inl (.peek v hb hv he)
      · exact Or.inr ⟨b', m, a, I.le_trans hb hb', .peek v hb hv hp, hf⟩
  | stmt ks w next ih =>
    cases h with
    | stmt h =>
      rcases ih s h with he | ⟨b', m, a, hb', hp, hf⟩
      · exact Or.inl (.stmt he)
      · exact Or.inr ⟨b', m, a, hb', .stmt hp, hf⟩

theorem Exec.of_look {f : S → R} {b s s' : S} {r : R} (h : Exec I b (Prog.look f : Prog K S E R) s s' (.ok r)) :
    s' = s ∧ ∃ v, I.le b v ∧ I.le v s ∧ f v = r := by
  cases h with
  | peek v hb hv h =>
    cases h
    exact ⟨rfl, v, hb, hv, rfl⟩

theorem Exec.of_exec {keys : List K} {f : S → Except E (S × R)} {b s s' : S} {r : R}
    (h : Exec I b (Prog.exec keys f) s s' (.ok r)) : f s = .ok (s', r) := by
  cases h with
  | stmt h =>
    change Exec I b (Prog.resume (f s)) (Prog.leave s (f s)) s' (.ok r) at h
    cases hf : f s with
    | error e => rw [hf] at h; cases h
    | ok q => rw [hf] at h; cases h; rfl

theorem Exec.of_exec_error {keys : List K} {f : S → Except E (S × R)} {b s s' : S} {e : E}
    (h : Exec I b (Prog.exec keys f) s s' (.error e)) : f s = .error e := by
  cases h with
  | stmt h =>
    change Exec I b (Prog.resume (f s)) (Prog.leave s (f s)) s' (.error e) at h
    cases hf : f s with
    | error e' => rw [hf] at h; cases h; rfl
    | ok q => rw [hf] at h; cases h

/-- What a safe program publishes is a later state. -/
theorem Exec.grows {p : Prog K S E R} {b s s' : S} {o : Except E R} (h : Exec I b p s s' o)
    (hp : p.Safe I b) (hb : I.le b s) : I.le s s' := by
  induction h with
  | ret => exact I.le_refl _
  | throw => exact I.le_refl _
  | peek v hv hvs _ ih => exact ih (hp v hv) hvs
  | stmt _ ih =>
    have hg := hp.1.grows hb
    exact I.le_trans hg (ih (hp.2.2 _ hb) (I.le_trans hb hg))

/-- Running a program alone is one of its serial executions. -/
theorem Exec.of_run {p : Prog K S E R} {b s s' : S} {r : R} (hb : I.le b s) (hp : p.Safe I b)
    (h : p.run s = .ok (s', r)) : Exec I b p s s' (.ok r) := by
  induction p generalizing b s with
  | ret a => cases h; exact .ret
  | throw e => cases h
  | peek next ih => exact .peek s hb (I.le_refl s) (ih s (I.le_refl s) (hp s hb) h)
  | stmt ks w next ih =>
    exact .stmt (ih s (I.le_trans hb (hp.1.grows hb)) (hp.2.2 s hb) h)

end MarketplaceApi.Txn
