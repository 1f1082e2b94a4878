import Mathlib.Logic.Function.Basic
import Mathlib.Logic.Relation
import Mathlib.Order.Basic
import MarketplaceApi.Transition.Run
import MarketplaceApi.Txn.Program

/-!
# Waiting for locks

Transactions take the locks of a plan one by one and keep them to their end. In a cycle of waits
every member both waits and holds a lock that another one wants, so it is enough that some measure
grows along such waits. Two plans that cross deadlock. A program keeps to a plan when its statements
take locks of it in its order, some left out.
-/
namespace MarketplaceApi.Txn.Waiting

open Transition Relation

variable {Q K α : Type}

/-- A running transaction: the locks it holds, in the order it took them, and those ahead of it. -/
structure Holder (Q K : Type) where
  request : Q
  held : List K
  wants : List K

/-- The transactions that run. -/
abbrev Locks (Q K : Type) := Nat → Option (Holder Q K)

def idle : Locks Q K := fun _ => none

inductive Event (Q : Type) where
  | start (i : Nat) (request : Q)
  | acquire (i : Nat)
  /-- The transaction commits or rolls back. -/
  | finish (i : Nat)

inductive Step (plan : Q → List K) : Locks Q K → Event Q → Locks Q K → Prop
  | start {s : Locks Q K} {i : Nat} {q : Q} : s i = none →
      Step plan s (.start i q) (Function.update s i (some ⟨q, [], plan q⟩))
  | acquire {s : Locks Q K} {i : Nat} {q : Q} {k : K} {held rest : List K} : s i = some ⟨q, held, k :: rest⟩ →
      (∀ j t, j ≠ i → s j = some t → k ∉ t.held) →
      Step plan s (.acquire i) (Function.update s i (some ⟨q, held ++ [k], rest⟩))
  | finish {s : Locks Q K} {i : Nat} {t : Holder Q K} : s i = some t →
      Step plan s (.finish i) (Function.update s i none)

/-- The next lock of `i` is held by `j`. -/
inductive Waits (s : Locks Q K) : Nat → Nat → Prop
  | intro {i j : Nat} {t u : Holder Q K} {k : K} {rest : List K} : i ≠ j → s i = some t → t.wants = k :: rest →
      s j = some u → k ∈ u.held → Waits s i j

/-- Some transactions wait for each other in a cycle. -/
def Deadlock (s : Locks Q K) : Prop := ∃ i, TransGen (Waits s) i i

structure Sound (plan : Q → List K) (s : Locks Q K) : Prop where
  along : ∀ i t, s i = some t → t.held ++ t.wants = plan t.request
  alone : ∀ i j t u k, i ≠ j → s i = some t → s j = some u → k ∈ t.held → k ∉ u.held

section
variable {plan : Q → List K} {s s' : Locks Q K} {tr : List (Locks Q K × Event Q)} {i j : Nat} {t u : Holder Q K}

theorem sound_idle : Sound plan (idle : Locks Q K) := ⟨nofun, nofun⟩

/-- A slot that changes to a transaction along its plan, whose locks no other one holds. -/
theorem Sound.update (h : Sound plan s) {o : Option (Holder Q K)}
    (halong : ∀ t, o = some t → t.held ++ t.wants = plan t.request)
    (halone : ∀ t, o = some t → ∀ k ∈ t.held, ∀ j u, j ≠ i → s j = some u → k ∉ u.held) :
    Sound plan (Function.update s i o) := by
  constructor
  · intro j t hj
    by_cases hji : j = i
    · subst hji
      rw [Function.update_self] at hj
      exact halong t hj
    · rw [Function.update_of_ne hji] at hj
      exact h.along j t hj
  · intro a b t u k hab ha hb hk
    by_cases hai : a = i
    · subst hai
      rw [Function.update_self] at ha
      rw [Function.update_of_ne hab.symm] at hb
      exact halone t ha k hk b u hab.symm hb
    · rw [Function.update_of_ne hai] at ha
      by_cases hbi : b = i
      · subst hbi
        rw [Function.update_self] at hb
        exact fun hu => halone u hb k hu a t hai ha hk
      · rw [Function.update_of_ne hbi] at hb
        exact h.alone a b t u k hab ha hb hk

theorem Sound.step {e : Event Q} (h : Sound plan s) (hstep : Step plan s e s') : Sound plan s' := by
  cases hstep with
  | @start i q hnone =>
    apply h.update
    · intro t ht
      cases ht
      rfl
    · intro t ht
      cases ht
      exact nofun
  | @acquire i q k held rest hi hfree =>
    apply h.update
    · intro t ht
      cases ht
      rw [← h.along i _ hi, List.append_assoc]
      rfl
    · intro t ht k' hk' j u hji hj
      cases ht
      rcases List.mem_append.mp hk' with hold | hnew
      · exact h.alone i j _ u k' hji.symm hi hj hold
      · rw [List.mem_singleton.mp hnew]
        exact hfree j u hji hj
  | @finish i t hi => exact h.update nofun nofun

theorem sound_of_run (hr : Run (Step plan) idle tr s) : Sound plan s := hr.invariant sound_idle Sound.step

/-- Of two transactions that start with the same lock only one holds any. -/
theorem Sound.gate (h : Sound plan s) (hij : i ≠ j) (hi : s i = some t) (hj : s j = some u)
    (hgate : (plan t.request).head? = (plan u.request).head?) (hu : u.held ≠ []) : t.held = [] := by
  rw [← h.along i t hi, ← h.along j u hj] at hgate
  obtain ⟨x, xs, hx⟩ := List.exists_cons_of_ne_nil hu
  cases ht : t.held with
  | nil => rfl
  | cons y ys =>
    have hsame : y = x := by
      rw [hx, ht] at hgate
      exact Option.some.inj hgate
    have hmem : y ∈ t.held := by
      rw [ht]
      exact List.mem_cons_self
    refine absurd ?_ (h.alone i j t u y hij hi hj hmem)
    rw [hx, hsame]
    exact List.mem_cons_self

/-- A lock taken earlier stands before a lock still wanted. -/
theorem Sound.before {R : K → K → Prop} (h : Sound plan s) (hi : s i = some t)
    (hR : (plan t.request).Pairwise R) {x y : K} {rest : List K} (hx : x ∈ t.held) (hy : t.wants = y :: rest) :
    R x y := by
  rw [← h.along i t hi, hy, List.pairwise_append] at hR
  exact hR.2.2 x hx y List.mem_cons_self

theorem Sound.held_mem (h : Sound plan s) (hi : s i = some t) {k : K} (hk : k ∈ t.held) : k ∈ plan t.request := by
  rw [← h.along i t hi]
  exact List.mem_append_left _ hk

theorem Sound.wants_mem (h : Sound plan s) (hi : s i = some t) {k : K} {rest : List K} (hk : t.wants = k :: rest) :
    k ∈ plan t.request := by
  rw [← h.along i t hi, hk]
  exact List.mem_append_right _ List.mem_cons_self

/-- A path between points that can be prolonged both ways, as a path of steps that can. -/
theorem inner {r : α → α → Prop} {a b : α} (h : TransGen r a b) (ha : ∃ p, r p a) (hb : ∃ q, r b q) :
    TransGen (fun x y => r x y ∧ (∃ p, r p x) ∧ ∃ q, r y q) a b := by
  induction h with
  | single hab => exact .single ⟨hab, ha, hb⟩
  | @tail b c hab hbc ih =>
    have hlast : ∃ p, r p b := by
      cases hab with
      | single h => exact ⟨a, h⟩
      | tail _ h => exact ⟨_, h⟩
    exact .tail (ih ⟨c, hbc⟩) ⟨hbc, hlast, hb⟩

theorem lt_of_transGen [Preorder α] {m : Nat → α} {r : Nat → Nat → Prop} (h : ∀ a b, r a b → m a < m b)
    (hr : TransGen r i j) : m i < m j := by
  induction hr with
  | single hab => exact h _ _ hab
  | tail _ hbc ih => exact ih.trans (h _ _ hbc)

/-- What grows from one waiting transaction to the next excludes a cycle. -/
theorem not_deadlock [Preorder α] (m : Nat → α)
    (h : ∀ a b c d, Waits s a b → Waits s b c → Waits s c d → m b < m c) : ¬ Deadlock s := by
  intro hdead
  obtain ⟨i, hi⟩ := hdead
  have hpred : ∃ p, Waits s p i := by
    cases hi with
    | single h => exact ⟨_, h⟩
    | tail _ h => exact ⟨_, h⟩
  have hsucc : ∃ q, Waits s i q := by
    obtain ⟨q, hq, _⟩ := TransGen.head'_iff.mp hi
    exact ⟨q, hq⟩
  have hin := inner hi hpred hsucc
  have hlt : m i < m i := by
    apply lt_of_transGen _ hin
    intro b c hbc
    obtain ⟨hw, ⟨a, ha⟩, ⟨d, hd⟩⟩ := hbc
    exact h a b c d ha hw hd
  exact lt_irrefl _ hlt

/-- A transaction that nobody stands in the way of takes its next locks. -/
theorem run_acquire {q : Q} {held p r : List K} (hi : s i = some ⟨q, held, p ++ r⟩)
    (hfree : ∀ k ∈ p, ∀ j t, j ≠ i → s j = some t → k ∉ t.held) :
    ∃ tr, Run (Step plan) s tr (Function.update s i (some ⟨q, held ++ p, r⟩)) := by
  induction p generalizing s held with
  | nil =>
    refine ⟨[], ?_⟩
    rw [List.append_nil, ← List.nil_append r, ← hi, Function.update_eq_self]
    exact .nil
  | cons k p ih =>
    have hone : Step plan s (.acquire i) (Function.update s i (some ⟨q, held ++ [k], p ++ r⟩)) :=
      .acquire hi (hfree k List.mem_cons_self)
    have hnil : Run (Step plan) s [] s := .nil
    have hself : Function.update s i (some ⟨q, held ++ [k], p ++ r⟩) i = some ⟨q, held ++ [k], p ++ r⟩ :=
      Function.update_self ..
    obtain ⟨tr, htr⟩ := ih hself fun k' hk' j t hji hj => by
        rw [Function.update_of_ne hji] at hj
        exact hfree k' (List.mem_cons_of_mem _ hk') j t hji hj
    rw [Function.update_idem, List.append_assoc] at htr
    exact ⟨_, (hnil.snoc hone).append htr⟩

/-- Two transactions and no other. -/
def pair (t u : Holder Q K) : Locks Q K := Function.update (Function.update idle 0 (some t)) 1 (some u)

theorem pair_cases {v : Holder Q K} (h : pair t u i = some v) : i = 0 ∧ v = t ∨ i = 1 ∧ v = u := by
  by_cases h1 : i = 1
  · subst h1
    exact Or.inr ⟨rfl, (Option.some.inj h).symm⟩
  · have hpair : pair t u i = Function.update idle 0 (some t) i := Function.update_of_ne h1 ..
    by_cases h0 : i = 0
    · subst h0
      exact Or.inl ⟨rfl, (Option.some.inj h).symm⟩
    · rw [hpair, Function.update_of_ne h0] at h
      cases h

/-- Two transactions get as far as they take different locks. -/
theorem run_pair {p q : Q} {l₁ r₁ l₂ r₂ : List K} (hp : plan p = l₁ ++ r₁) (hq : plan q = l₂ ++ r₂)
    (hfree : ∀ k ∈ l₂, k ∉ l₁) : ∃ tr, Run (Step plan) idle tr (pair ⟨p, l₁, r₁⟩ ⟨q, l₂, r₂⟩) := by
  have hnil : Run (Step plan) (idle : Locks Q K) [] idle := .nil
  have hfirst : Step plan idle (.start 0 p) (Function.update idle 0 (some ⟨p, [], plan p⟩)) := .start rfl
  have hopen : Function.update (idle : Locks Q K) 0 (some ⟨p, [], plan p⟩) 0 = some ⟨p, [], l₁ ++ r₁⟩ := by
    rw [Function.update_self, hp]
  have hacquired : ∃ tr, Run (Step plan) _ tr _ := run_acquire hopen fun k _ j t hj0 hj => by
    rw [Function.update_of_ne hj0] at hj
    cases hj
  obtain ⟨tr₁, h₁⟩ := hacquired
  rw [Function.update_idem, List.nil_append] at h₁
  let m : Locks Q K := Function.update idle 0 (some ⟨p, l₁, r₁⟩)
  have hm : m 0 = some ⟨p, l₁, r₁⟩ := rfl
  have hrest : ∀ j, j ≠ 0 → m j = none := fun j hj => Function.update_of_ne hj ..
  have hsecond : Step plan m (.start 1 q) (Function.update m 1 (some ⟨q, [], plan q⟩)) := .start rfl
  have hopen' : Function.update m 1 (some ⟨q, [], plan q⟩) 1 = some ⟨q, [], l₂ ++ r₂⟩ := by
    rw [Function.update_self, hq]
  have hacquired' : ∃ tr, Run (Step plan) _ tr _ := run_acquire hopen' fun k hk j t hj1 hj => by
    rw [Function.update_of_ne hj1] at hj
    by_cases hj0 : j = 0
    · subst hj0
      rw [hm] at hj
      cases hj
      exact hfree k hk
    · rw [hrest j hj0] at hj
      cases hj
  obtain ⟨tr₂, h₂⟩ := hacquired'
  rw [Function.update_idem, List.nil_append] at h₂
  exact ⟨_, (((hnil.snoc hfirst).append h₁).snoc hsecond).append h₂⟩

/-- Two requests whose plans take two locks in opposite orders can deadlock. -/
theorem crossing {p q : Q} {x y : K} {l₁ r₁ l₂ r₂ : List K} (hp : plan p = l₁ ++ y :: r₁)
    (hq : plan q = l₂ ++ x :: r₂) (hx : x ∈ l₁) (hy : y ∈ l₂) (hfree : ∀ k ∈ l₂, k ∉ l₁) :
    ∃ tr s, Run (Step plan) idle tr s ∧ Deadlock s ∧ ∀ i t, s i = some t → t.request = p ∨ t.request = q := by
  obtain ⟨tr, hr⟩ := run_pair hp hq hfree
  have h0 : pair ⟨p, l₁, y :: r₁⟩ ⟨q, l₂, x :: r₂⟩ 0 = some ⟨p, l₁, y :: r₁⟩ := rfl
  have h1 : pair ⟨p, l₁, y :: r₁⟩ ⟨q, l₂, x :: r₂⟩ 1 = some ⟨q, l₂, x :: r₂⟩ := rfl
  have hpq := Waits.intro (by decide) h0 rfl h1 hy
  have hqp := Waits.intro (by decide) h1 rfl h0 hx
  refine ⟨tr, _, hr, ⟨0, .tail (.single hpq) hqp⟩, fun i t hi => ?_⟩
  rcases pair_cases hi with ⟨_, rfl⟩ | ⟨_, rfl⟩
  · exact Or.inl rfl
  · exact Or.inr rfl

end

section
variable {S E R R' : Type}

/-- Whatever the views, the statements ahead take their locks in the order of the plan. -/
def Along : List K → Prog K S E R → Prop
  | _, .ret _ => True
  | _, .throw _ => True
  | l, .peek next => ∀ s, Along l (next s)
  | l, .stmt ks _ next => ∃ l₁ l₂, l = l₁ ++ ks ++ l₂ ∧ ∀ s, Along l₂ (next s)

theorem Along.later {p : Prog K S E R} {l : List K} (h : Along l p) (l₀ : List K) : Along (l₀ ++ l) p := by
  induction p with
  | ret r => trivial
  | throw e => trivial
  | peek next ih => exact fun s => ih s (h s)
  | stmt ks w next ih =>
    obtain ⟨l₁, l₂, hl, hnext⟩ := h
    refine ⟨l₀ ++ l₁, l₂, ?_, hnext⟩
    rw [hl]
    simp only [List.append_assoc]

theorem Along.bind {p : Prog K S E R} {f : R → Prog K S E R'} {l l' : List K} (hp : Along l p)
    (hf : ∀ r, Along l' (f r)) : Along (l ++ l') (p.bind f) := by
  induction p generalizing l with
  | ret r => exact (hf r).later l
  | throw e => trivial
  | peek next ih => exact fun s => ih s (hp s)
  | stmt ks w next ih =>
    obtain ⟨l₁, l₂, hl, hnext⟩ := hp
    refine ⟨l₁, l₂ ++ l', ?_, fun s => ih s (hnext s)⟩
    rw [hl]
    simp only [List.append_assoc]

theorem along_exec (keys : List K) (f : S → Except E (S × R)) : Along keys (Prog.exec keys f) := by
  refine ⟨[], [], by simp, fun s => ?_⟩
  change Along [] (Prog.resume (f s))
  cases f s <;> trivial

end

end MarketplaceApi.Txn.Waiting
