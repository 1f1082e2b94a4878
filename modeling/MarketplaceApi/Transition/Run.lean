import Mathlib.Data.List.Basic

/-!
# Finite runs of a labelled transition relation

A run records every event together with the state it was taken in, so a condition
on the state before a step can be asked of the run as a whole.
-/
namespace MarketplaceApi.Transition

variable {σ ε : Type}

/-- `Run Step s₀ tr s`: the events of `tr`, each paired with its pre-state, lead from `s₀` to `s`. -/
inductive Run (Step : σ → ε → σ → Prop) (s₀ : σ) : List (σ × ε) → σ → Prop
  | nil : Run Step s₀ [] s₀
  | snoc {tr : List (σ × ε)} {s s' : σ} {e : ε} :
      Run Step s₀ tr s → Step s e s' → Run Step s₀ (tr ++ [(s, e)]) s'

/-- Every step of the trace meets a condition on its event and pre-state. -/
def Always (Meets : σ → ε → Prop) (tr : List (σ × ε)) : Prop := ∀ p ∈ tr, Meets p.1 p.2

/-- A property of every state a run visits, the last one included. -/
def Throughout (P : σ → Prop) (tr : List (σ × ε)) (s : σ) : Prop := (∀ p ∈ tr, P p.1) ∧ P s

section
variable {Step : σ → ε → σ → Prop} {Meets : σ → ε → Prop} {s₀ s s' : σ} {e : ε} {tr : List (σ × ε)}

@[simp] theorem always_nil : Always Meets ([] : List (σ × ε)) := by simp [Always]

@[simp] theorem always_snoc : Always Meets (tr ++ [(s, e)]) ↔ Always Meets tr ∧ Meets s e := by
  simp only [Always, List.mem_append, List.mem_singleton]
  constructor
  · intro h
    exact ⟨fun p hp => h p (Or.inl hp), h (s, e) (Or.inr rfl)⟩
  · rintro ⟨ht, he⟩ p (hp | rfl)
    · exact ht p hp
    · exact he

theorem always_append {tr' : List (σ × ε)} : Always Meets (tr ++ tr') ↔ Always Meets tr ∧ Always Meets tr' := by
  simp only [Always, List.forall_mem_append]

theorem throughout_snoc {P : σ → Prop} :
    Throughout P (tr ++ [(s, e)]) s' ↔ Throughout P tr s ∧ P s' := by
  simp only [Throughout, List.mem_append, List.mem_singleton]
  constructor
  · rintro ⟨ht, hs'⟩
    exact ⟨⟨fun p hp => ht p (Or.inl hp), ht (s, e) (Or.inr rfl)⟩, hs'⟩
  · rintro ⟨⟨ht, hs⟩, hs'⟩
    refine ⟨?_, hs'⟩
    rintro p (hp | rfl)
    · exact ht p hp
    · exact hs

/-- The induction rule for safety: what the initial state has and every step keeps. -/
theorem Run.invariant {Inv : σ → Prop} (hr : Run Step s₀ tr s) (h₀ : Inv s₀)
    (hs : ∀ {t e t'}, Inv t → Step t e t' → Inv t') : Inv s := by
  induction hr with
  | nil => exact h₀
  | snoc _ hstep ih => exact hs ih hstep

/-- The same rule when only the steps that meet a condition keep the invariant. -/
theorem Run.invariant_of_always {Inv : σ → Prop} (hr : Run Step s₀ tr s) (hm : Always Meets tr)
    (h₀ : Inv s₀) (hs : ∀ {t e t'}, Inv t → Meets t e → Step t e t' → Inv t') : Inv s := by
  induction hr with
  | nil => exact h₀
  | snoc _ hstep ih =>
    obtain ⟨ht, he⟩ := always_snoc.mp hm
    exact hs (ih ht) he hstep

/-- When a step from a good state is good exactly if it meets a condition, a run is good
throughout exactly if all its steps meet it. -/
theorem Run.throughout_iff {P : σ → Prop} (hr : Run Step s₀ tr s) (h₀ : P s₀)
    (hs : ∀ {tr t e t'}, Run Step s₀ tr t → P t → Step t e t' → (P t' ↔ Meets t e)) :
    Throughout P tr s ↔ Always Meets tr := by
  induction hr with
  | nil => simp [Throughout, h₀]
  | snoc hr hstep ih =>
    rw [throughout_snoc, always_snoc, ← ih]
    constructor
    · rintro ⟨ht, hp⟩
      exact ⟨ht, (hs hr ht.2 hstep).mp hp⟩
    · rintro ⟨ht, hm⟩
      exact ⟨ht, (hs hr ht.2 hstep).mpr hm⟩

/-- The same rule with an invariant that the steps of good runs keep. -/
theorem Run.throughout_iff_of_invariant {P Inv : σ → Prop} (hr : Run Step s₀ tr s) (h₀ : Inv s₀)
    (hp : ∀ {t}, Inv t → P t) (hs : ∀ {t e t'}, Inv t → Step t e t' → (P t' ↔ Meets t e))
    (hi : ∀ {t e t'}, Inv t → Meets t e → Step t e t' → Inv t') : Throughout P tr s ↔ Always Meets tr := by
  induction hr with
  | nil => simp [Throughout, hp h₀]
  | snoc hr hstep ih =>
    rw [throughout_snoc, always_snoc, ih]
    constructor
    · rintro ⟨hm, hp'⟩
      exact ⟨hm, (hs (hr.invariant_of_always hm h₀ hi) hstep).mp hp'⟩
    · rintro ⟨hm, he⟩
      exact ⟨hm, (hs (hr.invariant_of_always hm h₀ hi) hstep).mpr he⟩

/-- What no step repairs holds throughout a run if it holds at the end. -/
theorem Run.throughout_iff_last {P : σ → Prop} (hr : Run Step s₀ tr s)
    (hs : ∀ {tr t e t'}, Run Step s₀ tr t → Step t e t' → P t' → P t) : Throughout P tr s ↔ P s := by
  induction hr with
  | nil => simp [Throughout]
  | snoc hr hstep ih =>
    rw [throughout_snoc, ih]
    exact ⟨fun h => h.2, fun h => ⟨hs hr hstep h, h⟩⟩

/-- A run can be cut before any of its events. -/
theorem Run.before {p : σ × ε} (hr : Run Step s₀ tr s) (hp : p ∈ tr) :
    ∃ pre t, Run Step s₀ pre p.1 ∧ Step p.1 p.2 t ∧ pre ++ [p] <+: tr := by
  induction hr with
  | nil => cases hp
  | @snoc tr s s' e hr hstep ih =>
    rcases List.mem_append.mp hp with hold | hnew
    · obtain ⟨pre, t, hpre, ht, hle⟩ := ih hold
      exact ⟨pre, t, hpre, ht, hle.trans (List.prefix_append _ _)⟩
    · simp only [List.mem_singleton] at hnew
      subst hnew
      exact ⟨tr, s', hr, hstep, List.prefix_rfl⟩

/-- Runs compose. -/
theorem Run.append {tr' : List (σ × ε)} (hr : Run Step s₀ tr s) (hr' : Run Step s tr' s') :
    Run Step s₀ (tr ++ tr') s' := by
  induction hr' with
  | nil => simpa using hr
  | snoc _ hstep ih =>
    rw [← List.append_assoc]
    exact .snoc ih hstep

/-- `s` is reached by steps that all meet the condition. -/
def Reaches (Step : σ → ε → σ → Prop) (Meets : σ → ε → Prop) (s₀ s : σ) : Prop :=
  ∃ tr, Run Step s₀ tr s ∧ Always Meets tr

theorem Reaches.refl : Reaches Step Meets s s := ⟨[], .nil, always_nil⟩

theorem Reaches.step (h : Reaches Step Meets s₀ s) (hs : Step s e s') (hm : Meets s e) : Reaches Step Meets s₀ s' := by
  obtain ⟨tr, hr, ha⟩ := h
  exact ⟨_, hr.snoc hs, always_snoc.mpr ⟨ha, hm⟩⟩

theorem Reaches.trans (h : Reaches Step Meets s₀ s) (h' : Reaches Step Meets s s') : Reaches Step Meets s₀ s' := by
  obtain ⟨tr, hr, hm⟩ := h
  obtain ⟨tr', hr', hm'⟩ := h'
  exact ⟨_, hr.append hr', always_append.mpr ⟨hm, hm'⟩⟩

/-- A run of a component is a run of the system it is part of. -/
theorem Run.lift {σ' ε' : Type} {Step' : σ' → ε' → σ' → Prop} (f : σ → σ') (g : ε → ε') (hr : Run Step s₀ tr s)
    (hm : Always Meets tr) (hs : ∀ {t e t'}, Meets t e → Step t e t' → Step' (f t) (g e) (f t')) :
    ∃ tr', Run Step' (f s₀) tr' (f s) := by
  induction hr with
  | nil => exact ⟨[], .nil⟩
  | snoc _ hstep ih =>
    obtain ⟨ht, he⟩ := always_snoc.mp hm
    obtain ⟨tr', hr'⟩ := ih ht
    exact ⟨_, hr'.snoc (hs he hstep)⟩

end

end MarketplaceApi.Transition
