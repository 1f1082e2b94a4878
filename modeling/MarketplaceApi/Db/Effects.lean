import MarketplaceApi.Account.Ledger
import MarketplaceApi.Db.Retry

/-!
# No transaction takes effect twice

Whatever is retried, the committed state is what the calls' locking statements make of it in the order of the
commits, each call once at most. What a call reads without a lock may be older than its place in that order.
-/
namespace MarketplaceApi.Db

open Transition (Run Always)
open Txn

section
variable {K S E R Q : Type} {Y : System K S E R Q} {options : RetryTransactionOptions} {s₀ : S}
  {w w' : World K S E R Q} {ev : Event Q} {tr : List (World K S E R Q × Event Q)} {i : Nat} {call : Call E R Q}
  {db : Config K S E R Q}

theorem put_self (w : World K S E R Q) (i : Nat) (call : Call E R Q) (db : Config K S E R Q) :
    (w.put i call db).calls i = call := Function.update_self ..

theorem put_other (w : World K S E R Q) {i j : Nat} (hj : j ≠ i) (call : Call E R Q) (db : Config K S E R Q) :
    (w.put i call db).calls j = w.calls j := Function.update_of_ne hj ..

/-- A call is the one that was put, or it is as it was. -/
theorem put_cases (db : Config K S E R Q) {j : Nat} {other : Call E R Q} (h : (w.put i call db).calls j = other) :
    j = i ∧ call = other ∨ j ≠ i ∧ w.calls j = other := by
  by_cases he : j = i
  · subst he
    rw [put_self] at h
    exact Or.inl ⟨rfl, h⟩
  · rw [put_other w he] at h
    exact Or.inr ⟨he, h⟩

/-- What holds of the calls. -/
structure Counted (options : RetryTransactionOptions) (w : World K S E R Q) : Prop where
  once : (w.history.map Prod.fst).Nodup
  ended : ∀ i q r, (i, q, r) ∈ w.history → (w.calls i).Ended q r
  returned : ∀ i q r, w.calls i = .returned q r → (i, q, r) ∈ w.history
  running : ∀ i q n, w.calls i = .running q n → 1 ≤ n ∧ n ≤ max 1 options.maxAttempts
  sleeping : ∀ i q n, w.calls i = .sleeping q n → n < options.maxAttempts
  exhausted : ∀ i q failure n, w.calls i = .failed q failure n → deadlockErrorCode failure ≠ none →
    n = max 1 options.maxAttempts ∧ ∀ q' r, (i, q', r) ∉ w.history

/-- A call that goes on has committed nothing. -/
theorem Counted.fresh (h : Counted options w) (hi : w.calls i = call) (hgo : ∀ q r, ¬ call.Ended q r) :
    ∀ q r, (i, q, r) ∉ w.history := by
  intro q r hin
  have hended := h.ended i q r hin
  rw [hi] at hended
  exact hgo q r hended

/-- A call moves on and commits nothing. -/
theorem Counted.put (h : Counted options w) (hfresh : ∀ q r, (i, q, r) ∉ w.history)
    (hreturned : ∀ q r, call ≠ .returned q r)
    (hrunning : ∀ q n, call = .running q n → 1 ≤ n ∧ n ≤ max 1 options.maxAttempts)
    (hsleeping : ∀ q n, call = .sleeping q n → n < options.maxAttempts)
    (hfailed : ∀ q failure n, call = .failed q failure n → deadlockErrorCode failure ≠ none →
      n = max 1 options.maxAttempts) : Counted options (w.put i call db) where
  once := h.once
  ended j q r hin := by
    have hne : j ≠ i := by
      rintro rfl
      exact hfresh q r hin
    rw [put_other w hne]
    exact h.ended j q r hin
  returned j q r hj := by
    rcases put_cases db hj with ⟨_, hput⟩ | ⟨_, hold⟩
    · exact absurd hput (hreturned q r)
    · exact h.returned j q r hold
  running j q n hj := by
    rcases put_cases db hj with ⟨_, hput⟩ | ⟨_, hold⟩
    · exact hrunning q n hput
    · exact h.running j q n hold
  sleeping j q n hj := by
    rcases put_cases db hj with ⟨_, hput⟩ | ⟨_, hold⟩
    · exact hsleeping q n hput
    · exact h.sleeping j q n hold
  exhausted j q failure n hj hcode := by
    rcases put_cases db hj with ⟨rfl, hput⟩ | ⟨_, hold⟩
    · exact ⟨hfailed q failure n hput hcode, hfresh⟩
    · exact h.exhausted j q failure n hold hcode

/-- A call commits and ends. -/
theorem Counted.commit (h : Counted options w) {q : Q} {r : R} (hfresh : ∀ q r, (i, q, r) ∉ w.history)
    (hended : call.Ended q r) :
    Counted options { w.put i call db with history := w.history ++ [(i, q, r)] } where
  once := by
    rw [List.map_append, List.nodup_append]
    refine ⟨h.once, by simp, ?_⟩
    intro j hj k hk
    obtain ⟨⟨_, q', r'⟩, hin, rfl⟩ := List.mem_map.mp hj
    rintro rfl
    simp only [List.map_cons, List.map_nil, List.mem_singleton] at hk
    subst hk
    exact hfresh q' r' hin
  ended j q' r' hin := by
    rcases List.mem_append.mp hin with hold | hnew
    · have hne : j ≠ i := by
        rintro rfl
        exact hfresh q' r' hold
      change ((w.put i call db).calls j).Ended q' r'
      rw [put_other w hne]
      exact h.ended j q' r' hold
    · rw [List.mem_singleton] at hnew
      cases hnew
      change ((w.put i call db).calls i).Ended q r
      rw [put_self]
      exact hended
  returned j q' r' hj := by
    rcases put_cases db hj with ⟨rfl, rfl⟩ | ⟨_, hold⟩
    · rcases hended with hcall | ⟨failure, n, hcall, _⟩
      · cases hcall
        exact List.mem_append_right _ List.mem_cons_self
      · cases hcall
    · exact List.mem_append_left _ (h.returned j q' r' hold)
  running j q' n hj := by
    rcases put_cases db hj with ⟨_, rfl⟩ | ⟨_, hold⟩
    · rcases hended with hcall | ⟨_, _, hcall, _⟩ <;> cases hcall
    · exact h.running j q' n hold
  sleeping j q' n hj := by
    rcases put_cases db hj with ⟨_, rfl⟩ | ⟨_, hold⟩
    · rcases hended with hcall | ⟨_, _, hcall, _⟩ <;> cases hcall
    · exact h.sleeping j q' n hold
  exhausted j q' failure n hj hcode := by
    rcases put_cases db hj with ⟨_, rfl⟩ | ⟨he, hold⟩
    · rcases hended with hcall | ⟨failure', m, hcall, hnone⟩
      · cases hcall
      · cases hcall
        exact absurd hnone hcode
    · obtain ⟨hn, hno⟩ := h.exhausted j q' failure n hold hcode
      refine ⟨hn, fun q'' r'' hin => ?_⟩
      rcases List.mem_append.mp hin with hin | hnew
      · exact hno q'' r'' hin
      · rw [List.mem_singleton] at hnew
        exact he (congrArg Prod.fst hnew)

theorem coherent_step (hc : Coherent Y w.db) (hs : Step Y options w ev w') : Coherent Y w'.db := by
  cases hs with
  | call _ hstep => exact Txn.coherent_step hc hstep
  | statement hstep => exact Txn.coherent_step hc hstep
  | committed _ hstep _ => exact Txn.coherent_step hc hstep
  | lost _ hstep _ _ => exact Txn.coherent_step hc hstep
  | thrown _ hstep _ => exact Txn.coherent_step hc hstep
  | aborted _ hstep => exact Txn.coherent_step hc hstep
  | retry _ hstep => exact Txn.coherent_step hc hstep
  | env hstep => exact Txn.coherent_step hc hstep

theorem statements_run (options : RetryTransactionOptions) {trace : List (Config K S E R Q × Txn.Event Q)}
    (hr : Run (Txn.Step Y) w.db trace db) (h : ∀ p ∈ trace, p.2 = .statement i) :
    ∃ tr', Run (Step Y options) w tr' { w with db := db } := by
  have halways : Always (fun _ e => e = Txn.Event.statement i) trace := h
  obtain ⟨tr', hlifted⟩ : ∃ tr', Run (Step Y options) { w with db := w.db } tr' { w with db := db } :=
    hr.lift (fun c => { w with db := c }) (fun _ => .statement i) halways fun hstatement hstep => by
      subst hstatement
      exact .statement hstep
  exact ⟨tr', hlifted⟩

end

end MarketplaceApi.Db
