import Mathlib.Data.List.Induction

/-!
# Sliding windows

Times at which something was admitted, each only if fewer than `limit` earlier ones were within
the window that ends at it. Then no window holds more than `limit`.
-/
namespace MarketplaceApi.RateLimit

/-- The times in `(t - window, t]`. -/
def within (window t : Nat) (times : List Nat) : List Nat :=
  times.filter fun time => decide (time ≤ t ∧ t < time + window)

/-- Every time had fewer than `limit` earlier ones in its window. -/
def Paced (window limit : Nat) (times : List Nat) : Prop :=
  ∀ before time after, times = before ++ time :: after → (within window time before).length < limit

variable {window limit : Nat} {times : List Nat}

theorem paced_nil : Paced window limit [] := by
  intro before time after h
  have hlength := congrArg List.length h
  rw [List.length_append, List.length_cons, List.length_nil] at hlength
  omega

theorem paced_concat {time : Nat} (h : Paced window limit times) (ht : (within window time times).length < limit) :
    Paced window limit (times ++ [time]) := by
  intro before other after he
  rcases List.eq_nil_or_concat after with rfl | ⟨rest, last, rfl⟩
  · obtain ⟨rfl, hlast⟩ := List.append_inj' he rfl
    obtain rfl := List.singleton_inj.mp hlast
    exact ht
  · rw [List.concat_eq_append, ← List.cons_append, ← List.append_assoc] at he
    exact h before other rest (List.append_inj' he rfl).1

theorem Paced.init {time : Nat} (h : Paced window limit (times ++ [time])) : Paced window limit times := by
  intro before other after he
  refine h before other (after ++ [time]) ?_
  rw [he, List.append_assoc, List.cons_append]

theorem within_concat (t time : Nat) :
    within window t (times ++ [time]) =
      within window t times ++ if time ≤ t ∧ t < time + window then [time] else [] := by
  unfold within
  rw [List.filter_append, List.filter_cons, List.filter_nil]
  simp only [decide_eq_true_eq]

/-- A later window holds no more of what is over before an earlier one ends. -/
theorem within_shift {t x : Nat} (hle : ∀ time ∈ times, time ≤ x) (hx : x ≤ t) :
    (within window t times).length ≤ (within window x times).length := by
  unfold within
  rw [← List.countP_eq_length_filter, ← List.countP_eq_length_filter]
  apply List.countP_mono_left
  intro time hmem ht
  have hpast := hle time hmem
  have hin := of_decide_eq_true ht
  apply decide_eq_true
  omega

/-- No window holds more than the limit. -/
theorem window_bound (horder : times.Pairwise (· ≤ ·)) (hpaced : Paced window limit times) (t : Nat) :
    (within window t times).length ≤ limit := by
  induction times using List.reverseRecOn with
  | nil => exact Nat.zero_le _
  | append_singleton earlier last ih =>
    obtain ⟨hearlier, _, hlast⟩ := List.pairwise_append.mp horder
    have hroom : (within window last earlier).length < limit := hpaced earlier last [] rfl
    rw [within_concat, List.length_append]
    by_cases ht : last ≤ t ∧ t < last + window
    · have hshift : (within window t earlier).length ≤ (within window last earlier).length :=
        within_shift (fun time hmem => hlast time hmem last (List.mem_singleton_self _)) ht.1
      rw [if_pos ht, List.length_singleton]
      omega
    · rw [if_neg ht, List.length_nil]
      exact ih hearlier hpaced.init

end MarketplaceApi.RateLimit
