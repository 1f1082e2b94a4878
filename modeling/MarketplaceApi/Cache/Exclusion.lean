import MarketplaceApi.Cache.Lock
import Mathlib.Data.Fintype.EquivFin

/-!
# Exclusion and progress

What the lock gives the callers of `getOrLoad`: who removes it, who may load at the same time,
what a caller ends with, and that it ends.
-/
namespace MarketplaceApi.Cache

open Transition

variable {V E : Type}

abbrev Trace (V E : Type) := List (World V E × Event V E)

/-- The lock's time has run out, or the wait for it has. -/
def Entry.Overdue (clock : Nat) : Entry → Prop
  | owner lock => lock.expiresAt ≤ clock
  | late deadline => deadline ≤ clock

/-- The rounds of the loop that are left until the deadline. -/
def rounds (deadline since : Nat) : Nat := (deadline - since + (pollIntervalMs - 1)) / pollIntervalMs

/-- The caller is about to throw the error of its load, or has, or its release has failed. -/
def World.Fails (w : World V E) (i : Nat) (error : E) : Prop :=
  (∃ lock, w.callers i = .releasing lock (.error (.load error))) ∨ w.callers i = .done (.error (.load error)) ∨
    w.callers i = .done (.error .redis)

/-- A bound on the steps the caller has left. -/
def Caller.rank : Caller V E → Nat
  | reading => 406
  | missed => 405
  | testing deadline since => 4 * rounds deadline since + 4
  | locking deadline since => 4 * rounds deadline since + 3
  | sleeping deadline wakes => 4 * rounds deadline wakes + 6
  | polling deadline since => 4 * rounds deadline since + 5
  | loading _ => 3
  | storing _ _ => 2
  | releasing _ _ => 1
  | done _ => 0

section
variable {w w' : World V E} {ev : Event V E} {i : Nat} {tr : Trace V E}

theorem rank_leave (entry : Entry) (outcome : Outcome V E) : (entry.leave outcome : Caller V E).rank ≤ 1 := by
  cases entry with
  | owner lock => exact Nat.le_refl _
  | late deadline => exact Nat.zero_le _

theorem rank_get {otherwise : Caller V E} :
    (w.value.elim otherwise fun value => Caller.done (.ok value)).rank ≤ otherwise.rank := by
  cases w.value with
  | none => exact Nat.le_refl _
  | some value => exact Nat.zero_le _

theorem rank_move {caller next : Caller V E} (hat : w.callers i = caller)
    (hnext : w'.callers = Function.update w.callers i next) (hlt : next.rank < caller.rank) :
    (w'.callers i).rank < (w.callers i).rank := by
  rw [hnext, Function.update_self, hat]
  exact hlt

/-- Every step of a caller brings its end nearer. -/
theorem rank_step (h : Guarded w) (hs : Step w ev w') (hi : ev.caller = some i) :
    (w'.callers i).rank < (w.callers i).rank := by
  have htimed := (h.fits i).timed
  cases hs with
  | tick _ => cases hi
  | read hat =>
    cases hi
    exact rank_move hat rfl (Nat.lt_of_le_of_lt rank_get (Nat.lt_succ_self 405))
  | enter hat =>
    cases hi
    apply rank_move hat rfl
    unfold Caller.rank rounds waitTimeoutMs pollIntervalMs
    dsimp only
    omega
  | turn hat hlt =>
    cases hi
    rw [hat] at htimed
    change _ ≤ _ at htimed
    apply rank_move hat rfl
    unfold Caller.rank rounds pollIntervalMs
    dsimp only
    omega
  | giveUp hat _ =>
    cases hi
    apply rank_move hat rfl
    unfold Caller.rank
    dsimp only
    omega
  | acquire hat _ _ =>
    cases hi
    apply rank_move hat rfl
    unfold Caller.rank rounds pollIntervalMs
    rw [hat] at htimed
    change _ ≤ _ ∧ _ < _ at htimed
    dsimp only
    omega
  | refuse hat _ _ =>
    cases hi
    apply rank_move hat rfl
    unfold Caller.rank rounds pollIntervalMs
    rw [hat] at htimed
    change _ ≤ _ ∧ _ < _ at htimed
    dsimp only
    omega
  | wake hat _ =>
    cases hi
    apply rank_move hat rfl
    unfold Caller.rank rounds pollIntervalMs
    dsimp only
    omega
  | poll hat =>
    cases hi
    rw [hat] at htimed
    change _ ≤ _ at htimed
    refine rank_move hat rfl (Nat.lt_of_le_of_lt rank_get ?_)
    unfold Caller.rank rounds pollIntervalMs
    dsimp only
    omega
  | load hat =>
    rename_i entry result
    cases hi
    apply rank_move hat rfl
    cases result with
    | ok value => exact Nat.lt_succ_self 2
    | error error => exact Nat.lt_of_le_of_lt (rank_leave entry _) (Nat.lt_add_of_pos_right Nat.two_pos)
  | store hat =>
    cases hi
    exact rank_move hat rfl (Nat.lt_of_le_of_lt (rank_leave _ _) (Nat.lt_succ_self 1))
  | release hat =>
    cases hi
    exact rank_move hat rfl (Nat.lt_succ_self 0)
  | faultRead hat =>
    cases hi
    rcases hat with hat | ⟨deadline, since, hat⟩
    · exact rank_move hat rfl (Nat.succ_pos _)
    · exact rank_move hat rfl (Nat.succ_pos _)
  | faultLock hat _ =>
    cases hi
    exact rank_move hat rfl (Nat.succ_pos _)
  | faultStore hat =>
    cases hi
    exact rank_move hat rfl (Nat.lt_of_le_of_lt (rank_leave _ _) (Nat.lt_succ_self 1))
  | faultRelease hat =>
    cases hi
    exact rank_move hat rfl (Nat.succ_pos _)
  | land _ => cases hi
  | expireLock _ _ => cases hi
  | drop => cases hi

/-- A caller takes at most 406 steps. -/
theorem turns_run (hr : Run Step .start tr w) (i : Nat) :
    (tr.filter fun p => p.2.caller = some i).length + (w.callers i).rank ≤ 406 := by
  induction hr with
  | nil => exact Nat.le_refl _
  | @snoc tr w w' ev hr hs ih =>
    rw [List.filter_append, List.length_append]
    by_cases hi : ev.caller = some i
    · have hrank := rank_step (guarded_run hr) hs hi
      have hone : ([(w, ev)].filter fun p => p.2.caller = some i).length ≤ 1 := List.length_filter_le _ _
      omega
    · have hnone : [(w, ev)].filter (fun p => p.2.caller = some i) = [] := by
        rw [List.filter_cons, if_neg (fun heq => hi (of_decide_eq_true heq)), List.filter_nil]
      rw [hnone, callers_step hs hi]
      exact ih

/-- There is a token that nobody has drawn. -/
theorem exists_fresh (w : World V E) : ∃ token, w.Fresh token := by
  have hinfinite : Infinite String := Infinite.of_injective String.ofList fun _ _ h => String.ofList_injective h
  obtain ⟨token, htoken⟩ := Infinite.exists_notMem_finset (w.drawn.map Prod.fst).toFinset
  refine ⟨token, fun p hp heq => htoken ?_⟩
  rw [List.mem_toFinset, ← heq]
  exact List.mem_map_of_mem hp

/-- A caller that is not done can go on, if need be later; `result` is what its load comes to. -/
theorem enabled (w : World V E) (i : Nat) (result : Except E V) (hlive : ∀ outcome, w.callers i ≠ .done outcome) :
    ∃ time ev w', w.clock ≤ time ∧ ev.caller = some i ∧ Step { w with clock := time } ev w' := by
  have hnow : w.clock ≤ w.clock := Nat.le_refl _
  obtain ⟨token, hfresh⟩ := exists_fresh w
  cases hat : w.callers i with
  | reading => exact ⟨_, .read i, _, hnow, rfl, .read hat⟩
  | missed => exact ⟨_, .enter i, _, hnow, rfl, .enter hat⟩
  | testing deadline since =>
    rcases Nat.lt_or_ge w.clock deadline with hlt | hle
    · exact ⟨_, .turn i, _, hnow, rfl, .turn hat hlt⟩
    · exact ⟨_, .giveUp i, _, hnow, rfl, .giveUp hat hle⟩
  | locking deadline since =>
    by_cases hlock : w.lock = none
    · exact ⟨_, .acquire i token, _, hnow, rfl, .acquire hat hfresh hlock⟩
    · exact ⟨_, .refuse i token, _, hnow, rfl, .refuse hat hfresh (Option.isSome_iff_ne_none.mpr hlock)⟩
  | sleeping deadline wakes =>
    exact ⟨max w.clock wakes, .wake i, _, Nat.le_max_left _ _, rfl, .wake hat (Nat.le_max_right _ _)⟩
  | polling deadline since => exact ⟨_, .poll i, _, hnow, rfl, .poll hat⟩
  | loading entry => exact ⟨_, .load i result, _, hnow, rfl, .load hat⟩
  | storing entry value => exact ⟨_, .store i, _, hnow, rfl, .store hat⟩
  | releasing lock outcome => exact ⟨_, .release i, _, hnow, rfl, .release hat⟩
  | done outcome => exact absurd hat (hlive outcome)

/-- A caller whose outcome is the error of a Redis command had a command that failed. -/
theorem faulted_run (hr : Run Step .start tr w) (i : Nat) (h : (w.callers i).carried = some (.error .redis)) :
    ∃ p ∈ tr, p.2.Faults i := by
  induction hr with
  | nil => cases h
  | @snoc tr w w' ev hr hs ih =>
    rcases carried_step hs h with hbefore | ⟨_, _, hok⟩ | ⟨result, _, hload⟩ | ⟨_, hfault⟩
    · obtain ⟨p, hp, hp'⟩ := ih hbefore
      exact ⟨p, List.mem_append_left _ hp, hp'⟩
    · cases hok
    · cases result <;> cases hload
    · exact ⟨(w, ev), List.mem_append_right _ (List.mem_singleton_self _), hfault⟩

theorem results_step (hs : Step w ev w') {result : Except E V} (h : (i, result) ∈ w'.results) :
    (i, result) ∈ w.results ∨ ev = .load i result := by
  cases hs with
  | load hat =>
    rcases List.mem_append.mp h with hold | hnew
    · exact Or.inl hold
    · cases List.mem_singleton.mp hnew
      exact Or.inr rfl
  | @land command _ _ _ => cases command <;> exact Or.inl h
  | _ => exact Or.inl h

theorem fails_step {error : E} (h : w.Fails i error) (hs : Step w ev w') : w'.Fails i error := by
  by_cases hi : ev.caller = some i
  · cases hs with
    | tick _ | land _ | expireLock _ _ | drop => cases hi
    | release hat =>
      cases hi
      rcases h with ⟨_, hfails⟩ | hfails | hfails
      · cases hat.symm.trans hfails
        exact Or.inr (Or.inl (Function.update_self ..))
      · cases hat.symm.trans hfails
      · cases hat.symm.trans hfails
    | faultRelease hat =>
      cases hi
      exact Or.inr (Or.inr (Function.update_self ..))
    | faultRead hat =>
      cases hi
      exact Or.inr (Or.inr (Function.update_self ..))
    | read hat | enter hat | turn hat _ | giveUp hat _ | acquire hat _ _ | refuse hat _ _ | wake hat _ | poll hat
    | load hat | store hat | faultLock hat _ | faultStore hat =>
      cases hi
      rcases h with ⟨_, hfails⟩ | hfails | hfails <;> cases hat.symm.trans hfails
  · unfold World.Fails
    rwa [callers_step hs hi]

/-- A caller whose load failed fails with its error, unless its release fails. -/
theorem fails_run (hr : Run Step .start tr w) {error : E} (h : (i, .error error) ∈ w.results) : w.Fails i error := by
  induction hr with
  | nil => cases h
  | @snoc tr w w' ev hr hs ih =>
    rcases results_step hs h with hold | rfl
    · exact fails_step (ih hold) hs
    · cases hs with
      | @load _ entry _ hat =>
        cases entry with
        | owner lock => exact Or.inl ⟨lock, Function.update_self ..⟩
        | late deadline => exact Or.inr (Or.inl (Function.update_self ..))

/-- Only its expiry and its own caller's `DELEX` remove a lock. -/
theorem lock_removed (h : Guarded w) {lock : Lock} (hs : Step w ev w') (hin : w.lock = some lock)
    (hgone : w'.lock ≠ some lock) : w'.lock = none ∧ ((ev = .expireLock ∧ lock.expiresAt ≤ w.clock) ∨
      ∃ i, (lock.token, i) ∈ w.drawn ∧ ((ev = .release i ∧ ∃ outcome, w.callers i = .releasing lock outcome) ∨
        (ev = .land (.delex lock.token) ∧ w.callers i = .done (.error .redis)))) := by
  have hset : ∀ token, w.setNx token = some lock := fun token => by
    rw [setNx_isSome (by rw [hin]; rfl), hin]
  have hdelex : ∀ {i own} {outcome : Outcome V E}, w.callers i = .releasing own outcome →
      w.delex own.token ≠ some lock → w.delex own.token = none ∧ lock = own ∧ (lock.token, i) ∈ w.drawn := by
    intro i own outcome hat hne
    have hmem := ((h.fits i).held own (by rw [hat]; rfl)).1
    by_cases htoken : lock.token = own.token
    · refine ⟨?_, h.own_token hat hin htoken, htoken ▸ hmem⟩
      unfold World.delex
      rw [hin, Option.any_some, if_pos (decide_eq_true htoken)]
    · refine absurd ?_ hne
      unfold World.delex
      rw [hin, Option.any_some, if_neg fun heq => htoken (of_decide_eq_true heq)]
  cases hs with
  | tick _ | read _ | enter _ | turn _ _ | giveUp _ _ | wake _ _ | poll _ | load _ | store _ | faultRead _
  | faultLock _ _ | faultStore _ | faultRelease _ | drop => exact absurd hin hgone
  | acquire _ _ hnone =>
    rw [hnone] at hin
    cases hin
  | refuse _ _ _ => exact absurd (hset _) hgone
  | release hat =>
    obtain ⟨hnone, rfl, hmem⟩ := hdelex hat hgone
    exact ⟨hnone, Or.inr ⟨_, hmem, Or.inl ⟨rfl, _, hat⟩⟩⟩
  | land hlost =>
    rename_i command before after
    have hmem := h.lost command (hlost ▸ List.mem_append_right _ List.mem_cons_self)
    cases command with
    | setNx token => exact absurd (hset token) hgone
    | set value => exact absurd hin hgone
    | delex token =>
      obtain ⟨i, hdrawn, hended⟩ := hmem
      by_cases htoken : lock.token = token
      · subst htoken
        refine ⟨?_, Or.inr ⟨i, hdrawn, Or.inr ⟨rfl, hended⟩⟩⟩
        show w.delex lock.token = none
        unfold World.delex
        rw [hin, Option.any_some, if_pos (decide_eq_true rfl)]
      · refine absurd ?_ hgone
        show w.delex token = some lock
        unfold World.delex
        rw [hin, Option.any_some, if_neg fun heq => htoken (of_decide_eq_true heq)]
  | expireLock hlock hdue =>
    obtain rfl := Option.some.inj (hlock.symm.trans hin)
    exact ⟨rfl, Or.inl ⟨rfl, hdue⟩⟩

/-- Of two callers inside the load, one is overdue. -/
theorem Guarded.exclusive (h : Guarded w) {i j : Nat} {entry entry' : Entry} (hne : i ≠ j)
    (hi : w.callers i = .loading entry) (hj : w.callers j = .loading entry') :
    entry.Overdue w.clock ∨ entry'.Overdue w.clock := by
  cases entry with
  | late deadline => exact Or.inl (by have ht := (h.fits i).timed; rwa [hi] at ht)
  | owner lock =>
    cases entry' with
    | late deadline => exact Or.inr (by have ht := (h.fits j).timed; rwa [hj] at ht)
    | owner lock' =>
      obtain ⟨hmem, hlock | hdue⟩ := (h.fits i).held lock (by rw [hi]; rfl)
      · obtain ⟨hmem', hlock' | hdue'⟩ := (h.fits j).held lock' (by rw [hj]; rfl)
        · obtain rfl := Option.some.inj (hlock.symm.trans hlock')
          exact absurd (h.unique _ _ _ hmem hmem') hne
        · exact Or.inr hdue'
      · exact Or.inl hdue

/-- A caller that ended with all its Redis commands has no lock left behind. -/
theorem Guarded.released (h : Guarded w) {outcome : Outcome V E} (hdone : w.callers i = .done outcome)
    (hredis : outcome ≠ .error .redis) {lock : Lock} (hin : w.lock = some lock) : (lock.token, i) ∉ w.drawn := by
  intro hmem
  obtain ⟨j, hj, hor⟩ := h.owned lock hin
  obtain rfl := h.unique _ _ _ hmem hj
  rw [hdone] at hor
  rcases hor with hheld | hredis'
  · cases hheld
  · exact hredis (Caller.done.inj hredis')

end

/-- Every caller ends after a bounded number of its own steps, and none is stuck before. -/
structure Settles (tr : Trace V E) (w : World V E) : Prop where
  bounded : ∀ i, (tr.filter fun p => p.2.caller = some i).length ≤ 406
  enabled : ∀ i (_ : Except E V), (∀ outcome, w.callers i ≠ .done outcome) →
    ∃ time ev w', w.clock ≤ time ∧ ev.caller = some i ∧ Step { w with clock := time } ev w'

theorem settles_run {tr : Trace V E} {w : World V E} (hr : Run Step .start tr w) : Settles tr w := by
  refine ⟨fun i => ?_, enabled w⟩
  have hturns := turns_run hr i
  omega

/-- What the stampede lock guarantees after a run. -/
structure Excludes (tr : Trace V E) (w : World V E) : Prop where
  removed : ∀ ev w' lock, Step w ev w' → w.lock = some lock → w'.lock ≠ some lock →
    w'.lock = none ∧ ((ev = .expireLock ∧ lock.expiresAt ≤ w.clock) ∨
      ∃ i, (lock.token, i) ∈ w.drawn ∧ ((ev = .release i ∧ ∃ outcome, w.callers i = .releasing lock outcome) ∨
        (ev = .land (.delex lock.token) ∧ w.callers i = .done (.error .redis))))
  exclusive : ∀ i j entry entry', i ≠ j → w.callers i = .loading entry → w.callers j = .loading entry' →
    entry.Overdue w.clock ∨ entry'.Overdue w.clock
  failing : ∀ i error, w.callers i = .done (.error (.load error)) →
    (i, .error error) ∈ w.results ∧ ∀ lock, w.lock = some lock → (lock.token, i) ∉ w.drawn
  propagates : ∀ i error, (i, .error error) ∈ w.results →
    (∃ lock, w.callers i = .releasing lock (.error (.load error))) ∨ w.callers i = .done (.error (.load error)) ∨
      (w.callers i = .done (.error .redis) ∧ ∃ p ∈ tr, p.2.Faults i)
  returned : ∀ i value, w.callers i = .done (.ok value) →
    (∃ j, (j, .ok value) ∈ w.results) ∧ ∀ lock, w.lock = some lock → (lock.token, i) ∉ w.drawn
  broken : ∀ i, w.callers i = .done (.error .redis) → ∃ p ∈ tr, p.2.Faults i
  settles : Settles tr w

/-- The stampede lock excludes and is never stolen. -/
theorem lock_excludes {tr : Trace V E} {w : World V E} (hr : Run Step .start tr w) : Excludes tr w := by
  have h := guarded_run hr
  refine ⟨fun ev w' lock => lock_removed h, fun i j entry entry' => h.exclusive, ?_, ?_, ?_, ?_, settles_run hr⟩
  · intro i error hdone
    exact ⟨(h.fits i).carried (.error (.load error)) (by rw [hdone]; rfl), fun lock => h.released hdone nofun⟩
  · intro i error hmem
    rcases fails_run hr hmem with hreleasing | hdone | hredis
    · exact Or.inl hreleasing
    · exact Or.inr (Or.inl hdone)
    · exact Or.inr (Or.inr ⟨hredis, faulted_run hr i (by rw [hredis]; rfl)⟩)
  · intro i value hdone
    exact ⟨(h.fits i).carried (.ok value) (by rw [hdone]; rfl), fun lock => h.released hdone nofun⟩
  · intro i hdone
    exact faulted_run hr i (by rw [hdone]; rfl)

/-- A load outlives its lock, and the next owner is inside the load at the same time. -/
theorem lock_excludes_outlived : ∃ (tr : Trace Nat String) (w : World Nat String), tr.length = 10 ∧
    w.callers 0 = .loading (.owner ⟨"a", 5000⟩) ∧ w.callers 1 = .loading (.owner ⟨"b", 10000⟩) ∧ Excludes tr w := by
  have first : ∃ tr : Trace Nat String, tr.length = 4 ∧ Run Step .start tr _ :=
    ⟨_, rfl, .snoc (.snoc (.snoc (.snoc .nil (.read (i := 0) rfl)) (.enter (i := 0) rfl))
      (.turn (i := 0) rfl (by decide))) (.acquire (i := 0) rfl (show World.Fresh _ "a" by decide) rfl)⟩
  obtain ⟨tr, hlength, hr⟩ := first
  refine ⟨_, _, ?_, ?_, ?_, lock_excludes (.snoc (.snoc (.snoc (.snoc (.snoc (.snoc hr
    (.tick (show 0 ≤ 5000 by decide))) (.expireLock rfl (Nat.le_refl _))) (.read (i := 1) rfl)) (.enter (i := 1) rfl))
    (.turn (i := 1) rfl (by decide))) (.acquire (i := 1) rfl (show World.Fresh _ "b" by decide) rfl))⟩
  · simp only [List.length_append, hlength, List.length_singleton]
  · rfl
  · rfl

end MarketplaceApi.Cache
