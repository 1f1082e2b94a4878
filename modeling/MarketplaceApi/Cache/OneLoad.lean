import MarketplaceApi.Cache.Exclusion

/-!
# One load for a cold key

While nothing fails and nothing is overdue, the key goes through three phases: nobody has
started to load, one owner is at it, or its value is stored. A caller that gets the lock in the
last phase loads a second time, for `getOrLoad` does not look at the key again before it loads.
-/
namespace MarketplaceApi.Cache

open Transition

variable {V E : Type}

/-- No load and no Redis command fails, the value stays, no lock runs out under its owner and no
caller runs into its deadline. -/
def Smooth (w : World V E) : Event V E → Prop
  | .load _ result => ∃ value, result = .ok value
  | .giveUp _ | .faultRead _ | .faultLock _ _ | .faultStore _ | .faultRelease _ | .drop => False
  | .expireLock => ∀ i, (w.callers i).held = none
  | _ => True

/-- No caller gets the lock once the value is stored. -/
def Unstored (w : World V E) : Event V E → Prop
  | .acquire _ _ => w.value = none
  | _ => True

/-- At most one load, and whoever is done has what it came to. -/
def OneLoad (w : World V E) : Prop :=
  w.loads.length ≤ 1 ∧ ∀ i outcome, w.callers i = .done outcome →
    ∃ j value, w.loads = [j] ∧ w.results = [(j, .ok value)] ∧ outcome = .ok value

/-- The caller has not come to a load. -/
def Caller.Outside : Caller V E → Prop
  | reading | missed | testing _ _ | locking _ _ | sleeping _ _ | polling _ _ => True
  | _ => False

structure Cold (w : World V E) : Prop where
  loads : w.loads = []
  results : w.results = []
  unstored : w.value = none
  free : w.lock = none
  lost : w.lost = []
  callers : ∀ i, (w.callers i).Outside

structure Working (w : World V E) (k : Nat) (lock : Lock) : Prop where
  loads : w.loads = [k]
  unstored : w.value = none
  taken : w.lock = some lock
  lost : w.lost = []
  owner : (w.callers k = .loading (.owner lock) ∧ w.results = []) ∨
    ∃ value, w.callers k = .storing (.owner lock) value ∧ w.results = [(k, .ok value)]
  callers : ∀ i, i ≠ k → (w.callers i).Outside

/-- The caller has what is stored, or has not come to a load. -/
def Caller.Served (value : V) (caller : Caller V E) : Prop :=
  caller.Outside ∨ caller = .done (.ok value) ∨ ∃ lock, caller = .releasing lock (.ok value)

structure Warm (w : World V E) (k : Nat) (value : V) : Prop where
  loads : w.loads = [k]
  results : w.results = [(k, .ok value)]
  stored : w.value = some value
  lost : w.lost = []
  callers : ∀ i, (w.callers i).Served value

def Phase (w : World V E) : Prop := Cold w ∨ (∃ k lock, Working w k lock) ∨ ∃ k value, Warm w k value

section
variable {w w' : World V E} {ev : Event V E} {i k : Nat} {tr : Trace V E} {value : V} {lock : Lock}

theorem Phase.oneLoad (h : Phase w) : OneLoad w := by
  rcases h with h | ⟨k, lock, h⟩ | ⟨k, value, h⟩
  · refine ⟨by rw [h.loads]; exact Nat.zero_le _, fun i outcome hdone => ?_⟩
    have houtside := h.callers i
    rw [hdone] at houtside
    exact houtside.elim
  · refine ⟨by rw [h.loads]; exact Nat.le_refl _, fun i outcome hdone => ?_⟩
    by_cases hi : i = k
    · subst hi
      rcases h.owner with ⟨hat, _⟩ | ⟨_, hat, _⟩
      · rw [hdone] at hat
        cases hat
      · rw [hdone] at hat
        cases hat
    · have houtside := h.callers i hi
      rw [hdone] at houtside
      exact houtside.elim
  · refine ⟨by rw [h.loads]; exact Nat.le_refl _, fun i outcome hdone => ⟨k, value, h.loads, h.results, ?_⟩⟩
    rcases h.callers i with houtside | hsame | ⟨_, hreleasing⟩
    · rw [hdone] at houtside
      exact houtside.elim
    · exact Caller.done.inj (hdone.symm.trans hsame)
    · rw [hdone] at hreleasing
      cases hreleasing

theorem phase_start : Phase (.start : World V E) := Or.inl ⟨rfl, rfl, rfl, rfl, rfl, fun _ => True.intro⟩

/-- All callers but one stay where they are. -/
theorem forall_update {P : Nat → Caller V E → Prop} {caller : Caller V E} (h : ∀ j, j ≠ i → P j (w.callers j))
    (hcaller : P i caller) (j : Nat) : P j (Function.update w.callers i caller j) := by
  by_cases hj : j = i
  · rw [hj, Function.update_self]
    exact hcaller
  · rw [Function.update_of_ne hj]
    exact h j hj

theorem Cold.put (h : Cold w) {caller : Caller V E} (hcaller : caller.Outside) : Cold (w.put i caller) :=
  ⟨h.loads, h.results, h.unstored, h.free, h.lost, forall_update (fun j _ => h.callers j) hcaller⟩

theorem Cold.get (h : Cold w) {otherwise : Caller V E} (ho : otherwise.Outside) : Cold (w.get i otherwise) := by
  unfold World.get
  rw [h.unstored]
  exact h.put ho

theorem Caller.Outside.at {caller : Caller V E} (h : (w.callers i).Outside) (hat : w.callers i = caller) :
    caller.Outside := hat ▸ h

theorem Cold.step (h : Cold w) (hs : Step w ev w') (hsmooth : Smooth w ev) : Phase w' := by
  cases hs with
  | tick _ => exact Or.inl ⟨h.loads, h.results, h.unstored, h.free, h.lost, h.callers⟩
  | read _ | poll _ => exact Or.inl (h.get True.intro)
  | enter _ | turn _ _ | wake _ _ => exact Or.inl (h.put True.intro)
  | acquire hat hfresh hnone =>
    rename_i i _ _ token
    refine Or.inr (Or.inl ⟨i, ⟨token, w.clock + lockTtlMs⟩, ?_, h.unstored, ?_, h.lost, ?_, ?_⟩)
    · show w.loads ++ [i] = [i]
      rw [h.loads, List.nil_append]
    · show w.setNx token = _
      unfold World.setNx
      rw [hnone]
      rfl
    · exact Or.inl ⟨Function.update_self .., h.results⟩
    · intro j hj
      show (Function.update w.callers i _ j).Outside
      rw [Function.update_of_ne hj]
      exact h.callers j
  | refuse _ _ hsome =>
    rw [h.free] at hsome
    cases hsome
  | load hat => exact ((h.callers _).at hat).elim
  | store hat => exact ((h.callers _).at hat).elim
  | release hat => exact ((h.callers _).at hat).elim
  | giveUp _ _ | faultRead _ | faultLock _ _ | faultStore _ | faultRelease _ | drop => exact hsmooth.elim
  | land hlost =>
    rw [h.lost] at hlost
    exact absurd hlost.symm (List.append_ne_nil_of_right_ne_nil _ (List.cons_ne_nil _ _))
  | expireLock hin _ =>
    rw [h.free] at hin
    cases hin

/-- A caller that is not the owner goes on outside. -/
theorem Working.put (h : Working w k lock) {caller before : Caller V E} (hat : w.callers i = before)
    (hbefore : before.Outside) (hcaller : caller.Outside) : Working (w.put i caller) k lock := by
  have hne : k ≠ i := by
    intro heq
    subst heq
    rcases h.owner with ⟨hload, _⟩ | ⟨_, hstore, _⟩
    · rw [← hat, hload] at hbefore
      exact hbefore
    · rw [← hat, hstore] at hbefore
      exact hbefore
  refine ⟨h.loads, h.unstored, h.taken, h.lost, ?_, fun j hj => ?_⟩
  · show (Function.update w.callers i caller k = _ ∧ _) ∨ ∃ _, Function.update w.callers i caller k = _ ∧ _
    rw [Function.update_of_ne hne]
    exact h.owner
  · exact forall_update (P := fun j c => j ≠ k → c.Outside) (fun j _ => h.callers j) (fun _ => hcaller) j hj

theorem Working.get (h : Working w k lock) {otherwise before : Caller V E} (hat : w.callers i = before)
    (hbefore : before.Outside) (ho : otherwise.Outside) : Working (w.get i otherwise) k lock := by
  unfold World.get
  rw [h.unstored]
  exact h.put hat hbefore ho

theorem Working.at_owner (h : Working w k lock) {caller : Caller V E} (hat : w.callers i = caller)
    (hinside : ¬ caller.Outside) : i = k := by
  by_contra hi
  exact hinside ((h.callers i hi).at hat)

theorem Working.step (h : Working w k lock) (hs : Step w ev w') (hsmooth : Smooth w ev) : Phase w' := by
  cases hs with
  | tick _ => exact Or.inr (Or.inl ⟨k, lock, h.loads, h.unstored, h.taken, h.lost, h.owner, h.callers⟩)
  | read hat | poll hat => exact Or.inr (Or.inl ⟨k, lock, h.get hat True.intro True.intro⟩)
  | enter hat | turn hat _ | wake hat _ => exact Or.inr (Or.inl ⟨k, lock, h.put hat True.intro True.intro⟩)
  | acquire _ _ hnone =>
    rw [h.taken] at hnone
    cases hnone
  | refuse hat hfresh hsome =>
    rename_i i deadline _ _
    have hput : Working (w.put i (.sleeping deadline (w.clock + pollIntervalMs))) k lock :=
      h.put hat True.intro True.intro
    refine Or.inr (Or.inl ⟨k, lock, hput.loads, hput.unstored, ?_, hput.lost, hput.owner, hput.callers⟩)
    exact (setNx_isSome hsome).trans h.taken
  | load hat =>
    rename_i entry result
    obtain ⟨value, rfl⟩ := hsmooth
    obtain rfl := h.at_owner hat id
    rcases h.owner with ⟨hload, hnone⟩ | ⟨_, hstore, _⟩
    · obtain rfl := Caller.loading.inj (hat.symm.trans hload)
      refine Or.inr (Or.inl ⟨_, lock, h.loads, h.unstored, h.taken, h.lost,
        Or.inr ⟨value, Function.update_self .., ?_⟩, ?_⟩)
      · show w.results ++ _ = _
        rw [hnone, List.nil_append]
      · intro j hj
        show (Function.update w.callers _ _ j).Outside
        rw [Function.update_of_ne hj]
        exact h.callers j hj
    · rw [hat] at hstore
      cases hstore
  | store hat =>
    rename_i entry value
    obtain rfl := h.at_owner hat id
    rcases h.owner with ⟨hload, _⟩ | ⟨value', hstore, hresult⟩
    · rw [hat] at hload
      cases hload
    · obtain ⟨rfl, rfl⟩ := Caller.storing.inj (hat.symm.trans hstore)
      refine Or.inr (Or.inr ⟨_, value, h.loads, hresult, rfl, h.lost, ?_⟩)
      exact forall_update (P := fun _ c => c.Served value) (fun j hj => Or.inl (h.callers j hj))
        (Or.inr (Or.inr ⟨lock, rfl⟩))
  | release hat =>
    obtain rfl := h.at_owner hat id
    rcases h.owner with ⟨hload, _⟩ | ⟨_, hstore, _⟩
    · rw [hat] at hload
      cases hload
    · rw [hat] at hstore
      cases hstore
  | giveUp _ _ | faultRead _ | faultLock _ _ | faultStore _ | faultRelease _ | drop => exact hsmooth.elim
  | land hlost =>
    rw [h.lost] at hlost
    exact absurd hlost.symm (List.append_ne_nil_of_right_ne_nil _ (List.cons_ne_nil _ _))
  | expireLock _ _ =>
    have hheld := hsmooth k
    rcases h.owner with ⟨hload, _⟩ | ⟨_, hstore, _⟩
    · rw [hload] at hheld
      cases hheld
    · rw [hstore] at hheld
      cases hheld

theorem Warm.put (h : Warm w k value) {caller : Caller V E} (hcaller : caller.Served value) :
    Warm (w.put i caller) k value :=
  ⟨h.loads, h.results, h.stored, h.lost,
    forall_update (P := fun _ c => c.Served value) (fun j _ => h.callers j) hcaller⟩

theorem Warm.get (h : Warm w k value) {otherwise : Caller V E} : Warm (w.get i otherwise) k value := by
  unfold World.get
  rw [h.stored]
  exact h.put (Or.inr (Or.inl rfl))

theorem Warm.step (h : Warm w k value) (hs : Step w ev w') (hsmooth : Smooth w ev) (hmeets : Unstored w ev) :
    Phase w' := by
  have hserved : ∀ {j caller}, w.callers j = caller → caller.Served value := fun hat => hat ▸ h.callers _
  cases hs with
  | tick _ => exact Or.inr (Or.inr ⟨k, value, h.loads, h.results, h.stored, h.lost, h.callers⟩)
  | read _ | poll _ => exact Or.inr (Or.inr ⟨k, value, h.get⟩)
  | enter _ | turn _ _ | wake _ _ => exact Or.inr (Or.inr ⟨k, value, h.put (Or.inl True.intro)⟩)
  | acquire _ _ _ =>
    have hnone : w.value = none := hmeets
    rw [h.stored] at hnone
    cases hnone
  | refuse hat hfresh hsome =>
    rename_i i deadline _ _
    have hput : Warm (w.put i (.sleeping deadline (w.clock + pollIntervalMs))) k value := h.put (Or.inl True.intro)
    exact Or.inr (Or.inr ⟨k, value, hput.loads, hput.results, hput.stored, hput.lost, hput.callers⟩)
  | load hat => rcases hserved hat with h | h | ⟨_, h⟩ <;> cases h
  | store hat => rcases hserved hat with h | h | ⟨_, h⟩ <;> cases h
  | release hat =>
    rename_i outcome
    have houtcome : outcome = .ok value := by
      rcases hserved hat with h | h | ⟨_, h⟩
      · cases h
      · cases h
      · exact (Caller.releasing.inj h).2
    subst houtcome
    rename_i i _
    have hput : Warm (w.put i (.done (.ok value))) k value := h.put (Or.inr (Or.inl rfl))
    exact Or.inr (Or.inr ⟨k, value, hput.loads, hput.results, hput.stored, hput.lost, hput.callers⟩)
  | giveUp _ _ | faultRead _ | faultLock _ _ | faultStore _ | faultRelease _ | drop => exact hsmooth.elim
  | land hlost =>
    rw [h.lost] at hlost
    exact absurd hlost.symm (List.append_ne_nil_of_right_ne_nil _ (List.cons_ne_nil _ _))
  | expireLock _ _ => exact Or.inr (Or.inr ⟨k, value, h.loads, h.results, h.stored, h.lost, h.callers⟩)

theorem phase_step (h : Phase w) (hs : Step w ev w') (hsmooth : Smooth w ev) (hmeets : Unstored w ev) : Phase w' := by
  rcases h with h | ⟨k, lock, h⟩ | ⟨k, value, h⟩
  · exact h.step hs hsmooth
  · exact h.step hs hsmooth
  · exact h.step hs hsmooth hmeets

/-- A lock taken beside a stored value starts a second load. -/
theorem Phase.second (h : Phase w) (hs : Step w ev w') (hno : ¬ Unstored w ev) : 2 ≤ w'.loads.length := by
  cases hs <;> first | exact absurd True.intro hno | skip
  rename_i i _ _ token _ _ _
  show 2 ≤ (w.loads ++ [i]).length
  rw [List.length_append, List.length_singleton]
  rcases h with h | ⟨_, _, h⟩ | ⟨_, _, h⟩
  · exact absurd h.unstored hno
  · exact absurd h.unstored hno
  · rw [h.loads]
    exact Nat.le_refl _

theorem loads_mono (hs : Step w ev w') : w.loads.length ≤ w'.loads.length := by
  cases hs with
  | @land command _ _ _ => cases command <;> exact Nat.le_refl _
  | _ => first | exact Nat.le_refl _ | (rw [List.length_append]; exact Nat.le_add_right _ _)

/-- A smooth run has one load exactly as long as no caller gets the lock beside a stored value. -/
theorem phase_run (hr : Run Step .start tr w) (hsmooth : Always Smooth tr) :
    (Always Unstored tr ∧ Phase w) ∨ (¬ Always Unstored tr ∧ 2 ≤ w.loads.length) := by
  induction hr with
  | nil => exact Or.inl ⟨always_nil, phase_start⟩
  | @snoc tr w w' ev hr hs ih =>
    obtain ⟨hbefore, hnow⟩ := always_snoc.mp hsmooth
    rw [always_snoc]
    rcases ih hbefore with ⟨halways, hphase⟩ | ⟨hnot, htwo⟩
    · by_cases hmeets : Unstored w ev
      · exact Or.inl ⟨⟨halways, hmeets⟩, phase_step hphase hs hnow hmeets⟩
      · exact Or.inr ⟨fun hall => hmeets hall.2, hphase.second hs hmeets⟩
    · exact Or.inr ⟨fun hall => hnot hall.1, Nat.le_trans htwo (loads_mono hs)⟩

/-- One load serves every caller of a cold key if and only if no caller gets the lock once the
value is stored. -/
theorem one_load (hr : Run Step .start tr w) (hsmooth : Always Smooth tr) :
    Settles tr w ∧ (OneLoad w ↔ Always Unstored tr) := by
  refine ⟨settles_run hr, ?_⟩
  rcases phase_run hr hsmooth with ⟨halways, hphase⟩ | ⟨hnot, htwo⟩
  · exact ⟨fun _ => halways, fun _ => hphase.oneLoad⟩
  · refine ⟨fun hone => ?_, fun hall => absurd hall hnot⟩
    have hle := hone.1
    omega

theorem smooth_snoc (h : Run Step .start tr w ∧ Always Smooth tr) (hs : Step w ev w') (hsmooth : Smooth w ev) :
    Run Step .start (tr ++ [(w, ev)]) w' ∧ Always Smooth (tr ++ [(w, ev)]) :=
  ⟨h.1.snoc hs, always_snoc.mpr ⟨h.2, hsmooth⟩⟩

/-- Two callers have found nothing and are about to send `SET NX`. -/
def bothMissed : World Nat String :=
  (((((World.start.get 0 .missed).get 1 .missed).put 0 (.testing 5000 0)).put 1 (.testing 5000 0)).put 0
    (.locking 5000 0)).put 1 (.locking 5000 0)

theorem bothMissed_run : ∃ tr : Trace Nat String, Run Step .start tr bothMissed ∧ Always Smooth tr :=
  ⟨_, smooth_snoc (smooth_snoc (smooth_snoc (smooth_snoc (smooth_snoc (smooth_snoc ⟨.nil, always_nil⟩
    (.read (i := 0) rfl) True.intro) (.read (i := 1) rfl) True.intro)
    (.enter (i := 0) rfl) True.intro) (.enter (i := 1) rfl) True.intro)
    (.turn (i := 0) rfl (by decide)) True.intro) (.turn (i := 1) rfl (by decide)) True.intro⟩

/-- The second caller meets the lock, and gets the value at its next look. -/
theorem one_load_polled : ∃ (tr : Trace Nat String) (w : World Nat String),
    w.callers 1 = .done (.ok 7) ∧ Settles tr w ∧ (OneLoad w ↔ Always Unstored tr) := by
  obtain ⟨tr, hrun⟩ := bothMissed_run
  have hacquired := smooth_snoc hrun (.acquire (i := 0) rfl (show World.Fresh _ "a" by decide) rfl) True.intro
  have hall := smooth_snoc (smooth_snoc (smooth_snoc (smooth_snoc (smooth_snoc (smooth_snoc (smooth_snoc hacquired
    (.refuse (i := 1) rfl (show World.Fresh _ "b" by decide) rfl) True.intro)
    (Step.load rfl : Step _ (.load 0 (.ok 7)) _) ⟨7, rfl⟩) (.store (i := 0) rfl) True.intro)
    (.release (i := 0) rfl) True.intro) (.tick (show 0 ≤ 50 by decide)) True.intro)
    (.wake (i := 1) rfl (Nat.le_refl _)) True.intro) (.poll (i := 1) rfl) True.intro
  exact ⟨_, _, rfl, one_load hall.1 hall.2⟩

/-- The second caller's `SET NX` comes after the `DELEX` of the first: it loads again. -/
theorem one_load_refuted : ¬ ∀ (tr : Trace Nat String) (w : World Nat String),
    Run Step .start tr w → Always Smooth tr → OneLoad w := by
  intro hclaim
  obtain ⟨tr, hrun⟩ := bothMissed_run
  have hacquired := smooth_snoc hrun (.acquire (i := 0) rfl (show World.Fresh _ "a" by decide) rfl) True.intro
  have hall := smooth_snoc (smooth_snoc (smooth_snoc (smooth_snoc (smooth_snoc (smooth_snoc (smooth_snoc hacquired
    (Step.load rfl : Step _ (.load 0 (.ok 7)) _) ⟨7, rfl⟩) (.store (i := 0) rfl) True.intro)
    (.release (i := 0) rfl) True.intro)
    (.acquire (i := 1) rfl (show World.Fresh _ "b" by decide) rfl) True.intro)
    (Step.load rfl : Step _ (.load 1 (.ok 7)) _) ⟨7, rfl⟩) (.store (i := 1) rfl) True.intro)
    (.release (i := 1) rfl) True.intro
  have hone := (hclaim _ _ hall.1 hall.2).1
  exact absurd hone (by decide)

end

end MarketplaceApi.Cache
