import MarketplaceApi.Cache.Service

/-!
# The stampede lock

A lock that is there belongs to the caller that drew its token and is still between taking it
and releasing it, or lost a Redis command. A caller that took a lock still has it, unless the
lock's time has run out.
-/
namespace MarketplaceApi.Cache

open Transition

variable {V E : Type}

/-- The lock that the caller took and has not released. -/
def Caller.held : Caller V E → Option Lock
  | loading (.owner lock) | storing (.owner lock) _ | releasing lock _ => some lock
  | _ => none

/-- The outcome the caller ends with, when it is known. -/
def Caller.carried : Caller V E → Option (Outcome V E)
  | storing _ value => some (.ok value)
  | releasing _ outcome | done outcome => some outcome
  | _ => none

/-- What the caller's own times are to the clock. -/
def Caller.Timed (clock : Nat) : Caller V E → Prop
  | testing _ since | polling _ since => since ≤ clock
  | locking deadline since => since ≤ clock ∧ since < deadline
  | loading (.late deadline) | storing (.late deadline) _ => deadline ≤ clock
  | _ => True

/-- A value comes from some load of the key, the error of a load from the caller's own. -/
def World.Justified (w : World V E) (i : Nat) : Outcome V E → Prop
  | .ok value => ∃ j, (j, .ok value) ∈ w.results
  | .error (.load error) => (i, .error error) ∈ w.results
  | .error .redis => True

/-- A Redis command of the caller fails. -/
def Event.Faults (i : Nat) : Event V E → Prop
  | faultRead j | faultLock j _ | faultStore j | faultRelease j => j = i
  | _ => False

structure Fits (w : World V E) (i : Nat) (caller : Caller V E) : Prop where
  held : ∀ lock, caller.held = some lock →
    (lock.token, i) ∈ w.drawn ∧ (w.lock = some lock ∨ lock.expiresAt ≤ w.clock)
  timed : caller.Timed w.clock
  carried : ∀ outcome, caller.carried = some outcome → w.Justified i outcome

/-- The caller has the lock, or lost the Redis command that would tell. -/
def World.Owns (w : World V E) (i : Nat) (lock : Lock) : Prop :=
  (lock.token, i) ∈ w.drawn ∧ ((w.callers i).held = some lock ∨ w.callers i = .done (.error .redis))

/-- A lost command is one of a caller that has ended with its failure, or stores what a load came to. -/
def World.Lost (w : World V E) : Command V → Prop
  | .setNx token | .delex token => ∃ i, (token, i) ∈ w.drawn ∧ w.callers i = .done (.error .redis)
  | .set value => ∃ j, (j, .ok value) ∈ w.results

structure Guarded (w : World V E) : Prop where
  fits : ∀ i, Fits w i (w.callers i)
  owned : ∀ lock, w.lock = some lock → ∃ i, w.Owns i lock
  unique : ∀ token i j, (token, i) ∈ w.drawn → (token, j) ∈ w.drawn → i = j
  stored : ∀ value, w.value = some value → ∃ j, (j, .ok value) ∈ w.results
  lost : ∀ command ∈ w.lost, w.Lost command

section
variable {w w' : World V E} {i j : Nat} {caller : Caller V E} {outcome : Outcome V E} {token : String} {lock : Lock}

theorem guarded_start : Guarded (.start : World V E) where
  fits _ := ⟨nofun, True.intro, nofun⟩
  owned := nofun
  unique _ _ _ h := nomatch h
  stored := nofun
  lost := nofun

@[simp] theorem held_leave (entry : Entry) (outcome : Outcome V E) :
    (entry.leave outcome : Caller V E).held = (Caller.loading entry : Caller V E).held := by
  cases entry <;> rfl

@[simp] theorem carried_leave (entry : Entry) (outcome : Outcome V E) :
    (entry.leave outcome : Caller V E).carried = some outcome := by
  cases entry <;> rfl

theorem timed_leave (entry : Entry) (outcome : Outcome V E) (clock : Nat) :
    (entry.leave outcome : Caller V E).Timed clock := by
  cases entry <;> exact True.intro

theorem held_storing (entry : Entry) (value : V) :
    (Caller.storing entry value : Caller V E).held = (Caller.loading entry : Caller V E).held := by
  cases entry <;> rfl

theorem timed_storing {entry : Entry} {value : V} {clock : Nat} :
    (Caller.storing entry value : Caller V E).Timed clock ↔ (Caller.loading entry : Caller V E).Timed clock := by
  cases entry <;> exact Iff.rfl

theorem Caller.Timed.mono {clock clock' : Nat} (h : caller.Timed clock) (hle : clock ≤ clock') :
    caller.Timed clock' := by
  unfold Timed at h ⊢
  split at h <;> first | exact Nat.le_trans h hle | exact ⟨Nat.le_trans h.1 hle, h.2⟩ | exact True.intro

theorem World.Justified.mono (h : w.Justified i outcome) (hresults : w.results ⊆ w'.results) :
    w'.Justified i outcome := by
  cases outcome with
  | ok value =>
    obtain ⟨j, hj⟩ := h
    exact ⟨j, hresults hj⟩
  | error failure =>
    cases failure with
    | load error => exact hresults h
    | redis => exact True.intro

/-- What a step leaves to a caller that does not move. -/
theorem Fits.mono (h : Fits w i caller) (hclock : w.clock ≤ w'.clock) (hdrawn : w.drawn ⊆ w'.drawn)
    (hresults : w.results ⊆ w'.results)
    (hlock : ∀ lock, caller.held = some lock → w.lock = some lock → w'.lock = some lock ∨ lock.expiresAt ≤ w'.clock) :
    Fits w' i caller where
  held lock hheld := by
    obtain ⟨hmem, hor⟩ := h.held lock hheld
    refine ⟨hdrawn hmem, ?_⟩
    rcases hor with hin | hexpired
    · exact hlock lock hheld hin
    · exact Or.inr (Nat.le_trans hexpired hclock)
  timed := h.timed.mono hclock
  carried outcome hcarried := (h.carried outcome hcarried).mono hresults

/-- What is lost stays what it was, as long as no caller that has ended goes on. -/
theorem World.Lost.mono {command : Command V} (h : w.Lost command) (hdrawn : w.drawn ⊆ w'.drawn)
    (hresults : w.results ⊆ w'.results)
    (hended : ∀ i, w.callers i = .done (.error .redis) → w'.callers i = .done (.error .redis)) : w'.Lost command := by
  cases command with
  | setNx token | delex token =>
    obtain ⟨i, hmem, hat⟩ := h
    exact ⟨i, hdrawn hmem, hended i hat⟩
  | set value =>
    obtain ⟨j, hj⟩ := h
    exact ⟨j, hresults hj⟩

/-- A step of one caller keeps the invariant if the caller fits in where it gets to, the others
keep the lock, and the lock has an owner. -/
theorem Guarded.move (h : Guarded w) (hclock : w'.clock = w.clock)
    (hcallers : w'.callers = Function.update w.callers i caller) (hdrawn : w.drawn ⊆ w'.drawn)
    (hresults : w.results ⊆ w'.results) (hlost : w'.lost = w.lost) (hlive : w.callers i ≠ .done (.error .redis))
    (hfits : Fits w' i caller)
    (hothers : ∀ j lock, j ≠ i → (w.callers j).held = some lock → w.lock = some lock → w'.lock = some lock)
    (howned : ∀ lock, w'.lock = some lock → (∃ j, j ≠ i ∧ w.Owns j lock) ∨
      ((lock.token, i) ∈ w'.drawn ∧ (caller.held = some lock ∨ caller = .done (.error .redis))))
    (hunique : ∀ token i j, (token, i) ∈ w'.drawn → (token, j) ∈ w'.drawn → i = j)
    (hstored : ∀ value, w'.value = some value → ∃ j, (j, .ok value) ∈ w'.results) : Guarded w' where
  fits j := by
    by_cases hj : j = i
    · rw [hcallers, hj, Function.update_self]
      exact hfits
    · rw [hcallers, Function.update_of_ne hj]
      exact (h.fits j).mono (Nat.le_of_eq hclock.symm) hdrawn hresults fun lock hheld hin =>
        Or.inl (hothers j lock hj hheld hin)
  owned lock hlock := by
    rcases howned lock hlock with ⟨j, hj, hmem, hor⟩ | ⟨hmem, hor⟩
    · refine ⟨j, hdrawn hmem, ?_⟩
      rw [hcallers, Function.update_of_ne hj]
      exact hor
    · refine ⟨i, hmem, ?_⟩
      rw [hcallers, Function.update_self]
      exact hor
  unique := hunique
  stored := hstored
  lost command hcommand := by
    refine (h.lost command (hlost ▸ hcommand)).mono hdrawn hresults fun j hj => ?_
    have hne : j ≠ i := by
      rintro rfl
      exact hlive hj
    rw [hcallers, Function.update_of_ne hne]
    exact hj

/-- A step that leaves the lock alone and its owner an owner. -/
theorem Guarded.quiet (h : Guarded w) (hclock : w'.clock = w.clock)
    (hcallers : w'.callers = Function.update w.callers i caller) (hdrawn : w.drawn ⊆ w'.drawn)
    (hresults : w.results ⊆ w'.results) (hlost : w'.lost = w.lost) (hlock : w'.lock = w.lock)
    (hlive : w.callers i ≠ .done (.error .redis))
    (hheld : caller.held = (w.callers i).held ∨ caller = .done (.error .redis))
    (htimed : caller.Timed w.clock) (hcarried : ∀ outcome, caller.carried = some outcome → w'.Justified i outcome)
    (hunique : ∀ token i j, (token, i) ∈ w'.drawn → (token, j) ∈ w'.drawn → i = j)
    (hstored : ∀ value, w'.value = some value → ∃ j, (j, .ok value) ∈ w'.results) : Guarded w' := by
  have hfits : Fits w' i caller := by
    refine ⟨fun lock hnow => ?_, hclock ▸ htimed, hcarried⟩
    rcases hheld with hsame | rfl
    · obtain ⟨hmem, hor⟩ := (h.fits i).held lock (hsame ▸ hnow)
      exact ⟨hdrawn hmem, by rwa [hlock, hclock]⟩
    · cases hnow
  refine h.move hclock hcallers hdrawn hresults hlost hlive hfits (fun j lock _ _ hin => hlock ▸ hin)
    (fun lock hin => ?_) hunique hstored
  obtain ⟨j, hmem, hor⟩ := h.owned lock (hlock ▸ hin)
  by_cases hj : j = i
  · subst hj
    refine Or.inr ⟨hdrawn hmem, ?_⟩
    rcases hheld with hsame | hredis
    · rw [hsame]
      exact Or.inl (hor.resolve_right hlive)
    · exact Or.inr hredis
  · exact Or.inl ⟨j, hj, hmem, hor⟩

theorem Guarded.unique_draw (h : Guarded w) (hfresh : w.Fresh token) (other : String) (j k : Nat)
    (hj : (other, j) ∈ w.drawn ++ [(token, i)]) (hk : (other, k) ∈ w.drawn ++ [(token, i)]) : j = k := by
  rcases List.mem_append.mp hj with hj | hj
  · rcases List.mem_append.mp hk with hk | hk
    · exact h.unique other j k hj hk
    · have htoken : other = token := congrArg Prod.fst (List.mem_singleton.mp hk)
      exact absurd htoken (hfresh _ hj)
  · have htoken : other = token := congrArg Prod.fst (List.mem_singleton.mp hj)
    rcases List.mem_append.mp hk with hk | hk
    · exact absurd htoken (hfresh _ hk)
    · exact (congrArg Prod.snd (List.mem_singleton.mp hj)).trans (congrArg Prod.snd (List.mem_singleton.mp hk)).symm

/-- A `GET` ends the call with what is stored, or leads to a caller that has nothing yet. -/
theorem Guarded.get (h : Guarded w) {otherwise : Caller V E} (hlive : w.callers i ≠ .done (.error .redis))
    (hnone : (w.callers i).held = none) (hheld : otherwise.held = none) (htimed : otherwise.Timed w.clock)
    (hcarried : otherwise.carried = none) : Guarded (w.get i otherwise) := by
  unfold World.get
  cases hvalue : w.value with
  | none =>
    refine h.quiet rfl rfl (List.Subset.refl _) (List.Subset.refl _) rfl rfl hlive (Or.inl ?_) htimed ?_ h.unique
      h.stored
    · exact hheld.trans hnone.symm
    · rw [Option.elim_none, hcarried]
      exact nofun
  | some value =>
    refine h.quiet rfl rfl (List.Subset.refl _) (List.Subset.refl _) rfl rfl hlive (Or.inl ?_) True.intro ?_ h.unique
      h.stored
    · exact hnone.symm
    · intro outcome hdone
      obtain rfl := Option.some.inj hdone
      exact h.stored value hvalue

/-- A caller goes on, without a command that has an effect. -/
theorem Guarded.put (h : Guarded w) (hlive : w.callers i ≠ .done (.error .redis))
    (hheld : caller.held = (w.callers i).held ∨ caller = .done (.error .redis)) (htimed : caller.Timed w.clock)
    (hcarried : ∀ outcome, caller.carried = some outcome → w.Justified i outcome) : Guarded (w.put i caller) :=
  h.quiet rfl rfl (List.Subset.refl _) (List.Subset.refl _) rfl rfl hlive hheld htimed hcarried h.unique h.stored

theorem Guarded.results_snoc (h : Guarded w) (result : Except E V) (value : V) (hvalue : w.value = some value) :
    ∃ j, (j, .ok value) ∈ w.results ++ [(i, result)] := by
  obtain ⟨j, hj⟩ := h.stored value hvalue
  exact ⟨j, List.mem_append_left _ hj⟩

theorem Guarded.load (h : Guarded w) {entry : Entry} {result : Except E V} (hat : w.callers i = .loading entry) :
    Guarded { w.put i (entry.resolve result) with results := w.results ++ [(i, result)] } := by
  have htimed : (Caller.loading entry : Caller V E).Timed w.clock := hat ▸ (h.fits i).timed
  have hlast : (i, result) ∈ w.results ++ [(i, result)] := List.mem_append_right _ (List.mem_singleton_self _)
  have hlive : w.callers i ≠ .done (.error .redis) := by rw [hat]; exact nofun
  refine h.quiet rfl rfl (List.Subset.refl _) (List.subset_append_left _ _) rfl rfl hlive (Or.inl ?_) ?_ ?_ h.unique
    (h.results_snoc result)
  · rw [hat]
    cases result with
    | ok value => exact held_storing entry value
    | error error => exact held_leave entry _
  · cases result with
    | ok value => exact timed_storing.mpr htimed
    | error error => exact timed_leave entry _ _
  · intro outcome hcarried
    cases result with
    | ok value =>
      obtain rfl := Option.some.inj hcarried
      exact ⟨i, hlast⟩
    | error error =>
      change (entry.leave _ : Caller V E).carried = _ at hcarried
      rw [carried_leave] at hcarried
      obtain rfl := Option.some.inj hcarried
      exact hlast

/-- `loadAndStore` ends: the key may have the value, and the caller the outcome. -/
theorem Guarded.leave (h : Guarded w) {entry : Entry} {value : V} (hat : w.callers i = .storing entry value)
    (hjustified : w.Justified i outcome) {stored : Option V}
    (hstored : stored = some value ∨ stored = w.value) :
    Guarded { w.put i (entry.leave outcome) with value := stored } := by
  have hlive : w.callers i ≠ .done (.error .redis) := by rw [hat]; exact nofun
  refine h.quiet rfl rfl (List.Subset.refl _) (List.Subset.refl _) rfl rfl hlive (Or.inl ?_) (timed_leave entry _ _) ?_
    h.unique ?_
  · rw [hat, held_leave, held_storing]
  · intro other hcarried
    rw [carried_leave] at hcarried
    obtain rfl := Option.some.inj hcarried
    exact hjustified
  · intro other hother
    change stored = some other at hother
    rcases hstored with hnew | hold
    · obtain rfl := Option.some.inj (hnew.symm.trans hother)
      exact (h.fits i).carried (.ok value) (by rw [hat]; rfl)
    · exact h.stored other (hold ▸ hother)

/-- A caller takes the lock that nobody has. -/
theorem Guarded.take (h : Guarded w) (hlive : w.callers i ≠ .done (.error .redis)) (hnone : w.lock = none)
    (hfresh : w.Fresh token) (loads : List Nat) :
    Guarded { (w.draw token i).put i (.loading (.owner ⟨token, w.clock + lockTtlMs⟩)) with
      lock := w.setNx token, loads := loads } := by
  have hlock : w.setNx token = some ⟨token, w.clock + lockTtlMs⟩ := by
    unfold World.setNx
    rw [hnone]
    rfl
  have hmem : (token, i) ∈ w.drawn ++ [(token, i)] := List.mem_append_right _ (List.mem_singleton_self _)
  refine h.move rfl rfl (List.subset_append_left _ _) (List.Subset.refl _) rfl hlive ⟨?_, True.intro, nofun⟩ ?_ ?_
    (h.unique_draw hfresh) h.stored
  · intro lock hheld
    obtain rfl := Option.some.inj hheld
    exact ⟨hmem, Or.inl hlock⟩
  · intro j lock _ _ hin
    rw [hnone] at hin
    cases hin
  · intro lock hin
    obtain rfl := Option.some.inj (hlock.symm.trans hin)
    exact Or.inr ⟨hmem, Or.inl rfl⟩

/-- The lock whose token a releasing caller sends is its own. -/
theorem Guarded.own_token (h : Guarded w) {lock other : Lock} (hat : w.callers i = .releasing lock outcome)
    (hin : w.lock = some other) (htoken : other.token = lock.token) : other = lock := by
  obtain ⟨j, hmem, hor⟩ := h.owned other hin
  have hheld := (h.fits i).held lock (by rw [hat]; rfl)
  obtain rfl : j = i := h.unique lock.token j i (htoken ▸ hmem) hheld.1
  rw [hat] at hor
  rcases hor with hsame | hredis
  · exact (Option.some.inj hsame).symm
  · cases hredis

theorem delex_eq {other : Lock} (h : w.delex token = some other) : w.lock = some other ∧ other.token ≠ token := by
  unfold World.delex at h
  split at h
  · cases h
  · rename_i hno
    refine ⟨h, fun htoken => hno ?_⟩
    rw [h, Option.any_some]
    exact decide_eq_true htoken

/-- A caller that is done with its lock deletes it, if it is still there. -/
theorem Guarded.release (h : Guarded w) {lock : Lock} (hat : w.callers i = .releasing lock outcome)
    {last : Outcome V E} (hlast : w.Justified i last) :
    Guarded { w.put i (.done last) with lock := w.delex lock.token } := by
  have hlive : w.callers i ≠ .done (.error .redis) := by rw [hat]; exact nofun
  refine h.move rfl rfl (List.Subset.refl _) (List.Subset.refl _) rfl hlive ⟨nofun, True.intro, ?_⟩ ?_ ?_ h.unique
    h.stored
  · intro other hcarried
    obtain rfl := Option.some.inj hcarried
    exact hlast
  · intro j other hj hheld hin
    have hmem := ((h.fits j).held other hheld).1
    have hown := ((h.fits i).held lock (by rw [hat]; rfl)).1
    have htoken : other.token ≠ lock.token := fun heq => hj (h.unique lock.token j i (heq ▸ hmem) hown)
    show w.delex lock.token = some other
    unfold World.delex
    rw [hin, Option.any_some, if_neg]
    exact fun heq => htoken (of_decide_eq_true heq)
  · intro other hin
    obtain ⟨hold, htoken⟩ := delex_eq hin
    obtain ⟨j, hmem, hor⟩ := h.owned other hold
    refine Or.inl ⟨j, fun hj => ?_, hmem, hor⟩
    subst hj
    rw [hat] at hor
    rcases hor with hsame | hredis
    · exact htoken (congrArg Lock.token (Option.some.inj hsame).symm)
    · cases hredis

theorem setNx_isSome (h : w.lock.isSome) : w.setNx token = w.lock := if_pos h

/-- `SET NX` finds a lock, or its caller is told that it failed. -/
theorem Guarded.refuse (h : Guarded w) (hfresh : w.Fresh token) (hnone : (w.callers i).held = none)
    (hlive : w.callers i ≠ .done (.error .redis))
    (hcaller : (∃ deadline wakes, caller = .sleeping deadline wakes) ∨ caller = .done (.error .redis))
    {left : Option Lock} (hleft : left = w.lock) : Guarded { (w.draw token i).put i caller with lock := left } := by
  refine h.quiet rfl rfl (List.subset_append_left _ _) (List.Subset.refl _) rfl hleft hlive ?_ ?_ ?_
    (h.unique_draw hfresh) h.stored
  · rcases hcaller with ⟨_, _, rfl⟩ | rfl
    · exact Or.inl hnone.symm
    · exact Or.inr rfl
  · rcases hcaller with ⟨_, _, rfl⟩ | rfl <;> exact True.intro
  · rcases hcaller with ⟨_, _, rfl⟩ | rfl
    · exact nofun
    · intro outcome hcarried
      obtain rfl := Option.some.inj hcarried
      exact True.intro

theorem Guarded.lose (h : Guarded w) {command : Command V} (hlost : w.Lost command) : Guarded (w.lose command) where
  fits i := ⟨(h.fits i).held, (h.fits i).timed, (h.fits i).carried⟩
  owned := h.owned
  unique := h.unique
  stored := h.stored
  lost other hother := by
    have hother' : other ∈ w.lost ++ [command] := hother
    have hkept : w.Lost other := by
      rcases List.mem_append.mp hother' with hold | hnew
      · exact h.lost other hold
      · exact List.mem_singleton.mp hnew ▸ hlost
    exact hkept.mono (List.Subset.refl _) (List.Subset.refl _) fun _ hended => hended

/-- The caller of a lost command has no lock. -/
theorem Guarded.ended_holds_none (h : Guarded w) {own : Lock} (hmem : (token, i) ∈ w.drawn)
    (hended : w.callers i = .done (.error .redis)) (hheld : (w.callers j).held = some own) : own.token ≠ token := by
  rintro rfl
  obtain rfl : j = i := h.unique _ _ _ ((h.fits j).held own hheld).1 hmem
  rw [hended] at hheld
  cases hheld

/-- Redis runs a lost command. -/
theorem Guarded.land (h : Guarded w) {command : Command V} {left : List (Command V)} (hlost : w.Lost command)
    (hleft : ∀ other ∈ left, other ∈ w.lost) : Guarded { w.execute command with lost := left } := by
  have hkept : ∀ w' : World V E, w'.drawn = w.drawn → w'.results = w.results → w'.callers = w.callers →
      w'.lost = left → ∀ other ∈ w'.lost, w'.Lost other := by
    intro w' hdrawn hresults hcallers hleft' other hother
    refine (h.lost other (hleft other (hleft' ▸ hother))).mono (fun p hp => hdrawn ▸ hp) (fun p hp => hresults ▸ hp)
      fun k hk => hcallers ▸ hk
  cases command with
  | set value =>
    refine ⟨fun i => ⟨(h.fits i).held, (h.fits i).timed, (h.fits i).carried⟩, h.owned, h.unique, ?_,
      hkept _ rfl rfl rfl rfl⟩
    intro other hother
    obtain rfl := Option.some.inj hother
    exact hlost
  | setNx token =>
    obtain ⟨i, hmem, hended⟩ := hlost
    refine ⟨fun j => ⟨fun own hheld => ?_, (h.fits j).timed, (h.fits j).carried⟩, ?_, h.unique, h.stored,
      hkept _ rfl rfl rfl rfl⟩
    · obtain ⟨hown, hin | hdue⟩ := (h.fits j).held own hheld
      · exact ⟨hown, Or.inl ((setNx_isSome (by rw [hin]; rfl)).trans hin)⟩
      · exact ⟨hown, Or.inr hdue⟩
    · intro lock hin
      cases hlock : w.lock with
      | some other =>
        have hsame : w.lock = some lock := (setNx_isSome (by rw [hlock]; rfl)).symm.trans hin
        exact h.owned lock hsame
      | none =>
        have hnew : w.setNx token = some ⟨token, w.clock + lockTtlMs⟩ := by
          unfold World.setNx
          rw [hlock]
          rfl
        obtain rfl := Option.some.inj (hnew.symm.trans hin)
        exact ⟨i, hmem, Or.inr hended⟩
  | delex token =>
    obtain ⟨i, hmem, hended⟩ := hlost
    refine ⟨fun j => ⟨fun own hheld => ?_, (h.fits j).timed, (h.fits j).carried⟩, ?_, h.unique, h.stored,
      hkept _ rfl rfl rfl rfl⟩
    · obtain ⟨hown, hin | hdue⟩ := (h.fits j).held own hheld
      · refine ⟨hown, Or.inl ?_⟩
        show w.delex token = some own
        unfold World.delex
        rw [hin, Option.any_some, if_neg]
        exact fun heq => h.ended_holds_none hmem hended hheld (of_decide_eq_true heq)
      · exact ⟨hown, Or.inr hdue⟩
    · intro lock hin
      have hdelex : w.delex token = some lock := hin
      exact h.owned lock (delex_eq hdelex).1

/-- Time passes. -/
theorem Guarded.tick (h : Guarded w) {time : Nat} (hle : w.clock ≤ time) : Guarded { w with clock := time } where
  fits i := (h.fits i).mono hle (List.Subset.refl _) (List.Subset.refl _) fun _ _ hin => Or.inl hin
  owned := h.owned
  unique := h.unique
  stored := h.stored
  lost command hcommand := (h.lost command hcommand).mono (List.Subset.refl _) (List.Subset.refl _) fun _ h => h

theorem Guarded.expireLock (h : Guarded w) (hin : w.lock = some lock) (hdue : lock.expiresAt ≤ w.clock) :
    Guarded { w with lock := none } where
  fits i := by
    refine (h.fits i).mono (Nat.le_refl _) (List.Subset.refl _) (List.Subset.refl _) fun other _ hother => Or.inr ?_
    obtain rfl := Option.some.inj (hin.symm.trans hother)
    exact hdue
  owned := nofun
  unique := h.unique
  stored := h.stored
  lost command hcommand := (h.lost command hcommand).mono (List.Subset.refl _) (List.Subset.refl _) fun _ h => h

theorem Guarded.drop (h : Guarded w) : Guarded { w with value := none } where
  fits i := ⟨(h.fits i).held, (h.fits i).timed, (h.fits i).carried⟩
  owned := h.owned
  unique := h.unique
  stored := nofun
  lost command hcommand := (h.lost command hcommand).mono (List.Subset.refl _) (List.Subset.refl _) fun _ h => h

theorem redis_carried (outcome : Outcome V E)
    (h : (Caller.done (.error .redis) : Caller V E).carried = some outcome) : w.Justified i outcome := by
  obtain rfl := Option.some.inj h
  exact True.intro

theorem guarded_step {ev : Event V E} (h : Guarded w) (hs : Step w ev w') : Guarded w' := by
  cases hs with
  | tick hle => exact h.tick hle
  | read hat => exact h.get (by rw [hat]; exact nofun) (by rw [hat]; rfl) rfl True.intro rfl
  | enter hat => exact h.put (by rw [hat]; exact nofun) (Or.inl (by rw [hat]; rfl)) (Nat.le_refl _) nofun
  | turn hat hlt => exact h.put (by rw [hat]; exact nofun) (Or.inl (by rw [hat]; rfl)) ⟨Nat.le_refl _, hlt⟩ nofun
  | giveUp hat hle =>
    exact h.quiet rfl rfl (List.Subset.refl _) (List.Subset.refl _) rfl rfl (by rw [hat]; exact nofun)
      (Or.inl (by rw [hat]; rfl)) hle nofun h.unique h.stored
  | acquire hat hfresh hnone => exact h.take (by rw [hat]; exact nofun) hnone hfresh _
  | refuse hat hfresh hsome =>
    exact h.refuse hfresh (by rw [hat]; rfl) (by rw [hat]; exact nofun) (Or.inl ⟨_, _, rfl⟩) (setNx_isSome hsome)
  | wake hat _ => exact h.put (by rw [hat]; exact nofun) (Or.inl (by rw [hat]; rfl)) (Nat.le_refl _) nofun
  | poll hat => exact h.get (by rw [hat]; exact nofun) (by rw [hat]; rfl) rfl (Nat.le_refl _) rfl
  | load hat => exact h.load hat
  | store hat =>
    have hvalue := (h.fits _).carried (.ok _) (by rw [hat]; rfl)
    exact h.leave hat hvalue (Or.inl rfl)
  | release hat => exact h.release hat ((h.fits _).carried _ (by rw [hat]; rfl))
  | faultRead hat =>
    rename_i i
    have hlive : w.callers i ≠ .done (.error .redis) := by
      rcases hat with hat | ⟨_, _, hat⟩
      · rw [hat]
        exact nofun
      · rw [hat]
        exact nofun
    exact h.put hlive (Or.inr rfl) True.intro redis_carried
  | faultLock hat hfresh =>
    rename_i i _ _ token
    have hput := h.refuse hfresh (by rw [hat]; rfl) (by rw [hat]; exact nofun) (Or.inr rfl) rfl
    have hlost : World.Lost ((w.draw token i).put i (.done (.error .redis))) (.setNx token) :=
      ⟨i, List.mem_append_right _ (List.mem_singleton_self _), Function.update_self ..⟩
    exact hput.lose hlost
  | faultStore hat =>
    rename_i value
    have hlost : w.Lost (.set value) := (h.fits _).carried (.ok value) (by rw [hat]; rfl)
    have hleft := h.leave hat (show w.Justified _ (.error .redis) from True.intro) (Or.inr rfl)
    exact hleft.lose hlost
  | faultRelease hat =>
    rename_i i lock _
    have hmem := ((h.fits i).held lock (by rw [hat]; rfl)).1
    have hput := h.put (by rw [hat]; exact nofun) (Or.inr rfl) True.intro redis_carried
    have hlost : World.Lost (w.put i (.done (.error .redis))) (.delex lock.token) :=
      ⟨i, hmem, Function.update_self ..⟩
    exact hput.lose hlost
  | land hlost =>
    rename_i command before after
    have hin : command ∈ w.lost := hlost ▸ List.mem_append_right _ List.mem_cons_self
    refine h.land (h.lost command hin) fun other hother => ?_
    rw [hlost]
    exact (List.Sublist.append_left (List.sublist_cons_self _ _) before).subset hother
  | expireLock hin hdue => exact h.expireLock hin hdue
  | drop => exact h.drop

/-- A step leaves every other caller where it is. -/
theorem callers_step {ev : Event V E} (hs : Step w ev w') (hi : ev.caller ≠ some i) : w'.callers i = w.callers i := by
  have hother : ∀ j caller, some j ≠ some i → Function.update w.callers j caller i = w.callers i := by
    intro j caller hne
    exact Function.update_of_ne (fun heq => hne (congrArg some heq.symm)) ..
  cases hs with
  | @land command _ _ _ => cases command <;> rfl
  | _ => first | rfl | exact hother _ _ hi

/-- Where the outcome of a caller comes from. -/
theorem carried_step {ev : Event V E} (hs : Step w ev w') (h : (w'.callers i).carried = some outcome) :
    (w.callers i).carried = some outcome ∨ (∃ value, w.value = some value ∧ outcome = .ok value) ∨
      (∃ result, ev = .load i result ∧ outcome = result.mapError .load) ∨ (outcome = .error .redis ∧ ev.Faults i) := by
  by_cases hi : ev.caller = some i
  · have hmoved : ∀ {caller : Caller V E}, w'.callers = Function.update w.callers i caller →
        caller.carried = some outcome := by
      intro caller hcallers
      rwa [hcallers, Function.update_self] at h
    cases hs with
    | tick _ | land _ | expireLock _ _ | drop => cases hi
    | read _ | poll _ =>
      cases hi
      have hcarried := hmoved rfl
      cases hvalue : w.value with
      | none => rw [hvalue] at hcarried; cases hcarried
      | some value =>
        rw [hvalue] at hcarried
        exact Or.inr (Or.inl ⟨value, rfl, (Option.some.inj hcarried).symm⟩)
    | enter _ | turn _ _ | giveUp _ _ | acquire _ _ _ | refuse _ _ _ | wake _ _ =>
      cases hi
      cases hmoved rfl
    | load hat =>
      rename_i entry result
      cases hi
      have hcarried := hmoved rfl
      refine Or.inr (Or.inr (Or.inl ⟨result, rfl, ?_⟩))
      cases result with
      | ok value => exact (Option.some.inj hcarried).symm
      | error error => exact (Option.some.inj ((carried_leave entry _).symm.trans hcarried)).symm
    | store hat =>
      cases hi
      left
      rw [hat, ← hmoved rfl, carried_leave]
      rfl
    | release hat =>
      cases hi
      have hcarried := hmoved rfl
      left
      rw [hat]
      exact hcarried
    | faultRead _ | faultLock _ _ | faultRelease _ =>
      cases hi
      exact Or.inr (Or.inr (Or.inr ⟨(Option.some.inj (hmoved rfl)).symm, rfl⟩))
    | faultStore _ =>
      cases hi
      exact Or.inr (Or.inr (Or.inr ⟨(Option.some.inj ((carried_leave _ _).symm.trans (hmoved rfl))).symm, rfl⟩))
  · left
    rwa [callers_step hs hi] at h

theorem guarded_run {tr : List (World V E × Event V E)} (hr : Run Step .start tr w) : Guarded w :=
  hr.invariant guarded_start fun h hs => guarded_step h hs

end

end MarketplaceApi.Cache
