import Mathlib.Data.List.Nodup
import MarketplaceApi.Notify.Service

/-!
# The listener registry

`OrderNotifyService` as anyone may call it. Every call of `subscribe` brings a listener of its
own; the function it returns may be called any number of times, and works on the `Set` it was
created with, also when the map has dropped that one and made another.
-/
namespace MarketplaceApi.Notify

open Transition

/-- What an unsubscribe function closes over, and whether it was called. -/
structure Subscription where
  orderId : Nat
  listeners : Nat
  called : Bool

/-- The service, and by listener what its unsubscribe function is. -/
structure Registry where
  service : OrderNotifyService
  subscriptions : Nat → Option Subscription

namespace Registry

def start : Registry := ⟨.start, fun _ => none⟩

def record (s : Registry) (event : OrderStatusEvent) : Registry :=
  { s with service := (s.service.record event).1 }

def subscribe (s : Registry) (orderId listener : Nat) : Registry where
  service := (s.service.subscribe orderId listener).1
  subscriptions := Function.update s.subscriptions listener
    (some ⟨orderId, (s.service.subscribe orderId listener).2, false⟩)

def unsubscribe (s : Registry) (listener : Nat) (subscription : Subscription) : Registry where
  service := s.service.unsubscribe subscription.orderId subscription.listeners listener
  subscriptions := Function.update s.subscriptions listener (some { subscription with called := true })

/-- The listeners that `record` would call. -/
def recipients (s : Registry) (event : OrderStatusEvent) : List Nat := (s.service.record event).2

/-- Subscribed, and its own unsubscribe function not called yet. -/
def Active (s : Registry) (orderId listener : Nat) : Prop :=
  ∃ set, s.subscriptions listener = some ⟨orderId, set, false⟩

end Registry

inductive RegistryEvent where
  | record (event : OrderStatusEvent)
  | subscribe (orderId listener : Nat)
  | unsubscribe (listener : Nat)

inductive RegistryStep : Registry → RegistryEvent → Registry → Prop
  | record {s event} : RegistryStep s (.record event) (s.record event)
  | subscribe {s orderId listener} : s.subscriptions listener = none →
      RegistryStep s (.subscribe orderId listener) (s.subscribe orderId listener)
  | unsubscribe {s listener subscription} : s.subscriptions listener = some subscription →
      RegistryStep s (.unsubscribe listener) (s.unsubscribe listener subscription)

/-- An accepted event goes to the active listeners of its order, once to each. -/
def Exact (s : Registry) : Prop :=
  ∀ event, s.service.accepts event = true → (s.recipients event).Nodup ∧
    ∀ listener, listener ∈ s.recipients event ↔ s.Active event.orderId listener

/-- Calling an unsubscribe function again changes nothing for any listener. -/
def Harmless (s : Registry) (ev : RegistryEvent) : Prop :=
  ∀ listener subscription, ev = .unsubscribe listener → s.subscriptions listener = some subscription →
    subscription.called = true → ∀ event, (s.unsubscribe listener subscription).recipients event = s.recipients event

/-- An unsubscribe function that is called again still has the registered `Set`, or no listener
of its order is active. -/
def AgainInTime (s : Registry) (ev : RegistryEvent) : Prop :=
  ∀ listener subscription, ev = .unsubscribe listener → s.subscriptions listener = some subscription →
    subscription.called = true → s.service.listeners subscription.orderId = some subscription.listeners ∨
      ∀ other, ¬ s.Active subscription.orderId other

/-- The map has the `Set` of every order with active listeners; the others are empty. -/
structure Represents (s : Registry) : Prop where
  nodup : ∀ orderId set, s.service.listeners orderId = some set → (s.service.sets set).Nodup
  inhabited : ∀ orderId set, s.service.listeners orderId = some set → s.service.sets set ≠ []
  members : ∀ orderId set, s.service.listeners orderId = some set → ∀ listener,
    listener ∈ s.service.sets set ↔ s.subscriptions listener = some ⟨orderId, set, false⟩
  registered : ∀ listener orderId set, s.subscriptions listener = some ⟨orderId, set, false⟩ →
    s.service.listeners orderId = some set
  emptied : ∀ listener subscription, s.subscriptions listener = some subscription →
    s.service.listeners subscription.orderId = some subscription.listeners ∨
      s.service.sets subscription.listeners = []
  own : ∀ listener subscription orderId, s.subscriptions listener = some subscription →
    s.service.listeners orderId = some subscription.listeners → orderId = subscription.orderId
  issued : ∀ listener subscription, s.subscriptions listener = some subscription →
    subscription.listeners < s.service.fresh

section
variable {s s' : Registry} {ev : RegistryEvent} {event : OrderStatusEvent} {orderId listener set : Nat}
  {subscription : Subscription}

theorem recipients_of_accepts (h : s.service.accepts event = true) :
    s.recipients event = ((s.service.listeners event.orderId).map s.service.sets).getD [] := by
  unfold Registry.recipients OrderNotifyService.record
  rw [if_pos h]

theorem Represents.exact (h : Represents s) : Exact s := by
  intro event haccepts
  rw [recipients_of_accepts haccepts]
  cases hset : s.service.listeners event.orderId with
  | none =>
    refine ⟨List.nodup_nil, fun listener => iff_of_false List.not_mem_nil ?_⟩
    rintro ⟨set, hactive⟩
    rw [h.registered _ _ _ hactive] at hset
    cases hset
  | some set =>
    refine ⟨h.nodup _ _ hset, fun listener => ?_⟩
    have hmembers := h.members _ _ hset listener
    constructor
    · intro hin
      exact ⟨set, hmembers.mp hin⟩
    · rintro ⟨set', hactive⟩
      have hset' := h.registered _ _ _ hactive
      rw [hset] at hset'
      cases hset'
      exact hmembers.mpr hactive

theorem Represents.fresh (h : Represents s) (hset : s.service.listeners orderId = some set) :
    set < s.service.fresh := by
  obtain ⟨listener, hin⟩ := List.exists_mem_of_ne_nil _ (h.inhabited _ _ hset)
  exact h.issued _ _ ((h.members _ _ hset listener).mp hin)

theorem represents_start : Represents .start where
  nodup := nofun
  inhabited := nofun
  members := nofun
  registered := nofun
  emptied := nofun
  own := nofun
  issued := nofun

theorem registry_record (s : Registry) (event : OrderStatusEvent) :
    (s.record event).service.listeners = s.service.listeners ∧ (s.record event).service.sets = s.service.sets ∧
      (s.record event).service.fresh = s.service.fresh := by
  unfold Registry.record OrderNotifyService.record
  split
  · exact ⟨rfl, rfl, rfl⟩
  · exact ⟨rfl, rfl, rfl⟩

theorem Represents.record (h : Represents s) (event : OrderStatusEvent) : Represents (s.record event) := by
  obtain ⟨hl, hs, hf⟩ := registry_record s event
  exact
    { nodup := by rw [hl, hs]; exact h.nodup
      inhabited := by rw [hl, hs]; exact h.inhabited
      members := by rw [hl, hs]; exact h.members
      registered := by rw [hl]; exact h.registered
      emptied := by rw [hl, hs]; exact h.emptied
      own := by rw [hl]; exact h.own
      issued := by rw [hf]; exact h.issued }

theorem Represents.unique (h : Represents s) {other : Nat} (hset : s.service.listeners orderId = some set)
    (hother : s.service.listeners other = some set) : other = orderId := by
  obtain ⟨listener, hin⟩ := List.exists_mem_of_ne_nil _ (h.inhabited _ _ hset)
  exact h.own _ _ _ ((h.members _ _ hset listener).mp hin) hother

theorem Represents.not_mem (h : Represents s) (hset : s.service.listeners orderId = some set)
    (hne : s.subscriptions listener ≠ some ⟨orderId, set, false⟩) : listener ∉ s.service.sets set := by
  intro hin
  exact hne ((h.members _ _ hset listener).mp hin)

/-- A listener joins the registered `Set`. -/
theorem subscribe_some (hset : s.service.listeners orderId = some set) (hnew : listener ∉ s.service.sets set) :
    s.subscribe orderId listener =
      ⟨{ s.service with sets := Function.update s.service.sets set (s.service.sets set ++ [listener]) },
        Function.update s.subscriptions listener (some ⟨orderId, set, false⟩)⟩ := by
  unfold Registry.subscribe OrderNotifyService.subscribe
  simp only [hset, if_neg hnew]

/-- The first listener of an order makes the `Set`. -/
theorem subscribe_none (hset : s.service.listeners orderId = none) :
    s.subscribe orderId listener =
      ⟨{ s.service with
          listeners := Function.update s.service.listeners orderId (some s.service.fresh)
          sets := Function.update s.service.sets s.service.fresh [listener]
          fresh := s.service.fresh + 1 },
        Function.update s.subscriptions listener (some ⟨orderId, s.service.fresh, false⟩)⟩ := by
  unfold Registry.subscribe OrderNotifyService.subscribe
  simp only [hset]

theorem Represents.joined (h : Represents s) (hnew : s.subscriptions listener = none)
    (hset : s.service.listeners orderId = some set) : Represents (s.subscribe orderId listener) := by
  have hnone : ∀ subscription, s.subscriptions listener ≠ some subscription := by
    intro subscription hsome
    rw [hnew] at hsome
    cases hsome
  have hnot : listener ∉ s.service.sets set := h.not_mem hset (hnone _)
  rw [subscribe_some hset hnot]
  refine ⟨fun o k hk => ?_, fun o k hk => ?_, fun o k hk l => ?_, fun l o k hl => ?_, fun l sub hl => ?_,
    fun l sub o hl hk => ?_, fun l sub hl => ?_⟩
  · show (Function.update s.service.sets set (s.service.sets set ++ [listener]) k).Nodup
    by_cases hks : k = set
    · subst hks
      rw [Function.update_self]
      exact (h.nodup _ _ hset).append (List.nodup_singleton _) (by simpa using hnot)
    · rw [Function.update_of_ne hks]
      exact h.nodup _ _ hk
  · show Function.update s.service.sets set (s.service.sets set ++ [listener]) k ≠ []
    by_cases hks : k = set
    · subst hks
      rw [Function.update_self]
      simp
    · rw [Function.update_of_ne hks]
      exact h.inhabited _ _ hk
  · show l ∈ Function.update s.service.sets set (s.service.sets set ++ [listener]) k ↔
      Function.update s.subscriptions listener (some ⟨orderId, set, false⟩) l = _
    have hold := h.members _ _ hk l
    by_cases hks : k = set
    · subst hks
      obtain rfl := h.unique hset hk
      rw [Function.update_self, List.mem_append, List.mem_singleton]
      by_cases hl : l = listener
      · subst hl
        simp
      · rw [Function.update_of_ne hl, hold]
        simp [hl]
    · rw [Function.update_of_ne hks]
      by_cases hl : l = listener
      · subst hl
        rw [Function.update_self, hold]
        simp [hnew, Ne.symm hks]
      · rw [Function.update_of_ne hl, hold]
  · change Function.update s.subscriptions listener (some ⟨orderId, set, false⟩) l = _ at hl
    by_cases hll : l = listener
    · subst hll
      rw [Function.update_self] at hl
      cases hl
      exact hset
    · rw [Function.update_of_ne hll] at hl
      exact h.registered _ _ _ hl
  · change Function.update s.subscriptions listener (some ⟨orderId, set, false⟩) l = _ at hl
    show _ ∨ Function.update s.service.sets set (s.service.sets set ++ [listener]) sub.listeners = []
    by_cases hll : l = listener
    · subst hll
      rw [Function.update_self] at hl
      cases hl
      exact Or.inl hset
    · rw [Function.update_of_ne hll] at hl
      rcases h.emptied _ _ hl with hleft | hright
      · exact Or.inl hleft
      · have hne : sub.listeners ≠ set := by
          intro heq
          exact h.inhabited _ _ hset (heq ▸ hright)
        rw [Function.update_of_ne hne]
        exact Or.inr hright
  · change Function.update s.subscriptions listener (some ⟨orderId, set, false⟩) l = _ at hl
    by_cases hll : l = listener
    · subst hll
      rw [Function.update_self] at hl
      cases hl
      exact h.unique hset hk
    · rw [Function.update_of_ne hll] at hl
      exact h.own _ _ _ hl hk
  · change Function.update s.subscriptions listener (some ⟨orderId, set, false⟩) l = _ at hl
    by_cases hll : l = listener
    · subst hll
      rw [Function.update_self] at hl
      cases hl
      exact h.fresh hset
    · rw [Function.update_of_ne hll] at hl
      exact h.issued _ _ hl

theorem Represents.opened (h : Represents s) (hnew : s.subscriptions listener = none)
    (hset : s.service.listeners orderId = none) : Represents (s.subscribe orderId listener) := by
  have hkeep : ∀ o k, Function.update s.service.listeners orderId (some s.service.fresh) o = some k →
      (o = orderId ∧ k = s.service.fresh) ∨ (o ≠ orderId ∧ k < s.service.fresh ∧ s.service.listeners o = some k) := by
    intro o k hk
    by_cases ho : o = orderId
    · subst ho
      rw [Function.update_self] at hk
      cases hk
      exact Or.inl ⟨rfl, rfl⟩
    · rw [Function.update_of_ne ho] at hk
      exact Or.inr ⟨ho, h.fresh hk, hk⟩
  have hsub : ∀ l sub, Function.update s.subscriptions listener
      (some (Subscription.mk orderId s.service.fresh false)) l = some sub →
      (l = listener ∧ sub = ⟨orderId, s.service.fresh, false⟩) ∨ (l ≠ listener ∧ s.subscriptions l = some sub) := by
    intro l sub hl
    by_cases hll : l = listener
    · subst hll
      rw [Function.update_self] at hl
      cases hl
      exact Or.inl ⟨rfl, rfl⟩
    · rw [Function.update_of_ne hll] at hl
      exact Or.inr ⟨hll, hl⟩
  rw [subscribe_none hset]
  refine ⟨fun o k hk => ?_, fun o k hk => ?_, fun o k hk l => ?_, fun l o k hl => ?_, fun l sub hl => ?_,
    fun l sub o hl hk => ?_, fun l sub hl => ?_⟩
  · show (Function.update s.service.sets s.service.fresh [listener] k).Nodup
    rcases hkeep o k hk with ⟨rfl, rfl⟩ | ⟨_, hlt, hold⟩
    · rw [Function.update_self]
      exact List.nodup_singleton _
    · rw [Function.update_of_ne (Nat.ne_of_lt hlt)]
      exact h.nodup _ _ hold
  · show Function.update s.service.sets s.service.fresh [listener] k ≠ []
    rcases hkeep o k hk with ⟨rfl, rfl⟩ | ⟨_, hlt, hold⟩
    · rw [Function.update_self]
      simp
    · rw [Function.update_of_ne (Nat.ne_of_lt hlt)]
      exact h.inhabited _ _ hold
  · show l ∈ Function.update s.service.sets s.service.fresh [listener] k ↔
      Function.update s.subscriptions listener _ l = _
    rcases hkeep o k hk with ⟨rfl, rfl⟩ | ⟨_, hlt, hold⟩
    · rw [Function.update_self, List.mem_singleton]
      by_cases hll : l = listener
      · subst hll
        simp
      · rw [Function.update_of_ne hll]
        refine iff_of_false hll fun hl => ?_
        have hissued : s.service.fresh < s.service.fresh := h.issued _ _ hl
        omega
    · have hne : k ≠ s.service.fresh := Nat.ne_of_lt hlt
      rw [Function.update_of_ne hne, h.members _ _ hold l]
      by_cases hll : l = listener
      · subst hll
        rw [Function.update_self]
        simp [hnew, Ne.symm hne]
      · rw [Function.update_of_ne hll]
  · show Function.update s.service.listeners orderId (some s.service.fresh) o = _
    rcases hsub l _ hl with ⟨_, heq⟩ | ⟨_, hold⟩
    · cases heq
      exact Function.update_self ..
    · have hreg := h.registered _ _ _ hold
      have ho : o ≠ orderId := by
        intro heq
        rw [heq, hset] at hreg
        cases hreg
      rw [Function.update_of_ne ho]
      exact hreg
  · show Function.update s.service.listeners orderId (some s.service.fresh) sub.orderId = _ ∨
      Function.update s.service.sets s.service.fresh [listener] sub.listeners = []
    rcases hsub l sub hl with ⟨_, rfl⟩ | ⟨_, hold⟩
    · exact Or.inl (Function.update_self ..)
    · have hlt : sub.listeners < s.service.fresh := h.issued _ _ hold
      rw [Function.update_of_ne (Nat.ne_of_lt hlt)]
      rcases h.emptied _ _ hold with hleft | hright
      · have ho : sub.orderId ≠ orderId := by
          intro heq
          rw [heq, hset] at hleft
          cases hleft
        rw [Function.update_of_ne ho]
        exact Or.inl hleft
      · exact Or.inr hright
  · rcases hsub l sub hl with ⟨_, rfl⟩ | ⟨_, hold⟩
    · rcases hkeep o _ hk with ⟨ho, _⟩ | ⟨_, hlt, _⟩
      · exact ho
      · exact absurd hlt (Nat.lt_irrefl _)
    · have hlt : sub.listeners < s.service.fresh := h.issued _ _ hold
      rcases hkeep o _ hk with ⟨_, heq⟩ | ⟨_, _, hk'⟩
      · omega
      · exact h.own _ _ _ hold hk'
  · show sub.listeners < s.service.fresh + 1
    rcases hsub l sub hl with ⟨_, rfl⟩ | ⟨_, hold⟩
    · exact Nat.lt_succ_self _
    · have hlt : sub.listeners < s.service.fresh := h.issued _ _ hold
      omega

/-- The first call takes the listener out of the registered `Set`. -/
theorem Represents.left (h : Represents s) (hl : s.subscriptions listener = some ⟨orderId, set, false⟩) :
    Represents (s.unsubscribe listener ⟨orderId, set, false⟩) := by
  have hset := h.registered _ _ _ hl
  have hnodup := h.nodup _ _ hset
  have hsub : ∀ l sub, Function.update s.subscriptions listener (some (Subscription.mk orderId set true)) l = some sub →
      (l = listener ∧ sub = ⟨orderId, set, true⟩) ∨ (l ≠ listener ∧ s.subscriptions l = some sub) := by
    intro l sub hsome
    by_cases hll : l = listener
    · subst hll
      rw [Function.update_self] at hsome
      cases hsome
      exact Or.inl ⟨rfl, rfl⟩
    · rw [Function.update_of_ne hll] at hsome
      exact Or.inr ⟨hll, hsome⟩
  have hsets : ∀ k, s.service.listeners orderId = some k → k = set := by
    intro k hk
    rw [hset] at hk
    exact (Option.some.inj hk).symm
  by_cases hempty : (s.service.sets set).erase listener = []
  · have hkeep : ∀ o k, Function.update s.service.listeners orderId none o = some k →
        o ≠ orderId ∧ k ≠ set ∧ s.service.listeners o = some k := by
      intro o k hk
      by_cases ho : o = orderId
      · subst ho
        rw [Function.update_self] at hk
        cases hk
      · rw [Function.update_of_ne ho] at hk
        refine ⟨ho, fun hks => ho ?_, hk⟩
        exact h.unique hset (hks ▸ hk)
    have heq : s.unsubscribe listener ⟨orderId, set, false⟩ =
        ⟨{ s.service with
            sets := Function.update s.service.sets set []
            listeners := Function.update s.service.listeners orderId none },
          Function.update s.subscriptions listener (some ⟨orderId, set, true⟩)⟩ := by
      unfold Registry.unsubscribe OrderNotifyService.unsubscribe
      simp only [hempty, if_true]
    rw [heq]
    refine ⟨fun o k hk => ?_, fun o k hk => ?_, fun o k hk l => ?_, fun l o k hsome => ?_, fun l sub hsome => ?_,
      fun l sub o hsome hk => ?_, fun l sub hsome => ?_⟩
    · show (Function.update s.service.sets set [] k).Nodup
      obtain ⟨_, hks, hold⟩ := hkeep o k hk
      rw [Function.update_of_ne hks]
      exact h.nodup _ _ hold
    · show Function.update s.service.sets set [] k ≠ []
      obtain ⟨_, hks, hold⟩ := hkeep o k hk
      rw [Function.update_of_ne hks]
      exact h.inhabited _ _ hold
    · show l ∈ Function.update s.service.sets set [] k ↔ Function.update s.subscriptions listener _ l = _
      obtain ⟨_, hks, hold⟩ := hkeep o k hk
      rw [Function.update_of_ne hks, h.members _ _ hold l]
      by_cases hll : l = listener
      · subst hll
        rw [Function.update_self, hl]
        simp [Ne.symm hks]
      · rw [Function.update_of_ne hll]
    · show Function.update s.service.listeners orderId none o = _
      rcases hsub l _ hsome with ⟨_, hfalse⟩ | ⟨hll, hold⟩
      · cases hfalse
      · have hreg := h.registered _ _ _ hold
        have ho : o ≠ orderId := by
          rintro rfl
          obtain rfl := hsets k hreg
          have hin := (h.members _ _ hset l).mpr hold
          have herase := (List.mem_erase_of_ne hll).mpr hin
          rw [hempty] at herase
          cases herase
        rw [Function.update_of_ne ho]
        exact hreg
    · show Function.update s.service.listeners orderId none sub.orderId = _ ∨
        Function.update s.service.sets set [] sub.listeners = []
      by_cases hks : sub.listeners = set
      · right
        rw [hks, Function.update_self]
      · rcases hsub l sub hsome with ⟨_, rfl⟩ | ⟨_, hold⟩
        · exact absurd rfl hks
        · rw [Function.update_of_ne hks]
          rcases h.emptied _ _ hold with hleft | hright
          · have ho : sub.orderId ≠ orderId := by
              intro heq
              exact hks (hsets _ (heq ▸ hleft))
            rw [Function.update_of_ne ho]
            exact Or.inl hleft
          · exact Or.inr hright
    · obtain ⟨_, hks, hk'⟩ := hkeep o _ hk
      rcases hsub l sub hsome with ⟨_, rfl⟩ | ⟨_, hold⟩
      · exact absurd rfl hks
      · exact h.own _ _ _ hold hk'
    · rcases hsub l sub hsome with ⟨_, rfl⟩ | ⟨_, hold⟩
      · exact h.fresh hset
      · exact h.issued _ _ hold
  · have heq : s.unsubscribe listener ⟨orderId, set, false⟩ =
        ⟨{ s.service with sets := Function.update s.service.sets set ((s.service.sets set).erase listener) },
          Function.update s.subscriptions listener (some ⟨orderId, set, true⟩)⟩ := by
      unfold Registry.unsubscribe OrderNotifyService.unsubscribe
      simp only [hempty, if_false]
    rw [heq]
    refine ⟨fun o k hk => ?_, fun o k hk => ?_, fun o k hk l => ?_, fun l o k hsome => ?_, fun l sub hsome => ?_,
      fun l sub o hsome hk => ?_, fun l sub hsome => ?_⟩
    · show (Function.update s.service.sets set ((s.service.sets set).erase listener) k).Nodup
      by_cases hks : k = set
      · subst hks
        rw [Function.update_self]
        exact hnodup.erase _
      · rw [Function.update_of_ne hks]
        exact h.nodup _ _ hk
    · show Function.update s.service.sets set ((s.service.sets set).erase listener) k ≠ []
      by_cases hks : k = set
      · subst hks
        rw [Function.update_self]
        exact hempty
      · rw [Function.update_of_ne hks]
        exact h.inhabited _ _ hk
    · show l ∈ Function.update s.service.sets set ((s.service.sets set).erase listener) k ↔
        Function.update s.subscriptions listener _ l = _
      have hold := h.members _ _ hk l
      by_cases hks : k = set
      · subst hks
        rw [Function.update_self, hnodup.mem_erase_iff, hold]
        by_cases hll : l = listener
        · subst hll
          simp
        · rw [Function.update_of_ne hll]
          simp [hll]
      · rw [Function.update_of_ne hks, hold]
        by_cases hll : l = listener
        · subst hll
          rw [Function.update_self, hl]
          simp [Ne.symm hks]
        · rw [Function.update_of_ne hll]
    · rcases hsub l _ hsome with ⟨_, hfalse⟩ | ⟨_, hold⟩
      · cases hfalse
      · exact h.registered _ _ _ hold
    · show _ ∨ Function.update s.service.sets set ((s.service.sets set).erase listener) sub.listeners = []
      rcases hsub l sub hsome with ⟨_, rfl⟩ | ⟨_, hold⟩
      · exact Or.inl hset
      · rcases h.emptied _ _ hold with hleft | hright
        · exact Or.inl hleft
        · have hks : sub.listeners ≠ set := by
            intro heq
            exact h.inhabited _ _ hset (heq ▸ hright)
          rw [Function.update_of_ne hks]
          exact Or.inr hright
    · rcases hsub l sub hsome with ⟨_, rfl⟩ | ⟨_, hold⟩
      · exact h.unique hset hk
      · exact h.own _ _ _ hold hk
    · rcases hsub l sub hsome with ⟨_, rfl⟩ | ⟨_, hold⟩
      · exact h.fresh hset
      · exact h.issued _ _ hold

/-- A later call that finds its `Set` registered, or none, changes nothing at all. -/
theorem Represents.again (h : Represents s) (hl : s.subscriptions listener = some ⟨orderId, set, true⟩)
    (hset : s.service.listeners orderId = some set ∨ s.service.listeners orderId = none) :
    s.unsubscribe listener ⟨orderId, set, true⟩ = s := by
  have hsubscriptions : Function.update s.subscriptions listener (some ⟨orderId, set, true⟩) = s.subscriptions := by
    rw [← hl, Function.update_eq_self]
  rcases hset with hset | hset
  · have hnot : listener ∉ s.service.sets set := by
      apply h.not_mem hset
      rw [hl]
      simp
    have herase : (s.service.sets set).erase listener = s.service.sets set := List.erase_of_not_mem hnot
    unfold Registry.unsubscribe OrderNotifyService.unsubscribe
    simp only [herase, if_neg (h.inhabited _ _ hset), Function.update_eq_self, hsubscriptions]
  · have hempty : s.service.sets set = [] := by
      rcases h.emptied _ _ hl with hleft | hright
      · have hsome : s.service.listeners orderId = some set := hleft
        rw [hset] at hsome
        cases hsome
      · exact hright
    have hsets : Function.update s.service.sets set [] = s.service.sets := by
      rw [← hempty, Function.update_eq_self]
    have hlisteners : Function.update s.service.listeners orderId none = s.service.listeners := by
      rw [← hset, Function.update_eq_self]
    unfold Registry.unsubscribe OrderNotifyService.unsubscribe
    simp only [hempty, List.erase_nil, if_true, hsets, hlisteners, hsubscriptions]

/-- One that finds another `Set` registered drops that one from the map. -/
theorem Represents.dropped (h : Represents s) (hl : s.subscriptions listener = some ⟨orderId, set, true⟩)
    (hset : s.service.listeners orderId ≠ some set) :
    (s.unsubscribe listener ⟨orderId, set, true⟩).service.listeners orderId = none := by
  have hempty : s.service.sets set = [] := (h.emptied _ _ hl).resolve_left hset
  unfold Registry.unsubscribe OrderNotifyService.unsubscribe
  simp only [hempty, List.erase_nil, if_true, Function.update_self]

theorem Represents.none_active (h : Represents s) :
    s.service.listeners orderId = none ↔ ∀ other, ¬ s.Active orderId other := by
  constructor
  · rintro hnone other ⟨set, hactive⟩
    rw [h.registered _ _ _ hactive] at hnone
    cases hnone
  · intro hnot
    cases hset : s.service.listeners orderId with
    | none => rfl
    | some set =>
      obtain ⟨other, hin⟩ := List.exists_mem_of_ne_nil _ (h.inhabited _ _ hset)
      exact absurd ⟨set, (h.members _ _ hset other).mp hin⟩ (hnot other)

/-- Whatever the history, a late enough event is accepted. -/
theorem exists_accepted (s : Registry) (orderId : Nat) :
    ∃ event, event.orderId = orderId ∧ s.service.accepts event = true := by
  cases hlast : (s.service.historyOf orderId).getLast? with
  | none => exact ⟨⟨0, orderId, .created⟩, rfl, by unfold OrderNotifyService.accepts; rw [hlast]; rfl⟩
  | some last =>
    refine ⟨⟨last.id + 1, orderId, .created⟩, rfl, ?_⟩
    unfold OrderNotifyService.accepts
    rw [hlast]
    simp

theorem Represents.again_iff (h : Represents s) (hl : s.subscriptions listener = some ⟨orderId, set, true⟩) :
    AgainInTime s (.unsubscribe listener) ↔
      s.service.listeners orderId = some set ∨ s.service.listeners orderId = none := by
  rw [h.none_active]
  constructor
  · intro hmeets
    exact hmeets _ _ rfl hl rfl
  · intro hset l sub heq hsub _
    cases heq
    rw [hl] at hsub
    cases hsub
    exact hset

theorem againInTime_first (hl : s.subscriptions listener = some ⟨orderId, set, false⟩) :
    AgainInTime s (.unsubscribe listener) := by
  intro l sub heq hsub hcalled
  cases heq
  rw [hl] at hsub
  cases hsub
  cases hcalled

theorem Represents.step (h : Represents s) (hm : AgainInTime s ev) (hs : RegistryStep s ev s') :
    Represents s' := by
  cases hs with
  | record => exact h.record _
  | @subscribe orderId listener hnew =>
    cases hset : s.service.listeners orderId with
    | none => exact h.opened hnew hset
    | some set => exact h.joined hnew hset
  | @unsubscribe listener subscription hl =>
    obtain ⟨orderId, set, called⟩ := subscription
    cases called with
    | false => exact h.left hl
    | true =>
      rw [h.again hl ((h.again_iff hl).mp hm)]
      exact h

theorem Represents.exact_iff (h : Represents s) (hs : RegistryStep s ev s') : Exact s' ↔ AgainInTime s ev := by
  constructor
  · intro hexact
    cases hs with
    | record => exact nofun
    | subscribe _ => exact nofun
    | @unsubscribe listener subscription hl =>
      obtain ⟨orderId, set, called⟩ := subscription
      cases called with
      | false => exact againInTime_first hl
      | true =>
        by_contra hnot
        rw [h.again_iff hl, not_or] at hnot
        have hdropped := h.dropped hl hnot.1
        have hactive := hnot.2
        rw [h.none_active] at hactive
        apply hactive
        rintro other ⟨k, hother⟩
        obtain ⟨event, rfl, haccepts⟩ := exists_accepted (s.unsubscribe listener ⟨orderId, set, true⟩) orderId
        have hne : other ≠ listener := by
          rintro rfl
          rw [hl] at hother
          cases hother
        have hin := ((hexact event haccepts).2 other).mpr ⟨k, by
          show Function.update s.subscriptions listener _ other = _
          rw [Function.update_of_ne hne]
          exact hother⟩
        rw [recipients_of_accepts haccepts, hdropped] at hin
        cases hin
  · intro hm
    exact (h.step hm hs).exact

/-- While the registry is in order, a timely further call is harmless. -/
theorem Represents.harmless (h : Represents s) (hm : AgainInTime s ev) : Harmless s ev := by
  rintro listener ⟨orderId, set, called⟩ rfl hl rfl event
  rw [h.again hl ((h.again_iff hl).mp hm)]

end

section
variable {s : Registry} {tr : List (Registry × RegistryEvent)}

theorem represents_run (hr : Run RegistryStep .start tr s) (hm : Always AgainInTime tr) : Represents s :=
  hr.invariant_of_always hm represents_start fun h hm hs => h.step hm hs

/-- Every accepted event goes to exactly the active listeners, and no further call of an
unsubscribe function matters, exactly in the runs where none of them comes too late. -/
theorem registry_exact_iff (hr : Run RegistryStep .start tr s) :
    Throughout Exact tr s ∧ Always Harmless tr ↔ Always AgainInTime tr := by
  have hexact : Throughout Exact tr s ↔ Always AgainInTime tr :=
    hr.throughout_iff_of_invariant represents_start (fun h => h.exact) (fun h hs => h.exact_iff hs)
      fun h hm hs => h.step hm hs
  constructor
  · intro h
    exact hexact.mp h.1
  · intro hm
    refine ⟨hexact.mpr hm, fun p hp => ?_⟩
    obtain ⟨pre, t, hpre, _, hle⟩ := hr.before hp
    have hpm : Always AgainInTime pre := fun q hq => hm q (hle.subset (List.mem_append_left _ hq))
    exact (represents_run hpre hpm).harmless (hm p hp)

/-- Listener 1 leaves order 11 and leaves it empty, listener 2 joins. -/
def rejoined : Registry :=
  ((Registry.start.subscribe 11 1).unsubscribe 1 ⟨11, 0, false⟩).subscribe 11 2

/-- Then the first unsubscribe function is called again. -/
theorem late_again_run : ∃ tr, Run RegistryStep .start tr (rejoined.unsubscribe 1 ⟨11, 0, true⟩) :=
  ⟨_, (((Run.nil.snoc (.subscribe rfl)).snoc (.unsubscribe rfl)).snoc (.subscribe rfl)).snoc
    (show RegistryStep rejoined (.unsubscribe 1) _ from .unsubscribe rfl)⟩

theorem not_exact_late : ¬ Exact (rejoined.unsubscribe 1 ⟨11, 0, true⟩) := by
  intro hexact
  have hin := ((hexact ⟨1, 11, .paid⟩ rfl).2 2).mpr ⟨1, rfl⟩
  exact absurd hin (by decide)

theorem registry_exact_refuted : ¬ ∀ (tr : List (Registry × RegistryEvent)) (s : Registry),
    Run RegistryStep .start tr s → Throughout Exact tr s ∧ Always Harmless tr := by
  intro hclaim
  obtain ⟨tr, hr⟩ := late_again_run
  exact not_exact_late (hclaim tr _ hr).1.2

/-- Or it is called again at once. -/
theorem timely_again_run : ∃ tr, Run RegistryStep .start tr
      (((Registry.start.subscribe 11 1).unsubscribe 1 ⟨11, 0, false⟩).unsubscribe 1 ⟨11, 0, true⟩) ∧
    Always AgainInTime tr := by
  have hjoin : RegistryStep .start (.subscribe 11 1) _ := .subscribe rfl
  have hleave : RegistryStep (Registry.start.subscribe 11 1) (.unsubscribe 1) _ := .unsubscribe rfl
  have hagain : RegistryStep ((Registry.start.subscribe 11 1).unsubscribe 1 ⟨11, 0, false⟩) (.unsubscribe 1) _ :=
    .unsubscribe rfl
  have hrep := (represents_start.step nofun hjoin).step (againInTime_first rfl) hleave
  refine ⟨_, ((Run.nil.snoc hjoin).snoc hleave).snoc hagain, ?_⟩
  refine always_snoc.mpr ⟨always_snoc.mpr ⟨always_snoc.mpr ⟨always_nil, nofun⟩, againInTime_first rfl⟩, ?_⟩
  exact (hrep.again_iff rfl).mpr (Or.inr rfl)

theorem registry_exact_iff_late : (∃ tr s, Run RegistryStep .start tr s ∧ ¬ Always AgainInTime tr) ∧
    ∃ tr s, Run RegistryStep .start tr s ∧ s.subscriptions 1 = some ⟨11, 0, true⟩ ∧ Throughout Exact tr s ∧
      Always Harmless tr := by
  constructor
  · obtain ⟨tr, hr⟩ := late_again_run
    refine ⟨tr, _, hr, fun hm => ?_⟩
    have hexact := (registry_exact_iff hr).mpr hm
    exact not_exact_late hexact.1.2
  · obtain ⟨tr, hr, hm⟩ := timely_again_run
    exact ⟨tr, _, hr, rfl, (registry_exact_iff hr).mpr hm⟩

end

end MarketplaceApi.Notify
