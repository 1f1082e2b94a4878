import MarketplaceApi.Cache.Exclusion
import MarketplaceApi.Placement.Status

/-!
# The cached order

`OrderService.findById` of one order through `getOrLoad`, beside the transactions of the order
context. `markPaid` and `markFailed` delete the key once their transaction has committed. The
delete does not take the lock, so a load that read the order before the commit can store what it
read after the delete.
-/
namespace MarketplaceApi.Cache

open Transition
open Placement (Order OrderLine Request Answer Commit)

/-- An execution of `markPaid` or `markFailed` of the order, with its retries: whether one of its
transactions has changed the order. -/
inductive Call where
  | running (changed : Bool)
  /-- the transaction has committed, the delete is next -/
  | committed (changed : Bool)
  | returned (changed : Bool)

structure OrderState (E : Type) where
  tables : Placement.Tables
  cache : World (Order × List OrderLine) E
  calls : Nat → Call

inductive OrderMove (E : Type) where
  | other (q : Request)
  | commit (c : Nat) (q : Request)
  | evict (c : Nat)
  | faultEvict (c : Nat) (effect : Bool)
  | cache (ev : Event (Order × List OrderLine) E)

/-- The request is a `markPaid` or a `markFailed` of the order. -/
def marks (id : Nat) : Request → Bool
  | .markPaid _ orderId | .markFailed _ orderId _ => orderId = id
  | .place _ _ _ _ => false

def pending (id : Nat) (s : Placement.Tables) : Bool := s.orders.any fun order => order.isPending id

variable {E : Type}

/-- A load that succeeds has read the committed order. -/
def Loads (id : Nat) (s : Placement.Tables) : Event (Order × List OrderLine) E → Prop
  | .load _ (.ok value) => (Placement.OrderRepository.findByIdOrFail id).run s = .ok (s, value)
  | _ => True

namespace OrderState

def start (s : Placement.Tables) : OrderState E := ⟨s, .start, fun _ => .running false⟩

def setCall (w : OrderState E) (c : Nat) (call : Call) : OrderState E :=
  { w with calls := Function.update w.calls c call }

/-- `DEL` of the key. -/
def delete (w : OrderState E) : OrderState E := { w with cache := { w.cache with value := none } }

/-- A call that changed the order has returned. -/
def Settled (w : OrderState E) : Prop := ∃ c, w.calls c = .returned true

end OrderState

/-- A call whose delete fails is retried from its transaction on; a delete that lands later is a `drop`. -/
inductive OrderStep (id : Nat) (w : OrderState E) : OrderMove E → OrderState E → Prop
  | other {q : Request} {s' : Placement.Tables} {answer : Answer} : marks id q = false → q.WellTyped →
      Commit q w.tables s' answer → OrderStep id w (.other q) { w with tables := s' }
  | commit {c : Nat} {changed : Bool} {q : Request} {s' : Placement.Tables} {answer : Answer} :
      w.calls c = .running changed → marks id q = true → q.WellTyped → Commit q w.tables s' answer →
      OrderStep id w (.commit c q)
        { w.setCall c (.committed (changed || (pending id w.tables && !pending id s'))) with tables := s' }
  | evict {c : Nat} {changed : Bool} : w.calls c = .committed changed →
      OrderStep id w (.evict c) (w.delete.setCall c (.returned changed))
  | faultEvict {c : Nat} {changed effect : Bool} : w.calls c = .committed changed →
      OrderStep id w (.faultEvict c effect) ((if effect then w.delete else w).setCall c (.running changed))
  | cache {ev : Event (Order × List OrderLine) E} {cache' : World (Order × List OrderLine) E} :
      Step w.cache ev cache' → Loads id w.tables ev → OrderStep id w (.cache ev) { w with cache := cache' }

/-- The value the step stores. -/
def Event.stores {V : Type} (c : World V E) : Event V E → Option V
  | store i =>
    match c.callers i with
    | .storing _ value => some value
    | _ => none
  | land (.set value) => some value
  | _ => none

/-- Nobody stores a pending order once a call that changed it has returned. -/
def FreshStore (w : OrderState E) : OrderMove E → Prop
  | .cache ev => ∀ value, ev.stores w.cache = some value → w.Settled → value.1.status ≠ .pendingPayment
  | _ => True

section
variable {V : Type} {c c' : World V E} {ev : Event V E} {value : V}

theorem stores_store {i : Nat} {entry : Entry} (hat : c.callers i = .storing entry value) :
    (Event.store i : Event V E).stores c = some value := by
  simp only [Event.stores, hat]

theorem stores_value (hs : Step c ev c') (hstores : ev.stores c = some value) : c'.value = some value := by
  cases hs with
  | store hat =>
    rw [stores_store hat] at hstores
    exact hstores
  | land hlost =>
    rename_i command _ _
    cases command with
    | set other => exact hstores
    | setNx token | delex token => cases hstores
  | _ => cases hstores

/-- A value that is stored is what a caller has loaded, now or before its `SET` was lost. -/
theorem stores_from (hs : Step c ev c') (hstores : ev.stores c = some value) :
    (∃ i, (c.callers i).carried = some (.ok value)) ∨ .set value ∈ c.lost := by
  cases hs with
  | store hat =>
    rw [stores_store hat] at hstores
    cases hstores
    exact Or.inl ⟨_, by rw [hat]; rfl⟩
  | land hlost =>
    rename_i command _ _
    cases command with
    | set other =>
      cases hstores
      exact Or.inr (hlost ▸ List.mem_append_right _ List.mem_cons_self)
    | setNx token | delex token => cases hstores
  | _ => cases hstores

/-- Where a lost value comes from. -/
theorem lost_step (hs : Step c ev c') (h : .set value ∈ c'.lost) :
    (∃ i, (c.callers i).carried = some (.ok value)) ∨ .set value ∈ c.lost := by
  have hsnoc : ∀ {command : Command V}, .set value ∈ c.lost ++ [command] →
      command = .set value ∨ .set value ∈ c.lost := by
    intro command hin
    rcases List.mem_append.mp hin with hold | hnew
    · exact Or.inr hold
    · exact Or.inl (List.mem_singleton.mp hnew).symm
  cases hs with
  | faultLock _ _ => exact Or.inr ((hsnoc h).resolve_left nofun)
  | faultRelease _ => exact Or.inr ((hsnoc h).resolve_left nofun)
  | faultStore hat =>
    rcases hsnoc h with hnew | hold
    · cases hnew
      exact Or.inl ⟨_, by rw [hat]; rfl⟩
    · exact Or.inr hold
  | land hlost =>
    rw [hlost]
    exact Or.inr ((List.Sublist.append_left (List.sublist_cons_self _ _) _).subset h)
  | _ => exact Or.inr h

/-- A `GET` of what is stored ends the call with it. -/
theorem get_stored {i : Nat} {otherwise : Caller V E} (h : c.value = some value) :
    (c.get i otherwise).callers i = .done (.ok value) := by
  unfold World.get
  rw [h]
  exact Function.update_self ..

/-- Where a stored value comes from. -/
theorem value_step (hs : Step c ev c') (h : c'.value = some value) : c.value = some value ∨
    ev.stores c = some value := by
  cases hs with
  | store hat =>
    cases h
    exact Or.inr (stores_store hat)
  | land hlost =>
    rename_i command _ _
    cases command with
    | set other => exact Or.inr h
    | setNx token | delex token => exact Or.inl h
  | drop => cases h
  | _ => exact Or.inl h

end

section
variable {id : Nat} {w w' : OrderState E} {mv : OrderMove E}

/-- The order is there, with a final status. -/
def Final (id : Nat) (s : Placement.Tables) : Prop := ∃ order ∈ s.orders, order.id = id ∧ order.status ≠ .pendingPayment

/-- A value is the order as it still stands, or from when it was pending. -/
def Known (id : Nat) (s : Placement.Tables) (value : Order × List OrderLine) : Prop :=
  value.1.status = .pendingPayment ∨ (value.1 ∈ s.orders ∧ value.1.id = id)

structure Tracks (id : Nat) (w : OrderState E) : Prop where
  consistent : Placement.Consistent w.tables
  stored : ∀ value, w.cache.value = some value → Known id w.tables value
  carried : ∀ i value, (w.cache.callers i).carried = some (.ok value) → Known id w.tables value
  lost : ∀ value, .set value ∈ w.cache.lost → Known id w.tables value
  changed : ∀ c, (w.calls c = .running true ∨ w.calls c = .committed true ∨ w.calls c = .returned true) →
    Final id w.tables

/-- After a call that changed the order has returned, nobody finds a pending one in the cache. -/
structure Fresh (id : Nat) (w : OrderState E) : Prop where
  tracks : Tracks id w
  stored : w.Settled → ∀ value, w.cache.value = some value → value.1.status ≠ .pendingPayment

theorem Known.commit {s s' : Placement.Tables} {q : Request} {answer : Answer} {value : Order × List OrderLine}
    (h : Known id s value) (hc : Commit q s s' answer) : Known id s' value := by
  by_cases hpending : value.1.status = .pendingPayment
  · exact Or.inl hpending
  · obtain ⟨hin, hid⟩ := h.resolve_left hpending
    exact Or.inr ⟨Placement.settled_commit hc hin hpending, hid⟩

theorem Final.commit {s s' : Placement.Tables} {q : Request} {answer : Answer} (h : Final id s)
    (hc : Commit q s s' answer) : Final id s' := by
  obtain ⟨order, hin, hid, hstatus⟩ := h
  exact ⟨order, Placement.settled_commit hc hin hstatus, hid, hstatus⟩

/-- What a load of the order reads. -/
theorem loaded {s : Placement.Tables} {value : Order × List OrderLine}
    (h : (Placement.OrderRepository.findByIdOrFail id).run s = .ok (s, value)) :
    value.1 ∈ s.orders ∧ value.1.id = id := by
  unfold Placement.OrderRepository.findByIdOrFail at h
  rw [Txn.Prog.run_exec] at h
  split at h
  · rename_i order hfind
    cases h
    exact ⟨List.mem_of_find?_eq_some hfind, by simpa using List.find?_some hfind⟩
  · cases h

/-- A row of the order stays, if changed. -/
theorem row_commit {s s' : Placement.Tables} {q : Request} {answer : Answer} (hc : Commit q s s' answer) {order : Order}
    (hin : order ∈ s.orders) : ∃ later ∈ s'.orders, later.id = order.id := by
  have hmoved : ∀ orderId change, ∃ later ∈ (s.updatePending orderId change).orders, later.id = order.id := by
    intro orderId change
    refine ⟨_, List.mem_map_of_mem hin, ?_⟩
    rw [Placement.later_updatePending order orderId change]
  cases hc with
  | placed _ => exact ⟨order, List.mem_cons_of_mem _ hin, rfl⟩
  | found _ _ _ _ | settled => exact ⟨order, hin, rfl⟩
  | paid _ _ _ => exact hmoved _ _
  | failed _ _ _ => exact hmoved _ _

/-- A commit after which the pending order is no longer pending has given it a final status. -/
theorem final_of_moved {s s' : Placement.Tables} {q : Request} {answer : Answer} (hc : Commit q s s' answer)
    (hmoved : (pending id s && !pending id s') = true) : Final id s' := by
  rw [Bool.and_eq_true, Bool.not_eq_true'] at hmoved
  obtain ⟨order, hin, hpending⟩ := List.any_eq_true.mp hmoved.1
  have hid : order.id = id := (of_decide_eq_true hpending).1
  obtain ⟨later, hlater, hsame⟩ := row_commit hc hin
  refine ⟨later, hlater, hsame.trans hid, fun hstatus => ?_⟩
  have hno := List.any_eq_false.mp hmoved.2 later hlater
  exact hno (decide_eq_true ⟨hsame.trans hid, hstatus⟩)

theorem tracks_start (offers : Nat → Option Placement.SellerOffer) :
    Tracks id (.start (.empty offers) : OrderState E) where
  consistent := Placement.consistent_empty offers
  stored := nofun
  carried := nofun
  lost := nofun
  changed c h := by rcases h with h | h | h <;> cases h

theorem setCall_calls (w : OrderState E) (c : Nat) (call : Call) (d : Nat) :
    (w.setCall c call).calls d = if d = c then call else w.calls d := Function.update_apply ..

/-- What a transaction leaves behind, but for the call it belongs to. -/
theorem Tracks.commit (h : Tracks id w) {q : Request} {s' : Placement.Tables} {answer : Answer} (hq : q.WellTyped)
    (hc : Commit q w.tables s' answer) {calls : Nat → Call}
    (hchanged : ∀ c, (calls c = .running true ∨ calls c = .committed true ∨ calls c = .returned true) → Final id s') :
    Tracks id { w with tables := s', calls := calls } where
  consistent := Placement.consistent_commit h.consistent hq hc
  stored value hvalue := (h.stored value hvalue).commit hc
  carried i value hvalue := (h.carried i value hvalue).commit hc
  lost value hvalue := (h.lost value hvalue).commit hc
  changed := hchanged

/-- A delete, or one that is lost. -/
theorem Tracks.delete (h : Tracks id w) (effect : Bool) : Tracks id (if effect then w.delete else w) := by
  cases effect with
  | false => exact h
  | true => exact ⟨h.consistent, nofun, h.carried, h.lost, h.changed⟩

theorem Tracks.setCall (h : Tracks id w) {c : Nat} {call : Call}
    (hcall : (call = .running true ∨ call = .committed true ∨ call = .returned true) → Final id w.tables) :
    Tracks id (w.setCall c call) := by
  refine ⟨h.consistent, h.stored, h.carried, h.lost, fun d hd => ?_⟩
  rw [setCall_calls] at hd
  split at hd
  · exact hcall hd
  · exact h.changed d hd

theorem tables_delete (effect : Bool) : (if effect then w.delete else w).tables = w.tables := by
  cases effect <;> rfl

theorem tracks_step (h : Tracks id w) (hs : OrderStep id w mv w') : Tracks id w' := by
  cases hs with
  | other _ hq hc => exact h.commit hq hc fun c hcall => (h.changed c hcall).commit hc
  | commit hcall hmarks hq hc =>
    rename_i c changed q s' answer
    refine h.commit hq hc fun d hd => ?_
    rw [setCall_calls] at hd
    split at hd
    · rcases hd with hd | hd | hd
      · cases hd
      · have hor : (changed || (pending id w.tables && !pending id s')) = true := Call.committed.inj hd
        rcases (Bool.or_eq_true _ _).mp hor with rfl | hmoved
        · exact (h.changed c (Or.inl hcall)).commit hc
        · exact final_of_moved hc hmoved
      · cases hd
    · exact (h.changed d hd).commit hc
  | evict hcall =>
    rename_i c changed
    refine (h.delete true).setCall fun hnew => h.changed c ?_
    rcases hnew with hnew | hnew | hnew
    · cases hnew
    · cases hnew
    · cases hnew
      exact Or.inr (Or.inl hcall)
  | faultEvict hcall =>
    rename_i c changed effect
    refine (h.delete effect).setCall fun hnew => ?_
    rw [tables_delete]
    apply h.changed c
    rcases hnew with hnew | hnew | hnew
    · cases hnew
      exact Or.inr (Or.inl hcall)
    · cases hnew
    · cases hnew
  | cache hs hloads =>
    have hfrom : ∀ value, (∃ i, (w.cache.callers i).carried = some (.ok value)) ∨ .set value ∈ w.cache.lost →
        Known id w.tables value := by
      rintro value (⟨i, hcarried⟩ | hlost)
      · exact h.carried i value hcarried
      · exact h.lost value hlost
    refine ⟨h.consistent, fun value hvalue => ?_, fun i value hvalue => ?_,
      fun value hvalue => hfrom value (lost_step hs hvalue), h.changed⟩
    · rcases value_step hs hvalue with hold | hstores
      · exact h.stored value hold
      · exact hfrom value (stores_from hs hstores)
    · rcases carried_step hs hvalue with hold | ⟨other, hstored, hsame⟩ | ⟨result, rfl, hload⟩ | ⟨hredis, _⟩
      · exact h.carried i value hold
      · cases hsame
        exact h.stored value hstored
      · cases result with
        | ok other =>
          cases hload
          exact Or.inr (loaded hloads)
        | error error => cases hload
      · cases hredis

theorem fresh_start (offers : Nat → Option Placement.SellerOffer) :
    Fresh id (.start (.empty offers) : OrderState E) := ⟨tracks_start offers, fun _ => nofun⟩

/-- A call that is not the one that moves has returned before. -/
theorem settled_setCall {c : Nat} {call : Call} (hcall : call ≠ .returned true)
    (h : (w.setCall c call).Settled) : w.Settled := by
  obtain ⟨d, hd⟩ := h
  rw [setCall_calls] at hd
  split at hd
  · exact absurd hd hcall
  · exact ⟨d, hd⟩

theorem fresh_step (h : Fresh id w) (hfresh : FreshStore w mv) (hs : OrderStep id w mv w') : Fresh id w' := by
  refine ⟨tracks_step h.tracks hs, fun hsettled value hvalue => ?_⟩
  cases hs with
  | other _ _ _ => exact h.stored hsettled value hvalue
  | commit _ _ _ _ => exact h.stored (settled_setCall Call.noConfusion hsettled) value hvalue
  | evict _ => cases hvalue
  | faultEvict hcall =>
    rename_i c changed effect
    cases effect with
    | true => cases hvalue
    | false => exact h.stored (settled_setCall Call.noConfusion hsettled) value hvalue
  | cache hs _ =>
    rcases value_step hs hvalue with hold | hstores
    · exact h.stored hsettled value hold
    · exact hfresh value hstores hsettled

/-- A call that has returned does not move again. -/
theorem settled_step (h : w.Settled) (hs : OrderStep id w mv w') : w'.Settled := by
  obtain ⟨d, hd⟩ := h
  have hkeep : ∀ {c call before}, w.calls c = before → before ≠ .returned true →
      Function.update w.calls c call d = .returned true := by
    intro c call before hc hne
    rw [Function.update_of_ne]
    · exact hd
    · intro heq
      subst heq
      exact hne (hc.symm.trans hd)
  cases hs with
  | other _ _ _ | cache _ _ => exact ⟨d, hd⟩
  | commit hc _ _ _ => exact ⟨d, hkeep hc nofun⟩
  | evict hc => exact ⟨d, hkeep hc nofun⟩
  | faultEvict hc =>
    rename_i c changed effect
    cases effect <;> exact ⟨d, hkeep hc nofun⟩

/-- A call that changed the order has returned, and the caller has no pending order in hand. -/
structure Served (id i : Nat) (w : OrderState E) : Prop where
  fresh : Fresh id w
  settled : w.Settled
  carried : ∀ value, (w.cache.callers i).carried = some (.ok value) → value.1.status ≠ .pendingPayment

theorem served_step {i : Nat} (h : Served id i w) (hfresh : FreshStore w mv) (hs : OrderStep id w mv w') :
    Served id i w' := by
  refine ⟨fresh_step h.fresh hfresh hs, settled_step h.settled hs, ?_⟩
  cases hs with
  | other _ _ _ | commit _ _ _ _ | evict _ => exact h.carried
  | faultEvict hcall =>
    rename_i c changed effect
    cases effect <;> exact h.carried
  | cache hs hloads =>
    intro value hvalue
    rcases carried_step hs hvalue with hold | ⟨other, hstored, hsame⟩ | ⟨result, rfl, hload⟩ | ⟨hredis, _⟩
    · exact h.carried value hold
    · cases hsame
      exact h.fresh.stored h.settled value hstored
    · cases result with
      | ok other =>
        cases hload
        obtain ⟨c, hc⟩ := h.settled
        obtain ⟨order, hin, hid, hstatus⟩ := h.fresh.tracks.changed c (Or.inr (Or.inr hc))
        obtain ⟨hin', hid'⟩ := loaded hloads
        rw [List.inj_on_of_nodup_map h.fresh.tracks.consistent.ids hin' hin (hid'.trans hid.symm)]
        exact hstatus
      | error error => cases hload
    · cases hredis

/-- If no load stores a pending order after a call that changed it has returned, a `findById` that
starts afterwards gives the order with its final status. The step that stores one makes the next
`findById` give it. -/
theorem no_stale_order {offers : Nat → Option Placement.SellerOffer} {tr more : List (OrderState E × OrderMove E)}
    (hr : Run (OrderStep id) (.start (.empty offers)) tr w) (hmore : Run (OrderStep id) w more w')
    (hfresh : Always FreshStore (tr ++ more)) :
    (w.Settled → ∀ i value, w.cache.callers i = .reading → w'.cache.callers i = .done (.ok value) →
      value.1 ∈ w'.tables.orders ∧ value.1.id = id ∧ value.1.status ≠ .pendingPayment) ∧
    ∀ mv u, OrderStep id w' mv u → ¬ FreshStore w' mv → w'.Settled ∧ ∀ i, u.cache.callers i = .reading →
      ∃ u' value, OrderStep id u (.cache (.read i)) u' ∧ u'.cache.callers i = .done (.ok value) ∧
        value.1.status = .pendingPayment := by
  obtain ⟨hbefore, hafter⟩ := always_append.mp hfresh
  have hstart : Fresh id w := hr.invariant_of_always hbefore (fresh_start offers) fun h hm hs => fresh_step h hm hs
  refine ⟨fun hsettled i value hreading hdone => ?_, fun mv u hs hstale => ?_⟩
  · have hempty : Served id i w := by
      refine ⟨hstart, hsettled, fun other hother => ?_⟩
      rw [hreading] at hother
      cases hother
    have hend : Served id i w' := hmore.invariant_of_always hafter hempty fun h hm hs => served_step h hm hs
    have hcarried : (w'.cache.callers i).carried = some (.ok value) := by rw [hdone]; rfl
    have hstatus := hend.carried value hcarried
    obtain ⟨hin, hid⟩ := (hend.fresh.tracks.carried i value hcarried).resolve_left hstatus
    exact ⟨hin, hid, hstatus⟩
  · cases hs with
    | other _ _ _ | commit _ _ _ _ | evict _ | faultEvict _ => exact absurd True.intro hstale
    | @cache _ cache hs _ =>
      simp only [FreshStore, not_forall, not_not] at hstale
      obtain ⟨value, hstores, hsettled, hpending⟩ := hstale
      refine ⟨hsettled, fun i hreading => ?_⟩
      have hread : (cache.get i .missed).callers i = .done (.ok value) := get_stored (stores_value hs hstores)
      exact ⟨_, value, .cache (.read hreading) True.intro, hread, hpending⟩

theorem commit_of_run {hash : String → Int} {q : Request} {s s' : Placement.Tables} {answer : Answer}
    (h : (Placement.handler hash q).run s = .ok (s', answer)) : Commit q s s' answer :=
  Placement.commit_of_exec (Txn.Exec.of_run (Placement.isolation.le_refl s) (Placement.safe_handler _ hash q) h)

def sampleRequest : Request := .place Placement.sampleGenerated Placement.oneItem Placement.sampleBuyer none

def sampleOffers : Nat → Option Placement.SellerOffer := (Placement.oneOffer ⟨150, Placement.samplePrice_lt⟩).offers

/-- The order is placed, and then paid. -/
theorem placed_and_paid : ∃ s answer s' value paid,
    (Placement.handler Placement.plainHash sampleRequest).run (.empty sampleOffers) = .ok (s, answer) ∧
    (Placement.handler Placement.plainHash (.markPaid ⟨2, 1_700⟩ 1)).run s = .ok (s', .marked) ∧
    (Placement.OrderRepository.findByIdOrFail 1).run s = .ok (s, value) ∧ value.1.status = .pendingPayment ∧
    (Placement.OrderRepository.findByIdOrFail 1).run s' = .ok (s', paid) ∧ paid.1.status = .paid ∧
    pending 1 s = true ∧ pending 1 s' = false :=
  ⟨_, _, _, _, _, rfl, rfl, rfl, rfl, rfl, rfl, rfl, rfl⟩

/-- A step that is no store and no lost write. -/
def Event.Silent {V : Type} : Event V E → Prop
  | .store _ | .land _ => False
  | _ => True

theorem freshStore_silent {ev : Event (Order × List OrderLine) E} (h : ev.Silent) : FreshStore w (.cache ev) := by
  intro value hstores
  cases ev with
  | store i => exact h.elim
  | land command => exact h.elim
  | _ => cases hstores

theorem fresh_nil {tr : List (OrderState E × OrderMove E)} {w₀ : OrderState E}
    (_ : Run (OrderStep id) w₀ tr w) :
    Run (OrderStep id) w [] w ∧ Always FreshStore ([] : List (OrderState E × OrderMove E)) :=
  ⟨.nil, always_nil⟩

theorem fresh_snoc {tr : List (OrderState E × OrderMove E)} {w₀ : OrderState E}
    (h : Run (OrderStep id) w₀ tr w ∧ Always FreshStore tr) (hs : OrderStep id w mv w') (hfresh : FreshStore w mv) :
    Run (OrderStep id) w₀ (tr ++ [(w, mv)]) w' ∧ Always FreshStore (tr ++ [(w, mv)]) :=
  ⟨h.1.snoc hs, always_snoc.mpr ⟨h.2, hfresh⟩⟩

theorem fresh_cache {tr : List (OrderState E × OrderMove E)} {w₀ : OrderState E}
    {ev : Event (Order × List OrderLine) E} {cache : World (Order × List OrderLine) E}
    (h : Run (OrderStep id) w₀ tr w ∧ Always FreshStore tr) (hs : Step w.cache ev cache)
    (hloads : Loads id w.tables ev) (hsilent : ev.Silent) :
    Run (OrderStep id) w₀ (tr ++ [(w, .cache ev)]) { w with cache } ∧ Always FreshStore (tr ++ [(w, .cache ev)]) :=
  fresh_snoc h (.cache hs hloads) (freshStore_silent hsilent)

end

/-- A `findById` after `markPaid` has returned loads the paid order. -/
theorem no_stale_order_loaded : ∃ tr more value, ∃ w w' : OrderState String,
    Run (OrderStep 1) (.start (.empty sampleOffers)) tr w ∧ Run (OrderStep 1) w more w' ∧ w.Settled ∧
      w'.cache.callers 0 = .done (.ok value) ∧ value.1 ∈ w'.tables.orders ∧ value.1.id = 1 ∧
      value.1.status ≠ .pendingPayment := by
  obtain ⟨s, answer, s', _, paid, hplace, hmark, _, _, hload, hpaid, hbefore, hafter⟩ := placed_and_paid
  have hmoved : (false || (pending 1 s && !pending 1 s')) = true := by rw [hbefore, hafter]; rfl
  have hnil : Run (OrderStep 1) (.start (.empty sampleOffers) : OrderState String) [] (.start (.empty sampleOffers)) :=
    .nil
  have hr := fresh_snoc (fresh_snoc (fresh_snoc ⟨hnil, always_nil⟩
    (.other (q := sampleRequest) rfl True.intro (commit_of_run hplace)) True.intro)
    (.commit (c := 0) (q := .markPaid ⟨2, 1_700⟩ 1) rfl rfl True.intro (commit_of_run hmark)) True.intro)
    (.evict (c := 0) rfl) True.intro
  have hloaded := fresh_cache (fresh_cache (fresh_cache (fresh_cache (fresh_cache (fresh_nil hr.1)
    (.read (i := 0) rfl) True.intro True.intro) (.enter (i := 0) rfl) True.intro True.intro)
    (.turn (i := 0) rfl (show 0 < 5000 by decide)) True.intro True.intro)
    (.acquire (i := 0) rfl (show World.Fresh _ "a" from List.forall_mem_nil _) rfl) True.intro True.intro)
    (Step.load rfl : Step _ (.load 0 (.ok paid)) _) hload True.intro
  have hmore := fresh_cache (fresh_snoc hloaded (.cache (.store (i := 0) rfl) True.intro) (by
      intro value hstores _
      cases hstores
      rw [hpaid]
      exact nofun)) (.release (i := 0) rfl) True.intro True.intro
  have hsettled := congrArg Call.returned hmoved
  exact ⟨_, _, paid, _, _, hr.1, hmore.1, ⟨0, hsettled⟩, rfl,
    (no_stale_order hr.1 hmore.1 (always_append.mpr ⟨hr.2, hmore.2⟩)).1 ⟨0, hsettled⟩ 0 paid rfl rfl⟩

/-- A load that read the pending order before `markPaid` committed stores it after `markPaid` has
returned; the next `findById` gives a pending order. -/
theorem no_stale_order_refuted : ¬ ∀ offers tr more (w w' : OrderState String),
    Run (OrderStep 1) (.start (.empty offers)) tr w → Run (OrderStep 1) w more w' → w.Settled →
    ∀ i value, w.cache.callers i = .reading → w'.cache.callers i = .done (.ok value) →
      value.1.status ≠ .pendingPayment := by
  intro hclaim
  obtain ⟨s, answer, s', value, _, hplace, hmark, hload, hpending, _, _, hbefore, hafter⟩ := placed_and_paid
  have hmoved : (false || (pending 1 s && !pending 1 s')) = true := by rw [hbefore, hafter]; rfl
  have hnil : Run (OrderStep 1) (.start (.empty sampleOffers) : OrderState String) [] (.start (.empty sampleOffers)) :=
    .nil
  have hr := Run.snoc (Run.snoc (Run.snoc (Run.snoc (Run.snoc (Run.snoc (Run.snoc (Run.snoc hnil
    (.other (q := sampleRequest) rfl True.intro (commit_of_run hplace)))
    (.cache (.read (i := 0) rfl) True.intro)) (.cache (.enter (i := 0) rfl) True.intro))
    (.cache (.turn (i := 0) rfl (show 0 < 5000 by decide)) True.intro))
    (.cache (.acquire (i := 0) rfl (show World.Fresh _ "a" from List.forall_mem_nil _) rfl) True.intro))
    (.cache (Step.load rfl : Step _ (.load 0 (.ok value)) _) hload))
    (.commit (c := 0) (q := .markPaid ⟨2, 1_700⟩ 1) rfl rfl True.intro (commit_of_run hmark))) (.evict (c := 0) rfl)
  have hmore := Run.snoc (Run.snoc (fresh_nil hr).1 (.cache (.store (i := 0) rfl) True.intro))
    (.cache (.read (i := 1) rfl) True.intro)
  exact hclaim _ _ _ _ _ hr hmore ⟨0, congrArg Call.returned hmoved⟩ 1 value rfl rfl hpending

end MarketplaceApi.Cache
