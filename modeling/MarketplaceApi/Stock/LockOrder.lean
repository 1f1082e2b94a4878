import Mathlib.Data.Prod.Lex
import MarketplaceApi.Stock.Handlers
import MarketplaceApi.Txn.Waiting

/-!
# The order of the stock locks

`reserve` sorts its items, so its locks come in ascending order of their offers. The statement of
`release` names no order: its join decides which row comes next. Releases that meet their offers in
ascending order cannot close a cycle with any reserves; one that does not deadlocks with some reserve.
-/
namespace MarketplaceApi.Stock

open Txn.Waiting
open Transition (Run)
open Txn (Prog)

/-- The rows one release locks, in the order its join meets them. -/
structure Release where
  orderPublicId : Uuid
  locks : List Lock
  own : ∀ o f, .reservation o f ∈ locks → o = orderPublicId
  /-- An offer is met through a released row of it. -/
  after : ∀ l₁ f l₂, locks = l₁ ++ .offer f :: l₂ → .reservation orderPublicId f ∈ l₁
  nodup : locks.Nodup
  positive : ∀ f, .offer f ∈ locks → 0 < f

/-- All the rows first, and then their offers. -/
def Release.rowsThenOffers (o : Uuid) (rows offers : List Nat) (hsub : ∀ f ∈ offers, f ∈ rows)
    (hrows : rows.Nodup) (hoffers : offers.Nodup) (hpos : ∀ f ∈ offers, 0 < f) : Release where
  orderPublicId := o
  locks := rows.map (Lock.reservation o) ++ offers.map Lock.offer
  own p f h := by
    simp only [List.mem_append, List.mem_map, Lock.reservation.injEq, reduceCtorEq, and_false, exists_false,
      or_false] at h
    obtain ⟨_, _, hp, _⟩ := h
    exact hp.symm
  after l₁ f l₂ h := by
    have hin : .offer f ∈ rows.map (Lock.reservation o) ++ offers.map Lock.offer := by
      rw [h]
      exact List.mem_append_right _ List.mem_cons_self
    simp only [List.mem_append, List.mem_map, reduceCtorEq, and_false, exists_false, false_or, Lock.offer.injEq,
      exists_eq_right] at hin
    have hrow : .reservation o f ∈ l₁ ++ .offer f :: l₂ := by
      rw [← h]
      exact List.mem_append_left _ (List.mem_map_of_mem (hsub f hin))
    rcases List.append_eq_append_iff.mp h with ⟨m, hl₁, _⟩ | ⟨m, hl, hm⟩
    · rw [hl₁]
      exact List.mem_append_left _ (List.mem_map_of_mem (hsub f hin))
    · cases m with
      | nil =>
        rw [List.append_nil] at hl
        rw [← hl]
        exact List.mem_map_of_mem (hsub f hin)
      | cons k m =>
        rw [List.cons_append, List.cons.injEq] at hm
        have hbad : .offer f ∈ rows.map (Lock.reservation o) := by
          rw [hl, hm.1]
          exact List.mem_append_right _ List.mem_cons_self
        simp at hbad
  nodup := by
    refine List.nodup_append.mpr ⟨hrows.map fun _ _ => ?_, hoffers.map fun _ _ => ?_, ?_⟩
    · simp
    · simp
    · simp
  positive f h := by
    simp only [List.mem_append, List.mem_map, reduceCtorEq, and_false, exists_false, false_or, Lock.offer.injEq,
      exists_eq_right] at h
    exact hpos f h

inductive Transaction where
  | reserve (orderPublicId : Uuid) (items : List Item)
  | release (r : Release)

def Item.locks (o : Uuid) (item : Item) : List Lock := [.reservation o item.offerId, .offer item.offerId]

/-- The locks of a transaction, in its order. -/
def plan : Transaction → List Lock
  | .reserve o items =>
    (items.insertionSort fun left right => left.offerId ≤ right.offerId).flatMap (Item.locks o)
  | .release r => r.locks

def Lock.offerId : Lock → Nat
  | .reservation _ f => f
  | .offer f => f

/-- Offers ascend. -/
def OffersAscend : Lock → Lock → Prop
  | .offer f, .offer g => f < g
  | _, _ => True

/-- Rows come before offers, and in the order of `ρ`. -/
def RowsFirst (ρ : Uuid → Nat → Nat) : Lock → Lock → Prop
  | .reservation o f, .reservation p g => ρ o f < ρ p g
  | .offer _, .reservation _ _ => False
  | _, .offer _ => True

/-- Two transactions agree on the reservation rows they share: they are reserves, or the first lock of
both is the same, or they are releases that lock all their rows first and in one order. -/
inductive Agree (ρ : Uuid → Nat → Nat) : Transaction → Transaction → Prop
  | apart {p q : Transaction} : (∀ o f, .reservation o f ∈ plan p → .reservation o f ∉ plan q) → Agree ρ p q
  | reserves {o o' : Uuid} {items items' : List Item} : Agree ρ (.reserve o items) (.reserve o' items')
  | gate {p q : Transaction} : (plan p).head? = (plan q).head? → Agree ρ p q
  | releases {r r' : Release} : r.locks.Pairwise (RowsFirst ρ) → r'.locks.Pairwise (RowsFirst ρ) →
      Agree ρ (.release r) (.release r')

/-- The running releases meet their offers in ascending order, and the running transactions agree on
the rows they share. -/
structure Ordered (s : Locks Transaction Lock) : Prop where
  offers : ∀ i t r, s i = some t → t.request = .release r → r.locks.Pairwise OffersAscend
  rows : ∃ ρ, ∀ i j t u, i ≠ j → s i = some t → s j = some u → Agree ρ t.request u.request

section
variable {o : Uuid} {items : List Item} {s : Locks Transaction Lock} {i j k : Nat} {t u : Holder Transaction Lock}
  {ρ : Uuid → Nat → Nat} {x y : Lock}

/-! ## The programs keep to the plan -/

theorem along_reserveOne (item : Item) : Along (item.locks o) (StockReservationRepository.reserveOne o item) := by
  have hinsert : ∀ q, Along [.reservation o item.offerId] (StockReservationRepository.insert o item.offerId q) := by
    intro q s
    change Along _ (Prog.bind (Prog.ret _) _)
    rw [Prog.ret_bind]
    split
    · trivial
    · intro s
      change Along _ (Prog.bind (Prog.ret _) _)
      rw [Prog.ret_bind]
      split
      · trivial
      · exact along_exec _ _
  unfold StockReservationRepository.reserveOne
  split
  · trivial
  · intro s
    change Along ([Lock.reservation o item.offerId] ++ [Lock.offer item.offerId]) _
    apply (hinsert item.quantity).bind
    intro inserted
    split
    · change Along ([Lock.offer item.offerId] ++ []) _
      apply (along_exec _ _).bind
      intro held
      trivial
    · trivial

theorem along_reserveEach : Along (items.flatMap (Item.locks o)) (StockReservationRepository.reserveEach o items) := by
  induction items with
  | nil => trivial
  | cons item items ih =>
    rw [List.flatMap_cons]
    apply (along_reserveOne item).bind
    intro outcome
    rw [← List.append_nil (items.flatMap _)]
    exact ih.bind fun _ => trivial

/-- A reserve takes its locks in the order of its plan. -/
theorem along_reserve : Along (plan (.reserve o items)) (StockReservationRepository.reserve o items) :=
  along_reserveEach

/-- Joined row by row, a release takes each row and then its offer. -/
theorem along_releaseEach (ids : List Nat) : Along (ids.flatMap fun f => [Lock.reservation o f, .offer f])
    (StockReservationRepository.releaseEach o ids) := by
  induction ids with
  | nil => trivial
  | cons f ids ih =>
    rw [List.flatMap_cons]
    change Along ([Lock.reservation o f] ++ ([Lock.offer f] ++ _)) _
    apply (along_exec _ _).bind
    intro row
    split
    · apply (along_exec _ _).bind
      intro updated
      rw [← List.append_nil (ids.flatMap _)]
      exact ih.bind fun _ => trivial
    · exact ih.later [.offer f]

/-! ## No cycle -/

/-- The rank of a lock for who waits on it. -/
def rank (ρ : Uuid → Nat → Nat) : Transaction → Lock → Nat ×ₗ Nat
  | .release _, .reservation o f => toLex (0, ρ o f)
  | .reserve _ _, .reservation _ f => toLex (1, 2 * f)
  | _, .offer f => toLex (1, 2 * f + 1)

/-- The rank of the lock that comes next. -/
def waitRank (ρ : Uuid → Nat → Nat) (s : Locks Transaction Lock) (i : Nat) : Nat ×ₗ Nat :=
  match s i with
  | some ⟨q, _, k :: _⟩ => rank ρ q k
  | _ => toLex (0, 0)

theorem waitRank_eq {rest : List Lock} (hi : s i = some t) (hw : t.wants = x :: rest) :
    waitRank ρ s i = rank ρ t.request x := by
  obtain ⟨q, held, wants⟩ := t
  unfold waitRank
  rw [hi]
  change wants = x :: rest at hw
  rw [hw]

theorem plan_ascends : (plan (.reserve o items)).Pairwise fun x y => x.offerId ≤ y.offerId := by
  unfold plan
  rw [List.pairwise_flatMap]
  constructor
  · intro item _
    simp [Item.locks, Lock.offerId]
  · apply (List.pairwise_insertionSort (fun left right : Item => left.offerId ≤ right.offerId) items).imp
    intro a b hab x hx y hy
    simp only [Item.locks, List.mem_cons, List.not_mem_nil, or_false] at hx hy
    rcases hx with rfl | rfl <;> rcases hy with rfl | rfl <;> exact hab

theorem plan_own {o' : Uuid} {f : Nat} (h : .reservation o' f ∈ plan (.reserve o items)) : o' = o := by
  obtain ⟨item, _, hin⟩ := List.mem_flatMap.mp h
  simp only [Item.locks, List.mem_cons, Lock.reservation.injEq, reduceCtorEq, List.not_mem_nil, or_false] at hin
  exact hin.1

/-- A reserve takes the row of an offer before the offer. -/
theorem row_before_offer {f : Nat} {l₁ l₂ : List Lock} (h : items.flatMap (Item.locks o) = l₁ ++ .offer f :: l₂) :
    .reservation o f ∈ l₁ := by
  induction items generalizing l₁ with
  | nil => simp at h
  | cons item items ih =>
    rw [List.flatMap_cons] at h
    cases l₁ with
    | nil => simp [Item.locks] at h
    | cons k l =>
      cases l with
      | nil =>
        simp only [Item.locks, List.cons_append, List.nil_append, List.cons.injEq, Lock.offer.injEq] at h
        rw [← h.1, h.2.1]
        exact List.mem_cons_self
      | cons k' l =>
        simp only [Item.locks, List.cons_append, List.nil_append, List.cons.injEq] at h
        exact List.mem_cons_of_mem _ (List.mem_cons_of_mem _ (ih h.2.2))

theorem late_lt {a b : Nat} (h : a < b) : (toLex (1, a) : Nat ×ₗ Nat) < toLex (1, b) :=
  Prod.Lex.toLex_lt_toLex.mpr (Or.inr ⟨rfl, h⟩)

theorem rank_offer (q : Transaction) (f : Nat) : rank ρ q (.offer f) = toLex (1, 2 * f + 1) := by
  cases q <;> rfl

/-- What a reserve waits for ranks above all it holds. -/
theorem rank_reserve {held rest : List Lock} (h : plan (.reserve o items) = held ++ y :: rest) (hx : x ∈ held)
    (hnot : y ∉ held) : rank ρ (.reserve o items) x < rank ρ (.reserve o items) y := by
  have hle : x.offerId ≤ y.offerId := by
    have hall : (plan (.reserve o items)).Pairwise fun x y => x.offerId ≤ y.offerId := plan_ascends
    rw [h, List.pairwise_append] at hall
    exact hall.2.2 x hx y List.mem_cons_self
  have hxin : x ∈ plan (.reserve o items) := by
    rw [h]
    exact List.mem_append_left _ hx
  have hyin : y ∈ plan (.reserve o items) := by
    rw [h]
    exact List.mem_append_right _ List.mem_cons_self
  have hne : x ≠ y := fun heq => hnot (heq ▸ hx)
  cases x with
  | reservation a f =>
    have ha : a = o := plan_own hxin
    cases y with
    | reservation b g =>
      have hb : b = o := plan_own hyin
      have hfg : f ≠ g := fun hfg => hne (by rw [ha, hb, hfg])
      have hlt : f ≤ g := hle
      exact late_lt (by omega)
    | offer g =>
      have hlt : f ≤ g := hle
      exact late_lt (by omega)
  | offer f =>
    cases y with
    | reservation b g =>
      have hfg : f ≠ g := by
        intro hfg
        obtain ⟨l₁, l₂, hsplit⟩ := List.append_of_mem hx
        have hplan := h
        rw [hsplit, List.append_assoc] at hplan
        have hrow := row_before_offer hplan
        apply hnot
        rw [hsplit, plan_own hyin, ← hfg]
        exact List.mem_append_left _ hrow
      have hlt : f ≤ g := hle
      exact late_lt (by omega)
    | offer g =>
      have hfg : f ≠ g := fun hfg => hne (by rw [hfg])
      have hlt : f ≤ g := hle
      exact late_lt (by omega)

/-- Of two transactions that share a row and both hold locks, either both reserve or both lock their rows first. -/
theorem agree_cases {f : Nat} (hs : Sound plan s) (hij : i ≠ j) (hi : s i = some t) (hj : s j = some u)
    (hagree : Agree ρ t.request u.request) (ht : t.held ≠ []) (hu : u.held ≠ [])
    (hrow : .reservation o f ∈ plan t.request) (hrow' : .reservation o f ∈ plan u.request) :
    (∃ a b l l', t.request = .reserve a l ∧ u.request = .reserve b l') ∨
      ∃ r r', t.request = .release r ∧ u.request = .release r' ∧
        r.locks.Pairwise (RowsFirst ρ) ∧ r'.locks.Pairwise (RowsFirst ρ) := by
  generalize hp : t.request = p at hagree hrow
  generalize hq : u.request = q at hagree hrow'
  cases hagree with
  | apart h => exact absurd hrow' (h o f hrow)
  | reserves => exact Or.inl ⟨_, _, _, _, rfl, rfl⟩
  | gate h =>
    refine absurd (hs.gate hij hi hj ?_ hu) ht
    rw [hp, hq, h]
  | releases hr hr' => exact Or.inr ⟨_, _, rfl, rfl, hr, hr'⟩

/-- Along waits that a cycle is made of, the rank grows. -/
theorem rank_lt {a b c d : Nat} (hs : Sound plan s)
    (hoffers : ∀ i t r, s i = some t → t.request = .release r → r.locks.Pairwise OffersAscend)
    (hrows : ∀ i j t u, i ≠ j → s i = some t → s j = some u → Agree ρ t.request u.request)
    (hab : Waits s a b) (hbc : Waits s b c) (hcd : Waits s c d) : waitRank ρ s b < waitRank ρ s c := by
  cases hbc with
  | @intro t u x rest hne ht htw hu hx =>
  cases hcd with
  | @intro u' v y rest' hne' hu' huw hv hy =>
  cases hab with
  | @intro _ t' w _ _ _ _ ht' hw =>
  obtain rfl : u = u' := Option.some.inj (hu.symm.trans hu')
  obtain rfl : t = t' := Option.some.inj (ht.symm.trans ht')
  have htheld : t.held ≠ [] := List.ne_nil_of_mem hw
  have huheld : u.held ≠ [] := List.ne_nil_of_mem hx
  have hvheld : v.held ≠ [] := List.ne_nil_of_mem hy
  have hnot : y ∉ u.held := fun hin => hs.alone c d u v y hne' hu hv hin hy
  have hplan : plan u.request = u.held ++ y :: rest' := by rw [← huw, hs.along c u hu]
  rw [waitRank_eq ht htw, waitRank_eq hu huw]
  cases x with
  | reservation o f =>
    have hcases := agree_cases hs hne ht hu (hrows b c t u hne ht hu) htheld huheld (hs.wants_mem ht htw)
      (hs.held_mem hu hx)
    rcases hcases with ⟨o₁, o₂, l, l', hp, hq⟩ | ⟨r, r', hp, hq, _, hr'⟩
    · rw [hq] at hplan
      rw [hp, hq]
      exact rank_reserve hplan hx hnot
    · have hord : RowsFirst ρ (.reservation o f) y := by
        refine hs.before hu ?_ hx huw
        rw [hq]
        exact hr'
      rw [hp, hq]
      cases y with
      | reservation p g => exact Prod.Lex.toLex_lt_toLex.mpr (Or.inr ⟨rfl, hord⟩)
      | offer g => exact Prod.Lex.toLex_lt_toLex.mpr (Or.inl Nat.zero_lt_one)
  | offer f =>
    cases hq : u.request with
    | reserve o items =>
      rw [hq] at hplan
      rw [rank_offer, ← rank_offer (.reserve o items)]
      exact rank_reserve hplan hx hnot
    | release r =>
      have hord : OffersAscend (.offer f) y := by
        refine hs.before hu ?_ hx huw
        rw [hq]
        exact hoffers c u r hu hq
      cases y with
      | reservation p g =>
        have hcases := agree_cases hs hne' hu hv (hrows c d u v hne' hu hv) huheld hvheld (hs.wants_mem hu huw)
          (hs.held_mem hv hy)
        rcases hcases with ⟨_, _, _, _, hp, _⟩ | ⟨r₁, _, hp, _, hr, _⟩
        · rw [hq] at hp
          cases hp
        · have hfirst : RowsFirst ρ (.offer f) (.reservation p g) := by
            refine hs.before hu ?_ hx huw
            rw [hp]
            exact hr
          exact hfirst.elim
      | offer g =>
        have hfg : f < g := hord
        rw [rank_offer, rank_offer]
        exact late_lt (by omega)

theorem free_of_ordered {tr : List (Locks Transaction Lock × Event Transaction)} (hr : Run (Step plan) idle tr s)
    (h : Ordered s) : ¬ Deadlock s := by
  obtain ⟨ρ, hrows⟩ := h.rows
  apply not_deadlock (waitRank ρ s)
  intro a b c d hab hbc hcd
  exact rank_lt (sound_of_run hr) h.offers hrows hab hbc hcd

/-! ## The unordered join -/

/-- The items of a reserve that crosses a release which meets `f` before `g`. -/
def crossingItems (f g : Nat) (hf : 0 < f) (hg : 0 < g) : List Item :=
  [⟨g, 1, hg, Nat.zero_lt_one⟩, ⟨f, 1, hf, Nat.zero_lt_one⟩]

theorem plan_crossing {f g : Nat} (hf : 0 < f) (hg : 0 < g) (hgf : g < f) (o : Uuid) :
    plan (.reserve o (crossingItems f g hf hg)) = [.reservation o g, .offer g, .reservation o f] ++ .offer f :: [] := by
  have hsorted : (crossingItems f g hf hg).Pairwise fun left right => left.offerId ≤ right.offerId := by
    simpa [crossingItems] using hgf.le
  change ((List.insertionSort _ _).flatMap _ : List Lock) = _
  rw [hsorted.insertionSort_eq]
  rfl

/-- A release that meets an offer before a smaller one. -/
theorem exists_descent {r : Release} (h : ¬ r.locks.Pairwise OffersAscend) : ∃ f g l₁ l₂ l₃, g < f ∧
    r.locks = (l₁ ++ l₂) ++ .offer g :: l₃ ∧ .offer f ∈ l₁ := by
  rw [List.pairwise_iff_forall_sublist] at h
  push Not at h
  obtain ⟨x, y, hsub, hxy⟩ := h
  obtain ⟨l₁, l, hsplit, hx, hy⟩ := List.cons_sublist_iff.mp hsub
  obtain ⟨l₂, l₃, hl⟩ := List.append_of_mem (List.singleton_sublist.mp hy)
  cases x with
  | reservation o f => exact absurd trivial hxy
  | offer f =>
    cases y with
    | reservation o g => exact absurd trivial hxy
    | offer g =>
      have hle : ¬ f < g := hxy
      have hne : g ≠ f := by
        intro heq
        have hnodup := r.nodup
        rw [hsplit, List.nodup_append] at hnodup
        refine hnodup.2.2 _ hx _ (List.singleton_sublist.mp hy) ?_
        rw [heq]
      refine ⟨f, g, l₁, l₂, l₃, by omega, ?_, hx⟩
      rw [hsplit, hl, List.append_assoc]

/-- It deadlocks with the reserve of these two offers. -/
theorem deadlock_of_descent {r : Release} (h : ¬ r.locks.Pairwise OffersAscend) :
    ∃ o items tr s, Run (Step plan) idle tr s ∧ Deadlock s ∧
      ∀ i t, s i = some t → t.request = .release r ∨ t.request = .reserve o items := by
  obtain ⟨f, g, l₁, l₂, l₃, hgf, hl, hf⟩ := exists_descent h
  have hfin : .offer f ∈ r.locks := by
    rw [hl]
    exact List.mem_append_left _ (List.mem_append_left _ hf)
  have hgin : .offer g ∈ r.locks := by
    rw [hl]
    exact List.mem_append_right _ List.mem_cons_self
  have hg0 := r.positive g hgin
  have hf0 := r.positive f hfin
  refine ⟨r.orderPublicId + 1, crossingItems f g hf0 hg0, ?_⟩
  apply crossing (p := .release r) hl (plan_crossing hf0 hg0 hgf _) (List.mem_append_left _ hf) (by simp)
  have hother : ∀ k, .reservation (r.orderPublicId + 1) k ∉ l₁ ++ l₂ := by
    intro k hk
    have hin : .reservation (r.orderPublicId + 1) k ∈ r.locks := by
      rw [hl]
      exact List.mem_append_left _ hk
    exact Nat.succ_ne_self _ (r.own _ _ hin)
  have hgnot : .offer g ∉ l₁ ++ l₂ := by
    intro hk
    have hnodup := r.nodup
    rw [hl, List.nodup_append] at hnodup
    exact hnodup.2.2 _ hk _ List.mem_cons_self rfl
  intro k hk
  simp only [List.mem_cons, List.not_mem_nil, or_false] at hk
  rcases hk with rfl | rfl | rfl
  · exact hother g
  · exact hgnot
  · exact hother f

end

/-- Reserves and releases that are ordered never wait in a cycle; a release whose join does not ascend
waits in a cycle with some reserve. -/
theorem waits_acyclic (tr : List (Locks Transaction Lock × Event Transaction)) (s : Locks Transaction Lock)
    (r : Release) :
    (Run (Step plan) idle tr s → Ordered s → ¬ Deadlock s) ∧
    (¬ r.locks.Pairwise OffersAscend → ∃ o items tr s, Run (Step plan) idle tr s ∧ Deadlock s ∧
      ∀ i t, s i = some t → t.request = .release r ∨ t.request = .reserve o items) :=
  ⟨fun hr ho => free_of_ordered hr ho, deadlock_of_descent⟩

/-- The release of an order of two offers whose join meets the second one first. -/
def descending : Release := .rowsThenOffers 1 [1, 2] [2, 1] (by decide) (by decide) (by decide) (by decide)

def ascending : Release := .rowsThenOffers 1 [1, 2] [1, 2] (by decide) (by decide) (by decide) (by decide)

theorem waits_acyclic_refuted : ∃ tr s, Run (Step plan) idle tr s ∧ Deadlock s ∧ ∀ i t, s i = some t →
    t.request = .release descending ∨ t.request = .reserve 2 (crossingItems 2 1 (by decide) (by decide)) := by
  have hrelease : plan (.release descending) =
      [.reservation 1 1, .reservation 1 2, .offer 2] ++ .offer 1 :: [] := rfl
  have hreserve := plan_crossing (f := 2) (g := 1) (by decide) (by decide) (by decide) 2
  exact crossing hrelease hreserve (by decide) (by decide) (by decide)

/-- A reserve waits for the offer an ascending release holds. -/
theorem waits_acyclic_ascending : (∃ tr s, Run (Step plan) idle tr s ∧ Waits s 1 0 ∧ ¬ Deadlock s) ∧
    ∃ o items tr s, Run (Step plan) idle tr s ∧ Deadlock s ∧
      ∀ i t, s i = some t → t.request = .release descending ∨ t.request = .reserve o items := by
  have hreserve : plan (.reserve 2 (crossingItems 2 1 (by decide) (by decide))) =
      [.reservation 2 1] ++ [.offer 1, .reservation 2 2, .offer 2] :=
    plan_crossing (by decide) (by decide) (by decide) 2
  have hrelease : plan (.release ascending) =
      [.reservation 1 1, .reservation 1 2, .offer 1] ++ [.offer 2] := rfl
  obtain ⟨tr, hr⟩ := run_pair hrelease hreserve (by decide)
  constructor
  · refine ⟨tr, _, hr, .intro (by decide) rfl rfl rfl (by decide),
      (waits_acyclic tr _ ascending).1 hr ⟨?_, fun _ _ => 0, ?_⟩⟩
    · intro i t r hi hreq
      rcases pair_cases hi with ⟨_, rfl⟩ | ⟨_, rfl⟩
      · cases hreq
        simp [ascending, Release.rowsThenOffers, OffersAscend]
      · cases hreq
    · intro i j t u hij hi hj
      rcases pair_cases hi with ⟨hi0, rfl⟩ | ⟨hi1, rfl⟩ <;> rcases pair_cases hj with ⟨hj0, rfl⟩ | ⟨hj1, rfl⟩
      · omega
      · refine .apart fun o f hp hq => ?_
        have ho := plan_own hq
        have ho' := ascending.own o f hp
        cases ho.symm.trans ho'
      · refine .apart fun o f hp hq => ?_
        have ho := plan_own hp
        have ho' := ascending.own o f hq
        cases ho.symm.trans ho'
      · omega
  · apply (waits_acyclic [] idle descending).2
    simp [descending, Release.rowsThenOffers, OffersAscend]

end MarketplaceApi.Stock
