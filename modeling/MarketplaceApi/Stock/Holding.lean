import MarketplaceApi.Stock.Decision

/-!
# The reservations of one order

An order that is always reserved with the same items has no row, a holding row for each
item, or a released row for each item. The phases are the specification; the tables refine
them, commit by commit.
-/
namespace MarketplaceApi.Stock

open Txn StockReservationRepository

/-- What has happened to the stock of an order so far. -/
inductive Phase where
  | unreserved
  | held
  | released
  deriving DecidableEq

def Phase.reserve : Phase → Phase
  | .unreserved => .held
  | p => p

def Phase.release : Phase → Phase
  | .held => .released
  | p => p

section
variable (o : Uuid) (items : List Item)

def rowsFor (status : ReservationStatus) (f : Nat) : List Reservation :=
  (items.filter fun item => item.offerId = f).map fun item => ⟨o, item.offerId, item.quantity, status⟩

/-- The rows of the order under one offer. -/
def Phase.rowsAt (f : Nat) : Phase → List Reservation
  | .unreserved => []
  | .held => rowsFor o items .reserved f
  | .released => rowsFor o items .released f

/-- The tables show the order in this phase. -/
def InPhase (s : Tables) (p : Phase) : Prop := ∀ f, s.rowsAt o f = p.rowsAt o items f

/-- The stock that orders other than this one hold of an offer. -/
def Tables.heldByOthers (s : Tables) (f : Nat) : Int :=
  ((s.reservations.filter fun r => r.orderPublicId ≠ o ∧ r.offerId = f ∧ r.active).map
    fun r => (r.quantity : Int)).sum

end

def Request.order : Request → Uuid
  | .reserve o _ => o
  | .release o => o

section
variable {o p : Uuid} {f : Nat} {items : List Item} {s s' : Tables} {offer : Offer} {item : Item}

theorem mem_activeOffers : f ∈ activeOffers s o ↔ ∃ r ∈ s.rowsAt o f, r.active = true := by
  unfold activeOffers Tables.rowsAt
  simp only [List.mem_map, List.mem_filter, Reservation.hasKey, decide_eq_true_eq]
  constructor
  · rintro ⟨r, ⟨hin, ho, hact⟩, hf⟩
    exact ⟨r, ⟨hin, ho, hf⟩, hact⟩
  · rintro ⟨r, ⟨hin, ho, hf⟩, hact⟩
    exact ⟨r, ⟨hin, ho, hact⟩, hf⟩

theorem mem_rowsFor {status : ReservationStatus} {r : Reservation} : r ∈ rowsFor o items status f ↔
    ∃ item ∈ items, item.offerId = f ∧ r = ⟨o, item.offerId, item.quantity, status⟩ := by
  unfold rowsFor
  simp only [List.mem_map, List.mem_filter, decide_eq_true_eq]
  constructor
  · rintro ⟨item, ⟨hin, hf⟩, hr⟩
    exact ⟨item, hin, hf, hr.symm⟩
  · rintro ⟨item, hin, hf, hr⟩
    exact ⟨item, ⟨hin, hf⟩, hr.symm⟩

theorem rowsAt_heldOne : (heldOne s o item offer).rowsAt p f =
    if o = p ∧ item.offerId = f then ⟨o, item.offerId, item.quantity, .reserved⟩ :: s.rowsAt p f
    else s.rowsAt p f := by
  rw [heldOne, setOffer_rowsAt, rowsAt_addReservation]
  simp only [Reservation.hasKey, decide_eq_true_eq]

/-- A request of one order leaves the rows of every other. -/
theorem reserved_other (h : Reserved o items s s') (hp : o ≠ p) : s'.rowsAt p f = s.rowsAt p f := by
  induction h with
  | nil => rfl
  | skip _ _ ih => exact ih
  | hold _ _ _ _ _ ih => rw [ih, rowsAt_heldOne, if_neg fun h => hp h.1]

theorem released_other {offerIds : List Nat} (h : Released o offerIds s s') (hp : o ≠ p) :
    s'.rowsAt p f = s.rowsAt p f := by
  induction h with
  | nil => rfl
  | skip _ _ ih => exact ih
  | release _ _ _ _ _ ih =>
    rw [ih]
    exact rowsAt_setReleased_other _ _ _ _ _ fun h => hp h.1.symm
  | orphan _ _ _ _ ih => rw [ih, rowsAt_setReleased_other _ _ _ _ _ fun h => hp h.1.symm]

/-- Where no item has a row, a reserve that commits inserts one for each. -/
theorem reserved_rowsAt (h : Reserved o items s s') (hn : (items.map Item.offerId).Nodup)
    (hno : ∀ item ∈ items, s.hasRow o item.offerId = false) :
    s'.rowsAt o f = rowsFor o items .reserved f ++ s.rowsAt o f := by
  induction h with
  | nil => rfl
  | skip hrow _ _ =>
    rw [hno _ List.mem_cons_self] at hrow
    cases hrow
  | @hold item items s s' offer _ _ _ _ _ ih =>
    rw [List.map_cons, List.nodup_cons] at hn
    have hrest : ∀ i ∈ items, (heldOne s o item offer).hasRow o i.offerId = false := by
      intro i hi
      have hne : item.offerId ≠ i.offerId := fun heq => hn.1 (heq ▸ List.mem_map_of_mem hi)
      rw [hasRow_heldOne, hno i (List.mem_cons_of_mem _ hi)]
      simp [hne]
    rw [ih hn.2 hrest, rowsAt_heldOne]
    unfold rowsFor
    by_cases hf : item.offerId = f
    · have hnone : items.filter (fun i => i.offerId = f) = [] := by
        refine List.filter_eq_nil_iff.mpr fun i hi hif => hn.1 ?_
        rw [hf, ← of_decide_eq_true hif]
        exact List.mem_map_of_mem hi
      rw [List.filter_cons_of_pos (by simpa using hf), hnone, if_pos ⟨rfl, hf⟩]
      rfl
    · rw [List.filter_cons_of_neg (by simpa using hf), if_neg fun h => hf h.2]

theorem hasRow_of_rowsAt : s.hasRow o f = !(s.rowsAt o f).isEmpty := by
  unfold Tables.hasRow Tables.row?
  cases s.rowsAt o f <;> rfl

theorem release_rowsFor :
    (rowsFor o items .reserved f).map (fun r => r.release o f) = rowsFor o items .released f := by
  unfold rowsFor
  rw [List.map_map]
  refine List.map_congr_left fun item hitem => ?_
  have hf : item.offerId = f := of_decide_eq_true (List.mem_filter.mp hitem).2
  simp [Reservation.release, Reservation.hasKey, Reservation.active, hf]

theorem rowsFor_length (hn : (items.map Item.offerId).Nodup) (status : ReservationStatus) :
    (rowsFor o items status f).length ≤ 1 := by
  have hcount := List.nodup_iff_count_le_one.mp hn f
  rw [List.count_eq_countP, List.countP_map, List.countP_eq_length_filter] at hcount
  unfold rowsFor
  rw [List.length_map]
  refine Nat.le_trans (Nat.le_of_eq ?_) hcount
  exact congrArg List.length (List.filter_congr fun item _ => (beq_eq_decide _ _).symm)

theorem rowsFor_perm {sorted : List Item} (hn : (items.map Item.offerId).Nodup) (hp : sorted.Perm items)
    (status : ReservationStatus) : rowsFor o sorted status f = rowsFor o items status f := by
  have hperm : (rowsFor o sorted status f).Perm (rowsFor o items status f) := (hp.filter _).map _
  have hlen := rowsFor_length (o := o) (f := f) hn status
  cases hrows : rowsFor o items status f with
  | nil =>
    rw [hrows] at hperm
    exact hperm.eq_nil
  | cons r rows =>
    rw [hrows] at hperm hlen
    obtain rfl : rows = [] := by simpa using hlen
    exact List.perm_singleton.mp hperm

theorem release_inactive {r : Reservation} (h : r.active = false) : r.release o f = r := by
  simp [Reservation.release, h]

theorem release_release (r : Reservation) : (r.release o f).release o f = r.release o f := by
  by_cases h : r.hasKey o f ∧ r.active
  · have hact : (r.release o f).active = false := by rw [release_active, h.1, Bool.not_true, Bool.and_false]
    exact release_inactive hact
  · have hsame : r.release o f = r := if_neg h
    rw [hsame, hsame]

/-- Releasing one offer more. -/
theorem rowsAt_setReleased_cons (g : Nat) (offerIds : List Nat) :
    (if f ∈ offerIds then ((s.setReleased o g).rowsAt o f).map fun r => r.release o f
      else (s.setReleased o g).rowsAt o f) =
    if f ∈ g :: offerIds then (s.rowsAt o f).map fun r => r.release o f else s.rowsAt o f := by
  by_cases hf : f = g
  · subst hf
    have htwice : ((fun r => r.release o f) ∘ fun r : Reservation => r.release o f) =
        fun r => r.release o f := funext release_release
    rw [rowsAt_setReleased, List.map_map, htwice, ite_self, if_pos List.mem_cons_self]
  · rw [rowsAt_setReleased_other _ _ _ _ _ fun h => hf h.2]
    simp only [List.mem_cons, hf, false_or]

theorem row?_of_mem {r : Reservation} (hkey : (s.rowsAt o f).length ≤ 1) (hr : r ∈ s.rowsAt o f) :
    s.row? o f = some r := by
  unfold Tables.row?
  cases hrows : s.rowsAt o f with
  | nil =>
    rw [hrows] at hr
    cases hr
  | cons x rows =>
    rw [hrows] at hr hkey
    obtain rfl : rows = [] := by simpa using hkey
    rw [List.mem_singleton.mp hr]
    rfl

theorem setReleased_inactive (hkey : (s.rowsAt o f).length ≤ 1)
    (hrow : ∀ r, s.row? o f = some r → r.active = false) : s.setReleased o f = s := by
  have hsame : ∀ r ∈ s.reservations, r.release o f = r := by
    intro r hr
    cases hk : r.hasKey o f with
    | true => exact release_inactive (hrow r (row?_of_mem hkey (List.mem_filter.mpr ⟨hr, hk⟩)))
    | false => exact release_other o f r hk
  unfold Tables.setReleased
  rw [List.map_congr_left hsame, List.map_id']

/-- Under the primary key, a release of these offers releases every row of the order under them. -/
theorem released_rowsAt {offerIds : List Nat} (h : Released o offerIds s s')
    (hkey : ∀ f, (s.rowsAt o f).length ≤ 1) : s'.rowsAt o f =
      if f ∈ offerIds then (s.rowsAt o f).map fun r => r.release o f else s.rowsAt o f := by
  induction h with
  | nil => rfl
  | @skip g offerIds s s' hrow _ ih =>
    rw [ih hkey, ← rowsAt_setReleased_cons, setReleased_inactive (hkey g) hrow]
  | @release g offerIds s s' r offer _ _ _ _ _ ih =>
    have hkey' : ∀ f, ((s.setReleased o g).rowsAt o f).length ≤ 1 := by
      intro f
      rw [rowsAt_setReleased, List.length_map]
      exact hkey f
    rw [← rowsAt_setReleased_cons]
    exact ih hkey'
  | @orphan g offerIds s s' r _ _ _ _ ih =>
    have hkey' : ∀ f, ((s.setReleased o g).rowsAt o f).length ≤ 1 := by
      intro f
      rw [rowsAt_setReleased, List.length_map]
      exact hkey f
    rw [← rowsAt_setReleased_cons]
    exact ih hkey'

variable {status : Status} {ph : Phase}

theorem InPhase.length_le (h : InPhase o items s ph) (hn : (items.map Item.offerId).Nodup) (f : Nat) :
    (s.rowsAt o f).length ≤ 1 := by
  rw [h f]
  cases ph with
  | unreserved => exact Nat.zero_le 1
  | held => exact rowsFor_length hn _
  | released => exact rowsFor_length hn _

/-- Requests of other orders do not change the phase. -/
theorem InPhase.other {q : Request} (h : InPhase o items s ph) (hc : Commit q s s' status)
    (hq : q.order ≠ o) : InPhase o items s' ph := by
  intro f
  rw [← h f]
  cases hc with
  | reserved hr => exact reserved_other hr hq
  | released hr => exact released_other hr hq

/-- An item has a row unless the order is unreserved. -/
theorem InPhase.hasRow (h : InPhase o items s ph) (hp : ph ≠ .unreserved) :
    ∀ item ∈ items, s.hasRow o item.offerId = true := by
  intro item hitem
  have hrow : ∀ st, rowsFor o items st item.offerId ≠ [] := fun st =>
    List.ne_nil_of_mem (mem_rowsFor.mpr ⟨item, hitem, rfl, rfl⟩)
  rw [hasRow_of_rowsAt, h item.offerId]
  cases ph with
  | unreserved => exact absurd rfl hp
  | held => simpa [Phase.rowsAt] using hrow .reserved
  | released => simpa [Phase.rowsAt] using hrow .released

theorem InPhase.no_row (h : InPhase o items s .unreserved) (f : Nat) : s.hasRow o f = false := by
  rw [hasRow_of_rowsAt, h f]
  rfl

/-- A reserve that commits takes an unreserved order to `held` and changes nothing later. -/
theorem InPhase.reserve (h : InPhase o items s ph) (hn : (items.map Item.offerId).Nodup)
    (hc : Commit (.reserve o items) s s' status) : InPhase o items s' ph.reserve := by
  cases hc with
  | reserved hr =>
    have hperm := List.perm_insertionSort (fun left right : Item => left.offerId ≤ right.offerId) items
    by_cases hp : ph = .unreserved
    · subst hp
      intro f
      have hsorted := reserved_rowsAt (f := f) hr ((hperm.map Item.offerId).nodup_iff.mpr hn)
        fun item _ => h.no_row item.offerId
      rw [hsorted, h f, rowsFor_perm hn hperm]
      exact List.append_nil _
    · have hsame := reserved_of_rows hr fun item hitem => h.hasRow hp item (hperm.mem_iff.mp hitem)
      rw [hsame]
      cases ph with
      | unreserved => exact absurd rfl hp
      | held => exact h
      | released => exact h

/-- Rows are never deleted. -/
theorem hasRow_commit {q : Request} (hc : Commit q s s' status) {p : Uuid} (hrow : s.hasRow p f = true) :
    s'.hasRow p f = true := by
  cases hc with
  | reserved hr => exact reserved_grows hr hrow
  | released hr =>
    induction hr with
    | nil => exact hrow
    | skip _ _ ih => exact ih hrow
    | release _ _ _ _ _ ih => exact ih ((hasRow_setReleased _ _ _ _ _).trans hrow)
    | orphan _ _ _ _ ih => exact ih ((hasRow_setReleased _ _ _ _ _).trans hrow)

theorem activeOffers_of_phase (h : InPhase o items s ph) (hp : ph ≠ .held) : activeOffers s o = [] := by
  refine List.eq_nil_iff_forall_not_mem.mpr fun f hf => ?_
  obtain ⟨r, hr, hact⟩ := mem_activeOffers.mp hf
  rw [h f] at hr
  cases ph with
  | unreserved => cases hr
  | held => exact hp rfl
  | released =>
    obtain ⟨item, _, _, rfl⟩ := mem_rowsFor.mp hr
    cases hact

/-- A release that commits takes a held order to `released` and changes nothing otherwise. -/
theorem InPhase.release (h : InPhase o items s ph) (hn : (items.map Item.offerId).Nodup)
    (hr : Released o (activeOffers s o) s s') : InPhase o items s' ph.release := by
  by_cases hp : ph = .held
  · subst hp
    intro f
    rw [released_rowsAt hr (h.length_le hn), h f]
    change _ = rowsFor o items .released f
    rw [← release_rowsFor]
    by_cases hf : f ∈ activeOffers s o
    · rw [if_pos hf]
      rfl
    · have hnone : rowsFor o items .reserved f = [] := by
        refine List.eq_nil_iff_forall_not_mem.mpr fun r hmem => hf (mem_activeOffers.mpr ⟨r, ?_, ?_⟩)
        · rw [h f]
          exact hmem
        · obtain ⟨item, _, _, rfl⟩ := mem_rowsFor.mp hmem
          rfl
      rw [if_neg hf, hnone]
      exact hnone
  · rw [activeOffers_of_phase h hp] at hr
    cases hr
    cases ph with
    | unreserved => exact h
    | held => exact absurd rfl hp
    | released => exact h

/-- A held order holds every item with its quantity. -/
theorem InPhase.holds (h : InPhase o items s .held) : ∀ item ∈ items, ∃ r ∈ s.reservations,
    r.orderPublicId = o ∧ r.offerId = item.offerId ∧ r.quantity = item.quantity ∧ r.active = true := by
  intro item hitem
  have hrow : (⟨o, item.offerId, item.quantity, .reserved⟩ : Reservation) ∈ s.rowsAt o item.offerId := by
    rw [h item.offerId]
    exact mem_rowsFor.mpr ⟨item, hitem, rfl, rfl⟩
  exact ⟨_, (List.mem_filter.mp hrow).1, rfl, rfl, rfl, rfl⟩

theorem InPhase.activeOffers (h : InPhase o items s .held) (hitem : item ∈ items) :
    activeOffers s o ≠ [] := by
  obtain ⟨r, hin, ho, hf, _, hact⟩ := h.holds item hitem
  have hmem : r ∈ s.rowsAt o item.offerId := List.mem_filter.mpr ⟨hin, by simp [Reservation.hasKey, ho, hf]⟩
  exact List.ne_nil_of_mem (mem_activeOffers.mpr ⟨r, hmem, hact⟩)

/-- Whether the order holds stock is read off its phase. -/
theorem InPhase.activeOffers_iff (h : InPhase o items s ph) (hitems : ph = .held → items ≠ []) :
    StockReservationRepository.activeOffers s o = [] ↔ ph ≠ .held := by
  refine ⟨?_, activeOffers_of_phase h⟩
  rintro hnone rfl
  obtain ⟨item, hitem⟩ := List.exists_mem_of_ne_nil items (hitems rfl)
  exact h.activeOffers hitem hnone

/-- An order without an active reservation contributes nothing to the counters. -/
theorem held_of_inactive (h : StockReservationRepository.activeOffers s o = []) (f : Nat) :
    s.held f = s.heldByOthers o f := by
  unfold Tables.held Tables.heldByOthers
  refine congrArg (fun rows : List Reservation => (rows.map fun r => (r.quantity : Int)).sum) ?_
  refine List.filter_congr fun r hr => decide_eq_decide.mpr ⟨fun hact => ⟨fun ho => ?_, hact⟩, fun hact => hact.2⟩
  have hmem : r.offerId ∈ StockReservationRepository.activeOffers s o :=
    List.mem_map.mpr ⟨r, List.mem_filter.mpr ⟨hr, by simp [ho, hact.2]⟩, rfl⟩
  rw [h] at hmem
  cases hmem

/-- Run alone, a release gives back whatever was active. -/
theorem released_of_run (h : (handler (.release o)).run s = .ok (s', status)) :
    Released o (StockReservationRepository.activeOffers s o) s s' := by
  obtain ⟨m, n, hm, hret⟩ := Prog.run_bind_ok h
  cases hret
  obtain ⟨m', ids, hids, heach⟩ := Prog.run_bind_ok hm
  rw [Prog.run_look] at hids
  cases hids
  exact exec_releaseEach (Exec.of_run (isolation.le_refl s) (safe_releaseEach s o _) heach)

end

end MarketplaceApi.Stock
