import MarketplaceApi.Stock.Commit

/-!
# The stock representation invariant

`reservedQuantity` is the sum of the active reservations and stays between zero and the
quantity on hand. The counter and the rows are written by separate statements, so the
invariant is one of committed states.
-/
namespace MarketplaceApi.Stock

open Txn Transition

/-- The counter counts the active rows and never leaves its range; keys are unique, offers exist. -/
structure Represented (s : Tables) : Prop where
  sum : ∀ f offer, s.offers f = some offer → offer.reservedQuantity = s.held f
  range : ∀ f offer, s.offers f = some offer →
    0 ≤ offer.reservedQuantity ∧ offer.reservedQuantity ≤ offer.onHandQuantity
  primaryKey : ∀ o f, (s.rowsAt o f).length ≤ 1
  foreignKey : ∀ r ∈ s.reservations, (s.offers r.offerId).isSome

section
variable {s s' : Tables} {orderPublicId : Uuid} {offerId : Nat} {offer : Offer}

/-- An offer whose stock is all free. -/
def Tables.stocked (offerId onHandQuantity : Nat) : Tables where
  offers f := if f = offerId then some ⟨onHandQuantity, 0, false⟩ else none
  reservations := []

theorem represented_stocked (offerId onHandQuantity : Nat) :
    Represented (.stocked offerId onHandQuantity) := by
  have found : ∀ f offer, (Tables.stocked offerId onHandQuantity).offers f = some offer →
      offer = ⟨onHandQuantity, 0, false⟩ := by
    intro f offer h
    by_cases e : f = offerId
    · simpa [Tables.stocked, e] using h.symm
    · simp [Tables.stocked, e] at h
  refine ⟨fun f offer h => ?_, fun f offer h => ?_, fun o f => ?_, fun r h => ?_⟩
  · rw [found f offer h]; rfl
  · rw [found f offer h]; exact ⟨Int.le_refl _, Int.natCast_nonneg _⟩
  · exact Nat.zero_le _
  · cases h

theorem rowsAt_of_hasRow (h : s.hasRow orderPublicId offerId = false) :
    s.rowsAt orderPublicId offerId = [] := by
  unfold Tables.hasRow Tables.row? at h
  cases hr : s.rowsAt orderPublicId offerId with
  | nil => rfl
  | cons r rows => rw [hr] at h; cases h

/-- Under the primary key, one active row is all its key holds. -/
theorem Represented.heldAt (hs : Represented s) {r : Reservation}
    (hrow : s.row? orderPublicId offerId = some r) (hact : r.active = true) :
    s.heldAt orderPublicId offerId = r.quantity := by
  have hkey := hs.primaryKey orderPublicId offerId
  unfold Tables.row? at hrow
  unfold Tables.heldAt
  cases hr : s.rowsAt orderPublicId offerId with
  | nil => rw [hr] at hrow; cases hrow
  | cons x rows =>
    rw [hr] at hrow hkey
    cases hrow
    obtain rfl : rows = [] := by simpa using hkey
    simp [hact]

theorem row?_mem {r : Reservation} (h : s.row? orderPublicId offerId = some r) :
    r ∈ s.reservations ∧ r.orderPublicId = orderPublicId ∧ r.offerId = offerId := by
  have hmem := List.mem_of_mem_head? (Option.mem_def.mpr h)
  obtain ⟨hin, hk⟩ := List.mem_filter.mp hmem
  simp only [Reservation.hasKey, decide_eq_true_eq] at hk
  exact ⟨hin, hk⟩

theorem Represented.hold (hs : Represented s) {item : Item}
    (hno : s.hasRow orderPublicId item.offerId = false) (hoffer : s.offers item.offerId = some offer)
    (hcov : offer.covers item.quantity = true) : Represented (heldOne s orderPublicId item offer) := by
  have hle : (item.quantity : Int) ≤ offer.onHandQuantity - offer.reservedQuantity := by
    simp only [Offer.covers, Bool.and_eq_true, decide_eq_true_eq] at hcov
    exact hcov.2
  have hrange := hs.range _ _ hoffer
  have hheld : ∀ g, (heldOne s orderPublicId item offer).held g =
      s.held g + if item.offerId = g then (item.quantity : Int) else 0 := by
    intro g
    unfold heldOne
    rw [setOffer_held, held_addReservation]
    simp [Reservation.active]
  refine ⟨fun f x hx => ?_, fun f x hx => ?_, fun o f => ?_, fun r hr => ?_⟩
  · rw [hheld]
    by_cases e : f = item.offerId
    · subst e
      rw [heldOne, setOffer_self] at hx
      cases hx
      rw [if_pos rfl, ← hs.sum _ _ hoffer]
    · rw [heldOne, setOffer_other _ _ e] at hx
      rw [if_neg (Ne.symm e), Int.add_zero]
      exact hs.sum f x hx
  · by_cases e : f = item.offerId
    · subst e
      rw [heldOne, setOffer_self] at hx
      cases hx
      exact ⟨by dsimp only; omega, by dsimp only; omega⟩
    · rw [heldOne, setOffer_other _ _ e] at hx
      exact hs.range f x hx
  · rw [heldOne, setOffer_rowsAt, rowsAt_addReservation]
    split
    · rename_i hk
      simp only [Reservation.hasKey, decide_eq_true_eq] at hk
      rw [← hk.1, ← hk.2, rowsAt_of_hasRow hno]
      exact Nat.le_refl 1
    · exact hs.primaryKey o f
  · by_cases e : r.offerId = item.offerId
    · rw [e, heldOne, setOffer_self]; rfl
    · rw [heldOne, setOffer_other _ _ e]
      rcases List.mem_cons.mp hr with rfl | hr
      · exact absurd rfl e
      · exact hs.foreignKey r hr

theorem Represented.giveBack (hs : Represented s) {r : Reservation}
    (hrow : s.row? orderPublicId offerId = some r) (hact : r.active = true)
    (hoffer : s.offers offerId = some offer) (hx : (0 : Int) ≤ offer.reservedQuantity - r.quantity) :
    Represented (releasedOne s orderPublicId offerId r.quantity offer) := by
  have hheld : ∀ g, (releasedOne s orderPublicId offerId r.quantity offer).held g =
      s.held g - if g = offerId then (r.quantity : Int) else 0 := by
    intro g
    rw [releasedOne, setOffer_held, held_setReleased, hs.heldAt hrow hact]
  refine ⟨fun f x hf => ?_, fun f x hf => ?_, fun o f => ?_, fun u hu => ?_⟩
  · rw [hheld]
    by_cases e : f = offerId
    · subst e
      rw [releasedOne, setOffer_self] at hf
      cases hf
      rw [if_pos rfl, ← hs.sum _ _ hoffer]
    · rw [releasedOne, setOffer_other _ _ e] at hf
      rw [if_neg e, Int.sub_zero]
      exact hs.sum f x hf
  · by_cases e : f = offerId
    · subst e
      rw [releasedOne, setOffer_self] at hf
      cases hf
      have hrange := hs.range _ _ hoffer
      exact ⟨hx, by dsimp only; omega⟩
    · rw [releasedOne, setOffer_other _ _ e] at hf
      exact hs.range f x hf
  · rw [releasedOne, setOffer_rowsAt, rowsAt_setReleased, List.length_map]
    exact hs.primaryKey o f
  · obtain ⟨old, hold, rfl⟩ := List.mem_map.mp hu
    rw [(release_key orderPublicId offerId old).2.1]
    by_cases e : old.offerId = offerId
    · rw [e, releasedOne, setOffer_self]; rfl
    · rw [releasedOne, setOffer_other _ _ e]
      exact hs.foreignKey old hold

theorem Represented.reserved (hs : Represented s) {items : List Item}
    (h : Reserved orderPublicId items s s') : Represented s' := by
  induction h with
  | nil => exact hs
  | skip _ _ ih => exact ih hs
  | hold hno hoffer hcov _ _ ih => exact ih (hs.hold hno hoffer hcov)

theorem Represented.released (hs : Represented s) {offerIds : List Nat}
    (h : Released orderPublicId offerIds s s') : Represented s' := by
  induction h with
  | nil => exact hs
  | skip _ _ ih => exact ih hs
  | release hrow hact hoffer hx _ ih => exact ih (hs.giveBack hrow hact hoffer hx)
  | orphan hrow _ hnone _ _ =>
    obtain ⟨hin, _, hf⟩ := row?_mem hrow
    have hk := hs.foreignKey _ hin
    rw [hf, hnone] at hk
    cases hk

/-- Every commit keeps the counters represented. -/
theorem Represented.commit (hs : Represented s) {q : Request} {status : Status}
    (hc : Commit q s s' status) : Represented s' := by
  cases hc with
  | reserved h => exact hs.reserved h
  | released h => exact hs.released h

/-- Where every row exists already, reserving changes nothing. -/
theorem reserved_of_rows {items : List Item} (h : Reserved orderPublicId items s s')
    (hrows : ∀ item ∈ items, s.hasRow orderPublicId item.offerId = true) : s' = s := by
  induction h with
  | nil => rfl
  | skip _ _ ih => exact ih fun item hin => hrows item (List.mem_cons_of_mem _ hin)
  | hold hno _ _ _ _ _ => rw [hrows _ List.mem_cons_self] at hno; cases hno

theorem hasRow_heldOne {item : Item} (o : Uuid) (f : Nat) :
    (heldOne s orderPublicId item offer).hasRow o f =
      (decide (orderPublicId = o ∧ item.offerId = f) || s.hasRow o f) := by
  rw [heldOne, setOffer_hasRow, hasRow_addReservation]
  rfl

theorem reserved_grows {items : List Item} (h : Reserved orderPublicId items s s') {o : Uuid} {f : Nat}
    (hrow : s.hasRow o f = true) : s'.hasRow o f = true := by
  induction h with
  | nil => exact hrow
  | skip _ _ ih => exact ih hrow
  | hold _ _ _ _ _ ih => exact ih (by rw [hasRow_heldOne, hrow, Bool.or_true])

/-- After a reserve every item has its row. -/
theorem hasRow_of_reserved {items : List Item} (h : Reserved orderPublicId items s s') :
    ∀ item ∈ items, s'.hasRow orderPublicId item.offerId = true := by
  induction h with
  | nil => exact nofun
  | skip hrow hrest ih =>
    intro item hin
    rcases List.mem_cons.mp hin with rfl | hin
    · exact reserved_grows hrest hrow
    · exact ih item hin
  | hold _ _ _ _ hrest ih =>
    intro item hin
    rcases List.mem_cons.mp hin with rfl | hin
    · exact reserved_grows hrest (by rw [hasRow_heldOne]; simp)
    · exact ih item hin

theorem mem_of_reserved {items : List Item} (h : Reserved orderPublicId items s s') {r : Reservation}
    (hr : r ∈ s.reservations) : r ∈ s'.reservations := by
  induction h with
  | nil => exact hr
  | skip _ _ ih => exact ih hr
  | hold _ _ _ _ _ ih => exact ih (List.mem_cons_of_mem _ hr)

theorem mem_of_released {offerIds : List Nat} (h : Released orderPublicId offerIds s s')
    {r : Reservation} (hr : r ∈ s.reservations) (hrel : r.active = false) : r ∈ s'.reservations := by
  have kept : ∀ o f, r.release o f = r := fun o f => by simp [Reservation.release, hrel]
  induction h with
  | nil => exact hr
  | skip _ _ ih => exact ih hr
  | release _ _ _ _ _ ih => exact ih (List.mem_map.mpr ⟨r, hr, kept _ _⟩)
  | orphan _ _ _ _ ih => exact ih (List.mem_map.mpr ⟨r, hr, kept _ _⟩)

/-- A row that no longer holds stock is never touched again. -/
theorem inactive_final {q : Request} {status : Status} (hc : Commit q s s' status) {r : Reservation}
    (hr : r ∈ s.reservations) (hrel : r.active = false) : r ∈ s'.reservations := by
  cases hc with
  | reserved h => exact mem_of_reserved h hr
  | released h => exact mem_of_released h hr hrel

end

section
variable {s : Tables} {c c' : Config Lock Tables Failure Status Request} {ev : Event Request}
  {tr : List (Config Lock Tables Failure Status Request × Event Request)}

/-- An order that was answered `reserved` has a row for each of its items. -/
def Kept (s : Tables) (as : List (Request × Except Failure Status)) : Prop :=
  ∀ o items status, (.reserve o items, .ok status) ∈ as → ∀ item ∈ items, s.hasRow o item.offerId = true

theorem represented_run (hs : Represented s) (hr : Run (Step system) (Config.start s) tr c) :
    Represented c.db ∧ Kept c.db c.answers := by
  refine run_serial_invariant (Y := system) (J := fun u as => Represented u ∧ Kept u as)
    ⟨hs, fun _ _ _ h => nomatch h⟩ ?_ ?_ (fun _ henv => nomatch henv) hr
  · rintro q b u u' as status ⟨hu, hk⟩ _ hb he
    have hc := commit_of_exec he
    have hle := he.grows (safe_handler b q) hb
    refine ⟨hu.commit hc, fun o items st hin item hitem => ?_⟩
    rcases List.mem_cons.mp hin with e | hin
    · cases e
      cases hc with
      | reserved h => exact hasRow_of_reserved h item ((List.mem_insertionSort _).mpr hitem)
    · exact hle.1 _ _ (hk o items st hin item hitem)
  · rintro q b u _ as e ⟨hu, hk⟩ _ _ _
    refine ⟨hu, fun o items st hin => ?_⟩
    rcases List.mem_cons.mp hin with e | hin
    · cases e
    · exact hk o items st hin

theorem db_of_step (hr : Run (Step system) (Config.start s) tr c) (hs : Step system c ev c') :
    ((∀ i, ev ≠ .commit i) ∧ c'.db = c.db) ∨ ∃ i t status, ev = .commit i ∧ c.txs i = some t ∧
      Commit t.request c.db c'.db status := by
  rcases hs.moves (coherent_run hr) with ⟨hev, hd | henv⟩ | ⟨i, t, b, r, hev, hi, _, he⟩
  · exact Or.inl ⟨hev, hd⟩
  · exact henv.elim
  · exact Or.inr ⟨i, t, r, hev, hi, commit_of_exec he⟩

/-- In every reachable state `reservedQuantity` is what the active reservations add up to and
stays in its range; a redelivered reserve holds nothing more, a released row is not released again. -/
theorem stock_represented (hs : Represented s) (hr : Run (Step system) (Config.start s) tr c) :
    Represented c.db ∧ ∀ ev c', Step system c ev c' →
      (∀ i t status, ev = .commit i → c.txs i = some t →
        (∃ o items, t.request = .reserve o items) → (t.request, .ok status) ∈ c.answers →
        c'.db = c.db) ∧
      ∀ r ∈ c.db.reservations, r.status = .released → r ∈ c'.db.reservations := by
  obtain ⟨hrep, hkept⟩ := represented_run hs hr
  refine ⟨hrep, fun ev c' hstep => ⟨fun i t status hev hi hq hin => ?_, fun r hmem hrel => ?_⟩⟩
  · rcases db_of_step hr hstep with ⟨hno, _⟩ | ⟨j, u, st, hj, hu, hc⟩
    · exact absurd hev (hno i)
    · rw [hev] at hj
      cases hj
      rw [hi] at hu
      cases hu
      obtain ⟨o, items, hq⟩ := hq
      rw [hq] at hc hin
      cases hc with
      | reserved h =>
        exact reserved_of_rows h fun item hitem =>
          hkept o items status hin item ((List.mem_insertionSort _).mp hitem)
  · rcases db_of_step hr hstep with ⟨_, hd⟩ | ⟨_, _, _, _, _, hc⟩
    · rwa [hd]
    · exact inactive_final hc hmem (by simp [Reservation.active, hrel])

def sampleItem : Item := ⟨3, 4, by decide⟩

theorem stock_represented_reserved : ∃ tr c, Run (Step system) (Config.start (.stocked 3 10)) tr c ∧
    Represented c.db ∧ c.db.held 3 = 4 := by
  obtain ⟨_, hr⟩ := process_idle (Y := system) (.reserve 1 [sampleItem]) (.stocked 3 10) []
    trivial rfl
  exact ⟨_, _, hr, (stock_represented (represented_stocked 3 10) hr).1, by decide⟩

end

end MarketplaceApi.Stock
