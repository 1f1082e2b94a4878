import MarketplaceApi.Stock.Holding

/-!
# What a stock reply says

`reserved` says that the order holds what it asked for, `rejected` that it holds nothing of
it. The handler decides on the rows it inserts and never looks at the rows it finds, so
both replies depend on what the order held before and on what its offers have left.
-/
namespace MarketplaceApi.Stock

open Txn Transition

/-- The requests of the two handlers, and what the owner of the offers does beside them: an
offer's stock changes, or the offer is removed or restored. -/
inductive Operation where
  | serve (q : Request)
  | edit (offerId onHandQuantity : Nat) (deleted : Bool)

/-- An update of `onHandQuantity` and `deletedAt` under `SellerOffer_reserved_range`. -/
def editOffer (offerId onHandQuantity : Nat) (deleted : Bool) : Program Bool :=
  Prog.exec [.offer offerId] fun s =>
    match s.offers offerId with
    | some offer => s.setReserved offerId { offer with onHandQuantity, deleted } offer.reservedQuantity
    | none => .ok (s, false)

def Operation.handler : Operation → Program (Option Status)
  | .serve q => do
    let status ← Stock.handler q
    return some status
  | .edit offerId onHandQuantity deleted => do
    let _ ← editOffer offerId onHandQuantity deleted
    return none

/-- What the request asks of one offer, over all its items. -/
def requested (items : List Item) (offerId : Nat) : Nat :=
  ((items.filter fun item => item.offerId = offerId).map Item.quantity).sum

/-- The reply is true of the tables. -/
structure Truthful (s : Tables) (o : Uuid) (items : List Item) (reply : Except Failure (Option Status)) :
    Prop where
  reserved : reply = .ok (some .reserved) →
    ∀ item ∈ items, s.heldAt o item.offerId = requested items item.offerId
  rejected : ∀ reason lines, reply = .error (.rejected reason lines) →
    ∀ item ∈ items, ∀ r ∈ s.rowsAt o item.offerId, r.active = false

/-- Each offer of the request either has a row that holds all the request asks of it, or has
none and is named once. -/
def HeldOrNew (s : Tables) (o : Uuid) (items : List Item) : Prop := ∀ item ∈ items,
  (s.hasRow o item.offerId = true ∧ s.heldAt o item.offerId = requested items item.offerId) ∨
    (s.hasRow o item.offerId = false ∧ (items.map Item.offerId).count item.offerId = 1)

/-- The order holds none of the request's offers. -/
def NoneHeld (s : Tables) (o : Uuid) (items : List Item) : Prop :=
  ∀ item ∈ items, ∀ r ∈ s.rowsAt o item.offerId, r.active = false

/-- All offers are there, and the first item of each has a row or fits. -/
def Tables.Grants (s : Tables) (o : Uuid) (items : List Item) : Prop :=
  IdsInRange items ∧ QuantitiesInRange items ∧ missing s items = [] ∧ ¬ s.Short o items

/-- An offer is missing or short. -/
def Tables.Refuses (s : Tables) (o : Uuid) (items : List Item) : Prop :=
  IdsInRange items ∧ (missing s items ≠ [] ∨ QuantitiesInRange items ∧ s.Short o items)

/-- Where no offer of the request is missing or short, each is held as asked or new; where one is, none is held. -/
structure MeetsItsOrder (s : Tables) (o : Uuid) (items : List Item) : Prop where
  granted : s.Grants o items → HeldOrNew s o items
  refused : s.Refuses o items → NoneHeld s o items

/-- The reserve is answered truthfully. -/
def RepliesTruly (s : Tables) (o : Uuid) (items : List Item) : Prop :=
  Truthful ((Operation.serve (.reserve o items)).handler.transact s).1 o items
    ((Operation.serve (.reserve o items)).handler.transact s).2

section
variable {s s' : Tables} {o : Uuid} {f : Nat} {item : Item} {items : List Item}

theorem safe_editOffer (b : Tables) (offerId onHandQuantity : Nat) (deleted : Bool) :
    (editOffer offerId onHandQuantity deleted).Safe isolation b := by
  refine Prog.safe_exec (confined_offer offerId (fun o => o.bind fun offer =>
    if 0 ≤ offer.reservedQuantity ∧ offer.reservedQuantity ≤ (onHandQuantity : Int) then
      some { offer with onHandQuantity, deleted } else none) fun s => ?_) fun s s' _ _ ha => ?_
  · cases s.offers offerId with
    | none => rfl
    | some offer =>
      by_cases hx : 0 ≤ offer.reservedQuantity ∧ offer.reservedQuantity ≤ (onHandQuantity : Int) <;>
        simp [hx, Tables.setReserved, Prog.leave]
  · rw [agree_offer ha]
    cases s'.offers offerId with
    | none => rfl
    | some offer =>
      by_cases hx : 0 ≤ offer.reservedQuantity ∧ offer.reservedQuantity ≤ (onHandQuantity : Int) <;>
        simp [hx, Tables.setReserved, Except.map]

theorem safe_operation (q : Operation) (b : Tables) : q.handler.Safe isolation b := by
  cases q with
  | serve q => exact (safe_handler b q).bind fun _ _ _ => trivial
  | edit f n d => exact (safe_editOffer b f n d).bind fun _ _ _ => trivial

/-- Any number of reserves, releases and edits of offers, in any interleaving. -/
def operations : System Lock Tables Failure (Option Status) Operation where
  isolation := isolation
  handler := Operation.handler
  allowed _ _ := True
  env _ _ := False
  safe q b := safe_operation q b
  env_part := system.env_part
  env_le := system.env_le

/-- What a committed operation has done. -/
inductive Operated : Operation → Tables → Tables → Option Status → Prop
  | served {q s s' status} : Commit q s s' status → Operated (.serve q) s s' (some status)
  | edited {f n : Nat} {d s offer} : s.offers f = some offer → 0 ≤ offer.reservedQuantity →
      offer.reservedQuantity ≤ (n : Int) →
      Operated (.edit f n d) s (s.setOffer f { offer with onHandQuantity := n, deleted := d }) none
  | missing {f n d s} : Operated (.edit f n d) s s none

theorem operated_of_exec {b : Tables} {q : Operation} {reply : Option Status}
    (h : Exec isolation b q.handler s s' (.ok reply)) : Operated q s s' reply := by
  cases q with
  | serve q =>
    obtain ⟨_, m, status, _, hq, hr⟩ := Exec.of_bind h
    cases hr
    exact .served (commit_of_exec hq)
  | edit f n d =>
    obtain ⟨_, m, edited, _, hq, hr⟩ := Exec.of_bind h
    cases hr
    have he := hq.of_exec
    split at he
    · rename_i offer hoffer
      unfold Tables.setReserved at he
      split at he
      · rename_i hrange
        cases he
        exact .edited hoffer hrange.1 hrange.2
      · cases he
    · cases he
      exact .missing

theorem requested_perm {other : List Item} (hp : items.Perm other) :
    requested items f = requested other f := ((hp.filter _).map _).sum_eq

theorem requested_cons : requested (item :: items) f =
    (if item.offerId = f then item.quantity else 0) + requested items f := by
  unfold requested
  by_cases h : item.offerId = f <;> simp [h]

theorem requested_eq_zero : requested items f = 0 ↔ f ∉ items.map Item.offerId := by
  induction items with
  | nil => simp [requested]
  | cons item items ih =>
    have hpos := item.positive.2
    rw [requested_cons, List.map_cons, List.mem_cons, not_or, ← ih]
    by_cases h : item.offerId = f
    · rw [if_pos h]
      have hsum : ¬ item.quantity + requested items f = 0 := by omega
      exact iff_of_false hsum fun hno => hno.1 h.symm
    · rw [if_neg h, Nat.zero_add]
      exact ⟨fun hz => ⟨fun he => h he.symm, hz⟩, fun hz => hz.2⟩

/-- An item is all the request asks of its offer exactly when the offer is named once. -/
theorem requested_eq_iff (hi : item ∈ items) : requested items item.offerId = item.quantity ↔
    (items.map Item.offerId).count item.offerId = 1 := by
  have hp := List.perm_cons_erase hi
  have hcount : (items.map Item.offerId).count item.offerId =
      ((items.erase item).map Item.offerId).count item.offerId + 1 := by
    rw [(hp.map Item.offerId).count_eq, List.map_cons, List.count_cons_self]
  have hsum : requested items item.offerId = item.quantity + requested (items.erase item) item.offerId := by
    rw [requested_perm hp, requested_cons, if_pos rfl]
  have hzero : requested (items.erase item) item.offerId = 0 ↔
      ((items.erase item).map Item.offerId).count item.offerId = 0 := by
    rw [requested_eq_zero, List.count_eq_zero]
  rw [hcount, hsum]
  omega

/-- A reserve leaves the rows it finds. -/
theorem reserved_rowsAt_of_hasRow (h : Reserved o items s s') (hrow : s.hasRow o f = true) :
    s'.rowsAt o f = s.rowsAt o f := by
  induction h with
  | nil => rfl
  | skip _ _ ih => exact ih hrow
  | @hold item items s s' offer hno _ _ _ _ ih =>
    have hne : ¬ (o = o ∧ item.offerId = f) := by
      rintro ⟨_, rfl⟩
      rw [hno] at hrow
      cases hrow
    rw [ih (by rw [hasRow_heldOne, hrow, Bool.or_true]), rowsAt_heldOne, if_neg hne]

/-- Under an offer without a row it leaves one row, with the quantity of one of the items. -/
theorem reserved_rowsAt_of_no_row (h : Reserved o items s s') (hno : s.hasRow o f = false)
    (hf : f ∈ items.map Item.offerId) :
    ∃ item ∈ items, item.offerId = f ∧ s'.rowsAt o f = [⟨o, f, item.quantity, .reserved⟩] := by
  induction h with
  | nil => cases hf
  | @skip item items s s' hrow _ ih =>
    have hne : item.offerId ≠ f := by
      rintro rfl
      rw [hno] at hrow
      cases hrow
    rw [List.map_cons, List.mem_cons] at hf
    obtain ⟨i, hi, hif, hrows⟩ := ih hno (hf.resolve_left fun he => hne he.symm)
    exact ⟨i, List.mem_cons_of_mem _ hi, hif, hrows⟩
  | @hold item items s s' offer hnew _ _ _ hrest ih =>
    by_cases he : item.offerId = f
    · subst he
      refine ⟨item, List.mem_cons_self, rfl, ?_⟩
      have hkept := reserved_rowsAt_of_hasRow hrest (f := item.offerId) (by rw [hasRow_heldOne]; simp)
      rw [hkept, rowsAt_heldOne, if_pos ⟨rfl, rfl⟩, rowsAt_of_hasRow hno]
    · rw [List.map_cons, List.mem_cons] at hf
      have hstill : (heldOne s o item offer).hasRow o f = false := by
        rw [hasRow_heldOne, hno]
        simp [he]
      obtain ⟨i, hi, hif, hrows⟩ := ih hstill (hf.resolve_left fun h => he h.symm)
      exact ⟨i, List.mem_cons_of_mem _ hi, hif, hrows⟩

theorem heldAt_congr (h : s'.rowsAt o f = s.rowsAt o f) : s'.heldAt o f = s.heldAt o f := by
  unfold Tables.heldAt
  rw [h]

/-- After a reserve that commits, the order holds what was asked exactly when it held all of
it or the offer was new and named once. -/
theorem reserved_true_iff (h : Commit (.reserve o items) s s' .reserved) :
    (∀ item ∈ items, s'.heldAt o item.offerId = requested items item.offerId) ↔ HeldOrNew s o items := by
  cases h with
  | reserved hr =>
    have hperm := List.perm_insertionSort (fun left right : Item => left.offerId ≤ right.offerId) items
    refine forall₂_congr fun item hitem => ?_
    cases hrow : s.hasRow o item.offerId with
    | true =>
      have hkept := reserved_rowsAt_of_hasRow hr hrow
      simp [heldAt_congr hkept]
    | false =>
      have hin : item.offerId ∈ (items.insertionSort fun left right => left.offerId ≤ right.offerId).map
          Item.offerId := List.mem_map_of_mem (hperm.mem_iff.mpr hitem)
      obtain ⟨i, hi, hif, hrows⟩ := reserved_rowsAt_of_no_row hr hrow hin
      have hheld : s'.heldAt o item.offerId = i.quantity := by
        unfold Tables.heldAt
        rw [hrows]
        simp [Reservation.active]
      have hone := requested_eq_iff (hperm.mem_iff.mp hi)
      rw [hif] at hone
      rw [hheld, ← hone]
      simp only [Bool.false_eq_true, false_and, true_and, false_or]
      omega

end

section
variable {s s' : Tables} {o : Uuid} {items : List Item} {offer : Offer} {f : Nat}
  {c c' : Config Lock Tables Failure (Option Status) Operation}
  {tr : List (Config Lock Tables Failure (Option Status) Operation × Event Operation)}

theorem Tables.Checked.setOffer (h : s.Checked) (hle : 0 ≤ offer.reservedQuantity)
    (hfits : offer.reservedQuantity ≤ offer.onHandQuantity) : (s.setOffer f offer).Checked := by
  intro g other hother
  by_cases hg : g = f
  · subst hg
    rw [setOffer_self] at hother
    obtain rfl := Option.some.inj hother
    exact ⟨hle, hfits⟩
  · rw [setOffer_other _ _ hg] at hother
    exact h g other hother

theorem Reserved.checked (h : Reserved o items s s') (hcheck : s.Checked) : s'.Checked := by
  induction h with
  | nil => exact hcheck
  | skip _ _ ih => exact ih hcheck
  | @hold item items s s' offer _ hoffer hcov hnn _ ih =>
    have hadded : (s.addReservation (item.reservation o)).Checked := hcheck
    simp only [Offer.covers, Bool.and_eq_true, decide_eq_true_eq] at hcov
    refine ih (hadded.setOffer hnn ?_)
    change offer.reservedQuantity + item.quantity ≤ offer.onHandQuantity
    omega

theorem Released.checked {offerIds : List Nat} (h : Released o offerIds s s') (hcheck : s.Checked) : s'.Checked := by
  induction h with
  | nil => exact hcheck
  | skip _ _ ih => exact ih hcheck
  | @release offerId offerIds s s' r offer _ _ hoffer hnn _ ih =>
    have hreleased : (s.setReleased o offerId).Checked := hcheck
    have hrange := hcheck offerId offer hoffer
    refine ih (hreleased.setOffer hnn ?_)
    change offer.reservedQuantity - r.quantity ≤ offer.onHandQuantity
    omega
  | orphan _ _ _ _ ih => exact ih hcheck

theorem Operated.checked {q : Operation} {reply : Option Status} (h : Operated q s s' reply) (hcheck : s.Checked) :
    s'.Checked := by
  cases h with
  | served hc =>
    cases hc with
    | reserved h => exact h.checked hcheck
    | released h => exact h.checked hcheck
  | edited _ hle hfits => exact hcheck.setOffer hle hfits
  | missing => exact hcheck

theorem checked_run (hcheck : s.Checked) (hr : Run (Step operations) (Config.start s) tr c) : c.db.Checked :=
  run_serial_invariant (J := fun u _ => u.Checked) hcheck (fun h _ _ he => (operated_of_exec he).checked h)
    (fun h _ _ _ => h) (fun _ henv => False.elim henv) hr

/-- A request alone on the tables: granted, refused, or with a number that no column can hold. -/
theorem serve_cases (hcheck : s.Checked) (o : Uuid) (items : List Item) :
    (s.Grants o items ∧ ¬ s.Refuses o items ∧ ∃ s', Commit (.reserve o items) s s' .reserved ∧
      (Operation.serve (.reserve o items)).handler.transact s = (s', .ok (some .reserved))) ∨
    (¬ s.Grants o items ∧ s.Refuses o items ∧ ∃ reason lines,
      (Operation.serve (.reserve o items)).handler.transact s = (s, .error (.rejected reason lines))) ∨
    (¬ s.Grants o items ∧ ¬ s.Refuses o items ∧
      (Operation.serve (.reserve o items)).handler.transact s = (s, .error .integerOverflow)) := by
  have hhandler : (Operation.serve (.reserve o items)).handler.run s =
      ((SellerOfferStockReserveCommandHandler.execute o items).run s).bind fun q => .ok (q.1, some .reserved) := by
    change (((SellerOfferStockReserveCommandHandler.execute o items).bind _).bind _).run s = _
    rw [Prog.run_bind, Prog.run_bind]
    cases (SellerOfferStockReserveCommandHandler.execute o items).run s <;> rfl
  have herror : ∀ {e}, (SellerOfferStockReserveCommandHandler.execute o items).run s = .error e →
      (Operation.serve (.reserve o items)).handler.transact s = (s, .error e) := by
    intro e he
    unfold Prog.transact
    rw [hhandler, he]
    rfl
  by_cases hids : IdsInRange items
  · by_cases hnone : missing s items = []
    · by_cases hq : QuantitiesInRange items
      · obtain ⟨s', hrun⟩ := execute_reported (o := o) hids hq hcheck hnone
        have hshort := failedIds_iff (o := o) hcheck hnone
        by_cases hfit : failedIds s o items = []
        · have hno : ¬ s.Short o items := fun h => hshort.mpr h hfit
          rw [if_pos hfit] at hrun
          have hreserved : (handler (.reserve o items)).run s = .ok (s', .reserved) := by
            change ((SellerOfferStockReserveCommandHandler.execute o items).bind _).run s = _
            rw [Prog.run_bind, hrun]
            rfl
          refine Or.inl ⟨⟨hids, hq, hnone, hno⟩, ?_, s', commit_of_run hreserved, ?_⟩
          · rintro ⟨_, hmissing | ⟨_, hsome⟩⟩
            · exact hmissing hnone
            · exact hno hsome
          · refine Prog.transact_ok.mpr ?_
            rw [hhandler, hrun]
            rfl
        · rw [if_neg hfit] at hrun
          have hsome := hshort.mp hfit
          exact Or.inr (Or.inl ⟨fun h => h.2.2.2 hsome, ⟨hids, Or.inr ⟨hq, hsome⟩⟩, _, _, herror hrun⟩)
      · refine Or.inr (Or.inr ⟨fun h => hq h.2.1, ?_, herror (execute_overflow hids hcheck hnone hq)⟩)
        rintro ⟨_, hmissing | ⟨hsome, _⟩⟩
        · exact hmissing hnone
        · exact hq hsome
    · exact Or.inr (Or.inl ⟨fun h => hnone h.2.2.1, ⟨hids, Or.inl hnone⟩, _, _, herror (execute_missing hids hnone)⟩)
  · exact Or.inr (Or.inr ⟨fun h => hids h.1, fun h => hids h.1, herror (execute_ids hids)⟩)

/-- The reply to a request alone on the tables. -/
theorem replies_iff (hcheck : s.Checked) : RepliesTruly s o items ↔ MeetsItsOrder s o items := by
  unfold RepliesTruly
  rcases serve_cases hcheck o items with ⟨hgrants, hno, s', hcommit, hreply⟩ | ⟨hno, hrefuses, reason, lines, hreply⟩ |
    ⟨hno, hno', hreply⟩
  · rw [hreply]
    have htrue := reserved_true_iff hcommit
    constructor
    · exact fun h => ⟨fun _ => htrue.mp (h.reserved rfl), fun h => absurd h hno⟩
    · refine fun h => ⟨fun _ => htrue.mpr (h.granted hgrants), fun _ _ he => ?_⟩
      cases he
  · rw [hreply]
    constructor
    · exact fun h => ⟨fun h => absurd h hno, fun _ => h.rejected reason lines rfl⟩
    · refine fun h => ⟨fun he => ?_, fun _ _ _ => h.refused hrefuses⟩
      cases he
  · rw [hreply]
    constructor
    · exact fun _ => ⟨fun h => absurd h hno, fun h => absurd h hno'⟩
    · refine fun _ => ⟨fun he => ?_, fun _ _ he => ?_⟩ <;> cases he

/-- In every reachable state the reply to a reserve is true exactly when the order meets the condition; and where
other transactions run beside it, a reserve that commits leaves what it says exactly when each offer is held as asked
or new at its commit. -/
theorem reply_true_iff (hcheck : s.Checked) (hr : Run (Step operations) (Config.start s) tr c) :
    (∀ o items, RepliesTruly c.db o items ↔ MeetsItsOrder c.db o items) ∧
      ∀ i t c' o items, c.txs i = some t → t.request = .serve (.reserve o items) → Step operations c (.commit i) c' →
        ((∀ item ∈ items, c'.db.heldAt o item.offerId = requested items item.offerId) ↔ HeldOrNew c.db o items) := by
  refine ⟨fun o items => replies_iff (checked_run hcheck hr), fun i t c' o items hi hq hstep => ?_⟩
  cases hstep with
  | @commit _ u reply hu hrest =>
    obtain rfl : t = u := Option.some.inj (hi.symm.trans hu)
    obtain ⟨b, _, hb, hp⟩ := (coherent_run hr).progress i t hi
    rw [hrest] at hp
    have hop : Operated t.request c.db (t.pend c.db) reply := operated_of_exec hp.exec
    rw [hq] at hop
    cases hop with
    | @served _ _ _ status hc =>
      cases hc with
      | reserved hres => exact reserved_true_iff (.reserved hres)

end

/-- The order of the sample item after its reserve, and after its release. -/
def sampleHeld : Tables := heldOne (.stocked 3 10) 1 sampleItem ⟨10, 0, false⟩

def sampleReleased : Tables := releasedOne sampleHeld 1 3 4 ⟨10, 4, false⟩

/-- An order that was reserved and released, before its reserve is delivered once more. -/
theorem released_run : ∃ tr c, Run (Step operations) (Config.start (.stocked 3 10)) tr c ∧ c.db = sampleReleased := by
  have hreserve : (operations.handler (.serve (.reserve 1 [sampleItem]))).run (.stocked 3 10) =
      .ok (sampleHeld, some .reserved) := rfl
  have hrelease : (operations.handler (.serve (.release 1))).run sampleHeld =
      .ok (sampleReleased, some (.released 1)) := rfl
  obtain ⟨_, h₁⟩ := process_idle (Y := operations) (.serve (.reserve 1 [sampleItem])) (.stocked 3 10) [] trivial
    hreserve
  obtain ⟨_, h₂⟩ := process_idle (Y := operations) (.serve (.release 1)) sampleHeld _ trivial hrelease
  exact ⟨_, _, h₁.append h₂, rfl⟩

theorem released_untrue : ¬ RepliesTruly sampleReleased 1 [sampleItem] := by
  intro htrue
  have hagain : (Operation.serve (.reserve 1 [sampleItem])).handler.transact sampleReleased =
      (sampleReleased, .ok (some .reserved)) := rfl
  unfold RepliesTruly at htrue
  rw [hagain] at htrue
  exact absurd (htrue.reserved rfl sampleItem List.mem_cons_self) (by decide)

theorem reply_true_refuted : ¬ ∀ (s : Tables) (tr : List _) (c : Config _ _ _ _ _) (o : Uuid) (items : List Item),
    s.Checked → Run (Step operations) (Config.start s) tr c → items ≠ [] → RepliesTruly c.db o items := by
  intro hclaim
  obtain ⟨tr, c, hr, hdb⟩ := released_run
  have htrue := hclaim _ tr c 1 [sampleItem] (represented_stocked 3 10).range hr (by simp)
  rw [hdb] at htrue
  exact released_untrue htrue

/-- Its first delivery meets the condition, the one after the release does not. -/
theorem reply_true_iff_redelivered : ∃ tr c, Run (Step operations) (Config.start (.stocked 3 10)) tr c ∧
    RepliesTruly (.stocked 3 10) 1 [sampleItem] ∧ ¬ MeetsItsOrder c.db 1 [sampleItem] := by
  have hcheck := (represented_stocked 3 10).range
  have hstart : Run (Step operations) (Config.start (.stocked 3 10)) [] (Config.start (.stocked 3 10)) := .nil
  obtain ⟨tr, c, hr, hdb⟩ := released_run
  refine ⟨tr, c, hr, ((reply_true_iff hcheck hstart).1 1 [sampleItem]).mpr ⟨fun _ => ?_, fun _ => ?_⟩, fun hmeets => ?_⟩
  · exact List.forall_mem_singleton.mpr (Or.inr ⟨by decide, by decide⟩)
  · exact List.forall_mem_singleton.mpr (by decide)
  · have htrue := ((reply_true_iff hcheck hr).1 1 [sampleItem]).mpr hmeets
    rw [hdb] at htrue
    exact released_untrue htrue

end MarketplaceApi.Stock
