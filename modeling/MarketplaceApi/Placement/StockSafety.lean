import MarketplaceApi.Placement.StockPhase

/-!
# Stock safety of a placement

A release gives back the rows it finds and leaves none behind for a reserve that is still
under way, so such a reserve may take stock after the order was given up. A closed
placement is safe as long as that does not happen.
-/
namespace MarketplaceApi.Placement

open Durable Messaging Transition
open Stock.StockReservationRepository (activeOffers)

section
variable (key : String → Nat) (input : OrderPlaceWorkflowInput)

/-- Paid with every item held, or not paid with nothing held and nothing counted. -/
structure StockSafe (w : World) : Prop where
  paid : w.status = .paid → ∀ item ∈ input.items, ∃ r ∈ w.stock.reservations,
    r.orderPublicId = key input.orderPublicId ∧ r.offerId = item.offerId ∧ r.quantity = item.quantity ∧
      r.active = true
  unpaid : w.status = .canceled ∨ w.status = .failedPayment →
    activeOffers w.stock (key input.orderPublicId) = [] ∧ ∀ f offer, w.stock.offers f = some offer →
      offer.reservedQuantity = w.stock.heldByOthers (key input.orderPublicId) f

/-- Giving up is final: nothing of the order is held when it is heard, and no attempt of its reserve
takes stock after it. -/
def ReleaseFinal (isUUID : String → Bool) (x : PlacementSaga) (ev : SagaEvent Activity ActivityError Other) : Prop :=
  (ev = .settle → ∀ c a next r, x.flow = .await c a next → x.reply = some r → GivenUp input [(a, r)] →
    activeOffers x.world.stock (key input.orderPublicId) = []) ∧
  (ev = .stray (.reserveStock input.orderPublicId input.items) → GivenUp input x.history →
    ∀ o items, reserveRequest isUUID key input.orderPublicId input.items = some (.reserve o items) →
      ¬ Stock.Takes o items x.world.stock)

/-- An order whose stock nothing was asked for yet. -/
structure NewReservation (w : World) : Prop where
  status : w.status = .pendingPayment
  represented : Stock.Represented w.stock
  rows : ∀ f, w.stock.rowsAt (key input.orderPublicId) f = []

end

/-- An order that was given up holds nothing. -/
def NothingHeld (key : String → Nat) (input : OrderPlaceWorkflowInput) (x : PlacementSaga) : Prop :=
  GivenUp input x.history → activeOffers x.world.stock (key input.orderPublicId) = []

/-- What holds at the position of a placement, for its status and its stock. -/
abbrev Reserving (key : String → Nat) (input : OrderPlaceWorkflowInput) (x : PlacementSaga) (st : Stage) : Prop :=
  (chart input).Holds (fun st sent h w => StatusAt input st sent h w ∧ StockInv key input st sent h w)
    (fun st r w => Answered input st r w ∧ StockAnswered key input st r w) x st

section
variable {isUUID : String → Bool} {key : String → Nat} {input : OrderPlaceWorkflowInput} {st : Stage}
  {x x' : PlacementSaga} {ev : SagaEvent Activity ActivityError Other} {w : World} {p : Stock.Phase}
  {a : Activity} {c : Bool} {e : ActivityError}
  {tr : List (PlacementSaga × SagaEvent Activity ActivityError Other)}

theorem reserving_run (hn : (input.items.map OrderPlaceItem.offerId).Nodup) (hw : NewReservation key input w)
    (hr : Run (SagaStep (receivers isUUID key input)) (Saga.start (orderPlaceWorkflow input) w) tr x) :
    ∃ st, Reserving key input x st := by
  have hinv := (status_invariant isUUID key input).and (stock_invariant isUUID key input hn)
  refine hinv.run .reserving ⟨⟨nofun, Or.inl hw.status, nofun⟩, ?_⟩ hr
  have hwanted : ¬ GivenUp input [] := by
    rintro (⟨_, hin, _⟩ | hin) <;> cases hin
  exact ⟨.unreserved, ⟨hw.rows, Or.inl rfl, hw.represented⟩, hwanted, nofun, nofun⟩

/-- An attempt of the reserve takes stock exactly if it is decoded and every offer can hold its item. -/
theorem reserve_applied (isUUID : String → Bool) (hn : (input.items.map OrderPlaceItem.offerId).Nodup)
    (hp : StockPhase key input w.stock p) (hne : p ≠ .held) :
    activeOffers (perform isUUID key (.reserveStock input.orderPublicId input.items) w).1.stock
        (key input.orderPublicId) = [] ↔
      ∀ o items, reserveRequest isUUID key input.orderPublicId input.items = some (.reserve o items) →
        ¬ Stock.Takes o items w.stock := by
  change activeOffers (deliver Stock.handler reserveReply
    (reserveRequest isUUID key input.orderPublicId input.items) w.stock).1 _ = [] ↔ _
  constructor
  · intro hnone o items hq htakes
    obtain ⟨hvalid, heq⟩ := reserveRequest_some hq
    cases heq
    obtain ⟨s', hrun⟩ := Stock.run_reserve (orderItems_nodup hn) hp.represented htakes
    have hnew := hp.reserve hn hq hrun
    rw [hq, deliver_of_run hrun, hnew.active] at hnone
    cases p with
    | unreserved => exact hnone rfl
    | held => exact hne rfl
    | released =>
      obtain ⟨item, hitem⟩ := List.exists_mem_of_ne_nil _ (orderItems_ne_nil hvalid)
      have hrow := hp.phase.hasRow nofun item hitem
      rw [(htakes item hitem).1] at hrow
      cases hrow
  · intro hno
    rcases deliver_run Stock.handler reserveReply (reserveRequest isUUID key input.orderPublicId input.items)
      w.stock with hsame | ⟨q, s', status, hq, hrun, hs'⟩
    · rw [hsame]
      exact hp.active.mpr hne
    · rw [hs', (hp.reserve hn hq hrun).active]
      cases p with
      | unreserved =>
        obtain ⟨_, rfl⟩ := reserveRequest_some hq
        have htakes := Stock.takes_of_run (orderItems_nodup hn) (fun item _ => hp.phase.no_row _) hrun
        exact absurd htakes (hno _ _ hq)
      | held => exact absurd rfl hne
      | released => nofun

theorem release_applied (hn : (input.items.map OrderPlaceItem.offerId).Nodup)
    (hp : StockPhase key input w.stock p) (hne : p ≠ .held) :
    activeOffers (perform isUUID key (.releaseStock input.orderPublicId) w).1.stock
      (key input.orderPublicId) = [] := by
  change activeOffers (deliver Stock.handler anyReply (releaseRequest isUUID key input.orderPublicId)
    w.stock).1 _ = []
  rcases deliver_run Stock.handler anyReply (releaseRequest isUUID key input.orderPublicId) w.stock with
    hsame | ⟨q, s', status, hq, hrun, hs'⟩
  · rw [hsame]
    exact hp.active.mpr hne
  · rw [hs', (hp.release hn hq hrun).active]
    cases p with
    | unreserved => nofun
    | held => exact absurd rfl hne
    | released => nofun

/-- An order that was given up and is not closed is about to be marked. -/
theorem Reserving.failing (hx : Reserving key input x st) (hgiven : GivenUp input x.history)
    (hcall : Stage.call input st = some (c, a)) : ∃ id failure, a = .markFailed id failure := by
  obtain ⟨_, p, _, hm⟩ := hx.inv
  cases st with
  | reserving => exact absurd hgiven hm.1
  | charging => exact absurd hgiven hm.wanted
  | paying => exact absurd hgiven hm.wanted
  | refunding e => exact absurd hgiven hm.1.wanted
  | releasing e => exact absurd hgiven hm
  | failing e =>
    cases hcall
    exact ⟨_, _, rfl⟩
  | paid => cases hcall
  | failed e => cases hcall
  | thrown e => cases hcall

/-- A step keeps a given-up order empty exactly if it meets the condition. -/
theorem nothingHeld_step (hn : (input.items.map OrderPlaceItem.offerId).Nodup)
    (hx : Reserving key input x st) (hnone : NothingHeld key input x)
    (hs : SagaStep (receivers isUUID key input) x ev x') :
    NothingHeld key input x' ↔ ReleaseFinal key input isUUID x ev := by
  obtain ⟨_, p, hp, _⟩ := hx.inv
  cases hs with
  | attempt _ => exact iff_of_true hnone ⟨nofun, nofun⟩
  | @answer c a next hawait hw =>
    refine iff_of_true (fun hgiven => ?_) ⟨nofun, nofun⟩
    obtain ⟨hcall, _⟩ := hx.call hawait
    obtain ⟨_, _, rfl⟩ := hx.failing hgiven hcall
    exact hnone hgiven
  | @stray a hsent =>
    by_cases hgiven : GivenUp input x.history
    · have hne := hp.active.mp (hnone hgiven)
      have happlied := reserve_applied isUUID hn hp hne
      obtain ⟨st₀, c, hcall⟩ := hx.sent a hsent
      have hcall' : Stage.call input st₀ = some (c, a) := hcall
      cases st₀ with
      | reserving =>
        cases hcall'
        exact ⟨fun h => ⟨nofun, fun _ _ => happlied.mp (h hgiven)⟩, fun h _ => happlied.mpr (h.2 rfl hgiven)⟩
      | releasing e =>
        cases hcall'
        exact iff_of_true (fun _ => release_applied hn hp hne) ⟨nofun, nofun⟩
      | charging =>
        cases hcall'
        exact iff_of_true hnone ⟨nofun, nofun⟩
      | paying =>
        cases hcall'
        exact iff_of_true hnone ⟨nofun, nofun⟩
      | refunding e =>
        cases hcall'
        exact iff_of_true hnone ⟨nofun, nofun⟩
      | failing e =>
        cases hcall'
        exact iff_of_true hnone ⟨nofun, nofun⟩
      | paid => cases hcall'
      | failed e => cases hcall'
      | thrown e => cases hcall'
    · exact iff_of_true (fun h => absurd h hgiven) ⟨nofun, fun _ h => absurd h hgiven⟩
  | @settle c a next r hawait hr =>
    constructor
    · intro h
      refine ⟨fun _ c' a' next' r' hawait' hr' hnew => ?_, nofun⟩
      rw [hawait] at hawait'
      cases hawait'
      rw [hr] at hr'
      cases hr'
      exact h (givenUp_cons.mpr (Or.inl hnew))
    · intro h hgiven
      rcases givenUp_cons.mp hgiven with hnew | hold
      · exact h.1 rfl _ _ _ _ hawait hr hnew
      · exact hnone hold
  | @fail c a next e hawait hfail =>
    refine iff_of_true (fun hgiven => ?_) ⟨nofun, nofun⟩
    rcases givenUp_cons.mp hgiven with (⟨e', heq, htype⟩ | heq) | hold
    · cases List.mem_singleton.mp heq
      rw [hfail.2] at htype
      cases htype
    · cases List.mem_singleton.mp heq
    · exact hnone hold
  | env he =>
    refine iff_of_true (fun hgiven => ?_) ⟨nofun, nofun⟩
    have hrows := hnone hgiven
    cases he with
    | account _ _ => exact hrows
    | stock hq hc => exact (hp.other hq hc).active.mpr (hp.active.mp hrows)

/-- The orders given up hold nothing throughout a run exactly if all its steps meet the condition. -/
theorem nothingHeld_iff (hn : (input.items.map OrderPlaceItem.offerId).Nodup) (hw : NewReservation key input w)
    (hr : Run (SagaStep (receivers isUUID key input)) (Saga.start (orderPlaceWorkflow input) w) tr x) :
    Throughout (NothingHeld key input) tr x ↔ Always (ReleaseFinal key input isUUID) tr := by
  have hstart : NothingHeld key input (Saga.start (orderPlaceWorkflow input) w) := by
    rintro (⟨_, hin, _⟩ | hin) <;> cases hin
  refine hr.throughout_iff hstart fun hrun hnone hs => ?_
  obtain ⟨st, ht⟩ := reserving_run hn hw hrun
  exact nothingHeld_step hn ht hnone hs

theorem stockSafe_paid (hp : StockPhase key input w.stock .held) (hstatus : w.status = .paid) :
    StockSafe key input w := by
  refine ⟨fun _ item hitem => ?_, fun hunpaid => ?_⟩
  · have hvalid := hp.valid.resolve_left nofun
    obtain ⟨i, hi, hoffer, hquantity⟩ := orderItems_complete hvalid item hitem
    rw [← hoffer, ← hquantity]
    exact hp.phase.holds i hi
  · rw [hstatus] at hunpaid
    rcases hunpaid with heq | heq <;> cases heq

theorem stockSafe_unpaid (hp : StockPhase key input w.stock p)
    (hstatus : w.status = .canceled ∨ w.status = .failedPayment)
    (hnone : activeOffers w.stock (key input.orderPublicId) = []) : StockSafe key input w := by
  refine ⟨fun hpaid => ?_, fun _ => ⟨hnone, fun f offer hoffer => ?_⟩⟩
  · rw [hpaid] at hstatus
    rcases hstatus with heq | heq <;> cases heq
  · rw [hp.represented.sum f offer hoffer]
    exact Stock.held_of_inactive hnone f

/-- Whatever is delayed, repeated or lost, a placement that closed is safe if giving up was final:
nothing was held when a rejection or a release was heard, and no attempt of the reserve takes
stock after it. -/
theorem stock_safe_of_final (hn : (input.items.map OrderPlaceItem.offerId).Nodup)
    (hw : NewReservation key input w)
    (hr : Run (SagaStep (receivers isUUID key input)) (Saga.start (orderPlaceWorkflow input) w) tr x)
    (hfinal : Always (ReleaseFinal key input isUUID) tr) (hclosed : x.flow.closed = true) :
    StockSafe key input x.world := by
  obtain ⟨st, hx⟩ := reserving_run hn hw hr
  have hnone := ((nothingHeld_iff hn hw hr).mpr hfinal).2
  have hcall := hx.closed hclosed
  obtain ⟨hstatus, p, hp, hm⟩ := hx.inv
  have hmark := hstatus.closed hcall
  cases st with
  | paid =>
    obtain ⟨_, _, rfl⟩ := hm
    exact stockSafe_paid hp (Option.some.inj hmark).symm
  | failed e =>
    have hunpaid := failure_status e
    rw [Option.some.inj hmark] at hunpaid
    exact stockSafe_unpaid hp hunpaid (hnone hm)
  | thrown e => cases hmark
  | _ => cases hcall

end

/-- Ten pieces of offer 3, none reserved. -/
def stockedWorld : World := ⟨.empty, .stocked 3 10, .pendingPayment⟩

theorem newReservation_stocked : NewReservation (fun _ => 1) sampleInput stockedWorld :=
  ⟨rfl, Stock.represented_stocked 3 10, fun _ => rfl⟩

/-- The only attempt of the reserve times out on its way, the release finds no row, the workflow closes
with `canceled`, and the attempt is processed after all. -/
theorem stock_safe_refuted : ¬ ∀ (isUUID : String → Bool) (key : String → Nat)
    (input : OrderPlaceWorkflowInput) (w : World) (tr : List _) (x : PlacementSaga),
    (input.items.map OrderPlaceItem.offerId).Nodup → NewReservation key input w →
      Run (SagaStep (receivers isUUID key input)) (Saga.start (orderPlaceWorkflow input) w) tr x →
      x.flow.closed = true → StockSafe key input x.world := by
  intro hclaim
  have hstart : SampleReaches stockedWorld .reserving stockedWorld [] := reaches_start
  have htimeout : SampleReaches stockedWorld (.releasing .timeout) _ _ :=
    (hstart.attempt rfl).fail (e := .timeout) rfl ⟨⟨nofun, nofun⟩, rfl⟩
  have hreleased : SampleReaches stockedWorld (.failing .timeout) _ _ := htimeout.round (r := .ok ()) rfl rfl
  have hfailed : SampleReaches stockedWorld (.failed .timeout) _ _ := hreleased.round (r := .ok ()) rfl rfl
  have hlate := hfailed.stray (a := .reserveStock sampleInput.orderPublicId sampleInput.items) (by simp)
  obtain ⟨_, x, hrun, hflow, hworld, _⟩ := hlate
  have hclosed : x.flow.closed = true := by
    rw [hflow]
    rfl
  have hsafe := hclaim _ _ _ _ _ x (by decide) newReservation_stocked hrun hclosed
  rw [hworld] at hsafe
  have hnone := (hsafe.unpaid (Or.inl rfl)).1
  exact absurd hnone (by decide)

/-- Two pieces of offer 3, where the sample order wants four. -/
def scarceWorld : World := ⟨.empty, .stocked 3 2, .pendingPayment⟩

def shortage : ActivityError := .application OrderPlaceFailureType.insufficientStock.text

/-- The charge of a customer without an account. -/
def refusedCharge : ActivityError := .application OrderPlaceFailureType.paymentRejected.text

/-- What is heard does not give the order up. -/
theorem releaseFinal_settle {isUUID : String → Bool} {key : String → Nat} {input : OrderPlaceWorkflowInput}
    {x : PlacementSaga} {c : Bool} {a : Activity}
    {next : Except ActivityError Unit → Flow Activity ActivityError OrderStatus}
    {r : Except ActivityError Unit} (hflow : x.flow = .await c a next) (hreply : x.reply = some r)
    (hkept : ¬ GivenUp input [(a, r)]) : ReleaseFinal key input isUUID x .settle := by
  refine ⟨fun _ c' a' next' r' hflow' hreply' hgiven => ?_, nofun⟩
  rw [hflow] at hflow'
  rw [hreply] at hreply'
  cases hflow'
  cases hreply'
  exact absurd hgiven hkept

/-- The reserve is rejected and the order marked. -/
theorem scarce_run : ∃ tr x, Run (SagaStep (receivers (fun _ => true) (fun _ => 1) sampleInput))
      (Saga.start (orderPlaceWorkflow sampleInput) scarceWorld) tr x ∧
    Always (ReleaseFinal (fun _ => 1) sampleInput fun _ => true) tr ∧ x.flow.closed = true ∧
    x.world.status = .canceled := by
  have hcall : (chart sampleInput).call .reserving =
    some (true, .reserveStock sampleInput.orderPublicId sampleInput.items) := rfl
  have hmark : (chart sampleInput).call (.failing shortage) =
    some (false, .markFailed sampleInput.orderId ⟨.canceled, .insufficientStock⟩) := rfl
  have hreserve := Chart.exchange (B := receivers (fun _ => true) (fun _ => 1) sampleInput)
    (x := Saga.start (orderPlaceWorkflow sampleInput) scarceWorld) (r := .error shortage) rfl hcall rfl
  have hrun := hreserve.append (Chart.exchange (r := .ok ()) rfl hmark rfl)
  refine ⟨_, _, hrun, always_append.mpr ⟨?_, ?_⟩, rfl, rfl⟩
  · exact always_exchange ⟨nofun, nofun⟩ ⟨nofun, nofun⟩ ⟨fun _ _ _ _ _ _ _ _ => rfl, nofun⟩
  · exact always_exchange ⟨nofun, nofun⟩ ⟨nofun, nofun⟩ ⟨fun _ _ _ _ _ _ _ _ => rfl, nofun⟩

/-- The stock is reserved, the charge rejected, the stock released and the order marked. -/
theorem released_run : ∃ tr x, Run (SagaStep (receivers (fun _ => true) (fun _ => 1) sampleInput))
      (Saga.start (orderPlaceWorkflow sampleInput) stockedWorld) tr x ∧
    Always (ReleaseFinal (fun _ => 1) sampleInput fun _ => true) tr ∧ x.flow.closed = true ∧
    x.world.status = .failedPayment ∧ (.releaseStock sampleInput.orderPublicId, .ok ()) ∈ x.history := by
  have hreserve : (chart sampleInput).call .reserving =
    some (true, .reserveStock sampleInput.orderPublicId sampleInput.items) := rfl
  have hcharge : (chart sampleInput).call .charging = some (true, .chargeCustomer (toCharge sampleInput)) := rfl
  have hrelease : (chart sampleInput).call (.releasing refusedCharge) =
    some (false, .releaseStock sampleInput.orderPublicId) := rfl
  have hmark : (chart sampleInput).call (.failing refusedCharge) =
    some (false, .markFailed sampleInput.orderId ⟨.failedPayment, .paymentRejected⟩) := rfl
  have hreserved := Chart.exchange (B := receivers (fun _ => true) (fun _ => 1) sampleInput)
    (x := Saga.start (orderPlaceWorkflow sampleInput) stockedWorld) (r := .ok ()) rfl hreserve rfl
  have hrefused := hreserved.append (Chart.exchange (r := .error refusedCharge) rfl hcharge rfl)
  have hreleased := hrefused.append (Chart.exchange (r := .ok ()) rfl hrelease rfl)
  have hrun := hreleased.append (Chart.exchange (r := .ok ()) rfl hmark rfl)
  refine ⟨_, _, hrun, ?_, rfl, rfl, List.mem_cons_of_mem _ List.mem_cons_self⟩
  refine always_append.mpr ⟨always_append.mpr ⟨always_append.mpr ⟨?_, ?_⟩, ?_⟩, ?_⟩
  · exact always_exchange ⟨nofun, nofun⟩ ⟨nofun, nofun⟩ (releaseFinal_settle rfl rfl (by simp [GivenUp]))
  · exact always_exchange ⟨nofun, nofun⟩ ⟨nofun, nofun⟩ (releaseFinal_settle rfl rfl (by simp [GivenUp]))
  · exact always_exchange ⟨nofun, nofun⟩ ⟨nofun, nofun⟩ ⟨fun _ _ _ _ _ _ _ _ => rfl, nofun⟩
  · exact always_exchange ⟨nofun, nofun⟩ ⟨nofun, nofun⟩ ⟨fun _ _ _ _ _ _ _ _ => rfl, nofun⟩

/-- Without the stock it asked for, and after a release, the closed placement is safe. -/
theorem stock_safe_of_final_given_up :
    (∃ tr x, Run (SagaStep (receivers (fun _ => true) (fun _ => 1) sampleInput))
      (Saga.start (orderPlaceWorkflow sampleInput) scarceWorld) tr x ∧ x.flow.closed = true ∧
      x.world.status = .canceled ∧ StockSafe (fun _ => 1) sampleInput x.world) ∧
    ∃ tr x, Run (SagaStep (receivers (fun _ => true) (fun _ => 1) sampleInput))
      (Saga.start (orderPlaceWorkflow sampleInput) stockedWorld) tr x ∧ x.flow.closed = true ∧
      x.world.status = .failedPayment ∧ (.releaseStock sampleInput.orderPublicId, .ok ()) ∈ x.history ∧
      StockSafe (fun _ => 1) sampleInput x.world := by
  have hscarce : NewReservation (fun _ => 1) sampleInput scarceWorld :=
    ⟨rfl, Stock.represented_stocked 3 2, fun _ => rfl⟩
  constructor
  · obtain ⟨tr, x, hr, hm, hclosed, hstatus⟩ := scarce_run
    exact ⟨tr, x, hr, hclosed, hstatus, stock_safe_of_final (by decide) hscarce hr hm hclosed⟩
  · obtain ⟨tr, x, hr, hm, hclosed, hstatus, hreleased⟩ := released_run
    exact ⟨tr, x, hr, hclosed, hstatus, hreleased,
      stock_safe_of_final (by decide) newReservation_stocked hr hm hclosed⟩

end MarketplaceApi.Placement
