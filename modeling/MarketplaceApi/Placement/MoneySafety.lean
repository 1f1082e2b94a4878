import MarketplaceApi.Placement.MoneyPhase

/-!
# Money safety of a placement

A refund fences a charge that is still under way; a rejection does not, so an earlier
attempt of the same charge may be applied after it. A closed placement is safe exactly if
that does not happen.
-/
namespace MarketplaceApi.Placement

open Durable Messaging Transition

section
variable (key : String → Nat) (input : OrderPlaceWorkflowInput)

/-- Paid with one PAYMENT of the total and no REFUND, or not paid and net zero. -/
structure MoneySafe (w : World) : Prop where
  paid : w.status = .paid → (w.account.rows .payment (key input.orderPublicId)).length = 1 ∧
    w.account.rows .refund (key input.orderPublicId) = []
  unpaid : w.status = .canceled ∨ w.status = .failedPayment →
    (w.account.rows .refund (key input.orderPublicId)).length =
      (w.account.rows .payment (key input.orderPublicId)).length
  amounts : ∀ t ∈ w.account.rowsOf (key input.orderPublicId), (t.customerId : Int) = input.userId ∧
    t.amount = Money.toCents input.totalAmount ∧ t.status = .success

/-- A rejection that is heard is final: no earlier attempt of the charge was applied, and none is later. -/
def ChargeFinal (isUUID : String → Bool) (x : PlacementSaga) (ev : SagaEvent Activity ActivityError Other) : Prop :=
  (ev = .settle → (∃ e, x.reply = some (.error e) ∧ toFailureType e = some .paymentRejected) →
    (.customerCharge, key input.orderPublicId) ∉ x.world.account.inbox) ∧
  (ev = .stray (.chargeCustomer (toCharge input)) → Rejected input x.history →
    ∀ msg, chargeRequest isUUID key (toCharge input) = some (.charge msg) →
      Account.AccountRepository.covers x.world.account msg.data.customerId msg.data.amount = false)

/-- An order nothing was asked for yet. -/
structure NewOrder (w : World) : Prop where
  status : w.status = .pendingPayment
  inbox : ∀ consumer, (consumer, key input.orderPublicId) ∉ w.account.inbox
  rows : w.account.rowsOf (key input.orderPublicId) = []

end

/-- The charge was rejected for good: no attempt of it has been applied. -/
def RejectionFinal (key : String → Nat) (input : OrderPlaceWorkflowInput) (x : PlacementSaga) : Prop :=
  Rejected input x.history → (.customerCharge, key input.orderPublicId) ∉ x.world.account.inbox

/-- What holds at the position of a placement, for its status and its money. -/
abbrev Charging (key : String → Nat) (input : OrderPlaceWorkflowInput) (x : PlacementSaga) (st : Stage) : Prop :=
  (chart input).Holds (fun st sent h w => StatusAt input st sent h w ∧ MoneyInv key input st sent h w)
    (fun st r w => Answered input st r w ∧ MoneyAnswered key input st r w) x st

section
variable {isUUID : String → Bool} {key : String → Nat} {input : OrderPlaceWorkflowInput} {st : Stage}
  {x x' : PlacementSaga} {ev : SagaEvent Activity ActivityError Other} {w : World} {sent : List Activity}
  {h : Heard} {p : Account.Phase} {a : Activity} {c : Bool} {e : ActivityError}
  {tr : List (PlacementSaga × SagaEvent Activity ActivityError Other)}

theorem charging_run (hw : NewOrder key input w)
    (hr : Run (SagaStep (receivers isUUID key input)) (Saga.start (orderPlaceWorkflow input) w) tr x) :
    ∃ st, Charging key input x st := by
  have hinv := (status_invariant isUUID key input).and (money_invariant isUUID key input)
  refine hinv.run .reserving ⟨⟨nofun, Or.inl hw.status, nofun⟩, ?_⟩ hr
  have hphase : Account.InPhase (key input.orderPublicId) ⟨1, 1, by decide, by decide, by decide, by decide⟩ w.account
      .untouched :=
    ⟨hw.rows, iff_of_false (hw.inbox _) id, iff_of_false (hw.inbox _) id⟩
  exact ⟨.untouched, ⟨_, hphase, Or.inl rfl⟩, nofun, nofun, nofun, rfl⟩

/-- After a rejection no refund is sent. -/
theorem MoneyAt.not_refunded (hm : MoneyAt input sent h p st) (hst : ∀ e, st ≠ .thrown e)
    (hrej : Rejected input h) : .refundCustomer (toCharge input) ∉ sent := by
  have settled : Settled input sent h p → .refundCustomer (toCharge input) ∉ sent := by
    intro hs
    cases hs with
    | unsent hr _ => exact absurd hrej hr
    | rejected _ hno _ => exact hno
    | givenBack hr _ => exact absurd hrej hr
  cases st with
  | reserving => exact absurd hrej hm.1
  | charging => exact absurd hrej hm.1
  | paying => exact absurd hrej hm.1
  | paid => exact absurd hrej hm.1
  | refunding e => exact absurd hrej hm
  | releasing e => exact settled hm
  | failing e => exact settled hm
  | failed e => exact settled hm
  | thrown e => exact absurd rfl (hst e)

theorem Charging.open (hx : Charging key input x st) (e : ActivityError) : st ≠ .thrown e := by
  rintro rfl
  cases hx.inv.1.closed rfl

theorem Charging.not_refunded (hx : Charging key input x st) (hrej : Rejected input x.history) :
    .refundCustomer (toCharge input) ∉ x.sent := by
  obtain ⟨p, _, hm⟩ := hx.inv.2
  exact hm.not_refunded hx.open hrej

theorem Charging.not_charging (hx : Charging key input x st) (hrej : Rejected input x.history) :
    st ≠ .charging := by
  rintro rfl
  obtain ⟨p, _, hm⟩ := hx.inv.2
  exact hm.1 hrej

/-- After a rejection only another attempt of the charge moves the account. -/
theorem Charging.account_perform (hx : Charging key input x st) (hrej : Rejected input x.history)
    (hsent : a ∈ x.sent) (ha : a ≠ .chargeCustomer (toCharge input)) :
    (perform isUUID key a x.world).1.account = x.world.account := by
  obtain ⟨st₀, c, hcall⟩ := hx.sent a hsent
  have hcall' : Stage.call input st₀ = some (c, a) := hcall
  have hno := hx.not_refunded hrej
  cases st₀ <;> cases hcall' <;> first | rfl | exact absurd rfl ha | exact absurd hsent hno

/-- An attempt of the charge is applied exactly if it is decoded and the account covers it. -/
theorem charge_applied (isUUID : String → Bool) (hno : (.customerCharge, key input.orderPublicId) ∉ w.account.inbox) :
    (.customerCharge, key input.orderPublicId) ∉
        (perform isUUID key (.chargeCustomer (toCharge input)) w).1.account.inbox ↔
      ∀ msg, chargeRequest isUUID key (toCharge input) = some (.charge msg) →
        Account.AccountRepository.covers w.account msg.data.customerId msg.data.amount = false := by
  change (_, _) ∉ (deliver Account.handler chargeReply (chargeRequest isUUID key (toCharge input))
    w.account).1.inbox ↔ _
  constructor
  · intro hrow msg hmsg
    obtain ⟨m, _, heq⟩ := chargeRequest_some hmsg
    cases heq
    by_contra hcovers
    rw [Bool.not_eq_false] at hcovers
    obtain ⟨s', status, hrun⟩ := (Account.run_charge hno).mpr hcovers
    rw [hmsg, deliver_of_run hrun] at hrow
    exact hrow (Account.charge_seen (Account.commit_of_run hrun))
  · intro hcovers hrow
    rcases deliver_run Account.handler chargeReply (chargeRequest isUUID key (toCharge input)) w.account with
      hsame | ⟨q, s', status, hq, hrun, _⟩
    · rw [hsame] at hrow
      exact hno hrow
    · obtain ⟨m, _, rfl⟩ := chargeRequest_some hq
      have hcov := (Account.run_charge hno).mp ⟨s', status, hrun⟩
      rw [hcovers _ hq] at hcov
      cases hcov

theorem ends_rejected (hcall : Stage.call input st = some (c, a)) (hends : Ends a (.error e))
    (htype : toFailureType e = some .paymentRejected) : a = .chargeCustomer (toCharge input) := by
  cases st with
  | reserving =>
    cases hcall
    exact absurd htype hends.2
  | charging =>
    cases hcall
    rfl
  | paying =>
    cases hcall
    exact hends.elim
  | refunding e' =>
    cases hcall
    exact hends.elim
  | releasing e' =>
    cases hcall
    exact hends.elim
  | failing e' =>
    cases hcall
    exact hends.elim
  | paid => cases hcall
  | failed e' => cases hcall
  | thrown e' => cases hcall

/-- A step keeps a rejection final exactly if it meets the condition. -/
theorem rejectionFinal_step (hx : Charging key input x st) (hfinal : RejectionFinal key input x)
    (hs : SagaStep (receivers isUUID key input) x ev x') :
    RejectionFinal key input x' ↔ ChargeFinal key input isUUID x ev := by
  cases hs with
  | attempt _ => exact iff_of_true hfinal ⟨nofun, nofun⟩
  | @answer c a next hawait hw =>
    refine iff_of_true (fun hrej => ?_) ⟨nofun, nofun⟩
    obtain ⟨hcall, _⟩ := hx.call hawait
    have ha : a ≠ .chargeCustomer (toCharge input) := by
      rintro rfl
      have hst := hx.not_charging hrej
      have hcall' : Stage.call input st = some (c, .chargeCustomer (toCharge input)) := hcall
      cases st <;> first | exact hst rfl | cases hcall'
    change _ ∉ (perform isUUID key a x.world).1.account.inbox
    rw [hx.account_perform hrej (hx.waiting hw _ _ hcall) ha]
    exact hfinal hrej
  | @stray a hsent =>
    by_cases hrej : Rejected input x.history
    · by_cases ha : a = .chargeCustomer (toCharge input)
      · subst ha
        have happlied := charge_applied isUUID (hfinal hrej)
        exact ⟨fun h => ⟨nofun, fun _ _ => happlied.mp (h hrej)⟩, fun h _ => happlied.mpr (h.2 rfl hrej)⟩
      · refine iff_of_true (fun _ => ?_) ⟨nofun, fun heq => ?_⟩
        · change _ ∉ (perform isUUID key a x.world).1.account.inbox
          rw [hx.account_perform hrej hsent ha]
          exact hfinal hrej
        · cases heq
          exact absurd rfl ha
    · exact iff_of_true (fun h => absurd h hrej) ⟨nofun, fun _ h => absurd h hrej⟩
  | @settle c a next r hawait hr =>
    obtain ⟨hcall, _⟩ := hx.call hawait
    obtain ⟨hends, _⟩ := (hx.reply r hr).1 c a hcall
    constructor
    · intro h
      refine ⟨fun _ hreply => ?_, nofun⟩
      obtain ⟨e, he, htype⟩ := hreply
      obtain rfl : r = .error e := Option.some.inj (hr.symm.trans he)
      exact h (rejected_cons.mpr (Or.inl ⟨ends_rejected hcall hends htype, e, rfl, htype⟩))
    · intro h hrej
      rcases rejected_cons.mp hrej with ⟨_, e, rfl, htype⟩ | hold
      · exact h.1 rfl ⟨e, hr, htype⟩
      · exact hfinal hold
  | @fail c a next e hawait hfail =>
    refine iff_of_true (fun hrej => ?_) ⟨nofun, nofun⟩
    rcases rejected_cons.mp hrej with ⟨_, e', heq, htype⟩ | hold
    · cases heq
      rw [hfail.2] at htype
      cases htype
    · exact hfinal hold
  | env he =>
    refine iff_of_true (fun hrej => ?_) ⟨nofun, nofun⟩
    have hrow := hfinal hrej
    cases he with
    | account hq hc =>
      obtain ⟨p, hp, _⟩ := hx.inv.2
      exact fun hin => hrow (hp.seen.1.mpr ((hp.other hq hc).seen.1.mp hin))
    | stock _ _ => exact hrow

/-- No step makes a rejection final again. -/
theorem rejectionFinal_back (hs : SagaStep (receivers isUUID key input) x ev x')
    (hfinal : RejectionFinal key input x') : RejectionFinal key input x := by
  intro hrej hrow
  cases hs with
  | attempt _ => exact hfinal hrej hrow
  | answer _ _ => exact hfinal hrej (inbox_perform hrow)
  | stray _ => exact hfinal hrej (inbox_perform hrow)
  | settle _ _ => exact hfinal (rejected_cons.mpr (Or.inr hrej)) hrow
  | fail _ _ => exact hfinal (rejected_cons.mpr (Or.inr hrej)) hrow
  | env he =>
    cases he with
    | account _ hc => exact hfinal hrej (Account.inbox_grows hc hrow)
    | stock _ _ => exact hfinal hrej hrow

/-- The rows of the order's charge id by its phase. -/
theorem MoneyPhase.counts (hp : MoneyPhase key input w.account p) :
    (w.account.rows .payment (key input.orderPublicId)).length = (if p = .charged ∨ p = .refunded then 1 else 0) ∧
      (w.account.rows .refund (key input.orderPublicId)).length = (if p = .refunded then 1 else 0) := by
  obtain ⟨m, hphase, _⟩ := hp
  unfold Account.Tables.rows
  rw [hphase.rows]
  cases p <;> exact ⟨rfl, rfl⟩

theorem MoneyPhase.amounts (hp : MoneyPhase key input w.account p) :
    ∀ t ∈ w.account.rowsOf (key input.orderPublicId), (t.customerId : Int) = input.userId ∧
      t.amount = Money.toCents input.totalAmount ∧ t.status = .success := by
  obtain ⟨m, hphase, hm⟩ := hp
  rw [hphase.rows]
  intro t ht
  rcases hm with rfl | hm
  · cases ht
  · obtain ⟨hcustomer, hamount⟩ := AccountGateway.movement?_some hm
    cases p with
    | untouched => cases ht
    | fenced => cases ht
    | charged =>
      rw [List.mem_singleton.mp ht]
      exact ⟨hcustomer, hamount, rfl⟩
    | refunded =>
      rcases List.mem_cons.mp ht with rfl | ht
      · exact ⟨hcustomer, hamount, rfl⟩
      · rw [List.mem_singleton.mp ht]
        exact ⟨hcustomer, hamount, rfl⟩

theorem moneySafe_paid (hp : MoneyPhase key input w.account .charged) (hstatus : w.status = .paid) :
    MoneySafe key input w := by
  refine ⟨fun _ => ⟨hp.counts.1, List.length_eq_zero_iff.mp hp.counts.2⟩, fun hunpaid => ?_, hp.amounts⟩
  rw [hstatus] at hunpaid
  rcases hunpaid with heq | heq <;> cases heq

theorem moneySafe_unpaid (hp : MoneyPhase key input w.account p)
    (hstatus : w.status = .canceled ∨ w.status = .failedPayment) : MoneySafe key input w ↔ p ≠ .charged := by
  have hcounts := hp.counts
  constructor
  · rintro hsafe rfl
    have hzero := hsafe.unpaid hstatus
    rw [hcounts.1, hcounts.2] at hzero
    cases hzero
  · intro hne
    refine ⟨fun hpaid => ?_, fun _ => ?_, hp.amounts⟩
    · rw [hpaid] at hstatus
      rcases hstatus with heq | heq <;> cases heq
    · rw [hcounts.1, hcounts.2]
      cases p with
      | charged => exact absurd rfl hne
      | _ => rfl

theorem Settled.safe (hs : Settled input sent h p) (hp : MoneyPhase key input w.account p) :
    p ≠ .charged ↔ (Rejected input h → (.customerCharge, key input.orderPublicId) ∉ w.account.inbox) := by
  cases hs with
  | unsent hrej hu =>
    rw [hu.phase]
    exact iff_of_true nofun fun h => absurd h hrej
  | rejected hrej _ hseen =>
    rw [hp.seen.1]
    constructor
    · exact fun hne _ hcharge => hne (charged_of_seen hcharge hseen)
    · rintro hno rfl
      exact hno hrej trivial
  | givenBack hrej hseen =>
    refine iff_of_true ?_ fun h => absurd h hrej
    rintro rfl
    exact hseen

/-- A closed placement is safe exactly if a rejection it heard was final. -/
theorem moneySafe_closed (hx : Charging key input x st) (hclosed : x.flow.closed = true) :
    MoneySafe key input x.world ↔ RejectionFinal key input x := by
  have hcall := hx.closed hclosed
  obtain ⟨hstatus, p, hp, hm⟩ := hx.inv
  have hmark := hstatus.closed hcall
  cases st with
  | paid =>
    obtain ⟨hrej, _, rfl⟩ := hm
    exact iff_of_true (moneySafe_paid hp (Option.some.inj hmark).symm) fun h => absurd h hrej
  | failed e =>
    have hunpaid := failure_status e
    rw [Option.some.inj hmark] at hunpaid
    rw [moneySafe_unpaid hp hunpaid]
    exact Settled.safe hm hp
  | thrown e => cases hmark
  | _ => cases hcall

/-- Whatever is delayed, repeated or lost, a placement that closed is and stays safe exactly when no
attempt of its charge was applied before a rejection is heard, nor is one after it. -/
theorem money_safe_iff (hw : NewOrder key input w)
    (hr : Run (SagaStep (receivers isUUID key input)) (Saga.start (orderPlaceWorkflow input) w) tr x)
    (hclosed : x.flow.closed = true) :
    MoneySafe key input x.world ↔ Always (ChargeFinal key input isUUID) tr := by
  have hstart : RejectionFinal key input (Saga.start (orderPlaceWorkflow input) w) := nofun
  obtain ⟨st, hx⟩ := charging_run hw hr
  rw [moneySafe_closed hx hclosed, ← hr.throughout_iff_last fun _ hs => rejectionFinal_back hs]
  refine hr.throughout_iff hstart fun hrun hfinal hs => ?_
  obtain ⟨st', ht⟩ := charging_run hw hrun
  exact rejectionFinal_step ht hfinal hs

end

/-- The customer deposited 5.00 and paid 3.00 of it for order 2. -/
def shortWorld : World where
  account := ⟨fun c => if c = 7 then some 200 else none,
    [⟨7, 300, .payment, .success, some 2, some 2⟩, ⟨7, 500, .deposit, .success, none, none⟩],
    [(.customerCharge, 2)]⟩
  stock := .stocked 3 10
  status := .pendingPayment

theorem newOrder_short : NewOrder (fun _ => 1) sampleInput shortWorld :=
  ⟨rfl, fun consumer => by cases consumer <;> decide, rfl⟩

def rejection : ActivityError := .application OrderPlaceFailureType.paymentRejected.text

/-- The stock is held, a first attempt of the charge is under way, a second one is rejected, the
workflow compensates and closes. -/
theorem reaches_rejected : ∃ w sent, SampleReaches shortWorld (.failed rejection) w sent ∧
    w.account = shortWorld.account ∧ w.status = .failedPayment ∧
    .chargeCustomer (toCharge sampleInput) ∈ sent := by
  have hreserved : SampleReaches shortWorld .charging _ _ := reaches_start.round (r := .ok ()) rfl rfl
  have hrejected : SampleReaches shortWorld (.releasing rejection) _ _ :=
    hreserved.attempt rfl |>.round (r := .error rejection) rfl rfl
  have hreleased : SampleReaches shortWorld (.failing rejection) _ _ := hrejected.round (r := .ok ()) rfl rfl
  have hfailed : SampleReaches shortWorld (.failed rejection) _ _ := hreleased.round (r := .ok ()) rfl rfl
  exact ⟨_, _, hfailed, rfl, rfl, by simp⟩

/-- The refund of order 2, whose charge is in the ledger. -/
def otherRefund : Account.RefundRequest := ⟨2, Account.sampleCharge.data, 2⟩

/-- The account after that refund and then the first attempt of the charge. -/
def lateAccount : Account.Tables :=
  (deliver Account.handler chargeReply (chargeRequest (fun _ => true) (fun _ => 1) (toCharge sampleInput))
    (Account.refundApplied shortWorld.account otherRefund)).1

/-- The balance was too low for the second attempt; another order's refund raises it, and the first
attempt is applied after the workflow closed with `failed_payment`. -/
theorem money_safe_refuted : ¬ ∀ (isUUID : String → Bool) (key : String → Nat)
    (input : OrderPlaceWorkflowInput) (w : World) (tr : List _) (x : PlacementSaga),
    NewOrder key input w →
      Run (SagaStep (receivers isUUID key input)) (Saga.start (orderPlaceWorkflow input) w) tr x →
      x.flow.closed = true → MoneySafe key input x.world := by
  intro hclaim
  obtain ⟨⟨account, stock, status⟩, sent, hfailed, haccount, hstatus, hsent⟩ := reaches_rejected
  obtain rfl : account = shortWorld.account := haccount
  obtain rfl : status = .failedPayment := hstatus
  have hnames : ¬ Account.Names 1 (.refund otherRefund) := by
    show ¬ (2 = 1 ∨ 2 = 1)
    decide
  have hcommit : Account.Commit (.refund otherRefund) shortWorld.account
      (Account.refundApplied shortWorld.account otherRefund) .refunded :=
    .refunded (by decide) (by decide) (by decide) (by decide)
  have hlate := (hfailed.elsewhere (.account hnames hcommit)).stray hsent
  obtain ⟨_, x, hrun, hflow, hworld, _⟩ := hlate
  have hclosed : x.flow.closed = true := by
    rw [hflow]
    rfl
  have hsafe := hclaim _ _ _ _ _ x newOrder_short hrun hclosed
  rw [hworld] at hsafe
  have hnet : (lateAccount.rows .refund 1).length = (lateAccount.rows .payment 1).length :=
    hsafe.unpaid (Or.inr rfl)
  exact absurd hnet (by decide)

/-- Without a late attempt the rejection is final and the closed placement safe. -/
theorem money_safe_iff_rejected : ∃ tr x, Run (SagaStep (receivers (fun _ => true) (fun _ => 1) sampleInput))
    (Saga.start (orderPlaceWorkflow sampleInput) shortWorld) tr x ∧ x.flow.closed = true ∧
      x.world.status = .failedPayment ∧ Always (ChargeFinal (fun _ => 1) sampleInput fun _ => true) tr := by
  obtain ⟨⟨account, stock, status⟩, sent, hfailed, haccount, hstatus, _⟩ := reaches_rejected
  obtain rfl : account = shortWorld.account := haccount
  obtain rfl : status = .failedPayment := hstatus
  obtain ⟨tr, x, hrun, hflow, hworld, _⟩ := hfailed
  have hclosed : x.flow.closed = true := by
    rw [hflow]
    rfl
  have hsafe : MoneySafe (fun _ => 1) sampleInput x.world := by
    rw [hworld]
    exact ⟨nofun, fun _ => rfl, nofun⟩
  refine ⟨tr, x, hrun, hclosed, ?_, (money_safe_iff newOrder_short hrun hclosed).mp hsafe⟩
  rw [hworld]

end MarketplaceApi.Placement
