import MarketplaceApi.Placement.Workflow

/-!
# Cancelling a placement

A cancellation can land at any call. The two calls of the `try` block lead to the
compensations, which no cancellation interrupts; `markPaid` is outside both.
-/
namespace MarketplaceApi.Placement

open Durable Transition

def runtime : Runtime Activity ActivityError := ⟨Ends, .cancelled⟩

abbrev Calls := List (Activity × Outcome ActivityError)

/-- The order's status after these calls, the latest first. -/
def orderStatus : Calls → OrderStatus
  | [] => .pendingPayment
  | (a, o) :: calls =>
    if o.effective then ((a.marks.map (orderStatus calls).updatePending).getD (orderStatus calls))
    else orderStatus calls

/-- The activity ended with the rejection of this type, so its effect was refused: the call counts as
refused whatever its earlier attempts did. -/
def Rejects (t : OrderPlaceFailureType) : Outcome ActivityError → Prop
  | .ended (.error e) => toFailureType e = some t
  | _ => False

section
variable (input : OrderPlaceWorkflowInput) (calls : Calls)

def Calls.Done (a : Activity) : Prop := (a, .ended (.ok ())) ∈ calls

/-- A call of the activity that was not refused may have had its effect. -/
def Calls.May (a : Activity) (refusal : OrderPlaceFailureType) : Prop :=
  ∃ o, (a, o) ∈ calls ∧ ¬ Rejects refusal o

def Calls.MayHold : Prop :=
  calls.May (.reserveStock input.orderPublicId input.items) .insufficientStock

def Calls.MayCharge : Prop := calls.May (.chargeCustomer (toCharge input)) .paymentRejected

/-- The order has left `pending_payment`; unless it is paid, stock and money are given back. -/
structure NotAbandoned : Prop where
  marked : orderStatus calls ≠ .pendingPayment
  released : orderStatus calls ≠ .paid → calls.MayHold input → calls.Done (.releaseStock input.orderPublicId)
  refunded : orderStatus calls ≠ .paid → calls.MayCharge input → calls.Done (.refundCustomer (toCharge input))

/-- A cancellation after the charge succeeded finds that `markPaid` has taken effect. -/
def CancelledInTime (x : Execution Activity ActivityError OrderStatus) (ev : Event ActivityError) : Prop :=
  ev = .cancel → Calls.Done x.history (.chargeCustomer (toCharge input)) → x.effective = true

/-- On the way to `markFailed`: still pending, and no successful charge. -/
structure Compensating : Prop where
  pending : orderStatus calls = .pendingPayment
  uncharged : ¬ calls.Done (.chargeCustomer (toCharge input))

/-- What the calls so far are at each position. -/
def At : Stage → Prop
  | .reserving => calls = []
  | .charging => calls = [(.reserveStock input.orderPublicId input.items, .ended (.ok ()))]
  | .paying => calls = [(.chargeCustomer (toCharge input), .ended (.ok ())),
      (.reserveStock input.orderPublicId input.items, .ended (.ok ()))]
  | .refunding e => Compensating input calls ∧ toFailureType e ≠ some .insufficientStock
  | .releasing _ => Compensating input calls ∧
      (calls.MayCharge input → calls.Done (.refundCustomer (toCharge input)))
  | .failing _ => Compensating input calls ∧
      (calls.MayCharge input → calls.Done (.refundCustomer (toCharge input))) ∧
      (calls.MayHold input → calls.Done (.releaseStock input.orderPublicId))
  | .paid => orderStatus calls = .paid
  | .failed _ => NotAbandoned input calls
  | .thrown _ => ∃ effective, calls = [(.markPaid input.orderId, .interrupted effective),
      (.chargeCustomer (toCharge input), .ended (.ok ())),
      (.reserveStock input.orderPublicId input.items, .ended (.ok ()))]

end

section
variable {input : OrderPlaceWorkflowInput} {calls : Calls} {a : Activity} {o : Outcome ActivityError}
  {e : ActivityError}

theorem orderStatus_other (h : a.marks = none) : orderStatus ((a, o) :: calls) = orderStatus calls := by
  simp [orderStatus, h]

theorem Calls.Done.later (h : calls.Done a) {p : Activity × Outcome ActivityError} :
    Calls.Done (p :: calls) a := List.mem_cons_of_mem _ h

theorem may_cons {b : Activity} {refusal : OrderPlaceFailureType} :
    Calls.May ((a, o) :: calls) b refusal ↔ (a = b ∧ ¬ Rejects refusal o) ∨ calls.May b refusal := by
  unfold Calls.May
  constructor
  · rintro ⟨o', hmem, hno⟩
    rcases List.mem_cons.mp hmem with heq | hmem
    · cases heq
      exact Or.inl ⟨rfl, hno⟩
    · exact Or.inr ⟨o', hmem, hno⟩
  · rintro (⟨rfl, hno⟩ | ⟨o', hmem, hno⟩)
    · exact ⟨o, List.mem_cons_self, hno⟩
    · exact ⟨o', List.mem_cons_of_mem _ hmem, hno⟩

theorem not_may_nil {b : Activity} {refusal : OrderPlaceFailureType} : ¬ Calls.May [] b refusal := by
  rintro ⟨o, hmem, _⟩
  cases hmem

theorem done_cons {b : Activity} : Calls.Done ((a, o) :: calls) b ↔
    (a = b ∧ o = .ended (.ok ())) ∨ calls.Done b := by
  unfold Calls.Done
  rw [List.mem_cons]
  constructor
  · rintro (heq | hmem)
    · cases heq
      exact Or.inl ⟨rfl, rfl⟩
    · exact Or.inr hmem
  · rintro (⟨rfl, rfl⟩ | hmem)
    · exact Or.inl rfl
    · exact Or.inr hmem

/-- A call failed with `e`, or was interrupted and rejects with the cancellation. -/
structure CameBack (o : Outcome ActivityError) (e : ActivityError) : Prop where
  rejects : ∀ t, Rejects t o ↔ toFailureType e = some t
  failed : o ≠ .ended (.ok ())

theorem cameBack_error (e : ActivityError) : CameBack (.ended (.error e)) e :=
  ⟨fun _ => Iff.rfl, nofun⟩

theorem cameBack_cancelled (effective : Bool) : CameBack (.interrupted effective) .cancelled :=
  ⟨fun _ => ⟨False.elim, nofun⟩, nofun⟩

theorem Compensating.later (h : Compensating input calls) (hmarks : a.marks = none)
    (ha : a = .chargeCustomer (toCharge input) → o ≠ .ended (.ok ())) :
    Compensating input ((a, o) :: calls) where
  pending := (orderStatus_other hmarks).trans h.pending
  uncharged := by
    rw [done_cons]
    rintro (⟨rfl, ho⟩ | hdone)
    · exact ha rfl ho
    · exact h.uncharged hdone

/-- What the compensation of `e` starts from once the charge needs no refund. -/
theorem at_unheld (h : Compensating input calls)
    (hrefund : calls.MayCharge input → calls.Done (.refundCustomer (toCharge input)))
    (hheld : toFailureType e = some .insufficientStock → ¬ calls.MayHold input) :
    At input calls (Stage.unheld e) := by
  unfold Stage.unheld
  by_cases hi : toFailureType e = some .insufficientStock
  · rw [if_pos hi]
    exact ⟨h, hrefund, fun hmay => absurd hmay (hheld hi)⟩
  · rw [if_neg hi]
    exact ⟨h, hrefund⟩

theorem at_reserve_failed (ho : CameBack o e) :
    At input [(.reserveStock input.orderPublicId input.items, o)] (Stage.next .reserving (.error e)) := by
  have hstart : Compensating input [] := ⟨rfl, nofun⟩
  refine at_unheld (hstart.later rfl nofun) (fun hmay => ?_) (fun hi hmay => ?_)
  · rcases may_cons.mp hmay with ⟨heq, _⟩ | hmay
    · cases heq
    · exact absurd hmay not_may_nil
  · rcases may_cons.mp hmay with ⟨_, hno⟩ | hmay
    · exact hno ((ho.rejects _).mpr hi)
    · exact not_may_nil hmay

theorem at_charge_failed (ho : CameBack o e) (hne : toFailureType e ≠ some .insufficientStock) :
    At input [(.chargeCustomer (toCharge input), o),
      (.reserveStock input.orderPublicId input.items, .ended (.ok ()))]
      (Stage.next .charging (.error e)) := by
  have hstart : Compensating input [] := ⟨rfl, nofun⟩
  have hreserved := hstart.later (a := .reserveStock input.orderPublicId input.items)
    (o := .ended (.ok ())) rfl nofun
  have hcomp := hreserved.later (a := .chargeCustomer (toCharge input)) rfl fun _ => ho.failed
  simp only [Stage.next]
  by_cases hp : toFailureType e = some .paymentRejected
  · rw [if_pos hp]
    refine at_unheld hcomp (fun hmay => ?_) fun hi => absurd hi hne
    rcases may_cons.mp hmay with ⟨_, hno⟩ | hmay
    · exact absurd ((ho.rejects _).mpr hp) hno
    · rcases may_cons.mp hmay with ⟨heq, _⟩ | hmay
      · cases heq
      · exact absurd hmay not_may_nil
  · rw [if_neg hp]
    exact ⟨hcomp, hne⟩

/-- The status `markFailed` leaves a pending order in. -/
theorem toFailure_status (e : ActivityError) : (toFailure (toFailureType e)).status ≠ .pendingPayment ∧
    (toFailure (toFailureType e)).status ≠ .paid := by
  cases toFailureType e with
  | none => exact ⟨nofun, nofun⟩
  | some t => cases t <;> exact ⟨nofun, nofun⟩

theorem at_failed {orderId : Nat} (h : At input calls (.failing e)) : NotAbandoned input
    ((.markFailed orderId (toFailure (toFailureType e)), .ended (.ok ())) :: calls) := by
  obtain ⟨hcomp, hrefund, hrelease⟩ := h
  have hstatus : orderStatus ((.markFailed orderId (toFailure (toFailureType e)), .ended (.ok ())) :: calls) =
      (toFailure (toFailureType e)).status := by
    simp [orderStatus, Outcome.effective, Activity.marks, OrderStatus.updatePending, hcomp.pending]
  refine ⟨?_, fun _ hmay => ?_, fun _ hmay => ?_⟩
  · rw [hstatus]
    exact (toFailure_status e).1
  · rcases may_cons.mp hmay with ⟨heq, _⟩ | hmay
    · cases heq
    · exact (hrelease hmay).later
  · rcases may_cons.mp hmay with ⟨heq, _⟩ | hmay
    · cases heq
    · exact (hrefund hmay).later

/-- An activity that ends leads to its next position. -/
theorem at_next {st : Stage} {c : Bool} {r : Except ActivityError Unit} (h : At input calls st)
    (hcall : Stage.call input st = some (c, a)) (hends : Ends a r) :
    At input ((a, .ended r) :: calls) (Stage.next st r) := by
  cases st with
  | reserving =>
    cases hcall
    obtain rfl : calls = [] := h
    cases r with
    | ok u => rfl
    | error e => exact at_reserve_failed (cameBack_error e)
  | charging =>
    cases hcall
    obtain rfl : calls = _ := h
    cases r with
    | ok u => rfl
    | error e => exact at_charge_failed (cameBack_error e) hends.2
  | paying =>
    cases hcall
    obtain rfl : calls = _ := h
    cases r with
    | ok u => rfl
    | error e => cases hends
  | refunding e =>
    cases hcall
    cases r with
    | ok u =>
      exact at_unheld (h.1.later rfl nofun) (fun _ => List.mem_cons_self) fun hi => absurd hi h.2
    | error e' => cases hends
  | releasing e =>
    cases hcall
    cases r with
    | ok u =>
      refine ⟨h.1.later rfl nofun, fun hmay => ?_, fun _ => List.mem_cons_self⟩
      rcases may_cons.mp hmay with ⟨heq, _⟩ | hmay
      · cases heq
      · exact (h.2 hmay).later
    | error e' => cases hends
  | failing e =>
    cases hcall
    cases r with
    | ok u => exact at_failed h
    | error e' => cases hends
  | paid => cases hcall
  | failed e => cases hcall
  | thrown e => cases hcall

end

section
variable {input : OrderPlaceWorkflowInput} {st : Stage} {e : ActivityError}

theorem shielded_unheld : (chart input).Shielded (Stage.unheld e) := by
  unfold Stage.unheld
  split <;> exact nofun

/-- A failure leads into the non-cancellable scope or out of the workflow. -/
theorem shielded_error : (chart input).Shielded (Stage.next st (.error e)) := by
  cases st with
  | reserving => exact shielded_unheld
  | charging =>
    change (chart input).Shielded (if _ then _ else _)
    split
    · exact shielded_unheld
    · exact nofun
  | _ => exact nofun

theorem shielded_next (h : (chart input).Shielded st) (r : Except ActivityError Unit) :
    (chart input).Shielded (Stage.next st r) := by
  cases r with
  | error e => exact shielded_error
  | ok u =>
    cases st with
    | reserving => exact absurd rfl (h _)
    | charging => exact absurd rfl (h _)
    | paying => exact absurd rfl (h _)
    | refunding e => exact shielded_unheld
    | _ => exact nofun

end

/-- The workflow is at a position that fits its calls; once cancelled, at a shielded one. -/
def Positioned (input : OrderPlaceWorkflowInput)
    (x : Execution Activity ActivityError OrderStatus) : Prop :=
  ∃ st, x.flow = Stage.flow input st ∧ At input x.history st ∧
    (x.cancelled = true → (chart input).Shielded st)

/-- If it closed, the order is not abandoned. -/
def ClosedSafely (input : OrderPlaceWorkflowInput)
    (x : Execution Activity ActivityError OrderStatus) : Prop :=
  x.flow.closed = true → NotAbandoned input x.history

section
variable {input : OrderPlaceWorkflowInput} {x x' : Execution Activity ActivityError OrderStatus}
  {ev : Event ActivityError} {tr : List (Execution Activity ActivityError OrderStatus × Event ActivityError)}

theorem positioned_start (cancelled : Bool) :
    Positioned input (Execution.start runtime cancelled (orderPlaceWorkflow input)) := by
  cases cancelled with
  | false => exact ⟨.reserving, Flow.resume_false _ _, rfl, nofun⟩
  | true =>
    refine ⟨Stage.next .reserving (.error .cancelled), ?_, ⟨⟨rfl, nofun⟩, fun h => ?_⟩, fun _ => shielded_error⟩
    · have hcall : (chart input).call .reserving =
          some (true, .reserveStock input.orderPublicId input.items) := rfl
      have hawait := (chart input).awaits hcall
      have hshield : (chart input).Shielded (Stage.next .reserving (.error .cancelled)) := shielded_error
      change (Flow.resume _ true ((chart input).flow .reserving)) = _
      rw [hawait, Flow.resume_cancelled]
      exact (chart input).resume_shielded hshield _ _
    · exact absurd h not_may_nil

/-- Where an interrupted call leads. -/
theorem at_interrupted {st : Stage} {a : Activity} {effective : Bool} (h : At input x.history st)
    (hcall : Stage.call input st = some (true, a)) :
    At input ((a, .interrupted effective) :: x.history) (Stage.next st (.error .cancelled)) := by
  cases st with
  | reserving =>
    cases hcall
    rw [show x.history = [] from h]
    exact at_reserve_failed (cameBack_cancelled effective)
  | charging =>
    cases hcall
    rw [show x.history = _ from h]
    exact at_charge_failed (cameBack_cancelled effective) nofun
  | paying =>
    cases hcall
    rw [show x.history = _ from h]
    exact ⟨effective, rfl⟩
  | _ => cases hcall

theorem positioned_step (h : Positioned input x) (hs : Step runtime x ev x') : Positioned input x' := by
  obtain ⟨st, hflow, hat, hshield⟩ := h
  cases hs with
  | effect _ => exact ⟨st, hflow, hat, hshield⟩
  | @finish c a next r hawait hends _ =>
    rw [hflow] at hawait
    obtain ⟨hcall, hnext⟩ := (chart input).of_await hawait
    refine ⟨Stage.next st r, ?_, at_next hat hcall hends, fun hc => shielded_next (hshield hc) r⟩
    rw [hnext]
    cases hc : x.cancelled with
    | false => exact Flow.resume_false _ _
    | true => exact (chart input).resume_shielded (shielded_next (hshield hc) r) _ _
  | @interrupt a next hawait =>
    rw [hflow] at hawait
    obtain ⟨hcall, hnext⟩ := (chart input).of_await hawait
    refine ⟨Stage.next st (.error .cancelled), ?_, at_interrupted hat hcall, fun _ => shielded_error⟩
    rw [hnext]
    exact (chart input).resume_shielded shielded_error _ _
  | @request a next hawait =>
    rw [hflow] at hawait
    obtain ⟨hcall, _⟩ := (chart input).of_await hawait
    refine ⟨st, hflow, hat, fun _ b hb => ?_⟩
    rw [hcall] at hb
    cases hb

theorem positioned_run {cancelled : Bool}
    (hr : Run (Step runtime) (Execution.start runtime cancelled (orderPlaceWorkflow input)) tr x) :
    Positioned input x := hr.invariant (positioned_start cancelled) positioned_step

/-- An open position is not closed. -/
theorem open_of_call {st : Stage} {c : Bool} {a : Activity} (hflow : x.flow = Stage.flow input st)
    (hcall : Stage.call input st = some (c, a)) : ¬ x.flow.closed = true := by
  rw [hflow, show Stage.flow input st = _ from (chart input).awaits hcall]
  nofun

theorem safe_of_closed {st : Stage} (hflow : x.flow = Stage.flow input st) (hat : At input x.history st)
    (hopen : ∀ e, st ≠ .thrown e) (hclosed : x.flow.closed = true) : NotAbandoned input x.history := by
  cases st with
  | paid =>
    refine ⟨?_, fun h => absurd hat h, fun h => absurd hat h⟩
    rw [show orderStatus x.history = .paid from hat]
    nofun
  | failed e => exact hat
  | thrown e => exact absurd rfl (hopen e)
  | _ => exact absurd hclosed (open_of_call hflow rfl)

theorem not_charged_of_shielded {st : Stage} {a : Activity} (hat : At input x.history st)
    (hcall : Stage.call input st = some (false, a)) :
    ¬ Calls.Done x.history (.chargeCustomer (toCharge input)) := by
  cases st with
  | refunding e => exact hat.1.uncharged
  | releasing e => exact hat.1.uncharged
  | failing e => exact hat.1.uncharged
  | _ => cases hcall

theorem abandoned_iff (effective : Bool) : NotAbandoned input
    [(.markPaid input.orderId, .interrupted effective),
      (.chargeCustomer (toCharge input), .ended (.ok ())),
      (.reserveStock input.orderPublicId input.items, .ended (.ok ()))] ↔ effective = true := by
  constructor
  · intro h
    by_contra hno
    rw [Bool.not_eq_true] at hno
    subst hno
    exact h.marked rfl
  · rintro rfl
    exact ⟨nofun, fun h => absurd rfl h, fun h => absurd rfl h⟩

theorem closedSafely_interrupted {a : Activity} {next : Except ActivityError Unit → Workflow OrderStatus}
    (h : Positioned input x) (hawait : x.flow = .await true a next) :
    ClosedSafely input ⟨(next (.error .cancelled)).resume .cancelled true, true, false,
      (a, .interrupted x.effective) :: x.history⟩ ↔ CancelledInTime input x .cancel := by
  obtain ⟨st, hflow, hat, _⟩ := h
  rw [hflow] at hawait
  obtain ⟨hcall, hnext⟩ := (chart input).of_await hawait
  have hresumed : (next (.error .cancelled)).resume .cancelled true =
      Stage.flow input (Stage.next st (.error .cancelled)) := by
    rw [hnext]
    exact (chart input).resume_shielded shielded_error _ _
  rw [hresumed]
  cases st with
  | reserving =>
    refine iff_of_true (fun hclosed => nomatch hclosed) fun _ hdone => ?_
    rw [show x.history = [] from hat] at hdone
    cases hdone
  | charging =>
    refine iff_of_true (fun hclosed => nomatch hclosed) fun _ hdone => ?_
    rw [show x.history = _ from hat] at hdone
    rcases done_cons.mp hdone with ⟨heq, _⟩ | hdone
    · cases heq
    · cases hdone
  | paying =>
    cases hcall
    have hpaid : x.history = _ := hat
    rw [hpaid]
    constructor
    · exact fun hsafe _ _ => (abandoned_iff x.effective).mp (hsafe rfl)
    · intro htime _
      refine (abandoned_iff x.effective).mpr (htime rfl ?_)
      rw [hpaid]
      exact List.mem_cons_self
  | _ => cases hcall

/-- A step closes the workflow with the order abandoned exactly if it is a cancellation between
the charge and `markPaid`. -/
theorem closedSafely_step (h : Positioned input x) (hs : Step runtime x ev x') :
    ClosedSafely input x' ↔ CancelledInTime input x ev := by
  have hx' := positioned_step h hs
  have hpos := h
  obtain ⟨st, hflow, hat, _⟩ := h
  cases hs with
  | effect hawait =>
    refine iff_of_true (fun hclosed => ?_) nofun
    rw [show x.flow = _ from hawait] at hclosed
    cases hclosed
  | finish hawait _ _ =>
    obtain ⟨st', hflow', hat', _⟩ := hx'
    refine iff_of_true (safe_of_closed hflow' hat' fun e he => ?_) nofun
    subst he
    obtain ⟨effective, heq⟩ := hat'
    cases heq
  | interrupt hawait => exact closedSafely_interrupted hpos hawait
  | request hawait =>
    rw [hflow] at hawait
    obtain ⟨hcall, _⟩ := (chart input).of_await hawait
    exact iff_of_true (fun hclosed => absurd hclosed (open_of_call hflow hcall))
      fun _ hdone => absurd hdone (not_charged_of_shielded hat hcall)

/-- Whatever its activities end with, a placement that closes leaves its order marked, and unless
paid released and refunded, exactly when no cancellation comes between the success of
`chargeCustomer` and the effect of `markPaid`. -/
theorem cancellation_safe_iff {cancelled : Bool}
    (hr : Run (Step runtime) (Execution.start runtime cancelled (orderPlaceWorkflow input)) tr x) :
    ClosedSafely input x ↔ Always (CancelledInTime input) tr := by
  have hstart : ClosedSafely input (Execution.start runtime cancelled (orderPlaceWorkflow input)) := by
    intro hclosed
    cases cancelled with
    | false => cases hclosed
    | true => cases hclosed
  rw [← hr.throughout_iff hstart fun hrun _ hstep => closedSafely_step (positioned_run hrun) hstep,
    hr.throughout_iff_last]
  intro _ t _ _ _ hstep _ hclosed
  rw [hstep.open] at hclosed
  cases hclosed

abbrev sampleStart (cancelled : Bool) : Execution Activity ActivityError OrderStatus :=
  Execution.start runtime cancelled (orderPlaceWorkflow sampleInput)

/-- One call of a run in which the activities end well. -/
theorem succeed (input : OrderPlaceWorkflowInput) (st : Stage) (cancelled : Bool) (calls : Calls) {c : Bool}
    {a : Activity} (hcall : Stage.call input st = some (c, a)) (hends : Ends a (.ok ()))
    (hnext : cancelled = true → (chart input).Shielded (Stage.next st (.ok ()))) :
    ∃ tr, Run (Step runtime) ⟨Stage.flow input st, cancelled, false, calls⟩ tr
      ⟨Stage.flow input (Stage.next st (.ok ())), cancelled, false, (a, .ended (.ok ())) :: calls⟩ :=
  (chart input).succeed hcall hends hnext

/-- The placement of the sample order while its charge runs. -/
def charging : Execution Activity ActivityError OrderStatus :=
  ⟨Stage.flow sampleInput .charging, false, false,
    [(.reserveStock sampleInput.orderPublicId sampleInput.items, .ended (.ok ()))]⟩

/-- Its charge has succeeded and `markPaid` is running. -/
def paying : Execution Activity ActivityError OrderStatus :=
  ⟨Stage.flow sampleInput .paying, false, false,
    (.chargeCustomer (toCharge sampleInput), .ended (.ok ())) :: charging.history⟩

theorem run_to_charging : ∃ tr, Run (Step runtime) (sampleStart false) tr charging :=
  succeed sampleInput .reserving false [] rfl trivial (fun h => nomatch h)

theorem run_to_paying : ∃ tr, Run (Step runtime) (sampleStart false) tr paying := by
  obtain ⟨_, hreserve⟩ := run_to_charging
  obtain ⟨_, hcharge⟩ := succeed sampleInput .charging false charging.history rfl trivial (fun h => nomatch h)
  exact ⟨_, hreserve.append hcharge⟩

/-- The cancellation comes while `markPaid` is running and has not taken effect. -/
theorem cancellation_safe_refuted : ¬ ∀ (input : OrderPlaceWorkflowInput) (cancelled : Bool)
    (tr : List _) (x : Execution Activity ActivityError OrderStatus),
    Run (Step runtime) (Execution.start runtime cancelled (orderPlaceWorkflow input)) tr x →
      ClosedSafely input x := by
  intro hclaim
  obtain ⟨_, hrun⟩ := run_to_paying
  have hcancel := hrun.snoc (.interrupt rfl)
  exact (hclaim _ _ _ _ hcancel rfl).marked rfl

/-- A cancellation during the charge is in time: refund, release, `canceled`. -/
theorem cancellation_safe_iff_charging : ∃ tr x, Run (Step runtime) (sampleStart false) tr x ∧
    x.cancelled = true ∧ orderStatus x.history = .canceled ∧ Always (CancelledInTime sampleInput) tr := by
  obtain ⟨_, hcharging⟩ := run_to_charging
  have hcall : (chart sampleInput).call .charging = some (true, .chargeCustomer (toCharge sampleInput)) := rfl
  have hshield : (chart sampleInput).Shielded (Stage.next .charging (.error .cancelled)) := shielded_error
  have hcancel : Step runtime charging .cancel ⟨Stage.flow sampleInput (.refunding .cancelled), true, false,
      (.chargeCustomer (toCharge sampleInput), .interrupted false) :: charging.history⟩ :=
    (chart sampleInput).interrupt (T := runtime) hcall hshield
  obtain ⟨_, hrefund⟩ := succeed sampleInput (.refunding .cancelled) true
    ((.chargeCustomer (toCharge sampleInput), .interrupted false) :: charging.history) rfl trivial
    fun _ => shielded_unheld
  obtain ⟨_, hrelease⟩ := succeed sampleInput (.releasing .cancelled) true _ rfl trivial fun _ => nofun
  obtain ⟨_, hfailed⟩ := succeed sampleInput (.failing .cancelled) true _ rfl trivial fun _ => nofun
  have hrun := (((hcharging.snoc hcancel).append hrefund).append hrelease).append hfailed
  refine ⟨_, _, hrun, rfl, rfl, (cancellation_safe_iff hrun).mp fun _ => ⟨nofun, fun _ _ => ?_, fun _ _ => ?_⟩⟩
  · exact List.mem_cons_of_mem _ List.mem_cons_self
  · exact List.mem_cons_of_mem _ (List.mem_cons_of_mem _ List.mem_cons_self)

end

end MarketplaceApi.Placement
