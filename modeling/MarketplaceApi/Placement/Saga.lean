import MarketplaceApi.Account.Inbox
import MarketplaceApi.Durable.Delivery
import MarketplaceApi.Placement.Requests
import MarketplaceApi.Placement.Workflow
import MarketplaceApi.Stock.Holding

/-!
# The saga of one order among its receivers

What each activity publishes, what the receiving handler does with it as one transaction
and what it replies. A message its gateway refuses, or a transaction that fails otherwise
than by a rejection, gets no reply. Other orders move the same accounts and offers.
-/
namespace MarketplaceApi.Placement

open Durable Messaging Transition Txn

/-- The account and seller-offer databases, and the status of the order. -/
structure World where
  account : Account.Tables
  stock : Stock.Tables
  status : OrderStatus

abbrev Reply := Option (Except ActivityError Unit)

/-- A request the gateway let through runs as one transaction. -/
def deliver {K S E R Q : Type} (handler : Q → Prog K S E R) (reply : Except E R → Reply) (q : Option Q)
    (s : S) : S × Reply :=
  match q with
  | none => (s, none)
  | some q => (((handler q).transact s).1, reply ((handler q).transact s).2)

/-- `OrderPlaceActivity.reserveStock`: a rejection is a failure that is not retried. -/
def reserveReply : Except Stock.Failure Stock.Status → Reply
  | .ok _ => some (.ok ())
  | .error (.rejected ..) => some (.error (.application OrderPlaceFailureType.insufficientStock.text))
  | .error _ => none

/-- `OrderPlaceActivity.chargeCustomer` -/
def chargeReply : Except Account.Failure Account.Status → Reply
  | .ok _ => some (.ok ())
  | .error (.rejected ..) => some (.error (.application OrderPlaceFailureType.paymentRejected.text))
  | .error _ => none

/-- `refundCustomer` and `releaseStock`: any response completes the activity. -/
def anyReply {E R : Type} : Except E R → Reply
  | .ok _ => some (.ok ())
  | .error _ => none

section
variable (isUUID : String → Bool) (key : String → Nat)

def reserveRequest (orderPublicId : String) (items : List OrderPlaceItem) : Option Stock.Request :=
  SellerOfferGateway.reserveRequest? isUUID key
    (OrderPlaceMessageService.toStockReserveRequest orderPublicId items)

def releaseRequest (orderPublicId : String) : Option Stock.Request :=
  SellerOfferGateway.releaseRequest? isUUID key (OrderPlaceMessageService.toStockReleaseRequest orderPublicId)

def chargeRequest (charge : OrderPlaceCharge) : Option Account.Request :=
  AccountGateway.chargeRequest? isUUID key (OrderPlaceMessageService.toAccountCustomerChargeRequest
    charge.orderPublicId charge.userId charge.totalAmount)

def refundRequest (charge : OrderPlaceCharge) : Option Account.Request :=
  AccountGateway.refundRequest? isUUID key (OrderPlaceMessageService.toAccountCustomerRefundRequest
    charge.orderPublicId charge.userId charge.totalAmount)

/-- One attempt of an activity: what it does and what comes back. -/
def perform : Activity → World → World × Reply
  | .reserveStock orderPublicId items, w =>
    let d := deliver Stock.handler reserveReply (reserveRequest isUUID key orderPublicId items) w.stock
    ({ w with stock := d.1 }, d.2)
  | .releaseStock orderPublicId, w =>
    let d := deliver Stock.handler anyReply (releaseRequest isUUID key orderPublicId) w.stock
    ({ w with stock := d.1 }, d.2)
  | .chargeCustomer charge, w =>
    let d := deliver Account.handler chargeReply (chargeRequest isUUID key charge) w.account
    ({ w with account := d.1 }, d.2)
  | .refundCustomer charge, w =>
    let d := deliver Account.handler anyReply (refundRequest isUUID key charge) w.account
    ({ w with account := d.1 }, d.2)
  | .markPaid _, w => ({ w with status := w.status.updatePending .paid }, some (.ok ()))
  | .markFailed _ failure, w => ({ w with status := w.status.updatePending failure.status }, some (.ok ()))

/-- What other orders send to the same receivers. -/
inductive Other where
  | account (q : Account.Request)
  | stock (q : Stock.Request)

inductive Elsewhere (orderPublicId : Nat) : Other → World → World → Prop
  | account {q w s status} : ¬ Account.Names orderPublicId q → Account.Commit q w.account s status →
      Elsewhere orderPublicId (.account q) w { w with account := s }
  | stock {q w s status} : q.order ≠ orderPublicId → Stock.Commit q w.stock s status →
      Elsewhere orderPublicId (.stock q) w { w with stock := s }

/-- Only reserve and charge give up without an answer of their receiver. -/
def receivers (input : OrderPlaceWorkflowInput) : Receivers Activity ActivityError World Other where
  perform := perform isUUID key
  mayFail a e := Ends a (.error e) ∧ toFailureType e = none
  env := Elsewhere (key input.orderPublicId)

end

/-- The calls that came back, the latest first. -/
abbrev Heard := List (Activity × Except ActivityError Unit)

abbrev PlacementSaga := Saga Activity ActivityError OrderStatus World

/-- The status the order is given at this position. -/
def Stage.mark : Stage → Option OrderStatus
  | .paying => some .paid
  | .paid => some .paid
  | .failing e => some (toFailure (toFailureType e)).status
  | .failed e => some (toFailure (toFailureType e)).status
  | _ => none

/-- Only the marks of the position were asked for, and a closed workflow has made its mark. -/
structure StatusAt (input : OrderPlaceWorkflowInput) (st : Stage) (sent : List Activity)
    (_ : Heard) (w : World) : Prop where
  sent : ∀ a ∈ sent, ∀ t, a.marks = some t → st.mark = some t
  status : w.status = .pendingPayment ∨ st.mark = some w.status
  closed : Stage.call input st = none → st.mark = some w.status

/-- The answer is one the activity can end with, and its mark is made. -/
def Answered (input : OrderPlaceWorkflowInput) (st : Stage) (r : Except ActivityError Unit) (w : World) : Prop :=
  ∀ c a, Stage.call input st = some (c, a) → Ends a r ∧ ∀ t, a.marks = some t → w.status = t

section
variable {isUUID : String → Bool} {key : String → Nat} {input : OrderPlaceWorkflowInput} {st : Stage}
  {c : Bool} {a : Activity} {r : Except ActivityError Unit} {w w' : World} {t : OrderStatus}

theorem deliver_reply {K S E R Q : Type} {handler : Q → Prog K S E R} {reply : Except E R → Reply}
    {q : Option Q} {s : S} (h : (deliver handler reply q s).2 = some r) :
    ∃ q' o, q = some q' ∧ ((handler q').transact s).2 = o ∧ reply o = some r := by
  cases q with
  | none => cases h
  | some q' => exact ⟨q', _, rfl, rfl, h⟩

/-- A delivery changes the tables only by a run that commits. -/
theorem deliver_run {K S E R Q : Type} (handler : Q → Prog K S E R) (reply : Except E R → Reply)
    (q : Option Q) (s : S) : (deliver handler reply q s).1 = s ∨ ∃ q' s' status, q = some q' ∧
      (handler q').run s = .ok (s', status) ∧ (deliver handler reply q s).1 = s' := by
  cases q with
  | none => exact Or.inl rfl
  | some q' =>
    cases hrun : (handler q').transact s with
    | mk s' o =>
      cases o with
      | ok status =>
        refine Or.inr ⟨q', s', status, rfl, Prog.transact_ok.mp hrun, ?_⟩
        exact congrArg Prod.fst hrun
      | error e =>
        refine Or.inl (Prog.transact_error (e := e) ?_)
        exact congrArg Prod.snd hrun

/-- A delivery that commits. -/
theorem deliver_of_run {K S E R Q : Type} {handler : Q → Prog K S E R} {reply : Except E R → Reply}
    {q : Q} {s s' : S} {status : R} (h : (handler q).run s = .ok (s', status)) :
    deliver handler reply (some q) s = (s', reply (.ok status)) := by
  have hrun := Prog.transact_ok.mpr h
  unfold deliver
  simp only [hrun]

/-- An answer other than a failure comes from a run that committed. -/
theorem deliver_ok {K S E R Q : Type} {handler : Q → Prog K S E R} {reply : Except E R → Reply}
    {q : Option Q} {s : S} (hreply : ∀ e, reply (.error e) ≠ some (.ok ()))
    (h : (deliver handler reply q s).2 = some (.ok ())) : ∃ q' s' status, q = some q' ∧
      (handler q').run s = .ok (s', status) ∧ (deliver handler reply q s).1 = s' := by
  obtain ⟨q', o, rfl, ho, hr⟩ := deliver_reply h
  cases o with
  | ok status =>
    have hrun : (handler q').transact s = (((handler q').transact s).1, .ok status) := Prod.ext rfl ho
    exact ⟨q', _, status, rfl, Prog.transact_ok.mp hrun, rfl⟩
  | error e => exact absurd hr (hreply e)

theorem chargeReply_error (e : Account.Failure) : chargeReply (.error e) ≠ some (.ok ()) := by
  cases e <;> exact nofun

theorem reserveReply_error (e : Stock.Failure) : reserveReply (.error e) ≠ some (.ok ()) := by
  cases e <;> exact nofun

theorem toFailureType_text (t : OrderPlaceFailureType) : toFailureType (.application t.text) = some t := by
  cases t <;> decide

theorem ends_reserveReply {o : Except Stock.Failure Stock.Status} {items : List OrderPlaceItem} {id : String}
    (h : reserveReply o = some r) : Ends (.reserveStock id items) r := by
  cases o with
  | ok status =>
    cases h
    trivial
  | error e =>
    cases e with
    | rejected reason items =>
      cases h
      refine ⟨nofun, ?_⟩
      rw [toFailureType_text]
      nofun
    | _ => cases h

theorem ends_chargeReply {o : Except Account.Failure Account.Status} {charge : OrderPlaceCharge}
    (h : chargeReply o = some r) : Ends (.chargeCustomer charge) r := by
  cases o with
  | ok status =>
    cases h
    trivial
  | error e =>
    cases e with
    | rejected reason amount balance =>
      cases h
      refine ⟨nofun, ?_⟩
      rw [toFailureType_text]
      nofun
    | _ => cases h

theorem anyReply_ok {E R : Type} {o : Except E R} (h : anyReply o = some r) : r = .ok () := by
  cases o with
  | ok _ =>
    cases h
    rfl
  | error _ => cases h

theorem ends_ok (a : Activity) : Ends a (.ok ()) := by
  cases a <;> trivial

/-- An activity only comes back with what it can end with. -/
theorem ends_perform (h : (perform isUUID key a w).2 = some r) : Ends a r := by
  cases a with
  | reserveStock id items =>
    have hd : (deliver Stock.handler reserveReply (reserveRequest isUUID key id items) w.stock).2 = some r := h
    obtain ⟨_, _, _, _, hr⟩ := deliver_reply hd
    exact ends_reserveReply hr
  | releaseStock id =>
    have hd : (deliver Stock.handler anyReply (releaseRequest isUUID key id) w.stock).2 = some r := h
    obtain ⟨_, _, _, _, hr⟩ := deliver_reply hd
    rw [anyReply_ok hr]
    exact ends_ok _
  | chargeCustomer charge =>
    have hd : (deliver Account.handler chargeReply (chargeRequest isUUID key charge) w.account).2 = some r := h
    obtain ⟨_, _, _, _, hr⟩ := deliver_reply hd
    exact ends_chargeReply hr
  | refundCustomer charge =>
    have hd : (deliver Account.handler anyReply (refundRequest isUUID key charge) w.account).2 = some r := h
    obtain ⟨_, _, _, _, hr⟩ := deliver_reply hd
    rw [anyReply_ok hr]
    exact ends_ok _
  | markPaid id =>
    cases h
    exact ends_ok _
  | markFailed id failure =>
    cases h
    exact ends_ok _

theorem status_perform : (perform isUUID key a w).1.status =
    ((a.marks.map w.status.updatePending).getD w.status) := by
  cases a <;> rfl

theorem mark_of_call (hcall : Stage.call input st = some (c, a)) (ha : a.marks = some t) : st.mark = some t := by
  cases st <;> cases hcall <;> exact ha

theorem failure_status (e : ActivityError) : (toFailure (toFailureType e)).status = .canceled ∨
    (toFailure (toFailureType e)).status = .failedPayment := by
  cases toFailureType e with
  | none => exact Or.inl rfl
  | some t =>
    cases t with
    | insufficientStock => exact Or.inl rfl
    | paymentRejected => exact Or.inr rfl

theorem updatePending_of_mark (h : w.status = .pendingPayment ∨ st.mark = some w.status)
    (ht : st.mark = some t) : w.status.updatePending t = t := by
  unfold OrderStatus.updatePending
  rcases h with hp | hm
  · rw [if_pos hp]
  · obtain rfl : t = w.status := Option.some.inj (ht.symm.trans hm)
    exact ite_self _

/-- A position that marks leads to one with the same mark. -/
theorem next_mark (hcall : Stage.call input st = some (c, a)) (hends : Ends a r) :
    st.mark = none ∨ (Stage.next st r).mark = st.mark := by
  cases st with
  | paying =>
    cases hcall
    cases r with
    | ok u => exact Or.inr rfl
    | error e => exact hends.elim
  | failing e =>
    cases hcall
    cases r with
    | ok u => exact Or.inr rfl
    | error e' => exact hends.elim
  | paid => cases hcall
  | failed e => cases hcall
  | _ => exact Or.inl rfl

theorem call_unheld (e : ActivityError) : Stage.call input (Stage.unheld e) ≠ none := by
  unfold Stage.unheld
  split <;> exact nofun

/-- The workflow closes only after a mark. -/
theorem mark_of_closing (hcall : Stage.call input st = some (c, a)) (hends : Ends a r)
    (hclosed : Stage.call input (Stage.next st r) = none) :
    ∃ t, a.marks = some t ∧ (Stage.next st r).mark = some t := by
  cases st with
  | reserving =>
    cases r with
    | ok u => cases hclosed
    | error e => exact absurd hclosed (call_unheld e)
  | charging =>
    cases r with
    | ok u => cases hclosed
    | error e =>
      change Stage.call input (if _ then _ else _) = none at hclosed
      split at hclosed
      · exact absurd hclosed (call_unheld e)
      · cases hclosed
  | paying =>
    cases hcall
    cases r with
    | ok u => exact ⟨_, rfl, rfl⟩
    | error e => exact hends.elim
  | refunding e =>
    cases hcall
    cases r with
    | ok u => exact absurd hclosed (call_unheld e)
    | error e' => exact hends.elim
  | releasing e =>
    cases hcall
    cases r with
    | ok u => cases hclosed
    | error e' => exact hends.elim
  | failing e =>
    cases hcall
    cases r with
    | ok u => exact ⟨_, rfl, rfl⟩
    | error e' => exact hends.elim
  | paid => cases hcall
  | failed e => cases hcall
  | thrown e => cases hcall

theorem ends_mark_error {e : ActivityError} (hends : Ends a (.error e)) : a.marks = none := by
  cases a <;> first | rfl | exact hends.elim

theorem StatusAt.next {sent : List Activity} {h : Heard}
    (hs : StatusAt input st sent h w) (hcall : Stage.call input st = some (c, a)) (hends : Ends a r)
    (hmark : ∀ t, a.marks = some t → w.status = t) : StatusAt input (Stage.next st r) sent ((a, r) :: h) w where
  sent b hb t hbt := by
    have hst := hs.sent b hb t hbt
    rcases next_mark hcall hends with hnone | hsame
    · rw [hnone] at hst
      cases hst
    · rw [hsame, hst]
  status := by
    rcases hs.status with hp | hm
    · exact Or.inl hp
    · rcases next_mark hcall hends with hnone | hsame
      · rw [hnone] at hm
        cases hm
      · exact Or.inr (hsame.trans hm)
  closed hclosed := by
    obtain ⟨t, hat, hnext⟩ := mark_of_closing hcall hends hclosed
    rw [hnext, hmark t hat]

/-- The status of the order follows the position of its workflow. -/
theorem status_invariant (isUUID : String → Bool) (key : String → Nat) (input : OrderPlaceWorkflowInput) :
    (chart input).Invariant (receivers isUUID key input) (StatusAt input) (Answered input) where
  attempt hcall hs := by
    refine ⟨fun b hb t hbt => ?_, hs.status, hs.closed⟩
    rcases List.mem_cons.mp hb with rfl | hb
    · exact mark_of_call hcall hbt
    · exact hs.sent b hb t hbt
  perform {st a sent h w} _ hsent hs := by
    have hstatus : ((receivers isUUID key input).perform a w).1.status =
        ((a.marks.map w.status.updatePending).getD w.status) := status_perform
    cases ha : a.marks with
    | none =>
      rw [ha] at hstatus
      exact ⟨hs.sent, by rw [hstatus]; exact hs.status, by rw [hstatus]; exact hs.closed⟩
    | some t =>
      have hmark := hs.sent a hsent t ha
      have hnew : ((receivers isUUID key input).perform a w).1.status = t := by
        rw [hstatus, ha]
        exact updatePending_of_mark hs.status hmark
      exact ⟨hs.sent, Or.inr (by rw [hnew, hmark]), fun _ => by rw [hnew, hmark]⟩
  answer {st c a sent h w r} hcall hs hr c' a' hcall' := by
    have heq : some (c, a) = some (c', a') := hcall.symm.trans hcall'
    cases heq
    refine ⟨ends_perform hr, fun t hat => ?_⟩
    have hstatus : ((receivers isUUID key input).perform a w).1.status =
        ((a.marks.map w.status.updatePending).getD w.status) := status_perform
    rw [hstatus, hat]
    exact updatePending_of_mark hs.status (mark_of_call hcall hat)
  keep {st a sent h w r} _ hsent hs hf c' a' hcall' := by
    obtain ⟨hends, hmarked⟩ := hf c' a' hcall'
    refine ⟨hends, fun t hat' => ?_⟩
    have hstatus : ((receivers isUUID key input).perform a w).1.status =
        ((a.marks.map w.status.updatePending).getD w.status) := status_perform
    rw [hstatus]
    cases ha : a.marks with
    | none => exact hmarked t hat'
    | some u =>
      have hmark := hs.sent a hsent u ha
      obtain rfl : u = t := Option.some.inj (hmark.symm.trans (mark_of_call hcall' hat'))
      exact updatePending_of_mark hs.status hmark
  settle hcall hs hf := by
    obtain ⟨hends, hmarked⟩ := hf _ _ hcall
    exact hs.next hcall hends hmarked
  fail hcall hfail hs := hs.next hcall hfail.1 fun t hat => by
    rw [ends_mark_error hfail.1] at hat
    cases hat
  env he hs := by
    cases he with
    | account _ _ => exact ⟨hs.sent, hs.status, hs.closed⟩
    | stock _ _ => exact ⟨hs.sent, hs.status, hs.closed⟩
  envKeep he hf := by
    cases he with
    | account _ _ => exact hf
    | stock _ _ => exact hf

end

section
variable (isUUID : String → Bool) (key : String → Nat) (input : OrderPlaceWorkflowInput) (w₀ : World)

/-- Some run leads to this position, with this world and these requests sent. -/
def Reaches (st : Stage) (w : World) (sent : List Activity) : Prop :=
  ∃ tr x, Run (SagaStep (receivers isUUID key input)) (Saga.start (orderPlaceWorkflow input) w₀) tr x ∧
    x.flow = Stage.flow input st ∧ x.world = w ∧ x.sent = sent

end

section
variable {isUUID : String → Bool} {key : String → Nat} {input : OrderPlaceWorkflowInput} {w₀ w w' : World}
  {st : Stage} {sent : List Activity} {c : Bool} {a : Activity} {r : Except ActivityError Unit}

theorem reaches_start : Reaches isUUID key input w₀ .reserving w₀ [] := ⟨_, _, .nil, rfl, rfl, rfl⟩

/-- An attempt that nobody answers yet. -/
theorem Reaches.attempt (h : Reaches isUUID key input w₀ st w sent)
    (hcall : Stage.call input st = some (c, a)) : Reaches isUUID key input w₀ st w (a :: sent) := by
  obtain ⟨_, x, hr, hflow, rfl, rfl⟩ := h
  have hawait := hflow.trans ((chart input).awaits hcall)
  exact ⟨_, _, hr.snoc (.attempt hawait), hflow, rfl, rfl⟩

/-- An attempt that is answered and heard. -/
theorem Reaches.round (h : Reaches isUUID key input w₀ st w sent)
    (hcall : Stage.call input st = some (c, a)) (hreply : (perform isUUID key a w).2 = some r) :
    Reaches isUUID key input w₀ (Stage.next st r) (perform isUUID key a w).1 (a :: sent) := by
  obtain ⟨_, x, hr, hflow, rfl, rfl⟩ := h
  have hround := Chart.exchange (C := chart input) (B := receivers isUUID key input) hflow hcall hreply
  exact ⟨_, _, hr.append hround, rfl, rfl, rfl⟩

/-- The activity gives up on its receiver. -/
theorem Reaches.fail {e : ActivityError} (h : Reaches isUUID key input w₀ st w sent)
    (hcall : Stage.call input st = some (c, a)) (hfail : Ends a (.error e) ∧ toFailureType e = none) :
    Reaches isUUID key input w₀ (Stage.next st (.error e)) w sent := by
  obtain ⟨_, x, hr, hflow, rfl, rfl⟩ := h
  have hawait := hflow.trans ((chart input).awaits hcall)
  exact ⟨_, _, hr.snoc (.fail hawait hfail), rfl, rfl, rfl⟩

theorem Reaches.stray (h : Reaches isUUID key input w₀ st w sent) (hsent : a ∈ sent) :
    Reaches isUUID key input w₀ st (perform isUUID key a w).1 sent := by
  obtain ⟨_, x, hr, hflow, rfl, rfl⟩ := h
  exact ⟨_, _, hr.snoc (.stray hsent), hflow, rfl, rfl⟩

theorem Reaches.elsewhere {v : Other} (h : Reaches isUUID key input w₀ st w sent)
    (hv : Elsewhere (key input.orderPublicId) v w w') : Reaches isUUID key input w₀ st w' sent := by
  obtain ⟨_, x, hr, hflow, rfl, rfl⟩ := h
  exact ⟨_, _, hr.snoc (.env hv), hflow, rfl, rfl⟩

end

/-- The sample order, when every text is a uuid and its own is 1. -/
abbrev SampleReaches (w₀ : World) : Stage → World → List Activity → Prop :=
  Reaches (fun _ => true) (fun _ => 1) sampleInput w₀

end MarketplaceApi.Placement
