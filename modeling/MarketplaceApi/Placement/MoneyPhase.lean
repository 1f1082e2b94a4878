import MarketplaceApi.Account.Charging
import MarketplaceApi.Placement.Saga

/-!
# The money of a placement

The phase of the order's charge id at each position of the workflow, whatever attempts of its
charge and refund are processed and when.
-/
namespace MarketplaceApi.Placement

open Durable Messaging Transition Txn

section
variable (key : String → Nat) (input : OrderPlaceWorkflowInput)

/-- The charge came back rejected. -/
def Rejected (h : Heard) : Prop :=
  ∃ e, (.chargeCustomer (toCharge input), .error e) ∈ h ∧ toFailureType e = some .paymentRejected

/-- The phase of the order's charge id; a request of it carries the movement of the order. -/
def MoneyPhase (s : Account.Tables) (p : Account.Phase) : Prop :=
  ∃ m, Account.InPhase (key input.orderPublicId) m s p ∧
    (p = .untouched ∨ AccountGateway.movement? input.userId input.totalAmount = some m)

structure Unsent (sent : List Activity) (p : Account.Phase) : Prop where
  charge : .chargeCustomer (toCharge input) ∉ sent
  refund : .refundCustomer (toCharge input) ∉ sent
  phase : p = .untouched

/-- Nothing more is asked for the money of the order. -/
inductive Settled (sent : List Activity) (h : Heard) (p : Account.Phase) : Prop where
  | unsent : ¬ Rejected input h → Unsent input sent p → Settled sent h p
  | rejected : Rejected input h → .refundCustomer (toCharge input) ∉ sent → ¬ p.refundSeen → Settled sent h p
  | givenBack : ¬ Rejected input h → p.refundSeen → Settled sent h p

def MoneyAt (sent : List Activity) (h : Heard) (p : Account.Phase) : Stage → Prop
  | .reserving => ¬ Rejected input h ∧ Unsent input sent p
  | .charging => ¬ Rejected input h ∧ .refundCustomer (toCharge input) ∉ sent ∧ ¬ p.refundSeen
  | .paying => ¬ Rejected input h ∧ .refundCustomer (toCharge input) ∉ sent ∧ p = .charged
  | .paid => ¬ Rejected input h ∧ .refundCustomer (toCharge input) ∉ sent ∧ p = .charged
  | .refunding _ => ¬ Rejected input h
  | .releasing _ => Settled input sent h p
  | .failing _ => Settled input sent h p
  | .failed _ => Settled input sent h p
  | .thrown _ => True

def MoneyInv (st : Stage) (sent : List Activity) (h : Heard) (w : World) : Prop :=
  ∃ p, MoneyPhase key input w.account p ∧ MoneyAt input sent h p st

/-- The inbox row an answer stands for. -/
def Stage.consumer : Stage → Option Account.Consumer
  | .charging => some .customerCharge
  | .refunding _ => some .customerRefund
  | _ => none

def MoneyAnswered (st : Stage) (r : Except ActivityError Unit) (w : World) : Prop :=
  r = .ok () → ∀ consumer, st.consumer = some consumer → (consumer, key input.orderPublicId) ∈ w.account.inbox

end

section
variable {isUUID : String → Bool} {key : String → Nat} {input : OrderPlaceWorkflowInput} {st : Stage}
  {c : Bool} {a : Activity} {r : Except ActivityError Unit} {w w' : World} {sent : List Activity}
  {h : Heard} {p p' : Account.Phase} {s s' : Account.Tables} {e : ActivityError} {q : Account.Request}

theorem rejected_cons : Rejected input ((a, r) :: h) ↔
    (a = .chargeCustomer (toCharge input) ∧ ∃ e, r = .error e ∧ toFailureType e = some .paymentRejected) ∨
      Rejected input h := by
  constructor
  · rintro ⟨e, hin, htype⟩
    rcases List.mem_cons.mp hin with heq | hin
    · cases heq
      exact Or.inl ⟨rfl, e, rfl, htype⟩
    · exact Or.inr ⟨e, hin, htype⟩
  · intro hr
    rcases hr with ⟨rfl, e, rfl, htype⟩ | ⟨e, hin, htype⟩
    · exact ⟨e, List.mem_cons_self, htype⟩
    · exact ⟨e, List.mem_cons_of_mem _ hin, htype⟩

theorem chargeRequest_some (hq : chargeRequest isUUID key (toCharge input) = some q) :
    ∃ m, AccountGateway.movement? input.userId input.totalAmount = some m ∧
      q = .charge ⟨key input.orderPublicId, m⟩ := by
  unfold chargeRequest AccountGateway.chargeRequest? at hq
  split at hq
  · obtain ⟨m, hm, rfl⟩ := Option.map_eq_some_iff.mp hq
    exact ⟨m, hm, rfl⟩
  · cases hq

theorem refundRequest_some (hq : refundRequest isUUID key (toCharge input) = some q) :
    ∃ m, AccountGateway.movement? input.userId input.totalAmount = some m ∧
      q = .refund ⟨key input.orderPublicId, m, key input.orderPublicId⟩ := by
  unfold refundRequest AccountGateway.refundRequest? at hq
  split at hq
  · obtain ⟨m, hm, rfl⟩ := Option.map_eq_some_iff.mp hq
    exact ⟨m, hm, rfl⟩
  · cases hq

/-- Once its requests carry a movement, the phase is about that movement. -/
theorem MoneyPhase.movement {m : Account.Movement} (hp : MoneyPhase key input s p)
    (hm : AccountGateway.movement? input.userId input.totalAmount = some m) :
    Account.InPhase (key input.orderPublicId) m s p := by
  obtain ⟨m', hphase, rfl | hm'⟩ := hp
  · exact hphase.untouched m
  · obtain rfl : m = m' := Option.some.inj (hm.symm.trans hm')
    exact hphase

theorem MoneyPhase.charge {status : Account.Status} (hp : MoneyPhase key input s p)
    (hq : chargeRequest isUUID key (toCharge input) = some q)
    (hrun : (Account.handler q).run s = .ok (s', status)) : ∃ p', MoneyPhase key input s' p' ∧
      p'.chargeSeen ∧ (p' = p ∨ (p = .untouched ∧ p' = .charged)) := by
  obtain ⟨m, hm, rfl⟩ := chargeRequest_some hq
  obtain ⟨p', hphase, hseen, hmove⟩ := (hp.movement hm).charge_commit (Account.commit_of_run hrun)
  exact ⟨p', ⟨m, hphase, Or.inr hm⟩, hseen, hmove⟩

theorem MoneyPhase.refund {status : Account.Status} (hp : MoneyPhase key input s p)
    (hq : refundRequest isUUID key (toCharge input) = some q)
    (hrun : (Account.handler q).run s = .ok (s', status)) : ∃ p', MoneyPhase key input s' p' ∧
      p'.refundSeen ∧ (p.refundSeen → p' = p) := by
  obtain ⟨m, hm, rfl⟩ := refundRequest_some hq
  obtain ⟨p', hphase, hseen, hmove⟩ := (hp.movement hm).refund_commit (Account.commit_of_run hrun)
  exact ⟨p', ⟨m, hphase, Or.inr hm⟩, hseen, hmove⟩

theorem moneyAt_unheld (hs : Settled input sent h p) : MoneyAt input sent h p (Stage.unheld e) := by
  unfold Stage.unheld
  split <;> exact hs

theorem Settled.charge (hs : Settled input sent h p) (hsent : .chargeCustomer (toCharge input) ∈ sent)
    (hmove : p' = p ∨ (p = .untouched ∧ p' = .charged)) : Settled input sent h p' := by
  rcases hmove with rfl | ⟨rfl, rfl⟩
  · exact hs
  · cases hs with
    | unsent _ hu => exact absurd hsent hu.charge
    | rejected hr hno _ => exact .rejected hr hno id
    | givenBack _ hseen => exact hseen.elim

theorem Settled.refund (hs : Settled input sent h p) (hsent : .refundCustomer (toCharge input) ∈ sent)
    (hmove : p.refundSeen → p' = p) : Settled input sent h p' := by
  cases hs with
  | unsent _ hu => exact absurd hsent hu.refund
  | rejected _ hno _ => exact absurd hsent hno
  | givenBack hr hseen =>
    rw [hmove hseen]
    exact .givenBack hr hseen

/-- A charge that was sent, processed at any time. -/
theorem MoneyAt.charge (hm : MoneyAt input sent h p st) (hsent : .chargeCustomer (toCharge input) ∈ sent)
    (hmove : p' = p ∨ (p = .untouched ∧ p' = .charged)) : MoneyAt input sent h p' st := by
  cases st with
  | reserving => exact absurd hsent hm.2.charge
  | charging =>
    rcases hmove with rfl | ⟨rfl, rfl⟩
    · exact hm
    · exact ⟨hm.1, hm.2.1, id⟩
  | paying =>
    obtain ⟨hr, hno, rfl⟩ := hm
    rcases hmove with rfl | ⟨heq, _⟩
    · exact ⟨hr, hno, rfl⟩
    · cases heq
  | paid =>
    obtain ⟨hr, hno, rfl⟩ := hm
    rcases hmove with rfl | ⟨heq, _⟩
    · exact ⟨hr, hno, rfl⟩
    · cases heq
  | refunding e => exact hm
  | releasing e => exact Settled.charge hm hsent hmove
  | failing e => exact Settled.charge hm hsent hmove
  | failed e => exact Settled.charge hm hsent hmove
  | thrown e => trivial

/-- A refund that was sent, processed at any time. -/
theorem MoneyAt.refund (hm : MoneyAt input sent h p st) (hsent : .refundCustomer (toCharge input) ∈ sent)
    (hmove : p.refundSeen → p' = p) : MoneyAt input sent h p' st := by
  cases st with
  | reserving => exact absurd hsent hm.2.refund
  | charging => exact absurd hsent hm.2.1
  | paying => exact absurd hsent hm.2.1
  | paid => exact absurd hsent hm.2.1
  | refunding e => exact hm
  | releasing e => exact Settled.refund hm hsent hmove
  | failing e => exact Settled.refund hm hsent hmove
  | failed e => exact Settled.refund hm hsent hmove
  | thrown e => trivial

theorem rejected_other (ha : a ≠ .chargeCustomer (toCharge input)) :
    Rejected input ((a, r) :: h) ↔ Rejected input h := by
  rw [rejected_cons]
  exact ⟨fun hr => hr.resolve_left fun hc => ha hc.1, Or.inr⟩

theorem not_rejected_cons (hr : ¬ Rejected input h) (ha : a ≠ .chargeCustomer (toCharge input)) :
    ¬ Rejected input ((a, r) :: h) := mt (rejected_other ha).mp hr

theorem Settled.later (hs : Settled input sent h p) (ha : a ≠ .chargeCustomer (toCharge input)) :
    Settled input sent ((a, r) :: h) p := by
  cases hs with
  | unsent hr hu => exact .unsent (not_rejected_cons hr ha) hu
  | rejected hr hno hseen => exact .rejected ((rejected_other ha).mpr hr) hno hseen
  | givenBack hr hseen => exact .givenBack (not_rejected_cons hr ha) hseen

theorem Settled.attempt (hs : Settled input sent h p) (hc : .chargeCustomer (toCharge input) ≠ a)
    (hr : .refundCustomer (toCharge input) ≠ a) : Settled input (a :: sent) h p := by
  cases hs with
  | unsent hrej hu =>
    exact .unsent hrej ⟨List.not_mem_cons_of_ne_of_not_mem hc hu.charge,
      List.not_mem_cons_of_ne_of_not_mem hr hu.refund, hu.phase⟩
  | rejected hrej hno hseen => exact .rejected hrej (List.not_mem_cons_of_ne_of_not_mem hr hno) hseen
  | givenBack hrej hseen => exact .givenBack hrej hseen

theorem MoneyPhase.seen (hp : MoneyPhase key input s p) :
    ((.customerCharge, key input.orderPublicId) ∈ s.inbox ↔ p.chargeSeen) ∧
      ((.customerRefund, key input.orderPublicId) ∈ s.inbox ↔ p.refundSeen) := by
  obtain ⟨m, hphase, _⟩ := hp
  exact ⟨hphase.charge, hphase.refund⟩

theorem charged_of_seen (hc : p.chargeSeen) (hr : ¬ p.refundSeen) : p = .charged := by
  cases p with
  | untouched => exact hc.elim
  | charged => rfl
  | refunded => exact absurd trivial hr
  | fenced => exact absurd trivial hr

/-- A call that came back leads to its next position. -/
theorem MoneyAt.next (hm : MoneyAt input sent h p st) (hp : MoneyPhase key input w.account p)
    (hcall : Stage.call input st = some (c, a)) (hans : MoneyAnswered key input st r w) :
    MoneyAt input sent ((a, r) :: h) p (Stage.next st r) := by
  cases st with
  | reserving =>
    cases hcall
    obtain ⟨hr, hu⟩ := hm
    cases r with
    | ok u => exact ⟨not_rejected_cons hr nofun, hu.refund, hu.phase ▸ id⟩
    | error e => exact moneyAt_unheld (.unsent (not_rejected_cons hr nofun) hu)
  | charging =>
    cases hcall
    obtain ⟨hr, hno, hseen⟩ := hm
    cases r with
    | ok u =>
      have hcharge := hp.seen.1.mp (hans rfl _ rfl)
      exact ⟨mt rejected_cons.mp (not_or.mpr ⟨nofun, hr⟩), hno, charged_of_seen hcharge hseen⟩
    | error e =>
      simp only [Stage.next]
      split
      · rename_i htype
        exact moneyAt_unheld (.rejected (rejected_cons.mpr (Or.inl ⟨rfl, e, rfl, htype⟩)) hno hseen)
      · rename_i htype
        intro hrej
        rcases rejected_cons.mp hrej with ⟨_, e', heq, htype'⟩ | hold
        · cases heq
          exact htype htype'
        · exact hr hold
  | paying =>
    cases hcall
    cases r with
    | ok u => exact ⟨not_rejected_cons hm.1 nofun, hm.2⟩
    | error e => trivial
  | refunding e =>
    cases hcall
    cases r with
    | ok u =>
      have hrefund := hp.seen.2.mp (hans rfl _ rfl)
      exact moneyAt_unheld (.givenBack (not_rejected_cons hm nofun) hrefund)
    | error e' => trivial
  | releasing e =>
    cases hcall
    cases r with
    | ok u => exact Settled.later hm nofun
    | error e' => trivial
  | failing e =>
    cases hcall
    cases r with
    | ok u => exact Settled.later hm nofun
    | error e' => trivial
  | paid => cases hcall
  | failed e => cases hcall
  | thrown e => cases hcall

theorem inbox_perform {row : Account.Consumer × Account.Uuid} (hrow : row ∈ w.account.inbox) :
    row ∈ (perform isUUID key a w).1.account.inbox := by
  have grows : ∀ (reply : Except Account.Failure Account.Status → Reply) (q : Option Account.Request),
      row ∈ (deliver Account.handler reply q w.account).1.inbox := by
    intro reply q
    rcases deliver_run Account.handler reply q w.account with hsame | ⟨q', s', status, _, hrun, hs'⟩
    · rw [hsame]
      exact hrow
    · rw [hs']
      exact Account.inbox_grows (Account.commit_of_run hrun) hrow
  cases a with
  | chargeCustomer charge => exact grows _ _
  | refundCustomer charge => exact grows _ _
  | _ => exact hrow

theorem MoneyInv.perform (hi : MoneyInv key input st sent h w) (hcalls : (chart input).Calls a)
    (hsent : a ∈ sent) : MoneyInv key input st sent h (perform isUUID key a w).1 := by
  obtain ⟨p, hp, hm⟩ := hi
  obtain ⟨st₀, c, hcall⟩ := hcalls
  have hcall' : Stage.call input st₀ = some (c, a) := hcall
  cases st₀ with
  | charging =>
    cases hcall'
    rcases deliver_run Account.handler chargeReply (chargeRequest isUUID key (toCharge input)) w.account with
      hsame | ⟨q, s', status, hq, hrun, hs'⟩
    · refine ⟨p, ?_, hm⟩
      change MoneyPhase key input (deliver _ _ _ _).1 p
      rw [hsame]
      exact hp
    · obtain ⟨p', hp', _, hmove⟩ := hp.charge hq hrun
      refine ⟨p', ?_, hm.charge hsent hmove⟩
      change MoneyPhase key input (deliver _ _ _ _).1 p'
      rw [hs']
      exact hp'
  | refunding e =>
    cases hcall'
    rcases deliver_run Account.handler anyReply (refundRequest isUUID key (toCharge input)) w.account with
      hsame | ⟨q, s', status, hq, hrun, hs'⟩
    · refine ⟨p, ?_, hm⟩
      change MoneyPhase key input (deliver _ _ _ _).1 p
      rw [hsame]
      exact hp
    · obtain ⟨p', hp', _, hmove⟩ := hp.refund hq hrun
      refine ⟨p', ?_, hm.refund hsent hmove⟩
      change MoneyPhase key input (deliver _ _ _ _).1 p'
      rw [hs']
      exact hp'
  | reserving =>
    cases hcall'
    exact ⟨p, hp, hm⟩
  | paying =>
    cases hcall'
    exact ⟨p, hp, hm⟩
  | releasing e =>
    cases hcall'
    exact ⟨p, hp, hm⟩
  | failing e =>
    cases hcall'
    exact ⟨p, hp, hm⟩
  | paid => cases hcall'
  | failed e => cases hcall'
  | thrown e => cases hcall'

/-- An answer of the account context stands for an inbox row. -/
theorem moneyAnswered_perform (hp : MoneyPhase key input w.account p)
    (hcall : Stage.call input st = some (c, a)) (hr : (perform isUUID key a w).2 = some r) :
    MoneyAnswered key input st r (perform isUUID key a w).1 := by
  rintro rfl consumer hconsumer
  cases st with
  | charging =>
    cases hcall
    cases hconsumer
    have hd : (deliver Account.handler chargeReply (chargeRequest isUUID key (toCharge input)) w.account).2 =
      some (.ok ()) := hr
    obtain ⟨q, s', status, hq, hrun, hs'⟩ := deliver_ok chargeReply_error hd
    obtain ⟨p', hp', hseen, _⟩ := hp.charge hq hrun
    have hrow := hp'.seen.1.mpr hseen
    rw [← hs'] at hrow
    exact hrow
  | refunding e =>
    cases hcall
    cases hconsumer
    have hd : (deliver Account.handler anyReply (refundRequest isUUID key (toCharge input)) w.account).2 =
      some (.ok ()) := hr
    obtain ⟨q, s', status, hq, hrun, hs'⟩ := deliver_ok nofun hd
    obtain ⟨p', hp', hseen, _⟩ := hp.refund hq hrun
    have hrow := hp'.seen.2.mpr hseen
    rw [← hs'] at hrow
    exact hrow
  | _ => cases hconsumer

/-- A new call that is not about money, or comes where it belongs. -/
theorem MoneyAt.attempt (hm : MoneyAt input sent h p st) (hcall : Stage.call input st = some (c, a)) :
    MoneyAt input (a :: sent) h p st := by
  cases st with
  | reserving =>
    cases hcall
    exact ⟨hm.1, List.not_mem_cons_of_ne_of_not_mem nofun hm.2.charge,
      List.not_mem_cons_of_ne_of_not_mem nofun hm.2.refund, hm.2.phase⟩
  | charging =>
    cases hcall
    exact ⟨hm.1, List.not_mem_cons_of_ne_of_not_mem nofun hm.2.1, hm.2.2⟩
  | paying =>
    cases hcall
    exact ⟨hm.1, List.not_mem_cons_of_ne_of_not_mem nofun hm.2.1, hm.2.2⟩
  | refunding e => exact hm
  | releasing e =>
    cases hcall
    exact Settled.attempt hm nofun nofun
  | failing e =>
    cases hcall
    exact Settled.attempt hm nofun nofun
  | paid => cases hcall
  | failed e => cases hcall
  | thrown e => cases hcall

theorem MoneyPhase.other {status : Account.Status} (hp : MoneyPhase key input s p)
    (hq : ¬ Account.Names (key input.orderPublicId) q) (hc : Account.Commit q s s' status) :
    MoneyPhase key input s' p := by
  obtain ⟨m, hphase, hm⟩ := hp
  exact ⟨m, hphase.other hq hc, hm⟩

/-- The phase of the order's charge id follows the position of its workflow. -/
theorem money_invariant (isUUID : String → Bool) (key : String → Nat) (input : OrderPlaceWorkflowInput) :
    (chart input).Invariant (receivers isUUID key input) (MoneyInv key input) (MoneyAnswered key input) where
  attempt hcall hi := by
    obtain ⟨p, hp, hm⟩ := hi
    exact ⟨p, hp, hm.attempt hcall⟩
  perform hcalls hsent hi := hi.perform hcalls hsent
  answer hcall hi hr := by
    obtain ⟨p, hp, _⟩ := hi
    exact moneyAnswered_perform hp hcall hr
  keep _ _ _ hf hok consumer hconsumer := inbox_perform (hf hok consumer hconsumer)
  settle hcall hi hf := by
    obtain ⟨p, hp, hm⟩ := hi
    exact ⟨p, hp, hm.next hp hcall hf⟩
  fail hcall _ hi := by
    obtain ⟨p, hp, hm⟩ := hi
    exact ⟨p, hp, hm.next hp hcall nofun⟩
  env he hi := by
    obtain ⟨p, hp, hm⟩ := hi
    cases he with
    | account hq hc => exact ⟨p, hp.other hq hc, hm⟩
    | stock _ _ => exact ⟨p, hp, hm⟩
  envKeep he hf hok consumer hconsumer := by
    have hrow := hf hok consumer hconsumer
    cases he with
    | account _ hc => exact Account.inbox_grows hc hrow
    | stock _ _ => exact hrow

end

end MarketplaceApi.Placement
