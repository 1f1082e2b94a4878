import MarketplaceApi.Account.Ledger

/-!
# One charge id, exactly once

The life of a charge id has four phases, whatever the number and order of deliveries. The
phases are the specification; the tables refine it, commit by commit.
-/
namespace MarketplaceApi.Account

open Txn Transition

/-- What has happened to a charge id so far. -/
inductive Phase where
  | untouched
  | charged
  | refunded
  | fenced
  deriving DecidableEq

/-- The only moves of a charge id. `refunded` and `fenced` are final. -/
inductive Phase.Next (id : Uuid) : Request → Status → Phase → Phase → Prop
  | charge {msg} : msg.id = id → Next id (.charge msg) .success .untouched .charged
  | fence {msg} : msg.id = id → Next id (.refund msg) .notCharged .untouched .fenced
  | refund {msg} : msg.id = id → Next id (.refund msg) .refunded .charged .refunded

def Phase.chargeSeen : Phase → Prop
  | .untouched => False
  | .charged | .refunded | .fenced => True

def Phase.refundSeen : Phase → Prop
  | .untouched | .charged => False
  | .refunded | .fenced => True

/-- The ledger rows of the id, newest first. -/
def Phase.rows (id : Uuid) (m : Movement) : Phase → List Transaction
  | .untouched | .fenced => []
  | .charged => [payment ⟨id, m⟩]
  | .refunded => [refundRow ⟨id, m, id⟩, payment ⟨id, m⟩]

/-- The tables show the id in this phase. -/
structure InPhase (id : Uuid) (m : Movement) (s : Tables) (p : Phase) : Prop where
  rows : s.rowsOf id = p.rows id m
  charge : (.customerCharge, id) ∈ s.inbox ↔ p.chargeSeen
  refund : (.customerRefund, id) ∈ s.inbox ↔ p.refundSeen

/-- Every request that names the id carries the movement `m`, and a refund names it twice. -/
def Carries (id : Uuid) (m : Movement) : Request → Prop
  | .charge msg => msg.id = id → msg.data = m
  | .refund msg => msg.id = id ∨ msg.chargeId = id → msg.id = id ∧ msg.chargeId = id ∧ msg.data = m
  | .userCreated _ => True

/-- A request that concerns the id. -/
def Names (id : Uuid) : Request → Prop
  | .charge msg => msg.id = id
  | .refund msg => msg.id = id ∨ msg.chargeId = id
  | .userCreated _ => False

section
variable {id : Uuid} {m : Movement} {s s' : Tables} {p : Phase} {q : Request} {status : Status}

theorem InPhase.charged {msg : ChargeRequest} (h : InPhase id m s p) (hq : Carries id m (.charge msg))
    (hn : (.customerCharge, msg.id) ∉ s.inbox) (balance : Int) :
    ∃ p', InPhase id m (chargeApplied s msg balance) p' ∧
      (p' = p ∨ Phase.Next id (.charge msg) .success p p') := by
  obtain ⟨msgId, data⟩ := msg
  by_cases hid : msgId = id
  · obtain rfl : data = m := hq hid
    subst hid
    cases p with
    | untouched =>
      refine ⟨.charged, ⟨?_, ?_, ?_⟩, Or.inr (.charge rfl)⟩
      · simp [chargeApplied, rowsOf_addTransaction, payment, h.rows, Phase.rows]
      · simp [chargeApplied, Phase.chargeSeen]
      · simpa [chargeApplied, Phase.refundSeen] using h.refund
    | charged => exact absurd (h.charge.mpr trivial) hn
    | refunded => exact absurd (h.charge.mpr trivial) hn
    | fenced => exact absurd (h.charge.mpr trivial) hn
  · refine ⟨p, ⟨?_, ?_, ?_⟩, Or.inl rfl⟩
    · simpa [chargeApplied, rowsOf_addTransaction, payment, hid] using h.rows
    · simpa [chargeApplied, Ne.symm hid] using h.charge
    · simpa [chargeApplied] using h.refund

theorem InPhase.refunded {msg : RefundRequest} (h : InPhase id m s p) (hq : Carries id m (.refund msg))
    (hn : (.customerRefund, msg.id) ∉ s.inbox) (hc : (.customerCharge, msg.chargeId) ∈ s.inbox) :
    ∃ p', InPhase id m (refundApplied s msg) p' ∧
      ((p' = p ∧ msg.id ≠ id) ∨ Phase.Next id (.refund msg) .refunded p p') := by
  obtain ⟨msgId, data, chargeId⟩ := msg
  by_cases hid : msgId = id ∨ chargeId = id
  · obtain ⟨rfl, rfl, rfl⟩ : msgId = id ∧ chargeId = id ∧ data = m := hq hid
    cases p with
    | untouched => exact absurd (h.charge.mp hc) id
    | charged =>
      refine ⟨.refunded, ⟨?_, ?_, ?_⟩, Or.inr (.refund rfl)⟩
      · simp [refundApplied, rowsOf_addTransaction, refundRow, h.rows, Phase.rows]
      · simpa [refundApplied, Phase.chargeSeen] using h.charge
      · simp [refundApplied, Phase.refundSeen]
    | refunded => exact absurd (h.refund.mpr trivial) hn
    | fenced => exact absurd (h.refund.mpr trivial) hn
  · rw [not_or] at hid
    refine ⟨p, ⟨?_, ?_, ?_⟩, Or.inl ⟨rfl, hid.1⟩⟩
    · simpa [refundApplied, rowsOf_addTransaction, refundRow, hid.2] using h.rows
    · simpa [refundApplied] using h.charge
    · simpa [refundApplied, Ne.symm hid.1] using h.refund

theorem InPhase.fenced {msg : RefundRequest} (h : InPhase id m s p) (hq : Carries id m (.refund msg))
    (hn : (.customerRefund, msg.id) ∉ s.inbox) (hc : (.customerCharge, msg.chargeId) ∉ s.inbox) :
    ∃ p', InPhase id m (refundFenced s msg) p' ∧
      ((p' = p ∧ msg.id ≠ id) ∨ Phase.Next id (.refund msg) .notCharged p p') := by
  obtain ⟨msgId, data, chargeId⟩ := msg
  by_cases hid : msgId = id ∨ chargeId = id
  · obtain ⟨rfl, rfl, rfl⟩ : msgId = id ∧ chargeId = id ∧ data = m := hq hid
    cases p with
    | untouched =>
      refine ⟨.fenced, ⟨?_, ?_, ?_⟩, Or.inr (.fence rfl)⟩
      · simpa [refundFenced, Phase.rows] using h.rows
      · simp [refundFenced, Phase.chargeSeen]
      · simp [refundFenced, Phase.refundSeen]
    | charged => exact absurd (h.charge.mpr trivial) hc
    | refunded => exact absurd (h.charge.mpr trivial) hc
    | fenced => exact absurd (h.charge.mpr trivial) hc
  · rw [not_or] at hid
    refine ⟨p, ⟨?_, ?_, ?_⟩, Or.inl ⟨rfl, hid.1⟩⟩
    · simpa [refundFenced] using h.rows
    · simpa [refundFenced, Ne.symm hid.2] using h.charge
    · simpa [refundFenced, Ne.symm hid.1] using h.refund

/-- The tables refine the phases: a commit stays in its phase or makes one of the moves, and
a refund of the id stays only where one was seen. -/
theorem InPhase.commit (h : InPhase id m s p) (hq : Carries id m q) (hc : Commit q s s' status) :
    ∃ p', InPhase id m s' p' ∧
      ((p' = p ∧ ∀ msg, q = .refund msg → msg.id = id → p.refundSeen) ∨
        Phase.Next id q status p p') := by
  cases hc with
  | charged hn hb hle =>
    obtain ⟨p', hp, rfl | hnext⟩ := h.charged hq hn _
    · exact ⟨p', hp, Or.inl ⟨rfl, by rintro _ ⟨⟩⟩⟩
    · exact ⟨p', hp, Or.inr hnext⟩
  | chargeSkipped _ => exact ⟨p, h, Or.inl ⟨rfl, by rintro _ ⟨⟩⟩⟩
  | refunded hn hin hfits =>
    obtain ⟨p', hp, ⟨rfl, hne⟩ | hnext⟩ := h.refunded hq hn hin
    · exact ⟨p', hp, Or.inl ⟨rfl, by rintro _ ⟨⟩ hid; exact absurd hid hne⟩⟩
    · exact ⟨p', hp, Or.inr hnext⟩
  | fenced hn hc =>
    obtain ⟨p', hp, ⟨rfl, hne⟩ | hnext⟩ := h.fenced hq hn hc
    · exact ⟨p', hp, Or.inl ⟨rfl, by rintro _ ⟨⟩ hid; exact absurd hid hne⟩⟩
    · exact ⟨p', hp, Or.inr hnext⟩
  | @refundSkipped msg _ hin =>
    refine ⟨p, h, Or.inl ⟨rfl, ?_⟩⟩
    rintro _ ⟨⟩ hid
    exact h.refund.mp (hid ▸ hin)
  | accountCreated _ => exact ⟨p, ⟨h.rows, h.charge, h.refund⟩, Or.inl ⟨rfl, by rintro _ ⟨⟩⟩⟩
  | accountKept _ => exact ⟨p, h, Or.inl ⟨rfl, by rintro _ ⟨⟩⟩⟩

/-- Requests of other ids do not change the phase. -/
theorem InPhase.other (h : InPhase id m s p) (hq : ¬ Names id q) (hc : Commit q s s' status) :
    InPhase id m s' p := by
  have hcarries : Carries id m q := by
    cases q with
    | charge msg => exact fun hid => absurd hid hq
    | refund msg => exact fun hid => absurd hid hq
    | userCreated c => trivial
  obtain ⟨p', hp, ⟨rfl, _⟩ | hnext⟩ := h.commit hcarries hc
  · exact hp
  · cases hnext with
    | charge hid => exact absurd hid hq
    | fence hid => exact absurd (Or.inl hid) hq
    | refund hid => exact absurd (Or.inl hid) hq

/-- What the answers given so far say about the phase. -/
structure Logged (id : Uuid) (p : Phase) (as : List (Request × Except Failure Status)) : Prop where
  refund : ∀ msg status, (.refund msg, .ok status) ∈ as → msg.id = id → p.refundSeen
  charge : p.chargeSeen → (∃ msg, msg.id = id ∧ (.charge msg, .ok .success) ∈ as) ∨
    ∃ msg, msg.id = id ∧ (.refund msg, .ok .notCharged) ∈ as

theorem Logged.stay {as : List (Request × Except Failure Status)} (h : Logged id p as)
    {o : Except Failure Status}
    (hq : ∀ msg status, q = .refund msg → o = .ok status → msg.id = id → p.refundSeen) :
    Logged id p ((q, o) :: as) where
  refund msg status hin hid := by
    rcases List.mem_cons.mp hin with he | hin
    · cases he
      exact hq msg status rfl rfl hid
    · exact h.refund msg status hin hid
  charge hp := by
    rcases h.charge hp with ⟨msg, hid, hin⟩ | ⟨msg, hid, hin⟩
    · exact Or.inl ⟨msg, hid, List.mem_cons_of_mem _ hin⟩
    · exact Or.inr ⟨msg, hid, List.mem_cons_of_mem _ hin⟩

theorem Logged.next {as : List (Request × Except Failure Status)} (h : Logged id p as) {p' : Phase}
    (hnext : Phase.Next id q status p p') : Logged id p' ((q, .ok status) :: as) where
  refund msg st hin hid := by
    cases hnext with
    | charge _ =>
      rcases List.mem_cons.mp hin with he | hin
      · cases he
      · exact h.refund msg st hin hid
    | fence _ => trivial
    | refund _ => trivial
  charge hp := by
    cases hnext with
    | @charge msg hid => exact Or.inl ⟨msg, hid, List.mem_cons_self⟩
    | @fence msg hid => exact Or.inr ⟨msg, hid, List.mem_cons_self⟩
    | refund _ =>
      rcases h.charge trivial with ⟨msg, hid, hin⟩ | ⟨msg, hid, hin⟩
      · exact Or.inl ⟨msg, hid, List.mem_cons_of_mem _ hin⟩
      · exact Or.inr ⟨msg, hid, List.mem_cons_of_mem _ hin⟩

/-- The sum of everything the id did to a balance. -/
def Tables.net (s : Tables) (id : Uuid) : Int := ((s.rowsOf id).map Transaction.signed).sum

/-- A customer's ledger without the rows of one charge id. -/
def Tables.ledgerWithout (s : Tables) (id : Uuid) (customerId : Nat) : Int :=
  (((s.transactions.filter fun t => ¬ t.chargeId = some id).filter
    fun t => t.customerId = customerId ∧ t.status = .success).map Transaction.signed).sum

theorem ledger_eq (s : Tables) (id : Uuid) (c : Nat) : s.ledger c =
    (((s.rowsOf id).filter fun t => t.customerId = c ∧ t.status = .success).map
      Transaction.signed).sum + s.ledgerWithout id c := by
  unfold Tables.ledger Tables.ledgerWithout Tables.rowsOf
  rw [← List.sum_map_filter_add_sum_map_filter_not (fun t : Transaction => t.chargeId = some id)]
  simp only [List.filter_filter, Bool.and_comm]

theorem InPhase.net_zero (h : InPhase id m s p) (hp : p.refundSeen) : s.net id = 0 := by
  unfold Tables.net
  rw [h.rows]
  cases p with
  | untouched => exact hp.elim
  | charged => exact hp.elim
  | refunded => simp [Phase.rows, payment, refundRow, Transaction.signed]
  | fenced => rfl

theorem InPhase.ledger (h : InPhase id m s p) (hp : p.refundSeen) (c : Nat) :
    s.ledger c = s.ledgerWithout id c := by
  rw [ledger_eq s id, h.rows]
  cases p with
  | untouched => exact hp.elim
  | charged => exact hp.elim
  | refunded =>
    by_cases hc : m.customerId = c
    · simp [Phase.rows, payment, refundRow, Transaction.signed, hc]
    · simp [Phase.rows, payment, refundRow, hc]
  | fenced => simp [Phase.rows]

theorem InPhase.rows_le (h : InPhase id m s p) :
    (s.rows .payment id).length ≤ 1 ∧ (s.rows .refund id).length ≤ (s.rows .payment id).length := by
  unfold Tables.rows
  rw [h.rows]
  cases p with
  | untouched => simp [Phase.rows]
  | charged => simp [Phase.rows, payment]
  | refunded => simp [Phase.rows, payment, refundRow]
  | fenced => simp [Phase.rows]

/-- The phase decides whether the next commit may write a row of the id. -/
theorem InPhase.commit_rows (h : InPhase id m s p) (hq : Carries id m q) (hc : Commit q s s' status) :
    s'.rowsOf id = s.rowsOf id ∨ (p = .untouched ∧ s'.rowsOf id = [payment ⟨id, m⟩]) ∨
      (p = .charged ∧ s'.rowsOf id = [refundRow ⟨id, m, id⟩, payment ⟨id, m⟩]) := by
  obtain ⟨p', hp, ⟨rfl, _⟩ | hnext⟩ := h.commit hq hc
  · exact Or.inl (hp.rows.trans h.rows.symm)
  · cases hnext with
    | charge _ => exact Or.inr (Or.inl ⟨rfl, hp.rows⟩)
    | fence _ => exact Or.inl (hp.rows.trans h.rows.symm)
    | refund _ => exact Or.inr (Or.inr ⟨rfl, hp.rows⟩)

end

section
variable {id : Uuid} {m : Movement} {s : Tables} {c : Config Lock Tables Failure Status Request}
  {tr : List (Config Lock Tables Failure Status Request × Event Request)}

theorem phase_run (hs : InPhase id m s .untouched)
    (hr : Run (Step (system (Carries id m))) (Config.start s) tr c) :
    ∃ p, InPhase id m c.db p ∧ Logged id p c.answers := by
  refine run_serial_invariant (Y := system (Carries id m))
    (J := fun u as => ∃ p, InPhase id m u p ∧ Logged id p as)
    ⟨.untouched, hs, ⟨fun _ _ h => absurd h (by simp), fun h => h.elim⟩⟩ ?_ ?_
    (fun _ henv => nomatch henv) hr
  · rintro q b u u' as status ⟨p, hp, hl⟩ hq _ he
    obtain ⟨p', hp', ⟨rfl, hseen⟩ | hnext⟩ := hp.commit hq (commit_of_exec he)
    · exact ⟨p', hp', hl.stay fun msg _ hmsg _ hid => hseen msg hmsg hid⟩
    · exact ⟨p', hp', hl.next hnext⟩
  · rintro q b u _ as e ⟨p, hp, hl⟩ _ _ _
    exact ⟨p, hp, hl.stay fun _ _ _ h => nomatch h⟩

/-- For one charge id, whatever is delivered and redelivered: at most one PAYMENT and one REFUND,
the REFUND after the PAYMENT; an inbox row only after a charge that succeeded or a fence; and
once a refund was processed, net zero for good and no later row. -/
theorem charge_exactly_once (hs : InPhase id m s .untouched)
    (hr : Run (Step (system (Carries id m))) (Config.start s) tr c) :
    (c.db.rows .payment id).length ≤ 1 ∧
    (c.db.rows .refund id).length ≤ 1 ∧
    (∀ ev c', Step (system (Carries id m)) c ev c' →
      (c.db.rows .refund id).length < (c'.db.rows .refund id).length →
        (c.db.rows .payment id).length = 1) ∧
    ((.customerCharge, id) ∈ c.db.inbox →
      (∃ msg, msg.id = id ∧ (.charge msg, .ok .success) ∈ c.answers) ∨
        ∃ msg, msg.id = id ∧ (.refund msg, .ok .notCharged) ∈ c.answers) ∧
    ((∃ msg status, msg.id = id ∧ (.refund msg, .ok status) ∈ c.answers) →
      c.db.net id = 0 ∧
      (Balanced s → ∀ x balance, c.db.balance x = some balance →
        balance = c.db.ledgerWithout id x) ∧
      ∀ ev c', Step (system (Carries id m)) c ev c' → c'.db.rowsOf id = c.db.rowsOf id) := by
  obtain ⟨p, hp, hl⟩ := phase_run hs hr
  have step_rows : ∀ ev c', Step (system (Carries id m)) c ev c' → c'.db.rowsOf id = c.db.rowsOf id ∨
      (p = .untouched ∧ c'.db.rowsOf id = [payment ⟨id, m⟩]) ∨
      (p = .charged ∧ c'.db.rowsOf id = [refundRow ⟨id, m, id⟩, payment ⟨id, m⟩]) := by
    intro ev c' hstep
    rcases db_of_step hr hstep with ⟨_, hd⟩ | ⟨_, t, status, _, _, hq, hc⟩
    · rw [hd]; exact Or.inl rfl
    · exact hp.commit_rows hq hc
  refine ⟨hp.rows_le.1, Nat.le_trans hp.rows_le.2 hp.rows_le.1, ?_, ?_, ?_⟩
  · intro ev c' hstep hlt
    unfold Tables.rows at hlt ⊢
    rcases step_rows ev c' hstep with h | ⟨rfl, h⟩ | ⟨rfl, _⟩
    · rw [h] at hlt; omega
    · rw [h] at hlt; simp [payment] at hlt
    · rw [hp.rows]; simp [Phase.rows, payment]
  · exact fun hin => hl.charge (hp.charge.mp hin)
  · rintro ⟨msg, status, hid, hin⟩
    have hseen := hl.refund msg status hin hid
    refine ⟨hp.net_zero hseen, fun hbal x balance hx => ?_, fun ev c' hstep => ?_⟩
    · rw [(balanced_run hbal hr).sum x balance hx, hp.ledger hseen]
    · rcases step_rows ev c' hstep with h | ⟨rfl, _⟩ | ⟨rfl, _⟩
      · exact h
      · exact hseen.elim
      · exact hseen.elim

def sampleRefund : RefundRequest := ⟨1, sampleCharge.data, 1⟩

theorem charge_exactly_once_refunded : ∃ tr c,
    Run (Step (system (Carries 1 sampleCharge.data))) (Config.start (.funded 7 500)) tr c ∧
      c.db.net 1 = 0 ∧ (c.db.rows .payment 1).length = 1 := by
  have hs : InPhase 1 sampleCharge.data (.funded 7 500) .untouched :=
    ⟨rfl, by simp [Tables.funded, Phase.chargeSeen], by simp [Tables.funded, Phase.refundSeen]⟩
  obtain ⟨_, hcharge⟩ := process_idle (Y := system (Carries 1 sampleCharge.data))
    (.charge sampleCharge) (.funded 7 500) [] (fun _ => rfl) rfl
  obtain ⟨_, hrefund⟩ := process_idle (Y := system (Carries 1 sampleCharge.data))
    (.refund sampleRefund) (chargeApplied (.funded 7 500) sampleCharge 500)
    [(.charge sampleCharge, .ok .success)] (fun _ => ⟨rfl, rfl, rfl⟩) rfl
  have hr := hcharge.append hrefund
  obtain ⟨_, _, _, _, hnet⟩ := charge_exactly_once hs hr
  exact ⟨_, _, hr, (hnet ⟨sampleRefund, .refunded, rfl, List.mem_cons_self⟩).1, by decide⟩

end

end MarketplaceApi.Account
