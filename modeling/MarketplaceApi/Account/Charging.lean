import MarketplaceApi.Account.Inbox

/-!
# One charge or refund, run alone

What a single delivery does to the phase of its id, and when a charge is applied.
-/
namespace MarketplaceApi.Account

open Txn

section
variable {id : Uuid} {m : Movement} {s s' : Tables} {p : Phase} {q : Request} {status : Status}

theorem commit_of_run (h : (handler q).run s = .ok (s', status)) : Commit q s s' status :=
  commit_of_exec (Exec.of_run (isolation.le_refl s) (safe_handler s q) h)

/-- An untouched id fits any movement. -/
theorem InPhase.untouched (h : InPhase id m s .untouched) (m' : Movement) : InPhase id m' s .untouched :=
  ⟨h.rows, h.charge, h.refund⟩

theorem charge_seen (h : Commit (.charge ⟨id, m⟩) s s' status) : (.customerCharge, id) ∈ s'.inbox := by
  cases h with
  | charged _ _ _ => exact List.mem_cons_self
  | chargeSkipped hin => exact hin

theorem refund_seen (h : Commit (.refund ⟨id, m, id⟩) s s' status) : (.customerRefund, id) ∈ s'.inbox := by
  cases h with
  | refunded _ _ _ => exact List.mem_cons_self
  | fenced _ _ => exact List.mem_cons_of_mem _ List.mem_cons_self
  | refundSkipped hin => exact hin

theorem InPhase.charge_commit (h : InPhase id m s p) (hc : Commit (.charge ⟨id, m⟩) s s' status) :
    ∃ p', InPhase id m s' p' ∧ p'.chargeSeen ∧ (p' = p ∨ (p = .untouched ∧ p' = .charged)) := by
  have hcarries : Carries id m (.charge ⟨id, m⟩) := fun _ => rfl
  obtain ⟨p', hp, hmove⟩ := h.commit hcarries hc
  refine ⟨p', hp, hp.charge.mp (charge_seen hc), ?_⟩
  rcases hmove with ⟨rfl, _⟩ | hnext
  · exact Or.inl rfl
  · cases hnext with
    | charge _ => exact Or.inr ⟨rfl, rfl⟩

theorem InPhase.refund_commit (h : InPhase id m s p) (hc : Commit (.refund ⟨id, m, id⟩) s s' status) :
    ∃ p', InPhase id m s' p' ∧ p'.refundSeen ∧ (p.refundSeen → p' = p) := by
  have hcarries : Carries id m (.refund ⟨id, m, id⟩) := fun _ => ⟨rfl, rfl, rfl⟩
  obtain ⟨p', hp, hmove⟩ := h.commit hcarries hc
  refine ⟨p', hp, hp.refund.mp (refund_seen hc), fun hseen => ?_⟩
  rcases hmove with ⟨rfl, _⟩ | hnext
  · rfl
  · cases hnext with
    | fence _ => exact hseen.elim
    | refund _ => exact hseen.elim

/-- The charge row of an id never goes away. -/
theorem inbox_grows (hc : Commit q s s' status) {row : Consumer × Uuid} (h : row ∈ s.inbox) :
    row ∈ s'.inbox := by
  cases hc with
  | charged _ _ _ => exact List.mem_cons_of_mem _ h
  | chargeSkipped _ => exact h
  | refunded _ _ _ => exact List.mem_cons_of_mem _ h
  | fenced _ _ => exact List.mem_cons_of_mem _ (List.mem_cons_of_mem _ h)
  | refundSkipped _ => exact h
  | accountCreated _ => exact h
  | accountKept _ => exact h

theorem run_inboxCreateIfAbsent {consumer : Consumer} (hno : (consumer, id) ∉ s.inbox) :
    (AccountInboxRepository.createIfAbsent consumer id).run s = .ok (s.addInbox consumer id, true) := by
  unfold AccountInboxRepository.createIfAbsent
  rw [Prog.bind_eq, Prog.run_bind, Prog.run_look]
  simp only [Except.bind, hno, decide_false, Bool.false_eq_true, if_false]
  rw [Prog.run_exec, if_neg hno]

theorem run_bindInteger {c : Nat} (h : c ≤ maxInteger) : (AccountRepository.bindInteger c).run s = .ok (s, ()) := by
  unfold AccountRepository.bindInteger
  rw [if_neg (Nat.not_lt.mpr h)]
  rfl

theorem run_debit {c amount : Nat} {balance : Int} (hinteger : c ≤ maxInteger) (hb : s.balance c = some balance)
    (hle : (amount : Int) ≤ balance) :
    (AccountRepository.debit c amount).run s = .ok (s.setBalance c (balance - amount), true) := by
  have hcovers : AccountRepository.covers s c amount = true := by
    unfold AccountRepository.covers
    rw [hb]
    exact decide_eq_true ⟨hinteger, hle⟩
  unfold AccountRepository.debit
  rw [Prog.bind_eq, Prog.run_bind, run_bindInteger hinteger]
  simp only [Except.bind]
  rw [Prog.bind_eq, Prog.run_bind, Prog.run_look]
  simp only [Except.bind, hcovers, if_true]
  rw [Prog.run_exec]
  simp only [hb, if_pos hle]

theorem run_create {t : Transaction} (hinteger : t.customerId ≤ maxInteger)
    (h : (s.balance t.customerId).isSome = true) :
    (AccountRepository.create t).run s = .ok (s.addTransaction t, ()) := by
  unfold AccountRepository.create
  rw [Prog.bind_eq, Prog.run_bind, run_bindInteger hinteger]
  simp only [Except.bind]
  rw [Prog.run_exec, if_pos h]

theorem run_chargeExecute (msg : ChargeRequest) {balance : Int} (hinteger : msg.data.customerId ≤ maxInteger)
    (hb : s.balance msg.data.customerId = some balance) (hle : (msg.data.amount : Int) ≤ balance) :
    (AccountCustomerChargeCommandHandler.execute msg).run s =
      .ok ((s.setBalance msg.data.customerId (balance - msg.data.amount)).addTransaction (payment msg), ()) := by
  unfold AccountCustomerChargeCommandHandler.execute
  rw [Prog.bind_eq, Prog.run_bind, run_debit hinteger hb hle]
  simp only [Except.bind, if_true]
  exact run_create hinteger (by simp [payment])

/-- A charge that finds no inbox row commits exactly if the account covers it. -/
theorem run_charge (hno : (.customerCharge, id) ∉ s.inbox) :
    (∃ s' status, (handler (.charge ⟨id, m⟩)).run s = .ok (s', status)) ↔
      AccountRepository.covers s m.customerId m.amount = true := by
  constructor
  · rintro ⟨s', status, h⟩
    cases commit_of_run h with
    | charged _ hbalance hle hinteger =>
      unfold AccountRepository.covers
      simp only at hbalance hle
      rw [hbalance]
      exact decide_eq_true ⟨hinteger, hle⟩
    | chargeSkipped hin => exact absurd hin hno
  · intro hcovers
    unfold AccountRepository.covers at hcovers
    cases hb : s.balance m.customerId with
    | none =>
      rw [hb] at hcovers
      cases hcovers
    | some balance =>
      rw [hb] at hcovers
      obtain ⟨hinteger, hle⟩ := of_decide_eq_true hcovers
      have hexec := run_chargeExecute (s := s.addInbox .customerCharge id) ⟨id, m⟩ hinteger hb hle
      refine ⟨chargeApplied s ⟨id, m⟩ balance, .success, ?_⟩
      change (AccountGateway.handleCustomerCharge ⟨id, m⟩).run s = _
      unfold AccountGateway.handleCustomerCharge AccountInboxService.processOnce
      rw [Prog.bind_eq, Prog.run_bind, Prog.bind_eq, Prog.run_bind, run_inboxCreateIfAbsent hno]
      simp only [Except.bind, if_true]
      rw [Prog.bind_eq, Prog.run_bind, hexec]
      rfl

end

end MarketplaceApi.Account
