import MarketplaceApi.Account.Handlers

/-!
# The account handlers run interleaved

Every statement is confined to its row, so the handlers form a `Txn.System`.
-/
namespace MarketplaceApi.Account

open Txn

/-- What each lock protects; inbox rows, ledger rows and accounts are never taken back. -/
def isolation : Isolation Lock Tables where
  Part
    | .inbox .. => Bool
    | .account .. => Option Int × List Transaction
  part
    | .inbox consumer messageId, s => s.inbox.contains (consumer, messageId)
    | .account customerId, s =>
      (s.balance customerId, s.transactions.filter fun t => t.customerId = customerId)
  le s s' := s.inbox.Sublist s'.inbox ∧ s.transactions.Sublist s'.transactions ∧
    ∀ c, (s.balance c).isSome → (s'.balance c).isSome
  le_refl _ := ⟨.refl _, .refl _, fun _ h => h⟩
  le_trans h h' := ⟨h.1.trans h'.1, h.2.1.trans h'.2.1, fun c hc => h'.2.2 c (h.2.2 c hc)⟩

section
variable {s s' : Tables} {b : Tables}

theorem agree_inbox {consumer : Consumer} {messageId : Uuid}
    (h : isolation.Agree [.inbox consumer messageId] s s') :
    (consumer, messageId) ∈ s.inbox ↔ (consumer, messageId) ∈ s'.inbox := by
  have he := h (.inbox consumer messageId) (by simp)
  simpa [isolation] using he

theorem agree_account {customerId : Nat} (h : isolation.Agree [.account customerId] s s') :
    s.balance customerId = s'.balance customerId ∧
      (s.transactions.filter fun t => t.customerId = customerId) =
        s'.transactions.filter fun t => t.customerId = customerId := by
  have he := h (.account customerId) (by simp)
  simpa [isolation] using he

/-- A write of one inbox row, decided by that row. -/
theorem confined_inbox (consumer : Consumer) (messageId : Uuid) {w : Tables → Tables}
    (hw : ∀ s, w s = if (consumer, messageId) ∈ s.inbox then s else s.addInbox consumer messageId) :
    Confined isolation b [.inbox consumer messageId] w where
  frame {s} _ k hk := by
    rw [hw]
    split
    · rfl
    · cases k with
      | inbox c m =>
        simp only [List.mem_singleton, Lock.inbox.injEq] at hk
        change ((consumer, messageId) :: s.inbox).contains (c, m) = s.inbox.contains (c, m)
        rw [List.contains_cons, beq_eq_false_iff_ne.mpr (by simpa using hk), Bool.false_or]
      | account c => rfl
  inside {s s'} _ _ ha k hk := by
    simp only [List.mem_singleton] at hk
    subst hk
    have h := agree_inbox ha
    rw [hw, hw]
    by_cases hs : (consumer, messageId) ∈ s.inbox
    · rw [if_pos hs, if_pos (h.mp hs)]
      exact ha _ (by simp)
    · rw [if_neg hs, if_neg (hs ∘ h.mpr)]
      simp [isolation]
  grows {s} _ := by
    rw [hw]
    split
    · exact isolation.le_refl s
    · exact ⟨List.sublist_cons_self _ _, .refl _, fun _ h => h⟩
  mono {s s'} _ hle ha := by
    have h := agree_inbox ha
    rw [hw, hw]
    by_cases hs : (consumer, messageId) ∈ s.inbox
    · rw [if_pos hs, if_pos (h.mp hs)]
      exact hle
    · rw [if_neg hs, if_neg (hs ∘ h.mpr)]
      exact ⟨hle.1.cons_cons _, hle.2.1, hle.2.2⟩

/-- A write of one account's balance, decided by the account row. -/
theorem confined_balance (customerId : Nat) (f : Option Int → Option Int) {w : Tables → Tables}
    (hw : ∀ s, w s = match f (s.balance customerId) with
      | some cents => s.setBalance customerId cents
      | none => s) :
    Confined isolation b [.account customerId] w where
  frame {s} _ k hk := by
    rw [hw]
    split
    · cases k with
      | inbox c m => rfl
      | account c =>
        simp only [List.mem_singleton, Lock.account.injEq] at hk
        simp only [isolation, setBalance_other s _ hk, setBalance_transactions]
    · rfl
  inside {s s'} _ _ ha k hk := by
    simp only [List.mem_singleton] at hk
    subst hk
    obtain ⟨hb, ht⟩ := agree_account ha
    rw [hw, hw, ← hb]
    split
    · simpa [isolation] using ht
    · exact ha _ (by simp)
  grows {s} _ := by
    rw [hw]
    split
    · refine ⟨.refl _, .refl _, fun c h => ?_⟩
      by_cases hc : c = customerId
      · subst hc; simp
      · rwa [setBalance_other s _ hc]
    · exact isolation.le_refl s
  mono {s s'} _ hle ha := by
    obtain ⟨hb, ht⟩ := agree_account ha
    rw [hw, hw, ← hb]
    split
    · refine ⟨hle.1, hle.2.1, fun c h => ?_⟩
      by_cases hc : c = customerId
      · subst hc; simp
      · rw [setBalance_other s' _ hc]
        rw [setBalance_other s _ hc] at h
        exact hle.2.2 c h
    · exact hle

/-- The insert of one ledger row, decided by its account row. -/
theorem confined_transaction (t : Transaction) {w : Tables → Tables}
    (hw : ∀ s, w s = if (s.balance t.customerId).isSome then s.addTransaction t else s) :
    Confined isolation b [.account t.customerId] w where
  frame {s} _ k hk := by
    rw [hw]
    split
    · cases k with
      | inbox c m => rfl
      | account c =>
        simp only [List.mem_singleton, Lock.account.injEq] at hk
        simp only [isolation, addTransaction_balance, addTransaction_transactions]
        rw [List.filter_cons_of_neg (by simpa using Ne.symm hk)]
    · rfl
  inside {s s'} _ _ ha k hk := by
    simp only [List.mem_singleton] at hk
    subst hk
    obtain ⟨hb, ht⟩ := agree_account ha
    rw [hw, hw, ← hb]
    split
    · simp [isolation, hb, ht]
    · exact ha _ (by simp)
  grows {s} _ := by
    rw [hw]
    split
    · exact ⟨.refl _, List.sublist_cons_self _ _, fun _ h => h⟩
    · exact isolation.le_refl s
  mono {s s'} _ hle ha := by
    obtain ⟨hb, ht⟩ := agree_account ha
    rw [hw, hw, ← hb]
    split
    · exact ⟨hle.1, hle.2.1.cons_cons _, hle.2.2⟩
    · exact hle

end

section
variable (b : Tables)

theorem safe_inboxCreateIfAbsent (consumer : Consumer) (messageId : Uuid) :
    (AccountInboxRepository.createIfAbsent consumer messageId).Safe isolation b := by
  refine (Prog.safe_look _ b).bind fun found b' _ => ?_
  split
  · trivial
  · refine Prog.safe_exec (confined_inbox consumer messageId fun s => ?_) fun s s' _ _ ha => ?_
    · split <;> rfl
    · by_cases hs : (consumer, messageId) ∈ s.inbox
      · rw [if_pos hs, if_pos ((agree_inbox ha).mp hs)]; rfl
      · rw [if_neg hs, if_neg (hs ∘ (agree_inbox ha).mpr)]; rfl

theorem safe_bindInteger (customerId : Nat) : (AccountRepository.bindInteger customerId).Safe isolation b := by
  unfold AccountRepository.bindInteger
  split <;> trivial

theorem safe_debit (customerId amount : Nat) :
    (AccountRepository.debit customerId amount).Safe isolation b := by
  refine (safe_bindInteger b customerId).bind fun _ b _ => ?_
  refine (Prog.safe_look _ b).bind fun covered b' _ => ?_
  split
  · refine Prog.safe_exec (confined_balance customerId (fun balance => balance.bind fun x =>
      if (amount : Int) ≤ x then some (x - amount) else none) fun s => ?_) fun s s' _ _ ha => ?_
    · cases s.balance customerId with
      | none => rfl
      | some x =>
        by_cases hx : (amount : Int) ≤ x
        · simp [hx, Prog.leave]
        · simp [hx, Prog.leave]
    · rw [(agree_account ha).1]
      cases s'.balance customerId with
      | none => rfl
      | some x =>
        by_cases hx : (amount : Int) ≤ x
        · simp [hx, Except.map]
        · simp [hx, Except.map]
  · trivial

theorem safe_credit (customerId amount : Nat) :
    (AccountRepository.credit customerId amount).Safe isolation b := by
  refine (safe_bindInteger b customerId).bind fun _ b _ => ?_
  refine Prog.safe_exec (confined_balance customerId (fun balance =>
    if fitsNumeric (balance.getD 0 + amount) then some (balance.getD 0 + amount) else none)
    fun s => ?_) fun s s' _ _ ha => ?_
  · by_cases hx : fitsNumeric ((s.balance customerId).getD 0 + amount)
    · simp [hx, Prog.leave]
    · simp [hx, Prog.leave]
  · rw [(agree_account ha).1]
    by_cases hx : fitsNumeric ((s'.balance customerId).getD 0 + amount)
    · simp [hx, Except.map]
    · simp [hx, Except.map]

theorem safe_accountCreateIfAbsent (customerId : Nat) :
    (AccountRepository.createIfAbsent customerId).Safe isolation b := by
  refine (safe_bindInteger b customerId).bind fun _ b _ => ?_
  refine (Prog.safe_look _ b).bind fun found b' _ => ?_
  split
  · trivial
  · refine Prog.safe_exec (confined_balance customerId (fun balance =>
      if balance.isSome then none else some 0) fun s => ?_) fun s s' _ _ ha => ?_
    · cases s.balance customerId <;> rfl
    · rw [(agree_account ha).1]
      cases s'.balance customerId <;> rfl

theorem safe_create (t : Transaction) : (AccountRepository.create t).Safe isolation b := by
  refine (safe_bindInteger b t.customerId).bind fun _ b _ => ?_
  refine Prog.safe_exec (confined_transaction t fun s => ?_) fun s s' _ _ ha => ?_
  · split <;> rfl
  · rw [(agree_account ha).1]
    cases s'.balance t.customerId <;> rfl

theorem safe_charge (msg : ChargeRequest) :
    (AccountCustomerChargeCommandHandler.execute msg).Safe isolation b := by
  refine (safe_debit b _ _).bind fun debited b' _ => ?_
  split
  · exact safe_create b' _
  · refine ((safe_bindInteger b' _).bind fun _ b _ => Prog.safe_look _ b).bind fun balance b'' _ => ?_
    cases balance <;> trivial

theorem safe_refund (msg : RefundRequest) :
    (AccountCustomerRefundCommandHandler.execute msg).Safe isolation b := by
  refine (safe_inboxCreateIfAbsent b _ _).bind fun fenced b' _ => ?_
  split
  · trivial
  · exact (safe_credit b' _ _).bind fun _ b'' _ => (safe_create b'' _).bind fun _ _ _ => trivial

theorem safe_processOnce {R : Type} (consumer : Consumer) (messageId : Uuid) {effect : Program R}
    (h : ∀ b, effect.Safe isolation b) :
    (AccountInboxService.processOnce consumer messageId effect).Safe isolation b := by
  refine (safe_inboxCreateIfAbsent b _ _).bind fun inserted b' _ => ?_
  split
  · exact (h b').bind fun _ _ _ => trivial
  · trivial

theorem safe_handler (q : Request) : (handler q).Safe isolation b := by
  cases q with
  | charge msg => exact (safe_processOnce b _ _ fun b => safe_charge b msg).bind fun _ _ _ => trivial
  | refund msg => exact (safe_processOnce b _ _ fun b => safe_refund b msg).bind fun _ _ _ => trivial
  | userCreated customerId => exact (safe_accountCreateIfAbsent b customerId).bind fun _ _ _ => trivial

end

/-- Any number of deliveries of the requests in `P`, in any interleaving. -/
def system (P : Request → Prop) : System Lock Tables Failure Status Request where
  isolation := isolation
  handler := handler
  allowed _ q := P q
  env _ _ := False
  safe q b := safe_handler b q
  env_part h := h.elim
  env_le h := h.elim

end MarketplaceApi.Account
