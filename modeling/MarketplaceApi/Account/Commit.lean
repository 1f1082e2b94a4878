import MarketplaceApi.Account.Isolation

/-!
# What a committed account request can have done

`Commit` lists the ways a handler commits, guards included. Serial executions are exactly
these cases, so the later modules argue by cases on `Commit` and never unfold a program.
-/
namespace MarketplaceApi.Account

open Txn

def chargeApplied (s : Tables) (msg : ChargeRequest) (balance : Int) : Tables :=
  ((s.addInbox .customerCharge msg.id).setBalance msg.data.customerId
    (balance - msg.data.amount)).addTransaction (payment msg)

def refundApplied (s : Tables) (msg : RefundRequest) : Tables :=
  ((s.addInbox .customerRefund msg.id).setBalance msg.data.customerId
    ((s.balance msg.data.customerId).getD 0 + msg.data.amount)).addTransaction (refundRow msg)

/-- A refund that came first leaves its own row and the charge's, and moves no money. -/
def refundFenced (s : Tables) (msg : RefundRequest) : Tables :=
  (s.addInbox .customerRefund msg.id).addInbox .customerCharge msg.chargeId

section
variable (s : Tables)

@[simp] theorem chargeApplied_transactions (msg : ChargeRequest) (balance : Int) :
    (chargeApplied s msg balance).transactions = payment msg :: s.transactions := rfl

@[simp] theorem chargeApplied_inbox (msg : ChargeRequest) (balance : Int) :
    (chargeApplied s msg balance).inbox = (.customerCharge, msg.id) :: s.inbox := rfl

@[simp] theorem refundApplied_transactions (msg : RefundRequest) :
    (refundApplied s msg).transactions = refundRow msg :: s.transactions := rfl

@[simp] theorem refundApplied_inbox (msg : RefundRequest) :
    (refundApplied s msg).inbox = (.customerRefund, msg.id) :: s.inbox := rfl

@[simp] theorem refundFenced_transactions (msg : RefundRequest) :
    (refundFenced s msg).transactions = s.transactions := rfl

@[simp] theorem refundFenced_inbox (msg : RefundRequest) : (refundFenced s msg).inbox =
    (.customerCharge, msg.chargeId) :: (.customerRefund, msg.id) :: s.inbox := rfl

end

inductive Commit : Request → Tables → Tables → Status → Prop
  | charged {msg s balance} : (.customerCharge, msg.id) ∉ s.inbox →
      s.balance msg.data.customerId = some balance → (msg.data.amount : Int) ≤ balance →
      msg.data.customerId ≤ maxInteger → Commit (.charge msg) s (chargeApplied s msg balance) .success
  | chargeSkipped {msg s} : (.customerCharge, msg.id) ∈ s.inbox → Commit (.charge msg) s s .success
  | refunded {msg s} : (.customerRefund, msg.id) ∉ s.inbox →
      (.customerCharge, msg.chargeId) ∈ s.inbox →
      fitsNumeric ((s.balance msg.data.customerId).getD 0 + msg.data.amount) = true →
      msg.data.customerId ≤ maxInteger → Commit (.refund msg) s (refundApplied s msg) .refunded
  | fenced {msg s} : (.customerRefund, msg.id) ∉ s.inbox →
      (.customerCharge, msg.chargeId) ∉ s.inbox →
      Commit (.refund msg) s (refundFenced s msg) .notCharged
  | refundSkipped {msg s} : (.customerRefund, msg.id) ∈ s.inbox →
      Commit (.refund msg) s s .refunded
  | accountCreated {c s} : s.balance c = none → c ≤ maxInteger →
      Commit (.userCreated c) s (s.setBalance c 0) (.created true)
  | accountKept {c s} : (s.balance c).isSome → c ≤ maxInteger → Commit (.userCreated c) s s (.created false)

section
variable {b s s' : Tables}

theorem exec_inboxCreateIfAbsent {consumer : Consumer} {messageId : Uuid} {inserted : Bool}
    (h : Exec isolation b (AccountInboxRepository.createIfAbsent consumer messageId) s s' (.ok inserted)) :
    (inserted = true ∧ (consumer, messageId) ∉ s.inbox ∧ s' = s.addInbox consumer messageId) ∨
      (inserted = false ∧ (consumer, messageId) ∈ s.inbox ∧ s' = s) := by
  obtain ⟨b', m, found, _, hl, hf⟩ := Exec.of_bind h
  obtain ⟨rfl, v, _, hv, hvf⟩ := hl.of_look
  cases found with
  | true =>
    cases hf
    exact Or.inr ⟨rfl, hv.1.subset (by simpa using hvf), rfl⟩
  | false =>
    have he := hf.of_exec
    split at he
    · cases he; exact Or.inr ⟨rfl, ‹_›, rfl⟩
    · cases he; exact Or.inl ⟨rfl, ‹_›, rfl⟩

theorem exec_bindInteger {c : Nat} {u : Unit}
    (h : Exec isolation b (AccountRepository.bindInteger c) s s' (.ok u)) : s' = s ∧ c ≤ maxInteger := by
  unfold AccountRepository.bindInteger at h
  split at h
  · cases h
  · cases h
    exact ⟨rfl, by omega⟩

theorem exec_debit {c amount : Nat} {debited : Bool}
    (h : Exec isolation b (AccountRepository.debit c amount) s s' (.ok debited)) :
    (debited = true ∧ c ≤ maxInteger ∧ ∃ balance, s.balance c = some balance ∧ (amount : Int) ≤ balance ∧
      s' = s.setBalance c (balance - amount)) ∨ (debited = false ∧ s' = s) := by
  obtain ⟨_, _, _, _, hbind, hrest⟩ := Exec.of_bind h
  obtain ⟨rfl, hinteger⟩ := exec_bindInteger hbind
  obtain ⟨b', m, covered, _, hl, hf⟩ := Exec.of_bind hrest
  obtain ⟨rfl, _⟩ := hl.of_look
  cases covered with
  | true =>
    have he := hf.of_exec
    cases hb : m.balance c with
    | none =>
      simp only [hb] at he
      cases he
      exact Or.inr ⟨rfl, rfl⟩
    | some balance =>
      simp only [hb] at he
      split at he
      · cases he; exact Or.inl ⟨rfl, hinteger, balance, rfl, ‹_›, rfl⟩
      · cases he; exact Or.inr ⟨rfl, rfl⟩
  | false =>
    cases hf
    exact Or.inr ⟨rfl, rfl⟩

theorem exec_create {t : Transaction} {u : Unit}
    (h : Exec isolation b (AccountRepository.create t) s s' (.ok u)) : s' = s.addTransaction t := by
  obtain ⟨_, _, _, _, hbind, hrest⟩ := Exec.of_bind h
  obtain ⟨rfl, _⟩ := exec_bindInteger hbind
  have he := hrest.of_exec
  split at he
  · cases he; rfl
  · cases he

theorem exec_charge {msg : ChargeRequest} {u : Unit}
    (h : Exec isolation b (AccountCustomerChargeCommandHandler.execute msg) s s' (.ok u)) :
    msg.data.customerId ≤ maxInteger ∧ ∃ balance, s.balance msg.data.customerId = some balance ∧
      (msg.data.amount : Int) ≤ balance ∧
        s' = (s.setBalance msg.data.customerId (balance - msg.data.amount)).addTransaction (payment msg) := by
  obtain ⟨b', m, debited, _, hd, hf⟩ := Exec.of_bind h
  rcases exec_debit hd with ⟨rfl, hinteger, balance, hb, hle, rfl⟩ | ⟨rfl, rfl⟩
  · exact ⟨hinteger, balance, hb, hle, exec_create hf⟩
  · obtain ⟨_, _, found, _, _, hf⟩ := Exec.of_bind hf
    cases found with
    | none => cases hf
    | some balance => cases hf

theorem exec_refund {msg : RefundRequest} {refunded : Bool}
    (h : Exec isolation b (AccountCustomerRefundCommandHandler.execute msg) s s' (.ok refunded)) :
    (refunded = false ∧ (.customerCharge, msg.chargeId) ∉ s.inbox ∧
      s' = s.addInbox .customerCharge msg.chargeId) ∨
    (refunded = true ∧ (.customerCharge, msg.chargeId) ∈ s.inbox ∧
      fitsNumeric ((s.balance msg.data.customerId).getD 0 + msg.data.amount) = true ∧
      msg.data.customerId ≤ maxInteger ∧ s' = (s.setBalance msg.data.customerId
        ((s.balance msg.data.customerId).getD 0 + msg.data.amount)).addTransaction (refundRow msg)) := by
  obtain ⟨b', m, fenced, _, hm, hf⟩ := Exec.of_bind h
  rcases exec_inboxCreateIfAbsent hm with ⟨rfl, hn, rfl⟩ | ⟨rfl, hp, rfl⟩
  · cases hf
    exact Or.inl ⟨rfl, hn, rfl⟩
  · obtain ⟨_, _, _, _, hc, hr⟩ := Exec.of_bind hf
    obtain ⟨_, _, _, _, ht, hr⟩ := Exec.of_bind hr
    cases hr
    obtain ⟨_, _, _, _, hbind, hcredit⟩ := Exec.of_bind hc
    obtain ⟨rfl, hinteger⟩ := exec_bindInteger hbind
    have he := hcredit.of_exec
    simp only at he
    split at he
    · cases he
      exact Or.inr ⟨rfl, hp, ‹_›, hinteger, exec_create ht⟩
    · cases he

theorem exec_processOnce {R : Type} {consumer : Consumer} {messageId : Uuid} {effect : Program R}
    {applied : Option R}
    (h : Exec isolation b (AccountInboxService.processOnce consumer messageId effect) s s' (.ok applied)) :
    (applied = none ∧ (consumer, messageId) ∈ s.inbox ∧ s' = s) ∨
      ((consumer, messageId) ∉ s.inbox ∧ ∃ b' r, applied = some r ∧
        Exec isolation b' effect (s.addInbox consumer messageId) s' (.ok r)) := by
  obtain ⟨b', m, inserted, _, hi, hf⟩ := Exec.of_bind h
  rcases exec_inboxCreateIfAbsent hi with ⟨rfl, hn, rfl⟩ | ⟨rfl, hp, rfl⟩
  · obtain ⟨_, _, r, _, he, hr⟩ := Exec.of_bind hf
    cases hr
    exact Or.inr ⟨hn, b', r, rfl, he⟩
  · cases hf
    exact Or.inl ⟨rfl, hp, rfl⟩

/-- Every serial execution of a handler that commits is one of the cases of `Commit`. -/
theorem commit_of_exec {q : Request} {status : Status}
    (h : Exec isolation b (handler q) s s' (.ok status)) : Commit q s s' status := by
  cases q with
  | charge msg =>
    obtain ⟨_, m, applied, _, hp, hr⟩ := Exec.of_bind h
    cases hr
    rcases exec_processOnce hp with ⟨_, hin, rfl⟩ | ⟨hn, _, _, _, he⟩
    · exact .chargeSkipped hin
    · obtain ⟨hinteger, balance, hb, hle, rfl⟩ := exec_charge he
      exact .charged hn hb hle hinteger
  | refund msg =>
    obtain ⟨_, m, applied, _, hp, hr⟩ := Exec.of_bind h
    cases hr
    rcases exec_processOnce hp with ⟨rfl, hin, rfl⟩ | ⟨hn, _, r, rfl, he⟩
    · exact .refundSkipped hin
    · rcases exec_refund he with ⟨rfl, hc, rfl⟩ | ⟨rfl, hc, hfits, hinteger, rfl⟩
      · exact .fenced hn (by simpa using hc)
      · exact .refunded hn (by simpa using hc) hfits hinteger
  | userCreated c =>
    obtain ⟨_, m, inserted, _, hc, hr⟩ := Exec.of_bind h
    cases hr
    obtain ⟨_, _, _, _, hbind, hrest⟩ := Exec.of_bind hc
    obtain ⟨rfl, hinteger⟩ := exec_bindInteger hbind
    obtain ⟨_, _, found, _, hl, hf⟩ := Exec.of_bind hrest
    obtain ⟨rfl, v, _, hv, hvf⟩ := hl.of_look
    cases found with
    | true =>
      cases hf
      exact .accountKept (hv.2.2 c hvf) hinteger
    | false =>
      have he := hf.of_exec
      split at he
      · cases he; exact .accountKept ‹_› hinteger
      · rename_i hnone
        cases he
        exact .accountCreated (by simpa using hnone) hinteger

end

end MarketplaceApi.Account
