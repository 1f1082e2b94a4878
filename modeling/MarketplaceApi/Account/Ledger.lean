import MarketplaceApi.Account.Commit

/-!
# The ledger invariant

`Account.balance` is the sum of the customer's successful ledger rows. The two are written
by separate statements, so the invariant is one of committed states: a transaction either
publishes both or neither.
-/
namespace MarketplaceApi.Account

open Txn Transition

/-- Balance and ledger agree, and every ledger row belongs to an account (`Transaction_customerId_fkey`). -/
structure Balanced (s : Tables) : Prop where
  sum : ∀ c balance, s.balance c = some balance → balance = s.ledger c
  foreignKey : ∀ t ∈ s.transactions, (s.balance t.customerId).isSome

section
variable {s s' : Tables}

theorem balanced_funded (customerId amount : Nat) : Balanced (.funded customerId amount) where
  sum c balance h := by
    by_cases e : c = customerId
    · subst e
      simpa [Tables.funded, Tables.ledger, Transaction.signed] using h.symm
    · simp [Tables.funded, e] at h
  foreignKey t ht := by
    simp only [Tables.funded, List.mem_singleton] at ht
    simp [ht, Tables.funded]

/-- A customer without an account has no ledger rows. -/
theorem Balanced.getD (h : Balanced s) (c : Nat) : (s.balance c).getD 0 = s.ledger c := by
  cases hb : s.balance c with
  | some balance => exact h.sum c balance hb
  | none =>
    have hnil : (s.transactions.filter fun t => t.customerId = c ∧ t.status = .success) = [] := by
      rw [List.filter_eq_nil_iff]
      intro t ht hc
      have hk := h.foreignKey t ht
      simp only [decide_eq_true_eq] at hc
      rw [hc.1, hb] at hk
      cases hk
    unfold Tables.ledger
    rw [hnil]
    rfl

theorem Balanced.addInbox (h : Balanced s) (consumer : Consumer) (messageId : Uuid) :
    Balanced (s.addInbox consumer messageId) := ⟨h.sum, h.foreignKey⟩

/-- Opening an account at zero. -/
theorem Balanced.open (h : Balanced s) {c : Nat} (hc : s.balance c = none) :
    Balanced (s.setBalance c 0) where
  sum x balance hx := by
    by_cases e : x = c
    · subst e
      have hz := h.getD x
      rw [hc] at hz
      rw [setBalance_self] at hx
      cases hx
      exact hz
    · rw [setBalance_other s 0 e] at hx
      exact h.sum x balance hx
  foreignKey t ht := by
    by_cases e : t.customerId = c
    · rw [e, setBalance_self]; rfl
    · rw [setBalance_other s 0 e]; exact h.foreignKey t ht

/-- A movement writes its row and moves the balance by the row's signed amount. -/
theorem Balanced.move (h : Balanced s) {t : Transaction} (ht : t.status = .success) :
    Balanced ((s.setBalance t.customerId ((s.balance t.customerId).getD 0 + t.signed)).addTransaction t)
    where
  sum x balance hx := by
    rw [ledger_addTransaction _ _ ht, ledger_setBalance]
    rw [addTransaction_balance] at hx
    by_cases e : x = t.customerId
    · subst e
      rw [setBalance_self] at hx
      cases hx
      rw [if_pos rfl, h.getD]
    · rw [setBalance_other s _ e] at hx
      rw [if_neg (Ne.symm e), Int.add_zero]
      exact h.sum x balance hx
  foreignKey u hu := by
    rw [addTransaction_balance]
    by_cases e : u.customerId = t.customerId
    · rw [e, setBalance_self]; rfl
    · rw [setBalance_other s _ e]
      rcases List.mem_cons.mp hu with rfl | hu
      · exact absurd rfl e
      · exact h.foreignKey u hu

theorem chargeApplied_eq {msg : ChargeRequest} {balance : Int}
    (hb : s.balance msg.data.customerId = some balance) :
    chargeApplied s msg balance = ((s.addInbox .customerCharge msg.id).setBalance
      (payment msg).customerId (((s.addInbox .customerCharge msg.id).balance
        (payment msg).customerId).getD 0 + (payment msg).signed)).addTransaction (payment msg) := by
  simp only [chargeApplied, payment, Transaction.signed, addInbox_balance, hb, Option.getD_some]
  rfl

/-- Every commit keeps the books balanced. -/
theorem Balanced.commit (h : Balanced s) {q : Request} {status : Status}
    (hc : Commit q s s' status) : Balanced s' := by
  cases hc with
  | charged hn hb hle =>
    rw [chargeApplied_eq hb]
    exact (h.addInbox _ _).move rfl
  | chargeSkipped _ => exact h
  | refunded hn hin hfits => exact (h.addInbox _ _).move (t := refundRow _) rfl
  | fenced hn hc => exact (h.addInbox _ _).addInbox _ _
  | refundSkipped _ => exact h
  | accountCreated hb => exact h.open hb
  | accountKept _ => exact h

/-- After a charge every balance is the one before it or still covers zero. -/
theorem charge_nonneg {msg : ChargeRequest} {status : Status} (hc : Commit (.charge msg) s s' status)
    {c : Nat} {balance : Int} (hb : s'.balance c = some balance) :
    s.balance c = some balance ∨ 0 ≤ balance := by
  cases hc with
  | @charged _ _ old hn hold hle =>
    by_cases e : c = msg.data.customerId
    · subst e
      simp only [chargeApplied, addTransaction_balance, setBalance_self, Option.some.injEq] at hb
      exact Or.inr (by omega)
    · left
      simpa [chargeApplied, setBalance_other _ _ e] using hb
  | chargeSkipped _ => exact Or.inl hb

end

/-- Charges, refunds and `user.created` events of any customers, with no restriction. -/
abbrev traffic : System Lock Tables Failure Status Request := system fun _ => True

section
variable {s : Tables} {c c' : Config Lock Tables Failure Status Request} {ev : Event Request}
  {tr : List (Config Lock Tables Failure Status Request × Event Request)}

theorem balanced_run {P : Request → Prop} (h : Balanced s)
    (hr : Run (Step (system P)) (Config.start s) tr c) : Balanced c.db :=
  run_serial_invariant (Y := system P) (J := fun u _ => Balanced u) h
    (fun hu _ _ he => hu.commit (commit_of_exec he)) (fun hu _ _ _ => hu) (fun _ henv => nomatch henv) hr

/-- The committed state moves only by the commit of a whole handler. -/
theorem db_of_step {P : Request → Prop} (hr : Run (Step (system P)) (Config.start s) tr c)
    (hs : Step (system P) c ev c') :
    ((∀ i, ev ≠ .commit i) ∧ c'.db = c.db) ∨ ∃ i t status, ev = .commit i ∧ c.txs i = some t ∧
      P t.request ∧ Commit t.request c.db c'.db status := by
  rcases hs.moves (coherent_run hr) with ⟨hev, hd | henv⟩ | ⟨i, t, b, r, hev, hi, hq, he⟩
  · exact Or.inl ⟨hev, hd⟩
  · exact henv.elim
  · exact Or.inr ⟨i, t, r, hev, hi, hq, commit_of_exec he⟩

/-- A charge that commits was there already, or its account covered it. -/
theorem charge_covered {msg : ChargeRequest} {status : Status} {s s' : Tables}
    (hc : Commit (.charge msg) s s' status) : (.customerCharge, msg.id) ∈ s.inbox ∨
      AccountRepository.covers s msg.data.customerId msg.data.amount = true := by
  cases hc with
  | charged _ hb hle hinteger => exact Or.inr (by simp [AccountRepository.covers, hb, hle, hinteger])
  | chargeSkipped hin => exact Or.inl hin

/-- In every reachable state the books balance; a charge makes no balance negative, and one that its
account does not cover is not committed; a request that does not commit, failed or aborted at any
statement, or is answered with its rejection, leaves every table as it was. -/
theorem ledger_invariant (h : Balanced s) (hr : Run (Step traffic) (Config.start s) tr c) :
    Balanced c.db ∧ ∀ ev c', Step traffic c ev c' →
      (∀ i t msg, ev = .commit i → c.txs i = some t → t.request = .charge msg →
        ((.customerCharge, msg.id) ∈ c.db.inbox ∨
          AccountRepository.covers c.db msg.data.customerId msg.data.amount = true) ∧
        ∀ x balance, c'.db.balance x = some balance → c.db.balance x = some balance ∨ 0 ≤ balance) ∧
      ((∀ i, ev ≠ .commit i) → c'.db = c.db) ∧
      ∀ q e, c'.answers = (q, .error e) :: c.answers → c'.db = c.db := by
  refine ⟨balanced_run h hr, fun ev c' hs => ⟨fun i t msg hev hi hq => ?_, fun hev => ?_, fun q e ha => ?_⟩⟩
  · rcases db_of_step hr hs with ⟨hno, _⟩ | ⟨j, u, status, hj, hu, _, hc⟩
    · exact absurd hev (hno i)
    · rw [hev] at hj
      cases hj
      rw [hi] at hu
      cases hu
      rw [hq] at hc
      exact ⟨charge_covered hc, fun _ _ hx => charge_nonneg hc hx⟩
  · rcases db_of_step hr hs with ⟨_, hd⟩ | ⟨j, _, _, hj, _⟩
    · exact hd
    · exact absurd hj (hev j)
  · rcases hs.serial (coherent_run hr) with ⟨hd, _, _⟩ | ⟨_, _, _, _, _, _, _, _, _, has⟩ |
      ⟨_, _, _, _, _, _, _, _, _, _, hd, _⟩ | ⟨_, henv, _⟩
    · exact hd
    · rw [has] at ha
      cases congrArg Prod.snd (List.cons.inj ha).1
    · exact hd
    · exact henv.elim

end

def sampleCharge : ChargeRequest := ⟨1, ⟨7, 300, by decide, by decide, by decide, by decide⟩⟩

theorem ledger_invariant_charged : ∃ tr c, Run (Step traffic) (Config.start (.funded 7 500)) tr c ∧
    Balanced c.db ∧ c.db.balance 7 = some 200 := by
  obtain ⟨tr, hr⟩ := process_idle (Y := traffic) (.charge sampleCharge) (.funded 7 500) [] trivial rfl
  exact ⟨tr, _, hr, (ledger_invariant (balanced_funded 7 500) hr).1, by decide⟩

end MarketplaceApi.Account
