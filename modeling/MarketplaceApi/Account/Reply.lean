import MarketplaceApi.Account.Inbox

/-!
# What the replies say

A skipped delivery is answered as if its first processing had moved money: a charge with
`success`, a refund with `refunded`. A row that a fence wrote is skipped in the same way.
The replies are true exactly when no delivery meets such a row.
-/
namespace MarketplaceApi.Account

open Txn Transition

/-- A message id names one message: every delivery of it carries the same data. -/
structure Catalogue where
  charged : Uuid → Movement
  refunded : Uuid → Movement × Uuid

def Catalogue.charge (k : Catalogue) (id : Uuid) : ChargeRequest := ⟨id, k.charged id⟩

def Catalogue.refund (k : Catalogue) (id : Uuid) : RefundRequest :=
  ⟨id, (k.refunded id).1, (k.refunded id).2⟩

def Catalogue.Sent (k : Catalogue) : Request → Prop
  | .charge msg => msg = k.charge msg.id
  | .refund msg => msg = k.refund msg.id
  | .userCreated _ => True

/-- The books before any charge or refund: accounts and their deposits only. -/
structure Opening (s : Tables) : Prop where
  inbox : s.inbox = []
  transactions : ∀ t ∈ s.transactions, t.chargeId = none ∧ t.messageId = none

/-- The replies given so far agree with the ledger and with each other. -/
structure Truthful (s : Tables) (as : List (Request × Except Failure Status)) : Prop where
  success : ∀ msg, (.charge msg, .ok .success) ∈ as → payment msg ∈ s.transactions
  refunded : ∀ msg, (.refund msg, .ok .refunded) ∈ as → s.rows .refund msg.chargeId ≠ []
  notCharged : ∀ msg, (.refund msg, .ok .notCharged) ∈ as → s.rows .payment msg.chargeId = []
  same : ∀ q status status', (∀ customerId, q ≠ .userCreated customerId) →
    (q, .ok status) ∈ as → (q, .ok status') ∈ as → status = status'

/-- The charge's inbox row is there, its PAYMENT is not: a refund wrote the row. -/
def Tables.chargeFenced (s : Tables) (id : Uuid) : Prop :=
  (.customerCharge, id) ∈ s.inbox ∧ s.rows .payment id = []

/-- The refund's inbox row is there, and it wrote no REFUND: it was the fence. -/
def Tables.wasFence (s : Tables) (id : Uuid) : Prop :=
  (.customerRefund, id) ∈ s.inbox ∧ ∀ t ∈ s.transactions, t.type = .refund → t.messageId ≠ some id

/-- The request is not a delivery of a fenced or fencing message. -/
def Tables.NoFence (s : Tables) : Request → Prop
  | .charge msg => ¬ s.chargeFenced msg.id
  | .refund msg => ¬ s.wasFence msg.id
  | .userCreated _ => True

def CommitsNoFence (c : Config Lock Tables Failure Status Request) (ev : Event Request) : Prop :=
  ∀ i t, ev = .commit i → c.txs i = some t → c.db.NoFence t.request

/-- What the tables remember of the messages processed, whatever the replies were. -/
structure Remembered (k : Catalogue) (s : Tables) (as : List (Request × Except Failure Status)) :
    Prop where
  payments : ∀ t ∈ s.transactions, t.type = .payment → ∀ id, t.chargeId = some id →
    (.customerCharge, id) ∈ s.inbox ∧ t = payment (k.charge id)
  refunds : ∀ t ∈ s.transactions, t.type = .refund → ∀ id, t.messageId = some id →
    (.customerRefund, id) ∈ s.inbox ∧ t = refundRow (k.refund id)
  answered : ∀ msg status, (.refund msg, .ok status) ∈ as → (.customerRefund, msg.id) ∈ s.inbox
  fenced : ∀ msg, (.refund msg, .ok .notCharged) ∈ as → (.customerCharge, msg.chargeId) ∈ s.inbox ∧
    s.wasFence msg.id
  origin : ∀ id, (.customerRefund, id) ∈ s.inbox → refundRow (k.refund id) ∈ s.transactions ∨
    (.refund (k.refund id), .ok .notCharged) ∈ as

section
variable {k : Catalogue} {s s' : Tables} {as : List (Request × Except Failure Status)} {q : Request}
  {status : Status}

theorem remembered_opening (hs : Opening s) : Remembered k s [] where
  payments t ht _ id hid := by rw [(hs.transactions t ht).1] at hid; cases hid
  refunds t ht _ id hid := by rw [(hs.transactions t ht).2] at hid; cases hid
  answered _ _ h := by cases h
  fenced _ h := by cases h
  origin id h := by rw [hs.inbox] at h; cases h

/-- An answer that adds nothing new to what the tables show. -/
theorem Remembered.answer (h : Remembered k s as) {o : Except Failure Status}
    (hr : ∀ msg status, q = .refund msg → o = .ok status →
      status = .refunded ∧ (.customerRefund, msg.id) ∈ s.inbox) :
    Remembered k s ((q, o) :: as) where
  payments := h.payments
  refunds := h.refunds
  answered msg status hin := by
    rcases List.mem_cons.mp hin with he | hin
    · cases he
      exact (hr msg status rfl rfl).2
    · exact h.answered msg status hin
  fenced msg hin := by
    rcases List.mem_cons.mp hin with he | hin
    · cases he
      exact nomatch (hr msg _ rfl rfl).1
    · exact h.fenced msg hin
  origin id hin := (h.origin id hin).imp_right (List.mem_cons_of_mem _)

theorem Remembered.charged {msg : ChargeRequest} (h : Remembered k s as)
    (hq : msg = k.charge msg.id) (balance : Int) :
    Remembered k (chargeApplied s msg balance) ((.charge msg, .ok .success) :: as) := by
  refine Remembered.answer ⟨?_, ?_, ?_, ?_, ?_⟩ (by rintro _ _ ⟨⟩)
  · intro t ht htype id hid
    rcases List.mem_cons.mp ht with rfl | ht
    · obtain rfl : msg.id = id := by simpa [payment] using hid
      exact ⟨List.mem_cons_self, by rw [← hq]⟩
    · obtain ⟨hin, he⟩ := h.payments t ht htype id hid
      exact ⟨List.mem_cons_of_mem _ hin, he⟩
  · intro t ht htype id hid
    rcases List.mem_cons.mp ht with rfl | ht
    · cases htype
    · obtain ⟨hin, he⟩ := h.refunds t ht htype id hid
      exact ⟨List.mem_cons_of_mem _ hin, he⟩
  · exact fun m st hin => List.mem_cons_of_mem _ (h.answered m st hin)
  · intro m hin
    obtain ⟨hc, hr, hno⟩ := h.fenced m hin
    refine ⟨List.mem_cons_of_mem _ hc, List.mem_cons_of_mem _ hr, fun t ht htype => ?_⟩
    rcases List.mem_cons.mp ht with rfl | ht
    · cases htype
    · exact hno t ht htype
  · intro id hin
    rcases List.mem_cons.mp hin with he | hin
    · cases he
    · exact (h.origin id hin).imp_left (List.mem_cons_of_mem _)

theorem Remembered.refunded {msg : RefundRequest} (h : Remembered k s as)
    (hq : msg = k.refund msg.id) (hn : (.customerRefund, msg.id) ∉ s.inbox) :
    Remembered k (refundApplied s msg) ((.refund msg, .ok .refunded) :: as) := by
  refine Remembered.answer ⟨?_, ?_, ?_, ?_, ?_⟩ ?_
  · intro t ht htype id hid
    rcases List.mem_cons.mp ht with rfl | ht
    · cases htype
    · obtain ⟨hin, he⟩ := h.payments t ht htype id hid
      exact ⟨List.mem_cons_of_mem _ hin, he⟩
  · intro t ht htype id hid
    rcases List.mem_cons.mp ht with rfl | ht
    · obtain rfl : msg.id = id := by simpa [refundRow] using hid
      exact ⟨List.mem_cons_self, by rw [← hq]⟩
    · obtain ⟨hin, he⟩ := h.refunds t ht htype id hid
      exact ⟨List.mem_cons_of_mem _ hin, he⟩
  · exact fun m st hin => List.mem_cons_of_mem _ (h.answered m st hin)
  · intro m hin
    obtain ⟨hc, hr, hno⟩ := h.fenced m hin
    refine ⟨List.mem_cons_of_mem _ hc, List.mem_cons_of_mem _ hr, fun t ht htype => ?_⟩
    rcases List.mem_cons.mp ht with rfl | ht
    · intro he
      obtain he : msg.id = m.id := by simpa [refundRow] using he
      exact hn (he ▸ hr)
    · exact hno t ht htype
  · intro id hin
    rcases List.mem_cons.mp hin with he | hin
    · cases he
      left
      rw [← hq]
      exact List.mem_cons_self
    · exact (h.origin id hin).imp_left (List.mem_cons_of_mem _)
  · rintro _ _ ⟨⟩ ⟨⟩
    exact ⟨rfl, List.mem_cons_self⟩

theorem Remembered.fence {msg : RefundRequest} (h : Remembered k s as)
    (hq : msg = k.refund msg.id) (hn : (.customerRefund, msg.id) ∉ s.inbox) :
    Remembered k (refundFenced s msg) ((.refund msg, .ok .notCharged) :: as) := by
  have grows : ∀ {row}, row ∈ s.inbox → row ∈ (refundFenced s msg).inbox := fun hin =>
    List.mem_cons_of_mem _ (List.mem_cons_of_mem _ hin)
  have here : (.customerRefund, msg.id) ∈ (refundFenced s msg).inbox :=
    List.mem_cons_of_mem _ List.mem_cons_self
  have fresh : ∀ t ∈ s.transactions, t.type = .refund → t.messageId ≠ some msg.id :=
    fun t ht htype he => hn (h.refunds t ht htype msg.id he).1
  refine ⟨?_, ?_, ?_, ?_, ?_⟩
  · exact fun t ht htype id hid => (h.payments t ht htype id hid).imp_left grows
  · exact fun t ht htype id hid => (h.refunds t ht htype id hid).imp_left grows
  · intro m st hin
    rcases List.mem_cons.mp hin with he | hin
    · cases he
      exact here
    · exact grows (h.answered m st hin)
  · intro m hin
    rcases List.mem_cons.mp hin with he | hin
    · cases he
      exact ⟨List.mem_cons_self, here, fresh⟩
    · obtain ⟨hc, hr, hno⟩ := h.fenced m hin
      exact ⟨grows hc, grows hr, hno⟩
  · intro id hin
    rcases List.mem_cons.mp hin with he | hin
    · cases he
    rcases List.mem_cons.mp hin with he | hin
    · cases he
      right
      rw [← hq]
      exact List.mem_cons_self
    · exact (h.origin id hin).imp_right (List.mem_cons_of_mem _)

theorem Remembered.commit (h : Remembered k s as) (hq : k.Sent q) (hc : Commit q s s' status) :
    Remembered k s' ((q, .ok status) :: as) := by
  cases hc with
  | charged hn hb hle => exact h.charged hq _
  | chargeSkipped _ => exact h.answer (by rintro _ _ ⟨⟩)
  | refunded hn hin hfits => exact h.refunded hq hn
  | fenced hn hc => exact h.fence hq hn
  | refundSkipped hin =>
    refine h.answer ?_
    rintro _ _ ⟨⟩ ⟨⟩
    exact ⟨rfl, hin⟩
  | @accountCreated c _ _ =>
    have hs : Remembered k (s.setBalance c 0) as :=
      ⟨h.payments, h.refunds, h.answered, h.fenced, h.origin⟩
    exact hs.answer (by rintro _ _ ⟨⟩)
  | accountKept _ => exact h.answer (by rintro _ _ ⟨⟩)

/-- The statuses a request can be answered with. -/
def Status.Answers : Request → Status → Prop
  | .charge _, status => status = .success
  | .refund _, status => status = .refunded ∨ status = .notCharged
  | .userCreated _, _ => True

theorem Commit.answers (hc : Commit q s s' status) : status.Answers q := by
  cases hc with
  | charged _ _ _ => rfl
  | chargeSkipped _ => rfl
  | refunded _ _ _ => exact Or.inl rfl
  | fenced _ _ => exact Or.inr rfl
  | refundSkipped _ => exact Or.inl rfl
  | accountCreated _ => trivial
  | accountKept _ => trivial

theorem mem_rows {t : Transaction} {type : TransactionType} {id : Uuid} :
    t ∈ s.rows type id ↔ t ∈ s.transactions ∧ t.type = type ∧ t.chargeId = some id := by
  simp [Tables.rows, Tables.rowsOf]

theorem rows_ne_nil {t : Transaction} {type : TransactionType} {id : Uuid} (ht : t ∈ s.transactions)
    (hid : t.chargeId = some id) (htype : t.type = type) : s.rows type id ≠ [] :=
  List.ne_nil_of_mem (mem_rows.mpr ⟨ht, htype, hid⟩)

theorem truthful_nil : Truthful s [] where
  success _ h := by cases h
  refunded _ h := by cases h
  notCharged _ h := by cases h
  same _ _ _ _ h := by cases h

/-- More rows keep the replies true, as long as no PAYMENT joins a charge answered `not_charged`. -/
theorem Truthful.grow (ht : Truthful s as) (hsub : ∀ t ∈ s.transactions, t ∈ s'.transactions)
    (hp : ∀ msg, (.refund msg, .ok .notCharged) ∈ as → s'.rows .payment msg.chargeId = []) :
    Truthful s' as where
  success msg h := hsub _ (ht.success msg h)
  refunded msg h := by
    obtain ⟨t, hmem⟩ := List.exists_mem_of_ne_nil _ (ht.refunded msg h)
    obtain ⟨hin, htype, hid⟩ := mem_rows.mp hmem
    exact rows_ne_nil (hsub t hin) hid htype
  notCharged := hp
  same := ht.same

/-- One more reply keeps them true exactly when it is true itself and repeats the earlier ones. -/
theorem truthful_cons {o : Except Failure Status} : Truthful s ((q, o) :: as) ↔ Truthful s as ∧
    (∀ msg, q = .charge msg → o = .ok .success → payment msg ∈ s.transactions) ∧
    (∀ msg, q = .refund msg → o = .ok .refunded → s.rows .refund msg.chargeId ≠ []) ∧
    (∀ msg, q = .refund msg → o = .ok .notCharged → s.rows .payment msg.chargeId = []) ∧
    (∀ status status', (∀ customerId, q ≠ .userCreated customerId) → o = .ok status →
      (q, .ok status') ∈ as → status = status') := by
  constructor
  · intro h
    refine ⟨⟨fun msg hin => ?_, fun msg hin => ?_, fun msg hin => ?_, fun p st st' hp h₁ h₂ => ?_⟩,
      ?_, ?_, ?_, ?_⟩
    · exact h.success msg (List.mem_cons_of_mem _ hin)
    · exact h.refunded msg (List.mem_cons_of_mem _ hin)
    · exact h.notCharged msg (List.mem_cons_of_mem _ hin)
    · exact h.same p st st' hp (List.mem_cons_of_mem _ h₁) (List.mem_cons_of_mem _ h₂)
    · rintro msg rfl rfl; exact h.success msg List.mem_cons_self
    · rintro msg rfl rfl; exact h.refunded msg List.mem_cons_self
    · rintro msg rfl rfl; exact h.notCharged msg List.mem_cons_self
    · rintro st st' hq rfl hin
      exact h.same q st st' hq List.mem_cons_self (List.mem_cons_of_mem _ hin)
  · rintro ⟨h, hs, hr, hn, he⟩
    refine ⟨fun msg hin => ?_, fun msg hin => ?_, fun msg hin => ?_, fun p st st' hp h₁ h₂ => ?_⟩
    · rcases List.mem_cons.mp hin with e | hin
      · cases e; exact hs msg rfl rfl
      · exact h.success msg hin
    · rcases List.mem_cons.mp hin with e | hin
      · cases e; exact hr msg rfl rfl
      · exact h.refunded msg hin
    · rcases List.mem_cons.mp hin with e | hin
      · cases e; exact hn msg rfl rfl
      · exact h.notCharged msg hin
    · rcases List.mem_cons.mp h₁ with e₁ | old₁ <;> rcases List.mem_cons.mp h₂ with e₂ | old₂
      · cases e₁; cases e₂; rfl
      · cases e₁; exact he st st' hp rfl old₂
      · cases e₂; exact (he st' st hp rfl old₁).symm
      · exact h.same p st st' hp old₁ old₂

theorem truthful_error {e : Failure} : Truthful s ((q, .error e) :: as) ↔ Truthful s as := by
  rw [truthful_cons]
  exact ⟨fun h => h.1, fun h => ⟨h, nofun, nofun, nofun, nofun⟩⟩

theorem truthful_charged {msg : ChargeRequest} (h : Remembered k s as) (ht : Truthful s as)
    (hk : ∀ q status, (q, .ok status) ∈ as → status.Answers q)
    (hn : (.customerCharge, msg.id) ∉ s.inbox) (balance : Int) :
    Truthful (chargeApplied s msg balance) ((.charge msg, .ok .success) :: as) := by
  refine truthful_cons.mpr ⟨ht.grow (fun t hin => List.mem_cons_of_mem _ hin) ?_, ?_, nofun, nofun, ?_⟩
  · intro m hin
    rw [List.eq_nil_iff_forall_not_mem]
    intro t hmem
    obtain ⟨hin', htype, hid⟩ := mem_rows.mp hmem
    rcases List.mem_cons.mp hin' with rfl | hin'
    · obtain hid : msg.id = m.chargeId := by simpa [payment] using hid
      exact hn (hid ▸ (h.fenced m hin).1)
    · exact rows_ne_nil hin' hid htype (ht.notCharged m hin)
  · rintro _ ⟨⟩ _
    exact List.mem_cons_self
  · rintro _ st' _ ⟨⟩ hin
    exact (hk _ st' hin).symm

theorem truthful_chargeSkipped {msg : ChargeRequest} (h : Remembered k s as) (ht : Truthful s as)
    (hk : ∀ q status, (q, .ok status) ∈ as → status.Answers q) (hq : msg = k.charge msg.id)
    (hin : (.customerCharge, msg.id) ∈ s.inbox) :
    Truthful s ((.charge msg, .ok .success) :: as) ↔ ¬ s.chargeFenced msg.id := by
  constructor
  · rintro hcons ⟨_, hnil⟩
    exact rows_ne_nil (hcons.success msg List.mem_cons_self) rfl rfl hnil
  · intro hno
    have hne : s.rows .payment msg.id ≠ [] := fun hnil => hno ⟨hin, hnil⟩
    obtain ⟨t, hmem⟩ := List.exists_mem_of_ne_nil _ hne
    obtain ⟨hrow, htype, hid⟩ := mem_rows.mp hmem
    have he := (h.payments t hrow htype msg.id hid).2
    rw [← hq] at he
    subst he
    refine truthful_cons.mpr ⟨ht, ?_, nofun, nofun, ?_⟩
    · rintro _ ⟨⟩ _
      exact hrow
    · rintro _ st' _ ⟨⟩ hin'
      exact (hk _ st' hin').symm

theorem truthful_refunded {msg : RefundRequest} (h : Remembered k s as) (ht : Truthful s as)
    (hn : (.customerRefund, msg.id) ∉ s.inbox) :
    Truthful (refundApplied s msg) ((.refund msg, .ok .refunded) :: as) := by
  refine truthful_cons.mpr ⟨ht.grow (fun t hin => List.mem_cons_of_mem _ hin) ?_, nofun, ?_, nofun, ?_⟩
  · intro m hin
    rw [← ht.notCharged m hin]
    simp [Tables.rows, refundApplied, rowsOf_addTransaction, refundRow, apply_ite]
  · rintro _ ⟨⟩ _
    exact rows_ne_nil List.mem_cons_self rfl rfl
  · rintro _ st' _ _ hin
    exact absurd (h.answered msg st' hin) hn

theorem truthful_fenced {msg : RefundRequest} (h : Remembered k s as) (ht : Truthful s as)
    (hn : (.customerRefund, msg.id) ∉ s.inbox) (hc : (.customerCharge, msg.chargeId) ∉ s.inbox) :
    Truthful (refundFenced s msg) ((.refund msg, .ok .notCharged) :: as) := by
  refine truthful_cons.mpr ⟨ht.grow (fun t hin => hin) ht.notCharged, nofun, nofun, ?_, ?_⟩
  · rintro _ ⟨⟩ _
    rw [List.eq_nil_iff_forall_not_mem]
    intro t hmem
    obtain ⟨hrow, htype, hid⟩ := mem_rows.mp hmem
    exact hc (h.payments t hrow htype _ hid).1
  · rintro _ st' _ _ hin
    exact absurd (h.answered msg st' hin) hn

theorem truthful_refundSkipped {msg : RefundRequest} (h : Remembered k s as) (ht : Truthful s as)
    (hk : ∀ q status, (q, .ok status) ∈ as → status.Answers q) (hq : msg = k.refund msg.id)
    (hin : (.customerRefund, msg.id) ∈ s.inbox) :
    Truthful s ((.refund msg, .ok .refunded) :: as) ↔ ¬ s.wasFence msg.id := by
  constructor
  · rintro hcons ⟨_, hno⟩
    rcases h.origin msg.id hin with hrow | hans
    · exact hno _ hrow rfl rfl
    · rw [← hq] at hans
      exact nomatch hcons.same (.refund msg) .refunded .notCharged nofun List.mem_cons_self
        (List.mem_cons_of_mem _ hans)
  · intro hno
    have hrow : refundRow msg ∈ s.transactions := by
      rcases h.origin msg.id hin with hrow | hans
      · rwa [← hq] at hrow
      · rw [← hq] at hans
        exact absurd (h.fenced msg hans).2 hno
    refine truthful_cons.mpr ⟨ht, nofun, ?_, nofun, ?_⟩
    · rintro _ ⟨⟩ _
      exact rows_ne_nil hrow rfl rfl
    · rintro _ st' _ ⟨⟩ hin'
      rcases hk _ st' hin' with rfl | rfl
      · rfl
      · exact absurd (h.fenced msg hin').2 hno

/-- A commit keeps the replies true exactly when it is not a delivery of a fenced or fencing message. -/
theorem truthful_commit (h : Remembered k s as) (ht : Truthful s as)
    (hk : ∀ q status, (q, .ok status) ∈ as → status.Answers q) (hq : k.Sent q)
    (hc : Commit q s s' status) : Truthful s' ((q, .ok status) :: as) ↔ s.NoFence q := by
  cases hc with
  | charged hn hb hle => exact iff_of_true (truthful_charged h ht hk hn _) fun hf => hn hf.1
  | chargeSkipped hin => exact truthful_chargeSkipped h ht hk hq hin
  | refunded hn hin hfits => exact iff_of_true (truthful_refunded h ht hn) fun hf => hn hf.1
  | fenced hn hc => exact iff_of_true (truthful_fenced h ht hn hc) fun hf => hn hf.1
  | refundSkipped hin => exact truthful_refundSkipped h ht hk hq hin
  | accountCreated _ =>
    refine iff_of_true (truthful_cons.mpr ⟨ht.grow (fun _ h => h) ht.notCharged, ?_⟩) trivial
    exact ⟨nofun, nofun, nofun, fun _ _ hne => absurd rfl (hne _)⟩
  | accountKept _ =>
    refine iff_of_true (truthful_cons.mpr ⟨ht, ?_⟩) trivial
    exact ⟨nofun, nofun, nofun, fun _ _ hne => absurd rfl (hne _)⟩

end

section
variable {k : Catalogue} {s : Tables} {c c' : Config Lock Tables Failure Status Request}
  {ev : Event Request} {tr : List (Config Lock Tables Failure Status Request × Event Request)}

theorem remembered_run (hs : Opening s) (hr : Run (Step (system k.Sent)) (Config.start s) tr c) :
    Remembered k c.db c.answers ∧ ∀ q status, (q, .ok status) ∈ c.answers → status.Answers q := by
  refine run_serial_invariant (Y := system k.Sent) (J := fun u as => Remembered k u as ∧
    ∀ q status, (q, .ok status) ∈ as → status.Answers q) ⟨remembered_opening hs, nofun⟩ ?_ ?_
    (fun _ henv => nomatch henv) hr
  · rintro q b u u' as status ⟨hu, hk⟩ hq _ he
    have hc := commit_of_exec he
    refine ⟨hu.commit hq hc, fun p st hin => ?_⟩
    rcases List.mem_cons.mp hin with e | hin
    · cases e; exact hc.answers
    · exact hk p st hin
  · rintro q b u _ as e ⟨hu, hk⟩ _ _ _
    refine ⟨hu.answer nofun, fun p st hin => ?_⟩
    rcases List.mem_cons.mp hin with e | hin
    · cases e
    · exact hk p st hin

theorem truthful_step (hs : Opening s) (hr : Run (Step (system k.Sent)) (Config.start s) tr c)
    (ht : Truthful c.db c.answers) (hstep : Step (system k.Sent) c ev c') :
    Truthful c'.db c'.answers ↔ CommitsNoFence c ev := by
  obtain ⟨h, hk⟩ := remembered_run hs hr
  rcases hstep.serial (coherent_run hr) with ⟨hd, ha, hev⟩ | ⟨i, t, b, r, hev, hi, hq, _, he, ha⟩ |
    ⟨_, _, _, _, _, rfl, _, _, _, _, hd, ha⟩ | ⟨_, henv, _⟩
  · rw [hd, ha]
    exact iff_of_true ht fun i _ he => absurd he (hev i).1
  · rw [ha, truthful_commit h ht hk hq (commit_of_exec he)]
    constructor
    · intro hno j u hj hu
      rw [hev] at hj
      cases hj
      rw [hi] at hu
      cases hu
      exact hno
    · exact fun hno => hno i t hev hi
  · rw [hd, ha, truthful_error]
    exact iff_of_true ht nofun
  · exact henv.elim

/-- The replies stay true in a run exactly when no delivery of it commits on the inbox row of a
fenced charge or of a refund that was the fence. -/
theorem replies_truthful_iff (hs : Opening s)
    (hr : Run (Step (system k.Sent)) (Config.start s) tr c) :
    Throughout (fun c => Truthful c.db c.answers) tr c ↔ Always CommitsNoFence tr :=
  hr.throughout_iff truthful_nil fun hrun ht hstep => truthful_step hs hrun ht hstep

def sampleCatalogue : Catalogue := ⟨fun _ => sampleCharge.data, fun id => (sampleCharge.data, id)⟩

theorem opening_funded (customerId amount : Nat) : Opening (.funded customerId amount) :=
  ⟨rfl, by simp [Tables.funded]⟩

/-- A refund that found no charge, delivered twice. -/
theorem redelivered_fence_run : ∃ tr, Run (Step (system sampleCatalogue.Sent))
    (Config.start (.funded 7 500)) tr ⟨refundFenced (.funded 7 500) sampleRefund, fun _ => none,
      [(.refund sampleRefund, .ok .refunded), (.refund sampleRefund, .ok .notCharged)]⟩ := by
  obtain ⟨_, hfirst⟩ := process_idle (Y := system sampleCatalogue.Sent) (.refund sampleRefund)
    (.funded 7 500) [] rfl rfl
  obtain ⟨_, hagain⟩ := process_idle (Y := system sampleCatalogue.Sent) (.refund sampleRefund)
    (refundFenced (.funded 7 500) sampleRefund) [(.refund sampleRefund, .ok .notCharged)] rfl rfl
  exact ⟨_, hfirst.append hagain⟩

theorem replies_truthful_refuted : ¬ ∀ (k : Catalogue) (s : Tables) (tr : List _) (c : Config _ _ _ _ _),
    Opening s → Run (Step (system k.Sent)) (Config.start s) tr c → Truthful c.db c.answers := by
  intro hclaim
  obtain ⟨tr, hr⟩ := redelivered_fence_run
  have ht := hclaim _ _ tr _ (opening_funded 7 500) hr
  exact ht.refunded sampleRefund List.mem_cons_self rfl

/-- A charge, delivered twice. -/
theorem redelivered_charge_run : ∃ tr, Run (Step (system sampleCatalogue.Sent)) (Config.start (.funded 7 500)) tr
      ⟨chargeApplied (.funded 7 500) sampleCharge 500, fun _ => none,
        [(.charge sampleCharge, .ok .success), (.charge sampleCharge, .ok .success)]⟩ ∧
    Always CommitsNoFence tr := by
  have hopen : ∀ (c : Config Lock Tables Failure Status Request) ev,
      (∀ i, ev ≠ .commit i ∧ ev ≠ .rollback i) → CommitsNoFence c ev :=
    fun c ev hev i _ he => absurd he (hev i).1
  have hcommit : ∀ s : Tables, s.NoFence (.charge sampleCharge) →
      ∀ (c : Config Lock Tables Failure Status Request) t, c.db = s → c.txs 0 = some t →
      t.request = .charge sampleCharge → CommitsNoFence c (.commit 0) := by
    intro s hno c t hdb ht hrequest i u he hu
    cases he
    rw [ht] at hu
    cases hu
    rw [hdb, hrequest]
    exact hno
  obtain ⟨_, hfirst, hm₁⟩ := process_meets (Y := system sampleCatalogue.Sent) CommitsNoFence (.charge sampleCharge)
    (.funded 7 500) [] rfl rfl hopen (hcommit _ fun hfenced => absurd hfenced.1 (by decide))
  obtain ⟨_, hagain, hm₂⟩ := process_meets (Y := system sampleCatalogue.Sent) CommitsNoFence (.charge sampleCharge)
    (chargeApplied (.funded 7 500) sampleCharge 500) [(.charge sampleCharge, .ok .success)] rfl rfl hopen
    (hcommit _ fun hfenced => absurd hfenced.2 (by decide))
  exact ⟨_, hfirst.append hagain, always_append.mpr ⟨hm₁, hm₂⟩⟩

theorem replies_truthful_iff_fenced :
    (∃ tr c, Run (Step (system sampleCatalogue.Sent)) (Config.start (.funded 7 500)) tr c ∧
      ¬ Always CommitsNoFence tr) ∧
    ∃ tr c, Run (Step (system sampleCatalogue.Sent)) (Config.start (.funded 7 500)) tr c ∧
      c.answers = [(.charge sampleCharge, .ok .success), (.charge sampleCharge, .ok .success)] ∧
      Throughout (fun c => Truthful c.db c.answers) tr c := by
  constructor
  · obtain ⟨tr, hr⟩ := redelivered_fence_run
    refine ⟨tr, _, hr, fun hmeets => ?_⟩
    have ht := (replies_truthful_iff (opening_funded 7 500) hr).mpr hmeets
    exact ht.2.refunded sampleRefund List.mem_cons_self rfl
  · obtain ⟨tr, hr, hm⟩ := redelivered_charge_run
    exact ⟨tr, _, hr, rfl, (replies_truthful_iff (opening_funded 7 500) hr).mpr hm⟩

end

end MarketplaceApi.Account
