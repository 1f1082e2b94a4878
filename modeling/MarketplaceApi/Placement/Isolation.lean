import MarketplaceApi.Placement.Marking

/-!
# Placing and marking orders, interleaved

Every statement is confined to the keys it inserts or the order it updates, so the requests
of the order context form a `Txn.System`. Offers belong to another context and may change
at any time.
-/
namespace MarketplaceApi.Placement

open Money Txn

/-- The keys a new order takes. -/
def Order.keys (order : Order) : List Lock :=
  .order order.id :: .publicId order.publicId ::
    (order.idempotencyKey.map (Lock.idempotency order.userId)).toList

/-- A row exists under the key. -/
def Tables.taken (s : Tables) (k : Lock) : Bool :=
  s.orders.any (fun order => k ∈ order.keys) || s.recipients.any (fun recipient => k = .recipient recipient.id) ||
    s.outbox.any (fun row => k = .event row.id) || s.workflowOutbox.any fun row => k = .workflow row.workflowId

def Tables.ordersUnder (s : Tables) (k : Lock) : List Order := s.orders.filter fun order => k = .order order.id

def Tables.linesUnder (s : Tables) (k : Lock) : List OrderLine :=
  s.lines.filter fun line => k = .order line.orderId

/-- The same order at a later time. -/
def Order.Later (order later : Order) : Prop :=
  later = { order with status := later.status, updatedAt := later.updatedAt }

theorem Order.Later.refl (order : Order) : order.Later order := rfl

theorem Order.Later.trans {x y z : Order} (h : x.Later y) (h' : y.Later z) : x.Later z := by
  unfold Order.Later at h h' ⊢
  rw [h', h]

theorem later_updatePending (order : Order) (id : Nat) (change : Change) :
    order.Later (order.updatePending id change) := by
  unfold Order.updatePending Order.Later
  split <;> rfl

/-- A key protects the row under it; an order's row and its lines go together. Orders are
never deleted. -/
def isolation : Isolation Lock Tables where
  Part _ := Bool × List Order × List OrderLine
  part k s := (s.taken k, s.ordersUnder k, s.linesUnder k)
  le s s' := ∀ order ∈ s.orders, ∃ later ∈ s'.orders, order.Later later
  le_refl s order h := ⟨order, h, .refl order⟩
  le_trans h h' order hin := by
    obtain ⟨x, hx, hox⟩ := h order hin
    obtain ⟨y, hy, hxy⟩ := h' x hx
    exact ⟨y, hy, hox.trans hxy⟩

section
variable {s s' b : Tables} {ks : List Lock}

theorem agree_taken {k : Lock} (ha : isolation.Agree ks s s') (hk : k ∈ ks) : s.taken k = s'.taken k :=
  congrArg Prod.fst (ha k hk)

theorem agree_orders {k : Lock} (ha : isolation.Agree ks s s') (hk : k ∈ ks) :
    s.ordersUnder k = s'.ordersUnder k := congrArg (fun p => p.2.1) (ha k hk)

theorem agree_lines {k : Lock} (ha : isolation.Agree ks s s') (hk : k ∈ ks) :
    s.linesUnder k = s'.linesUnder k := congrArg (fun p => p.2.2) (ha k hk)

theorem le_of_orders (h : s'.orders = s.orders) : isolation.le s s' :=
  fun order hin => ⟨order, h ▸ hin, .refl order⟩

theorem taken_iff {k : Lock} : s.taken k = true ↔ (∃ order ∈ s.orders, k ∈ order.keys) ∨
    (∃ recipient ∈ s.recipients, k = .recipient recipient.id) ∨ (∃ row ∈ s.outbox, k = .event row.id) ∨
    ∃ row ∈ s.workflowOutbox, k = .workflow row.workflowId := by
  simp [Tables.taken, or_assoc]

theorem mem_keys {order : Order} {k : Lock} : k ∈ order.keys ↔ k = .order order.id ∨
    k = .publicId order.publicId ∨ ∃ key, order.idempotencyKey = some key ∧ k = .idempotency order.userId key := by
  unfold Order.keys
  cases order.idempotencyKey <;> simp

theorem taken_order {id : Nat} : s.taken (.order id) = true ↔ ∃ order ∈ s.orders, id = order.id := by
  simp only [taken_iff, mem_keys, reduceCtorEq, and_false, exists_false, or_false,
    Lock.order.injEq]

theorem taken_publicId {publicId : String} :
    s.taken (.publicId publicId) = true ↔ ∃ order ∈ s.orders, publicId = order.publicId := by
  simp only [taken_iff, mem_keys, reduceCtorEq, false_or, and_false, exists_false, or_false,
    Lock.publicId.injEq]

theorem taken_idempotency {userId : Int} {key : String} : s.taken (.idempotency userId key) = true ↔
    ∃ order ∈ s.orders, order.userId = userId ∧ order.idempotencyKey = some key := by
  simp only [taken_iff, mem_keys, reduceCtorEq, false_or, and_false, exists_false, or_false,
    Lock.idempotency.injEq]
  refine exists_congr fun order => and_congr_right fun _ => ⟨?_, ?_⟩
  · rintro ⟨key', hkey, rfl, rfl⟩
    exact ⟨rfl, hkey⟩
  · rintro ⟨rfl, hkey⟩
    exact ⟨key, hkey, rfl, rfl⟩

theorem taken_recipient {id : Nat} :
    s.taken (.recipient id) = true ↔ ∃ recipient ∈ s.recipients, id = recipient.id := by
  simp only [taken_iff, mem_keys, reduceCtorEq, false_or, and_false, exists_false, or_false,
    Lock.recipient.injEq]

theorem taken_event {id : Nat} : s.taken (.event id) = true ↔ ∃ row ∈ s.outbox, id = row.id := by
  simp only [taken_iff, mem_keys, reduceCtorEq, false_or, and_false, exists_false, or_false,
    Lock.event.injEq]

theorem taken_workflow {workflowId : String} : s.taken (.workflow workflowId) = true ↔
    ∃ row ∈ s.workflowOutbox, workflowId = row.workflowId := by
  simp only [taken_iff, mem_keys, reduceCtorEq, false_or, and_false, exists_false, or_false,
    Lock.workflow.injEq]

theorem any_eq {α κ : Type} [DecidableEq κ] (rows : List α) (f : α → κ) (x : κ) :
    (rows.any fun row => decide (f row = x)) = true ↔ ∃ row ∈ rows, x = f row := by
  simp only [List.any_eq_true, decide_eq_true_eq]
  exact exists_congr fun row => and_congr_right fun _ => eq_comm

theorem any_recipient (id : Nat) : (s.recipients.any fun r => r.id = id) = s.taken (.recipient id) := by
  rw [Bool.eq_iff_iff, taken_recipient, any_eq]

theorem any_order (id : Nat) : (s.orders.any fun o => o.id = id) = s.taken (.order id) := by
  rw [Bool.eq_iff_iff, taken_order, any_eq]

theorem any_publicId (publicId : String) :
    (s.orders.any fun o => o.publicId = publicId) = s.taken (.publicId publicId) := by
  rw [Bool.eq_iff_iff, taken_publicId, any_eq]

theorem any_event (id : Nat) : (s.outbox.any fun r => r.id = id) = s.taken (.event id) := by
  rw [Bool.eq_iff_iff, taken_event, any_eq]

theorem any_workflow (workflowId : String) :
    (s.workflowOutbox.any fun r => r.workflowId = workflowId) = s.taken (.workflow workflowId) := by
  rw [Bool.eq_iff_iff, taken_workflow, any_eq]

/-- The check of `Order_userId_idempotencyKey_key`; nulls are distinct. -/
theorem any_idempotency (userId : Int) (idempotencyKey : Option String) :
    (s.orders.any fun o => idempotencyKey.isSome && decide (o.userId = userId) &&
      decide (o.idempotencyKey = idempotencyKey)) =
      idempotencyKey.any fun key => s.taken (.idempotency userId key) := by
  cases idempotencyKey with
  | none => simp
  | some key =>
    rw [Bool.eq_iff_iff, Option.any_some, taken_idempotency]
    simp

theorem taken_addRecipient (r : OrderRecipient) (k : Lock) :
    (s.addRecipient r).taken k = (decide (k = .recipient r.id) || s.taken k) := by
  rw [Bool.eq_iff_iff]
  simp only [taken_iff, Tables.addRecipient, Bool.or_eq_true, decide_eq_true_eq, List.mem_cons,
    exists_eq_or_imp, or_assoc, or_left_comm]

theorem taken_addOrder (order : Order) (k : Lock) :
    (s.addOrder order).taken k = (decide (k ∈ order.keys) || s.taken k) := by
  rw [Bool.eq_iff_iff]
  simp only [taken_iff, Tables.addOrder, Bool.or_eq_true, decide_eq_true_eq, List.mem_cons,
    exists_eq_or_imp, or_assoc, or_left_comm]

theorem taken_addLines (lines : List OrderLine) (k : Lock) : (s.addLines lines).taken k = s.taken k := rfl

theorem taken_addOutbox (row : OrderOutbox) (k : Lock) :
    (s.addOutbox row).taken k = (decide (k = .event row.id) || s.taken k) := by
  rw [Bool.eq_iff_iff]
  simp only [taken_iff, Tables.addOutbox, Bool.or_eq_true, decide_eq_true_eq, List.mem_cons,
    exists_eq_or_imp, or_assoc, or_left_comm]

theorem taken_addWorkflow (row : OrderWorkflowOutbox) (k : Lock) :
    (s.addWorkflow row).taken k = (decide (k = .workflow row.workflowId) || s.taken k) := by
  rw [Bool.eq_iff_iff]
  simp only [taken_iff, Tables.addWorkflow, Bool.or_eq_true, decide_eq_true_eq, List.mem_cons,
    exists_eq_or_imp, or_left_comm]

@[simp] theorem keys_updatePending (order : Order) (id : Nat) (change : Change) :
    (order.updatePending id change).keys = order.keys := by
  unfold Order.updatePending
  split <;> rfl

theorem taken_updatePending (id : Nat) (change : Change) (k : Lock) :
    (s.updatePending id change).taken k = s.taken k := by
  simp only [Tables.taken, Tables.updatePending, List.any_map, Function.comp_def, keys_updatePending]

theorem ordersUnder_addOrder (order : Order) (k : Lock) : (s.addOrder order).ordersUnder k =
    if k = .order order.id then order :: s.ordersUnder k else s.ordersUnder k := by
  unfold Tables.ordersUnder Tables.addOrder
  rw [List.filter_cons]
  simp only [decide_eq_true_eq]

theorem linesUnder_addLines (lines : List OrderLine) (k : Lock) : (s.addLines lines).linesUnder k =
    (lines.filter fun line => k = .order line.orderId) ++ s.linesUnder k := by
  unfold Tables.linesUnder Tables.addLines
  rw [List.filter_append]

theorem linesOf_eq (orderId : Nat) : s.linesOf orderId = s.linesUnder (.order orderId) := by
  unfold Tables.linesOf Tables.linesUnder
  refine List.filter_congr fun line _ => decide_eq_decide.mpr ?_
  simp [eq_comm]

end

section
variable (b : Tables)

theorem safe_createRecipient (recipient : OrderRecipient) :
    (OrderRecipientRepository.create recipient).Safe isolation b := by
  refine Prog.safe_insert (fun s => if !recipient.allowed then some .recipientCheck
      else if s.taken (.recipient recipient.id) then some .recipientKey else none)
    (fun s => s.addRecipient recipient) recipient
    (fun k p => (decide (k = .recipient recipient.id) || p.1, p.2)) (fun s => ?_) (fun s k => ?_)
    (fun k hk p => ?_) (fun s s' ha => ?_) (fun s => le_of_orders rfl) fun s s' h => h
  · rw [any_recipient]
    split
    · rfl
    · split <;> rfl
  · change (_, _, _) = _
    rw [taken_addRecipient]
    rfl
  · have hne : k ≠ .recipient recipient.id := by simpa using hk
    rw [decide_eq_false hne]
    rfl
  · rw [agree_taken ha (by simp)]

theorem safe_createOrder (order : Order) : (OrderRepository.create order).Safe isolation b := by
  refine Prog.safe_insert (fun s => if !isUint order.userId then some .uintDomain
      else if 10 ^ 12 ≤ toCents order.totalAmount ∨ 10 ^ 12 ≤ toCents order.discountAmount then
        some .numericOverflow
      else if s.taken (.order order.id) then some .orderKey
      else if s.taken (.publicId order.publicId) then some .publicIdKey
      else if order.idempotencyKey.any fun key => s.taken (.idempotency order.userId key) then
        some .idempotencyKey
      else none)
    (fun s => s.addOrder order) order
    (fun k p => (decide (k ∈ order.keys) || p.1, if k = .order order.id then order :: p.2.1 else p.2.1, p.2.2))
    (fun s => ?_) (fun s k => ?_) (fun k hk p => ?_) (fun s s' ha => ?_) (fun s => ?_) fun s s' h => ?_
  · rw [any_order, any_publicId, any_idempotency]
    split
    · rfl
    · split
      · rfl
      · split
        · rfl
        · split
          · rfl
          · split <;> rfl
  · change (_, _, _) = _
    rw [taken_addOrder, ordersUnder_addOrder]
    rfl
  · change k ∉ order.keys at hk
    have hne : k ≠ .order order.id := fun he => hk (mem_keys.mpr (Or.inl he))
    rw [decide_eq_false hk, if_neg hne]
    rfl
  · have hidem : (order.idempotencyKey.any fun key => s.taken (.idempotency order.userId key)) =
        order.idempotencyKey.any fun key => s'.taken (.idempotency order.userId key) := by
      cases hkey : order.idempotencyKey with
      | none => rfl
      | some key => exact agree_taken ha (by simp [hkey])
    rw [agree_taken ha (k := .order order.id) (by simp), hidem,
      agree_taken ha (k := .publicId order.publicId) (by simp)]
  · exact fun o ho => ⟨o, List.mem_cons_of_mem _ ho, .refl o⟩
  · intro o ho
    rcases List.mem_cons.mp ho with rfl | ho
    · exact ⟨o, List.mem_cons_self, .refl o⟩
    · obtain ⟨later, hin, hl⟩ := h o ho
      exact ⟨later, List.mem_cons_of_mem _ hin, hl⟩

theorem safe_createLines (orderId : Nat) (lines : List OrderLine)
    (hlines : ∀ line ∈ lines, line.orderId = orderId) :
    (OrderLineRepository.create orderId lines).Safe isolation b := by
  refine Prog.safe_insert (fun s =>
      if lines.any fun line => !isUint line.offerId || !isUint line.quantity then some .uintDomain
      else if ((lines ++ s.linesOf orderId).map fun line => (line.orderId, line.offerId)).Nodup then none
      else some .lineKey)
    (fun s => s.addLines lines) lines
    (fun k p => (p.1, p.2.1, (lines.filter fun line => k = .order line.orderId) ++ p.2.2))
    (fun s => ?_) (fun s k => ?_) (fun k hk p => ?_) (fun s s' ha => ?_) (fun s => le_of_orders rfl)
    fun s s' h => h
  · split
    · rfl
    · split <;> rfl
  · change (_, _, _) = _
    rw [linesUnder_addLines]
    rfl
  · have hne : k ≠ .order orderId := by simpa using hk
    have hnone : lines.filter (fun line => k = .order line.orderId) = [] := by
      refine List.filter_eq_nil_iff.mpr fun line hin => ?_
      rw [hlines line hin]
      simpa using hne
    rw [hnone]
    rfl
  · rw [linesOf_eq, linesOf_eq, agree_lines ha (by simp)]

theorem safe_createOutbox (row : OrderOutbox) : (OrderOutboxRepository.create row).Safe isolation b := by
  refine Prog.safe_insert (fun s => if s.taken (.event row.id) then some .eventKey else none)
    (fun s => s.addOutbox row) () (fun k p => (decide (k = .event row.id) || p.1, p.2)) (fun s => ?_)
    (fun s k => ?_) (fun k hk p => ?_) (fun s s' ha => ?_) (fun s => le_of_orders rfl) fun s s' h => h
  · rw [any_event]
    split <;> rfl
  · change (_, _, _) = _
    rw [taken_addOutbox]
    rfl
  · have hne : k ≠ .event row.id := by simpa using hk
    rw [decide_eq_false hne]
    rfl
  · rw [agree_taken ha (by simp)]

theorem safe_createWorkflow (row : OrderWorkflowOutbox) :
    (OrderWorkflowOutboxRepository.create row).Safe isolation b := by
  refine Prog.safe_insert (fun s => if s.taken (.workflow row.workflowId) then some .workflowKey else none)
    (fun s => s.addWorkflow row) () (fun k p => (decide (k = .workflow row.workflowId) || p.1, p.2))
    (fun s => ?_) (fun s k => ?_) (fun k hk p => ?_) (fun s s' ha => ?_) (fun s => le_of_orders rfl)
    fun s s' h => h
  · rw [any_workflow]
    split <;> rfl
  · change (_, _, _) = _
    rw [taken_addWorkflow]
    rfl
  · have hne : k ≠ .workflow row.workflowId := by simpa using hk
    rw [decide_eq_false hne]
    rfl
  · rw [agree_taken ha (by simp)]

theorem safe_lockIdempotencyKey (hash : String → Int) (userId : Int) (key : String) :
    (OrderRepository.lockIdempotencyKey hash userId key).Safe isolation b :=
  Prog.safe_exec (.of_id fun _ => rfl) fun _ _ _ _ _ => rfl

theorem safe_findByIds (ids : List Nat) : (SellerOfferService.findByIds ids).Safe isolation b := by
  unfold SellerOfferService.findByIds
  split
  · trivial
  · exact Prog.safe_look _ b

theorem safe_findByIdOrFail (id : Nat) : (OrderRepository.findByIdOrFail id).Safe isolation b := by
  refine Prog.safe_exec (.of_id fun s => ?_) fun s s' _ _ ha => ?_
  · split <;> rfl
  have hfind : ∀ u : Tables, (u.orders.find? fun order => order.id = id) = (u.ordersUnder (.order id)).head? := by
    intro u
    unfold Tables.ordersUnder
    rw [List.head?_filter]
    refine congrFun (congrArg List.find? (funext fun order => ?_)) _
    exact decide_eq_decide.mpr (by simp [eq_comm])
  rw [hfind, hfind, linesOf_eq, linesOf_eq, agree_orders ha (by simp), agree_lines ha (by simp)]
  cases (s'.ordersUnder (.order id)).head? <;> rfl

theorem ordersUnder_updatePending (s : Tables) (id : Nat) (change : Change) (k : Lock) :
    (s.updatePending id change).ordersUnder k =
      (s.ordersUnder k).map fun order => order.updatePending id change := by
  have hid : ∀ order : Order, (order.updatePending id change).id = order.id := by
    intro order
    rw [later_updatePending order id change]
  simp only [Tables.ordersUnder, Tables.updatePending, List.filter_map, Function.comp_def, hid]

theorem any_pending (s : Tables) (id : Nat) : (s.orders.any fun order => order.isPending id) =
    (s.ordersUnder (.order id)).any fun order => order.status = .pendingPayment := by
  rw [Bool.eq_iff_iff]
  simp only [List.any_eq_true, Tables.ordersUnder, List.mem_filter, Order.isPending, decide_eq_true_eq,
    Lock.order.injEq]
  constructor
  · rintro ⟨order, hin, hid, hpending⟩
    exact ⟨order, ⟨hin, hid.symm⟩, hpending⟩
  · rintro ⟨order, ⟨hin, hid⟩, hpending⟩
    exact ⟨order, hin, hid.symm, hpending⟩

theorem confined_updatePending (id : Nat) (change : Change) :
    Confined isolation b [.order id] fun s => s.updatePending id change where
  frame {s} _ k hk := by
    change (_, _, _) = (_, _, _)
    rw [taken_updatePending, ordersUnder_updatePending]
    have hsame : (s.ordersUnder k).map (fun order => order.updatePending id change) = s.ordersUnder k := by
      refine (List.map_congr_left fun order hin => ?_).trans (List.map_id _)
      have hkey : k = .order order.id := of_decide_eq_true (List.mem_filter.mp hin).2
      unfold Order.updatePending
      rw [if_neg]
      · rfl
      · rintro ⟨rfl, _⟩
        exact hk (by simp [hkey])
    rw [hsame]
    rfl
  inside {s s'} _ _ ha k hk := by
    change (_, _, _) = (_, _, _)
    rw [taken_updatePending, taken_updatePending, ordersUnder_updatePending, ordersUnder_updatePending,
      agree_taken ha hk, agree_orders ha hk]
    have hlines : s.linesUnder k = s'.linesUnder k := agree_lines ha hk
    change (_, _, s.linesUnder k) = (_, _, s'.linesUnder k)
    rw [hlines]
  grows {s} _ order hin := ⟨_, List.mem_map_of_mem hin, later_updatePending order id change⟩
  mono {s s'} _ hle ha := by
    intro x hx
    obtain ⟨order, hin, rfl⟩ := List.mem_map.mp hx
    by_cases hid : order.id = id
    · have hmem : order ∈ s'.ordersUnder (.order id) := by
        rw [← agree_orders ha (by simp)]
        exact List.mem_filter.mpr ⟨hin, by simp [hid]⟩
      exact ⟨_, List.mem_map_of_mem (List.mem_filter.mp hmem).1, .refl _⟩
    · obtain ⟨later, hin', hl⟩ := hle order hin
      have hsame : order.updatePending id change = order := by
        unfold Order.updatePending
        rw [if_neg fun h => hid h.1]
      rw [hsame]
      exact ⟨_, List.mem_map_of_mem hin', hl.trans (later_updatePending later id change)⟩

theorem safe_updatePending (id : Nat) (change : Change) :
    (OrderRepository.updatePendingStatusById id change).Safe isolation b := by
  refine (Prog.safe_look _ b).bind fun seen b' _ => ?_
  split
  · refine Prog.Safe.bind (Prog.safe_exec (confined_updatePending b' id change) ?_) fun updated b'' _ => ?_
    · intro s s' _ _ ha
      rw [any_pending, any_pending, agree_orders ha (by simp)]
      rfl
    · split
      · exact (safe_findByIdOrFail b'' id).bind fun _ _ _ => trivial
      · trivial
  · trivial

theorem safe_place (gen : Generated) (input : OrderCreateInput) (buyer : OrderBuyer) (key : Option String) :
    (OrderPlaceCommandHandler.place gen input buyer key).Safe isolation b := by
  refine (safe_findByIds b _).bind fun offers b₁ _ => ?_
  refine (safe_createRecipient b₁ _).bind fun recipient b₂ _ => ?_
  split
  · trivial
  · refine (safe_createOrder b₂ _).bind fun order b₃ _ => ?_
    refine (safe_createLines b₃ order.id _ fun line hin => ?_).bind fun _ b₄ _ => ?_
    · obtain ⟨priced, _, rfl⟩ := List.mem_map.mp hin
      rfl
    · refine (safe_createOutbox b₄ _).bind fun _ b₅ _ => ?_
      exact (safe_createWorkflow b₅ _).bind fun _ _ _ => trivial

theorem safe_createPending (hash : String → Int) (gen : Generated) (input : OrderCreateInput) (buyer : OrderBuyer)
    (key : Option String) : (OrderPlaceCommandHandler.createPending hash gen input buyer key).Safe isolation b := by
  cases key with
  | none => exact safe_place b gen input buyer none
  | some key =>
    refine (safe_lockIdempotencyKey b hash _ _).bind fun _ b₁ _ => ?_
    refine (Prog.safe_look _ b₁).bind fun found b₂ _ => ?_
    cases found with
    | some placed => trivial
    | none => exact safe_place b₂ gen input buyer (some key)

theorem safe_markPaid (drawn : Drawn) (orderId : Nat) :
    (OrderPlaceActivity.markPaid drawn orderId).Safe isolation b := by
  refine (safe_updatePending b orderId ⟨.paid, drawn.now⟩).bind fun paid b' _ => ?_
  cases paid with
  | none => trivial
  | some paid => exact safe_createOutbox b' _

theorem safe_markFailed (drawn : Drawn) (orderId : Nat) (failure : OrderFailure) :
    (OrderPlaceActivity.markFailed drawn orderId failure).Safe isolation b := by
  refine (safe_updatePending b orderId ⟨failure.status, drawn.now⟩).bind fun failed b' _ => ?_
  cases failed with
  | none => trivial
  | some failed => exact safe_createOutbox b' _

theorem safe_handler (hash : String → Int) (q : Request) : (handler hash q).Safe isolation b := by
  cases q with
  | place gen input buyer key => exact (safe_createPending b hash gen input buyer key).bind fun _ _ _ => trivial
  | markPaid drawn orderId => exact (safe_markPaid b drawn orderId).bind fun _ _ _ => trivial
  | markFailed drawn orderId failure =>
    exact (safe_markFailed b drawn orderId failure).bind fun _ _ _ => trivial

end

/-- Any placements and any attempts of the two activities, in any interleaving; the offers
may change at any time. -/
def orders (hash : String → Int) : System Lock Tables Failure Answer Request where
  isolation := isolation
  handler := handler hash
  allowed _ q := q.WellTyped
  env s s' := ∃ offers, s' = { s with offers }
  safe q b := safe_handler b hash q
  env_part h k := by
    obtain ⟨offers, rfl⟩ := h
    rfl
  env_le h := by
    obtain ⟨offers, rfl⟩ := h
    exact le_of_orders rfl

end MarketplaceApi.Placement
