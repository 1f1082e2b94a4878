import MarketplaceApi.Placement.Status
import MarketplaceApi.Txn.Rely

/-!
# What a placement relies on

Three layers compare a key: the advisory lock a hash of its spelling, the lookup and the unique
constraint its `uuid` value. A request that holds the lock and found nothing relies on no
other request placing the order, which only requests of the same spelling respect.
-/
namespace MarketplaceApi.Placement

open Money Txn Transition

/-- The violations of a primary key or a unique constraint. -/
def Failure.IsUnique (e : Failure) : Prop :=
  e ∈ [.recipientKey, .orderKey, .publicIdKey, .idempotencyKey, .lineKey, .eventKey, .workflowKey]

instance (e : Failure) : Decidable e.IsUnique :=
  inferInstanceAs (Decidable (e ∈ [_, _, _, _, _, _, _]))

/-- The text that is locked. -/
def lockText (userId : Int) (key : String) : String := "order:" ++ toString userId ++ ":" ++ key

def advisoryLock (hash : String → Int) (userId : Int) (key : String) : Lock := .advisory (hash (lockText userId key))

namespace Request

/-- The keys the database and `randomUUID` make up for a request. -/
def generated : Request → List Lock
  | .place gen _ _ _ => [.recipient gen.recipientId, .order gen.orderId, .publicId gen.publicId,
      .event gen.eventId, .workflow ("order-place-" ++ gen.publicId)]
  | .markPaid drawn _ => [.event drawn.eventId]
  | .markFailed drawn _ _ => [.event drawn.eventId]

/-- The buyer and the header of a request that has one. -/
def key : Request → Option (Int × String)
  | .place _ _ buyer key => key.map fun key => (buyer.userId, key)
  | _ => none

def buyer : Request → Option Int
  | .place _ _ buyer _ => some buyer.userId
  | _ => none

def marks : Request → Option Nat
  | .place _ _ _ _ => none
  | .markPaid _ orderId => some orderId
  | .markFailed _ orderId _ => some orderId

theorem idempotency_not_generated (q : Request) {userId : Int} {text : String} :
    Lock.idempotency userId text ∉ q.generated := by
  cases q <;> simp [generated]

/-- Every lock a request can take. -/
def Footprint (q : Request) (hash : String → Int) (k : Lock) : Prop :=
  k ∈ q.generated ∨ (∃ p ∈ q.key, k = advisoryLock hash p.1 p.2 ∨ k = .idempotency p.1 (uuidValue p.2)) ∨
    ∃ orderId ∈ q.marks, k = .order orderId

end Request

section
variable {F : Lock → Prop} {hash : String → Int}

theorem uses_place {gen : Generated} {input : OrderCreateInput} {buyer : OrderBuyer} {key : Option String}
    (h : ∀ k ∈ (Request.place gen input buyer key).generated, F k)
    (hkey : ∀ text, key = some text → F (.idempotency buyer.userId (uuidValue text))) :
    (OrderPlaceCommandHandler.place gen input buyer key).Uses F := by
  have hoffers : (SellerOfferService.findByIds (input.items.map OrderCreateItemInput.offerId)).Uses F := by
    unfold SellerOfferService.findByIds
    split
    · trivial
    · exact Prog.uses_look _
  refine hoffers.bind fun offers => ?_
  refine Prog.uses_exec_bind (fun k hk => h k (by simp_all [Request.generated])) fun s m recipient _ => ?_
  split
  · trivial
  · refine Prog.uses_exec_bind (fun k hk => ?_) fun s m order hcreated => ?_
    · rcases List.mem_cons.mp hk with rfl | hk
      · exact h _ (by simp [Request.generated])
      · rcases List.mem_cons.mp hk with rfl | hk
        · exact h _ (by simp [Request.generated])
        · cases key with
          | none => cases hk
          | some text =>
            obtain rfl := List.mem_singleton.mp hk
            exact hkey text rfl
    · have hid : order.id = gen.orderId ∧ order.publicId = gen.publicId := by
        repeat' split at hcreated
        all_goals cases hcreated
        exact ⟨rfl, rfl⟩
      refine Prog.uses_exec_bind (fun k hk => h k ?_) fun _ _ _ _ => ?_
      · obtain rfl := List.mem_singleton.mp hk
        simp [Request.generated, hid.1]
      · refine Prog.uses_exec_bind (fun k hk => h k ?_) fun _ _ _ _ => ?_
        · obtain rfl := List.mem_singleton.mp hk
          simp [Request.generated, OrderPlaceMessageService.toOrderCreatedOutbox]
        · refine Prog.uses_exec_bind (fun k hk => h k ?_) fun _ _ _ _ => trivial
          obtain rfl := List.mem_singleton.mp hk
          simp [Request.generated, OrderPlaceMessageService.toOrderPlaceWorkflowOutbox, hid.2]

theorem uses_updatePending {id : Nat} {change : Change} (h : F (.order id)) :
    (OrderRepository.updatePendingStatusById id change).Uses F := by
  have hk : ∀ k ∈ [Lock.order id], F k := fun k hk => List.mem_singleton.mp hk ▸ h
  refine (Prog.uses_look _).bind fun seen => ?_
  split
  · refine Prog.Uses.bind (Prog.uses_exec hk) fun updated => ?_
    split
    · exact Prog.Uses.bind (Prog.uses_exec hk) fun _ => trivial
    · trivial
  · trivial

theorem uses_handler (q : Request) : (handler hash q).Uses (q.Footprint hash) := by
  have hgen : ∀ k ∈ q.generated, q.Footprint hash k := fun k hk => Or.inl hk
  cases q with
  | place gen input buyer key =>
    refine Prog.Uses.bind ?_ fun _ => trivial
    cases key with
    | none => exact uses_place hgen nofun
    | some key =>
      have hkey : ∀ k, k = advisoryLock hash buyer.userId key ∨ k = .idempotency buyer.userId (uuidValue key) →
          (Request.place gen input buyer (some key)).Footprint hash k :=
        fun k hk => Or.inr (Or.inl ⟨(buyer.userId, key), rfl, hk⟩)
      refine Prog.uses_exec_bind (fun k hk => hkey k (Or.inl (List.mem_singleton.mp hk))) fun _ _ _ _ => ?_
      refine (Prog.uses_look _).bind fun found => ?_
      cases found with
      | some placed => trivial
      | none =>
        refine uses_place hgen fun text ht => hkey _ (Or.inr ?_)
        cases ht
        rfl
  | markPaid drawn orderId =>
    have hmark : (OrderRepository.updatePendingStatusById orderId ⟨.paid, drawn.now⟩).Uses
        ((Request.markPaid drawn orderId).Footprint hash) :=
      uses_updatePending (Or.inr (Or.inr ⟨orderId, rfl, rfl⟩))
    refine Prog.Uses.bind (hmark.bind fun paid => ?_) fun _ => trivial
    cases paid with
    | none => trivial
    | some paid => exact Prog.uses_exec fun k hk => hgen k hk
  | markFailed drawn orderId failure =>
    have hmark : (OrderRepository.updatePendingStatusById orderId ⟨failure.status, drawn.now⟩).Uses
        ((Request.markFailed drawn orderId failure).Footprint hash) :=
      uses_updatePending (Or.inr (Or.inr ⟨orderId, rfl, rfl⟩))
    refine Prog.Uses.bind (hmark.bind fun failed => ?_) fun _ => trivial
    cases failed with
    | none => trivial
    | some failed => exact Prog.uses_exec fun k hk => hgen k hk

end

/-- No row exists under the key, nor lines of such an order. -/
def Tables.Vacant (s : Tables) (k : Lock) : Prop := s.taken k = false ∧ s.linesUnder k = []

/-- The keys a request relies on nobody else taking: its generated ones, and that of its
header once it holds the advisory lock. -/
def Request.Guards (q : Request) (hash : String → Int) (ks : List Lock) (k : Lock) : Prop :=
  k ∈ q.generated ∨ ∃ p ∈ q.key, advisoryLock hash p.1 p.2 ∈ ks ∧ k = .idempotency p.1 (uuidValue p.2)

def rely (hash : String → Int) (q : Request) : Rely isolation where
  vacant _ := fun (p : Bool × List Order × List OrderLine) => p.1 = false ∧ p.2.2 = []
  guarded := q.Guards hash

/-- The keys still to be inserted are vacant and will stay so. -/
def Ready (hash : String → Int) (q : Request) (ks : List Lock) (keys : List Lock) (v : Tables) : Prop :=
  ∀ k ∈ keys, q.Guards hash ks k ∧ v.Vacant k

section
variable {hash : String → Int} {q : Request} {ks own keys : List Lock} {v v' : Tables}

theorem Request.Guards.more {k : Lock} (h : q.Guards hash ks k) (ks' : List Lock) :
    q.Guards hash (ks ++ ks') k := by
  rcases h with hgen | ⟨p, hp, hlock, rfl⟩
  · exact Or.inl hgen
  · exact Or.inr ⟨p, hp, List.mem_append_left _ hlock, rfl⟩

theorem Ready.keeps (h : Ready hash q ks keys v) (hv : (rely hash q).Keeps ks v v') : Ready hash q ks keys v' :=
  fun k hk => ⟨(h k hk).1, hv.2 k (h k hk).1 (h k hk).2⟩

/-- An insert of rows under `own`, all vacant, succeeds or fails by a check that is not about
uniqueness; the other keys stay vacant. -/
theorem wp_insert {R : Type} {locks : List Lock} {f : Tables → Except Failure (Tables × R)} (add : Tables → Tables)
    (r : R) (h : Ready hash q ks (own ++ keys) v)
    (herror : ∀ s e, (∀ k ∈ own, s.Vacant k) → f s = .error e → ¬ e.IsUnique)
    (hok : ∀ s m r', f s = .ok (m, r') → m = add s ∧ r' = r)
    (hadd : ∀ s k, k ∈ keys → s.Vacant k → (add s).Vacant k) :
    (Prog.exec locks f).Wp Failure.IsUnique (rely hash q) ks v fun ks' v' r' => r' = r ∧ ks' = ks ++ locks ∧
      Ready hash q ks' keys v' ∧ ∃ s, (∀ k ∈ own, s.Vacant k) ∧ isolation.Agree ks' (add s) v' := by
  refine Prog.wp_exec (fun s e hs he => ?_) fun s m r' v'' hs hf hv'' => ?_
  · exact herror s e (fun k hk => (h.keeps hs k (List.mem_append_left _ hk)).2) he
  · have hready := h.keeps hs
    obtain ⟨rfl, rfl⟩ := hok s m r' hf
    have hkeys : Ready hash q (ks ++ locks) keys (add s) := fun k hk =>
      ⟨(hready k (List.mem_append_right _ hk)).1.more locks, hadd s k hk (hready k (List.mem_append_right _ hk)).2⟩
    exact ⟨rfl, rfl, hkeys.keeps hv'', s, fun k hk => (hready k (List.mem_append_left _ hk)).2, hv''.1⟩

/-- A key a statement does not insert is as vacant after it as before. -/
theorem Tables.Vacant.of_taken {k : Lock} (h : v.Vacant k) (htaken : v'.taken k = v.taken k)
    (hlines : v'.linesUnder k = v.linesUnder k) : v'.Vacant k := ⟨htaken.trans h.1, hlines.trans h.2⟩

theorem wp_createRecipient {recipient : OrderRecipient} (h : Ready hash q ks ([.recipient recipient.id] ++ keys) v)
    (hkeys : .recipient recipient.id ∉ keys) :
    (OrderRecipientRepository.create recipient).Wp Failure.IsUnique (rely hash q) ks v
      fun ks' v' r => r = recipient ∧ ks' = ks ++ [.recipient recipient.id] ∧ Ready hash q ks' keys v' := by
  refine (wp_insert (fun s => s.addRecipient recipient) recipient h ?_ ?_ ?_).mono
    fun _ _ _ hp => ⟨hp.1, hp.2.1, hp.2.2.1⟩
  · intro s e hfree he
    rw [any_recipient, (hfree _ (List.mem_singleton_self _)).1] at he
    split at he
    · cases he
      decide
    · cases he
  · intro s m r' hf
    split at hf
    · cases hf
    · split at hf
      · cases hf
      · cases hf
        exact ⟨rfl, rfl⟩
  · intro s k hk hs
    refine hs.of_taken ?_ rfl
    have hne : k ≠ .recipient recipient.id := fun he => hkeys (he ▸ hk)
    rw [taken_addRecipient, decide_eq_false hne, Bool.false_or]

theorem wp_createOrder {order : Order} (h : Ready hash q ks (order.keys ++ keys) v)
    (hkeys : ∀ k ∈ keys, k ∉ order.keys) :
    (OrderRepository.create order).Wp Failure.IsUnique (rely hash q) ks v
      fun ks' v' r => r = order ∧ ks' = ks ++ order.keys ∧ Ready hash q ks' keys v' ∧
        v'.linesUnder (.order order.id) = [] := by
  have hid : Lock.order order.id ∈ order.keys := mem_keys.mpr (Or.inl rfl)
  refine (wp_insert (fun s => s.addOrder order) order h ?_ ?_ ?_).mono ?_
  · intro s e hfree he
    have hpublic := (hfree _ (mem_keys.mpr (Or.inr (Or.inl rfl)))).1
    have hidem : (order.idempotencyKey.any fun key => s.taken (.idempotency order.userId key)) = false := by
      cases hkey : order.idempotencyKey with
      | none => rfl
      | some key => exact (hfree _ (mem_keys.mpr (Or.inr (Or.inr ⟨key, hkey, rfl⟩)))).1
    rw [any_order, any_publicId, any_idempotency, (hfree _ hid).1, hpublic, hidem] at he
    split at he
    · cases he
      decide
    · split at he
      · cases he
        decide
      · cases he
  · intro s m r' hf
    repeat' split at hf
    all_goals cases hf
    exact ⟨rfl, rfl⟩
  · intro s k hk hs
    refine hs.of_taken ?_ rfl
    rw [taken_addOrder, decide_eq_false (hkeys k hk), Bool.false_or]
  · rintro ks' v' r ⟨hr, rfl, hready, s, hfree, hagree⟩
    refine ⟨hr, rfl, hready, ?_⟩
    rw [← agree_lines hagree (List.mem_append_right _ hid)]
    exact (hfree _ hid).2

theorem wp_createLines {orderId : Nat} {lines : List OrderLine} (h : Ready hash q ks keys v)
    (hlock : .order orderId ∈ ks) (hempty : v.linesUnder (.order orderId) = []) (hkeys : .order orderId ∉ keys)
    (hlines : (lines.map OrderLine.offerId).Nodup) (hid : ∀ line ∈ lines, line.orderId = orderId) :
    (OrderLineRepository.create orderId lines).Wp Failure.IsUnique (rely hash q) ks v
      fun ks' v' _ => ks' = ks ++ [.order orderId] ∧ Ready hash q ks' keys v' := by
  have hnodup : (lines.map fun line => (line.orderId, line.offerId)).Nodup := by
    refine List.Nodup.of_map Prod.snd ?_
    rwa [List.map_map]
  refine Prog.wp_exec (fun s e hs he => ?_) fun s m r v'' hs hf hv'' => ?_
  · have hnone : s.linesOf orderId = [] := by
      rw [linesOf_eq, ← agree_lines hs.1 hlock]
      exact hempty
    rw [hnone, List.append_nil, if_pos hnodup] at he
    split at he
    · cases he
      decide
    · cases he
  · obtain rfl : m = s.addLines lines := by
      split at hf
      · cases hf
      · split at hf
        · cases hf
          rfl
        · cases hf
    refine ⟨rfl, Ready.keeps (fun k hk => ?_) hv''⟩
    obtain ⟨hguard, hvacant⟩ := h.keeps hs k hk
    refine ⟨hguard.more _, hvacant.of_taken rfl ?_⟩
    rw [linesUnder_addLines, List.filter_eq_nil_iff.mpr, List.nil_append]
    intro line hin
    rw [hid line hin]
    simp only [decide_eq_true_eq]
    exact fun he => hkeys (he ▸ hk)

theorem wp_createOutbox {row : OrderOutbox} (h : Ready hash q ks ([.event row.id] ++ keys) v)
    (hkeys : .event row.id ∉ keys) : (OrderOutboxRepository.create row).Wp Failure.IsUnique (rely hash q) ks v
      fun ks' v' _ => Ready hash q ks' keys v' := by
  refine (wp_insert (fun s => s.addOutbox row) () h ?_ ?_ ?_).mono fun _ _ _ hp => hp.2.2.1
  · intro s e hfree he
    rw [any_event, (hfree _ (List.mem_singleton_self _)).1] at he
    cases he
  · intro s m r' hf
    split at hf
    · cases hf
    · cases hf
      exact ⟨rfl, rfl⟩
  · intro s k hk hs
    refine hs.of_taken ?_ rfl
    have hne : k ≠ .event row.id := fun he => hkeys (he ▸ hk)
    rw [taken_addOutbox, decide_eq_false hne, Bool.false_or]

theorem wp_createWorkflow {row : OrderWorkflowOutbox} (h : Ready hash q ks ([.workflow row.workflowId] ++ []) v) :
    (OrderWorkflowOutboxRepository.create row).Wp Failure.IsUnique (rely hash q) ks v fun _ _ _ => True := by
  refine (wp_insert (fun s => s.addWorkflow row) () h ?_ ?_ nofun).mono
    fun _ _ _ _ => trivial
  · intro s e hfree he
    rw [any_workflow, (hfree _ (List.mem_singleton_self _)).1] at he
    cases he
  · intro s m r' hf
    split at hf
    · cases hf
    · cases hf
      exact ⟨rfl, rfl⟩

theorem error_of_mapM {E X Y : Type} {f : X → Except E Y} {xs : List X} {e : E} (h : xs.mapM f = .error e) :
    ∃ x ∈ xs, f x = .error e := by
  induction xs with
  | nil => cases h
  | cons x xs ih =>
    rw [List.mapM_cons] at h
    cases hx : f x with
    | error e' =>
      rw [hx] at h
      cases h
      exact ⟨x, List.mem_cons_self, hx⟩
    | ok y =>
      cases hxs : xs.mapM f with
      | error e' =>
        rw [hx, hxs] at h
        cases h
        obtain ⟨x', hin, he⟩ := ih hxs
        exact ⟨x', List.mem_cons_of_mem _ hin, he⟩
      | ok rest =>
        rw [hx, hxs] at h
        cases h

theorem priceItem_not_unique {offers : List (Nat × SellerOffer)} {item : OrderCreateItemInput} {e : Failure}
    (h : OrderPlaceCommandHandler.toPriceItemOrFail offers item = .error e) : ¬ e.IsUnique := by
  unfold OrderPlaceCommandHandler.toPriceItemOrFail at h
  split at h
  · cases h
    simp [Failure.IsUnique]
  · cases h

theorem offerIds_of_mapM {offers : List (Nat × SellerOffer)} {items : List OrderCreateItemInput}
    {priced : List PricedOrderLine}
    (h : items.mapM (OrderPlaceCommandHandler.toPriceItemOrFail offers) = .ok priced) :
    priced.map PricedOrderLine.offerId = items.map OrderCreateItemInput.offerId := by
  have hall : List.Forall₂ (fun item p => PricedOrderLine.offerId p = item.offerId) items priced := by
    refine forall₂_of_mapM (fun item p hp => ?_) h
    unfold OrderPlaceCommandHandler.toPriceItemOrFail at hp
    split at hp
    · cases hp
    · cases hp
      rfl
  clear h
  induction hall with
  | nil => rfl
  | cons hp _ ih => rw [List.map_cons, List.map_cons, hp, ih]

theorem wp_findByIds {ids : List Nat} (h : Ready hash q ks keys v) :
    (SellerOfferService.findByIds ids).Wp Failure.IsUnique (rely hash q) ks v
      fun ks' v' _ => ks' = ks ∧ Ready hash q ks keys v' := by
  unfold SellerOfferService.findByIds
  split
  · change ¬ Failure.IsUnique _
    decide
  · exact Prog.wp_look fun v' v'' hv hv' => ⟨rfl, (h.keeps hv).keeps hv'⟩

/-- The keys of the row of a new order. -/
def orderKeys (gen : Generated) (buyer : OrderBuyer) (key : Option String) : List Lock :=
  .order gen.orderId :: .publicId gen.publicId ::
    ((key.map uuidValue).map (Lock.idempotency buyer.userId)).toList

theorem mem_orderKeys {gen : Generated} {buyer : OrderBuyer} {key : Option String} {k : Lock} :
    k ∈ orderKeys gen buyer key ↔ k = .order gen.orderId ∨ k = .publicId gen.publicId ∨
      ∃ text, key = some text ∧ k = .idempotency buyer.userId (uuidValue text) := by
  unfold orderKeys
  cases key <;> simp

theorem wp_place {gen : Generated} {input : OrderCreateInput} {buyer : OrderBuyer} {key : Option String}
    (h : Ready hash q ks ([.recipient gen.recipientId] ++ (orderKeys gen buyer key ++
      ([.event gen.eventId] ++ ([.workflow ("order-place-" ++ gen.publicId)] ++ [])))) v)
    (hitems : (input.items.map OrderCreateItemInput.offerId).Nodup) :
    (OrderPlaceCommandHandler.place gen input buyer key).Wp Failure.IsUnique (rely hash q) ks v fun _ _ _ => True := by
  refine ((wp_findByIds h).mono ?_).bind
  rintro _ v₁ offers ⟨rfl, h₁⟩
  have hfresh : Lock.recipient gen.recipientId ∉ orderKeys gen buyer key ++
      ([.event gen.eventId] ++ ([.workflow ("order-place-" ++ gen.publicId)] ++ [])) := by
    simp [mem_orderKeys]
  refine ((wp_createRecipient h₁ hfresh).mono ?_).bind
  rintro _ v₂ recipient ⟨rfl, rfl, h₂⟩
  split
  · rename_i e hmap
    obtain ⟨item, _, he⟩ := error_of_mapM hmap
    exact priceItem_not_unique he
  · rename_i priced hmap
    refine Prog.Wp.bind ?_
    refine (wp_createOrder h₂ ?_).mono ?_
    · intro k hk hin
      rcases mem_keys.mp hin with rfl | rfl | ⟨_, _, rfl⟩ <;> simp at hk
    · rintro _ v₃ order ⟨rfl, rfl, h₃, hempty⟩
      refine Prog.Wp.bind ?_
      refine (wp_createLines h₃ (List.mem_append_right _ (mem_keys.mpr (Or.inl rfl))) hempty (by simp) ?_ ?_).mono ?_
      · rw [List.map_map]
        change (priced.map PricedOrderLine.offerId).Nodup
        rwa [offerIds_of_mapM hmap]
      · intro line hin
        obtain ⟨p, _, rfl⟩ := List.mem_map.mp hin
        rfl
      · rintro _ v₄ _ ⟨rfl, h₄⟩
        refine Prog.Wp.bind ?_
        refine (wp_createOutbox h₄ (by simp)).mono fun _ v₅ _ h₅ => ?_
        exact Prog.Wp.bind ((wp_createWorkflow h₅).mono fun _ _ _ _ _ _ => trivial)

theorem Tables.vacant_idempotency {userId : Int} {text : String}
    (h : (v.orders.find? fun order => order.userId = userId ∧ order.idempotencyKey = some text) = none) :
    v.Vacant (.idempotency userId text) := by
  constructor
  · rw [← Bool.not_eq_true, taken_idempotency]
    rintro ⟨order, hin, huser, hkey⟩
    have hno := List.find?_eq_none.mp h order hin
    simp [huser, hkey] at hno
  · exact List.filter_eq_nil_iff.mpr fun line _ => by simp

/-- A request that holds the advisory lock and found no order places one, or fails by a check. -/
theorem wp_createPending {gen : Generated} {input : OrderCreateInput} {buyer : OrderBuyer} {key : Option String}
    (h : Ready hash (.place gen input buyer key) [] (Request.place gen input buyer key).generated v)
    (hitems : (input.items.map OrderCreateItemInput.offerId).Nodup) :
    (OrderPlaceCommandHandler.createPending hash gen input buyer key).Wp Failure.IsUnique
      (rely hash (.place gen input buyer key)) [] v fun _ _ _ => True := by
  cases key with
  | none =>
    refine wp_place (fun k hk => h k ?_) hitems
    simp only [List.mem_append, mem_orderKeys, List.mem_singleton, reduceCtorEq, false_and, exists_false,
      List.not_mem_nil, or_false] at hk
    simpa [Request.generated, or_assoc] using hk
  | some text =>
    refine Prog.Wp.bind ?_
    refine Prog.wp_exec (fun _ _ _ he => nomatch he) fun v₁ m _ v₂ hv₁ hf hv₂ => ?_
    cases hf
    refine Prog.Wp.bind ?_
    refine Prog.wp_look fun v₃ v₄ hv₃ hv₄ => ?_
    cases hfound : v₃.orders.find? fun order =>
        order.userId = buyer.userId ∧ order.idempotencyKey = some (uuidValue text) with
    | some placed => exact fun _ _ => trivial
    | none =>
      have hguard : (Request.place gen input buyer (some text)).Guards hash [advisoryLock hash buyer.userId text]
          (.idempotency buyer.userId (uuidValue text)) :=
        Or.inr ⟨(buyer.userId, text), rfl, List.mem_singleton_self _, rfl⟩
      have hidem := hv₄.2 _ hguard (Tables.vacant_idempotency hfound)
      refine wp_place (fun k hk => ?_) hitems
      have hgen : ∀ k ∈ (Request.place gen input buyer (some text)).generated,
          (Request.place gen input buyer (some text)).Guards hash [advisoryLock hash buyer.userId text] k ∧
            v₄.Vacant k := by
        intro k hk
        have hready := h.keeps hv₁
        have hlocked : Ready hash (.place gen input buyer (some text)) [advisoryLock hash buyer.userId text]
            (Request.place gen input buyer (some text)).generated v₁ :=
          fun k hk => ⟨(hready k hk).1.more [advisoryLock hash buyer.userId text], (hready k hk).2⟩
        exact ((hlocked.keeps hv₂).keeps (hv₃.trans hv₄)) k hk
      simp only [List.mem_append, mem_orderKeys, List.mem_singleton, List.not_mem_nil, or_false] at hk
      rcases hk with rfl | (rfl | rfl | ⟨_, ht, rfl⟩) | rfl | rfl
      · exact hgen _ (by simp [Request.generated])
      · exact hgen _ (by simp [Request.generated])
      · exact hgen _ (by simp [Request.generated])
      · cases ht
        exact ⟨hguard, hidem⟩
      · exact hgen _ (by simp [Request.generated])
      · exact hgen _ (by simp [Request.generated])

theorem wp_updatePending {id : Nat} {change : Change} (h : Ready hash q ks keys v) :
    (OrderRepository.updatePendingStatusById id change).Wp Failure.IsUnique (rely hash q) ks v
      fun ks' v' _ => Ready hash q ks' keys v' := by
  refine Prog.Wp.bind (Prog.wp_look fun v₁ v₂ hv₁ hv₂ => ?_)
  have h₂ := (h.keeps hv₁).keeps hv₂
  split
  · refine Prog.Wp.bind (Prog.wp_exec (fun _ _ _ he => nomatch he) fun v₃ m _ v₄ hv₃ hf hv₄ => ?_)
    cases hf
    have h₄ : Ready hash q (ks ++ [.order id]) keys v₄ := by
      refine Ready.keeps (fun k hk => ?_) hv₄
      obtain ⟨hguard, hvacant⟩ := h₂.keeps hv₃ k hk
      exact ⟨hguard.more _, hvacant.of_taken (taken_updatePending _ _ _) rfl⟩
    split
    · refine Prog.Wp.bind (Prog.wp_exec (fun s e _ he => ?_) fun v₅ m _ v₆ hv₅ hf hv₆ => fun v₇ hv₇ => ?_)
      · split at he
        · cases he
        · cases he
          decide
      · split at hf
        · cases hf
          refine Ready.keeps (Ready.keeps (fun k hk => ?_) hv₆) hv₇
          obtain ⟨hguard, hvacant⟩ := h₄.keeps hv₅ k hk
          exact ⟨hguard.more _, hvacant⟩
        · cases hf
    · exact fun v₅ hv₅ => h₄.keeps hv₅
  · exact fun v₃ hv₃ => h₂.keeps hv₃

/-- A request whose generated keys are vacant and whose body names each offer once. -/
theorem wp_handler (h : ∀ k ∈ q.generated, v.Vacant k)
    (hitems : ∀ gen input buyer key, q = .place gen input buyer key →
      (input.items.map OrderCreateItemInput.offerId).Nodup) :
    (handler hash q).Wp Failure.IsUnique (rely hash q) [] v fun _ _ _ => True := by
  have hready : Ready hash q [] (q.generated ++ []) v := by
    rw [List.append_nil]
    exact fun k hk => ⟨Or.inl hk, h k hk⟩
  cases q with
  | place gen input buyer key =>
    rw [List.append_nil] at hready
    exact Prog.Wp.bind ((wp_createPending hready (hitems _ _ _ _ rfl)).mono fun _ _ _ _ _ _ => trivial)
  | markPaid drawn orderId =>
    refine Prog.Wp.bind (Prog.Wp.bind ((wp_updatePending hready).mono fun ks' v' paid hp => ?_))
    cases paid with
    | none => exact fun _ _ _ _ => trivial
    | some paid => exact (wp_createOutbox hp List.not_mem_nil).mono fun _ _ _ _ _ _ => trivial
  | markFailed drawn orderId failure =>
    refine Prog.Wp.bind (Prog.Wp.bind ((wp_updatePending hready).mono fun ks' v' failed hp => ?_))
    cases failed with
    | none => exact fun _ _ _ _ => trivial
    | some failed => exact (wp_createOutbox hp List.not_mem_nil).mono fun _ _ _ _ _ _ => trivial

end

/-- A buyer's requests under one `uuid`, spelled differently, do not cross: when the first
order of the key is committed, no open request holds the lock of another spelling. -/
def OneSpelling (hash : String → Int) (c : Config Lock Tables Failure Answer Request) : Txn.Event Request → Prop
  | .begin _ q => ∀ gen input buyer key, q = .place gen input buyer key →
      (input.items.map OrderCreateItemInput.offerId).Nodup
  | .commit i => ∀ t p, c.txs i = some t → p ∈ t.request.key →
      c.db.taken (.idempotency p.1 (uuidValue p.2)) = false → ∀ j u text, j ≠ i → c.txs j = some u →
      (p.1, text) ∈ u.request.key → uuidValue text = uuidValue p.2 → advisoryLock hash p.1 text ∈ u.locks → text = p.2
  | _ => True

/-- Texts that two requests lock have one hash only if they are the same. -/
def Request.HashedApart (hash : String → Int) (q r : Request) : Prop :=
  ∀ x ∈ q.key, ∀ y ∈ r.key, hash (lockText x.1 x.2) = hash (lockText y.1 y.2) → lockText x.1 x.2 = lockText y.1 y.2

/-- While two requests are open, their texts do not collide. -/
def Uncollided (hash : String → Int) (c : Config Lock Tables Failure Answer Request) : Txn.Event Request → Prop
  | .begin _ q => ∀ j u, c.txs j = some u → q.HashedApart hash u.request
  | _ => True

/-- Identity columns and random ids give every request keys that nothing committed and no
other open request has. -/
def FreshIds (c : Config Lock Tables Failure Answer Request) : Txn.Event Request → Prop
  | .begin _ q => ∀ k ∈ q.generated, c.db.Vacant k ∧ ∀ j u, c.txs j = some u → k ∉ u.request.generated
  | _ => True

section
variable {hash : String → Int} {c c' : Config Lock Tables Failure Answer Request} {s : Tables}
  {tr : List (Config Lock Tables Failure Answer Request × Txn.Event Request)}

theorem freshIds_alone {i : Nat} {q : Request} {as : List (Request × Except Failure Answer)}
    (h : ∀ k ∈ q.generated, s.Vacant k) : FreshIds ⟨s, fun _ => none, as⟩ (.begin i q) :=
  fun k hk => ⟨h k hk, fun _ _ hu => nomatch hu⟩

theorem uncollided_alone {i : Nat} {q : Request} {as : List (Request × Except Failure Answer)} :
    Uncollided hash ⟨s, fun _ => none, as⟩ (.begin i q) :=
  fun _ _ hu => nomatch hu

/-- No two open requests have generated the same key. -/
theorem generated_disjoint (hr : Run (Step (orders hash)) (Config.start s) tr c) (hf : Always FreshIds tr) {i j : Nat}
    {t u : Tx Lock Tables Failure Answer Request} (hne : i ≠ j) (hi : c.txs i = some t) (hj : c.txs j = some u) :
    ∀ k ∈ t.request.generated, k ∉ u.request.generated := by
  refine open_pairs (G := fun q r => ∀ k ∈ q.generated, k ∉ r.generated) (fun _ _ h k hk hk' => h k hk' hk) hr
    (fun p hp i q he j u hu k hk => ?_) hne hi hj
  have hfresh := hf p hp
  rw [he] at hfresh
  exact (hfresh k hk).2 j u hu

/-- No two open requests have texts that collide. -/
theorem hashed_apart (hr : Run (Step (orders hash)) (Config.start s) tr c)
    (hhash : Always (Uncollided hash) tr) {i j : Nat} {t u : Tx Lock Tables Failure Answer Request} (hne : i ≠ j)
    (hi : c.txs i = some t) (hj : c.txs j = some u) : t.request.HashedApart hash u.request := by
  refine open_pairs (G := Request.HashedApart hash) ?_ hr (fun p hp i q he j u hu => ?_) hne hi hj
  · intro q r h x hx y hy he
    exact (h y hy x hx he.symm).symm
  · have hbegin := hhash p hp
    rw [he] at hbegin
    exact hbegin j u hu

/-- A request with a header that has run to its end holds the advisory lock. -/
theorem holds_advisory (hc : Coherent (orders hash) c) {i : Nat} {t : Tx Lock Tables Failure Answer Request}
    {answer : Answer} (hi : c.txs i = some t) (hrest : t.rest = .ret answer) {p : Int × String}
    (hp : p ∈ t.request.key) : advisoryLock hash p.1 p.2 ∈ t.locks := by
  obtain ⟨b, _, _, hprogress⟩ := hc.progress i t hi
  rw [hrest] at hprogress
  cases hq : t.request with
  | place gen input buyer key =>
    rw [hq] at hp hprogress
    cases key with
    | none => cases hp
    | some key =>
      cases hp
      change Progress isolation b (Prog.stmt [advisoryLock hash buyer.userId key] _ _) _ _ _ _ at hprogress
      exact hprogress.head_locks _ (List.mem_singleton_self _)
  | markPaid _ _ =>
    rw [hq] at hp
    cases hp
  | markFailed _ _ _ =>
    rw [hq] at hp
    cases hp

/-- A commit takes the generated keys of its request and the key of its header, no others. -/
theorem vacant_commit {q : Request} {s' : Tables} {answer : Answer} (h : Commit q s s' answer) {k : Lock}
    (hv : s.Vacant k) (hgen : k ∉ q.generated) (hkey : ∀ p ∈ q.key, k ≠ .idempotency p.1 (uuidValue p.2)) :
    s'.Vacant k := by
  have hmoved : ∀ (id : Nat) (change : Change) (row : OrderOutbox), k ≠ .event row.id →
      ((s.updatePending id change).addOutbox row).Vacant k := by
    intro id change row hne
    refine hv.of_taken ?_ rfl
    rw [taken_addOutbox, taken_updatePending, decide_eq_false hne, Bool.false_or]
  cases h with
  | @placed gen input buyer key _ order recipient lines hd =>
    simp only [Request.generated, List.mem_cons, List.not_mem_nil, or_false, not_or] at hgen
    have hrecipient : k ≠ .recipient recipient.id := hd.recipientId ▸ hgen.1
    have horder : k ∉ order.keys := by
      intro hin
      rcases mem_keys.mp hin with rfl | rfl | ⟨text, htext, rfl⟩
      · exact hgen.2.1 (by rw [hd.id])
      · exact hgen.2.2.1 (by rw [hd.publicId])
      · rw [hd.idempotencyKey] at htext
        obtain ⟨spelled, rfl, rfl⟩ := Option.map_eq_some_iff.mp htext
        exact hkey (buyer.userId, spelled) rfl (by rw [hd.userId])
    have hevent : k ≠ .event (OrderPlaceMessageService.toOrderCreatedOutbox gen.eventId order).id := hgen.2.2.2.1
    have hworkflow :
        k ≠ .workflow (OrderPlaceMessageService.toOrderPlaceWorkflowOutbox order input.items).workflowId := by
      change k ≠ .workflow ("order-place-" ++ order.publicId)
      rw [hd.publicId]
      exact hgen.2.2.2.2
    refine hv.of_taken ?_ ?_
    · refine (taken_addWorkflow _ k).trans ?_
      rw [decide_eq_false hworkflow, Bool.false_or, taken_addOutbox, decide_eq_false hevent, Bool.false_or,
        taken_addLines, taken_addOrder, decide_eq_false horder, Bool.false_or, taken_addRecipient,
        decide_eq_false hrecipient, Bool.false_or]
    · refine (linesUnder_addLines lines k).trans ?_
      rw [List.filter_eq_nil_iff.mpr, List.nil_append]
      · rfl
      · intro line hin
        rw [hd.lineOrder line hin, hd.id]
        simpa using hgen.2.1
  | found _ _ _ _ => exact hv
  | paid _ _ _ => exact hmoved _ _ _ fun he => hgen (he ▸ List.mem_singleton_self _)
  | failed _ _ _ => exact hmoved _ _ _ fun he => hgen (he ▸ List.mem_singleton_self _)
  | settled => exact hv

/-- A commit spares what the other open requests rely on. -/
theorem spares_commit {i j : Nat} {u : Tx Lock Tables Failure Answer Request}
    (hr : Run (Step (orders hash)) (Config.start s) tr c) (hf : Always FreshIds tr)
    (hone : OneSpelling hash c (.commit i)) (hstep : Step (orders hash) c (.commit i) c') (hne : j ≠ i)
    (hj : c.txs j = some u) : (rely hash u.request).Spares u.locks c.db c'.db := by
  have hc := coherent_run hr
  cases hstep with
  | @commit i t answer hi hrest =>
    obtain ⟨b, _, _, hprogress⟩ := hc.progress i t hi
    rw [hrest] at hprogress
    have hcommit := commit_of_exec hprogress.exec
    intro k hguard hv
    refine vacant_commit hcommit hv (fun hgen => ?_) fun p hp he => ?_
    · rcases hguard with hown | ⟨p, hp, _, rfl⟩
      · exact generated_disjoint hr hf hne.symm hi hj k hgen hown
      · exact t.request.idempotency_not_generated hgen
    · subst he
      rcases hguard with hown | ⟨r, hr', hlock, he⟩
      · exact u.request.idempotency_not_generated hown
      · obtain ⟨huser, hvalue⟩ := by simpa only [Lock.idempotency.injEq] using he
        have hown : (p.1, r.2) ∈ u.request.key := huser ▸ hr'
        have hheld : advisoryLock hash p.1 r.2 ∈ u.locks := huser ▸ hlock
        have htext := hone t p hi hp hv.1 j u r.2 hne hj hown hvalue.symm hheld
        exact hc.exclusive i j t u hi hj hne.symm _ (holds_advisory hc hi hrest hp) (htext ▸ hheld)

end

end MarketplaceApi.Placement
