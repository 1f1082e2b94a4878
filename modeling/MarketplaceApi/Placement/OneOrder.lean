import MarketplaceApi.Placement.Idempotency
import MarketplaceApi.Text.Digits

/-!
# One idempotency key, one order

However many requests of a buyer carry one key, at most one order with its rows is committed,
and every request that succeeds answers that order. That none fails on a unique constraint
needs the spellings of the key not to cross.
-/
namespace MarketplaceApi.Placement

open Money Text Txn Transition

def OrderEvent.isCreated : OrderEvent → Bool
  | .created .. => true
  | _ => false

/-- Orders are one to one with their recipients, `order.created` rows and workflow rows, every
line is of an order, and no buyer has two orders of one key. -/
structure Whole (s : Tables) : Prop where
  recipientIds : (s.recipients.map OrderRecipient.id).Nodup
  recipients : s.recipients.map OrderRecipient.id = s.orders.map Order.orderRecipientId
  lines : ∀ line ∈ s.lines, ∃ order ∈ s.orders, order.id = line.orderId
  lineKeys : (s.lines.map fun line => (line.orderId, line.offerId)).Nodup
  created : (s.outbox.filter fun row => row.payload.isCreated).map OrderOutbox.aggregateId = s.orders.map Order.publicId
  workflows : s.workflowOutbox.map OrderWorkflowOutbox.workflowId =
    s.orders.map fun order => "order-place-" ++ order.publicId
  keys : ∀ order ∈ s.orders, ∀ other ∈ s.orders, order.userId = other.userId →
    order.idempotencyKey.isSome → order.idempotencyKey = other.idempotencyKey → order = other

theorem whole_empty (offers : Nat → Option SellerOffer) : Whole (Tables.empty offers) where
  recipientIds := List.nodup_nil
  recipients := rfl
  lines _ h := nomatch h
  lineKeys := List.nodup_nil
  created := rfl
  workflows := rfl
  keys _ h := nomatch h

section
variable {s s' : Tables}

theorem whole_placed {gen : Generated} {buyer : OrderBuyer} {key : Option String} {order : Order}
    {recipient : OrderRecipient} {lines : List OrderLine} (h : Whole s)
    (hd : Drafted gen buyer key s order recipient lines) (eventId : Nat) (items : List OrderCreateItemInput) :
    Whole (s.placed order recipient lines eventId items) where
  recipientIds := by
    refine List.nodup_cons.mpr ⟨fun hin => ?_, h.recipientIds⟩
    obtain ⟨r, hr, he⟩ := List.mem_map.mp hin
    have htaken := taken_recipient.mpr ⟨r, hr, he.symm⟩
    rw [hd.recipientKey] at htaken
    cases htaken
  recipients := by
    change recipient.id :: s.recipients.map OrderRecipient.id = order.orderRecipientId :: s.orders.map _
    rw [h.recipients, hd.orderRecipientId]
  lines line hin := by
    rcases List.mem_append.mp hin with hnew | hold
    · exact ⟨order, List.mem_cons_self, (hd.lineOrder line hnew).symm⟩
    · obtain ⟨o, ho, he⟩ := h.lines line hold
      exact ⟨o, List.mem_cons_of_mem _ ho, he⟩
  lineKeys := by
    change ((lines ++ s.lines).map _).Nodup
    rw [List.map_append, List.nodup_append]
    refine ⟨List.Nodup.of_map Prod.snd (by rw [List.map_map]; exact hd.lineKey), h.lineKeys, fun p hp r hr he => ?_⟩
    subst he
    obtain ⟨line, hin, rfl⟩ := List.mem_map.mp hp
    obtain ⟨old, hold, he⟩ := List.mem_map.mp hr
    obtain ⟨o, ho, hid⟩ := h.lines old hold
    have hsame : order.id = o.id := by
      rw [hid, ← hd.lineOrder line hin]
      exact (congrArg Prod.fst he).symm
    have htaken := taken_order.mpr ⟨o, ho, hsame⟩
    rw [hd.keys _ (mem_keys.mpr (Or.inl rfl))] at htaken
    cases htaken
  created := by
    change order.publicId :: (s.outbox.filter _).map OrderOutbox.aggregateId = order.publicId :: s.orders.map _
    rw [h.created]
  workflows := by
    change _ :: s.workflowOutbox.map OrderWorkflowOutbox.workflowId = _ :: s.orders.map _
    rw [h.workflows]
    rfl
  keys o ho other hother huser hsome hkey := by
    have hnew : ∀ x ∈ s.orders, order.userId = x.userId → order.idempotencyKey.isSome →
        order.idempotencyKey ≠ x.idempotencyKey := by
      intro x hx huser hsome he
      obtain ⟨text, htext⟩ := Option.isSome_iff_exists.mp hsome
      have htaken := taken_idempotency.mpr ⟨x, hx, huser.symm, he.symm.trans htext⟩
      rw [hd.keys _ (mem_keys.mpr (Or.inr (Or.inr ⟨text, htext, rfl⟩)))] at htaken
      cases htaken
    rcases List.mem_cons.mp ho with rfl | hold
    · rcases List.mem_cons.mp hother with rfl | hold'
      · rfl
      · exact absurd hkey (hnew other hold' huser hsome)
    · rcases List.mem_cons.mp hother with rfl | hold'
      · exact absurd hkey.symm (hnew o hold huser.symm (hkey ▸ hsome))
      · exact h.keys o hold other hold' huser hsome hkey

/-- A change of status with an event that is not `order.created`. -/
theorem whole_moved (h : Whole s) (id : Nat) (change : Change) {row : OrderOutbox}
    (hrow : row.payload.isCreated = false) : Whole ((s.updatePending id change).addOutbox row) := by
  have hsame : ∀ {X : Type} (f : Order → X), (∀ o status updatedAt, f { o with status, updatedAt } = f o) →
      (s.updatePending id change).orders.map f = s.orders.map f := by
    intro X f hf
    rw [Tables.updatePending, List.map_map]
    refine List.map_congr_left fun o _ => ?_
    rw [Function.comp_apply, later_updatePending o id change, hf]
  refine ⟨h.recipientIds, h.recipients.trans (hsame _ fun _ _ _ => rfl).symm, fun line hin => ?_, h.lineKeys, ?_,
    h.workflows.trans (hsame _ fun _ _ _ => rfl).symm, fun o ho other hother huser hsome hkey => ?_⟩
  · obtain ⟨o, ho, he⟩ := h.lines line hin
    refine ⟨_, List.mem_map_of_mem ho, ?_⟩
    rw [later_updatePending o id change]
    exact he
  · change ((row :: s.outbox).filter _).map _ = _
    rw [List.filter_cons, hrow]
    exact h.created.trans (hsame _ fun _ _ _ => rfl).symm
  · obtain ⟨x, hx, rfl⟩ := List.mem_map.mp ho
    obtain ⟨y, hy, rfl⟩ := List.mem_map.mp hother
    rw [later_updatePending x id change, later_updatePending y id change] at huser hkey
    rw [later_updatePending x id change] at hsome
    rw [h.keys x hx y hy huser hsome hkey]

theorem whole_commit {q : Request} {answer : Answer} (h : Whole s) (hc : Commit q s s' answer) : Whole s' := by
  cases hc with
  | placed hd => exact whole_placed h hd _ _
  | found _ _ _ _ => exact h
  | paid _ _ _ => exact whole_moved h _ _ rfl
  | failed _ _ _ => exact whole_moved h _ _ rfl
  | settled => exact h

/-- An order answered to a request is the committed one of its buyer and key, whatever has
become of its status. -/
def Returned (s : Tables) (answers : List (Request × Except Failure Answer)) : Prop :=
  ∀ gen input buyer key order, (Request.place gen input buyer key, Except.ok (Answer.order order)) ∈ answers →
    ∃ placed ∈ s.orders, order.Later placed ∧ placed.userId = buyer.userId ∧
      placed.idempotencyKey = key.map uuidValue

theorem Returned.later {answers : List (Request × Except Failure Answer)} (h : Returned s answers)
    (hle : isolation.le s s') : Returned s' answers := by
  intro gen input buyer key order hin
  obtain ⟨placed, hp, hl, huser, hkey⟩ := h gen input buyer key order hin
  obtain ⟨later, hin', hlater⟩ := hle placed hp
  refine ⟨later, hin', hl.trans hlater, ?_, ?_⟩
  · rw [hlater]
    exact huser
  · rw [hlater]
    exact hkey

theorem returned_commit {q : Request} {answer : Answer} (hc : Commit q s s' answer) :
    Returned s' [(q, .ok answer)] := by
  intro gen input buyer key order hin
  obtain ⟨rfl, hanswer⟩ : Request.place gen input buyer key = q ∧ Answer.order order = answer := by
    simpa using hin
  cases hc with
  | placed hd =>
    cases hanswer
    exact ⟨order, List.mem_cons_self, .refl order, hd.userId, hd.idempotencyKey⟩
  | @found _ _ _ text _ o later hlater hl huser hkey =>
    cases hanswer
    refine ⟨later, hlater, hl, ?_, ?_⟩
    · rw [hl]
      exact huser
    · rw [hl]
      exact hkey
  | settled => cases hanswer

end

theorem colon_toString_int (n : Int) : ':' ∉ (toString n).toList := by
  have hdigits : ∀ k, ':' ∉ Nat.toDigits 10 k := fun k hk => absurd (isDigit_toDigits hk) (by decide)
  rw [toString_int]
  split
  · exact hdigits _
  · simp [hdigits]

/-- The buyer can be read off the text that is locked. -/
theorem lockText_user {u u' : Int} {key key' : String} (h : lockText u key = lockText u' key') : u = u' := by
  have htext := congrArg String.toList h
  simp only [lockText, String.toList_append, List.append_assoc] at htext
  have hrest := List.append_cancel_left htext
  have hread : ∀ (n : Int) (text : List Char),
      ((toString n).toList ++ (":".toList ++ text)).takeWhile (fun c => c != ':') = (toString n).toList := by
    intro n text
    rw [List.takeWhile_append_of_pos fun c hc => ?_]
    · change _ ++ List.takeWhile _ (':' :: text) = _
      simp
    · simp only [bne_iff_ne]
      rintro rfl
      exact colon_toString_int n hc
  have huser := congrArg (List.takeWhile fun c => c != ':') hrest
  rw [hread, hread] at huser
  exact toString_int_injective huser

/-- Requests of different buyers with different generated keys have no lock in common. -/
theorem footprints_disjoint {hash : String → Int} {q r : Request} {u u' : Int} (hq : u ∈ q.buyer) (hr : u' ∈ r.buyer)
    (hne : u ≠ u') (hgen : ∀ k ∈ q.generated, k ∉ r.generated)
    (hhash : q.HashedApart hash r) {k : Lock} (hk : q.Footprint hash k) : ¬ r.Footprint hash k := by
  cases q with
  | markPaid _ _ => cases hq
  | markFailed _ _ _ => cases hq
  | place gen input buyer key =>
    cases r with
    | markPaid _ _ => cases hr
    | markFailed _ _ _ => cases hr
    | place gen' input' buyer' key' =>
      obtain rfl : buyer.userId = u := by simpa [Request.buyer] using hq
      obtain rfl : buyer'.userId = u' := by simpa [Request.buyer] using hr
      have howner : ∀ {gen input buyer key}, ∀ p ∈ (Request.place gen input buyer key).key, p.1 = buyer.userId := by
        intro gen input buyer key p hp
        obtain ⟨text, _, rfl⟩ := Option.map_eq_some_iff.mp hp
        rfl
      rcases hk with hk | ⟨p, hp, hk⟩ | ⟨_, hm, _⟩
      · rintro (hk' | ⟨p, hp, rfl | rfl⟩ | ⟨_, hm, _⟩)
        · exact hgen k hk hk'
        · simp [Request.generated, advisoryLock] at hk
        · exact Request.idempotency_not_generated _ hk
        · cases hm
      · rintro (hk' | ⟨p', hp', hk'⟩ | ⟨_, hm, _⟩)
        · rcases hk with rfl | rfl
          · simp [Request.generated, advisoryLock] at hk'
          · exact Request.idempotency_not_generated _ hk'
        · refine hne ?_
          rw [← howner p hp, ← howner p' hp']
          rcases hk with rfl | rfl
          · rcases hk' with he | he
            · exact lockText_user (hhash p hp p' hp' (Lock.advisory.inj he))
            · simp [advisoryLock] at he
          · rcases hk' with he | he
            · simp [advisoryLock] at he
            · exact (Lock.idempotency.inj he).1
        · cases hm
      · cases hm

/-- What holds for the keys of all buyers at once. -/
structure OrderPerKey (c : Config Lock Tables Failure Answer Request) : Prop where
  whole : Whole c.db
  returned : Returned c.db c.answers
  unviolated : ∀ q e, (q, Except.error e) ∈ c.answers → ¬ Failure.IsUnique e
  unblocked : ∀ i j t u x y, c.txs i = some t → c.txs j = some u → x ∈ t.request.buyer → y ∈ u.request.buyer →
    x ≠ y → ∀ ks w next, t.rest = .stmt ks w next → ∀ k ∈ ks, k ∉ u.locks

theorem order_per_key {offers : Nat → Option SellerOffer} {c : Config Lock Tables Failure Answer Request}
    {tr : List (Config Lock Tables Failure Answer Request × Txn.Event Request)}
    {hash : String → Int} (hr : Run (Step (orders hash)) (Config.start (Tables.empty offers)) tr c)
    (hfresh : Always FreshIds tr) (hone : Always (OneSpelling hash) tr) (hhash : Always (Uncollided hash) tr) :
    OrderPerKey c where
  whole := by
    refine run_serial_invariant (J := fun s _ => Whole s) (whole_empty offers) ?_ ?_ ?_ hr
    · exact fun h _ _ he => whole_commit h (commit_of_exec he)
    · exact fun h _ _ _ => h
    · rintro s _ _ h ⟨offers, rfl⟩
      exact ⟨h.recipientIds, h.recipients, h.lines, h.lineKeys, h.created, h.workflows, h.keys⟩
  returned := by
    refine run_serial_invariant (J := Returned) (by intro _ _ _ _ _ h; cases h) ?_ ?_ ?_ hr
    · intro q b u u' as answer h hq hb he gen input buyer key order hin
      rcases List.mem_cons.mp hin with hnew | hold
      · exact returned_commit (commit_of_exec he) gen input buyer key order (hnew ▸ List.mem_singleton_self _)
      · exact h.later (he.grows (safe_handler b hash q) hb) gen input buyer key order hold
    · intro q b u m as e h _ _ _ gen input buyer key order hin
      rcases List.mem_cons.mp hin with hnew | hold
      · cases hnew
      · exact h gen input buyer key order hold
    · rintro s _ _ h ⟨offers, rfl⟩
      exact h
  unviolated q e hin := by
    have hboth : Always (fun c ev => FreshIds c ev ∧ OneSpelling hash c ev) tr :=
      fun p hp => ⟨hfresh p hp, hone p hp⟩
    refine answers_run (Y := orders hash) (G := rely hash) (fun {c i q} hm => ?_)
      (fun {tr c i c' j u} hr hm hc hs hne hj => ?_) hr hboth hin
    · exact wp_handler (fun k hk => (hm.1 k hk).1) hm.2
    · exact spares_commit hr (fun p hp => (hm p hp).1) hc.2 hs hne hj
  unblocked i j t u x y hi hj hx hy hne ks w next hrest := by
    have hij : i ≠ j := by
      rintro rfl
      cases hi.symm.trans hj
      exact hne (Option.mem_unique hx hy)
    exact never_waits uses_handler hr hi hj
      (fun k hk => footprints_disjoint hx hy hne (generated_disjoint hr hfresh hij hi hj)
        (hashed_apart hr hhash hij hi hj) hk) hrest

/-- One `uuid` in two spellings. -/
def upperKey : String := "9B2D4C1E-8A37-4F5D-B6E0-2C71F3A9D845"

def lowerKey : String := "9b2d4c1e-8a37-4f5d-b6e0-2c71f3a9d845"

def upperRequest : Request := .place sampleGenerated oneItem sampleBuyer (some upperKey)

def lowerRequest : Request :=
  .place ⟨2, 2, "7c9e6679-7425-40de-944b-e07fc1f90ae7", 2, 1_600⟩ oneItem sampleBuyer (some lowerKey)

def sampleShop : Tables := Tables.empty (oneOffer ⟨150, samplePrice_lt⟩).offers

/-- What is left of the upper case request once it has found no order. -/
def upperRest : Program Answer :=
  (OrderPlaceCommandHandler.place sampleGenerated oneItem sampleBuyer (some upperKey)).bind
    fun order => .ret (.order order)

theorem upper_after_lower : ∃ s answer, (handler plainHash lowerRequest).run sampleShop = .ok (s, answer) ∧
    upperRest.run s = .error .idempotencyKey ∧
      ∃ found, (handler plainHash upperRequest).run s = .ok (s, .order found) := by
  have hlower : uuidValue lowerKey = lowerKey := by decide +kernel
  have hupper : uuidValue upperKey = lowerKey := by decide +kernel
  simp only [handler, lowerRequest, upperRequest, upperRest, OrderPlaceCommandHandler.createPending,
    OrderRepository.findByIdempotencyKey, OrderPlaceCommandHandler.place, OrderPlaceCommandHandler.createOrder,
    Option.map_some, hlower, hupper]
  exact ⟨_, _, rfl, rfl, _, rfl⟩

theorem plainHash_apart : plainHash (lockText 7 lowerKey) ≠ plainHash (lockText 7 upperKey) := by decide +kernel

theorem lower_avoids_upper {k : Lock} (hk : lowerRequest.Footprint plainHash k) :
    k ∉ [advisoryLock plainHash 7 upperKey] := by
  rw [List.mem_singleton]
  rintro rfl
  rcases hk with hgen | ⟨p, hp, he | he⟩ | ⟨_, hm, _⟩
  · simp [lowerRequest, Request.generated, advisoryLock] at hgen
  · cases hp
    exact plainHash_apart (Lock.advisory.inj he).symm
  · simp [advisoryLock] at he
  · cases hm

theorem generated_distinct : ∀ k ∈ lowerRequest.generated, k ∉ upperRequest.generated := by decide

/-- The upper case request has looked when the lower case one runs to its commit. -/
theorem crossing_spellings : ∃ tr c, Run (Step (orders plainHash)) (Config.start sampleShop) tr c ∧
    Always (fun c ev => FreshIds c ev ∧ Uncollided plainHash c ev) tr ∧
    (upperRequest, .error .idempotencyKey) ∈ c.answers := by
  obtain ⟨s, answer, hlower, hupper, _⟩ := upper_after_lower
  have hvacant : ∀ k, sampleShop.Vacant k := fun _ => ⟨rfl, rfl⟩
  have hbegin : ∀ c : Config Lock Tables Failure Answer Request, c.db = sampleShop →
      (∀ j u, c.txs j = some u → u.request = upperRequest) →
      ∀ i, FreshIds c (.begin i lowerRequest) ∧ Uncollided plainHash c (.begin i lowerRequest) := by
    intro c hdb hq i
    constructor
    · exact fun k hk => ⟨hdb ▸ hvacant k, fun j u hu => hq j u hu ▸ generated_distinct k hk⟩
    · intro j u hu x hx y hy he
      rw [hq j u hu] at hy
      cases hx
      cases hy
      exact absurd he plainHash_apart
  obtain ⟨tr, c, hr, hm, ha⟩ := cross (Y := orders plainHash)
    (fun c ev => FreshIds c ev ∧ Uncollided plainHash c ev) upperRequest lowerRequest trivial trivial rfl rfl
    ((uses_handler lowerRequest).mono fun k hk => lower_avoids_upper hk) hlower
    ⟨freshIds_alone fun k _ => hvacant k, uncollided_alone⟩ (fun c hdb hq => hbegin c hdb hq _)
    fun c i => ⟨⟨trivial, trivial⟩, ⟨trivial, trivial⟩, trivial, trivial⟩
  refine ⟨tr, c, hr, hm, ?_⟩
  rw [ha]
  change (upperRequest, _) ∈ [(upperRequest, (upperRest.run s).map Prod.snd), _]
  rw [hupper]
  exact List.mem_cons_self

theorem order_per_key_refuted : ¬ ∀ offers tr c,
    Run (Step (orders plainHash)) (Config.start (Tables.empty offers)) tr c → Always FreshIds tr →
    Always (Uncollided plainHash) tr → OrderPerKey c := by
  intro hclaim
  obtain ⟨tr, c, hr, hm, ha⟩ := crossing_spellings
  exact (hclaim _ tr c hr (fun p hp => (hm p hp).1) fun p hp => (hm p hp).2).unviolated _ _ ha (by decide)

/-- The two spellings one after the other. -/
theorem order_per_key_found : ∃ tr c found, Run (Step (orders plainHash)) (Config.start sampleShop) tr c ∧
    (upperRequest, .ok (.order found)) ∈ c.answers ∧ OrderPerKey c := by
  obtain ⟨s, answer, hlower, _, found, hupper⟩ := upper_after_lower
  have hcommit :=
    commit_of_exec (Exec.of_run (isolation.le_refl sampleShop) (safe_handler _ plainHash lowerRequest) hlower)
  have hvacant : ∀ k ∈ upperRequest.generated, s.Vacant k := by
    intro k hk
    refine vacant_commit hcommit ⟨rfl, rfl⟩ (fun hin => generated_distinct k hin hk) fun p _ he => ?_
    exact Request.idempotency_not_generated _ (he ▸ hk)
  have halone : ∀ c : Config Lock Tables Failure Answer Request, (∀ j, j ≠ 0 → c.txs j = none) →
      OneSpelling plainHash c (.commit 0) := by
    intro c hnone t p _ _ _ j u _ hj hu
    rw [hnone j hj] at hu
    cases hu
  have hlone : ∀ q s as, (∀ k ∈ q.generated, s.Vacant k) →
      (∀ gen input buyer key, q = .place gen input buyer key → (input.items.map OrderCreateItemInput.offerId).Nodup) →
      FreshIds ⟨s, fun _ => none, as⟩ (.begin 0 q) ∧ OneSpelling plainHash ⟨s, fun _ => none, as⟩ (.begin 0 q) ∧
        Uncollided plainHash ⟨s, fun _ => none, as⟩ (.begin 0 q) :=
    fun q s as hv hitems => ⟨freshIds_alone hv, hitems, uncollided_alone⟩
  have hend : ∀ c : Config Lock Tables Failure Answer Request, (∀ j, j ≠ 0 → c.txs j = none) →
      (FreshIds c (.commit 0) ∧ OneSpelling plainHash c (.commit 0) ∧ Uncollided plainHash c (.commit 0)) ∧
        FreshIds c (.rollback 0) ∧ OneSpelling plainHash c (.rollback 0) ∧ Uncollided plainHash c (.rollback 0) :=
    fun c hnone => ⟨⟨trivial, halone c hnone, trivial⟩, trivial, trivial, trivial⟩
  have hitems : (oneItem.items.map OrderCreateItemInput.offerId).Nodup := by decide
  obtain ⟨tr₁, hr₁, hm₁⟩ := process_always (Y := orders plainHash)
    (fun c ev => FreshIds c ev ∧ OneSpelling plainHash c ev ∧ Uncollided plainHash c ev) lowerRequest sampleShop []
    trivial hlower (hlone lowerRequest _ _ (fun k _ => ⟨rfl, rfl⟩) fun _ _ _ _ h => by
      cases h
      exact hitems) (fun _ => ⟨trivial, trivial, trivial⟩) hend
  obtain ⟨tr₂, hr₂, hm₂⟩ := process_always (Y := orders plainHash)
    (fun c ev => FreshIds c ev ∧ OneSpelling plainHash c ev ∧ Uncollided plainHash c ev) upperRequest s _
    trivial hupper (hlone upperRequest _ _ hvacant fun _ _ _ _ h => by
      cases h
      exact hitems) (fun _ => ⟨trivial, trivial, trivial⟩) hend
  have hm := always_append.mpr ⟨hm₁, hm₂⟩
  exact ⟨_, _, found, hr₁.append hr₂, List.mem_cons_self, order_per_key (hr₁.append hr₂) (fun p hp => (hm p hp).1)
    (fun p hp => (hm p hp).2.1) fun p hp => (hm p hp).2.2⟩

end MarketplaceApi.Placement
