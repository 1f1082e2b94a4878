import MarketplaceApi.Outbox.Services

/-!
# The order of events

A batch is sent in order and ends at its first failure. Two events of one aggregate change
places only if a relay claims the later one while the earlier one, still unpublished, is not in
its own claim.
-/
namespace MarketplaceApi.Outbox

open Transition OutboxRepository

variable {I P T K : Type}

/-- An element of a list that grew at its end is the new one or an old one. -/
theorem split_concat {X : Type} {xs before after : List X} {x y : X} (h : xs ++ [x] = before ++ y :: after) :
    (xs = before ∧ x = y) ∨ ∃ rest, xs = before ++ y :: rest := by
  rcases List.eq_nil_or_concat after with rfl | ⟨rest, z, rfl⟩
  · obtain ⟨hxs, hx⟩ := List.append_inj' h rfl
    exact Or.inl ⟨hxs, List.singleton_inj.mp hx⟩
  · rw [List.concat_eq_append, ← List.cons_append, ← List.append_assoc] at h
    exact Or.inr ⟨rest, (List.append_inj' h rfl).1⟩

/-- The first row was committed before the second was created, both of one aggregate. -/
def Precedes (key : P → K) (first second : Row I P) : Prop :=
  key first.columns = key second.columns ∧ first.committedAt < second.createdAt

/-- No relay claims a row while an earlier one of its aggregate is unpublished, was never
accepted and is not in its claim. -/
def Unskipped (key : P → K) (w : World I P T) : Event I P → Prop
  | .lock i row => ∀ r, w.relays i = some r → ∀ earlier ∈ w.rows, Precedes key earlier row →
      earlier.publishedAt = none → ¬ w.Sent earlier.id → ∃ claimed ∈ r.stage.claimed, claimed.id = earlier.id
  | _ => True

/-- Everything written before the row was accepted or is in `others`. -/
def World.Covered (w : World I P T) (key : P → K) (row : Row I P) (others : List (Row I P)) : Prop :=
  ∀ first ∈ w.written, Precedes key first row → w.Sent first.id ∨ ∃ other ∈ others, other.id = first.id

/-- Accepted in order so far, and whatever is claimed or in flight keeps the order. -/
structure Ordered (key : P → K) (w : World I P T) : Prop where
  past : ∀ first ∈ w.written, first.createdAt ≤ w.now ∧ first.committedAt ≤ w.now
  accepted : ∀ before row after, w.accepted = before ++ row :: after →
    w.Known row ∧ ∀ first ∈ w.written, Precedes key first row → ∃ a ∈ before, a.id = first.id
  claims : ∀ i r, w.relays i = some r → ∀ before row after, r.stage.claimed = before ++ row :: after →
    w.Known row ∧ w.Covered key row before
  inflight : ∀ row ∈ w.inflight, w.Known row ∧ w.Covered key row []

theorem ordered_start (key : P → K) (sink : T) : Ordered key (World.start sink : World I P T) where
  past _ h := nomatch h
  accepted before row after h := by simp [World.start] at h
  claims _ _ h := nomatch h
  inflight _ h := nomatch h

section
variable {key : P → K} {w w' : World I P T} {i : Nat} {r : Relay I P}

theorem Ordered.set (h : Ordered key w) (hclaims : ∀ before row after, r.stage.claimed = before ++ row :: after →
    w.Known row ∧ w.Covered key row before) : Ordered key (w.set i (some r)) where
  past := h.past
  accepted := h.accepted
  claims j r' hj := by
    rcases World.of_set hj with ⟨rfl, he⟩ | ⟨_, hj⟩
    · cases he
      exact hclaims
    · exact h.claims j r' hj
  inflight := h.inflight

theorem Ordered.move (h : Ordered key w) (hi : w.relays i = some r) {stage : Stage I P}
    (hclaimed : stage.claimed = r.stage.claimed) : Ordered key (w.set i (some (r.at stage))) :=
  h.set fun before row after he => h.claims i r hi before row after (hclaimed ▸ he)

theorem Ordered.unset (h : Ordered key w) (i : Nat) : Ordered key (w.set i none) where
  past := h.past
  accepted := h.accepted
  claims j r' hj := by
    rcases World.of_set hj with ⟨_, he⟩ | ⟨_, hj⟩
    · cases he
    · exact h.claims j r' hj
  inflight := h.inflight

/-- A row whose predecessors were all accepted is accepted. -/
theorem Ordered.accept (h : Ordered key w) (V : Service I P T) {row : Row I P} (hknown : w.Known row)
    (hcovered : w.Covered key row []) : Ordered key (w.accept V row) where
  past := h.past
  accepted before other after he := by
    rcases split_concat he with ⟨rfl, rfl⟩ | ⟨rest, hold⟩
    · refine ⟨hknown, fun first hf hp => (hcovered first hf hp).resolve_right fun hno => ?_⟩
      obtain ⟨_, hin, _⟩ := hno
      exact nomatch hin
    · exact h.accepted before other rest hold
  claims j r hj before other after he := by
    obtain ⟨hc, hcov⟩ := h.claims j r hj before other after he
    exact ⟨hc, fun first hf hp => (hcov first hf hp).imp_left fun hs => hs.accept V row⟩
  inflight other ho := by
    obtain ⟨hc, hcov⟩ := h.inflight other ho
    exact ⟨hc, fun first hf hp => (hcov first hf hp).imp_left fun hs => hs.accept V row⟩

/-- A row that is in front of a claim whose rows so far were accepted. -/
theorem Ordered.next (h : Ordered key w) (hk : Kept w) (hi : w.relays i = some r) {sent rest : List (Row I P)}
    {row : Row I P} (hstage : r.stage = .sending sent (row :: rest)) : w.Known row ∧ w.Covered key row [] := by
  have hclaimed : r.stage.claimed = sent ++ row :: rest := by
    rw [hstage]
    rfl
  obtain ⟨hc, hcov⟩ := h.claims i r hi sent row rest hclaimed
  refine ⟨hc, fun first hf hp => Or.inl ?_⟩
  rcases hcov first hf hp with hs | ⟨other, hother, he⟩
  · exact hs
  · have hsent := hk.sent i r hi other
    rw [hstage] at hsent
    exact he ▸ hsent hother

theorem Ordered.known (h : Ordered key w) {row : Row I P} (hrow : row ∈ w.accepted) : w.Known row := by
  obtain ⟨before, after, he⟩ := List.append_of_mem hrow
  exact (h.accepted before row after he).1

/-- A row that was known before comes before whatever is written now. -/
theorem Ordered.not_precedes (h : Ordered key w) {row new : Row I P} (hknown : w.Known row)
    (hcommitted : new.committedAt = w.now) : ¬ Precedes key new row := by
  obtain ⟨first, hfirst, hsame⟩ := hknown
  intro hp
  have hearly : row.createdAt ≤ w.now := by
    rw [hsame]
    exact (h.past first hfirst).1
  have hlate := hp.2
  omega

theorem ordered_write (h : Ordered key w) {row : Row I P} (hcreated : row.createdAt ≤ w.now)
    (hcommitted : row.committedAt = w.now) :
    Ordered key { w with rows := row :: w.rows, written := row :: w.written } := by
  have hknown : ∀ {other}, w.Known other →
      World.Known { w with rows := row :: w.rows, written := row :: w.written } other := fun hk =>
    hk.imp fun first hf => ⟨List.mem_cons_of_mem _ hf.1, hf.2⟩
  have hcovered : ∀ {other others}, w.Known other → w.Covered key other others →
      World.Covered { w with rows := row :: w.rows, written := row :: w.written } key other others := by
    intro other others hk hcov first hf hp
    rcases List.mem_cons.mp hf with rfl | hf
    · exact absurd hp (h.not_precedes hk hcommitted)
    · exact hcov first hf hp
  refine ⟨fun first hf => ?_, fun before other after he => ?_, fun i r hi before other after he => ?_,
    fun other ho => ?_⟩
  · rcases List.mem_cons.mp hf with rfl | hf
    · exact ⟨hcreated, Nat.le_of_eq hcommitted⟩
    · exact h.past first hf
  · obtain ⟨hk, hall⟩ := h.accepted before other after he
    refine ⟨hknown hk, fun first hf hp => ?_⟩
    rcases List.mem_cons.mp hf with rfl | hf
    · exact absurd hp (h.not_precedes hk hcommitted)
    · exact hall first hf hp
  · obtain ⟨hk, hcov⟩ := h.claims i r hi before other after he
    exact ⟨hknown hk, hcovered hk hcov⟩
  · obtain ⟨hk, hcov⟩ := h.inflight other ho
    exact ⟨hknown hk, hcovered hk hcov⟩

theorem ordered_tick (h : Ordered key w) {t : Nat} (ht : w.now ≤ t) : Ordered key { w with now := t } where
  past first hf := ⟨(h.past first hf).1.trans ht, (h.past first hf).2.trans ht⟩
  accepted := h.accepted
  claims := h.claims
  inflight := h.inflight

end

section
variable [LinearOrder I] {V : Service I P T} {key : P → K} {w w' : World I P T} {i : Nat}

theorem ordered_step (h : Ordered key w) (hk : Kept w) {ev : Event I P} (hm : Unskipped key w ev)
    (hs : Step V w ev w') : Ordered key w' := by
  cases hs with
  | write hcreated hcommitted _ _ => exact ordered_write h hcreated hcommitted
  | tick ht => exact ordered_tick h ht
  | begin hi => exact h.set fun before row after he => by simp [Stage.claimed] at he
  | claim hi hstage _ =>
    refine h.move hi ?_
    rw [hstage]
    rfl
  | @lock i r candidate candidates claimed row hi hstage hopen _ hrow hid hnew hfree =>
    have hclaimed : r.stage.claimed = claimed := by
      rw [hstage]
      rfl
    refine h.set fun before other after he => ?_
    rcases split_concat he with ⟨rfl, rfl⟩ | ⟨rest, hold⟩
    · refine ⟨hk.origin row hrow, fun first hf hp => ?_⟩
      rcases hk.present first hf with ⟨current, hcurrent, he⟩ | hs
      · obtain ⟨origin, horigin, hsame⟩ := hk.origin current hcurrent
        obtain rfl : origin = first :=
          List.inj_on_of_nodup_map hk.writtenIds horigin hf (hsame.id.symm.trans he)
        by_cases hpublished : current.publishedAt = none
        · have hprecedes : Precedes key current row := by
            rw [hsame]
            exact hp
          by_cases hsent : w.Sent current.id
          · exact Or.inl (he ▸ hsent)
          · obtain ⟨other, hother, hid⟩ := hm r hi current hcurrent hprecedes hpublished hsent
            exact Or.inr ⟨other, hclaimed ▸ hother, hid.trans he⟩
        · exact Or.inl (he ▸ hk.marked current hcurrent hpublished)
      · exact Or.inl hs
    · exact h.claims i r hi before other rest (hclaimed.trans hold)
  | skip hi hstage _ _ =>
    refine h.move hi ?_
    rw [hstage]
    rfl
  | claimed hi hstage _ _ =>
    refine h.move hi ?_
    rw [hstage]
    rfl
  | @send i r sent row rest hi hstage =>
    obtain ⟨hc, hcov⟩ := h.next hk hi hstage
    refine (h.accept V hc hcov).move hi ?_
    rw [hstage]
    change sent ++ [row] ++ rest = sent ++ row :: rest
    rw [List.append_assoc, List.singleton_append]
  | @fail i r sent row rest message lost hi hstage =>
    have hmoved : Ordered key (w.set i (some (r.at (.closing sent (some (row, message)) rest)))) := by
      refine h.move hi ?_
      rw [hstage]
      change sent ++ [row] ++ rest = sent ++ row :: rest
      rw [List.append_assoc, List.singleton_append]
    refine ⟨hmoved.past, hmoved.accepted, hmoved.claims, fun other ho => ?_⟩
    cases lost with
    | true => exact h.inflight other ho
    | false =>
      rcases List.mem_cons.mp ho with rfl | ho
      · exact h.next hk hi hstage
      · exact h.inflight other ho
  | @land row before after hin =>
    have hfewer : Ordered key { w with inflight := before ++ after } := by
      refine ⟨h.past, h.accepted, h.claims, fun other ho => h.inflight other ?_⟩
      rw [hin]
      exact (List.Sublist.append_left (List.sublist_cons_self row after) before).subset ho
    obtain ⟨hc, hcov⟩ := h.inflight row (hin ▸ List.mem_append_right _ List.mem_cons_self)
    exact hfewer.accept V hc hcov
  | finish hi hstage =>
    refine h.move hi ?_
    rw [hstage]
    change _ ++ [] ++ [] = _ ++ []
    rw [List.append_nil]
  | commit _ _ _ _ => exact ⟨h.past, h.accepted, (h.unset _).claims, h.inflight⟩
  | rollback _ => exact h.unset _
  | sever hi => exact h.set fun before row after he => h.claims _ _ hi before row after he
  | cleanup => exact ⟨h.past, h.accepted, h.claims, h.inflight⟩
  | drift _ => exact ⟨h.past, h.accepted, h.claims, h.inflight⟩

/-- Where no relay overtakes, the sink accepts the rows of an aggregate in order. -/
theorem ordered_run {sink : T} {tr : List (World I P T × Event I P)} (hr : Run (Step V) (World.start sink) tr w)
    (hm : Always (Unskipped key) tr) : Ordered key w := by
  induction hr with
  | nil => exact ordered_start key sink
  | snoc hr hs ih =>
    obtain ⟨ht, hu⟩ := always_snoc.mp hm
    exact ordered_step (ih ht) (kept_run hr) hu hs

end

section
variable [LinearOrder I] {D : Type} {partition : String → String → Nat}

abbrev EventWorld (I D : Type) := World I (EventColumns D) (Log I D)

abbrev EventTrace (I D : Type) := List (EventWorld I D × Event I (EventColumns D))

/-- The row goes to this partition. -/
def Row.onPartition (partition : String → String → Nat) (topic : String) (p : Nat) (row : Row I (EventColumns D)) :
    Bool :=
  decide (topic = row.columns.topic ∧ p = partition row.columns.topic row.columns.aggregateId)

/-- What the order relay has put on a partition. -/
def published (partition : String → String → Nat) (topic : String) (p : Nat)
    (rows : List (Row I (EventColumns D))) : List (KafkaMessage I D) :=
  (rows.filter (Row.onPartition partition topic p)).map fun row =>
    KafkaProducerService.toMessage (toCloudEvent "/order-service" row)

omit [LinearOrder I] in
theorem publish_published (row : Row I (EventColumns D)) (rows : List (Row I (EventColumns D))) (topic : String)
    (p : Nat) :
    KafkaProducerService.publish partition row.columns.topic (toCloudEvent "/order-service" row)
      (fun t p => published partition t p rows) topic p = published partition topic p (rows ++ [row]) := by
  unfold KafkaProducerService.publish published
  change (if topic = row.columns.topic ∧ p = partition row.columns.topic row.columns.aggregateId then _ else _) = _
  rw [List.filter_append, List.map_append]
  by_cases h : topic = row.columns.topic ∧ p = partition row.columns.topic row.columns.aggregateId
  · have hp : row.onPartition partition topic p = true := decide_eq_true h
    rw [if_pos h, List.filter_cons_of_pos hp]
    rfl
  · have hp : ¬ row.onPartition partition topic p = true := fun hp => h (of_decide_eq_true hp)
    rw [if_neg h, List.filter_cons_of_neg hp, List.filter_nil, List.map_nil, List.append_nil]

omit [LinearOrder I] in
theorem deliver_published (row : Row I (EventColumns D)) (rows : List (Row I (EventColumns D))) :
    (OrderOutboxRelayService I D partition).deliver row (fun topic p => published partition topic p rows) =
      fun topic p => published partition topic p (rows ++ [row]) := by
  funext topic p
  exact publish_published row rows topic p

/-- The log holds what was accepted, in that order. -/
theorem log_run {w : EventWorld I D} {tr : EventTrace I D}
    (hr : Run (Step (OrderOutboxRelayService I D partition)) (World.start fun _ _ => []) tr w) :
    w.sink = fun topic p => published partition topic p w.accepted := by
  induction hr with
  | nil => rfl
  | snoc _ hs ih =>
    cases hs with
    | send _ _ => exact (congrArg _ ih).trans (deliver_published _ _)
    | land _ => exact (congrArg _ ih).trans (deliver_published _ _)
    | drift hd => exact hd.elim
    | _ => exact ih

/-- Two rows of one order, the first committed before the second was created: wherever the
second is on the partition of the order, the first is in front of it. -/
def EventsInOrder (partition : String → String → Nat) (w : EventWorld I D) : Prop :=
  ∀ first ∈ w.written, ∀ second ∈ w.written, first.columns.topic = second.columns.topic →
    first.columns.aggregateId = second.columns.aggregateId → first.committedAt < second.createdAt →
    ∀ before message after,
      w.sink second.columns.topic (partition second.columns.topic second.columns.aggregateId) =
        before ++ message :: after →
      message.value.id = second.id → ∃ earlier ∈ before, earlier.value.id = first.id

/-- If no relay overtakes an unpublished row of the same order, all events of one order stay
ordered, however many instances relay, fail or roll back. -/
theorem events_in_order {w : EventWorld I D} {tr : EventTrace I D}
    (hr : Run (Step (OrderOutboxRelayService I D partition)) (World.start fun _ _ => []) tr w)
    (hm : Always (Unskipped fun columns => columns.aggregateId) tr) : EventsInOrder partition w := by
  intro first hfirst second hsecond htopic hid htime before message after hlog hmessage
  have hk := kept_run hr
  have ho := ordered_run hr hm
  rw [log_run hr] at hlog
  obtain ⟨rows, rest, hfilter, rfl, hafter⟩ := List.map_eq_append_iff.mp hlog
  obtain ⟨row, tail, rfl, rfl, _⟩ := List.map_eq_cons_iff.mp hafter
  obtain ⟨past, future, haccepted, hpast, hfuture⟩ := List.filter_eq_append_iff.mp hfilter
  obtain ⟨skipped, later, hsplit, hskipped, _, _⟩ := List.filter_eq_cons_iff.mp hfuture
  rw [hsplit, ← List.append_assoc] at haccepted
  obtain ⟨⟨origin, horigin, hsame⟩, hall⟩ := ho.accepted (past ++ skipped) row later haccepted
  obtain rfl : second = origin :=
    List.inj_on_of_nodup_map hk.writtenIds hsecond horigin (hmessage.symm.trans hsame.id)
  have hprecedes : Precedes (fun columns : EventColumns D => columns.aggregateId) first row := by
    rw [hsame]
    exact ⟨hid, htime⟩
  obtain ⟨earlier, hearlier, he⟩ := hall first hfirst hprecedes
  obtain ⟨source, hsource, hversion⟩ := ho.known (haccepted ▸ List.mem_append_left _ hearlier)
  obtain rfl : first = source :=
    List.inj_on_of_nodup_map hk.writtenIds hfirst hsource (he.symm.trans hversion.id)
  have hcolumns : earlier.columns = first.columns := by rw [hversion]
  have hhere : earlier.onPartition partition second.columns.topic
      (partition second.columns.topic second.columns.aggregateId) = true := by
    apply decide_eq_true
    rw [hcolumns, htopic, hid]
    exact ⟨rfl, rfl⟩
  have hin : earlier ∈ past := by
    refine (List.mem_append.mp hearlier).resolve_right fun hskip => ?_
    exact hskipped earlier hskip hhere
  refine ⟨KafkaProducerService.toMessage (toCloudEvent "/order-service" earlier), ?_, he⟩
  exact List.mem_map_of_mem (hpast ▸ List.mem_filter.mpr ⟨hin, hhere⟩)

end

theorem unpublished_created : unpublished [createdRow] = [createdRow] := List.mergeSort_singleton createdRow

/-- One relay holds `order.created`, so a second one claims `order.paid` alone and is faster. -/
theorem events_in_order_refuted : ¬ ∀ (w : EventWorld Nat String) (tr : EventTrace Nat String),
    Run (Step (OrderOutboxRelayService Nat String fun _ _ => 0)) (World.start fun _ _ => []) tr w →
      EventsInOrder (fun _ _ => 0) w := by
  intro h
  have hrun : Run (Step (OrderOutboxRelayService Nat String fun _ _ => 0)) (World.start fun _ _ => []) [] _ := .nil
  have hrun := hrun.snoc (.write (show createdRow.createdAt ≤ 0 from Nat.le_refl 0) rfl rfl nofun)
  have hrun := (hrun.snoc (.begin (i := 0) rfl)).snoc (.claim (i := 0) rfl rfl rfl)
  have hrun := hrun.snoc (.lock (i := 0) rfl (congrArg (Stage.scanning · []) unpublished_created)
    rfl (by decide) (List.mem_singleton_self createdRow) rfl rfl (World.free fun j hj => by
      rw [World.set_other _ hj, World.set_other _ hj]
      rfl))
  have hrun := hrun.snoc (.tick (t := 1) (Nat.zero_le 1))
  have hrun := hrun.snoc (.write (show paidRow.createdAt ≤ 1 from Nat.le_refl 1) rfl rfl fun other ho => by
    rw [List.mem_singleton.mp ho]
    decide)
  have hrun := (hrun.snoc (.begin (i := 1) rfl)).snoc (.claim (i := 1) rfl rfl rfl)
  have hrun := hrun.snoc (.skip (i := 1) rfl (congrArg (Stage.scanning · []) unpublished_both) rfl
    (.inl ⟨0, _, by decide, rfl, rfl, createdRow, List.mem_singleton_self _, rfl⟩))
  have hrun := hrun.snoc (.lock (i := 1) rfl rfl rfl (by decide) (.head _) (show paidRow.id = 2 from rfl) rfl (by
    rintro ⟨j, r, hj, hr, _, row, hrow, hid⟩
    by_cases h0 : j = 0
    · subst h0
      cases hr
      rw [List.mem_singleton.mp hrow] at hid
      exact absurd hid (by decide)
    · rw [World.set_other _ hj, World.set_other _ hj, World.set_other _ hj] at hr
      change (World.set _ 0 _).relays j = _ at hr
      rw [World.set_other _ h0, World.set_other _ h0, World.set_other _ h0] at hr
      cases hr))
  have hrun := (hrun.snoc (.claimed (i := 1) rfl rfl rfl (.inl rfl))).snoc (.send (i := 1) rfl rfl)
  obtain ⟨earlier, hno, _⟩ :=
    h _ _ hrun createdRow (.tail _ (.head _)) paidRow (.head _) rfl rfl (by decide) [] _ [] rfl rfl
  cases hno

/-- A single relay that sends both. -/
theorem events_in_order_both : ∃ (w : EventWorld Nat String) (tr : EventTrace Nat String),
    Run (Step (OrderOutboxRelayService Nat String fun _ _ => 0)) (World.start fun _ _ => []) tr w ∧
    Always (Unskipped fun columns => columns.aggregateId) tr ∧
    (w.sink "order.events" 0).map (fun message => message.value.id) = [1, 2] ∧ EventsInOrder (fun _ _ => 0) w := by
  have hrun : Run (Step (OrderOutboxRelayService Nat String fun _ _ => 0)) (World.start fun _ _ => []) [] _ := .nil
  have hrun := hrun.snoc (.write (show createdRow.createdAt ≤ 0 from Nat.le_refl 0) rfl rfl nofun)
  have hrun := hrun.snoc (.tick (t := 1) (Nat.zero_le 1))
  have hrun := hrun.snoc (.write (show paidRow.createdAt ≤ 1 from Nat.le_refl 1) rfl rfl fun other ho => by
    rw [List.mem_singleton.mp ho]
    decide)
  have hrun := (hrun.snoc (.begin (i := 0) rfl)).snoc (.claim (i := 0) rfl rfl rfl)
  have hrun := hrun.snoc (.lock (i := 0) rfl (congrArg (Stage.scanning · []) unpublished_both)
    rfl (by decide) (.tail _ (.head _)) (show createdRow.id = 1 from rfl) rfl (World.free fun j hj => by
      rw [World.set_other _ hj, World.set_other _ hj]
      rfl))
  have hrun := hrun.snoc (.lock (i := 0) rfl rfl rfl (by decide) (.head _) (show paidRow.id = 2 from rfl) rfl
    (World.free fun j hj => by
      rw [World.set_other _ hj, World.set_other _ hj, World.set_other _ hj]
      rfl))
  have hrun := (hrun.snoc (.claimed (i := 0) rfl rfl rfl (.inl rfl))).snoc (.send (i := 0) rfl rfl)
  have hrun := hrun.snoc (.send (i := 0) rfl rfl)
  refine ⟨_, _, hrun, ?hm, rfl, events_in_order hrun ?hm⟩
  simp only [always_snoc, always_nil, Unskipped, and_true, true_and]
  constructor
  · intro r hr earlier hearlier hp
    rcases List.mem_cons.mp hearlier with rfl | hearlier
    · exact absurd hp.2 (by decide)
    · rw [List.mem_singleton.mp hearlier] at hp
      exact absurd hp.2 (by decide)
  · intro r hr earlier hearlier hp _ _
    rcases List.mem_cons.mp hearlier with rfl | hearlier
    · exact absurd hp.2 (by decide)
    · rw [List.mem_singleton.mp hearlier]
      cases hr
      exact ⟨createdRow, List.mem_singleton_self _, rfl⟩

end MarketplaceApi.Outbox
