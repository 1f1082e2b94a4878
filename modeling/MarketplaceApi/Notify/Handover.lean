import MarketplaceApi.Notify.Resume

/-!
# Resuming on another instance

Instances share nothing but the log. Two that have consumed the partition of an order from
before its first event have each accepted a first part of the same events, so an id means the
same on both.
-/
namespace MarketplaceApi.Notify

open Transition OrderNotifyService

variable {σ ε : Type}

namespace Fleet

/-- The events of the order are on one partition, that of its key. -/
def OnPartition (Y : Source σ ε) (F : Fleet σ) (id p : Nat) : Prop :=
  ∀ q offset e, F.eventAt Y q offset = some e → e.orderId = id → q = p

/-- An event some message of the topic is recorded as. -/
def Located (Y : Source σ ε) (F : Fleet σ) (e : OrderStatusEvent) : Prop :=
  ∃ p offset, F.eventAt Y p offset = some e

/-- The instance has consumed the partition in order from before the first event of the order:
it handles none before every earlier one was handled. Handling again is allowed. -/
def InOrder (Y : Source σ ε) (n id p : Nat) (tr : List (Fleet σ × Event ε)) : Prop :=
  ∀ before F offset after, tr = before ++ (F, .handle n p offset) :: after →
    ∀ e, F.eventAt Y p offset = some e → e.orderId = id →
    ∀ earlier first, earlier < offset → F.eventAt Y p earlier = some first → first.orderId = id →
      ∃ G, (G, .handle n p earlier) ∈ before

/-- What such an instance has accepted: every event of the order it has handled, each with all
that are in front of it. -/
structure Consumed (Y : Source σ ε) (n id p : Nat) (tr : List (Fleet σ × Event ε)) (F : Fleet σ) : Prop where
  within : ∀ G offset, (G, .handle n p offset) ∈ tr → offset < (Y.log F.source p).length
  located : ∀ e ∈ acceptedIn id (traceOf Y n tr), ∃ offset, F.eventAt Y p offset = some e
  handled : ∀ G offset e, (G, .handle n p offset) ∈ tr → F.eventAt Y p offset = some e → e.orderId = id →
    e ∈ acceptedIn id (traceOf Y n tr)
  closed : ∀ y ∈ acceptedIn id (traceOf Y n tr), ∀ offset e, F.eventAt Y p offset = some e → e.orderId = id →
    e.id ≤ y.id → e ∈ acceptedIn id (traceOf Y n tr)

section
variable {parse : String → Number} {Y : Source σ ε} {F F' : Fleet σ} {ev : Event ε}
  {tr tr' : List (Fleet σ × Event ε)} {n id p offset : Nat} {e : OrderStatusEvent} {s : σ}

theorem length_of_eventAt (h : F.eventAt Y p offset = some e) : offset < (Y.log F.source p).length := by
  obtain ⟨message, hm, _⟩ := Option.bind_eq_some_iff.mp h
  exact (List.getElem?_eq_some_iff.mp hm).1

theorem handle_event (h : F.eventAt Y p offset = some e) :
    Step parse Y F (.handle n p offset) (F.set n ((F.nodes n).record e)) := by
  have hstep : Step parse Y F (.handle n p offset) (F.deliver n (F.eventAt Y p offset)) := .handle (length_of_eventAt h)
  rw [h] at hstep
  exact hstep

/-- A message that was there already is the same. -/
theorem eventAt_back (hs : Step parse Y F ev F') (hlt : offset < (Y.log F.source p).length)
    (h : F'.eventAt Y p offset = some e) : F.eventAt Y p offset = some e := by
  obtain ⟨more, hmore⟩ := log_step hs p
  unfold eventAt at h ⊢
  rwa [← hmore, List.getElem?_append_left hlt] at h

theorem OnPartition.of_step (h : OnPartition Y F' id p) (hs : Step parse Y F ev F') : OnPartition Y F id p :=
  fun q offset e he hid => h q offset e (eventAt_step hs he) hid

theorem InOrder.of_append (h : InOrder Y n id p (tr ++ tr')) : InOrder Y n id p tr := by
  intro before F offset after he
  refine h before F offset (after ++ tr') ?_
  rw [he, List.append_assoc, List.cons_append]

theorem acceptedIn_step : acceptedIn id (traceOf Y n (tr ++ [(F, ev)])) =
    acceptedIn id (traceOf Y n tr) ++ ((ev.at Y n F).bind (Notify.Event.accepted? id (F.nodes n))).toList := by
  rw [traceOf_snoc]
  cases ev.at Y n F with
  | none => exact congrArg _ (List.append_nil _) |>.trans (List.append_nil _).symm
  | some e => exact acceptedIn_snoc

theorem located_accepted (hr : Run (Step parse Y) (start s) tr F) :
    ∀ e ∈ acceptedIn id (traceOf Y n tr), Located Y F e := by
  induction hr with
  | nil => exact nofun
  | @snoc tr F F' ev _ hs ih =>
    intro e he
    have hlocated : Located Y F e := by
      rw [acceptedIn_step] at he
      rcases List.mem_append.mp he with hold | hnew
      · exact ih e hold
      · obtain ⟨event, hat, haccepted⟩ := Option.bind_eq_some_iff.mp (Option.mem_toList.mp hnew)
        cases ev with
        | source _ => cases hat
        | handle m p offset =>
          change (if m = n then (F.eventAt Y p offset).map Notify.Event.record else none) = some event at hat
          split at hat
          · obtain ⟨recorded, hrecorded, rfl⟩ := Option.map_eq_some_iff.mp hat
            change (if _ then some recorded else none) = some e at haccepted
            split at haccepted
            · obtain rfl := Option.some.inj haccepted
              exact ⟨p, offset, hrecorded⟩
            · cases haccepted
          · cases hat
        | connect m sid order header =>
          change (if m = n then some (Notify.Event.connect sid order header) else none) = some event at hat
          split at hat
          · obtain rfl := Option.some.inj hat
            cases haccepted
          · cases hat
        | disconnect m sid =>
          change (if m = n then some (Notify.Event.disconnect sid) else none) = some event at hat
          split at hat
          · obtain rfl := Option.some.inj hat
            cases haccepted
          · cases hat
    obtain ⟨p, offset, hat⟩ := hlocated
    exact ⟨p, offset, eventAt_step hs hat⟩

/-- What a stream has emitted is in the topic. -/
theorem emitted_located (hr : Run (Step parse Y) (start s) tr F) {sid : Nat} {stream : Stream}
    (hat : (F.nodes n).streams sid = some stream) :
    stream.Steady ∧ ∀ e ∈ stream.emitted, e.orderId = stream.orderId ∧ Located Y F e := by
  obtain ⟨hsteady, hall⟩ := emitted_accepted (node_run hr n) hat
  exact ⟨hsteady, fun e he => ⟨acceptedIn_orderId (hall e he), located_accepted hr e (hall e he)⟩⟩

/-- A run leaves instances that have not begun. -/
theorem fresh_run (hr : Run (Step parse Y) (start s) tr F) : ∃ least, ∀ n, least ≤ n → F.nodes n = .start := by
  induction hr with
  | nil => exact ⟨0, fun _ _ => rfl⟩
  | @snoc tr F F' ev _ hs ih =>
    obtain ⟨least, hleast⟩ := ih
    have hset : ∀ m (i : Instance), ∃ least, ∀ n, least ≤ n → (F.set m i).nodes n = .start := fun m i =>
      ⟨max least (m + 1), fun n hn => (set_other F (by omega) i).trans (hleast n (by omega))⟩
    cases hs with
    | source _ => exact ⟨least, hleast⟩
    | @handle m p offset _ =>
      cases F.eventAt Y p offset with
      | none => exact ⟨least, hleast⟩
      | some e => exact hset m _
    | connect _ => exact hset _ _
    | disconnect _ => exact hset _ _

/-- A step that accepts nothing of the order and handles nothing new of it. -/
theorem Consumed.kept (h : Consumed Y n id p tr F) (hs : Step parse Y F ev F')
    (hnone : (ev.at Y n F).bind (Notify.Event.accepted? id (F.nodes n)) = none)
    (hnew : ∀ offset, ev = .handle n p offset → offset < (Y.log F.source p).length ∧
      ∀ e, F.eventAt Y p offset = some e → e.orderId = id → e ∈ acceptedIn id (traceOf Y n tr)) :
    Consumed Y n id p (tr ++ [(F, ev)]) F' := by
  have hsame : acceptedIn id (traceOf Y n (tr ++ [(F, ev)])) = acceptedIn id (traceOf Y n tr) := by
    rw [acceptedIn_step, hnone]
    exact List.append_nil _
  have hlength := (log_step hs p).length_le
  have hwithin : ∀ G offset, (G, Event.handle n p offset) ∈ tr ++ [(F, ev)] →
      offset < (Y.log F.source p).length := by
    intro G offset hin
    rcases List.mem_append.mp hin with hold | hlast
    · exact h.within G offset hold
    · cases List.mem_singleton.mp hlast
      exact (hnew offset rfl).1
  refine ⟨fun G offset hin => (hwithin G offset hin).trans_le hlength, ?_, ?_, ?_⟩
  · rw [hsame]
    intro e he
    obtain ⟨offset, hat⟩ := h.located e he
    exact ⟨offset, eventAt_step hs hat⟩
  · rw [hsame]
    intro G offset e hin hat hid
    have hbefore := eventAt_back hs (hwithin G offset hin) hat
    rcases List.mem_append.mp hin with hold | hlast
    · exact h.handled G offset e hold hbefore hid
    · cases List.mem_singleton.mp hlast
      exact (hnew offset rfl).2 e hbefore hid
  · rw [hsame]
    intro y hy offset e hat hid hle
    obtain ⟨oy, hoy⟩ := h.located y hy
    have hlt := length_of_eventAt hoy
    have hy' := eventAt_id hoy
    have he' := eventAt_id hat
    exact h.closed y hy offset e (eventAt_back hs (by omega) hat) hid hle

/-- Handling an event of the order, new or again. -/
theorem consumed_handle (h : Consumed Y n id p tr F) (hl : Logged (traceOf Y n tr) (F.nodes n))
    (hs : Step parse Y F (.handle n p offset) F') (hat : F.eventAt Y p offset = some e) (hid : e.orderId = id)
    (horder : InOrder Y n id p (tr ++ [(F, .handle n p offset)])) :
    Consumed Y n id p (tr ++ [(F, .handle n p offset)]) F' := by
  have hevent : (Event.handle n p offset : Event ε).at Y n F = some (.record e) := by
    change (if n = n then (F.eventAt Y p offset).map _ else none) = _
    rw [if_pos rfl, hat]
    rfl
  by_cases ha : (F.nodes n).service.accepts e = true
  · have hgrown : acceptedIn id (traceOf Y n (tr ++ [(F, .handle n p offset)])) =
        acceptedIn id (traceOf Y n tr) ++ [e] := by
      rw [acceptedIn_step, hevent]
      change _ ++ Option.toList ((Notify.Event.record e).accepted? id (F.nodes n)) = _
      rw [accepted?_record ha hid]
      rfl
    have hlast : e ∈ acceptedIn id (traceOf Y n tr) ++ [e] := List.mem_append_right _ (List.mem_singleton_self e)
    have hwithin : ∀ G k, (G, Event.handle n p k) ∈ tr ++ [(F, .handle n p offset)] →
        k < (Y.log F.source p).length := by
      intro G k hin
      rcases List.mem_append.mp hin with hold | hnew
      · exact h.within G k hold
      · cases List.mem_singleton.mp hnew
        exact length_of_eventAt hat
    have hbefore : ∀ k x, k < offset → F.eventAt Y p k = some x → x.orderId = id →
        x ∈ acceptedIn id (traceOf Y n tr) ++ [e] := by
      intro k x hk hx hxid
      obtain ⟨G, hin⟩ := horder tr F offset [] rfl e hat hid k x hk hx hxid
      exact List.mem_append_left _ (h.handled G k x hin hx hxid)
    refine ⟨fun G k hin => (hwithin G k hin).trans_le (log_step hs p).length_le, ?_, ?_, ?_⟩
    · rw [hgrown]
      intro x hx
      rcases List.mem_append.mp hx with hold | hnew
      · obtain ⟨k, hk⟩ := h.located x hold
        exact ⟨k, eventAt_step hs hk⟩
      · rw [List.mem_singleton.mp hnew]
        exact ⟨offset, eventAt_step hs hat⟩
    · rw [hgrown]
      intro G k x hin hx hxid
      have hxat := eventAt_back hs (hwithin G k hin) hx
      rcases List.mem_append.mp hin with hold | hnew
      · exact List.mem_append_left _ (h.handled G k x hold hxat hxid)
      · cases List.mem_singleton.mp hnew
        rw [hat] at hxat
        cases hxat
        exact hlast
    · rw [hgrown]
      intro y hy k x hx hxid hle
      have hx' := eventAt_id hx
      rcases List.mem_append.mp hy with hold | hnew
      · obtain ⟨oy, hoy⟩ := h.located y hold
        have hlt := length_of_eventAt hoy
        have hy' := eventAt_id hoy
        exact List.mem_append_left _ (h.closed y hold k x (eventAt_back hs (by omega) hx) hxid hle)
      · rw [List.mem_singleton.mp hnew] at hle
        have he' := eventAt_id hat
        have hlt := length_of_eventAt hat
        have hxat := eventAt_back hs (show k < _ by omega) hx
        rcases Nat.lt_or_eq_of_le (show k ≤ offset by omega) with hk | rfl
        · exact hbefore k x hk hxat hxid
        · rw [hat] at hxat
          cases hxat
          exact hlast
  · refine h.kept hs ?_ fun k hk => ?_
    · rw [hevent]
      exact accepted?_record_none fun hc => ha hc.2
    · cases hk
      refine ⟨length_of_eventAt hat, fun x hx hxid => ?_⟩
      rw [hat] at hx
      cases hx
      have hnot := mt (accepts_iff (hl.historyIncreasing _)).mpr ha
      simp only [not_forall, not_lt] at hnot
      obtain ⟨y, hy, hle⟩ := hnot
      rw [hid, hl.history] at hy
      exact h.closed y (List.mem_of_mem_drop hy) offset e hat hid hle

theorem consumed_step (h : Consumed Y n id p tr F) (hl : Logged (traceOf Y n tr) (F.nodes n))
    (hs : Step parse Y F ev F') (hon : OnPartition Y F' id p) (horder : InOrder Y n id p (tr ++ [(F, ev)])) :
    Consumed Y n id p (tr ++ [(F, ev)]) F' := by
  cases ev with
  | source ev => exact h.kept hs rfl nofun
  | connect m sid order header =>
    refine h.kept hs ?_ nofun
    change (if m = n then some (Notify.Event.connect sid order header) else none).bind _ = none
    split <;> rfl
  | disconnect m sid =>
    refine h.kept hs ?_ nofun
    change (if m = n then some (Notify.Event.disconnect sid) else none).bind _ = none
    split <;> rfl
  | handle m q k =>
    have hlt : k < (Y.log F.source q).length := by
      cases hs with
      | handle hlt => exact hlt
    by_cases hm : m = n
    · subst hm
      cases hat : F.eventAt Y q k with
      | none =>
        refine h.kept hs ?_ fun offset he => ?_
        · change (if m = m then (F.eventAt Y q k).map _ else none).bind _ = none
          rw [if_pos rfl, hat]
          rfl
        · cases he
          exact ⟨hlt, fun e he => by rw [hat] at he; cases he⟩
      | some e =>
        by_cases hid : e.orderId = id
        · obtain rfl := hon q k e (eventAt_step hs hat) hid
          exact consumed_handle h hl hs hat hid horder
        · refine h.kept hs ?_ fun offset he => ?_
          · change (if m = m then (F.eventAt Y q k).map _ else none).bind _ = none
            rw [if_pos rfl, hat]
            exact accepted?_record_none fun hc => hid hc.1
          · cases he
            refine ⟨hlt, fun x hx hxid => ?_⟩
            rw [hat] at hx
            cases hx
            exact absurd hxid hid
    · refine h.kept hs ?_ fun offset he => ?_
      · change (if m = n then _ else none).bind _ = none
        rw [if_neg hm]
        rfl
      · cases he
        exact absurd rfl hm

theorem consumed_run (hr : Run (Step parse Y) (start s) tr F) (hon : OnPartition Y F id p)
    (horder : InOrder Y n id p tr) : Consumed Y n id p tr F := by
  induction hr with
  | nil => exact ⟨nofun, nofun, nofun, nofun⟩
  | snoc hr hs ih =>
    have hlog := logged_run (node_run hr n)
    exact consumed_step (ih (hon.of_step hs) horder.of_append) hlog hs hon horder

end

end Fleet

/-- A client that reopens on an instance with the last id of what it has received, both instances
having consumed the partition from before the first event of the order, sees every event this
instance accepts exactly once, if it has accepted at most `ORDER_EVENT_HISTORY_LIMIT` events after
that id when the client reopens: all but those the history had lost when the client first opened. -/
def ResumesElsewhere (parse : String → Number) (header : Option String) (Y : Source σ ε) : Prop :=
  ∀ c tr F F₁ tr₁ F₂ F₃ tr₂ F₄ n m sid sid' id p first received tr₄,
    Run (Fleet.Step parse Y) (.start c) tr F → Fleet.Step parse Y F (.connect n sid id header) F₁ →
    Run (Fleet.Step parse Y) F₁ tr₁ F₂ →
    (F₂.nodes n).streams sid = some first → received <+: first.emitted → ReadsIds parse received →
    Fleet.Step parse Y F₂ (.connect m sid' id (resumeHeader header received)) F₃ →
    Run (Fleet.Step parse Y) F₃ tr₂ F₄ → (F₄.nodes m).isOpen sid' = true →
    tr₄ = tr ++ [(F, .connect n sid id header)] ++ tr₁ ++
      [(F₂, .connect m sid' id (resumeHeader header received))] ++ tr₂ →
    F₄.OnPartition Y id p → Fleet.InOrder Y n id p tr₄ → Fleet.InOrder Y m id p tr₄ →
    ((acceptedIn id (Fleet.traceOf Y m (tr ++ [(F, .connect n sid id header)] ++ tr₁))).filter fun e =>
      (lastEventId parse (resumeHeader header received)).below e.id).length ≤ orderEventHistoryLimit →
    ∃ second, (F₄.nodes m).streams sid' = some second ∧ Increasing (received ++ second.emitted) ∧
      (∀ e ∈ received ++ second.emitted, (lastEventId parse header).below e.id = true ∧
        (e ∈ acceptedIn id (Fleet.traceOf Y n tr₄) ∨ e ∈ acceptedIn id (Fleet.traceOf Y m tr₄))) ∧
      ∀ e ∈ acceptedIn id (Fleet.traceOf Y m tr₄), (lastEventId parse header).below e.id = true →
        e ∈ received ++ second.emitted ∨
          e ∈ acceptedIn id (Fleet.traceOf Y n tr) ∧ e ∉ (F.nodes n).service.historyOf id

section
variable {x y : OrderStatusEvent} {xs ys received : List OrderStatusEvent} {last : Number}

/-- A first part of increasing events has everything up to each of its own. -/
theorem Increasing.mem_first (h : Increasing ys) (hp : xs <+: ys) (hx : x ∈ xs) (hy : y ∈ ys)
    (hle : y.id ≤ x.id) : y ∈ xs := by
  obtain ⟨rest, rfl⟩ := hp
  refine (List.mem_append.mp hy).resolve_right fun hrest => ?_
  have hlt := (List.pairwise_append.mp h).2.2 x hx y hrest
  omega

theorem below_of_resumed (h : ∀ e ∈ received, last.below e.id = true) {k : Nat}
    (hk : (resumed last received).below k = true) : last.below k = true := by
  unfold resumed at hk
  cases hlast : received.getLast? with
  | none =>
    rw [hlast] at hk
    exact hk
  | some e =>
    rw [hlast, Option.elim_some, Number.below_nat, decide_eq_true_eq] at hk
    exact Number.below_mono (h e (List.mem_of_getLast? hlast)) (Nat.le_of_lt hk)

theorem resumed_newer (h : Increasing received) (hx : x ∈ received) {k : Nat}
    (hk : (resumed last received).below k = true) : x.id < k := by
  obtain ⟨e, he, hle⟩ := h.le_last hx
  unfold resumed at hk
  rw [he, Option.elim_some, Number.below_nat, decide_eq_true_eq] at hk
  omega

theorem not_resumed {k : Nat} (hk : last.below k = true) (hno : (resumed last received).below k ≠ true) :
    ∃ e ∈ received, k ≤ e.id := by
  unfold resumed at hno
  cases hlast : received.getLast? with
  | none =>
    rw [hlast] at hno
    exact absurd hk hno
  | some e =>
    rw [hlast, Option.elim_some, Number.below_nat, ne_eq, decide_eq_true_eq] at hno
    exact ⟨e, List.mem_of_getLast? hlast, by omega⟩

end

section
variable {parse : String → Number} {header : Option String} {Y : Source σ ε}

/-- Opening a stream in the fleet is opening it on its instance. -/
theorem connect_node {F F' : Fleet σ} {n sid id : Nat} (hs : Fleet.Step parse Y F (.connect n sid id header) F') :
    Step parse (F.nodes n) (.connect sid id header) (F'.nodes n) := by
  cases hs with
  | connect h => exact (Fleet.set_self F n _).symm ▸ h

theorem accepted_connect {F : Fleet σ} {tr tr' : List (Fleet σ × Fleet.Event ε)} {n m sid order id : Nat} :
    acceptedIn id (Fleet.traceOf Y n (tr ++ [(F, .connect m sid order header)] ++ tr')) =
      acceptedIn id (Fleet.traceOf Y n tr) ++ acceptedIn id (Fleet.traceOf Y n tr') := by
  rw [Fleet.traceOf_append, acceptedIn_append, Fleet.acceptedIn_step]
  have hnone : ((Fleet.Event.connect m sid order header : Fleet.Event ε).at Y n F).bind
      (Event.accepted? id (F.nodes n)) = none := by
    change (if m = n then some (Event.connect sid order header) else none).bind _ = none
    split <;> rfl
  rw [hnone, Option.toList_none, List.append_nil]

theorem resumes_elsewhere : ResumesElsewhere parse header Y := by
  intro c tr F F₁ tr₁ F₂ F₃ tr₂ F₄ n m sid sid' id p first received tr₄ hr hc hr₁ hfirst hreceived hreads hc'
    hr₂ hopen htr hon hn hm hfew
  have hpast := (hr.snoc hc).append hr₁
  have hnow := (hpast.snoc hc').append hr₂
  rw [← htr] at hnow
  obtain ⟨found, hf₁, hemitted₁, hincreasing₁⟩ :=
    emits_exactly _ _ _ _ _ _ _ (Fleet.node_run hr n) (connect_node hc) (Fleet.node_run hr₁ n)
  rw [hfirst] at hf₁
  cases hf₁
  have hlast : lastEventId parse (resumeHeader header received) = resumed (lastEventId parse header) received :=
    lastEventId_resume hreads
  obtain ⟨second, hsecond, hemitted₂⟩ := emits_accepted (Fleet.node_run hpast m) (connect_node hc')
    (Fleet.node_run hr₂ m) hopen hfew
  have hm₄ : acceptedIn id (Fleet.traceOf Y m tr₄) = acceptedIn id
      (Fleet.traceOf Y m (tr ++ [(F, .connect n sid id header)] ++ tr₁) ++ Fleet.traceOf Y m tr₂) := by
    rw [htr, accepted_connect, acceptedIn_append]
  have hn₄ : acceptedIn id (Fleet.traceOf Y n tr₄) = acceptedIn id (Fleet.traceOf Y n tr) ++
      (acceptedIn id (Fleet.traceOf Y n tr₁) ++ acceptedIn id (Fleet.traceOf Y n tr₂)) := by
    rw [htr, accepted_connect, accepted_connect, List.append_assoc]
  rw [← hm₄, hlast] at hemitted₂
  have hlogn := logged_run (Fleet.node_run hnow n)
  have hlogm := logged_run (Fleet.node_run hnow m)
  have hconsumedn := Fleet.consumed_run hnow hon hn
  have hconsumedm := Fleet.consumed_run hnow hon hm
  have hreceivedIncreasing := hincreasing₁.sublist hreceived.sublist
  have hreceivedBelow : ∀ e ∈ received, (lastEventId parse header).below e.id = true := by
    intro e he
    have hin := hreceived.subset he
    rw [hemitted₁] at hin
    exact (List.mem_filter.mp hin).2
  -- what the first stream had to choose from is a first part of what its instance has kept and accepted since
  have hhistory := (logged_run (Fleet.node_run hr n)).history id
  have hfirstPart : (F.nodes n).service.historyOf id ++ recordedIn sid id (Fleet.traceOf Y n tr₁) <+:
      (F.nodes n).service.historyOf id ++
        (acceptedIn id (Fleet.traceOf Y n tr₁) ++ acceptedIn id (Fleet.traceOf Y n tr₂)) :=
    (List.prefix_append_right_inj _).mpr ((recorded_first (Fleet.node_run hr n) (connect_node hc)
      (Fleet.node_run hr₁ n)).1.trans (List.prefix_append _ _))
  have hsince : Increasing ((F.nodes n).service.historyOf id ++
      (acceptedIn id (Fleet.traceOf Y n tr₁) ++ acceptedIn id (Fleet.traceOf Y n tr₂))) := by
    refine (hlogn.increasing id).sublist ?_
    rw [hn₄, hhistory]
    exact (List.drop_sublist _ _).append_right _
  have hacceptedn : ∀ e ∈ (F.nodes n).service.historyOf id ++
      (acceptedIn id (Fleet.traceOf Y n tr₁) ++ acceptedIn id (Fleet.traceOf Y n tr₂)),
      e ∈ acceptedIn id (Fleet.traceOf Y n tr₄) := by
    intro e he
    rw [hn₄]
    rw [hhistory] at he
    exact ((List.drop_sublist _ _).append_right _).subset he
  have hchosen : ∀ e ∈ received,
      e ∈ (F.nodes n).service.historyOf id ++ recordedIn sid id (Fleet.traceOf Y n tr₁) := by
    intro e he
    have hin := hreceived.subset he
    rw [hemitted₁] at hin
    exact (List.mem_filter.mp hin).1
  refine ⟨second, hsecond, ?_, fun e he => ?_, fun e he hbelow => ?_⟩
  · rw [hemitted₂]
    refine List.pairwise_append.mpr ⟨hreceivedIncreasing, (hlogm.increasing id).filter _, fun r hr e he => ?_⟩
    exact resumed_newer hreceivedIncreasing hr (List.mem_filter.mp he).2
  · rcases List.mem_append.mp he with hin | hin
    · exact ⟨hreceivedBelow e hin, Or.inl (hacceptedn e (hfirstPart.subset (hchosen e hin)))⟩
    · rw [hemitted₂] at hin
      obtain ⟨haccepted, hresumed⟩ := List.mem_filter.mp hin
      exact ⟨below_of_resumed hreceivedBelow hresumed, Or.inr haccepted⟩
  · by_cases hresumed : (resumed (lastEventId parse header) received).below e.id = true
    · refine Or.inl (List.mem_append_right _ ?_)
      rw [hemitted₂]
      exact List.mem_filter.mpr ⟨he, hresumed⟩
    · -- the first instance has accepted the event too, since it has accepted a later one
      obtain ⟨x, hx, hle⟩ := not_resumed hbelow hresumed
      have hxn := hacceptedn x (hfirstPart.subset (hchosen x hx))
      obtain ⟨offset, hat⟩ := hconsumedm.located e he
      have hen := hconsumedn.closed x hxn offset e hat (acceptedIn_orderId he) hle
      rw [hn₄] at hen
      by_cases hlost : e ∈ acceptedIn id (Fleet.traceOf Y n tr) ∧ e ∉ (F.nodes n).service.historyOf id
      · exact Or.inr hlost
      · refine Or.inl (List.mem_append_left _ ?_)
        have hkept : e ∈ (F.nodes n).service.historyOf id ++
            (acceptedIn id (Fleet.traceOf Y n tr₁) ++ acceptedIn id (Fleet.traceOf Y n tr₂)) := by
          rcases List.mem_append.mp hen with hold | hnew
          · exact List.mem_append_left _ (by_contra fun hno => hlost ⟨hold, hno⟩)
          · exact List.mem_append_right _ hnew
        have hin := hsince.mem_first hfirstPart (hchosen x hx) hkept hle
        have hemitted : e ∈ first.emitted := by
          rw [hemitted₁]
          exact List.mem_filter.mpr ⟨hin, hbelow⟩
        exact hincreasing₁.mem_first hreceived hx hemitted hle

/-- Streams are gapless and free of duplicates, also across a reconnect. -/
theorem streams_exact : EmitsExactly parse header ∧ ResumesHere parse header ∧
    ∀ (σ ε : Type) (Y : Source σ ε), ResumesElsewhere parse header Y :=
  ⟨emits_exactly, resumes_here, fun _ _ _ => resumes_elsewhere⟩

end

/-- `Number` on the texts of the requests below. -/
def sampleNumber (text : String) : Number :=
  if text = "1" then .finite 1 else if text = "11" then .finite 11 else .nan

def sampleOrder : Placement.Order :=
  ⟨11, "a5a7cbc2-3a86-4a2b-b5d1-7fd1b0a7b6e1", 7, "0d3c6b5e-6a52-4c0f-9b62-3c4d1f2a9e10", 3, none, .pendingPayment,
    "10.00".toList, "10.00".toList, .uah, 1_500, 1_500⟩

/-- The one order that is there. -/
def sampleFind (id : Int) : Except QueryError Placement.Order :=
  if id = 11 then .ok sampleOrder else .error .entityNotFound

def sampleCreated : OrderStatusEvent := ⟨1, 11, .pendingPayment⟩

def samplePaid : OrderStatusEvent := ⟨2, 11, .paid⟩

/-- A header that is no number does not get through. -/
example : OrderAccessGuard.canActivate sampleNumber sampleFind "11" none (some "abc") =
    .error (.badRequest "Last-Event-ID must be a non-negative safe integer") := by decide

/-- An instance with one stream, that has recorded `order.created`. -/
def sampleInstance : Instance := (Instance.start.events 0 11 (.finite 0)).record sampleCreated

/-- A client that comes back with the id of `order.created` gets `order.paid`. -/
theorem streams_exact_resumed : ∃ tr s second, Run (Step sampleNumber) .start tr s ∧ s.streams 1 = some second ∧
    [sampleCreated] ++ second.emitted = [sampleCreated, samplePaid] := by
  have hpath : sampleNumber "11" = .finite (11 : Nat) := rfl
  have hguard : OrderAccessGuard.canActivate sampleNumber sampleFind "11" none none = .ok () := by decide
  have hguard' : OrderAccessGuard.canActivate sampleNumber sampleFind "11" none
    (resumeHeader none [sampleCreated]) = .ok () := by decide
  have hstart : Run (Step sampleNumber) .start [] .start := .nil
  have hopen : Step sampleNumber .start (.connect 0 11 none) (Instance.start.events 0 11 (.finite 0)) :=
    .connect rfl hpath hguard
  have hcreated : Step sampleNumber (Instance.start.events 0 11 (.finite 0)) (.record sampleCreated) sampleInstance :=
    .record
  have hagain : Step sampleNumber sampleInstance (.connect 1 11 (resumeHeader none [sampleCreated]))
    (sampleInstance.events 1 11 (lastEventId sampleNumber (resumeHeader none [sampleCreated]))) :=
    .connect rfl hpath hguard'
  have hpaid : Step sampleNumber
    (sampleInstance.events 1 11 (lastEventId sampleNumber (resumeHeader none [sampleCreated])))
    (.record samplePaid) _ := .record
  have hreads : ReadsIds sampleNumber [sampleCreated] := by
    intro e he
    rw [List.mem_singleton.mp he]
    exact if_pos (by decide)
  obtain ⟨second, hsecond, hboth, _⟩ := streams_exact.2.1 _ _ _ _ _ _ _ _ 0 1 11 _ [sampleCreated]
    hstart hopen (Run.nil.snoc hcreated) rfl List.prefix_rfl hreads hagain (Run.nil.snoc hpaid) rfl (by decide)
  have hrun := (((hstart.snoc hopen).snoc hcreated).snoc hagain).snoc hpaid
  exact ⟨_, _, second, hrun, hsecond, hboth.trans (by decide)⟩

end MarketplaceApi.Notify
