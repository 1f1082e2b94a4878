import MarketplaceApi.Notify.Wiring

/-!
# What a stream emits

The two points that drop an event, `record` by the history and `writeEvent` by the last id
sent, drop the same ones: an accepted event is newer than everything the stream has sent. So
a stream emits what its `Last-Event-ID` lets through of the history it found and of what is
recorded while it is open.
-/
namespace MarketplaceApi.Notify

open Transition OrderNotifyService

abbrev Trace := List (Instance × Event)

/-- The event of the order that a step accepts. -/
def Event.accepted? (id : Nat) (s : Instance) : Event → Option OrderStatusEvent
  | .record event => if event.orderId = id ∧ s.service.accepts event = true then some event else none
  | _ => none

/-- The events of an order that a run accepts. -/
def acceptedIn (id : Nat) (tr : Trace) : List OrderStatusEvent := tr.filterMap fun p => p.2.accepted? id p.1

/-- Those it accepts while the stream is open. -/
def recordedIn (sid id : Nat) (tr : Trace) : List OrderStatusEvent :=
  acceptedIn id (tr.filter fun p => p.1.isOpen sid)

section
variable {s : Instance} {tr : Trace} {ev : Event} {id sid : Nat}

theorem acceptedIn_snoc : acceptedIn id (tr ++ [(s, ev)]) = acceptedIn id tr ++ (ev.accepted? id s).toList := by
  unfold acceptedIn
  rw [List.filterMap_append]
  cases h : ev.accepted? id s with
  | none => simp [h]
  | some e => simp [h]

theorem acceptedIn_append {tr' : Trace} : acceptedIn id (tr ++ tr') = acceptedIn id tr ++ acceptedIn id tr' :=
  List.filterMap_append

theorem recordedIn_snoc : recordedIn sid id (tr ++ [(s, ev)]) =
    recordedIn sid id tr ++ if s.isOpen sid then (ev.accepted? id s).toList else [] := by
  unfold recordedIn
  rw [List.filter_append, acceptedIn_append]
  by_cases ho : s.isOpen sid = true
  · have hp : [(s, ev)].filter (fun p => p.1.isOpen sid) = [(s, ev)] := List.filter_cons_of_pos ho
    rw [hp, if_pos ho, ← List.nil_append [(s, ev)], acceptedIn_snoc]
    rfl
  · have hp : [(s, ev)].filter (fun p => p.1.isOpen sid) = [] := List.filter_cons_of_neg ho
    rw [hp, if_neg ho]
    rfl

theorem accepted?_record {e : OrderStatusEvent} (ha : s.service.accepts e = true) (hid : e.orderId = id) :
    (Event.record e).accepted? id s = some e := if_pos ⟨hid, ha⟩

theorem accepted?_record_none {e : OrderStatusEvent} (h : ¬ (e.orderId = id ∧ s.service.accepts e = true)) :
    (Event.record e).accepted? id s = none := if_neg h

theorem acceptedIn_orderId {e : OrderStatusEvent} (h : e ∈ acceptedIn id tr) : e.orderId = id := by
  obtain ⟨p, _, hp⟩ := List.mem_filterMap.mp h
  unfold Event.accepted? at hp
  split at hp
  · split at hp
    · rename_i hc
      cases hp
      exact hc.1
    · cases hp
  · cases hp

end

/-- Nothing is newer than the newest of the latest events. -/
theorem Increasing.le_latest {events : List OrderStatusEvent} (h : Increasing events) {x : OrderStatusEvent}
    (hx : x ∈ events) : ∃ y ∈ latest events, x.id ≤ y.id := by
  rcases List.eq_nil_or_concat events with rfl | ⟨init, last, rfl⟩
  · cases hx
  · rw [List.concat_eq_append] at h hx ⊢
    refine ⟨last, shift_latest init last ▸ mem_shift_last _ _, ?_⟩
    rcases List.mem_append.mp hx with hin | hlast
    · exact Nat.le_of_lt ((increasing_concat.mp h).2 x hin)
    · rw [List.mem_singleton.mp hlast]

/-- A history holds the latest of the events accepted so far. -/
structure Logged (tr : Trace) (s : Instance) : Prop where
  history : ∀ id, s.service.historyOf id = latest (acceptedIn id tr)
  increasing : ∀ id, Increasing (acceptedIn id tr)

section
variable {parse : String → Number} {s s' : Instance} {tr : Trace} {ev : Event}

theorem history_subscribe (s : OrderNotifyService) (id sid : Nat) : (s.subscribe id sid).1.history = s.history := by
  unfold OrderNotifyService.subscribe
  split <;> rfl

theorem Logged.historyIncreasing (h : Logged tr s) (id : Nat) : Increasing (s.service.historyOf id) := by
  rw [h.history]
  exact (h.increasing id).drop

theorem Logged.newer (h : Logged tr s) {e : OrderStatusEvent} (ha : s.service.accepts e = true) :
    ∀ x ∈ acceptedIn e.orderId tr, x.id < e.id := by
  intro x hx
  obtain ⟨y, hy, hle⟩ := (h.increasing _).le_latest hx
  have hlt := (accepts_iff (h.historyIncreasing _)).mp ha y (h.history _ ▸ hy)
  omega

theorem Logged.same (h : Logged tr s) (hhistory : s'.service.history = s.service.history)
    (hno : ∀ id, ev.accepted? id s = none) : Logged (tr ++ [(s, ev)]) s' := by
  have hsame : ∀ id, acceptedIn id (tr ++ [(s, ev)]) = acceptedIn id tr := by
    intro id
    rw [acceptedIn_snoc, hno, Option.toList_none, List.append_nil]
  refine ⟨fun id => ?_, fun id => ?_⟩
  · rw [hsame, ← h.history]
    exact congrArg (fun history : Nat → Option (List OrderStatusEvent) => (history id).getD []) hhistory
  · rw [hsame]
    exact h.increasing id

theorem logged_step (h : Logged tr s) (hs : Step parse s ev s') : Logged (tr ++ [(s, ev)]) s' := by
  cases hs with
  | @record e =>
    refine ⟨fun id => ?_, fun id => ?_⟩
    · rw [Instance.service_record, historyOf_record, acceptedIn_snoc]
      by_cases hc : s.service.accepts e = true ∧ e.orderId = id
      · rw [if_pos hc, accepted?_record hc.1 hc.2, h.history, shift_latest]
        rfl
      · rw [if_neg hc, accepted?_record_none fun hn => hc hn.symm, Option.toList_none, List.append_nil, h.history]
    · rw [acceptedIn_snoc]
      by_cases hc : s.service.accepts e = true ∧ e.orderId = id
      · rw [accepted?_record hc.1 hc.2]
        exact increasing_concat.mpr ⟨h.increasing id, hc.2 ▸ h.newer hc.1⟩
      · rw [accepted?_record_none fun hn => hc hn.symm, Option.toList_none, List.append_nil]
        exact h.increasing id
  | connect _ => exact h.same (history_subscribe _ _ _) fun _ => rfl
  | disconnect _ _ => exact h.same rfl fun _ => rfl

/-- A stream only opens with a natural number as its `Last-Event-ID`. -/
theorem lastEventId_of_connect {header : Option String} {sid id : Nat} (hs : Step parse s (.connect sid id header) s') :
    ∃ last : Nat, lastEventId parse header = .finite last := by
  cases hs with
  | connect _ _ hguard => exact OrderAccessGuard.lastEventId_of_canActivate hguard

theorem lastEventId_ne_nan {header : Option String} {sid id : Nat} (hs : Step parse s (.connect sid id header) s') :
    lastEventId parse header ≠ .nan := by
  obtain ⟨last, hlast⟩ := lastEventId_of_connect hs
  rw [hlast]
  exact Number.noConfusion

theorem wired_step (h : s.Wired) (hs : Step parse s ev s') : s'.Wired := by
  cases hs with
  | record => exact Instance.wired_record h _
  | connect hnew => exact Instance.wired_events h hnew _
  | disconnect hat hopen => exact Instance.wired_close h hat hopen

theorem wired_run (hr : Run (Step parse) .start tr s) : s.Wired :=
  hr.invariant Instance.wired_start fun h hs => wired_step h hs

theorem logged_run (hr : Run (Step parse) .start tr s) : Logged tr s := by
  induction hr with
  | nil => exact ⟨fun _ => rfl, fun _ => List.Pairwise.nil⟩
  | snoc _ hs ih => exact logged_step ih hs

end

/-- A stream of order `id` that was opened with `last` when the history was `found`. -/
structure Follows (sid id : Nat) (last : Number) (found : List OrderStatusEvent) (tr : Trace) (s : Instance)
    (stream : Stream) : Prop where
  at_sid : s.streams sid = some stream
  orderId : stream.orderId = id
  lastEventId : stream.lastEventId = last
  steady : stream.Steady
  emitted : stream.emitted = (found.filter fun e => last.below e.id) ++
    (recordedIn sid id tr).filter fun e => !last.covers e.id
  behind : ∀ x ∈ stream.emitted, ∃ y ∈ s.service.historyOf id, x.id ≤ y.id

section
variable {parse : String → Number} {s s' : Instance} {past tr : Trace} {ev : Event} {sid id : Nat} {last : Number}
  {found : List OrderStatusEvent} {stream : Stream}

/-- A stream that was just opened has emitted what the history had for it. -/
theorem follows_connect (hl : Logged past s) :
    ∃ stream, Follows sid id last (s.service.historyOf id) [] (s.events sid id last) stream := by
  have hhistory : ∀ order, (s.service.subscribe id sid).1.historyOf order = s.service.historyOf order := fun order =>
    congrArg (fun history : Nat → Option (List OrderStatusEvent) => (history order).getD [])
      (history_subscribe s.service id sid)
  have hafter : (s.service.subscribe id sid).1.getAfter id last =
      (s.service.historyOf id).filter fun e => last.below e.id := by
    unfold OrderNotifyService.getAfter
    rw [hhistory]
  have hempty : Stream.Steady ⟨id, last, last, (s.service.subscribe id sid).2, [], true⟩ :=
    ⟨rfl, List.Pairwise.nil, nofun⟩
  have hincreasing : Increasing ([] ++ (s.service.subscribe id sid).1.getAfter id last) := by
    rw [hafter]
    exact (hl.historyIncreasing id).filter _
  obtain ⟨hsteady, hreplay⟩ := Stream.replay hempty hincreasing
  obtain ⟨horder, hlast, _, _⟩ := Stream.foldl_writeEvent ((s.service.subscribe id sid).1.getAfter id last)
    ⟨id, last, last, (s.service.subscribe id sid).2, [], true⟩
  have hemitted : (((s.service.subscribe id sid).1.getAfter id last).foldl Stream.writeEvent
      ⟨id, last, last, (s.service.subscribe id sid).2, [], true⟩).emitted =
      (s.service.historyOf id).filter fun e => last.below e.id := by
    rw [hreplay, List.nil_append, hafter, List.filter_filter]
    refine List.filter_congr fun e _ => ?_
    cases hb : last.below e.id with
    | false => simp
    | true => simp [Number.not_covers_of_below hb]
  refine ⟨_, Function.update_self .., horder, hlast, hsteady, ?_, fun x hx => ?_⟩
  · exact hemitted.trans (List.append_nil _).symm
  · change ∃ y ∈ (s.service.subscribe id sid).1.historyOf id, _
    rw [hemitted] at hx
    rw [hhistory]
    exact ⟨x, (List.mem_filter.mp hx).1, Nat.le_refl _⟩

theorem Follows.kept (h : Follows sid id last found tr s stream) (hat : s'.streams sid = some stream)
    (hno : ev.accepted? id s = none) (hhistory : s'.service.historyOf id = s.service.historyOf id) :
    Follows sid id last found (tr ++ [(s, ev)]) s' stream := by
  refine ⟨hat, h.orderId, h.lastEventId, h.steady, ?_, hhistory ▸ h.behind⟩
  rw [recordedIn_snoc, hno, Option.toList_none, ite_self, List.append_nil]
  exact h.emitted

theorem follows_record (h : Follows sid id last found tr s stream) (hw : s.Wired) (hl : Logged past s)
    (e : OrderStatusEvent) : ∃ stream', Follows sid id last found (tr ++ [(s, .record e)]) (s.record e) stream' := by
  have hat := hw.streams_record (e := e) h.at_sid
  have hhistory : (s.record e).service.historyOf id = if s.service.accepts e = true ∧ e.orderId = id then
      shift (s.service.historyOf id ++ [e]) else s.service.historyOf id := by
    rw [Instance.service_record, historyOf_record]
  by_cases hc : s.service.accepts e = true ∧ e.orderId = id
  · have hnew : ∀ x ∈ stream.emitted, x.id < e.id := by
      intro x hx
      obtain ⟨y, hy, hle⟩ := h.behind x hx
      have hlt := (accepts_iff (hl.historyIncreasing _)).mp hc.1 y (hc.2 ▸ hy)
      omega
    have hlast : e ∈ (s.record e).service.historyOf id := by
      rw [hhistory, if_pos hc]
      exact mem_shift_last _ _
    have hopen : s.isOpen sid = stream.isOpen := by
      unfold Instance.isOpen
      rw [h.at_sid]
      rfl
    by_cases ho : stream.isOpen = true
    · rw [if_pos ⟨hc.1, ho, h.orderId.trans hc.2.symm⟩] at hat
      refine ⟨_, hat, by simp [h.orderId], by simp [h.lastEventId], Stream.steady_writeEvent h.steady hnew, ?_,
        fun x hx => ⟨e, hlast, ?_⟩⟩
      · rw [recordedIn_snoc, hopen, if_pos ho, accepted?_record hc.1 hc.2, Stream.emitted_writeEvent h.steady hnew,
          h.emitted, h.lastEventId, List.filter_append, List.append_assoc]
        rfl
      · rw [Stream.emitted_writeEvent h.steady hnew] at hx
        rcases List.mem_append.mp hx with hold | hin
        · exact Nat.le_of_lt (hnew x hold)
        · rw [List.mem_singleton.mp (List.mem_filter.mp hin).1]
    · rw [if_neg fun hn => ho hn.2.1] at hat
      refine ⟨stream, hat, h.orderId, h.lastEventId, h.steady, ?_, fun x hx =>
        ⟨e, hlast, Nat.le_of_lt (hnew x hx)⟩⟩
      rw [recordedIn_snoc, hopen, if_neg ho, List.append_nil]
      exact h.emitted
  · rw [if_neg fun hn => hc ⟨hn.1, hn.2.2.symm.trans h.orderId⟩] at hat
    refine ⟨stream, h.kept hat (accepted?_record_none fun hn => hc hn.symm) ?_⟩
    rw [hhistory, if_neg hc]

theorem follows_step (h : Follows sid id last found tr s stream) (hw : s.Wired) (hl : Logged past s)
    (hs : Step parse s ev s') : ∃ stream', Follows sid id last found (tr ++ [(s, ev)]) s' stream' := by
  cases hs with
  | record => exact follows_record h hw hl _
  | @connect other order header _ _ _ hnew _ _ =>
    have hne : sid ≠ other := by
      rintro rfl
      rw [h.at_sid] at hnew
      cases hnew
    refine ⟨stream, h.kept ((Function.update_of_ne hne ..).trans h.at_sid) rfl ?_⟩
    exact congrArg (fun history : Nat → Option (List OrderStatusEvent) => (history id).getD [])
      (history_subscribe s.service order other)
  | @disconnect other closed hat _ =>
    by_cases he : sid = other
    · subst he
      rw [h.at_sid] at hat
      cases hat
      refine ⟨{ stream with isOpen := false }, Function.update_self .., h.orderId, h.lastEventId,
        ⟨h.steady.tracks, h.steady.increasing, h.steady.uncovered⟩, ?_, h.behind⟩
      rw [recordedIn_snoc]
      change stream.emitted = _ ++ List.filter _ (_ ++ if _ then [] else [])
      rw [ite_self, List.append_nil]
      exact h.emitted
    · exact ⟨stream, h.kept ((Function.update_of_ne he ..).trans h.at_sid) rfl rfl⟩

/-- Whatever happens after it was opened. -/
theorem follows_run {s₀ s₁ : Instance} {header : Option String} (hr : Run (Step parse) .start past s₀)
    (hc : Step parse s₀ (.connect sid id header) s₁) (hmore : Run (Step parse) s₁ tr s) :
    ∃ stream, Follows sid id (lastEventId parse header) (s₀.service.historyOf id) tr s stream := by
  induction hmore with
  | nil =>
    cases hc with
    | connect _ => exact follows_connect (logged_run hr)
  | snoc hmore hs ih =>
    obtain ⟨stream, hf⟩ := ih
    have hrun := (hr.snoc hc).append hmore
    exact follows_step hf (wired_run hrun) (logged_run hrun) hs

end

end MarketplaceApi.Notify
