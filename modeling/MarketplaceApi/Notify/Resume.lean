import Mathlib.Data.List.Infix
import MarketplaceApi.Notify.Gateway

/-!
# Resuming a stream

A client reopens with the last id it has. What it missed is a suffix of what the instance has
accepted, so the history still has it unless more than the limit was accepted since.
-/
namespace MarketplaceApi.Notify

open Transition OrderNotifyService

section
variable {events : List OrderStatusEvent} {x e : OrderStatusEvent} {last : Number}

/-- Events a history has lost are older than more events than it keeps. -/
theorem lost_filter (h : Increasing events)
    (hfew : (events.filter fun e => last.below e.id).length ≤ orderEventHistoryLimit) :
    (events.take (events.length - orderEventHistoryLimit)).filter (fun e => last.below e.id) = [] := by
  refine List.filter_eq_nil_iff.mpr fun x hx hbelow => ?_
  have hsplit := List.take_append_drop (events.length - orderEventHistoryLimit) events
  have hlong : 0 < events.length - orderEventHistoryLimit := by
    refine Nat.pos_of_ne_zero fun hzero => ?_
    rw [hzero] at hx
    cases hx
  have hkept : ∀ y ∈ latest events, last.below y.id = true := by
    intro y hy
    refine Number.below_mono hbelow (Nat.le_of_lt ?_)
    rw [← hsplit] at h
    exact (List.pairwise_append.mp h).2.2 x hx y hy
  have hcount : 0 < ((events.take (events.length - orderEventHistoryLimit)).filter fun e => last.below e.id).length :=
    List.length_pos_of_mem (List.mem_filter.mpr ⟨hx, hbelow⟩)
  have hall : (latest events).filter (fun e => last.below e.id) = latest events := List.filter_eq_self.mpr hkept
  have hlength : (latest events).length = orderEventHistoryLimit := by
    unfold latest
    rw [List.length_drop]
    omega
  have htotal := congrArg (fun l => (l.filter fun e => last.below e.id).length) hsplit
  change ((_ ++ latest events).filter _).length = _ at htotal
  rw [List.filter_append, List.length_append, hall, hlength] at htotal
  omega

theorem latest_filter (h : Increasing events)
    (hfew : (events.filter fun e => last.below e.id).length ≤ orderEventHistoryLimit) :
    (latest events).filter (fun e => last.below e.id) = events.filter fun e => last.below e.id := by
  have hsplit := congrArg (List.filter fun e => last.below e.id)
    (List.take_append_drop (events.length - orderEventHistoryLimit) events)
  rw [List.filter_append, lost_filter h hfew, List.nil_append] at hsplit
  exact hsplit

/-- The `Last-Event-ID` of a client that has received these events. -/
def resumed (last : Number) (received : List OrderStatusEvent) : Number :=
  received.getLast?.elim last fun e => .finite e.id

/-- What was received comes before what the new `Last-Event-ID` lets through. -/
theorem received_filter {received : List OrderStatusEvent} (h : Increasing events)
    (hr : received <+: events.filter fun e => last.below e.id) :
    received ++ (events.filter fun e => (resumed last received).below e.id) =
      events.filter fun e => last.below e.id := by
  rcases List.eq_nil_or_concat received with rfl | ⟨init, x, rfl⟩
  · rfl
  · rw [List.concat_eq_append] at hr ⊢
    obtain ⟨rest, hrest⟩ := hr
    have hresumed : resumed last (init ++ [x]) = .finite x.id := by
      unfold resumed
      rw [List.getLast?_concat]
      rfl
    have hincreasing : Increasing (init ++ [x] ++ rest) := hrest ▸ h.filter _
    have hbelow : last.below x.id = true := by
      have hin : x ∈ events.filter fun e => last.below e.id := by
        rw [← hrest]
        exact List.mem_append_left _ (List.mem_append_right _ (List.mem_singleton_self x))
      exact (List.mem_filter.mp hin).2
    have hlater : events.filter (fun e => (resumed last (init ++ [x])).below e.id) =
        (init ++ [x] ++ rest).filter fun e => decide (x.id < e.id) := by
      rw [hrest, List.filter_filter, hresumed]
      refine List.filter_congr fun e _ => ?_
      rw [Number.below_nat]
      by_cases hlt : x.id < e.id
      · simp [hlt, Number.below_mono hbelow (Nat.le_of_lt hlt)]
      · simp [hlt]
    obtain ⟨hfirst, _, hcross⟩ := List.pairwise_append.mp hincreasing
    have hold : (init ++ [x]).filter (fun e => decide (x.id < e.id)) = [] := by
      refine List.filter_eq_nil_iff.mpr fun e he => ?_
      rw [decide_eq_true_eq]
      rcases List.mem_append.mp he with hin | hlast
      · have hlt := (increasing_concat.mp hfirst).2 e hin
        omega
      · rw [List.mem_singleton.mp hlast]
        omega
    have hnew : rest.filter (fun e => decide (x.id < e.id)) = rest :=
      List.filter_eq_self.mpr fun e he => decide_eq_true
        (hcross x (List.mem_append_right _ (List.mem_singleton_self x)) e he)
    rw [hlater, List.filter_append, hold, hnew, List.nil_append]
    exact hrest

end

section
variable {parse : String → Number} {s s' s₀ s₁ : Instance} {past tr : Trace} {ev : Event} {sid id : Nat}
  {header : Option String} {stream : Stream}

/-- A stream that is open was open before. -/
theorem open_before (hw : s.Wired) (hs : Step parse s ev s') (hat : s.streams sid = some stream)
    (ho : s'.isOpen sid = true) : s.isOpen sid = true := by
  have hopen : s.isOpen sid = stream.isOpen := by
    unfold Instance.isOpen
    rw [hat]
    rfl
  rw [hopen]
  unfold Instance.isOpen at ho
  cases hs with
  | @record e =>
    rw [hw.streams_record hat, Option.any_some] at ho
    split at ho
    · rwa [Stream.writeEvent_isOpen] at ho
    · exact ho
  | @connect other order header _ _ _ hnew _ _ =>
    have hne : sid ≠ other := by
      rintro rfl
      rw [hat] at hnew
      cases hnew
    rwa [show (s.events other order (lastEventId parse header)).streams sid = s.streams sid from
      Function.update_of_ne hne .., hat, Option.any_some] at ho
  | @disconnect other closed hclosed _ =>
    by_cases he : sid = other
    · subst he
      rw [show (s.close sid closed).streams sid = some { closed with isOpen := false } from Function.update_self ..,
        Option.any_some] at ho
      cases ho
    · rwa [show (s.close other closed).streams sid = s.streams sid from Function.update_of_ne he .., hat,
        Option.any_some] at ho

/-- What is recorded while the stream is open is the first part of what is recorded since it
was opened, and all of it as long as it is open. -/
theorem recorded_first (hr : Run (Step parse) .start past s₀) (hc : Step parse s₀ (.connect sid id header) s₁)
    (hmore : Run (Step parse) s₁ tr s) :
    recordedIn sid id tr <+: acceptedIn id tr ∧
      (s.isOpen sid = true → recordedIn sid id tr = acceptedIn id tr) := by
  induction hmore with
  | nil => exact ⟨List.prefix_rfl, fun _ => rfl⟩
  | @snoc tr t t' ev hmore hs ih =>
    obtain ⟨stream, hf⟩ := follows_run hr hc hmore
    have hw := wired_run ((hr.snoc hc).append hmore)
    rw [recordedIn_snoc, acceptedIn_snoc]
    by_cases ho : t.isOpen sid = true
    · rw [if_pos ho, ih.2 ho]
      exact ⟨List.prefix_rfl, fun _ => rfl⟩
    · rw [if_neg ho, List.append_nil]
      exact ⟨ih.1.trans (List.prefix_append _ _), fun h => absurd (open_before hw hs hf.at_sid h) ho⟩

theorem filter_covers {last : Number} (h : last ≠ .nan) (events : List OrderStatusEvent) :
    (events.filter fun e => !last.covers e.id) = events.filter fun e => last.below e.id := by
  refine List.filter_congr fun e _ => ?_
  rw [Number.covers_eq h, Bool.not_not]

end

/-- The header `EventSource` sends: the last id it has received, else what it was opened with. -/
def resumeHeader (header : Option String) (received : List OrderStatusEvent) : Option String :=
  received.getLast?.elim header fun e => some (toString e.id)

/-- `Number` reads back the ids the client has received. -/
def ReadsIds (parse : String → Number) (received : List OrderStatusEvent) : Prop :=
  ∀ e ∈ received, parse (toString e.id) = .finite e.id

theorem lastEventId_resume {parse : String → Number} {header : Option String} {received : List OrderStatusEvent}
    (h : ReadsIds parse received) :
    lastEventId parse (resumeHeader header received) = resumed (lastEventId parse header) received := by
  unfold resumeHeader resumed
  cases hlast : received.getLast? with
  | none => rfl
  | some last => exact h last (List.mem_of_getLast? hlast)

/-- A stream emits exactly the events after `Last-Event-ID` of the history it finds and of what is
recorded while it is open, in increasing order. -/
def EmitsExactly (parse : String → Number) (header : Option String) : Prop :=
  ∀ tr s s' tr' s'' sid id, Run (Step parse) .start tr s → Step parse s (.connect sid id header) s' →
    Run (Step parse) s' tr' s'' → ∃ stream, s''.streams sid = some stream ∧
      stream.emitted = (s.service.historyOf id ++ recordedIn sid id tr').filter
        (fun e => (lastEventId parse header).below e.id) ∧
      Increasing stream.emitted

/-- A client that reopens on the same instance with the last id of what it has received sees every
event since the history it first found exactly once, if the instance has accepted at most
`ORDER_EVENT_HISTORY_LIMIT` events after that id when it reopens. -/
def ResumesHere (parse : String → Number) (header : Option String) : Prop :=
  ∀ tr s s₁ tr₁ s₂ s₃ tr₂ s₄ sid sid' id first received,
    Run (Step parse) .start tr s → Step parse s (.connect sid id header) s₁ → Run (Step parse) s₁ tr₁ s₂ →
    s₂.streams sid = some first → received <+: first.emitted → ReadsIds parse received →
    Step parse s₂ (.connect sid' id (resumeHeader header received)) s₃ → Run (Step parse) s₃ tr₂ s₄ →
    s₄.isOpen sid' = true →
    ((acceptedIn id (tr ++ tr₁)).filter fun e =>
      (lastEventId parse (resumeHeader header received)).below e.id).length ≤ orderEventHistoryLimit →
    ∃ second, s₄.streams sid' = some second ∧
      received ++ second.emitted = (s.service.historyOf id ++ acceptedIn id (tr₁ ++ tr₂)).filter
        (fun e => (lastEventId parse header).below e.id) ∧
      Increasing (received ++ second.emitted)

section
variable {parse : String → Number} {header : Option String}

theorem emits_exactly : EmitsExactly parse header := by
  intro tr s s' tr' s'' sid id hr hc hmore
  obtain ⟨stream, hf⟩ := follows_run hr hc hmore
  refine ⟨stream, hf.at_sid, ?_, hf.steady.increasing⟩
  rw [hf.emitted, filter_covers (lastEventId_ne_nan hc), ← List.filter_append]

/-- A stream that is still open has emitted what its instance has accepted after its id. -/
theorem emits_accepted {past tr : Trace} {s₀ s₁ s : Instance} {sid id : Nat}
    (hr : Run (Step parse) .start past s₀) (hc : Step parse s₀ (.connect sid id header) s₁)
    (hmore : Run (Step parse) s₁ tr s) (hopen : s.isOpen sid = true)
    (hfew : ((acceptedIn id past).filter fun e => (lastEventId parse header).below e.id).length ≤
      orderEventHistoryLimit) :
    ∃ stream, s.streams sid = some stream ∧
      stream.emitted = (acceptedIn id (past ++ tr)).filter fun e => (lastEventId parse header).below e.id := by
  obtain ⟨stream, hat, hemitted, _⟩ := emits_exactly _ _ _ _ _ _ _ hr hc hmore
  refine ⟨stream, hat, ?_⟩
  rw [hemitted, (recorded_first hr hc hmore).2 hopen, (logged_run hr).history, List.filter_append,
    latest_filter ((logged_run hr).increasing id) hfew, ← List.filter_append, acceptedIn_append]

theorem acceptedIn_connect {past tr : Trace} {s : Instance} {sid order id : Nat} {header : Option String} :
    acceptedIn id (past ++ [(s, .connect sid order header)] ++ tr) = acceptedIn id (past ++ tr) := by
  rw [acceptedIn_append, acceptedIn_append, acceptedIn_append]
  exact congrArg (· ++ acceptedIn id tr) (List.append_nil _)

theorem resumes_here : ResumesHere parse header := by
  intro tr s s₁ tr₁ s₂ s₃ tr₂ s₄ sid sid' id first received hr hc hr₁ hfirst hreceived hreads hc' hr₂ hopen
    hfew
  have hpast := (hr.snoc hc).append hr₁
  have hnow := (hpast.snoc hc').append hr₂
  obtain ⟨found, hf₁, hemitted₁, _⟩ := emits_exactly _ _ _ _ _ _ _ hr hc hr₁
  rw [hfirst] at hf₁
  cases hf₁
  have hlast : lastEventId parse (resumeHeader header received) = resumed (lastEventId parse header) received :=
    lastEventId_resume hreads
  have hcount : ((acceptedIn id (tr ++ [(s, .connect sid id header)] ++ tr₁)).filter fun e =>
      (lastEventId parse (resumeHeader header received)).below e.id).length ≤ orderEventHistoryLimit := by
    rw [acceptedIn_connect]
    exact hfew
  obtain ⟨second, hsecond, hemitted₂⟩ := emits_accepted hpast hc' hr₂ hopen hcount
  refine ⟨second, hsecond, ?_⟩
  have hlog := logged_run hnow
  have hall : acceptedIn id (tr ++ [(s, .connect sid id header)] ++ tr₁ ++ tr₂) =
      (acceptedIn id tr).take ((acceptedIn id tr).length - orderEventHistoryLimit) ++
        (s.service.historyOf id ++ acceptedIn id (tr₁ ++ tr₂)) := by
    rw [List.append_assoc, acceptedIn_connect, acceptedIn_append, (logged_run hr).history, ← List.append_assoc]
    exact congrArg (· ++ acceptedIn id (tr₁ ++ tr₂)) (List.take_append_drop _ _).symm
  have hincreasing := hlog.increasing id
  rw [acceptedIn_connect, hall] at hincreasing
  have hsince := (List.pairwise_append.mp hincreasing).2.1
  have hlost := lost_filter ((logged_run hr).increasing id) (le_trans (List.Sublist.length_le
    ((List.prefix_append (acceptedIn id tr) (acceptedIn id tr₁)).sublist.filter _)) (acceptedIn_append ▸ hfew))
  have hfirstPart : received <+: (s.service.historyOf id ++ acceptedIn id (tr₁ ++ tr₂)).filter
      fun e => (lastEventId parse header).below e.id := by
    rw [acceptedIn_append]
    refine hreceived.trans (hemitted₁ ▸ List.IsPrefix.filter _ ?_)
    exact (List.prefix_append_right_inj _).mpr ((recorded_first hr hc hr₁).1.trans (List.prefix_append _ _))
  have hboth : received ++ second.emitted = (s.service.historyOf id ++ acceptedIn id (tr₁ ++ tr₂)).filter
      fun e => (lastEventId parse header).below e.id := by
    rw [hemitted₂, hall, List.filter_append, hlost, List.nil_append, hlast]
    exact received_filter hsince hfirstPart
  exact ⟨hboth, hboth ▸ hsince.filter _⟩

end

section
variable {parse : String → Number} {s : Instance} {tr : Trace} {sid : Nat} {stream : Stream}

/-- A stream was opened at some point of the run. -/
theorem opened_run (hr : Run (Step parse) .start tr s) (hat : s.streams sid = some stream) :
    ∃ past s₀ s₁ id header more, Run (Step parse) .start past s₀ ∧ Step parse s₀ (.connect sid id header) s₁ ∧
      Run (Step parse) s₁ more s ∧ tr = past ++ [(s₀, .connect sid id header)] ++ more := by
  induction hr generalizing stream with
  | nil => cases hat
  | @snoc tr s s' ev hr hs ih =>
    cases hbefore : s.streams sid with
    | some old =>
      obtain ⟨past, s₀, s₁, id, header, more, hpast, hc, hmore, rfl⟩ := ih hbefore
      exact ⟨past, s₀, s₁, id, header, _, hpast, hc, hmore.snoc hs, List.append_assoc _ _ _⟩
    | none =>
      cases hs with
      | record =>
        rw [(wired_run hr).streams_record_none hbefore] at hat
        cases hat
      | @connect other id header _ _ _ hnew hpath hguard =>
        by_cases he : sid = other
        · subst he
          exact ⟨tr, s, _, id, header, [], hr, .connect hnew hpath hguard, .nil, (List.append_nil _).symm⟩
        · rw [show (s.events other id (lastEventId parse header)).streams sid = s.streams sid from
            Function.update_of_ne he .., hbefore] at hat
          cases hat
      | @disconnect other closed hclosed _ =>
        have he : sid ≠ other := by
          rintro rfl
          rw [hbefore] at hclosed
          cases hclosed
        rw [show (s.close other closed).streams sid = s.streams sid from Function.update_of_ne he .., hbefore] at hat
        cases hat

/-- A stream emits events that its instance has accepted, in increasing order, above its `Last-Event-ID`. -/
theorem emitted_accepted (hr : Run (Step parse) .start tr s) (hat : s.streams sid = some stream) :
    stream.Steady ∧ ∀ e ∈ stream.emitted, e ∈ acceptedIn stream.orderId tr := by
  obtain ⟨past, s₀, s₁, id, header, more, hpast, hc, hmore, rfl⟩ := opened_run hr hat
  obtain ⟨found, hf⟩ := follows_run hpast hc hmore
  obtain rfl := Option.some.inj (hat.symm.trans hf.at_sid)
  refine ⟨hf.steady, fun e he => ?_⟩
  rw [hf.orderId, acceptedIn_connect, acceptedIn_append]
  rw [hf.emitted] at he
  rcases List.mem_append.mp he with hfound | hrecorded
  · have hin := (List.mem_filter.mp hfound).1
    rw [(logged_run hpast).history] at hin
    exact List.mem_append_left _ (List.mem_of_mem_drop hin)
  · have hin := (List.mem_filter.mp hrecorded).1
    exact List.mem_append_right _ (((List.filter_sublist).filterMap _).subset hin)

end

end MarketplaceApi.Notify
