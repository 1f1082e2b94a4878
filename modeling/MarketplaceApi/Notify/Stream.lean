import Mathlib.Data.List.Nodup
import MarketplaceApi.Notify.Service

/-!
# Streams and histories

What one stream does with an event that is newer than all it has emitted, and what one history
does with an event.
-/
namespace MarketplaceApi.Notify

/-- The ids grow strictly. -/
abbrev Increasing (events : List OrderStatusEvent) : Prop := events.Pairwise fun e e' => e.id < e'.id

section
variable {events : List OrderStatusEvent} {e x : OrderStatusEvent}

theorem increasing_concat : Increasing (events ++ [e]) ↔ Increasing events ∧ ∀ x ∈ events, x.id < e.id := by
  rw [Increasing, List.pairwise_append]
  simp

/-- The last event is the newest. -/
theorem Increasing.le_last (h : Increasing events) (hx : x ∈ events) :
    ∃ last, events.getLast? = some last ∧ x.id ≤ last.id := by
  rcases List.eq_nil_or_concat events with rfl | ⟨init, last, rfl⟩
  · cases hx
  · rw [List.concat_eq_append] at h hx ⊢
    refine ⟨last, List.getLast?_concat, ?_⟩
    rcases List.mem_append.mp hx with hin | hlast
    · exact Nat.le_of_lt ((increasing_concat.mp h).2 x hin)
    · rw [List.mem_singleton.mp hlast]

end

namespace Stream

/-- The last id sent is that of the last event emitted, and `Last-Event-ID` before there is one;
nothing it covers was emitted. -/
structure Steady (stream : Stream) : Prop where
  tracks : stream.lastSentId = stream.emitted.getLast?.elim stream.lastEventId fun last => .finite last.id
  increasing : Increasing stream.emitted
  uncovered : ∀ x ∈ stream.emitted, stream.lastEventId.covers x.id = false

section
variable {stream : Stream} {e : OrderStatusEvent}

@[simp] theorem writeEvent_orderId : (stream.writeEvent e).orderId = stream.orderId := by
  unfold writeEvent
  split <;> rfl

@[simp] theorem writeEvent_lastEventId : (stream.writeEvent e).lastEventId = stream.lastEventId := by
  unfold writeEvent
  split <;> rfl

@[simp] theorem writeEvent_listeners : (stream.writeEvent e).listeners = stream.listeners := by
  unfold writeEvent
  split <;> rfl

@[simp] theorem writeEvent_isOpen : (stream.writeEvent e).isOpen = stream.isOpen := by
  unfold writeEvent
  split <;> rfl

/-- What the last id sent covers is, of newer events, what `Last-Event-ID` covers. -/
theorem Steady.covers (h : stream.Steady) (hnew : ∀ x ∈ stream.emitted, x.id < e.id) :
    stream.lastSentId.covers e.id = stream.lastEventId.covers e.id := by
  rw [h.tracks]
  cases hlast : stream.emitted.getLast? with
  | none => rfl
  | some last =>
    have hin := List.mem_of_getLast? hlast
    have hlt := hnew last hin
    rw [Option.elim_some, Number.covers_nat, Number.not_covers_mono (h.uncovered last hin) (Nat.le_of_lt hlt)]
    exact decide_eq_false (by omega)

theorem emitted_writeEvent (h : stream.Steady) (hnew : ∀ x ∈ stream.emitted, x.id < e.id) :
    (stream.writeEvent e).emitted = stream.emitted ++ [e].filter fun e => !stream.lastEventId.covers e.id := by
  unfold writeEvent
  rw [h.covers hnew]
  cases hc : stream.lastEventId.covers e.id with
  | true => simp [hc]
  | false => simp [hc]

theorem steady_writeEvent (h : stream.Steady) (hnew : ∀ x ∈ stream.emitted, x.id < e.id) :
    (stream.writeEvent e).Steady := by
  have hcovers := h.covers hnew
  unfold writeEvent
  split
  · exact h
  · rename_i hsent
    refine ⟨?_, increasing_concat.mpr ⟨h.increasing, hnew⟩, fun x hx => ?_⟩
    · rw [List.getLast?_concat]
      rfl
    · rcases List.mem_append.mp hx with hold | hlast
      · exact h.uncovered x hold
      · rw [List.mem_singleton.mp hlast, ← hcovers]
        exact Bool.not_eq_true _ ▸ hsent

/-- Replaying a history. -/
theorem replay {events : List OrderStatusEvent} (h : stream.Steady) (hall : Increasing (stream.emitted ++ events)) :
    (events.foldl writeEvent stream).Steady ∧ (events.foldl writeEvent stream).emitted =
      stream.emitted ++ events.filter fun e => !stream.lastEventId.covers e.id := by
  induction events generalizing stream with
  | nil => exact ⟨h, (List.append_nil _).symm⟩
  | cons e events ih =>
    have hnew : ∀ x ∈ stream.emitted, x.id < e.id := fun x hx =>
      (List.pairwise_append.mp hall).2.2 x hx e List.mem_cons_self
    have hemitted := emitted_writeEvent h hnew
    have hrest : Increasing ((stream.writeEvent e).emitted ++ events) := by
      refine hall.sublist ?_
      rw [hemitted, List.append_assoc]
      exact (List.filter_sublist.append_right events).append_left _
    obtain ⟨hsteady, hfold⟩ := ih (steady_writeEvent h hnew) hrest
    refine ⟨hsteady, hfold.trans ?_⟩
    rw [hemitted, writeEvent_lastEventId, List.append_assoc, ← List.filter_append, List.singleton_append]

theorem foldl_writeEvent (events : List OrderStatusEvent) (stream : Stream) :
    (events.foldl writeEvent stream).orderId = stream.orderId ∧
      (events.foldl writeEvent stream).lastEventId = stream.lastEventId ∧
      (events.foldl writeEvent stream).listeners = stream.listeners ∧
      (events.foldl writeEvent stream).isOpen = stream.isOpen := by
  induction events generalizing stream with
  | nil => exact ⟨rfl, rfl, rfl, rfl⟩
  | cons e events ih => simpa using ih (stream.writeEvent e)

end

end Stream

/-- The latest events, as many as a history keeps. -/
def latest (events : List OrderStatusEvent) : List OrderStatusEvent :=
  events.drop (events.length - orderEventHistoryLimit)

namespace OrderNotifyService

section
variable {s : OrderNotifyService} {e : OrderStatusEvent}

theorem mem_shift_last (history : List OrderStatusEvent) (e : OrderStatusEvent) : e ∈ shift (history ++ [e]) := by
  unfold shift
  split
  · rename_i hlong
    cases history with
    | nil => exact absurd hlong (Nat.not_lt.mpr (Nat.le_of_ble_eq_true rfl))
    | cons first history => exact List.mem_append_right _ (List.mem_singleton_self e)
  · exact List.mem_append_right _ (List.mem_singleton_self e)

/-- Shifting a history of the latest events keeps the latest. -/
theorem shift_latest (events : List OrderStatusEvent) (e : OrderStatusEvent) :
    shift (latest events ++ [e]) = latest (events ++ [e]) := by
  have hlength : (latest events ++ [e]).length = events.length - (events.length - orderEventHistoryLimit) + 1 := by
    unfold latest
    rw [List.length_append, List.length_drop]
    rfl
  unfold shift
  rw [hlength]
  unfold latest orderEventHistoryLimit
  rw [List.length_append, List.length_singleton]
  split
  · rename_i hlong
    rw [List.tail_append_of_ne_nil, List.tail_drop, List.drop_append_of_le_length (by omega)]
    · rw [show events.length - 100 + 1 = events.length + 1 - 100 by omega]
    · intro hnil
      have hzero := List.drop_eq_nil_iff.mp hnil
      omega
  · rename_i hshort
    rw [show events.length - 100 = 0 by omega, show events.length + 1 - 100 = 0 by omega]
    rfl

theorem accepts_iff (h : Increasing (s.historyOf e.orderId)) :
    s.accepts e = true ↔ ∀ x ∈ s.historyOf e.orderId, x.id < e.id := by
  unfold accepts
  constructor
  · intro ha x hx
    obtain ⟨last, hlast, hle⟩ := h.le_last hx
    rw [hlast, Option.all_some, decide_eq_true_eq] at ha
    omega
  · intro hnew
    cases hlast : (s.historyOf e.orderId).getLast? with
    | none => rfl
    | some last => exact decide_eq_true (hnew last (List.mem_of_getLast? hlast))

theorem historyOf_record (s : OrderNotifyService) (e : OrderStatusEvent) (orderId : Nat) :
    (s.record e).1.historyOf orderId =
      if s.accepts e = true ∧ e.orderId = orderId then shift (s.historyOf orderId ++ [e])
      else s.historyOf orderId := by
  unfold record
  by_cases ha : s.accepts e = true
  · rw [if_pos ha]
    by_cases hid : e.orderId = orderId
    · subst hid
      rw [if_pos ⟨ha, rfl⟩]
      change (Function.update s.history e.orderId _ e.orderId).getD [] = _
      rw [Function.update_self, Option.getD_some]
    · rw [if_neg fun h => hid h.2]
      change (Function.update s.history e.orderId _ orderId).getD [] = _
      rw [Function.update_of_ne (Ne.symm hid)]
      rfl
  · rw [if_neg ha, if_neg fun h => ha h.1]

theorem record_listeners (s : OrderNotifyService) (e : OrderStatusEvent) :
    (s.record e).1.listeners = s.listeners ∧ (s.record e).1.sets = s.sets ∧ (s.record e).1.fresh = s.fresh := by
  unfold record
  split <;> exact ⟨rfl, rfl, rfl⟩

end

end OrderNotifyService

end MarketplaceApi.Notify
