import MarketplaceApi.Notify.Stream

/-!
# Which streams an event reaches

The map of listeners and the streams agree: an accepted event of an order is written to every
open stream of the order, once, and to no other.
-/
namespace MarketplaceApi.Notify

namespace Instance

open OrderNotifyService

section
variable {s s' : Instance} {e : OrderStatusEvent} {sid : Nat} {stream : Stream}

theorem service_foldl (called : List Nat) (s : Instance) : (called.foldl (emitEvent e) s).service = s.service := by
  induction called generalizing s with
  | nil => rfl
  | cons sid called ih => exact ih (emitEvent e s sid)

theorem streams_foldl {called : List Nat} (h : called.Nodup) (s : Instance) (sid : Nat) :
    (called.foldl (emitEvent e) s).streams sid =
      if sid ∈ called then (s.streams sid).map fun stream => stream.writeEvent e else s.streams sid := by
  induction called generalizing s with
  | nil => rfl
  | cons first called ih =>
    obtain ⟨hfirst, hrest⟩ := List.nodup_cons.mp h
    rw [List.foldl_cons, ih hrest]
    by_cases he : sid = first
    · subst he
      rw [if_neg hfirst, if_pos List.mem_cons_self]
      exact Function.update_self ..
    · have hsame : (emitEvent e s first).streams sid = s.streams sid := Function.update_of_ne he ..
      rw [hsame]
      simp only [List.mem_cons, he, false_or]

/-- Every open stream is in the `Set` the map has for its order, and every such `Set` has only
open streams of its order, and at least one. -/
structure Wired (s : Instance) : Prop where
  joined : ∀ sid stream, s.streams sid = some stream → stream.isOpen = true →
    s.service.listeners stream.orderId = some stream.listeners ∧ sid ∈ s.service.sets stream.listeners
  members : ∀ id set, s.service.listeners id = some set → set < s.service.fresh ∧ s.service.sets set ≠ [] ∧
    (s.service.sets set).Nodup ∧ ∀ sid ∈ s.service.sets set, ∃ stream, s.streams sid = some stream ∧
      stream.isOpen = true ∧ stream.orderId = id ∧ stream.listeners = set

theorem wired_start : Wired start where
  joined _ _ h := nomatch h
  members _ _ h := nomatch h

/-- The `Set` of one order is not that of another. -/
theorem Wired.apart (h : s.Wired) {id id' set : Nat} (hset : s.service.listeners id = some set)
    (hset' : s.service.listeners id' = some set) : id = id' := by
  obtain ⟨_, hne, _, hmembers⟩ := h.members id set hset
  obtain ⟨_, _, _, hmembers'⟩ := h.members id' set hset'
  obtain ⟨sid, hsid⟩ := List.exists_mem_of_ne_nil _ hne
  obtain ⟨stream, hs, _, hid, _⟩ := hmembers sid hsid
  obtain ⟨stream', hs', _, hid', _⟩ := hmembers' sid hsid
  rw [hs] at hs'
  cases hs'
  exact hid.symm.trans hid'

/-- The streams `record` writes to: the open ones of the order, if the event is accepted. -/
theorem Wired.called (h : s.Wired) (e : OrderStatusEvent) :
    (s.service.record e).2.Nodup ∧ ∀ sid, sid ∈ (s.service.record e).2 ↔ s.service.accepts e = true ∧
      ∃ stream, s.streams sid = some stream ∧ stream.isOpen = true ∧ stream.orderId = e.orderId := by
  unfold OrderNotifyService.record
  by_cases ha : s.service.accepts e = true
  · rw [if_pos ha]
    cases hset : s.service.listeners e.orderId with
    | none =>
      refine ⟨List.nodup_nil, fun sid => ⟨nofun, ?_⟩⟩
      rintro ⟨_, stream, hs, hopen, hid⟩
      have hjoined := (h.joined sid stream hs hopen).1
      rw [hid, hset] at hjoined
      cases hjoined
    | some set =>
      obtain ⟨_, _, hnodup, hmembers⟩ := h.members e.orderId set hset
      refine ⟨hnodup, fun sid => ⟨fun hin => ⟨ha, ?_⟩, ?_⟩⟩
      · obtain ⟨stream, hs, hopen, hid, _⟩ := hmembers sid hin
        exact ⟨stream, hs, hopen, hid⟩
      · rintro ⟨_, stream, hs, hopen, hid⟩
        obtain ⟨hjoined, hin⟩ := h.joined sid stream hs hopen
        rw [hid, hset] at hjoined
        cases hjoined
        exact hin
  · rw [if_neg ha]
    refine ⟨List.nodup_nil, fun sid => ⟨nofun, ?_⟩⟩
    rintro ⟨hacc, _⟩
    exact absurd hacc ha

/-- What `record` does to each stream. -/
theorem Wired.streams_record (h : s.Wired) (hs : s.streams sid = some stream) :
    (s.record e).streams sid =
      some (if s.service.accepts e = true ∧ stream.isOpen = true ∧ stream.orderId = e.orderId
        then stream.writeEvent e else stream) := by
  obtain ⟨hnodup, hcalled⟩ := h.called e
  unfold Instance.record
  rw [streams_foldl hnodup]
  change (if _ then (s.streams sid).map _ else s.streams sid) = _
  by_cases hc : s.service.accepts e = true ∧ stream.isOpen = true ∧ stream.orderId = e.orderId
  · rw [if_pos ((hcalled sid).mpr ⟨hc.1, stream, hs, hc.2⟩), if_pos hc, hs]
    rfl
  · rw [if_neg, if_neg hc, hs]
    intro hin
    obtain ⟨ha, other, he, hrest⟩ := (hcalled sid).mp hin
    rw [hs] at he
    cases he
    exact hc ⟨ha, hrest⟩

theorem Wired.streams_record_none (h : s.Wired) (hs : s.streams sid = none) : (s.record e).streams sid = none := by
  obtain ⟨hnodup, _⟩ := h.called e
  unfold Instance.record
  rw [streams_foldl hnodup]
  change (if _ then (s.streams sid).map _ else s.streams sid) = _
  rw [hs]
  split <;> rfl

theorem wired_record (h : s.Wired) (e : OrderStatusEvent) : (s.record e).Wired := by
  obtain ⟨hlisteners, hsets, hfresh⟩ := record_listeners s.service e
  have hservice : (s.record e).service = (s.service.record e).1 := service_foldl _ _
  refine ⟨fun sid stream hs hopen => ?_, fun id set hset => ?_⟩
  · cases hold : s.streams sid with
    | none =>
      rw [h.streams_record_none hold] at hs
      cases hs
    | some old =>
      rw [h.streams_record hold] at hs
      have hsame : stream.orderId = old.orderId ∧ stream.listeners = old.listeners ∧
          stream.isOpen = old.isOpen := by
        cases hs
        split
        · simp
        · exact ⟨rfl, rfl, rfl⟩
      rw [hservice, hlisteners, hsets, hsame.1, hsame.2.1]
      exact h.joined sid old hold (hsame.2.2 ▸ hopen)
  · rw [hservice, hlisteners] at hset
    obtain ⟨hlt, hne, hnodup, hmembers⟩ := h.members id set hset
    rw [hservice, hsets, hfresh]
    refine ⟨hlt, hne, hnodup, fun sid hin => ?_⟩
    obtain ⟨stream, hs, hopen, hid, hl⟩ := hmembers sid hin
    refine ⟨_, h.streams_record hs, ?_⟩
    split
    · simp [hopen, hid, hl]
    · exact ⟨hopen, hid, hl⟩

/-- A stream that is added to a `Set`: the one of the map, or a new object. -/
theorem subscribe_spec (h : s.Wired) (id sid : Nat) (hnew : s.streams sid = none) :
    ∃ set, (s.service.subscribe id sid).2 = set ∧ (s.service.subscribe id sid).1.history = s.service.history ∧
      (s.service.subscribe id sid).1.listeners = Function.update s.service.listeners id (some set) ∧
      set < (s.service.subscribe id sid).1.fresh ∧ s.service.fresh ≤ (s.service.subscribe id sid).1.fresh ∧
      (∀ other, other ≠ set → (s.service.subscribe id sid).1.sets other = s.service.sets other) ∧
      ((s.service.listeners id = none ∧ set = s.service.fresh ∧ (s.service.subscribe id sid).1.sets set = [sid]) ∨
        s.service.listeners id = some set ∧ sid ∉ s.service.sets set ∧
        (s.service.subscribe id sid).1.sets set = s.service.sets set ++ [sid]) := by
  unfold subscribe
  cases hset : s.service.listeners id with
  | none =>
    refine ⟨s.service.fresh, rfl, rfl, rfl, Nat.lt_succ_self _, Nat.le_succ _, fun other ho => ?_,
      Or.inl ⟨rfl, rfl, ?_⟩⟩
    · exact Function.update_of_ne ho ..
    · exact Function.update_self ..
  | some set =>
    obtain ⟨hlt, _, _, hmembers⟩ := h.members id set hset
    have hout : sid ∉ s.service.sets set := by
      intro hin
      obtain ⟨stream, hs, _⟩ := hmembers sid hin
      rw [hnew] at hs
      cases hs
    refine ⟨set, rfl, rfl, ?_, hlt, Nat.le_refl _, fun other ho => ?_, Or.inr ⟨rfl, hout, ?_⟩⟩
    · exact (Function.update_eq_self_iff.mpr hset.symm).symm
    · exact Function.update_of_ne ho ..
    · refine (Function.update_self ..).trans ?_
      exact if_neg hout

theorem wired_events (h : s.Wired) {id : Nat} (hnew : s.streams sid = none) (last : Number) :
    (s.events sid id last).Wired := by
  obtain ⟨set, hset, _, hlisteners, hfresh, hmore, hsets, hcase⟩ := subscribe_spec h id sid hnew
  have hstream : ∃ stream, (s.events sid id last).streams sid = some stream ∧ stream.isOpen = true ∧
      stream.orderId = id ∧ stream.listeners = set := by
    refine ⟨_, Function.update_self .., ?_⟩
    obtain ⟨horder, _, hl, hopen⟩ := Stream.foldl_writeEvent
      ((s.service.subscribe id sid).1.getAfter id last) ⟨id, last, last, (s.service.subscribe id sid).2, [], true⟩
    exact ⟨hopen, horder, hl.trans hset⟩
  have hother : ∀ other, other ≠ sid → (s.events sid id last).streams other = s.streams other := fun other ho =>
    Function.update_of_ne ho ..
  have hin : sid ∈ (s.service.subscribe id sid).1.sets set := by
    rcases hcase with ⟨_, _, hnew⟩ | ⟨_, _, hmem⟩
    · rw [hnew]
      exact List.mem_singleton_self sid
    · rw [hmem]
      exact List.mem_append_right _ (List.mem_singleton_self sid)
  refine ⟨fun other stream hs hopen => ?_, fun id' set' hset' => ?_⟩
  · change (s.service.subscribe id sid).1.listeners stream.orderId = _ ∧
      other ∈ (s.service.subscribe id sid).1.sets stream.listeners
    by_cases ho : other = sid
    · subst ho
      obtain ⟨mine, hmine, _, hid, hl⟩ := hstream
      rw [hmine] at hs
      cases hs
      rw [hlisteners, hid, hl, Function.update_self]
      exact ⟨rfl, hin⟩
    · rw [hother other ho] at hs
      obtain ⟨hjoined, hmember⟩ := h.joined other stream hs hopen
      by_cases hsame : stream.orderId = id
      · rcases hcase with ⟨hnone, _⟩ | ⟨hsome, _, happend⟩
        · rw [hsame, hnone] at hjoined
          cases hjoined
        · rw [hsame, hsome] at hjoined
          cases hjoined
          rw [hlisteners, hsame, Function.update_self, happend]
          exact ⟨rfl, List.mem_append_left _ hmember⟩
      · rw [hlisteners, Function.update_of_ne hsame, hsets]
        · exact ⟨hjoined, hmember⟩
        · rintro rfl
          rcases hcase with ⟨_, hfreshSet, _⟩ | ⟨hsome, _⟩
          · have hlt := (h.members _ _ hjoined).1
            omega
          · exact hsame (h.apart hjoined hsome)
  · change (s.service.subscribe id sid).1.listeners id' = some set' at hset'
    change set' < (s.service.subscribe id sid).1.fresh ∧ (s.service.subscribe id sid).1.sets set' ≠ [] ∧
      ((s.service.subscribe id sid).1.sets set').Nodup ∧ _
    rw [hlisteners] at hset'
    by_cases hid : id' = id
    · subst hid
      rw [Function.update_self] at hset'
      cases hset'
      refine ⟨hfresh, List.ne_nil_of_mem hin, ?_, ?_⟩
      · rcases hcase with ⟨_, _, hone⟩ | ⟨hsome, hout, happend⟩
        · rw [hone]
          exact List.nodup_singleton sid
        · rw [happend]
          exact List.nodup_append.mpr ⟨(h.members _ _ hsome).2.2.1, List.nodup_singleton sid, fun a ha b hb he =>
            hout (List.mem_singleton.mp hb ▸ he ▸ ha)⟩
      · intro other ho
        change other ∈ (s.service.subscribe id' sid).1.sets set at ho
        by_cases he : other = sid
        · exact he ▸ hstream
        · rcases hcase with ⟨_, _, hone⟩ | ⟨hsome, _, happend⟩
          · rw [hone] at ho
            exact absurd (List.mem_singleton.mp ho) he
          · rw [happend] at ho
            have hold := (List.mem_append.mp ho).resolve_right fun hlast => he (List.mem_singleton.mp hlast)
            obtain ⟨stream, hs, hrest⟩ := (h.members _ _ hsome).2.2.2 other hold
            exact ⟨stream, (hother other he).trans hs, hrest⟩
    · rw [Function.update_of_ne hid] at hset'
      obtain ⟨hlt, hne, hnodup, hmembers⟩ := h.members id' set' hset'
      have hapart : set' ≠ set := by
        rintro rfl
        rcases hcase with ⟨_, hfreshSet, _⟩ | ⟨hsome, _⟩
        · omega
        · exact hid (h.apart hset' hsome)
      rw [hsets set' hapart]
      refine ⟨by omega, hne, hnodup, fun other ho => ?_⟩
      change other ∈ (s.service.subscribe id sid).1.sets set' at ho
      rw [hsets set' hapart] at ho
      obtain ⟨stream, hs, hrest⟩ := hmembers other ho
      refine ⟨stream, (hother other fun he => ?_).trans hs, hrest⟩
      rw [he, hnew] at hs
      cases hs

theorem wired_close (h : s.Wired) (hs : s.streams sid = some stream) (hopen : stream.isOpen = true) :
    (s.close sid stream).Wired := by
  obtain ⟨hset, hin⟩ := h.joined sid stream hs hopen
  obtain ⟨hlt, _, hnodup, hmembers⟩ := h.members _ _ hset
  have hself : (s.close sid stream).streams sid = some { stream with isOpen := false } := Function.update_self ..
  have hother : ∀ other, other ≠ sid → (s.close sid stream).streams other = s.streams other := fun other ho =>
    Function.update_of_ne ho ..
  have hrest : ∀ other, other ∈ (s.service.sets stream.listeners).erase sid ↔
      other ≠ sid ∧ other ∈ s.service.sets stream.listeners := fun other => hnodup.mem_erase_iff
  have hsetSelf : (s.close sid stream).service.sets stream.listeners = (s.service.sets stream.listeners).erase sid :=
    Function.update_self ..
  have hsetOther : ∀ set, set ≠ stream.listeners → (s.close sid stream).service.sets set = s.service.sets set :=
    fun set hne => Function.update_of_ne hne ..
  have hlisteners : (s.close sid stream).service.listeners =
      if (s.service.sets stream.listeners).erase sid = [] then
        Function.update s.service.listeners stream.orderId none else s.service.listeners := rfl
  refine ⟨fun other o ho hoopen => ?_, fun id set hid => ?_⟩
  · by_cases he : other = sid
    · subst he
      rw [hself] at ho
      cases ho
      cases hoopen
    · rw [hother other he] at ho
      obtain ⟨hjoined, hmember⟩ := h.joined other o ho hoopen
      by_cases hsame : o.listeners = stream.listeners
      · have hleft : other ∈ (s.service.sets stream.listeners).erase sid :=
          (hrest other).mpr ⟨he, hsame ▸ hmember⟩
        rw [hlisteners, if_neg (List.ne_nil_of_mem hleft), hsame, hsetSelf]
        exact ⟨hsame ▸ hjoined, hleft⟩
      · have hid : o.orderId ≠ stream.orderId := by
          intro hid
          rw [hid, hset] at hjoined
          exact hsame (Option.some.inj hjoined).symm
        rw [hsetOther _ hsame, hlisteners]
        refine ⟨?_, hmember⟩
        split
        · rwa [Function.update_of_ne hid]
        · exact hjoined
  · have hold : s.service.listeners id = some set ∧
        (set = stream.listeners → (s.service.sets stream.listeners).erase sid ≠ []) := by
      rw [hlisteners] at hid
      split at hid
      · by_cases he : id = stream.orderId
        · rw [he, Function.update_self] at hid
          cases hid
        · rw [Function.update_of_ne he] at hid
          exact ⟨hid, fun hl => absurd (h.apart hid (hl ▸ hset)) he⟩
      · rename_i hne
        exact ⟨hid, fun _ => hne⟩
    obtain ⟨hlt', hne', hnodup', hmembers'⟩ := h.members id set hold.1
    by_cases hl : set = stream.listeners
    · subst hl
      rw [hsetSelf]
      refine ⟨hlt', hold.2 rfl, hnodup'.erase sid, fun other ho => ?_⟩
      obtain ⟨hne, hmember⟩ := (hrest other).mp ho
      obtain ⟨o, ho, hfields⟩ := hmembers' other hmember
      exact ⟨o, (hother other hne).trans ho, hfields⟩
    · rw [hsetOther set hl]
      refine ⟨hlt', hne', hnodup', fun other hmember => ?_⟩
      obtain ⟨o, ho, hoopen, hoid, hol⟩ := hmembers' other hmember
      refine ⟨o, (hother other fun he => ?_).trans ho, hoopen, hoid, hol⟩
      rw [he, hs] at ho
      cases ho
      exact hl hol.symm

theorem service_record (s : Instance) (e : OrderStatusEvent) : (s.record e).service = (s.service.record e).1 :=
  service_foldl _ _

end

end Instance

end MarketplaceApi.Notify
