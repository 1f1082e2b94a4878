import MarketplaceApi.RateLimit.Throttler

/-!
# The limiter is exact

The scores of the sorted set that are still within the window are the times of all calls that
were let through and are within it. So a call is answered as by a limiter that remembers every
call it let through.
-/
namespace MarketplaceApi.RateLimit

open Transition

/-- The answer at `t` of a limiter that remembers when calls were let through. -/
def reference (window limit : Nat) (allowed : List Nat) (t : Nat) : ThrottlerStorageRecord :=
  let earlier := within window t allowed
  let left := windowLeftSeconds ((earlier.headD t : Int) + window - t)
  if earlier.length < limit then ⟨earlier.length + 1, left, false, 0⟩ else ⟨earlier.length + 1, left, true, left⟩

/-- What the key still knows of the calls let through. -/
structure Keeps (window limit : Nat) (w : World) : Prop where
  past : ∀ time ∈ w.allowed, time ≤ now w.clock
  order : w.allowed.Pairwise (· ≤ ·)
  paced : Paced window limit w.allowed
  sorted : w.key.hits.Pairwise fun a b => a.score ≤ b.score
  behind : ∀ hit ∈ w.key.hits, hit.score ≤ now w.clock
  recent : ∀ t, now w.clock ≤ t →
    (w.key.hits.map Hit.score).filter (fun score => decide (t < score + window)) = within window t w.allowed
  expiry : ∀ at_, w.key.expiresAt = some at_ → ∀ hit ∈ w.key.hits, hit.score + window ≤ at_

section
variable {window limit time : Nat} {member : String} {w w' : World}

theorem keeps_start : Keeps window limit .start :=
  ⟨nofun, List.Pairwise.nil, paced_nil, List.Pairwise.nil, nofun, fun _ _ => rfl, nofun⟩

theorem within_later {times : List Nat} {t x : Nat} (hle : ∀ time ∈ times, time ≤ x) (hx : x ≤ t) :
    (within window x times).filter (fun time => decide (t < time + window)) = within window t times := by
  unfold within
  rw [List.filter_filter]
  apply List.filter_congr
  intro time hmem
  have hpast := hle time hmem
  rw [← Bool.decide_and, decide_eq_decide]
  omega

/-- What is left of the set once the script has removed what is outside the window. -/
def kept (window : Nat) (w : World) (time : Nat) : SortedSet := w.key.zremrangebyscore ((now time : Int) - window)

theorem mem_kept {hit : Hit} (h : hit ∈ (kept window w time).hits) : hit ∈ w.key.hits := by
  unfold kept at h
  rw [SortedSet.hits_zremrangebyscore] at h
  exact (List.mem_filter.mp h).1

theorem Keeps.scores_kept (h : Keeps window limit w) (ht : w.clock ≤ time) :
    (kept window w time).hits.map Hit.score = within window (now time) w.allowed := by
  unfold kept
  rw [SortedSet.hits_zremrangebyscore, ← h.recent (now time) (now_mono ht), List.filter_map]
  congr 1
  apply List.filter_congr
  intro hit _
  rw [Function.comp_apply, decide_eq_decide]
  omega

theorem Keeps.zcard_kept (h : Keeps window limit w) (ht : w.clock ≤ time) :
    (kept window w time).zcard = (within window (now time) w.allowed).length := by
  rw [← h.scores_kept ht, List.length_map]
  rfl

/-- The key after a call that was let through. -/
def added (window : Nat) (w : World) (time : Nat) (member : String) : SortedSet :=
  ((kept window w time).zadd (now time) member).pexpireat (now time + window)

theorem hits_added (hfresh : w.key.Fresh member) :
    (added window w time member).hits = SortedSet.place ⟨now time, member⟩ (kept window w time).hits := by
  have hsame : (kept window w time).hits.filter (fun hit => decide (hit.member ≠ member)) =
      (kept window w time).hits := by
    apply List.filter_eq_self.mpr
    intro hit hmem
    exact decide_eq_true (hfresh hit (mem_kept hmem))
  show SortedSet.place _ ((kept window w time).hits.filter _) = _
  rw [hsame]

theorem Keeps.scores_added (h : Keeps window limit w) (ht : w.clock ≤ time) (hfresh : w.key.Fresh member) :
    (added window w time member).hits.map Hit.score = within window (now time) w.allowed ++ [now time] := by
  have hsorted : (kept window w time).hits.Pairwise fun a b => a.score ≤ b.score := by
    unfold kept
    rw [SortedSet.hits_zremrangebyscore]
    exact h.sorted.filter _
  have hle : ∀ hit ∈ (kept window w time).hits, hit.score ≤ now time := fun hit hmem =>
    Nat.le_trans (h.behind hit (mem_kept hmem)) (now_mono ht)
  rw [hits_added hfresh, SortedSet.scores_place hsorted hle, h.scores_kept ht]

theorem script_allowed (hroom : (kept window w time).zcard < limit) :
    slidingWindowScript w.key window limit time member = (added window w time member,
      (added window w time member).oldest.map fun oldest =>
        ⟨1, (added window w time member).zcard, (oldest.score : Int) + window - now time⟩) := if_pos hroom

theorem script_blocked (hfull : ¬ (kept window w time).zcard < limit) :
    slidingWindowScript w.key window limit time member = (kept window w time,
      (kept window w time).oldest.map fun oldest =>
        ⟨0, (kept window w time).zcard, (oldest.score : Int) + window - now time⟩) := if_neg hfull

theorem oldest_score {key : SortedSet} {first : Nat} {rest : List Nat}
    (h : key.hits.map Hit.score = first :: rest) : ∃ hit, key.oldest = some hit ∧ hit.score = first := by
  obtain ⟨hit, hits, hkey, hscore, _⟩ := List.map_eq_cons_iff.mp h
  refine ⟨hit, ?_, hscore⟩
  unfold SortedSet.oldest
  rw [hkey]
  rfl

/-- `increment` answers as the reference does. -/
theorem Keeps.record (h : Keeps window limit w) (hlimit : 1 ≤ limit) (ht : w.clock ≤ time)
    (hfresh : w.key.Fresh member) :
    (increment w.key window limit time member).2 = some (reference window limit w.allowed (now time)) := by
  have hcard := h.zcard_kept ht
  unfold increment reference
  by_cases hroom : (within window (now time) w.allowed).length < limit
  · have hscores := h.scores_added ht hfresh
    have hzcard : (added window w time member).zcard = (within window (now time) w.allowed).length + 1 := by
      have hlength := congrArg List.length hscores
      rwa [List.length_map, List.length_append] at hlength
    have hhead : within window (now time) w.allowed ++ [now time] =
        (within window (now time) w.allowed).headD (now time) ::
          (within window (now time) w.allowed ++ [now time]).tail := by
      cases within window (now time) w.allowed <;> rfl
    obtain ⟨hit, holdest, hscore⟩ := oldest_score (hscores.trans hhead)
    rw [script_allowed (hcard ▸ hroom), holdest, if_pos hroom, hzcard, ← hscore]
    rfl
  · have hscores := h.scores_kept ht
    have hhead : within window (now time) w.allowed =
        (within window (now time) w.allowed).headD (now time) :: (within window (now time) w.allowed).tail := by
      cases hearlier : within window (now time) w.allowed with
      | nil =>
        rw [hearlier, List.length_nil] at hroom
        omega
      | cons _ _ => rfl
    obtain ⟨hit, holdest, hscore⟩ := oldest_score (hscores.trans hhead)
    rw [script_blocked (hcard ▸ hroom), holdest, if_neg hroom, hcard, ← hscore]
    rfl

theorem reference_allowed {allowed : List Nat} {t : Nat} (h : (within window t allowed).length < limit) :
    (reference window limit allowed t).isBlocked = false := congrArg ThrottlerStorageRecord.isBlocked (if_pos h)

theorem reference_blocked {allowed : List Nat} {t : Nat} (h : ¬ (within window t allowed).length < limit) :
    reference window limit allowed t = ⟨(within window t allowed).length + 1,
      windowLeftSeconds (((within window t allowed).headD t : Int) + window - t), true,
      windowLeftSeconds (((within window t allowed).headD t : Int) + window - t)⟩ := if_neg h

theorem reference_isBlocked (allowed : List Nat) (t : Nat) :
    (reference window limit allowed t).isBlocked = false ↔ (within window t allowed).length < limit := by
  by_cases hroom : (within window t allowed).length < limit
  · exact ⟨fun _ => hroom, fun _ => reference_allowed hroom⟩
  · rw [reference_blocked hroom]
    exact ⟨nofun, fun h => absurd h hroom⟩

theorem reference_totalHits (allowed : List Nat) (t : Nat) :
    limit < (reference window limit allowed t).totalHits ↔ (reference window limit allowed t).isBlocked = true := by
  have htotal : (reference window limit allowed t).totalHits = (within window t allowed).length + 1 := by
    unfold reference
    dsimp only
    split <;> rfl
  rw [htotal, ← Bool.not_eq_false, reference_isBlocked]
  omega

theorem Keeps.allowed_call (h : Keeps window limit w) (hlimit : 1 ≤ limit) (ht : w.clock ≤ time)
    (hfresh : w.key.Fresh member) :
    (w.call window limit time member).allowed =
      w.allowed ++ if (within window (now time) w.allowed).length < limit then [now time] else [] := by
  show w.allowed ++ (if _ then _ else _) = _
  rw [h.record hlimit ht hfresh, Option.any_some]
  by_cases hroom : (within window (now time) w.allowed).length < limit
  · rw [reference_allowed hroom, if_pos hroom]
    rfl
  · rw [reference_blocked hroom, if_neg hroom]
    rfl

theorem key_allowed (hroom : (kept window w time).zcard < limit) :
    (w.call window limit time member).key = added window w time member := congrArg Prod.fst (script_allowed hroom)

theorem key_blocked (hfull : ¬ (kept window w time).zcard < limit) :
    (w.call window limit time member).key = kept window w time := congrArg Prod.fst (script_blocked hfull)

theorem Keeps.past_now (h : Keeps window limit w) (ht : w.clock ≤ time) : ∀ x ∈ w.allowed, x ≤ now time :=
  fun x hx => Nat.le_trans (h.past x hx) (now_mono ht)

/-- A call that is let through puts its own time last. -/
theorem Keeps.call_allowed (h : Keeps window limit w) (hlimit : 1 ≤ limit) (ht : w.clock ≤ time)
    (hfresh : w.key.Fresh member) (hroom : (within window (now time) w.allowed).length < limit) :
    Keeps window limit (w.call window limit time member) := by
  have hallowed : (w.call window limit time member).allowed = w.allowed ++ [now time] := by
    rw [h.allowed_call hlimit ht hfresh, if_pos hroom]
  have hkey : (w.call window limit time member).key = added window w time member :=
    key_allowed (h.zcard_kept ht ▸ hroom)
  have hscores := h.scores_added ht hfresh
  have hpast := h.past_now ht
  have hmem : ∀ hit ∈ (added window w time member).hits,
      hit.score = now time ∨ hit.score ∈ within window (now time) w.allowed := by
    intro hit hin
    have hscore : hit.score ∈ (added window w time member).hits.map Hit.score := List.mem_map_of_mem hin
    rw [hscores, List.mem_append, List.mem_singleton] at hscore
    exact hscore.symm
  refine ⟨?_, ?_, ?_, ?_, ?_, ?_, ?_⟩
  · rw [hallowed]
    intro x hx
    rcases List.mem_append.mp hx with hold | hnew
    · exact hpast x hold
    · exact Nat.le_of_eq (List.mem_singleton.mp hnew)
  · rw [hallowed]
    apply List.pairwise_append.mpr
    refine ⟨h.order, List.pairwise_singleton _ _, fun x hx y hy => ?_⟩
    rw [List.mem_singleton.mp hy]
    exact hpast x hx
  · rw [hallowed]
    exact paced_concat h.paced hroom
  · rw [hkey, ← List.pairwise_map (R := fun a b => a ≤ b), hscores]
    apply List.pairwise_append.mpr
    refine ⟨h.order.filter _, List.pairwise_singleton _ _, fun x hx y hy => ?_⟩
    rw [List.mem_singleton.mp hy]
    exact hpast x (List.mem_filter.mp hx).1
  · rw [hkey]
    intro hit hin
    show hit.score ≤ now time
    rcases hmem hit hin with heq | hold
    · exact Nat.le_of_eq heq
    · exact hpast _ (List.mem_filter.mp hold).1
  · intro t hlater
    change now time ≤ t at hlater
    rw [hkey, hscores, hallowed, List.filter_append, within_later hpast hlater, within_concat, List.filter_cons,
      List.filter_nil]
    simp only [decide_eq_true_eq, hlater, true_and]
  · rw [hkey]
    intro at_ hat hit hin
    have hexpires : now time + window = at_ := Option.some.inj hat
    have hle : hit.score ≤ now time := by
      rcases hmem hit hin with heq | hold
      · exact Nat.le_of_eq heq
      · exact hpast _ (List.mem_filter.mp hold).1
    omega

/-- A blocked call only removes hits that are outside every later window. -/
theorem Keeps.call_blocked (h : Keeps window limit w) (hlimit : 1 ≤ limit) (ht : w.clock ≤ time)
    (hfresh : w.key.Fresh member) (hfull : ¬ (within window (now time) w.allowed).length < limit) :
    Keeps window limit (w.call window limit time member) := by
  have hallowed : (w.call window limit time member).allowed = w.allowed := by
    rw [h.allowed_call hlimit ht hfresh, if_neg hfull, List.append_nil]
  have hkey : (w.call window limit time member).key = kept window w time := key_blocked (h.zcard_kept ht ▸ hfull)
  have hpast := h.past_now ht
  refine ⟨?_, ?_, ?_, ?_, ?_, ?_, ?_⟩
  · rw [hallowed]
    exact hpast
  · rw [hallowed]
    exact h.order
  · rw [hallowed]
    exact h.paced
  · rw [hkey]
    unfold kept
    rw [SortedSet.hits_zremrangebyscore]
    exact h.sorted.filter _
  · rw [hkey]
    intro hit hin
    exact Nat.le_trans (h.behind hit (mem_kept hin)) (now_mono ht)
  · intro t hlater
    rw [hkey, hallowed, h.scores_kept ht]
    exact within_later hpast hlater
  · rw [hkey]
    intro at_ hat hit hin
    exact h.expiry at_ (SortedSet.expiresAt_zremrangebyscore hat) hit (mem_kept hin)

/-- At its expiry the key has no hit that is within a window. -/
theorem Keeps.expired (h : Keeps window limit w) {at_ : Nat} (hat : w.key.expiresAt = some at_) (hdue : at_ ≤ now time)
    (ht : w.clock ≤ time) : within window (now time) w.allowed = [] := by
  rw [← h.recent (now time) (now_mono ht)]
  apply List.filter_eq_nil_iff.mpr
  intro score hscore
  obtain ⟨hit, hin, rfl⟩ := List.mem_map.mp hscore
  have hout := h.expiry at_ hat hit hin
  rw [decide_eq_true_eq]
  omega

theorem keeps_step {ev : Event} (h : Keeps window limit w) (hlimit : 1 ≤ limit) (hs : Step window limit w ev w') :
    Keeps window limit w' := by
  cases hs with
  | call ht hfresh =>
    rename_i time member
    by_cases hroom : (within window (now time) w.allowed).length < limit
    · exact h.call_allowed hlimit ht hfresh hroom
    · exact h.call_blocked hlimit ht hfresh hroom
  | @expire time _ ht hat hdue =>
    have hpast := h.past_now ht
    refine ⟨hpast, h.order, h.paced, List.Pairwise.nil, nofun, fun t hlater => ?_, nofun⟩
    show [] = _
    rw [← within_later hpast hlater, h.expired hat hdue ht]
    rfl

theorem keeps_run {tr : List (World × Event)} (hlimit : 1 ≤ limit) (hr : Run (Step window limit) .start tr w) :
    Keeps window limit w := hr.invariant keeps_start fun h hs => keeps_step h hlimit hs

/-- The later removal leaves nothing that the earlier one would not. -/
theorem zremrangebyscore_twice (key : SortedSet) {max max' : Int} (h : max ≤ max') :
    (key.zremrangebyscore max).zremrangebyscore max' = key.zremrangebyscore max' := by
  have hhits : ((key.zremrangebyscore max).hits.filter fun hit => decide (max' < hit.score)) =
      key.hits.filter fun hit => decide (max' < hit.score) := by
    rw [SortedSet.hits_zremrangebyscore, List.filter_filter]
    apply List.filter_congr
    intro hit _
    rw [← Bool.decide_and, decide_eq_decide]
    omega
  show (if _ = [] then _ else _) = if _ = [] then _ else _
  rw [hhits]
  by_cases hnone : (key.hits.filter fun hit => decide (max' < hit.score)) = []
  · rw [if_pos hnone, if_pos hnone]
  · rw [if_neg hnone, if_neg hnone]
    have hsome : (key.hits.filter fun hit => decide (max < hit.score)) ≠ [] := by
      intro hempty
      rw [SortedSet.hits_zremrangebyscore, hempty] at hhits
      exact hnone hhits.symm
    have hkey : key.zremrangebyscore max =
        { key with hits := key.hits.filter fun hit => decide (max < hit.score) } := if_neg hsome
    rw [hkey]

/-- A blocked call changes no later answer. -/
theorem increment_kept {later : Nat} {other : String} (ht : time ≤ later) :
    increment (kept window w time) window limit later other = increment w.key window limit later other := by
  have hmono := now_mono ht
  unfold increment slidingWindowScript kept
  rw [zremrangebyscore_twice]
  omega

/-- When the oldest call of a full window is out, there is room. -/
theorem room_later {t later : Nat} (hpast : ∀ x ∈ w.allowed, x ≤ t)
    (hbound : (within window t w.allowed).length ≤ limit) (hlimit : 1 ≤ limit)
    (hout : ((within window t w.allowed).headD t) + window ≤ later) (hle : t ≤ later) :
    (within window later w.allowed).length < limit := by
  rw [← within_later hpast hle]
  cases hin : within window t w.allowed with
  | nil => exact hlimit
  | cons first rest =>
    rw [hin, List.length_cons] at hbound
    rw [hin, List.headD_cons] at hout
    have hgone : ¬ decide (later < first + window) = true := by
      rw [decide_eq_true_eq]
      omega
    rw [List.filter_cons, if_neg hgone]
    have hrest := List.length_filter_le (fun time => decide (later < time + window)) rest
    omega

theorem ms_le_seconds (ms : Int) : ms ≤ windowLeftSeconds ms * 1000 := by
  unfold windowLeftSeconds
  omega

theorem seconds_pos (ms : Int) : 1 ≤ windowLeftSeconds ms := by
  unfold windowLeftSeconds
  omega

end

/-- What the limiter of one key does in a state. -/
structure Exact (window limit : Nat) (w : World) : Prop where
  decided : ∀ time member, w.clock ≤ time → w.key.Fresh member → ∃ record,
    (increment w.key window limit time member).2 = some record ∧
    (record.isBlocked = false ↔ (within window (now time) w.allowed).length < limit) ∧
    (limit < record.totalHits ↔ record.isBlocked = true) ∧ record = reference window limit w.allowed (now time)
  windows : ∀ t, (within window t w.allowed).length ≤ limit
  blocked : ∀ time member record, w.clock ≤ time → w.key.Fresh member →
    (increment w.key window limit time member).2 = some record → record.isBlocked = true →
    (w.call window limit time member).allowed = w.allowed ∧ ∀ later other, time ≤ later →
      increment (w.call window limit time member).key window limit later other =
        increment w.key window limit later other
  expiry : ∀ time w', Step window limit w (.expire time) w' →
    (∀ hit ∈ w.key.hits, hit.score + window ≤ now time) ∧ within window (now time) w.allowed = []
  retry : ∀ time member record tr w' later other, w.clock ≤ time → w.key.Fresh member →
    (increment w.key window limit time member).2 = some record → record.isBlocked = true →
    Run (Step window limit) (w.call window limit time member) tr w' → w'.allowed = w.allowed →
    w'.clock ≤ later → time + record.timeToBlockExpire.toNat * 1000000 ≤ later → w'.key.Fresh other →
    ∃ record', (increment w'.key window limit later other).2 = some record' ∧ record'.isBlocked = false

section
variable {window limit : Nat} {tr : List (World × Event)} {w : World}

theorem Keeps.not_room (h : Keeps window limit w) (hlimit : 1 ≤ limit) {time : Nat} {member : String}
    {record : ThrottlerStorageRecord} (ht : w.clock ≤ time) (hfresh : w.key.Fresh member)
    (hrecord : (increment w.key window limit time member).2 = some record) (hblocked : record.isBlocked = true) :
    record = reference window limit w.allowed (now time) ∧ ¬ (within window (now time) w.allowed).length < limit := by
  have heq : record = reference window limit w.allowed (now time) :=
    Option.some.inj (hrecord.symm.trans (h.record hlimit ht hfresh))
  refine ⟨heq, fun hroom => ?_⟩
  rw [heq, reference_allowed hroom] at hblocked
  cases hblocked

/-- The sliding window of one key is exact in every state the calls of any pods lead to. -/
theorem sliding_window_exact (hlimit : 1 ≤ limit) (hr : Run (Step window limit) .start tr w) :
    Exact window limit w := by
  have hk := keeps_run hlimit hr
  refine ⟨?_, window_bound hk.order hk.paced, ?_, ?_, ?_⟩
  · intro time member ht hfresh
    exact ⟨_, hk.record hlimit ht hfresh, reference_isBlocked _ _, reference_totalHits _ _, rfl⟩
  · intro time member record ht hfresh hrecord hblocked
    obtain ⟨_, hfull⟩ := hk.not_room hlimit ht hfresh hrecord hblocked
    refine ⟨?_, fun later other hlater => ?_⟩
    · rw [hk.allowed_call hlimit ht hfresh, if_neg hfull, List.append_nil]
    · rw [key_blocked (hk.zcard_kept ht ▸ hfull)]
      exact increment_kept hlater
  · intro time w' hs
    cases hs with
    | expire ht hat hdue =>
      refine ⟨fun hit hin => ?_, hk.expired hat hdue ht⟩
      have hout := hk.expiry _ hat hit hin
      omega
  · intro time member record tr' w' later other ht hfresh hrecord hblocked hr' hsame hclock hlater hother
    obtain ⟨heq, hfull⟩ := hk.not_room hlimit ht hfresh hrecord hblocked
    have hk' : Keeps window limit w' := keeps_run hlimit ((hr.snoc (.call ht hfresh)).append hr')
    refine ⟨_, hk'.record hlimit hclock hother, reference_allowed ?_⟩
    rw [hsame]
    have hseconds : record.timeToBlockExpire =
        windowLeftSeconds (((within window (now time) w.allowed).headD (now time) : Int) + window - now time) := by
      rw [heq, reference_blocked hfull]
    have hms := ms_le_seconds (((within window (now time) w.allowed).headD (now time) : Int) + window - now time)
    have hpos := seconds_pos (((within window (now time) w.allowed).headD (now time) : Int) + window - now time)
    rw [← hseconds] at hms hpos
    have hnow := now_eq time
    have hthen := now_eq later
    apply room_later (hk.past_now ht) (window_bound hk.order hk.paced _) hlimit
    · omega
    · omega

/-- Two calls at one moment fill a window of two per second, and a third is blocked for a second. -/
theorem sliding_window_exact_full :
    Exact 1000 2 ((World.start.call 1000 2 7000 "a").call 1000 2 7000 "b") ∧
      ((increment ((World.start.call 1000 2 7000 "a").call 1000 2 7000 "b").key 1000 2 8000 "c").2 =
        some ⟨3, 1, true, 1⟩) :=
  ⟨sliding_window_exact (by decide)
    (.snoc (.snoc .nil (.call (by decide) (by decide))) (.call (by decide) (by decide))), by decide⟩

end

end MarketplaceApi.RateLimit
