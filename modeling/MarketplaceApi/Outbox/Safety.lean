import MarketplaceApi.Outbox.Relay

/-!
# What relays preserve

One invariant over table, claims and history: a marked or deleted row was accepted, the rows
of an open transaction are unpublished and its own. A second one over the sink: it has every
row that was accepted. They say that no row is lost and none is marked early.
-/
namespace MarketplaceApi.Outbox

open Transition OutboxRepository

variable {I P T : Type}

section
variable {w : World I P T} {i j : Nat} {r r' : Relay I P}

theorem World.set_self (w : World I P T) (i : Nat) (r : Option (Relay I P)) : (w.set i r).relays i = r :=
  Function.update_self ..

theorem World.set_other (w : World I P T) (h : j ≠ i) (r : Option (Relay I P)) :
    (w.set i r).relays j = w.relays j := Function.update_of_ne h ..

theorem World.set_set (w : World I P T) (i : Nat) (r r' : Option (Relay I P)) : (w.set i r).set i r' = w.set i r' := by
  unfold World.set
  rw [Function.update_idem]

/-- An execution after one of them was replaced. -/
theorem World.of_set {r : Option (Relay I P)} (h : (w.set i r).relays j = some r') :
    j = i ∧ r = some r' ∨ j ≠ i ∧ w.relays j = some r' := by
  by_cases hj : j = i
  · subst hj
    rw [World.set_self] at h
    exact Or.inl ⟨rfl, h⟩
  · rw [World.set_other w hj] at h
    exact Or.inr ⟨hj, h⟩

end

/-- The sink has accepted a row with this key at least once. -/
def World.Sent (w : World I P T) (id : I) : Prop := ∃ row ∈ w.accepted, row.id = id

structure Kept (w : World I P T) : Prop where
  ids : (w.rows.map Row.id).Nodup
  writtenIds : (w.written.map Row.id).Nodup
  origin : ∀ row ∈ w.rows, ∃ first ∈ w.written, first.Same row
  marked : ∀ row ∈ w.rows, row.publishedAt ≠ none → w.Sent row.id
  present : ∀ first ∈ w.written, (∃ row ∈ w.rows, row.id = first.id) ∨ w.Sent first.id
  sent : ∀ i r, w.relays i = some r → ∀ row ∈ r.stage.sent, w.Sent row.id
  held : ∀ i r, w.relays i = some r → r.severed = false → ∀ row ∈ r.stage.claimed,
    row ∈ w.rows ∧ row.publishedAt = none
  exclusive : ∀ i j r r', i ≠ j → w.relays i = some r → w.relays j = some r' → r.severed = false →
    r'.severed = false → ∀ row ∈ r.stage.claimed, ∀ other ∈ r'.stage.claimed, row.id ≠ other.id
  once : ∀ i r, w.relays i = some r → (r.stage.pool.map Row.id).Nodup ∧ r.stage.Whole

theorem kept_start (sink : T) : Kept (World.start sink : World I P T) where
  ids := List.nodup_nil
  writtenIds := List.nodup_nil
  origin _ h := nomatch h
  marked _ h := nomatch h
  present _ h := nomatch h
  sent _ _ h := nomatch h
  held _ _ h := nomatch h
  exclusive _ _ _ _ _ h := nomatch h
  once _ _ h := nomatch h

section
variable {w w' : World I P T} {i : Nat} {r r' : Relay I P}

/-- The rows an open transaction holds are locked by no other. -/
theorem Kept.free (h : Kept w) (hi : w.relays i = some r) (hopen : r.severed = false) {row : Row I P}
    (hrow : row ∈ r.stage.claimed) : ¬ w.LockedByOther i row.id := by
  rintro ⟨j, r', hj, hr', hopen', other, hother, he⟩
  exact h.exclusive i j r r' hj.symm hi hr' hopen hopen' row hrow other hother he.symm

/-- An execution moves on: what it has sent was accepted, what it holds is its own. -/
theorem Kept.set (h : Kept w) (hsent : ∀ row ∈ r.stage.sent, w.Sent row.id)
    (hheld : r.severed = false → ∀ row ∈ r.stage.claimed,
      (row ∈ w.rows ∧ row.publishedAt = none) ∧ ¬ w.LockedByOther i row.id)
    (honce : (r.stage.pool.map Row.id).Nodup ∧ r.stage.Whole) : Kept (w.set i (some r)) where
  ids := h.ids
  writtenIds := h.writtenIds
  origin := h.origin
  marked := h.marked
  present := h.present
  sent j r' hj := by
    rcases World.of_set hj with ⟨rfl, he⟩ | ⟨_, hj⟩
    · cases he
      exact hsent
    · exact h.sent j r' hj
  held j r' hj hopen := by
    rcases World.of_set hj with ⟨rfl, he⟩ | ⟨_, hj⟩
    · cases he
      exact fun row hrow => (hheld hopen row hrow).1
    · exact h.held j r' hj hopen
  exclusive j l x y hne hx hy hxo hyo row hrow other hother he := by
    rcases World.of_set hx with ⟨rfl, hxe⟩ | ⟨hj, hxw⟩
    · rcases World.of_set hy with ⟨rfl, _⟩ | ⟨hl, hyw⟩
      · exact hne rfl
      · cases hxe
        exact (hheld hxo row hrow).2 ⟨l, y, hl, hyw, hyo, other, hother, he.symm⟩
    · rcases World.of_set hy with ⟨rfl, hye⟩ | ⟨_, hyw⟩
      · cases hye
        exact (hheld hyo other hother).2 ⟨j, x, hj, hxw, hxo, row, hrow, he⟩
      · exact h.exclusive j l x y hne hxw hyw hxo hyo row hrow other hother he
  once j x hx := by
    rcases World.of_set hx with ⟨_, hxe⟩ | ⟨_, hxw⟩
    · cases hxe
      exact honce
    · exact h.once j x hxw

/-- An execution that moves on with the same claim. -/
theorem Kept.move (h : Kept w) (hi : w.relays i = some r) {stage : Stage I P}
    (hsent : ∀ row ∈ stage.sent, w.Sent row.id) (hclaimed : stage.claimed = r.stage.claimed)
    (honce : (stage.pool.map Row.id).Nodup ∧ stage.Whole) : Kept (w.set i (some (r.at stage))) := by
  refine h.set hsent (fun hopen row hrow => ?_) honce
  have hold : row ∈ r.stage.claimed := hclaimed ▸ hrow
  exact ⟨h.held i r hi hopen row hold, h.free hi hopen hold⟩

/-- An execution ends. -/
theorem Kept.unset (h : Kept w) (i : Nat) : Kept (w.set i none) where
  ids := h.ids
  writtenIds := h.writtenIds
  origin := h.origin
  marked := h.marked
  present := h.present
  sent j r' hj := by
    rcases World.of_set hj with ⟨_, he⟩ | ⟨_, hj⟩
    · cases he
    · exact h.sent j r' hj
  held j r' hj := by
    rcases World.of_set hj with ⟨_, he⟩ | ⟨_, hj⟩
    · cases he
    · exact h.held j r' hj
  exclusive j l x y hne hx hy := by
    rcases World.of_set hx with ⟨_, he⟩ | ⟨_, hx⟩
    · cases he
    · rcases World.of_set hy with ⟨_, he⟩ | ⟨_, hy⟩
      · cases he
      · exact h.exclusive j l x y hne hx hy
  once j r' hj := by
    rcases World.of_set hj with ⟨_, he⟩ | ⟨_, hj⟩
    · cases he
    · exact h.once j r' hj

theorem World.Sent.accept {id : I} (h : w.Sent id) (V : Service I P T) (row : Row I P) : (w.accept V row).Sent id := by
  obtain ⟨a, ha, he⟩ := h
  exact ⟨a, List.mem_append_left _ ha, he⟩

theorem sent_accept (V : Service I P T) (w : World I P T) (row : Row I P) : (w.accept V row).Sent row.id :=
  ⟨row, List.mem_append_right _ (List.mem_singleton_self row), rfl⟩

/-- The sink accepts one more row. -/
theorem Kept.accept (h : Kept w) (V : Service I P T) (row : Row I P) : Kept (w.accept V row) where
  ids := h.ids
  writtenIds := h.writtenIds
  origin := h.origin
  marked other ho hm := (h.marked other ho hm).accept V row
  present first hf := (h.present first hf).imp_right fun hs => hs.accept V row
  sent i r hi other ho := (h.sent i r hi other ho).accept V row
  held := h.held
  exclusive := h.exclusive
  once := h.once

end

section
variable [LinearOrder I] {V : Service I P T} {w w' : World I P T} {i : Nat} {r : Relay I P}

/-- The rows once the failure of a batch, if there was one, is noted. -/
def noted (failed : Option (Row I P × String)) (rows : List (Row I P)) : List (Row I P) :=
  failed.elim rows fun f => recordFailure f.1.id f.2 rows

theorem mem_noted {failed : Option (Row I P × String)} {rows : List (Row I P)} {row : Row I P}
    (h : row ∈ noted failed rows) : ∃ old ∈ rows, old.Same row ∧ row.publishedAt = old.publishedAt := by
  cases failed with
  | none => exact ⟨row, h, .refl row, rfl⟩
  | some f =>
    obtain ⟨old, hin, rfl⟩ := mem_recordFailure.mp h
    refine ⟨old, hin, ?_⟩
    split
    · exact ⟨rfl, rfl⟩
    · exact ⟨.refl old, rfl⟩

/-- A row of the table after the statements of a batch. -/
theorem mem_settle {now : Nat} {sent : List (Row I P)} {failed : Option (Row I P × String)} {rows : List (Row I P)}
    {row : Row I P} (h : row ∈ settle now sent failed rows) :
    ∃ old ∈ rows, old.Same row ∧ (row.publishedAt = old.publishedAt ∨ row.id ∈ sent.map Row.id) := by
  obtain ⟨row, hnoted, rfl⟩ := mem_markPublished.mp h
  obtain ⟨old, hin, hsame, hp⟩ := mem_noted hnoted
  refine ⟨old, hin, ?_⟩
  split
  · rename_i hids
    exact ⟨hsame.trans rfl, Or.inr hids⟩
  · exact ⟨hsame, Or.inl hp⟩

/-- A row that is neither sent nor failed is left as it was. -/
theorem settle_other {now : Nat} {sent : List (Row I P)} {failed : Option (Row I P × String)}
    {rows : List (Row I P)} {row : Row I P} (hrow : row ∈ rows) (hsent : row.id ∉ sent.map Row.id)
    (hfailed : ∀ f, failed = some f → f.1.id ≠ row.id) : row ∈ settle now sent failed rows := by
  refine mem_markPublished.mpr ⟨row, ?_, by rw [if_neg hsent]⟩
  cases failed with
  | none => exact hrow
  | some f => exact mem_recordFailure.mpr ⟨row, hrow, by rw [if_neg (hfailed f rfl).symm]⟩

theorem ids_settle (now : Nat) (sent : List (Row I P)) (failed : Option (Row I P × String)) (rows : List (Row I P)) :
    (settle now sent failed rows).map Row.id = rows.map Row.id := by
  unfold settle
  rw [ids_markPublished]
  cases failed with
  | none => rfl
  | some f => exact ids_recordFailure _ _ _

theorem kept_commit (h : Kept w) {sent rest : List (Row I P)} {failed : Option (Row I P × String)}
    (hi : w.relays i = some r) (hstage : r.stage = .closing sent failed rest) (hopen : r.severed = false) :
    Kept { w.set i none with rows := settle r.began sent failed w.rows } where
  ids := by
    rw [ids_settle]
    exact h.ids
  writtenIds := h.writtenIds
  origin row hrow := by
    obtain ⟨old, hold, hsame, _⟩ := mem_settle hrow
    obtain ⟨first, hfirst, hf⟩ := h.origin old hold
    exact ⟨first, hfirst, hf.trans hsame⟩
  marked row hrow hm := by
    obtain ⟨old, hold, hsame, hp | hids⟩ := mem_settle hrow
    · rw [hsame.id]
      exact h.marked old hold (hp ▸ hm)
    · obtain ⟨s, hs, he⟩ := List.mem_map.mp hids
      rw [← he]
      exact h.sent i r hi s (by rw [hstage]; exact hs)
  present first hf := by
    refine (h.present first hf).imp_left fun hrow => ?_
    obtain ⟨row, hrow, he⟩ := hrow
    have hid : first.id ∈ (settle r.began sent failed w.rows).map Row.id := by
      rw [ids_settle, ← he]
      exact List.mem_map_of_mem hrow
    exact List.mem_map.mp hid
  sent := (h.unset i).sent
  held j r' hj hopen' row hrow := by
    rcases World.of_set hj with ⟨_, he⟩ | ⟨hne, hj⟩
    · cases he
    · obtain ⟨hin, hp⟩ := h.held j r' hj hopen' row hrow
      have hother : ∀ s ∈ r.stage.claimed, s.id ≠ row.id := fun s hs =>
        h.exclusive i j r r' hne.symm hi hj hopen hopen' s hs row hrow
      rw [hstage] at hother
      refine ⟨settle_other hin (fun hids => ?_) (fun f hf => ?_), hp⟩
      · obtain ⟨s, hs, he⟩ := List.mem_map.mp hids
        exact hother s (List.mem_append_left _ (List.mem_append_left _ hs)) he
      · subst hf
        exact hother f.1 (List.mem_append_left _ (List.mem_append_right _ (List.mem_singleton_self _)))
  exclusive := (h.unset i).exclusive
  once := (h.unset i).once

end

section
variable {w : World I P T}

theorem kept_write (h : Kept w) {row : Row I P} (hnew : row.publishedAt = none)
    (hfresh : ∀ other ∈ w.written, other.id ≠ row.id) :
    Kept { w with rows := row :: w.rows, written := row :: w.written } where
  ids := by
    refine List.nodup_cons.mpr ⟨fun hin => ?_, h.ids⟩
    obtain ⟨other, hother, he⟩ := List.mem_map.mp hin
    obtain ⟨first, hfirst, hsame⟩ := h.origin other hother
    exact hfresh first hfirst (hsame.id.symm.trans he)
  writtenIds := by
    refine List.nodup_cons.mpr ⟨fun hin => ?_, h.writtenIds⟩
    obtain ⟨other, hother, he⟩ := List.mem_map.mp hin
    exact hfresh other hother he
  origin other ho := by
    rcases List.mem_cons.mp ho with rfl | ho
    · exact ⟨other, List.mem_cons_self, .refl other⟩
    · obtain ⟨first, hfirst, hsame⟩ := h.origin other ho
      exact ⟨first, List.mem_cons_of_mem _ hfirst, hsame⟩
  marked other ho hm := by
    rcases List.mem_cons.mp ho with rfl | ho
    · exact absurd hnew hm
    · exact h.marked other ho hm
  present first hf := by
    rcases List.mem_cons.mp hf with rfl | hf
    · exact Or.inl ⟨first, List.mem_cons_self, rfl⟩
    · exact (h.present first hf).imp_left fun hrow => hrow.imp fun other ho => ⟨List.mem_cons_of_mem _ ho.1, ho.2⟩
  sent := h.sent
  held j r hj hopen other ho :=
    ⟨List.mem_cons_of_mem _ (h.held j r hj hopen other ho).1, (h.held j r hj hopen other ho).2⟩
  exclusive := h.exclusive
  once := h.once

/-- The cleanup takes away rows that were accepted. -/
theorem kept_cleanup (h : Kept w) (before : Nat) : Kept { w with rows := deletePublishedBefore before w.rows } where
  ids := h.ids.sublist ((List.filter_sublist).map Row.id)
  writtenIds := h.writtenIds
  origin row hrow := h.origin row (mem_deletePublished.mp hrow).1
  marked row hrow := h.marked row (mem_deletePublished.mp hrow).1
  present first hf := by
    rcases h.present first hf with ⟨row, hrow, he⟩ | hs
    · by_cases hp : row.publishedAt = none
      · exact Or.inl ⟨row, mem_deletePublished.mpr ⟨hrow, fun t ht => by simp [hp] at ht⟩, he⟩
      · exact Or.inr (he ▸ h.marked row hrow hp)
    · exact Or.inr hs
  sent := h.sent
  held j r hj hopen row hrow := by
    obtain ⟨hin, hp⟩ := h.held j r hj hopen row hrow
    exact ⟨mem_deletePublished.mpr ⟨hin, fun t ht => by simp [hp] at ht⟩, hp⟩
  exclusive := h.exclusive
  once := h.once

end

section
variable [LinearOrder I] {V : Service I P T} {w w' : World I P T} {i : Nat} {r : Relay I P}

/-- The rows of the table a claim goes through are distinct. -/
theorem nodup_unpublished (h : Kept w) : ((unpublished w.rows).map Row.id).Nodup := by
  have hfilter : ((w.rows.filter fun row => row.publishedAt.isNone).map Row.id).Nodup :=
    h.ids.sublist ((List.filter_sublist).map Row.id)
  exact ((List.mergeSort_perm _ Row.before).map Row.id).nodup_iff.mpr hfilter

theorem kept_step (h : Kept w) {ev : Event I P} (hs : Step V w ev w') : Kept w' := by
  have hsame : ∀ {w : World I P T} {rows : List (Row I P)}, Kept w → Kept { w with inflight := rows } :=
    fun h => ⟨h.ids, h.writtenIds, h.origin, h.marked, h.present, h.sent, h.held, h.exclusive, h.once⟩
  cases hs with
  | write _ _ hnew hfresh => exact kept_write h hnew hfresh
  | tick _ => exact ⟨h.ids, h.writtenIds, h.origin, h.marked, h.present, h.sent, h.held, h.exclusive, h.once⟩
  | begin hi => exact h.set nofun nofun ⟨List.nodup_nil, trivial⟩
  | claim hi hstage _ =>
    refine h.move hi nofun ?_ ⟨nodup_unpublished h, trivial⟩
    rw [hstage]
    rfl
  | @lock i r candidate candidates claimed row hi hstage hopen _ hrow hid hnew hfree =>
    obtain ⟨honce, _⟩ := h.once i r hi
    rw [hstage] at honce
    refine h.set nofun (fun _ held hheld => ?_) ⟨?_, trivial⟩
    · rcases List.mem_append.mp hheld with hold | hlocked
      · have hclaimed : held ∈ r.stage.claimed := by
          rw [hstage]
          exact hold
        exact ⟨h.held i r hi hopen held hclaimed, h.free hi hopen hclaimed⟩
      · obtain rfl := List.mem_singleton.mp hlocked
        exact ⟨⟨hrow, hnew⟩, hfree⟩
    · change ((claimed ++ [row] ++ candidates).map Row.id).Nodup
      change ((claimed ++ candidate :: candidates).map Row.id).Nodup at honce
      rw [List.append_assoc, List.singleton_append, List.map_append, List.map_cons, hid]
      rwa [List.map_append, List.map_cons] at honce
  | @skip i r candidate candidates claimed hi hstage _ _ =>
    obtain ⟨honce, _⟩ := h.once i r hi
    rw [hstage] at honce
    refine h.move hi nofun ?_ ⟨honce.sublist (List.Sublist.map _ ?_), trivial⟩
    · rw [hstage]
      rfl
    · exact (List.sublist_cons_self candidate candidates).append_left claimed
  | @claimed i r candidates claimed hi hstage _ _ =>
    obtain ⟨honce, _⟩ := h.once i r hi
    rw [hstage] at honce
    refine h.move hi nofun ?_ ⟨honce.sublist (List.Sublist.map _ ?_), trivial⟩
    · rw [hstage]
      rfl
    · exact List.sublist_append_left claimed candidates
  | @send i r sent row rest hi hstage =>
    have hpool : sent ++ [row] ++ rest = sent ++ row :: rest := by
      rw [List.append_assoc, List.singleton_append]
    obtain ⟨honce, _⟩ := h.once i r hi
    rw [hstage] at honce
    have hmoved : Kept ((w.accept V row).set i (some (r.at (.sending (sent ++ [row]) rest)))) := by
      refine (h.accept V row).move hi (fun other ho => ?_) ?_ ⟨?_, trivial⟩
      · rcases List.mem_append.mp ho with hold | hnew
        · exact (h.sent i r hi other (by rw [hstage]; exact hold)).accept V row
        · obtain rfl := List.mem_singleton.mp hnew
          exact sent_accept V w other
      · rw [hstage]
        exact hpool
      · change ((sent ++ [row] ++ rest).map Row.id).Nodup
        rw [hpool]
        exact honce
    exact hmoved
  | @fail i r sent row rest message lost hi hstage =>
    have hpool : sent ++ [row] ++ rest = sent ++ row :: rest := by
      rw [List.append_assoc, List.singleton_append]
    obtain ⟨honce, _⟩ := h.once i r hi
    rw [hstage] at honce
    refine hsame (h.move hi (fun other ho => h.sent i r hi other ?_) ?_ ⟨?_, nofun⟩)
    · rw [hstage]
      exact ho
    · rw [hstage]
      exact hpool
    · change ((sent ++ [row] ++ rest).map Row.id).Nodup
      rw [hpool]
      exact honce
  | land _ => exact (hsame h).accept V _
  | @finish i r sent hi hstage =>
    obtain ⟨honce, _⟩ := h.once i r hi
    rw [hstage] at honce
    have hpool : sent ++ [] ++ [] = sent ++ [] := List.append_nil _
    refine h.move hi (fun other ho => h.sent i r hi other ?_) ?_ ⟨?_, fun _ => rfl⟩
    · rw [hstage]
      exact ho
    · rw [hstage]
      exact hpool
    · change ((sent ++ [] ++ []).map Row.id).Nodup
      rw [hpool]
      exact honce
  | commit hi hstage hopen _ => exact kept_commit h hi hstage hopen
  | rollback hi => exact h.unset _
  | @sever i r hi => exact h.set (h.sent i r hi) nofun (h.once i r hi)
  | cleanup => exact kept_cleanup h _
  | drift _ => exact ⟨h.ids, h.writtenIds, h.origin, h.marked, h.present, h.sent, h.held, h.exclusive, h.once⟩

theorem kept_run {sink : T} {tr : List (World I P T × Event I P)} (hr : Run (Step V) (World.start sink) tr w) :
    Kept w := hr.invariant (kept_start sink) fun h hs => kept_step h hs

end

/-- When a sink has a row: from its delivery on, for good, and whatever the outbox notes about it. -/
structure Receipt (V : Service I P T) where
  has : Row I P → T → Prop
  delivered : ∀ row sink, has row (V.deliver row sink)
  kept : ∀ row other sink, has row sink → has row (V.deliver other sink)
  drifted : ∀ row sink sink', V.drift sink sink' → has row sink → has row sink'
  same : ∀ row other sink, row.Same other → has row sink → has other sink

/-- The row was written, in this or an earlier version. -/
def World.Known (w : World I P T) (row : Row I P) : Prop := ∃ first ∈ w.written, first.Same row

/-- What is claimed or in flight was written, and so was what was accepted, which the sink has. -/
structure Received {V : Service I P T} (R : Receipt V) (w : World I P T) : Prop where
  claims : ∀ i r, w.relays i = some r → ∀ row ∈ r.stage.claimed, w.Known row
  inflight : ∀ row ∈ w.inflight, w.Known row
  accepted : ∀ row ∈ w.accepted, w.Known row ∧ R.has row w.sink

section
variable {V : Service I P T} {R : Receipt V} {w : World I P T} {i : Nat} {r : Relay I P} {row : Row I P}

theorem received_start (R : Receipt V) (sink : T) : Received R (World.start sink : World I P T) where
  claims _ _ h := nomatch h
  inflight _ h := nomatch h
  accepted _ h := nomatch h

theorem Received.set (h : Received R w) (hclaims : ∀ row ∈ r.stage.claimed, w.Known row) :
    Received R (w.set i (some r)) where
  claims j r' hj := by
    rcases World.of_set hj with ⟨rfl, he⟩ | ⟨_, hj⟩
    · cases he
      exact hclaims
    · exact h.claims j r' hj
  inflight := h.inflight
  accepted := h.accepted

theorem Received.move (h : Received R w) (hi : w.relays i = some r) {stage : Stage I P}
    (hclaimed : stage.claimed = r.stage.claimed) : Received R (w.set i (some (r.at stage))) :=
  h.set fun row hrow => h.claims i r hi row (hclaimed ▸ hrow)

theorem Received.unset (h : Received R w) (i : Nat) : Received R (w.set i none) where
  claims j r' hj := by
    rcases World.of_set hj with ⟨_, he⟩ | ⟨_, hj⟩
    · cases he
    · exact h.claims j r' hj
  inflight := h.inflight
  accepted := h.accepted

theorem Received.accept (h : Received R w) (hrow : w.Known row) : Received R (w.accept V row) where
  claims := h.claims
  inflight := h.inflight
  accepted other ho := by
    rcases List.mem_append.mp ho with hold | hnew
    · exact ⟨(h.accepted other hold).1, R.kept _ _ _ (h.accepted other hold).2⟩
    · obtain rfl := List.mem_singleton.mp hnew
      exact ⟨hrow, R.delivered other w.sink⟩

theorem received_write (h : Received R w) (row : Row I P) :
    Received R { w with rows := row :: w.rows, written := row :: w.written } := by
  have hknown : ∀ {other}, w.Known other →
      World.Known { w with rows := row :: w.rows, written := row :: w.written } other := fun hk =>
    hk.imp fun first hf => ⟨List.mem_cons_of_mem _ hf.1, hf.2⟩
  exact ⟨fun i r hi other ho => hknown (h.claims i r hi other ho), fun other ho => hknown (h.inflight other ho),
    fun other ho => ⟨hknown (h.accepted other ho).1, (h.accepted other ho).2⟩⟩

/-- The sink has a written row that was accepted under its key. -/
theorem Received.has (h : Received R w) (hk : Kept w) (hrow : row ∈ w.written) (hs : w.Sent row.id) :
    R.has row w.sink := by
  obtain ⟨accepted, haccepted, hid⟩ := hs
  obtain ⟨⟨first, hfirst, hsame⟩, hhas⟩ := h.accepted accepted haccepted
  obtain rfl : first = row := List.inj_on_of_nodup_map hk.writtenIds hfirst hrow (hsame.id.symm.trans hid)
  exact R.same _ _ _ hsame.symm hhas

end

section
variable [LinearOrder I] {V : Service I P T} {R : Receipt V} {w w' : World I P T} {i : Nat}

theorem received_step (h : Received R w) (hk : Kept w) {ev : Event I P} (hs : Step V w ev w') : Received R w' := by
  have hnext : ∀ {i r sent row rest}, w.relays i = some r → r.stage = .sending sent (row :: rest) → w.Known row := by
    intro i r sent row rest hi hstage
    refine h.claims i r hi row ?_
    rw [hstage]
    exact List.mem_append_right _ List.mem_cons_self
  cases hs with
  | write _ _ _ _ => exact received_write h _
  | tick _ => exact ⟨h.claims, h.inflight, h.accepted⟩
  | begin hi => exact h.set nofun
  | claim hi hstage _ =>
    refine h.move hi ?_
    rw [hstage]
    rfl
  | @lock i r candidate candidates claimed row hi hstage _ _ hrow _ _ _ =>
    refine h.set fun other ho => ?_
    rcases List.mem_append.mp ho with hold | hlocked
    · refine h.claims i r hi other ?_
      rw [hstage]
      exact hold
    · obtain rfl := List.mem_singleton.mp hlocked
      exact hk.origin other hrow
  | skip hi hstage _ _ =>
    refine h.move hi ?_
    rw [hstage]
    rfl
  | claimed hi hstage _ _ =>
    refine h.move hi ?_
    rw [hstage]
    rfl
  | @send i r sent row rest hi hstage =>
    refine (h.accept (hnext hi hstage)).move hi ?_
    rw [hstage]
    change sent ++ [row] ++ rest = sent ++ row :: rest
    rw [List.append_assoc, List.singleton_append]
  | @fail i r sent row rest message lost hi hstage =>
    have hmoved : Received R (w.set i (some (r.at (.closing sent (some (row, message)) rest)))) := by
      refine h.move hi ?_
      rw [hstage]
      change sent ++ [row] ++ rest = sent ++ row :: rest
      rw [List.append_assoc, List.singleton_append]
    refine ⟨hmoved.claims, fun other ho => ?_, hmoved.accepted⟩
    cases lost with
    | true => exact h.inflight other ho
    | false =>
      rcases List.mem_cons.mp ho with rfl | ho
      · exact hnext hi hstage
      · exact h.inflight other ho
  | @land row before after hin =>
    have hfewer : Received R { w with inflight := before ++ after } := by
      refine ⟨h.claims, fun other ho => h.inflight other ?_, h.accepted⟩
      rw [hin]
      exact (List.Sublist.append_left (List.sublist_cons_self row after) before).subset ho
    exact hfewer.accept (h.inflight row (hin ▸ List.mem_append_right _ List.mem_cons_self))
  | finish hi hstage =>
    refine h.move hi ?_
    rw [hstage]
    change _ ++ [] ++ [] = _ ++ []
    rw [List.append_nil]
  | commit _ _ _ _ => exact ⟨(h.unset _).claims, h.inflight, h.accepted⟩
  | rollback _ => exact h.unset _
  | sever hi => exact h.set fun row hrow => h.claims _ _ hi row hrow
  | cleanup => exact ⟨h.claims, h.inflight, h.accepted⟩
  | drift hd =>
    exact ⟨h.claims, h.inflight, fun other ho => ⟨(h.accepted other ho).1, R.drifted _ _ _ hd (h.accepted other ho).2⟩⟩

theorem received_run (R : Receipt V) {sink : T} {tr : List (World I P T × Event I P)}
    (hr : Run (Step V) (World.start sink) tr w) : Received R w := by
  induction hr with
  | nil => exact received_start R sink
  | snoc hr hs ih => exact received_step ih (kept_run hr) hs

/-- What holds in every reachable state: the sink has the marked rows, a row is in one open claim
at most, a row the sink does not have is still there to be claimed, and a commit marks exactly the
rows before the failed one, which is noted and stays unpublished. -/
structure Reliable (R : Receipt V) (w : World I P T) : Prop where
  marked : ∀ row ∈ w.rows, row.publishedAt ≠ none → R.has row w.sink
  exclusive : ∀ i j r r', i ≠ j → w.relays i = some r → w.relays j = some r' → r.severed = false →
    r'.severed = false → ∀ row ∈ r.stage.claimed, ∀ other ∈ r'.stage.claimed, row.id ≠ other.id
  claimable : ∀ first ∈ w.written, ¬ R.has first w.sink → ∃ row ∈ unpublished w.rows, first.Same row
  stopped : ∀ i r sent failed rest w', w.relays i = some r → r.stage = .closing sent failed rest →
    ¬ Step V w (.send i) w'
  marks : ∀ i w', Step V w (.commit i) w' → ∃ r sent failed rest, w.relays i = some r ∧
    r.stage = .closing sent failed rest ∧ (failed = none → rest = []) ∧
    (∀ row ∈ w'.rows, row.publishedAt ≠ none ↔ row.id ∈ sent.map Row.id ∨
      ∃ old ∈ w.rows, old.id = row.id ∧ old.publishedAt ≠ none) ∧
    ∀ f, failed = some f → { f.1 with attempts := f.1.attempts + 1, lastError := some f.2 } ∈ w'.rows

theorem Kept.claimable (h : Kept w) {first : Row I P} (hf : first ∈ w.written) (hs : ¬ w.Sent first.id) :
    ∃ row ∈ unpublished w.rows, first.Same row := by
  obtain ⟨row, hrow, hid⟩ := (h.present first hf).resolve_right hs
  obtain ⟨origin, horigin, hsame⟩ := h.origin row hrow
  obtain rfl : origin = first := List.inj_on_of_nodup_map h.writtenIds horigin hf (hsame.id.symm.trans hid)
  refine ⟨row, mem_unpublished.mpr ⟨hrow, ?_⟩, hsame⟩
  by_contra hp
  exact hs (hid ▸ h.marked row hrow hp)

theorem Kept.marks (h : Kept w) (hs : Step V w (.commit i) w') : ∃ r sent failed rest, w.relays i = some r ∧
    r.stage = .closing sent failed rest ∧ (failed = none → rest = []) ∧
    (∀ row ∈ w'.rows, row.publishedAt ≠ none ↔ row.id ∈ sent.map Row.id ∨
      ∃ old ∈ w.rows, old.id = row.id ∧ old.publishedAt ≠ none) ∧
    ∀ f, failed = some f → { f.1 with attempts := f.1.attempts + 1, lastError := some f.2 } ∈ w'.rows := by
  cases hs with
  | @commit _ r sent failed rest hi hstage hopen _ =>
    obtain ⟨honce, hwhole⟩ := h.once i r hi
    rw [hstage] at honce hwhole
    refine ⟨r, sent, failed, rest, hi, hstage, hwhole, fun row hrow => ?_, fun f hf => ?_⟩
    · obtain ⟨row, hnoted, rfl⟩ := mem_markPublished.mp hrow
      obtain ⟨old, hold, hsame, hp⟩ := mem_noted hnoted
      by_cases hids : row.id ∈ sent.map Row.id
      · rw [if_pos hids]
        simp [hids]
      · rw [if_neg hids, hp]
        constructor
        · exact fun hpublished => Or.inr ⟨old, hold, hsame.id.symm, hpublished⟩
        · rintro (hsent | ⟨other, hother, hid, hpublished⟩)
          · exact absurd hsent hids
          · rwa [List.inj_on_of_nodup_map h.ids hother hold (hid.trans hsame.id)] at hpublished
    · subst hf
      have hclaimed : f.1 ∈ r.stage.claimed := by
        rw [hstage]
        exact List.mem_append_left _ (List.mem_append_right _ (List.mem_singleton_self _))
      have hnotsent : f.1.id ∉ sent.map Row.id := by
        change ((sent ++ [f.1] ++ rest).map Row.id).Nodup at honce
        rw [List.map_append, List.map_append] at honce
        have hdisjoint := (List.nodup_append.mp (List.nodup_append.mp honce).1).2.2
        exact fun hin => hdisjoint _ hin _ (List.mem_singleton_self _) rfl
      refine mem_markPublished.mpr ⟨_, mem_recordFailure.mpr ⟨f.1, (h.held i r hi hopen f.1 hclaimed).1, rfl⟩, ?_⟩
      rw [if_pos rfl, if_neg hnotsent]

theorem reliable_run (R : Receipt V) {sink : T} {tr : List (World I P T × Event I P)}
    (hr : Run (Step V) (World.start sink) tr w) : Reliable R w := by
  have h := kept_run hr
  have hreceived := received_run R hr
  refine ⟨fun row hrow hm => ?_, h.exclusive, fun first hf hno => ?_, ?_, fun i w' hs => h.marks hs⟩
  · obtain ⟨first, hfirst, hsame⟩ := h.origin row hrow
    exact R.same _ _ _ hsame (hreceived.has h hfirst (hsame.id ▸ h.marked row hrow hm))
  · exact h.claimable hf fun hs => hno (hreceived.has h hf hs)
  · intro i r sent failed rest w' hi hstage hs
    cases hs with
    | send hi' hstage' =>
      rw [hi] at hi'
      cases hi'
      rw [hstage] at hstage'
      cases hstage'

end

end MarketplaceApi.Outbox
