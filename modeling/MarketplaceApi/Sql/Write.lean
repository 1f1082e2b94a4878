import Mathlib.Data.List.Pairwise
import Mathlib.Data.Option.Basic
import MarketplaceApi.Sql.Table

/-!
# Lookups, inserts and updates

Rows looked up by a key that no two of them have, and when a row-wise write goes through. An
insert succeeds exactly if the constraints hold of the table it would make; an update has to be
admitted row by row, beside rows some of which are new already.
-/
namespace MarketplaceApi.Sql

/-- A unique key as the constraint states it. -/
theorem nodup_iff_unique {α κ : Type} [DecidableEq κ] {key : α → κ} {l : List α} :
    (l.Pairwise fun a b => decide (key a = key b) = false) ↔ (l.map key).Nodup := by
  rw [List.Nodup, List.pairwise_map]
  simp only [decide_eq_false_iff_not, ne_eq]

theorem filter_key {α : Type} {key : α → Nat} {l : List α} {a : α} (hnodup : (l.map key).Nodup) (ha : a ∈ l) :
    (l.filter fun b => key b = key a) = [a] := by
  induction l with
  | nil => cases ha
  | cons b l ih =>
    rw [List.map_cons, List.nodup_cons] at hnodup
    rcases List.mem_cons.mp ha with rfl | ha
    · have hrest : (l.filter fun b => key b = key a) = [] := by
        rw [List.filter_eq_nil_iff]
        intro b hb heq
        exact hnodup.1 (of_decide_eq_true heq ▸ List.mem_map_of_mem hb)
      rw [List.filter_cons, if_pos (decide_eq_true rfl), hrest]
    · have hne : key b ≠ key a := by
        intro heq
        exact hnodup.1 (heq ▸ List.mem_map_of_mem ha)
      rw [List.filter_cons_of_neg (by simpa using hne)]
      exact ih hnodup.2 ha

/-- The row with a key is the one that is found. -/
theorem find?_key {α κ : Type} [DecidableEq κ] {key : α → κ} {l : List α} {a : α} (hnodup : (l.map key).Nodup)
    (ha : a ∈ l) : l.find? (fun b => key b = key a) = some a := by
  cases hfound : l.find? fun b => key b = key a with
  | none =>
    have hnone := List.find?_eq_none.mp hfound a ha
    exact absurd (decide_eq_true rfl) hnone
  | some b =>
    have hkey : key b = key a := by simpa using List.find?_some hfound
    rw [List.inj_on_of_nodup_map hnodup (List.mem_of_find?_eq_some hfound) ha hkey]

theorem find?_some_key {α κ : Type} [DecidableEq κ] {key : α → κ} {l : List α} {a : α} (hnodup : (l.map key).Nodup)
    (ha : a ∈ l) : l.find? (fun b => some (key b) = some (key a)) = some a := by
  simp only [Option.some.injEq]
  exact find?_key hnodup ha

variable {D T R : Type}

section
variable {ids : T → List Nat} {rule : Rule T R} {rows others : List R} {r r' : R} {t t' : Table T R}

namespace Rule

theorem holds_append {more : List R} (h : rule.Holds ids (rows ++ more)) : rule.Holds ids rows := by
  cases rule with
  | check holds => exact fun r hr => h r (List.mem_append_left _ hr)
  | unique same => exact (List.pairwise_append.mp h).1
  | references target column => exact fun r hr => h r (List.mem_append_left _ hr)

/-- A row may be added exactly if it may stand beside those that are there. -/
theorem holds_concat : rule.Holds ids (rows ++ [r]) ↔ rule.Holds ids rows ∧ rule.admits ids rows r = true := by
  cases rule with
  | check holds => simp [Holds, admits, or_imp, forall_and]
  | unique same => simp [Holds, admits, List.pairwise_append]
  | references target column =>
    simp only [Holds, admits, List.mem_append, List.mem_singleton, or_imp, forall_and, forall_eq]

/-- Only a foreign key looks at other tables. -/
theorem Holds.congr {ids' : T → List Nat} (h : rule.Holds ids rows)
    (hids : ∀ target column, rule = .references target column → ids' target = ids target) : rule.Holds ids' rows := by
  cases rule with
  | check holds => exact h
  | unique same => exact h
  | references target column =>
    intro r hr
    rw [hids target column rfl]
    exact h r hr

/-- What the rule says of a row does not depend on which of two related versions it is. -/
def Respects (rel : R → R → Prop) : Rule T R → Prop
  | check holds => ∀ r r', rel r r' → holds r' = holds r
  | unique same => (∀ a b, same a b = same b a) ∧
      ∀ a a' b b', rel a a' → rel b b' → same a' b' = same a b
  | references _ column => ∀ r r', rel r r' → column r' = column r

/-- A rule that holds admits other versions of the rows as long as it cannot tell them apart. -/
theorem Respects.admits {rel : R → R → Prop} (h : rule.Respects rel) (hholds : rule.Holds ids rows) {key : R → Nat}
    (hr : r ∈ rows) (hrel : rel r r')
    (hothers : ∀ other' ∈ others, ∃ other ∈ rows, key other ≠ key r ∧ rel other other') :
    rule.admits ids others r' = true := by
  cases rule with
  | check holds =>
    have heq : holds r' = holds r := h r r' hrel
    exact heq.trans (hholds r hr)
  | unique same =>
    obtain ⟨hsymm, hsame⟩ := h
    have hpair : rows.Pairwise fun a b => same a b = false := hholds
    apply List.all_eq_true.mpr
    intro other' hother'
    obtain ⟨other, hother, hne, hrel'⟩ := hothers other' hother'
    have hdiffer : other ≠ r := by
      rintro rfl
      exact hne rfl
    have hsym : Std.Symm fun a b => same a b = false := ⟨fun a b hab => (hsymm b a).trans hab⟩
    have hfalse : same other r = false := hpair.forall hother hr hdiffer
    rw [hsame other other' r r' hrel' hrel, hfalse]
    rfl
  | references target column =>
    have heq : column r' = column r := h r r' hrel
    show ((column r').all fun id => decide (id ∈ ids target)) = true
    rw [heq]
    exact hholds r hr

end Rule

/-- A rule still holds of other versions of the rows that it cannot tell apart. -/
theorem Rule.Respects.holds_map {rel : R → R → Prop} (h : rule.Respects rel) (hholds : rule.Holds ids rows) {f : R → R}
    (hf : ∀ r ∈ rows, rel r (f r)) : rule.Holds ids (rows.map f) := by
  cases rule with
  | check holds =>
    intro r hr
    obtain ⟨old, hold, rfl⟩ := List.mem_map.mp hr
    have heq : holds (f old) = holds old := h old (f old) (hf old hold)
    exact heq.trans (hholds old hold)
  | unique same =>
    have hpair : rows.Pairwise fun a b => same a b = false := hholds
    show (rows.map f).Pairwise _
    rw [List.pairwise_map]
    apply hpair.imp_of_mem
    intro a b ha hb hab
    exact (h.2 a (f a) b (f b) (hf a ha) (hf b hb)).trans hab
  | references target column =>
    intro r hr
    obtain ⟨old, hold, rfl⟩ := List.mem_map.mp hr
    have heq : column (f old) = column old := h old (f old) (hf old hold)
    rw [heq]
    exact hholds old hold

theorem Rule.not_of_check (holds : R → Bool) {p : T → (R → Option Nat) → Prop} :
    ∀ target column, Rule.check holds = .references target column → p target column := nofun

theorem Rule.not_of_unique (same : R → R → Bool) {p : T → (R → Option Nat) → Prop} :
    ∀ target column, Rule.unique same = .references target column → p target column := nofun

/-- The rule does not see the columns that a function clears. -/
def Rule.Ignores (f : R → R) : Rule T R → Prop
  | .check holds => ∀ r, holds (f r) = holds r
  | .unique same => (∀ a b, same a b = same b a) ∧ ∀ a b, same (f a) (f b) = same a b
  | .references _ column => ∀ r, column (f r) = column r

theorem Rule.Ignores.respects {f : R → R} (h : rule.Ignores f) : rule.Respects fun r r' => f r' = f r := by
  cases rule with
  | check holds =>
    intro r r' heq
    rw [← h r', heq, h r]
  | unique same =>
    refine ⟨h.1, fun a a' b b' ha hb => ?_⟩
    rw [← h.2 a', ha, hb, h.2 a]
  | references target column =>
    intro r r' heq
    rw [← h r', heq, h r]

/-- Clearing the columns changes nothing for the rule. -/
theorem Rule.Ignores.holds_map {f : R → R} (h : rule.Ignores f) (hholds : rule.Holds ids rows) :
    rule.Holds ids (rows.map f) := by
  have hrel : rule.Respects fun r r' => r' = f r := by
    cases rule with
    | check holds =>
      rintro r _ rfl
      exact h r
    | unique same =>
      refine ⟨h.1, ?_⟩
      rintro a _ b _ rfl rfl
      exact h.2 a b
    | references target column =>
      rintro r _ rfl
      exact h r
  exact hrel.holds_map hholds fun _ _ => rfl

namespace Table

theorem broken_eq_none : t.broken ids others r = none ↔ ∀ c ∈ t.constraints, c.rule.admits ids others r = true := by
  unfold broken
  rw [List.find?_eq_none]
  simp

/-- The rows of an insert, with the consecutive values of the identity column. -/
def numbered : Nat → List (Nat → R) → List R
  | _, [] => []
  | next, make :: makes => make next :: numbered (next + 1) makes

theorem numbered_length (next : Nat) (makes : List (Nat → R)) : (numbered next makes).length = makes.length := by
  induction makes generalizing next with
  | nil => rfl
  | cons make makes ih => rw [numbered, List.length_cons, List.length_cons, ih]

theorem numbered_ids {α : Type} (id : R → Nat) (make : α → Nat → R) (h : ∀ a n, id (make a n) = n) (l : List α)
    (next : Nat) : (numbered next (l.map make)).map id = List.range' next l.length := by
  induction l generalizing next with
  | nil => rfl
  | cons a l ih =>
    rw [List.map_cons, numbered, List.map_cons, h, ih, List.length_cons, List.range'_succ]

theorem numbered_map {α β : Type} (field : R → β) (make : α → Nat → R) (value : α → β)
    (h : ∀ a n, field (make a n) = value a) (l : List α) (next : Nat) :
    (numbered next (l.map make)).map field = l.map value := by
  induction l generalizing next with
  | nil => rfl
  | cons a l ih => rw [List.map_cons, numbered, List.map_cons, h, ih, List.map_cons]

theorem mem_numbered {α : Type} {make : α → Nat → R} {l : List α} {next : Nat}
    (h : r ∈ numbered next (l.map make)) : ∃ a ∈ l, ∃ n, next ≤ n ∧ n < next + l.length ∧ r = make a n := by
  induction l generalizing next with
  | nil => cases h
  | cons a l ih =>
    rw [List.map_cons, numbered] at h
    rw [List.length_cons]
    rcases List.mem_cons.mp h with rfl | h
    · exact ⟨a, List.mem_cons_self, next, Nat.le_refl _, by omega, rfl⟩
    · obtain ⟨b, hb, n, hn, hlt, rfl⟩ := ih h
      exact ⟨b, List.mem_cons_of_mem _ hb, n, by omega, by omega, rfl⟩

theorem numbered_mem {α : Type} {make : α → Nat → R} {l : List α} {a : α} (h : a ∈ l) (next : Nat) :
    ∃ n, make a n ∈ numbered next (l.map make) := by
  induction l generalizing next with
  | nil => cases h
  | cons b l ih =>
    rw [List.map_cons, numbered]
    rcases List.mem_cons.mp h with rfl | h
    · exact ⟨next, List.mem_cons_self⟩
    · obtain ⟨n, hin⟩ := ih h (next + 1)
      exact ⟨n, List.mem_cons_of_mem _ hin⟩

theorem numbered_getElem? (next k : Nat) (makes : List (Nat → R)) :
    (numbered next makes)[k]? = makes[k]?.map fun make => make (next + k) := by
  induction makes generalizing next k with
  | nil => rfl
  | cons make makes ih =>
    cases k with
    | zero => rfl
    | succ k =>
      rw [numbered, List.getElem?_cons_succ, List.getElem?_cons_succ, ih]
      have hnext : next + 1 + k = next + (k + 1) := by omega
      rw [hnext]

/-- A row that refers back to what it was made from is found by that, behind rows that do not refer back. -/
theorem numbered_found {α : Type} (make : α → Nat → R) (back : R → Option Nat) (key : α → Nat) {l : List α} {a : α}
    {old : List R} (hback : ∀ a n, back (make a n) = some (key a)) (hnodup : (l.map key).Nodup)
    (hold : ∀ r ∈ old, back r = none) (ha : a ∈ l) (next : Nat) : ∃ n, make a n ∈ numbered next (l.map make) ∧
      (old ++ numbered next (l.map make)).find? (fun r => back r = some (key a)) = some (make a n) := by
  obtain ⟨n, hin⟩ := numbered_mem ha next
  refine ⟨n, hin, ?_⟩
  have hbacks : ((numbered next (l.map make)).map back).Nodup := by
    rw [numbered_map back make (fun a => some (key a)) hback]
    have hsome := hnodup.map (Option.some_injective Nat)
    rw [List.map_map] at hsome
    exact hsome
  have hnone : old.find? (fun r => back r = some (key a)) = none := by
    rw [List.find?_eq_none]
    intro r hr h
    have heq : back r = some (key a) := of_decide_eq_true h
    rw [hold r hr] at heq
    cases heq
  rw [List.find?_append, hnone, Option.none_or, ← hback a n]
  exact find?_key hbacks hin

theorem numbered_pairwise {α : Type} {make : α → Nat → R} {rel : α → α → Prop} {apart : R → R → Prop} {l : List α}
    (h : l.Pairwise rel) (hmake : ∀ a b m n, rel a b → apart (make a m) (make b n)) (next : Nat) :
    (numbered next (l.map make)).Pairwise apart := by
  induction h generalizing next with
  | nil => exact List.Pairwise.nil
  | @cons a l hall _ ih =>
    rw [List.map_cons, numbered]
    apply List.Pairwise.cons _ (ih (next + 1))
    intro r hr
    obtain ⟨b, hb, n, _, _, rfl⟩ := mem_numbered hr
    exact hmake a b next n (hall b hb)

/-- An insert that would leave the constraints intact succeeds. -/
theorem insert_ok {makes : List (Nat → R)}
    (h : ∀ c ∈ t.constraints, c.rule.Holds ids (t.rows ++ numbered t.next makes)) :
    t.insert ids makes =
      .ok { t with rows := t.rows ++ numbered t.next makes, next := t.next + makes.length } := by
  induction makes generalizing t with
  | nil => simp [insert, numbered, pure, Except.pure]
  | cons make makes ih =>
    rw [numbered, List.append_cons] at h
    have hnone : t.broken ids t.rows (make t.next) = none := by
      rw [broken_eq_none]
      intro c hc
      exact (Rule.holds_concat.mp (Rule.holds_append (h c hc))).2
    have hrow : insertRow ids t make = .ok { t with rows := t.rows ++ [make t.next], next := t.next + 1 } := by
      unfold insertRow
      rw [hnone]
    have hrest := ih (t := { t with rows := t.rows ++ [make t.next], next := t.next + 1 }) h
    unfold insert at hrest ⊢
    rw [List.foldlM_cons, hrow]
    have hnext : t.next + 1 + makes.length = t.next + (makes.length + 1) := by omega
    have hrows : t.rows ++ numbered t.next (make :: makes) =
        t.rows ++ [make t.next] ++ numbered (t.next + 1) makes := List.append_cons ..
    rw [hrows, List.length_cons, ← hnext]
    exact hrest

/-- An insert that succeeds left the constraints intact. -/
theorem insert_valid {makes : List (Nat → R)} (hvalid : t.Valid ids) (h : t.insert ids makes = .ok t') :
    ∀ c ∈ t.constraints, c.rule.Holds ids (t.rows ++ numbered t.next makes) := by
  induction makes generalizing t with
  | nil =>
    rw [numbered, List.append_nil]
    exact hvalid
  | cons make makes ih =>
    unfold insert at h
    rw [List.foldlM_cons] at h
    unfold insertRow at h
    cases hbroken : t.broken ids t.rows (make t.next) with
    | some c =>
      rw [hbroken] at h
      cases h
    | none =>
      rw [hbroken] at h
      rw [broken_eq_none] at hbroken
      rw [numbered, List.append_cons]
      exact ih (t := { t with rows := t.rows ++ [make t.next], next := t.next + 1 })
        (fun c hc => Rule.holds_concat.mpr ⟨hvalid c hc, hbroken c hc⟩) h

/-- A row as an update leaves it that has visited some keys. -/
def settled (t : Table T R) (key : R → Nat) (change : R → Option R) (visited : List Nat) (r : R) : R :=
  if key r ∈ visited then (change r).elim r t.fire else r

theorem settled_key {key : R → Nat} {change : R → Option R}
    (hkey : ∀ r r', change r = some r' → key (t.fire r') = key r) (visited : List Nat) (r : R) :
    key (t.settled key change visited r) = key r := by
  unfold settled
  split
  · cases hchange : change r with
    | none => rfl
    | some r' => exact hkey r r' hchange
  · rfl

/-- All rows are new once all have been visited. -/
theorem map_settled {key : R → Nat} {change : R → Option R} {visited : List Nat} (h : ∀ r ∈ t.rows, key r ∈ visited) :
    t.rows.map (t.settled key change visited) = t.rows.map fun r => (change r).elim r t.fire := by
  apply List.map_congr_left
  intro r hr
  unfold settled
  rw [if_pos (h r hr)]

theorem settled_nil (key : R → Nat) (change : R → Option R) (r : R) : t.settled key change [] r = r := by
  unfold settled
  rw [if_neg List.not_mem_nil]

/-- The visit of one more row, which is admitted. -/
theorem settled_snoc {key : R → Nat} {change : R → Option R} {visited : List Nat} {k : Nat} (hk : k ∉ visited)
    (hnodup : (t.rows.map key).Nodup) (hkey : ∀ r r', change r = some r' → key (t.fire r') = key r)
    (hmay : ∀ r ∈ t.rows, key r = k → ∀ r', change r = some r' → ∀ c ∈ t.constraints,
      c.rule.admits ids ((t.rows.filter fun other => key other ≠ k).map (t.settled key change visited))
        (t.fire r') = true) :
    updateRow ids key change { t with rows := t.rows.map (t.settled key change visited) } k =
      .ok { t with rows := t.rows.map (t.settled key change (visited ++ [k])) } := by
  have hother : ∀ r, key r ≠ k → t.settled key change (visited ++ [k]) r = t.settled key change visited r := by
    intro r hne
    unfold settled
    simp only [List.mem_append, List.mem_singleton, hne, or_false]
  have hfind : (t.rows.map (t.settled key change visited)).find? (fun r => key r = k) =
      t.rows.find? fun r => key r = k := by
    rw [List.find?_map]
    have hsame : ((fun r => decide (key r = k)) ∘ t.settled key change visited) = fun r => decide (key r = k) := by
      funext r
      simp only [Function.comp_apply, settled_key hkey]
    rw [hsame]
    cases hr : t.rows.find? fun r => key r = k with
    | none => rfl
    | some r =>
      have hrk : key r = k := by simpa using List.find?_some hr
      show some (t.settled key change visited r) = some r
      unfold settled
      rw [if_neg (hrk ▸ hk)]
  unfold updateRow
  dsimp only
  rw [hfind]
  cases hr : t.rows.find? fun r => key r = k with
  | none =>
    have hall : ∀ r ∈ t.rows, key r ≠ k := by simpa using List.find?_eq_none.mp hr
    have hrows : t.rows.map (t.settled key change visited) = t.rows.map (t.settled key change (visited ++ [k])) :=
      List.map_congr_left fun r hin => (hother r (hall r hin)).symm
    rw [Option.bind_none, hrows]
  | some r =>
    have hin : r ∈ t.rows := List.mem_of_find?_eq_some hr
    have hrk : key r = k := by simpa using List.find?_some hr
    have honly : ∀ other ∈ t.rows, key other = k → other = r := by
      intro other hother' hok
      exact List.inj_on_of_nodup_map hnodup hother' hin (hok.trans hrk.symm)
    rw [Option.bind_some]
    cases hchange : change r with
    | none =>
      have hrows : t.rows.map (t.settled key change visited) = t.rows.map (t.settled key change (visited ++ [k])) := by
        apply List.map_congr_left
        intro other hother'
        by_cases hok : key other = k
        · obtain rfl := honly other hother' hok
          unfold settled
          simp only [hchange, Option.elim_none, ite_self]
        · exact (hother other hok).symm
      rw [hrows]
    | some r' =>
      have hrest : ((t.rows.map (t.settled key change visited)).filter fun other => key other ≠ k) =
          (t.rows.filter fun other => key other ≠ k).map (t.settled key change visited) := by
        rw [List.filter_map]
        congr 1
        apply List.filter_congr
        intro other _
        simp only [Function.comp_apply, settled_key hkey]
      have hnone : broken ids { t with rows := t.rows.map (t.settled key change visited) }
          ((t.rows.map (t.settled key change visited)).filter fun other => key other ≠ k) (t.fire r') = none := by
        rw [broken_eq_none, hrest]
        exact hmay r hin hrk r' hchange
      have hfire : ∀ x, fire { t with rows := t.rows.map (t.settled key change visited) } x = t.fire x := fun _ => rfl
      dsimp only
      rw [hfire, hnone]
      dsimp only
      rw [List.map_map]
      congr 2
      apply List.map_congr_left
      intro other hother'
      show (if key (t.settled key change visited other) = k then t.fire r' else _) = _
      rw [settled_key hkey]
      by_cases hok : key other = k
      · obtain rfl := honly other hother' hok
        unfold settled
        rw [if_pos hok, if_pos (List.mem_append_right _ (by simp [hok])), hchange]
        rfl
      · rw [if_neg hok, hother other hok]

/-- An update succeeds if each row may take its new version beside the rows as they then are. -/
theorem update_ok {key : R → Nat} {change : R → Option R} {order : List Nat} (horder : order.Nodup)
    (hnodup : (t.rows.map key).Nodup) (hkey : ∀ r r', change r = some r' → key (t.fire r') = key r)
    (hmay : ∀ visited, ∀ r ∈ t.rows, ∀ r', change r = some r' → ∀ c ∈ t.constraints,
      c.rule.admits ids ((t.rows.filter fun other => key other ≠ key r).map (t.settled key change visited))
        (t.fire r') = true) :
    t.update ids key change order = .ok { t with rows := t.rows.map (t.settled key change order) } := by
  have hgo : ∀ rest visited : List Nat, (visited ++ rest).Nodup →
      rest.foldlM (updateRow ids key change) { t with rows := t.rows.map (t.settled key change visited) } =
        .ok { t with rows := t.rows.map (t.settled key change (visited ++ rest)) } := by
    intro rest
    induction rest with
    | nil =>
      intro visited _
      rw [List.append_nil]
      rfl
    | cons k rest ih =>
      intro visited hvisited
      have hk : k ∉ visited := by
        intro hin
        exact List.disjoint_of_nodup_append hvisited hin List.mem_cons_self
      rw [List.foldlM_cons, settled_snoc hk hnodup hkey fun r hr hrk r' hchange => hrk ▸ hmay visited r hr r' hchange]
      have hsplit : visited ++ k :: rest = visited ++ [k] ++ rest := List.append_cons ..
      rw [hsplit] at hvisited ⊢
      exact ih _ hvisited
  have hstart := hgo order [] horder
  have hid : t.rows.map (t.settled key change []) = t.rows := by
    rw [List.map_congr_left fun r _ => settled_nil key change r, List.map_id']
  rw [hid] at hstart
  exact hstart

/-- The other rows while an update is under way: each is as it was or new already. -/
theorem mem_others {key : R → Nat} {change : R → Option R} {visited : List Nat} {k : Nat}
    (h : r' ∈ (t.rows.filter fun other => key other ≠ k).map (t.settled key change visited)) :
    ∃ other ∈ t.rows, key other ≠ k ∧ (r' = other ∨ ∃ new, change other = some new ∧ r' = t.fire new) := by
  obtain ⟨other, hother, rfl⟩ := List.mem_map.mp h
  obtain ⟨hin, hne⟩ := List.mem_filter.mp hother
  refine ⟨other, hin, of_decide_eq_true hne, ?_⟩
  unfold settled
  split
  · cases hchange : change other with
    | none => exact Or.inl rfl
    | some new => exact Or.inr ⟨new, rfl, rfl⟩
  · exact Or.inl rfl

/-- An update that visits every row once. -/
theorem update_all {key : R → Nat} {change : R → Option R} {order : List Nat} (horder : order.Perm (t.rows.map key))
    (hnodup : (t.rows.map key).Nodup) (hkey : ∀ r r', change r = some r' → key (t.fire r') = key r)
    (hmay : ∀ visited, ∀ r ∈ t.rows, ∀ r', change r = some r' → ∀ c ∈ t.constraints,
      c.rule.admits ids ((t.rows.filter fun other => key other ≠ key r).map (t.settled key change visited))
        (t.fire r') = true) :
    t.update ids key change order = .ok { t with rows := t.rows.map fun r => (change r).elim r t.fire } := by
  rw [update_ok (horder.nodup_iff.mpr hnodup) hnodup hkey hmay]
  rw [map_settled fun r hr => horder.mem_iff.mpr (List.mem_map_of_mem hr)]

/-- An update under constraints that do not see it, apart from checks that the new rows pass. -/
theorem update_changing {key : R → Nat} {change : R → Option R} {order : List Nat} {f : R → R}
    (horder : order.Perm (t.rows.map key)) (hnodup : (t.rows.map key).Nodup) (hkey : ∀ r, key (f r) = key r)
    (hchange : ∀ r r', change r = some r' → f (t.fire r') = f r)
    (hrules : ∀ c ∈ t.constraints, c.rule.Ignores f ∧ c.rule.Holds ids t.rows ∨ ∃ holds, c.rule = .check holds ∧
      ∀ r ∈ t.rows, ∀ r', change r = some r' → holds (t.fire r') = true) :
    t.update ids key change order = .ok { t with rows := t.rows.map fun r => (change r).elim r t.fire } := by
  apply update_all horder hnodup
  · intro r r' h
    rw [← hkey, hchange r r' h, hkey]
  · intro visited r hr r' h c hc
    rcases hrules c hc with ⟨hignores, hholds⟩ | ⟨holds, hrule, hpass⟩
    · apply hignores.respects.admits hholds hr (hchange r r' h)
      intro other' hother'
      obtain ⟨other, hother, hne, hcase⟩ := mem_others hother'
      refine ⟨other, hother, hne, ?_⟩
      rcases hcase with rfl | ⟨new, hnew, rfl⟩
      · rfl
      · exact hchange other new hnew
    · rw [hrule]
      exact hpass r hr r' h

/-- The first row visited is checked beside the old rows. -/
theorem update_error {key : R → Nat} {change : R → Option R} {order : List Nat} {c : Constraint T R}
    (hnodup : (t.rows.map key).Nodup) (hr : r ∈ t.rows) (hchange : change r = some r') (hc : c ∈ t.constraints)
    (hbroken : c.rule.admits ids (t.rows.filter fun other => key other ≠ key r) (t.fire r') = false) :
    ∃ e, t.update ids key change (key r :: order) = .error e := by
  have hfind : t.rows.find? (fun other => key other = key r) = some r := by
    cases hfound : t.rows.find? fun other => key other = key r with
    | none =>
      have hnone := List.find?_eq_none.mp hfound r hr
      simp at hnone
    | some other =>
      have hkey : key other = key r := by simpa using List.find?_some hfound
      rw [List.inj_on_of_nodup_map hnodup (List.mem_of_find?_eq_some hfound) hr hkey]
  have hsome : ∃ d, t.broken ids (t.rows.filter fun other => key other ≠ key r) (t.fire r') = some d := by
    cases hfound : t.broken ids (t.rows.filter fun other => key other ≠ key r) (t.fire r') with
    | none =>
      have hmays := broken_eq_none.mp hfound c hc
      rw [hbroken] at hmays
      cases hmays
    | some d => exact ⟨d, rfl⟩
  obtain ⟨d, hd⟩ := hsome
  refine ⟨.violated d.name, ?_⟩
  unfold update
  rw [List.foldlM_cons]
  unfold updateRow
  rw [hfind, Option.bind_some, hchange]
  dsimp only
  rw [hd]
  rfl

/-- A delete that no foreign key forbids. -/
theorem delete_ok {key : R → Nat} {goes : R → Bool} {referring : List (String × List Nat)}
    (h : ∀ p ∈ referring, ∀ r ∈ t.rows, goes r = true → key r ∉ p.2) :
    t.delete key goes referring = .ok { t with rows := t.rows.filter fun r => !goes r } := by
  have hnone : (referring.find? fun p => t.rows.any fun r => goes r && p.2.contains (key r)) = none := by
    rw [List.find?_eq_none]
    intro p hp hany
    obtain ⟨r, hr, hboth⟩ := List.any_eq_true.mp hany
    rw [Bool.and_eq_true, List.contains_iff_mem] at hboth
    exact h p hp r hr hboth.1 hboth.2
  unfold delete
  rw [hnone]

end Table

end

section
variable {slot : Slot D T R} {db db' : D} {t t' : Table T R} {name : String}
  {f : D → Table T R → Except Error (Table T R)} {statement : Statement D} {rest first : List (Statement D)}

theorem run_nil (db : D) : run [] db = .ok db := rfl

theorem run_cons_ok (h : statement db = .ok db') : run (statement :: rest) db = run rest db' := by
  unfold run
  rw [List.foldlM_cons, h]
  rfl

theorem run_cons_error {e : Error} (h : statement db = .error e) : run (statement :: rest) db = .error e := by
  unfold run
  rw [List.foldlM_cons, h]
  rfl

theorem run_append_ok (h : run first db = .ok db') : run (first ++ rest) db = run rest db' := by
  unfold run at h ⊢
  rw [List.foldlM_append, h]
  rfl

theorem run_append_error {e : Error} (h : run first db = .error e) : run (first ++ rest) db = .error e := by
  unfold run at h ⊢
  rw [List.foldlM_append, h]
  rfl

theorem alter_ok (hget : slot.get db = some t) (hname : t.name = name) (hf : f db t = .ok t') :
    slot.alter name f db = .ok (slot.set (some t') db) := by
  unfold Slot.alter
  simp only [hget, hname, if_true, hf]
  rfl

theorem alter_error {e : Error} (hget : slot.get db = some t) (hname : t.name = name) (hf : f db t = .error e) :
    slot.alter name f db = .error e := by
  unfold Slot.alter
  simp only [hget, hname, if_true, hf]
  rfl

theorem addConstraint_ok {ids : T → List Nat} {c : Constraint T R}
    (hname : (t.constraints.any fun other => other.name = c.name) = false) (h : c.rule.Holds ids t.rows) :
    t.addConstraint ids c = .ok { t with constraints := t.constraints ++ [c] } := by
  unfold Table.addConstraint
  rw [hname, if_neg Bool.false_ne_true, if_pos h]

/-- Constraints added one after the other. -/
theorem run_addConstraints (slot : Slot D T R) (db : D) (t : Table T R) {ids : D → T → List Nat}
    {cs : List (Constraint T R)} (hname : t.name = name)
    (hget : ∀ t db, slot.get (slot.set (some t) db) = some t)
    (hset : ∀ t t' db, slot.set (some t) (slot.set (some t') db) = slot.set (some t) db)
    (hids : ∀ cs, ids (slot.set (some { t with constraints := cs }) db) = ids (slot.set (some t) db))
    (hnames : ((t.constraints ++ cs).map Constraint.name).Nodup)
    (hholds : ∀ c ∈ cs, c.rule.Holds (ids (slot.set (some t) db)) t.rows) :
    run (cs.map fun c => slot.alter name fun db => Table.addConstraint (ids db) c) (slot.set (some t) db) =
      .ok (slot.set (some { t with constraints := t.constraints ++ cs }) db) := by
  induction cs generalizing t with
  | nil =>
    rw [List.append_nil]
    rfl
  | cons c cs ih =>
    have hfresh : (t.constraints.any fun other => other.name = c.name) = false := by
      rw [List.map_append, List.nodup_append] at hnames
      rw [List.any_eq_false]
      intro other hother heq
      exact hnames.2.2 other.name (List.mem_map_of_mem hother) c.name (by simp) (of_decide_eq_true heq)
    have halter : slot.alter name (fun db => Table.addConstraint (ids db) c) (slot.set (some t) db) =
        .ok (slot.set (some { t with constraints := t.constraints ++ [c] }) db) := by
      rw [alter_ok (hget t db) hname (addConstraint_ok hfresh (hholds c List.mem_cons_self)), hset]
    have hcs : t.constraints ++ c :: cs = t.constraints ++ [c] ++ cs := List.append_cons ..
    have hsame := hids (t.constraints ++ [c])
    rw [List.map_cons, run_cons_ok halter, hcs]
    rw [hcs] at hnames
    apply ih { t with constraints := t.constraints ++ [c] }
    · exact hname
    · intro cs'
      rw [hsame]
      exact hids cs'
    · exact hnames
    · intro c' hc'
      rw [hsame]
      exact hholds c' (List.mem_cons_of_mem _ hc')

end

end MarketplaceApi.Sql
