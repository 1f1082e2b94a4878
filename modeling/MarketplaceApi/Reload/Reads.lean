import Mathlib.Data.List.Basic

/-!
# Reads that take effect later

A replica copies a value it has read from elsewhere some time ago. Several reads may be under
way at once, kept here in the order they were made, and end in any order. `Newer` is what holds
between the value of an earlier and of a later read.
-/
namespace MarketplaceApi.Reload

/-- `overtaken`: a read made later has taken effect already. -/
structure Read (V : Type) where
  value : V
  overtaken : Bool

variable {V : Type}

def Read.overtake (r : Read V) : Read V := { r with overtaken := true }

def start (value : V) (reads : List (Read V)) : List (Read V) := reads ++ [⟨value, false⟩]

/-- The read number `n` takes effect. -/
def finish (n : Nat) (reads : List (Read V)) : List (Read V) :=
  (reads.take n).map Read.overtake ++ reads.drop (n + 1)

def fail (n : Nat) (reads : List (Read V)) : List (Read V) := reads.eraseIdx n

/-- Every read that may still take effect in order has the property. -/
def Fresh (P : V → Prop) (reads : List (Read V)) : Prop := ∀ r ∈ reads, r.overtaken = false → P r.value

/-- The reads were made in an order that respects `Newer`. -/
def Ordered (Newer : V → V → Prop) (reads : List (Read V)) : Prop :=
  reads.Pairwise fun r r' => Newer r.value r'.value

section
variable {P Q : V → Prop} {Newer : V → V → Prop} {reads : List (Read V)} {r : Read V} {value : V} {n : Nat}

theorem mem_start : r ∈ start value reads ↔ r ∈ reads ∨ r = ⟨value, false⟩ := by
  simp [start]

/-- What is left was there before, and not fresher. -/
theorem mem_finish (h : r ∈ finish n reads) :
    ∃ r' ∈ reads, r'.value = r.value ∧ (r.overtaken = false → r'.overtaken = false) := by
  rcases List.mem_append.mp h with hold | hyounger
  · obtain ⟨r', hr', rfl⟩ := List.mem_map.mp hold
    exact ⟨r', List.mem_of_mem_take hr', rfl, nofun⟩
  · exact ⟨r, List.mem_of_mem_drop hyounger, rfl, id⟩

theorem mem_fail (h : r ∈ fail n reads) : r ∈ reads := List.mem_of_mem_eraseIdx h

theorem Fresh.mono (h : Fresh P reads) (hP : ∀ v, P v → Q v) : Fresh Q reads := fun r hr hfresh => hP _ (h r hr hfresh)

theorem Fresh.start (h : Fresh P reads) (hvalue : P value) : Fresh P (start value reads) := by
  intro r hr hfresh
  rcases mem_start.mp hr with hold | rfl
  · exact h r hold hfresh
  · exact hvalue

theorem Fresh.finish (h : Fresh P reads) : Fresh P (finish n reads) := by
  intro r hr hfresh
  obtain ⟨r', hr', hvalue, hfresh'⟩ := mem_finish hr
  rw [← hvalue]
  exact h r' hr' (hfresh' hfresh)

theorem Fresh.fail (h : Fresh P reads) : Fresh P (fail n reads) := fun r hr => h r (mem_fail hr)

theorem Ordered.start (h : Ordered Newer reads) (hvalue : ∀ r ∈ reads, Newer r.value value) :
    Ordered Newer (start value reads) := by
  refine List.pairwise_append.mpr ⟨h, List.pairwise_singleton _ _, fun r hr r' hr' => ?_⟩
  rw [List.mem_singleton] at hr'
  subst hr'
  exact hvalue r hr

theorem Ordered.finish (h : Ordered Newer reads) : Ordered Newer (finish n reads) := by
  have hsplit : reads.take n ++ reads.drop (n + 1) = reads.eraseIdx n := (List.eraseIdx_eq_take_drop_succ _ _).symm
  have hrest : (reads.take n ++ reads.drop (n + 1)).Pairwise fun r r' => Newer r.value r'.value := by
    rw [hsplit]
    exact h.sublist (List.eraseIdx_sublist _ _)
  rw [List.pairwise_append] at hrest
  refine List.pairwise_append.mpr ⟨List.pairwise_map.mpr hrest.1, hrest.2.1, fun r hr r' hr' => ?_⟩
  obtain ⟨old, hold, rfl⟩ := List.mem_map.mp hr
  exact hrest.2.2 old hold r' hr'

theorem Ordered.fail (h : Ordered Newer reads) : Ordered Newer (fail n reads) := h.sublist (List.eraseIdx_sublist _ _)

/-- After a read took effect, what may still take effect in order is newer than its value. -/
theorem Ordered.fresh_finish (h : Ordered Newer reads) {read : Read V} (hn : reads[n]? = some read) :
    Fresh (Newer read.value) (Reload.finish n reads) := by
  intro r hr hfresh
  rcases List.mem_append.mp hr with hold | hyounger
  · obtain ⟨old, _, rfl⟩ := List.mem_map.mp hold
    cases hfresh
  · obtain ⟨hlt, hread⟩ := List.getElem?_eq_some_iff.mp hn
    have hcons : reads.drop n = read :: reads.drop (n + 1) := by
      rw [← hread]
      exact List.drop_eq_getElem_cons hlt
    have hpair : (reads.drop n).Pairwise fun r r' => Newer r.value r'.value := h.sublist (List.drop_sublist _ _)
    rw [hcons, List.pairwise_cons] at hpair
    exact hpair.1 r hyounger

end

end MarketplaceApi.Reload
