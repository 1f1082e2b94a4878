import Mathlib.Data.List.Nodup
import Mathlib.Data.List.Perm.Subperm

/-!
# Column types

The domains and comparisons that the constraints of several tables share.
-/
namespace MarketplaceApi.Migrations

/-- `"deletedAt" IS NULL OR "deletedAt" >= "createdAt"` -/
def deletedAtOrder (createdAt : Nat) (deletedAt : Option Nat) : Bool := deletedAt.all fun t => createdAt ≤ t

/-- The domain `uint`, and what an identity column of type `integer` takes. -/
def uint (value : Nat) : Bool := 0 < value && value < 2147483648

/-- Equal and not `NULL`, as `=` and a unique index compare. -/
def equal {α : Type} [DecidableEq α] (x y : Option α) : Bool := x.isSome && x = y

/-- Different numbers that fit an `integer` are not more than an `integer` can count. -/
theorem length_lt_of_uint {l : List Nat} (hnodup : l.Nodup) (h : ∀ n ∈ l, uint n = true) : l.length < 2147483648 := by
  have hsub : l ⊆ List.range' 1 2147483647 := by
    intro n hn
    have hbound := h n hn
    simp only [uint, Bool.and_eq_true, decide_eq_true_eq] at hbound
    rw [List.mem_range'_1]
    omega
  have hle := (List.subperm_of_subset hnodup hsub).length_le
  rw [List.length_range'] at hle
  omega

theorem equal_some {α : Type} [DecidableEq α] {x y : α} (h : x ≠ y) : equal (some x) (some y) = false := by
  unfold equal
  simp [h]

theorem equal_comm {α : Type} [DecidableEq α] (x y : Option α) : equal x y = equal y x := by
  unfold equal
  rw [Bool.eq_iff_iff]
  simp only [Bool.and_eq_true, decide_eq_true_eq]
  constructor
  · rintro ⟨hx, rfl⟩
    exact ⟨hx, rfl⟩
  · rintro ⟨hy, rfl⟩
    exact ⟨hy, rfl⟩

end MarketplaceApi.Migrations
