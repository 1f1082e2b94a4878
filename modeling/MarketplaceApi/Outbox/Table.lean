import Mathlib.Data.List.Nodup
import Mathlib.Order.Lattice

/-!
# Outbox tables

The columns every outbox table has, and the statements of its repository. The four
repositories differ in names only, so there is one definition of each statement.
-/
namespace MarketplaceApi.Outbox

/-- A row with key `I` and further columns `P`. `committedAt` is no column: it is the time
the transaction that wrote the row committed. -/
structure Row (I P : Type) where
  id : I
  columns : P
  createdAt : Nat
  committedAt : Nat
  publishedAt : Option Nat
  attempts : Nat
  lastError : Option String

variable {I P : Type}

/-- What no statement changes. -/
def Row.Same (row other : Row I P) : Prop :=
  other = { row with publishedAt := other.publishedAt, attempts := other.attempts, lastError := other.lastError }

theorem Row.Same.refl (row : Row I P) : row.Same row := rfl

theorem Row.Same.trans {x y z : Row I P} (h : x.Same y) (h' : y.Same z) : x.Same z := by
  unfold Row.Same at h h' ⊢
  rw [h', h]

theorem Row.Same.symm {x y : Row I P} (h : x.Same y) : y.Same x := by
  unfold Row.Same at h ⊢
  rw [h]

theorem Row.Same.id {x y : Row I P} (h : x.Same y) : y.id = x.id := by rw [h]

/-- `"publishedAt" IS NULL OR "publishedAt" >= "createdAt"` -/
def Row.allowed (row : Row I P) : Bool := row.publishedAt.all fun t => decide (row.createdAt ≤ t)

section
variable [LinearOrder I]

/-- `ORDER BY "createdAt" ASC, "id" ASC` -/
def Row.before (row other : Row I P) : Bool :=
  decide (row.createdAt < other.createdAt ∨ row.createdAt = other.createdAt ∧ row.id ≤ other.id)

namespace OutboxRepository

/-- The rows `claimUnpublished` goes through: `"publishedAt" IS NULL`, in order. -/
def unpublished (rows : List (Row I P)) : List (Row I P) :=
  (rows.filter fun row => row.publishedAt.isNone).mergeSort Row.before

def markPublished (ids : List I) (now : Nat) (rows : List (Row I P)) : List (Row I P) :=
  rows.map fun row => if row.id ∈ ids then { row with publishedAt := some now } else row

def recordFailure (id : I) (lastError : String) (rows : List (Row I P)) : List (Row I P) :=
  rows.map fun row =>
    if row.id = id then { row with attempts := row.attempts + 1, lastError := some lastError } else row

def deletePublishedBefore (before : Nat) (rows : List (Row I P)) : List (Row I P) :=
  rows.filter fun row => !row.publishedAt.any fun t => decide (t < before)

end OutboxRepository

open OutboxRepository

theorem mem_unpublished {rows : List (Row I P)} {row : Row I P} :
    row ∈ unpublished rows ↔ row ∈ rows ∧ row.publishedAt = none := by
  unfold unpublished
  rw [List.mem_mergeSort, List.mem_filter, Option.isNone_iff_eq_none]

theorem mem_markPublished {ids : List I} {now : Nat} {rows : List (Row I P)} {row : Row I P} :
    row ∈ markPublished ids now rows ↔ ∃ old ∈ rows,
      row = if old.id ∈ ids then { old with publishedAt := some now } else old := by
  unfold markPublished
  rw [List.mem_map]
  exact exists_congr fun old => and_congr_right fun _ => eq_comm

theorem mem_recordFailure {id : I} {lastError : String} {rows : List (Row I P)} {row : Row I P} :
    row ∈ recordFailure id lastError rows ↔ ∃ old ∈ rows, row =
      if old.id = id then { old with attempts := old.attempts + 1, lastError := some lastError } else old := by
  unfold recordFailure
  rw [List.mem_map]
  exact exists_congr fun old => and_congr_right fun _ => eq_comm

theorem ids_markPublished (ids : List I) (now : Nat) (rows : List (Row I P)) :
    (markPublished ids now rows).map Row.id = rows.map Row.id := by
  unfold markPublished
  rw [List.map_map]
  refine List.map_congr_left fun row _ => ?_
  rw [Function.comp_apply]
  split <;> rfl

theorem ids_recordFailure (id : I) (lastError : String) (rows : List (Row I P)) :
    (recordFailure id lastError rows).map Row.id = rows.map Row.id := by
  unfold recordFailure
  rw [List.map_map]
  refine List.map_congr_left fun row _ => ?_
  rw [Function.comp_apply]
  split <;> rfl

end

/-- The cleanup keeps every row that is not published. -/
theorem mem_deletePublished {before : Nat} {rows : List (Row I P)} {row : Row I P} :
    row ∈ OutboxRepository.deletePublishedBefore before rows ↔
      row ∈ rows ∧ ∀ t, row.publishedAt = some t → before ≤ t := by
  unfold OutboxRepository.deletePublishedBefore
  rw [List.mem_filter]
  cases row.publishedAt with
  | none => simp
  | some t => simp

end MarketplaceApi.Outbox
