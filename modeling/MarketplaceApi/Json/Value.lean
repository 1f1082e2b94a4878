import Mathlib.Algebra.Order.Ring.Rat
import Mathlib.Data.Rat.Cast.Order

/-!
# JSON values and numbers

What `JSON.parse` returns, and a JavaScript number as far as a comparison with an integer can
tell.
-/
namespace MarketplaceApi

inductive Json where
  | null
  | bool (b : Bool)
  | number (value : Rat)
  | string (text : String)
  | array (items : List Json)
  | object (members : List (String × Json))

namespace Json

/-- The member of an object, `undefined` of any other value. -/
def get? (name : String) : Json → Option Json
  | .object members => members.lookup name
  | _ => none

/-- `Number.isSafeInteger` of a positive value. -/
def positiveInteger? : Json → Option Nat
  | .number value =>
    if value.den = 1 ∧ 0 < value.num ∧ value.num < 2 ^ 53 then some value.num.toNat else none
  | _ => none

end Json

/-- A value of the type `number`. -/
inductive Number where
  | nan
  | negInfinity
  | finite (value : Rat)
  | infinity

namespace Number

/-- The integer, where `Number.isSafeInteger` holds. -/
def safeInteger? : Number → Option Int
  | .finite value => if value.den = 1 ∧ value.num.natAbs < 2 ^ 53 then some value.num else none
  | _ => none

/-- `id > x` -/
def below (id : Nat) : Number → Bool
  | .nan => false
  | .negInfinity => true
  | .finite value => decide (value < id)
  | .infinity => false

/-- `id <= x` -/
def covers (id : Nat) : Number → Bool
  | .nan => false
  | .negInfinity => false
  | .finite value => decide ((id : Rat) ≤ value)
  | .infinity => true

/-- Of two numbers one is above the other or not; only `NaN` is neither. -/
theorem covers_eq {x : Number} (h : x ≠ .nan) (id : Nat) : x.covers id = !x.below id := by
  cases x with
  | nan => exact absurd rfl h
  | negInfinity => rfl
  | infinity => rfl
  | finite value =>
    unfold covers below
    rw [← decide_not]
    exact decide_eq_decide.mpr not_lt.symm

theorem not_covers_of_below {x : Number} {id : Nat} (h : x.below id = true) : x.covers id = false := by
  have hne : x ≠ .nan := by
    rintro rfl
    cases h
  rw [covers_eq hne, h]
  rfl

theorem finite_of_safeInteger {x : Number} {n : Int} (h : x.safeInteger? = some n) : x = .finite n := by
  unfold safeInteger? at h
  split at h
  · rename_i value
    split at h
    · rename_i hvalue
      obtain rfl := Option.some.inj h
      exact congrArg Number.finite (Rat.coe_int_num_of_den_eq_one hvalue.1).symm
    · cases h
  · cases h

@[simp] theorem below_nat (id last : Nat) : (Number.finite last).below id = decide (last < id) :=
  decide_eq_decide.mpr Nat.cast_lt

@[simp] theorem covers_nat (id last : Nat) : (Number.finite last).covers id = decide (id ≤ last) :=
  decide_eq_decide.mpr Nat.cast_le

theorem below_mono {x : Number} {id later : Nat} (h : x.below id = true) (hl : id ≤ later) :
    x.below later = true := by
  cases x with
  | nan => exact h
  | negInfinity => rfl
  | infinity => exact h
  | finite value => exact decide_eq_true ((of_decide_eq_true h).trans_le (Nat.cast_le.mpr hl))

theorem not_covers_mono {x : Number} {id later : Nat} (h : x.covers id = false) (hl : id ≤ later) :
    x.covers later = false := by
  cases x with
  | nan => rfl
  | negInfinity => rfl
  | infinity => exact h
  | finite value => exact decide_eq_false fun hc => of_decide_eq_false h ((Nat.cast_le.mpr hl).trans hc)

end Number

end MarketplaceApi
