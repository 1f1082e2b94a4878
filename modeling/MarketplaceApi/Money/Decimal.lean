import Mathlib.Algebra.Group.Nat.Defs
import Mathlib.Data.List.Basic

/-!
# Money as a decimal string

Amounts travel as strings with two decimals. Money is taken as exact cents: `toFixed`
prints them, `toCents` reads them back, `matchesAmount` is the pattern a receiver checks.
-/
namespace MarketplaceApi.Money

/-- `toFixed(2)` of a non-negative number of whole cents. -/
def toFixed (cents : Nat) : List Char :=
  Nat.toDigits 10 (cents / 100) ++ ['.', Nat.digitChar (cents / 10 % 10), Nat.digitChar (cents % 10)]

/-- `(\.\d{1,2})?$` -/
def isFraction : List Char → Bool
  | [] => true
  | c :: digits => c == '.' && decide (1 ≤ digits.length ∧ digits.length ≤ 2) && digits.all Char.isDigit

/-- `/^\d{1,10}(\.\d{1,2})?$/` -/
def matchesAmount (s : List Char) : Bool :=
  decide (1 ≤ (s.takeWhile Char.isDigit).length ∧ (s.takeWhile Char.isDigit).length ≤ 10) &&
    isFraction (s.dropWhile Char.isDigit)

def fractionCents : List Char → Nat
  | [] => 0
  | _ :: digits => 10 ^ (2 - digits.length) * Nat.ofDigitChars 10 digits 0

/-- The cents a matching string denotes. -/
def toCents (s : List Char) : Nat :=
  100 * Nat.ofDigitChars 10 (s.takeWhile Char.isDigit) 0 + fractionCents (s.dropWhile Char.isDigit)

section
variable {cents : Nat} {s : List Char}

theorem isDigit_digitChar {n : Nat} (h : n < 10) : (Nat.digitChar n).isDigit = true := by
  have hmem : Nat.digitChar n ∈ Nat.toDigits 10 n := by
    rw [Nat.toDigits_of_lt_base h]
    exact List.mem_cons_self
  exact Nat.isDigit_of_mem_toDigits (by decide) (by decide) hmem

theorem takeWhile_toFixed : (toFixed cents).takeWhile Char.isDigit = Nat.toDigits 10 (cents / 100) := by
  have hdigits : ∀ c ∈ Nat.toDigits 10 (cents / 100), c.isDigit = true :=
    fun c hc => Nat.isDigit_of_mem_toDigits (by decide) (by decide) hc
  rw [toFixed, List.takeWhile_append_of_pos hdigits, List.takeWhile_cons_of_neg (by decide),
    List.append_nil]

theorem dropWhile_toFixed : (toFixed cents).dropWhile Char.isDigit =
    ['.', Nat.digitChar (cents / 10 % 10), Nat.digitChar (cents % 10)] := by
  have hdigits : ∀ c ∈ Nat.toDigits 10 (cents / 100), c.isDigit = true :=
    fun c hc => Nat.isDigit_of_mem_toDigits (by decide) (by decide) hc
  rw [toFixed, List.dropWhile_append_of_pos hdigits, List.dropWhile_cons_of_neg (by decide)]

/-- The pattern admits an amount exactly when it is in the range of `numeric(12,2)`. -/
theorem matchesAmount_toFixed : matchesAmount (toFixed cents) = true ↔ cents < 10 ^ 12 := by
  have hlen := Nat.length_toDigits_le_iff (b := 10) (n := cents / 100) (k := 10) (by decide) (by decide)
  have hpos := Nat.length_toDigits_pos (b := 10) (n := cents / 100)
  have htenths := isDigit_digitChar (n := cents / 10 % 10) (by omega)
  have hunits := isDigit_digitChar (n := cents % 10) (by omega)
  rw [matchesAmount, takeWhile_toFixed, dropWhile_toFixed, isFraction, Bool.and_eq_true,
    decide_eq_true_eq, hlen]
  simp only [List.all_cons, List.all_nil, htenths, hunits]
  constructor
  · intro h
    have hwhole := h.1.2
    omega
  · intro h
    exact ⟨⟨hpos, by omega⟩, rfl⟩

/-- Printing and reading an amount is the identity. -/
theorem toCents_toFixed : toCents (toFixed cents) = cents := by
  rw [toCents, takeWhile_toFixed, dropWhile_toFixed, fractionCents,
    Nat.ofDigitChars_ten_toDigits, Nat.ofDigitChars_cons_digitChar_of_lt_ten (by omega),
    Nat.ofDigitChars_cons_digitChar_of_lt_ten (by omega), Nat.ofDigitChars_nil]
  simp only [List.length_cons, List.length_nil]
  omega

theorem digit_le {c : Char} (h : c.isDigit = true) : c.toNat - '0'.toNat ≤ 9 := by
  have hbound := Char.isDigit_iff_toNat.mp h
  simp only [Char.reduceToNat] at hbound ⊢
  omega

theorem ofDigitChars_lt {ds : List Char} (h : ∀ c ∈ ds, c.isDigit = true) :
    Nat.ofDigitChars 10 ds 0 < 10 ^ ds.length := by
  induction ds with
  | nil => decide
  | cons c ds ih =>
    have hc := digit_le (h c List.mem_cons_self)
    have hrest := ih fun d hd => h d (List.mem_cons_of_mem _ hd)
    rw [Nat.ofDigitChars_cons, Nat.ofDigitChars_eq_ofDigitChars_zero, Nat.mul_zero, Nat.zero_add,
      List.length_cons, Nat.pow_succ]
    have hmul := Nat.mul_le_mul_left (10 ^ ds.length) hc
    omega

theorem fractionCents_lt {rest : List Char} (h : isFraction rest = true) : fractionCents rest < 100 := by
  cases rest with
  | nil => decide
  | cons c digits =>
    simp only [isFraction, Bool.and_eq_true, List.all_eq_true, decide_eq_true_eq] at h
    obtain ⟨⟨_, hpos, hlen⟩, hdigits⟩ := h
    have hlt := ofDigitChars_lt hdigits
    rw [fractionCents]
    obtain hone | htwo : digits.length = 1 ∨ digits.length = 2 := by omega
    · rw [hone] at hlt ⊢
      omega
    · rw [htwo] at hlt ⊢
      omega

/-- What the pattern accepts fits `numeric(12,2)`. -/
theorem toCents_lt (h : matchesAmount s = true) : toCents s < 10 ^ 12 := by
  simp only [matchesAmount, Bool.and_eq_true, decide_eq_true_eq] at h
  obtain ⟨⟨_, hlen⟩, hfraction⟩ := h
  have hdigits : ∀ c ∈ s.takeWhile Char.isDigit, c.isDigit = true :=
    fun c hc => List.all_eq_true.mp List.all_takeWhile c hc
  have hwhole := ofDigitChars_lt hdigits
  have hpow := Nat.pow_le_pow_right (by decide : 0 < 10) hlen
  have hcents := fractionCents_lt hfraction
  rw [toCents]
  omega

end

end MarketplaceApi.Money
