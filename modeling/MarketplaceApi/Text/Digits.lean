import Mathlib.Data.List.Basic

/-!
# Numbers as text

The decimal digits of a number, as `toString` and a cast to text write them: no two numbers
have the same, also at the end of a longer text. Also the space of a pattern and what a text column keeps.
-/
namespace MarketplaceApi.Text

/-- `\s` in a pattern of the database: `iswspace` in a UTF-8 locale. -/
def isSpace (c : Char) : Bool :=
  decide (9 ≤ c.toNat ∧ c.toNat ≤ 13 ∨ 0x2000 ≤ c.toNat ∧ c.toNat ≤ 0x200A ∧ c.toNat ≠ 0x2007) ||
    [0x20, 0x1680, 0x2028, 0x2029, 0x205F, 0x3000].contains c.toNat

/-- A text of the database has no NUL. -/
def isStorable (text : String) : Bool := text.toList.all fun c => c != '\x00'

theorem toString_nat (n : Nat) : (toString n).toList = Nat.toDigits 10 n := Nat.toList_repr

theorem toString_int (n : Int) : (toString n).toList =
    if 0 ≤ n then Nat.toDigits 10 n.toNat else '-' :: Nat.toDigits 10 (-n).toNat := by
  rw [Int.toString_eq_repr, Int.repr_eq_if]
  split
  · exact Nat.toList_repr
  · rw [String.toList_append, Nat.toList_repr]
    rfl

theorem toDigits_injective {m n : Nat} (h : Nat.toDigits 10 m = Nat.toDigits 10 n) : m = n := by
  have hm := Nat.ofDigitChars_ten_toDigits (n := m)
  rw [h, Nat.ofDigitChars_ten_toDigits] at hm
  exact hm.symm

theorem isDigit_toDigits {n : Nat} {c : Char} (h : c ∈ Nat.toDigits 10 n) : c.isDigit = true :=
  Nat.isDigit_of_mem_toDigits (by decide) (by decide) h

theorem toString_int_injective {m n : Int} (h : (toString m).toList = (toString n).toList) : m = n := by
  have hsign : ∀ k, '-' ∉ Nat.toDigits 10 k := fun k hk => absurd (isDigit_toDigits hk) (by decide)
  rw [toString_int, toString_int] at h
  split at h
  · split at h
    · have hnat := toDigits_injective h
      omega
    · exact absurd (h ▸ List.mem_cons_self) (hsign _)
  · split at h
    · exact absurd (h ▸ List.mem_cons_self) (hsign _)
    · have hnat := toDigits_injective (List.cons.inj h).2
      omega

/-- The number at the end of a text, after a character that is not a digit. -/
theorem toDigits_suffix {before before' : List Char} {c c' : Char} {m n : Nat} (hc : c.isDigit = false)
    (hc' : c'.isDigit = false) (h : before ++ c :: Nat.toDigits 10 m = before' ++ c' :: Nat.toDigits 10 n) : m = n := by
  have hread : ∀ (b : List Char) (d : Char) (k : Nat), d.isDigit = false →
      (b ++ d :: Nat.toDigits 10 k).reverse.takeWhile Char.isDigit = (Nat.toDigits 10 k).reverse := by
    intro b d k hd
    have hdigits : ∀ x ∈ (Nat.toDigits 10 k).reverse, x.isDigit = true :=
      fun x hx => isDigit_toDigits (List.mem_reverse.mp hx)
    have hstop : ¬ d.isDigit = true := by
      rw [hd]
      exact Bool.false_ne_true
    rw [List.reverse_append, List.reverse_cons, List.append_assoc, List.takeWhile_append_of_pos hdigits,
      List.singleton_append, List.takeWhile_cons_of_neg hstop, List.append_nil]
  have hsame := congrArg (fun l => l.reverse.takeWhile Char.isDigit) h
  rw [hread _ _ _ hc, hread _ _ _ hc', List.reverse_inj] at hsame
  exact toDigits_injective hsame

end MarketplaceApi.Text
