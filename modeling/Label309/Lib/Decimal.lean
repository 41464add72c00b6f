import Mathlib

/-!
# Decimal fields

A number in a field of a fixed width. The digits are read back as the number, and fields of one width
are in the order of their numbers, as characters and whatever follows them.
-/
namespace Decimal

/-- The last `w` decimal digits of a number. -/
def field : ℕ → ℕ → List Char
  | 0, _ => []
  | w + 1, n => field w (n / 10) ++ [Nat.digitChar (n % 10)]

@[simp] theorem length_field (w n : ℕ) : (field w n).length = w := by
  induction w generalizing n with
  | zero => rfl
  | succ w ih => simp [field, ih]

@[simp] theorem drop_field {w k : ℕ} (h : w ≤ k) (n : ℕ) : (field w n).drop k = [] :=
  List.drop_of_length_le (by simpa using h)

theorem field_zero (w : ℕ) : field w 0 = List.replicate w '0' := by
  induction w with
  | zero => rfl
  | succ w ih =>
      rw [field, Nat.zero_div, ih, List.replicate_succ']
      rfl

/-- A number that fits is padded with zeros. -/
theorem field_eq {w n : ℕ} (hw : w ≠ 0) (h : n < 10 ^ w) :
    field w n = List.replicate (w - (Nat.toDigits 10 n).length) '0' ++ Nat.toDigits 10 n := by
  induction w generalizing n with
  | zero => exact absurd rfl hw
  | succ w ih =>
      rw [field]
      by_cases hn : n < 10
      · rw [Nat.div_eq_of_lt hn, field_zero, Nat.mod_eq_of_lt hn, Nat.toDigits_of_lt_base hn]
        rfl
      · have hdiv : n / 10 < 10 ^ w := by
          rw [pow_succ, Nat.mul_comm] at h
          exact Nat.div_lt_of_lt_mul h
        have hw' : w ≠ 0 := by
          intro hzero
          rw [hzero, pow_zero] at hdiv
          omega
        rw [ih hw' hdiv, Nat.toDigits_of_base_le (by decide) (by omega : 10 ≤ n), List.length_append,
          List.length_singleton, Nat.add_sub_add_right, List.append_assoc]

/-- The digits are read back. -/
theorem ofDigitChars_field {w n : ℕ} (h : n < 10 ^ w) : Nat.ofDigitChars 10 (field w n) 0 = n := by
  induction w generalizing n with
  | zero =>
      rw [pow_zero] at h
      rw [field, Nat.ofDigitChars_nil]
      omega
  | succ w ih =>
      rw [pow_succ, Nat.mul_comm] at h
      have hdigit : (Nat.digitChar (n % 10)).toNat - '0'.toNat = n % 10 := by
        rw [Nat.toNat_digitChar_of_lt_ten (Nat.mod_lt _ (by decide))]
        exact Nat.add_sub_cancel_left _ _
      rw [field, Nat.ofDigitChars_append, ih (Nat.div_lt_of_lt_mul h), Nat.ofDigitChars_cons,
        Nat.ofDigitChars_nil, hdigit]
      omega

/-! ## The order of texts -/

section Lex
variable {w m n : ℕ} {as bs : List Char}

theorem digitChar_lt {a b : ℕ} (h : a < b) (hb : b < 10) : Nat.digitChar a < Nat.digitChar b := by
  rw [Char.lt_def, UInt32.lt_iff_toNat_lt]
  have ha := Nat.toNat_digitChar_of_lt_ten (by omega : a < 10)
  have hb' := Nat.toNat_digitChar_of_lt_ten hb
  simp only [Char.toNat] at ha hb'
  omega

/-- Fields of one width are in the order of their numbers. -/
theorem field_append_lt (h : m < n) (hn : n < 10 ^ w) : field w m ++ as < field w n ++ bs := by
  induction w generalizing m n as bs with
  | zero =>
      rw [pow_zero] at hn
      omega
  | succ w ih =>
      rw [pow_succ, Nat.mul_comm] at hn
      rw [field, field, List.append_assoc, List.append_assoc]
      by_cases hdiv : m / 10 < n / 10
      · exact ih hdiv (Nat.div_lt_of_lt_mul hn)
      · have heq : m / 10 = n / 10 := by omega
        rw [heq]
        refine List.append_left_lt ?_
        exact List.Lex.rel (digitChar_lt (by omega) (Nat.mod_lt _ (by decide)))

theorem field_lt (hn : n < 10 ^ w) (h : m < n ∨ m = n ∧ as < bs) :
    field w m ++ as < field w n ++ bs := by
  cases h with
  | inl hlt => exact field_append_lt hlt hn
  | inr heq =>
      rw [heq.1]
      exact List.append_left_lt heq.2

end Lex

end Decimal
