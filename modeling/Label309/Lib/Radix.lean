import Label309.Lib.BigEndian

/-!
# Numbers as little-endian bytes

The bytes of a number without leading zeros, and in a field of a fixed width. Multiplying by a
small radix and adding a digit, byte by byte with a carry, is the same on both.
-/
namespace Radix

/-- The little-endian bytes of a number, none for zero. -/
def leBytes (n : ℕ) : List UInt8 := (Nat.digits 256 n).map UInt8.ofNat

/-- The `w` little-endian bytes of a number, reduced modulo `256 ^ w`. -/
def leFixed : ℕ → ℕ → List UInt8
  | 0, _ => []
  | w + 1, n => UInt8.ofNat (n % 256) :: leFixed w (n / 256)

theorem leBytes_zero : leBytes 0 = [] := by
  rw [leBytes, Nat.digits_zero]
  rfl

theorem leBytes_pos {n : ℕ} (h : n ≠ 0) :
    leBytes n = UInt8.ofNat (n % 256) :: leBytes (n / 256) := by
  rw [leBytes, Nat.digits_def' (by decide) (by omega)]
  rfl

theorem leFixed_zero (w : ℕ) : leFixed w 0 = List.replicate w 0 := by
  induction w with
  | zero => rfl
  | succ w ih => rw [leFixed, Nat.zero_div, ih, List.replicate_succ]; rfl

/-- A field is as wide as asked. -/
@[simp] theorem length_leFixed (w n : ℕ) : (leFixed w n).length = w := by
  induction w generalizing n with
  | zero => rfl
  | succ w ih => rw [leFixed, List.length_cons, ih]

/-- A field that is wide enough has the bytes of the number, then zeros. -/
theorem leFixed_eq {w n : ℕ} (h : n < 256 ^ w) :
    leFixed w n = leBytes n ++ List.replicate (w - (leBytes n).length) 0 := by
  induction w generalizing n with
  | zero =>
      have hn : n = 0 := by simpa using h
      rw [hn, leBytes_zero]
      rfl
  | succ w ih =>
      by_cases hn : n = 0
      · subst hn
        rw [leFixed_zero, leBytes_zero]
        rfl
      · have hdiv : n / 256 < 256 ^ w := by
          rw [pow_succ] at h
          exact Nat.div_lt_of_lt_mul (by rwa [mul_comm] at h)
        rw [leFixed, ih hdiv, leBytes_pos hn, List.length_cons, Nat.add_sub_add_right,
          List.cons_append]

theorem length_leBytes_le {w n : ℕ} (h : n < 256 ^ w) : (leBytes n).length ≤ w := by
  have hlen := congrArg List.length (leFixed_eq h)
  rw [length_leFixed, List.length_append] at hlen
  omega

/-- The most significant byte is not zero. -/
theorem dropWhile_reverse_leBytes (n : ℕ) :
    (leBytes n).reverse.dropWhile (· == 0) = (leBytes n).reverse := by
  by_cases hn : n = 0
  · rw [hn, leBytes_zero]
    rfl
  · have hne : Nat.digits 256 n ≠ [] := Nat.digits_ne_nil_iff_ne_zero.mpr hn
    have hlast := Nat.getLast_digit_ne_zero 256 hn
    have hlt : (Nat.digits 256 n).getLast hne < 256 :=
      Nat.digits_lt_base (by decide) (List.getLast_mem hne)
    have hbyte : (UInt8.ofNat ((Nat.digits 256 n).getLast hne) == 0) = false := by
      rw [beq_eq_false_iff_ne]
      intro hzero
      have htoNat := congrArg UInt8.toNat hzero
      rw [UInt8.toNat_ofNat', Nat.mod_eq_of_lt hlt] at htoNat
      exact hlast htoNat
    rw [leBytes, ← List.dropLast_append_getLast hne, List.map_append, List.reverse_append,
      List.map_singleton, List.reverse_singleton, List.singleton_append,
      List.dropWhile_cons_of_neg (by rw [hbyte]; decide)]

/-- The bytes of a wide field, read back from the most significant one, are those of the
number. -/
theorem dropWhile_reverse_take_leFixed {w n length : ℕ} (hw : n < 256 ^ w)
    (hlength : n < 256 ^ length) :
    ((leFixed w n).take length).reverse.dropWhile (· == 0) = (leBytes n).reverse := by
  have hle := length_leBytes_le hlength
  rw [leFixed_eq hw, List.take_append, List.take_of_length_le hle, List.take_replicate,
    List.reverse_append, List.reverse_replicate]
  rw [List.dropWhile_append_of_pos (by intro b hb; rw [List.eq_of_mem_replicate hb]; rfl)]
  exact dropWhile_reverse_leBytes n

theorem ofBe_append_singleton (bs : List UInt8) (b : UInt8) :
    BigEndian.ofBe (bs ++ [b]) = 256 * BigEndian.ofBe bs + b.toNat := by
  induction bs with
  | nil => simp [BigEndian.ofBe]
  | cons a bs ih =>
      rw [List.cons_append, BigEndian.ofBe, ih, BigEndian.ofBe, List.length_append,
        List.length_singleton, pow_succ]
      ring

/-- The bytes, read from the most significant one, denote the number. -/
theorem ofBe_reverse_leBytes (n : ℕ) : BigEndian.ofBe (leBytes n).reverse = n := by
  induction n using Nat.strong_induction_on with
  | _ n ih =>
      by_cases hn : n = 0
      · rw [hn, leBytes_zero]
        rfl
      · rw [leBytes_pos hn, List.reverse_cons, ofBe_append_singleton, ih (n / 256) (by omega),
          UInt8.toNat_ofNat', Nat.mod_mod]
        omega

/-- Bytes, but their leading zeros, are those of the number they denote. -/
theorem reverse_leBytes_ofBe (bs : List UInt8) :
    (leBytes (BigEndian.ofBe bs)).reverse = bs.dropWhile (· == 0) := by
  induction bs using List.reverseRecOn with
  | nil => rw [BigEndian.ofBe, leBytes_zero]; rfl
  | append_singleton bs b ih =>
      have hb := b.toNat_lt
      rw [ofBe_append_singleton, List.dropWhile_append, ← ih]
      by_cases hzero : BigEndian.ofBe bs = 0
      · rw [hzero, leBytes_zero, Nat.mul_zero, Nat.zero_add, List.reverse_nil, List.isEmpty_nil,
          if_pos rfl]
        by_cases hb0 : b = 0
        · rw [hb0, UInt8.toNat_zero, leBytes_zero]
          rfl
        · have hne : b.toNat ≠ 0 := by simpa [← UInt8.toNat_inj] using hb0
          rw [leBytes_pos hne, Nat.div_eq_of_lt hb, leBytes_zero, Nat.mod_eq_of_lt hb,
            UInt8.ofNat_toNat, List.reverse_singleton, List.dropWhile_cons_of_neg (by simpa using hb0)]
      · have hempty : (leBytes (BigEndian.ofBe bs)).reverse.isEmpty = false := by
          rw [leBytes_pos hzero]
          simp
        have hmod : (256 * BigEndian.ofBe bs + b.toNat) % 256 = b.toNat := by omega
        have hdiv : (256 * BigEndian.ofBe bs + b.toNat) / 256 = BigEndian.ofBe bs := by omega
        rw [leBytes_pos (by omega), hmod, hdiv, UInt8.ofNat_toNat, List.reverse_cons, hempty]
        simp

end Radix
