import Mathlib

/-!
# Big-endian integers

Fixed-width big-endian writing and reading of natural numbers. The two are
mutually inverse on numbers below `256 ^ w` and on byte strings of length `w`.
-/
namespace BigEndian

/-- The `w` big-endian bytes of `n`, reduced modulo `256 ^ w`. -/
def toBe : ℕ → ℕ → List UInt8
  | 0, _ => []
  | w + 1, n => UInt8.ofNat (n / 256 ^ w) :: toBe w n

/-- The number a big-endian byte string denotes. -/
def ofBe : List UInt8 → ℕ
  | [] => 0
  | b :: bs => b.toNat * 256 ^ bs.length + ofBe bs

@[simp] theorem length_toBe (w n : ℕ) : (toBe w n).length = w := by
  induction w with
  | zero => rfl
  | succ w ih => simp [toBe, ih]

theorem ofBe_lt (bs : List UInt8) : ofBe bs < 256 ^ bs.length := by
  induction bs with
  | nil => simp [ofBe]
  | cons b bs ih =>
      have hb : b.toNat ≤ 255 := Nat.le_of_lt_succ b.toNat_lt
      calc
        ofBe (b :: bs) < b.toNat * 256 ^ bs.length + 256 ^ bs.length := by
          simp only [ofBe]; omega
        _ = (b.toNat + 1) * 256 ^ bs.length := by ring
        _ ≤ 256 * 256 ^ bs.length := Nat.mul_le_mul_right _ (by omega)
        _ = 256 ^ (b :: bs).length := by rw [List.length_cons, pow_succ]; ring

theorem ofBe_toBe_mod (w n : ℕ) : ofBe (toBe w n) = n % 256 ^ w := by
  induction w with
  | zero => simp [toBe, ofBe, Nat.mod_one]
  | succ w ih =>
      have hbyte : (UInt8.ofNat (n / 256 ^ w)).toNat = n / 256 ^ w % 256 := UInt8.toNat_ofNat'
      have hpow : (256 : ℕ) ^ (w + 1) = 256 ^ w * 256 := rfl
      rw [toBe, ofBe, length_toBe, ih, hbyte, hpow, Nat.mod_mul]
      ring

theorem ofBe_toBe {w n : ℕ} (h : n < 256 ^ w) : ofBe (toBe w n) = n := by
  rw [ofBe_toBe_mod, Nat.mod_eq_of_lt h]

/-- Only the residue modulo `256 ^ w` reaches the bytes. -/
theorem toBe_add_mul (w n k : ℕ) : toBe w (n + 256 ^ w * k) = toBe w n := by
  induction w generalizing k with
  | zero => rfl
  | succ w ih =>
      have hsplit : 256 ^ (w + 1) * k = 256 ^ w * (256 * k) := by rw [pow_succ]; ring
      have hdiv : (n + 256 ^ w * (256 * k)) / 256 ^ w = n / 256 ^ w + 256 * k :=
        Nat.add_mul_div_left _ _ (by positivity)
      have hbyte : UInt8.ofNat (n / 256 ^ w + 256 * k) = UInt8.ofNat (n / 256 ^ w) := by
        apply UInt8.toNat_inj.mp
        simp [UInt8.toNat_ofNat']
      simp only [toBe, hsplit, ih, hdiv, hbyte]

theorem toBe_ofBe (bs : List UInt8) : toBe bs.length (ofBe bs) = bs := by
  induction bs with
  | nil => rfl
  | cons b bs ih =>
      have hlt := ofBe_lt bs
      have hdiv : (ofBe bs + 256 ^ bs.length * b.toNat) / 256 ^ bs.length = b.toNat := by
        rw [Nat.add_mul_div_left _ _ (by positivity), Nat.div_eq_of_lt hlt, zero_add]
      have hval : ofBe (b :: bs) = ofBe bs + 256 ^ bs.length * b.toNat := by
        simp only [ofBe]; ring
      simp only [List.length_cons, toBe, hval, hdiv, toBe_add_mul, ih, UInt8.ofNat_toNat]

end BigEndian
