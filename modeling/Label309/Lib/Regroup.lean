import Mathlib

/-!
# Bits in groups

A list of groups of one width is a list of bits, the highest first in every group. To regroup is
to cut the same bits at other places: a buffer takes in a group at its low end and gives one out
above the bits that are still pending. Only the pending bits of a buffer count, so whatever is
above them may be masked or left to rot.
-/
namespace Regroup

/-- The low `w` bits of a number, the highest first. -/
def bits : ℕ → ℕ → List Bool
  | 0, _ => []
  | w + 1, n => n.testBit w :: bits w n

@[simp] theorem length_bits (w n : ℕ) : (bits w n).length = w := by
  induction w with
  | zero => rfl
  | succ w ih => rw [bits, List.length_cons, ih]

/-- The bits of a number of two parts. -/
theorem bits_add (a b n : ℕ) : bits (a + b) n = bits a (n / 2 ^ b) ++ bits b n := by
  induction a with
  | zero => simp [bits]
  | succ a ih =>
      rw [Nat.succ_add, bits, ih, bits, List.cons_append, Nat.testBit_div_two_pow]

/-- No bits but the low ones count. -/
theorem bits_congr {w m n : ℕ} (h : m % 2 ^ w = n % 2 ^ w) : bits w m = bits w n := by
  induction w with
  | zero => rfl
  | succ w ih =>
      have hlow : m % 2 ^ w = n % 2 ^ w := by
        have hdvd : 2 ^ w ∣ 2 ^ (w + 1) := Nat.pow_dvd_pow 2 (Nat.le_succ w)
        rw [← Nat.mod_mod_of_dvd m hdvd, h, Nat.mod_mod_of_dvd n hdvd]
      have htop : m.testBit w = n.testBit w := by
        have hbit := congrArg (Nat.testBit · w) h
        simpa [Nat.testBit_mod_two_pow] using hbit
      rw [bits, bits, ih hlow, htop]

@[simp] theorem bits_mod (w n : ℕ) : bits w (n % 2 ^ w) = bits w n := bits_congr (Nat.mod_mod _ _)

theorem mod_eq_of_bits {w m n : ℕ} (h : bits w m = bits w n) : m % 2 ^ w = n % 2 ^ w := by
  induction w with
  | zero => rw [pow_zero, Nat.mod_one, Nat.mod_one]
  | succ w ih =>
      rw [bits, bits, List.cons.injEq, Nat.testBit_eq_decide_div_mod_eq,
        Nat.testBit_eq_decide_div_mod_eq, decide_eq_decide] at h
      have htop : m / 2 ^ w % 2 = n / 2 ^ w % 2 := by omega
      rw [Nat.mod_pow_succ, Nat.mod_pow_succ, ih h.2, htop]

theorem eq_of_bits {w m n : ℕ} (hm : m < 2 ^ w) (hn : n < 2 ^ w) (h : bits w m = bits w n) :
    m = n := by
  have hmod := mod_eq_of_bits h
  rwa [Nat.mod_eq_of_lt hm, Nat.mod_eq_of_lt hn] at hmod

theorem bits_zero (w : ℕ) : bits w 0 = List.replicate w false := by
  induction w with
  | zero => rfl
  | succ w ih => rw [bits, ih, Nat.zero_testBit, List.replicate_succ]

theorem bits_eq_zeros_iff {w n : ℕ} : bits w n = List.replicate w false ↔ n % 2 ^ w = 0 := by
  rw [← bits_zero]
  constructor
  · intro h
    rw [mod_eq_of_bits h, Nat.zero_mod]
  · intro h
    exact bits_congr (by rw [h, Nat.zero_mod])

/-! ## Groups -/

/-- The bits of groups of `w`. -/
def bitsOf (w : ℕ) (groups : List UInt8) : List Bool := groups.flatMap fun g => bits w g.toNat

@[simp] theorem bitsOf_nil (w : ℕ) : bitsOf w [] = [] := rfl

@[simp] theorem bitsOf_cons (w : ℕ) (g : UInt8) (gs : List UInt8) :
    bitsOf w (g :: gs) = bits w g.toNat ++ bitsOf w gs := rfl

@[simp] theorem bitsOf_append (w : ℕ) (gs gs' : List UInt8) :
    bitsOf w (gs ++ gs') = bitsOf w gs ++ bitsOf w gs' := by
  rw [bitsOf, List.flatMap_append, bitsOf, bitsOf]

@[simp] theorem length_bitsOf (w : ℕ) (gs : List UInt8) :
    (bitsOf w gs).length = w * gs.length := by
  induction gs with
  | nil => rfl
  | cons g gs ih =>
      rw [bitsOf_cons, List.length_append, length_bits, ih, List.length_cons]
      ring

/-- Groups are told apart by their bits, up to a rest that is shorter than a group. -/
theorem groups_inj {w : ℕ} {gs hs : List UInt8} {l r : List Bool}
    (hgs : ∀ g ∈ gs, g.toNat < 2 ^ w) (hhs : ∀ g ∈ hs, g.toNat < 2 ^ w) (hl : l.length < w)
    (hr : r.length < w) (h : bitsOf w gs ++ l = bitsOf w hs ++ r) : gs = hs ∧ l = r := by
  have hlength (g : UInt8) (gs : List UInt8) (x y : List Bool) (hx : x.length < w) :
      x ≠ bitsOf w (g :: gs) ++ y := by
    intro heq
    have hlen := congrArg List.length heq
    rw [List.length_append, length_bitsOf, List.length_cons] at hlen
    have hle : w ≤ w * (gs.length + 1) := Nat.le_mul_of_pos_right w (Nat.succ_pos _)
    omega
  induction gs generalizing hs with
  | nil =>
      cases hs with
      | nil => exact ⟨rfl, h⟩
      | cons g hs => exact absurd h (hlength g hs l r hl)
  | cons g gs ih =>
      cases hs with
      | nil => exact absurd h.symm (hlength g gs r l hr)
      | cons g' hs =>
          rw [List.forall_mem_cons] at hgs hhs
          rw [bitsOf_cons, bitsOf_cons, List.append_assoc, List.append_assoc] at h
          obtain ⟨hhead, htail⟩ := List.append_inj h (by rw [length_bits, length_bits])
          obtain ⟨hrest, hleft⟩ := ih hgs.2 hhs.2 htail
          have hg := UInt8.toNat_inj.mp (eq_of_bits hgs.1 hhs.1 hhead)
          exact ⟨by rw [hg, hrest], hleft⟩

theorem byte_lt (bs : List UInt8) : ∀ b ∈ bs, b.toNat < 2 ^ 8 := fun b _ => b.toNat_lt

/-! ## Buffers -/

/-- A group taken in at the low end of a number. -/
theorem bits_push {n buf d pos w : ℕ} (hd : d < 2 ^ w)
    (h : n % 2 ^ (pos + w) = (buf * 2 ^ w + d) % 2 ^ (pos + w)) :
    bits (pos + w) n = bits pos buf ++ bits w d := by
  have hdiv : (buf * 2 ^ w + d) / 2 ^ w = buf := by
    rw [Nat.mul_comm, Nat.mul_add_div (by positivity), Nat.div_eq_of_lt hd, Nat.add_zero]
  have hmod : (buf * 2 ^ w + d) % 2 ^ w = d % 2 ^ w := Nat.mul_add_mod_self_right _ _ _
  rw [bits_congr h, bits_add, hdiv, bits_congr hmod]

theorem shiftLeft_or {x d w : ℕ} (hd : d < 2 ^ w) : x <<< w ||| d = x * 2 ^ w + d := by
  rw [← Nat.shiftLeft_add_eq_or_of_lt hd, Nat.shiftLeft_eq]

/-- A group taken in by a 32-bit buffer, whose high bits fall out. -/
theorem bits_push32 {buf : UInt32} {d : UInt8} {pos w : ℕ} (hd : d.toNat < 2 ^ w)
    (hw : pos + w ≤ 32) (hpos : 0 < pos ∨ w < 32) :
    bits (pos + w) ((buf <<< UInt32.ofNat w) ||| d.toUInt32).toNat =
      bits pos buf.toNat ++ bits w d.toNat := by
  have hw32 : w < 32 := by omega
  have hshift : (UInt32.ofNat w).toNat % 32 = w := by
    rw [UInt32.toNat_ofNat_of_lt' (by simp only [UInt32.size]; omega), Nat.mod_eq_of_lt hw32]
  have hsplit : buf.toNat <<< w % 2 ^ 32 = (buf.toNat % 2 ^ (32 - w)) <<< w := by
    have hpow : 2 ^ 32 = 2 ^ w * 2 ^ (32 - w) := by
      rw [← pow_add]
      congr 1
      omega
    rw [Nat.shiftLeft_eq, Nat.shiftLeft_eq, Nat.mul_comm _ (2 ^ w), hpow,
      Nat.mul_mod_mul_left, Nat.mul_comm]
  apply bits_push hd
  rw [UInt32.toNat_or, UInt32.toNat_shiftLeft, hshift, hsplit, UInt8.toNat_toUInt32,
    shiftLeft_or hd]
  -- What falls out is above the pending bits.
  have hmul : buf.toNat % 2 ^ (32 - w) * 2 ^ w ≡ buf.toNat * 2 ^ w [MOD 2 ^ (32 - w) * 2 ^ w] :=
    (Nat.mod_modEq _ _).mul_right' _
  have hdvd : 2 ^ (pos + w) ∣ 2 ^ (32 - w) * 2 ^ w := by
    rw [← pow_add]
    exact Nat.pow_dvd_pow 2 (by omega)
  exact (hmul.of_dvd hdvd).add_right d.toNat

/-! ## Cutting bits -/

/-- The number of a list of bits, the highest first. -/
def ofBits (l : List Bool) : ℕ := l.foldl (fun n b => 2 * n + b.toNat) 0

theorem ofBits_concat (l : List Bool) (b : Bool) : ofBits (l ++ [b]) = 2 * ofBits l + b.toNat := by
  simp [ofBits]

theorem ofBits_lt (l : List Bool) : ofBits l < 2 ^ l.length := by
  induction l using List.reverseRecOn with
  | nil => simp [ofBits]
  | append_singleton l b ih =>
      rw [ofBits_concat, List.length_append, List.length_singleton, pow_succ]
      have hb : b.toNat ≤ 1 := Bool.toNat_le b
      omega

theorem bits_ofBits (l : List Bool) : bits l.length (ofBits l) = l := by
  induction l using List.reverseRecOn with
  | nil => rfl
  | append_singleton l b ih =>
      have hb : b.toNat ≤ 1 := Bool.toNat_le b
      have hhigh : ofBits (l ++ [b]) / 2 ^ 1 = ofBits l := by
        rw [ofBits_concat]
        omega
      have hlow : bits 1 (ofBits (l ++ [b])) = [b] := by
        rw [ofBits_concat]
        cases b <;> simp [bits, Nat.testBit_zero]
      rw [List.length_append, List.length_singleton, bits_add, hhigh, hlow, ih]

/-- The first `w` bits, filled up with zeros where there are fewer. -/
def fill (w : ℕ) (l : List Bool) : List Bool := l.take w ++ List.replicate (w - l.length) false

@[simp] theorem length_fill (w : ℕ) (l : List Bool) : (fill w l).length = w := by
  simp [fill]
  omega

/-- Bits as groups of `w`, the last one filled up with zeros. -/
def cut (w : ℕ) : List Bool → List UInt8
  | [] => []
  | b :: l => UInt8.ofNat (ofBits (fill w (b :: l))) :: cut w (l.drop (w - 1))
termination_by l => l.length
decreasing_by simp only [List.length_drop, List.length_cons]; omega

section Cut
variable {w : ℕ} (hw : w ≤ 8)
include hw

theorem toNat_group (l : List Bool) :
    (UInt8.ofNat (ofBits (fill w l))).toNat = ofBits (fill w l) := by
  have hlt := ofBits_lt (fill w l)
  have hpow : 2 ^ w ≤ 2 ^ 8 := Nat.pow_le_pow_right (by decide) hw
  rw [length_fill] at hlt
  rw [UInt8.toNat_ofNat', Nat.mod_eq_of_lt (by omega)]

theorem cut_lt (l : List Bool) : ∀ g ∈ cut w l, g.toNat < 2 ^ w := by
  induction l using cut.induct w with
  | case1 => simp [cut]
  | case2 b l ih =>
      rw [cut, List.forall_mem_cons, toNat_group hw]
      have hlt := ofBits_lt (fill w (b :: l))
      rw [length_fill] at hlt
      exact ⟨hlt, ih⟩

/-- The groups have the bits that were cut, and less than a group of zeros. -/
theorem bitsOf_cut (hpos : 0 < w) (l : List Bool) :
    ∃ pad < w, bitsOf w (cut w l) = l ++ List.replicate pad false := by
  induction l using cut.induct w with
  | case1 => exact ⟨0, hpos, by simp [cut]⟩
  | case2 b l ih =>
      obtain ⟨pad, hpad, hrest⟩ := ih
      have hhead : bits w (ofBits (fill w (b :: l))) = fill w (b :: l) := by
        have hbits := bits_ofBits (fill w (b :: l))
        rwa [length_fill] at hbits
      have hdrop : l.drop (w - 1) = (b :: l).drop w := by
        rw [show w = w - 1 + 1 by omega, List.drop_succ_cons, Nat.add_sub_cancel]
      rw [cut, bitsOf_cons, toNat_group hw, hhead, hrest, hdrop, fill]
      by_cases hlen : w ≤ (b :: l).length
      · refine ⟨pad, hpad, ?_⟩
        rw [Nat.sub_eq_zero_of_le hlen, List.replicate_zero, List.append_nil, ← List.append_assoc,
          List.take_append_drop]
      · -- The last group: what follows it is empty.
        have hnil : (b :: l).drop w = [] := List.drop_eq_nil_of_le (by omega)
        have hcut : cut w (l.drop (w - 1)) = [] := by rw [hdrop, hnil, cut]
        rw [hcut, hdrop, hnil, List.nil_append, bitsOf_nil] at hrest
        have hzero : pad = 0 := by simpa using congrArg List.length hrest.symm
        refine ⟨w - (b :: l).length, by simp only [List.length_cons]; omega, ?_⟩
        rw [hnil, hzero, List.take_of_length_le (by omega), List.replicate_zero, List.append_nil,
          List.append_nil]

end Cut

end Regroup
