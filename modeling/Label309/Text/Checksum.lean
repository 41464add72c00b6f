import Label309.Text.Recipient
import Label309.Lib.Regroup

/-!
# The algebra of the checksum

A step of the checksum is linear in exclusive or, and loses nothing of a state of 30 bits. So two
texts whose words differ in one place, or whose neighbouring words are swapped, never have the same
checksum, wherever it is; and for every text there is one checksum.
-/
namespace Label309
open Regroup

/-! ## Linearity -/

theorem xor_and (a b m : UInt32) : (a ^^^ b) &&& m = (a &&& m) ^^^ (b &&& m) := by
  apply UInt32.toBitVec_inj.mp
  ext i
  simp only [UInt32.toBitVec_and, UInt32.toBitVec_xor, BitVec.getElem_and, BitVec.getElem_xor]
  cases a.toBitVec[i] <;> cases b.toBitVec[i] <;> simp

theorem and_one_cases (x : UInt32) : x &&& 1 = 0 ∨ x &&& 1 = 1 := by
  have hlt : (x &&& 1).toNat < 2 := by
    rw [UInt32.toNat_and, UInt32.toNat_one, Nat.and_one_is_mod]
    omega
  have hcases : (x &&& 1).toNat = 0 ∨ (x &&& 1).toNat = 1 := by omega
  cases hcases with
  | inl h => exact .inl (UInt32.toNat_inj.mp h)
  | inr h => exact .inr (UInt32.toNat_inj.mp h)

theorem addGenerator_xor (b b' x y : UInt32) (entry : UInt32 × ℕ) :
    addGenerator (b ^^^ b') (x ^^^ y) entry = addGenerator b x entry ^^^ addGenerator b' y entry := by
  rw [addGenerator, addGenerator, addGenerator, UInt32.shiftRight_xor, xor_and]
  have hcancel : x ^^^ y = (x ^^^ entry.1) ^^^ (y ^^^ entry.1) := by
    rw [UInt32.xor_comm y, UInt32.xor_assoc, ← UInt32.xor_assoc entry.1, UInt32.xor_self,
      UInt32.zero_xor]
  cases and_one_cases (b >>> UInt32.ofNat entry.2) with
  | inl h =>
      cases and_one_cases (b' >>> UInt32.ofNat entry.2) with
      | inl h' => simp [h, h']
      | inr h' => simp [h, h', UInt32.xor_assoc]
  | inr h =>
      cases and_one_cases (b' >>> UInt32.ofNat entry.2) with
      | inl h' => simp [h, h', UInt32.xor_assoc, UInt32.xor_comm y]
      | inr h' =>
          simp only [h, h', UInt32.xor_self, if_true]
          exact hcancel

theorem foldl_addGenerator_xor (entries : List (UInt32 × ℕ)) (b b' x y : UInt32) :
    entries.foldl (addGenerator (b ^^^ b')) (x ^^^ y) =
      entries.foldl (addGenerator b) x ^^^ entries.foldl (addGenerator b') y := by
  induction entries generalizing x y with
  | nil => rfl
  | cons entry entries ih => rw [List.foldl_cons, addGenerator_xor, ih, List.foldl_cons,
      List.foldl_cons]

/-- **A step is linear.** -/
theorem polymodStep_xor (a b : UInt32) :
    polymodStep (a ^^^ b) = polymodStep a ^^^ polymodStep b := by
  rw [polymodStep, UInt32.shiftRight_xor, xor_and, UInt32.shiftLeft_xor, foldl_addGenerator_xor,
    polymodStep, polymodStep]

/-! ## States -/

/-- A state has 30 bits. -/
theorem polymodStep_lt (pre : UInt32) : (polymodStep pre).toNat < 2 ^ 30 := by
  have hfold (b : UInt32) : ∀ (entries : List (UInt32 × ℕ)) (x : UInt32), x.toNat < 2 ^ 30 →
      (∀ entry ∈ entries, entry.1.toNat < 2 ^ 30) →
      (entries.foldl (addGenerator b) x).toNat < 2 ^ 30 := by
    intro entries
    induction entries with
    | nil => simp
    | cons entry entries ih =>
        intro x hx hentries
        rw [List.forall_mem_cons] at hentries
        refine ih _ ?_ hentries.2
        rw [addGenerator]
        split
        · rw [UInt32.toNat_xor]
          exact Nat.xor_lt_two_pow hx hentries.1
        · exact hx
  refine hfold _ _ _ ?_ (by decide)
  rw [UInt32.toNat_shiftLeft, UInt32.toNat_and, Nat.shiftLeft_eq]
  have hlow : pre.toNat &&& (0x01ffffff : UInt32).toNat ≤ 0x01ffffff := Nat.and_le_right
  have hfive : (5 : UInt32).toNat % 32 = 5 := rfl
  rw [hfive]
  omega

theorem toNat_low (d : UInt32) : (d &&& 0x01ffffff).toNat = d.toNat % 2 ^ 25 := by
  rw [UInt32.toNat_and]
  exact Nat.and_two_pow_sub_one_eq_mod d.toNat 25

theorem toNat_high (d : UInt32) : (d >>> 25).toNat = d.toNat / 2 ^ 25 := by
  rw [UInt32.toNat_shiftRight]
  exact Nat.shiftRight_eq_div_pow d.toNat 25

theorem toNat_low_shift (d : UInt32) :
    ((d &&& 0x01ffffff) <<< 5).toNat = d.toNat % 2 ^ 25 * 32 := by
  rw [UInt32.toNat_shiftLeft, toNat_low, Nat.shiftLeft_eq]
  have hfive : (5 : UInt32).toNat % 32 = 5 := rfl
  rw [hfive, Nat.mod_eq_of_lt (by omega)]

/-- A step is its shift and what the high bits add. -/
theorem polymodStep_eq (d : UInt32) :
    polymodStep d = ((d &&& 0x01ffffff) <<< 5) ^^^
      polymodGenerators.zipIdx.foldl (addGenerator (d >>> 25)) 0 := by
  have hsplit := foldl_addGenerator_xor polymodGenerators.zipIdx 0 (d >>> 25)
    ((d &&& 0x01ffffff) <<< 5) 0
  have hzero : ∀ x, polymodGenerators.zipIdx.foldl (addGenerator 0) x = x := by
    intro x
    simp [polymodGenerators, addGenerator]
  rw [UInt32.zero_xor, UInt32.xor_zero, hzero] at hsplit
  exact hsplit

/-- A state without high bits is only shifted. -/
theorem toNat_polymodStep_of_lt {d : UInt32} (h : d.toNat < 2 ^ 25) :
    (polymodStep d).toNat = d.toNat * 32 := by
  have hhigh : d >>> 25 = 0 := by
    apply UInt32.toNat_inj.mp
    rw [toNat_high, Nat.div_eq_of_lt h]
    rfl
  have hnone : polymodGenerators.zipIdx.foldl (addGenerator 0) 0 = 0 := by decide
  rw [polymodStep_eq, hhigh, hnone, UInt32.xor_zero, toNat_low_shift, Nat.mod_eq_of_lt h]

/-- **A step loses nothing.** The low bits of the generators are independent, so the high bits can
be told from them. -/
theorem eq_zero_of_polymodStep {d : UInt32} (hd : d.toNat < 2 ^ 30) (h : polymodStep d = 0) :
    d = 0 := by
  have hall : ∀ b : Fin 32,
      (polymodGenerators.zipIdx.foldl (addGenerator (UInt32.ofNat b.val)) 0).toNat % 32 = 0 →
        b = 0 := by decide
  have hlt : d.toNat / 2 ^ 25 < 32 := by omega
  have hhigh : d >>> 25 = UInt32.ofNat (d.toNat / 2 ^ 25) := by
    apply UInt32.toNat_inj.mp
    rw [toNat_high, UInt32.toNat_ofNat_of_lt' (by simp only [UInt32.size]; omega)]
  have hadded : polymodGenerators.zipIdx.foldl (addGenerator (d >>> 25)) 0 =
      (d &&& 0x01ffffff) <<< 5 := by
    rw [polymodStep_eq, UInt32.xor_eq_zero_iff] at h
    exact h.symm
  have hlow := hall ⟨d.toNat / 2 ^ 25, hlt⟩ (by
    dsimp only
    rw [← hhigh, hadded, toNat_low_shift]
    omega)
  have hzero : d.toNat / 2 ^ 25 = 0 := congrArg Fin.val hlow
  have hstep := congrArg UInt32.toNat h
  rw [toNat_polymodStep_of_lt (by omega), UInt32.toNat_zero] at hstep
  apply UInt32.toNat_inj.mp
  rw [UInt32.toNat_zero]
  omega

theorem polymodStep_iterate_ne_zero {d : UInt32} (hd : d.toNat < 2 ^ 30) (hne : d ≠ 0) (n : ℕ) :
    polymodStep^[n] d ≠ 0 := by
  induction n generalizing d with
  | zero => exact hne
  | succ n ih =>
      rw [Function.iterate_succ_apply]
      refine ih (polymodStep_lt d) ?_
      intro hzero
      exact hne (eq_zero_of_polymodStep hd hzero)

/-! ## Words -/

theorem toNat_toUInt32_lt {w : UInt8} (h : w.toNat < 32) : w.toUInt32.toNat < 2 ^ 30 := by
  rw [UInt8.toNat_toUInt32]
  omega

theorem polymodTake_lt (chk : UInt32) {w : UInt8} (h : w.toNat < 32) :
    (polymodTake chk w.toUInt32).toNat < 2 ^ 30 := by
  rw [polymodTake, UInt32.toNat_xor]
  exact Nat.xor_lt_two_pow (polymodStep_lt chk) (toNat_toUInt32_lt h)

theorem polymodWords_append (chk : UInt32) (ws vs : List UInt8) :
    polymodWords chk (ws ++ vs) = polymodWords (polymodWords chk ws) vs := List.foldl_append

theorem polymodWords_cons (chk : UInt32) (w : UInt8) (ws : List UInt8) :
    polymodWords chk (w :: ws) = polymodWords (polymodStep chk ^^^ w.toUInt32) ws := rfl

/-- What two states differ in after the same words. -/
theorem polymodWords_xor (a b : UInt32) (ws : List UInt8) :
    polymodWords a ws ^^^ polymodWords b ws = polymodStep^[ws.length] (a ^^^ b) := by
  induction ws generalizing a b with
  | nil => rfl
  | cons w ws ih =>
      have hsame : (polymodStep a ^^^ w.toUInt32) ^^^ (polymodStep b ^^^ w.toUInt32) =
          polymodStep (a ^^^ b) := by
        rw [polymodStep_xor, UInt32.xor_comm (polymodStep b), UInt32.xor_assoc,
          ← UInt32.xor_assoc w.toUInt32, UInt32.xor_self, UInt32.zero_xor]
      rw [polymodWords_cons, polymodWords_cons, ih, hsame, List.length_cons,
        Function.iterate_succ_apply]

/-- Different states stay different. -/
theorem polymodWords_ne {a b : UInt32} (ha : a.toNat < 2 ^ 30) (hb : b.toNat < 2 ^ 30)
    (hne : a ≠ b) (ws : List UInt8) : polymodWords a ws ≠ polymodWords b ws := by
  intro heq
  have hdiff := polymodWords_xor a b ws
  rw [heq, UInt32.xor_self] at hdiff
  refine polymodStep_iterate_ne_zero ?_ ?_ ws.length hdiff.symm
  · rw [UInt32.toNat_xor]
    exact Nat.xor_lt_two_pow ha hb
  · rw [ne_eq, UInt32.xor_eq_zero_iff]
    exact hne

/-- **One word.** A text with another word in one place has another checksum. -/
theorem polymodWords_substitute_ne {chk : UInt32} {w v : UInt8} (hw : w.toNat < 32)
    (hv : v.toNat < 32) (hne : w ≠ v) (before after : List UInt8) :
    polymodWords chk (before ++ w :: after) ≠ polymodWords chk (before ++ v :: after) := by
  rw [polymodWords_append, polymodWords_append, polymodWords_cons, polymodWords_cons]
  refine polymodWords_ne (polymodTake_lt _ hw) (polymodTake_lt _ hv) ?_ after
  intro heq
  apply hne
  rw [polymodTake, polymodTake, UInt32.xor_right_inj] at heq
  have htoNat := congrArg UInt32.toNat heq
  rw [UInt8.toNat_toUInt32, UInt8.toNat_toUInt32] at htoNat
  exact UInt8.toNat_inj.mp htoNat

/-- **Two neighbours.** A text with two different neighbours swapped has another checksum. -/
theorem polymodWords_swap_ne {chk : UInt32} {w v : UInt8} (hw : w.toNat < 32) (hv : v.toNat < 32)
    (hne : w ≠ v) (before after : List UInt8) :
    polymodWords chk (before ++ w :: v :: after) ≠
      polymodWords chk (before ++ v :: w :: after) := by
  rw [polymodWords_append, polymodWords_append, polymodWords_cons, polymodWords_cons,
    polymodWords_cons, polymodWords_cons]
  refine polymodWords_ne (polymodTake_lt _ hv) (polymodTake_lt _ hw) ?_ after
  intro heq
  -- The difference is that of the words, once and once shifted.
  have hdiff : polymodStep (w.toUInt32 ^^^ v.toUInt32) = w.toUInt32 ^^^ v.toUInt32 := by
    rw [polymodTake, polymodTake, polymodStep_xor, polymodStep_xor, UInt32.xor_assoc,
      UInt32.xor_assoc, UInt32.xor_right_inj] at heq
    rw [polymodStep_xor, ← UInt32.xor_right_inj (polymodStep v.toUInt32 ^^^ v.toUInt32)]
    calc polymodStep v.toUInt32 ^^^ v.toUInt32 ^^^ (polymodStep w.toUInt32 ^^^ polymodStep v.toUInt32)
        = (polymodStep w.toUInt32 ^^^ v.toUInt32) ^^^
            (polymodStep v.toUInt32 ^^^ polymodStep v.toUInt32) := by ac_rfl
      _ = polymodStep v.toUInt32 ^^^ w.toUInt32 := by
          rw [UInt32.xor_self, UInt32.xor_zero, heq]
      _ = (polymodStep v.toUInt32 ^^^ w.toUInt32) ^^^ (v.toUInt32 ^^^ v.toUInt32) := by
          rw [UInt32.xor_self, UInt32.xor_zero]
      _ = polymodStep v.toUInt32 ^^^ v.toUInt32 ^^^ (w.toUInt32 ^^^ v.toUInt32) := by ac_rfl
  have hlt : (w.toUInt32 ^^^ v.toUInt32).toNat < 2 ^ 25 := by
    rw [UInt32.toNat_xor]
    refine Nat.xor_lt_two_pow ?_ ?_
    · rw [UInt8.toNat_toUInt32]
      omega
    · rw [UInt8.toNat_toUInt32]
      omega
  have htoNat := congrArg UInt32.toNat hdiff
  rw [toNat_polymodStep_of_lt hlt] at htoNat
  have hzero : w.toUInt32 ^^^ v.toUInt32 = 0 := by
    apply UInt32.toNat_inj.mp
    rw [UInt32.toNat_zero]
    omega
  rw [UInt32.xor_eq_zero_iff] at hzero
  have hwords := congrArg UInt32.toNat hzero
  rw [UInt8.toNat_toUInt32, UInt8.toNat_toUInt32] at hwords
  exact hne (UInt8.toNat_inj.mp hwords)

end Label309
