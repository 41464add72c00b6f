import Label309.Text.Checksum
import Label309.Lib.Utf8
import Label309.Lib.ExceptBind

/-!
# What the bech32 codec reads

Words are the bits of the bytes in groups of five, and the six words behind them are the one
checksum. So there is one text for a prefix and its bytes. It is read in lowercase and in uppercase,
and the sign of the kelvin is read for every `K` of the latter.
-/
namespace Label309
open Regroup Lowercase

/-! ## Words and bytes -/

theorem toNat_mask {x : UInt32} {m : UInt32} {w : ℕ} (hm : m.toNat = 2 ^ w - 1) (hw : w ≤ 8) :
    (x &&& m).toUInt8.toNat = x.toNat % 2 ^ w := by
  have hle : 2 ^ w ≤ 2 ^ 8 := Nat.pow_le_pow_right (by decide) hw
  have hlt : x.toNat % 2 ^ w < 2 ^ w := Nat.mod_lt _ (by positivity)
  rw [UInt32.toNat_toUInt8, UInt32.toNat_and, hm, Nat.and_two_pow_sub_one_eq_mod,
    Nat.mod_eq_of_lt (by omega)]

theorem toNat_shift {x : UInt32} {n : ℕ} (hn : n < 32) :
    (x >>> UInt32.ofNat n).toNat = x.toNat / 2 ^ n := by
  rw [UInt32.toNat_shiftRight, UInt32.toNat_ofNat_of_lt' (by simp only [UInt32.size]; omega),
    Nat.mod_eq_of_lt hn, Nat.shiftRight_eq_div_pow]

/-- A mask keeps the pending bits. -/
theorem toNat_keep (x : UInt32) {n : ℕ} (hn : n < 8) :
    (x &&& ((1 <<< UInt32.ofNat n) - 1)).toNat = x.toNat % 2 ^ n := by
  have hmask : (((1 : UInt32) <<< UInt32.ofNat n) - 1).toNat = 2 ^ n - 1 := by
    interval_cases n <;> rfl
  rw [UInt32.toNat_and, hmask, Nat.and_two_pow_sub_one_eq_mod]

theorem emitWords_lt (carry : UInt32) (pos : ℕ) : ∀ w ∈ emitWords carry pos, w.toNat < 32 := by
  induction pos using emitWords.induct with
  | case1 pos ih =>
      rw [emitWords, List.forall_mem_cons]
      refine ⟨?_, ih⟩
      rw [toNat_mask (w := 5) rfl (by decide)]
      exact Nat.mod_lt _ (by decide)
  | case2 pos hsmall => simp [emitWords]

/-- The words that are given out and the bits that stay. -/
theorem bitsOf_emitWords (carry : UInt32) {pos : ℕ} (hpos : pos < 32) :
    bitsOf 5 (emitWords carry pos) ++ bits (pos % 5) carry.toNat = bits pos carry.toNat := by
  induction pos using emitWords.induct with
  | case1 pos ih =>
      have hrest := ih (by omega)
      have hsplit := bits_add 5 pos carry.toNat
      have hmod : (pos + 5) % 5 = pos % 5 := Nat.add_mod_right pos 5
      change bitsOf 5 (emitWords carry (pos + 5)) ++ bits ((pos + 5) % 5) carry.toNat =
        bits (pos + 5) carry.toNat
      rw [emitWords, bitsOf_cons, List.append_assoc, hmod, hrest,
        toNat_mask (w := 5) rfl (by decide), bits_mod, toNat_shift (by omega), ← hsplit,
        Nat.add_comm]
  | case2 pos hsmall =>
      have hlt : pos < 5 := by
        by_contra hle
        exact hsmall (pos - 5) (by omega)
      rw [Nat.mod_eq_of_lt hlt]
      interval_cases pos <;> rfl

theorem bytesToWordsFrom_lt (carry : UInt32) (pos : ℕ) (bytes : List UInt8) :
    ∀ w ∈ bytesToWordsFrom carry pos bytes, w.toNat < 32 := by
  induction bytes generalizing carry pos with
  | nil =>
      rw [bytesToWordsFrom]
      split
      · rw [List.forall_mem_singleton, toNat_mask (w := 5) rfl (by decide)]
        exact Nat.mod_lt _ (by decide)
      · simp
  | cons b bytes ih =>
      rw [bytesToWordsFrom, List.forall_mem_append]
      exact ⟨emitWords_lt _ _, ih _ _⟩

/-- The last word is filled up with zeros. -/
theorem bits_lastWord (carry : UInt32) {pos : ℕ} (hpos : pos < 5) :
    bits 5 ((carry <<< UInt32.ofNat (5 - pos)) &&& 0x1f).toUInt8.toNat =
      bits pos carry.toNat ++ List.replicate (5 - pos) false := by
  have hshift : (carry <<< UInt32.ofNat (5 - pos)).toNat % 2 ^ (pos + (5 - pos)) =
      (carry.toNat * 2 ^ (5 - pos) + 0) % 2 ^ (pos + (5 - pos)) := by
    rw [UInt32.toNat_shiftLeft, UInt32.toNat_ofNat_of_lt' (by simp only [UInt32.size]; omega),
      Nat.mod_eq_of_lt (show 5 - pos < 32 by omega), Nat.shiftLeft_eq, Nat.add_zero,
      Nat.mod_mod_of_dvd _ (Nat.pow_dvd_pow 2 (by omega))]
  have hpush := bits_push (Nat.two_pow_pos (5 - pos)) hshift
  rw [show pos + (5 - pos) = 5 by omega] at hpush
  rw [toNat_mask (w := 5) rfl (by decide), bits_mod, hpush, bits_zero]

/-- The words have the bits of the bytes, filled up with fewer than five zeros. -/
theorem bitsOf_bytesToWordsFrom {carry : UInt32} {pos : ℕ} (hpos : pos < 5) (bytes : List UInt8) :
    ∃ k < 5, bitsOf 5 (bytesToWordsFrom carry pos bytes) =
      bits pos carry.toNat ++ bitsOf 8 bytes ++ List.replicate k false := by
  induction bytes generalizing carry pos with
  | nil =>
      rw [bytesToWordsFrom, bitsOf_nil, List.append_nil]
      by_cases hzero : 0 < pos
      · refine ⟨5 - pos, by omega, ?_⟩
        rw [if_pos hzero, bitsOf_cons, bitsOf_nil, List.append_nil, bits_lastWord carry hpos]
      · have hnone : pos = 0 := by omega
        subst hnone
        exact ⟨0, by decide, rfl⟩
  | cons b bytes ih =>
      have hleft : (pos + 8) % 5 < 5 := Nat.mod_lt _ (by decide)
      obtain ⟨k, hk, hrest⟩ := @ih (((carry <<< 8) ||| b.toUInt32) &&&
        ((1 <<< UInt32.ofNat ((pos + 8) % 5)) - 1)) _ hleft
      have hpush := @bits_push32 carry b pos 8 b.toNat_lt (by omega) (by omega)
      refine ⟨k, hk, ?_⟩
      rw [bytesToWordsFrom, bitsOf_append, hrest, toNat_keep _ (by omega), bits_mod, bitsOf_cons]
      simp only [← List.append_assoc]
      rw [bitsOf_emitWords _ (by omega), ← hpush]
      rfl

/-- The bytes that are given out and the bits that stay. -/
theorem bitsOf_emitBytes (carry : UInt32) {pos : ℕ} (hpos : pos < 32) :
    bitsOf 8 (emitBytes carry pos) ++ bits (pos % 8) carry.toNat = bits pos carry.toNat := by
  induction pos using emitBytes.induct with
  | case1 pos ih =>
      have hrest := ih (by omega)
      have hsplit := bits_add 8 pos carry.toNat
      have hmod : (pos + 8) % 8 = pos % 8 := Nat.add_mod_right pos 8
      change bitsOf 8 (emitBytes carry (pos + 8)) ++ bits ((pos + 8) % 8) carry.toNat =
        bits (pos + 8) carry.toNat
      rw [emitBytes, bitsOf_cons, List.append_assoc, hmod, hrest,
        toNat_mask (w := 8) rfl (by decide), bits_mod, toNat_shift (by omega), ← hsplit,
        Nat.add_comm]
  | case2 pos hsmall =>
      have hlt : pos < 8 := by
        by_contra hle
        exact hsmall (pos - 8) (by omega)
      rw [Nat.mod_eq_of_lt hlt]
      interval_cases pos <;> rfl

/-- The bytes have the bits of the words, and the rest is asked to be short and zero. -/
theorem wordsToBytesFrom_spec {carry : UInt32} {pos : ℕ} (hpos : pos < 8)
    (hcarry : carry.toNat < 2 ^ pos) {words : List UInt8} (hwords : ∀ w ∈ words, w.toNat < 32) :
    ∃ out left, bits pos carry.toNat ++ bitsOf 5 words = bitsOf 8 out ++ left ∧ left.length < 8 ∧
      wordsToBytesFrom carry pos words =
        if 5 ≤ left.length ∨ left ≠ List.replicate left.length false then
          .error .nonCanonicalPadding
        else .ok out := by
  induction words generalizing carry pos with
  | nil =>
      refine ⟨[], bits pos carry.toNat, by simp, by rwa [length_bits], ?_⟩
      have hzero : carry ≠ 0 ↔ bits pos carry.toNat ≠ List.replicate pos false := by
        rw [ne_eq, ne_eq, bits_eq_zeros_iff, Nat.mod_eq_of_lt hcarry, ← UInt32.toNat_inj,
          UInt32.toNat_zero]
      rw [wordsToBytesFrom, length_bits]
      by_cases hbad : 5 ≤ pos ∨ carry ≠ 0
      · rw [if_pos hbad, if_pos (by rwa [← hzero])]
      · rw [if_neg hbad, if_neg (by rwa [← hzero])]
  | cons w words ih =>
      rw [List.forall_mem_cons] at hwords
      have hleft : (pos + 5) % 8 < 8 := Nat.mod_lt _ (by decide)
      obtain ⟨out, left, hbits, hlen, hrun⟩ := @ih (((carry <<< 5) ||| w.toUInt32) &&&
        ((1 <<< UInt32.ofNat ((pos + 5) % 8)) - 1)) _ hleft
        (by rw [toNat_keep _ hleft]; exact Nat.mod_lt _ (by positivity)) hwords.2
      have hpush := @bits_push32 carry w pos 5 hwords.1 (by omega) (by omega)
      refine ⟨emitBytes ((carry <<< 5) ||| w.toUInt32) (pos + 5) ++ out, left, ?_, hlen, ?_⟩
      · rw [toNat_keep _ hleft, bits_mod] at hbits
        rw [bitsOf_cons, ← List.append_assoc, ← hpush, bitsOf_append, List.append_assoc, ← hbits,
          ← List.append_assoc]
        congr 1
        exact (bitsOf_emitBytes _ (by omega)).symm
      · rw [wordsToBytesFrom, hrun]
        by_cases hbad : 5 ≤ left.length ∨ left ≠ List.replicate left.length false
        · rw [if_pos hbad, if_pos hbad]
          rfl
        · rw [if_neg hbad, if_neg hbad]
          rfl

theorem bytesToWords_lt (bytes : List UInt8) : ∀ w ∈ bytesToWords bytes, w.toNat < 32 :=
  bytesToWordsFrom_lt 0 0 bytes

/-- **One list of words for the bytes.** -/
theorem wordsToBytes_eq_ok_iff {words bytes : List UInt8} (hwords : ∀ w ∈ words, w.toNat < 32) :
    wordsToBytes words = .ok bytes ↔ words = bytesToWords bytes := by
  obtain ⟨out, left, hbits, hlen, hrun⟩ :=
    @wordsToBytesFrom_spec 0 0 (by decide) (by decide) words hwords
  obtain ⟨k, hk, henc⟩ := @bitsOf_bytesToWordsFrom 0 0 (by decide) bytes
  have hnone (n : ℕ) : bits 0 n = [] := rfl
  rw [hnone, List.nil_append] at hbits henc
  change bitsOf 5 (bytesToWords bytes) = _ at henc
  rw [wordsToBytes, hrun]
  constructor
  · intro h
    by_cases hbad : 5 ≤ left.length ∨ left ≠ List.replicate left.length false
    · rw [if_pos hbad] at h
      cases h
    · rw [if_neg hbad] at h
      cases h
      rw [not_or, not_not, Nat.not_le] at hbad
      rw [hbad.2] at hbits
      -- Both fill up the same bits to groups of five.
      have hlength := congrArg List.length hbits
      have hlength' := congrArg List.length henc
      simp only [List.length_append, length_bitsOf, List.length_replicate] at hlength hlength'
      have hpad : left.length = k := by omega
      refine (@groups_inj 5 words (bytesToWords bytes) [] [] hwords (bytesToWords_lt bytes)
        (by decide) (by decide) ?_).1
      rw [List.append_nil, List.append_nil, hbits, henc, hpad]
  · intro h
    rw [h, henc] at hbits
    obtain ⟨hout, hrest⟩ := groups_inj (byte_lt bytes) (byte_lt out)
      (by rw [List.length_replicate]; omega) hlen hbits
    rw [← hrest, hout, if_neg]
    rw [List.length_replicate, not_or, Nat.not_le, not_not]
    exact ⟨hk, rfl⟩

/-! ## The one checksum -/

theorem checksumWords_lt (hrp : List Char) (words : List UInt8) :
    ∀ c ∈ checksumWords hrp words, c.toNat < 32 := by
  intro c hc
  obtain ⟨i, -, rfl⟩ := List.mem_map.mp hc
  rw [toNat_mask (w := 5) rfl (by decide)]
  exact Nat.mod_lt _ (by decide)

theorem length_checksumWords (hrp : List Char) (words : List UInt8) :
    (checksumWords hrp words).length = 6 := by
  rw [checksumWords, List.length_map, List.length_range]

/-- Up to six words are only lined up. -/
theorem bits_polymodWords {chk : UInt32} {pos : ℕ} (hchk : chk.toNat < 2 ^ pos) {cs : List UInt8}
    (hcs : ∀ c ∈ cs, c.toNat < 32) (hpos : pos + 5 * cs.length ≤ 30) :
    (polymodWords chk cs).toNat < 2 ^ (pos + 5 * cs.length) ∧
      bits (pos + 5 * cs.length) (polymodWords chk cs).toNat = bits pos chk.toNat ++ bitsOf 5 cs := by
  induction cs generalizing chk pos with
  | nil =>
      rw [bitsOf_nil, List.append_nil]
      exact ⟨hchk, rfl⟩
  | cons c cs ih =>
      rw [List.forall_mem_cons] at hcs
      rw [List.length_cons] at hpos
      have hsmall : chk.toNat < 2 ^ 25 :=
        lt_of_lt_of_le hchk (Nat.pow_le_pow_right (by decide) (by omega))
      -- Nothing reaches the high bits, so the word takes the place of the zeros.
      have htake : (polymodTake chk c.toUInt32).toNat = chk.toNat * 2 ^ 5 + c.toNat := by
        rw [polymodTake, UInt32.toNat_xor, toNat_polymodStep_of_lt hsmall, UInt8.toNat_toUInt32,
          ← shiftLeft_or hcs.1, Nat.shiftLeft_eq]
        apply Nat.eq_of_testBit_eq
        intro i
        rw [Nat.testBit_xor, Nat.testBit_or, show 32 = 2 ^ 5 from rfl, Nat.testBit_mul_two_pow]
        by_cases hi : 5 ≤ i
        · rw [Nat.testBit_lt_two_pow (lt_of_lt_of_le hcs.1 (Nat.pow_le_pow_right Nat.two_pos hi))]
          simp
        · simp [hi]
      have hlt : (polymodTake chk c.toUInt32).toNat < 2 ^ (pos + 5) := by
        have hc := hcs.1
        rw [htake, pow_add]
        omega
      have hpush := bits_push hcs.1 (show (polymodTake chk c.toUInt32).toNat % 2 ^ (pos + 5) =
        (chk.toNat * 2 ^ 5 + c.toNat) % 2 ^ (pos + 5) by rw [htake])
      obtain ⟨hbound, hbits⟩ := ih hlt hcs.2 (by omega)
      rw [List.length_cons, show pos + 5 * (cs.length + 1) = pos + 5 + 5 * cs.length by ring]
      refine ⟨hbound, ?_⟩
      rw [bitsOf_cons, ← List.append_assoc, ← hpush]
      exact hbits

/-- What words add to a state is that of the state alone and that of the words alone. -/
theorem polymodWords_eq (chk : UInt32) (cs : List UInt8) :
    polymodWords chk cs = polymodStep^[cs.length] chk ^^^ polymodWords 0 cs := by
  have h := polymodWords_xor chk 0 cs
  rw [UInt32.xor_zero] at h
  rw [← h, UInt32.xor_assoc, UInt32.xor_self, UInt32.xor_zero]

theorem foldl_range_eq_iterate {α : Type} (f : α → α) (n : ℕ) (a : α) :
    (List.range n).foldl (fun x _ => f x) a = f^[n] a := by
  induction n with
  | zero => rfl
  | succ n ih => rw [List.range_succ, List.foldl_append, ih, Function.iterate_succ_apply']; rfl

/-- **One checksum for a text.** -/
theorem checksumValid_iff {hrp : List Char} {words cs : List UInt8} (hlength : cs.length = 6)
    (hcs : ∀ c ∈ cs, c.toNat < 32) :
    checksumValid hrp (words ++ cs) = true ↔ cs = checksumWords hrp words := by
  have hstate : (polymodStep^[6] (polymodWords (polymodPrefix hrp) words) ^^^ encodingConst).toNat <
      2 ^ 30 := by
    rw [UInt32.toNat_xor, Function.iterate_succ_apply']
    exact Nat.xor_lt_two_pow (polymodStep_lt _) (by decide)
  obtain ⟨hbound, hbits⟩ := @bits_polymodWords 0 0 (by decide) cs hcs (by omega)
  rw [hlength] at hbound hbits
  have hwords : bitsOf 5 (checksumWords hrp words) = bits 30
      (polymodStep^[6] (polymodWords (polymodPrefix hrp) words) ^^^ encodingConst).toNat := by
    rw [checksumWords, foldl_range_eq_iterate]
    generalize polymodStep^[6] (polymodWords (polymodPrefix hrp) words) ^^^ encodingConst = x
    have hpiece (n : ℕ) (hn : n < 32) :
        bits 5 (((x >>> UInt32.ofNat n) &&& 31).toUInt8).toNat = bits 5 (x.toNat / 2 ^ n) := by
      rw [toNat_mask (w := 5) rfl (by decide), bits_mod, toNat_shift hn]
    have hall : bits 30 x.toNat = bits 5 (x.toNat / 2 ^ 25) ++ (bits 5 (x.toNat / 2 ^ 20) ++
        (bits 5 (x.toNat / 2 ^ 15) ++ (bits 5 (x.toNat / 2 ^ 10) ++ (bits 5 (x.toNat / 2 ^ 5) ++
          (bits 5 (x.toNat / 2 ^ 0) ++ []))))) := by
      rw [List.append_nil, pow_zero, Nat.div_one, ← bits_add 5 5, ← bits_add 5 10, ← bits_add 5 15,
        ← bits_add 5 20, ← bits_add 5 25]
    rw [hall, ← hpiece 25 (by decide), ← hpiece 20 (by decide), ← hpiece 15 (by decide),
      ← hpiece 10 (by decide), ← hpiece 5 (by decide), ← hpiece 0 (by decide)]
    rfl
  rw [checksumValid, decide_eq_true_eq, polymodWords_append, polymodWords_eq, hlength]
  have hmove : polymodStep^[6] (polymodWords (polymodPrefix hrp) words) ^^^ polymodWords 0 cs =
      encodingConst ↔ polymodWords 0 cs =
        polymodStep^[6] (polymodWords (polymodPrefix hrp) words) ^^^ encodingConst := by
    rw [← UInt32.xor_right_inj (polymodStep^[6] (polymodWords (polymodPrefix hrp) words)),
      ← UInt32.xor_assoc, UInt32.xor_self, UInt32.zero_xor]
  rw [hmove]
  constructor
  · intro heq
    refine (@groups_inj 5 cs _ [] [] hcs (checksumWords_lt hrp words) (by decide) (by decide) ?_).1
    rw [hwords, ← heq]
    exact congrArg (· ++ []) hbits.symm
  · intro heq
    have hsame : bits 30 (polymodWords 0 cs).toNat = bits 30
        (polymodStep^[6] (polymodWords (polymodPrefix hrp) words) ^^^ encodingConst).toNat := by
      rw [← hwords, ← heq]
      exact hbits
    exact UInt32.toNat_inj.mp (eq_of_bits hbound hstate hsame)

end Label309
