import Label309.Lib.Radix
import Label309.Verifier.Content

/-!
# The two readings of a content identifier

The validator and the verifier have each their own varint and multibase decoders. They read the
same bytes, but for base32: the validator takes padding and drops the bits that are left over.
-/
namespace Label309
open Radix

/-! ## Varints -/

theorem readVarintFrom_eq {value : UInt64} {shift i : ℕ} (hshift : shift ≤ 28)
    (bytes : List UInt8) :
    Content.readVarintFrom value shift i bytes = readVarintFrom value shift i bytes := by
  induction bytes generalizing value shift i with
  | nil => rfl
  | cons b bytes ih =>
      rw [Content.readVarintFrom, readVarintFrom, if_neg (by omega)]
      dsimp only
      by_cases hlast : b &&& 0x80 = 0
      · rw [if_pos hlast, if_pos hlast]
      · rw [if_neg hlast, if_neg hlast]
        by_cases hmore : 28 < shift + 7
        · rw [if_pos hmore]
          cases bytes with
          | nil => rfl
          | cons b bytes => rw [Content.readVarintFrom, if_pos hmore]
        · rw [if_neg hmore, ih (by omega)]

theorem readVarint_eq (bytes : List UInt8) (start : ℕ) :
    Content.readVarint bytes start = readVarint bytes start :=
  readVarintFrom_eq (by decide) _

/-! ## Base 16 -/

theorem lowerHexDigit_eq (b : UInt8) : Content.lowerHexDigit b = hexDigitOf b false := by
  simp [Content.lowerHexDigit, hexDigitOf]

/-- An upper-case digit is read after lower-casing it. -/
theorem lowerHexDigit_toAsciiLowercase {b d : UInt8} (h : hexDigitOf b true = some d) :
    Content.lowerHexDigit (toAsciiLowercase b) = some d := by
  have hall : ∀ b, hexDigitOf b true = none ∨
      Content.lowerHexDigit (toAsciiLowercase b) = hexDigitOf b true := by decide +kernel
  rcases hall b with hnone | heq
  · rw [h] at hnone
    cases hnone
  · rw [heq, h]

/-- One reader of digits follows another where each of its digits does. -/
theorem base16Pairs_of_digits {upper : Bool} {fold : UInt8 → UInt8}
    (hdigit : ∀ b d, hexDigitOf b upper = some d → Content.lowerHexDigit (fold b) = some d)
    (s : List UInt8) {out : List UInt8} (h : base16Pairs upper s = some out) :
    Content.base16Pairs (s.map fold) = some out := by
  induction s using base16Pairs.induct generalizing out with
  | case1 hi lo rest ih =>
      simp only [base16Pairs, Option.bind_eq_bind, Option.bind_eq_some_iff] at h
      obtain ⟨hd, hhi, ld, hlo, tail, htail, heq⟩ := h
      simp only [List.map_cons, Content.base16Pairs, hdigit _ _ hhi, hdigit _ _ hlo, ih htail,
        Option.bind_eq_bind, Option.bind_some]
      exact heq
  | case2 s hshort =>
      match s, hshort with
      | [], _ => exact h
      | [_], _ => exact h
      | hi :: lo :: rest, hshort => exact absurd rfl (hshort hi lo rest)

theorem decodeBase16_lower {s out : List UInt8} (h : decodeBase16 s false = some out) :
    Content.decodeBase16Lower s = some out := by
  rw [decodeBase16] at h
  rw [Content.decodeBase16Lower]
  by_cases heven : s.length % 2 ≠ 0
  · simp [heven] at h
  · rw [if_neg heven] at h ⊢
    have hdigit : ∀ b d, hexDigitOf b false = some d → Content.lowerHexDigit (id b) = some d := by
      intro b d hd
      rw [← hd]
      exact lowerHexDigit_eq b
    have hpairs := base16Pairs_of_digits hdigit s h
    rwa [List.map_id] at hpairs

theorem decodeBase16_upper {s out : List UInt8} (h : decodeBase16 s true = some out) :
    Content.decodeBase16Lower (s.map toAsciiLowercase) = some out := by
  rw [decodeBase16] at h
  rw [Content.decodeBase16Lower, List.length_map]
  by_cases heven : s.length % 2 ≠ 0
  · simp [heven] at h
  · rw [if_neg heven] at h ⊢
    exact base16Pairs_of_digits (fun _ _ hd => lowerHexDigit_toAsciiLowercase hd) s h

/-! ## Base 58 -/

/-- The number that base58 digits spell, from `v` on. -/
def base58Value : ℕ → List UInt8 → Option ℕ
  | v, [] => some v
  | v, ch :: rest => do
      let d ← base58Alphabet.idxOf? ch
      base58Value (58 * v + d) rest

theorem base58Alphabet_index {ch : UInt8} {d : ℕ} (h : base58Alphabet.idxOf? ch = some d) :
    d < 58 := by
  have hlen : base58Alphabet.length = 58 := by decide
  rw [← hlen]
  exact (List.findIdx?_eq_some_iff_getElem.mp h).1

/-- A carry below a byte is pushed as its one byte, or none. -/
theorem pushCarry_eq {carry : ℕ} (h : carry < 256) :
    Content.pushCarry 4 carry = leBytes carry := by
  by_cases hzero : carry = 0
  · rw [hzero, leBytes_zero]
    rfl
  · have hdiv : carry / 256 = 0 := by omega
    rw [Content.pushCarry, if_neg hzero, leBytes_pos hzero, hdiv, leBytes_zero]
    rfl

theorem mul_add_div (v carry : ℕ) :
    (58 * v + carry) / 256 = 58 * (v / 256) + (v % 256 * 58 + carry) / 256 := by omega

theorem toNat_ofNat_mod (n : ℕ) : (UInt8.ofNat (n % 256)).toNat = n % 256 := by
  rw [UInt8.toNat_ofNat', Nat.mod_mod]

/-- The verifier's step on the bytes of a number. -/
theorem contentStep_leBytes {carry : ℕ} (hcarry : carry < 58) (v : ℕ) :
    Content.base58Step carry (leBytes v) = leBytes (58 * v + carry) := by
  induction v using Nat.strong_induction_on generalizing carry with
  | _ v ih =>
      by_cases hzero : v = 0
      · rw [hzero, leBytes_zero, Content.base58Step, pushCarry_eq (by omega), mul_zero, zero_add]
      · have hnext : (v % 256 * 58 + carry) / 256 < 58 := by omega
        have hmod : (58 * v + carry) % 256 = (v % 256 * 58 + carry) % 256 := by omega
        rw [leBytes_pos hzero, Content.base58Step, toNat_ofNat_mod, ih (v / 256) (by omega) hnext,
          @leBytes_pos (58 * v + carry) (by omega), hmod, mul_add_div]

theorem contentDigits_leBytes (v : ℕ) (s : List UInt8) :
    Content.base58Digits (leBytes v) s = (base58Value v s).map leBytes := by
  induction s generalizing v with
  | nil => rfl
  | cons ch s ih =>
      rw [Content.base58Digits, base58Value]
      cases hd : base58Alphabet.idxOf? ch with
      | none => rfl
      | some d =>
          simp only [Option.bind_eq_bind, Option.bind_some,
            contentStep_leBytes (base58Alphabet_index hd), ih]

/-- The validator's step on a field of fixed width: what lies beyond `length` is zero before and
after. -/
theorem step_leFixed {length carry k w v : ℕ} (hv : v < 256 ^ (length - k)) :
    (base58Step length carry k (leFixed w v)).1 = leFixed w (58 * v + carry) ∧
      (58 * v + carry < 256 ^ w →
        k ≤ (base58Step length carry k (leFixed w v)).2 ∧
          58 * v + carry < 256 ^ ((base58Step length carry k (leFixed w v)).2 - k)) := by
  induction w generalizing carry k v with
  | zero =>
      refine ⟨rfl, ?_⟩
      intro hfit
      exact ⟨le_refl k, by simpa [base58Step, leFixed] using hfit⟩
  | succ w ih =>
      rw [leFixed, base58Step]
      by_cases hmore : carry ≠ 0 ∨ k < length
      · rw [if_pos hmore]
        dsimp only
        have hdiv : v / 256 < 256 ^ (length - (k + 1)) := by
          by_cases hk : k < length
          · have hexp : length - k = length - (k + 1) + 1 := by omega
            rw [hexp, pow_succ, mul_comm] at hv
            exact Nat.div_lt_of_lt_mul hv
          · have hzero : length - k = 0 := by omega
            rw [hzero, pow_zero] at hv
            have hv0 : v = 0 := by omega
            rw [hv0, Nat.zero_div]
            positivity
        obtain ⟨hlist, hreach⟩ :=
          @ih ((carry + 58 * (v % 256)) / 256) (k + 1) (v / 256) hdiv
        have hnext : 58 * (v / 256) + (carry + 58 * (v % 256)) / 256 =
            (58 * v + carry) / 256 := by omega
        have hmod : (carry + 58 * (v % 256)) % 256 = (58 * v + carry) % 256 := by omega
        rw [hnext] at hlist hreach
        rw [toNat_ofNat_mod]
        refine ⟨by rw [hlist, hmod, leFixed], ?_⟩
        intro hfit
        rw [pow_succ, mul_comm _ 256] at hfit
        obtain ⟨hk, hlt⟩ := hreach (Nat.div_lt_of_lt_mul hfit)
        refine ⟨by omega, ?_⟩
        have hexp : (base58Step length ((carry + 58 * (v % 256)) / 256) (k + 1)
            (leFixed w (v / 256))).2 - k = (base58Step length ((carry + 58 * (v % 256)) / 256)
            (k + 1) (leFixed w (v / 256))).2 - (k + 1) + 1 := by omega
        rw [hexp, pow_succ]
        exact (Nat.div_lt_iff_lt_mul (by decide)).mp hlt
      · have hcarry : carry = 0 := by omega
        have hzero : length - k = 0 := by omega
        rw [hzero, pow_zero] at hv
        have hv0 : v = 0 := by omega
        subst hcarry hv0
        rw [if_neg hmore]
        exact ⟨rfl, fun _ => ⟨le_refl k, by simp⟩⟩

/-- The validator's digits on a field that is wide enough. -/
theorem digits_leFixed {w length v : ℕ} (hv : v < 256 ^ length) (s : List UInt8)
    (hfit : (v + 1) * 58 ^ s.length ≤ 256 ^ w) :
    match base58Value v s with
    | none => base58Digits (leFixed w v, length) s = none
    | some n => n < 256 ^ w ∧ ∃ length', n < 256 ^ length' ∧
        base58Digits (leFixed w v, length) s = some (leFixed w n, length') := by
  induction s generalizing v length with
  | nil =>
      refine ⟨?_, length, hv, rfl⟩
      simpa using hfit
  | cons ch s ih =>
      rw [base58Value, base58Digits]
      cases hd : base58Alphabet.idxOf? ch with
      | none => rfl
      | some d =>
          have hlt := base58Alphabet_index hd
          obtain ⟨hlist, hreach⟩ := @step_leFixed length d 0 w v (by rwa [Nat.sub_zero])
          have hfit' : (58 * v + d + 1) * 58 ^ s.length ≤ 256 ^ w := by
            calc (58 * v + d + 1) * 58 ^ s.length
                ≤ ((v + 1) * 58) * 58 ^ s.length := Nat.mul_le_mul_right _ (by omega)
              _ = (v + 1) * 58 ^ (ch :: s).length := by rw [List.length_cons, pow_succ]; ring
              _ ≤ 256 ^ w := hfit
          have hnext : 58 * v + d < 256 ^ w := by
            have hpos : 1 ≤ 58 ^ s.length := Nat.one_le_pow _ _ (by decide)
            have hle := Nat.le_mul_of_pos_right (58 * v + d + 1) hpos
            omega
          obtain ⟨-, hlength⟩ := hreach hnext
          rw [Nat.sub_zero] at hlength
          have hstep : base58Step length d 0 (leFixed w v) =
              (leFixed w (58 * v + d), (base58Step length d 0 (leFixed w v)).2) :=
            Prod.ext hlist rfl
          simp only [Option.bind_eq_bind, Option.bind_some]
          rw [hstep]
          exact ih hlength hfit'

/-- Leading ones spell zero. -/
theorem base58Value_ones (s : List UInt8) :
    base58Value 0 s = base58Value 0 (s.drop (s.takeWhile (· == 49)).length) := by
  induction s with
  | nil => rfl
  | cons ch s ih =>
      by_cases hone : ch = 49
      · have hd : base58Alphabet.idxOf? 49 = some 0 := by decide
        subst hone
        rw [base58Value, hd, List.takeWhile_cons_of_pos (by rfl)]
        simpa using ih
      · rw [List.takeWhile_cons_of_neg (by simpa using hone)]
        rfl

/-- The field of the validator holds every number of so many base58 digits. -/
theorem field_fits (n : ℕ) : (0 + 1) * 58 ^ n ≤ 256 ^ (n * 733 / 1000 + 1) := by
  have hbase : (58 : ℕ) ^ 71 ≤ 256 ^ 52 := by norm_num
  have hpow : (58 ^ n) ^ 71 ≤ (256 ^ (n * 733 / 1000 + 1)) ^ 71 := by
    calc (58 ^ n) ^ 71 = (58 ^ 71) ^ n := by rw [← pow_mul, ← pow_mul, mul_comm]
      _ ≤ (256 ^ 52) ^ n := Nat.pow_le_pow_left hbase n
      _ = 256 ^ (52 * n) := by rw [← pow_mul]
      _ ≤ 256 ^ ((n * 733 / 1000 + 1) * 71) := Nat.pow_le_pow_right (by decide) (by omega)
      _ = (256 ^ (n * 733 / 1000 + 1)) ^ 71 := by rw [← pow_mul]
  rw [zero_add, one_mul]
  exact (Nat.pow_le_pow_iff_left (by decide)).mp hpow

/-- The leading zeros that the ones stand for, then the bytes of the number. -/
theorem decodeBase58btc_eq (s : List UInt8) (hne : s ≠ []) :
    decodeBase58btc s = (base58Value 0 s).map fun n =>
      List.replicate (s.takeWhile (· == 49)).length 0 ++ (leBytes n).reverse := by
  rw [decodeBase58btc, if_neg (by simpa using hne), base58Value_ones]
  dsimp only
  have hdigits := @digits_leFixed ((s.length - (s.takeWhile (· == 49)).length) * 733 / 1000 + 1)
    0 0 (by decide) (s.drop (s.takeWhile (· == 49)).length)
    (by rw [List.length_drop]; exact field_fits _)
  rw [leFixed_zero] at hdigits
  cases hvalue : base58Value 0 (s.drop (s.takeWhile (· == 49)).length) with
  | none =>
      rw [hvalue] at hdigits
      dsimp only at hdigits
      rw [hdigits]
      rfl
  | some n =>
      rw [hvalue] at hdigits
      obtain ⟨hfit, length, hlength, hrun⟩ := hdigits
      rw [hrun]
      simp only [Option.bind_eq_bind, Option.bind_some, Option.map_some]
      rw [dropWhile_reverse_take_leFixed hfit hlength]

theorem contentDecodeBase58btc_eq {s : List UInt8} (hne : s ≠ []) :
    Content.decodeBase58btc s = decodeBase58btc s := by
  rw [decodeBase58btc_eq s hne, Content.decodeBase58btc, if_neg (by simpa using hne),
    ← leBytes_zero, contentDigits_leBytes, Option.map_map]
  rfl

/-! ## Base 32 -/

/-- Five bits a digit: the bytes, and the value of the bits that are left over. -/
def base32Bits (alphabet : List UInt8) : (pending bits : ℕ) → List UInt8 →
    Option (List UInt8 × ℕ)
  | pending, _, [] => some ([], pending)
  | pending, bits, ch :: rest => do
      let d ← alphabet.idxOf? ch
      let v := pending * 32 + d
      if 8 ≤ bits + 5 then
        let (out, left) ← base32Bits alphabet (v % 2 ^ (bits + 5 - 8)) (bits + 5 - 8) rest
        some (UInt8.ofNat (v / 2 ^ (bits + 5 - 8)) :: out, left)
      else base32Bits alphabet v (bits + 5) rest

theorem base32Alphabet_index {upper : Bool} {ch : UInt8} {d : ℕ}
    (h : (base32Alphabet upper).idxOf? ch = some d) : d < 32 := by
  have hlen : (base32Alphabet upper).length = 32 := by cases upper <;> decide
  rw [← hlen]
  exact (List.findIdx?_eq_some_iff_getElem.mp h).1

/-- Five more bits, of which only the pending ones and the digit count. -/
theorem pending_step {b w bits d : ℕ} (hbits : bits ≤ w) (hd : d < 32) :
    ((b % 2 ^ w) <<< 5 ||| d) % 2 ^ (bits + 5) = b % 2 ^ bits * 32 + d := by
  have hor : (b % 2 ^ w) <<< 5 ||| d = 32 * (b % 2 ^ w) + d := by
    rw [← Nat.shiftLeft_add_eq_or_of_lt (by omega), Nat.shiftLeft_eq]
    ring
  have hdiv : (32 * (b % 2 ^ w) + d) / 32 = b % 2 ^ w := by omega
  rw [hor, pow_add, mul_comm (2 ^ bits), Nat.mod_mul, show (2 : ℕ) ^ 5 = 32 from rfl, hdiv,
    Nat.mod_mod_of_dvd _ (Nat.pow_dvd_pow 2 hbits)]
  omega

theorem byte_of_shift (v n : ℕ) : UInt8.ofNat (v / 2 ^ n) = UInt8.ofNat (v % 2 ^ (n + 8) / 2 ^ n) := by
  apply UInt8.toNat_inj.mp
  rw [UInt8.toNat_ofNat', UInt8.toNat_ofNat', pow_add, Nat.mod_mul_right_div_self]
  omega

theorem buffer32_step {buf : UInt32} {bits d : ℕ} (hbits : bits < 8) (hd : d < 32) :
    ((buf <<< 5) ||| UInt32.ofNat d).toNat % 2 ^ (bits + 5) = buf.toNat % 2 ^ bits * 32 + d := by
  have hshift : (buf <<< 5).toNat = (buf.toNat % 2 ^ 27) <<< 5 := by
    rw [UInt32.toNat_shiftLeft]
    simp only [UInt32.reduceToNat, Nat.reduceMod, Nat.shiftLeft_eq]
    omega
  rw [UInt32.toNat_or, hshift, UInt32.toNat_ofNat_of_lt' (by simp only [UInt32.size]; omega)]
  exact pending_step (by omega) hd

theorem buffer64_step {buf : UInt64} {bits d : ℕ} (hbits : bits < 8) (hd : d < 32) :
    ((buf <<< 5) ||| UInt64.ofNat d).toNat % 2 ^ (bits + 5) = buf.toNat % 2 ^ bits * 32 + d := by
  have hshift : (buf <<< 5).toNat = (buf.toNat % 2 ^ 59) <<< 5 := by
    rw [UInt64.toNat_shiftLeft]
    simp only [UInt64.reduceToNat, Nat.reduceMod, Nat.shiftLeft_eq]
    omega
  rw [UInt64.toNat_or, hshift, UInt64.toNat_ofNat_of_lt' (by simp only [UInt64.size]; omega)]
  exact pending_step (by omega) hd

theorem toUInt8_shift32 {buf : UInt32} {n : ℕ} (hn : n < 8) :
    (buf >>> UInt32.ofNat n).toUInt8 = UInt8.ofNat (buf.toNat % 2 ^ (n + 8) / 2 ^ n) := by
  rw [← byte_of_shift]
  apply UInt8.toNat_inj.mp
  rw [UInt32.toNat_toUInt8, UInt32.toNat_shiftRight, Nat.shiftRight_eq_div_pow,
    UInt32.toNat_ofNat_of_lt' (by simp only [UInt32.size]; omega),
    Nat.mod_eq_of_lt (show n < 32 by omega), UInt8.toNat_ofNat']

theorem toUInt8_shift64 {buf : UInt64} {n : ℕ} (hn : n < 8) :
    (buf >>> UInt64.ofNat n).toUInt8 = UInt8.ofNat (buf.toNat % 2 ^ (n + 8) / 2 ^ n) := by
  rw [← byte_of_shift]
  apply UInt8.toNat_inj.mp
  rw [UInt64.toNat_toUInt8, UInt64.toNat_shiftRight, Nat.shiftRight_eq_div_pow,
    UInt64.toNat_ofNat_of_lt' (by simp only [UInt64.size]; omega),
    Nat.mod_eq_of_lt (show n < 64 by omega), UInt8.toNat_ofNat']

/-- The validator's buffer counts by its pending bits only. -/
theorem base32Digits_eq {upper : Bool} {buf : UInt32} {bits : ℕ} (hbits : bits < 8)
    (s : List UInt8) :
    base32Digits (base32Alphabet upper) buf bits s =
      (base32Bits (base32Alphabet upper) (buf.toNat % 2 ^ bits) bits s).map Prod.fst := by
  induction s generalizing buf bits with
  | nil => rfl
  | cons ch s ih =>
      rw [base32Digits, base32Bits]
      cases hd : (base32Alphabet upper).idxOf? ch with
      | none => rfl
      | some d =>
          simp only [Option.bind_eq_bind, Option.bind_some]
          have hstep := @buffer32_step buf bits d hbits (base32Alphabet_index hd)
          by_cases hbyte : 8 ≤ bits + 5
          · have hmod : ((buf <<< 5) ||| UInt32.ofNat d).toNat % 2 ^ (bits + 5 - 8) =
                (buf.toNat % 2 ^ bits * 32 + d) % 2 ^ (bits + 5 - 8) := by
              rw [← hstep, Nat.mod_mod_of_dvd _ (Nat.pow_dvd_pow 2 (by omega))]
            rw [if_pos hbyte, if_pos hbyte, toUInt8_shift32 (by omega),
              show bits + 5 - 8 + 8 = bits + 5 by omega, hstep, ih (by omega), hmod]
            cases base32Bits (base32Alphabet upper) ((buf.toNat % 2 ^ bits * 32 + d) %
              2 ^ (bits + 5 - 8)) (bits + 5 - 8) s <;> rfl
          · rw [if_neg hbyte, if_neg hbyte, ih (by omega), hstep]

/-- The verifier's buffer too, and it asks that nothing is left over. -/
theorem contentBase32Digits_eq {buf : UInt64} {bits : ℕ} (hbits : bits < 8) (s : List UInt8) :
    Content.base32Digits buf bits s =
      (base32Bits (base32Alphabet false) (buf.toNat % 2 ^ bits) bits s).bind fun r =>
        if r.2 = 0 then some r.1 else none := by
  induction s generalizing buf bits with
  | nil =>
      have hleft : (0 < bits ∧ buf &&& ((1 <<< UInt64.ofNat bits) - 1) ≠ 0) ↔
          buf.toNat % 2 ^ bits ≠ 0 := by
        have hmask : (buf &&& ((1 <<< UInt64.ofNat bits) - 1)).toNat = buf.toNat % 2 ^ bits := by
          rw [UInt64.toNat_and, ← Nat.and_two_pow_sub_one_eq_mod]
          congr 1
          interval_cases bits <;> decide
        rw [← hmask, ne_eq, ne_eq, ← UInt64.toNat_inj, UInt64.toNat_zero]
        refine ⟨And.right, fun h => ⟨?_, h⟩⟩
        by_contra hzero
        have hbits0 : bits = 0 := by omega
        rw [hmask, hbits0, pow_zero, Nat.mod_one] at h
        exact h rfl
      rw [Content.base32Digits, base32Bits, Option.bind_some]
      by_cases hzero : buf.toNat % 2 ^ bits = 0
      · rw [if_pos hzero, if_neg (by rw [hleft]; exact not_not_intro hzero)]
      · rw [if_neg hzero, if_pos (hleft.mpr hzero)]
  | cons ch s ih =>
      rw [Content.base32Digits, base32Bits]
      change ((base32Alphabet false).idxOf? ch).bind _ = _
      cases hd : (base32Alphabet false).idxOf? ch with
      | none => rfl
      | some d =>
          simp only [Option.bind_eq_bind, Option.bind_some]
          have hstep := @buffer64_step buf bits d hbits (base32Alphabet_index hd)
          by_cases hbyte : 8 ≤ bits + 5
          · have hmod : ((buf <<< 5) ||| UInt64.ofNat d).toNat % 2 ^ (bits + 5 - 8) =
                (buf.toNat % 2 ^ bits * 32 + d) % 2 ^ (bits + 5 - 8) := by
              rw [← hstep, Nat.mod_mod_of_dvd _ (Nat.pow_dvd_pow 2 (by omega))]
            rw [if_pos hbyte, if_pos hbyte, toUInt8_shift64 (by omega),
              show bits + 5 - 8 + 8 = bits + 5 by omega, hstep, ih (by omega), hmod]
            cases base32Bits (base32Alphabet false) ((buf.toNat % 2 ^ bits * 32 + d) %
              2 ^ (bits + 5 - 8)) (bits + 5 - 8) s with
            | none => rfl
            | some r =>
                by_cases hzero : r.2 = 0
                · simp [hzero]
                · simp [hzero]
          · rw [if_neg hbyte, if_neg hbyte, ih (by omega), hstep]

/-- The number that base32 digits spell, from `v` on. -/
def base32Number (upper : Bool) (v : ℕ) (s : List UInt8) : ℕ :=
  s.foldl (fun v ch => v * 32 + (base32Alphabet upper).idxOf ch) v

theorem base32Number_split (upper : Bool) (v : ℕ) (s : List UInt8) :
    base32Number upper v s = v * 2 ^ (5 * s.length) + base32Number upper 0 s := by
  induction s generalizing v with
  | nil => simp [base32Number]
  | cons ch s ih =>
      have hcons : ∀ v, base32Number upper v (ch :: s) =
          base32Number upper (v * 32 + (base32Alphabet upper).idxOf ch) s := fun _ => rfl
      have hpow : 2 ^ (5 * (ch :: s).length) = 32 * 2 ^ (5 * s.length) := by
        rw [List.length_cons, mul_add, pow_add, mul_comm]
        rfl
      rw [hcons, hcons, ih, ih (0 * 32 + _), hpow]
      ring

/-- What is left over are the low bits of the number, as many as do not make a byte. -/
theorem base32Bits_left {upper : Bool} {pending bits : ℕ} (hbits : bits < 8)
    (hpending : pending < 2 ^ bits) {s : List UInt8} {r : List UInt8 × ℕ}
    (h : base32Bits (base32Alphabet upper) pending bits s = some r) :
    r.2 = base32Number upper pending s % 2 ^ ((bits + 5 * s.length) % 8) := by
  induction s generalizing pending bits r with
  | nil =>
      cases h
      rw [List.length_nil, mul_zero, add_zero, Nat.mod_eq_of_lt hbits]
      exact (Nat.mod_eq_of_lt hpending).symm
  | cons ch s ih =>
      rw [base32Bits] at h
      cases hd : (base32Alphabet upper).idxOf? ch with
      | none => simp [hd] at h
      | some d =>
          have hlt := base32Alphabet_index hd
          have hidx : (base32Alphabet upper).idxOf ch = d := by
            rw [List.idxOf_eq_getD_idxOf?, hd]
            rfl
          have hnumber : base32Number upper pending (ch :: s) =
              base32Number upper (pending * 32 + d) s := by
            rw [base32Number, List.foldl_cons, hidx]
            rfl
          rw [hd] at h
          simp only [Option.bind_eq_bind, Option.bind_some] at h
          rw [hnumber, List.length_cons]
          by_cases hbyte : 8 ≤ bits + 5
          · rw [if_pos hbyte] at h
            cases hrest : base32Bits (base32Alphabet upper)
                ((pending * 32 + d) % 2 ^ (bits + 5 - 8)) (bits + 5 - 8) s with
            | none =>
                rw [hrest] at h
                cases h
            | some r' =>
                rw [hrest] at h
                cases h
                have hexp : (bits + 5 * (s.length + 1)) % 8 =
                    (bits + 5 - 8 + 5 * s.length) % 8 := by omega
                have hdvd : 2 ^ ((bits + 5 - 8 + 5 * s.length) % 8) ∣
                    2 ^ (bits + 5 - 8) * 2 ^ (5 * s.length) := by
                  rw [← pow_add]
                  exact Nat.pow_dvd_pow 2 (Nat.mod_le _ _)
                rw [ih (by omega) (Nat.mod_lt _ (by positivity)) hrest, hexp,
                  base32Number_split upper ((pending * 32 + d) % 2 ^ (bits + 5 - 8)),
                  base32Number_split upper (pending * 32 + d)]
                -- The bits above the pending ones do not reach the last digits.
                have hmod : (pending * 32 + d) * 2 ^ (5 * s.length) ≡
                    (pending * 32 + d) % 2 ^ (bits + 5 - 8) * 2 ^ (5 * s.length)
                      [MOD 2 ^ (bits + 5 - 8) * 2 ^ (5 * s.length)] :=
                  ((Nat.mod_modEq _ _).mul_right' _).symm
                exact ((hmod.of_dvd hdvd).add_right _).symm
          · rw [if_neg hbyte] at h
            have hlt' : pending * 32 + d < 2 ^ (bits + 5) := by
              rw [pow_add]
              omega
            rw [ih (by omega) hlt' h, show bits + 5 + 5 * s.length = bits + 5 * (s.length + 1)
              by ring]

/-- No padding, and nothing but zero in the bits that do not make a byte. -/
def Base32Exact (upper : Bool) (body : List UInt8) : Prop :=
  body.getLast? ≠ some 61 ∧ base32Number upper 0 body % 2 ^ (5 * body.length % 8) = 0

/-- The alphabet whose digits are read after the fold. -/
def foldCase (upper : Bool) (body : List UInt8) : List UInt8 :=
  if upper then body.map toAsciiLowercase else body

theorem base32Bits_foldCase {upper : Bool} {pending bits : ℕ} {s : List UInt8}
    {r : List UInt8 × ℕ} (h : base32Bits (base32Alphabet upper) pending bits s = some r) :
    base32Bits (base32Alphabet false) pending bits (foldCase upper s) = some r := by
  cases upper with
  | false => exact h
  | true =>
      have hall : ((base32Alphabet true).all fun ch =>
          (base32Alphabet false).idxOf? (toAsciiLowercase ch) ==
            (base32Alphabet true).idxOf? ch) = true := by decide
      induction s generalizing pending bits r with
      | nil => exact h
      | cons ch s ih =>
          rw [base32Bits] at h
          change base32Bits _ _ _ (toAsciiLowercase ch :: foldCase true s) = _
          rw [base32Bits]
          by_cases hmem : ch ∈ base32Alphabet true
          · rw [beq_iff_eq.mp (List.all_eq_true.mp hall ch hmem)]
            cases hd : (base32Alphabet true).idxOf? ch with
            | none => simp [hd] at h
            | some d =>
                rw [hd] at h
                simp only [Option.bind_eq_bind, Option.bind_some] at h ⊢
                by_cases hbyte : 8 ≤ bits + 5
                · rw [if_pos hbyte] at h ⊢
                  cases hrest : base32Bits (base32Alphabet true)
                      ((pending * 32 + d) % 2 ^ (bits + 5 - 8)) (bits + 5 - 8) s with
                  | none =>
                      rw [hrest] at h
                      cases h
                  | some r' =>
                      rw [hrest] at h
                      rw [ih hrest]
                      exact h
                · rw [if_neg hbyte] at h ⊢
                  exact ih h
          · simp [List.idxOf?_eq_none_iff.mpr hmem] at h

/-- A character that is no digit is refused wherever it stands. -/
theorem base32Bits_eq_none {alphabet : List UInt8} {pending bits : ℕ} {s : List UInt8} {ch : UInt8}
    (hmem : ch ∈ s) (hch : alphabet.idxOf? ch = none) :
    base32Bits alphabet pending bits s = none := by
  induction s generalizing pending bits with
  | nil => cases hmem
  | cons c s ih =>
      rw [base32Bits]
      cases hd : alphabet.idxOf? c with
      | none => rfl
      | some d =>
          have hrest : ch ∈ s := by
            rcases List.mem_cons.mp hmem with rfl | hmem
            · rw [hch] at hd
              cases hd
            · exact hmem
          simp only [Option.bind_eq_bind, Option.bind_some]
          by_cases hbyte : 8 ≤ bits + 5
          · rw [if_pos hbyte, ih hrest]
            rfl
          · rw [if_neg hbyte, ih hrest]

/-- **Base 32.** What the validator decodes, the verifier decodes to the same bytes exactly when
there is neither padding nor a bit left over. -/
theorem contentDecodeBase32_eq {upper : Bool} {body bytes : List UInt8}
    (h : decodeBase32 body upper = some bytes) :
    (Base32Exact upper body →
        Content.decodeBase32Lower (foldCase upper body) = some bytes) ∧
      (¬ Base32Exact upper body →
        Content.decodeBase32Lower (foldCase upper body) = none) := by
  have hcontent : ∀ s, Content.decodeBase32Lower s =
      (base32Bits (base32Alphabet false) 0 0 s).bind fun r =>
        if r.2 = 0 then some r.1 else none := fun s => contentBase32Digits_eq (by decide) s
  rw [hcontent]
  by_cases hpad : body.getLast? = some 61
  · have hmem : (61 : UInt8) ∈ foldCase upper body := by
      have hbody := List.mem_of_getLast? hpad
      cases upper with
      | false => exact hbody
      | true => exact List.mem_map.mpr ⟨61, hbody, rfl⟩
    rw [base32Bits_eq_none hmem (by decide)]
    exact ⟨fun hexact => absurd hpad hexact.1, fun _ => rfl⟩
  · have htrim : (body.reverse.dropWhile (· == 61)).reverse = body := by
      cases hrev : body.reverse with
      | nil => simpa using hrev.symm
      | cons b bs =>
          have hb : b ≠ 61 := by
            rw [List.getLast?_eq_head?_reverse, hrev] at hpad
            simpa using hpad
          rw [List.dropWhile_cons_of_neg (by simpa using hb), ← hrev, List.reverse_reverse]
    rw [decodeBase32, htrim, base32Digits_eq (by decide)] at h
    obtain ⟨r, hbits, hr⟩ := Option.map_eq_some_iff.mp h
    have hleft := base32Bits_left (by decide) (by decide) hbits
    rw [zero_add] at hleft
    change base32Bits _ 0 0 body = some r at hbits
    rw [base32Bits_foldCase hbits, Option.bind_some]
    constructor
    · intro hexact
      rw [if_pos (hleft.trans hexact.2), hr]
    · intro hnot
      rw [if_neg]
      intro hzero
      exact hnot ⟨hpad, hleft.symm.trans hzero⟩

end Label309
