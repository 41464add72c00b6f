import Label309.Verifier.CidDecoders

/-!
# What base 58 denotes

Over the alphabet a text denotes a number, and both decoders give the bytes of that number behind
one zero byte for every leading `1`. The validator's field is wide enough for the number of every
text, so no carry runs out of it.
-/
namespace Label309
open Radix

/-- The number of the digits, the most significant first. -/
def base58Number (s : List UInt8) : ℕ := Nat.ofDigits 58 (s.map base58Alphabet.idxOf).reverse

/-- The bytes of a number without leading zeros, the most significant first. -/
def minimalBytes (n : ℕ) : List UInt8 := ((Nat.digits 256 n).map UInt8.ofNat).reverse

/-- The carry that is left when the validator's step ends. -/
def carryLeft (length : ℕ) : (carry k : ℕ) → List UInt8 → ℕ
  | carry, _, [] => carry
  | carry, k, b :: rest =>
      if carry ≠ 0 ∨ k < length then
        carryLeft length ((carry + 58 * b.toNat) / 256) (k + 1) rest
      else carry

/-! ## Digits -/

section Digits
variable {s : List UInt8} {ch : UInt8}

theorem idxOf?_of_mem (h : ch ∈ base58Alphabet) :
    base58Alphabet.idxOf? ch = some (base58Alphabet.idxOf ch) := by
  obtain ⟨d, hd⟩ := Option.isSome_iff_exists.mp (List.isSome_idxOf?.mpr h)
  rw [hd, List.idxOf_eq_getD_idxOf?, hd, Option.getD_some]

theorem base58Number_cons (ch : UInt8) (s : List UInt8) :
    base58Number (ch :: s) = base58Alphabet.idxOf ch * 58 ^ s.length + base58Number s := by
  rw [base58Number, base58Number, List.map_cons, List.reverse_cons, Nat.ofDigits_append,
    Nat.ofDigits_singleton, List.length_reverse, List.length_map]
  ring

theorem base58Value_of_mem (h : ∀ ch ∈ s, ch ∈ base58Alphabet) (v : ℕ) :
    base58Value v s = some (v * 58 ^ s.length + base58Number s) := by
  induction s generalizing v with
  | nil => simp [base58Value, base58Number]
  | cons ch s ih =>
      rw [List.forall_mem_cons] at h
      rw [base58Value, idxOf?_of_mem h.1]
      simp only [Option.bind_eq_bind, Option.bind_some, ih h.2, base58Number_cons,
        List.length_cons, pow_succ]
      ring_nf

theorem base58Value_of_not_mem (hmem : ch ∈ s) (h : ch ∉ base58Alphabet) (v : ℕ) :
    base58Value v s = none := by
  induction s generalizing v with
  | nil => cases hmem
  | cons c s ih =>
      rw [base58Value]
      cases hd : base58Alphabet.idxOf? c with
      | none => rfl
      | some d =>
          cases hmem with
          | head => simp [List.idxOf?_eq_none_iff.mpr h] at hd
          | tail _ hrest => exact ih hrest _

/-- A digit more is a place more. -/
theorem base58Number_lt (h : ∀ ch ∈ s, ch ∈ base58Alphabet) : base58Number s < 58 ^ s.length := by
  induction s with
  | nil => simp [base58Number]
  | cons ch s ih =>
      rw [List.forall_mem_cons] at h
      have hd := base58Alphabet_index (idxOf?_of_mem h.1)
      have hrest := ih h.2
      rw [base58Number_cons, List.length_cons, pow_succ]
      nlinarith

theorem base58Number_concat (p : List UInt8) (ch : UInt8) :
    base58Number (p ++ [ch]) = 58 * base58Number p + base58Alphabet.idxOf ch := by
  rw [base58Number, List.map_append, List.reverse_append, List.map_singleton,
    List.reverse_singleton, List.singleton_append, Nat.ofDigits_cons, base58Number]
  simp [Nat.add_comm]

end Digits

/-! ## The field -/

/-- No carry is left where the product fits the field. -/
theorem carryLeft_leFixed {length carry k w v : ℕ} (hv : v < 256 ^ (length - k))
    (hfit : 58 * v + carry < 256 ^ w) : carryLeft length carry k (leFixed w v) = 0 := by
  induction w generalizing carry k v with
  | zero =>
      rw [pow_zero] at hfit
      rw [leFixed, carryLeft]
      omega
  | succ w ih =>
      rw [leFixed, carryLeft]
      by_cases hmore : carry ≠ 0 ∨ k < length
      · rw [if_pos hmore, toNat_ofNat_mod]
        have hdiv : v / 256 < 256 ^ (length - (k + 1)) := by
          by_cases hk : k < length
          · have hexp : length - k = length - (k + 1) + 1 := by omega
            rw [hexp, pow_succ, mul_comm] at hv
            exact Nat.div_lt_of_lt_mul hv
          · have hzero : length - k = 0 := by omega
            rw [hzero, pow_zero] at hv
            have hv0 : v = 0 := by omega
            rw [hv0, Nat.zero_div]
            positivity
        refine ih hdiv ?_
        rw [pow_succ, mul_comm _ 256] at hfit
        have hnext : 58 * (v / 256) + (carry + 58 * (v % 256)) / 256 =
            (58 * v + carry) / 256 := by omega
        rw [hnext]
        exact Nat.div_lt_of_lt_mul hfit
      · rw [if_neg hmore]
        omega

/-- The width of the validator's field for so many digits. -/
def fieldWidth (digits : ℕ) : ℕ := digits * 733 / 1000 + 1

theorem pow_le_field {n digits : ℕ} (h : n ≤ digits) : 58 ^ n ≤ 256 ^ fieldWidth digits := by
  have hfits := field_fits digits
  rw [Nat.zero_add, Nat.one_mul] at hfits
  exact (Nat.pow_le_pow_right (by decide) h).trans hfits

/-- **After every digit** the field holds the number of the digits so far, and the next step
leaves no carry. -/
theorem base58Digits_prefix {p rest : List UInt8} {ch : UInt8}
    (h : ∀ c ∈ p ++ ch :: rest, c ∈ base58Alphabet) :
    ∃ length,
      base58Digits (List.replicate (fieldWidth (p ++ ch :: rest).length) 0, 0) p =
        some (leFixed (fieldWidth (p ++ ch :: rest).length) (base58Number p), length) ∧
      base58Number p < 256 ^ fieldWidth (p ++ ch :: rest).length ∧
      carryLeft length (base58Alphabet.idxOf ch) 0
        (leFixed (fieldWidth (p ++ ch :: rest).length) (base58Number p)) = 0 := by
  generalize hwidth : fieldWidth (p ++ ch :: rest).length = w
  have hp : ∀ c ∈ p, c ∈ base58Alphabet := fun c hc => h c (List.mem_append_left _ hc)
  have hnext : ∀ c ∈ p ++ [ch], c ∈ base58Alphabet := by
    intro c hc
    refine h c ?_
    simp only [List.mem_append, List.mem_cons, List.not_mem_nil, or_false] at hc ⊢
    tauto
  have hfit : (0 + 1) * 58 ^ p.length ≤ 256 ^ w := by
    rw [Nat.zero_add, Nat.one_mul, ← hwidth]
    exact pow_le_field (by simp)
  have hrun := @digits_leFixed w 0 0 (by decide) p hfit
  rw [base58Value_of_mem hp, leFixed_zero] at hrun
  simp only [Nat.zero_mul, Nat.zero_add] at hrun
  obtain ⟨hlt, length, hlength, hdigits⟩ := hrun
  refine ⟨length, hdigits, hlt, carryLeft_leFixed (by simpa using hlength) ?_⟩
  have hbound := base58Number_lt hnext
  rw [base58Number_concat, List.length_append, List.length_singleton] at hbound
  refine lt_of_lt_of_le hbound ?_
  rw [← hwidth]
  exact pow_le_field (by simp)

theorem ofDigits_leFixed {w n : ℕ} (h : n < 256 ^ w) :
    Nat.ofDigits 256 ((leFixed w n).map UInt8.toNat) = n := by
  induction w generalizing n with
  | zero =>
      rw [pow_zero] at h
      rw [leFixed, List.map_nil, Nat.ofDigits_nil]
      omega
  | succ w ih =>
      rw [pow_succ, Nat.mul_comm] at h
      rw [leFixed, List.map_cons, Nat.ofDigits_cons, ih (Nat.div_lt_of_lt_mul h), toNat_ofNat_mod]
      simpa using Nat.mod_add_div n 256

/-! ## Both decoders -/

theorem drop_takeWhile_length (s : List UInt8) (p : UInt8 → Bool) :
    s.drop (s.takeWhile p).length = s.dropWhile p := by
  calc s.drop (s.takeWhile p).length
      = (s.takeWhile p ++ s.dropWhile p).drop (s.takeWhile p).length := by
        rw [List.takeWhile_append_dropWhile]
    _ = s.dropWhile p := List.drop_left

/-- Over the alphabet both decoders give a zero byte for every leading one and the bytes of the
number of the other digits, and the validator's field loses nothing; beside it both fail. -/
theorem decodeBase58btc_number (s : List UInt8) (hne : s ≠ []) :
    ((∀ ch ∈ s, ch ∈ base58Alphabet) →
      decodeBase58btc s = some (List.replicate (s.takeWhile (· == 49)).length 0 ++
        minimalBytes (base58Number (s.dropWhile (· == 49)))) ∧
      Content.decodeBase58btc s = decodeBase58btc s ∧
      ∀ p ch rest, s.dropWhile (· == 49) = p ++ ch :: rest →
        ∃ b256 length,
          base58Digits (List.replicate (fieldWidth (s.dropWhile (· == 49)).length) 0, 0) p =
            some (b256, length) ∧
          Nat.ofDigits 256 (b256.map UInt8.toNat) = base58Number p ∧
          carryLeft length (base58Alphabet.idxOf ch) 0 b256 = 0) ∧
    ((∃ ch ∈ s, ch ∉ base58Alphabet) →
      decodeBase58btc s = none ∧ Content.decodeBase58btc s = none) := by
  refine ⟨?_, ?_⟩
  · intro hmem
    have hdigits : ∀ ch ∈ s.dropWhile (· == 49), ch ∈ base58Alphabet :=
      fun ch hch => hmem ch ((List.dropWhile_suffix _).subset hch)
    refine ⟨?_, contentDecodeBase58btc_eq hne, ?_⟩
    · rw [decodeBase58btc_eq s hne, base58Value_ones, drop_takeWhile_length,
        base58Value_of_mem hdigits, Nat.zero_mul, Nat.zero_add]
      rfl
    · intro p ch rest hcut
      rw [hcut] at hdigits ⊢
      obtain ⟨length, hrun, hlt, hleft⟩ := base58Digits_prefix hdigits
      exact ⟨_, length, hrun, ofDigits_leFixed hlt, hleft⟩
  · intro hnot
    obtain ⟨ch, hch, halphabet⟩ := hnot
    have hnone : decodeBase58btc s = none := by
      rw [decodeBase58btc_eq s hne, base58Value_of_not_mem hch halphabet]
      rfl
    exact ⟨hnone, by rw [contentDecodeBase58btc_eq hne, hnone]⟩

/-- Two leading ones and three digits. -/
theorem decodeBase58btc_number_ones :
    decodeBase58btc [49, 49, 50, 51, 52] = some [0, 0, 13, 155] := by
  have h := ((decodeBase58btc_number [49, 49, 50, 51, 52] (by decide)).1 (by decide +kernel)).1
  rw [h]
  decide

end Label309
