import Label309.Lib.Regroup
import Label309.Lib.Utf8
import Label309.Verifier.CidDecoders

/-!
# Content identifiers as text

What a content identifier is for: a codec, a hash function and a digest, written as numbers of
seven-bit groups and then in one of five alphabets. The readers of the verifier give back what was
written. Only a text that begins with a character of several bytes is cut inside it.
-/
namespace Label309
open Radix Regroup

namespace CidText

/-! ## The encodings -/

/-- A number in groups of seven bits, the low group first; every byte but the last one has its
high bit set. -/
def varint (n : ℕ) : List UInt8 :=
  if n < 128 then [UInt8.ofNat n] else UInt8.ofNat (n % 128 + 128) :: varint (n / 128)

/-- The bytes of a version-1 identifier. -/
def cidBytes (codec code : UInt64) (digest : List UInt8) : List UInt8 :=
  varint 1 ++ (varint codec.toNat ++ (varint code.toNat ++ (varint digest.length ++ digest)))

/-- The bytes of a version-0 identifier, which is a multihash. -/
def multihashV0 (digest : FixedBytes 32) : List UInt8 := 0x12 :: 32 :: digest.val

def base16Alphabet (upper : Bool) : List UInt8 :=
  if upper then utf8Bytes "0123456789ABCDEF" else utf8Bytes "0123456789abcdef"

/-- The letter of a digit. -/
def letter (alphabet : List UInt8) (d : ℕ) : UInt8 := alphabet.getD d 0

/-- Two digits a byte. -/
def base16 (upper : Bool) (bytes : List UInt8) : List UInt8 :=
  bytes.flatMap fun b =>
    [letter (base16Alphabet upper) (b.toNat / 16), letter (base16Alphabet upper) (b.toNat % 16)]

/-- Five bits a digit, the last one filled up with zeros, without padding. -/
def base32 (upper : Bool) (bytes : List UInt8) : List UInt8 :=
  (cut 5 (bitsOf 8 bytes)).map fun d => letter (base32Alphabet upper) d.toNat

/-- The bytes as one number, after a `1` for every leading zero byte. -/
def base58 (bytes : List UInt8) : List UInt8 :=
  List.replicate (bytes.takeWhile (· == 0)).length 49 ++
    (Nat.digits 58 (BigEndian.ofBe bytes)).reverse.map (letter base58Alphabet)

/-- The multibase forms of the profile. -/
inductive Multibase
  | base32
  | base32Upper
  | base16
  | base16Upper
  | base58btc
  deriving DecidableEq

/-- The letter that a form begins with. -/
def Multibase.code : Multibase → UInt8
  | .base32 => 98
  | .base32Upper => 66
  | .base16 => 102
  | .base16Upper => 70
  | .base58btc => 122

def Multibase.encode : Multibase → List UInt8 → List UInt8
  | .base32 => CidText.base32 false
  | .base32Upper => CidText.base32 true
  | .base16 => CidText.base16 false
  | .base16Upper => CidText.base16 true
  | .base58btc => base58

/-- ASCII bytes as text. -/
def asText (bytes : List UInt8) : String := String.ofList (bytes.map fun b => Char.ofNat b.toNat)

def multibaseText (form : Multibase) (bytes : List UInt8) : String :=
  asText (form.code :: form.encode bytes)

/-! ## ASCII -/

theorem utf8Bytes_asText {bytes : List UInt8} (h : ∀ b ∈ bytes, b.toNat < 128) :
    utf8Bytes (asText bytes) = bytes := by
  have hchar : ∀ n : Fin 128, Utf8.IsAscii (Char.ofNat n.val) ∧
      Utf8.byteOf (Char.ofNat n.val) = UInt8.ofNat n.val := by decide
  rw [asText, utf8Bytes_ofList]
  induction bytes with
  | nil => rfl
  | cons b bytes ih =>
      rw [List.forall_mem_cons] at h
      have hb := hchar ⟨b.toNat, h.1⟩
      rw [List.map_cons, Utf8.encode_cons, Utf8.encodeChar_ascii hb.1, hb.2, ih h.2]
      simp

theorem letter_ascii {alphabet : List UInt8} (h : ∀ b ∈ alphabet, b.toNat < 128) (d : ℕ) :
    (letter alphabet d).toNat < 128 := by
  rw [letter, List.getD_eq_getElem?_getD]
  by_cases hd : d < alphabet.length
  · rw [List.getElem?_eq_getElem hd, Option.getD_some]
    exact h _ (List.getElem_mem hd)
  · rw [List.getElem?_eq_none (by omega)]
    decide

theorem ascii_of_all {bytes : List UInt8} (h : bytes.all (fun b => b.toNat < 128) = true) :
    ∀ b ∈ bytes, b.toNat < 128 := by simpa using h

theorem base16_ascii (upper : Bool) (bytes : List UInt8) :
    ∀ b ∈ base16 upper bytes, b.toNat < 128 := by
  have hall := ascii_of_all (show (base16Alphabet upper).all _ = true by
    cases upper <;> decide)
  intro b hb
  simp only [base16, List.mem_flatMap, List.mem_cons, List.not_mem_nil, or_false] at hb
  obtain ⟨a, -, rfl | rfl⟩ := hb <;> exact letter_ascii hall _

theorem base32_ascii (upper : Bool) (bytes : List UInt8) :
    ∀ b ∈ base32 upper bytes, b.toNat < 128 := by
  have hall := ascii_of_all (show (base32Alphabet upper).all _ = true by
    cases upper <;> decide)
  intro b hb
  obtain ⟨d, -, rfl⟩ := List.mem_map.mp hb
  exact letter_ascii hall _

theorem base58_ascii (bytes : List UInt8) : ∀ b ∈ base58 bytes, b.toNat < 128 := by
  have hall := ascii_of_all (show base58Alphabet.all _ = true by decide)
  intro b hb
  rcases List.mem_append.mp hb with hone | hdigit
  · rw [List.eq_of_mem_replicate hone]
    decide
  · obtain ⟨d, -, rfl⟩ := List.mem_map.mp hdigit
    exact letter_ascii hall _

theorem Multibase.encode_ascii (form : Multibase) (bytes : List UInt8) :
    ∀ b ∈ form.encode bytes, b.toNat < 128 := by
  cases form with
  | base32 => exact base32_ascii false bytes
  | base32Upper => exact base32_ascii true bytes
  | base16 => exact base16_ascii false bytes
  | base16Upper => exact base16_ascii true bytes
  | base58btc => exact base58_ascii bytes

theorem utf8Bytes_multibaseText (form : Multibase) (bytes : List UInt8) :
    utf8Bytes (multibaseText form bytes) = form.code :: form.encode bytes := by
  refine utf8Bytes_asText ?_
  rw [List.forall_mem_cons]
  exact ⟨by cases form <;> decide, form.encode_ascii bytes⟩

/-! ## Varints -/

theorem varint_last {n : ℕ} (h : n < 128) : varint n = [UInt8.ofNat n] := by
  rw [varint, if_pos h]

theorem varint_more {n : ℕ} (h : ¬ n < 128) :
    varint n = UInt8.ofNat (n % 128 + 128) :: varint (n / 128) := by
  rw [varint, if_neg h]

/-- What is read of a byte with its high bit clear, and of one with it set. -/
theorem group_byte {n : ℕ} (h : n < 128) :
    (UInt8.ofNat n &&& 0x7f).toNat = n ∧ UInt8.ofNat n &&& 0x80 = 0 ∧
      (UInt8.ofNat (n + 128) &&& 0x7f).toNat = n ∧ UInt8.ofNat (n + 128) &&& 0x80 ≠ 0 := by
  have hall : ∀ n : Fin 128,
      (UInt8.ofNat n.val &&& 0x7f).toNat = n.val ∧ UInt8.ofNat n.val &&& 0x80 = 0 ∧
        (UInt8.ofNat (n.val + 128) &&& 0x7f).toNat = n.val ∧
          UInt8.ofNat (n.val + 128) &&& 0x80 ≠ 0 := by decide
  exact hall ⟨n, h⟩

/-- A group taken in above the bits that are there. -/
theorem or_group {v shift : ℕ} {g : UInt8} (hv : v < 2 ^ shift) (hshift : shift ≤ 28)
    (hg : g.toNat < 128) :
    UInt64.ofNat v ||| (g.toUInt64 <<< UInt64.ofNat shift) =
      UInt64.ofNat (v + g.toNat * 2 ^ shift) := by
  have hpow : 2 ^ shift ≤ 2 ^ 28 := Nat.pow_le_pow_right (by decide) hshift
  have hmul : g.toNat * 2 ^ shift ≤ 127 * 2 ^ 28 := Nat.mul_le_mul (by omega) hpow
  have hor : g.toNat * 2 ^ shift ||| v = g.toNat * 2 ^ shift + v := by
    rw [Nat.mul_comm, Nat.two_pow_add_eq_or_of_lt hv]
  have hmod : (UInt64.ofNat shift).toNat % 64 = shift := by
    rw [UInt64.toNat_ofNat_of_lt' (by simp only [UInt64.size]; omega), Nat.mod_eq_of_lt (by omega)]
  apply UInt64.toNat_inj.mp
  rw [UInt64.toNat_or, UInt64.toNat_shiftLeft, hmod, UInt8.toNat_toUInt64, Nat.shiftLeft_eq,
    Nat.mod_eq_of_lt (by omega), UInt64.toNat_ofNat_of_lt' (by simp only [UInt64.size]; omega),
    UInt64.toNat_ofNat_of_lt' (by simp only [UInt64.size]; omega), Nat.or_comm, hor, Nat.add_comm]

/-- The groups that are left fit in the shifts that are left. -/
theorem readVarintFrom_varint {left : ℕ} {n v shift i : ℕ} (hn : n < 2 ^ (7 * (left + 1)))
    (hleft : shift + 7 * left = 28) (hv : v < 2 ^ shift) (rest : List UInt8) :
    Content.readVarintFrom (UInt64.ofNat v) shift i (varint n ++ rest) =
      some (UInt64.ofNat (v + n * 2 ^ shift), i + (varint n).length) := by
  induction left generalizing n v shift i with
  | zero =>
      have hlast : n < 128 := by omega
      obtain ⟨hlow, hclear, -, -⟩ := group_byte hlast
      rw [varint_last hlast, List.singleton_append, Content.readVarintFrom, if_neg (by omega)]
      dsimp only
      rw [if_pos hclear, or_group hv (by omega) (by omega), hlow]
      rfl
  | succ left ih =>
      by_cases hlast : n < 128
      · obtain ⟨hlow, hclear, -, -⟩ := group_byte hlast
        rw [varint_last hlast, List.singleton_append, Content.readVarintFrom, if_neg (by omega)]
        dsimp only
        rw [if_pos hclear, or_group hv (by omega) (by omega), hlow]
        rfl
      · have hgroup : n % 128 < 128 := Nat.mod_lt _ (by decide)
        obtain ⟨-, -, hlow, hset⟩ := group_byte hgroup
        have hdiv : n / 128 < 2 ^ (7 * (left + 1)) := by
          rw [show 7 * (left + 1 + 1) = 7 * (left + 1) + 7 by ring, pow_add] at hn
          omega
        have hv' : v + n % 128 * 2 ^ shift < 2 ^ (shift + 7) := by
          have hmul : n % 128 * 2 ^ shift ≤ 127 * 2 ^ shift := Nat.mul_le_mul_right _ (by omega)
          rw [pow_add]
          omega
        have hvalue : v + n % 128 * 2 ^ shift + n / 128 * 2 ^ (shift + 7) = v + n * 2 ^ shift := by
          have hsplit : n = n % 128 + n / 128 * 128 := by omega
          calc v + n % 128 * 2 ^ shift + n / 128 * 2 ^ (shift + 7)
              = v + (n % 128 + n / 128 * 128) * 2 ^ shift := by ring
            _ = v + n * 2 ^ shift := by rw [← hsplit]
        rw [varint_more hlast, List.cons_append, Content.readVarintFrom, if_neg (by omega)]
        dsimp only
        rw [if_neg hset, or_group hv (by omega) (by omega), hlow,
          ih hdiv (by omega) hv', hvalue, List.length_cons]
        simp only [Option.some.injEq, Prod.mk.injEq, true_and]
        omega

/-- **A varint that was written is read back**, wherever it stands. -/
theorem readVarint_varint {n : ℕ} (hn : n < 2 ^ 35) (front rest : List UInt8) :
    Content.readVarint (front ++ (varint n ++ rest)) front.length =
      some (UInt64.ofNat n, front.length + (varint n).length) := by
  rw [Content.readVarint, List.drop_left]
  have hread := @readVarintFrom_varint 4 n 0 0 front.length hn rfl (by decide) rest
  rwa [Nat.zero_add, pow_zero, Nat.mul_one] at hread

/-- **The fields that were written are read back.** -/
theorem parseCidFields_cidBytes {codec code : UInt64} {digest : List UInt8}
    (hcodec : codec.toNat < 2 ^ 35) (hcode : code.toNat < 2 ^ 35) (hdigest : digest.length < 2 ^ 35) :
    parseCidFields (cidBytes codec code digest) = some ⟨1, codec, code, digest⟩ := by
  have hone := readVarint_varint (n := 1) (by decide) []
    (varint codec.toNat ++ (varint code.toNat ++ (varint digest.length ++ digest)))
  have htwo := readVarint_varint hcodec (varint 1)
    (varint code.toNat ++ (varint digest.length ++ digest))
  have hthree := readVarint_varint hcode (varint 1 ++ varint codec.toNat)
    (varint digest.length ++ digest)
  have hfour := readVarint_varint hdigest (varint 1 ++ varint codec.toNat ++ varint code.toNat)
    digest
  have hdrop : (cidBytes codec code digest).drop ((varint 1 ++ varint codec.toNat ++
      varint code.toNat).length + (varint digest.length).length) = digest := by
    rw [cidBytes, ← List.length_append]
    simp only [← List.append_assoc, List.drop_left]
  simp only [List.nil_append, List.length_nil, Nat.zero_add, List.append_assoc,
    List.length_append, Nat.add_assoc] at hone htwo hthree hfour hdrop
  rw [parseCidFields, cidBytes, hone]
  simp only [Option.bind_eq_bind, Option.bind_some]
  rw [if_neg (by decide), htwo]
  simp only [Option.bind_some]
  rw [hthree]
  simp only [Option.bind_some]
  rw [hfour]
  have hlen : (UInt64.ofNat digest.length).toNat = digest.length :=
    UInt64.toNat_ofNat_of_lt' (by simp only [UInt64.size]; omega)
  simp only [Option.bind_some]
  rw [← cidBytes, hdrop, if_neg (by rw [hlen]; exact fun h => h rfl), UInt64.ofNat_toNat,
    UInt64.ofNat_toNat]
  rfl

/-! ## Base 16 -/

theorem lowerHexDigit_letter {n : ℕ} (h : n < 16) :
    Content.lowerHexDigit (letter (base16Alphabet false) n) = some (UInt8.ofNat n) ∧
      Content.lowerHexDigit (toAsciiLowercase (letter (base16Alphabet true) n)) =
        some (UInt8.ofNat n) := by
  have hall : ∀ n : Fin 16,
      Content.lowerHexDigit (letter (base16Alphabet false) n.val) = some (UInt8.ofNat n.val) ∧
        Content.lowerHexDigit (toAsciiLowercase (letter (base16Alphabet true) n.val)) =
          some (UInt8.ofNat n.val) := by decide
  exact hall ⟨n, h⟩

/-- Two digits make their byte, whatever the fold is that turns the letters into lower case. -/
theorem base16Pairs_base16 {upper : Bool} {fold : UInt8 → UInt8}
    (hdigit : ∀ n < 16, Content.lowerHexDigit (fold (letter (base16Alphabet upper) n)) =
      some (UInt8.ofNat n)) (bytes : List UInt8) :
    Content.base16Pairs ((base16 upper bytes).map fold) = some bytes := by
  have hjoin : ∀ b : UInt8,
      UInt8.ofNat (b.toNat / 16) <<< 4 ||| UInt8.ofNat (b.toNat % 16) = b := by decide +kernel
  induction bytes with
  | nil => rfl
  | cons b bytes ih =>
      have hb := b.toNat_lt
      change Content.base16Pairs (fold (letter _ (b.toNat / 16)) ::
        fold (letter _ (b.toNat % 16)) :: (base16 upper bytes).map fold) = _
      rw [Content.base16Pairs, hdigit _ (by omega), hdigit _ (by omega), ih]
      simp only [Option.bind_eq_bind, Option.bind_some, hjoin]

theorem length_base16 (upper : Bool) (bytes : List UInt8) :
    (base16 upper bytes).length = 2 * bytes.length := by
  induction bytes with
  | nil => rfl
  | cons b bytes ih =>
      rw [base16, List.flatMap_cons, List.length_append, ← base16, ih, List.length_cons]
      simp only [List.length_cons, List.length_nil]
      omega

theorem decodeBase16Lower_base16 (bytes : List UInt8) :
    Content.decodeBase16Lower (base16 false bytes) = some bytes ∧
      Content.decodeBase16Lower ((base16 true bytes).map toAsciiLowercase) = some bytes := by
  have hlower : Content.base16Pairs ((base16 false bytes).map id) = some bytes :=
    base16Pairs_base16 (fun n hn => (lowerHexDigit_letter hn).1) bytes
  rw [List.map_id] at hlower
  rw [Content.decodeBase16Lower, Content.decodeBase16Lower, List.length_map, length_base16,
    length_base16, if_neg (by omega), if_neg (by omega), hlower]
  exact ⟨rfl, base16Pairs_base16 (fun n hn => (lowerHexDigit_letter hn).2) bytes⟩

/-! ## Base 32 -/

theorem idxOf_letter32 (upper : Bool) {n : ℕ} (h : n < 32) :
    (base32Alphabet upper).idxOf? (letter (base32Alphabet upper) n) = some n := by
  have hall : ∀ n : Fin 32,
      (base32Alphabet false).idxOf? (letter (base32Alphabet false) n.val) = some n.val ∧
        (base32Alphabet true).idxOf? (letter (base32Alphabet true) n.val) = some n.val := by
    decide
  cases upper with
  | false => exact (hall ⟨n, h⟩).1
  | true => exact (hall ⟨n, h⟩).2

/-- The bits that were pending and those of the digits are those of the bytes and those that are
left. -/
theorem base32Bits_letters {upper : Bool} {pending pos : ℕ} (hpos : pos < 8)
    (hpending : pending < 2 ^ pos) {ds : List UInt8} (hds : ∀ d ∈ ds, d.toNat < 2 ^ 5) :
    ∃ out left, base32Bits (base32Alphabet upper) pending pos
        (ds.map fun d => letter (base32Alphabet upper) d.toNat) = some (out, left) ∧
      left < 2 ^ ((pos + 5 * ds.length) % 8) ∧
      bits pos pending ++ bitsOf 5 ds =
        bitsOf 8 out ++ bits ((pos + 5 * ds.length) % 8) left := by
  induction ds generalizing pending pos with
  | nil =>
      refine ⟨[], pending, rfl, ?_, ?_⟩
      · simpa [Nat.mod_eq_of_lt hpos] using hpending
      · simp [Nat.mod_eq_of_lt hpos]
  | cons d ds ih =>
      rw [List.forall_mem_cons] at hds
      have hpush : bits (pos + 5) (pending * 32 + d.toNat) = bits pos pending ++ bits 5 d.toNat :=
        bits_push hds.1 rfl
      have hv : pending * 32 + d.toNat < 2 ^ (pos + 5) := by
        have hd := hds.1
        rw [pow_add]
        omega
      rw [List.map_cons, base32Bits, idxOf_letter32 upper hds.1, bitsOf_cons, ← List.append_assoc,
        ← hpush, List.length_cons]
      simp only [Option.bind_eq_bind, Option.bind_some]
      by_cases hbyte : 8 ≤ pos + 5
      · -- A byte is given out above the bits that stay.
        obtain ⟨k, hk⟩ : ∃ k, pos + 5 = 8 + k := ⟨pos + 5 - 8, by omega⟩
        have hkeep : pos + 5 - 8 = k := by omega
        have hexp : (pos + 5 * (ds.length + 1)) % 8 = (k + 5 * ds.length) % 8 := by omega
        have hmod : (pending * 32 + d.toNat) % 2 ^ k < 2 ^ k := Nat.mod_lt _ (by positivity)
        obtain ⟨out, left, hrest, hleft, hbits⟩ := ih (by omega) hmod hds.2
        have hout : (UInt8.ofNat ((pending * 32 + d.toNat) / 2 ^ k)).toNat =
            (pending * 32 + d.toNat) / 2 ^ k := by
          rw [UInt8.toNat_ofNat', Nat.mod_eq_of_lt]
          apply Nat.div_lt_of_lt_mul
          rwa [hk, pow_add, Nat.mul_comm (2 ^ 8)] at hv
        rw [if_pos hbyte, hkeep, hrest, hexp]
        refine ⟨_, left, rfl, hleft, ?_⟩
        rw [bitsOf_cons, hout, hk, bits_add, List.append_assoc, List.append_assoc, ← hbits,
          bits_mod]
      · have hexp : (pos + 5 * (ds.length + 1)) % 8 = (pos + 5 + 5 * ds.length) % 8 := by omega
        rw [if_neg hbyte, hexp]
        exact ih (by omega) hv hds.2

/-- What fills up the last digit is left over, and it is zero. -/
theorem base32Bits_base32 (upper : Bool) (bytes : List UInt8) :
    base32Bits (base32Alphabet upper) 0 0 (base32 upper bytes) = some (bytes, 0) := by
  obtain ⟨pad, hpad, hcut⟩ := bitsOf_cut (w := 5) (by decide) (by decide) (bitsOf 8 bytes)
  obtain ⟨out, left, hread, hleft, hbits⟩ := @base32Bits_letters upper 0 0 (by decide)
    (by decide) _ (cut_lt (w := 5) (by decide) (bitsOf 8 bytes))
  rw [hcut, bits, List.nil_append] at hbits
  obtain ⟨hsame, hzeros⟩ := groups_inj (byte_lt bytes) (byte_lt out)
    (by rw [List.length_replicate]; omega)
    (by rw [length_bits]; exact Nat.mod_lt _ (by decide)) hbits
  have hpadlen := congrArg List.length hzeros
  rw [List.length_replicate, length_bits] at hpadlen
  rw [← hpadlen] at hzeros hleft
  have hzero := bits_eq_zeros_iff.mp hzeros.symm
  rw [Nat.mod_eq_of_lt hleft] at hzero
  rw [base32, hread, hsame, hzero]

theorem decodeBase32Lower_base32 (bytes : List UInt8) :
    Content.decodeBase32Lower (base32 false bytes) = some bytes ∧
      Content.decodeBase32Lower ((base32 true bytes).map toAsciiLowercase) = some bytes := by
  have hupper : base32Bits (base32Alphabet false) 0 0 ((base32 true bytes).map toAsciiLowercase) =
      some (bytes, 0) := base32Bits_foldCase (base32Bits_base32 true bytes)
  rw [Content.decodeBase32Lower, Content.decodeBase32Lower, contentBase32Digits_eq (by decide),
    contentBase32Digits_eq (by decide)]
  have hnone : (0 : UInt64).toNat % 2 ^ 0 = 0 := rfl
  rw [hnone, base32Bits_base32, hupper]
  exact ⟨rfl, rfl⟩

/-! ## Base 58 -/

theorem idxOf_letter58 {n : ℕ} (h : n < 58) :
    base58Alphabet.idxOf? (letter base58Alphabet n) = some n := by
  have hall : ∀ n : Fin 58,
      base58Alphabet.idxOf? (letter base58Alphabet n.val) = some n.val := by decide
  exact hall ⟨n, h⟩

theorem base58Value_append (v : ℕ) (s t : List UInt8) :
    base58Value v (s ++ t) = (base58Value v s).bind fun v => base58Value v t := by
  induction s generalizing v with
  | nil => rfl
  | cons ch s ih =>
      rw [List.cons_append, base58Value, base58Value]
      cases base58Alphabet.idxOf? ch with
      | none => rfl
      | some d => exact ih _

/-- The letters of digits, the highest first, denote the number. -/
theorem base58Value_letters {ds : List ℕ} (h : ∀ d ∈ ds, d < 58) :
    base58Value 0 (ds.reverse.map (letter base58Alphabet)) = some (Nat.ofDigits 58 ds) := by
  induction ds with
  | nil => rfl
  | cons d ds ih =>
      rw [List.forall_mem_cons] at h
      rw [List.reverse_cons, List.map_append, base58Value_append, ih h.2, Option.bind_some,
        List.map_singleton, base58Value, idxOf_letter58 h.1, Nat.ofDigits_cons]
      simp only [Option.bind_eq_bind, Option.bind_some, base58Value, Nat.add_comm]

/-- The highest digit is no zero, so its letter is no `1`. -/
theorem takeWhile_letters (n : ℕ) :
    ((Nat.digits 58 n).reverse.map (letter base58Alphabet)).takeWhile (· == 49) = [] := by
  by_cases hn : n = 0
  · rw [hn, Nat.digits_zero]
    rfl
  · have hne : Nat.digits 58 n ≠ [] := Nat.digits_ne_nil_iff_ne_zero.mpr hn
    have hlast := Nat.getLast_digit_ne_zero 58 hn
    have hlt : (Nat.digits 58 n).getLast hne < 58 :=
      Nat.digits_lt_base (by decide) (List.getLast_mem hne)
    have hall : ∀ d : Fin 58, d.val ≠ 0 → (letter base58Alphabet d.val == 49) = false := by
      decide
    rw [← List.dropLast_append_getLast hne, List.reverse_append, List.reverse_singleton,
      List.singleton_append, List.map_cons, List.takeWhile_cons_of_neg]
    rw [hall ⟨_, hlt⟩ hlast]
    decide

/-- The leading zeros of bytes, and the bytes of the number that they denote. -/
theorem zeros_append_leBytes (bytes : List UInt8) :
    List.replicate (bytes.takeWhile (· == 0)).length 0 ++
      (leBytes (BigEndian.ofBe bytes)).reverse = bytes := by
  have hzeros : bytes.takeWhile (· == 0) =
      List.replicate (bytes.takeWhile (· == 0)).length 0 :=
    List.eq_replicate_iff.mpr ⟨rfl, fun b hb => by simpa using List.mem_takeWhile_imp hb⟩
  rw [reverse_leBytes_ofBe, ← hzeros, List.takeWhile_append_dropWhile]

theorem base58_ne_nil {bytes : List UInt8} (h : bytes ≠ []) : base58 bytes ≠ [] := by
  intro hnil
  rw [base58, List.append_eq_nil_iff, List.map_eq_nil_iff, List.reverse_eq_nil_iff,
    Nat.digits_eq_nil_iff_eq_zero] at hnil
  have hbytes := zeros_append_leBytes bytes
  rw [hnil.2, leBytes_zero, List.reverse_nil, List.append_nil] at hbytes
  apply h
  rw [← hbytes]
  simpa using hnil.1

/-- **Base 58.** -/
theorem decodeBase58btc_base58 {bytes : List UInt8} (h : bytes ≠ []) :
    Content.decodeBase58btc (base58 bytes) = some bytes := by
  have hones : (base58 bytes).takeWhile (· == 49) =
      List.replicate (bytes.takeWhile (· == 0)).length 49 := by
    rw [base58, List.takeWhile_append_of_pos
      (fun b hb => by rw [List.eq_of_mem_replicate hb]; rfl), takeWhile_letters, List.append_nil]
  have hdrop : (base58 bytes).drop (bytes.takeWhile (· == 0)).length =
      (Nat.digits 58 (BigEndian.ofBe bytes)).reverse.map (letter base58Alphabet) := by
    rw [base58, List.drop_left' (List.length_replicate ..)]
  rw [contentDecodeBase58btc_eq (base58_ne_nil h), decodeBase58btc_eq _ (base58_ne_nil h),
    base58Value_ones, hones, List.length_replicate, hdrop,
    base58Value_letters fun d hd => Nat.digits_lt_base (by decide) hd, Nat.ofDigits_digits,
    Option.map_some, zeros_append_leBytes]

/-! ## Version 0 -/

/-- The two highest digits of a version-0 identifier are always those of `Qm`. -/
theorem digits_multihashV0 (digest : FixedBytes 32) :
    ∃ low, low.length = 44 ∧
      Nat.digits 58 (BigEndian.ofBe (multihashV0 digest)) = low ++ [44, 23] := by
  have hdigest := BigEndian.ofBe_lt digest.val
  rw [digest.property] at hdigest
  have hnumber : BigEndian.ofBe (multihashV0 digest) =
      0x1220 * 256 ^ 32 + BigEndian.ofBe digest.val := by
    have htwo : (0x12 : UInt8).toNat = 18 ∧ (32 : UInt8).toNat = 32 := by decide
    rw [multihashV0, BigEndian.ofBe, BigEndian.ofBe, List.length_cons, digest.property, htwo.1,
      htwo.2]
    ring
  have hhigh : BigEndian.ofBe (multihashV0 digest) / 58 ^ 44 = 1378 := by
    rw [hnumber]
    apply Nat.div_eq_of_lt_le
    · norm_num
      omega
    · norm_num at hdigest ⊢
      omega
  generalize BigEndian.ofBe (multihashV0 digest) = n at hhigh
  have hdrop : (Nat.digits 58 n).drop 44 = [44, 23] := by
    have hvalue : Nat.ofDigits 58 ((Nat.digits 58 n).drop 44) = 1378 := by
      rw [← Nat.self_div_pow_eq_ofDigits_drop 44 n (by decide), hhigh]
    rw [← Nat.digits_ofDigits 58 (by decide) ((Nat.digits 58 n).drop 44), hvalue]
    · simp
    · intro d hd
      exact Nat.digits_lt_base (by decide) (List.mem_of_mem_drop hd)
    · intro hne
      rw [List.getLast_drop hne]
      apply Nat.getLast_digit_ne_zero
      rintro rfl
      simp at hhigh
  refine ⟨(Nat.digits 58 n).take 44, ?_, ?_⟩
  · have hlen := congrArg List.length hdrop
    rw [List.length_drop, List.length_cons, List.length_singleton] at hlen
    rw [List.length_take]
    omega
  · rw [← hdrop, List.take_append_drop]

theorem base58_multihashV0 (digest : FixedBytes 32) :
    ∃ rest, rest.length = 44 ∧ base58 (multihashV0 digest) = 81 :: 109 :: rest := by
  obtain ⟨low, hlow, hdigits⟩ := digits_multihashV0 digest
  refine ⟨low.reverse.map (letter base58Alphabet), by simpa using hlow, ?_⟩
  rw [base58, hdigits, List.reverse_append]
  rfl

theorem utf8Bytes_base58 (bytes : List UInt8) : utf8Bytes (asText (base58 bytes)) = base58 bytes :=
  utf8Bytes_asText (base58_ascii bytes)

/-- **Version 0.** -/
theorem parseCid_base58 (digest : FixedBytes 32) :
    parseCid (asText (base58 (multihashV0 digest))) =
      .ok (some ⟨0, 0x70, multihashSha2256, digest.val⟩) := by
  obtain ⟨rest, hlen, htext⟩ := base58_multihashV0 digest
  have hdecode := @decodeBase58btc_base58 (multihashV0 digest) (List.cons_ne_nil _ _)
  have hQm : (utf8Bytes "Qm").isPrefixOf (81 :: 109 :: rest) = true := by
    have hbytes : utf8Bytes "Qm" = [81, 109] := by decide
    simp [hbytes]
  rw [parseCid, utf8Bytes_base58, htext]
  dsimp only
  rw [if_pos ⟨hQm, by simp [hlen]⟩, parseCidV0, ← htext, hdecode]
  have hfields : ¬ ((multihashV0 digest).length ≠ 34 ∨ (multihashV0 digest)[0]? ≠ some 0x12 ∨
      (multihashV0 digest)[1]? ≠ some 32) := by
    simp [multihashV0, digest.property]
  simp only [Option.bind_eq_bind, Option.bind_some]
  rw [if_neg hfields]
  rfl

/-! ## Version 1 -/

theorem decodeBody_encode (form : Multibase) {bytes : List UInt8} (h : bytes ≠ []) :
    Content.decodeBody form.code (form.encode bytes) = some bytes := by
  cases form with
  | base32 => exact (decodeBase32Lower_base32 bytes).1
  | base32Upper => exact (decodeBase32Lower_base32 bytes).2
  | base16 => exact (decodeBase16Lower_base16 bytes).1
  | base16Upper => exact (decodeBase16Lower_base16 bytes).2
  | base58btc => exact decodeBase58btc_base58 h

/-- No form begins like a version-0 identifier. -/
theorem Multibase.code_facts (form : Multibase) (body : List UInt8) :
    (utf8Bytes "Qm").isPrefixOf (form.code :: body) = false ∧ ¬ 0x80 ≤ form.code := by
  have hbytes : utf8Bytes "Qm" = [81, 109] := by decide
  rw [hbytes]
  cases form <;> exact ⟨rfl, by decide⟩

/-- **Version 1.** -/
theorem parseCid_multibaseText (form : Multibase) {codec code : UInt64} {digest : List UInt8}
    (hcodec : codec.toNat < 2 ^ 35) (hcode : code.toNat < 2 ^ 35)
    (hdigest : digest.length < 2 ^ 35) :
    parseCid (multibaseText form (cidBytes codec code digest)) =
      .ok (some ⟨1, codec, code, digest⟩) := by
  have hne : cidBytes codec code digest ≠ [] := by
    rw [cidBytes, varint_last (by decide)]
    exact List.cons_ne_nil _ _
  have hcodeFacts := form.code_facts (form.encode (cidBytes codec code digest))
  rw [parseCid, utf8Bytes_multibaseText]
  dsimp only
  rw [if_neg (by rw [hcodeFacts.1]; simp), if_neg hcodeFacts.2, decodeBody_encode form hne,
    Option.bind_some, parseCidFields_cidBytes hcodec hcode hdigest]

/-! ## Every text -/

/-- The first byte of a text is below 128 exactly when its first character is. -/
theorem head_utf8Bytes {cid : String} {b : UInt8} {bytes : List UInt8} {c : Char} {cs : List Char}
    (hcid : cid = String.ofList (c :: cs)) (hbytes : utf8Bytes cid = b :: bytes) :
    b.toNat < 128 ↔ Utf8.IsAscii c := by
  rw [hcid, utf8Bytes_ofList, Utf8.encode_cons] at hbytes
  by_cases hc : Utf8.IsAscii c
  · rw [Utf8.encodeChar_ascii hc, List.singleton_append, List.cons.injEq] at hbytes
    have hb := Utf8.toNat_byteOf hc
    rw [hbytes.1] at hb
    have hlt : c.val.toNat < 128 := hc
    exact iff_of_true (by omega) hc
  · have hmem : b ∈ String.utf8EncodeChar c := by
      obtain ⟨a, as, has⟩ := List.exists_cons_of_ne_nil (Utf8.encodeChar_ne_nil c)
      rw [has, List.cons_append, List.cons.injEq] at hbytes
      rw [has, hbytes.1]
      exact List.mem_cons_self
    have hle := Utf8.le_of_mem_encodeChar hc hmem
    exact iff_of_false (by omega) hc

/-- A text is read, or refused, exactly when it is not cut inside its first character. -/
theorem parseCid_total (cid : String) :
    (∃ parsed, parseCid cid = .ok parsed) ↔ ∀ c ∈ cid.toList.head?, Utf8.IsAscii c := by
  obtain ⟨cs, rfl⟩ : ∃ cs, cid = String.ofList cs := ⟨cid.toList, by simp⟩
  rw [parseCid]
  cases cs with
  | nil =>
      rw [utf8Bytes_ofList]
      exact iff_of_true ⟨none, rfl⟩ (by simp)
  | cons c cs =>
      have hhead : (∀ a ∈ (String.ofList (c :: cs)).toList.head?, Utf8.IsAscii a) ↔
          Utf8.IsAscii c := by simp
      rw [hhead]
      cases hbytes : utf8Bytes (String.ofList (c :: cs)) with
      | nil =>
          rw [utf8Bytes_ofList, Utf8.encode_cons, List.append_eq_nil_iff] at hbytes
          exact absurd hbytes.1 (Utf8.encodeChar_ne_nil c)
      | cons b bytes =>
          rw [← head_utf8Bytes rfl hbytes]
          dsimp only
          by_cases hQm : (utf8Bytes "Qm").isPrefixOf (b :: bytes) = true ∧ (b :: bytes).length = 46
          · rw [if_pos hQm]
            have hb : b = 81 := by
              have hword : utf8Bytes "Qm" = [81, 109] := by decide
              have hfirst := hQm.1
              rw [hword, List.isPrefixOf_cons_cons, Bool.and_eq_true, beq_iff_eq] at hfirst
              exact hfirst.1.symm
            exact iff_of_true ⟨_, rfl⟩ (by rw [hb]; decide)
          · rw [if_neg hQm]
            by_cases hhigh : 0x80 ≤ b
            · rw [if_pos hhigh]
              have hle : 128 ≤ b.toNat := UInt8.le_iff_toNat_le.mp hhigh
              exact iff_of_false (by simp) (by omega)
            · rw [if_neg hhigh]
              have hlt : b.toNat < 128 := by
                rw [UInt8.not_le] at hhigh
                exact UInt8.lt_iff_toNat_lt.mp hhigh
              exact iff_of_true ⟨_, rfl⟩ hlt

end CidText

/-- **Content identifiers.** Exactly the texts that are empty or begin with an ASCII character are
read without a panic; and what any of the five forms was written from is read back, as is a
version-0 identifier. -/
theorem parseCid_exact_iff (cid : String) :
    ((∃ parsed, parseCid cid = .ok parsed) ↔ ∀ c ∈ cid.toList.head?, Utf8.IsAscii c) ∧
      (∀ (form : CidText.Multibase) (codec code : UInt64) (digest : List UInt8),
        codec.toNat < 2 ^ 35 → code.toNat < 2 ^ 35 → digest.length < 2 ^ 35 →
          parseCid (CidText.multibaseText form (CidText.cidBytes codec code digest)) =
            .ok (some ⟨1, codec, code, digest⟩)) ∧
      ∀ digest : FixedBytes 32,
        parseCid (CidText.asText (CidText.base58 (CidText.multihashV0 digest))) =
          .ok (some ⟨0, 0x70, multihashSha2256, digest.val⟩) :=
  ⟨CidText.parseCid_total cid, fun form _ _ _ => CidText.parseCid_multibaseText form,
    CidText.parseCid_base58⟩

/-- A text that begins with a character of two bytes. -/
theorem parseCid_not_total : ¬ ∃ parsed, parseCid "éclair" = .ok parsed := by
  have hpanic : parseCid "éclair" = .error .charBoundary := by decide
  rw [hpanic]
  simp

end Label309
