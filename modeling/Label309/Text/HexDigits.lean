import Label309.Bytes
import Label309.Lib.Lowercase

/-!
# Hex digits in either case

The hex codec writes lowercase digits and reads both cases, so a text of digits is read as its
lowercase, and is the hex of what is read from it.
-/
namespace Label309
open Lowercase

def isAsciiHexDigit (c : Char) : Bool :=
  c.isDigit || ('a' ≤ c && c ≤ 'f') || ('A' ≤ c && c ≤ 'F')

/-! ## Either case -/

theorem hexPairs_congr {l l' : List UInt8} (h : l.map hexValue = l'.map hexValue) (index : ℕ) :
    hexPairs index l = hexPairs index l' := by
  have hlen : l.length = l'.length := by simpa using congrArg List.length h
  induction index, l using hexPairs.induct generalizing l' with
  | case1 index hi lo rest ih =>
      cases l' with
      | nil => cases h
      | cons hi' tail =>
          cases tail with
          | nil => cases hlen
          | cons lo' rest' =>
              simp only [List.map_cons, List.cons.injEq] at h
              rw [hexPairs, hexPairs, h.1, h.2.1, ih h.2.2 (by simpa using hlen)]
  | case2 l index hshort =>
      have hnone (l : List UInt8) (hl : l.length < 2) : hexPairs index l = .ok [] := by
        cases l with
        | nil => rfl
        | cons b rest =>
            cases rest with
            | nil => rfl
            | cons b' rest => simp at hl
      have hlt : l.length < 2 := by
        cases l with
        | nil => simp
        | cons b rest =>
            cases rest with
            | nil => simp
            | cons b' rest => exact (hshort b b' rest rfl).elim
      rw [hnone l hlt, hnone l' (by omega)]

theorem toNat_lt_of_toLower {c : Char} (h : c.toLower.toNat < 128) : c.toNat < 128 := by
  by_cases hupper : c.isUpper = true
  · exact toNat_lt_of_isAlpha (by rw [Char.isAlpha, hupper, Bool.true_or])
  · rwa [Char.toLower_eq_of_not_isUpper hupper] at h

/-- A character whose lowercase is a hex digit. -/
theorem hexDigit_facts {c : Char} (h : isAsciiHexDigit c.toLower = true)
    (hascii : c.toNat < 128) : isAsciiHexDigit c = true ∧ c ≠ 'x' ∧ c ≠ 'X' ∧
      hexValue (Utf8.byteOf c) = hexValue (Utf8.byteOf c.toLower) := by
  have hall : ∀ n : Fin 128, isAsciiHexDigit (Char.ofNat n.val).toLower = true →
      isAsciiHexDigit (Char.ofNat n.val) = true ∧ Char.ofNat n.val ≠ 'x' ∧ Char.ofNat n.val ≠ 'X' ∧
        hexValue (Utf8.byteOf (Char.ofNat n.val)) =
          hexValue (Utf8.byteOf (Char.ofNat n.val).toLower) := by decide
  have hc := hall ⟨c.toNat, hascii⟩
  rw [Char.ofNat_toNat] at hc
  exact hc h

theorem hexEncode_facts (bytes : List UInt8) : ∀ c ∈ (hexEncode bytes).toList,
    isAsciiHexDigit c = true ∧ c.toNat < 128 := by
  have hall : ∀ n : Fin 16, isAsciiHexDigit (hexDigit n.val) = true ∧ (hexDigit n.val).toNat < 128 :=
    by decide
  intro c hc
  rw [hexEncode, String.toList_ofList, List.mem_flatMap] at hc
  obtain ⟨b, -, hdigit⟩ := hc
  have hb := b.toNat_lt
  rcases List.mem_pair.mp hdigit with rfl | rfl
  · exact hall ⟨b.toNat / 16, by omega⟩
  · exact hall ⟨b.toNat % 16, by omega⟩

/-- The lowercase of hex digits is read the same. -/
theorem hexDecode_toLower {digits : List Char}
    (h : ∀ c ∈ digits, isAsciiHexDigit c.toLower = true ∧ c.toNat < 128) :
    hexDecode (String.ofList digits) = hexDecode (String.ofList (digits.map Char.toLower)) := by
  have hlower : ∀ c ∈ digits.map Char.toLower, c.toNat < 128 := by
    rw [List.forall_mem_map]
    intro c hc
    by_cases hupper : c.isUpper = true
    · exact toNat_lt_of_isAlpha (by
        rw [Char.isAlpha_toLower_eq_isAlpha, Char.isAlpha, hupper, Bool.true_or])
    · rw [Char.toLower_eq_of_not_isUpper hupper]
      exact (h c hc).2
  rw [hexDecode, hexDecode, utf8Bytes_ofList, utf8Bytes_ofList, Utf8.encode_ascii hlower,
    Utf8.encode_ascii fun c hc => (h c hc).2, List.length_map, List.length_map, List.length_map]
  congr 1
  refine hexPairs_congr ?_ 0
  rw [List.map_map, List.map_map, List.map_map]
  exact List.map_congr_left fun c hc => (hexDigit_facts (h c hc).1 (h c hc).2).2.2.2

theorem toNat_lt_of_isAsciiHexDigit {c : Char} (h : isAsciiHexDigit c = true) : c.toNat < 128 := by
  simp only [isAsciiHexDigit, Char.isDigit, Bool.or_eq_true, Bool.and_eq_true, decide_eq_true_eq,
    Char.le_def, UInt32.le_iff_toNat_le] at h
  have hnine : '9'.val.toNat = 57 := rfl
  have hf : 'f'.val.toNat = 102 := rfl
  have hF : 'F'.val.toNat = 70 := rfl
  show c.val.toNat < 128
  rcases h with (h | h) | h
  · have hle : c.val.toNat ≤ 57 := h.2
    omega
  · omega
  · omega

theorem isAsciiHexDigit_toLower {c : Char} (h : isAsciiHexDigit c = true) :
    isAsciiHexDigit c.toLower = true := by
  have hall : ∀ n : Fin 128, isAsciiHexDigit (Char.ofNat n.val) = true →
      isAsciiHexDigit (Char.ofNat n.val).toLower = true := by decide
  have hc := hall ⟨c.toNat, toNat_lt_of_isAsciiHexDigit h⟩
  rw [Char.ofNat_toNat] at hc
  exact hc h

/-! ## Digits are the hex of their bytes -/

theorem exists_hexDigit {c : Char} (h : isAsciiHexDigit c = true) (hlower : c.isUpper = false) :
    ∃ n < 16, c = hexDigit n := by
  have hall : ∀ n : Fin 128, isAsciiHexDigit (Char.ofNat n.val) = true →
      (Char.ofNat n.val).isUpper = false → ∃ m : Fin 16, Char.ofNat n.val = hexDigit m.val := by
    decide
  have hc := hall ⟨c.toNat, toNat_lt_of_isAsciiHexDigit h⟩
  rw [Char.ofNat_toNat] at hc
  obtain ⟨m, hm⟩ := hc h hlower
  exact ⟨m.val, m.isLt, hm⟩

/-- Pairs of lowercase digits are the hex of some bytes. -/
theorem exists_hexEncode {digits : List Char} {k : ℕ} (hlen : digits.length = 2 * k)
    (h : ∀ c ∈ digits, isAsciiHexDigit c = true ∧ c.isUpper = false) :
    ∃ bytes : List UInt8, bytes.length = k ∧ (hexEncode bytes).toList = digits := by
  induction k generalizing digits with
  | zero =>
      rw [Nat.mul_zero, List.length_eq_zero_iff] at hlen
      exact ⟨[], rfl, by rw [hlen]; rfl⟩
  | succ k ih =>
      match digits, hlen with
      | hi :: lo :: rest, hlen =>
          rw [List.forall_mem_cons, List.forall_mem_cons] at h
          simp only [List.length_cons] at hlen
          obtain ⟨bytes, hcount, htext⟩ := @ih rest (by omega) h.2.2
          obtain ⟨m, hm, hhi⟩ := exists_hexDigit h.1.1 h.1.2
          obtain ⟨n, hn, hlo⟩ := exists_hexDigit h.2.1.1 h.2.1.2
          have hbyte : (UInt8.ofNat (16 * m + n)).toNat = 16 * m + n :=
            UInt8.toNat_ofNat_of_lt' (by simp only [UInt8.size]; omega)
          refine ⟨UInt8.ofNat (16 * m + n) :: bytes, by rw [List.length_cons, hcount], ?_⟩
          rw [hexEncode, String.toList_ofList] at htext ⊢
          rw [List.flatMap_cons, htext, hbyte, show (16 * m + n) / 16 = m by omega,
            show (16 * m + n) % 16 = n by omega, hhi, hlo]
          rfl

end Label309
