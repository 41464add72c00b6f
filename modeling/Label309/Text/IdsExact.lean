import Label309.Text.Ids
import Label309.Text.Spellings

/-!
# Which identifiers are read back

The symbols are the bits of the bytes in groups of five, whatever stays in the buffers. A UUID is
told by the number of its digits and hyphens, and the separator is looked for from the left.
-/
namespace Label309
open Regroup Lowercase

/-! ## Symbols -/

/-- A character stands for a symbol: it is the symbol in either case, or an alias of it. -/
def StandsFor (c symbol : Char) : Prop :=
  c.toLower = symbol ∨ symbol = '1' ∧ (c = 'i' ∨ c = 'I' ∨ c = 'l' ∨ c = 'L') ∨
    symbol = '0' ∧ (c = 'o' ∨ c = 'O')

instance (c symbol : Char) : Decidable (StandsFor c symbol) := by
  unfold StandsFor
  infer_instance

theorem decodeSymbol_of_foreign {c : Char} (h : 128 ≤ c.toNat) : decodeSymbol c = none := by
  have hle (d e : Char) (he : e.toNat < 128) : ¬ (d ≤ c ∧ c ≤ e) := by
    rintro ⟨-, hce⟩
    have hval : c.toNat ≤ e.toNat := hce
    omega
  have hne (d : Char) (hd : d.toNat < 128) : c ≠ d := by
    rintro rfl
    omega
  rw [decodeSymbol, if_neg (hle _ _ (by decide)), if_neg (hle _ _ (by decide)),
    if_neg (hle _ _ (by decide)), if_neg, if_neg, if_neg, if_neg, if_neg (hle _ _ (by decide)),
    if_neg (hle _ _ (by decide)), if_neg (hle _ _ (by decide)), if_neg (hle _ _ (by decide)),
    if_neg, if_neg]
  · simp [hne 'o' (by decide), hne 'O' (by decide)]
  · simp [hne 'i' (by decide), hne 'I' (by decide), hne 'l' (by decide), hne 'L' (by decide)]
  · simp [hne 'M' (by decide), hne 'N' (by decide)]
  · simp [hne 'm' (by decide), hne 'n' (by decide)]
  · simp [hne 'J' (by decide), hne 'K' (by decide)]
  · simp [hne 'j' (by decide), hne 'k' (by decide)]

theorem symbol_facts : ∀ v : Fin 32, (symbolChar (UInt8.ofNat v.val)).toNat < 128 ∧
    isStrictCrockfordLower (symbolChar (UInt8.ofNat v.val)) = true := by
  decide

theorem symbol_lower : ∀ v : Fin 32, (symbolChar (UInt8.ofNat v.val)).toLower =
    symbolChar (UInt8.ofNat v.val) := by
  decide

theorem decodeSymbol_toLower : ∀ n : Fin 128,
    decodeSymbol (Char.ofNat n.val).toLower = decodeSymbol (Char.ofNat n.val) := by
  decide

/-- What is read is a symbol that the character stands for. -/
theorem decodeSymbol_facts {c : Char} {v : UInt8} (h : decodeSymbol c = some v) :
    v.toNat < 32 ∧ StandsFor c (symbolChar v) := by
  have hall : ∀ n : Fin 128, ((decodeSymbol (Char.ofNat n.val)).all fun v =>
      v.toNat < 32 && decide (StandsFor (Char.ofNat n.val) (symbolChar v))) = true := by
    decide
  by_cases hascii : c.toNat < 128
  · have hfacts := hall ⟨c.toNat, hascii⟩
    simpa [Char.ofNat_toNat, h] using hfacts
  · rw [decodeSymbol_of_foreign (by omega)] at h
    cases h

theorem decodeSymbol_symbolChar {v : UInt8} (hv : v.toNat < 32) :
    decodeSymbol (symbolChar v) = some v := by
  have hall : ∀ v : Fin 32, decodeSymbol (symbolChar (UInt8.ofNat v.val)) =
      some (UInt8.ofNat v.val) := by
    decide
  simpa using hall ⟨v.toNat, hv⟩

/-- What stands for a symbol is ASCII. -/
theorem toNat_of_standsFor {c : Char} {v : UInt8} (hv : v.toNat < 32)
    (h : StandsFor c (symbolChar v)) : c.toNat < 128 := by
  rcases h with h | ⟨-, rfl | rfl | rfl | rfl⟩ | ⟨-, rfl | rfl⟩
  · by_contra hforeign
    have hupper : c.isUpper = false := by
      by_contra hup
      exact hforeign (toNat_lt_of_isAlpha (by rw [Char.isAlpha, eq_true_of_ne_false hup]; rfl))
    have hsymbol := (symbol_facts ⟨v.toNat, hv⟩).1
    rw [UInt8.ofNat_toNat, ← h, Char.toLower_eq_of_not_isUpper (by simp [hupper])] at hsymbol
    exact hforeign hsymbol
  all_goals decide

theorem decodeSymbol_lt {c : Char} {v : UInt8} (h : decodeSymbol c = some v) : v.toNat < 32 :=
  (decodeSymbol_facts h).1

/-- **The symbols that are read.** -/
theorem decodeSymbol_eq_some_iff {c : Char} {v : UInt8} (hv : v.toNat < 32) :
    decodeSymbol c = some v ↔ StandsFor c (symbolChar v) := by
  constructor
  · exact fun h => (decodeSymbol_facts h).2
  · intro h
    have hself := decodeSymbol_symbolChar hv
    have hlower := decodeSymbol_toLower ⟨c.toNat, toNat_of_standsFor hv h⟩
    rw [Char.ofNat_toNat] at hlower
    rcases h with h | ⟨hone, h⟩ | ⟨hzero, h⟩
    · rw [← hlower, h, hself]
    · -- An alias is read as the digit.
      rw [← hself, hone]
      rcases h with rfl | rfl | rfl | rfl <;> rfl
    · rw [← hself, hzero]
      rcases h with rfl | rfl <;> rfl

/-! ## Groups of five -/

/-- What is above the pending bits does not count. -/
theorem emitWords_congr {x y : UInt32} {pos : ℕ} (hpos : pos < 32)
    (h : bits pos x.toNat = bits pos y.toNat) :
    emitWords x pos = emitWords y pos ∧ bits (pos % 5) x.toNat = bits (pos % 5) y.toNat := by
  rw [← bitsOf_emitWords x hpos, ← bitsOf_emitWords y hpos] at h
  have hmod : pos % 5 < 5 := Nat.mod_lt _ (by decide)
  exact groups_inj (emitWords_lt x pos) (emitWords_lt y pos) (by rwa [length_bits])
    (by rwa [length_bits]) h

theorem symbolValuesFrom_eq {buf carry : UInt32} {pos : ℕ} (hpos : pos < 5)
    (h : bits pos buf.toNat = bits pos carry.toNat) (bytes : List UInt8) :
    symbolValuesFrom buf pos bytes = bytesToWordsFrom carry pos bytes := by
  induction bytes generalizing buf carry pos with
  | nil =>
      rw [symbolValuesFrom, bytesToWordsFrom]
      have hlt (x : UInt32) :
          ((x <<< UInt32.ofNat (5 - pos)) &&& 0x1f).toUInt8.toNat < 2 ^ 5 := by
        rw [toNat_mask (w := 5) rfl (by decide)]
        exact Nat.mod_lt _ (by decide)
      have hlast := eq_of_bits (hlt buf) (hlt carry) (by
        rw [bits_lastWord buf hpos, bits_lastWord carry hpos, h])
      rw [UInt8.toNat_inj.mp hlast]
  | cons b bytes ih =>
      have hpush (x : UInt32) := @bits_push32 x b pos 8 b.toNat_lt (by omega) (by omega)
      have hnext : bits (pos + 8) ((buf <<< 8) ||| b.toUInt32).toNat =
          bits (pos + 8) ((carry <<< 8) ||| b.toUInt32).toNat := by
        have hboth := (hpush buf).trans (by rw [h, ← hpush carry])
        exact hboth
      obtain ⟨hwords, hrest⟩ := emitWords_congr (by omega) hnext
      rw [symbolValuesFrom, bytesToWordsFrom, hwords]
      congr 1
      refine ih (Nat.mod_lt _ (by decide)) ?_
      rw [hrest, toNat_keep _ (by omega), bits_mod]

/-- **The symbols of bytes are their words.** -/
theorem encodeBytesVariableLength_eq (bytes : List UInt8) :
    encodeBytesVariableLength bytes = String.ofList ((bytesToWords bytes).map symbolChar) := by
  rw [encodeBytesVariableLength, symbolValuesFrom_eq (by decide) rfl, bytesToWords]

/-- The bytes of values, and what is left over. -/
theorem decodeBytesFrom_spec {buf : UInt32} {pos : ℕ} (hpos : pos < 8) {chs : List Char}
    {values : List UInt8} (h : List.Forall₂ (fun c v => decodeSymbol c = some v) chs values)
    (index : ℕ) : ∃ out left, bits pos buf.toNat ++ bitsOf 5 values = bitsOf 8 out ++ left ∧
      left.length < 8 ∧ decodeBytesFrom buf pos index chs =
        if left.length ≠ 2 ∨ left ≠ List.replicate left.length false then .error .nonZeroPadBits
        else .ok out := by
  induction h generalizing buf pos index with
  | nil =>
      refine ⟨[], bits pos buf.toNat, by simp, by rwa [length_bits], ?_⟩
      rw [decodeBytesFrom, length_bits]
      by_cases htwo : pos = 2
      · subst htwo
        have hzero : buf &&& 0x3 ≠ 0 ↔ bits 2 buf.toNat ≠ List.replicate 2 false := by
          rw [ne_eq, ne_eq, bits_eq_zeros_iff, ← UInt32.toNat_inj, UInt32.toNat_and,
            UInt32.toNat_zero]
          exact not_congr (by rw [show (3 : UInt32).toNat = 2 ^ 2 - 1 from rfl,
            Nat.and_two_pow_sub_one_eq_mod])
        simp only [ne_eq, not_true_eq_false, false_or, hzero]
      · simp [htwo]
  | @cons c v chs values hc _ ih =>
      have hpush := @bits_push32 buf v pos 5 (decodeSymbol_lt hc) (by omega) (by omega)
      rw [decodeBytesFrom, hc, Option.elim_some, ExceptBind.ok_bind]
      by_cases hfull : 8 ≤ pos + 5
      · obtain ⟨out, left, hbits, hlen, hrun⟩ :=
          @ih ((buf <<< 5) ||| v.toUInt32) (pos + 5 - 8) (by omega) (index + 1)
        refine ⟨((((buf <<< 5) ||| v.toUInt32) >>> UInt32.ofNat (pos + 5 - 8)) &&& 0xff).toUInt8 ::
          out, left, ?_, hlen, ?_⟩
        · have hsplit := bits_add 8 (pos + 5 - 8) ((buf <<< 5) ||| v.toUInt32).toNat
          rw [show 8 + (pos + 5 - 8) = pos + 5 by omega] at hsplit
          rw [bitsOf_cons, ← List.append_assoc, ← hpush, bitsOf_cons, List.append_assoc, ← hbits,
            ← List.append_assoc, toNat_mask (w := 8) rfl (by decide), bits_mod,
            toNat_shift (by omega), ← hsplit]
          rfl
        · dsimp only
          rw [if_pos hfull, hrun]
          by_cases hbad : left.length ≠ 2 ∨ left ≠ List.replicate left.length false
          · rw [if_pos hbad, if_pos hbad]
            rfl
          · rw [if_neg hbad, if_neg hbad]
            rfl
      · obtain ⟨out, left, hbits, hlen, hrun⟩ :=
          @ih ((buf <<< 5) ||| v.toUInt32) (pos + 5) (by omega) (index + 1)
        refine ⟨out, left, ?_, hlen, ?_⟩
        · rw [bitsOf_cons, ← List.append_assoc, ← hpush, ← hbits]
          rfl
        · dsimp only
          rw [if_neg hfull, hrun]

theorem forall₂_of_decodeBytesFrom {buf : UInt32} {pos index : ℕ} {chs : List Char}
    {out : List UInt8} (h : decodeBytesFrom buf pos index chs = .ok out) :
    ∃ values, List.Forall₂ (fun c v => decodeSymbol c = some v) chs values := by
  induction chs generalizing buf pos index out with
  | nil => exact ⟨[], .nil⟩
  | cons c chs ih =>
      rw [decodeBytesFrom, ExceptBind.bind_eq_ok] at h
      obtain ⟨v, hv, h⟩ := h
      have hc : decodeSymbol c = some v := by
        cases hsymbol : decodeSymbol c with
        | none =>
            rw [hsymbol] at hv
            cases hv
        | some v' =>
            rw [hsymbol, Option.elim_some, Except.ok.injEq] at hv
            rw [hv]
      dsimp only at h
      by_cases hfull : 8 ≤ pos + 5
      · rw [if_pos hfull, ExceptBind.bind_eq_ok] at h
        obtain ⟨rest, hrest, -⟩ := h
        obtain ⟨values, hvalues⟩ := ih hrest
        exact ⟨v :: values, .cons hc hvalues⟩
      · rw [if_neg hfull] at h
        obtain ⟨values, hvalues⟩ := ih h
        exact ⟨v :: values, .cons hc hvalues⟩

/-- The bits of the words of a UUID. -/
theorem bitsOf_bytesToWords_uuid {bytes : List UInt8} (h : bytes.length = 16) :
    bitsOf 5 (bytesToWords bytes) = bitsOf 8 bytes ++ [false, false] ∧
      (bytesToWords bytes).length = 26 := by
  obtain ⟨k, hk, hbits⟩ := @bitsOf_bytesToWordsFrom 0 0 (by decide) bytes
  have hlen := congrArg List.length hbits
  simp only [List.length_append, length_bits, length_bitsOf, List.length_replicate, h] at hlen
  have htwo : k = 2 := by omega
  rw [htwo] at hbits
  rw [bytesToWords]
  exact ⟨hbits, by omega⟩

/-- **What is decoded.** -/
theorem decodeBytes_eq_ok_iff {s : String} {bytes : List UInt8} :
    decodeBytes s = .ok bytes ↔ bytes.length = 16 ∧
      List.Forall₂ StandsFor s.toList (encodeBytesVariableLength bytes).toList := by
  have hnone (n : ℕ) : bits 0 n = [] := rfl
  rw [encodeBytesVariableLength_eq, String.toList_ofList, List.forall₂_map_right_iff]
  constructor
  · intro h
    rw [decodeBytes] at h
    by_cases hlen : s.toList.length ≠ crockfordEncodedLengthForUuid
    · rw [if_pos hlen] at h
      cases h
    rw [if_neg hlen] at h
    obtain ⟨values, hvalues⟩ := forall₂_of_decodeBytesFrom h
    obtain ⟨out, left, hbits, -, hrun⟩ := @decodeBytesFrom_spec 0 0 (by decide) _ _ hvalues 0
    rw [h] at hrun
    by_cases hbad : left.length ≠ 2 ∨ left ≠ List.replicate left.length false
    · rw [if_pos hbad] at hrun
      cases hrun
    rw [if_neg hbad, Except.ok.injEq] at hrun
    rw [not_or, not_not, not_not] at hbad
    rw [hnone, List.nil_append, hbad.2, hbad.1, ← hrun] at hbits
    have hcount := congrArg List.length hbits
    have hsame := hvalues.length_eq
    rw [not_not.mp hlen] at hsame
    simp only [List.length_append, length_bitsOf, List.length_replicate, ← hsame,
      crockfordEncodedLengthForUuid] at hcount
    have hsixteen : bytes.length = 16 := by omega
    have hlt : ∀ v ∈ values, v.toNat < 32 := by
      intro v hv
      obtain ⟨c, -, hc⟩ := ExceptBind.exists_left_of_forall₂ hvalues hv
      exact decodeSymbol_lt hc
    have heq : values = bytesToWords bytes := by
      refine (@groups_inj 5 _ _ [] [] hlt (bytesToWords_lt bytes) (by decide) (by decide) ?_).1
      rw [hbits, (bitsOf_bytesToWords_uuid hsixteen).1]
      rfl
    rw [← heq]
    exact ⟨hsixteen, hvalues.imp fun c v hc =>
      (decodeSymbol_eq_some_iff (decodeSymbol_lt hc)).mp hc⟩
  · rintro ⟨hsixteen, hstands⟩
    obtain ⟨henc, hcount⟩ := bitsOf_bytesToWords_uuid hsixteen
    have hvalues : List.Forall₂ (fun c v => decodeSymbol c = some v) s.toList
        (bytesToWords bytes) :=
      (((List.forall₂_and_left _ _).mpr ⟨bytesToWords_lt bytes, hstands.flip⟩).imp
        fun v c hc => (decodeSymbol_eq_some_iff hc.1).mpr hc.2).flip
    obtain ⟨out, left, hbits, hleft, hrun⟩ := @decodeBytesFrom_spec 0 0 (by decide) _ _ hvalues 0
    rw [hnone, List.nil_append, henc] at hbits
    obtain ⟨hout, hrest⟩ := groups_inj (byte_lt bytes) (byte_lt out) (by decide) hleft hbits
    rw [decodeBytes, if_neg, hrun, ← hrest, hout, if_neg]
    · decide
    · rw [hvalues.length_eq, hcount]
      decide

/-! ## UUIDs -/

/-- A UUID in the form 8-4-4-4-12. -/
def IsCanonicalUuid (uuid : String) : Prop :=
  ∃ a b c d e : List Char, a.length = 8 ∧ b.length = 4 ∧ c.length = 4 ∧ d.length = 4 ∧
    e.length = 12 ∧ (∀ x ∈ a ++ b ++ c ++ d ++ e, isAsciiHexDigit x = true) ∧
    uuid.toList = a ++ '-' :: b ++ '-' :: c ++ '-' :: d ++ '-' :: e

/-- 32 hex digits and four hyphens in any order. -/
def HasUuidCounts (uuid : String) : Prop :=
  uuid.toList.count '-' = 4 ∧ (uuid.toList.filter (· ≠ '-')).length = 32 ∧
    ∀ x ∈ uuid.toList.filter (· ≠ '-'), isAsciiHexDigit x = true

theorem hyphen_ne_of_isAsciiHexDigit {c : Char} (h : isAsciiHexDigit c = true) : c ≠ '-' := by
  rintro rfl
  cases h

/-- The digits of a canonical UUID. -/
theorem filter_canonical {a b c d e : List Char}
    (h : ∀ x ∈ a ++ b ++ c ++ d ++ e, isAsciiHexDigit x = true) :
    (a ++ '-' :: b ++ '-' :: c ++ '-' :: d ++ '-' :: e).filter (· ≠ '-') = a ++ b ++ c ++ d ++ e := by
  have hkeep (l : List Char) (hl : ∀ x ∈ l, x ∈ a ++ b ++ c ++ d ++ e) :
      l.filter (· ≠ '-') = l := by
    rw [List.filter_eq_self]
    intro x hx
    simp [hyphen_ne_of_isAsciiHexDigit (h x (hl x hx))]
  simp only [List.filter_append, List.filter_cons]
  rw [hkeep a (by simp +contextual), hkeep b (by simp +contextual), hkeep c (by simp +contextual),
    hkeep d (by simp +contextual), hkeep e (by simp +contextual)]
  simp

theorem HasUuidCounts.of_canonical {uuid : String} (h : IsCanonicalUuid uuid) :
    HasUuidCounts uuid := by
  obtain ⟨a, b, c, d, e, ha, hb, hc, hd, he, hall, huuid⟩ := h
  have hdigits := filter_canonical hall
  rw [HasUuidCounts, huuid, hdigits]
  refine ⟨?_, by simp only [List.length_append]; omega, hall⟩
  have hzero (l : List Char) (hl : ∀ x ∈ l, x ∈ a ++ b ++ c ++ d ++ e) : l.count '-' = 0 := by
    rw [List.count_eq_zero]
    intro hmem
    exact hyphen_ne_of_isAsciiHexDigit (hall _ (hl _ hmem)) rfl
  simp only [List.count_append, List.count_cons_self]
  rw [hzero a (by simp +contextual), hzero b (by simp +contextual), hzero c (by simp +contextual),
    hzero d (by simp +contextual), hzero e (by simp +contextual)]

section Uuid
variable {unicode : CasePair} {digits : List Char}

theorem toLowercase_of_hex (unicode : CasePair) (h : ∀ c ∈ digits, isAsciiHexDigit c = true) :
    toLowercase unicode.toCaseTable digits = digits.map Char.toLower :=
  toLowercase_ascii fun c hc => toNat_lt_of_isAsciiHexDigit (h c hc)

/-- Only hex digits have a lowercase of hex digits. -/
theorem isAsciiHexDigit_of_toLowercase
    (h : ∀ c ∈ toLowercase unicode.toCaseTable digits, isAsciiHexDigit c = true) :
    ∀ c ∈ digits, isAsciiHexDigit c = true := by
  have hplain : ∀ c ∈ digits, IsPlain c :=
    isPlain_of_lowerAfter fun c hc => toNat_lt_of_isAsciiHexDigit (h c hc)
  rw [toLowercase_plain hplain, List.forall_mem_map] at h
  intro c hc
  have hlower := h c hc
  rw [plainLower] at hlower
  by_cases hk : c = kelvin
  · rw [if_pos hk] at hlower
    cases hlower
  · rw [if_neg hk] at hlower
    have hascii : c.toNat < 128 := (hplain c hc).resolve_right hk
    exact (hexDigit_facts hlower hascii).1

theorem uuidStringToBytes_eq_ok_iff {uuid : String} {bytes : List UInt8} :
    uuidStringToBytes unicode uuid = .ok bytes ↔ HasUuidCounts uuid ∧
      (hexEncode bytes).toList = (uuid.toList.filter (· ≠ '-')).map Char.toLower := by
  rw [uuidStringToBytes, HasUuidCounts]
  generalize uuid.toList.filter (· ≠ '-') = digits
  by_cases hhex : ∀ x ∈ digits, isAsciiHexDigit x = true
  · have hlower := toLowercase_of_hex unicode hhex
    have hlowerHex : ∀ c ∈ digits.map Char.toLower, isAsciiHexDigit c = true ∧ c ≠ '-' := by
      rw [List.forall_mem_map]
      intro c hc
      have hdigit := isAsciiHexDigit_toLower (hhex c hc)
      exact ⟨hdigit, hyphen_ne_of_isAsciiHexDigit hdigit⟩
    rw [hlower, List.length_map]
    by_cases hguard : digits.length = 32 ∧ uuid.toList.count '-' = 4
    · obtain ⟨hlen, hcount⟩ := hguard
      obtain ⟨decoded, -, htext⟩ := @exists_hexEncode (digits.map Char.toLower) 16
        (by rw [List.length_map, hlen]) (by
          rw [List.forall_mem_map]
          exact fun c hc => ⟨isAsciiHexDigit_toLower (hhex c hc), Char.isUpper_toLower_eq_false c⟩)
      have hdecode := hexDecode_hexEncode decoded
      rw [← String.ofList_toList (s := hexEncode decoded), htext] at hdecode
      rw [if_neg (by simp only [hlen, hcount]; simpa using hlowerHex), hdecode, ← htext,
        String.toList_inj]
      dsimp only
      rw [Except.ok.injEq]
      constructor
      · intro heq
        rw [heq]
        exact ⟨⟨hcount, hlen, hhex⟩, rfl⟩
      · rintro ⟨-, heq⟩
        exact (hexEncode_injective heq).symm
    · rw [if_pos]
      · simp only [reduceCtorEq, false_iff, not_and]
        exact fun h => absurd ⟨h.2.1, h.1⟩ hguard
      · by_contra hno
        rw [not_or, not_not, not_not] at hno
        exact hguard ⟨hno.1.1, hno.2⟩
  · rw [if_pos]
    · simp only [reduceCtorEq, false_iff, not_and]
      exact fun h => absurd h.2.2 hhex
    · refine .inl ?_
      rintro ⟨-, hall⟩
      exact hhex (isAsciiHexDigit_of_toLowercase fun c hc => (hall c hc).1)

end Uuid

/-! ## Identifiers -/

/-- A canonical UUID in lowercase. -/
theorem bytesToUuidString_of_canonical {uuid : String} {bytes : List UInt8}
    (h : IsCanonicalUuid uuid)
    (hbytes : (hexEncode bytes).toList = (uuid.toList.filter (· ≠ '-')).map Char.toLower) :
    bytes.length = 16 ∧
      bytesToUuidString bytes = .ok (String.ofList (uuid.toList.map Char.toLower)) := by
  obtain ⟨a, b, c, d, e, ha, hb, hc, hd, he, hall, huuid⟩ := h
  rw [huuid, filter_canonical hall] at hbytes
  have hsixteen : bytes.length = 16 := by
    have hlen := congrArg List.length hbytes
    rw [hexEncode, String.toList_ofList] at hlen
    simp [ha, hb, hc, hd, he] at hlen
    omega
  refine ⟨hsixteen, ?_⟩
  rw [bytesToUuidString, if_neg (not_not.mpr hsixteen), hbytes, huuid]
  have htake (l r : List Char) (n : ℕ) (hl : l.length = n) :
      (l.map Char.toLower ++ r).take n = l.map Char.toLower ∧
        (l.map Char.toLower ++ r).drop n = r :=
    ⟨List.take_left' (by rw [List.length_map, hl]), List.drop_left' (by rw [List.length_map, hl])⟩
  have hsplit : (a ++ b ++ c ++ d ++ e).map Char.toLower = a.map Char.toLower ++
      (b.map Char.toLower ++ (c.map Char.toLower ++ (d.map Char.toLower ++ e.map Char.toLower))) := by
    simp only [List.map_append, List.append_assoc]
  have hdrop (n m : ℕ) (l : List Char) : l.drop (n + m) = (l.drop n).drop m := (List.drop_drop).symm
  rw [hsplit]
  dsimp only
  rw [(htake a _ 8 ha).1, hdrop 16 4, hdrop 12 4, hdrop 8 4, (htake a _ 8 ha).2,
    (htake b _ 4 hb).2, (htake c _ 4 hc).2, (htake d _ 4 hd).2, (htake b _ 4 hb).1,
    (htake c _ 4 hc).1, (htake d _ 4 hd).1]
  simp only [List.map_append, List.map_cons]
  rfl

/-- The identifier of a prefix and a UUID is recognised and read back. -/
def RoundTrips (unicode : CasePair) (pre uuid : String) : Prop :=
  ∃ id, encodePrefixedId unicode pre uuid = .ok id ∧ isPrefixedId pre id = true ∧
    decodePrefixedId pre id = .ok (String.ofList (uuid.toList.map Char.toLower))

theorem encodePrefixedId_eq {unicode : CasePair} {pre uuid : String} {bytes : List UInt8}
    (h : uuidStringToBytes unicode uuid = .ok bytes) : encodePrefixedId unicode pre uuid =
      .ok (pre ++ "_" ++ encodeBytesVariableLength bytes) := by
  rw [encodePrefixedId, h, ExceptBind.ok_bind]

theorem toList_id (pre : String) (bytes : List UInt8) :
    (pre ++ "_" ++ encodeBytesVariableLength bytes).toList =
      pre.toList ++ '_' :: (bytesToWords bytes).map symbolChar := by
  rw [encodeBytesVariableLength_eq, String.toList_append, String.toList_append,
    String.toList_ofList, String.toList_ofList, List.append_assoc]
  rfl

/-- **The guard knows every identifier.** -/
theorem isPrefixedId_id {bytes : List UInt8} (h : bytes.length = 16) (pre : String) :
    isPrefixedId pre (pre ++ "_" ++ encodeBytesVariableLength bytes) = true := by
  have hbody : (pre ++ "_" ++ encodeBytesVariableLength bytes).toList.dropPrefix?
      (pre ++ "_").toList = some ((bytesToWords bytes).map symbolChar) := by
    rw [String.toList_append, encodeBytesVariableLength_eq, String.toList_ofList]
    exact List.dropPrefix?_append_of_beq _ (beq_self_eq_true _)
  rw [isPrefixedId, hbody]
  simp only [List.length_map, (bitsOf_bytesToWords_uuid h).2, decide_true, Bool.true_and,
    List.all_map, List.all_eq_true, Function.comp_apply]
  intro v hv
  have hfacts := (symbol_facts ⟨v.toNat, bytesToWords_lt bytes v hv⟩).2
  rwa [UInt8.ofNat_toNat] at hfacts

/-- A separator in the prefix is taken for the separator. -/
theorem decodePrefixedId_of_mem {pre : String} (h : '_' ∈ pre.toList) (id : String)
    (text : String) : decodePrefixedId pre id ≠ .ok text := by
  intro hrun
  rw [decodePrefixedId] at hrun
  cases hrest : id.toList.dropWhile (· ≠ '_') with
  | nil =>
      rw [hrest] at hrun
      cases hrun
  | cons c body =>
      rw [hrest] at hrun
      dsimp only at hrun
      rw [if_pos] at hrun
      · cases hrun
      · rintro rfl
        rw [String.toList_ofList] at h
        simpa using List.mem_takeWhile_imp h

theorem decodePrefixedId_id {pre : String} {bytes : List UInt8} (h : '_' ∉ pre.toList)
    (hsixteen : bytes.length = 16) : decodePrefixedId pre
      (pre ++ "_" ++ encodeBytesVariableLength bytes) = bytesToUuidString bytes := by
  have hfront : ∀ c ∈ pre.toList, (decide (c ≠ '_')) = true := by
    intro c hc
    rw [decide_eq_true_eq]
    rintro rfl
    exact h hc
  have hbody : decodeBytes (String.ofList ((bytesToWords bytes).map symbolChar)) = .ok bytes := by
    refine decodeBytes_eq_ok_iff.mpr ⟨hsixteen, ?_⟩
    rw [encodeBytesVariableLength_eq, List.forall₂_same]
    intro c hc
    rw [String.toList_ofList, List.mem_map] at hc
    obtain ⟨v, hv, rfl⟩ := hc
    have hfacts := symbol_lower ⟨v.toNat, bytesToWords_lt bytes v hv⟩
    rw [UInt8.ofNat_toNat] at hfacts
    exact .inl hfacts
  rw [decodePrefixedId, toList_id, List.dropWhile_append_of_pos hfront,
    List.takeWhile_append_of_pos hfront, List.dropWhile_cons_of_neg (by simp),
    List.takeWhile_cons_of_neg (by simp), List.append_nil, String.ofList_toList]
  dsimp only
  rw [if_neg (not_not.mpr rfl), hbody, ExceptBind.ok_bind]

section Exact
variable {unicode : CasePair} {pre uuid : String}

theorem encodePrefixedId_error_iff :
    (∃ e, encodePrefixedId unicode pre uuid = .error e) ↔ ¬ HasUuidCounts uuid := by
  rw [← ExceptBind.not_ok_iff_error, not_iff_not]
  constructor
  · rintro ⟨id, hid⟩
    rw [encodePrefixedId, ExceptBind.bind_eq_ok] at hid
    obtain ⟨bytes, hbytes, -⟩ := hid
    exact (uuidStringToBytes_eq_ok_iff.mp hbytes).1
  · intro h
    obtain ⟨bytes, -, htext⟩ := @exists_hexEncode
      ((uuid.toList.filter (· ≠ '-')).map Char.toLower) 16 (by rw [List.length_map, h.2.1]) (by
        rw [List.forall_mem_map]
        exact fun c hc =>
          ⟨isAsciiHexDigit_toLower (h.2.2 c hc), Char.isUpper_toLower_eq_false c⟩)
    exact ⟨_, encodePrefixedId_eq (uuidStringToBytes_eq_ok_iff.mpr ⟨h, htext⟩)⟩

theorem roundTrips_iff (h : IsCanonicalUuid uuid) :
    RoundTrips unicode pre uuid ↔ '_' ∉ pre.toList := by
  constructor
  · rintro ⟨id, -, -, hread⟩ hmem
    exact decodePrefixedId_of_mem hmem id _ hread
  · intro hpre
    have hcounts := HasUuidCounts.of_canonical h
    obtain ⟨id, hid⟩ : ∃ id, encodePrefixedId unicode pre uuid = .ok id := by
      by_contra hno
      exact encodePrefixedId_error_iff.mp (ExceptBind.not_ok_iff_error.mp hno) hcounts
    rw [encodePrefixedId, ExceptBind.bind_eq_ok] at hid
    obtain ⟨bytes, hbytes, -⟩ := hid
    have htext := (uuidStringToBytes_eq_ok_iff.mp hbytes).2
    obtain ⟨hsixteen, hback⟩ := bytesToUuidString_of_canonical h htext
    exact ⟨_, encodePrefixedId_eq hbytes, isPrefixedId_id hsixteen pre,
      (decodePrefixedId_id hpre hsixteen).trans hback⟩

end Exact

/-- Canonical UUIDs, and nothing else, get an identifier that is read back. -/
def IdsExact (unicode : CasePair) (pre uuid : String) : Prop :=
  (IsCanonicalUuid uuid → RoundTrips unicode pre uuid) ∧
    (¬ IsCanonicalUuid uuid → ∃ e, encodePrefixedId unicode pre uuid = .error e)

/-- **Which identifiers are read back, and which UUIDs get one.** -/
theorem prefixed_ids_exact_iff (unicode : CasePair) (pre uuid encoded : String) :
    (IdsExact unicode pre uuid ↔ ¬ (IsCanonicalUuid uuid ∧ '_' ∈ pre.toList) ∧
      ¬ (HasUuidCounts uuid ∧ ¬ IsCanonicalUuid uuid)) ∧
    ∀ bytes, decodeBytes encoded = .ok bytes ↔ ∃ text, encodeBytes bytes = .ok text ∧
      List.Forall₂ StandsFor encoded.toList text.toList := by
  constructor
  · rw [IdsExact, encodePrefixedId_error_iff]
    by_cases h : IsCanonicalUuid uuid
    · simp [h, roundTrips_iff h]
    · simp [h]
  · intro bytes
    rw [decodeBytes_eq_ok_iff]
    by_cases h : bytes.length = 16
    · simp [encodeBytes, h]
    · simp [encodeBytes, h]

/-- An underscore in the prefix, and a hyphen at a wrong place. -/
theorem prefixed_ids_not_exact :
    ¬ IdsExact asciiCase "my_app" "01977c4a-0066-7777-aaaa-bbbbbbbbbbbb" ∧
      ¬ IdsExact asciiCase "poe" "0197-7c4a-0066-7777-aaaabbbbbbbbbbbb" := by
  constructor
  · intro h
    have hcanonical : IsCanonicalUuid "01977c4a-0066-7777-aaaa-bbbbbbbbbbbb" :=
      ⟨"01977c4a".toList, "0066".toList, "7777".toList, "aaaa".toList, "bbbbbbbbbbbb".toList, rfl,
        rfl, rfl, rfl, rfl, List.all_eq_true.mp (by decide), rfl⟩
    exact (roundTrips_iff hcanonical).mp (h.1 hcanonical) (by decide)
  · intro h
    refine encodePrefixedId_error_iff.mp (h.2 ?_) ?_
    · rintro ⟨a, b, c, d, e, ha, -, -, -, -, hall, huuid⟩
      have hfour := congrArg (fun l : List Char => l[4]?) huuid
      have hmem : '-' ∈ a := by
        refine List.mem_of_getElem? (i := 4) ?_
        simp only [List.append_assoc, List.getElem?_append_left (show 4 < a.length by omega)]
          at hfour
        exact hfour.symm
      have hdigit := hall '-' (by simp [hmem])
      cases hdigit
    · exact ⟨by decide, by decide, List.all_eq_true.mp (by decide)⟩

end Label309
