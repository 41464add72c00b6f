import Label309.Text.Bech32
import Label309.Bytes

/-!
# The spellings of a text

A prefix and bytes have one text. It is read in lowercase and in uppercase, and in uppercase the
sign of the kelvin is read for a `K`.
-/
namespace Label309
open Regroup Lowercase

/-! ## Characters -/

/-- The value of every character of the alphabet. -/
theorem alphabet_facts : ∀ w : Fin 32, bech32Alphabet.idxOf? (wordChar (UInt8.ofNat w.val)) =
    some w.val ∧ (wordChar (UInt8.ofNat w.val)).toNat < 128 ∧
      (wordChar (UInt8.ofNat w.val)).isUpper = false ∧ wordChar (UInt8.ofNat w.val) ≠ '1' ∧
        isWhitespace (wordChar (UInt8.ofNat w.val)) = false := by
  decide

section WordChar
variable {w : UInt8} (h : w.toNat < 32)
include h

theorem idxOf?_wordChar : bech32Alphabet.idxOf? (wordChar w) = some w.toNat := by
  have hfacts := (alphabet_facts ⟨w.toNat, h⟩).1
  rwa [UInt8.ofNat_toNat] at hfacts

theorem wordChar_lt : (wordChar w).toNat < 128 := by
  have hfacts := (alphabet_facts ⟨w.toNat, h⟩).2.1
  rwa [UInt8.ofNat_toNat] at hfacts

theorem wordChar_isUpper : (wordChar w).isUpper = false := by
  have hfacts := (alphabet_facts ⟨w.toNat, h⟩).2.2.1
  rwa [UInt8.ofNat_toNat] at hfacts

theorem wordChar_ne_one : wordChar w ≠ '1' := by
  have hfacts := (alphabet_facts ⟨w.toNat, h⟩).2.2.2.1
  rwa [UInt8.ofNat_toNat] at hfacts

theorem wordChar_isWhitespace : isWhitespace (wordChar w) = false := by
  have hfacts := (alphabet_facts ⟨w.toNat, h⟩).2.2.2.2
  rwa [UInt8.ofNat_toNat] at hfacts

end WordChar

theorem eq_wordChar_of_idxOf? {c : Char} {n : ℕ} (h : bech32Alphabet.idxOf? c = some n) :
    n < 32 ∧ c = wordChar (UInt8.ofNat n) := by
  rw [List.idxOf?_eq_some_iff] at h
  obtain ⟨hn, hc, -⟩ := h
  have hlt : n < 32 := hn
  refine ⟨hlt, ?_⟩
  rw [wordChar, UInt8.toNat_ofNat_of_lt' (by simp only [UInt8.size]; omega), List.getD_eq_getElem _ _ hn]
  exact hc.symm

/-- The words of the characters of words. -/
theorem dataWords_map {words : List UInt8} (h : ∀ w ∈ words, w.toNat < 32) :
    dataWords (words.map wordChar) = some words := by
  rw [dataWords, ExceptBind.mapM_eq_some_iff]
  induction words with
  | nil => exact .nil
  | cons w words ih =>
      rw [List.forall_mem_cons] at h
      refine .cons ?_ (ih h.2)
      rw [idxOf?_wordChar h.1, Option.map_some, UInt8.ofNat_toNat]

theorem eq_map_of_dataWords {data : List Char} {words : List UInt8}
    (h : dataWords data = some words) :
    data = words.map wordChar ∧ ∀ w ∈ words, w.toNat < 32 := by
  rw [dataWords, ExceptBind.mapM_eq_some_iff] at h
  induction h with
  | nil => simp
  | cons hhead _ ih =>
      obtain ⟨n, hn, hw⟩ := Option.map_eq_some_iff.mp hhead
      obtain ⟨hlt, hc⟩ := eq_wordChar_of_idxOf? hn
      rw [List.map_cons, List.forall_mem_cons, ← ih.1, ← hw, ← hc,
        UInt8.toNat_ofNat_of_lt' (by simp only [UInt8.size]; omega)]
      exact ⟨rfl, hlt, ih.2⟩

/-! ## The separator -/

theorem splitAtLast_eq_none_iff {c : Char} {l : List Char} : splitAtLast c l = none ↔ c ∉ l := by
  induction l with
  | nil => simp [splitAtLast]
  | cons d rest ih =>
      rw [splitAtLast]
      cases hrest : splitAtLast c rest with
      | some p =>
          rw [hrest] at ih
          simpa using fun _ : c ≠ d => not_not.mp (mt ih.mpr (by simp))
      | none =>
          have hno := ih.mp hrest
          by_cases hd : d = c
          · simp [hd]
          · simp [hd, hno, Ne.symm hd]

theorem splitAtLast_append {c : Char} (before : List Char) {after : List Char} (h : c ∉ after) :
    splitAtLast c (before ++ c :: after) = some (before, after) := by
  induction before with
  | nil => rw [List.nil_append, splitAtLast, splitAtLast_eq_none_iff.mpr h, if_pos rfl]
  | cons d before ih => rw [List.cons_append, splitAtLast, ih]

theorem splitAtLast_eq_some {c : Char} {l before after : List Char}
    (h : splitAtLast c l = some (before, after)) : l = before ++ c :: after ∧ c ∉ after := by
  induction l generalizing before with
  | nil => cases h
  | cons d rest ih =>
      rw [splitAtLast] at h
      cases hrest : splitAtLast c rest with
      | some p =>
          rw [hrest, Option.some.injEq, Prod.mk.injEq] at h
          have hsplit := @ih p.1 (by rw [hrest, ← h.2])
          rw [← h.1, List.cons_append, ← hsplit.1]
          exact ⟨rfl, hsplit.2⟩
      | none =>
          rw [hrest] at h
          by_cases hd : d = c
          · rw [if_pos hd, Option.some.injEq, Prod.mk.injEq] at h
            rw [← h.1, ← h.2, hd]
            exact ⟨rfl, splitAtLast_eq_none_iff.mp hrest⟩
          · rw [if_neg hd] at h
            cases h

/-! ## The text of a prefix and bytes -/

theorem isPrefixChar_lt {c : Char} (h : isPrefixChar c = true) : c.toNat < 128 := by
  rw [isPrefixChar, Bool.and_eq_true, decide_eq_true_eq, decide_eq_true_eq] at h
  omega

/-- A prefix that is given back as it is. -/
structure IsHrp (h : List Char) : Prop where
  ne_nil : h ≠ []
  range : ∀ c ∈ h, isPrefixChar c = true
  lower : ∀ c ∈ h, c.isUpper = false

/-- The characters of the text of a prefix and bytes. -/
def encodedChars (h : List Char) (bytes : List UInt8) : List Char :=
  h ++ '1' :: (bytesToWords bytes ++ checksumWords h (bytesToWords bytes)).map wordChar

section Hrp
variable {h : List Char} (hh : IsHrp h)
include hh

theorem IsHrp.ascii : ∀ c ∈ h, c.toNat < 128 := by
  intro c hc
  exact isPrefixChar_lt (hh.range c hc)

theorem IsHrp.isWhitespace {c : Char} (hc : c ∈ h) : isWhitespace c = false := by
  have hrange := hh.range c hc
  rw [isPrefixChar, Bool.and_eq_true, decide_eq_true_eq, decide_eq_true_eq] at hrange
  simp only [Label309.isWhitespace, Bool.or_eq_false_iff, Bool.and_eq_false_iff,
    decide_eq_false_iff_not]
  omega

end Hrp

theorem textWords_lt (h : List Char) (bytes : List UInt8) :
    ∀ w ∈ bytesToWords bytes ++ checksumWords h (bytesToWords bytes), w.toNat < 32 := by
  rw [List.forall_mem_append]
  exact ⟨bytesToWords_lt bytes, checksumWords_lt h _⟩

/-- What holds of the characters of the prefix, of the separator and of the alphabet holds of the
characters of a text. -/
theorem forall_mem_encodedChars {P : Char → Prop} {h : List Char} {bytes : List UInt8}
    (hfront : ∀ c ∈ h, P c) (hone : P '1') (hword : ∀ w : UInt8, w.toNat < 32 → P (wordChar w)) :
    ∀ c ∈ encodedChars h bytes, P c := by
  rw [encodedChars, List.forall_mem_append, List.forall_mem_cons, List.forall_mem_map]
  exact ⟨hfront, hone, fun w hw => hword w (textWords_lt h bytes w hw)⟩

theorem IsHrp.encoded_ascii {h : List Char} (hh : IsHrp h) (bytes : List UInt8) :
    ∀ c ∈ encodedChars h bytes, c.toNat < 128 :=
  forall_mem_encodedChars hh.ascii (by decide) fun _ hw => wordChar_lt hw

theorem IsHrp.encoded_lower {h : List Char} (hh : IsHrp h) (bytes : List UInt8) :
    ∀ c ∈ encodedChars h bytes, c.isUpper = false :=
  forall_mem_encodedChars hh.lower (by decide) fun _ hw => wordChar_isUpper hw

theorem IsHrp.encoded_isWhitespace {h : List Char} (hh : IsHrp h) (bytes : List UInt8) :
    ∀ c ∈ encodedChars h bytes, Label309.isWhitespace c = false :=
  forall_mem_encodedChars (fun _ hc => hh.isWhitespace hc) (by decide)
    fun _ hw => wordChar_isWhitespace hw

theorem map_toLower_of_lower {l : List Char} (h : ∀ c ∈ l, c.isUpper = false) :
    l.map Char.toLower = l := by
  rw [List.map_congr_left (g := id) ?_, List.map_id]
  intro c hc
  exact Char.toLower_eq_of_not_isUpper (by simp [h c hc])

/-- **The encoder gives the text of the lowered prefix.** -/
theorem bech32EncodeNoLimit_eq (unicode : CasePair) {h : List Char} (hh : IsHrp h)
    (bytes : List UInt8) : bech32EncodeNoLimit unicode (String.ofList h) bytes =
      .ok (String.ofList (encodedChars h bytes)) := by
  have hlower : toLowercase unicode.toCaseTable h = h := by
    rw [toLowercase_ascii hh.ascii, map_toLower_of_lower hh.lower]
  have hcheck : checksum h (bytesToWords bytes) =
      .ok ((checksumWords h (bytesToWords bytes)).map wordChar) :=
    if_pos (List.all_eq_true.mpr hh.range)
  rw [bech32EncodeNoLimit, String.toList_ofList, if_neg hh.ne_nil, hlower]
  dsimp only
  rw [hcheck, ExceptBind.ok_bind, List.append_assoc, List.cons_append, encodedChars,
    List.map_append]

/-! ## Spellings -/

/-- A text in lowercase or in uppercase, where the sign of the kelvin counts as a `K`. -/
def Spells (s text : List Char) : Prop :=
  s = text ∨ s.map unkelvin = text.map Char.toUpper

theorem spells_iff {unicode : CasePair} {s text : List Char} (hascii : ∀ c ∈ text, c.toNat < 128)
    (hlower : ∀ c ∈ text, c.isUpper = false) :
    Spells s text ↔ toLowercase unicode.toCaseTable s = text ∧
      (toUppercase unicode s = s ∨ toLowercase unicode.toCaseTable s = s) := by
  constructor
  · intro h
    cases h with
    | inl h =>
        have hsame : toLowercase unicode.toCaseTable text = text := by
          rw [toLowercase_ascii hascii, map_toLower_of_lower hlower]
        rw [h]
        exact ⟨hsame, .inr hsame⟩
    | inr h =>
        have hall : List.Forall₂ (fun c x => IsPlain c ∧ plainLower c = x ∧ plainUpper c = c)
            s text := by
          induction text generalizing s with
          | nil =>
              rw [List.map_nil, List.map_eq_nil_iff] at h
              rw [h]
              exact .nil
          | cons x text ih =>
              cases s with
              | nil => cases h
              | cons c s =>
                  rw [List.forall_mem_cons] at hascii hlower
                  rw [List.map_cons, List.map_cons, List.cons.injEq] at h
                  exact .cons ((unkelvin_eq_toUpper_iff hascii.1 hlower.1).mp h.1)
                    (ih hascii.2 hlower.2 h.2)
        have hplain : ∀ c ∈ s, IsPlain c := by
          intro c hc
          obtain ⟨x, -, hx⟩ := ExceptBind.exists_right_of_forall₂ hall hc
          exact hx.1
        have hup : s.map plainUpper = s := by
          rw [List.map_congr_left (g := id) ?_, List.map_id]
          intro c hc
          obtain ⟨x, -, hx⟩ := ExceptBind.exists_right_of_forall₂ hall hc
          exact hx.2.2
        refine ⟨?_, .inl ?_⟩
        · rw [toLowercase_plain hplain]
          have hlow := hall.imp (fun c x hx => hx.2.1)
          rw [← List.forall₂_map_left_iff (f := plainLower) (R := Eq)] at hlow
          exact List.forall₂_eq_eq_eq ▸ hlow
        · rw [toUppercase_plain hplain, hup]
  · rintro ⟨hlow, hcase⟩
    have hplain : ∀ c ∈ s, IsPlain c := by
      rw [toLowercase] at hlow
      exact isPlain_of_lowerAfter (by rwa [hlow])
    cases hcase with
    | inr hsame => exact .inl (by rw [← hlow, hsame])
    | inl hsame =>
        refine .inr ?_
        rw [toUppercase_plain hplain] at hsame
        rw [toLowercase_plain hplain] at hlow
        rw [← hlow, List.map_map]
        refine List.map_congr_left ?_
        intro c hc
        have hc' : plainUpper c = c := by
          have hmap : s.map plainUpper = s.map id := by rw [hsame, List.map_id]
          exact List.map_inj_left.mp hmap c hc
        have hmem : plainLower c ∈ text := by
          rw [← hlow]
          exact List.mem_map_of_mem hc
        exact (unkelvin_eq_toUpper_iff (hascii _ hmem) (hlower _ hmem)).mpr
          ⟨hplain c hc, rfl, hc'⟩

theorem length_utf8_ascii {cs : List Char} (h : ∀ c ∈ cs, c.toNat < 128) :
    (utf8Bytes (String.ofList cs)).length = cs.length := by
  rw [utf8Bytes_ofList, Utf8.encode_ascii h, List.length_map]

/-- A lowercase that is ASCII has no uppercase letter. -/
theorem isUpper_of_mem_toLowercase {unicode : CasePair} {s : List Char}
    (h : ∀ c ∈ toLowercase unicode.toCaseTable s, c.toNat < 128) {c : Char}
    (hc : c ∈ toLowercase unicode.toCaseTable s) : c.isUpper = false := by
  rw [toLowercase_plain (isPlain_of_lowerAfter h), List.mem_map] at hc
  obtain ⟨d, -, rfl⟩ := hc
  rw [plainLower]
  split
  · rfl
  · exact Char.isUpper_toLower_eq_false d

/-- **The decoder reads the spellings of the texts.** -/
theorem bech32DecodeNoLimit_eq_ok_iff {unicode : CasePair} {s h : String} {bytes : List UInt8} :
    bech32DecodeNoLimit unicode s = .ok (h, bytes) ↔
      IsHrp h.toList ∧ Spells s.toList (encodedChars h.toList bytes) := by
  constructor
  · intro hrun
    rw [bech32DecodeNoLimit] at hrun
    by_cases hempty : s.toList = []
    · rw [if_pos hempty] at hrun
      cases hrun
    rw [if_neg hempty] at hrun
    dsimp only at hrun
    by_cases hmixed : s.toList ≠ toUppercase unicode s.toList ∧
        s.toList ≠ toLowercase unicode.toCaseTable s.toList
    · rw [if_pos hmixed] at hrun
      cases hrun
    rw [if_neg hmixed] at hrun
    cases hsplit : splitAtLast '1' (toLowercase unicode.toCaseTable s.toList) with
    | none =>
        rw [hsplit] at hrun
        cases hrun
    | some p =>
        rw [hsplit] at hrun
        dsimp only at hrun
        by_cases hnil : p.1 = []
        · rw [if_pos hnil] at hrun
          cases hrun
        rw [if_neg hnil] at hrun
        by_cases hshort : (utf8Bytes (String.ofList p.2)).length < 6
        · rw [if_pos hshort] at hrun
          cases hrun
        rw [if_neg hshort] at hrun
        by_cases hrange : p.1.all isPrefixChar = false
        · rw [if_pos hrange] at hrun
          cases hrun
        rw [if_neg hrange] at hrun
        cases hdata : dataWords p.2 with
        | none =>
            rw [hdata] at hrun
            cases hrun
        | some words =>
            rw [hdata] at hrun
            dsimp only at hrun
            by_cases hbad : checksumValid p.1 words = false
            · rw [if_pos hbad] at hrun
              cases hrun
            rw [if_neg hbad, ExceptBind.map_eq_ok] at hrun
            obtain ⟨out, hout, heq⟩ := hrun
            rw [Prod.mk.injEq] at heq
            obtain ⟨hlow, -⟩ := splitAtLast_eq_some hsplit
            obtain ⟨hchars, hwords⟩ := eq_map_of_dataWords hdata
            rw [hchars, length_utf8_ascii, List.length_map, Nat.not_lt] at hshort
            · -- The last six words are the checksum of the others.
              have hcut := List.take_append_drop (words.length - 6) words
              have htake := (wordsToBytes_eq_ok_iff fun w hw => hwords w (List.mem_of_mem_take hw)).mp
                hout
              rw [Bool.not_eq_false, ← hcut, checksumValid_iff (by rw [List.length_drop]; omega)
                fun w hw => hwords w (List.mem_of_mem_drop hw)] at hbad
              have htext : toLowercase unicode.toCaseTable s.toList = encodedChars p.1 out := by
                rw [hlow, hchars, encodedChars, ← htake, ← hbad, hcut]
              have hrange' : ∀ c ∈ p.1, isPrefixChar c = true := by
                rwa [Bool.not_eq_false, List.all_eq_true] at hrange
              have hh : IsHrp p.1 := by
                refine ⟨hnil, hrange', ?_⟩
                intro c hc
                refine @isUpper_of_mem_toLowercase unicode s.toList ?_ c ?_
                · rw [htext]
                  refine forall_mem_encodedChars ?_ (by decide) fun _ hw => wordChar_lt hw
                  intro x hx
                  exact isPrefixChar_lt (hrange' x hx)
                · rw [htext, encodedChars]
                  exact List.mem_append_left _ hc
              rw [← heq.1, ← heq.2, String.toList_ofList]
              refine ⟨hh, (spells_iff (hh.encoded_ascii out) (hh.encoded_lower out)).mpr
                ⟨htext, ?_⟩⟩
              by_cases hup : toUppercase unicode s.toList = s.toList
              · exact .inl hup
              · by_cases hdown : toLowercase unicode.toCaseTable s.toList = s.toList
                · exact .inr hdown
                · exact absurd ⟨Ne.symm hup, Ne.symm hdown⟩ hmixed
            · rw [List.forall_mem_map]
              exact fun w hw => wordChar_lt (hwords w hw)
  · rintro ⟨hh, hspell⟩
    rw [@spells_iff unicode _ _ (hh.encoded_ascii bytes) (hh.encoded_lower bytes)] at hspell
    have hwords := textWords_lt h.toList bytes
    have hsplit : splitAtLast '1' (encodedChars h.toList bytes) = some (h.toList,
        (bytesToWords bytes ++ checksumWords h.toList (bytesToWords bytes)).map wordChar) := by
      refine splitAtLast_append _ ?_
      rw [List.mem_map]
      rintro ⟨w, hw, heq⟩
      exact wordChar_ne_one (hwords w hw) heq
    have hempty : s.toList ≠ [] := by
      rw [ne_eq, ← @toLowercase_eq_nil_iff unicode.toCaseTable, hspell.1, encodedChars]
      simp
    have hmixed : ¬ (s.toList ≠ toUppercase unicode s.toList ∧
        s.toList ≠ toLowercase unicode.toCaseTable s.toList) := by
      intro hboth
      cases hspell.2 with
      | inl hup => exact hboth.1 hup.symm
      | inr hdown => exact hboth.2 hdown.symm
    have hcheck := (checksumValid_iff (length_checksumWords h.toList (bytesToWords bytes))
      (checksumWords_lt _ _)).mpr rfl
    have hbytes := (wordsToBytes_eq_ok_iff (bytesToWords_lt bytes)).mpr rfl
    rw [bech32DecodeNoLimit, if_neg hempty]
    dsimp only
    rw [if_neg hmixed, hspell.1, hsplit]
    dsimp only
    rw [if_neg hh.ne_nil, if_neg, if_neg, dataWords_map hwords]
    · dsimp only
      rw [hcheck, if_neg (by decide), List.length_append, length_checksumWords, Nat.add_sub_cancel,
        List.take_left, hbytes, Except.map, String.ofList_toList]
    · rw [Bool.not_eq_false, List.all_eq_true]
      exact hh.range
    · rw [length_utf8_ascii, List.length_map, List.length_append, length_checksumWords]
      · omega
      · rw [List.forall_mem_map]
        exact fun w hw => wordChar_lt (hwords w hw)

end Label309
