import Label309.Text.Seed
import Label309.Text.RecipientExact

/-!
# A mistyped seed is never another seed

A damaged text keeps a character that no hex has, so it is read as a bech32 text or not at all. As a
bech32 text it has its words from the undamaged one but for one place, and then its checksum is that
of the same words only.
-/
namespace Label309
open Regroup Lowercase

/-! ## The text of a seed -/

/-- The word of a character. -/
def charWord (c : Char) : UInt8 := UInt8.ofNat ((bech32Alphabet.idxOf? c).getD 0)

theorem charWord_wordChar {w : UInt8} (h : w.toNat < 32) : charWord (wordChar w) = w := by
  rw [charWord, idxOf?_wordChar h, Option.getD_some, UInt8.ofNat_toNat]

/-- The words of a seed and their checksum. -/
def seedWords (seed : List UInt8) : List UInt8 :=
  bytesToWords seed ++ checksumWords identitySeedHrp.toList (bytesToWords seed)

/-- The characters of a seed in lowercase. -/
def seedChars (seed : List UInt8) : List Char := encodedChars identitySeedHrp.toList seed

theorem isHrp_identitySeedHrp : IsHrp identitySeedHrp.toList := by
  refine ⟨by decide, ?_, ?_⟩
  · simp [identitySeedHrp, isPrefixChar]
  · simp [identitySeedHrp]

theorem seedChars_eq (seed : List UInt8) :
    seedChars seed = "l309-seed-1".toList ++ (seedWords seed).map wordChar := rfl

theorem seedWords_lt (seed : List UInt8) : ∀ w ∈ seedWords seed, w.toNat < 32 := textWords_lt _ _

theorem seedWords_eq (seed : List UInt8) : seedWords seed = ((seedChars seed).drop 11).map charWord := by
  have hdrop : (seedChars seed).drop 11 = (seedWords seed).map wordChar := rfl
  rw [hdrop, List.map_map]
  conv_lhs => rw [← List.map_id (seedWords seed)]
  refine List.map_congr_left ?_
  intro w hw
  exact (charWord_wordChar (seedWords_lt seed w hw)).symm

/-- The checksum of the words. -/
theorem polymod_seedWords (seed : List UInt8) :
    polymodWords (polymodPrefix identitySeedHrp.toList) (seedWords seed) = encodingConst := by
  have hvalid := (checksumValid_iff (length_checksumWords identitySeedHrp.toList (bytesToWords seed))
    (checksumWords_lt _ _)).mpr rfl
  rwa [checksumValid, decide_eq_true_eq] at hvalid

theorem seedWords_injective {seed seed' : List UInt8} (h : seedWords seed = seedWords seed') :
    seed = seed' := by
  have hwords := (List.append_inj' h (by rw [length_checksumWords, length_checksumWords])).1
  have hback := (wordsToBytes_eq_ok_iff (bytesToWords_lt seed)).mpr rfl
  rw [hwords, (wordsToBytes_eq_ok_iff (bytesToWords_lt seed')).mpr rfl, Except.ok.injEq] at hback
  exact hback.symm

theorem length_seedChars {seed : List UInt8} (h : seed.length = identitySeedLength) :
    (seedChars seed).length = 69 := by
  obtain ⟨k, hk, hbits⟩ := @bitsOf_bytesToWordsFrom 0 0 (by decide) seed
  have hlen := congrArg List.length hbits
  simp only [List.length_append, length_bits, length_bitsOf, List.length_replicate, h,
    identitySeedLength] at hlen
  have hwords : (bytesToWords seed).length = 52 := by
    rw [bytesToWords]
    omega
  have hfront : "l309-seed-1".toList.length = 11 := rfl
  rw [seedChars_eq, List.length_append, hfront, List.length_map, seedWords, List.length_append,
    length_checksumWords, hwords]

/-! ## Damage -/

/-- **One substitution.** Two texts of seeds differ in more than one place. -/
theorem seed_eq_of_substitute {seed seed' : List UInt8} {before after : List Char} {x y : Char}
    (h : seedChars seed = before ++ x :: after) (h' : seedChars seed' = before ++ y :: after) :
    seed = seed' := by
  apply seedWords_injective
  have hwords := seedWords_eq seed
  have hwords' := seedWords_eq seed'
  rw [h] at hwords
  rw [h'] at hwords'
  by_cases hlen : 11 ≤ before.length
  · rw [List.drop_append_of_le_length hlen, List.map_append, List.map_cons] at hwords hwords'
    have hlt := seedWords_lt seed (charWord x) (by rw [hwords]; simp)
    have hlt' := seedWords_lt seed' (charWord y) (by rw [hwords']; simp)
    by_contra hne
    have hxy : charWord x ≠ charWord y := by
      intro heq
      rw [hwords, hwords', heq] at hne
      exact hne rfl
    have hcheck := polymod_seedWords seed
    rw [← polymod_seedWords seed', hwords, hwords'] at hcheck
    exact polymodWords_substitute_ne hlt hlt' hxy _ _ hcheck
  · -- The place is in front of the words.
    have hdrop : (before ++ x :: after).drop 11 = (before ++ y :: after).drop 11 := by
      have hsplit (z : Char) : (before ++ z :: after).drop 11 = after.drop (10 - before.length) := by
        rw [List.drop_append, List.drop_eq_nil_of_le (by omega), List.nil_append,
          show 11 - before.length = (10 - before.length) + 1 by omega, List.drop_succ_cons]
      rw [hsplit, hsplit]
    rw [hwords, hwords', hdrop]

/-- **Two neighbours.** No two texts of seeds differ in that two neighbours are swapped. -/
theorem seed_eq_of_swap {seed seed' : List UInt8} {before after : List Char} {x y : Char}
    (h : seedChars seed = before ++ x :: y :: after)
    (h' : seedChars seed' = before ++ y :: x :: after) : seed = seed' := by
  apply seedWords_injective
  have hwords := seedWords_eq seed
  have hwords' := seedWords_eq seed'
  rw [h] at hwords
  rw [h'] at hwords'
  by_cases hlen : 11 ≤ before.length
  · rw [List.drop_append_of_le_length hlen, List.map_append, List.map_cons, List.map_cons]
      at hwords hwords'
    have hlt := seedWords_lt seed (charWord x) (by rw [hwords]; simp)
    have hlt' := seedWords_lt seed (charWord y) (by rw [hwords]; simp)
    by_contra hne
    have hxy : charWord x ≠ charWord y := by
      intro heq
      rw [hwords, hwords', heq] at hne
      exact hne rfl
    have hcheck := polymod_seedWords seed
    rw [← polymod_seedWords seed', hwords, hwords'] at hcheck
    exact polymodWords_swap_ne hlt hlt' hxy _ _ hcheck
  · by_cases hten : before.length = 10
    · -- The separator is swapped with the first word, so the latter is a separator too.
      have hsep (seed : List UInt8) : (seedChars seed)[10]? = some '1' := rfl
      have hx := hsep seed
      have hy := hsep seed'
      rw [h, List.getElem?_append_right (by omega), hten] at hx
      rw [h', List.getElem?_append_right (by omega), hten] at hy
      simp only [Nat.sub_self, List.getElem?_cons_zero, Option.some.injEq] at hx hy
      rw [hwords, hwords', hx, hy]
    · have hdrop : (before ++ x :: y :: after).drop 11 = (before ++ y :: x :: after).drop 11 := by
        have hsplit (z t : Char) :
            (before ++ z :: t :: after).drop 11 = after.drop (9 - before.length) := by
          rw [List.drop_append, List.drop_eq_nil_of_le (by omega), List.nil_append,
            show 11 - before.length = (9 - before.length) + 1 + 1 by omega, List.drop_succ_cons,
            List.drop_succ_cons]
        rw [hsplit, hsplit]
      rw [hwords, hwords', hdrop]

/-- One character replaced by another, two different neighbours swapped, or an end cut off. -/
inductive Damaged : List Char → List Char → Prop
  | substitute (before after : List Char) {x y : Char} (h : x ≠ y) :
      Damaged (before ++ x :: after) (before ++ y :: after)
  | swap (before after : List Char) {x y : Char} (h : x ≠ y) :
      Damaged (before ++ x :: y :: after) (before ++ y :: x :: after)
  | cut (rest : List Char) {cut : List Char} (h : cut ≠ []) : Damaged (rest ++ cut) rest

theorem Damaged.length_le {text text' : List Char} (h : Damaged text text') :
    text'.length ≤ text.length := by
  cases h with
  | substitute before after _ => simp
  | swap before after _ => simp
  | cut _ _ => simp

theorem seed_eq_of_damaged {seed seed' : List UInt8} {text text' : List Char} {f : Char → Char}
    (h : Damaged text text') (hlen : text'.length = text.length)
    (hseed : text.map f = seedChars seed) (hseed' : text'.map f = seedChars seed') :
    seed = seed' := by
  cases h with
  | substitute before after _ =>
      rw [List.map_append, List.map_cons] at hseed hseed'
      exact seed_eq_of_substitute hseed.symm hseed'.symm
  | swap before after _ =>
      rw [List.map_append, List.map_cons, List.map_cons] at hseed hseed'
      exact seed_eq_of_swap hseed.symm hseed'.symm
  | cut _ hcut =>
      rw [List.length_append] at hlen
      exact absurd (List.eq_nil_of_length_eq_zero (by omega)) hcut

/-! ## What is read as hex -/

theorem mem_stripHexPrefix {l : List Char} {c : Char} (hc : c ∈ l) (hzero : c ≠ '0')
    (hx : c ≠ 'x') (hupper : c ≠ 'X') : c ∈ stripHexPrefix l := by
  rw [stripHexPrefix.eq_def]
  split
  · simpa [hzero, hx] using hc
  · simpa [hzero, hupper] using hc
  · exact hc

/-- A character that is no part of hex. -/
def NotOfHex (c : Char) : Prop :=
  isWhitespace c = false ∧ isAsciiHexDigit c = false ∧ c ≠ '0' ∧ c ≠ 'x' ∧ c ≠ 'X'

theorem not_isHex_of_mem {s : String} {c : Char} (hc : c ∈ s.toList) (h : NotOfHex c) :
    ¬ IsHex s := by
  obtain ⟨hspace, hdigit, hzero, hx, hupper⟩ := h
  have hmem : c ∈ hexBody s :=
    mem_stripHexPrefix (List.mem_filter.mpr ⟨hc, by simp [hspace]⟩) hzero hx hupper
  intro hhex
  have hall := List.all_eq_true.mp hhex.2 c hmem
  rw [hdigit] at hall
  cases hall

theorem notOfHex_hyphen : NotOfHex '-' := by
  unfold NotOfHex
  decide

/-- A damaged text is not read as hex: one of its hyphens stays, or it starts with the letter. -/
theorem not_isHex_of_damaged {text : List Char} {s : String} {l : Char} (h : Damaged text s.toList)
    (hhead : text[0]? = some l) (hl : NotOfHex l) (hfour : text[4]? = some '-')
    (hnine : text[9]? = some '-') : ¬ IsHex s := by
  generalize hs : s.toList = text' at h
  cases h with
  | @substitute before after x y _ =>
      refine not_isHex_of_mem ?_ notOfHex_hyphen
      rw [hs]
      have hsame (i : ℕ) (hi : i ≠ before.length) :
          (before ++ y :: after)[i]? = (before ++ x :: after)[i]? := by
        by_cases hlt : i < before.length
        · rw [List.getElem?_append_left hlt, List.getElem?_append_left hlt]
        · rw [List.getElem?_append_right (by omega), List.getElem?_append_right (by omega),
            show i - before.length = (i - before.length - 1) + 1 by omega, List.getElem?_cons_succ,
            List.getElem?_cons_succ]
      by_cases hplace : before.length = 4
      · exact List.mem_of_getElem? ((hsame 9 (by omega)).trans hnine)
      · exact List.mem_of_getElem? ((hsame 4 (by omega)).trans hfour)
  | @swap before after x y _ =>
      refine not_isHex_of_mem ?_ notOfHex_hyphen
      have hmem := List.mem_of_getElem? hfour
      rw [hs]
      rw [List.mem_append, List.mem_cons, List.mem_cons] at hmem ⊢
      tauto
  | cut _ hcut =>
      cases text' with
      | nil =>
          intro hhex
          apply hhex.1
          rw [hexBody, hs]
          rfl
      | cons c rest =>
          rw [List.cons_append, List.getElem?_cons_zero, Option.some.injEq] at hhead
          refine not_isHex_of_mem ?_ hl
          rw [hs, hhead]
          exact List.mem_cons_self

/-! ## What is read as a bech32 text -/

section Reading
variable {unicode : CasePair} {s : String} {seed : FixedBytes identitySeedLength}

/-- A seed is the payload of a text with the prefix, and everything else is rejected. -/
theorem parseBech32Seed_cases :
    (∃ seed : FixedBytes identitySeedLength, parseBech32Seed unicode s = .ok seed ∧
      bech32DecodeNoLimit unicode s = .ok (identitySeedHrp, seed.val)) ∨
    ∃ e, parseBech32Seed unicode s = .error e ∧ e ≠ .panicked := by
  rw [parseBech32Seed]
  split
  · exact .inr ⟨_, rfl, by decide⟩
  · cases hrun : bech32DecodeNoLimit unicode s with
    | error e =>
        dsimp only
        split
        · exact .inr ⟨_, rfl, by decide⟩
        · exact .inr ⟨_, rfl, by decide⟩
    | ok p =>
        dsimp only
        by_cases hhrp : p.1 ≠ identitySeedHrp
        · rw [if_pos hhrp]
          exact .inr ⟨_, rfl, by simp⟩
        · rw [if_neg hhrp]
          cases hfixed : toFixed identitySeedLength p.2 with
          | none => exact .inr ⟨_, rfl, by simp⟩
          | some seed =>
              rw [toFixed_eq_some] at hfixed
              exact .inl ⟨seed, rfl, by rw [← hfixed, ← not_not.mp hhrp]⟩

theorem parseBech32Seed_of_decode
    (h : bech32DecodeNoLimit unicode s = .ok (identitySeedHrp, seed.val))
    (hcase : s.toList.any Char.isLower = false ∨ s.toList.any Char.isUpper = false) :
    parseBech32Seed unicode s = .ok seed := by
  rw [parseBech32Seed, h, if_neg]
  · dsimp only
    rw [if_neg (not_not.mpr rfl), toFixed_val, Option.elim_some]
  · cases hcase with
    | inl hlower => simp [hlower]
    | inr hupper => simp [hupper]

theorem map_plainLower_of_spells (unicode : CasePair) {text l : List Char}
    (hascii : ∀ c ∈ text, c.toNat < 128) (hlower : ∀ c ∈ text, c.isUpper = false)
    (h : Spells l text) : l.map plainLower = text := by
  have hlow := ((@spells_iff unicode _ _ hascii hlower).mp h).1
  have hplain : ∀ c ∈ l, IsPlain c := by
    rw [toLowercase] at hlow
    exact isPlain_of_lowerAfter (by rwa [hlow])
  rwa [toLowercase_plain hplain] at hlow

theorem trim_sublist (s : String) : (trim s).toList.Sublist s.toList := by
  rw [trim, String.toList_ofList, ← List.reverse_sublist, List.reverse_reverse]
  exact (List.dropWhile_sublist _).trans (List.reverse_sublist.mpr (List.dropWhile_sublist _))

/-- A seed that is read from a text that is not hex is in its characters. -/
theorem map_plainLower_of_parse (hhex : ¬ IsHex s) (h : parseIdentitySeed unicode s = .ok seed) :
    (trim s).toList.map plainLower = seedChars seed.val := by
  rw [parseIdentitySeed, if_neg hhex] at h
  rcases @parseBech32Seed_cases unicode (trim s) with ⟨seed', hrun, hdecode⟩ | ⟨e, hrun, -⟩
  · rw [h, Except.ok.injEq] at hrun
    rw [← hrun, bech32DecodeNoLimit_eq_ok_iff] at hdecode
    exact map_plainLower_of_spells unicode (hdecode.1.encoded_ascii _) (hdecode.1.encoded_lower _)
      hdecode.2
  · rw [h] at hrun
    cases hrun

/-- **No damage makes another seed.** -/
theorem parse_of_damaged {text : List Char} {l : Char} {seed : FixedBytes identitySeedLength}
    (h : Damaged text s.toList) (hseed : text.map plainLower = seedChars seed.val)
    (hhead : text[0]? = some l) (hl : NotOfHex l) (hfour : text[4]? = some '-')
    (hnine : text[9]? = some '-') :
    parseIdentitySeed unicode s = .ok seed ∨
      ∃ e, parseIdentitySeed unicode s = .error e ∧ e ≠ .panicked := by
  have hhex := not_isHex_of_damaged h hhead hl hfour hnine
  cases hrun : parseIdentitySeed unicode s with
  | error e =>
      refine .inr ⟨e, rfl, ?_⟩
      rw [parseIdentitySeed, if_neg hhex] at hrun
      rcases @parseBech32Seed_cases unicode (trim s) with ⟨seed', hok, -⟩ | ⟨e', herr, hne⟩
      · rw [hok] at hrun
        cases hrun
      · rw [herr, Except.error.injEq] at hrun
        rwa [← hrun]
  | ok seed' =>
      refine .inl (congrArg Except.ok (Subtype.ext ?_))
      have hread := map_plainLower_of_parse hhex hrun
      have hlen := congrArg List.length hread
      have hlen' := congrArg List.length hseed
      rw [List.length_map, length_seedChars seed'.property] at hlen
      rw [List.length_map, length_seedChars seed.property] at hlen'
      have hsub := trim_sublist s
      have hle := hsub.length_le
      have hdamaged := h.length_le
      rw [hsub.eq_of_length (by omega)] at hread
      exact (seed_eq_of_damaged h (by omega) hseed hread).symm

/-! ## What is read back -/

theorem parse_of_surrounded {text : String} (hs : Surrounded s text)
    (hspell : Spells text.toList (seedChars seed.val))
    (hcase : text.toList.any Char.isLower = false ∨ text.toList.any Char.isUpper = false)
    (hspace : ∀ c ∈ text.toList, isWhitespace c = false) (hhyphen : '-' ∈ text.toList) :
    parseIdentitySeed unicode s = .ok seed := by
  have hhex : ¬ IsHex s := by
    obtain ⟨before, after, -, -, hsplit⟩ := hs
    refine not_isHex_of_mem ?_ notOfHex_hyphen
    rw [hsplit, List.mem_append, List.mem_append]
    exact .inl (.inr hhyphen)
  rw [parseIdentitySeed, if_neg hhex, (trim_eq_iff (List.ne_nil_of_mem hhyphen) hspace).mpr hs]
  refine parseBech32Seed_of_decode ?_ hcase
  exact bech32DecodeNoLimit_eq_ok_iff.mpr ⟨isHrp_identitySeedHrp, hspell⟩

end Reading

/-- The hex digits of a seed in any case, behind an optional `0x`, with white space anywhere. -/
def HexForm (s : String) (seed : List UInt8) : Prop :=
  ∃ front digits, (front = [] ∨ front = ['0', 'x'] ∨ front = ['0', 'X']) ∧
    s.toList.filter (fun c => !isWhitespace c) = front ++ digits ∧
    digits.map Char.toLower = (hexEncode seed).toList

/-- The digits of a hex form. -/
theorem parseHexSeed_of_digits {digits : List Char} {seed : FixedBytes identitySeedLength}
    (h : digits.map Char.toLower = (hexEncode seed.val).toList) :
    parseHexSeed digits = .ok seed := by
  have hdigits : ∀ c ∈ digits, isAsciiHexDigit c.toLower = true ∧ c.toNat < 128 := by
    intro c hc
    have hfacts := hexEncode_facts seed.val c.toLower (by rw [← h]; exact List.mem_map_of_mem hc)
    exact ⟨hfacts.1, toNat_lt_of_toLower hfacts.2⟩
  have hlen : digits.length = seedHexDigits := by
    have hlength := congrArg List.length h
    rw [List.length_map, hexEncode, String.toList_ofList] at hlength
    have hseed := seed.property
    simp only [identitySeedLength] at hseed
    simpa [hseed, seedHexDigits] using hlength
  have hdecode : hexDecode (String.ofList digits) = .ok seed.val := by
    rw [hexDecode_toLower hdigits, h, String.ofList_toList]
    exact hexDecode_hexEncode seed.val
  rw [parseHexSeed, if_neg (not_not.mpr hlen), hdecode]
  dsimp only
  rw [toFixed_val, Option.elim_some]

theorem parse_of_hexForm {unicode : CasePair} {s : String} {seed : FixedBytes identitySeedLength}
    (h : HexForm s seed.val) : parseIdentitySeed unicode s = .ok seed := by
  obtain ⟨front, digits, hfront, hcompact, hdigits⟩ := h
  have hall : ∀ c ∈ digits, isAsciiHexDigit c = true ∧ c ≠ 'x' ∧ c ≠ 'X' := by
    intro c hc
    have hfacts := hexEncode_facts seed.val c.toLower (by rw [← hdigits]; exact List.mem_map_of_mem hc)
    have hc' := hexDigit_facts hfacts.1 (toNat_lt_of_toLower hfacts.2)
    exact ⟨hc'.1, hc'.2.1, hc'.2.2.1⟩
  have hbody : hexBody s = digits := by
    rw [hexBody, hcompact]
    rcases hfront with rfl | rfl | rfl
    · rw [List.nil_append, stripHexPrefix.eq_def]
      split
      · exact ((hall 'x' (by simp)).2.1 rfl).elim
      · exact ((hall 'X' (by simp)).2.2 rfl).elim
      · rfl
    · rfl
    · rfl
  have hne : digits ≠ [] := by
    intro hnil
    have hparse := parseHexSeed_of_digits hdigits
    rw [hnil] at hparse
    cases hparse
  rw [parseIdentitySeed, if_pos, hbody, parseHexSeed_of_digits hdigits]
  rw [IsHex, hbody, List.all_eq_true]
  exact ⟨hne, fun c hc => (hall c hc).1⟩

/-! ## The property -/

/-- The lowercase of ASCII. -/
def asciiLower (s : String) : String := String.ofList (s.toList.map Char.toLower)

theorem encodeIdentitySeed_eq (unicode : CasePair) (seed : FixedBytes identitySeedLength) :
    encodeIdentitySeed unicode seed.val =
      .ok (String.ofList ((seedChars seed.val).map Char.toUpper)) := by
  have htext := bech32EncodeNoLimit_eq unicode isHrp_identitySeedHrp seed.val
  rw [String.ofList_toList] at htext
  rw [encodeIdentitySeed, if_neg (not_not.mpr seed.property), htext]
  dsimp only
  rw [String.toList_ofList, seedChars]

theorem seedChars_ascii (seed : List UInt8) : ∀ c ∈ seedChars seed, c.toNat < 128 :=
  isHrp_identitySeedHrp.encoded_ascii seed

theorem seedChars_lower (seed : List UInt8) : ∀ c ∈ seedChars seed, c.isUpper = false :=
  isHrp_identitySeedHrp.encoded_lower seed

theorem seedChars_isWhitespace (seed : List UInt8) : ∀ c ∈ seedChars seed, isWhitespace c = false :=
  isHrp_identitySeedHrp.encoded_isWhitespace seed

/-- The lowercase of a seed. -/
theorem toList_asciiLower_encoded (seed : List UInt8) :
    (asciiLower (String.ofList ((seedChars seed).map Char.toUpper))).toList = seedChars seed := by
  rw [asciiLower, String.toList_ofList, String.toList_ofList, List.map_map]
  conv_rhs => rw [← map_toLower_of_lower (seedChars_lower seed)]
  exact List.map_congr_left fun c _ => Char.toLower_toUpper_eq_toLower c

/-- **A mistyped seed is never another seed.** -/
theorem identity_seed_never_another (unicode : CasePair) (seed : FixedBytes identitySeedLength) :
    ∃ text, encodeIdentitySeed unicode seed.val = .ok text ∧
      parseIdentitySeed unicode text = .ok seed ∧
      parseIdentitySeed unicode (asciiLower text) = .ok seed ∧
      (∀ s, HexForm s seed.val → parseIdentitySeed unicode s = .ok seed) ∧
      (∀ s, Surrounded s text → parseIdentitySeed unicode s = .ok seed) ∧
      ∀ s, Damaged text.toList s.toList ∨ Damaged (asciiLower text).toList s.toList →
        parseIdentitySeed unicode s = .ok seed ∨
          ∃ e, parseIdentitySeed unicode s = .error e ∧ e ≠ .panicked := by
  have hspellUpper : Spells ((seedChars seed.val).map Char.toUpper) (seedChars seed.val) := by
    refine .inr ?_
    rw [List.map_map]
    refine List.map_congr_left ?_
    intro c hc
    exact unkelvin_of_ne (ne_kelvin_of_ascii (toNat_toUpper_lt (seedChars_ascii _ c hc)))
  have hsurrounded (s : String)
      (hs : Surrounded s (String.ofList ((seedChars seed.val).map Char.toUpper))) :
      parseIdentitySeed unicode s = .ok seed := by
    refine parse_of_surrounded hs (by rwa [String.toList_ofList]) (.inl ?_) ?_ ?_
    · simp
    · rw [String.toList_ofList, List.forall_mem_map]
      exact fun c hc => isWhitespace_toUpper (seedChars_isWhitespace _ c hc)
    · rw [String.toList_ofList]
      exact List.mem_of_getElem? (i := 4) rfl
  have hself (t : String) : Surrounded t t := ⟨[], [], by simp, by simp, by simp⟩
  refine ⟨_, encodeIdentitySeed_eq unicode seed, hsurrounded _ (hself _), ?_,
    fun s hs => parse_of_hexForm hs, hsurrounded, ?_⟩
  · refine parse_of_surrounded (hself _) ?_ (.inr ?_) ?_ ?_
    · rw [toList_asciiLower_encoded]
      exact .inl rfl
    · rw [toList_asciiLower_encoded, List.any_eq_false]
      exact fun c hc => by simp [seedChars_lower _ c hc]
    · rw [toList_asciiLower_encoded]
      exact seedChars_isWhitespace _
    · rw [toList_asciiLower_encoded]
      exact List.mem_of_getElem? (i := 4) rfl
  · intro s hs
    rw [toList_asciiLower_encoded, String.toList_ofList] at hs
    cases hs with
    | inl hupper =>
        refine parse_of_damaged (l := 'L') hupper ?_ rfl ?_ rfl rfl
        · exact map_plainLower_of_spells unicode (seedChars_ascii _) (seedChars_lower _) hspellUpper
        · unfold NotOfHex
          decide
    | inr hlower =>
        refine parse_of_damaged (l := 'l') hlower ?_ rfl ?_ rfl rfl
        · exact map_plainLower_of_spells unicode (seedChars_ascii _) (seedChars_lower _) (.inl rfl)
        · unfold NotOfHex
          decide

end Label309
