import Label309.Text.Spellings

/-!
# How exact the recipient codec is

The decoder and the encoder are inverse to each other, in lowercase and in uppercase, but for the
texts in uppercase that are written with the sign of the kelvin.
-/
namespace Label309
open Lowercase

/-! ## White space around a text -/

/-- A text with white space around it. -/
def Surrounded (s text : String) : Prop :=
  ∃ before after, (∀ c ∈ before, isWhitespace c = true) ∧ (∀ c ∈ after, isWhitespace c = true) ∧
    s.toList = before ++ text.toList ++ after

/-- What is in front of a text with another start is dropped. -/
theorem dropWhile_append_of_ne_nil {α : Type} {p : α → Bool} {before l : List α} (hne : l ≠ [])
    (hbefore : ∀ x ∈ before, p x = true) (hl : ∀ x ∈ l, p x = false) (rest : List α) :
    (before ++ (l ++ rest)).dropWhile p = l ++ rest := by
  cases l with
  | nil => exact absurd rfl hne
  | cons a l =>
      rw [List.dropWhile_append_of_pos hbefore, List.cons_append, List.dropWhile_cons_of_neg]
      simp [hl a List.mem_cons_self]

theorem trim_eq_iff {s text : String} (hne : text.toList ≠ [])
    (h : ∀ c ∈ text.toList, isWhitespace c = false) : trim s = text ↔ Surrounded s text := by
  rw [trim, String.ofList_eq]
  constructor
  · intro htrim
    have hfront := List.takeWhile_append_dropWhile (p := isWhitespace) (l := s.toList)
    have hback := List.takeWhile_append_dropWhile (p := isWhitespace)
      (l := (s.toList.dropWhile isWhitespace).reverse)
    refine ⟨s.toList.takeWhile isWhitespace,
      ((s.toList.dropWhile isWhitespace).reverse.takeWhile isWhitespace).reverse, ?_, ?_, ?_⟩
    · intro c hc
      exact List.mem_takeWhile_imp hc
    · intro c hc
      exact List.mem_takeWhile_imp (List.mem_reverse.mp hc)
    · rw [← htrim, List.append_assoc, ← List.reverse_append, hback, List.reverse_reverse, hfront]
  · rintro ⟨before, after, hbefore, hafter, hs⟩
    have hback := dropWhile_append_of_ne_nil (List.reverse_ne_nil_iff.mpr hne)
      (fun c hc => hafter c (List.mem_reverse.mp hc)) (fun c hc => h c (List.mem_reverse.mp hc)) []
    rw [List.append_nil] at hback
    rw [hs, List.append_assoc, dropWhile_append_of_ne_nil hne hbefore h, List.reverse_append, hback,
      List.reverse_reverse]

/-! ## The property -/

/-- The uppercase of ASCII. -/
def asciiUpper (s : String) : String := String.ofList (s.toList.map Char.toUpper)

/-- The decoder takes the text of a prefix and bytes, and its uppercase, for them and nothing
else. -/
def DecodesExactly (unicode : CasePair) (s : String) : Prop :=
  ∀ h bytes, bech32DecodeNoLimit unicode s = .ok (h, bytes) ↔ IsHrp h.toList ∧
    ∃ text, bech32EncodeNoLimit unicode h bytes = .ok text ∧ (s = text ∨ s = asciiUpper text)

/-- The string of a recipient of either kind. -/
def encodeAgeRecipient (unicode : CasePair) (r : ParsedAgeRecipient) :
    Except RecipientError String :=
  match r.kem with
  | .x25519 => encodeAgeX25519Recipient unicode r.publicKey
  | .mlKem768X25519 => encodeAgeXWingRecipient unicode r.publicKey

/-- The parser takes the string of a recipient, and its uppercase, for the recipient and nothing
else, up to white space around it. -/
def ParsesExactly (unicode : CasePair) (s : String) : Prop :=
  ∀ r, parseAgeRecipient unicode s = .ok r ↔ ∃ text, encodeAgeRecipient unicode r = .ok text ∧
    (Surrounded s text ∨ Surrounded s (asciiUpper text))

/-- The uppercase of a text, with the sign of the kelvin for some `K`. -/
def KelvinSpelling (s text : String) : Prop :=
  kelvin ∈ s.toList ∧ s.toList.map unkelvin = text.toList.map Char.toUpper

section Texts
variable {unicode : CasePair} {s h text : String} {bytes : List UInt8}

/-- The spellings of a text are it and its uppercase, but with the sign of the kelvin. -/
theorem spells_exactly_iff (hascii : ∀ c ∈ text.toList, c.toNat < 128) :
    (Spells s.toList text.toList ↔ s = text ∨ s = asciiUpper text) ↔
      ¬ KelvinSpelling s text := by
  rw [Spells, KelvinSpelling, asciiUpper, ← String.toList_inj, ← String.toList_inj,
    String.toList_ofList]
  by_cases hk : kelvin ∈ s.toList
  · have hno : ∀ l : List Char, (∀ c ∈ l, c.toNat < 128) → s.toList ≠ l := by
      intro l hl heq
      rw [heq] at hk
      exact ne_kelvin_of_ascii (hl _ hk) rfl
    have hupper : ∀ c ∈ text.toList.map Char.toUpper, c.toNat < 128 := by
      rw [List.forall_mem_map]
      exact fun c hc => toNat_toUpper_lt (hascii c hc)
    simp [hk, hno _ hascii, hno _ hupper]
  · have hsame : s.toList.map unkelvin = s.toList := by
      rw [List.map_congr_left (g := id) ?_, List.map_id]
      intro c hc
      exact unkelvin_of_ne (by rintro rfl; exact hk hc)
    simp [hk, hsame]

theorem decodesExactly_iff : DecodesExactly unicode s ↔ ¬ ∃ h bytes text, IsHrp h.toList ∧
    bech32EncodeNoLimit unicode h bytes = .ok text ∧ KelvinSpelling s text := by
  have hone (h : String) (bytes : List UInt8) (hh : IsHrp h.toList) :
      (Spells s.toList (encodedChars h.toList bytes) ↔ ∃ text,
        bech32EncodeNoLimit unicode h bytes = .ok text ∧ (s = text ∨ s = asciiUpper text)) ↔
      ¬ ∃ text, bech32EncodeNoLimit unicode h bytes = .ok text ∧ KelvinSpelling s text := by
    have htext := bech32EncodeNoLimit_eq unicode hh bytes
    have hexact := @spells_exactly_iff s (String.ofList (encodedChars h.toList bytes))
      (by rw [String.toList_ofList]; exact hh.encoded_ascii bytes)
    rw [String.ofList_toList] at htext
    rw [String.toList_ofList] at hexact
    simp only [htext, Except.ok.injEq, exists_eq_left']
    exact hexact
  rw [DecodesExactly]
  constructor
  · rintro hall ⟨h, bytes, text, hh, htext, hkelvin⟩
    have hiff := hall h bytes
    simp only [bech32DecodeNoLimit_eq_ok_iff, hh, true_and] at hiff
    exact (hone h bytes hh).mp hiff ⟨text, htext, hkelvin⟩
  · intro hnone h bytes
    rw [bech32DecodeNoLimit_eq_ok_iff, and_congr_right_iff]
    intro hh
    refine (hone h bytes hh).mpr ?_
    rintro ⟨text, htext, hkelvin⟩
    exact hnone ⟨h, bytes, text, hh, htext, hkelvin⟩

end Texts

/-! ## Recipients -/

/-- The prefix of the strings of a kind. -/
def hrpOf : RecipientKem → String
  | .x25519 => x25519Hrp
  | .mlKem768X25519 => xWingHrp

def publicKeyBytes : RecipientKem → ℕ
  | .x25519 => x25519PublicKeyBytes
  | .mlKem768X25519 => xWingPublicKeyBytes

theorem isHrp_hrpOf (kem : RecipientKem) : IsHrp (hrpOf kem).toList := by
  cases kem with
  | x25519 =>
      refine ⟨by decide, ?_, ?_⟩
      · simp [hrpOf, x25519Hrp, isPrefixChar]
      · simp [hrpOf, x25519Hrp]
  | mlKem768X25519 =>
      refine ⟨by decide, ?_, ?_⟩
      · simp [hrpOf, xWingHrp, isPrefixChar]
      · simp [hrpOf, xWingHrp]

section Recipients
variable {unicode : CasePair} {s : String} {r : ParsedAgeRecipient}

theorem parseAgeRecipient_eq_ok_iff : parseAgeRecipient unicode s = .ok r ↔
    r.publicKey.length = publicKeyBytes r.kem ∧
      bech32DecodeNoLimit unicode (trim s) = .ok (hrpOf r.kem, r.publicKey) := by
  rw [parseAgeRecipient, ExceptBind.bind_eq_ok]
  constructor
  · rintro ⟨⟨h, bytes⟩, hrun, hkind⟩
    dsimp only at hkind
    rw [hrun]
    by_cases hx : h = x25519Hrp
    · rw [if_pos hx] at hkind
      by_cases hlen : bytes.length ≠ x25519PublicKeyBytes
      · rw [if_pos hlen] at hkind
        cases hkind
      · rw [if_neg hlen] at hkind
        cases hkind
        exact ⟨not_not.mp hlen, by rw [hx]; rfl⟩
    · rw [if_neg hx] at hkind
      by_cases hw : h = xWingHrp
      · rw [if_pos hw] at hkind
        by_cases hlen : bytes.length ≠ xWingPublicKeyBytes
        · rw [if_pos hlen] at hkind
          cases hkind
        · rw [if_neg hlen] at hkind
          cases hkind
          exact ⟨not_not.mp hlen, by rw [hw]; rfl⟩
      · rw [if_neg hw] at hkind
        cases hkind
  · rintro ⟨hlen, hrun⟩
    refine ⟨_, hrun, ?_⟩
    cases r with
    | mk kem key =>
        cases kem with
        | x25519 =>
            have hkey : ¬ key.length ≠ x25519PublicKeyBytes := not_not.mpr hlen
            dsimp only [hrpOf]
            rw [if_pos rfl, if_neg hkey]
        | mlKem768X25519 =>
            have hkey : ¬ key.length ≠ xWingPublicKeyBytes := not_not.mpr hlen
            dsimp only [hrpOf]
            rw [if_neg (by decide), if_pos rfl, if_neg hkey]

theorem encodeAgeRecipient_eq_ok_iff {text : String} :
    encodeAgeRecipient unicode r = .ok text ↔ r.publicKey.length = publicKeyBytes r.kem ∧
      text = String.ofList (encodedChars (hrpOf r.kem).toList r.publicKey) := by
  have htext := bech32EncodeNoLimit_eq unicode (isHrp_hrpOf r.kem) r.publicKey
  rw [String.ofList_toList] at htext
  have hguard : encodeAgeRecipient unicode r = .ok text ↔
      r.publicKey.length = publicKeyBytes r.kem ∧
        bech32EncodeNoLimit unicode (hrpOf r.kem) r.publicKey = .ok text := by
    by_cases hlen : r.publicKey.length = publicKeyBytes r.kem
    · simp only [hlen, true_and]
      cases r with
      | mk kem key =>
          cases kem with
          | x25519 =>
              have hkey : ¬ key.length ≠ x25519PublicKeyBytes := not_not.mpr hlen
              rw [encodeAgeRecipient, encodeAgeX25519Recipient, if_neg hkey]
              rfl
          | mlKem768X25519 =>
              have hkey : ¬ key.length ≠ xWingPublicKeyBytes := not_not.mpr hlen
              rw [encodeAgeRecipient, encodeAgeXWingRecipient, if_neg hkey]
              rfl
    · simp only [hlen, false_and, iff_false]
      cases r with
      | mk kem key =>
          cases kem with
          | x25519 =>
              have hkey : key.length ≠ x25519PublicKeyBytes := hlen
              simp [encodeAgeRecipient, encodeAgeX25519Recipient, hkey]
          | mlKem768X25519 =>
              have hkey : key.length ≠ xWingPublicKeyBytes := hlen
              simp [encodeAgeRecipient, encodeAgeXWingRecipient, hkey]
  rw [hguard, htext, Except.ok.injEq, eq_comm (a := text)]

/-- No letter is white space. -/
theorem isWhitespace_of_isAlpha {c : Char} (h : c.isAlpha = true) : isWhitespace c = false := by
  simp only [Char.isAlpha, Char.isUpper, Char.isLower, Bool.or_eq_true, decide_eq_true_eq,
    Bool.and_eq_true, ge_iff_le, UInt32.le_iff_toNat_le] at h
  have hA : 'A'.val.toNat = 65 := rfl
  have hZ : 'Z'.val.toNat = 90 := rfl
  have ha : 'a'.val.toNat = 97 := rfl
  have hz : 'z'.val.toNat = 122 := rfl
  have hval : c.val.toNat = c.toNat := rfl
  simp only [isWhitespace, Bool.or_eq_false_iff, Bool.and_eq_false_iff, decide_eq_false_iff_not]
  omega

theorem isWhitespace_toUpper {c : Char} (h : isWhitespace c = false) :
    isWhitespace c.toUpper = false := by
  by_cases hl : c.isLower = true
  · apply isWhitespace_of_isAlpha
    rw [Char.isAlpha_toUpper_eq_isAlpha, Char.isAlpha, hl, Bool.or_true]
  · rwa [Char.toUpper_eq_of_not_isLower hl]

theorem isWhitespace_of_unkelvin {c : Char} (h : isWhitespace (unkelvin c) = false) :
    isWhitespace c = false := by
  by_cases hc : c = kelvin
  · rw [hc]
    decide
  · rwa [unkelvin_of_ne hc] at h

/-- No spelling of a text has white space. -/
theorem KelvinSpelling.isWhitespace {text : String} (h : KelvinSpelling s text)
    (htext : ∀ c ∈ text.toList, Label309.isWhitespace c = false) :
    ∀ c ∈ s.toList, Label309.isWhitespace c = false := by
  intro c hc
  apply isWhitespace_of_unkelvin
  have hmem : unkelvin c ∈ text.toList.map Char.toUpper := by
    rw [← h.2]
    exact List.mem_map_of_mem hc
  obtain ⟨x, hx, heq⟩ := List.mem_map.mp hmem
  rw [← heq]
  exact isWhitespace_toUpper (htext x hx)

theorem parsesExactly_iff : ParsesExactly unicode s ↔ ¬ ∃ r text spelled,
    encodeAgeRecipient unicode r = .ok text ∧ KelvinSpelling spelled text ∧
      Surrounded s spelled := by
  have hone (r : ParsedAgeRecipient) :
      ((parseAgeRecipient unicode s = .ok r ↔ ∃ text, encodeAgeRecipient unicode r = .ok text ∧
        (Surrounded s text ∨ Surrounded s (asciiUpper text))) ↔
      ¬ ∃ text spelled, encodeAgeRecipient unicode r = .ok text ∧ KelvinSpelling spelled text ∧
        Surrounded s spelled) := by
    rw [parseAgeRecipient_eq_ok_iff, bech32DecodeNoLimit_eq_ok_iff]
    simp only [encodeAgeRecipient_eq_ok_iff, isHrp_hrpOf, true_and]
    by_cases hlen : r.publicKey.length = publicKeyBytes r.kem
    · have hascii := (isHrp_hrpOf r.kem).encoded_ascii r.publicKey
      have hspace := (isHrp_hrpOf r.kem).encoded_isWhitespace r.publicKey
      have hne : encodedChars (hrpOf r.kem).toList r.publicKey ≠ [] := by
        rw [encodedChars]
        simp
      generalize htext : String.ofList (encodedChars (hrpOf r.kem).toList r.publicKey) = text
      rw [String.ofList_eq] at htext
      rw [htext] at hascii hspace hne ⊢
      have hupper : ∀ c ∈ (asciiUpper text).toList, isWhitespace c = false := by
        rw [asciiUpper, String.toList_ofList, List.forall_mem_map]
        exact fun c hc => isWhitespace_toUpper (hspace c hc)
      have hexact := @spells_exactly_iff (trim s) text hascii
      rw [trim_eq_iff hne hspace, trim_eq_iff (by simpa [asciiUpper] using hne) hupper] at hexact
      have hspelled (spelled : String) (hk : KelvinSpelling spelled text) :
          trim s = spelled ↔ Surrounded s spelled := by
        refine trim_eq_iff ?_ (hk.isWhitespace hspace)
        exact List.ne_nil_of_mem hk.1
      simp only [hlen, true_and, exists_and_left, exists_eq_left]
      rw [hexact, not_iff_not]
      constructor
      · intro hkelvin
        exact ⟨trim s, hkelvin, (hspelled _ hkelvin).mp rfl⟩
      · rintro ⟨spelled, hkelvin, hs⟩
        rwa [(hspelled _ hkelvin).mpr hs]
    · simp [hlen]
  rw [ParsesExactly]
  constructor
  · rintro hall ⟨r, hkelvin⟩
    exact (hone r).mp (hall r) hkelvin
  · intro hnone r
    exact (hone r).mpr fun hkelvin => hnone ⟨r, hkelvin⟩

end Recipients

/-- **How exact the codec is.** -/
theorem recipient_codec_exact_iff (unicode : CasePair) (s : String) :
    (DecodesExactly unicode s ↔ ¬ ∃ h bytes text, IsHrp h.toList ∧
      bech32EncodeNoLimit unicode h bytes = .ok text ∧ KelvinSpelling s text) ∧
    (ParsesExactly unicode s ↔ ¬ ∃ r text spelled, encodeAgeRecipient unicode r = .ok text ∧
      KelvinSpelling spelled text ∧ Surrounded s spelled) :=
  ⟨decodesExactly_iff, parsesExactly_iff⟩

/-! ## A recipient with the sign of the kelvin -/

instance (s text : String) : Decidable (KelvinSpelling s text) := by
  unfold KelvinSpelling
  infer_instance

def plainRecipient : String :=
  "age1kqqqqqqqqqqqqqqqqqqqqqqqqqqqqqqqqqqqqqqqqqqqqqqqqqqqsm3kyy"

/-- The uppercase, with the sign of the kelvin for the first `K`. -/
def kelvinRecipient : String :=
  "AGE1\u212AQQQQQQQQQQQQQQQQQQQQQQQQQQQQQQQQQQQQQQQQQQQQQQQQQQQSM3KYY"

theorem recipient_codec_not_exact :
    parseAgeRecipient asciiCase kelvinRecipient = .ok ⟨.x25519, 176 :: List.replicate 31 0⟩ ∧
      ¬ DecodesExactly asciiCase kelvinRecipient ∧ ¬ ParsesExactly asciiCase kelvinRecipient := by
  have hspell : KelvinSpelling kelvinRecipient plainRecipient := by decide
  have htext : bech32EncodeNoLimit asciiCase (hrpOf .x25519) (176 :: List.replicate 31 0) =
      .ok plainRecipient := by decide +kernel
  refine ⟨by decide +kernel, ?_, ?_⟩
  · rw [decodesExactly_iff, not_not]
    exact ⟨_, _, _, isHrp_hrpOf .x25519, htext, hspell⟩
  · rw [parsesExactly_iff, not_not]
    refine ⟨⟨.x25519, 176 :: List.replicate 31 0⟩, plainRecipient, kelvinRecipient, ?_, hspell,
      [], [], by simp, by simp, by simp⟩
    exact htext

end Label309
