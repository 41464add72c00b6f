import Label309.Lib.AnchoredPattern
import Label309.Bytes
import Label309.PoeStandard.Registry

/-!
# The pattern of the forbidden ciphers

The search through the bytes of an identifier is the documented pattern over its characters. A
search starts again one byte behind each hit, so no occurrence is passed over, and a token of ASCII
and its delimiters stand in the bytes where they stand in the text.
-/
namespace Label309
open AnchoredPattern

def cipherDelimiters : List Char := ['-', '_']

def cipherModes : List (List Char) :=
  ["cbc", "ctr", "ecb", "cfb", "ofb"].map String.toList

def legacyCiphers : List (List Char) := ["rc4", "des", "3des"].map String.toList

/-- `(?:^|[-_])(?:cbc|ctr|ecb|cfb|ofb)(?:[-_]|$)|^(?:rc4|des|3des)(?:[-_]|$)` -/
def unauthenticatedCipherPattern : Pattern Char :=
  .alt (.delimited cipherDelimiters cipherModes) (.leading cipherDelimiters legacyCiphers)

/-! ## Occurrences -/

section Search
variable {bytes needle front rest : List UInt8} {i : ℕ}

theorem occurs_iff : (bytes.drop i).take needle.length = needle ∧ i + needle.length ≤ bytes.length ↔
    ∃ front rest, bytes = front ++ needle ++ rest ∧ front.length = i := by
  constructor
  · intro h
    refine ⟨bytes.take i, bytes.drop (i + needle.length), ?_, by simp; omega⟩
    conv_lhs => rw [← List.take_append_drop i bytes,
      ← List.take_append_drop needle.length (bytes.drop i), h.1, List.drop_drop]
    rw [List.append_assoc]
  · intro h
    obtain ⟨front, rest, rfl, rfl⟩ := h
    simp

/-- The first occurrence, when there is one. -/
theorem findSubslice_eq_some (h : findSubslice bytes needle = some i) :
    (∃ front rest, bytes = front ++ needle ++ rest ∧ front.length = i) ∧
      ∀ front rest, bytes = front ++ needle ++ rest → i ≤ front.length := by
  rw [findSubslice] at h
  split at h
  · cases h
  · rename_i hlong
    rw [List.find?_range_eq_some] at h
    simp only [Bool.or_eq_true, decide_eq_true_eq, not_or, Nat.not_lt] at hlong
    obtain ⟨hat, hi, hfirst⟩ := h
    rw [List.mem_range] at hi
    refine ⟨occurs_iff.mp ⟨by simpa using hat, by omega⟩, ?_⟩
    intro front rest hcut
    by_contra hlt
    have hoccurs := occurs_iff.mpr ⟨front, rest, hcut, rfl⟩
    have hnot := hfirst front.length (by omega)
    simp [hoccurs.1] at hnot

theorem findSubslice_eq_none (hne : needle ≠ []) (h : findSubslice bytes needle = none) :
    bytes ≠ front ++ needle ++ rest := by
  intro hcut
  have hoccurs := occurs_iff.mpr ⟨front, rest, hcut, rfl⟩
  rw [findSubslice] at h
  split at h
  · rename_i hshort
    simp only [Bool.or_eq_true, List.isEmpty_iff, decide_eq_true_eq] at hshort
    cases hshort with
    | inl hnil => exact hne hnil
    | inr hlt => omega
  · rw [List.find?_range_eq_none] at h
    have hnot := h front.length (by omega)
    simp [hoccurs.1] at hnot

end Search

/-! ## Delimiters -/

def delimiterBytes : List UInt8 := [45, 95]

section Delimiters
variable {front rest : List UInt8}

theorem isDelim_iff {b : UInt8} : isDelim b = true ↔ b ∈ delimiterBytes := by
  simp [isDelim, delimiterBytes]

theorem delimitedAt_append :
    delimitedAt (front ++ rest) front.length = true ↔ StartsAt delimiterBytes rest := by
  rw [delimitedAt, List.getElem?_append_right (le_refl _), Nat.sub_self, StartsAt]
  cases rest with
  | nil => simp
  | cons b rest => simp [isDelim_iff]

theorem delimitedBefore_append : (front.length == 0 ||
      delimitedAt (front ++ rest) (front.length - 1)) = true ↔ EndsAt delimiterBytes front := by
  rw [EndsAt]
  cases front using List.reverseRecOn with
  | nil => simp
  | append_singleton front b =>
      simp [delimitedAt, isDelim_iff, List.append_assoc]

end Delimiters

/-! ## The search -/

/-- The bytes of a token between delimiters. -/
def DelimitedFrom (bytes mode : List UInt8) (start : ℕ) : Prop :=
  ∃ front rest, bytes = front ++ mode ++ rest ∧ start ≤ front.length ∧
    EndsAt delimiterBytes front ∧ StartsAt delimiterBytes rest

/-- The place where a hit is tested. -/
theorem hit_iff {front mode behind : List UInt8} :
    ((front.length == 0 || delimitedAt (front ++ mode ++ behind) (front.length - 1)) &&
      delimitedAt (front ++ mode ++ behind) (front.length + mode.length)) = true ↔
      EndsAt delimiterBytes front ∧ StartsAt delimiterBytes behind := by
  have hbefore := @delimitedBefore_append front (mode ++ behind)
  have hbehind := @delimitedAt_append (front ++ mode) behind
  rw [← List.append_assoc] at hbefore
  rw [List.length_append] at hbehind
  rw [Bool.and_eq_true, hbefore, hbehind]

/-- **The search** from a place finds what stands there or behind it. -/
theorem hasDelimitedMode_iff {bytes mode : List UInt8} (hmode : mode ≠ []) {fuel start : ℕ}
    (hfuel : bytes.length < start + fuel) :
    hasDelimitedMode bytes mode fuel start = true ↔ DelimitedFrom bytes mode start := by
  induction fuel generalizing start with
  | zero =>
      refine iff_of_false (by simp [hasDelimitedMode]) ?_
      intro h
      obtain ⟨front, rest, hcut, hstart, -⟩ := h
      have hlength := congrArg List.length hcut
      simp only [List.length_append] at hlength
      omega
  | succ fuel ih =>
      rw [hasDelimitedMode]
      cases hfind : findSubslice (bytes.drop start) mode with
      | none =>
          refine iff_of_false (by simp) ?_
          intro h
          obtain ⟨front, rest, hcut, hstart, -⟩ := h
          refine @findSubslice_eq_none _ _ (front.drop start) rest hmode hfind ?_
          rw [hcut, List.append_assoc, List.drop_append_of_le_length hstart, List.append_assoc]
      | some rel =>
          obtain ⟨⟨before, behind, hcut, hrel⟩, hfirst⟩ := findSubslice_eq_some hfind
          have hpos := List.length_pos_of_ne_nil hmode
          have hlength := congrArg List.length hcut
          simp only [List.length_drop, List.length_append] at hlength
          obtain ⟨front, hfront⟩ : ∃ front, front = bytes.take start ++ before := ⟨_, rfl⟩
          have hidx : front.length = start + rel := by
            rw [hfront, List.length_append, List.length_take]
            omega
          have hwhole : bytes = front ++ mode ++ behind := by
            rw [hfront, List.append_assoc, List.append_assoc, ← List.append_assoc before, ← hcut,
              List.take_append_drop]
          dsimp only
          rw [← hidx]
          by_cases hfenced : EndsAt delimiterBytes front ∧ StartsAt delimiterBytes behind
          · rw [if_pos (by rw [hwhole]; exact hit_iff.mpr hfenced)]
            exact iff_of_true rfl ⟨front, behind, hwhole, by omega, hfenced⟩
          · rw [if_neg (by rw [hwhole]; exact fun h => hfenced (hit_iff.mp h)), ih (by omega)]
            constructor
            · intro h
              obtain ⟨f, r, hcut', hstart, hends⟩ := h
              exact ⟨f, r, hcut', by omega, hends⟩
            · intro h
              obtain ⟨f, r, hcut', hstart, hends⟩ := h
              refine ⟨f, r, hcut', ?_, hends⟩
              have hle := hfirst (f.drop start) r (by
                rw [hcut', List.append_assoc, List.drop_append_of_le_length hstart,
                  List.append_assoc])
              rw [List.length_drop] at hle
              by_contra hlt
              -- At the place of the hit the delimiters are missing.
              obtain ⟨rfl, hrest⟩ := List.append_inj ((List.append_assoc f mode r).symm.trans
                (hcut'.symm.trans (hwhole.trans (List.append_assoc front mode behind))))
                (by omega)
              rw [List.append_cancel_left hrest] at hends
              exact hfenced hends

/-! ## Bytes and characters -/

section Encode
open Utf8
variable {cs w ds : List Char}

theorem endsAt_encode (hds : ∀ d ∈ ds, IsAscii d) :
    EndsAt (ds.map byteOf) (encode cs) ↔ EndsAt ds cs := by
  constructor
  · intro h
    cases h with
    | inl hnil => exact .inl (encode_eq_nil hnil)
    | inr hends =>
        obtain ⟨f, b, hb, hcut⟩ := hends
        obtain ⟨d, hd, rfl⟩ := List.mem_map.mp hb
        obtain ⟨pc, qc, rfl, -, hq⟩ := encode_eq_append_cons (hds d hd) hcut
        exact .inr ⟨pc, d, hd, by rw [encode_eq_nil hq]⟩
  · intro h
    cases h with
    | inl hnil => exact .inl (by rw [hnil, encode_nil])
    | inr hends =>
        obtain ⟨pc, d, hd, rfl⟩ := hends
        refine .inr ⟨encode pc, byteOf d, List.mem_map_of_mem hd, ?_⟩
        rw [encode_append, encode_cons, encodeChar_ascii (hds d hd)]
        rfl

theorem startsAt_encode (hds : ∀ d ∈ ds, IsAscii d) :
    StartsAt (ds.map byteOf) (encode cs) ↔ StartsAt ds cs := by
  constructor
  · intro h
    cases h with
    | inl hnil => exact .inl (encode_eq_nil hnil)
    | inr hstarts =>
        obtain ⟨b, hb, r, hcut⟩ := hstarts
        obtain ⟨d, hd, rfl⟩ := List.mem_map.mp hb
        obtain ⟨pc, qc, rfl, hp, -⟩ := encode_eq_append_cons (p := []) (hds d hd) hcut
        exact .inr ⟨d, hd, qc, by rw [encode_eq_nil hp]; rfl⟩
  · intro h
    cases h with
    | inl hnil => exact .inl (by rw [hnil, encode_nil])
    | inr hstarts =>
        obtain ⟨d, hd, r, rfl⟩ := hstarts
        refine .inr ⟨byteOf d, List.mem_map_of_mem hd, encode r, ?_⟩
        rw [encode_cons, encodeChar_ascii (hds d hd)]
        rfl

theorem map_toAsciiLowercase_foreign {bs : List UInt8} (h : ∀ b ∈ bs, 128 ≤ b.toNat) :
    bs.map toAsciiLowercase = bs := by
  induction bs with
  | nil => rfl
  | cons b bs ih =>
      rw [List.forall_mem_cons] at h
      have hb : ¬ (65 ≤ b ∧ b ≤ 90) := by
        rintro ⟨-, hle⟩
        have hnat : b.toNat ≤ 90 := hle
        omega
      rw [List.map_cons, ih h.2, toAsciiLowercase, if_neg (by simpa using hb)]

/-- The bytes of a text in lowercase are the bytes in lowercase. -/
theorem encode_map_toLower (cs : List Char) :
    encode (cs.map Char.toLower) = (encode cs).map toAsciiLowercase := by
  induction cs with
  | nil => rfl
  | cons c cs ih =>
      rw [List.map_cons, encode_cons, encode_cons, List.map_append, ih]
      congr 1
      by_cases hc : IsAscii c
      · have hlower := @ascii_cases (fun c => IsAscii c.toLower ∧
          byteOf c.toLower = toAsciiLowercase (byteOf c)) (by decide) c hc
        rw [encodeChar_ascii hc, encodeChar_ascii hlower.1, hlower.2]
        rfl
      · have hself : c.toLower = c := by
          rw [Char.toLower, dif_neg]
          intro hupper
          have hle : c.val.toNat ≤ 90 := hupper.2
          exact hc (by rw [IsAscii]; omega)
        rw [hself, map_toAsciiLowercase_foreign fun b hb => le_of_mem_encodeChar hc hb]

end Encode

/-! ## The pattern -/

section Pattern
open Utf8
variable {cs w : List Char}

theorem delimiterBytes_eq : delimiterBytes = cipherDelimiters.map byteOf := by
  simp [delimiterBytes, cipherDelimiters, byteOf]

theorem forall_isAscii (h : (w.all fun c => decide (IsAscii c)) = true) : ∀ c ∈ w, IsAscii c := by
  simpa using h

theorem cipherDelimiters_ascii : ∀ d ∈ cipherDelimiters, IsAscii d :=
  forall_isAscii (by decide)

theorem delimitedFrom_encode (hw : ∀ c ∈ w, IsAscii c) (hne : w ≠ []) :
    DelimitedFrom (encode cs) (encode w) 0 ↔ ∃ front rest, cs = front ++ w ++ rest ∧
      EndsAt cipherDelimiters front ∧ StartsAt cipherDelimiters rest := by
  rw [DelimitedFrom, delimiterBytes_eq]
  constructor
  · intro h
    obtain ⟨front, rest, hcut, -, hends, hstarts⟩ := h
    rw [encode_ascii hw] at hcut
    obtain ⟨pc, qc, rfl, rfl, rfl⟩ := encode_eq_append_word hw hne hcut
    exact ⟨pc, qc, rfl, (endsAt_encode cipherDelimiters_ascii).mp hends,
      (startsAt_encode cipherDelimiters_ascii).mp hstarts⟩
  · intro h
    obtain ⟨front, rest, rfl, hends, hstarts⟩ := h
    exact ⟨encode front, encode rest, by rw [encode_append, encode_append], Nat.zero_le _,
      (endsAt_encode cipherDelimiters_ascii).mpr hends,
      (startsAt_encode cipherDelimiters_ascii).mpr hstarts⟩

theorem leading_encode (hw : ∀ c ∈ w, IsAscii c) (hne : w ≠ []) :
    ((encode w).isPrefixOf (encode cs) && delimitedAt (encode cs) (encode w).length) = true ↔
      ∃ rest, cs = w ++ rest ∧ StartsAt cipherDelimiters rest := by
  rw [Bool.and_eq_true, List.isPrefixOf_iff_prefix]
  constructor
  · intro h
    obtain ⟨⟨rest, hcut⟩, hdelim⟩ := h
    rw [← hcut, delimitedAt_append, delimiterBytes_eq] at hdelim
    rw [encode_ascii hw] at hcut
    obtain ⟨pc, qc, rfl, hp, rfl⟩ := encode_eq_append_word (p := []) hw hne hcut.symm
    rw [encode_eq_nil hp]
    exact ⟨qc, rfl, (startsAt_encode cipherDelimiters_ascii).mp hdelim⟩
  · intro h
    obtain ⟨rest, rfl, hstarts⟩ := h
    rw [encode_append, delimitedAt_append, delimiterBytes_eq]
    exact ⟨List.prefix_append _ _, (startsAt_encode cipherDelimiters_ascii).mpr hstarts⟩

theorem utf8Bytes_encode (s : String) : utf8Bytes s = encode s.toList := by
  rw [← utf8Bytes_ofList, String.ofList_toList]

/-- A token that can be looked for in the bytes. -/
def IsToken (m : String) : Prop := (∀ c ∈ m.toList, IsAscii c) ∧ m.toList ≠ []

theorem isToken_of_eq {m : String} (hm : m = String.ofList w) (hne : w ≠ [])
    (h : (w.all fun c => decide (IsAscii c)) = true) : IsToken m := by
  rw [IsToken, hm, String.toList_ofList]
  exact ⟨forall_isAscii h, hne⟩

theorem isToken_modes : ∀ m ∈ ["cbc", "ctr", "ecb", "cfb", "ofb"], IsToken m := by
  simp only [List.forall_mem_cons]
  exact ⟨@isToken_of_eq ['c', 'b', 'c'] _ rfl (by simp) (by decide),
    @isToken_of_eq ['c', 't', 'r'] _ rfl (by simp) (by decide),
    @isToken_of_eq ['e', 'c', 'b'] _ rfl (by simp) (by decide),
    @isToken_of_eq ['c', 'f', 'b'] _ rfl (by simp) (by decide),
    @isToken_of_eq ['o', 'f', 'b'] _ rfl (by simp) (by decide), by simp⟩

theorem isToken_legacy : ∀ m ∈ ["rc4", "des", "3des"], IsToken m := by
  simp only [List.forall_mem_cons]
  exact ⟨@isToken_of_eq ['r', 'c', '4'] _ rfl (by simp) (by decide),
    @isToken_of_eq ['d', 'e', 's'] _ rfl (by simp) (by decide),
    @isToken_of_eq ['3', 'd', 'e', 's'] _ rfl (by simp) (by decide), by simp⟩

/-- **The forbidden ciphers** are those of the documented pattern, in any case of ASCII. -/
theorem isUnauthenticatedCipher_iff (s : String) : isUnauthenticatedCipher s = true ↔
    Found unauthenticatedCipherPattern (s.toList.map Char.toLower) := by
  rw [unauthenticatedCipherPattern, found_alt, found_delimited, found_leading,
    isUnauthenticatedCipher, utf8Bytes_encode, ← encode_map_toLower, Bool.or_eq_true,
    List.any_eq_true, List.any_eq_true, cipherModes, legacyCiphers]
  simp only [List.mem_map, exists_exists_and_eq_and]
  refine or_congr (exists_congr fun m => and_congr_right fun hm => ?_)
    (exists_congr fun m => and_congr_right fun hm => ?_)
  · have htoken := isToken_modes m hm
    rw [utf8Bytes_encode, hasDelimitedMode_iff (fun h => htoken.2 (encode_eq_nil h)) (by omega),
      delimitedFrom_encode htoken.1 htoken.2]
  · have htoken := isToken_legacy m hm
    rw [utf8Bytes_encode, leading_encode htoken.1 htoken.2]

end Pattern

end Label309
