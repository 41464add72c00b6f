import Mathlib

/-!
# Percent encoding

Bytes are written as characters: a byte of a chosen set as its own letter, any other as two hex
digits behind a percent sign. In a form a space is a plus sign, and a list of pairs is written with
an ampersand between the pairs and an equals sign in each. What is written is read back, since no
letter of the set is one of these marks.
-/
namespace PercentEncoding

/-! ## Bytes -/

def hexDigit (n : ℕ) : Char := if n < 10 then Char.ofNat (48 + n) else Char.ofNat (55 + n)

/-- The value of a hex digit in either case. -/
def hexValue (c : Char) : Option ℕ :=
  if '0' ≤ c ∧ c ≤ '9' then some (c.toNat - 48)
  else if 'A' ≤ c ∧ c ≤ 'F' then some (c.toNat - 55)
  else if 'a' ≤ c ∧ c ≤ 'f' then some (c.toNat - 87)
  else none

def escape (b : UInt8) : List Char := ['%', hexDigit (b.toNat / 16), hexDigit (b.toNat % 16)]

def letter (b : UInt8) : Char := Char.ofNat b.toNat

def encodeByte (keep : UInt8 → Bool) (b : UInt8) : List Char :=
  if keep b then [letter b] else escape b

def encode (keep : UInt8 → Bool) (bs : List UInt8) : List Char := bs.flatMap (encodeByte keep)

/-- The bytes of a text. A percent sign that no two hex digits follow is itself. -/
def decode : List Char → List UInt8
  | [] => []
  | '%' :: hi :: lo :: rest =>
      match hexValue hi, hexValue lo with
      | some h, some l => UInt8.ofNat (16 * h + l) :: decode rest
      | _, _ => 37 :: decode (hi :: lo :: rest)
  | c :: rest => UInt8.ofNat c.toNat :: decode rest

/-- The marks of a form and of a URL. -/
def marks : List Char := ['%', '+', '&', '=', '?', '#', '/', '\\']

/-- The letters of the set are visible ASCII, and none of them is a mark. -/
def Plain (keep : UInt8 → Bool) : Prop :=
  ∀ b, keep b = true → 32 < b ∧ b < 128 ∧ letter b ∉ marks

instance (keep : UInt8 → Bool) : Decidable (Plain keep) := by
  unfold Plain
  infer_instance

theorem hexValue_hexDigit {n : ℕ} (h : n < 16) : hexValue (hexDigit n) = some n := by
  have hall : ∀ n : Fin 16, hexValue (hexDigit n.val) = some n.val := by decide
  exact hall ⟨n, h⟩

theorem hexDigit_notMem_marks {n : ℕ} (h : n < 16) : hexDigit n ∉ marks := by
  have hall : ∀ n : Fin 16, hexDigit n.val ∉ marks := by decide
  exact hall ⟨n, h⟩

theorem decode_escape (b : UInt8) (rest : List Char) :
    decode (escape b ++ rest) = b :: decode rest := by
  have hb := b.toNat_lt
  rw [escape, List.cons_append, List.cons_append, List.singleton_append, decode,
    hexValue_hexDigit (by omega), hexValue_hexDigit (by omega)]
  dsimp only
  rw [Nat.div_add_mod, UInt8.ofNat_toNat]

theorem decode_cons_of_ne {c : Char} (h : c ≠ '%') (rest : List Char) :
    decode (c :: rest) = UInt8.ofNat c.toNat :: decode rest := by
  rw [decode]
  intro hi lo tail hc
  exact absurd hc h

/-- The byte of a letter. -/
theorem ofNat_letter {b : UInt8} (h : b < 128) : UInt8.ofNat (letter b).toNat = b := by
  have hall : ∀ n : Fin 128, UInt8.ofNat (Char.ofNat n.val).toNat = UInt8.ofNat n.val := by decide
  rw [letter, hall ⟨b.toNat, UInt8.lt_iff_toNat_lt.mp h⟩, UInt8.ofNat_toNat]

theorem decode_encodeByte {keep : UInt8 → Bool} (hkeep : Plain keep) (b : UInt8)
    (rest : List Char) : decode (encodeByte keep b ++ rest) = b :: decode rest := by
  rw [encodeByte]
  by_cases hb : keep b = true
  · obtain ⟨-, hascii, hmark⟩ := hkeep b hb
    rw [if_pos hb, List.singleton_append, decode_cons_of_ne, ofNat_letter hascii]
    rintro heq
    exact hmark (by simp [heq, marks])
  · rw [if_neg hb, decode_escape]

/-- **Bytes are read back.** -/
theorem decode_encode {keep : UInt8 → Bool} (hkeep : Plain keep) (bs : List UInt8) :
    decode (encode keep bs) = bs := by
  induction bs with
  | nil => rfl
  | cons b bs ih => rw [encode, List.flatMap_cons, decode_encodeByte hkeep, ← encode, ih]

/-- A mark in what is written is a percent sign. -/
theorem eq_percent_of_mem_encode {keep : UInt8 → Bool} (hkeep : Plain keep) {bs : List UInt8}
    {c : Char} (hc : c ∈ encode keep bs) (hmark : c ∈ marks) : c = '%' := by
  rw [encode, List.mem_flatMap] at hc
  obtain ⟨b, -, hb⟩ := hc
  rw [encodeByte] at hb
  by_cases hkept : keep b = true
  · rw [if_pos hkept, List.mem_singleton] at hb
    exact absurd (hb ▸ hmark) (hkeep b hkept).2.2
  · have hlt := b.toNat_lt
    rw [if_neg hkept, escape, List.mem_cons, List.mem_pair] at hb
    rcases hb with hb | hb | hb
    · exact hb
    · exact absurd (hb ▸ hmark) (hexDigit_notMem_marks (by omega))
    · exact absurd (hb ▸ hmark) (hexDigit_notMem_marks (by omega))

/-- What is written is visible. -/
theorem lt_of_mem_encode {keep : UInt8 → Bool} (hkeep : Plain keep) {bs : List UInt8} {c : Char}
    (hc : c ∈ encode keep bs) : ' ' < c := by
  have hletter : ∀ n : Fin 128, 32 < n.val → ' ' < Char.ofNat n.val := by decide
  have hdigit : ∀ n : Fin 16, ' ' < hexDigit n.val := by decide
  rw [encode, List.mem_flatMap] at hc
  obtain ⟨b, -, hb⟩ := hc
  rw [encodeByte] at hb
  by_cases hkept : keep b = true
  · obtain ⟨hlow, hhigh, -⟩ := hkeep b hkept
    rw [if_pos hkept, List.mem_singleton] at hb
    rw [hb, letter]
    exact hletter ⟨b.toNat, UInt8.lt_iff_toNat_lt.mp hhigh⟩ (UInt8.lt_iff_toNat_lt.mp hlow)
  · have hlt := b.toNat_lt
    rw [if_neg hkept, escape, List.mem_cons, List.mem_pair] at hb
    rcases hb with rfl | rfl | rfl
    · decide
    · exact hdigit ⟨b.toNat / 16, by omega⟩
    · exact hdigit ⟨b.toNat % 16, by omega⟩

/-! ## Forms -/

def formByte (keep : UInt8 → Bool) (b : UInt8) : List Char :=
  if b = 32 then ['+'] else encodeByte keep b

def formEncode (keep : UInt8 → Bool) (bs : List UInt8) : List Char := bs.flatMap (formByte keep)

def plusToSpace (c : Char) : Char := if c = '+' then ' ' else c

def formDecode (l : List Char) : List UInt8 := decode (l.map plusToSpace)

theorem map_plusToSpace_encodeByte {keep : UInt8 → Bool} (hkeep : Plain keep) (b : UInt8) :
    (encodeByte keep b).map plusToSpace = encodeByte keep b := by
  refine (List.map_congr_left ?_).trans (List.map_id _)
  intro c hc
  refine if_neg ?_
  rintro rfl
  have hmem : '+' ∈ encode keep [b] := by simpa [encode] using hc
  exact absurd (eq_percent_of_mem_encode hkeep hmem (by decide)) (by decide)

theorem formDecode_formEncode {keep : UInt8 → Bool} (hkeep : Plain keep) (bs : List UInt8) :
    formDecode (formEncode keep bs) = bs := by
  induction bs with
  | nil => rfl
  | cons b bs ih =>
      rw [formDecode] at ih
      rw [formEncode, List.flatMap_cons, ← formEncode, formDecode, List.map_append, formByte]
      by_cases hspace : b = 32
      · rw [if_pos hspace, List.map_singleton, plusToSpace, if_pos rfl, List.singleton_append,
          decode_cons_of_ne (by decide), ih, hspace]
        rfl
      · rw [if_neg hspace, map_plusToSpace_encodeByte hkeep, decode_encodeByte hkeep, ih]

/-- A mark in what is written is a percent sign or a plus sign. -/
theorem mark_of_mem_formEncode {keep : UInt8 → Bool} (hkeep : Plain keep) {bs : List UInt8}
    {c : Char} (hc : c ∈ formEncode keep bs) (hmark : c ∈ marks) : c = '%' ∨ c = '+' := by
  rw [formEncode, List.mem_flatMap] at hc
  obtain ⟨b, hb, hmem⟩ := hc
  rw [formByte] at hmem
  by_cases hspace : b = 32
  · rw [if_pos hspace, List.mem_singleton] at hmem
    exact .inr hmem
  · rw [if_neg hspace] at hmem
    exact .inl (eq_percent_of_mem_encode hkeep (List.mem_flatMap.mpr ⟨b, hb, hmem⟩) hmark)

theorem lt_of_mem_formEncode {keep : UInt8 → Bool} (hkeep : Plain keep) {bs : List UInt8}
    {c : Char} (hc : c ∈ formEncode keep bs) : ' ' < c := by
  rw [formEncode, List.mem_flatMap] at hc
  obtain ⟨b, hb, hmem⟩ := hc
  rw [formByte] at hmem
  by_cases hspace : b = 32
  · rw [if_pos hspace] at hmem
    rw [List.mem_singleton.mp hmem]
    decide
  · rw [if_neg hspace] at hmem
    exact lt_of_mem_encode hkeep (List.mem_flatMap.mpr ⟨b, hb, hmem⟩)

/-! ## Pairs -/

theorem mem_of_mem_intercalate {α : Type*} {sep : List α} {parts : List (List α)} {a : α}
    (h : a ∈ sep.intercalate parts) : a ∈ sep ∨ ∃ part ∈ parts, a ∈ part := by
  induction parts with
  | nil => cases h
  | cons part parts ih =>
      by_cases hparts : parts = []
      · rw [hparts, List.intercalate_singleton] at h
        exact .inr ⟨part, List.mem_cons_self, h⟩
      · rw [List.intercalate_cons_of_ne_nil hparts, List.mem_append, List.mem_append] at h
        rcases h with (h | h) | h
        · exact .inr ⟨part, List.mem_cons_self, h⟩
        · exact .inl h
        · refine (ih h).imp id ?_
          rintro ⟨part', hpart', ha⟩
          exact ⟨part', List.mem_cons_of_mem _ hpart', ha⟩

def joinPair (keep : UInt8 → Bool) (pair : List UInt8 × List UInt8) : List Char :=
  formEncode keep pair.1 ++ '=' :: formEncode keep pair.2

def joinPairs (keep : UInt8 → Bool) (pairs : List (List UInt8 × List UInt8)) : List Char :=
  ['&'].intercalate (pairs.map (joinPair keep))

/-- A pair is cut at its first equals sign. -/
def readPair (l : List Char) : List UInt8 × List UInt8 :=
  (formDecode (l.takeWhile (· ≠ '=')), formDecode ((l.dropWhile (· ≠ '=')).drop 1))

/-- The pairs of a form. What is empty between ampersands is no pair. -/
def readPairs (l : List Char) : List (List UInt8 × List UInt8) :=
  ((l.splitOn '&').filter fun part => !part.isEmpty).map readPair

theorem readPair_joinPair {keep : UInt8 → Bool} (hkeep : Plain keep)
    (pair : List UInt8 × List UInt8) : readPair (joinPair keep pair) = pair := by
  have hname : ∀ c ∈ formEncode keep pair.1, decide (c ≠ '=') = true := by
    intro c hc
    rw [decide_eq_true_eq]
    rintro rfl
    exact absurd (mark_of_mem_formEncode hkeep hc (by decide)) (by decide)
  rw [readPair, joinPair, List.takeWhile_append_of_pos hname, List.dropWhile_append_of_pos hname,
    List.takeWhile_cons_of_neg (by simp), List.dropWhile_cons_of_neg (by simp), List.append_nil,
    List.drop_one, List.tail_cons, formDecode_formEncode hkeep, formDecode_formEncode hkeep]

theorem ampersand_notMem_joinPair {keep : UInt8 → Bool} (hkeep : Plain keep)
    (pair : List UInt8 × List UInt8) : '&' ∉ joinPair keep pair := by
  intro hmem
  rw [joinPair, List.mem_append, List.mem_cons] at hmem
  rcases hmem with hmem | hmem | hmem
  · exact absurd (mark_of_mem_formEncode hkeep hmem (by decide)) (by decide)
  · cases hmem
  · exact absurd (mark_of_mem_formEncode hkeep hmem (by decide)) (by decide)

/-- A character of a form is one of its marks, or it is written in a name or a value. -/
theorem mem_joinPairs {keep : UInt8 → Bool} {pairs : List (List UInt8 × List UInt8)} {c : Char}
    (h : c ∈ joinPairs keep pairs) : c = '&' ∨ c = '=' ∨ ∃ bs, c ∈ formEncode keep bs := by
  rw [joinPairs] at h
  rcases mem_of_mem_intercalate h with hmem | ⟨part, hpart, hmem⟩
  · exact .inl (List.mem_singleton.mp hmem)
  · obtain ⟨pair, -, rfl⟩ := List.mem_map.mp hpart
    rw [joinPair, List.mem_append, List.mem_cons] at hmem
    rcases hmem with hmem | hmem | hmem
    · exact .inr (.inr ⟨_, hmem⟩)
    · exact .inr (.inl hmem)
    · exact .inr (.inr ⟨_, hmem⟩)

/-- The marks of a URL are not written. -/
theorem notMem_joinPairs {keep : UInt8 → Bool} (hkeep : Plain keep)
    {pairs : List (List UInt8 × List UInt8)} {m : Char} (hm : m ∈ ['?', '#', '/', '\\']) :
    m ∉ joinPairs keep pairs := by
  have hmarks : ∀ m ∈ ['?', '#', '/', '\\'],
      m ∈ marks ∧ m ≠ '&' ∧ m ≠ '=' ∧ m ≠ '%' ∧ m ≠ '+' :=
    List.forall_iff_forall_mem.mp (by decide)
  obtain ⟨hmark, hamp, heq, hpercent, hplus⟩ := hmarks m hm
  intro hmem
  rcases mem_joinPairs hmem with hmem | hmem | ⟨bs, hmem⟩
  · exact hamp hmem
  · exact heq hmem
  · rcases mark_of_mem_formEncode hkeep hmem hmark with hmem | hmem
    · exact hpercent hmem
    · exact hplus hmem

theorem lt_of_mem_joinPairs {keep : UInt8 → Bool} (hkeep : Plain keep)
    {pairs : List (List UInt8 × List UInt8)} {c : Char} (h : c ∈ joinPairs keep pairs) :
    ' ' < c := by
  rcases mem_joinPairs h with rfl | rfl | ⟨bs, hmem⟩
  · decide
  · decide
  · exact lt_of_mem_formEncode hkeep hmem

/-- **Pairs are read back**: none is lost, split or joined, whatever their bytes are. -/
theorem readPairs_joinPairs {keep : UInt8 → Bool} (hkeep : Plain keep)
    (pairs : List (List UInt8 × List UInt8)) : readPairs (joinPairs keep pairs) = pairs := by
  by_cases hnil : pairs = []
  · subst hnil
    rfl
  have hparts : (joinPairs keep pairs).splitOn '&' = pairs.map (joinPair keep) := by
    refine List.splitOn_intercalate '&' ?_ (by simpa using hnil)
    intro part hpart
    obtain ⟨pair, -, rfl⟩ := List.mem_map.mp hpart
    exact ampersand_notMem_joinPair hkeep pair
  have hfull : (pairs.map (joinPair keep)).filter (fun part => !part.isEmpty) =
      pairs.map (joinPair keep) := by
    rw [List.filter_eq_self]
    intro part hpart
    obtain ⟨pair, -, rfl⟩ := List.mem_map.mp hpart
    simp [joinPair]
  have hread : pairs.map (readPair ∘ joinPair keep) = pairs :=
    List.map_id'' (fun pair => readPair_joinPair hkeep pair) pairs
  rw [readPairs, hparts, hfull, List.map_map, hread]

end PercentEncoding
