import Mathlib

/-!
# Characters and their bytes

A character below 128 is its own byte, and every other character has bytes from 128 on. So a text
can be cut at an ASCII character on its bytes as on its characters.
-/
namespace Utf8

/-- The UTF-8 bytes of a list of characters. -/
def encode (cs : List Char) : List UInt8 := cs.flatMap String.utf8EncodeChar

/-- A character of one byte. -/
def IsAscii (c : Char) : Prop := c.val.toNat < 128

instance (c : Char) : Decidable (IsAscii c) := inferInstanceAs (Decidable (c.val.toNat < 128))

/-- The byte of an ASCII character. -/
def byteOf (c : Char) : UInt8 := UInt8.ofNat c.val.toNat

@[simp] theorem encode_nil : encode [] = [] := rfl

theorem encode_append (cs ds : List Char) : encode (cs ++ ds) = encode cs ++ encode ds :=
  List.flatMap_append

theorem encode_cons (c : Char) (cs : List Char) :
    encode (c :: cs) = String.utf8EncodeChar c ++ encode cs := rfl

/-! ## One character -/

theorem encodeChar_ascii {c : Char} (h : IsAscii c) : String.utf8EncodeChar c = [byteOf c] := by
  rw [IsAscii] at h
  rw [String.utf8EncodeChar, if_pos (by omega)]
  rfl

theorem encodeChar_ne_nil (c : Char) : String.utf8EncodeChar c ≠ [] := String.utf8EncodeChar_ne_nil

theorem le_of_mem_encodeChar {c : Char} (h : ¬ IsAscii c) {b : UInt8}
    (hb : b ∈ String.utf8EncodeChar c) : 128 ≤ b.toNat := by
  have hlt : c.val.toNat < 0x110000 := by
    rcases c.valid with hlow | ⟨-, hhigh⟩
    · omega
    · omega
  rw [IsAscii] at h
  rw [String.utf8EncodeChar, if_neg (by omega)] at hb
  generalize c.val.toNat = n at *
  by_cases htwo : n ≤ 0x7ff
  · rw [if_pos htwo] at hb
    simp only [List.mem_cons, List.not_mem_nil, or_false] at hb
    rcases hb with rfl | rfl <;> rw [UInt8.toNat_ofNat'] <;> omega
  · by_cases hthree : n ≤ 0xffff
    · rw [if_neg htwo, if_pos hthree] at hb
      simp only [List.mem_cons, List.not_mem_nil, or_false] at hb
      rcases hb with rfl | rfl | rfl <;> rw [UInt8.toNat_ofNat'] <;> omega
    · rw [if_neg htwo, if_neg hthree] at hb
      simp only [List.mem_cons, List.not_mem_nil, or_false] at hb
      rcases hb with rfl | rfl | rfl | rfl <;> rw [UInt8.toNat_ofNat'] <;> omega

theorem toNat_byteOf {c : Char} (h : IsAscii c) : (byteOf c).toNat = c.val.toNat := by
  rw [IsAscii] at h
  rw [byteOf, UInt8.toNat_ofNat', Nat.mod_eq_of_lt (by omega)]

theorem byteOf_injective {c d : Char} (hc : IsAscii c) (hd : IsAscii d)
    (h : byteOf c = byteOf d) : c = d := by
  have hval : c.val.toNat = d.val.toNat := by rw [← toNat_byteOf hc, ← toNat_byteOf hd, h]
  exact Char.ext (UInt32.toNat_inj.mp hval)

/-- The byte of an ASCII character stands in the bytes of that character only. -/
theorem byteOf_mem_encodeChar {a : Char} (ha : IsAscii a) {c : Char} :
    byteOf a ∈ String.utf8EncodeChar c ↔ c = a := by
  constructor
  · intro hmem
    by_cases hc : IsAscii c
    · rw [encodeChar_ascii hc, List.mem_singleton] at hmem
      exact (byteOf_injective ha hc hmem).symm
    · have hle := le_of_mem_encodeChar hc hmem
      rw [toNat_byteOf ha] at hle
      rw [IsAscii] at ha
      omega
  · intro h
    subst h
    rw [encodeChar_ascii ha]
    exact List.mem_singleton_self _

/-- What holds of the 128 ASCII characters holds of each. -/
theorem ascii_cases {P : Char → Prop} (h : ∀ n : Fin 128, P (Char.ofNat n.val)) {c : Char}
    (hc : IsAscii c) : P c := by
  have hall := h ⟨c.toNat, hc⟩
  rwa [show Char.ofNat c.toNat = c from Char.ofNat_toNat c] at hall

/-! ## Texts -/

/-- The text is cut where its bytes are cut at an ASCII character. -/
theorem encode_eq_append_cons {a : Char} (ha : IsAscii a) {cs : List Char} {p q : List UInt8}
    (h : encode cs = p ++ byteOf a :: q) :
    ∃ pc qc, cs = pc ++ a :: qc ∧ encode pc = p ∧ encode qc = q := by
  induction cs generalizing p with
  | nil => simp at h
  | cons c cs ih =>
      rw [encode_cons] at h
      by_cases hc : c = a
      · subst hc
        rw [encodeChar_ascii ha, List.singleton_append] at h
        cases p with
        | nil =>
            rw [List.nil_append, List.cons.injEq] at h
            exact ⟨[], cs, rfl, rfl, h.2⟩
        | cons b p =>
            rw [List.cons_append, List.cons.injEq] at h
            obtain ⟨pc, qc, hcs, hp, hq⟩ := ih h.2
            refine ⟨c :: pc, qc, by rw [hcs]; rfl, ?_, hq⟩
            rw [encode_cons, encodeChar_ascii ha, hp, ← h.1]
            rfl
      · -- The bytes of another character lie before the cut.
        have hnot : byteOf a ∉ String.utf8EncodeChar c := by
          rw [byteOf_mem_encodeChar ha]
          exact hc
        rw [List.append_eq_append_iff] at h
        rcases h with ⟨p', hp', hrest⟩ | ⟨c', hc', hrest⟩
        · obtain ⟨pc, qc, hcs, hp, hq⟩ := ih hrest
          refine ⟨c :: pc, qc, by rw [hcs]; rfl, ?_, hq⟩
          rw [encode_cons, hp, hp']
        · cases c' with
          | nil =>
              rw [List.append_nil] at hc'
              rw [List.nil_append] at hrest
              obtain ⟨pc, qc, hcs, hp, hq⟩ := @ih [] hrest.symm
              refine ⟨c :: pc, qc, by rw [hcs]; rfl, ?_, hq⟩
              rw [encode_cons, hp, List.append_nil, hc']
          | cons b c' =>
              rw [List.cons_append, List.cons.injEq] at hrest
              refine absurd ?_ hnot
              rw [hc', hrest.1]
              exact List.mem_append_right _ List.mem_cons_self

theorem encode_eq_nil {cs : List Char} (h : encode cs = []) : cs = [] := by
  cases cs with
  | nil => rfl
  | cons c cs =>
      rw [encode_cons] at h
      exact absurd (List.append_eq_nil_iff.mp h).1 (encodeChar_ne_nil c)

/-- A token of ASCII stands in the text where it stands in the bytes. -/
theorem encode_eq_append_word {cs w : List Char} {p q : List UInt8}
    (hw : ∀ c ∈ w, IsAscii c) (hne : w ≠ []) (h : encode cs = p ++ w.map byteOf ++ q) :
    ∃ pc qc, cs = pc ++ w ++ qc ∧ encode pc = p ∧ encode qc = q := by
  induction w generalizing cs p with
  | nil => exact absurd rfl hne
  | cons c w ih =>
      rw [List.forall_mem_cons] at hw
      rw [List.map_cons, List.append_assoc, List.cons_append] at h
      obtain ⟨pc, rest, rfl, hp, hrest⟩ := encode_eq_append_cons hw.1 h
      by_cases hnil : w = []
      · subst hnil
        exact ⟨pc, rest, by simp, hp, by simpa using hrest⟩
      · obtain ⟨none, qc, rfl, hnone, hq⟩ := ih hw.2 hnil (p := []) (by simpa using hrest)
        rw [encode_eq_nil hnone]
        exact ⟨pc, qc, by simp, hp, hq⟩

theorem byteOf_mem_encode {a : Char} (ha : IsAscii a) {cs : List Char} :
    byteOf a ∈ encode cs ↔ a ∈ cs := by
  simp only [encode, List.mem_flatMap, byteOf_mem_encodeChar ha, exists_eq_right]

/-- Up to an ASCII character, the bytes of the text are the text's own. -/
theorem takeWhile_encode {a : Char} (ha : IsAscii a) (cs : List Char) :
    (encode cs).takeWhile (· != byteOf a) = encode (cs.takeWhile (· ≠ a)) := by
  induction cs with
  | nil => rfl
  | cons c cs ih =>
      rw [encode_cons]
      by_cases hc : c = a
      · subst hc
        rw [encodeChar_ascii ha, List.singleton_append, List.takeWhile_cons_of_neg (by simp),
          List.takeWhile_cons_of_neg (by simp)]
        rfl
      · have hall : ∀ b ∈ String.utf8EncodeChar c, (b != byteOf a) = true := by
          intro b hb
          rw [bne_iff_ne]
          intro heq
          subst heq
          exact hc ((byteOf_mem_encodeChar ha).mp hb)
        rw [List.takeWhile_append_of_pos hall, ih,
          List.takeWhile_cons_of_pos (by simpa using hc), encode_cons]

/-- A text of small bytes is ASCII. -/
theorem isAscii_of_encode {cs : List Char} (h : ∀ b ∈ encode cs, b.toNat < 128) :
    ∀ c ∈ cs, IsAscii c := by
  intro c hc
  by_contra hnot
  obtain ⟨b, hb⟩ := List.exists_mem_of_ne_nil _ (encodeChar_ne_nil c)
  have hlt := h b (List.mem_flatMap.mpr ⟨c, hc, hb⟩)
  have hle := le_of_mem_encodeChar hnot hb
  omega

theorem encode_ascii {cs : List Char} (h : ∀ c ∈ cs, IsAscii c) : encode cs = cs.map byteOf := by
  induction cs with
  | nil => rfl
  | cons c cs ih =>
      rw [encode_cons, encodeChar_ascii (h c List.mem_cons_self),
        ih (by intro d hd; exact h d (List.mem_cons_of_mem _ hd))]
      rfl

end Utf8
