import Mathlib

/-!
# The lowercase of a text

Each character has its lowercase in a table, but for the sigma, whose lowercase is another one at the
end of a word. The text keeps what does not depend on the table: the letters of ASCII in any case
have one lowercase, and a character of ASCII that is no letter stays and comes from no other.
-/
namespace Lowercase

/-- The tables of Unicode, as far as a lowercase depends on them. -/
structure CaseTable where
  toLower : Char → List Char
  cased : Char → Bool
  caseIgnorable : Char → Bool
  toLower_ascii : ∀ c, c.toNat < 128 → toLower c = [c.toLower]
  toLower_ne_nil : ∀ c, toLower c ≠ []
  toLower_other : ∀ c, 128 ≤ c.toNat → ∀ x ∈ toLower c, x.toNat < 128 → x.isLower = true
  cased_letter : ∀ c, c.isAlpha = true → cased c = true
  caseIgnorable_letter : ∀ c, c.isAlpha = true → caseIgnorable c = false

section Table
variable (t : CaseTable)

/-- The first character that is not ignored is a cased one. -/
def meetsCased (l : List Char) : Bool := (l.dropWhile t.caseIgnorable).head?.any t.cased

/-- What a character becomes, after some others (the nearest first) and before some others. -/
def image (before after : List Char) (c : Char) : List Char :=
  if c = 'Σ' then [if meetsCased t before && !meetsCased t after then 'ς' else 'σ']
  else t.toLower c

def lowerAfter : (before : List Char) → List Char → List Char
  | _, [] => []
  | before, c :: rest => image t before rest c ++ lowerAfter (c :: before) rest

def toLowercase (l : List Char) : List Char := lowerAfter t [] l

@[simp] theorem lowerAfter_nil (before : List Char) : lowerAfter t before [] = [] := rfl

theorem lowerAfter_cons (before rest : List Char) (c : Char) : lowerAfter t before (c :: rest) =
    image t before rest c ++ lowerAfter t (c :: before) rest := rfl

end Table

/-- A character of ASCII that is no letter. -/
def IsMark (c : Char) : Prop := c.toNat < 128 ∧ c.isAlpha = false

instance : DecidablePred IsMark := by
  unfold IsMark
  infer_instance

/-- The characters are those of the other text, in any case of ASCII. -/
def SameLetters (l l' : List Char) : Prop := l.map Char.toLower = l'.map Char.toLower

section Chars
variable {c c' : Char}

theorem toNat_lt_of_isAlpha (h : c.isAlpha = true) : c.toNat < 128 := by
  simp only [Char.isAlpha, Char.isUpper, Char.isLower, Bool.or_eq_true, decide_eq_true_eq,
    Bool.and_eq_true, ge_iff_le, UInt32.le_iff_toNat_le] at h
  have hupper : 'Z'.val.toNat = 90 := rfl
  have hlower : 'z'.val.toNat = 122 := rfl
  show c.val.toNat < 128
  omega

theorem toLower_of_not_isAlpha (h : c.isAlpha = false) : c.toLower = c := by
  apply Char.toLower_eq_of_not_isUpper
  rw [Char.isAlpha, Bool.or_eq_false_iff] at h
  simp [h.1]

theorem toNat_toUpper_lt (h : c.toNat < 128) : c.toUpper.toNat < 128 := by
  by_cases hl : c.isLower = true
  · have halpha : c.toUpper.isAlpha = true := by
      rw [Char.isAlpha_toUpper_eq_isAlpha, Char.isAlpha, hl, Bool.or_true]
    exact toNat_lt_of_isAlpha halpha
  · rwa [Char.toUpper_eq_of_not_isLower hl]

/-- Only letters have another case. -/
theorem eq_or_isAlpha_of_toLower_eq (h : c'.toLower = c.toLower) :
    c' = c ∨ c'.isAlpha = true ∧ c.isAlpha = true := by
  have halpha : c'.isAlpha = c.isAlpha := by
    rw [← Char.isAlpha_toLower_eq_isAlpha, h, Char.isAlpha_toLower_eq_isAlpha]
  cases hc : c.isAlpha with
  | true => exact .inr ⟨halpha.trans hc, rfl⟩
  | false =>
      rw [toLower_of_not_isAlpha hc, toLower_of_not_isAlpha (halpha.trans hc)] at h
      exact .inl h

end Chars

section Cases
variable {t : CaseTable}

theorem meetsCased_congr {l l' : List Char} (h : SameLetters l' l) :
    meetsCased t l' = meetsCased t l := by
  induction l generalizing l' with
  | nil =>
      rw [SameLetters, List.map_nil, List.map_eq_nil_iff] at h
      rw [h]
  | cons c rest ih =>
      cases l' with
      | nil => cases h
      | cons c' rest' =>
          rw [SameLetters, List.map_cons, List.map_cons, List.cons.injEq] at h
          have hrest := ih h.2
          rw [meetsCased, meetsCased, List.dropWhile_cons, List.dropWhile_cons]
          rcases eq_or_isAlpha_of_toLower_eq h.1 with rfl | ⟨hletter', hletter⟩
          · by_cases hskip : t.caseIgnorable c' = true
            · rw [if_pos hskip, if_pos hskip]
              exact hrest
            · rw [if_neg hskip, if_neg hskip]
              rfl
          · simp [t.caseIgnorable_letter _ hletter', t.caseIgnorable_letter _ hletter,
              t.cased_letter _ hletter', t.cased_letter _ hletter]

/-- The lowercase does not depend on the case of the letters of ASCII. -/
theorem lowerAfter_congr {before before' l l' : List Char} (hbefore : SameLetters before' before)
    (h : SameLetters l' l) : lowerAfter t before' l' = lowerAfter t before l := by
  induction l generalizing l' before before' with
  | nil =>
      rw [SameLetters, List.map_nil, List.map_eq_nil_iff] at h
      rw [h]
      rfl
  | cons c rest ih =>
      cases l' with
      | nil => cases h
      | cons c' rest' =>
          rw [SameLetters, List.map_cons, List.map_cons, List.cons.injEq] at h
          have himage : image t before' rest' c' = image t before rest c := by
            rw [image, image, meetsCased_congr hbefore, meetsCased_congr (t := t) h.2]
            rcases eq_or_isAlpha_of_toLower_eq h.1 with rfl | ⟨hletter', hletter⟩
            · rfl
            · have hno : ∀ x : Char, x.isAlpha = true → x ≠ 'Σ' := by
                intro x hx heq
                rw [heq] at hx
                exact absurd hx (by decide)
              rw [if_neg (hno c' hletter'), if_neg (hno c hletter),
                t.toLower_ascii c' (toNat_lt_of_isAlpha hletter'),
                t.toLower_ascii c (toNat_lt_of_isAlpha hletter), h.1]
          have hnext : SameLetters (c' :: before') (c :: before) := by
            rw [SameLetters, List.map_cons, List.map_cons, h.1, hbefore]
          rw [lowerAfter_cons, lowerAfter_cons, himage, ih hnext h.2]

theorem toLowercase_congr {l l' : List Char} (h : SameLetters l' l) :
    toLowercase t l' = toLowercase t l :=
  lowerAfter_congr rfl h

theorem image_ne_nil (before after : List Char) (c : Char) : image t before after c ≠ [] := by
  rw [image]
  by_cases hsigma : c = 'Σ'
  · rw [if_pos hsigma]
    exact List.cons_ne_nil _ _
  · rw [if_neg hsigma]
    exact t.toLower_ne_nil c

theorem image_mark (before after : List Char) {c : Char} (h : IsMark c) :
    image t before after c = [c] := by
  have hsigma : c ≠ 'Σ' := by
    intro heq
    rw [heq] at h
    exact absurd h (by decide)
  rw [image, if_neg hsigma, t.toLower_ascii c h.1, toLower_of_not_isAlpha h.2]

/-- A mark comes from itself alone. -/
theorem eq_of_mark_mem_image {before after : List Char} {c x : Char} (hmark : IsMark x)
    (hx : x ∈ image t before after c) : x = c := by
  rw [image] at hx
  by_cases hsigma : c = 'Σ'
  · rw [if_pos hsigma, List.mem_singleton] at hx
    have hsmall : x.toNat = 962 ∨ x.toNat = 963 := by
      rw [hx]
      split
      · exact .inl rfl
      · exact .inr rfl
    have hlt := hmark.1
    omega
  · rw [if_neg hsigma] at hx
    by_cases hascii : c.toNat < 128
    · rw [t.toLower_ascii c hascii, List.mem_singleton] at hx
      have hletter : c.isAlpha = false := by
        rw [← Char.isAlpha_toLower_eq_isAlpha, ← hx]
        exact hmark.2
      rw [hx, toLower_of_not_isAlpha hletter]
    · have hlower := t.toLower_other c (Nat.le_of_not_lt hascii) x hx hmark.1
      have hno := hmark.2
      rw [Char.isAlpha, hlower, Bool.or_true] at hno
      cases hno

theorem toLowercase_eq_nil_iff {l : List Char} : toLowercase t l = [] ↔ l = [] := by
  cases l with
  | nil => simp [toLowercase]
  | cons c rest => simp [toLowercase, lowerAfter_cons, image_ne_nil]

/-- A mark at the start. -/
theorem head?_toLowercase {l : List Char} {x : Char} (hmark : IsMark x) :
    (toLowercase t l).head? = some x ↔ l.head? = some x := by
  cases l with
  | nil => simp [toLowercase]
  | cons c rest =>
      rw [toLowercase, lowerAfter_cons, List.head?_append_of_ne_nil _ (image_ne_nil _ _ _),
        List.head?_cons, Option.some.injEq]
      constructor
      · intro hhead
        exact (eq_of_mark_mem_image hmark (List.mem_of_mem_head? hhead)).symm
      · intro hc
        rw [hc, image_mark _ _ hmark]
        rfl

theorem lowerAfter_append_singleton (before l : List Char) (c : Char) :
    ∃ front, lowerAfter t before (l ++ [c]) = front ++ image t (l.reverse ++ before) [] c := by
  induction l generalizing before with
  | nil => exact ⟨[], by simp [lowerAfter_cons]⟩
  | cons d rest ih =>
      obtain ⟨front, hfront⟩ := ih (d :: before)
      refine ⟨image t before (rest ++ [c]) d ++ front, ?_⟩
      rw [List.cons_append, lowerAfter_cons, hfront, List.append_assoc, List.reverse_cons,
        List.append_assoc]
      rfl

/-- A mark at the end. -/
theorem getLast?_toLowercase {l : List Char} {x : Char} (hmark : IsMark x) :
    (toLowercase t l).getLast? = some x ↔ l.getLast? = some x := by
  rcases List.eq_nil_or_concat l with rfl | ⟨rest, c, rfl⟩
  · simp [toLowercase]
  · obtain ⟨front, hfront⟩ := @lowerAfter_append_singleton t [] rest c
    rw [toLowercase, List.concat_eq_append, hfront,
      List.getLast?_append_of_ne_nil _ (image_ne_nil _ _ _), List.getLast?_append_of_ne_nil _
        (List.cons_ne_nil c []), List.getLast?_singleton, Option.some.injEq]
    constructor
    · intro hlast
      exact (eq_of_mark_mem_image hmark (List.mem_of_getLast? hlast)).symm
    · intro hc
      rw [hc, image_mark _ _ hmark]
      rfl

end Cases

/-! ## Both cases -/

/-- The sign of the kelvin. Its lowercase is a letter of ASCII. -/
def kelvin : Char := Char.ofNat 0x212A

/-- The tables of both cases. No character outside ASCII but the sign of the kelvin has a lowercase
of ASCII characters only. -/
structure CasePair extends CaseTable where
  toUpper : Char → List Char
  toLower_kelvin : toLower kelvin = ['k']
  toLower_foreign : ∀ c, 128 ≤ c.toNat → c ≠ kelvin → ∃ x ∈ toLower c, 128 ≤ x.toNat
  toUpper_ascii : ∀ c, c.toNat < 128 → toUpper c = [c.toUpper]
  toUpper_kelvin : toUpper kelvin = [kelvin]

/-- An uppercase does not depend on what stands around. -/
def toUppercase (t : CasePair) (l : List Char) : List Char := l.flatMap t.toUpper

/-- A character of ASCII or the sign of the kelvin. -/
def IsPlain (c : Char) : Prop := c.toNat < 128 ∨ c = kelvin

instance : DecidablePred IsPlain := by
  unfold IsPlain
  infer_instance

def plainLower (c : Char) : Char := if c = kelvin then 'k' else c.toLower

def plainUpper (c : Char) : Char := if c = kelvin then c else c.toUpper

section Plain
variable {t : CasePair}

theorem ne_kelvin_of_ascii {c : Char} (h : c.toNat < 128) : c ≠ kelvin := by
  intro heq
  rw [heq] at h
  exact absurd h (by decide)

theorem image_plain (before after : List Char) {c : Char} (h : IsPlain c) :
    image t.toCaseTable before after c = [plainLower c] := by
  have hsigma : c ≠ 'Σ' := by
    intro heq
    rw [heq] at h
    exact absurd h (by decide)
  rw [image, if_neg hsigma, plainLower]
  cases h with
  | inl hascii => rw [t.toLower_ascii c hascii, if_neg (ne_kelvin_of_ascii hascii)]
  | inr hkelvin => rw [hkelvin, t.toLower_kelvin, if_pos rfl]

theorem lowerAfter_plain {l : List Char} (before : List Char) (h : ∀ c ∈ l, IsPlain c) :
    lowerAfter t.toCaseTable before l = l.map plainLower := by
  induction l generalizing before with
  | nil => rfl
  | cons c rest ih =>
      rw [List.forall_mem_cons] at h
      rw [lowerAfter_cons, image_plain _ _ h.1, ih _ h.2]
      rfl

theorem toLowercase_plain {l : List Char} (h : ∀ c ∈ l, IsPlain c) :
    toLowercase t.toCaseTable l = l.map plainLower := lowerAfter_plain [] h

/-- What is lowered to ASCII is plain. -/
theorem isPlain_of_lowerAfter {l : List Char} {before : List Char}
    (h : ∀ x ∈ lowerAfter t.toCaseTable before l, x.toNat < 128) : ∀ c ∈ l, IsPlain c := by
  induction l generalizing before with
  | nil => simp
  | cons c rest ih =>
      rw [lowerAfter_cons, List.forall_mem_append] at h
      rw [List.forall_mem_cons]
      refine ⟨?_, ih h.2⟩
      by_contra hnot
      rw [IsPlain, not_or, Nat.not_lt] at hnot
      have himage := h.1
      rw [image] at himage
      by_cases hsigma : c = 'Σ'
      · rw [if_pos hsigma, List.forall_mem_singleton] at himage
        split at himage
        · exact absurd himage (by decide)
        · exact absurd himage (by decide)
      · rw [if_neg hsigma] at himage
        obtain ⟨x, hx, hforeign⟩ := t.toLower_foreign c hnot.1 hnot.2
        have hascii := himage x hx
        omega

theorem toUppercase_plain {l : List Char} (h : ∀ c ∈ l, IsPlain c) :
    toUppercase t l = l.map plainUpper := by
  induction l with
  | nil => rfl
  | cons c rest ih =>
      rw [List.forall_mem_cons] at h
      have hc : t.toUpper c = [plainUpper c] := by
        rw [plainUpper]
        cases h.1 with
        | inl hascii => rw [t.toUpper_ascii c hascii, if_neg (ne_kelvin_of_ascii hascii)]
        | inr hkelvin => rw [if_pos hkelvin, hkelvin, t.toUpper_kelvin]
      rw [toUppercase, List.flatMap_cons, hc, ← toUppercase, ih h.2]
      rfl

theorem toLowercase_ascii {l : List Char} (h : ∀ c ∈ l, c.toNat < 128) :
    toLowercase t.toCaseTable l = l.map Char.toLower := by
  rw [toLowercase_plain fun c hc => .inl (h c hc)]
  refine List.map_congr_left ?_
  intro c hc
  rw [plainLower, if_neg (ne_kelvin_of_ascii (h c hc))]

end Plain

/-- The letter for the sign of the kelvin. -/
def unkelvin (c : Char) : Char := if c = kelvin then 'K' else c

theorem unkelvin_of_ne {c : Char} (h : c ≠ kelvin) : unkelvin c = c := if_neg h

/-- What an uppercase is read for: the letter itself, and a `K` also by the sign of the kelvin. -/
theorem unkelvin_eq_toUpper_iff {c x : Char} (hascii : x.toNat < 128) (hx : x.isUpper = false) :
    unkelvin c = x.toUpper ↔ IsPlain c ∧ plainLower c = x ∧ plainUpper c = c := by
  have hlower : x.toLower = x := Char.toLower_eq_of_not_isUpper (by simp [hx])
  rw [unkelvin, plainLower, plainUpper]
  by_cases hc : c = kelvin
  · rw [if_pos hc, if_pos hc, if_pos hc]
    constructor
    · intro h
      refine ⟨.inr hc, ?_, rfl⟩
      rw [← hlower, ← Char.toLower_toUpper_eq_toLower, ← h]
      rfl
    · rintro ⟨-, hk, -⟩
      rw [← hk]
      rfl
  · rw [if_neg hc, if_neg hc, if_neg hc]
    constructor
    · intro h
      refine ⟨.inl (by rw [h]; exact toNat_toUpper_lt hascii), ?_, ?_⟩
      · rw [h, Char.toLower_toUpper_eq_toLower, hlower]
      · rw [h, Char.toUpper_toUpper_eq_toUpper]
    · rintro ⟨-, hk, hup⟩
      rw [← hk, Char.toUpper_toLower_eq_toUpper, hup]

/-! ## The smallest tables -/

/-- The tables of ASCII and of the sign of the kelvin. Every other character stays. -/
def asciiCase : CasePair where
  toLower c := if c.toNat < 128 then [c.toLower] else if c = kelvin then ['k'] else [c]
  toUpper c := if c.toNat < 128 then [c.toUpper] else [c]
  cased c := c.isAlpha
  caseIgnorable _ := false
  toLower_ascii c h := if_pos h
  toLower_ne_nil c := by
    by_cases hlt : c.toNat < 128
    · simp [hlt]
    · rw [if_neg hlt]
      split
      · exact List.cons_ne_nil _ _
      · exact List.cons_ne_nil _ _
  toLower_other c h x hx hlt := by
    rw [if_neg (by omega)] at hx
    by_cases hk : c = kelvin
    · rw [if_pos hk, List.mem_singleton] at hx
      rw [hx]
      rfl
    · rw [if_neg hk, List.mem_singleton] at hx
      rw [hx] at hlt
      omega
  cased_letter c h := h
  caseIgnorable_letter c h := rfl
  toLower_kelvin := by decide
  toLower_foreign c h hne := by
    rw [if_neg (by omega), if_neg hne]
    exact ⟨c, List.mem_singleton_self c, h⟩
  toUpper_ascii c h := if_pos h
  toUpper_kelvin := by decide

end Lowercase
