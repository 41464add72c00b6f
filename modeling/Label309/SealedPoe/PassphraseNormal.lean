import Label309.Lib.Words
import Label309.SealedPoe.PassphraseRoundTrip
import Label309.Text.Nfkc16Normal

/-!
# A normalized passphrase

White space stands by itself under the pinned tables: nothing is composed with it or ordered across
it. So the words of a text are composed one by one, and joined by one space each they are
normalized again. Only the bound on the input can refuse them, when the text has grown beyond it.
-/
namespace Label309
open Words CanonicalOrder

/-! ## The pinned tables -/

/-- At least four digits, in uppercase. -/
def upperHex4 (n : ℕ) : String :=
  let digits := (Nat.toDigits 16 n).map Char.toUpper
  String.ofList (List.replicate (4 - digits.length) '0' ++ digits)

/-- The text that the error displays. -/
def Nfkc16Error.display : Nfkc16Error → String
  | .unassignedCodePoint cp =>
      "UNASSIGNED_CODEPOINT: code point U+" ++ upperHex4 cp ++ " is not assigned in Unicode 16.0.0"
  | .notScalar => "pinned NFKC tables only produce Unicode scalar values"

/-- The password hash with the normalization of the pinned tables. -/
def PassphrasePrimitives.pinned (kdf : PassphrasePrimitives) (t : Nfkc16Tables) :
    PassphrasePrimitives :=
  { kdf with nfkc16 := fun s => (Label309.nfkc16 t s).mapError Nfkc16Error.display }

def isWhiteSpaceCodePoint (cp : ℕ) : Bool := decide (cp ∈ unicodeWhiteSpace)

/-- What the pinned data says of white space: it has class zero, is in no pair and no composite, and
the space is an assigned character of its own. -/
structure Nfkc16Tables.WhiteSpaceInert (t : Nfkc16Tables) : Prop where
  starters : ∀ w ∈ unicodeWhiteSpace, cccOf t w = 0
  first : ∀ w ∈ unicodeWhiteSpace, ∀ b, t.composition (w, b) = none
  second : ∀ w ∈ unicodeWhiteSpace, ∀ a, t.composition (a, w) = none
  composites : ∀ a b c, t.composition (a, b) = some c → c ∉ unicodeWhiteSpace
  space : t.decomposition 0x20 = none ∧ inRanges t.assigned 0x20 = true

/-! ## Composition between white space -/

section Inert
variable {t : Nfkc16Tables} (inert : t.WhiteSpaceInert)

theorem not_hangul_of_whiteSpace : ∀ w ∈ unicodeWhiteSpace, ¬ IsHangulLeading w ∧
    ¬ IsHangulVowel w ∧ ¬ IsHangulTrailing w ∧ ¬ IsHangulSyllable w := by
  decide

include inert

theorem composePair_whiteSpace {w : ℕ} (hw : w ∈ unicodeWhiteSpace) (b : ℕ) :
    composePair t w b = none ∧ composePair t b w = none := by
  obtain ⟨hleading, hvowel, htrailing, hsyllable⟩ := not_hangul_of_whiteSpace w hw
  rw [composePair, if_neg fun h => hleading h.1, if_neg fun h => hsyllable h.1, composePair,
    if_neg fun h => hvowel h.2, if_neg fun h => htrailing h.2.2]
  exact ⟨inert.first w hw b, inert.second w hw b⟩

/-- No composite is white space. -/
theorem not_whiteSpace_of_composePair {a b c : ℕ} (h : composePair t a b = some c) :
    isWhiteSpaceCodePoint c = false := by
  have hne : ∀ cp, hangulSBase ≤ cp → cp ∉ unicodeWhiteSpace := by
    intro cp hcp hmem
    have hle : ∀ w ∈ unicodeWhiteSpace, w < hangulSBase := by decide
    have := hle cp hmem
    omega
  rw [isWhiteSpaceCodePoint, decide_eq_false_iff_not]
  rw [composePair] at h
  split_ifs at h with hvowel htrailing
  · rw [Option.some.injEq] at h
    exact hne c (by omega)
  · rw [Option.some.injEq] at h
    exact hne c (by have := htrailing.1.1; omega)
  · exact inert.composites a b c h

omit inert in
theorem mem_of_isWhiteSpaceCodePoint {w : ℕ} (h : isWhiteSpaceCodePoint w = true) :
    w ∈ unicodeWhiteSpace := by
  simpa [isWhiteSpaceCodePoint] using h

end Inert

/-- A state of the composition, behind what ends in white space. -/
def Composing.behind (front : List ℕ) (st : Composing) : Composing where
  out := front ++ st.out
  starterIdx := some (st.starterIdx.elim (front.length - 1) (front.length + ·))
  lastCcc := st.lastCcc

/-- The place of a starter is one of those that were composed. -/
def Composing.Placed (st : Composing) : Prop := ∀ idx ∈ st.starterIdx, idx < st.out.length

section Compose
variable {t : Nfkc16Tables} {st : Composing} {b w : ℕ}

theorem placed_composeStep (h : st.Placed) : (composeStep t st b).Placed := by
  rw [composeStep]
  cases st.composite t b with
  | some place => simpa [Composing.Placed] using h
  | none =>
      intro idx hidx
      by_cases hclass : cccOf t b = 0
      · simp only [hclass, if_true, Option.mem_some_iff] at hidx
        simp [← hidx]
      · simp only [hclass, if_false] at hidx
        have := h idx hidx
        simp only [List.length_append, List.length_singleton]
        omega

theorem composite_behind (hpair : ∀ b, composePair t w b = none) (front : List ℕ) (h : st.Placed) :
    (st.behind (front ++ [w])).composite t b =
      (st.composite t b).map fun place => (front.length + 1 + place.1, place.2) := by
  obtain ⟨out, starterIdx, lastCcc⟩ := st
  cases starterIdx with
  | none =>
      simp only [Composing.composite, Composing.behind, Option.elim_none, Option.bind_eq_bind,
        Option.bind_some, Option.bind_none, Option.map_none, List.length_append,
        List.length_singleton, Nat.add_sub_cancel]
      split_ifs
      · simp [hpair]
      · rfl
  | some idx =>
      have hidx : idx < out.length := h idx rfl
      have hplace : (front ++ [w] ++ out)[(front ++ [w]).length + idx]? = out[idx]? := by
        rw [List.getElem?_append_right (by omega), Nat.add_sub_cancel_left]
      have hlast : ((front ++ [w]).length + idx = (front ++ [w] ++ out).length - 1) ↔
          idx = out.length - 1 := by
        simp only [List.length_append, List.length_singleton]
        omega
      simp only [Composing.composite, Composing.behind, Option.elim_some, Option.bind_eq_bind,
        Option.bind_some, hplace, hlast]
      split_ifs
      · simp [Option.map_bind]
      · rfl

theorem composeStep_behind (hpair : ∀ b, composePair t w b = none) (front : List ℕ)
    (h : st.Placed) : composeStep t (st.behind (front ++ [w])) b =
      (composeStep t st b).behind (front ++ [w]) := by
  rw [composeStep, composite_behind hpair front h, composeStep]
  cases hplace : st.composite t b with
  | some place =>
      simp only [Option.map_some, Composing.behind]
      rw [List.set_append_right _ _ (by simp)]
      simp
  | none =>
      simp only [Option.map_none, Composing.behind]
      by_cases hclass : cccOf t b = 0
      · simp only [hclass, if_true, Option.elim_some, List.length_append, List.append_assoc,
          Nat.add_assoc]
      · simp [hclass]

/-- **A run** behind white space does not see what is before it. -/
theorem foldl_behind (hpair : ∀ b, composePair t w b = none) (front ys : List ℕ) (h : st.Placed) :
    ys.foldl (composeStep t) (st.behind (front ++ [w])) =
      (ys.foldl (composeStep t) st).behind (front ++ [w]) := by
  induction ys generalizing st with
  | nil => rfl
  | cons b ys ih => rw [List.foldl_cons, List.foldl_cons, composeStep_behind hpair front h,
      ih (placed_composeStep h)]

end Compose

section Words
variable {t : Nfkc16Tables} (inert : t.WhiteSpaceInert)
include inert

/-- A text is composed on both sides of white space by itself. -/
theorem compose_append_cons {w : ℕ} (hw : w ∈ unicodeWhiteSpace) (xs ys : List ℕ) :
    compose t (xs ++ w :: ys) = compose t xs ++ w :: compose t ys := by
  obtain ⟨st, hst⟩ : ∃ st, st = xs.foldl (composeStep t) ⟨[], none, 0⟩ := ⟨_, rfl⟩
  have hnone : st.composite t w = none := by
    cases hplace : st.composite t w with
    | none => rfl
    | some place =>
        obtain ⟨starter, hpair⟩ := exists_composePair hplace
        rw [(composePair_whiteSpace inert hw starter).2] at hpair
        cases hpair
  have hpushed : composeStep t st w = Composing.behind (st.out ++ [w]) ⟨[], none, 0⟩ := by
    rw [composeStep, hnone, inert.starters w hw]
    simp [Composing.behind]
  have hplaced : Composing.Placed ⟨[], none, 0⟩ := by simp [Composing.Placed]
  rw [compose, compose, compose, List.foldl_append, List.foldl_cons, ← hst, hpushed,
    foldl_behind (fun b => (composePair_whiteSpace inert hw b).1) st.out ys hplaced]
  simp [Composing.behind]

omit inert in
theorem compose_ne_nil {xs : List ℕ} (hne : xs ≠ []) : compose t xs ≠ [] := by
  have hstep : ∀ (st : Composing) b, (composeStep t st b).out ≠ [] := by
    intro st b
    rw [composeStep]
    cases hplace : st.composite t b with
    | none => simp
    | some place =>
        intro hnil
        have hout : st.out = [] := by simpa using hnil
        simp [Composing.composite, hout] at hplace
  rw [← List.dropLast_append_getLast hne, compose, List.foldl_append]
  exact hstep _ _

theorem wordwise_compose : Wordwise isWhiteSpaceCodePoint (compose t) where
  nil := rfl
  cut xs _ ys hc := compose_append_cons inert (mem_of_isWhiteSpaceCodePoint hc) xs ys
  word _ hw :=
    { ne_nil := compose_ne_nil hw.ne_nil
      free := forall_compose (fun _ _ _ hpair => not_whiteSpace_of_composePair inert hpair) hw.free }

omit inert in
theorem ordered_unwords {sp : ℕ} {ws : List (List ℕ)} (hsp : cccOf t sp = 0)
    (hws : ∀ w ∈ ws, Ordered (cccOf t) w) : Ordered (cccOf t) (unwords sp ws) := by
  induction ws with
  | nil => exact .nil
  | cons w ws ih =>
      rw [List.forall_mem_cons] at hws
      cases ws with
      | nil => simpa using hws.1
      | cons w' ws =>
          rw [unwords_cons_cons]
          refine List.isChain_append.mpr ⟨hws.1, (ih hws.2).cons ?_, ?_⟩
          · intro n _ _
            rw [hsp]
            exact Nat.zero_le _
          · intro p _ n hn hne
            simp only [List.head?_cons, Option.mem_some_iff] at hn
            rw [← hn] at hne
            exact absurd hsp hne

/-- **The words of a normalized text**, joined, are normalized. -/
theorem normalizeCodePoints_unwords (wf : t.WellFormed) (cps : List ℕ) :
    normalizeCodePoints t
        (unwords 0x20 (words isWhiteSpaceCodePoint (normalizeCodePoints t cps))) =
      unwords 0x20 (words isWhiteSpaceCodePoint (normalizeCodePoints t cps)) := by
  have hspace : isWhiteSpaceCodePoint 0x20 = true := by decide
  have hdecomposed := isDecomposed_reordered wf cps
  have horder : Ordered (cccOf t) (canonicalReorder t (decompose t cps)) := ordered_reorder _
  have hwords := wordwise_compose inert
  have hcomposed : normalizeCodePoints t cps =
      compose t (canonicalReorder t (decompose t cps)) := rfl
  rw [hcomposed, hwords.words, ← hwords.unwords hspace]
  refine normalizeCodePoints_compose wf ?_ (ordered_unwords (inert.starters 0x20 (by decide)) ?_)
  · intro x hx
    rcases mem_unwords hx with rfl | ⟨w, hw, hxw⟩
    · exact isDecomposed_of_none (by decide) inert.space.1
    · exact hdecomposed x ((mem_words hw).2.subset hxw)
  · intro w hw
    exact List.IsChain.infix horder (mem_words hw).2

end Words

/-! ## The collapse and the trim -/

section Trim
variable {lead tail u cs : List Char}

theorem collapseRuns_free (hfree : Free isWhiteSpace16 u) (inRun : Bool) (rest : List Char) :
    collapseRuns inRun (u ++ rest) = u ++ collapseRuns (inRun && u.isEmpty) rest := by
  induction u generalizing inRun with
  | nil => simp
  | cons c u ih =>
      have hcons := List.forall_mem_cons.mp hfree
      rw [List.cons_append, collapseRuns, if_neg (by simp [hcons.1]), ih hcons.2]
      simp

/-- At most one space. -/
def IsMargin (margin : List Char) : Prop := margin = [] ∨ margin = [' ']

/-- Behind white space, the words and at most one space after them are left. -/
theorem collapseRuns_true (cs : List Char) : ∃ tail, IsMargin tail ∧
    collapseRuns true cs = unwords ' ' (words isWhiteSpace16 cs) ++ tail ∧
      (words isWhiteSpace16 cs = [] → tail = []) := by
  induction cs using space_induction isWhiteSpace16 with
  | free xs hfree =>
      refine ⟨[], .inl rfl, ?_, fun _ => rfl⟩
      have hself := collapseRuns_free hfree true []
      rw [List.append_nil, collapseRuns, List.append_nil] at hself
      by_cases hxs : xs = []
      · simp [hxs, collapseRuns]
      · simp [hself, words_of_isWord ⟨hxs, hfree⟩]
  | space xs c ys hfree hc ih =>
      obtain ⟨tail, htail, hcollapse, hnil⟩ := ih
      rw [collapseRuns_free hfree, words_append_cons hc]
      by_cases hxs : xs = []
      · refine ⟨tail, htail, ?_, by simpa [hxs] using hnil⟩
        simp [hxs, collapseRuns, hc, hcollapse]
      · rw [words_of_isWord ⟨hxs, hfree⟩]
        have hempty : xs.isEmpty = false := by simpa using hxs
        rw [hempty, Bool.and_false, collapseRuns, if_pos hc, if_neg (by simp), hcollapse]
        cases hws : words isWhiteSpace16 ys with
        | nil => exact ⟨[' '], .inr rfl, by simp [hnil hws], by simp⟩
        | cons w ws => exact ⟨tail, htail, by simp [unwords_cons_cons], by simp⟩

theorem collapseRuns_false (cs : List Char) :
    ∃ lead, IsMargin lead ∧ collapseRuns false cs = lead ++ collapseRuns true cs := by
  cases cs with
  | nil => exact ⟨[], .inl rfl, rfl⟩
  | cons c cs =>
      by_cases hc : isWhiteSpace16 c = true
      · exact ⟨[' '], .inr rfl, by simp [collapseRuns, hc]⟩
      · exact ⟨[], .inl rfl, by simp [collapseRuns, hc]⟩

theorem stripLeadingSpace_append (hlead : IsMargin lead) (hu : ' ' ∉ u.head?) :
    stripLeadingSpace (lead ++ u) = u := by
  rcases hlead with rfl | rfl
  · cases u with
    | nil => rfl
    | cons c u =>
        have hc : c ≠ ' ' := by simpa [eq_comm] using hu
        rw [List.nil_append, stripLeadingSpace]
        intro rest hcons
        exact hc (List.cons.inj hcons).1
  · rfl

/-- **The collapsed and trimmed text** is its words, with one space between. -/
theorem trimSpaces_collapseRuns (cs : List Char) :
    trimSpaces (collapseRuns false cs) = unwords ' ' (words isWhiteSpace16 cs) := by
  obtain ⟨lead, hlead, hfalse⟩ := collapseRuns_false cs
  obtain ⟨tail, htail, htrue, hnil⟩ := collapseRuns_true cs
  have hwords : ∀ w ∈ words isWhiteSpace16 cs, IsWord isWhiteSpace16 w :=
    fun w hw => (mem_words hw).1
  have hclean : ∀ front rest, unwords ' ' (words isWhiteSpace16 cs) ≠ front ++ ' ' :: rest ∨
      front ≠ [] ∧ rest ≠ [] := by
    intro front rest
    refine or_iff_not_imp_left.mpr fun hcut => ?_
    obtain ⟨-, ⟨p, hp, -⟩, n, hn, -⟩ := space_of_unwords hwords (not_not.mp hcut) (by decide)
    constructor
    · rintro rfl
      cases hp
    · rintro rfl
      cases hn
  have hhead : ' ' ∉ (unwords ' ' (words isWhiteSpace16 cs) ++ tail).head? := by
    intro hmem
    cases hu : unwords ' ' (words isWhiteSpace16 cs) with
    | nil =>
        have hnone : words isWhiteSpace16 cs = [] := by
          by_contra hne
          exact unwords_ne_nil hwords hne hu
        rw [hu, hnil hnone] at hmem
        cases hmem
    | cons c u =>
        rw [hu, List.cons_append, List.head?_cons, Option.mem_some_iff] at hmem
        rcases hclean [] u with hne | hne
        · exact hne (by rw [hu, hmem]; rfl)
        · exact hne.1 rfl
  have hlast : ' ' ∉ (unwords ' ' (words isWhiteSpace16 cs)).reverse.head? := by
    intro hmem
    cases hu : (unwords ' ' (words isWhiteSpace16 cs)).reverse with
    | nil =>
        rw [hu] at hmem
        cases hmem
    | cons c u =>
        rw [hu, List.head?_cons, Option.mem_some_iff] at hmem
        rcases hclean u.reverse [] with hne | hne
        · exact hne (by rw [← List.reverse_reverse (unwords _ _), hu, hmem]; simp)
        · exact hne.2 rfl
  have htail' : IsMargin tail.reverse := by
    rcases htail with rfl | rfl
    · exact .inl rfl
    · exact .inr rfl
  rw [hfalse, htrue, trimSpaces, stripLeadingSpace_append hlead hhead, List.reverse_append,
    stripLeadingSpace_append htail' hlast, List.reverse_reverse]

end Trim

/-! ## Passphrases -/

/-- White space stands only as single spaces between other characters. -/
def IsClean (cs : List Char) : Prop :=
  cs ≠ [] ∧ ∀ (front rest : List Char) (c : Char), cs = front ++ c :: rest →
    isWhiteSpace16 c = true → c = ' ' ∧ (∃ p ∈ front.getLast?, isWhiteSpace16 p = false) ∧
      ∃ n ∈ rest.head?, isWhiteSpace16 n = false

section Passphrase
variable {t : Nfkc16Tables} {kdf : PassphrasePrimitives} {s q r : String}

/-- A passphrase is normalized to the words of its normal form. -/
theorem normalizePassphrase_eq_ok_iff :
    normalizePassphrase (kdf.pinned t) s = .ok q ↔
      (utf8Bytes s).length ≤ maxPassphraseInputBytes ∧ ∃ r, nfkc16 t s = .ok r ∧
        q.toList = unwords ' ' (words isWhiteSpace16 r.toList) ∧ q.toList ≠ [] := by
  rw [normalizePassphrase]
  by_cases hlong : maxPassphraseInputBytes < (utf8Bytes s).length
  · rw [if_pos hlong]
    simp [Nat.not_le.mpr hlong]
  · rw [if_neg hlong, and_iff_right (Nat.not_lt.mp hlong)]
    cases hr : nfkc16 t s with
    | error e => simp [PassphrasePrimitives.pinned, hr, Except.mapError]
    | ok r =>
        simp only [PassphrasePrimitives.pinned, hr, Except.mapError, trimSpaces_collapseRuns,
          Except.ok.injEq, exists_eq_left', List.isEmpty_iff]
        by_cases hempty : unwords ' ' (words isWhiteSpace16 r.toList) = []
        · simp [hempty]
        · rw [if_neg hempty, Except.ok.injEq, ← String.toList_inj, String.toList_ofList]
          constructor
          · intro h
            exact ⟨h.symm, by rwa [← h]⟩
          · exact fun h => h.1.symm

theorem isClean_unwords {cs : List Char} (hne : q.toList ≠ [])
    (hq : q.toList = unwords ' ' (words isWhiteSpace16 cs)) : IsClean q.toList := by
  refine ⟨hne, fun front rest c hcut hc => ?_⟩
  rw [hq] at hcut
  exact space_of_unwords (fun w hw => (mem_words hw).1) hcut hc

theorem map_toNat_unwords {cs : List Char} :
    (unwords ' ' (words isWhiteSpace16 cs)).map Char.toNat =
      unwords 0x20 (words isWhiteSpaceCodePoint (cs.map Char.toNat)) := by
  have hpredicate : isWhiteSpaceCodePoint ∘ Char.toNat = isWhiteSpace16 := rfl
  rw [map_unwords, words_map, hpredicate]
  rfl

/-- The words of a normalized text are normalized. -/
theorem nfkc16_unwords (wf : t.WellFormed) (inert : t.WhiteSpaceInert) (hr : nfkc16 t s = .ok r)
    (hq : q.toList = unwords ' ' (words isWhiteSpace16 r.toList)) : nfkc16 t q = .ok q := by
  obtain ⟨hassigned, hnormal⟩ := nfkc16_eq_ok_iff.mp hr
  rw [nfkc16_eq_ok_iff]
  constructor
  · intro c hc
    rw [hq] at hc
    rcases mem_unwords hc with rfl | ⟨w, hw, hcw⟩
    · exact inert.space.2
    · have hmem := List.mem_map_of_mem (f := Char.toNat) ((mem_words hw).2.subset hcw)
      rw [hnormal] at hmem
      refine assigned_normalizeCodePoints wf ?_ _ hmem
      simpa using hassigned
  · rw [hq, map_toNat_unwords, hnormal, normalizeCodePoints_unwords inert wf]

theorem normalizePassphrase_too_long (h : maxPassphraseInputBytes < (utf8Bytes q).length) :
    ∃ e, normalizePassphrase kdf q = .error e ∧ e.code = .passphraseInputTooLong := by
  rw [normalizePassphrase, if_pos h]
  exact ⟨_, rfl, rfl⟩

/-- Passphrases that are normalized alike seal and open alike. -/
theorem sealedPoe_congr (h : normalizePassphrase kdf q = normalizePassphrase kdf s)
    (crypto : SealedPrimitives) :
    (∀ args : PassphraseSealArgs,
      passphraseSealedPoeSeal kdf crypto { args with passphrase := q } =
        passphraseSealedPoeSeal kdf crypto { args with passphrase := s }) ∧
    ∀ args : PassphraseOpenArgs,
      passphraseSealedPoeOpen kdf crypto { args with passphrase := q } =
        passphraseSealedPoeOpen kdf crypto { args with passphrase := s } := by
  constructor
  · intro args
    simp only [passphraseSealedPoeSeal, h]
  · intro args
    simp only [passphraseSealedPoeOpen, openPassphraseBlob, h]

/-- **A normalized passphrase is clean**, and it is left alone and stands for the passphrase that it
comes from, unless it has grown beyond the bound on the input. -/
theorem normalizePassphrase_clean (t : Nfkc16Tables) (wf : t.WellFormed)
    (inert : t.WhiteSpaceInert) (kdf : PassphrasePrimitives) (s q : String)
    (h : normalizePassphrase (kdf.pinned t) s = .ok q) :
    IsClean q.toList ∧
    ((utf8Bytes q).length ≤ maxPassphraseInputBytes →
      normalizePassphrase (kdf.pinned t) q = .ok q ∧
      ∀ crypto : SealedPrimitives,
        (∀ args : PassphraseSealArgs,
          passphraseSealedPoeSeal (kdf.pinned t) crypto { args with passphrase := q } =
            passphraseSealedPoeSeal (kdf.pinned t) crypto { args with passphrase := s }) ∧
        ∀ args : PassphraseOpenArgs,
          passphraseSealedPoeOpen (kdf.pinned t) crypto { args with passphrase := q } =
            passphraseSealedPoeOpen (kdf.pinned t) crypto { args with passphrase := s }) ∧
    (maxPassphraseInputBytes < (utf8Bytes q).length →
      ∃ e, normalizePassphrase (kdf.pinned t) q = .error e ∧ e.code = .passphraseInputTooLong) := by
  obtain ⟨-, r, hr, hq, hne⟩ := normalizePassphrase_eq_ok_iff.mp h
  refine ⟨isClean_unwords hne hq, ?_, normalizePassphrase_too_long⟩
  intro hshort
  have hself : words isWhiteSpace16 q.toList = words isWhiteSpace16 r.toList := by
    rw [hq, words_unwords (by decide) fun w hw => (mem_words hw).1]
  have hagain : normalizePassphrase (kdf.pinned t) q = .ok q := by
    refine normalizePassphrase_eq_ok_iff.mpr ⟨hshort, q, nfkc16_unwords wf inert hr hq, ?_, hne⟩
    rw [hself, hq]
  exact ⟨hagain, sealedPoe_congr (hagain.trans h.symm)⟩

end Passphrase

/-! ## Six letters in one -/

def kilometer : List Char := ['キ', 'ロ', 'メ', 'ー', 'ト', 'ル']

/-- The data of the square `㌖`. -/
def kilometerTables : Nfkc16Tables where
  decomposition cp := if cp = 0x3316 then some (kilometer.map Char.toNat) else none
  ccc _ := none
  composition _ := none
  assigned := [(0, 0x377), (0x10D0, 0x1248), (0x3099, 0x30FF), (0x3220, 0xA48C), (0xAC00, 0xD7A3)]

theorem kilometerTables_listed {cp : ℕ} {mapped : List ℕ}
    (h : kilometerTables.decomposition cp = some mapped) :
    cp = 0x3316 ∧ mapped = kilometer.map Char.toNat := by
  simpa [kilometerTables, eq_comm] using h

theorem kilometerTables_hangul {cp : ℕ}
    (h : (0x1100 ≤ cp ∧ cp < 0x1200) ∨ (0xAC00 ≤ cp ∧ cp ≤ 0xD7A3)) :
    inRanges kilometerTables.assigned cp = true ∧ kilometerTables.decomposition cp = none := by
  constructor
  · simp only [inRanges, kilometerTables, List.any_cons, List.any_nil, Bool.or_eq_true,
      Bool.and_eq_true, decide_eq_true_eq]
    omega
  · simp only [kilometerTables, if_neg (show ¬ cp = 0x3316 by omega)]

theorem wellFormed_kilometerTables : kilometerTables.WellFormed where
  scalar cp mapped h := by
    rw [(kilometerTables_listed h).2]
    decide
  assigned cp mapped h := by
    rw [(kilometerTables_listed h).2]
    decide
  decomposed cp mapped h := by
    rw [(kilometerTables_listed h).2]
    decide
  marks cp mapped h hclass := absurd rfl hclass
  composites a b c h := by cases h
  syllables cp h := by
    simp only [IsHangulSyllable, hangulSBase, hangulSCount, hangulLCount, hangulNCount,
      hangulVCount, hangulTCount] at h
    exact ⟨(kilometerTables_hangul (.inr (by omega))).1, rfl⟩
  jamo cp h := by
    simp only [IsHangulLeading, IsHangulVowel, IsHangulTrailing, hangulLBase, hangulVBase,
      hangulTBase, hangulLCount, hangulVCount, hangulTCount] at h
    have hnone := @kilometerTables_hangul cp (.inl (by omega))
    exact ⟨hnone.1, rfl, hnone.2⟩

theorem whiteSpaceInert_kilometerTables : kilometerTables.WhiteSpaceInert where
  starters _ _ := rfl
  first _ _ _ := rfl
  second _ _ _ := rfl
  composites _ _ _ h := by cases h
  space := by decide

/-- The space and the tab are one space between the letters. -/
theorem normalizePassphrase_clean_tab :
    IsClean "a b".toList ∧
      normalizePassphrase (laneKdf.pinned kilometerTables) "a b" = .ok "a b" := by
  have hclean := normalizePassphrase_clean kilometerTables wellFormed_kilometerTables
    whiteSpaceInert_kilometerTables laneKdf " a\t b" "a b" (by decide)
  exact ⟨hclean.1, (hclean.2.1 (by decide)).1⟩

section Alone
variable {t : Nfkc16Tables} {xs : List ℕ}

/-- Characters that are in no pair are not composed. -/
theorem compose_eq_self (h : ∀ b ∈ xs, ∀ a, composePair t a b = none) : compose t xs = xs := by
  have hrun : ∀ st : Composing, (xs.foldl (composeStep t) st).out = st.out ++ xs := by
    induction xs with
    | nil => simp
    | cons b xs ih =>
        rw [List.forall_mem_cons] at h
        intro st
        rw [List.foldl_cons, ih h.2, composeStep]
        cases hplace : st.composite t b with
        | none => simp
        | some place =>
            obtain ⟨starter, hpair⟩ := exists_composePair hplace
            rw [h.1 starter] at hpair
            cases hpair
  exact hrun ⟨[], none, 0⟩

theorem ordered_of_starters (h : ∀ x, cccOf t x = 0) : Ordered (cccOf t) xs := by
  induction xs with
  | nil => exact .nil
  | cons x xs ih => exact ih.cons fun y _ hy => absurd (h y) hy

end Alone

theorem mem_kilometers {n : ℕ} {c : Char} (h : c ∈ (List.replicate n kilometer).flatten) :
    c ∈ kilometer := by
  obtain ⟨letters, hletters, hc⟩ := List.mem_flatten.mp h
  rwa [(List.mem_replicate.mp hletters).2] at hc

theorem nfkc16_kilometers (n : ℕ) :
    nfkc16 kilometerTables (String.ofList (List.replicate n '㌖')) =
      .ok (String.ofList (List.replicate n kilometer).flatten) := by
  have hletters : (List.replicate n kilometer).flatten.map Char.toNat =
      (List.replicate n (kilometer.map Char.toNat)).flatten := by
    rw [List.map_flatten, List.map_replicate]
  have hdecompose : decompose kilometerTables (List.replicate n 0x3316) =
      (List.replicate n (kilometer.map Char.toNat)).flatten := List.flatMap_replicate
  have halone : ∀ b ∈ (List.replicate n kilometer).flatten.map Char.toNat, ∀ a,
      composePair kilometerTables a b = none := by
    simp only [List.mem_map, forall_exists_index, and_imp]
    rintro _ c hc rfl a
    have hjamo : ¬ IsHangulVowel c.toNat ∧ ¬ IsHangulTrailing c.toNat := by
      have hall : ∀ c ∈ kilometer, ¬ IsHangulVowel c.toNat ∧ ¬ IsHangulTrailing c.toNat := by
        simp [kilometer, IsHangulVowel, IsHangulTrailing, hangulVBase, hangulVCount, hangulTBase,
          hangulTCount]
      exact hall c (mem_kilometers hc)
    rw [composePair, if_neg fun h => hjamo.1 h.2, if_neg fun h => hjamo.2 h.2.2]
    rfl
  rw [nfkc16_eq_ok_iff, String.toList_ofList, String.toList_ofList]
  constructor
  · intro c hc
    rw [(List.mem_replicate.mp hc).2]
    decide
  · have hsquares : (List.replicate n '㌖').map Char.toNat = List.replicate n 0x3316 :=
      List.map_replicate
    rw [hsquares, normalizeCodePoints, canonicalReorder, hdecompose, ← hletters,
      reorder_of_ordered (ordered_of_starters fun _ => rfl), compose_eq_self halone]

theorem length_encode_flatten {cs : List Char} (n : ℕ) :
    (Utf8.encode (List.replicate n cs).flatten).length = n * (Utf8.encode cs).length := by
  induction n with
  | zero => simp
  | succ n ih => rw [List.replicate_succ, List.flatten_cons, Utf8.encode_append,
      List.length_append, ih, Nat.succ_mul, Nat.add_comm]

/-- A square is three bytes and its letters are eighteen. -/
theorem normalizePassphrase_kilometers (kdf : PassphrasePrimitives) {n : ℕ} (hpos : n ≠ 0)
    (hshort : n * 3 ≤ maxPassphraseInputBytes) :
    normalizePassphrase (kdf.pinned kilometerTables) (String.ofList (List.replicate n '㌖')) =
        .ok (String.ofList (List.replicate n kilometer).flatten) ∧
      (utf8Bytes (String.ofList (List.replicate n kilometer).flatten)).length = n * 18 := by
  have hword : IsWord isWhiteSpace16 (List.replicate n kilometer).flatten := by
    constructor
    · simp [hpos, kilometer]
    · intro c hc
      have hall : ∀ c ∈ kilometer, isWhiteSpace16 c = false := by
        simp [kilometer, isWhiteSpace16, unicodeWhiteSpace]
      exact hall c (mem_kilometers hc)
  constructor
  · rw [normalizePassphrase_eq_ok_iff]
    refine ⟨?_, _, nfkc16_kilometers n, ?_, ?_⟩
    · have hsquares : List.replicate n '㌖' = (List.replicate n ['㌖']).flatten := by simp
      rw [utf8Bytes_ofList, hsquares, length_encode_flatten]
      exact hshort
    · rw [String.toList_ofList, words_of_isWord hword, unwords_singleton]
    · rw [String.toList_ofList]
      exact hword.ne_nil
  · rw [utf8Bytes_ofList, length_encode_flatten]
    rfl

/-- 228 squares are 684 bytes, and their letters are 4104. -/
theorem not_normalizePassphrase_fixed :
    kilometerTables.WellFormed ∧ kilometerTables.WhiteSpaceInert ∧
      ∃ q, normalizePassphrase (laneKdf.pinned kilometerTables)
          (String.ofList (List.replicate 228 '㌖')) = .ok q ∧
        normalizePassphrase (laneKdf.pinned kilometerTables) q ≠ .ok q := by
  obtain ⟨hnormal, hlength⟩ := @normalizePassphrase_kilometers laneKdf 228 (by decide) (by decide)
  refine ⟨wellFormed_kilometerTables, whiteSpaceInert_kilometerTables, _, hnormal, ?_⟩
  obtain ⟨e, he, -⟩ := @normalizePassphrase_too_long (laneKdf.pinned kilometerTables) _
    (by rw [hlength]; decide)
  rw [he]
  nofun

end Label309
