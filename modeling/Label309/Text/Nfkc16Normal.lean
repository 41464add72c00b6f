import Label309.Text.Nfkc16

/-!
# NFKC is a normal form

What has been composed decomposes to what it was composed of, up to the order of marks of different
classes. So a normalized text is left alone, and texts that decompose alike up to that order are
normalized to one text.
-/
namespace Label309
open CanonicalOrder

/-- The pinned data is consistent: what is listed is decomposed to its end and over assigned
characters, a mark decomposes to marks of its class, a composite is an assigned character of class
zero that decomposes like the pair, and Hangul is left to the arithmetic. -/
structure Nfkc16Tables.WellFormed (t : Nfkc16Tables) : Prop where
  scalar : ∀ cp mapped, t.decomposition cp = some mapped → ∀ d ∈ mapped, d.isValidChar
  assigned : ∀ cp mapped, t.decomposition cp = some mapped →
    ∀ d ∈ mapped, inRanges t.assigned d = true
  decomposed : ∀ cp mapped, t.decomposition cp = some mapped →
    ∀ d ∈ mapped, ¬ IsHangulSyllable d ∧ t.decomposition d = none
  marks : ∀ cp mapped, t.decomposition cp = some mapped → cccOf t cp ≠ 0 →
    ∀ d ∈ mapped, cccOf t d = cccOf t cp
  composites : ∀ a b c, t.composition (a, b) = some c → inRanges t.assigned c = true ∧
    cccOf t c = 0 ∧ decompose t [c] = decompose t [a, b]
  syllables : ∀ cp, IsHangulSyllable cp → inRanges t.assigned cp = true ∧ cccOf t cp = 0
  jamo : ∀ cp, IsHangulLeading cp ∨ IsHangulVowel cp ∨ IsHangulTrailing cp →
    inRanges t.assigned cp = true ∧ cccOf t cp = 0 ∧ t.decomposition cp = none

/-! ## Hangul -/

/-- The syllable of a leading consonant, a vowel and, unless it is zero, a trailing consonant. -/
def hangulSyllable (l v trailing : ℕ) : ℕ :=
  hangulSBase + (l * hangulVCount + v) * hangulTCount + trailing

section Hangul
variable {t : Nfkc16Tables} {l v trailing : ℕ}

theorem exists_hangulSyllable {cp : ℕ} (h : IsHangulSyllable cp) :
    ∃ l v trailing, l < 19 ∧ v < 21 ∧ trailing < 28 ∧ cp = hangulSyllable l v trailing := by
  simp only [IsHangulSyllable, hangulSBase, hangulSCount, hangulLCount, hangulNCount,
    hangulVCount, hangulTCount] at h
  refine ⟨(cp - 0xAC00) / 588, (cp - 0xAC00) % 588 / 28, (cp - 0xAC00) % 28, ?_, ?_, ?_, ?_⟩
  · omega
  · omega
  · omega
  · simp only [hangulSyllable, hangulSBase, hangulVCount, hangulTCount]
    omega

section Bounds
variable (hl : l < 19) (hv : v < 21)
include hl hv

theorem isHangulSyllable_hangulSyllable (ht : trailing < 28) :
    IsHangulSyllable (hangulSyllable l v trailing) := by
  simp only [IsHangulSyllable, hangulSyllable, hangulSBase, hangulSCount, hangulLCount,
    hangulNCount, hangulVCount, hangulTCount]
  omega

omit hv in
theorem isHangulLeading_add : IsHangulLeading (hangulLBase + l) := by
  simp only [IsHangulLeading, hangulLCount]
  omega

omit hl in
theorem isHangulVowel_add : IsHangulVowel (hangulVBase + v) := by
  simp only [IsHangulVowel, hangulVCount]
  omega

omit hl hv in
theorem isHangulTrailing_add (hne : trailing ≠ 0) (ht : trailing < 28) :
    IsHangulTrailing (hangulTBase + trailing) := by
  simp only [IsHangulTrailing, hangulTCount]
  omega

theorem decomposeOne_hangulSyllable (ht : trailing < 28) :
    decomposeOne t (hangulSyllable l v trailing) =
      [hangulLBase + l, hangulVBase + v] ++
        if trailing ≠ 0 then [hangulTBase + trailing] else [] := by
  have hindex : hangulSyllable l v trailing - hangulSBase = (l * 21 + v) * 28 + trailing := by
    simp only [hangulSyllable, hangulSBase, hangulVCount, hangulTCount]
    omega
  have hleading : ((l * 21 + v) * 28 + trailing) / 588 = l := by omega
  have hvowel : ((l * 21 + v) * 28 + trailing) % 588 / 28 = v := by omega
  have htrailing : ((l * 21 + v) * 28 + trailing) % 28 = trailing := by omega
  rw [decomposeOne, if_pos (isHangulSyllable_hangulSyllable hl hv ht), hindex]
  simp only [hangulNCount, hangulVCount, hangulTCount, Nat.reduceMul, hleading, hvowel, htrailing]

/-- A leading consonant and a vowel are composed. -/
theorem composePair_vowel :
    composePair t (hangulLBase + l) (hangulVBase + v) = some (hangulSyllable l v 0) := by
  rw [composePair, if_pos ⟨isHangulLeading_add hl, isHangulVowel_add hv⟩]
  simp [hangulSyllable]

/-- A syllable without a trailing consonant takes one. -/
theorem composePair_trailing (hne : trailing ≠ 0) (ht : trailing < 28) :
    composePair t (hangulSyllable l v 0) (hangulTBase + trailing) =
      some (hangulSyllable l v trailing) := by
  have hleading : ¬ IsHangulLeading (hangulSyllable l v 0) := by
    simp only [IsHangulLeading, hangulSyllable, hangulSBase, hangulLBase, hangulLCount,
      hangulVCount, hangulTCount]
    omega
  have hmod : (hangulSyllable l v 0 - hangulSBase) % hangulTCount = 0 := by
    simp only [hangulSyllable, hangulSBase, hangulVCount, hangulTCount]
    omega
  rw [composePair, if_neg (fun hboth => hleading hboth.1),
    if_pos ⟨isHangulSyllable_hangulSyllable hl hv (by omega), hmod, isHangulTrailing_add hne ht⟩]
  simp [hangulSyllable]

end Bounds

end Hangul

/-! ## One character -/

section WellFormed
variable {t : Nfkc16Tables} (wf : t.WellFormed)

theorem decompose_append (xs ys : List ℕ) :
    decompose t (xs ++ ys) = decompose t xs ++ decompose t ys := List.flatMap_append

theorem decompose_cons (x : ℕ) (xs : List ℕ) :
    decompose t (x :: xs) = decomposeOne t x ++ decompose t xs := rfl

theorem decompose_singleton (x : ℕ) : decompose t [x] = decomposeOne t x := List.append_nil _

/-- What is decomposed to its end. -/
def IsDecomposed (t : Nfkc16Tables) (cp : ℕ) : Prop := decomposeOne t cp = [cp]

theorem decompose_eq_self {xs : List ℕ} (h : ∀ x ∈ xs, IsDecomposed t x) :
    decompose t xs = xs := by
  induction xs with
  | nil => rfl
  | cons x xs ih =>
      rw [List.forall_mem_cons] at h
      have hx : decomposeOne t x = [x] := h.1
      rw [decompose_cons, hx, ih h.2, List.singleton_append]

theorem isDecomposed_of_none {cp : ℕ} (hsyllable : ¬ IsHangulSyllable cp)
    (hnone : t.decomposition cp = none) : IsDecomposed t cp := by
  rw [IsDecomposed, decomposeOne, if_neg hsyllable, hnone, Option.getD_none]

theorem not_syllable_of_jamo {cp : ℕ}
    (h : IsHangulLeading cp ∨ IsHangulVowel cp ∨ IsHangulTrailing cp) : ¬ IsHangulSyllable cp := by
  simp only [IsHangulLeading, IsHangulVowel, IsHangulTrailing, IsHangulSyllable, hangulLBase,
    hangulVBase, hangulTBase, hangulSBase, hangulLCount, hangulVCount, hangulTCount] at h ⊢
  omega

/-- The cases of a character: a syllable of jamo, one that is listed, or one that is not. -/
theorem decomposeOne_cases {cp d : ℕ} (h : d ∈ decomposeOne t cp) :
    (IsHangulSyllable cp ∧ (IsHangulLeading d ∨ IsHangulVowel d ∨ IsHangulTrailing d)) ∨
      (∃ mapped, t.decomposition cp = some mapped ∧ d ∈ mapped) ∨
      (d = cp ∧ ¬ IsHangulSyllable cp ∧ t.decomposition cp = none) := by
  by_cases hsyllable : IsHangulSyllable cp
  · refine .inl ⟨hsyllable, ?_⟩
    obtain ⟨l, v, trailing, hl, hv, ht, rfl⟩ := exists_hangulSyllable hsyllable
    rw [decomposeOne_hangulSyllable hl hv ht, List.mem_append] at h
    rcases h with h | h
    · rcases List.mem_pair.mp h with rfl | rfl
      · exact .inl (isHangulLeading_add hl)
      · exact .inr (.inl (isHangulVowel_add hv))
    · by_cases hne : trailing ≠ 0
      · rw [if_pos hne, List.mem_singleton] at h
        rw [h]
        exact .inr (.inr (isHangulTrailing_add hne ht))
      · rw [if_neg hne] at h
        cases h
  · rw [decomposeOne, if_neg hsyllable] at h
    cases hlist : t.decomposition cp with
    | none =>
        rw [hlist, Option.getD_none, List.mem_singleton] at h
        exact .inr (.inr ⟨h, hsyllable, rfl⟩)
    | some mapped =>
        rw [hlist, Option.getD_some] at h
        exact .inr (.inl ⟨mapped, rfl, h⟩)

include wf

theorem isDecomposed_of_mem {cp d : ℕ} (h : d ∈ decomposeOne t cp) : IsDecomposed t d := by
  rcases decomposeOne_cases h with ⟨-, hjamo⟩ | ⟨mapped, hmapped, hd⟩ | ⟨rfl, hsyllable, hnone⟩
  · exact isDecomposed_of_none (not_syllable_of_jamo hjamo) (wf.jamo d hjamo).2.2
  · have hlast := wf.decomposed cp mapped hmapped d hd
    exact isDecomposed_of_none hlast.1 hlast.2
  · exact isDecomposed_of_none hsyllable hnone

theorem assigned_of_mem {cp d : ℕ} (hcp : inRanges t.assigned cp = true)
    (h : d ∈ decomposeOne t cp) : inRanges t.assigned d = true := by
  rcases decomposeOne_cases h with ⟨-, hjamo⟩ | ⟨mapped, hmapped, hd⟩ | ⟨rfl, -, -⟩
  · exact (wf.jamo d hjamo).1
  · exact wf.assigned cp mapped hmapped d hd
  · exact hcp

theorem isValidChar_of_mem {cp d : ℕ} (hcp : cp.isValidChar) (h : d ∈ decomposeOne t cp) :
    d.isValidChar := by
  rcases decomposeOne_cases h with ⟨-, hjamo⟩ | ⟨mapped, hmapped, hd⟩ | ⟨rfl, -, -⟩
  · simp only [IsHangulLeading, IsHangulVowel, IsHangulTrailing, hangulLBase, hangulVBase,
      hangulTBase, hangulLCount, hangulVCount, hangulTCount] at hjamo
    exact .inl (by omega)
  · exact wf.scalar cp mapped hmapped d hd
  · exact hcp

/-- A mark is decomposed to marks of its class. -/
theorem cccOf_of_mem {cp d : ℕ} (hcp : cccOf t cp ≠ 0) (h : d ∈ decomposeOne t cp) :
    cccOf t d = cccOf t cp := by
  rcases decomposeOne_cases h with ⟨hsyllable, -⟩ | ⟨mapped, hmapped, hd⟩ | ⟨rfl, -, -⟩
  · exact absurd (wf.syllables cp hsyllable).2 hcp
  · exact wf.marks cp mapped hmapped hcp d hd
  · rfl

/-! ## One composition -/

theorem decomposeOne_jamo {cp : ℕ}
    (h : IsHangulLeading cp ∨ IsHangulVowel cp ∨ IsHangulTrailing cp) :
    decomposeOne t cp = [cp] :=
  isDecomposed_of_none (not_syllable_of_jamo h) (wf.jamo cp h).2.2

/-- A composite is an assigned starter that is decomposed like the pair. -/
theorem composePair_spec {a b c : ℕ} (h : composePair t a b = some c) :
    inRanges t.assigned c = true ∧ cccOf t c = 0 ∧
      decomposeOne t c = decomposeOne t a ++ decomposeOne t b := by
  by_cases hvowel : IsHangulLeading a ∧ IsHangulVowel b
  · obtain ⟨l, hl, rfl⟩ : ∃ l, l < 19 ∧ a = hangulLBase + l :=
      ⟨a - hangulLBase, by simp only [IsHangulLeading, hangulLCount] at hvowel; omega,
        by have := hvowel.1.1; omega⟩
    obtain ⟨v, hv, rfl⟩ : ∃ v, v < 21 ∧ b = hangulVBase + v :=
      ⟨b - hangulVBase, by simp only [IsHangulVowel, hangulVCount] at hvowel; omega,
        by have := hvowel.2.1; omega⟩
    rw [composePair_vowel hl hv, Option.some.injEq] at h
    rw [← h, decomposeOne_hangulSyllable hl hv (by omega), decomposeOne_jamo wf (.inl hvowel.1),
      decomposeOne_jamo wf (.inr (.inl hvowel.2))]
    have hsyllable := wf.syllables _ (@isHangulSyllable_hangulSyllable l v 0 hl hv (by omega))
    exact ⟨hsyllable.1, hsyllable.2, rfl⟩
  by_cases htrailing : IsHangulSyllable a ∧ (a - hangulSBase) % hangulTCount = 0 ∧
      IsHangulTrailing b
  · obtain ⟨hsyllable, hmod, hb⟩ := htrailing
    obtain ⟨l, v, last, hl, hv, hlast, rfl⟩ := exists_hangulSyllable hsyllable
    obtain rfl : last = 0 := by
      simp only [hangulSyllable, hangulSBase, hangulVCount, hangulTCount] at hmod
      omega
    obtain ⟨n, hne, hn, rfl⟩ : ∃ n, n ≠ 0 ∧ n < 28 ∧ b = hangulTBase + n := by
      simp only [IsHangulTrailing, hangulTCount] at hb
      exact ⟨b - hangulTBase, by omega, by omega, by omega⟩
    rw [composePair_trailing hl hv hne hn, Option.some.injEq] at h
    rw [← h, decomposeOne_hangulSyllable hl hv hn, decomposeOne_hangulSyllable hl hv hlast,
      decomposeOne_jamo wf (.inr (.inr hb)), if_pos hne, if_neg (by simp), List.append_nil]
    have hcomposed := wf.syllables _ (isHangulSyllable_hangulSyllable hl hv hn)
    exact ⟨hcomposed.1, hcomposed.2, rfl⟩
  · rw [composePair, if_neg hvowel, if_neg htrailing] at h
    obtain ⟨hassigned, hclass, hdecompose⟩ := wf.composites a b c h
    rw [decompose_singleton, decompose_cons, decompose_singleton] at hdecompose
    exact ⟨hassigned, hclass, hdecompose⟩

omit wf in
/-- A starter that a character may be composed with: what is behind it are marks of lower
classes. -/
theorem composite_eq_some {front marks : List ℕ} {a lastCcc b : ℕ} {place : ℕ × ℕ}
    (h : Composing.composite t ⟨front ++ a :: marks, some front.length, lastCcc⟩ b = some place) :
    (marks = [] ∨ lastCcc < cccOf t b) ∧ place.1 = front.length ∧
      composePair t a b = some place.2 := by
  rw [Composing.composite] at h
  simp only [Option.bind_eq_bind, Option.bind_some] at h
  by_cases hopen : front.length = (front ++ a :: marks).length - 1 ∨ lastCcc < cccOf t b
  · rw [if_pos hopen, List.getElem?_append_right (le_refl _), Nat.sub_self,
      List.getElem?_cons_zero, Option.bind_some, Option.bind_eq_some_iff] at h
    obtain ⟨composed, hpair, hplace⟩ := h
    cases hplace
    refine ⟨hopen.imp_left ?_, rfl, hpair⟩
    intro hlength
    rw [List.length_append, List.length_cons] at hlength
    exact List.length_eq_zero_iff.mp (by omega)
  · rw [if_neg hopen] at h
    cases h

omit wf in
theorem exists_composePair {st : Composing} {b : ℕ} {place : ℕ × ℕ}
    (h : st.composite t b = some place) : ∃ starter, composePair t starter b = some place.2 := by
  rw [Composing.composite] at h
  simp only [Option.bind_eq_bind, Option.bind_eq_some_iff] at h
  obtain ⟨idx, -, hplace⟩ := h
  by_cases hopen : idx = st.out.length - 1 ∨ st.lastCcc < cccOf t b
  · rw [if_pos hopen, Option.bind_eq_some_iff] at hplace
    obtain ⟨starter, -, hcomposed⟩ := hplace
    obtain ⟨composed, hpair, hplace⟩ := Option.bind_eq_some_iff.mp hcomposed
    cases hplace
    exact ⟨starter, hpair⟩
  · rw [if_neg hopen] at hplace
    cases hplace

/-! ## A run -/

/-- What has been composed decomposes to what was taken in. Behind the last starter are marks
that the next mark does not belong before. -/
inductive Composes (t : Nfkc16Tables) : Composing → List ℕ → Prop
  | start {xs : List ℕ} (lastCcc : ℕ) (hxs : ∀ x ∈ xs, IsDecomposed t x) :
      Composes t ⟨xs, none, lastCcc⟩ xs
  | starter (front : List ℕ) (a : ℕ) {marks xs : List ℕ} {lastCcc : ℕ}
      (hxs : Equivalent (cccOf t) (decompose t (front ++ a :: marks)) xs)
      (hmarks : ∀ m ∈ marks, IsDecomposed t m ∧ cccOf t m ≠ 0 ∧ cccOf t m ≤ lastCcc)
      (hlast : marks ≠ [] → ∃ p ∈ xs.getLast?, lastCcc ≤ cccOf t p) :
      Composes t ⟨front ++ a :: marks, some front.length, lastCcc⟩ xs

/-- One character more, in order. -/
theorem composes_composeStep {st : Composing} {xs : List ℕ} {b : ℕ} (h : Composes t st xs)
    (hb : IsDecomposed t b)
    (horder : ∀ p ∈ xs.getLast?, cccOf t b ≠ 0 → cccOf t p ≤ cccOf t b) :
    Composes t (composeStep t st b) (xs ++ [b]) := by
  have hself : decomposeOne t b = [b] := hb
  cases h with
  | start lastCcc hxs =>
      have hall : ∀ x ∈ xs ++ [b], IsDecomposed t x := by
        simpa [or_imp, forall_and] using ⟨hxs, hb⟩
      have hstep : composeStep t ⟨xs, none, lastCcc⟩ b =
          ⟨xs ++ [b], if cccOf t b = 0 then some xs.length else none, cccOf t b⟩ := rfl
      rw [hstep]
      by_cases hclass : cccOf t b = 0
      · rw [if_pos hclass]
        refine .starter xs b ?_ (by simp) (by simp)
        rw [decompose_eq_self hall]
        exact .refl
      · rw [if_neg hclass]
        exact .start _ hall
  | starter front a hxs hmarks hlast =>
      rename_i marks lastCcc
      rw [composeStep]
      cases hplace : Composing.composite t ⟨front ++ a :: marks, some front.length, lastCcc⟩ b with
      | some place =>
          -- The composite stands for the starter and a mark that passes those behind it.
          obtain ⟨hopen, hidx, hpair⟩ := composite_eq_some hplace
          obtain ⟨-, -, hdecompose⟩ := composePair_spec wf hpair
          have hset : (front ++ a :: marks).set place.1 place.2 = front ++ place.2 :: marks := by
            rw [hidx, List.set_append_right _ _ (le_refl _), Nat.sub_self, List.set_cons_zero]
          have hpass : Equivalent (cccOf t) ([b] ++ marks) (marks ++ [b]) := by
            rcases hopen with rfl | hlt
            · exact .refl
            · refine equivalent_cons (by omega) ?_
              intro m hm
              have hclass := hmarks m hm
              exact ⟨hclass.2.1, by omega⟩
          dsimp only
          rw [hset]
          refine .starter front place.2 ?_ hmarks ?_
          · have hmarksSelf : decompose t marks = marks :=
              decompose_eq_self fun m hm => (hmarks m hm).1
            refine Relation.ReflTransGen.trans ?_ (hxs.append_right [b])
            rw [decompose_append, decompose_cons, decompose_append, decompose_cons, hdecompose,
              hself, hmarksSelf, List.append_assoc, List.append_assoc, List.append_assoc]
            exact (hpass.append_left _).append_left _
          · intro hne
            refine ⟨b, by rw [List.getLast?_concat]; rfl, ?_⟩
            rcases hopen with hnil | hlt
            · exact absurd hnil hne
            · exact hlt.le
      | none =>
          have hpushed : Equivalent (cccOf t) (decompose t (front ++ a :: marks ++ [b]))
              (xs ++ [b]) := by
            rw [decompose_append, decompose_singleton, hself]
            exact hxs.append_right [b]
          dsimp only
          by_cases hclass : cccOf t b = 0
          · rw [if_pos hclass]
            exact .starter (front ++ a :: marks) b hpushed (by simp) (by simp)
          · rw [if_neg hclass, List.append_assoc, List.cons_append]
            rw [List.append_assoc, List.cons_append] at hpushed
            refine .starter front a hpushed ?_ ?_
            · intro m hm
              rcases List.mem_append.mp hm with hm | hm
              · -- The marks before are of no higher class, since the characters are in order.
                obtain ⟨hdecomposed, hne, hle⟩ := hmarks m hm
                refine ⟨hdecomposed, hne, ?_⟩
                obtain ⟨p, hp, hprev⟩ := hlast (List.ne_nil_of_mem hm)
                have hnext := horder p hp hclass
                omega
              · rw [List.mem_singleton.mp hm]
                exact ⟨hb, hclass, le_refl _⟩
            · intro _
              exact ⟨b, by rw [List.getLast?_concat]; rfl, le_refl _⟩

/-- **A run** over decomposed characters in order. -/
theorem composes_foldl {xs : List ℕ} (hxs : ∀ x ∈ xs, IsDecomposed t x)
    (horder : Ordered (cccOf t) xs) :
    Composes t (xs.foldl (composeStep t) ⟨[], none, 0⟩) xs := by
  induction xs using List.reverseRecOn with
  | nil => exact .start 0 (by simp)
  | append_singleton xs b ih =>
      have hjoin := List.isChain_append.mp horder
      rw [List.foldl_append]
      refine composes_composeStep wf ?_ (hxs b (by simp)) ?_
      · exact ih (fun x hx => hxs x (List.mem_append_left _ hx)) hjoin.1
      · intro p hp
        exact hjoin.2.2 p hp b rfl

/-- What is composed decomposes to what it was composed of. -/
theorem decompose_compose {xs : List ℕ} (hxs : ∀ x ∈ xs, IsDecomposed t x)
    (horder : Ordered (cccOf t) xs) : Equivalent (cccOf t) (decompose t (compose t xs)) xs := by
  have h := composes_foldl wf hxs horder
  rw [compose]
  generalize xs.foldl (composeStep t) ⟨[], none, 0⟩ = st at h ⊢
  cases h with
  | start lastCcc hall =>
      rw [decompose_eq_self hall]
      exact .refl
  | starter front a hequivalent _ _ => exact hequivalent

omit wf in
/-- Nothing but what was there and composites is composed. -/
theorem forall_compose {P : ℕ → Prop} (hcomposite : ∀ a b c, composePair t a b = some c → P c)
    {xs : List ℕ} (hxs : ∀ x ∈ xs, P x) : ∀ x ∈ compose t xs, P x := by
  have hrun : ∀ st : Composing, (∀ x ∈ st.out, P x) →
      ∀ x ∈ (xs.foldl (composeStep t) st).out, P x := by
    induction xs with
    | nil => exact fun st hst => hst
    | cons b xs ih =>
        rw [List.forall_mem_cons] at hxs
        intro st hst
        refine ih hxs.2 (composeStep t st b) ?_
        intro x hx
        rw [composeStep] at hx
        cases hplace : st.composite t b with
        | none =>
            rw [hplace] at hx
            rcases List.mem_append.mp hx with hx | hx
            · exact hst x hx
            · rw [List.mem_singleton.mp hx]
              exact hxs.1
        | some place =>
            rw [hplace] at hx
            rcases List.mem_or_eq_of_mem_set hx with hx | rfl
            · exact hst x hx
            · obtain ⟨starter, hpair⟩ := exists_composePair hplace
              exact hcomposite starter b place.2 hpair
  exact hrun ⟨[], none, 0⟩ (by simp)

theorem assigned_compose {xs : List ℕ} (hxs : ∀ x ∈ xs, inRanges t.assigned x = true) :
    ∀ x ∈ compose t xs, inRanges t.assigned x = true :=
  forall_compose (fun _ _ _ hpair => (composePair_spec wf hpair).1) hxs

/-! ## Normalization -/

omit wf in
/-- Texts that decompose alike, up to the order of marks of different classes. -/
theorem normalizeCodePoints_congr {xs ys : List ℕ}
    (h : Equivalent (cccOf t) (decompose t xs) (decompose t ys)) :
    normalizeCodePoints t xs = normalizeCodePoints t ys := by
  rw [normalizeCodePoints, normalizeCodePoints, canonicalReorder, canonicalReorder,
    reorder_eq_of_equivalent h]

theorem isDecomposed_decompose (xs : List ℕ) : ∀ x ∈ decompose t xs, IsDecomposed t x := by
  intro x hx
  obtain ⟨cp, -, hcp⟩ := List.mem_flatMap.mp hx
  exact isDecomposed_of_mem wf hcp

/-- What is composed of decomposed characters in order is left alone. -/
theorem normalizeCodePoints_compose {xs : List ℕ} (hxs : ∀ x ∈ xs, IsDecomposed t x)
    (horder : Ordered (cccOf t) xs) : normalizeCodePoints t (compose t xs) = compose t xs := by
  have hback := reorder_eq_of_equivalent (decompose_compose wf hxs horder)
  rw [reorder_of_ordered horder] at hback
  rw [normalizeCodePoints, canonicalReorder, hback]

theorem isDecomposed_reordered (xs : List ℕ) :
    ∀ x ∈ canonicalReorder t (decompose t xs), IsDecomposed t x := by
  intro x hx
  exact isDecomposed_decompose wf xs x (mem_reorder.mp hx)

theorem normalizeCodePoints_idem (xs : List ℕ) :
    normalizeCodePoints t (normalizeCodePoints t xs) = normalizeCodePoints t xs :=
  normalizeCodePoints_compose wf (isDecomposed_reordered wf xs) (ordered_reorder _)

theorem assigned_normalizeCodePoints {xs : List ℕ} (hxs : ∀ x ∈ xs, inRanges t.assigned x = true) :
    ∀ x ∈ normalizeCodePoints t xs, inRanges t.assigned x = true := by
  refine assigned_compose wf ?_
  intro x hx
  obtain ⟨cp, hcp, hd⟩ := List.mem_flatMap.mp (mem_reorder.mp hx)
  exact assigned_of_mem wf (hxs cp hcp) hd

end WellFormed

/-! ## Texts -/

section Text
variable {t : Nfkc16Tables}

theorem charFromU32_toNat (c : Char) : charFromU32 c.toNat = some c := by
  have hvalid : c.toNat.isValidChar := c.valid
  rw [charFromU32, if_pos hvalid, Char.ofNat_toNat]

theorem toNat_of_charFromU32 {cp : ℕ} {c : Char} (h : charFromU32 cp = some c) : c.toNat = cp := by
  rw [charFromU32] at h
  by_cases hvalid : cp.isValidChar
  · rw [if_pos hvalid, Option.some.injEq] at h
    rw [← h, Char.toNat_ofNat, if_pos hvalid]
  · rw [if_neg hvalid] at h
    cases h

theorem mapM_charFromU32_iff {cps : List ℕ} {cs : List Char} :
    cps.mapM charFromU32 = some cs ↔ cs.map Char.toNat = cps := by
  induction cps generalizing cs with
  | nil => cases cs <;> simp
  | cons cp cps ih =>
      rw [List.mapM_cons]
      constructor
      · intro h
        simp only [Option.bind_eq_bind, Option.bind_eq_some_iff] at h
        obtain ⟨c, hc, rest, hrest, hcs⟩ := h
        cases hcs
        rw [List.map_cons, toNat_of_charFromU32 hc, ih.mp hrest]
      · intro h
        cases cs with
        | nil => cases h
        | cons c rest =>
            rw [List.map_cons, List.cons.injEq] at h
            rw [← h.1, charFromU32_toNat, ih.mpr h.2]
            rfl

/-- A text is accepted when its characters are assigned and normalize to characters. -/
theorem nfkc16_eq_ok_iff {s r : String} :
    nfkc16 t s = .ok r ↔ (∀ c ∈ s.toList, inRanges t.assigned c.toNat = true) ∧
      r.toList.map Char.toNat = normalizeCodePoints t (s.toList.map Char.toNat) := by
  rw [nfkc16]
  cases hfind : (s.toList.map Char.toNat).find? fun cp => !inRanges t.assigned cp with
  | some cp =>
      refine iff_of_false (by simp) ?_
      intro hok
      have hcp := List.find?_some hfind
      obtain ⟨c, hc, rfl⟩ := List.mem_map.mp (List.mem_of_find?_eq_some hfind)
      simp [hok.1 c hc] at hcp
  | none =>
      have hall : ∀ c ∈ s.toList, inRanges t.assigned c.toNat = true := by
        simpa using hfind
      rw [← mapM_charFromU32_iff]
      cases hchars : (normalizeCodePoints t (s.toList.map Char.toNat)).mapM charFromU32 with
      | none => simp
      | some chars =>
          dsimp only
          rw [Except.ok.injEq, Option.some.injEq, and_iff_right hall]
          constructor
          · intro h
            rw [← h, String.toList_ofList]
          · intro h
            rw [h, String.ofList_toList]

theorem toList_map_append (front mid rest : List Char) :
    (String.ofList (front ++ mid ++ rest)).toList.map Char.toNat =
      front.map Char.toNat ++ mid.map Char.toNat ++ rest.map Char.toNat := by
  rw [String.toList_ofList, List.map_append, List.map_append]

/-- Texts with the same front and rest are normalized alike when what is between them is. -/
theorem nfkc16_replace {s r : String} (h : nfkc16 t s = .ok r) {front mid mid' rest : List Char}
    (hs : s.toList = front ++ mid ++ rest)
    (hassigned : ∀ c ∈ mid', inRanges t.assigned c.toNat = true)
    (hmid : Equivalent (cccOf t) (decompose t (mid'.map Char.toNat))
      (decompose t (mid.map Char.toNat))) :
    nfkc16 t (String.ofList (front ++ mid' ++ rest)) = .ok r := by
  obtain ⟨hall, hr⟩ := nfkc16_eq_ok_iff.mp h
  rw [hs] at hall hr
  rw [nfkc16_eq_ok_iff, toList_map_append, hr, List.map_append, List.map_append]
  constructor
  · intro c hc
    rw [String.toList_ofList, List.mem_append, List.mem_append] at hc
    rcases hc with (hc | hc) | hc
    · exact hall c (by simp [hc])
    · exact hassigned c hc
    · exact hall c (by simp [hc])
  · refine (normalizeCodePoints_congr ?_).symm
    rw [decompose_append, decompose_append, decompose_append, decompose_append]
    exact (hmid.append_left _).append_right _

end Text

/-! ## Syllables and jamo -/

/-- The jamo of a syllable. -/
inductive HangulJamo : List ℕ → Prop
  | two {l v : ℕ} (hl : IsHangulLeading l) (hv : IsHangulVowel v) : HangulJamo [l, v]
  | three {l v trailing : ℕ} (hl : IsHangulLeading l) (hv : IsHangulVowel v)
      (ht : IsHangulTrailing trailing) : HangulJamo [l, v, trailing]

section Syllables
variable {t : Nfkc16Tables}

/-- Jamo are the decomposition of a syllable. -/
theorem hangulJamo_iff {js : List ℕ} :
    HangulJamo js ↔ ∃ l v trailing, l < 19 ∧ v < 21 ∧ trailing < 28 ∧
      js = decomposeOne t (hangulSyllable l v trailing) := by
  constructor
  · intro h
    cases h with
    | two hl hv =>
        rename_i a b
        simp only [IsHangulLeading, IsHangulVowel, hangulLCount, hangulVCount] at hl hv
        refine ⟨a - hangulLBase, b - hangulVBase, 0, by omega, by omega, by omega, ?_⟩
        rw [decomposeOne_hangulSyllable (by omega) (by omega) (by omega),
          Nat.add_sub_cancel' hl.1, Nat.add_sub_cancel' hv.1]
        rfl
    | three hl hv ht =>
        rename_i a b c
        simp only [IsHangulLeading, IsHangulVowel, IsHangulTrailing, hangulLCount, hangulVCount,
          hangulTCount] at hl hv ht
        refine ⟨a - hangulLBase, b - hangulVBase, c - hangulTBase, by omega, by omega, by omega, ?_⟩
        rw [decomposeOne_hangulSyllable (by omega) (by omega) (by omega),
          Nat.add_sub_cancel' hl.1, Nat.add_sub_cancel' hv.1, if_pos (by omega),
          Nat.add_sub_cancel' (by omega)]
        rfl
  · rintro ⟨l, v, trailing, hl, hv, ht, rfl⟩
    rw [decomposeOne_hangulSyllable hl hv ht]
    by_cases hne : trailing = 0
    · simpa [hne] using HangulJamo.two (isHangulLeading_add hl) (isHangulVowel_add hv)
    · simpa [hne] using HangulJamo.three (isHangulLeading_add hl) (isHangulVowel_add hv)
        (isHangulTrailing_add hne ht)

/-- A character next to the only starter. -/
theorem composeStep_single {a b c n : ℕ} (h : composePair t a b = some c) :
    composeStep t ⟨[a], some 0, n⟩ b = ⟨[c], some 0, n⟩ := by
  simp [composeStep, Composing.composite, h]

theorem composeStep_first {a : ℕ} (h : cccOf t a = 0) :
    composeStep t ⟨[], none, 0⟩ a = ⟨[a], some 0, 0⟩ := by
  simp [composeStep, Composing.composite, h]

variable (wf : t.WellFormed)
include wf

/-- The jamo of a syllable are composed to it. -/
theorem compose_decompose_syllable {l v trailing : ℕ} (hl : l < 19) (hv : v < 21)
    (ht : trailing < 28) :
    compose t (decomposeOne t (hangulSyllable l v trailing)) = [hangulSyllable l v trailing] := by
  have hclass := (wf.jamo _ (.inl (isHangulLeading_add hl))).2.1
  rw [decomposeOne_hangulSyllable hl hv ht, compose, List.foldl_append, List.foldl_cons,
    List.foldl_cons, List.foldl_nil, composeStep_first hclass,
    composeStep_single (composePair_vowel hl hv)]
  by_cases hne : trailing = 0
  · rw [hne, if_neg (by simp), List.foldl_nil]
  · rw [if_pos hne, List.foldl_cons, List.foldl_nil,
      composeStep_single (composePair_trailing hl hv hne ht)]

/-- Syllables and their jamo are decomposed and composed to each other. -/
theorem hangul_inverse :
    (∀ cp, IsHangulSyllable cp →
      HangulJamo (decompose t [cp]) ∧ compose t (decompose t [cp]) = [cp]) ∧
    ∀ js, HangulJamo js → ∃ cp, IsHangulSyllable cp ∧ compose t js = [cp] ∧
      decompose t [cp] = js := by
  constructor
  · intro cp hcp
    obtain ⟨l, v, trailing, hl, hv, ht, rfl⟩ := exists_hangulSyllable hcp
    rw [decompose_singleton]
    exact ⟨hangulJamo_iff.mpr ⟨l, v, trailing, hl, hv, ht, rfl⟩,
      compose_decompose_syllable wf hl hv ht⟩
  · intro js hjs
    obtain ⟨l, v, trailing, hl, hv, ht, rfl⟩ := (@hangulJamo_iff t js).mp hjs
    exact ⟨_, isHangulSyllable_hangulSyllable hl hv ht, compose_decompose_syllable wf hl hv ht,
      decompose_singleton _⟩

end Syllables

/-! ## The normal form -/

/-- **A normal form.** A normalized text is left alone. Two adjacent marks of different classes
may change places, and a character may be replaced by its decomposition. Hangul syllables and
their jamo are decomposed and composed to each other. -/
theorem nfkc16_normal (t : Nfkc16Tables) (wf : t.WellFormed) (s r : String)
    (h : nfkc16 t s = .ok r) :
    nfkc16 t r = .ok r ∧
    (∀ (front rest : List Char) (a b : Char), s.toList = front ++ [a, b] ++ rest →
      cccOf t a.toNat ≠ 0 → cccOf t b.toNat ≠ 0 → cccOf t a.toNat ≠ cccOf t b.toNat →
      nfkc16 t (String.ofList (front ++ [b, a] ++ rest)) = .ok r) ∧
    (∀ (front rest : List Char) (c : Char), s.toList = front ++ [c] ++ rest →
      ∃ d : List Char, d.map Char.toNat = decompose t [c.toNat] ∧
        nfkc16 t (String.ofList (front ++ d ++ rest)) = .ok r) ∧
    (∀ cp, IsHangulSyllable cp →
      HangulJamo (decompose t [cp]) ∧ compose t (decompose t [cp]) = [cp]) ∧
    ∀ js, HangulJamo js → ∃ cp, IsHangulSyllable cp ∧ compose t js = [cp] ∧
      decompose t [cp] = js := by
  obtain ⟨hall, hr⟩ := nfkc16_eq_ok_iff.mp h
  refine ⟨?_, ?_, ?_, hangul_inverse wf⟩
  · rw [nfkc16_eq_ok_iff, hr, normalizeCodePoints_idem wf]
    refine ⟨?_, rfl⟩
    intro c hc
    have hmem := List.mem_map_of_mem (f := Char.toNat) hc
    rw [hr] at hmem
    refine assigned_normalizeCodePoints wf ?_ _ hmem
    simpa using hall
  · intro front rest a b hs ha hb hne
    refine nfkc16_replace h hs ?_ ?_
    · intro c hc
      refine hall c ?_
      rw [hs]
      simp only [List.mem_append, List.mem_cons, List.not_mem_nil, or_false] at hc ⊢
      tauto
    · -- The classes of the two marks are those of their decompositions.
      have hmark {x : ℕ} (hx : cccOf t x ≠ 0) : ∀ m ∈ decomposeOne t x, cccOf t m = cccOf t x :=
        fun m hm => cccOf_of_mem wf hx hm
      have hnil : decompose t [] = [] := rfl
      simp only [List.map_cons, List.map_nil, decompose_cons, hnil, List.append_nil]
      refine equivalent_append ?_ ?_
      · intro m hm
        rw [hmark hb m hm]
        exact hb
      · intro m hm n hn
        rw [hmark hb m hm, hmark ha n hn]
        exact ⟨ha, hne⟩
  · intro front rest c hs
    have hc : c ∈ s.toList := by
      rw [hs]
      simp
    have hvalid : ∀ d ∈ decompose t [c.toNat], d.isValidChar := by
      intro d hd
      rw [decompose_singleton] at hd
      exact isValidChar_of_mem wf c.valid hd
    have hchars : ((decompose t [c.toNat]).map Char.ofNat).map Char.toNat =
        decompose t [c.toNat] := by
      rw [List.map_map]
      conv_rhs => rw [← List.map_id (decompose t [c.toNat])]
      refine List.map_congr_left ?_
      intro d hd
      rw [Function.comp_apply, Char.toNat_ofNat, if_pos (hvalid d hd), id]
    refine ⟨(decompose t [c.toNat]).map Char.ofNat, hchars, nfkc16_replace h hs ?_ ?_⟩
    · intro x hx
      have hmem := List.mem_map_of_mem (f := Char.toNat) hx
      rw [hchars, decompose_singleton] at hmem
      exact assigned_of_mem wf (hall c hc) hmem
    · rw [hchars, List.map_singleton, decompose_eq_self (isDecomposed_decompose wf _)]
      exact .refl

/-! ## Letters with two marks -/

/-- The data of the letter `e` with a circumflex, a dot below or both. -/
def circumflexTables : Nfkc16Tables where
  decomposition cp :=
    [(0xEA, [0x65, 0x302]), (0x1EB9, [0x65, 0x323]), (0x1EC7, [0x65, 0x323, 0x302])].lookup cp
  ccc cp := [(0x302, 230), (0x323, 220)].lookup cp
  composition pair :=
    [((0x65, 0x302), 0xEA), ((0x65, 0x323), 0x1EB9), ((0x1EB9, 0x302), 0x1EC7)].lookup pair
  assigned := [(0, 0x377), (0x10D0, 0x1248), (0x1D00, 0x1F15), (0xAC00, 0xD7A3)]

theorem mem_of_lookup {α β : Type} [BEq α] [LawfulBEq α] {l : List (α × β)} {k : α} {v : β}
    (h : l.lookup k = some v) : (k, v) ∈ l := by
  obtain ⟨front, rest, rfl, -⟩ := List.lookup_eq_some_iff.mp h
  simp

theorem circumflexTables_listed {cp : ℕ} {mapped : List ℕ}
    (h : circumflexTables.decomposition cp = some mapped) :
    (cp = 0xEA ∧ mapped = [0x65, 0x302]) ∨ (cp = 0x1EB9 ∧ mapped = [0x65, 0x323]) ∨
      (cp = 0x1EC7 ∧ mapped = [0x65, 0x323, 0x302]) := by
  simpa using mem_of_lookup h

/-- Nothing is listed for Hangul. -/
theorem circumflexTables_hangul {cp : ℕ}
    (h : (0x1100 ≤ cp ∧ cp < 0x1200) ∨ (0xAC00 ≤ cp ∧ cp ≤ 0xD7A3)) :
    inRanges circumflexTables.assigned cp = true ∧ cccOf circumflexTables cp = 0 ∧
      circumflexTables.decomposition cp = none := by
  have hccc : circumflexTables.ccc cp = none := by
    refine List.lookup_eq_none_iff.mpr ?_
    simp only [List.forall_mem_cons, List.not_mem_nil, bne_iff_ne]
    exact ⟨by omega, by omega, by simp⟩
  refine ⟨?_, by rw [cccOf, hccc, Option.getD_none], ?_⟩
  · simp only [inRanges, circumflexTables, List.any_cons, List.any_nil, Bool.or_eq_true,
      Bool.and_eq_true, decide_eq_true_eq]
    omega
  · refine List.lookup_eq_none_iff.mpr ?_
    simp only [List.forall_mem_cons, List.not_mem_nil, bne_iff_ne]
    exact ⟨by omega, by omega, by omega, by simp⟩

theorem wellFormed_circumflexTables : circumflexTables.WellFormed where
  scalar cp mapped h := by
    rcases circumflexTables_listed h with ⟨rfl, rfl⟩ | ⟨rfl, rfl⟩ | ⟨rfl, rfl⟩ <;> decide
  assigned cp mapped h := by
    rcases circumflexTables_listed h with ⟨rfl, rfl⟩ | ⟨rfl, rfl⟩ | ⟨rfl, rfl⟩ <;> decide
  decomposed cp mapped h := by
    rcases circumflexTables_listed h with ⟨rfl, rfl⟩ | ⟨rfl, rfl⟩ | ⟨rfl, rfl⟩ <;> decide
  marks cp mapped h := by
    rcases circumflexTables_listed h with ⟨rfl, rfl⟩ | ⟨rfl, rfl⟩ | ⟨rfl, rfl⟩ <;> decide
  composites a b c h := by
    have hmem := mem_of_lookup h
    simp only [List.mem_cons, List.not_mem_nil, or_false, Prod.mk.injEq] at hmem
    rcases hmem with ⟨⟨rfl, rfl⟩, rfl⟩ | ⟨⟨rfl, rfl⟩, rfl⟩ | ⟨⟨rfl, rfl⟩, rfl⟩ <;> decide
  syllables cp h := by
    simp only [IsHangulSyllable, hangulSBase, hangulSCount, hangulLCount, hangulNCount,
      hangulVCount, hangulTCount] at h
    have hnone := circumflexTables_hangul (.inr (by omega : 0xAC00 ≤ cp ∧ cp ≤ 0xD7A3))
    exact ⟨hnone.1, hnone.2.1⟩
  jamo cp h := by
    simp only [IsHangulLeading, IsHangulVowel, IsHangulTrailing, hangulLBase, hangulVBase,
      hangulTBase, hangulLCount, hangulVCount, hangulTCount] at h
    exact circumflexTables_hangul (.inl (by omega))

/-- The marks in either order, and the letter that they are composed with. -/
theorem nfkc16_normal_circumflex :
    nfkc16 circumflexTables "\u1EC7" = .ok "\u1EC7" ∧
      nfkc16 circumflexTables (String.ofList (['e'] ++ ['\u0323', '\u0302'] ++ [])) = .ok "\u1EC7" := by
  have hnormal := nfkc16_normal circumflexTables wellFormed_circumflexTables "e\u0302\u0323" "\u1EC7"
    (by decide)
  exact ⟨hnormal.1, hnormal.2.1 ['e'] [] '\u0302' '\u0323' (by decide)
    (by decide) (by decide) (by decide)⟩

end Label309
