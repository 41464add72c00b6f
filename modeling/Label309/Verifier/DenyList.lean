import Label309.Lib.Lowercase
import Label309.Verifier.Egress

/-!
# The spellings of a denied host

A host is written with its letters in any case, in brackets or not, and with dots after it. The deny
list reads a host through its brackets or its dot but not through both, and it does not read the
brackets of a pattern.
-/
namespace Label309
open Lowercase

/-- The characters of a host between its brackets and before its dots. -/
structure HostCore where
  chars : List Char
  notOpened : chars.head? ≠ some '['
  notClosed : chars.getLast? ≠ some ']'
  notDotted : chars.getLast? ≠ some '.'

/-- One way to write a host. -/
structure HostSpelling (core : HostCore) where
  letters : List Char
  sameLetters : SameLetters letters core.chars
  bracketed : Bool
  dotsInside : ℕ
  dotsAfter : ℕ

namespace HostSpelling
variable {core : HostCore} (sp : HostSpelling core)

def inner : List Char := sp.letters ++ List.replicate sp.dotsInside '.'

def chars : List Char :=
  (if sp.bracketed then '[' :: (sp.inner ++ [']']) else sp.inner) ++
    List.replicate sp.dotsAfter '.'

def toString : String := String.ofList sp.chars

/-- The spelling of a host that the deny list reads. -/
def ReadAsHost : Prop :=
  if sp.bracketed then sp.dotsAfter = 0 ∧ sp.dotsInside ≤ 1 else sp.dotsInside + sp.dotsAfter ≤ 1

/-- The spelling of a pattern that the deny list reads. -/
def ReadAsPattern : Prop := sp.bracketed = false

instance : Decidable sp.ReadAsHost := by
  unfold ReadAsHost
  infer_instance

instance : Decidable sp.ReadAsPattern := by
  unfold ReadAsPattern
  infer_instance

end HostSpelling

/-- What the deny list says of a host, where both are canonical. -/
def Denies (pattern h : String) : Prop :=
  pattern = h ∨
    (∃ suffix, pattern.toList = '*' :: '.' :: suffix ∧ '.' :: suffix <:+ h.toList) ∨
    pattern = "localhost" ∧ (h = "::1" ∨ h = "0.0.0.0" ∨ h = "169.254.169.254") ∨
    pattern = "127.0.0.1" ∧ isLoopback127 h = true

/-! ## The code on its own texts -/

section Patterns
variable {text : TextPrimitives} {h raw : String}

/-- The pattern that a deny host stands for. -/
def canonicalisePattern (text : TextPrimitives) (raw : String) : String :=
  text.toLowercase (String.ofList (raw.toList.reverse.dropWhile (· = '.')).reverse)

theorem matchesPattern_iff :
    matchesPattern text h raw = true ↔ Denies (canonicalisePattern text raw) h := by
  rw [matchesPattern, ← canonicalisePattern]
  generalize canonicalisePattern text raw = pattern
  split
  · next suffix hpattern =>
    rw [List.isSuffixOf_iff_suffix]
    constructor
    · intro hsuffix
      exact .inr (.inl ⟨suffix, hpattern, hsuffix⟩)
    · intro hdenies
      rcases hdenies with heq | ⟨suffix', hpattern', hsuffix⟩ | ⟨hlocal, -⟩ | ⟨hloop, -⟩
      · rw [← heq, hpattern]
        exact List.suffix_cons '*' _
      · rw [hpattern] at hpattern'
        cases hpattern'
        exact hsuffix
      · have hhead := congrArg List.head? hpattern
        rw [hlocal, List.head?_cons] at hhead
        exact absurd hhead (by decide)
      · have hhead := congrArg List.head? hpattern
        rw [hloop, List.head?_cons] at hhead
        exact absurd hhead (by decide)
  · next hno =>
    have hnone : ¬ ∃ suffix, pattern.toList = '*' :: '.' :: suffix ∧ '.' :: suffix <:+ h.toList := by
      intro hsome
      obtain ⟨suffix, hpattern, -⟩ := hsome
      exact hno suffix hpattern
    simp only [Denies, hnone, false_or, Bool.or_eq_true, Bool.and_eq_true, decide_eq_true_eq,
      or_assoc, eq_comm (a := h) (b := pattern)]

theorem getLast?_of_isLoopback127 (hloop : isLoopback127 h = true) :
    ∃ c, h.toList.getLast? = some c ∧ c.isDigit = true := by
  rw [isLoopback127] at hloop
  have hjoin : ['.'].intercalate (h.toList.splitOn '.') = h.toList :=
    List.intercalate_splitOn '.'
  split at hloop
  · next a b c d hsplit =>
    rw [hsplit] at hjoin
    simp only [Bool.and_eq_true, List.all_cons, isOctet, decide_eq_true_eq] at hloop
    obtain ⟨-, -, -, -, ⟨⟨hne, -⟩, hdigits⟩, -⟩ := hloop
    have hends : h.toList = (a ++ '.' :: (b ++ '.' :: (c ++ ['.']))) ++ d := by
      rw [← hjoin]
      simp [List.intercalate]
    have hlast : h.toList.getLast? = d.getLast? := by
      rw [hends, List.getLast?_append_of_ne_nil _ hne]
    exact ⟨d.getLast hne, hlast.trans (List.getLast?_eq_getLast_of_ne_nil hne),
      List.all_eq_true.mp hdigits _ (List.getLast_mem hne)⟩
  · cases hloop

/-- A denied host ends as its pattern does, or with a digit. -/
theorem Denies.getLast? {pattern : String} (hdenies : Denies pattern h) :
    h.toList.getLast? = pattern.toList.getLast? ∨
      ∃ c, h.toList.getLast? = some c ∧ c.isDigit = true := by
  rcases hdenies with heq | ⟨suffix, hpattern, hsuffix⟩ | ⟨-, hlocal⟩ | ⟨-, hloop⟩
  · rw [heq]
    exact .inl rfl
  · left
    obtain ⟨front, hfront⟩ := hsuffix
    rw [hpattern, ← hfront, List.getLast?_append_of_ne_nil _ (List.cons_ne_nil _ _),
      List.getLast?_cons_cons]
  · right
    rcases hlocal with rfl | rfl | rfl
    · exact ⟨'1', by decide, by decide⟩
    · exact ⟨'0', by decide, by decide⟩
    · exact ⟨'4', by decide, by decide⟩
  · exact .inr (getLast?_of_isLoopback127 hloop)

/-- A pattern in brackets denies only a host in brackets. -/
theorem Denies.head? {pattern : String} (hdenies : Denies pattern h)
    (hbracket : pattern.toList.head? = some '[') : h.toList.head? = some '[' := by
  rcases hdenies with heq | ⟨suffix, hpattern, -⟩ | ⟨hlocal, -⟩ | ⟨hloop, -⟩
  · rwa [← heq]
  · rw [hpattern] at hbracket
    exact absurd hbracket (by simp)
  · rw [hlocal] at hbracket
    exact absurd hbracket (by decide)
  · rw [hloop] at hbracket
    exact absurd hbracket (by decide)

end Patterns

/-! ## Strips -/

section Strips
variable {c : Char} {l : List Char}

theorem stripFirst_cons (c : Char) (l : List Char) : stripFirst c (c :: l) = l := by
  rw [stripFirst, List.head?_cons, if_pos rfl]
  rfl

theorem stripFirst_of_ne (h : l.head? ≠ some c) : stripFirst c l = l := if_neg h

theorem stripLast_concat (c : Char) (l : List Char) : stripLast c (l ++ [c]) = l := by
  rw [stripLast, if_pos (by simp), List.dropLast_concat]

theorem stripLast_of_ne (h : l.getLast? ≠ some c) : stripLast c l = l := if_neg h

/-- One dot of many is stripped. -/
theorem stripLast_replicate (h : l.getLast? ≠ some c) (n : ℕ) :
    stripLast c (l ++ List.replicate n c) = l ++ List.replicate (n - 1) c := by
  cases n with
  | zero => rw [List.replicate_zero, List.append_nil, stripLast_of_ne h]
  | succ n =>
      rw [List.replicate_succ', ← List.append_assoc, stripLast_concat, Nat.add_sub_cancel]

/-- All dots are trimmed. -/
theorem trimEnd_replicate (h : l.getLast? ≠ some c) (n : ℕ) :
    ((l ++ List.replicate n c).reverse.dropWhile (· = c)).reverse = l := by
  rw [List.reverse_append, List.reverse_replicate]
  induction n with
  | zero =>
      rw [List.replicate_zero, List.nil_append]
      cases hl : l.reverse with
      | nil => rw [← List.reverse_reverse l, hl]; rfl
      | cons d rest =>
          have hd : d ≠ c := by
            intro heq
            rw [← List.head?_reverse, hl, heq] at h
            exact h rfl
          rw [List.dropWhile_cons_of_neg (by simpa using hd), ← hl, List.reverse_reverse]
  | succ n ih =>
      rw [List.replicate_succ, List.cons_append, List.dropWhile_cons_of_pos (by simp), ih]

theorem head?_append_ne {l' : List Char} (h : l.head? ≠ some c) (h' : l'.head? ≠ some c) :
    (l ++ l').head? ≠ some c := by
  cases l with
  | nil => exact h'
  | cons d rest => exact h

theorem head?_replicate_ne {d : Char} (h : d ≠ c) (n : ℕ) :
    (List.replicate n d).head? ≠ some c := by
  cases n with
  | zero => exact nofun
  | succ n =>
      rw [List.replicate_succ, List.head?_cons]
      exact fun heq => h (Option.some.inj heq)

end Strips

/-! ## Spellings -/

section Spellings
variable {t : CaseTable} {text : TextPrimitives} {core : HostCore} (sp : HostSpelling core)

/-- The text functions of the environment take the lowercase of the table. -/
def Lowercases (text : TextPrimitives) (t : CaseTable) : Prop :=
  ∀ s, text.toLowercase s = String.ofList (toLowercase t s.toList)

/-- The canonical host of all spellings that are read. -/
def HostCore.canonical (t : CaseTable) (core : HostCore) : String :=
  String.ofList (toLowercase t core.chars)

theorem isMark_open : IsMark '[' := by decide

theorem isMark_close : IsMark ']' := by decide

theorem isMark_dot : IsMark '.' := by decide

namespace HostSpelling

theorem head?_letters (t : CaseTable) {x : Char} (hmark : IsMark x) :
    sp.letters.head? = some x ↔ core.chars.head? = some x := by
  rw [← head?_toLowercase (t := t) hmark, toLowercase_congr sp.sameLetters, head?_toLowercase hmark]

theorem getLast?_letters (t : CaseTable) {x : Char} (hmark : IsMark x) :
    sp.letters.getLast? = some x ↔ core.chars.getLast? = some x := by
  rw [← getLast?_toLowercase (t := t) hmark, toLowercase_congr sp.sameLetters,
    getLast?_toLowercase hmark]

/-- What is left of a host when its brackets and its dot are stripped. -/
def stripped : List Char := stripLast '.' (stripLast ']' (stripFirst '[' sp.chars))

theorem stripped_eq (t : CaseTable) : sp.stripped =
    if sp.bracketed then
      if sp.dotsAfter = 0 then sp.letters ++ List.replicate (sp.dotsInside - 1) '.'
      else sp.inner ++ ']' :: List.replicate (sp.dotsAfter - 1) '.'
    else sp.letters ++ List.replicate (sp.dotsInside + sp.dotsAfter - 1) '.' := by
  have hopen := (sp.head?_letters t isMark_open).not.mpr core.notOpened
  have hclose := (sp.getLast?_letters t isMark_close).not.mpr core.notClosed
  have hdot := (sp.getLast?_letters t isMark_dot).not.mpr core.notDotted
  rw [stripped, HostSpelling.chars, inner]
  cases sp.bracketed with
  | true =>
      rw [if_pos rfl, if_pos rfl, List.cons_append, stripFirst_cons]
      cases sp.dotsAfter with
      | zero => rw [List.replicate_zero, List.append_nil, stripLast_concat, if_pos rfl,
          stripLast_replicate hdot]
      | succ n =>
          have hkept : (sp.letters ++ List.replicate sp.dotsInside '.' ++ [']'] ++
              List.replicate (n + 1) '.').getLast? ≠ some ']' := by
            rw [List.replicate_succ', ← List.append_assoc, List.getLast?_concat]
            decide
          rw [stripLast_of_ne hkept, stripLast_replicate (by simp), if_neg (Nat.succ_ne_zero n),
            ← List.append_cons]
  | false =>
      rw [if_neg Bool.false_ne_true, if_neg Bool.false_ne_true, List.append_assoc,
        List.replicate_append_replicate]
      have hfirst : (sp.letters ++ List.replicate (sp.dotsInside + sp.dotsAfter) '.').head? ≠
          some '[' := head?_append_ne hopen (head?_replicate_ne (by decide) _)
      have hlast : (sp.letters ++ List.replicate (sp.dotsInside + sp.dotsAfter) '.').getLast? ≠
          some ']' := by
        cases sp.dotsInside + sp.dotsAfter with
        | zero => rwa [List.replicate_zero, List.append_nil]
        | succ n =>
            rw [List.replicate_succ', ← List.append_assoc, List.getLast?_concat]
            decide
      rw [stripFirst_of_ne hfirst, stripLast_of_ne hlast, stripLast_replicate hdot]

theorem stripped_of_readAsHost (t : CaseTable) (hread : sp.ReadAsHost) :
    sp.stripped = sp.letters := by
  rw [sp.stripped_eq t]
  rw [ReadAsHost] at hread
  cases hbracketed : sp.bracketed with
  | true =>
      rw [hbracketed, if_pos rfl] at hread
      rw [if_pos rfl, if_pos hread.1, Nat.sub_eq_zero_of_le hread.2, List.replicate_zero,
        List.append_nil]
  | false =>
      rw [hbracketed, if_neg Bool.false_ne_true] at hread
      rw [if_neg Bool.false_ne_true, Nat.sub_eq_zero_of_le hread, List.replicate_zero,
        List.append_nil]

/-- A spelling that is not read leaves a bracket or a dot at the end. -/
theorem getLast?_stripped (t : CaseTable) (hread : ¬ sp.ReadAsHost) :
    sp.stripped.getLast? = some ']' ∨ sp.stripped.getLast? = some '.' := by
  have hdots : ∀ (l : List Char) n, 1 ≤ n → (l ++ List.replicate n '.').getLast? = some '.' := by
    intro l n hn
    obtain ⟨m, rfl⟩ := Nat.exists_eq_succ_of_ne_zero (Nat.one_le_iff_ne_zero.mp hn)
    rw [Nat.succ_eq_add_one, List.replicate_succ', ← List.append_assoc, List.getLast?_concat]
  rw [sp.stripped_eq t]
  rw [ReadAsHost] at hread
  cases hbracketed : sp.bracketed with
  | true =>
      rw [hbracketed, if_pos rfl] at hread
      rw [if_pos rfl]
      by_cases hafter : sp.dotsAfter = 0
      · rw [if_pos hafter]
        exact .inr (hdots _ _ (by omega))
      · rw [if_neg hafter]
        by_cases hone : sp.dotsAfter - 1 = 0
        · rw [hone, List.replicate_zero, List.getLast?_concat]
          exact .inl rfl
        · rw [List.append_cons]
          exact .inr (hdots _ _ (by omega))
  | false =>
      rw [hbracketed, if_neg Bool.false_ne_true] at hread
      rw [if_neg Bool.false_ne_true]
      exact .inr (hdots _ _ (by omega))

theorem head?_stripped (t : CaseTable) : sp.stripped.head? ≠ some '[' := by
  have hopen := (sp.head?_letters t isMark_open).not.mpr core.notOpened
  have hdots := @head?_replicate_ne '[' '.' (by decide)
  rw [sp.stripped_eq t]
  cases sp.bracketed with
  | true =>
      rw [if_pos rfl]
      by_cases hafter : sp.dotsAfter = 0
      · rw [if_pos hafter]
        exact head?_append_ne hopen (hdots _)
      · rw [if_neg hafter, inner, List.append_assoc]
        exact head?_append_ne hopen (head?_append_ne (hdots _) (by simp))
  | false =>
      rw [if_neg Bool.false_ne_true]
      exact head?_append_ne hopen (hdots _)

/-- The host and the pattern that are canonical, written as they are. -/
def plain (core : HostCore) : HostSpelling core := ⟨core.chars, rfl, false, 0, 0⟩

section Lowercased
variable (htext : Lowercases text t)
include htext

theorem toList_canonicaliseHost :
    (canonicaliseHost text sp.toString).toList = toLowercase t sp.stripped := by
  rw [canonicaliseHost, toString, String.toList_ofList, htext, String.toList_ofList,
    String.toList_ofList]
  rfl

theorem canonicaliseHost_of_read (hread : sp.ReadAsHost) :
    canonicaliseHost text sp.toString = core.canonical t := by
  apply String.toList_injective
  rw [sp.toList_canonicaliseHost htext, sp.stripped_of_readAsHost t hread, HostCore.canonical,
    String.toList_ofList, toLowercase_congr sp.sameLetters]

theorem canonicalisePattern_of_read (hread : sp.ReadAsPattern) :
    canonicalisePattern text sp.toString = core.canonical t := by
  have hdot := (sp.getLast?_letters t isMark_dot).not.mpr core.notDotted
  rw [canonicalisePattern, toString, String.toList_ofList, HostSpelling.chars, inner,
    show sp.bracketed = false from hread, if_neg Bool.false_ne_true, List.append_assoc,
    List.replicate_append_replicate, trimEnd_replicate hdot, htext, String.toList_ofList,
    toLowercase_congr sp.sameLetters]
  rfl

/-- The brackets of a pattern stay. -/
theorem head?_canonicalisePattern (hread : ¬ sp.ReadAsPattern) :
    (canonicalisePattern text sp.toString).toList.head? = some '[' := by
  have hbracketed : sp.bracketed = true := Bool.not_eq_false _ ▸ hread
  have hclosed : ('[' :: (sp.inner ++ [']'])).getLast? ≠ some '.' := by
    rw [← List.cons_append, List.getLast?_concat]
    decide
  rw [canonicalisePattern, toString, String.toList_ofList, HostSpelling.chars, hbracketed,
    if_pos rfl, trimEnd_replicate hclosed, htext, String.toList_ofList, String.toList_ofList,
    head?_toLowercase isMark_open, List.head?_cons]

end Lowercased

end HostSpelling

/-- A host is denied when both spellings are read and the canonical texts match. -/
theorem matchesDenyList_iff (htext : Lowercases text t) {hostCore patternCore : HostCore}
    (h : HostSpelling hostCore) (p : HostSpelling patternCore) :
    matchesDenyList text h.toString [p.toString] = true ↔
      h.ReadAsHost ∧ p.ReadAsPattern ∧
        Denies (patternCore.canonical t) (hostCore.canonical t) := by
  rw [matchesDenyList, List.any_cons, List.any_nil, Bool.or_false, matchesPattern_iff]
  constructor
  · intro hdenies
    have hpattern : p.ReadAsPattern := by
      by_contra hread
      have hhead := hdenies.head? (p.head?_canonicalisePattern htext hread)
      rw [h.toList_canonicaliseHost htext, head?_toLowercase isMark_open] at hhead
      exact h.head?_stripped t hhead
    rw [p.canonicalisePattern_of_read htext hpattern] at hdenies
    have hhost : h.ReadAsHost := by
      by_contra hread
      have hlast := hdenies.getLast?
      rw [h.toList_canonicaliseHost htext, HostCore.canonical, String.toList_ofList] at hlast
      rcases h.getLast?_stripped t hread with hclose | hdot
      · rw [← getLast?_toLowercase (t := t) isMark_close] at hclose
        rw [hclose] at hlast
        rcases hlast with hsame | ⟨c, hc, hdigit⟩
        · exact patternCore.notClosed ((getLast?_toLowercase isMark_close).mp hsame.symm)
        · cases hc
          exact absurd hdigit (by decide)
      · rw [← getLast?_toLowercase (t := t) isMark_dot] at hdot
        rw [hdot] at hlast
        rcases hlast with hsame | ⟨c, hc, hdigit⟩
        · exact patternCore.notDotted ((getLast?_toLowercase isMark_dot).mp hsame.symm)
        · cases hc
          exact absurd hdigit (by decide)
    rw [h.canonicaliseHost_of_read htext hhost] at hdenies
    exact ⟨hhost, hpattern, hdenies⟩
  · intro hread
    obtain ⟨hhost, hpattern, hdenies⟩ := hread
    rwa [p.canonicalisePattern_of_read htext hpattern, h.canonicaliseHost_of_read htext hhost]

/-- **Two spellings of a host and a pattern are treated alike exactly when both or none are read, or
the canonical texts do not match at all.** Canonical texts match as documented. -/
theorem spellings_alike_iff (htext : Lowercases text t) :
    (∀ {hostCore patternCore : HostCore} (h h' : HostSpelling hostCore)
        (p p' : HostSpelling patternCore),
      matchesDenyList text h'.toString [p'.toString] =
          matchesDenyList text h.toString [p.toString] ↔
        ((h'.ReadAsHost ∧ p'.ReadAsPattern ↔ h.ReadAsHost ∧ p.ReadAsPattern) ∨
          ¬ Denies (patternCore.canonical t) (hostCore.canonical t))) ∧
      ∀ h p : HostCore, h.canonical t = String.ofList h.chars →
        p.canonical t = String.ofList p.chars →
        String.ofList p.chars ≠ "localhost" → String.ofList p.chars ≠ "127.0.0.1" →
        (matchesDenyList text (String.ofList h.chars) [String.ofList p.chars] = true ↔
          p.chars = h.chars ∨
            ∃ suffix, p.chars = '*' :: '.' :: suffix ∧ '.' :: suffix <:+ h.chars) := by
  refine ⟨?_, ?_⟩
  · intro hostCore patternCore h h' p p'
    rw [Bool.eq_iff_iff, matchesDenyList_iff htext, matchesDenyList_iff htext]
    by_cases hdenies : Denies (patternCore.canonical t) (hostCore.canonical t)
    · simp only [hdenies, and_true, not_true_eq_false, or_false]
    · simp only [hdenies, and_false, not_false_eq_true, or_true]
  · intro h p hh hp hlocal hloop
    have hplain := matchesDenyList_iff htext (HostSpelling.plain h) (HostSpelling.plain p)
    have htext' : ∀ core : HostCore,
        (HostSpelling.plain core).toString = String.ofList core.chars := by
      intro core
      rw [HostSpelling.toString, HostSpelling.chars]
      simp [HostSpelling.plain, HostSpelling.inner]
    have hread : (HostSpelling.plain h).ReadAsHost ∧ (HostSpelling.plain p).ReadAsPattern :=
      ⟨by simp [HostSpelling.ReadAsHost, HostSpelling.plain], rfl⟩
    rw [htext', htext', hh, hp] at hplain
    rw [hplain, and_iff_right hread.1, and_iff_right hread.2, Denies, String.ofList_inj,
      String.toList_ofList, String.toList_ofList]
    simp [hlocal, hloop]

end Spellings

/-! ## Two spellings -/

theorem isLower_of_mem_toLower (c : Char) (hc : 128 ≤ c.toNat) (x : Char) (hx : x ∈ [c.toLower])
    (hlt : x.toNat < 128) : x.isLower = true := by
  rw [List.mem_singleton] at hx
  have hletter : c.isAlpha = false := by
    by_contra hnot
    have hascii := toNat_lt_of_isAlpha (Bool.not_eq_false _ ▸ hnot)
    omega
  rw [hx, toLower_of_not_isAlpha hletter] at hlt
  omega

/-- The table of a text that has only characters of ASCII. -/
def asciiTable : CaseTable where
  toLower := fun c => [c.toLower]
  cased := Char.isAlpha
  caseIgnorable := fun _ => false
  toLower_ascii := fun _ _ => rfl
  toLower_ne_nil := fun _ => List.cons_ne_nil _ _
  toLower_other := isLower_of_mem_toLower
  cased_letter := fun _ h => h
  caseIgnorable_letter := fun _ _ => rfl

def asciiText : TextPrimitives where
  toLowercase := fun s => String.ofList (toLowercase asciiTable s.toList)
  debug := id
  parseUrl := fun _ => none

/-- The URLs of the samples are absolute. -/
def absoluteText : TextPrimitives :=
  { asciiText with
    parseUrl := fun url =>
      if "https://".toList.isPrefixOf url.toList then
        some ("https", some (String.ofList ((url.toList.drop 8).takeWhile (· ≠ '/'))))
      else none }

/-- The loopback address of the sixth version. -/
def loopbackCore : HostCore where
  chars := "::1".toList
  notOpened := by decide
  notClosed := by decide
  notDotted := by decide

/-- Its spelling in brackets. -/
def bracketedLoopback : HostSpelling loopbackCore where
  letters := "::1".toList
  sameLetters := rfl
  bracketed := true
  dotsInside := 0
  dotsAfter := 0

/-- A host in brackets is denied as one without them. -/
theorem spellings_alike_bracketed :
    (matchesDenyList asciiText bracketedLoopback.toString
        [(HostSpelling.plain loopbackCore).toString] =
      matchesDenyList asciiText (HostSpelling.plain loopbackCore).toString
        [(HostSpelling.plain loopbackCore).toString]) ∧
    (matchesDenyList asciiText (String.ofList loopbackCore.chars)
        [String.ofList loopbackCore.chars] = true ↔
      loopbackCore.chars = loopbackCore.chars ∨ ∃ suffix, loopbackCore.chars = '*' :: '.' :: suffix ∧
        '.' :: suffix <:+ loopbackCore.chars) := by
  have halike := @spellings_alike_iff asciiTable asciiText fun _ => rfl
  exact ⟨(halike.1 _ _ _ _).mpr (.inl (by decide)),
    halike.2 _ _ (by decide) (by decide) (by decide) (by decide)⟩

/-- The same address denies its host, but not when it is written in brackets. -/
theorem not_spellings_alike_pattern :
    ¬ matchesDenyList asciiText (HostSpelling.plain loopbackCore).toString
        [bracketedLoopback.toString] =
      matchesDenyList asciiText (HostSpelling.plain loopbackCore).toString
        [(HostSpelling.plain loopbackCore).toString] := by
  decide

end Label309
