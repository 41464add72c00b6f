import Label309.Lib.DotSegments

/-!
# The text of a URL

A URL parser does not read a URL as it stands. Control characters and spaces are cut at both ends,
tabs and line breaks are dropped everywhere, a backslash is a slash where the scheme is one of the
web, and a dot of a dot segment may be percent-encoded. A text that is put behind another is read
behind it, when no character is cut where the two meet.
-/
namespace UrlText
open DotSegments

/-! ## Reading -/

/-- Cut at both ends. -/
def isC0OrSpace (c : Char) : Bool := c ≤ ' '

/-- Dropped wherever it stands. -/
def isTabOrNewline (c : Char) : Bool := c == '\t' || c == '\n' || c == '\r'

/-- The characters that are read. -/
def strip (cs : List Char) : List Char :=
  ((cs.dropWhile isC0OrSpace).rdropWhile isC0OrSpace).filter fun c => !isTabOrNewline c

/-- The schemes whose URLs are read like those of the web. -/
def specialSchemes : List (List Char) :=
  ["http".toList, "https".toList, "ws".toList, "wss".toList, "ftp".toList, "file".toList]

/-- The scheme is a special one, in any case. -/
def isSpecial (cs : List Char) : Bool :=
  specialSchemes.contains ((cs.takeWhile fun c => c ≠ ':').map Char.toLower)

/-- Under a special scheme a backslash is a slash. -/
def slashes (special : Bool) (cs : List Char) : List Char :=
  if special then cs.map fun c => if c = '\\' then '/' else c else cs

/-- A URL as its parser reads it, up to a query. -/
def readUrl (url : List Char) : List Char := slashes (isSpecial (strip url)) (strip url)

/-! ## Dot segments -/

/-- The spellings of a dot. -/
def singleDots : List (List Char) := [".".toList, "%2e".toList, "%2E".toList]

/-- The spellings of two dots: one of a dot, and one of a dot behind it. -/
def doubleDots : List (List Char) :=
  singleDots.flatMap fun first => singleDots.map fun second => first ++ second

def dotMove (s : List Char) : Move :=
  if s ∈ doubleDots then .up else if s ∈ singleDots then .stay else .into

theorem dotMove_of_notMem {s : List Char} (hone : s ∉ singleDots) (htwo : s ∉ doubleDots) :
    dotMove s = .into := by
  rw [dotMove, if_neg htwo, if_neg hone]

/-- A segment without a dot and a percent sign is no dot segment. -/
theorem dotMove_of_plain {s : List Char} (hdot : '.' ∉ s) (hpercent : '%' ∉ s) :
    dotMove s = .into := by
  have hone : ∀ s ∈ singleDots, '.' ∈ s ∨ '%' ∈ s := by decide
  have htwo : ∀ s ∈ doubleDots, '.' ∈ s ∨ '%' ∈ s := by decide
  have hnone : ¬ ('.' ∈ s ∨ '%' ∈ s) := not_or.mpr ⟨hdot, hpercent⟩
  exact dotMove_of_notMem (fun hmem => hnone (hone s hmem)) fun hmem => hnone (htwo s hmem)

/-! ## Joining -/

variable {cs ds : List Char} {special : Bool}

theorem slashes_append : slashes special (cs ++ ds) = slashes special cs ++ slashes special ds := by
  cases special with
  | false => rfl
  | true => exact List.map_append

theorem mem_of_mem_strip {c : Char} (h : c ∈ strip cs) : c ∈ cs :=
  (List.dropWhile_subset _) ((List.rdropWhile_prefix _ _).subset (List.mem_filter.mp h).1)

/-- What is read stands in the URL, or it is a slash. -/
theorem mem_of_mem_readUrl {c : Char} (h : c ∈ readUrl cs) : c ∈ strip cs ∨ c = '/' := by
  rw [readUrl, slashes] at h
  split at h
  · obtain ⟨d, hd, rfl⟩ := List.mem_map.mp h
    split
    · exact .inr rfl
    · exact .inl hd
  · exact .inl h

section Join
variable {c : Char} (hc : isC0OrSpace c = false)
include hc

theorem dropWhile_concat : (cs ++ [c]).dropWhile isC0OrSpace = cs.dropWhile isC0OrSpace ++ [c] := by
  rw [List.dropWhile_append]
  split
  · rename_i hempty
    rw [List.isEmpty_iff.mp hempty, List.dropWhile_cons_of_neg (by simp [hc]), List.nil_append]
  · rfl

/-- What is cut at the end is behind a character that is not cut. -/
theorem rdropWhile_append_cons :
    (cs ++ c :: ds).rdropWhile isC0OrSpace = cs ++ c :: ds.rdropWhile isC0OrSpace := by
  rw [List.rdropWhile, List.rdropWhile, List.reverse_append, List.reverse_cons, List.append_assoc,
    List.dropWhile_append]
  split
  · rename_i hempty
    rw [List.isEmpty_iff.mp hempty, List.singleton_append, List.dropWhile_cons_of_neg (by simp [hc]),
      List.reverse_cons, List.reverse_reverse, List.reverse_nil]
  · rw [List.reverse_append, List.singleton_append, List.reverse_cons, List.reverse_reverse,
      List.append_assoc, List.singleton_append]

theorem not_tabOrNewline : isTabOrNewline c = false := by
  rw [Bool.eq_false_iff]
  intro hline
  have hcut : isC0OrSpace c = true := by
    simp only [isTabOrNewline, Bool.or_eq_true, beq_iff_eq] at hline
    rcases hline with (rfl | rfl) | rfl <;> decide
  rw [hc] at hcut
  cases hcut

/-- A character at the front that is not cut is read first. -/
theorem strip_cons : ∃ rest, strip (c :: cs) = c :: rest := by
  have hback := @rdropWhile_append_cons [] cs c hc
  rw [List.nil_append, List.nil_append] at hback
  rw [strip, List.dropWhile_cons_of_neg (by simp [hc]), hback,
    List.filter_cons_of_pos (by simp [not_tabOrNewline hc])]
  exact ⟨_, rfl⟩

/-- A character at the end that is not cut is read last. -/
theorem strip_concat :
    strip (cs ++ [c]) =
      (cs.dropWhile isC0OrSpace).filter (fun c => !isTabOrNewline c) ++ [c] := by
  rw [strip, dropWhile_concat hc, List.rdropWhile_concat_neg _ _ _ (by simp [hc]),
    List.filter_append, List.filter_cons_of_pos (by simp [not_tabOrNewline hc]), List.filter_nil]

end Join

/-- **Two texts** are stripped apart, when nothing is cut where they meet. -/
theorem strip_append (hcs : ∀ c ∈ cs.getLast?, isC0OrSpace c = false)
    (hds : ∀ d ∈ ds.head?, isC0OrSpace d = false) : strip (cs ++ ds) = strip cs ++ strip ds := by
  rcases cs.eq_nil_or_concat with rfl | ⟨cs, c, rfl⟩
  · rfl
  rw [List.concat_eq_append] at hcs ⊢
  have hc : isC0OrSpace c = false := hcs c (by simp)
  cases ds with
  | nil =>
      have hnil : strip [] = [] := rfl
      rw [List.append_nil, hnil, List.append_nil]
  | cons d ds =>
      have hd : isC0OrSpace d = false := hds d rfl
      have hfront : (cs ++ [c] ++ d :: ds).dropWhile isC0OrSpace =
          cs.dropWhile isC0OrSpace ++ [c] ++ d :: ds := by
        rw [List.dropWhile_append, dropWhile_concat hc]
        simp
      rw [strip_concat hc, strip, strip, hfront, List.dropWhile_cons_of_neg (by simp [hd]),
        rdropWhile_append_cons hd, List.filter_append, List.filter_append,
        ← List.nil_append (d :: ds), rdropWhile_append_cons hd, List.nil_append,
        List.filter_cons_of_pos (by simp [not_tabOrNewline hc]), List.filter_nil]

/-- A URL is read with the scheme of its front. -/
theorem readUrl_append (hcs : ∀ c ∈ cs.getLast?, isC0OrSpace c = false)
    (hds : ∀ d ∈ ds.head?, isC0OrSpace d = false) (hcolon : ':' ∈ strip cs) :
    readUrl (cs ++ ds) = readUrl cs ++ slashes (isSpecial (strip cs)) (strip ds) := by
  have hscheme : isSpecial (strip cs ++ strip ds) = isSpecial (strip cs) := by
    rw [isSpecial, isSpecial, List.takeWhile_append, if_neg]
    intro hall
    have hself := List.takeWhile_eq_self_iff.mp ((List.takeWhile_prefix _).eq_of_length hall)
    exact absurd (hself _ hcolon) (by decide)
  rw [readUrl, readUrl, strip_append hcs hds, hscheme, slashes_append]

theorem readUrl_concat_slash : ∃ front, readUrl (cs ++ ['/']) = front ++ ['/'] := by
  have hslash (special : Bool) : slashes special ['/'] = ['/'] := by
    cases special <;> rfl
  rw [readUrl, strip_concat (by decide), slashes_append, hslash]
  exact ⟨_, rfl⟩

/-! ## Plain texts -/

/-- A character that is read as it is wherever it stands. -/
def isVisible (c : Char) : Bool := !isC0OrSpace c && c != '\\'

theorem not_cut_of_visible (h : ∀ c ∈ cs, isVisible c = true) :
    ∀ c ∈ cs, isC0OrSpace c = false := by
  intro c hc
  have hvisible := h c hc
  simp only [isVisible, Bool.and_eq_true, Bool.not_eq_true'] at hvisible
  exact hvisible.1

theorem strip_of_visible (h : ∀ c ∈ cs, isVisible c = true) : strip cs = cs := by
  have hcut := not_cut_of_visible h
  have hfront : cs.dropWhile isC0OrSpace = cs := by
    cases cs with
    | nil => rfl
    | cons c cs => exact List.dropWhile_cons_of_neg (by simp [hcut c List.mem_cons_self])
  have hback : cs.rdropWhile isC0OrSpace = cs := by
    refine List.rdropWhile_eq_self_iff.mpr ?_
    intro hne
    simp [hcut _ (List.getLast_mem hne)]
  rw [strip, hfront, hback, List.filter_eq_self]
  intro c hc
  simp [not_tabOrNewline (hcut c hc)]

theorem slashes_of_visible (h : ∀ c ∈ cs, isVisible c = true) : slashes special cs = cs := by
  cases special with
  | false => rfl
  | true =>
      refine (List.map_congr_left ?_).trans (List.map_id _)
      intro c hc
      have hvisible := h c hc
      simp only [isVisible, Bool.and_eq_true, bne_iff_ne] at hvisible
      exact if_neg hvisible.2

/-- **A visible text is read as it is.** -/
theorem slashes_strip_of_visible (h : ∀ c ∈ cs, isVisible c = true) :
    slashes special (strip cs) = cs := by
  rw [strip_of_visible h, slashes_of_visible h]

theorem readUrl_of_visible (h : ∀ c ∈ cs, isVisible c = true) : readUrl cs = cs :=
  slashes_strip_of_visible h

end UrlText
