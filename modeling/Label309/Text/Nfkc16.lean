import Label309.Lib.CanonicalOrder

/-!
# NFKC over pinned tables

A text is decomposed, its combining marks are put in order, and what can be composed is composed.
The syllables of Hangul are decomposed and composed by arithmetic, and everything else by tables
that a caller gives.
-/
namespace Label309

/-! ## Tables -/

/-- Code points and what the pinned data says of them. -/
structure Nfkc16Tables where
  decomposition : ℕ → Option (List ℕ)
  ccc : ℕ → Option ℕ
  composition : ℕ × ℕ → Option ℕ
  /-- Inclusive ranges that are sorted and do not overlap. -/
  assigned : List (ℕ × ℕ)

/-- A code point without an assignment. -/
inductive Nfkc16Error
  | unassignedCodePoint (codePoint : ℕ)
  /-- The panic of the last step: a code point that is no Unicode scalar value. -/
  | notScalar
deriving DecidableEq, Repr

def hangulSBase : ℕ := 0xAC00
def hangulLBase : ℕ := 0x1100
def hangulVBase : ℕ := 0x1161
def hangulTBase : ℕ := 0x11A7
def hangulLCount : ℕ := 19
def hangulVCount : ℕ := 21
def hangulTCount : ℕ := 28
def hangulNCount : ℕ := hangulVCount * hangulTCount
def hangulSCount : ℕ := hangulLCount * hangulNCount

/-- What the search of the source finds in ranges that are sorted and do not overlap. -/
def inRanges (ranges : List (ℕ × ℕ)) (codePoint : ℕ) : Bool :=
  ranges.any fun range => range.1 ≤ codePoint && codePoint ≤ range.2

/-- The combining class, zero where none is listed. -/
def cccOf (t : Nfkc16Tables) (codePoint : ℕ) : ℕ := (t.ccc codePoint).getD 0

/-! ## Decomposition and order -/

def IsHangulSyllable (cp : ℕ) : Prop := hangulSBase ≤ cp ∧ cp < hangulSBase + hangulSCount

def IsHangulLeading (cp : ℕ) : Prop := hangulLBase ≤ cp ∧ cp < hangulLBase + hangulLCount

def IsHangulVowel (cp : ℕ) : Prop := hangulVBase ≤ cp ∧ cp < hangulVBase + hangulVCount

def IsHangulTrailing (cp : ℕ) : Prop := hangulTBase + 1 ≤ cp ∧ cp < hangulTBase + hangulTCount

instance (cp : ℕ) : Decidable (IsHangulSyllable cp) := inferInstanceAs (Decidable (_ ∧ _))
instance (cp : ℕ) : Decidable (IsHangulLeading cp) := inferInstanceAs (Decidable (_ ∧ _))
instance (cp : ℕ) : Decidable (IsHangulVowel cp) := inferInstanceAs (Decidable (_ ∧ _))
instance (cp : ℕ) : Decidable (IsHangulTrailing cp) := inferInstanceAs (Decidable (_ ∧ _))

/-- The full decomposition of a code point. -/
def decomposeOne (t : Nfkc16Tables) (cp : ℕ) : List ℕ :=
  if IsHangulSyllable cp then
    let sIndex := cp - hangulSBase
    let trailing := sIndex % hangulTCount
    [hangulLBase + sIndex / hangulNCount,
      hangulVBase + sIndex % hangulNCount / hangulTCount] ++
        if trailing ≠ 0 then [hangulTBase + trailing] else []
  else (t.decomposition cp).getD [cp]

/-- The full decomposition of a text. -/
def decompose (t : Nfkc16Tables) (codePoints : List ℕ) : List ℕ :=
  codePoints.flatMap (decomposeOne t)

/-- The stable insertion sort of the marks between two characters of class zero. -/
def canonicalReorder (t : Nfkc16Tables) (codePoints : List ℕ) : List ℕ :=
  CanonicalOrder.reorder (cccOf t) codePoints

/-! ## Composition -/

/-- The primary composite of two code points. -/
def composePair (t : Nfkc16Tables) (a b : ℕ) : Option ℕ :=
  if IsHangulLeading a ∧ IsHangulVowel b then
    some (hangulSBase +
      ((a - hangulLBase) * hangulVCount + (b - hangulVBase)) * hangulTCount)
  else if IsHangulSyllable a ∧ (a - hangulSBase) % hangulTCount = 0 ∧ IsHangulTrailing b then
    some (a + (b - hangulTBase))
  else t.composition (a, b)

/-- What has been composed, the place of the last starter, and the class of the last character
that was put behind it. -/
structure Composing where
  out : List ℕ
  starterIdx : Option ℕ
  lastCcc : ℕ

/-- The composite that a character is taken into, and its place. A starter has its place among
what has been composed. -/
def Composing.composite (t : Nfkc16Tables) (st : Composing) (cp : ℕ) : Option (ℕ × ℕ) := do
  let idx ← st.starterIdx
  if idx = st.out.length - 1 ∨ st.lastCcc < cccOf t cp then
    let starter ← st.out[idx]?
    let composed ← composePair t starter cp
    some (idx, composed)
  else none

/-- Take in one code point. -/
def composeStep (t : Nfkc16Tables) (st : Composing) (cp : ℕ) : Composing :=
  match st.composite t cp with
  | some (idx, composed) => { st with out := st.out.set idx composed }
  | none =>
      { out := st.out ++ [cp]
        starterIdx := if cccOf t cp = 0 then some st.out.length else st.starterIdx
        lastCcc := cccOf t cp }

/-- Compose from the left. -/
def compose (t : Nfkc16Tables) (codePoints : List ℕ) : List ℕ :=
  (codePoints.foldl (composeStep t) ⟨[], none, 0⟩).out

/-! ## Normalization -/

def charFromU32 (cp : ℕ) : Option Char :=
  if cp.isValidChar then some (Char.ofNat cp) else none

/-- The code points of a text that is normalized. -/
def normalizeCodePoints (t : Nfkc16Tables) (codePoints : List ℕ) : List ℕ :=
  compose t (canonicalReorder t (decompose t codePoints))

/-- The normal form of a text. -/
def nfkc16 (t : Nfkc16Tables) (input : String) : Except Nfkc16Error String :=
  let codePoints := input.toList.map Char.toNat
  match codePoints.find? fun cp => !inRanges t.assigned cp with
  | some cp => .error (.unassignedCodePoint cp)
  | none =>
      match (normalizeCodePoints t codePoints).mapM charFromU32 with
      | some chars => .ok (String.ofList chars)
      | none => .error .notScalar

end Label309
