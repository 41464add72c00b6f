import Label309.Verifier.Types

/-!
# The order of a report

Issues are put in the order of their paths, and under one path in the order of the registry. Two
issues without an order between them have one path and one code, so the paths and codes of a sorted
list do not depend on the order that the issues were found in.
-/
namespace Label309
open SortByKey

/-- What the order of an issue depends on. -/
abbrev IssueKey := List PathSegment × ErrorCode

def ValidationIssue.issueKey (i : ValidationIssue) : IssueKey := (i.path, i.code)

def VerifierIssue.issueKey (i : VerifierIssue) : IssueKey := (i.path, i.code)

/-! ## What the order is -/

/-- An integer before a text, integers by their size and texts by their bytes. -/
def SegmentBefore : PathSegment → PathSegment → Prop
  | .index x, .index y => x < y
  | .index _, .key _ => True
  | .key _, .index _ => False
  | .key x, .key y => utf8Bytes x < utf8Bytes y

/-- By the first segments that differ, or a prefix before what extends it; then by the registry. -/
def KeyBefore (a b : IssueKey) : Prop :=
  List.Lex SegmentBefore a.1 b.1 ∨ a.1 = b.1 ∧ a.2.registryIndex < b.2.registryIndex

/-! ## Segments -/

theorem utf8Bytes_injective {x y : String} (h : utf8Bytes x = utf8Bytes y) : x = y := by
  have hback := fromUtf8_utf8Bytes x
  rw [h, fromUtf8_utf8Bytes, Option.some.injEq] at hback
  exact hback.symm

theorem compare_bytes_eq_lt {xs ys : List UInt8} : compare xs ys = .lt ↔ xs < ys := by
  induction xs generalizing ys with
  | nil => cases ys <;> simp
  | cons x xs ih =>
      cases ys with
      | nil => simp
      | cons y ys =>
          rw [List.compare_cons_cons, Ordering.then_eq_lt, ih, List.cons_lt_cons_iff,
            Std.compare_eq_lt, Std.LawfulEqOrd.compare_eq_iff_eq]

@[simp] theorem compareSegments_eq_lt {a b : PathSegment} :
    compareSegments a b = .lt ↔ SegmentBefore a b := by
  cases a with
  | index x =>
      cases b with
      | index y => exact Nat.compare_eq_lt
      | key y => simp [compareSegments, SegmentBefore]
  | key x =>
      cases b with
      | index y => simp [compareSegments, SegmentBefore]
      | key y => exact compare_bytes_eq_lt

instance : Std.TransCmp compareSegments where
  eq_swap {a b} := by
    cases a <;> cases b <;> first | rfl | exact Std.OrientedOrd.eq_swap
  isLE_trans {a b c} hab hbc := by
    cases a with
    | index x =>
        cases b with
        | index y =>
            cases c with
            | index z => exact Std.TransOrd.isLE_trans hab hbc
            | key z => rfl
        | key y =>
            cases c with
            | index z => cases hbc
            | key z => rfl
    | key x =>
        cases b with
        | index y => cases hab
        | key y =>
            cases c with
            | index z => cases hbc
            | key z => exact Std.TransOrd.isLE_trans hab hbc

instance : Std.LawfulEqCmp compareSegments where
  compare_self {a} := by
    cases a <;> exact Std.ReflOrd.compare_self
  eq_of_compare {a b} h := by
    cases a with
    | index x =>
        cases b with
        | index y => exact congrArg _ (Std.LawfulEqOrd.eq_of_compare h)
        | key y => cases h
    | key x =>
        cases b with
        | index y => cases h
        | key y => exact congrArg _ (utf8Bytes_injective (Std.LawfulEqOrd.eq_of_compare h))

/-! ## Paths -/

theorem comparePaths_eq : comparePaths = List.compareLex compareSegments := by
  ext as bs
  induction as generalizing bs with
  | nil =>
      cases bs with
      | nil => rw [comparePaths, List.compareLex_nil_nil]
      | cons b bs => rw [comparePaths, List.compareLex_nil_cons]
  | cons a as ih =>
      cases bs with
      | nil => rw [comparePaths, List.compareLex_cons_nil]
      | cons b bs => rw [comparePaths, List.compareLex_cons_cons, ih]

instance : Std.TransCmp comparePaths := by
  rw [comparePaths_eq]
  infer_instance

instance : Std.LawfulEqCmp comparePaths := by
  rw [comparePaths_eq]
  infer_instance

theorem comparePaths_eq_lt {as bs : List PathSegment} :
    comparePaths as bs = .lt ↔ List.Lex SegmentBefore as bs := by
  induction as generalizing bs with
  | nil =>
      cases bs with
      | nil => simp [comparePaths]
      | cons b bs => simp [comparePaths]
  | cons a as ih =>
      cases bs with
      | nil => simp [comparePaths]
      | cons b bs =>
          rw [comparePaths, Ordering.then_eq_lt, ih, compareSegments_eq_lt,
            Std.LawfulEqCmp.compare_eq_iff_eq, List.cons_lex_cons_iff]

/-! ## Keys -/

/-- By path, then by the place of the code in the registry. -/
def compareKeys (a b : IssueKey) : Ordering :=
  (comparePaths a.1 b.1).then (compare a.2.registryIndex b.2.registryIndex)

theorem registryIndex_injective {c d : ErrorCode} (h : c.registryIndex = d.registryIndex) :
    c = d := by
  have hback := congrArg ErrorCode.ofNat h
  rwa [ErrorCode.registryIndex, ErrorCode.registryIndex, ErrorCode.ofNat_ctorIdx,
    ErrorCode.ofNat_ctorIdx] at hback

instance : Std.TransCmp compareKeys :=
  have := @transCmp_on _ _ comparePaths _ (Prod.fst : IssueKey → _)
  have := @transCmp_on _ ℕ compare _ fun k : IssueKey => k.2.registryIndex
  inferInstanceAs (Std.TransCmp (compareLex (fun a b : IssueKey => comparePaths a.1 b.1)
    fun a b => compare a.2.registryIndex b.2.registryIndex))

instance : Std.LawfulEqCmp compareKeys where
  compare_self {a} := by
    simp [compareKeys]
  eq_of_compare {a b} h := by
    rw [compareKeys, Ordering.then_eq_eq] at h
    exact Prod.ext (Std.LawfulEqCmp.eq_of_compare h.1)
      (registryIndex_injective (Std.LawfulEqOrd.eq_of_compare h.2))

theorem compareKeys_eq_lt {a b : IssueKey} : compareKeys a b = .lt ↔ KeyBefore a b := by
  rw [compareKeys, Ordering.then_eq_lt, comparePaths_eq_lt, Std.LawfulEqCmp.compare_eq_iff_eq,
    Nat.compare_eq_lt, KeyBefore]

/-! ## Issues -/

/-- The loop over the segments that both paths have, then their lengths. -/
theorem comparePaths_eq_find (as bs : List PathSegment) (last : Ordering) :
    (((as.zip bs).map fun s => compareSegments s.1 s.2).find? (· ≠ .eq)).getD
      ((compare as.length bs.length).then last) = (comparePaths as bs).then last := by
  induction as generalizing bs with
  | nil =>
      cases bs with
      | nil => rfl
      | cons b bs => simp [comparePaths, Nat.compare_eq_lt.mpr]
  | cons a as ih =>
      cases bs with
      | nil => simp [comparePaths, Nat.compare_eq_gt.mpr]
      | cons b bs =>
          have hlength : compare (a :: as).length (b :: bs).length = compare as.length bs.length := by
            simp [compare, compareOfLessAndEq]
          rw [List.zip_cons_cons, List.map_cons, comparePaths, hlength]
          cases hab : compareSegments a b with
          | eq => simpa using ih bs
          | lt => simp
          | gt => simp

theorem compareVerifierIssues_eq (a b : VerifierIssue) :
    compareVerifierIssues a b = compareKeys a.issueKey b.issueKey :=
  comparePaths_eq_find a.path b.path _

/-- A total order up to the keys: a comparison is what the keys have between them. -/
structure IsIssueOrder {α : Type} (cmp : α → α → Ordering) (key : α → IssueKey) : Prop where
  lt_iff : ∀ a b, cmp a b = .lt ↔ KeyBefore (key a) (key b)
  eq_iff : ∀ a b, cmp a b = .eq ↔ key a = key b
  gt_iff : ∀ a b, cmp a b = .gt ↔ KeyBefore (key b) (key a)
  total : ∀ a b, (cmp a b).isLE ∨ (cmp b a).isLE
  trans : ∀ a b c, (cmp a b).isLE → (cmp b c).isLE → (cmp a c).isLE

/-- A sort that puts nothing behind what belongs behind it, with one sequence of keys for every
order of the list. -/
structure SortsByKey {α : Type} (sort : List α → List α) (key : α → IssueKey) : Prop where
  perm : ∀ l, (sort l).Perm l
  ordered : ∀ l, (sort l).Pairwise fun a b => ¬ KeyBefore (key b) (key a)
  canonical : ∀ l l', l.Perm l' → (sort l).map key = (sort l').map key

section Keyed
variable {α : Type} {cmp : α → α → Ordering} {key : α → IssueKey}
  (hcmp : cmp = fun a b => compareKeys (key a) (key b))
include hcmp

theorem isIssueOrder_of_eq : IsIssueOrder cmp key := by
  have htrans := @transCmp_on _ _ compareKeys _ key
  subst hcmp
  refine ⟨fun a b => compareKeys_eq_lt, fun a b => Std.LawfulEqCmp.compare_eq_iff_eq, ?_, ?_, ?_⟩
  · intro a b
    rw [← compareKeys_eq_lt]
    exact Std.OrientedCmp.gt_iff_lt
  · intro a b
    have hswap : compareKeys (key b) (key a) = (compareKeys (key a) (key b)).swap :=
      Std.OrientedCmp.eq_swap
    rw [hswap]
    cases compareKeys (key a) (key b) <;> simp
  · intro a b c
    exact @Std.TransCmp.isLE_trans _ compareKeys _ (key a) (key b) (key c)

theorem sortsByKey_of_eq : SortsByKey (sortBy cmp id) key := by
  have hsort : sortBy cmp id = sortBy compareKeys key := by
    subst hcmp
    rfl
  rw [hsort]
  refine ⟨perm_sortBy, ?_, fun l l' => map_key_sortBy_of_perm⟩
  intro l
  refine (pairwise_sortBy l).imp ?_
  intro a b hle hbefore
  rw [← compareKeys_eq_lt, ← Std.OrientedCmp.gt_iff_lt] at hbefore
  rw [hbefore] at hle
  cases hle

end Keyed

/-- **The order of a report** is that of the paths and the registry, for the validator's issues and
for the verifier's, and what is sorted has one sequence of paths and codes. -/
theorem issueOrder_canonical :
    IsIssueOrder compareIssues ValidationIssue.issueKey ∧
      SortsByKey sortIssues ValidationIssue.issueKey ∧
      IsIssueOrder compareVerifierIssues VerifierIssue.issueKey ∧
      SortsByKey sortVerifierIssues VerifierIssue.issueKey := by
  have hissues : compareIssues = fun a b => compareKeys a.issueKey b.issueKey := rfl
  have hverifier : compareVerifierIssues = fun a b => compareKeys a.issueKey b.issueKey := by
    ext a b
    exact compareVerifierIssues_eq a b
  exact ⟨isIssueOrder_of_eq hissues, sortsByKey_of_eq hissues, isIssueOrder_of_eq hverifier,
    sortsByKey_of_eq hverifier⟩

end Label309
