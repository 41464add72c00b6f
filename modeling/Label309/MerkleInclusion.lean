import Label309.Merkle

/-!
# The iterative verifier follows the recursive tree

Folding an audit path climbs the tree: inside a complete subtree every step halves the
index, and along the right edge a node without a sibling is carried up. A fold is
injective where the hash has no collision, so nothing but the audit path verifies.
-/
namespace Label309
variable (sha256 : List UInt8 → Digest)

/-! ## One level of the tree -/

theorem rootUnchecked_single (leaf : Digest) :
    rootUnchecked sha256 [leaf] = hashLeaf sha256 leaf.val := by
  rw [rootUnchecked]
  rfl

theorem rootUnchecked_split {leaves : List Digest} (h : 2 ≤ leaves.length) :
    rootUnchecked sha256 leaves =
      hashNode sha256 (rootUnchecked sha256 (leaves.take (largestPow2Lt leaves.length))).val
        (rootUnchecked sha256 (leaves.drop (largestPow2Lt leaves.length))).val := by
  rw [rootUnchecked, dif_pos h]

theorem auditPath_single {leaves : List Digest} (h : leaves.length = 1) (index : ℕ) :
    auditPath sha256 leaves index = [] := by
  rw [auditPath, dif_neg (by omega)]

theorem auditPath_left {leaves : List Digest} (h : 2 ≤ leaves.length) {index : ℕ}
    (hindex : index < largestPow2Lt leaves.length) :
    auditPath sha256 leaves index =
      auditPath sha256 (leaves.take (largestPow2Lt leaves.length)) index ++
        [rootUnchecked sha256 (leaves.drop (largestPow2Lt leaves.length))] := by
  rw [auditPath, dif_pos h, if_pos hindex]

theorem auditPath_right {leaves : List Digest} (h : 2 ≤ leaves.length) {index : ℕ}
    (hindex : ¬ index < largestPow2Lt leaves.length) :
    auditPath sha256 leaves index =
      auditPath sha256 (leaves.drop (largestPow2Lt leaves.length))
          (index - largestPow2Lt leaves.length) ++
        [rootUnchecked sha256 (leaves.take (largestPow2Lt leaves.length))] := by
  rw [auditPath, dif_pos h, if_neg hindex]

/-! ## Steps of the fold -/

theorem skipRightEdge_odd {m last : ℕ} (h : m % 2 = 1) : skipRightEdge m last = (m, last) := by
  rw [skipRightEdge, if_neg (by omega)]

/-- On the right edge both counters reach the odd part of the index. -/
theorem skipRightEdge_edge {c : ℕ} (hc : c % 2 = 1) (s : ℕ) :
    skipRightEdge (c * 2 ^ s) (c * 2 ^ s) = (c, c) := by
  induction s with
  | zero => rw [pow_zero, mul_one, skipRightEdge_odd hc]
  | succ s ih =>
      have heven : c * 2 ^ (s + 1) = c * 2 ^ s * 2 := by rw [pow_succ, mul_assoc]
      have hpos : 0 < c * 2 ^ s := Nat.mul_pos (by omega) (Nat.two_pow_pos s)
      rw [skipRightEdge, heven, if_pos ⟨by omega, by omega⟩, Nat.mul_div_cancel _ (by decide), ih]

/-- A node left of the last one, on an even index, takes its sibling on the right. -/
theorem foldProof_left {sibling h : Digest} {proof : List Digest} {m last : ℕ} (hm : m % 2 = 0)
    (hlast : m < last) :
    foldProof sha256 (sibling :: proof) m last h =
      foldProof sha256 proof (m / 2) (last / 2) (hashNode sha256 h.val sibling.val) := by
  rw [foldProof, if_neg (by omega), if_neg (by omega)]

/-- A node on an odd index takes its sibling on the left. -/
theorem foldProof_right {sibling h : Digest} {proof : List Digest} {m last : ℕ} (hm : m % 2 = 1)
    (hlast : last ≠ 0) :
    foldProof sha256 (sibling :: proof) m last h =
      foldProof sha256 proof (m / 2) (last / 2) (hashNode sha256 sibling.val h.val) := by
  rw [foldProof, if_neg hlast, if_pos (.inl hm), skipRightEdge_odd hm]

/-- A carried node takes its sibling on the left, where its index becomes odd. -/
theorem foldProof_edge {sibling h : Digest} {proof : List Digest} {c : ℕ} (hc : c % 2 = 1)
    (s : ℕ) :
    foldProof sha256 (sibling :: proof) (c * 2 ^ s) (c * 2 ^ s) h =
      foldProof sha256 proof (c / 2) (c / 2) (hashNode sha256 sibling.val h.val) := by
  have hpos : 0 < c * 2 ^ s := Nat.mul_pos (by omega) (Nat.two_pow_pos s)
  rw [foldProof, if_neg (by omega), if_pos (.inr rfl), skipRightEdge_edge hc]

/-! ## Climbing a subtree -/

theorem largestPow2Lt_two_pow (p : ℕ) : largestPow2Lt (2 ^ (p + 1)) = 2 ^ p := by
  have htwo : 2 ≤ 2 ^ (p + 1) := by
    have hpos := Nat.two_pow_pos p
    rw [pow_succ]
    omega
  obtain ⟨q, hq, hlt, hle⟩ := largestPow2Lt_spec htwo
  have hqp : q < p + 1 := (Nat.pow_lt_pow_iff_right (by decide)).mp hlt
  have hpq : p + 1 ≤ q + 1 := (Nat.pow_le_pow_iff_right (by decide)).mp hle
  rw [hq, show q = p by omega]

theorem index_eq_zero_of_single {leaves : List Digest} (hlen : leaves.length = 1) {i : ℕ}
    {leaf : Digest} (hleaf : leaves[i]? = some leaf) : i = 0 ∧ leaves = [leaf] := by
  obtain ⟨d, rfl⟩ := List.length_eq_one_iff.mp hlen
  cases i with
  | zero =>
      cases hleaf
      exact ⟨rfl, rfl⟩
  | succ i => simp at hleaf

/-- The fold climbs a complete subtree that is not the last on its level: `a` is the index
of the subtree, and some node follows it. -/
theorem foldProof_complete {p : ℕ} {leaves : List Digest} (hlen : leaves.length = 2 ^ p) {i : ℕ}
    {leaf : Digest} (hleaf : leaves[i]? = some leaf) (proof : List Digest) {a last : ℕ}
    (hlast : a < last / 2 ^ p) :
    foldProof sha256 (auditPath sha256 leaves i ++ proof) (a * 2 ^ p + i) last
        (hashLeaf sha256 leaf.val) =
      foldProof sha256 proof a (last / 2 ^ p) (rootUnchecked sha256 leaves) := by
  induction p generalizing leaves i a proof with
  | zero =>
      obtain ⟨rfl, rfl⟩ := index_eq_zero_of_single hlen hleaf
      rw [auditPath_single sha256 hlen, rootUnchecked_single]
      simp
  | succ p ih =>
      have hpos := Nat.two_pow_pos p
      have hdouble : 2 ^ (p + 1) = 2 ^ p * 2 := pow_succ 2 p
      have htwo : 2 ≤ leaves.length := by omega
      have hk : largestPow2Lt leaves.length = 2 ^ p := by rw [hlen, largestPow2Lt_two_pow]
      have hi : i < leaves.length := (List.getElem?_eq_some_iff.mp hleaf).1
      have hhalf : last / 2 ^ (p + 1) = last / 2 ^ p / 2 := by rw [hdouble, Nat.div_div_eq_div_mul]
      rw [rootUnchecked_split sha256 htwo, hk]
      by_cases hik : i < 2 ^ p
      · have hleft : (leaves.take (2 ^ p))[i]? = some leaf := by
          rw [List.getElem?_take_of_lt hik, hleaf]
        have htake : (leaves.take (2 ^ p)).length = 2 ^ p := by
          rw [List.length_take]
          omega
        have hm : a * 2 ^ (p + 1) + i = 2 * a * 2 ^ p + i := by rw [hdouble]; ring
        rw [auditPath_left sha256 htwo (hk ▸ hik), hk, List.append_assoc, hm,
          ih htake hleft _ (by omega), List.singleton_append,
          foldProof_left sha256 (by omega) (by omega), hhalf, Nat.mul_div_cancel_left _ (by decide)]
      · have hright : (leaves.drop (2 ^ p))[i - 2 ^ p]? = some leaf := by
          rw [List.getElem?_drop, Nat.add_sub_cancel' (by omega), hleaf]
        have hdrop : (leaves.drop (2 ^ p)).length = 2 ^ p := by
          rw [List.length_drop]
          omega
        have hm : a * 2 ^ (p + 1) + i = (2 * a + 1) * 2 ^ p + (i - 2 ^ p) := by
          rw [hdouble, add_mul, one_mul]
          have hassoc : a * (2 ^ p * 2) = 2 * a * 2 ^ p := by ring
          omega
        rw [auditPath_right sha256 htwo (hk ▸ hik), hk, List.append_assoc, hm,
          ih hdrop hright _ (by omega), List.singleton_append,
          foldProof_right sha256 (by omega) (by omega), hhalf,
          show (2 * a + 1) / 2 = a by omega]

/-- The fold climbs the subtree at the right end of a level: `c` counts the complete blocks
of `2 ^ q` leaves before it. The root is carried to a level where the index is a multiple
of `c`. -/
theorem foldProof_rightEdge {leaves : List Digest} {q : ℕ} (hfit : leaves.length ≤ 2 ^ q) {i : ℕ}
    {leaf : Digest} (hleaf : leaves[i]? = some leaf) (proof : List Digest) (c : ℕ) :
    ∃ s, foldProof sha256 (auditPath sha256 leaves i ++ proof) (c * 2 ^ q + i)
          (c * 2 ^ q + (leaves.length - 1)) (hashLeaf sha256 leaf.val) =
        foldProof sha256 proof (c * 2 ^ s) (c * 2 ^ s) (rootUnchecked sha256 leaves) := by
  induction hn : leaves.length using Nat.strong_induction_on
    generalizing leaves q i proof c with
  | _ n ih =>
      subst hn
      have hi : i < leaves.length := (List.getElem?_eq_some_iff.mp hleaf).1
      by_cases hone : leaves.length = 1
      · obtain ⟨rfl, rfl⟩ := index_eq_zero_of_single hone hleaf
        rw [auditPath_single sha256 hone, rootUnchecked_single]
        exact ⟨q, rfl⟩
      · have htwo : 2 ≤ leaves.length := by omega
        obtain ⟨p, hk, hlt, hle⟩ := largestPow2Lt_spec htwo
        have hpos := Nat.two_pow_pos p
        have hdouble : 2 ^ (p + 1) = 2 ^ p * 2 := pow_succ 2 p
        have hpq : p < q := (Nat.pow_lt_pow_iff_right (by decide)).mp (hlt.trans_le hfit)
        obtain ⟨s, rfl⟩ := Nat.exists_eq_add_of_lt hpq
        -- Above the split both counters are `b * 2` or `b * 2 + 1`.
        have hblock : c * 2 ^ (p + s + 1) = c * 2 ^ s * 2 * 2 ^ p := by
          rw [pow_succ, pow_add]
          ring
        refine ⟨s, ?_⟩
        rw [rootUnchecked_split sha256 htwo, hk, hblock]
        by_cases hik : i < 2 ^ p
        · have hleft : (leaves.take (2 ^ p))[i]? = some leaf := by
            rw [List.getElem?_take_of_lt hik, hleaf]
          have htake : (leaves.take (2 ^ p)).length = 2 ^ p := by
            rw [List.length_take]
            omega
          have hone' : (leaves.length - 1) / 2 ^ p = 1 :=
            Nat.div_eq_of_lt_le (by omega) (by omega)
          have hlast : (c * 2 ^ s * 2 * 2 ^ p + (leaves.length - 1)) / 2 ^ p = c * 2 ^ s * 2 + 1 := by
            rw [Nat.add_comm, Nat.add_mul_div_right _ _ hpos, hone', Nat.add_comm]
          rw [auditPath_left sha256 htwo (hk ▸ hik), hk, List.append_assoc,
            foldProof_complete sha256 htake hleft _ (by rw [hlast]; omega), List.singleton_append,
            hlast,
            foldProof_left sha256 (by omega) (by omega), Nat.mul_div_cancel _ (by decide),
            show (c * 2 ^ s * 2 + 1) / 2 = c * 2 ^ s by omega]
        · have hright : (leaves.drop (2 ^ p))[i - 2 ^ p]? = some leaf := by
            rw [List.getElem?_drop, Nat.add_sub_cancel' (by omega), hleaf]
          have hdrop : (leaves.drop (2 ^ p)).length = leaves.length - 2 ^ p := List.length_drop
          have hfit' : (leaves.drop (2 ^ p)).length ≤ 2 ^ p := by omega
          obtain ⟨t, ht⟩ := ih (leaves.length - 2 ^ p) (by omega) hfit' hright
            ([rootUnchecked sha256 (leaves.take (2 ^ p))] ++ proof) (c * 2 ^ s * 2 + 1) hdrop
          have hm : c * 2 ^ s * 2 * 2 ^ p + i = (c * 2 ^ s * 2 + 1) * 2 ^ p + (i - 2 ^ p) := by
            rw [add_mul, one_mul]
            omega
          have hlast : c * 2 ^ s * 2 * 2 ^ p + (leaves.length - 1) =
              (c * 2 ^ s * 2 + 1) * 2 ^ p + ((leaves.drop (2 ^ p)).length - 1) := by
            rw [add_mul, one_mul, hdrop]
            omega
          rw [hdrop] at hlast
          rw [auditPath_right sha256 htwo (hk ▸ hik), hk, List.append_assoc, hm, hlast, ht,
            List.singleton_append, foldProof_edge sha256 (by omega),
            show (c * 2 ^ s * 2 + 1) / 2 = c * 2 ^ s by omega]

/-- Folding the audit path of a leaf gives the root. -/
theorem foldProof_auditPath {leaves : List Digest} {i : ℕ} {leaf : Digest}
    (hleaf : leaves[i]? = some leaf) :
    foldProof sha256 (auditPath sha256 leaves i) i (leaves.length - 1) (hashLeaf sha256 leaf.val) =
      some (0, rootUnchecked sha256 leaves) := by
  obtain ⟨s, hs⟩ := foldProof_rightEdge sha256 (Nat.lt_two_pow_self).le hleaf [] 0
  simpa [foldProof] using hs

/-! ## The length of a proof -/

/-- Two folds from the same counters that reach the top level took equally many siblings. -/
theorem foldProof_length {proof proof' : List Digest} {m last : ℕ} {h h' d d' : Digest}
    (hfold : foldProof sha256 proof m last h = some (0, d))
    (hfold' : foldProof sha256 proof' m last h' = some (0, d')) :
    proof.length = proof'.length := by
  induction proof generalizing proof' m last h h' with
  | nil =>
      simp only [foldProof, Option.some.injEq, Prod.mk.injEq] at hfold
      cases proof' with
      | nil => rfl
      | cons sibling' proof' => simp [foldProof, hfold.1] at hfold'
  | cons sibling proof ih =>
      by_cases hlast : last = 0
      · simp [foldProof, hlast] at hfold
      · cases proof' with
        | nil =>
            simp only [foldProof, Option.some.injEq, Prod.mk.injEq] at hfold'
            exact absurd hfold'.1 hlast
        | cons sibling' proof' =>
            rw [foldProof, if_neg hlast] at hfold hfold'
            by_cases hside : m % 2 = 1 ∨ m = last
            · rw [if_pos hside] at hfold hfold'
              simp only [List.length_cons, ih hfold hfold']
            · rw [if_neg hside] at hfold hfold'
              simp only [List.length_cons, ih hfold hfold']

/-! ## A tree of three leaves -/

/-- Three leaves of equal bytes. -/
def sampleLeaf (b : UInt8) : Digest := ⟨List.replicate 32 b, List.length_replicate⟩

/-- `SHA-256` of the prefixed first leaf. -/
def sampleHash0 : Digest := ⟨
    [0x46, 0x35, 0xe1, 0xfa, 0x62, 0xa5, 0x99, 0xa7, 0x88, 0x0a, 0x8d, 0x14, 0xa5, 0x6f,
    0x72, 0x0a, 0x1d, 0x40, 0xf6, 0xe5, 0x44, 0x8a, 0xb5, 0xa5, 0xe3, 0x9b, 0xed, 0xc8,
    0xbd, 0x87, 0xfa, 0x8e],
  rfl⟩

def sampleHash1 : Digest := ⟨
    [0xbc, 0x6f, 0x27, 0xde, 0x60, 0xab, 0xf5, 0x31, 0x9d, 0x16, 0xff, 0x4c, 0x98, 0xfe,
    0x3c, 0x42, 0x02, 0x2c, 0x84, 0xf6, 0xa7, 0xa2, 0xb2, 0x07, 0xc8, 0xdf, 0x19, 0xb0,
    0xec, 0x3d, 0x8d, 0x58],
  rfl⟩

def sampleHash2 : Digest := ⟨
    [0x5e, 0x5c, 0xae, 0xaf, 0xc2, 0x71, 0x55, 0xc3, 0x68, 0xb6, 0xf2, 0x01, 0x10, 0x7d,
    0x6f, 0x8b, 0x27, 0x07, 0x47, 0xce, 0x63, 0x6a, 0xc5, 0x17, 0x4a, 0x56, 0xc6, 0xe1,
    0x2e, 0xf8, 0x9a, 0xd1],
  rfl⟩

/-- The node over the first two leaves. -/
def sampleHash01 : Digest := ⟨
    [0xcc, 0x15, 0xb1, 0x32, 0x26, 0x3f, 0xd4, 0xfd, 0x27, 0x48, 0xc0, 0xe7, 0xcb, 0x9e,
    0x1c, 0x4a, 0xd0, 0xaf, 0xe7, 0x0f, 0xcf, 0x93, 0x82, 0xee, 0x64, 0x4c, 0x4d, 0xa8,
    0xaf, 0x02, 0x86, 0xa5],
  rfl⟩

def sampleRoot : Digest := ⟨
    [0x9b, 0xee, 0x44, 0x01, 0x96, 0x2e, 0x94, 0xb9, 0x21, 0x33, 0x6a, 0x79, 0x10, 0xa5,
    0xa9, 0x71, 0x88, 0x36, 0xff, 0xcb, 0xc5, 0x45, 0xdd, 0xe0, 0xa3, 0xf3, 0x4d, 0x85,
    0x8b, 0xeb, 0x57, 0x52],
  rfl⟩

/-- SHA-256 on the strings that the tree of three leaves hashes. -/
def sampleSha256 (s : List UInt8) : Digest :=
  if s = 0x00 :: (sampleLeaf 0x11).val then sampleHash0
  else if s = 0x00 :: (sampleLeaf 0x22).val then sampleHash1
  else if s = 0x00 :: (sampleLeaf 0x33).val then sampleHash2
  else if s = 0x01 :: (sampleHash0.val ++ sampleHash1.val) then sampleHash01
  else sampleRoot

def sampleLeaves : List Digest := [sampleLeaf 0x11, sampleLeaf 0x22, sampleLeaf 0x33]

theorem sampleLeaves_size : sampleLeaves.length ≤ maxTreeSize := by decide

theorem largestPow2Lt_three : largestPow2Lt 3 = 2 := by
  simp [largestPow2Lt, doubleWhileLt]

theorem sample_left_root :
    rootUnchecked sampleSha256 [sampleLeaf 0x11, sampleLeaf 0x22] = sampleHash01 := by
  rw [rootUnchecked_split _ (by decide)]
  rw [show largestPow2Lt [sampleLeaf 0x11, sampleLeaf 0x22].length = 1 from
    largestPow2Lt_two_pow 0]
  simp only [List.take, List.drop, rootUnchecked_single]
  decide

theorem sample_root : rootUnchecked sampleSha256 sampleLeaves = sampleRoot := by
  rw [rootUnchecked_split _ (by decide), show largestPow2Lt sampleLeaves.length = 2 from
    largestPow2Lt_three]
  simp only [sampleLeaves, List.take, List.drop, rootUnchecked_single, sample_left_root]
  decide

theorem sample_auditPath : auditPath sampleSha256 sampleLeaves 2 = [sampleHash01] := by
  have hk : largestPow2Lt sampleLeaves.length = 2 := largestPow2Lt_three
  rw [auditPath_right _ (by decide) (by rw [hk]; decide), hk, auditPath_single _ rfl]
  simp only [sampleLeaves, List.take, sample_left_root, List.nil_append]

/-! ## Completeness -/

theorem validateTreeRange_ok {index treeSize : ℕ} (hindex : index < treeSize)
    (hsize : treeSize ≤ maxTreeSize) : validateTreeRange index treeSize = .ok () := by
  rw [validateTreeRange, if_neg (by omega), if_neg (by omega)]

theorem validateTreeRange_eq_ok {index treeSize : ℕ}
    (h : validateTreeRange index treeSize = .ok ()) : index < treeSize := by
  rw [validateTreeRange] at h
  by_cases hsize : ¬ (1 ≤ treeSize ∧ treeSize ≤ maxTreeSize)
  · simp [hsize] at h
  · by_cases hindex : treeSize ≤ index
    · simp [hsize, hindex] at h
    · omega

/-- A proof verifies exactly when the lengths are right, the index is in range and the fold
ends at the root on the top level. -/
theorem verifyInclusion_iff {leaf root : List UInt8} {index treeSize : ℕ} {proof : List Digest} :
    verifyInclusion sha256 leaf index treeSize proof root = true ↔
      leaf.length = 32 ∧ root.length = 32 ∧ validateTreeRange index treeSize = .ok () ∧
        ∃ d, foldProof sha256 proof index (treeSize - 1) (hashLeaf sha256 leaf) = some (0, d) ∧
          d.val = root := by
  by_cases hlen : leaf.length ≠ 32 ∨ root.length ≠ 32
  · rw [verifyInclusion, if_pos hlen]
    simp only [Bool.false_eq_true, false_iff]
    intro h
    rcases hlen with hleaf | hroot
    · exact hleaf h.1
    · exact hroot h.2.1
  · have hleaf : leaf.length = 32 := by omega
    have hroot : root.length = 32 := by omega
    rw [verifyInclusion, if_neg hlen]
    cases hrange : validateTreeRange index treeSize with
    | error e => simp
    | ok _ =>
        have hindex := validateTreeRange_eq_ok hrange
        by_cases hone : treeSize = 1
        · -- The single leaf has no sibling, and the fold refuses one.
          have hzero : index = 0 := by omega
          cases proof with
          | nil => simp [hone, hzero, hleaf, hroot, foldProof]
          | cons sibling proof => simp [hone, hzero, foldProof]
        · cases hfold : foldProof sha256 proof index (treeSize - 1) (hashLeaf sha256 leaf) with
          | none => simp [hone]
          | some top =>
              by_cases hlast : top.1 = 0
              · simp [hone, hlast, hleaf, hroot, Prod.ext_iff]
              · simp [hone, hlast, Prod.ext_iff]

theorem merkleRoot_eq_ok {leaves : List Digest} (h : leaves ≠ []) :
    merkleRoot sha256 leaves = .ok (rootUnchecked sha256 leaves) := by
  rw [merkleRoot, if_neg (by simpa using h)]

theorem merkleInclusionProof_eq_ok {leaves : List Digest} (hsize : leaves.length ≤ maxTreeSize)
    {index : ℕ} (hindex : index < leaves.length) :
    merkleInclusionProof sha256 leaves index = .ok (auditPath sha256 leaves index) := by
  have hne : leaves ≠ [] := List.ne_nil_of_length_pos (by omega)
  rw [merkleInclusionProof, if_neg (by simpa using hne), validateTreeRange_ok hindex hsize]

/-- The audit path of a leaf verifies against the root. -/
theorem verifyInclusion_auditPath {leaves : List Digest} (hsize : leaves.length ≤ maxTreeSize)
    {index : ℕ} {leaf : Digest} (hleaf : leaves[index]? = some leaf) :
    verifyInclusion sha256 leaf.val index leaves.length (auditPath sha256 leaves index)
      (rootUnchecked sha256 leaves).val = true :=
  (verifyInclusion_iff sha256).mpr ⟨leaf.property, (rootUnchecked sha256 leaves).property,
    validateTreeRange_ok (List.getElem?_eq_some_iff.mp hleaf).1 hsize, _,
    foldProof_auditPath sha256 hleaf, rfl⟩

/-- **Completeness.** For every tree of a size in range, the proof made for a leaf verifies
against the root, and every proof that verifies at that index has its length. -/
theorem merkleInclusionProof_verifies {leaves : List Digest}
    (hsize : leaves.length ≤ maxTreeSize) {index : ℕ} {leaf : Digest}
    (hleaf : leaves[index]? = some leaf) :
    ∃ root proof, merkleRoot sha256 leaves = .ok root ∧
      merkleInclusionProof sha256 leaves index = .ok proof ∧
      verifyInclusion sha256 leaf.val index leaves.length proof root.val = true ∧
      ∀ (leaf' root' : List UInt8) (proof' : List Digest),
        verifyInclusion sha256 leaf' index leaves.length proof' root' = true →
          proof'.length = proof.length := by
  have hindex : index < leaves.length := (List.getElem?_eq_some_iff.mp hleaf).1
  have hne : leaves ≠ [] := List.ne_nil_of_length_pos (by omega)
  refine ⟨_, _, merkleRoot_eq_ok sha256 hne, merkleInclusionProof_eq_ok sha256 hsize hindex,
    verifyInclusion_auditPath sha256 hsize hleaf, ?_⟩
  intro leaf' root' proof' hverify
  obtain ⟨-, -, -, d, hfold, -⟩ := (verifyInclusion_iff sha256).mp hverify
  exact foldProof_length sha256 hfold (foldProof_auditPath sha256 hleaf)

/-- The carried node of a tree of three leaves. -/
theorem merkleInclusionProof_verifies_three :
    ∃ root proof, merkleRoot sampleSha256 sampleLeaves = .ok root ∧
      merkleInclusionProof sampleSha256 sampleLeaves 2 = .ok proof ∧
      verifyInclusion sampleSha256 (sampleLeaf 0x33).val 2 3 proof root.val = true ∧
      ∀ (leaf' root' : List UInt8) (proof' : List Digest),
        verifyInclusion sampleSha256 leaf' 2 3 proof' root' = true →
          proof'.length = proof.length :=
  merkleInclusionProof_verifies sampleSha256 sampleLeaves_size rfl

/-! ## Soundness -/

/-- Folds from the same counters to the same digest on the top level are equal, when no two
strings they hash collide. -/
theorem foldProof_injective {proof proof' : List Digest} {m last : ℕ} {h h' d : Digest}
    (hinj : Set.InjOn sha256
      {s | s ∈ foldHashed sha256 proof m last h ∨ s ∈ foldHashed sha256 proof' m last h'})
    (hfold : foldProof sha256 proof m last h = some (0, d))
    (hfold' : foldProof sha256 proof' m last h' = some (0, d)) : proof = proof' ∧ h = h' := by
  induction proof generalizing proof' m last h h' with
  | nil =>
      have hnil : proof' = [] :=
        List.eq_nil_of_length_eq_zero (foldProof_length sha256 hfold' hfold)
      subst hnil
      simp only [foldProof, Option.some.injEq, Prod.mk.injEq] at hfold hfold'
      exact ⟨rfl, hfold.2.trans hfold'.2.symm⟩
  | cons sibling proof ih =>
      cases proof' with
      | nil => exact absurd (foldProof_length sha256 hfold hfold') (by simp)
      | cons sibling' proof' =>
          by_cases hlast : last = 0
          · simp [foldProof, hlast] at hfold
          · rw [foldProof, if_neg hlast] at hfold hfold'
            simp only [foldHashed, if_neg hlast] at hinj
            by_cases hside : m % 2 = 1 ∨ m = last
            · rw [if_pos hside] at hfold hfold'
              simp only [if_pos hside, List.mem_cons] at hinj
              obtain ⟨hproof, hhash⟩ :=
                ih (hinj.mono (by intro s hs; exact hs.imp .inr .inr)) hfold hfold'
              have hstring := hinj (.inl (.inl rfl)) (.inr (.inl rfl)) hhash
              obtain ⟨hsibling, hh⟩ := List.append_inj (List.cons.inj hstring).2
                (sibling.property.trans sibling'.property.symm)
              exact ⟨by rw [hproof, Subtype.ext hsibling], Subtype.ext hh⟩
            · rw [if_neg hside] at hfold hfold'
              simp only [if_neg hside, List.mem_cons] at hinj
              obtain ⟨hproof, hhash⟩ :=
                ih (hinj.mono (by intro s hs; exact hs.imp .inr .inr)) hfold hfold'
              have hstring := hinj (.inl (.inl rfl)) (.inr (.inl rfl)) hhash
              obtain ⟨hh, hsibling⟩ := List.append_inj (List.cons.inj hstring).2
                (h.property.trans h'.property.symm)
              exact ⟨by rw [hproof, Subtype.ext hsibling], Subtype.ext hh⟩

/-- The strings that the claimed proof hashes, and those that the audit path of the leaf at
the claimed index hashes. -/
def comparedStrings (leaves : List Digest) (leaf : List UInt8) (index : ℕ)
    (proof : List Digest) : Set (List UInt8) :=
  {s | s ∈ hashedStrings sha256 leaf index leaves.length proof ∨
    ∃ honest ∈ leaves[index]?,
      s ∈ hashedStrings sha256 honest.val index leaves.length (auditPath sha256 leaves index)}

/-- **Soundness.** Whatever leaf, index and proof verify against the root of a list of leaves
are a leaf of the list, its index and its audit path, unless two of the strings hashed
collide. -/
theorem verifyInclusion_sound {leaves : List Digest} (hsize : leaves.length ≤ maxTreeSize)
    {root : Digest} (hroot : merkleRoot sha256 leaves = .ok root) {leaf : List UInt8} {index : ℕ}
    {proof : List Digest}
    (hinj : Set.InjOn sha256 (comparedStrings sha256 leaves leaf index proof))
    (hverify : verifyInclusion sha256 leaf index leaves.length proof root.val = true) :
    index < leaves.length ∧ leaves[index]?.map Subtype.val = some leaf ∧
      merkleInclusionProof sha256 leaves index = .ok proof := by
  obtain ⟨-, -, hrange, d, hfold, hd⟩ := (verifyInclusion_iff sha256).mp hverify
  have hindex := validateTreeRange_eq_ok hrange
  have hne : leaves ≠ [] := List.ne_nil_of_length_pos (by omega)
  have hget : leaves[index]? = some leaves[index] := List.getElem?_eq_getElem hindex
  rw [merkleRoot_eq_ok sha256 hne] at hroot
  cases hroot
  have hd' : d = rootUnchecked sha256 leaves := Subtype.ext hd
  subst hd'
  simp only [comparedStrings, hget, Option.mem_def, Option.some.injEq, exists_eq_left',
    hashedStrings, List.mem_cons] at hinj
  have hfolds : Set.InjOn sha256 {s |
      s ∈ foldHashed sha256 proof index (leaves.length - 1) (hashLeaf sha256 leaf) ∨
      s ∈ foldHashed sha256 (auditPath sha256 leaves index) index (leaves.length - 1)
        (hashLeaf sha256 leaves[index].val)} :=
    hinj.mono (by intro s hs; exact hs.imp .inr .inr)
  obtain ⟨hproof, hhash⟩ :=
    foldProof_injective sha256 hfolds hfold (foldProof_auditPath sha256 hget)
  have hleaf := hinj (.inl (.inl rfl)) (.inr (.inl rfl)) hhash
  refine ⟨hindex, ?_, ?_⟩
  · rw [hget, Option.map_some, (List.cons.inj hleaf).2]
  · rw [merkleInclusionProof_eq_ok sha256 hsize hindex, hproof]

/-- The strings compared are the two that the audit path of the third leaf hashes. -/
theorem sample_compared {s : List UInt8}
    (hs : s ∈ comparedStrings sampleSha256 sampleLeaves (sampleLeaf 0x33).val 2 [sampleHash01]) :
    s ∈ [0x00 :: (sampleLeaf 0x33).val, 0x01 :: (sampleHash01.val ++ sampleHash2.val)] := by
  have hrun : hashedStrings sampleSha256 (sampleLeaf 0x33).val 2 3 [sampleHash01] =
      [0x00 :: (sampleLeaf 0x33).val, 0x01 :: (sampleHash01.val ++ sampleHash2.val)] := by
    simp only [hashedStrings, foldHashed]
    decide
  rw [← hrun]
  rcases hs with hclaimed | ⟨honest, hhonest, hpath⟩
  · exact hclaimed
  · cases hhonest
    rwa [sample_auditPath] at hpath

theorem sample_injOn : Set.InjOn sampleSha256
    (comparedStrings sampleSha256 sampleLeaves (sampleLeaf 0x33).val 2 [sampleHash01]) := by
  have hdistinct : ∀ x ∈ [0x00 :: (sampleLeaf 0x33).val,
        0x01 :: (sampleHash01.val ++ sampleHash2.val)],
      ∀ y ∈ [0x00 :: (sampleLeaf 0x33).val, 0x01 :: (sampleHash01.val ++ sampleHash2.val)],
        sampleSha256 x = sampleSha256 y → x = y := by decide
  intro x hx y hy hxy
  exact hdistinct x (sample_compared hx) y (sample_compared hy) hxy

/-- The third leaf under its audit path. -/
theorem verifyInclusion_sound_three :
    2 < sampleLeaves.length ∧
      sampleLeaves[2]?.map Subtype.val = some (sampleLeaf 0x33).val ∧
      merkleInclusionProof sampleSha256 sampleLeaves 2 = .ok [sampleHash01] := by
  have hroot : merkleRoot sampleSha256 sampleLeaves = .ok sampleRoot := by
    rw [merkleRoot_eq_ok _ (by decide), sample_root]
  refine verifyInclusion_sound sampleSha256 sampleLeaves_size hroot sample_injOn ?_
  rw [← sample_auditPath, ← sample_root]
  exact verifyInclusion_auditPath sampleSha256 sampleLeaves_size rfl

end Label309
