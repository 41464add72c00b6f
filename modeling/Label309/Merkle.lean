import Label309.Bytes

/-!
# RFC 9162 Merkle trees

The recursive root and audit path over a list of 32-byte leaves, and the iterative
verification of an inclusion proof, which walks the bits of the leaf index and of the
last index.
-/
namespace Label309

/-- A SHA-256 digest. -/
abbrev Digest := FixedBytes 32

/-- The largest tree size whose indices fit 32 bits. -/
def maxTreeSize : ℕ := 0xffffffff

/-- Why a root or a proof was refused. -/
inductive MerkleError
  | emptyTree
  | indexOutOfRange (index treeSize : ℕ)
  | treeSizeOutOfRange (treeSize : ℕ)
  deriving DecidableEq

def MerkleError.toText : MerkleError → String
  | .emptyTree => "empty Merkle tree forbidden (n >= 1)"
  | .indexOutOfRange index treeSize => s!"index {index} out of range for tree_size {treeSize}"
  | .treeSizeOutOfRange treeSize => s!"tree_size {treeSize} out of range [1, {maxTreeSize}]"

/-- The size must lie in `[1, 2 ^ 32 - 1]` and the index below it. -/
def validateTreeRange (index treeSize : ℕ) : Except MerkleError Unit :=
  if ¬ (1 ≤ treeSize ∧ treeSize ≤ maxTreeSize) then .error (.treeSizeOutOfRange treeSize)
  else if treeSize ≤ index then .error (.indexOutOfRange index treeSize)
  else .ok ()

/-! ## The tree -/

/-- Double `k` while the double stays below `n`. -/
def doubleWhileLt (n k : ℕ) : ℕ :=
  if k * 2 < n ∧ 0 < k then doubleWhileLt n (k * 2) else k
termination_by n - k

/-- The largest power of two strictly below `n`, for `n` at least 2. -/
def largestPow2Lt (n : ℕ) : ℕ := doubleWhileLt n 1

/-- Doubling from a power of two below `n` ends at the power of two that `n` passes. -/
theorem doubleWhileLt_spec {n p : ℕ} (h : 2 ^ p < n) :
    ∃ q, doubleWhileLt n (2 ^ p) = 2 ^ q ∧ 2 ^ q < n ∧ n ≤ 2 ^ (q + 1) := by
  induction hd : n - 2 ^ p using Nat.strong_induction_on generalizing p with
  | _ d ih =>
      have hpos : 0 < 2 ^ p := Nat.two_pow_pos p
      rw [doubleWhileLt]
      by_cases hdouble : 2 ^ p * 2 < n
      · rw [if_pos ⟨hdouble, hpos⟩, ← pow_succ]
        rw [← pow_succ] at hdouble
        exact ih (n - 2 ^ (p + 1)) (by rw [pow_succ] at hdouble ⊢; omega) hdouble rfl
      · rw [if_neg (fun hc => hdouble hc.1)]
        refine ⟨p, rfl, h, ?_⟩
        rw [pow_succ]
        omega

theorem largestPow2Lt_spec {n : ℕ} (h : 2 ≤ n) :
    ∃ p, largestPow2Lt n = 2 ^ p ∧ 2 ^ p < n ∧ n ≤ 2 ^ (p + 1) :=
  @doubleWhileLt_spec n 0 (by omega)

theorem largestPow2Lt_pos {n : ℕ} (h : 2 ≤ n) : 0 < largestPow2Lt n := by
  obtain ⟨p, hp, -⟩ := largestPow2Lt_spec h
  rw [hp]
  exact Nat.two_pow_pos p

theorem largestPow2Lt_lt {n : ℕ} (h : 2 ≤ n) : largestPow2Lt n < n := by
  obtain ⟨p, hp, hlt, -⟩ := largestPow2Lt_spec h
  rwa [hp]

section Tree
variable (sha256 : List UInt8 → Digest)

/-- `SHA-256(0x00 || d)`. -/
def hashLeaf (d : List UInt8) : Digest := sha256 (0x00 :: d)

/-- `SHA-256(0x01 || left || right)`. -/
def hashNode (left right : List UInt8) : Digest := sha256 (0x01 :: (left ++ right))

/-- The root of a non-empty list of leaves. The empty list, which no caller passes, has
no leaf to hash. -/
def rootUnchecked (leaves : List Digest) : Digest :=
  if _h : 2 ≤ leaves.length then
    let k := largestPow2Lt leaves.length
    hashNode sha256 (rootUnchecked (leaves.take k)).val (rootUnchecked (leaves.drop k)).val
  else hashLeaf sha256 (leaves.head?.elim [] Subtype.val)
termination_by leaves.length
decreasing_by
  all_goals
    have hlt := largestPow2Lt_lt _h
    have hpos := largestPow2Lt_pos _h
    simp only [List.length_take, List.length_drop]
    omega

/-- The siblings of the leaf at `index`, from the leaf up to the root. -/
def auditPath (leaves : List Digest) (index : ℕ) : List Digest :=
  if _h : 2 ≤ leaves.length then
    let k := largestPow2Lt leaves.length
    if index < k then
      auditPath (leaves.take k) index ++ [rootUnchecked sha256 (leaves.drop k)]
    else auditPath (leaves.drop k) (index - k) ++ [rootUnchecked sha256 (leaves.take k)]
  else []
termination_by leaves.length
decreasing_by
  all_goals
    have hlt := largestPow2Lt_lt _h
    have hpos := largestPow2Lt_pos _h
    simp only [List.length_take, List.length_drop]
    omega

def merkleRoot (leaves : List Digest) : Except MerkleError Digest :=
  if leaves.isEmpty then .error .emptyTree else .ok (rootUnchecked sha256 leaves)

def merkleInclusionProof (leaves : List Digest) (index : ℕ) : Except MerkleError (List Digest) :=
  if leaves.isEmpty then .error .emptyTree
  else
    match validateTreeRange index leaves.length with
    | .error e => .error e
    | .ok () => .ok (auditPath sha256 leaves index)

/-! ## Verification -/

/-- Walk both counters up while `m` is even and not zero. -/
def skipRightEdge (m last : ℕ) : ℕ × ℕ :=
  if m % 2 = 0 ∧ m ≠ 0 then skipRightEdge (m / 2) (last / 2) else (m, last)
termination_by m

/-- Fold the siblings into `h`. `m` and `last` are the index of the node and of the last
node on its level. Nothing when there are more siblings than levels. -/
def foldProof : List Digest → ℕ → ℕ → Digest → Option (ℕ × Digest)
  | [], _, last, h => some (last, h)
  | sibling :: proof, m, last, h =>
      if last = 0 then none
      else if m % 2 = 1 ∨ m = last then
        let up := skipRightEdge m last
        foldProof proof (up.1 / 2) (up.2 / 2) (hashNode sha256 sibling.val h.val)
      else foldProof proof (m / 2) (last / 2) (hashNode sha256 h.val sibling.val)

/-- The byte strings that the fold hashes. -/
def foldHashed : List Digest → ℕ → ℕ → Digest → List (List UInt8)
  | [], _, _, _ => []
  | sibling :: proof, m, last, h =>
      if last = 0 then []
      else if m % 2 = 1 ∨ m = last then
        let up := skipRightEdge m last
        (0x01 :: (sibling.val ++ h.val)) ::
          foldHashed proof (up.1 / 2) (up.2 / 2) (hashNode sha256 sibling.val h.val)
      else
        (0x01 :: (h.val ++ sibling.val)) ::
          foldHashed proof (m / 2) (last / 2) (hashNode sha256 h.val sibling.val)

/-- The byte strings that verifying a proof hashes. -/
def hashedStrings (leaf : List UInt8) (index treeSize : ℕ) (proof : List Digest) :
    List (List UInt8) :=
  (0x00 :: leaf) :: foldHashed sha256 proof index (treeSize - 1) (hashLeaf sha256 leaf)

/-- Whether folding the proof over the leaf gives the root. -/
def verifyInclusion (leaf : List UInt8) (index treeSize : ℕ) (proof : List Digest)
    (root : List UInt8) : Bool :=
  if leaf.length ≠ 32 ∨ root.length ≠ 32 then false
  else
    match validateTreeRange index treeSize with
    | .error _ => false
    | .ok () =>
        if treeSize = 1 then
          if proof ≠ [] ∨ index ≠ 0 then false else (hashLeaf sha256 leaf).val == root
        else
          match foldProof sha256 proof index (treeSize - 1) (hashLeaf sha256 leaf) with
          | none => false
          | some (last, h) => if last ≠ 0 then false else h.val == root

end Tree

end Label309
