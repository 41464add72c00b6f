import Label309.MerkleInclusion
import Label309.MerkleLeavesRoundTrip

/-!
# What a root commits to

A root is the root of one list of leaves, unless two of the strings that its tree hashes collide. The
prefixes keep leaves and nodes apart, so not even the number of leaves has to be known. Whatever
leaves lists are accepted for commitments to one root, they list the same leaves.
-/
namespace Label309

section Tree
variable (sha256 : List UInt8 → Digest)

/-- The strings that the root of a list of leaves hashes. -/
def treeStrings (leaves : List Digest) : List (List UInt8) :=
  if _h : 2 ≤ leaves.length then
    let k := largestPow2Lt leaves.length
    (0x01 :: ((rootUnchecked sha256 (leaves.take k)).val ++
        (rootUnchecked sha256 (leaves.drop k)).val)) ::
      (treeStrings (leaves.take k) ++ treeStrings (leaves.drop k))
  else [0x00 :: leaves.head?.elim [] Subtype.val]
termination_by leaves.length
decreasing_by
  all_goals
    have hlt := largestPow2Lt_lt _h
    have hpos := largestPow2Lt_pos _h
    simp only [List.length_take, List.length_drop]
    omega

theorem treeStrings_single (leaf : Digest) : treeStrings sha256 [leaf] = [0x00 :: leaf.val] := by
  rw [treeStrings, dif_neg (by simp)]
  rfl

/-- The halves of a tree hash what they hash alone. -/
theorem treeStrings_split {leaves : List Digest} (h : 2 ≤ leaves.length) :
    treeStrings sha256 leaves =
      (0x01 :: ((rootUnchecked sha256 (leaves.take (largestPow2Lt leaves.length))).val ++
          (rootUnchecked sha256 (leaves.drop (largestPow2Lt leaves.length))).val)) ::
        (treeStrings sha256 (leaves.take (largestPow2Lt leaves.length)) ++
          treeStrings sha256 (leaves.drop (largestPow2Lt leaves.length))) := by
  rw [treeStrings, dif_pos h]

theorem exists_eq_singleton {leaves : List Digest} (hne : leaves ≠ []) (h : ¬ 2 ≤ leaves.length) :
    ∃ leaf, leaves = [leaf] := by
  have hpos := List.length_pos_of_ne_nil hne
  exact List.length_eq_one_iff.mp (by omega)

variable {sha256}

theorem leaves_ne_nil_of_root {leaves : List Digest} {root : Digest}
    (h : merkleRoot sha256 leaves = .ok root) : leaves ≠ [] := by
  rintro rfl
  cases h

/-- Over strings that do not collide, equal roots have equal leaves. The induction is on the first
list; the tree of the second has the shape that the strings of the first show. -/
theorem leaves_eq_of_root_eq {collisionFree : Set (List UInt8)}
    (hinj : Set.InjOn sha256 collisionFree) {leaves leaves' : List Digest} (hne : leaves ≠ [])
    (hne' : leaves' ≠ [])
    (hfree : ∀ s ∈ treeStrings sha256 leaves, s ∈ collisionFree)
    (hfree' : ∀ s ∈ treeStrings sha256 leaves', s ∈ collisionFree)
    (hroot : rootUnchecked sha256 leaves = rootUnchecked sha256 leaves') : leaves = leaves' := by
  induction hlength : leaves.length using Nat.strong_induction_on generalizing leaves leaves' with
  | _ n ih =>
    by_cases htwo : 2 ≤ leaves.length <;> by_cases htwo' : 2 ≤ leaves'.length
    · rw [treeStrings_split sha256 htwo, List.forall_mem_cons, List.forall_mem_append] at hfree
      rw [treeStrings_split sha256 htwo', List.forall_mem_cons, List.forall_mem_append] at hfree'
      rw [rootUnchecked_split sha256 htwo, rootUnchecked_split sha256 htwo'] at hroot
      have hlt := largestPow2Lt_lt htwo
      have hpos := largestPow2Lt_pos htwo
      have hlt' := largestPow2Lt_lt htwo'
      have hpos' := largestPow2Lt_pos htwo'
      -- The two nodes hash one string, which is cut in its middle.
      have hstring := hinj hfree.1 hfree'.1 hroot
      obtain ⟨hleft, hright⟩ := List.append_inj (List.cons.inj hstring).2
        ((rootUnchecked sha256 _).property.trans (rootUnchecked sha256 _).property.symm)
      have htake := ih _ (by rw [List.length_take]; omega)
        (List.ne_nil_of_length_pos (by rw [List.length_take]; omega))
        (List.ne_nil_of_length_pos (by rw [List.length_take]; omega))
        hfree.2.1 hfree'.2.1 (Subtype.ext hleft) rfl
      have hdrop := ih _ (by rw [List.length_drop]; omega)
        (List.ne_nil_of_length_pos (by rw [List.length_drop]; omega))
        (List.ne_nil_of_length_pos (by rw [List.length_drop]; omega))
        hfree.2.2 hfree'.2.2 (Subtype.ext hright) rfl
      rw [← List.take_append_drop (largestPow2Lt leaves.length) leaves, htake, hdrop,
        List.take_append_drop]
    · -- A leaf and a node do not hash one string.
      obtain ⟨leaf', rfl⟩ := exists_eq_singleton hne' htwo'
      rw [treeStrings_split sha256 htwo, List.forall_mem_cons] at hfree
      rw [treeStrings_single, List.forall_mem_singleton] at hfree'
      rw [rootUnchecked_split sha256 htwo, rootUnchecked_single] at hroot
      exact absurd (List.cons.inj (hinj hfree.1 hfree' hroot)).1 (by decide)
    · obtain ⟨leaf, rfl⟩ := exists_eq_singleton hne htwo
      rw [treeStrings_single, List.forall_mem_singleton] at hfree
      rw [treeStrings_split sha256 htwo', List.forall_mem_cons] at hfree'
      rw [rootUnchecked_split sha256 htwo', rootUnchecked_single] at hroot
      exact absurd (List.cons.inj (hinj hfree hfree'.1 hroot)).1 (by decide)
    · obtain ⟨leaf, rfl⟩ := exists_eq_singleton hne htwo
      obtain ⟨leaf', rfl⟩ := exists_eq_singleton hne' htwo'
      rw [treeStrings_single, List.forall_mem_singleton] at hfree hfree'
      rw [rootUnchecked_single, rootUnchecked_single] at hroot
      rw [Subtype.ext (List.cons.inj (hinj hfree hfree' hroot)).2]

end Tree

/-! ## Documents -/

/-- The strings that the roots of two lists hash. -/
def comparedTrees (sha256 : List UInt8 → Digest) (leaves leaves' : List Digest) :
    Set (List UInt8) :=
  {s | s ∈ treeStrings sha256 leaves ∨ s ∈ treeStrings sha256 leaves'}

section Documents
variable {crypto : VerifierPrimitives} {bytes bytes' : List UInt8} {commit commit' : MerkleCommit}
  {decoded decoded' : DecodedLeavesList}

/-- **The root is the whole commitment.** Documents that are accepted for commitments to one root
list the same leaves, and the commitments declare as many, unless two of the strings that the roots
hash collide. -/
theorem leavesDocument_binding (hcheck : validateLeavesDocument crypto bytes commit = .ok ())
    (hcheck' : validateLeavesDocument crypto bytes' commit' = .ok ())
    (hroot : commit.root = commit'.root) (hdecode : decodeDocument crypto bytes = .ok decoded)
    (hdecode' : decodeDocument crypto bytes' = .ok decoded')
    (hinj : Set.InjOn crypto.sealing.sha256
      (comparedTrees crypto.sealing.sha256 decoded.leaves decoded'.leaves)) :
    decoded.leaves = decoded'.leaves ∧ commit.leafCount = commit'.leafCount := by
  obtain ⟨_, hread, hcommitted, hdeclared⟩ :=
    (validateLeavesDocument_eq_ok_iff crypto bytes commit).mp hcheck
  obtain ⟨_, hread', hcommitted', hdeclared'⟩ :=
    (validateLeavesDocument_eq_ok_iff crypto bytes' commit').mp hcheck'
  rw [hdecode, Except.ok.injEq] at hread
  rw [hdecode', Except.ok.injEq] at hread'
  subst hread hread'
  obtain ⟨hcount, hmerkle⟩ := merkleRoot_of_decodeLeavesList hdecode
  obtain ⟨hcount', hmerkle'⟩ := merkleRoot_of_decodeLeavesList hdecode'
  have hne := leaves_ne_nil_of_root hmerkle
  have hne' := leaves_ne_nil_of_root hmerkle'
  rw [merkleRoot_eq_ok _ hne, Except.ok.injEq] at hmerkle
  rw [merkleRoot_eq_ok _ hne', Except.ok.injEq] at hmerkle'
  have hroots : rootUnchecked crypto.sealing.sha256 decoded.leaves =
      rootUnchecked crypto.sealing.sha256 decoded'.leaves := by
    rw [hmerkle, hmerkle']
    exact Subtype.ext (hcommitted.trans (hroot.trans hcommitted'.symm))
  have hleaves : decoded.leaves = decoded'.leaves :=
    leaves_eq_of_root_eq hinj hne hne' (fun _ => .inl) (fun _ => .inr) hroots
  refine ⟨hleaves, UInt64.toNat_inj.mp ?_⟩
  rw [← hdeclared, ← hdeclared', hcount, hcount', hleaves]

end Documents

/-! ## Two documents of three leaves -/

def threeLeavesCommit : MerkleCommit := ⟨merkleAlgId, sampleRoot.val, 3, none⟩

theorem sample_treeStrings : treeStrings sampleSha256 sampleLeaves =
    [0x01 :: (sampleHash01.val ++ sampleHash2.val), 0x01 :: (sampleHash0.val ++ sampleHash1.val),
      0x00 :: (sampleLeaf 0x11).val, 0x00 :: (sampleLeaf 0x22).val,
      0x00 :: (sampleLeaf 0x33).val] := by
  have hk : largestPow2Lt sampleLeaves.length = 2 := largestPow2Lt_three
  rw [treeStrings_split _ (by decide), hk]
  simp only [sampleLeaves, List.take, List.drop, sample_left_root, rootUnchecked_single,
    treeStrings_single]
  rw [treeStrings_split _ (by decide), show largestPow2Lt [sampleLeaf 0x11,
    sampleLeaf 0x22].length = 1 from largestPow2Lt_two_pow 0]
  simp only [List.take, List.drop, rootUnchecked_single, treeStrings_single]
  decide

theorem sample_comparedTrees :
    Set.InjOn sampleSha256 (comparedTrees sampleSha256 sampleLeaves sampleLeaves) := by
  have hdistinct : ∀ x ∈ treeStrings sampleSha256 sampleLeaves,
      ∀ y ∈ treeStrings sampleSha256 sampleLeaves, sampleSha256 x = sampleSha256 y → x = y := by
    rw [sample_treeStrings]
    decide
  intro x hx y hy hxy
  exact hdistinct x (hx.elim id id) y (hy.elim id id) hxy

/-- The document of the three leaves, with their algorithm or without. -/
theorem exists_threeLeaves (leafAlg : Option String) (h : leafAlg ∈ [none, some "sha2-256"]) :
    ∃ bytes decoded, decodeDocument threeLeavesCrypto bytes = .ok decoded ∧
      validateLeavesDocument threeLeavesCrypto bytes threeLeavesCommit = .ok () ∧
      decoded.leaves = sampleLeaves ∧ decoded.leafAlg = leafAlg := by
  obtain ⟨bytes, -, hdecode⟩ := @decodeLeavesList_encode sampleSha256 keyringCrypto.text.debug
    _ _ (sampleLeaves_fit leafAlg h) sampleRoot
  rw [checkDeclaredRoot, sample_root, if_pos rfl] at hdecode
  have hread : decodeDocument threeLeavesCrypto bytes = .ok
      ⟨leavesListFormatV1, merkleAlgId, sampleRoot, sampleLeaves, 3, leafAlg⟩ := hdecode
  exact ⟨bytes, _, hread,
    (validateLeavesDocument_eq_ok_iff _ _ _).mpr ⟨_, hread, rfl, rfl⟩, rfl, rfl⟩

theorem leavesDocument_binding_three :
    ∃ bytes bytes' decoded decoded', decodeDocument threeLeavesCrypto bytes = .ok decoded ∧
      decodeDocument threeLeavesCrypto bytes' = .ok decoded' ∧
      decoded.leafAlg ≠ decoded'.leafAlg ∧ decoded.leaves = decoded'.leaves := by
  obtain ⟨bytes, decoded, hdecode, hcheck, hleaves, halg⟩ := exists_threeLeaves none (by simp)
  obtain ⟨bytes', decoded', hdecode', hcheck', hleaves', halg'⟩ :=
    exists_threeLeaves (some "sha2-256") (by simp)
  have hinj : Set.InjOn threeLeavesCrypto.sealing.sha256
      (comparedTrees threeLeavesCrypto.sealing.sha256 decoded.leaves decoded'.leaves) := by
    rw [hleaves, hleaves']
    exact sample_comparedTrees
  refine ⟨bytes, bytes', decoded, decoded', hdecode, hdecode', by simp [halg, halg'], ?_⟩
  exact (leavesDocument_binding hcheck hcheck' rfl hdecode hdecode' hinj).1

end Label309
