import Label309.Certificate.Verify

/-!
# What is built verifies, and what verifies is a leaf

The builder does not look at the chain of the anchor, which the verifier asks for, nor at the
size of the tree.
-/
namespace Label309
open ExceptBind

/-! ## Strings and back -/

/-- The siblings that the builder writes are the ones that the verifier reads. -/
theorem decodeProof_encoded (siblings : List Digest) (i : ℕ) :
    decodeProof i (siblings.map fun s => hexEncode s.val) = .ok siblings := by
  induction siblings generalizing i with
  | nil => rfl
  | cons sibling siblings ih =>
      rw [List.map_cons, decodeProof, hexDecode_hexEncode]
      dsimp only
      rw [toFixed_val]
      dsimp only
      rw [ih]
      rfl

/-- The first index at which the leaf stands. -/
def IsFirstIndex (leaves : List Digest) (leaf : Digest) (i : ℕ) : Prop :=
  leaves[i]? = some leaf ∧ ∀ j < i, leaves[j]? ≠ some leaf

theorem findLeafIndex_eq_some_iff {leaves : List Digest} {leaf : Digest} {i : ℕ} :
    findLeafIndex leaves leaf = some i ↔ IsFirstIndex leaves leaf i := by
  rw [findLeafIndex, List.findIdx?_eq_some_iff_getElem, IsFirstIndex, List.getElem?_eq_some_iff]
  constructor
  · intro ⟨hi, hget, hbefore⟩
    refine ⟨⟨hi, eq_of_beq hget⟩, ?_⟩
    intro j hj heq
    obtain ⟨hlt, hjget⟩ := List.getElem?_eq_some_iff.mp heq
    exact hbefore j hj (beq_iff_eq.mpr hjget)
  · intro ⟨⟨hi, hget⟩, hbefore⟩
    refine ⟨hi, beq_iff_eq.mpr hget, ?_⟩
    intro j hj hjget
    have hlt : j < leaves.length := by omega
    exact hbefore j hj (List.getElem?_eq_some_iff.mpr ⟨hlt, eq_of_beq hjget⟩)

theorem findLeafIndex_eq_none_iff {leaves : List Digest} {leaf : Digest} :
    findLeafIndex leaves leaf = none ↔ leaf ∉ leaves := by
  rw [findLeafIndex, List.findIdx?_eq_none_iff]
  constructor
  · intro h hmem
    simpa using h leaf hmem
  · intro h x hx
    by_cases heq : x = leaf
    · exact absurd (heq ▸ hx) h
    · exact beq_eq_false_iff_ne.mpr heq

variable (sha256 : List UInt8 → Digest)

/-! ## One item -/

/-- The verdict on a target: it verifies exactly when the target is a leaf, and then under the
first index of the leaf. -/
def VerdictAgrees (leaves : List Digest) (target : CertificateTarget)
    (verdict : InclusionCertificateItemVerdict) : Prop :=
  (verdict.verified = true ↔ target.leaf ∈ leaves) ∧
    ∀ i, IsFirstIndex leaves target.leaf i → verdict.index = i

/-- An item that the builder writes for the leaf at `i` is read back, and its proof is checked. -/
theorem verifyItem_encoded {treeSize i : ℕ} (hi : i < treeSize) (leaf : Digest)
    (siblings : List Digest) (root : List UInt8) (item : InclusionCertificateItem)
    (hindex : item.index = i) (hleaf : item.leaf = hexEncode leaf.val)
    (hproof : item.proof = siblings.map fun s => hexEncode s.val) (herror : item.error = none) :
    verifyItem sha256 item treeSize root =
      { index := i, leaf := item.leaf,
        verified := verifyInclusion sha256 leaf.val i treeSize siblings root, error := none } := by
  have hrange : ¬ ((i : ℤ) < 0 ∨ treeSize ≤ i) := by omega
  rw [verifyItem, herror]
  dsimp only
  rw [hindex, Int.toNat_natCast, if_neg hrange, hleaf, hexDecode_hexEncode]
  dsimp only
  rw [hproof, decodeProof_encoded]

/-- What is built for a target gets the right verdict. -/
theorem verifyItem_built {leaves : List Digest} {root : Digest}
    (hroot : merkleRoot sha256 leaves = .ok root) (hsize : leaves.length ≤ maxTreeSize)
    {target : CertificateTarget} {item : InclusionCertificateItem}
    (hbuild : buildItem sha256 target leaves root = .ok item) :
    VerdictAgrees leaves target (verifyItem sha256 item leaves.length root.val) := by
  cases hfind : findLeafIndex leaves target.leaf with
  | none =>
      have hmiss := findLeafIndex_eq_none_iff.mp hfind
      simp only [buildItem, hfind, Except.ok.injEq] at hbuild
      subst hbuild
      refine ⟨?_, ?_⟩
      · simp [verifyItem, hmiss]
      · intro i hi
        exact absurd (List.mem_of_getElem? hi.1) hmiss
  | some i =>
      have hfirst := findLeafIndex_eq_some_iff.mp hfind
      have hindex : i < leaves.length := (List.getElem?_eq_some_iff.mp hfirst.1).1
      have hne : leaves ≠ [] := List.ne_nil_of_length_pos (by omega)
      rw [merkleRoot_eq_ok sha256 hne, Except.ok.injEq] at hroot
      subst hroot
      simp only [buildItem, hfind, merkleInclusionProof_eq_ok sha256 hsize hindex,
        Except.ok.injEq] at hbuild
      subst hbuild
      rw [verifyItem_encoded sha256 hindex target.leaf _ _ _ rfl rfl rfl rfl]
      refine ⟨?_, ?_⟩
      · simp only [verifyInclusion_auditPath sha256 hsize hfirst.1, true_iff]
        exact List.mem_of_getElem? hfirst.1
      · intro j hj
        have hj' := findLeafIndex_eq_some_iff.mpr hj
        rw [hfind, Option.some.injEq] at hj'
        rw [hj']

/-- A target builds an item, unless it is a leaf of a tree that is too large. -/
theorem exists_buildItem_iff {leaves : List Digest} (hne : leaves ≠ [])
    (target : CertificateTarget) (root : Digest) :
    (∃ item, buildItem sha256 target leaves root = .ok item) ↔
      leaves.length ≤ maxTreeSize ∨ target.leaf ∉ leaves := by
  cases hfind : findLeafIndex leaves target.leaf with
  | none =>
      have hmiss := findLeafIndex_eq_none_iff.mp hfind
      simp [buildItem, hfind, hmiss]
  | some i =>
      have hfirst := findLeafIndex_eq_some_iff.mp hfind
      have hindex : i < leaves.length := (List.getElem?_eq_some_iff.mp hfirst.1).1
      have hmem := List.mem_of_getElem? hfirst.1
      by_cases hsize : leaves.length ≤ maxTreeSize
      · simp [buildItem, hfind, merkleInclusionProof_eq_ok sha256 hsize hindex, hsize]
      · have hrange : validateTreeRange i leaves.length =
            .error (.treeSizeOutOfRange leaves.length) := by
          rw [validateTreeRange, if_pos (by omega)]
        simp [buildItem, hfind, merkleInclusionProof, hne, hrange, hsize, hmem]

/-! ## The whole certificate -/

/-- The inputs pass the checks that the builder makes before the items. -/
def BuilderAccepts (anchor : CertificateAnchor) (merkle : CertificateMerkle)
    (leaves : List Digest) : Prop :=
  merkle.treeAlg = certificateTreeAlg ∧ merkle.treeSize = leaves.length ∧
    merkleRoot sha256 leaves = .ok merkle.root ∧
    0 ≤ anchor.blockTime ∧ anchor.blockTime < maxBlockTimeExclusive

section Builder
variable {now : ℤ × ℕ} {anchor : CertificateAnchor} {merkle : CertificateMerkle}
  {leaves : List Digest} {targets : List CertificateTarget} {generatedAt : Option String}

theorem ne_nil_of_merkleRoot {root : Digest} (h : merkleRoot sha256 leaves = .ok root) :
    leaves ≠ [] := by
  intro hnil
  subst hnil
  cases h

/-- Past its checks the builder makes the items. -/
theorem buildInclusionCertificate_of_accepts
    (haccepts : BuilderAccepts sha256 anchor merkle leaves) :
    (∀ e, targets.mapM (fun target => buildItem sha256 target leaves merkle.root) = .error e →
      buildInclusionCertificate sha256 now anchor merkle leaves targets generatedAt =
        .error e) ∧
      ∀ items, targets.mapM (fun target => buildItem sha256 target leaves merkle.root) =
          .ok items →
        ∃ cert, buildInclusionCertificate sha256 now anchor merkle leaves targets generatedAt =
            .ok cert ∧
          cert.format = inclusionCertificateFormatV1 ∧ cert.anchor = buildAnchor anchor ∧
          cert.merkle = buildMerkle merkle ∧ cert.items = items := by
  obtain ⟨halg, hsize, hroot, hlow, hhigh⟩ := haccepts
  have htime : ¬ (anchor.blockTime < 0 ∨ maxBlockTimeExclusive ≤ anchor.blockTime) := by omega
  rw [buildInclusionCertificate, if_neg (not_not_intro halg), if_neg (not_not_intro hsize), hroot]
  dsimp only
  rw [if_neg (not_not_intro rfl), if_neg htime]
  constructor
  · intro e herror
    rw [herror]
    rfl
  · intro items hitems
    rw [hitems]
    exact ⟨_, rfl, rfl, rfl, rfl, rfl⟩

theorem builderAccepts_of_eq_ok {cert : InclusionCertificateV1}
    (h : buildInclusionCertificate sha256 now anchor merkle leaves targets generatedAt =
      .ok cert) : BuilderAccepts sha256 anchor merkle leaves := by
  rw [buildInclusionCertificate] at h
  by_cases halg : merkle.treeAlg = certificateTreeAlg
  · by_cases hsize : merkle.treeSize = leaves.length
    · rw [if_neg (not_not_intro halg), if_neg (not_not_intro hsize)] at h
      cases hroot : merkleRoot sha256 leaves with
      | error e => simp [hroot] at h
      | ok root =>
          rw [hroot] at h
          dsimp only at h
          by_cases heq : root = merkle.root
          · by_cases htime : anchor.blockTime < 0 ∨ maxBlockTimeExclusive ≤ anchor.blockTime
            · simp [heq, htime] at h
            · exact ⟨halg, hsize, by rw [hroot, heq], by omega, by omega⟩
          · simp [heq] at h
    · simp [halg, hsize] at h
  · simp [halg] at h

/-- The items of a certificate that was built are those of the targets, in order. -/
theorem build_eq_ok {cert : InclusionCertificateV1}
    (h : buildInclusionCertificate sha256 now anchor merkle leaves targets generatedAt =
      .ok cert) :
    cert.format = inclusionCertificateFormatV1 ∧ cert.anchor = buildAnchor anchor ∧
      cert.merkle = buildMerkle merkle ∧
      List.Forall₂ (fun target item => buildItem sha256 target leaves merkle.root = .ok item)
        targets cert.items := by
  obtain ⟨hfailed, hbuilt⟩ := @buildInclusionCertificate_of_accepts sha256 now anchor merkle
    leaves targets generatedAt (builderAccepts_of_eq_ok sha256 h)
  cases hitems : targets.mapM (fun target => buildItem sha256 target leaves merkle.root) with
  | error e => simp [hfailed e hitems] at h
  | ok items =>
      obtain ⟨built, hok, hformat, hanchor, hmerkle, hcert⟩ := hbuilt items hitems
      rw [hok, Except.ok.injEq] at h
      subst h
      exact ⟨hformat, hanchor, hmerkle, hcert ▸ mapM_eq_ok_iff.mp hitems⟩

/-- A certificate is built exactly when the checks pass and every target has an item. -/
theorem exists_build_iff :
    (∃ cert, buildInclusionCertificate sha256 now anchor merkle leaves targets generatedAt =
        .ok cert) ↔
      BuilderAccepts sha256 anchor merkle leaves ∧
        (leaves.length ≤ maxTreeSize ∨ ∀ target ∈ targets, target.leaf ∉ leaves) := by
  constructor
  · intro ⟨cert, hcert⟩
    have haccepts := builderAccepts_of_eq_ok sha256 hcert
    have hne := ne_nil_of_merkleRoot sha256 haccepts.2.2.1
    refine ⟨haccepts, ?_⟩
    by_cases hsize : leaves.length ≤ maxTreeSize
    · exact .inl hsize
    · refine .inr ?_
      intro target htarget
      obtain ⟨item, -, hitem⟩ :=
        exists_right_of_forall₂ (build_eq_ok sha256 hcert).2.2.2 htarget
      exact ((exists_buildItem_iff sha256 hne target merkle.root).mp ⟨item, hitem⟩).resolve_left
        hsize
  · intro ⟨haccepts, hbuildable⟩
    have hne := ne_nil_of_merkleRoot sha256 haccepts.2.2.1
    have hall : ∀ target ∈ targets, ∃ item, buildItem sha256 target leaves merkle.root =
        .ok item := by
      intro target htarget
      refine (exists_buildItem_iff sha256 hne target merkle.root).mpr ?_
      exact hbuildable.imp id (fun h => h target htarget)
    obtain ⟨items, hitems⟩ := exists_forall₂_of_forall hall
    obtain ⟨cert, hcert, -⟩ :=
      (buildInclusionCertificate_of_accepts sha256 haccepts).2 items (mapM_eq_ok_iff.mpr hitems)
    exact ⟨cert, hcert⟩

end Builder

/-- The fixed fields of a certificate are those of the format, and the tree has a size in
range. -/
def FixedFields (cert : InclusionCertificateV1) : Prop :=
  cert.format = inclusionCertificateFormatV1 ∧ cert.merkle.treeAlg = certificateTreeAlg ∧
    cert.anchor.chain = "cardano" ∧ cert.anchor.metadataLabel = metadataLabel309 ∧
    1 ≤ cert.merkle.treeSize ∧ cert.merkle.treeSize ≤ maxTreeSize

/-- With the fixed fields in order and a root that is hex, every item gets its verdict. -/
theorem verify_of_fixedFields {cert : InclusionCertificateV1} (h : FixedFields cert)
    {root : List UInt8} (hroot : hexDecode cert.merkle.root = .ok root) :
    (verifyInclusionCertificate sha256 cert).items =
        cert.items.map (fun item => verifyItem sha256 item cert.merkle.treeSize root) ∧
      ((verifyInclusionCertificate sha256 cert).ok = true ↔ cert.items ≠ [] ∧
        ∀ item ∈ cert.items, (verifyItem sha256 item cert.merkle.treeSize root).verified = true) := by
  obtain ⟨hformat, halg, hchain, hlabel, hlow, hhigh⟩ := h
  rw [verifyInclusionCertificate]
  dsimp only
  rw [if_neg (not_not_intro hformat), if_neg (not_not_intro halg), if_neg (not_not_intro hchain),
    if_neg (not_not_intro hlabel), if_neg (by omega), hroot]
  refine ⟨rfl, ?_⟩
  simp only [Bool.and_eq_true, Bool.not_eq_true', List.isEmpty_eq_false_iff, ne_eq,
    List.map_eq_nil_iff, List.all_map, List.all_eq_true, Function.comp_apply]

/-- Otherwise the certificate is rejected as a whole. -/
theorem verify_of_not_fixedFields {cert : InclusionCertificateV1} (h : ¬ FixedFields cert) :
    (verifyInclusionCertificate sha256 cert).items = [] ∧
      (verifyInclusionCertificate sha256 cert).ok = false := by
  rw [verifyInclusionCertificate]
  dsimp only
  by_cases hformat : cert.format = inclusionCertificateFormatV1
  · rw [if_neg (not_not_intro hformat)]
    by_cases halg : cert.merkle.treeAlg = certificateTreeAlg
    · rw [if_neg (not_not_intro halg)]
      by_cases hchain : cert.anchor.chain = "cardano"
      · rw [if_neg (not_not_intro hchain)]
        by_cases hlabel : cert.anchor.metadataLabel = metadataLabel309
        · rw [if_neg (not_not_intro hlabel)]
          by_cases hsize : cert.merkle.treeSize < 1 ∨ maxTreeSize < cert.merkle.treeSize
          · rw [if_pos hsize]
            exact ⟨rfl, rfl⟩
          · exact absurd ⟨hformat, halg, hchain, hlabel, by omega, by omega⟩ h
        · rw [if_pos hlabel]
          exact ⟨rfl, rfl⟩
      · rw [if_pos hchain]
        exact ⟨rfl, rfl⟩
    · rw [if_pos halg]
      exact ⟨rfl, rfl⟩
  · rw [if_pos hformat]
    exact ⟨rfl, rfl⟩

/-! ## What is built verifies -/

/-- A certificate that is built gets one right verdict for each target, and it is accepted when
there are targets and all of them are leaves. -/
def BuiltVerifies (now : ℤ × ℕ) (anchor : CertificateAnchor) (merkle : CertificateMerkle)
    (leaves : List Digest) (targets : List CertificateTarget) (generatedAt : Option String) :
    Prop :=
  ∀ cert, buildInclusionCertificate sha256 now anchor merkle leaves targets generatedAt =
      .ok cert →
    List.Forall₂ (VerdictAgrees leaves) targets (verifyInclusionCertificate sha256 cert).items ∧
      ((verifyInclusionCertificate sha256 cert).ok = true ↔
        targets ≠ [] ∧ ∀ target ∈ targets, target.leaf ∈ leaves)

/-- Whenever the builder's checks pass, there are no targets, or the anchor names Cardano and the
tree has a size in range, or a target is a leaf of a tree that is larger, which has no proof. -/
def BuildsForCardano (anchor : CertificateAnchor) (merkle : CertificateMerkle)
    (leaves : List Digest) (targets : List CertificateTarget) : Prop :=
  BuilderAccepts sha256 anchor merkle leaves →
    targets = [] ∨ (anchor.chain = "cardano" ∧ leaves.length ≤ maxTreeSize) ∨
      (maxTreeSize < leaves.length ∧ ∃ target ∈ targets, target.leaf ∈ leaves)

section Built
variable {now : ℤ × ℕ} {anchor : CertificateAnchor} {merkle : CertificateMerkle}
  {leaves : List Digest} {targets : List CertificateTarget} {generatedAt : Option String}

/-- For Cardano and a tree in range the verdicts are right. -/
theorem verify_built_cardano {cert : InclusionCertificateV1}
    (h : buildInclusionCertificate sha256 now anchor merkle leaves targets generatedAt = .ok cert)
    (hchain : anchor.chain = "cardano") (hsize : leaves.length ≤ maxTreeSize) :
    List.Forall₂ (VerdictAgrees leaves) targets (verifyInclusionCertificate sha256 cert).items ∧
      ((verifyInclusionCertificate sha256 cert).ok = true ↔
        targets ≠ [] ∧ ∀ target ∈ targets, target.leaf ∈ leaves) := by
  obtain ⟨halg, htree, hroot, -⟩ := builderAccepts_of_eq_ok sha256 h
  obtain ⟨hformat, hanchor, hmerkle, hitems⟩ := build_eq_ok sha256 h
  have hpos : 1 ≤ leaves.length :=
    List.length_pos_of_ne_nil (ne_nil_of_merkleRoot sha256 hroot)
  have htreeSize : cert.merkle.treeSize = leaves.length := by rw [hmerkle, ← htree]; rfl
  have hfixed : FixedFields cert :=
    ⟨hformat, by rw [hmerkle]; exact halg, by rw [hanchor]; exact hchain, by rw [hanchor]; rfl,
      by omega, by omega⟩
  have hdecode : hexDecode cert.merkle.root = .ok merkle.root.val := by
    rw [hmerkle]
    exact hexDecode_hexEncode _
  obtain ⟨hverdicts, hok⟩ := verify_of_fixedFields sha256 hfixed hdecode
  rw [htreeSize] at hverdicts hok
  have hagree : List.Forall₂ (fun target item => VerdictAgrees leaves target
      (verifyItem sha256 item leaves.length merkle.root.val)) targets cert.items :=
    hitems.imp (by intro target item hitem; exact verifyItem_built sha256 hroot hsize hitem)
  refine ⟨?_, ?_⟩
  · rw [hverdicts, List.forall₂_map_right_iff]
    exact hagree
  · rw [hok]
    have hempty : cert.items = [] ↔ targets = [] := by
      rw [← List.length_eq_zero_iff, ← List.length_eq_zero_iff, hitems.length_eq]
    refine and_congr (not_congr hempty) ⟨?_, ?_⟩
    · intro hall target htarget
      obtain ⟨item, hmem, hitem⟩ := exists_right_of_forall₂ hagree htarget
      exact hitem.1.mp (hall item hmem)
    · intro hall item hitem
      obtain ⟨target, hmem, htarget⟩ := exists_left_of_forall₂ hagree hitem
      exact htarget.1.mpr (hall target hmem)

/-- A certificate for another chain, or for a tree that is too large, is rejected as a whole. -/
theorem verify_built_rejected {cert : InclusionCertificateV1}
    (h : buildInclusionCertificate sha256 now anchor merkle leaves targets generatedAt = .ok cert)
    (hnot : ¬ (anchor.chain = "cardano" ∧ leaves.length ≤ maxTreeSize)) :
    (verifyInclusionCertificate sha256 cert).items = [] ∧
      (verifyInclusionCertificate sha256 cert).ok = false := by
  obtain ⟨-, htree, -⟩ := builderAccepts_of_eq_ok sha256 h
  obtain ⟨-, hanchor, hmerkle, -⟩ := build_eq_ok sha256 h
  apply verify_of_not_fixedFields
  intro hfixed
  obtain ⟨-, -, hchain, -, -, hhigh⟩ := hfixed
  rw [hanchor] at hchain
  rw [hmerkle] at hhigh
  exact hnot ⟨hchain, htree ▸ hhigh⟩

theorem builtVerifies_iff :
    BuiltVerifies sha256 now anchor merkle leaves targets generatedAt ↔
      BuildsForCardano sha256 anchor merkle leaves targets := by
  constructor
  · intro h haccepts
    by_cases hempty : targets = []
    · exact .inl hempty
    · refine .inr ?_
      by_cases hlarge : maxTreeSize < leaves.length ∧ ∃ target ∈ targets, target.leaf ∈ leaves
      · exact .inr hlarge
      · have hbuild : leaves.length ≤ maxTreeSize ∨ ∀ target ∈ targets, target.leaf ∉ leaves := by
          by_cases hsize : leaves.length ≤ maxTreeSize
          · exact .inl hsize
          · refine .inr ?_
            intro target htarget hmem
            exact hlarge ⟨by omega, target, htarget, hmem⟩
        obtain ⟨cert, hcert⟩ := (exists_build_iff sha256).mpr ⟨haccepts, hbuild⟩
        by_cases hcardano : anchor.chain = "cardano" ∧ leaves.length ≤ maxTreeSize
        · exact .inl hcardano
        · -- No verdict is left for the targets.
          have hverdicts := (h cert hcert).1
          rw [(verify_built_rejected sha256 hcert hcardano).1] at hverdicts
          exact absurd (List.forall₂_nil_right_iff.mp hverdicts) hempty
  · intro h cert hcert
    by_cases hcardano : anchor.chain = "cardano" ∧ leaves.length ≤ maxTreeSize
    · exact verify_built_cardano sha256 hcert hcardano.1 hcardano.2
    · have hrejected := verify_built_rejected sha256 hcert hcardano
      rw [hrejected.1, hrejected.2]
      have hbuild := (exists_build_iff sha256).mp ⟨cert, hcert⟩
      rcases h hbuild.1 with rfl | hyes | ⟨hlarge, target, htarget, hmem⟩
      · simp
      · exact absurd hyes hcardano
      · exact absurd hmem (hbuild.2.resolve_left (by omega) target htarget)

end Built

/-! ## What verifies is a leaf -/

/-- The strings hashed to check the items of a certificate, and to prove the leaves at their
indices. -/
def certificateStrings (cert : InclusionCertificateV1) (leaves : List Digest) :
    Set (List UInt8) :=
  {s | ∃ item ∈ cert.items, ∃ leaf proof, hexDecode item.leaf = .ok leaf ∧
    decodeProof 0 item.proof = .ok proof ∧
      s ∈ comparedStrings sha256 leaves leaf item.index.toNat proof}

/-- A certificate that is accepted, over the root and the size of a list of leaves, has at every
item the leaf of its index, unless two of the strings hashed collide. -/
def AcceptedIsTrue (cert : InclusionCertificateV1) (leaves : List Digest) : Prop :=
  ∀ root, merkleRoot sha256 leaves = .ok root → hexDecode cert.merkle.root = .ok root.val →
    leaves.length = cert.merkle.treeSize →
    Set.InjOn sha256 (certificateStrings sha256 cert leaves) →
    (verifyInclusionCertificate sha256 cert).ok = true →
    ∀ item ∈ cert.items, 0 ≤ item.index ∧ ∃ leaf, leaves[item.index.toNat]? = some leaf ∧
      hexDecode item.leaf = .ok leaf.val

/-- An item that verifies has no error, an index in range, and strings that decode. -/
theorem verifyItem_verified {item : InclusionCertificateItem} {treeSize : ℕ} {root : List UInt8}
    (h : (verifyItem sha256 item treeSize root).verified = true) :
    0 ≤ item.index ∧ ∃ leaf proof, hexDecode item.leaf = .ok leaf ∧
      decodeProof 0 item.proof = .ok proof ∧
      verifyInclusion sha256 leaf item.index.toNat treeSize proof root = true := by
  rw [verifyItem] at h
  cases herror : item.error with
  | some error => simp [herror] at h
  | none =>
      rw [herror] at h
      dsimp only at h
      by_cases hrange : item.index < 0 ∨ treeSize ≤ item.index.toNat
      · simp [hrange] at h
      · rw [if_neg hrange] at h
        cases hleaf : hexDecode item.leaf with
        | error err => simp [hleaf] at h
        | ok leaf =>
            rw [hleaf] at h
            dsimp only at h
            cases hproof : decodeProof 0 item.proof with
            | error error => simp [hproof] at h
            | ok proof =>
                rw [hproof] at h
                exact ⟨by omega, leaf, proof, rfl, rfl, h⟩

theorem acceptedIsTrue (cert : InclusionCertificateV1) (leaves : List Digest) :
    AcceptedIsTrue sha256 cert leaves := by
  intro root hroot hdecode hsize hinj hok item hitem
  by_cases hfixed : FixedFields cert
  · have hverified := ((verify_of_fixedFields sha256 hfixed hdecode).2.mp hok).2 item hitem
    obtain ⟨hindex, leaf, proof, hleaf, hproof, hverify⟩ := verifyItem_verified sha256 hverified
    rw [← hsize] at hverify
    have hinj' : Set.InjOn sha256 (comparedStrings sha256 leaves leaf item.index.toNat proof) := by
      apply hinj.mono
      intro s hs
      exact ⟨item, hitem, leaf, proof, hleaf, hproof, hs⟩
    have hlarge : leaves.length ≤ maxTreeSize := hsize ▸ hfixed.2.2.2.2.2
    obtain ⟨-, hget, -⟩ := verifyInclusion_sound sha256 hlarge hroot hinj' hverify
    obtain ⟨digest, hdigest, hval⟩ := Option.map_eq_some_iff.mp hget
    exact ⟨hindex, digest, hdigest, by rw [hleaf, hval]⟩
  · rw [(verify_of_not_fixedFields sha256 hfixed).2] at hok
    cases hok

/-- **Certificates.** What is built verifies exactly when the anchor names Cardano and the tree
has a size in range, and what verifies is true. -/
theorem inclusionCertificate_iff (now : ℤ × ℕ) (anchor : CertificateAnchor)
    (merkle : CertificateMerkle) (leaves : List Digest) (targets : List CertificateTarget)
    (generatedAt : Option String) :
    (BuiltVerifies sha256 now anchor merkle leaves targets generatedAt ↔
        BuildsForCardano sha256 anchor merkle leaves targets) ∧
      ∀ cert leaves', AcceptedIsTrue sha256 cert leaves' :=
  ⟨builtVerifies_iff sha256, acceptedIsTrue sha256⟩

/-! ## An anchor on another chain -/

def sampleAnchor (chain : String) : CertificateAnchor where
  chain := chain
  network := "mainnet"
  txHash := "abcdef0123456789abcdef0123456789abcdef0123456789abcdef0123456789"
  metadataLabel := 309
  blockTime := 1718539200
  blockHeight := none
  slot := none
  confirmationsAtGeneration := none
  explorerUrls := none

def sampleMerkle : CertificateMerkle where
  treeAlg := "rfc9162-sha256"
  root := sampleRoot
  treeSize := 3
  leavesListUri := none
  leavesListUrl := none

def sampleTarget : CertificateTarget where
  leaf := sampleLeaf 0x33
  leafAlg := none
  label := none

theorem sample_builderAccepts (chain : String) :
    BuilderAccepts sampleSha256 (sampleAnchor chain) sampleMerkle sampleLeaves := by
  have htime : (0 : ℤ) ≤ 1718539200 ∧ (1718539200 : ℤ) < maxBlockTimeExclusive := by decide
  refine ⟨rfl, rfl, ?_, htime⟩
  rw [merkleRoot_eq_ok _ (by decide), sample_root]
  rfl

/-- The one item that is built for the third leaf. -/
theorem sample_items {items : List InclusionCertificateItem}
    (h : List.Forall₂ (fun target item => buildItem sampleSha256 target sampleLeaves sampleRoot =
      .ok item) [sampleTarget] items) :
    ∃ item, items = [item] ∧ item.leaf = hexEncode (sampleLeaf 0x33).val ∧ item.index = 2 ∧
      item.proof = [hexEncode sampleHash01.val] := by
  obtain ⟨item, rest, hitem, hrest, rfl⟩ := List.forall₂_cons_left_iff.mp h
  rw [List.forall₂_nil_left_iff.mp hrest]
  have hfind : findLeafIndex sampleLeaves sampleTarget.leaf = some 2 := by decide
  have hproof := merkleInclusionProof_eq_ok sampleSha256 sampleLeaves_size
    (show 2 < sampleLeaves.length by decide)
  rw [buildItem, hfind] at hitem
  dsimp only at hitem
  rw [hproof, sample_auditPath, Except.ok.injEq] at hitem
  subst hitem
  exact ⟨_, rfl, rfl, rfl, rfl⟩

/-- For the anchor of another chain the third of three leaves is built and not verified. -/
theorem not_builtVerifies_otherChain :
    ¬ BuiltVerifies sampleSha256 (0, 0) (sampleAnchor "bitcoin") sampleMerkle sampleLeaves
      [sampleTarget] none := by
  intro h
  rcases (builtVerifies_iff sampleSha256).mp h (sample_builderAccepts "bitcoin") with
    hempty | ⟨hchain, -⟩ | ⟨hlarge, -⟩
  · cases hempty
  · exact absurd hchain (by decide)
  · exact absurd hlarge (by decide)

/-- For Cardano it is built, it verifies, and its leaf is the third. -/
theorem inclusionCertificate_cardano :
    ∃ cert, buildInclusionCertificate sampleSha256 (0, 0) (sampleAnchor "cardano")
        sampleMerkle sampleLeaves [sampleTarget] none = .ok cert ∧
      (verifyInclusionCertificate sampleSha256 cert).ok = true ∧
      ∀ item ∈ cert.items, 0 ≤ item.index ∧ ∃ leaf,
        sampleLeaves[item.index.toNat]? = some leaf ∧ hexDecode item.leaf = .ok leaf.val := by
  have haccepts := sample_builderAccepts "cardano"
  obtain ⟨cert, hcert⟩ := (exists_build_iff sampleSha256).mpr
    ⟨haccepts, .inl sampleLeaves_size⟩
  obtain ⟨hbuilt, htrue⟩ := inclusionCertificate_iff sampleSha256 (0, 0) (sampleAnchor "cardano")
    sampleMerkle sampleLeaves [sampleTarget] none
  have hok : (verifyInclusionCertificate sampleSha256 cert).ok = true := by
    refine ((hbuilt.mpr fun _ => .inr (.inl ⟨rfl, sampleLeaves_size⟩)) cert hcert).2.mpr
      ⟨by decide, ?_⟩
    intro target htarget
    rw [List.mem_singleton.mp htarget]
    decide
  obtain ⟨-, -, hmerkle, hitems⟩ := build_eq_ok sampleSha256 hcert
  obtain ⟨item, hitem, hleaf, hindex, hproof⟩ := sample_items hitems
  refine ⟨cert, hcert, hok, htrue cert sampleLeaves sampleRoot haccepts.2.2.1 ?_ ?_ ?_ hok⟩
  · rw [hmerkle]
    exact hexDecode_hexEncode _
  · rw [hmerkle]
    rfl
  · -- The strings are those compared for the third leaf.
    apply sample_injOn.mono
    intro s hs
    obtain ⟨item', hitem', leaf, proof, hleaf', hproof', hs⟩ := hs
    rw [hitem, List.mem_singleton] at hitem'
    subst hitem'
    rw [hleaf, hexDecode_hexEncode, Except.ok.injEq] at hleaf'
    have hdecoded := decodeProof_encoded [sampleHash01] 0
    rw [List.map_singleton, ← hproof, hproof', Except.ok.injEq] at hdecoded
    rw [hindex, ← hleaf', hdecoded] at hs
    exact hs

end Label309
