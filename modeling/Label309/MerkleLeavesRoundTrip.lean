import Label309.MerkleInclusion
import Label309.PoeStandard.Produced
import Label309.Verifier.Keyring
import Label309.Verifier.MerkleCheck

/-!
# Leaves lists round trip

What is encoded of a list with its root is decoded to the list, with any other root it is refused,
and a document that decodes certifies its own root and count. The check against a commitment
accepts exactly the documents that decode to its root and its leaf count.
-/
namespace Label309
open ExceptBind

/-! ## Encoding -/

/-- The fields of the document by their names. -/
def leavesListNamed (leaves : List Digest) (root : Digest) (leafAlg : Option String) :
    List (String × Option CborValue) :=
  [("format", some (.text leavesListFormatV1)), ("tree_alg", some (.text merkleAlgId)),
    ("root", some (.bytes root.val)),
    ("leaves", some (.array (leaves.map fun l => .bytes l.val))),
    ("leaf_count", some (.unsigned (UInt64.ofNat leaves.length))),
    ("leaf_alg", leafAlg.map .text)]

theorem presentFields_leavesListNamed (leaves : List Digest) (root : Digest)
    (leafAlg : Option String) :
    presentFields (leavesListNamed leaves root leafAlg) = leavesListFields leaves root leafAlg := by
  cases leafAlg <;> rfl

/-- The names of the fields. -/
def leavesListNames : List String :=
  ["format", "tree_alg", "root", "leaves", "leaf_count", "leaf_alg"]

theorem nodup_leavesListNames : leavesListNames.Nodup := by decide

theorem length_leavesListNames : ∀ name ∈ leavesListNames, (utf8Bytes name).length < 2 ^ 64 := by
  decide

/-- The lengths of a list and of the name of its leaf algorithm are those of a 64-bit word. -/
structure LeavesFit (leaves : List Digest) (leafAlg : Option String) : Prop where
  nonempty : leaves ≠ []
  length : leaves.length < 2 ^ 64
  leafAlg : ∀ alg ∈ leafAlg, (utf8Bytes alg).length < 2 ^ 64

theorem encodes_leavesList (leaves : List Digest) (root : Digest) (leafAlg : Option String) :
    Encodes (.map (leavesListFields leaves root leafAlg)) := by
  rw [← presentFields_leavesListNamed]
  apply encodes_presentFields
  · exact nodup_leavesListNames
  · intro f hf
    exact length_leavesListNames f.1 (List.mem_map_of_mem hf)
  · intro f hf v hv
    simp only [leavesListNamed, List.mem_cons, List.not_mem_nil, or_false] at hf
    rcases hf with rfl | rfl | rfl | rfl | rfl | rfl
    · cases hv
      exact ⟨_, rfl⟩
    · cases hv
      exact ⟨_, rfl⟩
    · cases hv
      exact ⟨_, rfl⟩
    · cases hv
      apply encodes_array
      intro v hv
      obtain ⟨leaf, -, hleaf⟩ := List.mem_map.mp hv
      rw [← hleaf]
      exact ⟨_, rfl⟩
    · cases hv
      exact ⟨_, rfl⟩
    · obtain ⟨alg, -, htext⟩ := Option.map_eq_some_iff.mp hv
      rw [← htext]
      exact ⟨_, rfl⟩

section Document
variable {leaves : List Digest} {leafAlg : Option String} (hfit : LeavesFit leaves leafAlg)
  (root : Digest)
include hfit

theorem lengthsFit_leavesList : LengthsFit (.map (leavesListFields leaves root leafAlg)) := by
  have hcount : (leavesListFields leaves root leafAlg).length ≤ 6 := by
    cases leafAlg <;> simp [leavesListFields]
  have hroot := root.property
  rw [← presentFields_leavesListNamed] at hcount ⊢
  refine .map (by omega) ?_ ?_
  · intro p hp
    obtain ⟨t, ht, hkey⟩ := closedMap_presentFields _ p hp
    rw [hkey]
    exact .text (length_leavesListNames t ht)
  · intro p hp
    obtain ⟨f, hf, heq⟩ := List.mem_filterMap.mp hp
    obtain ⟨v, hv, hpair⟩ := Option.map_eq_some_iff.mp heq
    rw [← hpair]
    simp only [leavesListNamed, List.mem_cons, List.not_mem_nil, or_false] at hf
    rcases hf with rfl | rfl | rfl | rfl | rfl | rfl
    · cases hv
      exact .text (by decide)
    · cases hv
      exact .text (by decide)
    · cases hv
      exact .bytes (by omega)
    · cases hv
      refine .array (by rw [List.length_map]; exact hfit.length) ?_
      intro v hv
      obtain ⟨leaf, -, hleaf⟩ := List.mem_map.mp hv
      have hlength := leaf.property
      exact hleaf ▸ .bytes (by omega)
    · cases hv
      exact .unsigned _
    · obtain ⟨alg, halg, htext⟩ := Option.map_eq_some_iff.mp hv
      exact htext ▸ .text (hfit.leafAlg alg halg)

/-- The encoding of a list decodes to a map with the fields it was made of. -/
theorem exists_decoded_leavesList :
    ∃ b pairs, encodeLeavesList leaves root leafAlg = .ok b ∧
      decodeCanonicalCbor b = .ok (.map pairs) ∧
      ∀ f ∈ leavesListNamed leaves root leafAlg, mapGet pairs f.1 = f.2.map sortMaps := by
  obtain ⟨b, hb⟩ := encodes_leavesList leaves root leafAlg
  obtain ⟨pairs, hsorted, -, hfields⟩ := @exists_sorted_fields
    (leavesListNamed leaves root leafAlg) nodup_leavesListNames
  rw [presentFields_leavesListNamed] at hsorted
  refine ⟨b, pairs, ?_, ?_, hfields⟩
  · have hne : leaves.isEmpty = false := by simpa using hfit.nonempty
    rw [encodeLeavesList, hne, hb]
    rfl
  · rw [← hsorted]
    exact decode_of_encode (lengthsFit_leavesList hfit root) hb

end Document

/-! ## Decoding -/

theorem decodeLeaves_eq_ok_iff {i : ℕ} {items : List CborValue} {leaves : List Digest} :
    decodeLeaves i items = .ok leaves ↔ items = leaves.map fun l => .bytes l.val := by
  have hvalue : ∀ (item : CborValue) (leaf : Digest),
      digestValue item = some leaf ↔ item = .bytes leaf.val := by
    intro item leaf
    cases item <;> simp [digestValue, toFixed_eq_some]
  induction items generalizing i leaves with
  | nil => cases leaves <;> simp [decodeLeaves]
  | cons item items ih =>
      rw [decodeLeaves]
      cases hleaf : digestValue item with
      | none =>
          constructor
          · intro h
            cases h
          · intro h
            cases leaves with
            | nil => cases h
            | cons l ls =>
                rw [(hvalue item l).mpr (List.cons.inj h).1] at hleaf
                cases hleaf
      | some leaf =>
          rw [map_eq_ok]
          rw [(hvalue item leaf).mp hleaf]
          constructor
          · intro h
            obtain ⟨rest, hrest, heq⟩ := h
            rw [← heq, List.map_cons, ih.mp hrest]
          · intro h
            cases leaves with
            | nil => cases h
            | cons l ls =>
                obtain ⟨hhead, htail⟩ := List.cons.inj h
                refine ⟨ls, ih.mpr htail, ?_⟩
                rw [Subtype.ext (CborValue.bytes.inj hhead)]

theorem leavesField_eq_ok_iff {pairs : List (CborValue × CborValue)} {leaves : List Digest} :
    leavesField pairs = .ok leaves ↔
      leaves ≠ [] ∧ mapGet pairs "leaves" = some (.array (leaves.map fun l => .bytes l.val)) := by
  rw [leavesField]
  split
  · next item items hget =>
    rw [decodeLeaves_eq_ok_iff, hget, Option.some.injEq, CborValue.array.injEq]
    constructor
    · intro h
      refine ⟨?_, h⟩
      intro hnil
      rw [hnil] at h
      cases h
    · intro h
      exact h.2
  · next hno =>
    constructor
    · intro h
      cases h
    · intro h
      obtain ⟨hne, hget⟩ := h
      cases leaves with
      | nil => exact absurd rfl hne
      | cons l ls => exact absurd hget (hno _ _)

section Decode
variable {sha256 : List UInt8 → Digest} {debug : String → String}

/-- Only the root can be wrong in what was encoded. -/
theorem decodeLeavesList_encode {leaves : List Digest} {leafAlg : Option String}
    (hfit : LeavesFit leaves leafAlg) (root : Digest) :
    ∃ b, encodeLeavesList leaves root leafAlg = .ok b ∧
      decodeLeavesList sha256 debug b = (checkDeclaredRoot sha256 leaves root).map fun _ =>
        { format := leavesListFormatV1
          treeAlg := merkleAlgId
          root := root
          leaves := leaves
          leafCount := leaves.length
          leafAlg := leafAlg } := by
  obtain ⟨b, pairs, hencode, hdecode, hfields⟩ := exists_decoded_leavesList hfit root
  refine ⟨b, hencode, ?_⟩
  simp only [leavesListNamed, List.forall_mem_cons, Option.map_some, Option.map_map, sortMaps,
    sortMapsItems_eq, List.map_map] at hfields
  obtain ⟨hformat, htree, hroot, hleaves, hcount, halg, -⟩ := hfields
  have hsorted : (sortMaps ∘ fun l : Digest => CborValue.bytes l.val) =
      fun l => CborValue.bytes l.val := by
    funext l
    rfl
  rw [hsorted] at hleaves
  have hlength : (UInt64.ofNat leaves.length).toNat = leaves.length := by
    rw [UInt64.toNat_ofNat', Nat.mod_eq_of_lt hfit.length]
  have hleavesField : leavesField pairs = .ok leaves :=
    leavesField_eq_ok_iff.mpr ⟨hfit.nonempty, hleaves⟩
  have hrootField : leavesRoot pairs = .ok root := by
    rw [leavesRoot, hroot, Option.bind_some, digestValue, toFixed_val]
  have hcountField : leafCountField pairs leaves = .ok () := by
    rw [leafCountField, hcount]
    exact if_neg (not_not_intro hlength)
  have halgField : leafAlgField pairs = .ok leafAlg := by
    rw [leafAlgField, halg]
    cases leafAlg <;> rfl
  rw [decodeLeavesList, hdecode]
  simp only [leavesFormat, leavesTreeAlg, leavesTextField, hformat, htree, ok_bind, if_true,
    hrootField, hleavesField, hcountField, halgField]
  cases checkDeclaredRoot sha256 leaves root <;> rfl

/-- What decodes has the Merkle root of its leaves, and as many of them as it says. -/
theorem merkleRoot_of_decodeLeavesList {bytes : List UInt8} {decoded : DecodedLeavesList}
    (h : decodeLeavesList sha256 debug bytes = .ok decoded) :
    decoded.leafCount = decoded.leaves.length ∧
      merkleRoot sha256 decoded.leaves = .ok decoded.root := by
  obtain ⟨hroot, hcount⟩ := decodeLeavesList_sound sha256 debug h
  have hne : decoded.leaves ≠ [] := by
    rw [decodeLeavesList] at h
    split at h
    · cases h
    · obtain ⟨format, -, h⟩ := bind_eq_ok.mp h
      obtain ⟨treeAlg, -, h⟩ := bind_eq_ok.mp h
      obtain ⟨root, -, h⟩ := bind_eq_ok.mp h
      obtain ⟨leaves, hleaves, h⟩ := bind_eq_ok.mp h
      obtain ⟨-, -, h⟩ := bind_eq_ok.mp h
      obtain ⟨leafAlg, -, h⟩ := bind_eq_ok.mp h
      obtain ⟨_, -, h⟩ := bind_eq_ok.mp h
      cases h
      exact (leavesField_eq_ok_iff.mp hleaves).1
    · cases h
  refine ⟨hcount, ?_⟩
  rw [merkleRoot, if_neg (by simpa using hne), hroot]

end Decode

/-! ## The document behind a commitment -/

section Commitment
variable (crypto : VerifierPrimitives)

/-- Decoding with the primitives of the verifier. -/
abbrev decodeDocument (bytes : List UInt8) : Except MerkleLeavesListError DecodedLeavesList :=
  decodeLeavesList crypto.sealing.sha256 crypto.text.debug bytes

/-- The check succeeds on a document with the root and the leaf count of the commitment. -/
theorem validateLeavesDocument_eq_ok_iff (bytes : List UInt8) (commit : MerkleCommit) :
    validateLeavesDocument crypto bytes commit = .ok () ↔
      ∃ decoded, decodeDocument crypto bytes = .ok decoded ∧ decoded.root.val = commit.root ∧
        decoded.leafCount = commit.leafCount.toNat := by
  rw [validateLeavesDocument, decodeDocument]
  cases decodeLeavesList crypto.sealing.sha256 crypto.text.debug bytes with
  | error e => simp
  | ok decoded =>
      dsimp only
      by_cases hroot : decoded.root.val = commit.root
      · by_cases hcount : decoded.leafCount = commit.leafCount.toNat
        · simp [hroot, hcount]
        · simp [hroot, hcount]
      · simp [hroot]

/-- **Leaves lists round trip and certify themselves.** A list encoded with its Merkle root is
decoded unchanged and with any other root it is refused. What decodes has as many leaves as it
says and their root, and the check against a commitment compares just these two. -/
theorem leavesList_certifies :
    (∀ (leaves : List Digest) (leafAlg : Option String), LeavesFit leaves leafAlg →
      ∃ root, merkleRoot crypto.sealing.sha256 leaves = .ok root ∧
        (∃ b, encodeLeavesList leaves root leafAlg = .ok b ∧
          decodeDocument crypto b = .ok
            { format := leavesListFormatV1
              treeAlg := merkleAlgId
              root := root
              leaves := leaves
              leafCount := leaves.length
              leafAlg := leafAlg }) ∧
        ∀ other, other ≠ root →
          ∃ b, encodeLeavesList leaves other leafAlg = .ok b ∧
            decodeDocument crypto b =
              .error ⟨.rootMismatch, "leaves recompute does not match declared root"⟩) ∧
    (∀ bytes decoded, decodeDocument crypto bytes = .ok decoded →
      decoded.leafCount = decoded.leaves.length ∧
        merkleRoot crypto.sealing.sha256 decoded.leaves = .ok decoded.root) ∧
    ∀ bytes commit, validateLeavesDocument crypto bytes commit = .ok () ↔
      ∃ decoded, decodeDocument crypto bytes = .ok decoded ∧ decoded.root.val = commit.root ∧
        decoded.leafCount = commit.leafCount.toNat := by
  refine ⟨?_, ?_, validateLeavesDocument_eq_ok_iff crypto⟩
  · intro leaves leafAlg hfit
    have hnonempty : leaves.isEmpty = false := by simpa using hfit.nonempty
    refine ⟨rootUnchecked crypto.sealing.sha256 leaves, ?_, ?_, ?_⟩
    · rw [merkleRoot, hnonempty]
      rfl
    · obtain ⟨b, hencode, hdecode⟩ := @decodeLeavesList_encode crypto.sealing.sha256
        crypto.text.debug _ _ hfit (rootUnchecked crypto.sealing.sha256 leaves)
      refine ⟨b, hencode, ?_⟩
      rw [decodeDocument, hdecode, checkDeclaredRoot, if_pos rfl]
      rfl
    · intro other hother
      obtain ⟨b, hencode, hdecode⟩ := @decodeLeavesList_encode crypto.sealing.sha256
        crypto.text.debug _ _ hfit other
      refine ⟨b, hencode, ?_⟩
      rw [decodeDocument, hdecode, checkDeclaredRoot, if_neg (Ne.symm hother)]
      rfl
  · intro bytes decoded h
    exact merkleRoot_of_decodeLeavesList h

end Commitment

/-! ## Three leaves -/

def threeLeavesCrypto : VerifierPrimitives :=
  { keyringCrypto with sealing := { roundTripCrypto with sha256 := sampleSha256 } }

theorem sampleLeaves_fit (leafAlg : Option String) (h : leafAlg ∈ [none, some "sha2-256"]) :
    LeavesFit sampleLeaves leafAlg where
  nonempty := List.cons_ne_nil _ _
  length := by decide
  leafAlg := by
    intro alg halg
    rcases List.mem_pair.mp h with rfl | rfl
    · cases halg
    · cases halg
      decide

/-- The list of the three leaves decodes to itself, and under no other root. -/
theorem leavesList_certifies_three :
    (∃ b, encodeLeavesList sampleLeaves sampleRoot (some "sha2-256") = .ok b ∧
      decodeDocument threeLeavesCrypto b = .ok
        ⟨leavesListFormatV1, merkleAlgId, sampleRoot, sampleLeaves, 3, some "sha2-256"⟩) ∧
    ∃ b, encodeLeavesList sampleLeaves sampleHash01 (some "sha2-256") = .ok b ∧
      decodeDocument threeLeavesCrypto b =
        .error ⟨.rootMismatch, "leaves recompute does not match declared root"⟩ := by
  obtain ⟨root, hroot, hread, hrefused⟩ := (leavesList_certifies threeLeavesCrypto).1 sampleLeaves
    (some "sha2-256") (sampleLeaves_fit _ (by simp))
  have hsample : merkleRoot threeLeavesCrypto.sealing.sha256 sampleLeaves = .ok sampleRoot :=
    (merkleRoot_eq_ok _ (List.cons_ne_nil _ _)).trans (congrArg Except.ok sample_root)
  have hsame : root = sampleRoot := Except.ok.inj (hroot.symm.trans hsample)
  subst hsame
  exact ⟨hread, hrefused sampleHash01 (by decide)⟩

end Label309
