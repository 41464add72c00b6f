import Label309.Cbor.EncodedLength
import Label309.Certificate.BuildVerify
import Label309.SealedPoe.TranscriptInjectivity

/-!
# Inclusion proofs as CBOR

An item of a certificate is encoded as the bare proof, a byte string around an array, or as a map
that carries the same array with the root and the anchor. The encoders look at the stored flag and
at the shape of the item, and recompute nothing.
-/
namespace Label309
open ExceptBind

def vdsRfc9162Sha256 : UInt64 := 1

inductive CoseInclusionProofError
  | itemError (error : String)
  | unverified
  | indexOutOfRange (index : ℤ) (treeSize : ℕ)
  | treeSizeOutOfRange (treeSize : ℕ)
  | badDigestLength (field : String) (got : ℕ)
  | malformedHex (field detail : String)
  deriving DecidableEq

/-- The path of an item as raw bytes. -/
structure ProvenPath where
  siblings : List (List UInt8)
  treeSize : ℕ
  index : ℕ

/-! ## The encoders -/

def decode32 (hex field : String) : Except CoseInclusionProofError (List UInt8) :=
  match hexDecode hex with
  | .error err => .error (.malformedHex field err.display)
  | .ok bytes => if bytes.length ≠ 32 then .error (.badDigestLength field bytes.length) else .ok bytes

/-- The siblings, the first of them at `i`. -/
def decodeSiblings : (i : ℕ) → List String → Except CoseInclusionProofError (List (List UInt8))
  | _, [] => .ok []
  | i, siblingHex :: rest => do
      let sibling ← decode32 siblingHex s!"proof[{i}]"
      let siblings ← decodeSiblings (i + 1) rest
      .ok (sibling :: siblings)

/-- The leaf is read too, although only the path is returned. -/
def decodeProvenPath (item : InclusionCertificateItem) (merkle : CertificateMerkle) :
    Except CoseInclusionProofError ProvenPath :=
  match item.error with
  | some error => .error (.itemError error)
  | none =>
      if item.verified = false then .error .unverified
      else if merkle.treeSize < 1 ∨ maxTreeSize < merkle.treeSize then
        .error (.treeSizeOutOfRange merkle.treeSize)
      else if item.index < 0 ∨ merkle.treeSize ≤ item.index.toNat then
        .error (.indexOutOfRange item.index merkle.treeSize)
      else do
        let _ ← decode32 item.leaf "leaf"
        let siblings ← decodeSiblings 0 item.proof
        .ok { siblings, treeSize := merkle.treeSize, index := item.index.toNat }

/-- `[tree_size, leaf_index, [siblings]]`. -/
def inclusionPath (proven : ProvenPath) : CborValue :=
  .array [.unsigned (UInt64.ofNat proven.treeSize), .unsigned (UInt64.ofNat proven.index),
    .array (proven.siblings.map .bytes)]

def encodeInclusionPathArray (item : InclusionCertificateItem) (merkle : CertificateMerkle) :
    Except CoseInclusionProofError (List UInt8) :=
  (decodeProvenPath item merkle).map fun proven => encodeDistinct (inclusionPath proven)

def encodeIetfInclusionProof (item : InclusionCertificateItem) (merkle : CertificateMerkle) :
    Except CoseInclusionProofError (List UInt8) :=
  (encodeInclusionPathArray item merkle).map fun array => encodeDistinct (.bytes array)

def anchorMap (anchor : CertificateAnchor) (txHash : List UInt8) : CborValue :=
  .map [(.text "chain", .text anchor.chain), (.text "network", .text anchor.network),
    (.text "tx_hash", .bytes txHash),
    (.text "metadata_label", .unsigned (UInt64.ofNat metadataLabel309))]

/-- `cw-inclusion-proof`. -/
def cwInclusionProof (array root leaf txHash : List UInt8) (anchor : CertificateAnchor)
    (leafAlg : Option String) : CborValue :=
  .map ([(.text "vds", .unsigned vdsRfc9162Sha256), (.text "inclusion_proof", .bytes array),
      (.text "root", .bytes root), (.text "anchor", anchorMap anchor txHash),
      (.text "leaf", .bytes leaf)] ++
    (leafAlg.map fun alg => (.text "leaf_alg", .text alg)).toList)

def encodeCoseInclusionProof (item : InclusionCertificateItem) (merkle : CertificateMerkle)
    (anchor : CertificateAnchor) : Except CoseInclusionProofError (List UInt8) := do
  let array ← encodeInclusionPathArray item merkle
  let leaf ← decode32 item.leaf "leaf"
  let txHash ← (hexDecode anchor.txHash).mapError fun err =>
    CoseInclusionProofError.malformedHex "anchor.tx_hash" err.display
  .ok (encodeDistinct (cwInclusionProof array merkle.root.val leaf txHash anchor item.leafAlg))

/-! ## What is encoded -/

/-- What the encoders look at: the stored flag, the ranges, and the texts as digests. -/
structure Encodable (item : InclusionCertificateItem) (merkle : CertificateMerkle) (leaf : Digest)
    (siblings : List Digest) : Prop where
  error : item.error = none
  verified : item.verified = true
  treeSize : 1 ≤ merkle.treeSize ∧ merkle.treeSize ≤ maxTreeSize
  index : 0 ≤ item.index ∧ item.index.toNat < merkle.treeSize
  leaf : hexDecode item.leaf = .ok leaf.val
  proof : decodeProof 0 item.proof = .ok siblings

theorem decode32_eq_ok {hex field : String} {bytes : List UInt8} :
    decode32 hex field = .ok bytes ↔ ∃ d : Digest, hexDecode hex = .ok d.val ∧ bytes = d.val := by
  rw [decode32]
  cases hexDecode hex with
  | error err => simp
  | ok b =>
      dsimp only
      by_cases hlen : b.length = 32
      · rw [if_neg (not_not.mpr hlen)]
        constructor
        · intro h
          cases h
          exact ⟨⟨_, hlen⟩, rfl, rfl⟩
        · intro h
          obtain ⟨d, hd, rfl⟩ := h
          rw [Except.ok.inj hd]
      · rw [if_pos hlen]
        constructor
        · intro h
          cases h
        · intro h
          obtain ⟨d, hd, -⟩ := h
          cases hd
          exact absurd d.property hlen

theorem decodeProof_cons_eq_ok {j : ℕ} {hex : String} {hexes : List String}
    {siblings : List Digest} :
    decodeProof j (hex :: hexes) = .ok siblings ↔
      ∃ d rest, hexDecode hex = .ok d.val ∧ decodeProof (j + 1) hexes = .ok rest ∧
        siblings = d :: rest := by
  rw [decodeProof]
  cases hexDecode hex with
  | error err => simp
  | ok b =>
      dsimp only
      cases hb : toFixed 32 b with
      | none =>
          have hnone : ∀ d : Digest, b ≠ d.val := by
            rintro d rfl
            simp at hb
          simp [hnone]
      | some sibling =>
          rw [toFixed_eq_some.mp hb, map_eq_ok]
          constructor
          · intro h
            obtain ⟨rest, hrest, rfl⟩ := h
            exact ⟨sibling, rest, rfl, hrest, rfl⟩
          · intro h
            obtain ⟨d, rest, hd, hrest, rfl⟩ := h
            rw [Subtype.ext (Except.ok.inj hd)]
            exact ⟨rest, hrest, rfl⟩

/-- The encoders read the siblings that the verifier reads. -/
theorem decodeSiblings_eq_ok {i j : ℕ} {hexes : List String} {bytes : List (List UInt8)} :
    decodeSiblings i hexes = .ok bytes ↔
      ∃ siblings, decodeProof j hexes = .ok siblings ∧ bytes = siblings.map Subtype.val := by
  induction hexes generalizing i j bytes with
  | nil =>
      rw [decodeSiblings, decodeProof]
      simp [eq_comm]
  | cons hex hexes ih =>
      rw [decodeSiblings]
      simp only [bind_eq_ok, decode32_eq_ok, ih (j := j + 1), decodeProof_cons_eq_ok,
        Except.ok.injEq]
      constructor
      · intro h
        obtain ⟨_, ⟨d, hd, rfl⟩, _, ⟨rest, hrest, rfl⟩, rfl⟩ := h
        exact ⟨d :: rest, ⟨d, rest, hd, hrest, rfl⟩, rfl⟩
      · intro h
        obtain ⟨_, ⟨d, rest, hd, hrest, rfl⟩, rfl⟩ := h
        exact ⟨_, ⟨d, hd, rfl⟩, _, ⟨rest, hrest, rfl⟩, rfl⟩

section Encode
variable {item : InclusionCertificateItem} {merkle : CertificateMerkle}

theorem decodeProvenPath_eq_ok {proven : ProvenPath} :
    decodeProvenPath item merkle = .ok proven ↔
      ∃ leaf siblings, Encodable item merkle leaf siblings ∧
        proven = ⟨siblings.map Subtype.val, merkle.treeSize, item.index.toNat⟩ := by
  rw [decodeProvenPath]
  cases herror : item.error with
  | some error =>
      refine iff_of_false (by simp) ?_
      intro ⟨_, _, hitem, _⟩
      rw [hitem.error] at herror
      cases herror
  | none =>
      dsimp only
      by_cases hflag : item.verified = false
      · rw [if_pos hflag]
        refine iff_of_false (by simp) ?_
        intro ⟨_, _, hitem, _⟩
        rw [hitem.verified] at hflag
        cases hflag
      by_cases hsize : merkle.treeSize < 1 ∨ maxTreeSize < merkle.treeSize
      · rw [if_neg hflag, if_pos hsize]
        refine iff_of_false (by simp) ?_
        intro ⟨_, _, hitem, _⟩
        have hrange := hitem.treeSize
        omega
      by_cases hindex : item.index < 0 ∨ merkle.treeSize ≤ item.index.toNat
      · rw [if_neg hflag, if_neg hsize, if_pos hindex]
        refine iff_of_false (by simp) ?_
        intro ⟨_, _, hitem, _⟩
        have hrange := hitem.index
        omega
      rw [if_neg hflag, if_neg hsize, if_neg hindex]
      simp only [bind_eq_ok, decode32_eq_ok, decodeSiblings_eq_ok (j := 0), Except.ok.injEq]
      constructor
      · intro h
        obtain ⟨_, ⟨leaf, hleaf, rfl⟩, _, ⟨siblings, hproof, rfl⟩, rfl⟩ := h
        exact ⟨leaf, siblings, ⟨herror, by simpa using hflag, by omega, by omega, hleaf, hproof⟩,
          rfl⟩
      · intro h
        obtain ⟨leaf, siblings, hitem, rfl⟩ := h
        exact ⟨_, ⟨leaf, hitem.leaf, rfl⟩, _, ⟨siblings, hitem.proof, rfl⟩, rfl⟩

/-- The array that is encoded for siblings. -/
def pathOf (item : InclusionCertificateItem) (merkle : CertificateMerkle)
    (siblings : List Digest) : CborValue :=
  inclusionPath ⟨siblings.map Subtype.val, merkle.treeSize, item.index.toNat⟩

theorem encodeInclusionPathArray_eq_ok {array : List UInt8} :
    encodeInclusionPathArray item merkle = .ok array ↔
      ∃ leaf siblings, Encodable item merkle leaf siblings ∧
        array = encodeDistinct (pathOf item merkle siblings) := by
  rw [encodeInclusionPathArray]
  simp only [map_eq_ok, decodeProvenPath_eq_ok]
  constructor
  · intro h
    obtain ⟨_, ⟨leaf, siblings, hitem, rfl⟩, rfl⟩ := h
    exact ⟨leaf, siblings, hitem, rfl⟩
  · intro h
    obtain ⟨leaf, siblings, hitem, rfl⟩ := h
    exact ⟨_, ⟨leaf, siblings, hitem, rfl⟩, rfl⟩

theorem encodeIetfInclusionProof_eq_ok {bytes : List UInt8} :
    encodeIetfInclusionProof item merkle = .ok bytes ↔
      ∃ leaf siblings, Encodable item merkle leaf siblings ∧
        bytes = encodeDistinct (.bytes (encodeDistinct (pathOf item merkle siblings))) := by
  rw [encodeIetfInclusionProof]
  simp only [map_eq_ok, encodeInclusionPathArray_eq_ok]
  constructor
  · intro h
    obtain ⟨_, ⟨leaf, siblings, hitem, rfl⟩, rfl⟩ := h
    exact ⟨leaf, siblings, hitem, rfl⟩
  · intro h
    obtain ⟨leaf, siblings, hitem, rfl⟩ := h
    exact ⟨_, ⟨leaf, siblings, hitem, rfl⟩, rfl⟩

theorem encodeCoseInclusionProof_eq_ok {anchor : CertificateAnchor} {bytes : List UInt8} :
    encodeCoseInclusionProof item merkle anchor = .ok bytes ↔
      ∃ leaf siblings txHash, Encodable item merkle leaf siblings ∧
        hexDecode anchor.txHash = .ok txHash ∧
        bytes = encodeDistinct (cwInclusionProof (encodeDistinct (pathOf item merkle siblings))
          merkle.root.val leaf.val txHash anchor item.leafAlg) := by
  rw [encodeCoseInclusionProof]
  simp only [bind_eq_ok, encodeInclusionPathArray_eq_ok, decode32_eq_ok, Except.ok.injEq]
  constructor
  · intro h
    obtain ⟨_, ⟨leaf, siblings, hitem, rfl⟩, _, ⟨leaf', hleaf', rfl⟩, txHash, htx, rfl⟩ := h
    have hsame : leaf'.val = leaf.val := by
      have hleaf := hitem.leaf
      rw [hleaf'] at hleaf
      exact Except.ok.inj hleaf
    cases hdecode : hexDecode anchor.txHash with
    | error err =>
        rw [hdecode] at htx
        cases htx
    | ok decoded =>
        rw [hdecode] at htx
        cases htx
        exact ⟨leaf, siblings, _, hitem, rfl, by rw [hsame]⟩
  · intro h
    obtain ⟨leaf, siblings, txHash, hitem, htx, rfl⟩ := h
    exact ⟨_, ⟨leaf, siblings, hitem, rfl⟩, _, ⟨leaf, hitem.leaf, rfl⟩, txHash, by rw [htx]; rfl,
      rfl⟩

end Encode

/-! ## Decoding -/

theorem decode_encodeDistinct {v : CborValue} (hv : ∃ b, writeValue v = .ok b)
    (hfit : LengthsFit v) : decodeCanonicalCbor (encodeDistinct v) = .ok (sortMaps v) :=
  decode_of_encode hfit (encodeDistinct_eq hv)

/-- The lengths of a machine of 64 bits: a text has less than `2 ^ 64` bytes, and of the texts of
64 digits that the siblings are there are less than `2 ^ 58`. -/
structure InMemory (item : InclusionCertificateItem) (anchor : CertificateAnchor) : Prop where
  proof : item.proof.length < 2 ^ 58
  leafAlg : ∀ alg ∈ item.leafAlg, (utf8Bytes alg).length < 2 ^ 64
  chain : (utf8Bytes anchor.chain).length < 2 ^ 64
  network : (utf8Bytes anchor.network).length < 2 ^ 64
  txHash : ∀ txHash, hexDecode anchor.txHash = .ok txHash → txHash.length < 2 ^ 64

theorem length_decodeProof {j : ℕ} {hexes : List String} {siblings : List Digest}
    (h : decodeProof j hexes = .ok siblings) : siblings.length = hexes.length := by
  induction hexes generalizing j siblings with
  | nil =>
      cases h
      rfl
  | cons hex hexes ih =>
      obtain ⟨d, rest, -, hrest, rfl⟩ := decodeProof_cons_eq_ok.mp h
      rw [List.length_cons, ih hrest, List.length_cons]

theorem headLength_le (n : UInt64) : headLength n ≤ 9 := by
  unfold headLength
  split_ifs <;> omega

section Path
variable (item : InclusionCertificateItem) (merkle : CertificateMerkle) (siblings : List Digest)

theorem pathOf_eq : pathOf item merkle siblings =
    .array [.unsigned (UInt64.ofNat merkle.treeSize), .unsigned (UInt64.ofNat item.index.toNat),
      .array (siblings.map fun d => .bytes d.val)] := by
  rw [pathOf, inclusionPath, List.map_map]
  rfl

theorem exists_writeValue_pathOf : ∃ b, writeValue (pathOf item merkle siblings) = .ok b := by
  rw [pathOf_eq, exists_writeValue_array_iff]
  simp only [List.forall_mem_cons, exists_writeValue_unsigned, exists_writeValue_array_iff,
    List.forall_mem_map, exists_writeValue_bytes, implies_true, true_and, List.not_mem_nil,
    false_implies]

/-- There is no map in the array. -/
theorem sortMaps_pathOf : sortMaps (pathOf item merkle siblings) = pathOf item merkle siblings := by
  rw [pathOf_eq]
  simp [sortMaps_array, Function.comp_def]

variable {siblings} (hlen : siblings.length < 2 ^ 58)
include hlen

theorem lengthsFit_pathOf : LengthsFit (pathOf item merkle siblings) := by
  rw [pathOf_eq]
  refine .array (by simp) ?_
  simp only [List.forall_mem_cons]
  refine ⟨.unsigned _, .unsigned _, .array (by rw [List.length_map]; omega) ?_, by simp⟩
  rw [List.forall_mem_map]
  intro d _
  exact .bytes (by rw [d.property]; decide)

/-- The array has at most as many bytes as are in memory. -/
theorem length_encodeDistinct_pathOf :
    (encodeDistinct (pathOf item merkle siblings)).length < 2 ^ 64 := by
  have hsibling (d : Digest) : encodedLength (.bytes d.val) = 34 := by
    rw [encodedLength, d.property]
    decide
  have hsum : (siblings.map fun d : Digest => encodedLength (.bytes d.val)).sum =
      34 * siblings.length := by
    simp only [hsibling, List.map_const', List.sum_replicate, smul_eq_mul, Nat.mul_comm]
  have hwrite := encodeDistinct_eq (exists_writeValue_pathOf item merkle siblings)
  rw [length_writeValue _ hwrite, pathOf_eq]
  simp only [encodedLength, encodedLengthItems_eq, List.map_cons, List.map_nil, List.map_map,
    List.sum_cons, List.sum_nil, Function.comp_def]
  simp only [encodedLength] at hsum
  rw [hsum]
  have harray := headLength_le (Nat.toUInt64 [CborValue.unsigned (UInt64.ofNat merkle.treeSize),
    CborValue.unsigned (UInt64.ofNat item.index.toNat),
    CborValue.array (siblings.map fun d => .bytes d.val)].length)
  have hsize := headLength_le (UInt64.ofNat merkle.treeSize)
  have hindex := headLength_le (UInt64.ofNat item.index.toNat)
  have hcount := headLength_le (siblings.map fun d : Digest => CborValue.bytes d.val).length.toUInt64
  omega

end Path

/-! ## The map -/

/-- The map as it is decoded. -/
def decodedCwInclusionProof (array root leaf txHash : List UInt8) (anchor : CertificateAnchor)
    (leafAlg : Option String) : CborValue :=
  .map (([(.text "vds", .unsigned 1), (.text "leaf", .bytes leaf), (.text "root", .bytes root),
      (.text "anchor", .map [(.text "chain", .text anchor.chain),
        (.text "network", .text anchor.network), (.text "tx_hash", .bytes txHash),
        (.text "metadata_label", .unsigned 309)])] : List (CborValue × CborValue)) ++
    (leafAlg.map fun alg => (.text "leaf_alg", .text alg)).toList ++
    [(.text "inclusion_proof", .bytes array)])

section Map
variable {array root leaf txHash : List UInt8} {anchor : CertificateAnchor}
  {leafAlg : Option String}

theorem sortMaps_cwInclusionProof :
    sortMaps (cwInclusionProof array root leaf txHash anchor leafAlg) =
      decodedCwInclusionProof array root leaf txHash anchor leafAlg := by
  cases leafAlg <;> rfl

theorem exists_writeValue_cwInclusionProof :
    ∃ b, writeValue (cwInclusionProof array root leaf txHash anchor leafAlg) = .ok b := by
  have hanchor : ∃ b, writeValue (anchorMap anchor txHash) = .ok b := by
    apply exists_writeValue_map_iff.mpr
    refine ⟨?_, by simp⟩
    show [encodedKey (.text "chain"), encodedKey (.text "network"), encodedKey (.text "tx_hash"),
      encodedKey (.text "metadata_label")].Nodup
    decide
  apply exists_writeValue_map_iff.mpr
  cases leafAlg with
  | none =>
      refine ⟨?_, by simp [hanchor]⟩
      show [encodedKey (.text "vds"), encodedKey (.text "inclusion_proof"),
        encodedKey (.text "root"), encodedKey (.text "anchor"), encodedKey (.text "leaf")].Nodup
      decide
  | some alg =>
      refine ⟨?_, by simp [hanchor]⟩
      show [encodedKey (.text "vds"), encodedKey (.text "inclusion_proof"),
        encodedKey (.text "root"), encodedKey (.text "anchor"), encodedKey (.text "leaf"),
        encodedKey (.text "leaf_alg")].Nodup
      decide

theorem lengthsFit_cwInclusionProof (harray : array.length < 2 ^ 64) (hroot : root.length < 2 ^ 64)
    (hleaf : leaf.length < 2 ^ 64) (htx : txHash.length < 2 ^ 64)
    (hchain : (utf8Bytes anchor.chain).length < 2 ^ 64)
    (hnetwork : (utf8Bytes anchor.network).length < 2 ^ 64)
    (halg : ∀ alg ∈ leafAlg, (utf8Bytes alg).length < 2 ^ 64) :
    LengthsFit (cwInclusionProof array root leaf txHash anchor leafAlg) := by
  have hkey (s : String) (h : (utf8Bytes s).length < 2 ^ 64) : LengthsFit (.text s) := .text h
  have hanchor : LengthsFit (anchorMap anchor txHash) := by
    refine .map (by simp) ?_ ?_
    · simp only [List.forall_mem_cons]
      exact ⟨hkey _ (by decide), hkey _ (by decide), hkey _ (by decide),
        hkey _ (by decide), by simp⟩
    · simp only [List.forall_mem_cons]
      exact ⟨.text hchain, .text hnetwork, .bytes htx, .unsigned _, by simp⟩
  have hlast : ∀ p ∈ (leafAlg.map fun alg => (CborValue.text "leaf_alg", CborValue.text alg)).toList,
      LengthsFit p.1 ∧ LengthsFit p.2 := by
    intro p hp
    rw [Option.mem_toList, Option.map_eq_some_iff] at hp
    obtain ⟨alg, hmem, rfl⟩ := hp
    exact ⟨hkey _ (by decide), .text (halg alg hmem)⟩
  refine .map ?_ ?_ ?_
  · cases leafAlg <;> simp
  · simp only [List.forall_mem_append, List.forall_mem_cons]
    exact ⟨⟨hkey _ (by decide), hkey _ (by decide), hkey _ (by decide),
      hkey _ (by decide), hkey _ (by decide), by simp⟩, fun p hp => (hlast p hp).1⟩
  · simp only [List.forall_mem_append, List.forall_mem_cons]
    exact ⟨⟨.unsigned _, .bytes harray, .bytes hroot, hanchor, .bytes hleaf, by simp⟩,
      fun p hp => (hlast p hp).2⟩

end Map

/-! ## Decoding gives the path back -/

section Back
variable {item : InclusionCertificateItem} {merkle : CertificateMerkle} {anchor : CertificateAnchor}

/-- Bytes that are decoded to the path of siblings, first as a byte string. -/
def PathBack (item : InclusionCertificateItem) (merkle : CertificateMerkle)
    (siblings : List Digest) (bytes array : List UInt8) : Prop :=
  decodeCanonicalCbor bytes = .ok (.bytes array) ∧
    decodeCanonicalCbor array =
      .ok (.array [.unsigned (UInt64.ofNat merkle.treeSize),
        .unsigned (UInt64.ofNat item.index.toNat), .array (siblings.map fun d => .bytes d.val)])

theorem pathBack_encodeDistinct {siblings : List Digest} (hlen : siblings.length < 2 ^ 58) :
    PathBack item merkle siblings
      (encodeDistinct (.bytes (encodeDistinct (pathOf item merkle siblings))))
      (encodeDistinct (pathOf item merkle siblings)) := by
  constructor
  · exact decode_encodeDistinct (exists_writeValue_bytes _)
      (.bytes (length_encodeDistinct_pathOf item merkle hlen))
  · rw [decode_encodeDistinct (exists_writeValue_pathOf item merkle siblings)
      (lengthsFit_pathOf item merkle hlen), sortMaps_pathOf, pathOf_eq]

/-- **The bare proof.** -/
theorem ietf_back (hmem : InMemory item anchor) {bytes : List UInt8}
    (h : encodeIetfInclusionProof item merkle = .ok bytes) :
    ∃ leaf siblings array, Encodable item merkle leaf siblings ∧
      PathBack item merkle siblings bytes array := by
  obtain ⟨leaf, siblings, hitem, rfl⟩ := encodeIetfInclusionProof_eq_ok.mp h
  have hlen := hmem.proof
  rw [← length_decodeProof hitem.proof] at hlen
  exact ⟨leaf, siblings, _, hitem, pathBack_encodeDistinct hlen⟩

/-- **The map**, and the bare proof of the same item. -/
theorem cose_back (hmem : InMemory item anchor) {bytes : List UInt8}
    (h : encodeCoseInclusionProof item merkle anchor = .ok bytes) :
    ∃ leaf siblings txHash array ietf, Encodable item merkle leaf siblings ∧
      hexDecode anchor.txHash = .ok txHash ∧
      decodeCanonicalCbor bytes = .ok (decodedCwInclusionProof array merkle.root.val leaf.val
        txHash anchor item.leafAlg) ∧
      encodeIetfInclusionProof item merkle = .ok ietf ∧
      PathBack item merkle siblings ietf array := by
  obtain ⟨leaf, siblings, txHash, hitem, htx, rfl⟩ := encodeCoseInclusionProof_eq_ok.mp h
  have hlen := hmem.proof
  rw [← length_decodeProof hitem.proof] at hlen
  have hdigest (d : Digest) : d.val.length < 2 ^ 64 := by
    rw [d.property]
    decide
  have hfit : LengthsFit (cwInclusionProof _ _ _ _ _ item.leafAlg) := lengthsFit_cwInclusionProof
    (length_encodeDistinct_pathOf item merkle hlen) (hdigest merkle.root) (hdigest leaf)
    (hmem.txHash txHash htx) hmem.chain hmem.network hmem.leafAlg
  refine ⟨leaf, siblings, txHash, _, _, hitem, htx, ?_,
    encodeIetfInclusionProof_eq_ok.mpr ⟨leaf, siblings, hitem, rfl⟩, pathBack_encodeDistinct hlen⟩
  rw [decode_encodeDistinct exists_writeValue_cwInclusionProof hfit, sortMaps_cwInclusionProof]

end Back

/-! ## The items that are built -/

section Built
variable (sha256 : List UInt8 → Digest) {item : InclusionCertificateItem}
  {merkle : CertificateMerkle}

/-- The verifier's verdict on an item that is encoded is about what is encoded. -/
theorem verifyItem_of_encodable {leaf : Digest} {siblings : List Digest}
    (h : Encodable item merkle leaf siblings) :
    (verifyItem sha256 item merkle.treeSize merkle.root.val).verified =
      verifyInclusion sha256 leaf.val item.index.toNat merkle.treeSize siblings
        merkle.root.val := by
  have hrange := h.index
  have hin : ¬ (item.index < 0 ∨ merkle.treeSize ≤ item.index.toNat) := by omega
  rw [verifyItem, h.error]
  dsimp only
  rw [if_neg hin, h.leaf, h.proof]

variable {leaves : List Digest} {target : CertificateTarget}

/-- An item that is built for a leaf of the tree can be encoded. -/
theorem encodable_of_build (hroot : merkleRoot sha256 leaves = .ok merkle.root)
    (hsize : merkle.treeSize = leaves.length)
    (hbuild : buildItem sha256 target leaves merkle.root = .ok item)
    (htarget : target.leaf ∈ leaves) : ∃ siblings, Encodable item merkle target.leaf siblings := by
  have hne : leaves ≠ [] := List.ne_nil_of_mem htarget
  have hmax : leaves.length ≤ maxTreeSize :=
    ((exists_buildItem_iff sha256 hne target merkle.root).mp ⟨item, hbuild⟩).resolve_right
      fun hmiss => hmiss htarget
  cases hfind : findLeafIndex leaves target.leaf with
  | none => exact absurd htarget (findLeafIndex_eq_none_iff.mp hfind)
  | some i =>
      have hfirst := findLeafIndex_eq_some_iff.mp hfind
      have hindex : i < leaves.length := (List.getElem?_eq_some_iff.mp hfirst.1).1
      have hroot' := hroot
      rw [merkleRoot_eq_ok sha256 hne, Except.ok.injEq] at hroot'
      rw [buildItem, hfind] at hbuild
      dsimp only at hbuild
      rw [merkleInclusionProof_eq_ok sha256 hmax hindex, Except.ok.injEq] at hbuild
      subst hbuild
      refine ⟨auditPath sha256 leaves i, rfl, ?_, ?_, ?_, hexDecode_hexEncode _,
        decodeProof_encoded _ _⟩
      · rw [← hroot']
        exact verifyInclusion_auditPath sha256 hmax hfirst.1
      · omega
      · refine ⟨Int.natCast_nonneg i, ?_⟩
        rw [Int.toNat_natCast]
        omega

/-- Whatever is encoded of an item that is built is proven. -/
theorem verifyInclusion_of_build (hroot : merkleRoot sha256 leaves = .ok merkle.root)
    (hsize : merkle.treeSize = leaves.length)
    (hbuild : buildItem sha256 target leaves merkle.root = .ok item) {leaf : Digest}
    {siblings : List Digest} (h : Encodable item merkle leaf siblings) :
    verifyInclusion sha256 leaf.val item.index.toNat merkle.treeSize siblings merkle.root.val =
      true := by
  have hmax : leaves.length ≤ maxTreeSize := by
    have hrange := h.treeSize
    omega
  have htarget : target.leaf ∈ leaves := by
    by_contra hmiss
    rw [buildItem, findLeafIndex_eq_none_iff.mpr hmiss] at hbuild
    cases hbuild
    have herror := h.error
    cases herror
  rw [← verifyItem_of_encodable sha256 h, hsize]
  exact (verifyItem_built sha256 hroot hmax hbuild).1.mpr htarget

end Built

/-- What holds of an item that is built for a target. -/
structure BuiltEncodes (sha256 : List UInt8 → Digest) (merkle : CertificateMerkle)
    (anchor : CertificateAnchor) (leaves : List Digest) (target : CertificateTarget)
    (item : InclusionCertificateItem) : Prop where
  ietf : target.leaf ∈ leaves → ∃ bytes, encodeIetfInclusionProof item merkle = .ok bytes
  cose : target.leaf ∈ leaves →
    ((∃ bytes, encodeCoseInclusionProof item merkle anchor = .ok bytes) ↔
      ∃ txHash, hexDecode anchor.txHash = .ok txHash)
  proven : ∀ leaf siblings, Encodable item merkle leaf siblings →
    verifyInclusion sha256 leaf.val item.index.toNat merkle.treeSize siblings merkle.root.val =
      true

theorem builtEncodes {sha256 : List UInt8 → Digest} {now : ℤ × ℕ}
    {builtFor anchor : CertificateAnchor} {merkle : CertificateMerkle} {leaves : List Digest}
    {targets : List CertificateTarget} {generatedAt : Option String}
    {cert : InclusionCertificateV1}
    (h : buildInclusionCertificate sha256 now builtFor merkle leaves targets generatedAt =
      .ok cert) :
    List.Forall₂ (BuiltEncodes sha256 merkle anchor leaves) targets cert.items := by
  obtain ⟨-, hsize, hroot, -⟩ := builderAccepts_of_eq_ok sha256 h
  obtain ⟨-, -, -, hitems⟩ := build_eq_ok sha256 h
  refine hitems.imp ?_
  intro target item hbuild
  refine ⟨?_, ?_, fun leaf siblings => verifyInclusion_of_build sha256 hroot hsize hbuild⟩
  · intro htarget
    obtain ⟨siblings, hitem⟩ := encodable_of_build sha256 hroot hsize hbuild htarget
    exact ⟨_, encodeIetfInclusionProof_eq_ok.mpr ⟨_, siblings, hitem, rfl⟩⟩
  · intro htarget
    obtain ⟨siblings, hitem⟩ := encodable_of_build sha256 hroot hsize hbuild htarget
    constructor
    · intro hbytes
      obtain ⟨bytes, hbytes⟩ := hbytes
      obtain ⟨_, _, txHash, -, htx, -⟩ := encodeCoseInclusionProof_eq_ok.mp hbytes
      exact ⟨txHash, htx⟩
    · intro htx
      obtain ⟨txHash, htx⟩ := htx
      exact ⟨_, encodeCoseInclusionProof_eq_ok.mpr ⟨_, siblings, txHash, hitem, htx, rfl⟩⟩

/-- **Inclusion proofs as CBOR.** What is encoded is decoded to the path that the item carries, on
which the verifier decides as on the item; and of an item that is built for a tree only proven
inclusions are encoded, every leaf of the tree among them. -/
theorem inclusionProofs_encoded (sha256 : List UInt8 → Digest) (item : InclusionCertificateItem)
    (merkle : CertificateMerkle) (anchor : CertificateAnchor) :
    (InMemory item anchor → ∀ bytes,
      (encodeIetfInclusionProof item merkle = .ok bytes →
        ∃ leaf siblings array, Encodable item merkle leaf siblings ∧
          PathBack item merkle siblings bytes array ∧
          (verifyItem sha256 item merkle.treeSize merkle.root.val).verified =
            verifyInclusion sha256 leaf.val item.index.toNat merkle.treeSize siblings
              merkle.root.val) ∧
      (encodeCoseInclusionProof item merkle anchor = .ok bytes →
        ∃ leaf siblings txHash array ietf, Encodable item merkle leaf siblings ∧
          hexDecode anchor.txHash = .ok txHash ∧
          decodeCanonicalCbor bytes = .ok (decodedCwInclusionProof array merkle.root.val leaf.val
            txHash anchor item.leafAlg) ∧
          encodeIetfInclusionProof item merkle = .ok ietf ∧
          PathBack item merkle siblings ietf array)) ∧
      ∀ now builtFor leaves targets generatedAt cert,
        buildInclusionCertificate sha256 now builtFor merkle leaves targets generatedAt =
          .ok cert →
        List.Forall₂ (BuiltEncodes sha256 merkle anchor leaves) targets cert.items := by
  refine ⟨fun hmem bytes => ⟨?_, cose_back hmem⟩, fun _ _ _ _ _ _ => builtEncodes⟩
  intro h
  obtain ⟨leaf, siblings, array, hitem, hback⟩ := ietf_back hmem h
  exact ⟨leaf, siblings, array, hitem, hback, verifyItem_of_encodable sha256 hitem⟩

/-! ## A flag that is not true, and an anchor that is no hex -/

/-- The first leaf with no path, marked as proven in a tree of three. -/
def flaggedItem : InclusionCertificateItem where
  leaf := hexEncode (sampleLeaf 0x11).val
  leafAlg := none
  index := 0
  proof := []
  verified := true
  label := none
  error := none

theorem encodable_flaggedItem : Encodable flaggedItem sampleMerkle (sampleLeaf 0x11) [] :=
  ⟨rfl, rfl, by decide, by decide, hexDecode_hexEncode _, rfl⟩

/-- The flag is believed, so a path that proves nothing is encoded; and an item that was built for
a leaf is refused for an anchor whose hash is no hex. -/
theorem inclusionProofs_not_proven :
    (∃ bytes, encodeIetfInclusionProof flaggedItem sampleMerkle = .ok bytes ∧
      verifyInclusion sampleSha256 (sampleLeaf 0x11).val 0 3 [] sampleRoot.val = false) ∧
    ∃ cert, buildInclusionCertificate sampleSha256 (0, 0) (sampleAnchor "cardano") sampleMerkle
        sampleLeaves [sampleTarget] none = .ok cert ∧ cert.items ≠ [] ∧
      ∀ item ∈ cert.items, ¬ ∃ bytes, encodeCoseInclusionProof item sampleMerkle
        { sampleAnchor "cardano" with txHash := "zz" } = .ok bytes := by
  constructor
  · refine ⟨_, encodeIetfInclusionProof_eq_ok.mpr ⟨_, [], encodable_flaggedItem, rfl⟩, ?_⟩
    rw [Bool.eq_false_iff, ne_eq, verifyInclusion_iff]
    intro h
    obtain ⟨-, -, -, d, hfold, -⟩ := h
    cases hfold
  · obtain ⟨cert, hcert⟩ := (exists_build_iff sampleSha256).mpr
      ⟨sample_builderAccepts "cardano", .inl sampleLeaves_size⟩
    obtain ⟨-, -, -, hitems⟩ := build_eq_ok sampleSha256 hcert
    obtain ⟨item, hitem, -⟩ := sample_items hitems
    refine ⟨cert, hcert, by simp [hitem], ?_⟩
    intro item _ hbytes
    obtain ⟨bytes, hbytes⟩ := hbytes
    obtain ⟨_, _, txHash, -, htx, -⟩ := encodeCoseInclusionProof_eq_ok.mp hbytes
    have herror : hexDecode "zz" = .error (.invalidCharacter 0) := by decide
    dsimp only at htx
    rw [herror] at htx
    cases htx

end Label309
