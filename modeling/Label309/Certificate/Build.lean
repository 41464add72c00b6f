import Label309.Merkle

/-!
# Building an inclusion certificate

The certificate carries the anchor, the Merkle commitment and one item for each target. A target
that is no leaf is kept as an item with an error.
-/
namespace Label309

/-- The name of the format. -/
def inclusionCertificateFormatV1 : String := "label-309-inclusion-certificate-v1"

/-- The only tree that a certificate speaks of. -/
def certificateTreeAlg : String := "rfc9162-sha256"

/-- The metadata label of the record. -/
def metadataLabel309 : ℕ := 309

/-- What a certificate claims. -/
def certificateClaim : String :=
  "Each listed hash was included in a Merkle tree whose root was published on " ++
    "the Cardano blockchain in the referenced transaction under metadata label " ++
    "309; therefore each hash provably existed on or before the stated block time."

/-- How a reader checks it. -/
def certificateVerificationMethod : String :=
  "RFC 9162 (Certificate Transparency) SHA-256 inclusion proof. For each item, " ++
    "recompute the Merkle root from leaf+index+tree_size+proof and compare to " ++
    "merkle.root; then confirm merkle.root equals the merkle[].root in the " ++
    "Label 309 record of anchor.tx_hash on any public Cardano explorer."

/-- The tools that check it. -/
def certificateIndependentTools : List String :=
  ["cardanowall certificate verify <file>", "cardanowall merkle verify (per item)",
    "any RFC 9162 / COSE verifiable-data-structure verifier"]

/-- Who asserts the time. -/
def certificateTimeAssertedBy : String := "Cardano blockchain (block time), via public explorers"

/-! ## Inputs -/

/-- The transaction, as the caller gives it. -/
structure CertificateAnchor where
  chain : String
  network : String
  txHash : String
  metadataLabel : ℕ
  blockTime : ℤ
  blockHeight : Option ℤ
  slot : Option ℤ
  confirmationsAtGeneration : Option ℤ
  explorerUrls : Option (List String)

/-- The tree, as the caller gives it. -/
structure CertificateMerkle where
  treeAlg : String
  root : Digest
  treeSize : ℕ
  leavesListUri : Option String
  leavesListUrl : Option String

/-- A leaf with its index and its proof. -/
structure CertificateTarget where
  leaf : Digest
  leafAlg : Option String
  label : Option String

/-! ## The certificate -/

/-- The transaction in the certificate. -/
structure InclusionCertificateAnchor where
  chain : String
  network : String
  txHash : String
  metadataLabel : ℕ
  blockTime : ℤ
  blockTimeIso : String
  blockHeight : Option ℤ
  slot : Option ℤ
  confirmationsAtGeneration : Option ℤ
  explorerUrls : Option (List String)

/-- The tree in the certificate. -/
structure InclusionCertificateMerkle where
  treeAlg : String
  root : String
  treeSize : ℕ
  leavesListUri : Option String
  leavesListUrl : Option String

/-- `index` is `-1` for a target that is not in the tree. -/
structure InclusionCertificateItem where
  leaf : String
  leafAlg : Option String
  index : ℤ
  proof : List String
  verified : Bool
  label : Option String
  error : Option String

/-- The instructions in the certificate. -/
structure InclusionCertificateVerification where
  method : String
  independentTools : List String
  requiresTrustInCardanowall : Bool
  timeAssertedBy : String

/-- A certificate. -/
structure InclusionCertificateV1 where
  format : String
  generatedAt : String
  anchor : InclusionCertificateAnchor
  merkle : InclusionCertificateMerkle
  items : List InclusionCertificateItem
  claim : String
  verification : InclusionCertificateVerification

/-- Why no certificate is built. -/
inductive BuildCertificateError
  | unsupportedTreeAlg (treeAlg : String)
  | treeSizeMismatch (treeSize leavesLen : ℕ)
  | rootMismatch
  | blockTimeOutOfRange (blockTime : ℤ)
  | merkle (e : MerkleError)
  /-- A leaf was found in a tree that is too large for its proof, and the code panics. -/
  | proofUnavailable (e : MerkleError)

/-! ## The time of the block -/

/-- The first second past the year 9999. -/
def maxBlockTimeExclusive : ℤ := 253402300800

/-- The date of a day, counted from 1970-01-01. The divisions round towards zero. -/
def civilFromDays (daysSinceEpoch : ℤ) : ℤ × ℤ × ℤ :=
  let z := daysSinceEpoch + 719468
  let era := (if 0 ≤ z then z else z - 146096).tdiv 146097
  let doe := z - era * 146097
  let yoe := (doe - doe.tdiv 1460 + doe.tdiv 36524 - doe.tdiv 146096).tdiv 365
  let y := yoe + era * 400
  let doy := doe - (365 * yoe + yoe.tdiv 4 - yoe.tdiv 100)
  let mp := (5 * doy + 2).tdiv 153
  let day := doy - (153 * mp + 2).tdiv 5 + 1
  let month := if mp < 10 then mp + 3 else mp - 9
  let year := if month ≤ 2 then y + 1 else y
  (year, month, day)

/-- A number padded with zeros to `width` characters. -/
def zeroPadded (width : ℕ) (n : ℤ) : String :=
  let digits := (toString n.natAbs).toList
  let sign := if n < 0 then ['-'] else []
  String.ofList (sign ++ List.replicate (width - sign.length - digits.length) '0' ++ digits)

/-- `YYYY-MM-DDTHH:MM:SS.mmmZ`. -/
def formatIso8601 (secs : ℤ) (millis : ℕ) : String :=
  let secsOfDay := secs % 86400
  let (year, month, day) := civilFromDays (secs / 86400)
  zeroPadded 4 year ++ "-" ++ zeroPadded 2 month ++ "-" ++ zeroPadded 2 day ++ "T" ++
    zeroPadded 2 (secsOfDay / 3600) ++ ":" ++ zeroPadded 2 (secsOfDay % 3600 / 60) ++ ":" ++
    zeroPadded 2 (secsOfDay % 60) ++ "." ++ zeroPadded 3 millis ++ "Z"

/-- A time in seconds as a date. -/
def unixSecondsToIso8601 (secs : ℤ) : String := formatIso8601 secs 0

example : unixSecondsToIso8601 1718539200 = "2024-06-16T12:00:00.000Z" := by decide

/-! ## The builder -/

def buildAnchor (anchor : CertificateAnchor) : InclusionCertificateAnchor where
  chain := anchor.chain
  network := anchor.network
  txHash := anchor.txHash
  metadataLabel := metadataLabel309
  blockTime := anchor.blockTime
  blockTimeIso := unixSecondsToIso8601 anchor.blockTime
  blockHeight := anchor.blockHeight
  slot := anchor.slot
  confirmationsAtGeneration := anchor.confirmationsAtGeneration
  explorerUrls := anchor.explorerUrls

def buildMerkle (merkle : CertificateMerkle) : InclusionCertificateMerkle where
  treeAlg := merkle.treeAlg
  root := hexEncode merkle.root.val
  treeSize := merkle.treeSize
  leavesListUri := merkle.leavesListUri
  leavesListUrl := merkle.leavesListUrl

/-- The index of the first leaf equal to the target. -/
def findLeafIndex (leaves : List Digest) (target : Digest) : Option ℕ :=
  leaves.findIdx? (· == target)

variable (sha256 : List UInt8 → Digest)

/-- Find the leaf, prove it and check the proof. -/
def buildItem (target : CertificateTarget) (leaves : List Digest) (root : Digest) :
    Except BuildCertificateError InclusionCertificateItem :=
  match findLeafIndex leaves target.leaf with
  | none =>
      .ok {
        leaf := hexEncode target.leaf.val
        leafAlg := target.leafAlg
        index := -1
        proof := []
        verified := false
        label := target.label
        error := some "leaf not found in the committed leaf set" }
  | some index =>
      match merkleInclusionProof sha256 leaves index with
      | .error e => .error (.proofUnavailable e)
      | .ok siblings =>
          .ok {
            leaf := hexEncode target.leaf.val
            leafAlg := target.leafAlg
            index := index
            proof := siblings.map fun s => hexEncode s.val
            verified := verifyInclusion sha256 target.leaf.val index leaves.length siblings root.val
            label := target.label
            error := none }

/-- `now` is the clock's reading, in seconds and milliseconds, for a missing `generatedAt`. -/
def buildInclusionCertificate (now : ℤ × ℕ) (anchor : CertificateAnchor)
    (merkle : CertificateMerkle) (leaves : List Digest) (targets : List CertificateTarget)
    (generatedAt : Option String) : Except BuildCertificateError InclusionCertificateV1 :=
  if merkle.treeAlg ≠ certificateTreeAlg then .error (.unsupportedTreeAlg merkle.treeAlg)
  else if merkle.treeSize ≠ leaves.length then
    .error (.treeSizeMismatch merkle.treeSize leaves.length)
  else
    match merkleRoot sha256 leaves with
    | .error e => .error (.merkle e)
    | .ok recomputedRoot =>
        if recomputedRoot ≠ merkle.root then .error .rootMismatch
        else if anchor.blockTime < 0 ∨ maxBlockTimeExclusive ≤ anchor.blockTime then
          .error (.blockTimeOutOfRange anchor.blockTime)
        else do
          let items ← targets.mapM fun target => buildItem sha256 target leaves merkle.root
          .ok {
            format := inclusionCertificateFormatV1
            generatedAt := generatedAt.getD (formatIso8601 now.1 now.2)
            anchor := buildAnchor anchor
            merkle := buildMerkle merkle
            items := items
            claim := certificateClaim
            verification := {
              method := certificateVerificationMethod
              independentTools := certificateIndependentTools
              requiresTrustInCardanowall := false
              timeAssertedBy := certificateTimeAssertedBy } }

end Label309
