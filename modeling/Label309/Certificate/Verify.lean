import Label309.Certificate.Build
import Label309.MerkleInclusion
import Label309.Lib.ExceptBind

/-!
# Verifying an inclusion certificate

The verifier decodes every string of the certificate again and recomputes every proof. What the
builder makes is accepted when it names the chain that the verifier asks for.
-/
namespace Label309
open ExceptBind

structure InclusionCertificateItemVerdict where
  index : ℤ
  leaf : String
  verified : Bool
  error : Option String

structure InclusionCertificateVerifyResult where
  ok : Bool
  items : List InclusionCertificateItemVerdict
  anchorClaim : CertificateAnchor
  error : Option String

/-- The anchor that the certificate claims. -/
def anchorClaimOf (cert : InclusionCertificateV1) : CertificateAnchor where
  chain := cert.anchor.chain
  network := cert.anchor.network
  txHash := cert.anchor.txHash
  metadataLabel := cert.anchor.metadataLabel
  blockTime := cert.anchor.blockTime
  blockHeight := cert.anchor.blockHeight
  slot := cert.anchor.slot
  confirmationsAtGeneration := cert.anchor.confirmationsAtGeneration
  explorerUrls := cert.anchor.explorerUrls

def rejectCertificate (anchorClaim : CertificateAnchor) (error : String) :
    InclusionCertificateVerifyResult where
  ok := false
  items := []
  anchorClaim := anchorClaim
  error := some error

/-- Read the siblings, the first of them at `i`. The first that cannot be read decides: an error
for one that is no hex, none for one of another length. -/
def decodeProof : ℕ → List String → Except (Option String) (List Digest)
  | _, [] => .ok []
  | i, siblingHex :: rest =>
      match hexDecode siblingHex with
      | .error err => .error (some (s!"malformed proof[{i}]: " ++ err.display))
      | .ok bytes =>
          match toFixed 32 bytes with
          | none => .error none
          | some sibling => (decodeProof (i + 1) rest).map fun proof => sibling :: proof

variable (sha256 : List UInt8 → Digest)

def verifyItem (item : InclusionCertificateItem) (treeSize : ℕ) (root : List UInt8) :
    InclusionCertificateItemVerdict :=
  let verdict (verified : Bool) (error : Option String) : InclusionCertificateItemVerdict :=
    { index := item.index, leaf := item.leaf, verified := verified, error := error }
  match item.error with
  | some error => verdict false (some error)
  | none =>
      if item.index < 0 ∨ treeSize ≤ item.index.toNat then
        verdict false (some s!"index {item.index} out of range [0, {treeSize})")
      else
        match hexDecode item.leaf with
        | .error err => verdict false (some ("malformed leaf: " ++ err.display))
        | .ok leaf =>
            match decodeProof 0 item.proof with
            | .error error => verdict false error
            | .ok proof =>
                verdict (verifyInclusion sha256 leaf item.index.toNat treeSize proof root) none

def verifyInclusionCertificate (cert : InclusionCertificateV1) :
    InclusionCertificateVerifyResult :=
  let anchorClaim := anchorClaimOf cert
  if cert.format ≠ inclusionCertificateFormatV1 then
    rejectCertificate anchorClaim ("unsupported certificate format '" ++ cert.format ++ "'")
  else if cert.merkle.treeAlg ≠ certificateTreeAlg then
    rejectCertificate anchorClaim ("unsupported tree_alg '" ++ cert.merkle.treeAlg ++ "'")
  else if cert.anchor.chain ≠ "cardano" then
    rejectCertificate anchorClaim ("unsupported anchor.chain '" ++ cert.anchor.chain ++ "'")
  else if cert.anchor.metadataLabel ≠ metadataLabel309 then
    rejectCertificate anchorClaim s!"unsupported anchor.metadata_label '{cert.anchor.metadataLabel}'"
  else if cert.merkle.treeSize < 1 ∨ maxTreeSize < cert.merkle.treeSize then
    rejectCertificate anchorClaim s!"merkle.tree_size {cert.merkle.treeSize} out of range"
  else
    match hexDecode cert.merkle.root with
    | .error err => rejectCertificate anchorClaim ("malformed merkle.root: " ++ err.display)
    | .ok root =>
        let items := cert.items.map fun item => verifyItem sha256 item cert.merkle.treeSize root
        { ok := !items.isEmpty && items.all fun v => v.verified
          items := items
          anchorClaim := anchorClaim
          error := none }

end Label309
