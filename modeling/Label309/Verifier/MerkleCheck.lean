import Label309.MerkleLeavesList
import Label309.Verifier.Content

/-!
# Merkle commitments

A leaves list is walked like any content. A list that is not the committed one is held against
the record only when its bytes are attributable. Whether a list that could not be had is an
error depends on the whole record, so it is left pending here.
-/
namespace Label309

/-- A claim without an attributable leaves list. -/
structure MerkleUnavailable where
  path : List PathSegment
  limitExceeded : Bool
  deriving DecidableEq

structure MerkleCommitOutcome where
  contentCheck : ContentCheck
  unavailable : Option MerkleUnavailable
  deriving DecidableEq

/-- A leaves list that is not the committed one. -/
structure LeavesRejection where
  code : ErrorCode
  message : String
  deriving DecidableEq

/-- The codec's codes in the registry. -/
def MerkleLeavesListErrorCode.errorCode : MerkleLeavesListErrorCode → ErrorCode
  | .formatUnsupported => .schemaMerkleLeavesFormatUnsupported
  | .leafCountMismatch => .schemaMerkleLeafCountMismatch
  | .rootMismatch => .merkleRootMismatch
  | .malformed => .schemaMerkleLeavesMalformed

section Check
variable (crypto : VerifierPrimitives)

/-- The document, then its root and its leaf count against the commitment. -/
def validateLeavesDocument (bytes : List UInt8) (commit : MerkleCommit) :
    Except LeavesRejection Unit :=
  match decodeLeavesList crypto.sealing.sha256 crypto.text.debug bytes with
  | .error e => .error ⟨e.code.errorCode, e.toText⟩
  | .ok decoded =>
      if decoded.root.val ≠ commit.root then
        .error ⟨.merkleRootMismatch, "the RFC 9162 root recomputed from the leaves-list does " ++
          "not equal the on-chain root"⟩
      else if decoded.leafCount ≠ commit.leafCount.toNat then
        .error ⟨.schemaMerkleLeafCountMismatch,
          s!"leaves-list carries {decoded.leafCount} leaves but the on-chain commitment " ++
            s!"declares {commit.leafCount}"⟩
      else .ok ()

/-- The decision on a leaves list. -/
def leavesConsumer (commit : MerkleCommit) (basePath : List PathSegment) : Consumer ContentCheck :=
  fun blob =>
    match validateLeavesDocument crypto blob.bytes commit with
    | .ok () => .ok (.accept .checked, [])
    | .error rejection =>
        (blob.attributable crypto).map fun attributable =>
          if attributable then
            (.accept .mismatched, [.new rejection.code basePath rejection.message])
          else
            (.nextSource,
              [.new .uriProviderIntegrityMismatch (providerMismatchPath basePath blob)
                ("leaves-list bytes fetched from " ++ blobSource crypto blob "unknown source" ++
                  " fail validation (" ++ rejection.code.code ++ ") and could not be " ++
                  "attributed to the URI's content address; the serving provider is " ++
                  "indicted, not the record")])

def merklePath (commitIndex : ℕ) : List PathSegment := [.key "merkle", .index commitIndex]

/-- The check of a commitment. -/
def Verifier.checkMerkleCommit {σ : Type} (commit : MerkleCommit) (commitIndex : ℕ)
    (outOfBand : Option (List UInt8)) (fetchContent : Bool) (policy : ContentFetchPolicy)
    (fetcher : GatewayFetcher σ) : Checking σ MerkleCommitOutcome :=
  let basePath := merklePath commitIndex
  if commit.alg ≠ merkleAlgId then
    .ok (⟨.notChecked, none⟩,
      [.new .unsupportedMerkleCommitAlg (basePath ++ [.key "alg"])
        ("merkle commitment algorithm " ++ crypto.text.debug commit.alg ++ " is not implemented")],
      fetcher)
  else if fetchContent = false ∧ outOfBand = none then .ok (⟨.notChecked, none⟩, [], fetcher)
  else
    (walkBlobSources crypto basePath policy (leavesConsumer crypto commit basePath) outOfBand
      (commit.uris.getD []) fetchContent fetcher).map fun
      | (.done check, issues, fetcher) => (⟨check, none⟩, issues, fetcher)
      | (.exhausted limitExceeded, issues, fetcher) =>
          (⟨.notChecked, some ⟨basePath, limitExceeded⟩⟩, issues, fetcher)

end Check

end Label309
