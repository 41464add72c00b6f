import Label309.Client.OffHostSign
import Label309.Client.Resumable
import Label309.MerkleLeavesList
import Label309.SealedPoe.SealStream

/-!
# The publish helpers

Content, a digest, a sealed content or a list of leaves becomes a record. What is to be stored is
uploaded first, the record is signed if there is a signer, and is posted to the gateway.
-/
namespace Label309
open Traced

/-- The digests that a helper computes. -/
inductive SupportedHashAlg
  | sha2_256
  | blake2b256
  deriving DecidableEq

def SupportedHashAlg.asStr : SupportedHashAlg → String
  | .sha2_256 => "sha2-256"
  | .blake2b256 => "blake2b-256"

/-- The key encapsulation of a sealed record. -/
inductive SealedKemChoice
  | x25519
  | mlkem768X25519
  deriving DecidableEq

/-- The signer acts on the state of the host. -/
structure Signer (σ : Type) where
  signerPubkey : List UInt8
  sign : List UInt8 → σ → Except String (List UInt8) × σ

/-- Why an input is refused before anything is sent. -/
inductive PublishError
  | invalidSignerPubkey
  | invalidSignerSignature
  | invalidLeaves
  | invalidDigest
  | invalidRecipient
  | unsupportedHashAlg
  deriving DecidableEq

def UploadEntry.isOk : UploadEntry → Bool
  | .success .. => true
  | .failure .. => false

/-- The blob was not stored. -/
structure PartialUploadError where
  response : UploadsResponse
  failed : List UploadEntry

/-- The error of a response with a failure. -/
def PartialUploadError.new (response : UploadsResponse) : PartialUploadError :=
  ⟨response, response.uploads.filter fun u => !u.isOk⟩

/-- Why a helper failed. -/
inductive PublishHelperError
  | validation (e : PublishError)
  | signer (message : String)
  | partialUpload (e : PartialUploadError)
  | http (e : ClientError)
  | crypto (message : String)

/-! ## Inputs and answers -/

/-- The input of a publication of content. -/
structure PublishContentInput (σ : Type) where
  content : List UInt8
  quoteId : String
  hashAlg : Option SupportedHashAlg
  signer : Option (Signer σ)
  idempotencyKey : Option String

/-- The input of a publication of digests. -/
structure PublishPrehashedInput (σ : Type) where
  hashes : List (SupportedHashAlg × String)
  quoteId : String
  signer : Option (Signer σ)
  idempotencyKey : Option String

/-- The input of a sealed publication. -/
structure PublishSealedInput (σ : Type) where
  content : List UInt8
  recipients : List (List UInt8)
  quoteId : String
  hashAlg : Option SupportedHashAlg
  kem : Option SealedKemChoice
  signer : Option (Signer σ)
  idempotencyKey : Option String
  chunkBytes : Option UInt64

/-- A leaf as bytes or as hexadecimal digits. -/
inductive MerkleLeaf
  | bytes (b : List UInt8)
  | hex (h : String)

/-- The input of a publication of leaves. -/
structure PublishMerkleInput (σ : Type) where
  leaves : List MerkleLeaf
  quoteId : String
  hashAlg : Option SupportedHashAlg
  signer : Option (Signer σ)
  idempotencyKey : Option String
  chunkBytes : Option UInt64

structure PoeItemResponse where
  itemIdx : UInt64
  hashes : List (String × String)
  uris : Option (List String)
  enc : Option JsonValue

/-- The status is the text on the wire. -/
structure PublishResponse where
  id : String
  txHash : Option String
  status : String
  itemsCount : UInt64
  signed : Bool
  isSealed : Bool
  items : List PoeItemResponse
  conformanceProfile : String
  balanceAfterUsdMicros : String
  dedupHit : Bool

/-- The answer to a publication of leaves, with the root. -/
structure PublishMerkleResponse where
  id : String
  txHash : Option String
  status : String
  root : String
  leafCount : UInt64
  arUri : String
  balanceAfterUsdMicros : String

/-- The libraries. -/
structure PublishLibrary where
  json : JsonPrimitives
  uploads : UploadBodies
  published : List UInt8 → Except String PublishResponse
  crypto : SealedPrimitives
  blake2b256 : List UInt8 → Digest

/-- The host, with the generator of the operating system as it is in a call. -/
structure PublishHost (σ : Type) extends UploadHost σ where
  entropy : σ → OsRng × σ

/-- A step of a helper. -/
abbrev Publish (σ α : Type) := Program (World σ Exchange) PublishHelperError α

/-! ## Records -/

/-- A record with neither items nor commitments. -/
def PoeRecord.bare : PoeRecord where
  v := 1
  items := none
  merkle := none
  supersedes := none
  sigs := none
  crit := none
  extensions := []

/-- A record of one item with these digests. -/
def hashesRecord (hashes : List (String × List UInt8)) : PoeRecord :=
  { PoeRecord.bare with items := some [{ hashes := hashes, uris := none, enc := none }] }

/-- The slots of an envelope in the shape of a record. -/
def recordSlots : SealedSlots → List Slot
  | .x25519 slots =>
      slots.map fun s => { epk := some s.epk, kemCt := none, wrap := some s.wrap }
  | .mlkem768X25519 slots =>
      slots.map fun s => { epk := none, kemCt := some s.kemCt, wrap := some s.wrap }

/-- A scheme that is no unsigned word becomes 1. -/
def buildEnvelope (env : SealedEnvelope) : EncScheme1 where
  scheme := if 0 ≤ env.scheme ∧ env.scheme < 2 ^ 64 then UInt64.ofNat env.scheme.toNat else 1
  aead := env.aead
  nonce := env.nonce
  kem := some env.kem
  slots := some (recordSlots env.slots)
  slotsMac := some env.slotsMac
  passphrase := none

/-- A record of one sealed item. -/
def sealedRecord (hash : String × List UInt8) (env : SealedEnvelope) (uri : String) : PoeRecord :=
  { PoeRecord.bare with
    items := some [{
      hashes := [hash], uris := some [uri], enc := some (.scheme1 (buildEnvelope env)) }] }

/-- A record of one commitment. -/
def merkleRecord (root : Digest) (leafCount : ℕ) (uri : String) : PoeRecord :=
  { PoeRecord.bare with
    merkle := some [{
      alg := merkleAlgId, root := root.val, leafCount := UInt64.ofNat leafCount
      uris := some [uri] }] }

section Helpers
variable {σ : Type}

/-! ## Signing -/

/-- The public key of the signer has 32 bytes. -/
def assertSigner (signer : Option (Signer σ)) : Except PublishError Unit :=
  match signer with
  | some signer =>
      if signer.signerPubkey.length ≠ ed25519PublicKeyLength then .error .invalidSignerPubkey
      else .ok ()
  | none => .ok ()

/-- Nothing is asked of the gateway. -/
def validated {α : Type} (r : Except PublishError α) : Publish σ α :=
  ofResult (r.mapError .validation)

/-- Canonical bytes, or the error of the codec. -/
def encoded (r : Except CanonicalCborError (List UInt8)) : Publish σ (List UInt8) :=
  ofResult (r.mapError fun e => .crypto e.display)

/-- Ask the signer for a signature. -/
def askSigner (signer : Signer σ) (sigStructureBytes : List UInt8) : Publish σ (List UInt8) :=
  ofStep fun w =>
    let (answer, host) := signer.sign sigStructureBytes w.host
    (answer.mapError .signer, { w with host := host })

/-- The bytes of a record, signed first if there is a signer. -/
def encodeRecord (record : PoeRecord) (signer : Option (Signer σ)) : Publish σ (List UInt8) :=
  match signer with
  | none => encoded (encodePoeRecord record)
  | some signer => do
      let prepared ← validated ((prepareSigStructure record signer.signerPubkey).mapError
        fun _ => .invalidSignerPubkey)
      let signature ← askSigner signer prepared.sigStructureBytes
      if signature.length ≠ ed25519SignatureLength then
        throw (.validation .invalidSignerSignature)
      let assembled ← validated ((assembleCoseSign1 record signer.signerPubkey signature).mapError
        fun _ => .invalidSignerSignature)
      encoded (encodePoeRecord { record with sigs := some [assembled.sigEntry] })

section Gateway
variable (lib : PublishLibrary) (host : PublishHost σ) (config : NamespaceConfig σ) (fuel : ℕ)

/-! ## Requests -/

/-- The members of the body in the order of their keys. -/
def publishBody (recordBytes : List UInt8) (quoteId : String) : JsonValue :=
  .object [("quote_id", .string quoteId), ("record", .string (hexEncode recordBytes))]

/-- The address that records are posted to. -/
def publishUrl : String := config.baseUrl ++ "/poe/publish"

/-- Post a record. -/
def postPublish (recordBytes : List UInt8) (quoteId : String) (idempotencyKey : Option String) :
    Publish σ PublishResponse := mapError .http do
  let response ← send config lib.json (publishUrl config) .post
    (jsonHeaders config.apiKey idempotencyKey)
    (.json (lib.json.toText (publishBody recordBytes quoteId)))
  let parsed ← decodeBody lib.published response.body
  pure { parsed with dedupHit := response.status = 200 }

/-- The response of one rejected upload. -/
def singleFailedUpload (error : UploadError) : UploadsResponse := ⟨[.failure 0 false error]⟩

/-- The error of an upload as that of a helper. -/
def mapResumableError : ResumableUploadError → PublishHelperError
  | .uploadRejected error => .partialUpload (.new (singleFailedUpload error))
  | .failed detail => .partialUpload (.new (singleFailedUpload ⟨"upload-failed", detail⟩))
  | .insufficientFunds e => .http (.http e)
  | .http e => .http e
  | .source detail => .crypto ("upload source could not be read: " ++ detail)
  | .sourceTruncated index offset sourceLen =>
      .crypto ("upload source could not be read: upload source is shorter than the declared " ++
        s!"grid: chunk {index} at offset {offset} is past the {sourceLen}-byte source")
  | .decode detail => .crypto ("upload protocol error: " ++ detail)
  | .protocol detail => .crypto ("upload protocol error: " ++ detail)
  | .cancelled => .crypto "upload protocol error: unexpected cancellation"
  | .abandonFailed sessionId source =>
      .crypto ("upload protocol error: failed to abandon session " ++ sessionId ++ ": " ++
        source.toText)

/-- The upload of a blob. -/
def blobInput (blob : List UInt8) (chunkBytes : Option UInt64) (idempotencyKey : Option String) :
    ResumableUploadInput σ where
  target := "arweave"
  source := .bytes blob
  contentType := some "application/octet-stream"
  thresholdBytes := none
  chunkBytes := chunkBytes
  resumeSessionId := none
  idempotencyKey := idempotencyKey
  onProgress := none
  cancel := none
  onSessionCreated := none

/-- Upload a blob. The answer is its uri. -/
def uploadBlob (blob : List UInt8) (chunkBytes : Option UInt64)
    (idempotencyKey : Option String) : Publish σ String := mapError mapResumableError do
  let result ← uploadResumable lib.json lib.uploads lib.crypto.sha256 host.toUploadHost config
    (blobInput blob chunkBytes idempotencyKey) fuel
  pure result.uri

/-! ## Digests -/

/-- The digest of the content. -/
def hashContent (bytes : List UInt8) : SupportedHashAlg → List UInt8
  | .sha2_256 => (lib.crypto.sha256 bytes).val
  | .blake2b256 => (lib.blake2b256 bytes).val

/-- The entry of a content under its algorithm, SHA-256 if none is chosen. -/
def contentHash (content : List UInt8) (hashAlg : Option SupportedHashAlg) :
    String × List UInt8 :=
  let hashAlg := hashAlg.getD .sha2_256
  (hashAlg.asStr, hashContent lib content hashAlg)

/-- Publish the digest of a content. -/
def publishContent (input : PublishContentInput σ) : Publish σ PublishResponse := do
  validated (assertSigner input.signer)
  let record := hashesRecord [contentHash lib input.content input.hashAlg]
  let recordBytes ← encodeRecord record input.signer
  postPublish lib config recordBytes input.quoteId input.idempotencyKey

/-- The length of a digest that is given. -/
def digestByteLength : ℕ := 32

/-- A digest from its hexadecimal digits. -/
def prehashedEntry (entry : SupportedHashAlg × String) :
    Except PublishError (String × List UInt8) :=
  match hexDecode entry.2 with
  | .error _ => .error .invalidDigest
  | .ok bytes =>
      if bytes.length ≠ digestByteLength then .error .invalidDigest
      else .ok (entry.1.asStr, bytes)

/-- The digests that are given, in order. -/
def prehashedEntries (hashes : List (SupportedHashAlg × String)) :
    Except PublishError (List (String × List UInt8)) :=
  let present := hashes.filter fun entry => !entry.2.isEmpty
  if present.isEmpty then .error .invalidDigest else present.mapM prehashedEntry

/-- Publish digests that are given. -/
def publishPrehashed (input : PublishPrehashedInput σ) : Publish σ PublishResponse := do
  validated (assertSigner input.signer)
  let hashes ← validated (prehashedEntries input.hashes)
  let recordBytes ← encodeRecord (hashesRecord hashes) input.signer
  postPublish lib config recordBytes input.quoteId input.idempotencyKey

/-! ## Sealed content -/

def SealedKemChoice.publicKeyLength : SealedKemChoice → ℕ
  | .x25519 => 32
  | .mlkem768X25519 => 1216

def SealedKemChoice.sealedKem : SealedKemChoice → SealedKem
  | .x25519 => .x25519
  | .mlkem768X25519 => .mlkem768X25519

/-- Every recipient has a key of the right length, and there is one. -/
def checkRecipients (kem : SealedKemChoice) (recipients : List (List UInt8)) :
    Except PublishError Unit :=
  if recipients.isEmpty then .error .invalidRecipient
  else if recipients.any fun r => r.length ≠ kem.publicKeyLength then .error .invalidRecipient
  else .ok ()

/-- The hybrid KEM if none is chosen. -/
def PublishSealedInput.kemChoice (input : PublishSealedInput σ) : SealedKemChoice :=
  input.kem.getD .mlkem768X25519

/-- The wrap binds the one hash claim of the item. -/
def publishWrapArgs (input : PublishSealedInput σ) : WrapArgs where
  plaintext := input.content
  recipientPublicKeys := input.recipients
  hashes := ⟨[contentHash lib input.content input.hashAlg], List.pairwise_singleton _ _⟩
  kem := some input.kemChoice.sealedKem
  cek := none
  nonce := none
  ephemeralSecrets := none
  eseeds := none
  skipShuffle := false

/-- The wrap under the generator of the host. A panic of the sealer has no result. -/
def wrapSecure (args : WrapArgs) : Publish σ SealedPoeOutput :=
  ExceptT.mk (StateT.mk fun w =>
    let (os, state) := host.entropy w.host
    match eciesSealedPoeWrapSecure lib.crypto os fuel args with
    | some (.ok (.ok output)) => some (.ok output, { w with host := state })
    | some (.error e) => some (.error (.crypto e.toText), { w with host := state })
    | some (.ok (.error _)) => none
    | none => none)

/-- Seal a content, upload it and publish its record. -/
def publishSealed (input : PublishSealedInput σ) : Publish σ PublishResponse := do
  validated (assertSigner input.signer)
  validated (checkRecipients input.kemChoice input.recipients)
  let output ← wrapSecure lib host fuel (publishWrapArgs lib input)
  let uri ← uploadBlob lib host config fuel output.ciphertext input.chunkBytes
    input.idempotencyKey
  let record := sealedRecord (contentHash lib input.content input.hashAlg) output.envelope uri
  let recordBytes ← encodeRecord record input.signer
  postPublish lib config recordBytes input.quoteId input.idempotencyKey

/-! ## Merkle commitments -/

/-- A leaf as 32 bytes. -/
def MerkleLeaf.toDigest : MerkleLeaf → Except PublishError Digest
  | .bytes b => (toFixed 32 b).elim (.error .invalidLeaves) .ok
  | .hex h =>
      match hexDecode h with
      | .error _ => .error .invalidLeaves
      | .ok b => (toFixed 32 b).elim (.error .invalidLeaves) .ok

/-- The leaves of an input under the one algorithm. -/
def checkLeaves (input : PublishMerkleInput σ) : Except PublishError (List Digest) :=
  if input.hashAlg.isSome ∧ input.hashAlg ≠ some .sha2_256 then .error .unsupportedHashAlg
  else if input.leaves.isEmpty then .error .invalidLeaves
  else input.leaves.mapM MerkleLeaf.toDigest

/-- The root of the leaves, and the document to upload. -/
def commitLeaves (leaves : List Digest) : Except PublishHelperError (Digest × List UInt8) := do
  let root ← (merkleRoot lib.crypto.sha256 leaves).mapError fun e => .crypto e.toText
  let leavesList ← (encodeLeavesList leaves root none).mapError fun e => .crypto e.toText
  .ok (root, leavesList)

/-- Upload the list of leaves and publish their commitment. -/
def publishMerkle (input : PublishMerkleInput σ) : Publish σ PublishMerkleResponse := do
  validated (assertSigner input.signer)
  let leaves ← validated (checkLeaves input)
  let (root, leavesList) ← ofResult (commitLeaves lib leaves)
  let uri ← uploadBlob lib host config fuel leavesList input.chunkBytes input.idempotencyKey
  let recordBytes ← encodeRecord (merkleRecord root leaves.length uri) input.signer
  let published ← postPublish lib config recordBytes input.quoteId input.idempotencyKey
  pure {
    id := published.id
    txHash := published.txHash
    status := published.status
    root := hexEncode root.val
    leafCount := UInt64.ofNat leaves.length
    arUri := uri
    balanceAfterUsdMicros := published.balanceAfterUsdMicros }

end Gateway
end Helpers

end Label309
