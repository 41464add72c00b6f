import Label309.PoeStandard.Validate
import Label309.Verifier.Decrypt
import Label309.Verifier.MerkleCheck
import Label309.Verifier.Resolve
import Label309.Verifier.Signatures
import Label309.Verifier.TxWitnesses

/-!
# The verifier

Resolve the transaction, unwrap its record, validate it, and check the depth, the signatures,
the content and the commitments. Every step pushes issues, and a step that forecloses the rest
ends in a report of its own.
-/
namespace Label309

/-- The depth below which a record is pending. -/
def confirmationDepthThresholdDefault : ℕ := 15

/-- The Arweave gateways in the order they are asked. -/
def arweaveGatewayDefaults : List String :=
  ["https://turbo-gateway.com", "https://arweave.net", "https://permagate.io"]

/-- The name of a network. -/
def CardanoNetwork.id : CardanoNetwork → String
  | .mainnet => "cardano:mainnet"
  | .preprod => "cardano:preprod"

/-- A transaction reference with the policy of the deployment and the caller's bytes. -/
structure VerifyTxInput where
  txHash : String
  profile : Profile
  cardanoGatewayChain : Option (List String)
  blockfrostProjectId : Option String
  arweaveGatewayChain : Option (List String)
  ipfsGatewayChain : Option (List String)
  confirmationDepthThreshold : Option ℕ
  denyHosts : Option (List String)
  fetchContent : Bool
  maxFetchBytes : Option UInt64
  decryption : Option (List Decryption)
  ciphertextBytes : ℕ → Option (List UInt8)
  merkleLeaves : ℕ → Option (List UInt8)
  cardanoNetwork : CardanoNetwork

/-- The depth that is asked for. -/
def VerifyTxInput.threshold (input : VerifyTxInput) : ℕ :=
  input.confirmationDepthThreshold.getD confirmationDepthThresholdDefault

/-- The caller has keys or passphrases. -/
def VerifyTxInput.hasKeyring (input : VerifyTxInput) : Bool :=
  input.decryption.any fun credentials => !credentials.isEmpty

/-- The chain facts of a caller that has the record body already. -/
structure BlockInfo where
  confirmationDepth : ℕ
  blockTime : ℕ
  blockSlot : Option ℕ

/-- What is known of a transaction whose bytes are: who signed it, what its body says, and which
labels its metadata has. No verdict depends on it. -/
structure TxDescription where
  txWitnesses : Option (List TxWitnesses.VerifyTxWitness)
  txSummary : Option TxWitnesses.VerifyTxSummary
  metadataLabels : Option (List ℕ)

/-- Nothing is known. -/
def TxDescription.default : TxDescription := ⟨none, none, none⟩

/-- The report of a run. -/
structure VerifyReport where
  txHash : String
  verdict : Verdict
  profile : Profile
  network : String
  confirmationThreshold : ℕ
  confirmationDepth : Option ℕ
  blockTime : Option ℕ
  blockSlot : Option ℕ
  issues : List VerifierIssue
  items : List ItemReportEntry
  merkle : List MerkleReportEntry
  auditTrail : List HttpCallRecord
  record : Option PoeRecord
  recordSignatures : Option (List SignatureCheck)
  txWitnesses : Option (List TxWitnesses.VerifyTxWitness)
  txSummary : Option TxWitnesses.VerifyTxSummary
  metadataLabels : Option (List ℕ)

/-! ## Verdict -/

/-- The error codes that no record is held to account for. -/
def networkClassCodes : List ErrorCode :=
  [.txNotFound, .providerUnavailable, .txIntegrityMismatch, .contentUnavailable,
    .contentFetchLimitExceeded, .ciphertextUnavailable, .merkleLeavesUnavailable,
    .uriTargetForbidden]

/-- The verdict when errors of the network class were seen or not. -/
def verdictFrom : (sawNetworkError : Bool) → List VerifierIssue → Verdict
  | sawNetworkError, [] => if sawNetworkError then .unverifiable else .valid
  | sawNetworkError, issue :: issues =>
      if issue.severity ≠ .error then verdictFrom sawNetworkError issues
      else if issue.code ∉ networkClassCodes then .failed
      else verdictFrom true issues

/-- The verdict of a record that is deep enough. -/
def verdictFromIssues (issues : List VerifierIssue) : Verdict := verdictFrom false issues

/-! ## Report -/

/-- What every report of a run shares. -/
structure ReportSkeleton where
  txHash : String
  network : String
  profile : Profile
  threshold : ℕ
  chainFacts : Option BlockInfo
  txDescription : TxDescription

/-- The parts of a report that depend on the step it ends in. -/
def assembleReport (skeleton : ReportSkeleton) (issues : List VerifierIssue) (verdict : Verdict)
    (items : List ItemReportEntry) (merkle : List MerkleReportEntry) (record : Option PoeRecord)
    (signatures : Option (List SignatureCheck)) (auditTrail : List HttpCallRecord) :
    VerifyReport where
  txHash := skeleton.txHash
  verdict := verdict
  profile := skeleton.profile
  network := skeleton.network
  confirmationThreshold := skeleton.threshold
  confirmationDepth := skeleton.chainFacts.map BlockInfo.confirmationDepth
  blockTime := skeleton.chainFacts.map BlockInfo.blockTime
  blockSlot := skeleton.chainFacts.bind BlockInfo.blockSlot
  issues := sortVerifierIssues issues
  items := items
  merkle := merkle
  auditTrail := auditTrail
  record := record
  recordSignatures := signatures.filter fun s => !s.isEmpty
  txWitnesses := skeleton.txDescription.txWitnesses
  txSummary := skeleton.txDescription.txSummary
  metadataLabels := skeleton.txDescription.metadataLabels

/-- A report without a record. -/
def reportWithoutRecord (skeleton : ReportSkeleton) (issues : List VerifierIssue)
    (verdict : Verdict) (auditTrail : List HttpCallRecord) : VerifyReport :=
  assembleReport skeleton issues verdict [] [] none none auditTrail

/-! ## Profile -/

/-- One issue for every field that the profile does not read. -/
def outOfProfileIssues (record : PoeRecord) (profile : Profile) : List VerifierIssue :=
  (if !profileAtLeast profile .signed && record.sigs.any fun s => !s.isEmpty then
    [.new .outOfProfileSkipped [.key "sigs"]
      ("record carries sigs[] but verifier profile '" ++ profile.asStr ++
        "' does not read record-level signatures (signed+ profile required)")]
  else []) ++
  if !profileAtLeast profile .sealed then
    ((record.items.getD []).mapIdx fun i item =>
      if item.enc.isSome then
        [VerifierIssue.new .outOfProfileSkipped (encPath i)
          ("item carries enc envelope but verifier profile '" ++ profile.asStr ++
            "' does not read sealed envelopes (sealed+ profile required)")]
      else []).flatten
  else []

/-! ## Signatures -/

/-- Add an issue unless one with its code, severity and path is there. -/
def pushIssueOnce (issues : List VerifierIssue) (issue : VerifierIssue) : List VerifierIssue :=
  if issues.any fun existing =>
      existing.code = issue.code && existing.severity = issue.severity &&
        existing.path = issue.path then issues
  else issues ++ [issue]

/-- The text of a failed signature. -/
def signatureFailureMessage : SigFailureReason → String
  | .malformedSigCoseSign1 => "the cose_sign1 blob is not a verifiable detached COSE_Sign1"
  | .signerKeyUnresolved =>
      "neither key-resolution path yielded a 32-byte Ed25519 public key"
  | .walletAddressMismatch =>
      "the wallet-path protected-header address does not equal the recomputed " ++
        "network_header || Blake2b-224(pubkey)"
  | .signatureUnsupported =>
      "the COSE_Sign1 signature algorithm is not implemented by this verifier; the entry " ++
        "is unsupported, not invalid"
  | .signatureInvalid =>
      "strict Ed25519 verification failed against the resolved public key"

/-- The field of a signature. -/
def sigPath (index : ℕ) : List PathSegment := [.key "sigs", .index index]

/-- The issues after one check of a signature. -/
def pushSignatureIssue (issues : List VerifierIssue) (check : SignatureCheck) :
    List VerifierIssue :=
  match check.reason with
  | none => issues
  | some reason =>
      let entryIssue :=
        VerifierIssue.new reason.errorCode (sigPath check.index) (signatureFailureMessage reason)
      if reason = .signatureUnsupported then pushIssueOnce issues entryIssue
      else issues ++ [entryIssue]

/-! ## Claims -/

section Claims
variable {σ ι α : Type}

/-- The checks of a list of claims from the `i`th on, over one fetcher. -/
def checkAll (check : ℕ → ι → GatewayFetcher σ → Checking σ α) :
    (i : ℕ) → List ι → GatewayFetcher σ → Checking σ (List α)
  | _, [], fetcher => .ok ([], [], fetcher)
  | i, claim :: claims, fetcher =>
      match check i claim fetcher with
      | .error panic => .error panic
      | .ok (entry, issues, fetcher) =>
          (checkAll check (i + 1) claims fetcher).map fun rest =>
            (entry :: rest.1, issues ++ rest.2.1, rest.2.2)

end Claims

/-- The issues of the commitments without a leaves list. Whether that is an error depends on
whether any other commitment was verified. -/
def floorIssues (outcomes : List MerkleCommitOutcome) (anyCommitmentVerified : Bool) :
    List VerifierIssue :=
  outcomes.filterMap fun outcome => outcome.unavailable.map fun unavailable =>
    if unavailable.limitExceeded then
      .new .contentFetchLimitExceeded unavailable.path
        ("a leaves-list fetch was aborted at the max-fetch-bytes ceiling; the commitment " ++
          "is unchecked")
    else if anyCommitmentVerified then
      .withSeverity .merkleLeavesUnavailable .warning unavailable.path
        ("no attributable leaves-list could be obtained; another content commitment of " ++
          "the record was verified")
    else
      .withSeverity .merkleLeavesUnavailable .error unavailable.path
        ("no attributable leaves-list could be obtained and no content commitment of the " ++
          "record was verified")

section Pipeline
variable (crypto : VerifierPrimitives) {σ : Type}

/-- Sealed content is opened by this profile. -/
def VerifyTxInput.willDecrypt (input : VerifyTxInput) : Bool :=
  input.hasKeyring && profileAtLeast input.profile .recipientSealed

/-- A run that decrypts validates as a recipient. -/
def VerifyTxInput.validatorOptions (input : VerifyTxInput) : ValidatorOptions :=
  { ValidatorOptions.default with
    role := if input.willDecrypt then .recipientOrStrict else .publicRole }

/-- The gateways and bounds for content. -/
def VerifyTxInput.contentPolicy (input : VerifyTxInput) : ContentFetchPolicy where
  arweaveGateways :=
    match input.arweaveGatewayChain with
    | some (gateway :: gateways) => gateway :: gateways
    | _ => arweaveGatewayDefaults
  ipfsGateways := input.ipfsGatewayChain.getD []
  maxFetchBytes := input.maxFetchBytes

/-- The report entry of an item. Without decryption a sealed item stays unchecked: its URIs
hold ciphertext. -/
def itemEntry (input : VerifyTxInput) (i : ℕ) (item : ItemEntry) (fetcher : GatewayFetcher σ) :
    Checking σ ItemReportEntry :=
  if item.enc.isSome then
    if input.willDecrypt then
      (decryptItem crypto item i (input.decryption.getD []) (input.ciphertextBytes i)
        input.fetchContent input.contentPolicy fetcher).map fun result =>
          (⟨result.1.contentCheck, some result.1.decryption⟩, result.2)
    else .ok (.default, [], fetcher)
  else
    (checkItemContent crypto item i input.fetchContent input.contentPolicy fetcher).map
      fun result => (⟨result.1, none⟩, result.2)

/-- The outcome of a commitment. -/
def commitOutcome (input : VerifyTxInput) (i : ℕ) (commit : MerkleCommit)
    (fetcher : GatewayFetcher σ) : Checking σ MerkleCommitOutcome :=
  Verifier.checkMerkleCommit crypto commit i (input.merkleLeaves i) input.fetchContent
    input.contentPolicy fetcher

/-- The checks of the signatures, when the profile reads them and there are any. -/
def signatureChecks (record : PoeRecord) (input : VerifyTxInput) : Option (List SignatureCheck) :=
  if profileAtLeast input.profile .signed && record.sigs.any fun s => !s.isEmpty then
    some (verifyRecordSignatures crypto.signing record input.cardanoNetwork)
  else none

/-- The issues up to the signatures. -/
def issuesWithSignatures (record : PoeRecord) (input : VerifyTxInput)
    (validation : List VerifierIssue) : List VerifierIssue :=
  ((signatureChecks crypto record input).getD []).foldl pushSignatureIssue
    (validation ++ outOfProfileIssues record input.profile)

def anyCommitmentVerified (items : List ItemReportEntry) (outcomes : List MerkleCommitOutcome) :
    Bool :=
  items.any (fun e => e.contentCheck = .checked) || outcomes.any (fun o => o.contentCheck = .checked)

/-- The checks of a validated record of enough depth. -/
def runRecordChecks (record : PoeRecord) (validation : List VerifierIssue) (input : VerifyTxInput)
    (skeleton : ReportSkeleton) (fetcher : GatewayFetcher σ) : Except VerifierPanic VerifyReport := do
  let signatures := signatureChecks crypto record input
  let issues := issuesWithSignatures crypto record input validation
  let (items, itemIssues, fetcher) ←
    checkAll (itemEntry crypto input) 0 (record.items.getD []) fetcher
  let (outcomes, merkleIssues, fetcher) ←
    checkAll (commitOutcome crypto input) 0 (record.merkle.getD []) fetcher
  let issues := issues ++ itemIssues ++ merkleIssues ++
    floorIssues outcomes (anyCommitmentVerified items outcomes)
  .ok (assembleReport skeleton issues (verdictFromIssues issues) items
    (outcomes.map fun o => ⟨o.contentCheck⟩) (some record) signatures fetcher.audit)

/-- The report on a record that is not final yet. -/
def pendingReport (record : PoeRecord) (validation : List VerifierIssue) (blockInfo : BlockInfo)
    (skeleton : ReportSkeleton) (fetcher : GatewayFetcher σ) : VerifyReport :=
  let issues := validation ++
    [.new .insufficientConfirmations []
      (s!"confirmation depth {blockInfo.confirmationDepth} is below the threshold " ++
        s!"{skeleton.threshold}; signature, content, and decryption steps did not run")]
  assembleReport skeleton issues .pending
    (List.replicate (record.items.getD []).length .default)
    (List.replicate (record.merkle.getD []).length .default) (some record) none fetcher.audit

/-- From the structural validation on. -/
def runRecordPipeline (recordBody : List UInt8) (blockInfo : BlockInfo) (input : VerifyTxInput)
    (skeleton : ReportSkeleton) (fetcher : GatewayFetcher σ) : Except VerifierPanic VerifyReport :=
  match validatePoeRecord recordBody input.validatorOptions with
  | .fail issues =>
      .ok (reportWithoutRecord skeleton (issues.map .ofValidation) .failed fetcher.audit)
  | .ok record warnings info =>
      let validation := warnings.map .ofValidation ++ info.map .ofValidation
      if blockInfo.confirmationDepth < skeleton.threshold then
        .ok (pendingReport record validation blockInfo skeleton fetcher)
      else runRecordChecks crypto record validation input skeleton fetcher

/-! ## Entry points -/

/-- The fields of every report of a run. -/
def VerifyTxInput.skeleton (input : VerifyTxInput) : ReportSkeleton where
  txHash := input.txHash
  network := input.cardanoNetwork.id
  profile := input.profile
  threshold := input.threshold
  chainFacts := none
  txDescription := .default

/-- The metadata labels of a transaction, unless its auxiliary data does not decode. -/
def metadataLabels (slices : TxSlices) : Option (List ℕ) :=
  match slices.auxData with
  | none => some []
  | some aux => (unwrapAuxiliaryData aux).toOption.map UnwrappedAux.labels

/-- The description of a bound transaction. What does not decode is left out. -/
def decodeTxDescription (slices : TxSlices) (input : VerifyTxInput) : TxDescription where
  txWitnesses := some (TxWitnesses.decodeTxWitnesses crypto.signing
    ⟨crypto.sealing.sha256, crypto.blake2b256⟩ slices.witnessSet slices.txBody)
  txSummary := (TxWitnesses.decodeTxSummary crypto.unicode slices.txBody slices.witnessSet
    input.cardanoNetwork).toOption
  metadataLabels := metadataLabels slices

/-- The label-309 value of a bound transaction. -/
def label309Value (slices : TxSlices) : Except CarriageError (Option (List UInt8)) :=
  match slices.auxData with
  | none => .ok none
  | some aux => (unwrapAuxiliaryData aux).map UnwrappedAux.label309Value

/-- A refused carriage as an issue. -/
def carriageIssue (e : CarriageError) : VerifierIssue := .new e.code [] e.message

/-- Verify a resolved transaction. -/
def verifyResolvedTx (resolved : ResolvedTx) (input : VerifyTxInput) (fetcher : GatewayFetcher σ) :
    Except VerifierPanic VerifyReport :=
  let blockInfo : BlockInfo :=
    ⟨resolved.confirmationDepth, resolved.blockTime, some resolved.blockSlot⟩
  let skeleton := { input.skeleton with
    chainFacts := some blockInfo
    txDescription := decodeTxDescription crypto resolved.slices input }
  let failed (issue : VerifierIssue) :=
    Except.ok (reportWithoutRecord skeleton [issue] .failed fetcher.audit)
  match label309Value resolved.slices with
  | .error e => failed (carriageIssue e)
  | .ok none =>
      failed (.new .metadataNotFound []
        "the integrity-bound transaction carries no metadata under label 309")
  | .ok (some value) =>
      match reassembleLabel309Value value with
      | .error e => failed (carriageIssue e)
      | .ok recordBody => runRecordPipeline crypto recordBody blockInfo input skeleton fetcher

/-- Verify the transaction of the input. A build without a client of its own has no transport
unless it is given one. -/
def verifyTx (json : JsonPrimitives) (transport : Option (FetchTransport σ)) (state : σ)
    (input : VerifyTxInput) : Except VerifierPanic VerifyReport :=
  let unresolved (issue : VerifierIssue) (auditTrail : List HttpCallRecord) :=
    Except.ok (reportWithoutRecord input.skeleton [issue] (verdictFromIssues [issue]) auditTrail)
  match transport with
  | none =>
      unresolved (.new .providerUnavailable []
        ("no fetch transport supplied (build with the `client` feature or set " ++
          "VerifyTxInput::fetch_outbound)")) []
  | some transport =>
      match resolveCardanoTx crypto json input.txHash input.cardanoGatewayChain
          input.blockfrostProjectId (.new transport state input.denyHosts) with
      | (.error failure, fetcher) =>
          unresolved (.new failure.code [] failure.message) fetcher.audit
      | (.ok resolved, fetcher) => verifyResolvedTx crypto resolved input fetcher

variable {crypto} in
/-- What resolves is verified. -/
theorem verifyTx_eq_of_resolved {json : JsonPrimitives} {transport : FetchTransport σ} {state : σ}
    {input : VerifyTxInput} {resolved : ResolvedTx} {fetcher : GatewayFetcher σ}
    (h : resolveCardanoTx crypto json input.txHash input.cardanoGatewayChain
      input.blockfrostProjectId (.new transport state input.denyHosts) = (.ok resolved, fetcher)) :
    verifyTx crypto json (some transport) state input =
      verifyResolvedTx crypto resolved input fetcher := by
  rw [verifyTx]
  dsimp only
  rw [h]

/-- A block info whose depth is no depth of a block. -/
inductive ZeroConfirmationDepthError
  | zeroDepth
  deriving DecidableEq

/-- Verify a record body of which the caller knows the block. -/
def verifyRecordBytes (recordBody : List UInt8) (blockInfo : BlockInfo)
    (transport : FetchTransport σ) (state : σ) (input : VerifyTxInput) :
    Except ZeroConfirmationDepthError (Except VerifierPanic VerifyReport) :=
  if blockInfo.confirmationDepth = 0 then .error .zeroDepth
  else
    .ok (runRecordPipeline crypto recordBody blockInfo input
      { input.skeleton with chainFacts := some blockInfo }
      (.new transport state input.denyHosts))

end Pipeline

end Label309
