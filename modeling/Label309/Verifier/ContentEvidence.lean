import Label309.Verifier.Attribution
import Label309.Verifier.Decrypt
import Label309.Verifier.DenyList
import Label309.Verifier.Keyring
import Label309.Verifier.MerkleCheck

/-!
# Evidence against a record

The checks of plain items, of sealed items and of commitments, each held to its sources. What a
blob must satisfy is stated for each, and what ends the walk of a sealed item without regard to
the blob.
-/
namespace Label309
open ExceptBind

section Evidence
variable (crypto : VerifierPrimitives)

/-! ## Digests -/

/-- The digest of bytes under a registered algorithm. -/
def itemDigest (alg : String) (bytes : List UInt8) : Option (List UInt8) :=
  if alg = "sha2-256" then some (crypto.sealing.sha256 bytes).val
  else if alg = "blake2b-256" then some (crypto.blake2b256 bytes).val
  else none

/-- Bytes with every digest that an item claims. -/
def HasDigests (item : ItemEntry) (bytes : List UInt8) : Prop :=
  item.hashes ≠ [] ∧ ∀ entry ∈ item.hashes, itemDigest crypto entry.1 bytes = some entry.2

theorem recomputeItemHashes_iff (item : ItemEntry) (bytes : List UInt8) :
    recomputeItemHashes crypto item.hashes bytes = true ↔ HasDigests crypto item bytes := by
  rw [recomputeItemHashes, HasDigests, Bool.and_eq_true, decide_eq_true_eq, List.all_eq_true]
  refine and_congr_right' (forall₂_congr fun entry _ => ?_)
  rw [itemDigest]
  by_cases hsha : entry.1 = "sha2-256"
  · simp [hsha]
  · by_cases hblake : entry.1 = "blake2b-256"
    · simp [hblake]
    · simp [hsha, hblake]

/-! ## Plain items -/

theorem judges_itemConsumer {item : ItemEntry} {basePath : List PathSegment}
    {outOfBand : Option (List UInt8)} {uris : List String} {blob : AcquiredBlob}
    (hsource : FromSource outOfBand uris blob) :
    Judges crypto outOfBand uris (itemConsumer crypto item basePath) id
      (fun b => ¬ HasDigests crypto item b) (fun _ => False) (HasDigests crypto item) blob := by
  by_cases hhas : recomputeItemHashes crypto item.hashes blob.bytes = true
  · have hdigests := (recomputeItemHashes_iff crypto item blob.bytes).mp hhas
    have hconsume : itemConsumer crypto item basePath blob = .ok (.accept .checked, []) := by
      rw [itemConsumer, if_pos hhas]
    refine judges_of_accept hconsume (not_not_intro hdigests) ?_ ?_
    · intro hevidence
      simp [CondemnsContent] at hevidence
    · intro _
      exact hdigests
  · have hlacks : ¬ HasDigests crypto item blob.bytes := fun hdigests =>
      hhas ((recomputeItemHashes_iff crypto item blob.bytes).mpr hdigests)
    exact judges_of_attributable hsource (if_neg hhas) hlacks (by decide) rfl rfl

theorem checkItemContent_held {σ : Type} {item : ItemEntry} {i : ℕ} {fetchContent : Bool}
    {policy : ContentFetchPolicy} {fetcher fetcher' : GatewayFetcher σ} {check : ContentCheck}
    {issues : List VerifierIssue}
    (h : checkItemContent crypto item i fetchContent policy fetcher = .ok (check, issues, fetcher')) :
    HeldToSources crypto none (item.uris.getD []) (itemConsumer crypto item (itemPath i)) id
      (fun b => ¬ HasDigests crypto item b) (fun _ => False) (HasDigests crypto item)
      (acquiredBlobs crypto policy none (item.uris.getD []) fetchContent fetcher) check issues := by
  rw [checkItemContent.eq_def] at h
  dsimp only at h
  by_cases hskips : fetchContent = false ∨ item.uris.getD [] = []
  · rw [if_pos hskips] at h
    cases h
    have hnone : acquiredBlobs crypto policy none (item.uris.getD []) fetchContent fetcher = [] := by
      cases hskips with
      | inl hfetch => simp [acquiredBlobs, hfetch]
      | inr huris => simp [acquiredBlobs, huris, uriBlobs]
    rw [hnone]
    refine ⟨⟨none, rfl, rfl⟩, ?_, ?_, ?_⟩
    · intro hevidence
      simp [CondemnsContent] at hevidence
    · intro hchecked
      cases hchecked
    · simp [offered]
  · rw [if_neg hskips] at h
    obtain ⟨hfetch, -⟩ := not_or.mp hskips
    obtain ⟨⟨stop, pushed, left⟩, hwalk, hstop⟩ := map_eq_ok.mp h
    have hallow : fetchContent = true := by simpa using hfetch
    rw [hallow]
    cases stop with
    | done found =>
        cases hstop
        exact heldToSources_of_walk (fun _ => judges_itemConsumer crypto) hwalk rfl
          fun _ hissue => .inl hissue
    | exhausted limitExceeded =>
        cases hstop
        refine heldToSources_of_walk (fun _ => judges_itemConsumer crypto) hwalk rfl ?_
        intro issue hissue
        cases List.mem_append.mp hissue with
        | inl hmem => exact .inl hmem
        | inr hmem =>
            right
            rw [List.mem_singleton.mp hmem]
            cases limitExceeded with
            | true => exact (by decide : ErrorCode.contentFetchLimitExceeded ∉ integrityCodes)
            | false => exact (by decide : ErrorCode.contentUnavailable ∉ integrityCodes)

/-! ## Commitments -/

/-- A leaves list with the root and the number of leaves that a commitment claims. -/
def HoldsLeaves (commit : MerkleCommit) (bytes : List UInt8) : Prop :=
  ∃ decoded, decodeLeavesList crypto.sealing.sha256 crypto.text.debug bytes = .ok decoded ∧
    (rootUnchecked crypto.sealing.sha256 decoded.leaves).val = commit.root ∧
    decoded.leaves.length = commit.leafCount.toNat

theorem validateLeavesDocument_iff {bytes : List UInt8} {commit : MerkleCommit} :
    validateLeavesDocument crypto bytes commit = .ok () ↔ HoldsLeaves crypto commit bytes := by
  rw [validateLeavesDocument.eq_def, HoldsLeaves]
  cases hdecode : decodeLeavesList crypto.sealing.sha256 crypto.text.debug bytes with
  | error e => simp
  | ok decoded =>
      obtain ⟨hroot, hcount⟩ := decodeLeavesList_sound _ _ hdecode
      dsimp only
      by_cases hsame : decoded.root.val = commit.root
      · by_cases hleaves : decoded.leafCount = commit.leafCount.toNat
        · simp [hsame, hleaves, hroot, ← hcount]
        · simp [hsame, hleaves, ← hcount]
      · simp [hsame, hroot]

theorem judges_leavesConsumer {commit : MerkleCommit} {basePath : List PathSegment}
    {outOfBand : Option (List UInt8)} {uris : List String} {blob : AcquiredBlob}
    (hsource : FromSource outOfBand uris blob) :
    Judges crypto outOfBand uris (leavesConsumer crypto commit basePath) id
      (fun b => ¬ HoldsLeaves crypto commit b) (fun _ => False) (HoldsLeaves crypto commit) blob := by
  cases hvalid : validateLeavesDocument crypto blob.bytes commit with
  | ok _ =>
      have hholds := (validateLeavesDocument_iff crypto).mp hvalid
      have hconsume : leavesConsumer crypto commit basePath blob = .ok (.accept .checked, []) := by
        rw [leavesConsumer, hvalid]
      refine judges_of_accept hconsume (not_not_intro hholds) ?_ ?_
      · intro hevidence
        simp [CondemnsContent] at hevidence
      · intro _
        exact hholds
  | error rejection =>
      have hlacks : ¬ HoldsLeaves crypto commit blob.bytes := by
        intro hholds
        rw [(validateLeavesDocument_iff crypto).mpr hholds] at hvalid
        cases hvalid
      have hconsume := leavesConsumer.eq_def crypto commit basePath blob
      rw [hvalid] at hconsume
      exact judges_of_attributable hsource hconsume hlacks (by decide) rfl rfl

/-- The entry is neither condemned on content evidence nor verified. -/
def LeftOpen (check : ContentCheck) (issues : List VerifierIssue) : Prop :=
  ¬ CondemnsContent check issues ∧ check ≠ .checked

theorem leftOpen_notChecked {issues : List VerifierIssue}
    (h : ∀ issue ∈ issues, issue.code ∉ integrityCodes) : LeftOpen .notChecked issues := by
  refine ⟨?_, by decide⟩
  intro hevidence
  cases hevidence with
  | inl hmismatched => cases hmismatched
  | inr hissue =>
      obtain ⟨issue, hissue, hcode⟩ := hissue
      exact h issue hissue hcode

theorem checkMerkleCommit_held {σ : Type} {commit : MerkleCommit} {i : ℕ}
    {outOfBand : Option (List UInt8)} {fetchContent : Bool} {policy : ContentFetchPolicy}
    {fetcher fetcher' : GatewayFetcher σ} {outcome : MerkleCommitOutcome}
    {issues : List VerifierIssue} (halg : commit.alg = merkleAlgId)
    (h : Verifier.checkMerkleCommit crypto commit i outOfBand fetchContent policy fetcher =
      .ok (outcome, issues, fetcher')) :
    HeldToSources crypto outOfBand (commit.uris.getD [])
      (leavesConsumer crypto commit (merklePath i)) id (fun b => ¬ HoldsLeaves crypto commit b)
      (fun _ => False) (HoldsLeaves crypto commit)
      (acquiredBlobs crypto policy outOfBand (commit.uris.getD []) fetchContent fetcher)
      outcome.contentCheck issues := by
  rw [Verifier.checkMerkleCommit.eq_def] at h
  dsimp only at h
  rw [if_neg (not_not_intro halg)] at h
  by_cases hskips : fetchContent = false ∧ outOfBand = none
  · rw [if_pos hskips] at h
    cases h
    obtain ⟨rfl, rfl⟩ := hskips
    refine ⟨⟨none, rfl, rfl⟩, ?_, ?_, ?_⟩
    · intro hevidence
      simp [CondemnsContent] at hevidence
    · intro hchecked
      cases hchecked
    · simp [acquiredBlobs, offered]
  · rw [if_neg hskips] at h
    obtain ⟨⟨stop, pushed, left⟩, hwalk, hstop⟩ := map_eq_ok.mp h
    cases stop with
    | done found =>
        cases hstop
        exact heldToSources_of_walk (fun _ => judges_leavesConsumer crypto) hwalk rfl
          fun _ hissue => .inl hissue
    | exhausted limitExceeded =>
        cases hstop
        exact heldToSources_of_walk (fun _ => judges_leavesConsumer crypto) hwalk rfl
          fun _ hissue => .inl hissue

/-- An unknown algorithm leaves the commitment open. -/
theorem checkMerkleCommit_leftOpen {σ : Type} {commit : MerkleCommit} {i : ℕ}
    {outOfBand : Option (List UInt8)} {fetchContent : Bool} {policy : ContentFetchPolicy}
    {fetcher fetcher' : GatewayFetcher σ} {outcome : MerkleCommitOutcome}
    {issues : List VerifierIssue} (halg : commit.alg ≠ merkleAlgId)
    (h : Verifier.checkMerkleCommit crypto commit i outOfBand fetchContent policy fetcher =
      .ok (outcome, issues, fetcher')) : LeftOpen outcome.contentCheck issues := by
  rw [Verifier.checkMerkleCommit.eq_def] at h
  dsimp only at h
  rw [if_pos halg] at h
  cases h
  apply leftOpen_notChecked
  intro issue hissue
  rw [List.mem_singleton.mp hissue]
  exact (by decide : ErrorCode.unsupportedMerkleCommitAlg ∉ integrityCodes)

/-! ## Sealed items -/

/-- The failures that an attempt names are no integrity codes. -/
def NamesNoEvidence : AttemptOutcome → Prop
  | .headerFailure code => code ∉ integrityCodes
  | .inputFailure code _ => code ∉ integrityCodes
  | _ => True

theorem namesNoEvidence_inputFailureFrom (e : EciesSealedPoeError) :
    NamesNoEvidence (inputFailureFrom e) := by
  rw [inputFailureFrom]
  dsimp only [NamesNoEvidence]
  cases e.code <;> decide

/-- What holds of the outcome of every passphrase holds of the keyring's. -/
theorem post_attemptPassphrases {P : AttemptOutcome → Prop} {attempt : String → AttemptOutcome}
    (hattempt : ∀ passphrase, P (attempt passphrase))
    (hempty : P (.inputFailure .kdfDerivationFailed "no passphrase credential was supplied"))
    {firstFailure : Option AttemptOutcome}
    (hfirst : ∀ failure, firstFailure = some failure → P failure) (passphrases : List String) :
    P (attemptPassphrases attempt firstFailure passphrases) := by
  induction passphrases generalizing firstFailure with
  | nil =>
      rw [attemptPassphrases]
      cases firstFailure with
      | none => exact hempty
      | some failure => exact hfirst failure rfl
  | cons passphrase passphrases ih =>
      have houtcome := hattempt passphrase
      have hnext : ∀ failure, firstFailure.or (some (attempt passphrase)) = some failure →
          P failure := by
        intro failure hfailure
        cases hor : firstFailure with
        | none =>
            rw [hor] at hfailure
            cases hfailure
            exact houtcome
        | some earlier =>
            rw [hor] at hfailure
            cases hfailure
            exact hfirst failure hor
      rw [attemptPassphrases]
      cases hsame : attempt passphrase with
      | opened plaintext => rwa [hsame] at houtcome
      | _ =>
          rw [hsame] at hnext
          exact ih hnext

theorem namesNoEvidence_attempt (path : KeyPath) (item : ItemEntry) (credentials : List Decryption)
    (blob : List UInt8) : NamesNoEvidence (path.attempt crypto item credentials blob) := by
  cases path with
  | slots enc =>
      rw [KeyPath.attempt, attemptSlotsPath.eq_def]
      split
      · exact (by decide : ErrorCode.tamperedHeader ∉ integrityCodes)
      · rw [unwrapOutcome.eq_def]
        split
        · exact namesNoEvidence_inputFailureFrom _
        · trivial
        · exact (by decide : ErrorCode.wrongRecipientKey ∉ integrityCodes)
        · exact (by decide : ErrorCode.tamperedHeader ∉ integrityCodes)
        · trivial
  | passphrase enc block =>
      rw [KeyPath.attempt, attemptPassphrasePath.eq_def]
      split
      · refine post_attemptPassphrases ?_ ?_ (by simp) _
        swap
        · exact (by decide : ErrorCode.kdfDerivationFailed ∉ integrityCodes)
        intro passphrase
        rw [attemptPassphrase, passphraseOutcome.eq_def]
        split
        · exact namesNoEvidence_inputFailureFrom _
        · trivial
        · trivial
      · exact (by decide : ErrorCode.kdfDerivationFailed ∉ integrityCodes)

/-- **A header failure is the same for every blob.** -/
theorem headerFailure_of_any {path : KeyPath} {item : ItemEntry} {credentials : List Decryption}
    {blob : List UInt8} {code : ErrorCode}
    (h : path.attempt crypto item credentials blob = .headerFailure code) (blob' : List UInt8) :
    path.attempt crypto item credentials blob' = .headerFailure code := by
  cases path with
  | slots enc =>
      rw [KeyPath.attempt, attemptSlotsPath.eq_def] at h ⊢
      cases henvelope : sealedEnvelopeFromParsed (toParsedEnvelope enc) with
      | none =>
          rw [henvelope] at h
          exact h
      | some envelope =>
          rw [henvelope] at h
          dsimp only at h ⊢
          rw [eciesSealedPoeUnwrap] at h ⊢
          cases hheader : unwrapHeader crypto.sealing envelope (itemHashes item)
              (.multi (recipientKeys credentials)) with
          | error e =>
              rw [hheader] at h
              cases h
          | ok outcome =>
              rw [hheader] at h
              cases outcome with
              | notMatched reason =>
                  have hreason : unwrapOutcome (.ok (.notMatched reason)) = .headerFailure code := h
                  exact hreason
              | accepted cek =>
                  simp only [Except.map, unwrapContent] at h
                  cases hopen : streamOpen crypto.sealing.aead
                      (slotsPayloadKey crypto.sealing cek.val envelope.nonce) blob with
                  | none =>
                      rw [hopen] at h
                      cases h
                  | some plaintext =>
                      rw [hopen] at h
                      cases h
  | passphrase enc block =>
      -- A passphrase is never refused for the header.
      have hnever : ∀ code', (KeyPath.passphrase enc block).attempt crypto item credentials blob ≠
          .headerFailure code' := by
        rw [KeyPath.attempt, attemptPassphrasePath.eq_def]
        split
        · apply post_attemptPassphrases (P := fun outcome => ∀ code', outcome ≠ .headerFailure code')
          · intro passphrase code'
            rw [attemptPassphrase, passphraseOutcome.eq_def]
            split
            · simp [inputFailureFrom]
            · simp
            · simp
          · simp
          · simp
        · simp
      exact absurd h (hnever code)

section Sealed
variable (path : KeyPath) (item : ItemEntry) (credentials : List Decryption)

/-- A blob that fails the decryption layer. -/
def FailsToOpen (blob : List UInt8) : Prop :=
  path.attempt crypto item credentials blob = .blobFailure

/-- A blob that opens under the envelope, to a plaintext with the claimed digests. -/
def OpensToClaimed (blob : List UInt8) : Prop :=
  ∃ plaintext, path.attempt crypto item credentials blob = .opened plaintext ∧
    HasDigests crypto item plaintext

/-- A blob that opens under the envelope, to another plaintext. -/
def OpensToOther (blob : List UInt8) : Prop :=
  ∃ plaintext, path.attempt crypto item credentials blob = .opened plaintext ∧
    ¬ HasDigests crypto item plaintext

end Sealed

variable {path : KeyPath} {item : ItemEntry} {i : ℕ} {credentials : List Decryption}

theorem judges_decryptConsumer {outOfBand : Option (List UInt8)} {uris : List String}
    {blob : AcquiredBlob} (hsource : FromSource outOfBand uris blob) :
    Judges crypto outOfBand uris (decryptConsumer crypto path item i credentials)
      ItemDecryptionResult.contentCheck (FailsToOpen crypto path item credentials)
      (OpensToOther crypto path item credentials) (OpensToClaimed crypto path item credentials)
      blob := by
  have hnames := namesNoEvidence_attempt crypto path item credentials blob.bytes
  have hconsume : decryptConsumer crypto path item i credentials blob =
      decryptDecision crypto item i blob (path.attempt crypto item credentials blob.bytes) := rfl
  cases hattempt : path.attempt crypto item credentials blob.bytes with
  | opened plaintext =>
      rw [hattempt, decryptDecision] at hconsume
      have hopens : ¬ FailsToOpen crypto path item credentials blob.bytes := by
        intro hfails
        rw [FailsToOpen, hattempt] at hfails
        cases hfails
      by_cases hhas : recomputeItemHashes crypto item.hashes plaintext = true
      · rw [if_pos hhas] at hconsume
        refine judges_of_accept hconsume hopens ?_ ?_
        · intro hevidence
          simp [CondemnsContent] at hevidence
        · intro _
          exact ⟨plaintext, hattempt, (recomputeItemHashes_iff crypto item plaintext).mp hhas⟩
      · rw [if_neg hhas] at hconsume
        refine judges_of_accept hconsume hopens ?_ ?_
        · intro _
          exact ⟨plaintext, hattempt,
            fun hdigests => hhas ((recomputeItemHashes_iff crypto item plaintext).mpr hdigests)⟩
        · intro hchecked
          cases hchecked
  | blobFailure =>
      rw [hattempt] at hconsume
      exact judges_of_attributable hsource hconsume hattempt (by decide) rfl rfl
  | headerFailure code =>
      rw [hattempt] at hconsume hnames
      refine judges_of_accept hconsume ?_ ?_ ?_
      · intro hfails
        rw [FailsToOpen, hattempt] at hfails
        cases hfails
      · intro hevidence
        refine absurd hevidence (leftOpen_notChecked ?_).1
        intro issue hissue
        rw [List.mem_singleton.mp hissue]
        exact hnames
      · intro hchecked
        cases hchecked
  | inputFailure code message =>
      rw [hattempt] at hconsume hnames
      refine judges_of_accept hconsume ?_ ?_ ?_
      · intro hfails
        rw [FailsToOpen, hattempt] at hfails
        cases hfails
      · intro hevidence
        refine absurd hevidence (leftOpen_notChecked ?_).1
        intro issue hissue
        rw [List.mem_singleton.mp hissue]
        exact hnames
      · intro hchecked
        cases hchecked

section Run
variable {σ : Type} {outOfBand : Option (List UInt8)} {fetchContent : Bool}
  {policy : ContentFetchPolicy} {fetcher fetcher' : GatewayFetcher σ}
  {result : ItemDecryptionResult} {issues : List VerifierIssue}

theorem decryptItem_held (hpath : item.keyPath = some path)
    (happlicable : path.applicable credentials ≠ 0)
    (h : decryptItem crypto item i credentials outOfBand fetchContent policy fetcher =
      .ok (result, issues, fetcher')) :
    HeldToSources crypto outOfBand (item.uris.getD [])
      (decryptConsumer crypto path item i credentials) ItemDecryptionResult.contentCheck
      (FailsToOpen crypto path item credentials) (OpensToOther crypto path item credentials)
      (OpensToClaimed crypto path item credentials)
      (acquiredBlobs crypto policy outOfBand (item.uris.getD []) fetchContent fetcher)
      result.contentCheck issues := by
  rw [decryptItem.eq_def, hpath] at h
  dsimp only at h
  rw [if_neg happlicable] at h
  obtain ⟨⟨stop, pushed, left⟩, hwalk, hstop⟩ := map_eq_ok.mp h
  cases stop with
  | done found =>
      cases hstop
      exact heldToSources_of_walk (fun _ => judges_decryptConsumer crypto) hwalk rfl
        fun _ hissue => .inl hissue
  | exhausted limitExceeded =>
      cases limitExceeded with
      | true =>
          cases hstop
          refine heldToSources_of_walk (fun _ => judges_decryptConsumer crypto) hwalk rfl ?_
          intro issue hissue
          cases List.mem_append.mp hissue with
          | inl hmem => exact .inl hmem
          | inr hmem =>
              right
              rw [List.mem_singleton.mp hmem]
              exact (by decide : ErrorCode.contentFetchLimitExceeded ∉ integrityCodes)
      | false =>
          cases hstop
          refine heldToSources_of_walk (fun _ => judges_decryptConsumer crypto) hwalk rfl ?_
          intro issue hissue
          cases List.mem_append.mp hissue with
          | inl hmem => exact .inl hmem
          | inr hmem =>
              right
              rw [List.mem_singleton.mp hmem]
              exact (by decide : ErrorCode.ciphertextUnavailable ∉ integrityCodes)

/-- Without a key path that a credential applies to, the item is left open. -/
theorem decryptItem_leftOpen
    (hnone : ∀ path, item.keyPath = some path → path.applicable credentials = 0)
    (h : decryptItem crypto item i credentials outOfBand fetchContent policy fetcher =
      .ok (result, issues, fetcher')) : LeftOpen result.contentCheck issues := by
  rw [decryptItem.eq_def] at h
  cases hpath : item.keyPath with
  | none =>
      rw [hpath] at h
      cases h
      apply leftOpen_notChecked
      intro issue hissue
      rw [List.mem_singleton.mp hissue]
      exact (by decide : ErrorCode.tamperedHeader ∉ integrityCodes)
  | some path =>
      rw [hpath] at h
      dsimp only at h
      rw [if_pos (hnone path hpath)] at h
      cases h
      apply leftOpen_notChecked
      intro issue hissue
      rw [List.mem_singleton.mp hissue]
      exact (by decide : ErrorCode.wrongDecryptionInputShape ∉ integrityCodes)

end Run

/-! ## All checks -/

/-- **A gateway that cannot be held to a content address condemns no record.** Every check that
returns is held to its sources. The only other ends of a walk are a response over the ceiling,
after which nothing is acquired, and for a sealed item what the credentials meet before the blob:
a header failure is the same for every blob. -/
theorem contentEvidence_held {σ : Type} (policy : ContentFetchPolicy) (fetchContent : Bool)
    (fetcher : GatewayFetcher σ) (i : ℕ) :
    (∀ item check issues fetcher',
      checkItemContent crypto item i fetchContent policy fetcher = .ok (check, issues, fetcher') →
      HeldToSources crypto none (item.uris.getD []) (itemConsumer crypto item (itemPath i)) id
        (fun b => ¬ HasDigests crypto item b) (fun _ => False) (HasDigests crypto item)
        (acquiredBlobs crypto policy none (item.uris.getD []) fetchContent fetcher) check issues) ∧
    (∀ commit outOfBand outcome issues fetcher',
      Verifier.checkMerkleCommit crypto commit i outOfBand fetchContent policy fetcher =
        .ok (outcome, issues, fetcher') →
      (commit.alg = merkleAlgId →
        HeldToSources crypto outOfBand (commit.uris.getD [])
          (leavesConsumer crypto commit (merklePath i)) id
          (fun b => ¬ HoldsLeaves crypto commit b) (fun _ => False) (HoldsLeaves crypto commit)
          (acquiredBlobs crypto policy outOfBand (commit.uris.getD []) fetchContent fetcher)
          outcome.contentCheck issues) ∧
      (commit.alg ≠ merkleAlgId → LeftOpen outcome.contentCheck issues)) ∧
    (∀ item credentials outOfBand result issues fetcher',
      decryptItem crypto item i credentials outOfBand fetchContent policy fetcher =
        .ok (result, issues, fetcher') →
      (∀ path, item.keyPath = some path → path.applicable credentials ≠ 0 →
        HeldToSources crypto outOfBand (item.uris.getD [])
          (decryptConsumer crypto path item i credentials) ItemDecryptionResult.contentCheck
          (FailsToOpen crypto path item credentials) (OpensToOther crypto path item credentials)
          (OpensToClaimed crypto path item credentials)
          (acquiredBlobs crypto policy outOfBand (item.uris.getD []) fetchContent fetcher)
          result.contentCheck issues) ∧
      ((∀ path, item.keyPath = some path → path.applicable credentials = 0) →
        LeftOpen result.contentCheck issues)) ∧
    ∀ (path : KeyPath) item credentials blob code,
      path.attempt crypto item credentials blob = .headerFailure code →
      ∀ blob', path.attempt crypto item credentials blob' = .headerFailure code := by
  refine ⟨?_, ?_, ?_, ?_⟩
  · intro item check issues fetcher' h
    exact checkItemContent_held crypto h
  · intro commit outOfBand outcome issues fetcher' h
    exact ⟨fun halg => checkMerkleCommit_held crypto halg h,
      fun halg => checkMerkleCommit_leftOpen crypto halg h⟩
  · intro item credentials outOfBand result issues fetcher' h
    exact ⟨fun path hpath happlicable => decryptItem_held crypto hpath happlicable h,
      fun hnone => decryptItem_leftOpen crypto hnone h⟩
  · intro path item credentials blob code h
    exact headerFailure_of_any crypto h

end Evidence

/-! ## Two gateways -/

/-- BLAKE2b-256 of the content of the sample. -/
def oneDigest : Digest :=
  ⟨[0xee, 0x15, 0x5a, 0xce, 0x9c, 0x40, 0x29, 0x20, 0x74, 0xcb, 0x6a, 0xff, 0x8c, 0x9c, 0xcd,
      0xd2, 0x73, 0xc8, 0x16, 0x48, 0xff, 0x11, 0x49, 0xef, 0x36, 0xbc, 0xea, 0x6e, 0xbb, 0x8a,
      0x3e, 0x25], rfl⟩

/-- BLAKE2b-256 of what a gateway serves in its place. -/
def nullDigest : Digest :=
  ⟨[0x03, 0x17, 0x0a, 0x2e, 0x75, 0x97, 0xb7, 0xb7, 0xe3, 0xd8, 0x4c, 0x05, 0x39, 0x1d, 0x13,
      0x9a, 0x62, 0xb1, 0x57, 0xe7, 0x87, 0x86, 0xd8, 0xc0, 0x82, 0xf2, 0x9d, 0xcf, 0x4c, 0x11,
      0x13, 0x14], rfl⟩

/-- The primitives on the two byte strings. -/
def gatewayCrypto : VerifierPrimitives :=
  { keyringCrypto with
    text := absoluteText
    blake2b256 := fun b => if b = [1] then oneDigest else nullDigest }

def arweaveUri : String := "ar://" ++ String.ofList (List.replicate 43 'A')

def twoGateways : ContentFetchPolicy := ⟨["https://one.example", "https://two.example"], [], none⟩

/-- An item on Arweave whose content is one byte. -/
def arweaveItem : ItemEntry :=
  ⟨[("blake2b-256", oneDigest.val)], some [arweaveUri], none⟩

/-- A first answer, then the content of the item from the second gateway. -/
def afterFirst (first : String → Except OutboundError FetchOutboundResult) : GatewayFetcher ℕ :=
  .new (fun calls url _ => (if calls = 0 then first url else .ok ⟨200, [1], 0⟩, calls + 1)) 0 none

theorem parseFetchTarget_arweaveUri :
    parseFetchTarget arweaveUri = some (.arweave (String.ofList (List.replicate 43 'A'))) := by
  decide

/-- A gateway that serves other bytes leaves a warning, and the second one verifies the item. -/
theorem contentEvidence_held_arweave :
    ∃ blob ∈ offered (itemConsumer gatewayCrypto arweaveItem (itemPath 0))
      (acquiredBlobs gatewayCrypto twoGateways none [arweaveUri] true
        (afterFirst fun _ => .ok ⟨200, [0], 0⟩)),
      HasDigests gatewayCrypto arweaveItem blob.bytes := by
  have hcheck : (checkItemContent gatewayCrypto arweaveItem 0 true twoGateways
      (afterFirst fun _ => .ok ⟨200, [0], 0⟩)).toOption.map Prod.fst = some .checked := by
    rw [checkItemContent]
    simp only [arweaveItem, Option.getD_some, walkBlobSources, if_true, walkUris,
      parseFetchTarget_arweaveUri]
    decide
  cases hrun : checkItemContent gatewayCrypto arweaveItem 0 true twoGateways
      (afterFirst fun _ => .ok ⟨200, [0], 0⟩) with
  | error panic =>
      rw [hrun] at hcheck
      cases hcheck
  | ok step =>
      obtain ⟨check, issues, fetcher'⟩ := step
      rw [hrun] at hcheck
      have hchecked : check = .checked := Option.some.inj hcheck
      have hheld := (contentEvidence_held gatewayCrypto twoGateways true
        (afterFirst fun _ => .ok ⟨200, [0], 0⟩) 0).1 arweaveItem check issues fetcher' hrun
      exact hheld.checked hchecked

/-- As claimed: offered bytes from any other source than those that the entry answers for, which
do not open either, only warn. -/
def OthersOnlyWarn (crypto : VerifierPrimitives) (path : KeyPath) (item : ItemEntry) (i : ℕ)
    (credentials : List Decryption) (outOfBand : Option (List UInt8))
    (blobs : List AcquiredBlob) : Prop :=
  ∀ blob ∈ offered (decryptConsumer crypto path item i credentials) blobs,
    ¬ Answerable crypto outOfBand (item.uris.getD []) blob.bytes →
    (∀ plaintext, path.attempt crypto item credentials blob.bytes ≠ .opened plaintext) →
    OnlyWarns (decryptConsumer crypto path item i credentials) blob

/-- The sealed item of the keyring, on Arweave. -/
def arweaveSealedItem : ItemEntry := { keyringItem with uris := some [arweaveUri] }

def strangerKey : Decryption := .recipient (List.replicate 32 0)

/-- A stranger's key ends the walk with an error, whatever the gateway served; and a response over
the ceiling ends it before the second gateway is asked. -/
theorem not_othersOnlyWarn :
    ¬ OthersOnlyWarn gatewayCrypto (.slots keyringEnc) arweaveSealedItem 0 [strangerKey] none
        (acquiredBlobs gatewayCrypto twoGateways none [arweaveUri] true
          (afterFirst fun _ => .ok ⟨200, [0], 0⟩)) ∧
      (checkItemContent gatewayCrypto arweaveItem 0 true twoGateways
        (afterFirst fun url => .error (.bodyTooLarge url 8))).toOption.map
          (fun run => (run.1, run.2.1.map fun issue => (issue.code, issue.severity),
            run.2.2.state)) =
        some (.notChecked, [(.contentFetchLimitExceeded, .error)], 1) := by
  constructor
  · intro h
    have hattempt : (KeyPath.slots keyringEnc).attempt gatewayCrypto arweaveSealedItem
        [strangerKey] [0] = .headerFailure .wrongRecipientKey := by
      decide
    have hoffered : offered (decryptConsumer gatewayCrypto (.slots keyringEnc) arweaveSealedItem 0
        [strangerKey]) (acquiredBlobs gatewayCrypto twoGateways none [arweaveUri] true
          (afterFirst fun _ => .ok ⟨200, [0], 0⟩)) =
        [⟨[0], some arweaveUri, some 0, .unsupported⟩] := by
      decide
    have hunanswered : ¬ Answerable gatewayCrypto none (arweaveSealedItem.uris.getD []) [0] := by
      intro hanswerable
      cases hanswerable with
      | outOfBand hbytes => cases hbytes
      | @bound uri cidAndPath cid parsed huri htarget =>
          have huri' : uri = arweaveUri := List.mem_singleton.mp huri
          rw [huri', parseFetchTarget_arweaveUri] at htarget
          cases htarget
    rw [OthersOnlyWarn, hoffered] at h
    obtain ⟨warning, hwarns, -⟩ := h _ (List.mem_singleton_self _) hunanswered (by
      intro plaintext hopened
      rw [hattempt] at hopened
      cases hopened)
    rw [decryptConsumer, hattempt] at hwarns
    cases hwarns
  · rw [checkItemContent]
    simp only [arweaveItem, Option.getD_some, walkBlobSources, if_true, walkUris,
      parseFetchTarget_arweaveUri]
    decide

end Label309
