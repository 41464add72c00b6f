import Label309.Verifier.Keyring
import Label309.Verifier.UnsupportedSigs

/-!
# The signature step

What the step adds to the issues of a run. An error at an entry is the reason of its check, and
an entry that is unsupported already is not called so again. An unrecognised entry is therefore
tolerated exactly when its signer key resolves.
-/
namespace Label309
open SortByKey

/-! ## One check -/

/-- The check fails the record. -/
def CheckFails (check : SignatureCheck) : Prop :=
  ∃ reason, check.reason = some reason ∧ reason ≠ .signatureUnsupported

theorem severity_reason_iff (reason : SigFailureReason) :
    reason.errorCode.severity = .error ↔ reason ≠ .signatureUnsupported := by
  cases reason <;> decide

/-- The step adds errors for the failing checks only. -/
theorem mem_pushSignatureIssue {issues : List VerifierIssue} {check : SignatureCheck}
    {issue : VerifierIssue} (herror : issue.severity = .error) :
    issue ∈ pushSignatureIssue issues check ↔
      issue ∈ issues ∨ ∃ reason, check.reason = some reason ∧ reason ≠ .signatureUnsupported ∧
        issue = .new reason.errorCode (sigPath check.index) (signatureFailureMessage reason) := by
  rw [pushSignatureIssue.eq_def]
  cases hreason : check.reason with
  | none => simp
  | some reason =>
      dsimp only
      by_cases hunsupported : reason = .signatureUnsupported
      · rw [if_pos hunsupported]
        have hnew : issue ≠ .new reason.errorCode (sigPath check.index)
            (signatureFailureMessage reason) := by
          intro heq
          rw [heq] at herror
          exact (severity_reason_iff reason).mp herror hunsupported
        rw [pushIssueOnce]
        split_ifs
        · simp [hunsupported]
        · simp [hunsupported, hunsupported ▸ hnew]
      · rw [if_neg hunsupported]
        simp [hunsupported]

/-- An issue that differs in its message alone is not pushed again. -/
theorem pushIssueOnce_of_mem {issues : List VerifierIssue} {existing issue : VerifierIssue}
    (h : existing ∈ issues) (hcode : existing.code = issue.code)
    (hseverity : existing.severity = issue.severity) (hpath : existing.path = issue.path) :
    pushIssueOnce issues issue = issues := by
  rw [pushIssueOnce, if_pos]
  rw [List.any_eq_true]
  exact ⟨existing, h, by simp [hcode, hseverity, hpath]⟩

/-- The entry is called unsupported once, as an information. -/
def UnsupportedOnce (i : ℕ) (issues : List VerifierIssue) : Prop :=
  issues.countP (UnsupportedAt i) = 1 ∧
    ∃ issue ∈ issues, UnsupportedAt i issue ∧ issue.severity = .info

theorem UnsupportedOnce.append {i : ℕ} {issues rest : List VerifierIssue}
    (h : UnsupportedOnce i issues) (hrest : ∀ issue ∈ rest, ¬ UnsupportedAt i issue) :
    UnsupportedOnce i (issues ++ rest) := by
  have hzero : rest.countP (UnsupportedAt i) = 0 := by
    rw [List.countP_eq_zero]
    intro issue hissue
    simpa using hrest issue hissue
  obtain ⟨issue, hissue, hat⟩ := h.2
  refine ⟨?_, issue, List.mem_append_left _ hissue, hat⟩
  rw [List.countP_append, h.1, hzero]

theorem errorCode_eq_unsupported {reason : SigFailureReason}
    (h : reason.errorCode = .signatureUnsupported) : reason = .signatureUnsupported := by
  cases reason <;> first | rfl | cases h

theorem UnsupportedOnce.push {i : ℕ} {issues : List VerifierIssue} (h : UnsupportedOnce i issues)
    (check : SignatureCheck) : UnsupportedOnce i (pushSignatureIssue issues check) := by
  rw [pushSignatureIssue.eq_def]
  cases hreason : check.reason with
  | none => exact h
  | some reason =>
      dsimp only
      by_cases hunsupported : reason = .signatureUnsupported
      · subst hunsupported
        rw [if_pos rfl]
        by_cases hindex : check.index = i
        · obtain ⟨issue, hissue, hat, hseverity⟩ := h.2
          rw [pushIssueOnce_of_mem hissue hat.1 hseverity (hat.2.trans (congrArg sigPath hindex.symm))]
          exact h
        · rw [pushIssueOnce]
          split_ifs
          · exact h
          · apply h.append
            intro issue hissue hat
            rw [List.mem_singleton.mp hissue] at hat
            exact hindex (sigPath_inj.mp hat.2)
      · rw [if_neg hunsupported]
        apply h.append
        intro issue hissue hat
        rw [List.mem_singleton.mp hissue] at hat
        exact hunsupported (errorCode_eq_unsupported hat.1)

/-! ## All checks -/

theorem mem_foldl_pushSignatureIssue {checks : List SignatureCheck} {issues : List VerifierIssue}
    {issue : VerifierIssue} (herror : issue.severity = .error) :
    issue ∈ checks.foldl pushSignatureIssue issues ↔
      issue ∈ issues ∨ ∃ check ∈ checks, ∃ reason, check.reason = some reason ∧
        reason ≠ .signatureUnsupported ∧
        issue = .new reason.errorCode (sigPath check.index) (signatureFailureMessage reason) := by
  induction checks generalizing issues with
  | nil => simp
  | cons check checks ih =>
      rw [List.foldl_cons, ih, mem_pushSignatureIssue herror, or_assoc]
      simp only [List.mem_cons, exists_eq_or_imp]

theorem UnsupportedOnce.foldl {i : ℕ} {issues : List VerifierIssue} (h : UnsupportedOnce i issues)
    (checks : List SignatureCheck) :
    UnsupportedOnce i (checks.foldl pushSignatureIssue issues) := by
  induction checks generalizing issues with
  | nil => exact h
  | cons check checks ih => exact ih (h.push check)

section Run
variable {crypto : VerifierPrimitives} {record : PoeRecord} {input : VerifyTxInput}

/-- The checks of a profile that reads signatures. -/
theorem getD_signatureChecks :
    (signatureChecks crypto record input).getD [] =
      if profileAtLeast input.profile .signed then
        verifyRecordSignatures crypto.signing record input.cardanoNetwork
      else [] := by
  rw [signatureChecks]
  by_cases hprofile : profileAtLeast input.profile .signed = true
  · rw [if_pos hprofile]
    by_cases hsigs : record.sigs.getD [] = []
    · have hnone : (record.sigs.any fun s => !s.isEmpty) = false := by
        cases hrecord : record.sigs with
        | none => rfl
        | some sigs =>
            rw [hrecord, Option.getD_some] at hsigs
            rw [hsigs]
            rfl
      simp [hnone, verifyRecordSignatures, hsigs]
    · have hsome : (record.sigs.any fun s => !s.isEmpty) = true := by
        cases hrecord : record.sigs with
        | none =>
            rw [hrecord] at hsigs
            exact absurd rfl hsigs
        | some sigs =>
            rw [hrecord, Option.getD_some] at hsigs
            simpa using hsigs
      simp [hprofile, hsome]
  · simp [hprofile]

theorem reason_index (i : ℕ) (entry : SigEntry) (body : List UInt8) (network : CardanoNetwork) :
    (verifyOne crypto.signing i entry body network).reason =
      (verifyOne crypto.signing 0 entry body network).reason := by
  have hsame := @sameVerdict_verifyOne crypto.signing i 0 entry body network
  rw [SameVerdict, SignatureCheck.mk.injEq] at hsame
  exact hsame.2.2.2.2

/-- The entry's check fails the record, at whatever position it stands. -/
def EntryFails (crypto : VerifierPrimitives) (record : PoeRecord) (network : CardanoNetwork)
    (entry : SigEntry) : Prop :=
  CheckFails (verifyOne crypto.signing 0 entry (signedRecordBody record) network)

theorem exists_check_iff :
    (∃ check ∈ verifyRecordSignatures crypto.signing record input.cardanoNetwork,
      CheckFails check) ↔
      ∃ entry ∈ record.sigs.getD [], EntryFails crypto record input.cardanoNetwork entry := by
  constructor
  · intro h
    obtain ⟨check, hcheck, reason, hreason, hne⟩ := h
    obtain ⟨i, hi⟩ := List.mem_iff_getElem?.mp hcheck
    rw [getElem?_verifyRecordSignatures, Option.map_eq_some_iff] at hi
    obtain ⟨entry, hentry, rfl⟩ := hi
    rw [reason_index] at hreason
    exact ⟨entry, List.mem_of_getElem? hentry, reason, hreason, hne⟩
  · intro h
    obtain ⟨entry, hentry, reason, hreason, hne⟩ := h
    obtain ⟨i, hi⟩ := List.mem_iff_getElem?.mp hentry
    refine ⟨_, List.mem_of_getElem?
      (getElem?_verifyRecordSignatures.trans (congrArg _ hi)), reason, ?_, hne⟩
    rw [reason_index]
    exact hreason

/-- The issues that the signature step of a run adds. -/
def signatureStepIssues (crypto : VerifierPrimitives) (record : PoeRecord) (input : VerifyTxInput)
    (blockInfo : BlockInfo) (skeleton : ReportSkeleton) : List VerifierIssue :=
  if blockInfo.confirmationDepth < skeleton.threshold then []
  else ((signatureChecks crypto record input).getD []).foldl pushSignatureIssue []

/-- The signature step of a run fails the record. -/
def SignatureStepFails (crypto : VerifierPrimitives) (record : PoeRecord) (input : VerifyTxInput)
    (blockInfo : BlockInfo) (skeleton : ReportSkeleton) : Prop :=
  ∃ issue ∈ signatureStepIssues crypto record input blockInfo skeleton, issue.severity = .error

/-- The step runs, and the profile reads signatures. -/
def ReadsSignatures (input : VerifyTxInput) (blockInfo : BlockInfo) (skeleton : ReportSkeleton) :
    Prop :=
  skeleton.threshold ≤ blockInfo.confirmationDepth ∧ profileAtLeast input.profile .signed = true

variable {blockInfo : BlockInfo} {skeleton : ReportSkeleton}

/-- The step fails the record when it runs and some entry fails. -/
theorem signatureStepFails_iff :
    SignatureStepFails crypto record input blockInfo skeleton ↔
      ReadsSignatures input blockInfo skeleton ∧
        ∃ entry ∈ record.sigs.getD [], EntryFails crypto record input.cardanoNetwork entry := by
  rw [SignatureStepFails, signatureStepIssues, getD_signatureChecks, ReadsSignatures]
  by_cases hdepth : blockInfo.confirmationDepth < skeleton.threshold
  · have hnot : ¬ skeleton.threshold ≤ blockInfo.confirmationDepth := by omega
    simp [hdepth, hnot]
  · have hle : skeleton.threshold ≤ blockInfo.confirmationDepth := by omega
    rw [if_neg hdepth]
    by_cases hprofile : profileAtLeast input.profile .signed = true
    · rw [if_pos hprofile, ← exists_check_iff]
      constructor
      · intro h
        obtain ⟨issue, hissue, herror⟩ := h
        rcases (mem_foldl_pushSignatureIssue herror).mp hissue with hnil | hpushed
        · cases hnil
        · obtain ⟨check, hcheck, reason, hreason, hne, -⟩ := hpushed
          exact ⟨⟨hle, hprofile⟩, check, hcheck, reason, hreason, hne⟩
      · intro h
        obtain ⟨-, check, hcheck, reason, hreason, hne⟩ := h
        refine ⟨.new reason.errorCode (sigPath check.index) (signatureFailureMessage reason), ?_,
          (severity_reason_iff reason).mpr hne⟩
        rw [mem_foldl_pushSignatureIssue ((severity_reason_iff reason).mpr hne)]
        exact .inr ⟨check, hcheck, reason, hreason, hne, rfl⟩
    · simp [hprofile]

/-! ## Without the unrecognised entries -/

/-- The record without its unrecognised entries. -/
def PoeRecord.withoutUnrecognised (record : PoeRecord) : PoeRecord :=
  { record with
    sigs := record.sigs.map fun sigs => sigs.filter fun entry => ¬ Unrecognised entry }

theorem mem_sigs_withoutUnrecognised {entry : SigEntry} :
    entry ∈ record.withoutUnrecognised.sigs.getD [] ↔
      entry ∈ record.sigs.getD [] ∧ ¬ Unrecognised entry := by
  rw [PoeRecord.withoutUnrecognised]
  cases record.sigs <;> simp

/-- The step fails without the unrecognised entries when it runs and another entry fails. -/
theorem signatureStepFails_without_iff :
    SignatureStepFails crypto record.withoutUnrecognised input blockInfo skeleton ↔
      ReadsSignatures input blockInfo skeleton ∧
        ∃ entry ∈ record.sigs.getD [], ¬ Unrecognised entry ∧
          EntryFails crypto record input.cardanoNetwork entry := by
  rw [signatureStepFails_iff]
  apply and_congr_right
  intro _
  constructor
  · intro h
    obtain ⟨entry, hentry, hfails⟩ := h
    obtain ⟨hentry, hrecognised⟩ := mem_sigs_withoutUnrecognised.mp hentry
    exact ⟨entry, hentry, hrecognised, hfails⟩
  · intro h
    obtain ⟨entry, hentry, hrecognised, hfails⟩ := h
    exact ⟨entry, mem_sigs_withoutUnrecognised.mpr ⟨hentry, hrecognised⟩, hfails⟩

end Run

/-! ## The other steps -/

/-- The issue does not stand at an entry of `sigs`. -/
def OffEntries (issue : VerifierIssue) : Prop := ∀ i, issue.path ≠ sigPath i

theorem OffEntries.not_unsupportedAt {issue : VerifierIssue} (h : OffEntries issue) (i : ℕ) :
    ¬ UnsupportedAt i issue := fun hat => h i hat.2

/-- An issue below the claim of a field. -/
theorem offEntries_of_path {field : String} (hfield : field ≠ "sigs") {i : ℕ}
    {rest : List PathSegment} {issue : VerifierIssue}
    (h : issue.path = .key field :: .index i :: rest) : OffEntries issue := by
  intro j
  rw [h, sigPath]
  simp [hfield]

theorem offEntries_outOfProfile (record : PoeRecord) (profile : Profile) :
    ∀ issue ∈ outOfProfileIssues record profile, OffEntries issue := by
  intro issue hissue
  rw [outOfProfileIssues] at hissue
  rcases List.mem_append.mp hissue with hsigs | hitems
  · split_ifs at hsigs
    · rw [List.mem_singleton.mp hsigs]
      intro i
      simp [VerifierIssue.new, sigPath]
    · cases hsigs
  · split_ifs at hitems
    · obtain ⟨issues, hissues, hmem⟩ := List.mem_flatten.mp hitems
      obtain ⟨i, hi, rfl⟩ := List.mem_mapIdx.mp hissues
      split_ifs at hmem
      · rw [List.mem_singleton.mp hmem]
        exact offEntries_of_path (by decide) rfl
      · cases hmem
    · cases hitems

section Claims
variable {crypto : VerifierPrimitives} {σ : Type} {field : String} {i : ℕ}

theorem offEntries_walkIssue (hfield : field ≠ "sigs") {issue : VerifierIssue}
    (h : WalkIssue [.key field, .index i] issue) : OffEntries issue := by
  obtain ⟨-, -, j, hpath⟩ := h
  exact offEntries_of_path hfield hpath

theorem offEntries_new (hfield : field ≠ "sigs") (code : ErrorCode) (rest : List PathSegment)
    (message : String) :
    ∀ issue ∈ [VerifierIssue.new code (.key field :: .index i :: rest) message],
      OffEntries issue := by
  intro issue hissue
  rw [List.mem_singleton.mp hissue]
  exact offEntries_of_path hfield rfl

/-- Where a mismatch of a provider is reported. -/
theorem offEntries_providerMismatch (hfield : field ≠ "sigs") (code : ErrorCode)
    (blob : AcquiredBlob) (message : String) :
    ∀ issue ∈ [VerifierIssue.new code (providerMismatchPath [.key field, .index i] blob) message],
      OffEntries issue := by
  rw [providerMismatchPath.eq_def]
  cases blob.uriIndex with
  | none => exact offEntries_new hfield code [] message
  | some j => exact offEntries_new hfield code [.key "uris", .index j] message

theorem post_checkItemContent (item : ItemEntry) (i : ℕ) (fetchContent : Bool)
    (policy : ContentFetchPolicy) (fetcher : GatewayFetcher σ) :
    Checking.Post OffEntries (fun _ => True)
      (checkItemContent crypto item i fetchContent policy fetcher) := by
  have hfield : "items" ≠ "sigs" := by decide
  rw [checkItemContent]
  dsimp only
  split_ifs
  · exact post_ok (by simp) trivial
  · have hblob : ∀ blob, FromSource none (item.uris.getD []) blob →
        Decides OffEntries (fun _ => True) (itemConsumer crypto item (itemPath i)) blob := by
      intro blob _
      by_cases hhashes : recomputeItemHashes crypto item.hashes blob.bytes = true
      · apply decides_of_accept
        · rw [itemConsumer, if_pos hhashes]
        · simp
        · trivial
      · apply decides_of_attributable
        · rw [itemConsumer, if_neg hhashes]
        · exact fun _ => ⟨offEntries_new hfield _ [] _, trivial⟩
        · exact offEntries_providerMismatch hfield _ blob _
    apply Checking.Post.map
      (post_walkBlobSources (fun _ => offEntries_walkIssue hfield) (fun _ => trivial) hblob true
        fetcher)
    intro walked issues fetcher hissues _
    cases walked with
    | done check => exact ⟨hissues, trivial⟩
    | exhausted limitExceeded =>
        refine ⟨?_, trivial⟩
        intro issue hmem
        rcases List.mem_append.mp hmem with hmem | hmem
        · exact hissues issue hmem
        · cases limitExceeded with
          | true => exact offEntries_new hfield _ [] _ issue hmem
          | false => exact offEntries_new hfield _ [] _ issue hmem

theorem post_decryptItem (item : ItemEntry) (i : ℕ) (credentials : List Decryption)
    (outOfBand : Option (List UInt8)) (fetchContent : Bool) (policy : ContentFetchPolicy)
    (fetcher : GatewayFetcher σ) :
    Checking.Post OffEntries (fun _ => True)
      (decryptItem crypto item i credentials outOfBand fetchContent policy fetcher) := by
  have hfield : "items" ≠ "sigs" := by decide
  rw [decryptItem.eq_def]
  cases item.keyPath with
  | none => exact post_ok (offEntries_new hfield _ [.key "enc"] _) trivial
  | some path =>
      dsimp only
      split_ifs
      · exact post_ok (offEntries_new hfield _ [.key "enc"] _) trivial
      · have hblob : ∀ blob, FromSource outOfBand (item.uris.getD []) blob →
            Decides OffEntries (fun _ => True)
              (decryptConsumer crypto path item i credentials) blob := by
          intro blob _
          cases hattempt : path.attempt crypto item credentials blob.bytes with
          | opened plaintext =>
              by_cases hhashes : recomputeItemHashes crypto item.hashes plaintext = true
              · apply decides_of_accept
                · rw [decryptConsumer, hattempt, decryptDecision, if_pos hhashes]
                · simp
                · trivial
              · apply decides_of_accept
                · rw [decryptConsumer, hattempt, decryptDecision, if_neg hhashes]
                · exact offEntries_new hfield _ [] _
                · trivial
          | headerFailure code =>
              apply decides_of_accept
              · rw [decryptConsumer, hattempt, decryptDecision]
              · exact offEntries_new hfield _ [.key "enc"] _
              · trivial
          | inputFailure code message =>
              apply decides_of_accept
              · rw [decryptConsumer, hattempt, decryptDecision]
              · exact offEntries_new hfield _ [.key "enc"] _
              · trivial
          | blobFailure =>
              apply decides_of_attributable
              · rw [decryptConsumer, hattempt, decryptDecision]
              · exact fun _ => ⟨offEntries_new hfield _ [.key "enc"] _, trivial⟩
              · exact offEntries_providerMismatch hfield _ blob _
        apply Checking.Post.map
          (post_walkBlobSources (fun _ => offEntries_walkIssue hfield) (fun _ => trivial) hblob
            fetchContent fetcher)
        intro walked issues fetcher hissues _
        cases walked with
        | done result => exact ⟨hissues, trivial⟩
        | exhausted limitExceeded =>
            refine ⟨?_, trivial⟩
            intro issue hmem
            rcases List.mem_append.mp hmem with hmem | hmem
            · exact hissues issue hmem
            · cases limitExceeded with
              | true => exact offEntries_new hfield _ [] _ issue hmem
              | false => exact offEntries_new hfield _ [] _ issue hmem

/-- A commitment that is left pending stands at its own path. -/
theorem post_checkMerkleCommit (commit : MerkleCommit) (i : ℕ) (outOfBand : Option (List UInt8))
    (fetchContent : Bool) (policy : ContentFetchPolicy) (fetcher : GatewayFetcher σ) :
    Checking.Post OffEntries
      (fun outcome => ∀ unavailable, outcome.unavailable = some unavailable →
        unavailable.path = merklePath i)
      (Verifier.checkMerkleCommit crypto commit i outOfBand fetchContent policy fetcher) := by
  have hfield : "merkle" ≠ "sigs" := by decide
  rw [Verifier.checkMerkleCommit]
  split_ifs
  · exact post_ok (offEntries_new hfield _ [.key "alg"] _) (by simp)
  · exact post_ok (by simp) (by simp)
  · have hblob : ∀ blob, FromSource outOfBand (commit.uris.getD []) blob →
        Decides OffEntries (fun _ => True) (leavesConsumer crypto commit (merklePath i)) blob := by
      intro blob _
      cases hvalidate : validateLeavesDocument crypto blob.bytes commit with
      | ok u =>
          apply decides_of_accept
          · rw [leavesConsumer, hvalidate]
          · simp
          · trivial
      | error rejection =>
          apply decides_of_attributable
          · rw [leavesConsumer, hvalidate]
          · exact fun _ => ⟨offEntries_new hfield _ [] _, trivial⟩
          · exact offEntries_providerMismatch hfield _ blob _
    apply Checking.Post.map
      (post_walkBlobSources (fun _ => offEntries_walkIssue hfield) (fun _ => trivial) hblob
        fetchContent fetcher)
    intro walked issues fetcher hissues _
    cases walked with
    | done check => exact ⟨hissues, by simp⟩
    | exhausted limitExceeded =>
        refine ⟨hissues, ?_⟩
        intro unavailable heq
        cases heq
        rfl

/-- No issue on an item stands at a signature. -/
theorem post_itemEntry (input : VerifyTxInput) (i : ℕ) (item : ItemEntry)
    (fetcher : GatewayFetcher σ) :
    Checking.Post OffEntries (fun _ => True) (itemEntry crypto input i item fetcher) := by
  rw [itemEntry]
  split_ifs
  · exact (post_decryptItem item i _ _ _ _ fetcher).map fun _ _ _ hissues _ => ⟨hissues, trivial⟩
  · exact post_ok (by simp) trivial
  · exact (post_checkItemContent item i _ _ fetcher).map fun _ _ _ hissues _ => ⟨hissues, trivial⟩

end Claims

theorem offEntries_floorIssues {outcomes : List MerkleCommitOutcome} {verified : Bool}
    (h : ∀ outcome ∈ outcomes, ∀ unavailable, outcome.unavailable = some unavailable →
      ∃ i, unavailable.path = merklePath i) :
    ∀ issue ∈ floorIssues outcomes verified, OffEntries issue := by
  intro issue hissue
  obtain ⟨outcome, houtcome, hmap⟩ := List.mem_filterMap.mp hissue
  obtain ⟨unavailable, hunavailable, rfl⟩ := Option.map_eq_some_iff.mp hmap
  obtain ⟨i, hpath⟩ := h outcome houtcome unavailable hunavailable
  have hfield : "merkle" ≠ "sigs" := by decide
  split_ifs
  · exact offEntries_of_path hfield hpath
  · exact offEntries_of_path hfield hpath
  · exact offEntries_of_path hfield hpath

/-! ## Reports -/

section Report
variable {crypto : VerifierPrimitives} {σ : Type} {record : PoeRecord} {input : VerifyTxInput}
  {skeleton : ReportSkeleton} {fetcher : GatewayFetcher σ} {report : VerifyReport}

/-- The checks add no issue at a signature but those of the signature step. -/
theorem issues_of_checksRun {validation : List VerifierIssue}
    (run : ChecksRun crypto record validation input skeleton fetcher report) :
    ∃ rest, report.issues.Perm (issuesWithSignatures crypto record input validation ++ rest) ∧
      ∀ issue ∈ rest, OffEntries issue := by
  have hitems := post_checkAll (fun i item fetcher => post_itemEntry input i item fetcher) 0 _ _
    _ _ _ run.itemsRun
  have hmerkle := post_checkAll
    (fun i commit fetcher => post_checkMerkleCommit commit i _ _ _ fetcher) 0 _ _ _ _ _
    run.merkleRun
  refine ⟨run.itemIssues ++ run.merkleIssues ++
    floorIssues run.outcomes (anyCommitmentVerified run.items run.outcomes), ?_, ?_⟩
  · have hissues := congrArg VerifyReport.issues run.report_eq
    rw [hissues]
    dsimp only [assembleReport, sortVerifierIssues]
    rw [← List.append_assoc, ← List.append_assoc]
    exact perm_sortBy _
  · intro issue hissue
    rcases List.mem_append.mp hissue with hissue | hfloor
    · rcases List.mem_append.mp hissue with hitem | hcommit
      · exact hitems.1 issue hitem
      · exact hmerkle.1 issue hcommit
    · refine offEntries_floorIssues ?_ issue hfloor
      intro outcome houtcome unavailable hunavailable
      obtain ⟨j, hj⟩ := List.mem_iff_getElem?.mp houtcome
      obtain ⟨hlt, -⟩ := List.getElem?_eq_some_iff.mp hj
      rw [hmerkle.2.1] at hlt
      exact ⟨_, hmerkle.2.2 j _ outcome (List.getElem?_eq_getElem hlt) hj unavailable
        hunavailable⟩

section Accepted
variable {recordBody : List UInt8} {options : ValidatorOptions}
  {warnings info : List ValidationIssue}
  (hvalid : validatePoeRecord recordBody options = .ok record warnings info)
include hvalid

/-- An unrecognised entry is called unsupported before the signature step. -/
theorem unsupportedOnce_validation {i : ℕ} {entry : SigEntry}
    (hentry : (record.sigs.getD [])[i]? = some entry) (hun : Unrecognised entry) :
    UnsupportedOnce i (validationIssues warnings info) := by
  obtain ⟨hwarnings, hinfo⟩ := validation_unsupported hvalid hentry hun
  have hcount : (validationIssues warnings info).countP (UnsupportedAt i) = 1 := by
    rw [validationIssues, List.countP_append]
    rw [timesUnsupported] at hwarnings hinfo
    rw [hwarnings, hinfo]
  refine ⟨hcount, ?_⟩
  have hpos : 0 < (info.map VerifierIssue.ofValidation).countP (UnsupportedAt i) := by
    rw [timesUnsupported] at hinfo
    omega
  obtain ⟨issue, hissue, hat⟩ := List.countP_pos_iff.mp hpos
  refine ⟨issue, List.mem_append_right _ hissue, of_decide_eq_true hat, ?_⟩
  obtain ⟨pairs, -, -, rfl⟩ := issues_of_accepted hvalid
  obtain ⟨found, hfound, rfl⟩ := List.mem_map.mp hissue
  have hseverity := (List.mem_filter.mp hfound).2
  simpa [VerifierIssue.ofValidation] using hseverity

end Accepted

/-- An error at an entry of a checked record is that of the entry's own check. -/
theorem exists_error_iff {validation : List VerifierIssue}
    (hvalidation : ∀ issue ∈ validation, issue.severity ≠ .error) {i : ℕ} {entry : SigEntry}
    (hentry : (record.sigs.getD [])[i]? = some entry) :
    (∃ issue ∈ issuesWithSignatures crypto record input validation,
      issue.path = sigPath i ∧ issue.severity = .error) ↔
      profileAtLeast input.profile .signed = true ∧
        EntryFails crypto record input.cardanoNetwork entry := by
  rw [issuesWithSignatures, getD_signatureChecks]
  constructor
  · intro h
    obtain ⟨issue, hissue, hpath, herror⟩ := h
    rcases (mem_foldl_pushSignatureIssue herror).mp hissue with hbase | hpushed
    · rcases List.mem_append.mp hbase with hvalid | hprofile
      · exact absurd herror (hvalidation issue hvalid)
      · exact absurd hpath (offEntries_outOfProfile record input.profile issue hprofile i)
    · obtain ⟨check, hcheck, reason, hreason, hne, rfl⟩ := hpushed
      split_ifs at hcheck with hprofile
      · obtain ⟨j, hj⟩ := List.mem_iff_getElem?.mp hcheck
        rw [getElem?_verifyRecordSignatures, Option.map_eq_some_iff] at hj
        obtain ⟨entry', hentry', rfl⟩ := hj
        have hji := sigPath_inj.mp hpath
        rw [index_verifyOne] at hji
        subst hji
        rw [hentry] at hentry'
        cases hentry'
        rw [reason_index] at hreason
        exact ⟨hprofile, reason, hreason, hne⟩
      · cases hcheck
  · intro h
    obtain ⟨hprofile, reason, hreason, hne⟩ := h
    rw [if_pos hprofile]
    have herror := (severity_reason_iff reason).mpr hne
    refine ⟨.new reason.errorCode (sigPath i) (signatureFailureMessage reason), ?_, rfl, herror⟩
    rw [mem_foldl_pushSignatureIssue herror]
    right
    refine ⟨verifyOne crypto.signing i entry (signedRecordBody record) input.cardanoNetwork,
      ?_, reason, ?_, hne, ?_⟩
    · exact List.mem_of_getElem? (getElem?_verifyRecordSignatures.trans (congrArg _ hentry))
    · rw [reason_index]
      exact hreason
    · rw [index_verifyOne]

/-! ## Tolerance -/

/-- The run tolerates the unrecognised entries of the record: each is reported as unsupported
once and never as an error, and the signature step fails with them just if it fails without. -/
structure ToleratesUnrecognised (crypto : VerifierPrimitives) (record : PoeRecord)
    (input : VerifyTxInput) (blockInfo : BlockInfo) (skeleton : ReportSkeleton)
    (report : VerifyReport) : Prop where
  reported : ∀ i entry, (record.sigs.getD [])[i]? = some entry → Unrecognised entry →
    (∀ issue ∈ report.issues, issue.path = sigPath i → issue.severity ≠ .error) ∧
      report.issues.countP (UnsupportedAt i) = 1
  removable : SignatureStepFails crypto record input blockInfo skeleton ↔
    SignatureStepFails crypto record.withoutUnrecognised input blockInfo skeleton

variable {recordBody : List UInt8} {blockInfo : BlockInfo} {warnings info : List ValidationIssue}

/-- The entries of an accepted record are structurally valid. -/
theorem exists_detached {options : ValidatorOptions}
    (hvalid : validatePoeRecord recordBody options = .ok record warnings info) {entry : SigEntry}
    (hentry : entry ∈ record.sigs.getD []) :
    ∃ header, IsDetachedSign1 entry.coseSign1 header := by
  obtain ⟨pairs, -, hgrammar, hrecord⟩ := grammar_of_accepted hvalid
  have hsigs := sigs_of_recordFromCbor hrecord
  cases hfield : mapGet pairs "sigs" with
  | none =>
      simp only [hfield, arrayFromCbor, Option.some.injEq] at hsigs
      rw [← hsigs] at hentry
      cases hentry
  | some v =>
      obtain ⟨entries, rfl, -, hall⟩ := hgrammar.sigs v hfield
      simp only [hfield, arrayFromCbor, Option.map_eq_some_iff] at hsigs
      obtain ⟨sigs, hread, hsome⟩ := hsigs
      rw [← hsome, Option.getD_some] at hentry
      obtain ⟨e, he, hsig⟩ := ExceptBind.exists_of_mapM_eq_some hread hentry
      obtain ⟨header, hheader⟩ := exists_validSigEntry (hall e he) hsig
      exact ⟨header, hheader.detached⟩

/-- An unrecognised entry fails just if its key does not resolve. -/
theorem entryFails_iff {options : ValidatorOptions}
    (hvalid : validatePoeRecord recordBody options = .ok record warnings info) {entry : SigEntry}
    (hentry : entry ∈ record.sigs.getD []) (hun : Unrecognised entry) :
    EntryFails crypto record input.cardanoNetwork entry ↔ ¬ ResolvesKey entry := by
  obtain ⟨header, hheader⟩ := exists_detached hvalid hentry
  obtain ⟨reason, hreason, hresolves⟩ := @reason_of_unrecognised entry header crypto.signing 0
    (signedRecordBody record) input.cardanoNetwork hheader hun
  rw [EntryFails, CheckFails, ← hresolves, hreason]
  simp

/-- What a run on an accepted record reports at its unrecognised entries. -/
theorem reported_of_run
    (hvalid : validatePoeRecord recordBody input.validatorOptions = .ok record warnings info)
    (hrun : runRecordPipeline crypto recordBody blockInfo input skeleton fetcher = .ok report)
    {i : ℕ} {entry : SigEntry} (hentry : (record.sigs.getD [])[i]? = some entry)
    (hun : Unrecognised entry) :
    report.issues.countP (UnsupportedAt i) = 1 ∧
      ((∃ issue ∈ report.issues, issue.path = sigPath i ∧ issue.severity = .error) ↔
        ReadsSignatures input blockInfo skeleton ∧
          EntryFails crypto record input.cardanoNetwork entry) := by
  have honce := unsupportedOnce_validation hvalid hentry hun
  have hseverity := fun issue => @severity_validationIssues record recordBody
    input.validatorOptions warnings info hvalid issue
  rw [runRecordPipeline, hvalid] at hrun
  dsimp only at hrun
  rw [← validationIssues] at hrun
  split_ifs at hrun with hdepth
  · -- The report is pending, so the signature step does not run.
    cases hrun
    have hperm : (pendingReport record (validationIssues warnings info) blockInfo skeleton
        fetcher).issues.Perm (validationIssues warnings info ++ _) := perm_sortBy _
    constructor
    · rw [hperm.countP_eq]
      refine (honce.append ?_).1
      intro issue hissue hat
      rw [List.mem_singleton.mp hissue] at hat
      exact absurd hat.2 (by simp [VerifierIssue.new, sigPath])
    · have hnot : ¬ ReadsSignatures input blockInfo skeleton := by
        intro hreads
        exact absurd hreads.1 (by omega)
      simp only [hnot, false_and, iff_false, not_exists, not_and]
      intro issue hissue hpath
      rcases List.mem_append.mp (hperm.mem_iff.mp hissue) with hmem | hmem
      · exact hseverity issue hmem
      · rw [List.mem_singleton.mp hmem] at hpath
        exact absurd hpath (by simp [VerifierIssue.new, sigPath])
  · obtain ⟨run⟩ := exists_checksRun hrun
    obtain ⟨rest, hperm, hrest⟩ := issues_of_checksRun run
    constructor
    · rw [hperm.countP_eq]
      refine (UnsupportedOnce.append ?_ fun issue hissue =>
        (hrest issue hissue).not_unsupportedAt i).1
      exact (honce.append fun issue hissue =>
        (offEntries_outOfProfile record input.profile issue hissue).not_unsupportedAt i).foldl _
    · have hdepth' : skeleton.threshold ≤ blockInfo.confirmationDepth := by omega
      rw [ReadsSignatures]
      simp only [hdepth', true_and]
      rw [← exists_error_iff hseverity hentry]
      constructor
      · intro h
        obtain ⟨issue, hissue, hpath, herror⟩ := h
        rcases List.mem_append.mp (hperm.mem_iff.mp hissue) with hmem | hmem
        · exact ⟨issue, hmem, hpath, herror⟩
        · exact absurd hpath (hrest issue hmem i)
      · intro h
        obtain ⟨issue, hissue, hpath, herror⟩ := h
        exact ⟨issue, hperm.mem_iff.mpr (List.mem_append_left _ hissue), hpath, herror⟩

/-- **When the unrecognised entries are tolerated.** A run tolerates them exactly when, if it
reads signatures at all, every one of them still resolves its signer key. -/
theorem toleratesUnrecognised_iff
    (hvalid : validatePoeRecord recordBody input.validatorOptions = .ok record warnings info)
    (hrun : runRecordPipeline crypto recordBody blockInfo input skeleton fetcher = .ok report) :
    ToleratesUnrecognised crypto record input blockInfo skeleton report ↔
      (ReadsSignatures input blockInfo skeleton →
        ∀ entry ∈ record.sigs.getD [], Unrecognised entry → ResolvesKey entry) := by
  constructor
  · intro h hreads entry hentry hun
    obtain ⟨i, hi⟩ := List.mem_iff_getElem?.mp hentry
    by_contra hkey
    have hfails : EntryFails crypto record input.cardanoNetwork entry :=
      (entryFails_iff hvalid hentry hun).mpr hkey
    obtain ⟨issue, hissue, hpath, herror⟩ :=
      (reported_of_run hvalid hrun hi hun).2.mpr ⟨hreads, hfails⟩
    exact (h.reported i entry hi hun).1 issue hissue hpath herror
  · intro h
    constructor
    · intro i entry hentry hun
      obtain ⟨hcount, herror⟩ := reported_of_run hvalid hrun hentry hun
      refine ⟨?_, hcount⟩
      intro issue hissue hpath hseverity
      obtain ⟨hreads, hfails⟩ := herror.mp ⟨issue, hissue, hpath, hseverity⟩
      have hmem := List.mem_of_getElem? hentry
      exact (entryFails_iff hvalid hmem hun).mp hfails (h hreads entry hmem hun)
    · rw [signatureStepFails_iff, signatureStepFails_without_iff]
      apply and_congr_right
      intro hreads
      constructor
      · intro hexists
        obtain ⟨entry, hentry, hfails⟩ := hexists
        refine ⟨entry, hentry, ?_, hfails⟩
        intro hun
        exact (entryFails_iff hvalid hentry hun).mp hfails (h hreads entry hentry hun)
      · intro hexists
        obtain ⟨entry, hentry, -, hfails⟩ := hexists
        exact ⟨entry, hentry, hfails⟩

end Report

/-! ## Two unrecognised entries -/

/-- A detached signature with an empty protected header: no algorithm and no `kid`. -/
def bareCoseSign1 : List UInt8 :=
  [0x84, 0x40, 0xa0, 0xf6, 0x58, 0x40] ++ List.replicate 64 0

/-- A detached signature whose protected header is a `kid`. -/
def kidCoseSign1 : List UInt8 :=
  [0x84, 0x58, 0x24, 0xa1, 0x04, 0x58, 0x20] ++ sampleSigner.val ++ [0xa0, 0xf6, 0x58, 0x40] ++
    List.replicate 64 0

/-- A record with one item and one signature, the length of which is below 256. -/
def recordWithSig (coseSign1 : List UInt8) : List UInt8 :=
  [0xa3, 0x61, 0x76, 0x01] ++
    [0x64, 0x73, 0x69, 0x67, 0x73, 0x81, 0xa1, 0x6a, 0x63, 0x6f, 0x73, 0x65, 0x5f, 0x73, 0x69,
      0x67, 0x6e, 0x31, 0x58, UInt8.ofNat coseSign1.length] ++
    coseSign1 ++ sampleSignedItems

def typedWithSig (coseSign1 : List UInt8) : PoeRecord :=
  { sampleSignedRecord with sigs := some [⟨coseSign1, none⟩] }

/-- What the validator says of such a record. -/
def unsupportedInfo : List ValidationIssue := [unsupportedIssue 0]

def signedInput : VerifyTxInput where
  txHash := ""
  profile := .signed
  cardanoGatewayChain := none
  blockfrostProjectId := none
  arweaveGatewayChain := none
  ipfsGatewayChain := none
  confirmationDepthThreshold := none
  denyHosts := none
  fetchContent := false
  maxFetchBytes := none
  decryption := none
  ciphertextBytes := fun _ => none
  merkleLeaves := fun _ => none
  cardanoNetwork := .mainnet

/-- The block is deep enough. -/
def deepBlock : BlockInfo := ⟨20, 0, none⟩

def stepCrypto : VerifierPrimitives := { keyringCrypto with signing := sampleCrypto }

/-- A fetcher that is never asked. -/
def idleFetcher : GatewayFetcher Unit :=
  .new (fun s url _ => (.error (.transport url "offline"), s)) () none

set_option maxRecDepth 4000 in
/-- An entry with neither algorithm nor `kid` is accepted by the validator as unsupported, and
fails the record at its position: its signer key is unresolved. -/
theorem unrecognised_fails :
    validatePoeRecord (recordWithSig bareCoseSign1) signedInput.validatorOptions =
        .ok (typedWithSig bareCoseSign1) [] unsupportedInfo ∧
      Unrecognised ⟨bareCoseSign1, none⟩ ∧
      ∃ report, runRecordPipeline stepCrypto (recordWithSig bareCoseSign1) deepBlock signedInput
          signedInput.skeleton idleFetcher = .ok report ∧
        report.verdict = .failed ∧
        ¬ ToleratesUnrecognised stepCrypto (typedWithSig bareCoseSign1) signedInput deepBlock
          signedInput.skeleton report := by
  refine ⟨rfl, by decide, _, rfl, rfl, ?_⟩
  intro h
  have hentry := (h.reported 0 ⟨bareCoseSign1, none⟩ rfl (by decide)).1
  exact hentry (.new .signerKeyUnresolved (sigPath 0)
    (signatureFailureMessage .signerKeyUnresolved)) (by decide) rfl rfl

def kidWire : WireSign1 where
  protectedBytes := [0xa1, 0x04, 0x58, 0x20] ++ sampleSigner.val
  header := [(.unsigned 4, .bytes sampleSigner.val)]
  unprotected := []
  signature := ⟨List.replicate 64 0, rfl⟩
  isHeader := .inr ⟨by simp, rfl⟩
  headerLabels := by simp [LabelKeyed, CoseLabel.fromCbor]
  unprotectedLabels := by simp [LabelKeyed]

set_option maxRecDepth 4000 in
/-- An entry without an algorithm whose `kid` resolves is tolerated. -/
theorem toleratesUnrecognised_kid :
    ∃ report, runRecordPipeline stepCrypto (recordWithSig kidCoseSign1) deepBlock signedInput
        signedInput.skeleton idleFetcher = .ok report ∧
      ToleratesUnrecognised stepCrypto (typedWithSig kidCoseSign1) signedInput deepBlock
        signedInput.skeleton report := by
  have hvalid : validatePoeRecord (recordWithSig kidCoseSign1) signedInput.validatorOptions =
      .ok (typedWithSig kidCoseSign1) [] unsupportedInfo := rfl
  refine ⟨_, rfl, ?_⟩
  have hrun : runRecordPipeline stepCrypto (recordWithSig kidCoseSign1) deepBlock signedInput
      signedInput.skeleton idleFetcher = .ok _ := rfl
  refine (toleratesUnrecognised_iff hvalid hrun).mpr ?_
  intro _ entry hentry _
  rw [List.mem_singleton.mp hentry]
  exact ⟨kidWire, rfl, _, rfl, _, rfl, rfl⟩

end Label309
