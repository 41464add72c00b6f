import Label309.CoseRoundTrip
import Label309.PoeStandard.Rejection
import Label309.SealedPoe.WrapUnwrap
import Label309.Verifier.CarriageCodes
import Label309.Verifier.CheckRules
import Label309.Verifier.DenyList

/-!
# The verdict of a report

Every step that ends a run assembles a report of its own. In each of them the verdict is the one
that the errors call for, and the entries are those of the record.
-/
namespace Label309
open ExceptBind SortByKey

/-! ## Verdicts -/

/-- An error that the record is held to account for. -/
def Condemns (issue : VerifierIssue) : Prop :=
  issue.severity = .error ∧ issue.code ∉ networkClassCodes

/-- No issue is an error. -/
def Clean (issues : List VerifierIssue) : Prop := ∀ issue ∈ issues, issue.severity ≠ .error

/-- There are errors, and no record is held to account for any of them. -/
def OnlyNetwork (issues : List VerifierIssue) : Prop :=
  ¬ Clean issues ∧ ∀ issue ∈ issues, issue.severity = .error → issue.code ∈ networkClassCodes

theorem verdictFrom_ne_pending (saw : Bool) (issues : List VerifierIssue) :
    verdictFrom saw issues ≠ .pending := by
  induction issues generalizing saw with
  | nil => cases saw <;> simp [verdictFrom]
  | cons issue issues ih =>
      rw [verdictFrom]
      by_cases hseverity : issue.severity = .error
      · by_cases hcode : issue.code ∈ networkClassCodes
        · simpa [hseverity, hcode] using ih true
        · simp [hseverity, hcode]
      · simpa [hseverity] using ih saw

theorem verdictFrom_eq_failed_iff {saw : Bool} {issues : List VerifierIssue} :
    verdictFrom saw issues = .failed ↔ ∃ issue ∈ issues, Condemns issue := by
  induction issues generalizing saw with
  | nil => cases saw <;> simp [verdictFrom]
  | cons issue issues ih =>
      rw [verdictFrom]
      by_cases hseverity : issue.severity = .error
      · by_cases hcode : issue.code ∈ networkClassCodes
        · simp [hseverity, hcode, ih, Condemns]
        · simp [hseverity, hcode, Condemns]
      · simp [hseverity, ih, Condemns]

theorem verdictFrom_eq_valid_iff {saw : Bool} {issues : List VerifierIssue} :
    verdictFrom saw issues = .valid ↔ saw = false ∧ Clean issues := by
  induction issues generalizing saw with
  | nil => cases saw <;> simp [verdictFrom, Clean]
  | cons issue issues ih =>
      rw [verdictFrom]
      by_cases hseverity : issue.severity = .error
      · by_cases hcode : issue.code ∈ networkClassCodes
        · simp [hseverity, hcode, ih, Clean]
        · simp [hseverity, hcode, Clean]
      · simp [hseverity, ih, Clean]

theorem verdictFromIssues_eq_unverifiable_iff {issues : List VerifierIssue} :
    verdictFromIssues issues = .unverifiable ↔ OnlyNetwork issues := by
  have hvalid := @verdictFrom_eq_valid_iff false issues
  have hfailed := @verdictFrom_eq_failed_iff false issues
  have hnetwork : (∀ issue ∈ issues, issue.severity = .error → issue.code ∈ networkClassCodes) ↔
      ¬ ∃ issue ∈ issues, Condemns issue := by
    simp [Condemns]
  rw [OnlyNetwork, hnetwork, ← hfailed, verdictFromIssues]
  rw [eq_self_iff_true, true_and] at hvalid
  rw [← hvalid]
  cases hverdict : verdictFrom false issues with
  | pending => exact absurd hverdict (verdictFrom_ne_pending _ _)
  | _ => simp

/-! ## Consistent reports -/

section Consistent
variable (crypto : VerifierPrimitives) (σ : Type) (input : VerifyTxInput)

/-- The outcome of a check of a claim, whose issues are reported. -/
def CheckedAs {σ ι α : Type} (check : ℕ → ι → GatewayFetcher σ → Checking σ α)
    (issues : List VerifierIssue) (i : ℕ) (claim : ι) (entry : α) : Prop :=
  ∃ fetcher pushed fetcher', check i claim fetcher = .ok (entry, pushed, fetcher') ∧
    ∀ issue ∈ pushed, issue ∈ issues

/-- The entries of a report are those of a record, one by one. -/
structure EntriesOn (record : PoeRecord) (report : VerifyReport) : Prop where
  items : ReportsOn (fun i item entry => report.verdict = .pending ∨
    CheckedAs (itemEntry (σ := σ) crypto input) report.issues i item entry)
    0 (record.items.getD []) report.items
  merkle : ReportsOn (fun i commit entry => report.verdict = .pending ∨
    ∃ outcome, CheckedAs (commitOutcome (σ := σ) crypto input) report.issues i commit outcome ∧
      entry = ⟨outcome.contentCheck⟩)
    0 (record.merkle.getD []) report.merkle
  signatures : ∀ checks, report.recordSignatures = some checks →
    ReportsOn (fun i entry check => check = verifyOne crypto.signing i entry
      (signedRecordBody record) input.cardanoNetwork ∧ check.index = i)
      0 (record.sigs.getD []) checks

/-- A report whose verdict agrees with its evidence. `Validated` says which record validated, and
at which depth. -/
structure Consistent (Validated : PoeRecord → ℕ → Prop) (report : VerifyReport) : Prop where
  failed : report.verdict = .failed ↔ ∃ issue ∈ report.issues, Condemns issue
  unverifiable : report.verdict = .unverifiable ↔ OnlyNetwork report.issues
  pending : report.verdict = .pending ↔
    ∃ record depth, Validated record depth ∧ depth < input.threshold
  quiet : report.verdict = .pending →
    Clean report.issues ∧ (∀ entry ∈ report.items, entry = .default) ∧
      (∀ entry ∈ report.merkle, entry = .default) ∧ report.recordSignatures = none
  valid : report.verdict = .valid →
    Clean report.issues ∧ ∃ depth, report.confirmationDepth = some depth ∧ input.threshold ≤ depth
  record : ∀ record, report.record = some record ↔ ∃ depth, Validated record depth
  depth : ∀ record depth, Validated record depth → report.confirmationDepth = some depth
  entries : ∀ record, report.record = some record → EntriesOn crypto σ input record report

end Consistent

theorem CheckedAs.mono {σ ι α : Type} {check : ℕ → ι → GatewayFetcher σ → Checking σ α}
    {issues issues' : List VerifierIssue} {i : ℕ} {claim : ι} {entry : α}
    (h : CheckedAs check issues i claim entry) (hsub : ∀ issue ∈ issues, issue ∈ issues') :
    CheckedAs check issues' i claim entry := by
  obtain ⟨fetcher, pushed, fetcher', hcheck, hpushed⟩ := h
  exact ⟨fetcher, pushed, fetcher', hcheck, fun issue hissue => hsub issue (hpushed issue hissue)⟩

/-- Every claim of a list is checked once, in its place. -/
theorem reportsOn_checkAll {σ ι α : Type} {check : ℕ → ι → GatewayFetcher σ → Checking σ α}
    {i : ℕ} {claims : List ι} {fetcher fetcher' : GatewayFetcher σ} {entries : List α}
    {issues : List VerifierIssue}
    (h : checkAll check i claims fetcher = .ok (entries, issues, fetcher')) :
    ReportsOn (CheckedAs check issues) i claims entries := by
  induction claims generalizing i fetcher entries issues fetcher' with
  | nil =>
      cases h
      exact ⟨rfl, by simp⟩
  | cons claim claims ih =>
      rw [checkAll] at h
      cases hclaim : check i claim fetcher with
      | error panic =>
          rw [hclaim] at h
          cases h
      | ok step =>
          obtain ⟨entry, pushed, fetcher₁⟩ := step
          rw [hclaim] at h
          obtain ⟨⟨rest, later, fetcher₂⟩, hrest, heq⟩ := map_eq_ok.mp h
          cases heq
          have hentry : CheckedAs check (pushed ++ later) i claim entry :=
            ⟨fetcher, pushed, fetcher₁, hclaim, fun issue hissue => List.mem_append_left _ hissue⟩
          refine reportsOn_cons hentry ((ih hrest).imp ?_)
          intro j c e he
          exact he.mono fun issue hissue => List.mem_append_right pushed hissue

theorem mem_sortVerifierIssues {issue : VerifierIssue} {issues : List VerifierIssue} :
    issue ∈ sortVerifierIssues issues ↔ issue ∈ issues := (perm_sortBy _).mem_iff

/-- The order of the issues does not matter for the verdict. -/
theorem verdictFromIssues_sort (issues : List VerifierIssue) :
    verdictFromIssues (sortVerifierIssues issues) = verdictFromIssues issues := by
  cases h : verdictFromIssues issues with
  | pending => exact absurd h (verdictFrom_ne_pending _ _)
  | failed =>
      obtain ⟨issue, hissue, hcondemns⟩ := verdictFrom_eq_failed_iff.mp h
      exact verdictFrom_eq_failed_iff.mpr
        ⟨issue, mem_sortVerifierIssues.mpr hissue, hcondemns⟩
  | valid =>
      obtain ⟨-, hclean⟩ := verdictFrom_eq_valid_iff.mp h
      refine verdictFrom_eq_valid_iff.mpr ⟨rfl, ?_⟩
      intro issue hissue
      exact hclean issue (mem_sortVerifierIssues.mp hissue)
  | unverifiable =>
      obtain ⟨herror, hall⟩ := verdictFromIssues_eq_unverifiable_iff.mp h
      refine verdictFromIssues_eq_unverifiable_iff.mpr ⟨?_, ?_⟩
      · intro hclean
        exact herror fun issue hissue => hclean issue (mem_sortVerifierIssues.mpr hissue)
      · intro issue hissue
        exact hall issue (mem_sortVerifierIssues.mp hissue)

/-! ## Reports -/

section Reports
variable {crypto : VerifierPrimitives} {σ : Type} {input : VerifyTxInput}
  {Validated : PoeRecord → ℕ → Prop} {report : VerifyReport} {skeleton : ReportSkeleton}
  {issues : List VerifierIssue} {audit : List HttpCallRecord}

/-- A verdict that the issues decide is never the pending one. -/
theorem consistent_of_issues (hverdict : report.verdict = verdictFromIssues report.issues)
    (hvalid : Clean report.issues →
      ∃ depth, report.confirmationDepth = some depth ∧ input.threshold ≤ depth)
    (hdeep : ∀ record depth, Validated record depth → input.threshold ≤ depth)
    (hrecord : ∀ record, report.record = some record ↔ ∃ depth, Validated record depth)
    (hdepth : ∀ record depth, Validated record depth → report.confirmationDepth = some depth)
    (hentries : ∀ record, report.record = some record → EntriesOn crypto σ input record report) :
    Consistent crypto σ input Validated report where
  failed := by rw [hverdict]; exact verdictFrom_eq_failed_iff
  unverifiable := by rw [hverdict]; exact verdictFromIssues_eq_unverifiable_iff
  pending := by
    constructor
    · intro h
      rw [hverdict] at h
      exact absurd h (verdictFrom_ne_pending _ _)
    · intro h
      obtain ⟨record, depth, hvalidated, hlt⟩ := h
      exact absurd (hdeep record depth hvalidated) (by omega)
  quiet := by
    intro h
    rw [hverdict] at h
    exact absurd h (verdictFrom_ne_pending _ _)
  valid := by
    intro h
    rw [hverdict] at h
    have hclean := (verdictFrom_eq_valid_iff.mp h).2
    exact ⟨hclean, hvalid hclean⟩
  record := hrecord
  depth := hdepth
  entries := hentries

/-- A report without a record, for some error. -/
theorem consistent_withoutRecord {verdict : Verdict} (hverdict : verdict = verdictFromIssues issues)
    {issue : VerifierIssue} (hissue : issue ∈ issues) (herror : issue.severity = .error)
    (hnone : ∀ record depth, ¬ Validated record depth) :
    Consistent crypto σ input Validated (reportWithoutRecord skeleton issues verdict audit) := by
  refine consistent_of_issues (hverdict.trans (verdictFromIssues_sort issues).symm) ?_ ?_ ?_ ?_ ?_
  · intro hclean
    exact absurd herror (hclean issue (mem_sortVerifierIssues.mpr hissue))
  · intro record depth h
    exact absurd h (hnone record depth)
  · intro record
    constructor
    · intro h
      cases h
    · intro h
      obtain ⟨depth, h⟩ := h
      exact absurd h (hnone record depth)
  · intro record depth h
    exact absurd h (hnone record depth)
  · intro record h
    cases h

/-- The same, for an error that the record is held to account for. -/
theorem consistent_failed {issue : VerifierIssue} (hissue : issue ∈ issues)
    (hcondemns : Condemns issue) (hnone : ∀ record depth, ¬ Validated record depth) :
    Consistent crypto σ input Validated (reportWithoutRecord skeleton issues .failed audit) :=
  consistent_withoutRecord (verdictFrom_eq_failed_iff.mpr ⟨issue, hissue, hcondemns⟩).symm hissue
    hcondemns.1 hnone

/-- No structural code is of the network class. -/
theorem not_network_of_structural {code : ErrorCode} (h : code.Structural) :
    code ∉ networkClassCodes := by
  intro hmem
  have hall : ∀ code ∈ networkClassCodes, ¬ code.Structural := by decide
  exact hall code hmem h

/-! ## From the validation on -/

/-- A record body that validates, in a transaction of some depth. -/
def AcceptedAt (recordBody : List UInt8) (options : ValidatorOptions) (atDepth : ℕ)
    (record : PoeRecord) (depth : ℕ) : Prop :=
  (∃ warnings info, validatePoeRecord recordBody options = .ok record warnings info) ∧
    depth = atDepth

theorem reportsOn_signatures {record : PoeRecord} {checks : List SignatureCheck}
    (h : (signatureChecks crypto record input).filter (fun s => !s.isEmpty) = some checks) :
    ReportsOn (fun i entry check => check = verifyOne crypto.signing i entry
      (signedRecordBody record) input.cardanoNetwork ∧ check.index = i)
      0 (record.sigs.getD []) checks := by
  have hchecks := (Option.filter_eq_some_iff.mp h).1
  rw [signatureChecks] at hchecks
  split_ifs at hchecks
  cases hchecks
  refine ⟨List.length_mapIdx, ?_⟩
  intro j entry check hentry hcheck
  rw [verifyRecordSignatures, List.getElem?_mapIdx, hentry] at hcheck
  cases hcheck
  rw [Nat.zero_add]
  exact ⟨rfl, index_verifyOne _ j entry _ _⟩

section Pipeline
variable {recordBody : List UInt8} {blockInfo : BlockInfo} {fetcher : GatewayFetcher σ}
  {record : PoeRecord} {warnings info : List ValidationIssue}
  (hthreshold : skeleton.threshold = input.threshold)
  (hfacts : skeleton.chainFacts = some blockInfo)
include hthreshold hfacts

theorem consistent_pendingReport
    (hvalid : validatePoeRecord recordBody input.validatorOptions = .ok record warnings info)
    (hlt : blockInfo.confirmationDepth < skeleton.threshold) :
    Consistent crypto σ input
      (AcceptedAt recordBody input.validatorOptions blockInfo.confirmationDepth)
      (pendingReport record (validationIssues warnings info) blockInfo skeleton fetcher) := by
  have haccepted : AcceptedAt recordBody input.validatorOptions blockInfo.confirmationDepth record
      blockInfo.confirmationDepth := ⟨⟨warnings, info, hvalid⟩, rfl⟩
  have hclean : Clean (pendingReport record (validationIssues warnings info) blockInfo skeleton
      fetcher).issues := by
    intro issue hissue
    cases List.mem_append.mp (mem_sortVerifierIssues.mp hissue) with
    | inl hmem => exact severity_validationIssues hvalid hmem
    | inr hmem =>
        rw [List.mem_singleton.mp hmem]
        simp +decide [VerifierIssue.new]
  refine ⟨?_, ?_, ?_, ?_, ?_, ?_, ?_, ?_⟩
  · constructor
    · intro h
      cases h
    · intro h
      obtain ⟨issue, hissue, herror, -⟩ := h
      exact absurd herror (hclean issue hissue)
  · constructor
    · intro h
      cases h
    · intro h
      exact absurd hclean h.1
  · constructor
    · intro _
      exact ⟨record, _, haccepted, hthreshold ▸ hlt⟩
    · intro _
      rfl
  · intro _
    exact ⟨hclean, fun entry hentry => List.eq_of_mem_replicate hentry,
      fun entry hentry => List.eq_of_mem_replicate hentry, rfl⟩
  · intro h
    cases h
  · intro record'
    constructor
    · intro h
      cases h
      exact ⟨_, haccepted⟩
    · intro h
      obtain ⟨depth, ⟨warnings', info', hvalid'⟩, -⟩ := h
      rw [hvalid] at hvalid'
      cases hvalid'
      rfl
  · intro record' depth h
    obtain ⟨-, rfl⟩ := h
    simp [pendingReport, assembleReport, hfacts]
  · intro record' h
    cases h
    refine ⟨reportsOn_replicate fun _ _ => .inl rfl, reportsOn_replicate fun _ _ => .inl rfl, ?_⟩
    intro checks hchecks
    cases hchecks

theorem consistent_checks
    (hvalid : validatePoeRecord recordBody input.validatorOptions = .ok record warnings info)
    (hle : skeleton.threshold ≤ blockInfo.confirmationDepth)
    (hrun : runRecordChecks crypto record (validationIssues warnings info) input skeleton fetcher =
      .ok report) :
    Consistent crypto σ input
      (AcceptedAt recordBody input.validatorOptions blockInfo.confirmationDepth) report := by
  obtain ⟨run⟩ := exists_checksRun hrun
  have hreport := run.report_eq
  dsimp only at hreport
  have hdepth : report.confirmationDepth = some blockInfo.confirmationDepth := by
    rw [hreport, assembleReport, hfacts]
    rfl
  have hissues {issue : VerifierIssue} (h : issue ∈ run.itemIssues ∨ issue ∈ run.merkleIssues) :
      issue ∈ report.issues := by
    rw [hreport]
    refine mem_sortVerifierIssues.mpr ?_
    simp only [List.mem_append]
    cases h with
    | inl h => exact .inl (.inl (.inr h))
    | inr h => exact .inl (.inr h)
  refine consistent_of_issues ?_ ?_ ?_ ?_ ?_ ?_
  · rw [hreport]
    exact (verdictFromIssues_sort _).symm
  · intro _
    exact ⟨_, hdepth, hthreshold ▸ hle⟩
  · intro record' depth h
    obtain ⟨-, rfl⟩ := h
    exact hthreshold ▸ hle
  · intro record'
    constructor
    · intro h
      rw [hreport] at h
      cases h
      exact ⟨_, ⟨warnings, info, hvalid⟩, rfl⟩
    · intro h
      obtain ⟨depth, ⟨warnings', info', hvalid'⟩, -⟩ := h
      rw [hvalid] at hvalid'
      cases hvalid'
      rw [hreport]
      rfl
  · intro record' depth h
    obtain ⟨-, rfl⟩ := h
    exact hdepth
  · intro record' h
    have hsame : record = record' := by
      rw [hreport] at h
      exact Option.some.inj h
    subst hsame
    refine ⟨?_, ?_, ?_⟩
    · have hitems : report.items = run.items := congrArg VerifyReport.items hreport
      rw [hitems]
      exact (reportsOn_checkAll run.itemsRun).imp fun i item entry hentry =>
        .inr (hentry.mono fun issue hissue => hissues (.inl hissue))
    · have hmerkle : report.merkle = run.outcomes.map fun o => ⟨o.contentCheck⟩ :=
        congrArg VerifyReport.merkle hreport
      rw [hmerkle]
      exact (reportsOn_checkAll run.merkleRun).map _ fun i commit outcome houtcome =>
        .inr ⟨outcome, houtcome.mono fun issue hissue => hissues (.inr hissue), rfl⟩
    · intro checks hchecks
      rw [hreport] at hchecks
      exact reportsOn_signatures hchecks

/-- What validates decides the report. -/
theorem consistent_pipeline
    (hrun : runRecordPipeline crypto recordBody blockInfo input skeleton fetcher = .ok report) :
    Consistent crypto σ input
      (AcceptedAt recordBody input.validatorOptions blockInfo.confirmationDepth) report := by
  rw [runRecordPipeline] at hrun
  cases hvalid : validatePoeRecord recordBody input.validatorOptions with
  | fail found =>
      rw [hvalid] at hrun
      cases hrun
      obtain ⟨i, hi, herror, hstructural⟩ := exists_rejects_of_fail hvalid
      refine consistent_failed (List.mem_map_of_mem hi)
        ⟨herror, not_network_of_structural hstructural⟩ ?_
      intro record' depth h
      obtain ⟨⟨warnings', info', hvalid'⟩, -⟩ := h
      rw [hvalid] at hvalid'
      cases hvalid'
  | ok record warnings info =>
      rw [hvalid] at hrun
      dsimp only at hrun
      rw [← validationIssues] at hrun
      by_cases hlt : blockInfo.confirmationDepth < skeleton.threshold
      · rw [if_pos hlt] at hrun
        cases hrun
        exact consistent_pendingReport hthreshold hfacts hvalid hlt
      · rw [if_neg hlt] at hrun
        exact consistent_checks hthreshold hfacts hvalid (not_lt.mp hlt) hrun

end Pipeline

/-! ## Entry points -/

theorem Consistent.congr {Validated' : PoeRecord → ℕ → Prop}
    (h : Consistent crypto σ input Validated report)
    (hiff : ∀ record depth, Validated record depth ↔ Validated' record depth) :
    Consistent crypto σ input Validated' report := by
  have hsame : Validated = Validated' := by
    ext record depth
    exact hiff record depth
  rwa [← hsame]

/-- A resolved transaction that carries a record which validates. -/
def CarriesValid (resolved : ResolvedTx) (options : ValidatorOptions) (record : PoeRecord)
    (depth : ℕ) : Prop :=
  ∃ value recordBody, label309Value resolved.slices = .ok (some value) ∧
    reassembleLabel309Value value = .ok recordBody ∧
    AcceptedAt recordBody options resolved.confirmationDepth record depth

theorem isCarriageCode_of_label309Value {slices : TxSlices} {e : CarriageError}
    (h : label309Value slices = .error e) : IsCarriageCode e := by
  rw [label309Value.eq_def] at h
  cases haux : slices.auxData with
  | none => simp [haux] at h
  | some aux =>
      rw [haux] at h
      dsimp only at h
      cases hunwrap : unwrapAuxiliaryData aux with
      | ok unwrapped => simp [hunwrap, Except.map] at h
      | error e' =>
          rw [hunwrap] at h
          cases h
          exact failsIn_unwrapAuxiliaryData aux e hunwrap

theorem condemns_carriageIssue {e : CarriageError} (h : IsCarriageCode e) :
    Condemns (carriageIssue e) := by
  have hall : ∀ code ∈ [ErrorCode.malformedCbor, .chunkTooLarge],
      code.severity = .error ∧ code ∉ networkClassCodes := by decide
  exact hall e.code h

theorem consistent_resolvedTx {resolved : ResolvedTx} {fetcher : GatewayFetcher σ}
    (hrun : verifyResolvedTx crypto resolved input fetcher = .ok report) :
    Consistent crypto σ input (CarriesValid resolved input.validatorOptions) report := by
  rw [verifyResolvedTx] at hrun
  cases hlabel : label309Value resolved.slices with
  | error e =>
      rw [hlabel] at hrun
      cases hrun
      refine consistent_failed (List.mem_singleton_self _)
        (condemns_carriageIssue (isCarriageCode_of_label309Value hlabel)) ?_
      intro record depth h
      obtain ⟨value, recordBody, hvalue, -⟩ := h
      rw [hlabel] at hvalue
      cases hvalue
  | ok value =>
      rw [hlabel] at hrun
      cases value with
      | none =>
          cases hrun
          refine consistent_failed (List.mem_singleton_self _) ⟨rfl, by decide⟩ ?_
          intro record depth h
          obtain ⟨value, recordBody, hvalue, -⟩ := h
          rw [hlabel] at hvalue
          cases hvalue
      | some value =>
          dsimp only at hrun
          cases hbody : reassembleLabel309Value value with
          | error e =>
              rw [hbody] at hrun
              cases hrun
              refine consistent_failed (List.mem_singleton_self _)
                (condemns_carriageIssue (failsIn_reassemble value e hbody)) ?_
              intro record depth h
              obtain ⟨value', recordBody, hvalue, hbody', -⟩ := h
              rw [hlabel] at hvalue
              cases hvalue
              rw [hbody] at hbody'
              cases hbody'
          | ok recordBody =>
              rw [hbody] at hrun
              refine (consistent_pipeline rfl rfl hrun).congr ?_
              intro record depth
              constructor
              · intro h
                exact ⟨value, recordBody, hlabel, hbody, h⟩
              · intro h
                obtain ⟨value', recordBody', hvalue, hbody', h⟩ := h
                rw [hlabel] at hvalue
                cases hvalue
                rw [hbody] at hbody'
                cases hbody'
                exact h

/-- A resolution fails with an error. -/
theorem severity_resolveProviders {outcomes : ProviderOutcomes}
    {providers : List (Attempt σ ResolvedTx)} {fetcher fetcher' : GatewayFetcher σ}
    {failure : ResolveFailure}
    (h : resolveProviders outcomes providers fetcher = (.error failure, fetcher')) :
    failure.code.severity = .error := by
  induction providers generalizing outcomes fetcher with
  | nil =>
      cases h
      rw [ProviderOutcomes.failure.eq_def]
      split <;> rfl
  | cons provider providers ih =>
      rw [resolveProviders] at h
      cases hprovider : provider fetcher with
      | mk result fetcher₁ =>
          rw [hprovider] at h
          cases result with
          | ok resolved => cases h
          | error e =>
              dsimp only at h
              cases e with
              | deny message =>
                  cases h
                  rfl
              | notFound message => exact ih h
              | unavailable message => exact ih h
              | integrityMismatch message => exact ih h

theorem severity_resolveCardanoTx {json : JsonPrimitives} {txHash : String}
    {chain : Option (List String)} {projectId : Option String} {fetcher fetcher' : GatewayFetcher σ}
    {failure : ResolveFailure}
    (h : resolveCardanoTx crypto json txHash chain projectId fetcher = (.error failure, fetcher')) :
    failure.code.severity = .error := by
  rw [resolveCardanoTx.eq_def] at h
  split at h
  · cases h
    rfl
  · split_ifs at h
    · cases h
      rfl
    · exact severity_resolveProviders h

end Reports

/-- The transaction of the input resolves over the transport, and carries a record which
validates. -/
def ValidatesTx {σ : Type} (crypto : VerifierPrimitives) (json : JsonPrimitives)
    (transport : Option (FetchTransport σ)) (state : σ) (input : VerifyTxInput)
    (record : PoeRecord) (depth : ℕ) : Prop :=
  ∃ connected resolved fetcher, transport = some connected ∧
    resolveCardanoTx crypto json input.txHash input.cardanoGatewayChain input.blockfrostProjectId
      (.new connected state input.denyHosts) = (.ok resolved, fetcher) ∧
    CarriesValid resolved input.validatorOptions record depth

/-- **Reports are consistent over every run.** -/
theorem verifyTx_consistent {σ : Type} {crypto : VerifierPrimitives} {json : JsonPrimitives}
    {transport : Option (FetchTransport σ)} {state : σ} {input : VerifyTxInput}
    {report : VerifyReport} (hrun : verifyTx crypto json transport state input = .ok report) :
    Consistent crypto σ input (ValidatesTx crypto json transport state input) report := by
  rw [verifyTx.eq_def] at hrun
  dsimp only at hrun
  cases transport with
  | none =>
      cases hrun
      refine consistent_withoutRecord rfl (List.mem_singleton_self _) rfl ?_
      intro record depth h
      obtain ⟨connected, -, -, htransport, -⟩ := h
      cases htransport
  | some connected =>
      dsimp only at hrun
      cases hresolve : resolveCardanoTx crypto json input.txHash input.cardanoGatewayChain
          input.blockfrostProjectId (.new connected state input.denyHosts) with
      | mk result fetcher =>
          rw [hresolve] at hrun
          cases result with
          | error failure =>
              cases hrun
              refine consistent_withoutRecord rfl (List.mem_singleton_self _)
                (severity_resolveCardanoTx hresolve) ?_
              intro record depth h
              obtain ⟨connected', resolved, fetcher', htransport, hresolve', -⟩ := h
              cases htransport
              rw [hresolve] at hresolve'
              cases hresolve'
          | ok resolved =>
              refine (consistent_resolvedTx hrun).congr ?_
              intro record depth
              constructor
              · intro h
                exact ⟨connected, resolved, fetcher, rfl, hresolve, h⟩
              · intro h
                obtain ⟨connected', resolved', fetcher', htransport, hresolve', h⟩ := h
                cases htransport
                rw [hresolve] at hresolve'
                cases hresolve'
                exact h

/-! ## A run -/

/-- The address of the word `hello`. -/
def publishedUri : String := "ar://bNbA3TEQVL60xlgCcqdz4ZPHFZ711cZ3hmkpGttDt_U"

/-- The items of the record: the word, by its digest and its address. -/
def publishedItems : List UInt8 :=
  [0x65, 0x69, 0x74, 0x65, 0x6d, 0x73, 0x81, 0xa2, 0x64, 0x75, 0x72, 0x69, 0x73, 0x81, 0x78,
      0x30] ++ utf8Bytes publishedUri ++
    [0x66, 0x68, 0x61, 0x73, 0x68, 0x65, 0x73, 0xa1, 0x68, 0x73, 0x68, 0x61, 0x32, 0x2d, 0x32,
      0x35, 0x36, 0x58, 0x20] ++ helloSha256.val

/-- What is signed of the record. -/
def publishedRecordBody : List UInt8 := [0xa2, 0x61, 0x76, 0x01] ++ publishedItems

/-- The Ed25519 signature of the key over the body. -/
def publishedSignature : FixedBytes 64 :=
  ⟨[0xea, 0x24, 0xc9, 0x95, 0x22, 0xec, 0xcc, 0x25, 0x76, 0xfa, 0xe8, 0xba, 0xb3, 0xa6, 0x7c,
      0x9b, 0xc8, 0x88, 0x5e, 0xd3, 0x88, 0xa4, 0x38, 0x61, 0x68, 0xd1, 0x30, 0x85, 0xb7, 0xb1,
      0xfa, 0x47, 0x9f, 0x66, 0x88, 0x4b, 0x24, 0x4e, 0x3f, 0xbf, 0x95, 0x57, 0x72, 0x16, 0x1b,
      0xed, 0x73, 0x5b, 0x1d, 0x79, 0x4e, 0xba, 0x83, 0x02, 0x09, 0x75, 0x59, 0x08, 0x0b, 0xb5,
      0xa3, 0x21, 0xff, 0x05], rfl⟩

def publishedCoseSign1 : List UInt8 :=
  [0x84, 0x58, 0x26] ++ testProtectedBytes ++ [0xa0, 0xf6, 0x58, 0x40] ++ publishedSignature.val

/-- The record with its signature. -/
def publishedRecordBytes : List UInt8 :=
  [0xa3, 0x61, 0x76, 0x01, 0x64, 0x73, 0x69, 0x67, 0x73, 0x81, 0xa1, 0x6a, 0x63, 0x6f, 0x73,
    0x65, 0x5f, 0x73, 0x69, 0x67, 0x6e, 0x31, 0x58, 0x6d] ++
    publishedCoseSign1 ++ publishedItems

/-- The metadata with the record in four chunks. -/
def publishedAux : List UInt8 :=
  [0xa1, 0x19, 0x01, 0x35, 0x84, 0x58, 0x40] ++ publishedRecordBytes.take 64 ++
    [0x58, 0x40] ++ (publishedRecordBytes.drop 64).take 64 ++
    [0x58, 0x40] ++ (publishedRecordBytes.drop 128).take 64 ++
    [0x58, 0x38] ++ publishedRecordBytes.drop 192

/-- BLAKE2b-256 of the metadata. -/
def publishedAuxHash : Digest :=
  ⟨[0x1a, 0x3f, 0xfd, 0xa4, 0x17, 0x70, 0x30, 0x46, 0xb1, 0x39, 0xd5, 0x7e, 0x68, 0x00, 0x85,
      0xd3, 0xb3, 0x8b, 0x14, 0x7a, 0x17, 0x8f, 0xf5, 0x55, 0x18, 0xa9, 0xd3, 0x58, 0x70, 0x48,
      0x68, 0x3b], rfl⟩

/-- BLAKE2b-224 of the key. -/
def testKeyHash : FixedBytes 28 :=
  ⟨[0x35, 0xde, 0xdd, 0x29, 0x82, 0xa0, 0x3c, 0xf3, 0x9e, 0x7d, 0xce, 0x03, 0xc8, 0x39, 0x99,
      0x4f, 0xfd, 0xec, 0x2e, 0xc6, 0xb0, 0x4f, 0x1c, 0xf2, 0xd4, 0x0e, 0x61, 0xa3], rfl⟩

/-- One input, one output to the key, a fee, and the digest of the metadata. -/
def publishedTxBody : List UInt8 :=
  [0xa4, 0x00, 0x81, 0x82, 0x58, 0x20] ++ List.replicate 32 0x11 ++
    [0x00, 0x01, 0x81, 0x82, 0x58, 0x1d, 0x61] ++ testKeyHash.val ++
    [0x1a, 0x00, 0x1e, 0x84, 0x80, 0x02, 0x1a, 0x00, 0x02, 0xbf, 0x20, 0x07, 0x58, 0x20] ++
    publishedAuxHash.val

/-- BLAKE2b-256 of the body. -/
def publishedTxHash : Digest :=
  ⟨[0x50, 0x4a, 0x89, 0x6e, 0x2a, 0x53, 0x4f, 0x2d, 0xd0, 0xca, 0x82, 0xb7, 0x16, 0x36, 0x18,
      0xf5, 0xdb, 0x9a, 0xce, 0x5c, 0x6e, 0xb3, 0x3f, 0xd6, 0x6d, 0x88, 0xc8, 0x59, 0x28, 0xb9,
      0x03, 0x3a], rfl⟩

/-- The Ed25519 signature of the key on the hash. -/
def publishedTxSignature : FixedBytes 64 :=
  ⟨[0xc2, 0x26, 0x00, 0xa0, 0x3d, 0xc9, 0xbe, 0x4c, 0x2a, 0x66, 0x6c, 0x3d, 0xe3, 0x08, 0x51,
      0x6e, 0x3d, 0xb7, 0xfe, 0x70, 0x27, 0x74, 0x70, 0x60, 0x68, 0x6b, 0xb5, 0x66, 0x94, 0x53,
      0xb7, 0x74, 0xa0, 0x9a, 0x67, 0xe7, 0x79, 0xd9, 0x99, 0xc3, 0x19, 0xab, 0xd2, 0x5b, 0xa7,
      0xdc, 0x51, 0xcb, 0x83, 0x15, 0xac, 0xe6, 0x37, 0x03, 0xe2, 0xe9, 0xaf, 0xe9, 0xce, 0x5a,
      0x85, 0x05, 0x6f, 0x08], rfl⟩

def publishedWitnessSet : List UInt8 :=
  [0xa1, 0x00, 0x81, 0x82, 0x58, 0x20] ++ testKey.val ++ [0x58, 0x40] ++ publishedTxSignature.val

def publishedTx : List UInt8 :=
  0x84 :: (publishedTxBody ++ publishedWitnessSet ++ 0xf5 :: publishedAux)

def publishedSlices : TxSlices where
  txBody := publishedTxBody
  witnessSet := publishedWitnessSet
  auxData := some publishedAux

/-- The primitives on the strings of the sample. -/
def publishedCrypto : VerifierPrimitives where
  text := absoluteText
  unicode := Lowercase.asciiCase
  blake2b256 := fun b => if b = publishedTxBody then publishedTxHash
    else if b = publishedAux then publishedAuxHash else FixedBytes.zero 32
  sealing :=
    { roundTripCrypto with
      sha256 := fun b => if b = utf8Bytes "hello" then helloSha256 else roundTripSha256 b }
  kdf := ⟨.ok, fun _ _ _ => .ok (), fun _ _ _ _ _ => .ok (FixedBytes.zero 32)⟩
  signing :=
    { verifyStrict := fun key message signature => key = testKey ∧
        (message = publishedTxHash.val ∧ signature = publishedTxSignature ∨
          message = buildLabel309SigStructure testProtectedBytes publishedRecordBody ∧
            signature = publishedSignature)
      blake2b224 := fun _ => testKeyHash }

/-! ### The network of the run -/

/-- The explorer's answer about the bytes. -/
def cborAnswer : List UInt8 :=
  utf8Bytes "[\x7b\"cbor\":\"" ++ utf8Bytes (hexEncode publishedTx) ++ utf8Bytes "\"\x7d]"

def cborEntry : List (String × JsonValue) := [("cbor", .string (hexEncode publishedTx))]

/-- The explorer's answer about the block. -/
def infoAnswer : List UInt8 :=
  utf8Bytes ("[\x7b\"num_confirmations\":20,\"tx_timestamp\":1700000000," ++
    "\"absolute_slot\":108433709\x7d]")

def infoEntry : List (String × JsonValue) :=
  [("num_confirmations", .unsigned 20), ("tx_timestamp", .unsigned 1700000000),
    ("absolute_slot", .unsigned 108433709)]

/-- The reader of the two answers. -/
def readAnswer (body : List UInt8) : Except String JsonValue :=
  if body = cborAnswer then .ok (.array [.object cborEntry])
  else if body = infoAnswer then .ok (.array [.object infoEntry])
  else .error "expected value"

def explorerJson : JsonPrimitives := ⟨readAnswer, fun _ => "null"⟩

/-- The URL of the word at the first gateway. -/
def helloUrl : String := "https://turbo-gateway.com/bNbA3TEQVL60xlgCcqdz4ZPHFZ711cZ3hmkpGttDt_U"

/-- An explorer and a gateway. Everything else is not there. -/
def explorerTransport : FetchTransport Unit := fun state url _ =>
  (.ok (if url = koiosMainnetUrl ++ "/tx_cbor" then ⟨200, cborAnswer, 0⟩
    else if url = koiosMainnetUrl ++ "/tx_info" then ⟨200, infoAnswer, 0⟩
    else if url = helloUrl then ⟨200, utf8Bytes "hello", 0⟩
    else ⟨404, [], 0⟩), state)

def publishedInput : VerifyTxInput where
  txHash := hexEncode publishedTxHash.val
  profile := .signed
  cardanoGatewayChain := none
  blockfrostProjectId := none
  arweaveGatewayChain := none
  ipfsGatewayChain := none
  confirmationDepthThreshold := none
  denyHosts := none
  fetchContent := true
  maxFetchBytes := none
  decryption := none
  ciphertextBytes _ := none
  merkleLeaves _ := none
  cardanoNetwork := .mainnet

/-! The explorer gives the transaction and twenty confirmations. -/

def explorerFetcher (rows : List HttpCallRecord) : GatewayFetcher Unit :=
  { GatewayFetcher.new explorerTransport () none with audit := rows }

/-- The two requests to the explorer. -/
def explorerRows : List HttpCallRecord :=
  [⟨koiosMainnetUrl ++ "/tx_cbor", .post, some 200, cborAnswer.length, 0, .cardano⟩,
    ⟨koiosMainnetUrl ++ "/tx_info", .post, some 200, infoAnswer.length, 0, .cardano⟩]

theorem fetchCardano_explorer {url : String} {bytes : List UInt8} (body : String)
    (rows : List HttpCallRecord) (hurl : isAllowedProtocol absoluteText url = true)
    (hanswer : ∀ opts, explorerTransport () url opts = (.ok ⟨200, bytes, 0⟩, ())) :
    fetchCardano publishedCrypto url (jsonPostOptions body) (explorerFetcher rows) =
      (.ok ⟨200, bytes, 0⟩,
        explorerFetcher (rows ++ [⟨url, .post, some 200, bytes.length, 0, .cardano⟩])) := by
  have hpurpose : ¬ (jsonPostOptions body).purpose = .webhook := by
    intro h
    cases h
  have hallowed : ¬ isAllowedProtocol publishedCrypto.text url = false := by
    rw [Bool.not_eq_false]
    exact hurl
  have hopen : ¬ ((explorerFetcher rows).config.denyHosts ≠ [] ∧
      matchesDenyList publishedCrypto.text ((parseHostname publishedCrypto.text url).getD "")
        (explorerFetcher rows).config.denyHosts) := fun h => h.1 rfl
  rw [fetchCardano, wrapFetchOutbound, if_neg hpurpose, if_neg hallowed]
  dsimp only
  rw [if_neg hopen]
  show ((fetchAttempts url (jsonPostOptions body) 1 none none (explorerFetcher rows)).1.mapError
    classifyOutbound, (fetchAttempts url (jsonPostOptions body) 1 none none
      (explorerFetcher rows)).2) = _
  have hattempt : fetchAttempts url (jsonPostOptions body) 1 none none (explorerFetcher rows) =
      (.ok ⟨200, bytes, 0⟩,
        explorerFetcher (rows ++ [⟨url, .post, some 200, bytes.length, 0, .cardano⟩])) := by
    have hanswered : (explorerFetcher rows).transport (explorerFetcher rows).state url
        (jsonPostOptions body) = (.ok ⟨200, bytes, 0⟩, ()) := hanswer (jsonPostOptions body)
    rw [fetchAttempts, hanswered]
    rfl
  rw [hattempt]
  rfl

/-- The steps one by one. The digits of the transaction are decoded by the lemma about them, which
spares the kernel the text. -/
theorem resolveViaKoios_explorer (txHash : String) {hash : List UInt8}
    (h : bindFetchedTx publishedCrypto hash publishedTx koiosMainnetUrl = .ok publishedSlices) :
    resolveViaKoios publishedCrypto explorerJson txHash hash koiosMainnetUrl (explorerFetcher []) =
      (.ok ⟨publishedTx, publishedSlices, 20, 1700000000, 108433709⟩,
        explorerFetcher explorerRows) := by
  have hother : koiosMainnetUrl ++ "/tx_info" ≠ koiosMainnetUrl ++ "/tx_cbor" := by decide
  have hanswers : infoAnswer ≠ cborAnswer := by decide +kernel
  have hcborUrl : isAllowedProtocol absoluteText (koiosMainnetUrl ++ "/tx_cbor") = true := by
    decide +kernel
  have hinfoUrl : isAllowedProtocol absoluteText (koiosMainnetUrl ++ "/tx_info") = true := by
    decide +kernel
  have hcborAnswer (opts : FetchOutboundOptions) : explorerTransport ()
      (koiosMainnetUrl ++ "/tx_cbor") opts = (.ok ⟨200, cborAnswer, 0⟩, ()) := by
    rw [explorerTransport, if_pos rfl]
  have hinfoAnswer (opts : FetchOutboundOptions) : explorerTransport ()
      (koiosMainnetUrl ++ "/tx_info") opts = (.ok ⟨200, infoAnswer, 0⟩, ()) := by
    rw [explorerTransport, if_neg hother, if_pos rfl]
  have hstatus (bytes : List UInt8) (failure : ProviderFailure) (fetcher : GatewayFetcher Unit) :
      require (decide ((⟨200, bytes, 0⟩ : FetchOutboundResult).status = 200)) failure fetcher =
        (.ok (), fetcher) := rfl
  have hreadCbor : readAnswer cborAnswer = .ok (.array [.object cborEntry]) := by
    rw [readAnswer, if_pos rfl]
  have hreadInfo : readAnswer infoAnswer = .ok (.array [.object infoEntry]) := by
    rw [readAnswer, if_neg hanswers, if_pos rfl]
  have hparseCbor (fetcher : GatewayFetcher Unit) : parseJson explorerJson cborAnswer fetcher =
      (.ok (.array [.object cborEntry]), fetcher) := by
    rw [parseJson, show explorerJson.fromSlice = readAnswer from rfl, hreadCbor]
    rfl
  have hparseInfo (fetcher : GatewayFetcher Unit) : parseJson explorerJson infoAnswer fetcher =
      (.ok (.array [.object infoEntry]), fetcher) := by
    rw [parseJson, show explorerJson.fromSlice = readAnswer from rfl, hreadInfo]
    rfl
  have hentry (endpoint : String) (entry : List (String × JsonValue))
      (fetcher : GatewayFetcher Unit) : koiosFirstEntry txHash koiosMainnetUrl endpoint
        (.array [.object entry]) fetcher = (.ok entry, fetcher) := rfl
  have hcbor (failure : ProviderFailure) (fetcher : GatewayFetcher Unit) :
      present ((member cborEntry "cbor").bind JsonValue.asStr) failure fetcher =
        (.ok (hexEncode publishedTx), fetcher) := rfl
  have hbytes (fetcher : GatewayFetcher Unit) :
      hexToBytes (hexEncode publishedTx) fetcher = (.ok publishedTx, fetcher) := by
    rw [hexToBytes_hexEncode]
    rfl
  have hslices (fetcher : GatewayFetcher Unit) :
      Attempt.ofExcept (bindFetchedTx publishedCrypto hash publishedTx koiosMainnetUrl) fetcher =
        (.ok publishedSlices, fetcher) := by
    rw [h]
    rfl
  rw [resolveViaKoios, Attempt.bind_ok (fetchCardano_explorer _ _ hcborUrl hcborAnswer),
    Attempt.bind_ok (hstatus _ _ _), Attempt.bind_ok (hparseCbor _), Attempt.bind_ok (hentry _ _ _),
    Attempt.bind_ok (hcbor _ _), Attempt.bind_ok (hbytes _), Attempt.bind_ok (hslices _),
    Attempt.bind_ok (fetchCardano_explorer _ _ hinfoUrl hinfoAnswer),
    Attempt.bind_ok (hstatus _ _ _), Attempt.bind_ok (hparseInfo _), Attempt.bind_ok (hentry _ _ _)]
  rfl

theorem resolveCardanoTx_published :
    resolveCardanoTx publishedCrypto explorerJson publishedInput.txHash
      publishedInput.cardanoGatewayChain publishedInput.blockfrostProjectId
      (.new explorerTransport () publishedInput.denyHosts) =
        (.ok ⟨publishedTx, publishedSlices, 20, 1700000000, 108433709⟩,
          explorerFetcher explorerRows) := by
  have hhash : hexDecode publishedInput.txHash = .ok publishedTxHash.val := hexDecode_hexEncode _
  have hslices : bindFetchedTx publishedCrypto publishedTxHash.val publishedTx koiosMainnetUrl =
      .ok publishedSlices := by
    decide +kernel
  rw [resolveCardanoTx, hhash]
  dsimp only
  rw [if_neg (by decide)]
  exact resolveProviders_of_ok (resolveViaKoios_explorer publishedInput.txHash hslices)

/-- The report of the sample: valid, the word checked at its gateway, and the signature under the
key. -/
theorem verifyTx_published : (verifyTx publishedCrypto explorerJson (some explorerTransport) ()
    publishedInput).toOption.map (fun report => (report.verdict, report.items,
      report.recordSignatures, report.auditTrail.map HttpCallRecord.url)) =
    some (.valid, [⟨.checked, none⟩],
      some [⟨0, true, some (hexEncode testKey.val), some .inSignatureKid, none⟩],
      [koiosMainnetUrl ++ "/tx_cbor", koiosMainnetUrl ++ "/tx_info", helloUrl]) := by
  rw [verifyTx_eq_of_resolved resolveCardanoTx_published]
  decide +kernel

theorem exists_report_published : ∃ report,
    verifyTx publishedCrypto explorerJson (some explorerTransport) () publishedInput = .ok report ∧
      report.verdict = .valid ∧ report.items = [⟨.checked, none⟩] ∧
      report.recordSignatures =
        some [⟨0, true, some (hexEncode testKey.val), some .inSignatureKid, none⟩] ∧
      report.auditTrail.map HttpCallRecord.url =
        [koiosMainnetUrl ++ "/tx_cbor", koiosMainnetUrl ++ "/tx_info", helloUrl] := by
  have hshown := verifyTx_published
  cases hrun : verifyTx publishedCrypto explorerJson (some explorerTransport) () publishedInput with
  | error panic =>
      rw [hrun] at hshown
      cases hshown
  | ok report =>
      rw [hrun] at hshown
      obtain ⟨hverdict, hrest⟩ := Prod.ext_iff.mp (Option.some.inj hshown)
      obtain ⟨hitems, hrest⟩ := Prod.ext_iff.mp hrest
      obtain ⟨hsignatures, haudit⟩ := Prod.ext_iff.mp hrest
      exact ⟨report, rfl, hverdict, hitems, hsignatures, haudit⟩

/-- The sample is valid at its depth, and its record is the one that validates. -/
theorem verifyTx_consistent_published :
    ∃ report, verifyTx publishedCrypto explorerJson (some explorerTransport) () publishedInput =
        .ok report ∧ report.verdict = .valid ∧ report.items = [⟨.checked, none⟩] ∧
      Clean report.issues ∧
      (∃ depth, report.confirmationDepth = some depth ∧ publishedInput.threshold ≤ depth) ∧
      ∀ record, report.record = some record ↔ ∃ depth, ValidatesTx publishedCrypto explorerJson
        (some explorerTransport) () publishedInput record depth := by
  obtain ⟨report, hrun, hverdict, hitems, -, -⟩ := exists_report_published
  have hconsistent := verifyTx_consistent hrun
  obtain ⟨hclean, hdepth⟩ := hconsistent.valid hverdict
  exact ⟨report, hrun, hverdict, hitems, hclean, hdepth, hconsistent.record⟩

end Label309
