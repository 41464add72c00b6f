import Label309.PoeStandard.Validity
import Label309.Verifier.Verify

/-!
# Rules for checks

What holds of every run of a check that returns: of each issue that it pushes, and of its
outcome. A walk has one rule for its own issues and one for its consumer, and the consumer sees
no blob but those of the claim's sources.
-/
namespace Label309
open ExceptBind

section Rules
variable {σ α β ι : Type}

/-- Every issue of a run that returns satisfies `P`, and the outcome satisfies `R`. -/
def Checking.Post (P : VerifierIssue → Prop) (R : α → Prop) (check : Checking σ α) : Prop :=
  ∀ a issues fetcher, check = .ok (a, issues, fetcher) → (∀ issue ∈ issues, P issue) ∧ R a

variable {P Q : VerifierIssue → Prop} {R : α → Prop}

theorem post_ok {a : α} {issues : List VerifierIssue} {fetcher : GatewayFetcher σ}
    (hissues : ∀ issue ∈ issues, P issue) (ha : R a) :
    Checking.Post P R (.ok (a, issues, fetcher)) := by
  intro a' issues' fetcher' h
  cases h
  exact ⟨hissues, ha⟩

theorem post_error (panic : VerifierPanic) : Checking.Post P R (.error panic : Checking σ α) := by
  intro a issues fetcher h
  cases h

theorem Checking.Post.mono {S : α → Prop} {check : Checking σ α} (h : check.Post P R)
    (hissue : ∀ issue, P issue → Q issue) (hresult : ∀ a, R a → S a) : check.Post Q S := by
  intro a issues fetcher heq
  have hpost := h a issues fetcher heq
  exact ⟨fun issue hmem => hissue issue (hpost.1 issue hmem), hresult a hpost.2⟩

/-- The outcome and the issues of a check, seen through a function. -/
theorem Checking.Post.map {S : β → Prop} {check : Checking σ α}
    {f : α × List VerifierIssue × GatewayFetcher σ → β × List VerifierIssue × GatewayFetcher σ}
    (h : check.Post P R)
    (hf : ∀ a issues fetcher, (∀ issue ∈ issues, P issue) → R a →
      (∀ issue ∈ (f (a, issues, fetcher)).2.1, Q issue) ∧ S (f (a, issues, fetcher)).1) :
    Checking.Post Q S (Except.map f check) := by
  intro b issues fetcher heq
  cases hcheck : check with
  | error panic =>
      rw [hcheck] at heq
      cases heq
  | ok step =>
      obtain ⟨a, pushed, left⟩ := step
      rw [hcheck] at heq
      have hpost := h a pushed left hcheck
      have hfa := hf a pushed left hpost.1 hpost.2
      cases hstep : f (a, pushed, left) with
      | mk b' rest =>
          rw [hstep] at hfa
          simp only [Except.map, hstep, Except.ok.injEq] at heq
          cases heq
          exact hfa

/-! ## Walks -/

variable {S : BlobWalkEnd α → Prop}

theorem post_after {pushed : List VerifierIssue} {walk : Walked σ α}
    (hpushed : ∀ issue ∈ pushed, P issue) (h : Checking.Post P S walk) :
    Checking.Post P S (walk.after pushed) := by
  apply Checking.Post.map h
  intro a issues fetcher hissues ha
  refine ⟨?_, ha⟩
  intro issue hmem
  rcases List.mem_append.mp hmem with hmem | hmem
  · exact hpushed issue hmem
  · exact hissues issue hmem

/-- What the decision on a blob must satisfy. -/
def Decides (P : VerifierIssue → Prop) (S : BlobWalkEnd α → Prop) (consume : Consumer α)
    (blob : AcquiredBlob) : Prop :=
  ∀ decision pushed, consume blob = .ok (decision, pushed) →
    (∀ issue ∈ pushed, P issue) ∧ ∀ a, decision = .accept a → S (.done a)

/-- A decision that accepts the blob. -/
theorem decides_of_accept {blob : AcquiredBlob} {a : α} {issues : List VerifierIssue}
    {consume : Consumer α} (hconsume : consume blob = .ok (.accept a, issues))
    (hissues : ∀ issue ∈ issues, P issue) (ha : S (.done a)) : Decides P S consume blob := by
  intro decision pushed h
  rw [hconsume] at h
  cases h
  refine ⟨hissues, ?_⟩
  intro a' heq
  cases heq
  exact ha

/-- A decision that depends on the attribution of the blob. -/
theorem decides_of_attributable {crypto : VerifierPrimitives} {blob : AcquiredBlob} {a : α}
    {condemned indicted : List VerifierIssue}
    {consume : Consumer α}
    (hconsume : consume blob = (blob.attributable crypto).map fun attributable =>
      if attributable then (.accept a, condemned) else (.nextSource, indicted))
    (hcondemned : blob.attributable crypto = .ok true → (∀ issue ∈ condemned, P issue) ∧ S (.done a))
    (hindicted : ∀ issue ∈ indicted, P issue) : Decides P S consume blob := by
  intro decision pushed h
  rw [hconsume] at h
  cases hattributable : blob.attributable crypto with
  | error panic =>
      rw [hattributable] at h
      cases h
  | ok attributable =>
      rw [hattributable] at h
      simp only [Except.map, Except.ok.injEq] at h
      cases attributable with
      | true =>
          cases h
          obtain ⟨hissues, ha⟩ := hcondemned hattributable
          refine ⟨hissues, ?_⟩
          intro a' heq
          cases heq
          exact ha
      | false =>
          cases h
          refine ⟨hindicted, ?_⟩
          intro a' heq
          cases heq

theorem post_offer {consume : Consumer α} {blob : AcquiredBlob} {fetcher : GatewayFetcher σ}
    {rest : GatewayFetcher σ → Walked σ α} (hblob : Decides P S consume blob)
    (hrest : Checking.Post P S (rest fetcher)) :
    Checking.Post P S (offer consume blob fetcher rest) := by
  rw [offer]
  cases hconsume : consume blob with
  | error panic => exact post_error panic
  | ok decided =>
      obtain ⟨decision, pushed⟩ := decided
      have hdecides := hblob decision pushed hconsume
      cases decision with
      | accept a => exact post_ok hdecides.1 (hdecides.2 a rfl)
      | nextSource => exact post_after hdecides.1 hrest

/-- The sources of a claim: bytes of the caller, or a response fetched under one of its URIs. -/
inductive FromSource (outOfBand : Option (List UInt8)) (uris : List String) : AcquiredBlob → Prop
  | outOfBand {bytes : List UInt8} (h : outOfBand = some bytes) :
      FromSource outOfBand uris ⟨bytes, none, none, .outOfBand⟩
  | fetched {bytes : List UInt8} {j : ℕ} {uri : String} {target : FetchTarget}
      (huri : uris[j]? = some uri) (htarget : parseFetchTarget uri = some target) :
      FromSource outOfBand uris ⟨bytes, some uri, some j, target.binding⟩

section Walk
variable {crypto : VerifierPrimitives} {basePath : List PathSegment} {policy : ContentFetchPolicy}
  {consume : Consumer α}

/-- The codes of the issues that a walk pushes by itself. -/
def walkCodes : List ErrorCode :=
  [.uriFetchFailed, .serviceIndependenceViolation, .uriTargetForbidden]

/-- An issue that a walk pushes by itself, at one of the URIs. -/
def WalkIssue (basePath : List PathSegment) (issue : VerifierIssue) : Prop :=
  issue.code ∈ walkCodes ∧ issue.severity = issue.code.severity ∧
    ∃ j, issue.path = uriPath basePath j

theorem walkIssue_new {code : ErrorCode} (h : code ∈ walkCodes) (j : ℕ) (message : String) :
    WalkIssue basePath (.new code (uriPath basePath j) message) := ⟨h, rfl, j, rfl⟩

theorem walkIssue_of_fetch {j : ℕ} {uri gateway url : String} {outcome : Except OutboundError ℕ}
    {issue : VerifierIssue}
    (h : fetchIssue crypto (uriPath basePath j) uri gateway url outcome = some issue) :
    WalkIssue basePath issue := by
  rw [fetchIssue.eq_def] at h
  split at h <;> cases h
  · exact walkIssue_new (by decide) j _
  · exact walkIssue_new (by decide) j _
  · exact walkIssue_new (by decide) j _

/-- A try that gives no bytes ends the walk or adds one issue of its own. -/
theorem post_fetchIssue (hwalk : ∀ issue, WalkIssue basePath issue → P issue)
    (hexhausted : S (.exhausted true)) {j : ℕ} {uri gateway : String} (url : String)
    (outcome : Except OutboundError ℕ) (fetcher : GatewayFetcher σ) {next : Walked σ α}
    (hnext : Checking.Post P S next) :
    Checking.Post P S
      (match fetchIssue crypto (uriPath basePath j) uri gateway url outcome with
        | none => .ok (.exhausted true, [], fetcher)
        | some issue => next.after [issue]) := by
  cases hissue : fetchIssue crypto (uriPath basePath j) uri gateway url outcome with
  | none => exact post_ok (by simp) hexhausted
  | some issue =>
      have hpushed : ∀ i ∈ [issue], P i := by
        intro i hi
        rw [List.mem_singleton.mp hi]
        exact hwalk issue (walkIssue_of_fetch hissue)
      exact post_after hpushed hnext

theorem post_walkGateways (hwalk : ∀ issue, WalkIssue basePath issue → P issue)
    (hexhausted : ∀ limitExceeded, S (.exhausted limitExceeded)) {j : ℕ} {uri : String}
    {target : FetchTarget}
    (hblob : ∀ bytes, Decides P S consume ⟨bytes, some uri, some j, target.binding⟩)
    {rest : GatewayFetcher σ → Walked σ α} (hrest : ∀ fetcher, Checking.Post P S (rest fetcher))
    (gateways : List String) (fetcher : GatewayFetcher σ) :
    Checking.Post P S
      (walkGateways crypto basePath policy consume j uri target rest gateways fetcher) := by
  induction gateways generalizing fetcher with
  | nil => exact hrest fetcher
  | cons gateway gateways ih =>
      rw [walkGateways]
      dsimp only
      cases wrapFetchOutbound crypto.text fetcher (target.url gateway)
        { FetchOutboundOptions.new .get target.purpose with
          maxBytes := policy.maxFetchBytes } with
      | mk response fetcher =>
          cases response with
          | error e =>
              exact post_fetchIssue hwalk (hexhausted true) (target.url gateway) (.error e) fetcher
                (ih fetcher)
          | ok result =>
              dsimp only
              by_cases hstatus : result.status = 200
              · rw [if_pos hstatus]
                exact post_offer (hblob result.bytes) (ih fetcher)
              · rw [if_neg hstatus]
                exact post_fetchIssue hwalk (hexhausted true) (target.url gateway) (.ok result.status)
                  fetcher (ih fetcher)

theorem post_walkUris {outOfBand : Option (List UInt8)} {uris : List String}
    (hwalk : ∀ issue, WalkIssue basePath issue → P issue)
    (hexhausted : ∀ limitExceeded, S (.exhausted limitExceeded))
    (hblob : ∀ blob, FromSource outOfBand uris blob → Decides P S consume blob) (j : ℕ)
    (fetcher : GatewayFetcher σ) :
    Checking.Post P S
      (walkUris crypto basePath policy consume j (uris.drop j) fetcher) := by
  generalize hleft : uris.drop j = left
  induction left generalizing j fetcher with
  | nil => exact post_ok (by simp) (hexhausted false)
  | cons uri left ih =>
      have huri : uris[j]? = some uri := by
        rw [← List.head?_drop, hleft]
        rfl
      have hnext : uris.drop (j + 1) = left := by
        rw [← List.tail_drop, hleft]
        rfl
      have hrefused : ∀ reason, Checking.Post P S
          ((walkUris crypto basePath policy consume (j + 1) left fetcher).after
            [.new .uriTargetForbidden (uriPath basePath j)
              ("refusing to fetch " ++ crypto.text.debug uri ++ ": " ++ reason)]) := by
        intro reason
        refine post_after ?_ (ih (j + 1) fetcher hnext)
        intro issue hissue
        rw [List.mem_singleton.mp hissue]
        exact hwalk _ (walkIssue_new (by decide) j _)
      rw [walkUris]
      cases htarget : parseFetchTarget uri with
      | none => exact hrefused _
      | some target =>
          dsimp only
          by_cases hdeclines : policy.declines target = true
          · rw [if_pos hdeclines]
            exact hrefused _
          · rw [if_neg hdeclines]
            exact post_walkGateways hwalk hexhausted
              (fun bytes => hblob _ (.fetched huri htarget))
              (fun fetcher => ih (j + 1) fetcher hnext) (policy.gateways target) fetcher

/-- **The rule of a walk.** A property of the issues holds of a run if it holds of those that
the walk pushes by itself and of those that the consumer pushes for the blobs of the claim's
sources, and what the walk ends with is what the consumer accepted one of them with. -/
theorem post_walkBlobSources {outOfBand : Option (List UInt8)} {uris : List String}
    (hwalk : ∀ issue, WalkIssue basePath issue → P issue)
    (hexhausted : ∀ limitExceeded, S (.exhausted limitExceeded))
    (hblob : ∀ blob, FromSource outOfBand uris blob → Decides P S consume blob)
    (allowFetch : Bool) (fetcher : GatewayFetcher σ) :
    Checking.Post P S
      (walkBlobSources crypto basePath policy consume outOfBand uris allowFetch fetcher) := by
  have hfetched : Checking.Post P S
      (if allowFetch then walkUris crypto basePath policy consume 0 uris fetcher
        else .ok (.exhausted false, [], fetcher)) := by
    by_cases hallow : allowFetch = true
    · rw [if_pos hallow]
      exact post_walkUris hwalk hexhausted hblob 0 fetcher
    · rw [if_neg hallow]
      exact post_ok (by simp) (hexhausted false)
  rw [walkBlobSources.eq_def]
  cases hbytes : outOfBand with
  | none => exact hfetched
  | some bytes => exact post_offer (hblob _ (.outOfBand hbytes)) hfetched

end Walk

/-! ## Lists of claims -/

/-- The entries report on the claims one by one. -/
def ReportsOn (R : ℕ → ι → α → Prop) (i : ℕ) (claims : List ι) (entries : List α) : Prop :=
  entries.length = claims.length ∧
    ∀ (j : ℕ) (claim : ι) (entry : α), claims[j]? = some claim → entries[j]? = some entry →
      R (i + j) claim entry

theorem reportsOn_cons {R : ℕ → ι → α → Prop} {i : ℕ} {claim : ι} {claims : List ι} {entry : α}
    {entries : List α} (hentry : R i claim entry) (hrest : ReportsOn R (i + 1) claims entries) :
    ReportsOn R i (claim :: claims) (entry :: entries) := by
  refine ⟨congrArg (· + 1) hrest.1, ?_⟩
  intro j c e hc he
  cases j with
  | zero =>
      cases hc
      cases he
      exact hentry
  | succ j =>
      have hj := hrest.2 j c e hc he
      rwa [Nat.add_right_comm] at hj

theorem ReportsOn.map {R : ℕ → ι → α → Prop} {S : ℕ → ι → β → Prop} {i : ℕ} {claims : List ι}
    {entries : List α} (h : ReportsOn R i claims entries) (f : α → β)
    (hf : ∀ j claim entry, R j claim entry → S j claim (f entry)) :
    ReportsOn S i claims (entries.map f) := by
  refine ⟨(List.length_map f).trans h.1, ?_⟩
  intro j claim entry hclaim hentry
  rw [List.getElem?_map, Option.map_eq_some_iff] at hentry
  obtain ⟨a, ha, rfl⟩ := hentry
  exact hf (i + j) claim a (h.2 j claim a hclaim ha)

theorem ReportsOn.imp {R S : ℕ → ι → α → Prop} {i : ℕ} {claims : List ι} {entries : List α}
    (h : ReportsOn R i claims entries) (hRS : ∀ j claim entry, R j claim entry → S j claim entry) :
    ReportsOn S i claims entries := by
  rw [← List.map_id entries]
  exact h.map id hRS

/-- One entry for every claim. -/
theorem reportsOn_replicate {R : ℕ → ι → α → Prop} {i : ℕ} {claims : List ι} {entry : α}
    (h : ∀ j claim, R j claim entry) :
    ReportsOn R i claims (List.replicate claims.length entry) := by
  refine ⟨List.length_replicate, ?_⟩
  intro j claim found _ hfound
  rw [List.eq_of_mem_replicate (List.mem_of_getElem? hfound)]
  exact h (i + j) claim

theorem post_checkAll {check : ℕ → ι → GatewayFetcher σ → Checking σ α} {R : ℕ → ι → α → Prop}
    (hcheck : ∀ i claim fetcher, Checking.Post P (R i claim) (check i claim fetcher)) (i : ℕ)
    (claims : List ι) (fetcher : GatewayFetcher σ) :
    Checking.Post P (ReportsOn R i claims) (checkAll check i claims fetcher) := by
  induction claims generalizing i fetcher with
  | nil => exact post_ok (by simp) ⟨rfl, by simp⟩
  | cons claim claims ih =>
      rw [checkAll]
      cases hclaim : check i claim fetcher with
      | error panic => exact post_error panic
      | ok step =>
          obtain ⟨entry, pushed, fetcher'⟩ := step
          have hentry := hcheck i claim fetcher entry pushed fetcher' hclaim
          apply Checking.Post.map (ih (i + 1) fetcher')
          intro entries issues fetcher'' hissues hentries
          refine ⟨?_, reportsOn_cons hentry.2 hentries⟩
          intro issue hmem
          rcases List.mem_append.mp hmem with hmem | hmem
          · exact hentry.1 issue hmem
          · exact hissues issue hmem

end Rules

/-! ## Parts of a run -/

/-- The validator's issues of an accepted record, as the run takes them over. -/
def validationIssues (warnings info : List ValidationIssue) : List VerifierIssue :=
  warnings.map .ofValidation ++ info.map .ofValidation

/-- No issue of an accepted record is an error. -/
theorem severity_validationIssues {record : PoeRecord} {recordBody : List UInt8}
    {options : ValidatorOptions} {warnings info : List ValidationIssue}
    (hvalid : validatePoeRecord recordBody options = .ok record warnings info)
    {issue : VerifierIssue} (h : issue ∈ validationIssues warnings info) : issue.severity ≠ .error := by
  obtain ⟨pairs, -, rfl, rfl⟩ := issues_of_accepted hvalid
  rcases List.mem_append.mp h with h | h
  · obtain ⟨found, hfound, rfl⟩ := List.mem_map.mp h
    have hseverity := (List.mem_filter.mp hfound).2
    simp only [beq_iff_eq] at hseverity
    simp [VerifierIssue.ofValidation, hseverity]
  · obtain ⟨found, hfound, rfl⟩ := List.mem_map.mp h
    have hseverity := (List.mem_filter.mp hfound).2
    simp only [beq_iff_eq] at hseverity
    simp [VerifierIssue.ofValidation, hseverity]

theorem index_verifyOne (crypto : SignaturePrimitives) (i : ℕ) (entry : SigEntry)
    (body : List UInt8) (network : CardanoNetwork) :
    (verifyOne crypto i entry body network).index = i := by
  rw [verifyOne.eq_def]
  split
  · rfl
  · split
    · rfl
    · rw [verifyResolved]
      split
      · rfl
      · split_ifs
        · rfl
        · rfl

/-! ## Runs -/

/-- What a run of the checks went through: the claims of both kinds in turn, and one report
assembled of all issues. -/
structure ChecksRun {σ : Type} (crypto : VerifierPrimitives) (record : PoeRecord)
    (validation : List VerifierIssue) (input : VerifyTxInput) (skeleton : ReportSkeleton)
    (fetcher : GatewayFetcher σ) (report : VerifyReport) where
  items : List ItemReportEntry
  outcomes : List MerkleCommitOutcome
  itemIssues : List VerifierIssue
  merkleIssues : List VerifierIssue
  afterItems : GatewayFetcher σ
  afterMerkle : GatewayFetcher σ
  itemsRun : checkAll (itemEntry crypto input) 0 (record.items.getD []) fetcher =
    .ok (items, itemIssues, afterItems)
  merkleRun : checkAll (commitOutcome crypto input) 0 (record.merkle.getD []) afterItems =
    .ok (outcomes, merkleIssues, afterMerkle)
  report_eq :
    let issues := issuesWithSignatures crypto record input validation ++ itemIssues ++
      merkleIssues ++ floorIssues outcomes (anyCommitmentVerified items outcomes)
    report = assembleReport skeleton issues (verdictFromIssues issues) items
      (outcomes.map fun o => ⟨o.contentCheck⟩) (some record)
      (signatureChecks crypto record input) afterMerkle.audit

theorem exists_checksRun {σ : Type} {crypto : VerifierPrimitives} {record : PoeRecord}
    {validation : List VerifierIssue} {input : VerifyTxInput} {skeleton : ReportSkeleton}
    {fetcher : GatewayFetcher σ} {report : VerifyReport}
    (h : runRecordChecks crypto record validation input skeleton fetcher = .ok report) :
    Nonempty (ChecksRun crypto record validation input skeleton fetcher report) := by
  rw [runRecordChecks] at h
  obtain ⟨⟨items, itemIssues, afterItems⟩, hitems, h⟩ := bind_eq_ok.mp h
  obtain ⟨⟨outcomes, merkleIssues, afterMerkle⟩, hmerkle, h⟩ := bind_eq_ok.mp h
  cases h
  exact ⟨⟨items, outcomes, itemIssues, merkleIssues, afterItems, afterMerkle, hitems, hmerkle,
    rfl⟩⟩

end Label309
