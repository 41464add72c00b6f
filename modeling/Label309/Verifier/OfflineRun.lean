import Label309.Verifier.RunRequests

/-!
# A run without the chain

A caller that has a record body and the facts of its block verifies it without asking a provider.
The report is the one of the run that resolves the transaction, but for what only the resolution
knows: its requests and the description of the transaction.
-/
namespace Label309

/-! ## The fetcher after a resolution -/

/-- Calls change neither the transport nor the policy. -/
theorem Events.keeps {σ : Type} {text : TextPrimitives} {fetcher last : GatewayFetcher σ}
    {events : List FetchEvent} (h : Events text fetcher events last) :
    last.transport = fetcher.transport ∧ last.config = fetcher.config := by
  induction h with
  | none fetcher => exact ⟨rfl, rfl⟩
  | refused hrejects hcall hrest ih => exact ih
  | called url opts hrest ih => exact ih

section Resolution
variable {σ : Type} {crypto : VerifierPrimitives} {json : JsonPrimitives} {txHash : String}
  {chain : Option (List String)} {projectId : Option String} {fetcher last : GatewayFetcher σ}
  {result : Except ResolveFailure ResolvedTx} {resolved : ResolvedTx}

theorem keeps_resolveCardanoTx
    (h : resolveCardanoTx crypto json txHash chain projectId fetcher = (result, last)) :
    last.transport = fetcher.transport ∧ last.config = fetcher.config := by
  by_cases hhash : ∃ requestedHash, hexDecode txHash = .ok requestedHash ∧
      requestedHash.length = 32
  · obtain ⟨requestedHash, hdecode, hlength⟩ := hhash
    rw [resolveCardanoTx_of_hash crypto json chain projectId fetcher hdecode hlength] at h
    obtain ⟨events, hevents, -⟩ :=
      @traced_resolveProviders σ crypto.text .none _ (@traced_providerChain crypto json σ txHash
        requestedHash chain projectId) fetcher
    rw [h] at hevents
    exact hevents.keeps
  · have hbad : ∀ requestedHash, hexDecode txHash = .ok requestedHash →
        requestedHash.length ≠ 32 := fun requestedHash hdecode hlength =>
      hhash ⟨requestedHash, hdecode, hlength⟩
    obtain ⟨message, hrun⟩ := resolveCardanoTx_malformed crypto json chain projectId fetcher hbad
    rw [hrun] at h
    cases h
    exact ⟨rfl, rfl⟩

/-! ## The depth of a resolved transaction -/

theorem ensures_ofExcept {α : Type} {step : Except ProviderFailure α} {P : α → Prop}
    (h : ∀ a, step = .ok a → P a) : (Attempt.ofExcept step : Attempt σ α).Ensures P := by
  intro fetcher a last hrun
  exact h a (congrArg Prod.fst hrun)

theorem servedDepth_pos {depth depth' : ℕ} {provider field : String}
    (h : servedDepth depth provider field = .ok depth') : 0 < depth' := by
  rw [servedDepth] at h
  split_ifs at h with hdepth
  cases h
  omega

theorem depthFromHeights_pos {tipHeight txBlockHeight depth : ℕ} {provider : String}
    (h : depthFromHeights tipHeight txBlockHeight provider = .ok depth) : 0 < depth := by
  rw [depthFromHeights] at h
  split_ifs at h with hbehind
  cases h
  omega

/-- A depth that is served is read as it is; otherwise the heights give it. -/
theorem ensures_depthOr {served : Option JsonValue} {provider field : String}
    {fromHeights : Attempt σ ℕ} (h : fromHeights.Ensures (0 < ·)) :
    (depthOr json served provider field fromHeights).Ensures (0 < ·) := by
  rw [depthOr.eq_def]
  cases served with
  | none => exact h
  | some v =>
      dsimp only
      by_cases hnull : v.isNull = true
      · rw [if_pos hnull]
        exact h
      · rw [if_neg hnull]
        exact .after fun _ => ensures_ofExcept fun _ => servedDepth_pos

/-- Every provider gives a depth of a block. -/
theorem ensures_depth_providerChain {requestedHash : List UInt8} :
    ∀ provider ∈ (providerChain crypto json txHash requestedHash chain projectId :
      List (Attempt σ ResolvedTx)), provider.Ensures fun resolved =>
        0 < resolved.confirmationDepth := by
  have hheights (x : Attempt σ ℕ) (y : ℕ → Attempt σ ℕ) (provider : String) :
      (do let height ← x
          let tip ← y height
          Attempt.ofExcept (depthFromHeights tip height provider) : Attempt σ ℕ).Ensures
        (0 < ·) :=
    .after fun _ => .after fun _ => ensures_ofExcept fun _ => depthFromHeights_pos
  intro provider hmem
  rw [providerChain, List.mem_append, List.mem_map, List.mem_map] at hmem
  rcases hmem with ⟨koiosUrl, -, rfl⟩ | ⟨project, -, rfl⟩
  · rw [resolveViaKoios_eq]
    refine .after fun _ => .after fun _ => .after fun _ => .after fun _ => .after fun _ => ?_
    refine (ensures_depthOr (hheights _ _ _)).bind fun _ hdepth => ?_
    exact .after fun _ => .after fun _ => Attempt.ensures_pure hdepth
  · refine .after fun _ => .after fun _ => .after fun _ => .after fun _ => .after fun _ =>
      .after fun _ => .after fun _ => ?_
    exact (ensures_depthOr (hheights _ _ _)).bind fun _ hdepth => Attempt.ensures_pure hdepth

theorem depth_pos_of_resolved
    (h : resolveCardanoTx crypto json txHash chain projectId fetcher = (.ok resolved, last)) :
    0 < resolved.confirmationDepth := by
  by_cases hhash : ∃ requestedHash, hexDecode txHash = .ok requestedHash ∧
      requestedHash.length = 32
  · obtain ⟨requestedHash, hdecode, hlength⟩ := hhash
    rw [resolveCardanoTx_of_hash crypto json chain projectId fetcher hdecode hlength] at h
    obtain ⟨front, provider, rest, failures, mid, hsplit, -, -, hwinner⟩ := resolveProviders_ok h
    have hmem : provider ∈ providerChain crypto json txHash requestedHash chain projectId := by
      rw [hsplit]
      simp
    exact ensures_depth_providerChain provider hmem mid resolved last hwinner
  · have hbad : ∀ requestedHash, hexDecode txHash = .ok requestedHash →
        requestedHash.length ≠ 32 := fun requestedHash hdecode hlength =>
      hhash ⟨requestedHash, hdecode, hlength⟩
    obtain ⟨message, hrun⟩ := resolveCardanoTx_malformed crypto json chain projectId fetcher hbad
    rw [hrun] at h
    cases h

end Resolution

/-! ## The two runs -/

/-- The facts of the block of a resolved transaction. -/
def ResolvedTx.blockInfo (resolved : ResolvedTx) : BlockInfo :=
  ⟨resolved.confirmationDepth, resolved.blockTime, some resolved.blockSlot⟩

section Run
variable {σ : Type} {crypto : VerifierPrimitives} {input : VerifyTxInput}

/-- A report with the description of its transaction. -/
def VerifyReport.describedBy (report : VerifyReport) (description : TxDescription) :
    VerifyReport :=
  { report with
    txWitnesses := description.txWitnesses
    txSummary := description.txSummary
    metadataLabels := description.metadataLabels }

/-- The description of the transaction is only written into the report. -/
theorem runRecordPipeline_described (recordBody : List UInt8) (blockInfo : BlockInfo)
    (skeleton : ReportSkeleton) (description : TxDescription) (fetcher : GatewayFetcher σ) :
    runRecordPipeline crypto recordBody blockInfo input
        { skeleton with txDescription := description } fetcher =
      (runRecordPipeline crypto recordBody blockInfo input skeleton fetcher).map fun report =>
        report.describedBy description := by
  rw [runRecordPipeline, runRecordPipeline]
  cases validatePoeRecord recordBody input.validatorOptions with
  | fail issues => rfl
  | ok record warnings info =>
      dsimp only
      by_cases hpending : blockInfo.confirmationDepth < skeleton.threshold
      · rw [if_pos hpending, if_pos hpending]
        rfl
      · rw [if_neg hpending, if_neg hpending, runRecordChecks, runRecordChecks]
        cases checkAll (itemEntry crypto input) 0 (record.items.getD []) fetcher with
        | error panic => rfl
        | ok checked =>
            dsimp only [ExceptBind.ok_bind]
            cases checkAll (commitOutcome crypto input) 0 (record.merkle.getD []) checked.2.2 with
            | error panic => rfl
            | ok outcomes => rfl

/-- **A run over the chain is the resolution and then the run over the record body.** The facts
that the caller of the second would have to vouch for are those that the resolution found. -/
theorem verifyTx_of_verifyRecordBytes {json : JsonPrimitives} {transport : FetchTransport σ}
    {state : σ} {resolved : ResolvedTx} {fetcher : GatewayFetcher σ}
    {value recordBody : List UInt8}
    (hresolve : resolveCardanoTx crypto json input.txHash input.cardanoGatewayChain
      input.blockfrostProjectId (.new transport state input.denyHosts) = (.ok resolved, fetcher))
    (hvalue : label309Value resolved.slices = .ok (some value))
    (hbody : reassembleLabel309Value value = .ok recordBody) :
    ∃ report, verifyRecordBytes crypto recordBody resolved.blockInfo transport fetcher.state input =
        .ok (.ok report) ∧
      verifyTx crypto json (some transport) state input =
        .ok ((report.after fetcher.audit).describedBy
          (decodeTxDescription crypto resolved.slices input)) := by
  obtain ⟨htransport, hconfig⟩ := keeps_resolveCardanoTx hresolve
  have hstart : RunInStep crypto input (fun _ => True) fetcher.audit fetcher
      (.new transport fetcher.state input.denyHosts) :=
    ⟨fun s url opts _ _ => by rw [htransport]; rfl, hconfig, rfl, rfl, (List.append_nil _).symm⟩
  obtain ⟨report, hoffline, honline⟩ := exists_report_runRecordPipeline recordBody
    resolved.blockInfo { input.skeleton with chainFacts := some resolved.blockInfo }
    (fun _ _ _ _ _ => trivial) hstart
  have hdepth : resolved.blockInfo.confirmationDepth ≠ 0 := (depth_pos_of_resolved hresolve).ne'
  refine ⟨report, ?_, ?_⟩
  · rw [verifyRecordBytes, if_neg hdepth]
    exact congrArg Except.ok hoffline
  · rw [verifyTx_eq_of_resolved hresolve, verifyResolvedTx, hvalue]
    dsimp only
    rw [hbody]
    have hdescribed := @runRecordPipeline_described σ crypto input recordBody resolved.blockInfo
      { input.skeleton with chainFacts := some resolved.blockInfo }
      (decodeTxDescription crypto resolved.slices input) fetcher
    rw [honline] at hdescribed
    exact hdescribed

end Run

/-- The published sample, with the facts that its explorer gives. The transaction is described by
its one witness, whose signature verifies. -/
theorem verifyTx_of_verifyRecordBytes_published :
    ∃ report, verifyRecordBytes publishedCrypto publishedRecordBytes
        ⟨20, 1700000000, some 108433709⟩ explorerTransport () publishedInput = .ok (.ok report) ∧
      verifyTx publishedCrypto explorerJson (some explorerTransport) () publishedInput =
        .ok ((report.after explorerRows).describedBy
          (decodeTxDescription publishedCrypto publishedSlices publishedInput)) ∧
      (decodeTxDescription publishedCrypto publishedSlices publishedInput).txWitnesses =
        some [⟨hexEncode testKey.val, hexEncode testKeyHash.val, true⟩] := by
  have hwitnesses : (decodeTxDescription publishedCrypto publishedSlices
      publishedInput).txWitnesses =
        some [⟨hexEncode testKey.val, hexEncode testKeyHash.val, true⟩] := by
    decide +kernel
  have hcarried := published_carried
  cases hvalue : label309Value publishedSlices with
  | error e => simp [hvalue, Except.toOption] at hcarried
  | ok carried =>
      cases carried with
      | none => simp [hvalue, Except.toOption] at hcarried
      | some value =>
          cases hbody : reassembleLabel309Value value with
          | error e => simp [hvalue, hbody, Except.toOption] at hcarried
          | ok recordBody =>
              have hsample : recordBody = publishedRecordBytes := by
                simpa [hvalue, hbody, Except.toOption] using hcarried
              subst hsample
              obtain ⟨report, hoffline, honline⟩ :=
                verifyTx_of_verifyRecordBytes resolveCardanoTx_published hvalue hbody
              exact ⟨report, hoffline, honline, hwitnesses⟩

end Label309
