import Label309.PoeStandard.Produced
import Label309.Verifier.GatewayPath
import Label309.Verifier.ReportVerdict
import Label309.Verifier.ResolveRuns
import Label309.Verifier.SourceWalk

/-!
# What a run asks

A run may ask the endpoints of its providers and then, once it has a record that is final, its
gateways for the content addresses of that record. Of these it asks what its policy lets through.
The report is a function of the answers: transports that answer these requests alike lead to one
report, whatever they do otherwise. And no text of an accepted record is cut inside a character.
-/
namespace Label309
open ExceptBind

/-- The policy of the fetcher of a run. -/
def VerifyTxInput.fetchConfig (input : VerifyTxInput) : WrapFetchOutboundConfig :=
  ⟨input.denyHosts.getD [], ⟨0, defaultRetryableStatuses⟩⟩

/-- The content addresses of a record, as its claims list them. -/
def PoeRecord.claimUris (record : PoeRecord) : List String :=
  (record.items.getD []).flatMap (fun item => item.uris.getD []) ++
    (record.merkle.getD []).flatMap fun commit => commit.uris.getD []

/-- A request to a provider of the transaction, or one to a gateway for a content address of the
record that is checked. -/
inductive MayAsk (input : VerifyTxInput) (checks : PoeRecord → Prop) :
    String → FetchOutboundOptions → Prop
  | koios {koiosUrl endpoint : String}
      (hprovider : koiosUrl ∈ input.cardanoGatewayChain.getD [koiosMainnetUrl])
      (hendpoint : endpoint ∈ ["/tx_cbor", "/tx_info"]) :
      MayAsk input checks (koiosUrl ++ endpoint)
        (jsonPostOptions ("\x7b\"_tx_hashes\":[\"" ++ input.txHash ++ "\"]\x7d"))
  | koiosTip {koiosUrl : String}
      (hprovider : koiosUrl ∈ input.cardanoGatewayChain.getD [koiosMainnetUrl]) :
      MayAsk input checks (koiosUrl ++ "/tip")
        { FetchOutboundOptions.new .get .cardano with headers := [("accept", "application/json")] }
  | blockfrost {projectId endpoint : String} (hproject : input.blockfrostProjectId = some projectId)
      (hendpoint : endpoint ∈ ["/txs/" ++ input.txHash ++ "/cbor", "/txs/" ++ input.txHash ++ "",
        "/blocks/latest"]) :
      MayAsk input checks (blockfrostMainnetHost ++ endpoint) (blockfrostOptions projectId)
  | content {record : PoeRecord} {uri gateway : String} {target : FetchTarget}
      (hfetch : input.fetchContent = true) (hrecord : checks record)
      (huri : uri ∈ record.claimUris) (hparse : parseFetchTarget uri = some target)
      (hgateway : gateway ∈ input.contentPolicy.gateways target) :
      MayAsk input checks (target.url gateway) (fetchOptions input.contentPolicy target)

/-- The record that a run over the transport checks: its transaction resolves deep enough and
carries the record, which validates. -/
def ChecksRecord {σ : Type} (crypto : VerifierPrimitives) (json : JsonPrimitives)
    (transport : FetchTransport σ) (state : σ) (input : VerifyTxInput) (record : PoeRecord) : Prop :=
  ∃ depth, ValidatesTx crypto json (some transport) state input record depth ∧
    input.threshold ≤ depth

/-- Another transport answers what a run may ask, and its policy lets through, as the transport of
the run does. -/
def AgreeOnRun {σ : Type} (crypto : VerifierPrimitives) (json : JsonPrimitives) (state : σ)
    (input : VerifyTxInput) (transport transport' : FetchTransport σ) : Prop :=
  ∀ s url opts, MayAsk input (ChecksRecord crypto json transport state input) url opts →
    ¬ PolicyRejects url opts crypto.text input.fetchConfig →
      transport s url opts = transport' s url opts

/-! ## Fetchers in step -/

/-- Fetchers of one policy, in one state, over transports that agree on what is allowed. The trail
of the first has the rows `before` in front. -/
structure InStep {σ : Type} (text : TextPrimitives) (config : WrapFetchOutboundConfig)
    (allowed : String → FetchOutboundOptions → Prop) (before : List HttpCallRecord)
    (fetcher fetcher' : GatewayFetcher σ) : Prop where
  agree : ∀ state url opts, allowed url opts → ¬ PolicyRejects url opts text config →
    fetcher.transport state url opts = fetcher'.transport state url opts
  configured : fetcher.config = config
  configured' : fetcher'.config = config
  state : fetcher.state = fetcher'.state
  audit : fetcher.audit = before ++ fetcher'.audit

section InStep
variable {σ α β : Type} {text : TextPrimitives} {config : WrapFetchOutboundConfig}
  {allowed : String → FetchOutboundOptions → Prop} {before : List HttpCallRecord}
  {fetcher fetcher' : GatewayFetcher σ} {url : String} {opts : FetchOutboundOptions}

theorem InStep.record (h : InStep text config allowed before fetcher fetcher')
    (row : HttpCallRecord) :
    InStep text config allowed before (fetcher.record row) (fetcher'.record row) where
  agree := h.agree
  configured := h.configured
  configured' := h.configured'
  state := h.state
  audit := by
    rw [GatewayFetcher.record, GatewayFetcher.record, h.audit, List.append_assoc]

theorem InStep.withState (h : InStep text config allowed before fetcher fetcher') (state : σ) :
    InStep text config allowed before { fetcher with state := state }
      { fetcher' with state := state } where
  agree := h.agree
  configured := h.configured
  configured' := h.configured'
  state := rfl
  audit := h.audit

/-- The results are the same, and the fetchers are still in step. -/
def InStep.Ends (text : TextPrimitives) (config : WrapFetchOutboundConfig)
    (allowed : String → FetchOutboundOptions → Prop) (before : List HttpCallRecord)
    (out out' : β × GatewayFetcher σ) : Prop :=
  out.1 = out'.1 ∧ InStep text config allowed before out.2 out'.2

theorem inStep_fetchAttempts (hallowed : allowed url opts)
    (hpermitted : ¬ PolicyRejects url opts text config) (left : ℕ) (lastStatus : Option ℕ)
    (lastError : Option OutboundError) (h : InStep text config allowed before fetcher fetcher') :
    InStep.Ends text config allowed before (fetchAttempts url opts left lastStatus lastError fetcher)
      (fetchAttempts url opts left lastStatus lastError fetcher') := by
  induction left generalizing lastStatus lastError fetcher fetcher' with
  | zero =>
      rw [fetchAttempts, fetchAttempts, h.configured, h.configured']
      exact ⟨rfl, h⟩
  | succ left ih =>
      rw [fetchAttempts, fetchAttempts, ← h.state,
        ← h.agree fetcher.state url opts hallowed hpermitted]
      rcases fetcher.transport fetcher.state url opts with ⟨response, state⟩
      cases response with
      | ok result =>
          have hnext := (h.withState state).record (resultRow url opts result)
          dsimp only
          rw [hnext.configured, hnext.configured']
          by_cases hretry : result.status ∈ config.retry.retryableStatuses ∧
              0 < config.retry.retries
          · rw [if_pos hretry, if_pos hretry]
            exact ih _ _ hnext
          · rw [if_neg hretry, if_neg hretry]
            exact ⟨rfl, hnext⟩
      | error e =>
          dsimp only
          by_cases hpreflight : e.isPreflight = true
          · rw [if_pos hpreflight, if_pos hpreflight]
            exact ⟨rfl, (h.withState state).record _⟩
          · rw [if_neg hpreflight, if_neg hpreflight]
            exact ih _ _ ((h.withState state).record _)

/-- A call ends alike: what the policy refuses is not asked. -/
theorem inStep_wrapFetchOutbound (hallowed : allowed url opts)
    (h : InStep text config allowed before fetcher fetcher') :
    InStep.Ends text config allowed before (wrapFetchOutbound text fetcher url opts)
      (wrapFetchOutbound text fetcher' url opts) := by
  by_cases hrejects : PolicyRejects url opts text config
  · rw [wrapFetchOutbound, wrapFetchOutbound, h.configured, h.configured']
    by_cases hwebhook : opts.purpose = .webhook
    · rw [if_pos hwebhook, if_pos hwebhook]
      exact ⟨rfl, h.record _⟩
    rw [if_neg hwebhook, if_neg hwebhook]
    by_cases hprotocol : isAllowedProtocol text url = false
    · rw [if_pos hprotocol, if_pos hprotocol]
      exact ⟨rfl, h.record _⟩
    rw [if_neg hprotocol, if_neg hprotocol]
    have hdeny := (hrejects.resolve_left hwebhook).resolve_left hprotocol
    dsimp only
    rw [if_pos hdeny, if_pos hdeny]
    exact ⟨rfl, h.record _⟩
  · rw [wrapFetchOutbound_of_not_rejects text fetcher url opts (by rwa [h.configured]),
      wrapFetchOutbound_of_not_rejects text fetcher' url opts (by rwa [h.configured']), h.configured,
      h.configured']
    exact inStep_fetchAttempts hallowed hrejects _ none none h

/-! ## Attempts -/

/-- From fetchers in step the attempt ends alike. -/
def Attempt.Steady (text : TextPrimitives) (config : WrapFetchOutboundConfig)
    (allowed : String → FetchOutboundOptions → Prop) (before : List HttpCallRecord)
    (attempt : Attempt σ α) : Prop :=
  ∀ fetcher fetcher', InStep text config allowed before fetcher fetcher' →
    InStep.Ends text config allowed before (attempt fetcher) (attempt fetcher')

theorem Attempt.Steady.bind {x : Attempt σ α} {f : α → Attempt σ β}
    (hx : x.Steady text config allowed before) (hf : ∀ a, (f a).Steady text config allowed before) :
    (x >>= f).Steady text config allowed before := by
  intro fetcher fetcher' h
  obtain ⟨hresult, hmid⟩ := hx fetcher fetcher' h
  rw [Attempt.bind_apply, Attempt.bind_apply]
  rcases hrun : x fetcher with ⟨result, mid⟩
  rcases hrun' : x fetcher' with ⟨result', mid'⟩
  rw [hrun, hrun'] at hresult hmid
  cases hresult
  cases result with
  | ok a => exact hf a mid mid' hmid
  | error e => exact ⟨rfl, hmid⟩

theorem Attempt.steady_ofExcept (step : Except ProviderFailure α) :
    (Attempt.ofExcept step : Attempt σ α).Steady text config allowed before :=
  fun _ _ h => ⟨rfl, h⟩

theorem Attempt.steady_pure (a : α) : (pure a : Attempt σ α).Steady text config allowed before :=
  fun _ _ h => ⟨rfl, h⟩

end InStep

section Providers
variable {σ : Type} {crypto : VerifierPrimitives} {json : JsonPrimitives}
  {config : WrapFetchOutboundConfig} {allowed : String → FetchOutboundOptions → Prop}
  {checks : PoeRecord → Prop} {before : List HttpCallRecord}

theorem steady_fetchCardano {url : String} {opts : FetchOutboundOptions}
    (hallowed : allowed url opts) :
    (fetchCardano crypto url opts : Attempt σ FetchOutboundResult).Steady crypto.text config
      allowed before := by
  intro fetcher fetcher' h
  obtain ⟨hresult, hlast⟩ := inStep_wrapFetchOutbound hallowed h
  exact ⟨congrArg (Except.mapError classifyOutbound) hresult, hlast⟩

theorem steady_requireNonNegativeInt (value : Option JsonValue) (field : String) :
    (requireNonNegativeInt json value field : Attempt σ ℕ).Steady crypto.text config allowed before :=
  (Attempt.steady_ofExcept _).bind fun _ => (Attempt.steady_ofExcept _).bind fun _ =>
    Attempt.steady_pure _

theorem steady_depthOr {served : Option JsonValue} {provider field : String}
    {fromHeights : Attempt σ ℕ} (h : fromHeights.Steady crypto.text config allowed before) :
    (depthOr json served provider field fromHeights).Steady crypto.text config allowed before := by
  rw [depthOr.eq_def]
  cases served with
  | none => exact h
  | some v =>
      dsimp only
      by_cases hnull : v.isNull = true
      · rw [if_pos hnull]
        exact h
      · rw [if_neg hnull]
        exact (steady_requireNonNegativeInt _ _).bind fun _ => Attempt.steady_ofExcept _

theorem steady_koiosFirstEntry (txHash koiosUrl endpoint : String) (value : JsonValue) :
    (koiosFirstEntry txHash koiosUrl endpoint value :
      Attempt σ (List (String × JsonValue))).Steady crypto.text config allowed before :=
  (Attempt.steady_ofExcept _).bind fun _ => (Attempt.steady_ofExcept _).bind fun _ =>
    Attempt.steady_ofExcept _

theorem steady_resolveViaKoios {input : VerifyTxInput} (requestedHash : List UInt8)
    {koiosUrl : String} (hprovider : koiosUrl ∈ input.cardanoGatewayChain.getD [koiosMainnetUrl]) :
    (resolveViaKoios crypto json input.txHash requestedHash koiosUrl :
      Attempt σ ResolvedTx).Steady crypto.text config (MayAsk input checks) before := by
  refine (steady_fetchCardano (.koios hprovider (by simp))).bind fun _ =>
    (Attempt.steady_ofExcept _).bind fun _ => (Attempt.steady_ofExcept _).bind fun _ =>
    (steady_koiosFirstEntry _ _ _ _).bind fun _ => (Attempt.steady_ofExcept _).bind fun _ =>
    (Attempt.steady_ofExcept _).bind fun _ => (Attempt.steady_ofExcept _).bind fun _ => ?_
  refine (steady_fetchCardano (.koios hprovider (by simp))).bind fun _ =>
    (Attempt.steady_ofExcept _).bind fun _ => (Attempt.steady_ofExcept _).bind fun _ =>
    (steady_koiosFirstEntry _ _ _ _).bind fun _ => (steady_depthOr ?_).bind fun _ =>
    (steady_requireNonNegativeInt _ _).bind fun _ =>
    (steady_requireNonNegativeInt _ _).bind fun _ => Attempt.steady_pure _
  refine (steady_requireNonNegativeInt _ _).bind fun _ => Attempt.Steady.bind ?_ fun _ =>
    Attempt.steady_ofExcept _
  exact (steady_fetchCardano (.koiosTip hprovider)).bind fun _ =>
    (Attempt.steady_ofExcept _).bind fun _ => (Attempt.steady_ofExcept _).bind fun _ =>
    (Attempt.steady_ofExcept _).bind fun _ => steady_requireNonNegativeInt _ _

theorem steady_fetchBlockfrostTx {input : VerifyTxInput} {projectId suffix : String}
    (hproject : input.blockfrostProjectId = some projectId) (hsuffix : suffix = "/cbor" ∨ suffix = "")
    (endpoint : String) :
    (fetchBlockfrostTx crypto json input.txHash projectId suffix endpoint :
      Attempt σ JsonValue).Steady crypto.text config (MayAsk input checks) before := by
  have hurl : blockfrostMainnetHost ++ "/txs/" ++ input.txHash ++ suffix =
      blockfrostMainnetHost ++ ("/txs/" ++ input.txHash ++ suffix) := by
    simp only [String.append_assoc]
  have hask : MayAsk input checks (blockfrostMainnetHost ++ "/txs/" ++ input.txHash ++ suffix)
      (blockfrostOptions projectId) := by
    rw [hurl]
    refine .blockfrost hproject ?_
    rcases hsuffix with rfl | rfl <;> simp
  exact (steady_fetchCardano hask).bind fun _ => (Attempt.steady_ofExcept _).bind fun _ =>
    (Attempt.steady_ofExcept _).bind fun _ => Attempt.steady_ofExcept _

theorem steady_resolveViaBlockfrost {input : VerifyTxInput} (requestedHash : List UInt8)
    {projectId : String} (hproject : input.blockfrostProjectId = some projectId) :
    (resolveViaBlockfrost crypto json input.txHash requestedHash projectId :
      Attempt σ ResolvedTx).Steady crypto.text config (MayAsk input checks) before := by
  refine (steady_fetchBlockfrostTx hproject (.inl rfl) _).bind fun _ =>
    (Attempt.steady_ofExcept _).bind fun _ => (Attempt.steady_ofExcept _).bind fun _ =>
    (Attempt.steady_ofExcept _).bind fun _ => ?_
  refine (steady_fetchBlockfrostTx hproject (.inr rfl) _).bind fun _ =>
    (steady_requireNonNegativeInt _ _).bind fun _ =>
    (steady_requireNonNegativeInt _ _).bind fun _ => (steady_depthOr ?_).bind fun _ =>
    Attempt.steady_pure _
  refine (steady_requireNonNegativeInt _ _).bind fun _ => Attempt.Steady.bind ?_ fun _ =>
    Attempt.steady_ofExcept _
  exact (steady_fetchCardano (.blockfrost hproject (by simp))).bind fun _ =>
    (Attempt.steady_ofExcept _).bind fun _ => (Attempt.steady_ofExcept _).bind fun _ =>
    steady_requireNonNegativeInt _ _

theorem inStep_resolveProviders {providers : List (Attempt σ ResolvedTx)}
    (hproviders : ∀ provider ∈ providers, provider.Steady crypto.text config allowed before)
    (outcomes : ProviderOutcomes) {fetcher fetcher' : GatewayFetcher σ}
    (h : InStep crypto.text config allowed before fetcher fetcher') :
    InStep.Ends crypto.text config allowed before (resolveProviders outcomes providers fetcher)
      (resolveProviders outcomes providers fetcher') := by
  induction providers generalizing outcomes fetcher fetcher' with
  | nil => exact ⟨rfl, h⟩
  | cons provider providers ih =>
      rw [List.forall_mem_cons] at hproviders
      obtain ⟨hresult, hmid⟩ := hproviders.1 fetcher fetcher' h
      rw [resolveProviders, resolveProviders]
      rcases hrun : provider fetcher with ⟨result, mid⟩
      rcases hrun' : provider fetcher' with ⟨result', mid'⟩
      rw [hrun, hrun'] at hresult hmid
      cases hresult
      cases result with
      | ok resolved => exact ⟨rfl, hmid⟩
      | error failure =>
          dsimp only
          cases outcomes.absorb failure with
          | error terminal => exact ⟨rfl, hmid⟩
          | ok outcomes' => exact ih hproviders.2 outcomes' hmid

theorem inStep_resolveCardanoTx {input : VerifyTxInput} {fetcher fetcher' : GatewayFetcher σ}
    (h : InStep crypto.text config (MayAsk input checks) before fetcher fetcher') :
    InStep.Ends crypto.text config (MayAsk input checks) before
      (resolveCardanoTx crypto json input.txHash input.cardanoGatewayChain
        input.blockfrostProjectId fetcher)
      (resolveCardanoTx crypto json input.txHash input.cardanoGatewayChain
        input.blockfrostProjectId fetcher') := by
  rw [resolveCardanoTx, resolveCardanoTx]
  cases hexDecode input.txHash with
  | error e => exact ⟨rfl, h⟩
  | ok requestedHash =>
      dsimp only
      by_cases hlength : requestedHash.length ≠ 32
      · rw [if_pos hlength, if_pos hlength]
        exact ⟨rfl, h⟩
      · rw [if_neg hlength, if_neg hlength]
        refine inStep_resolveProviders ?_ _ h
        intro provider hmem
        rw [providerChain, List.mem_append, List.mem_map, List.mem_map] at hmem
        rcases hmem with ⟨koiosUrl, hprovider, rfl⟩ | ⟨project, hproject, rfl⟩
        · exact steady_resolveViaKoios requestedHash hprovider
        · exact steady_resolveViaBlockfrost requestedHash (Option.mem_toList.mp hproject)

end Providers

/-! ## Checks -/

/-- Both checks return, alike, and the fetchers are still in step. -/
def ReturnAlike {σ α : Type} (text : TextPrimitives) (config : WrapFetchOutboundConfig)
    (allowed : String → FetchOutboundOptions → Prop) (before : List HttpCallRecord)
    (check check' : Checking σ α) : Prop :=
  ∃ a issues fetcher fetcher', check = .ok (a, issues, fetcher) ∧
    check' = .ok (a, issues, fetcher') ∧ InStep text config allowed before fetcher fetcher'

/-- The attribution of the blob does not panic. -/
def Attributes (crypto : VerifierPrimitives) (blob : AcquiredBlob) : Prop :=
  ∃ attributable, blob.attributable crypto = .ok attributable

/-- The consumer decides on every blob whose attribution does not panic. -/
def Decisive {α : Type} (crypto : VerifierPrimitives) (consume : Consumer α) : Prop :=
  ∀ blob, Attributes crypto blob → ∃ decided, consume blob = .ok decided

section Checks
variable {σ α β : Type} {crypto : VerifierPrimitives} {config : WrapFetchOutboundConfig}
  {allowed : String → FetchOutboundOptions → Prop} {before : List HttpCallRecord}
  {fetcher fetcher' : GatewayFetcher σ}

theorem returnAlike_ok (a : α) (issues : List VerifierIssue)
    (h : InStep crypto.text config allowed before fetcher fetcher') :
    ReturnAlike crypto.text config allowed before (.ok (a, issues, fetcher))
      (.ok (a, issues, fetcher')) :=
  ⟨a, issues, fetcher, fetcher', rfl, rfl, h⟩

/-- What is made of a check alike returns alike. -/
theorem ReturnAlike.map {check check' : Checking σ α}
    {f : α × List VerifierIssue × GatewayFetcher σ → β × List VerifierIssue × GatewayFetcher σ}
    (h : ReturnAlike crypto.text config allowed before check check')
    (hf : ∀ a issues fetcher fetcher', InStep crypto.text config allowed before fetcher fetcher' →
      ReturnAlike crypto.text config allowed before (.ok (f (a, issues, fetcher)))
        (.ok (f (a, issues, fetcher')))) :
    ReturnAlike crypto.text config allowed before (check.map f) (check'.map f) := by
  obtain ⟨a, issues, fetcher, fetcher', rfl, rfl, hstep⟩ := h
  exact hf a issues fetcher fetcher' hstep

theorem ReturnAlike.after {walk walk' : Walked σ α} (pushed : List VerifierIssue)
    (h : ReturnAlike crypto.text config allowed before walk walk') :
    ReturnAlike crypto.text config allowed before (walk.after pushed) (walk'.after pushed) :=
  h.map fun a issues _ _ hstep => returnAlike_ok a (pushed ++ issues) hstep

theorem returnAlike_offer {consume : Consumer α} (hconsume : Decisive crypto consume)
    {blob : AcquiredBlob} (hblob : Attributes crypto blob)
    {rest : GatewayFetcher σ → Walked σ α}
    (h : InStep crypto.text config allowed before fetcher fetcher')
    (hrest : ReturnAlike crypto.text config allowed before (rest fetcher) (rest fetcher')) :
    ReturnAlike crypto.text config allowed before (offer consume blob fetcher rest)
      (offer consume blob fetcher' rest) := by
  obtain ⟨⟨decision, pushed⟩, hdecided⟩ := hconsume blob hblob
  rw [offer, offer, hdecided]
  cases decision with
  | accept a => exact returnAlike_ok _ _ h
  | nextSource => exact hrest.after pushed

section Walk
variable {basePath : List PathSegment} {policy : ContentFetchPolicy} {consume : Consumer α}

/-- A try that gives no bytes. -/
theorem returnAlike_fetchIssue {uriIndex : ℕ} {uri gateway : String} (url : String)
    (outcome : Except OutboundError ℕ)
    (h : InStep crypto.text config allowed before fetcher fetcher') {next next' : Walked σ α}
    (hnext : ReturnAlike crypto.text config allowed before next next') :
    ReturnAlike crypto.text config allowed before
      (match fetchIssue crypto (uriPath basePath uriIndex) uri gateway url outcome with
        | none => .ok (.exhausted true, [], fetcher)
        | some issue => next.after [issue])
      (match fetchIssue crypto (uriPath basePath uriIndex) uri gateway url outcome with
        | none => .ok (.exhausted true, [], fetcher')
        | some issue => next'.after [issue]) := by
  cases fetchIssue crypto (uriPath basePath uriIndex) uri gateway url outcome with
  | none => exact returnAlike_ok _ _ h
  | some issue => exact hnext.after [issue]

theorem returnAlike_walkGateways (hconsume : Decisive crypto consume) {uriIndex : ℕ} {uri : String}
    {target : FetchTarget}
    (hblob : ∀ bytes, Attributes crypto ⟨bytes, some uri, some uriIndex, target.binding⟩)
    {rest : GatewayFetcher σ → Walked σ α}
    (hrest : ∀ fetcher fetcher', InStep crypto.text config allowed before fetcher fetcher' →
      ReturnAlike crypto.text config allowed before (rest fetcher) (rest fetcher'))
    {gateways : List String}
    (hallowed : ∀ gateway ∈ gateways, allowed (target.url gateway) (fetchOptions policy target))
    (h : InStep crypto.text config allowed before fetcher fetcher') :
    ReturnAlike crypto.text config allowed before
      (walkGateways crypto basePath policy consume uriIndex uri target rest gateways fetcher)
      (walkGateways crypto basePath policy consume uriIndex uri target rest gateways fetcher') := by
  induction gateways generalizing fetcher fetcher' with
  | nil => exact hrest fetcher fetcher' h
  | cons gateway gateways ih =>
      rw [List.forall_mem_cons] at hallowed
      obtain ⟨hresponse, hnext⟩ := inStep_wrapFetchOutbound hallowed.1 h
      rw [walkGateways, walkGateways]
      dsimp only [fetchOptions] at hresponse hnext ⊢
      generalize wrapFetchOutbound crypto.text fetcher (target.url gateway)
        { FetchOutboundOptions.new .get target.purpose with
          maxBytes := policy.maxFetchBytes } = out at hresponse hnext ⊢
      generalize wrapFetchOutbound crypto.text fetcher' (target.url gateway)
        { FetchOutboundOptions.new .get target.purpose with
          maxBytes := policy.maxFetchBytes } = out' at hresponse hnext ⊢
      obtain ⟨response, next⟩ := out
      obtain ⟨response', next'⟩ := out'
      dsimp only at hresponse hnext ⊢
      subst hresponse
      cases response with
      | error e =>
          exact returnAlike_fetchIssue (target.url gateway) (.error e) hnext (ih hallowed.2 hnext)
      | ok result =>
          dsimp only
          by_cases hstatus : result.status = 200
          · rw [if_pos hstatus, if_pos hstatus]
            exact returnAlike_offer hconsume (hblob result.bytes) hnext (ih hallowed.2 hnext)
          · rw [if_neg hstatus, if_neg hstatus]
            exact returnAlike_fetchIssue (target.url gateway) (.ok result.status) hnext
              (ih hallowed.2 hnext)

/-- A conformant content identifier is not cut inside a character. -/
theorem parseCid_of_validate {cid : String} (h : validateCidProfile (utf8Bytes cid) = true) :
    ∃ parsed, parseCid cid = .ok parsed := by
  by_cases hv0 : (utf8Bytes "Qm").isPrefixOf (utf8Bytes cid) = true
  · obtain ⟨parsed, hparsed, -⟩ := parseCid_v0 hv0 h
    exact ⟨some parsed, hparsed⟩
  · rw [validateCidProfile.eq_def, if_neg hv0] at h
    cases hbytes : utf8Bytes cid with
    | nil => exact ⟨none, by rw [parseCid, hbytes]⟩
    | cons mbPrefix body =>
        rw [hbytes] at h hv0
        dsimp only at h
        cases hdecode : decodeMultibase mbPrefix body with
        | none => simp [hdecode] at h
        | some bytes =>
            refine ⟨(Content.decodeBody mbPrefix body).bind parseCidFields, ?_⟩
            rw [parseCid, hbytes]
            dsimp only
            rw [if_neg (fun hc => hv0 hc.1), if_neg (decodeMultibase_ascii hdecode)]

/-- The content identifier of a conformant URI is the one that was validated. -/
theorem validate_of_checked {uri cidAndPath cid : String} {hasPath : Bool}
    (h : checkOneUri uri = none) (hparts : FetchesChecked uri (.ipfs cidAndPath cid hasPath)) :
    validateCidProfile (utf8Bytes cid) = true := by
  obtain ⟨idx, hfind, -, hbody⟩ := checkOneUri_eq_none h
  obtain ⟨idx', hfind', hscheme, -, hcid, -⟩ := hparts
  rw [hfind, Option.some.injEq] at hfind'
  subst hfind'
  rcases hbody with ⟨har, -⟩ | ⟨-, hvalid⟩
  · exact absurd (har.symm.trans hscheme) (by decide)
  · rw [hcid]
    exact hvalid

/-- What is fetched from a conformant URI can be attributed. -/
theorem attributes_of_checked {uri : String} (hchecked : checkOneUri uri = none)
    {target : FetchTarget} (hparse : parseFetchTarget uri = some target) (bytes : List UInt8)
    (uri' : Option String) (uriIndex : Option ℕ) :
    Attributes crypto ⟨bytes, uri', uriIndex, target.binding⟩ := by
  obtain ⟨target', hparse', hparts⟩ := uriUsable uri hchecked
  rw [hparse, Option.some.injEq] at hparse'
  subst hparse'
  cases target with
  | arweave txid => exact ⟨false, rfl⟩
  | ipfs cidAndPath cid hasPath =>
      have hvalid := validate_of_checked hchecked hparts
      obtain ⟨parsed, hparsed⟩ := parseCid_of_validate hvalid
      obtain ⟨outcome, houtcome⟩ : ∃ outcome,
          verifyIpfsCidBinding crypto cid hasPath bytes = .ok outcome := by
        unfold verifyIpfsCidBinding
        rw [hparsed]
        by_cases hpath : hasPath = true
        · exact ⟨_, if_pos hpath⟩
        · exact ⟨_, if_neg hpath⟩
      refine ⟨decide (outcome = .verified), ?_⟩
      simp only [AcquiredBlob.attributable, FetchTarget.binding, houtcome]
      rfl

theorem returnAlike_walkUris (hconsume : Decisive crypto consume) {uris : List String}
    (hchecked : ∀ uri ∈ uris, checkOneUri uri = none)
    (hallowed : ∀ uri ∈ uris, ∀ target gateway, parseFetchTarget uri = some target →
      gateway ∈ policy.gateways target → allowed (target.url gateway) (fetchOptions policy target))
    (uriIndex : ℕ) (h : InStep crypto.text config allowed before fetcher fetcher') :
    ReturnAlike crypto.text config allowed before
      (walkUris crypto basePath policy consume uriIndex uris fetcher)
      (walkUris crypto basePath policy consume uriIndex uris fetcher') := by
  induction uris generalizing uriIndex fetcher fetcher' with
  | nil => exact returnAlike_ok _ _ h
  | cons uri uris ih =>
      rw [List.forall_mem_cons] at hchecked hallowed
      rw [walkUris, walkUris]
      cases hparse : parseFetchTarget uri with
      | none => exact (ih hchecked.2 hallowed.2 (uriIndex + 1) h).after _
      | some target =>
          dsimp only
          by_cases hdeclines : policy.declines target = true
          · rw [if_pos hdeclines, if_pos hdeclines]
            exact (ih hchecked.2 hallowed.2 (uriIndex + 1) h).after _
          · rw [if_neg hdeclines, if_neg hdeclines]
            refine returnAlike_walkGateways hconsume
              (fun bytes => attributes_of_checked hchecked.1 hparse bytes _ _) ?_ ?_ h
            · exact fun next next' hnext => ih hchecked.2 hallowed.2 (uriIndex + 1) hnext
            · exact fun gateway hgateway => hallowed.1 target gateway hparse hgateway

theorem returnAlike_walkBlobSources (hconsume : Decisive crypto consume) {uris : List String}
    (hchecked : ∀ uri ∈ uris, checkOneUri uri = none) {allowFetch : Bool}
    (hallowed : allowFetch = true → ∀ uri ∈ uris, ∀ target gateway,
      parseFetchTarget uri = some target → gateway ∈ policy.gateways target →
        allowed (target.url gateway) (fetchOptions policy target))
    (outOfBand : Option (List UInt8)) (h : InStep crypto.text config allowed before fetcher fetcher') :
    ReturnAlike crypto.text config allowed before
      (walkBlobSources crypto basePath policy consume outOfBand uris allowFetch fetcher)
      (walkBlobSources crypto basePath policy consume outOfBand uris allowFetch fetcher') := by
  have hfetched : ReturnAlike crypto.text config allowed before
      (if allowFetch then walkUris crypto basePath policy consume 0 uris fetcher
        else .ok (.exhausted false, [], fetcher))
      (if allowFetch then walkUris crypto basePath policy consume 0 uris fetcher'
        else .ok (.exhausted false, [], fetcher')) := by
    by_cases hallow : allowFetch = true
    · rw [if_pos hallow, if_pos hallow]
      exact returnAlike_walkUris hconsume hchecked (hallowed hallow) 0 h
    · rw [if_neg hallow, if_neg hallow]
      exact returnAlike_ok _ _ h
  rw [walkBlobSources.eq_def, walkBlobSources.eq_def]
  cases outOfBand with
  | none => exact hfetched
  | some bytes => exact returnAlike_offer hconsume ⟨true, rfl⟩ h hfetched

end Walk
end Checks

/-! ## The checks of a run -/

section Run
variable {σ : Type} {crypto : VerifierPrimitives} {input : VerifyTxInput}
  {before : List HttpCallRecord} {fetcher fetcher' : GatewayFetcher σ}

theorem decisive_itemConsumer (item : ItemEntry) (basePath : List PathSegment) :
    Decisive crypto (itemConsumer crypto item basePath) := by
  intro blob hblob
  obtain ⟨attributable, hattributable⟩ := hblob
  rw [itemConsumer, hattributable]
  by_cases hhashes : recomputeItemHashes crypto item.hashes blob.bytes = true
  · rw [if_pos hhashes]
    exact ⟨_, rfl⟩
  · rw [if_neg hhashes]
    exact ⟨_, rfl⟩

theorem decisive_leavesConsumer (commit : MerkleCommit) (basePath : List PathSegment) :
    Decisive crypto (leavesConsumer crypto commit basePath) := by
  intro blob hblob
  obtain ⟨attributable, hattributable⟩ := hblob
  rw [leavesConsumer]
  cases validateLeavesDocument crypto blob.bytes commit with
  | ok _ => exact ⟨_, rfl⟩
  | error rejection =>
      dsimp only
      rw [hattributable]
      exact ⟨_, rfl⟩

theorem decisive_decryptConsumer (path : KeyPath) (item : ItemEntry) (i : ℕ)
    (credentials : List Decryption) :
    Decisive crypto (decryptConsumer crypto path item i credentials) := by
  intro blob hblob
  obtain ⟨attributable, hattributable⟩ := hblob
  rw [decryptConsumer]
  cases path.attempt crypto item credentials blob.bytes with
  | opened plaintext =>
      rw [decryptDecision]
      by_cases hhashes : recomputeItemHashes crypto item.hashes plaintext = true
      · rw [if_pos hhashes]
        exact ⟨_, rfl⟩
      · rw [if_neg hhashes]
        exact ⟨_, rfl⟩
  | headerFailure code => exact ⟨_, rfl⟩
  | blobFailure =>
      rw [decryptDecision, hattributable]
      exact ⟨_, rfl⟩
  | inputFailure code message => exact ⟨_, rfl⟩

/-- The fetchers of a run in step. -/
abbrev RunInStep (crypto : VerifierPrimitives) (input : VerifyTxInput) (checks : PoeRecord → Prop)
    (before : List HttpCallRecord) (fetcher fetcher' : GatewayFetcher σ) : Prop :=
  InStep crypto.text input.fetchConfig (MayAsk input checks) before fetcher fetcher'

/-- The checks of a run return alike. -/
abbrev RunReturnsAlike {α : Type} (crypto : VerifierPrimitives) (input : VerifyTxInput)
    (checks : PoeRecord → Prop) (before : List HttpCallRecord) (check check' : Checking σ α) :
    Prop :=
  ReturnAlike crypto.text input.fetchConfig (MayAsk input checks) before check check'

/-- Addresses of a record that the run checks, all of them conformant. -/
def Askable (checks : PoeRecord → Prop) (uris : List String) : Prop :=
  ∃ record, checks record ∧ ∀ uri ∈ uris, uri ∈ record.claimUris ∧ checkOneUri uri = none

variable {checks : PoeRecord → Prop}

/-- A walk over the sources of a claim. -/
theorem returnAlike_sources {α : Type} {basePath : List PathSegment} {consume : Consumer α}
    (hconsume : Decisive crypto consume) {uris : List String} (huris : Askable checks uris)
    {allowFetch : Bool} (hfetch : allowFetch = true → input.fetchContent = true)
    (outOfBand : Option (List UInt8)) (h : RunInStep crypto input checks before fetcher fetcher') :
    RunReturnsAlike crypto input checks before
      (walkBlobSources crypto basePath input.contentPolicy consume outOfBand uris allowFetch
        fetcher)
      (walkBlobSources crypto basePath input.contentPolicy consume outOfBand uris allowFetch
        fetcher') := by
  obtain ⟨record, hrecord, hall⟩ := huris
  refine returnAlike_walkBlobSources hconsume (fun uri huri => (hall uri huri).2) ?_ outOfBand h
  intro hallow uri huri target gateway hparse hgateway
  exact .content (hfetch hallow) hrecord (hall uri huri).1 hparse hgateway

theorem returnAlike_itemEntry {item : ItemEntry} (huris : Askable checks (item.uris.getD []))
    (i : ℕ) (h : RunInStep crypto input checks before fetcher fetcher') :
    RunReturnsAlike crypto input checks before (itemEntry crypto input i item fetcher)
      (itemEntry crypto input i item fetcher') := by
  rw [itemEntry, itemEntry]
  by_cases hsealed : item.enc.isSome = true
  · rw [if_pos hsealed, if_pos hsealed]
    by_cases hdecrypt : input.willDecrypt = true
    · rw [if_pos hdecrypt, if_pos hdecrypt]
      refine ReturnAlike.map ?_ fun result issues _ _ hstep => returnAlike_ok _ issues hstep
      rw [decryptItem, decryptItem]
      cases item.keyPath with
      | none => exact returnAlike_ok _ _ h
      | some path =>
          dsimp only
          by_cases hnone : path.applicable (input.decryption.getD []) = 0
          · rw [if_pos hnone, if_pos hnone]
            exact returnAlike_ok _ _ h
          · rw [if_neg hnone, if_neg hnone]
            refine (returnAlike_sources (decisive_decryptConsumer path item i _) huris id _
              h).map ?_
            intro walkEnd issues _ _ hstep
            cases walkEnd with
            | done result => exact returnAlike_ok _ _ hstep
            | exhausted limitExceeded => exact returnAlike_ok _ _ hstep
    · rw [if_neg hdecrypt, if_neg hdecrypt]
      exact returnAlike_ok _ _ h
  · rw [if_neg hsealed, if_neg hsealed]
    refine ReturnAlike.map ?_ fun result issues _ _ hstep => returnAlike_ok _ issues hstep
    rw [checkItemContent, checkItemContent]
    by_cases hskips : input.fetchContent = false ∨ item.uris.getD [] = []
    · rw [if_pos hskips, if_pos hskips]
      exact returnAlike_ok _ _ h
    · rw [if_neg hskips, if_neg hskips]
      have hfetch : input.fetchContent = true := by
        simpa using fun hoff => hskips (.inl hoff)
      refine (returnAlike_sources (decisive_itemConsumer item _) huris (fun _ => hfetch) none
        h).map ?_
      intro walkEnd issues _ _ hstep
      cases walkEnd with
      | done check => exact returnAlike_ok _ _ hstep
      | exhausted limitExceeded => exact returnAlike_ok _ _ hstep

theorem returnAlike_commitOutcome {commit : MerkleCommit}
    (huris : Askable checks (commit.uris.getD [])) (i : ℕ)
    (h : RunInStep crypto input checks before fetcher fetcher') :
    RunReturnsAlike crypto input checks before (commitOutcome crypto input i commit fetcher)
      (commitOutcome crypto input i commit fetcher') := by
  rw [commitOutcome, commitOutcome, Verifier.checkMerkleCommit, Verifier.checkMerkleCommit]
  by_cases halg : commit.alg ≠ merkleAlgId
  · rw [if_pos halg, if_pos halg]
    exact returnAlike_ok _ _ h
  rw [if_neg halg, if_neg halg]
  by_cases hskips : input.fetchContent = false ∧ input.merkleLeaves i = none
  · rw [if_pos hskips, if_pos hskips]
    exact returnAlike_ok _ _ h
  rw [if_neg hskips, if_neg hskips]
  refine (returnAlike_sources (decisive_leavesConsumer commit _) huris id _ h).map ?_
  intro walkEnd issues _ _ hstep
  cases walkEnd with
  | done check => exact returnAlike_ok _ _ hstep
  | exhausted limitExceeded => exact returnAlike_ok _ _ hstep

theorem returnAlike_checkAll {ι α : Type} {check : ℕ → ι → GatewayFetcher σ → Checking σ α}
    {claims : List ι} (hcheck : ∀ claim ∈ claims, ∀ i fetcher fetcher',
      RunInStep crypto input checks before fetcher fetcher' →
        RunReturnsAlike crypto input checks before (check i claim fetcher) (check i claim fetcher'))
    (i : ℕ) (h : RunInStep crypto input checks before fetcher fetcher') :
    RunReturnsAlike crypto input checks before (checkAll check i claims fetcher)
      (checkAll check i claims fetcher') := by
  induction claims generalizing i fetcher fetcher' with
  | nil => exact returnAlike_ok _ _ h
  | cons claim claims ih =>
      rw [List.forall_mem_cons] at hcheck
      obtain ⟨entry, issues, next, next', hrun, hrun', hnext⟩ := hcheck.1 i fetcher fetcher' h
      rw [checkAll, checkAll, hrun, hrun']
      exact (ih hcheck.2 (i + 1) hnext).map fun entries rest _ _ hstep =>
        returnAlike_ok (entry :: entries) (issues ++ rest) hstep

/-! ## The report -/

/-- The URIs of an accepted record are conformant. -/
theorem checked_of_accepted {b : List UInt8} {options : ValidatorOptions} {record : PoeRecord}
    {warnings info : List ValidationIssue}
    (h : validatePoeRecord b options = .ok record warnings info) :
    (∀ item ∈ record.items.getD [], ∀ uri ∈ item.uris.getD [], checkOneUri uri = none) ∧
      ∀ commit ∈ record.merkle.getD [], ∀ uri ∈ commit.uris.getD [], checkOneUri uri = none := by
  obtain ⟨pairs, -, hgrammar, hrecord⟩ := grammar_of_accepted h
  obtain ⟨hreadItems, hreadMerkle⟩ := recordFromCbor_parts hrecord
  have huris {field : Option CborValue} {uris : Option (List String)}
      (hfield : OptionalField (ArrayOf IsUri) field) (hread : urisFromCbor field = some uris) :
      ∀ uri ∈ uris.getD [], checkOneUri uri = none := by
    intro uri hmem
    cases field with
    | none =>
        cases hread
        cases hmem
    | some v =>
        obtain ⟨entries, rfl, -, hall⟩ := hfield v rfl
        rw [urisFromCbor, Option.map_eq_some_iff] at hread
        obtain ⟨texts, htexts, rfl⟩ := hread
        obtain ⟨e, he, htext⟩ := exists_of_mapM_eq_some htexts hmem
        obtain ⟨s, rfl, hs⟩ := hall e he
        cases htext
        exact hs
  constructor
  · intro item hitem
    cases hitems : record.items with
    | none =>
        rw [hitems] at hitem
        cases hitem
    | some items =>
        rw [hitems] at hitem hreadItems
        obtain ⟨e, -, -, -, hshape, hread⟩ :=
          exists_of_arrayFromCbor hgrammar.items hreadItems hitem
        obtain ⟨itemPairs, rfl, -, -, hfield, -⟩ := hshape
        simp only [itemFromCbor, asMap, Option.bind_eq_bind, Option.bind_eq_some_iff,
          Option.some.injEq, exists_eq_left'] at hread
        obtain ⟨_, -, hashes, -, uris, hreadUris, o, -, heq⟩ := hread
        cases heq
        exact huris hfield hreadUris
  · intro commit hcommit
    cases hmerkle : record.merkle with
    | none =>
        rw [hmerkle] at hcommit
        cases hcommit
    | some merkle =>
        rw [hmerkle] at hcommit hreadMerkle
        obtain ⟨e, -, -, -, hshape, hread⟩ :=
          exists_of_arrayFromCbor hgrammar.merkle hreadMerkle hcommit
        obtain ⟨commitPairs, rfl, -, -, -, -, hfield⟩ := hshape
        simp only [merkleFromCbor, asMap, Option.bind_eq_bind, Option.bind_eq_some_iff,
          Option.some.injEq, exists_eq_left'] at hread
        obtain ⟨_, -, _, -, n, -, uris, hreadUris, heq⟩ := hread
        cases heq
        exact huris hfield hreadUris

/-- The addresses of a claim of an accepted record that is checked. -/
theorem askable_of_accepted {b : List UInt8} {options : ValidatorOptions} {record : PoeRecord}
    {warnings info : List ValidationIssue}
    (h : validatePoeRecord b options = .ok record warnings info) (hrecord : checks record) :
    (∀ item ∈ record.items.getD [], Askable checks (item.uris.getD [])) ∧
      ∀ commit ∈ record.merkle.getD [], Askable checks (commit.uris.getD []) := by
  obtain ⟨hitems, hmerkle⟩ := checked_of_accepted h
  constructor
  · intro item hitem
    refine ⟨record, hrecord, fun uri huri => ⟨?_, hitems item hitem uri huri⟩⟩
    exact List.mem_append_left _ (List.mem_flatMap.mpr ⟨item, hitem, huri⟩)
  · intro commit hcommit
    refine ⟨record, hrecord, fun uri huri => ⟨?_, hmerkle commit hcommit uri huri⟩⟩
    exact List.mem_append_right _ (List.mem_flatMap.mpr ⟨commit, hcommit, huri⟩)

/-- The report of a run that had asked for something before. -/
def VerifyReport.after (before : List HttpCallRecord) (report : VerifyReport) : VerifyReport :=
  { report with auditTrail := before ++ report.auditTrail }

@[simp] theorem VerifyReport.after_nil (report : VerifyReport) : report.after [] = report := rfl

theorem exists_report_runRecordPipeline (recordBody : List UInt8) (blockInfo : BlockInfo)
    (skeleton : ReportSkeleton)
    (hchecks : ∀ record warnings info,
      validatePoeRecord recordBody input.validatorOptions = .ok record warnings info →
        skeleton.threshold ≤ blockInfo.confirmationDepth → checks record)
    (h : RunInStep crypto input checks before fetcher fetcher') :
    ∃ report, runRecordPipeline crypto recordBody blockInfo input skeleton fetcher' = .ok report ∧
      runRecordPipeline crypto recordBody blockInfo input skeleton fetcher =
        .ok (report.after before) := by
  rw [runRecordPipeline, runRecordPipeline]
  cases hvalid : validatePoeRecord recordBody input.validatorOptions with
  | fail issues => exact ⟨_, rfl, by dsimp only; rw [h.audit]; rfl⟩
  | ok record warnings info =>
      dsimp only
      by_cases hpending : blockInfo.confirmationDepth < skeleton.threshold
      · rw [if_pos hpending, if_pos hpending]
        exact ⟨_, rfl, by rw [pendingReport, h.audit]; rfl⟩
      · rw [if_neg hpending, if_neg hpending]
        obtain ⟨hitemUris, hmerkleUris⟩ :=
          askable_of_accepted hvalid (hchecks record warnings info hvalid (not_lt.mp hpending))
        obtain ⟨items, itemIssues, next, next', hitems, hitems', hnext⟩ :=
          returnAlike_checkAll (fun item hitem i _ _ => returnAlike_itemEntry (hitemUris item hitem) i)
            0 h
        obtain ⟨outcomes, merkleIssues, last, last', hmerkle, hmerkle', hlast⟩ :=
          returnAlike_checkAll
            (fun commit hcommit i _ _ => returnAlike_commitOutcome (hmerkleUris commit hcommit) i)
            0 hnext
        rw [runRecordChecks, runRecordChecks, hitems, hitems']
        dsimp only [ok_bind]
        rw [hmerkle, hmerkle']
        dsimp only [ok_bind]
        exact ⟨_, rfl, by rw [hlast.audit]; rfl⟩

theorem exists_report_verifyResolvedTx (resolved : ResolvedTx)
    (hchecks : ∀ record depth, CarriesValid resolved input.validatorOptions record depth →
      input.threshold ≤ depth → checks record)
    (h : RunInStep crypto input checks before fetcher fetcher') :
    ∃ report, verifyResolvedTx crypto resolved input fetcher' = .ok report ∧
      verifyResolvedTx crypto resolved input fetcher = .ok (report.after before) := by
  rw [verifyResolvedTx, verifyResolvedTx, h.audit]
  cases hvalue : label309Value resolved.slices with
  | error e => exact ⟨_, rfl, rfl⟩
  | ok carried =>
      cases carried with
      | none => exact ⟨_, rfl, rfl⟩
      | some value =>
          dsimp only
          cases hbody : reassembleLabel309Value value with
          | error e => exact ⟨_, rfl, rfl⟩
          | ok recordBody =>
              refine exists_report_runRecordPipeline recordBody _ _ ?_ h
              intro record warnings info hvalid hdeep
              exact hchecks record resolved.confirmationDepth
                ⟨value, recordBody, hvalue, hbody, ⟨warnings, info, hvalid⟩, rfl⟩ hdeep

/-- One report, whichever of the transports is used. -/
theorem exists_report_verifyTx {json : JsonPrimitives} {transport transport' : FetchTransport σ}
    {state : σ} (hagree : AgreeOnRun crypto json state input transport transport') :
    ∃ report, verifyTx crypto json (some transport) state input = .ok report ∧
      verifyTx crypto json (some transport') state input = .ok report := by
  have hstart : RunInStep crypto input (ChecksRecord crypto json transport state input) []
      (.new transport state input.denyHosts) (.new transport' state input.denyHosts) :=
    ⟨hagree, rfl, rfl, rfl, rfl⟩
  obtain ⟨hresult, hlast⟩ := @inStep_resolveCardanoTx σ crypto json _ _ [] input _ _ hstart
  rw [verifyTx, verifyTx]
  dsimp only
  rcases hrun : resolveCardanoTx crypto json input.txHash input.cardanoGatewayChain
    input.blockfrostProjectId (.new transport state input.denyHosts) with ⟨result, last⟩
  rcases hrun' : resolveCardanoTx crypto json input.txHash input.cardanoGatewayChain
    input.blockfrostProjectId (.new transport' state input.denyHosts) with ⟨result', last'⟩
  rw [hrun, hrun'] at hresult hlast
  cases hresult
  cases result with
  | error failure => exact ⟨_, rfl, by dsimp only; rw [hlast.audit]; rfl⟩
  | ok resolved =>
      have hchecks (record : PoeRecord) (depth : ℕ)
          (hcarries : CarriesValid resolved input.validatorOptions record depth)
          (hdeep : input.threshold ≤ depth) :
          ChecksRecord crypto json transport state input record :=
        ⟨depth, ⟨transport, resolved, last, rfl, hrun, hcarries⟩, hdeep⟩
      obtain ⟨report, hreport', hreport⟩ := exists_report_verifyResolvedTx resolved hchecks hlast
      exact ⟨report, by rwa [VerifyReport.after_nil] at hreport, hreport'⟩

/-- **Service independence.** The report depends on what the transport answers to its providers and
to the gateways of the record's own addresses, and on nothing else that it would do. -/
theorem verifyTx_of_agreeOnRun {json : JsonPrimitives} {transport transport' : FetchTransport σ}
    {state : σ} (hagree : AgreeOnRun crypto json state input transport transport') :
    verifyTx crypto json (some transport) state input =
      verifyTx crypto json (some transport') state input := by
  obtain ⟨report, hrun, hrun'⟩ := exists_report_verifyTx hagree
  rw [hrun, hrun']

/-! ### The sample over a network with nothing else in it -/

/-- What the sample carries is read as its record. -/
theorem published_carried : ((label309Value publishedSlices).toOption.join.bind fun value =>
    (reassembleLabel309Value value).toOption) = some publishedRecordBytes := by
  decide +kernel

/-- The addresses of a record that validated. -/
def ValidateResult.claimUris : ValidateResult → List String
  | .ok record _ _ => record.claimUris
  | .fail _ => []

theorem claimUris_published {record : PoeRecord} (h : ChecksRecord publishedCrypto explorerJson
    explorerTransport () publishedInput record) : record.claimUris = [publishedUri] := by
  obtain ⟨depth, ⟨connected, resolved, fetcher, hconnected, hresolve, hcarries⟩, -⟩ := h
  obtain ⟨value, recordBody, hvalue, hbody, ⟨warnings, info, hvalid⟩, -⟩ := hcarries
  cases hconnected
  rw [resolveCardanoTx_published] at hresolve
  cases hresolve
  have hsample : recordBody = publishedRecordBytes := by
    have hcarried := published_carried
    rw [hvalue, Except.toOption, Option.join_some, Option.bind_some, hbody] at hcarried
    exact Option.some.inj hcarried
  have huris : (validatePoeRecord publishedRecordBytes publishedInput.validatorOptions).claimUris =
      [publishedUri] := by
    decide +kernel
  rw [hsample] at hvalid
  rwa [hvalid] at huris

def helloTarget : FetchTarget := .arweave "bNbA3TEQVL60xlgCcqdz4ZPHFZ711cZ3hmkpGttDt_U"

/-- The URLs that the sample may ask for. -/
def publishedUrls : List String :=
  [koiosMainnetUrl ++ "/tx_cbor", koiosMainnetUrl ++ "/tx_info", koiosMainnetUrl ++ "/tip"] ++
    (publishedInput.contentPolicy.gateways helloTarget).map helloTarget.url

/-- The network of the sample without any other host or page. -/
def narrowTransport : FetchTransport Unit := fun state url opts =>
  if url ∈ publishedUrls then explorerTransport state url opts
  else (.error (.transport url "connection refused"), state)

theorem agreeOnRun_narrowTransport : AgreeOnRun publishedCrypto explorerJson () publishedInput
    explorerTransport narrowTransport := by
  intro state url opts hask _
  have hurl : url ∈ publishedUrls := by
    cases hask with
    | koios hprovider hendpoint =>
        rw [List.mem_singleton.mp hprovider]
        rcases List.mem_pair.mp hendpoint with rfl | rfl <;> simp [publishedUrls]
    | koiosTip hprovider =>
        rw [List.mem_singleton.mp hprovider]
        simp [publishedUrls]
    | blockfrost hproject hendpoint => cases hproject
    | content hfetch hrecord huri hparse hgateway =>
        have hhello : parseFetchTarget publishedUri = some helloTarget := by decide +kernel
        rw [claimUris_published hrecord, List.mem_singleton] at huri
        rw [huri, hhello] at hparse
        cases hparse
        exact List.mem_append_right _ (List.mem_map_of_mem hgateway)
  exact (if_pos hurl).symm

/-- The sample is reported alike when nothing but what it may ask for is there. -/
theorem verifyTx_of_agreeOnRun_narrow :
    verifyTx publishedCrypto explorerJson (some explorerTransport) () publishedInput =
        verifyTx publishedCrypto explorerJson (some narrowTransport) () publishedInput ∧
      explorerTransport ≠ narrowTransport := by
  refine ⟨verifyTx_of_agreeOnRun agreeOnRun_narrowTransport, ?_⟩
  intro hsame
  have hother : "https://example.org" ∉ publishedUrls := by decide +kernel
  have hanswer := congrArg (fun transport => (transport () "https://example.org"
    (jsonPostOptions "")).1.isOk) hsame
  rw [narrowTransport, if_neg hother] at hanswer
  cases hanswer

/-- **A run is out of reach of the panic of `parse_cid`**, which cuts an identifier behind its first
byte: whatever is resolved, answered or written in the record, only conformant addresses are
parsed. -/
theorem verifyTx_returns (crypto : VerifierPrimitives) (json : JsonPrimitives)
    (transport : Option (FetchTransport σ)) (state : σ) (input : VerifyTxInput) :
    ∃ report, verifyTx crypto json transport state input = .ok report := by
  cases transport with
  | none => exact ⟨_, rfl⟩
  | some transport =>
      have hagree : AgreeOnRun crypto json state input transport transport := fun _ _ _ _ _ => rfl
      obtain ⟨report, hrun, -⟩ := exists_report_verifyTx hagree
      exact ⟨report, hrun⟩

end Run

end Label309
