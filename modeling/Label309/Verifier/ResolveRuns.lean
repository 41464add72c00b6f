import Label309.Verifier.EgressRuns
import Label309.Verifier.ReportVerdict
import Label309.Verifier.TxBinding

/-!
# Runs of the resolver

The providers are asked in turn. What is resolved is bound and comes from the first of them that
gives the transaction and its facts; what is not resolved has a code that only the kinds of the
failures decide. A host that is rejected, by the policy or by the transport, is the last thing that
happens in a run.
-/
namespace Label309

/-! ## Events -/

/-- What a call comes to: the policy refuses it, or the transport is called. -/
inductive FetchEvent
  | refused (e : OutboundError)
  | called (outcome : FetchOutcome)

def FetchEvent.outcome : FetchEvent → FetchOutcome
  | .refused e => .error e
  | .called outcome => outcome

/-- The host is rejected. -/
def IsDenial (outcome : FetchOutcome) : Prop := ∃ host url, outcome = .error (.denyHost host url)

/-- Events lead from a fetcher to a fetcher. -/
inductive Events {σ : Type} (text : TextPrimitives) :
    GatewayFetcher σ → List FetchEvent → GatewayFetcher σ → Prop
  | none (fetcher : GatewayFetcher σ) : Events text fetcher [] fetcher
  | refused {url : String} {opts : FetchOutboundOptions} {fetcher last : GatewayFetcher σ}
      {e : OutboundError} {row : HttpCallRecord} {events : List FetchEvent}
      (hrejects : PolicyRejects url opts text fetcher.config)
      (hcall : wrapFetchOutbound text fetcher url opts = (.error e, fetcher.record row))
      (hrest : Events text (fetcher.record row) events last) :
      Events text fetcher (.refused e :: events) last
  | called (url : String) (opts : FetchOutboundOptions) {fetcher last : GatewayFetcher σ}
      {events : List FetchEvent} (hrest : Events text (fetcher.after url opts 1) events last) :
      Events text fetcher (.called (fetcher.outcome url opts 0) :: events) last

/-- A host is rejected with the last event when the run is denied, and never otherwise. -/
def DeniesLast (events : List FetchEvent) (denied : Prop) : Prop :=
  (denied ∧ ∃ front e, events = front ++ [e] ∧ IsDenial e.outcome ∧
      ∀ x ∈ front, ¬ IsDenial x.outcome) ∨
    (¬ denied ∧ ∀ x ∈ events, ¬ IsDenial x.outcome)

theorem Events.trans {σ : Type} {text : TextPrimitives} {a b c : GatewayFetcher σ}
    {front rest : List FetchEvent} (h : Events text a front b) (h' : Events text b rest c) :
    Events text a (front ++ rest) c := by
  induction h with
  | none fetcher => exact h'
  | refused hrejects hcall _ ih => exact .refused hrejects hcall (ih h')
  | called url opts _ ih => exact .called url opts (ih h')

section DeniesLast
variable {events front rest : List FetchEvent} {denied : Prop}

theorem DeniesLast.append (h : DeniesLast events denied)
    (hfront : ∀ x ∈ front, ¬ IsDenial x.outcome) : DeniesLast (front ++ events) denied := by
  rcases h with ⟨hdenied, before, e, rfl, he, hbefore⟩ | ⟨hnot, hall⟩
  · refine .inl ⟨hdenied, front ++ before, e, by rw [List.append_assoc], he, ?_⟩
    simpa [or_imp, forall_and] using ⟨hfront, hbefore⟩
  · refine .inr ⟨hnot, ?_⟩
    simpa [or_imp, forall_and] using ⟨hfront, hall⟩

theorem DeniesLast.cons {e : FetchEvent} (he : ¬ IsDenial e.outcome) (h : DeniesLast events denied) :
    DeniesLast (e :: events) denied := by
  have hfront : ∀ x ∈ [e], ¬ IsDenial x.outcome := by simpa using he
  exact h.append hfront

theorem deniesLast_single {e : FetchEvent} : DeniesLast [e] (IsDenial e.outcome) := by
  by_cases he : IsDenial e.outcome
  · exact .inl ⟨he, [], e, rfl, he, by simp⟩
  · exact .inr ⟨he, by simpa using he⟩

theorem DeniesLast.congr {denied' : Prop} (h : DeniesLast events denied) (hiff : denied ↔ denied') :
    DeniesLast events denied' := by
  rwa [propext hiff] at h

theorem DeniesLast.exists_iff (h : DeniesLast events denied) :
    (∃ e ∈ events, IsDenial e.outcome) ↔ denied := by
  rcases h with ⟨hdenied, before, e, rfl, he, -⟩ | ⟨hnot, hall⟩
  · exact iff_of_true ⟨e, by simp, he⟩ hdenied
  · refine iff_of_false ?_ hnot
    rintro ⟨e, hmem, he⟩
    exact hall e hmem he

/-- Nothing happens after a host is rejected. -/
theorem DeniesLast.eq_nil (h : DeniesLast events denied) {e : FetchEvent}
    (hevents : events = front ++ e :: rest) (he : IsDenial e.outcome) : rest = [] := by
  rcases h with ⟨-, before, last, hlast, -, hbefore⟩ | ⟨-, hall⟩
  · rcases rest.eq_nil_or_concat with hnil | ⟨rest', x, hrest⟩
    · exact hnil
    · -- The event would be among those before the last one.
      rw [hevents, hrest, List.concat_eq_append, ← List.cons_append, ← List.append_assoc] at hlast
      have hfront := (List.append_inj' hlast rfl).1
      exact absurd he (hbefore e (by rw [← hfront]; simp))
  · exact absurd he (hall e (by rw [hevents]; simp))

end DeniesLast

/-! ## A call -/

section Call
variable {σ : Type} {text : TextPrimitives} {url : String} {opts : FetchOutboundOptions}

theorem not_denial_of_not_final {retry : RetryConfig} {outcome : FetchOutcome}
    (h : ¬ IsFinal retry outcome) : ¬ IsDenial outcome := by
  rintro ⟨host, url, rfl⟩
  exact h rfl

theorem not_denial_terminalError {config : RetryConfig} {lastStatus : Option ℕ}
    {lastError : Option OutboundError} (h : ∀ e ∈ lastError, ¬ IsDenial (.error e)) :
    ¬ IsDenial (.error (terminalError config url lastStatus lastError)) := by
  have hexhausted {attempts : ℕ} {status : Option ℕ} {message : Option String} :
      ¬ IsDenial (.error (.exhausted url attempts status message)) := by
    rintro ⟨host, target, hcase⟩
    cases hcase
  rw [terminalError]
  by_cases hzero : config.retries = 0
  · rw [if_pos hzero]
    cases lastError with
    | none => exact hexhausted
    | some e => exact h e rfl
  · rw [if_neg hzero]
    exact hexhausted

/-- The attempts stop at a rejected host, and only that makes their error one. -/
theorem events_fetchAttempts (left : ℕ) (lastStatus : Option ℕ) (lastError : Option OutboundError)
    (fetcher : GatewayFetcher σ) (hlast : ∀ e ∈ lastError, ¬ IsDenial (.error e)) :
    ∃ events, Events text fetcher events
        (fetchAttempts url opts left lastStatus lastError fetcher).2 ∧
      DeniesLast events (IsDenial (fetchAttempts url opts left lastStatus lastError fetcher).1) := by
  induction left generalizing lastStatus lastError fetcher with
  | zero => exact ⟨[], .none fetcher, .inr ⟨not_denial_terminalError hlast, by simp⟩⟩
  | succ left ih =>
      rcases fetchAttempts_succ url opts left lastStatus lastError fetcher with
        ⟨-, hrun⟩ | ⟨hfinal, hrun⟩
      · rw [hrun]
        exact ⟨[.called (fetcher.outcome url opts 0)], .called url opts (.none _),
          deniesLast_single⟩
      · have hnot := not_denial_of_not_final hfinal
        have hnoted : ∀ e ∈ (outcomeError (fetcher.outcome url opts 0)).or lastError,
            ¬ IsDenial (.error e) := by
          intro e he
          cases houtcome : fetcher.outcome url opts 0 with
          | ok result =>
              rw [houtcome] at he
              exact hlast e he
          | error e' =>
              rw [houtcome] at he hnot
              cases he
              exact hnot
        obtain ⟨events, hevents, hdenies⟩ := ih _ _ (fetcher.after url opts 1) hnoted
        rw [hrun]
        exact ⟨_, .called url opts hevents, hdenies.cons hnot⟩

theorem events_wrapFetchOutbound (fetcher : GatewayFetcher σ) :
    ∃ events, Events text fetcher events (wrapFetchOutbound text fetcher url opts).2 ∧
      DeniesLast events (IsDenial (wrapFetchOutbound text fetcher url opts).1) := by
  by_cases hrejects : PolicyRejects url opts text fetcher.config
  · obtain ⟨e, row, hcall⟩ := wrapFetchOutbound_of_rejects text fetcher url opts hrejects
    have hevents := Events.refused hrejects hcall (.none _)
    rw [hcall]
    exact ⟨_, hevents, deniesLast_single⟩
  · rw [wrapFetchOutbound_of_not_rejects text fetcher url opts hrejects]
    exact events_fetchAttempts _ none none fetcher (by simp)

end Call

/-! ## An attempt -/

section Attempt
variable {σ α β : Type} {text : TextPrimitives}

/-- The failure is a rejected host. -/
def IsDeny (result : Except ProviderFailure α) : Prop := ∃ message, result = .error (.deny message)

/-- The calls of an attempt stop at a rejected host, which is then its failure. -/
def Attempt.Traced (text : TextPrimitives) (attempt : Attempt σ α) : Prop :=
  ∀ fetcher, ∃ events, Events text fetcher events (attempt fetcher).2 ∧
    DeniesLast events (IsDeny (attempt fetcher).1)

/-- Every value of an attempt is of a kind. -/
def Attempt.Ensures (attempt : Attempt σ α) (P : α → Prop) : Prop :=
  ∀ fetcher a last, attempt fetcher = (.ok a, last) → P a

theorem Attempt.Traced.bind {x : Attempt σ α} {f : α → Attempt σ β} (hx : x.Traced text)
    (hf : ∀ a, (f a).Traced text) : (x >>= f).Traced text := by
  intro fetcher
  obtain ⟨events, hevents, hdenies⟩ := hx fetcher
  rw [Attempt.bind_apply]
  cases hrun : x fetcher with
  | mk result mid =>
      rw [hrun] at hevents hdenies
      cases result with
      | error e => exact ⟨events, hevents, hdenies.congr (by simp [IsDeny])⟩
      | ok a =>
          obtain ⟨rest, hrest, hlast⟩ := hf a mid
          refine ⟨events ++ rest, hevents.trans hrest, hlast.append ?_⟩
          rcases hdenies with ⟨hdeny, -⟩ | ⟨-, hall⟩
          · obtain ⟨message, hcase⟩ := hdeny
            cases hcase
          · exact hall

theorem Attempt.traced_ofExcept {step : Except ProviderFailure α} (h : ¬ IsDeny step) :
    (Attempt.ofExcept step : Attempt σ α).Traced text :=
  fun fetcher => ⟨[], .none fetcher, .inr ⟨h, by simp⟩⟩

theorem Attempt.traced_pure (a : α) : (pure a : Attempt σ α).Traced text :=
  Attempt.traced_ofExcept (by simp [IsDeny])

theorem traced_present {value : Option α} {failure : ProviderFailure}
    (h : ∀ message, failure ≠ .deny message) :
    (present value failure : Attempt σ α).Traced text := by
  refine Attempt.traced_ofExcept ?_
  cases value with
  | none => simpa [IsDeny] using h
  | some a => simp [IsDeny]

theorem traced_require {holds : Bool} {failure : ProviderFailure}
    (h : ∀ message, failure ≠ .deny message) :
    (require holds failure : Attempt σ Unit).Traced text := by
  refine Attempt.traced_ofExcept ?_
  cases holds with
  | false => simpa [IsDeny] using h
  | true => simp [IsDeny]

theorem Attempt.Ensures.bind {x : Attempt σ α} {f : α → Attempt σ β} {Q : α → Prop} {P : β → Prop}
    (hx : x.Ensures Q) (hf : ∀ a, Q a → (f a).Ensures P) : (x >>= f).Ensures P := by
  intro fetcher b last h
  rw [Attempt.bind_apply] at h
  cases hrun : x fetcher with
  | mk result mid =>
      rw [hrun] at h
      cases result with
      | error e => cases h
      | ok a => exact hf a (hx fetcher a mid hrun) mid b last h

/-- A step whose value does not matter. -/
theorem Attempt.Ensures.after {x : Attempt σ α} {f : α → Attempt σ β} {P : β → Prop}
    (hf : ∀ a, (f a).Ensures P) : (x >>= f).Ensures P :=
  Attempt.Ensures.bind (fun _ _ _ _ => trivial) fun a (_ : True) => hf a

theorem Attempt.ensures_pure {a : α} {P : α → Prop} (h : P a) :
    (pure a : Attempt σ α).Ensures P := by
  intro fetcher b last hrun
  cases hrun
  exact h

end Attempt

/-! ## The calls of a provider -/

section Provider
variable {crypto : VerifierPrimitives} {json : JsonPrimitives} {σ : Type}

theorem traced_fetchCardano (url : String) (opts : FetchOutboundOptions) :
    (fetchCardano crypto url opts : Attempt σ FetchOutboundResult).Traced crypto.text := by
  intro fetcher
  obtain ⟨events, hevents, hdenies⟩ := @events_wrapFetchOutbound σ crypto.text url opts fetcher
  refine ⟨events, hevents, hdenies.congr ?_⟩
  change _ ↔ IsDeny ((wrapFetchOutbound crypto.text fetcher url opts).1.mapError classifyOutbound)
  cases (wrapFetchOutbound crypto.text fetcher url opts).1 with
  | ok result => simp [IsDenial, IsDeny, Except.mapError]
  | error e => cases e <;> simp [IsDenial, IsDeny, Except.mapError, classifyOutbound]

theorem traced_parseJson (bytes : List UInt8) :
    (parseJson json bytes : Attempt σ JsonValue).Traced crypto.text := by
  refine Attempt.traced_ofExcept ?_
  cases json.fromSlice bytes <;> simp [IsDeny, Except.mapError]

theorem traced_requireNonNegativeInt (value : Option JsonValue) (field : String) :
    (requireNonNegativeInt json value field : Attempt σ ℕ).Traced crypto.text :=
  (traced_present (by simp)).bind fun _ =>
    (traced_require (by simp)).bind fun _ => Attempt.traced_pure _

theorem traced_hexToBytes (hex : String) :
    (hexToBytes hex : Attempt σ (List UInt8)).Traced crypto.text := by
  refine Attempt.traced_ofExcept ?_
  generalize hexDecode _ = decoded
  cases decoded <;> simp [IsDeny, Except.mapError]

theorem traced_bindFetchedTx (requestedHash txCbor : List UInt8) (provider : String) :
    (Attempt.ofExcept (bindFetchedTx crypto requestedHash txCbor provider) :
      Attempt σ TxSlices).Traced crypto.text := by
  refine Attempt.traced_ofExcept ?_
  rw [bindFetchedTx]
  cases sliceTx txCbor with
  | error e => simp [IsDeny]
  | ok slices =>
      dsimp only
      cases bindTransaction _ requestedHash slices.txBody slices.auxData <;> simp [IsDeny]

theorem traced_depthFromHeights (tipHeight txBlockHeight : ℕ) (provider : String) :
    (Attempt.ofExcept (depthFromHeights tipHeight txBlockHeight provider) :
      Attempt σ ℕ).Traced crypto.text := by
  refine Attempt.traced_ofExcept ?_
  rw [depthFromHeights]
  split <;> simp [IsDeny]

theorem traced_depthOr {served : Option JsonValue} {provider field : String}
    {fromHeights : Attempt σ ℕ} (h : fromHeights.Traced crypto.text) :
    (depthOr json served provider field fromHeights).Traced crypto.text := by
  rw [depthOr.eq_def]
  cases served with
  | none => exact h
  | some v =>
      dsimp only
      by_cases hnull : v.isNull = true
      · rw [if_pos hnull]
        exact h
      · rw [if_neg hnull]
        refine (traced_requireNonNegativeInt _ _).bind fun depth => Attempt.traced_ofExcept ?_
        rw [servedDepth]
        split <;> simp [IsDeny]

theorem traced_koiosFirstEntry (txHash koiosUrl endpoint : String) (value : JsonValue) :
    (koiosFirstEntry txHash koiosUrl endpoint value :
      Attempt σ (List (String × JsonValue))).Traced crypto.text :=
  (traced_present (by simp)).bind fun _ =>
    (traced_present (by simp)).bind fun _ => traced_present (by simp)

theorem traced_status {status : ℕ} {endpoint : String} :
    (require (status = 200) (statusFailure endpoint status) : Attempt σ Unit).Traced
      crypto.text := traced_require (by simp [statusFailure])

theorem traced_fetchKoiosTipHeight (koiosUrl : String) :
    (fetchKoiosTipHeight crypto json koiosUrl : Attempt σ ℕ).Traced crypto.text :=
  (traced_fetchCardano _ _).bind fun _ => traced_status.bind fun _ =>
    (traced_parseJson _).bind fun _ => (traced_present (by simp)).bind fun _ =>
      traced_requireNonNegativeInt _ _

/-- The first half of an attempt with Koios: the bytes, and their parts when they are bound. -/
def koiosBinding (crypto : VerifierPrimitives) (json : JsonPrimitives) (txHash : String)
    (requestedHash : List UInt8) (koiosUrl : String) : Attempt σ (List UInt8 × TxSlices) := do
  let cborRes ← fetchCardano crypto (koiosUrl ++ "/tx_cbor")
    (jsonPostOptions ("\x7b\"_tx_hashes\":[\"" ++ txHash ++ "\"]\x7d"))
  require (cborRes.status = 200) (statusFailure "koios_tx_cbor" cborRes.status)
  let cborJson ← parseJson json cborRes.bytes
  let cborEntry ← koiosFirstEntry txHash koiosUrl "koios_tx_cbor" cborJson
  let cborField ← present ((member cborEntry "cbor").bind JsonValue.asStr)
    (.unavailable "koios_tx_cbor_missing_cbor_field")
  let txCbor ← hexToBytes cborField
  let slices ← Attempt.ofExcept (bindFetchedTx crypto requestedHash txCbor koiosUrl)
  pure (txCbor, slices)

/-- The second half: the facts. -/
def koiosFacts (crypto : VerifierPrimitives) (json : JsonPrimitives) (txHash koiosUrl : String)
    (bound : List UInt8 × TxSlices) : Attempt σ ResolvedTx := do
  let infoRes ← fetchCardano crypto (koiosUrl ++ "/tx_info")
    (jsonPostOptions ("\x7b\"_tx_hashes\":[\"" ++ txHash ++ "\"]\x7d"))
  require (infoRes.status = 200) (statusFailure "koios_tx_info" infoRes.status)
  let infoJson ← parseJson json infoRes.bytes
  let info ← koiosFirstEntry txHash koiosUrl "koios_tx_info" infoJson
  let confirmationDepth ←
    depthOr json (member info "num_confirmations") koiosUrl "num_confirmations" do
      let txBlockHeight ← requireNonNegativeInt json (member info "block_height") "block_height"
      let tipHeight ← fetchKoiosTipHeight crypto json koiosUrl
      .ofExcept (depthFromHeights tipHeight txBlockHeight koiosUrl)
  let blockTime ← requireNonNegativeInt json (member info "tx_timestamp") "tx_timestamp"
  let blockSlot ← requireNonNegativeInt json (member info "absolute_slot") "absolute_slot"
  pure { txCbor := bound.1, slices := bound.2, confirmationDepth, blockTime, blockSlot }

/-- The facts are asked for after the bytes are bound. -/
theorem resolveViaKoios_eq (txHash : String) (requestedHash : List UInt8) (koiosUrl : String) :
    (resolveViaKoios crypto json txHash requestedHash koiosUrl : Attempt σ ResolvedTx) =
      koiosBinding crypto json txHash requestedHash koiosUrl >>=
        koiosFacts crypto json txHash koiosUrl := by
  simp only [resolveViaKoios, koiosBinding, koiosFacts, bind_assoc, pure_bind]

theorem traced_koiosBinding (txHash : String) (requestedHash : List UInt8) (koiosUrl : String) :
    (koiosBinding crypto json txHash requestedHash koiosUrl :
      Attempt σ (List UInt8 × TxSlices)).Traced crypto.text :=
  (traced_fetchCardano _ _).bind fun _ => traced_status.bind fun _ =>
    (traced_parseJson _).bind fun _ => (traced_koiosFirstEntry _ _ _ _).bind fun _ =>
      (traced_present (by simp)).bind fun _ => (traced_hexToBytes _).bind fun _ =>
        (traced_bindFetchedTx _ _ _).bind fun _ => Attempt.traced_pure _

theorem traced_koiosFacts (txHash koiosUrl : String) (bound : List UInt8 × TxSlices) :
    (koiosFacts crypto json txHash koiosUrl bound : Attempt σ ResolvedTx).Traced crypto.text := by
  refine (traced_fetchCardano _ _).bind fun _ => traced_status.bind fun _ =>
    (traced_parseJson _).bind fun _ => (traced_koiosFirstEntry _ _ _ _).bind fun _ =>
      (traced_depthOr ?_).bind fun _ => (traced_requireNonNegativeInt _ _).bind fun _ =>
        (traced_requireNonNegativeInt _ _).bind fun _ => Attempt.traced_pure _
  exact (traced_requireNonNegativeInt _ _).bind fun _ =>
    (traced_fetchKoiosTipHeight _).bind fun _ => traced_depthFromHeights _ _ _

theorem traced_resolveViaKoios (txHash : String) (requestedHash : List UInt8) (koiosUrl : String) :
    (resolveViaKoios crypto json txHash requestedHash koiosUrl :
      Attempt σ ResolvedTx).Traced crypto.text := by
  rw [resolveViaKoios_eq]
  exact (traced_koiosBinding _ _ _).bind fun _ => traced_koiosFacts _ _ _

theorem traced_fetchBlockfrostTx (txHash projectId suffix endpoint : String) :
    (fetchBlockfrostTx crypto json txHash projectId suffix endpoint :
      Attempt σ JsonValue).Traced crypto.text :=
  (traced_fetchCardano _ _).bind fun _ => (traced_require (by simp)).bind fun _ =>
    traced_status.bind fun _ => traced_parseJson _

theorem traced_fetchBlockfrostTipHeight (projectId : String) :
    (fetchBlockfrostTipHeight crypto json projectId : Attempt σ ℕ).Traced crypto.text :=
  (traced_fetchCardano _ _).bind fun _ => traced_status.bind fun _ =>
    (traced_parseJson _).bind fun _ => traced_requireNonNegativeInt _ _

theorem traced_resolveViaBlockfrost (txHash : String) (requestedHash : List UInt8)
    (projectId : String) :
    (resolveViaBlockfrost crypto json txHash requestedHash projectId :
      Attempt σ ResolvedTx).Traced crypto.text := by
  refine (traced_fetchBlockfrostTx _ _ _ _).bind fun _ => (traced_present (by simp)).bind fun _ =>
    (traced_hexToBytes _).bind fun _ => (traced_bindFetchedTx _ _ _).bind fun _ => ?_
  refine (traced_fetchBlockfrostTx _ _ _ _).bind fun _ =>
    (traced_requireNonNegativeInt _ _).bind fun _ => (traced_requireNonNegativeInt _ _).bind
      fun _ => (traced_depthOr ?_).bind fun _ => Attempt.traced_pure _
  exact (traced_requireNonNegativeInt _ _).bind fun _ =>
    (traced_fetchBlockfrostTipHeight _).bind fun _ => traced_depthFromHeights _ _ _

theorem traced_providerChain {txHash : String} {requestedHash : List UInt8}
    {chain : Option (List String)} {projectId : Option String} :
    ∀ provider ∈ (providerChain crypto json txHash requestedHash chain projectId :
      List (Attempt σ ResolvedTx)), provider.Traced crypto.text := by
  intro provider hmem
  rw [providerChain, List.mem_append, List.mem_map, List.mem_map] at hmem
  rcases hmem with ⟨koiosUrl, -, rfl⟩ | ⟨project, -, rfl⟩
  · exact traced_resolveViaKoios _ _ _
  · exact traced_resolveViaBlockfrost _ _ _

/-! ## What a provider gives -/

/-- A transaction that is bound to a reference: its parts are, and they are its own. -/
structure BoundTx (crypto : VerifierPrimitives) (requestedHash : List UInt8)
    (resolved : ResolvedTx) : Prop where
  bound : BoundSlices ⟨crypto.sealing.sha256, crypto.blake2b256⟩ requestedHash resolved.slices
  spans : Spans resolved.txCbor resolved.slices

theorem ensures_bindFetchedTx (requestedHash txCbor : List UInt8) (provider : String) :
    (Attempt.ofExcept (bindFetchedTx crypto requestedHash txCbor provider) :
      Attempt σ TxSlices).Ensures fun slices =>
        BoundSlices ⟨crypto.sealing.sha256, crypto.blake2b256⟩ requestedHash slices ∧
          Spans txCbor slices := by
  intro fetcher slices last h
  have hbind : bindFetchedTx crypto requestedHash txCbor provider = .ok slices :=
    congrArg Prod.fst h
  rw [bindFetchedTx] at hbind
  cases hslice : sliceTx txCbor with
  | error e => simp [hslice] at hbind
  | ok slices' =>
      rw [hslice] at hbind
      dsimp only at hbind
      cases hbound : bindTransaction ⟨crypto.sealing.sha256, crypto.blake2b256⟩ requestedHash
          slices'.txBody slices'.auxData with
      | error e => simp [hbound] at hbind
      | ok done =>
          rw [hbound] at hbind
          cases hbind
          exact ⟨boundSlices_bindTransaction hbound, spans_sliceTx hslice⟩

theorem ensures_resolveViaKoios (txHash : String) (requestedHash : List UInt8)
    (koiosUrl : String) :
    (resolveViaKoios crypto json txHash requestedHash koiosUrl :
      Attempt σ ResolvedTx).Ensures (BoundTx crypto requestedHash) := by
  have hbinding : (koiosBinding crypto json txHash requestedHash koiosUrl :
      Attempt σ (List UInt8 × TxSlices)).Ensures fun bound =>
        BoundSlices ⟨crypto.sealing.sha256, crypto.blake2b256⟩ requestedHash bound.2 ∧
          Spans bound.1 bound.2 := by
    refine .after fun _ => .after fun _ => .after fun _ => .after fun _ => .after fun _ =>
      .after fun txCbor => ?_
    exact (ensures_bindFetchedTx requestedHash txCbor koiosUrl).bind fun _ hslices =>
      Attempt.ensures_pure hslices
  rw [resolveViaKoios_eq]
  refine hbinding.bind fun bound hbound => ?_
  refine .after fun _ => .after fun _ => .after fun _ => .after fun _ => .after fun _ =>
    .after fun _ => .after fun _ => ?_
  exact Attempt.ensures_pure ⟨hbound.1, hbound.2⟩

theorem ensures_resolveViaBlockfrost (txHash : String) (requestedHash : List UInt8)
    (projectId : String) :
    (resolveViaBlockfrost crypto json txHash requestedHash projectId :
      Attempt σ ResolvedTx).Ensures (BoundTx crypto requestedHash) := by
  refine .after fun _ => .after fun _ => .after fun txCbor => ?_
  refine (ensures_bindFetchedTx requestedHash txCbor "blockfrost").bind fun slices hslices => ?_
  refine .after fun _ => .after fun _ => .after fun _ => .after fun _ => ?_
  exact Attempt.ensures_pure ⟨hslices.1, hslices.2⟩

theorem ensures_providerChain {txHash : String} {requestedHash : List UInt8}
    {chain : Option (List String)} {projectId : Option String} :
    ∀ provider ∈ (providerChain crypto json txHash requestedHash chain projectId :
      List (Attempt σ ResolvedTx)), provider.Ensures (BoundTx crypto requestedHash) := by
  intro provider hmem
  rw [providerChain, List.mem_append, List.mem_map, List.mem_map] at hmem
  rcases hmem with ⟨koiosUrl, -, rfl⟩ | ⟨project, -, rfl⟩
  · exact ensures_resolveViaKoios _ _ _
  · exact ensures_resolveViaBlockfrost _ _ _

end Provider

/-! ## The providers in turn -/

/-- The kind of a failure. -/
inductive FailureKind
  | notFound
  | unavailable
  | integrityMismatch
  | deny
  deriving DecidableEq

def ProviderFailure.kind : ProviderFailure → FailureKind
  | .notFound _ => .notFound
  | .unavailable _ => .unavailable
  | .integrityMismatch _ => .integrityMismatch
  | .deny _ => .deny

/-- The code for the kinds of failure that there were. -/
def failureCode (kinds : Finset FailureKind) : ErrorCode :=
  if .deny ∈ kinds then .serviceIndependenceViolation
  else if .integrityMismatch ∈ kinds then .txIntegrityMismatch
  else if .notFound ∈ kinds then .txNotFound
  else .providerUnavailable

/-- The kinds of a list of failures. -/
def failureKinds (failures : List ProviderFailure) : Finset FailureKind :=
  (failures.map ProviderFailure.kind).toFinset

section Providers
variable {σ : Type}

/-- Providers are asked in turn and fail, up to one that is rejected. -/
inductive Tried : List (Attempt σ ResolvedTx) → GatewayFetcher σ → List ProviderFailure →
    GatewayFetcher σ → Prop
  | none (fetcher : GatewayFetcher σ) : Tried [] fetcher [] fetcher
  | failed {provider : Attempt σ ResolvedTx} {providers : List (Attempt σ ResolvedTx)}
      {fetcher mid last : GatewayFetcher σ} {failure : ProviderFailure}
      {failures : List ProviderFailure} (hrun : provider fetcher = (.error failure, mid))
      (hkind : failure.kind ≠ .deny) (hrest : Tried providers mid failures last) :
      Tried (provider :: providers) fetcher (failure :: failures) last
  | denied {provider : Attempt σ ResolvedTx} {providers : List (Attempt σ ResolvedTx)}
      {fetcher last : GatewayFetcher σ} {message : String}
      (hrun : provider fetcher = (.error (.deny message), last)) :
      Tried (provider :: providers) fetcher [.deny message] last

/-- The kinds that have been noted. -/
structure Notes (outcomes : ProviderOutcomes) (kinds : Finset FailureKind) : Prop where
  integrityMismatch : outcomes.integrityMismatch.isSome ↔ .integrityMismatch ∈ kinds
  notFound : outcomes.notFound.isSome ↔ .notFound ∈ kinds
  deny : .deny ∉ kinds

theorem notes_none : Notes .none ∅ := ⟨by simp [ProviderOutcomes.none],
  by simp [ProviderOutcomes.none], by simp⟩

theorem Notes.absorb {outcomes : ProviderOutcomes} {kinds : Finset FailureKind}
    (h : Notes outcomes kinds) {failure : ProviderFailure} (hkind : failure.kind ≠ .deny) :
    ∃ outcomes', outcomes.absorb failure = .ok outcomes' ∧
      Notes outcomes' (insert failure.kind kinds) := by
  cases failure with
  | deny message => exact absurd rfl hkind
  | notFound message =>
      refine ⟨_, rfl, ?_, ?_, ?_⟩
      · simpa [ProviderFailure.kind] using h.integrityMismatch
      · simp [ProviderFailure.kind]
      · simpa [ProviderFailure.kind] using h.deny
  | unavailable message =>
      refine ⟨_, rfl, ?_, ?_, ?_⟩
      · simpa [ProviderFailure.kind] using h.integrityMismatch
      · simpa [ProviderFailure.kind] using h.notFound
      · simpa [ProviderFailure.kind] using h.deny
  | integrityMismatch message =>
      refine ⟨_, rfl, ?_, ?_, ?_⟩
      · simp [ProviderFailure.kind]
      · simpa [ProviderFailure.kind] using h.notFound
      · simpa [ProviderFailure.kind] using h.deny

/-- The failure has the code of what has been noted. -/
theorem Notes.code {outcomes : ProviderOutcomes} {kinds : Finset FailureKind}
    (h : Notes outcomes kinds) : outcomes.failure.code = failureCode kinds := by
  rw [failureCode, if_neg h.deny, ProviderOutcomes.failure.eq_def]
  cases hmismatch : outcomes.integrityMismatch with
  | some message =>
      have hmem := h.integrityMismatch.mp (by rw [hmismatch]; rfl)
      rw [if_pos hmem]
  | none =>
      have hnot : .integrityMismatch ∉ kinds := by
        rw [← h.integrityMismatch, hmismatch]
        simp
      rw [if_neg hnot]
      cases hfound : outcomes.notFound with
      | some message =>
          have hmem := h.notFound.mp (by rw [hfound]; rfl)
          rw [if_pos hmem]
      | none =>
          have hnot : .notFound ∉ kinds := by
            rw [← h.notFound, hfound]
            simp
          rw [if_neg hnot]

theorem failureKinds_cons (failure : ProviderFailure) (failures : List ProviderFailure) :
    failureKinds (failure :: failures) = insert failure.kind (failureKinds failures) := by
  rw [failureKinds, List.map_cons, List.toFinset_cons, failureKinds]

/-- **What is resolved** comes from the first provider that gives it. -/
theorem resolveProviders_ok {outcomes : ProviderOutcomes}
    {providers : List (Attempt σ ResolvedTx)} {fetcher last : GatewayFetcher σ}
    {resolved : ResolvedTx}
    (h : resolveProviders outcomes providers fetcher = (.ok resolved, last)) :
    ∃ front provider rest failures mid, providers = front ++ provider :: rest ∧
      Tried front fetcher failures mid ∧ .deny ∉ failureKinds failures ∧
      provider mid = (.ok resolved, last) := by
  induction providers generalizing outcomes fetcher with
  | nil => cases h
  | cons provider providers ih =>
      rw [resolveProviders] at h
      cases hrun : provider fetcher with
      | mk result mid =>
          rw [hrun] at h
          cases result with
          | ok resolved' =>
              cases h
              exact ⟨[], provider, providers, [], fetcher, rfl, .none fetcher, by simp [failureKinds],
                hrun⟩
          | error failure =>
              dsimp only at h
              cases habsorb : outcomes.absorb failure with
              | error terminal =>
                  rw [habsorb] at h
                  cases h
              | ok outcomes' =>
                  rw [habsorb] at h
                  have hkind : failure.kind ≠ .deny := by
                    intro hdeny
                    cases failure <;> cases hdeny
                    cases habsorb
                  obtain ⟨front, winner, rest, failures, mid', hsplit, htried, hnot, hwinner⟩ := ih h
                  refine ⟨provider :: front, winner, rest, failure :: failures, mid',
                    by rw [hsplit, List.cons_append], .failed hrun hkind htried, ?_, hwinner⟩
                  rw [failureKinds_cons, Finset.mem_insert, not_or]
                  exact ⟨hkind.symm, hnot⟩

/-- **What is not resolved** has the code of the kinds of failure. -/
theorem resolveProviders_error {outcomes : ProviderOutcomes} {kinds : Finset FailureKind}
    (hnotes : Notes outcomes kinds) {providers : List (Attempt σ ResolvedTx)}
    {fetcher last : GatewayFetcher σ} {e : ResolveFailure}
    (h : resolveProviders outcomes providers fetcher = (.error e, last)) :
    ∃ failures, Tried providers fetcher failures last ∧
      e.code = failureCode (kinds ∪ failureKinds failures) := by
  induction providers generalizing outcomes kinds fetcher with
  | nil =>
      cases h
      refine ⟨[], .none _, ?_⟩
      rw [hnotes.code]
      simp [failureKinds]
  | cons provider providers ih =>
      rw [resolveProviders] at h
      cases hrun : provider fetcher with
      | mk result mid =>
          rw [hrun] at h
          cases result with
          | ok resolved => cases h
          | error failure =>
              dsimp only at h
              by_cases hkind : failure.kind = .deny
              · obtain ⟨message, rfl⟩ : ∃ message, failure = .deny message := by
                  cases failure <;> cases hkind
                  exact ⟨_, rfl⟩
                cases h
                refine ⟨[.deny message], .denied hrun, ?_⟩
                rw [failureCode, if_pos (by simp [failureKinds, ProviderFailure.kind])]
              · obtain ⟨outcomes', habsorb, hnotes'⟩ := hnotes.absorb hkind
                rw [habsorb] at h
                obtain ⟨failures, htried, hcode⟩ := ih hnotes' h
                refine ⟨failure :: failures, .failed hrun hkind htried, ?_⟩
                rw [hcode, failureKinds_cons, Finset.insert_union, Finset.union_insert]

/-- The run stops at a rejected host, and only that gives its code. -/
theorem traced_resolveProviders {text : TextPrimitives} {outcomes : ProviderOutcomes}
    {providers : List (Attempt σ ResolvedTx)} (h : ∀ provider ∈ providers, provider.Traced text)
    (fetcher : GatewayFetcher σ) :
    ∃ events, Events text fetcher events (resolveProviders outcomes providers fetcher).2 ∧
      DeniesLast events (∃ e, (resolveProviders outcomes providers fetcher).1 = .error e ∧
        e.code = .serviceIndependenceViolation) := by
  induction providers generalizing outcomes fetcher with
  | nil =>
      refine ⟨[], .none fetcher, .inr ⟨?_, by simp⟩⟩
      rintro ⟨e, he, hcode⟩
      cases he
      rw [ProviderOutcomes.failure.eq_def] at hcode
      split at hcode <;> cases hcode
  | cons provider providers ih =>
      rw [List.forall_mem_cons] at h
      obtain ⟨events, hevents, hdenies⟩ := h.1 fetcher
      rw [resolveProviders]
      cases hrun : provider fetcher with
      | mk result mid =>
          rw [hrun] at hevents hdenies
          cases result with
          | ok resolved => exact ⟨events, hevents, hdenies.congr (by simp [IsDeny])⟩
          | error failure =>
              dsimp only
              by_cases hkind : failure.kind = .deny
              · obtain ⟨message, rfl⟩ : ∃ message, failure = .deny message := by
                  cases failure <;> cases hkind
                  exact ⟨_, rfl⟩
                refine ⟨events, hevents, hdenies.congr ?_⟩
                exact iff_of_true ⟨message, rfl⟩ ⟨_, rfl, rfl⟩
              · obtain ⟨outcomes', habsorb⟩ :
                    ∃ outcomes', outcomes.absorb failure = .ok outcomes' := by
                  cases failure with
                  | deny message => exact absurd rfl hkind
                  | _ => exact ⟨_, rfl⟩
                obtain ⟨rest, hrest, hlast⟩ := @ih outcomes' h.2 mid
                rw [habsorb]
                refine ⟨events ++ rest, hevents.trans hrest, hlast.append ?_⟩
                rcases hdenies with ⟨⟨message, hdeny⟩, -⟩ | ⟨-, hall⟩
                · cases hdeny
                  exact absurd rfl hkind
                · exact hall

end Providers

/-! ## A resolution -/

section Resolution
variable {σ : Type} (crypto : VerifierPrimitives) (json : JsonPrimitives) (txHash : String)
  (chain : Option (List String)) (projectId : Option String) (fetcher : GatewayFetcher σ)

/-- A resolution as the binding wants it. What is resolved is bound to the requested hash and
comes from the first provider that gives the transaction and its facts. What is not resolved has
the code of the kinds of failure of the providers that were asked. A text that is no hash is not
found, and nobody is asked. Nothing happens after a host is rejected. -/
structure ResolutionExact : Prop where
  resolved : ∀ resolved last,
    resolveCardanoTx crypto json txHash chain projectId fetcher = (.ok resolved, last) →
      ∃ requestedHash, hexDecode txHash = .ok requestedHash ∧ requestedHash.length = 32 ∧
        BoundTx crypto requestedHash resolved ∧
        ∃ front provider rest failures mid,
          providerChain crypto json txHash requestedHash chain projectId =
            front ++ provider :: rest ∧
          Tried front fetcher failures mid ∧ .deny ∉ failureKinds failures ∧
          provider mid = (.ok resolved, last)
  failed : ∀ requestedHash, hexDecode txHash = .ok requestedHash → requestedHash.length = 32 →
    ∀ e last, resolveCardanoTx crypto json txHash chain projectId fetcher = (.error e, last) →
      ∃ failures, Tried (providerChain crypto json txHash requestedHash chain projectId) fetcher
        failures last ∧ e.code = failureCode (failureKinds failures)
  malformed : (∀ requestedHash, hexDecode txHash = .ok requestedHash →
      requestedHash.length ≠ 32) →
    ∃ message, resolveCardanoTx crypto json txHash chain projectId fetcher =
      (.error ⟨.txNotFound, message⟩, fetcher)
  denied : ∃ events, Events crypto.text fetcher events
      (resolveCardanoTx crypto json txHash chain projectId fetcher).2 ∧
    (∀ front e rest, events = front ++ e :: rest → IsDenial e.outcome → rest = []) ∧
    ((∃ e ∈ events, IsDenial e.outcome) ↔ ∃ e,
      (resolveCardanoTx crypto json txHash chain projectId fetcher).1 = .error e ∧
        e.code = .serviceIndependenceViolation)

variable {txHash}

theorem resolveCardanoTx_of_hash {requestedHash : List UInt8}
    (hdecode : hexDecode txHash = .ok requestedHash) (hlength : requestedHash.length = 32) :
    resolveCardanoTx crypto json txHash chain projectId fetcher =
      resolveProviders .none
        (providerChain crypto json txHash requestedHash chain projectId) fetcher := by
  rw [resolveCardanoTx.eq_def, hdecode]
  dsimp only
  rw [if_neg (by simp [hlength])]

theorem resolveCardanoTx_malformed
    (h : ∀ requestedHash, hexDecode txHash = .ok requestedHash → requestedHash.length ≠ 32) :
    ∃ message, resolveCardanoTx crypto json txHash chain projectId fetcher =
      (.error ⟨.txNotFound, message⟩, fetcher) := by
  rw [resolveCardanoTx.eq_def]
  cases hdecode : hexDecode txHash with
  | error e => exact ⟨_, rfl⟩
  | ok requestedHash =>
      dsimp only
      rw [if_pos (h requestedHash hdecode)]
      exact ⟨_, rfl⟩

variable (txHash)

/-- **Resolution.** For every chain of providers and every transport. -/
theorem resolveCardanoTx_exact :
    ResolutionExact crypto json txHash chain projectId fetcher := by
  by_cases hhash : ∃ requestedHash, hexDecode txHash = .ok requestedHash ∧
      requestedHash.length = 32
  · obtain ⟨requestedHash, hdecode, hlength⟩ := hhash
    have hrun := resolveCardanoTx_of_hash crypto json chain projectId fetcher hdecode hlength
    refine ⟨?_, ?_, ?_, ?_⟩
    · intro resolved last h
      rw [hrun] at h
      obtain ⟨front, provider, rest, failures, mid, hsplit, htried, hnot, hwinner⟩ :=
        resolveProviders_ok h
      have hmem : provider ∈
          providerChain crypto json txHash requestedHash chain projectId := by
        rw [hsplit]
        simp
      exact ⟨requestedHash, hdecode, hlength,
        ensures_providerChain provider hmem mid resolved last hwinner,
        front, provider, rest, failures, mid, hsplit, htried, hnot, hwinner⟩
    · intro requestedHash' hdecode' _ e last h
      rw [hdecode, Except.ok.injEq] at hdecode'
      subst hdecode'
      rw [hrun] at h
      simpa using resolveProviders_error notes_none h
    · intro h
      exact absurd hlength (h requestedHash hdecode)
    · rw [hrun]
      obtain ⟨events, hevents, hdenies⟩ :=
        @traced_resolveProviders σ crypto.text .none _ traced_providerChain fetcher
      exact ⟨events, hevents, fun front e rest => hdenies.eq_nil, hdenies.exists_iff⟩
  · have hbad : ∀ requestedHash, hexDecode txHash = .ok requestedHash →
        requestedHash.length ≠ 32 := by
      intro requestedHash hdecode hlength
      exact hhash ⟨requestedHash, hdecode, hlength⟩
    obtain ⟨message, hrun⟩ := resolveCardanoTx_malformed crypto json chain projectId fetcher hbad
    refine ⟨?_, ?_, fun _ => ⟨message, hrun⟩, ?_⟩
    · intro resolved last h
      rw [hrun] at h
      cases h
    · intro requestedHash hdecode hlength
      exact absurd hlength (hbad requestedHash hdecode)
    · rw [hrun]
      refine ⟨[], .none fetcher, by simp, iff_of_false (by simp) ?_⟩
      rintro ⟨e, he, hcode⟩
      cases he
      cases hcode

end Resolution

/-! ## A provider without the facts -/

/-- An empty body without auxiliary data, with either of two witness sets. -/
def plainTx : List UInt8 := [0x83, 0xa0, 0xa0, 0xf6]
def witnessedTx : List UInt8 := [0x83, 0xa0, 0xa1, 0x00, 0x80, 0xf6]

/-- BLAKE2b-256 of the empty body. -/
def emptyBodyHash : Digest :=
  ⟨[0xd3, 0x6a, 0x26, 0x19, 0xa6, 0x72, 0x49, 0x46, 0x04, 0xe1, 0x1b, 0xb4, 0x47, 0xcb, 0xcf,
      0x52, 0x31, 0xe9, 0xf2, 0xba, 0x25, 0xc2, 0x16, 0x91, 0x77, 0xed, 0xc9, 0x41, 0xbd, 0x50,
      0xad, 0x6c], rfl⟩

def emptyBodyCrypto : VerifierPrimitives :=
  { publishedCrypto with
    blake2b256 := fun b => if b = [0xa0] then emptyBodyHash else FixedBytes.zero 32 }

/-- The answer with a transaction. -/
def txAnswer (tx : List UInt8) : List UInt8 :=
  utf8Bytes ("[\x7b\"cbor\":\"" ++ hexEncode tx ++ "\"\x7d]")

def txValue (tx : List UInt8) : JsonValue :=
  .array [.object [("cbor", .string (hexEncode tx))]]

/-- The reader of the answers of the two explorers. -/
def explorersJson : JsonPrimitives where
  fromSlice body := if body = txAnswer plainTx then .ok (txValue plainTx)
    else if body = txAnswer witnessedTx then .ok (txValue witnessedTx)
    else if body = infoAnswer then .ok (.array [.object infoEntry])
    else .error "expected value"
  toText _ := "null"

/-- The first explorer has the transaction and not its facts, the second has both. -/
def twoExplorers : GatewayFetcher Unit :=
  .new (fun state url _ =>
    (.ok (if url = "https://a/tx_cbor" then ⟨200, txAnswer plainTx, 0⟩
      else if url = "https://a/tx_info" then ⟨500, [], 0⟩
      else if url = "https://b/tx_cbor" then ⟨200, txAnswer witnessedTx, 0⟩
      else if url = "https://b/tx_info" then ⟨200, infoAnswer, 0⟩
      else ⟨404, [], 0⟩), state)) () none

/-- The transaction is not the one that was bound first, and runs that ask nobody have different
codes. -/
theorem resolveCardanoTx_not_first_bound :
    (¬ ∀ (fetcher : GatewayFetcher Unit) (txHash first second : String) (requestedHash : List UInt8)
        (bound : List UInt8 × TxSlices) (resolved : ResolvedTx),
      hexDecode txHash = .ok requestedHash →
      (koiosBinding emptyBodyCrypto explorersJson txHash requestedHash first fetcher).1 =
        .ok bound →
      (resolveCardanoTx emptyBodyCrypto explorersJson txHash (some [first, second]) none
        fetcher).1 = .ok resolved →
      resolved.txCbor = bound.1) ∧
    ¬ ∀ (fetcher : GatewayFetcher Unit) (txHash txHash' : String) (e e' : ResolveFailure),
      (resolveCardanoTx emptyBodyCrypto explorersJson txHash (some []) none fetcher).1 = .error e →
      (resolveCardanoTx emptyBodyCrypto explorersJson txHash' (some []) none fetcher).1 =
        .error e' →
      e.code = e'.code := by
  constructor
  · intro h
    have hfirst : (koiosBinding emptyBodyCrypto explorersJson (hexEncode emptyBodyHash.val)
        emptyBodyHash.val "https://a" twoExplorers).1.toOption.map Prod.fst =
          some plainTx := by decide +kernel
    have hresolved : (resolveCardanoTx emptyBodyCrypto explorersJson (hexEncode emptyBodyHash.val)
        (some ["https://a", "https://b"]) none twoExplorers).1.toOption.map ResolvedTx.txCbor =
          some witnessedTx := by decide +kernel
    cases hbound : (koiosBinding emptyBodyCrypto explorersJson (hexEncode emptyBodyHash.val)
        emptyBodyHash.val "https://a" twoExplorers).1 with
    | error e =>
        rw [hbound] at hfirst
        cases hfirst
    | ok bound =>
        cases hrun : (resolveCardanoTx emptyBodyCrypto explorersJson (hexEncode emptyBodyHash.val)
            (some ["https://a", "https://b"]) none twoExplorers).1 with
        | error e =>
            rw [hrun] at hresolved
            cases hresolved
        | ok resolved =>
            have hsame := h twoExplorers _ _ _ _ bound resolved (hexDecode_hexEncode _) hbound hrun
            rw [hbound] at hfirst
            rw [hrun] at hresolved
            have htx : witnessedTx = plainTx :=
              (Option.some.inj hresolved).symm.trans (hsame.trans (Option.some.inj hfirst))
            revert htx
            decide
  · intro h
    have hcode := h twoExplorers "" (hexEncode emptyBodyHash.val) _ _ rfl rfl
    revert hcode
    decide +kernel

end Label309
