import Label309.Verifier.Egress

/-!
# Runs of the fetcher

The outcomes of a transport are a sequence that its state unfolds. A call that the policy lets
through takes a prefix of it, up to the first final outcome or to the end of its budget, and
writes one row for every outcome that it took.
-/
namespace Label309

abbrev FetchOutcome := Except OutboundError FetchOutboundResult

section Run
variable {σ : Type} (transport : FetchTransport σ) (url : String) (opts : FetchOutboundOptions)

/-! ## The outcomes of a transport -/

/-- The state after a number of calls. -/
def stateAfter (s : σ) : ℕ → σ
  | 0 => s
  | i + 1 => (transport (stateAfter s i) url opts).2

/-- The outcome of the call after `i` calls. -/
def outcomeAt (s : σ) (i : ℕ) : FetchOutcome := (transport (stateAfter transport url opts s i) url opts).1

/-- The outcomes of the first calls. -/
def outcomes (s : σ) (k : ℕ) : List FetchOutcome := (List.range k).map (outcomeAt transport url opts s)

@[simp] theorem length_outcomes (s : σ) (k : ℕ) :
    (outcomes transport url opts s k).length = k := by
  simp [outcomes]

/-- The run from the state after one call. -/
theorem stateAfter_succ (s : σ) (i : ℕ) :
    stateAfter transport url opts s (i + 1) =
      stateAfter transport url opts (transport s url opts).2 i := by
  induction i with
  | zero => rfl
  | succ i ih => rw [stateAfter, ih, stateAfter]

theorem outcomeAt_succ (s : σ) (i : ℕ) :
    outcomeAt transport url opts s (i + 1) =
      outcomeAt transport url opts (transport s url opts).2 i := by
  rw [outcomeAt, stateAfter_succ, outcomeAt]

theorem outcomes_succ (s : σ) (k : ℕ) :
    outcomes transport url opts s (k + 1) =
      (transport s url opts).1 :: outcomes transport url opts (transport s url opts).2 k := by
  rw [outcomes, List.range_succ_eq_map, List.map_cons, List.map_map, outcomes]
  congr 1
  apply List.map_congr_left
  intro i _
  exact outcomeAt_succ transport url opts s i

/-! ## What the fetcher makes of an outcome -/

/-- The row for an outcome. -/
def outcomeRow : FetchOutcome → HttpCallRecord
  | .ok result => resultRow url opts result
  | .error e => if e.isPreflight then preflightRow url opts.purpose else failedRow url opts

/-- An outcome that ends the call: a response that is not to be retried, or an error of the
kind that the policy raises. -/
def IsFinal (retry : RetryConfig) : FetchOutcome → Prop
  | .ok result => result.status ∉ retry.retryableStatuses ∨ retry.retries = 0
  | .error e => e.isPreflight = true

def outcomeStatus : FetchOutcome → Option ℕ
  | .ok result => some result.status
  | .error _ => none

def outcomeError : FetchOutcome → Option OutboundError
  | .ok _ => none
  | .error e => some e

/-- The last value that the outcomes have, or the one noted before them. -/
def lastNoted {α : Type} (f : FetchOutcome → Option α) (taken : List FetchOutcome)
    (before : Option α) : Option α :=
  (taken.filterMap f).getLast?.or before

theorem lastNoted_cons {α : Type} (f : FetchOutcome → Option α) (outcome : FetchOutcome)
    (taken : List FetchOutcome) (before : Option α) :
    lastNoted f (outcome :: taken) before = lastNoted f taken ((f outcome).or before) := by
  rw [lastNoted, lastNoted, List.filterMap_cons]
  cases f outcome with
  | none => rfl
  | some a =>
      rw [List.getLast?_cons]
      cases (taken.filterMap f).getLast? <;> rfl

/-- The policy refuses the call before any attempt. -/
def PolicyRejects (text : TextPrimitives) (config : WrapFetchOutboundConfig) : Prop :=
  opts.purpose = .webhook ∨ isAllowedProtocol text url = false ∨
    config.denyHosts ≠ [] ∧
      matchesDenyList text ((parseHostname text url).getD "") config.denyHosts = true

end Run

section Attempts
variable {σ : Type} (url : String) (opts : FetchOutboundOptions)

/-- The fetcher after `k` calls of its transport: the state of the transport has gone through
them, and each has its row. -/
def GatewayFetcher.after (fetcher : GatewayFetcher σ) (k : ℕ) : GatewayFetcher σ :=
  { fetcher with
    state := stateAfter fetcher.transport url opts fetcher.state k
    audit := fetcher.audit ++
      (outcomes fetcher.transport url opts fetcher.state k).map (outcomeRow url opts) }

/-- The outcome of the call after `i` calls of the transport. -/
def GatewayFetcher.outcome (fetcher : GatewayFetcher σ) (i : ℕ) : FetchOutcome :=
  outcomeAt fetcher.transport url opts fetcher.state i

theorem GatewayFetcher.after_zero (fetcher : GatewayFetcher σ) :
    fetcher.after url opts 0 = fetcher := by
  cases fetcher with
  | mk transport state config audit => simp [GatewayFetcher.after, stateAfter, outcomes]

theorem GatewayFetcher.after_one_after (fetcher : GatewayFetcher σ) (k : ℕ) :
    (fetcher.after url opts 1).after url opts k = fetcher.after url opts (k + 1) := by
  cases fetcher with
  | mk transport state config audit =>
      simp only [GatewayFetcher.after, GatewayFetcher.mk.injEq, true_and]
      constructor
      · exact (stateAfter_succ transport url opts state k).symm
      · rw [outcomes_succ transport url opts state k, List.append_assoc]
        rfl

theorem GatewayFetcher.outcome_after_one (fetcher : GatewayFetcher σ) (i : ℕ) :
    (fetcher.after url opts 1).outcome url opts i = fetcher.outcome url opts (i + 1) :=
  (outcomeAt_succ fetcher.transport url opts fetcher.state i).symm

/-! ## The attempts -/

/-- One attempt: its outcome ends the call or is noted for the end of the budget. -/
theorem fetchAttempts_succ (left : ℕ) (lastStatus : Option ℕ) (lastError : Option OutboundError)
    (fetcher : GatewayFetcher σ) :
    IsFinal fetcher.config.retry (fetcher.outcome url opts 0) ∧
        fetchAttempts url opts (left + 1) lastStatus lastError fetcher =
          (fetcher.outcome url opts 0, fetcher.after url opts 1) ∨
      ¬ IsFinal fetcher.config.retry (fetcher.outcome url opts 0) ∧
        fetchAttempts url opts (left + 1) lastStatus lastError fetcher =
          fetchAttempts url opts left ((outcomeStatus (fetcher.outcome url opts 0)).or lastStatus)
            ((outcomeError (fetcher.outcome url opts 0)).or lastError)
            (fetcher.after url opts 1) := by
  cases fetcher with
  | mk transport state config audit =>
      have houtcome : (GatewayFetcher.mk transport state config audit).outcome url opts 0 =
          (transport state url opts).1 := rfl
      have hafter : (GatewayFetcher.mk transport state config audit).after url opts 1 =
          ⟨transport, (transport state url opts).2, config,
            audit ++ [outcomeRow url opts (transport state url opts).1]⟩ := rfl
      rw [houtcome, hafter, fetchAttempts]
      cases hcall : transport state url opts with
      | mk response next =>
          cases response with
          | ok result =>
              by_cases hretry : result.status ∈ config.retry.retryableStatuses ∧
                  0 < config.retry.retries
              · right
                refine ⟨?_, ?_⟩
                · intro hfinal
                  cases hfinal with
                  | inl hstatus => exact hstatus hretry.1
                  | inr hzero => exact absurd hretry.2 (by rw [hzero]; decide)
                · simp [hcall, hretry, GatewayFetcher.record, outcomeRow, outcomeStatus,
                    outcomeError]
              · left
                refine ⟨?_, ?_⟩
                · by_cases hstatus : result.status ∈ config.retry.retryableStatuses
                  · right
                    by_contra hne
                    exact hretry ⟨hstatus, UInt32.pos_iff_ne_zero.mpr hne⟩
                  · exact .inl hstatus
                · simp [hcall, hretry, GatewayFetcher.record, outcomeRow]
          | error e =>
              cases hpreflight : e.isPreflight with
              | true =>
                  left
                  exact ⟨hpreflight, by
                    simp [hcall, hpreflight, GatewayFetcher.record, outcomeRow]⟩
              | false =>
                  right
                  refine ⟨by simp [IsFinal, hpreflight], ?_⟩
                  simp [hcall, hpreflight, GatewayFetcher.record, outcomeRow, outcomeStatus,
                    outcomeError]

/-- The outcomes of the first calls of the transport. -/
def GatewayFetcher.taken (fetcher : GatewayFetcher σ) (k : ℕ) : List FetchOutcome :=
  outcomes fetcher.transport url opts fetcher.state k

theorem GatewayFetcher.taken_succ (fetcher : GatewayFetcher σ) (k : ℕ) :
    fetcher.taken url opts (k + 1) =
      fetcher.outcome url opts 0 :: (fetcher.after url opts 1).taken url opts k :=
  outcomes_succ fetcher.transport url opts fetcher.state k

/-- A prefix of the outcomes was taken, up to the first final one or to the end of the budget. -/
def Took (fetcher : GatewayFetcher σ) (budget k : ℕ) (fetched : Fetched σ)
    (exhausted : OutboundError) : Prop :=
  fetched.2 = fetcher.after url opts k ∧
    ((∃ i, k = i + 1 ∧ i < budget ∧ IsFinal fetcher.config.retry (fetcher.outcome url opts i) ∧
        (∀ j < i, ¬ IsFinal fetcher.config.retry (fetcher.outcome url opts j)) ∧
        fetched.1 = fetcher.outcome url opts i) ∨
      k = budget ∧ (∀ j < budget, ¬ IsFinal fetcher.config.retry (fetcher.outcome url opts j)) ∧
        fetched.1 = .error exhausted)

/-- A prefix after one outcome that is not final. -/
theorem Took.cons {fetcher : GatewayFetcher σ} {budget k : ℕ} {fetched : Fetched σ}
    {exhausted : OutboundError}
    (hfirst : ¬ IsFinal fetcher.config.retry (fetcher.outcome url opts 0))
    (h : Took url opts (fetcher.after url opts 1) budget k fetched exhausted) :
    Took url opts fetcher (budget + 1) (k + 1) fetched exhausted := by
  have hshift : ∀ n, (∀ j < n, ¬ IsFinal fetcher.config.retry
        ((fetcher.after url opts 1).outcome url opts j)) →
      ∀ j < n + 1, ¬ IsFinal fetcher.config.retry (fetcher.outcome url opts j) := by
    intro n hn j hj
    cases j with
    | zero => exact hfirst
    | succ j =>
        rw [← fetcher.outcome_after_one]
        exact hn j (by omega)
  refine ⟨?_, ?_⟩
  · rw [h.1, GatewayFetcher.after_one_after]
  · cases h.2 with
    | inl hfinal =>
        obtain ⟨i, hk, hi, hfinal, hbefore, hresult⟩ := hfinal
        rw [fetcher.outcome_after_one] at hfinal hresult
        exact .inl ⟨i + 1, by rw [hk], by omega, hfinal, hshift i hbefore, hresult⟩
    | inr hall => exact .inr ⟨by rw [hall.1], hshift budget hall.2.1, hall.2.2⟩

/-- The attempts that are left take such a prefix. -/
theorem took_fetchAttempts (budget : ℕ) (lastStatus : Option ℕ) (lastError : Option OutboundError)
    (fetcher : GatewayFetcher σ) :
    ∃ k, Took url opts fetcher budget k
      (fetchAttempts url opts budget lastStatus lastError fetcher)
      (terminalError fetcher.config.retry url
        (lastNoted outcomeStatus (fetcher.taken url opts budget) lastStatus)
        (lastNoted outcomeError (fetcher.taken url opts budget) lastError)) := by
  induction budget generalizing lastStatus lastError fetcher with
  | zero =>
      refine ⟨0, ?_, .inr ⟨rfl, ?_, rfl⟩⟩
      · rw [GatewayFetcher.after_zero]
        rfl
      · intro j hj
        exact absurd hj (Nat.not_lt_zero j)
  | succ budget ih =>
      cases fetchAttempts_succ url opts budget lastStatus lastError fetcher with
      | inl hfinal =>
          rw [hfinal.2]
          refine ⟨1, rfl, .inl ⟨0, rfl, Nat.succ_pos budget, hfinal.1, ?_, rfl⟩⟩
          intro j hj
          exact absurd hj (Nat.not_lt_zero j)
      | inr hnot =>
          obtain ⟨k, hk⟩ := ih ((outcomeStatus (fetcher.outcome url opts 0)).or lastStatus)
            ((outcomeError (fetcher.outcome url opts 0)).or lastError) (fetcher.after url opts 1)
          rw [hnot.2, GatewayFetcher.taken_succ, lastNoted_cons, lastNoted_cons]
          exact ⟨k + 1, hk.cons url opts hnot.1⟩

end Attempts

section Call
variable {σ : Type} (text : TextPrimitives) (fetcher : GatewayFetcher σ) (url : String)
  (opts : FetchOutboundOptions)

/-- A call as the evidence trail wants it. A refused call leaves one row and the transport as it
was. Any other takes outcomes up to the first final one, which it returns, or up to the end of
its budget, and leaves a row for each. -/
structure FetchExact : Prop where
  refused : PolicyRejects url opts text fetcher.config →
    ∃ e row, wrapFetchOutbound text fetcher url opts = (.error e, fetcher.record row)
  attempted : ¬ PolicyRejects url opts text fetcher.config →
    ∃ k, 1 ≤ k ∧ k ≤ fetcher.config.retry.retries.toNat + 1 ∧
      (wrapFetchOutbound text fetcher url opts).2 = fetcher.after url opts k ∧
      ((∃ i, k = i + 1 ∧ IsFinal fetcher.config.retry (fetcher.outcome url opts i) ∧
          (∀ j < i, ¬ IsFinal fetcher.config.retry (fetcher.outcome url opts j)) ∧
          (wrapFetchOutbound text fetcher url opts).1 = fetcher.outcome url opts i) ∨
        k = fetcher.config.retry.retries.toNat + 1 ∧
          (∀ j < k, ¬ IsFinal fetcher.config.retry (fetcher.outcome url opts j)) ∧
          if fetcher.config.retry.retries = 0 then
            ∃ e, fetcher.outcome url opts 0 = .error e ∧
              (wrapFetchOutbound text fetcher url opts).1 = .error e
          else
            (wrapFetchOutbound text fetcher url opts).1 = .error (.exhausted url k
              (lastNoted outcomeStatus (fetcher.taken url opts k) none)
              ((lastNoted outcomeError (fetcher.taken url opts k) none).map OutboundError.toText)))

/-! ## The policy -/

theorem wrapFetchOutbound_of_rejects (h : PolicyRejects url opts text fetcher.config) :
    ∃ e row, wrapFetchOutbound text fetcher url opts = (.error e, fetcher.record row) := by
  by_cases hwebhook : opts.purpose = .webhook
  · exact ⟨_, _, by rw [wrapFetchOutbound, if_pos hwebhook]⟩
  · by_cases hprotocol : isAllowedProtocol text url = false
    · exact ⟨_, _, by rw [wrapFetchOutbound, if_neg hwebhook, if_pos hprotocol]⟩
    · have hdeny := (h.resolve_left hwebhook).resolve_left hprotocol
      refine ⟨.denyHost (canonicaliseHost text ((parseHostname text url).getD "")) url,
        failedRow url opts, ?_⟩
      rw [wrapFetchOutbound, if_neg hwebhook, if_neg hprotocol]
      exact if_pos hdeny

theorem wrapFetchOutbound_of_not_rejects (h : ¬ PolicyRejects url opts text fetcher.config) :
    wrapFetchOutbound text fetcher url opts =
      fetchAttempts url opts (fetcher.config.retry.retries + 1).toNat none none fetcher := by
  rw [PolicyRejects, not_or, not_or] at h
  rw [wrapFetchOutbound, if_neg h.1, if_neg h.2.1]
  exact if_neg h.2.2

/-! ## Exactness -/

theorem toNat_retries_succ {retries : UInt32} (h : retries.toNat < 2 ^ 32 - 1) :
    (retries + 1).toNat = retries.toNat + 1 := by
  rw [UInt32.toNat_add]
  exact Nat.mod_eq_of_lt (by
    rw [show (1 : UInt32).toNat = 1 from rfl]
    omega)

/-- A fetcher of a single attempt stops at every response. -/
theorem exists_error_of_not_final {retry : RetryConfig} {outcome : FetchOutcome}
    (hzero : retry.retries = 0) (h : ¬ IsFinal retry outcome) : ∃ e, outcome = .error e := by
  cases outcome with
  | ok result => exact absurd (.inr hzero) h
  | error e => exact ⟨e, rfl⟩

/-- **A call is exact unless its attempts are counted to zero.** The exact condition: the policy
refuses the call, or one more than the retries fits in the width of the count. -/
theorem fetchExact_iff :
    FetchExact text fetcher url opts ↔
      PolicyRejects url opts text fetcher.config ∨
        fetcher.config.retry.retries.toNat < 2 ^ 32 - 1 := by
  constructor
  · intro h
    by_contra hnot
    rw [not_or] at hnot
    -- The count of attempts wraps to zero, so nothing is recorded.
    have hmax : fetcher.config.retry.retries = UInt32.ofNat (2 ^ 32 - 1) := by
      apply UInt32.toNat_inj.mp
      have hlt := fetcher.config.retry.retries.toNat_lt
      rw [UInt32.toNat_ofNat']
      omega
    have hrun := wrapFetchOutbound_of_not_rejects text fetcher url opts hnot.1
    have hzero : (fetcher.config.retry.retries + 1).toNat = 0 := by
      rw [hmax]
      rfl
    rw [hzero] at hrun
    obtain ⟨k, hk, -, hafter, -⟩ := h.attempted hnot.1
    rw [hrun] at hafter
    have haudit : fetcher.audit.length = (fetcher.after url opts k).audit.length :=
      congrArg (fun f => f.audit.length) hafter
    simp [GatewayFetcher.after] at haudit
    omega
  · intro h
    refine ⟨wrapFetchOutbound_of_rejects text fetcher url opts, ?_⟩
    intro haccepts
    have hretries := h.resolve_left haccepts
    rw [wrapFetchOutbound_of_not_rejects text fetcher url opts haccepts,
      toNat_retries_succ hretries]
    obtain ⟨k, hafter, hcase⟩ := took_fetchAttempts url opts
      (fetcher.config.retry.retries.toNat + 1) none none fetcher
    refine ⟨k, ?_⟩
    cases hcase with
    | inl hfinal =>
        obtain ⟨i, hk, hi, hfinal, hbefore, hresult⟩ := hfinal
        exact ⟨by omega, by omega, hafter, .inl ⟨i, hk, hfinal, hbefore, hresult⟩⟩
    | inr hall =>
        obtain ⟨hk, hnone, hresult⟩ := hall
        refine ⟨by omega, by omega, hafter, .inr ⟨hk, hk ▸ hnone, ?_⟩⟩
        by_cases hzero : fetcher.config.retry.retries = 0
        · rw [if_pos hzero]
          obtain ⟨e, he⟩ := exists_error_of_not_final hzero (hnone 0 (Nat.succ_pos _))
          refine ⟨e, he, ?_⟩
          rw [hresult, terminalError, if_pos hzero, GatewayFetcher.taken_succ, lastNoted_cons, he,
            hzero]
          rfl
        · rw [if_neg hzero, hresult, terminalError, if_neg hzero, hk,
            toNat_retries_succ hretries]

end Call

/-! ## As many retries as the width has -/

/-- Every text is a URL on one host. -/
def oneHostText : TextPrimitives where
  toLowercase s := s
  debug s := s
  parseUrl _ := some ("https", some "gateway.example")

/-- A transport that counts its calls and answers all of them. -/
def countingFetcher (retries : UInt32) : GatewayFetcher ℕ where
  transport calls _ _ := (.ok ⟨200, [], 0⟩, calls + 1)
  state := 0
  config := ⟨[], ⟨retries, defaultRetryableStatuses⟩⟩
  audit := []

/-- With 4294967295 retries the transport is not called and no row is written. -/
theorem not_fetchExact_maxRetries :
    ¬ FetchExact oneHostText (countingFetcher 4294967295) "https://gateway.example/a"
      (.new .get .https) := by
  intro h
  have hrun : wrapFetchOutbound oneHostText (countingFetcher 4294967295)
      "https://gateway.example/a" (.new .get .https) =
        (.error (.exhausted "https://gateway.example/a" 0 none none),
          countingFetcher 4294967295) := by
    rfl
  have haccepts : ¬ PolicyRejects "https://gateway.example/a" (.new .get .https) oneHostText
      (countingFetcher 4294967295).config := by
    intro hrejects
    cases hrejects with
    | inl hwebhook => cases hwebhook
    | inr hrest =>
        cases hrest with
        | inl hprotocol => exact absurd hprotocol (by decide)
        | inr hdeny => exact hdeny.1 rfl
  obtain ⟨k, hk, -, hafter, -⟩ := h.attempted haccepts
  rw [hrun] at hafter
  have hstate : ∀ i, stateAfter (countingFetcher 4294967295).transport
      "https://gateway.example/a" (.new .get .https) 0 i = i := by
    intro i
    induction i with
    | zero => rfl
    | succ i ih =>
        rw [stateAfter, ih]
        rfl
  have hcalls : 0 = k := (congrArg GatewayFetcher.state hafter).trans (hstate k)
  omega

end Label309
