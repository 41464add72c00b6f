import Label309.Verifier.Content

/-!
# What a walk acquires

No consumer changes what a walk asks of the gateways. The blobs of a walk are therefore a list
of its own, and a walk ends with the first of them that its consumer accepts.
-/
namespace Label309

section Settle
variable {σ α : Type}

/-- The decisions on some blobs in turn, up to the first that is accepted. -/
def settle (consume : Consumer α) : List AcquiredBlob → Except VerifierPanic (Option α)
  | [] => .ok none
  | blob :: blobs =>
      match consume blob with
      | .error panic => .error panic
      | .ok (.accept a, _) => .ok (some a)
      | .ok (.nextSource, _) => settle consume blobs

/-- What a walk ended with, if it was not exhausted. -/
def BlobWalkEnd.result : BlobWalkEnd α → Option α
  | .done a => some a
  | .exhausted _ => none

/-- What a walk settled on. -/
def Walked.settled (walk : Walked σ α) : Except VerifierPanic (Option α) :=
  walk.map fun step => step.1.result

@[simp] theorem Walked.settled_after (pushed : List VerifierIssue) (walk : Walked σ α) :
    (walk.after pushed).settled = walk.settled := by
  cases walk with
  | error panic => rfl
  | ok step => rfl

theorem settled_offer {consume : Consumer α} {blob : AcquiredBlob} {fetcher : GatewayFetcher σ}
    {rest : GatewayFetcher σ → Walked σ α} {blobs : List AcquiredBlob}
    (hrest : (rest fetcher).settled = settle consume blobs) :
    (offer consume blob fetcher rest).settled = settle consume (blob :: blobs) := by
  rw [offer, settle]
  cases hconsume : consume blob with
  | error panic => rfl
  | ok decided =>
      obtain ⟨decision, pushed⟩ := decided
      cases decision with
      | accept a => rfl
      | nextSource => exact (Walked.settled_after pushed _).trans hrest

/-- Blobs that are all passed over do not settle anything. -/
theorem settle_append {consume : Consumer α} {before : List AcquiredBlob}
    (h : ∀ blob ∈ before, ∃ pushed, consume blob = .ok (.nextSource, pushed))
    (after : List AcquiredBlob) : settle consume (before ++ after) = settle consume after := by
  induction before with
  | nil => rfl
  | cons blob before ih =>
      rw [List.forall_mem_cons] at h
      obtain ⟨pushed, hpushed⟩ := h.1
      rw [List.cons_append, settle, hpushed]
      exact ih h.2

/-- What was settled on was the decision on one blob, and those before it were passed over. -/
theorem settle_eq_some_iff {consume : Consumer α} {blobs : List AcquiredBlob} {a : α} :
    settle consume blobs = .ok (some a) ↔
      ∃ before blob after, blobs = before ++ blob :: after ∧
        (∀ b ∈ before, ∃ pushed, consume b = .ok (.nextSource, pushed)) ∧
        ∃ pushed, consume blob = .ok (.accept a, pushed) := by
  constructor
  · intro h
    induction blobs with
    | nil => simp [settle] at h
    | cons blob blobs ih =>
        rw [settle] at h
        cases hconsume : consume blob with
        | error panic => simp [hconsume] at h
        | ok decided =>
            obtain ⟨decision, pushed⟩ := decided
            rw [hconsume] at h
            cases decision with
            | accept b =>
                have hb : b = a := by simpa using h
                exact ⟨[], blob, blobs, rfl, by simp, pushed, by rw [hconsume, hb]⟩
            | nextSource =>
                obtain ⟨before, b, after, hblobs, hbefore, hb⟩ := ih h
                refine ⟨blob :: before, b, after, by rw [hblobs, List.cons_append], ?_, hb⟩
                intro c hc
                rcases List.mem_cons.mp hc with rfl | hc
                · exact ⟨pushed, hconsume⟩
                · exact hbefore c hc
  · intro h
    obtain ⟨before, blob, after, rfl, hbefore, pushed, hblob⟩ := h
    rw [settle_append hbefore, settle, hblob]

end Settle

section Walk
variable (crypto : VerifierPrimitives) {σ α : Type}
variable (basePath : List PathSegment) (policy : ContentFetchPolicy)

/-- The options of a fetch. -/
def fetchOptions (target : FetchTarget) : FetchOutboundOptions :=
  { FetchOutboundOptions.new .get target.purpose with maxBytes := policy.maxFetchBytes }

/-- Whether the response was over the ceiling, which ends the walk. -/
def OutboundError.endsWalk : OutboundError → Bool
  | .bodyTooLarge .. => true
  | _ => false

/-- The blobs from the gateways of a target, and the rest. -/
def gatewayBlobs (uriIndex : ℕ) (uri : String) (target : FetchTarget)
    (rest : GatewayFetcher σ → List AcquiredBlob) :
    List String → GatewayFetcher σ → List AcquiredBlob
  | [], fetcher => rest fetcher
  | gateway :: gateways, fetcher =>
      let (response, fetcher) :=
        wrapFetchOutbound crypto.text fetcher (target.url gateway) (fetchOptions policy target)
      match response with
      | .error e =>
          if e.endsWalk then [] else gatewayBlobs uriIndex uri target rest gateways fetcher
      | .ok result =>
          if result.status = 200 then
            ⟨result.bytes, some uri, some uriIndex, target.binding⟩ ::
              gatewayBlobs uriIndex uri target rest gateways fetcher
          else gatewayBlobs uriIndex uri target rest gateways fetcher

/-- The blobs from the URIs from the given index on. -/
def uriBlobs : (uriIndex : ℕ) → List String → GatewayFetcher σ → List AcquiredBlob
  | _, [], _ => []
  | uriIndex, uri :: uris, fetcher =>
      match parseFetchTarget uri with
      | none => uriBlobs (uriIndex + 1) uris fetcher
      | some target =>
          if policy.declines target then uriBlobs (uriIndex + 1) uris fetcher
          else
            gatewayBlobs crypto policy uriIndex uri target
              (fun fetcher => uriBlobs (uriIndex + 1) uris fetcher) (policy.gateways target) fetcher

/-- The blobs of a walk that accepts none. -/
def acquiredBlobs (outOfBand : Option (List UInt8)) (uris : List String) (allowFetch : Bool)
    (fetcher : GatewayFetcher σ) : List AcquiredBlob :=
  (outOfBand.map fun bytes => ⟨bytes, none, none, .outOfBand⟩).toList ++
    if allowFetch then uriBlobs crypto policy 0 uris fetcher else []

variable (consume : Consumer α)

/-- Only a response over the ceiling leaves no issue. -/
theorem fetchIssue_error_eq_none (path : List PathSegment) (uri gateway url : String)
    (e : OutboundError) : fetchIssue crypto path uri gateway url (.error e) = none ↔
      e.endsWalk = true := by
  cases e <;> simp [fetchIssue, OutboundError.endsWalk]

theorem settled_walkGateways {uriIndex : ℕ} {uri : String} {target : FetchTarget}
    {rest : GatewayFetcher σ → Walked σ α} {restBlobs : GatewayFetcher σ → List AcquiredBlob}
    (hrest : ∀ fetcher, (rest fetcher).settled = settle consume (restBlobs fetcher))
    (gateways : List String) (fetcher : GatewayFetcher σ) :
    (walkGateways crypto basePath policy consume uriIndex uri target rest gateways
        fetcher).settled =
      settle consume (gatewayBlobs crypto policy uriIndex uri target restBlobs gateways
        fetcher) := by
  induction gateways generalizing fetcher with
  | nil => exact hrest fetcher
  | cons gateway gateways ih =>
      rw [walkGateways, gatewayBlobs]
      dsimp only [fetchOptions]
      cases wrapFetchOutbound crypto.text fetcher (target.url gateway)
        { FetchOutboundOptions.new .get target.purpose with
          maxBytes := policy.maxFetchBytes } with
      | mk response fetcher =>
          cases response with
          | error e =>
              dsimp only
              by_cases hend : e.endsWalk = true
              · rw [(fetchIssue_error_eq_none crypto _ _ _ _ e).mpr hend, if_pos hend]
                rfl
              · cases hissue : fetchIssue crypto (uriPath basePath uriIndex) uri gateway
                    (target.url gateway) (.error e) with
                | none =>
                    exact absurd ((fetchIssue_error_eq_none crypto _ _ _ _ e).mp hissue) hend
                | some issue =>
                    rw [if_neg hend]
                    exact (Walked.settled_after _ _).trans (ih fetcher)
          | ok result =>
              dsimp only
              by_cases hstatus : result.status = 200
              · rw [if_pos hstatus, if_pos hstatus]
                exact settled_offer (ih fetcher)
              · rw [if_neg hstatus, if_neg hstatus]
                exact (Walked.settled_after _ _).trans (ih fetcher)

theorem settled_walkUris (uriIndex : ℕ) (uris : List String) (fetcher : GatewayFetcher σ) :
    (walkUris crypto basePath policy consume uriIndex uris fetcher).settled =
      settle consume (uriBlobs crypto policy uriIndex uris fetcher) := by
  induction uris generalizing uriIndex fetcher with
  | nil => rfl
  | cons uri uris ih =>
      rw [walkUris, uriBlobs]
      cases parseFetchTarget uri with
      | none => exact (Walked.settled_after _ _).trans (ih (uriIndex + 1) fetcher)
      | some target =>
          dsimp only
          by_cases hdeclines : policy.declines target = true
          · rw [if_pos hdeclines, if_pos hdeclines]
            exact (Walked.settled_after _ _).trans (ih (uriIndex + 1) fetcher)
          · rw [if_neg hdeclines, if_neg hdeclines]
            exact settled_walkGateways crypto basePath policy consume
              (fun fetcher => ih (uriIndex + 1) fetcher) (policy.gateways target) fetcher

/-- **A walk settles on the first acquired blob that its consumer accepts.** -/
theorem settled_walkBlobSources (outOfBand : Option (List UInt8)) (uris : List String)
    (allowFetch : Bool) (fetcher : GatewayFetcher σ) :
    (walkBlobSources crypto basePath policy consume outOfBand uris allowFetch fetcher).settled =
      settle consume (acquiredBlobs crypto policy outOfBand uris allowFetch fetcher) := by
  have hfetched : (if allowFetch then walkUris crypto basePath policy consume 0 uris fetcher
      else .ok (.exhausted false, [], fetcher)).settled =
        settle consume (if allowFetch then uriBlobs crypto policy 0 uris fetcher else []) := by
    by_cases hallow : allowFetch = true
    · rw [if_pos hallow, if_pos hallow]
      exact settled_walkUris crypto basePath policy consume 0 uris fetcher
    · rw [if_neg hallow, if_neg hallow]
      rfl
  rw [walkBlobSources.eq_def, acquiredBlobs]
  cases outOfBand with
  | none => exact hfetched
  | some bytes => exact settled_offer hfetched

end Walk

end Label309
