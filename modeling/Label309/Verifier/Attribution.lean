import Label309.Verifier.CheckRules
import Label309.Verifier.SourceWalk

/-!
# Whom the bytes are held against

The checks of items, sealed items and commitments hold offending bytes against the record only
where it answers for them: the caller gave them, or they have the multihash of a content address
that the entry lists. Other offending bytes leave a warning, and the walk goes on.
-/
namespace Label309
open ExceptBind

/-! ## The blobs of a run -/

section Offered
variable {σ α : Type} {consume : Consumer α}

/-- The blobs that a run hands to its consumer, up to the first that it does not pass over. -/
def offered (consume : Consumer α) : List AcquiredBlob → List AcquiredBlob
  | [] => []
  | blob :: blobs =>
      match consume blob with
      | .ok (.nextSource, _) => blob :: offered consume blobs
      | _ => [blob]

theorem offered_subset (consume : Consumer α) (blobs : List AcquiredBlob) :
    ∀ blob ∈ offered consume blobs, blob ∈ blobs := by
  induction blobs with
  | nil => simp [offered]
  | cons head blobs ih =>
      intro blob hblob
      rw [offered] at hblob
      split at hblob
      · cases List.mem_cons.mp hblob with
        | inl heq => exact heq ▸ List.mem_cons_self
        | inr hmem => exact List.mem_cons_of_mem _ (ih blob hmem)
      · exact List.mem_singleton.mp hblob ▸ List.mem_cons_self

/-- A run that returns has decided on every blob that it was offered. -/
theorem exists_decision {blobs : List AcquiredBlob} {outcome : Option α}
    (h : settle consume blobs = .ok outcome) :
    ∀ blob ∈ offered consume blobs, ∃ decided, consume blob = .ok decided := by
  induction blobs with
  | nil => simp [offered]
  | cons head blobs ih =>
      intro blob hblob
      rw [offered] at hblob
      rw [settle] at h
      cases hconsume : consume head with
      | error panic => simp [hconsume] at h
      | ok decided =>
          obtain ⟨decision, pushed⟩ := decided
          rw [hconsume] at h hblob
          cases decision with
          | accept a =>
              rw [List.mem_singleton.mp hblob]
              exact ⟨_, hconsume⟩
          | nextSource =>
              cases List.mem_cons.mp hblob with
              | inl heq =>
                  rw [heq]
                  exact ⟨_, hconsume⟩
              | inr hmem => exact ih h blob hmem

/-- What was settled on was the decision on an offered blob. -/
theorem exists_accepted {blobs : List AcquiredBlob} {a : α}
    (h : settle consume blobs = .ok (some a)) :
    ∃ blob ∈ offered consume blobs, ∃ pushed, consume blob = .ok (.accept a, pushed) := by
  induction blobs with
  | nil => simp [settle] at h
  | cons head blobs ih =>
      rw [settle] at h
      rw [offered]
      cases hconsume : consume head with
      | error panic => simp [hconsume] at h
      | ok decided =>
          obtain ⟨decision, pushed⟩ := decided
          rw [hconsume] at h
          cases decision with
          | accept b =>
              cases h
              exact ⟨head, List.mem_singleton_self _, pushed, hconsume⟩
          | nextSource =>
              obtain ⟨blob, hblob, hpushed⟩ := ih h
              exact ⟨blob, List.mem_cons_of_mem _ hblob, hpushed⟩

/-- An issue of a walk: its own, or one that its consumer pushes for an offered blob. -/
def PushedFor (consume : Consumer α) (basePath : List PathSegment) (blobs : List AcquiredBlob)
    (issue : VerifierIssue) : Prop :=
  WalkIssue basePath issue ∨
    ∃ blob ∈ offered consume blobs, ∃ decision pushed,
      consume blob = .ok (decision, pushed) ∧ issue ∈ pushed

variable {crypto : VerifierPrimitives} {basePath : List PathSegment} {policy : ContentFetchPolicy}

/-- The issues of a walk over some blobs. -/
abbrev PushesFor (consume : Consumer α) (basePath : List PathSegment) (blobs : List AcquiredBlob)
    (walk : Walked σ α) : Prop :=
  Checking.Post (PushedFor consume basePath blobs) (fun _ => True) walk

theorem pushesFor_offer {blob : AcquiredBlob} {blobs : List AcquiredBlob}
    {fetcher : GatewayFetcher σ} {rest : GatewayFetcher σ → Walked σ α}
    (hrest : PushesFor consume basePath blobs (rest fetcher)) :
    PushesFor consume basePath (blob :: blobs) (offer consume blob fetcher rest) := by
  rw [offer]
  cases hconsume : consume blob with
  | error panic => exact post_error panic
  | ok decided =>
      obtain ⟨decision, pushed⟩ := decided
      have hpushed : ∀ issue ∈ pushed, PushedFor consume basePath (blob :: blobs) issue := by
        intro issue hissue
        refine .inr ⟨blob, ?_, decision, pushed, hconsume, hissue⟩
        rw [offered]
        split
        · exact List.mem_cons_self
        · exact List.mem_singleton_self _
      cases decision with
      | accept a => exact post_ok hpushed trivial
      | nextSource =>
          refine post_after hpushed (hrest.mono ?_ fun _ _ => trivial)
          intro issue hissue
          cases hissue with
          | inl hwalk => exact .inl hwalk
          | inr hblob =>
              obtain ⟨b, hb, hdecided⟩ := hblob
              refine .inr ⟨b, ?_, hdecided⟩
              rw [offered, hconsume]
              exact List.mem_cons_of_mem _ hb

theorem pushesFor_after {blobs : List AcquiredBlob} {issue : VerifierIssue} {walk : Walked σ α}
    (hissue : WalkIssue basePath issue) (h : PushesFor consume basePath blobs walk) :
    PushesFor consume basePath blobs (walk.after [issue]) := by
  refine post_after ?_ h
  intro i hi
  rw [List.mem_singleton.mp hi]
  exact .inl hissue

theorem pushesFor_walkGateways {j : ℕ} {uri : String} {target : FetchTarget}
    {rest : GatewayFetcher σ → Walked σ α} {restBlobs : GatewayFetcher σ → List AcquiredBlob}
    (hrest : ∀ fetcher, PushesFor consume basePath (restBlobs fetcher) (rest fetcher))
    (gateways : List String) (fetcher : GatewayFetcher σ) :
    PushesFor consume basePath
      (gatewayBlobs crypto policy j uri target restBlobs gateways fetcher)
      (walkGateways crypto basePath policy consume j uri target rest gateways fetcher) := by
  induction gateways generalizing fetcher with
  | nil => exact hrest fetcher
  | cons gateway gateways ih =>
      rw [walkGateways, gatewayBlobs]
      dsimp only [fetchOptions]
      cases wrapFetchOutbound crypto.text fetcher (target.url gateway)
        { FetchOutboundOptions.new .get target.purpose with
          maxBytes := policy.maxFetchBytes } with
      | mk response fetcher =>
          cases response with
          | error e =>
              dsimp only
              cases hissue : fetchIssue crypto (uriPath basePath j) uri gateway
                  (target.url gateway) (.error e) with
              | none => exact post_ok (by simp) trivial
              | some issue =>
                  have hgoes : ¬ e.endsWalk = true := by
                    intro hend
                    rw [(fetchIssue_error_eq_none crypto _ _ _ _ e).mpr hend] at hissue
                    cases hissue
                  rw [if_neg hgoes]
                  exact pushesFor_after (walkIssue_of_fetch hissue) (ih fetcher)
          | ok result =>
              dsimp only
              by_cases hstatus : result.status = 200
              · rw [if_pos hstatus, if_pos hstatus]
                exact pushesFor_offer (ih fetcher)
              · rw [if_neg hstatus, if_neg hstatus]
                exact pushesFor_after (walkIssue_new (by decide) _ _) (ih fetcher)

theorem pushesFor_walkUris (j : ℕ) (uris : List String) (fetcher : GatewayFetcher σ) :
    PushesFor consume basePath (uriBlobs crypto policy j uris fetcher)
      (walkUris crypto basePath policy consume j uris fetcher) := by
  induction uris generalizing j fetcher with
  | nil => exact post_ok (by simp) trivial
  | cons uri uris ih =>
      rw [walkUris, uriBlobs]
      cases parseFetchTarget uri with
      | none => exact pushesFor_after (walkIssue_new (by decide) _ _) (ih (j + 1) fetcher)
      | some target =>
          dsimp only
          by_cases hdeclines : policy.declines target = true
          · rw [if_pos hdeclines, if_pos hdeclines]
            exact pushesFor_after (walkIssue_new (by decide) _ _) (ih (j + 1) fetcher)
          · rw [if_neg hdeclines, if_neg hdeclines]
            exact pushesFor_walkGateways (fun fetcher => ih (j + 1) fetcher) _ fetcher

/-- **A walk pushes for the blobs that it offers.** -/
theorem pushesFor_walkBlobSources (outOfBand : Option (List UInt8)) (uris : List String)
    (allowFetch : Bool) (fetcher : GatewayFetcher σ) :
    PushesFor consume basePath (acquiredBlobs crypto policy outOfBand uris allowFetch fetcher)
      (walkBlobSources crypto basePath policy consume outOfBand uris allowFetch fetcher) := by
  have hfetched : PushesFor consume basePath
      (if allowFetch then uriBlobs crypto policy 0 uris fetcher else [])
      (if allowFetch then walkUris crypto basePath policy consume 0 uris fetcher
        else .ok (.exhausted false, [], fetcher)) := by
    by_cases hallow : allowFetch = true
    · rw [if_pos hallow, if_pos hallow]
      exact pushesFor_walkUris 0 uris fetcher
    · rw [if_neg hallow, if_neg hallow]
      exact post_ok (by simp) trivial
  rw [walkBlobSources.eq_def, acquiredBlobs]
  cases outOfBand with
  | none => exact hfetched
  | some bytes => exact pushesFor_offer hfetched

/-! ## Sources -/

theorem fromSource_of_gatewayBlobs {outOfBand : Option (List UInt8)} {uris : List String} {j : ℕ}
    {uri : String} {target : FetchTarget} (huri : uris[j]? = some uri)
    (htarget : parseFetchTarget uri = some target)
    {restBlobs : GatewayFetcher σ → List AcquiredBlob}
    (hrest : ∀ fetcher, ∀ blob ∈ restBlobs fetcher, FromSource outOfBand uris blob)
    (gateways : List String) (fetcher : GatewayFetcher σ) :
    ∀ blob ∈ gatewayBlobs crypto policy j uri target restBlobs gateways fetcher,
      FromSource outOfBand uris blob := by
  induction gateways generalizing fetcher with
  | nil => exact hrest fetcher
  | cons gateway gateways ih =>
      rw [gatewayBlobs]
      cases wrapFetchOutbound crypto.text fetcher (target.url gateway)
        (fetchOptions policy target) with
      | mk response fetcher =>
          cases response with
          | error e =>
              dsimp only
              by_cases hend : e.endsWalk = true
              · simp [hend]
              · simpa [hend] using ih fetcher
          | ok result =>
              dsimp only
              by_cases hstatus : result.status = 200
              · rw [if_pos hstatus]
                intro blob hblob
                cases List.mem_cons.mp hblob with
                | inl heq =>
                    rw [heq]
                    exact .fetched huri htarget
                | inr hmem => exact ih fetcher blob hmem
              · rw [if_neg hstatus]
                exact ih fetcher

theorem fromSource_of_uriBlobs {outOfBand : Option (List UInt8)} {uris : List String} (j : ℕ)
    (fetcher : GatewayFetcher σ) :
    ∀ blob ∈ uriBlobs crypto policy j (uris.drop j) fetcher, FromSource outOfBand uris blob := by
  generalize hleft : uris.drop j = left
  induction left generalizing j fetcher with
  | nil => simp [uriBlobs]
  | cons uri left ih =>
      have huri : uris[j]? = some uri := by
        rw [← List.head?_drop, hleft]
        rfl
      have hnext : uris.drop (j + 1) = left := by
        rw [← List.tail_drop, hleft]
        rfl
      rw [uriBlobs]
      cases htarget : parseFetchTarget uri with
      | none => exact ih (j + 1) fetcher hnext
      | some target =>
          dsimp only
          by_cases hdeclines : policy.declines target = true
          · rw [if_pos hdeclines]
            exact ih (j + 1) fetcher hnext
          · rw [if_neg hdeclines]
            exact fromSource_of_gatewayBlobs huri htarget
              (fun fetcher => ih (j + 1) fetcher hnext) _ fetcher

/-- Every acquired blob is from a source of its claim. -/
theorem fromSource_of_acquired {outOfBand : Option (List UInt8)} {uris : List String}
    {allowFetch : Bool} {fetcher : GatewayFetcher σ} :
    ∀ blob ∈ acquiredBlobs crypto policy outOfBand uris allowFetch fetcher,
      FromSource outOfBand uris blob := by
  intro blob hblob
  cases List.mem_append.mp hblob with
  | inl hmem =>
      obtain ⟨bytes, hbytes, rfl⟩ := Option.map_eq_some_iff.mp (Option.mem_toList.mp hmem)
      exact .outOfBand hbytes
  | inr hmem =>
      by_cases hallow : allowFetch = true
      · rw [if_pos hallow] at hmem
        exact fromSource_of_uriBlobs 0 fetcher blob hmem
      · simp [hallow] at hmem

end Offered

/-! ## Answerable bytes -/

section Held
variable (crypto : VerifierPrimitives)

/-- Bytes that an entry answers for: the caller gave them, or they have the multihash of a raw
version-1 identifier that stands without a path among its URIs. -/
inductive Answerable (outOfBand : Option (List UInt8)) (uris : List String) (bytes : List UInt8) :
    Prop
  | outOfBand (h : outOfBand = some bytes)
  | bound {uri cidAndPath cid : String} {parsed : ParsedCid} (huri : uri ∈ uris)
      (htarget : parseFetchTarget uri = some (.ipfs cidAndPath cid false))
      (hcid : parseCid cid = .ok (some parsed)) (hversion : parsed.version = 1)
      (hcodec : parsed.codec = cidCodecRaw)
      (hdigest : multihashDigest crypto parsed.multihashCode bytes = some parsed.digest)

variable {crypto}

theorem verifyIpfsCidBinding_eq_verified {cid : String} {hasPath : Bool} {bytes : List UInt8}
    (h : verifyIpfsCidBinding crypto cid hasPath bytes = .ok .verified) :
    hasPath = false ∧ ∃ parsed, parseCid cid = .ok (some parsed) ∧ parsed.version = 1 ∧
      parsed.codec = cidCodecRaw ∧
      multihashDigest crypto parsed.multihashCode bytes = some parsed.digest := by
  rw [verifyIpfsCidBinding.eq_def] at h
  by_cases hpath : hasPath = true
  · simp [hpath] at h
  · rw [if_neg hpath] at h
    obtain ⟨found, hfound, hbinding⟩ := map_eq_ok.mp h
    refine ⟨by simpa using hpath, ?_⟩
    cases found with
    | none => cases hbinding
    | some parsed =>
        dsimp only at hbinding
        by_cases hraw : parsed.version ≠ 1 ∨ parsed.codec ≠ cidCodecRaw
        · simp [hraw] at hbinding
        · rw [if_neg hraw] at hbinding
          have hfields : parsed.version = 1 ∧ parsed.codec = cidCodecRaw := by
            simpa [not_or] using hraw
          refine ⟨parsed, hfound, hfields.1, hfields.2, ?_⟩
          cases hdigest : multihashDigest crypto parsed.multihashCode bytes with
          | none => simp [hdigest] at hbinding
          | some computed =>
              rw [hdigest] at hbinding
              by_cases hsame : computed = parsed.digest
              · rw [hsame]
              · simp [hsame] at hbinding

/-- Attributable bytes are bytes that the entry answers for. -/
theorem answerable_of_attributable {outOfBand : Option (List UInt8)} {uris : List String}
    {blob : AcquiredBlob} (hsource : FromSource outOfBand uris blob)
    (h : blob.attributable crypto = .ok true) : Answerable crypto outOfBand uris blob.bytes := by
  cases hsource with
  | outOfBand hbytes => exact .outOfBand hbytes
  | @fetched bytes j uri target huri htarget =>
      rw [AcquiredBlob.attributable.eq_def] at h
      cases target with
      | arweave txid => cases h
      | ipfs cidAndPath cid hasPath =>
          obtain ⟨outcome, hbinding, hverified⟩ := map_eq_ok.mp h
          have houtcome : outcome = .verified := by simpa using hverified
          rw [houtcome] at hbinding
          obtain ⟨rfl, parsed, hcid, hversion, hcodec, hdigest⟩ :=
            verifyIpfsCidBinding_eq_verified hbinding
          exact .bound (List.mem_of_getElem? huri) htarget hcid hversion hcodec hdigest

/-! ## Held to the sources -/

/-- The codes that fail a record on content evidence. -/
def integrityCodes : List ErrorCode :=
  [.uriIntegrityMismatch, .tamperedCiphertext, .merkleRootMismatch,
    .schemaMerkleLeafCountMismatch, .schemaMerkleLeavesFormatUnsupported,
    .schemaMerkleLeavesMalformed]

/-- A check that is held against the record on content evidence. -/
def CondemnsContent (check : ContentCheck) (issues : List VerifierIssue) : Prop :=
  check = .mismatched ∨ ∃ issue ∈ issues, issue.code ∈ integrityCodes

/-- The blob leaves one warning, and the walk goes on. -/
def OnlyWarns {α : Type} (consume : Consumer α) (blob : AcquiredBlob) : Prop :=
  ∃ warning, consume blob = .ok (.nextSource, [warning]) ∧ warning.severity = .warning

section Run
variable {σ α : Type} {outOfBand : Option (List UInt8)} {uris : List String}
  {consume : Consumer α} {contentCheck : α → ContentCheck}
  {Offends Opened Satisfies : List UInt8 → Prop}

variable (crypto outOfBand uris consume contentCheck Offends Opened Satisfies) in
/-- A check that settled on one of the acquired blobs, if any. It is held against the record only
for offending bytes that the entry answers for, or for bytes that opened to others. -/
structure HeldToSources (blobs : List AcquiredBlob) (check : ContentCheck)
    (issues : List VerifierIssue) : Prop where
  settled : ∃ outcome, settle consume blobs = .ok outcome ∧
    check = (outcome.map contentCheck).getD .notChecked
  condemned : CondemnsContent check issues → ∃ blob ∈ offered consume blobs,
    Offends blob.bytes ∧ Answerable crypto outOfBand uris blob.bytes ∨ Opened blob.bytes
  checked : check = .checked → ∃ blob ∈ offered consume blobs, Satisfies blob.bytes
  continues : ∀ blob ∈ offered consume blobs, Offends blob.bytes →
    ¬ Answerable crypto outOfBand uris blob.bytes → OnlyWarns consume blob

variable (crypto outOfBand uris consume contentCheck Offends Opened Satisfies) in
/-- What the decision on a blob must satisfy for that. -/
structure Judges (blob : AcquiredBlob) : Prop where
  condemned : ∀ decision pushed, consume blob = .ok (decision, pushed) →
    (∃ a, decision = .accept a ∧ contentCheck a = .mismatched) ∨
      (∃ issue ∈ pushed, issue.code ∈ integrityCodes) →
    Offends blob.bytes ∧ Answerable crypto outOfBand uris blob.bytes ∨ Opened blob.bytes
  checked : ∀ a pushed, consume blob = .ok (.accept a, pushed) → contentCheck a = .checked →
    Satisfies blob.bytes
  continues : ∀ decided, consume blob = .ok decided → Offends blob.bytes →
    ¬ Answerable crypto outOfBand uris blob.bytes → OnlyWarns consume blob

/-- A decision that accepts the blob. -/
theorem judges_of_accept {blob : AcquiredBlob} {a : α} {pushed : List VerifierIssue}
    (hconsume : consume blob = .ok (.accept a, pushed)) (hoffends : ¬ Offends blob.bytes)
    (hcondemned : CondemnsContent (contentCheck a) pushed → Opened blob.bytes)
    (hchecked : contentCheck a = .checked → Satisfies blob.bytes) :
    Judges crypto outOfBand uris consume contentCheck Offends Opened Satisfies blob where
  condemned decision pushed' h hevidence := by
    rw [hconsume] at h
    cases h
    right
    apply hcondemned
    cases hevidence with
    | inl hmismatched =>
        obtain ⟨b, heq, hmismatched⟩ := hmismatched
        cases heq
        exact .inl hmismatched
    | inr hissue => exact .inr hissue
  checked b pushed' h := by
    rw [hconsume] at h
    cases h
    exact hchecked
  continues _ _ h := absurd h hoffends

/-- A decision that depends on the attribution of the blob. -/
theorem judges_of_attributable {blob : AcquiredBlob} {a : α} {condemning : List VerifierIssue}
    {warning : VerifierIssue} (hsource : FromSource outOfBand uris blob)
    (hconsume : consume blob = (blob.attributable crypto).map fun attributable =>
      if attributable then (.accept a, condemning) else (.nextSource, [warning]))
    (hoffends : Offends blob.bytes) (ha : contentCheck a ≠ .checked)
    (hseverity : warning.severity = .warning)
    (hcode : warning.code = .uriProviderIntegrityMismatch) :
    Judges crypto outOfBand uris consume contentCheck Offends Opened Satisfies blob := by
  cases hattributable : blob.attributable crypto with
  | error panic =>
      rw [hattributable] at hconsume
      have hnever : ∀ decided, consume blob ≠ .ok decided := by
        intro decided h
        rw [hconsume] at h
        cases h
      exact ⟨fun _ _ h => absurd h (hnever _), fun _ _ h => absurd h (hnever _),
        fun _ h => absurd h (hnever _)⟩
  | ok attributable =>
      rw [hattributable] at hconsume
      cases attributable with
      | true =>
          have hanswerable := answerable_of_attributable hsource hattributable
          refine ⟨fun _ _ _ _ => .inl ⟨hoffends, hanswerable⟩, ?_, ?_⟩
          · intro b pushed h hchecked
            rw [hconsume] at h
            cases h
            exact absurd hchecked ha
          · intro _ _ _ hnot
            exact absurd hanswerable hnot
      | false =>
          refine ⟨?_, ?_, ?_⟩
          · intro decision pushed h hevidence
            rw [hconsume] at h
            cases h
            cases hevidence with
            | inl hmismatched =>
                obtain ⟨b, heq, -⟩ := hmismatched
                cases heq
            | inr hissue =>
                obtain ⟨issue, hissue, hintegrity⟩ := hissue
                rw [List.mem_singleton.mp hissue, hcode] at hintegrity
                exact absurd hintegrity (by decide)
          · intro b pushed h
            rw [hconsume] at h
            cases h
          · intro _ _ _ _
            exact ⟨warning, hconsume, hseverity⟩

/-- **A walk is held to its sources** when every decision is. -/
theorem heldToSources_of_walk {basePath : List PathSegment} {policy : ContentFetchPolicy}
    {allowFetch : Bool} {fetcher fetcher' : GatewayFetcher σ} {stop : BlobWalkEnd α}
    {pushed issues : List VerifierIssue} {check : ContentCheck}
    (hjudges : ∀ blob, FromSource outOfBand uris blob →
      Judges crypto outOfBand uris consume contentCheck Offends Opened Satisfies blob)
    (hwalk : walkBlobSources crypto basePath policy consume outOfBand uris allowFetch fetcher =
      .ok (stop, pushed, fetcher'))
    (hcheck : check = (stop.result.map contentCheck).getD .notChecked)
    (hissues : ∀ issue ∈ issues, issue ∈ pushed ∨ issue.code ∉ integrityCodes) :
    HeldToSources crypto outOfBand uris consume contentCheck Offends Opened Satisfies
      (acquiredBlobs crypto policy outOfBand uris allowFetch fetcher) check issues := by
  have hsettled := settled_walkBlobSources crypto basePath policy consume outOfBand uris allowFetch
    fetcher
  rw [hwalk] at hsettled
  have hsettle : settle consume (acquiredBlobs crypto policy outOfBand uris allowFetch fetcher) =
      .ok stop.result := hsettled.symm
  have hjudged : ∀ blob ∈ offered consume
      (acquiredBlobs crypto policy outOfBand uris allowFetch fetcher),
      Judges crypto outOfBand uris consume contentCheck Offends Opened Satisfies blob := by
    intro blob hblob
    exact hjudges blob (fromSource_of_acquired blob (offered_subset consume _ blob hblob))
  -- A check other than the unchecked one is the decision on an offered blob.
  have haccepted {found : ContentCheck} (hfound : check = found) (hne : found ≠ .notChecked) :
      ∃ blob ∈ offered consume (acquiredBlobs crypto policy outOfBand uris allowFetch fetcher),
        ∃ a p, consume blob = .ok (.accept a, p) ∧ contentCheck a = found := by
    cases hresult : stop.result with
    | none =>
        rw [hcheck, hresult] at hfound
        exact absurd hfound.symm hne
    | some a =>
        rw [hresult] at hsettle
        obtain ⟨blob, hblob, p, hconsume⟩ := exists_accepted hsettle
        rw [hcheck, hresult] at hfound
        exact ⟨blob, hblob, a, p, hconsume, hfound⟩
  refine ⟨⟨_, hsettle, hcheck⟩, ?_, ?_, ?_⟩
  · intro hevidence
    cases hevidence with
    | inl hmismatched =>
        obtain ⟨blob, hblob, a, p, hconsume, ha⟩ := haccepted hmismatched (by decide)
        exact ⟨blob, hblob, (hjudged blob hblob).condemned _ _ hconsume (.inl ⟨a, rfl, ha⟩)⟩
    | inr hissue =>
        obtain ⟨issue, hissue, hcode⟩ := hissue
        have hmem : issue ∈ pushed := (hissues issue hissue).resolve_right (not_not_intro hcode)
        cases (pushesFor_walkBlobSources outOfBand uris allowFetch fetcher _ _ _ hwalk).1 issue
            hmem with
        | inl hown =>
            have hdisjoint : ∀ code ∈ walkCodes, code ∉ integrityCodes := by decide
            exact absurd hcode (hdisjoint _ hown.1)
        | inr hblob =>
            obtain ⟨blob, hblob, decision, p, hconsume, hp⟩ := hblob
            exact ⟨blob, hblob,
              (hjudged blob hblob).condemned _ _ hconsume (.inr ⟨issue, hp, hcode⟩)⟩
  · intro hchecked
    obtain ⟨blob, hblob, a, p, hconsume, ha⟩ := haccepted hchecked (by decide)
    exact ⟨blob, hblob, (hjudged blob hblob).checked a p hconsume ha⟩
  · intro blob hblob
    obtain ⟨decided, hdecided⟩ := exists_decision hsettle blob hblob
    exact (hjudged blob hblob).continues decided hdecided

end Run

end Held

end Label309
