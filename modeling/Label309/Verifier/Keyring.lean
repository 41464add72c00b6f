import Label309.SealedPoe.WrapUnwrap
import Label309.Verifier.Decrypt
import Label309.Verifier.SourceWalk

/-!
# Larger keyrings

All recipient keys of a keyring go into one unwrap, which refuses the whole list for one key of
another length. The passphrases are tried one by one, and when none opens a blob the failure of
the first one decides whether the walk goes on. So a further credential can end a walk early.
-/
namespace Label309

/-- A keyring with one more credential at some place, or in another order. -/
inductive KeyringStep : List Decryption → List Decryption → Prop
  | insert (credential : Decryption) (before after : List Decryption) :
      KeyringStep (before ++ after) (before ++ credential :: after)
  | permute {credentials credentials' : List Decryption} (h : credentials.Perm credentials') :
      KeyringStep credentials credentials'

theorem KeyringStep.subset {credentials credentials' : List Decryption}
    (h : KeyringStep credentials credentials') : credentials ⊆ credentials' := by
  cases h with
  | insert credential before after =>
      intro c hc
      rcases List.mem_append.mp hc with hc | hc
      · exact List.mem_append_left _ hc
      · exact List.mem_append_right _ (List.mem_cons_of_mem credential hc)
  | permute h => exact h.subset

theorem recipientKeys_subset {credentials credentials' : List Decryption}
    (h : credentials ⊆ credentials') : recipientKeys credentials ⊆ recipientKeys credentials' :=
  List.filterMap_subset _ h

theorem passphrases_subset {credentials credentials' : List Decryption}
    (h : credentials ⊆ credentials') : passphrases credentials ⊆ passphrases credentials' :=
  List.filterMap_subset _ h

/-! ## The keys of one unwrap -/

section Header
variable {crypto : SealedPrimitives} {envelope : SealedEnvelope} {hashes : ContentHashMap}
  {slotsHash cek : FixedBytes 32} {slotsMac : List UInt8}

/-- What a scan has selected was open and had the MAC. -/
theorem selected_scanCandidates {P : FixedBytes 32 → Prop}
    {candidates : List (Bool × FixedBytes 32)}
    (hP : ∀ c ∈ candidates, c.1 = true → slotsMacBit crypto c.2 slotsHash slotsMac = true → P c.2)
    {scan : InnerScan} (hscan : scan.found = true → P scan.selectedCek) (i : ℕ)
    (hfound : (scanCandidates crypto slotsHash slotsMac scan i candidates).found = true) :
    P (scanCandidates crypto slotsHash slotsMac scan i candidates).selectedCek := by
  induction candidates generalizing scan i with
  | nil => exact hscan hfound
  | cons candidate rest ih =>
      rw [List.forall_mem_cons] at hP
      refine ih hP.2 ?_ (i + 1) hfound
      intro hnow
      by_cases hok : (candidate.1 && slotsMacBit crypto candidate.2 slotsHash slotsMac) = true
      · by_cases hold : scan.found = true
        · simpa [InnerScan.fold, hold] using hscan hold
        · have hboth := Bool.and_eq_true_iff.mp hok
          simpa [InnerScan.fold, hok, hold] using hP.1 hboth.1 hboth.2
      · have hold : scan.found = true := by simpa [InnerScan.fold, hok] using hnow
        simpa [InnerScan.fold, hold] using hscan hold

/-- An accepted content key was found by one of the keys. -/
theorem candidate_of_scanKeys {keys : List (List UInt8)} {anyWrapOpened : Bool}
    (h : scanKeys crypto envelope slotsHash anyWrapOpened keys = .accepted cek) :
    ∃ key ∈ keys, (true, cek) ∈ slotCandidates crypto envelope key ∧
      slotsMacBit crypto cek slotsHash envelope.slotsMac = true := by
  rw [scanKeys_eq] at h
  cases hfirst : firstAccepting crypto envelope slotsHash keys with
  | none => simp [hfirst, rejection] at h
  | some key =>
      rw [hfirst] at h
      by_cases hconflict : (scanSlotsForKey crypto envelope key slotsHash).cekConflict = true
      · simp [hconflict] at h
      · simp only [hconflict, Bool.false_eq_true, if_false, KeyLoopOutcome.accepted.injEq] at h
        have hfound : (scanSlotsForKey crypto envelope key slotsHash).found = true := by
          have hfind := List.find?_some hfirst
          exact hfind
        refine ⟨key, List.mem_of_find?_eq_some hfirst, ?_⟩
        rw [← h]
        apply selected_scanCandidates (P := fun cek =>
          (true, cek) ∈ slotCandidates crypto envelope key ∧
            slotsMacBit crypto cek slotsHash envelope.slotsMac = true)
        · intro c hc hopen hbit
          refine ⟨?_, hbit⟩
          rw [← hopen]
          exact hc
        · intro hstart
          cases hstart
        · exact hfound

theorem lengths_of_assertMultiKeys {keys : List (List UInt8)}
    (h : assertMultiKeys keys = .ok ()) : ∀ k ∈ keys, k.length = x25519SecretKeyLength := by
  intro k hk
  rw [assertMultiKeys] at h
  cases hfirst : firstOfOtherLength x25519SecretKeyLength keys with
  | none =>
      have hall := List.findIdx?_eq_none_iff.mp hfirst k hk
      simpa using hall
  | some i => simp [hfirst] at h

/-- The header of a list of keys. -/
theorem unwrapHeader_multi_eq_ok {keys : List (List UInt8)} {outcome : KeyLoopOutcome}
    (h : unwrapHeader crypto envelope hashes (.multi keys) = .ok outcome) :
    keys ≠ [] ∧ (∀ k ∈ keys, k.length = x25519SecretKeyLength) ∧
      assertEnvelope envelope = .ok () ∧ (∃ d, itemHashesHash crypto hashes = .ok d) ∧
      scanKeys crypto envelope (headerSlotsHash crypto envelope hashes) false keys = outcome := by
  rw [unwrapHeader] at h
  by_cases hempty : keys.isEmpty = true
  · simp [hempty] at h
  · rw [if_neg hempty, unwrapHeaderMulti, assertEnvelopeStructure] at h
    cases hassert : assertEnvelope envelope with
    | error e => simp [hassert, bind, Except.bind] at h
    | ok _ =>
        cases hkeys : assertMultiKeys keys with
        | error e => simp [hassert, hkeys, bind, Except.bind] at h
        | ok _ =>
            cases hhash : itemHashesHash crypto hashes with
            | error e => simp [hassert, hkeys, hhash, bind, Except.bind] at h
            | ok d =>
                simp only [hassert, hkeys, hhash, bind, Except.bind, Except.ok.injEq] at h
                rw [List.isEmpty_iff] at hempty
                refine ⟨hempty, lengths_of_assertMultiKeys hkeys, rfl, ⟨d, rfl⟩, ?_⟩
                rw [headerSlotsHash, ← (itemHashesHash_eq_ok.mp hhash).2]
                exact h

/-- More keys of the right length accept the same content key. -/
theorem unwrapHeader_multi_subset {keys keys' : List (List UInt8)} (hsub : keys ⊆ keys')
    (hlengths : ∀ k ∈ keys', k.length = x25519SecretKeyLength)
    (hmac : NoMacCollision crypto envelope hashes keys')
    (h : unwrapHeader crypto envelope hashes (.multi keys) = .ok (.accepted cek)) :
    unwrapHeader crypto envelope hashes (.multi keys') = .ok (.accepted cek) := by
  obtain ⟨hne, -, hassert, ⟨d, hhash⟩, hscan⟩ := unwrapHeader_multi_eq_ok h
  obtain ⟨key, hkey, hcek, hbit⟩ := candidate_of_scanKeys hscan
  have hne' : (UnwrapKeys.multi keys').list envelope ≠ [] := List.ne_nil_of_mem (hsub hkey)
  rw [unwrapHeader_of_lengths hne' hlengths hhash, hassert]
  exact congrArg Except.ok (scanKeys_of_candidate (hsub hkey) hcek hbit hmac)

end Header

section Item
variable {crypto : VerifierPrimitives}

/-! ## The decision on a blob -/

/-- Only a failure of the blob lets the walk go on, and only for an unattributable blob. -/
theorem decryptDecision_nextSource_iff {item : ItemEntry} {itemIndex : ℕ} {blob : AcquiredBlob}
    {outcome : AttemptOutcome} :
    (∃ pushed, decryptDecision crypto item itemIndex blob outcome = .ok (.nextSource, pushed)) ↔
      outcome = .blobFailure ∧ blob.attributable crypto = .ok false := by
  cases outcome with
  | opened plaintext =>
      by_cases hok : recomputeItemHashes crypto item.hashes plaintext = true
      · simp [decryptDecision, hok]
      · simp [decryptDecision, hok]
  | headerFailure code => simp [decryptDecision]
  | blobFailure =>
      cases hattributable : blob.attributable crypto with
      | error panic => simp [decryptDecision, hattributable, Except.map]
      | ok attributable =>
          cases attributable with
          | true => simp [decryptDecision, hattributable, Except.map]
          | false => simp [decryptDecision, hattributable, Except.map]
  | inputFailure code message => simp [decryptDecision]

/-- A result is decrypted only from a blob that opened. -/
theorem decryptDecision_decrypted_iff {item : ItemEntry} {itemIndex : ℕ} {blob : AcquiredBlob}
    {outcome : AttemptOutcome} {hashOk : Option Bool} :
    (∃ result pushed, decryptDecision crypto item itemIndex blob outcome =
        .ok (.accept result, pushed) ∧ result.decryption.decrypted = true ∧
        result.decryption.plaintextHashOk = hashOk) ↔
      ∃ plaintext, outcome = .opened plaintext ∧
        some (recomputeItemHashes crypto item.hashes plaintext) = hashOk := by
  cases outcome with
  | opened plaintext =>
      by_cases hok : recomputeItemHashes crypto item.hashes plaintext = true
      · simp [decryptDecision, hok]
      · simp [decryptDecision, hok]
  | headerFailure code => simp [decryptDecision, notDecrypted]
  | blobFailure =>
      cases hattributable : blob.attributable crypto with
      | error panic => simp [decryptDecision, hattributable, Except.map]
      | ok attributable =>
          cases attributable with
          | true => simp [decryptDecision, hattributable, Except.map, notDecrypted]
          | false => simp [decryptDecision, hattributable, Except.map]
  | inputFailure code message => simp [decryptDecision, notDecrypted]

/-! ## The decrypted blob -/

section Run
variable (crypto) {σ : Type} (item : ItemEntry) (itemIndex : ℕ) (outOfBand : Option (List UInt8))
  (fetchContent : Bool) (policy : ContentFetchPolicy) (fetcher : GatewayFetcher σ)

/-- The item is reported as decrypted, with this result of the hash check. -/
def Decrypts (credentials : List Decryption) (hashOk : Option Bool) : Prop :=
  ∃ result issues after,
    decryptItem crypto item itemIndex credentials outOfBand fetchContent policy fetcher =
        .ok (result, issues, after) ∧
      result.decryption.decrypted = true ∧ result.decryption.plaintextHashOk = hashOk

/-- The blobs of the item's sources, in the order in which they are tried. -/
def itemBlobs : List AcquiredBlob :=
  acquiredBlobs crypto policy outOfBand (item.uris.getD []) fetchContent fetcher

/-- The credentials fail on the blob, and the walk goes on. -/
def KeyPath.PassesOver (path : KeyPath) (credentials : List Decryption) (blob : AcquiredBlob) :
    Prop :=
  path.attempt crypto item credentials blob.bytes = .blobFailure ∧
    blob.attributable crypto = .ok false

variable {item}

theorem decrypts_iff_settled {path : KeyPath} (hpath : item.keyPath = some path)
    {credentials : List Decryption} {hashOk : Option Bool} :
    Decrypts crypto item itemIndex outOfBand fetchContent policy fetcher credentials hashOk ↔
      path.applicable credentials ≠ 0 ∧ ∃ result,
        settle (decryptConsumer crypto path item itemIndex credentials)
            (itemBlobs crypto item outOfBand fetchContent policy fetcher) = .ok (some result) ∧
          result.decryption.decrypted = true ∧ result.decryption.plaintextHashOk = hashOk := by
  rw [Decrypts, itemBlobs, ← settled_walkBlobSources crypto (itemPath itemIndex) policy
    (decryptConsumer crypto path item itemIndex credentials)]
  simp only [decryptItem, hpath]
  by_cases hnone : path.applicable credentials = 0
  · simp [hnone, notDecrypted]
  · simp only [hnone, if_false, ne_eq, not_false_eq_true, true_and]
    cases walkBlobSources crypto (itemPath itemIndex) policy
      (decryptConsumer crypto path item itemIndex credentials) outOfBand (item.uris.getD [])
      fetchContent fetcher with
    | error panic => simp [Except.map, Walked.settled]
    | ok walked =>
        obtain ⟨ended, issues, after⟩ := walked
        cases ended with
        | done result => simp [Except.map, Walked.settled, BlobWalkEnd.result]
        | exhausted limitExceeded =>
            cases limitExceeded with
            | true =>
                simp [Except.map, Walked.settled, BlobWalkEnd.result, ciphertextExhausted,
                  notDecrypted]
            | false =>
                simp [Except.map, Walked.settled, BlobWalkEnd.result, ciphertextExhausted,
                  notDecrypted]

/-- **What an item is decrypted from.** The credentials open one of the blobs, and each one
before it was unattributable and failed under them. -/
theorem decrypts_iff {path : KeyPath} (hpath : item.keyPath = some path)
    {credentials : List Decryption} {hashOk : Option Bool} :
    Decrypts crypto item itemIndex outOfBand fetchContent policy fetcher credentials hashOk ↔
      path.applicable credentials ≠ 0 ∧ ∃ before blob after plaintext,
        itemBlobs crypto item outOfBand fetchContent policy fetcher = before ++ blob :: after ∧
          (∀ b ∈ before, path.PassesOver crypto item credentials b) ∧
          path.attempt crypto item credentials blob.bytes = .opened plaintext ∧
          some (recomputeItemHashes crypto item.hashes plaintext) = hashOk := by
  rw [decrypts_iff_settled crypto itemIndex outOfBand fetchContent policy fetcher hpath]
  apply and_congr_right
  intro _
  constructor
  · intro h
    obtain ⟨result, hsettle, hresult⟩ := h
    obtain ⟨before, blob, after, hblobs, hbefore, pushed, hblob⟩ := settle_eq_some_iff.mp hsettle
    obtain ⟨plaintext, hopened, hok⟩ :=
      decryptDecision_decrypted_iff.mp ⟨result, pushed, hblob, hresult⟩
    exact ⟨before, blob, after, plaintext, hblobs,
      fun b hb => decryptDecision_nextSource_iff.mp (hbefore b hb), hopened, hok⟩
  · intro h
    obtain ⟨before, blob, after, plaintext, hblobs, hbefore, hopened, hok⟩ := h
    obtain ⟨result, pushed, hblob, hresult⟩ :=
      (@decryptDecision_decrypted_iff crypto item itemIndex blob _ hashOk).mpr
        ⟨plaintext, hopened, hok⟩
    exact ⟨result, settle_eq_some_iff.mpr ⟨before, blob, after, hblobs,
      fun b hb => decryptDecision_nextSource_iff.mpr (hbefore b hb), pushed, hblob⟩, hresult⟩

/-! ## Recipient keys -/

theorem unwrapOutcome_eq_opened {unwrap : Except EciesSealedPoeError UnwrapResult}
    {plaintext : List UInt8} (h : unwrapOutcome unwrap = .opened plaintext) :
    unwrap = .ok (.matched plaintext) := by
  cases unwrap with
  | error e => simp [unwrapOutcome, inputFailureFrom] at h
  | ok result =>
      cases result with
      | matched p => simpa [unwrapOutcome] using h
      | notMatched reason => cases reason <;> simp [unwrapOutcome] at h

/-- A blob opens only under an accepted header, which does not depend on the blob. -/
theorem header_of_attemptSlotsPath {enc : EncScheme1} {blob plaintext : List UInt8}
    {keys : List (List UInt8)}
    (h : attemptSlotsPath crypto enc item blob keys = .opened plaintext) :
    ∃ envelope cek, sealedEnvelopeFromParsed (toParsedEnvelope enc) = some envelope ∧
      unwrapHeader crypto.sealing envelope (itemHashes item) (.multi keys) =
        .ok (.accepted cek) := by
  rw [attemptSlotsPath] at h
  cases henvelope : sealedEnvelopeFromParsed (toParsedEnvelope enc) with
  | none => simp [henvelope] at h
  | some envelope =>
      rw [henvelope] at h
      have hunwrap := unwrapOutcome_eq_opened h
      rw [eciesSealedPoeUnwrap] at hunwrap
      cases hheader : unwrapHeader crypto.sealing envelope (itemHashes item) (.multi keys) with
      | error e => simp [hheader, Except.map] at hunwrap
      | ok outcome =>
          cases outcome with
          | accepted cek => exact ⟨envelope, cek, rfl, hheader⟩
          | notMatched reason => simp [hheader, Except.map, unwrapContent] at hunwrap

theorem lengths_of_attemptSlotsPath {enc : EncScheme1} {blob plaintext : List UInt8}
    {keys : List (List UInt8)}
    (h : attemptSlotsPath crypto enc item blob keys = .opened plaintext) :
    ∀ k ∈ keys, k.length = x25519SecretKeyLength := by
  obtain ⟨envelope, cek, -, hheader⟩ := header_of_attemptSlotsPath crypto h
  exact (unwrapHeader_multi_eq_ok hheader).2.1

/-- No two content keys that the keys find in the item's slots have one MAC. -/
def NoSlotsCollision (item : ItemEntry) (enc : EncScheme1) (keys : List (List UInt8)) : Prop :=
  ∀ envelope, sealedEnvelopeFromParsed (toParsedEnvelope enc) = some envelope →
    NoMacCollision crypto.sealing envelope (itemHashes item) keys

/-- More keys of the right length give the same outcome on every blob. -/
theorem attemptSlotsPath_subset {enc : EncScheme1} {keys keys' : List (List UInt8)}
    (hsub : keys ⊆ keys') (hlengths : ∀ k ∈ keys', k.length = x25519SecretKeyLength)
    (hmac : NoSlotsCollision crypto item enc keys') {opened plaintext : List UInt8}
    (h : attemptSlotsPath crypto enc item opened keys = .opened plaintext) (blob : List UInt8) :
    attemptSlotsPath crypto enc item blob keys' = attemptSlotsPath crypto enc item blob keys := by
  obtain ⟨envelope, cek, henvelope, hheader⟩ := header_of_attemptSlotsPath crypto h
  have hheader' :=
    unwrapHeader_multi_subset hsub hlengths (hmac envelope henvelope) hheader
  rw [attemptSlotsPath, attemptSlotsPath, henvelope]
  dsimp only
  rw [eciesSealedPoeUnwrap, eciesSealedPoeUnwrap, hheader, hheader']

/-- With more keys a decryption is kept exactly when all of them have the right length. -/
theorem decrypts_slots_iff {enc : EncScheme1} (hpath : item.keyPath = some (.slots enc))
    {credentials credentials' : List Decryption} (hsub : credentials ⊆ credentials')
    (hmac : NoSlotsCollision crypto item enc (recipientKeys credentials')) {hashOk : Option Bool}
    (h : Decrypts crypto item itemIndex outOfBand fetchContent policy fetcher credentials hashOk) :
    Decrypts crypto item itemIndex outOfBand fetchContent policy fetcher credentials' hashOk ↔
      ∀ key ∈ recipientKeys credentials', key.length = x25519SecretKeyLength := by
  rw [decrypts_iff crypto itemIndex outOfBand fetchContent policy fetcher hpath] at h ⊢
  obtain ⟨happlicable, before, blob, after, plaintext, hblobs, hbefore, hopened, hok⟩ := h
  constructor
  · intro h'
    obtain ⟨-, -, blob', -, plaintext', -, -, hopened', -⟩ := h'
    exact lengths_of_attemptSlotsPath crypto hopened'
  · intro hlengths
    have hsame := attemptSlotsPath_subset crypto (recipientKeys_subset hsub) hlengths hmac hopened
    refine ⟨?_, before, blob, after, plaintext, hblobs, ?_, ?_, hok⟩
    · intro hnone
      apply happlicable
      have hnil := List.eq_nil_of_length_eq_zero hnone
      have hsubset := recipientKeys_subset hsub
      rw [hnil] at hsubset
      simp [KeyPath.applicable, List.subset_nil.mp hsubset]
    · intro b hb
      exact ⟨(hsame b.bytes).trans (hbefore b hb).1, (hbefore b hb).2⟩
    · exact (hsame blob.bytes).trans hopened

/-! ## Passphrases -/

/-- The plaintext of an attempt that opened. -/
def AttemptOutcome.plaintext? : AttemptOutcome → Option (List UInt8)
  | .opened plaintext => some plaintext
  | _ => none

theorem AttemptOutcome.plaintext?_eq_some {outcome : AttemptOutcome} {plaintext : List UInt8} :
    outcome.plaintext? = some plaintext ↔ outcome = .opened plaintext := by
  cases outcome <;> simp [AttemptOutcome.plaintext?]

/-- The first passphrase that opens, or the first failure. -/
theorem attemptPassphrases_eq (attempt : String → AttemptOutcome)
    (firstFailure : Option AttemptOutcome) (passphrases : List String) :
    attemptPassphrases attempt firstFailure passphrases =
      match passphrases.findSome? fun passphrase => (attempt passphrase).plaintext? with
      | some plaintext => .opened plaintext
      | none => (firstFailure.or (passphrases.head?.map attempt)).getD
          (.inputFailure .kdfDerivationFailed "no passphrase credential was supplied") := by
  induction passphrases generalizing firstFailure with
  | nil => simp [attemptPassphrases]
  | cons passphrase passphrases ih =>
      rw [attemptPassphrases, List.findSome?_cons]
      cases hattempt : attempt passphrase with
      | opened plaintext => rfl
      | headerFailure code => cases firstFailure <;> simp [ih, AttemptOutcome.plaintext?, hattempt]
      | blobFailure => cases firstFailure <;> simp [ih, AttemptOutcome.plaintext?, hattempt]
      | inputFailure code message =>
          cases firstFailure <;> simp [ih, AttemptOutcome.plaintext?, hattempt]

/-- One passphrase alone on one blob. -/
def passphraseAttempt (item : ItemEntry) (enc : EncScheme1) (block : PassphraseBlock)
    (blob : List UInt8) (passphrase : String) : AttemptOutcome :=
  attemptPassphrasePath crypto enc block item blob [passphrase]

theorem attemptPassphrasePath_eq (enc : EncScheme1) (block : PassphraseBlock)
    (blob : List UInt8) (passphrase : String) (passphrases : List String) :
    attemptPassphrasePath crypto enc block item blob (passphrase :: passphrases) =
      match (passphrase :: passphrases).findSome? fun passphrase =>
          (passphraseAttempt crypto item enc block blob passphrase).plaintext? with
      | some plaintext => .opened plaintext
      | none => passphraseAttempt crypto item enc block blob passphrase := by
  have hfail : ∀ outcome : AttemptOutcome, outcome.plaintext? = none →
      (passphrase :: passphrases).findSome? (fun _ => outcome.plaintext?) = none := by
    intro outcome houtcome
    apply List.findSome?_eq_none_iff.mpr
    intro _ _
    exact houtcome
  simp only [passphraseAttempt, attemptPassphrasePath]
  cases param block "m" with
  | none => rw [hfail _ rfl]
  | some m =>
      cases param block "t" with
      | none => rw [hfail _ rfl]
      | some t =>
          cases param block "p" with
          | none => rw [hfail _ rfl]
          | some p =>
              have hone : ∀ passphrase, attemptPassphrases
                  (attemptPassphrase crypto enc block item m t p blob) none [passphrase] =
                    attemptPassphrase crypto enc block item m t p blob passphrase := by
                intro passphrase
                rw [attemptPassphrases_eq]
                cases hattempt : attemptPassphrase crypto enc block item m t p blob passphrase <;>
                  simp [AttemptOutcome.plaintext?, hattempt]
              simp only [hone]
              rw [attemptPassphrases_eq]
              rfl

variable (item) in
/-- Whether one of the passphrases opens the blob. -/
def opensBlob (enc : EncScheme1) (block : PassphraseBlock) (passphrases : List String)
    (blob : AcquiredBlob) : Bool :=
  passphrases.any fun passphrase =>
    (passphraseAttempt crypto item enc block blob.bytes passphrase).plaintext?.isSome

variable (item) in
/-- The passphrase is refused as an input on the blob, not only rejected. -/
def Refused (enc : EncScheme1) (block : PassphraseBlock) (blob : AcquiredBlob)
    (passphrase : String) : Prop :=
  ∃ code message,
    passphraseAttempt crypto item enc block blob.bytes passphrase = .inputFailure code message

theorem opensBlob_eq_true {enc : EncScheme1} {block : PassphraseBlock}
    {passphrases : List String} {blob : AcquiredBlob} :
    opensBlob crypto item enc block passphrases blob = true ↔ ∃ passphrase ∈ passphrases,
      ∃ plaintext,
        passphraseAttempt crypto item enc block blob.bytes passphrase = .opened plaintext := by
  simp [opensBlob, Option.isSome_iff_exists, AttemptOutcome.plaintext?_eq_some]

theorem opensBlob_mono {enc : EncScheme1} {block : PassphraseBlock}
    {passphrases passphrases' : List String} (hsub : passphrases ⊆ passphrases')
    {blob : AcquiredBlob} (h : opensBlob crypto item enc block passphrases blob = true) :
    opensBlob crypto item enc block passphrases' blob = true := by
  rw [opensBlob_eq_true] at h ⊢
  obtain ⟨passphrase, hmem, hopened⟩ := h
  exact ⟨passphrase, hsub hmem, hopened⟩

theorem passphraseAttempt_ne_headerFailure (enc : EncScheme1) (block : PassphraseBlock)
    (blob : List UInt8) (passphrase : String) (code : ErrorCode) :
    passphraseAttempt crypto item enc block blob passphrase ≠ .headerFailure code := by
  have hone : ∀ m t p, attemptPassphrase crypto enc block item m t p blob passphrase ≠
      .headerFailure code := by
    intro m t p
    rw [attemptPassphrase]
    cases passphraseSealedPoeOpen crypto.kdf crypto.sealing _ with
    | error e => simp [passphraseOutcome, inputFailureFrom]
    | ok result => cases result <;> simp [passphraseOutcome]
  rw [passphraseAttempt, attemptPassphrasePath]
  split
  · rw [attemptPassphrases]
    split
    · simp
    · simpa [attemptPassphrases] using hone _ _ _
  · simp

/-- The passphrases open what one of them opens. -/
theorem attemptPassphrasePath_opened {enc : EncScheme1} {block : PassphraseBlock}
    {passphrases : List String} {blob : AcquiredBlob}
    (h : opensBlob crypto item enc block passphrases blob = true) :
    ∃ plaintext, attemptPassphrasePath crypto enc block item blob.bytes passphrases =
        .opened plaintext ∧
      ∃ passphrase ∈ passphrases,
        passphraseAttempt crypto item enc block blob.bytes passphrase = .opened plaintext := by
  rw [opensBlob_eq_true] at h
  obtain ⟨passphrase, hmem, plaintext, hopened⟩ := h
  cases passphrases with
  | nil => cases hmem
  | cons first rest =>
      rw [attemptPassphrasePath_eq]
      cases hfind : (first :: rest).findSome? fun passphrase =>
          (passphraseAttempt crypto item enc block blob.bytes passphrase).plaintext? with
      | none =>
          have hnone := List.findSome?_eq_none_iff.mp hfind passphrase hmem
          simp [hopened, AttemptOutcome.plaintext?] at hnone
      | some p =>
          obtain ⟨found, hfound, hp⟩ := List.exists_of_findSome?_eq_some hfind
          exact ⟨p, rfl, found, hfound, AttemptOutcome.plaintext?_eq_some.mp hp⟩

/-- When none opens, the first one decides between a failure of the blob and a refusal. -/
theorem attemptPassphrasePath_unopened {enc : EncScheme1} {block : PassphraseBlock}
    {passphrase : String} {passphrases : List String} {blob : AcquiredBlob}
    (h : opensBlob crypto item enc block (passphrase :: passphrases) blob = false) :
    attemptPassphrasePath crypto enc block item blob.bytes (passphrase :: passphrases) =
        .blobFailure ↔ ¬ Refused crypto item enc block blob passphrase := by
  have hunopened : ∀ p ∈ passphrase :: passphrases,
      (passphraseAttempt crypto item enc block blob.bytes p).plaintext? = none := by
    intro p hp
    have hall := List.any_eq_false.mp h p hp
    simpa using hall
  rw [attemptPassphrasePath_eq, List.findSome?_eq_none_iff.mpr hunopened, Refused]
  have hfirst := hunopened passphrase List.mem_cons_self
  cases hattempt : passphraseAttempt crypto item enc block blob.bytes passphrase with
  | opened plaintext => simp [hattempt, AttemptOutcome.plaintext?] at hfirst
  | headerFailure code =>
      exact absurd hattempt (passphraseAttempt_ne_headerFailure crypto enc block _ passphrase code)
  | blobFailure => simp
  | inputFailure code message => simp

/-- What stands before the first hit of a list, and the hit. -/
theorem first_hit {α : Type} {p : α → Bool} {before after : List α} {a : α}
    (hbefore : ∀ b ∈ before, p b = false) (ha : p a = true) :
    (before ++ a :: after).takeWhile (fun b => !p b) = before ∧
      (before ++ a :: after).find? p = some a := by
  constructor
  · rw [List.takeWhile_append_of_pos]
    · simp [ha]
    · intro b hb
      simp [hbefore b hb]
  · apply List.find?_eq_some_iff_append.mpr
    refine ⟨ha, before, after, rfl, ?_⟩
    intro b hb
    simp [hbefore b hb]

/-- **What passphrases decrypt an item from** is the first blob that one of them opens, unless
a blob before it is attributable or the first passphrase is refused on it. -/
theorem decrypts_iff_first {enc : EncScheme1} {block : PassphraseBlock}
    (hpath : item.keyPath = some (.passphrase enc block)) {credentials : List Decryption}
    {hashOk : Option Bool} :
    Decrypts crypto item itemIndex outOfBand fetchContent policy fetcher credentials hashOk ↔
      ∃ blob ∈ (itemBlobs crypto item outOfBand fetchContent policy fetcher).find?
          (opensBlob crypto item enc block (passphrases credentials)),
        (∃ plaintext, attemptPassphrasePath crypto enc block item blob.bytes
            (passphrases credentials) = .opened plaintext ∧
          some (recomputeItemHashes crypto item.hashes plaintext) = hashOk) ∧
        ∀ b ∈ (itemBlobs crypto item outOfBand fetchContent policy fetcher).takeWhile
            (fun b => !opensBlob crypto item enc block (passphrases credentials) b),
          (∀ passphrase ∈ (passphrases credentials).head?,
            ¬ Refused crypto item enc block b passphrase) ∧
          b.attributable crypto = .ok false := by
  rw [decrypts_iff crypto itemIndex outOfBand fetchContent policy fetcher hpath]
  constructor
  · intro h
    obtain ⟨happlicable, before, blob, after, plaintext, hblobs, hbefore, hopened, hok⟩ := h
    have hne : passphrases credentials ≠ [] := by
      intro hnil
      simp [KeyPath.applicable, hnil] at happlicable
    obtain ⟨first, rest, hfirst⟩ := List.exists_cons_of_ne_nil hne
    have hunopened : ∀ b ∈ before,
        opensBlob crypto item enc block (passphrases credentials) b = false := by
      intro b hb
      by_contra hopens
      rw [Bool.not_eq_false] at hopens
      obtain ⟨p, hp, -⟩ := attemptPassphrasePath_opened crypto hopens
      have hfailed := (hbefore b hb).1
      rw [KeyPath.attempt, hp] at hfailed
      cases hfailed
    have hopens : opensBlob crypto item enc block (passphrases credentials) blob = true := by
      by_contra hopens
      rw [Bool.not_eq_true] at hopens
      have hall : ∀ p ∈ passphrases credentials,
          (passphraseAttempt crypto item enc block blob.bytes p).plaintext? = none := by
        intro p hp
        simpa using List.any_eq_false.mp hopens p hp
      have hsome := AttemptOutcome.plaintext?_eq_some.mpr hopened
      rw [KeyPath.attempt, hfirst, attemptPassphrasePath_eq, ← hfirst,
        List.findSome?_eq_none_iff.mpr hall, hall first (by rw [hfirst]; simp)] at hsome
      cases hsome
    obtain ⟨htake, hfind⟩ := @first_hit _ _ _ after _ hunopened hopens
    rw [hblobs]
    refine ⟨blob, hfind, ⟨plaintext, hopened, hok⟩, ?_⟩
    rw [htake]
    intro b hb
    refine ⟨?_, (hbefore b hb).2⟩
    have hb' := hunopened b hb
    have hfailed := (hbefore b hb).1
    rw [KeyPath.attempt] at hfailed
    rw [hfirst] at hb' hfailed ⊢
    intro p hp
    rw [List.head?_cons, Option.mem_some_iff] at hp
    rw [← hp]
    exact (attemptPassphrasePath_unopened crypto hb').mp hfailed
  · intro h
    obtain ⟨blob, hfind, ⟨plaintext, hopened, hok⟩, hbefore⟩ := h
    obtain ⟨hopens, before, after, hblobs, hnot⟩ := List.find?_eq_some_iff_append.mp hfind
    have hunopened : ∀ b ∈ before,
        opensBlob crypto item enc block (passphrases credentials) b = false := by
      intro b hb
      simpa using hnot b hb
    rw [hblobs, (first_hit hunopened hopens).1] at hbefore
    cases hpass : passphrases credentials with
    | nil => simp [hpass, opensBlob] at hopens
    | cons first rest =>
        refine ⟨by simp [KeyPath.applicable, hpass], before, blob, after, plaintext, hblobs, ?_,
          hopened, hok⟩
        intro b hb
        refine ⟨?_, (hbefore b hb).2⟩
        have hb' := hunopened b hb
        rw [KeyPath.attempt]
        rw [hpass] at hb' ⊢
        exact (attemptPassphrasePath_unopened crypto hb').mpr
          ((hbefore b hb).1 first (by simp [hpass]))

variable (item) in
/-- No two content keys of the passphrases have one commitment to the item's header. -/
def NoCommitmentCollision (enc : EncScheme1) (block : PassphraseBlock)
    (passphrases : List String) : Prop :=
  ∀ m ∈ param block "m", ∀ t ∈ param block "t", ∀ p ∈ param block "p",
    Set.InjOn
      (fun cek : FixedBytes 32 => passphraseCommitment crypto.sealing cek.val
        (computePassphraseHash crypto.sealing enc.aead enc.nonce block.alg block.salt m t p
          (itemHashesDigest crypto.sealing (itemHashes item))))
      {cek | ∃ passphrase ∈ passphrases, ∃ normalized,
        normalizePassphrase crypto.kdf passphrase = .ok normalized ∧
          argon2Cek crypto.kdf normalized block.salt m t p = .ok cek}

/-- A blob that opens has the commitment of the passphrase's content key, and a stream. -/
theorem passphraseSealedPoeOpen_opened {kdf : PassphrasePrimitives} {sealing : SealedPrimitives}
    {args : PassphraseOpenArgs} {plaintext : List UInt8}
    (h : passphraseSealedPoeOpen kdf sealing args = .ok (.opened plaintext)) :
    ∃ normalized cek, normalizePassphrase kdf args.passphrase = .ok normalized ∧
      argon2Cek kdf normalized args.salt args.m args.t args.p = .ok cek ∧
      (passphraseCommitment sealing cek.val
          (computePassphraseHash sealing args.aead args.nonce args.alg args.salt args.m args.t
            args.p (itemHashesDigest sealing args.hashes))).val =
        args.blob.take passphraseCommitmentLength ∧
      streamOpen sealing.aead (passphrasePayloadKey sealing cek.val args.nonce)
        (args.blob.drop passphraseCommitmentLength) = some plaintext := by
  rw [passphraseSealedPoeOpen] at h
  obtain ⟨hashesHash, hhash, h⟩ := ExceptBind.bind_eq_ok.mp h
  obtain ⟨normalized, hnormalized, h⟩ := ExceptBind.bind_eq_ok.mp h
  split at h
  · cases h
  · split at h
    · cases h
    · obtain ⟨_, -, h⟩ := ExceptBind.bind_eq_ok.mp h
      split at h
      · simp at h
      · obtain ⟨cek, hcek, h⟩ := ExceptBind.bind_eq_ok.mp h
        rw [Except.ok.injEq, openPassphraseBlob, (itemHashesHash_eq_ok.mp hhash).2] at h
        refine ⟨normalized, cek, hnormalized, hcek, ?_⟩
        by_cases hcommitment : (passphraseCommitment sealing cek.val
            (computePassphraseHash sealing args.aead args.nonce args.alg args.salt args.m args.t
              args.p (itemHashesDigest sealing args.hashes))).val =
              args.blob.take passphraseCommitmentLength
        · refine ⟨hcommitment, ?_⟩
          rw [if_pos hcommitment] at h
          cases hopen : streamOpen sealing.aead (passphrasePayloadKey sealing cek.val args.nonce)
              (args.blob.drop passphraseCommitmentLength) with
          | none => simp [hopen] at h
          | some p => simpa [hopen] using h
        · simp [hcommitment] at h

/-- A blob opens to one plaintext under all the passphrases. -/
theorem passphraseAttempt_unique {enc : EncScheme1} {block : PassphraseBlock}
    {passphrases : List String} (hunique : NoCommitmentCollision crypto item enc block passphrases)
    {blob plaintext plaintext' : List UInt8} {passphrase passphrase' : String}
    (hmem : passphrase ∈ passphrases) (hmem' : passphrase' ∈ passphrases)
    (h : passphraseAttempt crypto item enc block blob passphrase = .opened plaintext)
    (h' : passphraseAttempt crypto item enc block blob passphrase' = .opened plaintext') :
    plaintext = plaintext' := by
  rw [passphraseAttempt, attemptPassphrasePath] at h h'
  cases hm : param block "m" with
  | none => simp [hm] at h
  | some m =>
      cases ht : param block "t" with
      | none => simp [hm, ht] at h
      | some t =>
          cases hp : param block "p" with
          | none => simp [hm, ht, hp] at h
          | some p =>
              have hopen : ∀ word text,
                  attemptPassphrases (attemptPassphrase crypto enc block item m t p blob) none
                    [word] = .opened text →
                  passphraseSealedPoeOpen crypto.kdf crypto.sealing
                    { blob := blob, passphrase := word, aead := enc.aead, alg := block.alg,
                      salt := block.salt, m := m, t := t, p := p, nonce := enc.nonce,
                      hashes := itemHashes item } = .ok (.opened text) := by
                intro word text hword
                rw [attemptPassphrases_eq] at hword
                cases hresult : passphraseSealedPoeOpen crypto.kdf crypto.sealing
                    { blob := blob, passphrase := word, aead := enc.aead, alg := block.alg,
                      salt := block.salt, m := m, t := t, p := p, nonce := enc.nonce,
                      hashes := itemHashes item } with
                | error e =>
                    simp [attemptPassphrase, hresult, passphraseOutcome, inputFailureFrom,
                      AttemptOutcome.plaintext?] at hword
                | ok result =>
                    cases result with
                    | opened q =>
                        simpa [attemptPassphrase, hresult, passphraseOutcome,
                          AttemptOutcome.plaintext?] using hword
                    | rejected =>
                        simp [attemptPassphrase, hresult, passphraseOutcome,
                          AttemptOutcome.plaintext?] at hword
              simp only [hm, ht, hp] at h h'
              obtain ⟨normalized, cek, hnormalized, hcek, hcommitment, hstream⟩ :=
                passphraseSealedPoeOpen_opened (hopen _ _ h)
              obtain ⟨normalized', cek', hnormalized', hcek', hcommitment', hstream'⟩ :=
                passphraseSealedPoeOpen_opened (hopen _ _ h')
              have hsame : cek = cek' := hunique m hm t ht p hp
                ⟨passphrase, hmem, normalized, hnormalized, hcek⟩
                ⟨passphrase', hmem', normalized', hnormalized', hcek'⟩
                (Subtype.ext (hcommitment.trans hcommitment'.symm))
              rw [hsame, hstream'] at hstream
              exact (Option.some.inj hstream).symm

variable (item) in
/-- The plaintexts of two blobs agree on the digests of the item. -/
def SameDecision (enc : EncScheme1) (block : PassphraseBlock) (credentials credentials' :
    List Decryption) (blob blob' : AcquiredBlob) : Prop :=
  ∀ passphrase ∈ passphrases credentials, ∀ passphrase' ∈ passphrases credentials',
    ∀ plaintext plaintext',
      passphraseAttempt crypto item enc block blob.bytes passphrase = .opened plaintext →
      passphraseAttempt crypto item enc block blob'.bytes passphrase' = .opened plaintext' →
      recomputeItemHashes crypto item.hashes plaintext =
        recomputeItemHashes crypto item.hashes plaintext'

variable (item) in
/-- What passphrases of a larger keyring must not do. The first one is not refused on a blob
before the first that they open, and a blob that only they open has the verdict of the one that
is opened without them. -/
def PassphrasesKeep (enc : EncScheme1) (block : PassphraseBlock) (blobs : List AcquiredBlob)
    (credentials credentials' : List Decryption) : Prop :=
  (∀ b ∈ blobs.takeWhile
      (fun b => !opensBlob crypto item enc block (passphrases credentials') b),
    ∀ passphrase ∈ (passphrases credentials').head?,
      ¬ Refused crypto item enc block b passphrase) ∧
  ∀ earlier ∈ blobs.find? (opensBlob crypto item enc block (passphrases credentials')),
    opensBlob crypto item enc block (passphrases credentials) earlier = false →
    ∀ blob ∈ blobs.find? (opensBlob crypto item enc block (passphrases credentials)),
      SameDecision crypto item enc block credentials credentials' blob earlier

/-- A weaker predicate hits no later, and what stands before its first hit is no hit of the
stronger one. -/
theorem first_hit_of_imp {α : Type} {p q : α → Bool} (himp : ∀ a, p a = true → q a = true)
    {xs : List α} {a : α} (ha : xs.find? p = some a) :
    ∃ b, xs.find? q = some b ∧ (p b = true → b = a) ∧
      ∀ c ∈ xs.takeWhile (fun c => !q c), c ∈ xs.takeWhile (fun c => !p c) := by
  induction xs with
  | nil => cases ha
  | cons x xs ih =>
      by_cases hq : q x = true
      · refine ⟨x, by simp [hq], ?_, by simp [hq]⟩
        intro hp
        rw [List.find?_cons, hp] at ha
        exact Option.some.inj ha
      · have hp : ¬ p x = true := fun hp => hq (himp x hp)
        rw [Bool.not_eq_true] at hq hp
        rw [List.find?_cons, hp] at ha
        obtain ⟨b, hb, hba, hmem⟩ := ih ha
        refine ⟨b, by simp [hq, hb], hba, ?_⟩
        intro c hc
        simp only [hq, hp, Bool.not_false, List.takeWhile_cons_of_pos, List.mem_cons] at hc ⊢
        exact hc.imp_right (hmem c)

/-- The verdicts agree on all plaintexts when they agree on one pair of them. -/
theorem sameVerdict_iff {enc : EncScheme1} {block : PassphraseBlock}
    {credentials credentials' : List Decryption}
    (hpass : passphrases credentials ⊆ passphrases credentials')
    (hunique : NoCommitmentCollision crypto item enc block (passphrases credentials'))
    {blob blob' : AcquiredBlob} {passphrase passphrase' : String}
    {plaintext plaintext' : List UInt8}
    (hmem : passphrase ∈ passphrases credentials) (hmem' : passphrase' ∈ passphrases credentials')
    (h : passphraseAttempt crypto item enc block blob.bytes passphrase = .opened plaintext)
    (h' : passphraseAttempt crypto item enc block blob'.bytes passphrase' = .opened plaintext') :
    SameDecision crypto item enc block credentials credentials' blob blob' ↔
      recomputeItemHashes crypto item.hashes plaintext =
        recomputeItemHashes crypto item.hashes plaintext' := by
  constructor
  · intro hsame
    exact hsame passphrase hmem passphrase' hmem' plaintext plaintext' h h'
  · intro hsame q hq q' hq' text text' htext htext'
    rw [passphraseAttempt_unique crypto hunique (hpass hq) (hpass hmem) htext h,
      passphraseAttempt_unique crypto hunique hq' hmem' htext' h']
    exact hsame

/-- With more passphrases a decryption is kept exactly when they do neither. -/
theorem decrypts_passphrase_iff {enc : EncScheme1} {block : PassphraseBlock}
    (hpath : item.keyPath = some (.passphrase enc block))
    {credentials credentials' : List Decryption} (hsub : credentials ⊆ credentials')
    (hunique : NoCommitmentCollision crypto item enc block (passphrases credentials'))
    {hashOk : Option Bool}
    (h : Decrypts crypto item itemIndex outOfBand fetchContent policy fetcher credentials hashOk) :
    Decrypts crypto item itemIndex outOfBand fetchContent policy fetcher credentials' hashOk ↔
      PassphrasesKeep crypto item enc block
        (itemBlobs crypto item outOfBand fetchContent policy fetcher) credentials
        credentials' := by
  rw [decrypts_iff_first crypto itemIndex outOfBand fetchContent policy fetcher hpath] at h ⊢
  rw [PassphrasesKeep]
  have hpass := passphrases_subset hsub
  obtain ⟨blob, hfind, ⟨plaintext, hopened, hok⟩, hbefore⟩ := h
  rw [Option.mem_def] at hfind
  obtain ⟨_, hopened₀, q, hq, hattempt⟩ :=
    attemptPassphrasePath_opened crypto (List.find?_some hfind)
  rw [hopened, AttemptOutcome.opened.injEq] at hopened₀
  rw [← hopened₀] at hattempt
  -- The larger keyring opens a blob at the latest where the smaller one does.
  obtain ⟨earlier, hfind', hboth, hmem⟩ :=
    first_hit_of_imp (fun _ => opensBlob_mono crypto hpass) hfind
  obtain ⟨plaintext', hopened', q', hq', hattempt'⟩ :=
    attemptPassphrasePath_opened crypto (List.find?_some hfind')
  have hverdict : some (recomputeItemHashes crypto item.hashes plaintext') = hashOk ↔
      (opensBlob crypto item enc block (passphrases credentials) earlier = false →
        SameDecision crypto item enc block credentials credentials' blob earlier) := by
    rw [← hok, Option.some.injEq,
      sameVerdict_iff crypto hpass hunique hq hq' hattempt hattempt']
    constructor
    · intro hsame _
      exact hsame.symm
    · intro hkeep
      by_cases hopens : opensBlob crypto item enc block (passphrases credentials) earlier = true
      · rw [hboth hopens] at hattempt'
        rw [passphraseAttempt_unique crypto hunique hq' (hpass hq) hattempt' hattempt]
      · rw [Bool.not_eq_true] at hopens
        exact (hkeep hopens).symm
  simp only [hfind, hfind', Option.mem_def, Option.some.injEq, exists_eq_left', forall_eq']
  rw [← hverdict]
  constructor
  · intro h'
    obtain ⟨⟨text, htext, hsame⟩, hrest⟩ := h'
    rw [hopened', AttemptOutcome.opened.injEq] at htext
    rw [htext]
    exact ⟨fun b hb => (hrest b hb).1, hsame⟩
  · intro h'
    refine ⟨⟨plaintext', hopened', h'.2⟩, ?_⟩
    intro b hb
    exact ⟨h'.1 b hb, (hbefore b (hmem b hb)).2⟩

/-! ## The keyring -/

variable (item) in
/-- No two content keys that the credentials find for the item share a MAC or a commitment. -/
def KeyPath.NoCollision (credentials : List Decryption) : KeyPath → Prop
  | .slots enc => NoSlotsCollision crypto item enc (recipientKeys credentials)
  | .passphrase enc block => NoCommitmentCollision crypto item enc block (passphrases credentials)

variable (item) in
/-- What keeps the decryptions of a keyring in a larger one. -/
def KeyPath.Keeps (blobs : List AcquiredBlob) (credentials credentials' : List Decryption) :
    KeyPath → Prop
  | .slots _ => ∀ key ∈ recipientKeys credentials', key.length = x25519SecretKeyLength
  | .passphrase enc block => PassphrasesKeep crypto item enc block blobs credentials credentials'

/-- **When a further credential keeps a decryption.** On the slots path, exactly when no
recipient key of the keyring has another length. On the passphrase path, exactly when the first
passphrase is refused on no blob before the first opened one, and a blob that only the larger
keyring opens has the verdict of the one that the smaller keyring opens. -/
theorem decrypts_keyringStep_iff {path : KeyPath} (hpath : item.keyPath = some path)
    {credentials credentials' : List Decryption} (hstep : KeyringStep credentials credentials')
    (hunique : path.NoCollision crypto item credentials') {hashOk : Option Bool}
    (h : Decrypts crypto item itemIndex outOfBand fetchContent policy fetcher credentials hashOk) :
    Decrypts crypto item itemIndex outOfBand fetchContent policy fetcher credentials' hashOk ↔
      path.Keeps crypto item (itemBlobs crypto item outOfBand fetchContent policy fetcher)
        credentials credentials' := by
  cases path with
  | slots enc =>
      exact decrypts_slots_iff crypto itemIndex outOfBand fetchContent policy fetcher hpath
        hstep.subset hunique h
  | passphrase enc block =>
      exact decrypts_passphrase_iff crypto itemIndex outOfBand fetchContent policy fetcher hpath
        hstep.subset hunique h

end Run

end Item

/-! ## A sample -/

/-- SHA-256 on the strings hashed for the sample. -/
def keyringSha256 (b : List UInt8) : FixedBytes 32 :=
  if b = utf8Bytes "hello" then helloSha256
  else roundTripSha256 b

/-- The primitives of the round trip, with the digest of the word. -/
def keyringCrypto : VerifierPrimitives where
  text := ⟨id, fun s => "\"" ++ s ++ "\"", fun _ => none⟩
  unicode := Lowercase.asciiCase
  blake2b256 _ := FixedBytes.zero 32
  sealing := { roundTripCrypto with sha256 := keyringSha256 }
  kdf := ⟨.ok, fun _ _ _ => .ok (), fun _ _ _ _ _ => .ok (FixedBytes.zero 32)⟩
  signing := ⟨fun _ _ _ => false, fun _ => FixedBytes.zero 28⟩

/-- The envelope of the round trip. -/
def keyringEnc : EncScheme1 where
  scheme := 1
  aead := aeadChacha20Poly1305Stream64k
  nonce := List.replicate 24 3
  kem := some kemX25519
  slots := some (roundTripOutput.envelope.slots.fields.map fun s => ⟨some s.1, none, some s.2⟩)
  slotsMac := some roundTripOutput.envelope.slotsMac
  passphrase := none

/-- An item that is sealed in it, with another digest than the word's. -/
def keyringItem : ItemEntry := ⟨sampleHashes.entries, none, some (.scheme1 keyringEnc)⟩

/-- A network that does not answer. -/
def keyringFetcher : GatewayFetcher Unit :=
  .new (fun s url _ => (.error (.transport url "unreachable"), s)) () none

def keyringPolicy : ContentFetchPolicy := ⟨[], [], none⟩

/-- The item of the sample is decrypted from bytes that the caller hands in. -/
def KeyringDecrypts (credentials : List Decryption) (hashOk : Option Bool) : Prop :=
  Decrypts keyringCrypto keyringItem 0 (some roundTripOutput.ciphertext) false keyringPolicy
    keyringFetcher credentials hashOk

def keyringSecret : Decryption := .recipient roundTripSecret.val

theorem keyring_decrypts : KeyringDecrypts [keyringSecret] (some false) := by
  have hpath : keyringItem.keyPath = some (.slots keyringEnc) := rfl
  have hopened : attemptSlotsPath keyringCrypto keyringEnc keyringItem roundTripOutput.ciphertext
      [roundTripSecret.val] = .opened (utf8Bytes "hello") := by
    decide
  rw [KeyringDecrypts, decrypts_iff _ _ _ _ _ _ hpath]
  refine ⟨by decide, [], ⟨roundTripOutput.ciphertext, none, none, .outOfBand⟩, [],
    utf8Bytes "hello", rfl, by simp, hopened, by decide⟩

theorem keyring_noCollision (credentials : List Decryption)
    (h : ∀ key ∈ recipientKeys credentials, key = roundTripSecret.val) :
    NoSlotsCollision keyringCrypto keyringItem keyringEnc (recipientKeys credentials) := by
  have hparsed : sealedEnvelopeFromParsed (toParsedEnvelope keyringEnc) =
      some roundTripOutput.envelope := rfl
  have hcandidates : slotCandidates keyringCrypto.sealing roundTripOutput.envelope
      roundTripSecret.val = [(true, ⟨List.replicate 32 4, List.length_replicate⟩)] := by
    decide
  intro envelope henvelope
  rw [hparsed, Option.some.injEq] at henvelope
  rw [← henvelope]
  intro a ha b hb _
  obtain ⟨key, hkey, ha⟩ := ha
  obtain ⟨key', hkey', hb⟩ := hb
  rw [h key hkey, hcandidates, List.mem_singleton, Prod.mk.injEq] at ha
  rw [h key' hkey', hcandidates, List.mem_singleton, Prod.mk.injEq] at hb
  rw [ha.2, hb.2]

/-- A second key of 31 bytes loses the decryption of the first one. -/
theorem decryption_lost :
    KeyringStep ([keyringSecret] ++ [])
        ([keyringSecret] ++ .recipient (List.replicate 31 0) :: []) ∧
      KeyringDecrypts [keyringSecret] (some false) ∧
      ∀ hashOk, ¬ KeyringDecrypts [keyringSecret, .recipient (List.replicate 31 0)] hashOk := by
  refine ⟨.insert _ _ _, keyring_decrypts, ?_⟩
  intro hashOk h
  have hpath : keyringItem.keyPath = some (.slots keyringEnc) := rfl
  rw [KeyringDecrypts, decrypts_iff _ _ _ _ _ _ hpath] at h
  obtain ⟨-, -, blob, -, plaintext, -, -, hopened, -⟩ := h
  rw [KeyPath.attempt] at hopened
  have hlengths := lengths_of_attemptSlotsPath keyringCrypto hopened (List.replicate 31 0)
    (by decide)
  exact absurd hlengths (by decide)

/-- The same key twice keeps it. -/
theorem decryption_kept : KeyringDecrypts [keyringSecret, keyringSecret] (some false) := by
  have hpath : keyringItem.keyPath = some (.slots keyringEnc) := rfl
  have hstep : KeyringStep ([keyringSecret] ++ []) ([keyringSecret] ++ keyringSecret :: []) :=
    .insert _ _ _
  have hlengths : ∀ key ∈ recipientKeys ([keyringSecret] ++ keyringSecret :: []),
      key.length = x25519SecretKeyLength := by
    decide
  exact (decrypts_keyringStep_iff keyringCrypto 0 _ false keyringPolicy keyringFetcher hpath hstep
    (keyring_noCollision _ (by decide)) keyring_decrypts).mpr hlengths

end Label309
