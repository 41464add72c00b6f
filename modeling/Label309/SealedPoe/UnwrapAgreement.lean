import Label309.SealedPoe.StreamIoRefinement
import Label309.SealedPoe.TranscriptBinding
import Label309.SealedPoe.Unwrap

/-!
# Streaming and buffered unwrap

Both try the keys in order and open the content under the first accepted content key. They
part only on a key whose slots recover two content keys: the buffered unwrap stops there,
and the trial decryption goes on to the next key.
-/
namespace Label309
open ExceptBind

section Scan
variable (crypto : SealedPrimitives)

/-! ## One key -/

/-- A conflict takes an accepted slot. -/
def InnerScan.Valid (scan : InnerScan) : Prop := scan.cekConflict = true → scan.found = true

theorem InnerScan.Valid.fold {scan : InnerScan} (h : scan.Valid) (i : ℕ) (openBit macOk : Bool)
    (candidate : FixedBytes 32) : (scan.fold i openBit macOk candidate).Valid := by
  intro hconflict
  simp only [InnerScan.fold, Bool.or_eq_true, Bool.and_eq_true] at hconflict ⊢
  by_cases hold : scan.cekConflict = true
  · exact .inl (h hold)
  · exact .inl (hconflict.resolve_left hold).1.2

theorem InnerScan.Valid.scanCandidates {scan : InnerScan} (h : scan.Valid)
    (slotsHash : FixedBytes 32) (slotsMac : List UInt8) (i : ℕ)
    (candidates : List (Bool × FixedBytes 32)) :
    (scanCandidates crypto slotsHash slotsMac scan i candidates).Valid := by
  induction candidates generalizing scan i with
  | nil => exact h
  | cons candidate rest ih => exact ih (h.fold i _ _ _) (i + 1)

variable (envelope : SealedEnvelope) (slotsHash : FixedBytes 32)

theorem found_of_cekConflict {key : List UInt8}
    (h : (scanSlotsForKey crypto envelope key slotsHash).cekConflict = true) :
    (scanSlotsForKey crypto envelope key slotsHash).found = true := by
  have hstart : InnerScan.start.Valid := by
    intro hconflict
    cases hconflict
  exact hstart.scanCandidates crypto slotsHash envelope.slotsMac 0 _ h

/-! ## All keys -/

/-- The first key under which a slot is accepted. -/
def firstAccepting (keys : List (List UInt8)) : Option (List UInt8) :=
  keys.find? fun key => (scanSlotsForKey crypto envelope key slotsHash).found

/-- Whether a key accepts a slot and sees no conflict. -/
def isClean (key : List UInt8) : Bool :=
  (scanSlotsForKey crypto envelope key slotsHash).found &&
    !(scanSlotsForKey crypto envelope key slotsHash).cekConflict

/-- The first accepting key sees a conflict, and another key accepts without one. -/
def ConflictFirst (keys : List (List UInt8)) : Prop :=
  (∃ key ∈ firstAccepting crypto envelope slotsHash keys,
    (scanSlotsForKey crypto envelope key slotsHash).cekConflict = true) ∧
  ∃ key ∈ keys, isClean crypto envelope slotsHash key = true

/-- The buffered loop stops at the first accepting key. -/
theorem scanKeys_eq (anyWrapOpened : Bool) (keys : List (List UInt8)) :
    scanKeys crypto envelope slotsHash anyWrapOpened keys =
      match firstAccepting crypto envelope slotsHash keys with
      | some key =>
          if (scanSlotsForKey crypto envelope key slotsHash).cekConflict then
            .notMatched .tamperedHeader
          else .accepted (scanSlotsForKey crypto envelope key slotsHash).selectedCek
      | none =>
          rejection (anyWrapOpened ||
            keys.any fun key => (scanSlotsForKey crypto envelope key slotsHash).anyWrapOpened) := by
  induction keys generalizing anyWrapOpened with
  | nil => simp [scanKeys, firstAccepting]
  | cons key keys ih =>
      rw [scanKeys]
      by_cases hconflict : (scanSlotsForKey crypto envelope key slotsHash).cekConflict = true
      · have hfound := found_of_cekConflict crypto envelope slotsHash hconflict
        simp [firstAccepting, hconflict, hfound]
      · by_cases hfound : (scanSlotsForKey crypto envelope key slotsHash).found = true
        · simp [firstAccepting, hconflict, hfound]
        · have hfirst : firstAccepting crypto envelope slotsHash (key :: keys) =
              firstAccepting crypto envelope slotsHash keys := by
            simp [firstAccepting, hfound]
          rw [if_neg hconflict, if_neg hfound, ih, hfirst, List.any_cons, Bool.or_assoc]

/-- The trial decryption stops at the first clean key. -/
theorem trialKeys_eq (keys : List (List UInt8)) :
    trialKeys crypto envelope slotsHash keys =
      match keys.find? (isClean crypto envelope slotsHash) with
      | some key =>
          .found (scanSlotsForKey crypto envelope key slotsHash).selectedIdx
            (scanSlotsForKey crypto envelope key slotsHash).selectedCek
      | none => .noMatch := by
  induction keys with
  | nil => rfl
  | cons key keys ih =>
      rw [trialKeys, List.find?_cons]
      by_cases hconflict : (scanSlotsForKey crypto envelope key slotsHash).cekConflict = true
      · simp [isClean, hconflict, ih]
      · by_cases hfound : (scanSlotsForKey crypto envelope key slotsHash).found = true
        · simp [isClean, hconflict, hfound]
        · simp [isClean, hconflict, hfound, ih]

/-- The first clean key is the first accepting one when that one is clean. -/
theorem find?_isClean {keys : List (List UInt8)} {key : List UInt8}
    (hfirst : firstAccepting crypto envelope slotsHash keys = some key)
    (hclean : (scanSlotsForKey crypto envelope key slotsHash).cekConflict = false) :
    keys.find? (isClean crypto envelope slotsHash) = some key := by
  obtain ⟨hfound, before, after, rfl, hbefore⟩ := List.find?_eq_some_iff_append.mp hfirst
  apply List.find?_eq_some_iff_append.mpr
  refine ⟨by simp [isClean, hfound, hclean], before, after, rfl, ?_⟩
  intro other hother
  have hnot := hbefore other hother
  simp only [Bool.not_eq_true'] at hnot
  simp [isClean, hnot]

/-- Without a clean key no accepting key is clean. -/
theorem accepted_iff_found {keys : List (List UInt8)}
    (h : ¬ ConflictFirst crypto envelope slotsHash keys) (anyWrapOpened : Bool)
    (cek : FixedBytes 32) :
    (∃ i, trialKeys crypto envelope slotsHash keys = .found i cek) ↔
      scanKeys crypto envelope slotsHash anyWrapOpened keys = .accepted cek := by
  rw [scanKeys_eq, trialKeys_eq]
  cases hfirst : firstAccepting crypto envelope slotsHash keys with
  | none =>
      have hnone : keys.find? (isClean crypto envelope slotsHash) = none := by
        apply List.find?_eq_none.mpr
        intro key hkey hclean
        simp only [isClean, Bool.and_eq_true] at hclean
        exact List.find?_eq_none.mp hfirst key hkey hclean.1
      simp [hnone, rejection]
  | some key =>
      by_cases hconflict : (scanSlotsForKey crypto envelope key slotsHash).cekConflict = true
      · have hnone : keys.find? (isClean crypto envelope slotsHash) = none := by
          apply List.find?_eq_none.mpr
          intro other hother hclean
          exact h ⟨⟨key, hfirst, hconflict⟩, other, hother, hclean⟩
        simp [hnone, hconflict]
      · simp only [Bool.not_eq_true] at hconflict
        rw [find?_isClean crypto envelope slotsHash hfirst hconflict]
        simp [hconflict]

/-- Where they part, the buffered loop reports the header and the trial decryption the first
clean key. -/
theorem outcomes_of_conflictFirst {keys : List (List UInt8)}
    (h : ConflictFirst crypto envelope slotsHash keys) (anyWrapOpened : Bool) :
    scanKeys crypto envelope slotsHash anyWrapOpened keys = .notMatched .tamperedHeader ∧
      ∃ key ∈ keys.find? (isClean crypto envelope slotsHash),
        trialKeys crypto envelope slotsHash keys =
          .found (scanSlotsForKey crypto envelope key slotsHash).selectedIdx
            (scanSlotsForKey crypto envelope key slotsHash).selectedCek := by
  obtain ⟨⟨key, hfirst, hconflict⟩, other, hother, hclean⟩ := h
  constructor
  · rw [scanKeys_eq, Option.mem_def.mp hfirst]
    simp [hconflict]
  · cases hfind : keys.find? (isClean crypto envelope slotsHash) with
    | none => exact absurd hclean (List.find?_eq_none.mp hfind other hother)
    | some clean => exact ⟨clean, rfl, by rw [trialKeys_eq, hfind]⟩

/-- The loop over the keys says nothing of the ciphertext. -/
theorem scanKeys_ne_tamperedCiphertext (anyWrapOpened : Bool) (keys : List (List UInt8)) :
    scanKeys crypto envelope slotsHash anyWrapOpened keys ≠ .notMatched .tamperedCiphertext := by
  rw [scanKeys_eq]
  cases firstAccepting crypto envelope slotsHash keys with
  | none =>
      simp only [rejection]
      split <;> simp
  | some key =>
      dsimp only
      split <;> simp

/-! ## The header -/

/-- The keys that a selection stands for. -/
def UnwrapKeys.list : UnwrapKeys → List (List UInt8)
  | .single key => [key]
  | .multi keys => keys
  | .bundle b => selectBundleSecrets envelope b

/-- The digest of the slots transcript, of an empty map of content hashes too. -/
def headerSlotsHash (hashes : ContentHashMap) : FixedBytes 32 :=
  envelopeSlotsHash crypto envelope (itemHashesDigest crypto hashes)

theorem itemHashesHash_cases (hashes : ContentHashMap) :
    (∃ e, itemHashesHash crypto hashes = .error e) ∨
      itemHashesHash crypto hashes = .ok (itemHashesDigest crypto hashes) := by
  cases hhash : itemHashesHash crypto hashes with
  | error e => exact .inl ⟨e, rfl⟩
  | ok hashesHash => exact .inr (by rw [(itemHashesHash_eq_ok.mp hhash).2])

/-- With a list of keys the checks are the same ones. -/
theorem multi_agree (hashes : ContentHashMap) (keys : List (List UInt8)) :
    (∃ e, unwrapHeaderMulti crypto envelope hashes keys = .error e ∧
      trialDecryptMulti crypto envelope hashes keys = .error e) ∨
    unwrapHeaderMulti crypto envelope hashes keys =
        .ok (scanKeys crypto envelope (headerSlotsHash crypto envelope hashes) false keys) ∧
      trialDecryptMulti crypto envelope hashes keys =
        .ok (trialKeys crypto envelope (headerSlotsHash crypto envelope hashes) keys) := by
  rw [unwrapHeaderMulti, trialDecryptMulti]
  cases assertEnvelopeStructure envelope keys with
  | error e => exact .inl ⟨e, rfl, rfl⟩
  | ok _ =>
      rcases itemHashesHash_cases crypto hashes with ⟨e, he⟩ | hok
      · exact .inl ⟨e, by rw [he]; rfl, by rw [he]; rfl⟩
      · exact .inr ⟨by rw [hok]; rfl, by rw [hok]; rfl⟩

/-- One key is refused under the same code as a list of it. -/
theorem single_key_cases (key : List UInt8) :
    (∃ e e', assertSingleKey key = .error e ∧ assertMultiKeys [key] = .error e' ∧
      e.code = e'.code) ∨
    assertSingleKey key = .ok () ∧ assertMultiKeys [key] = .ok () := by
  by_cases hlen : key.length = x25519SecretKeyLength
  · right
    simp [assertSingleKey, assertMultiKeys, firstOfOtherLength, hlen]
  · left
    simp [assertSingleKey, assertMultiKeys, firstOfOtherLength, hlen]

/-- One key is scanned as a list of it. -/
theorem single_agree (hashes : ContentHashMap) (key : List UInt8) :
    (∃ e e', unwrapHeader crypto envelope hashes (.single key) = .error e ∧
      trialDecryptMulti crypto envelope hashes [key] = .error e' ∧ e.code = e'.code) ∨
    unwrapHeader crypto envelope hashes (.single key) =
        .ok (scanKeys crypto envelope (headerSlotsHash crypto envelope hashes) false [key]) ∧
      trialDecryptMulti crypto envelope hashes [key] =
        .ok (trialKeys crypto envelope (headerSlotsHash crypto envelope hashes) [key]) := by
  rw [unwrapHeader, trialDecryptMulti, assertEnvelopeStructureSingle, assertEnvelopeStructure]
  cases assertEnvelope envelope with
  | error e => exact .inl ⟨e, e, rfl, rfl, rfl⟩
  | ok _ =>
      rcases single_key_cases key with ⟨e, e', he, he', hcode⟩ | ⟨hok, hok'⟩
      · exact .inl ⟨e, e', by rw [he]; rfl, by rw [he']; rfl, hcode⟩
      · rw [hok, hok']
        rcases itemHashesHash_cases crypto hashes with ⟨e, he⟩ | hhash
        · exact .inl ⟨e, e, by rw [he]; rfl, by rw [he]; rfl, rfl⟩
        · right
          rw [hhash]
          exact ⟨by simp [scanKeys, headerSlotsHash], rfl⟩

/-- Both headers are refused with the same code, or both are the loops over the same keys. -/
theorem headers_agree (hashes : ContentHashMap) (keys : UnwrapKeys) :
    (∃ e e', unwrapHeader crypto envelope hashes keys = .error e ∧
      eciesSealedPoeTrialDecrypt crypto envelope hashes keys.toTrial = .error e' ∧
      e.code = e'.code) ∨
    unwrapHeader crypto envelope hashes keys =
        .ok (scanKeys crypto envelope (headerSlotsHash crypto envelope hashes) false
          (keys.list envelope)) ∧
      eciesSealedPoeTrialDecrypt crypto envelope hashes keys.toTrial =
        .ok (trialKeys crypto envelope (headerSlotsHash crypto envelope hashes)
          (keys.list envelope)) := by
  cases keys with
  | single key => exact single_agree crypto envelope hashes key
  | multi keys =>
      rw [unwrapHeader, UnwrapKeys.toTrial, eciesSealedPoeTrialDecrypt, UnwrapKeys.list]
      by_cases hempty : keys.isEmpty = true
      · rw [if_pos hempty, if_pos hempty]
        exact .inl ⟨_, _, rfl, rfl, rfl⟩
      · rw [if_neg hempty, if_neg hempty]
        rcases multi_agree crypto envelope hashes keys with ⟨e, he, he'⟩ | hscan
        · exact .inl ⟨e, e, he, he', rfl⟩
        · exact .inr hscan
  | bundle b =>
      rw [unwrapHeader, UnwrapKeys.toTrial, eciesSealedPoeTrialDecrypt, UnwrapKeys.list]
      by_cases hempty : (selectBundleSecrets envelope b).isEmpty = true
      · rw [List.isEmpty_iff] at hempty
        right
        simp [hempty, scanKeys, trialKeys, rejection]
      · simp only [if_neg hempty]
        rcases multi_agree crypto envelope hashes _ with ⟨e, he, he'⟩ | hscan
        · exact .inl ⟨e, e, he, he', rfl⟩
        · exact .inr hscan

/-! ## The content -/

/-- An undisturbed run of the streaming unwrap, by what the trial decryption gives. -/
theorem run_of_trial {reader : Reader} {ciphertext : List UInt8}
    (hreader : Delivers reader ciphertext) (hashes : ContentHashMap) (keys : UnwrapKeys)
    (host : Host)
    (hquiet : ¬ host.Disturbed
      (eciesSealedPoeUnwrapStream crypto envelope reader hashes keys host).2) :
    match eciesSealedPoeTrialDecrypt crypto envelope hashes keys.toTrial with
    | .error e =>
        (eciesSealedPoeUnwrapStream crypto envelope reader hashes keys host).1 =
          .error (.error e)
    | .ok .noMatch =>
        (eciesSealedPoeUnwrapStream crypto envelope reader hashes keys host).1 =
          .ok (.notMatched .wrongRecipientKey)
    | .ok (.found _ cek) =>
        match streamOpen crypto.aead (slotsPayloadKey crypto cek.val envelope.nonce) ciphertext with
        | some plaintext =>
            (eciesSealedPoeUnwrapStream crypto envelope reader hashes keys host).1 =
                .ok .matched ∧
              (eciesSealedPoeUnwrapStream crypto envelope reader hashes keys host).2.written =
                host.written ++ plaintext
        | none =>
            (eciesSealedPoeUnwrapStream crypto envelope reader hashes keys host).1 =
              .ok (.notMatched .tamperedCiphertext) := by
  rw [eciesSealedPoeUnwrapStream] at hquiet ⊢
  cases htrial : eciesSealedPoeTrialDecrypt crypto envelope hashes keys.toTrial with
  | error e => rfl
  | ok trial =>
      cases trial with
      | noMatch => rfl
      | found slotIdx cek =>
          simp only [htrial] at hquiet ⊢
          have hdrive := drivers_refine crypto.aead
            (slotsPayloadKey crypto cek.val envelope.nonce) hreader
          cases hopen : streamOpen crypto.aead (slotsPayloadKey crypto cek.val envelope.nonce)
              ciphertext with
          | some plaintext =>
              rcases (hdrive.2.1 plaintext hopen host).2 with ⟨-, hrun⟩ | ⟨hdisturbed, -⟩
              · exact hrun
              · exact absurd hdisturbed hquiet
          | none =>
              rcases (hdrive.2.2 hopen host).2 with ⟨-, hrun, -⟩ | ⟨hdisturbed, -⟩
              · exact hrun
              · exact absurd hdisturbed hquiet

/-- **Streaming and buffered unwrap agree**, for every way in which the ciphertext is read.
Errors have the same code on the same inputs. Unless the first accepting key sees a conflict
and another key is clean, one matches where the other does, with the same plaintext, and one
reports a tampered ciphertext where the other does. In the case left the buffered unwrap
reports the header, and the trial decryption goes on to the first clean key. -/
theorem unwrapStream_agrees {reader : Reader} {ciphertext : List UInt8}
    (hreader : Delivers reader ciphertext) (hashes : ContentHashMap) (keys : UnwrapKeys)
    (host : Host)
    (hquiet : ¬ host.Disturbed
      (eciesSealedPoeUnwrapStream crypto envelope reader hashes keys host).2) :
    (∀ code, (∃ e, (eciesSealedPoeUnwrapStream crypto envelope reader hashes keys host).1 =
          .error (.error e) ∧ e.code = code) ↔
        ∃ e, eciesSealedPoeUnwrap crypto envelope ciphertext hashes keys = .error e ∧
          e.code = code) ∧
      (¬ ConflictFirst crypto envelope (headerSlotsHash crypto envelope hashes)
          (keys.list envelope) →
        (∀ plaintext,
          ((eciesSealedPoeUnwrapStream crypto envelope reader hashes keys host).1 = .ok .matched ∧
            (eciesSealedPoeUnwrapStream crypto envelope reader hashes keys host).2.written =
              host.written ++ plaintext) ↔
          eciesSealedPoeUnwrap crypto envelope ciphertext hashes keys =
            .ok (.matched plaintext)) ∧
        ((eciesSealedPoeUnwrapStream crypto envelope reader hashes keys host).1 =
            .ok (.notMatched .tamperedCiphertext) ↔
          eciesSealedPoeUnwrap crypto envelope ciphertext hashes keys =
            .ok (.notMatched .tamperedCiphertext)) ∧
        ∀ cek, (∃ i, eciesSealedPoeTrialDecrypt crypto envelope hashes keys.toTrial =
            .ok (.found i cek)) ↔
          unwrapHeader crypto envelope hashes keys = .ok (.accepted cek)) ∧
      (ConflictFirst crypto envelope (headerSlotsHash crypto envelope hashes)
          (keys.list envelope) →
        ∀ result, eciesSealedPoeUnwrap crypto envelope ciphertext hashes keys = .ok result →
          result = .notMatched .tamperedHeader ∧
          ∃ key ∈ (keys.list envelope).find?
              (isClean crypto envelope (headerSlotsHash crypto envelope hashes)),
            eciesSealedPoeTrialDecrypt crypto envelope hashes keys.toTrial =
              .ok (.found
                (scanSlotsForKey crypto envelope key
                  (headerSlotsHash crypto envelope hashes)).selectedIdx
                (scanSlotsForKey crypto envelope key
                  (headerSlotsHash crypto envelope hashes)).selectedCek)) := by
  have hrun := run_of_trial crypto envelope hreader hashes keys host hquiet
  rw [eciesSealedPoeUnwrap]
  rcases headers_agree crypto envelope hashes keys with ⟨e, e', he, he', hcode⟩ | ⟨hok, hok'⟩
  · rw [he'] at hrun
    simp [hrun, he, he', hcode, Except.map]
  · rw [hok'] at hrun
    rw [hok, hok']
    refine ⟨?_, ?_, ?_⟩
    · intro code
      constructor
      · intro herror
        obtain ⟨e, he, -⟩ := herror
        split at hrun
        · cases ‹Except.ok _ = Except.error _›
        · rw [hrun] at he
          cases he
        · split at hrun
          · rw [hrun.1] at he
            cases he
          · rw [hrun] at he
            cases he
      · intro herror
        obtain ⟨e, he, -⟩ := herror
        cases he
    · intro hclean
      have haccepted := accepted_iff_found crypto envelope _ hclean false
      have hcontent := scanKeys_ne_tamperedCiphertext crypto envelope
        (headerSlotsHash crypto envelope hashes) false (keys.list envelope)
      cases htrial : trialKeys crypto envelope (headerSlotsHash crypto envelope hashes)
          (keys.list envelope) with
      | noMatch =>
          rw [htrial] at hrun haccepted
          cases houtcome : scanKeys crypto envelope (headerSlotsHash crypto envelope hashes) false
              (keys.list envelope) with
          | accepted cek =>
              obtain ⟨i, hi⟩ := (haccepted cek).mpr houtcome
              cases hi
          | notMatched reason =>
              rw [houtcome] at hcontent
              have hreason : reason ≠ .tamperedCiphertext := fun h => hcontent (by rw [h])
              simp [hrun, Except.map, unwrapContent, hreason]
      | found slotIdx cek =>
          rw [htrial] at hrun haccepted
          rw [(haccepted cek).mp ⟨slotIdx, rfl⟩]
          cases hopen : streamOpen crypto.aead (slotsPayloadKey crypto cek.val envelope.nonce)
              ciphertext with
          | some p =>
              simp only [hopen] at hrun
              simp [hrun.1, hrun.2, Except.map, unwrapContent, hopen]
          | none =>
              simp only [hopen] at hrun
              simp [hrun, Except.map, unwrapContent, hopen]
    · intro hconflict result hresult
      obtain ⟨hbuffered, key, hkey, htrial⟩ :=
        outcomes_of_conflictFirst crypto envelope _ hconflict false
      rw [hbuffered] at hresult
      exact ⟨(Except.ok.inj hresult).symm, key, hkey, by rw [htrial]⟩

end Scan

/-! ## A slot set with a conflict -/

/-- Primitives under which every wrap opens with the key of fives, and one with any key. -/
def conflictCrypto : SealedPrimitives where
  sha256 _ := FixedBytes.zero 32
  sha3256 _ := FixedBytes.zero 32
  shake256 _ := FixedBytes.zero
  hmacSha256 _ _ := FixedBytes.zero 32
  hkdfExtract _ ikm := (toFixed 32 ikm).getD (FixedBytes.zero 32)
  hkdfExpand key _ length := ⟨(key.val ++ List.replicate length 0).take length, by simp⟩
  x25519 scalar _ := scalar
  mlKem :=
    { encapsulationKey := fun _ => FixedBytes.zero 1184
      validEncapsulationKey := fun _ => false
      encapsulate := fun _ _ => (FixedBytes.zero 1088, FixedBytes.zero 32)
      decapsulate := fun _ _ => FixedBytes.zero 32 }
  aead :=
    { encrypt := fun _ _ _ _ => []
      decrypt := fun kek _ _ ciphertext =>
        if ciphertext.length = tagSize then some []
        else if kek.val = List.replicate 32 5 ∨ ciphertext.headD 0 = 1 then
          some (ciphertext.take 32)
        else none }

/-- Two slots with different content keys. -/
def conflictEnvelope : SealedEnvelope where
  scheme := 1
  aead := aeadChacha20Poly1305Stream64k
  kem := kemX25519
  nonce := List.replicate 24 3
  slots := .x25519 [⟨List.replicate 32 1, List.replicate 48 1⟩,
    ⟨List.replicate 32 2, List.replicate 48 2⟩]
  slotsMac := List.replicate 32 0

/-- The first key opens both slots, the second one only the first slot. -/
def conflictKeys : UnwrapKeys := .multi [List.replicate 32 5, List.replicate 32 6]

/-- A host that never cancels and never fails. -/
def quietHost : Host := ⟨[], none, 0, fun _ => none, 0⟩

theorem not_disturbed_of_quiet {host after : Host} (hcancel : host.cancel = none)
    (hfault : ∀ i, host.fault i = none) : ¬ host.Disturbed after := by
  intro h
  rcases h with ⟨cancel, hc, -⟩ | ⟨i, -, -, hi⟩
  · rw [hcancel] at hc
    cases hc
  · exact hi (hfault i)

theorem conflictTrial :
    eciesSealedPoeTrialDecrypt conflictCrypto conflictEnvelope sampleHashes conflictKeys.toTrial =
      .ok (.found 0 ⟨List.replicate 32 1, List.length_replicate⟩) := by
  rfl

/-- The buffered unwrap reports the header where the streaming one matches. -/
theorem unwrapStream_disagrees :
    eciesSealedPoeUnwrap conflictCrypto conflictEnvelope (List.replicate 16 0) sampleHashes
        conflictKeys = .ok (.notMatched .tamperedHeader) ∧
      (eciesSealedPoeUnwrapStream conflictCrypto conflictEnvelope [.data (List.replicate 16 0)]
        sampleHashes conflictKeys quietHost).1 = .ok .matched := by
  constructor
  · rfl
  · have hdelivers : Delivers [.data (List.replicate 16 0)] (List.replicate 16 0) :=
      .data (by decide) .done
    have hrun := run_of_trial conflictCrypto conflictEnvelope hdelivers sampleHashes conflictKeys
      quietHost (not_disturbed_of_quiet rfl fun _ => rfl)
    rw [conflictTrial] at hrun
    exact hrun.1

/-- With the second key alone the two unwraps agree. -/
theorem unwrapStream_agrees_clean :
    ((eciesSealedPoeUnwrapStream conflictCrypto conflictEnvelope [.data (List.replicate 16 0)]
        sampleHashes (.single (List.replicate 32 6)) quietHost).1 = .ok .matched ∧
      (eciesSealedPoeUnwrapStream conflictCrypto conflictEnvelope [.data (List.replicate 16 0)]
        sampleHashes (.single (List.replicate 32 6)) quietHost).2.written = [] ++ []) ↔
    eciesSealedPoeUnwrap conflictCrypto conflictEnvelope (List.replicate 16 0) sampleHashes
      (.single (List.replicate 32 6)) = .ok (.matched []) := by
  have hdelivers : Delivers [.data (List.replicate 16 0)] (List.replicate 16 0) :=
    .data (by decide) .done
  refine ((unwrapStream_agrees conflictCrypto conflictEnvelope hdelivers sampleHashes
    (.single (List.replicate 32 6)) quietHost
    (not_disturbed_of_quiet rfl fun _ => rfl)).2.1 ?_).1 []
  intro h
  obtain ⟨key, hkey, hconflict⟩ := h.1
  cases hkey
  exact absurd hconflict (by decide)

end Label309
