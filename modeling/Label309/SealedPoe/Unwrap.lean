import Label309.SealedPoe.StreamIo
import Label309.SealedPoe.Wrap

/-!
# Unwrapping

Every slot is tried under every key. A slot is accepted when its KEM is valid, its wrap opens
and the content key in it reproduces the MAC of the slots. All the lengths on the wire are
checked before any of that.
-/
namespace Label309

/-- The length of a secret key, and of the seed of a hybrid one. -/
def x25519SecretKeyLength : ℕ := 32

/-- The outcome of a buffered unwrap. -/
inductive UnwrapResult
  | matched (plaintext : List UInt8)
  | notMatched (reason : UnwrapFailureReason)
  deriving DecidableEq

/-- The secrets of a recipient for both KEMs, newest first. -/
structure RecipientKeyBundle where
  x25519PrivateKeys : List (List UInt8)
  mlkem768x25519SecretSeeds : List (List UInt8)

/-- The keys of an unwrap. -/
inductive UnwrapKeys
  | single (key : List UInt8)
  | multi (keys : List (List UInt8))
  | bundle (bundle : RecipientKeyBundle)

/-- The keys of a trial decryption. -/
inductive TrialDecryptKeys
  | multi (keys : List (List UInt8))
  | bundle (bundle : RecipientKeyBundle)

/-- The slot that a trial found, with its content key. -/
inductive TrialDecryptResult
  | found (slotIdx : ℕ) (cek : FixedBytes 32)
  | noMatch
  deriving DecidableEq

/-- The keys of a bundle that fit the KEM of the envelope. -/
def selectBundleSecrets (envelope : SealedEnvelope) (bundle : RecipientKeyBundle) :
    List (List UInt8) :=
  if envelope.kem = kemX25519 then bundle.x25519PrivateKeys else bundle.mlkem768x25519SecretSeeds

/-! ## Checks before any key is tried -/

/-- The KEM field of a slot: its name, its length and the code of another length. -/
structure KemField where
  name : String
  length : ℕ
  code : EciesSealedPoeErrorCode

def SealedSlots.kemField : SealedSlots → KemField
  | .x25519 _ => ⟨"epk", x25519SecretKeyLength, .kemEpkLengthMismatch⟩
  | .mlkem768X25519 _ => ⟨"kem_ct", mlkem768x25519EncLength, .kemCtLengthMismatch⟩

/-- The KEM field and the wrap of every slot. -/
def SealedSlots.fields : SealedSlots → List (List UInt8 × List UInt8)
  | .x25519 slots => slots.map fun s => (s.epk, s.wrap)
  | .mlkem768X25519 slots => slots.map fun s => (s.kemCt, s.wrap)

/-- The slots from the `i`th on, where `seen` holds the KEM fields before it. -/
def checkSlots (field : KemField) (seen : List (List UInt8)) :
    (i : ℕ) → List (List UInt8 × List UInt8) → Except EciesSealedPoeError Unit
  | _, [] => .ok ()
  | i, (kem, wrap) :: slots =>
      if kem.length ≠ field.length then
        .error ⟨field.code, s!"envelope.slots[{i}]." ++ field.name ++
          s!" MUST be exactly {field.length} bytes, got {kem.length}"⟩
      else if wrap.length ≠ wrapLength then
        .error ⟨.wrapLengthMismatch,
          s!"envelope.slots[{i}].wrap MUST be exactly {wrapLength} bytes, got {wrap.length}"⟩
      else if kem ∈ seen then
        .error ⟨.encSlotsDuplicateKemMaterial, s!"envelope.slots[{i}]." ++ field.name ++
          " duplicates an earlier slot; per-slot KEK uniqueness is violated"⟩
      else checkSlots field (kem :: seen) (i + 1) slots

@[simp] theorem checkSlots_nil (field : KemField) (seen : List (List UInt8)) (i : ℕ) :
    checkSlots field seen i [] = .ok () := rfl

theorem checkSlots_cons (field : KemField) (seen : List (List UInt8)) (i : ℕ) (kem wrap : List UInt8)
    (slots : List (List UInt8 × List UInt8)) : checkSlots field seen i ((kem, wrap) :: slots) =
      if kem.length ≠ field.length then
        .error ⟨field.code, s!"envelope.slots[{i}]." ++ field.name ++
          s!" MUST be exactly {field.length} bytes, got {kem.length}"⟩
      else if wrap.length ≠ wrapLength then
        .error ⟨.wrapLengthMismatch,
          s!"envelope.slots[{i}].wrap MUST be exactly {wrapLength} bytes, got {wrap.length}"⟩
      else if kem ∈ seen then
        .error ⟨.encSlotsDuplicateKemMaterial, s!"envelope.slots[{i}]." ++ field.name ++
          " duplicates an earlier slot; per-slot KEK uniqueness is violated"⟩
      else checkSlots field (kem :: seen) (i + 1) slots := rfl

/-- The bytes of all fixed-length fields. -/
def decodedEnvelopeBytes (slots : SealedSlots) : ℕ :=
  nonceLength + slotsMacLength + slots.length * (slots.kemField.length + wrapLength)

/-- The checks on the envelope alone. -/
def assertEnvelope (envelope : SealedEnvelope) : Except EciesSealedPoeError Unit :=
  let n := envelope.slots.length
  if envelope.scheme ≠ 1 then
    .error ⟨.unsupportedEnvelopeScheme,
      s!"envelope.scheme={envelope.scheme} unsupported (expected 1)"⟩
  else if envelope.aead ≠ aeadChacha20Poly1305Stream64k then
    .error ⟨.unsupportedAeadAlg, "envelope.aead=" ++ envelope.aead ++ " unsupported (expected '" ++
      aeadChacha20Poly1305Stream64k ++ "')"⟩
  else if envelope.kem ≠ kemX25519 ∧ envelope.kem ≠ kemMlkem768X25519 then
    .error ⟨.unsupportedKemAlg, "envelope.kem=" ++ envelope.kem ++ " unsupported (expected '" ++
      kemX25519 ++ "' or '" ++ kemMlkem768X25519 ++ "')"⟩
  else if n < 1 then .error ⟨.encSlotsEmpty, s!"envelope.slots.len()={n} must be >= 1"⟩
  else if maxSlots < n then
    .error ⟨.encSlotsTooMany, s!"envelope.slots.len()={n} exceeds MAX_SLOTS={maxSlots}"⟩
  else if envelope.nonce.length ≠ nonceLength then
    .error ⟨.nonceLengthMismatch,
      s!"envelope.nonce MUST be exactly {nonceLength} bytes, got {envelope.nonce.length}"⟩
  else if envelope.slotsMac.length ≠ slotsMacLength then
    .error ⟨.encSlotsMacInvalidLength,
      s!"envelope.slots_mac MUST be exactly {slotsMacLength} bytes, got {envelope.slotsMac.length}"⟩
  else do
    checkSlots envelope.slots.kemField [] 0 envelope.slots.fields
    if maxDecodedEnvelopeBytes < decodedEnvelopeBytes envelope.slots then
      .error ⟨.encEnvelopeTooLarge,
        s!"decoded envelope size {decodedEnvelopeBytes envelope.slots} exceeds MAX_DECODED_ENVELOPE_BYTES={maxDecodedEnvelopeBytes}"⟩
    else .ok ()

/-- The lengths of a list of keys. -/
def assertMultiKeys (keys : List (List UInt8)) : Except EciesSealedPoeError Unit :=
  match firstOfOtherLength x25519SecretKeyLength keys with
  | some i =>
      .error ⟨.invalidRecipientKey,
        s!"recipient_secret_keys[{i}] MUST be exactly {x25519SecretKeyLength} bytes, got {(keys.getD i []).length}"⟩
  | none => .ok ()

/-- A key has the right length. -/
def assertSingleKey (key : List UInt8) : Except EciesSealedPoeError Unit :=
  if key.length ≠ x25519SecretKeyLength then
    .error ⟨.invalidRecipientKey,
      s!"recipient_secret_key MUST be exactly {x25519SecretKeyLength} bytes, got {key.length}"⟩
  else .ok ()

/-- The checks on an envelope and a list of keys. -/
def assertEnvelopeStructure (envelope : SealedEnvelope) (keys : List (List UInt8)) :
    Except EciesSealedPoeError Unit := do
  assertEnvelope envelope
  assertMultiKeys keys

/-- The checks on an envelope and one key. -/
def assertEnvelopeStructureSingle (envelope : SealedEnvelope) (key : List UInt8) :
    Except EciesSealedPoeError Unit := do
  assertEnvelope envelope
  assertSingleKey key

section Unwrap
variable (crypto : SealedPrimitives)

/-! ## One slot -/

/-- The content key in a wrap, or the zero key and no validity. -/
def wrapOpenOrDummy (kek : FixedBytes 32) (ad wrap : List UInt8) : Bool × FixedBytes 32 :=
  match crypto.aead.decrypt kek zeroNonce12 ad wrap with
  | some plaintext =>
      match toFixed 32 plaintext with
      | some cek => (true, cek)
      | none => (false, FixedBytes.zero 32)
  | none => (false, FixedBytes.zero 32)

/-- The candidate of a classical slot. An exchange with a small-order point is not valid,
and its wrap is opened under a key of zeros. -/
def x25519SlotCandidate (secretKey pubR nonce : List UInt8) (slot : X25519Slot) :
    Bool × FixedBytes 32 :=
  match x25519EcdhUnvalidated crypto secretKey slot.epk with
  | .ok (shared, kemOk) =>
      let realKek := x25519Kek crypto shared nonce slot.epk pubR
      let dummyKek := x25519Kek crypto (FixedBytes.zero 32) nonce slot.epk pubR
      let (openOk, candidate) :=
        wrapOpenOrDummy crypto (if kemOk then realKek else dummyKek)
          (utf8Bytes cardanoPoeHkdfInfoKek) slot.wrap
      (kemOk && openOk, candidate)
  -- Both lengths were checked, so the code does not panic here.
  | .error _ => (false, FixedBytes.zero 32)

/-- The candidate of a hybrid slot. A decapsulation is always valid. -/
def mlkem768x25519SlotCandidate (secretSeed pubR nonce : List UInt8) (slot : Mlkem768X25519Slot) :
    Bool × FixedBytes 32 :=
  match mlkem768x25519Decapsulate crypto secretSeed slot.kemCt with
  | .ok ss =>
      wrapOpenOrDummy crypto (xwingKek crypto ss nonce slot.kemCt pubR)
        (utf8Bytes cardanoPoeHkdfInfoKekMlkem768X25519) slot.wrap
  -- Both lengths were checked, so the code does not panic here.
  | .error _ => (false, FixedBytes.zero 32)

/-- The candidates of all slots under one key. The length of the key was checked, so the code
does not panic on its public key. -/
def slotCandidates (envelope : SealedEnvelope) (key : List UInt8) : List (Bool × FixedBytes 32) :=
  match envelope.slots with
  | .x25519 slots =>
      match x25519PublicKey crypto key with
      | .ok pubR => slots.map (x25519SlotCandidate crypto key pubR.val envelope.nonce)
      | .error _ => []
  | .mlkem768X25519 slots =>
      match mlkem768x25519PublicKeyFromSeed crypto key with
      | .ok pubR => slots.map (mlkem768x25519SlotCandidate crypto key pubR.val envelope.nonce)
      | .error _ => []

/-! ## One key -/

/-- What one key found in the slots. -/
structure InnerScan where
  found : Bool
  cekConflict : Bool
  anyWrapOpened : Bool
  selectedCek : FixedBytes 32
  selectedIdx : ℕ

/-- Nothing is found yet. -/
def InnerScan.start : InnerScan := ⟨false, false, false, FixedBytes.zero 32, 0⟩

/-- Whether a content key reproduces the MAC of the slots. -/
def slotsMacBit (cek slotsHash : FixedBytes 32) (expected : List UInt8) : Bool :=
  (computeSlotsMac crypto cek.val slotsHash.val).val = expected

/-- Take in the candidate of the slot `i`. -/
def InnerScan.fold (scan : InnerScan) (i : ℕ) (openBit macOk : Bool) (candidate : FixedBytes 32) :
    InnerScan :=
  let ok := openBit && macOk
  let first := ok && !scan.found
  { found := scan.found || ok
    cekConflict := scan.cekConflict || (ok && scan.found && candidate ≠ scan.selectedCek)
    anyWrapOpened := scan.anyWrapOpened || openBit
    selectedCek := if first then candidate else scan.selectedCek
    selectedIdx := if first then i else scan.selectedIdx }

/-- Take in the candidates from the slot `i` on. -/
def scanCandidates (slotsHash : FixedBytes 32) (slotsMac : List UInt8) :
    InnerScan → (i : ℕ) → List (Bool × FixedBytes 32) → InnerScan
  | scan, _, [] => scan
  | scan, i, (openBit, candidate) :: rest =>
      scanCandidates slotsHash slotsMac
        (scan.fold i openBit (slotsMacBit crypto candidate slotsHash slotsMac) candidate) (i + 1) rest

/-- All slots under one key. -/
def scanSlotsForKey (envelope : SealedEnvelope) (key : List UInt8) (slotsHash : FixedBytes 32) :
    InnerScan :=
  scanCandidates crypto slotsHash envelope.slotsMac .start 0 (slotCandidates crypto envelope key)

/-! ## All keys -/

/-- A key was accepted, or none was. -/
inductive KeyLoopOutcome
  | accepted (cek : FixedBytes 32)
  | notMatched (reason : UnwrapFailureReason)
  deriving DecidableEq

/-- Why no key was accepted. -/
def rejection (anyWrapOpened : Bool) : KeyLoopOutcome :=
  .notMatched (if anyWrapOpened then .tamperedHeader else .wrongRecipientKey)

/-- The first key that accepts a slot; a conflict under any key before it is final. -/
def scanKeys (envelope : SealedEnvelope) (slotsHash : FixedBytes 32) :
    (anyWrapOpened : Bool) → List (List UInt8) → KeyLoopOutcome
  | anyWrapOpened, [] => rejection anyWrapOpened
  | anyWrapOpened, key :: keys =>
      let scan := scanSlotsForKey crypto envelope key slotsHash
      if scan.cekConflict then .notMatched .tamperedHeader
      else if scan.found then .accepted scan.selectedCek
      else scanKeys envelope slotsHash (anyWrapOpened || scan.anyWrapOpened) keys

/-- The digest of the transcript of an envelope. -/
def envelopeSlotsHash (envelope : SealedEnvelope) (hashesHash : FixedBytes 32) : FixedBytes 32 :=
  computeSlotsHash crypto envelope.aead envelope.kem envelope.nonce envelope.slots hashesHash

/-- The header of an unwrap with a list of keys. -/
def unwrapHeaderMulti (envelope : SealedEnvelope) (hashes : ContentHashMap)
    (keys : List (List UInt8)) : Except EciesSealedPoeError KeyLoopOutcome := do
  assertEnvelopeStructure envelope keys
  let hashesHash ← itemHashesHash crypto hashes
  .ok (scanKeys crypto envelope (envelopeSlotsHash crypto envelope hashesHash) false keys)

/-- An unwrap up to the content: an accepted content key, or a reason. -/
def unwrapHeader (envelope : SealedEnvelope) (hashes : ContentHashMap) :
    UnwrapKeys → Except EciesSealedPoeError KeyLoopOutcome
  | .single key => do
      assertEnvelopeStructureSingle envelope key
      let hashesHash ← itemHashesHash crypto hashes
      let scan :=
        scanSlotsForKey crypto envelope key (envelopeSlotsHash crypto envelope hashesHash)
      .ok (if scan.cekConflict then .notMatched .tamperedHeader
        else if scan.found then .accepted scan.selectedCek
        else rejection scan.anyWrapOpened)
  | .multi keys =>
      if keys.isEmpty then
        .error ⟨.invalidRecipientKey,
          "recipient_secret_keys MUST be a non-empty list, got length 0"⟩
      else unwrapHeaderMulti crypto envelope hashes keys
  | .bundle bundle =>
      let keys := selectBundleSecrets envelope bundle
      if keys.isEmpty then .ok (.notMatched .wrongRecipientKey)
      else unwrapHeaderMulti crypto envelope hashes keys

/-- The content under an accepted content key. -/
def unwrapContent (envelope : SealedEnvelope) (ciphertext : List UInt8) :
    KeyLoopOutcome → UnwrapResult
  | .notMatched reason => .notMatched reason
  | .accepted cek =>
      match streamOpen crypto.aead (slotsPayloadKey crypto cek.val envelope.nonce) ciphertext with
      | some plaintext => .matched plaintext
      | none => .notMatched .tamperedCiphertext

/-- Find the content key and open the ciphertext. -/
def eciesSealedPoeUnwrap (envelope : SealedEnvelope) (ciphertext : List UInt8)
    (hashes : ContentHashMap) (keys : UnwrapKeys) : Except EciesSealedPoeError UnwrapResult :=
  (unwrapHeader crypto envelope hashes keys).map (unwrapContent crypto envelope ciphertext)

/-! ## Trial decryption -/

/-- The first key that accepts a slot without a conflict. -/
def trialKeys (envelope : SealedEnvelope) (slotsHash : FixedBytes 32) :
    List (List UInt8) → TrialDecryptResult
  | [] => .noMatch
  | key :: keys =>
      let scan := scanSlotsForKey crypto envelope key slotsHash
      if scan.cekConflict then trialKeys envelope slotsHash keys
      else if scan.found then .found scan.selectedIdx scan.selectedCek
      else trialKeys envelope slotsHash keys

/-- Look for the slot of any of the keys. -/
def trialDecryptMulti (envelope : SealedEnvelope) (hashes : ContentHashMap)
    (keys : List (List UInt8)) : Except EciesSealedPoeError TrialDecryptResult := do
  assertEnvelopeStructure envelope keys
  let hashesHash ← itemHashesHash crypto hashes
  .ok (trialKeys crypto envelope (envelopeSlotsHash crypto envelope hashesHash) keys)

/-- The content key and the slot, without the content. -/
def eciesSealedPoeTrialDecrypt (envelope : SealedEnvelope) (hashes : ContentHashMap) :
    TrialDecryptKeys → Except EciesSealedPoeError TrialDecryptResult
  | .multi keys =>
      if keys.isEmpty then
        .error ⟨.invalidRecipientKey,
          "recipient_secret_keys MUST be a non-empty list, got length 0"⟩
      else trialDecryptMulti crypto envelope hashes keys
  | .bundle bundle =>
      let keys := selectBundleSecrets envelope bundle
      if keys.isEmpty then .ok .noMatch else trialDecryptMulti crypto envelope hashes keys

/-! ## Streaming -/

/-- A single key is a list of one. -/
def UnwrapKeys.toTrial : UnwrapKeys → TrialDecryptKeys
  | .single key => .multi [key]
  | .multi keys => .multi keys
  | .bundle b => .bundle b

/-- Trial decryption, then the stream under the content key that it found. -/
def eciesSealedPoeUnwrapStream (envelope : SealedEnvelope) (ciphertext : Reader)
    (hashes : ContentHashMap) (keys : UnwrapKeys) : Drive StreamUnwrapOutcome :=
  match eciesSealedPoeTrialDecrypt crypto envelope hashes keys.toTrial with
  | .error e => Drive.abort (.error e)
  | .ok .noMatch => Drive.pure (.notMatched .wrongRecipientKey)
  | .ok (.found _ cek) =>
      driveOpen crypto.aead (slotsPayloadKey crypto cek.val envelope.nonce) ciphertext

end Unwrap

end Label309
