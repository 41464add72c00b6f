import Label309.SealedPoe.ParsedEnvelope
import Label309.SealedPoe.Unwrap
import Label309.Verifier.Content

/-!
# Sealed items

The ciphertext of a sealed item is walked like any content, and every blob is tried with the
credentials of the item's key path. What binds to the chain ends the walk; what depends on the
blob is held against the record only when the blob is attributable.
-/
namespace Label309

/-- The outcome of the credentials on one blob. -/
inductive AttemptOutcome
  | opened (plaintext : List UInt8)
  | headerFailure (code : ErrorCode)
  | blobFailure
  | inputFailure (code : ErrorCode) (message : String)
  deriving DecidableEq

/-- A rejection of the crypto layer under the codes of the wire registry. -/
def inputFailureFrom (e : EciesSealedPoeError) : AttemptOutcome :=
  let code :=
    match e.code with
    | .encPassphraseUnnormalizable => ErrorCode.encPassphraseUnnormalizable
    | .encPassphraseEmpty => .encPassphraseEmpty
    | _ => .kdfDerivationFailed
  .inputFailure code e.toText

def itemHashes (item : ItemEntry) : ContentHashMap := .ofEntries item.hashes

/-- The result for one item. -/
structure ItemDecryptionResult where
  contentCheck : ContentCheck
  decryption : DecryptionOutcome
  deriving DecidableEq

section Attempt
variable (crypto : VerifierPrimitives)

/-! ## Attempts -/

/-- The outcome of an unwrap. -/
def unwrapOutcome : Except EciesSealedPoeError UnwrapResult → AttemptOutcome
  | .error e => inputFailureFrom e
  | .ok (.matched plaintext) => .opened plaintext
  | .ok (.notMatched .wrongRecipientKey) => .headerFailure .wrongRecipientKey
  | .ok (.notMatched .tamperedHeader) => .headerFailure .tamperedHeader
  | .ok (.notMatched .tamperedCiphertext) => .blobFailure

/-- All the keys go into one unwrap. -/
def attemptSlotsPath (enc : EncScheme1) (item : ItemEntry) (ciphertext : List UInt8)
    (secretKeys : List (List UInt8)) : AttemptOutcome :=
  match sealedEnvelopeFromParsed (toParsedEnvelope enc) with
  | none => .headerFailure .tamperedHeader
  | some envelope =>
      unwrapOutcome
        (eciesSealedPoeUnwrap crypto.sealing envelope ciphertext (itemHashes item)
          (.multi secretKeys))

/-- A named parameter of the derivation. -/
def param (block : PassphraseBlock) (name : String) : Option UInt64 :=
  (block.params.find? fun entry => entry.1 = name).map Prod.snd

/-- The outcome of one passphrase. -/
def passphraseOutcome : Except EciesSealedPoeError PassphraseOpenResult → AttemptOutcome
  | .error e => inputFailureFrom e
  | .ok (.opened plaintext) => .opened plaintext
  | .ok .rejected => .blobFailure

/-- The passphrases in turn; when none opens, the failure of the first. -/
def attemptPassphrases (attempt : String → AttemptOutcome) :
    (firstFailure : Option AttemptOutcome) → List String → AttemptOutcome
  | firstFailure, [] =>
      firstFailure.getD
        (.inputFailure .kdfDerivationFailed "no passphrase credential was supplied")
  | firstFailure, passphrase :: passphrases =>
      match attempt passphrase with
      | .opened plaintext => .opened plaintext
      | failure => attemptPassphrases attempt (firstFailure.or (some failure)) passphrases

/-- One passphrase on one blob. -/
def attemptPassphrase (enc : EncScheme1) (block : PassphraseBlock) (item : ItemEntry)
    (m t p : UInt64) (blob : List UInt8) (passphrase : String) : AttemptOutcome :=
  passphraseOutcome
    (passphraseSealedPoeOpen crypto.kdf crypto.sealing
      { blob := blob, passphrase := passphrase, aead := enc.aead, alg := block.alg,
        salt := block.salt, m := m, t := t, p := p, nonce := enc.nonce,
        hashes := itemHashes item })

def attemptPassphrasePath (enc : EncScheme1) (block : PassphraseBlock) (item : ItemEntry)
    (blob : List UInt8) (passphrases : List String) : AttemptOutcome :=
  match param block "m", param block "t", param block "p" with
  | some m, some t, some p =>
      attemptPassphrases (attemptPassphrase crypto enc block item m t p blob) none passphrases
  | _, _, _ =>
      .inputFailure .kdfDerivationFailed
        "the on-wire Argon2id parameter set is missing m, t, or p"

/-! ## The item -/

/-- The key path of an envelope. -/
inductive KeyPath
  | slots (enc : EncScheme1)
  | passphrase (enc : EncScheme1) (block : PassphraseBlock)

/-- The slots come before the passphrase; an envelope with neither cannot be decrypted. -/
def ItemEntry.keyPath (item : ItemEntry) : Option KeyPath :=
  match item.enc with
  | some (.scheme1 enc) =>
      if enc.slots.isSome then some (.slots enc) else enc.passphrase.map (.passphrase enc)
  | _ => none

def recipientKeys (credentials : List Decryption) : List (List UInt8) :=
  credentials.filterMap fun
    | .recipient key => some key
    | .passphrase _ => none

def passphrases (credentials : List Decryption) : List String :=
  credentials.filterMap fun
    | .recipient _ => none
    | .passphrase passphrase => some passphrase

/-- The number of credentials of the path's shape. -/
def KeyPath.applicable (credentials : List Decryption) : KeyPath → ℕ
  | .slots _ => (recipientKeys credentials).length
  | .passphrase .. => (passphrases credentials).length

/-- The credentials of the path's shape on one blob. -/
def KeyPath.attempt (item : ItemEntry) (credentials : List Decryption) (blob : List UInt8) :
    KeyPath → AttemptOutcome
  | .slots enc => attemptSlotsPath crypto enc item blob (recipientKeys credentials)
  | .passphrase enc block =>
      attemptPassphrasePath crypto enc block item blob (passphrases credentials)

/-- A result without a plaintext. -/
def notDecrypted (check : ContentCheck) (code : ErrorCode) : ItemDecryptionResult :=
  ⟨check, ⟨false, none, some code⟩⟩

def encPath (itemIndex : ℕ) : List PathSegment := itemPath itemIndex ++ [.key "enc"]

def headerFailureMessage (code : ErrorCode) : String :=
  match code with
  | .wrongRecipientKey =>
      "no slot accepted any supplied recipient key — the key is not a recipient of this sealed PoE"
  | _ =>
      "a slot wrap-opened but no candidate content-encryption key reproduces slots_mac — the " ++
        "authenticated envelope header fails its integrity check"

/-- The decision on a blob after the credentials were tried. -/
def decryptDecision (item : ItemEntry) (itemIndex : ℕ) (blob : AcquiredBlob) :
    AttemptOutcome →
      Except VerifierPanic (SourceDecision ItemDecryptionResult × List VerifierIssue)
  | .opened plaintext =>
      if recomputeItemHashes crypto item.hashes plaintext then
        .ok (.accept ⟨.checked, ⟨true, some true, none⟩⟩, [])
      else
        .ok (.accept ⟨.mismatched, ⟨true, some false, some .uriIntegrityMismatch⟩⟩,
          [.new .uriIntegrityMismatch (itemPath itemIndex)
            ("decryption succeeded but the post-decryption plaintext-hash recheck failed; " ++
              "decrypted bytes are attributed by the AEAD itself, so the record is condemned")])
  | .headerFailure code =>
      .ok (.accept (notDecrypted .notChecked code),
        [.new code (encPath itemIndex) (headerFailureMessage code)])
  | .blobFailure =>
      (blob.attributable crypto).map fun attributable =>
        if attributable then
          (.accept (notDecrypted .mismatched .tamperedCiphertext),
            [.new .tamperedCiphertext (encPath itemIndex)
              ("the ciphertext blob failed the decryption layer and is attributable " ++
                "(out-of-band, or content-address-bound to its URI); the record is condemned")])
        else
          (.nextSource,
            [.new .uriProviderIntegrityMismatch (providerMismatchPath (itemPath itemIndex) blob)
              ("ciphertext bytes fetched from " ++ blobSource crypto blob "unknown source" ++
                " fail the decryption layer and could not be attributed to the URI's content " ++
                "address; the serving provider is indicted, not the record")])
  | .inputFailure code message =>
      .ok (.accept (notDecrypted .notChecked code), [.new code (encPath itemIndex) message])

/-- The decision on a sealed item. -/
def decryptConsumer (path : KeyPath) (item : ItemEntry) (itemIndex : ℕ)
    (credentials : List Decryption) : Consumer ItemDecryptionResult :=
  fun blob => decryptDecision crypto item itemIndex blob
    (path.attempt crypto item credentials blob.bytes)

/-- Why no credential applies. -/
def KeyPath.inapplicableMessage : KeyPath → String
  | .slots _ => "the keyring holds no recipient secret key for this slots-path item"
  | .passphrase .. => "the keyring holds no passphrase for this passphrase-path item"

/-- The end of a walk that no blob has settled. -/
def ciphertextExhausted (itemIndex : ℕ) (limitExceeded : Bool) :
    ItemDecryptionResult × VerifierIssue :=
  if limitExceeded then
    (notDecrypted .notChecked .contentFetchLimitExceeded,
      .new .contentFetchLimitExceeded (itemPath itemIndex)
        ("a ciphertext fetch for this item was aborted at the max-fetch-bytes ceiling; " ++
          "decryption could not proceed"))
  else
    (notDecrypted .notChecked .ciphertextUnavailable,
      .new .ciphertextUnavailable (itemPath itemIndex)
        ("no out-of-band ciphertext was supplied and no URI yielded an attributable blob; " ++
          "decryption could not proceed"))

/-- Decrypt an item with the keyring of the run. -/
def decryptItem {σ : Type} (item : ItemEntry) (itemIndex : ℕ) (credentials : List Decryption)
    (outOfBandCiphertext : Option (List UInt8)) (fetchContent : Bool)
    (policy : ContentFetchPolicy) (fetcher : GatewayFetcher σ) :
    Checking σ ItemDecryptionResult :=
  match item.keyPath with
  | none =>
      .ok (notDecrypted .notChecked .tamperedHeader,
        [.new .tamperedHeader (encPath itemIndex)
          "the envelope carries no decryptable key path"], fetcher)
  | some path =>
      if path.applicable credentials = 0 then
        .ok (notDecrypted .notChecked .wrongDecryptionInputShape,
          [.new .wrongDecryptionInputShape (encPath itemIndex) path.inapplicableMessage], fetcher)
      else
        (walkBlobSources crypto (itemPath itemIndex) policy
          (decryptConsumer crypto path item itemIndex credentials) outOfBandCiphertext
          (item.uris.getD []) fetchContent fetcher).map fun
          | (.done result, issues, fetcher) => (result, issues, fetcher)
          | (.exhausted limitExceeded, issues, fetcher) =>
              let (result, issue) := ciphertextExhausted itemIndex limitExceeded
              (result, issues ++ [issue], fetcher)

end Attempt

end Label309
