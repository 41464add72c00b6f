import Label309.SealedPoe.Stream
import Label309.SealedPoe.Transcript

/-!
# Sealing under a passphrase

The content key comes from Argon2id over the normalized passphrase. The ciphertext begins
with a commitment to the key and the header, and the stream follows it.
-/
namespace Label309

/-- The one registered password hash. -/
def passphraseKdfArgon2id : String := "argon2id"

/-- The length of the commitment before the stream. -/
def passphraseCommitmentLength : ℕ := 32

def minPassphraseSaltLength : ℕ := 16

def maxPassphraseSaltLength : ℕ := 64

/-- The largest cost parameter on the wire. -/
def argon2ParamMax : ℕ := 2 ^ 32 - 1

/-- The least memory, in KiB. -/
def argon2MMin : ℕ := 65536

/-- The fewest passes. -/
def argon2TMin : ℕ := 3

/-- The fewest lanes. -/
def argon2PMin : ℕ := 1

/-- The length of the nonce of an envelope. -/
def envelopeNonceLength : ℕ := 24

/-- The commitment and the tag of an empty final chunk. -/
def minPassphraseBlobLength : ℕ := passphraseCommitmentLength + tagSize

/-- The most bytes of a passphrase before it is normalized. -/
def maxPassphraseInputBytes : ℕ := 4096

/-- Unicode normalization and the password hash, each with its own refusal. -/
structure PassphrasePrimitives where
  nfkc16 : String → Except String String
  argon2Params : (m t p : ℕ) → Except String Unit
  argon2id : (password salt : List UInt8) → (m t p : ℕ) → Except String (FixedBytes 32)

/-! ## Normalization -/

/-- The code points with the `White_Space` property. -/
def unicodeWhiteSpace : List ℕ :=
  [0x09, 0x0a, 0x0b, 0x0c, 0x0d, 0x20, 0x85, 0xa0, 0x1680, 0x2000, 0x2001, 0x2002, 0x2003, 0x2004,
    0x2005, 0x2006, 0x2007, 0x2008, 0x2009, 0x200a, 0x2028, 0x2029, 0x202f, 0x205f, 0x3000]

def isWhiteSpace16 (c : Char) : Bool := c.toNat ∈ unicodeWhiteSpace

/-- One space for every maximal run of white space. -/
def collapseRuns : (inRun : Bool) → List Char → List Char
  | _, [] => []
  | inRun, c :: cs =>
      if isWhiteSpace16 c then
        if inRun then collapseRuns true cs else ' ' :: collapseRuns true cs
      else c :: collapseRuns false cs

/-- Without one leading space. -/
def stripLeadingSpace : List Char → List Char
  | ' ' :: cs => cs
  | cs => cs

/-- Without one leading and one trailing space. -/
def trimSpaces (cs : List Char) : List Char :=
  (stripLeadingSpace (stripLeadingSpace cs).reverse).reverse

section Path
variable (kdf : PassphrasePrimitives)

/-- The passphrase in its one spelling. -/
def normalizePassphrase (passphrase : String) : Except EciesSealedPoeError String :=
  if maxPassphraseInputBytes < (utf8Bytes passphrase).length then
    .error ⟨.passphraseInputTooLong,
      s!"raw passphrase is {(utf8Bytes passphrase).length} UTF-8 bytes; the maximum before normalization is {maxPassphraseInputBytes}"⟩
  else
    match kdf.nfkc16 passphrase with
    | .error cause => .error ⟨.encPassphraseUnnormalizable, cause⟩
    | .ok normalized =>
        let trimmed := trimSpaces (collapseRuns false normalized.toList)
        if trimmed.isEmpty then
          .error ⟨.encPassphraseEmpty, "passphrase normalizes to the empty string"⟩
        else .ok (String.ofList trimmed)

/-! ## Key derivation -/

/-- The first cost parameter outside the range on the wire. -/
def paramOutOfRange : List (String × UInt64) → Option (String × UInt64)
  | [] => none
  | (name, value) :: rest =>
      if argon2ParamMax < value.toNat then some (name, value) else paramOutOfRange rest

/-- The checks on what the envelope says of the derivation. -/
def assertKdfInputs (salt nonce : List UInt8) (m t p : UInt64) : Except EciesSealedPoeError Unit :=
  if salt.length < minPassphraseSaltLength then
    .error ⟨.encPassphraseSaltTooShort,
      s!"passphrase salt MUST be at least {minPassphraseSaltLength} bytes, got {salt.length}"⟩
  else if maxPassphraseSaltLength < salt.length then
    .error ⟨.encPassphraseSaltTooLong,
      s!"passphrase salt MUST be at most {maxPassphraseSaltLength} bytes, got {salt.length}"⟩
  else if nonce.length ≠ envelopeNonceLength then
    .error ⟨.nonceLengthMismatch,
      s!"envelope nonce MUST be exactly {envelopeNonceLength} bytes, got {nonce.length}"⟩
  else
    match paramOutOfRange [("m", m), ("t", t), ("p", p)] with
    | some (name, value) =>
        .error ⟨.invalidPassphraseParams,
          "params." ++ name ++ s!"={value} outside the wire range 0..{argon2ParamMax}"⟩
    | none =>
        if m.toNat < argon2MMin ∨ t.toNat < argon2TMin ∨ p.toNat < argon2PMin then
          .error ⟨.encPassphraseArgon2ParamsTooLow,
            s!"params MUST satisfy m >= {argon2MMin}, t >= {argon2TMin}, p >= {argon2PMin}; got m={m}, t={t}, p={p}"⟩
        else .ok ()

/-- A cost parameter as a 32-bit word. -/
def argon2Param (name : String) (value : UInt64) : Except EciesSealedPoeError ℕ :=
  if argon2ParamMax < value.toNat then
    .error ⟨.kdfDerivationFailed, "argon2id " ++ name ++ s!"={value} out of range"⟩
  else .ok value.toNat

/-- The content key of a passphrase. -/
def argon2Cek (normalized : String) (salt : List UInt8) (m t p : UInt64) :
    Except EciesSealedPoeError (FixedBytes 32) := do
  let m ← argon2Param "m" m
  let t ← argon2Param "t" t
  let p ← argon2Param "p" p
  match kdf.argon2Params m t p with
  | .error e => .error ⟨.kdfDerivationFailed, "argon2id params: " ++ e⟩
  | .ok () =>
      match kdf.argon2id (utf8Bytes normalized) salt m t p with
      | .error e => .error ⟨.kdfDerivationFailed, "argon2id derivation: " ++ e⟩
      | .ok cek => .ok cek

variable (crypto : SealedPrimitives)

/-- HMAC-SHA256 of the passphrase hash under a key derived from the content key. -/
def passphraseCommitment (cek : List UInt8) (pwHash : FixedBytes 32) : FixedBytes 32 :=
  crypto.hmacSha256 (hkdfSha256 crypto cek [] (utf8Bytes cardanoPoeHkdfInfoPassphraseMac)).val
    pwHash.val

/-! ## Sealing and opening -/

/-- The arguments of a seal. -/
structure PassphraseSealArgs where
  plaintext : List UInt8
  passphrase : String
  salt : List UInt8
  m : UInt64
  t : UInt64
  p : UInt64
  nonce : List UInt8
  hashes : ContentHashMap

/-- The commitment, then the stream. The sealer's assertions are not met by a plaintext in
memory. -/
def passphraseSealedPoeSeal (args : PassphraseSealArgs) :
    Except EciesSealedPoeError (Except SealPanic (List UInt8)) := do
  assertKdfInputs args.salt args.nonce args.m args.t args.p
  let normalized ← normalizePassphrase kdf args.passphrase
  let cek ← argon2Cek kdf normalized args.salt args.m args.t args.p
  let hashesHash ← itemHashesHash crypto args.hashes
  let pwHash :=
    computePassphraseHash crypto aeadChacha20Poly1305Stream64k args.nonce passphraseKdfArgon2id
      args.salt args.m args.t args.p hashesHash
  .ok ((streamSeal crypto.aead (passphrasePayloadKey crypto cek.val args.nonce)
    args.plaintext).map ((passphraseCommitment crypto cek.val pwHash).val ++ ·))

/-- A blob with what its envelope says. -/
structure PassphraseOpenArgs where
  blob : List UInt8
  passphrase : String
  aead : String
  alg : String
  salt : List UInt8
  m : UInt64
  t : UInt64
  p : UInt64
  nonce : List UInt8
  hashes : ContentHashMap

/-- A blob is opened, or rejected without a reason. -/
inductive PassphraseOpenResult
  | opened (plaintext : List UInt8)
  | rejected
  deriving DecidableEq

/-- What a blob holds for a content key. Every failure is the one rejection. -/
def openPassphraseBlob (args : PassphraseOpenArgs) (cek hashesHash : FixedBytes 32) :
    PassphraseOpenResult :=
  let pwHash :=
    computePassphraseHash crypto args.aead args.nonce args.alg args.salt args.m args.t args.p
      hashesHash
  if (passphraseCommitment crypto cek.val pwHash).val = args.blob.take passphraseCommitmentLength then
    match streamOpen crypto.aead (passphrasePayloadKey crypto cek.val args.nonce)
        (args.blob.drop passphraseCommitmentLength) with
    | some plaintext => .opened plaintext
    | none => .rejected
  else .rejected

/-- Open a blob. The inputs of the caller are checked before the blob is. -/
def passphraseSealedPoeOpen (args : PassphraseOpenArgs) :
    Except EciesSealedPoeError PassphraseOpenResult := do
  let hashesHash ← itemHashesHash crypto args.hashes
  let normalized ← normalizePassphrase kdf args.passphrase
  if args.aead ≠ aeadChacha20Poly1305Stream64k then
    .error ⟨.unsupportedAeadAlg,
      "enc.aead=" ++ args.aead ++ " unsupported (expected '" ++ aeadChacha20Poly1305Stream64k ++ "')"⟩
  else if args.alg ≠ passphraseKdfArgon2id then
    .error ⟨.encPassphraseAlgUnsupported,
      "enc.passphrase.alg=" ++ args.alg ++ " unsupported (expected '" ++ passphraseKdfArgon2id ++ "')"⟩
  else do
    assertKdfInputs args.salt args.nonce args.m args.t args.p
    -- A blob without room for a commitment and a tag costs no key derivation.
    if args.blob.length < minPassphraseBlobLength then .ok .rejected
    else do
      let cek ← argon2Cek kdf normalized args.salt args.m args.t args.p
      .ok (openPassphraseBlob crypto args cek hashesHash)

end Path

example : trimSpaces (collapseRuns false "  alpha \t\u00a0 beta  ".toList) = "alpha beta".toList := by
  decide

end Label309
