import Label309.Cbor.Encode
import Label309.SealedPoe.Errors
import Label309.SealedPoe.Slots

/-!
# The transcripts

The canonical bytes that the producer and every verifier commit to, and the keys and salts
derived with them.
-/
namespace Label309

/-- The label of the slots transcript. -/
def cardanoPoeHashPrefixSlotsTranscript : String := "cardano-poe-slots-transcript-v1"

/-- The label of the passphrase transcript. -/
def cardanoPoeHashPrefixPassphraseTranscript : String := "cardano-poe-passphrase-transcript-v1"

/-- The label of the content hashes. -/
def cardanoPoeHashPrefixItemHashes : String := "cardano-poe-item-hashes-v1"

/-- The label of the salt of a classical slot. -/
def cardanoPoeHashPrefixX25519KekSalt : String := "cardano-poe-x25519-kek-salt-v1"

/-- The label of the salt of a hybrid slot. -/
def cardanoPoeHashPrefixXwingKekSalt : String := "cardano-poe-xwing-kek-salt-v1"

/-- The label of the payload key for recipients. -/
def cardanoPoeHkdfInfoPayload : String := "cardano-poe-payload-v1"

/-- The label of the payload key under a passphrase. -/
def cardanoPoeHkdfInfoPayloadPassphrase : String := "cardano-poe-payload-passphrase-v1"

/-- The label of the key of the commitment. -/
def cardanoPoeHkdfInfoPassphraseMac : String := "cardano-poe-passphrase-mac-v1"

/-- The normalization profile, which is never on the wire. -/
def cardanoPoePwNormProfile : String := "cardano-poe-pw-norm-v1"

/-- The most slots that a verifier takes. -/
def maxSlots : ℕ := 1024

/-- The most bytes that a verifier takes in the fields of an envelope. -/
def maxDecodedEnvelopeBytes : ℕ := 65536

/-- SHA-256 of the label and the parts. -/
def labelledSha256 (crypto : SealedPrimitives) (label : String) (parts : List (List UInt8)) :
    FixedBytes 32 :=
  crypto.sha256 (utf8Bytes label ++ parts.flatten)

/-- The canonical bytes of a map that is built with distinct text keys. The error, on which
the code panics, is not met. -/
def encodeDistinct (value : CborValue) : List UInt8 :=
  match encodeCanonicalCbor value with
  | .ok bytes => bytes
  | .error _ => []

/-! ## The content hashes of an item -/

/-- The content hashes as a map. -/
def itemHashesCbor (hashes : ContentHashMap) : CborValue :=
  .map (hashes.entries.map fun entry => (.text entry.1, .bytes entry.2))

/-- The digest of the whole map of content hashes. -/
def itemHashesHash (crypto : SealedPrimitives) (hashes : ContentHashMap) :
    Except EciesSealedPoeError (FixedBytes 32) :=
  if hashes.entries.isEmpty then
    .error ⟨.encRequiresContentHash, "hashes MUST carry at least one content-hash entry"⟩
  else .ok (labelledSha256 crypto cardanoPoeHashPrefixItemHashes [encodeDistinct (itemHashesCbor hashes)])

/-! ## The slots transcript -/

/-- The slots as they are on the wire. -/
def slotsCbor : SealedSlots → CborValue
  | .x25519 slots =>
      .array (slots.map fun s => .map [(.text "epk", .bytes s.epk), (.text "wrap", .bytes s.wrap)])
  | .mlkem768X25519 slots =>
      .array (slots.map fun s =>
        .map [(.text "kem_ct", .bytes s.kemCt), (.text "wrap", .bytes s.wrap)])

/-- What the slots MAC commits to. -/
def slotsTranscript (aead kem : String) (nonce : List UInt8) (slots : SealedSlots)
    (hashesHash : FixedBytes 32) : CborValue :=
  .map [(.text "scheme", .unsigned 1), (.text "path", .text "slots"), (.text "aead", .text aead),
    (.text "kem", .text kem), (.text "nonce", .bytes nonce), (.text "slots", slotsCbor slots),
    (.text "hashes_hash", .bytes hashesHash.val)]

def slotsTranscriptBytes (aead kem : String) (nonce : List UInt8) (slots : SealedSlots)
    (hashesHash : FixedBytes 32) : List UInt8 :=
  encodeDistinct (slotsTranscript aead kem nonce slots hashesHash)

/-- The digest of the slots transcript. -/
def computeSlotsHash (crypto : SealedPrimitives) (aead kem : String) (nonce : List UInt8)
    (slots : SealedSlots) (hashesHash : FixedBytes 32) : FixedBytes 32 :=
  labelledSha256 crypto cardanoPoeHashPrefixSlotsTranscript
    [slotsTranscriptBytes aead kem nonce slots hashesHash]

/-! ## The passphrase transcript -/

/-- What the commitment of a passphrase commits to. -/
def passphraseTranscript (aead : String) (nonce : List UInt8) (alg : String) (salt : List UInt8)
    (m t p : UInt64) (hashesHash : FixedBytes 32) : CborValue :=
  .map [(.text "scheme", .unsigned 1), (.text "path", .text "passphrase"),
    (.text "aead", .text aead), (.text "nonce", .bytes nonce),
    (.text "hashes_hash", .bytes hashesHash.val),
    (.text "passphrase", .map [(.text "alg", .text alg), (.text "salt", .bytes salt),
      (.text "params", .map [(.text "m", .unsigned m), (.text "t", .unsigned t),
        (.text "p", .unsigned p)]),
      (.text "normalization", .text cardanoPoePwNormProfile)])]

def passphraseTranscriptBytes (aead : String) (nonce : List UInt8) (alg : String)
    (salt : List UInt8) (m t p : UInt64) (hashesHash : FixedBytes 32) : List UInt8 :=
  encodeDistinct (passphraseTranscript aead nonce alg salt m t p hashesHash)

/-- The digest of the passphrase transcript. -/
def computePassphraseHash (crypto : SealedPrimitives) (aead : String) (nonce : List UInt8)
    (alg : String) (salt : List UInt8) (m t p : UInt64) (hashesHash : FixedBytes 32) :
    FixedBytes 32 :=
  labelledSha256 crypto cardanoPoeHashPrefixPassphraseTranscript
    [passphraseTranscriptBytes aead nonce alg salt m t p hashesHash]

/-! ## Keys and salts -/

/-- The key of the content for recipients. -/
def slotsPayloadKey (crypto : SealedPrimitives) (cek nonce : List UInt8) : FixedBytes 32 :=
  hkdfSha256 crypto cek nonce (utf8Bytes cardanoPoeHkdfInfoPayload)

/-- The key of the content under a passphrase. -/
def passphrasePayloadKey (crypto : SealedPrimitives) (cek nonce : List UInt8) : FixedBytes 32 :=
  hkdfSha256 crypto cek nonce (utf8Bytes cardanoPoeHkdfInfoPayloadPassphrase)

/-- The salt of the wrapping key of a classical slot. -/
def x25519KekSalt (crypto : SealedPrimitives) (nonce epk pubR : List UInt8) : FixedBytes 32 :=
  labelledSha256 crypto cardanoPoeHashPrefixX25519KekSalt [nonce, epk, pubR]

/-- The salt of the wrapping key of a hybrid slot. -/
def xwingKekSalt (crypto : SealedPrimitives) (nonce kemCt pubR : List UInt8) : FixedBytes 32 :=
  labelledSha256 crypto cardanoPoeHashPrefixXwingKekSalt [nonce, kemCt, pubR]

end Label309
