import Mathlib

/-!
# Sealed-PoE errors

Malformed input, unsupported algorithms, and the failures of the host. A failed decryption
is a result and never one of these.
-/
namespace Label309

/-- The closed set of sealed-PoE error codes. -/
inductive EciesSealedPoeErrorCode
  | encSlotsEmpty
  | encSlotsRequired
  | encSlotsMacRequired
  | encSlotsMacInvalidLength
  | kemEpkLengthMismatch
  | kemCtLengthMismatch
  | invalidCekLength
  | nonceLengthMismatch
  | invalidEphemeralSecretLength
  | ephemeralSecretsCountMismatch
  | unsupportedEnvelopeScheme
  | unsupportedAeadAlg
  | unsupportedKemAlg
  | invalidEnvelopeShape
  | invalidRecipientKey
  | wrapLengthMismatch
  | encSlotsDuplicateKemMaterial
  | encSlotsTooMany
  | encEnvelopeTooLarge
  | encRequiresContentHash
  | encPassphraseAlgUnsupported
  | encPassphraseSaltTooShort
  | encPassphraseSaltTooLong
  | encPassphraseArgon2ParamsTooLow
  | invalidPassphraseParams
  | encPassphraseEmpty
  | encPassphraseUnnormalizable
  | passphraseInputTooLong
  | kdfDerivationFailed
  | rngUnavailable
  | ioError
  | cancelled
  deriving DecidableEq, Repr

/-- The stable wire string of a code. -/
def EciesSealedPoeErrorCode.asStr : EciesSealedPoeErrorCode → String
  | .encSlotsEmpty => "ENC_SLOTS_EMPTY"
  | .encSlotsRequired => "ENC_SLOTS_REQUIRED"
  | .encSlotsMacRequired => "ENC_SLOTS_MAC_REQUIRED"
  | .encSlotsMacInvalidLength => "ENC_SLOTS_MAC_INVALID_LENGTH"
  | .kemEpkLengthMismatch => "KEM_EPK_LENGTH_MISMATCH"
  | .kemCtLengthMismatch => "KEM_CT_LENGTH_MISMATCH"
  | .invalidCekLength => "INVALID_CEK_LENGTH"
  | .nonceLengthMismatch => "NONCE_LENGTH_MISMATCH"
  | .invalidEphemeralSecretLength => "INVALID_EPHEMERAL_SECRET_LENGTH"
  | .ephemeralSecretsCountMismatch => "EPHEMERAL_SECRETS_COUNT_MISMATCH"
  | .unsupportedEnvelopeScheme => "UNSUPPORTED_ENVELOPE_SCHEME"
  | .unsupportedAeadAlg => "UNSUPPORTED_AEAD_ALG"
  | .unsupportedKemAlg => "UNSUPPORTED_KEM_ALG"
  | .invalidEnvelopeShape => "INVALID_ENVELOPE_SHAPE"
  | .invalidRecipientKey => "INVALID_RECIPIENT_KEY"
  | .wrapLengthMismatch => "WRAP_LENGTH_MISMATCH"
  | .encSlotsDuplicateKemMaterial => "ENC_SLOTS_DUPLICATE_KEM_MATERIAL"
  | .encSlotsTooMany => "ENC_SLOTS_TOO_MANY"
  | .encEnvelopeTooLarge => "ENC_ENVELOPE_TOO_LARGE"
  | .encRequiresContentHash => "ENC_REQUIRES_CONTENT_HASH"
  | .encPassphraseAlgUnsupported => "ENC_PASSPHRASE_ALG_UNSUPPORTED"
  | .encPassphraseSaltTooShort => "ENC_PASSPHRASE_SALT_TOO_SHORT"
  | .encPassphraseSaltTooLong => "ENC_PASSPHRASE_SALT_TOO_LONG"
  | .encPassphraseArgon2ParamsTooLow => "ENC_PASSPHRASE_ARGON2_PARAMS_TOO_LOW"
  | .invalidPassphraseParams => "INVALID_PASSPHRASE_PARAMS"
  | .encPassphraseEmpty => "ENC_PASSPHRASE_EMPTY"
  | .encPassphraseUnnormalizable => "ENC_PASSPHRASE_UNNORMALIZABLE"
  | .passphraseInputTooLong => "PASSPHRASE_INPUT_TOO_LONG"
  | .kdfDerivationFailed => "KDF_DERIVATION_FAILED"
  | .rngUnavailable => "RNG_UNAVAILABLE"
  | .ioError => "IO_ERROR"
  | .cancelled => "CANCELLED"

/-- An input or host failure with a description. -/
structure EciesSealedPoeError where
  code : EciesSealedPoeErrorCode
  message : String
  deriving DecidableEq, Repr

/-- The text of an error: its code, then the description. -/
def EciesSealedPoeError.toText (e : EciesSealedPoeError) : String :=
  e.code.asStr ++ ": " ++ e.message

end Label309
