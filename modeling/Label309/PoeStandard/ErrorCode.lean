import Mathlib

/-!
# The error-code registry

One code for every rejection the validator, the carriage layer and the verifier
can emit, declared in registry order.
-/
namespace Label309

/-- The closed registry of error codes, in registry order. -/
inductive ErrorCode
  | malformedCbor
  | schemaTypeMismatch
  | schemaMissingRequired
  | schemaUnknownField
  | schemaInvalidLiteral
  | schemaEmptyRecord
  | hashDigestLengthMismatch
  | unsupportedHashAlg
  | unsupportedMerkleCommitAlg
  | schemaMerkleLeafCountInvalid
  | invalidUri
  | chunkTooLarge
  | unauthenticatedCipherForbidden
  | unsupportedAeadAlg
  | nonceLengthMismatch
  | unsupportedEnvelopeScheme
  | encUnsupported
  | encSlotsEmpty
  | encSlotInvalidShape
  | unsupportedKemAlg
  | encKemRequired
  | kemEpkLengthMismatch
  | kemCtLengthMismatch
  | wrapLengthMismatch
  | encSlotsMacInvalidLength
  | encSlotsMacRequired
  | encSlotsRequired
  | encSlotsDuplicateKemMaterial
  | encSlotsTooMany
  | encEnvelopeTooLarge
  | encExclusivityViolation
  | encNoKeyPath
  | encRequiresContentHash
  | encPassphraseAlgUnsupported
  | encPassphraseSaltTooShort
  | encPassphraseSaltTooLong
  | encPassphraseArgon2ParamsTooLow
  | encPassphraseParamsExceedPolicy
  | malformedSigCoseSign1
  | signatureUnsupported
  | sigEntryInvalidShape
  | sigEntryKidCoseKeyConflict
  | sigPrivateKeyLeaked
  | supersedesTxInvalidLength
  | extensionUnsupportedCritical
  | critShapeInvalid
  | txNotFound
  | providerUnavailable
  | txIntegrityMismatch
  | metadataNotFound
  | insufficientConfirmations
  | signatureInvalid
  | signerKeyUnresolved
  | walletAddressMismatch
  | uriTargetForbidden
  | uriIntegrityMismatch
  | uriProviderIntegrityMismatch
  | uriFetchFailed
  | contentUnavailable
  | contentFetchLimitExceeded
  | ciphertextUnavailable
  | serviceIndependenceViolation
  | wrongDecryptionInputShape
  | wrongRecipientKey
  | tamperedHeader
  | tamperedCiphertext
  | kdfDerivationFailed
  | encPassphraseUnnormalizable
  | encPassphraseEmpty
  | schemaMerkleLeafCountMismatch
  | schemaMerkleLeavesFormatUnsupported
  | schemaMerkleLeavesMalformed
  | merkleRootMismatch
  | merkleLeavesUnavailable
  | merkleUnsupported
  | outOfProfileSkipped
  deriving DecidableEq, Repr

/-- How an issue of a code counts. -/
inductive Severity
  | error
  | warning
  | info
  deriving DecidableEq, Repr

namespace ErrorCode

/-- The stable spelling of a code. -/
def code : ErrorCode → String
  | .malformedCbor => "MALFORMED_CBOR"
  | .schemaTypeMismatch => "SCHEMA_TYPE_MISMATCH"
  | .schemaMissingRequired => "SCHEMA_MISSING_REQUIRED"
  | .schemaUnknownField => "SCHEMA_UNKNOWN_FIELD"
  | .schemaInvalidLiteral => "SCHEMA_INVALID_LITERAL"
  | .schemaEmptyRecord => "SCHEMA_EMPTY_RECORD"
  | .hashDigestLengthMismatch => "HASH_DIGEST_LENGTH_MISMATCH"
  | .unsupportedHashAlg => "UNSUPPORTED_HASH_ALG"
  | .unsupportedMerkleCommitAlg => "UNSUPPORTED_MERKLE_COMMIT_ALG"
  | .schemaMerkleLeafCountInvalid => "SCHEMA_MERKLE_LEAF_COUNT_INVALID"
  | .invalidUri => "INVALID_URI"
  | .chunkTooLarge => "CHUNK_TOO_LARGE"
  | .unauthenticatedCipherForbidden => "UNAUTHENTICATED_CIPHER_FORBIDDEN"
  | .unsupportedAeadAlg => "UNSUPPORTED_AEAD_ALG"
  | .nonceLengthMismatch => "NONCE_LENGTH_MISMATCH"
  | .unsupportedEnvelopeScheme => "UNSUPPORTED_ENVELOPE_SCHEME"
  | .encUnsupported => "ENC_UNSUPPORTED"
  | .encSlotsEmpty => "ENC_SLOTS_EMPTY"
  | .encSlotInvalidShape => "ENC_SLOT_INVALID_SHAPE"
  | .unsupportedKemAlg => "UNSUPPORTED_KEM_ALG"
  | .encKemRequired => "ENC_KEM_REQUIRED"
  | .kemEpkLengthMismatch => "KEM_EPK_LENGTH_MISMATCH"
  | .kemCtLengthMismatch => "KEM_CT_LENGTH_MISMATCH"
  | .wrapLengthMismatch => "WRAP_LENGTH_MISMATCH"
  | .encSlotsMacInvalidLength => "ENC_SLOTS_MAC_INVALID_LENGTH"
  | .encSlotsMacRequired => "ENC_SLOTS_MAC_REQUIRED"
  | .encSlotsRequired => "ENC_SLOTS_REQUIRED"
  | .encSlotsDuplicateKemMaterial => "ENC_SLOTS_DUPLICATE_KEM_MATERIAL"
  | .encSlotsTooMany => "ENC_SLOTS_TOO_MANY"
  | .encEnvelopeTooLarge => "ENC_ENVELOPE_TOO_LARGE"
  | .encExclusivityViolation => "ENC_EXCLUSIVITY_VIOLATION"
  | .encNoKeyPath => "ENC_NO_KEY_PATH"
  | .encRequiresContentHash => "ENC_REQUIRES_CONTENT_HASH"
  | .encPassphraseAlgUnsupported => "ENC_PASSPHRASE_ALG_UNSUPPORTED"
  | .encPassphraseSaltTooShort => "ENC_PASSPHRASE_SALT_TOO_SHORT"
  | .encPassphraseSaltTooLong => "ENC_PASSPHRASE_SALT_TOO_LONG"
  | .encPassphraseArgon2ParamsTooLow => "ENC_PASSPHRASE_ARGON2_PARAMS_TOO_LOW"
  | .encPassphraseParamsExceedPolicy => "ENC_PASSPHRASE_PARAMS_EXCEED_POLICY"
  | .malformedSigCoseSign1 => "MALFORMED_SIG_COSE_SIGN1"
  | .signatureUnsupported => "SIGNATURE_UNSUPPORTED"
  | .sigEntryInvalidShape => "SIG_ENTRY_INVALID_SHAPE"
  | .sigEntryKidCoseKeyConflict => "SIG_ENTRY_KID_COSE_KEY_CONFLICT"
  | .sigPrivateKeyLeaked => "SIG_PRIVATE_KEY_LEAKED"
  | .supersedesTxInvalidLength => "SUPERSEDES_TX_INVALID_LENGTH"
  | .extensionUnsupportedCritical => "EXTENSION_UNSUPPORTED_CRITICAL"
  | .critShapeInvalid => "CRIT_SHAPE_INVALID"
  | .txNotFound => "TX_NOT_FOUND"
  | .providerUnavailable => "PROVIDER_UNAVAILABLE"
  | .txIntegrityMismatch => "TX_INTEGRITY_MISMATCH"
  | .metadataNotFound => "METADATA_NOT_FOUND"
  | .insufficientConfirmations => "INSUFFICIENT_CONFIRMATIONS"
  | .signatureInvalid => "SIGNATURE_INVALID"
  | .signerKeyUnresolved => "SIGNER_KEY_UNRESOLVED"
  | .walletAddressMismatch => "WALLET_ADDRESS_MISMATCH"
  | .uriTargetForbidden => "URI_TARGET_FORBIDDEN"
  | .uriIntegrityMismatch => "URI_INTEGRITY_MISMATCH"
  | .uriProviderIntegrityMismatch => "URI_PROVIDER_INTEGRITY_MISMATCH"
  | .uriFetchFailed => "URI_FETCH_FAILED"
  | .contentUnavailable => "CONTENT_UNAVAILABLE"
  | .contentFetchLimitExceeded => "CONTENT_FETCH_LIMIT_EXCEEDED"
  | .ciphertextUnavailable => "CIPHERTEXT_UNAVAILABLE"
  | .serviceIndependenceViolation => "SERVICE_INDEPENDENCE_VIOLATION"
  | .wrongDecryptionInputShape => "WRONG_DECRYPTION_INPUT_SHAPE"
  | .wrongRecipientKey => "WRONG_RECIPIENT_KEY"
  | .tamperedHeader => "TAMPERED_HEADER"
  | .tamperedCiphertext => "TAMPERED_CIPHERTEXT"
  | .kdfDerivationFailed => "KDF_DERIVATION_FAILED"
  | .encPassphraseUnnormalizable => "ENC_PASSPHRASE_UNNORMALIZABLE"
  | .encPassphraseEmpty => "ENC_PASSPHRASE_EMPTY"
  | .schemaMerkleLeafCountMismatch => "SCHEMA_MERKLE_LEAF_COUNT_MISMATCH"
  | .schemaMerkleLeavesFormatUnsupported => "SCHEMA_MERKLE_LEAVES_FORMAT_UNSUPPORTED"
  | .schemaMerkleLeavesMalformed => "SCHEMA_MERKLE_LEAVES_MALFORMED"
  | .merkleRootMismatch => "MERKLE_ROOT_MISMATCH"
  | .merkleLeavesUnavailable => "MERKLE_LEAVES_UNAVAILABLE"
  | .merkleUnsupported => "MERKLE_UNSUPPORTED"
  | .outOfProfileSkipped => "OUT_OF_PROFILE_SKIPPED"

/-- The default severity of a code; a promoting context may raise it. -/
def severity : ErrorCode → Severity
  | .encUnsupported | .signatureUnsupported | .insufficientConfirmations
  | .merkleUnsupported | .outOfProfileSkipped => .info
  | .uriProviderIntegrityMismatch | .uriFetchFailed | .merkleLeavesUnavailable => .warning
  | _ => .error

/-- The position of a code in the registry. -/
def registryIndex (c : ErrorCode) : ℕ := c.ctorIdx

end ErrorCode

end Label309
