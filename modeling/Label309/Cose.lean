import Label309.Bytes
import Label309.Cbor.Decode

/-!
# COSE_Sign1 and COSE_Key

The untagged signature envelope, its `Sig_structure`, and the verification of a
detached Ed25519 signature over a record body.
-/
namespace Label309

/-- The 25-byte separator at the head of every signed payload. -/
def cardanoPoeSigDomainPrefix : String := "cardano-poe-record-sig-v1"

/-- The primitives taken from outside: strict Ed25519 verification under a key and the
28-byte BLAKE2b digest. A key that is no curve point verifies nothing. -/
structure SignaturePrimitives where
  verifyStrict : FixedBytes 32 → List UInt8 → FixedBytes 64 → Bool
  blake2b224 : List UInt8 → FixedBytes 28

/-- Wrong lengths are a negative verdict, not an error. -/
def ed25519Verify (crypto : SignaturePrimitives) (publicKey message signature : List UInt8) :
    Bool :=
  match toFixed 32 publicKey, toFixed 64 signature with
  | some pk, some sig => crypto.verifyStrict pk message sig
  | _, _ => false

/-! ## Headers -/

/-- A header label. Integer labels span the whole CBOR range. -/
inductive CoseLabel
  | int (v : ℤ)
  | text (s : String)
  deriving DecidableEq

/-- An integer label back to its major type. -/
def cborIntFromI128 (v : ℤ) : CborValue :=
  if 0 ≤ v then .unsigned (UInt64.ofNat v.toNat) else .negative (UInt64.ofNat (-1 - v).toNat)

/-- A label as a key of a map. -/
def CoseLabel.toCbor : CoseLabel → CborValue
  | .int v => cborIntFromI128 v
  | .text s => .text s

/-- The label of a decoded map key; other key kinds appear in no header. -/
def CoseLabel.fromCbor : CborValue → Option CoseLabel
  | .unsigned n => some (.int n.toNat)
  | .negative m => some (.int (-1 - m.toNat))
  | .text s => some (.text s)
  | _ => none

/-- A header map in the order it was read. -/
structure CoseHeader where
  pairs : List (CoseLabel × CborValue)

namespace CoseHeader

def empty : CoseHeader := ⟨[]⟩

def isEmpty (header : CoseHeader) : Bool := header.pairs.isEmpty

/-- The value of the first entry with this label. -/
def get (header : CoseHeader) (label : CoseLabel) : Option CborValue :=
  (header.pairs.find? fun entry => entry.1 = label).map Prod.snd

def getInt (header : CoseHeader) (label : ℤ) : Option CborValue := header.get (.int label)

def getText (header : CoseHeader) (label : String) : Option CborValue := header.get (.text label)

def toCbor (header : CoseHeader) : CborValue :=
  .map (header.pairs.map fun entry => (entry.1.toCbor, entry.2))

/-- A header from a decoded map: nothing when it is no map or a key is no label. -/
def fromCborMap : CborValue → Option CoseHeader
  | .map pairs =>
      (pairs.mapM fun entry => (CoseLabel.fromCbor entry.1).map fun label => (label, entry.2)).map
        CoseHeader.mk
  | _ => none

end CoseHeader

/-- The values of a 64-bit signed word. -/
def toI64 (v : ℤ) : Option ℤ := if -2 ^ 63 ≤ v ∧ v < 2 ^ 63 then some v else none

/-- An integer value, when it fits a 64-bit signed word. -/
def cborIntValue : Option CborValue → Option ℤ
  | some (.unsigned n) => toI64 n.toNat
  | some (.negative m) => toI64 (-1 - m.toNat)
  | _ => none

/-- A byte string of exactly `n` bytes. -/
def cborFixedBytes (n : ℕ) : Option CborValue → Option (FixedBytes n)
  | some (.bytes b) => toFixed n b
  | _ => none

/-- The label of the algorithm. -/
def coseHeaderLabelAlg : ℤ := 1

/-- The label of the key identifier. -/
def coseHeaderLabelKid : ℤ := 4

/-- The only algorithm. -/
def coseAlgEddsa : ℤ := -8

/-- The signature algorithm. -/
def CoseHeader.alg (header : CoseHeader) : Option ℤ :=
  cborIntValue (header.getInt coseHeaderLabelAlg)

/-- The raw 32-byte public key; an identifier of another length is as good as none. -/
def CoseHeader.kid (header : CoseHeader) : Option (FixedBytes 32) :=
  cborFixedBytes 32 (header.getInt coseHeaderLabelKid)

/-! ## Sig_structure -/

/-- What a signature is made over. -/
def sigStructure (bodyProtectedBytes externalAad payload : List UInt8) : CborValue :=
  .array [.text "Signature1", .bytes bodyProtectedBytes, .bytes externalAad, .bytes payload]

/-- The structure has no map, so its encoding always exists. -/
def buildSigStructure (bodyProtectedBytes externalAad payload : List UInt8) : List UInt8 :=
  match encodeCanonicalCbor (sigStructure bodyProtectedBytes externalAad payload) with
  | .ok encoded => encoded
  | .error _ => []

/-- The domain prefix followed by the record body. -/
def label309ToSign (recordBodyCbor : List UInt8) : List UInt8 :=
  utf8Bytes cardanoPoeSigDomainPrefix ++ recordBodyCbor

/-- The record structure has no external data. -/
def buildLabel309SigStructure (bodyProtectedBytes recordBodyCbor : List UInt8) : List UInt8 :=
  buildSigStructure bodyProtectedBytes [] (label309ToSign recordBodyCbor)

/-! ## Decoding -/

/-- A structural decode failure and what was wrong. -/
structure CoseDecodeError where
  detail : String

/-- A decoded COSE_Sign1. The protected bytes are kept as they were on the wire. -/
structure CoseSign1Decoded where
  protectedHeader : CoseHeader
  protectedBytes : List UInt8
  unprotectedHeader : CoseHeader
  payload : Option (List UInt8)
  signature : FixedBytes 64

/-- The protected header: no bytes for the empty one, which has no other encoding. -/
def decodeProtected (protectedBytes : List UInt8) : Except CoseDecodeError CoseHeader :=
  if protectedBytes.isEmpty then .ok .empty
  else
    match decodeCanonicalCbor protectedBytes with
    | .error _ => .error ⟨"protected header decode failed"⟩
    | .ok decoded =>
        match CoseHeader.fromCborMap decoded with
        | none => .error ⟨"protected header must decode to map"⟩
        | some header =>
            if header.isEmpty then
              .error ⟨"empty protected header must encode as 0x40 (zero-length bstr), " ++
                "not as an empty map"⟩
            else .ok header

/-- A detached or an attached payload. -/
def decodePayload : CborValue → Except CoseDecodeError (Option (List UInt8))
  | .null => .ok none
  | .bytes b => .ok (some b)
  | _ => .error ⟨"payload must be bytes or null"⟩

/-- The 64 bytes of a signature. -/
def decodeSignature (value : CborValue) : Except CoseDecodeError (FixedBytes 64) :=
  match cborFixedBytes 64 (some value) with
  | some signature => .ok signature
  | none => .error ⟨"signature must be 64 bytes"⟩

/-- The parts of the four-element array, in its order but the protected header last. -/
def decodeSign1Parts (protectedValue unprotectedValue payloadValue signatureValue : CborValue) :
    Except CoseDecodeError CoseSign1Decoded :=
  match protectedValue with
  | .bytes protectedBytes =>
      match CoseHeader.fromCborMap unprotectedValue with
      | none => .error ⟨"unprotected header must be map"⟩
      | some unprotectedHeader => do
          let payload ← decodePayload payloadValue
          let signature ← decodeSignature signatureValue
          let protectedHeader ← decodeProtected protectedBytes
          .ok { protectedHeader, protectedBytes, unprotectedHeader, payload, signature }
  | _ => .error ⟨"protected_bytes must be bytes"⟩

/-- Decode an untagged COSE_Sign1. -/
def decodeCoseSign1 (bytes : List UInt8) : Except CoseDecodeError CoseSign1Decoded :=
  match decodeCanonicalCbor bytes with
  | .error _ => .error ⟨"cose decode failed"⟩
  | .ok (.array [first, second, third, fourth]) => decodeSign1Parts first second third fourth
  | .ok _ => .error ⟨"expected 4-element array"⟩

/-! ## Verification -/

/-- Why a signature is refused. -/
inductive CoseVerifyErrorCode
  | malformedSigCose
  | malformedSigCoseSign1
  | unsupportedSigAlg
  | kidUnresolved
  | signatureInvalid
  deriving DecidableEq

/-- The key that verified the signature with its algorithm, or the stable code. -/
inductive CoseVerifyResult
  | ok (signerKey : FixedBytes 32) (alg : ℤ)
  | err (code : CoseVerifyErrorCode)

/-- A `kid` and an expected key must agree; either one alone is the signer. -/
def resolveVerifyKey (kid expected : Option (FixedBytes 32)) : Option (FixedBytes 32) :=
  match kid, expected with
  | some kid, some expected => if kid = expected then some kid else none
  | kid, expected => kid.or expected

/-- A present `true`. -/
def isTrue : Option CborValue → Bool
  | some (.bool true) => true
  | _ => false

/-- The unprotected flag of the hashed-payload mode. -/
def hashedMode (unprotectedHeader : CoseHeader) : Bool :=
  isTrue (unprotectedHeader.getText "hashed")

/-- The bytes under the signature: the payload itself, or its digest in hashed mode. -/
def signedStructure (crypto : SignaturePrimitives) (hashed : Bool)
    (protectedBytes recordBodyCbor : List UInt8) : List UInt8 :=
  if hashed then
    buildSigStructure protectedBytes [] (crypto.blake2b224 (label309ToSign recordBodyCbor)).val
  else buildLabel309SigStructure protectedBytes recordBodyCbor

/-- Decode, detached payload, algorithm, key resolution, then the strict verification. -/
def coseSign1Label309Verify (crypto : SignaturePrimitives)
    (message detachedRecordBodyCbor : List UInt8) (expectedSignerKey : Option (List UInt8)) :
    CoseVerifyResult :=
  match decodeCoseSign1 message with
  | .error _ => .err .malformedSigCose
  | .ok decoded =>
      if decoded.payload.isSome then .err .malformedSigCoseSign1
      else if decoded.protectedHeader.alg ≠ some coseAlgEddsa then .err .unsupportedSigAlg
      else
        match resolveVerifyKey decoded.protectedHeader.kid
            (expectedSignerKey.bind (toFixed 32)) with
        | none => .err .kidUnresolved
        | some signerKey =>
            if ed25519Verify crypto signerKey.val
                (signedStructure crypto (hashedMode decoded.unprotectedHeader)
                  decoded.protectedBytes detachedRecordBodyCbor) decoded.signature.val then
              .ok signerKey coseAlgEddsa
            else .err .signatureInvalid

/-! ## COSE_Key -/

/-- The raw key of an OKP, Ed25519 COSE_Key. The algorithm is optional, but EdDSA. -/
def parseCoseKeyEd25519 (blob : List UInt8) : Option (FixedBytes 32) :=
  match decodeCanonicalCbor blob with
  | .error _ => none
  | .ok decoded =>
      match CoseHeader.fromCborMap decoded with
      | none => none
      | some header =>
          if cborIntValue (header.getInt 1) ≠ some 1 then none
          else if cborIntValue (header.getInt (-1)) ≠ some 6 then none
          else if (header.getInt 3).isSome ∧ cborIntValue (header.getInt 3) ≠ some (-8) then none
          else cborFixedBytes 32 (header.getInt (-2))

end Label309
