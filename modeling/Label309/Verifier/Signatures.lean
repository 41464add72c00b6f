import Label309.Cose
import Label309.PoeStandard.ErrorCode
import Label309.PoeStandard.Record

/-!
# Record-level signature verification

One check per `sigs` entry against the record body and the network of the carrying
transaction. The signer key is the protected `kid` of an entry without `cose_key`,
and the `cose_key` of any other, which the protected stake address must bind.
-/
namespace Label309

/-- The network of the configured explorer chain. -/
inductive CardanoNetwork
  | mainnet
  | preprod
  deriving DecidableEq

/-- How the signer key was resolved. -/
inductive SignerType
  | inSignatureKid
  | walletInlineKey
  deriving DecidableEq

/-- Why an entry failed. -/
inductive SigFailureReason
  | malformedSigCoseSign1
  | signatureUnsupported
  | signerKeyUnresolved
  | signatureInvalid
  | walletAddressMismatch
  deriving DecidableEq

def SigFailureReason.errorCode : SigFailureReason → ErrorCode
  | .malformedSigCoseSign1 => .malformedSigCoseSign1
  | .signatureUnsupported => .signatureUnsupported
  | .signerKeyUnresolved => .signerKeyUnresolved
  | .signatureInvalid => .signatureInvalid
  | .walletAddressMismatch => .walletAddressMismatch

/-- The outcome of one entry. The signer key is lowercase hex. -/
structure SignatureCheck where
  index : ℕ
  valid : Bool
  signerPub : Option String
  signerType : Option SignerType
  reason : Option SigFailureReason
  deriving DecidableEq

/-- The CIP-19 stake-address header of the network. -/
def stakeNetworkHeader : CardanoNetwork → UInt8
  | .mainnet => 0xe1
  | .preprod => 0xe0

/-- The address in a header entry; a value that is not bytes is passed over. -/
def entryAddress : CborValue × CborValue → Option (List UInt8)
  | (.text s, .bytes b) => if s = "address" then some b else none
  | _ => none

/-- The protected `address` byte string. -/
def protectedHeaderAddress (cose : CoseSign1Decoded) : Option (List UInt8) :=
  match cose.protectedHeader.toCbor with
  | .map pairs => pairs.findSome? entryAddress
  | _ => none

/-- The address must be the network header followed by the hash of the key. -/
def walletAddressBindsPubkey (crypto : SignaturePrimitives) (cose : CoseSign1Decoded)
    (pubKey : FixedBytes 32) (network : CardanoNetwork) : Bool :=
  match protectedHeaderAddress cose with
  | none => false
  | some address =>
      if address.length ≠ 29 then false
      else stakeNetworkHeader network :: (crypto.blake2b224 pubKey.val).val == address

/-- Unprotected identifiers are never consulted. -/
def resolveSignerKey (cose : CoseSign1Decoded) (entry : SigEntry) :
    Option (FixedBytes 32 × SignerType) :=
  match entry.coseKey with
  | none => cose.protectedHeader.kid.map fun kid => (kid, .inSignatureKid)
  | some blob => (parseCoseKeyEd25519 blob).map fun pubKey => (pubKey, .walletInlineKey)

def mapVerifyError : CoseVerifyErrorCode → SigFailureReason
  | .malformedSigCose | .malformedSigCoseSign1 => .malformedSigCoseSign1
  | .unsupportedSigAlg => .signatureUnsupported
  | .kidUnresolved => .signerKeyUnresolved
  | .signatureInvalid => .signatureInvalid

/-- The check once the key is resolved: the signature, then the address of a wallet key. -/
def verifyResolved (crypto : SignaturePrimitives) (index : ℕ) (entry : SigEntry)
    (cose : CoseSign1Decoded) (pubKey : FixedBytes 32) (signerType : SignerType)
    (recordBody : List UInt8) (network : CardanoNetwork) : SignatureCheck :=
  let resolved : SignatureCheck :=
    { index, valid := false, signerPub := some (hexEncode pubKey.val),
      signerType := some signerType, reason := none }
  match coseSign1Label309Verify crypto entry.coseSign1 recordBody (some pubKey.val) with
  | .err code => { resolved with reason := some (mapVerifyError code) }
  | .ok _ _ =>
      if signerType = .walletInlineKey ∧
          walletAddressBindsPubkey crypto cose pubKey network = false then
        { resolved with reason := some .walletAddressMismatch }
      else { resolved with valid := true }

/-- The check of one entry. -/
def verifyOne (crypto : SignaturePrimitives) (index : ℕ) (entry : SigEntry)
    (recordBody : List UInt8) (network : CardanoNetwork) : SignatureCheck :=
  let unresolved (reason : SigFailureReason) : SignatureCheck :=
    { index, valid := false, signerPub := none, signerType := none, reason := some reason }
  match decodeCoseSign1 entry.coseSign1 with
  | .error _ => unresolved .malformedSigCoseSign1
  | .ok cose =>
      match resolveSignerKey cose entry with
      | none => unresolved .signerKeyUnresolved
      | some (pubKey, signerType) =>
          verifyResolved crypto index entry cose pubKey signerType recordBody network

/-- The signed body: the record without `sigs`, empty if it does not encode. -/
def signedRecordBody (record : PoeRecord) : List UInt8 :=
  match encodeRecordBodyForSigning record with
  | .ok body => body
  | .error _ => []

/-- The checks of every entry in order. -/
def verifyRecordSignatures (crypto : SignaturePrimitives) (record : PoeRecord)
    (network : CardanoNetwork) : List SignatureCheck :=
  (record.sigs.getD []).mapIdx fun i entry =>
    verifyOne crypto i entry (signedRecordBody record) network

end Label309
