import Label309.Cbor.Decode
import Label309.PoeStandard.Registry
import Label309.PoeStandard.Schema

/-!
# Record-level signature entries

The structural COSE_Sign1 decode and the COSE_Key inspection. No signature is
verified here.
-/
namespace Label309

/-- The message an error displays. -/
def CanonicalCborError.display : CanonicalCborError → String
  | .indefiniteLength message =>
      "MALFORMED_CBOR: indefinite-length items are not permitted in canonical CBOR: " ++ message
  | .malformed message => "MALFORMED_CBOR: " ++ message

/-- A CBOR integer that fits a 64-bit signed word. -/
def intValue : CborValue → Option ℤ
  | .unsigned n => if n.toNat < 2 ^ 63 then some n.toNat else none
  | .negative m => if m.toNat < 2 ^ 63 then some (-1 - m.toNat) else none
  | _ => none

/-- The value of the first entry with this integer label. -/
def intKeyedGet (pairs : List (CborValue × CborValue)) (label : ℤ) : Option CborValue :=
  pairs.findSome? fun entry => if intValue entry.1 = some label then some entry.2 else none

/-! ## COSE_Key -/

def isUnsigned (n : UInt64) : CborValue → Bool
  | .unsigned m => m == n
  | _ => false

def isNull : CborValue → Bool
  | .null => true
  | _ => false

def isBytesOfLength (n : ℕ) : CborValue → Bool
  | .bytes b => b.length == n
  | _ => false

/-- A label of a decoded COSE_Key; other decoded shapes have none. -/
def getLabel (decoded : CborValue) (label : ℤ) : Option CborValue :=
  (asMap decoded).bind fun pairs => intKeyedGet pairs label

/-- The private-material guard, then `kty = OKP`, `crv = Ed25519` and a 32-byte key. -/
def inspectCoseKey (keyBytes : List UInt8) (i : ℕ) (path : List PathSegment) :
    Option ValidationIssue :=
  match decodeCanonicalCbor keyBytes with
  | .error cause =>
      some (issue .malformedSigCoseSign1 path
        s!"sigs[{i}].cose_key failed to decode as cbor<COSE_Key>: {cause.display}")
  | .ok decoded =>
      if (getLabel decoded (-4)).isSome then
        some (issue .sigPrivateKeyLeaked path
          ("cose_key carries COSE_Key private-key material (label -4, the OKP/EC2 private " ++
            "scalar d); publishing a private key on the permanent ledger is forbidden"))
      else if (getLabel decoded 1).any (isUnsigned 1) = false then
        some (issue .malformedSigCoseSign1 path
          s!"sigs[{i}].cose_key COSE_Key kty (label 1) must be 1 (OKP)")
      else if (getLabel decoded (-1)).any (isUnsigned 6) = false then
        some (issue .malformedSigCoseSign1 path
          s!"sigs[{i}].cose_key COSE_Key crv (label -1) must be 6 (Ed25519)")
      else if (getLabel decoded (-2)).any (isBytesOfLength 32) then none
      else
        some (issue .malformedSigCoseSign1 path
          (s!"sigs[{i}].cose_key COSE_Key label -2 must be a 32-byte byte string " ++
            "(Ed25519 public key)"))

/-! ## COSE_Sign1 -/

/-- What the structural validator reads of a COSE_Sign1. -/
structure CoseSign1Structural where
  protectedHeader : Option (List (CborValue × CborValue))
  payloadPresent : Bool

/-- The protected header: empty bytes for none, else a non-empty encoded map. -/
def decodeProtectedHeader (protectedBytes : List UInt8) :
    Except String (Option (List (CborValue × CborValue))) :=
  if protectedBytes.isEmpty then .ok none
  else
    match decodeCanonicalCbor protectedBytes with
    | .error _ => .error "protected header decode failed"
    | .ok (.map map) =>
        if map.isEmpty then
          .error "empty protected header must encode as 0x40 (zero-length bstr)"
        else .ok (some map)
    | .ok _ => .error "protected header must decode to map"

/-- A 4-element array of byte-string header, map, null or bytes, 64-byte signature. -/
def decodeCoseSign1Structural (data : List UInt8) : Except String CoseSign1Structural :=
  match decodeCanonicalCbor data with
  | .error _ => .error "cose decode failed"
  | .ok (.array [protectedBytes, unprotected, payload, signature]) =>
      match protectedBytes with
      | .bytes protectedBytes =>
          if isMap unprotected = false then .error "unprotected header must be map"
          else if !isNull payload && !isBytes payload then
            .error "payload must be bytes or null"
          else if isBytesOfLength 64 signature = false then
            .error "signature must be 64 bytes"
          else
            (decodeProtectedHeader protectedBytes).map fun protectedHeader =>
              { protectedHeader, payloadPresent := isBytes payload }
      | _ => .error "protected_bytes must be bytes"
  | .ok _ => .error "expected 4-element array"

/-- The `alg` and `kid` rules on a decoded, detached signature. -/
def coseHeaderIssues (cose : CoseSign1Structural) (coseKey : Option (List UInt8))
    (base : List PathSegment) : List ValidationIssue :=
  let header (label : ℤ) := cose.protectedHeader.bind fun h => intKeyedGet h label
  (if ((header 1).bind intValue).any knownSigAlgIds.contains then []
    else [issue .signatureUnsupported base "COSE_Sign1 protected alg not in \x7b-8, -19\x7d"]) ++
    if (header 4).any (isBytesOfLength 32) && coseKey.isSome then
      [issue .sigEntryKidCoseKeyConflict base
        ("sigs[i] carries both a 32-byte protected `kid` (path 1) and an inline " ++
          "`cose_key` (path 2); paths are mutually exclusive")]
    else []

/-- A detached COSE_Sign1 with admissible headers. -/
def checkCoseSign1 (coseBytes : List UInt8) (coseKey : Option (List UInt8))
    (base : List PathSegment) : List ValidationIssue :=
  match decodeCoseSign1Structural coseBytes with
  | .error message => [issue .malformedSigCoseSign1 base message]
  | .ok cose =>
      if cose.payloadPresent then
        [issue .malformedSigCoseSign1 base
          "COSE_Sign1 payload must be null (detached); attached form forbidden"]
      else coseHeaderIssues cose coseKey base

/-- A leaked private key is named even when the COSE_Sign1 is malformed too. -/
def checkSigEntry (entry : CborValue) (idx : ℕ) : List ValidationIssue :=
  let base : List PathSegment := [.key "sigs", .index idx]
  match asMap entry with
  | none => []
  | some entryMap =>
      let coseKey := (mapGet entryMap "cose_key").bind asBytes
      match coseKey.bind fun keyBytes => inspectCoseKey keyBytes idx (base ++ [.key "cose_key"]) with
      | some keyIssue => [keyIssue]
      | none =>
          match (mapGet entryMap "cose_sign1").bind asBytes with
          | none => []
          | some coseBytes => checkCoseSign1 coseBytes coseKey base

end Label309
