import Label309.Cbor.Permissive
import Label309.Verifier.Signatures
import Label309.PoeStandard.SigEntryCheck
import Label309.Text.Recipient

/-!
# The description of a transaction

Who signed the carrying transaction, and what its body says. Both slices are read by the permissive
decoder, and what has another shape counts as empty.
-/
namespace Label309.TxWitnesses
open Lowercase

/-! ## Keys -/

def ed25519PublicKeyLength : ℕ := 32

def ed25519SignatureLength : ℕ := 64

/-- The keys of a transaction body that a summary reads. -/
def bodyKeyInputs : UInt64 := 0

def bodyKeyOutputs : UInt64 := 1

def bodyKeyFee : UInt64 := 2

def bodyKeyInvalidHereafter : UInt64 := 3

def bodyKeyInvalidBefore : UInt64 := 8

def bodyKeyRequiredSigners : UInt64 := 14

def bodyKeyNetworkId : UInt64 := 15

/-- The key of the signatures in a witness set. -/
def witnessKeyVkey : UInt64 := 0

/-! ## Shapes -/

/-- The key is this unsigned integer. -/
def isKey (key : UInt64) : PermissiveValue → Bool
  | .unsigned n => n = key
  | _ => false

/-- The value of the first entry with an unsigned key. -/
def mapGet (map : List (PermissiveValue × PermissiveValue)) (key : UInt64) :
    Option PermissiveValue :=
  (map.find? fun entry => isKey key entry.1).map Prod.snd

/-- The items of an array. Everything else has none. -/
def asArray : PermissiveValue → List PermissiveValue
  | .array items => items
  | _ => []

def asMap : PermissiveValue → Option (List (PermissiveValue × PermissiveValue))
  | .map pairs => some pairs
  | _ => none

def asU64 : PermissiveValue → Option UInt64
  | .unsigned n => some n
  | _ => none

/-! ## Witnesses -/

/-- A signature over the transaction. -/
structure VerifyTxWitness where
  vkey : String
  keyHash : String
  signatureValid : Bool
  deriving DecidableEq

/-- A byte string of a length. -/
def bytesOfLength (length : ℕ) : Option PermissiveValue → Option (List UInt8)
  | some (.bytes b) => if b.length = length then some b else none
  | _ => none

section Witnesses
variable (crypto : SignaturePrimitives) (hash : ContentHashes)

/-- The report of one entry. An entry without a key is left out. -/
def readWitness (txHash : List UInt8) (entry : PermissiveValue) : Option VerifyTxWitness :=
  let pair := asArray entry
  match bytesOfLength ed25519PublicKeyLength pair[0]? with
  | none => none
  | some vkeyBytes =>
      let signatureValid :=
        match bytesOfLength ed25519SignatureLength pair[1]? with
        | some sig => ed25519Verify crypto vkeyBytes txHash sig
        | none => false
      some ⟨hexEncode vkeyBytes, hexEncode (crypto.blake2b224 vkeyBytes).val, signatureValid⟩

/-- The signatures over the hash of a body. -/
def decodeTxWitnesses (witnessSetBytes txBodyBytes : List UInt8) : List VerifyTxWitness :=
  match decodeCborPermissive witnessSetBytes with
  | .error _ => []
  | .ok decoded =>
      match asMap decoded with
      | none => []
      | some witnessSet =>
          match mapGet witnessSet witnessKeyVkey with
          | none => []
          | some vkeyValue =>
              (asArray vkeyValue).filterMap (readWitness crypto (hash.blake2b256 txBodyBytes).val)

end Witnesses

/-- The entries of the arrays under every other key. -/
def countScriptWitnesses (witnessSetBytes : List UInt8) : ℕ :=
  match decodeCborPermissive witnessSetBytes with
  | .error _ => 0
  | .ok decoded =>
      match asMap decoded with
      | none => 0
      | some witnessSet =>
          (witnessSet.map fun entry =>
            if isKey witnessKeyVkey entry.1 then 0 else (asArray entry.2).length).sum

/-! ## The summary -/

/-- An output as it is shown. -/
structure VerifyTxOutput where
  address : String
  lovelace : String
  deriving DecidableEq

/-- What the body of a transaction says. -/
structure VerifyTxSummary where
  feeLovelace : String
  inputCount : ℕ
  outputCount : ℕ
  outputs : List VerifyTxOutput
  totalOutputLovelace : String
  scriptWitnessCount : ℕ
  invalidBefore : Option UInt64
  invalidHereafter : Option UInt64
  requiredSignerKeyHashes : Option (List String)
  networkId : Option UInt64
  deriving DecidableEq

/-- A body that has another shape. -/
inductive TxSummaryError
  | malformed (detail : String)
  deriving DecidableEq

def toU64 : Option PermissiveValue → Except TxSummaryError UInt64
  | some (.unsigned n) => .ok n
  | _ => .error (.malformed "expected a non-negative integer coin value")

/-- An amount in decimal digits. -/
def coinToString (v : Option PermissiveValue) : Except TxSummaryError String :=
  (toU64 v).map fun n => toString n.toNat

/-- The address and the lovelace of an output, an array or a map. -/
def readOutput (output : PermissiveValue) : Except TxSummaryError (List UInt8 × UInt64) := do
  let (address, amount) ←
    match output with
    | .array items => .ok (items[0]?, items[1]?)
    | .map pairs => .ok (mapGet pairs 0, mapGet pairs 1)
    | _ => .error (.malformed "tx output is neither a CBOR array nor a CBOR map")
  let addressBytes ←
    match address with
    | some (.bytes b) => .ok b
    | _ => .error (.malformed "tx output address is not a byte string")
  let lovelace ←
    match amount with
    | some (.array items) => toU64 items[0]?
    | other => toU64 other
  .ok (addressBytes, lovelace)

section Summary
variable (unicode : CasePair)

/-- The header byte has the type of the address and its network. -/
def encodeCardanoAddress (addressBytes : List UInt8) (network : CardanoNetwork) :
    Except TxSummaryError String := do
  let header ← addressBytes.head?.elim (.error (.malformed "empty address byte string")) .ok
  let addressType := header >>> 4
  let networkNibble := header &&& 0x0f
  let isStake := addressType = 14 ∨ addressType = 15
  let isTestnet :=
    if networkNibble = 0 then true else if networkNibble = 1 then false else network = .preprod
  let base := if isStake then "stake" else "addr"
  let hrp := if isTestnet then base ++ "_test" else base
  match bech32EncodeNoLimit unicode hrp addressBytes with
  | .ok address => .ok address
  | .error e => .error (.malformed ("address bech32 encode failed: " ++ e.toText))

/-- The total saturates. -/
def readOutputs (network : CardanoNetwork) (total : ℕ) :
    List PermissiveValue → Except TxSummaryError (List VerifyTxOutput × ℕ)
  | [] => .ok ([], total)
  | o :: rest => do
      let (addressBytes, lovelace) ← readOutput o
      let address ← encodeCardanoAddress unicode addressBytes network
      let (outputs, total) ←
        readOutputs network (min (total + lovelace.toNat) (2 ^ 128 - 1)) rest
      .ok (⟨address, toString lovelace.toNat⟩ :: outputs, total)

/-- The items of the array under a key. -/
def arrayAt (body : List (PermissiveValue × PermissiveValue)) (key : UInt64) :
    List PermissiveValue :=
  ((mapGet body key).map asArray).getD []

/-- The byte strings among required signers. -/
def signerHash : PermissiveValue → Option String
  | .bytes b => some (hexEncode b)
  | _ => none

/-- Read a summary from a body and its witness set. -/
def decodeTxSummary (txBodyBytes witnessSetBytes : List UInt8) (network : CardanoNetwork) :
    Except TxSummaryError VerifyTxSummary := do
  let decoded ← (decodeCborPermissive txBodyBytes).mapError fun e => .malformed e.display
  let body ← (asMap decoded).elim (.error (.malformed "tx body is not a CBOR map")) .ok
  let inputs := arrayAt body bodyKeyInputs
  let (outputs, totalOutput) ← readOutputs unicode network 0 (arrayAt body bodyKeyOutputs)
  let requiredSigners := (arrayAt body bodyKeyRequiredSigners).filterMap signerHash
  let feeLovelace ← coinToString (mapGet body bodyKeyFee)
  .ok
    { feeLovelace
      inputCount := inputs.length
      outputCount := outputs.length
      outputs
      totalOutputLovelace := toString totalOutput
      scriptWitnessCount := countScriptWitnesses witnessSetBytes
      invalidBefore := (mapGet body bodyKeyInvalidBefore).bind asU64
      invalidHereafter := (mapGet body bodyKeyInvalidHereafter).bind asU64
      requiredSignerKeyHashes := if requiredSigners = [] then none else some requiredSigners
      networkId := (mapGet body bodyKeyNetworkId).bind asU64 }

end Summary

end Label309.TxWitnesses
