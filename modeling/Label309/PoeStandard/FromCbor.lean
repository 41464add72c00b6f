import Label309.PoeStandard.Record
import Label309.PoeStandard.Registry
import Label309.PoeStandard.Issue

/-!
# Typed projection

The record read off a decoded map. It fails only on a shape the validator rejects.
-/
namespace Label309

/-- A list of texts. -/
def textsFromCbor (values : List CborValue) : Option (List String) := values.mapM asText

/-- An optional array of texts: a value of another type is dropped. -/
def urisFromCbor (uris : Option CborValue) : Option (Option (List String)) :=
  match uris with
  | some (.array u) => (textsFromCbor u).map some
  | _ => some none

/-- A slot from its map. -/
def slotFromCbor (value : CborValue) : Option Slot := do
  let map ← asMap value
  some { epk := (mapGet map "epk").bind asBytes
         kemCt := (mapGet map "kem_ct").bind asBytes
         wrap := (mapGet map "wrap").bind asBytes }

/-- An Argon2id parameter entry: a text name and an unsigned value. -/
def paramFromCbor (entry : CborValue × CborValue) : Option (String × UInt64) :=
  match entry.2 with
  | .unsigned n => (asText entry.1).map fun name => (name, n)
  | _ => none

/-- A passphrase block from its map. -/
def passphraseFromCbor (value : CborValue) : Option PassphraseBlock := do
  let map ← asMap value
  let params ← (mapGet map "params").bind asMap
  let params ← params.mapM paramFromCbor
  let alg ← (mapGet map "alg").bind asText
  let salt ← (mapGet map "salt").bind asBytes
  some { alg, salt, params }

/-- The optional slots; a value of another type is dropped. -/
def slotsFromCbor (slots : Option CborValue) : Option (Option (List Slot)) :=
  match slots with
  | some (.array slots) => (slots.mapM slotFromCbor).map some
  | _ => some none

/-- The optional passphrase block; unlike the slots, any present value is read. -/
def passphraseFieldFromCbor (passphrase : Option CborValue) : Option (Option PassphraseBlock) :=
  match passphrase with
  | some pp => (passphraseFromCbor pp).map some
  | none => some none

/-- The fields of an envelope. -/
def scheme1FromCbor (map : List (CborValue × CborValue)) (scheme : UInt64) :
    Option EncScheme1 := do
  let aead ← (mapGet map "aead").bind asText
  let nonce ← (mapGet map "nonce").bind asBytes
  let slots ← slotsFromCbor (mapGet map "slots")
  let passphrase ← passphraseFieldFromCbor (mapGet map "passphrase")
  some { scheme, aead, nonce, kem := (mapGet map "kem").bind asText, slots,
         slotsMac := (mapGet map "slots_mac").bind asBytes, passphrase }

/-- The KEM is registered. -/
def kemSupported : Option CborValue → Bool
  | some (.text kem) => (kemSlotDescriptor kem).isSome
  | none => true
  | some _ => false

/-- The AEAD is registered. -/
def aeadSupported : Option CborValue → Bool
  | some (.text aead) => (registryLookup aeadNonceLengths aead).isSome
  | _ => false

/-- The typed-vs-opaque dispatch, replayed: an envelope under supported identifiers
is typed, anything else is kept verbatim. -/
def envelopeFromCbor (value : CborValue) : Option EncryptionEnvelope := do
  let map ← asMap value
  match mapGet map "scheme" with
  | some (.unsigned scheme) =>
      if scheme ≠ 1 ∨ kemSupported (mapGet map "kem") = false ∨
          aeadSupported (mapGet map "aead") = false then
        some (.opaqueValue value)
      else (scheme1FromCbor map scheme).map .scheme1
  | _ => some (.opaqueValue value)

/-- A digest with its name. -/
def hashFromCbor (entry : CborValue × CborValue) : Option (String × List UInt8) := do
  let alg ← asText entry.1
  let digest ← asBytes entry.2
  some (alg, digest)

/-- The optional envelope; any present value is read. -/
def encFieldFromCbor (enc : Option CborValue) : Option (Option EncryptionEnvelope) :=
  match enc with
  | some enc => (envelopeFromCbor enc).map some
  | none => some none

/-- An item from its map. -/
def itemFromCbor (value : CborValue) : Option ItemEntry := do
  let map ← asMap value
  let hashes ← (mapGet map "hashes").bind asMap
  let hashes ← hashes.mapM hashFromCbor
  let uris ← urisFromCbor (mapGet map "uris")
  let enc ← encFieldFromCbor (mapGet map "enc")
  some { hashes, uris, enc }

def asUnsigned : CborValue → Option UInt64
  | .unsigned n => some n
  | _ => none

/-- A commitment from its map. -/
def merkleFromCbor (value : CborValue) : Option MerkleCommit := do
  let map ← asMap value
  let alg ← (mapGet map "alg").bind asText
  let root ← (mapGet map "root").bind asBytes
  let leafCount ← (mapGet map "leaf_count").bind asUnsigned
  let uris ← urisFromCbor (mapGet map "uris")
  some { alg, root, leafCount, uris }

/-- A signature from its map. -/
def sigFromCbor (value : CborValue) : Option SigEntry := do
  let map ← asMap value
  let coseSign1 ← (mapGet map "cose_sign1").bind asBytes
  some { coseSign1, coseKey := (mapGet map "cose_key").bind asBytes }

/-- An optional array read element by element; a value of another type is dropped. -/
def arrayFromCbor {α : Type} (value : Option CborValue) (entry : CborValue → Option α) :
    Option (Option (List α)) :=
  match value with
  | some (.array entries) => (entries.mapM entry).map some
  | _ => some none

/-- The entries outside the base key set, verbatim and in order. -/
def extensionsFromCbor (map : List (CborValue × CborValue)) : List (String × CborValue) :=
  map.filterMap fun entry =>
    (asText entry.1).bind fun key =>
      if topLevelBaseKeys.contains key then none else some (key, entry.2)

/-- A record from its map. -/
def recordFromCbor (decoded : CborValue) : Option PoeRecord := do
  let map ← asMap decoded
  let v ← (mapGet map "v").bind asUnsigned
  let items ← arrayFromCbor (mapGet map "items") itemFromCbor
  let merkle ← arrayFromCbor (mapGet map "merkle") merkleFromCbor
  let sigs ← arrayFromCbor (mapGet map "sigs") sigFromCbor
  let crit ← arrayFromCbor (mapGet map "crit") asText
  some { v, items, merkle, supersedes := (mapGet map "supersedes").bind asBytes, sigs, crit,
         extensions := extensionsFromCbor map }

end Label309
