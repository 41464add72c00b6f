import Label309.Cbor.Encode

/-!
# Record model and encoder

The typed record and its canonical-CBOR map. Every map is the list of its present
fields in the order the encoder pushes them; the canonical layer sorts it.
-/
namespace Label309

/-- A recipient slot: the ciphertext-bearing field of its KEM and the wrapped key. -/
structure Slot where
  epk : Option (List UInt8)
  kemCt : Option (List UInt8)
  wrap : Option (List UInt8)
  deriving DecidableEq

/-- A passphrase key-derivation block. -/
structure PassphraseBlock where
  alg : String
  salt : List UInt8
  params : List (String × UInt64)
  deriving DecidableEq

/-- The typed scheme-1 encryption envelope. -/
structure EncScheme1 where
  scheme : UInt64
  aead : String
  nonce : List UInt8
  kem : Option String
  slots : Option (List Slot)
  slotsMac : Option (List UInt8)
  passphrase : Option PassphraseBlock
  deriving DecidableEq

/-- The `enc` value: the typed envelope, or an unsupported one kept verbatim. -/
inductive EncryptionEnvelope
  | scheme1 (typed : EncScheme1)
  | opaqueValue (value : CborValue)

/-- A content item. -/
structure ItemEntry where
  hashes : List (String × List UInt8)
  uris : Option (List String)
  enc : Option EncryptionEnvelope

/-- A Merkle list commitment. -/
structure MerkleCommit where
  alg : String
  root : List UInt8
  leafCount : UInt64
  uris : Option (List String)

/-- A record-level signature entry. -/
structure SigEntry where
  coseSign1 : List UInt8
  coseKey : Option (List UInt8)

/-- A record. Keys outside the base set are kept verbatim in `extensions`. -/
structure PoeRecord where
  v : UInt64
  items : Option (List ItemEntry)
  merkle : Option (List MerkleCommit)
  supersedes : Option (List UInt8)
  sigs : Option (List SigEntry)
  crit : Option (List String)
  extensions : List (String × CborValue)

/-! ## Encoder -/

/-- The entries of the fields that are present, in order. -/
def presentFields (fields : List (String × Option CborValue)) : List (CborValue × CborValue) :=
  fields.filterMap fun field => field.2.map fun value => (.text field.1, value)

def urisToCbor (uris : List String) : CborValue := .array (uris.map .text)

/-- The presence of `kem_ct` selects the hybrid shape and drops any `epk`. -/
def slotToCbor (slot : Slot) : CborValue :=
  match slot.kemCt with
  | some kemCt => .map [(.text "kem_ct", .bytes kemCt), (.text "wrap", .bytes (slot.wrap.getD []))]
  | none =>
      .map [(.text "epk", .bytes (slot.epk.getD [])), (.text "wrap", .bytes (slot.wrap.getD []))]

def passphraseToCbor (pp : PassphraseBlock) : CborValue :=
  .map [(.text "alg", .text pp.alg), (.text "salt", .bytes pp.salt),
    (.text "params", .map (pp.params.map fun param => (.text param.1, .unsigned param.2)))]

def scheme1ToCbor (enc : EncScheme1) : CborValue :=
  .map (presentFields
    [("scheme", some (.unsigned enc.scheme)), ("aead", some (.text enc.aead)),
      ("nonce", some (.bytes enc.nonce)), ("kem", enc.kem.map .text),
      ("slots", enc.slots.map fun slots => .array (slots.map slotToCbor)),
      ("slots_mac", enc.slotsMac.map .bytes), ("passphrase", enc.passphrase.map passphraseToCbor)])

/-- The opaque reading is preserved verbatim. -/
def envelopeToCbor : EncryptionEnvelope → CborValue
  | .scheme1 typed => scheme1ToCbor typed
  | .opaqueValue value => value

def itemToCbor (item : ItemEntry) : CborValue :=
  .map (presentFields
    [("hashes", some (.map (item.hashes.map fun entry => (.text entry.1, .bytes entry.2)))),
      ("uris", item.uris.map urisToCbor), ("enc", item.enc.map envelopeToCbor)])

def merkleToCbor (commit : MerkleCommit) : CborValue :=
  .map (presentFields
    [("alg", some (.text commit.alg)), ("root", some (.bytes commit.root)),
      ("leaf_count", some (.unsigned commit.leafCount)), ("uris", commit.uris.map urisToCbor)])

def sigEntryToCbor (entry : SigEntry) : CborValue :=
  .map (presentFields
    [("cose_sign1", some (.bytes entry.coseSign1)), ("cose_key", entry.coseKey.map .bytes)])

/-- The map of a record: every present base key, then every extension key. -/
def recordToCbor (record : PoeRecord) (includeSigs : Bool) : CborValue :=
  .map (presentFields
    [("v", some (.unsigned record.v)),
      ("items", record.items.map fun items => .array (items.map itemToCbor)),
      ("merkle", record.merkle.map fun merkle => .array (merkle.map merkleToCbor)),
      ("supersedes", record.supersedes.map .bytes),
      ("sigs", if includeSigs then record.sigs.map fun sigs => .array (sigs.map sigEntryToCbor)
        else none),
      ("crit", record.crit.map fun crit => .array (crit.map .text))] ++
    record.extensions.map fun entry => (.text entry.1, entry.2))

/-- Encode a record to canonical CBOR, `sigs` included when present. -/
def encodePoeRecord (record : PoeRecord) : Except CanonicalCborError (List UInt8) :=
  encodeCanonicalCbor (recordToCbor record true)

/-- Encode the record body that record-level signatures cover: all but `sigs`. -/
def encodeRecordBodyForSigning (record : PoeRecord) : Except CanonicalCborError (List UInt8) :=
  encodeCanonicalCbor (recordToCbor record false)

end Label309
