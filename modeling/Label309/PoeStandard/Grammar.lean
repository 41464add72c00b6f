import Label309.PoeStandard.Validate

/-!
# The record grammar

The accepted language stated shape by shape on decoded values, independently of the
passes that check it. Maps are looked up by text key; a closed map has no other key.
-/
namespace Label309

/-! ## Fields -/

/-- Every key of the map is text. -/
def TextKeyed (pairs : List (CborValue × CborValue)) : Prop := ∀ p ∈ pairs, ∃ t, p.1 = .text t

/-- Every key of the map is one of `keys`. -/
def ClosedMap (keys : List String) (pairs : List (CborValue × CborValue)) : Prop :=
  ∀ p ∈ pairs, ∃ t ∈ keys, p.1 = .text t

/-- A field that must be present with a value of this shape. -/
def Required (P : CborValue → Prop) (field : Option CborValue) : Prop := ∃ v, field = some v ∧ P v

/-- A field that is absent or has a value of this shape. -/
def OptionalField (P : CborValue → Prop) (field : Option CborValue) : Prop :=
  ∀ v, field = some v → P v

/-- A non-empty array with elements of one shape. -/
def ArrayOf (P : CborValue → Prop) (v : CborValue) : Prop :=
  ∃ entries, v = .array entries ∧ entries ≠ [] ∧ ∀ e ∈ entries, P e

def BytesOf (n : ℕ) (v : CborValue) : Prop := ∃ b : List UInt8, v = .bytes b ∧ b.length = n

/-- A map with these keys only, whose entries satisfy `P`. -/
def ClosedMapWith (keys : List String) (P : List (CborValue × CborValue) → Prop)
    (v : CborValue) : Prop :=
  ∃ pairs, v = .map pairs ∧ ClosedMap keys pairs ∧ P pairs

/-! ## Items and commitments -/

def IsUri (v : CborValue) : Prop := ∃ s, v = .text s ∧ checkOneUri s = none

/-- A non-empty map from the registered algorithms to 32-byte digests. -/
def IsHashes : CborValue → Prop :=
  ClosedMapWith ["sha2-256", "blake2b-256"] fun pairs =>
    pairs ≠ [] ∧ ∀ p ∈ pairs, BytesOf 32 p.2

def IsLeafCount (v : CborValue) : Prop :=
  ∃ n : UInt64, v = .unsigned n ∧ 1 ≤ n.toNat ∧ n.toNat ≤ 2 ^ 32 - 1

def IsMerkleCommit : CborValue → Prop :=
  ClosedMapWith ["alg", "root", "leaf_count", "uris"] fun pairs =>
    mapGet pairs "alg" = some (.text "rfc9162-sha256") ∧
      Required (BytesOf 32) (mapGet pairs "root") ∧
      Required IsLeafCount (mapGet pairs "leaf_count") ∧
      OptionalField (ArrayOf IsUri) (mapGet pairs "uris")

/-! ## Envelopes -/

/-- The registered KEMs with their slot field and its length. -/
def kemRegistry : List (String × String × ℕ) :=
  [("x25519", "epk", 32), ("mlkem768x25519", "kem_ct", 1120)]

def contentFormat : String := "chacha20-poly1305-stream64k"

/-- The opaque reading: some identifier is outside the registries. -/
def IsOpaque (pairs : List (CborValue × CborValue)) (scheme : UInt64) : Prop :=
  scheme ≠ 1 ∨ (∃ kem, mapGet pairs "kem" = some (.text kem) ∧ kem ∉ kemRegistry.map Prod.fst) ∨
    ∃ aead, mapGet pairs "aead" = some (.text aead) ∧ aead ≠ contentFormat

/-- A closed two-key slot with its KEM field and a 48-byte wrap. -/
def IsSlot (field : String) (length : ℕ) : CborValue → Prop :=
  ClosedMapWith [field, "wrap"] fun pairs =>
    Required (BytesOf length) (mapGet pairs field) ∧ Required (BytesOf 48) (mapGet pairs "wrap")

/-- The KEM material of a slot. -/
def slotMaterial (field : String) (slot : CborValue) : Option CborValue :=
  (asMap slot).bind fun pairs => mapGet pairs field

/-- An Argon2id parameter between its floor and the ceiling, in 32 bits. -/
def IsArgon2Param (floor : ℕ) (ceiling : Option UInt64) (v : CborValue) : Prop :=
  ∃ n : UInt64, v = .unsigned n ∧ floor ≤ n.toNat ∧ n.toNat ≤ 2 ^ 32 - 1 ∧
    ∀ max, ceiling = some max → n ≤ max

def IsArgon2Params (ceiling : Option Argon2ParamsCeiling) : CborValue → Prop :=
  ClosedMapWith ["m", "t", "p"] fun params =>
    Required (IsArgon2Param 65536 (ceiling.map (·.m))) (mapGet params "m") ∧
      Required (IsArgon2Param 3 (ceiling.map (·.t))) (mapGet params "t") ∧
      Required (IsArgon2Param 1 (ceiling.map (·.p))) (mapGet params "p")

def IsSalt (v : CborValue) : Prop :=
  ∃ b : List UInt8, v = .bytes b ∧ 16 ≤ b.length ∧ b.length ≤ 64

def IsPassphraseBlock (ceiling : Option Argon2ParamsCeiling) : CborValue → Prop :=
  ClosedMapWith ["alg", "salt", "params"] fun pairs =>
    mapGet pairs "alg" = some (.text "argon2id") ∧ Required IsSalt (mapGet pairs "salt") ∧
      Required (IsArgon2Params ceiling) (mapGet pairs "params")

/-- The recipient key path: `slots` with their `kem` and MAC, and no passphrase. -/
structure SlotsPath (maxSlots : ℕ) (pairs : List (CborValue × CborValue)) : Prop where
  noPassphrase : mapGet pairs "passphrase" = none
  slotsMac : Required (BytesOf 32) (mapGet pairs "slots_mac")
  slots : ∃ kem field length entries, (kem, field, length) ∈ kemRegistry ∧
    mapGet pairs "kem" = some (.text kem) ∧ mapGet pairs "slots" = some (.array entries) ∧
    entries ≠ [] ∧ entries.length ≤ maxSlots ∧ (∀ e ∈ entries, IsSlot field length e) ∧
    (entries.map (slotMaterial field)).Nodup

/-- The passphrase key path: the block alone, with no `kem`, `slots` or MAC. -/
structure PassphrasePath (ceiling : Option Argon2ParamsCeiling)
    (pairs : List (CborValue × CborValue)) : Prop where
  noKem : mapGet pairs "kem" = none
  noSlots : mapGet pairs "slots" = none
  noSlotsMac : mapGet pairs "slots_mac" = none
  passphrase : Required (IsPassphraseBlock ceiling) (mapGet pairs "passphrase")

/-- The full scheme-1 rules. -/
structure IsScheme1 (options : ValidatorOptions) (pairs : List (CborValue × CborValue)) :
    Prop where
  closed : ClosedMap
    ["scheme", "aead", "nonce", "kem", "slots", "slots_mac", "passphrase"] pairs
  scheme : mapGet pairs "scheme" = some (.unsigned 1)
  aead : mapGet pairs "aead" = some (.text contentFormat)
  nonce : Required (BytesOf 24) (mapGet pairs "nonce")
  keyPath : SlotsPath options.maxSlots pairs ∨
    PassphrasePath options.passphraseParamsCeiling pairs

/-- A bounded text-keyed map with an unsigned scheme and no forbidden cipher, opaque
where the role admits that, else under the scheme-1 rules. -/
def IsEnvelope (options : ValidatorOptions) (v : CborValue) : Prop :=
  ∃ pairs, v = .map pairs ∧ TextKeyed pairs ∧
    (∃ b, encodeCanonicalCbor v = .ok b ∧ b.length ≤ options.maxEncEnvelopeBytes) ∧
    ∃ scheme, mapGet pairs "scheme" = some (.unsigned scheme) ∧
      (∀ aead, mapGet pairs "aead" = some (.text aead) → isUnauthenticatedCipher aead = false) ∧
      ((IsOpaque pairs scheme ∧ options.role = .publicRole) ∨ IsScheme1 options pairs)

def IsItem (options : ValidatorOptions) : CborValue → Prop :=
  ClosedMapWith ["hashes", "uris", "enc"] fun pairs =>
    Required IsHashes (mapGet pairs "hashes") ∧
      OptionalField (ArrayOf IsUri) (mapGet pairs "uris") ∧
      OptionalField (IsEnvelope options) (mapGet pairs "enc")

/-! ## Signature entries -/

/-- An Ed25519 public COSE_Key with no private scalar. -/
def IsCoseKey (keyBytes : List UInt8) : Prop :=
  ∃ pairs, decodeCanonicalCbor keyBytes = .ok (.map pairs) ∧ intKeyedGet pairs (-4) = none ∧
    intKeyedGet pairs 1 = some (.unsigned 1) ∧ intKeyedGet pairs (-1) = some (.unsigned 6) ∧
    Required (BytesOf 32) (intKeyedGet pairs (-2))

/-- A protected header: no bytes at all, or the encoding of a non-empty map. -/
def IsProtectedHeader (protectedBytes : List UInt8) (header : List (CborValue × CborValue)) :
    Prop :=
  (protectedBytes = [] ∧ header = []) ∨
    (header ≠ [] ∧ decodeCanonicalCbor protectedBytes = .ok (.map header))

/-- A detached COSE_Sign1 with this protected header. -/
def IsDetachedSign1 (coseBytes : List UInt8) (header : List (CborValue × CborValue)) : Prop :=
  ∃ protectedBytes unprotected signature,
    decodeCanonicalCbor coseBytes =
      .ok (.array [.bytes protectedBytes, .map unprotected, .null, .bytes signature]) ∧
    signature.length = 64 ∧ IsProtectedHeader protectedBytes header

/-- A detached signature with at most one way of naming its key. -/
def IsSigEntry : CborValue → Prop :=
  ClosedMapWith ["cose_sign1", "cose_key"] fun pairs =>
    ∃ coseBytes header, mapGet pairs "cose_sign1" = some (.bytes coseBytes) ∧
      IsDetachedSign1 coseBytes header ∧
      OptionalField (fun v => ∃ keyBytes, v = .bytes keyBytes ∧ IsCoseKey keyBytes ∧
        ¬ Required (BytesOf 32) (intKeyedGet header 4)) (mapGet pairs "cose_key")

/-! ## Records -/

/-- The critical extensions: distinct extension keys of the record, all supported. -/
def IsCrit (options : ValidatorOptions) (pairs : List (CborValue × CborValue))
    (v : CborValue) : Prop :=
  ∃ names : List String, v = .array (names.map .text) ∧ names ≠ [] ∧ names.Nodup ∧
    ∀ name ∈ names, name ∉ topLevelBaseKeys ∧ isExtensionKey name = true ∧
      (∃ value, mapGet pairs name = some value) ∧ name ∈ options.supportedCriticalExtensions

/-- The record grammar under the validator's options. -/
structure RecordGrammar (options : ValidatorOptions) (pairs : List (CborValue × CborValue)) :
    Prop where
  keys : ∀ p ∈ pairs, ∃ t, p.1 = .text t ∧ (t ∈ topLevelBaseKeys ∨ isExtensionKey t = true)
  v : mapGet pairs "v" = some (.unsigned 1)
  items : OptionalField (ArrayOf (IsItem options)) (mapGet pairs "items")
  merkle : OptionalField (ArrayOf IsMerkleCommit) (mapGet pairs "merkle")
  content : ¬ (mapGet pairs "items" = none ∧ mapGet pairs "merkle" = none)
  supersedes : OptionalField (BytesOf 32) (mapGet pairs "supersedes")
  sigs : OptionalField (ArrayOf IsSigEntry) (mapGet pairs "sigs")
  crit : OptionalField (IsCrit options pairs) (mapGet pairs "crit")

end Label309
