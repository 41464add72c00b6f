import Label309.SealedPoe.Aead

/-!
# The sealed envelope

The wire shapes of the slots and of the envelope, and the primitives that come from outside
the repository.
-/
namespace Label309

def kemX25519 : String := "x25519"

def kemMlkem768X25519 : String := "mlkem768x25519"

def aeadChacha20Poly1305Stream64k : String := "chacha20-poly1305-stream64k"

/-- A classical slot. -/
structure X25519Slot where
  epk : List UInt8
  wrap : List UInt8
  deriving DecidableEq

/-- A hybrid slot. -/
structure Mlkem768X25519Slot where
  kemCt : List UInt8
  wrap : List UInt8
  deriving DecidableEq

/-- The slots of an envelope, all of one KEM. -/
inductive SealedSlots
  | x25519 (slots : List X25519Slot)
  | mlkem768X25519 (slots : List Mlkem768X25519Slot)
  deriving DecidableEq

def SealedSlots.length : SealedSlots → ℕ
  | .x25519 slots => slots.length
  | .mlkem768X25519 slots => slots.length

/-- The envelope as it is on the wire, its identifiers not yet checked. -/
structure SealedEnvelope where
  scheme : ℤ
  aead : String
  kem : String
  nonce : List UInt8
  slots : SealedSlots
  slotsMac : List UInt8
  deriving DecidableEq

/-- The envelope and the content ciphertext. -/
structure SealedPoeOutput where
  envelope : SealedEnvelope
  ciphertext : List UInt8
  deriving DecidableEq

/-- A content-hash map: its entries in the order of their keys. -/
structure ContentHashMap where
  entries : List (String × List UInt8)
  sorted : entries.Pairwise fun a b => a.1 < b.1

/-- ML-KEM-768. A decapsulation key is given by its 64-byte seed. -/
structure MlKem768 where
  encapsulationKey : FixedBytes 64 → FixedBytes 1184
  validEncapsulationKey : FixedBytes 1184 → Bool
  encapsulate : FixedBytes 1184 → (message : FixedBytes 32) → FixedBytes 1088 × FixedBytes 32
  decapsulate : FixedBytes 64 → FixedBytes 1088 → FixedBytes 32

/-- Hashes, key derivation, Diffie-Hellman, encapsulation and the cipher. -/
structure SealedPrimitives where
  sha256 : List UInt8 → FixedBytes 32
  sha3256 : List UInt8 → FixedBytes 32
  shake256 : List UInt8 → (length : ℕ) → FixedBytes length
  hmacSha256 : (key message : List UInt8) → FixedBytes 32
  hkdfExtract : (salt ikm : List UInt8) → FixedBytes 32
  hkdfExpand : FixedBytes 32 → (info : List UInt8) → (length : ℕ) → FixedBytes length
  x25519 : (scalar point : FixedBytes 32) → FixedBytes 32
  mlKem : MlKem768
  aead : Aead

/-- 32 bytes of HKDF-SHA256, a length that never exceeds the maximum. -/
def hkdfSha256 (crypto : SealedPrimitives) (ikm salt info : List UInt8) : FixedBytes 32 :=
  crypto.hkdfExpand (crypto.hkdfExtract salt ikm) info 32

end Label309
