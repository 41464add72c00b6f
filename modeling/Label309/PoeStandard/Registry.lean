import Label309.Cbor.Value
import Label309.PoeStandard.ErrorCode

/-!
# Registries

The closed catalogue of identifiers with their lengths, and the two predicates on
identifier spellings: extension keys and forbidden ciphers.
-/
namespace Label309

/-- The digests with their lengths. -/
def hashAlgLengths : List (String × ℕ) := [("sha2-256", 32), ("blake2b-256", 32)]

/-- The trees with the lengths of their roots. -/
def merkleCommitAlgLengths : List (String × ℕ) := [("rfc9162-sha256", 32)]

/-- The content formats with their nonce lengths. -/
def aeadNonceLengths : List (String × ℕ) := [("chacha20-poly1305-stream64k", 24)]

/-- The password hashes. -/
def passphraseKdfAlgs : List String := ["argon2id"]

/-- EdDSA and its fully specified Ed25519 form. -/
def knownSigAlgIds : List ℤ := [-8, -19]

/-- The keys of a record. -/
def topLevelBaseKeys : List String := ["v", "items", "merkle", "supersedes", "sigs", "crit"]

def uint32Max : UInt64 := 0xffffffff

/-- The least cost parameters. -/
def argon2Floors : List (String × UInt64) := [("m", 65536), ("t", 3), ("p", 1)]

/-- The ciphertext-bearing slot field of a KEM, with the exact lengths of a slot. -/
structure KemSlotDescriptor where
  field : String
  fieldLength : ℕ
  wrapLength : ℕ
  fieldLengthCode : ErrorCode

/-- The fields of the slots of a KEM. -/
def kemSlotDescriptor (kem : String) : Option KemSlotDescriptor :=
  if kem = "x25519" then
    some { field := "epk", fieldLength := 32, wrapLength := 48,
           fieldLengthCode := .kemEpkLengthMismatch }
  else if kem = "mlkem768x25519" then
    some { field := "kem_ct", fieldLength := 1120, wrapLength := 48,
           fieldLengthCode := .kemCtLengthMismatch }
  else none

/-- The keys of the slots of all KEMs. -/
def slotKeyUniverse : List String := ["epk", "kem_ct", "wrap"]

/-- The length of a registered name. -/
def registryLookup (registry : List (String × ℕ)) (key : String) : Option ℕ :=
  (registry.find? fun entry => entry.1 == key).map Prod.snd

/-- Control characters, which no extension key may contain. -/
def isControlChar (c : Char) : Bool :=
  c.toNat ≤ 0x1f || (0x7f ≤ c.toNat && c.toNat ≤ 0x9f)

def isAsciiLowercase (b : UInt8) : Bool := 97 ≤ b && b ≤ 122

/-- A vendor (`x-…`) or companion (`<ns>-…`) extension key. -/
def isExtensionKey (key : String) : Bool :=
  if key.toList.any isControlChar then false
  else
    match key.toList with
    | 'x' :: '-' :: rest => !rest.isEmpty
    | _ =>
        let bytes := utf8Bytes key
        let i := (bytes.takeWhile isAsciiLowercase).length
        decide (1 ≤ i) && decide (bytes[i]? = some 45) && decide (i + 1 < bytes.length)

/-- The offset of the first occurrence of a non-empty needle. -/
def findSubslice (haystack needle : List UInt8) : Option ℕ :=
  if needle.isEmpty || haystack.length < needle.length then none
  else (List.range (haystack.length - needle.length + 1)).find? fun i =>
    (haystack.drop i).take needle.length == needle

def toAsciiLowercase (b : UInt8) : UInt8 := if 65 ≤ b && b ≤ 90 then b + 32 else b

def isDelim (b : UInt8) : Bool := b == 45 || b == 95

/-- Whether `bytes` ends at `after` or has a delimiter there. -/
def delimitedAt (bytes : List UInt8) (after : ℕ) : Bool :=
  match bytes[after]? with
  | none => true
  | some b => isDelim b

/-- Search for an occurrence of `mode` from `start` that is delimited on both sides. -/
def hasDelimitedMode (bytes mode : List UInt8) : ℕ → ℕ → Bool
  | 0, _ => false
  | fuel + 1, start =>
      match findSubslice (bytes.drop start) mode with
      | none => false
      | some rel =>
          let idx := start + rel
          if (idx == 0 || delimitedAt bytes (idx - 1)) && delimitedAt bytes (idx + mode.length) then
            true
          else hasDelimitedMode bytes mode fuel (idx + 1)

/-- An AEAD identifier naming a forbidden unauthenticated cipher: a delimited
block-mode token anywhere, or a leading legacy cipher token. -/
def isUnauthenticatedCipher (aead : String) : Bool :=
  let bytes := (utf8Bytes aead).map toAsciiLowercase
  ["cbc", "ctr", "ecb", "cfb", "ofb"].any
      (fun mode => hasDelimitedMode bytes (utf8Bytes mode) (bytes.length + 1) 0) ||
    ["rc4", "des", "3des"].any fun legacy =>
      (utf8Bytes legacy).isPrefixOf bytes && delimitedAt bytes (utf8Bytes legacy).length

example : isUnauthenticatedCipher "AES-256-CBC" = true := by decide

example : isUnauthenticatedCipher "chacha20-poly1305-stream64k" = false := by decide

end Label309
