import Label309.Text.Recipient
import Label309.Text.HexDigits

/-!
# Prefixed identifiers

The Crockford base32 codec, and identifiers that are a prefix, an underscore and the symbols of a
UUID. The buffers of the codec are never masked.
-/
namespace Label309
open Lowercase

/-- The alphabet in the order of its values. It has no `i`, `l`, `o` and `u`. -/
def crockfordAlphabet : List Char := "0123456789abcdefghjkmnpqrstvwxyz".toList

def crockfordEncodedLengthForUuid : ℕ := 26

inductive IdError
  | encodeWrongByteLength (length : ℕ)
  | decodeWrongLength (length : ℕ)
  | invalidCharacter (ch : Char) (index : ℕ)
  | nonZeroPadBits
  | notCanonicalUuid (uuid : String)
  | decodedNotSixteenBytes (length : ℕ)
  | missingSeparator (encoded : String)
  | prefixMismatch (expected actual : String)
  deriving DecidableEq

/-! ## Symbols -/

/-- The value of a symbol in either case. `I` and `L` stand for `1`, and `O` for `0`. -/
def decodeSymbol (ch : Char) : Option UInt8 :=
  if '0' ≤ ch ∧ ch ≤ '9' then some (UInt8.ofNat (ch.toNat - '0'.toNat))
  else if 'a' ≤ ch ∧ ch ≤ 'h' then some (UInt8.ofNat (ch.toNat - 'a'.toNat + 10))
  else if 'A' ≤ ch ∧ ch ≤ 'H' then some (UInt8.ofNat (ch.toNat - 'A'.toNat + 10))
  else if ch = 'j' ∨ ch = 'k' then some (UInt8.ofNat (ch.toNat - 'j'.toNat + 18))
  else if ch = 'J' ∨ ch = 'K' then some (UInt8.ofNat (ch.toNat - 'J'.toNat + 18))
  else if ch = 'm' ∨ ch = 'n' then some (UInt8.ofNat (ch.toNat - 'm'.toNat + 20))
  else if ch = 'M' ∨ ch = 'N' then some (UInt8.ofNat (ch.toNat - 'M'.toNat + 20))
  else if 'p' ≤ ch ∧ ch ≤ 't' then some (UInt8.ofNat (ch.toNat - 'p'.toNat + 22))
  else if 'P' ≤ ch ∧ ch ≤ 'T' then some (UInt8.ofNat (ch.toNat - 'P'.toNat + 22))
  else if 'v' ≤ ch ∧ ch ≤ 'z' then some (UInt8.ofNat (ch.toNat - 'v'.toNat + 27))
  else if 'V' ≤ ch ∧ ch ≤ 'Z' then some (UInt8.ofNat (ch.toNat - 'V'.toNat + 27))
  else if ch = 'i' ∨ ch = 'I' ∨ ch = 'l' ∨ ch = 'L' then some 1
  else if ch = 'o' ∨ ch = 'O' then some 0
  else none

/-- The symbol of a value. -/
def symbolChar (value : UInt8) : Char := crockfordAlphabet.getD value.toNat '0'

/-- The values of bytes. The bits that were given out stay in the buffer. -/
def symbolValuesFrom (bits : UInt32) (bitCount : ℕ) : List UInt8 → List UInt8
  | [] => if 0 < bitCount then [((bits <<< UInt32.ofNat (5 - bitCount)) &&& 0x1f).toUInt8] else []
  | byte :: rest =>
      let bits := (bits <<< 8) ||| byte.toUInt32
      emitWords bits (bitCount + 8) ++ symbolValuesFrom bits ((bitCount + 8) % 5) rest

def encodeBytesVariableLength (bytes : List UInt8) : String :=
  String.ofList ((symbolValuesFrom 0 0 bytes).map symbolChar)

def encodeBytes (bytes : List UInt8) : Except IdError String :=
  if bytes.length ≠ 16 then .error (.encodeWrongByteLength bytes.length)
  else .ok (encodeBytesVariableLength bytes)

/-- The bytes of symbols, the first of them at `index`. Two zero bits have to be left over. -/
def decodeBytesFrom (bits : UInt32) (bitCount index : ℕ) :
    List Char → Except IdError (List UInt8)
  | [] => if bitCount ≠ 2 ∨ bits &&& 0x3 ≠ 0 then .error .nonZeroPadBits else .ok []
  | ch :: rest => do
      let value ← (decodeSymbol ch).elim (.error (.invalidCharacter ch index)) .ok
      let bits := (bits <<< 5) ||| value.toUInt32
      if 8 ≤ bitCount + 5 then
        let left := bitCount + 5 - 8
        let out ← decodeBytesFrom bits left (index + 1) rest
        .ok (((bits >>> UInt32.ofNat left) &&& 0xff).toUInt8 :: out)
      else decodeBytesFrom bits (bitCount + 5) (index + 1) rest

def decodeBytes (encoded : String) : Except IdError (List UInt8) :=
  if encoded.toList.length ≠ crockfordEncodedLengthForUuid then
    .error (.decodeWrongLength encoded.toList.length)
  else decodeBytesFrom 0 0 0 encoded.toList

/-! ## UUIDs -/

/-- The bytes of a UUID, whose hyphens are only counted. -/
def uuidStringToBytes (unicode : CasePair) (uuid : String) : Except IdError (List UInt8) :=
  let hyphenCount := uuid.toList.count '-'
  let stripped := uuid.toList.filter (· ≠ '-')
  let lowered := toLowercase unicode.toCaseTable stripped
  let is32Hex := lowered.length = 32 ∧ ∀ c ∈ lowered, isAsciiHexDigit c = true ∧ c ≠ '-'
  if ¬ is32Hex ∨ hyphenCount ≠ 4 then .error (.notCanonicalUuid uuid)
  else
    match hexDecode (String.ofList lowered) with
    | .ok bytes => .ok bytes
    | .error _ => .error (.notCanonicalUuid uuid)

def bytesToUuidString (bytes : List UInt8) : Except IdError String :=
  if bytes.length ≠ 16 then .error (.decodedNotSixteenBytes bytes.length)
  else
    let h := (hexEncode bytes).toList
    .ok (String.ofList (h.take 8 ++ '-' :: (h.drop 8).take 4 ++ '-' :: (h.drop 12).take 4 ++
      '-' :: (h.drop 16).take 4 ++ '-' :: h.drop 20))

/-! ## Identifiers -/

def encodePrefixedId (unicode : CasePair) (pre uuid : String) : Except IdError String := do
  let bytes ← uuidStringToBytes unicode uuid
  .ok (pre ++ "_" ++ encodeBytesVariableLength bytes)

/-- The separator is the first underscore. -/
def decodePrefixedId (pre encoded : String) : Except IdError String :=
  let actualPrefix := String.ofList (encoded.toList.takeWhile (· ≠ '_'))
  match encoded.toList.dropWhile (· ≠ '_') with
  | [] => .error (.missingSeparator encoded)
  | _ :: body =>
      if actualPrefix ≠ pre then .error (.prefixMismatch pre actualPrefix)
      else do
        let bytes ← decodeBytes (String.ofList body)
        bytesToUuidString bytes

def isStrictCrockfordLower (c : Char) : Bool :=
  ('0' ≤ c && c ≤ '9') || ('a' ≤ c && c ≤ 'h') || c = 'j' || c = 'k' || c = 'm' || c = 'n' ||
    ('p' ≤ c && c ≤ 't') || ('v' ≤ c && c ≤ 'z')

/-- A guard that does not look at the value of the symbols. -/
def isPrefixedId (pre candidate : String) : Bool :=
  match candidate.toList.dropPrefix? (pre ++ "_").toList with
  | none => false
  | some body => body.length = 26 && body.all isStrictCrockfordLower

end Label309
