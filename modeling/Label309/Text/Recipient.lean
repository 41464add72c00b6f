import Label309.Cbor.Value
import Label309.Lib.Lowercase

/-!
# Recipient strings

The bech32 codec without a length limit, and the strings of the two recipient kinds. A text is read
by its characters: one outside ASCII has only bytes outside the ranges that are asked for.
-/
namespace Label309
open Lowercase

/-! ## White space -/

/-- The White_Space property. -/
def isWhitespace (c : Char) : Bool :=
  let n := c.toNat
  (9 ≤ n && n ≤ 13) || n = 0x20 || n = 0x85 || n = 0xA0 || n = 0x1680 ||
    (0x2000 ≤ n && n ≤ 0x200A) || n = 0x2028 || n = 0x2029 || n = 0x202F || n = 0x205F ||
    n = 0x3000

/-- A text without the white space around it. -/
def trim (s : String) : String :=
  String.ofList ((s.toList.dropWhile isWhitespace).reverse.dropWhile isWhitespace).reverse

/-! ## Errors -/

/-- Why a recipient is refused. -/
inductive RecipientError
  | emptyPrefix
  | invalidPrefix (hrp : String)
  | emptyString
  | mixedCase
  | missingPrefix
  | dataTooShort
  | invalidPrefixCharacter
  | invalidDataCharacter
  | badChecksum
  | nonCanonicalPadding
  | x25519KeyLength
  | xWingKeyLength
  | parsedX25519KeyLength
  | parsedXWingKeyLength
  | unrecognizedPrefix (hrp : String)
  deriving DecidableEq

/-- The text that an error displays. -/
def RecipientError.toText : RecipientError → String
  | .emptyPrefix => "bech32: empty prefix"
  | .invalidPrefix hrp => "bech32: invalid prefix (" ++ hrp ++ ")"
  | .emptyString => "bech32: empty string"
  | .mixedCase => "bech32: mixed-case string"
  | .missingPrefix => "bech32: missing human-readable prefix"
  | .dataTooShort => "bech32: data too short for checksum"
  | .invalidPrefixCharacter => "bech32: invalid prefix character"
  | .invalidDataCharacter => "bech32: invalid data character"
  | .badChecksum => "bech32: bad checksum"
  | .nonCanonicalPadding => "bech32: non-canonical padding"
  | .x25519KeyLength => "encodeAgeX25519Recipient: publicKey must be exactly 32 bytes"
  | .xWingKeyLength => "encodeAgeXWingRecipient: publicKey must be exactly 1216 bytes"
  | .parsedX25519KeyLength => "parseAgeRecipient: age recipient must carry a 32-byte X25519 key"
  | .parsedXWingKeyLength =>
      "parseAgeRecipient: age1pqc recipient must carry a 1216-byte X-Wing key"
  | .unrecognizedPrefix hrp =>
      "parseAgeRecipient: unrecognized recipient prefix \"" ++ hrp ++ "\""

/-! ## The checksum -/

/-- The characters of the groups of five bits. -/
def bech32Alphabet : List Char := "qpzry9x8gf2tvdw0s3jn54khce6mua7l".toList

/-- The generators of the checksum. -/
def polymodGenerators : List UInt32 := [0x3b6a57b2, 0x26508e6d, 0x1ea119fa, 0x3d4233dd, 0x2a1462b3]

/-- The remainder of a text with its checksum. -/
def encodingConst : UInt32 := 1

/-- What one high bit adds to the checksum. -/
def addGenerator (b : UInt32) (chk : UInt32) (entry : UInt32 × ℕ) : UInt32 :=
  if (b >>> UInt32.ofNat entry.2) &&& 1 = 1 then chk ^^^ entry.1 else chk

/-- Take in one symbol. -/
def polymodStep (pre : UInt32) : UInt32 :=
  polymodGenerators.zipIdx.foldl (addGenerator (pre >>> 25)) ((pre &&& 0x01ffffff) <<< 5)

/-- Take a value into the checksum. -/
def polymodTake (chk v : UInt32) : UInt32 := polymodStep chk ^^^ v

/-- Take words into the checksum. -/
def polymodWords (chk : UInt32) (words : List UInt8) : UInt32 :=
  words.foldl (fun chk w => polymodTake chk w.toUInt32) chk

/-- The checksum after the prefix: its high bits, a zero, its low bits. -/
def polymodPrefix (hrp : List Char) : UInt32 :=
  let chk : UInt32 := hrp.foldl (fun chk (c : Char) => polymodTake chk (c.val >>> 5)) 1
  let chk := polymodStep chk
  hrp.foldl (fun chk (c : Char) => polymodTake chk (c.val &&& 0x1f)) chk

/-- A character that a prefix may have. -/
def isPrefixChar (c : Char) : Bool := 33 ≤ c.toNat && c.toNat ≤ 126

/-- The six words of a checksum. -/
def checksumWords (hrp : List Char) (words : List UInt8) : List UInt8 :=
  let chk := (List.range 6).foldl (fun chk _ => polymodStep chk)
    (polymodWords (polymodPrefix hrp) words)
  let chk := chk ^^^ encodingConst
  (List.range 6).map fun i => ((chk >>> UInt32.ofNat (5 * (5 - i))) &&& 31).toUInt8

/-- The character of a word. -/
def wordChar (w : UInt8) : Char := bech32Alphabet.getD w.toNat 'q'

/-- The six symbols that complete a text. -/
def checksum (hrp : List Char) (words : List UInt8) : Except RecipientError (List Char) :=
  if hrp.all isPrefixChar then .ok ((checksumWords hrp words).map wordChar)
  else .error (.invalidPrefix (String.ofList hrp))

/-- The text is complete. -/
def checksumValid (hrp : List Char) (words : List UInt8) : Bool :=
  polymodWords (polymodPrefix hrp) words = encodingConst

/-! ## Words and bytes -/

/-- The words above the `pos % 5` low bits of a buffer. -/
def emitWords (carry : UInt32) : (pos : ℕ) → List UInt8
  | pos + 5 => ((carry >>> UInt32.ofNat pos) &&& 0x1f).toUInt8 :: emitWords carry pos
  | _ => []

/-- The last word is filled up with zero bits. -/
def bytesToWordsFrom (carry : UInt32) (pos : ℕ) : List UInt8 → List UInt8
  | [] => if 0 < pos then [((carry <<< UInt32.ofNat (5 - pos)) &&& 0x1f).toUInt8] else []
  | n :: rest =>
      let carry := (carry <<< 8) ||| n.toUInt32
      let left := (pos + 8) % 5
      emitWords carry (pos + 8) ++
        bytesToWordsFrom (carry &&& ((1 <<< UInt32.ofNat left) - 1)) left rest

/-- Bytes in groups of five bits. -/
def bytesToWords (bytes : List UInt8) : List UInt8 := bytesToWordsFrom 0 0 bytes

/-- The bytes above the `pos % 8` low bits of a buffer. -/
def emitBytes (carry : UInt32) : (pos : ℕ) → List UInt8
  | pos + 8 => ((carry >>> UInt32.ofNat pos) &&& 0xff).toUInt8 :: emitBytes carry pos
  | _ => []

/-- What is left over has to be fewer than five bits, all zero. -/
def wordsToBytesFrom (carry : UInt32) (pos : ℕ) :
    List UInt8 → Except RecipientError (List UInt8)
  | [] => if 5 ≤ pos ∨ carry ≠ 0 then .error .nonCanonicalPadding else .ok []
  | w :: rest => do
      let carry := (carry <<< 5) ||| w.toUInt32
      let left := (pos + 5) % 8
      let out ← wordsToBytesFrom (carry &&& ((1 <<< UInt32.ofNat left) - 1)) left rest
      .ok (emitBytes carry (pos + 5) ++ out)

/-- Groups of five bits as bytes, with padding of zeros. -/
def wordsToBytes (words : List UInt8) : Except RecipientError (List UInt8) :=
  wordsToBytesFrom 0 0 words

/-! ## The codec -/

/-- What stands before and after the last `c`. -/
def splitAtLast (c : Char) : List Char → Option (List Char × List Char)
  | [] => none
  | d :: rest =>
      match splitAtLast c rest with
      | some (before, after) => some (d :: before, after)
      | none => if d = c then some ([], rest) else none

section Codec
variable (unicode : CasePair)

/-- Encode bytes of any number. -/
def bech32EncodeNoLimit (hrp : String) (bytes : List UInt8) : Except RecipientError String :=
  if hrp.toList = [] then .error .emptyPrefix
  else do
    let words := bytesToWords bytes
    let lowered := toLowercase unicode.toCaseTable hrp.toList
    let check ← checksum lowered words
    .ok (String.ofList (lowered ++ '1' :: words.map wordChar ++ check))

/-- The words of data characters. -/
def dataWords (data : List Char) : Option (List UInt8) :=
  data.mapM fun c => (bech32Alphabet.idxOf? c).map UInt8.ofNat

/-- The separator is the last `1`. -/
def bech32DecodeNoLimit (input : String) : Except RecipientError (String × List UInt8) :=
  if input.toList = [] then .error .emptyString
  else
    let hasLower := input.toList ≠ toUppercase unicode input.toList
    let hasUpper := input.toList ≠ toLowercase unicode.toCaseTable input.toList
    if hasLower ∧ hasUpper then .error .mixedCase
    else
      match splitAtLast '1' (toLowercase unicode.toCaseTable input.toList) with
      | none => .error .missingPrefix
      | some (hrp, data) =>
          if hrp = [] then .error .missingPrefix
          else if (utf8Bytes (String.ofList data)).length < 6 then .error .dataTooShort
          else if hrp.all isPrefixChar = false then .error .invalidPrefixCharacter
          else
            match dataWords data with
            | none => .error .invalidDataCharacter
            | some words =>
                if checksumValid hrp words = false then .error .badChecksum
                else (wordsToBytes (words.take (words.length - 6))).map fun bytes =>
                  (String.ofList hrp, bytes)

/-! ## Recipients -/

/-- The prefix of a classical recipient. -/
def x25519Hrp : String := "age"

/-- The prefix of a hybrid recipient. -/
def xWingHrp : String := "age1pqc"

def x25519PublicKeyBytes : ℕ := 32

def xWingPublicKeyBytes : ℕ := 1216

/-- The key encapsulation of a recipient. -/
inductive RecipientKem
  | x25519
  | mlKem768X25519
  deriving DecidableEq

/-- A public key with its kind. -/
structure ParsedAgeRecipient where
  kem : RecipientKem
  publicKey : List UInt8
  deriving DecidableEq

/-- The text of a classical public key. -/
def encodeAgeX25519Recipient (publicKey : List UInt8) : Except RecipientError String :=
  if publicKey.length ≠ x25519PublicKeyBytes then .error .x25519KeyLength
  else bech32EncodeNoLimit unicode x25519Hrp publicKey

/-- The text of a hybrid public key. -/
def encodeAgeXWingRecipient (publicKey : List UInt8) : Except RecipientError String :=
  if publicKey.length ≠ xWingPublicKeyBytes then .error .xWingKeyLength
  else bech32EncodeNoLimit unicode xWingHrp publicKey

/-- The key of a recipient, by the prefix of its string. -/
def parseAgeRecipient (recipient : String) : Except RecipientError ParsedAgeRecipient := do
  let (hrp, bytes) ← bech32DecodeNoLimit unicode (trim recipient)
  if hrp = x25519Hrp then
    if bytes.length ≠ x25519PublicKeyBytes then .error .parsedX25519KeyLength
    else .ok ⟨.x25519, bytes⟩
  else if hrp = xWingHrp then
    if bytes.length ≠ xWingPublicKeyBytes then .error .parsedXWingKeyLength
    else .ok ⟨.mlKem768X25519, bytes⟩
  else .error (.unrecognizedPrefix hrp)

end Codec

end Label309
