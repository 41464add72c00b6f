import Label309.Text.Recipient
import Label309.Text.HexDigits

/-!
# The text of an identity seed

A seed is shown as a bech32 text in uppercase. It is read from such a text in either case, and from
64 hex digits, in which white space is skipped.
-/
namespace Label309
open Lowercase

/-- The prefix of the text, with its hyphen. -/
def identitySeedHrp : String := "l309-seed-"

def identitySeedLength : ℕ := 32

def seedHexDigits : ℕ := 64

inductive SeedEncodingError
  | invalidSeedLength (length : ℕ)
  | mixedCase
  | badChecksum
  | wrongHrp (hrp : String)
  | hexLength (digits : ℕ)
  | payloadLength (length : ℕ)
  | unrecognized
  /-- The code panics. -/
  | panicked
  deriving DecidableEq

/-- The code of an error, the same in every implementation. -/
def SeedEncodingError.code : SeedEncodingError → String
  | .invalidSeedLength _ => "INVALID_SEED_LENGTH"
  | .mixedCase => "SEED_STRING_MIXED_CASE"
  | .badChecksum => "SEED_STRING_BAD_CHECKSUM"
  | .wrongHrp _ => "SEED_STRING_WRONG_HRP"
  | .hexLength _ => "SEED_STRING_WRONG_LENGTH"
  | .payloadLength _ => "SEED_STRING_WRONG_LENGTH"
  | .unrecognized => "SEED_STRING_UNRECOGNIZED"
  | .panicked => ""

/-- What is behind an optional `0x`. -/
def stripHexPrefix : List Char → List Char
  | '0' :: 'x' :: rest => rest
  | '0' :: 'X' :: rest => rest
  | compact => compact

/-- A text without white space and without an optional `0x`. -/
def hexBody (input : String) : List Char :=
  stripHexPrefix (input.toList.filter fun c => !isWhitespace c)

/-- A text that is taken for hex. -/
def IsHex (input : String) : Prop := hexBody input ≠ [] ∧ (hexBody input).all isAsciiHexDigit = true

instance : DecidablePred IsHex := by
  unfold IsHex
  infer_instance

section Seed
variable (unicode : CasePair)

def encodeIdentitySeed (seed : List UInt8) : Except SeedEncodingError String :=
  if seed.length ≠ identitySeedLength then .error (.invalidSeedLength seed.length)
  else
    match bech32EncodeNoLimit unicode identitySeedHrp seed with
    | .ok lowercase => .ok (String.ofList (lowercase.toList.map Char.toUpper))
    | .error _ => .error .panicked

/-- A seed of hex digits. -/
def parseHexSeed (digits : List Char) : Except SeedEncodingError (FixedBytes identitySeedLength) :=
  if digits.length ≠ seedHexDigits then .error (.hexLength digits.length)
  else
    match hexDecode (String.ofList digits) with
    | .ok bytes => (toFixed identitySeedLength bytes).elim (.error .panicked) .ok
    | .error _ => .error .panicked

/-- A seed of a bech32 text. A text that claims to be one gets errors of its own. -/
def parseBech32Seed (candidate : String) :
    Except SeedEncodingError (FixedBytes identitySeedLength) :=
  let claimed := "l309-seed-1".toList.isPrefixOf (candidate.toList.map Char.toLower)
  let hasAsciiLower := candidate.toList.any Char.isLower
  let hasAsciiUpper := candidate.toList.any Char.isUpper
  if claimed && hasAsciiLower && hasAsciiUpper then .error .mixedCase
  else
    match bech32DecodeNoLimit unicode candidate with
    | .ok (hrp, payload) =>
        if hrp ≠ identitySeedHrp then .error (.wrongHrp hrp)
        else (toFixed identitySeedLength payload).elim (.error (.payloadLength payload.length)) .ok
    | .error _ => if claimed then .error .badChecksum else .error .unrecognized

/-- Hex first, then bech32 without the white space around. -/
def parseIdentitySeed (input : String) :
    Except SeedEncodingError (FixedBytes identitySeedLength) :=
  if IsHex input then parseHexSeed (hexBody input) else parseBech32Seed unicode (trim input)

end Seed

end Label309
