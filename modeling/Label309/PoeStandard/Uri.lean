import Label309.PoeStandard.Registry

/-!
# Storage URIs

The `ar://` and `ipfs://` profile with its offline CID parse, on the UTF-8 bytes
of the URI. `checkOneUri` gives the reason a URI is refused.
-/
namespace Label309

/-! ## Multibase -/

/-- A digit of one case. -/
def hexDigitOf (b : UInt8) (upper : Bool) : Option UInt8 :=
  if 48 ≤ b ∧ b ≤ 57 then some (b - 48)
  else if 97 ≤ b ∧ b ≤ 102 ∧ upper = false then some (b - 97 + 10)
  else if 65 ≤ b ∧ b ≤ 70 ∧ upper = true then some (b - 65 + 10)
  else none

def base16Pairs (upper : Bool) : List UInt8 → Option (List UInt8)
  | hi :: lo :: rest => do
      let h ← hexDigitOf hi upper
      let l ← hexDigitOf lo upper
      let out ← base16Pairs upper rest
      some (((h <<< 4) ||| l) :: out)
  | _ => some []

/-- Decode pairs of digits of one case. -/
def decodeBase16 (s : List UInt8) (upper : Bool) : Option (List UInt8) :=
  if s.length % 2 ≠ 0 then none else base16Pairs upper s

/-- The digits of base32 in one case. -/
def base32Alphabet (upper : Bool) : List UInt8 :=
  if upper then utf8Bytes "ABCDEFGHIJKLMNOPQRSTUVWXYZ234567"
  else utf8Bytes "abcdefghijklmnopqrstuvwxyz234567"

/-- Consume five bits a digit, emitting a byte whenever eight are buffered. -/
def base32Digits (alphabet : List UInt8) : UInt32 → ℕ → List UInt8 → Option (List UInt8)
  | _, _, [] => some []
  | buf, bits, ch :: rest => do
      let idx ← alphabet.idxOf? ch
      let buf := (buf <<< 5) ||| UInt32.ofNat idx
      if bits + 5 ≥ 8 then
        let out ← base32Digits alphabet buf (bits + 5 - 8) rest
        some ((buf >>> UInt32.ofNat (bits + 5 - 8)).toUInt8 :: out)
      else base32Digits alphabet buf (bits + 5) rest

/-- Trailing padding is accepted and ignored. -/
def decodeBase32 (s : List UInt8) (upper : Bool) : Option (List UInt8) :=
  base32Digits (base32Alphabet upper) 0 0 ((s.reverse.dropWhile (· == 61)).reverse)

/-- The digits of base58. -/
def base58Alphabet : List UInt8 :=
  utf8Bytes "123456789ABCDEFGHJKLMNPQRSTUVWXYZabcdefghijkmnopqrstuvwxyz"

/-- Multiply a number by 58 and add `carry`, least significant byte first,
touching the first `length` bytes and those the carry reaches. -/
def base58Step (length : ℕ) : ℕ → ℕ → List UInt8 → List UInt8 × ℕ
  | _, k, [] => ([], k)
  | carry, k, b :: rest =>
      if carry ≠ 0 ∨ k < length then
        let sum := carry + 58 * b.toNat
        let (rest', k') := base58Step length (sum / 256) (k + 1) rest
        (UInt8.ofNat (sum % 256) :: rest', k')
      else (b :: rest, k)

def base58Digits : List UInt8 × ℕ → List UInt8 → Option (List UInt8 × ℕ)
  | acc, [] => some acc
  | (b256, length), ch :: rest => do
      let carry ← base58Alphabet.idxOf? ch
      base58Digits (base58Step length carry 0 b256) rest

/-- Decode base58 with its leading zeros. -/
def decodeBase58btc (s : List UInt8) : Option (List UInt8) :=
  if s.isEmpty then some []
  else do
    let zeros := (s.takeWhile (· == 49)).length
    let size := (s.length - zeros) * 733 / 1000 + 1
    let (b256, length) ← base58Digits (List.replicate size 0, 0) (s.drop zeros)
    let digits := (b256.take length).reverse.dropWhile (· == 0)
    some (List.replicate zeros 0 ++ digits)

/-- Decode by the prefix that names the base. -/
def decodeMultibase (mbPrefix : UInt8) (body : List UInt8) : Option (List UInt8) :=
  if mbPrefix = 98 then decodeBase32 body false
  else if mbPrefix = 66 then decodeBase32 body true
  else if mbPrefix = 102 then decodeBase16 body false
  else if mbPrefix = 70 then decodeBase16 body true
  else if mbPrefix = 122 then decodeBase58btc body
  else none

/-! ## The CID profile -/

/-- Read a varint with its bytes least significant first, at most five of them. -/
def readVarintFrom : UInt64 → ℕ → ℕ → List UInt8 → Option (UInt64 × ℕ)
  | _, _, _, [] => none
  | value, shift, i, b :: rest =>
      let value := value ||| ((b &&& 0x7f).toUInt64 <<< UInt64.ofNat shift)
      if b &&& 0x80 = 0 then some (value, i + 1)
      else if shift + 7 > 28 then none
      else readVarintFrom value (shift + 7) (i + 1) rest

/-- A variable-length integer from this index on. -/
def readVarint (bytes : List UInt8) (start : ℕ) : Option (UInt64 × ℕ) :=
  readVarintFrom 0 0 start (bytes.drop start)

/-- `<version> <codec> <multihash code> <digest length>` and exactly the digest. -/
def validateCidBody (bytes : List UInt8) : Option Bool := do
  let (version, pos) ← readVarint bytes 0
  if version ≠ 1 then none
  let (codec, pos) ← readVarint bytes pos
  if codec ≠ 0x55 ∧ codec ≠ 0x70 ∧ codec ≠ 0x71 then none
  let (mhCode, pos) ← readVarint bytes pos
  let (digestLen, pos) ← readVarint bytes pos
  if mhCode ≠ 0x12 ∧ mhCode ≠ 0xb220 then none
  if digestLen ≠ 32 then none
  some (pos + digestLen.toNat == bytes.length)

/-- Whether a CID conforms to the profile: a base58btc sha2-256 multihash behind
`Qm`, else a version-1 CID in one of the five multibase forms. -/
def validateCidProfile (cid : List UInt8) : Bool :=
  if (utf8Bytes "Qm").isPrefixOf cid then
    match decodeBase58btc cid with
    | some decoded => decoded.length == 34 && decoded[0]? == some 0x12 && decoded[1]? == some 0x20
    | none => false
  else
    match cid with
    | [] => false
    | mbPrefix :: body =>
        match decodeMultibase mbPrefix body with
        | some bytes => !decide (bytes.length < 4) && (validateCidBody bytes).getD false
        | none => false

/-! ## URIs -/

def isAsciiAlphabetic (b : UInt8) : Bool := (65 ≤ b && b ≤ 90) || (97 ≤ b && b ≤ 122)

def isAsciiAlphanumeric (b : UInt8) : Bool := isAsciiAlphabetic b || (48 ≤ b && b ≤ 57)

/-- The scheme grammar: a letter, then letters, digits, `+`, `.` and `-`. -/
def isUriScheme (scheme : List UInt8) : Bool :=
  match scheme with
  | [] => false
  | first :: rest =>
      isAsciiAlphabetic first &&
        rest.all fun b => isAsciiAlphanumeric b || b == 43 || b == 46 || b == 45

/-- The body of an `ar://` URI: 43 base64url characters. -/
def isArweaveTxid (rest : List UInt8) : Bool :=
  rest.length == 43 && rest.all fun b => isAsciiAlphanumeric b || b == 95 || b == 45

/-- Why a URI is refused, if it is. Only the scheme is case-folded. -/
def checkOneUri (uri : String) : Option String :=
  let bytes := utf8Bytes uri
  if bytes.contains 35 then
    some "URI contains a fragment identifier ('#'), which is forbidden"
  else
    match findSubslice bytes (utf8Bytes "://") with
    | none => some "URI is not absolute (missing scheme://hierarchical-part)"
    | some sepIdx =>
        if sepIdx = 0 ∨ isUriScheme (bytes.take sepIdx) = false then
          some "URI is not absolute (missing scheme://hierarchical-part)"
        else
          let scheme := (bytes.take sepIdx).map toAsciiLowercase
          let rest := bytes.drop (sepIdx + 3)
          if scheme = utf8Bytes "ar" then
            if isArweaveTxid rest then none
            else some ("ar:// URI does not match `^ar://[A-Za-z0-9_-]\x7b43\x7d$` " ++
              "(43-char base64url txid, no path/query/fragment)")
          else if scheme = utf8Bytes "ipfs" then
            if validateCidProfile (rest.takeWhile (· != 47)) then none
            else some "ipfs:// URI is not a valid CID under the Label 309 profile"
          else some "unsupported URI scheme; v1 PoE URI set is \x7bar://, ipfs://\x7d"

example : checkOneUri "ar://abcdefghijklmnopqrstuvwxyz0123456789ABCDE-_" = none := by decide

example : (checkOneUri "https://example.org/").isSome := by decide

end Label309
