import Label309.Cbor.Encode
import Label309.Lib.ByteReader

/-!
# Strict canonical CBOR decoder

One pass over the input, enforcing every canonical rule as it reads. Recursion
is bounded by the number of bytes left, which no run of the decoder exceeds:
where the bound is spent there is no byte left, so the next read fails as the
decoder's own read of a byte would.
-/
namespace Label309
open BigEndian ByteReader

/-- A reader of the canonical or the permissive decoder. -/
abbrev CborReader := ByteReader CanonicalCborError

/-- Fail with a `malformed` error. -/
def malformed {α : Type} (message : String) : CborReader α := ByteReader.fail (.malformed message)

/-- Read the next byte. -/
def nextByte : CborReader UInt8 := ByteReader.byte (.malformed "unexpected end of input")

/-- Take `len` raw bytes. The end offset is a 64-bit machine word. -/
def take (len : ℕ) : CborReader (List UInt8) := fun data pos =>
  if pos + len ≤ data.length then .ok ((data.drop pos).take len, pos + len)
  else if pos + len < 2 ^ 64 then .error (.malformed "truncated item")
  else .error (.malformed "length overflows the input")

/-- Read the argument for `additional`, enforcing the shortest form. -/
def readArgument (additional : UInt8) : CborReader UInt64 :=
  if additional ≤ 23 then pure additional.toUInt64
  else if additional = 24 then do
    let v ← nextByte
    if v ≤ 23 then malformed "non-shortest integer encoding (1-byte argument < 24)"
    else pure v.toUInt64
  else if additional = 25 then do
    let raw ← take 2
    if UInt64.ofNat (ofBe raw) ≤ 0xFF then
      malformed "non-shortest integer encoding (2-byte argument fits in fewer bytes)"
    else pure (UInt64.ofNat (ofBe raw))
  else if additional = 26 then do
    let raw ← take 4
    if UInt64.ofNat (ofBe raw) ≤ 0xFFFF then
      malformed "non-shortest integer encoding (4-byte argument fits in fewer bytes)"
    else pure (UInt64.ofNat (ofBe raw))
  else if additional = 27 then do
    let raw ← take 8
    if UInt64.ofNat (ofBe raw) ≤ 0xFFFFFFFF then
      malformed "non-shortest integer encoding (8-byte argument fits in fewer bytes)"
    else pure (UInt64.ofNat (ofBe raw))
  else if additional = 31 then
    ByteReader.fail (.indefiniteLength "indefinite-length item is not canonical")
  else malformed "reserved additional-information value"

/-- Read a length argument; every 64-bit argument is a length on the platform. -/
def readLength (additional : UInt8) : CborReader ℕ := do
  let argument ← readArgument additional
  pure argument.toNat

/-- Read a major-type-7 value, accepting only `false`, `true` and `null`. -/
def readSimple (additional : UInt8) : CborReader CborValue :=
  if additional = 20 then pure (.bool false)
  else if additional = 21 then pure (.bool true)
  else if additional = 22 then pure .null
  else if additional = 23 then
    malformed "the `undefined` simple value is not valid in a canonical record"
  else if additional = 24 then
    malformed "simple values other than false/true/null are not permitted"
  else if 25 ≤ additional ∧ additional ≤ 27 then
    malformed "floats are not permitted in a canonical record"
  else if additional = 31 then
    ByteReader.fail (.indefiniteLength "indefinite-length break is not a value")
  else malformed "unassigned or reserved simple value"

/-- Require the next encoded key to come strictly after the previous one. -/
def checkKeyOrder (prev : Option (List UInt8)) (keyBytes : List UInt8) : CborReader Unit :=
  match prev with
  | none => pure ()
  | some prev =>
      match compareEncodedKeys prev keyBytes with
      | .lt => pure ()
      | .eq => malformed "duplicate map key"
      | .gt => malformed "map keys are not in canonical order"

/-- Read `n` entries whose encoded keys strictly increase from `prev`. -/
def readEntries (readItem : CborReader CborValue) :
    ℕ → Option (List UInt8) → CborReader (List (CborValue × CborValue))
  | 0, _ => pure []
  | n + 1, prev => do
      let (key, keyBytes) ← withSpan readItem
      checkKeyOrder prev keyBytes
      let value ← readItem
      let pairs ← readEntries readItem n (some keyBytes)
      pure ((key, value) :: pairs)

/-- Read the rest of an item after its header byte. -/
def readMajor (readItem : CborReader CborValue) (major additional : UInt8) : CborReader CborValue :=
  if major = 0 then do
    let n ← readArgument additional
    pure (.unsigned n)
  else if major = 1 then do
    let m ← readArgument additional
    pure (.negative m)
  else if major = 2 then do
    let len ← readLength additional
    let raw ← take len
    pure (.bytes raw)
  else if major = 3 then do
    let len ← readLength additional
    let raw ← take len
    match fromUtf8 raw with
    | some s => pure (.text s)
    | none => malformed "text string is not valid UTF-8"
  else if major = 4 then do
    let len ← readLength additional
    let items ← repeatN readItem len
    pure (.array items)
  else if major = 5 then do
    let len ← readLength additional
    let pairs ← readEntries readItem len none
    pure (.map pairs)
  else if major = 6 then malformed "tags are not permitted in canonical CBOR"
  else readSimple additional

/-- Read one complete value. -/
def readValue : ℕ → CborReader CborValue
  | 0 => malformed "unexpected end of input"
  | fuel + 1 => do
      let initial ← nextByte
      readMajor (readValue fuel) (initial >>> 5) (initial &&& 0x1F)

/-- Strictly decode one canonical item that fills the whole input. -/
def decodeCanonicalCbor (bytes : List UInt8) : Except CanonicalCborError CborValue := do
  let (value, pos) ← readValue bytes.length bytes 0
  if pos ≠ bytes.length then
    .error (.malformed "trailing bytes after the top-level item")
  else .ok value

example : decodeCanonicalCbor [0xa1, 0x61, 0x61, 0x81, 0x18, 0x18] =
    .ok (.map [(.text "a", .array [.unsigned 24])]) := by rfl

end Label309
