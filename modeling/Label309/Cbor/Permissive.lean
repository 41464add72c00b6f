import Label309.Cbor.Decode

/-!
# Permissive CBOR decoder

The tolerant reader of the outer transaction envelope: any argument width,
indefinite lengths, floats, tags and simple values. The loops of indefinite
items are bounded like the recursion, by the bytes left.
-/
namespace Label309
open BigEndian ByteReader

/-- A value of the permissive decoder. -/
inductive PermissiveValue
  | unsigned (n : UInt64)
  | negative (m : UInt64)
  | bytes (b : List UInt8)
  | text (s : String)
  | array (items : List PermissiveValue)
  | map (pairs : List (PermissiveValue × PermissiveValue))
  | tag (n : UInt64) (inner : PermissiveValue)
  | bool (b : Bool)
  | null
  | undefined
  | simple (v : UInt8)
  | float (x : Float)

/-- What one read may meet: a value, or the break of an indefinite item. -/
inductive PermissiveItem
  | value (v : PermissiveValue)
  | breakMark

/-- The value of a half-precision bit pattern. -/
def decodeF16 (bits : UInt16) : Float :=
  let sign := (bits >>> 15) &&& 0x1
  let exponent := ((bits >>> 10) &&& 0x1F).toNat
  let mantissa := (bits &&& 0x3FF).toNat
  let value :=
    if exponent = 0 then (Float.ofNat mantissa).scaleB (-24)
    else if exponent = 0x1F then
      if mantissa = 0 then Float.ofBits 0x7FF0000000000000 else Float.ofBits 0x7FF8000000000000
    else (Float.ofNat (1024 + mantissa)).scaleB (exponent - 25)
  if sign = 1 then -value else value

namespace PermissiveDecoder

/-- Read the argument for `additional` at any width. -/
def readArgument (additional : UInt8) : CborReader UInt64 :=
  if additional ≤ 23 then pure additional.toUInt64
  else if additional = 24 then do
    let v ← nextByte
    pure v.toUInt64
  else if additional = 25 then do
    let raw ← take 2
    pure (UInt64.ofNat (ofBe raw))
  else if additional = 26 then do
    let raw ← take 4
    pure (UInt64.ofNat (ofBe raw))
  else if additional = 27 then do
    let raw ← take 8
    pure (UInt64.ofNat (ofBe raw))
  else malformed "reserved additional-information value"

def readLength (additional : UInt8) : CborReader ℕ := do
  let argument ← readArgument additional
  pure argument.toNat

/-- Turn reassembled bytes into a text or byte-string value. -/
def finishString (buf : List UInt8) (isText : Bool) : CborReader PermissiveValue :=
  if isText then
    match fromUtf8 buf with
    | some s => pure (.text s)
    | none => malformed "text string is not valid UTF-8"
  else pure (.bytes buf)

/-- The chunks of an indefinite-length string up to its break. -/
def readChunks (isText : Bool) : ℕ → CborReader (List UInt8)
  | 0 => malformed "unexpected end of input"
  | fuel + 1 => do
      let initial ← nextByte
      if initial = 0xFF then pure []
      else if initial >>> 5 ≠ (if isText then 3 else 2) ∨ initial &&& 0x1F = 31 then
        malformed "invalid chunk inside an indefinite-length string"
      else do
        let len ← readLength (initial &&& 0x1F)
        let chunk ← take len
        let rest ← readChunks isText fuel
        pure (chunk ++ rest)

def readByteOrText (fuel : ℕ) (additional : UInt8) (isText : Bool) : CborReader PermissiveItem :=
  if additional = 31 then do
    let buf ← readChunks isText fuel
    let v ← finishString buf isText
    pure (.value v)
  else do
    let len ← readLength additional
    let raw ← take len
    let v ← finishString raw isText
    pure (.value v)

/-- Read one value, rejecting a stray break. -/
def asValue (readItem : CborReader PermissiveItem) : CborReader PermissiveValue := do
  let item ← readItem
  match item with
  | .value v => pure v
  | .breakMark => malformed "unexpected indefinite-length break"

/-- The items of an indefinite-length array up to its break. -/
def readItemsToBreak (readItem : CborReader PermissiveItem) :
    ℕ → CborReader (List PermissiveValue)
  | 0 => malformed "unexpected end of input"
  | fuel + 1 => do
      let item ← readItem
      match item with
      | .breakMark => pure []
      | .value v => do
          let rest ← readItemsToBreak readItem fuel
          pure (v :: rest)

def readArray (readItem : CborReader PermissiveItem) (fuel : ℕ) (additional : UInt8) :
    CborReader PermissiveItem :=
  if additional = 31 then do
    let items ← readItemsToBreak readItem fuel
    pure (.value (.array items))
  else do
    let len ← readLength additional
    let items ← repeatN (asValue readItem) len
    pure (.value (.array items))

/-- One entry of a map, in order of appearance. -/
def readPair (readItem : CborReader PermissiveItem) :
    CborReader (PermissiveValue × PermissiveValue) := do
  let key ← asValue readItem
  let value ← asValue readItem
  pure (key, value)

/-- The entries of an indefinite-length map up to its break. -/
def readPairsToBreak (readItem : CborReader PermissiveItem) :
    ℕ → CborReader (List (PermissiveValue × PermissiveValue))
  | 0 => malformed "unexpected end of input"
  | fuel + 1 => do
      let item ← readItem
      match item with
      | .breakMark => pure []
      | .value key => do
          let value ← asValue readItem
          let rest ← readPairsToBreak readItem fuel
          pure ((key, value) :: rest)

def readMap (readItem : CborReader PermissiveItem) (fuel : ℕ) (additional : UInt8) :
    CborReader PermissiveItem :=
  if additional = 31 then do
    let pairs ← readPairsToBreak readItem fuel
    pure (.value (.map pairs))
  else do
    let len ← readLength additional
    let pairs ← repeatN (readPair readItem) len
    pure (.value (.map pairs))

/-- Read a major-type-7 item. -/
def readSimple (additional : UInt8) : CborReader PermissiveItem :=
  if additional ≤ 19 then pure (.value (.simple additional))
  else if additional = 20 then pure (.value (.bool false))
  else if additional = 21 then pure (.value (.bool true))
  else if additional = 22 then pure (.value .null)
  else if additional = 23 then pure (.value .undefined)
  else if additional = 24 then do
    let v ← nextByte
    pure (.value (.simple v))
  else if additional = 25 then do
    let raw ← take 2
    pure (.value (.float (decodeF16 (UInt16.ofNat (ofBe raw)))))
  else if additional = 26 then do
    let raw ← take 4
    pure (.value (.float (Float32.ofBits (UInt32.ofNat (ofBe raw))).toFloat))
  else if additional = 27 then do
    let raw ← take 8
    pure (.value (.float (Float.ofBits (UInt64.ofNat (ofBe raw)))))
  else if additional = 31 then pure .breakMark
  else malformed "reserved additional-information value"

/-- Read the rest of an item after its header byte. -/
def readMajor (readItem : CborReader PermissiveItem) (fuel : ℕ) (major additional : UInt8) :
    CborReader PermissiveItem :=
  if major = 0 then do
    let n ← readArgument additional
    pure (.value (.unsigned n))
  else if major = 1 then do
    let m ← readArgument additional
    pure (.value (.negative m))
  else if major = 2 then readByteOrText fuel additional false
  else if major = 3 then readByteOrText fuel additional true
  else if major = 4 then readArray readItem fuel additional
  else if major = 5 then readMap readItem fuel additional
  else if major = 6 then do
    let n ← readArgument additional
    let inner ← asValue readItem
    pure (.value (.tag n inner))
  else readSimple additional

/-- Read one item, which may be a value or an indefinite-length break. -/
def readItem : ℕ → CborReader PermissiveItem
  | 0 => malformed "unexpected end of input"
  | fuel + 1 => do
      let initial ← nextByte
      readMajor (readItem fuel) fuel (initial >>> 5) (initial &&& 0x1F)

/-- Read one top-level value from any position of the input. -/
def readValue : CborReader PermissiveValue := fun data pos =>
  asValue (readItem data.length) data pos

end PermissiveDecoder

/-- Decode one item that fills the whole input, canonical or not. -/
def decodeCborPermissive (bytes : List UInt8) : Except CanonicalCborError PermissiveValue := do
  let (value, pos) ← PermissiveDecoder.readValue bytes 0
  if pos ≠ bytes.length then
    .error (.malformed "trailing bytes after the top-level item")
  else .ok value

example : decodeCborPermissive [0x9f, 0x01, 0x02, 0xff] =
    .ok (.array [.unsigned 1, .unsigned 2]) := by rfl

end Label309
