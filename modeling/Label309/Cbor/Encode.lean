import Label309.Cbor.Value
import Label309.Lib.BigEndian
import Label309.Lib.SortByKey

/-!
# Canonical CBOR encoder

Shortest-form heads, definite lengths, and map entries sorted by their encoded
keys. Keys are encoded before the sort and values after it, as the encoder does,
so the first error met is the one returned.
-/
namespace Label309
open BigEndian SortByKey

/-- The header byte: major type in the top three bits. -/
def writeHeader (major additional : UInt8) : UInt8 := (major <<< 5) ||| additional

/-- A major-type header with its argument in the fewest bytes. -/
def writeTypeAndArgument (major : UInt8) (argument : UInt64) : List UInt8 :=
  if argument ≤ 23 then [writeHeader major argument.toUInt8]
  else if argument ≤ 0xFF then writeHeader major 24 :: toBe 1 argument.toNat
  else if argument ≤ 0xFFFF then writeHeader major 25 :: toBe 2 argument.toNat
  else if argument ≤ 0xFFFFFFFF then writeHeader major 26 :: toBe 4 argument.toNat
  else writeHeader major 27 :: toBe 8 argument.toNat

/-- Bytewise-lexicographic comparison of two fully encoded map keys. -/
def compareEncodedKeys (a b : List UInt8) : Ordering := compare a b

instance : Std.TransCmp compareEncodedKeys :=
  inferInstanceAs (Std.TransCmp (compare : List UInt8 → List UInt8 → Ordering))

instance : Std.LawfulEqCmp compareEncodedKeys :=
  inferInstanceAs (Std.LawfulEqCmp (compare : List UInt8 → List UInt8 → Ordering))

/-- An encoded key with the encoding of its value, not yet demanded. -/
abbrev EncodedEntry := List UInt8 × Except CanonicalCborError (List UInt8)

/-- Whether two neighbours of the sorted entries have byte-identical keys. -/
def hasAdjacentDuplicate : List EncodedEntry → Bool
  | a :: b :: rest => a.1 == b.1 || hasAdjacentDuplicate (b :: rest)
  | _ => false

/-- Emit sorted entries, each value encoded as it is reached. -/
def emitEntries : List EncodedEntry → Except CanonicalCborError (List UInt8)
  | [] => .ok []
  | (keyBytes, val) :: rest => do
      let valBytes ← val
      let body ← emitEntries rest
      .ok (keyBytes ++ valBytes ++ body)

/-- Sort by encoded key, reject duplicates, then write the header and entries. -/
def writeMap (encoded : List EncodedEntry) : Except CanonicalCborError (List UInt8) := do
  let sorted := sortBy compareEncodedKeys Prod.fst encoded
  if hasAdjacentDuplicate sorted then
    .error (.malformed "map contains a duplicate key")
  else
    let body ← emitEntries sorted
    .ok (writeTypeAndArgument 5 sorted.length.toUInt64 ++ body)

mutual

/-- The canonical bytes of one value. -/
def writeValue : CborValue → Except CanonicalCborError (List UInt8)
  | .unsigned n => .ok (writeTypeAndArgument 0 n)
  | .negative m => .ok (writeTypeAndArgument 1 m)
  | .bytes b => .ok (writeTypeAndArgument 2 b.length.toUInt64 ++ b)
  | .text s => .ok (writeTypeAndArgument 3 (utf8Bytes s).length.toUInt64 ++ utf8Bytes s)
  | .array items => do
      let body ← writeItems items
      .ok (writeTypeAndArgument 4 items.length.toUInt64 ++ body)
  | .map pairs => do
      let encoded ← encodeKeys pairs
      writeMap encoded
  | .bool false => .ok [writeHeader 7 20]
  | .bool true => .ok [writeHeader 7 21]
  | .null => .ok [writeHeader 7 22]

/-- The items of an array, in order. -/
def writeItems : List CborValue → Except CanonicalCborError (List UInt8)
  | [] => .ok []
  | item :: items => do
      let head ← writeValue item
      let body ← writeItems items
      .ok (head ++ body)

/-- Encode every key of a map once. -/
def encodeKeys : List (CborValue × CborValue) → Except CanonicalCborError (List EncodedEntry)
  | [] => .ok []
  | (key, val) :: pairs => do
      let keyBytes ← writeValue key
      let rest ← encodeKeys pairs
      .ok ((keyBytes, writeValue val) :: rest)

end

/-- Encode a value to its canonical bytes. -/
def encodeCanonicalCbor (value : CborValue) : Except CanonicalCborError (List UInt8) :=
  writeValue value

example : encodeCanonicalCbor (.map [(.text "b", .unsigned 1), (.text "a", .unsigned 2)]) =
    .ok [0xa2, 0x61, 0x61, 0x02, 0x61, 0x62, 0x01] := by rfl

end Label309
