import Label309.PoeStandard.ErrorCode
import Label309.Bytes
import Label309.Lib.BigEndian
import Label309.Lib.ByteReader

/-!
# Position-aware CBOR walker

Transaction slicing, the transaction-reference integrity binding, auxiliary-data
unwrapping and chunk-array reassembly, all over the raw bytes as fetched. Offsets
are natural numbers and slices are spans of the input; nothing is re-encoded.
-/
namespace Label309
open BigEndian

/-- A carriage-layer rejection. -/
structure CarriageError where
  code : ErrorCode
  message : String
  deriving DecidableEq, Repr

namespace CarriageError

def malformed (message : String) : CarriageError := ⟨.malformedCbor, message⟩

def chunkTooLarge (message : String) : CarriageError := ⟨.chunkTooLarge, message⟩

/-- The error as it is displayed. -/
def display (e : CarriageError) : String := e.code.code ++ ": " ++ e.message

end CarriageError

/-- The CBOR tag of the keyed-map auxiliary-data form. -/
def cardanoAuxDataTag : ℕ := 259

/-- The metadata label of a record. -/
def poeLabel : ℕ := 309

/-- The ledger's cap on a metadata string. -/
def transportChunkMaxBytes : ℕ := 64

/-- A decoded head: major type, additional information, the offset where the
payload begins, and the argument. -/
structure CborHead where
  mt : ℕ
  ai : ℕ
  payloadStart : ℕ
  valueU64 : ℕ
  deriving DecidableEq, Repr

/-- The bytes of `data` from `start` up to `stop`. -/
def slice (data : List UInt8) (start stop : ℕ) : List UInt8 := (data.drop start).take (stop - start)

/-- The `len` bytes at `p` as a big-endian argument. -/
def headArgument (bytes : List UInt8) (p len : ℕ) (message : String) : Except CarriageError ℕ :=
  if p + len ≤ bytes.length then .ok (ofBe (slice bytes p (p + len)))
  else .error (.malformed message)

/-- Read one head at `pos`, rejecting indefinite and reserved encodings. -/
def readHead (bytes : List UInt8) (pos : ℕ) : Except CarriageError CborHead := do
  match bytes[pos]? with
  | none => .error (.malformed "truncated input (no head byte)")
  | some head =>
      let mt := (head >>> 5).toNat
      let ai := (head &&& 0x1F).toNat
      let p := pos + 1
      if ai < 24 then .ok ⟨mt, ai, p, ai⟩
      else if ai = 24 then do
        let value ← headArgument bytes p 1 "truncated 1-byte argument"
        .ok ⟨mt, ai, p + 1, value⟩
      else if ai = 25 then do
        let value ← headArgument bytes p 2 "truncated 2-byte argument"
        .ok ⟨mt, ai, p + 2, value⟩
      else if ai = 26 then do
        let value ← headArgument bytes p 4 "truncated 4-byte argument"
        .ok ⟨mt, ai, p + 4, value⟩
      else if ai = 27 then do
        let value ← headArgument bytes p 8 "truncated 8-byte argument"
        .ok ⟨mt, ai, p + 8, value⟩
      else if ai = 31 then
        .error (.malformed "indefinite-length encoding (ai=31) not allowed")
      else .error (.malformed s!"reserved additional info ai={ai}")

/-- Apply a skip `n` times from `p`. -/
def skipTimes (skip : ℕ → Except CarriageError ℕ) : ℕ → ℕ → Except CarriageError ℕ
  | 0, p => .ok p
  | n + 1, p => do
      let p ← skip p
      skipTimes skip n p

/-- The offset past the item at `pos`, with the recursion bounded by `fuel`. Where
the bound is spent no byte is left, so the head read fails as it does here. -/
def skipItem (bytes : List UInt8) : ℕ → ℕ → Except CarriageError ℕ
  | 0, _ => .error (.malformed "truncated input (no head byte)")
  | fuel + 1, pos => do
      let h ← readHead bytes pos
      let p := h.payloadStart
      if h.mt = 0 ∨ h.mt = 1 then .ok p
      else if h.mt = 2 ∨ h.mt = 3 then
        let stop := p + h.valueU64
        if stop ≤ bytes.length then .ok stop
        else if stop < 2 ^ 64 then
          .error (.malformed ("truncated " ++ (if h.mt = 2 then "byte" else "text") ++
            " string payload"))
        else .error (.malformed "string length overflow")
      else if h.mt = 4 then skipTimes (skipItem bytes fuel) h.valueU64 p
      else if h.mt = 5 then
        skipTimes (fun p => do
          let p ← skipItem bytes fuel p
          skipItem bytes fuel p) h.valueU64 p
      else if h.mt = 6 then skipItem bytes fuel p
      else if h.mt = 7 then
        if h.ai < 24 then .ok p
        else if h.ai = 24 then
          -- The head read has already consumed the value's byte.
          if bytes.length < p + 1 then .error (.malformed "truncated simple value")
          else .ok (p + 1)
        else if h.ai = 25 ∨ h.ai = 26 ∨ h.ai = 27 then .ok p
        else .error (.malformed s!"unsupported major-7 ai={h.ai}")
      else .error (.malformed s!"unknown major type {h.mt}")

/-- The offset immediately past the item that begins at `pos`. -/
def skipCborItem (bytes : List UInt8) (pos : ℕ) : Except CarriageError ℕ :=
  skipItem bytes bytes.length pos

/-! ## Transaction slicing -/

/-- Byte-faithful slices of a fetched transaction. -/
structure TxSlices where
  txBody : List UInt8
  witnessSet : List UInt8
  auxData : Option (List UInt8)
  deriving DecidableEq, Repr

/-- Where auxiliary data begins: after `is_valid` in the four-element shape. -/
def auxDataStart (txCbor : List UInt8) (elements witnessSetEnd : ℕ) : Except CarriageError ℕ :=
  if elements = 4 then skipCborItem txCbor witnessSetEnd else .ok witnessSetEnd

/-- The exact auxiliary-data span, none for `null` or `undefined`. -/
def sliceAuxData (txCbor : List UInt8) (auxStart : ℕ) :
    Except CarriageError (Option (List UInt8)) :=
  match txCbor[auxStart]? with
  | none => .error (.malformed "truncated tx (auxiliary_data missing)")
  | some auxFirstByte =>
      if auxFirstByte = 0xf6 ∨ auxFirstByte = 0xf7 then .ok none
      else do
        let auxEnd ← skipCborItem txCbor auxStart
        .ok (some (slice txCbor auxStart auxEnd))

/-- Slice a transaction of three or four elements into its parts. -/
def sliceTx (txCbor : List UInt8) : Except CarriageError TxSlices := do
  let txHead ← readHead txCbor 0
  if txHead.mt ≠ 4 then
    .error (.malformed s!"tx CBOR is not a CBOR array (major type {txHead.mt})")
  else if txHead.valueU64 ≠ 3 ∧ txHead.valueU64 ≠ 4 then
    .error (.malformed (s!"tx CBOR array has {txHead.valueU64} elements; expected 3 " ++
      "([body, witness_set, auxiliary_data]) or 4 " ++
      "([body, witness_set, is_valid, auxiliary_data])"))
  else do
    let bodyStart := txHead.payloadStart
    let bodyEnd ← skipCborItem txCbor bodyStart
    let witnessSetEnd ← skipCborItem txCbor bodyEnd
    let auxStart ← auxDataStart txCbor txHead.valueU64 witnessSetEnd
    let auxData ← sliceAuxData txCbor auxStart
    .ok ⟨slice txCbor bodyStart bodyEnd, slice txCbor bodyEnd witnessSetEnd, auxData⟩

/-! ## Transaction-reference integrity binding -/

/-- Look for integer key 7 among `n` body entries from `pos`. -/
def findAuxiliaryDataHash (txBody : List UInt8) :
    ℕ → ℕ → Except CarriageError (Option (List UInt8))
  | 0, _ => .ok none
  | n + 1, pos => do
      let keyHead ← readHead txBody pos
      let valueStart ← skipCborItem txBody pos
      let valueEnd ← skipCborItem txBody valueStart
      if keyHead.mt = 0 ∧ keyHead.valueU64 = 7 then do
        let valueHead ← readHead txBody valueStart
        if valueHead.mt ≠ 2 then
          .error (.malformed "auxiliary_data_hash (body key 7) is not a byte string")
        else .ok (some (slice txBody valueHead.payloadStart valueEnd))
      else findAuxiliaryDataHash txBody n valueEnd

/-- The body's `auxiliary_data_hash` field, when the body has key 7. -/
def extractAuxiliaryDataHash (txBody : List UInt8) :
    Except CarriageError (Option (List UInt8)) := do
  let bodyHead ← readHead txBody 0
  if bodyHead.mt ≠ 5 then
    .error (.malformed s!"transaction body is not a CBOR map (major type {bodyHead.mt})")
  else findAuxiliaryDataHash txBody bodyHead.valueU64 bodyHead.payloadStart

/-- A failed integrity binding, with what failed. -/
structure TxBindingError where
  message : String
  deriving DecidableEq, Repr

/-- Bind fetched bytes to the requested transaction reference. -/
def bindTransaction (hashes : ContentHashes) (requestedTxHash txBody : List UInt8)
    (auxData : Option (List UInt8)) : Except TxBindingError Unit :=
  let computedTxHash := (hashes.blake2b256 txBody).val
  if computedTxHash ≠ requestedTxHash then
    .error ⟨s!"transaction-body bytes hash to {hexEncode computedTxHash}, " ++
      s!"not the requested {hexEncode requestedTxHash}"⟩
  else
    match extractAuxiliaryDataHash txBody with
    | .error e => .error ⟨s!"transaction body is unreadable: {e.display}"⟩
    | .ok committed =>
        match auxData, committed with
        | none, none => .ok ()
        | some aux, some committed =>
            let computed := (hashes.blake2b256 aux).val
            if computed = committed then .ok ()
            else .error ⟨s!"auxiliary-data bytes hash to {hexEncode computed}, " ++
              s!"not the body's auxiliary_data_hash {hexEncode committed}"⟩
        | some _, none => .error ⟨"auxiliary data is present but the verified body carries no " ++
            "auxiliary_data_hash; such a transaction cannot exist on chain"⟩
        | none, some _ => .error
            ⟨"the verified body commits to auxiliary data the response does not carry"⟩

/-! ## Auxiliary-data envelope forms -/

/-- The raw label-309 value and the ascending list of metadata labels. -/
structure UnwrappedAux where
  label309Value : Option (List UInt8)
  labels : List ℕ
  deriving DecidableEq, Repr

/-- The value offset of the last integer key 0 among `n` entries from `pos`. -/
def findKeyZero (aux : List UInt8) :
    ℕ → ℕ → Option ℕ → Except CarriageError (Option ℕ)
  | 0, _, found => .ok found
  | n + 1, pos, found => do
      let keyHead ← readHead aux pos
      let valueStart ← skipCborItem aux pos
      let valueEnd ← skipCborItem aux valueStart
      let found := if keyHead.mt = 0 ∧ keyHead.valueU64 = 0 then some valueStart else found
      findKeyZero aux n valueEnd found

/-- Where the metadata map begins in each of the three envelope forms. -/
def metadataMapPos (aux : List UInt8) (head : CborHead) : Except CarriageError (Option ℕ) :=
  if head.mt = 5 then .ok (some 0)
  else if head.mt = 4 then
    if head.valueU64 ≠ 2 then
      .error (.malformed (s!"auxiliary-data array has {head.valueU64} elements; " ++
        "the metadata-with-scripts form has exactly 2"))
    else .ok (some head.payloadStart)
  else if head.mt = 6 then
    if head.valueU64 ≠ cardanoAuxDataTag then
      .error (.malformed (s!"auxiliary data carries CBOR tag {head.valueU64}; " ++
        s!"only tag {cardanoAuxDataTag} is an auxiliary-data form"))
    else do
      let innerHead ← readHead aux head.payloadStart
      if innerHead.mt ≠ 5 then
        .error (.malformed "tag-259 auxiliary data does not wrap a map")
      else findKeyZero aux innerHead.valueU64 innerHead.payloadStart none
  else
    .error (.malformed (s!"auxiliary data has top-level major type {head.mt}; " ++
      "expected a map, an array, or tag 259"))

/-- Walk `n` metadata entries from `pos`, collecting labels and the label-309 value. -/
def walkMetadata (aux : List UInt8) :
    ℕ → ℕ → UnwrappedAux → Except CarriageError UnwrappedAux
  | 0, _, acc => .ok acc
  | n + 1, pos, acc => do
      let keyHead ← readHead aux pos
      if keyHead.mt ≠ 0 then
        .error (.malformed (s!"metadata map key has major type {keyHead.mt}; " ++
          "metadata labels are unsigned integers"))
      else do
        let key := keyHead.valueU64
        let valueStart ← skipCborItem aux pos
        let valueEnd ← skipCborItem aux valueStart
        let value :=
          if key = poeLabel then some (slice aux valueStart valueEnd) else acc.label309Value
        walkMetadata aux n valueEnd ⟨value, acc.labels ++ [key]⟩

/-- Unwrap auxiliary data down to the label-309 value. -/
def unwrapAuxiliaryData (aux : List UInt8) : Except CarriageError UnwrappedAux := do
  let head ← readHead aux 0
  let stop ← skipCborItem aux 0
  if stop ≠ aux.length then
    .error (.malformed "trailing bytes after the auxiliary-data value")
  else do
    let metadataMapPos ← metadataMapPos aux head
    match metadataMapPos with
    | none => .ok ⟨none, []⟩
    | some pos => do
        let metaHead ← readHead aux pos
        if metaHead.mt ≠ 5 then
          .error (.malformed s!"metadata is not a CBOR map (major type {metaHead.mt})")
        else do
          let walked ← walkMetadata aux metaHead.valueU64 metaHead.payloadStart ⟨none, []⟩
          .ok ⟨walked.label309Value, walked.labels.insertionSort (· ≤ ·)⟩

/-! ## Chunk-array reassembly -/

/-- Concatenate `n` chunks from `pos`; `i` is the index of the next one. -/
def readChunks (value : List UInt8) : ℕ → ℕ → ℕ → Except CarriageError (List UInt8 × ℕ)
  | 0, _, pos => .ok ([], pos)
  | n + 1, i, pos => do
      let chunkHead ← readHead value pos
      if chunkHead.mt ≠ 2 then
        .error (.malformed (s!"chunk array element {i} has major type {chunkHead.mt}; " ++
          "expected a byte string"))
      else if transportChunkMaxBytes < chunkHead.valueU64 then
        .error (.chunkTooLarge (s!"chunk array element {i} is {chunkHead.valueU64} bytes; " ++
          s!"the ledger caps metadata byte strings at {transportChunkMaxBytes}"))
      else
        let start := chunkHead.payloadStart
        let stop := start + chunkHead.valueU64
        if value.length < stop then .error (.malformed "truncated chunk payload")
        else do
          let (body, pos) ← readChunks value n (i + 1) stop
          .ok (slice value start stop ++ body, pos)

/-- Reassemble a label-309 value into the record body. -/
def reassembleLabel309Value (value : List UInt8) : Except CarriageError (List UInt8) := do
  let head ← readHead value 0
  if head.mt ≠ 4 then
    .error (.malformed (s!"label-309 value has major type {head.mt}; the whole-body chunk " ++
      "array (a CBOR array of byte strings) is required regardless of body length"))
  else do
    let (body, pos) ← readChunks value head.valueU64 0 head.payloadStart
    if pos ≠ value.length then
      .error (.malformed "trailing bytes after the chunk array")
    else .ok body

/-- The reassembled record body of raw transaction bytes, with no integrity binding. -/
def extractLabel309Metadata (txCbor : List UInt8) :
    Except CarriageError (Option (List UInt8)) := do
  let slices ← sliceTx txCbor
  match slices.auxData with
  | none => .ok none
  | some aux => do
      let unwrapped ← unwrapAuxiliaryData aux
      match unwrapped.label309Value with
      | none => .ok none
      | some value => do
          let body ← reassembleLabel309Value value
          .ok (some body)

end Label309
