import Label309.PoeStandard.Registry
import Label309.PoeStandard.Schema

/-!
# The encryption envelope

The typed-vs-opaque union. Which reading applies is decided by identifier support
alone: an envelope under supported identifiers is held to the full scheme-1 rules,
any other is opaque and only bounded.
-/
namespace Label309

/-! ## Scheme-1 shape -/

/-- Non-text keys at the interior map positions: slots, passphrase block, its params. -/
def encInternalNonTextKeyIssues (encMap : List (CborValue × CborValue))
    (encPath : List PathSegment) : List ValidationIssue :=
  arrayIssues (mapGet encMap "slots") []
      (fun slot j =>
        if isNonTextKeyMap slot then [nonTextKeyIssue (encPath ++ [.key "slots", .index j])]
        else []) ++
    match mapGet encMap "passphrase" with
    | none => []
    | some passphrase =>
        if isNonTextKeyMap passphrase then [nonTextKeyIssue (encPath ++ [.key "passphrase"])]
        else
          match asMap passphrase with
          | none => []
          | some ppMap =>
              if (mapGet ppMap "params").any isNonTextKeyMap then
                [nonTextKeyIssue (encPath ++ [.key "passphrase", .key "params"])]
              else []

def encKeys : List String :=
  ["scheme", "aead", "kem", "nonce", "slots", "slots_mac", "passphrase"]

def passphraseKeys : List String := ["alg", "salt", "params"]

/-- Only the CBOR types of the slot fields: which of them are required depends on
the envelope's KEM. -/
def slotTypeIssues (slotsBase : List PathSegment) (slot : CborValue) (j : ℕ) :
    List ValidationIssue :=
  let slotPath := slotsBase ++ [.index j]
  match asMap slot with
  | none => [issue .encSlotInvalidShape slotPath "recipient slot must be a CBOR map"]
  | some slotMap =>
      slotKeyUniverse.flatMap fun field =>
        fieldIssues (mapGet slotMap field) [] isBytes
          [issue .encSlotInvalidShape (slotPath ++ [.key field])
            s!"slot.{field} must be a CBOR byte string"]

def slotsMacIssues (slotsMac : Option CborValue) (path : List PathSegment) :
    List ValidationIssue :=
  match slotsMac with
  | none => []
  | some (.bytes mac) =>
      if mac.length ≠ 32 then
        [issue .encSlotsMacInvalidLength path s!"slots_mac length {mac.length} != 32"]
      else []
  | some _ => [issue .schemaTypeMismatch path "enc.slots_mac must be a CBOR byte string"]

def saltIssues (salt : Option CborValue) (path : List PathSegment) : List ValidationIssue :=
  match salt with
  | none =>
      [issue .schemaTypeMismatch path
        "passphrase.salt must be a CBOR byte string of 16..64 bytes"]
  | some (.bytes salt) =>
      if salt.length < 16 then
        [issue .encPassphraseSaltTooShort path s!"passphrase.salt length {salt.length} < 16"]
      else if salt.length > 64 then
        [issue .encPassphraseSaltTooLong path s!"passphrase.salt length {salt.length} > 64"]
      else []
  | some _ => [issue .schemaTypeMismatch path "passphrase.salt must be a CBOR byte string"]

def passphraseSchemaIssues (passphrase : Option CborValue) (ppPath : List PathSegment) :
    List ValidationIssue :=
  match passphrase with
  | none => []
  | some passphrase =>
      match asMap passphrase with
      | none => [issue .schemaTypeMismatch ppPath "enc.passphrase must be a CBOR map"]
      | some ppMap =>
          fieldIssues (mapGet ppMap "alg")
              [issue .schemaMissingRequired (ppPath ++ [.key "alg"]) "passphrase.alg is required"]
              isText
              [issue .schemaTypeMismatch (ppPath ++ [.key "alg"])
                "passphrase.alg must be a text string"] ++
            saltIssues (mapGet ppMap "salt") (ppPath ++ [.key "salt"]) ++
            fieldIssues (mapGet ppMap "params")
              [issue .schemaMissingRequired (ppPath ++ [.key "params"])
                "passphrase.params is required"]
              isMap
              [issue .schemaTypeMismatch (ppPath ++ [.key "params"])
                "passphrase.params must be a CBOR map"] ++
            unknownKeyIssues ppMap passphraseKeys fun key =>
              issue .schemaUnknownField (ppPath ++ [.key key])
                s!"unrecognized key '{key}' in passphrase block"

/-- The closed scheme-1 shape; any issue forecloses the key-path rules. -/
def encScheme1SchemaIssues (encMap : List (CborValue × CborValue))
    (encPath : List PathSegment) : List ValidationIssue :=
  fieldIssues (mapGet encMap "aead")
      [issue .schemaMissingRequired (encPath ++ [.key "aead"]) "enc.aead is required"]
      isText
      [issue .schemaTypeMismatch (encPath ++ [.key "aead"]) "enc.aead must be a text string"] ++
    fieldIssues (mapGet encMap "kem") [] isText
      [issue .schemaTypeMismatch (encPath ++ [.key "kem"]) "enc.kem must be a text string"] ++
    fieldIssues (mapGet encMap "nonce")
      [issue .schemaMissingRequired (encPath ++ [.key "nonce"]) "enc.nonce is required"]
      isBytes
      [issue .schemaTypeMismatch (encPath ++ [.key "nonce"])
        "enc.nonce must be a CBOR byte string"] ++
    arrayIssues (mapGet encMap "slots")
      [issue .schemaTypeMismatch (encPath ++ [.key "slots"]) "enc.slots must be a CBOR array"]
      (slotTypeIssues (encPath ++ [.key "slots"])) ++
    slotsMacIssues (mapGet encMap "slots_mac") (encPath ++ [.key "slots_mac"]) ++
    passphraseSchemaIssues (mapGet encMap "passphrase") (encPath ++ [.key "passphrase"]) ++
    unknownKeyIssues encMap encKeys fun key =>
      issue .schemaUnknownField (encPath ++ [.key key])
        s!"unrecognized key '{key}' in a supported enc envelope"

/-! ## Scheme-1 rules -/

/-- The length check of a required byte field of a slot. -/
def slotFieldIssues (slotMap : List (CborValue × CborValue)) (field kem : String)
    (slotPath : List PathSegment) (check : List UInt8 → List ValidationIssue) :
    List ValidationIssue :=
  match (mapGet slotMap field).bind asBytes with
  | none =>
      [issue .encSlotInvalidShape (slotPath ++ [.key field])
        s!"slot for kem='{kem}' is missing required '{field}'"]
  | some b => check b

/-- The KEM's field and `wrap` at their exact lengths, and nothing else. -/
def checkSlotShape (slotMap : List (CborValue × CborValue)) (descriptor : KemSlotDescriptor)
    (kem : String) (slotPath : List PathSegment) : List ValidationIssue :=
  let field := descriptor.field
  let foreignField := if field = "epk" then "kem_ct" else "epk"
  (if mapHas slotMap foreignField then
      [issue .encSlotInvalidShape (slotPath ++ [.key foreignField])
        s!"slot carries '{foreignField}' but kem='{kem}' expects '{field}'"]
    else []) ++
    (unknownKeyIssues slotMap slotKeyUniverse fun key =>
      issue .encSlotInvalidShape (slotPath ++ [.key key])
        (s!"slot carries unexpected key '{key}'; a slot is a 2-key map \x7b{field}, wrap" ++
          "\x7d")) ++
    slotFieldIssues slotMap field kem slotPath
      (fun ctField =>
        if ctField.length ≠ descriptor.fieldLength then
          [issue descriptor.fieldLengthCode (slotPath ++ [.key field])
            s!"slot.{field} length {ctField.length} != {descriptor.fieldLength} for {kem}"]
        else []) ++
    slotFieldIssues slotMap "wrap" kem slotPath fun wrap =>
      if wrap.length ≠ descriptor.wrapLength then
        [issue .wrapLengthMismatch (slotPath ++ [.key "wrap"])
          s!"slot.wrap length {wrap.length} != {descriptor.wrapLength}"]
      else []

/-- Walk the slots with the KEM material seen so far. -/
def slotWalkIssues (descriptor : KemSlotDescriptor) (kem : String)
    (slotsPath : List PathSegment) : ℕ → List (List UInt8) → List CborValue → List ValidationIssue
  | _, _, [] => []
  | j, seen, slot :: rest =>
      let slotPath := slotsPath ++ [.index j]
      match asMap slot with
      | none => slotWalkIssues descriptor kem slotsPath (j + 1) seen rest
      | some slotMap =>
          checkSlotShape slotMap descriptor kem slotPath ++
            match (mapGet slotMap descriptor.field).bind asBytes with
            | none => slotWalkIssues descriptor kem slotsPath (j + 1) seen rest
            | some material =>
                (if seen.contains material then
                    [issue .encSlotsDuplicateKemMaterial (slotPath ++ [.key descriptor.field])
                      (s!"slot {j} {descriptor.field} duplicates an earlier slot — " ++
                        "per-slot KEK uniqueness is violated")]
                  else []) ++
                  slotWalkIssues descriptor kem slotsPath (j + 1) (material :: seen) rest

/-- The slot-count bound comes before any slot is walked. -/
def slotsIssues (slots : Option CborValue) (kem : Option String) (options : ValidatorOptions)
    (slotsPath : List PathSegment) : List ValidationIssue :=
  match slots with
  | some (.array slots) =>
      if slots.isEmpty then
        [issue .encSlotsEmpty slotsPath "slots[] must carry at least one slot"]
      else if slots.length > options.maxSlots then
        [issue .encSlotsTooMany slotsPath
          s!"slots length {slots.length} exceeds the slot-count bound {options.maxSlots}"]
      else
        match kem.bind kemSlotDescriptor with
        | none => []
        | some descriptor => slotWalkIssues descriptor (kem.getD "") slotsPath 0 [] slots
  | _ => []

def Argon2ParamsCeiling.bound (ceiling : Argon2ParamsCeiling) (name : String) : UInt64 :=
  if name = "m" then ceiling.m else if name = "t" then ceiling.t else ceiling.p

/-- One Argon2id parameter: an exact 32-bit integer between its floor and the ceiling. -/
def argon2ParamIssues (params : List (CborValue × CborValue)) (path : List PathSegment)
    (ceiling : Option Argon2ParamsCeiling) (name : String) (floor : UInt64) :
    List ValidationIssue :=
  match mapGet params name with
  | none => [issue .schemaMissingRequired path s!"argon2id params.{name} is required"]
  | some (.unsigned value) =>
      if value > uint32Max then
        [issue .schemaTypeMismatch path
          s!"argon2id params.{name} exceeds the pinned wire range 0 .. 2^32 - 1"]
      else if value < floor then
        [issue .encPassphraseArgon2ParamsTooLow path s!"argon2id requires {name} >= {floor}"]
      else
        match ceiling with
        | none => []
        | some ceiling =>
            let max := ceiling.bound name
            if value > max then
              [issue .encPassphraseParamsExceedPolicy path
                s!"argon2id params.{name} = {value} exceeds the deployment ceiling {max}"]
            else []
  | some _ =>
      [issue .schemaTypeMismatch path
        s!"argon2id params.{name} must be a CBOR unsigned integer"]

/-- The registered KDF with its closed parameter map. -/
def checkPassphraseBlock (ppMap : List (CborValue × CborValue)) (ppPath : List PathSegment)
    (options : ValidatorOptions) : List ValidationIssue :=
  let alg := ((mapGet ppMap "alg").bind asText).getD ""
  if passphraseKdfAlgs.contains alg = false then
    [issue .encPassphraseAlgUnsupported (ppPath ++ [.key "alg"])
      s!"unknown passphrase kdf alg: {alg}"]
  else
    let paramsPath := ppPath ++ [.key "params"]
    match mapGet ppMap "params" with
    | some (.map params) =>
        (unknownKeyIssues params ["m", "t", "p"] fun key =>
            issue .schemaUnknownField (paramsPath ++ [.key key])
              s!"unknown argon2id params field: {key}") ++
          argon2Floors.flatMap fun entry =>
            argon2ParamIssues params (paramsPath ++ [.key entry.1])
              options.passphraseParamsCeiling entry.1 entry.2
    | _ => []

/-- The nonce length registered for the content format. -/
def nonceIssues (nonce : Option CborValue) (aead : String) (encPath : List PathSegment) :
    List ValidationIssue :=
  match registryLookup aeadNonceLengths aead, nonce.bind asBytes with
  | some expected, some nonce =>
      if nonce.length ≠ expected then
        [issue .nonceLengthMismatch (encPath ++ [.key "nonce"])
          s!"nonce length {nonce.length} != {expected} for {aead}"]
      else []
  | _, _ => []

/-- The cross-field rules on which key path the envelope carries. -/
def keyPathIssues (hasSlots hasSlotsMac hasPassphrase hasKem : Bool)
    (encPath : List PathSegment) : List ValidationIssue :=
  (if hasPassphrase && (hasSlots || hasSlotsMac || hasKem) then
      [issue .encExclusivityViolation encPath
        ("enc.passphrase is mutually exclusive with kem / slots / slots_mac; " ++
          "exactly one key path is allowed")]
    else []) ++
    (if hasSlots && !hasSlotsMac then
      [issue .encSlotsMacRequired encPath "enc.slots present but enc.slots_mac absent"]
    else []) ++
    (if hasSlotsMac && !hasSlots then
      [issue .encSlotsRequired encPath "enc.slots_mac present but enc.slots absent"]
    else []) ++
    (if hasSlots && !hasKem then
      [issue .encKemRequired encPath "enc.slots present but enc.kem absent"]
    else []) ++
    if !hasSlots && !hasPassphrase then
      [issue .encNoKeyPath encPath
        "enc requires either slots or passphrase — no on-chain key path otherwise"]
    else []

def checkScheme1Envelope (encMap : List (CborValue × CborValue)) (encPath : List PathSegment)
    (options : ValidatorOptions) : List ValidationIssue :=
  let aead := ((mapGet encMap "aead").bind asText).getD ""
  let kem := (mapGet encMap "kem").bind asText
  nonceIssues (mapGet encMap "nonce") aead encPath ++
    keyPathIssues (mapHas encMap "slots") (mapHas encMap "slots_mac")
      (mapHas encMap "passphrase") kem.isSome encPath ++
    slotsIssues (mapGet encMap "slots") kem options (encPath ++ [.key "slots"]) ++
    match (mapGet encMap "passphrase").bind asMap with
    | none => []
    | some ppMap => checkPassphraseBlock ppMap (encPath ++ [.key "passphrase"]) options

/-! ## The dispatch -/

/-- An identifier that is text and not supported. -/
def unsupportedName (field : String) (code : ErrorCode) (value : Option CborValue)
    (supported : String → Bool) : List (String × ErrorCode × String) :=
  match value with
  | some (.text id) => if supported id then [] else [(field, code, id)]
  | _ => []

/-- The identifiers outside the implemented set: field, code and spelling. -/
def unsupportedIdentifiers (scheme : UInt64) (kem aead : Option CborValue) :
    List (String × ErrorCode × String) :=
  (if scheme ≠ 1 then [("scheme", .unsupportedEnvelopeScheme, toString scheme)] else []) ++
    unsupportedName "kem" .unsupportedKemAlg kem (fun kem => (kemSlotDescriptor kem).isSome) ++
    unsupportedName "aead" .unsupportedAeadAlg aead fun aead =>
      (registryLookup aeadNonceLengths aead).isSome

/-- The opaque reading: informational in the public role, co-firing errors otherwise. -/
def encUnsupportedIssues (unsupported : List (String × ErrorCode × String))
    (encPath : List PathSegment) (role : ValidatorRole) : List ValidationIssue :=
  let named := ", ".intercalate (unsupported.map fun entry => s!"{entry.1}={entry.2.2}")
  let message :=
    s!"envelope uses identifiers this implementation does not support ({named}); " ++
      "the envelope is opaque and only the content-hash claim is validated"
  match role with
  | .recipientOrStrict =>
      { path := encPath, code := .encUnsupported, severity := .error, message := message } ::
        unsupported.map fun entry =>
          issue entry.2.1 (encPath ++ [.key entry.1])
            s!"enc.{entry.1} '{entry.2.2}' is not supported"
  | .publicRole =>
      [{ path := encPath, code := .encUnsupported, severity := .info, message := message }]

/-- Whether a `hashes` value names at least one registered algorithm. -/
def hasContentHash : Option CborValue → Bool
  | some (.map pairs) =>
      pairs.any fun entry =>
        match entry.1 with
        | .text alg => (registryLookup hashAlgLengths alg).isSome
        | _ => false
  | _ => false

/-- The envelope past its scheme: forbidden cipher, opaque reading, or typed rules. -/
def checkEncReading (encMap : List (CborValue × CborValue)) (scheme : UInt64)
    (encPath : List PathSegment) (options : ValidatorOptions) : List ValidationIssue :=
  let aead := mapGet encMap "aead"
  match aead.bind asText with
  | some cipher =>
      if isUnauthenticatedCipher cipher then
        [issue .unauthenticatedCipherForbidden (encPath ++ [.key "aead"])
          (s!"'{cipher}' is an unauthenticated cipher; " ++
            "Label 309 mandates an authenticated (AEAD) cipher")]
      else identifierIssues aead
  | none => identifierIssues aead
where
  identifierIssues (aead : Option CborValue) : List ValidationIssue :=
    let unsupported := unsupportedIdentifiers scheme (mapGet encMap "kem") aead
    if unsupported.isEmpty = false then encUnsupportedIssues unsupported encPath options.role
    else
      let internal := encInternalNonTextKeyIssues encMap encPath
      if internal.isEmpty = false then internal
      else
        let parse := encScheme1SchemaIssues encMap encPath
        if parse.isEmpty = false then parse
        else checkScheme1Envelope encMap encPath options

/-- The canonical bytes of the envelope stay within the resource bound. -/
def envelopeSizeIssues (rawEnc : CborValue) (encPath : List PathSegment)
    (options : ValidatorOptions) : List ValidationIssue :=
  match encodeCanonicalCbor rawEnc with
  | .ok envelopeBytes =>
      if envelopeBytes.length > options.maxEncEnvelopeBytes then
        [issue .encEnvelopeTooLarge encPath
          (s!"decoded envelope is {envelopeBytes.length} bytes; " ++
            s!"the resource bound is {options.maxEncEnvelopeBytes}")]
      else []
  | .error _ => []

def checkItemEnc (itemMap : List (CborValue × CborValue)) (rawEnc : CborValue) (idx : ℕ)
    (options : ValidatorOptions) : List ValidationIssue :=
  let encPath : List PathSegment := [.key "items", .index idx, .key "enc"]
  (if hasContentHash (mapGet itemMap "hashes") then []
    else [issue .encRequiresContentHash encPath
      ("item carries `enc` but `hashes` has no registered content-hash entry " ++
        "(sha2-256 or blake2b-256)")]) ++
    match asMap rawEnc with
    | none => [issue .schemaTypeMismatch encPath "enc must be a CBOR map"]
    | some encMap =>
        envelopeSizeIssues rawEnc encPath options ++
          match mapGet encMap "scheme" with
          | none =>
              [issue .schemaMissingRequired (encPath ++ [.key "scheme"]) "enc.scheme is required"]
          | some (.unsigned scheme) => checkEncReading encMap scheme encPath options
          | some _ =>
              [issue .schemaTypeMismatch (encPath ++ [.key "scheme"])
                "enc.scheme must be a CBOR unsigned integer"]

end Label309
