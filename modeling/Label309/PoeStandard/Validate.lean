import Label309.PoeStandard.Envelope
import Label309.PoeStandard.FromCbor
import Label309.PoeStandard.SigEntryCheck
import Label309.PoeStandard.Uri

/-!
# The structural validator

The domain checks and the public entry point: decode, pre-guard, schema pass,
domain pass, result. A record passes exactly when no issue has error severity.
-/
namespace Label309

/-! ## Domain checks -/

def arrayLength (value : Option CborValue) : Option ℕ :=
  match value with
  | some (.array entries) => some entries.length
  | _ => none

/-- At least one of `items[]` and `merkle[]` is non-empty, and neither is empty. -/
def checkContentCommitmentPresence (recordMap : List (CborValue × CborValue)) :
    List ValidationIssue :=
  let itemsLen := arrayLength (mapGet recordMap "items")
  let merkleLen := arrayLength (mapGet recordMap "merkle")
  if itemsLen.getD 0 = 0 ∧ merkleLen.getD 0 = 0 then
    [issue .schemaEmptyRecord []
      "record must carry at least one of items[] or merkle[] non-empty"]
  else
    (if itemsLen = some 0 then
        [issue .schemaTypeMismatch [.key "items"] "items[] must be non-empty when present"]
      else []) ++
      if merkleLen = some 0 then
        [issue .schemaTypeMismatch [.key "merkle"] "merkle[] must be non-empty when present"]
      else []

/-- Why a `crit` entry has an invalid shape, if it has. -/
def critReason (recordMap : List (CborValue × CborValue)) (seen : List String) (name : String) :
    Option String :=
  if topLevelBaseKeys.contains name then
    some s!"'{name}' is a base key and MUST NOT appear in crit[]"
  else if !isExtensionKey name then
    some (s!"'{name}' does not match the extension-key form " ++
      "(^x-… or ^[a-z]+-…, no control characters)")
  else if !mapHas recordMap name then
    some s!"'{name}' is named in crit but absent from the record map"
  else if seen.contains name then some s!"'{name}' appears more than once in crit[]"
  else none

/-- Walk the `crit` entries with the names seen so far. -/
def critWalkIssues (recordMap : List (CborValue × CborValue)) (options : ValidatorOptions) :
    ℕ → List String → List CborValue → List ValidationIssue
  | _, _, [] => []
  | i, seen, entry :: rest =>
      match asText entry with
      | none => critWalkIssues recordMap options (i + 1) seen rest
      | some name =>
          let path : List PathSegment := [.key "crit", .index i]
          (match critReason recordMap seen name with
            | some reason => [issue .critShapeInvalid path reason]
            | none =>
                if !options.supportedCriticalExtensions.contains name then
                  [issue .extensionUnsupportedCritical path
                    s!"crit lists extension '{name}' that this validator does not implement"]
                else []) ++
            critWalkIssues recordMap options (i + 1) (name :: seen) rest

def checkCrit (recordMap : List (CborValue × CborValue)) (options : ValidatorOptions) :
    List ValidationIssue :=
  match mapGet recordMap "crit" with
  | some (.array crit) =>
      if crit.isEmpty then
        [issue .schemaTypeMismatch [.key "crit"]
          "crit[] must carry at least one entry when present"]
      else critWalkIssues recordMap options 0 [] crit
  | _ => []

/-- Registry membership and digest length of one `hashes` entry. -/
def checkHashEntry (base : List PathSegment) (entry : CborValue × CborValue) :
    List ValidationIssue :=
  match asText entry.1, asBytes entry.2 with
  | some alg, some digest =>
      match registryLookup hashAlgLengths alg with
      | none => [issue .unsupportedHashAlg (base ++ [.key alg]) s!"unknown hash alg: {alg}"]
      | some expected =>
          if digest.length ≠ expected then
            [issue .hashDigestLengthMismatch (base ++ [.key alg])
              s!"hashes['{alg}'] digest length {digest.length} != {expected}"]
          else []
  | _, _ => []

def checkItemHashes (itemMap : List (CborValue × CborValue)) (idx : ℕ) : List ValidationIssue :=
  let base : List PathSegment := [.key "items", .index idx, .key "hashes"]
  match mapGet itemMap "hashes" with
  | some (.map entries) =>
      if entries.isEmpty then
        [issue .schemaTypeMismatch base
          "hashes must be a non-empty CBOR map of <alg-id> -> <digest>"]
      else entries.flatMap (checkHashEntry base)
  | _ => []

def checkUriEntry (base : List PathSegment) (uri : CborValue) (j : ℕ) : List ValidationIssue :=
  match (asText uri).bind checkOneUri with
  | some reason => [issue .invalidUri (base ++ [.index j]) reason]
  | none => []

def checkUris (raw : Option CborValue) (base : List PathSegment) : List ValidationIssue :=
  match raw with
  | some (.array uris) =>
      if uris.isEmpty then
        [issue .schemaTypeMismatch base "uris[] must be non-empty when present"]
      else enumerateIssues uris (checkUriEntry base)
  | _ => []

def checkItem (options : ValidatorOptions) (item : CborValue) (idx : ℕ) : List ValidationIssue :=
  match asMap item with
  | none => []
  | some itemMap =>
      checkItemHashes itemMap idx ++
        checkUris (mapGet itemMap "uris") [.key "items", .index idx, .key "uris"] ++
        match mapGet itemMap "enc" with
        | none => []
        | some encRaw => checkItemEnc itemMap encRaw idx options

/-- The root length registered for the commitment algorithm. -/
def merkleRootIssues (alg : String) (root : Option (List UInt8)) (base : List PathSegment) :
    List ValidationIssue :=
  match registryLookup merkleCommitAlgLengths alg with
  | none =>
      [issue .unsupportedMerkleCommitAlg (base ++ [.key "alg"])
        s!"unknown merkle commitment alg: {alg}"]
  | some expected =>
      match root with
      | none => []
      | some root =>
          if root.length ≠ expected then
            [issue .hashDigestLengthMismatch (base ++ [.key "root"])
              s!"merkle entry root length {root.length} != {expected} for {alg}"]
          else []

/-- A `leaf_count` in `1 .. 2^32 - 1`; a negative one is a type violation. -/
def leafCountIssues (leafCount : Option CborValue) (base : List PathSegment) :
    List ValidationIssue :=
  match leafCount with
  | some (.unsigned n) =>
      if 1 ≤ n ∧ n ≤ uint32Max then []
      else [issue .schemaMerkleLeafCountInvalid (base ++ [.key "leaf_count"])
        s!"leaf_count {n} is outside the pinned range 1 .. 2^32 - 1"]
  | some (.negative _) =>
      [issue .schemaTypeMismatch (base ++ [.key "leaf_count"])
        "leaf_count must be a CBOR unsigned integer"]
  | _ => []

def checkMerkleCommit (commit : CborValue) (idx : ℕ) : List ValidationIssue :=
  let base : List PathSegment := [.key "merkle", .index idx]
  match asMap commit with
  | none => []
  | some commitMap =>
      let alg := ((mapGet commitMap "alg").bind asText).getD ""
      merkleRootIssues alg ((mapGet commitMap "root").bind asBytes) base ++
        leafCountIssues (mapGet commitMap "leaf_count") base ++
        checkUris (mapGet commitMap "uris") (base ++ [.key "uris"])

/-- Top-level keys outside the base set and both extension namespaces. -/
def checkTopLevelKeys (recordMap : List (CborValue × CborValue)) : List ValidationIssue :=
  ((textKeys recordMap).filter fun key =>
      !(topLevelBaseKeys.contains key || isExtensionKey key)).map fun key =>
    issue .schemaUnknownField [.key key] s!"unknown top-level field: {key}"

/-- A present `sigs` array is non-empty and every entry passes. -/
def checkSigs (sigs : Option CborValue) : List ValidationIssue :=
  match sigs with
  | some (.array sigs) =>
      (if sigs.isEmpty then
          [issue .schemaTypeMismatch [.key "sigs"] "sigs[] must be non-empty when present"]
        else []) ++
        enumerateIssues sigs checkSigEntry
  | _ => []

/-- The domain pass over the record map; no issue stops the walk. -/
def domainIssues (recordMap : List (CborValue × CborValue)) (options : ValidatorOptions) :
    List ValidationIssue :=
  checkContentCommitmentPresence recordMap ++ checkCrit recordMap options ++
    checkTopLevelKeys recordMap ++
    arrayIssues (mapGet recordMap "items") [] (checkItem options) ++
    arrayIssues (mapGet recordMap "merkle") [] checkMerkleCommit ++
    checkSigs (mapGet recordMap "sigs")

/-! ## Entry point -/

/-- The result of structural validation. -/
inductive ValidateResult
  | ok (record : PoeRecord) (warnings info : List ValidationIssue)
  | fail (issues : List ValidationIssue)

/-- The result when the domain pass has run on a decoded map. -/
def emitResult (decoded : CborValue) (sorted : List ValidationIssue) : ValidateResult :=
  if sorted.any fun i => i.severity == .error then .fail sorted
  else
    match recordFromCbor decoded with
    | some record =>
        .ok record (sorted.filter fun i => i.severity == .warning)
          (sorted.filter fun i => i.severity == .info)
    | none =>
        .fail [issue .schemaTypeMismatch [] "record decode produced an unexpected shape"]

/-- Structural validation of record-body bytes. -/
def validatePoeRecord (bytes : List UInt8) (options : ValidatorOptions) : ValidateResult :=
  match decodeCanonicalCbor bytes with
  | .error cause =>
      .fail [issue .malformedCbor [] s!"cbor decode failed: {cause.display}"]
  | .ok decoded =>
      let preGuard := collectNonTextKeyMapIssues decoded
      if preGuard.isEmpty = false then .fail (sortIssues preGuard)
      else
        match asMap decoded with
        | none =>
            .fail [issue .schemaTypeMismatch [] "top-level value must be a CBOR map"]
        | some recordMap =>
            let schema := schemaIssues recordMap
            if schema.isEmpty = false then .fail (sortIssues schema)
            else emitResult decoded (sortIssues (domainIssues recordMap options))

end Label309
