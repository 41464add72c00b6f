import Label309.PoeStandard.Issue

/-!
# Schema pass

The pre-guard for non-text map keys at the typed positions, then the closed-shape
gate: per-field CBOR types, the `v` literal and closed-map strictness. Any issue of
either forecloses the domain checks. A checker is the list of the issues it pushes.
-/
namespace Label309

/-! ## Checks that many fields share -/

def isText (value : CborValue) : Bool := (asText value).isSome

def isBytes (value : CborValue) : Bool := (asBytes value).isSome

def isMap (value : CborValue) : Bool := (asMap value).isSome

def isInteger : CborValue → Bool
  | .unsigned _ | .negative _ => true
  | _ => false

def isLiteralOne : CborValue → Bool
  | .unsigned n => n == 1
  | _ => false

/-- The issues of one field: `missing` when it is absent, `mismatch` when its value
fails the test. -/
def fieldIssues (value : Option CborValue) (missing : List ValidationIssue)
    (accepts : CborValue → Bool) (mismatch : List ValidationIssue) : List ValidationIssue :=
  match value with
  | none => missing
  | some v => if accepts v then [] else mismatch

/-- Check every element with its index. -/
def enumerateIssues (entries : List CborValue) (check : CborValue → ℕ → List ValidationIssue) :
    List ValidationIssue :=
  entries.zipIdx.flatMap fun entry => check entry.1 entry.2

/-- The issues of an optional array field: `mismatch` when it is not an array. -/
def arrayIssues (value : Option CborValue) (mismatch : List ValidationIssue)
    (check : CborValue → ℕ → List ValidationIssue) : List ValidationIssue :=
  match value with
  | none => []
  | some (.array entries) => enumerateIssues entries check
  | some _ => mismatch

/-- One issue for every text key outside a closed key set. -/
def unknownKeyIssues (pairs : List (CborValue × CborValue)) (known : List String)
    (flag : String → ValidationIssue) : List ValidationIssue :=
  ((textKeys pairs).filter fun key => !known.contains key).map flag

/-! ## Pre-guard -/

/-- A key of a map is not a text. -/
def nonTextKeyIssue (path : List PathSegment) : ValidationIssue :=
  issue .schemaTypeMismatch path
    "CBOR map carries a non-text key where a text-keyed map is required"

/-- The pre-guard on one array entry; only an item's maps are looked into. -/
def entryNonTextKeyIssues (field : String) (entry : CborValue) (i : ℕ) : List ValidationIssue :=
  if isNonTextKeyMap entry then [nonTextKeyIssue [.key field, .index i]]
  else if field ≠ "items" then []
  else
    match asMap entry with
    | none => []
    | some itemMap =>
        ["hashes", "enc"].flatMap fun sub =>
          if (mapGet itemMap sub).any isNonTextKeyMap then
            [nonTextKeyIssue [.key field, .index i, .key sub]]
          else []

/-- The pre-guard over the record root and its typed arrays. -/
def collectNonTextKeyMapIssues (decoded : CborValue) : List ValidationIssue :=
  if isNonTextKeyMap decoded then [nonTextKeyIssue []]
  else
    match asMap decoded with
    | none => []
    | some recordMap =>
        ["items", "merkle", "sigs"].flatMap fun field =>
          arrayIssues (mapGet recordMap field) [] (entryNonTextKeyIssues field)

/-! ## Closed shapes -/

/-- The issues of one URI. -/
def schemaUriEntryIssues (base : List PathSegment) (uri : CborValue) (j : ℕ) :
    List ValidationIssue :=
  if isText uri then []
  else [issue .schemaTypeMismatch (base ++ [.index j]) "uris[] entry must be a single text string"]

/-- The issues of a list of URIs. -/
def schemaUrisIssues (raw : Option CborValue) (base : List PathSegment) : List ValidationIssue :=
  arrayIssues raw
    [issue .schemaTypeMismatch base "uris must be a CBOR array of text strings"]
    (schemaUriEntryIssues base)

/-- The keys of an item. -/
def itemKeys : List String := ["hashes", "uris", "enc"]

/-- The digests of a `hashes` map are byte strings. -/
def schemaHashesIssues (hashes : Option CborValue) (base : List PathSegment) :
    List ValidationIssue :=
  match hashes with
  | none => [issue .schemaMissingRequired base "item is missing required 'hashes'"]
  | some (.map pairs) =>
      pairs.flatMap fun entry =>
        match entry.1 with
        | .text alg =>
            if isBytes entry.2 then []
            else [issue .schemaTypeMismatch (base ++ [.key alg])
              s!"hashes['{alg}'] digest must be a CBOR byte string"]
        | _ => []
  | some _ => [issue .schemaTypeMismatch base "hashes must be a CBOR map"]

/-- The issues of an item. -/
def schemaItemIssues (entry : CborValue) (i : ℕ) : List ValidationIssue :=
  let base : List PathSegment := [.key "items", .index i]
  match asMap entry with
  | none => [issue .schemaTypeMismatch base "items[] entry must be a CBOR map"]
  | some itemMap =>
      schemaHashesIssues (mapGet itemMap "hashes") (base ++ [.key "hashes"]) ++
        schemaUrisIssues (mapGet itemMap "uris") (base ++ [.key "uris"]) ++
        unknownKeyIssues itemMap itemKeys fun key =>
          issue .schemaUnknownField (base ++ [.key key])
            s!"unrecognized key '{key}' in items[] entry"

/-- The keys of a commitment. -/
def merkleKeys : List String := ["alg", "root", "leaf_count", "uris"]

/-- The issues of a commitment. -/
def schemaMerkleIssues (entry : CborValue) (i : ℕ) : List ValidationIssue :=
  let base : List PathSegment := [.key "merkle", .index i]
  match asMap entry with
  | none => [issue .schemaTypeMismatch base "merkle[] entry must be a CBOR map"]
  | some commitMap =>
      fieldIssues (mapGet commitMap "alg")
          [issue .schemaMissingRequired (base ++ [.key "alg"])
            "merkle entry is missing required 'alg'"]
          isText
          [issue .schemaTypeMismatch (base ++ [.key "alg"])
            "merkle entry 'alg' must be a text string"] ++
        fieldIssues (mapGet commitMap "root")
          [issue .schemaMissingRequired (base ++ [.key "root"])
            "merkle entry is missing required 'root'"]
          isBytes
          [issue .schemaTypeMismatch (base ++ [.key "root"])
            "merkle entry 'root' must be a CBOR byte string"] ++
        -- A missing count and one of another type are the same violation here.
        fieldIssues (mapGet commitMap "leaf_count")
          [issue .schemaTypeMismatch (base ++ [.key "leaf_count"])
            "merkle entry 'leaf_count' must be a CBOR integer"]
          isInteger
          [issue .schemaTypeMismatch (base ++ [.key "leaf_count"])
            "merkle entry 'leaf_count' must be a CBOR integer"] ++
        schemaUrisIssues (mapGet commitMap "uris") (base ++ [.key "uris"]) ++
        unknownKeyIssues commitMap merkleKeys fun key =>
          issue .schemaUnknownField (base ++ [.key key])
            s!"unrecognized key '{key}' in merkle[] entry"

/-- The keys of a signature. -/
def sigEntryKeys : List String := ["cose_sign1", "cose_key"]

/-- The issues of a signature. -/
def schemaSigIssues (entry : CborValue) (i : ℕ) : List ValidationIssue :=
  let base : List PathSegment := [.key "sigs", .index i]
  match asMap entry with
  | none =>
      [issue .sigEntryInvalidShape base
        "sigs[] entry must be the closed map \x7bcose_sign1, ? cose_key\x7d"]
  | some entryMap =>
      fieldIssues (mapGet entryMap "cose_sign1")
          [issue .sigEntryInvalidShape (base ++ [.key "cose_sign1"])
            "sigs[] entry is missing required 'cose_sign1'"]
          isBytes
          [issue .sigEntryInvalidShape (base ++ [.key "cose_sign1"])
            "sigs[i].cose_sign1 must be a single CBOR byte string"] ++
        fieldIssues (mapGet entryMap "cose_key") [] isBytes
          [issue .sigEntryInvalidShape (base ++ [.key "cose_key"])
            "sigs[i].cose_key must be a single CBOR byte string"] ++
        unknownKeyIssues entryMap sigEntryKeys fun key =>
          issue .sigEntryInvalidShape (base ++ [.key key])
            s!"sigs[] entry carries unrecognized key '{key}'"

/-- A 32-byte `supersedes`, the one length the schema pass can check alone. -/
def schemaSupersedesIssues (supersedes : Option CborValue) : List ValidationIssue :=
  match supersedes with
  | none => []
  | some (.bytes b) =>
      if b.length = 32 then []
      else [issue .supersedesTxInvalidLength [.key "supersedes"]
        s!"supersedes length {b.length} != 32"]
  | some _ =>
      [issue .schemaTypeMismatch [.key "supersedes"] "supersedes must be a CBOR byte string"]

/-- The issues of a critical extension. -/
def schemaCritEntryIssues (entry : CborValue) (i : ℕ) : List ValidationIssue :=
  if isText entry then []
  else [issue .schemaTypeMismatch [.key "crit", .index i] "crit entry must be a text string"]

/-- The closed-shape gate over the decoded record map. -/
def schemaIssues (recordMap : List (CborValue × CborValue)) : List ValidationIssue :=
  fieldIssues (mapGet recordMap "v")
      [issue .schemaMissingRequired [.key "v"] "missing required field 'v'"]
      isLiteralOne
      [issue .schemaInvalidLiteral [.key "v"] "v must be the literal 1"] ++
    arrayIssues (mapGet recordMap "items")
      [issue .schemaTypeMismatch [.key "items"] "items must be a CBOR array"]
      schemaItemIssues ++
    arrayIssues (mapGet recordMap "merkle")
      [issue .schemaTypeMismatch [.key "merkle"] "merkle must be a CBOR array"]
      schemaMerkleIssues ++
    schemaSupersedesIssues (mapGet recordMap "supersedes") ++
    arrayIssues (mapGet recordMap "sigs")
      [issue .schemaTypeMismatch [.key "sigs"] "sigs must be a CBOR array"]
      schemaSigIssues ++
    arrayIssues (mapGet recordMap "crit")
      [issue .schemaTypeMismatch [.key "crit"] "crit must be a CBOR array of text strings"]
      schemaCritEntryIssues

end Label309
