import Label309.Cbor.Decode
import Label309.Lib.ExceptBind
import Label309.Merkle
import Label309.PoeStandard.Issue
import Label309.PoeStandard.SigEntryCheck

/-!
# The leaves-list codec

The document behind a Merkle commitment: a canonical map with the format, the tree algorithm,
the root, the leaves and their number. The root is computed again from the leaves.
-/
namespace Label309
open ExceptBind

/-- The only tree. -/
def merkleAlgId : String := "rfc9162-sha256"

/-- The name of the format. -/
def leavesListFormatV1 : String := "cardano-poe-merkle-leaves-v1"

/-- Why a list is refused. -/
inductive MerkleLeavesListErrorCode
  | malformed
  | formatUnsupported
  | leafCountMismatch
  | rootMismatch
  deriving DecidableEq

def MerkleLeavesListErrorCode.code : MerkleLeavesListErrorCode → String
  | .malformed => "SCHEMA_MERKLE_LEAVES_MALFORMED"
  | .formatUnsupported => "SCHEMA_MERKLE_LEAVES_FORMAT_UNSUPPORTED"
  | .leafCountMismatch => "SCHEMA_MERKLE_LEAF_COUNT_MISMATCH"
  | .rootMismatch => "MERKLE_ROOT_MISMATCH"

/-- A rejection of the codec. -/
structure MerkleLeavesListError where
  code : MerkleLeavesListErrorCode
  detail : String
  deriving DecidableEq

def MerkleLeavesListError.toText (e : MerkleLeavesListError) : String :=
  e.code.code ++ ": " ++ e.detail

/-- A list that was read. -/
structure DecodedLeavesList where
  format : String
  treeAlg : String
  root : Digest
  leaves : List Digest
  leafCount : ℕ
  leafAlg : Option String

/-- A list of another shape. -/
def malformedLeaves {α : Type} (detail : String) : Except MerkleLeavesListError α :=
  .error ⟨.malformed, detail⟩

/-! ## Encoding -/

/-- The fields of the document, in the order they are pushed. -/
def leavesListFields (leaves : List Digest) (root : Digest) (leafAlg : Option String) :
    List (CborValue × CborValue) :=
  [(.text "format", .text leavesListFormatV1), (.text "tree_alg", .text merkleAlgId),
    (.text "root", .bytes root.val), (.text "leaves", .array (leaves.map fun l => .bytes l.val)),
    (.text "leaf_count", .unsigned (UInt64.ofNat leaves.length))] ++
    (leafAlg.map fun alg => (CborValue.text "leaf_alg", CborValue.text alg)).toList

/-- The bytes of a list with its root. -/
def encodeLeavesList (leaves : List Digest) (root : Digest) (leafAlg : Option String) :
    Except MerkleLeavesListError (List UInt8) :=
  if leaves.isEmpty then malformedLeaves "leaves must be a non-empty list"
  else
    match encodeCanonicalCbor (.map (leavesListFields leaves root leafAlg)) with
    | .ok b => .ok b
    | .error e => malformedLeaves ("canonical CBOR encode failed: " ++ e.display)

/-! ## Decoding -/

/-- A text field. -/
def leavesTextField (pairs : List (CborValue × CborValue)) (name : String) :
    Except MerkleLeavesListError String :=
  match mapGet pairs name with
  | some (.text s) => .ok s
  | _ => malformedLeaves ("`" ++ name ++ "` must be a text string")

/-- A digest, if the value is a byte string of 32 bytes. -/
def digestValue : CborValue → Option Digest
  | .bytes b => toFixed 32 b
  | _ => none

/-- The leaves from the `i`th on. -/
def decodeLeaves : (i : ℕ) → List CborValue → Except MerkleLeavesListError (List Digest)
  | _, [] => .ok []
  | i, item :: items =>
      match digestValue item with
      | none => malformedLeaves s!"`leaves[{i}]` must be a 32-byte byte string"
      | some leaf => (decodeLeaves (i + 1) items).map (leaf :: ·)

/-- The leaves of a non-empty array. -/
def leavesField (pairs : List (CborValue × CborValue)) :
    Except MerkleLeavesListError (List Digest) :=
  match mapGet pairs "leaves" with
  | some (.array (item :: items)) => decodeLeaves 0 (item :: items)
  | _ => malformedLeaves "`leaves` must be a non-empty array"

/-- The number of leaves, which must be that of the array. -/
def leafCountField (pairs : List (CborValue × CborValue)) (leaves : List Digest) :
    Except MerkleLeavesListError Unit :=
  match mapGet pairs "leaf_count" with
  | some (.unsigned n) =>
      if n.toNat ≠ leaves.length then
        .error ⟨.leafCountMismatch,
          s!"`leaf_count` ({n}) does not match number of leaves ({leaves.length})"⟩
      else .ok ()
  | _ => malformedLeaves "`leaf_count` must be a non-negative integer"

/-- The field that names the leaf digest. -/
def leafAlgField (pairs : List (CborValue × CborValue)) :
    Except MerkleLeavesListError (Option String) :=
  match mapGet pairs "leaf_alg" with
  | none => .ok none
  | some (.text s) => .ok (some s)
  | some _ => malformedLeaves "`leaf_alg` (if present) must be a text string"

section Decode
variable (sha256 : List UInt8 → Digest) (debug : String → String)

/-- The one registered format. `debug` writes a text as a quoted literal. -/
def leavesFormat (pairs : List (CborValue × CborValue)) : Except MerkleLeavesListError String := do
  let format ← leavesTextField pairs "format"
  if format = leavesListFormatV1 then .ok format
  else .error ⟨.formatUnsupported, "unsupported leaves-list format: " ++ debug format⟩

/-- The one registered tree algorithm. -/
def leavesTreeAlg (pairs : List (CborValue × CborValue)) : Except MerkleLeavesListError String := do
  let treeAlg ← leavesTextField pairs "tree_alg"
  if treeAlg = merkleAlgId then .ok treeAlg
  else malformedLeaves ("unsupported leaves-list tree_alg: " ++ debug treeAlg)

/-- The root that a list states. -/
def leavesRoot (pairs : List (CborValue × CborValue)) : Except MerkleLeavesListError Digest :=
  match (mapGet pairs "root").bind digestValue with
  | none => malformedLeaves "`root` must be a 32-byte byte string"
  | some root => .ok root

/-- The declared root is that of the leaves. -/
def checkDeclaredRoot (leaves : List Digest) (root : Digest) : Except MerkleLeavesListError Unit :=
  if rootUnchecked sha256 leaves = root then .ok ()
  else .error ⟨.rootMismatch, "leaves recompute does not match declared root"⟩

/-- Decode and check a leaves list. -/
def decodeLeavesList (bytes : List UInt8) : Except MerkleLeavesListError DecodedLeavesList :=
  match decodeCanonicalCbor bytes with
  | .error e => malformedLeaves ("CBOR decode failed: " ++ e.display)
  | .ok (.map pairs) => do
      let format ← leavesFormat debug pairs
      let treeAlg ← leavesTreeAlg debug pairs
      let root ← leavesRoot pairs
      let leaves ← leavesField pairs
      leafCountField pairs leaves
      let leafAlg ← leafAlgField pairs
      checkDeclaredRoot sha256 leaves root
      .ok { format, treeAlg, root, leaves, leafCount := leaves.length, leafAlg }
  | .ok _ => malformedLeaves "top-level must be a CBOR map"

/-- A list that is accepted has the root of its leaves and their number. -/
theorem decodeLeavesList_sound {bytes : List UInt8} {decoded : DecodedLeavesList}
    (h : decodeLeavesList sha256 debug bytes = .ok decoded) :
    rootUnchecked sha256 decoded.leaves = decoded.root ∧
      decoded.leafCount = decoded.leaves.length := by
  rw [decodeLeavesList] at h
  split at h
  · cases h
  · obtain ⟨format, -, h⟩ := bind_eq_ok.mp h
    obtain ⟨treeAlg, -, h⟩ := bind_eq_ok.mp h
    obtain ⟨root, -, h⟩ := bind_eq_ok.mp h
    obtain ⟨leaves, -, h⟩ := bind_eq_ok.mp h
    obtain ⟨-, -, h⟩ := bind_eq_ok.mp h
    obtain ⟨leafAlg, -, h⟩ := bind_eq_ok.mp h
    obtain ⟨_, hroot, h⟩ := bind_eq_ok.mp h
    by_cases hsame : rootUnchecked sha256 leaves = root
    · cases h
      exact ⟨hsame, rfl⟩
    · simp [checkDeclaredRoot, hsame] at hroot
  · cases h

end Decode

end Label309
