import Label309.Cbor.Encode
import Label309.PoeStandard.ErrorCode
import Label309.Lib.SortByKey

/-!
# Validation issues

Issues with their paths and their order, the validator's options, and the accessors
the checkers read a decoded map through.
-/
namespace Label309
open SortByKey

/-! ## Options -/

/-- The reading of an envelope under unsupported identifiers: informational in the
public role, an error in the recipient role. -/
inductive ValidatorRole
  | publicRole
  | recipientOrStrict
  deriving DecidableEq

/-- An upper policy ceiling on Argon2id work factors. -/
structure Argon2ParamsCeiling where
  m : UInt64
  t : UInt64
  p : UInt64

def defaultPassphraseParamsCeiling : Argon2ParamsCeiling := { m := 2097152, t := 16, p := 8 }

structure ValidatorOptions where
  supportedCriticalExtensions : List String
  role : ValidatorRole
  maxSlots : ℕ
  maxEncEnvelopeBytes : ℕ
  passphraseParamsCeiling : Option Argon2ParamsCeiling

/-- The default options: no critical extension supported, the public reading. -/
def ValidatorOptions.default : ValidatorOptions where
  supportedCriticalExtensions := []
  role := .publicRole
  maxSlots := 1024
  maxEncEnvelopeBytes := 65536
  passphraseParamsCeiling := some defaultPassphraseParamsCeiling

/-! ## Issues -/

/-- A step of an issue path: a text map key or an array index. -/
inductive PathSegment
  | key (s : String)
  | index (i : ℕ)
  deriving DecidableEq

structure ValidationIssue where
  path : List PathSegment
  code : ErrorCode
  severity : Severity
  message : String
  deriving DecidableEq

/-- An issue at the severity of its code. -/
def issue (code : ErrorCode) (path : List PathSegment) (message : String) : ValidationIssue where
  path := path
  code := code
  severity := code.severity
  message := message

/-- Integer segments numerically, text by UTF-8 bytes, an integer before a text. -/
def compareSegments : PathSegment → PathSegment → Ordering
  | .index x, .index y => compare x y
  | .index _, .key _ => .lt
  | .key _, .index _ => .gt
  | .key x, .key y => compare (utf8Bytes x) (utf8Bytes y)

/-- Segment by segment, a strict prefix before its extensions. -/
def comparePaths : List PathSegment → List PathSegment → Ordering
  | [], [] => .eq
  | [], _ :: _ => .lt
  | _ :: _, [] => .gt
  | a :: as, b :: bs => (compareSegments a b).then (comparePaths as bs)

/-- By path, then by the position of the code in the registry. -/
def compareIssues (a b : ValidationIssue) : Ordering :=
  (comparePaths a.path b.path).then (compare a.code.registryIndex b.code.registryIndex)

def sortIssues (issues : List ValidationIssue) : List ValidationIssue :=
  sortBy compareIssues id issues

/-- No issue fails the record. -/
def NoErrors (issues : List ValidationIssue) : Prop := ∀ i ∈ issues, i.severity ≠ .error

@[simp] theorem noErrors_nil : NoErrors [] := by simp [NoErrors]

@[simp] theorem noErrors_append {as bs : List ValidationIssue} :
    NoErrors (as ++ bs) ↔ NoErrors as ∧ NoErrors bs := by
  simp [NoErrors, or_imp, forall_and]

@[simp] theorem noErrors_flatMap {α : Type*} {l : List α} {f : α → List ValidationIssue} :
    NoErrors (l.flatMap f) ↔ ∀ a ∈ l, NoErrors (f a) := by
  simp only [NoErrors, List.mem_flatMap]
  exact ⟨fun h a ha i hi => h i ⟨a, ha, hi⟩, fun h i ⟨a, ha, hi⟩ => h a ha i hi⟩

@[simp] theorem noErrors_issue {code : ErrorCode} {path : List PathSegment} {message : String} :
    NoErrors [issue code path message] ↔ code.severity ≠ .error := by
  simp [NoErrors, issue]

@[simp] theorem noErrors_sortIssues {issues : List ValidationIssue} :
    NoErrors (sortIssues issues) ↔ NoErrors issues := by
  simp [NoErrors, sortIssues]

/-! ## Map accessors -/

def asMap : CborValue → Option (List (CborValue × CborValue))
  | .map pairs => some pairs
  | _ => none

/-- The value of the first entry with this text key. -/
def mapGet : List (CborValue × CborValue) → String → Option CborValue
  | [], _ => none
  | (.text t, v) :: pairs, key => if t = key then some v else mapGet pairs key
  | _ :: pairs, key => mapGet pairs key

def mapHas (pairs : List (CborValue × CborValue)) (key : String) : Bool := (mapGet pairs key).isSome

def asBytes : CborValue → Option (List UInt8)
  | .bytes b => some b
  | _ => none

def asText : CborValue → Option String
  | .text t => some t
  | _ => none

/-- The map's text keys, in order. -/
def textKeys (pairs : List (CborValue × CborValue)) : List String :=
  pairs.filterMap fun p => asText p.1

/-- A map with at least one key that is not text. -/
def isNonTextKeyMap : CborValue → Bool
  | .map pairs => pairs.any fun p => (asText p.1).isNone
  | _ => false

end Label309
