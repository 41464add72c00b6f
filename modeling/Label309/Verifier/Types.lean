import Label309.PoeStandard.Issue
import Label309.PoeStandard.Record

/-!
# Report types

The issues of a run with their order, the verdict and the profiles, and the outcome for every
claim of a record.
-/
namespace Label309
open SortByKey

/-! ## Verdict and profile -/

inductive Verdict
  | valid
  | pending
  | unverifiable
  | failed
  deriving DecidableEq

/-- The process exit code of a verdict. -/
def Verdict.exitCode : Verdict → ℕ
  | .valid => 0
  | .failed => 1
  | .unverifiable => 2
  | .pending => 3

/-- The conformance profiles, each a superset of those before it. -/
inductive Profile
  | core
  | signed
  | sealed
  | recipientSealed
  deriving DecidableEq

def Profile.rank : Profile → ℕ
  | .core => 0
  | .signed => 1
  | .sealed => 2
  | .recipientSealed => 3

def Profile.asStr : Profile → String
  | .core => "core"
  | .signed => "signed"
  | .sealed => "sealed"
  | .recipientSealed => "recipient-sealed"

def profileAtLeast (actual required : Profile) : Bool := required.rank ≤ actual.rank

/-! ## Issues -/

/-- An issue of the report. -/
structure VerifierIssue where
  path : List PathSegment
  code : ErrorCode
  severity : Severity
  message : String
  deriving DecidableEq

/-- An issue at the severity of its code. -/
def VerifierIssue.new (code : ErrorCode) (path : List PathSegment) (message : String) :
    VerifierIssue := ⟨path, code, code.severity, message⟩

/-- An issue at a severity of its own. -/
def VerifierIssue.withSeverity (code : ErrorCode) (severity : Severity) (path : List PathSegment)
    (message : String) : VerifierIssue := ⟨path, code, severity, message⟩

/-- An issue of the structural validator. -/
def VerifierIssue.ofValidation (i : ValidationIssue) : VerifierIssue :=
  ⟨i.path, i.code, i.severity, i.message⟩

/-- The segments of two paths in turn, then the lengths of the paths, then the registry. -/
def compareVerifierIssues (a b : VerifierIssue) : Ordering :=
  let segments := (a.path.zip b.path).map fun s => compareSegments s.1 s.2
  (segments.find? (· ≠ .eq)).getD
    ((compare a.path.length b.path.length).then
      (compare a.code.registryIndex b.code.registryIndex))

def sortVerifierIssues (issues : List VerifierIssue) : List VerifierIssue :=
  sortBy compareVerifierIssues id issues

/-! ## Claims -/

inductive ContentCheck
  | checked
  | mismatched
  | notChecked
  deriving DecidableEq

structure DecryptionOutcome where
  decrypted : Bool
  plaintextHashOk : Option Bool
  code : Option ErrorCode
  deriving DecidableEq

/-- The report on one item. -/
structure ItemReportEntry where
  contentCheck : ContentCheck
  decryption : Option DecryptionOutcome
  deriving DecidableEq

def ItemReportEntry.default : ItemReportEntry := ⟨.notChecked, none⟩

/-- The report on one Merkle commitment. -/
structure MerkleReportEntry where
  contentCheck : ContentCheck
  deriving DecidableEq

def MerkleReportEntry.default : MerkleReportEntry := ⟨.notChecked⟩

/-- A credential of the keyring. -/
inductive Decryption
  | recipient (recipientSecretKey : List UInt8)
  | passphrase (passphrase : String)
  deriving DecidableEq

end Label309
