import Label309.CoseWire

/-!
# Building a COSE_Sign1

The signer builds its headers parameter by parameter, encodes them, and signs the structure over
the full payload. The verifier decodes what was encoded: the same parameters, their values with
every map sorted.
-/
namespace Label309
open ExceptBind SortByKey

/-! ## Headers -/

namespace CoseHeader

/-- Replace the value of a label, or append it. -/
def setPairs (label : CoseLabel) (value : CborValue) :
    List (CoseLabel × CborValue) → List (CoseLabel × CborValue)
  | [] => [(label, value)]
  | (l, v) :: rest => if l = label then (l, value) :: rest else (l, v) :: setPairs label value rest

def set (header : CoseHeader) (label : CoseLabel) (value : CborValue) : CoseHeader :=
  ⟨setPairs label value header.pairs⟩

/-- An integer-labelled parameter, replacing any value it had. -/
def withInt (header : CoseHeader) (label : ℤ) (value : CborValue) : CoseHeader :=
  header.set (.int label) value

/-- A text-labelled parameter, replacing any value it had. -/
def withText (header : CoseHeader) (label : String) (value : CborValue) : CoseHeader :=
  header.set (.text label) value

/-- The protected slot: no bytes for the empty header. -/
def encodeProtected (header : CoseHeader) : Except CanonicalCborError (List UInt8) :=
  if header.isEmpty then .ok [] else encodeCanonicalCbor header.toCbor

end CoseHeader

/-! ## The envelope -/

def encodeCoseSign1 (protectedHeader unprotectedHeader : CoseHeader)
    (payload : Option (List UInt8)) (signature : List UInt8) :
    Except CanonicalCborError (List UInt8) := do
  let protectedBytes ← protectedHeader.encodeProtected
  let payloadValue :=
    match payload with
    | some b => CborValue.bytes b
    | none => .null
  encodeCanonicalCbor
    (.array [.bytes protectedBytes, unprotectedHeader.toCbor, payloadValue, .bytes signature])

/-- Ed25519 key generation and signing. -/
structure SigningPrimitives where
  publicKey : FixedBytes 32 → FixedBytes 32
  sign : FixedBytes 32 → List UInt8 → FixedBytes 64

/-- What is signed verifies. -/
def SigningPrimitives.Lawful (keys : SigningPrimitives) (crypto : SignaturePrimitives) : Prop :=
  ∀ seed message,
    crypto.verifyStrict (keys.publicKey seed) message (keys.sign seed message) = true

inductive CoseSign1BuildError
  | signerNotProvided (message : String)
  | signerAndSeedBothProvided (message : String)
  deriving DecidableEq

/-- A header that does not encode is reported as a missing signer. -/
def asBuildError {α : Type} (x : Except CanonicalCborError α) : Except CoseSign1BuildError α :=
  match x with
  | .ok a => .ok a
  | .error e => .error (.signerNotProvided e.display)

/-- A seed, or a signer that is not bound to return 64 bytes. -/
inductive Label309Signer
  | seed (secret : FixedBytes 32)
  | closure (sign : List UInt8 → List UInt8)

def ed25519SignatureLength : ℕ := 64

section Build
variable (keys : SigningPrimitives)

def Label309Signer.signature (sigStructure : List UInt8) :
    Label309Signer → Except CoseSign1BuildError (List UInt8)
  | .seed secret => .ok (keys.sign secret sigStructure).val
  | .closure sign =>
      let sig := sign sigStructure
      if sig.length ≠ ed25519SignatureLength then
        .error (.signerNotProvided
          s!"injected signer must return a 64-byte value; got {sig.length} bytes")
      else .ok sig

def coseSign1Label309Build (protectedHeader unprotectedHeader : CoseHeader)
    (recordBodyCbor : List UInt8) (signer : Label309Signer) :
    Except CoseSign1BuildError (List UInt8) := do
  let protectedBytes ← asBuildError protectedHeader.encodeProtected
  let signature ← signer.signature keys (buildLabel309SigStructure protectedBytes recordBodyCbor)
  asBuildError (encodeCoseSign1 protectedHeader unprotectedHeader none signature)

end Build

/-- What an external signer signs, with the headers for the assembly. -/
structure Label309Prepared where
  sigStructure : List UInt8
  protectedHeader : CoseHeader
  unprotectedHeader : CoseHeader

def coseSign1Label309Prepare (protectedHeader unprotectedHeader : CoseHeader)
    (recordBodyCbor : List UInt8) : Except CanonicalCborError Label309Prepared := do
  let protectedBytes ← protectedHeader.encodeProtected
  .ok ⟨buildLabel309SigStructure protectedBytes recordBodyCbor, protectedHeader, unprotectedHeader⟩

def coseSign1Label309Assemble (prepared : Label309Prepared) (signature : List UInt8) :
    Except CoseSign1BuildError (List UInt8) :=
  if signature.length ≠ ed25519SignatureLength then
    .error (.signerNotProvided
      s!"external signature must be 64 bytes; got {signature.length} bytes")
  else asBuildError
    (encodeCoseSign1 prepared.protectedHeader prepared.unprotectedHeader none signature)

/-! ## What a header can hold -/

/-- The labels are CBOR integers and texts, as every way of building a header has it. -/
def CoseHeader.CborLabels (header : CoseHeader) : Prop :=
  ∀ entry ∈ header.pairs, ∀ v, entry.1 = .int v → -2 ^ 64 ≤ v ∧ v < 2 ^ 64

namespace CoseHeader

theorem cborLabels_empty : empty.CborLabels := by
  intro entry hentry
  cases hentry

theorem mem_setPairs {label : CoseLabel} {value : CborValue}
    {pairs : List (CoseLabel × CborValue)} {entry : CoseLabel × CborValue}
    (h : entry ∈ setPairs label value pairs) : entry = (label, value) ∨ entry ∈ pairs := by
  induction pairs with
  | nil => exact .inl (List.mem_singleton.mp h)
  | cons p rest ih =>
      obtain ⟨l, v⟩ := p
      rw [setPairs] at h
      split_ifs at h with hl
      · subst hl
        cases List.mem_cons.mp h with
        | inl heq => exact .inl heq
        | inr hrest => exact .inr (List.mem_cons_of_mem _ hrest)
      · cases List.mem_cons.mp h with
        | inl heq =>
            rw [heq]
            exact .inr List.mem_cons_self
        | inr hrest => exact (ih hrest).imp_right (List.mem_cons_of_mem _)

/-- Integer labels of a 64-bit signed word stay in the range. -/
theorem CborLabels.withInt {header : CoseHeader} (h : header.CborLabels) {label : ℤ}
    (hlow : -2 ^ 63 ≤ label) (hhigh : label < 2 ^ 63) (value : CborValue) :
    (header.withInt label value).CborLabels := by
  intro entry hentry v hv
  cases mem_setPairs hentry with
  | inl heq =>
      rw [heq] at hv
      cases hv
      omega
  | inr hmem => exact h entry hmem v hv

theorem CborLabels.withText {header : CoseHeader} (h : header.CborLabels) (label : String)
    (value : CborValue) : (header.withText label value).CborLabels := by
  intro entry hentry v hv
  cases mem_setPairs hentry with
  | inl heq =>
      rw [heq] at hv
      cases hv
  | inr hmem => exact h entry hmem v hv

end CoseHeader

end Label309
