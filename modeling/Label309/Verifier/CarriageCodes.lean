import Label309.Lib.ExceptBind
import Label309.Verifier.CborWalker

/-!
# The codes of a failed carriage

A carriage fails as malformed, or for a chunk over the ledger's cap, whatever the bytes are.
-/
namespace Label309
open ExceptBind

/-- The codes of a failed carriage. -/
def IsCarriageCode (e : CarriageError) : Prop := e.code ∈ [ErrorCode.malformedCbor, .chunkTooLarge]

@[simp] theorem isCarriageCode_malformed (message : String) :
    IsCarriageCode (.malformed message) := by
  simp [IsCarriageCode, CarriageError.malformed]

@[simp] theorem isCarriageCode_chunkTooLarge (message : String) :
    IsCarriageCode (.chunkTooLarge message) := by
  simp [IsCarriageCode, CarriageError.chunkTooLarge]

theorem failsIn_headArgument (bytes : List UInt8) (p len : ℕ) (message : String) :
    FailsIn IsCarriageCode (headArgument bytes p len message) :=
  .ite (by simp) (by simp)

theorem failsIn_readHead (bytes : List UInt8) (pos : ℕ) :
    FailsIn IsCarriageCode (readHead bytes pos) := by
  have hargument (p len : ℕ) (message : String) (f : ℕ → CborHead) :
      FailsIn IsCarriageCode (headArgument bytes p len message >>= fun value => .ok (f value)) :=
    failsIn_bind (failsIn_headArgument _ _ _ _) fun _ => failsIn_ok _
  rw [readHead.eq_def]
  split
  · simp
  · dsimp only
    refine .ite (by simp) (.ite (hargument _ _ _ _) (.ite (hargument _ _ _ _) ?_))
    exact .ite (hargument _ _ _ _) (.ite (hargument _ _ _ _) (.ite (by simp) (by simp)))

theorem failsIn_skipTimes {skip : ℕ → Except CarriageError ℕ}
    (hskip : ∀ p, FailsIn IsCarriageCode (skip p)) (n p : ℕ) :
    FailsIn IsCarriageCode (skipTimes skip n p) := by
  induction n generalizing p with
  | zero => exact failsIn_ok _
  | succ n ih => exact failsIn_bind (hskip p) ih

theorem failsIn_skipItem (bytes : List UInt8) (fuel pos : ℕ) :
    FailsIn IsCarriageCode (skipItem bytes fuel pos) := by
  induction fuel generalizing pos with
  | zero => simp [skipItem]
  | succ fuel ih =>
      rw [skipItem]
      refine failsIn_bind (failsIn_readHead _ _) ?_
      intro h
      dsimp only
      refine .ite (by simp) (.ite (.ite (by simp) (.ite (by simp) (by simp))) ?_)
      refine .ite (failsIn_skipTimes ih _ _) (.ite (failsIn_skipTimes ?_ _ _) (.ite (ih _) ?_))
      · intro p
        exact failsIn_bind (ih p) ih
      · refine .ite (.ite (by simp) (.ite (.ite (by simp) (by simp)) ?_)) (by simp)
        exact .ite (by simp) (by simp)

theorem failsIn_skipCborItem (bytes : List UInt8) (pos : ℕ) :
    FailsIn IsCarriageCode (skipCborItem bytes pos) := failsIn_skipItem _ _ _

theorem failsIn_findKeyZero (aux : List UInt8) (n pos : ℕ) (found : Option ℕ) :
    FailsIn IsCarriageCode (findKeyZero aux n pos found) := by
  induction n generalizing pos found with
  | zero => exact failsIn_ok _
  | succ n ih =>
      rw [findKeyZero]
      refine failsIn_bind (failsIn_readHead _ _) fun _ => ?_
      refine failsIn_bind (failsIn_skipCborItem _ _) fun _ => ?_
      exact failsIn_bind (failsIn_skipCborItem _ _) fun _ => ih _ _

theorem failsIn_metadataMapPos (aux : List UInt8) (head : CborHead) :
    FailsIn IsCarriageCode (metadataMapPos aux head) := by
  rw [metadataMapPos]
  refine .ite (by simp) (.ite (.ite (by simp) (by simp)) (.ite (.ite (by simp) ?_) (by simp)))
  refine failsIn_bind (failsIn_readHead _ _) fun _ => ?_
  exact .ite (by simp) (failsIn_findKeyZero _ _ _ _)

theorem failsIn_walkMetadata (aux : List UInt8) (n pos : ℕ) (acc : UnwrappedAux) :
    FailsIn IsCarriageCode (walkMetadata aux n pos acc) := by
  induction n generalizing pos acc with
  | zero => exact failsIn_ok _
  | succ n ih =>
      rw [walkMetadata]
      refine failsIn_bind (failsIn_readHead _ _) fun _ => .ite (by simp) ?_
      refine failsIn_bind (failsIn_skipCborItem _ _) fun _ => ?_
      exact failsIn_bind (failsIn_skipCborItem _ _) fun _ => ih _ _

/-- An envelope that is not unwrapped is malformed. -/
theorem failsIn_unwrapAuxiliaryData (aux : List UInt8) :
    FailsIn IsCarriageCode (unwrapAuxiliaryData aux) := by
  rw [unwrapAuxiliaryData]
  refine failsIn_bind (failsIn_readHead _ _) fun _ => ?_
  refine failsIn_bind (failsIn_skipCborItem _ _) fun _ => .ite (by simp) ?_
  refine failsIn_bind (failsIn_metadataMapPos _ _) fun pos => ?_
  cases pos with
  | none => exact failsIn_ok _
  | some pos =>
      refine failsIn_bind (failsIn_readHead _ _) fun _ => .ite (by simp) ?_
      exact failsIn_bind (failsIn_walkMetadata _ _ _ _) fun _ => failsIn_ok _

theorem failsIn_readChunks (value : List UInt8) (n i pos : ℕ) :
    FailsIn IsCarriageCode (readChunks value n i pos) := by
  induction n generalizing i pos with
  | zero => exact failsIn_ok _
  | succ n ih =>
      rw [readChunks]
      refine failsIn_bind (failsIn_readHead _ _) fun _ => ?_
      refine .ite (by simp) (.ite (by simp) (.ite (by simp) ?_))
      exact failsIn_bind (ih _ _) fun _ => failsIn_ok _

/-- A value that is not reassembled is malformed, or has a chunk over the ledger's cap. -/
theorem failsIn_reassemble (value : List UInt8) :
    FailsIn IsCarriageCode (reassembleLabel309Value value) := by
  rw [reassembleLabel309Value]
  refine failsIn_bind (failsIn_readHead _ _) fun _ => .ite (by simp) ?_
  exact failsIn_bind (failsIn_readChunks _ _ _ _) fun _ => .ite (by simp) (by simp)

end Label309
