import Label309.PoeStandard.Validate

/-!
# The codes of the structural validator

The validator stays in the structural part of the registry. Only the check of a signature entry
calls a signature unsupported, and only the opaque reading an envelope, at a severity that the
role decides.
-/
namespace Label309

/-- A structural code that is not about an unsupported signature. -/
def ErrorCode.Plain (c : ErrorCode) : Prop :=
  c.registryIndex ≤ ErrorCode.critShapeInvalid.registryIndex ∧ c ≠ .signatureUnsupported

instance (c : ErrorCode) : Decidable c.Plain := by
  unfold ErrorCode.Plain
  infer_instance

/-- All issues have such codes. -/
def AllPlain (issues : List ValidationIssue) : Prop := ∀ i ∈ issues, i.code.Plain

/-- Nor is it about an unsupported envelope. -/
def ErrorCode.Hard (c : ErrorCode) : Prop := c.Plain ∧ c ≠ .encUnsupported

instance (c : ErrorCode) : Decidable c.Hard := by
  unfold ErrorCode.Hard
  infer_instance

/-! ## Rules for lists of issues -/

/-- All issues satisfy `P`. -/
def AllIssues (P : ValidationIssue → Prop) (issues : List ValidationIssue) : Prop :=
  ∀ i ∈ issues, P i

section Rules
variable {P : ValidationIssue → Prop}

@[simp] theorem allIssues_nil : AllIssues P [] := by simp [AllIssues]

@[simp] theorem allIssues_append {as bs : List ValidationIssue} :
    AllIssues P (as ++ bs) ↔ AllIssues P as ∧ AllIssues P bs := by
  simp [AllIssues, or_imp, forall_and]

@[simp] theorem allIssues_cons {i : ValidationIssue} {is : List ValidationIssue} :
    AllIssues P (i :: is) ↔ P i ∧ AllIssues P is := by
  simp [AllIssues]

theorem AllIssues.ite {c : Prop} [Decidable c] {as bs : List ValidationIssue}
    (ha : AllIssues P as) (hb : AllIssues P bs) : AllIssues P (if c then as else bs) := by
  by_cases h : c
  · rwa [if_pos h]
  · rwa [if_neg h]

theorem allIssues_flatMap {α : Type} {l : List α} {f : α → List ValidationIssue}
    (h : ∀ a ∈ l, AllIssues P (f a)) : AllIssues P (l.flatMap f) := by
  intro i hi
  obtain ⟨a, ha, hmem⟩ := List.mem_flatMap.mp hi
  exact h a ha i hmem

theorem allIssues_enumerateIssues {entries : List CborValue}
    {check : CborValue → ℕ → List ValidationIssue}
    (h : ∀ entry i, AllIssues P (check entry i)) :
    AllIssues P (enumerateIssues entries check) :=
  allIssues_flatMap fun entry _ => h entry.1 entry.2

theorem allIssues_arrayIssues {value : Option CborValue} {mismatch : List ValidationIssue}
    {check : CborValue → ℕ → List ValidationIssue} (hmismatch : AllIssues P mismatch)
    (h : ∀ entry i, AllIssues P (check entry i)) :
    AllIssues P (arrayIssues value mismatch check) := by
  rw [arrayIssues.eq_def]
  split
  · simp
  · exact allIssues_enumerateIssues h
  · exact hmismatch

theorem allIssues_fieldIssues {value : Option CborValue} {missing mismatch : List ValidationIssue}
    {accepts : CborValue → Bool} (hmissing : AllIssues P missing)
    (hmismatch : AllIssues P mismatch) :
    AllIssues P (fieldIssues value missing accepts mismatch) := by
  rw [fieldIssues.eq_def]
  split
  · exact hmissing
  · exact .ite (by simp) hmismatch

theorem allIssues_unknownKeyIssues {pairs : List (CborValue × CborValue)} {known : List String}
    {flag : String → ValidationIssue} (h : ∀ key, P (flag key)) :
    AllIssues P (unknownKeyIssues pairs known flag) := by
  intro i hi
  obtain ⟨key, -, rfl⟩ := List.mem_map.mp hi
  exact h key

end Rules

/-- The code is about no unsupported part. -/
def IsHard (i : ValidationIssue) : Prop := i.code.Hard

@[simp] theorem code_issue {code : ErrorCode} {path : List PathSegment} {message : String} :
    (issue code path message).code = code := rfl

@[simp] theorem isHard_issue {code : ErrorCode} {path : List PathSegment} {message : String} :
    IsHard (issue code path message) ↔ code.Hard := Iff.rfl

/-- One issue or none. -/
theorem allHard_flag {c : Prop} [Decidable c] {code : ErrorCode} (hcode : code.Hard)
    {path : List PathSegment} {message : String} :
    AllIssues IsHard (if c then [issue code path message] else []) :=
  .ite (by simpa using hcode) (by simp)

theorem allHard_flag' {c : Prop} [Decidable c] {code : ErrorCode} (hcode : code.Hard)
    {path : List PathSegment} {message : String} :
    AllIssues IsHard (if c then [] else [issue code path message]) :=
  .ite (by simp) (by simpa using hcode)

/-! ## The envelope -/

theorem allHard_nonTextKeyIssue (path : List PathSegment) :
    AllIssues IsHard [nonTextKeyIssue path] := by
  simp +decide [nonTextKeyIssue]

theorem allHard_encInternal (encMap : List (CborValue × CborValue)) (encPath : List PathSegment) :
    AllIssues IsHard (encInternalNonTextKeyIssues encMap encPath) := by
  rw [encInternalNonTextKeyIssues, allIssues_append]
  constructor
  · refine allIssues_arrayIssues allIssues_nil ?_
    intro slot j
    exact .ite (allHard_nonTextKeyIssue _) allIssues_nil
  · split
    · exact allIssues_nil
    · refine AllIssues.ite (allHard_nonTextKeyIssue _) ?_
      split
      · exact allIssues_nil
      · exact .ite (allHard_nonTextKeyIssue _) allIssues_nil

theorem allHard_passphraseSchema (passphrase : Option CborValue) (ppPath : List PathSegment) :
    AllIssues IsHard (passphraseSchemaIssues passphrase ppPath) := by
  have hsalt : ∀ salt path, AllIssues IsHard (saltIssues salt path) := by
    intro salt path
    rw [saltIssues.eq_def]
    split
    · simp +decide
    · exact .ite (by simp +decide) (allHard_flag (by decide))
    · simp +decide
  rw [passphraseSchemaIssues.eq_def]
  split
  · exact allIssues_nil
  · split
    · simp +decide
    · simp only [allIssues_append]
      refine ⟨⟨⟨allIssues_fieldIssues (by simp +decide) (by simp +decide), hsalt _ _⟩,
        allIssues_fieldIssues (by simp +decide) (by simp +decide)⟩, ?_⟩
      refine allIssues_unknownKeyIssues ?_
      intro key
      simp +decide

theorem allHard_encScheme1Schema (encMap : List (CborValue × CborValue))
    (encPath : List PathSegment) : AllIssues IsHard (encScheme1SchemaIssues encMap encPath) := by
  have hmac : ∀ mac path, AllIssues IsHard (slotsMacIssues mac path) := by
    intro mac path
    rw [slotsMacIssues.eq_def]
    split
    · exact allIssues_nil
    · exact allHard_flag (by decide)
    · simp +decide
  have hslot : ∀ base slot j, AllIssues IsHard (slotTypeIssues base slot j) := by
    intro base slot j
    rw [slotTypeIssues.eq_def]
    split
    · simp +decide
    · refine allIssues_flatMap ?_
      intro field _
      exact allIssues_fieldIssues allIssues_nil (by simp +decide)
  simp only [encScheme1SchemaIssues, allIssues_append]
  refine ⟨⟨⟨⟨⟨⟨?_, ?_⟩, ?_⟩, ?_⟩, hmac _ _⟩, allHard_passphraseSchema _ _⟩, ?_⟩
  · exact allIssues_fieldIssues (by simp +decide) (by simp +decide)
  · exact allIssues_fieldIssues allIssues_nil (by simp +decide)
  · exact allIssues_fieldIssues (by simp +decide) (by simp +decide)
  · exact allIssues_arrayIssues (by simp +decide) (hslot _)
  · refine allIssues_unknownKeyIssues ?_
    intro key
    simp +decide

theorem allHard_checkSlotShape {slotMap : List (CborValue × CborValue)} {kem : String}
    {descriptor : KemSlotDescriptor} (hcode : descriptor.fieldLengthCode.Hard)
    (slotPath : List PathSegment) :
    AllIssues IsHard (checkSlotShape slotMap descriptor kem slotPath) := by
  have hfield : ∀ field check, (∀ b, AllIssues IsHard (check b)) →
      AllIssues IsHard (slotFieldIssues slotMap field kem slotPath check) := by
    intro field check hcheck
    rw [slotFieldIssues.eq_def]
    split
    · simp +decide
    · exact hcheck _
  simp only [checkSlotShape, allIssues_append]
  refine ⟨⟨⟨allHard_flag (by decide), ?_⟩, ?_⟩, ?_⟩
  · refine allIssues_unknownKeyIssues ?_
    intro key
    simp +decide
  · exact hfield _ _ fun b => allHard_flag hcode
  · exact hfield _ _ fun b => allHard_flag (by decide)

theorem allHard_slotWalk {kem : String} {descriptor : KemSlotDescriptor}
    (hcode : descriptor.fieldLengthCode.Hard) (slotsPath : List PathSegment)
    (slots : List CborValue) (j : ℕ) (seen : List (List UInt8)) :
    AllIssues IsHard (slotWalkIssues descriptor kem slotsPath j seen slots) := by
  induction slots generalizing j seen with
  | nil => exact allIssues_nil
  | cons slot rest ih =>
      rw [slotWalkIssues]
      split
      · exact ih _ _
      · rw [allIssues_append]
        refine ⟨allHard_checkSlotShape hcode _, ?_⟩
        split
        · exact ih _ _
        · rw [allIssues_append]
          exact ⟨allHard_flag (by decide), ih _ _⟩

theorem hard_fieldLengthCode {kem : String} {descriptor : KemSlotDescriptor}
    (h : kemSlotDescriptor kem = some descriptor) : descriptor.fieldLengthCode.Hard := by
  rw [kemSlotDescriptor] at h
  split at h
  · cases h
    decide
  · split at h
    · cases h
      decide
    · cases h

theorem allHard_slotsIssues (slots : Option CborValue) (kem : Option String)
    (options : ValidatorOptions) (slotsPath : List PathSegment) :
    AllIssues IsHard (slotsIssues slots kem options slotsPath) := by
  rw [slotsIssues.eq_def]
  split
  · refine AllIssues.ite (by simp +decide) ?_
    refine AllIssues.ite (by simp +decide) ?_
    split
    · exact allIssues_nil
    · rename_i descriptor hdescriptor
      obtain ⟨name, -, hname⟩ := Option.bind_eq_some_iff.mp hdescriptor
      exact allHard_slotWalk (hard_fieldLengthCode hname) _ _ _ _
  · exact allIssues_nil

theorem allHard_checkPassphraseBlock (ppMap : List (CborValue × CborValue))
    (ppPath : List PathSegment) (options : ValidatorOptions) :
    AllIssues IsHard (checkPassphraseBlock ppMap ppPath options) := by
  have hparam : ∀ params path ceiling name floor,
      AllIssues IsHard (argon2ParamIssues params path ceiling name floor) := by
    intro params path ceiling name floor
    rw [argon2ParamIssues.eq_def]
    split
    · simp +decide
    · refine AllIssues.ite (by simp +decide) ?_
      refine AllIssues.ite (by simp +decide) ?_
      split
      · exact allIssues_nil
      · exact allHard_flag (by decide)
    · simp +decide
  rw [checkPassphraseBlock.eq_def]
  refine AllIssues.ite (by simp +decide) ?_
  dsimp only
  split
  · rw [allIssues_append]
    constructor
    · refine allIssues_unknownKeyIssues ?_
      intro key
      simp +decide
    · refine allIssues_flatMap ?_
      intro entry _
      exact hparam _ _ _ _ _
  · exact allIssues_nil

theorem allHard_checkScheme1Envelope (encMap : List (CborValue × CborValue))
    (encPath : List PathSegment) (options : ValidatorOptions) :
    AllIssues IsHard (checkScheme1Envelope encMap encPath options) := by
  simp only [checkScheme1Envelope, keyPathIssues, allIssues_append]
  refine ⟨⟨⟨?_, ⟨⟨⟨allHard_flag (by decide), allHard_flag (by decide)⟩,
    allHard_flag (by decide)⟩, allHard_flag (by decide)⟩, allHard_flag (by decide)⟩,
    allHard_slotsIssues _ _ _ _⟩, ?_⟩
  · rw [nonceIssues.eq_def]
    split
    · exact allHard_flag (by decide)
    · exact allIssues_nil
  · split
    · exact allIssues_nil
    · exact allHard_checkPassphraseBlock _ _ _

theorem hard_unsupportedIdentifiers (scheme : UInt64) (kem aead : Option CborValue) :
    ∀ entry ∈ unsupportedIdentifiers scheme kem aead, entry.2.1.Hard := by
  have hname : ∀ (field : String) (code : ErrorCode) (value : Option CborValue)
      (supported : String → Bool), code.Hard →
        ∀ entry ∈ unsupportedName field code value supported, entry.2.1.Hard := by
    intro field code value supported hcode entry hentry
    rw [unsupportedName.eq_def] at hentry
    split at hentry
    · split_ifs at hentry
      · cases hentry
      · rw [List.mem_singleton.mp hentry]
        exact hcode
    · cases hentry
  intro entry hentry
  simp only [unsupportedIdentifiers, List.mem_append] at hentry
  rcases hentry with (hscheme | hkem) | haead
  · split_ifs at hscheme
    · rw [List.mem_singleton.mp hscheme]
      exact (by decide : ErrorCode.unsupportedEnvelopeScheme.Hard)
    · cases hscheme
  · exact hname _ _ _ _ (by decide) entry hkem
  · exact hname _ _ _ _ (by decide) entry haead

/-- What the role makes of an opaque envelope. -/
def ValidatorRole.opaqueSeverity : ValidatorRole → Severity
  | .publicRole => .info
  | .recipientOrStrict => .error

/-- Only the opaque reading calls an envelope unsupported, at the severity of the role. -/
def IsAt (role : ValidatorRole) (i : ValidationIssue) : Prop :=
  IsHard i ∨ (i.code = .encUnsupported ∧ i.severity = role.opaqueSeverity)

theorem AllIssues.allAt {issues : List ValidationIssue} (h : AllIssues IsHard issues)
    (role : ValidatorRole) : AllIssues (IsAt role) issues := fun i hi => .inl (h i hi)

theorem allAt_encUnsupported {unsupported : List (String × ErrorCode × String)}
    (h : ∀ entry ∈ unsupported, entry.2.1.Hard) (encPath : List PathSegment)
    (role : ValidatorRole) : AllIssues (IsAt role) (encUnsupportedIssues unsupported encPath role) := by
  cases role with
  | publicRole =>
      rw [encUnsupportedIssues, allIssues_cons]
      exact ⟨.inr ⟨rfl, rfl⟩, allIssues_nil⟩
  | recipientOrStrict =>
      rw [encUnsupportedIssues, allIssues_cons]
      refine ⟨.inr ⟨rfl, rfl⟩, ?_⟩
      intro i hi
      obtain ⟨entry, hentry, rfl⟩ := List.mem_map.mp hi
      exact .inl (h entry hentry)

theorem allAt_checkEncReading (encMap : List (CborValue × CborValue)) (scheme : UInt64)
    (encPath : List PathSegment) (options : ValidatorOptions) :
    AllIssues (IsAt options.role) (checkEncReading encMap scheme encPath options) := by
  have hidentifiers : ∀ aead, AllIssues (IsAt options.role)
      (checkEncReading.identifierIssues encMap scheme encPath options aead) := by
    intro aead
    rw [checkEncReading.identifierIssues]
    refine AllIssues.ite ?_ ?_
    · exact allAt_encUnsupported (hard_unsupportedIdentifiers _ _ _) _ _
    · refine AllIssues.ite ((allHard_encInternal _ _).allAt _) ?_
      exact .ite ((allHard_encScheme1Schema _ _).allAt _)
        ((allHard_checkScheme1Envelope _ _ _).allAt _)
  rw [checkEncReading.eq_def]
  dsimp only
  split
  · exact .ite (AllIssues.allAt (by simp +decide) _) (hidentifiers _)
  · exact hidentifiers _

theorem allHard_envelopeSize (rawEnc : CborValue) (encPath : List PathSegment)
    (options : ValidatorOptions) : AllIssues IsHard (envelopeSizeIssues rawEnc encPath options) := by
  rw [envelopeSizeIssues.eq_def]
  split
  · exact allHard_flag (by decide)
  · exact allIssues_nil

theorem allAt_checkItemEnc (itemMap : List (CborValue × CborValue)) (rawEnc : CborValue)
    (idx : ℕ) (options : ValidatorOptions) :
    AllIssues (IsAt options.role) (checkItemEnc itemMap rawEnc idx options) := by
  rw [checkItemEnc.eq_def, allIssues_append]
  refine ⟨(allHard_flag' (by decide)).allAt _, ?_⟩
  split
  · exact AllIssues.allAt (by simp +decide) _
  · rw [allIssues_append]
    refine ⟨(allHard_envelopeSize _ _ _).allAt _, ?_⟩
    split
    · exact AllIssues.allAt (by simp +decide) _
    · exact allAt_checkEncReading _ _ _ _
    · exact AllIssues.allAt (by simp +decide) _

/-! ## The record -/

theorem allHard_commitmentPresence (recordMap : List (CborValue × CborValue)) :
    AllIssues IsHard (checkContentCommitmentPresence recordMap) := by
  rw [checkContentCommitmentPresence]
  refine AllIssues.ite (by simp +decide) ?_
  rw [allIssues_append]
  exact ⟨allHard_flag (by decide), allHard_flag (by decide)⟩

theorem allHard_critWalk (recordMap : List (CborValue × CborValue)) (options : ValidatorOptions)
    (crit : List CborValue) (i : ℕ) (seen : List String) :
    AllIssues IsHard (critWalkIssues recordMap options i seen crit) := by
  induction crit generalizing i seen with
  | nil => exact allIssues_nil
  | cons entry rest ih =>
      rw [critWalkIssues]
      split
      · exact ih _ _
      · rw [allIssues_append]
        refine ⟨?_, ih _ _⟩
        split
        · simp +decide
        · exact allHard_flag (by decide)

theorem allHard_checkCrit (recordMap : List (CborValue × CborValue))
    (options : ValidatorOptions) : AllIssues IsHard (checkCrit recordMap options) := by
  rw [checkCrit.eq_def]
  split
  · exact .ite (by simp +decide) (allHard_critWalk _ _ _ _ _)
  · exact allIssues_nil

theorem allHard_checkTopLevelKeys (recordMap : List (CborValue × CborValue)) :
    AllIssues IsHard (checkTopLevelKeys recordMap) := by
  intro i hi
  obtain ⟨key, -, rfl⟩ := List.mem_map.mp hi
  exact (by decide : ErrorCode.schemaUnknownField.Hard)

theorem allHard_checkItemHashes (itemMap : List (CborValue × CborValue)) (idx : ℕ) :
    AllIssues IsHard (checkItemHashes itemMap idx) := by
  have hentry : ∀ base entry, AllIssues IsHard (checkHashEntry base entry) := by
    intro base entry
    rw [checkHashEntry.eq_def]
    split
    · split
      · simp +decide
      · exact allHard_flag (by decide)
    · exact allIssues_nil
  rw [checkItemHashes.eq_def]
  dsimp only
  split
  · exact .ite (by simp +decide) (allIssues_flatMap fun entry _ => hentry _ entry)
  · exact allIssues_nil

theorem allHard_checkUris (raw : Option CborValue) (base : List PathSegment) :
    AllIssues IsHard (checkUris raw base) := by
  rw [checkUris.eq_def]
  split
  · refine AllIssues.ite (by simp +decide) ?_
    refine allIssues_enumerateIssues ?_
    intro uri j
    rw [checkUriEntry.eq_def]
    split
    · simp +decide
    · exact allIssues_nil
  · exact allIssues_nil

theorem allAt_checkItem (options : ValidatorOptions) (item : CborValue) (idx : ℕ) :
    AllIssues (IsAt options.role) (checkItem options item idx) := by
  rw [checkItem.eq_def]
  split
  · exact allIssues_nil
  · simp only [allIssues_append]
    refine ⟨⟨(allHard_checkItemHashes _ _).allAt _, (allHard_checkUris _ _).allAt _⟩, ?_⟩
    split
    · exact allIssues_nil
    · exact allAt_checkItemEnc _ _ _ _

theorem allHard_checkMerkleCommit (commit : CborValue) (idx : ℕ) :
    AllIssues IsHard (checkMerkleCommit commit idx) := by
  have hroot : ∀ alg root base, AllIssues IsHard (merkleRootIssues alg root base) := by
    intro alg root base
    rw [merkleRootIssues.eq_def]
    split
    · simp +decide
    · split
      · exact allIssues_nil
      · exact allHard_flag (by decide)
  have hcount : ∀ leafCount base, AllIssues IsHard (leafCountIssues leafCount base) := by
    intro leafCount base
    rw [leafCountIssues.eq_def]
    split
    · exact allHard_flag' (by decide)
    · simp +decide
    · exact allIssues_nil
  rw [checkMerkleCommit.eq_def]
  split
  · exact allIssues_nil
  · simp only [allIssues_append]
    exact ⟨⟨hroot _ _ _, hcount _ _⟩, allHard_checkUris _ _⟩

/-- The part of the domain pass before the signatures. -/
def commitmentIssues (recordMap : List (CborValue × CborValue)) (options : ValidatorOptions) :
    List ValidationIssue :=
  checkContentCommitmentPresence recordMap ++ checkCrit recordMap options ++
    checkTopLevelKeys recordMap ++
    arrayIssues (mapGet recordMap "items") [] (checkItem options) ++
    arrayIssues (mapGet recordMap "merkle") [] checkMerkleCommit

theorem domainIssues_eq (recordMap : List (CborValue × CborValue)) (options : ValidatorOptions) :
    domainIssues recordMap options =
      commitmentIssues recordMap options ++ checkSigs (mapGet recordMap "sigs") := rfl

theorem allAt_commitmentIssues (recordMap : List (CborValue × CborValue))
    (options : ValidatorOptions) :
    AllIssues (IsAt options.role) (commitmentIssues recordMap options) := by
  simp only [commitmentIssues, allIssues_append]
  refine ⟨⟨⟨⟨(allHard_commitmentPresence _).allAt _, (allHard_checkCrit _ _).allAt _⟩,
    (allHard_checkTopLevelKeys _).allAt _⟩, ?_⟩, ?_⟩
  · exact allIssues_arrayIssues allIssues_nil (allAt_checkItem options)
  · exact allIssues_arrayIssues allIssues_nil fun commit idx =>
      (allHard_checkMerkleCommit commit idx).allAt _

theorem allPlain_commitmentIssues (recordMap : List (CborValue × CborValue))
    (options : ValidatorOptions) : AllPlain (commitmentIssues recordMap options) := by
  intro i hi
  cases allAt_commitmentIssues recordMap options i hi with
  | inl hhard => exact hhard.1
  | inr hunread =>
      rw [hunread.1]
      exact (by decide : ErrorCode.encUnsupported.Plain)

/-! ## The signatures -/

/-- The codes of the checks of the signatures. -/
def sigCheckCodes : List ErrorCode :=
  [.schemaTypeMismatch, .malformedSigCoseSign1, .sigPrivateKeyLeaked, .signatureUnsupported,
    .sigEntryKidCoseKeyConflict]

def IsSigCheck (i : ValidationIssue) : Prop := i.code ∈ sigCheckCodes

@[simp] theorem isSigCheck_issue {code : ErrorCode} {path : List PathSegment} {message : String} :
    IsSigCheck (issue code path message) ↔ code ∈ sigCheckCodes := Iff.rfl

theorem isSigCheck_inspectCoseKey {keyBytes : List UInt8} {i : ℕ} {path : List PathSegment}
    {found : ValidationIssue} (h : inspectCoseKey keyBytes i path = some found) :
    IsSigCheck found := by
  rw [inspectCoseKey.eq_def] at h
  split at h
  · cases h
    simp +decide
  · split_ifs at h <;> cases h <;> simp +decide

theorem allSigCheck_checkSigEntry (entry : CborValue) (i : ℕ) :
    AllIssues IsSigCheck (checkSigEntry entry i) := by
  have hsign : ∀ coseBytes coseKey base,
      AllIssues IsSigCheck (checkCoseSign1 coseBytes coseKey base) := by
    intro coseBytes coseKey base
    rw [checkCoseSign1.eq_def]
    split
    · simp +decide
    · refine AllIssues.ite (by simp +decide) ?_
      rw [coseHeaderIssues, allIssues_append]
      exact ⟨.ite (by simp) (by simp +decide), .ite (by simp +decide) (by simp)⟩
  rw [checkSigEntry.eq_def]
  dsimp only
  split
  · exact allIssues_nil
  · split
    · rename_i found hfound
      obtain ⟨keyBytes, -, hinspect⟩ := Option.bind_eq_some_iff.mp hfound
      rw [allIssues_cons]
      exact ⟨isSigCheck_inspectCoseKey hinspect, allIssues_nil⟩
    · split
      · exact allIssues_nil
      · exact hsign _ _ _

theorem allSigCheck_checkSigs (sigs : Option CborValue) : AllIssues IsSigCheck (checkSigs sigs) := by
  rw [checkSigs.eq_def]
  split
  · rw [allIssues_append]
    exact ⟨.ite (by simp +decide) allIssues_nil,
      allIssues_enumerateIssues allSigCheck_checkSigEntry⟩
  · exact allIssues_nil

end Label309
