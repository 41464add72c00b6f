import Label309.PoeStandard.IssueCodes

/-!
# Rejections

Every issue of the pre-guard and of the schema pass is an error, and no pass leaves the
structural part of the registry. A rejection therefore names an error of that part.
-/
namespace Label309
open SortByKey

/-- The structural part of the registry. -/
def ErrorCode.Structural (c : ErrorCode) : Prop :=
  c.registryIndex ≤ ErrorCode.critShapeInvalid.registryIndex

instance (c : ErrorCode) : Decidable c.Structural := by
  unfold ErrorCode.Structural
  infer_instance

/-- A structural error. -/
def Rejects (i : ValidationIssue) : Prop := i.severity = .error ∧ i.code.Structural

@[simp] theorem rejects_issue {code : ErrorCode} {path : List PathSegment} {message : String} :
    Rejects (issue code path message) ↔ code.severity = .error ∧ code.Structural := Iff.rfl

/-! ## The pre-guard -/

theorem rejects_nonTextKeyIssue (path : List PathSegment) : Rejects (nonTextKeyIssue path) := by
  simp +decide [nonTextKeyIssue]

theorem allRejects_entryNonTextKey (field : String) (entry : CborValue) (i : ℕ) :
    AllIssues Rejects (entryNonTextKeyIssues field entry i) := by
  rw [entryNonTextKeyIssues.eq_def]
  refine AllIssues.ite (by simp [rejects_nonTextKeyIssue]) (.ite allIssues_nil ?_)
  split
  · exact allIssues_nil
  · refine allIssues_flatMap ?_
    intro sub _
    exact .ite (by simp [rejects_nonTextKeyIssue]) allIssues_nil

theorem allRejects_preGuard (decoded : CborValue) :
    AllIssues Rejects (collectNonTextKeyMapIssues decoded) := by
  rw [collectNonTextKeyMapIssues.eq_def]
  refine AllIssues.ite (by simp [rejects_nonTextKeyIssue]) ?_
  split
  · exact allIssues_nil
  · refine allIssues_flatMap ?_
    intro field _
    exact allIssues_arrayIssues allIssues_nil (allRejects_entryNonTextKey field)

/-! ## The schema pass -/

theorem allRejects_schemaUris (raw : Option CborValue) (base : List PathSegment) :
    AllIssues Rejects (schemaUrisIssues raw base) := by
  refine allIssues_arrayIssues (by simp +decide) ?_
  intro uri j
  exact .ite allIssues_nil (by simp +decide)

theorem allRejects_schemaHashes (hashes : Option CborValue) (base : List PathSegment) :
    AllIssues Rejects (schemaHashesIssues hashes base) := by
  rw [schemaHashesIssues.eq_def]
  split
  · simp +decide
  · refine allIssues_flatMap ?_
    intro entry _
    split
    · exact .ite allIssues_nil (by simp +decide)
    · exact allIssues_nil
  · simp +decide

theorem allRejects_schemaItem (entry : CborValue) (i : ℕ) :
    AllIssues Rejects (schemaItemIssues entry i) := by
  rw [schemaItemIssues.eq_def]
  dsimp only
  split
  · simp +decide
  · simp only [allIssues_append]
    refine ⟨⟨allRejects_schemaHashes _ _, allRejects_schemaUris _ _⟩, ?_⟩
    exact allIssues_unknownKeyIssues fun key => by simp +decide

theorem allRejects_schemaMerkle (entry : CborValue) (i : ℕ) :
    AllIssues Rejects (schemaMerkleIssues entry i) := by
  rw [schemaMerkleIssues.eq_def]
  dsimp only
  split
  · simp +decide
  · simp only [allIssues_append]
    refine ⟨⟨⟨⟨?_, ?_⟩, ?_⟩, allRejects_schemaUris _ _⟩, ?_⟩
    · exact allIssues_fieldIssues (by simp +decide) (by simp +decide)
    · exact allIssues_fieldIssues (by simp +decide) (by simp +decide)
    · exact allIssues_fieldIssues (by simp +decide) (by simp +decide)
    · exact allIssues_unknownKeyIssues fun key => by simp +decide

theorem allRejects_schemaSig (entry : CborValue) (i : ℕ) :
    AllIssues Rejects (schemaSigIssues entry i) := by
  rw [schemaSigIssues.eq_def]
  dsimp only
  split
  · simp +decide
  · simp only [allIssues_append]
    refine ⟨⟨?_, ?_⟩, ?_⟩
    · exact allIssues_fieldIssues (by simp +decide) (by simp +decide)
    · exact allIssues_fieldIssues allIssues_nil (by simp +decide)
    · exact allIssues_unknownKeyIssues fun key => by simp +decide

theorem allRejects_schemaSupersedes (supersedes : Option CborValue) :
    AllIssues Rejects (schemaSupersedesIssues supersedes) := by
  rw [schemaSupersedesIssues.eq_def]
  split
  · exact allIssues_nil
  · exact .ite allIssues_nil (by simp +decide)
  · simp +decide

theorem allRejects_schema (recordMap : List (CborValue × CborValue)) :
    AllIssues Rejects (schemaIssues recordMap) := by
  simp only [schemaIssues, allIssues_append]
  refine ⟨⟨⟨⟨⟨?_, ?_⟩, ?_⟩, allRejects_schemaSupersedes _⟩, ?_⟩, ?_⟩
  · exact allIssues_fieldIssues (by simp +decide) (by simp +decide)
  · exact allIssues_arrayIssues (by simp +decide) allRejects_schemaItem
  · exact allIssues_arrayIssues (by simp +decide) allRejects_schemaMerkle
  · exact allIssues_arrayIssues (by simp +decide) allRejects_schemaSig
  · refine allIssues_arrayIssues (by simp +decide) ?_
    intro entry i
    exact .ite allIssues_nil (by simp +decide)

/-! ## The verdict -/

theorem structural_domainIssues {recordMap : List (CborValue × CborValue)}
    {options : ValidatorOptions} {i : ValidationIssue} (h : i ∈ domainIssues recordMap options) :
    i.code.Structural := by
  rw [domainIssues_eq] at h
  cases List.mem_append.mp h with
  | inl h => exact (allPlain_commitmentIssues _ _ i h).1
  | inr h =>
      have hcodes : ∀ code ∈ sigCheckCodes, code.Structural := by decide
      exact hcodes i.code (allSigCheck_checkSigs _ i h)

/-- **A rejection names a structural error.** -/
theorem exists_rejects_of_fail {b : List UInt8} {options : ValidatorOptions}
    {issues : List ValidationIssue} (h : validatePoeRecord b options = .fail issues) :
    ∃ i ∈ issues, Rejects i := by
  have hsorted {found : List ValidationIssue} (hall : AllIssues Rejects found)
      (hne : found.isEmpty = false) : ∃ i ∈ sortIssues found, Rejects i := by
    obtain ⟨i, hi⟩ := List.exists_mem_of_ne_nil found (by simpa using hne)
    exact ⟨i, (perm_sortBy found).mem_iff.mpr hi, hall i hi⟩
  have hsingle (code : ErrorCode) (path : List PathSegment) (message : String)
      (hcode : code.severity = .error ∧ code.Structural) :
      ∃ i ∈ [issue code path message], Rejects i :=
    ⟨_, List.mem_singleton_self _, rejects_issue.mpr hcode⟩
  unfold validatePoeRecord at h
  split at h
  · cases h
    exact hsingle _ _ _ (by decide)
  · dsimp only at h
    split_ifs at h with hguard
    · cases h
      exact hsorted (allRejects_preGuard _) hguard
    · split at h
      · cases h
        exact hsingle _ _ _ (by decide)
      · split_ifs at h with hschema
        · cases h
          exact hsorted (allRejects_schema _) hschema
        · rw [emitResult] at h
          split_ifs at h with herror
          · cases h
            obtain ⟨i, hi, hseverity⟩ := List.any_eq_true.mp herror
            have hmem := (perm_sortBy _).mem_iff.mp hi
            exact ⟨i, hi, by simpa using hseverity, structural_domainIssues hmem⟩
          · split at h
            · cases h
            · cases h
              exact hsingle _ _ _ (by decide)

end Label309
