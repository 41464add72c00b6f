import Label309.PoeStandard.Grammar

/-!
# What the field checks accept

One lemma for each check that several passes share, in the grammar's vocabulary.
-/
namespace Label309

/-! ## Shapes of values -/

theorem isText_iff {v : CborValue} : isText v = true ↔ ∃ s, v = .text s := by
  cases v <;> simp [isText, asText]

theorem isBytes_iff {v : CborValue} : isBytes v = true ↔ ∃ b, v = .bytes b := by
  cases v <;> simp [isBytes, asBytes]

theorem isMap_iff {v : CborValue} : isMap v = true ↔ ∃ pairs, v = .map pairs := by
  cases v <;> simp [isMap, asMap]

theorem asMap_eq_some {v : CborValue} {pairs : List (CborValue × CborValue)} :
    asMap v = some pairs ↔ v = .map pairs := by
  cases v <;> simp [asMap]

theorem asText_eq_some {v : CborValue} {s : String} : asText v = some s ↔ v = .text s := by
  cases v <;> simp [asText]

theorem asText_eq_none {v : CborValue} : asText v = none ↔ ∀ s, v ≠ .text s := by
  cases v <;> simp [asText]

theorem isBytesOfLength_iff {n : ℕ} {v : CborValue} :
    isBytesOfLength n v = true ↔ BytesOf n v := by
  cases v <;> simp [isBytesOfLength, BytesOf]

/-! ## Text keys -/

theorem mem_textKeys {pairs : List (CborValue × CborValue)} {key : String} :
    key ∈ textKeys pairs ↔ ∃ v, (CborValue.text key, v) ∈ pairs := by
  simp only [textKeys, List.mem_filterMap, asText_eq_some]
  constructor
  · rintro ⟨⟨k, v⟩, hmem, rfl⟩
    exact ⟨v, hmem⟩
  · rintro ⟨v, hmem⟩
    exact ⟨_, hmem, rfl⟩

theorem isNonTextKeyMap_map {pairs : List (CborValue × CborValue)} :
    isNonTextKeyMap (.map pairs) = false ↔ TextKeyed pairs := by
  simp only [isNonTextKeyMap, TextKeyed, List.any_eq_false, Option.isNone_iff_eq_none]
  constructor
  · intro h p hp
    obtain ⟨s, hs⟩ := Option.ne_none_iff_exists'.mp (h p hp)
    exact ⟨s, asText_eq_some.mp hs⟩
  · intro h p hp hnone
    obtain ⟨s, hs⟩ := h p hp
    exact asText_eq_none.mp hnone s hs

theorem ClosedMap.textKeyed {keys : List String} {pairs : List (CborValue × CborValue)}
    (h : ClosedMap keys pairs) : TextKeyed pairs := by
  intro p hp
  obtain ⟨t, -, ht⟩ := h p hp
  exact ⟨t, ht⟩

theorem ClosedMap.mono {keys keys' : List String} {pairs : List (CborValue × CborValue)}
    (h : ClosedMap keys pairs) (hsub : ∀ key ∈ keys, key ∈ keys') : ClosedMap keys' pairs := by
  intro p hp
  obtain ⟨t, ht, heq⟩ := h p hp
  exact ⟨t, hsub t ht, heq⟩

/-- A text-keyed map without unknown keys is closed. -/
theorem closedMap_iff {keys : List String} {pairs : List (CborValue × CborValue)} :
    ClosedMap keys pairs ↔ TextKeyed pairs ∧ ∀ key ∈ textKeys pairs, key ∈ keys := by
  constructor
  · intro h
    refine ⟨h.textKeyed, fun key hkey => ?_⟩
    obtain ⟨v, hv⟩ := mem_textKeys.mp hkey
    obtain ⟨t, ht, heq⟩ := h _ hv
    cases heq
    exact ht
  · intro ⟨htext, hknown⟩ p hp
    obtain ⟨t, ht⟩ := htext p hp
    exact ⟨t, hknown t (mem_textKeys.mpr ⟨p.2, by rwa [← ht]⟩), ht⟩

/-! ## Lookup -/

theorem mem_of_mapGet {pairs : List (CborValue × CborValue)} {key : String} {v : CborValue}
    (h : mapGet pairs key = some v) : (CborValue.text key, v) ∈ pairs := by
  induction pairs with
  | nil => simp [mapGet] at h
  | cons p pairs ih =>
      obtain ⟨k, value⟩ := p
      cases k with
      | text t =>
          simp only [mapGet] at h
          by_cases ht : t = key
          · simp only [ht, if_true, Option.some.injEq] at h
            simp [ht, h]
          · simp only [ht, if_false] at h
            exact List.mem_cons_of_mem _ (ih h)
      | _ => exact List.mem_cons_of_mem _ (ih (by simpa [mapGet] using h))

theorem mapGet_isSome_iff {pairs : List (CborValue × CborValue)} {key : String} :
    (mapGet pairs key).isSome ↔ key ∈ textKeys pairs := by
  induction pairs with
  | nil => simp [mapGet, textKeys]
  | cons p pairs ih =>
      obtain ⟨k, value⟩ := p
      cases k with
      | text t =>
          by_cases ht : t = key
          · simp [mapGet, textKeys, asText, ht]
          · have hne : key ≠ t := Ne.symm ht
            simpa [mapGet, textKeys, asText, ht, hne] using ih
      | _ => simpa [mapGet, textKeys, asText] using ih

theorem mapGet_eq_none_iff {pairs : List (CborValue × CborValue)} {key : String} :
    mapGet pairs key = none ↔ key ∉ textKeys pairs := by
  rw [← mapGet_isSome_iff, Option.not_isSome_iff_eq_none]

/-! ## Fields -/

theorem required_iff {P : CborValue → Prop} {v : CborValue} : Required P (some v) ↔ P v := by
  simp [Required]

@[simp] theorem required_none {P : CborValue → Prop} : ¬ Required P none := by simp [Required]

@[simp] theorem optionalField_none {P : CborValue → Prop} : OptionalField P none := by
  simp [OptionalField]

@[simp] theorem optionalField_some {P : CborValue → Prop} {v : CborValue} :
    OptionalField P (some v) ↔ P v := by
  simp [OptionalField]

theorem Required.imp {P Q : CborValue → Prop} {field : Option CborValue} (h : Required P field)
    (hPQ : ∀ v, P v → Q v) : Required Q field := by
  obtain ⟨v, hv, hP⟩ := h
  exact ⟨v, hv, hPQ v hP⟩

theorem fieldIssues_optional_iff {field : Option CborValue} {accepts : CborValue → Bool}
    {mismatch : ValidationIssue} :
    fieldIssues field [] accepts [mismatch] = [] ↔
      OptionalField (fun v => accepts v = true) field := by
  cases field <;> simp [fieldIssues]

theorem fieldIssues_required_iff {field : Option CborValue} {accepts : CborValue → Bool}
    {missing mismatch : ValidationIssue} :
    fieldIssues field [missing] accepts [mismatch] = [] ↔
      Required (fun v => accepts v = true) field := by
  cases field <;> simp [fieldIssues, Required]

theorem unknownKeyIssues_eq_nil_iff {pairs : List (CborValue × CborValue)} {known : List String}
    {flag : String → ValidationIssue} :
    unknownKeyIssues pairs known flag = [] ↔ ∀ key ∈ textKeys pairs, key ∈ known := by
  simp [unknownKeyIssues]

theorem noErrors_unknownKeyIssues {pairs : List (CborValue × CborValue)} {known : List String}
    {code : ErrorCode} (hcode : code.severity = .error) {path : String → List PathSegment}
    {message : String → String} :
    NoErrors (unknownKeyIssues pairs known fun key => issue code (path key) (message key)) ↔
      ∀ key ∈ textKeys pairs, key ∈ known := by
  constructor
  · intro h key hkey
    by_contra hunknown
    have hmem : issue code (path key) (message key) ∈
        unknownKeyIssues pairs known fun key => issue code (path key) (message key) := by
      simp only [unknownKeyIssues, List.mem_map, List.mem_filter]
      exact ⟨key, ⟨hkey, by simpa using hunknown⟩, rfl⟩
    exact h _ hmem hcode
  · intro h
    rw [unknownKeyIssues_eq_nil_iff.mpr h]
    exact noErrors_nil

/-- A flag raised under a condition. -/
theorem noErrors_flag {c : Prop} [Decidable c] {code : ErrorCode} (hcode : code.severity = .error)
    {path : List PathSegment} {message : String} :
    NoErrors (if c then [issue code path message] else []) ↔ ¬ c := by
  by_cases hc : c <;> simp [hc, hcode]

/-! ## Arrays -/

/-- A check that ignores the index passes everywhere exactly when every element does. -/
theorem forall_zipIdx_iff {α : Type*} {l : List α} {P : α → Prop} {Q : α → ℕ → Prop}
    (h : ∀ a i, Q a i ↔ P a) : (∀ e ∈ l.zipIdx, Q e.1 e.2) ↔ ∀ a ∈ l, P a := by
  constructor
  · intro hall a ha
    obtain ⟨i, hi, rfl⟩ := List.getElem_of_mem ha
    exact (h _ i).mp (hall (l[i], i) (by simp [List.mem_zipIdx_iff_getElem?, hi]))
  · intro hall e he
    exact (h _ _).mpr (hall _ (List.fst_mem_of_mem_zipIdx he))

theorem enumerateIssues_eq_nil_iff {entries : List CborValue}
    {check : CborValue → ℕ → List ValidationIssue} :
    enumerateIssues entries check = [] ↔ ∀ e ∈ entries.zipIdx, check e.1 e.2 = [] := by
  simp only [enumerateIssues, List.flatMap_eq_nil_iff]

theorem noErrors_enumerateIssues {entries : List CborValue}
    {check : CborValue → ℕ → List ValidationIssue} :
    NoErrors (enumerateIssues entries check) ↔
      ∀ e ∈ entries.zipIdx, NoErrors (check e.1 e.2) :=
  noErrors_flatMap

/-- The three passes over an array field accept it exactly when it is absent or an
array whose elements all satisfy `P`. -/
theorem arrayField_iff {field : Option CborValue} {mismatch : ValidationIssue}
    {guard schema domain : CborValue → ℕ → List ValidationIssue} {P : CborValue → Prop}
    (h : ∀ entries, field = some (.array entries) → ∀ e ∈ entries, ∀ i,
      (guard e i = [] ∧ schema e i = [] ∧ NoErrors (domain e i)) ↔ P e) :
    (arrayIssues field [] guard = [] ∧ arrayIssues field [mismatch] schema = [] ∧
        NoErrors (arrayIssues field [] domain)) ↔
      OptionalField (fun v => ∃ entries, v = .array entries ∧ ∀ e ∈ entries, P e) field := by
  cases field with
  | none => simp [arrayIssues]
  | some v =>
      cases v with
      | array entries =>
          simp only [arrayIssues, optionalField_some, CborValue.array.injEq, exists_eq_left',
            enumerateIssues_eq_nil_iff, noErrors_enumerateIssues]
          constructor
          · rintro ⟨hguard, hschema, hdomain⟩ e he
            obtain ⟨i, hi, rfl⟩ := List.getElem_of_mem he
            have hmem : (entries[i], i) ∈ entries.zipIdx := by
              simp [List.mem_zipIdx_iff_getElem?, hi]
            exact (h entries rfl _ he i).mp ⟨hguard _ hmem, hschema _ hmem, hdomain _ hmem⟩
          · intro hall
            have hthree (e) (he : e ∈ entries.zipIdx) :=
              (h entries rfl _ (List.fst_mem_of_mem_zipIdx he) e.2).mpr
                (hall _ (List.fst_mem_of_mem_zipIdx he))
            exact ⟨fun e he => (hthree e he).1, fun e he => (hthree e he).2.1,
              fun e he => (hthree e he).2.2⟩
      | _ => simp [arrayIssues]

/-! ## Lists of errors -/

/-- Every issue of the list fails the record. -/
def AllErrors (issues : List ValidationIssue) : Prop := ∀ i ∈ issues, i.severity = .error

theorem AllErrors.noErrors_iff {issues : List ValidationIssue} (h : AllErrors issues) :
    NoErrors issues ↔ issues = [] := by
  constructor
  · intro hno
    by_contra hne
    obtain ⟨i, hi⟩ := List.exists_mem_of_ne_nil _ hne
    exact hno i hi (h i hi)
  · rintro rfl
    exact noErrors_nil

@[simp] theorem allErrors_nil : AllErrors [] := by simp [AllErrors]

@[simp] theorem allErrors_append {as bs : List ValidationIssue} :
    AllErrors (as ++ bs) ↔ AllErrors as ∧ AllErrors bs := by
  simp [AllErrors, or_imp, forall_and]

@[simp] theorem allErrors_issue {code : ErrorCode} {path : List PathSegment} {message : String} :
    AllErrors [issue code path message] ↔ code.severity = .error := by
  simp [AllErrors, issue]

theorem allErrors_flatMap {α : Type*} {l : List α} {f : α → List ValidationIssue}
    (h : ∀ a ∈ l, AllErrors (f a)) : AllErrors (l.flatMap f) := by
  intro i hi
  obtain ⟨a, ha, hi⟩ := List.mem_flatMap.mp hi
  exact h a ha i hi

theorem allErrors_ite {c : Prop} [Decidable c] {as bs : List ValidationIssue}
    (has : AllErrors as) (hbs : AllErrors bs) : AllErrors (if c then as else bs) := by
  by_cases hc : c <;> simpa [hc]

theorem allErrors_fieldIssues {field : Option CborValue} {accepts : CborValue → Bool}
    {missing mismatch : List ValidationIssue} (hmissing : AllErrors missing)
    (hmismatch : AllErrors mismatch) : AllErrors (fieldIssues field missing accepts mismatch) := by
  cases field with
  | none => exact hmissing
  | some v => exact allErrors_ite allErrors_nil hmismatch

theorem allErrors_arrayIssues {field : Option CborValue} {mismatch : List ValidationIssue}
    {check : CborValue → ℕ → List ValidationIssue} (hmismatch : AllErrors mismatch)
    (hcheck : ∀ e i, AllErrors (check e i)) : AllErrors (arrayIssues field mismatch check) := by
  cases field with
  | none => exact allErrors_nil
  | some v =>
      cases v with
      | array entries => exact allErrors_flatMap fun e _ => hcheck e.1 e.2
      | _ => exact hmismatch

theorem allErrors_unknownKeyIssues {pairs : List (CborValue × CborValue)} {known : List String}
    {flag : String → ValidationIssue} (hflag : ∀ key, (flag key).severity = .error) :
    AllErrors (unknownKeyIssues pairs known flag) := by
  intro i hi
  obtain ⟨key, -, rfl⟩ := List.mem_map.mp hi
  exact hflag key

end Label309
