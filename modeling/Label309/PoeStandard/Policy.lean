import Label309.PoeStandard.IssueCodes
import Label309.PoeStandard.Validity

/-!
# Validation policies

A policy that is no stricter accepts whatever the stricter one does. The strict role differs from
the public one on envelopes under unsupported identifiers only: either no envelope is opaque and
both say the same, or the public role informs of one and the strict role fails it.
-/
namespace Label309
open SortByKey

/-! ## Stricter options -/

/-- `options'` is pointwise no stricter than `options`. -/
structure NoStricter (options options' : ValidatorOptions) : Prop where
  extensions : ∀ name ∈ options.supportedCriticalExtensions,
    name ∈ options'.supportedCriticalExtensions
  role : options'.role = .publicRole ∨ options'.role = options.role
  maxSlots : options.maxSlots ≤ options'.maxSlots
  maxEncEnvelopeBytes : options.maxEncEnvelopeBytes ≤ options'.maxEncEnvelopeBytes
  ceiling : ∀ ceiling', options'.passphraseParamsCeiling = some ceiling' →
    ∃ ceiling, options.passphraseParamsCeiling = some ceiling ∧ ceiling.m ≤ ceiling'.m ∧
      ceiling.t ≤ ceiling'.t ∧ ceiling.p ≤ ceiling'.p

theorem ClosedMapWith.mono {keys : List String} {P Q : List (CborValue × CborValue) → Prop}
    (hPQ : ∀ pairs, P pairs → Q pairs) {v : CborValue} (h : ClosedMapWith keys P v) :
    ClosedMapWith keys Q v := by
  obtain ⟨pairs, hv, hclosed, hP⟩ := h
  exact ⟨pairs, hv, hclosed, hPQ pairs hP⟩

theorem ArrayOf.mono {P Q : CborValue → Prop} (hPQ : ∀ v, P v → Q v) {v : CborValue}
    (h : ArrayOf P v) : ArrayOf Q v := by
  obtain ⟨entries, hv, hne, hall⟩ := h
  exact ⟨entries, hv, hne, fun e he => hPQ e (hall e he)⟩

/-- A parameter under its ceiling stays under a higher one. -/
theorem argon2Param_mono {options options' : ValidatorOptions}
    (bound : Argon2ParamsCeiling → UInt64)
    (hbound : ∀ ceiling', options'.passphraseParamsCeiling = some ceiling' →
      ∃ ceiling, options.passphraseParamsCeiling = some ceiling ∧ bound ceiling ≤ bound ceiling')
    {floor : ℕ} {v : CborValue}
    (hv : IsArgon2Param floor (options.passphraseParamsCeiling.map bound) v) :
    IsArgon2Param floor (options'.passphraseParamsCeiling.map bound) v := by
  obtain ⟨n, heq, hfloor, hmax, hceiling⟩ := hv
  refine ⟨n, heq, hfloor, hmax, ?_⟩
  intro max hmax'
  obtain ⟨ceiling', hceiling', rfl⟩ := Option.map_eq_some_iff.mp hmax'
  obtain ⟨ceiling, hsome, hle⟩ := hbound ceiling' hceiling'
  exact UInt64.le_trans (hceiling _ (by rw [hsome]; rfl)) hle

section Grammar
variable {options options' : ValidatorOptions} (h : NoStricter options options')
include h

theorem argon2Params_mono {v : CborValue}
    (hv : IsArgon2Params options.passphraseParamsCeiling v) :
    IsArgon2Params options'.passphraseParamsCeiling v := by
  refine ClosedMapWith.mono ?_ hv
  intro params hparams
  obtain ⟨hm, ht, hp⟩ := hparams
  refine ⟨hm.imp fun v => ?_, ht.imp fun v => ?_, hp.imp fun v => ?_⟩
  · refine argon2Param_mono (·.m) fun ceiling' hceiling' => ?_
    obtain ⟨ceiling, hsome, hle, -, -⟩ := h.ceiling ceiling' hceiling'
    exact ⟨ceiling, hsome, hle⟩
  · refine argon2Param_mono (·.t) fun ceiling' hceiling' => ?_
    obtain ⟨ceiling, hsome, -, hle, -⟩ := h.ceiling ceiling' hceiling'
    exact ⟨ceiling, hsome, hle⟩
  · refine argon2Param_mono (·.p) fun ceiling' hceiling' => ?_
    obtain ⟨ceiling, hsome, -, -, hle⟩ := h.ceiling ceiling' hceiling'
    exact ⟨ceiling, hsome, hle⟩

theorem scheme1_mono {pairs : List (CborValue × CborValue)} (hpairs : IsScheme1 options pairs) :
    IsScheme1 options' pairs where
  closed := hpairs.closed
  scheme := hpairs.scheme
  aead := hpairs.aead
  nonce := hpairs.nonce
  keyPath := by
    cases hpairs.keyPath with
    | inl hslots =>
        left
        obtain ⟨kem, field, length, entries, hkem, hname, hget, hne, hle, hrest⟩ := hslots.slots
        exact ⟨hslots.noPassphrase, hslots.slotsMac, kem, field, length, entries, hkem, hname, hget,
          hne, le_trans hle h.maxSlots, hrest⟩
    | inr hpass =>
        right
        refine ⟨hpass.noKem, hpass.noSlots, hpass.noSlotsMac, hpass.passphrase.imp ?_⟩
        intro v
        apply ClosedMapWith.mono
        intro block hblock
        exact ⟨hblock.1, hblock.2.1, hblock.2.2.imp fun v => argon2Params_mono h⟩

theorem envelope_mono {v : CborValue} (hv : IsEnvelope options v) : IsEnvelope options' v := by
  obtain ⟨pairs, heq, htext, ⟨b, hb, hle⟩, scheme, hscheme, hcipher, hreading⟩ := hv
  refine ⟨pairs, heq, htext, ⟨b, hb, le_trans hle h.maxEncEnvelopeBytes⟩, scheme, hscheme, hcipher,
    ?_⟩
  cases hreading with
  | inl hunread =>
      left
      refine ⟨hunread.1, ?_⟩
      cases h.role with
      | inl hpublic => exact hpublic
      | inr hsame => rw [hsame, hunread.2]
  | inr htyped => exact .inr (scheme1_mono h htyped)

theorem item_mono {v : CborValue} (hv : IsItem options v) : IsItem options' v := by
  refine ClosedMapWith.mono ?_ hv
  intro pairs hpairs
  exact ⟨hpairs.1, hpairs.2.1, fun v hv => envelope_mono h (hpairs.2.2 v hv)⟩

theorem recordGrammar_mono {pairs : List (CborValue × CborValue)}
    (hpairs : RecordGrammar options pairs) : RecordGrammar options' pairs where
  keys := hpairs.keys
  v := hpairs.v
  items v hv := (hpairs.items v hv).mono fun e => item_mono h
  merkle := hpairs.merkle
  content := hpairs.content
  supersedes := hpairs.supersedes
  sigs := hpairs.sigs
  crit v hv := by
    obtain ⟨names, heq, hne, hnodup, hall⟩ := hpairs.crit v hv
    refine ⟨names, heq, hne, hnodup, ?_⟩
    intro name hname
    obtain ⟨hbase, hext, hpresent, hsupported⟩ := hall name hname
    exact ⟨hbase, hext, hpresent, h.extensions name hsupported⟩

/-- Acceptance is monotone in the options. -/
theorem accepted_mono {b : List UInt8} {record : PoeRecord} {warnings info : List ValidationIssue}
    (haccepted : validatePoeRecord b options = .ok record warnings info) :
    ∃ warnings' info', validatePoeRecord b options' = .ok record warnings' info' := by
  obtain ⟨pairs, hdecode, hgrammar, hrecord⟩ := grammar_of_accepted haccepted
  have hpasses := (passes_iff (encodes_of_decode hdecode)).mpr (recordGrammar_mono h hgrammar)
  exact validate_eq_ok_iff.mpr ⟨pairs, hdecode, hpasses, hrecord⟩

end Grammar

/-! ## The two roles -/

/-- The same options in a role. -/
def ValidatorOptions.inRole (options : ValidatorOptions) (role : ValidatorRole) :
    ValidatorOptions := { options with role := role }

/-- Either both readings say the same, or the public one informs of an opaque envelope and the
strict one fails. -/
def AgreeOrOpaque (opened strict : List ValidationIssue) : Prop :=
  strict = opened ∨
    (∃ i ∈ opened, i.code = .encUnsupported ∧ i.severity = .info) ∧
      ∃ i ∈ strict, i.severity = .error

theorem AgreeOrOpaque.refl (issues : List ValidationIssue) : AgreeOrOpaque issues issues := .inl rfl

theorem AgreeOrOpaque.append {as as' bs bs' : List ValidationIssue} (ha : AgreeOrOpaque as as')
    (hb : AgreeOrOpaque bs bs') : AgreeOrOpaque (as ++ bs) (as' ++ bs') := by
  cases ha with
  | inr ha =>
      obtain ⟨⟨i, hi, hunread⟩, j, hj, herror⟩ := ha
      exact .inr ⟨⟨i, List.mem_append_left _ hi, hunread⟩, j, List.mem_append_left _ hj, herror⟩
  | inl ha =>
      subst ha
      cases hb with
      | inl hb =>
          subst hb
          exact .refl _
      | inr hb =>
          obtain ⟨⟨i, hi, hunread⟩, j, hj, herror⟩ := hb
          exact .inr
            ⟨⟨i, List.mem_append_right _ hi, hunread⟩, j, List.mem_append_right _ hj, herror⟩

theorem agreeOrOpaque_flatMap {α : Type} {l : List α} {f g : α → List ValidationIssue}
    (h : ∀ a, AgreeOrOpaque (f a) (g a)) : AgreeOrOpaque (l.flatMap f) (l.flatMap g) := by
  induction l with
  | nil => exact .refl _
  | cons a l ih =>
      rw [List.flatMap_cons, List.flatMap_cons]
      exact (h a).append ih

theorem agreeOrOpaque_arrayIssues {value : Option CborValue} {mismatch : List ValidationIssue}
    {check check' : CborValue → ℕ → List ValidationIssue}
    (h : ∀ entry i, AgreeOrOpaque (check entry i) (check' entry i)) :
    AgreeOrOpaque (arrayIssues value mismatch check) (arrayIssues value mismatch check') := by
  cases value with
  | none => exact .refl _
  | some value =>
      cases value with
      | array entries => exact agreeOrOpaque_flatMap fun entry => h entry.1 entry.2
      | _ => exact .refl _

/-- The issue is not about an unsupported envelope. -/
def NotOpaque (i : ValidationIssue) : Prop := i.code ≠ .encUnsupported

section Roles
variable (options : ValidatorOptions)

theorem agreeOrOpaque_checkEncReading (encMap : List (CborValue × CborValue)) (scheme : UInt64)
    (encPath : List PathSegment) :
    AgreeOrOpaque (checkEncReading encMap scheme encPath (options.inRole .publicRole))
      (checkEncReading encMap scheme encPath (options.inRole .recipientOrStrict)) := by
  have hidentifiers (aead : Option CborValue) :
      AgreeOrOpaque
        (checkEncReading.identifierIssues encMap scheme encPath (options.inRole .publicRole) aead)
        (checkEncReading.identifierIssues encMap scheme encPath
          (options.inRole .recipientOrStrict) aead) := by
    simp only [checkEncReading.identifierIssues]
    by_cases hunsupported :
        (unsupportedIdentifiers scheme (mapGet encMap "kem") aead).isEmpty = false
    · rw [if_pos hunsupported, if_pos hunsupported]
      exact .inr ⟨⟨_, List.mem_singleton_self _, rfl, rfl⟩, _, List.mem_cons_self, rfl⟩
    · rw [if_neg hunsupported, if_neg hunsupported]
      exact .refl _
  rw [checkEncReading.eq_def, checkEncReading.eq_def]
  dsimp only
  cases (mapGet encMap "aead").bind asText with
  | none => exact hidentifiers _
  | some cipher =>
      by_cases hcipher : isUnauthenticatedCipher cipher = true
      · simp only [hcipher, if_true]
        exact .refl _
      · simp only [hcipher]
        exact hidentifiers _

theorem agreeOrOpaque_checkItem (item : CborValue) (idx : ℕ) :
    AgreeOrOpaque (checkItem (options.inRole .publicRole) item idx)
      (checkItem (options.inRole .recipientOrStrict) item idx) := by
  rw [checkItem.eq_def, checkItem.eq_def]
  cases asMap item with
  | none => exact .refl _
  | some itemMap =>
      refine .append (.refl _) ?_
      cases mapGet itemMap "enc" with
      | none => exact .refl _
      | some rawEnc =>
          dsimp only
          rw [checkItemEnc.eq_def, checkItemEnc.eq_def]
          refine .append (.refl _) ?_
          cases asMap rawEnc with
          | none => exact .refl _
          | some encMap =>
              refine .append (.refl _) ?_
              cases mapGet encMap "scheme" with
              | none => exact .refl _
              | some scheme =>
                  cases scheme with
                  | unsigned n => exact agreeOrOpaque_checkEncReading options encMap n _
                  | _ => exact .refl _

theorem critWalkIssues_inRole (recordMap : List (CborValue × CborValue)) (role : ValidatorRole)
    (crit : List CborValue) (i : ℕ) (seen : List String) :
    critWalkIssues recordMap (options.inRole role) i seen crit =
      critWalkIssues recordMap options i seen crit := by
  induction crit generalizing i seen with
  | nil => rfl
  | cons entry rest ih =>
      simp only [critWalkIssues, ih]
      rfl

theorem checkCrit_inRole (recordMap : List (CborValue × CborValue)) (role : ValidatorRole) :
    checkCrit recordMap (options.inRole role) = checkCrit recordMap options := by
  simp only [checkCrit, critWalkIssues_inRole]

theorem agreeOrOpaque_domainIssues (recordMap : List (CborValue × CborValue)) :
    AgreeOrOpaque (domainIssues recordMap (options.inRole .publicRole))
      (domainIssues recordMap (options.inRole .recipientOrStrict)) := by
  rw [domainIssues, domainIssues, checkCrit_inRole, checkCrit_inRole]
  refine .append (.append (.append (.refl _) ?_) (.refl _)) (.refl _)
  exact agreeOrOpaque_arrayIssues (agreeOrOpaque_checkItem options)

/-- Every opaque envelope fails the strict role. -/
theorem notOpaque_of_strict {recordMap : List (CborValue × CborValue)}
    (h : NoErrors (domainIssues recordMap (options.inRole .recipientOrStrict))) :
    AllIssues NotOpaque (domainIssues recordMap (options.inRole .recipientOrStrict)) := by
  rw [domainIssues_eq, noErrors_append] at h
  rw [domainIssues_eq, allIssues_append]
  constructor
  · intro i hi
    cases allAt_commitmentIssues _ _ i hi with
    | inl hhard => exact hhard.2
    | inr hunread => exact absurd hunread.2 (h.1 i hi)
  · intro i hi
    have hcodes : ∀ code ∈ sigCheckCodes, code ≠ .encUnsupported := by decide
    exact hcodes i.code (allSigCheck_checkSigs _ i hi)

end Roles

/-- Validation reads its options in the domain pass only. -/
theorem validate_congr {b : List UInt8} {options options' : ValidatorOptions}
    {pairs : List (CborValue × CborValue)} (hdecode : decodeCanonicalCbor b = .ok (.map pairs))
    (h : domainIssues pairs options = domainIssues pairs options') :
    validatePoeRecord b options = validatePoeRecord b options' := by
  simp only [validatePoeRecord, hdecode, asMap, h]

theorem accepted_of_noErrors {b : List UInt8} {options : ValidatorOptions} {record : PoeRecord}
    {warnings info : List ValidationIssue}
    (h : validatePoeRecord b options = .ok record warnings info) :
    ∃ pairs, decodeCanonicalCbor b = .ok (.map pairs) ∧ NoErrors (domainIssues pairs options) ∧
      ∀ i, i ∈ info ↔ i ∈ domainIssues pairs options ∧ i.severity = .info := by
  obtain ⟨pairs, hdecode, ⟨-, -, hnone⟩, -⟩ := validate_eq_ok_iff.mp ⟨warnings, info, h⟩
  obtain ⟨pairs', hdecode', -, rfl⟩ := issues_of_accepted h
  rw [hdecode] at hdecode'
  cases hdecode'
  refine ⟨pairs, hdecode, hnone, ?_⟩
  intro i
  rw [List.mem_filter, beq_iff_eq]
  exact and_congr_left' (perm_sortBy _).mem_iff

/-- The strict role accepts what the public one does without an opaque envelope. -/
theorem strict_accepts_iff {b : List UInt8} {options : ValidatorOptions} {record : PoeRecord}
    {warnings info : List ValidationIssue} :
    validatePoeRecord b (options.inRole .recipientOrStrict) = .ok record warnings info ↔
      validatePoeRecord b (options.inRole .publicRole) = .ok record warnings info ∧
        AllIssues NotOpaque info := by
  constructor
  · intro h
    obtain ⟨pairs, hdecode, hnone, hinfo⟩ := accepted_of_noErrors h
    have hsame : domainIssues pairs (options.inRole .recipientOrStrict) =
        domainIssues pairs (options.inRole .publicRole) := by
      cases agreeOrOpaque_domainIssues options pairs with
      | inl hsame => exact hsame
      | inr hunread =>
          obtain ⟨-, i, hi, herror⟩ := hunread
          exact absurd herror (hnone i hi)
    refine ⟨(validate_congr hdecode hsame).symm.trans h, ?_⟩
    intro i hi
    exact notOpaque_of_strict options hnone i ((hinfo i).mp hi).1
  · intro h
    obtain ⟨h, hall⟩ := h
    obtain ⟨pairs, hdecode, -, hinfo⟩ := accepted_of_noErrors h
    cases agreeOrOpaque_domainIssues options pairs with
    | inl hsame => exact (validate_congr hdecode hsame).trans h
    | inr hunread =>
        obtain ⟨⟨i, hi, hcode, hseverity⟩, -⟩ := hunread
        exact absurd hcode (hall i ((hinfo i).mpr ⟨hi, hseverity⟩))

/-! ## The policy -/

/-- **Validation policy.** A policy that is no stricter accepts the same record, and the strict
role accepts exactly what the public one does without informing of an opaque envelope. -/
theorem policy_monotone (b : List UInt8) (options options' : ValidatorOptions) :
    (NoStricter options options' → ∀ record warnings info,
      validatePoeRecord b options = .ok record warnings info →
        ∃ warnings' info', validatePoeRecord b options' = .ok record warnings' info') ∧
    ∀ record warnings info,
      validatePoeRecord b (options.inRole .recipientOrStrict) = .ok record warnings info ↔
        validatePoeRecord b (options.inRole .publicRole) = .ok record warnings info ∧
          ∀ i ∈ info, i.code ≠ .encUnsupported :=
  ⟨fun h _ _ _ haccepted => accepted_mono h haccepted, fun _ _ _ => strict_accepts_iff⟩

/-- More slots, no ceiling and one critical extension. -/
def relaxedOptions : ValidatorOptions :=
  { ValidatorOptions.default with
    supportedCriticalExtensions := ["x-a"], maxSlots := 2048, passphraseParamsCeiling := none }

theorem noStricter_relaxedOptions : NoStricter .default relaxedOptions where
  extensions _ hname := by cases hname
  role := .inl rfl
  maxSlots := by decide
  maxEncEnvelopeBytes := by decide
  ceiling _ h := by cases h

/-- The relaxed policy accepts the sample, the strict role does not. -/
theorem policy_monotone_sample :
    (∃ warnings info,
      validatePoeRecord sampleRecordBytes relaxedOptions = .ok sampleRecord warnings info) ∧
    validatePoeRecord sampleRecordBytes (ValidatorOptions.default.inRole .recipientOrStrict) ≠
      .ok sampleRecord [] sampleInfo := by
  have h := policy_monotone sampleRecordBytes .default relaxedOptions
  refine ⟨h.1 noStricter_relaxedOptions sampleRecord [] sampleInfo rfl, ?_⟩
  intro hstrict
  obtain ⟨-, hall⟩ := (h.2 _ _ _).mp hstrict
  exact hall _ List.mem_cons_self rfl

end Label309
