import Label309.PoeStandard.IssueCodes
import Label309.Verifier.CheckRules
import Label309.Verifier.SignatureSoundness

/-!
# Unrecognised signature algorithms

The validator calls an entry with an algorithm outside the registry unsupported, which is
informational. The verifier resolves the signer key before it looks at the algorithm, so the
same entry fails the record when it names no key that resolves.
-/
namespace Label309
open ExceptBind SortByKey

/-! ## Entries -/

/-- The protected algorithm of an entry. -/
def protectedAlg (entry : SigEntry) : Option CborValue :=
  match decodeCoseSign1Structural entry.coseSign1 with
  | .error _ => none
  | .ok cose => cose.protectedHeader.bind fun h => intKeyedGet h 1

/-- The protected algorithm is none of the registry. -/
def Unrecognised (entry : SigEntry) : Prop :=
  ∀ alg ∈ knownSigAlgIds, (protectedAlg entry).bind intValue ≠ some alg

instance (entry : SigEntry) : Decidable (Unrecognised entry) := by
  unfold Unrecognised
  infer_instance

/-- The verifier reads a detached signature, and the signer key that the entry names. -/
def ResolvesKey (entry : SigEntry) : Prop :=
  ∃ sign : WireSign1, decodeCanonicalCbor entry.coseSign1 = .ok sign.toCbor ∧
    match entry.coseKey with
    | none => Required (BytesOf 32) (intKeyedGet sign.header 4)
    | some blob => ∃ key, IsEd25519CoseKey blob key

/-- A structurally valid entry, read off its CBOR. -/
structure ValidSigEntry (entry : SigEntry) (header : List (CborValue × CborValue)) : Prop where
  detached : IsDetachedSign1 entry.coseSign1 header
  oneKey : ∀ blob, entry.coseKey = some blob →
    IsCoseKey blob ∧ ¬ Required (BytesOf 32) (intKeyedGet header 4)

theorem exists_validSigEntry {e : CborValue} {entry : SigEntry} (h : IsSigEntry e)
    (hentry : sigFromCbor e = some entry) : ∃ header, ValidSigEntry entry header := by
  obtain ⟨pairs, rfl, -, coseBytes, header, hcose, hsign, hkey⟩ := h
  simp only [sigFromCbor, asMap, Option.bind_eq_bind, Option.bind_some, hcose, asBytes,
    Option.some.injEq] at hentry
  subst hentry
  refine ⟨header, hsign, ?_⟩
  intro blob hblob
  obtain ⟨v, hget, hbytes⟩ := Option.bind_eq_some_iff.mp hblob
  obtain ⟨keyBytes, rfl, hcoseKey, hno⟩ := hkey v hget
  cases hbytes
  exact ⟨hcoseKey, hno⟩

section Entry
variable {entry : SigEntry} {header : List (CborValue × CborValue)}

theorem protectedAlg_eq (h : IsDetachedSign1 entry.coseSign1 header) :
    protectedAlg entry = intKeyedGet header 1 := by
  obtain ⟨cose, hdecode, -, rfl⟩ := isDetachedSign1_iff.mp h
  simp only [protectedAlg, hdecode, header_bind_eq]

/-! ## The validator -/

def unsupportedIssue (i : ℕ) : ValidationIssue :=
  issue .signatureUnsupported (sigPath i) "COSE_Sign1 protected alg not in \x7b-8, -19\x7d"

/-- The validator's check of a valid entry says at most that its algorithm is unsupported. -/
theorem checkSigEntry_eq {e : CborValue} (h : IsSigEntry e) (hentry : sigFromCbor e = some entry)
    (i : ℕ) :
    checkSigEntry e i = if Unrecognised entry then [unsupportedIssue i] else [] := by
  obtain ⟨header, hvalid⟩ := exists_validSigEntry h hentry
  obtain ⟨pairs, rfl, -⟩ := h
  simp only [sigFromCbor, asMap, Option.bind_eq_bind, Option.bind_some,
    Option.bind_eq_some_iff, Option.some.injEq] at hentry
  obtain ⟨coseBytes, ⟨v, hget, hbytes⟩, rfl⟩ := hentry
  have hkey : (((mapGet pairs "cose_key").bind asBytes).bind fun keyBytes =>
      inspectCoseKey keyBytes i (sigPath i ++ [.key "cose_key"])) = none := by
    cases hblob : (mapGet pairs "cose_key").bind asBytes with
    | none => rfl
    | some blob => exact inspectCoseKey_eq_none_iff.mpr (hvalid.oneKey blob hblob).1
  obtain ⟨cose, hdecode, hpayload, hheader⟩ := isDetachedSign1_iff.mp hvalid.detached
  have hconflict : ((intKeyedGet header 4).any (isBytesOfLength 32) &&
      ((mapGet pairs "cose_key").bind asBytes).isSome) = false := by
    cases hblob : (mapGet pairs "cose_key").bind asBytes with
    | none => simp
    | some blob =>
        have hno := (hvalid.oneKey blob hblob).2
        rw [← option_any_isBytesOfLength] at hno
        simp [hno]
  have halg : (((intKeyedGet header 1).bind intValue).any knownSigAlgIds.contains) = true ↔
      ¬ Unrecognised ⟨coseBytes, (mapGet pairs "cose_key").bind asBytes⟩ := by
    rw [Unrecognised, protectedAlg_eq hvalid.detached]
    cases (intKeyedGet header 1).bind intValue <;> simp
  rw [sigPath] at hkey
  simp only [checkSigEntry, asMap, hkey, hget, Option.bind_some, hbytes, checkCoseSign1, hdecode,
    hpayload, Bool.false_eq_true, if_false, coseHeaderIssues, header_bind_eq, hheader, hconflict,
    List.append_nil]
  by_cases hun : Unrecognised ⟨coseBytes, (mapGet pairs "cose_key").bind asBytes⟩
  · rw [if_pos hun, if_neg (fun hany => halg.mp hany hun)]
    rfl
  · rw [if_neg hun, if_pos (halg.mpr hun)]

/-! ## The verifier -/

theorem payload_of_detached {cose : CoseSign1Decoded}
    (h : IsDetachedSign1 entry.coseSign1 header)
    (hdecode : decodeCoseSign1 entry.coseSign1 = .ok cose) : cose.payload = none := by
  obtain ⟨protectedBytes, unprotected, signature, hcbor, -, -⟩ := h
  simp only [decodeCoseSign1, hcbor, decodeSign1Parts] at hdecode
  split at hdecode
  · cases hdecode
  · obtain ⟨payload, hpayload, hdecode⟩ := bind_eq_ok.mp hdecode
    obtain ⟨_, _, hdecode⟩ := bind_eq_ok.mp hdecode
    obtain ⟨_, _, hdecode⟩ := bind_eq_ok.mp hdecode
    cases hdecode
    cases hpayload
    rfl

/-- The header that the validator reads is the header of the signature on the wire. -/
theorem header_eq_of_decodes (h : IsDetachedSign1 entry.coseSign1 header) {sign : WireSign1}
    (hcbor : decodeCanonicalCbor entry.coseSign1 = .ok sign.toCbor) : sign.header = header := by
  obtain ⟨protectedBytes, unprotected, signature, hdecode, -, hheader⟩ := h
  rw [hcbor] at hdecode
  simp only [WireSign1.toCbor, Except.ok.injEq, CborValue.array.injEq, List.cons.injEq,
    CborValue.bytes.injEq] at hdecode
  apply sign.isHeader.unique
  rw [hdecode.1]
  exact hheader

/-- Without a recognised algorithm the algorithm is not that of the one implemented scheme. -/
theorem alg_ne_eddsa (h : IsDetachedSign1 entry.coseSign1 header) (hun : Unrecognised entry) :
    intKeyedGet header 1 ≠ some (.negative 7) := by
  intro halg
  apply hun (-8) (by decide)
  rw [protectedAlg_eq h, halg]
  rfl

variable {crypto : SignaturePrimitives} {i : ℕ} {recordBody : List UInt8}
  {network : CardanoNetwork}

/-- The signer key of an entry that decodes is found exactly when the entry names one. -/
theorem resolveSignerKey_isSome_iff {sign : WireSign1} {cose : CoseSign1Decoded}
    (hreads : sign.Reads cose) :
    (resolveSignerKey cose entry).isSome = true ↔
      match entry.coseKey with
      | none => Required (BytesOf 32) (intKeyedGet sign.header 4)
      | some blob => ∃ key, IsEd25519CoseKey blob key := by
  rw [resolveSignerKey.eq_def]
  cases entry.coseKey with
  | none =>
      have hkid := kid_eq_none_iff hreads
      rw [← Option.not_isSome_iff_eq_none, not_iff_not] at hkid
      rw [Option.isSome_map]
      exact hkid
  | some blob =>
      rw [Option.isSome_map, Option.isSome_iff_exists]
      exact exists_congr fun key => parseCoseKey_eq_some_iff

/-- **The reason of an unrecognised entry.** It is that the algorithm is unsupported exactly
when the signer key resolves. -/
theorem reason_of_unrecognised (h : IsDetachedSign1 entry.coseSign1 header)
    (hun : Unrecognised entry) :
    ∃ reason, (verifyOne crypto i entry recordBody network).reason = some reason ∧
      (reason = .signatureUnsupported ↔ ResolvesKey entry) := by
  rw [verifyOne.eq_def]
  cases hdecode : decodeCoseSign1 entry.coseSign1 with
  | error e =>
      refine ⟨.malformedSigCoseSign1, rfl, by simp, ?_⟩
      intro hresolves
      obtain ⟨sign, hcbor, -⟩ := hresolves
      obtain ⟨cose, hreads⟩ := exists_reads sign
      rw [(decodeSign1_detached_iff.mpr ⟨sign, hcbor, hreads⟩).1] at hdecode
      cases hdecode
  | ok cose =>
      have hpayload := payload_of_detached h hdecode
      obtain ⟨sign, hcbor, hreads⟩ := decodeSign1_detached_iff.mp ⟨hdecode, hpayload⟩
      have hresolves : ResolvesKey entry ↔ (resolveSignerKey cose entry).isSome = true := by
        rw [resolveSignerKey_isSome_iff hreads]
        constructor
        · intro hkey
          obtain ⟨sign', hcbor', hkey⟩ := hkey
          rw [hcbor, Except.ok.injEq] at hcbor'
          rwa [WireSign1.toCbor_injective hcbor']
        · intro hkey
          exact ⟨sign, hcbor, hkey⟩
      rw [hresolves]
      dsimp only
      cases hkey : resolveSignerKey cose entry with
      | none => exact ⟨.signerKeyUnresolved, rfl, by simp⟩
      | some resolved =>
          obtain ⟨pubKey, signerType⟩ := resolved
          have halg : cose.protectedHeader.alg ≠ some coseAlgEddsa := by
            rw [ne_eq, alg_eq_eddsa_iff hreads.header, header_eq_of_decodes h hcbor]
            exact alg_ne_eddsa h hun
          have hverify : coseSign1Label309Verify crypto entry.coseSign1 recordBody
              (some pubKey.val) = .err .unsupportedSigAlg := by
            simp only [coseSign1Label309Verify, hdecode, hpayload, Option.isSome_none,
              Bool.false_eq_true, if_false, halg, ne_eq, not_false_eq_true, if_true]
          refine ⟨.signatureUnsupported, ?_, by simp⟩
          simp only [verifyResolved, hverify, mapVerifyError]

end Entry

/-! ## The validator's issues -/

/-- The issue calls the `i`th entry unsupported. -/
def UnsupportedAt (i : ℕ) (issue : VerifierIssue) : Prop :=
  issue.code = .signatureUnsupported ∧ issue.path = sigPath i

instance (i : ℕ) (issue : VerifierIssue) : Decidable (UnsupportedAt i issue) := by
  unfold UnsupportedAt
  infer_instance

theorem sigPath_inj {i j : ℕ} : sigPath i = sigPath j ↔ i = j := by
  simp [sigPath]

/-- How often the issues of a list call the `i`th entry unsupported. -/
def timesUnsupported (i : ℕ) (issues : List ValidationIssue) : ℕ :=
  (issues.map VerifierIssue.ofValidation).countP (UnsupportedAt i)

@[simp] theorem timesUnsupported_append {i : ℕ} {as bs : List ValidationIssue} :
    timesUnsupported i (as ++ bs) = timesUnsupported i as + timesUnsupported i bs := by
  simp [timesUnsupported]

theorem timesUnsupported_of_allPlain {i : ℕ} {issues : List ValidationIssue}
    (h : AllPlain issues) : timesUnsupported i issues = 0 := by
  rw [timesUnsupported, List.countP_eq_zero]
  intro issue hissue
  obtain ⟨found, hfound, rfl⟩ := List.mem_map.mp hissue
  rw [decide_eq_true_eq]
  intro hat
  exact (h found hfound).2 hat.1

/-- The issues of the entries from the `k`th on. -/
def unsupportedIssues (k : ℕ) (sigs : List SigEntry) : List ValidationIssue :=
  (sigs.zipIdx k).flatMap fun entry =>
    if Unrecognised entry.1 then [unsupportedIssue entry.2] else []

theorem timesUnsupported_flag (c : Prop) [Decidable c] (i j : ℕ) :
    timesUnsupported i (if c then [unsupportedIssue j] else []) = if c ∧ j = i then 1 else 0 := by
  by_cases hc : c
  · by_cases hij : j = i
    · simp [hc, hij, timesUnsupported, UnsupportedAt, unsupportedIssue, issue,
        VerifierIssue.ofValidation]
    · simp [hc, hij, timesUnsupported, UnsupportedAt, unsupportedIssue, issue,
        VerifierIssue.ofValidation, sigPath_inj]
  · simp [hc, timesUnsupported]

/-- Every unrecognised entry is called unsupported once, at its own position. -/
theorem timesUnsupported_unsupportedIssues (sigs : List SigEntry) (k i : ℕ) :
    timesUnsupported i (unsupportedIssues k sigs) =
      if k ≤ i ∧ (sigs[i - k]?.any fun entry => Unrecognised entry) then 1 else 0 := by
  induction sigs generalizing k with
  | nil => simp [unsupportedIssues, timesUnsupported]
  | cons entry sigs ih =>
      have hcons : unsupportedIssues k (entry :: sigs) =
          (if Unrecognised entry then [unsupportedIssue k] else []) ++
            unsupportedIssues (k + 1) sigs := by
        simp [unsupportedIssues, List.zipIdx_cons]
      rw [hcons, timesUnsupported_append, timesUnsupported_flag, ih]
      by_cases hlt : i < k
      · have h1 : ¬ k = i := by omega
        have h2 : ¬ k ≤ i := by omega
        have h3 : ¬ k + 1 ≤ i := by omega
        simp [h1, h2, h3]
      · by_cases heq : k = i
        · subst heq
          simp
        · have h1 : k ≤ i := by omega
          have h2 : k + 1 ≤ i := by omega
          have h3 : i - k = i - (k + 1) + 1 := by omega
          simp [heq, h1, h2, h3]

/-- The signature issues of a record of the grammar. -/
theorem checkSigs_eq {pairs : List (CborValue × CborValue)} {options : ValidatorOptions}
    {record : PoeRecord} (h : RecordGrammar options pairs)
    (hrecord : recordFromCbor (.map pairs) = some record) :
    checkSigs (mapGet pairs "sigs") = unsupportedIssues 0 (record.sigs.getD []) := by
  have hsigs := sigs_of_recordFromCbor hrecord
  cases hfield : mapGet pairs "sigs" with
  | none =>
      simp only [hfield, arrayFromCbor, Option.some.injEq] at hsigs
      rw [← hsigs]
      rfl
  | some v =>
      obtain ⟨entries, rfl, hne, hall⟩ := h.sigs v hfield
      simp only [hfield, arrayFromCbor, Option.map_eq_some_iff] at hsigs
      obtain ⟨sigs, hread, hsome⟩ := hsigs
      rw [← hsome, Option.getD_some]
      simp only [checkSigs, List.isEmpty_iff, hne, if_false, List.nil_append, enumerateIssues,
        unsupportedIssues]
      have hentries := mapM_eq_some_iff.mp hread
      clear hread hsome hne hfield
      generalize 0 = k
      induction hentries generalizing k with
      | nil => rfl
      | @cons e entry es sigs he _ ih =>
          rw [List.forall_mem_cons] at hall
          simp only [List.zipIdx_cons, List.flatMap_cons]
          rw [checkSigEntry_eq hall.1 he, ih hall.2]

theorem severity_of_unsupported {pairs : List (CborValue × CborValue)} {options : ValidatorOptions}
    {record : PoeRecord} (h : RecordGrammar options pairs)
    (hrecord : recordFromCbor (.map pairs) = some record) {found : ValidationIssue}
    (hfound : found ∈ domainIssues pairs options) (hcode : found.code = .signatureUnsupported) :
    found.severity = .info := by
  rw [domainIssues_eq, checkSigs_eq h hrecord] at hfound
  rcases List.mem_append.mp hfound with hplain | hsig
  · exact absurd hcode (allPlain_commitmentIssues _ _ found hplain).2
  · obtain ⟨entry, -, hentry⟩ := List.mem_flatMap.mp hsig
    split_ifs at hentry
    · rw [List.mem_singleton.mp hentry]
      rfl
    · cases hentry

/-- The issues of one severity among sorted ones, counted in any order. -/
theorem timesUnsupported_filter (i : ℕ) (issues : List ValidationIssue) (severity : Severity) :
    timesUnsupported i ((sortIssues issues).filter fun found => found.severity == severity) =
      issues.countP fun found =>
        decide (UnsupportedAt i (.ofValidation found)) && found.severity == severity := by
  rw [timesUnsupported, List.countP_map, List.countP_filter]
  exact (perm_sortBy issues).countP_eq _

/-- **The validator's part.** Every unrecognised entry of an accepted record is called
unsupported once, in an issue that is informational. -/
theorem validation_unsupported {b : List UInt8} {options : ValidatorOptions} {record : PoeRecord}
    {warnings info : List ValidationIssue}
    (h : validatePoeRecord b options = .ok record warnings info) {i : ℕ} {entry : SigEntry}
    (hentry : (record.sigs.getD [])[i]? = some entry) (hun : Unrecognised entry) :
    timesUnsupported i warnings = 0 ∧ timesUnsupported i info = 1 := by
  obtain ⟨pairs, hdecode, rfl, rfl⟩ := issues_of_accepted h
  obtain ⟨pairs', hdecode', hgrammar, hrecord⟩ := grammar_of_accepted h
  rw [hdecode] at hdecode'
  cases hdecode'
  have hseverity : ∀ found ∈ domainIssues pairs options,
      UnsupportedAt i (.ofValidation found) → found.severity = .info := by
    intro found hfound hat
    exact severity_of_unsupported hgrammar hrecord hfound hat.1
  constructor
  · rw [timesUnsupported_filter, List.countP_eq_zero]
    intro found hfound
    simp only [Bool.and_eq_true, decide_eq_true_eq, beq_iff_eq, not_and]
    intro hat
    rw [hseverity found hfound hat]
    decide
  · have hcount : timesUnsupported i (domainIssues pairs options) = 1 := by
      rw [domainIssues_eq, checkSigs_eq hgrammar hrecord, timesUnsupported_append,
        timesUnsupported_of_allPlain (allPlain_commitmentIssues _ _),
        timesUnsupported_unsupportedIssues]
      simp [hentry, hun]
    rw [timesUnsupported_filter, ← hcount, timesUnsupported, List.countP_map]
    apply List.countP_congr
    intro found hfound
    simp only [Bool.and_eq_true, decide_eq_true_eq, beq_iff_eq, Function.comp_apply]
    exact ⟨fun hat => hat.1, fun hat => ⟨hat, hseverity found hfound hat⟩⟩

end Label309
