import Label309.PoeStandard.FieldChecks

/-!
# What the signature-entry checks accept

The schema pass and the structural COSE checks together accept exactly the signature
entries of the grammar.
-/
namespace Label309

/-! ## COSE_Key -/

theorem isUnsigned_iff {n : UInt64} {v : CborValue} : isUnsigned n v = true ↔ v = .unsigned n := by
  cases v <;> simp [isUnsigned]

theorem option_any_isUnsigned {n : UInt64} {o : Option CborValue} :
    o.any (isUnsigned n) = true ↔ o = some (.unsigned n) := by
  cases o <;> simp [isUnsigned_iff]

theorem option_any_isBytesOfLength {n : ℕ} {o : Option CborValue} :
    o.any (isBytesOfLength n) = true ↔ Required (BytesOf n) o := by
  cases o <;> simp [isBytesOfLength_iff, Required]

theorem inspectCoseKey_eq_none_iff {keyBytes : List UInt8} {i : ℕ} {path : List PathSegment} :
    inspectCoseKey keyBytes i path = none ↔ IsCoseKey keyBytes := by
  unfold inspectCoseKey IsCoseKey
  cases hdecode : decodeCanonicalCbor keyBytes with
  | error e => simp
  | ok decoded =>
      cases decoded with
      | map pairs =>
          simp only [getLabel, asMap, Option.bind_some, Except.ok.injEq, CborValue.map.injEq,
            exists_eq_left', ← option_any_isBytesOfLength, ← option_any_isUnsigned,
            ← Option.not_isSome_iff_eq_none]
          by_cases hprivate : (intKeyedGet pairs (-4)).isSome = true
          · simp [hprivate]
          · by_cases hkty : (intKeyedGet pairs 1).any (isUnsigned 1) = true
            · by_cases hcrv : (intKeyedGet pairs (-1)).any (isUnsigned 6) = true
              · by_cases hx : (intKeyedGet pairs (-2)).any (isBytesOfLength 32) = true <;>
                  simp [hprivate, hkty, hcrv, hx]
              · simp [hprivate, hkty, hcrv]
            · simp [hprivate, hkty]
      | _ => simp [getLabel, asMap]

/-- Every refusal of a key fails the record. -/
theorem severity_inspectCoseKey {keyBytes : List UInt8} {i : ℕ} {path : List PathSegment}
    {found : ValidationIssue} (h : inspectCoseKey keyBytes i path = some found) :
    found.severity = .error := by
  unfold inspectCoseKey at h
  split at h
  · cases h
    rfl
  · split_ifs at h <;> cases h <;> rfl

/-! ## COSE_Sign1 -/

theorem decodeProtectedHeader_eq_ok_iff {protectedBytes : List UInt8}
    {header : Option (List (CborValue × CborValue))} :
    decodeProtectedHeader protectedBytes = .ok header ↔
      (protectedBytes = [] ∧ header = none) ∨
        ∃ map, header = some map ∧ map ≠ [] ∧ protectedBytes ≠ [] ∧
          decodeCanonicalCbor protectedBytes = .ok (.map map) := by
  unfold decodeProtectedHeader
  by_cases hempty : protectedBytes = []
  · simp [hempty, eq_comm]
  · simp only [List.isEmpty_iff, hempty, if_false, false_and, false_or, ne_eq,
      not_false_eq_true, true_and]
    cases hdecode : decodeCanonicalCbor protectedBytes with
    | error e => simp
    | ok v =>
        cases v with
        | map map =>
            by_cases hmap : map = []
            · simp [hmap]
            · simp only [hmap, if_false, Except.ok.injEq, CborValue.map.injEq]
              grind
        | _ => simp

theorem decode_nil : decodeCanonicalCbor [] = .error (.malformed "unexpected end of input") := rfl

/-- A header is the one decoded, with the empty map for none. -/
theorem isProtectedHeader_iff {protectedBytes : List UInt8}
    {header : List (CborValue × CborValue)} :
    IsProtectedHeader protectedBytes header ↔
      ∃ decoded, decodeProtectedHeader protectedBytes = .ok decoded ∧
        decoded.getD [] = header := by
  simp only [decodeProtectedHeader_eq_ok_iff, IsProtectedHeader]
  constructor
  · rintro (⟨rfl, rfl⟩ | ⟨hne, hdecode⟩)
    · exact ⟨none, .inl ⟨rfl, rfl⟩, rfl⟩
    · refine ⟨some header, .inr ⟨header, rfl, hne, fun hnil => ?_, hdecode⟩, rfl⟩
      rw [hnil, decode_nil] at hdecode
      cases hdecode
  · rintro ⟨_, ⟨rfl, rfl⟩ | ⟨map, rfl, hne, -, hdecode⟩, rfl⟩
    · exact .inl ⟨rfl, rfl⟩
    · exact .inr ⟨hne, hdecode⟩

theorem isDetachedSign1_iff {coseBytes : List UInt8} {header : List (CborValue × CborValue)} :
    IsDetachedSign1 coseBytes header ↔
      ∃ cose, decodeCoseSign1Structural coseBytes = .ok cose ∧ cose.payloadPresent = false ∧
        cose.protectedHeader.getD [] = header := by
  unfold IsDetachedSign1
  constructor
  · rintro ⟨protectedBytes, unprotected, signature, hdecode, hlen, hheader⟩
    obtain ⟨decoded, hdecoded, rfl⟩ := isProtectedHeader_iff.mp hheader
    refine ⟨⟨decoded, false⟩, ?_, rfl, rfl⟩
    simp [decodeCoseSign1Structural, hdecode, isMap, asMap, isNull, isBytes, asBytes,
      isBytesOfLength, hlen, hdecoded, Except.map]
  · rintro ⟨cose, hok, hpayload, rfl⟩
    unfold decodeCoseSign1Structural at hok
    split at hok
    · cases hok
    · rename_i first second third fourth hdecode
      split at hok
      · rename_i protectedBytes
        split_ifs at hok with hmap hthird hsig
        cases hdecoded : decodeProtectedHeader protectedBytes with
        | error e => simp [hdecoded, Except.map] at hok
        | ok decoded =>
        simp only [hdecoded, Except.map, Except.ok.injEq] at hok
        subst hok
        obtain ⟨pairs, rfl⟩ := isMap_iff.mp (by simpa using hmap)
        obtain ⟨signature, rfl, hlen⟩ := isBytesOfLength_iff.mp (by simpa using hsig)
        have hnull : third = .null := by
          dsimp only at hpayload
          cases third <;> simp_all [isNull]
        subst hnull
        exact ⟨protectedBytes, pairs, signature, hdecode, hlen,
          isProtectedHeader_iff.mpr ⟨decoded, hdecoded, rfl⟩⟩
      · cases hok
    · cases hok

/-! ## Entries -/

theorem header_bind_eq {header : Option (List (CborValue × CborValue))} {label : ℤ} :
    (header.bind fun h => intKeyedGet h label) = intKeyedGet (header.getD []) label := by
  cases header <;> rfl

/-- An unknown algorithm is informational, so only the key conflict counts. -/
theorem noErrors_coseHeaderIssues {cose : CoseSign1Structural} {coseKey : Option (List UInt8)}
    {base : List PathSegment} :
    NoErrors (coseHeaderIssues cose coseKey base) ↔
      (coseKey.isSome → ¬ Required (BytesOf 32) (intKeyedGet (cose.protectedHeader.getD []) 4)) := by
  have halg : ∀ {c : Bool} {message : String},
      NoErrors (if c then [] else [issue .signatureUnsupported base message]) := by
    intro c message
    cases c <;> simp [ErrorCode.severity]
  simp only [coseHeaderIssues, noErrors_append, halg, true_and, header_bind_eq]
  rw [noErrors_flag rfl, ← option_any_isBytesOfLength]
  cases coseKey <;> simp

theorem schemaSig_eq_nil_iff {pairs : List (CborValue × CborValue)} {i : ℕ} :
    schemaSigIssues (.map pairs) i = [] ↔
      (∃ coseBytes, mapGet pairs "cose_sign1" = some (.bytes coseBytes)) ∧
        (∀ v, mapGet pairs "cose_key" = some v → ∃ keyBytes, v = .bytes keyBytes) ∧
        ∀ key ∈ textKeys pairs, key ∈ sigEntryKeys := by
  simp only [schemaSigIssues, asMap, List.append_eq_nil_iff, fieldIssues_required_iff,
    fieldIssues_optional_iff, unknownKeyIssues_eq_nil_iff, Required, OptionalField, isBytes_iff,
    and_assoc]
  refine and_congr_left fun _ => ?_
  constructor
  · rintro ⟨_, hget, coseBytes, rfl⟩
    exact ⟨coseBytes, hget⟩
  · rintro ⟨coseBytes, hget⟩
    exact ⟨_, hget, coseBytes, rfl⟩

theorem noErrors_checkCoseSign1 {coseBytes : List UInt8} {coseKey : Option (List UInt8)}
    {base : List PathSegment} :
    NoErrors (checkCoseSign1 coseBytes coseKey base) ↔
      ∃ header, IsDetachedSign1 coseBytes header ∧
        (coseKey.isSome → ¬ Required (BytesOf 32) (intKeyedGet header 4)) := by
  simp only [isDetachedSign1_iff, checkCoseSign1]
  cases decodeCoseSign1Structural coseBytes with
  | error e => simp [ErrorCode.severity]
  | ok cose =>
      cases hpayload : cose.payloadPresent with
      | true => simp [hpayload, ErrorCode.severity]
      | false => simp [hpayload, noErrors_coseHeaderIssues]

/-- The check of an entry whose fields have the right types. -/
theorem noErrors_checkSigEntry {pairs : List (CborValue × CborValue)} {i : ℕ}
    {coseBytes : List UInt8} (hcose : mapGet pairs "cose_sign1" = some (.bytes coseBytes))
    (hkey : ∀ v, mapGet pairs "cose_key" = some v → ∃ keyBytes, v = .bytes keyBytes) :
    NoErrors (checkSigEntry (.map pairs) i) ↔
      ∃ header, IsDetachedSign1 coseBytes header ∧
        OptionalField (fun v => ∃ keyBytes, v = .bytes keyBytes ∧ IsCoseKey keyBytes ∧
          ¬ Required (BytesOf 32) (intKeyedGet header 4)) (mapGet pairs "cose_key") := by
  simp only [checkSigEntry, asMap, hcose, Option.bind_some, asBytes]
  cases hget : mapGet pairs "cose_key" with
  | none => simp [noErrors_checkCoseSign1]
  | some v =>
      obtain ⟨keyBytes, rfl⟩ := hkey v hget
      simp only [Option.bind_some, asBytes, optionalField_some, CborValue.bytes.injEq,
        exists_eq_left']
      cases hinspect : inspectCoseKey keyBytes i
          ([.key "sigs", .index i] ++ [.key "cose_key"]) with
      | none =>
          have hcoseKey := inspectCoseKey_eq_none_iff.mp hinspect
          simp [hcoseKey, noErrors_checkCoseSign1]
      | some found =>
          have hno : ¬ IsCoseKey keyBytes := by
            intro hcoseKey
            rw [inspectCoseKey_eq_none_iff.mpr hcoseKey] at hinspect
            cases hinspect
          simp [NoErrors, severity_inspectCoseKey hinspect, hno]

/-- The passes over a signature entry. -/
theorem sigEntry_iff {e : CborValue} {i : ℕ} :
    (entryNonTextKeyIssues "sigs" e i = [] ∧ schemaSigIssues e i = [] ∧
        NoErrors (checkSigEntry e i)) ↔ IsSigEntry e := by
  cases e with
  | map pairs =>
      have hguard : entryNonTextKeyIssues "sigs" (.map pairs) i = [] ↔ TextKeyed pairs := by
        rw [← isNonTextKeyMap_map]
        cases h : isNonTextKeyMap (.map pairs) <;> simp [entryNonTextKeyIssues, h]
      simp only [hguard, schemaSig_eq_nil_iff, IsSigEntry, ClosedMapWith, CborValue.map.injEq,
        exists_eq_left', closedMap_iff]
      constructor
      · rintro ⟨htext, ⟨⟨coseBytes, hcose⟩, hkey, hkeys⟩, hcheck⟩
        obtain ⟨header, hsign, hfield⟩ := (noErrors_checkSigEntry hcose hkey).mp hcheck
        exact ⟨⟨htext, hkeys⟩, coseBytes, header, hcose, hsign, hfield⟩
      · rintro ⟨⟨htext, hkeys⟩, coseBytes, header, hcose, hsign, hfield⟩
        have hkey : ∀ v, mapGet pairs "cose_key" = some v → ∃ keyBytes, v = .bytes keyBytes := by
          intro v hv
          obtain ⟨keyBytes, heq, -⟩ := hfield v hv
          exact ⟨keyBytes, heq⟩
        exact ⟨htext, ⟨⟨coseBytes, hcose⟩, hkey, hkeys⟩,
          (noErrors_checkSigEntry hcose hkey).mpr ⟨header, hsign, hfield⟩⟩
  | _ => simp [schemaSigIssues, asMap, IsSigEntry, ClosedMapWith]

end Label309
