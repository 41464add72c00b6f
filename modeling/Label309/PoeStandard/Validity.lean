import Label309.PoeStandard.Projection

/-!
# The validator decides the record grammar

A record is accepted exactly when its bytes decode to a map of the grammar. The record
returned encodes to those bytes, and its signing body to those of the map without
`sigs`.
-/
namespace Label309
open SortByKey

theorem noErrors_iff_any {issues : List ValidationIssue} :
    NoErrors issues ↔ (issues.any fun i => i.severity == .error) = false := by
  simp [NoErrors]

/-- The verdict on a decoded record: the passes find no error and the projection exists. -/
theorem validate_eq_ok_iff {b : List UInt8} {options : ValidatorOptions} {record : PoeRecord} :
    (∃ warnings info, validatePoeRecord b options = .ok record warnings info) ↔
      ∃ pairs, decodeCanonicalCbor b = .ok (.map pairs) ∧
        (collectNonTextKeyMapIssues (.map pairs) = [] ∧ schemaIssues pairs = [] ∧
          NoErrors (domainIssues pairs options)) ∧
        recordFromCbor (.map pairs) = some record := by
  unfold validatePoeRecord
  cases hdecode : decodeCanonicalCbor b with
  | error cause => simp
  | ok decoded =>
      by_cases hguard : collectNonTextKeyMapIssues decoded = []
      · cases decoded with
        | map pairs =>
            by_cases hschema : schemaIssues pairs = []
            · simp only [hguard, hschema, asMap, List.isEmpty_nil, Bool.true_eq_false, if_false,
                emitResult, Except.ok.injEq, CborValue.map.injEq, exists_eq_left', true_and]
              rw [← @noErrors_sortIssues (domainIssues pairs options), noErrors_iff_any]
              cases (sortIssues (domainIssues pairs options)).any fun i => i.severity == .error with
              | true => simp
              | false => cases recordFromCbor (.map pairs) <;> simp
            · simp [hguard, hschema, asMap]
        | _ => simp [hguard, asMap]
      · simp only [List.isEmpty_eq_false_iff, ne_eq, hguard, not_false_eq_true, if_true,
          reduceCtorEq, exists_false, false_iff, not_exists, not_and]
        rintro pairs heq ⟨hguard', -⟩
        cases heq
        exact absurd hguard' hguard

theorem encodes_of_decode {b : List UInt8} {v : CborValue} (h : decodeCanonicalCbor b = .ok v) :
    Encodes v := ⟨b, encode_of_decode h⟩

/-- An accepted record: its decoded map, in the grammar, with its projection. -/
theorem grammar_of_accepted {b : List UInt8} {options : ValidatorOptions} {record : PoeRecord}
    {warnings info : List ValidationIssue}
    (h : validatePoeRecord b options = .ok record warnings info) :
    ∃ pairs, decodeCanonicalCbor b = .ok (.map pairs) ∧ RecordGrammar options pairs ∧
      recordFromCbor (.map pairs) = some record := by
  obtain ⟨pairs, hdecode, hpasses, hrecord⟩ := validate_eq_ok_iff.mp ⟨warnings, info, h⟩
  exact ⟨pairs, hdecode, (passes_iff (encodes_of_decode hdecode)).mp hpasses, hrecord⟩

/-- The issues of an accepted record are those of the domain pass. -/
theorem issues_of_accepted {b : List UInt8} {options : ValidatorOptions} {record : PoeRecord}
    {warnings info : List ValidationIssue}
    (h : validatePoeRecord b options = .ok record warnings info) :
    ∃ pairs, decodeCanonicalCbor b = .ok (.map pairs) ∧
      warnings = (sortIssues (domainIssues pairs options)).filter (fun i => i.severity == .warning) ∧
      info = (sortIssues (domainIssues pairs options)).filter (fun i => i.severity == .info) := by
  unfold validatePoeRecord at h
  split at h
  · cases h
  · rename_i decoded hdecode
    dsimp only at h
    split_ifs at h
    split at h
    · cases h
    · rename_i pairs hpairs
      rw [asMap_eq_some] at hpairs
      subst hpairs
      split_ifs at h
      rw [emitResult] at h
      split_ifs at h
      split at h
      · cases h
        exact ⟨pairs, hdecode, rfl, rfl⟩
      · cases h

/-- **The validator accepts exactly the grammar.** -/
theorem accepted_iff {b : List UInt8} {options : ValidatorOptions} :
    (∃ record warnings info, validatePoeRecord b options = .ok record warnings info) ↔
      ∃ pairs, decodeCanonicalCbor b = .ok (.map pairs) ∧ RecordGrammar options pairs := by
  constructor
  · rintro ⟨record, warnings, info, h⟩
    obtain ⟨pairs, hdecode, hgrammar, -⟩ := grammar_of_accepted h
    exact ⟨pairs, hdecode, hgrammar⟩
  · rintro ⟨pairs, hdecode, hgrammar⟩
    have hencodes := encodes_of_decode hdecode
    obtain ⟨record, hrecord, -⟩ := record_sameBytes hencodes hgrammar
    obtain ⟨warnings, info, h⟩ :=
      validate_eq_ok_iff.mpr ⟨pairs, hdecode, (passes_iff hencodes).mpr hgrammar, hrecord⟩
    exact ⟨record, warnings, info, h⟩

/-! ## Round trip -/

/-- **Validation round trip.** The record of an accepted byte string encodes to that byte
string, and the projection of a decoded map without errors always exists. -/
theorem validate_encode_roundTrip :
    (∀ b options record warnings info, validatePoeRecord b options = .ok record warnings info →
      encodePoeRecord record = .ok b) ∧
    ∀ b options pairs, decodeCanonicalCbor b = .ok (.map pairs) →
      collectNonTextKeyMapIssues (.map pairs) = [] → schemaIssues pairs = [] →
      NoErrors (domainIssues pairs options) → ∃ record, recordFromCbor (.map pairs) = some record := by
  constructor
  · intro b options record warnings info h
    obtain ⟨pairs, hdecode, hgrammar, hrecord⟩ := grammar_of_accepted h
    obtain ⟨record', hrecord', hsame, -⟩ := record_sameBytes (encodes_of_decode hdecode) hgrammar
    rw [hrecord] at hrecord'
    cases hrecord'
    exact hsame b (encode_of_decode hdecode)
  · intro b options pairs hdecode hguard hschema hdomain
    have hencodes := encodes_of_decode hdecode
    obtain ⟨record, hrecord, -⟩ :=
      record_sameBytes hencodes ((passes_iff hencodes).mp ⟨hguard, hschema, hdomain⟩)
    exact ⟨record, hrecord⟩

/-- Bytes of a record with an extension key and an item in the opaque reading. -/
def sampleRecordBytes : List UInt8 :=
  [0xa3, 0x61, 0x76, 0x01, 0x63, 0x78, 0x2d, 0x61, 0xf6, 0x65, 0x69, 0x74, 0x65, 0x6d, 0x73, 0x81,
    0xa2, 0x63, 0x65, 0x6e, 0x63, 0xa1, 0x66, 0x73, 0x63, 0x68, 0x65, 0x6d, 0x65, 0x02, 0x66, 0x68,
    0x61, 0x73, 0x68, 0x65, 0x73, 0xa1, 0x68, 0x73, 0x68, 0x61, 0x32, 0x2d, 0x32, 0x35, 0x36, 0x58,
    0x20] ++ List.replicate 32 0

def sampleRecord : PoeRecord where
  v := 1
  items := some
    [{ hashes := [("sha2-256", List.replicate 32 0)]
       uris := none
       enc := some (.opaqueValue (.map [(.text "scheme", .unsigned 2)])) }]
  merkle := none
  supersedes := none
  sigs := none
  crit := none
  extensions := [("x-a", .null)]

/-- What the public reading says of the sample's envelope. -/
def sampleInfo : List ValidationIssue :=
  encUnsupportedIssues [("scheme", .unsupportedEnvelopeScheme, "2")]
    [.key "items", .index 0, .key "enc"] .publicRole

/-- The sample's decoded map. -/
def samplePairs : List (CborValue × CborValue) :=
  [(.text "v", .unsigned 1), (.text "x-a", .null),
    (.text "items", .array [.map [(.text "enc", .map [(.text "scheme", .unsigned 2)]),
      (.text "hashes", .map [(.text "sha2-256", .bytes (List.replicate 32 0))])]])]

/-- The sample is accepted and encodes back; its decoded map projects. -/
theorem validate_encode_roundTrip_sample :
    encodePoeRecord sampleRecord = .ok sampleRecordBytes ∧
      (recordFromCbor (.map samplePairs)).isSome := by
  constructor
  · exact validate_encode_roundTrip.1 sampleRecordBytes .default sampleRecord [] sampleInfo rfl
  · rw [Option.isSome_iff_exists]
    refine validate_encode_roundTrip.2 sampleRecordBytes .default samplePairs rfl rfl rfl ?_
    rw [noErrors_iff_any]
    rfl

/-! ## The accepted language -/

/-- The default options support no critical extension, so none may be named. -/
theorem crit_absent_of_default {pairs : List (CborValue × CborValue)}
    (h : RecordGrammar .default pairs) : mapGet pairs "crit" = none := by
  cases hcrit : mapGet pairs "crit" with
  | none => rfl
  | some v =>
      obtain ⟨names, -, hne, -, hall⟩ := h.crit v hcrit
      obtain ⟨name, hname⟩ := List.exists_mem_of_ne_nil _ hne
      obtain ⟨-, -, -, hsupported⟩ := hall name hname
      simp [ValidatorOptions.default] at hsupported

/-- **The default validator accepts exactly the canonical encodings of the records of
the public grammar**, none of which names a critical extension. -/
theorem default_accepts_iff (b : List UInt8) :
    (∃ record warnings info, validatePoeRecord b .default = .ok record warnings info) ↔
      ∃ pairs, decodeCanonicalCbor b = .ok (.map pairs) ∧ RecordGrammar .default pairs ∧
        mapGet pairs "crit" = none := by
  rw [accepted_iff]
  constructor
  · rintro ⟨pairs, hdecode, h⟩
    exact ⟨pairs, hdecode, h, crit_absent_of_default h⟩
  · rintro ⟨pairs, hdecode, h, -⟩
    exact ⟨pairs, hdecode, h⟩

/-! ## The signing body -/

theorem withoutSigs_sublist (pairs : List (CborValue × CborValue)) :
    (withoutSigs pairs).Sublist pairs := List.filter_sublist

theorem canonical_withoutSigs {pairs : List (CborValue × CborValue)}
    (h : Canonical (.map pairs)) : Canonical (.map (withoutSigs pairs)) := by
  have hsub := withoutSigs_sublist pairs
  cases h with
  | map hfit hasc hkeys hvalues =>
      exact .map (lt_of_le_of_lt hsub.length_le hfit) (Ascending.sublist hasc hsub)
        (fun p hp => hkeys p (hsub.subset hp)) fun p hp => hvalues p (hsub.subset hp)

/-- The signing body of an accepted record is the encoding of its map without `sigs`. -/
theorem signingBody_eq {b : List UInt8} {options : ValidatorOptions} {record : PoeRecord}
    {warnings info : List ValidationIssue} {pairs : List (CborValue × CborValue)}
    (h : validatePoeRecord b options = .ok record warnings info)
    (hdecode : decodeCanonicalCbor b = .ok (.map pairs)) :
    ∃ body, encodeCanonicalCbor (.map (withoutSigs pairs)) = .ok body ∧
      encodeRecordBodyForSigning record = .ok body := by
  obtain ⟨pairs', hdecode', hgrammar, hrecord⟩ := grammar_of_accepted h
  rw [hdecode] at hdecode'
  cases hdecode'
  have hencodes := encodes_of_decode hdecode
  obtain ⟨record', hrecord', -, hsame⟩ := record_sameBytes hencodes hgrammar
  rw [hrecord] at hrecord'
  cases hrecord'
  obtain ⟨hnodup, hall⟩ := exists_writeValue_map_iff.mp hencodes
  have hsub := withoutSigs_sublist pairs
  obtain ⟨body, hbody⟩ := exists_writeValue_map_iff.mpr
    ⟨(hsub.map _).nodup hnodup, fun p hp => hall p (hsub.subset hp)⟩
  exact ⟨body, hbody, hsame body hbody⟩

/-- Two canonical maps that agree on every key but `sigs` are the same without it. -/
theorem withoutSigs_eq_of_lookups {pairs pairs' : List (CborValue × CborValue)}
    (h : Canonical (.map pairs)) (h' : Canonical (.map pairs')) (htext : TextKeyed pairs)
    (htext' : TextKeyed pairs') (hencodes : Encodes (.map pairs)) (hencodes' : Encodes (.map pairs'))
    (hagree : ∀ key, key ≠ "sigs" → mapGet pairs key = mapGet pairs' key) :
    withoutSigs pairs = withoutSigs pairs' := by
  obtain ⟨b, hb⟩ := hencodes
  obtain ⟨b', hb'⟩ := hencodes'
  have hnodup := nodup_keys_of_encodes hb
  have hnodup' := nodup_keys_of_encodes hb'
  have hmem {ps qs : List (CborValue × CborValue)} (hps : (ps.map Prod.fst).Nodup)
      (htext : TextKeyed ps) (hagree : ∀ key, key ≠ "sigs" → mapGet ps key = mapGet qs key) :
      ∀ p ∈ withoutSigs ps, p ∈ withoutSigs qs := by
    rintro ⟨k, v⟩ hp
    obtain ⟨hp, hne⟩ := mem_withoutSigs.mp hp
    obtain ⟨t, rfl⟩ := htext _ hp
    have ht : t ≠ "sigs" := fun heq => hne (by rw [heq])
    refine mem_withoutSigs.mpr ⟨mem_of_mapGet ?_, hne⟩
    rw [← hagree t ht]
    exact (mem_iff_mapGet hps).mp hp
  have hperm : (withoutSigs pairs).Perm (withoutSigs pairs') := by
    have hnodup1 := (withoutSigs_sublist pairs).nodup hnodup.of_map
    have hnodup2 := (withoutSigs_sublist pairs').nodup hnodup'.of_map
    refine (List.perm_ext_iff_of_nodup hnodup1 hnodup2).mpr fun p => ⟨hmem hnodup htext hagree p, ?_⟩
    exact hmem hnodup' htext' (fun key hkey => (hagree key hkey).symm) p
  cases h with
  | map _ hasc _ _ =>
      cases h' with
      | map _ hasc' _ _ =>
          have hasc1 : AscendingEntries (withoutSigs pairs) :=
            Ascending.sublist hasc (withoutSigs_sublist pairs)
          exact hasc1.eq_of_perm (Ascending.sublist hasc' (withoutSigs_sublist pairs')) hperm

/-- **The signing body commits to everything in the record except `sigs`.** It is the
encoding of the decoded map without that key, so two accepted records have one signing
body exactly when their maps agree on every other key. -/
theorem signingBody_commits :
    (∀ b options record warnings info, validatePoeRecord b options = .ok record warnings info →
      ∃ pairs body, decodeCanonicalCbor b = .ok (.map pairs) ∧
        encodeCanonicalCbor (.map (withoutSigs pairs)) = .ok body ∧
        encodeRecordBodyForSigning record = .ok body) ∧
    ∀ b b' options options' record record' warnings warnings' info info' pairs pairs',
      validatePoeRecord b options = .ok record warnings info →
      validatePoeRecord b' options' = .ok record' warnings' info' →
      decodeCanonicalCbor b = .ok (.map pairs) → decodeCanonicalCbor b' = .ok (.map pairs') →
      (encodeRecordBodyForSigning record = encodeRecordBodyForSigning record' ↔
        ∀ key, key ≠ "sigs" → mapGet pairs key = mapGet pairs' key) := by
  constructor
  · intro b options record warnings info h
    obtain ⟨pairs, hdecode, -⟩ := grammar_of_accepted h
    obtain ⟨body, hbody⟩ := signingBody_eq h hdecode
    exact ⟨pairs, body, hdecode, hbody⟩
  · intro b b' options options' record record' warnings warnings' info info' pairs pairs' h h'
      hdecode hdecode'
    obtain ⟨body, hbody, hsign⟩ := signingBody_eq h hdecode
    obtain ⟨body', hbody', hsign'⟩ := signingBody_eq h' hdecode'
    have hcanonical := (canonicalEncoding_of_decode hdecode).2
    have hcanonical' := (canonicalEncoding_of_decode hdecode').2
    rw [hsign, hsign', Except.ok.injEq]
    constructor
    · rintro rfl key hkey
      have heq := (canonical_withoutSigs hcanonical).encode_injective
        (canonical_withoutSigs hcanonical') hbody hbody'
      have hget := congrArg (mapGet · key) (CborValue.map.inj heq)
      simpa [mapGet_withoutSigs, hkey] using hget
    · intro hagree
      have htext {b : List UInt8} {options : ValidatorOptions} {record : PoeRecord}
          {warnings info : List ValidationIssue} {pairs : List (CborValue × CborValue)}
          (h : validatePoeRecord b options = .ok record warnings info)
          (hdecode : decodeCanonicalCbor b = .ok (.map pairs)) : TextKeyed pairs := by
        obtain ⟨pairs', hdecode', hgrammar, -⟩ := grammar_of_accepted h
        rw [hdecode] at hdecode'
        cases hdecode'
        intro p hp
        obtain ⟨t, ht, -⟩ := hgrammar.keys p hp
        exact ⟨t, ht⟩
      have heq := withoutSigs_eq_of_lookups hcanonical hcanonical' (htext h hdecode)
        (htext h' hdecode') (encodes_of_decode hdecode) (encodes_of_decode hdecode') hagree
      rw [heq, hbody'] at hbody
      cases hbody
      rfl

/-- The sample's signing body, and its agreement with the sample itself. -/
theorem signingBody_commits_sample :
    (∃ pairs body, decodeCanonicalCbor sampleRecordBytes = .ok (.map pairs) ∧
      encodeCanonicalCbor (.map (withoutSigs pairs)) = .ok body ∧
      encodeRecordBodyForSigning sampleRecord = .ok body) ∧
    (encodeRecordBodyForSigning sampleRecord = encodeRecordBodyForSigning sampleRecord ↔
      ∀ key, key ≠ "sigs" → mapGet samplePairs key = mapGet samplePairs key) :=
  ⟨signingBody_commits.1 sampleRecordBytes .default sampleRecord [] sampleInfo rfl,
    signingBody_commits.2 sampleRecordBytes sampleRecordBytes .default .default sampleRecord
      sampleRecord [] [] sampleInfo sampleInfo samplePairs samplePairs rfl rfl rfl rfl⟩

end Label309
