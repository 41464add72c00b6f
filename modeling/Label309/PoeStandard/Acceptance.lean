import Label309.Cbor.EncodeSpec
import Label309.PoeStandard.EnvelopeAcceptance
import Label309.PoeStandard.SigAcceptance

/-!
# What the validator's passes accept

The pre-guard, the schema pass and the domain pass of a decoded record together find
no error exactly on the records of the grammar.
-/
namespace Label309

/-! ## Values that encode -/

/-- The value has canonical bytes. -/
def Encodes (v : CborValue) : Prop := ∃ b, encodeCanonicalCbor v = .ok b

theorem Encodes.of_mem_array {items : List CborValue} (h : Encodes (.array items)) {v : CborValue}
    (hv : v ∈ items) : Encodes v := by
  obtain ⟨b, hb⟩ := h
  obtain ⟨body, hbody, -⟩ := ExceptBind.bind_eq_ok.mp hb
  exact exists_writeItems_iff.mp ⟨body, hbody⟩ v hv

theorem Encodes.of_mem_map {pairs : List (CborValue × CborValue)} (h : Encodes (.map pairs))
    {p : CborValue × CborValue} (hp : p ∈ pairs) : Encodes p.2 :=
  ((exists_writeValue_map_iff.mp h).2 p hp).2

theorem Encodes.of_mapGet {pairs : List (CborValue × CborValue)} (h : Encodes (.map pairs))
    {key : String} {v : CborValue} (hv : mapGet pairs key = some v) : Encodes v :=
  h.of_mem_map (mem_of_mapGet hv)

/-! ## Uris and hashes -/

theorem uriEntry_iff {base path : List PathSegment} (uri : CborValue) (j : ℕ) :
    (schemaUriEntryIssues base uri j = [] ∧ NoErrors (checkUriEntry path uri j)) ↔ IsUri uri := by
  cases uri with
  | text s =>
      cases hs : checkOneUri s <;>
        simp [schemaUriEntryIssues, checkUriEntry, isText, asText, IsUri, hs, ErrorCode.severity]
  | _ => simp [schemaUriEntryIssues, isText, asText, IsUri]

theorem uris_iff {raw : Option CborValue} {base path : List PathSegment} :
    (schemaUrisIssues raw base = [] ∧ NoErrors (checkUris raw path)) ↔
      OptionalField (ArrayOf IsUri) raw := by
  cases raw with
  | none => simp [schemaUrisIssues, arrayIssues, checkUris]
  | some v =>
      cases v with
      | array uris =>
          simp only [schemaUrisIssues, arrayIssues, checkUris, optionalField_some, ArrayOf,
            CborValue.array.injEq, exists_eq_left', enumerateIssues_eq_nil_iff]
          by_cases hempty : uris = []
          · simp [hempty, ErrorCode.severity]
          · simp only [List.isEmpty_iff, hempty, if_false, noErrors_enumerateIssues, ne_eq,
              not_false_eq_true, true_and]
            rw [← forall₂_and, forall_zipIdx_iff uriEntry_iff]
      | _ => simp [schemaUrisIssues, arrayIssues, ArrayOf]

theorem registryLookup_hash {alg : String} :
    registryLookup hashAlgLengths alg =
      if alg ∈ ["sha2-256", "blake2b-256"] then some 32 else none := by
  by_cases h1 : alg = "sha2-256"
  · subst h1
    rfl
  · by_cases h2 : alg = "blake2b-256"
    · subst h2
      rfl
    · have hne1 : "sha2-256" ≠ alg := Ne.symm h1
      have hne2 : "blake2b-256" ≠ alg := Ne.symm h2
      simp [registryLookup, hashAlgLengths, h1, h2, hne1, hne2]

/-- The domain check of a text-keyed entry with a byte-string digest. -/
theorem noErrors_checkHashEntry {alg : String} {digest : List UInt8} {base : List PathSegment} :
    NoErrors (checkHashEntry base (.text alg, .bytes digest)) ↔
      alg ∈ ["sha2-256", "blake2b-256"] ∧ digest.length = 32 := by
  simp only [checkHashEntry, asText, asBytes, registryLookup_hash]
  by_cases h : alg ∈ ["sha2-256", "blake2b-256"]
  · simp only [h, if_true, true_and]
    rw [noErrors_flag rfl, not_not]
  · simp [h, ErrorCode.severity]

/-- The three passes over `hashes`. -/
theorem hashes_iff {itemMap : List (CborValue × CborValue)} {base : List PathSegment} {idx : ℕ} :
    ((mapGet itemMap "hashes").any isNonTextKeyMap = false ∧
        schemaHashesIssues (mapGet itemMap "hashes") base = [] ∧
        NoErrors (checkItemHashes itemMap idx)) ↔
      Required IsHashes (mapGet itemMap "hashes") := by
  simp only [checkItemHashes]
  cases mapGet itemMap "hashes" with
  | none => simp [schemaHashesIssues]
  | some v =>
      cases v with
      | map pairs =>
          simp only [Option.any_some, isNonTextKeyMap_map, schemaHashesIssues, required_iff,
            IsHashes, ClosedMapWith, CborValue.map.injEq, exists_eq_left',
            List.flatMap_eq_nil_iff]
          by_cases hempty : pairs = []
          · simp [hempty, ErrorCode.severity]
          · simp only [List.isEmpty_iff, hempty, if_false, noErrors_flatMap, ne_eq,
              not_false_eq_true, true_and]
            constructor
            · rintro ⟨htext, hschema, hdomain⟩
              have hboth : ∀ p ∈ pairs, (∃ t ∈ ["sha2-256", "blake2b-256"], p.1 = .text t) ∧
                  BytesOf 32 p.2 := by
                rintro ⟨k, v⟩ hp
                obtain ⟨alg, rfl⟩ := htext _ hp
                have hbytes := hschema _ hp
                obtain ⟨digest, rfl⟩ : ∃ digest, v = .bytes digest := by
                  by_contra hno
                  simp [mt isBytes_iff.mp hno] at hbytes
                obtain ⟨halg, hlen⟩ := noErrors_checkHashEntry.mp (hdomain _ hp)
                exact ⟨⟨alg, halg, rfl⟩, digest, rfl, hlen⟩
              exact ⟨fun p hp => (hboth p hp).1, fun p hp => (hboth p hp).2⟩
            · rintro ⟨hclosed, hdigests⟩
              refine ⟨ClosedMap.textKeyed hclosed, ?_, ?_⟩
              · rintro ⟨k, v⟩ hp
                obtain ⟨alg, -, rfl⟩ := hclosed _ hp
                obtain ⟨digest, rfl, -⟩ := hdigests _ hp
                rfl
              · rintro ⟨k, v⟩ hp
                obtain ⟨alg, halg, rfl⟩ := hclosed _ hp
                obtain ⟨digest, rfl, hlen⟩ := hdigests _ hp
                exact noErrors_checkHashEntry.mpr ⟨halg, hlen⟩
      | _ => simp [schemaHashesIssues, required_iff, IsHashes, ClosedMapWith]

theorem IsHashes.hasContentHash {v : CborValue} (h : IsHashes v) :
    hasContentHash (some v) = true := by
  obtain ⟨pairs, rfl, hclosed, hne, -⟩ := h
  obtain ⟨p, hp⟩ := List.exists_mem_of_ne_nil _ hne
  obtain ⟨alg, halg, heq⟩ := hclosed p hp
  simp only [Label309.hasContentHash, List.any_eq_true]
  exact ⟨p, hp, by simp only [heq, registryLookup_hash, halg, if_true, Option.isSome_some]⟩

/-! ## Items and commitments -/

theorem entryNonTextKeyIssues_items {pairs : List (CborValue × CborValue)} {i : ℕ} :
    entryNonTextKeyIssues "items" (.map pairs) i = [] ↔
      TextKeyed pairs ∧ (mapGet pairs "hashes").any isNonTextKeyMap = false ∧
        (mapGet pairs "enc").any isNonTextKeyMap = false := by
  rw [← isNonTextKeyMap_map]
  cases h : isNonTextKeyMap (.map pairs) with
  | true => simp [entryNonTextKeyIssues, h]
  | false =>
      simp only [entryNonTextKeyIssues, h, Bool.false_eq_true, if_false, ne_eq,
        not_true_eq_false, asMap, true_and, List.flatMap_cons, List.flatMap_nil,
        List.append_nil, List.append_eq_nil_iff]
      cases (mapGet pairs "hashes").any isNonTextKeyMap <;>
        cases (mapGet pairs "enc").any isNonTextKeyMap <;> simp

theorem itemEnc_iff {options : ValidatorOptions} {pairs : List (CborValue × CborValue)} {i : ℕ}
    (hencodes : Encodes (.map pairs)) (h : Required IsHashes (mapGet pairs "hashes")) :
    ((mapGet pairs "enc").any isNonTextKeyMap = false ∧
      NoErrors (match mapGet pairs "enc" with
        | none => []
        | some encRaw => checkItemEnc pairs encRaw i options)) ↔
    OptionalField (IsEnvelope options) (mapGet pairs "enc") := by
  obtain ⟨hv, hget, hh⟩ := h
  cases hget' : mapGet pairs "enc" with
  | none => simp
  | some enc =>
      simp only [Option.any_some, optionalField_some]
      exact envelope_iff (hencodes.of_mapGet hget') (hget ▸ hh.hasContentHash)

/-- **The three passes accept exactly the items of the grammar.** -/
theorem item_iff {options : ValidatorOptions} {e : CborValue} {i : ℕ} (hencodes : Encodes e) :
    (entryNonTextKeyIssues "items" e i = [] ∧ schemaItemIssues e i = [] ∧
        NoErrors (checkItem options e i)) ↔ IsItem options e := by
  cases e with
  | map pairs =>
      simp only [entryNonTextKeyIssues_items, schemaItemIssues, checkItem, asMap,
        List.append_eq_nil_iff, unknownKeyIssues_eq_nil_iff, noErrors_append, IsItem,
        ClosedMapWith, CborValue.map.injEq, exists_eq_left', closedMap_iff]
      have hhashes := @hashes_iff pairs ([.key "items", .index i] ++ [.key "hashes"]) i
      have huris := @uris_iff (mapGet pairs "uris") ([.key "items", .index i] ++ [.key "uris"])
        [.key "items", .index i, .key "uris"]
      have henc := @itemEnc_iff options pairs i hencodes
      simp only [itemKeys]
      constructor
      · rintro ⟨⟨htext, hhguard, heguard⟩, ⟨⟨hhschema, huschema⟩, hkeys⟩, ⟨hhdomain, hudomain⟩,
          hedomain⟩
        have hh := hhashes.mp ⟨hhguard, hhschema, hhdomain⟩
        exact ⟨⟨htext, hkeys⟩, hh, huris.mp ⟨huschema, hudomain⟩, (henc hh).mp ⟨heguard, hedomain⟩⟩
      · rintro ⟨⟨htext, hkeys⟩, hh, hu, he⟩
        obtain ⟨hhguard, hhschema, hhdomain⟩ := hhashes.mpr hh
        obtain ⟨huschema, hudomain⟩ := huris.mpr hu
        obtain ⟨heguard, hedomain⟩ := (henc hh).mpr he
        exact ⟨⟨htext, hhguard, heguard⟩, ⟨⟨hhschema, huschema⟩, hkeys⟩, ⟨hhdomain, hudomain⟩,
          hedomain⟩
  | _ => simp [schemaItemIssues, asMap, IsItem, ClosedMapWith]

theorem isInteger_iff {v : CborValue} :
    isInteger v = true ↔ (∃ n, v = .unsigned n) ∨ ∃ m, v = .negative m := by
  cases v <;> simp [isInteger]

/-- The two passes over `leaf_count`. -/
theorem leafCount_iff {leafCount : Option CborValue} {missing mismatch : ValidationIssue}
    {base : List PathSegment} :
    (fieldIssues leafCount [missing] isInteger [mismatch] = [] ∧
        NoErrors (leafCountIssues leafCount base)) ↔ Required IsLeafCount leafCount := by
  rw [fieldIssues_required_iff]
  cases leafCount with
  | none => simp
  | some v =>
      simp only [required_iff, isInteger_iff]
      cases v with
      | unsigned n =>
          have hone : 1 ≤ n ↔ 1 ≤ n.toNat := UInt64.le_iff_toNat_le
          have hmax : n ≤ uint32Max ↔ n.toNat ≤ 2 ^ 32 - 1 := UInt64.le_iff_toNat_le
          simp only [leafCountIssues, IsLeafCount, CborValue.unsigned.injEq, exists_eq_left', hone,
            hmax]
          by_cases h : 1 ≤ n.toNat ∧ n.toNat ≤ 2 ^ 32 - 1
          · simp only [h, and_self, if_true, noErrors_nil, exists_eq', true_or]
          · simp only [h, if_false, noErrors_issue, iff_false, not_and, ne_eq, not_not]
            exact fun _ => rfl
      | _ => simp [leafCountIssues, IsLeafCount, ErrorCode.severity]

theorem registryLookup_merkle {alg : String} :
    registryLookup merkleCommitAlgLengths alg = if alg = "rfc9162-sha256" then some 32 else none := by
  by_cases h : alg = "rfc9162-sha256"
  · subst h
    rfl
  · have hne : "rfc9162-sha256" ≠ alg := Ne.symm h
    simp [registryLookup, merkleCommitAlgLengths, h, hne]

theorem noErrors_merkleRootIssues {alg : String} {root : List UInt8} {base : List PathSegment} :
    NoErrors (merkleRootIssues alg (some root) base) ↔
      alg = "rfc9162-sha256" ∧ root.length = 32 := by
  simp only [merkleRootIssues, registryLookup_merkle]
  by_cases h : alg = "rfc9162-sha256"
  · simp only [h, if_true, true_and]
    rw [noErrors_flag rfl, not_not]
  · simp [h, ErrorCode.severity]

/-- **The three passes accept exactly the Merkle commitments of the grammar.** -/
theorem merkleCommit_iff {e : CborValue} {i : ℕ} :
    (entryNonTextKeyIssues "merkle" e i = [] ∧ schemaMerkleIssues e i = [] ∧
        NoErrors (checkMerkleCommit e i)) ↔ IsMerkleCommit e := by
  cases e with
  | map pairs =>
      have hguard : entryNonTextKeyIssues "merkle" (.map pairs) i = [] ↔ TextKeyed pairs := by
        rw [← isNonTextKeyMap_map]
        cases h : isNonTextKeyMap (.map pairs) <;> simp [entryNonTextKeyIssues, h]
      have huris := @uris_iff (mapGet pairs "uris") ([.key "merkle", .index i] ++ [.key "uris"])
        ([.key "merkle", .index i] ++ [.key "uris"])
      simp only [hguard, schemaMerkleIssues, checkMerkleCommit, asMap, List.append_eq_nil_iff,
        noErrors_append, unknownKeyIssues_eq_nil_iff, IsMerkleCommit, ClosedMapWith,
        CborValue.map.injEq, exists_eq_left', closedMap_iff, merkleKeys]
      constructor
      · rintro ⟨htext, ⟨⟨⟨⟨halg, hroot⟩, hcount⟩, huschema⟩, hkeys⟩, ⟨hrootlen, hrange⟩, hudomain⟩
        obtain ⟨_, halg, hisText⟩ := fieldIssues_required_iff.mp halg
        obtain ⟨alg, rfl⟩ := isText_iff.mp hisText
        obtain ⟨_, hroot, hisBytes⟩ := fieldIssues_required_iff.mp hroot
        obtain ⟨root, rfl⟩ := isBytes_iff.mp hisBytes
        simp only [halg, hroot, Option.bind_some, asText, asBytes, Option.getD_some,
          noErrors_merkleRootIssues] at hrootlen
        obtain ⟨rfl, hlen⟩ := hrootlen
        exact ⟨⟨htext, hkeys⟩, halg, ⟨_, hroot, root, rfl, hlen⟩, leafCount_iff.mp ⟨hcount, hrange⟩,
          huris.mp ⟨huschema, hudomain⟩⟩
      · rintro ⟨⟨htext, hkeys⟩, halg, ⟨_, hroot, root, rfl, hlen⟩, hcount, hu⟩
        obtain ⟨hcount, hrange⟩ := leafCount_iff.mpr hcount
        obtain ⟨huschema, hudomain⟩ := huris.mpr hu
        refine ⟨htext, ⟨⟨⟨⟨fieldIssues_required_iff.mpr ⟨_, halg, rfl⟩,
          fieldIssues_required_iff.mpr ⟨_, hroot, rfl⟩⟩, hcount⟩, huschema⟩, hkeys⟩,
          ⟨?_, hrange⟩, hudomain⟩
        simpa only [halg, hroot, Option.bind_some, asText, asBytes, Option.getD_some,
          noErrors_merkleRootIssues, true_and] using hlen
  | _ => simp [schemaMerkleIssues, asMap, IsMerkleCommit, ClosedMapWith]

/-! ## Critical extensions -/

theorem critReason_eq_none_iff {recordMap : List (CborValue × CborValue)} {seen : List String}
    {name : String} :
    critReason recordMap seen name = none ↔ name ∉ topLevelBaseKeys ∧ isExtensionKey name = true ∧
      (∃ value, mapGet recordMap name = some value) ∧ name ∉ seen := by
  unfold critReason mapHas
  rw [← Option.isSome_iff_exists]
  by_cases hbase : name ∈ topLevelBaseKeys
  · simp [hbase]
  · by_cases hext : isExtensionKey name = true
    · by_cases hhas : (mapGet recordMap name).isSome = true
      · by_cases hseen : name ∈ seen <;> simp [hbase, hext, hhas, hseen]
      · simp [hbase, hext, hhas]
    · simp [hbase, hext]

/-- The walk accepts distinct, unseen, well-shaped and supported names. -/
theorem noErrors_critWalkIssues {recordMap : List (CborValue × CborValue)}
    {options : ValidatorOptions} (names : List String) (i : ℕ) (seen : List String) :
    NoErrors (critWalkIssues recordMap options i seen (names.map .text)) ↔
      names.Nodup ∧ ∀ name ∈ names, name ∉ seen ∧ name ∉ topLevelBaseKeys ∧
        isExtensionKey name = true ∧ (∃ value, mapGet recordMap name = some value) ∧
        name ∈ options.supportedCriticalExtensions := by
  induction names generalizing i seen with
  | nil => simp [critWalkIssues]
  | cons name names ih =>
      simp only [List.map_cons, critWalkIssues, asText, noErrors_append, ih, List.nodup_cons,
        List.mem_cons, not_or]
      have hreason := @critReason_eq_none_iff recordMap seen name
      cases hr : critReason recordMap seen name with
      | some reason =>
          rw [hr] at hreason
          have hno : ¬ (name ∉ topLevelBaseKeys ∧ isExtensionKey name = true ∧
              (∃ value, mapGet recordMap name = some value) ∧ name ∉ seen) := by
            simpa using hreason
          simp only [noErrors_issue, ErrorCode.severity]
          grind
      | none =>
          obtain ⟨hbase, hext, hhas, hseen⟩ := hreason.mp hr
          simp (disch := decide) only [noErrors_flag, Bool.not_eq_true', Bool.not_eq_false,
            List.contains_iff_mem]
          grind

theorem schemaCrit_entries {entries : List CborValue}
    (h : enumerateIssues entries schemaCritEntryIssues = []) :
    ∃ names : List String, entries = names.map .text := by
  have htext : ∀ (e : CborValue) (i : ℕ), schemaCritEntryIssues e i = [] ↔ ∃ s, e = .text s := by
    intro e i
    rw [← isText_iff]
    cases hs : isText e <;> simp [schemaCritEntryIssues, hs]
  rw [enumerateIssues_eq_nil_iff, forall_zipIdx_iff htext] at h
  induction entries with
  | nil => exact ⟨[], rfl⟩
  | cons e entries ih =>
      obtain ⟨⟨s, rfl⟩, hrest⟩ := List.forall_mem_cons.mp h
      obtain ⟨names, rfl⟩ := ih hrest
      exact ⟨s :: names, rfl⟩

theorem crit_iff {recordMap : List (CborValue × CborValue)} {options : ValidatorOptions}
    {mismatch : ValidationIssue} :
    (arrayIssues (mapGet recordMap "crit") [mismatch] schemaCritEntryIssues = [] ∧
        NoErrors (checkCrit recordMap options)) ↔
      OptionalField (IsCrit options recordMap) (mapGet recordMap "crit") := by
  unfold checkCrit
  cases mapGet recordMap "crit" with
  | none => simp [arrayIssues]
  | some v =>
      cases v with
      | array entries =>
          simp only [arrayIssues, optionalField_some, IsCrit, CborValue.array.injEq]
          constructor
          · rintro ⟨hschema, hdomain⟩
            obtain ⟨names, rfl⟩ := schemaCrit_entries hschema
            by_cases hempty : names = []
            · simp [hempty, ErrorCode.severity] at hdomain
            · simp only [List.isEmpty_iff, List.map_eq_nil_iff, hempty, if_false,
                noErrors_critWalkIssues] at hdomain
              obtain ⟨hnodup, hall⟩ := hdomain
              exact ⟨names, rfl, hempty, hnodup, fun name hname => (hall name hname).2⟩
          · rintro ⟨names, rfl, hempty, hnodup, hall⟩
            refine ⟨?_, ?_⟩
            · rw [enumerateIssues_eq_nil_iff]
              intro e he
              obtain ⟨name, -, heq⟩ := List.mem_map.mp (List.fst_mem_of_mem_zipIdx he)
              simp [schemaCritEntryIssues, ← heq, isText, asText]
            · simp only [List.isEmpty_iff, List.map_eq_nil_iff, hempty, if_false,
                noErrors_critWalkIssues]
              exact ⟨hnodup, fun name hname => ⟨by simp, hall name hname⟩⟩
      | _ => simp [arrayIssues, IsCrit]

/-! ## Records -/

/-- A field whose arrays have elements in `P` and that is not the empty array. -/
theorem optionalField_arrayOf_iff {P : CborValue → Prop} {field : Option CborValue} :
    OptionalField (ArrayOf P) field ↔
      OptionalField (fun v => ∃ entries, v = .array entries ∧ ∀ e ∈ entries, P e) field ∧
        field ≠ some (.array []) := by
  cases field with
  | none => simp
  | some v =>
      simp only [optionalField_some, ArrayOf, ne_eq, Option.some.injEq]
      constructor
      · rintro ⟨entries, rfl, hne, hall⟩
        exact ⟨⟨entries, rfl, hall⟩, by simpa using hne⟩
      · rintro ⟨⟨entries, rfl, hall⟩, hne⟩
        exact ⟨entries, rfl, by simpa using hne, hall⟩

theorem arrayLength_eq_zero_iff {field : Option CborValue} :
    arrayLength field = some 0 ↔ field = some (.array []) := by
  cases field with
  | none => simp [arrayLength]
  | some v => cases v <;> simp [arrayLength]

/-- On a record whose content fields are arrays, the presence rule. -/
theorem noErrors_content_iff {recordMap : List (CborValue × CborValue)}
    (hitems : ∀ v, mapGet recordMap "items" = some v → ∃ entries, v = .array entries)
    (hmerkle : ∀ v, mapGet recordMap "merkle" = some v → ∃ entries, v = .array entries) :
    NoErrors (checkContentCommitmentPresence recordMap) ↔
      mapGet recordMap "items" ≠ some (.array []) ∧ mapGet recordMap "merkle" ≠ some (.array []) ∧
        ¬ (mapGet recordMap "items" = none ∧ mapGet recordMap "merkle" = none) := by
  have hzero {field : Option CborValue} (harray : ∀ v, field = some v → ∃ es, v = .array es) :
      (arrayLength field).getD 0 = 0 ↔ field = none ∨ field = some (.array []) := by
    cases field with
    | none => simp [arrayLength]
    | some v =>
        obtain ⟨entries, rfl⟩ := harray v rfl
        simp [arrayLength]
  have hi := hzero hitems
  have hm := hzero hmerkle
  unfold checkContentCommitmentPresence
  by_cases hboth : (arrayLength (mapGet recordMap "items")).getD 0 = 0 ∧
      (arrayLength (mapGet recordMap "merkle")).getD 0 = 0
  · simp only [hboth, and_self, if_true, noErrors_issue, ErrorCode.severity]
    grind
  · simp (disch := decide) only [hboth, if_false, noErrors_append, noErrors_flag,
      arrayLength_eq_zero_iff]
    grind

theorem noErrors_checkSigs {field : Option CborValue} :
    NoErrors (checkSigs field) ↔
      field ≠ some (.array []) ∧ NoErrors (arrayIssues field [] checkSigEntry) := by
  cases field with
  | none => simp [checkSigs, arrayIssues]
  | some v =>
      cases v with
      | array sigs =>
          simp (disch := decide) only [checkSigs, arrayIssues, noErrors_append, noErrors_flag,
            List.isEmpty_iff, ne_eq, Option.some.injEq, CborValue.array.injEq]
      | _ => simp [checkSigs, arrayIssues]

theorem collect_eq_nil_iff {pairs : List (CborValue × CborValue)} :
    collectNonTextKeyMapIssues (.map pairs) = [] ↔ TextKeyed pairs ∧
      arrayIssues (mapGet pairs "items") [] (entryNonTextKeyIssues "items") = [] ∧
      arrayIssues (mapGet pairs "merkle") [] (entryNonTextKeyIssues "merkle") = [] ∧
      arrayIssues (mapGet pairs "sigs") [] (entryNonTextKeyIssues "sigs") = [] := by
  rw [← isNonTextKeyMap_map]
  cases h : isNonTextKeyMap (.map pairs) <;> simp [collectNonTextKeyMapIssues, h, asMap]

theorem supersedes_iff {field : Option CborValue} :
    schemaSupersedesIssues field = [] ↔ OptionalField (BytesOf 32) field := by
  cases field with
  | none => simp [schemaSupersedesIssues]
  | some v => cases v <;> simp [schemaSupersedesIssues, BytesOf]

theorem literalOne_iff {field : Option CborValue} {missing mismatch : ValidationIssue} :
    fieldIssues field [missing] isLiteralOne [mismatch] = [] ↔ field = some (.unsigned 1) := by
  rw [fieldIssues_required_iff]
  cases field with
  | none => simp
  | some v => cases v <;> simp [required_iff, isLiteralOne]

/-- The top-level keys a text-keyed record may have. -/
theorem noErrors_checkTopLevelKeys {recordMap : List (CborValue × CborValue)} :
    (TextKeyed recordMap ∧ NoErrors (checkTopLevelKeys recordMap)) ↔
      ∀ p ∈ recordMap, ∃ t, p.1 = .text t ∧ (t ∈ topLevelBaseKeys ∨ isExtensionKey t = true) := by
  have hkeys : NoErrors (checkTopLevelKeys recordMap) ↔
      ∀ key ∈ textKeys recordMap, key ∈ topLevelBaseKeys ∨ isExtensionKey key = true := by
    constructor
    · intro h key hkey
      by_contra hno
      refine h (issue .schemaUnknownField [.key key] s!"unknown top-level field: {key}") ?_ rfl
      simp only [checkTopLevelKeys, List.mem_map, List.mem_filter]
      exact ⟨key, ⟨hkey, by simpa using hno⟩, rfl⟩
    · intro h i hi
      obtain ⟨key, hmem, rfl⟩ := List.mem_map.mp hi
      obtain ⟨hkey, hno⟩ := List.mem_filter.mp hmem
      have hyes := h key hkey
      simp only [Bool.not_eq_true', Bool.or_eq_false_iff, List.contains_eq_mem,
        decide_eq_false_iff_not] at hno
      rcases hyes with hbase | hext
      · exact absurd hbase hno.1
      · rw [hext] at hno
        cases hno.2
  rw [hkeys]
  constructor
  · rintro ⟨htext, hall⟩ p hp
    obtain ⟨t, ht⟩ := htext p hp
    exact ⟨t, ht, hall t (mem_textKeys.mpr ⟨p.2, by rwa [← ht]⟩)⟩
  · intro hall
    refine ⟨fun p hp => ?_, fun key hkey => ?_⟩
    · obtain ⟨t, ht, -⟩ := hall p hp
      exact ⟨t, ht⟩
    · obtain ⟨v, hv⟩ := mem_textKeys.mp hkey
      obtain ⟨t, ht, hok⟩ := hall _ hv
      cases ht
      exact hok

/-- **The passes find no error exactly on the records of the grammar.** -/
theorem passes_iff {pairs : List (CborValue × CborValue)} {options : ValidatorOptions}
    (hencodes : Encodes (.map pairs)) :
    (collectNonTextKeyMapIssues (.map pairs) = [] ∧ schemaIssues pairs = [] ∧
        NoErrors (domainIssues pairs options)) ↔ RecordGrammar options pairs := by
  have hitems := fun mismatch => @arrayField_iff (mapGet pairs "items") mismatch
    (entryNonTextKeyIssues "items") schemaItemIssues (checkItem options) (IsItem options)
    fun entries hget e he i => item_iff ((hencodes.of_mapGet hget).of_mem_array he)
  have hmerkle := fun mismatch => @arrayField_iff (mapGet pairs "merkle") mismatch
    (entryNonTextKeyIssues "merkle") schemaMerkleIssues checkMerkleCommit IsMerkleCommit
    fun _ _ _ _ _ => merkleCommit_iff
  have hsigs := fun mismatch => @arrayField_iff (mapGet pairs "sigs") mismatch
    (entryNonTextKeyIssues "sigs") schemaSigIssues checkSigEntry IsSigEntry
    fun _ _ _ _ _ => sigEntry_iff
  simp only [collect_eq_nil_iff, schemaIssues, domainIssues, List.append_eq_nil_iff,
    noErrors_append, literalOne_iff, supersedes_iff, noErrors_checkSigs]
  constructor
  · rintro ⟨⟨htext, gi, gm, gs⟩, ⟨⟨⟨⟨⟨hv, si⟩, sm⟩, hsupersedes⟩, ss⟩, sc⟩,
      ⟨⟨⟨⟨⟨hcontent, dc⟩, hkeys⟩, di⟩, dm⟩, hsigsne, ds⟩⟩
    have hi := (hitems _).mp ⟨gi, si, di⟩
    have hm := (hmerkle _).mp ⟨gm, sm, dm⟩
    have hs := (hsigs _).mp ⟨gs, ss, ds⟩
    have harray {P : CborValue → Prop} {field : Option CborValue}
        (h : OptionalField (fun v => ∃ es, v = .array es ∧ ∀ e ∈ es, P e) field) :
        ∀ v, field = some v → ∃ es, v = .array es := by
      intro v hv
      obtain ⟨es, heq, -⟩ := h v hv
      exact ⟨es, heq⟩
    obtain ⟨hine, hmne, hsome⟩ := (noErrors_content_iff (harray hi) (harray hm)).mp hcontent
    exact ⟨noErrors_checkTopLevelKeys.mp ⟨htext, hkeys⟩, hv,
      optionalField_arrayOf_iff.mpr ⟨hi, hine⟩, optionalField_arrayOf_iff.mpr ⟨hm, hmne⟩, hsome,
      hsupersedes, optionalField_arrayOf_iff.mpr ⟨hs, hsigsne⟩, crit_iff.mp ⟨sc, dc⟩⟩
  · intro h
    obtain ⟨hi, hine⟩ := optionalField_arrayOf_iff.mp h.items
    obtain ⟨hm, hmne⟩ := optionalField_arrayOf_iff.mp h.merkle
    obtain ⟨hs, hsigsne⟩ := optionalField_arrayOf_iff.mp h.sigs
    obtain ⟨htext, hkeys⟩ := noErrors_checkTopLevelKeys.mpr h.keys
    obtain ⟨gi, si, di⟩ := (hitems _).mpr hi
    obtain ⟨gm, sm, dm⟩ := (hmerkle _).mpr hm
    obtain ⟨gs, ss, ds⟩ := (hsigs _).mpr hs
    obtain ⟨sc, dc⟩ := crit_iff.mpr h.crit
    have hcontent := (noErrors_content_iff
      (fun v hv => ⟨_, (hi v hv).choose_spec.1⟩) fun v hv => ⟨_, (hm v hv).choose_spec.1⟩).mpr
      ⟨hine, hmne, h.content⟩
    exact ⟨⟨htext, gi, gm, gs⟩, ⟨⟨⟨⟨⟨h.v, si⟩, sm⟩, h.supersedes⟩, ss⟩, sc⟩,
      ⟨⟨⟨⟨⟨hcontent, dc⟩, hkeys⟩, di⟩, dm⟩, hsigsne, ds⟩⟩

end Label309
