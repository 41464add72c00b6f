import Label309.PoeStandard.FieldChecks

/-!
# What the envelope checks accept

The pre-guard, the shape pass and the rules of an envelope together accept exactly
the envelopes of the grammar.
-/
namespace Label309

/-! ## Registries -/

theorem mem_kemRegistry_iff {kem field : String} {length : ℕ} :
    (kem, field, length) ∈ kemRegistry ↔ ∃ descriptor, kemSlotDescriptor kem = some descriptor ∧
      descriptor.field = field ∧ descriptor.fieldLength = length := by
  unfold kemSlotDescriptor
  by_cases h1 : kem = "x25519"
  · subst h1
    simp [kemRegistry, eq_comm]
  · by_cases h2 : kem = "mlkem768x25519"
    · subst h2
      simp [kemRegistry, eq_comm]
    · simp [kemRegistry, h1, h2]

theorem kemSlotDescriptor_eq_none_iff {kem : String} :
    kemSlotDescriptor kem = none ↔ kem ∉ kemRegistry.map Prod.fst := by
  unfold kemSlotDescriptor
  split_ifs with h1 h2 <;> simp_all [kemRegistry]

/-- What every registered KEM shares. -/
theorem kemSlotDescriptor_spec {kem : String} {descriptor : KemSlotDescriptor}
    (h : kemSlotDescriptor kem = some descriptor) :
    descriptor.wrapLength = 48 ∧ descriptor.fieldLengthCode.severity = .error ∧
      (descriptor.field = "epk" ∨ descriptor.field = "kem_ct") := by
  unfold kemSlotDescriptor at h
  split_ifs at h with h1 h2
  · cases h
    exact ⟨rfl, rfl, .inl rfl⟩
  · cases h
    exact ⟨rfl, rfl, .inr rfl⟩

theorem registryLookup_aead {aead : String} :
    registryLookup aeadNonceLengths aead = if aead = contentFormat then some 24 else none := by
  by_cases h : aead = contentFormat
  · subst h
    rfl
  · have hne : contentFormat ≠ aead := Ne.symm h
    simp only [contentFormat] at hne
    simp [registryLookup, aeadNonceLengths, h, hne]

/-! ## Slots -/

theorem noErrors_slotFieldIssues {slotMap : List (CborValue × CborValue)} {field kem : String}
    {slotPath path : List PathSegment} {n : ℕ} {code : ErrorCode}
    {message : List UInt8 → String} (hcode : code.severity = .error) :
    NoErrors (slotFieldIssues slotMap field kem slotPath fun b =>
        if b.length ≠ n then [issue code path (message b)] else []) ↔
      Required (BytesOf n) (mapGet slotMap field) := by
  unfold slotFieldIssues
  cases hget : mapGet slotMap field with
  | none => simp [ErrorCode.severity]
  | some v =>
      cases v with
      | bytes b =>
          by_cases hn : b.length = n <;> simp [asBytes, required_iff, BytesOf, hn, hcode]
      | _ => simp [asBytes, required_iff, BytesOf, ErrorCode.severity]

/-- A slot is closed over its two keys when no foreign field and no stray key is there. -/
theorem closedMap_slot_iff {slotMap : List (CborValue × CborValue)} {field : String}
    (htext : TextKeyed slotMap) (hfield : field = "epk" ∨ field = "kem_ct") :
    ClosedMap [field, "wrap"] slotMap ↔
      mapHas slotMap (if field = "epk" then "kem_ct" else "epk") = false ∧
        ∀ key ∈ textKeys slotMap, key ∈ slotKeyUniverse := by
  rw [closedMap_iff]
  simp only [htext, true_and, mapHas, Option.isSome_eq_false_iff, Option.isNone_iff_eq_none,
    mapGet_eq_none_iff]
  rcases hfield with rfl | rfl
  · simp only [if_true, slotKeyUniverse]
    constructor
    · intro h
      exact ⟨fun hmem => by simpa using h _ hmem, fun key hkey => by have := h key hkey; grind⟩
    · intro ⟨hno, h⟩ key hkey
      have hmem := h key hkey
      grind
  · simp only [String.reduceEq, if_false, slotKeyUniverse]
    constructor
    · intro h
      exact ⟨fun hmem => by simpa using h _ hmem, fun key hkey => by have := h key hkey; grind⟩
    · intro ⟨hno, h⟩ key hkey
      have hmem := h key hkey
      grind

theorem noErrors_checkSlotShape {slotMap : List (CborValue × CborValue)}
    {descriptor : KemSlotDescriptor} {kem : String} {slotPath : List PathSegment}
    (hkem : kemSlotDescriptor kem = some descriptor) (htext : TextKeyed slotMap) :
    NoErrors (checkSlotShape slotMap descriptor kem slotPath) ↔
      IsSlot descriptor.field descriptor.fieldLength (.map slotMap) := by
  obtain ⟨hwrap, hcode, hfield⟩ := kemSlotDescriptor_spec hkem
  simp only [checkSlotShape, noErrors_append,
    noErrors_flag (show ErrorCode.encSlotInvalidShape.severity = .error from rfl),
    noErrors_unknownKeyIssues (show ErrorCode.encSlotInvalidShape.severity = .error from rfl),
    noErrors_slotFieldIssues hcode,
    noErrors_slotFieldIssues (show ErrorCode.wrapLengthMismatch.severity = .error from rfl),
    IsSlot, ClosedMapWith, CborValue.map.injEq, exists_eq_left', hwrap,
    closedMap_slot_iff htext hfield, Bool.not_eq_true]
  tauto

/-- The slot walk accepts slots of the right shape whose materials are new: distinct
from one another and from those seen before. -/
theorem noErrors_slotWalkIssues {descriptor : KemSlotDescriptor} {kem : String}
    {slotsPath : List PathSegment} (hkem : kemSlotDescriptor kem = some descriptor)
    {slots : List CborValue} (hmaps : ∀ e ∈ slots, ∃ m, e = .map m ∧ TextKeyed m)
    (j : ℕ) (seen : List (List UInt8)) :
    NoErrors (slotWalkIssues descriptor kem slotsPath j seen slots) ↔
      (∀ e ∈ slots, IsSlot descriptor.field descriptor.fieldLength e) ∧
        (slots.map (slotMaterial descriptor.field)).Nodup ∧
        ∀ e ∈ slots, ∀ b ∈ seen, slotMaterial descriptor.field e ≠ some (.bytes b) := by
  induction slots generalizing j seen with
  | nil => simp [slotWalkIssues]
  | cons e slots ih =>
      obtain ⟨⟨m, rfl, htext⟩, hrest⟩ := List.forall_mem_cons.mp hmaps
      simp only [slotWalkIssues, asMap, noErrors_append, noErrors_checkSlotShape hkem htext,
        List.forall_mem_cons, List.map_cons, List.nodup_cons]
      by_cases hslot : IsSlot descriptor.field descriptor.fieldLength (.map m)
      · obtain ⟨pairs, heq, -, ⟨v, hget, b, rfl, -⟩, -⟩ := hslot
        cases heq
        have hmaterial : slotMaterial descriptor.field (.map m) = some (.bytes b) := hget
        simp only [hget, Option.bind_some, asBytes, noErrors_append, ih hrest, hmaterial,
          noErrors_flag (show ErrorCode.encSlotsDuplicateKemMaterial.severity = .error from rfl),
          List.contains_iff_mem, List.mem_map, List.mem_cons]
        grind
      · simp [hslot]

/-- A slot of the grammar passes the pre-guard and the type pass. -/
theorem IsSlot.passes {field : String} {length : ℕ} {e : CborValue} (h : IsSlot field length e)
    (hfield : field = "epk" ∨ field = "kem_ct") (base : List PathSegment) (j : ℕ) :
    isNonTextKeyMap e = false ∧ slotTypeIssues base e j = [] := by
  obtain ⟨pairs, rfl, hclosed, ⟨v, hv, b, rfl, -⟩, w, hw, c, rfl, -⟩ := h
  refine ⟨isNonTextKeyMap_map.mpr hclosed.textKeyed, ?_⟩
  have habsent (key : String) (hkey : key ∉ [field, "wrap"]) : mapGet pairs key = none := by
    rw [mapGet_eq_none_iff]
    exact fun hmem => hkey ((closedMap_iff.mp hclosed).2 key hmem)
  rcases hfield with rfl | rfl
  · have hforeign := habsent "kem_ct" (by decide)
    simp [slotTypeIssues, asMap, slotKeyUniverse, fieldIssues, hv, hw, hforeign, isBytes, asBytes]
  · have hforeign := habsent "epk" (by decide)
    simp [slotTypeIssues, asMap, slotKeyUniverse, fieldIssues, hv, hw, hforeign, isBytes, asBytes]

theorem textKeyed_of_slotTypeIssues {e : CborValue} {base : List PathSegment} {j : ℕ}
    (hguard : isNonTextKeyMap e = false) (htype : slotTypeIssues base e j = []) :
    ∃ m, e = .map m ∧ TextKeyed m := by
  cases e with
  | map m => exact ⟨m, rfl, isNonTextKeyMap_map.mp hguard⟩
  | _ => simp [slotTypeIssues, asMap] at htype

/-- The slots of the recipient key path. -/
def IsSlots (maxSlots : ℕ) (field : String) (length : ℕ) (v : CborValue) : Prop :=
  ∃ entries, v = .array entries ∧ entries ≠ [] ∧ entries.length ≤ maxSlots ∧
    (∀ e ∈ entries, IsSlot field length e) ∧ (entries.map (slotMaterial field)).Nodup

/-- The passes over `slots` under a registered KEM. -/
theorem slots_iff {slots : Option CborValue} {kem : String} {descriptor : KemSlotDescriptor}
    (hkem : kemSlotDescriptor kem = some descriptor) {options : ValidatorOptions}
    {guardPath base slotsPath : List PathSegment} {mismatch : ValidationIssue} :
    (arrayIssues slots [] (fun slot j =>
          if isNonTextKeyMap slot then [nonTextKeyIssue (guardPath ++ [.key "slots", .index j])]
          else []) = [] ∧
        arrayIssues slots [mismatch] (slotTypeIssues base) = [] ∧
        NoErrors (slotsIssues slots (some kem) options slotsPath)) ↔
      OptionalField (IsSlots options.maxSlots descriptor.field descriptor.fieldLength) slots := by
  obtain ⟨-, -, hfield⟩ := kemSlotDescriptor_spec hkem
  cases slots with
  | none => simp [arrayIssues, slotsIssues]
  | some v =>
      cases v with
      | array entries =>
          simp only [arrayIssues, enumerateIssues_eq_nil_iff, slotsIssues, optionalField_some,
            IsSlots, CborValue.array.injEq, exists_eq_left', Option.bind_some, hkem,
            Option.getD_some]
          constructor
          · rintro ⟨hguard, htype, hwalk⟩
            have hmaps : ∀ e ∈ entries, ∃ m, e = .map m ∧ TextKeyed m := by
              intro e he
              obtain ⟨i, hi, rfl⟩ := List.getElem_of_mem he
              have hmem : (entries[i], i) ∈ entries.zipIdx := by
                simp [List.mem_zipIdx_iff_getElem?, hi]
              exact textKeyed_of_slotTypeIssues (by simpa using hguard _ hmem) (htype _ hmem)
            by_cases hempty : entries = []
            · simp [hempty, ErrorCode.severity] at hwalk
            · by_cases hmany : entries.length > options.maxSlots
              · simp [hempty, hmany, ErrorCode.severity] at hwalk
              · simp only [List.isEmpty_iff, hempty, hmany, if_false,
                  noErrors_slotWalkIssues hkem hmaps] at hwalk
                exact ⟨hempty, by omega, hwalk.1, hwalk.2.1⟩
          · rintro ⟨hempty, hlen, hslots, hnodup⟩
            have hmany : ¬ entries.length > options.maxSlots := by omega
            have hpass (e : CborValue × ℕ) (he : e ∈ entries.zipIdx) :=
              (hslots _ (List.fst_mem_of_mem_zipIdx he)).passes hfield base e.2
            have hmaps : ∀ e ∈ entries, ∃ m, e = .map m ∧ TextKeyed m := by
              intro e he
              obtain ⟨pairs, rfl, hclosed, -⟩ := hslots e he
              exact ⟨pairs, rfl, hclosed.textKeyed⟩
            refine ⟨fun e he => by simp [(hpass e he).1], fun e he => (hpass e he).2, ?_⟩
            simp only [List.isEmpty_iff, hempty, hmany, if_false,
              noErrors_slotWalkIssues hkem hmaps]
            exact ⟨hslots, hnodup, by simp⟩
      | _ => simp [arrayIssues, IsSlots]

/-! ## Passphrase block -/

theorem noErrors_argon2ParamIssues {params : List (CborValue × CborValue)}
    {path : List PathSegment} {ceiling : Option Argon2ParamsCeiling} {name : String}
    {floor : UInt64} :
    NoErrors (argon2ParamIssues params path ceiling name floor) ↔
      Required (IsArgon2Param floor.toNat (ceiling.map (·.bound name))) (mapGet params name) := by
  unfold argon2ParamIssues
  cases mapGet params name with
  | none => simp [ErrorCode.severity]
  | some v =>
      cases v with
      | unsigned n =>
          have hmax : n > uint32Max ↔ ¬ n.toNat ≤ 2 ^ 32 - 1 := by
            rw [gt_iff_lt, UInt64.lt_iff_toNat_lt, not_le]
            rfl
          have hfloor : n < floor ↔ ¬ floor.toNat ≤ n.toNat := by
            rw [UInt64.lt_iff_toNat_lt, not_le]
          simp only [required_iff, IsArgon2Param, CborValue.unsigned.injEq, exists_eq_left']
          by_cases h1 : n.toNat ≤ 2 ^ 32 - 1
          · by_cases h2 : floor.toNat ≤ n.toNat
            · simp only [hmax, hfloor, h1, h2, not_true_eq_false, if_false, true_and]
              cases ceiling with
              | none => simp
              | some ceiling =>
                  simp only [Option.map_some, Option.some.injEq, forall_eq']
                  rw [noErrors_flag rfl, gt_iff_lt, UInt64.not_lt]
            · simp only [hmax, hfloor, h1, h2, not_true_eq_false, not_false_eq_true, if_false,
                if_true, noErrors_issue, false_and, iff_false, not_not]
              rfl
          · simp only [hmax, h1, not_false_eq_true, if_true, noErrors_issue, false_and, and_false,
              iff_false, not_not]
            rfl
      | _ => simp [required_iff, IsArgon2Param, ErrorCode.severity]

theorem saltIssues_eq_nil_iff {salt : Option CborValue} {path : List PathSegment} :
    saltIssues salt path = [] ↔ Required IsSalt salt := by
  cases salt with
  | none => simp [saltIssues]
  | some v =>
      cases v with
      | bytes b =>
          simp only [saltIssues, required_iff, IsSalt, CborValue.bytes.injEq, exists_eq_left']
          split_ifs with h1 h2 <;> simp <;> omega
      | _ => simp [saltIssues, required_iff, IsSalt]

/-- The KDF rules of a block whose fields have the right types. -/
theorem noErrors_checkPassphraseBlock {ppMap params : List (CborValue × CborValue)} {alg : String}
    (halg : mapGet ppMap "alg" = some (.text alg))
    (hparams : mapGet ppMap "params" = some (.map params)) (htext : TextKeyed params)
    {path : List PathSegment} {options : ValidatorOptions} :
    NoErrors (checkPassphraseBlock ppMap path options) ↔
      alg = "argon2id" ∧ IsArgon2Params options.passphraseParamsCeiling (.map params) := by
  have hknown : passphraseKdfAlgs.contains alg = true ↔ alg = "argon2id" := by
    simp [passphraseKdfAlgs]
  simp only [checkPassphraseBlock, halg, hparams, Option.bind_some, asText, Option.getD_some]
  by_cases h : alg = "argon2id"
  · subst h
    simp only [hknown.mpr rfl, Bool.true_eq_false, if_false, noErrors_append,
      noErrors_unknownKeyIssues (show ErrorCode.schemaUnknownField.severity = .error from rfl),
      noErrors_flatMap, argon2Floors, List.forall_mem_cons, noErrors_argon2ParamIssues,
      true_and, IsArgon2Params, ClosedMapWith, CborValue.map.injEq, exists_eq_left',
      closedMap_iff, htext]
    simp [Argon2ParamsCeiling.bound]
  · have hno : passphraseKdfAlgs.contains alg = false := by simpa using mt hknown.mp h
    simp only [hno, if_true, noErrors_issue, h, false_and, iff_false, not_not]
    rfl

/-- The passes over the passphrase block. -/
theorem passphrase_iff {passphrase : CborValue} {options : ValidatorOptions}
    {ppPath path : List PathSegment} :
    (isNonTextKeyMap passphrase = false ∧
        ((asMap passphrase).bind fun ppMap => mapGet ppMap "params").any isNonTextKeyMap = false ∧
        passphraseSchemaIssues (some passphrase) ppPath = [] ∧
        ∀ ppMap, asMap passphrase = some ppMap →
          NoErrors (checkPassphraseBlock ppMap path options)) ↔
      IsPassphraseBlock options.passphraseParamsCeiling passphrase := by
  cases passphrase with
  | map pairs =>
      simp only [isNonTextKeyMap_map, asMap, Option.bind_some, passphraseSchemaIssues,
        List.append_eq_nil_iff, fieldIssues_required_iff, saltIssues_eq_nil_iff,
        unknownKeyIssues_eq_nil_iff, Option.some.injEq, forall_eq', IsPassphraseBlock,
        ClosedMapWith, CborValue.map.injEq, exists_eq_left', closedMap_iff, passphraseKeys]
      constructor
      · rintro ⟨htext, hnontext, ⟨⟨⟨halg, hsalt⟩, hparams⟩, hkeys⟩, hblock⟩
        obtain ⟨_, halg, hisText⟩ := halg
        obtain ⟨alg, rfl⟩ := isText_iff.mp hisText
        obtain ⟨_, hparams, hisMap⟩ := hparams
        obtain ⟨params, rfl⟩ := isMap_iff.mp hisMap
        have hptext : TextKeyed params := by
          rw [hparams] at hnontext
          exact isNonTextKeyMap_map.mp (by simpa using hnontext)
        obtain ⟨rfl, hargon⟩ := (noErrors_checkPassphraseBlock halg hparams hptext).mp hblock
        exact ⟨⟨htext, hkeys⟩, halg, hsalt, _, hparams, hargon⟩
      · rintro ⟨⟨htext, hkeys⟩, halg, hsalt, _, hparams, hargon⟩
        obtain ⟨params, rfl, hclosed, -⟩ := id hargon
        refine ⟨htext, by simpa [hparams] using isNonTextKeyMap_map.mpr hclosed.textKeyed,
          ⟨⟨⟨⟨_, halg, rfl⟩, hsalt⟩, ⟨_, hparams, rfl⟩⟩, hkeys⟩, ?_⟩
        exact (noErrors_checkPassphraseBlock halg hparams hclosed.textKeyed).mpr ⟨rfl, hargon⟩
  | _ => simp [passphraseSchemaIssues, asMap, IsPassphraseBlock, ClosedMapWith]

/-! ## The scheme-1 reading -/

theorem noErrors_keyPathIssues {slots slotsMac passphrase kem : Bool}
    {encPath : List PathSegment} :
    NoErrors (keyPathIssues slots slotsMac passphrase kem encPath) ↔
      (passphrase = false ∧ slots = true ∧ slotsMac = true ∧ kem = true) ∨
        (passphrase = true ∧ slots = false ∧ slotsMac = false ∧ kem = false) := by
  simp (disch := decide) only [keyPathIssues, noErrors_append, noErrors_flag]
  cases slots <;> cases slotsMac <;> cases passphrase <;> cases kem <;> simp

theorem slotsMacIssues_eq_nil_iff {slotsMac : Option CborValue} {path : List PathSegment} :
    slotsMacIssues slotsMac path = [] ↔ OptionalField (BytesOf 32) slotsMac := by
  cases slotsMac with
  | none => simp [slotsMacIssues]
  | some v =>
      cases v with
      | bytes b => simp [slotsMacIssues, BytesOf]
      | _ => simp [slotsMacIssues, BytesOf]

theorem noErrors_nonceIssues {nonce : List UInt8} {encPath : List PathSegment} :
    NoErrors (nonceIssues (some (.bytes nonce)) contentFormat encPath) ↔ nonce.length = 24 := by
  simp only [nonceIssues, registryLookup_aead, if_true, Option.bind_some, asBytes]
  rw [noErrors_flag rfl, not_not]

theorem encInternalNonTextKeyIssues_eq_nil_iff {encMap : List (CborValue × CborValue)}
    {encPath : List PathSegment} :
    encInternalNonTextKeyIssues encMap encPath = [] ↔
      arrayIssues (mapGet encMap "slots") [] (fun slot j =>
          if isNonTextKeyMap slot then [nonTextKeyIssue (encPath ++ [.key "slots", .index j])]
          else []) = [] ∧
        ∀ pp, mapGet encMap "passphrase" = some pp → isNonTextKeyMap pp = false ∧
          ((asMap pp).bind fun ppMap => mapGet ppMap "params").any isNonTextKeyMap = false := by
  simp only [encInternalNonTextKeyIssues, List.append_eq_nil_iff]
  refine and_congr_right fun _ => ?_
  cases mapGet encMap "passphrase" with
  | none => simp
  | some pp =>
      simp only [Option.some.injEq, forall_eq']
      cases hpp : isNonTextKeyMap pp with
      | true => simp
      | false =>
          cases asMap pp with
          | none => simp
          | some ppMap => cases (mapGet ppMap "params").any isNonTextKeyMap <;> simp

theorem allErrors_encInternalNonTextKeyIssues (encMap : List (CborValue × CborValue))
    (encPath : List PathSegment) : AllErrors (encInternalNonTextKeyIssues encMap encPath) := by
  have hflag (path : List PathSegment) : AllErrors [nonTextKeyIssue path] := by
    simp [nonTextKeyIssue, ErrorCode.severity]
  refine allErrors_append.mpr ⟨?_, ?_⟩
  · exact allErrors_arrayIssues allErrors_nil fun e i => allErrors_ite (hflag _) allErrors_nil
  · split
    · exact allErrors_nil
    · refine allErrors_ite (hflag _) ?_
      split
      · exact allErrors_nil
      · exact allErrors_ite (hflag _) allErrors_nil

theorem allErrors_passphraseSchemaIssues (passphrase : Option CborValue)
    (path : List PathSegment) : AllErrors (passphraseSchemaIssues passphrase path) := by
  have hsalt (salt : Option CborValue) (path : List PathSegment) :
      AllErrors (saltIssues salt path) := by
    unfold saltIssues
    split <;> (try split_ifs) <;> simp [ErrorCode.severity]
  unfold passphraseSchemaIssues
  split
  · exact allErrors_nil
  · split
    · simp [ErrorCode.severity]
    · simp only [allErrors_append]
      refine ⟨⟨⟨?_, hsalt _ _⟩, ?_⟩, allErrors_unknownKeyIssues fun _ => rfl⟩ <;>
        exact allErrors_fieldIssues (by simp [ErrorCode.severity]) (by simp [ErrorCode.severity])

theorem allErrors_encScheme1SchemaIssues (encMap : List (CborValue × CborValue))
    (encPath : List PathSegment) : AllErrors (encScheme1SchemaIssues encMap encPath) := by
  have hfield (code : ErrorCode) (hcode : code.severity = .error) (field : Option CborValue)
      (accepts : CborValue → Bool) (p q : List PathSegment) (m n : String) :
      AllErrors (fieldIssues field [issue code p m] accepts [issue .schemaTypeMismatch q n]) :=
    allErrors_fieldIssues (by simpa using hcode) (by simp [ErrorCode.severity])
  have hslot (base : List PathSegment) (e : CborValue) (i : ℕ) :
      AllErrors (slotTypeIssues base e i) := by
    unfold slotTypeIssues
    split
    · simp [ErrorCode.severity]
    · exact allErrors_flatMap fun field _ =>
        allErrors_fieldIssues allErrors_nil (by simp [ErrorCode.severity])
  have hmac (field : Option CborValue) (path : List PathSegment) :
      AllErrors (slotsMacIssues field path) := by
    unfold slotsMacIssues
    split <;> (try split_ifs) <;> simp [ErrorCode.severity]
  simp only [encScheme1SchemaIssues, allErrors_append]
  refine ⟨⟨⟨⟨⟨⟨hfield _ rfl _ _ _ _ _ _, ?_⟩, hfield _ rfl _ _ _ _ _ _⟩, ?_⟩, hmac _ _⟩,
    allErrors_passphraseSchemaIssues _ _⟩, allErrors_unknownKeyIssues fun _ => rfl⟩
  · exact allErrors_fieldIssues allErrors_nil (by simp [ErrorCode.severity])
  · exact allErrors_arrayIssues (by simp [ErrorCode.severity]) (hslot _)

theorem scheme1Schema_eq_nil_iff {encMap : List (CborValue × CborValue)}
    {encPath : List PathSegment} :
    encScheme1SchemaIssues encMap encPath = [] ↔
      (∃ aead, mapGet encMap "aead" = some (.text aead)) ∧
        (∀ kem, mapGet encMap "kem" = some kem → ∃ name, kem = .text name) ∧
        (∃ nonce, mapGet encMap "nonce" = some (.bytes nonce)) ∧
        arrayIssues (mapGet encMap "slots")
          [issue .schemaTypeMismatch (encPath ++ [.key "slots"]) "enc.slots must be a CBOR array"]
          (slotTypeIssues (encPath ++ [.key "slots"])) = [] ∧
        OptionalField (BytesOf 32) (mapGet encMap "slots_mac") ∧
        passphraseSchemaIssues (mapGet encMap "passphrase") (encPath ++ [.key "passphrase"]) = [] ∧
        ∀ key ∈ textKeys encMap, key ∈ encKeys := by
  simp only [encScheme1SchemaIssues, List.append_eq_nil_iff, fieldIssues_required_iff,
    fieldIssues_optional_iff, unknownKeyIssues_eq_nil_iff, slotsMacIssues_eq_nil_iff, Required,
    OptionalField, isText_iff, isBytes_iff]
  constructor
  · rintro ⟨⟨⟨⟨⟨⟨⟨_, haead, aead, rfl⟩, hkem⟩, _, hnonce, nonce, rfl⟩, hslots⟩, hmac⟩, hpp⟩, hkeys⟩
    exact ⟨⟨aead, haead⟩, hkem, ⟨nonce, hnonce⟩, hslots, hmac, hpp, hkeys⟩
  · rintro ⟨⟨aead, haead⟩, hkem, ⟨nonce, hnonce⟩, hslots, hmac, hpp, hkeys⟩
    exact ⟨⟨⟨⟨⟨⟨⟨_, haead, aead, rfl⟩, hkem⟩, _, hnonce, nonce, rfl⟩, hslots⟩, hmac⟩, hpp⟩, hkeys⟩

/-- An envelope that is not opaque and names its content format and KEM as text names
registered ones. -/
theorem registered_of_typed {encMap : List (CborValue × CborValue)} {scheme : UInt64}
    (h : ¬ IsOpaque encMap scheme) :
    (∀ aead, mapGet encMap "aead" = some (.text aead) → aead = contentFormat) ∧
      ∀ kem, mapGet encMap "kem" = some (.text kem) →
        ∃ descriptor, kemSlotDescriptor kem = some descriptor := by
  simp only [IsOpaque, not_or, not_exists, not_and, not_not] at h
  refine ⟨h.2.2, fun kem hkem => Option.ne_none_iff_exists'.mp fun hnone => ?_⟩
  exact kemSlotDescriptor_eq_none_iff.mp hnone (h.2.1 kem hkem)

/-- What passes on an envelope whose rules hold is one of the two key paths. -/
theorem keyPath_of_passes {encMap : List (CborValue × CborValue)} {encPath : List PathSegment}
    {options : ValidatorOptions} (hunsupp : ¬ IsOpaque encMap 1)
    (hinternal : encInternalNonTextKeyIssues encMap encPath = [])
    (hschema : encScheme1SchemaIssues encMap encPath = [])
    (hrules : NoErrors (checkScheme1Envelope encMap encPath options)) :
    SlotsPath options.maxSlots encMap ∨
      PassphrasePath options.passphraseParamsCeiling encMap := by
  obtain ⟨hguard, hppguard⟩ := encInternalNonTextKeyIssues_eq_nil_iff.mp hinternal
  obtain ⟨-, hkemtext, -, hslottypes, hmac, hppschema, -⟩ := scheme1Schema_eq_nil_iff.mp hschema
  simp only [checkScheme1Envelope, noErrors_append, noErrors_keyPathIssues] at hrules
  obtain ⟨⟨⟨-, hpath⟩, hslots⟩, hpp⟩ := hrules
  rcases hpath with ⟨hnopp, hhasslots, hhasmac, hhaskem⟩ | ⟨hhaspp, hnoslots, hnomac, hnokem⟩
  · obtain ⟨kem, hkem⟩ : ∃ kem, mapGet encMap "kem" = some (.text kem) := by
      obtain ⟨kem, hkem⟩ := Option.isSome_iff_exists.mp hhaskem
      obtain ⟨v, hv, htext⟩ := Option.bind_eq_some_iff.mp hkem
      exact ⟨kem, by rw [hv, asText_eq_some.mp htext]⟩
    obtain ⟨descriptor, hdescriptor⟩ := (registered_of_typed hunsupp).2 kem hkem
    rw [hkem] at hslots
    have hall := (slots_iff hdescriptor).mp ⟨hguard, hslottypes, hslots⟩
    obtain ⟨slotsValue, hslotsValue⟩ := Option.isSome_iff_exists.mp hhasslots
    obtain ⟨macValue, hmacValue⟩ := Option.isSome_iff_exists.mp hhasmac
    obtain ⟨entries, rfl, hne, hmax, heach, hnodup⟩ := hall _ hslotsValue
    exact .inl ⟨by simpa [mapHas] using hnopp, ⟨_, hmacValue, hmac _ hmacValue⟩, kem,
      descriptor.field, descriptor.fieldLength, entries,
      mem_kemRegistry_iff.mpr ⟨descriptor, hdescriptor, rfl, rfl⟩, hkem, hslotsValue, hne, hmax,
      heach, hnodup⟩
  · obtain ⟨pp, hppValue⟩ := Option.isSome_iff_exists.mp hhaspp
    have hkemNone : mapGet encMap "kem" = none := by
      cases hkem : mapGet encMap "kem" with
      | none => rfl
      | some kem =>
          obtain ⟨name, rfl⟩ := hkemtext kem hkem
          simp [hkem, asText] at hnokem
    have hblock : ∀ ppMap, asMap pp = some ppMap →
        NoErrors (checkPassphraseBlock ppMap (encPath ++ [.key "passphrase"]) options) := by
      intro ppMap hppMap
      rw [hppValue, Option.bind_some, hppMap] at hpp
      exact hpp
    rw [hppValue] at hppschema
    obtain ⟨htext, hparams⟩ := hppguard _ hppValue
    exact .inr ⟨hkemNone, by simpa [mapHas] using hnoslots, by simpa [mapHas] using hnomac,
      pp, hppValue, passphrase_iff.mp ⟨htext, hparams, hppschema, hblock⟩⟩

theorem IsScheme1.known_keys {options : ValidatorOptions} {encMap : List (CborValue × CborValue)}
    (h : IsScheme1 options encMap) : ∀ key ∈ textKeys encMap, key ∈ encKeys := by
  have hclosed : ClosedMap encKeys encMap := h.closed.mono (by decide)
  exact (closedMap_iff.mp hclosed).2

/-- The full rules accept an envelope on the recipient key path. -/
theorem passes_of_slotsPath {encMap : List (CborValue × CborValue)} {encPath : List PathSegment}
    {options : ValidatorOptions} (henc : IsScheme1 options encMap)
    (h : SlotsPath options.maxSlots encMap) :
    encInternalNonTextKeyIssues encMap encPath = [] ∧ encScheme1SchemaIssues encMap encPath = [] ∧
      NoErrors (checkScheme1Envelope encMap encPath options) := by
  obtain ⟨hnopp, hmac, kem, field, length, entries, hmem, hkem, hslots, hne, hmax, heach, hnodup⟩ :=
    h
  obtain ⟨_, hnonce, nonce, rfl, hlen⟩ := henc.nonce
  obtain ⟨descriptor, hdescriptor, rfl, rfl⟩ := mem_kemRegistry_iff.mp hmem
  have hall : OptionalField (IsSlots options.maxSlots descriptor.field descriptor.fieldLength)
      (mapGet encMap "slots") := by
    rw [hslots]
    exact optionalField_some.mpr ⟨entries, rfl, hne, hmax, heach, hnodup⟩
  obtain ⟨hguard, htypes, hrules⟩ := (slots_iff hdescriptor).mpr hall
  refine ⟨encInternalNonTextKeyIssues_eq_nil_iff.mpr ⟨hguard, by simp [hnopp]⟩,
    scheme1Schema_eq_nil_iff.mpr ⟨⟨_, henc.aead⟩, ?_, ⟨_, hnonce⟩, htypes, ?_, ?_,
      henc.known_keys⟩, ?_⟩
  · rw [hkem]
    intro v hv
    cases hv
    exact ⟨kem, rfl⟩
  · obtain ⟨mac, hmac, hmac32⟩ := hmac
    rw [hmac]
    exact optionalField_some.mpr hmac32
  · simp [hnopp, passphraseSchemaIssues]
  · obtain ⟨mac, hmac, _⟩ := hmac
    simp only [checkScheme1Envelope, henc.aead, hnonce, Option.bind_some, asText,
      Option.getD_some, noErrors_append, noErrors_nonceIssues, noErrors_keyPathIssues, hkem]
    exact ⟨⟨⟨hlen, by simp [mapHas, hnopp, hslots, hmac]⟩, hrules⟩, by simp [hnopp]⟩

/-- The full rules accept an envelope on the passphrase key path. -/
theorem passes_of_passphrasePath {encMap : List (CborValue × CborValue)}
    {encPath : List PathSegment} {options : ValidatorOptions} (henc : IsScheme1 options encMap)
    (h : PassphrasePath options.passphraseParamsCeiling encMap) :
    encInternalNonTextKeyIssues encMap encPath = [] ∧ encScheme1SchemaIssues encMap encPath = [] ∧
      NoErrors (checkScheme1Envelope encMap encPath options) := by
  obtain ⟨hnokem, hnoslots, hnomac, pp, hpp, hblock⟩ := h
  obtain ⟨_, hnonce, nonce, rfl, hlen⟩ := henc.nonce
  have ⟨ppMap, hppMap, _⟩ := hblock
  have ⟨hguard, hparams, hschema, hrules⟩ :=
    (@passphrase_iff pp options (encPath ++ [.key "passphrase"])
      (encPath ++ [.key "passphrase"])).mpr hblock
  refine ⟨encInternalNonTextKeyIssues_eq_nil_iff.mpr ⟨by simp [hnoslots, arrayIssues], ?_⟩,
    scheme1Schema_eq_nil_iff.mpr ⟨⟨_, henc.aead⟩, by simp [hnokem], ⟨_, hnonce⟩,
      by simp [hnoslots, arrayIssues], by simp [hnomac], by rwa [hpp],
      henc.known_keys⟩, ?_⟩
  · rw [hpp]
    intro v hv
    cases hv
    exact ⟨hguard, hparams⟩
  · have hmap : asMap pp = some ppMap := asMap_eq_some.mpr hppMap
    simp only [checkScheme1Envelope, henc.aead, hnonce, Option.bind_some, asText,
      Option.getD_some, noErrors_append, noErrors_nonceIssues, noErrors_keyPathIssues, hpp, hmap]
    exact ⟨⟨⟨hlen, by simp [mapHas, hpp, hnoslots, hnomac, hnokem]⟩,
      by simp [hnoslots, slotsIssues]⟩, hrules ppMap hmap⟩

/-- The three passes over an envelope under supported identifiers. -/
theorem scheme1_iff {encMap : List (CborValue × CborValue)} {encPath : List PathSegment}
    {options : ValidatorOptions} (htext : TextKeyed encMap)
    (hscheme : mapGet encMap "scheme" = some (.unsigned 1)) (hunsupp : ¬ IsOpaque encMap 1) :
    (encInternalNonTextKeyIssues encMap encPath = [] ∧ encScheme1SchemaIssues encMap encPath = [] ∧
        NoErrors (checkScheme1Envelope encMap encPath options)) ↔ IsScheme1 options encMap := by
  constructor
  · rintro ⟨hinternal, hschema, hrules⟩
    obtain ⟨⟨aead, haead⟩, -, ⟨nonce, hnonce⟩, -, -, -, hkeys⟩ := scheme1Schema_eq_nil_iff.mp hschema
    have hformat := (registered_of_typed hunsupp).1 aead haead
    subst hformat
    have hlen : nonce.length = 24 := by
      simp only [checkScheme1Envelope, haead, hnonce, Option.bind_some, asText, Option.getD_some,
        noErrors_append, noErrors_nonceIssues] at hrules
      exact hrules.1.1.1
    have hclosed : ClosedMap encKeys encMap := closedMap_iff.mpr ⟨htext, hkeys⟩
    exact ⟨hclosed.mono (by decide), hscheme, haead, ⟨_, hnonce, nonce, rfl, hlen⟩,
      keyPath_of_passes hunsupp hinternal hschema hrules⟩
  · intro henc
    rcases henc.keyPath with hslots | hpp
    · exact passes_of_slotsPath henc hslots
    · exact passes_of_passphrasePath henc hpp

/-! ## The dispatch -/

theorem unsupportedName_eq_nil_iff {field : String} {code : ErrorCode} {value : Option CborValue}
    {supported : String → Bool} :
    unsupportedName field code value supported = [] ↔
      ∀ id, value = some (.text id) → supported id = true := by
  unfold unsupportedName
  split
  · rename_i id
    by_cases h : supported id <;> simp [h]
  · rename_i hno
    simp only [true_iff]
    exact fun id heq => absurd heq (hno id)

theorem unsupportedIdentifiers_eq_nil_iff {encMap : List (CborValue × CborValue)}
    {scheme : UInt64} :
    unsupportedIdentifiers scheme (mapGet encMap "kem") (mapGet encMap "aead") = [] ↔
      ¬ IsOpaque encMap scheme := by
  have hscheme : (if scheme ≠ 1 then
      [("scheme", ErrorCode.unsupportedEnvelopeScheme, toString scheme)] else []) = [] ↔
      scheme = 1 := by
    by_cases h : scheme = 1 <;> simp [h]
  have hkem (kem : String) : (kemSlotDescriptor kem).isSome = true ↔
      kem ∈ kemRegistry.map Prod.fst := by
    rw [← not_iff_not, ← kemSlotDescriptor_eq_none_iff, Option.not_isSome_iff_eq_none]
  have haead (aead : String) : (registryLookup aeadNonceLengths aead).isSome = true ↔
      aead = contentFormat := by
    rw [registryLookup_aead]
    by_cases h : aead = contentFormat <;> simp [h]
  simp only [unsupportedIdentifiers, List.append_eq_nil_iff, hscheme, unsupportedName_eq_nil_iff,
    hkem, haead, IsOpaque, not_or, not_exists, not_and, not_not, ne_eq, and_assoc]

theorem noErrors_encUnsupportedIssues {unsupported : List (String × ErrorCode × String)}
    {encPath : List PathSegment} {role : ValidatorRole} :
    NoErrors (encUnsupportedIssues unsupported encPath role) ↔ role = .publicRole := by
  cases role <;> simp [encUnsupportedIssues, NoErrors]

theorem IsScheme1.not_opaqueReading {options : ValidatorOptions} {encMap : List (CborValue × CborValue)}
    {scheme : UInt64} (h : IsScheme1 options encMap)
    (hscheme : mapGet encMap "scheme" = some (.unsigned scheme)) :
    scheme = 1 ∧ ¬ IsOpaque encMap scheme := by
  rw [h.scheme] at hscheme
  cases hscheme
  refine ⟨rfl, ?_⟩
  rintro (hne | ⟨kem, hkem, hunknown⟩ | ⟨aead, haead, hne⟩)
  · exact hne rfl
  · rcases h.keyPath with hpath | hpath
    · obtain ⟨kem', field, length, entries, hmem, hkem', -⟩ := hpath.slots
      rw [hkem'] at hkem
      cases hkem
      exact hunknown (List.mem_map_of_mem hmem)
    · rw [hpath.noKem] at hkem
      cases hkem
  · rw [h.aead] at haead
    cases haead
    exact hne rfl

/-- The identifier dispatch admits the opaque reading in the public role only, and
holds every other envelope to the scheme-1 rules. -/
theorem noErrors_identifierIssues {encMap : List (CborValue × CborValue)} {scheme : UInt64}
    {encPath : List PathSegment} {options : ValidatorOptions} (htext : TextKeyed encMap)
    (hscheme : mapGet encMap "scheme" = some (.unsigned scheme)) :
    NoErrors (checkEncReading.identifierIssues encMap scheme encPath options
        (mapGet encMap "aead")) ↔
      (IsOpaque encMap scheme ∧ options.role = .publicRole) ∨ IsScheme1 options encMap := by
  simp only [checkEncReading.identifierIssues]
  by_cases hunsupp : IsOpaque encMap scheme
  · have hnonempty : (unsupportedIdentifiers scheme (mapGet encMap "kem")
        (mapGet encMap "aead")).isEmpty = false := by
      rw [List.isEmpty_eq_false_iff, ne_eq, unsupportedIdentifiers_eq_nil_iff, not_not]
      exact hunsupp
    have hnot : ¬ IsScheme1 options encMap := fun h => (h.not_opaqueReading hscheme).2 hunsupp
    simp only [hnonempty, if_true, noErrors_encUnsupportedIssues, hunsupp, hnot, true_and, or_false]
  · have hempty := unsupportedIdentifiers_eq_nil_iff.mpr hunsupp
    have hone : scheme = 1 := by
      simp only [IsOpaque, not_or, not_not] at hunsupp
      exact hunsupp.1
    subst hone
    simp only [hempty, List.isEmpty_nil, Bool.true_eq_false, if_false, hunsupp, false_and,
      false_or, ← @scheme1_iff encMap encPath options htext hscheme hunsupp]
    by_cases hinternal : encInternalNonTextKeyIssues encMap encPath = []
    · by_cases hschema : encScheme1SchemaIssues encMap encPath = []
      · simp [hinternal, hschema]
      · simp only [hinternal, List.isEmpty_nil, Bool.true_eq_false, if_false,
          List.isEmpty_eq_false_iff, ne_eq, hschema, not_false_eq_true, if_true, false_and,
          and_false, (allErrors_encScheme1SchemaIssues encMap encPath).noErrors_iff]
    · simp only [List.isEmpty_eq_false_iff, ne_eq, hinternal, not_false_eq_true, if_true,
        false_and, (allErrors_encInternalNonTextKeyIssues encMap encPath).noErrors_iff]

theorem noErrors_checkEncReading {encMap : List (CborValue × CborValue)} {scheme : UInt64}
    {encPath : List PathSegment} {options : ValidatorOptions} (htext : TextKeyed encMap)
    (hscheme : mapGet encMap "scheme" = some (.unsigned scheme)) :
    NoErrors (checkEncReading encMap scheme encPath options) ↔
      (∀ aead, mapGet encMap "aead" = some (.text aead) → isUnauthenticatedCipher aead = false) ∧
        ((IsOpaque encMap scheme ∧ options.role = .publicRole) ∨ IsScheme1 options encMap) := by
  simp only [checkEncReading]
  cases haead : (mapGet encMap "aead").bind asText with
  | none =>
      have hno : ∀ aead, mapGet encMap "aead" ≠ some (.text aead) := by
        intro aead heq
        simp [heq, asText] at haead
      simp [noErrors_identifierIssues htext hscheme, hno]
  | some cipher =>
      obtain ⟨v, hv, htextv⟩ := Option.bind_eq_some_iff.mp haead
      rw [asText_eq_some.mp htextv] at hv
      rw [← @noErrors_identifierIssues encMap scheme encPath options htext hscheme, hv]
      simp only [Option.some.injEq, CborValue.text.injEq, forall_eq']
      by_cases hforbidden : isUnauthenticatedCipher cipher = true
      · simp [hforbidden, ErrorCode.severity]
      · simp [hforbidden]

theorem noErrors_envelopeSizeIssues {rawEnc : CborValue} {encPath : List PathSegment}
    {options : ValidatorOptions} (h : ∃ b, encodeCanonicalCbor rawEnc = .ok b) :
    NoErrors (envelopeSizeIssues rawEnc encPath options) ↔
      ∃ b, encodeCanonicalCbor rawEnc = .ok b ∧ b.length ≤ options.maxEncEnvelopeBytes := by
  obtain ⟨b, hb⟩ := h
  simp only [envelopeSizeIssues, hb, Except.ok.injEq, exists_eq_left']
  rw [noErrors_flag rfl]
  omega

/-- **The checks of an item's `enc` accept exactly the envelopes of the grammar**, on an
item that names a registered content hash. -/
theorem envelope_iff {itemMap : List (CborValue × CborValue)} {rawEnc : CborValue} {idx : ℕ}
    {options : ValidatorOptions} (hencodes : ∃ b, encodeCanonicalCbor rawEnc = .ok b)
    (hhash : hasContentHash (mapGet itemMap "hashes") = true) :
    (isNonTextKeyMap rawEnc = false ∧ NoErrors (checkItemEnc itemMap rawEnc idx options)) ↔
      IsEnvelope options rawEnc := by
  simp only [checkItemEnc, hhash, if_true, List.nil_append]
  cases rawEnc with
  | map encMap =>
      simp only [isNonTextKeyMap_map, asMap, noErrors_append,
        noErrors_envelopeSizeIssues hencodes, IsEnvelope, CborValue.map.injEq, exists_eq_left']
      refine and_congr_right fun htext => and_congr_right fun _ => ?_
      cases hscheme : mapGet encMap "scheme" with
      | none => simp [ErrorCode.severity]
      | some v =>
          cases v with
          | unsigned scheme =>
              simp only [noErrors_checkEncReading htext hscheme, Option.some.injEq,
                CborValue.unsigned.injEq, exists_eq_left']
          | _ => simp [ErrorCode.severity]
  | _ => simp [asMap, IsEnvelope, ErrorCode.severity]

end Label309
