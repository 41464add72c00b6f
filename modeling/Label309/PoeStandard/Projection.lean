import Label309.Cbor.SameBytes
import Label309.PoeStandard.Acceptance

/-!
# The typed projection loses nothing

Reading a value of the grammar into its typed form succeeds, and the typed form is
encoded to the bytes of the value: a map of present fields is the decoded map up to
the order of its entries.
-/
namespace Label309

/-! ## Closed maps and their fields -/

/-- Fields that are both absent or have the same bytes. -/
abbrev SameField (o o' : Option CborValue) : Prop := Option.Rel SameBytes o o'

/-- With distinct keys, membership of a text-keyed entry is lookup. -/
theorem mem_iff_mapGet {pairs : List (CborValue × CborValue)}
    (hnodup : (pairs.map Prod.fst).Nodup) {key : String} {v : CborValue} :
    (CborValue.text key, v) ∈ pairs ↔ mapGet pairs key = some v := by
  refine ⟨fun hmem => ?_, mem_of_mapGet⟩
  have hsome : (mapGet pairs key).isSome := mapGet_isSome_iff.mpr (mem_textKeys.mpr ⟨v, hmem⟩)
  obtain ⟨w, hw⟩ := Option.isSome_iff_exists.mp hsome
  have heq := List.inj_on_of_nodup_map hnodup hmem (mem_of_mapGet hw) rfl
  cases heq
  exact hw

theorem presentFields_lookup (pairs : List (CborValue × CborValue)) (keys : List String) :
    presentFields (keys.map fun key => (key, mapGet pairs key)) =
      keys.filterMap fun key => (mapGet pairs key).map fun v => (.text key, v) := by
  simp [presentFields, List.filterMap_map]

theorem mem_presentFields_lookup {pairs : List (CborValue × CborValue)} {keys : List String}
    {p : CborValue × CborValue} :
    p ∈ presentFields (keys.map fun key => (key, mapGet pairs key)) ↔
      ∃ key ∈ keys, p.1 = .text key ∧ mapGet pairs key = some p.2 := by
  obtain ⟨k, v⟩ := p
  simp only [presentFields_lookup, List.mem_filterMap, Option.map_eq_some_iff, Prod.mk.injEq]
  grind

theorem nodup_presentFields_lookup {pairs : List (CborValue × CborValue)} {keys : List String}
    (hkeys : keys.Nodup) :
    (presentFields (keys.map fun key => (key, mapGet pairs key))).Nodup := by
  rw [presentFields_lookup]
  refine hkeys.filterMap ?_
  intro a b p ha hb
  obtain ⟨v, -, rfl⟩ := Option.mem_map.mp ha
  obtain ⟨w, -, heq⟩ := Option.mem_map.mp hb
  cases heq
  rfl

/-- A map is, up to order, its fields among `keys` and its other entries. -/
theorem perm_presentFields {pairs rest : List (CborValue × CborValue)} {keys : List String}
    (hnodup : (pairs.map Prod.fst).Nodup) (hkeys : keys.Nodup) (hrest : rest.Sublist pairs)
    (hsplit : ∀ p ∈ pairs, p ∈ rest ↔ ¬ ∃ key ∈ keys, p.1 = .text key) :
    pairs.Perm (presentFields (keys.map fun key => (key, mapGet pairs key)) ++ rest) := by
  have hpairs : pairs.Nodup := hnodup.of_map
  have hmem : ∀ p, p ∈ presentFields (keys.map fun key => (key, mapGet pairs key)) ↔
      p ∈ pairs ∧ ∃ key ∈ keys, p.1 = .text key := by
    rintro ⟨k, v⟩
    rw [mem_presentFields_lookup]
    constructor
    · rintro ⟨key, hkey, rfl, hget⟩
      exact ⟨mem_of_mapGet hget, key, hkey, rfl⟩
    · rintro ⟨hp, key, hkey, rfl⟩
      exact ⟨key, hkey, rfl, (mem_iff_mapGet hnodup).mp hp⟩
  refine (List.perm_ext_iff_of_nodup hpairs ?_).mpr fun p => ?_
  · refine List.nodup_append.mpr ⟨nodup_presentFields_lookup hkeys, hrest.nodup hpairs, ?_⟩
    rintro p hp q hq rfl
    exact (hsplit p (hrest.subset hq)).mp hq ((hmem p).mp hp).2
  · rw [List.mem_append, hmem]
    by_cases hkey : ∃ key ∈ keys, p.1 = .text key
    · constructor
      · exact fun hp => .inl ⟨hp, hkey⟩
      · rintro (hp | hp)
        · exact hp.1
        · exact hrest.subset hp
    · constructor
      · exact fun hp => .inr ((hsplit p hp).mpr hkey)
      · rintro (hp | hp)
        · exact hp.1
        · exact hrest.subset hp

theorem forall₂_presentFields {pairs : List (CborValue × CborValue)}
    {fields : List (String × Option CborValue)}
    (h : ∀ f ∈ fields, SameField (mapGet pairs f.1) f.2) :
    List.Forall₂ SameEntry
      (presentFields ((fields.map Prod.fst).map fun key => (key, mapGet pairs key)))
      (presentFields fields) := by
  induction fields with
  | nil => exact .nil
  | cons f fields ih =>
      obtain ⟨key, field⟩ := f
      obtain ⟨hfield, hrest⟩ := List.forall_mem_cons.mp h
      dsimp only at hfield
      cases hget : mapGet pairs key with
      | none =>
          rw [hget] at hfield
          cases hfield
          simpa [presentFields, hget] using ih hrest
      | some v =>
          rw [hget] at hfield
          cases hfield with
          | some hv => simpa [presentFields, hget, SameEntry] using And.intro hv (ih hrest)

/-- **A map has the bytes of its typed fields with its other entries.** -/
theorem sameBytes_fields_append {pairs rest : List (CborValue × CborValue)} {keys : List String}
    {fields : List (String × Option CborValue)} (hkeys : keys.Nodup)
    (hnames : fields.map Prod.fst = keys) (hrest : rest.Sublist pairs)
    (hsplit : ∀ p ∈ pairs, p ∈ rest ↔ ¬ ∃ key ∈ keys, p.1 = .text key)
    (hfields : ∀ f ∈ fields, SameField (mapGet pairs f.1) f.2) :
    SameBytes (.map pairs) (.map (presentFields fields ++ rest)) := by
  subst hnames
  refine sameBytes_map fun hnodup => ⟨_, perm_presentFields hnodup hkeys hrest hsplit, ?_⟩
  refine List.rel_append (forall₂_presentFields hfields) ?_
  exact List.forall₂_same.mpr fun p _ => ⟨rfl, .refl _⟩

theorem sameBytes_fields {pairs : List (CborValue × CborValue)} {keys : List String}
    {fields : List (String × Option CborValue)} (hclosed : ClosedMap keys pairs)
    (hkeys : keys.Nodup) (hnames : fields.map Prod.fst = keys)
    (hfields : ∀ f ∈ fields, SameField (mapGet pairs f.1) f.2) :
    SameBytes (.map pairs) (.map (presentFields fields)) := by
  rw [← List.append_nil (presentFields fields)]
  refine sameBytes_fields_append hkeys hnames (List.nil_sublist _) (fun p hp => ?_) hfields
  obtain ⟨key, hkey, heq⟩ := hclosed p hp
  simp only [List.not_mem_nil, false_iff, not_not]
  exact ⟨key, hkey, heq⟩

/-- Reading a list element by element into typed values with the same bytes. -/
theorem mapM_sameBytes {α : Type} {entries : List CborValue} {read : CborValue → Option α}
    {write : α → CborValue} (h : ∀ e ∈ entries, ∃ a, read e = some a ∧ SameBytes e (write a)) :
    ∃ as, entries.mapM read = some as ∧ List.Forall₂ SameBytes entries (as.map write) := by
  induction entries with
  | nil => exact ⟨[], rfl, .nil⟩
  | cons e entries ih =>
      obtain ⟨⟨a, hread, hsame⟩, hrest⟩ := List.forall_mem_cons.mp h
      obtain ⟨as, hreads, hall⟩ := ih hrest
      exact ⟨a :: as, by simp [List.mapM_cons, hread, hreads], .cons hsame hall⟩

/-- The same for an optional array field of one shape. -/
theorem arrayFromCbor_sameField {α : Type} {field : Option CborValue} {P : CborValue → Prop}
    {read : CborValue → Option α} {write : α → CborValue}
    (hfield : OptionalField (ArrayOf P) field)
    (h : ∀ e, P e → ∃ a, read e = some a ∧ SameBytes e (write a)) :
    ∃ o, arrayFromCbor field read = some o ∧
      SameField field (o.map fun as => .array (as.map write)) := by
  cases field with
  | none => exact ⟨none, rfl, .none⟩
  | some v =>
      obtain ⟨entries, rfl, -, hall⟩ := optionalField_some.mp hfield
      obtain ⟨as, hreads, hsame⟩ := mapM_sameBytes fun e he => h e (hall e he)
      exact ⟨some as, by simp [arrayFromCbor, hreads], .some (sameBytes_array hsame)⟩

/-! ## Parts of a record -/

theorem uris_sameField {uris : Option CborValue} (h : OptionalField (ArrayOf IsUri) uris) :
    ∃ o, urisFromCbor uris = some o ∧ SameField uris (o.map urisToCbor) := by
  refine @arrayFromCbor_sameField _ _ _ asText .text h ?_
  rintro _ ⟨s, rfl, -⟩
  exact ⟨s, rfl, .refl _⟩

theorem sigEntry_sameBytes {e : CborValue} (h : IsSigEntry e) :
    ∃ entry, sigFromCbor e = some entry ∧ SameBytes e (sigEntryToCbor entry) := by
  obtain ⟨pairs, rfl, hclosed, coseBytes, header, hcose, -, hkey⟩ := h
  obtain ⟨coseKey, hread, hsame⟩ : ∃ coseKey, (mapGet pairs "cose_key").bind asBytes = coseKey ∧
      SameField (mapGet pairs "cose_key") (coseKey.map .bytes) := by
    cases hget : mapGet pairs "cose_key" with
    | none => exact ⟨none, rfl, .none⟩
    | some v =>
        obtain ⟨keyBytes, rfl, -⟩ := hkey v hget
        exact ⟨some keyBytes, rfl, .some (.refl _)⟩
  exact ⟨⟨coseBytes, coseKey⟩, by simp [sigFromCbor, asMap, hcose, asBytes, ← hread],
    sameBytes_fields hclosed (by decide) rfl (by simp [hcose, hsame])⟩

theorem merkleCommit_sameBytes {e : CborValue} (h : IsMerkleCommit e) :
    ∃ commit, merkleFromCbor e = some commit ∧ SameBytes e (merkleToCbor commit) := by
  obtain ⟨pairs, rfl, hclosed, halg, ⟨_, hroot, root, rfl, -⟩, ⟨_, hcount, n, rfl, -⟩, huris⟩ := h
  obtain ⟨uris, hread, hsame⟩ := uris_sameField huris
  exact ⟨⟨"rfc9162-sha256", root, n, uris⟩,
    by simp [merkleFromCbor, asMap, halg, asText, hroot, asBytes, hcount, asUnsigned, hread],
    sameBytes_fields hclosed (by decide) rfl (by simp [halg, hroot, hcount, hsame])⟩

/-- A slot keeps the one ciphertext-bearing field its KEM has. -/
theorem slot_sameBytes {kem field : String} {length : ℕ}
    (hkem : (kem, field, length) ∈ kemRegistry) {e : CborValue} (h : IsSlot field length e) :
    ∃ slot, slotFromCbor e = some slot ∧ SameBytes e (slotToCbor slot) := by
  obtain ⟨pairs, rfl, hclosed, ⟨_, hfield, material, rfl, -⟩, ⟨_, hwrap, wrap, rfl, -⟩⟩ := h
  have habsent (key : String) (hkey : key ∉ [field, "wrap"]) : mapGet pairs key = none := by
    rw [mapGet_eq_none_iff]
    exact fun hmem => hkey ((closedMap_iff.mp hclosed).2 key hmem)
  have hfields : SameBytes (.map pairs)
      (.map (presentFields [(field, some (.bytes material)), ("wrap", some (.bytes wrap))])) := by
    have hne : [field, "wrap"].Nodup := by
      simp only [kemRegistry, List.mem_cons, Prod.mk.injEq, List.not_mem_nil, or_false] at hkem
      rcases hkem with ⟨-, rfl, -⟩ | ⟨-, rfl, -⟩ <;> decide
    exact sameBytes_fields hclosed hne rfl (by simp [hfield, hwrap])
  simp only [kemRegistry, List.mem_cons, Prod.mk.injEq, List.not_mem_nil, or_false] at hkem
  rcases hkem with ⟨-, rfl, -⟩ | ⟨-, rfl, -⟩
  · have hnone := habsent "kem_ct" (by decide)
    exact ⟨⟨some material, none, some wrap⟩,
      by simp [slotFromCbor, asMap, hfield, hwrap, hnone, asBytes], hfields⟩
  · have hnone := habsent "epk" (by decide)
    exact ⟨⟨none, some material, some wrap⟩,
      by simp [slotFromCbor, asMap, hfield, hwrap, hnone, asBytes], hfields⟩

/-- A closed parameter map is read and written entry by entry. -/
theorem params_roundTrip {ceiling : Option Argon2ParamsCeiling} {v : CborValue}
    {pairs : List (CborValue × CborValue)} (hnodup : (pairs.map Prod.fst).Nodup)
    (h : IsArgon2Params ceiling v) (hv : v = .map pairs) :
    ∃ params, pairs.mapM paramFromCbor = some params ∧
      params.map (fun param => (CborValue.text param.1, CborValue.unsigned param.2)) = pairs := by
  obtain ⟨pairs', rfl, hclosed, hm, ht, hp⟩ := h
  cases hv
  have hentry : ∀ q ∈ pairs, ∃ name n, q = (CborValue.text name, CborValue.unsigned n) := by
    rintro ⟨k, w⟩ hq
    obtain ⟨name, hname, rfl⟩ := hclosed _ hq
    have hget := (mem_iff_mapGet hnodup).mp hq
    have hunsigned {floor : ℕ} {max : Option UInt64} {key : String}
        (hr : Required (IsArgon2Param floor max) (mapGet pairs key)) (hkey : name = key) :
        ∃ n, w = .unsigned n := by
      obtain ⟨w', hw', n, rfl, -⟩ := hr
      rw [← hkey, hget] at hw'
      cases hw'
      exact ⟨n, rfl⟩
    have hn : ∃ n, w = .unsigned n := by
      simp only [List.mem_cons, List.not_mem_nil, or_false] at hname
      rcases hname with hname | hname | hname
      · exact hunsigned hm hname
      · exact hunsigned ht hname
      · exact hunsigned hp hname
    obtain ⟨n, rfl⟩ := hn
    exact ⟨name, n, rfl⟩
  clear hclosed hm ht hp hnodup
  induction pairs with
  | nil => exact ⟨[], rfl, rfl⟩
  | cons q pairs ih =>
      obtain ⟨⟨name, n, rfl⟩, hrest⟩ := List.forall_mem_cons.mp hentry
      obtain ⟨params, hread, hwrite⟩ := ih hrest
      exact ⟨(name, n) :: params, by simp [List.mapM_cons, paramFromCbor, asText, hread],
        by simp [hwrite]⟩

theorem passphrase_sameBytes {ceiling : Option Argon2ParamsCeiling} {v : CborValue}
    (hencodes : Encodes v) (h : IsPassphraseBlock ceiling v) :
    ∃ pp, passphraseFromCbor v = some pp ∧ SameBytes v (passphraseToCbor pp) := by
  obtain ⟨pairs, rfl, hclosed, halg, ⟨_, hsalt, salt, rfl, -⟩, _, hparams, hargon⟩ := h
  obtain ⟨paramPairs, rfl, hrest⟩ := id hargon
  obtain ⟨b, hb⟩ := hencodes.of_mapGet hparams
  obtain ⟨params, hread, hwrite⟩ := params_roundTrip (nodup_keys_of_encodes hb) hargon rfl
  refine ⟨⟨"argon2id", salt, params⟩, ?_, ?_⟩
  · simp [passphraseFromCbor, asMap, halg, asText, hsalt, asBytes, hparams, hread]
  · have hfields : SameBytes (.map pairs) (.map (presentFields
        [("alg", some (.text "argon2id")), ("salt", some (.bytes salt)),
          ("params", some (.map paramPairs))])) :=
      sameBytes_fields hclosed (by decide) rfl (by simp [halg, hsalt, hparams])
    rw [passphraseToCbor, hwrite]
    exact hfields

/-! ## Envelopes and items -/

/-- A scheme-1 envelope on the recipient key path. -/
theorem slotsPath_sameBytes {options : ValidatorOptions} {pairs : List (CborValue × CborValue)}
    (henc : IsScheme1 options pairs) (h : SlotsPath options.maxSlots pairs) :
    ∃ typed, scheme1FromCbor pairs 1 = some typed ∧ SameBytes (.map pairs) (scheme1ToCbor typed) := by
  obtain ⟨hnopp, ⟨_, hmac, mac, rfl, -⟩, kem, field, length, entries, hmem, hkem, hslots, -, -, heach,
    -⟩ := h
  obtain ⟨_, hnonce, nonce, rfl, -⟩ := henc.nonce
  obtain ⟨slots, hread, hsame⟩ := mapM_sameBytes fun e he => slot_sameBytes hmem (heach e he)
  refine ⟨⟨1, contentFormat, nonce, some kem, some slots, some mac, none⟩, ?_, ?_⟩
  · simp [scheme1FromCbor, henc.aead, hnonce, hkem, hslots, hmac, hnopp, asText, asBytes,
      slotsFromCbor, passphraseFieldFromCbor, hread]
  · exact sameBytes_fields henc.closed (by decide) rfl
      (by simp [henc.scheme, henc.aead, hnonce, hkem, hslots, hmac, hnopp, sameBytes_array hsame])

/-- A scheme-1 envelope on the passphrase key path. -/
theorem passphrasePath_sameBytes {options : ValidatorOptions}
    {pairs : List (CborValue × CborValue)} (hencodes : Encodes (.map pairs))
    (henc : IsScheme1 options pairs)
    (h : PassphrasePath options.passphraseParamsCeiling pairs) :
    ∃ typed, scheme1FromCbor pairs 1 = some typed ∧ SameBytes (.map pairs) (scheme1ToCbor typed) := by
  obtain ⟨hnokem, hnoslots, hnomac, pp, hpp, hblock⟩ := h
  obtain ⟨_, hnonce, nonce, rfl, -⟩ := henc.nonce
  obtain ⟨block, hread, hsame⟩ := passphrase_sameBytes (hencodes.of_mapGet hpp) hblock
  refine ⟨⟨1, contentFormat, nonce, none, none, none, some block⟩, ?_, ?_⟩
  · simp [scheme1FromCbor, henc.aead, hnonce, hnokem, hnoslots, hnomac, hpp, asText, asBytes,
      slotsFromCbor, passphraseFieldFromCbor, hread]
  · exact sameBytes_fields henc.closed (by decide) rfl
      (by simp [henc.scheme, henc.aead, hnonce, hnokem, hnoslots, hnomac, hpp, hsame])

/-- The projection replays the dispatch: it keeps an opaque envelope verbatim and types
a scheme-1 envelope. -/
theorem envelope_sameBytes {options : ValidatorOptions} {v : CborValue} (hencodes : Encodes v)
    (h : IsEnvelope options v) :
    ∃ enc, envelopeFromCbor v = some enc ∧ SameBytes v (envelopeToCbor enc) := by
  obtain ⟨pairs, rfl, -, -, scheme, hscheme, -, ⟨hunsupp, -⟩ | henc⟩ := h
  · refine ⟨.opaqueValue (.map pairs), ?_, .refl _⟩
    have hunsupported : scheme ≠ 1 ∨ kemSupported (mapGet pairs "kem") = false ∨
        aeadSupported (mapGet pairs "aead") = false := by
      rcases hunsupp with hne | ⟨kem, hkem, hunknown⟩ | ⟨aead, haead, hne⟩
      · exact .inl hne
      · have hnone := kemSlotDescriptor_eq_none_iff.mpr hunknown
        exact .inr (.inl (by simp [hkem, kemSupported, hnone]))
      · exact .inr (.inr (by simp [haead, aeadSupported, registryLookup_aead, hne]))
    simp only [envelopeFromCbor, asMap, Option.bind_eq_bind, Option.bind_some, hscheme,
      hunsupported, if_true]
  · obtain ⟨rfl, -⟩ := henc.not_opaqueReading hscheme
    have haead : aeadSupported (mapGet pairs "aead") = true := by
      simp [henc.aead, aeadSupported, registryLookup_aead]
    have hkem : kemSupported (mapGet pairs "kem") = true := by
      rcases henc.keyPath with hpath | hpath
      · obtain ⟨kem, field, length, entries, hmem, hkem, -⟩ := hpath.slots
        obtain ⟨descriptor, hdescriptor, -⟩ := mem_kemRegistry_iff.mp hmem
        simp [hkem, kemSupported, hdescriptor]
      · simp [hpath.noKem, kemSupported]
    obtain ⟨typed, hread, hsame⟩ : ∃ typed, scheme1FromCbor pairs 1 = some typed ∧
        SameBytes (.map pairs) (scheme1ToCbor typed) := by
      rcases henc.keyPath with hpath | hpath
      · exact slotsPath_sameBytes henc hpath
      · exact passphrasePath_sameBytes hencodes henc hpath
    exact ⟨.scheme1 typed, by simp [envelopeFromCbor, asMap, hscheme, haead, hkem, hread], hsame⟩

/-- A `hashes` map is read and written entry by entry. -/
theorem hashes_roundTrip {pairs : List (CborValue × CborValue)} (h : IsHashes (.map pairs)) :
    ∃ hashes, pairs.mapM hashFromCbor = some hashes ∧
      hashes.map (fun entry => (CborValue.text entry.1, CborValue.bytes entry.2)) = pairs := by
  obtain ⟨_, heq, hclosed, -, hdigests⟩ := h
  cases heq
  induction pairs with
  | nil => exact ⟨[], rfl, rfl⟩
  | cons q pairs ih =>
      obtain ⟨⟨alg, -, hkey⟩, hrestClosed⟩ := List.forall_mem_cons.mp hclosed
      obtain ⟨⟨digest, hvalue, -⟩, hrestDigests⟩ := List.forall_mem_cons.mp hdigests
      obtain ⟨k, v⟩ := q
      dsimp only at hkey hvalue
      subst hkey hvalue
      obtain ⟨hashes, hread, hwrite⟩ := ih hrestClosed hrestDigests
      exact ⟨(alg, digest) :: hashes,
        by simp [List.mapM_cons, hashFromCbor, asText, asBytes, hread], by simp [hwrite]⟩

theorem item_sameBytes {options : ValidatorOptions} {e : CborValue} (hencodes : Encodes e)
    (h : IsItem options e) : ∃ item, itemFromCbor e = some item ∧ SameBytes e (itemToCbor item) := by
  obtain ⟨pairs, rfl, hclosed, ⟨hashesValue, hget, hhashes⟩, huris, henc⟩ := h
  obtain ⟨hashPairs, rfl, -⟩ := id hhashes
  obtain ⟨hashes, hreadHashes, hwrite⟩ := hashes_roundTrip hhashes
  obtain ⟨uris, hreadUris, hsameUris⟩ := uris_sameField huris
  obtain ⟨enc, hreadEnc, hsameEnc⟩ : ∃ o, encFieldFromCbor (mapGet pairs "enc") = some o ∧
      SameField (mapGet pairs "enc") (o.map envelopeToCbor) := by
    cases hgetEnc : mapGet pairs "enc" with
    | none => exact ⟨none, rfl, .none⟩
    | some v =>
        obtain ⟨enc, hread, hsame⟩ :=
          envelope_sameBytes (hencodes.of_mapGet hgetEnc) (henc v hgetEnc)
        exact ⟨some enc, by simp [encFieldFromCbor, hread], .some hsame⟩
  exact ⟨⟨hashes, uris, enc⟩,
    by simp [itemFromCbor, asMap, hget, hreadHashes, hreadUris, hreadEnc],
    sameBytes_fields hclosed (by decide) rfl (by simp [hget, hwrite, hsameUris, hsameEnc])⟩

/-! ## Records -/

/-- The entries that are not under a base key, as the encoder writes them back. -/
theorem extensions_roundTrip {pairs : List (CborValue × CborValue)} (htext : TextKeyed pairs) :
    ∃ rest, rest.Sublist pairs ∧
      (∀ p ∈ pairs, p ∈ rest ↔ ¬ ∃ key ∈ topLevelBaseKeys, p.1 = .text key) ∧
      (extensionsFromCbor pairs).map (fun entry => (CborValue.text entry.1, entry.2)) = rest := by
  refine ⟨pairs.filter fun p => !((asText p.1).any topLevelBaseKeys.contains), List.filter_sublist,
    ?_, ?_⟩
  · intro p hp
    obtain ⟨t, ht⟩ := htext p hp
    simp [hp, ht, asText]
  · induction pairs with
    | nil => rfl
    | cons p pairs ih =>
        obtain ⟨⟨t, ht⟩, hrest⟩ := List.forall_mem_cons.mp htext
        obtain ⟨k, v⟩ := p
        dsimp only at ht
        subst ht
        have ih := ih hrest
        by_cases hbase : t ∈ topLevelBaseKeys
        · simpa [extensionsFromCbor, asText, hbase] using ih
        · simpa [extensionsFromCbor, asText, hbase] using ih

theorem crit_sameField {options : ValidatorOptions} {pairs : List (CborValue × CborValue)}
    {field : Option CborValue} (h : OptionalField (IsCrit options pairs) field) :
    ∃ o, arrayFromCbor field asText = some o ∧
      SameField field (o.map fun crit => .array (crit.map .text)) := by
  refine @arrayFromCbor_sameField _ field (fun v => ∃ s, v = .text s) asText .text ?_ ?_
  · intro v hv
    obtain ⟨names, rfl, hne, -⟩ := h v hv
    refine ⟨names.map .text, rfl, by simpa using hne, fun e he => ?_⟩
    obtain ⟨name, -, rfl⟩ := List.mem_map.mp he
    exact ⟨name, rfl⟩
  · rintro _ ⟨s, rfl⟩
    exact ⟨s, rfl, .refl _⟩

/-- The decoded map without its `sigs` entry. -/
def withoutSigs (pairs : List (CborValue × CborValue)) : List (CborValue × CborValue) :=
  pairs.filter fun p => !((asText p.1).any (· == "sigs"))

theorem mem_withoutSigs {pairs : List (CborValue × CborValue)} {p : CborValue × CborValue} :
    p ∈ withoutSigs pairs ↔ p ∈ pairs ∧ p.1 ≠ .text "sigs" := by
  obtain ⟨k, v⟩ := p
  cases k <;> simp [withoutSigs, asText]

theorem mapGet_withoutSigs (pairs : List (CborValue × CborValue)) (key : String) :
    mapGet (withoutSigs pairs) key = if key = "sigs" then none else mapGet pairs key := by
  induction pairs with
  | nil => simp [withoutSigs, mapGet]
  | cons p pairs ih =>
      obtain ⟨k, v⟩ := p
      cases k with
      | text t =>
          by_cases ht : t = "sigs"
          · have hdrop : withoutSigs ((.text t, v) :: pairs) = withoutSigs pairs := by
              simp [withoutSigs, asText, ht]
            rw [hdrop, ih]
            by_cases hkey : key = "sigs"
            · simp [hkey]
            · have hne : t ≠ key := fun heq => hkey (heq ▸ ht)
              simp [hkey, mapGet, hne]
          · have hkeep : withoutSigs ((.text t, v) :: pairs) = (.text t, v) :: withoutSigs pairs := by
              simp [withoutSigs, asText, ht]
            rw [hkeep]
            by_cases hkey : t = key
            · subst hkey
              simp [mapGet, ht]
            · simp [mapGet, hkey, ih]
      | _ => simpa [withoutSigs, mapGet, asText] using ih

theorem extensionsFromCbor_withoutSigs (pairs : List (CborValue × CborValue)) :
    extensionsFromCbor (withoutSigs pairs) = extensionsFromCbor pairs := by
  unfold extensionsFromCbor withoutSigs
  rw [List.filterMap_filter]
  congr 1
  funext p
  cases h : asText p.1 with
  | none => simp
  | some t =>
      by_cases ht : t = "sigs"
      · simp [ht, topLevelBaseKeys]
      · simp [ht]

/-- **The projection of a record of the grammar exists, and encodes to the record's bytes
with `sigs` and to the bytes of the record without that entry otherwise.** -/
theorem record_sameBytes {options : ValidatorOptions} {pairs : List (CborValue × CborValue)}
    (hencodes : Encodes (.map pairs)) (h : RecordGrammar options pairs) :
    ∃ record, recordFromCbor (.map pairs) = some record ∧
      SameBytes (.map pairs) (recordToCbor record true) ∧
      SameBytes (.map (withoutSigs pairs)) (recordToCbor record false) := by
  have htext : TextKeyed pairs := by
    intro p hp
    obtain ⟨t, ht, -⟩ := h.keys p hp
    exact ⟨t, ht⟩
  have hitem : ∀ v, mapGet pairs "items" = some v → ∀ entries, v = .array entries →
      ∀ e ∈ entries, Encodes e :=
    fun v hv entries heq e he => (heq ▸ hencodes.of_mapGet hv).of_mem_array he
  obtain ⟨items, hreadItems, hsameItems⟩ : ∃ o,
      arrayFromCbor (mapGet pairs "items") itemFromCbor = some o ∧
        SameField (mapGet pairs "items") (o.map fun items => .array (items.map itemToCbor)) := by
    refine @arrayFromCbor_sameField _ _ (fun e => Encodes e ∧ IsItem options e) _ _ ?_ ?_
    · intro v hv
      obtain ⟨entries, rfl, hne, hall⟩ := h.items v hv
      exact ⟨entries, rfl, hne, fun e he => ⟨hitem _ hv entries rfl e he, hall e he⟩⟩
    · exact fun e he => item_sameBytes he.1 he.2
  obtain ⟨merkle, hreadMerkle, hsameMerkle⟩ :=
    arrayFromCbor_sameField h.merkle fun _ he => merkleCommit_sameBytes he
  obtain ⟨sigs, hreadSigs, hsameSigs⟩ :=
    arrayFromCbor_sameField h.sigs fun _ he => sigEntry_sameBytes he
  obtain ⟨crit, hreadCrit, hsameCrit⟩ := crit_sameField h.crit
  obtain ⟨supersedes, hreadSupersedes, hsameSupersedes⟩ : ∃ o : Option (List UInt8),
      (mapGet pairs "supersedes").bind asBytes = o ∧
        SameField (mapGet pairs "supersedes") (o.map .bytes) := by
    cases hget : mapGet pairs "supersedes" with
    | none => exact ⟨none, rfl, .none⟩
    | some v =>
        obtain ⟨b, rfl, -⟩ := h.supersedes v hget
        exact ⟨some b, rfl, .some (.refl _)⟩
  have hkeys : topLevelBaseKeys.Nodup := by decide
  refine ⟨⟨1, items, merkle, supersedes, sigs, crit, extensionsFromCbor pairs⟩, ?_, ?_, ?_⟩
  · simp [recordFromCbor, asMap, h.v, asUnsigned, hreadItems, hreadMerkle, hreadSigs, hreadCrit,
      hreadSupersedes]
  · obtain ⟨rest, hsub, hsplit, hrest⟩ := extensions_roundTrip htext
    rw [recordToCbor, hrest]
    refine sameBytes_fields_append hkeys rfl hsub hsplit ?_
    simp [h.v, hsameItems, hsameMerkle, hsameSupersedes, hsameSigs, hsameCrit]
  · have htext' : TextKeyed (withoutSigs pairs) :=
      fun p hp => htext p (mem_withoutSigs.mp hp).1
    obtain ⟨rest, hsub, hsplit, hrest⟩ := extensions_roundTrip htext'
    rw [extensionsFromCbor_withoutSigs] at hrest
    rw [recordToCbor, hrest]
    refine sameBytes_fields_append hkeys rfl hsub hsplit ?_
    simp [mapGet_withoutSigs, h.v, hsameItems, hsameMerkle, hsameSupersedes, hsameCrit]

end Label309
