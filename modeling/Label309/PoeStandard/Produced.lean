import Label309.Cbor.EncodedLength
import Label309.PoeStandard.Validity

/-!
# What a producer may write

A typed record whose parts conform encodes to bytes that the validator accepts, and is read back
as it was but for the order of the hashes of an item.
-/
namespace Label309
open SortByKey

/-! ## Fields of a sorted map -/

theorem mapGet_perm {pairs pairs' : List (CborValue × CborValue)} (hperm : pairs.Perm pairs')
    (hnodup : (pairs.map Prod.fst).Nodup) (key : String) : mapGet pairs key = mapGet pairs' key := by
  have hnodup' : (pairs'.map Prod.fst).Nodup := (hperm.map Prod.fst).nodup_iff.mp hnodup
  apply Option.ext
  intro v
  rw [← mem_iff_mapGet hnodup, ← mem_iff_mapGet hnodup', hperm.mem_iff]

theorem mapGet_presentFields {fields : List (String × Option CborValue)}
    (hnodup : (fields.map Prod.fst).Nodup) {f : String × Option CborValue} (hf : f ∈ fields) :
    mapGet (presentFields fields) f.1 = f.2 := by
  induction fields with
  | nil => cases hf
  | cons g fields ih =>
      obtain ⟨hnew, hrestNodup⟩ := List.nodup_cons.mp hnodup
      obtain ⟨key, field⟩ := g
      rcases List.mem_cons.mp hf with heq | hmem
      · subst heq
        cases field with
        | some v => simp [presentFields, mapGet]
        | none =>
            rw [mapGet_eq_none_iff]
            intro hkey
            obtain ⟨v, hv⟩ := mem_textKeys.mp hkey
            obtain ⟨g, hg, heq⟩ := List.mem_filterMap.mp hv
            obtain ⟨w, hw, hpair⟩ := Option.map_eq_some_iff.mp heq
            cases List.mem_cons.mp hg with
            | inl hhead =>
                rw [hhead] at hw
                cases hw
            | inr hrest =>
                cases hpair
                exact hnew (List.mem_map.mpr ⟨g, hrest, rfl⟩)
      · have hne : key ≠ f.1 := fun heq => hnew (List.mem_map.mpr ⟨f, hmem, heq.symm⟩)
        have hrest := ih hrestNodup hmem
        cases field with
        | some v => simpa [presentFields, mapGet, hne] using hrest
        | none => simpa [presentFields] using hrest

theorem closedMap_presentFields (fields : List (String × Option CborValue)) :
    ClosedMap (fields.map Prod.fst) (presentFields fields) := by
  intro p hp
  obtain ⟨f, hf, heq⟩ := List.mem_filterMap.mp hp
  obtain ⟨v, -, hpair⟩ := Option.map_eq_some_iff.mp heq
  rw [← hpair]
  exact ⟨f.1, List.mem_map_of_mem hf, rfl⟩

theorem nodup_keys_presentFields {fields : List (String × Option CborValue)}
    (hnodup : (fields.map Prod.fst).Nodup) : ((presentFields fields).map Prod.fst).Nodup := by
  have hsub : ((presentFields fields).map Prod.fst).Sublist
      ((fields.map Prod.fst).map CborValue.text) := by
    clear hnodup
    induction fields with
    | nil => exact .slnil
    | cons f fields ih =>
        obtain ⟨key, field⟩ := f
        cases field with
        | some v => exact ih.cons_cons _
        | none => exact ih.cons _
  exact hsub.nodup (hnodup.map fun a b h => CborValue.text.inj h)

theorem mapGet_sortMapsEntry {pairs : List (CborValue × CborValue)} (htext : TextKeyed pairs)
    (key : String) : mapGet (pairs.map sortMapsEntry) key = (mapGet pairs key).map sortMaps := by
  induction pairs with
  | nil => rfl
  | cons p pairs ih =>
      obtain ⟨⟨t, ht⟩, hrest⟩ := List.forall_mem_cons.mp htext
      obtain ⟨k, v⟩ := p
      dsimp only at ht
      subst ht
      have hentry : sortMapsEntry (.text t, v) = (.text t, sortMaps v) := rfl
      rw [List.map_cons, hentry]
      by_cases hkey : t = key
      · simp [mapGet, hkey]
      · simp [mapGet, hkey, ih hrest]

/-- **A map of fields, as it is decoded again.** It has the same keys, and under each the same
value sorted. -/
theorem exists_sorted_fields {fields : List (String × Option CborValue)}
    (hnodup : (fields.map Prod.fst).Nodup) :
    ∃ pairs, sortMaps (.map (presentFields fields)) = .map pairs ∧
      ClosedMap (fields.map Prod.fst) pairs ∧
      ∀ f ∈ fields, mapGet pairs f.1 = f.2.map sortMaps := by
  have hclosed := closedMap_presentFields fields
  have htext : TextKeyed (presentFields fields) := hclosed.textKeyed
  have hperm : (sortEntries ((presentFields fields).map sortMapsEntry)).Perm
      ((presentFields fields).map sortMapsEntry) := perm_sortBy _
  have hkeys : ((presentFields fields).map sortMapsEntry).map Prod.fst =
      (presentFields fields).map Prod.fst := by
    rw [List.map_map]
    apply List.map_congr_left
    intro p hp
    obtain ⟨t, ht⟩ := htext p hp
    rw [Function.comp_apply, sortMapsEntry, ht]
    rfl
  refine ⟨_, by rw [sortMaps_map], ?_, ?_⟩
  · intro p hp
    obtain ⟨q, hq, heq⟩ := List.mem_map.mp (hperm.mem_iff.mp hp)
    obtain ⟨t, ht, hkey⟩ := hclosed q hq
    refine ⟨t, ht, ?_⟩
    rw [← heq, sortMapsEntry, hkey]
    rfl
  · intro f hf
    have hnodup' := nodup_keys_presentFields hnodup
    rw [← hkeys] at hnodup'
    rw [← mapGet_perm hperm.symm hnodup', mapGet_sortMapsEntry htext,
      mapGet_presentFields hnodup hf]

theorem encodes_presentFields {fields : List (String × Option CborValue)}
    (hnodup : (fields.map Prod.fst).Nodup) (hkeys : ∀ f ∈ fields, (utf8Bytes f.1).length < 2 ^ 64)
    (hvalues : ∀ f ∈ fields, ∀ v, f.2 = some v → Encodes v) :
    Encodes (.map (presentFields fields)) := by
  have hmem : ∀ p ∈ presentFields fields, ∃ f ∈ fields, p.1 = .text f.1 ∧ f.2 = some p.2 := by
    intro p hp
    obtain ⟨f, hf, heq⟩ := List.mem_filterMap.mp hp
    obtain ⟨v, hv, hpair⟩ := Option.map_eq_some_iff.mp heq
    rw [← hpair]
    exact ⟨f, hf, rfl, hv⟩
  apply exists_writeValue_map_iff.mpr
  constructor
  · have hsplit : ((presentFields fields).map fun p => encodedKey p.1) =
        ((presentFields fields).map Prod.fst).map encodedKey := by
      rw [List.map_map]
      rfl
    rw [hsplit]
    apply List.Nodup.map_on _ (nodup_keys_presentFields hnodup)
    intro k hk k' hk' heq
    obtain ⟨p, hp, rfl⟩ := List.mem_map.mp hk
    obtain ⟨p', hp', rfl⟩ := List.mem_map.mp hk'
    obtain ⟨f, hf, hkey, -⟩ := hmem p hp
    obtain ⟨f', hf', hkey', -⟩ := hmem p' hp'
    rw [hkey, hkey'] at heq ⊢
    rw [encodedKey_text_inj (.text (hkeys f hf)) (.text (hkeys f' hf')) heq]
  · intro p hp
    obtain ⟨f, hf, hkey, hvalue⟩ := hmem p hp
    rw [hkey]
    exact ⟨exists_writeValue_text f.1, hvalues f hf p.2 hvalue⟩

theorem encodes_array {items : List CborValue} (h : ∀ v ∈ items, Encodes v) :
    Encodes (.array items) := by
  obtain ⟨body, hbody⟩ := exists_writeItems_iff.mpr h
  exact ⟨_, ExceptBind.bind_eq_ok.mpr ⟨body, hbody, rfl⟩⟩

/-! ## Hashes -/

/-- A non-empty list of registered algorithms with 32-byte digests. -/
structure HashesConform (hashes : List (String × List UInt8)) : Prop where
  nonempty : hashes ≠ []
  registered : ∀ entry ∈ hashes, entry.1 ∈ ["sha2-256", "blake2b-256"] ∧ entry.2.length = 32

def hashesToCbor (hashes : List (String × List UInt8)) : CborValue :=
  .map (hashes.map fun entry => (.text entry.1, .bytes entry.2))

theorem sortMaps_hashesToCbor (hashes : List (String × List UInt8)) :
    ∃ sorted, sorted.Perm hashes ∧ sortMaps (hashesToCbor hashes) = hashesToCbor sorted := by
  refine ⟨sortBy compareEncodedKeys (fun entry => encodedKey (.text entry.1)) hashes,
    perm_sortBy _, ?_⟩
  have hentries : (hashes.map fun entry => (CborValue.text entry.1, CborValue.bytes entry.2)).map
      sortMapsEntry = hashes.map fun entry => (CborValue.text entry.1, CborValue.bytes entry.2) := by
    rw [List.map_map]
    rfl
  rw [hashesToCbor, sortMaps_map, hentries, hashesToCbor, sortEntries]
  exact congrArg CborValue.map (map_sortBy _ fun _ _ => rfl).symm

theorem HashesConform.isHashes {hashes : List (String × List UInt8)} (h : HashesConform hashes) :
    IsHashes (hashesToCbor hashes) := by
  refine ⟨_, rfl, ?_, by simpa using h.nonempty, ?_⟩
  · intro p hp
    obtain ⟨entry, hentry, heq⟩ := List.mem_map.mp hp
    rw [← heq]
    exact ⟨entry.1, (h.registered entry hentry).1, rfl⟩
  · intro p hp
    obtain ⟨entry, hentry, heq⟩ := List.mem_map.mp hp
    rw [← heq]
    exact ⟨entry.2, rfl, (h.registered entry hentry).2⟩

theorem HashesConform.perm {hashes hashes' : List (String × List UInt8)} (h : HashesConform hashes)
    (hperm : hashes'.Perm hashes) : HashesConform hashes' where
  nonempty := by
    intro hnil
    rw [hnil, List.nil_perm] at hperm
    exact h.nonempty hperm
  registered := fun entry hentry => h.registered entry (hperm.mem_iff.mp hentry)

theorem mapM_hashFromCbor (hashes : List (String × List UInt8)) :
    (hashes.map fun entry => (CborValue.text entry.1, CborValue.bytes entry.2)).mapM hashFromCbor =
      some hashes := by
  induction hashes with
  | nil => rfl
  | cons entry hashes ih => simp [List.mapM_cons, hashFromCbor, asText, asBytes, ih]

/-! ## Uris -/

/-- Nothing, or a non-empty list of uris that the validator takes. -/
def UrisConform (uris : Option (List String)) : Prop :=
  ∀ us, uris = some us → us ≠ [] ∧ ∀ u ∈ us, checkOneUri u = none

theorem sortMaps_urisToCbor (uris : List String) : sortMaps (urisToCbor uris) = urisToCbor uris := by
  rw [urisToCbor, sortMaps_array, List.map_map]
  rfl

theorem UrisConform.optionalField {uris : Option (List String)} (h : UrisConform uris) :
    OptionalField (ArrayOf IsUri) (uris.map urisToCbor) := by
  intro v hv
  obtain ⟨us, hus, heq⟩ := Option.map_eq_some_iff.mp hv
  obtain ⟨hne, hall⟩ := h us hus
  refine ⟨us.map .text, heq.symm, by simpa using hne, ?_⟩
  intro e he
  obtain ⟨u, hu, heq⟩ := List.mem_map.mp he
  exact ⟨u, heq.symm, hall u hu⟩

theorem mapM_asText (texts : List String) : (texts.map CborValue.text).mapM asText = some texts := by
  induction texts with
  | nil => rfl
  | cons t texts ih => simp [List.mapM_cons, asText, ih]

theorem urisFromCbor_urisToCbor (uris : Option (List String)) :
    urisFromCbor (uris.map urisToCbor) = some uris := by
  cases uris with
  | none => rfl
  | some us => rw [Option.map_some, urisToCbor, urisFromCbor, textsFromCbor, mapM_asText]; rfl

/-! ## Slots -/

/-- The slot with this material in the field of its KEM. -/
def slotOf (field : String) (material wrap : List UInt8) : Slot :=
  if field = "kem_ct" then ⟨none, some material, some wrap⟩ else ⟨some material, none, some wrap⟩

def Slot.material (slot : Slot) : Option (List UInt8) := slot.kemCt.or slot.epk

/-- The two fields of its KEM, at their lengths. -/
def SlotConforms (field : String) (length : ℕ) (slot : Slot) : Prop :=
  ∃ material wrap, slot = slotOf field material wrap ∧ material.length = length ∧ wrap.length = 48

/-- A slot as it is decoded again. -/
theorem slot_sorted {kem field : String} {length : ℕ} (hkem : (kem, field, length) ∈ kemRegistry)
    {slot : Slot} (h : SlotConforms field length slot) :
    IsSlot field length (sortMaps (slotToCbor slot)) ∧
      slotFromCbor (sortMaps (slotToCbor slot)) = some slot ∧
      slotMaterial field (sortMaps (slotToCbor slot)) = slot.material.map .bytes := by
  obtain ⟨material, wrap, rfl, hmaterial, hwrap⟩ := h
  have hfields : slotToCbor (slotOf field material wrap) = .map (presentFields
      [(field, some (.bytes material)), ("wrap", some (.bytes wrap))]) ∧ field ≠ "wrap" := by
    simp only [kemRegistry, List.mem_cons, Prod.mk.injEq, List.not_mem_nil, or_false] at hkem
    rcases hkem with ⟨-, rfl, -⟩ | ⟨-, rfl, -⟩
    · exact ⟨rfl, by decide⟩
    · exact ⟨rfl, by decide⟩
  obtain ⟨heq, hne⟩ := hfields
  obtain ⟨pairs, hsorted, hclosed, hget⟩ := @exists_sorted_fields
    [(field, some (.bytes material)), ("wrap", some (.bytes wrap))] (by simpa using hne)
  rw [heq, hsorted]
  rw [List.forall_mem_cons, List.forall_mem_cons] at hget
  have hgetField : mapGet pairs field = some (.bytes material) := hget.1
  have hgetWrap : mapGet pairs "wrap" = some (.bytes wrap) := hget.2.1
  have habsent (key : String) (hkey : key ∉ [field, "wrap"]) : mapGet pairs key = none := by
    rw [mapGet_eq_none_iff]
    exact fun hmem => hkey ((closedMap_iff.mp hclosed).2 key hmem)
  refine ⟨⟨pairs, rfl, hclosed, ⟨_, hgetField, material, rfl, hmaterial⟩,
    ⟨_, hgetWrap, wrap, rfl, hwrap⟩⟩, ?_⟩
  simp only [kemRegistry, List.mem_cons, Prod.mk.injEq, List.not_mem_nil, or_false] at hkem
  rcases hkem with ⟨-, rfl, -⟩ | ⟨-, rfl, -⟩
  · have hnone := habsent "kem_ct" (by decide)
    exact ⟨by simp [slotFromCbor, asMap, hgetField, hgetWrap, hnone, asBytes, slotOf],
      by simp [slotMaterial, asMap, hgetField, Slot.material, slotOf]⟩
  · have hnone := habsent "epk" (by decide)
    exact ⟨by simp [slotFromCbor, asMap, hgetField, hgetWrap, hnone, asBytes, slotOf],
      by simp [slotMaterial, asMap, hgetField, Slot.material, slotOf]⟩

theorem slots_sorted {kem field : String} {length : ℕ} (hkem : (kem, field, length) ∈ kemRegistry)
    {slots : List Slot} (h : ∀ slot ∈ slots, SlotConforms field length slot) :
    (slots.map fun slot => sortMaps (slotToCbor slot)).mapM slotFromCbor = some slots := by
  induction slots with
  | nil => rfl
  | cons slot slots ih =>
      obtain ⟨hslot, hrest⟩ := List.forall_mem_cons.mp h
      obtain ⟨-, hread, -⟩ := slot_sorted hkem hslot
      simp only [List.map_cons, List.mapM_cons, hread, ih hrest]
      rfl

/-! ## Envelopes -/

/-- The recipient key path of a scheme-1 envelope, in typed form. -/
structure EncScheme1.Conforms (maxSlots : ℕ) (enc : EncScheme1) : Prop where
  scheme : enc.scheme = 1
  aead : enc.aead = contentFormat
  nonce : enc.nonce.length = 24
  passphrase : enc.passphrase = none
  slotsMac : ∃ mac, enc.slotsMac = some mac ∧ mac.length = 32
  slots : ∃ kem field length slots, (kem, field, length) ∈ kemRegistry ∧ enc.kem = some kem ∧
    enc.slots = some slots ∧ slots ≠ [] ∧ slots.length ≤ maxSlots ∧
    (∀ slot ∈ slots, SlotConforms field length slot) ∧ (slots.map Slot.material).Nodup

def scheme1Fields (enc : EncScheme1) : List (String × Option CborValue) :=
  [("scheme", some (.unsigned enc.scheme)), ("aead", some (.text enc.aead)),
    ("nonce", some (.bytes enc.nonce)), ("kem", enc.kem.map .text),
    ("slots", enc.slots.map fun slots => .array (slots.map slotToCbor)),
    ("slots_mac", enc.slotsMac.map .bytes), ("passphrase", enc.passphrase.map passphraseToCbor)]

/-- An envelope as it is decoded again. -/
theorem EncScheme1.Conforms.sorted {options : ValidatorOptions} {enc : EncScheme1}
    (h : enc.Conforms options.maxSlots)
    (hsize : ∃ b, encodeCanonicalCbor (sortMaps (scheme1ToCbor enc)) = .ok b ∧
      b.length ≤ options.maxEncEnvelopeBytes) :
    IsEnvelope options (sortMaps (scheme1ToCbor enc)) ∧
      envelopeFromCbor (sortMaps (scheme1ToCbor enc)) = some (.scheme1 enc) := by
  obtain ⟨hscheme, haead, hnonce, hpass, ⟨mac, hmac, hmacLength⟩, kem, field, length, slots, hmem,
    hkem, hslots, hne, hmax, hconform, hnodup⟩ := h
  have hnames : ((scheme1Fields enc).map Prod.fst).Nodup :=
    show ["scheme", "aead", "nonce", "kem", "slots", "slots_mac", "passphrase"].Nodup by decide
  obtain ⟨pairs, hsorted, hclosed, hget⟩ := exists_sorted_fields hnames
  simp only [scheme1Fields, List.forall_mem_cons] at hget
  obtain ⟨hs, ha, hn, hk, hsl, hm, hp, -⟩ := hget
  have heq : scheme1ToCbor enc = .map (presentFields (scheme1Fields enc)) := rfl
  rw [heq, hsorted] at hsize ⊢
  have hgetScheme : mapGet pairs "scheme" = some (.unsigned 1) := by
    rw [hs, hscheme]
    rfl
  have hgetAead : mapGet pairs "aead" = some (.text contentFormat) := by
    rw [ha, haead]
    rfl
  have hgetNonce : mapGet pairs "nonce" = some (.bytes enc.nonce) := hn
  have hgetKem : mapGet pairs "kem" = some (.text kem) := by
    rw [hk, hkem]
    rfl
  have hgetSlots : mapGet pairs "slots" =
      some (.array (slots.map fun slot => sortMaps (slotToCbor slot))) := by
    rw [hsl, hslots, Option.map_some,
      Option.map_some, sortMaps_array, List.map_map]
    rfl
  have hgetMac : mapGet pairs "slots_mac" = some (.bytes mac) := by
    rw [hm, hmac]
    rfl
  have hgetPass : mapGet pairs "passphrase" = none := by
    rw [hp, hpass]
    rfl
  have hmaterials : (slots.map fun slot => sortMaps (slotToCbor slot)).map (slotMaterial field) =
      (slots.map Slot.material).map (Option.map CborValue.bytes) := by
    rw [List.map_map, List.map_map]
    apply List.map_congr_left
    intro slot hslot
    exact (slot_sorted hmem (hconform slot hslot)).2.2
  have hpath : SlotsPath options.maxSlots pairs := by
    refine ⟨hgetPass, ⟨_, hgetMac, mac, rfl, hmacLength⟩, kem, field, length, _, hmem, hgetKem,
      hgetSlots, by simpa using hne, by simpa using hmax, ?_, ?_⟩
    · intro e he
      obtain ⟨slot, hslot, heq⟩ := List.mem_map.mp he
      rw [← heq]
      exact (slot_sorted hmem (hconform slot hslot)).1
    · rw [hmaterials]
      exact hnodup.map (Option.map_injective fun a b hab => CborValue.bytes.inj hab)
  have hscheme1 : IsScheme1 options pairs :=
    ⟨hclosed, hgetScheme, hgetAead, ⟨_, hgetNonce, enc.nonce, rfl, hnonce⟩, .inl hpath⟩
  refine ⟨⟨pairs, rfl, hclosed.textKeyed, hsize, 1, hgetScheme, ?_, .inr hscheme1⟩, ?_⟩
  · intro aead heq
    rw [hgetAead, Option.some.injEq, CborValue.text.injEq] at heq
    rw [← heq]
    decide
  · obtain ⟨descriptor, hdescriptor, -⟩ := mem_kemRegistry_iff.mp hmem
    have hread : scheme1FromCbor pairs 1 = some enc := by
      cases enc
      simp only at hscheme haead hpass hmac hkem hslots
      simp [scheme1FromCbor, hgetAead, hgetNonce, hgetSlots, hgetPass, hgetKem, hgetMac, asText,
        asBytes, slotsFromCbor, passphraseFieldFromCbor, slots_sorted hmem hconform, hscheme, haead,
        hpass, hmac, hkem, hslots]
    simp [envelopeFromCbor, asMap, hgetScheme, hgetKem, hgetAead, kemSupported, hdescriptor,
      aeadSupported, registryLookup_aead, hread]

/-! ## Items, commitments and signatures -/

structure ItemEntry.Conforms (options : ValidatorOptions) (item : ItemEntry) : Prop where
  hashes : HashesConform item.hashes
  uris : UrisConform item.uris
  enc : ∀ enc, item.enc = some enc → ∃ typed, enc = .scheme1 typed ∧
    typed.Conforms options.maxSlots ∧
    encodedLength (scheme1ToCbor typed) ≤ options.maxEncEnvelopeBytes

/-- The same claim, with the hashes in another order. -/
structure ItemEntry.SameClaim (item item' : ItemEntry) : Prop where
  hashes : item.hashes.Perm item'.hashes
  uris : item.uris = item'.uris
  enc : item.enc = item'.enc

theorem item_sorted {options : ValidatorOptions} {item : ItemEntry} (h : item.Conforms options)
    (hencodes : Encodes (sortMaps (itemToCbor item))) :
    IsItem options (sortMaps (itemToCbor item)) ∧
      ∃ item', itemFromCbor (sortMaps (itemToCbor item)) = some item' ∧ item'.SameClaim item := by
  have hnames : ["hashes", "uris", "enc"].Nodup := by decide
  obtain ⟨pairs, hsorted, hclosed, hget⟩ := @exists_sorted_fields
    [("hashes", some (hashesToCbor item.hashes)), ("uris", item.uris.map urisToCbor),
      ("enc", item.enc.map envelopeToCbor)] hnames
  have heq : itemToCbor item = .map (presentFields
      [("hashes", some (hashesToCbor item.hashes)), ("uris", item.uris.map urisToCbor),
        ("enc", item.enc.map envelopeToCbor)]) := rfl
  rw [heq, hsorted] at hencodes ⊢
  simp only [List.forall_mem_cons] at hget
  obtain ⟨hgetHashes, hgetUris, hgetEnc, -⟩ := hget
  obtain ⟨sorted, hperm, hsortedHashes⟩ := sortMaps_hashesToCbor item.hashes
  rw [Option.map_some, hsortedHashes] at hgetHashes
  have hurisSame : (item.uris.map urisToCbor).map sortMaps = item.uris.map urisToCbor := by
    cases item.uris with
    | none => rfl
    | some us => rw [Option.map_some, Option.map_some, sortMaps_urisToCbor]
  rw [hurisSame] at hgetUris
  have henc : OptionalField (IsEnvelope options) (mapGet pairs "enc") ∧
      encFieldFromCbor (mapGet pairs "enc") = some item.enc := by
    cases hitem : item.enc with
    | none =>
        have hnone : mapGet pairs "enc" = none := by
          rw [hgetEnc, hitem]
          rfl
        rw [hnone]
        refine ⟨?_, rfl⟩
        intro v hv
        cases hv
    | some enc =>
        obtain ⟨typed, htyped, hconforms, hsize⟩ := h.enc enc hitem
        rw [hitem, htyped] at hgetEnc
        have hget : mapGet pairs "enc" = some (sortMaps (scheme1ToCbor typed)) := hgetEnc
        obtain ⟨b, hb⟩ := hencodes.of_mapGet hget
        have hlength := length_writeValue _ hb
        rw [encodedLength_sortMaps] at hlength
        obtain ⟨henvelope, hread⟩ := hconforms.sorted ⟨b, hb, hlength ▸ hsize⟩
        rw [hget, optionalField_some, encFieldFromCbor, hread, htyped]
        exact ⟨henvelope, rfl⟩
  constructor
  · exact ⟨pairs, rfl, hclosed, ⟨_, hgetHashes, (h.hashes.perm hperm).isHashes⟩,
      hgetUris ▸ h.uris.optionalField, henc.1⟩
  · refine ⟨⟨sorted, item.uris, item.enc⟩, ?_, ⟨hperm, rfl, rfl⟩⟩
    have hmap : (mapGet pairs "hashes").bind asMap = some (sorted.map fun entry =>
        (CborValue.text entry.1, CborValue.bytes entry.2)) := by
      rw [hgetHashes]
      rfl
    have huris : urisFromCbor (mapGet pairs "uris") = some item.uris := by
      rw [hgetUris, urisFromCbor_urisToCbor]
    show (mapGet pairs "hashes").bind asMap >>= (fun hashes => hashes.mapM hashFromCbor >>=
      fun hashes => urisFromCbor (mapGet pairs "uris") >>= fun uris =>
        encFieldFromCbor (mapGet pairs "enc") >>= fun enc =>
          some (ItemEntry.mk hashes uris enc)) = _
    rw [hmap, huris, henc.2]
    show (sorted.map _).mapM hashFromCbor >>= _ = _
    rw [mapM_hashFromCbor]
    rfl

structure MerkleCommit.Conforms (commit : MerkleCommit) : Prop where
  alg : commit.alg = "rfc9162-sha256"
  root : commit.root.length = 32
  leafCount : 1 ≤ commit.leafCount.toNat ∧ commit.leafCount.toNat ≤ 2 ^ 32 - 1
  uris : UrisConform commit.uris

theorem merkle_sorted {commit : MerkleCommit} (h : commit.Conforms) :
    IsMerkleCommit (sortMaps (merkleToCbor commit)) ∧
      merkleFromCbor (sortMaps (merkleToCbor commit)) = some commit := by
  have hnames : ["alg", "root", "leaf_count", "uris"].Nodup := by decide
  obtain ⟨pairs, hsorted, hclosed, hget⟩ := @exists_sorted_fields
    [("alg", some (.text commit.alg)), ("root", some (.bytes commit.root)),
      ("leaf_count", some (.unsigned commit.leafCount)), ("uris", commit.uris.map urisToCbor)] hnames
  have heq : merkleToCbor commit = .map (presentFields
      [("alg", some (.text commit.alg)), ("root", some (.bytes commit.root)),
        ("leaf_count", some (.unsigned commit.leafCount)), ("uris", commit.uris.map urisToCbor)]) :=
    rfl
  rw [heq, hsorted]
  simp only [List.forall_mem_cons] at hget
  obtain ⟨hgetAlg, hgetRoot, hgetCount, hgetUris, -⟩ := hget
  have hurisSame : (commit.uris.map urisToCbor).map sortMaps = commit.uris.map urisToCbor := by
    cases commit.uris with
    | none => rfl
    | some us => rw [Option.map_some, Option.map_some, sortMaps_urisToCbor]
  rw [hurisSame] at hgetUris
  have halg : mapGet pairs "alg" = some (.text commit.alg) := hgetAlg
  have hroot : mapGet pairs "root" = some (.bytes commit.root) := hgetRoot
  have hcount : mapGet pairs "leaf_count" = some (.unsigned commit.leafCount) := hgetCount
  constructor
  · exact ⟨pairs, rfl, hclosed, h.alg ▸ halg, ⟨_, hroot, commit.root, rfl, h.root⟩,
      ⟨_, hcount, commit.leafCount, rfl, h.leafCount⟩, hgetUris ▸ h.uris.optionalField⟩
  · simp [merkleFromCbor, asMap, halg, hroot, hcount, hgetUris, asText, asBytes, asUnsigned,
      urisFromCbor_urisToCbor]

/-- A detached signature that names no key of its own. -/
structure SigEntry.Conforms (entry : SigEntry) : Prop where
  coseSign1 : ∃ header, IsDetachedSign1 entry.coseSign1 header
  coseKey : entry.coseKey = none

theorem sig_sorted {entry : SigEntry} (h : entry.Conforms) :
    IsSigEntry (sortMaps (sigEntryToCbor entry)) ∧
      sigFromCbor (sortMaps (sigEntryToCbor entry)) = some entry := by
  obtain ⟨coseSign1, coseKey⟩ := entry
  obtain ⟨⟨header, hsign1⟩, hkey⟩ := h
  dsimp only at hsign1 hkey
  subst hkey
  have hnames : ["cose_sign1", "cose_key"].Nodup := by decide
  obtain ⟨pairs, hsorted, hclosed, hget⟩ := @exists_sorted_fields
    [("cose_sign1", some (.bytes coseSign1)), ("cose_key", none)] hnames
  have heq : sigEntryToCbor ⟨coseSign1, none⟩ = .map (presentFields
      [("cose_sign1", some (.bytes coseSign1)), ("cose_key", none)]) := rfl
  rw [heq, hsorted]
  simp only [List.forall_mem_cons] at hget
  obtain ⟨hgetSign1, hgetKey, -⟩ := hget
  have hsign : mapGet pairs "cose_sign1" = some (.bytes coseSign1) := hgetSign1
  have hnone : mapGet pairs "cose_key" = none := hgetKey
  constructor
  · refine ⟨pairs, rfl, hclosed, coseSign1, header, hsign, hsign1, ?_⟩
    intro v hv
    rw [hnone] at hv
    cases hv
  · simp [sigFromCbor, asMap, hsign, hnone, asBytes]

/-! ## Records -/

/-- An optional list, as it is decoded again element by element. -/
theorem array_sorted {α : Type} {write : α → CborValue} {read : CborValue → Option α}
    {P : CborValue → Prop} {R : α → α → Prop} {entries : Option (List α)}
    (h : ∀ es, entries = some es → es ≠ [] ∧ ∀ e ∈ es, P (sortMaps (write e)) ∧
      ∃ e', read (sortMaps (write e)) = some e' ∧ R e' e) {field : Option CborValue}
    (hfield : field = (entries.map fun es => .array (es.map write)).map sortMaps) :
    OptionalField (ArrayOf P) field ∧
      ∃ entries', arrayFromCbor field read = some entries' ∧
        Option.Rel (List.Forall₂ R) entries' entries := by
  cases entries with
  | none =>
      rw [hfield]
      exact ⟨fun v hv => (Option.some_ne_none v hv.symm).elim, none, rfl, .none⟩
  | some es =>
      obtain ⟨hne, hall⟩ := h es rfl
      have hsorted : field = some (.array (es.map fun e => sortMaps (write e))) := by
        rw [hfield, Option.map_some, Option.map_some, sortMaps_array, List.map_map]
        rfl
      have hread : ∃ es', (es.map fun e => sortMaps (write e)).mapM read = some es' ∧
          List.Forall₂ R es' es := by
        clear h hne hfield hsorted
        induction es with
        | nil => exact ⟨[], rfl, .nil⟩
        | cons e es ih =>
            obtain ⟨⟨-, e', he', hrel⟩, hrest⟩ := List.forall_mem_cons.mp hall
            obtain ⟨es', hes', hrels⟩ := ih hrest
            refine ⟨e' :: es', ?_, .cons hrel hrels⟩
            rw [List.map_cons, List.mapM_cons, he', hes']
            rfl
      obtain ⟨es', hes', hrels⟩ := hread
      rw [hsorted]
      refine ⟨?_, some es', by rw [arrayFromCbor, hes', Option.map_some], .some hrels⟩
      rw [optionalField_some]
      refine ⟨_, rfl, by simpa using hne, ?_⟩
      intro v hv
      obtain ⟨e, he, heq⟩ := List.mem_map.mp hv
      rw [← heq]
      exact (hall e he).1

theorem eq_of_optionRel {α : Type} {o o' : Option (List α)}
    (h : Option.Rel (List.Forall₂ Eq) o o') : o = o' := by
  rw [List.forall₂_eq_eq_eq] at h
  cases h with
  | none => rfl
  | some heq => exact congrArg some heq

/-- A record that a producer may write: no extension, and parts that conform. -/
structure PoeRecord.Conforms (options : ValidatorOptions) (record : PoeRecord) : Prop where
  v : record.v = 1
  items : ∀ items, record.items = some items → items ≠ [] ∧ ∀ item ∈ items, item.Conforms options
  merkle : ∀ merkle, record.merkle = some merkle → merkle ≠ [] ∧ ∀ commit ∈ merkle, commit.Conforms
  content : ¬ (record.items = none ∧ record.merkle = none)
  supersedes : record.supersedes = none
  sigs : ∀ sigs, record.sigs = some sigs → sigs ≠ [] ∧ ∀ entry ∈ sigs, entry.Conforms
  crit : record.crit = none
  extensions : record.extensions = []

/-- The same record, with the hashes of its items in another order. -/
structure PoeRecord.SameClaims (record record' : PoeRecord) : Prop where
  v : record.v = record'.v
  items : Option.Rel (List.Forall₂ ItemEntry.SameClaim) record.items record'.items
  merkle : record.merkle = record'.merkle
  supersedes : record.supersedes = record'.supersedes
  sigs : record.sigs = record'.sigs
  crit : record.crit = record'.crit
  extensions : record.extensions = record'.extensions

/-- The base fields of a record, in the order of the encoder. -/
def recordFields (record : PoeRecord) : List (String × Option CborValue) :=
  [("v", some (.unsigned record.v)),
    ("items", record.items.map fun items => .array (items.map itemToCbor)),
    ("merkle", record.merkle.map fun merkle => .array (merkle.map merkleToCbor)),
    ("supersedes", record.supersedes.map .bytes),
    ("sigs", record.sigs.map fun sigs => .array (sigs.map sigEntryToCbor)),
    ("crit", record.crit.map fun crit => .array (crit.map .text))]

theorem recordToCbor_fields {record : PoeRecord} (h : record.extensions = []) :
    recordToCbor record true = .map (presentFields (recordFields record)) := by
  rw [recordToCbor, h, List.map_nil, List.append_nil]
  rfl

/-! ## Lengths -/

theorem lengthsFit_presentFields {fields : List (String × Option CborValue)}
    (hcount : fields.length < 2 ^ 64) (hkeys : ∀ f ∈ fields, (utf8Bytes f.1).length < 2 ^ 64)
    (hvalues : ∀ f ∈ fields, ∀ v, f.2 = some v → LengthsFit v) :
    LengthsFit (.map (presentFields fields)) := by
  refine .map (lt_of_le_of_lt (List.length_filterMap_le _ _) hcount) ?_ ?_
  · intro p hp
    obtain ⟨f, hf, heq⟩ := List.mem_filterMap.mp hp
    obtain ⟨v, -, hpair⟩ := Option.map_eq_some_iff.mp heq
    rw [← hpair]
    exact .text (hkeys f hf)
  · intro p hp
    obtain ⟨f, hf, heq⟩ := List.mem_filterMap.mp hp
    obtain ⟨v, hv, hpair⟩ := Option.map_eq_some_iff.mp heq
    rw [← hpair]
    exact hvalues f hf v hv

/-- The lists and the texts of an optional list of uris fit a word. -/
def UrisSized (uris : Option (List String)) : Prop :=
  ∀ us, uris = some us → us.length < 2 ^ 64 ∧ ∀ u ∈ us, (utf8Bytes u).length < 2 ^ 64

theorem UrisSized.lengthsFit {uris : Option (List String)} (h : UrisSized uris) {v : CborValue}
    (hv : uris.map urisToCbor = some v) : LengthsFit v := by
  obtain ⟨us, hus, heq⟩ := Option.map_eq_some_iff.mp hv
  obtain ⟨hcount, htexts⟩ := h us hus
  rw [← heq]
  refine .array (by rwa [List.length_map]) ?_
  intro e he
  obtain ⟨u, hu, heq⟩ := List.mem_map.mp he
  rw [← heq]
  exact .text (htexts u hu)

theorem HashesConform.lengthsFit {hashes : List (String × List UInt8)} (h : HashesConform hashes)
    (hcount : hashes.length < 2 ^ 64) : LengthsFit (hashesToCbor hashes) := by
  refine .map (by rwa [List.length_map]) ?_ ?_
  · intro p hp
    obtain ⟨entry, hentry, heq⟩ := List.mem_map.mp hp
    rw [← heq]
    have hnames : ∀ name ∈ ["sha2-256", "blake2b-256"], (utf8Bytes name).length < 2 ^ 64 := by
      decide
    exact .text (hnames entry.1 (h.registered entry hentry).1)
  · intro p hp
    obtain ⟨entry, hentry, heq⟩ := List.mem_map.mp hp
    rw [← heq]
    exact .bytes (by rw [(h.registered entry hentry).2]; decide)

theorem SlotConforms.lengthsFit {kem field : String} {length : ℕ}
    (hkem : (kem, field, length) ∈ kemRegistry) {slot : Slot} (h : SlotConforms field length slot) :
    LengthsFit (slotToCbor slot) := by
  obtain ⟨material, wrap, rfl, hmaterial, hwrap⟩ := h
  have hfields : slotToCbor (slotOf field material wrap) = .map (presentFields
      [(field, some (.bytes material)), ("wrap", some (.bytes wrap))]) ∧
      (utf8Bytes field).length < 2 ^ 64 ∧ length < 2 ^ 64 := by
    simp only [kemRegistry, List.mem_cons, Prod.mk.injEq, List.not_mem_nil, or_false] at hkem
    rcases hkem with ⟨-, rfl, rfl⟩ | ⟨-, rfl, rfl⟩
    · exact ⟨rfl, by decide⟩
    · exact ⟨rfl, by decide⟩
  obtain ⟨heq, hname, hlength⟩ := hfields
  rw [heq]
  apply lengthsFit_presentFields (by simp)
  · simp only [List.forall_mem_cons]
    exact ⟨hname, by decide, List.forall_mem_nil _⟩
  · simp only [List.forall_mem_cons, Option.some.injEq, forall_eq']
    exact ⟨.bytes (by omega), .bytes (by rw [hwrap]; decide), List.forall_mem_nil _⟩

theorem EncScheme1.Conforms.lengthsFit {maxSlots : ℕ} {enc : EncScheme1} (h : enc.Conforms maxSlots)
    (hmax : maxSlots < 2 ^ 64) : LengthsFit (scheme1ToCbor enc) := by
  obtain ⟨-, haead, hnonce, hpass, ⟨mac, hmac, hmacLength⟩, kem, field, length, slots, hmem,
    hkem, hslots, -, hcount, hconform, -⟩ := h
  apply lengthsFit_presentFields (by simp)
  · simp only [List.forall_mem_cons]
    exact ⟨by decide, by decide, by decide, by decide, by decide, by decide, by decide,
      List.forall_mem_nil _⟩
  · simp only [List.forall_mem_cons, hkem, hslots, hmac, hpass, haead, Option.map_some,
      Option.map_none, Option.some.injEq, forall_eq']
    have hkemText : (utf8Bytes kem).length < 2 ^ 64 := by
      simp only [kemRegistry, List.mem_cons, Prod.mk.injEq, List.not_mem_nil, or_false] at hmem
      rcases hmem with ⟨rfl, -⟩ | ⟨rfl, -⟩
      · decide
      · decide
    refine ⟨.unsigned _, .text (by decide), .bytes (by rw [hnonce]; decide), .text hkemText, ?_,
      .bytes (by rw [hmacLength]; decide), by simp, List.forall_mem_nil _⟩
    refine .array (by rw [List.length_map]; omega) ?_
    intro v hv
    obtain ⟨slot, hslot, heq⟩ := List.mem_map.mp hv
    rw [← heq]
    exact (hconform slot hslot).lengthsFit hmem

/-- The lists of a record and its texts fit a word. -/
structure PoeRecord.Sized (record : PoeRecord) : Prop where
  items : ∀ items, record.items = some items → items.length < 2 ^ 64 ∧
    ∀ item ∈ items, item.hashes.length < 2 ^ 64 ∧ UrisSized item.uris
  merkle : ∀ merkle, record.merkle = some merkle → merkle.length < 2 ^ 64 ∧
    ∀ commit ∈ merkle, UrisSized commit.uris
  sigs : ∀ sigs, record.sigs = some sigs → sigs.length < 2 ^ 64 ∧
    ∀ entry ∈ sigs, entry.coseSign1.length < 2 ^ 64

theorem ItemEntry.Conforms.lengthsFit {options : ValidatorOptions} {item : ItemEntry}
    (h : item.Conforms options) (hmax : options.maxSlots < 2 ^ 64)
    (hcount : item.hashes.length < 2 ^ 64) (huris : UrisSized item.uris) :
    LengthsFit (itemToCbor item) := by
  apply lengthsFit_presentFields (by simp)
  · simp only [List.forall_mem_cons]
    exact ⟨by decide, by decide, by decide, List.forall_mem_nil _⟩
  · simp only [List.forall_mem_cons, Option.some.injEq, forall_eq']
    refine ⟨h.hashes.lengthsFit hcount, fun v hv => huris.lengthsFit hv, ?_, nofun⟩
    intro v hv
    obtain ⟨enc, henc, heq⟩ := Option.map_eq_some_iff.mp hv
    obtain ⟨typed, htyped, hconforms, -⟩ := h.enc enc henc
    rw [← heq, htyped]
    exact hconforms.lengthsFit hmax

theorem MerkleCommit.Conforms.lengthsFit {commit : MerkleCommit} (h : commit.Conforms)
    (huris : UrisSized commit.uris) : LengthsFit (merkleToCbor commit) := by
  apply lengthsFit_presentFields (by simp)
  · simp only [List.forall_mem_cons]
    exact ⟨by decide, by decide, by decide, by decide, List.forall_mem_nil _⟩
  · simp only [List.forall_mem_cons, Option.some.injEq, forall_eq', h.alg]
    exact ⟨.text (by decide), .bytes (by rw [h.root]; decide), .unsigned _,
      fun v hv => huris.lengthsFit hv, nofun⟩

theorem SigEntry.Conforms.lengthsFit {entry : SigEntry} (h : entry.Conforms)
    (hcount : entry.coseSign1.length < 2 ^ 64) : LengthsFit (sigEntryToCbor entry) := by
  apply lengthsFit_presentFields (by simp)
  · simp only [List.forall_mem_cons]
    exact ⟨by decide, by decide, nofun⟩
  · simp only [List.forall_mem_cons, Option.some.injEq, forall_eq', h.coseKey, Option.map_none]
    exact ⟨.bytes hcount, nofun, nofun⟩

/-- An optional list of parts that fit. -/
theorem lengthsFit_array {α : Type} {write : α → CborValue} {entries : Option (List α)}
    (h : ∀ es, entries = some es → es.length < 2 ^ 64 ∧ ∀ e ∈ es, LengthsFit (write e))
    {v : CborValue} (hv : (entries.map fun es => CborValue.array (es.map write)) = some v) :
    LengthsFit v := by
  obtain ⟨es, hes, heq⟩ := Option.map_eq_some_iff.mp hv
  obtain ⟨hcount, hall⟩ := h es hes
  rw [← heq]
  refine .array (by rwa [List.length_map]) ?_
  intro w hw
  obtain ⟨e, he, heq⟩ := List.mem_map.mp hw
  rw [← heq]
  exact hall e he

theorem PoeRecord.Conforms.lengthsFit {options : ValidatorOptions} {record : PoeRecord}
    (h : record.Conforms options) (hmax : options.maxSlots < 2 ^ 64) (hsized : record.Sized) :
    LengthsFit (recordToCbor record true) := by
  rw [recordToCbor_fields h.extensions]
  apply lengthsFit_presentFields (by simp [recordFields])
  · simp only [recordFields, List.forall_mem_cons]
    exact ⟨by decide, by decide, by decide, by decide, by decide, by decide, List.forall_mem_nil _⟩
  · simp only [recordFields, List.forall_mem_cons, Option.some.injEq, forall_eq', h.supersedes,
      h.crit, Option.map_none]
    refine ⟨.unsigned _, fun v hv => lengthsFit_array ?_ hv, fun v hv => lengthsFit_array ?_ hv,
      nofun, fun v hv => lengthsFit_array ?_ hv, nofun, nofun⟩
    · intro items heq
      obtain ⟨hcount, hall⟩ := hsized.items items heq
      refine ⟨hcount, ?_⟩
      intro item hitem
      exact ((h.items items heq).2 item hitem).lengthsFit hmax (hall item hitem).1
        (hall item hitem).2
    · intro merkle heq
      obtain ⟨hcount, hall⟩ := hsized.merkle merkle heq
      exact ⟨hcount, fun commit hc => ((h.merkle merkle heq).2 commit hc).lengthsFit (hall commit hc)⟩
    · intro sigs heq
      obtain ⟨hcount, hall⟩ := hsized.sigs sigs heq
      exact ⟨hcount, fun entry he => ((h.sigs sigs heq).2 entry he).lengthsFit (hall entry he)⟩

/-! ## Reading back -/

/-- **A record without extensions, as it is decoded again.** -/
theorem decode_record {record : PoeRecord} (hext : record.extensions = [])
    (hfits : LengthsFit (recordToCbor record true)) {b : List UInt8}
    (hencode : encodePoeRecord record = .ok b) :
    ∃ pairs, decodeCanonicalCbor b = .ok (.map pairs) ∧ ClosedMap topLevelBaseKeys pairs ∧
      ∀ f ∈ recordFields record, mapGet pairs f.1 = f.2.map sortMaps := by
  have hnames : ((recordFields record).map Prod.fst).Nodup :=
    show ["v", "items", "merkle", "supersedes", "sigs", "crit"].Nodup by decide
  obtain ⟨pairs, hsorted, hclosed, hget⟩ := exists_sorted_fields hnames
  refine ⟨pairs, ?_, hclosed, hget⟩
  rw [decode_of_encode hfits hencode, recordToCbor_fields hext, hsorted]

/-- **What conforms is accepted, and read back as it was written.** -/
theorem validate_of_conforms {options : ValidatorOptions} {record : PoeRecord}
    (h : record.Conforms options) (hfits : LengthsFit (recordToCbor record true))
    {b : List UInt8} (hencode : encodePoeRecord record = .ok b) :
    ∃ read warnings info, validatePoeRecord b options = .ok read warnings info ∧
      read.SameClaims record := by
  obtain ⟨pairs, hdecode, hclosed, hget⟩ := decode_record h.extensions hfits hencode
  have hencodes := encodes_of_decode hdecode
  simp only [recordFields, List.forall_mem_cons] at hget
  obtain ⟨hv, hitems, hmerkle, hsupersedes, hsigs, hcrit, -⟩ := hget
  rw [h.v] at hv
  have hv1 : mapGet pairs "v" = some (.unsigned 1) := hv
  rw [h.supersedes] at hsupersedes
  have hsupersedesNone : mapGet pairs "supersedes" = none := hsupersedes
  rw [h.crit] at hcrit
  have hcritNone : mapGet pairs "crit" = none := hcrit
  have hitem : ∀ items, record.items = some items → items ≠ [] ∧ ∀ item ∈ items,
      IsItem options (sortMaps (itemToCbor item)) ∧
        ∃ item', itemFromCbor (sortMaps (itemToCbor item)) = some item' ∧ item'.SameClaim item := by
    intro items heq
    obtain ⟨hne, hall⟩ := h.items items heq
    refine ⟨hne, ?_⟩
    intro item hmem
    apply item_sorted (hall item hmem)
    rw [heq, Option.map_some, Option.map_some, sortMaps_array] at hitems
    exact (hencodes.of_mapGet hitems).of_mem_array
      (List.mem_map_of_mem (List.mem_map_of_mem hmem))
  have hcommit : ∀ merkle, record.merkle = some merkle → merkle ≠ [] ∧ ∀ commit ∈ merkle,
      IsMerkleCommit (sortMaps (merkleToCbor commit)) ∧
        ∃ commit', merkleFromCbor (sortMaps (merkleToCbor commit)) = some commit' ∧
          commit' = commit := by
    intro merkle heq
    obtain ⟨hne, hall⟩ := h.merkle merkle heq
    refine ⟨hne, ?_⟩
    intro commit hmem
    obtain ⟨hshape, hread⟩ := merkle_sorted (hall commit hmem)
    exact ⟨hshape, commit, hread, rfl⟩
  have hsig : ∀ sigs, record.sigs = some sigs → sigs ≠ [] ∧ ∀ entry ∈ sigs,
      IsSigEntry (sortMaps (sigEntryToCbor entry)) ∧
        ∃ entry', sigFromCbor (sortMaps (sigEntryToCbor entry)) = some entry' ∧
          entry' = entry := by
    intro sigs heq
    obtain ⟨hne, hall⟩ := h.sigs sigs heq
    refine ⟨hne, ?_⟩
    intro entry hmem
    obtain ⟨hshape, hread⟩ := sig_sorted (hall entry hmem)
    exact ⟨hshape, entry, hread, rfl⟩
  obtain ⟨hgrammarItems, items, hreadItems, hsameItems⟩ := array_sorted hitem hitems
  obtain ⟨hgrammarMerkle, merkle, hreadMerkle, hsameMerkle⟩ := array_sorted hcommit hmerkle
  obtain ⟨hgrammarSigs, sigs, hreadSigs, hsameSigs⟩ := array_sorted hsig hsigs
  have hgrammar : RecordGrammar options pairs := by
    refine ⟨?_, hv1, hgrammarItems, hgrammarMerkle, ?_, ?_, hgrammarSigs, ?_⟩
    · intro p hp
      obtain ⟨t, ht, heq⟩ := hclosed p hp
      exact ⟨t, heq, .inl ht⟩
    · intro hnone
      rw [hitems, hmerkle, Option.map_eq_none_iff, Option.map_eq_none_iff, Option.map_eq_none_iff,
        Option.map_eq_none_iff] at hnone
      exact h.content hnone
    · intro v hv
      rw [hsupersedesNone] at hv
      cases hv
    · intro v hv
      rw [hcritNone] at hv
      cases hv
  have hextensions : extensionsFromCbor pairs = [] := by
    rw [extensionsFromCbor, List.filterMap_eq_nil_iff]
    intro p hp
    obtain ⟨t, ht, heq⟩ := hclosed p hp
    rw [heq, asText, Option.bind_some, if_pos (List.contains_iff_mem.mpr ht)]
  have hread : recordFromCbor (.map pairs) =
      some ⟨1, items, merkle, none, sigs, none, []⟩ := by
    have hreadCrit : arrayFromCbor (mapGet pairs "crit") asText = some none := by
      rw [hcritNone, arrayFromCbor]
      simp
    simp [recordFromCbor, asMap, hv1, asUnsigned, hreadItems, hreadMerkle, hreadSigs, hreadCrit,
      hsupersedesNone, hextensions]
  obtain ⟨warnings, info, hvalid⟩ :=
    validate_eq_ok_iff.mpr ⟨pairs, hdecode, (passes_iff hencodes).mpr hgrammar, hread⟩
  refine ⟨_, warnings, info, hvalid, h.v.symm, hsameItems, ?_, h.supersedes.symm, ?_, h.crit.symm,
    h.extensions.symm⟩
  · exact eq_of_optionRel hsameMerkle
  · exact eq_of_optionRel hsameSigs

/-! ## What an accepted record says -/

/-- An element that was read from an array of one shape. -/
theorem exists_of_arrayFromCbor {α : Type} {field : Option CborValue} {P : CborValue → Prop}
    {read : CborValue → Option α} (hfield : OptionalField (ArrayOf P) field) {as : List α}
    (hread : arrayFromCbor field read = some (some as)) {a : α} (ha : a ∈ as) :
    ∃ e entries, field = some (.array entries) ∧ e ∈ entries ∧ P e ∧ read e = some a := by
  cases field with
  | none => cases hread
  | some v =>
      obtain ⟨entries, rfl, -, hall⟩ := hfield v rfl
      rw [arrayFromCbor, Option.map_eq_some_iff] at hread
      obtain ⟨as', hreads, heq⟩ := hread
      cases heq
      obtain ⟨e, he, hreadE⟩ := ExceptBind.exists_of_mapM_eq_some hreads ha
      exact ⟨e, entries, rfl, he, hall e he, hreadE⟩

/-- The parts of a record that was read. -/
theorem recordFromCbor_parts {pairs : List (CborValue × CborValue)} {record : PoeRecord}
    (h : recordFromCbor (.map pairs) = some record) :
    arrayFromCbor (mapGet pairs "items") itemFromCbor = some record.items ∧
      arrayFromCbor (mapGet pairs "merkle") merkleFromCbor = some record.merkle := by
  simp only [recordFromCbor, asMap, Option.bind_eq_bind, Option.bind_eq_some_iff, Option.some.injEq,
    exists_eq_left'] at h
  obtain ⟨v, -, items, hitems, merkle, hmerkle, sigs, -, crit, -, heq⟩ := h
  cases heq
  exact ⟨hitems, hmerkle⟩

/-- An envelope of an accepted record is within the bound on its size. -/
theorem encodedLength_le_of_accepted {b : List UInt8} {options : ValidatorOptions}
    {read : PoeRecord} {warnings info : List ValidationIssue}
    (h : validatePoeRecord b options = .ok read warnings info) {items : List ItemEntry}
    (hitems : read.items = some items) {item : ItemEntry} (hitem : item ∈ items)
    {enc : EncryptionEnvelope} (henc : item.enc = some enc) :
    encodedLength (envelopeToCbor enc) ≤ options.maxEncEnvelopeBytes := by
  obtain ⟨pairs, hdecode, hgrammar, hrecord⟩ := grammar_of_accepted h
  have hencodes := encodes_of_decode hdecode
  obtain ⟨hreadItems, -⟩ := recordFromCbor_parts hrecord
  rw [hitems] at hreadItems
  obtain ⟨e, entries, hfield, he, hshape, hread⟩ :=
    exists_of_arrayFromCbor hgrammar.items hreadItems hitem
  have hencodesItem := (hencodes.of_mapGet hfield).of_mem_array he
  obtain ⟨itemPairs, rfl, -, -, -, hencShape⟩ := hshape
  simp only [itemFromCbor, asMap, Option.bind_eq_bind, Option.bind_eq_some_iff, Option.some.injEq,
    exists_eq_left'] at hread
  obtain ⟨_, -, hashes, -, uris, -, o, ho, heq⟩ := hread
  cases heq
  dsimp only at henc
  subst henc
  cases hget : mapGet itemPairs "enc" with
  | none =>
      rw [hget] at ho
      cases ho
  | some v =>
      rw [hget, encFieldFromCbor, Option.map_eq_some_iff] at ho
      obtain ⟨enc', hreadEnc, heq⟩ := ho
      cases heq
      have henvelope := hencShape v hget
      obtain ⟨b', hb', hsize⟩ := henvelope.choose_spec.2.2.1
      obtain ⟨enc', hread', hsame⟩ := envelope_sameBytes (hencodesItem.of_mapGet hget) henvelope
      rw [hreadEnc] at hread'
      cases hread'
      rw [← length_writeValue _ (hsame b' hb')]
      exact hsize

/-- A leaf count of an accepted record is within its bounds. -/
theorem leafCount_le_of_accepted {b : List UInt8} {options : ValidatorOptions}
    {read : PoeRecord} {warnings info : List ValidationIssue}
    (h : validatePoeRecord b options = .ok read warnings info) {merkle : List MerkleCommit}
    (hmerkle : read.merkle = some merkle) {commit : MerkleCommit} (hcommit : commit ∈ merkle) :
    1 ≤ commit.leafCount.toNat ∧ commit.leafCount.toNat ≤ 2 ^ 32 - 1 := by
  obtain ⟨pairs, hdecode, hgrammar, hrecord⟩ := grammar_of_accepted h
  obtain ⟨-, hreadMerkle⟩ := recordFromCbor_parts hrecord
  rw [hmerkle] at hreadMerkle
  obtain ⟨e, -, -, -, hshape, hread⟩ :=
    exists_of_arrayFromCbor hgrammar.merkle hreadMerkle hcommit
  obtain ⟨commitPairs, rfl, -, -, -, hcount, -⟩ := hshape
  simp only [merkleFromCbor, asMap, Option.bind_eq_bind, Option.bind_eq_some_iff, Option.some.injEq,
    exists_eq_left'] at hread
  obtain ⟨_, -, _, -, n, ⟨v, hget, hn⟩, uris, -, heq⟩ := hread
  cases heq
  obtain ⟨v', hget', n', rfl, hrange⟩ := hcount
  rw [hget'] at hget
  cases hget
  cases hn
  exact hrange

end Label309
