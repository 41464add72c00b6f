import Label309.CoseRoundTrip

/-!
# The codec of COSE_Sign1

Encoding orders the parameters of both headers, and inside their values the entries of every
map. It fails on a value with a map that repeats a key. Decoding is inverse to encoding on every
byte string it accepts.
-/
namespace Label309
open ExceptBind

/-! ## Encoding -/

namespace CoseHeader

/-- No label is given twice. -/
def DistinctLabels (header : CoseHeader) : Prop := (header.pairs.map Prod.fst).Nodup

/-- No map inside a value repeats a key. -/
def DistinctKeys (header : CoseHeader) : Prop :=
  ∀ entry ∈ header.pairs, ¬ HasDuplicateKey entry.2

end CoseHeader

theorem canonical_toCbor {label : CoseLabel} (h : LengthsFit label.toCbor) :
    Canonical label.toCbor := by
  cases label with
  | text s =>
      cases h with
      | text hfit => exact .text hfit
  | int v =>
      rw [CoseLabel.toCbor, cborIntFromI128]
      split
      · exact .unsigned _
      · exact .negative _

theorem exists_encode_label (label : CoseLabel) : ∃ b, writeValue label.toCbor = .ok b := by
  cases label with
  | text s => exact ⟨_, rfl⟩
  | int v =>
      rw [CoseLabel.toCbor, cborIntFromI128]
      split <;> exact ⟨_, rfl⟩

/-- Labels in the range of CBOR are told apart by their encodings. -/
theorem encodedLabel_injective {label label' : CoseLabel}
    (hrange : ∀ v, label = .int v → -2 ^ 64 ≤ v ∧ v < 2 ^ 64)
    (hrange' : ∀ v, label' = .int v → -2 ^ 64 ≤ v ∧ v < 2 ^ 64)
    (hfits : LengthsFit label.toCbor) (hfits' : LengthsFit label'.toCbor)
    (h : encodedKey label.toCbor = encodedKey label'.toCbor) : label = label' := by
  obtain ⟨b, hb⟩ := exists_encode_label label
  obtain ⟨b', hb'⟩ := exists_encode_label label'
  rw [encodedKey_of_ok hb, encodedKey_of_ok hb'] at h
  rw [← h] at hb'
  have hsame := (canonical_toCbor hfits).encode_injective (canonical_toCbor hfits') hb hb'
  have hread := fromCbor_toCbor hrange
  rw [hsame, fromCbor_toCbor hrange'] at hread
  exact (Option.some.inj hread).symm

/-- The bytes of the keys of a header. -/
theorem nodup_encodedLabels {header : CoseHeader} (h : header.Storable)
    (hlabels : header.DistinctLabels) :
    (header.pairs.map fun entry => encodedKey entry.1.toCbor).Nodup := by
  rw [CoseHeader.DistinctLabels, List.Nodup, List.pairwise_map] at hlabels
  rw [List.Nodup, List.pairwise_map]
  have hkeys : ∀ entry ∈ header.pairs, LengthsFit entry.1.toCbor := by
    intro entry hentry
    cases h.fits with
    | map _ hkeys _ => exact hkeys _ (List.mem_map_of_mem hentry)
  refine hlabels.imp_of_mem ?_
  intro entry entry' hentry hentry' hne heq
  exact hne (encodedLabel_injective (h.labels entry hentry) (h.labels entry' hentry')
    (hkeys entry hentry) (hkeys entry' hentry') heq)

/-- A header with distinct labels encodes when its values do. -/
theorem exists_encode_header_iff {header : CoseHeader} (h : header.Storable)
    (hlabels : header.DistinctLabels) :
    (∃ b, encodeCanonicalCbor header.toCbor = .ok b) ↔ header.DistinctKeys := by
  have hnodup := nodup_encodedLabels h hlabels
  rw [encodeCanonicalCbor, CoseHeader.toCbor, exists_writeValue_map_iff, List.map_map]
  constructor
  · intro hencodes entry hentry
    exact (exists_encode_iff entry.2).mp (hencodes.2 _ (List.mem_map_of_mem hentry)).2
  · intro hvalues
    refine ⟨hnodup, ?_⟩
    intro p hp
    obtain ⟨entry, hentry, heq⟩ := List.mem_map.mp hp
    rw [← heq]
    exact ⟨exists_encode_label entry.1, (exists_encode_iff entry.2).mpr (hvalues entry hentry)⟩

theorem exists_encodeProtected_iff {header : CoseHeader} (h : header.Storable)
    (hlabels : header.DistinctLabels) :
    (∃ b, header.encodeProtected = .ok b) ↔ header.DistinctKeys := by
  rw [CoseHeader.encodeProtected]
  by_cases hempty : header.isEmpty = true
  · have hpairs : header.pairs = [] := List.isEmpty_iff.mp hempty
    simp [hempty, CoseHeader.DistinctKeys, hpairs]
  · rw [if_neg hempty]
    exact exists_encode_header_iff h hlabels

/-- An envelope encodes when no value of its headers has a map that repeats a key. -/
theorem exists_encodeCoseSign1_iff_distinctKeys {protectedHeader unprotectedHeader : CoseHeader}
    (hprotected : protectedHeader.Storable) (hunprotected : unprotectedHeader.Storable)
    (hlabels : protectedHeader.DistinctLabels) (hlabels' : unprotectedHeader.DistinctLabels)
    (payload : Option (List UInt8)) (signature : List UInt8) :
    (∃ bytes, encodeCoseSign1 protectedHeader unprotectedHeader payload signature = .ok bytes) ↔
      protectedHeader.DistinctKeys ∧ unprotectedHeader.DistinctKeys := by
  rw [← exists_encodeProtected_iff hprotected hlabels,
    ← exists_encode_header_iff hunprotected hlabels']
  constructor
  · intro h
    obtain ⟨bytes, h⟩ := h
    have hparts := h
    rw [encodeCoseSign1_eq] at hparts
    obtain ⟨protectedBytes, hbytes, -⟩ := bind_eq_ok.mp hparts
    exact ⟨⟨protectedBytes, hbytes⟩, (exists_encodeCoseSign1_iff hbytes).mp ⟨bytes, h⟩⟩
  · intro h
    obtain ⟨⟨protectedBytes, hbytes⟩, hencodes⟩ := h
    exact (exists_encodeCoseSign1_iff hbytes).mpr hencodes

/-! ## Decoding -/

/-- A decoded protected header encodes to the bytes it was read from. -/
theorem encodeProtected_of_isProtectedHeader {protectedBytes : List UInt8}
    {pairs : List (CborValue × CborValue)} {header : CoseHeader}
    (h : IsProtectedHeader protectedBytes pairs)
    (hread : CoseHeader.fromCborMap (.map pairs) = some header) :
    header.encodeProtected = .ok protectedBytes := by
  rw [CoseHeader.encodeProtected, isEmpty_of_read hread, toCbor_of_read hread]
  cases h with
  | inl hnone =>
      rw [hnone.1, hnone.2]
      rfl
  | inr hsome =>
      rw [if_neg (by simpa using hsome.1)]
      exact encode_of_decode hsome.2

/-- What decodes is the encoding of what it decodes to. -/
theorem encodeCoseSign1_of_decode {bytes : List UInt8} {cose : CoseSign1Decoded}
    (h : decodeCoseSign1 bytes = .ok cose) :
    cose.protectedHeader.encodeProtected = .ok cose.protectedBytes ∧
      encodeCoseSign1 cose.protectedHeader cose.unprotectedHeader cose.payload
        cose.signature.val = .ok bytes := by
  obtain ⟨header, unprotected, hdecode, hheader, hread, hunprotected⟩ := decodeCoseSign1_parts h
  have hprotected := encodeProtected_of_isProtectedHeader hheader hread
  refine ⟨hprotected, ?_⟩
  rw [encodeCoseSign1_eq, hprotected]
  dsimp only [Except.bind, sign1Parts]
  rw [toCbor_of_read hunprotected]
  exact encode_of_decode hdecode

/-- The protected bytes stand in the envelope behind the heads of the array and of the byte
string. -/
theorem protectedBytes_verbatim {protectedHeader unprotectedHeader : CoseHeader}
    {payload : Option (List UInt8)} {signature protectedBytes bytes : List UInt8}
    (hprotected : protectedHeader.encodeProtected = .ok protectedBytes)
    (h : encodeCoseSign1 protectedHeader unprotectedHeader payload signature = .ok bytes) :
    ∃ rest, bytes = writeTypeAndArgument 4 4 ++
      (writeTypeAndArgument 2 protectedBytes.length.toUInt64 ++ protectedBytes ++ rest) := by
  rw [encodeCoseSign1_eq, hprotected] at h
  dsimp only [Except.bind] at h
  obtain ⟨body, hbody, heq⟩ := bind_eq_ok.mp h
  obtain ⟨first, hfirst, hrest⟩ := bind_eq_ok.mp hbody
  obtain ⟨rest, -, hall⟩ := bind_eq_ok.mp hrest
  cases hfirst
  cases hall
  cases heq
  exact ⟨rest, rfl⟩

/-! ## Both directions -/

/-- **Encoding and decoding of COSE_Sign1.** Headers with distinct labels encode exactly when no
map inside their values repeats a key, and then they are decoded with their parameters in
canonical order, the maps inside the values sorted, and the same payload, signature and protected
bytes. What decodes is encoded back to the same bytes, where its protected bytes stand. -/
theorem coseSign1_roundTrip :
    (∀ (protectedHeader unprotectedHeader : CoseHeader) (payload : Option (List UInt8))
      (signature : FixedBytes 64), protectedHeader.Protectable → unprotectedHeader.Storable →
      protectedHeader.DistinctLabels → unprotectedHeader.DistinctLabels → PayloadFits payload →
        ((∃ bytes,
            encodeCoseSign1 protectedHeader unprotectedHeader payload signature.val = .ok bytes) ↔
          protectedHeader.DistinctKeys ∧ unprotectedHeader.DistinctKeys) ∧
        ∀ bytes,
          encodeCoseSign1 protectedHeader unprotectedHeader payload signature.val = .ok bytes →
            ∃ protectedBytes, protectedHeader.encodeProtected = .ok protectedBytes ∧
              decodeCoseSign1 bytes = .ok
                { protectedHeader := protectedHeader.decoded
                  protectedBytes := protectedBytes
                  unprotectedHeader := unprotectedHeader.decoded
                  payload := payload
                  signature := signature }) ∧
    ∀ (bytes : List UInt8) (cose : CoseSign1Decoded), decodeCoseSign1 bytes = .ok cose →
      encodeCoseSign1 cose.protectedHeader cose.unprotectedHeader cose.payload
          cose.signature.val = .ok bytes ∧
        cose.protectedHeader.encodeProtected = .ok cose.protectedBytes ∧
        ∃ rest, bytes = writeTypeAndArgument 4 4 ++
          (writeTypeAndArgument 2 cose.protectedBytes.length.toUInt64 ++
            cose.protectedBytes ++ rest) := by
  constructor
  · intro protectedHeader unprotectedHeader payload signature hprotected hunprotected
      hlabels hlabels' hpayload
    refine ⟨exists_encodeCoseSign1_iff_distinctKeys hprotected.toStorable hunprotected hlabels
      hlabels' payload signature.val, ?_⟩
    intro bytes h
    obtain ⟨protectedBytes, hbytes, hdecode, -⟩ :=
      decodeCoseSign1_encode hprotected hunprotected hpayload h
    exact ⟨protectedBytes, hbytes, hdecode⟩
  · intro bytes cose h
    obtain ⟨hprotected, hencode⟩ := encodeCoseSign1_of_decode h
    exact ⟨hencode, hprotected, protectedBytes_verbatim hprotected hencode⟩

/-! ## Maps inside a value -/

/-- Decoding the encoding gives back the parameters, in any order. -/
def ReadsBack (protectedHeader unprotectedHeader : CoseHeader) (payload : Option (List UInt8))
    (signature : FixedBytes 64) : Prop :=
  ∃ bytes cose,
    encodeCoseSign1 protectedHeader unprotectedHeader payload signature.val = .ok bytes ∧
      decodeCoseSign1 bytes = .ok cose ∧
      cose.protectedHeader.pairs.Perm protectedHeader.pairs ∧
      cose.unprotectedHeader.pairs.Perm unprotectedHeader.pairs ∧
      cose.payload = payload ∧ cose.signature = signature ∧
      protectedHeader.encodeProtected = .ok cose.protectedBytes

/-- One text label with a map of two entries as its value. -/
def nestedHeader (first second : UInt64) : CoseHeader :=
  CoseHeader.empty.withText "k" (.map [(.unsigned first, .null), (.unsigned second, .null)])

theorem nestedHeader_distinctLabels (first second : UInt64) :
    (nestedHeader first second).DistinctLabels :=
  List.nodup_singleton _

theorem nestedHeader_storable (first second : UInt64) : (nestedHeader first second).Storable where
  labels := CoseHeader.cborLabels_empty.withText "k" _
  fits := by
    refine .map (show 1 < 2 ^ 64 by decide) ?_ ?_
    · intro p hp
      exact List.mem_singleton.mp hp ▸ .text (by decide)
    · intro p hp
      refine List.mem_singleton.mp hp ▸ .map (by simp) ?_ ?_
      · intro q hq
        rcases List.mem_cons.mp hq with hq | hq
        · exact hq ▸ .unsigned _
        · exact List.mem_singleton.mp hq ▸ .unsigned _
      · intro q hq
        rcases List.mem_cons.mp hq with hq | hq
        · exact hq ▸ .null
        · exact List.mem_singleton.mp hq ▸ .null

theorem protectable_empty : CoseHeader.empty.Protectable where
  toStorable := storable_empty
  short := by
    intro b hb
    cases hb
    decide

/-- A value with a map that repeats a key has no encoding, and one whose map is not sorted comes
back changed. -/
theorem not_readsBack_nested :
    ((nestedHeader 1 1).DistinctLabels ∧
      ¬ ReadsBack CoseHeader.empty (nestedHeader 1 1) none testSignature) ∧
    ((nestedHeader 2 1).DistinctLabels ∧
      ¬ ReadsBack CoseHeader.empty (nestedHeader 2 1) none testSignature) := by
  refine ⟨⟨nestedHeader_distinctLabels 1 1, ?_⟩, nestedHeader_distinctLabels 2 1, ?_⟩
  · intro h
    obtain ⟨bytes, cose, hencode, -⟩ := h
    cases hencode
  · intro h
    obtain ⟨bytes, cose, hencode, hdecode, -, hunprotected, -⟩ := h
    obtain ⟨protectedBytes, -, hread, -⟩ := decodeCoseSign1_encode protectable_empty
      (nestedHeader_storable 2 1) payloadFits_none hencode
    rw [hread] at hdecode
    cases hdecode
    have hdecoded : (nestedHeader 2 1).decoded = nestedHeader 1 2 := rfl
    dsimp only at hunprotected
    rw [hdecoded] at hunprotected
    have hsame := List.singleton_perm_singleton.mp hunprotected
    cases hsame

theorem nestedHeader_distinctKeys : (nestedHeader 2 1).DistinctKeys := by
  intro entry hentry
  rw [← exists_encode_iff, List.mem_singleton.mp hentry]
  exact ⟨_, rfl⟩

/-- The envelope around the map in its canonical order. -/
def nestedEnvelope : List UInt8 :=
  [0x84, 0x40, 0xa1, 0x61, 0x6b, 0xa2, 0x01, 0xf6, 0x02, 0xf6, 0xf6, 0x58, 0x40] ++
    testSignature.val

/-- The header with the unsorted map encodes, and what its encoding decodes to encodes back. -/
theorem coseSign1_roundTrip_unsorted :
    (∃ bytes, encodeCoseSign1 CoseHeader.empty (nestedHeader 2 1) none testSignature.val =
      .ok bytes) ∧
    encodeCoseSign1 CoseHeader.empty (nestedHeader 1 2) none testSignature.val =
      .ok nestedEnvelope :=
  ⟨((coseSign1_roundTrip.1 CoseHeader.empty (nestedHeader 2 1) none testSignature
      protectable_empty (nestedHeader_storable 2 1) List.nodup_nil
      (nestedHeader_distinctLabels 2 1) payloadFits_none).1).mpr
        ⟨by simp [CoseHeader.DistinctKeys, CoseHeader.empty], nestedHeader_distinctKeys⟩,
    (coseSign1_roundTrip.2 nestedEnvelope
      ⟨CoseHeader.empty, [], nestedHeader 1 2, none, testSignature⟩ rfl).1⟩

end Label309
