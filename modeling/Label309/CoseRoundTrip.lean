import Label309.Cbor.SameBytes
import Label309.CoseBuild

/-!
# From the signer to the verifier

A built COSE_Sign1 decodes to headers with the same parameters, so the verifier finds the same
algorithm, the same key and the same mode. The signer has signed the full payload in either mode.
-/
namespace Label309
open ExceptBind SortByKey

/-! ## Labels -/

/-- A label of the CBOR range is read back from its key. -/
theorem fromCbor_toCbor {label : CoseLabel}
    (h : ∀ v, label = .int v → -2 ^ 64 ≤ v ∧ v < 2 ^ 64) :
    CoseLabel.fromCbor label.toCbor = some label := by
  cases label with
  | text s => rfl
  | int v =>
      obtain ⟨hlow, hhigh⟩ := h v rfl
      rw [CoseLabel.toCbor, cborIntFromI128]
      by_cases hv : 0 ≤ v
      · rw [if_pos hv, CoseLabel.fromCbor, UInt64.toNat_ofNat', Nat.mod_eq_of_lt (by omega),
          Int.toNat_of_nonneg hv]
      · rw [if_neg hv, CoseLabel.fromCbor, UInt64.toNat_ofNat', Nat.mod_eq_of_lt (by omega),
          Int.toNat_of_nonneg (by omega)]
        congr 2
        omega

@[simp] theorem sortMaps_toCbor (label : CoseLabel) : sortMaps label.toCbor = label.toCbor := by
  cases label with
  | text s => rfl
  | int v =>
      rw [CoseLabel.toCbor, cborIntFromI128]
      split <;> rfl

/-! ## Lookups -/

namespace CoseHeader

/-- A lookup in distinct labels is membership. -/
theorem get_eq_some_iff {header : CoseHeader} (h : (header.pairs.map Prod.fst).Nodup)
    {label : CoseLabel} {value : CborValue} :
    header.get label = some value ↔ (label, value) ∈ header.pairs := by
  rw [CoseHeader.get]
  generalize header.pairs = pairs at h ⊢
  induction pairs with
  | nil => simp
  | cons p rest ih =>
      obtain ⟨l, v⟩ := p
      rw [List.map_cons, List.nodup_cons] at h
      by_cases hl : l = label
      · subst hl
        rw [List.find?_cons_of_pos (by simp), Option.map_some, Option.some.injEq, List.mem_cons,
          Prod.mk.injEq]
        constructor
        · intro hv
          exact .inl ⟨rfl, hv.symm⟩
        · intro hmem
          cases hmem with
          | inl heq => exact heq.2.symm
          | inr hrest => exact absurd (List.mem_map_of_mem hrest) h.1
      · rw [List.find?_cons_of_neg (by simpa using hl), ih h.2, List.mem_cons, Prod.mk.injEq]
        constructor
        · exact .inr
        · intro hmem
          cases hmem with
          | inl heq => exact absurd heq.1.symm hl
          | inr hrest => exact hrest

/-- The header as it is decoded: its parameters in the order of their keys, every map in a
value sorted. -/
def decoded (header : CoseHeader) : CoseHeader :=
  ⟨(sortBy compareEncodedKeys (fun p => encodedKey p.1.toCbor) header.pairs).map fun p =>
    (p.1, sortMaps p.2)⟩

theorem perm_decoded (header : CoseHeader) :
    header.decoded.pairs.Perm (header.pairs.map fun p => (p.1, sortMaps p.2)) :=
  (perm_sortBy _).map _

/-- Decoding changes a parameter only inside. -/
theorem get_decoded {header : CoseHeader} (h : (header.pairs.map Prod.fst).Nodup)
    (label : CoseLabel) : header.decoded.get label = (header.get label).map sortMaps := by
  have hperm := perm_decoded header
  have hkeys : (header.decoded.pairs.map Prod.fst).Nodup := by
    rw [(hperm.map Prod.fst).nodup_iff, List.map_map]
    exact h
  apply Option.ext
  intro value
  rw [get_eq_some_iff hkeys, hperm.mem_iff, List.mem_map, Option.map_eq_some_iff]
  constructor
  · intro hmem
    obtain ⟨p, hp, heq⟩ := hmem
    cases heq
    exact ⟨p.2, (get_eq_some_iff h).mpr hp, rfl⟩
  · intro hget
    obtain ⟨v, hv, hf⟩ := hget
    exact ⟨(label, v), (get_eq_some_iff h).mp hv, by rw [hf]⟩

theorem isEmpty_decoded (header : CoseHeader) : header.decoded.isEmpty = header.isEmpty := by
  have hlength := (perm_decoded header).length_eq
  rw [List.length_map] at hlength
  rw [CoseHeader.isEmpty, CoseHeader.isEmpty, Bool.eq_iff_iff, List.isEmpty_iff, List.isEmpty_iff,
    ← List.length_eq_zero_iff, ← List.length_eq_zero_iff, hlength]

end CoseHeader

/-! ## Encoded headers -/

/-- A header that its encoding fits: the labels are in the range of CBOR, and every length is
one of a 64-bit word. -/
structure CoseHeader.Storable (header : CoseHeader) : Prop where
  labels : header.CborLabels
  fits : LengthsFit header.toCbor

theorem sortMaps_header (header : CoseHeader) :
    sortMaps header.toCbor = header.decoded.toCbor := by
  rw [CoseHeader.toCbor, CoseHeader.toCbor, sortMaps_map, List.map_map,
    CoseHeader.decoded, List.map_map, sortEntries]
  congr 1
  have hmap : (sortMapsEntry ∘ fun p : CoseLabel × CborValue => (p.1.toCbor, p.2)) =
      fun p => (p.1.toCbor, sortMaps p.2) := by
    funext p
    simp [sortMapsEntry]
  rw [hmap]
  exact (map_sortBy _ fun _ _ => rfl).symm

theorem fromCborMap_decoded {header : CoseHeader} (h : header.CborLabels) :
    CoseHeader.fromCborMap header.decoded.toCbor = some header.decoded := by
  rw [CoseHeader.toCbor, fromCborMap_eq_some_iff, List.forall₂_map_left_iff, List.forall₂_same]
  intro p hp
  obtain ⟨q, hq, heq⟩ := List.mem_map.mp ((CoseHeader.perm_decoded header).mem_iff.mp hp)
  refine ⟨?_, rfl⟩
  rw [← heq]
  exact fromCbor_toCbor (h q hq)

/-- A header that encodes repeats no label. -/
theorem nodup_labels_of_encodes {header : CoseHeader} {b : List UInt8}
    (h : encodeCanonicalCbor header.toCbor = .ok b) : (header.pairs.map Prod.fst).Nodup := by
  have hkeys := nodup_keys_of_encodes h
  rw [List.map_map] at hkeys
  have hcomp : (Prod.fst ∘ fun p : CoseLabel × CborValue => (p.1.toCbor, p.2)) =
      CoseLabel.toCbor ∘ Prod.fst := rfl
  rw [hcomp, ← List.map_map] at hkeys
  exact hkeys.of_map

/-! ## The envelope -/

/-- A header whose protected slot is shorter than a 64-bit word counts. -/
structure CoseHeader.Protectable (header : CoseHeader) : Prop extends header.Storable where
  short : ∀ b, header.encodeProtected = .ok b → b.length < 2 ^ 64

theorem decodeProtected_encodeProtected {header : CoseHeader} (h : header.Storable)
    {protectedBytes : List UInt8} (hencode : header.encodeProtected = .ok protectedBytes) :
    decodeProtected protectedBytes = .ok header.decoded ∧
      (header.pairs.map Prod.fst).Nodup := by
  rw [CoseHeader.encodeProtected] at hencode
  split_ifs at hencode with hempty
  · cases hencode
    have hpairs : header.pairs = [] := List.isEmpty_iff.mp hempty
    constructor
    · have hdecoded : header.decoded = .empty := by
        rw [CoseHeader.decoded, hpairs]
        rfl
      rw [hdecoded]
      rfl
    · rw [hpairs]
      exact List.nodup_nil
  · have hdecode := decode_of_encode h.fits hencode
    rw [sortMaps_header] at hdecode
    have hne : protectedBytes.isEmpty = false := by
      cases protectedBytes with
      | nil =>
          rw [decode_nil] at hdecode
          cases hdecode
      | cons b bs => rfl
    have hnonempty : header.decoded.isEmpty = false := by
      rw [CoseHeader.isEmpty_decoded]
      exact Bool.eq_false_iff.mpr hempty
    refine ⟨?_, nodup_labels_of_encodes hencode⟩
    rw [decodeProtected, hne, hdecode]
    simp [fromCborMap_decoded h.labels, hnonempty]

/-- The four parts that the encoder writes. -/
def sign1Parts (protectedBytes : List UInt8) (unprotectedHeader : CoseHeader)
    (payload : Option (List UInt8)) (signature : List UInt8) : List CborValue :=
  [.bytes protectedBytes, unprotectedHeader.toCbor, payloadCbor payload, .bytes signature]

theorem encodeCoseSign1_eq (protectedHeader unprotectedHeader : CoseHeader)
    (payload : Option (List UInt8)) (signature : List UInt8) :
    encodeCoseSign1 protectedHeader unprotectedHeader payload signature =
      protectedHeader.encodeProtected.bind fun protectedBytes =>
        encodeCanonicalCbor
          (.array (sign1Parts protectedBytes unprotectedHeader payload signature)) := by
  cases payload <;> rfl

/-- The envelope encodes when both headers do. -/
theorem exists_encodeCoseSign1_iff {protectedHeader unprotectedHeader : CoseHeader}
    {payload : Option (List UInt8)} {signature protectedBytes : List UInt8}
    (hbytes : protectedHeader.encodeProtected = .ok protectedBytes) :
    (∃ bytes, encodeCoseSign1 protectedHeader unprotectedHeader payload signature = .ok bytes) ↔
      ∃ b, encodeCanonicalCbor unprotectedHeader.toCbor = .ok b := by
  have harray : (∃ bytes,
      encodeCoseSign1 protectedHeader unprotectedHeader payload signature = .ok bytes) ↔
        ∃ b, writeItems (sign1Parts protectedBytes unprotectedHeader payload signature) =
          .ok b := by
    rw [encodeCoseSign1_eq, hbytes]
    dsimp only [Except.bind]
    constructor
    · intro h
      obtain ⟨bytes, h⟩ := h
      obtain ⟨b, hb, -⟩ := bind_eq_ok.mp h
      exact ⟨b, hb⟩
    · intro h
      obtain ⟨b, hb⟩ := h
      exact ⟨_, bind_eq_ok.mpr ⟨b, hb, rfl⟩⟩
  rw [harray, exists_writeItems_iff]
  constructor
  · intro h
    exact h _ (by simp [sign1Parts])
  · intro h v hv
    simp only [sign1Parts, List.mem_cons, List.not_mem_nil, or_false] at hv
    rcases hv with hv | hv | hv | hv
    · exact ⟨_, by rw [hv]; rfl⟩
    · exact hv ▸ h
    · cases payload <;> exact ⟨_, by rw [hv]; rfl⟩
    · exact ⟨_, by rw [hv]; rfl⟩

/-- A payload whose length is one of a 64-bit word. -/
def PayloadFits (payload : Option (List UInt8)) : Prop := ∀ b ∈ payload, b.length < 2 ^ 64

theorem payloadFits_none : PayloadFits none := by
  intro b hb
  cases hb

theorem lengthsFit_sign1Parts {protectedBytes : List UInt8} {unprotectedHeader : CoseHeader}
    {payload : Option (List UInt8)} (signature : FixedBytes 64)
    (hbytes : protectedBytes.length < 2 ^ 64) (hunprotected : unprotectedHeader.Storable)
    (hpayload : PayloadFits payload) :
    LengthsFit (.array (sign1Parts protectedBytes unprotectedHeader payload signature.val)) := by
  refine .array (by simp [sign1Parts]) ?_
  intro v hv
  simp only [sign1Parts, List.mem_cons, List.not_mem_nil, or_false] at hv
  rcases hv with hv | hv | hv | hv
  · exact hv ▸ .bytes hbytes
  · exact hv ▸ hunprotected.fits
  · cases payload with
    | none => exact hv ▸ .null
    | some b => exact hv ▸ .bytes (hpayload b rfl)
  · exact hv ▸ .bytes (by rw [signature.property]; decide)

/-- What is decoded of an encoded envelope. -/
theorem decodeCoseSign1_encode {protectedHeader unprotectedHeader : CoseHeader}
    (hprotected : protectedHeader.Protectable) (hunprotected : unprotectedHeader.Storable)
    {payload : Option (List UInt8)} (hpayload : PayloadFits payload)
    {signature : FixedBytes 64} {bytes : List UInt8}
    (h : encodeCoseSign1 protectedHeader unprotectedHeader payload signature.val = .ok bytes) :
    ∃ protectedBytes, protectedHeader.encodeProtected = .ok protectedBytes ∧
      decodeCoseSign1 bytes = .ok
        { protectedHeader := protectedHeader.decoded
          protectedBytes := protectedBytes
          unprotectedHeader := unprotectedHeader.decoded
          payload := payload
          signature := signature } ∧
      (protectedHeader.pairs.map Prod.fst).Nodup ∧
      (unprotectedHeader.pairs.map Prod.fst).Nodup := by
  rw [encodeCoseSign1_eq] at h
  obtain ⟨protectedBytes, hbytes, hencode⟩ := bind_eq_ok.mp h
  have hfits := lengthsFit_sign1Parts signature (hprotected.short _ hbytes) hunprotected hpayload
  have hdecode := decode_of_encode hfits hencode
  have hsorted : sortMaps (payloadCbor payload) = payloadCbor payload := by
    cases payload <;> rfl
  rw [sortMaps] at hdecode
  simp only [sign1Parts, sortMapsItems, sortMaps_header, sortMaps, hsorted] at hdecode
  obtain ⟨hread, hnodup⟩ := decodeProtected_encodeProtected hprotected.toStorable hbytes
  obtain ⟨encodedUnprotected, hencodedUnprotected⟩ :=
    (exists_encodeCoseSign1_iff hbytes).mp ⟨bytes, (encodeCoseSign1_eq ..).trans h⟩
  refine ⟨protectedBytes, hbytes, ?_, hnodup, nodup_labels_of_encodes hencodedUnprotected⟩
  have hsignature : decodeSignature (.bytes signature.val) = .ok signature :=
    decodeSignature_eq_ok_iff.mpr rfl
  have hread' : decodePayload (payloadCbor payload) = .ok payload :=
    decodePayload_eq_ok_iff.mpr rfl
  simp only [decodeCoseSign1, hdecode, decodeSign1Parts, fromCborMap_decoded hunprotected.labels,
    hread', hsignature, hread, ok_bind]

/-! ## Verification of what was built -/

theorem alg_decoded {header : CoseHeader} (h : (header.pairs.map Prod.fst).Nodup)
    (halg : header.alg = some coseAlgEddsa) : header.decoded.alg = some coseAlgEddsa := by
  rw [CoseHeader.alg, coseAlgEddsa, cborIntValue_eq_neg_eight_iff, CoseHeader.getInt] at halg ⊢
  rw [CoseHeader.get_decoded h, halg]
  rfl

theorem kid_decoded {header : CoseHeader} (h : (header.pairs.map Prod.fst).Nodup)
    {key : FixedBytes 32} (hkid : header.kid = some key) : header.decoded.kid = some key := by
  rw [CoseHeader.kid, cborFixedBytes_eq_some_iff, CoseHeader.getInt] at hkid ⊢
  rw [CoseHeader.get_decoded h, hkid]
  rfl

theorem hashedMode_decoded {header : CoseHeader} (h : (header.pairs.map Prod.fst).Nodup) :
    hashedMode header.decoded = hashedMode header := by
  rw [hashedMode, hashedMode, CoseHeader.getText, CoseHeader.getText, CoseHeader.get_decoded h]
  cases header.get (.text "hashed") with
  | none => rfl
  | some v => cases v <;> rfl

/-- The expected key of a verification agrees with the key of the protected header: none, one of
another length, or the same. -/
def ExpectsNoOther (key : FixedBytes 32) (expected : Option (List UInt8)) : Prop :=
  ∀ k, expected.bind (toFixed 32) = some k → k = key

theorem resolveVerifyKey_of_expects {key : FixedBytes 32} {expected : Option (List UInt8)}
    (h : ExpectsNoOther key expected) :
    resolveVerifyKey (some key) (expected.bind (toFixed 32)) = some key := by
  rw [ExpectsNoOther] at h
  cases hexpected : expected.bind (toFixed 32) with
  | none => rfl
  | some k =>
      rw [h k hexpected]
      exact if_pos rfl

section Verify
variable {crypto : SignaturePrimitives} {protectedHeader unprotectedHeader : CoseHeader}
  {signature : FixedBytes 64} {bytes body : List UInt8} {key : FixedBytes 32}
  {expected : Option (List UInt8)}

/-- The verifier checks the signature of a built envelope over the structure in the mode that
the unprotected header selects. -/
theorem verify_encode (hprotected : protectedHeader.Protectable)
    (hunprotected : unprotectedHeader.Storable) (halg : protectedHeader.alg = some coseAlgEddsa)
    (hkid : protectedHeader.kid = some key) (hexpected : ExpectsNoOther key expected)
    (h : encodeCoseSign1 protectedHeader unprotectedHeader none signature.val = .ok bytes) :
    ∃ protectedBytes, protectedHeader.encodeProtected = .ok protectedBytes ∧
      coseSign1Label309Verify crypto bytes body expected =
        if crypto.verifyStrict key (signedStructure crypto (hashedMode unprotectedHeader)
            protectedBytes body) signature then .ok key coseAlgEddsa
        else .err .signatureInvalid := by
  obtain ⟨protectedBytes, hbytes, hdecode, hnodup, hnodup'⟩ :=
    decodeCoseSign1_encode hprotected hunprotected payloadFits_none h
  refine ⟨protectedBytes, hbytes, ?_⟩
  have halg' := alg_decoded hnodup halg
  have hkid' := kid_decoded hnodup hkid
  have hverify : ∀ m, ed25519Verify crypto key.val m signature.val =
      crypto.verifyStrict key m signature := by
    intro m
    rw [ed25519Verify, toFixed_val, toFixed_val]
  rw [coseSign1Label309Verify, hdecode]
  simp only [Option.isSome_none, Bool.false_eq_true, if_false, halg', ne_eq, not_true_eq_false,
    hkid', resolveVerifyKey_of_expects hexpected, hashedMode_decoded hnodup', hverify]

end Verify

/-! ## What the signer builds -/

section Build
variable (crypto : SignaturePrimitives) (keys : SigningPrimitives) (seed : FixedBytes 32)
  (protectedHeader unprotectedHeader : CoseHeader) (body : List UInt8)

/-- A successful build with this seed is accepted by the verifier under the key of the seed, and
the envelope assembled around the same signature is the same bytes. -/
structure BuildAccepted : Prop where
  verifies : ∀ bytes,
    coseSign1Label309Build keys protectedHeader unprotectedHeader body (.seed seed) = .ok bytes →
      ∀ expected, ExpectsNoOther (keys.publicKey seed) expected →
        coseSign1Label309Verify crypto bytes body expected =
          .ok (keys.publicKey seed) coseAlgEddsa
  assembles : ∀ prepared,
    coseSign1Label309Prepare protectedHeader unprotectedHeader body = .ok prepared →
      coseSign1Label309Assemble prepared (keys.sign seed prepared.sigStructure).val =
        coseSign1Label309Build keys protectedHeader unprotectedHeader body (.seed seed)

theorem asBuildError_eq_ok {α : Type} {x : Except CanonicalCborError α} {a : α} :
    asBuildError x = .ok a ↔ x = .ok a := by
  cases x <;> simp [asBuildError]

theorem build_seed_eq_ok {bytes : List UInt8} :
    coseSign1Label309Build keys protectedHeader unprotectedHeader body (.seed seed) = .ok bytes ↔
      ∃ protectedBytes, protectedHeader.encodeProtected = .ok protectedBytes ∧
        encodeCoseSign1 protectedHeader unprotectedHeader none (keys.sign seed
          (buildLabel309SigStructure protectedBytes body)).val = .ok bytes := by
  simp only [coseSign1Label309Build, bind_eq_ok, asBuildError_eq_ok, Label309Signer.signature,
    Except.ok.injEq, exists_eq_left']

theorem assemble_prepared {prepared : Label309Prepared}
    (h : coseSign1Label309Prepare protectedHeader unprotectedHeader body = .ok prepared) :
    coseSign1Label309Assemble prepared (keys.sign seed prepared.sigStructure).val =
      coseSign1Label309Build keys protectedHeader unprotectedHeader body (.seed seed) := by
  obtain ⟨protectedBytes, hbytes, hprepared⟩ := bind_eq_ok.mp h
  cases hprepared
  have hlength := (keys.sign seed (buildLabel309SigStructure protectedBytes body)).property
  rw [coseSign1Label309Assemble, coseSign1Label309Build, hbytes]
  exact if_neg (not_not_intro hlength)

/-- **What the signer builds is accepted unless it is marked as hashed.** The exact condition:
whenever the unprotected header selects the hashed mode and both headers encode, the signature
over the full payload also verifies over its digest. -/
theorem buildAccepted_iff (hlaw : keys.Lawful crypto) (hprotected : protectedHeader.Protectable)
    (hunprotected : unprotectedHeader.Storable) (halg : protectedHeader.alg = some coseAlgEddsa)
    (hkid : protectedHeader.kid = some (keys.publicKey seed)) :
    BuildAccepted crypto keys seed protectedHeader unprotectedHeader body ↔
      (hashedMode unprotectedHeader = true →
        ∀ protectedBytes, protectedHeader.encodeProtected = .ok protectedBytes →
          (∃ b, encodeCanonicalCbor unprotectedHeader.toCbor = .ok b) →
            crypto.verifyStrict (keys.publicKey seed)
              (signedStructure crypto true protectedBytes body)
              (keys.sign seed (buildLabel309SigStructure protectedBytes body)) = true) := by
  constructor
  · intro h hhashed protectedBytes hbytes hencodes
    obtain ⟨bytes, hbuilt⟩ := (@exists_encodeCoseSign1_iff _ _ none (keys.sign seed
      (buildLabel309SigStructure protectedBytes body)).val _ hbytes).mpr hencodes
    have hnone : ExpectsNoOther (keys.publicKey seed) none := by
      intro k hk
      cases hk
    have haccepted := h.verifies bytes ((build_seed_eq_ok keys seed protectedHeader
      unprotectedHeader body).mpr ⟨protectedBytes, hbytes, hbuilt⟩) none hnone
    obtain ⟨protectedBytes', hbytes', hverify⟩ := @verify_encode crypto _ _ _ _ body _ _
      hprotected hunprotected halg hkid hnone hbuilt
    rw [hbytes, Except.ok.injEq] at hbytes'
    subst hbytes'
    rw [haccepted, hhashed] at hverify
    by_contra hnot
    rw [if_neg hnot] at hverify
    cases hverify
  · intro h
    refine ⟨?_, fun prepared => assemble_prepared keys seed protectedHeader unprotectedHeader body⟩
    intro bytes hbuild expected hexpected
    obtain ⟨protectedBytes, hbytes, hbuilt⟩ := (build_seed_eq_ok keys seed protectedHeader
      unprotectedHeader body).mp hbuild
    obtain ⟨protectedBytes', hbytes', hverify⟩ := @verify_encode crypto _ _ _ _ body _ _
      hprotected hunprotected halg hkid hexpected hbuilt
    rw [hbytes, Except.ok.injEq] at hbytes'
    subst hbytes'
    rw [hverify]
    apply if_pos
    cases hhashed : hashedMode unprotectedHeader with
    | false => exact hlaw seed _
    | true =>
        exact h hhashed protectedBytes hbytes ((exists_encodeCoseSign1_iff hbytes).mp ⟨_, hbuilt⟩)

end Build

/-! ## A signature in hashed mode -/

def testSeed : FixedBytes 32 :=
  ⟨[0x9d, 0x61, 0xb1, 0x9d, 0xef, 0xfd, 0x5a, 0x60, 0xba, 0x84, 0x4a, 0xf4, 0x92, 0xec, 0x2c,
      0xc4, 0x44, 0x49, 0xc5, 0x69, 0x7b, 0x32, 0x69, 0x19, 0x70, 0x3b, 0xac, 0x03, 0x1c, 0xae,
      0x7f, 0x60], rfl⟩

def testKey : FixedBytes 32 :=
  ⟨[0xd7, 0x5a, 0x98, 0x01, 0x82, 0xb1, 0x0a, 0xb7, 0xd5, 0x4b, 0xfe, 0xd3, 0xc9, 0x64, 0x07,
      0x3a, 0x0e, 0xe1, 0x72, 0xf3, 0xda, 0xa6, 0x23, 0x25, 0xaf, 0x02, 0x1a, 0x68, 0xf7, 0x07,
      0x51, 0x1a], rfl⟩

/-- The signature over the full payload. -/
def testSignature : FixedBytes 64 :=
  ⟨[0xef, 0xaa, 0xf9, 0xf8, 0xdb, 0x28, 0x13, 0x0e, 0xdd, 0x4c, 0x47, 0xd2, 0xb4, 0x8f, 0x19,
      0x32, 0x5f, 0x10, 0x95, 0xcc, 0xf6, 0x78, 0xbe, 0x54, 0x3a, 0x8d, 0x6d, 0x9d, 0x29, 0x1c,
      0x60, 0xe3, 0x42, 0x3f, 0xdb, 0x21, 0xa1, 0xfa, 0xbd, 0x64, 0x65, 0x33, 0x61, 0x6f, 0xaa,
      0x84, 0x32, 0xa6, 0xa0, 0xbe, 0x8b, 0x6d, 0x78, 0x87, 0x13, 0xf5, 0x2e, 0xd5, 0xa6, 0x96,
      0x8c, 0xf4, 0xca, 0x0a], rfl⟩

/-- The signature over its digest. -/
def testHashedSignature : FixedBytes 64 :=
  ⟨[0x44, 0x8b, 0xc6, 0x4d, 0x3c, 0xf1, 0x0c, 0x96, 0x59, 0x18, 0x32, 0x32, 0xee, 0xa8, 0x3f,
      0x27, 0x93, 0xcb, 0x54, 0xc6, 0x32, 0x4e, 0x23, 0x1d, 0x11, 0x68, 0x30, 0x35, 0x1c, 0x02,
      0x3f, 0xcf, 0x9c, 0xb6, 0x97, 0x21, 0x95, 0x4f, 0xe9, 0xa6, 0xab, 0x2f, 0xe6, 0xd3, 0x0a,
      0xe9, 0xaf, 0x8a, 0x8d, 0xa7, 0xf7, 0xbf, 0x8b, 0x58, 0x3b, 0xaa, 0x17, 0x47, 0xb4, 0x55,
      0xf5, 0x6c, 0xf5, 0x01], rfl⟩

def testDigest : FixedBytes 28 :=
  ⟨[0x7e, 0xfe, 0xd7, 0x4b, 0xbf, 0x12, 0xf5, 0x05, 0xdb, 0x25, 0x3b, 0x98, 0x98, 0x44, 0x2a,
      0x06, 0xfb, 0x3b, 0x27, 0xcf, 0xbf, 0xa9, 0xc2, 0xab, 0x49, 0x1e, 0xcd, 0x83], rfl⟩

/-- The body of a record with one item. -/
def testBody : List UInt8 :=
  [0xa2, 0x61, 0x76, 0x01, 0x65, 0x69, 0x74, 0x65, 0x6d, 0x73, 0x81, 0xa1, 0x66, 0x68, 0x61, 0x73,
      0x68, 0x65, 0x73, 0xa1, 0x68, 0x73, 0x68, 0x61, 0x32, 0x2d, 0x32, 0x35, 0x36, 0x58, 0x20] ++
    List.replicate 32 0

/-- EdDSA and the key. -/
def testHeader : CoseHeader :=
  (CoseHeader.empty.withInt 1 (.negative 7)).withInt 4 (.bytes testKey.val)

def testProtectedBytes : List UInt8 := [0xa2, 0x01, 0x27, 0x04, 0x58, 0x20] ++ testKey.val

def hashedHeader : CoseHeader := CoseHeader.empty.withText "hashed" (.bool true)

/-- The signatures of the key on the two structures, and one that is none on anything else. -/
def testSign (key : FixedBytes 32) (message : List UInt8) : FixedBytes 64 :=
  if key = testKey ∧ message = buildLabel309SigStructure testProtectedBytes testBody then
    testSignature
  else if key = testKey ∧ message = buildSigStructure testProtectedBytes [] testDigest.val then
    testHashedSignature
  else ⟨List.replicate 64 0, List.length_replicate⟩

def testKeys : SigningPrimitives where
  publicKey seed := if seed = testSeed then testKey else seed
  sign seed message := testSign (if seed = testSeed then testKey else seed) message

def testCrypto : SignaturePrimitives where
  verifyStrict key message signature := decide (signature = testSign key message)
  blake2b224 _ := testDigest

theorem testKeys_lawful : testKeys.Lawful testCrypto := by
  intro seed message
  exact decide_eq_true rfl

theorem testHeader_protectable : testHeader.Protectable where
  labels := ((CoseHeader.cborLabels_empty.withInt (by omega) (by omega) _).withInt (by omega)
    (by omega) _)
  fits := by
    refine .map (by decide) ?_ ?_
    · intro p hp
      rcases List.mem_cons.mp hp with hp | hp
      · exact hp ▸ .unsigned _
      · exact List.mem_singleton.mp hp ▸ .unsigned _
    · intro p hp
      rcases List.mem_cons.mp hp with hp | hp
      · exact hp ▸ .negative _
      · exact List.mem_singleton.mp hp ▸ .bytes (by decide)
  short := by
    intro b hb
    have hbytes : testHeader.encodeProtected = .ok testProtectedBytes := rfl
    rw [hbytes] at hb
    cases hb
    decide

/-- The envelope around the signature over the full payload, marked as hashed. -/
def hashedEnvelope : List UInt8 :=
  [0x84, 0x58, 0x26] ++ testProtectedBytes ++
    [0xa1, 0x66, 0x68, 0x61, 0x73, 0x68, 0x65, 0x64, 0xf5, 0xf6, 0x58, 0x40] ++ testSignature.val

set_option maxRecDepth 4000 in
/-- The signer takes an unprotected `"hashed": true` and signs the full payload, which the
verifier refuses. -/
theorem not_buildAccepted_hashed :
    testKeys.Lawful testCrypto ∧
      ¬ BuildAccepted testCrypto testKeys testSeed testHeader hashedHeader testBody := by
  refine ⟨testKeys_lawful, ?_⟩
  intro h
  have hbuild : coseSign1Label309Build testKeys testHeader hashedHeader testBody
      (.seed testSeed) = .ok hashedEnvelope := rfl
  have hverify : coseSign1Label309Verify testCrypto hashedEnvelope testBody none =
      .err .signatureInvalid := rfl
  have haccepted := h.verifies hashedEnvelope hbuild none (by
    intro k hk
    cases hk)
  rw [hverify] at haccepted
  cases haccepted

theorem storable_empty : CoseHeader.empty.Storable where
  labels := CoseHeader.cborLabels_empty
  fits := .map (by decide) (by simp [CoseHeader.empty]) (by simp [CoseHeader.empty])

/-- With an empty unprotected header what the signer builds is accepted. -/
theorem buildAccepted_plain :
    BuildAccepted testCrypto testKeys testSeed testHeader CoseHeader.empty testBody :=
  (buildAccepted_iff testCrypto testKeys testSeed testHeader CoseHeader.empty testBody
    testKeys_lawful testHeader_protectable storable_empty rfl rfl).mpr fun h =>
      absurd h (by decide)

end Label309
