import Label309.Client.Publish
import Label309.PoeStandard.Produced
import Label309.SealedPoe.TranscriptInjectivity
import Label309.SealedPoe.WrapUnwrap

/-!
# The records of the helpers

What a helper puts into a record conforms, except for two bounds that no helper checks: the size of
the envelope and the number of leaves.
-/
namespace Label309
open ExceptBind

/-! ## The uri of an upload -/

/-- `ar://` and 43 base64url characters. -/
def IsArUri (uri : String) : Prop := ∃ txid, uri = "ar://" ++ txid ∧ isArweaveTxid (utf8Bytes txid)

theorem utf8Bytes_append (s t : String) : utf8Bytes (s ++ t) = utf8Bytes s ++ utf8Bytes t := by
  simp [utf8Bytes]

/-- The separator comes after the scheme. -/
theorem findSubslice_ar (txid : List UInt8) :
    findSubslice ([97, 114, 58, 47, 47] ++ txid) (utf8Bytes "://") = some 2 := by
  have hneedle : utf8Bytes "://" = [58, 47, 47] := by decide
  have hlong : ¬ ([97, 114, 58, 47, 47] ++ txid).length < ([58, 47, 47] : List UInt8).length := by simp
  have hrange : ([97, 114, 58, 47, 47] ++ txid).length - ([58, 47, 47] : List UInt8).length + 1 =
      txid.length + 3 := by simp
  rw [findSubslice, hneedle, List.isEmpty_cons, Bool.false_or, decide_eq_false hlong,
    if_neg Bool.false_ne_true, hrange, List.range_succ_eq_map, List.range_succ_eq_map,
    List.range_succ_eq_map]
  rfl

theorem checkOneUri_of_bytes {uri : String} {txid : List UInt8}
    (hbytes : utf8Bytes uri = [97, 114, 58, 47, 47] ++ txid) (htxid : isArweaveTxid txid = true) :
    checkOneUri uri = none := by
  have hfragment : ([97, 114, 58, 47, 47] ++ txid).contains (35 : UInt8) = false := by
    rw [isArweaveTxid, Bool.and_eq_true, List.all_eq_true] at htxid
    rw [Bool.eq_false_iff, ne_eq, List.contains_iff_mem]
    intro hmem
    rcases List.mem_append.mp hmem with hmem | hmem
    · exact absurd hmem (by decide)
    · exact absurd (htxid.2 35 hmem) (by decide)
  have hscheme : ([97, 114, 58, 47, 47] ++ txid).take 2 = utf8Bytes "ar" := by
    have har : utf8Bytes "ar" = [97, 114] := by decide
    rw [har]
    rfl
  have hsyntax : isUriScheme (utf8Bytes "ar") = true := by decide
  have hlower : (utf8Bytes "ar").map toAsciiLowercase = utf8Bytes "ar" := by decide
  have hrest : ([97, 114, 58, 47, 47] ++ txid).drop (2 + 3) = txid := rfl
  rw [checkOneUri.eq_def]
  dsimp only
  rw [hbytes, hfragment, if_neg Bool.false_ne_true, findSubslice_ar]
  dsimp only
  rw [hscheme, hsyntax, hlower, hrest, if_neg (by decide), if_pos rfl, if_pos htxid]

theorem IsArUri.checkOneUri {uri : String} (h : IsArUri uri) : checkOneUri uri = none := by
  obtain ⟨txid, huri, htxid⟩ := h
  have hscheme : utf8Bytes "ar://" = [97, 114, 58, 47, 47] := by decide
  exact checkOneUri_of_bytes (by rw [huri, utf8Bytes_append, hscheme]) htxid

theorem IsArUri.length {uri : String} (h : IsArUri uri) : (utf8Bytes uri).length = 48 := by
  obtain ⟨txid, huri, htxid⟩ := h
  rw [isArweaveTxid, Bool.and_eq_true, beq_iff_eq] at htxid
  have hscheme : (utf8Bytes "ar://").length = 5 := by decide
  rw [huri, utf8Bytes_append, List.length_append, htxid.1, hscheme]

theorem IsArUri.urisConform {uri : String} (h : IsArUri uri) : UrisConform (some [uri]) := by
  intro us hus
  cases hus
  refine ⟨List.cons_ne_nil _ _, ?_⟩
  intro u hu
  rw [List.mem_singleton.mp hu]
  exact h.checkOneUri

/-! ## Digests -/

theorem SupportedHashAlg.registered (alg : SupportedHashAlg) :
    alg.asStr ∈ ["sha2-256", "blake2b-256"] := by
  cases alg with
  | sha2_256 => decide
  | blake2b256 => decide

theorem hashesConform_contentHash (lib : PublishLibrary) (content : List UInt8)
    (hashAlg : Option SupportedHashAlg) : HashesConform [contentHash lib content hashAlg] where
  nonempty := List.cons_ne_nil _ _
  registered := by
    intro entry hentry
    rw [List.mem_singleton.mp hentry]
    refine ⟨SupportedHashAlg.registered _, ?_⟩
    unfold contentHash hashContent
    cases hashAlg.getD .sha2_256 with
    | sha2_256 => exact (lib.crypto.sha256 content).property
    | blake2b256 => exact (lib.blake2b256 content).property

theorem hashesConform_prehashedEntries {hashes : List (SupportedHashAlg × String)}
    {entries : List (String × List UInt8)} (h : prehashedEntries hashes = .ok entries) :
    HashesConform entries := by
  rw [prehashedEntries] at h
  by_cases hempty : (hashes.filter fun entry => !entry.2.isEmpty).isEmpty = true
  · rw [if_pos hempty] at h
    cases h
  · rw [if_neg hempty] at h
    have hentries := mapM_eq_ok_iff.mp h
    constructor
    · intro hnil
      rw [hnil] at hentries
      rw [List.forall₂_nil_right_iff.mp hentries] at hempty
      exact hempty rfl
    · intro entry hentry
      obtain ⟨given, -, hread⟩ := exists_left_of_forall₂ hentries hentry
      rw [prehashedEntry] at hread
      cases hdecode : hexDecode given.2 with
      | error e =>
          rw [hdecode] at hread
          cases hread
      | ok bytes =>
          rw [hdecode] at hread
          dsimp only at hread
          by_cases hlength : bytes.length = digestByteLength
          · rw [if_neg (not_not_intro hlength)] at hread
            cases hread
            exact ⟨given.1.registered, hlength⟩
          · rw [if_pos hlength] at hread
            cases hread

/-! ## Envelopes -/

namespace SealedKem

/-- The slot field of the KEM. -/
def slotField : SealedKem → String
  | .x25519 => "epk"
  | .mlkem768X25519 => "kem_ct"

def materialLength : SealedKem → ℕ
  | .x25519 => 32
  | .mlkem768X25519 => 1120

/-- The length of an encoded slot. -/
def slotLength : SealedKem → ℕ
  | .x25519 => 94
  | .mlkem768X25519 => 1186

/-- The length of an encoded envelope for as many recipients. -/
def envelopeLength (kem : SealedKem) (n : ℕ) : ℕ :=
  kem.asStr.length + 130 + headLength n.toUInt64 + n * kem.slotLength

/-- The most recipients of a record that a validator accepts. -/
def maxRecorded : SealedKem → ℕ
  | .x25519 => 695
  | .mlkem768X25519 => 55

theorem mem_kemRegistry (kem : SealedKem) :
    (kem.asStr, kem.slotField, kem.materialLength) ∈ kemRegistry := by
  cases kem with
  | x25519 => decide
  | mlkem768X25519 => decide

theorem envelopeLength_le_iff {kem : SealedKem} {n : ℕ} :
    kem.envelopeLength n ≤ ValidatorOptions.default.maxEncEnvelopeBytes ↔ n ≤ kem.maxRecorded := by
  have hlow : 1 ≤ headLength n.toUInt64 := by
    unfold headLength
    split_ifs <;> omega
  have hhead : n ≤ 0xFFFF → headLength n.toUInt64 ≤ 3 := by
    intro hn
    have hnat : n.toUInt64.toNat = n := by
      rw [Nat.toUInt64, UInt64.toNat_ofNat', Nat.mod_eq_of_lt (by omega)]
    have hword : n.toUInt64 ≤ 0xFFFF := by
      rw [UInt64.le_iff_toNat_le, hnat]
      exact hn
    unfold headLength
    split_ifs <;> omega
  have hmax : ValidatorOptions.default.maxEncEnvelopeBytes = 65536 := rfl
  rw [envelopeLength, hmax]
  cases kem with
  | x25519 =>
      have hname : (SealedKem.asStr .x25519).length = 6 := by decide
      rw [hname, slotLength, maxRecorded]
      omega
  | mlkem768X25519 =>
      have hname : (SealedKem.asStr .mlkem768X25519).length = 14 := by decide
      rw [hname, slotLength, maxRecorded]
      omega

end SealedKem

section Envelopes
variable {crypto : SealedPrimitives} {args : WrapArgs} {kem : SealedKem} {nonce : List UInt8}
  {cek hashesHash : FixedBytes 32} {pubs : List (List UInt8)} {slots : SealedSlots}

/-- The slots of a wrap in the shape of a record. -/
theorem recordSlots_conform (h : WrappedSlots crypto kem nonce cek pubs slots) :
    (∀ slot ∈ recordSlots slots, SlotConforms kem.slotField kem.materialLength slot) ∧
      ((recordSlots slots).map Slot.material).Nodup := by
  cases slots with
  | x25519 slots =>
      obtain ⟨hkem, hnodup, ordered, hperm, hopens⟩ := h
      rw [hkem]
      constructor
      · intro slot hslot
        obtain ⟨s, hs, heq⟩ := List.mem_map.mp hslot
        obtain ⟨pub, -, hpub⟩ := exists_left_of_forall₂ hopens (hperm.mem_iff.mp hs)
        exact ⟨s.epk, s.wrap, heq.symm, hpub.epk_length, hpub.wrap_length⟩
      · have hmap : (recordSlots (.x25519 slots)).map Slot.material =
            (slots.map X25519Slot.epk).map some := by
          rw [recordSlots, List.map_map, List.map_map]
          rfl
        rw [hmap]
        exact hnodup.map (Option.some_injective _)
  | mlkem768X25519 slots =>
      obtain ⟨hkem, hnodup, ordered, hperm, hopens⟩ := h
      rw [hkem]
      constructor
      · intro slot hslot
        obtain ⟨s, hs, heq⟩ := List.mem_map.mp hslot
        obtain ⟨pub, -, hpub⟩ := exists_left_of_forall₂ hopens (hperm.mem_iff.mp hs)
        exact ⟨s.kemCt, s.wrap, heq.symm, hpub.kemCt_length, hpub.wrap_length⟩
      · have hmap : (recordSlots (.mlkem768X25519 slots)).map Slot.material =
            (slots.map Mlkem768X25519Slot.kemCt).map some := by
          rw [recordSlots, List.map_map, List.map_map]
          rfl
        rw [hmap]
        exact hnodup.map (Option.some_injective _)

theorem length_recordSlots (slots : SealedSlots) : (recordSlots slots).length = slots.length := by
  cases slots with
  | x25519 slots => simp [recordSlots, SealedSlots.length]
  | mlkem768X25519 slots => simp [recordSlots, SealedSlots.length]

theorem SlotConforms.encodedLength {slot : Slot}
    (h : SlotConforms kem.slotField kem.materialLength slot) :
    encodedLength (slotToCbor slot) = kem.slotLength := by
  obtain ⟨material, wrap, rfl, hmaterial, hwrap⟩ := h
  cases kem with
  | x25519 =>
      have hcbor : slotToCbor (slotOf (SealedKem.slotField .x25519) material wrap) =
          .map [(.text "epk", .bytes material), (.text "wrap", .bytes wrap)] := rfl
      have hm : material.length = 32 := hmaterial
      simp only [hcbor, Label309.encodedLength, encodedLengthPairs, hm, hwrap, List.length_cons,
        List.length_nil]
      decide
  | mlkem768X25519 =>
      have hcbor : slotToCbor (slotOf (SealedKem.slotField .mlkem768X25519) material wrap) =
          .map [(.text "kem_ct", .bytes material), (.text "wrap", .bytes wrap)] := rfl
      have hm : material.length = 1120 := hmaterial
      simp only [hcbor, Label309.encodedLength, encodedLengthPairs, hm, hwrap, List.length_cons,
        List.length_nil]
      decide

variable {built : WrapEnvelope} (h : Wrapped crypto args cek hashesHash built)
include h

theorem Wrapped.scheme_buildEnvelope : (buildEnvelope built.envelope).scheme = 1 := by
  rw [buildEnvelope, h.scheme]
  rfl

/-- The envelope of a wrap conforms, whatever bound on the slots it meets. -/
theorem Wrapped.conforms_buildEnvelope {maxSlots : ℕ}
    (hmax : args.recipientPublicKeys.length ≤ maxSlots) :
    (buildEnvelope built.envelope).Conforms maxSlots := by
  obtain ⟨hconform, hnodup⟩ := recordSlots_conform h.slots
  have hlength : (recordSlots built.envelope.slots).length = args.recipientPublicKeys.length :=
    (length_recordSlots _).trans h.slots.length
  refine ⟨h.scheme_buildEnvelope, h.aead, h.nonce, rfl, ⟨built.envelope.slotsMac, rfl, ?_⟩, ?_⟩
  · rw [h.slotsMac]
    exact (computeSlotsMac crypto cek.val _).property
  · refine ⟨_, _, _, recordSlots built.envelope.slots,
      SealedKem.mem_kemRegistry (args.kem.getD .x25519), congrArg some h.kem, rfl, ?_, ?_, hconform,
      hnodup⟩
    · intro hnil
      rw [hnil, List.length_nil, eq_comm, List.length_eq_zero_iff] at hlength
      exact h.recipients hlength
    · rw [hlength]
      exact hmax

theorem Wrapped.encodedLength_buildEnvelope :
    encodedLength (scheme1ToCbor (buildEnvelope built.envelope)) =
      (args.kem.getD .x25519).envelopeLength args.recipientPublicKeys.length := by
  obtain ⟨hconform, -⟩ := recordSlots_conform h.slots
  have hlength : (recordSlots built.envelope.slots).length = args.recipientPublicKeys.length :=
    (length_recordSlots _).trans h.slots.length
  have hslots : encodedLengthItems ((recordSlots built.envelope.slots).map slotToCbor) =
      args.recipientPublicKeys.length * (args.kem.getD .x25519).slotLength := by
    have hall : (((recordSlots built.envelope.slots).map slotToCbor).map encodedLength) =
        (recordSlots built.envelope.slots).map
          fun _ => (args.kem.getD .x25519).slotLength := by
      rw [List.map_map]
      apply List.map_congr_left
      intro slot hslot
      exact (hconform slot hslot).encodedLength
    rw [encodedLengthItems_eq, hall, List.map_const', List.sum_replicate, hlength, smul_eq_mul]
  have hmac : built.envelope.slotsMac.length = 32 := by
    rw [h.slotsMac]
    exact (computeSlotsMac crypto cek.val _).property
  have hcbor : scheme1ToCbor (buildEnvelope built.envelope) = .map
      [(.text "scheme", .unsigned 1), (.text "aead", .text contentFormat),
        (.text "nonce", .bytes built.envelope.nonce),
        (.text "kem", .text (args.kem.getD .x25519).asStr),
        (.text "slots", .array ((recordSlots built.envelope.slots).map slotToCbor)),
        (.text "slots_mac", .bytes built.envelope.slotsMac)] := by
    rw [scheme1ToCbor, h.scheme_buildEnvelope]
    simp only [buildEnvelope, h.aead, h.kem]
    rfl
  rw [hcbor]
  simp only [encodedLength, encodedLengthPairs, hslots, hmac, h.nonce, List.length_map, hlength,
    SealedKem.envelopeLength, List.length_cons, List.length_nil]
  have hname : stringLength (utf8Bytes (args.kem.getD .x25519).asStr).length =
      (args.kem.getD .x25519).asStr.length + 1 := by
    cases args.kem.getD .x25519 with
    | x25519 => decide
    | mlkem768X25519 => decide
  have hcount : headLength (Nat.toUInt64 (0 + 1 + 1 + 1 + 1 + 1 + 1)) = 1 := by decide
  have hscheme : stringLength (utf8Bytes "scheme").length + headLength 1 = 8 := by decide
  have haead : stringLength (utf8Bytes "aead").length +
      stringLength (utf8Bytes contentFormat).length = 34 := by decide
  have hnonce : stringLength (utf8Bytes "nonce").length + stringLength nonceLength = 32 := by decide
  have hkey : stringLength (utf8Bytes "kem").length = 4 := by decide
  have hslotsKey : stringLength (utf8Bytes "slots").length = 6 := by decide
  have hmacEntry : stringLength (utf8Bytes "slots_mac").length + stringLength 32 + 0 = 44 := by
    decide
  rw [hname, hcount, hscheme, haead, hnonce, hkey, hslotsKey, hmacEntry]
  omega

end Envelopes

/-! ## Signatures -/

/-- The two parameters of the protected header. -/
def path1Pairs (pk : List UInt8) : List (CborValue × CborValue) :=
  [(.unsigned 1, .negative 7), (.unsigned 4, .bytes pk)]

/-- The bytes of an assembled signature, and their number. -/
theorem encodeCoseSign1_path1 {pk signature : List UInt8} (hpk : pk.length = ed25519PublicKeyLength)
    (hsignature : signature.length = ed25519SignatureLength) :
    ∃ b, encodeCoseSign1 (path1ProtectedHeader pk) .empty none signature = .ok b ∧
      b.length = 109 ∧ decodeCanonicalCbor b = .ok (.array [.bytes (path1ProtectedHeaderBytes pk),
        .map [], .null, .bytes signature]) := by
  have hprotected := path1_encodeProtected hpk
  have hbytes : path1ProtectedHeaderBytes pk = [0xa2, 0x01, 0x27, 0x04, 0x58, 0x20] ++ pk := by
    rw [path1ProtectedHeaderBytes, hprotected]
    rfl
  have hprotectedLength : (path1ProtectedHeaderBytes pk).length = 38 := by
    rw [hbytes, List.length_append, hpk]
    rfl
  obtain ⟨b, hb⟩ := (@exists_encodeCoseSign1_iff _ .empty none signature _ hprotected).mpr ⟨_, rfl⟩
  have hencode := hb
  rw [encodeCoseSign1, hprotected, ok_bind, ← hbytes] at hencode
  have hfits : LengthsFit (.array [.bytes (path1ProtectedHeaderBytes pk), .map [], .null,
      .bytes signature]) := by
    refine .array (by simp) ?_
    intro v hv
    simp only [List.mem_cons, List.not_mem_nil, or_false] at hv
    rcases hv with rfl | rfl | rfl | rfl
    · exact .bytes (by omega)
    · exact .map (by simp) (List.forall_mem_nil _) (List.forall_mem_nil _)
    · exact .null
    · exact .bytes (by rw [hsignature]; decide)
  refine ⟨b, hb, ?_, ?_⟩
  · have hlength := length_writeValue _ hencode
    rw [hlength]
    simp only [encodedLength, encodedLengthItems, hprotectedLength, hsignature, List.length_cons,
      List.length_nil, CoseHeader.toCbor, CoseHeader.empty, List.map_nil, encodedLengthPairs]
    decide
  · exact decode_of_encode hfits hencode

theorem isProtectedHeader_path1 {pk : List UInt8} (hpk : pk.length = ed25519PublicKeyLength) :
    ∃ header, IsProtectedHeader (path1ProtectedHeaderBytes pk) header := by
  have hprotected := path1_encodeProtected hpk
  have hbytes : path1ProtectedHeaderBytes pk = [0xa2, 0x01, 0x27, 0x04, 0x58, 0x20] ++ pk := by
    rw [path1ProtectedHeaderBytes, hprotected]
    rfl
  have hfits := (path1_protectable ⟨pk, hpk⟩).fits
  have hencode : encodeCanonicalCbor (path1ProtectedHeader pk).toCbor =
      .ok (path1ProtectedHeaderBytes pk) := by
    rw [hbytes, ← hprotected]
    rfl
  have hdecode := decode_of_encode hfits hencode
  have hsorted : sortMaps (path1ProtectedHeader pk).toCbor =
      .map (sortEntries ((path1Pairs pk).map sortMapsEntry)) := by
    have hcbor : (path1ProtectedHeader pk).toCbor = .map (path1Pairs pk) := rfl
    rw [hcbor, sortMaps_map]
  rw [hsorted] at hdecode
  refine ⟨_, .inr ⟨?_, hdecode⟩⟩
  intro hnil
  have hlength := congrArg List.length hnil
  rw [sortEntries, SortByKey.length_sortBy] at hlength
  cases hlength

/-- **What is assembled is a detached signature.** -/
theorem assembleCoseSign1_conforms {record : PoeRecord} {pk signature : List UInt8}
    {assembled : AssembledCoseSign1} (h : assembleCoseSign1 record pk signature = .ok assembled) :
    assembled.sigEntry.Conforms ∧ assembled.sigEntry.coseSign1.length = 109 := by
  rw [assembleCoseSign1, assembleWith] at h
  by_cases hpk : pk.length = ed25519PublicKeyLength
  · by_cases hsignature : signature.length = ed25519SignatureLength
    · obtain ⟨b, hb, hlength, hdecode⟩ := encodeCoseSign1_path1 hpk hsignature
      obtain ⟨header, hheader⟩ := isProtectedHeader_path1 hpk
      rw [if_neg (not_not_intro hpk), if_neg (not_not_intro hsignature), hb] at h
      cases h
      exact ⟨⟨⟨header, _, _, _, hdecode, hsignature, hheader⟩, rfl⟩, hlength⟩
    · rw [if_neg (not_not_intro hpk), if_pos hsignature] at h
      cases h
  · rw [if_pos hpk] at h
    cases h

/-! ## Encoding -/

theorem encodes_uris {uris : Option (List String)} {v : CborValue}
    (hv : uris.map urisToCbor = some v) : Encodes v := by
  obtain ⟨us, -, heq⟩ := Option.map_eq_some_iff.mp hv
  rw [← heq]
  apply encodes_array
  intro e he
  obtain ⟨u, -, heq⟩ := List.mem_map.mp he
  rw [← heq]
  exact exists_writeValue_text u

theorem SlotConforms.encodes {kem field : String} {length : ℕ}
    (hkem : (kem, field, length) ∈ kemRegistry) {slot : Slot} (h : SlotConforms field length slot) :
    Encodes (slotToCbor slot) := by
  obtain ⟨material, wrap, rfl, -, -⟩ := h
  simp only [kemRegistry, List.mem_cons, Prod.mk.injEq, List.not_mem_nil, or_false] at hkem
  rcases hkem with ⟨-, rfl, -⟩ | ⟨-, rfl, -⟩
  · refine @encodes_presentFields [("epk", some (.bytes material)), ("wrap", some (.bytes wrap))]
      (by simp) ?_ ?_
    · simp only [List.forall_mem_cons]
      exact ⟨by decide, by decide, List.forall_mem_nil _⟩
    · simp only [List.forall_mem_cons, Option.some.injEq, forall_eq']
      exact ⟨⟨_, rfl⟩, ⟨_, rfl⟩, List.forall_mem_nil _⟩
  · refine @encodes_presentFields [("kem_ct", some (.bytes material)), ("wrap", some (.bytes wrap))]
      (by simp) ?_ ?_
    · simp only [List.forall_mem_cons]
      exact ⟨by decide, by decide, List.forall_mem_nil _⟩
    · simp only [List.forall_mem_cons, Option.some.injEq, forall_eq']
      exact ⟨⟨_, rfl⟩, ⟨_, rfl⟩, List.forall_mem_nil _⟩

theorem EncScheme1.Conforms.encodes {maxSlots : ℕ} {enc : EncScheme1}
    (h : enc.Conforms maxSlots) : Encodes (scheme1ToCbor enc) := by
  obtain ⟨-, -, -, hpass, -, kem, field, length, slots, hmem, hkem, hslots, -, -, hconform, -⟩ := h
  have hnames : ((scheme1Fields enc).map Prod.fst).Nodup :=
    show ["scheme", "aead", "nonce", "kem", "slots", "slots_mac", "passphrase"].Nodup by decide
  refine @encodes_presentFields (scheme1Fields enc) hnames ?_ ?_
  · simp only [scheme1Fields, List.forall_mem_cons]
    exact ⟨by decide, by decide, by decide, by decide, by decide, by decide, by decide,
      List.forall_mem_nil _⟩
  · simp only [scheme1Fields, List.forall_mem_cons, hkem, hslots, hpass, Option.map_some,
      Option.map_none, Option.some.injEq, forall_eq']
    refine ⟨⟨_, rfl⟩, exists_writeValue_text _, ⟨_, rfl⟩, exists_writeValue_text _, ?_, ?_,
      by simp, List.forall_mem_nil _⟩
    · apply encodes_array
      intro v hv
      obtain ⟨slot, hslot, heq⟩ := List.mem_map.mp hv
      rw [← heq]
      exact (hconform slot hslot).encodes hmem
    · intro v hv
      obtain ⟨mac, -, heq⟩ := Option.map_eq_some_iff.mp hv
      rw [← heq]
      exact ⟨_, rfl⟩

/-- A record of one part encodes when the part does. -/
theorem encodes_record {record : PoeRecord} (hext : record.extensions = [])
    (hsupersedes : record.supersedes = none) (hsigs : record.sigs = none)
    (hcrit : record.crit = none)
    (hitems : ∀ items, record.items = some items → ∀ item ∈ items, Encodes (itemToCbor item))
    (hmerkle : ∀ merkle, record.merkle = some merkle → ∀ c ∈ merkle, Encodes (merkleToCbor c)) :
    Encodes (recordToCbor record true) := by
  have hnames : ((recordFields record).map Prod.fst).Nodup :=
    show ["v", "items", "merkle", "supersedes", "sigs", "crit"].Nodup by decide
  rw [recordToCbor_fields hext]
  refine encodes_presentFields hnames ?_ ?_
  · simp only [recordFields, List.forall_mem_cons]
    exact ⟨by decide, by decide, by decide, by decide, by decide, by decide, List.forall_mem_nil _⟩
  · simp only [recordFields, List.forall_mem_cons, hsupersedes, hsigs, hcrit, Option.map_none,
      Option.some.injEq, forall_eq']
    refine ⟨⟨_, rfl⟩, ?_, ?_, by simp, by simp, by simp, List.forall_mem_nil _⟩
    · intro v hv
      obtain ⟨items, heq, hv⟩ := Option.map_eq_some_iff.mp hv
      rw [← hv]
      apply encodes_array
      intro w hw
      obtain ⟨item, hitem, hw⟩ := List.mem_map.mp hw
      rw [← hw]
      exact hitems items heq item hitem
    · intro v hv
      obtain ⟨merkle, heq, hv⟩ := Option.map_eq_some_iff.mp hv
      rw [← hv]
      apply encodes_array
      intro w hw
      obtain ⟨c, hc, hw⟩ := List.mem_map.mp hw
      rw [← hw]
      exact hmerkle merkle heq c hc

end Label309
