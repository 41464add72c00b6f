import Label309.Cose
import Label309.Lib.ExceptBind
import Label309.PoeStandard.SigAcceptance

/-!
# COSE envelopes on the wire

A decoded header is the map it was read from, and its lookups are lookups in that map.
A detached COSE_Sign1 is described by the parts of its array.
-/
namespace Label309
open ExceptBind

/-! ## Headers -/

theorem CoseLabel.toCbor_of_fromCbor {key : CborValue} {label : CoseLabel}
    (h : CoseLabel.fromCbor key = some label) : label.toCbor = key := by
  cases key with
  | unsigned n =>
      cases h
      simp [CoseLabel.toCbor, cborIntFromI128]
  | negative m =>
      cases h
      have hneg : ¬ (0 : ℤ) ≤ -1 - (m.toNat : ℤ) := by omega
      have harg : (-1 - (-1 - (m.toNat : ℤ))).toNat = m.toNat := by omega
      simp only [CoseLabel.toCbor, cborIntFromI128, hneg, if_false, harg, UInt64.ofNat_toNat]
  | text s =>
      cases h
      rfl
  | _ => simp [CoseLabel.fromCbor] at h

/-- A map whose keys are integers or texts. -/
def LabelKeyed (pairs : List (CborValue × CborValue)) : Prop :=
  ∀ p ∈ pairs, (CoseLabel.fromCbor p.1).isSome

/-- An entry of a header and the entry it was read from. -/
def ReadEntry (p : CborValue × CborValue) (q : CoseLabel × CborValue) : Prop :=
  CoseLabel.fromCbor p.1 = some q.1 ∧ p.2 = q.2

theorem fromCborMap_eq_some_iff {pairs : List (CborValue × CborValue)} {header : CoseHeader} :
    CoseHeader.fromCborMap (.map pairs) = some header ↔
      List.Forall₂ ReadEntry pairs header.pairs := by
  have hentry : ∀ (p : CborValue × CborValue) (q : CoseLabel × CborValue),
      ((CoseLabel.fromCbor p.1).map fun label => (label, p.2)) = some q ↔ ReadEntry p q := by
    intro p q
    obtain ⟨label, value⟩ := q
    simp [ReadEntry]
  simp only [CoseHeader.fromCborMap, Option.map_eq_some_iff, mapM_eq_some_iff, hentry]
  constructor
  · rintro ⟨entries, hall, rfl⟩
    exact hall
  · intro hall
    exact ⟨header.pairs, hall, rfl⟩

theorem exists_fromCborMap {pairs : List (CborValue × CborValue)} (h : LabelKeyed pairs) :
    ∃ header, CoseHeader.fromCborMap (.map pairs) = some header := by
  simp only [fromCborMap_eq_some_iff]
  induction pairs with
  | nil => exact ⟨⟨[]⟩, .nil⟩
  | cons p pairs ih =>
      obtain ⟨hp, hrest⟩ := List.forall_mem_cons.mp h
      obtain ⟨label, hlabel⟩ := Option.isSome_iff_exists.mp hp
      obtain ⟨header, hall⟩ := ih hrest
      exact ⟨⟨(label, p.2) :: header.pairs⟩, .cons ⟨hlabel, rfl⟩ hall⟩

theorem map_of_fromCborMap {v : CborValue} {header : CoseHeader}
    (h : CoseHeader.fromCborMap v = some header) : ∃ pairs, v = .map pairs := by
  cases v with
  | map pairs => exact ⟨pairs, rfl⟩
  | _ => simp [CoseHeader.fromCborMap] at h

/-! ## Values -/

theorem cborIntValue_eq_neg_eight_iff {field : Option CborValue} :
    cborIntValue field = some (-8) ↔ field = some (.negative 7) := by
  cases field with
  | none => simp [cborIntValue]
  | some v =>
      cases v with
      | negative m =>
          have hm : -1 - (m.toNat : ℤ) = -8 ↔ m = 7 := by
            rw [← UInt64.toNat_inj]
            have hseven : (7 : UInt64).toNat = 7 := rfl
            omega
          simp only [cborIntValue, toI64, Option.some.injEq, CborValue.negative.injEq, ← hm]
          split_ifs with hfits
          · rw [Option.some.injEq]
          · simp only [false_iff]
            omega
      | unsigned n =>
          simp only [cborIntValue, toI64, reduceCtorEq, Option.some.injEq, iff_false]
          split_ifs
          · rw [Option.some.injEq]
            omega
          · simp
      | _ => simp [cborIntValue]

theorem cborIntValue_eq_natCast_iff {field : Option CborValue} {n : UInt64} (hn : n.toNat < 2 ^ 63) :
    cborIntValue field = some (n.toNat : ℤ) ↔ field = some (.unsigned n) := by
  cases field with
  | none => simp [cborIntValue]
  | some v =>
      cases v with
      | unsigned m =>
          simp only [cborIntValue, toI64, Option.some.injEq, CborValue.unsigned.injEq,
            ← UInt64.toNat_inj]
          split_ifs with hfits
          · rw [Option.some.injEq]
            omega
          · simp only [false_iff]
            omega
      | negative m =>
          simp only [cborIntValue, toI64, reduceCtorEq, Option.some.injEq, iff_false]
          split_ifs
          · rw [Option.some.injEq]
            omega
          · simp
      | _ => simp [cborIntValue]

theorem cborFixedBytes_eq_some_iff {n : ℕ} {field : Option CborValue} {b : FixedBytes n} :
    cborFixedBytes n field = some b ↔ field = some (.bytes b.val) := by
  cases field with
  | none => simp [cborFixedBytes]
  | some v => cases v <;> simp [cborFixedBytes, toFixed_eq_some]

/-- The payload of a COSE_Sign1: null when it is detached. -/
def payloadCbor : Option (List UInt8) → CborValue
  | none => .null
  | some payload => .bytes payload

theorem payloadCbor_injective {payload payload' : Option (List UInt8)}
    (h : payloadCbor payload = payloadCbor payload') : payload = payload' := by
  cases payload with
  | none =>
      cases payload' with
      | none => rfl
      | some b => cases h
  | some b =>
      cases payload' with
      | none => cases h
      | some b' =>
          cases h
          rfl

theorem decodePayload_eq_ok_iff {v : CborValue} {payload : Option (List UInt8)} :
    decodePayload v = .ok payload ↔ v = payloadCbor payload := by
  constructor
  · intro h
    cases v with
    | null =>
        cases h
        rfl
    | bytes b =>
        cases h
        rfl
    | _ => cases h
  · intro h
    rw [h]
    cases payload <;> rfl

theorem decodeSignature_eq_ok_iff {v : CborValue} {signature : FixedBytes 64} :
    decodeSignature v = .ok signature ↔ v = .bytes signature.val := by
  unfold decodeSignature
  split
  · rename_i read hread
    rw [cborFixedBytes_eq_some_iff, Option.some.injEq] at hread
    simp [hread, Subtype.ext_iff]
  · rename_i hread
    simp only [reduceCtorEq, false_iff]
    intro heq
    rw [heq, cborFixedBytes_eq_some_iff.mpr rfl] at hread
    cases hread

/-! ## Lookups -/

section Read
variable {pairs : List (CborValue × CborValue)} {header : CoseHeader}
  (h : CoseHeader.fromCborMap (.map pairs) = some header)
include h

theorem labelKeyed_of_read : LabelKeyed pairs := by
  obtain ⟨entries⟩ := header
  have hall : List.Forall₂ ReadEntry pairs entries := fromCborMap_eq_some_iff.mp h
  clear h
  induction hall with
  | nil => simp [LabelKeyed]
  | cons hentry _ ih =>
      refine List.forall_mem_cons.mpr ⟨?_, ih⟩
      rw [hentry.1, Option.isSome_some]

theorem isEmpty_of_read : header.isEmpty = pairs.isEmpty := by
  have hlength := (fromCborMap_eq_some_iff.mp h).length_eq
  rw [CoseHeader.isEmpty, Bool.eq_iff_iff, List.isEmpty_iff, List.isEmpty_iff,
    ← List.length_eq_zero_iff, ← List.length_eq_zero_iff, hlength]

/-- Writing a header back gives the map it was read from. -/
theorem toCbor_of_read : header.toCbor = .map pairs := by
  obtain ⟨entries⟩ := header
  have hall : List.Forall₂ ReadEntry pairs entries := fromCborMap_eq_some_iff.mp h
  clear h
  rw [CoseHeader.toCbor, CborValue.map.injEq]
  induction hall with
  | nil => rfl
  | cons hentry _ ih =>
      obtain ⟨hlabel, hvalue⟩ := hentry
      rw [List.map_cons, ih, CoseLabel.toCbor_of_fromCbor hlabel, ← hvalue]

theorem getText_of_read (key : String) : header.getText key = mapGet pairs key := by
  obtain ⟨entries⟩ := header
  have hall : List.Forall₂ ReadEntry pairs entries := fromCborMap_eq_some_iff.mp h
  clear h
  rw [CoseHeader.getText, CoseHeader.get]
  induction hall with
  | nil => rfl
  | @cons p q ps qs hentry _ ih =>
      obtain ⟨k, v⟩ := p
      obtain ⟨label, value⟩ := q
      obtain ⟨hlabel, hvalue⟩ := hentry
      dsimp only at hlabel hvalue
      subst hvalue
      rw [List.find?_cons]
      cases k with
      | text t =>
          cases hlabel
          by_cases ht : t = key
          · simp [mapGet, ht]
          · simpa [mapGet, ht] using ih
      | unsigned n =>
          cases hlabel
          simpa [mapGet] using ih
      | negative m =>
          cases hlabel
          simpa [mapGet] using ih
      | _ => simp [CoseLabel.fromCbor] at hlabel

/-- A label of a 64-bit word is looked up as an integer. -/
theorem getInt_of_read {label : ℤ} (hlow : -2 ^ 63 ≤ label) (hhigh : label < 2 ^ 63) :
    header.getInt label = intKeyedGet pairs label := by
  obtain ⟨entries⟩ := header
  have hall : List.Forall₂ ReadEntry pairs entries := fromCborMap_eq_some_iff.mp h
  clear h
  rw [CoseHeader.getInt, CoseHeader.get, intKeyedGet]
  induction hall with
  | nil => rfl
  | @cons p q ps qs hentry _ ih =>
      obtain ⟨k, v⟩ := p
      obtain ⟨read, value⟩ := q
      obtain ⟨hlabel, hvalue⟩ := hentry
      dsimp only at hlabel hvalue
      subst hvalue
      rw [List.find?_cons, List.findSome?_cons]
      have hmatch : decide (read = CoseLabel.int label) = decide (intValue k = some label) := by
        cases k with
        | unsigned n =>
            cases hlabel
            rw [decide_eq_decide, intValue, CoseLabel.int.injEq]
            split_ifs with hfits
            · rw [Option.some.injEq]
            · simp only [iff_false]
              omega
        | negative m =>
            cases hlabel
            rw [decide_eq_decide, intValue, CoseLabel.int.injEq]
            split_ifs with hfits
            · rw [Option.some.injEq]
            · simp only [iff_false]
              omega
        | text t =>
            cases hlabel
            simp [intValue]
        | _ => simp [CoseLabel.fromCbor] at hlabel
      by_cases hk : intValue k = some label
      · simp [hmatch, hk]
      · simpa [hmatch, hk] using ih

/-- The protected `alg` of EdDSA has one encoding. -/
theorem alg_eq_eddsa_iff :
    header.alg = some coseAlgEddsa ↔ intKeyedGet pairs 1 = some (.negative 7) := by
  rw [CoseHeader.alg, coseHeaderLabelAlg, getInt_of_read h (by omega) (by omega)]
  exact cborIntValue_eq_neg_eight_iff

theorem kid_eq_some_iff {key : FixedBytes 32} :
    header.kid = some key ↔ intKeyedGet pairs 4 = some (.bytes key.val) := by
  rw [CoseHeader.kid, coseHeaderLabelKid, getInt_of_read h (by omega) (by omega)]
  exact cborFixedBytes_eq_some_iff

end Read

/-! ## COSE_Sign1 -/

theorem IsProtectedHeader.unique {protectedBytes : List UInt8}
    {header header' : List (CborValue × CborValue)} (h : IsProtectedHeader protectedBytes header)
    (h' : IsProtectedHeader protectedBytes header') : header = header' := by
  obtain ⟨decoded, hdecoded, rfl⟩ := isProtectedHeader_iff.mp h
  obtain ⟨decoded', hdecoded', rfl⟩ := isProtectedHeader_iff.mp h'
  rw [hdecoded] at hdecoded'
  cases hdecoded'
  rfl

/-- A protected header is read off the map its bytes stand for. -/
theorem decodeProtected_eq_ok_iff {protectedBytes : List UInt8} {header : CoseHeader} :
    decodeProtected protectedBytes = .ok header ↔
      ∃ pairs, IsProtectedHeader protectedBytes pairs ∧
        CoseHeader.fromCborMap (.map pairs) = some header := by
  unfold decodeProtected IsProtectedHeader
  by_cases hempty : protectedBytes = []
  · simp [hempty, decode_nil, CoseHeader.empty, CoseHeader.fromCborMap]
  · simp only [List.isEmpty_iff, hempty, if_false, false_and, false_or]
    cases hdecode : decodeCanonicalCbor protectedBytes with
    | error e => simp
    | ok decoded =>
        cases decoded with
        | map pairs =>
            simp only [Except.ok.injEq, CborValue.map.injEq]
            cases hread : CoseHeader.fromCborMap (.map pairs) with
            | none => grind
            | some read =>
                have hisEmpty := isEmpty_of_read hread
                by_cases hpairs : pairs = []
                · simp [hisEmpty, hpairs]
                · have hne : read.isEmpty = false := by simpa [hisEmpty] using hpairs
                  simp only [hne, Bool.false_eq_true, if_false, Except.ok.injEq]
                  grind
        | _ => simp [CoseHeader.fromCborMap]

/-- The four parts of what decodes, and the maps of its two headers. -/
theorem decodeCoseSign1_parts {bytes : List UInt8} {cose : CoseSign1Decoded}
    (h : decodeCoseSign1 bytes = .ok cose) :
    ∃ header unprotected, decodeCanonicalCbor bytes =
        .ok (.array [.bytes cose.protectedBytes, .map unprotected, payloadCbor cose.payload,
          .bytes cose.signature.val]) ∧
      IsProtectedHeader cose.protectedBytes header ∧
      CoseHeader.fromCborMap (.map header) = some cose.protectedHeader ∧
      CoseHeader.fromCborMap (.map unprotected) = some cose.unprotectedHeader := by
  rw [decodeCoseSign1.eq_def] at h
  split at h
  · cases h
  · next first second third fourth hdecode =>
    rw [decodeSign1Parts.eq_def] at h
    split at h
    · split at h
      · cases h
      · next unprotectedHeader hunprotected =>
        obtain ⟨payload, hthird, h⟩ := bind_eq_ok.mp h
        obtain ⟨signature, hfourth, h⟩ := bind_eq_ok.mp h
        obtain ⟨protectedHeader, hfirst, h⟩ := bind_eq_ok.mp h
        cases h
        obtain ⟨header, hheader, hread⟩ := decodeProtected_eq_ok_iff.mp hfirst
        obtain ⟨unprotected, hmap⟩ := map_of_fromCborMap hunprotected
        subst hmap
        rw [decodePayload_eq_ok_iff.mp hthird, decodeSignature_eq_ok_iff.mp hfourth] at hdecode
        exact ⟨header, unprotected, hdecode, hheader, hread, hunprotected⟩
    · cases h
  · cases h

/-- The parts of a detached COSE_Sign1 as they stand on the wire, with its two headers
as the maps they encode. -/
structure WireSign1 where
  protectedBytes : List UInt8
  header : List (CborValue × CborValue)
  unprotected : List (CborValue × CborValue)
  signature : FixedBytes 64
  isHeader : IsProtectedHeader protectedBytes header
  headerLabels : LabelKeyed header
  unprotectedLabels : LabelKeyed unprotected

namespace WireSign1

def toCbor (sign : WireSign1) : CborValue :=
  .array [.bytes sign.protectedBytes, .map sign.unprotected, .null, .bytes sign.signature.val]

/-- The unprotected `"hashed": true`. -/
def hashed (sign : WireSign1) : Bool := isTrue (mapGet sign.unprotected "hashed")

/-- The decoded form of these parts. -/
structure Reads (sign : WireSign1) (cose : CoseSign1Decoded) : Prop where
  header : CoseHeader.fromCborMap (.map sign.header) = some cose.protectedHeader
  protectedBytes : cose.protectedBytes = sign.protectedBytes
  unprotected : CoseHeader.fromCborMap (.map sign.unprotected) = some cose.unprotectedHeader
  payload : cose.payload = none
  signature : cose.signature = sign.signature

theorem hashedMode_eq {sign : WireSign1} {cose : CoseSign1Decoded} (h : sign.Reads cose) :
    hashedMode cose.unprotectedHeader = sign.hashed := by
  rw [hashedMode, getText_of_read h.unprotected, hashed]

/-- Equal decoded bytes have equal parts. -/
theorem toCbor_injective {sign sign' : WireSign1} (h : sign.toCbor = sign'.toCbor) :
    sign = sign' := by
  obtain ⟨protectedBytes, header, unprotected, signature, isHeader, _, _⟩ := sign
  obtain ⟨protectedBytes', header', unprotected', signature', isHeader', _, _⟩ := sign'
  simp only [toCbor, CborValue.array.injEq, List.cons.injEq, CborValue.bytes.injEq,
    CborValue.map.injEq, and_true, true_and] at h
  obtain ⟨rfl, rfl, hsignature⟩ := h
  cases Subtype.ext hsignature
  cases isHeader.unique isHeader'
  rfl

end WireSign1

/-- Decoding a COSE_Sign1 succeeds with a detached payload exactly on such parts. -/
theorem decodeSign1_detached_iff {bytes : List UInt8} {cose : CoseSign1Decoded} :
    (decodeCoseSign1 bytes = .ok cose ∧ cose.payload = none) ↔
      ∃ sign : WireSign1, decodeCanonicalCbor bytes = .ok sign.toCbor ∧ sign.Reads cose := by
  constructor
  · intro ⟨hdecode, hpayload⟩
    obtain ⟨header, unprotected, hcbor, hheader, hread, hunprotected⟩ :=
      decodeCoseSign1_parts hdecode
    rw [hpayload] at hcbor
    exact ⟨⟨cose.protectedBytes, header, unprotected, cose.signature, hheader,
      labelKeyed_of_read hread, labelKeyed_of_read hunprotected⟩, hcbor,
      ⟨hread, rfl, hunprotected, hpayload, rfl⟩⟩
  · intro ⟨sign, hcbor, hreads⟩
    refine ⟨?_, hreads.payload⟩
    have hheader := decodeProtected_eq_ok_iff.mpr ⟨sign.header, sign.isHeader, hreads.header⟩
    have hsignature : decodeSignature (.bytes sign.signature.val) = .ok sign.signature :=
      decodeSignature_eq_ok_iff.mpr rfl
    simp only [decodeCoseSign1, hcbor, WireSign1.toCbor, decodeSign1Parts, hreads.unprotected,
      decodePayload, hsignature, hheader, ok_bind]
    cases cose
    cases hreads.protectedBytes
    cases hreads.payload
    cases hreads.signature
    rfl

/-- The decoded form of given parts exists. -/
theorem exists_reads (sign : WireSign1) : ∃ cose, sign.Reads cose := by
  obtain ⟨header, hheader⟩ := exists_fromCborMap sign.headerLabels
  obtain ⟨unprotected, hunprotected⟩ := exists_fromCborMap sign.unprotectedLabels
  exact ⟨⟨header, sign.protectedBytes, unprotected, none, sign.signature⟩,
    ⟨hheader, rfl, hunprotected, rfl, rfl⟩⟩

end Label309
