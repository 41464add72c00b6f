import Label309.Verifier.SignatureStep

/-!
# Two readers of one envelope

The validator reads the headers of a COSE_Sign1 as maps, the verifier reads them as headers,
whose keys are integers and texts only. Likewise for a COSE_Key, where the verifier also looks
at the algorithm. On everything else the two readers agree.
-/
namespace Label309
open ExceptBind

/-! ## The envelope on the wire -/

/-- The parts of a COSE_Sign1, its payload detached or attached and its headers any maps. -/
structure Sign1Wire where
  protectedBytes : List UInt8
  header : List (CborValue × CborValue)
  unprotected : List (CborValue × CborValue)
  payload : Option (List UInt8)
  signature : FixedBytes 64
  isHeader : IsProtectedHeader protectedBytes header

namespace Sign1Wire

def toCbor (wire : Sign1Wire) : CborValue :=
  .array [.bytes wire.protectedBytes, .map wire.unprotected, payloadCbor wire.payload,
    .bytes wire.signature.val]

/-- Every key of both headers is a label. -/
def Labelled (wire : Sign1Wire) : Prop := LabelKeyed wire.header ∧ LabelKeyed wire.unprotected

/-- Equal decoded bytes have equal parts. -/
theorem toCbor_injective {wire wire' : Sign1Wire} (h : wire.toCbor = wire'.toCbor) :
    wire = wire' := by
  rw [toCbor, toCbor] at h
  injection h with hparts
  injection hparts with hprotected hparts
  injection hparts with hunprotected hparts
  injection hparts with hpayload hparts
  injection hparts with hsignature
  injection hprotected with hprotected
  injection hunprotected with hunprotected
  injection hsignature with hsignature
  have hsame : _ = _ := payloadCbor_injective hpayload
  cases wire with
  | mk protectedBytes header unprotected payload signature isHeader =>
      cases wire' with
      | mk protectedBytes' header' unprotected' payload' signature' isHeader' =>
          dsimp only at hprotected hunprotected hsame hsignature
          subst hprotected hunprotected hsame
          cases Subtype.ext hsignature
          cases isHeader.unique isHeader'
          rfl

end Sign1Wire

/-! ## The validator's reader -/

/-- What the validator reads of these parts. -/
structure ReadsStructural (wire : Sign1Wire) (read : CoseSign1Structural) : Prop where
  header : read.protectedHeader.getD [] = wire.header
  payload : read.payloadPresent = wire.payload.isSome

theorem decodeStructural_eq_ok {bytes : List UInt8} {read : CoseSign1Structural}
    (h : decodeCoseSign1Structural bytes = .ok read) :
    ∃ wire : Sign1Wire, decodeCanonicalCbor bytes = .ok wire.toCbor ∧
      ReadsStructural wire read := by
  rw [decodeCoseSign1Structural.eq_def] at h
  split at h
  · cases h
  · rename_i first second third fourth hdecode
    split at h
    · rename_i protectedBytes
      split_ifs at h with hmap hthird hsig
      obtain ⟨header, hheader, hread⟩ := map_eq_ok.mp h
      subst hread
      obtain ⟨unprotected, hunprotected⟩ := isMap_iff.mp (by simpa using hmap)
      obtain ⟨signature, hsignature, hlength⟩ := isBytesOfLength_iff.mp (by simpa using hsig)
      subst hunprotected hsignature
      have hisHeader : IsProtectedHeader protectedBytes (header.getD []) :=
        isProtectedHeader_iff.mpr ⟨header, hheader, rfl⟩
      cases third with
      | null =>
          exact ⟨⟨protectedBytes, _, unprotected, none, ⟨signature, hlength⟩, hisHeader⟩, hdecode,
            rfl, rfl⟩
      | bytes payload =>
          exact ⟨⟨protectedBytes, _, unprotected, some payload, ⟨signature, hlength⟩, hisHeader⟩,
            hdecode, rfl, rfl⟩
      | _ => simp [isNull, isBytes, asBytes] at hthird
    · cases h
  · cases h

theorem exists_readsStructural {bytes : List UInt8} {wire : Sign1Wire}
    (h : decodeCanonicalCbor bytes = .ok wire.toCbor) :
    ∃ read, decodeCoseSign1Structural bytes = .ok read ∧ ReadsStructural wire read := by
  obtain ⟨header, hheader, hget⟩ := isProtectedHeader_iff.mp wire.isHeader
  refine ⟨⟨header, wire.payload.isSome⟩, ?_, hget, rfl⟩
  have hlength := wire.signature.property
  rw [decodeCoseSign1Structural.eq_def, h, Sign1Wire.toCbor]
  cases wire.payload with
  | none =>
      simp [payloadCbor, isMap, asMap, isNull, isBytes, asBytes,
        isBytesOfLength, hlength, hheader, Except.map]
  | some payload =>
      simp [payloadCbor, isMap, asMap, isNull, isBytes, asBytes,
        isBytesOfLength, hlength, hheader, Except.map]

/-! ## The verifier's reader -/

/-- What the verifier reads of these parts. -/
structure ReadsHeaders (wire : Sign1Wire) (cose : CoseSign1Decoded) : Prop where
  header : CoseHeader.fromCborMap (.map wire.header) = some cose.protectedHeader
  unprotected : CoseHeader.fromCborMap (.map wire.unprotected) = some cose.unprotectedHeader
  payload : cose.payload = wire.payload

theorem ReadsHeaders.labelled {wire : Sign1Wire} {cose : CoseSign1Decoded}
    (h : ReadsHeaders wire cose) : wire.Labelled :=
  ⟨labelKeyed_of_read h.header, labelKeyed_of_read h.unprotected⟩

theorem decodeCoseSign1_eq_ok {bytes : List UInt8} {cose : CoseSign1Decoded}
    (h : decodeCoseSign1 bytes = .ok cose) :
    ∃ wire : Sign1Wire, decodeCanonicalCbor bytes = .ok wire.toCbor ∧ ReadsHeaders wire cose := by
  obtain ⟨header, unprotected, hdecode, hheader, hread, hunprotected⟩ := decodeCoseSign1_parts h
  exact ⟨⟨cose.protectedBytes, header, unprotected, cose.payload, cose.signature, hheader⟩, hdecode,
    hread, hunprotected, rfl⟩

theorem exists_readsHeaders {bytes : List UInt8} {wire : Sign1Wire}
    (h : decodeCanonicalCbor bytes = .ok wire.toCbor) (hlabelled : wire.Labelled) :
    ∃ cose, decodeCoseSign1 bytes = .ok cose ∧ ReadsHeaders wire cose := by
  obtain ⟨header, hheader⟩ := exists_fromCborMap hlabelled.1
  obtain ⟨unprotected, hunprotected⟩ := exists_fromCborMap hlabelled.2
  refine ⟨⟨header, wire.protectedBytes, unprotected, wire.payload, wire.signature⟩, ?_, hheader,
    hunprotected, rfl⟩
  have hfirst := decodeProtected_eq_ok_iff.mpr ⟨wire.header, wire.isHeader, hheader⟩
  have hfourth : decodeSignature (.bytes wire.signature.val) = .ok wire.signature :=
    decodeSignature_eq_ok_iff.mpr rfl
  have hthird : decodePayload (payloadCbor wire.payload) = .ok wire.payload :=
    decodePayload_eq_ok_iff.mpr rfl
  simp only [decodeCoseSign1, h, Sign1Wire.toCbor, decodeSign1Parts, hunprotected, hthird,
    hfourth, hfirst, ok_bind]

/-! ## What both read -/

/-- The algorithm as the validator reads it. -/
def CoseSign1Structural.alg (read : CoseSign1Structural) : Option ℤ :=
  (read.protectedHeader.bind fun h => intKeyedGet h 1).bind intValue

/-- The 32-byte `kid` as the validator reads it. -/
def CoseSign1Structural.kid (read : CoseSign1Structural) : Option (FixedBytes 32) :=
  cborFixedBytes 32 (read.protectedHeader.bind fun h => intKeyedGet h 4)

theorem bind_intValue (field : Option CborValue) : field.bind intValue = cborIntValue field := by
  cases field with
  | none => rfl
  | some v =>
      cases v with
      | unsigned n =>
          simp only [Option.bind_some, intValue, cborIntValue, toI64]
          by_cases hn : n.toNat < 2 ^ 63
          · rw [if_pos hn, if_pos (by omega)]
          · rw [if_neg hn, if_neg (by omega)]
      | negative m =>
          simp only [Option.bind_some, intValue, cborIntValue, toI64]
          by_cases hm : m.toNat < 2 ^ 63
          · rw [if_pos hm, if_pos (by omega)]
          · rw [if_neg hm, if_neg (by omega)]
      | _ => rfl

/-- Both readers take the bytes or both refuse them, and they agree on the payload's presence,
the algorithm and the `kid`. -/
def ReadersAgree (bytes : List UInt8) : Prop :=
  match decodeCoseSign1Structural bytes, decodeCoseSign1 bytes with
  | .ok read, .ok cose =>
      read.payloadPresent = cose.payload.isSome ∧ read.alg = cose.protectedHeader.alg ∧
        read.kid = cose.protectedHeader.kid
  | .error _, .error _ => True
  | _, _ => False

theorem reads_agree {wire : Sign1Wire} {read : CoseSign1Structural} {cose : CoseSign1Decoded}
    (hread : ReadsStructural wire read) (hcose : ReadsHeaders wire cose) :
    read.payloadPresent = cose.payload.isSome ∧ read.alg = cose.protectedHeader.alg ∧
      read.kid = cose.protectedHeader.kid := by
  refine ⟨?_, ?_, ?_⟩
  · rw [hread.payload, hcose.payload]
  · rw [CoseSign1Structural.alg, bind_intValue, header_bind_eq, hread.header, CoseHeader.alg,
      coseHeaderLabelAlg, getInt_of_read hcose.header (by omega) (by omega)]
  · rw [CoseSign1Structural.kid, header_bind_eq, hread.header, CoseHeader.kid,
      coseHeaderLabelKid, getInt_of_read hcose.header (by omega) (by omega)]

/-- Whenever the bytes have the parts of a COSE_Sign1, its headers are labelled. -/
def Sign1Labelled (bytes : List UInt8) : Prop :=
  ∀ wire : Sign1Wire, decodeCanonicalCbor bytes = .ok wire.toCbor → wire.Labelled

theorem readersAgree_iff (bytes : List UInt8) : ReadersAgree bytes ↔ Sign1Labelled bytes := by
  constructor
  · intro h wire hwire
    obtain ⟨read, hstructural, -⟩ := exists_readsStructural hwire
    rw [ReadersAgree, hstructural] at h
    cases hdecode : decodeCoseSign1 bytes with
    | error e =>
        rw [hdecode] at h
        exact h.elim
    | ok cose =>
        obtain ⟨wire', hwire', hcose⟩ := decodeCoseSign1_eq_ok hdecode
        rw [hwire, Except.ok.injEq] at hwire'
        rw [Sign1Wire.toCbor_injective hwire']
        exact hcose.labelled
  · intro h
    rw [ReadersAgree]
    cases hstructural : decodeCoseSign1Structural bytes with
    | ok read =>
        obtain ⟨wire, hwire, hread⟩ := decodeStructural_eq_ok hstructural
        obtain ⟨cose, hdecode, hcose⟩ := exists_readsHeaders hwire (h wire hwire)
        rw [hdecode]
        exact reads_agree hread hcose
    | error e =>
        cases hdecode : decodeCoseSign1 bytes with
        | error e' => trivial
        | ok cose =>
            obtain ⟨wire, hwire, -⟩ := decodeCoseSign1_eq_ok hdecode
            obtain ⟨read, hread, -⟩ := exists_readsStructural hwire
            rw [hstructural] at hread
            cases hread

/-! ## COSE_Key -/

/-- A key that the inspection takes is parsed to the bytes at its label -2. -/
def KeyReadersAgree (blob : List UInt8) : Prop :=
  ∀ i path, inspectCoseKey blob i path = none →
    ∃ key, parseCoseKeyEd25519 blob = some key ∧
      ∃ pairs, decodeCanonicalCbor blob = .ok (.map pairs) ∧
        intKeyedGet pairs (-2) = some (.bytes key.val)

/-- Whenever the bytes are a COSE_Key, its keys are labels and its algorithm, if there is one,
is EdDSA. -/
def CoseKeyLabelled (blob : List UInt8) : Prop :=
  IsCoseKey blob → ∀ pairs, decodeCanonicalCbor blob = .ok (.map pairs) →
    LabelKeyed pairs ∧ OptionalField (fun v => v = .negative 7) (intKeyedGet pairs 3)

theorem keyReadersAgree_iff (blob : List UInt8) : KeyReadersAgree blob ↔ CoseKeyLabelled blob := by
  constructor
  · intro h hkey pairs hdecode
    obtain ⟨key, hparse, -⟩ := h 0 [] (inspectCoseKey_eq_none_iff.mpr hkey)
    obtain ⟨pairs', hdecode', hlabels, -, -, halg, -⟩ := parseCoseKey_eq_some_iff.mp hparse
    rw [hdecode, Except.ok.injEq, CborValue.map.injEq] at hdecode'
    subst hdecode'
    exact ⟨hlabels, halg⟩
  · intro h i path hinspect
    have hkey := inspectCoseKey_eq_none_iff.mp hinspect
    obtain ⟨pairs, hdecode, -, hkty, hcrv, v, hx, b, hv, hlength⟩ := id hkey
    obtain ⟨hlabels, halg⟩ := h hkey pairs hdecode
    rw [hv] at hx
    exact ⟨⟨b, hlength⟩, parseCoseKey_eq_some_iff.mpr ⟨pairs, hdecode, hlabels, hkty, hcrv, halg, hx⟩,
      pairs, hdecode, hx⟩

/-! ## The signature step -/

section Entry
variable {entry : SigEntry} {header : List (CborValue × CborValue)} {crypto : SignaturePrimitives}
  {i : ℕ} {recordBody : List UInt8} {network : CardanoNetwork}

theorem sign1Labelled_of_decodes {bytes : List UInt8} {cose : CoseSign1Decoded}
    (h : decodeCoseSign1 bytes = .ok cose) : Sign1Labelled bytes := by
  obtain ⟨wire, hwire, hcose⟩ := decodeCoseSign1_eq_ok h
  intro wire' hwire'
  rw [hwire, Except.ok.injEq] at hwire'
  rw [← Sign1Wire.toCbor_injective hwire']
  exact hcose.labelled

/-- A detached signature that decodes is never called malformed. -/
theorem verify_ne_malformed {cose : CoseSign1Decoded} {message : List UInt8}
    (hdecode : decodeCoseSign1 message = .ok cose) (hpayload : cose.payload = none)
    (key : Option (List UInt8)) {code : CoseVerifyErrorCode}
    (h : coseSign1Label309Verify crypto message recordBody key = .err code) :
    mapVerifyError code ≠ .malformedSigCoseSign1 := by
  simp only [coseSign1Label309Verify, hdecode, hpayload, Option.isSome_none, Bool.false_eq_true,
    if_false] at h
  split_ifs at h with halg
  · cases h
    decide
  · split at h
    · cases h
      decide
    · split_ifs at h
      cases h
      decide

/-- A valid entry is called malformed by the signature step just if its headers are not
labelled. -/
theorem reason_malformed_iff (h : IsDetachedSign1 entry.coseSign1 header) :
    (verifyOne crypto i entry recordBody network).reason = some .malformedSigCoseSign1 ↔
      ¬ Sign1Labelled entry.coseSign1 := by
  rw [verifyOne.eq_def]
  cases hdecode : decodeCoseSign1 entry.coseSign1 with
  | error e =>
      simp only [true_iff]
      intro hlabelled
      obtain ⟨read, hread, -⟩ := isDetachedSign1_iff.mp h
      obtain ⟨wire, hwire, -⟩ := decodeStructural_eq_ok hread
      obtain ⟨cose, hcose, -⟩ := exists_readsHeaders hwire (hlabelled wire hwire)
      rw [hdecode] at hcose
      cases hcose
  | ok cose =>
      have hlabelled := sign1Labelled_of_decodes hdecode
      have hpayload := payload_of_detached h hdecode
      simp only [hlabelled, not_true_eq_false, iff_false]
      cases resolveSignerKey cose entry with
      | none => simp
      | some resolved =>
          dsimp only
          rw [verifyResolved.eq_def]
          cases hverify : coseSign1Label309Verify crypto entry.coseSign1 recordBody
              (some resolved.1.val) with
          | err code =>
              simpa using verify_ne_malformed hdecode hpayload _ hverify
          | ok key alg =>
              dsimp only
              split_ifs <;> simp

end Entry

/-- The record is accepted, and no entry of it is called malformed in the signature step. -/
def NoLateMalformed (crypto : SignaturePrimitives) (network : CardanoNetwork)
    (options : ValidatorOptions) (b : List UInt8) : Prop :=
  ∀ record warnings info, validatePoeRecord b options = .ok record warnings info →
    ∀ check ∈ verifyRecordSignatures crypto record network,
      check.reason ≠ some .malformedSigCoseSign1

theorem noLateMalformed_iff (crypto : SignaturePrimitives) (network : CardanoNetwork)
    (options : ValidatorOptions) (b : List UInt8) :
    NoLateMalformed crypto network options b ↔
      ∀ record warnings info, validatePoeRecord b options = .ok record warnings info →
        ∀ entry ∈ record.sigs.getD [], Sign1Labelled entry.coseSign1 := by
  rw [NoLateMalformed]
  refine forall_congr' fun record => forall_congr' fun warnings => forall_congr' fun info =>
    forall_congr' fun hvalid => ?_
  have hdetached := fun entry => @exists_detached record b warnings info options hvalid entry
  rw [verifyRecordSignatures]
  constructor
  · intro h entry hentry
    obtain ⟨header, hheader⟩ := hdetached entry hentry
    obtain ⟨i, hi, hget⟩ := List.getElem_of_mem hentry
    by_contra hnot
    refine h _ (List.mem_mapIdx.mpr ⟨i, hi, rfl⟩) ?_
    rw [hget]
    exact (reason_malformed_iff hheader).mpr hnot
  · intro h check hcheck hreason
    obtain ⟨i, hi, hget⟩ := List.mem_mapIdx.mp hcheck
    have hentry := List.getElem_mem hi
    obtain ⟨header, hheader⟩ := hdetached _ hentry
    rw [← hget] at hreason
    exact (reason_malformed_iff hheader).mp hreason (h _ hentry)

/-- **When the two readers agree.** On a COSE_Sign1 they agree exactly when its headers have
integer and text keys only, on a COSE_Key exactly when that holds of its map and its algorithm
is absent or EdDSA; and no accepted record fails the signature step as malformed exactly when
the headers of its entries have such keys. -/
theorem cose_readers_agree_iff (bytes blob : List UInt8) (crypto : SignaturePrimitives)
    (network : CardanoNetwork) (options : ValidatorOptions) (b : List UInt8) :
    (ReadersAgree bytes ↔ Sign1Labelled bytes) ∧
      (KeyReadersAgree blob ↔ CoseKeyLabelled blob) ∧
      (NoLateMalformed crypto network options b ↔
        ∀ record warnings info, validatePoeRecord b options = .ok record warnings info →
          ∀ entry ∈ record.sigs.getD [], Sign1Labelled entry.coseSign1) :=
  ⟨readersAgree_iff bytes, keyReadersAgree_iff blob,
    noLateMalformed_iff crypto network options b⟩

/-! ## A key that is no label -/

/-- A detached signature whose unprotected header has a byte-string key. -/
def bytesKeyCoseSign1 : List UInt8 :=
  [0x84, 0x43, 0xa1, 0x01, 0x27, 0xa1, 0x40, 0x00, 0xf6, 0x58, 0x40] ++ List.replicate 64 0

/-- A COSE_Key of the right shape whose algorithm is ES256. -/
def es256CoseKey : List UInt8 :=
  [0xa4, 0x01, 0x01, 0x03, 0x26, 0x20, 0x06, 0x21, 0x58, 0x20] ++ List.replicate 32 0

set_option maxRecDepth 4000 in
/-- The validator's readers take both, and the verifier's refuse them. A record with such a
signature is accepted and then fails as malformed. -/
theorem cose_readers_disagree :
    ¬ ReadersAgree bytesKeyCoseSign1 ∧ ¬ KeyReadersAgree es256CoseKey ∧
      ¬ NoLateMalformed sampleCrypto .mainnet signedInput.validatorOptions
        (recordWithSig bytesKeyCoseSign1) := by
  refine ⟨?_, ?_, ?_⟩
  · intro h
    exact h
  · intro h
    obtain ⟨key, hkey, -⟩ := h 0 [] rfl
    cases hkey
  · intro h
    exact h (typedWithSig bytesKeyCoseSign1) [] [] rfl _ List.mem_cons_self rfl

end Label309
