import Label309.CoseWire
import Label309.PoeStandard.Validity
import Label309.SigStructure
import Label309.Verifier.Signatures

/-!
# A valid signature verdict is sound

An entry is reported valid for a signer exactly when the signer's key is the one the
entry names and that key verifies the signature over the record body. The verdict
reads nothing else of the record.
-/
namespace Label309
open ExceptBind

/-! ## The signer of an entry -/

/-- An OKP, Ed25519 COSE_Key with this public key. Its algorithm, if any, is EdDSA. -/
def IsEd25519CoseKey (blob : List UInt8) (key : FixedBytes 32) : Prop :=
  ∃ pairs, decodeCanonicalCbor blob = .ok (.map pairs) ∧ LabelKeyed pairs ∧
    intKeyedGet pairs 1 = some (.unsigned 1) ∧ intKeyedGet pairs (-1) = some (.unsigned 6) ∧
    OptionalField (fun v => v = .negative 7) (intKeyedGet pairs 3) ∧
    intKeyedGet pairs (-2) = some (.bytes key.val)

/-- The key an entry names: the protected `kid` without `cose_key`, else the key of
`cose_key` with the protected address bound to it. -/
def NamesKey (crypto : SignaturePrimitives) (network : CardanoNetwork) (sign : WireSign1)
    (key : FixedBytes 32) : Option (List UInt8) → Prop
  | none => intKeyedGet sign.header 4 = some (.bytes key.val)
  | some blob => IsEd25519CoseKey blob key ∧
      mapGet sign.header "address" =
        some (.bytes (stakeNetworkHeader network :: (crypto.blake2b224 key.val).val))

/-- A detached EdDSA signature over the record body by the key that the entry names. -/
structure SignedBy (crypto : SignaturePrimitives) (network : CardanoNetwork)
    (recordBody : List UInt8) (entry : SigEntry) (key : FixedBytes 32) (sign : WireSign1) :
    Prop where
  decodes : decodeCanonicalCbor entry.coseSign1 = .ok sign.toCbor
  alg : intKeyedGet sign.header 1 = some (.negative 7)
  namesKey : NamesKey crypto network sign key entry.coseKey
  verifies : crypto.verifyStrict key
    (signedStructure crypto sign.hashed sign.protectedBytes recordBody) sign.signature = true

/-- The check of an entry found it valid with this signer. -/
def ReportsSigner (check : SignatureCheck) (key : FixedBytes 32) : Prop :=
  check.valid = true ∧ check.signerPub = some (hexEncode key.val)

theorem hexEncode_inj {key key' : FixedBytes 32} :
    hexEncode key.val = hexEncode key'.val ↔ key = key' :=
  ⟨fun h => Subtype.ext (hexEncode_injective h), fun h => by rw [h]⟩

/-! ## Key resolution -/

theorem parseCoseKey_eq_some_iff {blob : List UInt8} {key : FixedBytes 32} :
    parseCoseKeyEd25519 blob = some key ↔ IsEd25519CoseKey blob key := by
  unfold parseCoseKeyEd25519 IsEd25519CoseKey
  cases hdecode : decodeCanonicalCbor blob with
  | error e => simp
  | ok decoded =>
      cases decoded with
      | map pairs =>
          simp only [Except.ok.injEq, CborValue.map.injEq, exists_eq_left']
          cases hread : CoseHeader.fromCborMap (.map pairs) with
          | none =>
              have hlabels : ¬ LabelKeyed pairs := by
                intro hlabels
                obtain ⟨header, hheader⟩ := exists_fromCborMap hlabels
                rw [hread] at hheader
                cases hheader
              simp [hlabels]
          | some header =>
              have hlabels := labelKeyed_of_read hread
              have hkty : cborIntValue (header.getInt 1) = some 1 ↔
                  intKeyedGet pairs 1 = some (.unsigned 1) := by
                rw [getInt_of_read hread (by omega) (by omega)]
                exact @cborIntValue_eq_natCast_iff _ 1 (by decide)
              have hcrv : cborIntValue (header.getInt (-1)) = some 6 ↔
                  intKeyedGet pairs (-1) = some (.unsigned 6) := by
                rw [getInt_of_read hread (by omega) (by omega)]
                exact @cborIntValue_eq_natCast_iff _ 6 (by decide)
              have halg : OptionalField (fun v => v = .negative 7) (intKeyedGet pairs 3) ↔
                  ¬ ((header.getInt 3).isSome = true ∧
                    cborIntValue (header.getInt 3) ≠ some (-8)) := by
                rw [ne_eq, cborIntValue_eq_neg_eight_iff,
                  getInt_of_read hread (by omega) (by omega)]
                cases intKeyedGet pairs 3 <;> simp [OptionalField]
              have hx : cborFixedBytes 32 (header.getInt (-2)) = some key ↔
                  intKeyedGet pairs (-2) = some (.bytes key.val) := by
                rw [getInt_of_read hread (by omega) (by omega), cborFixedBytes_eq_some_iff]
              rw [← hkty, ← hcrv, ← hx, halg]
              by_cases h1 : cborIntValue (header.getInt 1) = some 1
              · by_cases h2 : cborIntValue (header.getInt (-1)) = some 6
                · by_cases h3 : (header.getInt 3).isSome = true ∧
                      cborIntValue (header.getInt 3) ≠ some (-8)
                  · simp only [h1, h2, h3, ne_eq, not_true_eq_false, if_false, if_true, reduceCtorEq,
                      not_false_eq_true, and_self, false_and, and_false]
                  · simp only [h1, h2, h3, hlabels, ne_eq, not_true_eq_false, if_false,
                      not_false_eq_true, true_and]
                · simp [h1, h2]
              · simp [h1]
      | _ => simp [CoseHeader.fromCborMap]

theorem entryAddress_eq_some {p : CborValue × CborValue} {address : List UInt8} :
    entryAddress p = some address ↔ p = (.text "address", .bytes address) := by
  obtain ⟨k, v⟩ := p
  cases k with
  | text t =>
      cases v with
      | bytes b => by_cases ht : t = "address" <;> simp [entryAddress, ht]
      | _ => simp [entryAddress]
  | _ => simp [entryAddress]

/-- The keys of a decoded header are distinct. -/
theorem IsProtectedHeader.nodup {protectedBytes : List UInt8}
    {header : List (CborValue × CborValue)} (h : IsProtectedHeader protectedBytes header) :
    (header.map Prod.fst).Nodup := by
  rcases h with ⟨-, rfl⟩ | ⟨-, hdecode⟩
  · exact List.nodup_nil
  · exact nodup_keys_of_encodes (encode_of_decode hdecode)

theorem protectedHeaderAddress_eq_some_iff {sign : WireSign1} {cose : CoseSign1Decoded}
    (h : sign.Reads cose) {address : List UInt8} :
    protectedHeaderAddress cose = some address ↔
      mapGet sign.header "address" = some (.bytes address) := by
  have hnodup := sign.isHeader.nodup
  rw [← mem_iff_mapGet hnodup, protectedHeaderAddress, toCbor_of_read h.header]
  dsimp only
  constructor
  · intro hfound
    obtain ⟨p, hp, haddress⟩ := List.exists_of_findSome?_eq_some hfound
    rwa [entryAddress_eq_some.mp haddress] at hp
  · intro hmem
    have hsome : (sign.header.findSome? entryAddress).isSome := by
      rw [List.findSome?_isSome_iff]
      exact ⟨_, hmem, by rw [entryAddress_eq_some.mpr rfl, Option.isSome_some]⟩
    obtain ⟨found, hfound⟩ := Option.isSome_iff_exists.mp hsome
    obtain ⟨p, hp, haddress⟩ := List.exists_of_findSome?_eq_some hfound
    rw [entryAddress_eq_some.mp haddress] at hp
    have heq := List.inj_on_of_nodup_map hnodup hp hmem rfl
    rw [hfound]
    cases heq
    rfl

/-- The address of a wallet key must be the whole stake address of the network. -/
theorem walletAddressBindsPubkey_iff {crypto : SignaturePrimitives} {sign : WireSign1}
    {cose : CoseSign1Decoded} (h : sign.Reads cose) {key : FixedBytes 32}
    {network : CardanoNetwork} :
    walletAddressBindsPubkey crypto cose key network = true ↔
      mapGet sign.header "address" =
        some (.bytes (stakeNetworkHeader network :: (crypto.blake2b224 key.val).val)) := by
  rw [← protectedHeaderAddress_eq_some_iff h, walletAddressBindsPubkey]
  have hlength : (stakeNetworkHeader network :: (crypto.blake2b224 key.val).val).length = 29 := by
    rw [List.length_cons, (crypto.blake2b224 key.val).property]
  cases protectedHeaderAddress cose with
  | none => simp
  | some address =>
      by_cases haddress : address.length = 29
      · simp only [haddress, ne_eq, not_true_eq_false, if_false, beq_iff_eq, Option.some.injEq]
        exact eq_comm
      · have hne : address ≠ stakeNetworkHeader network :: (crypto.blake2b224 key.val).val := by
          intro heq
          exact haddress (heq ▸ hlength)
        simp [haddress, hne]

/-! ## The verdict of an entry -/

/-- At most one way of naming the key: no 32-byte `kid` beside a `cose_key`. -/
def OneKeyPath (entry : SigEntry) : Prop :=
  entry.coseKey.isSome → ∀ sign : WireSign1, decodeCanonicalCbor entry.coseSign1 = .ok sign.toCbor →
    ¬ Required (BytesOf 32) (intKeyedGet sign.header 4)

theorem kid_eq_none_iff {sign : WireSign1} {cose : CoseSign1Decoded} (h : sign.Reads cose) :
    cose.protectedHeader.kid = none ↔ ¬ Required (BytesOf 32) (intKeyedGet sign.header 4) := by
  rw [← Option.not_isSome_iff_eq_none, not_iff_not, Option.isSome_iff_exists]
  simp only [kid_eq_some_iff h.header, Required, BytesOf]
  constructor
  · intro hkid
    obtain ⟨key, hkey⟩ := hkid
    exact ⟨_, hkey, key.val, rfl, key.property⟩
  · rintro ⟨v, hv, b, rfl, hb⟩
    exact ⟨⟨b, hb⟩, hv⟩

/-- With a key agreed by both sides, verification is the last check alone. -/
theorem coseVerify_eq_ok_iff {crypto : SignaturePrimitives} {message recordBody : List UInt8}
    {sign : WireSign1} {cose : CoseSign1Decoded} {key : FixedBytes 32}
    (hdecode : decodeCoseSign1 message = .ok cose) (h : sign.Reads cose)
    (hkid : cose.protectedHeader.kid = some key ∨ cose.protectedHeader.kid = none) :
    (∃ signer alg, coseSign1Label309Verify crypto message recordBody (some key.val) =
        .ok signer alg) ↔
      intKeyedGet sign.header 1 = some (.negative 7) ∧
        crypto.verifyStrict key
          (signedStructure crypto sign.hashed sign.protectedBytes recordBody)
          sign.signature = true := by
  have hresolve : resolveVerifyKey cose.protectedHeader.kid ((some key.val).bind (toFixed 32)) =
      some key := by
    rw [Option.bind_some, toFixed_val]
    rcases hkid with hkid | hkid
    · simp [hkid, resolveVerifyKey]
    · simp [hkid, resolveVerifyKey]
  rw [← alg_eq_eddsa_iff h.header]
  simp only [coseSign1Label309Verify, hdecode, h.payload, Option.isSome_none, Bool.false_eq_true,
    if_false, hresolve, ed25519Verify, toFixed_val, h.signature, h.protectedBytes,
    WireSign1.hashedMode_eq h]
  by_cases halg : cose.protectedHeader.alg = some coseAlgEddsa
  · simp only [halg, ne_eq, not_true_eq_false, if_false, true_and]
    cases crypto.verifyStrict key
      (signedStructure crypto sign.hashed sign.protectedBytes recordBody) sign.signature <;> simp
  · simp [halg]

/-- A resolved key is reported as the signer when it verifies and binds its address. -/
theorem reportsSigner_verifyResolved {crypto : SignaturePrimitives} {index : ℕ} {entry : SigEntry}
    {cose : CoseSign1Decoded} {pubKey key : FixedBytes 32} {signerType : SignerType}
    {recordBody : List UInt8} {network : CardanoNetwork} :
    ReportsSigner (verifyResolved crypto index entry cose pubKey signerType recordBody network) key ↔
      pubKey = key ∧
        (∃ signer alg, coseSign1Label309Verify crypto entry.coseSign1 recordBody (some pubKey.val) =
          .ok signer alg) ∧
        (signerType = .walletInlineKey →
          walletAddressBindsPubkey crypto cose pubKey network = true) := by
  unfold verifyResolved ReportsSigner
  cases coseSign1Label309Verify crypto entry.coseSign1 recordBody (some pubKey.val) with
  | err code => simp
  | ok signer alg =>
      by_cases hwallet : signerType = .walletInlineKey ∧
          walletAddressBindsPubkey crypto cose pubKey network = false
      · simp [hwallet]
      · simp only [hwallet, if_false, Option.some.injEq, hexEncode_inj, true_and]
        grind

/-- Only a detached payload verifies. -/
theorem payload_of_coseVerify {crypto : SignaturePrimitives} {message recordBody : List UInt8}
    {cose : CoseSign1Decoded} {expected : Option (List UInt8)} {signer : FixedBytes 32} {alg : ℤ}
    (hdecode : decodeCoseSign1 message = .ok cose)
    (hverify : coseSign1Label309Verify crypto message recordBody expected = .ok signer alg) :
    cose.payload = none := by
  simp only [coseSign1Label309Verify, hdecode] at hverify
  by_cases hpayload : cose.payload.isSome
  · simp [hpayload] at hverify
  · exact Option.not_isSome_iff_eq_none.mp hpayload

/-- What a report of a signer rests on, check by check. -/
theorem reportsSigner_verifyOne {crypto : SignaturePrimitives} {index : ℕ} {entry : SigEntry}
    {recordBody : List UInt8} {network : CardanoNetwork} {key : FixedBytes 32} :
    ReportsSigner (verifyOne crypto index entry recordBody network) key ↔
      ∃ cose signerType, decodeCoseSign1 entry.coseSign1 = .ok cose ∧
        resolveSignerKey cose entry = some (key, signerType) ∧
        (∃ signer alg, coseSign1Label309Verify crypto entry.coseSign1 recordBody (some key.val) =
          .ok signer alg) ∧
        (signerType = .walletInlineKey →
          walletAddressBindsPubkey crypto cose key network = true) := by
  unfold verifyOne
  cases decodeCoseSign1 entry.coseSign1 with
  | error e => simp [ReportsSigner]
  | ok cose =>
      cases hresolve : resolveSignerKey cose entry with
      | none => simp [hresolve, ReportsSigner]
      | some resolved =>
          obtain ⟨pubKey, signerType⟩ := resolved
          simp only [hresolve, reportsSigner_verifyResolved, Except.ok.injEq]
          constructor
          · rintro ⟨rfl, hverify, hbinds⟩
            exact ⟨cose, signerType, rfl, hresolve, hverify, hbinds⟩
          · rintro ⟨_, _, rfl, hresolved, hverify, hbinds⟩
            rw [hresolve] at hresolved
            cases hresolved
            exact ⟨rfl, hverify, hbinds⟩

/-- The resolved key with its bound address is the key the entry names. -/
theorem namesKey_iff {crypto : SignaturePrimitives} {network : CardanoNetwork} {sign : WireSign1}
    {cose : CoseSign1Decoded} (h : sign.Reads cose) {entry : SigEntry} {key : FixedBytes 32} :
    NamesKey crypto network sign key entry.coseKey ↔
      ∃ signerType, resolveSignerKey cose entry = some (key, signerType) ∧
        (signerType = .walletInlineKey →
          walletAddressBindsPubkey crypto cose key network = true) := by
  simp only [walletAddressBindsPubkey_iff h, resolveSignerKey]
  cases entry.coseKey with
  | none =>
      rw [NamesKey, ← kid_eq_some_iff h.header]
      cases cose.protectedHeader.kid <;> simp
  | some blob =>
      rw [NamesKey, ← parseCoseKey_eq_some_iff]
      cases hparse : parseCoseKeyEd25519 blob with
      | none => simp [hparse]
      | some parsed =>
          simp only [hparse, Option.map_some, Option.some.injEq, Prod.mk.injEq]
          grind

/-- On one key path a resolved key is never contradicted by a `kid`. -/
theorem kid_agrees {entry : SigEntry} (hone : OneKeyPath entry) {sign : WireSign1}
    {cose : CoseSign1Decoded} (hcbor : decodeCanonicalCbor entry.coseSign1 = .ok sign.toCbor)
    (h : sign.Reads cose) {key : FixedBytes 32} {signerType : SignerType}
    (hresolve : resolveSignerKey cose entry = some (key, signerType)) :
    cose.protectedHeader.kid = some key ∨ cose.protectedHeader.kid = none := by
  cases hkey : entry.coseKey with
  | none =>
      left
      simp only [resolveSignerKey, hkey, Option.map_eq_some_iff, Prod.mk.injEq] at hresolve
      obtain ⟨kid, hkid, rfl, -⟩ := hresolve
      exact hkid
  | some blob =>
      right
      exact (kid_eq_none_iff h).mpr (hone (by simp [hkey]) sign hcbor)

/-- **An entry is reported valid for exactly the signer that signed it.** -/
theorem verifyOne_reports_iff {crypto : SignaturePrimitives} {index : ℕ} {entry : SigEntry}
    {recordBody : List UInt8} {network : CardanoNetwork} {key : FixedBytes 32}
    (hone : OneKeyPath entry) :
    ReportsSigner (verifyOne crypto index entry recordBody network) key ↔
      ∃ sign, SignedBy crypto network recordBody entry key sign := by
  rw [reportsSigner_verifyOne]
  constructor
  · intro ⟨cose, signerType, hdecode, hresolve, hverify, hbinds⟩
    obtain ⟨signer, alg, hok⟩ := hverify
    have hpayload := payload_of_coseVerify hdecode hok
    obtain ⟨sign, hcbor, hreads⟩ := decodeSign1_detached_iff.mp ⟨hdecode, hpayload⟩
    have hkid := kid_agrees hone hcbor hreads hresolve
    obtain ⟨halg, hverifies⟩ := (coseVerify_eq_ok_iff hdecode hreads hkid).mp ⟨signer, alg, hok⟩
    have hnames := (namesKey_iff hreads).mpr ⟨signerType, hresolve, hbinds⟩
    exact ⟨sign, hcbor, halg, hnames, hverifies⟩
  · intro ⟨sign, hsigned⟩
    obtain ⟨cose, hreads⟩ := exists_reads sign
    have hdecode := (decodeSign1_detached_iff.mpr ⟨sign, hsigned.decodes, hreads⟩).1
    obtain ⟨signerType, hresolve, hbinds⟩ := (namesKey_iff hreads).mp hsigned.namesKey
    have hkid := kid_agrees hone hsigned.decodes hreads hresolve
    have hverify := (coseVerify_eq_ok_iff hdecode hreads hkid).mpr
      ⟨hsigned.alg, hsigned.verifies⟩
    exact ⟨cose, signerType, hdecode, hresolve, hverify, hbinds⟩

/-! ## Records -/

theorem sigs_of_recordFromCbor {pairs : List (CborValue × CborValue)} {record : PoeRecord}
    (h : recordFromCbor (.map pairs) = some record) :
    arrayFromCbor (mapGet pairs "sigs") sigFromCbor = some record.sigs := by
  simp only [recordFromCbor, asMap, Option.bind_eq_bind, Option.bind_eq_some_iff,
    Option.some.injEq, exists_eq_left'] at h
  obtain ⟨v, -, items, -, merkle, -, sigs, hsigs, crit, -, rfl⟩ := h
  exact hsigs

/-- The entries of an accepted record name their key in one way. -/
theorem oneKeyPath_of_accepted {b : List UInt8} {options : ValidatorOptions} {record : PoeRecord}
    {warnings info : List ValidationIssue}
    (h : validatePoeRecord b options = .ok record warnings info) {entry : SigEntry}
    (hentry : entry ∈ record.sigs.getD []) : OneKeyPath entry := by
  obtain ⟨pairs, -, hgrammar, hrecord⟩ := grammar_of_accepted h
  have hsigs := sigs_of_recordFromCbor hrecord
  cases hfield : mapGet pairs "sigs" with
  | none =>
      simp only [hfield, arrayFromCbor, Option.some.injEq] at hsigs
      rw [← hsigs] at hentry
      cases hentry
  | some v =>
      obtain ⟨entries, rfl, -, hall⟩ := hgrammar.sigs v hfield
      simp only [hfield, arrayFromCbor, Option.map_eq_some_iff] at hsigs
      obtain ⟨sigs, hread, hsome⟩ := hsigs
      rw [← hsome, Option.getD_some] at hentry
      obtain ⟨e, he, hsig⟩ := exists_of_mapM_eq_some hread hentry
      obtain ⟨map, rfl, -, coseBytes, header, hcose, hsign, hkey⟩ := hall e he
      simp only [sigFromCbor, asMap, Option.bind_eq_bind, Option.bind_some, hcose, asBytes,
        Option.some.injEq] at hsig
      subst hsig
      intro hsome sign hdecode
      obtain ⟨value, hvalue⟩ : ∃ value, mapGet map "cose_key" = some value := by
        cases hget : mapGet map "cose_key" with
        | none => simp [hget] at hsome
        | some value => exact ⟨value, rfl⟩
      obtain ⟨_, _, _, hnoKid⟩ := hkey value hvalue
      obtain ⟨protectedBytes, unprotected, signature, hdecode', -, hheader⟩ := hsign
      rw [hdecode] at hdecode'
      simp only [WireSign1.toCbor, Except.ok.injEq, CborValue.array.injEq, List.cons.injEq,
        CborValue.bytes.injEq] at hdecode'
      have heq : sign.header = header := by
        refine sign.isHeader.unique ?_
        rw [hdecode'.1]
        exact hheader
      rwa [heq]

/-- The signing body of an accepted record exists and is longer than three bytes. -/
theorem signedRecordBody_of_accepted {b : List UInt8} {options : ValidatorOptions}
    {record : PoeRecord} {warnings info : List ValidationIssue}
    (h : validatePoeRecord b options = .ok record warnings info) :
    encodeRecordBodyForSigning record = .ok (signedRecordBody record) ∧
      3 < (signedRecordBody record).length := by
  obtain ⟨pairs, hdecode, hgrammar, -⟩ := grammar_of_accepted h
  obtain ⟨body, hbody, hsign⟩ := signingBody_eq h hdecode
  have hversion : (CborValue.text "v", CborValue.unsigned 1) ∈ withoutSigs pairs :=
    mem_withoutSigs.mpr ⟨mem_of_mapGet hgrammar.v, by simp⟩
  have hlt := @lt_length_encode _ _ hbody _ hversion [0x61, 0x76] [1] rfl rfl
  rw [signedRecordBody, hsign]
  exact ⟨rfl, hlt⟩

/-! ## Verdicts -/

/-- The same outcome, whatever the position it is reported at. -/
def SameVerdict (check check' : SignatureCheck) : Prop :=
  { check with index := 0 } = { check' with index := 0 }

/-- Two decoded signatures that differ at most in the rest of the unprotected header. -/
structure SameSignedParts (cose cose' : CoseSign1Decoded) : Prop where
  protectedHeader : cose.protectedHeader = cose'.protectedHeader
  protectedBytes : cose.protectedBytes = cose'.protectedBytes
  hashed : hashedMode cose.unprotectedHeader = hashedMode cose'.unprotectedHeader
  payload : cose.payload = cose'.payload
  signature : cose.signature = cose'.signature

theorem sameVerdict_verifyResolved {crypto : SignaturePrimitives} {i j : ℕ}
    {entry entry' : SigEntry} {cose cose' : CoseSign1Decoded} {pubKey : FixedBytes 32}
    {signerType : SignerType} {recordBody : List UInt8} {network : CardanoNetwork}
    (hverify : coseSign1Label309Verify crypto entry.coseSign1 recordBody (some pubKey.val) =
      coseSign1Label309Verify crypto entry'.coseSign1 recordBody (some pubKey.val))
    (hbinds : walletAddressBindsPubkey crypto cose pubKey network =
      walletAddressBindsPubkey crypto cose' pubKey network) :
    SameVerdict (verifyResolved crypto i entry cose pubKey signerType recordBody network)
      (verifyResolved crypto j entry' cose' pubKey signerType recordBody network) := by
  unfold verifyResolved SameVerdict
  rw [← hverify, ← hbinds]
  cases coseSign1Label309Verify crypto entry.coseSign1 recordBody (some pubKey.val) with
  | err code => rfl
  | ok signer alg => split_ifs <;> rfl

/-- The verdict reads the signed parts and the `cose_key` of its own entry only. -/
theorem sameVerdict_of_sameSignedParts {crypto : SignaturePrimitives} {i j : ℕ}
    {entry entry' : SigEntry} {cose cose' : CoseSign1Decoded}
    (hdecode : decodeCoseSign1 entry.coseSign1 = .ok cose)
    (hdecode' : decodeCoseSign1 entry'.coseSign1 = .ok cose') (h : SameSignedParts cose cose')
    (hkey : entry.coseKey = entry'.coseKey) (recordBody : List UInt8) (network : CardanoNetwork) :
    SameVerdict (verifyOne crypto i entry recordBody network)
      (verifyOne crypto j entry' recordBody network) := by
  have hresolve : resolveSignerKey cose entry = resolveSignerKey cose' entry' := by
    simp only [resolveSignerKey, hkey, h.protectedHeader]
  simp only [verifyOne, hdecode, hdecode', hresolve]
  cases resolveSignerKey cose' entry' with
  | none => rfl
  | some resolved =>
      refine sameVerdict_verifyResolved ?_ ?_
      · simp only [coseSign1Label309Verify, hdecode, hdecode', h.payload, h.protectedHeader,
          h.protectedBytes, h.hashed, h.signature]
      · simp only [walletAddressBindsPubkey, protectedHeaderAddress, h.protectedHeader]

theorem sameVerdict_verifyOne {crypto : SignaturePrimitives} {i j : ℕ} (entry : SigEntry)
    (recordBody : List UInt8) (network : CardanoNetwork) :
    SameVerdict (verifyOne crypto i entry recordBody network)
      (verifyOne crypto j entry recordBody network) := by
  cases hdecode : decodeCoseSign1 entry.coseSign1 with
  | error e =>
      simp only [verifyOne, hdecode]
      rfl
  | ok cose =>
      exact sameVerdict_of_sameSignedParts hdecode hdecode ⟨rfl, rfl, rfl, rfl, rfl⟩ rfl _ _

theorem getElem?_verifyRecordSignatures {crypto : SignaturePrimitives} {record : PoeRecord}
    {network : CardanoNetwork} {i : ℕ} :
    (verifyRecordSignatures crypto record network)[i]? =
      (record.sigs.getD [])[i]?.map fun entry =>
        verifyOne crypto i entry (signedRecordBody record) network := by
  rw [verifyRecordSignatures, List.getElem?_mapIdx]

/-- The protected bytes of a decoded signature fit a 64-bit length. -/
theorem protectedBytes_lt {bytes : List UInt8} {sign : WireSign1}
    (h : decodeCanonicalCbor bytes = .ok sign.toCbor) : sign.protectedBytes.length < 2 ^ 64 := by
  have hcanonical := (canonicalEncoding_of_decode h).2
  cases hcanonical with
  | array _ hitems =>
      cases hitems (.bytes sign.protectedBytes) (by simp) with
      | bytes hlt => exact hlt

/-- **A valid signature verdict is sound, and entries are independent.** An entry of an
accepted record is reported valid for exactly the signer that signed the record body.
Its verdict depends on no other entry, nor on the rest of its unprotected header. Signed
bytes of accepted records fix the protected bytes, the mode and the record body. -/
theorem signatureVerdict_sound (crypto : SignaturePrimitives) :
    (∀ b options record warnings info, validatePoeRecord b options = .ok record warnings info →
      encodeRecordBodyForSigning record = .ok (signedRecordBody record) ∧
      ∀ network (i : ℕ) key,
        (∃ check, (verifyRecordSignatures crypto record network)[i]? = some check ∧
          ReportsSigner check key) ↔
        ∃ entry sign, (record.sigs.getD [])[i]? = some entry ∧
          SignedBy crypto network (signedRecordBody record) entry key sign) ∧
    (∀ (record : PoeRecord) (sigs : List SigEntry) network (i j : ℕ) entry, (record.sigs.getD [])[i]? = some entry →
      sigs[j]? = some entry →
      ∃ check check', (verifyRecordSignatures crypto record network)[i]? = some check ∧
        (verifyRecordSignatures crypto { record with sigs := some sigs } network)[j]? =
          some check' ∧ SameVerdict check check') ∧
    (∀ (record : PoeRecord) (sigs : List SigEntry) network (i : ℕ) (entry entry' : SigEntry) cose
      cose',
      (record.sigs.getD [])[i]? = some entry → sigs[i]? = some entry' →
      decodeCoseSign1 entry.coseSign1 = .ok cose → decodeCoseSign1 entry'.coseSign1 = .ok cose' →
      SameSignedParts cose cose' → entry.coseKey = entry'.coseKey →
      ∃ check check', (verifyRecordSignatures crypto record network)[i]? = some check ∧
        (verifyRecordSignatures crypto { record with sigs := some sigs } network)[i]? =
          some check' ∧ SameVerdict check check') ∧
    ∀ b b' options options' record record' warnings warnings' info info' coseBytes coseBytes'
      (sign sign' : WireSign1) hashed hashed',
      validatePoeRecord b options = .ok record warnings info →
      validatePoeRecord b' options' = .ok record' warnings' info' →
      decodeCanonicalCbor coseBytes = .ok sign.toCbor →
      decodeCanonicalCbor coseBytes' = .ok sign'.toCbor →
      Set.InjOn crypto.blake2b224
        {label309ToSign (signedRecordBody record), label309ToSign (signedRecordBody record')} →
      signedStructure crypto hashed sign.protectedBytes (signedRecordBody record) =
        signedStructure crypto hashed' sign'.protectedBytes (signedRecordBody record') →
      sign.protectedBytes = sign'.protectedBytes ∧ hashed = hashed' ∧
        signedRecordBody record = signedRecordBody record' := by
  refine ⟨?_, ?_, ?_, ?_⟩
  · intro b options record warnings info h
    refine ⟨(signedRecordBody_of_accepted h).1, fun network i key => ?_⟩
    simp only [getElem?_verifyRecordSignatures, Option.map_eq_some_iff]
    constructor
    · rintro ⟨_, ⟨entry, hentry, rfl⟩, hreports⟩
      have hone := oneKeyPath_of_accepted h (List.mem_of_getElem? hentry)
      obtain ⟨sign, hsigned⟩ := (verifyOne_reports_iff hone).mp hreports
      exact ⟨entry, sign, hentry, hsigned⟩
    · intro ⟨entry, sign, hentry, hsigned⟩
      have hone := oneKeyPath_of_accepted h (List.mem_of_getElem? hentry)
      exact ⟨_, ⟨entry, hentry, rfl⟩, (verifyOne_reports_iff hone).mpr ⟨sign, hsigned⟩⟩
  · intro record sigs network i j entry hentry hentry'
    simp only [getElem?_verifyRecordSignatures, hentry, Option.getD_some, hentry',
      Option.map_some]
    exact ⟨_, _, rfl, rfl, sameVerdict_verifyOne entry _ _⟩
  · intro record sigs network i entry entry' cose cose' hentry hentry' hdecode hdecode' hsame hkey
    simp only [getElem?_verifyRecordSignatures, hentry, Option.getD_some, hentry',
      Option.map_some]
    exact ⟨_, _, rfl, rfl, sameVerdict_of_sameSignedParts hdecode hdecode' hsame hkey _ _⟩
  · intro b b' options options' record record' warnings warnings' info info' coseBytes coseBytes'
      sign sign' hashed hashed' h h' hdecode hdecode' hcollision heq
    exact signedStructure_injective (protectedBytes_lt hdecode) (protectedBytes_lt hdecode')
      (signedRecordBody_of_accepted h).2 (signedRecordBody_of_accepted h').2 hcollision heq

/-! ## A signed record -/

def sampleSigner : FixedBytes 32 :=
  ⟨[0xd0, 0x4a, 0xb2, 0x32, 0x74, 0x2b, 0xb4, 0xab, 0x3a, 0x13, 0x68, 0xbd, 0x46, 0x15, 0xe4,
      0xe6, 0xd0, 0x22, 0x4a, 0xb7, 0x1a, 0x01, 0x6b, 0xaf, 0x85, 0x20, 0xa3, 0x32, 0xc9, 0x77,
      0x87, 0x37], rfl⟩

def sampleSignerHash : FixedBytes 28 :=
  ⟨[0x5a, 0xe1, 0x93, 0xab, 0xe6, 0x94, 0xa6, 0x07, 0x53, 0x1e, 0x20, 0xf8, 0x5d, 0x83, 0x58,
      0xad, 0xe9, 0xa4, 0x74, 0xa4, 0xf4, 0x5a, 0xc4, 0xe1, 0x5e, 0x96, 0x2d, 0xa1], rfl⟩

def sampleBodyHash : List UInt8 :=
  [0x7e, 0xfe, 0xd7, 0x4b, 0xbf, 0x12, 0xf5, 0x05, 0xdb, 0x25, 0x3b, 0x98, 0x98, 0x44, 0x2a, 0x06,
    0xfb, 0x3b, 0x27, 0xcf, 0xbf, 0xa9, 0xc2, 0xab, 0x49, 0x1e, 0xcd, 0x83]

def sampleBodyDigest : FixedBytes 28 := ⟨sampleBodyHash, rfl⟩

def sampleSignature : FixedBytes 64 :=
  ⟨[0x8f, 0xbb, 0x02, 0xbc, 0xd3, 0x0a, 0xba, 0xac, 0x69, 0x14, 0x3c, 0xe9, 0x42, 0xc9, 0xe9,
      0xe1, 0xa8, 0x50, 0x6a, 0x90, 0x47, 0x05, 0x22, 0xdf, 0xb7, 0xcf, 0xdc, 0x24, 0x40, 0x60,
      0x29, 0x96, 0x19, 0x07, 0xbb, 0xf6, 0x20, 0x27, 0xd5, 0x08, 0x46, 0x4d, 0x06, 0x18, 0x8f,
      0x56, 0x65, 0x7a, 0x83, 0xef, 0x38, 0xd5, 0x5e, 0x1d, 0xbd, 0x4f, 0x4a, 0xf0, 0x21, 0xcf,
      0xb6, 0x1c, 0x6a, 0x04], rfl⟩

/-- EdDSA, and the mainnet stake address of the signer. -/
def sampleProtectedBytes : List UInt8 :=
  [0xa2, 0x01, 0x27, 0x67, 0x61, 0x64, 0x64, 0x72, 0x65, 0x73, 0x73, 0x58, 0x1d, 0xe1] ++ sampleSignerHash.val

/-- A detached signature in hashed mode. -/
def sampleCoseSign1 : List UInt8 :=
  [0x84, 0x58, 0x2a] ++ sampleProtectedBytes ++
    [0xa1, 0x66, 0x68, 0x61, 0x73, 0x68, 0x65, 0x64, 0xf5, 0xf6, 0x58, 0x40] ++
    sampleSignature.val

def sampleCoseKey : List UInt8 :=
  [0xa4, 0x01, 0x01, 0x03, 0x27, 0x20, 0x06, 0x21, 0x58, 0x20] ++ sampleSigner.val

/-- One item with one digest. -/
def sampleSignedItems : List UInt8 :=
  [0x65, 0x69, 0x74, 0x65, 0x6d, 0x73, 0x81, 0xa1, 0x66, 0x68, 0x61, 0x73, 0x68, 0x65, 0x73,
      0xa1, 0x68, 0x73, 0x68, 0x61, 0x32, 0x2d, 0x32, 0x35, 0x36, 0x58, 0x20] ++
    List.replicate 32 0

/-- A record with one wallet signature. -/
def sampleSignedBytes : List UInt8 :=
  [0xa3, 0x61, 0x76, 0x01] ++
    [0x64, 0x73, 0x69, 0x67, 0x73, 0x81, 0xa2, 0x68, 0x63, 0x6f, 0x73, 0x65, 0x5f, 0x6b, 0x65,
      0x79, 0x58, 0x2a] ++
    sampleCoseKey ++
    [0x6a, 0x63, 0x6f, 0x73, 0x65, 0x5f, 0x73, 0x69, 0x67, 0x6e, 0x31, 0x58, 0x79] ++
    sampleCoseSign1 ++ sampleSignedItems

def sampleSignedRecord : PoeRecord where
  v := 1
  items := some [{ hashes := [("sha2-256", List.replicate 32 0)], uris := none, enc := none }]
  merkle := none
  supersedes := none
  sigs := some [{ coseSign1 := sampleCoseSign1, coseKey := some sampleCoseKey }]
  crit := none
  extensions := []

def sampleWire : WireSign1 where
  protectedBytes := sampleProtectedBytes
  header := [(.unsigned 1, .negative 7),
    (.text "address", .bytes (0xe1 :: sampleSignerHash.val))]
  unprotected := [(.text "hashed", .bool true)]
  signature := sampleSignature
  isHeader := .inr ⟨by simp, rfl⟩
  headerLabels := by simp [LabelKeyed, CoseLabel.fromCbor]
  unprotectedLabels := by simp [LabelKeyed, CoseLabel.fromCbor]

/-- The primitives on the sample's inputs. -/
def sampleCrypto : SignaturePrimitives where
  verifyStrict key message signature :=
    decide (key = sampleSigner ∧ signature = sampleSignature ∧
      message = buildSigStructure sampleProtectedBytes [] sampleBodyDigest.val)
  blake2b224 input := if input = sampleSigner.val then sampleSignerHash else sampleBodyDigest

set_option maxRecDepth 4000 in
/-- The sample is reported valid for its signer, and so is signed by that key; its
entry has the same verdict alone as before itself; its signed bytes fix their parts. -/
theorem signatureVerdict_sound_sample :
    (∃ entry sign, (sampleSignedRecord.sigs.getD [])[0]? = some entry ∧
      SignedBy sampleCrypto .mainnet (signedRecordBody sampleSignedRecord) entry sampleSigner
        sign) ∧
    (∃ check check',
      (verifyRecordSignatures sampleCrypto sampleSignedRecord .mainnet)[0]? = some check ∧
        (verifyRecordSignatures sampleCrypto
          { sampleSignedRecord with sigs := some [⟨[], none⟩, ⟨sampleCoseSign1, some sampleCoseKey⟩] }
          .mainnet)[1]? = some check' ∧ SameVerdict check check') ∧
    (sampleWire.protectedBytes = sampleWire.protectedBytes ∧ true = true ∧
      signedRecordBody sampleSignedRecord = signedRecordBody sampleSignedRecord) :=
  ⟨(((signatureVerdict_sound sampleCrypto).1 sampleSignedBytes .default sampleSignedRecord [] []
      rfl).2 .mainnet 0 sampleSigner).mp ⟨_, rfl, rfl, rfl⟩,
    (signatureVerdict_sound sampleCrypto).2.1 sampleSignedRecord
      [⟨[], none⟩, ⟨sampleCoseSign1, some sampleCoseKey⟩] .mainnet 0 1
      ⟨sampleCoseSign1, some sampleCoseKey⟩ rfl rfl,
    (signatureVerdict_sound sampleCrypto).2.2.2 sampleSignedBytes sampleSignedBytes .default
      .default sampleSignedRecord sampleSignedRecord [] [] [] [] sampleCoseSign1 sampleCoseSign1
      sampleWire sampleWire true true rfl rfl rfl rfl (by simp) rfl⟩

end Label309
