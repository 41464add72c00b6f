import Label309.CoseRoundTrip
import Label309.PoeStandard.Record

/-!
# Off-host signing

The helper prepares the structure that an external signer signs, and folds the signature into an
entry of `sigs`. A record body that does not encode is replaced by no bytes.
-/
namespace Label309
open ExceptBind

/-- Why nothing is prepared or assembled. -/
inductive OffHostSignError
  | invalidPubkeyLength
  | invalidSignatureLength
  deriving DecidableEq

/-- The bytes to sign. -/
structure PreparedSigStructure where
  sigStructureBytes : List UInt8
  protectedHeaderBytes : List UInt8

/-- The bytes to sign over a digest, with the digest. -/
structure PreparedSigStructureHashed where
  sigStructureBytes : List UInt8
  protectedHeaderBytes : List UInt8
  toSignHashBytes : List UInt8

/-- The signature to put into a record. -/
structure AssembledCoseSign1 where
  coseSign1Bytes : List UInt8
  sigEntry : SigEntry

def ed25519PublicKeyLength : ℕ := 32

/-- The bytes of an encoding, no bytes for an error. -/
def unwrapOrDefault (x : Except CanonicalCborError (List UInt8)) : List UInt8 :=
  match x with
  | .ok b => b
  | .error _ => []

/-- The domain prefix and the record body. -/
def buildToSign (record : PoeRecord) : Except CanonicalCborError (List UInt8) := do
  let body ← encodeRecordBodyForSigning record
  .ok (label309ToSign body)

/-- The header that carries the public key. -/
def path1ProtectedHeader (signerPubkey : List UInt8) : CoseHeader :=
  (CoseHeader.empty.withInt 1 (.negative 7)).withInt 4 (.bytes signerPubkey)

/-- The two labels are distinct, so the error, on which the code panics, is not met. -/
def path1ProtectedHeaderBytes (signerPubkey : List UInt8) : List UInt8 :=
  unwrapOrDefault (path1ProtectedHeader signerPubkey).encodeProtected

/-- The bytes that a signer elsewhere is to sign. -/
def prepareSigStructure (record : PoeRecord) (signerPubkey : List UInt8) :
    Except OffHostSignError PreparedSigStructure :=
  if signerPubkey.length ≠ ed25519PublicKeyLength then .error .invalidPubkeyLength
  else
    let protectedHeaderBytes := path1ProtectedHeaderBytes signerPubkey
    let recordBodyCbor := unwrapOrDefault (encodeRecordBodyForSigning record)
    .ok ⟨buildLabel309SigStructure protectedHeaderBytes recordBodyCbor, protectedHeaderBytes⟩

/-- The hashed flag of the unprotected header. -/
def hashedUnprotectedHeader : CoseHeader := CoseHeader.empty.withText "hashed" (.bool true)

/-- Fold a signature into an envelope with this unprotected header. -/
def assembleWith (unprotectedHeader : CoseHeader) (signerPubkey signature : List UInt8) :
    Except OffHostSignError AssembledCoseSign1 :=
  if signerPubkey.length ≠ ed25519PublicKeyLength then .error .invalidPubkeyLength
  else if signature.length ≠ ed25519SignatureLength then .error .invalidSignatureLength
  else
    let coseSign1Bytes := unwrapOrDefault
      (encodeCoseSign1 (path1ProtectedHeader signerPubkey) unprotectedHeader none signature)
    .ok ⟨coseSign1Bytes, ⟨coseSign1Bytes, none⟩⟩

/-- The record is not looked at. -/
def assembleCoseSign1 (_ : PoeRecord) (signerPubkey signature : List UInt8) :
    Except OffHostSignError AssembledCoseSign1 :=
  assembleWith .empty signerPubkey signature

/-- The signature over the digest of a record. -/
def assembleCoseSign1Hashed (_ : PoeRecord) (signerPubkey signature : List UInt8) :
    Except OffHostSignError AssembledCoseSign1 :=
  assembleWith hashedUnprotectedHeader signerPubkey signature

section Hashed
variable (crypto : SignaturePrimitives)

/-- The bytes to sign where the record is signed by its digest. -/
def prepareSigStructureHashed (record : PoeRecord) (signerPubkey : List UInt8) :
    Except OffHostSignError PreparedSigStructureHashed :=
  if signerPubkey.length ≠ ed25519PublicKeyLength then .error .invalidPubkeyLength
  else
    let protectedHeaderBytes := path1ProtectedHeaderBytes signerPubkey
    let toSignHash := crypto.blake2b224 (unwrapOrDefault (buildToSign record))
    .ok ⟨buildSigStructure protectedHeaderBytes [] toSignHash.val, protectedHeaderBytes,
      toSignHash.val⟩

end Hashed

/-! ## The protected header -/

theorem path1_encodeProtected {pk : List UInt8} (h : pk.length = ed25519PublicKeyLength) :
    (path1ProtectedHeader pk).encodeProtected =
      .ok ([0xa2, 0x01, 0x27, 0x04, 0x58, 0x20] ++ pk) := by
  have hhead : writeTypeAndArgument 2 pk.length.toUInt64 = [0x58, 0x20] := by
    rw [h]
    rfl
  have hmap : (path1ProtectedHeader pk).toCbor =
      .map [(.unsigned 1, .negative 7), (.unsigned 4, .bytes pk)] := rfl
  have hne : (path1ProtectedHeader pk).isEmpty = false := rfl
  have hsorted : sortEntries [(.unsigned 1, .negative 7), (.unsigned 4, .bytes pk)] =
      [(.unsigned 1, .negative 7), (.unsigned 4, .bytes pk)] := rfl
  have hascending : AscendingEntries
      [(.unsigned 1, .negative 7), (.unsigned 4, .bytes pk)] := by
    rw [AscendingEntries, SortByKey.Ascending, List.pairwise_pair]
    rfl
  have hentries : EncodedEntries [(.unsigned 1, .negative 7), (.unsigned 4, .bytes pk)]
      ([0x01] ++ [0x27] ++ ([0x04] ++ (writeTypeAndArgument 2 pk.length.toUInt64 ++ pk) ++ [])) :=
    .cons rfl rfl (.cons rfl rfl .nil)
  rw [CoseHeader.encodeProtected, hne, hmap]
  refine writeValue_map_eq_ok.mpr ⟨hsorted ▸ hascending, _, hsorted ▸ hentries, ?_⟩
  have hcount : writeTypeAndArgument 5 (Nat.toUInt64 2) = [0xa2] := by decide
  rw [hhead, List.append_nil]
  show _ = writeTypeAndArgument 5 (Nat.toUInt64 2) ++ _
  rw [hcount]
  rfl

theorem path1_protectable (pk : FixedBytes 32) : (path1ProtectedHeader pk.val).Protectable where
  labels := (CoseHeader.cborLabels_empty.withInt (by omega) (by omega) _).withInt (by omega)
    (by omega) _
  fits := by
    have hlength : pk.val.length < 2 ^ 64 := by
      rw [pk.property]
      decide
    refine .map (by simp [path1ProtectedHeader, CoseHeader.withInt, CoseHeader.set,
      CoseHeader.setPairs, CoseHeader.empty]) ?_ ?_
    · intro p hp
      rcases List.mem_cons.mp hp with hp | hp
      · exact hp ▸ .unsigned _
      · exact List.mem_singleton.mp hp ▸ .unsigned _
    · intro p hp
      rcases List.mem_cons.mp hp with hp | hp
      · exact hp ▸ .negative _
      · exact List.mem_singleton.mp hp ▸ .bytes hlength
  short := by
    intro b hb
    rw [path1_encodeProtected pk.property, Except.ok.injEq] at hb
    rw [← hb, List.length_append, pk.property]
    decide

theorem path1_kid (pk : FixedBytes 32) : (path1ProtectedHeader pk.val).kid = some pk :=
  cborFixedBytes_eq_some_iff.mpr rfl

/-! ## From the signature to the record -/

section Signing
variable {crypto : SignaturePrimitives} {keys : SigningPrimitives} {seed : FixedBytes 32}

/-- An unprotected header of the helper, and the mode that it selects. -/
structure HelperHeader (header : CoseHeader) (hashed : Bool) : Prop where
  storable : header.Storable
  encodes : ∃ b, encodeCanonicalCbor header.toCbor = .ok b
  mode : hashedMode header = hashed

theorem helperHeader_empty : HelperHeader .empty false where
  storable := storable_empty
  encodes := ⟨_, rfl⟩
  mode := rfl

theorem helperHeader_hashed : HelperHeader hashedUnprotectedHeader true where
  storable :=
    { labels := CoseHeader.cborLabels_empty.withText _ _
      fits := by
        refine .map (by decide) ?_ ?_
        · intro p hp
          exact List.mem_singleton.mp hp ▸ .text (by decide)
        · intro p hp
          exact List.mem_singleton.mp hp ▸ .bool true }
  encodes := ⟨_, rfl⟩
  mode := rfl

/-- A signature over the structure of the mode is assembled to an envelope that verifies. -/
theorem verify_assembleWith (hlaw : keys.Lawful crypto) {header : CoseHeader} {hashed : Bool}
    (hheader : HelperHeader header hashed) {body : List UInt8} :
    ∃ assembled, assembleWith header (keys.publicKey seed).val
        (keys.sign seed (signedStructure crypto hashed
          (path1ProtectedHeaderBytes (keys.publicKey seed).val) body)).val = .ok assembled ∧
      assembled.sigEntry = ⟨assembled.coseSign1Bytes, none⟩ ∧
      coseSign1Label309Verify crypto assembled.coseSign1Bytes body none =
        .ok (keys.publicKey seed) coseAlgEddsa := by
  have hpk : (keys.publicKey seed).val.length = ed25519PublicKeyLength :=
    (keys.publicKey seed).property
  have hbytes := path1_encodeProtected hpk
  have hprotected : path1ProtectedHeaderBytes (keys.publicKey seed).val =
      [0xa2, 0x01, 0x27, 0x04, 0x58, 0x20] ++ (keys.publicKey seed).val := by
    rw [path1ProtectedHeaderBytes, hbytes]
    rfl
  generalize hsignature : keys.sign seed (signedStructure crypto hashed
    (path1ProtectedHeaderBytes (keys.publicKey seed).val) body) = signature
  obtain ⟨bytes, hencode⟩ :=
    (@exists_encodeCoseSign1_iff _ header none signature.val _ hbytes).mpr hheader.encodes
  refine ⟨⟨bytes, bytes, none⟩, ?_, rfl, ?_⟩
  · have hlength : signature.val.length = ed25519SignatureLength := signature.property
    rw [assembleWith, if_neg (not_not_intro hpk), if_neg (not_not_intro hlength), hencode]
    rfl
  · obtain ⟨protectedBytes, hprotectedBytes, hverify⟩ := @verify_encode crypto _ _ _ _ body _ none
      (path1_protectable (keys.publicKey seed)) hheader.storable rfl
      (path1_kid (keys.publicKey seed)) (by
        intro k hk
        cases hk) hencode
    rw [hbytes, Except.ok.injEq, ← hprotected] at hprotectedBytes
    rw [hverify, ← hprotectedBytes, hheader.mode, ← hsignature]
    exact if_pos (hlaw seed _)

/-! ## What a signer is asked to sign -/

/-- The prepared bytes are the structure of the record's body in the mode, and the signature over
them verifies over that body, under the key of the seed, before and after its entry is placed. -/
def SignsRecord (crypto : SignaturePrimitives) (keys : SigningPrimitives) (seed : FixedBytes 32)
    (record : PoeRecord) (hashed : Bool) (sigStructureBytes : List UInt8)
    (assembled : Except OffHostSignError AssembledCoseSign1) : Prop :=
  ∃ body entry, encodeRecordBodyForSigning record = .ok body ∧
    sigStructureBytes = signedStructure crypto hashed
      (path1ProtectedHeaderBytes (keys.publicKey seed).val) body ∧
    assembled = .ok entry ∧
    coseSign1Label309Verify crypto entry.coseSign1Bytes body none =
      .ok (keys.publicKey seed) coseAlgEddsa ∧
    ∀ sigs, entry.sigEntry ∈ sigs →
      encodeRecordBodyForSigning { record with sigs := some sigs } = .ok body ∧
        coseSign1Label309Verify crypto entry.sigEntry.coseSign1 body none =
          .ok (keys.publicKey seed) coseAlgEddsa

/-- Off-host signing with this seed signs the record or fails, in both modes. -/
structure SignsOrFails (crypto : SignaturePrimitives) (keys : SigningPrimitives)
    (seed : FixedBytes 32) (record : PoeRecord) : Prop where
  plain : ∀ prepared, prepareSigStructure record (keys.publicKey seed).val = .ok prepared →
    SignsRecord crypto keys seed record false prepared.sigStructureBytes
      (assembleCoseSign1 record (keys.publicKey seed).val
        (keys.sign seed prepared.sigStructureBytes).val)
  hashed : ∀ prepared,
    prepareSigStructureHashed crypto record (keys.publicKey seed).val = .ok prepared →
      SignsRecord crypto keys seed record true prepared.sigStructureBytes
        (assembleCoseSign1Hashed record (keys.publicKey seed).val
          (keys.sign seed prepared.sigStructureBytes).val)

theorem signsRecord_of_body (hlaw : keys.Lawful crypto) {record : PoeRecord} {body : List UInt8}
    (hbody : encodeRecordBodyForSigning record = .ok body) {header : CoseHeader} {hashed : Bool}
    (hheader : HelperHeader header hashed) :
    SignsRecord crypto keys seed record hashed
      (signedStructure crypto hashed (path1ProtectedHeaderBytes (keys.publicKey seed).val) body)
      (assembleWith header (keys.publicKey seed).val (keys.sign seed (signedStructure crypto hashed
        (path1ProtectedHeaderBytes (keys.publicKey seed).val) body)).val) := by
  obtain ⟨entry, hassembled, hentry, hverify⟩ := @verify_assembleWith crypto keys seed hlaw header
    hashed hheader body
  refine ⟨body, entry, hbody, rfl, hassembled, hverify, ?_⟩
  intro sigs _
  refine ⟨hbody, ?_⟩
  rw [hentry]
  exact hverify

theorem prepareSigStructure_eq (record : PoeRecord) (pk : FixedBytes 32) :
    prepareSigStructure record pk.val =
      .ok ⟨buildLabel309SigStructure (path1ProtectedHeaderBytes pk.val)
        (unwrapOrDefault (encodeRecordBodyForSigning record)),
        path1ProtectedHeaderBytes pk.val⟩ :=
  if_neg (not_not_intro pk.property)

theorem prepareSigStructureHashed_eq (record : PoeRecord) (pk : FixedBytes 32) :
    prepareSigStructureHashed crypto record pk.val =
      .ok ⟨buildSigStructure (path1ProtectedHeaderBytes pk.val) []
          (crypto.blake2b224 (unwrapOrDefault (buildToSign record))).val,
        path1ProtectedHeaderBytes pk.val,
        (crypto.blake2b224 (unwrapOrDefault (buildToSign record))).val⟩ :=
  if_neg (not_not_intro pk.property)

/-- **Off-host signing signs the record exactly when its body encodes.** The helper never fails
on a 32-byte key, so the exact condition is that no map of the body repeats a key. -/
theorem signsOrFails_iff (hlaw : keys.Lawful crypto) (seed : FixedBytes 32) (record : PoeRecord) :
    SignsOrFails crypto keys seed record ↔ ¬ HasDuplicateKey (recordToCbor record false) := by
  rw [← encode_error_iff, ← not_ok_iff_error, not_not]
  constructor
  · intro h
    obtain ⟨body, -, hbody, -⟩ := h.plain _ (prepareSigStructure_eq record _)
    exact ⟨body, hbody⟩
  · intro h
    obtain ⟨body, hbody⟩ := h
    have hbody' : encodeRecordBodyForSigning record = .ok body := hbody
    constructor
    · intro prepared hprepared
      rw [prepareSigStructure_eq, hbody', Except.ok.injEq] at hprepared
      rw [← hprepared]
      exact signsRecord_of_body hlaw hbody' helperHeader_empty
    · intro prepared hprepared
      rw [prepareSigStructureHashed_eq, buildToSign, hbody', Except.ok.injEq] at hprepared
      rw [← hprepared]
      exact signsRecord_of_body hlaw hbody' helperHeader_hashed

end Signing

/-! ## A record that does not encode -/

def plainRecord : PoeRecord where
  v := 1
  items := some [{ hashes := [("sha2-256", List.replicate 32 0)], uris := none, enc := none }]
  merkle := none
  supersedes := none
  sigs := none
  crit := none
  extensions := []

/-- The same record with an extension key given twice. -/
def repeatedRecord : PoeRecord :=
  { plainRecord with extensions := [("x-note", .unsigned 1), ("x-note", .unsigned 2)] }

set_option maxRecDepth 4000 in
/-- The helper prepares a structure over no body at all for a record that does not encode. -/
theorem not_signsOrFails_repeated :
    testKeys.Lawful testCrypto ∧
      prepareSigStructure repeatedRecord testKey.val =
        .ok ⟨buildLabel309SigStructure testProtectedBytes [], testProtectedBytes⟩ ∧
      ¬ SignsOrFails testCrypto testKeys testSeed repeatedRecord := by
  have hprepare : prepareSigStructure repeatedRecord testKey.val =
      .ok ⟨buildLabel309SigStructure testProtectedBytes [], testProtectedBytes⟩ := rfl
  refine ⟨testKeys_lawful, hprepare, ?_⟩
  intro h
  obtain ⟨body, entry, hbody, -⟩ := h.plain _ hprepare
  have herror : encodeRecordBodyForSigning repeatedRecord =
      .error (.malformed "map contains a duplicate key") := rfl
  rw [herror] at hbody
  cases hbody

set_option maxRecDepth 4000 in
/-- Without the extensions the record is signed. -/
theorem signsOrFails_plain : SignsOrFails testCrypto testKeys testSeed plainRecord := by
  refine (signsOrFails_iff testKeys_lawful testSeed plainRecord).mpr ?_
  have hbody : encodeCanonicalCbor (recordToCbor plainRecord false) = .ok testBody := rfl
  rw [← encode_error_iff, hbody]
  intro h
  obtain ⟨e, he⟩ := h
  cases he

end Label309
