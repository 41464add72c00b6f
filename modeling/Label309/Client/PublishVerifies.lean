import Label309.Client.PublishOrder
import Label309.MerkleLeavesRoundTrip
import Label309.Verifier.ReportVerdict
import Label309.Verifier.SignatureSoundness
import Label309.Verifier.SignatureStep

/-!
# A published record verifies

What a helper posts is verified by every reader: the record is valid, its signature is the
signer's, and a reader who is given what was uploaded beside it finds the content checked.
-/
namespace Label309
open ExceptBind Traced

/-! ## Records with the same claims -/

theorem sameEntry_presentFields {fields fields' : List (String × Option CborValue)}
    (h : List.Forall₂ (fun f g => f.1 = g.1 ∧ Option.Rel SameBytes f.2 g.2) fields fields') :
    List.Forall₂ SameEntry (presentFields fields) (presentFields fields') := by
  induction h with
  | nil => exact .nil
  | @cons f g fields fields' hhead _ ih =>
      obtain ⟨name, value⟩ := f
      obtain ⟨name', value'⟩ := g
      obtain ⟨hname, hvalue⟩ := hhead
      dsimp only at hname hvalue
      subst hname
      cases hvalue with
      | none => exact ih
      | some hsame => exact .cons ⟨rfl, hsame⟩ ih

theorem sameBytes_presentFields {fields fields' : List (String × Option CborValue)}
    (h : List.Forall₂ (fun f g => f.1 = g.1 ∧ Option.Rel SameBytes f.2 g.2) fields fields') :
    SameBytes (.map (presentFields fields)) (.map (presentFields fields')) :=
  sameBytes_map fun _ => ⟨_, .refl _, sameEntry_presentFields h⟩

theorem optionRel_refl (o : Option CborValue) : Option.Rel SameBytes o o := by
  cases o with
  | none => exact .none
  | some v => exact .some (.refl v)

theorem optionRel_map {α β : Type} {R : α → β → Prop} {f : α → CborValue} {g : β → CborValue}
    (hfg : ∀ a b, R a b → SameBytes (f a) (g b)) {o : Option α} {o' : Option β}
    (h : Option.Rel R o o') : Option.Rel SameBytes (o.map f) (o'.map g) := by
  cases h with
  | none => exact .none
  | some hab => exact .some (hfg _ _ hab)

theorem ItemEntry.SameClaim.sameBytes {item item' : ItemEntry} (h : item.SameClaim item') :
    SameBytes (itemToCbor item) (itemToCbor item') := by
  have hhashes : SameBytes
      (.map (item.hashes.map fun entry => (CborValue.text entry.1, CborValue.bytes entry.2)))
      (.map (item'.hashes.map fun entry => (CborValue.text entry.1, CborValue.bytes entry.2))) :=
    sameBytes_map fun _ =>
      ⟨_, h.hashes.map _, List.forall₂_same.mpr fun p _ => ⟨rfl, .refl p.2⟩⟩
  refine sameBytes_presentFields (.cons ⟨rfl, .some hhashes⟩ (.cons ⟨rfl, ?_⟩ (.cons ⟨rfl, ?_⟩ .nil)))
  · rw [h.uris]
    exact optionRel_refl _
  · rw [h.enc]
    exact optionRel_refl _

/-- **Records with the same claims have the same bytes**, with or without the signatures. -/
theorem PoeRecord.SameClaims.sameBytes {record record' : PoeRecord}
    (h : record.SameClaims record') (includeSigs : Bool) :
    SameBytes (recordToCbor record includeSigs) (recordToCbor record' includeSigs) := by
  have hitems : Option.Rel SameBytes
      (record.items.map fun items => .array (items.map itemToCbor))
      (record'.items.map fun items => .array (items.map itemToCbor)) := by
    refine optionRel_map (fun items items' hsame => sameBytes_array ?_) h.items
    rw [List.forall₂_map_left_iff, List.forall₂_map_right_iff]
    exact hsame.imp fun _ _ => ItemEntry.SameClaim.sameBytes
  refine sameBytes_map fun _ => ⟨_, .refl _, ?_⟩
  rw [h.v, h.merkle, h.supersedes, h.sigs, h.crit, h.extensions]
  refine List.rel_append (sameEntry_presentFields ?_) (List.forall₂_same.mpr fun p _ => ⟨rfl, .refl p.2⟩)
  refine .cons ⟨rfl, optionRel_refl _⟩ (.cons ⟨rfl, hitems⟩ (List.forall₂_same.mpr ?_))
  intro field _
  exact ⟨rfl, optionRel_refl _⟩

/-- The body that the verifier checks a signature against is that of the record as it was
written. -/
theorem signedRecordBody_of_sameClaims {bytes : List UInt8} {options : ValidatorOptions}
    {read record : PoeRecord} {warnings info : List ValidationIssue}
    (hvalid : validatePoeRecord bytes options = .ok read warnings info)
    (hsame : read.SameClaims record) :
    encodeRecordBodyForSigning record = .ok (signedRecordBody read) :=
  hsame.sameBytes false _ (signedRecordBody_of_accepted hvalid).1

/-! ## The signature of the signer -/

/-- The signatures of the signer verify under its key. -/
def Signer.Signs {σ : Type} (crypto : SignaturePrimitives) (signer : Signer σ) : Prop :=
  ∀ key : FixedBytes 32, key.val = signer.signerPubkey → ∀ signature : FixedBytes 64,
    ∀ message s s', signer.sign message s = (.ok signature.val, s') →
      crypto.verifyStrict key message signature = true

/-- The check of a valid signature with this key in its protected header. -/
def signedCheck (signerPubkey : List UInt8) : SignatureCheck :=
  ⟨0, true, some (hexEncode signerPubkey), some .inSignatureKid, none⟩

theorem assembleCoseSign1_eq_ok {record : PoeRecord} {pk signature : List UInt8}
    {assembled : AssembledCoseSign1} (h : assembleCoseSign1 record pk signature = .ok assembled) :
    pk.length = ed25519PublicKeyLength ∧ signature.length = ed25519SignatureLength ∧
      encodeCoseSign1 (path1ProtectedHeader pk) .empty none signature =
        .ok assembled.sigEntry.coseSign1 ∧ assembled.sigEntry.coseKey = none := by
  rw [assembleCoseSign1, assembleWith] at h
  by_cases hpk : pk.length = ed25519PublicKeyLength
  · by_cases hsignature : signature.length = ed25519SignatureLength
    · obtain ⟨b, hb, -, -⟩ := encodeCoseSign1_path1 hpk hsignature
      rw [if_neg (not_not_intro hpk), if_neg (not_not_intro hsignature), hb] at h
      cases h
      exact ⟨hpk, hsignature, hb, rfl⟩
    · rw [if_neg (not_not_intro hpk), if_pos hsignature] at h
      cases h
  · rw [if_pos hpk] at h
    cases h

/-- An assembled signature over a record body is reported with its signer. -/
theorem verifyOne_assembled {crypto : SignaturePrimitives} {record : PoeRecord}
    {pk : FixedBytes 32} {signature : FixedBytes 64} {assembled : AssembledCoseSign1}
    (hassembled : assembleCoseSign1 record pk.val signature.val = .ok assembled)
    {body : List UInt8} (hverify : crypto.verifyStrict pk
      (buildLabel309SigStructure (path1ProtectedHeaderBytes pk.val) body) signature = true)
    (network : CardanoNetwork) :
    verifyOne crypto 0 assembled.sigEntry body network = signedCheck pk.val := by
  obtain ⟨-, -, hencode, hkey⟩ := assembleCoseSign1_eq_ok hassembled
  obtain ⟨protectedBytes, hprotected, hdecode, hnodup, -⟩ := decodeCoseSign1_encode
    (path1_protectable pk) storable_empty payloadFits_none hencode
  have hkid := kid_decoded hnodup (path1_kid pk)
  have hexpects : ExpectsNoOther pk (some pk.val) := by
    intro k hk
    rw [Option.bind_some, toFixed_val] at hk
    exact (Option.some.inj hk).symm
  obtain ⟨protectedBytes', hprotected', hchecked⟩ := @verify_encode crypto _ _ _ _ body _ _
    (path1_protectable pk) storable_empty rfl (path1_kid pk) hexpects hencode
  have hbytes : protectedBytes' = path1ProtectedHeaderBytes pk.val := by
    rw [path1ProtectedHeaderBytes, hprotected']
    rfl
  have hok : coseSign1Label309Verify crypto assembled.sigEntry.coseSign1 body (some pk.val) =
      .ok pk coseAlgEddsa := by
    rw [hchecked, hbytes]
    exact if_pos hverify
  have hresolve : resolveSignerKey
      ⟨(path1ProtectedHeader pk.val).decoded, protectedBytes, CoseHeader.empty.decoded, none,
        signature⟩ assembled.sigEntry = some (pk, .inSignatureKid) := by
    rw [resolveSignerKey, hkey]
    dsimp only
    rw [hkid]
    rfl
  have hwallet (p : Prop) : ¬ (SignerType.inSignatureKid = .walletInlineKey ∧ p) :=
    fun h => absurd h.1 (by decide)
  rw [verifyOne, hdecode]
  dsimp only
  rw [hresolve]
  dsimp only
  rw [verifyResolved, hok]
  dsimp only
  rw [if_neg (hwallet _)]
  rfl

/-- **The checks of a record that was signed.** -/
theorem verifyRecordSignatures_signed {σ : Type} {crypto : SignaturePrimitives}
    {signer : Option (Signer σ)} (hsigner : ∀ s ∈ signer, s.Signs crypto)
    {record signed : PoeRecord} (hunsigned : record.sigs = none)
    (h : SignedAs signer record signed) {bytes : List UInt8}
    {options : ValidatorOptions} {read : PoeRecord} {warnings info : List ValidationIssue}
    (hvalid : validatePoeRecord bytes options = .ok read warnings info)
    (hsame : read.SameClaims signed) (network : CardanoNetwork) :
    verifyRecordSignatures crypto read network =
      signer.toList.map fun s => signedCheck s.signerPubkey := by
  cases signer with
  | none =>
      have hread : read.sigs = none := hsame.sigs.trans ((congrArg PoeRecord.sigs h).trans hunsigned)
      rw [verifyRecordSignatures, hread]
      rfl
  | some signer =>
      obtain ⟨prepared, signature, assembled, s, s', hprepared, hsign, hassembled, heq⟩ := h
      obtain ⟨hpk, hsignature, -, -⟩ := assembleCoseSign1_eq_ok hassembled
      have hread : read.sigs = some [assembled.sigEntry] :=
        hsame.sigs.trans (congrArg PoeRecord.sigs heq)
      have hbody : encodeRecordBodyForSigning record = .ok (signedRecordBody read) := by
        have hsigned := signedRecordBody_of_sameClaims hvalid hsame
        rw [heq] at hsigned
        exact hsigned
      rw [prepareSigStructure_eq record ⟨signer.signerPubkey, hpk⟩, hbody] at hprepared
      cases hprepared
      have hverify := hsigner signer rfl ⟨signer.signerPubkey, hpk⟩ rfl ⟨signature, hsignature⟩ _ s
        s' hsign
      rw [verifyRecordSignatures, hread]
      exact congrArg (fun check => [check])
        (@verifyOne_assembled crypto record ⟨signer.signerPubkey, hpk⟩ ⟨signature, hsignature⟩ _
          hassembled _ hverify network)

/-! ## A run that pushes no error -/

theorem clean_outOfProfile (record : PoeRecord) (profile : Profile) :
    Clean (outOfProfileIssues record profile) := by
  intro issue hissue
  rw [outOfProfileIssues] at hissue
  rcases List.mem_append.mp hissue with hsigs | hitems
  · split_ifs at hsigs
    · rw [List.mem_singleton.mp hsigs]
      exact Severity.noConfusion
    · cases hsigs
  · split_ifs at hitems
    · obtain ⟨issues, hissues, hmem⟩ := List.mem_flatten.mp hitems
      obtain ⟨i, hi, rfl⟩ := List.mem_mapIdx.mp hissues
      split_ifs at hmem
      · rw [List.mem_singleton.mp hmem]
        exact Severity.noConfusion
      · cases hmem
    · cases hitems

/-- Checks that found no fault push no issue. -/
theorem foldl_pushSignatureIssue {checks : List SignatureCheck}
    (h : ∀ check ∈ checks, check.reason = none) (issues : List VerifierIssue) :
    checks.foldl pushSignatureIssue issues = issues := by
  induction checks generalizing issues with
  | nil => rfl
  | cons check checks ih =>
      obtain ⟨hcheck, hchecks⟩ := List.forall_mem_cons.mp h
      rw [List.foldl_cons, ih hchecks, pushSignatureIssue, hcheck]

theorem floorIssues_eq_nil {outcomes : List MerkleCommitOutcome}
    (h : ∀ outcome ∈ outcomes, outcome.unavailable = none) (verified : Bool) :
    floorIssues outcomes verified = [] := by
  rw [floorIssues, List.filterMap_eq_nil_iff]
  intro outcome houtcome
  rw [h outcome houtcome]
  rfl

section Report
variable {crypto : VerifierPrimitives} {σ : Type} {record : PoeRecord} {input : VerifyTxInput}
  {fetcher : GatewayFetcher σ} {validation : List VerifierIssue} {skeleton : ReportSkeleton}

/-- The report of checks that push nothing. -/
theorem runRecordChecks_quiet (hvalidation : Clean validation)
    (hsigs : ∀ check ∈ verifyRecordSignatures crypto.signing record input.cardanoNetwork,
      check.reason = none) {items : List ItemReportEntry}
    (hitems : checkAll (itemEntry crypto input) 0 (record.items.getD []) fetcher =
      .ok (items, [], fetcher)) {outcomes : List MerkleCommitOutcome}
    (hmerkle : checkAll (commitOutcome crypto input) 0 (record.merkle.getD []) fetcher =
      .ok (outcomes, [], fetcher))
    (houtcomes : ∀ outcome ∈ outcomes, outcome.unavailable = none) :
    ∃ report, runRecordChecks crypto record validation input skeleton fetcher = .ok report ∧
      report.verdict = .valid ∧ report.items = items ∧
      report.merkle = outcomes.map (fun o => ⟨o.contentCheck⟩) ∧
      report.recordSignatures = (signatureChecks crypto record input).filter (!·.isEmpty) ∧
      report.auditTrail = fetcher.audit := by
  have hissues : issuesWithSignatures crypto record input validation =
      validation ++ outOfProfileIssues record input.profile := by
    rw [issuesWithSignatures, getD_signatureChecks]
    apply foldl_pushSignatureIssue
    intro check hcheck
    split_ifs at hcheck
    · exact hsigs check hcheck
    · cases hcheck
  have hclean : Clean (validation ++ outOfProfileIssues record input.profile) := by
    intro issue hissue
    rcases List.mem_append.mp hissue with hissue | hissue
    · exact hvalidation issue hissue
    · exact clean_outOfProfile record input.profile issue hissue
  have hverdict : verdictFromIssues (validation ++ outOfProfileIssues record input.profile) =
      .valid := verdictFrom_eq_valid_iff.mpr ⟨rfl, hclean⟩
  refine ⟨assembleReport skeleton (validation ++ outOfProfileIssues record input.profile) .valid
    items (outcomes.map fun o => ⟨o.contentCheck⟩) (some record)
    (signatureChecks crypto record input) fetcher.audit, ?_, rfl, rfl, rfl, rfl, rfl⟩
  rw [runRecordChecks, hitems, ok_bind]
  dsimp only
  rw [hmerkle, ok_bind]
  dsimp only
  rw [hissues, floorIssues_eq_nil houtcomes, List.append_nil, List.append_nil, List.append_nil,
    hverdict]

end Report

/-! ## Readers -/

/-- The keys are those of a reader of the envelope: one of a recipient is among them, all have the
length of a key, and no two content keys that they find have one MAC. -/
structure OpensEnvelope (crypto : SealedPrimitives) (args : WrapArgs) (envelope : SealedEnvelope)
    (keys : List (List UInt8)) : Prop where
  recipient : ∃ pub ∈ args.recipientPublicKeys, ∃ key ∈ keys,
    (args.kem.getD .x25519).IsSecretOf crypto key pub
  lengths : ∀ key ∈ keys, key.length = x25519SecretKeyLength
  noCollision : NoMacCollision crypto envelope args.hashes keys

namespace Deposit

/-- The reader leaves the claim of the record alone, or is given the bytes behind it. -/
def ReadBy (crypto : VerifierPrimitives) (input : VerifyTxInput) : Deposit → Prop
  | .nothing => True
  | .ciphertext args output => input.willDecrypt = true →
      input.ciphertextBytes 0 = some output.ciphertext ∧
        OpensEnvelope crypto.sealing args output.envelope (recipientKeys (input.decryption.getD []))
  | .leavesList document => input.merkleLeaves 0 = some document ∨
      input.merkleLeaves 0 = none ∧ input.fetchContent = false

/-- The entries of the items in the report. -/
def items (input : VerifyTxInput) : Deposit → List ItemReportEntry
  | .nothing => [.default]
  | .ciphertext .. =>
      [if input.willDecrypt then ⟨.checked, some ⟨true, some true, none⟩⟩ else .default]
  | .leavesList _ => []

/-- The entries of the commitments in the report. -/
def merkle (input : VerifyTxInput) : Deposit → List MerkleReportEntry
  | .nothing => []
  | .ciphertext .. => []
  | .leavesList _ => [if (input.merkleLeaves 0).isSome then ⟨.checked⟩ else .default]

end Deposit

/-! ## The sealed content -/

theorem mapM_map_some {α β : Type} {f : α → β} {g : β → Option α} (h : ∀ a, g (f a) = some a)
    (l : List α) : (l.map f).mapM g = some l := by
  induction l with
  | nil => rfl
  | cons a l ih => rw [List.map_cons, List.mapM_cons, h, ih]; rfl

section Sealed
variable {crypto : SealedPrimitives} {args : WrapArgs}

/-- A wrapped envelope is read back from a record as it was built. -/
theorem Wrapped.sealedEnvelopeFromParsed {cek hashesHash : FixedBytes 32} {built : WrapEnvelope}
    (h : Wrapped crypto args cek hashesHash built) :
    sealedEnvelopeFromParsed (toParsedEnvelope (buildEnvelope built.envelope)) =
      some built.envelope := by
  have hslots : sealedSlotsFromParsed built.envelope.kem
      ((recordSlots built.envelope.slots).map fun s => ⟨s.epk, s.kemCt, s.wrap⟩) =
        some built.envelope.slots := by
    have hwrapped := h.slots
    rw [h.kem]
    cases hs : built.envelope.slots with
    | x25519 slots =>
        rw [hs] at hwrapped
        have hname : SealedKem.asStr .x25519 = kemX25519 := rfl
        rw [hwrapped.1, sealedSlotsFromParsed, if_pos hname, recordSlots, List.map_map]
        refine congrArg (Option.map _) (mapM_map_some ?_ slots)
        intro s
        rfl
    | mlkem768X25519 slots =>
        rw [hs] at hwrapped
        have hname : SealedKem.asStr .mlkem768X25519 = kemMlkem768X25519 := rfl
        rw [hwrapped.1, sealedSlotsFromParsed, if_neg (by decide), if_pos hname, recordSlots,
          List.map_map]
        refine congrArg (Option.map _) (mapM_map_some ?_ slots)
        intro s
        rfl
  have hnonempty : ((recordSlots built.envelope.slots).map
      fun s => (⟨s.epk, s.kemCt, s.wrap⟩ : ParsedSlot)).isEmpty = false := by
    have hlength : (recordSlots built.envelope.slots).length = args.recipientPublicKeys.length :=
      (length_recordSlots _).trans h.slots.length
    rw [List.isEmpty_map, List.isEmpty_eq_false_iff_exists_mem, ← List.length_pos_iff_exists_mem,
      hlength, List.length_pos_iff]
    exact h.recipients
  have hscheme := h.scheme_buildEnvelope
  have haead : (toParsedEnvelope (buildEnvelope built.envelope)).aead =
      some aeadChacha20Poly1305Stream64k := congrArg some h.aead
  have hone : (toParsedEnvelope (buildEnvelope built.envelope)).scheme = some 1 := by
    rw [toParsedEnvelope, hscheme]
    rfl
  have hbuilt : built.envelope = ⟨1, aeadChacha20Poly1305Stream64k, built.envelope.kem,
      built.envelope.nonce, built.envelope.slots, built.envelope.slotsMac⟩ := by
    rw [← h.scheme, ← h.aead]
  rw [Label309.sealedEnvelopeFromParsed, if_neg (by simp [hone, haead])]
  simp only [toParsedEnvelope, buildEnvelope, Option.map_some, Option.bind_eq_bind, Option.bind_some,
    hnonempty, Bool.false_eq_true, if_false, hslots]
  exact congrArg some hbuilt.symm

/-- A wrap under the generator of the host ran, and gave this output. -/
theorem gives_of_wrapSecure {os : OsRng} {bound : ℕ} {output : SealedPoeOutput}
    (h : eciesSealedPoeWrapSecure crypto os bound args = some (.ok (.ok output))) :
    ∃ s, (eciesSealedPoeWrapWithRng crypto os.source bound args).Gives .start (.ok output) s := by
  obtain ⟨⟨result, s⟩, hrun, heq⟩ := Option.map_eq_some_iff.mp h
  dsimp only at heq
  cases hrng : s.rngError with
  | some e =>
      rw [hrng] at heq
      cases heq
  | none =>
      rw [hrng] at heq
      dsimp only at heq
      refine ⟨s, ?_⟩
      rw [Draw.Gives, hrun, heq]

variable (hkem : crypto.CorrectKem) (haead : crypto.aead.Lawful)
include hkem haead

/-- **A reader of the envelope opens what was published**: the envelope is read back from the
record, and unwraps to the content. -/
theorem unwrap_published {os : OsRng} {bound : ℕ} {output : SealedPoeOutput}
    (h : eciesSealedPoeWrapSecure crypto os bound args = some (.ok (.ok output)))
    (hmany : args.recipientPublicKeys.length ≤ (args.kem.getD .x25519).maxRecipients)
    {keys : List (List UInt8)} (hopens : OpensEnvelope crypto args output.envelope keys) :
    sealedEnvelopeFromParsed (toParsedEnvelope (buildEnvelope output.envelope)) =
        some output.envelope ∧
      eciesSealedPoeUnwrap crypto output.envelope output.ciphertext args.hashes (.multi keys) =
        .ok (.matched args.plaintext) := by
  obtain ⟨s, hgives⟩ := gives_of_wrapSecure h
  simp only [eciesSealedPoeWrapWithRng, Draw.gives_bind, Draw.gives_pure] at hgives
  obtain ⟨built, s', hbuilt, hseal, -⟩ := hgives
  obtain ⟨cek, hashesHash, hwrapped⟩ := wrapped_of_gives hkem haead hbuilt
  obtain ⟨ciphertext, hciphertext, heq⟩ := map_eq_ok.mp hseal.symm
  rw [← heq] at hopens ⊢
  refine ⟨hwrapped.sealedEnvelopeFromParsed, ?_⟩
  rw [hwrapped.payloadKey] at hciphertext
  have hopen := (streamOpen_eq_some_iff _ haead).mpr hciphertext
  obtain ⟨pub, hpub, key, hkey, hsecret⟩ := hopens.recipient
  have hlist : (UnwrapKeys.multi keys).list built.envelope = keys := rfl
  rw [eciesSealedPoeUnwrap, unwrapHeader_of_lengths (hlist.symm ▸ List.ne_nil_of_mem hkey)
    (hlist.symm ▸ hopens.lengths) hwrapped.hashes, hwrapped.assertEnvelope_iff.mpr hmany, hlist,
    hwrapped.scanKeys_eq_accepted hpub hsecret hkey hopens.noCollision]
  simp [Except.map, unwrapContent, hopen]

end Sealed

/-! ## What a call leaves -/

/-- The helper and the reader have the same primitives. -/
structure Shares (lib : PublishLibrary) (crypto : VerifierPrimitives) : Prop where
  sealing : lib.crypto = crypto.sealing
  blake2b256 : lib.blake2b256 = crypto.blake2b256

section Leaves
variable {σ : Type} {lib : PublishLibrary} {crypto : VerifierPrimitives}

theorem PublishCall.Leaves.makes {call : PublishCall σ} {uri : String} {deposit : Deposit}
    {record : PoeRecord} (h : call.Leaves lib uri deposit record) : call.Makes lib uri record := by
  cases call with
  | content input => exact ⟨h.1, h.2.2⟩
  | prehashed input =>
      obtain ⟨hsigner, -, hashes, hhashes, hrecord⟩ := h
      exact ⟨hsigner, hashes, hhashes, hrecord⟩
  | sealedContent input =>
      obtain ⟨hsigner, hrecipients, os, bound, output, hwrap, -, hrecord⟩ := h
      exact ⟨hsigner, hrecipients, os, bound, output, hwrap, hrecord⟩
  | merkle input =>
      obtain ⟨hsigner, leaves, root, leavesList, hleaves, hcommit, -, hrecord⟩ := h
      exact ⟨hsigner, leaves, root, leavesList, hleaves, hcommit, hrecord⟩

theorem PublishCall.Makes.sigs {call : PublishCall σ} {uri : String} {record : PoeRecord}
    (h : call.Makes lib uri record) : record.sigs = none := by
  cases call with
  | content input => rw [h.2]; rfl
  | prehashed input =>
      obtain ⟨-, hashes, -, rfl⟩ := h
      rfl
  | sealedContent input =>
      obtain ⟨-, -, os, bound, output, -, rfl⟩ := h
      rfl
  | merkle input =>
      obtain ⟨-, leaves, root, leavesList, -, -, rfl⟩ := h
      rfl

/-- A content has the hash that is published of it. -/
theorem recomputeItemHashes_contentHash (hshares : Shares lib crypto) (content : List UInt8)
    (hashAlg : Option SupportedHashAlg) :
    recomputeItemHashes crypto [contentHash lib content hashAlg] content = true := by
  rw [recomputeItemHashes, contentHash]
  cases hashAlg.getD .sha2_256 with
  | sha2_256 =>
      have hname : SupportedHashAlg.asStr .sha2_256 = "sha2-256" := rfl
      simp [hname, hashContent, hshares.sealing]
  | blake2b256 =>
      have hname : SupportedHashAlg.asStr .blake2b256 = "blake2b-256" := rfl
      simp [hname, hashContent, hshares.blake2b256]

/-- The leaves list that is published with a commitment is the committed one. -/
theorem validateLeavesDocument_commitLeaves (hshares : Shares lib crypto) {leaves : List Digest}
    (hpos : 1 ≤ leaves.length) (hmax : leaves.length ≤ 2 ^ 32 - 1) {root : Digest}
    {leavesList : List UInt8} (h : commitLeaves lib leaves = .ok (root, leavesList))
    (uris : Option (List String)) :
    validateLeavesDocument crypto leavesList
      ⟨merkleAlgId, root.val, UInt64.ofNat leaves.length, uris⟩ = .ok () := by
  have hne : leaves ≠ [] := List.length_pos_iff.mp hpos
  have hfit : LeavesFit leaves none :=
    { nonempty := hne
      length := by omega
      leafAlg := by
        intro alg halg
        cases halg }
  obtain ⟨b, hencode, hdecode⟩ := @decodeLeavesList_encode crypto.sealing.sha256
    crypto.text.debug _ _ hfit (rootUnchecked crypto.sealing.sha256 leaves)
  have hempty : leaves.isEmpty = false := by simpa using hne
  rw [commitLeaves, merkleRoot, hempty, hshares.sealing] at h
  simp only [Bool.false_eq_true, if_false, Except.mapError, ok_bind, hencode] at h
  cases h
  rw [checkDeclaredRoot, if_pos rfl] at hdecode
  rw [validateLeavesDocument_eq_ok_iff]
  refine ⟨_, hdecode, rfl, ?_⟩
  dsimp only
  rw [UInt64.toNat_ofNat', Nat.mod_eq_of_lt (by omega)]

end Leaves

/-! ## The checks of a published record -/

section Checks
variable {τ : Type} {crypto : VerifierPrimitives} {input : VerifyTxInput}

theorem checkAll_single {ι α : Type} {check : ℕ → ι → GatewayFetcher τ → Checking τ α} {claim : ι}
    {entry : α} {fetcher : GatewayFetcher τ} (h : check 0 claim fetcher = .ok (entry, [], fetcher)) :
    checkAll check 0 [claim] fetcher = .ok ([entry], [], fetcher) := by
  rw [checkAll, h]
  rfl

/-- The caller's bytes settle a walk whose consumer accepts them. -/
theorem walkBlobSources_accepted {α : Type} {basePath : List PathSegment}
    {policy : ContentFetchPolicy} {consume : Consumer α} {bytes : List UInt8} {a : α}
    (h : consume ⟨bytes, none, none, .outOfBand⟩ = .ok (.accept a, [])) (uris : List String)
    (allowFetch : Bool) (fetcher : GatewayFetcher τ) :
    walkBlobSources crypto basePath policy consume (some bytes) uris allowFetch fetcher =
      .ok (.done a, [], fetcher) := by
  rw [walkBlobSources]
  rw [offer, h]

/-- An item without an envelope and without URIs stays unchecked. -/
theorem itemEntry_bare {item : ItemEntry} (henc : item.enc = none) (huris : item.uris = none)
    (fetcher : GatewayFetcher τ) :
    itemEntry crypto input 0 item fetcher = .ok (.default, [], fetcher) := by
  rw [itemEntry, henc, if_neg (by decide), checkItemContent, huris]
  dsimp only
  rw [if_pos (.inr rfl)]
  rfl

/-- A reader without a keyring leaves a sealed item unchecked. -/
theorem itemEntry_closed {item : ItemEntry} (henc : item.enc.isSome = true)
    (hclosed : input.willDecrypt = false) (fetcher : GatewayFetcher τ) :
    itemEntry crypto input 0 item fetcher = .ok (.default, [], fetcher) := by
  rw [itemEntry, if_pos henc, hclosed]
  rfl

/-- A reader who opens the envelope and has the ciphertext finds the item checked. -/
theorem itemEntry_opened {item : ItemEntry} {enc : EncScheme1} {slots : List Slot}
    (henc : item.enc = some (.scheme1 enc)) (hslots : enc.slots = some slots)
    (hopens : input.willDecrypt = true) {ciphertext plaintext : List UInt8}
    (hciphertext : input.ciphertextBytes 0 = some ciphertext)
    (hkeys : recipientKeys (input.decryption.getD []) ≠ []) {envelope : SealedEnvelope}
    (henvelope : sealedEnvelopeFromParsed (toParsedEnvelope enc) = some envelope)
    (hunwrap : eciesSealedPoeUnwrap crypto.sealing envelope ciphertext (itemHashes item)
      (.multi (recipientKeys (input.decryption.getD []))) = .ok (.matched plaintext))
    (hhash : recomputeItemHashes crypto item.hashes plaintext = true)
    (fetcher : GatewayFetcher τ) :
    itemEntry crypto input 0 item fetcher =
      .ok (⟨.checked, some ⟨true, some true, none⟩⟩, [], fetcher) := by
  have hsome : item.enc.isSome = true := by
    rw [henc]
    rfl
  have hpath : item.keyPath = some (.slots enc) := by
    rw [ItemEntry.keyPath, henc]
    dsimp only
    rw [hslots]
    rfl
  have happlicable : ¬ KeyPath.applicable (input.decryption.getD []) (.slots enc) = 0 := by
    rw [KeyPath.applicable, List.length_eq_zero_iff]
    exact hkeys
  have hattempt : KeyPath.attempt crypto item (input.decryption.getD []) ciphertext (.slots enc) =
      .opened plaintext := by
    rw [KeyPath.attempt, attemptSlotsPath, henvelope]
    dsimp only
    rw [hunwrap]
    rfl
  have hconsume : decryptConsumer crypto (.slots enc) item 0 (input.decryption.getD [])
      ⟨ciphertext, none, none, .outOfBand⟩ =
        .ok (.accept ⟨.checked, ⟨true, some true, none⟩⟩, []) := by
    rw [decryptConsumer, hattempt, decryptDecision, if_pos hhash]
  rw [itemEntry, if_pos hsome, hopens, if_pos rfl, decryptItem, hpath, hciphertext]
  dsimp only
  rw [if_neg happlicable, walkBlobSources_accepted hconsume]
  rfl

/-- A reader without the leaves list leaves a commitment unchecked. -/
theorem commitOutcome_without {commit : MerkleCommit} (halg : commit.alg = merkleAlgId)
    (hnone : input.merkleLeaves 0 = none) (hfetch : input.fetchContent = false)
    (fetcher : GatewayFetcher τ) :
    commitOutcome crypto input 0 commit fetcher = .ok (⟨.notChecked, none⟩, [], fetcher) := by
  rw [commitOutcome, Verifier.checkMerkleCommit, if_neg (not_not_intro halg),
    if_pos ⟨hfetch, hnone⟩]

/-- A reader with the committed leaves list finds the commitment checked. -/
theorem commitOutcome_with {commit : MerkleCommit} (halg : commit.alg = merkleAlgId)
    {document : List UInt8} (hdocument : input.merkleLeaves 0 = some document)
    (hvalidate : validateLeavesDocument crypto document commit = .ok ())
    (fetcher : GatewayFetcher τ) :
    commitOutcome crypto input 0 commit fetcher = .ok (⟨.checked, none⟩, [], fetcher) := by
  have hconsume : leavesConsumer crypto commit (merklePath 0)
      ⟨document, none, none, .outOfBand⟩ = .ok (.accept .checked, []) := by
    rw [leavesConsumer]
    dsimp only
    rw [hvalidate]
  have hsome : ¬ (input.fetchContent = false ∧ some document = none) :=
    fun h => absurd h.2 (Option.some_ne_none _)
  rw [commitOutcome, Verifier.checkMerkleCommit, if_neg (not_not_intro halg), hdocument,
    if_neg hsome]
  rw [walkBlobSources_accepted hconsume]
  rfl

end Checks

theorem exists_single {α β : Type} {R : α → β → Prop} {o : Option (List α)} {b : β}
    (h : Option.Rel (List.Forall₂ R) o (some [b])) : ∃ a, o = some [a] ∧ R a b := by
  cases h with
  | some hforall =>
      obtain ⟨a, l, hab, hnil, rfl⟩ := List.forall₂_cons_right_iff.mp hforall
      rw [List.forall₂_nil_right_iff.mp hnil]
      exact ⟨a, rfl, hab⟩

section Published
variable {σ τ : Type} {lib : PublishLibrary} {crypto : VerifierPrimitives} {input : VerifyTxInput}
  (hshares : Shares lib crypto) {call : PublishCall σ} {uri : String} {deposit : Deposit}
  {record : PoeRecord} (h : call.Leaves lib uri deposit record)
include hshares h

/-- **The items of a published record are found as the reader reads them.** -/
theorem PublishCall.Leaves.checkAll_items (hkem : crypto.sealing.CorrectKem)
    (haead : crypto.sealing.aead.Lawful) (hfits : call.Fits) {items : Option (List ItemEntry)}
    (hread : Option.Rel (List.Forall₂ ItemEntry.SameClaim) items record.items)
    (hreader : deposit.ReadBy crypto input) (fetcher : GatewayFetcher τ) :
    checkAll (itemEntry crypto input) 0 (items.getD []) fetcher =
      .ok (deposit.items input, [], fetcher) := by
  cases call with
  | content _ =>
      obtain ⟨-, rfl, rfl⟩ := h
      obtain ⟨item, rfl, hsame⟩ := exists_single hread
      exact checkAll_single (itemEntry_bare hsame.enc hsame.uris fetcher)
  | prehashed _ =>
      obtain ⟨-, rfl, hashes, -, rfl⟩ := h
      obtain ⟨item, rfl, hsame⟩ := exists_single hread
      exact checkAll_single (itemEntry_bare hsame.enc hsame.uris fetcher)
  | sealedContent published =>
      obtain ⟨-, -, os, bound, output, hwrap, rfl, rfl⟩ := h
      obtain ⟨item, rfl, hsame⟩ := exists_single hread
      have henc : item.enc = some (.scheme1 (buildEnvelope output.envelope)) := hsame.enc
      have hhashes : item.hashes = [contentHash lib published.content published.hashAlg] :=
        List.perm_singleton.mp hsame.hashes
      apply checkAll_single
      cases hopens : input.willDecrypt with
      | false =>
          rw [itemEntry_closed (by rw [henc]; rfl) hopens, if_neg Bool.false_ne_true]
      | true =>
          obtain ⟨hciphertext, hopensEnvelope⟩ := hreader hopens
          have hmany : published.recipients.length ≤
              published.kemChoice.sealedKem.maxRecipients := by
            have hle : published.kemChoice.sealedKem.maxRecorded ≤
                published.kemChoice.sealedKem.maxRecipients := by
              cases published.kemChoice.sealedKem with
              | x25519 => decide
              | mlkem768X25519 => decide
            exact le_trans hfits hle
          rw [hshares.sealing] at hwrap
          obtain ⟨henvelope, hunwrap⟩ := unwrap_published hkem haead hwrap hmany hopensEnvelope
          obtain ⟨pub, -, key, hkey, -⟩ := hopensEnvelope.recipient
          have hmap : itemHashes item = (publishWrapArgs lib published).hashes := by
            rw [itemHashes, hhashes]
            rfl
          rw [← hmap] at hunwrap
          have hhash : recomputeItemHashes crypto item.hashes published.content = true := by
            rw [hhashes]
            exact recomputeItemHashes_contentHash hshares _ _
          rw [itemEntry_opened henc rfl hopens hciphertext (List.ne_nil_of_mem hkey) henvelope
            hunwrap hhash, if_pos rfl]
  | merkle _ =>
      obtain ⟨-, leaves, root, leavesList, -, -, rfl, rfl⟩ := h
      cases hread
      rfl

/-- **The commitment of a published record is found as the reader reads it.** -/
theorem PublishCall.Leaves.checkAll_merkle (hfits : call.Fits)
    (hreader : deposit.ReadBy crypto input) (fetcher : GatewayFetcher τ) :
    ∃ outcomes : List MerkleCommitOutcome,
      checkAll (commitOutcome crypto input) 0 (record.merkle.getD []) fetcher =
          .ok (outcomes, [], fetcher) ∧
        outcomes.map (fun o => MerkleReportEntry.mk o.contentCheck) = deposit.merkle input ∧
        ∀ outcome ∈ outcomes, outcome.unavailable = none := by
  cases call with
  | content _ =>
      obtain ⟨-, rfl, rfl⟩ := h
      exact ⟨[], rfl, rfl, List.forall_mem_nil _⟩
  | prehashed _ =>
      obtain ⟨-, rfl, hashes, -, rfl⟩ := h
      exact ⟨[], rfl, rfl, List.forall_mem_nil _⟩
  | sealedContent published =>
      obtain ⟨-, -, os, bound, output, -, rfl, rfl⟩ := h
      exact ⟨[], rfl, rfl, List.forall_mem_nil _⟩
  | merkle published =>
      obtain ⟨-, leaves, root, leavesList, hleaves, hcommit, rfl, rfl⟩ := h
      obtain ⟨hlength, hpos⟩ := length_checkLeaves hleaves
      rcases hreader with hdocument | ⟨hnone, hfetch⟩
      · have hvalidate := validateLeavesDocument_commitLeaves hshares hpos (hlength ▸ hfits) hcommit
          (some [uri])
        refine ⟨_, checkAll_single (commitOutcome_with rfl hdocument hvalidate fetcher), ?_, ?_⟩
        · rw [Deposit.merkle, hdocument]
          rfl
        · intro outcome houtcome
          rw [List.mem_singleton.mp houtcome]
      · refine ⟨_, checkAll_single (commitOutcome_without rfl hnone hfetch fetcher), ?_, ?_⟩
        · rw [Deposit.merkle, hnone]
          rfl
        · intro outcome houtcome
          rw [List.mem_singleton.mp houtcome]

end Published

/-! ## The report -/

/-- The report of a reader of a published record: valid, signed by the signer of the call, checked as
far as the reader was given the bytes, and without any request. -/
structure Confirms {σ : Type} (call : PublishCall σ) (deposit : Deposit) (input : VerifyTxInput)
    (report : VerifyReport) : Prop where
  verdict : report.verdict = .valid
  items : report.items = deposit.items input
  merkle : report.merkle = deposit.merkle input
  signatures : report.recordSignatures = if profileAtLeast input.profile .signed then
      call.signer.map fun s => [signedCheck s.signerPubkey]
    else none
  auditTrail : report.auditTrail = []

/-- The role is of no account for a record that a producer may write. -/
theorem PoeRecord.Conforms.withRole {record : PoeRecord} (h : record.Conforms .default)
    (role : ValidatorRole) : record.Conforms { ValidatorOptions.default with role := role } where
  v := h.v
  items := by
    intro items hitems
    obtain ⟨hne, hall⟩ := h.items items hitems
    refine ⟨hne, ?_⟩
    intro item hitem
    obtain ⟨hhashes, huris, henc⟩ := hall item hitem
    exact ⟨hhashes, huris, henc⟩
  merkle := h.merkle
  content := h.content
  supersedes := h.supersedes
  sigs := h.sigs
  crit := h.crit
  extensions := h.extensions

theorem SignedAs.items {σ : Type} {signer : Option (Signer σ)} {record signed : PoeRecord}
    (h : SignedAs signer record signed) :
    signed.items = record.items ∧ signed.merkle = record.merkle := by
  cases signer with
  | none =>
      have hsame : signed = record := h
      rw [hsame]
      exact ⟨rfl, rfl⟩
  | some signer =>
      obtain ⟨prepared, signature, assembled, s, s', -, -, -, rfl⟩ := h
      exact ⟨rfl, rfl⟩

theorem filter_nonempty {α : Type} (o : Option (List α)) :
    o.filter (fun l => !l.isEmpty) =
      if (o.getD []).isEmpty then none else some (o.getD []) := by
  cases o with
  | none => rfl
  | some l => cases l <;> rfl

/-- What a call leaves without an upload does not depend on the uri. -/
theorem PublishCall.Leaves.withUri {σ : Type} {lib : PublishLibrary} {call : PublishCall σ} {uri : String}
    {deposit : Deposit} {record : PoeRecord} (h : call.Leaves lib uri deposit record)
    (hblob : deposit.blob = none) (uri' : String) : call.Leaves lib uri' deposit record := by
  cases call with
  | content input => exact h
  | prehashed input => exact h
  | sealedContent input =>
      obtain ⟨-, -, os, bound, output, -, rfl, -⟩ := h
      cases hblob
  | merkle input =>
      obtain ⟨-, leaves, root, leavesList, -, -, rfl, -⟩ := h
      cases hblob

section Verify
variable {σ τ : Type} {lib : PublishLibrary} {crypto : VerifierPrimitives}
  (hshares : Shares lib crypto) (hkem : crypto.sealing.CorrectKem)
  (haead : crypto.sealing.aead.Lawful)
include hshares hkem haead

/-- **A reader of a record that a call makes confirms it.** -/
theorem PublishCall.Leaves.confirms {call : PublishCall σ} {uri : String} {deposit : Deposit}
    {record signed : PoeRecord} (h : call.Leaves lib uri deposit record) (huri : IsArUri uri)
    (hfits : call.Fits) (hcount : call.Counted)
    (hsigner : ∀ s ∈ call.signer, s.Signs crypto.signing)
    (hsigned : SignedAs call.signer record signed) {bytes : List UInt8}
    (hencode : encodePoeRecord signed = .ok bytes) {input : VerifyTxInput}
    (hreader : deposit.ReadBy crypto input) {blockInfo : BlockInfo}
    (hdepth : 0 < blockInfo.confirmationDepth)
    (hthreshold : input.threshold ≤ blockInfo.confirmationDepth) (transport : FetchTransport τ)
    (state : τ) :
    ∃ report, verifyRecordBytes crypto bytes blockInfo transport state input = .ok (.ok report) ∧
      Confirms call deposit input report := by
  obtain ⟨hconforms, hsized⟩ :=
    h.makes.conforms (hshares.sealing ▸ hkem) (hshares.sealing ▸ haead) huri hfits hcount
  obtain ⟨hsignedConforms, hsignedSized⟩ := hsigned.conforms hconforms hsized
  obtain ⟨read, warnings, info, hvalid, hsame⟩ := validate_of_conforms
    (hsignedConforms.withRole (if input.willDecrypt then .recipientOrStrict else .publicRole))
    (hsignedConforms.lengthsFit (by decide) hsignedSized) hencode
  have hchecks := verifyRecordSignatures_signed hsigner h.makes.sigs hsigned hvalid hsame
    input.cardanoNetwork
  have hreason : ∀ check ∈ verifyRecordSignatures crypto.signing read input.cardanoNetwork,
      check.reason = none := by
    intro check hcheck
    rw [hchecks] at hcheck
    obtain ⟨s, -, rfl⟩ := List.mem_map.mp hcheck
    rfl
  obtain ⟨hsignedItems, hsignedMerkle⟩ := hsigned.items
  have hitems := h.checkAll_items hshares hkem haead hfits (hsignedItems ▸ hsame.items) hreader
    (GatewayFetcher.new transport state input.denyHosts)
  obtain ⟨outcomes, hmerkle, hentries, houtcomes⟩ := h.checkAll_merkle hshares hfits hreader
    (GatewayFetcher.new transport state input.denyHosts)
  rw [← hsignedMerkle, ← hsame.merkle] at hmerkle
  obtain ⟨report, hrun, hverdict, hreportItems, hreportMerkle, hreportSigs, haudit⟩ :=
    @runRecordChecks_quiet crypto τ read input _ _
      { input.skeleton with chainFacts := some blockInfo }
      (fun _ => severity_validationIssues hvalid) hreason _ hitems _ hmerkle houtcomes
  refine ⟨report, ?_, hverdict, hreportItems, hreportMerkle.trans hentries, ?_, haudit⟩
  · rw [verifyRecordBytes, if_neg (Nat.pos_iff_ne_zero.mp hdepth), runRecordPipeline,
      VerifyTxInput.validatorOptions, hvalid]
    have hdeep : ¬ blockInfo.confirmationDepth < input.skeleton.threshold := not_lt.mpr hthreshold
    dsimp only
    rw [if_neg hdeep]
    exact congrArg Except.ok hrun
  · rw [hreportSigs, filter_nonempty, getD_signatureChecks, hchecks]
    cases call.signer with
    | none => simp
    | some signer =>
        by_cases hprofile : profileAtLeast input.profile .signed = true
        · rw [if_pos hprofile, if_pos hprofile]
          rfl
        · rw [if_neg hprofile, if_neg hprofile]
          rfl

end Verify

/-! ## A sample -/

theorem returns_true {W E α : Type} (m : Program W E α) : Returns (fun _ => True) m :=
  fun _ _ _ _ => trivial

/-- The uri of an upload in one request is one of the answer. -/
theorem returns_singleShot {σ : Type} {P : String → Prop} {lib : PublishLibrary}
    {host : UploadHost σ} {config : NamespaceConfig σ} {input : ResumableUploadInput σ}
    (h : ∀ body parsed idx ok uri sha256 bytes rest, lib.uploads.uploads body = .ok parsed →
      parsed.uploads = .success idx ok uri sha256 bytes :: rest → P uri) :
    Returns (fun result => P result.uri)
      (singleShot lib.json lib.uploads host config input) := by
  have hdecode (body : List UInt8) : Returns (fun parsed => lib.uploads.uploads body = .ok parsed)
      (viaHttp (decodeBody lib.uploads.uploads body) : Upload σ UploadsResponse) := by
    intro w parsed w' hrun
    obtain ⟨first, hfirst, hmapped⟩ := exec_mapError_eq_some hrun
    rw [decodeBody.eq_def] at hfirst
    cases hbody : lib.uploads.uploads body with
    | ok value =>
        rw [hbody] at hfirst
        cases hfirst
        exact congrArg Except.ok (Except.ok.inj hmapped).symm
    | error e =>
        rw [hbody] at hfirst
        cases hfirst
        cases hmapped
  refine Returns.bind (returns_true _) fun cancelled _ => Returns.unless _ fun _ => ?_
  refine Returns.bind (returns_true _) fun bytes _ => ?_
  refine Returns.bind (returns_true _) fun response _ => ?_
  refine Returns.bind (hdecode response.body) fun parsed hparsed => ?_
  cases huploads : parsed.uploads with
  | nil => exact fun _ _ _ hrun => by cases hrun
  | cons entry rest =>
      cases entry with
      | failure idx ok error => exact fun _ _ _ hrun => by cases hrun
      | success idx ok uri sha256 bytes =>
          exact Returns.bind (returns_true _) fun _ _ =>
            Returns.pure (h _ _ _ _ _ _ _ _ hparsed huploads)

theorem exec_chunked_leaves (blob : List UInt8) (chunkBytes : Option UInt64)
    (key : Option String) (w : World ℕ Exchange) :
    ∃ error w', exec (chunked leavesLibrary.json leavesLibrary.uploads leavesLibrary.crypto.sha256
        (idleHost idleRng).toUploadHost leavesConfig (blobInput blob chunkBytes key) 0) w =
      some (.error error, w') :=
  ⟨_, _, rfl⟩

/-- The gateway of the sample stores at one address, if it stores. -/
theorem conformantUploads_leaves :
    ConformantUploads leavesLibrary (idleHost idleRng) leavesConfig 0 := by
  intro blob chunkBytes key w uri w' hrun
  have hchoice : exec (uploadResumable leavesLibrary.json leavesLibrary.uploads
      leavesLibrary.crypto.sha256 (idleHost idleRng).toUploadHost leavesConfig
      (blobInput blob chunkBytes key) 0) w =
      exec (if UInt64.ofNat blob.length ≤ defaultResumableThresholdBytes then
        singleShot leavesLibrary.json leavesLibrary.uploads (idleHost idleRng).toUploadHost
          leavesConfig (blobInput blob chunkBytes key)
        else chunked leavesLibrary.json leavesLibrary.uploads leavesLibrary.crypto.sha256
          (idleHost idleRng).toUploadHost leavesConfig (blobInput blob chunkBytes key) 0) w := rfl
  have huri : IsArUri depositUri := 
    ⟨"bNbA3TEQVL60xlgCcqdz4ZPHFZ711cZ3hmkpGttDt_U", by decide, by decide +kernel⟩
  have hanswer : ∀ body parsed idx ok uri sha256 bytes rest,
      leavesLibrary.uploads.uploads body = .ok parsed →
        parsed.uploads = .success idx ok uri sha256 bytes :: rest → IsArUri uri := by
    intro body parsed idx ok uri sha256 bytes rest hparsed huploads
    have hread : (if body = depositBody then .ok ⟨[.success 0 true depositUri depositSha256 223]⟩
        else .error "missing field") = Except.ok parsed := hparsed
    split_ifs at hread with hbody
    cases hread
    cases huploads
    exact huri
  obtain ⟨first, hfirst, hmapped⟩ := exec_mapError_eq_some hrun
  rcases exec_bind_cases hfirst with ⟨error, -, rfl⟩ | ⟨result, w1, hupload, hpure⟩
  · cases hmapped
  · cases hpure
    cases hmapped
    rw [hchoice] at hupload
    split_ifs at hupload with hsmall
    · exact returns_singleShot hanswer _ _ _ hupload
    · obtain ⟨error, w2, hexec⟩ := exec_chunked_leaves blob chunkBytes key w
      rw [hexec] at hupload
      cases hupload

/-- The primitives of the library, and the signatures of the key. -/
def leavesVerifier : VerifierPrimitives :=
  { keyringCrypto with
    blake2b256 := leavesLibrary.blake2b256
    sealing := leavesLibrary.crypto
    signing :=
      { verifyStrict := fun key message signature =>
          key = testKey ∧ message = leavesMessage ∧ signature = leavesSignature
        blake2b224 := fun _ => testDigest } }

theorem leavesVerifier_shares : Shares leavesLibrary leavesVerifier where
  sealing := rfl
  blake2b256 := rfl

theorem leavesVerifier_correctKem : leavesVerifier.sealing.CorrectKem where
  exchange := roundTripCrypto_correctKem.exchange
  decapsulate := roundTripCrypto_correctKem.decapsulate

theorem testSigner_signs : testSigner.Signs leavesVerifier.signing := by
  intro key hkey signature message n n' hsign
  have hanswer : (if message = leavesMessage then .ok leavesSignature.val
      else .error "unknown message") = Except.ok signature.val := congrArg Prod.fst hsign
  by_cases hmessage : message = leavesMessage
  · rw [if_pos hmessage] at hanswer
    exact decide_eq_true ⟨Subtype.ext hkey, hmessage, Subtype.ext (Except.ok.inj hanswer).symm⟩
  · rw [if_neg hmessage] at hanswer
    cases hanswer

/-- The profile that reads signatures, without the network, over the list of the leaves. -/
def leavesReader (document : List UInt8) : VerifyTxInput :=
  { publishedInput with
    profile := .signed
    merkleLeaves := fun i => if i = 0 then some document else none }

end Label309
