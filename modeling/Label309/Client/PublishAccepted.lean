import Label309.Client.PublishRecord
import Label309.Client.ResumableRequests
import Label309.SealedPoe.EntropyFailure

/-!
# What a helper posts

Every record that a helper posts is accepted by the validator, unless it has too many recipients or
too many leaves. Neither is checked before the upload.
-/
namespace Label309
open ExceptBind Traced

/-- The bytes are accepted under the default options, and read back as the record. -/
def AcceptedAs (record : PoeRecord) (bytes : List UInt8) : Prop :=
  ∃ read warnings info, validatePoeRecord bytes .default = .ok read warnings info ∧
    read.SameClaims record

/-! ## Calls -/

/-- A call of a helper. -/
inductive PublishCall (σ : Type)
  | content (input : PublishContentInput σ)
  | prehashed (input : PublishPrehashedInput σ)
  | sealedContent (input : PublishSealedInput σ)
  | merkle (input : PublishMerkleInput σ)

section Calls
variable {σ : Type} (lib : PublishLibrary)

namespace PublishCall

def signer : PublishCall σ → Option (Signer σ)
  | .content input => input.signer
  | .prehashed input => input.signer
  | .sealedContent input => input.signer
  | .merkle input => input.signer

/-- The call without its answer. -/
def run (host : PublishHost σ) (config : NamespaceConfig σ) (fuel : ℕ) :
    PublishCall σ → Publish σ Unit
  | .content input => do
      let _ ← publishContent lib config input
      pure ()
  | .prehashed input => do
      let _ ← publishPrehashed lib config input
      pure ()
  | .sealedContent input => do
      let _ ← publishSealed lib host config fuel input
      pure ()
  | .merkle input => do
      let _ ← publishMerkle lib host config fuel input
      pure ()

/-- The checks of the helper pass, and this is its record before it is signed, where an upload is
answered with the uri. -/
def Makes (uri : String) : PublishCall σ → PoeRecord → Prop
  | .content input, record =>
      assertSigner input.signer = .ok () ∧
        record = hashesRecord [contentHash lib input.content input.hashAlg]
  | .prehashed input, record =>
      assertSigner input.signer = .ok () ∧
        ∃ hashes, prehashedEntries input.hashes = .ok hashes ∧ record = hashesRecord hashes
  | .sealedContent input, record =>
      assertSigner input.signer = .ok () ∧
        checkRecipients input.kemChoice input.recipients = .ok () ∧ ∃ os bound output,
          eciesSealedPoeWrapSecure lib.crypto os bound (publishWrapArgs lib input) =
              some (.ok (.ok output)) ∧
            record =
              sealedRecord (contentHash lib input.content input.hashAlg) output.envelope uri
  | .merkle input, record =>
      assertSigner input.signer = .ok () ∧ ∃ leaves root leavesList,
        checkLeaves input = .ok leaves ∧ commitLeaves lib leaves = .ok (root, leavesList) ∧
          record = merkleRecord root leaves.length uri

/-- The recipients or the leaves are not too many for a record. -/
def Fits : PublishCall σ → Prop
  | .content _ => True
  | .prehashed _ => True
  | .sealedContent input => input.recipients.length ≤ input.kemChoice.sealedKem.maxRecorded
  | .merkle input => input.leaves.length ≤ 2 ^ 32 - 1

/-- The lists that are counted in a word fit it. -/
def Counted : PublishCall σ → Prop
  | .content _ => True
  | .prehashed input => input.hashes.length < 2 ^ 64
  | .sealedContent _ => True
  | .merkle input => input.leaves.length < 2 ^ 64

end PublishCall

/-- The record with the one signature of the signer, if there is a signer. -/
def SignedAs (signer : Option (Signer σ)) (record signed : PoeRecord) : Prop :=
  match signer with
  | none => signed = record
  | some signer => ∃ prepared signature assembled s s',
      prepareSigStructure record signer.signerPubkey = .ok prepared ∧
        signer.sign prepared.sigStructureBytes s = (.ok signature, s') ∧
        assembleCoseSign1 record signer.signerPubkey signature = .ok assembled ∧
        signed = { record with sigs := some [assembled.sigEntry] }

/-- Every upload is answered with a conformant uri. -/
def ConformantUploads (host : PublishHost σ) (config : NamespaceConfig σ) (fuel : ℕ) : Prop :=
  ∀ blob chunkBytes idempotencyKey w uri w',
    exec (uploadBlob lib host config fuel blob chunkBytes idempotencyKey) w = some (.ok uri, w') →
      IsArUri uri

/-- The request carries this record. -/
def CarriesRecord (e : Exchange) (bytes : List UInt8) : Prop :=
  ∃ body hex, e.body = .json (lib.json.toText body) ∧ body.get "record" = some (.string hex) ∧
    hexDecode hex = .ok bytes

/-- The record of the call could be accepted. -/
def PublishCall.Acceptable (call : PublishCall σ) : Prop :=
  ∃ uri record bytes, IsArUri uri ∧ call.Makes lib uri record ∧
    encodePoeRecord record = .ok bytes ∧ AcceptedAs record bytes

/-- Whatever the gateway does, nothing is posted that the validator refuses, and nothing is uploaded
for a record that it would refuse. -/
structure PublishSafe (call : PublishCall σ) : Prop where
  posted : ∀ host config fuel, ConformantUploads lib host config fuel → ∀ s r w',
    exec (call.run lib host config fuel) ⟨s, []⟩ = some (r, w') → ∀ e ∈ w'.log,
      e.method = .post → e.url = publishUrl config → ∃ uri record signed bytes,
        call.Makes lib uri record ∧ SignedAs call.signer record signed ∧
          encodePoeRecord signed = .ok bytes ∧ CarriesRecord lib e bytes ∧ AcceptedAs signed bytes
  uploaded : ∀ host config fuel, ConformantUploads lib host config fuel → ∀ s r w',
    exec (call.run lib host config fuel) ⟨s, []⟩ = some (r, w') → ∀ e ∈ w'.log,
      UnderUploads config e.url → call.Acceptable lib

end Calls

/-! ## Records that conform -/

theorem conforms_hashesRecord {options : ValidatorOptions} {hashes : List (String × List UInt8)}
    (h : HashesConform hashes) : (hashesRecord hashes).Conforms options where
  v := rfl
  items := by
    intro items hitems
    cases hitems
    refine ⟨List.cons_ne_nil _ _, ?_⟩
    intro item hitem
    rw [List.mem_singleton.mp hitem]
    exact ⟨h, nofun, nofun⟩
  merkle := nofun
  content := nofun
  supersedes := rfl
  sigs := nofun
  crit := rfl
  extensions := rfl

theorem conforms_sealedRecord {options : ValidatorOptions} {crypto : SealedPrimitives}
    {args : WrapArgs} {cek hashesHash : FixedBytes 32} {built : WrapEnvelope}
    (h : Wrapped crypto args cek hashesHash built) {hash : String × List UInt8}
    (hhash : HashesConform [hash]) {uri : String} (huri : IsArUri uri)
    (hslots : args.recipientPublicKeys.length ≤ options.maxSlots)
    (hsize : (args.kem.getD .x25519).envelopeLength args.recipientPublicKeys.length ≤
      options.maxEncEnvelopeBytes) :
    (sealedRecord hash built.envelope uri).Conforms options where
  v := rfl
  items := by
    intro items hitems
    cases hitems
    refine ⟨List.cons_ne_nil _ _, ?_⟩
    intro item hitem
    rw [List.mem_singleton.mp hitem]
    refine ⟨hhash, huri.urisConform, ?_⟩
    intro enc henc
    cases henc
    exact ⟨_, rfl, h.conforms_buildEnvelope hslots, h.encodedLength_buildEnvelope ▸ hsize⟩
  merkle := nofun
  content := nofun
  supersedes := rfl
  sigs := nofun
  crit := rfl
  extensions := rfl

theorem conforms_merkleRecord {options : ValidatorOptions} {root : Digest} {n : ℕ} (hpos : 1 ≤ n)
    (hmax : n ≤ 2 ^ 32 - 1) {uri : String} (huri : IsArUri uri) :
    (merkleRecord root n uri).Conforms options where
  v := rfl
  items := nofun
  merkle := by
    intro merkle hmerkle
    cases hmerkle
    refine ⟨List.cons_ne_nil _ _, ?_⟩
    intro commit hcommit
    rw [List.mem_singleton.mp hcommit]
    have hcount : (UInt64.ofNat n).toNat = n := by
      rw [UInt64.toNat_ofNat', Nat.mod_eq_of_lt (by omega)]
    exact ⟨rfl, root.property, by rw [hcount]; exact ⟨hpos, hmax⟩, huri.urisConform⟩
  content := nofun
  supersedes := rfl
  sigs := nofun
  crit := rfl
  extensions := rfl

/-- A wrap under the generator of the host gives a wrapped envelope. -/
theorem wrapped_of_wrapSecure {crypto : SealedPrimitives} (hkem : crypto.CorrectKem)
    (haead : crypto.aead.Lawful) {os : OsRng} {bound : ℕ} {args : WrapArgs}
    {output : SealedPoeOutput}
    (h : eciesSealedPoeWrapSecure crypto os bound args = some (.ok (.ok output))) :
    ∃ cek hashesHash built, Wrapped crypto args cek hashesHash built ∧
      output.envelope = built.envelope := by
  obtain ⟨⟨result, s⟩, hrun, heq⟩ := Option.map_eq_some_iff.mp h
  dsimp only at heq
  cases hrng : s.rngError with
  | some e =>
      rw [hrng] at heq
      cases heq
  | none =>
      rw [hrng] at heq
      dsimp only at heq
      have hgives : (eciesSealedPoeWrapWithRng crypto os.source bound args).Gives .start
          (.ok output) s := by
        rw [Draw.Gives, hrun, heq]
      obtain ⟨built, s', hbuilt, hpure⟩ := Draw.gives_bind.mp hgives
      obtain ⟨cek, hashesHash, hwrapped⟩ := wrapped_of_gives hkem haead hbuilt
      refine ⟨cek, hashesHash, built, hwrapped, ?_⟩
      have hseal := (Draw.gives_pure.mp hpure).1
      cases hstream : streamSeal crypto.aead built.payloadKey args.plaintext with
      | error e =>
          rw [hstream] at hseal
          cases hseal
      | ok ciphertext =>
          rw [hstream] at hseal
          cases hseal
          rfl

theorem length_checkLeaves {σ : Type} {input : PublishMerkleInput σ} {leaves : List Digest}
    (h : checkLeaves input = .ok leaves) :
    leaves.length = input.leaves.length ∧ 1 ≤ leaves.length := by
  rw [checkLeaves] at h
  split_ifs at h with halg hempty
  have hlength := (mapM_eq_ok_iff.mp h).length_eq
  refine ⟨hlength.symm, ?_⟩
  rw [← hlength, Nat.one_le_iff_ne_zero, ne_eq, List.length_eq_zero_iff, ← List.isEmpty_iff]
  exact hempty

theorem length_prehashedEntries {hashes : List (SupportedHashAlg × String)}
    {entries : List (String × List UInt8)} (h : prehashedEntries hashes = .ok entries) :
    entries.length ≤ hashes.length := by
  rw [prehashedEntries] at h
  split_ifs at h with hempty
  rw [← (mapM_eq_ok_iff.mp h).length_eq]
  exact List.length_filter_le _ _

theorem IsArUri.urisSized {uri : String} (h : IsArUri uri) : UrisSized (some [uri]) := by
  intro us hus
  cases hus
  refine ⟨by simp, ?_⟩
  intro u hu
  rw [List.mem_singleton.mp hu, h.length]
  decide

section Made
variable {σ : Type} {lib : PublishLibrary} (hkem : lib.crypto.CorrectKem)
  (haead : lib.crypto.aead.Lawful)
include hkem haead

/-- **A record that fits conforms.** -/
theorem PublishCall.Makes.conforms {call : PublishCall σ} {uri : String} {record : PoeRecord}
    (h : call.Makes lib uri record) (huri : IsArUri uri) (hfits : call.Fits)
    (hcount : call.Counted) : record.Conforms .default ∧ record.Sized := by
  cases call with
  | content input =>
      rw [h.2]
      refine ⟨conforms_hashesRecord (hashesConform_contentHash lib _ _), ?_, nofun, nofun⟩
      intro items hitems
      cases hitems
      refine ⟨by simp, ?_⟩
      intro item hitem
      rw [List.mem_singleton.mp hitem]
      exact ⟨by simp, nofun⟩
  | prehashed input =>
      obtain ⟨-, hashes, hhashes, hrecord⟩ := h
      rw [hrecord]
      refine ⟨conforms_hashesRecord (hashesConform_prehashedEntries hhashes), ?_, nofun, nofun⟩
      intro items hitems
      cases hitems
      refine ⟨by simp, ?_⟩
      intro item hitem
      rw [List.mem_singleton.mp hitem]
      exact ⟨lt_of_le_of_lt (length_prehashedEntries hhashes) hcount, nofun⟩
  | sealedContent input =>
      obtain ⟨-, -, os, bound, output, hwrap, hrecord⟩ := h
      obtain ⟨cek, hashesHash, built, hwrapped, henvelope⟩ := wrapped_of_wrapSecure hkem haead hwrap
      rw [hrecord, henvelope]
      have hsize := SealedKem.envelopeLength_le_iff.mpr hfits
      have hslots : input.recipients.length ≤ ValidatorOptions.default.maxSlots := by
        have hmax : input.kemChoice.sealedKem.maxRecorded ≤ 1024 := by
          cases input.kemChoice.sealedKem with
          | x25519 => decide
          | mlkem768X25519 => decide
        exact le_trans hfits hmax
      refine ⟨conforms_sealedRecord hwrapped (hashesConform_contentHash lib _ _) huri hslots hsize,
        ?_, nofun, nofun⟩
      intro items hitems
      cases hitems
      refine ⟨by simp, ?_⟩
      intro item hitem
      rw [List.mem_singleton.mp hitem]
      exact ⟨by simp, huri.urisSized⟩
  | merkle input =>
      obtain ⟨-, leaves, root, leavesList, hleaves, -, hrecord⟩ := h
      obtain ⟨hlength, hpos⟩ := length_checkLeaves hleaves
      rw [hrecord]
      refine ⟨conforms_merkleRecord hpos (hlength ▸ hfits) huri, nofun, ?_, nofun⟩
      intro merkle hmerkle
      cases hmerkle
      refine ⟨by simp, ?_⟩
      intro commit hcommit
      rw [List.mem_singleton.mp hcommit]
      exact huri.urisSized

omit hkem haead in
/-- A signature keeps what conforms. -/
theorem SignedAs.conforms {signer : Option (Signer σ)} {record signed : PoeRecord}
    (h : SignedAs signer record signed) (hrecord : record.Conforms .default)
    (hsized : record.Sized) : signed.Conforms .default ∧ signed.Sized := by
  cases signer with
  | none =>
      have hsame : signed = record := h
      rw [hsame]
      exact ⟨hrecord, hsized⟩
  | some signer =>
      obtain ⟨prepared, signature, assembled, s, s', -, -, hassembled, heq⟩ := h
      obtain ⟨hentry, hlength⟩ := assembleCoseSign1_conforms hassembled
      rw [heq]
      constructor
      · refine { hrecord with sigs := ?_ }
        intro sigs hsigs
        cases hsigs
        refine ⟨List.cons_ne_nil _ _, ?_⟩
        intro entry hmem
        rw [List.mem_singleton.mp hmem]
        exact hentry
      · refine { hsized with sigs := ?_ }
        intro sigs hsigs
        cases hsigs
        refine ⟨by simp, ?_⟩
        intro entry hmem
        rw [List.mem_singleton.mp hmem, hlength]
        decide

omit hkem haead in
theorem acceptedAs_of_conforms {record : PoeRecord} (h : record.Conforms .default)
    (hsized : record.Sized) {bytes : List UInt8} (hencode : encodePoeRecord record = .ok bytes) :
    AcceptedAs record bytes :=
  validate_of_conforms h (h.lengthsFit (by decide) hsized) hencode

/-- **A record that does not fit is refused.** -/
theorem PublishCall.Makes.fits_of_accepted {call : PublishCall σ} {uri : String}
    {record : PoeRecord} (h : call.Makes lib uri record) (hcount : call.Counted)
    {bytes : List UInt8} (haccepted : AcceptedAs record bytes) : call.Fits := by
  obtain ⟨read, warnings, info, hvalid, hsame⟩ := haccepted
  cases call with
  | content input => trivial
  | prehashed input => trivial
  | sealedContent input =>
      obtain ⟨-, -, os, bound, output, hwrap, hrecord⟩ := h
      obtain ⟨cek, hashesHash, built, hwrapped, henvelope⟩ := wrapped_of_wrapSecure hkem haead hwrap
      rw [hrecord, henvelope] at hsame
      have hitems := hsame.items
      cases hread : read.items with
      | none =>
          rw [hread] at hitems
          cases hitems
      | some items =>
          rw [hread] at hitems
          cases hitems with
          | some hforall =>
              obtain ⟨item, hmem, hclaim⟩ :=
                exists_left_of_forall₂ hforall List.mem_cons_self
              have hle := encodedLength_le_of_accepted hvalid hread hmem hclaim.enc
              have hlength := hwrapped.encodedLength_buildEnvelope
              rw [envelopeToCbor, hlength] at hle
              exact SealedKem.envelopeLength_le_iff.mp hle
  | merkle input =>
      obtain ⟨-, leaves, root, leavesList, hleaves, -, hrecord⟩ := h
      obtain ⟨hlength, -⟩ := length_checkLeaves hleaves
      have hmerkle := hsame.merkle
      rw [hrecord] at hmerkle
      have hle := (leafCount_le_of_accepted hvalid hmerkle List.mem_cons_self).2
      have hcounted : input.leaves.length < 2 ^ 64 := hcount
      rw [UInt64.toNat_ofNat', Nat.mod_eq_of_lt (by omega)] at hle
      show input.leaves.length ≤ 2 ^ 32 - 1
      rw [← hlength]
      exact hle

end Made

theorem encodes_itemToCbor {item : ItemEntry} {hash : String × List UInt8}
    (hhashes : item.hashes = [hash]) (hname : (utf8Bytes hash.1).length < 2 ^ 64)
    (henc : ∀ enc, item.enc = some enc → Encodes (envelopeToCbor enc)) :
    Encodes (itemToCbor item) := by
  have hhash : Encodes (hashesToCbor item.hashes) := by
    rw [hhashes]
    refine @encodes_presentFields [(hash.1, some (.bytes hash.2))] (by simp) ?_ ?_
    · simp only [List.forall_mem_cons]
      exact ⟨hname, nofun⟩
    · simp only [List.forall_mem_cons, Option.some.injEq, forall_eq']
      exact ⟨⟨_, rfl⟩, nofun⟩
  refine @encodes_presentFields [("hashes", some (hashesToCbor item.hashes)),
    ("uris", item.uris.map urisToCbor), ("enc", item.enc.map envelopeToCbor)]
    (show ["hashes", "uris", "enc"].Nodup by decide) ?_ ?_
  · simp only [List.forall_mem_cons]
    exact ⟨by decide, by decide, by decide, nofun⟩
  · simp only [List.forall_mem_cons, Option.some.injEq, forall_eq']
    refine ⟨hhash, fun v hv => encodes_uris hv, ?_, nofun⟩
    intro v hv
    obtain ⟨enc, heq, hv⟩ := Option.map_eq_some_iff.mp hv
    rw [← hv]
    exact henc enc heq

theorem encodes_merkleToCbor (commit : MerkleCommit) : Encodes (merkleToCbor commit) := by
  refine @encodes_presentFields [("alg", some (.text commit.alg)),
    ("root", some (.bytes commit.root)), ("leaf_count", some (.unsigned commit.leafCount)),
    ("uris", commit.uris.map urisToCbor)]
    (show ["alg", "root", "leaf_count", "uris"].Nodup by decide) ?_ ?_
  · simp only [List.forall_mem_cons]
    exact ⟨by decide, by decide, by decide, by decide, nofun⟩
  · simp only [List.forall_mem_cons, Option.some.injEq, forall_eq']
    exact ⟨exists_writeValue_text _, ⟨_, rfl⟩, ⟨_, rfl⟩, fun v hv => encodes_uris hv, nofun⟩

/-- A call that uploads. -/
def PublishCall.Stores {σ : Type} : PublishCall σ → Prop
  | .content _ => False
  | .prehashed _ => False
  | .sealedContent _ => True
  | .merkle _ => True

section Made
variable {σ : Type} {lib : PublishLibrary} (hkem : lib.crypto.CorrectKem)
  (haead : lib.crypto.aead.Lawful)
include hkem haead

/-- The record of a call that uploads encodes. -/
theorem PublishCall.Makes.encodes {call : PublishCall σ} (hstores : call.Stores) {uri : String}
    {record : PoeRecord} (h : call.Makes lib uri record) :
    Encodes (recordToCbor record true) := by
  cases call with
  | content input => exact hstores.elim
  | prehashed input => exact hstores.elim
  | sealedContent input =>
      obtain ⟨-, -, os, bound, output, hwrap, hrecord⟩ := h
      obtain ⟨cek, hashesHash, built, hwrapped, henvelope⟩ := wrapped_of_wrapSecure hkem haead hwrap
      rw [hrecord, henvelope]
      refine encodes_record rfl rfl rfl rfl ?_ nofun
      intro items hitems item hitem
      cases hitems
      rw [List.mem_singleton.mp hitem]
      have hname : (utf8Bytes (contentHash lib input.content input.hashAlg).1).length < 2 ^ 64 := by
        have halg (alg : SupportedHashAlg) : (utf8Bytes alg.asStr).length < 2 ^ 64 := by
          cases alg with
          | sha2_256 => decide
          | blake2b256 => decide
        exact halg _
      apply encodes_itemToCbor rfl hname
      intro enc henc
      cases henc
      exact (hwrapped.conforms_buildEnvelope le_rfl).encodes
  | merkle input =>
      obtain ⟨-, leaves, root, leavesList, -, -, hrecord⟩ := h
      rw [hrecord]
      exact encodes_record rfl rfl rfl rfl nofun fun _ _ c _ => encodes_merkleToCbor c

theorem acceptable_of_fits {call : PublishCall σ} (hstores : call.Stores) (hfits : call.Fits)
    (hcount : call.Counted) {uri : String} (huri : IsArUri uri) {record : PoeRecord}
    (h : call.Makes lib uri record) : call.Acceptable lib := by
  obtain ⟨hconforms, hsized⟩ := h.conforms hkem haead huri hfits hcount
  obtain ⟨bytes, hencode⟩ := h.encodes hkem haead hstores
  exact ⟨uri, record, bytes, huri, h, hencode, acceptedAs_of_conforms hconforms hsized hencode⟩

end Made

/-! ## What a run asks of the gateway -/

section Runs
variable {σ : Type} {lib : PublishLibrary} {host : PublishHost σ} {config : NamespaceConfig σ}
  {fuel : ℕ}

/-- The request is the post of a record that the call makes. -/
def PublishCall.Posts (lib : PublishLibrary) (call : PublishCall σ) (e : Exchange) : Prop :=
  ∃ uri record signed bytes, IsArUri uri ∧ call.Makes lib uri record ∧
    SignedAs call.signer record signed ∧ encodePoeRecord signed = .ok bytes ∧
    CarriesRecord lib e bytes

/-- A request of a run: an upload, once the call makes a record, or the post of that record. -/
def PublishCall.Asks (lib : PublishLibrary) (config : NamespaceConfig σ) (call : PublishCall σ)
    (e : Exchange) : Prop :=
  (UnderUploads config e.url ∧ call.Stores ∧ ∀ uri, ∃ record, call.Makes lib uri record) ∨
    e.url = publishUrl config ∧ call.Posts lib e

theorem publishUrl_not_under : ¬ UnderUploads config (publishUrl config) := by
  intro h
  obtain ⟨rest, hurl⟩ := h
  have hlists := congrArg String.toList hurl
  rw [publishUrl, String.toList_append, String.toList_append, String.toList_append] at hlists
  have hrest := List.append_cancel_left hlists
  have htake := congrArg (List.take 6) hrest
  have hpost : "/poe/publish".toList.take 6 = "/poe/p".toList := by decide
  have hload : ("/poe/uploads".toList ++ rest.toList).take 6 = "/poe/u".toList := by
    rw [List.take_append_of_le_length (by decide)]
    decide
  rw [hpost, hload] at htake
  exact absurd htake (by decide)

/-- Every request of the program is of a kind. -/
abbrev Asking (P : Exchange → Prop) {E α : Type} (m : Program (World σ Exchange) E α) : Prop :=
  Within (GrowsBy P) m

theorem Asking.bind {P : Exchange → Prop} {E α β : Type} {Q : α → Prop}
    {m : Program (World σ Exchange) E α} {f : α → Program (World σ Exchange) E β}
    (hm : Asking P m) (hreturns : Returns Q m) (hf : ∀ a, Q a → Asking P (f a)) :
    Asking P (m >>= f) :=
  Within.bind_returns (fun _ _ _ => GrowsBy.trans) hm hreturns hf

theorem Asking.seq {P : Exchange → Prop} {E α β : Type} {m : Program (World σ Exchange) E α}
    {f : α → Program (World σ Exchange) E β} (hm : Asking P m) (hf : ∀ a, Asking P (f a)) :
    Asking P (m >>= f) := Within.bind (fun _ _ _ => GrowsBy.trans) hm hf

theorem asking_validated {P : Exchange → Prop} {α : Type} (r : Except PublishError α) :
    Asking P (validated r : Publish σ α) := Within.ofResult GrowsBy.refl _

theorem returns_validated {α : Type} (r : Except PublishError α) :
    Returns (r = .ok ·) (validated r : Publish σ α) := by
  apply Returns.ofResult
  intro a h
  cases r with
  | ok b =>
      cases h
      rfl
  | error e => cases h

theorem asking_encoded {P : Exchange → Prop} (r : Except CanonicalCborError (List UInt8)) :
    Asking P (encoded r : Publish σ (List UInt8)) := Within.ofResult GrowsBy.refl _

theorem asking_askSigner {P : Exchange → Prop} (signer : Signer σ) (b : List UInt8) :
    Asking P (askSigner signer b) := by
  apply Within.ofStep
  intro w
  exact GrowsBy.of_log_eq rfl

theorem asking_encodeRecord {P : Exchange → Prop} (record : PoeRecord)
    (signer : Option (Signer σ)) : Asking P (encodeRecord record signer) := by
  cases signer with
  | none => exact asking_encoded _
  | some signer =>
      apply Asking.seq (asking_validated _)
      intro prepared
      apply Asking.seq (asking_askSigner signer _)
      intro signature
      apply Within.unless GrowsBy.refl
      apply Asking.seq (asking_validated _)
      intro assembled
      exact asking_encoded _

theorem returns_askSigner (signer : Signer σ) (b : List UInt8) :
    Returns (fun signature => ∃ s s', signer.sign b s = (.ok signature, s'))
      (askSigner signer b) := by
  intro w signature w' hrun
  rw [askSigner, exec_ofStep, Option.some.injEq, Prod.mk.injEq] at hrun
  have hanswer : (signer.sign b w.host).1.mapError PublishHelperError.signer = .ok signature :=
    hrun.1
  refine ⟨w.host, (signer.sign b w.host).2, ?_⟩
  generalize signer.sign b w.host = out at hanswer ⊢
  obtain ⟨answer, s'⟩ := out
  cases answer with
  | ok signature' =>
      cases hanswer
      rfl
  | error e => cases hanswer

/-- What is encoded is the record as the signer signed it. -/
theorem returns_encodeRecord (record : PoeRecord) (signer : Option (Signer σ)) :
    Returns (fun bytes => ∃ signed, SignedAs signer record signed ∧
      encodePoeRecord signed = .ok bytes) (encodeRecord record signer) := by
  have hencoded (record : PoeRecord) : Returns (fun bytes => encodePoeRecord record = .ok bytes)
      (encoded (encodePoeRecord record) : Publish σ (List UInt8)) := by
    apply Returns.ofResult
    intro bytes h
    cases hencode : encodePoeRecord record with
    | ok b =>
        rw [hencode] at h
        cases h
        rfl
    | error e =>
        rw [hencode] at h
        cases h
  cases signer with
  | none =>
      intro w bytes w' hrun
      exact ⟨record, rfl, hencoded record w bytes w' hrun⟩
  | some signer =>
      unfold encodeRecord
      dsimp only
      refine Returns.bind (returns_validated _) ?_
      intro prepared hprepared
      refine Returns.bind (returns_askSigner signer _) ?_
      intro signature hsignature
      refine Returns.unless _ ?_
      intro _
      refine Returns.bind (returns_validated _) ?_
      intro assembled hassembled w bytes w' hrun
      obtain ⟨s, s', hsign⟩ := hsignature
      refine ⟨_, ⟨prepared, signature, assembled, s, s', ?_, hsign, ?_, rfl⟩,
        hencoded _ w bytes w' hrun⟩
      · cases hp : prepareSigStructure record signer.signerPubkey with
        | ok p =>
            rw [hp] at hprepared
            cases hprepared
            rfl
        | error e =>
            rw [hp] at hprepared
            cases hprepared
      · cases ha : assembleCoseSign1 record signer.signerPubkey signature with
        | ok a =>
            rw [ha] at hassembled
            cases hassembled
            rfl
        | error e =>
            rw [ha] at hassembled
            cases hassembled

theorem publishBody_record (bytes : List UInt8) (quoteId : String) :
    (publishBody bytes quoteId).get "record" = some (.string (hexEncode bytes)) := by
  simp [publishBody, JsonValue.get, JsonValue.asObject, member]

theorem asking_postPublish (bytes : List UInt8) (quoteId : String) (key : Option String) :
    Asking (fun e => e.url = publishUrl config ∧ CarriesRecord lib e bytes)
      (postPublish lib config bytes quoteId key) := by
  apply Within.mapError
  have hsend : Asking (fun e => e.url = publishUrl config ∧ CarriesRecord lib e bytes)
      (send config lib.json (publishUrl config) .post (jsonHeaders config.apiKey key)
        (.json (lib.json.toText (publishBody bytes quoteId)))) := by
    apply Asking.seq
    · apply Within.ofStep
      intro w
      exact GrowsBy.of_append rfl ⟨rfl, _, _, rfl, publishBody_record bytes quoteId,
        hexDecode_hexEncode bytes⟩
    · intro response
      cases throwIfNotOk lib.json response with
      | ok response => exact Within.pure GrowsBy.refl _
      | error e => exact Within.throw GrowsBy.refl e
  apply Asking.seq hsend
  intro response
  apply Asking.seq
  · unfold decodeBody
    cases lib.published response.body with
    | ok value => exact Within.pure GrowsBy.refl _
    | error e => exact Within.throw GrowsBy.refl _
  · intro parsed
    exact Within.pure GrowsBy.refl _

theorem asking_uploadBlob (blob : List UInt8) (chunkBytes : Option UInt64)
    (key : Option String) :
    Asking (fun e => UnderUploads config e.url)
      (uploadBlob lib host config fuel blob chunkBytes key) := by
  apply Within.mapError
  apply Asking.seq (uploading_uploadResumable fuel)
  intro result
  exact Within.pure GrowsBy.refl _

theorem exec_wrapSecure_eq (args : WrapArgs) (w : World σ Exchange) :
    exec (wrapSecure lib host fuel args) w =
      match eciesSealedPoeWrapSecure lib.crypto (host.entropy w.host).1 fuel args with
      | some (.ok (.ok output)) => some (.ok output, { w with host := (host.entropy w.host).2 })
      | some (.error e) =>
          some (.error (.crypto e.toText), { w with host := (host.entropy w.host).2 })
      | some (.ok (.error _)) => none
      | none => none := rfl

theorem exec_wrapSecure {args : WrapArgs} {w w' : World σ Exchange}
    {r : Except PublishHelperError SealedPoeOutput}
    (h : exec (wrapSecure lib host fuel args) w = some (r, w')) :
    w'.log = w.log ∧ ∀ output, r = .ok output →
      eciesSealedPoeWrapSecure lib.crypto (host.entropy w.host).1 fuel args =
        some (.ok (.ok output)) := by
  rw [exec_wrapSecure_eq] at h
  split at h
  · cases h
    refine ⟨rfl, ?_⟩
    intro output heq
    cases heq
    assumption
  · cases h
    refine ⟨rfl, ?_⟩
    intro output heq
    cases heq
  · cases h
  · cases h

theorem exec_wrapSecure_of_ok {args : WrapArgs} {output : SealedPoeOutput} {w : World σ Exchange}
    (h : eciesSealedPoeWrapSecure lib.crypto (host.entropy w.host).1 fuel args =
      some (.ok (.ok output))) :
    exec (wrapSecure lib host fuel args) w =
      some (.ok output, { w with host := (host.entropy w.host).2 }) := by
  rw [exec_wrapSecure_eq, h]

theorem sampleArUri_isArUri : IsArUri "ar://AAAAAAAAAAAAAAAAAAAAAAAAAAAAAAAAAAAAAAAAAAA" :=
  ⟨"AAAAAAAAAAAAAAAAAAAAAAAAAAAAAAAAAAAAAAAAAAA", by decide, by decide⟩

/-- Encode the record that the call makes, and post it. -/
theorem asking_finish {call : PublishCall σ} {uri : String} {record : PoeRecord}
    (huri : IsArUri uri) (hmakes : call.Makes lib uri record) {β : Type}
    {f : List UInt8 → Publish σ β} (hf : ∀ bytes,
      Asking (fun e => e.url = publishUrl config ∧ CarriesRecord lib e bytes) (f bytes)) :
    Asking (call.Asks lib config) (encodeRecord record call.signer >>= f) := by
  apply Asking.bind (asking_encodeRecord record call.signer) (returns_encodeRecord _ _)
  intro bytes hbytes
  obtain ⟨signed, hsigned, hencode⟩ := hbytes
  refine Within.mono ?_ (hf bytes)
  intro w w'
  apply GrowsBy.mono
  intro e he
  exact .inr ⟨he.1, uri, record, signed, bytes, huri, hmakes, hsigned, hencode, he.2⟩

theorem asking_publishContent (input : PublishContentInput σ) :
    Asking ((PublishCall.content input).Asks lib config) (publishContent lib config input) := by
  apply Asking.bind (asking_validated _) (returns_validated _)
  intro _ hsigner
  exact @asking_finish _ lib config (.content input) _ _ sampleArUri_isArUri ⟨hsigner, rfl⟩ _ _
    fun bytes => asking_postPublish _ _ _

theorem asking_publishPrehashed (input : PublishPrehashedInput σ) :
    Asking ((PublishCall.prehashed input).Asks lib config)
      (publishPrehashed lib config input) := by
  apply Asking.bind (asking_validated _) (returns_validated _)
  intro _ hsigner
  apply Asking.bind (asking_validated _) (returns_validated _)
  intro hashes hhashes
  exact @asking_finish _ lib config (.prehashed input) _ _ sampleArUri_isArUri
    ⟨hsigner, hashes, hhashes, rfl⟩ _ _ fun bytes => asking_postPublish _ _ _

theorem asking_publishSealed (huploads : ConformantUploads lib host config fuel)
    (input : PublishSealedInput σ) :
    Asking ((PublishCall.sealedContent input).Asks lib config)
      (publishSealed lib host config fuel input) := by
  apply Asking.bind (asking_validated _) (returns_validated _)
  intro _ hsigner
  apply Asking.bind (asking_validated _) (returns_validated _)
  intro _ hrecipients
  have hwrap : Asking ((PublishCall.sealedContent input).Asks lib config)
      (wrapSecure lib host fuel (publishWrapArgs lib input)) := by
    intro w r w' hrun
    exact GrowsBy.of_log_eq (exec_wrapSecure hrun).1
  have houtput : Returns (fun output => ∃ os, eciesSealedPoeWrapSecure lib.crypto os fuel
      (publishWrapArgs lib input) = some (.ok (.ok output)))
      (wrapSecure lib host fuel (publishWrapArgs lib input)) := by
    intro w output w' hrun
    exact ⟨_, (exec_wrapSecure hrun).2 output rfl⟩
  apply Asking.bind hwrap houtput
  intro output houtput
  obtain ⟨os, hos⟩ := houtput
  have hmakes (uri : String) : (PublishCall.sealedContent input).Makes lib uri
      (sealedRecord (contentHash lib input.content input.hashAlg) output.envelope uri) :=
    ⟨hsigner, hrecipients, os, fuel, output, hos, rfl⟩
  have hupload : Asking ((PublishCall.sealedContent input).Asks lib config)
      (uploadBlob lib host config fuel output.ciphertext input.chunkBytes
        input.idempotencyKey) := by
    refine Within.mono ?_ (asking_uploadBlob _ _ _)
    intro w w'
    exact GrowsBy.mono fun e he => .inl ⟨he, trivial, fun uri => ⟨_, hmakes uri⟩⟩
  apply Asking.bind hupload (huploads _ _ _)
  intro uri huri
  exact @asking_finish _ lib config (.sealedContent input) _ _ huri (hmakes uri) _ _
    fun bytes => asking_postPublish _ _ _

theorem asking_publishMerkle (huploads : ConformantUploads lib host config fuel)
    (input : PublishMerkleInput σ) :
    Asking ((PublishCall.merkle input).Asks lib config)
      (publishMerkle lib host config fuel input) := by
  apply Asking.bind (asking_validated _) (returns_validated _)
  intro _ hsigner
  apply Asking.bind (asking_validated _) (returns_validated _)
  intro leaves hleaves
  have hcommit : Returns (commitLeaves lib leaves = .ok ·)
      (ofResult (commitLeaves lib leaves) : Publish σ (Digest × List UInt8)) :=
    Returns.ofResult fun _ h => h
  apply Asking.bind (Within.ofResult GrowsBy.refl _) hcommit
  intro committed hcommitted
  obtain ⟨root, leavesList⟩ := committed
  have hmakes (uri : String) : (PublishCall.merkle input).Makes lib uri
      (merkleRecord root leaves.length uri) :=
    ⟨hsigner, leaves, root, leavesList, hleaves, hcommitted, rfl⟩
  have hupload : Asking ((PublishCall.merkle input).Asks lib config)
      (uploadBlob lib host config fuel leavesList input.chunkBytes input.idempotencyKey) := by
    refine Within.mono ?_ (asking_uploadBlob _ _ _)
    intro w w'
    exact GrowsBy.mono fun e he => .inl ⟨he, trivial, fun uri => ⟨_, hmakes uri⟩⟩
  apply Asking.bind hupload (huploads _ _ _)
  intro uri huri
  apply @asking_finish _ lib config (.merkle input) _ _ huri (hmakes uri)
  intro bytes
  apply Asking.seq (asking_postPublish _ _ _)
  intro published
  exact Within.pure GrowsBy.refl _

/-- **What a run asks of the gateway.** -/
theorem asking_run (huploads : ConformantUploads lib host config fuel) (call : PublishCall σ) :
    Asking (call.Asks lib config) (call.run lib host config fuel) := by
  cases call with
  | content input =>
      exact Asking.seq (asking_publishContent input) fun _ => Within.pure GrowsBy.refl _
  | prehashed input =>
      exact Asking.seq (asking_publishPrehashed input) fun _ => Within.pure GrowsBy.refl _
  | sealedContent input =>
      exact Asking.seq (asking_publishSealed huploads input) fun _ => Within.pure GrowsBy.refl _
  | merkle input =>
      exact Asking.seq (asking_publishMerkle huploads input) fun _ => Within.pure GrowsBy.refl _

theorem asks_of_mem_log (huploads : ConformantUploads lib host config fuel)
    {call : PublishCall σ} {s : σ} {r : Except PublishHelperError Unit} {w' : World σ Exchange}
    (hrun : exec (call.run lib host config fuel) ⟨s, []⟩ = some (r, w')) {e : Exchange}
    (he : e ∈ w'.log) : call.Asks lib config e := by
  obtain ⟨new, hlog, hnew⟩ := asking_run huploads call _ _ _ hrun
  rw [hlog] at he
  exact hnew e he

end Runs

/-! ## A gateway that cannot be reached -/

section Unreachable
variable {σ : Type}

/-- Every request fails on the way. -/
def unreachable : NamespaceConfig σ where
  apiKey := none
  baseUrl := ""
  transport := fun url _ _ _ s => (.error (.transport url "connection refused"), s)

/-- A host with this generator, whose clock and files are not used. -/
def idleHost (os : OsRng) : PublishHost σ where
  now := fun s => (0, s)
  sleep := fun _ s => s
  fileLen := fun _ s => (.error "", s)
  fileContents := fun _ s => (.error "", s)
  fileRead := fun _ _ _ s => (.error "", s)
  entropy := fun s => (os, s)

/-- A generator that leaves the buffer as it was. -/
def idleRng : OsRng := ⟨fun _ => none, fun _ _ b => b⟩

variable {lib : PublishLibrary} {os : OsRng} {fuel : ℕ}

/-- The failure of a request. -/
def refused (url : String) : OutboundError := .transport url "connection refused"

theorem exec_singleShot_unreachable (blob : List UInt8) (chunkBytes : Option UInt64)
    (key : Option String) (w : World σ Exchange) :
    exec (singleShot lib.json lib.uploads (idleHost os).toUploadHost unreachable
        (blobInput blob chunkBytes key)) w =
      some (.error (.http (.outbound (refused ("" ++ "/poe/uploads")))),
        ⟨w.host, w.log ++ [⟨"" ++ "/poe/uploads", .post, multipartHeaders none key,
          .multipart (uploadFields (@blobInput σ blob chunkBytes key) blob),
          .error (refused ("" ++ "/poe/uploads"))⟩]⟩) := rfl

theorem exec_chunked_unreachable (blob : List UInt8) (chunkBytes : Option UInt64)
    (key : Option String) (w : World σ Exchange) :
    ∃ e, exec (chunked lib.json lib.uploads lib.crypto.sha256 (idleHost os).toUploadHost
        unreachable (blobInput blob chunkBytes key) fuel) w =
      some (.error (.http (.outbound (refused ("" ++ "/poe/uploads/sessions")))),
        ⟨w.host, w.log ++ [e]⟩) ∧ e.url = "" ++ "/poe/uploads/sessions" :=
  ⟨_, rfl, rfl⟩

/-- One request, and no uri. -/
theorem exec_uploadBlob_unreachable (blob : List UInt8) (chunkBytes : Option UInt64)
    (key : Option String) (w : World σ Exchange) :
    ∃ error e, exec (uploadBlob lib (idleHost os) unreachable fuel blob chunkBytes key) w =
        some (.error error, ⟨w.host, w.log ++ [e]⟩) ∧
      UnderUploads (unreachable : NamespaceConfig σ) e.url := by
  have hchoice : exec (uploadResumable lib.json lib.uploads lib.crypto.sha256
      (idleHost os).toUploadHost unreachable (blobInput blob chunkBytes key) fuel) w =
      exec (if UInt64.ofNat blob.length ≤ defaultResumableThresholdBytes then
        singleShot lib.json lib.uploads (idleHost os).toUploadHost unreachable
          (blobInput blob chunkBytes key)
        else chunked lib.json lib.uploads lib.crypto.sha256 (idleHost os).toUploadHost unreachable
          (blobInput blob chunkBytes key) fuel) w := rfl
  rw [uploadBlob, exec_mapError, exec_bind, hchoice]
  by_cases hsmall : UInt64.ofNat blob.length ≤ defaultResumableThresholdBytes
  · rw [if_pos hsmall, exec_singleShot_unreachable]
    exact ⟨_, _, rfl, "", rfl⟩
  · obtain ⟨e, hexec, hurl⟩ := @exec_chunked_unreachable σ lib os fuel blob chunkBytes key w
    rw [if_neg hsmall, hexec]
    refine ⟨_, e, rfl, "/sessions", ?_⟩
    rw [hurl]
    rfl

theorem conformantUploads_unreachable :
    ConformantUploads lib (idleHost os) (unreachable : NamespaceConfig σ) fuel := by
  intro blob chunkBytes key w uri w' hrun
  obtain ⟨error, e, hexec, -⟩ := @exec_uploadBlob_unreachable σ lib os fuel blob chunkBytes key w
  rw [hexec] at hrun
  cases hrun

theorem exec_validated {α : Type} {r : Except PublishError α} {a : α} (h : r = .ok a)
    (w : World σ Exchange) : exec (validated r) w = some (.ok a, w) := by
  rw [h]
  rfl

/-- **A call whose record can be made is uploaded.** -/
theorem exists_upload {call : PublishCall σ} (hstores : call.Stores) {uri : String}
    {record : PoeRecord} (h : call.Makes lib uri record) (s : σ) :
    ∃ host config fuel r w' e, ConformantUploads lib host config fuel ∧
      exec (call.run lib host config fuel) ⟨s, []⟩ = some (r, w') ∧ e ∈ w'.log ∧
      UnderUploads config e.url := by
  cases call with
  | content input => exact hstores.elim
  | prehashed input => exact hstores.elim
  | sealedContent input =>
      obtain ⟨hsigner, hrecipients, os, bound, output, hwrap, -⟩ := h
      obtain ⟨error, e, hupload, hunder⟩ := @exec_uploadBlob_unreachable σ lib os bound
        output.ciphertext input.chunkBytes input.idempotencyKey ⟨s, []⟩
      have hsealed : exec (wrapSecure lib (idleHost os) bound (publishWrapArgs lib input))
          (⟨s, []⟩ : World σ Exchange) = some (.ok output, ⟨s, []⟩) :=
        exec_wrapSecure_of_ok hwrap
      refine ⟨idleHost os, unreachable, bound, .error error, ⟨s, [e]⟩, e,
        conformantUploads_unreachable, ?_, List.mem_singleton.mpr rfl, hunder⟩
      rw [PublishCall.run, publishSealed]
      simp only [exec_bind, exec_validated hsigner, exec_validated hrecipients, hsealed, hupload,
        Option.bind_some, List.nil_append]
  | merkle input =>
      obtain ⟨hsigner, leaves, root, leavesList, hleaves, hcommit, -⟩ := h
      obtain ⟨error, e, hupload, hunder⟩ := @exec_uploadBlob_unreachable σ lib idleRng 0
        leavesList input.chunkBytes input.idempotencyKey ⟨s, []⟩
      refine ⟨idleHost idleRng, unreachable, 0, .error error, ⟨s, [e]⟩, e,
        conformantUploads_unreachable, ?_, List.mem_singleton.mpr rfl, hunder⟩
      rw [PublishCall.run, publishMerkle]
      simp only [exec_bind, exec_validated hsigner, exec_validated hleaves, exec_ofResult, hcommit,
        hupload, Option.bind_some, List.nil_append]

end Unreachable

/-! ## When the records are accepted -/

theorem PublishCall.fits_or_stores {σ : Type} (call : PublishCall σ) : call.Fits ∨ call.Stores := by
  cases call with
  | content input => exact .inl trivial
  | prehashed input => exact .inl trivial
  | sealedContent input => exact .inr trivial
  | merkle input => exact .inr trivial

/-- A call of which a record is made is safe only if it fits. -/
theorem fits_of_publishSafe {σ : Type} [Inhabited σ] {lib : PublishLibrary}
    (hkem : lib.crypto.CorrectKem) (haead : lib.crypto.aead.Lawful) {call : PublishCall σ}
    (hcount : call.Counted) (hsafe : PublishSafe lib call) {uri : String} {record : PoeRecord}
    (hmakes : call.Makes lib uri record) : call.Fits := by
  rcases call.fits_or_stores with hfits | hstores
  · exact hfits
  · obtain ⟨host, config, fuel, r, w', e, huploads, hrun, he, hunder⟩ :=
      exists_upload hstores hmakes default
    obtain ⟨uri', record', bytes, -, hmakes', -, haccepted⟩ :=
      hsafe.uploaded host config fuel huploads default r w' hrun e he hunder
    exact hmakes'.fits_of_accepted hkem haead hcount haccepted

/-- **Every record of a helper is accepted exactly when its recipients or its leaves are not too
many**, or when nothing is made of the call at all. -/
theorem publishSafe_iff {σ : Type} [Inhabited σ] {lib : PublishLibrary}
    (hkem : lib.crypto.CorrectKem) (haead : lib.crypto.aead.Lawful) {call : PublishCall σ}
    (hcount : call.Counted) :
    PublishSafe lib call ↔ call.Fits ∨ ∀ uri record, ¬ call.Makes lib uri record := by
  constructor
  · intro hsafe
    by_cases hmade : ∃ uri record, call.Makes lib uri record
    · obtain ⟨uri, record, hmakes⟩ := hmade
      exact .inl (fits_of_publishSafe hkem haead hcount hsafe hmakes)
    · refine .inr ?_
      intro uri record hmakes
      exact hmade ⟨uri, record, hmakes⟩
  · intro hcond
    have hfits {uri : String} {record : PoeRecord} (hmakes : call.Makes lib uri record) :
        call.Fits := hcond.elim id fun hnone => absurd hmakes (hnone uri record)
    constructor
    · intro host config fuel huploads s r w' hrun e he hpost hurl
      rcases asks_of_mem_log huploads hrun he with ⟨hunder, -⟩ | ⟨-, hposts⟩
      · rw [hurl] at hunder
        exact absurd hunder publishUrl_not_under
      · obtain ⟨uri, record, signed, bytes, huri, hmakes, hsigned, hencode, hcarries⟩ := hposts
        obtain ⟨hconforms, hsized⟩ :=
          hmakes.conforms hkem haead huri (hfits hmakes) hcount
        obtain ⟨hsignedConforms, hsignedSized⟩ := hsigned.conforms hconforms hsized
        exact ⟨uri, record, signed, bytes, hmakes, hsigned, hencode, hcarries,
          acceptedAs_of_conforms hsignedConforms hsignedSized hencode⟩
    · intro host config fuel huploads s r w' hrun e he hunder
      rcases asks_of_mem_log huploads hrun he with ⟨-, hstores, hmade⟩ | ⟨hurl, -⟩
      · obtain ⟨record, hmakes⟩ := hmade "ar://AAAAAAAAAAAAAAAAAAAAAAAAAAAAAAAAAAAAAAAAAAA"
        exact acceptable_of_fits hkem haead hstores (hfits hmakes) hcount sampleArUri_isArUri hmakes
      · rw [hurl] at hunder
        exact absurd hunder publishUrl_not_under

/-- A library over the wide primitives, whose decoders answer nothing. -/
def wideLibrary : PublishLibrary where
  json :=
    { fromSlice := fun _ => .error "expected value"
      toText := fun _ => "\x7b\x7d" }
  uploads :=
    { uploads := fun _ => .error "missing field"
      created := fun _ => .error "missing field"
      deduplicated := fun _ => .error "missing field"
      status := fun _ => .error "missing field"
      chunkAck := fun _ => .error "missing field"
      attempt := fun _ => .error "missing field" }
  published := fun _ => .error "missing field"
  crypto := wideCrypto
  blake2b256 := fun _ => FixedBytes.zero 32

/-- The empty content for so many recipients of the hybrid KEM. -/
def wideSealedInput (n : ℕ) : PublishSealedInput ℕ where
  content := []
  recipients := List.replicate n (List.replicate 1216 0)
  quoteId := "quote"
  hashAlg := none
  kem := none
  signer := none
  idempotencyKey := none
  chunkBytes := none

/-- The word `hello` for the recipient of the sample. -/
def helloSealedInput : PublishSealedInput ℕ where
  content := utf8Bytes "hello"
  recipients := [roundTripPublicKey.val]
  quoteId := "quote"
  hashAlg := none
  kem := some .x25519
  signer := none
  idempotencyKey := none
  chunkBytes := none

def roundTripLibrary : PublishLibrary := { wideLibrary with crypto := roundTripCrypto }

theorem publishSafe_helloSealed :
    helloSealedInput.recipients.length ≤ SealedKem.x25519.maxRecorded ∧
      PublishSafe roundTripLibrary (.sealedContent helloSealedInput) := by
  have hle : helloSealedInput.recipients.length ≤ SealedKem.x25519.maxRecorded := by decide
  have hcount : (PublishCall.sealedContent helloSealedInput).Counted := trivial
  exact ⟨hle, (publishSafe_iff roundTripCrypto_correctKem roundTripCipher.lawful hcount).mpr
    (.inl hle)⟩

theorem wideSealed_succeeds : (eciesSealedPoeWrapWithRng wideCrypto countingRng.source 1
    (publishWrapArgs wideLibrary (wideSealedInput 56))).yields .start
      (fun result s => match result with
        | .ok _ => s.rngError.isNone
        | .error _ => false) = true := by
  decide +kernel

/-- For 56 recipients of the hybrid KEM the sealed content is uploaded, and the record is
refused. -/
theorem not_publishSafe_wideSealed :
    wideCrypto.CorrectKem ∧ wideCrypto.aead.Lawful ∧
      ¬ PublishSafe wideLibrary (.sealedContent (wideSealedInput 56)) := by
  have haead : wideCrypto.aead.Lawful := StreamCipher.lawful _
  refine ⟨wideCrypto_correctKem, haead, ?_⟩
  intro hsafe
  obtain ⟨result, s, hgives, htest⟩ := Draw.gives_of_yields wideSealed_succeeds
  cases result with
  | error e => cases htest
  | ok output =>
      have hrng : s.rngError = none := Option.isNone_iff_eq_none.mp htest
      have hwrap : eciesSealedPoeWrapSecure wideCrypto countingRng 1
          (publishWrapArgs wideLibrary (wideSealedInput 56)) = some (.ok (.ok output)) := by
        rw [eciesSealedPoeWrapSecure, hgives, Option.map_some]
        dsimp only
        rw [hrng]
      have hmakes : (PublishCall.sealedContent (wideSealedInput 56)).Makes wideLibrary "" _ :=
        ⟨rfl, by decide +kernel, countingRng, 1, output, hwrap, rfl⟩
      have hcount : (PublishCall.sealedContent (wideSealedInput 56)).Counted := trivial
      have hfits := fits_of_publishSafe wideCrypto_correctKem haead hcount hsafe hmakes
      have hle : (List.replicate 56 (List.replicate 1216 (0 : UInt8))).length ≤ 55 := hfits
      rw [List.length_replicate] at hle
      exact absurd hle (by decide)

end Label309
