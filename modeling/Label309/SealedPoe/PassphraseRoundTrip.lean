import Label309.SealedPoe.Passphrase
import Label309.SealedPoe.StreamBijection
import Label309.SealedPoe.WrapUnwrap

/-!
# Sealing under a passphrase and opening again

A blob opens to a plaintext exactly when the plaintext seals to it. The two functions refuse the
same inputs, but a blob too short for a commitment and a tag is rejected before the password
hash can refuse its parameters.
-/
namespace Label309
open ExceptBind

/-- Open a blob with the inputs of a seal, under some spelling of the passphrase. -/
def PassphraseSealArgs.opening (args : PassphraseSealArgs) (passphrase : String)
    (blob : List UInt8) : PassphraseOpenArgs where
  blob := blob
  passphrase := passphrase
  aead := aeadChacha20Poly1305Stream64k
  alg := passphraseKdfArgon2id
  salt := args.salt
  m := args.m
  t := args.t
  p := args.p
  nonce := args.nonce
  hashes := args.hashes

section Path
variable (kdf : PassphrasePrimitives) (crypto : SealedPrimitives)

/-- The checks that seal and open share, before the password hash. -/
structure CheckedInputs (args : PassphraseSealArgs) (hashesHash : FixedBytes 32)
    (normalized : String) : Prop where
  hashes : itemHashesHash crypto args.hashes = .ok hashesHash
  passphrase : normalizePassphrase kdf args.passphrase = .ok normalized
  inputs : assertKdfInputs args.salt args.nonce args.m args.t args.p = .ok ()

/-- The password hash takes its parameters, the passphrase and the salt. -/
def Argon2Accepts (args : PassphraseSealArgs) (normalized : String) : Prop :=
  kdf.argon2Params args.m.toNat args.t.toNat args.p.toNat = .ok () ∧
    ∃ cek, kdf.argon2id (utf8Bytes normalized) args.salt args.m.toNat args.t.toNat
      args.p.toNat = .ok cek

/-- The commitment for a content key. -/
def sealCommitment (args : PassphraseSealArgs) (cek hashesHash : FixedBytes 32) : FixedBytes 32 :=
  passphraseCommitment crypto cek.val
    (computePassphraseHash crypto aeadChacha20Poly1305Stream64k args.nonce passphraseKdfArgon2id
      args.salt args.m args.t args.p hashesHash)

/-- The blob for a content key. -/
def sealBlob (args : PassphraseSealArgs) (cek hashesHash : FixedBytes 32) :
    Except SealPanic (List UInt8) :=
  (streamSeal crypto.aead (passphrasePayloadKey crypto cek.val args.nonce) args.plaintext).map
    ((sealCommitment crypto args cek hashesHash).val ++ ·)

/-! ## The password hash -/

theorem le_argon2ParamMax_of_assertKdfInputs {salt nonce : List UInt8} {m t p : UInt64}
    (h : assertKdfInputs salt nonce m t p = .ok ()) :
    m.toNat ≤ argon2ParamMax ∧ t.toNat ≤ argon2ParamMax ∧ p.toNat ≤ argon2ParamMax := by
  cases hout : paramOutOfRange [("m", m), ("t", t), ("p", p)] with
  | some bad =>
      rw [assertKdfInputs, hout] at h
      split_ifs at h
  | none =>
      simp only [paramOutOfRange] at hout
      split_ifs at hout
      omega

theorem argon2Param_eq_ok {name : String} {value : UInt64} (h : value.toNat ≤ argon2ParamMax) :
    argon2Param name value = .ok value.toNat :=
  if_neg (Nat.not_lt.mpr h)

/-- On checked inputs the content key exists when the password hash accepts. -/
theorem exists_argon2Cek_iff {args : PassphraseSealArgs} {normalized : String}
    (h : assertKdfInputs args.salt args.nonce args.m args.t args.p = .ok ()) :
    (∃ cek, argon2Cek kdf normalized args.salt args.m args.t args.p = .ok cek) ↔
      Argon2Accepts kdf args normalized := by
  have hrange := le_argon2ParamMax_of_assertKdfInputs h
  rw [argon2Cek, argon2Param_eq_ok hrange.1, argon2Param_eq_ok hrange.2.1,
    argon2Param_eq_ok hrange.2.2, Argon2Accepts]
  simp only [ok_bind]
  cases kdf.argon2Params args.m.toNat args.t.toNat args.p.toNat with
  | error e => simp
  | ok _ =>
      cases kdf.argon2id (utf8Bytes normalized) args.salt args.m.toNat args.t.toNat
          args.p.toNat with
      | error e => simp
      | ok cek => simp

/-! ## What the two functions return -/

theorem passphraseSealedPoeSeal_eq_ok {args : PassphraseSealArgs}
    {result : Except SealPanic (List UInt8)} :
    passphraseSealedPoeSeal kdf crypto args = .ok result ↔
      ∃ hashesHash normalized cek, CheckedInputs kdf crypto args hashesHash normalized ∧
        argon2Cek kdf normalized args.salt args.m args.t args.p = .ok cek ∧
        result = sealBlob crypto args cek hashesHash := by
  rw [passphraseSealedPoeSeal]
  simp only [bind_eq_ok]
  constructor
  · intro h
    obtain ⟨_, hinputs, normalized, hnormalized, cek, hcek, hashesHash, hhashes, hresult⟩ := h
    exact ⟨hashesHash, normalized, cek, ⟨hhashes, hnormalized, hinputs⟩, hcek,
      (Except.ok.inj hresult).symm⟩
  · intro h
    obtain ⟨hashesHash, normalized, cek, hchecked, hcek, hresult⟩ := h
    exact ⟨(), hchecked.inputs, normalized, hchecked.passphrase, cek, hcek, hashesHash,
      hchecked.hashes, congrArg Except.ok hresult.symm⟩

/-- With the registered identifiers the checks on them pass. -/
theorem passphraseSealedPoeOpen_opening (args : PassphraseSealArgs) (passphrase : String)
    (blob : List UInt8) :
    passphraseSealedPoeOpen kdf crypto (args.opening passphrase blob) = (do
      let hashesHash ← itemHashesHash crypto args.hashes
      let normalized ← normalizePassphrase kdf passphrase
      assertKdfInputs args.salt args.nonce args.m args.t args.p
      if blob.length < minPassphraseBlobLength then .ok .rejected
      else do
        let cek ← argon2Cek kdf normalized args.salt args.m args.t args.p
        .ok (openPassphraseBlob crypto (args.opening passphrase blob) cek hashesHash)) := by
  simp only [passphraseSealedPoeOpen, PassphraseSealArgs.opening, ne_eq, not_true_eq_false,
    if_false]
  rfl

theorem passphraseSealedPoeOpen_eq_ok {args : PassphraseSealArgs} {passphrase : String}
    {blob : List UInt8} {result : PassphraseOpenResult} :
    passphraseSealedPoeOpen kdf crypto (args.opening passphrase blob) = .ok result ↔
      ∃ hashesHash normalized,
        CheckedInputs kdf crypto { args with passphrase := passphrase } hashesHash normalized ∧
        (blob.length < minPassphraseBlobLength ∧ result = .rejected ∨
          minPassphraseBlobLength ≤ blob.length ∧
            ∃ cek, argon2Cek kdf normalized args.salt args.m args.t args.p = .ok cek ∧
              result = openPassphraseBlob crypto (args.opening passphrase blob) cek hashesHash) := by
  rw [passphraseSealedPoeOpen_opening]
  simp only [bind_eq_ok]
  constructor
  · intro h
    obtain ⟨hashesHash, hhashes, normalized, hnormalized, _, hinputs, hrest⟩ := h
    refine ⟨hashesHash, normalized, ⟨hhashes, hnormalized, hinputs⟩, ?_⟩
    by_cases hshort : blob.length < minPassphraseBlobLength
    · rw [if_pos hshort] at hrest
      exact .inl ⟨hshort, (Except.ok.inj hrest).symm⟩
    · rw [if_neg hshort,
        bind_eq_ok] at hrest
      obtain ⟨cek, hcek, hresult⟩ := hrest
      exact .inr ⟨Nat.not_lt.mp hshort, cek, hcek, (Except.ok.inj hresult).symm⟩
  · intro h
    obtain ⟨hashesHash, normalized, hchecked, hcase⟩ := h
    refine ⟨hashesHash, hchecked.hashes, normalized, hchecked.passphrase, (), hchecked.inputs, ?_⟩
    by_cases hshort : blob.length < minPassphraseBlobLength
    · rw [if_pos hshort]
      cases hcase with
      | inl hrejected => rw [hrejected.2]
      | inr hopen => exact absurd hopen.1 (Nat.not_le.mpr hshort)
    · rw [if_neg hshort, bind_eq_ok]
      cases hcase with
      | inl hrejected => exact absurd hrejected.1 hshort
      | inr hopen =>
          obtain ⟨-, cek, hcek, hresult⟩ := hopen
          exact ⟨cek, hcek, congrArg Except.ok hresult.symm⟩

theorem passphraseSealedPoeSeal_eq_error_iff {args : PassphraseSealArgs} :
    (∃ e, passphraseSealedPoeSeal kdf crypto args = .error e) ↔
      ∀ hashesHash normalized, CheckedInputs kdf crypto args hashesHash normalized →
        ¬ Argon2Accepts kdf args normalized := by
  rw [← not_ok_iff_error]
  constructor
  · intro h hashesHash normalized hchecked haccepts
    obtain ⟨cek, hcek⟩ := (exists_argon2Cek_iff kdf hchecked.inputs).mpr haccepts
    exact h ⟨_, (passphraseSealedPoeSeal_eq_ok kdf crypto).mpr
      ⟨hashesHash, normalized, cek, hchecked, hcek, rfl⟩⟩
  · intro h hok
    obtain ⟨result, hok⟩ := hok
    obtain ⟨hashesHash, normalized, cek, hchecked, hcek, -⟩ :=
      (passphraseSealedPoeSeal_eq_ok kdf crypto).mp hok
    exact h hashesHash normalized hchecked
      ((exists_argon2Cek_iff kdf hchecked.inputs).mp ⟨cek, hcek⟩)

theorem passphraseSealedPoeOpen_eq_error_iff {args : PassphraseSealArgs} {blob : List UInt8} :
    (∃ e, passphraseSealedPoeOpen kdf crypto (args.opening args.passphrase blob) = .error e) ↔
      ∀ hashesHash normalized, CheckedInputs kdf crypto args hashesHash normalized →
        minPassphraseBlobLength ≤ blob.length ∧ ¬ Argon2Accepts kdf args normalized := by
  rw [← not_ok_iff_error]
  constructor
  · intro h hashesHash normalized hchecked
    have hlong : minPassphraseBlobLength ≤ blob.length := by
      by_contra hshort
      exact h ⟨_, (passphraseSealedPoeOpen_eq_ok kdf crypto).mpr
        ⟨hashesHash, normalized, hchecked, .inl ⟨Nat.not_le.mp hshort, rfl⟩⟩⟩
    refine ⟨hlong, fun haccepts => ?_⟩
    obtain ⟨cek, hcek⟩ := (exists_argon2Cek_iff kdf hchecked.inputs).mpr haccepts
    exact h ⟨_, (passphraseSealedPoeOpen_eq_ok kdf crypto).mpr
      ⟨hashesHash, normalized, hchecked, .inr ⟨hlong, cek, hcek, rfl⟩⟩⟩
  · intro h hok
    obtain ⟨result, hok⟩ := hok
    obtain ⟨hashesHash, normalized, hchecked, hcase⟩ :=
      (passphraseSealedPoeOpen_eq_ok kdf crypto).mp hok
    obtain ⟨hlong, hrefuses⟩ := h hashesHash normalized hchecked
    cases hcase with
    | inl hrejected => exact absurd hrejected.1 (Nat.not_lt.mpr hlong)
    | inr hopen =>
        obtain ⟨-, cek, hcek, -⟩ := hopen
        exact hrefuses ((exists_argon2Cek_iff kdf hchecked.inputs).mp ⟨cek, hcek⟩)

/-! ## The blob -/

theorem openPassphraseBlob_opening (args : PassphraseSealArgs) (passphrase : String)
    (blob : List UInt8) (cek hashesHash : FixedBytes 32) :
    openPassphraseBlob crypto (args.opening passphrase blob) cek hashesHash =
      if (sealCommitment crypto args cek hashesHash).val = blob.take 32 then
        match streamOpen crypto.aead (passphrasePayloadKey crypto cek.val args.nonce)
            (blob.drop 32) with
        | some plaintext => .opened plaintext
        | none => .rejected
      else .rejected := rfl

section Lawful
variable {crypto} (haead : crypto.aead.Lawful)
include haead

/-- A content key opens exactly the blob that it seals. -/
theorem openPassphraseBlob_eq_opened {args : PassphraseSealArgs} {passphrase : String}
    {blob : List UInt8} {cek hashesHash : FixedBytes 32} {p : List UInt8} :
    openPassphraseBlob crypto (args.opening passphrase blob) cek hashesHash = .opened p ↔
      sealBlob crypto { args with plaintext := p } cek hashesHash = .ok blob := by
  have hstream := (stream_bijection (passphrasePayloadKey crypto cek.val args.nonce) haead).1
  have hlength := (sealCommitment crypto args cek hashesHash).property
  rw [openPassphraseBlob_opening, sealBlob, map_eq_ok]
  constructor
  · intro h
    split_ifs at h with hcommitment
    cases hplain : streamOpen crypto.aead (passphrasePayloadKey crypto cek.val args.nonce)
        (blob.drop 32) with
    | none => rw [hplain] at h; cases h
    | some plaintext =>
        rw [hplain] at h
        cases h
        refine ⟨blob.drop 32, (hstream _ _).mp hplain, ?_⟩
        show (sealCommitment crypto args cek hashesHash).val ++ blob.drop 32 = blob
        rw [hcommitment, List.take_append_drop]
  · intro h
    obtain ⟨c, hc, hblob⟩ := h
    have hsplit : (sealCommitment crypto args cek hashesHash).val ++ c = blob := hblob
    rw [← hsplit, List.take_left' hlength, List.drop_left' hlength, if_pos rfl,
      (hstream _ _).mpr hc]

/-- A sealed blob has room for the commitment and a tag. -/
theorem le_length_of_sealBlob {args : PassphraseSealArgs} {cek hashesHash : FixedBytes 32}
    {blob : List UInt8} (h : sealBlob crypto args cek hashesHash = .ok blob) :
    minPassphraseBlobLength ≤ blob.length := by
  obtain ⟨c, hc, hblob⟩ := map_eq_ok.mp h
  have hopen := (stream_bijection (passphrasePayloadKey crypto cek.val args.nonce) haead).1 _ _
    |>.mpr hc
  have htag : tagSize ≤ c.length := by
    by_contra hshort
    rw [streamOpen, fullChunkCount, if_pos (Nat.not_le.mp hshort)] at hopen
    cases hopen
  rw [← hblob, List.length_append, (sealCommitment crypto args cek hashesHash).property,
    minPassphraseBlobLength, passphraseCommitmentLength]
  omega

/-! ## Inverses -/

/-- A blob that was sealed opens again, under every spelling of the passphrase. -/
theorem opened_of_sealed {args : PassphraseSealArgs} {passphrase : String} {blob : List UInt8}
    (hspelling : normalizePassphrase kdf passphrase = normalizePassphrase kdf args.passphrase)
    (h : passphraseSealedPoeSeal kdf crypto args = .ok (.ok blob)) :
    passphraseSealedPoeOpen kdf crypto (args.opening passphrase blob) =
      .ok (.opened args.plaintext) := by
  obtain ⟨hashesHash, normalized, cek, hchecked, hcek, hblob⟩ :=
    (passphraseSealedPoeSeal_eq_ok kdf crypto).mp h
  refine (passphraseSealedPoeOpen_eq_ok kdf crypto).mpr ⟨hashesHash, normalized,
    ⟨hchecked.hashes, hspelling.trans hchecked.passphrase, hchecked.inputs⟩, .inr
      ⟨le_length_of_sealBlob haead hblob.symm, cek, hcek, ?_⟩⟩
  exact ((openPassphraseBlob_eq_opened haead).mpr hblob.symm).symm

/-- What opens was sealed. -/
theorem sealed_of_opened {args : PassphraseSealArgs} {blob p : List UInt8}
    (h : passphraseSealedPoeOpen kdf crypto (args.opening args.passphrase blob) =
      .ok (.opened p)) :
    passphraseSealedPoeSeal kdf crypto { args with plaintext := p } = .ok (.ok blob) := by
  obtain ⟨hashesHash, normalized, hchecked, hcase⟩ :=
    (passphraseSealedPoeOpen_eq_ok kdf crypto).mp h
  cases hcase with
  | inl hrejected => cases hrejected.2
  | inr hopen =>
      obtain ⟨-, cek, hcek, hopened⟩ := hopen
      exact (passphraseSealedPoeSeal_eq_ok kdf crypto).mpr ⟨hashesHash, normalized, cek,
        ⟨hchecked.hashes, hchecked.passphrase, hchecked.inputs⟩, hcek,
        ((openPassphraseBlob_eq_opened haead).mp hopened.symm).symm⟩

end Lawful

/-- Seal and open are inverse on these inputs and this blob: what was sealed opens again under
every spelling of the passphrase, what opens was sealed, and one refuses when the other does. -/
structure SealOpenInverse (args : PassphraseSealArgs) (blob : List UInt8) : Prop where
  opens : passphraseSealedPoeSeal kdf crypto args = .ok (.ok blob) →
    ∀ passphrase,
      normalizePassphrase kdf passphrase = normalizePassphrase kdf args.passphrase →
      passphraseSealedPoeOpen kdf crypto (args.opening passphrase blob) =
        .ok (.opened args.plaintext)
  unique : ∀ p, passphraseSealedPoeOpen kdf crypto (args.opening args.passphrase blob) =
      .ok (.opened p) →
    passphraseSealedPoeSeal kdf crypto { args with plaintext := p } = .ok (.ok blob)
  refusals : (∃ e, passphraseSealedPoeSeal kdf crypto args = .error e) ↔
    ∃ e, passphraseSealedPoeOpen kdf crypto (args.opening args.passphrase blob) = .error e

/-- **Seal and open are inverse unless a short blob hides a refusal.** The exact condition: the
blob has room for a commitment and a tag, or the checks before the password hash refuse the
inputs, or the password hash accepts them. -/
theorem sealOpenInverse_iff (haead : crypto.aead.Lawful) (args : PassphraseSealArgs)
    (blob : List UInt8) :
    SealOpenInverse kdf crypto args blob ↔
      minPassphraseBlobLength ≤ blob.length ∨
        ∀ hashesHash normalized, CheckedInputs kdf crypto args hashesHash normalized →
          Argon2Accepts kdf args normalized := by
  have hrefusals : ((∃ e, passphraseSealedPoeSeal kdf crypto args = .error e) ↔
      ∃ e, passphraseSealedPoeOpen kdf crypto (args.opening args.passphrase blob) = .error e) ↔
      minPassphraseBlobLength ≤ blob.length ∨
        ∀ hashesHash normalized, CheckedInputs kdf crypto args hashesHash normalized →
          Argon2Accepts kdf args normalized := by
    rw [passphraseSealedPoeSeal_eq_error_iff, passphraseSealedPoeOpen_eq_error_iff]
    constructor
    · intro h
      by_contra hnot
      push Not at hnot
      obtain ⟨hshort, hashesHash, normalized, hchecked, hrefuses⟩ := hnot
      -- The checks leave one normalized passphrase, so sealing refuses.
      have hseal : ∀ hashesHash' normalized',
          CheckedInputs kdf crypto args hashesHash' normalized' →
            ¬ Argon2Accepts kdf args normalized' := by
        intro hashesHash' normalized' hchecked'
        have hsame : normalized' = normalized :=
          Except.ok.inj (hchecked'.passphrase.symm.trans hchecked.passphrase)
        rwa [hsame]
      exact absurd (h.mp hseal hashesHash normalized hchecked).1 (Nat.not_le.mpr hshort)
    · intro h
      constructor
      · intro hseal hashesHash normalized hchecked
        refine ⟨?_, hseal hashesHash normalized hchecked⟩
        cases h with
        | inl hlong => exact hlong
        | inr haccepts =>
            exact absurd (haccepts hashesHash normalized hchecked)
              (hseal hashesHash normalized hchecked)
      · intro hopen hashesHash normalized hchecked
        exact (hopen hashesHash normalized hchecked).2
  rw [← hrefusals]
  constructor
  · intro h
    exact h.refusals
  · intro h
    exact ⟨fun hsealed passphrase hspelling => opened_of_sealed kdf haead hspelling hsealed,
      fun p hopened => sealed_of_opened kdf haead hopened, h⟩

end Path

/-! ## A short blob and too much parallelism -/

/-- Argon2id of the passphrase `pass`. -/
def laneCek : FixedBytes 32 :=
  ofDigits "c74f7a504c82051c999465139785fb784fca1fc4458c142b5bda5223249cf21b"

/-- Argon2id, which refuses less than eight blocks for each lane, on the passphrase `pass`. -/
def laneKdf : PassphrasePrimitives where
  nfkc16 passphrase := .ok passphrase
  argon2Params m _ p := if m < 8 * p then .error "memory cost is too small" else .ok ()
  argon2id _ _ _ _ _ := .ok laneCek

def laneArgs (p : UInt64) : PassphraseSealArgs where
  plaintext := utf8Bytes "hello"
  passphrase := "pass"
  salt := List.replicate 16 0
  m := 65536
  t := 3
  p := p
  nonce := List.replicate 24 0
  hashes := sampleHashes

/-- With 8193 lanes the seal is refused, and the empty blob is rejected without a refusal. -/
theorem not_sealOpenInverse_lanes :
    wideCrypto.aead.Lawful ∧ ¬ SealOpenInverse laneKdf wideCrypto (laneArgs 8193) [] := by
  refine ⟨StreamCipher.lawful _, ?_⟩
  intro h
  have hseal : ∃ e, passphraseSealedPoeSeal laneKdf wideCrypto (laneArgs 8193) = .error e :=
    ⟨_, rfl⟩
  have hopen : passphraseSealedPoeOpen laneKdf wideCrypto
      ((laneArgs 8193).opening (laneArgs 8193).passphrase []) = .ok .rejected := rfl
  obtain ⟨e, he⟩ := h.refusals.mp hseal
  rw [hopen] at he
  cases he

/-- ChaCha20-Poly1305 on the one chunk. -/
def laneCipher : StreamCipher where
  keystream _ _ i := [0x10, 0xce, 0xa3, 0x46, 0x92].getD i 0
  tag _ _ _ _ :=
    ⟨[0x45, 0x21, 0xc1, 0xdc, 0x33, 0x3c, 0x62, 0xa1, 0xe5, 0x37, 0x5e, 0x34, 0x7b, 0x3a, 0x05,
      0xa6], rfl⟩

def lanePayloadKey : FixedBytes 32 :=
  ofDigits "d523da7e8d1190c0a02e476bd08d4519ac4a9585a3965f134e83a7a499c9bd49"

def laneCommitment : FixedBytes 32 :=
  ofDigits "02b19e60af3df2fc6090ccfdcc1306350a01f32edddfa2603214b2fbc09e5868"

/-- The keys for the commitment and for the content. -/
def laneExpand (info : List UInt8) : FixedBytes 32 :=
  if info = utf8Bytes cardanoPoeHkdfInfoPassphraseMac then
    ofDigits "b76ffba11398516ec5bd7231ac483f0d0cf4eb21c3e2dd14a2eaf0c7baf4c364"
  else lanePayloadKey

/-- The primitives on the strings of one lane. SHA-256 tells them apart by their lengths. -/
def laneCrypto : SealedPrimitives :=
  { wideCrypto with
    sha256 := fun b =>
      if b.length = 70 then sampleHashesHash
      else ofDigits "7ee9029b1fb121fbb9af21f82baadac50b9a3dfa866ba157a3fa80b5f448073e"
    hmacSha256 := fun _ _ => laneCommitment
    hkdfExtract := fun _ _ =>
      ofDigits "81ccb829ffa0ff44556d334462894849827304fd94074eebef4ea8b3b60c9527"
    hkdfExpand := fun _ info length =>
      ⟨((laneExpand info).val ++ List.replicate length 0).take length,
        length_cutOrPad (laneExpand info) length⟩
    aead := laneCipher.aead }

/-- The commitment, then the chunk. -/
def laneBlob : List UInt8 :=
  laneCommitment.val ++
    [0x78, 0xab, 0xcf, 0x2a, 0xfd, 0x45, 0x21, 0xc1, 0xdc, 0x33, 0x3c, 0x62, 0xa1, 0xe5, 0x37, 0x5e,
      0x34, 0x7b, 0x3a, 0x05, 0xa6]

theorem lane_seal : passphraseSealedPoeSeal laneKdf laneCrypto (laneArgs 1) = .ok (.ok laneBlob) := by
  have hhashes : itemHashesHash laneCrypto (laneArgs 1).hashes =
      .ok sampleHashesHash := by decide +kernel
  have hpassphrase : normalizePassphrase laneKdf (laneArgs 1).passphrase = .ok "pass" := by
    decide +kernel
  have hcek : argon2Cek laneKdf "pass" (laneArgs 1).salt (laneArgs 1).m (laneArgs 1).t
      (laneArgs 1).p = .ok laneCek := rfl
  have hkey : passphrasePayloadKey laneCrypto laneCek.val (laneArgs 1).nonce = lanePayloadKey := by
    decide +kernel
  have hseal : streamSeal laneCrypto.aead lanePayloadKey (laneArgs 1).plaintext =
      .ok (laneBlob.drop passphraseCommitmentLength) := by
    rw [streamSeal_eq_ok, Chunks.pieces_of_le (by decide)]
    decide +kernel
  refine (passphraseSealedPoeSeal_eq_ok laneKdf laneCrypto).mpr
    ⟨_, _, _, ⟨hhashes, hpassphrase, rfl⟩, hcek, ?_⟩
  rw [sealBlob, hkey, hseal]
  rfl

/-- With one lane the sealed word opens again, under another spelling of the passphrase. -/
theorem sealOpenInverse_lane :
    passphraseSealedPoeOpen laneKdf laneCrypto ((laneArgs 1).opening " pass " laneBlob) =
      .ok (.opened (utf8Bytes "hello")) :=
  ((sealOpenInverse_iff laneKdf laneCrypto laneCipher.lawful (laneArgs 1) laneBlob).mpr
    (.inl (by decide +kernel))).opens lane_seal " pass " (by decide +kernel)

end Label309
