import Label309.SealedPoe.UnwrapAgreement
import Label309.SealedPoe.WrapSpec

/-!
# Unwrapping what was wrapped

Every recipient opens what a wrap makes, as long as the envelope is not larger than a
verifier takes. The wrap has no bound of its own on the number of recipients.
-/
namespace Label309
open ExceptBind

/-! ## The checks of the consumer -/

/-- The checks on the slots ask for the lengths, and for KEM fields that do not repeat. -/
theorem checkSlots_eq_ok_iff {field : KemField} {seen : List (List UInt8)} {i : ℕ}
    {fields : List (List UInt8 × List UInt8)} :
    checkSlots field seen i fields = .ok () ↔
      (∀ f ∈ fields, f.1.length = field.length ∧ f.2.length = wrapLength) ∧
        (fields.map Prod.fst).Nodup ∧ ∀ f ∈ fields, f.1 ∉ seen := by
  induction fields generalizing seen i with
  | nil => simp
  | cons f fields ih =>
      cases f with
      | mk kem wrap =>
          rw [checkSlots_cons]
          by_cases hkem : kem.length = field.length
          · by_cases hwrap : wrap.length = wrapLength
            · by_cases hseen : kem ∈ seen
              · simp [hkem, hwrap, hseen]
              · rw [if_neg (by simpa using hkem), if_neg (by simpa using hwrap), if_neg hseen, ih]
                simp only [List.forall_mem_cons, List.map_cons, List.nodup_cons, List.mem_map]
                constructor
                · intro h
                  refine ⟨⟨⟨hkem, hwrap⟩, h.1⟩, ⟨?_, h.2.1⟩, hseen, ?_⟩
                  · intro hmem
                    obtain ⟨f, hf, heq⟩ := hmem
                    exact h.2.2 f hf (heq ▸ List.mem_cons_self)
                  · intro f hf hmem
                    exact h.2.2 f hf (List.mem_cons_of_mem _ hmem)
                · intro h
                  refine ⟨h.1.2, h.2.1.2, ?_⟩
                  intro f hf hmem
                  rcases List.mem_cons.mp hmem with heq | hmem
                  · exact h.2.1.1 ⟨f, hf, heq⟩
                  · exact h.2.2.2 f hf hmem
            · simp [hkem, hwrap]
          · simp [hkem]

/-- The most recipients whose envelope a verifier takes. -/
def SealedKem.maxRecipients : SealedKem → ℕ
  | .x25519 => 818
  | .mlkem768X25519 => 56

/-- The KEM fields and the wraps have their lengths. -/
theorem WrappedSlots.fields {crypto : SealedPrimitives} {kem : SealedKem} {nonce : List UInt8}
    {cek : FixedBytes 32} {pubs : List (List UInt8)} {slots : SealedSlots}
    (h : WrappedSlots crypto kem nonce cek pubs slots) :
    checkSlots slots.kemField [] 0 slots.fields = .ok () := by
  rw [checkSlots_eq_ok_iff]
  cases slots with
  | x25519 slots =>
      obtain ⟨-, hnodup, ordered, hperm, hopens⟩ := h
      refine ⟨?_, ?_, by simp⟩
      · intro f hf
        obtain ⟨slot, hslot, rfl⟩ := List.mem_map.mp hf
        obtain ⟨pub, -, hpub⟩ := exists_left_of_forall₂ hopens (hperm.mem_iff.mp hslot)
        exact ⟨hpub.epk_length, hpub.wrap_length⟩
      · rw [SealedSlots.fields, List.map_map]
        exact hnodup
  | mlkem768X25519 slots =>
      obtain ⟨-, hnodup, ordered, hperm, hopens⟩ := h
      refine ⟨?_, ?_, by simp⟩
      · intro f hf
        obtain ⟨slot, hslot, rfl⟩ := List.mem_map.mp hf
        obtain ⟨pub, -, hpub⟩ := exists_left_of_forall₂ hopens (hperm.mem_iff.mp hslot)
        exact ⟨hpub.kemCt_length, hpub.wrap_length⟩
      · rw [SealedSlots.fields, List.map_map]
        exact hnodup

theorem WrappedSlots.length {crypto : SealedPrimitives} {kem : SealedKem} {nonce : List UInt8}
    {cek : FixedBytes 32} {pubs : List (List UInt8)} {slots : SealedSlots}
    (h : WrappedSlots crypto kem nonce cek pubs slots) : slots.length = pubs.length := by
  cases slots with
  | x25519 slots =>
      obtain ⟨-, -, ordered, hperm, hopens⟩ := h
      exact hperm.length_eq.trans hopens.length_eq.symm
  | mlkem768X25519 slots =>
      obtain ⟨-, -, ordered, hperm, hopens⟩ := h
      exact hperm.length_eq.trans hopens.length_eq.symm

/-- The size of the envelope is within the bound exactly up to a number of recipients. -/
theorem WrappedSlots.fits_iff {crypto : SealedPrimitives} {kem : SealedKem} {nonce : List UInt8}
    {cek : FixedBytes 32} {pubs : List (List UInt8)} {slots : SealedSlots}
    (h : WrappedSlots crypto kem nonce cek pubs slots) :
    decodedEnvelopeBytes slots ≤ maxDecodedEnvelopeBytes ↔ pubs.length ≤ kem.maxRecipients := by
  have hlen := h.length
  cases slots with
  | x25519 slots =>
      rw [h.1, decodedEnvelopeBytes, hlen]
      simp only [SealedSlots.kemField, SealedKem.maxRecipients, nonceLength, slotsMacLength,
        x25519SecretKeyLength, wrapLength, maxDecodedEnvelopeBytes]
      omega
  | mlkem768X25519 slots =>
      rw [h.1, decodedEnvelopeBytes, hlen]
      simp only [SealedSlots.kemField, SealedKem.maxRecipients, nonceLength, slotsMacLength,
        mlkem768x25519EncLength, wrapLength, maxDecodedEnvelopeBytes]
      omega

theorem SealedKem.maxRecipients_le (kem : SealedKem) : kem.maxRecipients ≤ maxSlots := by
  cases kem <;> decide

theorem SealedKem.asStr_registered (kem : SealedKem) :
    kem.asStr = kemX25519 ∨ kem.asStr = kemMlkem768X25519 := by
  cases kem
  · exact .inl rfl
  · exact .inr rfl

/-- The consumer takes the envelope exactly when there are not too many recipients. -/
theorem Wrapped.assertEnvelope_iff {crypto : SealedPrimitives} {args : WrapArgs}
    {cek hashesHash : FixedBytes 32} {built : WrapEnvelope}
    (h : Wrapped crypto args cek hashesHash built) :
    assertEnvelope built.envelope = .ok () ↔
      args.recipientPublicKeys.length ≤ (args.kem.getD .x25519).maxRecipients := by
  have hlen := h.slots.length
  have hpos : 0 < args.recipientPublicKeys.length := List.length_pos_iff.mpr h.recipients
  have hkem : ¬ (built.envelope.kem ≠ kemX25519 ∧ built.envelope.kem ≠ kemMlkem768X25519) := by
    rw [h.kem]
    intro hne
    exact (SealedKem.asStr_registered _).elim hne.1 hne.2
  have hmac : built.envelope.slotsMac.length = slotsMacLength := by
    rw [h.slotsMac]
    exact (computeSlotsMac ..).property
  rw [assertEnvelope, if_neg (by simpa using h.scheme), if_neg (by simpa using h.aead),
    if_neg hkem, if_neg (by omega)]
  by_cases hmany : maxSlots < built.envelope.slots.length
  · have hbound := (args.kem.getD .x25519).maxRecipients_le
    rw [if_pos hmany]
    simp only [reduceCtorEq, false_iff]
    omega
  · rw [if_neg hmany, if_neg (by simpa using h.nonce), if_neg (by simpa using hmac),
      h.slots.fields, ← h.slots.fits_iff]
    by_cases hlarge : maxDecodedEnvelopeBytes < decodedEnvelopeBytes built.envelope.slots
    · simp [hlarge]
    · have hfits := Nat.le_of_not_lt hlarge
      simp [hlarge, hfits]

/-! ## The candidates -/

/-- A secret of a recipient finds the content key in one of the slots. -/
theorem Wrapped.mem_slotCandidates {crypto : SealedPrimitives} {args : WrapArgs}
    {cek hashesHash : FixedBytes 32} {built : WrapEnvelope}
    (h : Wrapped crypto args cek hashesHash built) {pub key : List UInt8}
    (hpub : pub ∈ args.recipientPublicKeys)
    (hkey : (args.kem.getD .x25519).IsSecretOf crypto key pub) :
    (true, cek) ∈ slotCandidates crypto built.envelope key := by
  have hslots := h.slots
  rw [slotCandidates]
  cases hs : built.envelope.slots with
  | x25519 slots =>
      rw [hs] at hslots
      obtain ⟨hkem, -, ordered, hperm, hopens⟩ := hslots
      rw [hkem] at hkey
      obtain ⟨slot, hslot, hpubSlot⟩ := exists_right_of_forall₂ hopens hpub
      have hcandidate := hpubSlot.opens key hkey
      obtain ⟨pk, hpk, rfl⟩ := hkey
      simp only [hpk]
      exact List.mem_map.mpr ⟨slot, hperm.mem_iff.mpr hslot, hcandidate⟩
  | mlkem768X25519 slots =>
      rw [hs] at hslots
      obtain ⟨hkem, -, ordered, hperm, hopens⟩ := hslots
      rw [hkem] at hkey
      obtain ⟨slot, hslot, hpubSlot⟩ := exists_right_of_forall₂ hopens hpub
      have hcandidate := hpubSlot.opens key hkey
      obtain ⟨pk, hpk, rfl⟩ := hkey
      simp only [hpk]
      exact List.mem_map.mpr ⟨slot, hperm.mem_iff.mpr hslot, hcandidate⟩

/-! ## The scan -/

section Scan
variable {crypto : SealedPrimitives} {slotsHash : FixedBytes 32} {slotsMac : List UInt8}

/-- Every accepted candidate so far was the content key. -/
def InnerScan.Sound (cek : FixedBytes 32) (scan : InnerScan) : Prop :=
  scan.cekConflict = false ∧ (scan.found = true → scan.selectedCek = cek)

theorem InnerScan.Sound.fold {cek : FixedBytes 32} {scan : InnerScan} (h : scan.Sound cek) (i : ℕ)
    {openBit macOk : Bool} {candidate : FixedBytes 32}
    (hcandidate : (openBit && macOk) = true → candidate = cek) :
    (scan.fold i openBit macOk candidate).Sound cek := by
  obtain ⟨hconflict, hselected⟩ := h
  by_cases hok : (openBit && macOk) = true
  · have heq := hcandidate hok
    by_cases hfound : scan.found = true
    · simp [InnerScan.Sound, InnerScan.fold, hconflict, hfound, heq, hselected hfound]
    · simp [InnerScan.Sound, InnerScan.fold, hconflict, hfound, hok, heq]
  · simp only [Bool.not_eq_true] at hok
    simp [InnerScan.Sound, InnerScan.fold, hconflict, hok]
    exact hselected

/-- The scan accepts when some candidate is open and has the MAC, and then it has the content
key. -/
theorem scanCandidates_sound {cek : FixedBytes 32} {candidates : List (Bool × FixedBytes 32)}
    (hunique : ∀ c ∈ candidates, c.1 = true → slotsMacBit crypto c.2 slotsHash slotsMac = true →
      c.2 = cek) {scan : InnerScan} (h : scan.Sound cek) (i : ℕ) :
    (scanCandidates crypto slotsHash slotsMac scan i candidates).Sound cek := by
  induction candidates generalizing scan i with
  | nil => exact h
  | cons candidate rest ih =>
      cases candidate with
      | mk openBit c =>
          rw [List.forall_mem_cons] at hunique
          apply ih hunique.2
          apply h.fold
          intro hok
          rw [Bool.and_eq_true] at hok
          exact hunique.1 hok.1 hok.2

theorem found_scanCandidates {candidates : List (Bool × FixedBytes 32)} {scan : InnerScan} {i : ℕ}
    (h : scan.found = true ∨
      ∃ c ∈ candidates, c.1 = true ∧ slotsMacBit crypto c.2 slotsHash slotsMac = true) :
    (scanCandidates crypto slotsHash slotsMac scan i candidates).found = true := by
  induction candidates generalizing scan i with
  | nil => simpa [scanCandidates] using h
  | cons candidate rest ih =>
      apply ih
      rcases h with hfound | ⟨c, hc, hopen, hmac⟩
      · left
        simp [InnerScan.fold, hfound]
      · rcases List.mem_cons.mp hc with rfl | hc
        · left
          simp [InnerScan.fold, hopen, hmac]
        · exact .inr ⟨c, hc, hopen, hmac⟩

end Scan

/-! ## The round trip -/

/-- No two content keys that the keys find in open slots have one MAC. -/
def NoMacCollision (crypto : SealedPrimitives) (envelope : SealedEnvelope) (hashes : ContentHashMap)
    (keys : List (List UInt8)) : Prop :=
  Set.InjOn
    (fun cek : FixedBytes 32 =>
      computeSlotsMac crypto cek.val (headerSlotsHash crypto envelope hashes).val)
    {cek | ∃ key ∈ keys, (true, cek) ∈ slotCandidates crypto envelope key}

/-- The keys find a content key that one of them finds in an open slot, and that has the MAC. -/
theorem scanKeys_of_candidate {crypto : SealedPrimitives} {envelope : SealedEnvelope}
    {hashes : ContentHashMap} {keys : List (List UInt8)} {key : List UInt8} {cek : FixedBytes 32}
    (hmem : key ∈ keys) (hcek : (true, cek) ∈ slotCandidates crypto envelope key)
    (hbit : slotsMacBit crypto cek (headerSlotsHash crypto envelope hashes) envelope.slotsMac = true)
    (hmac : NoMacCollision crypto envelope hashes keys) :
    scanKeys crypto envelope (headerSlotsHash crypto envelope hashes) false keys =
      .accepted cek := by
  have hsound : ∀ k ∈ keys, (scanSlotsForKey crypto envelope k
      (headerSlotsHash crypto envelope hashes)).Sound cek := by
    intro k hk
    apply scanCandidates_sound
    · intro c hc hopen hc'
      rw [slotsMacBit, decide_eq_true_iff] at hc' hbit
      have hcopen : (true, c.2) ∈ slotCandidates crypto envelope k := by
        rw [← hopen]
        exact hc
      exact hmac ⟨k, hk, hcopen⟩ ⟨key, hmem, hcek⟩ (Subtype.ext (hc'.trans hbit.symm))
    · exact ⟨rfl, fun hfound => absurd hfound (by decide)⟩
  have hfound : (scanSlotsForKey crypto envelope key
      (headerSlotsHash crypto envelope hashes)).found = true := by
    apply found_scanCandidates
    right
    exact ⟨(true, cek), hcek, rfl, hbit⟩
  rw [scanKeys_eq]
  cases hfirst : firstAccepting crypto envelope (headerSlotsHash crypto envelope hashes) keys with
  | none => exact absurd hfound (List.find?_eq_none.mp hfirst key hmem)
  | some first =>
      obtain ⟨hconflict, hselected⟩ := hsound first (List.mem_of_find?_eq_some hfirst)
      have haccepts : (scanSlotsForKey crypto envelope first
          (headerSlotsHash crypto envelope hashes)).found = true := by
        have hfind := List.find?_some hfirst
        exact hfind
      simp only [hconflict, Bool.false_eq_true, if_false]
      rw [hselected haccepts]

section RoundTrip
variable {crypto : SealedPrimitives} {args : WrapArgs} {cek hashesHash : FixedBytes 32}
  {built : WrapEnvelope}

theorem Wrapped.slotsMac_eq (h : Wrapped crypto args cek hashesHash built) :
    built.envelope.slotsMac = (computeSlotsMac crypto cek.val
      (headerSlotsHash crypto built.envelope args.hashes).val).val := by
  rw [h.slotsMac, (itemHashesHash_eq_ok.mp h.hashes).2, headerSlotsHash]

/-- With a recipient's key among them, the keys find the content key. -/
theorem Wrapped.scanKeys_eq_accepted (h : Wrapped crypto args cek hashesHash built)
    {keys : List (List UInt8)} {pub key : List UInt8} (hpub : pub ∈ args.recipientPublicKeys)
    (hkey : (args.kem.getD .x25519).IsSecretOf crypto key pub) (hmem : key ∈ keys)
    (hmac : NoMacCollision crypto built.envelope args.hashes keys) :
    scanKeys crypto built.envelope (headerSlotsHash crypto built.envelope args.hashes) false keys =
      .accepted cek :=
  scanKeys_of_candidate hmem (h.mem_slotCandidates hpub hkey)
    (by rw [slotsMacBit, decide_eq_true_iff, h.slotsMac_eq]) hmac

theorem assertMultiKeys_of_lengths {keys : List (List UInt8)}
    (h : ∀ k ∈ keys, k.length = x25519SecretKeyLength) : assertMultiKeys keys = .ok () := by
  have hnone : firstOfOtherLength x25519SecretKeyLength keys = none := by
    apply List.findIdx?_eq_none_iff.mpr
    intro k hk
    simp [h k hk]
  rw [assertMultiKeys, hnone]

theorem unwrapHeaderMulti_of_lengths {envelope : SealedEnvelope} {hashes : ContentHashMap}
    {keys : List (List UInt8)} (hlengths : ∀ k ∈ keys, k.length = x25519SecretKeyLength)
    (hhashes : itemHashesHash crypto hashes = .ok hashesHash) :
    unwrapHeaderMulti crypto envelope hashes keys = (assertEnvelope envelope).map fun _ =>
      scanKeys crypto envelope (headerSlotsHash crypto envelope hashes) false keys := by
  rw [unwrapHeaderMulti, assertEnvelopeStructure, assertMultiKeys_of_lengths hlengths, hhashes,
    headerSlotsHash, ← (itemHashesHash_eq_ok.mp hhashes).2]
  cases assertEnvelope envelope with
  | error e => rfl
  | ok _ => rfl

/-- With keys of the right length the header is refused only for the envelope. -/
theorem unwrapHeader_of_lengths {envelope : SealedEnvelope} {hashes : ContentHashMap}
    {keys : UnwrapKeys} (hne : keys.list envelope ≠ [])
    (hlengths : ∀ k ∈ keys.list envelope, k.length = x25519SecretKeyLength)
    (hhashes : itemHashesHash crypto hashes = .ok hashesHash) :
    unwrapHeader crypto envelope hashes keys = (assertEnvelope envelope).map fun _ =>
      scanKeys crypto envelope (headerSlotsHash crypto envelope hashes) false
        (keys.list envelope) := by
  cases keys with
  | single key =>
      have hkey : assertSingleKey key = .ok () := by
        simp [assertSingleKey, hlengths key (by simp [UnwrapKeys.list])]
      rw [unwrapHeader, assertEnvelopeStructureSingle, hkey, hhashes, headerSlotsHash,
        ← (itemHashesHash_eq_ok.mp hhashes).2]
      cases assertEnvelope envelope with
      | error e => rfl
      | ok _ => simp [UnwrapKeys.list, scanKeys, Except.map]
  | multi keys =>
      have hempty : ¬ keys.isEmpty = true := by
        rw [List.isEmpty_iff]
        exact hne
      rw [unwrapHeader, if_neg hempty]
      exact unwrapHeaderMulti_of_lengths hlengths hhashes
  | bundle b =>
      have hempty : ¬ (selectBundleSecrets envelope b).isEmpty = true := by
        rw [List.isEmpty_iff]
        exact hne
      rw [unwrapHeader]
      simp only [if_neg hempty]
      exact unwrapHeaderMulti_of_lengths hlengths hhashes

/-- **What was wrapped is unwrapped.** A recipient's key, alone or in a list of keys of the
right length, recovers the plaintext exactly when there are not more recipients than a
verifier takes. -/
theorem unwrap_wrap_iff (hkem : crypto.CorrectKem) (haead : crypto.aead.Lawful) {σ : Type}
    {rng : RandomSource σ} {bound : ℕ} {s s' : σ} {output : SealedPoeOutput}
    (hwrap : (eciesSealedPoeWrapWithRng crypto rng bound args).Gives s (.ok output) s')
    {pub key : List UInt8} (hpub : pub ∈ args.recipientPublicKeys)
    (hkey : (args.kem.getD .x25519).IsSecretOf crypto key pub) {keys : UnwrapKeys}
    (hmem : key ∈ keys.list output.envelope)
    (hlengths : ∀ k ∈ keys.list output.envelope, k.length = x25519SecretKeyLength)
    (hmac : NoMacCollision crypto output.envelope args.hashes (keys.list output.envelope)) :
    eciesSealedPoeUnwrap crypto output.envelope output.ciphertext args.hashes keys =
        .ok (.matched args.plaintext) ↔
      args.recipientPublicKeys.length ≤ (args.kem.getD .x25519).maxRecipients := by
  simp only [eciesSealedPoeWrapWithRng, Draw.gives_bind, Draw.gives_pure] at hwrap
  obtain ⟨built, s₁, hbuilt, hseal, -⟩ := hwrap
  obtain ⟨cek, hashesHash, h⟩ := wrapped_of_gives hkem haead hbuilt
  obtain ⟨ciphertext, hciphertext, rfl⟩ := map_eq_ok.mp hseal.symm
  rw [h.payloadKey] at hciphertext
  have hopen := (streamOpen_eq_some_iff _ haead).mpr hciphertext
  rw [eciesSealedPoeUnwrap,
    unwrapHeader_of_lengths (List.ne_nil_of_mem hmem) hlengths h.hashes, ← h.assertEnvelope_iff,
    h.scanKeys_eq_accepted hpub hkey hmem hmac]
  cases hassert : assertEnvelope built.envelope with
  | error e => simp [Except.map]
  | ok _ => simp [Except.map, unwrapContent, hopen]

end RoundTrip

/-! ## A sample -/

/-- The key of the recipient. -/
def roundTripSecret : FixedBytes 32 := ⟨List.replicate 32 0x11, rfl⟩

/-- The key of the slot. -/
def roundTripEphemeral : FixedBytes 32 := ⟨List.replicate 32 0x22, rfl⟩

def roundTripPublicKey : FixedBytes 32 :=
  ⟨[0x7b, 0x4e, 0x90, 0x9b, 0xbe, 0x7f, 0xfe, 0x44, 0xc4, 0x65, 0xa2, 0x20, 0x03, 0x7d, 0x60,
    0x8e, 0xe3, 0x58, 0x97, 0xd3, 0x1e, 0xf9, 0x72, 0xf0, 0x7f, 0x74, 0x89, 0x2c, 0xb0, 0xf7,
    0x3f, 0x13], rfl⟩

def roundTripEpk : FixedBytes 32 :=
  ⟨[0x0f, 0xaa, 0x68, 0x4e, 0xd2, 0x88, 0x67, 0xb9, 0x7f, 0x4a, 0x6a, 0x2d, 0xee, 0x5d, 0xf8,
    0xce, 0x97, 0x4e, 0x76, 0xb7, 0x01, 0x8e, 0x3f, 0x22, 0xa1, 0xc4, 0xcf, 0x26, 0x78, 0x57,
    0x0f, 0x20], rfl⟩

def roundTripShared : FixedBytes 32 :=
  ⟨[0x9e, 0x00, 0x40, 0x98, 0xef, 0xc0, 0x91, 0xd4, 0xec, 0x26, 0x63, 0xb4, 0xe9, 0xf5, 0xcf,
    0xd4, 0xd7, 0x06, 0x45, 0x71, 0x69, 0x0b, 0x4b, 0xea, 0x97, 0xab, 0x14, 0x6a, 0xb9, 0xf3,
    0x50, 0x56], rfl⟩

/-- X25519 between the two key pairs. -/
def roundTripX25519 (scalar point : FixedBytes 32) : FixedBytes 32 :=
  if scalar = roundTripSecret then
    if point = x25519Basepoint then roundTripPublicKey
    else if point = roundTripEpk then roundTripShared
    else FixedBytes.zero 32
  else if scalar = roundTripEphemeral then
    if point = x25519Basepoint then roundTripEpk
    else if point = roundTripPublicKey then roundTripShared
    else FixedBytes.zero 32
  else FixedBytes.zero 32

def roundTripKek : FixedBytes 32 :=
  ⟨[0x46, 0x69, 0x7f, 0x82, 0x44, 0xb9, 0x16, 0x9d, 0x90, 0xc3, 0xc3, 0xdd, 0xcf, 0xe4, 0x38,
    0xfd, 0xcf, 0xc6, 0x38, 0x79, 0xba, 0xe6, 0x3c, 0xfa, 0x3d, 0xb9, 0xdf, 0x15, 0x92, 0x94,
    0x10, 0xd6], rfl⟩

def roundTripPayloadKey : FixedBytes 32 :=
  ⟨[0xee, 0xc1, 0x8d, 0x73, 0x10, 0x75, 0x05, 0xfc, 0x90, 0xc0, 0x6b, 0x71, 0x4c, 0x13, 0x64,
    0x96, 0x05, 0x44, 0xe9, 0xe9, 0x32, 0x92, 0x95, 0x89, 0x0b, 0x07, 0x67, 0x15, 0xf9, 0xef,
    0x44, 0x4c], rfl⟩

/-- ChaCha20-Poly1305 on the wrap and on the one chunk `hello`. -/
def roundTripCipher : StreamCipher where
  keystream key _ i :=
    if key = roundTripKek then
      [0xe2, 0x0d, 0x75, 0x88, 0xf3, 0xd1, 0x38, 0xfa, 0x58, 0x5b, 0x15, 0x6d, 0xf6, 0x2a, 0xec,
      0xd6, 0x86, 0x7d, 0x18, 0xfd, 0x62, 0x34, 0xb4, 0xf1, 0xf4, 0x45, 0x63, 0x22, 0x1c, 0x0c,
      0x8e, 0xc9].getD i 0
    else [0x6e, 0x74, 0xd7, 0x4f, 0x78].getD i 0
  tag key _ _ _ :=
    if key = roundTripKek then
      ⟨[0x03, 0x79, 0x6e, 0x46, 0xe2, 0x34, 0xf4, 0x81, 0x28, 0x74, 0x38, 0xd1, 0xfd, 0x03, 0x4c,
      0x58], rfl⟩
    else
      ⟨[0xf0, 0xb0, 0x57, 0x70, 0xfc, 0xb0, 0xf5, 0xe1, 0xa9, 0x1a, 0xe2, 0x7b, 0x16, 0x36, 0xb8,
      0x33], rfl⟩

/-- SHA-256 on the strings hashed for the sample, told apart by their lengths. -/
def roundTripSha256 (b : List UInt8) : FixedBytes 32 :=
  if b.length = 70 then sampleHashesHash
  else if b.length = 118 then
    ⟨[0x48, 0xd3, 0x48, 0x1a, 0x89, 0xab, 0xe6, 0xfe, 0xef, 0x40, 0x9c, 0x1c, 0x82, 0xdf, 0x8d,
      0x6a, 0xd9, 0x49, 0xc3, 0x9b, 0x6e, 0x7e, 0x11, 0xed, 0xe9, 0x28, 0x5d, 0xfc, 0xd5, 0xde,
      0xa3, 0x1c], rfl⟩
  else
    ⟨[0x15, 0x86, 0x01, 0x11, 0xaa, 0xed, 0x13, 0x99, 0xe2, 0x77, 0x76, 0x59, 0x51, 0x86, 0xaa,
      0x64, 0xb6, 0x5b, 0x4c, 0xc8, 0x12, 0xfe, 0x8b, 0x7d, 0xce, 0xf8, 0xf2, 0xf9, 0x4d, 0x8c,
      0xb2, 0x4a], rfl⟩

/-- SHA-256 of the word itself. -/
def helloSha256 : FixedBytes 32 :=
  ⟨[0x2c, 0xf2, 0x4d, 0xba, 0x5f, 0xb0, 0xa3, 0x0e, 0x26, 0xe8, 0x3b, 0x2a, 0xc5, 0xb9, 0xe2,
      0x9e, 0x1b, 0x16, 0x1e, 0x5c, 0x1f, 0xa7, 0x42, 0x5e, 0x73, 0x04, 0x33, 0x62, 0x93, 0x8b,
      0x98, 0x24], rfl⟩

/-- The key of the slots MAC. -/
def roundTripMacKey : List UInt8 :=
  [0x80, 0x91, 0x8e, 0x43, 0x22, 0xf3, 0xfe, 0x37, 0x2a, 0x3b, 0x16, 0x1e, 0x0e, 0x1e, 0x36, 0x94,
    0xa4, 0xd6, 0xf4, 0xc9, 0xe6, 0x51, 0xfd, 0x21, 0xf7, 0x0a, 0x86, 0x64, 0x31, 0x4b, 0xde, 0xe0]

/-- HKDF-SHA256 under the key of the exchange, of the MAC and of the content. -/
def roundTripHkdf (info : List UInt8) : FixedBytes 32 :=
  if info = utf8Bytes cardanoPoeHkdfInfoKek then roundTripKek
  else if info = utf8Bytes cardanoPoeHkdfInfoPayload then roundTripPayloadKey
  else ⟨roundTripMacKey, rfl⟩

def roundTripUnsaltedPrk : List UInt8 :=
  [0x25, 0xb9, 0xba, 0xdd, 0x15, 0xb9, 0x84, 0x88, 0x19, 0x97, 0x98, 0xd0, 0xf4, 0x8f, 0x1d, 0x9e,
    0xf9, 0x3c, 0x88, 0xde, 0xf3, 0x54, 0xa6, 0x99, 0xc6, 0x9a, 0xbd, 0x20, 0x05, 0x10, 0x52, 0xe6]

/-- What is extracted under each salt. -/
def roundTripPrk (salt : List UInt8) : FixedBytes 32 :=
  if salt = [] then ⟨roundTripUnsaltedPrk, rfl⟩
  else if salt = List.replicate 24 3 then
    ⟨[0x1d, 0xc8, 0x43, 0xab, 0x30, 0x21, 0xaf, 0xb3, 0x5d, 0xa3, 0x2e, 0x12, 0x16, 0xc8, 0x7e,
      0xe6, 0x7c, 0x66, 0x49, 0xfa, 0x8d, 0x1b, 0xe6, 0xce, 0xdf, 0x62, 0xe4, 0x43, 0xd2, 0x4c,
      0xf8, 0x97], rfl⟩
  else
    ⟨[0xcb, 0x18, 0x38, 0x19, 0x4c, 0x63, 0x66, 0xcd, 0x16, 0xbe, 0xb2, 0xa6, 0x71, 0x56, 0x71,
      0xe7, 0x9c, 0xd3, 0xa7, 0x9a, 0xb2, 0x75, 0x2f, 0x21, 0xea, 0xa3, 0x0a, 0x8c, 0xbb, 0xda,
      0xcf, 0x00], rfl⟩

/-- The primitives on the strings of the sample. -/
def roundTripCrypto : SealedPrimitives where
  sha256 := roundTripSha256
  sha3256 _ := FixedBytes.zero 32
  shake256 _ := FixedBytes.zero
  hmacSha256 _ _ :=
    ⟨[0x4c, 0xcb, 0x2f, 0x65, 0x4c, 0x1e, 0x3c, 0xfa, 0x4f, 0x10, 0x81, 0x1c, 0x81, 0xc4, 0x82,
      0x4a, 0x09, 0x21, 0xaa, 0x89, 0x3e, 0x6b, 0x27, 0xda, 0x95, 0x48, 0x28, 0x20, 0xbe, 0xe0,
      0xda, 0x80], rfl⟩
  hkdfExtract salt _ := roundTripPrk salt
  hkdfExpand _ info length :=
    ⟨((roundTripHkdf info).val ++ List.replicate length 0).take length, by simp⟩
  x25519 := roundTripX25519
  mlKem :=
    { encapsulationKey := fun _ => FixedBytes.zero 1184
      validEncapsulationKey := fun _ => true
      encapsulate := fun _ _ => (FixedBytes.zero 1088, FixedBytes.zero 32)
      decapsulate := fun _ _ => FixedBytes.zero 32 }
  aead := roundTripCipher.aead

/-- The envelope with one slot, and the word `hello` sealed. -/
def roundTripOutput : SealedPoeOutput where
  envelope :=
    { scheme := 1
      aead := aeadChacha20Poly1305Stream64k
      kem := kemX25519
      nonce := List.replicate 24 3
      slots := .x25519 [{ epk := roundTripEpk.val, wrap :=
        [0xe6, 0x09, 0x71, 0x8c, 0xf7, 0xd5, 0x3c, 0xfe, 0x5c, 0x5f, 0x11, 0x69, 0xf2, 0x2e,
        0xe8, 0xd2, 0x82, 0x79, 0x1c, 0xf9, 0x66, 0x30, 0xb0, 0xf5, 0xf0, 0x41, 0x67, 0x26,
        0x18, 0x08, 0x8a, 0xcd, 0x03, 0x79, 0x6e, 0x46, 0xe2, 0x34, 0xf4, 0x81, 0x28, 0x74,
        0x38, 0xd1, 0xfd, 0x03, 0x4c, 0x58] }]
      slotsMac :=
        [0x4c, 0xcb, 0x2f, 0x65, 0x4c, 0x1e, 0x3c, 0xfa, 0x4f, 0x10, 0x81, 0x1c, 0x81, 0xc4,
        0x82, 0x4a, 0x09, 0x21, 0xaa, 0x89, 0x3e, 0x6b, 0x27, 0xda, 0x95, 0x48, 0x28, 0x20,
        0xbe, 0xe0, 0xda, 0x80] }
  ciphertext :=
    [0x06, 0x11, 0xbb, 0x23, 0x17, 0xf0, 0xb0, 0x57, 0x70, 0xfc, 0xb0, 0xf5, 0xe1, 0xa9, 0x1a,
    0xe2, 0x7b, 0x16, 0x36, 0xb8, 0x33]

/-- The word `hello` for one recipient, with every draw overridden. -/
def roundTripArgs : WrapArgs where
  plaintext := utf8Bytes "hello"
  recipientPublicKeys := [roundTripPublicKey.val]
  hashes := sampleHashes
  kem := none
  cek := some (List.replicate 32 4)
  nonce := some (List.replicate 24 3)
  ephemeralSecrets := some [roundTripEphemeral.val]
  eseeds := none
  skipShuffle := true

/-- A source that leaves every buffer as it is. -/
def idleSource : RandomSource Unit := fun s _ buf => (buf, s)

theorem roundTripX25519_zero (scalar : FixedBytes 32) :
    roundTripX25519 scalar (FixedBytes.zero 32) = FixedBytes.zero 32 := by
  have hbase : FixedBytes.zero 32 ≠ x25519Basepoint := by decide
  have hepk : FixedBytes.zero 32 ≠ roundTripEpk := by decide
  have hpub : FixedBytes.zero 32 ≠ roundTripPublicKey := by decide
  simp [roundTripX25519, hbase, hepk, hpub]

theorem roundTripX25519_other {scalar : FixedBytes 32} (hs : scalar ≠ roundTripSecret)
    (he : scalar ≠ roundTripEphemeral) (point : FixedBytes 32) :
    roundTripX25519 scalar point = FixedBytes.zero 32 := by
  rw [roundTripX25519, if_neg hs, if_neg he]

theorem roundTripCrypto_correctKem : roundTripCrypto.CorrectKem where
  exchange a b := by
    show roundTripX25519 a (roundTripX25519 b x25519Basepoint) =
      roundTripX25519 b (roundTripX25519 a x25519Basepoint)
    by_cases ha : a = roundTripSecret ∨ a = roundTripEphemeral
    · by_cases hb : b = roundTripSecret ∨ b = roundTripEphemeral
      · rcases ha with rfl | rfl
        · rcases hb with rfl | rfl
          · rfl
          · decide
        · rcases hb with rfl | rfl
          · decide
          · rfl
      · rw [not_or] at hb
        rw [roundTripX25519_other hb.1 hb.2, roundTripX25519_other hb.1 hb.2,
          roundTripX25519_zero]
    · rw [not_or] at ha
      rw [roundTripX25519_other ha.1 ha.2, roundTripX25519_other ha.1 ha.2, roundTripX25519_zero]
  decapsulate _ _ := rfl

theorem roundTrip_seal : streamSeal roundTripCrypto.aead roundTripPayloadKey (utf8Bytes "hello") =
    .ok roundTripOutput.ciphertext := by
  rw [streamSeal_eq_ok, Chunks.pieces_of_le (by decide)]
  decide

/-! ## Two recipients -/

/-- The 32 bytes of these hexadecimal digits. -/
def ofDigits (digits : String) : FixedBytes 32 :=
  ((hexDecode digits).toOption.bind (toFixed 32)).getD (FixedBytes.zero 32)

/-- The key of the second recipient. -/
def pairSecret : FixedBytes 32 := ⟨List.replicate 32 0x33, rfl⟩

/-- The key of the second slot. -/
def pairEphemeral : FixedBytes 32 := ⟨List.replicate 32 0x55, rfl⟩

/-- The key of a reader who is not a recipient. -/
def foreignSecret : FixedBytes 32 := ⟨List.replicate 32 0x44, rfl⟩

def pairPublicKey : FixedBytes 32 :=
  ofDigits "7b0d47d93427f8311160781c7c733fd89f88970aef490d8aa0ee19a4cb8a1b14"

def pairEpk : FixedBytes 32 :=
  ofDigits "38ab664bd86f77d7e66bdd9ae0792913a94fd8b33a1260027e4b46c1f4884c67"

def foreignPublicKey : FixedBytes 32 :=
  ofDigits "ff2ee45601ec1b67310c7790404585ae697331eee1c1f8cf2419731c1fff3e6b"

/-- The exchanges of the second recipient and of the foreign key with each slot. -/
def pairShared : FixedBytes 32 :=
  ofDigits "7b5c0ae9cc1e35635f73a4819f8f818b623d2584052f2b22a60221498c3bf548"

def crossShared : FixedBytes 32 :=
  ofDigits "1fdc192faa0212a9aae7bb4f41b580227fd5ad3e5d777faae230dfe973f3e805"

def foreignShared : FixedBytes 32 :=
  ofDigits "d31a1338a14cf92083e61f66bf842151cf156318bcddc07e42443937c05dd640"

def foreignShared' : FixedBytes 32 :=
  ofDigits "1eafcf380080d1f4d8a308284691b84a06aa5ca32c723c9a327b7a28c504ad1d"

def pairSecrets : List (FixedBytes 32) :=
  [roundTripSecret, pairSecret, foreignSecret, roundTripEphemeral, pairEphemeral]

/-- X25519 between the recipients or the foreign key and the ephemeral keys. -/
def pairExchanges : List ((FixedBytes 32 × FixedBytes 32) × FixedBytes 32) :=
  [((roundTripSecret, x25519Basepoint), roundTripPublicKey),
    ((pairSecret, x25519Basepoint), pairPublicKey),
    ((foreignSecret, x25519Basepoint), foreignPublicKey),
    ((roundTripEphemeral, x25519Basepoint), roundTripEpk),
    ((pairEphemeral, x25519Basepoint), pairEpk),
    ((roundTripSecret, roundTripEpk), roundTripShared),
    ((roundTripEphemeral, roundTripPublicKey), roundTripShared),
    ((pairSecret, pairEpk), pairShared), ((pairEphemeral, pairPublicKey), pairShared),
    ((pairSecret, roundTripEpk), crossShared), ((roundTripEphemeral, pairPublicKey), crossShared),
    ((foreignSecret, roundTripEpk), foreignShared),
    ((roundTripEphemeral, foreignPublicKey), foreignShared),
    ((foreignSecret, pairEpk), foreignShared'), ((pairEphemeral, foreignPublicKey), foreignShared')]

/-- The table, and zero for all other arguments. -/
def pairX25519 (scalar point : FixedBytes 32) : FixedBytes 32 :=
  (pairExchanges.lookup (scalar, point)).getD (FixedBytes.zero 32)

/-- The string hashed for the salt of a slot and a reader. -/
def pairSaltInput (epk pub : FixedBytes 32) : List UInt8 :=
  utf8Bytes cardanoPoeHashPrefixX25519KekSalt ++ (List.replicate 24 3 ++ (epk.val ++ pub.val))

/-- SHA-256 on the strings hashed for the sample. -/
def pairSha256 (b : List UInt8) : FixedBytes 32 :=
  if b.length = 70 then sampleHashesHash
  else if b = pairSaltInput roundTripEpk roundTripPublicKey then
    ofDigits "48d3481a89abe6feef409c1c82df8d6ad949c39b6e7e11ede9285dfcd5dea31c"
  else if b = pairSaltInput pairEpk pairPublicKey then
    ofDigits "489e965e415da6a88750fe3e6ad54bba439bf5568201dc7e83cddeabfca9752a"
  else if b = pairSaltInput roundTripEpk pairPublicKey then
    ofDigits "d4bfdacd76842b3e2ceddf8621c7023904a6299f035220ef50f8297b3430f844"
  else if b = pairSaltInput roundTripEpk foreignPublicKey then
    ofDigits "3b2bda1b2f96fe8c602cf362af78e092ba805ec32ff0cbcdab40d06498c666cd"
  else if b = pairSaltInput pairEpk foreignPublicKey then
    ofDigits "df2a43364c15576beef4827ec5e200cd8447d3a2bfd55fc202b925da76855f94"
  else ofDigits "60677abf5819837b4d926f6580e1b9ac6a46fbfa654bfc60c0cd953c696ac065"

/-- What is extracted from each exchange, and the key that is expanded from it. -/
def pairKeks : List (List UInt8 × FixedBytes 32 × FixedBytes 32) :=
  [(roundTripShared.val,
      ofDigits "cb1838194c6366cd16beb2a6715671e79cd3a79ab2752f21eaa30a8cbbdacf00",
      roundTripKek),
    (pairShared.val,
      ofDigits "b2589326cd32b03b392c153bbf92c61dd0ecf366a66c6ab1916c00bb91cc482b",
      ofDigits "c108508ccbf581d7ba4168f44c97e5779bc41280bc22d52d3fee12bdc55a90a2"),
    (crossShared.val,
      ofDigits "8227d3b095dff17a4fd477242a873ee0a4b8c5078f5ff74742b7fc62240045cf",
      ofDigits "b117fae81582246ec21908b3a49541bbd17a14dc88e459486990dfce4f23de76"),
    (foreignShared.val,
      ofDigits "6e5adc48eba6bf20073691e96dfae741e27e3fd5855d4bde4dcca0bf4a17bad5",
      ofDigits "7921e509653bb8b7341c37720ad66577f0f46af72cfaedfeeeb435930300781e"),
    (foreignShared'.val,
      ofDigits "d69bbfddc830088a3bfec4ab8def0610bfe8b7857631c34d5ac1b19b5bc8d989",
      ofDigits "0e6ac052d4d30720cf404d7997702a4531621ea920df4951c95900dcebd07dec")]

def pairExtract (salt ikm : List UInt8) : FixedBytes 32 :=
  ((pairKeks.lookup ikm).map Prod.fst).getD (roundTripPrk salt)

def pairExpand (prk : FixedBytes 32) (info : List UInt8) : FixedBytes 32 :=
  ((pairKeks.map Prod.snd).lookup prk).getD (roundTripHkdf info)

/-- The start of the key stream and the tag of a wrap under each key. Only the recipients wrap. -/
def pairWraps : List (FixedBytes 32 × List UInt8 × FixedBytes 16) :=
  [(ofDigits "c108508ccbf581d7ba4168f44c97e5779bc41280bc22d52d3fee12bdc55a90a2",
      (ofDigits "be4833196eb726431fad0156b95d3152c00ef131e4a03083b35ca00d583b56ac").val,
      ⟨[0xe8, 0x4f, 0x3e, 0xee, 0x60, 0x0b, 0x29, 0x95, 0x6e, 0xd5, 0x39, 0x2c, 0x00, 0xe1, 0xb0,
        0x6e], rfl⟩),
    (ofDigits "b117fae81582246ec21908b3a49541bbd17a14dc88e459486990dfce4f23de76", [],
      ⟨[0xfb, 0x6a, 0x1f, 0x21, 0x1a, 0x67, 0x67, 0x78, 0x15, 0x9c, 0x8c, 0x14, 0x59, 0xfc, 0x02,
        0x8e], rfl⟩),
    (ofDigits "7921e509653bb8b7341c37720ad66577f0f46af72cfaedfeeeb435930300781e", [],
      ⟨[0xaa, 0x71, 0xcc, 0xed, 0xa4, 0xb1, 0x7c, 0x57, 0xaa, 0x4e, 0x1b, 0xa7, 0x52, 0x4a, 0x61,
        0x9c], rfl⟩),
    (ofDigits "0e6ac052d4d30720cf404d7997702a4531621ea920df4951c95900dcebd07dec", [],
      ⟨[0xd5, 0x1a, 0x12, 0x91, 0x08, 0xf2, 0x1b, 0x91, 0x4d, 0xf9, 0xeb, 0x45, 0x74, 0x0e, 0x53,
        0x27], rfl⟩)]

/-- ChaCha20-Poly1305 on the wraps, and on the chunk of the first sample. -/
def pairCipher : StreamCipher where
  keystream key nonce i :=
    match pairWraps.lookup key with
    | some (stream, _) => stream.getD i 0
    | none => roundTripCipher.keystream key nonce i
  tag key nonce aad ciphertext :=
    match pairWraps.lookup key with
    | some (_, tag) => tag
    | none => roundTripCipher.tag key nonce aad ciphertext

/-- The primitives on the strings of the sample. -/
def pairCrypto : SealedPrimitives :=
  { roundTripCrypto with
    sha256 := pairSha256
    hmacSha256 := fun _ _ =>
      ofDigits "40f8ea6da39716169be8888926e40e6f784c89525797fa05264b1ccff1d94b76"
    hkdfExtract := pairExtract
    hkdfExpand := fun prk info length =>
      ⟨((pairExpand prk info).val ++ List.replicate length 0).take length, by simp⟩
    x25519 := pairX25519
    aead := pairCipher.aead }

/-- The word `hello` for two recipients. -/
def pairArgs : WrapArgs :=
  { roundTripArgs with
    recipientPublicKeys := [roundTripPublicKey.val, pairPublicKey.val]
    ephemeralSecrets := some [roundTripEphemeral.val, pairEphemeral.val] }

/-- The envelope with two slots, and the word sealed. -/
def pairOutput : SealedPoeOutput where
  envelope :=
    { roundTripOutput.envelope with
      slots := .x25519 [
        { epk := roundTripEpk.val
          wrap :=
            [0xe6, 0x09, 0x71, 0x8c, 0xf7, 0xd5, 0x3c, 0xfe, 0x5c, 0x5f, 0x11, 0x69, 0xf2, 0x2e,
            0xe8, 0xd2, 0x82, 0x79, 0x1c, 0xf9, 0x66, 0x30, 0xb0, 0xf5, 0xf0, 0x41, 0x67, 0x26,
            0x18, 0x08, 0x8a, 0xcd, 0x03, 0x79, 0x6e, 0x46, 0xe2, 0x34, 0xf4, 0x81, 0x28, 0x74,
            0x38, 0xd1, 0xfd, 0x03, 0x4c, 0x58] },
        { epk := pairEpk.val
          wrap :=
            [0xba, 0x4c, 0x37, 0x1d, 0x6a, 0xb3, 0x22, 0x47, 0x1b, 0xa9, 0x05, 0x52, 0xbd, 0x59,
            0x35, 0x56, 0xc4, 0x0a, 0xf5, 0x35, 0xe0, 0xa4, 0x34, 0x87, 0xb7, 0x58, 0xa4, 0x09,
            0x5c, 0x3f, 0x52, 0xa8, 0xe8, 0x4f, 0x3e, 0xee, 0x60, 0x0b, 0x29, 0x95, 0x6e, 0xd5,
            0x39, 0x2c, 0x00, 0xe1, 0xb0, 0x6e] }]
      slotsMac :=
        (ofDigits "40f8ea6da39716169be8888926e40e6f784c89525797fa05264b1ccff1d94b76").val }
  ciphertext := roundTripOutput.ciphertext

theorem pairX25519_of_notMem {scalar point : FixedBytes 32}
    (h : ∀ e ∈ pairExchanges, (scalar, point) ≠ e.1) :
    pairX25519 scalar point = FixedBytes.zero 32 := by
  have hlookup : pairExchanges.lookup (scalar, point) = none :=
    List.lookup_eq_none_iff.mpr fun e he => bne_iff_ne.mpr (h e he)
  rw [pairX25519, hlookup]
  rfl

theorem pairX25519_zero (scalar : FixedBytes 32) :
    pairX25519 scalar (FixedBytes.zero 32) = FixedBytes.zero 32 := by
  have hpoints : ∀ e ∈ pairExchanges, e.1.2 ≠ FixedBytes.zero 32 := by decide +kernel
  apply pairX25519_of_notMem
  intro e he h
  exact hpoints e he (congrArg Prod.snd h).symm

theorem pairX25519_other {scalar : FixedBytes 32} (hs : scalar ∉ pairSecrets)
    (point : FixedBytes 32) : pairX25519 scalar point = FixedBytes.zero 32 := by
  have hscalars : ∀ e ∈ pairExchanges, e.1.1 ∈ pairSecrets := by decide +kernel
  apply pairX25519_of_notMem
  intro e he h
  have hfst : scalar = e.1.1 := congrArg Prod.fst h
  exact hs (hfst ▸ hscalars e he)

theorem pairCrypto_correctKem : pairCrypto.CorrectKem where
  exchange a b := by
    show pairX25519 a (pairX25519 b x25519Basepoint) =
      pairX25519 b (pairX25519 a x25519Basepoint)
    have hall : ∀ a ∈ pairSecrets, ∀ b ∈ pairSecrets,
        pairX25519 a (pairX25519 b x25519Basepoint) =
          pairX25519 b (pairX25519 a x25519Basepoint) := by decide +kernel
    by_cases ha : a ∈ pairSecrets
    · by_cases hb : b ∈ pairSecrets
      · exact hall a ha b hb
      · rw [pairX25519_other hb, pairX25519_other hb, pairX25519_zero]
    · rw [pairX25519_other ha, pairX25519_other ha, pairX25519_zero]
  decapsulate _ _ := rfl

theorem pair_wrap :
    (eciesSealedPoeWrapWithRng pairCrypto idleSource 0 pairArgs).Gives () (.ok pairOutput) () := by
  have hbuilt : (wrapEnvelopeWithRng pairCrypto idleSource 0 pairArgs).Gives ()
      ⟨pairOutput.envelope, roundTripPayloadKey⟩ () := by
    rfl
  have hseal : streamSeal pairCrypto.aead roundTripPayloadKey (utf8Bytes "hello") =
      .ok pairOutput.ciphertext := by
    rw [streamSeal_eq_ok, Chunks.pieces_of_le (by decide)]
    decide +kernel
  rw [eciesSealedPoeWrapWithRng, Draw.gives_bind]
  refine ⟨_, (), hbuilt, ?_⟩
  rw [Draw.gives_pure]
  have hplain : pairArgs.plaintext = utf8Bytes "hello" := rfl
  simp only [hplain, hseal]
  exact ⟨rfl, trivial⟩

/-- Only the second slot opens, and only under the key of the second recipient. -/
theorem pair_candidates :
    slotCandidates pairCrypto pairOutput.envelope foreignSecret.val =
        [(false, FixedBytes.zero 32), (false, FixedBytes.zero 32)] ∧
      slotCandidates pairCrypto pairOutput.envelope pairSecret.val =
        [(false, FixedBytes.zero 32), (true, ⟨List.replicate 32 4, List.length_replicate⟩)] := by
  decide +kernel

/-- The second recipient opens the word with a list of keys that a foreign key begins. -/
theorem unwrap_wrap_hello :
    eciesSealedPoeUnwrap pairCrypto pairOutput.envelope pairOutput.ciphertext sampleHashes
      (.multi [foreignSecret.val, pairSecret.val]) = .ok (.matched (utf8Bytes "hello")) := by
  have hopen {key : List UInt8} (hkey : key ∈ [foreignSecret.val, pairSecret.val])
      {cek : FixedBytes 32} (hcek : (true, cek) ∈ slotCandidates pairCrypto pairOutput.envelope key) :
      cek = ⟨List.replicate 32 4, List.length_replicate⟩ := by
    rcases List.mem_cons.mp hkey with rfl | hkey
    · rw [pair_candidates.1] at hcek
      simp at hcek
    · rw [List.mem_singleton.mp hkey, pair_candidates.2] at hcek
      simpa using hcek
  have hmac : NoMacCollision pairCrypto pairOutput.envelope sampleHashes
      [foreignSecret.val, pairSecret.val] := by
    rintro a ⟨key, hkey, ha⟩ b ⟨key', hkey', hb⟩ -
    rw [hopen hkey ha, hopen hkey' hb]
  have hkey : SealedKem.x25519.IsSecretOf pairCrypto pairSecret.val pairPublicKey.val :=
    ⟨pairPublicKey, by decide +kernel, rfl⟩
  have hmem : pairSecret.val ∈ (UnwrapKeys.multi [foreignSecret.val, pairSecret.val]).list
      pairOutput.envelope := List.mem_cons_of_mem _ (List.mem_singleton.mpr rfl)
  have hlengths : ∀ k ∈ (UnwrapKeys.multi [foreignSecret.val, pairSecret.val]).list
      pairOutput.envelope, k.length = x25519SecretKeyLength := by
    simp [UnwrapKeys.list]
    decide
  exact (unwrap_wrap_iff pairCrypto_correctKem pairCipher.lawful pair_wrap
    (List.mem_cons_of_mem _ (List.mem_singleton.mpr rfl)) hkey hmem hlengths hmac).mpr (by decide)

/-! ## Too many recipients -/

theorem length_cutOrPad (key : FixedBytes 32) (length : ℕ) :
    ((key.val ++ List.replicate length 0).take length).length = length := by simp

/-- Primitives that satisfy the laws, whose MAC of a content key is the key itself. -/
def wideCrypto : SealedPrimitives where
  sha256 _ := FixedBytes.zero 32
  sha3256 _ := FixedBytes.zero 32
  shake256 _ := FixedBytes.zero
  hmacSha256 key _ := (toFixed 32 key).getD (FixedBytes.zero 32)
  hkdfExtract _ ikm := (toFixed 32 ikm).getD (FixedBytes.zero 32)
  hkdfExpand key _ length :=
    ⟨(key.val ++ List.replicate length 0).take length, length_cutOrPad key length⟩
  x25519 _ _ := FixedBytes.zero 32
  mlKem :=
    { encapsulationKey := fun _ => FixedBytes.zero 1184
      validEncapsulationKey := fun _ => true
      encapsulate := fun _ message =>
        (message.append (FixedBytes.zero 1056), FixedBytes.zero 32)
      decapsulate := fun _ _ => FixedBytes.zero 32 }
  aead := StreamCipher.aead ⟨fun _ _ _ => 0, fun _ _ _ _ => FixedBytes.zero 16⟩

theorem wideCrypto_correctKem : wideCrypto.CorrectKem where
  exchange _ _ := rfl
  decapsulate _ _ := rfl

theorem wideCrypto_mac (cek : FixedBytes 32) (slotsHash : List UInt8) :
    computeSlotsMac wideCrypto cek.val slotsHash = cek := by
  show (toFixed 32 ((((toFixed 32 cek.val).getD (FixedBytes.zero 32)).val ++
    List.replicate 32 0).take 32)).getD (FixedBytes.zero 32) = cek
  rw [toFixed_val, Option.getD_some, List.take_left' cek.property, toFixed_val, Option.getD_some]

/-- An empty plaintext for 57 recipients of the hybrid KEM. -/
def wideArgs : WrapArgs where
  plaintext := []
  recipientPublicKeys := List.replicate 57 (List.replicate 1216 0)
  hashes := sampleHashes
  kem := some .mlkem768X25519
  cek := some (List.replicate 32 4)
  nonce := some (List.replicate 24 3)
  ephemeralSecrets := none
  eseeds := some ((List.range 57).map fun i => UInt8.ofNat i :: List.replicate 63 0)
  skipShuffle := true

/-- The computation ends with a value. -/
def Draw.succeeds {σ α : Type} (m : Draw σ α) (s : σ) : Bool :=
  match m s with
  | some (.ok _, _) => true
  | _ => false

theorem Draw.gives_of_succeeds {σ α : Type} {m : Draw σ α} {s : σ} (h : m.succeeds s = true) :
    ∃ a s', m.Gives s a s' := by
  rw [Draw.succeeds] at h
  split at h
  · exact ⟨_, _, ‹_›⟩
  · cases h

theorem wide_succeeds :
    (wrapEnvelopeWithRng wideCrypto idleSource 0 wideArgs).succeeds () = true := by
  decide +kernel

/-- A wrap for 57 recipients succeeds, and the key of a recipient is refused. -/
theorem wrap_not_unwrapped :
    wideCrypto.CorrectKem ∧ wideCrypto.aead.Lawful ∧
      ∃ output, (eciesSealedPoeWrapWithRng wideCrypto idleSource 0 wideArgs).Gives ()
          (.ok output) () ∧
        SealedKem.mlkem768X25519.IsSecretOf wideCrypto (List.replicate 32 0)
          (List.replicate 1216 0) ∧
        NoMacCollision wideCrypto output.envelope sampleHashes [List.replicate 32 0] ∧
        eciesSealedPoeUnwrap wideCrypto output.envelope output.ciphertext sampleHashes
          (.single (List.replicate 32 0)) ≠ .ok (.matched []) := by
  have haead : wideCrypto.aead.Lawful := StreamCipher.lawful _
  obtain ⟨built, s', hbuilt⟩ := Draw.gives_of_succeeds wide_succeeds
  obtain ⟨cek, hashesHash, hwrapped⟩ := wrapped_of_gives wideCrypto_correctKem haead hbuilt
  obtain ⟨ciphertext, hseal⟩ : ∃ c, streamSeal wideCrypto.aead built.payloadKey [] = .ok c :=
    ⟨_, rfl⟩
  refine ⟨wideCrypto_correctKem, haead, ⟨built.envelope, ciphertext⟩, ?_,
    ⟨⟨List.replicate 1216 0, List.length_replicate⟩, by decide +kernel, rfl⟩, ?_, ?_⟩
  · rw [eciesSealedPoeWrapWithRng, Draw.gives_bind]
    refine ⟨built, s', hbuilt, ?_⟩
    rw [Draw.gives_pure, wideArgs, hseal]
    exact ⟨rfl, rfl⟩
  · intro a _ b _ hab
    simpa only [wideCrypto_mac] using hab
  · have hlengths : ∀ k ∈ (UnwrapKeys.single (List.replicate 32 0)).list built.envelope,
        k.length = x25519SecretKeyLength := by
      simp [UnwrapKeys.list, x25519SecretKeyLength]
    have hhashes : itemHashesHash wideCrypto sampleHashes = .ok hashesHash := hwrapped.hashes
    rw [eciesSealedPoeUnwrap, unwrapHeader_of_lengths (by simp [UnwrapKeys.list]) hlengths hhashes]
    cases hassert : assertEnvelope built.envelope with
    | error e => simp [Except.map]
    | ok _ => exact absurd (hwrapped.assertEnvelope_iff.mp hassert) (by decide)

end Label309
