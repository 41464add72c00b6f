import Label309.SealedPoe.Unwrap

/-!
# What a wrap makes

A wrap that succeeds has a slot for every recipient, in some order, and every slot gives the
content key to the holder of its recipient's secret.
-/
namespace Label309

/-! ## Drawing -/

section Draw
variable {σ α β : Type}

/-- The computation ends with a value. -/
def Draw.Gives (m : Draw σ α) (s : σ) (a : α) (s' : σ) : Prop := m s = some (.ok a, s')

@[simp] theorem Draw.gives_pure {a b : α} {s s' : σ} :
    (Draw.pure a : Draw σ α).Gives s b s' ↔ b = a ∧ s' = s := by
  simp [Draw.Gives, Draw.pure, eq_comm]

@[simp] theorem Draw.gives_ofExcept {r : Except EciesSealedPoeError α} {b : α} {s s' : σ} :
    (Draw.ofExcept r).Gives s b s' ↔ r = .ok b ∧ s' = s := by
  simp [Draw.Gives, Draw.ofExcept, eq_comm]

@[simp] theorem Draw.not_gives_fail {code : EciesSealedPoeErrorCode} {message : String} {b : α}
    {s s' : σ} : ¬ (Draw.fail code message : Draw σ α).Gives s b s' := by
  simp [Draw.Gives, Draw.fail]

theorem Draw.gives_bind {m : Draw σ α} {f : α → Draw σ β} {b : β} {s s'' : σ} :
    (Draw.bind m f).Gives s b s'' ↔ ∃ a s', m.Gives s a s' ∧ (f a).Gives s' b s'' := by
  unfold Draw.Gives Draw.bind
  cases hm : m s with
  | none => simp
  | some step =>
      cases step with
      | mk result s' =>
          cases result with
          | error e => simp
          | ok a => simp

end Draw

section Shuffle
variable {σ α : Type} {rng : RandomSource σ} {bound : ℕ}

theorem perm_swapIfInBounds (arr : Array α) (i j : ℕ) : (arr.swapIfInBounds i j).Perm arr := by
  rw [Array.swapIfInBounds_def]
  split
  · split
    · exact Array.swap_perm _ _
    · exact .rfl
  · exact .rfl

theorem shuffleFrom_perm {i : ℕ} {arr arr' : Array α} {s s' : σ}
    (h : (shuffleFrom rng bound i arr).Gives s arr' s') : arr'.Perm arr := by
  induction i generalizing arr s with
  | zero =>
      rw [shuffleFrom, Draw.gives_pure] at h
      rw [h.1]
  | succ i ih =>
      rw [shuffleFrom, Draw.gives_bind] at h
      obtain ⟨j, s₁, -, hrest⟩ := h
      exact (ih hrest).trans (perm_swapIfInBounds arr (i + 1) j)

theorem csprngShuffle_perm {slots slots' : List α} {s s' : σ}
    (h : (csprngShuffle rng bound slots).Gives s slots' s') : slots'.Perm slots := by
  rw [csprngShuffle] at h
  by_cases hshort : slots.length < 2
  · rw [if_pos hshort, Draw.gives_pure] at h
    rw [h.1]
  · rw [if_neg hshort, Draw.gives_bind] at h
    obtain ⟨arr, s₁, harr, hrest⟩ := h
    rw [(Draw.gives_pure.mp hrest).1]
    exact (shuffleFrom_perm harr).toList

end Shuffle

/-! ## Slots -/

section Slots
variable (crypto : SealedPrimitives)

/-- The key is a secret of the public key. -/
def SealedKem.IsSecretOf : SealedKem → (key pub : List UInt8) → Prop
  | .x25519, key, pub => ∃ pk, x25519PublicKey crypto key = .ok pk ∧ pk.val = pub
  | .mlkem768X25519, key, pub =>
      ∃ pk, mlkem768x25519PublicKeyFromSeed crypto key = .ok pk ∧ pk.val = pub

/-- The slot has the lengths on the wire, and a secret of its recipient opens it. -/
structure X25519Slot.OpensFor (nonce : List UInt8) (cek : FixedBytes 32) (pub : List UInt8)
    (slot : X25519Slot) : Prop where
  epk_length : slot.epk.length = x25519SecretKeyLength
  wrap_length : slot.wrap.length = wrapLength
  opens (key : List UInt8) : SealedKem.x25519.IsSecretOf crypto key pub →
    x25519SlotCandidate crypto key pub nonce slot = (true, cek)

/-- The slot has the lengths on the wire, and a secret of its recipient opens it. -/
structure Mlkem768X25519Slot.OpensFor (nonce : List UInt8) (cek : FixedBytes 32)
    (pub : List UInt8) (slot : Mlkem768X25519Slot) : Prop where
  kemCt_length : slot.kemCt.length = mlkem768x25519EncLength
  wrap_length : slot.wrap.length = wrapLength
  opens (key : List UInt8) : SealedKem.mlkem768X25519.IsSecretOf crypto key pub →
    mlkem768x25519SlotCandidate crypto key pub nonce slot = (true, cek)

variable {crypto} (hkem : crypto.CorrectKem) (haead : crypto.aead.Lawful)
include haead

theorem wrapOpenOrDummy_encrypt (kek : FixedBytes 32) (ad : List UInt8) (cek : FixedBytes 32) :
    wrapOpenOrDummy crypto kek ad (crypto.aead.encrypt kek zeroNonce12 ad cek.val) =
      (true, cek) := by
  rw [wrapOpenOrDummy, (haead.decrypt_eq_some _ _ _ _ _).mpr rfl]
  simp

include hkem

theorem x25519SlotOf_opensFor {eph pub nonce : List UInt8} {cek : FixedBytes 32} {slotIdx : ℕ}
    {slot : X25519Slot} (h : x25519SlotOf crypto eph pub cek.val nonce slotIdx = .ok slot) :
    slot.OpensFor crypto nonce cek pub := by
  rw [x25519SlotOf, x25519PublicKey, x25519Ecdh, x25519EcdhUnvalidated] at h
  cases heph : toFixed 32 eph with
  | none => simp [heph] at h
  | some ephemeral =>
      cases hpub : toFixed 32 pub with
      | none => simp [heph, hpub] at h
      | some point =>
          simp only [heph, hpub] at h
          by_cases hzero : crypto.x25519 ephemeral point = FixedBytes.zero 32
          · simp [hzero] at h
          · simp only [ne_eq, hzero, not_false_eq_true, decide_true, if_true,
              Except.ok.injEq] at h
            rw [← h]
            have hwrap := haead.length_encrypt
              (x25519Kek crypto (crypto.x25519 ephemeral point) nonce
                (crypto.x25519 ephemeral x25519Basepoint).val pub) zeroNonce12
              (utf8Bytes cardanoPoeHkdfInfoKek) cek.val
            refine ⟨(crypto.x25519 ephemeral x25519Basepoint).property, ?_, ?_⟩
            · rw [hwrap, cek.property]
              rfl
            · intro key hkey
              obtain ⟨pk, hpk, hval⟩ := hkey
              rw [x25519PublicKey] at hpk
              cases hsecret : toFixed 32 key with
              | none => simp [hsecret] at hpk
              | some scalar =>
                  simp only [hsecret, Except.ok.injEq] at hpk
                  have hpoint : point = crypto.x25519 scalar x25519Basepoint := by
                    rw [← hval, toFixed_val, Option.some.injEq] at hpub
                    rw [← hpub, hpk]
                  have hshared : crypto.x25519 scalar (crypto.x25519 ephemeral x25519Basepoint) =
                      crypto.x25519 ephemeral point := by
                    rw [hkem.exchange, hpoint]
                  rw [x25519SlotCandidate, x25519EcdhUnvalidated, hsecret, toFixed_val]
                  simp only [hshared, ne_eq, hzero, not_false_eq_true, decide_true, if_true,
                    wrapOpenOrDummy_encrypt haead, Bool.and_self]

theorem wrapSlotMlkem768X25519_opensFor {pub eseed nonce : List UInt8} {cek : FixedBytes 32}
    {slotIdx : ℕ} {slot : Mlkem768X25519Slot}
    (h : wrapSlotMlkem768X25519 crypto pub eseed cek.val nonce slotIdx = .ok slot) :
    slot.OpensFor crypto nonce cek pub := by
  rw [wrapSlotMlkem768X25519] at h
  cases henc : mlkem768x25519Encapsulate crypto pub eseed with
  | error e => simp [henc] at h
  | ok step =>
      cases step with
      | mk enc ss =>
          simp only [henc, Except.ok.injEq] at h
          rw [← h]
          refine ⟨enc.property, ?_, ?_⟩
          · rw [haead.length_encrypt, cek.property]
            rfl
          · intro key hkey
            obtain ⟨pk, hpk, hval⟩ := hkey
            rw [mlkem768x25519SlotCandidate,
              mlkem768x25519Decapsulate_encapsulate hkem hpk hval henc]
            exact wrapOpenOrDummy_encrypt haead _ _ cek

section Lists
variable {σ : Type} {rng : RandomSource σ}

theorem wrapSlotsX25519_opensFor {overrides : Option (List (List UInt8))} {cek : FixedBytes 32}
    {nonce : List UInt8} {i : ℕ} {pubs : List (List UInt8)} {s s' : σ} {slots : List X25519Slot}
    (h : (wrapSlotsX25519 crypto rng overrides cek.val nonce i pubs).Gives s slots s') :
    List.Forall₂ (X25519Slot.OpensFor crypto nonce cek) pubs slots := by
  induction pubs generalizing i s s' slots with
  | nil =>
      rw [wrapSlotsX25519, Draw.gives_pure] at h
      rw [h.1]
      exact .nil
  | cons pub pubs ih =>
      rw [wrapSlotsX25519, Draw.gives_bind] at h
      obtain ⟨slot, s₁, hslot, hrest⟩ := h
      rw [Draw.gives_bind] at hrest
      obtain ⟨rest, s₂, hslots, hpure⟩ := hrest
      rw [wrapSlotX25519, Draw.gives_bind] at hslot
      obtain ⟨eph, s₃, -, hof⟩ := hslot
      rw [(Draw.gives_pure.mp hpure).1]
      exact .cons (x25519SlotOf_opensFor hkem haead (Draw.gives_ofExcept.mp hof).1) (ih hslots)

theorem wrapSlotsMlkem768X25519_opensFor {overrides : Option (List (List UInt8))}
    {cek : FixedBytes 32} {nonce : List UInt8} {i : ℕ} {pubs : List (List UInt8)} {s s' : σ}
    {slots : List Mlkem768X25519Slot}
    (h : (wrapSlotsMlkem768X25519 crypto rng overrides cek.val nonce i pubs).Gives s slots s') :
    List.Forall₂ (Mlkem768X25519Slot.OpensFor crypto nonce cek) pubs slots := by
  induction pubs generalizing i s s' slots with
  | nil =>
      rw [wrapSlotsMlkem768X25519, Draw.gives_pure] at h
      rw [h.1]
      exact .nil
  | cons pub pubs ih =>
      rw [wrapSlotsMlkem768X25519, Draw.gives_bind] at h
      obtain ⟨eseed, s₁, -, hrest⟩ := h
      rw [Draw.gives_bind] at hrest
      obtain ⟨slot, s₂, hslot, hrest⟩ := hrest
      rw [Draw.gives_bind] at hrest
      obtain ⟨rest, s₃, hslots, hpure⟩ := hrest
      rw [(Draw.gives_pure.mp hpure).1]
      exact .cons
        (wrapSlotMlkem768X25519_opensFor hkem haead (Draw.gives_ofExcept.mp hslot).1) (ih hslots)

end Lists

omit hkem haead

/-! ## The slots in their final order -/

variable (crypto)

/-- The slots are those of the recipients in some order, no two with the same KEM field. -/
def WrappedSlots (kem : SealedKem) (nonce : List UInt8) (cek : FixedBytes 32)
    (pubs : List (List UInt8)) : SealedSlots → Prop
  | .x25519 slots =>
      kem = .x25519 ∧ (slots.map X25519Slot.epk).Nodup ∧
        ∃ ordered, slots.Perm ordered ∧
          List.Forall₂ (X25519Slot.OpensFor crypto nonce cek) pubs ordered
  | .mlkem768X25519 slots =>
      kem = .mlkem768X25519 ∧ (slots.map Mlkem768X25519Slot.kemCt).Nodup ∧
        ∃ ordered, slots.Perm ordered ∧
          List.Forall₂ (Mlkem768X25519Slot.OpensFor crypto nonce cek) pubs ordered

variable {crypto}

/-- No list repeats one before it, or one that was seen. -/
theorem firstDuplicate_eq_none_iff {seen : List (List UInt8)} {i : ℕ} {ms : List (List UInt8)} :
    firstDuplicate seen i ms = none ↔ ms.Nodup ∧ ∀ m ∈ ms, m ∉ seen := by
  induction ms generalizing seen i with
  | nil => simp [firstDuplicate]
  | cons m ms ih =>
      rw [firstDuplicate]
      by_cases hseen : m ∈ seen
      · simp [hseen]
      · rw [if_neg hseen, ih, List.nodup_cons, List.forall_mem_cons]
        constructor
        · intro h
          exact ⟨⟨fun hm => h.2 m hm List.mem_cons_self, h.1⟩, hseen,
            fun a ha has => h.2 a ha (List.mem_cons_of_mem _ has)⟩
        · intro h
          refine ⟨h.1.2, fun a ha hmem => ?_⟩
          rcases List.mem_cons.mp hmem with heq | has
          · exact h.1.1 (heq ▸ ha)
          · exact h.2.2 a ha has

theorem assertUniqueSlotKemMaterial_eq_ok {slots : SealedSlots}
    (h : assertUniqueSlotKemMaterial slots = .ok ()) : slots.kemMaterial.1.Nodup := by
  rw [assertUniqueSlotKemMaterial] at h
  cases hdup : firstDuplicate [] 0 slots.kemMaterial.1 with
  | some i => simp [hdup] at h
  | none => exact (firstDuplicate_eq_none_iff.mp hdup).1

/-- The shuffle changes nothing but the order. -/
theorem WrappedSlots.shuffle {σ : Type} {rng : RandomSource σ} {args : WrapArgs} {bound : ℕ}
    {kem : SealedKem} {nonce : List UInt8} {cek : FixedBytes 32} {pubs : List (List UInt8)}
    {slots slots' : SealedSlots} {s s' : σ} (h : WrappedSlots crypto kem nonce cek pubs slots)
    (hshuffle : (shuffleSlots rng args bound slots).Gives s slots' s') :
    WrappedSlots crypto kem nonce cek pubs slots' := by
  rw [shuffleSlots.eq_def] at hshuffle
  by_cases hskip : args.skipShuffle = true
  · rw [if_pos hskip, Draw.gives_pure] at hshuffle
    rwa [hshuffle.1]
  · rw [if_neg hskip] at hshuffle
    cases slots with
    | x25519 slots =>
        simp only [Draw.gives_bind, Draw.gives_pure] at hshuffle
        obtain ⟨shuffled, s₁, hperm, rfl, -⟩ := hshuffle
        obtain ⟨hkem, hnodup, ordered, hordered, hopens⟩ := h
        have hp := csprngShuffle_perm hperm
        exact ⟨hkem, (hp.map _).nodup_iff.mpr hnodup, ordered, hp.trans hordered, hopens⟩
    | mlkem768X25519 slots =>
        simp only [Draw.gives_bind, Draw.gives_pure] at hshuffle
        obtain ⟨shuffled, s₁, hperm, rfl, -⟩ := hshuffle
        obtain ⟨hkem, hnodup, ordered, hordered, hopens⟩ := h
        have hp := csprngShuffle_perm hperm
        exact ⟨hkem, (hp.map _).nodup_iff.mpr hnodup, ordered, hp.trans hordered, hopens⟩

/-! ## The envelope -/

theorem overrideOrFresh_length {σ : Type} {rng : RandomSource σ} {override : Option (List UInt8)}
    {length : ℕ} {code : EciesSealedPoeErrorCode} {name : String} {s s' : σ} {b : List UInt8}
    (h : (overrideOrFresh rng override length code name).Gives s b s') : b.length = length := by
  cases override with
  | none =>
      simp only [overrideOrFresh, Draw.gives_bind, Draw.gives_pure] at h
      obtain ⟨fresh, s₁, -, rfl, -⟩ := h
      exact fresh.property
  | some given =>
      rw [overrideOrFresh] at h
      by_cases hlen : given.length = length
      · rw [if_neg (by simpa using hlen), Draw.gives_pure] at h
        rw [h.1, hlen]
      · rw [if_pos hlen] at h
        exact absurd h Draw.not_gives_fail

/-- What a wrap hands back: slots for the recipients under one content key, and everything
that is derived from it. -/
structure Wrapped (crypto : SealedPrimitives) (args : WrapArgs) (cek : FixedBytes 32)
    (hashesHash : FixedBytes 32) (built : WrapEnvelope) : Prop where
  hashes : itemHashesHash crypto args.hashes = .ok hashesHash
  recipients : args.recipientPublicKeys ≠ []
  scheme : built.envelope.scheme = 1
  aead : built.envelope.aead = aeadChacha20Poly1305Stream64k
  kem : built.envelope.kem = (args.kem.getD .x25519).asStr
  nonce : built.envelope.nonce.length = nonceLength
  slots : WrappedSlots crypto (args.kem.getD .x25519) built.envelope.nonce cek
    args.recipientPublicKeys built.envelope.slots
  slotsMac : built.envelope.slotsMac = (computeSlotsMac crypto cek.val
    (envelopeSlotsHash crypto built.envelope hashesHash).val).val
  payloadKey : built.payloadKey = slotsPayloadKey crypto cek.val built.envelope.nonce

/-- Some recipient was given. -/
theorem recipients_ne_nil {args : WrapArgs} {kem : SealedKem}
    (h : checkWrapArgs args kem = .ok ()) : args.recipientPublicKeys ≠ [] := by
  intro hnil
  simp [checkWrapArgs.eq_def, hnil] at h

/-- The slots before the shuffle. -/
theorem wrappedSlots_of_gives {σ : Type} {rng : RandomSource σ} (hkem : crypto.CorrectKem)
    (haead : crypto.aead.Lawful) {args : WrapArgs} {kem : SealedKem} {cek : FixedBytes 32}
    {nonce : List UInt8} {s s' : σ} {slots : SealedSlots}
    (h : (wrapSlots crypto rng args kem cek.val nonce).Gives s slots s')
    (hunique : slots.kemMaterial.1.Nodup) :
    WrappedSlots crypto kem nonce cek args.recipientPublicKeys slots := by
  cases kem with
  | x25519 =>
      simp only [wrapSlots, Draw.gives_bind, Draw.gives_pure] at h
      obtain ⟨ordered, s₁, hordered, rfl, -⟩ := h
      exact ⟨rfl, hunique, ordered, .rfl, wrapSlotsX25519_opensFor hkem haead hordered⟩
  | mlkem768X25519 =>
      simp only [wrapSlots, Draw.gives_bind, Draw.gives_pure] at h
      obtain ⟨ordered, s₁, hordered, rfl, -⟩ := h
      exact ⟨rfl, hunique, ordered, .rfl, wrapSlotsMlkem768X25519_opensFor hkem haead hordered⟩

/-- A wrap that gives an envelope gives a wrapped one. -/
theorem wrapped_of_gives {σ : Type} {rng : RandomSource σ} (hkem : crypto.CorrectKem)
    (haead : crypto.aead.Lawful) {bound : ℕ} {args : WrapArgs} {s s' : σ} {built : WrapEnvelope}
    (h : (wrapEnvelopeWithRng crypto rng bound args).Gives s built s') :
    ∃ cek hashesHash, Wrapped crypto args cek hashesHash built := by
  simp only [wrapEnvelopeWithRng, Draw.gives_bind, Draw.gives_ofExcept] at h
  obtain ⟨_, _, ⟨hcheck, rfl⟩, cek, s₁, hcek, nonce, s₂, hnonce, slots, s₃, hslots, _, _,
    ⟨hunique, rfl⟩, shuffled, s₄, hshuffle, hassemble, -⟩ := h
  have hcekLength := overrideOrFresh_length hcek
  have hnonceLength := overrideOrFresh_length hnonce
  have hwrapped := (@wrappedSlots_of_gives crypto _ _ hkem haead args _ ⟨cek, hcekLength⟩ _ _ _ _
    hslots (assertUniqueSlotKemMaterial_eq_ok hunique)).shuffle hshuffle
  rw [assembleEnvelope] at hassemble
  cases hhashes : itemHashesHash crypto args.hashes with
  | error e => simp [hhashes] at hassemble
  | ok hashesHash =>
      simp only [hhashes, Except.ok.injEq] at hassemble
      rw [← hassemble]
      exact ⟨⟨cek, hcekLength⟩, hashesHash,
        { hashes := hhashes
          recipients := recipients_ne_nil hcheck
          scheme := rfl
          aead := rfl
          kem := rfl
          nonce := hnonceLength
          slots := hwrapped
          slotsMac := rfl
          payloadKey := rfl }⟩

end Slots

end Label309
