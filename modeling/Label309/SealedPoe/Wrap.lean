import Label309.SealedPoe.Kem
import Label309.SealedPoe.Stream
import Label309.SealedPoe.Transcript

/-!
# Sealing to recipients

The content key is wrapped to every recipient in a slot of its own, the slots are shuffled
and committed to, and the plaintext is sealed in the stream format. The entropy comes from
a source with a state, which a fixed number of draws and the rejection sampling consult.
-/
namespace Label309

/-- The label of a wrapping key of the classical KEM. -/
def cardanoPoeHkdfInfoKek : String := "cardano-poe-kek-v1"

/-- The label of a wrapping key of the hybrid KEM. -/
def cardanoPoeHkdfInfoKekMlkem768X25519 : String := "cardano-poe-kek-mlkem768x25519-v1"

/-- The label of the key of the slots MAC. -/
def cardanoPoeHkdfInfoSlotsMac : String := "cardano-poe-slots-mac-v1"

/-- The nonce of a wrap. Every wrapping key is used once. -/
def zeroNonce12 : FixedBytes 12 := FixedBytes.zero 12

/-- The length of a content key. -/
def cekLength : ℕ := 32

/-- The length of the nonce of an envelope. -/
def nonceLength : ℕ := 24

/-- The length of a wrapped content key with its tag. -/
def wrapLength : ℕ := 48

/-- The length of the slots MAC. -/
def slotsMacLength : ℕ := 32

/-- The KEM to seal under. -/
inductive SealedKem
  | x25519
  | mlkem768X25519
  deriving DecidableEq

def SealedKem.asStr : SealedKem → String
  | .x25519 => kemX25519
  | .mlkem768X25519 => kemMlkem768X25519

/-- Fill a buffer, whose contents the source may leave as they are. -/
def RandomSource (σ : Type) : Type := σ → (n : ℕ) → FixedBytes n → FixedBytes n × σ

/-- The arguments of a wrap, with the overrides of its draws. -/
structure WrapArgs where
  plaintext : List UInt8
  recipientPublicKeys : List (List UInt8)
  hashes : ContentHashMap
  kem : Option SealedKem
  cek : Option (List UInt8)
  nonce : Option (List UInt8)
  ephemeralSecrets : Option (List (List UInt8))
  eseeds : Option (List (List UInt8))
  skipShuffle : Bool

/-! ## Entropy -/

/-- A computation that draws. Nothing when the rejection sampling has not come to an end
within its bound on draws. -/
def Draw (σ α : Type) : Type := σ → Option (Except EciesSealedPoeError α × σ)

section Source
variable {σ α β : Type}

/-- Nothing is drawn. -/
def Draw.pure (a : α) : Draw σ α := fun s => some (.ok a, s)

/-- A typed refusal. -/
def Draw.fail (code : EciesSealedPoeErrorCode) (message : String) : Draw σ α :=
  fun s => some (.error ⟨code, message⟩, s)

/-- A result that needs no draw. -/
def Draw.ofExcept (r : Except EciesSealedPoeError α) : Draw σ α := fun s => some (r, s)

/-- One draw after the other, up to the first refusal. -/
def Draw.bind (m : Draw σ α) (f : α → Draw σ β) : Draw σ β := fun s =>
  match m s with
  | none => none
  | some (.error e, s) => some (.error e, s)
  | some (.ok a, s) => f a s

/-- Draw into a zeroed buffer. -/
def Draw.fill (rng : RandomSource σ) (n : ℕ) : Draw σ (FixedBytes n) := fun s =>
  let (bytes, s) := rng s n (FixedBytes.zero n)
  some (.ok bytes, s)

/-- The number of four bytes, the least significant first. -/
def u32FromLe (b : FixedBytes 4) : ℕ := BigEndian.ofBe b.val.reverse

/-- Draws at or above it are rejected. It is zero when `m` is, where the code panics. -/
def uniformIndexCeiling (m : ℕ) : ℕ := 2 ^ 32 - 2 ^ 32 % m

/-- An index below `m`, from at most `bound` draws. -/
def uniformIndexBelow (rng : RandomSource σ) (m : ℕ) : (bound : ℕ) → Draw σ ℕ
  | 0 => fun _ => none
  | bound + 1 =>
      Draw.bind (Draw.fill rng 4) fun buf =>
        if u32FromLe buf < uniformIndexCeiling m then Draw.pure (u32FromLe buf % m)
        else uniformIndexBelow rng m bound

/-- Swap the element at `i` with one drawn from those up to it, for every `i` downwards. Their
number is cast to 32 bits. -/
def shuffleFrom (rng : RandomSource σ) (bound : ℕ) : ℕ → Array α → Draw σ (Array α)
  | 0, arr => Draw.pure arr
  | i + 1, arr =>
      Draw.bind (uniformIndexBelow rng ((i + 2) % 2 ^ 32) bound) fun j =>
        shuffleFrom rng bound i (arr.swapIfInBounds (i + 1) j)

/-- A random order, with rejection sampling for every index. -/
def csprngShuffle (rng : RandomSource σ) (bound : ℕ) (slots : List α) : Draw σ (List α) :=
  if slots.length < 2 then Draw.pure slots
  else Draw.bind (shuffleFrom rng bound (slots.length - 1) slots.toArray) fun arr =>
    Draw.pure arr.toList

end Source

section Wrap
variable (crypto : SealedPrimitives) {σ : Type} (rng : RandomSource σ)

/-! ## Slots -/

/-- The length of an ephemeral override, or a fresh scalar. -/
def ephemeralSecret (privEph : Option (List UInt8)) (slotIdx : ℕ) : Draw σ (List UInt8) :=
  match privEph with
  | some eph =>
      if eph.length ≠ 32 then
        Draw.fail .invalidEphemeralSecretLength
          s!"ephemeral_secrets[{slotIdx}] MUST be exactly 32 bytes, got {eph.length}"
      else Draw.pure eph
  | none => Draw.bind (Draw.fill rng 32) fun eph => Draw.pure eph.val

/-- The key that wraps the content key in a classical slot. -/
def x25519Kek (shared : FixedBytes 32) (nonce epk pubR : List UInt8) : FixedBytes 32 :=
  hkdfSha256 crypto shared.val (x25519KekSalt crypto nonce epk pubR).val
    (utf8Bytes cardanoPoeHkdfInfoKek)

/-- The wrapping key of a hybrid slot. -/
def xwingKek (ss : FixedBytes 32) (nonce kemCt pubR : List UInt8) : FixedBytes 32 :=
  hkdfSha256 crypto ss.val (xwingKekSalt crypto nonce kemCt pubR).val
    (utf8Bytes cardanoPoeHkdfInfoKekMlkem768X25519)

/-- The slot that a 32-byte ephemeral scalar makes. -/
def x25519SlotOf (privEph pubR cek nonce : List UInt8) (slotIdx : ℕ) :
    Except EciesSealedPoeError X25519Slot :=
  match x25519PublicKey crypto privEph, x25519Ecdh crypto privEph pubR with
  | .ok epk, .ok shared =>
      .ok { epk := epk.val
            wrap := crypto.aead.encrypt (x25519Kek crypto shared nonce epk.val pubR) zeroNonce12
              (utf8Bytes cardanoPoeHkdfInfoKek) cek }
  | _, .error e =>
      .error ⟨.kemEpkLengthMismatch,
        s!"recipient_public_keys[{slotIdx}] X25519 ECDH failed: " ++ e.toText⟩
  -- The scalar has 32 bytes, so the code does not panic here.
  | .error e, _ => .error ⟨.kemEpkLengthMismatch, e.toText⟩

/-- One classical slot. -/
def wrapSlotX25519 (pubR : List UInt8) (privEph : Option (List UInt8)) (cek nonce : List UInt8)
    (slotIdx : ℕ) : Draw σ X25519Slot :=
  Draw.bind (ephemeralSecret rng privEph slotIdx) fun eph =>
    Draw.ofExcept (x25519SlotOf crypto eph pubR cek nonce slotIdx)

/-- One hybrid slot. -/
def wrapSlotMlkem768X25519 (pubR eseed cek nonce : List UInt8) (slotIdx : ℕ) :
    Except EciesSealedPoeError Mlkem768X25519Slot :=
  match mlkem768x25519Encapsulate crypto pubR eseed with
  | .error e =>
      .error ⟨.kemEpkLengthMismatch,
        s!"recipient_public_keys[{slotIdx}] X-Wing encapsulation failed: " ++ e.toText⟩
  | .ok (enc, ss) =>
      .ok { kemCt := enc.val
            wrap := crypto.aead.encrypt (xwingKek crypto ss nonce enc.val pubR) zeroNonce12
              (utf8Bytes cardanoPoeHkdfInfoKekMlkem768X25519) cek }

/-- The classical slots from the recipient `i` on. -/
def wrapSlotsX25519 (overrides : Option (List (List UInt8))) (cek nonce : List UInt8) :
    (i : ℕ) → List (List UInt8) → Draw σ (List X25519Slot)
  | _, [] => Draw.pure []
  | i, pubR :: pubs =>
      Draw.bind
        (wrapSlotX25519 crypto rng pubR (overrides.map fun e => e.getD i []) cek nonce i)
        fun slot =>
          Draw.bind (wrapSlotsX25519 overrides cek nonce (i + 1) pubs) fun slots =>
            Draw.pure (slot :: slots)

/-- An encapsulation seed: the override, or a fresh one. -/
def encapsulationSeed (overrides : Option (List (List UInt8))) (i : ℕ) : Draw σ (List UInt8) :=
  match overrides with
  | some e => Draw.pure (e.getD i [])
  | none => Draw.bind (Draw.fill rng mlkem768x25519EseedLength) fun eseed => Draw.pure eseed.val

/-- The hybrid slots from the index `i` on. -/
def wrapSlotsMlkem768X25519 (overrides : Option (List (List UInt8))) (cek nonce : List UInt8) :
    (i : ℕ) → List (List UInt8) → Draw σ (List Mlkem768X25519Slot)
  | _, [] => Draw.pure []
  | i, pubR :: pubs =>
      Draw.bind (encapsulationSeed rng overrides i) fun eseed =>
        Draw.bind (Draw.ofExcept (wrapSlotMlkem768X25519 crypto pubR eseed cek nonce i)) fun slot =>
          Draw.bind (wrapSlotsMlkem768X25519 overrides cek nonce (i + 1) pubs) fun slots =>
            Draw.pure (slot :: slots)

/-- HMAC-SHA256 of the slots hash under a key derived from the content key. -/
def computeSlotsMac (cek slotsHash : List UInt8) : FixedBytes 32 :=
  crypto.hmacSha256 (hkdfSha256 crypto cek [] (utf8Bytes cardanoPoeHkdfInfoSlotsMac)).val slotsHash

/-- The index of the first list that repeats one before it. -/
def firstDuplicate (seen : List (List UInt8)) : (i : ℕ) → List (List UInt8) → Option ℕ
  | _, [] => none
  | i, m :: ms => if m ∈ seen then some i else firstDuplicate (m :: seen) (i + 1) ms

/-- The material that fixes the wrapping key of every slot, and the name of its field. -/
def SealedSlots.kemMaterial : SealedSlots → List (List UInt8) × String
  | .x25519 slots => (slots.map X25519Slot.epk, "epk")
  | .mlkem768X25519 slots => (slots.map Mlkem768X25519Slot.kemCt, "kem_ct")

/-- No two slots share their key material. -/
def assertUniqueSlotKemMaterial (slots : SealedSlots) : Except EciesSealedPoeError Unit :=
  match firstDuplicate [] 0 slots.kemMaterial.1 with
  | some i =>
      .error ⟨.encSlotsDuplicateKemMaterial, s!"slots[{i}]." ++ slots.kemMaterial.2 ++
        " duplicates an earlier slot; per-slot KEK uniqueness is violated"⟩
  | none => .ok ()

/-! ## Arguments -/

/-- The index of the first list whose length is another. -/
def firstOfOtherLength (length : ℕ) (xs : List (List UInt8)) : Option ℕ :=
  xs.findIdx? fun x => x.length ≠ length

def SealedKem.publicKeyLength : SealedKem → ℕ
  | .x25519 => 32
  | .mlkem768X25519 => mlkem768x25519PublicKeyLength

/-- The checks before anything is drawn. -/
def checkWrapArgs (args : WrapArgs) (kem : SealedKem) : Except EciesSealedPoeError Unit :=
  let n := args.recipientPublicKeys.length
  if n < 1 then .error ⟨.encSlotsEmpty, s!"recipient_public_keys.len()={n} must be >= 1"⟩
  else
    match firstOfOtherLength kem.publicKeyLength args.recipientPublicKeys with
    | some i =>
        .error ⟨.kemEpkLengthMismatch,
          s!"recipient_public_keys[{i}] MUST be exactly {kem.publicKeyLength} bytes for kem='" ++
            kem.asStr ++ "'"⟩
    | none =>
        match kem with
        | .x25519 =>
            if args.eseeds.isSome then
              .error ⟨.ephemeralSecretsCountMismatch,
                "eseeds is an X-Wing override and MUST NOT be supplied for kem='x25519'"⟩
            else
              match args.ephemeralSecrets with
              | none => .ok ()
              | some eph =>
                  if eph.length ≠ n then
                    .error ⟨.ephemeralSecretsCountMismatch,
                      s!"ephemeral_secrets.len()={eph.length} must match recipient_public_keys.len()={n}"⟩
                  else .ok ()
        | .mlkem768X25519 =>
            if args.ephemeralSecrets.isSome then
              .error ⟨.ephemeralSecretsCountMismatch,
                "ephemeral_secrets is an X25519 override and MUST NOT be supplied for kem='mlkem768x25519'"⟩
            else
              match args.eseeds with
              | none => .ok ()
              | some eseeds =>
                  if eseeds.length ≠ n then
                    .error ⟨.ephemeralSecretsCountMismatch,
                      s!"eseeds.len()={eseeds.length} must match recipient_public_keys.len()={n}"⟩
                  else
                    match firstOfOtherLength mlkem768x25519EseedLength eseeds with
                    | some i =>
                        .error ⟨.invalidEphemeralSecretLength,
                          s!"eseeds[{i}] MUST be exactly 64 bytes, got {(eseeds.getD i []).length}"⟩
                    | none => .ok ()

/-- An override of the right length, or fresh bytes. -/
def overrideOrFresh (override : Option (List UInt8)) (length : ℕ) (code : EciesSealedPoeErrorCode)
    (name : String) : Draw σ (List UInt8) :=
  match override with
  | some b =>
      if b.length ≠ length then
        Draw.fail code (name ++ s!" MUST be exactly {length} bytes, got {b.length}")
      else Draw.pure b
  | none => Draw.bind (Draw.fill rng length) fun b => Draw.pure b.val

/-! ## The envelope -/

/-- The envelope and the content key derived with it. -/
structure WrapEnvelope where
  envelope : SealedEnvelope
  payloadKey : FixedBytes 32

/-- The slots in the order of the recipients. -/
def wrapSlots (args : WrapArgs) (kem : SealedKem) (cek nonce : List UInt8) : Draw σ SealedSlots :=
  match kem with
  | .x25519 =>
      Draw.bind
        (wrapSlotsX25519 crypto rng args.ephemeralSecrets cek nonce 0 args.recipientPublicKeys)
        fun slots => Draw.pure (.x25519 slots)
  | .mlkem768X25519 =>
      Draw.bind
        (wrapSlotsMlkem768X25519 crypto rng args.eseeds cek nonce 0 args.recipientPublicKeys)
        fun slots => Draw.pure (.mlkem768X25519 slots)

/-- The order on the wire says nothing about the recipients. -/
def shuffleSlots (args : WrapArgs) (bound : ℕ) (slots : SealedSlots) : Draw σ SealedSlots :=
  if args.skipShuffle then Draw.pure slots
  else
    match slots with
    | .x25519 slots =>
        Draw.bind (csprngShuffle rng bound slots) fun slots => Draw.pure (.x25519 slots)
    | .mlkem768X25519 slots =>
        Draw.bind (csprngShuffle rng bound slots) fun slots => Draw.pure (.mlkem768X25519 slots)

/-- The envelope over the slots in their final order. -/
def assembleEnvelope (args : WrapArgs) (kem : SealedKem) (cek nonce : List UInt8)
    (slots : SealedSlots) : Except EciesSealedPoeError WrapEnvelope :=
  match itemHashesHash crypto args.hashes with
  | .error e => .error e
  | .ok hashesHash =>
      let slotsHash :=
        computeSlotsHash crypto aeadChacha20Poly1305Stream64k kem.asStr nonce slots hashesHash
      .ok { envelope :=
              { scheme := 1, aead := aeadChacha20Poly1305Stream64k, kem := kem.asStr, nonce := nonce
                slots := slots, slotsMac := (computeSlotsMac crypto cek slotsHash.val).val }
            payloadKey := slotsPayloadKey crypto cek nonce }

/-- The envelope for the recipients, with the payload key. -/
def wrapEnvelopeWithRng (bound : ℕ) (args : WrapArgs) : Draw σ WrapEnvelope :=
  let kem := args.kem.getD .x25519
  Draw.bind (Draw.ofExcept (checkWrapArgs args kem)) fun () =>
    Draw.bind (overrideOrFresh rng args.cek cekLength .invalidCekLength "cek") fun cek =>
      Draw.bind (overrideOrFresh rng args.nonce nonceLength .nonceLengthMismatch "nonce") fun nonce =>
        Draw.bind (wrapSlots crypto rng args kem cek nonce) fun slots =>
          Draw.bind (Draw.ofExcept (assertUniqueSlotKemMaterial slots)) fun () =>
            Draw.bind (shuffleSlots rng args bound slots) fun slots =>
              Draw.ofExcept (assembleEnvelope crypto args kem cek nonce slots)

/-- Seal a plaintext. The sealer's assertions are not met by a plaintext in memory. -/
def eciesSealedPoeWrapWithRng (bound : ℕ) (args : WrapArgs) :
    Draw σ (Except SealPanic SealedPoeOutput) :=
  Draw.bind (wrapEnvelopeWithRng crypto rng bound args) fun built =>
    Draw.pure ((streamSeal crypto.aead built.payloadKey args.plaintext).map fun ciphertext =>
      { envelope := built.envelope, ciphertext := ciphertext })

end Wrap

end Label309
