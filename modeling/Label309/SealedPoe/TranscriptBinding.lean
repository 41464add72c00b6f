import Label309.SealedPoe.TranscriptInjectivity

/-!
# What the commitments bind

A slots MAC and a passphrase commitment are MACs of a digest of a transcript. As long as
SHA-256 does not collide on the strings that are hashed for two of them, equal commitments
are over equal headers and equal content hashes.
-/
namespace Label309

/-! ## HMAC -/

section Hmac
variable (hash : List UInt8 → FixedBytes 32)

/-- The key in one block: hashed when it is longer, and padded with zeros. -/
def hmacBlock (key : List UInt8) : List UInt8 :=
  let key := if 64 < key.length then (hash key).val else key
  key ++ List.replicate (64 - key.length) 0

def hmacInner (key message : List UInt8) : List UInt8 :=
  (hmacBlock hash key).map (· ^^^ 0x36) ++ message

def hmacOuter (key message : List UInt8) : List UInt8 :=
  (hmacBlock hash key).map (· ^^^ 0x5c) ++ (hash (hmacInner hash key message)).val

/-- HMAC over a hash with blocks of 64 bytes. -/
def hmacOf (key message : List UInt8) : FixedBytes 32 := hash (hmacOuter hash key message)

theorem length_hmacBlock (key : List UInt8) : (hmacBlock hash key).length = 64 := by
  by_cases hlong : 64 < key.length
  · simp [hmacBlock, hlong, (hash key).property]
  · simp [hmacBlock, hlong]
    omega

variable {hash}

/-- Without a collision, equal MACs are of equal messages. -/
theorem hmacOf_inj {hashed : Set (List UInt8)} (hinj : hashed.InjOn hash)
    {key key' message message' : List UInt8}
    (hinner : hmacInner hash key message ∈ hashed) (houter : hmacOuter hash key message ∈ hashed)
    (hinner' : hmacInner hash key' message' ∈ hashed)
    (houter' : hmacOuter hash key' message' ∈ hashed)
    (h : hmacOf hash key message = hmacOf hash key' message') : message = message' := by
  have hstrings := hinj houter houter' h
  have hdigests := (List.append_inj hstrings (by simp [length_hmacBlock])).2
  have hmessages := hinj hinner hinner' (Subtype.ext hdigests)
  exact (List.append_inj hmessages (by simp [length_hmacBlock])).2

end Hmac

/-- HMAC-SHA256 is HMAC over SHA-256. -/
def SealedPrimitives.StandardHmac (crypto : SealedPrimitives) : Prop :=
  ∀ key message, crypto.hmacSha256 key message = hmacOf crypto.sha256 key message

/-! ## Headers -/

/-- The string whose digest stands for the content hashes. -/
def itemHashesInput (hashes : ContentHashMap) : List UInt8 :=
  utf8Bytes cardanoPoeHashPrefixItemHashes ++ encodeDistinct (itemHashesCbor hashes)

/-- The digest of the content hashes, of an empty map too. -/
def itemHashesDigest (crypto : SealedPrimitives) (hashes : ContentHashMap) : FixedBytes 32 :=
  crypto.sha256 (itemHashesInput hashes)

theorem itemHashesHash_eq_ok {crypto : SealedPrimitives} {hashes : ContentHashMap}
    {hashesHash : FixedBytes 32} :
    itemHashesHash crypto hashes = .ok hashesHash ↔
      hashes.entries ≠ [] ∧ hashesHash = itemHashesDigest crypto hashes := by
  by_cases hempty : hashes.entries = []
  · simp [itemHashesHash, hempty]
  · have hok : itemHashesHash crypto hashes = .ok (itemHashesDigest crypto hashes) := by
      simp [itemHashesHash, hempty, labelledSha256, itemHashesDigest, itemHashesInput]
    rw [hok, Except.ok.injEq]
    exact ⟨fun h => ⟨hempty, h.symm⟩, fun h => h.2.symm⟩

/-- What a slots MAC is over, the content hashes included. -/
structure SlotsHeader where
  aead : String
  kem : String
  nonce : List UInt8
  slots : SealedSlots
  hashes : ContentHashMap

/-- What a passphrase commitment is over. -/
structure PassphraseHeader where
  aead : String
  nonce : List UInt8
  alg : String
  salt : List UInt8
  m : UInt64
  t : UInt64
  p : UInt64
  hashes : ContentHashMap

/-- The headers differ in nothing but the variant of an empty list of slots. -/
def SlotsHeader.SameOnWire (h h' : SlotsHeader) : Prop :=
  h.aead = h'.aead ∧ h.kem = h'.kem ∧ h.nonce = h'.nonce ∧ h.slots.SameOnWire h'.slots ∧
    h.hashes = h'.hashes

section Commitments
variable (crypto : SealedPrimitives)

def SlotsHeader.transcript (h : SlotsHeader) : CborValue :=
  slotsTranscript h.aead h.kem h.nonce h.slots (itemHashesDigest crypto h.hashes)

/-- The digest that is MACed. -/
def SlotsHeader.slotsHash (h : SlotsHeader) : FixedBytes 32 :=
  computeSlotsHash crypto h.aead h.kem h.nonce h.slots (itemHashesDigest crypto h.hashes)

def slotsMacKey (cek : List UInt8) : List UInt8 :=
  (hkdfSha256 crypto cek [] (utf8Bytes cardanoPoeHkdfInfoSlotsMac)).val

/-- The strings that SHA-256 is applied to on the way to the slots MAC. -/
def SlotsHeader.hashed (h : SlotsHeader) (cek : List UInt8) : Set (List UInt8) :=
  {itemHashesInput h.hashes,
    utf8Bytes cardanoPoeHashPrefixSlotsTranscript ++ encodeDistinct (h.transcript crypto),
    hmacInner crypto.sha256 (slotsMacKey crypto cek) (h.slotsHash crypto).val,
    hmacOuter crypto.sha256 (slotsMacKey crypto cek) (h.slotsHash crypto).val}

def PassphraseHeader.transcript (h : PassphraseHeader) : CborValue :=
  passphraseTranscript h.aead h.nonce h.alg h.salt h.m h.t h.p (itemHashesDigest crypto h.hashes)

/-- The digest that is MACed. -/
def PassphraseHeader.pwHash (h : PassphraseHeader) : FixedBytes 32 :=
  computePassphraseHash crypto h.aead h.nonce h.alg h.salt h.m h.t h.p
    (itemHashesDigest crypto h.hashes)

def passphraseMacKey (cek : List UInt8) : List UInt8 :=
  (hkdfSha256 crypto cek [] (utf8Bytes cardanoPoeHkdfInfoPassphraseMac)).val

/-- The strings that SHA-256 is applied to on the way to the commitment. -/
def PassphraseHeader.hashed (h : PassphraseHeader) (cek : List UInt8) : Set (List UInt8) :=
  {itemHashesInput h.hashes,
    utf8Bytes cardanoPoeHashPrefixPassphraseTranscript ++ encodeDistinct (h.transcript crypto),
    hmacInner crypto.sha256 (passphraseMacKey crypto cek) (h.pwHash crypto).val,
    hmacOuter crypto.sha256 (passphraseMacKey crypto cek) (h.pwHash crypto).val}

variable {crypto}

theorem computeSlotsMac_eq (hmac : crypto.StandardHmac) (cek message : List UInt8) :
    computeSlotsMac crypto cek message = hmacOf crypto.sha256 (slotsMacKey crypto cek) message :=
  hmac _ _

theorem passphraseCommitment_eq (hmac : crypto.StandardHmac) (cek : List UInt8)
    (message : FixedBytes 32) :
    passphraseCommitment crypto cek message =
      hmacOf crypto.sha256 (passphraseMacKey crypto cek) message.val :=
  hmac _ _

theorem SlotsHeader.slotsHash_eq (h : SlotsHeader) :
    h.slotsHash crypto =
      crypto.sha256
        (utf8Bytes cardanoPoeHashPrefixSlotsTranscript ++ encodeDistinct (h.transcript crypto)) := by
  simp [slotsHash, computeSlotsHash, labelledSha256, transcript, slotsTranscriptBytes]

theorem PassphraseHeader.pwHash_eq (h : PassphraseHeader) :
    h.pwHash crypto =
      crypto.sha256 (utf8Bytes cardanoPoeHashPrefixPassphraseTranscript ++
        encodeDistinct (h.transcript crypto)) := by
  simp [pwHash, computePassphraseHash, labelledSha256, transcript, passphraseTranscriptBytes]

/-- Equal digests are of equal content hashes. -/
theorem itemHashesDigest_inj {hashed : Set (List UInt8)} (hinj : hashed.InjOn crypto.sha256)
    {hashes hashes' : ContentHashMap} (hmem : itemHashesInput hashes ∈ hashed)
    (hmem' : itemHashesInput hashes' ∈ hashed) (hfit : LengthsFit (itemHashesCbor hashes))
    (hfit' : LengthsFit (itemHashesCbor hashes'))
    (h : itemHashesDigest crypto hashes = itemHashesDigest crypto hashes') : hashes = hashes' :=
  itemHashesCbor_inj hfit hfit' (List.append_cancel_left (hinj hmem hmem' h))

/-- A slots MAC binds the header and the content hashes. -/
theorem slotsMac_binds (hmac : crypto.StandardHmac) {h h' : SlotsHeader} {cek cek' : List UInt8}
    (hfit : LengthsFit (h.transcript crypto)) (hfit' : LengthsFit (h'.transcript crypto))
    (hhashes : LengthsFit (itemHashesCbor h.hashes))
    (hhashes' : LengthsFit (itemHashesCbor h'.hashes))
    (hinj : (h.hashed crypto cek ∪ h'.hashed crypto cek').InjOn crypto.sha256)
    (heq : computeSlotsMac crypto cek (h.slotsHash crypto).val =
      computeSlotsMac crypto cek' (h'.slotsHash crypto).val) : h.SameOnWire h' := by
  rw [computeSlotsMac_eq hmac, computeSlotsMac_eq hmac] at heq
  have hdigest := hmacOf_inj hinj (by simp [SlotsHeader.hashed]) (by simp [SlotsHeader.hashed])
    (by simp [SlotsHeader.hashed]) (by simp [SlotsHeader.hashed]) heq
  have htranscript := Subtype.ext hdigest
  rw [SlotsHeader.slotsHash_eq, SlotsHeader.slotsHash_eq] at htranscript
  have hbytes := List.append_cancel_left
    (hinj (by simp [SlotsHeader.hashed]) (by simp [SlotsHeader.hashed]) htranscript)
  obtain ⟨haead, hkem, hnonce, hslots, hhash⟩ := slotsTranscriptBytes_inj hfit hfit' hbytes
  have hmap := itemHashesDigest_inj hinj (by simp [SlotsHeader.hashed])
    (by simp [SlotsHeader.hashed]) hhashes hhashes' hhash
  exact ⟨haead, hkem, hnonce, hslots, hmap⟩

/-- A passphrase commitment binds the header and the content hashes. -/
theorem passphraseCommitment_binds (hmac : crypto.StandardHmac) {h h' : PassphraseHeader}
    {cek cek' : List UInt8}
    (hfit : LengthsFit (h.transcript crypto)) (hfit' : LengthsFit (h'.transcript crypto))
    (hhashes : LengthsFit (itemHashesCbor h.hashes))
    (hhashes' : LengthsFit (itemHashesCbor h'.hashes))
    (hinj : (h.hashed crypto cek ∪ h'.hashed crypto cek').InjOn crypto.sha256)
    (heq : passphraseCommitment crypto cek (h.pwHash crypto) =
      passphraseCommitment crypto cek' (h'.pwHash crypto)) : h = h' := by
  rw [passphraseCommitment_eq hmac, passphraseCommitment_eq hmac] at heq
  have hdigest := hmacOf_inj hinj (by simp [PassphraseHeader.hashed])
    (by simp [PassphraseHeader.hashed]) (by simp [PassphraseHeader.hashed])
    (by simp [PassphraseHeader.hashed]) heq
  have htranscript := Subtype.ext hdigest
  rw [PassphraseHeader.pwHash_eq, PassphraseHeader.pwHash_eq] at htranscript
  have hbytes := List.append_cancel_left
    (hinj (by simp [PassphraseHeader.hashed]) (by simp [PassphraseHeader.hashed]) htranscript)
  obtain ⟨haead, hnonce, halg, hsalt, hm, ht, hp, hhash⟩ :=
    passphraseTranscriptBytes_inj hfit hfit' hbytes
  have hmap := itemHashesDigest_inj hinj (by simp [PassphraseHeader.hashed])
    (by simp [PassphraseHeader.hashed]) hhashes hhashes' hhash
  cases h
  cases h'
  simp_all

end Commitments

/-! ## The main result -/

/-- A slots transcript does not say of which KEM an empty list of slots is. -/
theorem slotsTranscriptBytes_collides :
    slotsTranscriptBytes aeadChacha20Poly1305Stream64k kemX25519 (List.replicate 24 0) (.x25519 [])
        (FixedBytes.zero 32) =
      slotsTranscriptBytes aeadChacha20Poly1305Stream64k kemX25519 (List.replicate 24 0)
        (.mlkem768X25519 []) (FixedBytes.zero 32) ∧
      SealedSlots.x25519 [] ≠ .mlkem768X25519 [] := by
  constructor
  · rfl
  · decide

/-- **The transcripts are injective and disjoint, and the commitments bind what they are
over.** Only the variant of an empty list of slots is not determined. -/
theorem transcripts_bind :
    (∀ {aead aead' kem kem' : String} {nonce nonce' : List UInt8} {slots slots' : SealedSlots}
        {hashesHash hashesHash' : FixedBytes 32},
      LengthsFit (slotsTranscript aead kem nonce slots hashesHash) →
      LengthsFit (slotsTranscript aead' kem' nonce' slots' hashesHash') →
      slotsTranscriptBytes aead kem nonce slots hashesHash =
        slotsTranscriptBytes aead' kem' nonce' slots' hashesHash' →
      aead = aead' ∧ kem = kem' ∧ nonce = nonce' ∧ slots.SameOnWire slots' ∧
        hashesHash = hashesHash') ∧
    (∀ {aead aead' alg alg' : String} {nonce nonce' salt salt' : List UInt8}
        {m m' t t' p p' : UInt64} {hashesHash hashesHash' : FixedBytes 32},
      LengthsFit (passphraseTranscript aead nonce alg salt m t p hashesHash) →
      LengthsFit (passphraseTranscript aead' nonce' alg' salt' m' t' p' hashesHash') →
      passphraseTranscriptBytes aead nonce alg salt m t p hashesHash =
        passphraseTranscriptBytes aead' nonce' alg' salt' m' t' p' hashesHash' →
      aead = aead' ∧ nonce = nonce' ∧ alg = alg' ∧ salt = salt' ∧ m = m' ∧ t = t' ∧ p = p' ∧
        hashesHash = hashesHash') ∧
    (∀ {aead aead' kem alg : String} {nonce nonce' salt : List UInt8} {slots : SealedSlots}
        {m t p : UInt64} {hashesHash hashesHash' : FixedBytes 32},
      LengthsFit (slotsTranscript aead kem nonce slots hashesHash) →
      LengthsFit (passphraseTranscript aead' nonce' alg salt m t p hashesHash') →
      slotsTranscriptBytes aead kem nonce slots hashesHash ≠
        passphraseTranscriptBytes aead' nonce' alg salt m t p hashesHash') ∧
    (∀ {hashes hashes' : ContentHashMap},
      LengthsFit (itemHashesCbor hashes) → LengthsFit (itemHashesCbor hashes') →
      itemHashesInput hashes = itemHashesInput hashes' → hashes = hashes') ∧
    (∀ {crypto : SealedPrimitives} {h h' : SlotsHeader} {cek cek' : List UInt8},
      crypto.StandardHmac → LengthsFit (h.transcript crypto) → LengthsFit (h'.transcript crypto) →
      LengthsFit (itemHashesCbor h.hashes) → LengthsFit (itemHashesCbor h'.hashes) →
      (h.hashed crypto cek ∪ h'.hashed crypto cek').InjOn crypto.sha256 →
      computeSlotsMac crypto cek (h.slotsHash crypto).val =
        computeSlotsMac crypto cek' (h'.slotsHash crypto).val →
      h.SameOnWire h') ∧
    ∀ {crypto : SealedPrimitives} {h h' : PassphraseHeader} {cek cek' : List UInt8},
      crypto.StandardHmac → LengthsFit (h.transcript crypto) → LengthsFit (h'.transcript crypto) →
      LengthsFit (itemHashesCbor h.hashes) → LengthsFit (itemHashesCbor h'.hashes) →
      (h.hashed crypto cek ∪ h'.hashed crypto cek').InjOn crypto.sha256 →
      passphraseCommitment crypto cek (h.pwHash crypto) =
        passphraseCommitment crypto cek' (h'.pwHash crypto) →
      h = h' :=
  ⟨slotsTranscriptBytes_inj, passphraseTranscriptBytes_inj, slotsTranscriptBytes_ne,
    fun hfit hfit' h => itemHashesCbor_inj hfit hfit' (List.append_cancel_left h),
    fun hmac => slotsMac_binds hmac, fun hmac => passphraseCommitment_binds hmac⟩

/-! ## A sample -/

def sampleHashes : ContentHashMap := ⟨[("sha2-256", List.replicate 32 0x5a)], by simp⟩

/-- An envelope with one classical slot. -/
def sampleSlotsHeader : SlotsHeader where
  aead := aeadChacha20Poly1305Stream64k
  kem := kemX25519
  nonce := List.replicate 24 3
  slots := .x25519 [⟨List.replicate 32 1, List.replicate 48 2⟩]
  hashes := sampleHashes

def samplePassphraseHeader : PassphraseHeader where
  aead := aeadChacha20Poly1305Stream64k
  nonce := List.replicate 24 3
  alg := passphraseKdfArgon2id
  salt := List.replicate 16 7
  m := 65536
  t := 3
  p := 1
  hashes := sampleHashes

def sampleCek : List UInt8 := List.replicate 32 4

/-- SHA-256 of the content hashes. -/
def sampleHashesHash : FixedBytes 32 :=
  ⟨[0x4d, 0x18, 0xe1, 0x94, 0x2a, 0x31, 0xc6, 0x42, 0xb5, 0x33, 0xd5, 0x94, 0x68, 0x31, 0x76,
    0x75, 0x38, 0x7a, 0x0f, 0x21, 0xd9, 0xc2, 0xcd, 0x90, 0x95, 0x00, 0xe5, 0x0a, 0x2e, 0x55,
    0x4c, 0xda], rfl⟩

/-- SHA-256 on the strings hashed for the two headers, told apart by length and first byte. -/
def sampleHeaderSha256 (b : List UInt8) : FixedBytes 32 :=
  if b.length = 70 then sampleHashesHash
  else if b.length = 275 then
    ⟨[0x87, 0x56, 0xf9, 0x23, 0xc3, 0x03, 0x2a, 0xed, 0xbf, 0xa1, 0x2c, 0xf4, 0xc9, 0xcd, 0xe0,
      0x8a, 0x9e, 0x65, 0xc9, 0x64, 0xf4, 0x4e, 0x43, 0x7c, 0xf0, 0xdf, 0xb8, 0x6b, 0x83, 0xa0,
      0xc7, 0x60], rfl⟩
  else if b.length = 278 then
    ⟨[0xc9, 0xd2, 0x78, 0x67, 0xc8, 0x4c, 0xdf, 0x09, 0xb4, 0xe5, 0xde, 0x8f, 0xce, 0x93, 0x0b,
      0x78, 0x0d, 0xd2, 0x90, 0x55, 0xe2, 0x0d, 0x41, 0xb4, 0x73, 0x1f, 0x16, 0x51, 0xfe, 0xdc,
      0x3b, 0xb7], rfl⟩
  else if b.headD 0 = 0xb6 then
    ⟨[0x4a, 0x30, 0xda, 0x85, 0x1f, 0xc2, 0x81, 0xc6, 0xeb, 0x07, 0x54, 0x61, 0x2c, 0xf0, 0x94,
      0x53, 0x2a, 0xd3, 0xf8, 0x09, 0x6c, 0xa8, 0xfd, 0xd0, 0x36, 0x61, 0xfe, 0x2f, 0xfc, 0x7d,
      0xba, 0x49], rfl⟩
  else if b.headD 0 = 0xdc then
    ⟨[0x97, 0x7f, 0xbe, 0xa6, 0xa4, 0x10, 0xe2, 0x70, 0xec, 0x98, 0x93, 0x21, 0x67, 0xee, 0x36,
      0x76, 0x3b, 0xad, 0x2b, 0x60, 0xb8, 0x2a, 0x8c, 0x41, 0x0f, 0x7b, 0xb6, 0xf9, 0x66, 0xe0,
      0xe5, 0x01], rfl⟩
  else if b.headD 0 = 0x84 then
    ⟨[0x5d, 0x2c, 0x0d, 0x84, 0x77, 0x2e, 0x5d, 0xbb, 0x88, 0xa9, 0xd5, 0x6d, 0x43, 0x1c, 0x3a,
      0xa7, 0x61, 0x53, 0x86, 0x81, 0x85, 0x70, 0x8d, 0x85, 0x5b, 0x93, 0x88, 0xad, 0x3e, 0x68,
      0x68, 0x1a], rfl⟩
  else
    ⟨[0x91, 0x47, 0xb1, 0x42, 0x98, 0xba, 0xc9, 0x51, 0x1a, 0x89, 0x3c, 0xba, 0x17, 0xa8, 0xdb,
      0x7f, 0x69, 0x3a, 0x6d, 0x51, 0x1e, 0x35, 0xe6, 0xdc, 0x6a, 0x90, 0x35, 0x6a, 0x48, 0xe8,
      0x2b, 0x89], rfl⟩

/-- The MAC keys of the two paths. -/
def sampleMacKey (info : List UInt8) : FixedBytes 32 :=
  if info = utf8Bytes cardanoPoeHkdfInfoSlotsMac then
    ⟨[0x80, 0x91, 0x8e, 0x43, 0x22, 0xf3, 0xfe, 0x37, 0x2a, 0x3b, 0x16, 0x1e, 0x0e, 0x1e, 0x36,
      0x94, 0xa4, 0xd6, 0xf4, 0xc9, 0xe6, 0x51, 0xfd, 0x21, 0xf7, 0x0a, 0x86, 0x64, 0x31, 0x4b,
      0xde, 0xe0], rfl⟩
  else
    ⟨[0xb2, 0xd8, 0x9f, 0x22, 0x6d, 0xd4, 0x2c, 0x5b, 0x84, 0x23, 0x8c, 0x8d, 0xb7, 0x7f, 0x22,
      0xbb, 0x18, 0x98, 0xf7, 0x4d, 0x0d, 0xaf, 0xd6, 0xee, 0xa1, 0x9f, 0x6f, 0x08, 0xd6, 0x4d,
      0x9b, 0x28], rfl⟩

/-- HKDF-SHA256 on the content key, and HMAC over the table above. -/
def sampleHeaderCrypto : SealedPrimitives where
  sha256 := sampleHeaderSha256
  sha3256 _ := FixedBytes.zero 32
  shake256 _ := FixedBytes.zero
  hmacSha256 := hmacOf sampleHeaderSha256
  hkdfExtract _ _ :=
    ⟨[0x25, 0xb9, 0xba, 0xdd, 0x15, 0xb9, 0x84, 0x88, 0x19, 0x97, 0x98, 0xd0, 0xf4, 0x8f, 0x1d,
      0x9e, 0xf9, 0x3c, 0x88, 0xde, 0xf3, 0x54, 0xa6, 0x99, 0xc6, 0x9a, 0xbd, 0x20, 0x05, 0x10,
      0x52, 0xe6], rfl⟩
  hkdfExpand _ info length :=
    ⟨((sampleMacKey info).val ++ List.replicate length 0).take length, by simp⟩
  x25519 _ _ := FixedBytes.zero 32
  mlKem :=
    { encapsulationKey := fun _ => FixedBytes.zero 1184
      validEncapsulationKey := fun _ => false
      encapsulate := fun _ _ => (FixedBytes.zero 1088, FixedBytes.zero 32)
      decapsulate := fun _ _ => FixedBytes.zero 32 }
  aead := ⟨fun _ _ _ _ => [], fun _ _ _ _ => none⟩

/-- The strings of the slots header have digests of their own. -/
theorem sampleSlotsHeader_injOn :
    (sampleSlotsHeader.hashed sampleHeaderCrypto sampleCek ∪
      sampleSlotsHeader.hashed sampleHeaderCrypto sampleCek).InjOn sampleHeaderCrypto.sha256 := by
  rw [Set.union_self]
  intro x hx y hy hxy
  simp only [SlotsHeader.hashed, Set.mem_insert_iff, Set.mem_singleton_iff] at hx hy
  rcases hx with rfl | rfl | rfl | rfl <;> rcases hy with rfl | rfl | rfl | rfl <;>
    first
      | rfl
      | exact absurd hxy (by decide +kernel)

/-- The strings of the passphrase header have digests of their own. -/
theorem samplePassphraseHeader_injOn :
    (samplePassphraseHeader.hashed sampleHeaderCrypto sampleCek ∪
      samplePassphraseHeader.hashed sampleHeaderCrypto sampleCek).InjOn
        sampleHeaderCrypto.sha256 := by
  rw [Set.union_self]
  intro x hx y hy hxy
  simp only [PassphraseHeader.hashed, Set.mem_insert_iff, Set.mem_singleton_iff] at hx hy
  rcases hx with rfl | rfl | rfl | rfl <;> rcases hy with rfl | rfl | rfl | rfl <;>
    first
      | rfl
      | exact absurd hxy (by decide +kernel)

theorem lengthsFit_sampleHashes : LengthsFit (itemHashesCbor sampleHashes) := by
  apply LengthsFit.map (by decide)
  · exact List.forall_mem_cons.mpr ⟨.text (by decide), by simp⟩
  · exact List.forall_mem_cons.mpr ⟨.bytes (by decide), by simp⟩

theorem lengthsFit_sampleSlots : LengthsFit (slotsCbor sampleSlotsHeader.slots) := by
  apply LengthsFit.array (by decide)
  intro v hv
  obtain rfl := List.mem_singleton.mp hv
  apply LengthsFit.map (by decide)
  · simp only [List.forall_mem_cons]
    exact ⟨.text (by decide), .text (by decide), by simp⟩
  · simp only [List.forall_mem_cons]
    exact ⟨.bytes (by decide), .bytes (by decide), by simp⟩

theorem lengthsFit_sampleSlotsHeader :
    LengthsFit (sampleSlotsHeader.transcript sampleHeaderCrypto) := by
  apply LengthsFit.map (by simp)
  · simp only [List.forall_mem_cons]
    exact ⟨.text (by decide), .text (by decide), .text (by decide), .text (by decide),
      .text (by decide), .text (by decide), .text (by decide), by simp⟩
  · simp only [List.forall_mem_cons]
    exact ⟨.unsigned 1, .text (by decide), .text (by decide), .text (by decide),
      .bytes (by decide), lengthsFit_sampleSlots,
      .bytes (by rw [(itemHashesDigest ..).property]; decide), by simp⟩

theorem lengthsFit_samplePassphraseHeader :
    LengthsFit (samplePassphraseHeader.transcript sampleHeaderCrypto) := by
  apply LengthsFit.map (by simp)
  · simp only [List.forall_mem_cons]
    exact ⟨.text (by decide), .text (by decide), .text (by decide), .text (by decide),
      .text (by decide), .text (by decide), by simp⟩
  · simp only [List.forall_mem_cons]
    refine ⟨.unsigned 1, .text (by decide), .text (by decide), .bytes (by decide),
      .bytes (by rw [(itemHashesDigest ..).property]; decide), ?_, by simp⟩
    apply LengthsFit.map (by simp)
    · simp only [List.forall_mem_cons]
      exact ⟨.text (by decide), .text (by decide), .text (by decide), .text (by decide), by simp⟩
    · simp only [List.forall_mem_cons]
      refine ⟨.text (by decide), .bytes (by decide), ?_, .text (by decide), by simp⟩
      apply LengthsFit.map (by simp)
      · simp only [List.forall_mem_cons]
        exact ⟨.text (by decide), .text (by decide), .text (by decide), by simp⟩
      · simp only [List.forall_mem_cons]
        exact ⟨.unsigned _, .unsigned _, .unsigned _, by simp⟩

/-- The transcripts of the two sample headers differ, and each commitment binds its own. -/
theorem transcripts_bind_sample :
    slotsTranscriptBytes aeadChacha20Poly1305Stream64k kemX25519 (List.replicate 24 3)
        sampleSlotsHeader.slots (itemHashesDigest sampleHeaderCrypto sampleHashes) ≠
      passphraseTranscriptBytes aeadChacha20Poly1305Stream64k (List.replicate 24 3)
        passphraseKdfArgon2id (List.replicate 16 7) 65536 3 1
        (itemHashesDigest sampleHeaderCrypto sampleHashes) ∧
      sampleSlotsHeader.SameOnWire sampleSlotsHeader ∧
      samplePassphraseHeader = samplePassphraseHeader :=
  ⟨transcripts_bind.2.2.1 lengthsFit_sampleSlotsHeader lengthsFit_samplePassphraseHeader,
    transcripts_bind.2.2.2.2.1 (fun _ _ => rfl) lengthsFit_sampleSlotsHeader
      lengthsFit_sampleSlotsHeader lengthsFit_sampleHashes lengthsFit_sampleHashes
      sampleSlotsHeader_injOn rfl,
    transcripts_bind.2.2.2.2.2 (fun _ _ => rfl) lengthsFit_samplePassphraseHeader
      lengthsFit_samplePassphraseHeader lengthsFit_sampleHashes lengthsFit_sampleHashes
      samplePassphraseHeader_injOn rfl⟩

end Label309
