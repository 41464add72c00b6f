import Label309.Bytes

/-!
# Authenticated encryption

The cipher comes from outside the repository. Its laws are what the stream format and the
slots rely on, and a stream cipher with a tag over the ciphertext has them.
-/
namespace Label309

/-- ChaCha20-Poly1305 with a 12-byte nonce. Sealing appends a tag, opening gives nothing
when the tag does not verify. -/
structure Aead where
  encrypt : FixedBytes 32 → FixedBytes 12 → (aad plaintext : List UInt8) → List UInt8
  decrypt : FixedBytes 32 → FixedBytes 12 → (aad ciphertext : List UInt8) → Option (List UInt8)

/-- Tag bytes appended to every ciphertext. -/
def tagSize : ℕ := 16

/-- The laws of the cipher: a fixed expansion, and nothing opens but what sealing made. -/
structure Aead.Lawful (aead : Aead) : Prop where
  length_encrypt (key : FixedBytes 32) (nonce : FixedBytes 12) (aad plaintext : List UInt8) :
    (aead.encrypt key nonce aad plaintext).length = plaintext.length + tagSize
  decrypt_eq_some (key : FixedBytes 32) (nonce : FixedBytes 12) (aad ciphertext plaintext) :
    aead.decrypt key nonce aad ciphertext = some plaintext ↔
      ciphertext = aead.encrypt key nonce aad plaintext

/-- A stream cipher with a tag over the associated data and the ciphertext. -/
structure StreamCipher where
  keystream : FixedBytes 32 → FixedBytes 12 → ℕ → UInt8
  tag : FixedBytes 32 → FixedBytes 12 → (aad ciphertext : List UInt8) → FixedBytes 16

/-- Add the key stream. -/
def StreamCipher.mask (cipher : StreamCipher) (key : FixedBytes 32) (nonce : FixedBytes 12)
    (bytes : List UInt8) : List UInt8 :=
  bytes.mapIdx fun i b => b ^^^ cipher.keystream key nonce i

@[simp] theorem StreamCipher.mask_mask (cipher : StreamCipher) (key : FixedBytes 32)
    (nonce : FixedBytes 12) (bytes : List UInt8) :
    cipher.mask key nonce (cipher.mask key nonce bytes) = bytes := by
  apply List.ext_getElem?
  intro i
  simp [StreamCipher.mask, Function.comp_def]

/-- Encrypt, then append the tag; open when the tag is the right one. -/
def StreamCipher.aead (cipher : StreamCipher) : Aead where
  encrypt key nonce aad plaintext :=
    let masked := cipher.mask key nonce plaintext
    masked ++ (cipher.tag key nonce aad masked).val
  decrypt key nonce aad ciphertext :=
    let masked := ciphertext.take (ciphertext.length - tagSize)
    if ciphertext = masked ++ (cipher.tag key nonce aad masked).val then
      some (cipher.mask key nonce masked)
    else none

theorem StreamCipher.lawful (cipher : StreamCipher) : cipher.aead.Lawful where
  length_encrypt key nonce aad plaintext := by
    simp [StreamCipher.aead, StreamCipher.mask, (cipher.tag key nonce aad _).property, tagSize]
  decrypt_eq_some key nonce aad ciphertext plaintext := by
    have htag := fun masked => (cipher.tag key nonce aad masked).property
    constructor
    · intro hopen
      simp only [StreamCipher.aead, Option.ite_none_right_eq_some, Option.some.injEq] at hopen
      obtain ⟨hsealed, rfl⟩ := hopen
      simpa only [StreamCipher.aead, StreamCipher.mask_mask] using hsealed
    · rintro rfl
      have hmasked : ∀ masked : List UInt8,
          (masked ++ (cipher.tag key nonce aad masked).val).take
            ((masked ++ (cipher.tag key nonce aad masked).val).length - tagSize) = masked := by
        intro masked
        simp [htag, tagSize]
      simp only [StreamCipher.aead, hmasked, if_true, StreamCipher.mask_mask]

end Label309
