import Label309.SealedPoe.Aead
import Label309.Lib.BigEndian
import Label309.Lib.Chunks

/-!
# The segmented STREAM content format

ChaCha20-Poly1305 over chunks of 64 KiB. The nonce of a chunk holds its counter and a
final flag, so that the end of the stream is authenticated. The sealer and the opener take
one chunk at a time; the buffered functions drive them over a whole byte string.
-/
namespace Label309
open BigEndian Chunks

/-- Plaintext bytes in a chunk that is not the last. -/
def chunkSize : ℕ := 65536

/-- A full sealed chunk. -/
def sealedChunkSize : ℕ := chunkSize + tagSize

/-- The counter has 88 bits. -/
def maxChunkCount : ℕ := 2 ^ 88

/-- The 11-byte counter, then the final flag. -/
def chunkNonce (counter : ℕ) (last : Bool) : FixedBytes 12 :=
  ⟨toBe 11 counter ++ [if last then 1 else 0], by simp⟩

/-! ## The chunk machines -/

/-- The assertions of the sealer. -/
inductive SealPanic
  | alreadyFinished
  | counterExhausted
  | finalTooLong
  | emptyFinal
  | nonFinalLength
  deriving DecidableEq

structure StreamSealer where
  key : FixedBytes 32
  counter : ℕ
  finished : Bool

def StreamSealer.new (payloadKey : FixedBytes 32) : StreamSealer := ⟨payloadKey, 0, false⟩

/-- The assertions on one chunk, in their order. -/
def StreamSealer.check (sealer : StreamSealer) (plaintext : List UInt8) (last : Bool) :
    Except SealPanic Unit :=
  if sealer.finished then .error .alreadyFinished
  else if ¬ sealer.counter < maxChunkCount then .error .counterExhausted
  else if last then
    if ¬ plaintext.length ≤ chunkSize then .error .finalTooLong
    else if plaintext = [] ∧ sealer.counter ≠ 0 then .error .emptyFinal
    else .ok ()
  else if plaintext.length ≠ chunkSize then .error .nonFinalLength
  else .ok ()

section Machines
variable (aead : Aead)

/-- Seal the next chunk. -/
def StreamSealer.sealChunk (sealer : StreamSealer) (plaintext : List UInt8) (last : Bool) :
    Except SealPanic (List UInt8 × StreamSealer) :=
  match sealer.check plaintext last with
  | .error panic => .error panic
  | .ok () =>
      .ok (aead.encrypt sealer.key (chunkNonce sealer.counter last) [] plaintext,
        { sealer with counter := sealer.counter + 1, finished := last })

structure StreamOpener where
  key : FixedBytes 32
  counter : ℕ
  finished : Bool

def StreamOpener.new (payloadKey : FixedBytes 32) : StreamOpener := ⟨payloadKey, 0, false⟩

/-- Whether the layout admits the sealed chunk next. -/
def StreamOpener.admits (opener : StreamOpener) (sealed : List UInt8) (last : Bool) : Bool :=
  if opener.finished || opener.counter ≥ maxChunkCount then false
  else if last then
    if sealed.length < tagSize ∨ sealedChunkSize < sealed.length then false
    else if sealed.length = tagSize ∧ opener.counter ≠ 0 then false
    else true
  else sealed.length = sealedChunkSize

/-- Open the next chunk. Every failure is the one stream error. -/
def StreamOpener.openChunk (opener : StreamOpener) (sealed : List UInt8) (last : Bool) :
    Option (List UInt8 × StreamOpener) :=
  if opener.admits sealed last then
    match aead.decrypt opener.key (chunkNonce opener.counter last) [] sealed with
    | none => none
    | some plaintext =>
        some (plaintext, { opener with counter := opener.counter + 1, finished := last })
  else none

/-! ## Whole buffers -/

/-- The pieces that a slice's `chunks` yields: none for the empty slice. -/
def sliceChunks (n : ℕ) (xs : List UInt8) : List (List UInt8) :=
  if xs.isEmpty then [] else pieces n xs

/-- Seal the chunks that are left; the one with none after it is the last. -/
def sealChunks : StreamSealer → List (List UInt8) → Except SealPanic (List UInt8)
  | _, [] => .ok []
  | sealer, chunk :: chunks =>
      match sealer.sealChunk aead chunk chunks.isEmpty with
      | .error panic => .error panic
      | .ok (sealed, sealer) => (sealChunks sealer chunks).map (sealed ++ ·)

/-- Seal a whole plaintext. -/
def streamSeal (payloadKey : FixedBytes 32) (plaintext : List UInt8) :
    Except SealPanic (List UInt8) :=
  if plaintext.isEmpty then
    ((StreamSealer.new payloadKey).sealChunk aead [] true).map Prod.fst
  else sealChunks aead (StreamSealer.new payloadKey) (sliceChunks chunkSize plaintext)

/-- Open the full chunks from the `i`th, `count` of them. -/
def openFullChunks (ciphertext : List UInt8) :
    (i count : ℕ) → StreamOpener → Option (List UInt8 × StreamOpener)
  | _, 0, opener => some ([], opener)
  | i, count + 1, opener => do
      let slice := (ciphertext.drop (i * sealedChunkSize)).take sealedChunkSize
      let (plaintext, opener) ← opener.openChunk aead slice false
      let (rest, opener) ← openFullChunks ciphertext (i + 1) count opener
      some (plaintext ++ rest, opener)

/-- The number of full chunks before the final one, from the total length. -/
def fullChunkCount (total : ℕ) : Option ℕ :=
  if total < tagSize then none
  else if total % sealedChunkSize = 0 then some (total / sealedChunkSize - 1)
  else if tagSize ≤ total % sealedChunkSize then some (total / sealedChunkSize)
  else none

/-- Open a whole ciphertext. -/
def streamOpen (payloadKey : FixedBytes 32) (ciphertext : List UInt8) : Option (List UInt8) := do
  let fullChunks ← fullChunkCount ciphertext.length
  let (out, opener) ←
    openFullChunks aead ciphertext 0 fullChunks (StreamOpener.new payloadKey)
  let (plaintext, _) ← opener.openChunk aead (ciphertext.drop (fullChunks * sealedChunkSize)) true
  some (out ++ plaintext)

end Machines

end Label309
