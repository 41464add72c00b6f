import Label309.SealedPoe.Errors
import Label309.SealedPoe.Stream

/-!
# Driving the stream over a reader and a writer

Both directions keep one full chunk pending and learn from the end of the input whether it
was the last. A reader hands back any number of bytes a call; the writer may fail after a
part of a buffer, and the caller may cancel before any chunk.
-/
namespace Label309
open Chunks

/-! ## The host -/

/-- What one call of a reader does: some bytes, an interruption to retry, or a failure. The
calls after the last event read nothing. -/
inductive ReadEvent
  | data (bytes : List UInt8)
  | interrupted
  | failed (message : String)
  deriving DecidableEq

abbrev Reader := List ReadEvent

/-- The bytes that a reader still holds. -/
def Reader.size : Reader → ℕ
  | [] => 0
  | .data bytes :: events => bytes.length + Reader.size events
  | .interrupted :: events => Reader.size events
  | .failed _ :: events => Reader.size events

/-- Fill a buffer of `capacity` bytes, or as much of it as there is before the end. A call
for fewer bytes than are ready leaves the rest for the next one. -/
def readFullChunk : Reader → (capacity : ℕ) → Except EciesSealedPoeError (List UInt8 × Reader)
  | [], _ => .ok ([], [])
  | .interrupted :: events, capacity =>
      if capacity = 0 then .ok ([], .interrupted :: events) else readFullChunk events capacity
  | .failed message :: events, capacity =>
      if capacity = 0 then .ok ([], .failed message :: events)
      else .error ⟨.ioError, "reading the stream failed: " ++ message⟩
  | .data bytes :: events, capacity =>
      if capacity = 0 then .ok ([], .data bytes :: events)
      else if bytes = [] then .ok ([], events)
      else if capacity < bytes.length then
        .ok (bytes.take capacity, .data (bytes.drop capacity) :: events)
      else (readFullChunk events (capacity - bytes.length)).map fun step =>
        (bytes ++ step.1, step.2)

/-- The caller's side of a run: what was written, the answers of the cancellation closure,
and for every `write_all` whether it fails and after how many bytes. -/
structure Host where
  written : List UInt8
  cancel : Option (ℕ → Bool)
  asked : ℕ
  fault : ℕ → Option (ℕ × String)
  calls : ℕ

/-- Why a driver stopped: an error for the caller, or an assertion of the sealer. -/
inductive Abort
  | error (e : EciesSealedPoeError)
  | panic (p : SealPanic)
  deriving DecidableEq

/-- A computation over the host. What was written before an abort stays written. -/
abbrev Drive (α : Type) := Host → Except Abort α × Host

def Drive.pure {α : Type} (a : α) : Drive α := fun host => (.ok a, host)

def Drive.abort {α : Type} (e : Abort) : Drive α := fun host => (.error e, host)

def Drive.bind {α β : Type} (m : Drive α) (f : α → Drive β) : Drive β := fun host =>
  match m host with
  | (.ok a, host) => f a host
  | (.error e, host) => (.error e, host)

/-- Ask the cancellation closure. -/
def checkCancel : Drive Unit := fun host =>
  match host.cancel with
  | none => (.ok (), host)
  | some cancel =>
      if cancel host.asked then
        (.error (.error ⟨.cancelled, "the streaming operation was cancelled by the caller"⟩),
          { host with asked := host.asked + 1 })
      else (.ok (), { host with asked := host.asked + 1 })

/-- Write a whole buffer. -/
def writeAll (bytes : List UInt8) : Drive Unit := fun host =>
  match host.fault host.calls with
  | none =>
      (.ok (), { host with written := host.written ++ bytes, calls := host.calls + 1 })
  | some (accepted, message) =>
      (.error (.error ⟨.ioError, "writing the stream failed: " ++ message⟩),
        { host with written := host.written ++ bytes.take accepted, calls := host.calls + 1 })

theorem readFullChunk_size {reader reader' : Reader} {capacity : ℕ} {chunk : List UInt8}
    (h : readFullChunk reader capacity = .ok (chunk, reader')) :
    reader.size = chunk.length + reader'.size := by
  induction reader generalizing capacity chunk reader' with
  | nil =>
      cases h
      rfl
  | cons event events ih =>
      by_cases hcap : capacity = 0
      · cases event with
        | data bytes =>
            simp only [readFullChunk, hcap, if_true, Except.ok.injEq, Prod.mk.injEq] at h
            rw [← h.1, ← h.2, List.length_nil, Nat.zero_add]
        | interrupted =>
            simp only [readFullChunk, hcap, if_true, Except.ok.injEq, Prod.mk.injEq] at h
            rw [← h.1, ← h.2, List.length_nil, Nat.zero_add]
        | failed message =>
            simp only [readFullChunk, hcap, if_true, Except.ok.injEq, Prod.mk.injEq] at h
            rw [← h.1, ← h.2, List.length_nil, Nat.zero_add]
      · cases event with
        | interrupted =>
            rw [readFullChunk, if_neg hcap] at h
            exact ih h
        | failed message =>
            rw [readFullChunk, if_neg hcap] at h
            cases h
        | data bytes =>
            rw [readFullChunk, if_neg hcap] at h
            by_cases hbytes : bytes = []
            · rw [if_pos hbytes] at h
              cases h
              simp [Reader.size, hbytes]
            · by_cases hlong : capacity < bytes.length
              · rw [if_neg hbytes, if_pos hlong] at h
                cases h
                simp only [Reader.size, List.length_take, List.length_drop]
                omega
              · rw [if_neg hbytes, if_neg hlong] at h
                cases hread : readFullChunk events (capacity - bytes.length) with
                | error e => simp [hread, Except.map] at h
                | ok step =>
                    simp only [hread, Except.map, Except.ok.injEq, Prod.mk.injEq] at h
                    have hrest := ih hread
                    rw [← h.1, ← h.2, Reader.size, hrest, List.length_append, Nat.add_assoc]

section Drivers
variable (aead : Aead)

/-! ## Sealing -/

/-- Seal a chunk and write it. -/
def sealAndWrite (sealer : StreamSealer) (chunk : List UInt8) (last : Bool) :
    Drive StreamSealer :=
  match sealer.sealChunk aead chunk last with
  | .error panic => Drive.abort (.panic panic)
  | .ok (sealed, sealer) => Drive.bind (writeAll sealed) fun () => Drive.pure sealer

/-- A pending chunk that another follows is not the last. -/
def flushPending (sealer : StreamSealer) : Option (List UInt8) → Drive StreamSealer
  | none => Drive.pure sealer
  | some prev => Drive.bind checkCancel fun () => sealAndWrite aead sealer prev false

/-- The loop over the chunks of the input. -/
def sealLoop (sealer : StreamSealer) (pending : Option (List UInt8)) (reader : Reader) :
    Drive Unit :=
  match _h : readFullChunk reader chunkSize with
  | .error e => Drive.abort (.error e)
  | .ok (chunk, rest) =>
      if _hfull : chunk.length = chunkSize then
        Drive.bind (flushPending aead sealer pending) fun sealer =>
          sealLoop sealer (some chunk) rest
      else if chunk = [] then
        Drive.bind checkCancel fun () =>
          Drive.bind (sealAndWrite aead sealer (pending.getD []) true) fun _ => Drive.pure ()
      else
        Drive.bind (flushPending aead sealer pending) fun sealer =>
          Drive.bind checkCancel fun () =>
            Drive.bind (sealAndWrite aead sealer chunk true) fun _ => Drive.pure ()
termination_by reader.size
decreasing_by
  have hsize := readFullChunk_size _h
  have hpos : 0 < chunkSize := by decide
  omega

/-- Seal everything that the reader delivers. -/
def driveSeal (payloadKey : FixedBytes 32) (reader : Reader) : Drive Unit :=
  sealLoop aead (StreamSealer.new payloadKey) none reader

/-! ## Opening -/

/-- Why an unwrap recovered no plaintext. -/
inductive UnwrapFailureReason
  | wrongRecipientKey
  | tamperedHeader
  | tamperedCiphertext
  deriving DecidableEq

/-- The outcome of a streaming unwrap. -/
inductive StreamUnwrapOutcome
  | matched
  | notMatched (reason : UnwrapFailureReason)
  deriving DecidableEq

/-- The ciphertext was tampered with. -/
def tampered : StreamUnwrapOutcome := .notMatched .tamperedCiphertext

/-- Open a chunk and write its plaintext; nothing when it does not open. -/
def openAndWrite (opener : StreamOpener) (sealed : List UInt8) (last : Bool) :
    Drive (Option StreamOpener) :=
  match opener.openChunk aead sealed last with
  | none => Drive.pure none
  | some (plaintext, opener) =>
      Drive.bind (writeAll plaintext) fun () => Drive.pure (some opener)

/-- A pending chunk that another follows is not the last. -/
def openPending (opener : StreamOpener) : Option (List UInt8) → Drive (Option StreamOpener)
  | none => Drive.pure (some opener)
  | some prev => Drive.bind checkCancel fun () => openAndWrite aead opener prev false

/-- Open the chunk that ends the stream. -/
def openFinal (opener : StreamOpener) (sealed : List UInt8) : Drive StreamUnwrapOutcome :=
  Drive.bind checkCancel fun () =>
    Drive.bind (openAndWrite aead opener sealed true) fun step =>
      Drive.pure (if step.isSome then .matched else tampered)

/-- The loop over the sealed chunks of the input. -/
def openLoop (opener : StreamOpener) (pending : Option (List UInt8)) (reader : Reader) :
    Drive StreamUnwrapOutcome :=
  match _h : readFullChunk reader sealedChunkSize with
  | .error e => Drive.abort (.error e)
  | .ok (sealed, rest) =>
      if _hfull : sealed.length = sealedChunkSize then
        Drive.bind (openPending aead opener pending) fun
          | none => Drive.pure tampered
          | some opener => openLoop opener (some sealed) rest
      else if sealed = [] then
        match pending with
        | none => Drive.pure tampered
        | some prev => openFinal aead opener prev
      else
        Drive.bind (openPending aead opener pending) fun
          | none => Drive.pure tampered
          | some opener =>
              if sealed.length < tagSize then Drive.pure tampered
              else openFinal aead opener sealed
termination_by reader.size
decreasing_by
  have hsize := readFullChunk_size _h
  have hpos : 0 < sealedChunkSize := by decide
  omega

/-- Open everything that the reader delivers. -/
def driveOpen (payloadKey : FixedBytes 32) (reader : Reader) : Drive StreamUnwrapOutcome :=
  openLoop aead (StreamOpener.new payloadKey) none reader

end Drivers

end Label309
