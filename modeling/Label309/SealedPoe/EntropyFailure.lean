import Label309.SealedPoe.EntropyLatch
import Label309.SealedPoe.StreamIoRefinement
import Label309.SealedPoe.WrapUnwrap

/-!
# When the entropy fails

A failed draw is always reported, but it is reported after the seal has run: what was
written under keys from a zeroed buffer stays written.
-/
namespace Label309

/-! ## What a run of the driver writes -/

section Orderly
variable {α β : Type}

/-- The run only adds to what was written, and no error of its own says that the generator is
unavailable. -/
structure Drive.Orderly (m : Drive α) : Prop where
  grows (host : Host) : host.written <+: (m host).2.written
  code (host : Host) (e : EciesSealedPoeError) :
    (m host).1 = .error (.error e) → e.code ≠ .rngUnavailable

theorem Drive.Orderly.pure (a : α) : (Drive.pure a).Orderly where
  grows _ := List.prefix_refl _
  code host e he := by cases he

theorem Drive.Orderly.abort {e : EciesSealedPoeError} (hcode : e.code ≠ .rngUnavailable) :
    (Drive.abort (.error e) : Drive α).Orderly where
  grows _ := List.prefix_refl _
  code host e' he := by
    cases he
    exact hcode

theorem Drive.Orderly.panic (p : SealPanic) : (Drive.abort (.panic p) : Drive α).Orderly where
  grows _ := List.prefix_refl _
  code host e he := by cases he

theorem Drive.bind_ok {m : Drive α} {f : α → Drive β} {host host' : Host} {a : α}
    (h : m host = (.ok a, host')) : Drive.bind m f host = f a host' := by
  rw [Drive.bind, h]

theorem Drive.bind_error {m : Drive α} {f : α → Drive β} {host host' : Host} {e : Abort}
    (h : m host = (.error e, host')) : Drive.bind m f host = (.error e, host') := by
  rw [Drive.bind, h]

theorem Drive.bind_assoc {γ : Type} (m : Drive α) (f : α → Drive β) (g : β → Drive γ) :
    Drive.bind (Drive.bind m f) g = Drive.bind m fun a => Drive.bind (f a) g := by
  funext host
  cases hm : m host with
  | mk result host' =>
      cases result with
      | ok a =>
          rw [Drive.bind, Drive.bind_ok hm, Drive.bind_ok hm]
          rfl
      | error e =>
          rw [Drive.bind_error (Drive.bind_error hm), Drive.bind_error hm]

theorem Drive.Orderly.bind {m : Drive α} {f : α → Drive β} (hm : m.Orderly)
    (hf : ∀ a, (f a).Orderly) : (Drive.bind m f).Orderly := by
  refine ⟨?_, ?_⟩
  · intro host
    have hgrows := hm.grows host
    cases hrun : m host with
    | mk result host' =>
        rw [hrun] at hgrows
        cases result with
        | ok a =>
            rw [Drive.bind_ok hrun]
            exact hgrows.trans ((hf a).grows host')
        | error e =>
            rw [Drive.bind_error hrun]
            exact hgrows
  · intro host e he
    have hcode := hm.code host e
    cases hrun : m host with
    | mk result host' =>
        cases result with
        | ok a =>
            rw [Drive.bind_ok hrun] at he
            exact (hf a).code host' e he
        | error e' =>
            rw [Drive.bind_error hrun] at he
            rw [hrun] at hcode
            cases he
            exact hcode rfl

theorem Drive.Orderly.checkCancel : checkCancel.Orderly where
  grows host := by
    rw [Label309.checkCancel]
    split
    · exact List.prefix_refl _
    · split
      · exact List.prefix_refl _
      · exact List.prefix_refl _
  code host e he := by
    rw [Label309.checkCancel] at he
    split at he
    · cases he
    · split at he
      · cases he
        simp
      · cases he

theorem Drive.Orderly.writeAll (bytes : List UInt8) : (writeAll bytes).Orderly where
  grows host := by
    rw [Label309.writeAll]
    split
    · exact List.prefix_append _ _
    · exact List.prefix_append _ _
  code host e he := by
    rw [Label309.writeAll] at he
    split at he
    · cases he
    · cases he
      simp

theorem code_of_readFullChunk {reader : Reader} {capacity : ℕ} {e : EciesSealedPoeError}
    (h : readFullChunk reader capacity = .error e) : e.code = .ioError := by
  induction reader generalizing capacity with
  | nil => cases h
  | cons event events ih =>
      by_cases hcap : capacity = 0
      · rw [hcap, readFullChunk_zero] at h
        cases h
      · cases event with
        | interrupted =>
            rw [readFullChunk, if_neg hcap] at h
            exact ih h
        | failed message =>
            rw [readFullChunk, if_neg hcap] at h
            cases h
            rfl
        | data bytes =>
            rw [readFullChunk, if_neg hcap] at h
            by_cases hbytes : bytes = []
            · rw [if_pos hbytes] at h
              cases h
            · by_cases hlong : capacity < bytes.length
              · rw [if_neg hbytes, if_pos hlong] at h
                cases h
              · rw [if_neg hbytes, if_neg hlong] at h
                cases hread : readFullChunk events (capacity - bytes.length) with
                | ok step => simp [hread, Except.map] at h
                | error e' =>
                    rw [hread] at h
                    cases h
                    exact ih hread

theorem readFullChunk_length_le {reader rest : Reader} {capacity : ℕ} {chunk : List UInt8}
    (h : readFullChunk reader capacity = .ok (chunk, rest)) : chunk.length ≤ capacity := by
  induction reader generalizing capacity chunk rest with
  | nil =>
      cases h
      exact Nat.zero_le _
  | cons event events ih =>
      by_cases hcap : capacity = 0
      · rw [hcap, readFullChunk_zero] at h
        cases h
        exact Nat.zero_le _
      · cases event with
        | interrupted =>
            rw [readFullChunk, if_neg hcap] at h
            exact ih h
        | failed message =>
            rw [readFullChunk, if_neg hcap] at h
            cases h
        | data bytes =>
            rw [readFullChunk, if_neg hcap] at h
            by_cases hbytes : bytes = []
            · rw [if_pos hbytes] at h
              cases h
              exact Nat.zero_le _
            · by_cases hlong : capacity < bytes.length
              · rw [if_neg hbytes, if_pos hlong] at h
                cases h
                exact List.length_take_le _ _
              · rw [if_neg hbytes, if_neg hlong] at h
                cases hread : readFullChunk events (capacity - bytes.length) with
                | error e => simp [hread, Except.map] at h
                | ok step =>
                    have hle := ih hread
                    rw [hread] at h
                    cases h
                    rw [List.length_append]
                    omega

variable (aead : Aead)

theorem orderly_sealAndWrite (sealer : StreamSealer) (chunk : List UInt8) (last : Bool) :
    (sealAndWrite aead sealer chunk last).Orderly := by
  rw [sealAndWrite]
  cases sealer.sealChunk aead chunk last with
  | error p => exact .panic p
  | ok step => exact .bind (.writeAll _) fun _ => .pure _

theorem orderly_flushPending (sealer : StreamSealer) (pending : Option (List UInt8)) :
    (flushPending aead sealer pending).Orderly := by
  cases pending with
  | none => exact .pure sealer
  | some prev => exact .bind .checkCancel fun _ => orderly_sealAndWrite aead sealer prev false

theorem orderly_sealLast (sealer : StreamSealer) (chunk : List UInt8) :
    (Drive.bind checkCancel fun () =>
      Drive.bind (sealAndWrite aead sealer chunk true) fun _ => Drive.pure ()).Orderly :=
  .bind .checkCancel fun _ => .bind (orderly_sealAndWrite aead sealer chunk true) fun _ => .pure ()

theorem sealLoop_error {sealer : StreamSealer} {pending : Option (List UInt8)} {reader : Reader}
    {e : EciesSealedPoeError} (h : readFullChunk reader chunkSize = .error e) :
    sealLoop aead sealer pending reader = Drive.abort (.error e) := by
  rw [sealLoop]
  split
  · rename_i e' herror
    rw [h] at herror
    cases herror
    rfl
  · rename_i chunk rest hok
    rw [h] at hok
    cases hok

/-- The loop is orderly, by induction on what the reader still holds. -/
theorem orderly_sealLoop (sealer : StreamSealer) (pending : Option (List UInt8))
    (reader : Reader) : (sealLoop aead sealer pending reader).Orderly := by
  induction hsize : reader.size using Nat.strong_induction_on
    generalizing sealer pending reader with
  | _ n ih =>
      cases hread : readFullChunk reader chunkSize with
      | error e =>
          rw [sealLoop_error aead hread]
          apply Drive.Orderly.abort
          rw [code_of_readFullChunk hread]
          decide
      | ok step =>
          obtain ⟨chunk, rest⟩ := step
          have hrest := readFullChunk_size hread
          rw [sealLoop_step aead hread]
          by_cases hfull : chunk.length = chunkSize
          · have hpos : 0 < chunkSize := by decide
            rw [if_pos hfull]
            exact .bind (orderly_flushPending aead sealer pending) fun sealer' =>
              ih rest.size (by omega) sealer' (some chunk) rest rfl
          · rw [if_neg hfull]
            by_cases hnil : chunk = []
            · rw [if_pos hnil]
              exact orderly_sealLast aead sealer _
            · rw [if_neg hnil]
              exact .bind (orderly_flushPending aead sealer pending) fun sealer' =>
                orderly_sealLast aead sealer' chunk

end Orderly

/-! ## The first write -/

/-- The caller cancels at the next check. -/
def Host.Cancels (host : Host) : Prop :=
  ∃ cancel, host.cancel = some cancel ∧ cancel host.asked = true

/-- The first write writes nothing: the caller cancels before it, or the writer refuses it. -/
def Host.Blocked (host : Host) : Prop :=
  host.Cancels ∨ ∃ message, host.fault host.calls = some (0, message)

/-- The reader fails before the first chunk can be sealed: a full chunk waits for the read
after it. -/
def FirstReadFails (reader : Reader) : Prop :=
  match readFullChunk reader chunkSize with
  | .error _ => True
  | .ok (chunk, rest) =>
      chunk.length = chunkSize ∧ ∃ e, readFullChunk rest chunkSize = .error e

section FirstWrite
variable {α β : Type}

/-- A run that writes, unless it is blocked and fails. -/
structure Drive.WritesFirst (m : Drive α) : Prop where
  orderly : m.Orderly
  written (host : Host) : (m host).2.written = host.written ↔ host.Blocked
  fails (host : Host) : host.Blocked → ∃ e, (m host).1 = .error (.error e)

/-- What follows the first write does not undo it. -/
theorem Drive.WritesFirst.bind {m : Drive α} {f : α → Drive β} (hm : m.WritesFirst)
    (hf : ∀ a, (f a).Orderly) : (Drive.bind m f).WritesFirst := by
  have hblocked : ∀ host : Host, host.Blocked →
      ∃ e, Drive.bind m f host = (.error (.error e), (m host).2) := by
    intro host hblock
    obtain ⟨e, he⟩ := hm.fails host hblock
    exact ⟨e, Drive.bind_error (Prod.ext he rfl)⟩
  refine ⟨hm.orderly.bind hf, ?_, ?_⟩
  · intro host
    constructor
    · intro hwritten
      by_contra hfree
      apply hfree
      rw [← hm.written host]
      have hafter : (m host).2.written <+: (Drive.bind m f host).2.written := by
        cases hrun : m host with
        | mk result host' =>
            cases result with
            | ok a =>
                rw [Drive.bind_ok hrun]
                exact (hf a).grows host'
            | error e =>
                rw [Drive.bind_error hrun]
      rw [hwritten] at hafter
      exact hafter.eq_of_length_le (hm.orderly.grows host).length_le
    · intro hblock
      obtain ⟨e, hrun⟩ := hblocked host hblock
      rw [hrun]
      exact (hm.written host).mpr hblock
  · intro host hblock
    obtain ⟨e, hrun⟩ := hblocked host hblock
    rw [hrun]
    exact ⟨e, rfl⟩

/-- The check fails when the caller cancels, and leaves the writer alone. -/
theorem checkCancel_cases (host : Host) :
    (host.Cancels ∧ ∃ e, (checkCancel host).1 = .error (.error e) ∧
        (checkCancel host).2.written = host.written) ∨
      (¬ host.Cancels ∧ ∃ asked, checkCancel host = (.ok (), { host with asked := asked })) := by
  rw [checkCancel, Host.Cancels]
  cases hcancel : host.cancel with
  | none => exact .inr ⟨by simp, host.asked, by cases host; cases hcancel; rfl⟩
  | some cancel =>
      dsimp only
      by_cases htrue : cancel host.asked = true
      · rw [if_pos htrue]
        exact .inl ⟨⟨cancel, rfl, htrue⟩, _, rfl, rfl⟩
      · rw [if_neg htrue]
        refine .inr ⟨?_, host.asked + 1, by cases host; cases hcancel; rfl⟩
        intro hcancels
        obtain ⟨cancel', hsame, htrue'⟩ := hcancels
        cases hsame
        exact htrue htrue'

theorem writesFirst_writeAll {bytes : List UInt8} (hbytes : bytes ≠ []) :
    (Drive.bind checkCancel fun () => writeAll bytes).WritesFirst := by
  -- Whether the write is refused, once the caller has not cancelled it.
  have hwrite : ∀ host : Host, ((writeAll bytes host).2.written = host.written ↔
      ∃ message, host.fault host.calls = some (0, message)) ∧
      ((∃ message, host.fault host.calls = some (0, message)) →
        ∃ e, (writeAll bytes host).1 = .error (.error e)) := by
    intro host
    rw [writeAll]
    cases host.fault host.calls with
    | none => simp [hbytes]
    | some failure => simp [hbytes, Prod.ext_iff]
  have hrun : ∀ host : Host,
      (((Drive.bind checkCancel fun () => writeAll bytes) host).2.written = host.written ↔
        host.Blocked) ∧
      (host.Blocked →
        ∃ e, ((Drive.bind checkCancel fun () => writeAll bytes) host).1 = .error (.error e)) := by
    intro host
    rcases checkCancel_cases host with ⟨hcancels, e, he, hwritten⟩ | ⟨hgoes, asked, hok⟩
    · rw [Drive.bind_error (Prod.ext he rfl)]
      exact ⟨⟨fun _ => .inl hcancels, fun _ => hwritten⟩, fun _ => ⟨e, rfl⟩⟩
    · rw [Drive.bind_ok hok]
      simpa only [Host.Blocked, hgoes, false_or] using hwrite { host with asked := asked }
  exact ⟨.bind .checkCancel fun _ => .writeAll bytes, fun host => (hrun host).1,
    fun host => (hrun host).2⟩

variable {aead : Aead} (haead : aead.Lawful)
include haead

/-- The first chunk of a stream. -/
theorem writesFirst_sealAndWrite (key : FixedBytes 32) {chunk : List UInt8} {last : Bool}
    (hcheck : (StreamSealer.new key).check chunk last = .ok ()) :
    (Drive.bind checkCancel fun () =>
      sealAndWrite aead (StreamSealer.new key) chunk last).WritesFirst := by
  have hsealed : aead.encrypt key (chunkNonce 0 last) [] chunk ≠ [] := by
    apply List.ne_nil_of_length_pos
    rw [haead.length_encrypt, tagSize]
    omega
  rw [sealAndWrite, StreamSealer.sealChunk, hcheck]
  have hwrite := (writesFirst_writeAll hsealed).bind fun _ : Unit =>
    Drive.Orderly.pure (StreamSealer.mk key 1 last)
  rwa [Drive.bind_assoc] at hwrite

theorem writesFirst_sealLast (key : FixedBytes 32) {chunk : List UInt8}
    (hle : chunk.length ≤ chunkSize) :
    (Drive.bind checkCancel fun () =>
      Drive.bind (sealAndWrite aead (StreamSealer.new key) chunk true) fun _ =>
        Drive.pure ()).WritesFirst := by
  have hcheck : (StreamSealer.new key).check chunk true = .ok () := by
    rw [StreamSealer.new, StreamSealer.check_last key hle (.inl rfl), if_pos (by decide)]
  have hwrite := (writesFirst_sealAndWrite haead key hcheck).bind fun _ =>
    Drive.Orderly.pure ()
  rwa [Drive.bind_assoc] at hwrite

/-- A seal whose first reads succeed comes to a write, or is blocked there. -/
theorem writesFirst_driveSeal (key : FixedBytes 32) {reader : Reader}
    (hreads : ¬ FirstReadFails reader) : (driveSeal aead key reader).WritesFirst := by
  rw [FirstReadFails] at hreads
  rw [driveSeal]
  cases hread : readFullChunk reader chunkSize with
  | error e => simp [hread] at hreads
  | ok step =>
      obtain ⟨chunk, rest⟩ := step
      have hle := readFullChunk_length_le hread
      rw [hread] at hreads
      rw [sealLoop_step aead hread]
      by_cases hfull : chunk.length = chunkSize
      · rw [if_pos hfull]
        show (sealLoop aead (StreamSealer.new key) (some chunk) rest).WritesFirst
        cases hread' : readFullChunk rest chunkSize with
        | error e => exact absurd ⟨hfull, e, hread'⟩ hreads
        | ok step' =>
            obtain ⟨chunk', rest'⟩ := step'
            have hflush : (flushPending aead (StreamSealer.new key) (some chunk)).WritesFirst := by
              apply writesFirst_sealAndWrite haead key
              rw [StreamSealer.new, StreamSealer.check_full key hfull, if_pos (by decide)]
            rw [sealLoop_step aead hread']
            by_cases hfull' : chunk'.length = chunkSize
            · rw [if_pos hfull']
              exact hflush.bind fun sealer => orderly_sealLoop aead sealer _ _
            · rw [if_neg hfull']
              by_cases hnil : chunk' = []
              · rw [if_pos hnil]
                exact writesFirst_sealLast haead key hle
              · rw [if_neg hnil]
                exact hflush.bind fun sealer => orderly_sealLast aead sealer _
      · rw [if_neg hfull]
        by_cases hnil : chunk = []
        · rw [if_pos hnil]
          exact writesFirst_sealLast haead key (Nat.zero_le _)
        · rw [if_neg hnil]
          exact writesFirst_sealLast haead key hle

omit haead in
theorem driveSeal_of_firstReadFails (key : FixedBytes 32) {reader : Reader}
    (hreads : FirstReadFails reader) :
    ∃ e, driveSeal aead key reader = Drive.abort (.error e) := by
  rw [FirstReadFails] at hreads
  rw [driveSeal]
  cases hread : readFullChunk reader chunkSize with
  | error e => exact ⟨e, sealLoop_error aead hread⟩
  | ok step =>
      rw [hread] at hreads
      obtain ⟨hfull, e, hread'⟩ := hreads
      refine ⟨e, ?_⟩
      rw [sealLoop_step aead hread, if_pos hfull]
      exact sealLoop_error aead hread'

/-- The seal writes nothing exactly when its first reads fail or its first write is blocked,
and then it fails. -/
theorem driveSeal_unwritten_iff (key : FixedBytes 32) (reader : Reader) (host : Host) :
    ((driveSeal aead key reader host).2.written = host.written ↔
        FirstReadFails reader ∨ host.Blocked) ∧
      (FirstReadFails reader ∨ host.Blocked →
        ∃ e, (driveSeal aead key reader host).1 = .error (.error e)) := by
  by_cases hreads : FirstReadFails reader
  · obtain ⟨e, habort⟩ := @driveSeal_of_firstReadFails aead key reader hreads
    rw [habort]
    exact ⟨⟨fun _ => .inl hreads, fun _ => rfl⟩, fun _ => ⟨e, rfl⟩⟩
  · have hfirst := writesFirst_driveSeal haead key hreads
    simp only [hreads, false_or]
    exact ⟨hfirst.written host, hfirst.fails host⟩

end FirstWrite

/-! ## The seal -/

/-- The call says that the generator is unavailable. -/
def Unavailable (result : Except Abort SealedEnvelope) : Prop :=
  ∃ e, result = .error (.error e) ∧ e.code = .rngUnavailable

/-- A call that says so has written nothing, and every failed draw is said. -/
structure EntropySafe (os : OsRng) (before : Host) (result : Except Abort SealedEnvelope)
    (s : OsRngState) (after : Host) : Prop where
  unwritten : Unavailable result → after.written = before.written
  reported : (∃ k < s.calls, (os.outcome k).isSome = true) → Unavailable result

/-- Where the arguments make an envelope, none of the draws for it failed. -/
def EnvelopeDrawn (crypto : SealedPrimitives) (os : OsRng) (bound : ℕ) (args : StreamSealArgs) :
    Prop :=
  ∀ built s, (wrapEnvelopeWithRng crypto os.source bound args.wrapArgs).Gives .start built s →
    ¬ ∃ k < s.calls, (os.outcome k).isSome = true

section Seal
variable {crypto : SealedPrimitives}

/-- A call ends when building its envelope does. -/
theorem sealStream_ends {os : OsRng} {bound : ℕ} {args : StreamSealArgs} (host : Host)
    (h : wrapEnvelopeWithRng crypto os.source bound args.wrapArgs .start ≠ none) :
    eciesSealedPoeSealStream crypto os bound args host ≠ none := by
  intro hnone
  rw [eciesSealedPoeSealStream, Option.map_eq_none_iff, eciesSealedPoeSealStreamWithRng] at hnone
  split at hnone
  · exact h ‹_›
  · cases hnone
  · cases hnone

theorem sealStream_of_gives {os : OsRng} {bound : ℕ} {args : StreamSealArgs} {built : WrapEnvelope}
    {s : OsRngState} (host : Host)
    (h : (wrapEnvelopeWithRng crypto os.source bound args.wrapArgs).Gives .start built s) :
    eciesSealedPoeSealStream crypto os bound args host =
      some (reportFailure s.rngError
          ((driveSeal crypto.aead built.payloadKey args.plaintext host).1.map
            fun () => built.envelope), s,
        (driveSeal crypto.aead built.payloadKey args.plaintext host).2) := by
  rw [Draw.Gives] at h
  simp only [eciesSealedPoeSealStream, eciesSealedPoeSealStreamWithRng, h, Option.map_some]

/-- A call refuses to build the envelope, or drives the seal over the one that it built. -/
theorem sealStream_cases {os : OsRng} {bound : ℕ} {args : StreamSealArgs} {host : Host}
    {result : Except Abort SealedEnvelope} {s : OsRngState} {after : Host}
    (h : eciesSealedPoeSealStream crypto os bound args host = some (result, s, after)) :
    (∃ e, wrapEnvelopeWithRng crypto os.source bound args.wrapArgs .start = some (.error e, s) ∧
        result = reportFailure s.rngError (.error (.error e)) ∧ after = host) ∨
      ∃ built, (wrapEnvelopeWithRng crypto os.source bound args.wrapArgs).Gives .start built s ∧
        result = reportFailure s.rngError
          ((driveSeal crypto.aead built.payloadKey args.plaintext host).1.map
            fun () => built.envelope) ∧
        after = (driveSeal crypto.aead built.payloadKey args.plaintext host).2 := by
  rw [eciesSealedPoeSealStream, Option.map_eq_some_iff] at h
  obtain ⟨step, hseal, hreport⟩ := h
  rw [eciesSealedPoeSealStreamWithRng] at hseal
  cases hbuilt : wrapEnvelopeWithRng crypto os.source bound args.wrapArgs .start with
  | none => simp [hbuilt] at hseal
  | some drawn =>
      obtain ⟨outcome, s'⟩ := drawn
      rw [hbuilt] at hseal
      cases outcome with
      | error e =>
          cases hseal
          cases hreport
          exact .inl ⟨e, rfl, rfl, rfl⟩
      | ok built =>
          cases hseal
          cases hreport
          exact .inr ⟨built, hbuilt, rfl, rfl⟩

/-- The report says that the generator is unavailable when it is, unless the seal panicked. -/
theorem unavailable_reportFailure {os : OsRng} {s : OsRngState} (hs : s.Latched os)
    {result : Except Abort SealedEnvelope}
    (hown : ∀ e, result = .error (.error e) → e.code ≠ .rngUnavailable) :
    Unavailable (reportFailure s.rngError result) ↔
      (∃ k < s.calls, (os.outcome k).isSome = true) ∧ ∀ p, result ≠ .error (.panic p) := by
  rw [← hs.failed_iff, Unavailable]
  cases hlatch : s.rngError with
  | none =>
      constructor
      · intro h
        obtain ⟨e, he, hcode⟩ := h
        cases result with
        | ok a => cases he
        | error abort =>
            cases abort with
            | panic p => cases he
            | error e' =>
                cases he
                exact absurd hcode (hown e rfl)
      · intro h
        cases h.1
  | some e =>
      have hcode := hs.code e hlatch
      cases result with
      | ok a => simp [reportFailure, hcode]
      | error abort =>
          cases abort with
          | panic p => simp [reportFailure]
          | error e' => simp [reportFailure, hcode]

/-- **A failed draw is reported, but too late.** The call ends when the generator fails within
the bound. Where it ends, nothing is written under drawn keys before the report exactly when
no draw for the envelope failed, or the seal was kept from its first write. -/
theorem sealStream_entropySafe_iff (haead : crypto.aead.Lawful) (os : OsRng) (bound : ℕ)
    (args : StreamSealArgs) (host : Host) :
    (args.recipientPublicKeys.length < 2 ^ 32 → os.FailsWithin bound →
      eciesSealedPoeSealStream crypto os bound args host ≠ none) ∧
    ∀ result s after, eciesSealedPoeSealStream crypto os bound args host = some (result, s, after) →
      (EntropySafe os host result s after ↔
        EnvelopeDrawn crypto os bound args ∨ FirstReadFails args.plaintext ∨ host.Blocked) := by
  have hbuild := keeps_wrapEnvelope_latched crypto os bound args.wrapArgs .start
    (OsRngState.latched_start os)
  refine ⟨fun hrecipients hfails => sealStream_ends host (hbuild.1 ⟨hrecipients, hfails⟩), ?_⟩
  intro result s after hrun
  rcases sealStream_cases hrun with ⟨e, hrefused, hresult, hafter⟩ | ⟨built, hgives, hresult, hafter⟩
  · -- No envelope, hence nothing to write.
    obtain ⟨hs, hcode⟩ := hbuild.2 _ s hrefused
    have hown : ∀ e', (Except.error (.error e) : Except Abort SealedEnvelope) =
        .error (.error e') → e'.code ≠ .rngUnavailable := by
      intro e' he
      cases he
      exact hcode e rfl
    constructor
    · intro _
      left
      intro built s' hgives
      rw [Draw.Gives, hrefused] at hgives
      cases hgives
    · intro _
      refine ⟨fun _ => by rw [hafter], ?_⟩
      intro hfailed
      rw [hresult, unavailable_reportFailure hs hown]
      exact ⟨hfailed, fun p => by simp⟩
  · obtain ⟨hs, -⟩ := hbuild.2 _ s hgives
    obtain ⟨hunwritten, hstops⟩ :=
      driveSeal_unwritten_iff haead built.payloadKey args.plaintext host
    have horderly : (driveSeal crypto.aead built.payloadKey args.plaintext).Orderly :=
      orderly_sealLoop _ _ _ _
    have hown : ∀ e, (driveSeal crypto.aead built.payloadKey args.plaintext host).1.map
        (fun () => built.envelope) = .error (.error e) → e.code ≠ .rngUnavailable := by
      intro e he
      apply horderly.code host e
      cases hdrive : (driveSeal crypto.aead built.payloadKey args.plaintext host).1 with
      | ok a =>
          rw [hdrive] at he
          cases he
      | error abort =>
          rw [hdrive] at he
          cases he
          rfl
    have hreport := unavailable_reportFailure hs hown
    rw [← hresult] at hreport
    have hdrawn : EnvelopeDrawn crypto os bound args ↔
        ¬ ∃ k < s.calls, (os.outcome k).isSome = true := by
      constructor
      · intro h
        exact h built s hgives
      · intro h built' s' hgives'
        rw [Draw.Gives, hgives] at hgives'
        cases hgives'
        exact h
    rw [hdrawn]
    by_cases hfailed : ∃ k < s.calls, (os.outcome k).isSome = true
    · constructor
      · intro hsafe
        right
        rw [← hunwritten, ← hafter]
        exact hsafe.unwritten (hsafe.reported hfailed)
      · intro hstopped
        have hblocked := hstopped.resolve_left fun h => h hfailed
        obtain ⟨e, he⟩ := hstops hblocked
        refine ⟨fun _ => by rw [hafter, hunwritten.mpr hblocked], ?_⟩
        intro _
        refine hreport.mpr ⟨hfailed, ?_⟩
        intro p hp
        rw [he] at hp
        cases hp
    · constructor
      · intro _
        exact .inl hfailed
      · intro _
        refine ⟨?_, fun h => absurd h hfailed⟩
        intro hunavailable
        exact absurd (hreport.mp hunavailable).1 hfailed

end Seal

/-! ## A failed draw, and a draw that succeeds -/

/-- An empty plaintext for one recipient, with nothing overridden. -/
def freshArgs : StreamSealArgs where
  plaintext := []
  recipientPublicKeys := [List.replicate 1216 1]
  hashes := sampleHashes
  kem := some .mlkem768X25519
  cek := none
  nonce := none
  ephemeralSecrets := none
  eseeds := none
  skipShuffle := false

/-- A generator that fails from its first call on. -/
def deadRng : OsRng where
  outcome _ := some "entropy pool is closed"
  fill _ _ buf := buf

/-- A generator that hands out the number of its call. -/
def countingRng : OsRng where
  outcome _ := none
  fill k n _ := ⟨List.replicate n (UInt8.ofNat (k + 1)), List.length_replicate⟩

/-- A seal on a quiet host writes the ciphertext. -/
theorem sealStream_quiet {crypto : SealedPrimitives} {os : OsRng} {args : StreamSealArgs}
    {built : WrapEnvelope} {s : OsRngState} {bytes ciphertext : List UInt8}
    (h : (wrapEnvelopeWithRng crypto os.source 0 args.wrapArgs).Gives .start built s)
    (hbytes : Delivers args.plaintext bytes)
    (hseal : streamSeal crypto.aead built.payloadKey bytes = .ok ciphertext) :
    ∃ after, after.written = ciphertext ∧
      eciesSealedPoeSealStream crypto os 0 args quietHost =
        some (reportFailure s.rngError (.ok built.envelope), s, after) := by
  obtain ⟨-, hcase⟩ := emits_driveSeal crypto.aead built.payloadKey hbytes hseal quietHost
  rcases hcase with ⟨-, hresult, hwritten⟩ | ⟨hdisturbed, -⟩
  · have hrun := sealStream_of_gives quietHost h
    rw [hresult] at hrun
    exact ⟨_, hwritten, hrun⟩
  · exact absurd hdisturbed (not_disturbed_of_quiet rfl fun _ => rfl)

/-- The computation ends with a value and a state that pass the test. -/
def Draw.yields {σ α : Type} (m : Draw σ α) (s : σ) (test : α → σ → Bool) : Bool :=
  match m s with
  | some (.ok a, s') => test a s'
  | _ => false

theorem Draw.gives_of_yields {σ α : Type} {m : Draw σ α} {s : σ} {test : α → σ → Bool}
    (h : m.yields s test = true) : ∃ a s', m.Gives s a s' ∧ test a s' = true := by
  rw [Draw.yields] at h
  split at h
  · exact ⟨_, _, ‹_›, h⟩
  · cases h

/-- With a dead generator the call says so, after the ciphertext under a zeroed content key
has been written. -/
theorem sealStream_leaks :
    wideCrypto.aead.Lawful ∧ ∃ result s after,
      eciesSealedPoeSealStream wideCrypto deadRng 0 freshArgs quietHost = some (result, s, after) ∧
        Unavailable result ∧ after.written = wideCrypto.aead.encrypt
          (slotsPayloadKey wideCrypto (List.replicate 32 0) (List.replicate 24 0))
          (chunkNonce 0 true) [] [] ∧ after.written.length = 16 := by
  have hyields : (wrapEnvelopeWithRng wideCrypto deadRng.source 0 freshArgs.wrapArgs).yields .start
      (fun built s => built.payloadKey =
          slotsPayloadKey wideCrypto (List.replicate 32 0) (List.replicate 24 0) ∧
        s.rngError.any fun e => e.code = .rngUnavailable) = true := by
    decide +kernel
  obtain ⟨built, s, hgives, htest⟩ := Draw.gives_of_yields hyields
  obtain ⟨hkey, hlatch⟩ := of_decide_eq_true htest
  obtain ⟨e, he, hcode⟩ := (Option.any_eq_true _ _).mp hlatch
  have hseal : streamSeal wideCrypto.aead built.payloadKey [] =
      .ok (wideCrypto.aead.encrypt built.payloadKey (chunkNonce 0 true) [] []) := rfl
  obtain ⟨after, hwritten, hrun⟩ := sealStream_quiet hgives .done hseal
  have haead : wideCrypto.aead.Lawful := StreamCipher.lawful _
  refine ⟨haead, _, s, after, hrun, ?_, ?_, ?_⟩
  · rw [he]
    exact ⟨e, rfl, of_decide_eq_true hcode⟩
  · rw [hwritten, hkey]
  · rw [hwritten, haead.length_encrypt]
    rfl

/-- The word `hello` for one recipient, with nothing overridden. -/
def helloArgs : StreamSealArgs where
  plaintext := [.data (utf8Bytes "hello")]
  recipientPublicKeys := [roundTripPublicKey.val]
  hashes := sampleHashes
  kem := none
  cek := none
  nonce := none
  ephemeralSecrets := none
  eseeds := none
  skipShuffle := false

/-- A generator that hands out the content key, the nonce and the ephemeral secret of the sample. -/
def roundTripRng : OsRng where
  outcome _ := none
  fill k n _ := ⟨List.replicate n ([4, 3, 0x22].getD k 0), List.length_replicate⟩

/-- With a generator that works the call is safe. -/
theorem sealStream_entropySafe_hello : ∃ s after,
    eciesSealedPoeSealStream roundTripCrypto roundTripRng 0 helloArgs quietHost =
        some (.ok roundTripOutput.envelope, s, after) ∧
      after.written = roundTripOutput.ciphertext ∧
      EntropySafe roundTripRng quietHost (.ok roundTripOutput.envelope) s after := by
  have hgives : (wrapEnvelopeWithRng roundTripCrypto roundTripRng.source 0
      helloArgs.wrapArgs).Gives .start ⟨roundTripOutput.envelope, roundTripPayloadKey⟩
        ⟨3, none⟩ := by
    rfl
  have hbytes : Delivers helloArgs.plaintext (utf8Bytes "hello") := .data (by decide) .done
  have hseal : streamSeal roundTripCrypto.aead roundTripPayloadKey (utf8Bytes "hello") =
      .ok roundTripOutput.ciphertext := roundTrip_seal
  obtain ⟨after, hwritten, hrun⟩ := sealStream_quiet hgives hbytes hseal
  refine ⟨_, after, hrun, hwritten, ?_⟩
  apply ((sealStream_entropySafe_iff roundTripCipher.lawful roundTripRng 0 helloArgs quietHost).2
    _ _ after hrun).mpr
  left
  intro _ _ _ hfailed
  obtain ⟨k, _, hk⟩ := hfailed
  cases hk

end Label309
