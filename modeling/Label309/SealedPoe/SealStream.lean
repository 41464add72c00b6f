import Label309.SealedPoe.StreamIo
import Label309.SealedPoe.Wrap

/-!
# Sealing a stream

The envelope is built first, then the plaintext is sealed chunk by chunk. The entropy of the
operating system comes through a closure that cannot fail: it latches the first failure,
which is looked at when everything is over.
-/
namespace Label309

structure StreamSealArgs where
  plaintext : Reader
  recipientPublicKeys : List (List UInt8)
  hashes : ContentHashMap
  kem : Option SealedKem
  cek : Option (List UInt8)
  nonce : Option (List UInt8)
  ephemeralSecrets : Option (List (List UInt8))
  eseeds : Option (List (List UInt8))
  skipShuffle : Bool

/-- The arguments of the buffered wrap, without a plaintext. -/
def StreamSealArgs.wrapArgs (args : StreamSealArgs) : WrapArgs where
  plaintext := []
  recipientPublicKeys := args.recipientPublicKeys
  hashes := args.hashes
  kem := args.kem
  cek := args.cek
  nonce := args.nonce
  ephemeralSecrets := args.ephemeralSecrets
  eseeds := args.eseeds
  skipShuffle := args.skipShuffle

/-! ## The entropy of the operating system -/

/-- Call by call, whether the generator fails, and what the buffer holds after the call. -/
structure OsRng where
  outcome : ℕ → Option String
  fill : ℕ → (n : ℕ) → FixedBytes n → FixedBytes n

/-- The calls that were made, and the failure that was latched. -/
structure OsRngState where
  calls : ℕ
  rngError : Option EciesSealedPoeError

def OsRngState.start : OsRngState := ⟨0, none⟩

def rngUnavailable (e : String) : EciesSealedPoeError :=
  ⟨.rngUnavailable, "operating-system CSPRNG is unavailable: " ++ e⟩

/-- The closure. After a failure it leaves every buffer as it is. -/
def OsRng.source (os : OsRng) : RandomSource OsRngState := fun s n buf =>
  if s.rngError.isSome then (buf, s)
  else (os.fill s.calls n buf, ⟨s.calls + 1, (os.outcome s.calls).map rngUnavailable⟩)

section Seal
variable (crypto : SealedPrimitives) {σ : Type}

/-! ## The seal -/

/-- A run of the seal: its result, the state of the source and that of the host. Nothing when
the rejection sampling has not come to an end within its bound. -/
abbrev SealRun (σ : Type) := Option (Except Abort SealedEnvelope × σ × Host)

def eciesSealedPoeSealStreamWithRng (rng : RandomSource σ) (bound : ℕ) (args : StreamSealArgs)
    (s : σ) (host : Host) : SealRun σ :=
  match wrapEnvelopeWithRng crypto rng bound args.wrapArgs s with
  | none => none
  | some (.error e, s) => some (.error (.error e), s, host)
  | some (.ok built, s) =>
      let (result, host) := driveSeal crypto.aead built.payloadKey args.plaintext host
      some (result.map fun () => built.envelope, s, host)

/-- Whatever a seal returned, a failure of the generator is returned in its place. -/
def reportFailure (rngError : Option EciesSealedPoeError) :
    Except Abort SealedEnvelope → Except Abort SealedEnvelope
  | .error (.panic p) => .error (.panic p)
  | result =>
      match rngError with
      | some e => .error (.error e)
      | none => result

def eciesSealedPoeSealStream (os : OsRng) (bound : ℕ) (args : StreamSealArgs) (host : Host) :
    SealRun OsRngState :=
  (eciesSealedPoeSealStreamWithRng crypto os.source bound args .start host).map
    fun (result, s, host) => (reportFailure s.rngError result, s, host)

/-! ## The buffered wrap -/

/-- The wrap under the generator of the operating system. A failure of the generator is looked at
when the wrap is over. -/
def eciesSealedPoeWrapSecure (os : OsRng) (bound : ℕ) (args : WrapArgs) :
    Option (Except EciesSealedPoeError (Except SealPanic SealedPoeOutput)) :=
  (eciesSealedPoeWrapWithRng crypto os.source bound args .start).map fun (result, s) =>
    match s.rngError with
    | some e => .error e
    | none => result

end Seal

end Label309
