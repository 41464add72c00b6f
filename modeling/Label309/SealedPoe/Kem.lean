import Label309.SealedPoe.Slots

/-!
# Key encapsulation

X25519, and X-Wing: ML-KEM-768 and X25519 under one combiner. ML-KEM, the curve and the
hashes come from outside the repository.
-/
namespace Label309

/-- Why a KEM operation was refused. -/
inductive KemError
  | x25519LowOrderPoint
  | invalidX25519KeyLength (length : ℕ)
  | invalidPublicKeyLength (length : ℕ)
  | invalidEncLength (length : ℕ)
  | invalidSecretSeedLength (length : ℕ)
  | invalidEseedLength (length : ℕ)
  | invalidMlKemEncapsulationKey
  deriving DecidableEq

/-- The text of a refusal. -/
def KemError.toText : KemError → String
  | .x25519LowOrderPoint => "x25519 ECDH rejected: peer public key is a small-order point"
  | .invalidX25519KeyLength length => s!"x25519 key must be 32 bytes, got {length}"
  | .invalidPublicKeyLength length =>
      s!"mlkem768x25519 public key must be 1216 bytes, got {length}"
  | .invalidEncLength length => s!"mlkem768x25519 enc must be 1120 bytes, got {length}"
  | .invalidSecretSeedLength length =>
      s!"mlkem768x25519 secret seed must be 32 bytes, got {length}"
  | .invalidEseedLength length => s!"mlkem768x25519 eseed must be 64 bytes, got {length}"
  | .invalidMlKemEncapsulationKey =>
      "mlkem768x25519 public key contains an invalid ML-KEM-768 encapsulation key"

/-- The length of a hybrid public key. -/
def mlkem768x25519PublicKeyLength : ℕ := 1216

/-- The length of a hybrid encapsulation. -/
def mlkem768x25519EncLength : ℕ := 1120

/-- The length of an encapsulation seed. -/
def mlkem768x25519EseedLength : ℕ := 64

/-- `len` bytes from `start`. -/
def FixedBytes.slice {n : ℕ} (b : FixedBytes n) (start len : ℕ) (h : start + len ≤ n) :
    FixedBytes len :=
  ⟨(b.val.drop start).take len, by
    rw [List.length_take, List.length_drop, b.property]
    omega⟩

/-- Two strings of fixed lengths, one after the other. -/
def FixedBytes.append {n m : ℕ} (a : FixedBytes n) (b : FixedBytes m) : FixedBytes (n + m) :=
  ⟨a.val ++ b.val, by rw [List.length_append, a.property, b.property]⟩

@[simp] theorem FixedBytes.slice_append_left {n m : ℕ} (a : FixedBytes n) (b : FixedBytes m) :
    (a.append b).slice 0 n (by omega) = a := by
  apply Subtype.ext
  simp [FixedBytes.slice, FixedBytes.append, List.take_left' a.property]

@[simp] theorem FixedBytes.slice_append_right {n m : ℕ} (a : FixedBytes n) (b : FixedBytes m) :
    (a.append b).slice n m (by omega) = b := by
  apply Subtype.ext
  simp only [FixedBytes.slice, FixedBytes.append, List.drop_left' a.property]
  exact List.take_of_length_le b.property.le

section Primitives
variable (crypto : SealedPrimitives)

/-! ## X25519 -/

/-- The base point, whose coordinate is nine. -/
def x25519Basepoint : FixedBytes 32 := ⟨9 :: List.replicate 31 0, by simp⟩

/-- The public key of a secret key. -/
def x25519PublicKey (secretKey : List UInt8) : Except KemError (FixedBytes 32) :=
  match toFixed 32 secretKey with
  | none => .error (.invalidX25519KeyLength secretKey.length)
  | some scalar => .ok (crypto.x25519 scalar x25519Basepoint)

/-- The exchange without the check for a small-order point, and whether it would pass. -/
def x25519EcdhUnvalidated (secretKey theirPublicKey : List UInt8) :
    Except KemError (FixedBytes 32 × Bool) :=
  match toFixed 32 secretKey, toFixed 32 theirPublicKey with
  | none, _ => .error (.invalidX25519KeyLength secretKey.length)
  | some _, none => .error (.invalidX25519KeyLength theirPublicKey.length)
  | some scalar, some point =>
      let shared := crypto.x25519 scalar point
      .ok (shared, shared ≠ FixedBytes.zero 32)

/-- The exchange. An all-zero secret comes from a small-order point and is refused. -/
def x25519Ecdh (secretKey theirPublicKey : List UInt8) : Except KemError (FixedBytes 32) :=
  match x25519EcdhUnvalidated crypto secretKey theirPublicKey with
  | .error e => .error e
  | .ok (shared, valid) => if valid then .ok shared else .error .x25519LowOrderPoint

/-! ## X-Wing -/

/-- The label of the combiner. -/
def xwingCombinerLabel : List UInt8 := [0x5c, 0x2e, 0x2f, 0x2f, 0x5e, 0x5c]

/-- The shared secret of both parts of the hybrid KEM. -/
def xwingCombine (ssMlkem ssX25519 ctX25519 pkX25519 : FixedBytes 32) : FixedBytes 32 :=
  crypto.sha3256
    (ssMlkem.val ++ ssX25519.val ++ ctX25519.val ++ pkX25519.val ++ xwingCombinerLabel)

/-- The ML-KEM seed, then the X25519 scalar. -/
def expandXwingSeed (seed : FixedBytes 32) : FixedBytes 96 := crypto.shake256 seed.val 96

/-- The public key of a hybrid seed. -/
def mlkem768x25519PublicKeyFromSeed (secretSeed : List UInt8) :
    Except KemError (FixedBytes 1216) :=
  match toFixed 32 secretSeed with
  | none => .error (.invalidSecretSeedLength secretSeed.length)
  | some seed =>
      let expanded := expandXwingSeed crypto seed
      let ek := crypto.mlKem.encapsulationKey (expanded.slice 0 64 (by decide))
      let pkX25519 := crypto.x25519 (expanded.slice 64 32 (by decide)) x25519Basepoint
      .ok (ek.append pkX25519)

/-- The ciphertext and the shared secret. -/
def mlkem768x25519Encapsulate (publicKey eseed : List UInt8) :
    Except KemError (FixedBytes 1120 × FixedBytes 32) :=
  match toFixed 1216 publicKey, toFixed 64 eseed with
  | none, _ => .error (.invalidPublicKeyLength publicKey.length)
  | some _, none => .error (.invalidEseedLength eseed.length)
  | some pk, some randomness =>
      let ekMlkem := pk.slice 0 1184 (by decide)
      let pkX25519 := pk.slice 1184 32 (by decide)
      let ephemeral := randomness.slice 32 32 (by decide)
      if ¬ crypto.mlKem.validEncapsulationKey ekMlkem then .error .invalidMlKemEncapsulationKey
      else
        let (ctMlkem, ssMlkem) :=
          crypto.mlKem.encapsulate ekMlkem (randomness.slice 0 32 (by decide))
        -- A small-order point is not refused here: the hybrid secret stays defined.
        let ctX25519 := crypto.x25519 ephemeral x25519Basepoint
        let ssX25519 := crypto.x25519 ephemeral pkX25519
        .ok (ctMlkem.append ctX25519, xwingCombine crypto ssMlkem ssX25519 ctX25519 pkX25519)

/-- The shared secret of a hybrid encapsulation. -/
def mlkem768x25519Decapsulate (secretSeed enc : List UInt8) : Except KemError (FixedBytes 32) :=
  match toFixed 32 secretSeed, toFixed 1120 enc with
  | none, _ => .error (.invalidSecretSeedLength secretSeed.length)
  | some _, none => .error (.invalidEncLength enc.length)
  | some seed, some ct =>
      let expanded := expandXwingSeed crypto seed
      let scalar := expanded.slice 64 32 (by decide)
      let pkX25519 := crypto.x25519 scalar x25519Basepoint
      let ctX25519 := ct.slice 1088 32 (by decide)
      let ssMlkem :=
        crypto.mlKem.decapsulate (expanded.slice 0 64 (by decide)) (ct.slice 0 1088 (by decide))
      let ssX25519 := crypto.x25519 scalar ctX25519
      .ok (xwingCombine crypto ssMlkem ssX25519 ctX25519 pkX25519)

end Primitives

/-! ## Correctness -/

/-- The laws of the two KEMs: the exchange commutes, an encapsulation key is valid, and
decapsulation recovers the secret. -/
structure SealedPrimitives.CorrectKem (crypto : SealedPrimitives) : Prop where
  exchange (a b : FixedBytes 32) :
    crypto.x25519 a (crypto.x25519 b x25519Basepoint) =
      crypto.x25519 b (crypto.x25519 a x25519Basepoint)
  decapsulate (seed : FixedBytes 64) (message : FixedBytes 32) :
    crypto.mlKem.decapsulate seed
        (crypto.mlKem.encapsulate (crypto.mlKem.encapsulationKey seed) message).1 =
      (crypto.mlKem.encapsulate (crypto.mlKem.encapsulationKey seed) message).2

/-- The holder of the seed recovers what was encapsulated to its public key. -/
theorem mlkem768x25519Decapsulate_encapsulate {crypto : SealedPrimitives}
    (h : crypto.CorrectKem) {secretSeed publicKey eseed : List UInt8} {pk : FixedBytes 1216}
    (hpk : mlkem768x25519PublicKeyFromSeed crypto secretSeed = .ok pk) (heq : pk.val = publicKey)
    {enc : FixedBytes 1120} {ss : FixedBytes 32}
    (henc : mlkem768x25519Encapsulate crypto publicKey eseed = .ok (enc, ss)) :
    mlkem768x25519Decapsulate crypto secretSeed enc.val = .ok ss := by
  subst heq
  rw [mlkem768x25519PublicKeyFromSeed] at hpk
  rw [mlkem768x25519Encapsulate, toFixed_val] at henc
  cases hseed : toFixed 32 secretSeed with
  | none => simp [hseed] at hpk
  | some seed =>
      simp only [hseed, Except.ok.injEq] at hpk
      cases heseed : toFixed 64 eseed with
      | none => simp [heseed] at henc
      | some randomness =>
          simp only [heseed, ← hpk] at henc
          rw [FixedBytes.slice_append_left, FixedBytes.slice_append_right] at henc
          split at henc
          · cases henc
          · simp only [Except.ok.injEq, Prod.mk.injEq] at henc
            obtain ⟨rfl, rfl⟩ := henc
            rw [mlkem768x25519Decapsulate, hseed, toFixed_val]
            simp only [FixedBytes.slice_append_left, FixedBytes.slice_append_right, h.decapsulate]
            rw [h.exchange]

end Label309
