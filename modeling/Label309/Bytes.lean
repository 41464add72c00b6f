import Label309.Cbor.Value
import Label309.Lib.Utf8

/-!
# Byte strings

Fixed-length byte arrays, the hexadecimal codec and the two content hashes, which
come from outside the repository.
-/
namespace Label309

/-- A byte array of exactly `n` bytes. -/
abbrev FixedBytes (n : ℕ) := { b : List UInt8 // b.length = n }

/-- The array of zero bytes. -/
def FixedBytes.zero (n : ℕ) : FixedBytes n := ⟨List.replicate n 0, List.length_replicate⟩

/-- The array with the bytes of a slice, when the slice has its length. -/
def toFixed (n : ℕ) (b : List UInt8) : Option (FixedBytes n) :=
  if h : b.length = n then some ⟨b, h⟩ else none

@[simp] theorem toFixed_val {n : ℕ} (b : FixedBytes n) : toFixed n b.val = some b := by
  simp [toFixed, b.property]

theorem toFixed_eq_some {n : ℕ} {b : List UInt8} {a : FixedBytes n} :
    toFixed n b = some a ↔ b = a.val := by
  unfold toFixed
  split
  · rename_i h
    rw [Option.some.injEq]
    exact ⟨fun heq => by rw [← heq], fun heq => Subtype.ext heq⟩
  · rename_i h
    simp only [reduceCtorEq, false_iff]
    rintro rfl
    exact h a.property

/-- The content hashes of the standard. -/
structure ContentHashes where
  sha256 : List UInt8 → FixedBytes 32
  blake2b256 : List UInt8 → FixedBytes 32

/-! ## Hexadecimal -/

/-- Why a hex string was refused. -/
inductive HexError
  | oddLength (length : ℕ)
  | invalidCharacter (index : ℕ)
  deriving DecidableEq, Repr

/-- The text that the hex codec displays. -/
def HexError.display : HexError → String
  | .oddLength n => s!"hex: input has odd length {n}"
  | .invalidCharacter index => s!"hex: invalid character at index {index}"

/-- The lowercase digit of a number below 16. -/
def hexDigit (n : ℕ) : Char := if n < 10 then Char.ofNat (48 + n) else Char.ofNat (87 + n)

/-- Lowercase hex, two digits a byte. -/
def hexEncode (bytes : List UInt8) : String :=
  String.ofList (bytes.flatMap fun b => [hexDigit (b.toNat / 16), hexDigit (b.toNat % 16)])

theorem hexDigit_injective {m n : ℕ} (hm : m < 16) (hn : n < 16) (h : hexDigit m = hexDigit n) :
    m = n := by
  have hall : ∀ a b : Fin 16, hexDigit a.val = hexDigit b.val → a = b := by decide
  exact congrArg Fin.val (hall ⟨m, hm⟩ ⟨n, hn⟩ h)

theorem hexEncode_injective {as bs : List UInt8} (h : hexEncode as = hexEncode bs) : as = bs := by
  have hlist : as.flatMap (fun b => [hexDigit (b.toNat / 16), hexDigit (b.toNat % 16)]) =
      bs.flatMap fun b => [hexDigit (b.toNat / 16), hexDigit (b.toNat % 16)] := by
    simpa [hexEncode] using congrArg String.toList h
  clear h
  induction as generalizing bs with
  | nil => cases bs with
    | nil => rfl
    | cons b bs => simp at hlist
  | cons a as ih => cases bs with
    | nil => simp at hlist
    | cons b bs =>
        simp only [List.flatMap_cons, List.cons_append, List.nil_append, List.cons.injEq] at hlist
        obtain ⟨hhi, hlo, htail⟩ := hlist
        have ha := a.toNat_lt
        have hb := b.toNat_lt
        have hdiv := hexDigit_injective (by omega) (by omega) hhi
        have hmod := hexDigit_injective (by omega) (by omega) hlo
        have heq : a = b := UInt8.toNat_inj.mp (by omega)
        rw [heq, ih htail]

/-- The value of a hex digit in either case. -/
def hexValue (c : UInt8) : Option UInt8 :=
  if 48 ≤ c ∧ c ≤ 57 then some (c - 48)
  else if 65 ≤ c ∧ c ≤ 70 then some (c - 55)
  else if 97 ≤ c ∧ c ≤ 102 then some (c - 87)
  else none

/-- Decode pairs of digits, the first of them at `index`. -/
def hexPairs : ℕ → List UInt8 → Except HexError (List UInt8)
  | index, hi :: lo :: rest => do
      let h ← (hexValue hi).elim (.error (.invalidCharacter index)) .ok
      let l ← (hexValue lo).elim (.error (.invalidCharacter (index + 1))) .ok
      let bytes ← hexPairs (index + 2) rest
      .ok (((h <<< 4) ||| l) :: bytes)
  | _, _ => .ok []

/-- Decode a contiguous run of hex digits of even length, in either case. -/
def hexDecode (s : String) : Except HexError (List UInt8) :=
  let digits := utf8Bytes s
  if digits.length % 2 = 1 then .error (.oddLength digits.length)
  else hexPairs 0 digits

theorem isAscii_hexDigit {n : ℕ} (h : n < 16) : Utf8.IsAscii (hexDigit n) := by
  have hall : ∀ a : Fin 16, Utf8.IsAscii (hexDigit a.val) := by decide
  exact hall ⟨n, h⟩

theorem hexValue_hexDigit {n : ℕ} (h : n < 16) :
    hexValue (Utf8.byteOf (hexDigit n)) = some n.toUInt8 := by
  have hall : ∀ a : Fin 16, hexValue (Utf8.byteOf (hexDigit a.val)) = some a.val.toUInt8 := by
    decide
  exact hall ⟨n, h⟩

/-- The bytes of a text, character by character. -/
theorem utf8Bytes_ofList (cs : List Char) : utf8Bytes (String.ofList cs) = Utf8.encode cs := by
  rw [utf8Bytes, String.toUTF8_eq_toByteArray, String.toByteArray_ofList, List.utf8Encode]
  simp [Utf8.encode]

theorem hexPairs_digits (index : ℕ) (bytes : List UInt8) :
    hexPairs index ((bytes.flatMap fun b =>
      [hexDigit (b.toNat / 16), hexDigit (b.toNat % 16)]).map Utf8.byteOf) = .ok bytes := by
  induction bytes generalizing index with
  | nil => rfl
  | cons b bytes ih =>
      have hb := b.toNat_lt
      have hjoin : (b.toNat / 16).toUInt8 <<< 4 ||| (b.toNat % 16).toUInt8 = b := by
        have hall : ∀ b : UInt8, (b.toNat / 16).toUInt8 <<< 4 ||| (b.toNat % 16).toUInt8 = b := by
          decide +kernel
        exact hall b
      simp only [List.flatMap_cons, List.cons_append, List.nil_append, List.map_cons, hexPairs,
        hexValue_hexDigit (show b.toNat / 16 < 16 by omega),
        hexValue_hexDigit (show b.toNat % 16 < 16 by omega), ih, Option.elim_some]
      exact congrArg (fun x => Except.ok (x :: bytes)) hjoin

/-- What the encoder writes decodes to what it was given. -/
theorem hexDecode_hexEncode (bytes : List UInt8) : hexDecode (hexEncode bytes) = .ok bytes := by
  have hascii : ∀ c ∈ bytes.flatMap fun b => [hexDigit (b.toNat / 16), hexDigit (b.toNat % 16)],
      Utf8.IsAscii c := by
    intro c hc
    obtain ⟨b, -, hdigit⟩ := List.mem_flatMap.mp hc
    have hb := b.toNat_lt
    rcases List.mem_pair.mp hdigit with rfl | rfl
    · exact isAscii_hexDigit (by omega)
    · exact isAscii_hexDigit (by omega)
  have hlen : (bytes.flatMap fun b =>
      [hexDigit (b.toNat / 16), hexDigit (b.toNat % 16)]).length = bytes.length * 2 := by simp
  rw [hexDecode, hexEncode, utf8Bytes_ofList, Utf8.encode_ascii hascii, List.length_map, hlen,
    if_neg (by omega), hexPairs_digits]

example : hexEncode [0x00, 0xab, 0xff] = "00abff" := by decide

example : hexDecode "00ABFF" = .ok [0x00, 0xab, 0xff] := by decide

end Label309
