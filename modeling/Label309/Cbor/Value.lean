import Mathlib

/-!
# Canonical CBOR values

The closed value catalogue of the canonical layer, its one error type, and the
UTF-8 view of text that both the encoder and the decoder go through.
-/
namespace Label309

/-- Why a canonical encode or decode was refused. Both variants carry the one
stable code; the split only keeps the indefinite-length cause in the message. -/
inductive CanonicalCborError
  | indefiniteLength (message : String)
  | malformed (message : String)
  deriving DecidableEq, Repr

/-- A CBOR value: `negative m` is the integer `-1 - m`, and a map keeps its
entries in the order they were given or read. -/
inductive CborValue
  | unsigned (n : UInt64)
  | negative (m : UInt64)
  | bytes (b : List UInt8)
  | text (s : String)
  | array (items : List CborValue)
  | map (pairs : List (CborValue × CborValue))
  | bool (b : Bool)
  | null
  deriving BEq, Repr

instance : Inhabited CborValue := ⟨.null⟩

/-- Induction over a value with every item, key and entry value as a hypothesis. -/
@[induction_eliminator]
theorem CborValue.induction {P : CborValue → Prop}
    (unsigned : ∀ n, P (.unsigned n)) (negative : ∀ m, P (.negative m))
    (bytes : ∀ b, P (.bytes b)) (text : ∀ s, P (.text s))
    (array : ∀ items, (∀ v ∈ items, P v) → P (.array items))
    (map : ∀ pairs, (∀ p ∈ pairs, P p.1 ∧ P p.2) → P (.map pairs))
    (bool : ∀ b, P (.bool b)) (null : P .null) (v : CborValue) : P v := by
  refine @CborValue.rec P (fun items => ∀ v ∈ items, P v)
    (fun pairs => ∀ p ∈ pairs, P p.1 ∧ P p.2) (fun p => P p.1 ∧ P p.2)
    unsigned negative bytes text array map bool null ?_ ?_ ?_ ?_ ?_ v
  · simp
  · intro head tail hhead htail
    simpa using ⟨hhead, htail⟩
  · simp
  · intro head tail hhead htail p hp
    rcases List.mem_cons.mp hp with rfl | hp
    · exact hhead
    · exact htail p hp
  · intro fst snd hfst hsnd
    exact ⟨hfst, hsnd⟩

/-! ## Text as UTF-8 bytes -/

/-- The UTF-8 bytes of a text string. -/
def utf8Bytes (s : String) : List UInt8 := s.toUTF8.data.toList

/-- The text a byte string spells, when it is valid UTF-8. -/
def fromUtf8 (raw : List UInt8) : Option String := String.fromUTF8? ⟨raw.toArray⟩

@[simp] theorem fromUtf8_utf8Bytes (s : String) : fromUtf8 (utf8Bytes s) = some s := by
  have hbytes : (⟨s.toUTF8.data.toList.toArray⟩ : ByteArray) = s.toUTF8 := by simp
  rw [fromUtf8, utf8Bytes, hbytes]
  simp only [String.fromUTF8?, String.toUTF8_eq_toByteArray, dif_pos s.isValidUTF8]
  rfl

theorem utf8Bytes_of_fromUtf8 {raw : List UInt8} {s : String} (h : fromUtf8 raw = some s) :
    utf8Bytes s = raw := by
  unfold fromUtf8 String.fromUTF8? at h
  split at h
  · cases h
    simp [utf8Bytes, String.fromUTF8]
  · cases h

end Label309
