import Label309.Lib.BigEndian
import Label309.Lib.ByteReader

/-!
# Definite-length CBOR items on the wire

The syntax of a complete definite-length item with the head width its writer
chose, its bytes, and the places where other items are nested in it. Nothing here
decides what a reader makes of an item.
-/
namespace CborWire
open BigEndian ByteReader

/-- How a head carries its argument: in the header byte or in the bytes after it. -/
inductive Width
  | inline
  | one
  | two
  | four
  | eight
  deriving DecidableEq, Repr

namespace Width

/-- The number of bytes after the header byte. -/
def size : Width → ℕ
  | inline => 0
  | one => 1
  | two => 2
  | four => 4
  | eight => 8

/-- Arguments below the bound can be carried. -/
def bound : Width → ℕ
  | inline => 24
  | w => 256 ^ w.size

/-- The additional information in the header byte. -/
def info (n : ℕ) : Width → ℕ
  | inline => n
  | one => 24
  | two => 25
  | four => 26
  | eight => 27

theorem info_lt {w : Width} {n : ℕ} (h : n < w.bound) : w.info n < 32 := by
  cases w with
  | inline => exact lt_trans h (by decide)
  | _ => simp [info]

theorem bound_le (w : Width) : w.bound ≤ 2 ^ 64 := by
  cases w <;> decide

end Width

/-- The header byte and argument bytes of an item. -/
def head (major : ℕ) (w : Width) (n : ℕ) : List UInt8 :=
  UInt8.ofNat (major * 32 + w.info n) :: toBe w.size n

@[simp] theorem length_head (major : ℕ) (w : Width) (n : ℕ) :
    (head major w n).length = 1 + w.size := by
  simp [head, Nat.add_comm]

/-- Fuel for a head and its body leaves, after the head, fuel for the body. -/
theorem exists_fuel_of_head {major : ℕ} {w : Width} {n fuel : ℕ} {body : List UInt8}
    (h : (head major w n ++ body).length ≤ fuel) : ∃ k, fuel = k + 1 ∧ body.length ≤ k := by
  rw [List.length_append, length_head] at h
  exact ⟨fuel - 1, by omega, by omega⟩

theorem length_le_flatMap {ι : Type} {f : ι → List UInt8} {is : List ι} {i : ι} (h : i ∈ is) :
    (f i).length ≤ (is.flatMap f).length := by
  rw [List.flatMap_def]
  exact (List.sublist_flatten_of_mem (List.mem_map_of_mem h)).length_le

/-- A complete definite-length item. `primitive` is major type 7: a simple value
in the header byte or in the one byte after it, or a float in two, four or eight. -/
inductive Item
  | unsigned (w : Width) (n : ℕ)
  | negative (w : Width) (n : ℕ)
  | bytes (w : Width) (b : List UInt8)
  | text (w : Width) (b : List UInt8)
  | array (w : Width) (items : List Item)
  | map (w : Width) (pairs : List (Item × Item))
  | tag (w : Width) (n : ℕ) (item : Item)
  | primitive (w : Width) (n : ℕ)

namespace Item

@[induction_eliminator]
theorem induction {P : Item → Prop}
    (unsigned : ∀ w n, P (.unsigned w n)) (negative : ∀ w n, P (.negative w n))
    (bytes : ∀ w b, P (.bytes w b)) (text : ∀ w b, P (.text w b))
    (array : ∀ w items, (∀ it ∈ items, P it) → P (.array w items))
    (map : ∀ w pairs, (∀ p ∈ pairs, P p.1 ∧ P p.2) → P (.map w pairs))
    (tag : ∀ w n item, P item → P (.tag w n item))
    (primitive : ∀ w n, P (.primitive w n)) (item : Item) : P item := by
  refine @Item.rec P (fun items => ∀ it ∈ items, P it)
    (fun pairs => ∀ p ∈ pairs, P p.1 ∧ P p.2) (fun p => P p.1 ∧ P p.2)
    unsigned negative bytes text array map tag primitive ?_ ?_ ?_ ?_ ?_ item
  · simp
  · intro it items hit hitems
    simpa using ⟨hit, hitems⟩
  · simp
  · intro p pairs hp hpairs q hq
    rcases List.mem_cons.mp hq with rfl | hq
    · exact hp
    · exact hpairs q hq
  · intro key value hkey hvalue
    exact ⟨hkey, hvalue⟩

mutual

/-- The bytes of an item. -/
def encode : Item → List UInt8
  | .unsigned w n => head 0 w n
  | .negative w n => head 1 w n
  | .bytes w b => head 2 w b.length ++ b
  | .text w b => head 3 w b.length ++ b
  | .array w items => head 4 w items.length ++ encodeItems items
  | .map w pairs => head 5 w pairs.length ++ encodePairs pairs
  | .tag w n item => head 6 w n ++ encode item
  | .primitive w n => head 7 w n

def encodeItems : List Item → List UInt8
  | [] => []
  | item :: items => encode item ++ encodeItems items

def encodePairs : List (Item × Item) → List UInt8
  | [] => []
  | (key, value) :: pairs => encode key ++ encode value ++ encodePairs pairs

end

theorem encodeItems_eq (items : List Item) : encodeItems items = items.flatMap encode := by
  induction items with
  | nil => rfl
  | cons item items ih => rw [encodeItems, ih, List.flatMap_cons]

/-- The bytes of a map entry. -/
def encodePair (p : Item × Item) : List UInt8 := encode p.1 ++ encode p.2

theorem encodePairs_eq (pairs : List (Item × Item)) :
    encodePairs pairs = pairs.flatMap encodePair := by
  induction pairs with
  | nil => rfl
  | cons p pairs ih => rw [encodePairs, ih, List.flatMap_cons, encodePair]

theorem encodeItems_append (before after : List Item) :
    encodeItems (before ++ after) = encodeItems before ++ encodeItems after := by
  simp [encodeItems_eq]

theorem encodePairs_append (before after : List (Item × Item)) :
    encodePairs (before ++ after) = encodePairs before ++ encodePairs after := by
  simp [encodePairs_eq]

theorem length_encode_pos (item : Item) : 0 < item.encode.length := by
  cases item <;> simp [encode]

theorem exists_fuel {item : Item} {fuel : ℕ} (h : item.encode.length ≤ fuel) :
    ∃ k, fuel = k + 1 := by
  have hpos := item.length_encode_pos
  exact ⟨fuel - 1, by omega⟩

/-- Every argument and length fits the width chosen for it. -/
inductive WellFormed : Item → Prop
  | unsigned {w : Width} {n : ℕ} : n < w.bound → WellFormed (.unsigned w n)
  | negative {w : Width} {n : ℕ} : n < w.bound → WellFormed (.negative w n)
  | bytes {w : Width} {b : List UInt8} : b.length < w.bound → WellFormed (.bytes w b)
  | text {w : Width} {b : List UInt8} : b.length < w.bound → WellFormed (.text w b)
  | array {w : Width} {items : List Item} : items.length < w.bound →
      (∀ it ∈ items, WellFormed it) → WellFormed (.array w items)
  | map {w : Width} {pairs : List (Item × Item)} : pairs.length < w.bound →
      (∀ p ∈ pairs, WellFormed p.1) → (∀ p ∈ pairs, WellFormed p.2) → WellFormed (.map w pairs)
  | tag {w : Width} {n : ℕ} {item : Item} : n < w.bound → WellFormed item →
      WellFormed (.tag w n item)
  | primitive {w : Width} {n : ℕ} : n < w.bound → WellFormed (.primitive w n)

@[simp] theorem wellFormed_unsigned {w : Width} {n : ℕ} :
    WellFormed (.unsigned w n) ↔ n < w.bound :=
  ⟨fun h => by cases h; assumption, .unsigned⟩

@[simp] theorem wellFormed_bytes {w : Width} {b : List UInt8} :
    WellFormed (.bytes w b) ↔ b.length < w.bound :=
  ⟨fun h => by cases h; assumption, .bytes⟩

@[simp] theorem wellFormed_text {w : Width} {b : List UInt8} :
    WellFormed (.text w b) ↔ b.length < w.bound :=
  ⟨fun h => by cases h; assumption, .text⟩

@[simp] theorem wellFormed_primitive {w : Width} {n : ℕ} :
    WellFormed (.primitive w n) ↔ n < w.bound :=
  ⟨fun h => by cases h; assumption, .primitive⟩

@[simp] theorem wellFormed_array {w : Width} {items : List Item} :
    WellFormed (.array w items) ↔ items.length < w.bound ∧ ∀ it ∈ items, it.WellFormed := by
  refine ⟨fun h => ?_, fun h => .array h.1 h.2⟩
  cases h with | array hlen hitems
  exact ⟨hlen, hitems⟩

@[simp] theorem wellFormed_map {w : Width} {pairs : List (Item × Item)} :
    WellFormed (.map w pairs) ↔
      pairs.length < w.bound ∧ ∀ p ∈ pairs, p.1.WellFormed ∧ p.2.WellFormed := by
  refine ⟨fun h => ?_, fun h => .map h.1 (fun p hp => (h.2 p hp).1) fun p hp => (h.2 p hp).2⟩
  cases h with | map hlen hkeys hvals
  exact ⟨hlen, fun p hp => ⟨hkeys p hp, hvals p hp⟩⟩

@[simp] theorem wellFormed_tag {w : Width} {n : ℕ} {item : Item} :
    WellFormed (.tag w n item) ↔ n < w.bound ∧ item.WellFormed := by
  refine ⟨fun h => ?_, fun h => .tag h.1 h.2⟩
  cases h with | tag hn hitem
  exact ⟨hn, hitem⟩

/-- The major type in an item's head. -/
def major : Item → ℕ
  | .unsigned .. => 0
  | .negative .. => 1
  | .bytes .. => 2
  | .text .. => 3
  | .array .. => 4
  | .map .. => 5
  | .tag .. => 6
  | .primitive .. => 7

/-- The width of an item's head. -/
def width : Item → Width
  | .unsigned w _ | .negative w _ | .bytes w _ | .text w _ | .array w _ | .map w _ | .tag w _ _
  | .primitive w _ => w

/-- The argument in an item's head. -/
def argument : Item → ℕ
  | .unsigned _ n | .negative _ n | .tag _ n _ | .primitive _ n => n
  | .bytes _ b | .text _ b => b.length
  | .array _ items => items.length
  | .map _ pairs => pairs.length

theorem major_lt (item : Item) : item.major < 8 := by
  cases item <;> simp [major]

/-- An item starts with its head. -/
theorem exists_body (item : Item) :
    ∃ body, item.encode = head item.major item.width item.argument ++ body := by
  cases item with
  | bytes | text | array | map | tag => exact ⟨_, rfl⟩
  | _ => exact ⟨[], by simp [encode, major, width, argument]⟩

theorem WellFormed.argument_lt {item : Item} (h : WellFormed item) :
    item.argument < item.width.bound := by
  cases h <;> assumption

/-- `sub` is the item itself or is nested in it, starting `off` bytes in. -/
inductive SubitemAt : Item → ℕ → Item → Prop
  | self (item : Item) : SubitemAt item 0 item
  | array {w : Width} {before after : List Item} {it sub : Item} {off : ℕ} :
      SubitemAt it off sub →
      SubitemAt (.array w (before ++ it :: after))
        (1 + w.size + (encodeItems before).length + off) sub
  | mapKey {w : Width} {before after : List (Item × Item)} {p : Item × Item} {sub : Item}
      {off : ℕ} : SubitemAt p.1 off sub →
      SubitemAt (.map w (before ++ p :: after))
        (1 + w.size + (encodePairs before).length + off) sub
  | mapValue {w : Width} {before after : List (Item × Item)} {p : Item × Item} {sub : Item}
      {off : ℕ} : SubitemAt p.2 off sub →
      SubitemAt (.map w (before ++ p :: after))
        (1 + w.size + (encodePairs before).length + p.1.encode.length + off) sub
  | tag {w : Width} {n : ℕ} {item sub : Item} {off : ℕ} :
      SubitemAt item off sub → SubitemAt (.tag w n item) (1 + w.size + off) sub

/-- A nested item's bytes stand at its offset wherever the outer item stands. -/
theorem SubitemAt.standsAt {item sub : Item} {off : ℕ} (h : SubitemAt item off sub)
    {data : List UInt8} {pos : ℕ} (hat : StandsAt item.encode data pos) :
    StandsAt sub.encode data (pos + off) := by
  induction h generalizing pos with
  | self item => exact hat
  | @array w before after it sub off _ ih =>
      rw [encode, encodeItems_append] at hat
      have hit := hat.right.right.left
      simpa [Nat.add_assoc] using ih hit
  | @mapKey w before after p sub off _ ih =>
      rw [encode, encodePairs_append] at hat
      have hkey := hat.right.right.left.left
      simpa [Nat.add_assoc] using ih hkey
  | @mapValue w before after p sub off _ ih =>
      rw [encode, encodePairs_append] at hat
      have hvalue := hat.right.right.left.right
      simpa [Nat.add_assoc] using ih hvalue
  | @tag w n item sub off _ ih =>
      rw [encode] at hat
      simpa [Nat.add_assoc] using ih hat.right

theorem SubitemAt.wellFormed {item sub : Item} {off : ℕ} (h : SubitemAt item off sub)
    (hwf : item.WellFormed) : sub.WellFormed := by
  induction h with
  | self item => exact hwf
  | array _ ih => exact ih ((wellFormed_array.mp hwf).2 _ (by simp))
  | mapKey _ ih => exact ih ((wellFormed_map.mp hwf).2 _ (by simp)).1
  | mapValue _ ih => exact ih ((wellFormed_map.mp hwf).2 _ (by simp)).2
  | tag _ ih => exact ih (wellFormed_tag.mp hwf).2

end Item

end CborWire
