import Label309.Cbor.Permissive
import Label309.Cbor.Head
import Label309.Lib.CborWire

/-!
# The permissive decoder on definite-length items

Where a well-formed definite-length item stands, the permissive decoder reads
exactly its bytes, and fails only on text that is not UTF-8.
-/
namespace Label309
open BigEndian ByteReader CborWire

/-! ## Heads on the wire -/

theorem ofNat_head (major : ℕ) (hm : major < 8) {w : Width} {n : ℕ} (hn : n < w.bound) :
    UInt8.ofNat (major * 32 + w.info n) >>> 5 = UInt8.ofNat major ∧
      UInt8.ofNat (major * 32 + w.info n) &&& 0x1F = UInt8.ofNat (w.info n) := by
  have hinfo := Width.info_lt hn
  have hval : (UInt8.ofNat (major * 32 + w.info n)).toNat = major * 32 + w.info n :=
    UInt8.toNat_ofNat_of_lt' (by simp only [UInt8.size]; omega)
  have hmajor : (UInt8.ofNat major).toNat = major :=
    UInt8.toNat_ofNat_of_lt' (by simp only [UInt8.size]; omega)
  have hinfo' : (UInt8.ofNat (w.info n)).toNat = w.info n :=
    UInt8.toNat_ofNat_of_lt' (by simp only [UInt8.size]; omega)
  constructor <;> apply UInt8.toNat_inj.mp
  · rw [toNat_major, hval, hmajor]
    omega
  · rw [toNat_additional, hval, hinfo']
    omega

theorem accepts_take_toBe (w n : ℕ) : Accepts (take w) (toBe w n) (toBe w n) := by
  simpa using accepts_take (toBe w n)

theorem toBe_one (n : ℕ) : toBe 1 n = [UInt8.ofNat n] := by
  simp [toBe]

namespace PermissiveDecoder

theorem accepts_readArgument {w : Width} {n : ℕ} (hn : n < w.bound) :
    Accepts (readArgument (UInt8.ofNat (w.info n))) (toBe w.size n) (UInt64.ofNat n) := by
  cases w with
  | inline =>
      have hn' : n < 24 := hn
      have hle : UInt8.ofNat n ≤ 23 := by
        rw [UInt8.le_iff_toNat_le, UInt8.toNat_ofNat_of_lt' (by simp only [UInt8.size]; omega)]
        exact Nat.le_of_lt_succ hn'
      have hval : (UInt8.ofNat n).toUInt64 = UInt64.ofNat n := by
        apply UInt64.toNat_inj.mp
        rw [UInt8.toNat_toUInt64, UInt8.toNat_ofNat', UInt64.toNat_ofNat']
        omega
      simp only [Width.info, Width.size, toBe, readArgument, hle, if_true, hval]
      exact Accepts.pure _
  | one =>
      have hn' : n < 256 := hn
      have hval : (UInt8.ofNat n).toUInt64 = UInt64.ofNat n := by
        apply UInt64.toNat_inj.mp
        rw [UInt8.toNat_toUInt64, UInt8.toNat_ofNat', UInt64.toNat_ofNat']
        omega
      simp only [Width.size, toBe_one n]
      refine (Accepts.byte _ _).bind_pure ?_
      rw [hval]
      exact Accepts.pure _
  | two =>
      refine (accepts_take_toBe 2 n).bind_pure ?_
      rw [ofBe_toBe (w := 2) hn]
      exact Accepts.pure _
  | four =>
      refine (accepts_take_toBe 4 n).bind_pure ?_
      rw [ofBe_toBe (w := 4) hn]
      exact Accepts.pure _
  | eight =>
      refine (accepts_take_toBe 8 n).bind_pure ?_
      rw [ofBe_toBe (w := 8) hn]
      exact Accepts.pure _

theorem accepts_readLength {w : Width} {n : ℕ} (hn : n < w.bound) :
    Accepts (readLength (UInt8.ofNat (w.info n))) (toBe w.size n) n := by
  refine (accepts_readArgument hn).bind_pure ?_
  have hlt := lt_of_lt_of_le hn w.bound_le
  rw [UInt64.toNat_ofNat', Nat.mod_eq_of_lt hlt]
  exact Accepts.pure n

/-! ## What an item is decoded to -/

/-- The value of a major-type-7 item. -/
def primitiveValue : Width → ℕ → PermissiveValue
  | .inline, 20 => .bool false
  | .inline, 21 => .bool true
  | .inline, 22 => .null
  | .inline, 23 => .undefined
  | .inline, n => .simple (UInt8.ofNat n)
  | .one, n => .simple (UInt8.ofNat n)
  | .two, n => .float (decodeF16 (UInt16.ofNat n))
  | .four, n => .float (Float32.ofBits (UInt32.ofNat n)).toFloat
  | .eight, n => .float (Float.ofBits (UInt64.ofNat n))

/-- The value of a text string, or the error for bytes that are not UTF-8. -/
def textValue (b : List UInt8) : Except CanonicalCborError PermissiveValue :=
  match fromUtf8 b with
  | some s => .ok (.text s)
  | none => .error (.malformed "text string is not valid UTF-8")

mutual

/-- The value of an item, or the error of the first text in it that is not UTF-8. -/
def valueOf : Item → Except CanonicalCborError PermissiveValue
  | .unsigned _ n => .ok (.unsigned (UInt64.ofNat n))
  | .negative _ n => .ok (.negative (UInt64.ofNat n))
  | .bytes _ b => .ok (.bytes b)
  | .text _ b => textValue b
  | .array _ items => do
      let vs ← valuesOf items
      .ok (.array vs)
  | .map _ pairs => do
      let ps ← pairsOf pairs
      .ok (.map ps)
  | .tag _ n item => do
      let inner ← valueOf item
      .ok (.tag (UInt64.ofNat n) inner)
  | .primitive w n => .ok (primitiveValue w n)

def valuesOf : List Item → Except CanonicalCborError (List PermissiveValue)
  | [] => .ok []
  | item :: items => do
      let v ← valueOf item
      let vs ← valuesOf items
      .ok (v :: vs)

def pairsOf :
    List (Item × Item) → Except CanonicalCborError (List (PermissiveValue × PermissiveValue))
  | [] => .ok []
  | (key, value) :: pairs => do
      let k ← valueOf key
      let v ← valueOf value
      let ps ← pairsOf pairs
      .ok ((k, v) :: ps)

end

theorem valuesOf_eq (items : List Item) : valuesOf items = items.mapM valueOf := by
  induction items with
  | nil => rfl
  | cons item items ih => rw [valuesOf, ih, List.mapM_cons]; rfl

/-- The values of the two halves of an entry. -/
def pairOf (p : Item × Item) : Except CanonicalCborError (PermissiveValue × PermissiveValue) := do
  let k ← valueOf p.1
  let v ← valueOf p.2
  .ok (k, v)

theorem pairsOf_eq (pairs : List (Item × Item)) : pairsOf pairs = pairs.mapM pairOf := by
  induction pairs with
  | nil => rfl
  | cons p pairs ih =>
      rw [pairsOf, ih, List.mapM_cons, pairOf]
      simp [bind_assoc]
      rfl

/-! ## What the decoder reads -/

theorem ofNat_info_ne {w : Width} {n : ℕ} (hn : n < w.bound) : UInt8.ofNat (w.info n) ≠ 31 := by
  have hlt : w.info n < 28 := by
    cases w with
    | inline => exact lt_trans hn (by decide)
    | _ => simp [Width.info]
  intro h
  have hval := congrArg UInt8.toNat h
  rw [UInt8.toNat_ofNat_of_lt' (by simp only [UInt8.size]; omega)] at hval
  simp only [UInt8.reduceToNat] at hval
  omega

/-- An item is read from its head and body once the rest of it is. -/
theorem yields_readItem_succ {fuel major : ℕ} (hm : major < 8) {w : Width} {n : ℕ}
    (hn : n < w.bound) {body : List UInt8} {r : Except CanonicalCborError PermissiveItem}
    (h : Yields (readMajor (readItem fuel) fuel (UInt8.ofNat major) (UInt8.ofNat (w.info n)))
      (toBe w.size n ++ body) r) : Yields (readItem (fuel + 1)) (head major w n ++ body) r := by
  obtain ⟨hmajor, hinfo⟩ := ofNat_head major hm hn
  refine Yields.bind (g := fun _ => r) (Accepts.byte _ _) ?_
  rintro _ ⟨⟩
  rw [hmajor, hinfo]
  exact h

theorem yields_asValue {x : CborReader PermissiveItem} {bs : List UInt8}
    {r : Except CanonicalCborError PermissiveValue} (h : Yields x bs (r.map .value)) :
    Yields (asValue x) bs r := by
  intro data pos hat
  rw [asValue, run_bind, h data pos hat]
  cases r <;> rfl

theorem yields_finishText (b : List UInt8) : Yields (finishString b true) [] (textValue b) := by
  unfold finishString textValue
  cases fromUtf8 b with
  | some s => exact Yields.pure _
  | none => exact Yields.fail _ _

theorem accepts_readSimple {w : Width} {n : ℕ} (hn : n < w.bound) :
    Accepts (readSimple (UInt8.ofNat (w.info n))) (toBe w.size n) (.value (primitiveValue w n)) := by
  cases w with
  | inline =>
      have hn' : n < 24 := hn
      simp only [Width.size, toBe, Width.info]
      interval_cases n <;> exact Accepts.pure _
  | one =>
      simp only [Width.size, toBe_one]
      exact (Accepts.byte _ _).bind_pure (Accepts.pure _)
  | two =>
      refine (accepts_take_toBe 2 n).bind_pure ?_
      rw [ofBe_toBe (w := 2) hn]
      exact Accepts.pure _
  | four =>
      refine (accepts_take_toBe 4 n).bind_pure ?_
      rw [ofBe_toBe (w := 4) hn]
      exact Accepts.pure _
  | eight =>
      refine (accepts_take_toBe 8 n).bind_pure ?_
      rw [ofBe_toBe (w := 8) hn]
      exact Accepts.pure _

theorem accepts_readItem_leaf {fuel major : ℕ} (hm : major < 8) {w : Width} {n : ℕ}
    (hn : n < w.bound) {v : PermissiveItem} (hfuel : (head major w n).length ≤ fuel)
    (h : ∀ k, Accepts (readMajor (readItem k) k (UInt8.ofNat major) (UInt8.ofNat (w.info n)))
      (toBe w.size n) v) : Accepts (readItem fuel) (head major w n) v := by
  rw [← List.append_nil (head major w n)] at hfuel ⊢
  obtain ⟨k, rfl, -⟩ := exists_fuel_of_head hfuel
  refine yields_readItem_succ hm hn ?_
  rw [List.append_nil]
  exact h k

theorem yields_readByteOrText {k : ℕ} {w : Width} {b : List UInt8} (hb : b.length < w.bound)
    {isText : Bool} {r : Except CanonicalCborError PermissiveValue}
    (h : Yields (finishString b isText) [] r) :
    Yields (readByteOrText k (UInt8.ofNat (w.info b.length)) isText) (toBe w.size b.length ++ b)
      (r.map PermissiveItem.value) := by
  rw [readByteOrText, if_neg (ofNat_info_ne hb)]
  refine Yields.of_accepts (accepts_readLength hb) ?_
  exact Yields.of_accepts_nil (accepts_take b) (h.bind_pure _)

/-- **Wherever a well-formed item stands, the permissive decoder gives its value
and stops at its end.** -/
theorem yields_readItem {item : Item} (hwf : item.WellFormed) {fuel : ℕ}
    (hfuel : item.encode.length ≤ fuel) :
    Yields (readItem fuel) item.encode ((valueOf item).map PermissiveItem.value) := by
  induction item generalizing fuel with
  | unsigned w n =>
      cases hwf with | unsigned hn
      refine accepts_readItem_leaf (by decide) hn hfuel fun k => ?_
      exact (accepts_readArgument hn).bind_pure (Accepts.pure _)
  | negative w n =>
      cases hwf with | negative hn
      refine accepts_readItem_leaf (by decide) hn hfuel fun k => ?_
      exact (accepts_readArgument hn).bind_pure (Accepts.pure _)
  | primitive w n =>
      cases hwf with | primitive hn
      exact accepts_readItem_leaf (by decide) hn hfuel fun k => accepts_readSimple hn
  | bytes w b =>
      cases hwf with | bytes hlen
      obtain ⟨k, rfl, -⟩ := exists_fuel_of_head hfuel
      exact yields_readItem_succ (by decide) hlen (yields_readByteOrText hlen (Yields.pure _))
  | text w b =>
      cases hwf with | text hlen
      obtain ⟨k, rfl, -⟩ := exists_fuel_of_head hfuel
      exact yields_readItem_succ (by decide) hlen (yields_readByteOrText hlen (yields_finishText b))
  | array w items ih =>
      cases hwf with | array hlen hitems
      obtain ⟨k, rfl, hk⟩ := exists_fuel_of_head hfuel
      rw [Item.encodeItems_eq] at hk
      have hread : ∀ it ∈ items, Yields (asValue (readItem k)) it.encode (valueOf it) := by
        intro it hit
        exact yields_asValue (ih it hit (hitems it hit) (le_trans (length_le_flatMap hit) hk))
      have hvalue : (valueOf (.array w items)).map PermissiveItem.value =
          (items.mapM valueOf).map fun vs => PermissiveItem.value (.array vs) := by
        rw [valueOf, valuesOf_eq]
        cases items.mapM valueOf <;> rfl
      rw [hvalue]
      refine yields_readItem_succ (by decide) hlen ?_
      change Yields (readArray _ _ _) _ _
      rw [readArray, if_neg (ofNat_info_ne hlen), Item.encodeItems_eq]
      exact Yields.of_accepts (accepts_readLength hlen) ((Yields.repeatN hread).bind_pure _)
  | map w pairs ih =>
      cases hwf with | map hlen hkeys hvals
      obtain ⟨k, rfl, hk⟩ := exists_fuel_of_head hfuel
      rw [Item.encodePairs_eq] at hk
      have hread : ∀ p ∈ pairs, Yields (readPair (readItem k)) (Item.encodePair p) (pairOf p) := by
        intro p hp
        have hle := le_trans (length_le_flatMap (f := Item.encodePair) hp) hk
        rw [Item.encodePair, List.length_append] at hle
        have hkey := yields_asValue ((ih p hp).1 (hkeys p hp) (by omega : p.1.encode.length ≤ k))
        have hval := yields_asValue ((ih p hp).2 (hvals p hp) (by omega : p.2.encode.length ≤ k))
        refine hkey.bind fun key _ => ?_
        have hpair : (valueOf p.2 >>= fun v => Except.ok (key, v)) =
            (valueOf p.2).map fun v => (key, v) := by
          cases valueOf p.2 <;> rfl
        rw [hpair]
        exact hval.bind_pure _
      have hvalue : (valueOf (.map w pairs)).map PermissiveItem.value =
          (pairs.mapM pairOf).map fun ps => PermissiveItem.value (.map ps) := by
        rw [valueOf, pairsOf_eq]
        cases pairs.mapM pairOf <;> rfl
      rw [hvalue]
      refine yields_readItem_succ (by decide) hlen ?_
      change Yields (readMap _ _ _) _ _
      rw [readMap, if_neg (ofNat_info_ne hlen), Item.encodePairs_eq]
      exact Yields.of_accepts (accepts_readLength hlen) ((Yields.repeatN hread).bind_pure _)
  | tag w n item ih =>
      cases hwf with | tag hn hitem
      obtain ⟨k, rfl, hk⟩ := exists_fuel_of_head hfuel
      have hvalue : (valueOf (.tag w n item)).map PermissiveItem.value =
          (valueOf item).map fun v => PermissiveItem.value (.tag (UInt64.ofNat n) v) := by
        rw [valueOf]
        cases valueOf item <;> rfl
      rw [hvalue]
      refine yields_readItem_succ (by decide) hn ?_
      exact Yields.of_accepts (accepts_readArgument hn) ((yields_asValue (ih hitem hk)).bind_pure _)

/-- Every text string in the item is UTF-8. -/
def TextIsUtf8 (item : Item) : Prop :=
  ∀ off w b, item.SubitemAt off (.text w b) → ∃ s, fromUtf8 b = some s

theorem exists_mapM_of_forall {ι α : Type} {f : ι → Except CanonicalCborError α} {is : List ι}
    (h : ∀ i ∈ is, ∃ a, f i = .ok a) : ∃ as, is.mapM f = .ok as := by
  induction is with
  | nil => exact ⟨[], rfl⟩
  | cons i is ih =>
      obtain ⟨⟨a, ha⟩, his⟩ := List.forall_mem_cons.mp h
      obtain ⟨as, has⟩ := ih his
      exact ⟨a :: as, by rw [List.mapM_cons, ha, has]; rfl⟩

/-- An item whose text is UTF-8 has a value. -/
theorem exists_valueOf {item : Item} (h : TextIsUtf8 item) : ∃ v, valueOf item = .ok v := by
  induction item with
  | unsigned w n => exact ⟨_, rfl⟩
  | negative w n => exact ⟨_, rfl⟩
  | bytes w b => exact ⟨_, rfl⟩
  | primitive w n => exact ⟨_, rfl⟩
  | text w b =>
      obtain ⟨s, hs⟩ := h 0 w b (.self _)
      exact ⟨.text s, by rw [valueOf, textValue, hs]⟩
  | array w items ih =>
      have hall : ∀ it ∈ items, ∃ v, valueOf it = .ok v := by
        intro it hit
        obtain ⟨before, after, rfl⟩ := List.append_of_mem hit
        exact ih it hit fun off w' b hsub => h _ w' b (.array hsub)
      obtain ⟨vs, hvs⟩ := exists_mapM_of_forall hall
      exact ⟨.array vs, by rw [valueOf, valuesOf_eq, hvs]; rfl⟩
  | map w pairs ih =>
      have hall : ∀ p ∈ pairs, ∃ kv, pairOf p = .ok kv := by
        intro p hp
        obtain ⟨before, after, rfl⟩ := List.append_of_mem hp
        obtain ⟨key, hkey⟩ := (ih p hp).1 fun off w' b hsub => h _ w' b (.mapKey hsub)
        obtain ⟨val, hval⟩ := (ih p hp).2 fun off w' b hsub => h _ w' b (.mapValue hsub)
        exact ⟨(key, val), by rw [pairOf, hkey, hval]; rfl⟩
      obtain ⟨ps, hps⟩ := exists_mapM_of_forall hall
      exact ⟨.map ps, by rw [valueOf, pairsOf_eq, hps]; rfl⟩
  | tag w n item ih =>
      obtain ⟨v, hv⟩ := ih fun off w' b hsub => h _ w' b (.tag hsub)
      exact ⟨.tag (UInt64.ofNat n) v, by rw [valueOf, hv]; rfl⟩

/-- The decoder reads one value from wherever an item stands. -/
theorem readValue_of_standsAt {item : Item} (hwf : item.WellFormed) {data : List UInt8} {pos : ℕ}
    (hat : StandsAt item.encode data pos) :
    readValue data pos = (valueOf item).map fun v => (v, pos + item.encode.length) := by
  have hle : item.encode.length ≤ data.length := by
    have := hat.le_length
    omega
  exact yields_asValue (yields_readItem hwf hle) data pos hat

end PermissiveDecoder

end Label309
