import Label309.Cbor.Permissive
import Label309.Lib.ExceptBind

/-!
# The strict decoder within the permissive one

Where the strict decoder reads a value, the permissive one reads its image and stops at the same
byte. The two are compared reader by reader, so that nothing depends on what the bytes are.
-/
namespace Label309
open ByteReader

/-! ## The embedding -/

mutual

/-- A strict value as a permissive one, with its items and entries in the order that they have. -/
def embed : CborValue → PermissiveValue
  | .unsigned n => .unsigned n
  | .negative m => .negative m
  | .bytes b => .bytes b
  | .text s => .text s
  | .array items => .array (embedItems items)
  | .map pairs => .map (embedPairs pairs)
  | .bool b => .bool b
  | .null => .null

def embedItems : List CborValue → List PermissiveValue
  | [] => []
  | item :: items => embed item :: embedItems items

def embedPairs : List (CborValue × CborValue) → List (PermissiveValue × PermissiveValue)
  | [] => []
  | (key, val) :: pairs => (embed key, embed val) :: embedPairs pairs

end

def embedPair (p : CborValue × CborValue) : PermissiveValue × PermissiveValue :=
  (embed p.1, embed p.2)

@[simp] theorem embedItems_eq (items : List CborValue) : embedItems items = items.map embed := by
  induction items with
  | nil => rfl
  | cons item items ih => rw [embedItems, ih, List.map_cons]

@[simp] theorem embedPairs_eq (pairs : List (CborValue × CborValue)) :
    embedPairs pairs = pairs.map embedPair := by
  induction pairs with
  | nil => rfl
  | cons p pairs ih => rw [embedPairs, ih, List.map_cons, embedPair]

/-- What the permissive reader makes of a strict value. -/
def embedItem (v : CborValue) : PermissiveItem := .value (embed v)

/-! ## The readers -/

/-- An argument in its shortest form is an argument. -/
theorem restricts_readArgument (additional : UInt8) :
    Restricts (readArgument additional) (PermissiveDecoder.readArgument additional) id := by
  have hshortest (c : Prop) [Decidable c] (message : String) (n : UInt64) :
      Restricts (if c then malformed message else pure n : CborReader UInt64) (pure n) id :=
    .ite_left (fun _ => .fail _ _ _) fun _ => .pure n id
  have hwide (len : ℕ) (c : UInt64 → Prop) [DecidablePred c] (message : String) :
      Restricts (take len >>= fun raw =>
          if c (UInt64.ofNat (BigEndian.ofBe raw)) then malformed message
          else pure (UInt64.ofNat (BigEndian.ofBe raw)) : CborReader UInt64)
        (take len >>= fun raw => pure (UInt64.ofNat (BigEndian.ofBe raw))) id :=
    (Restricts.refl (take len)).bind fun raw => hshortest _ _ _
  rw [readArgument, PermissiveDecoder.readArgument]
  refine .ite (fun _ => .pure _ id) fun _ => .ite (fun _ => ?_) fun _ => ?_
  · exact (Restricts.refl nextByte).bind fun v => hshortest _ _ _
  · refine .ite (fun _ => hwide 2 (· ≤ 0xFF) _) fun _ => ?_
    refine .ite (fun _ => hwide 4 (· ≤ 0xFFFF) _) fun _ => ?_
    refine .ite (fun _ => hwide 8 (· ≤ 0xFFFFFFFF) _) fun _ => ?_
    exact .ite_left (fun _ => .fail _ _ _) fun _ => .fail _ _ _

theorem restricts_readLength (additional : UInt8) :
    Restricts (readLength additional) (PermissiveDecoder.readLength additional) id :=
  (restricts_readArgument additional).bind fun n => .pure n.toNat id

/-- No length is indefinite. -/
theorem readLength_31 (data : List UInt8) (pos : ℕ) :
    readLength 31 data pos =
      .error (.indefiniteLength "indefinite-length item is not canonical") := rfl

/-- A strict read of a length means that the permissive one does not look for a break. -/
theorem restricts_length {α : Type} {additional : UInt8} {g : ℕ → CborReader α}
    {indefinite : CborReader PermissiveItem} {k : ℕ → CborReader PermissiveItem}
    {f : α → PermissiveItem} (hg : ∀ n, Restricts (g n) (k n) f) :
    Restricts (readLength additional >>= g)
      (if additional = 31 then indefinite else PermissiveDecoder.readLength additional >>= k) f := by
  by_cases hindefinite : additional = 31
  · intro data pos a pos' h
    rw [hindefinite, run_bind, readLength_31] at h
    cases h
  · rw [if_neg hindefinite]
    exact (restricts_readLength additional).bind hg

/-- The three simple values that are strict. -/
theorem restricts_readSimple (additional : UInt8) :
    Restricts (readSimple additional) (PermissiveDecoder.readSimple additional) embedItem := by
  rw [readSimple, PermissiveDecoder.readSimple]
  by_cases hsmall : additional ≤ 19
  · have hall : ∀ a : UInt8, a ≤ 19 → a ≠ 20 ∧ a ≠ 21 ∧ a ≠ 22 := by decide +kernel
    obtain ⟨h20, h21, h22⟩ := hall additional hsmall
    rw [if_neg h20, if_neg h21, if_neg h22]
    refine .ite_left (fun _ => .fail _ _ _) fun _ => .ite_left (fun _ => .fail _ _ _) fun _ => ?_
    refine .ite_left (fun _ => .fail _ _ _) fun _ => ?_
    exact .ite_left (fun _ => .fail _ _ _) fun _ => .fail _ _ _
  · rw [if_neg hsmall]
    refine .ite (fun _ => .pure (.bool false) embedItem) fun _ => ?_
    refine .ite (fun _ => .pure (.bool true) embedItem) fun _ => ?_
    refine .ite (fun _ => .pure .null embedItem) fun _ => ?_
    refine .ite_left (fun _ => .fail _ _ _) fun _ => .ite_left (fun _ => .fail _ _ _) fun _ => ?_
    refine .ite_left (fun _ => .fail _ _ _) fun _ => ?_
    exact .ite_left (fun _ => .fail _ _ _) fun _ => .fail _ _ _

/-- A value read in place of an item. -/
theorem restricts_asValue {x : CborReader CborValue} {y : CborReader PermissiveItem}
    (h : Restricts x y embedItem) : Restricts x (PermissiveDecoder.asValue y) embed := by
  intro data pos v pos' hx
  rw [PermissiveDecoder.asValue, run_bind_ok (h data pos v pos' hx)]
  rfl

/-- Entries in ascending order are entries. -/
theorem restricts_readEntries {x : CborReader CborValue} {y : CborReader PermissiveItem}
    (h : Restricts x y embedItem) (n : ℕ) (prev : Option (List UInt8)) :
    Restricts (readEntries x n prev) (repeatN (PermissiveDecoder.readPair y) n)
      (List.map embedPair) := by
  have hvalue := restricts_asValue h
  induction n generalizing prev with
  | zero => exact .pure [] (List.map embedPair)
  | succ n ih =>
      have horder (keyBytes : List UInt8) (data : List UInt8) (pos pos' : ℕ)
          (hcheck : checkKeyOrder prev keyBytes data pos = .ok ((), pos')) : pos' = pos := by
        cases prev with
        | none =>
            cases hcheck
            rfl
        | some prev =>
            rw [checkKeyOrder] at hcheck
            cases hcompare : compareEncodedKeys prev keyBytes with
            | lt =>
                rw [hcompare] at hcheck
                cases hcheck
                rfl
            | eq =>
                rw [hcompare] at hcheck
                cases hcheck
            | gt =>
                rw [hcompare] at hcheck
                cases hcheck
      rw [readEntries, repeatN]
      intro data pos pairs pos' hread
      obtain ⟨key, p1, hkey, hread⟩ := run_bind_eq_ok hread
      obtain ⟨u, p2, hcheck, hread⟩ := run_bind_eq_ok hread
      obtain ⟨val, p3, hval, hread⟩ := run_bind_eq_ok hread
      obtain ⟨rest, p4, hrest, hread⟩ := run_bind_eq_ok hread
      cases hread
      rw [horder key.2 data p1 p2 hcheck] at hval
      have hpair : PermissiveDecoder.readPair y data pos = .ok (embedPair (key.1, val), p3) := by
        rw [PermissiveDecoder.readPair, run_bind_ok (hvalue.withSpan data pos key p1 hkey),
          run_bind_ok (hvalue data p1 val p3 hval)]
        rfl
      rw [run_bind_ok hpair, run_bind_ok (ih (some key.2) data p3 rest _ hrest)]
      rfl

/-- The rest of an item, after its header byte. -/
theorem restricts_readMajor {x : CborReader CborValue} {y : CborReader PermissiveItem}
    (h : Restricts x y embedItem) (fuel : ℕ) (major additional : UInt8) :
    Restricts (readMajor x major additional) (PermissiveDecoder.readMajor y fuel major additional)
      embedItem := by
  have hstring (isText : Bool) : PermissiveDecoder.readByteOrText fuel additional isText =
      if additional = 31 then (do
        let buf ← PermissiveDecoder.readChunks isText fuel
        let v ← PermissiveDecoder.finishString buf isText
        pure (.value v))
      else (PermissiveDecoder.readLength additional >>= fun len => do
        let raw ← take len
        let v ← PermissiveDecoder.finishString raw isText
        pure (.value v)) := rfl
  rw [readMajor, PermissiveDecoder.readMajor, hstring, hstring]
  refine .ite (fun _ => ?_) fun _ => .ite (fun _ => ?_) fun _ => ?_
  · exact (restricts_readArgument additional).bind fun n => .pure (.unsigned n) embedItem
  · exact (restricts_readArgument additional).bind fun m => .pure (.negative m) embedItem
  refine .ite (fun _ => restricts_length fun len => ?_) fun _ => ?_
  · exact (Restricts.refl (take len)).bind fun raw => .pure (.bytes raw) embedItem
  refine .ite (fun _ => restricts_length fun len => ?_) fun _ => ?_
  · refine (Restricts.refl (take len)).bind fun raw => ?_
    rw [PermissiveDecoder.finishString, if_pos rfl, id]
    cases fromUtf8 raw with
    | none => exact .fail _ _ _
    | some s => exact .pure (.text s) embedItem
  refine .ite (fun _ => restricts_length fun len => ?_) fun _ => ?_
  · refine ((restricts_asValue h).repeatN len).bind fun items => ?_
    rw [← embedItems_eq]
    exact .pure (.array items) embedItem
  refine .ite (fun _ => restricts_length fun len => ?_) fun _ => ?_
  · refine (restricts_readEntries h len none).bind fun pairs => ?_
    rw [← embedPairs_eq]
    exact .pure (.map pairs) embedItem
  exact .ite (fun _ => .fail _ _ _) fun _ => restricts_readSimple additional

/-- **At every depth.** -/
theorem restricts_readValue (fuel : ℕ) :
    Restricts (readValue fuel) (PermissiveDecoder.readItem fuel) embedItem := by
  induction fuel with
  | zero => exact .fail _ _ _
  | succ fuel ih =>
      exact (Restricts.refl nextByte).bind fun initial => restricts_readMajor ih fuel _ _

/-! ## The decoders -/

/-- **The strict decoder is a restriction of the permissive one.** Bytes that the strict decoder
reads as a value are read by the permissive one as the image of that value. -/
theorem decodeCborPermissive_of_canonical {b : List UInt8} {v : CborValue}
    (h : decodeCanonicalCbor b = .ok v) : decodeCborPermissive b = .ok (embed v) := by
  obtain ⟨⟨value, pos⟩, hread, hend⟩ := ExceptBind.bind_eq_ok.mp h
  have hpermissive : PermissiveDecoder.readValue b 0 = .ok (embed value, pos) :=
    restricts_asValue (restricts_readValue b.length) b 0 value pos hread
  rw [decodeCborPermissive, hpermissive]
  dsimp only at hend
  by_cases hpos : pos ≠ b.length
  · rw [if_pos hpos] at hend
    cases hend
  · rw [if_neg hpos] at hend
    cases hend
    exact if_neg hpos

/-- A map in canonical order, with an array in it. -/
theorem decodeCborPermissive_of_canonical_sample :
    decodeCborPermissive [0xa2, 0x01, 0x81, 0x20, 0x02, 0xf6] =
      .ok (embed (.map [(.unsigned 1, .array [.negative 0]), (.unsigned 2, .null)])) :=
  decodeCborPermissive_of_canonical rfl

end Label309
