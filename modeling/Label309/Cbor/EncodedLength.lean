import Label309.Cbor.RoundTrip

/-!
# The length of an encoding

How many bytes a value has in canonical form, without writing them. The order of the entries of a
map does not matter for it.
-/
namespace Label309
open BigEndian ExceptBind SortByKey

/-- The length of a head with this argument. -/
def headLength (n : UInt64) : ℕ :=
  if n ≤ 23 then 1
  else if n ≤ 0xFF then 2
  else if n ≤ 0xFFFF then 3
  else if n ≤ 0xFFFFFFFF then 5
  else 9

/-- The length of a string with its head. -/
def stringLength (length : ℕ) : ℕ := headLength length.toUInt64 + length

mutual

def encodedLength : CborValue → ℕ
  | .unsigned n => headLength n
  | .negative m => headLength m
  | .bytes b => stringLength b.length
  | .text s => stringLength (utf8Bytes s).length
  | .array items => headLength items.length.toUInt64 + encodedLengthItems items
  | .map pairs => headLength pairs.length.toUInt64 + encodedLengthPairs pairs
  | .bool _ => 1
  | .null => 1

def encodedLengthItems : List CborValue → ℕ
  | [] => 0
  | item :: items => encodedLength item + encodedLengthItems items

def encodedLengthPairs : List (CborValue × CborValue) → ℕ
  | [] => 0
  | (key, val) :: pairs => encodedLength key + encodedLength val + encodedLengthPairs pairs

end

/-- The length of an entry of a map. -/
def entryLength (p : CborValue × CborValue) : ℕ := encodedLength p.1 + encodedLength p.2

theorem encodedLengthItems_eq (items : List CborValue) :
    encodedLengthItems items = (items.map encodedLength).sum := by
  induction items with
  | nil => rfl
  | cons item items ih =>
      rw [List.map_cons, List.sum_cons, ← ih]
      rfl

theorem encodedLengthPairs_eq (pairs : List (CborValue × CborValue)) :
    encodedLengthPairs pairs = (pairs.map entryLength).sum := by
  induction pairs with
  | nil => rfl
  | cons p pairs ih =>
      rw [List.map_cons, List.sum_cons, ← ih]
      rfl

theorem encodedLength_array (items : List CborValue) : encodedLength (.array items) =
    headLength items.length.toUInt64 + (items.map encodedLength).sum := by
  rw [← encodedLengthItems_eq]
  rfl

theorem encodedLength_map (pairs : List (CborValue × CborValue)) : encodedLength (.map pairs) =
    headLength pairs.length.toUInt64 + (pairs.map entryLength).sum := by
  rw [← encodedLengthPairs_eq]
  rfl

theorem length_writeTypeAndArgument (major : UInt8) (n : UInt64) :
    (writeTypeAndArgument major n).length = headLength n := by
  rw [writeTypeAndArgument_eq, List.length_cons]
  unfold shortestArgument headLength
  split_ifs <;> simp

/-- The body of a map, from the lengths of its parts. -/
theorem EncodedEntries.length {pairs : List (CborValue × CborValue)} {body : List UInt8}
    (h : EncodedEntries pairs body)
    (hparts : ∀ p ∈ pairs, (∀ b, writeValue p.1 = .ok b → b.length = encodedLength p.1) ∧
      ∀ b, writeValue p.2 = .ok b → b.length = encodedLength p.2) :
    body.length = (pairs.map entryLength).sum := by
  induction h with
  | nil => rfl
  | @cons key val pairs kb vb bs hkey hval _ ih =>
      obtain ⟨hhead, hrest⟩ := List.forall_mem_cons.mp hparts
      rw [List.length_append, List.length_append, hhead.1 kb hkey, hhead.2 vb hval, ih hrest,
        List.map_cons, List.sum_cons, entryLength]

/-- **The encoder writes as many bytes.** -/
theorem length_writeValue (v : CborValue) {b : List UInt8} (h : writeValue v = .ok b) :
    b.length = encodedLength v := by
  induction v generalizing b with
  | unsigned n =>
      cases h
      exact length_writeTypeAndArgument 0 n
  | negative m =>
      cases h
      exact length_writeTypeAndArgument 1 m
  | bytes raw =>
      cases h
      rw [List.length_append, length_writeTypeAndArgument]
      rfl
  | text s =>
      cases h
      rw [List.length_append, length_writeTypeAndArgument]
      rfl
  | bool flag =>
      cases flag with
      | false =>
          cases h
          rfl
      | true =>
          cases h
          rfl
  | null =>
      cases h
      rfl
  | array items ih =>
      obtain ⟨body, hbody, heq⟩ := bind_eq_ok.mp h
      cases heq
      obtain ⟨bss, hall, hflatten⟩ := writeItems_eq_ok.mp hbody
      have hsum : (bss.map List.length).sum = (items.map encodedLength).sum := by
        clear hbody hflatten h
        induction hall with
        | nil => rfl
        | @cons item bs items bss hitem _ ih' =>
            obtain ⟨hhead, hrest⟩ := List.forall_mem_cons.mp ih
            rw [List.map_cons, List.map_cons, List.sum_cons, List.sum_cons, hhead hitem, ih' hrest]
      rw [List.length_append, length_writeTypeAndArgument, hflatten, List.length_flatten, hsum,
        encodedLength_array]
  | map pairs ih =>
      obtain ⟨-, body, hbody, heq⟩ := writeValue_map_eq_ok.mp h
      have hperm : (sortEntries pairs).Perm pairs := perm_sortBy pairs
      have hlength := hbody.length fun p hp =>
        ⟨fun b hb => (ih p (hperm.mem_iff.mp hp)).1 hb, fun b hb => (ih p (hperm.mem_iff.mp hp)).2 hb⟩
      rw [heq, List.length_append, length_writeTypeAndArgument, hlength,
        (hperm.map entryLength).sum_eq, encodedLength_map]

theorem encodedLength_sortMaps (v : CborValue) : encodedLength (sortMaps v) = encodedLength v := by
  induction v with
  | array items ih =>
      rw [sortMaps_array, encodedLength_array, encodedLength_array, List.length_map, List.map_map]
      congr 2
      exact List.map_congr_left fun v hv => ih v hv
  | map pairs ih =>
      have hperm : (sortEntries (pairs.map sortMapsEntry)).Perm (pairs.map sortMapsEntry) :=
        perm_sortBy _
      rw [sortMaps_map, encodedLength_map, encodedLength_map, hperm.length_eq,
        (hperm.map entryLength).sum_eq, List.length_map, List.map_map]
      congr 2
      apply List.map_congr_left
      intro p hp
      rw [Function.comp_apply, entryLength, entryLength, sortMapsEntry, (ih p hp).1, (ih p hp).2]
  | _ => rfl

end Label309
