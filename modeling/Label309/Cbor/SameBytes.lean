import Label309.Cbor.RoundTrip

/-!
# Values with the same canonical bytes

Reordering the entries of a map, at any depth, does not change what is encoded. The
relation is a congruence for arrays and, up to a permutation of entries, for maps.
-/
namespace Label309
open ExceptBind SortByKey

/-- Whatever bytes encode `v` encode `w` too. -/
def SameBytes (v w : CborValue) : Prop :=
  ∀ b, encodeCanonicalCbor v = .ok b → encodeCanonicalCbor w = .ok b

/-- Entries with one key whose values have the same bytes. -/
def SameEntry (p q : CborValue × CborValue) : Prop := p.1 = q.1 ∧ SameBytes p.2 q.2

@[simp] theorem SameBytes.refl (v : CborValue) : SameBytes v v := fun _ h => h

theorem writeItems_of_same {items items' : List CborValue} (h : List.Forall₂ SameBytes items items')
    {b : List UInt8} (hb : writeItems items = .ok b) : writeItems items' = .ok b := by
  induction h generalizing b with
  | nil => exact hb
  | cons hhead _ ih =>
      obtain ⟨hd, hhd, body, hbody, heq⟩ := by simpa only [writeItems, bind_eq_ok] using hb
      cases heq
      have hhd' : writeValue _ = .ok hd := hhead _ hhd
      simp [writeItems, hhd', ih hbody]

/-- Arrays with element-wise the same bytes. -/
theorem sameBytes_array {items items' : List CborValue}
    (h : List.Forall₂ SameBytes items items') : SameBytes (.array items) (.array items') := by
  intro b hb
  obtain ⟨body, hbody, heq⟩ := bind_eq_ok.mp hb
  cases heq
  rw [encodeCanonicalCbor, writeValue, writeItems_of_same h hbody, h.length_eq]
  rfl

theorem sameEntry_keys {pairs pairs' : List (CborValue × CborValue)}
    (h : List.Forall₂ SameEntry pairs pairs') : pairs.map Prod.fst = pairs'.map Prod.fst := by
  induction h with
  | nil => rfl
  | cons hhead _ ih => simp [hhead.1, ih]

/-- Sorting two lists with the same keys keeps their entries side by side. -/
theorem forall₂_sortEntries {pairs pairs' : List (CborValue × CborValue)}
    (h : List.Forall₂ SameEntry pairs pairs') :
    List.Forall₂ SameEntry (sortEntries pairs) (sortEntries pairs') := by
  have hlen := h.length_eq
  have hfst : (pairs.zip pairs').map Prod.fst = pairs := List.map_fst_zip hlen.le
  have hsnd : (pairs.zip pairs').map Prod.snd = pairs' := List.map_snd_zip hlen.ge
  have hentry : ∀ t ∈ pairs.zip pairs', SameEntry t.1 t.2 :=
    fun t ht => (List.forall₂_iff_zip.mp h).2 ht
  -- Both lists are projections of one list of pairs, sorted by the shared key.
  let sorted := sortBy compareEncodedKeys
    (fun t : (CborValue × CborValue) × (CborValue × CborValue) => encodedKey t.1.1)
    (pairs.zip pairs')
  have hsort1 : sorted.map Prod.fst = sortEntries ((pairs.zip pairs').map Prod.fst) :=
    map_sortBy Prod.fst fun _ _ => rfl
  have hsort2 : sorted.map Prod.snd = sortEntries ((pairs.zip pairs').map Prod.snd) :=
    map_sortBy Prod.snd fun t ht => by rw [(hentry t ht).1]
  rw [hfst] at hsort1
  rw [hsnd] at hsort2
  rw [← hsort1, ← hsort2, List.forall₂_map_left_iff, List.forall₂_map_right_iff,
    List.forall₂_same]
  exact fun t ht => hentry t (mem_sortBy.mp ht)

theorem EncodedEntries.of_same {pairs pairs' : List (CborValue × CborValue)}
    (h : List.Forall₂ SameEntry pairs pairs') {body : List UInt8}
    (hbody : EncodedEntries pairs body) : EncodedEntries pairs' body := by
  induction h generalizing body with
  | nil => exact hbody
  | @cons p q _ _ hhead _ ih =>
      obtain ⟨key, val⟩ := p
      obtain ⟨key', val'⟩ := q
      obtain ⟨hkey, hval⟩ := hhead
      dsimp only at hkey hval
      subst hkey
      cases hbody with
      | cons hk hv hrest => exact .cons hk (hval _ hv) (ih hrest)

theorem AscendingEntries.of_same {pairs pairs' : List (CborValue × CborValue)}
    (h : List.Forall₂ SameEntry pairs pairs') (hasc : AscendingEntries pairs) :
    AscendingEntries pairs' := by
  have hkeys := sameEntry_keys h
  have hmap : (pairs.map Prod.fst).Pairwise
      fun a b => compareEncodedKeys (encodedKey a) (encodedKey b) = .lt :=
    List.pairwise_map.mpr hasc
  rw [hkeys] at hmap
  exact List.pairwise_map.mp hmap

theorem nodup_keys_of_encodes {pairs : List (CborValue × CborValue)} {b : List UInt8}
    (h : encodeCanonicalCbor (.map pairs) = .ok b) : (pairs.map Prod.fst).Nodup := by
  have hkeys : ((pairs.map Prod.fst).map encodedKey).Nodup := by
    rw [List.map_map]
    exact (exists_writeValue_map_iff.mp ⟨b, h⟩).1
  exact hkeys.of_map

/-- Maps whose entries, in some order, have the same keys and the same bytes. The order
may depend on the keys being distinct. -/
theorem sameBytes_map {pairs pairs' : List (CborValue × CborValue)}
    (h : (pairs.map Prod.fst).Nodup →
      ∃ mid, pairs.Perm mid ∧ List.Forall₂ SameEntry mid pairs') :
    SameBytes (.map pairs) (.map pairs') := by
  intro b hb
  obtain ⟨mid, hperm, hsame⟩ := h (nodup_keys_of_encodes hb)
  have hnodup := (exists_writeValue_map_iff.mp ⟨b, hb⟩).1
  have hsort : sortEntries pairs = sortEntries mid := sortBy_eq_of_perm hnodup hperm
  obtain ⟨hasc, body, hbody, rfl⟩ := writeValue_map_eq_ok.mp hb
  rw [hsort] at hasc hbody
  have hsorted := forall₂_sortEntries hsame
  refine writeValue_map_eq_ok.mpr ⟨hasc.of_same hsorted, body, hbody.of_same hsorted, ?_⟩
  rw [hperm.length_eq, hsame.length_eq]

end Label309
