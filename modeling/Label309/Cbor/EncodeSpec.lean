import Label309.Cbor.Encode
import Label309.Lib.ExceptBind

/-!
# What the encoder writes, and when

A map is its entries sorted by encoded key, and encoding fails exactly on a map with
two entries under one key.
-/
namespace Label309
open BigEndian ExceptBind SortByKey

/-- The canonical bytes of a key, empty for a key that has none. -/
def encodedKey (key : CborValue) : List UInt8 :=
  match writeValue key with
  | .ok keyBytes => keyBytes
  | .error _ => []

theorem encodedKey_of_ok {key : CborValue} {b : List UInt8} (h : writeValue key = .ok b) :
    encodedKey key = b := by
  rw [encodedKey, h]

/-- The entries of a map in canonical order. -/
def sortEntries (pairs : List (CborValue × CborValue)) : List (CborValue × CborValue) :=
  sortBy compareEncodedKeys (fun p => encodedKey p.1) pairs

/-- Entries whose encoded keys strictly increase. -/
abbrev AscendingEntries (pairs : List (CborValue × CborValue)) : Prop :=
  Ascending compareEncodedKeys (fun p : CborValue × CborValue => encodedKey p.1) pairs

/-- `bs` is the concatenation of the encoded keys and values of `pairs`. -/
inductive EncodedEntries : List (CborValue × CborValue) → List UInt8 → Prop
  | nil : EncodedEntries [] []
  | cons {key val : CborValue} {pairs : List (CborValue × CborValue)} {kb vb bs : List UInt8} :
      writeValue key = .ok kb → writeValue val = .ok vb → EncodedEntries pairs bs →
      EncodedEntries ((key, val) :: pairs) (kb ++ vb ++ bs)

theorem writeItems_eq_ok {items : List CborValue} {bs : List UInt8} :
    writeItems items = .ok bs ↔
      ∃ bss, List.Forall₂ (fun v b => writeValue v = .ok b) items bss ∧ bs = bss.flatten := by
  induction items generalizing bs with
  | nil => simp [writeItems, eq_comm]
  | cons item items ih =>
      simp only [writeItems, bind_eq_ok, ih, List.forall₂_cons_left_iff]
      constructor
      · rintro ⟨b, hb, _, ⟨bss, hall, rfl⟩, heq⟩
        cases heq
        exact ⟨b :: bss, ⟨b, bss, hb, hall, rfl⟩, rfl⟩
      · rintro ⟨_, ⟨b, bss, hb, hall, rfl⟩, rfl⟩
        exact ⟨b, hb, _, ⟨bss, hall, rfl⟩, rfl⟩

/-- The encoder's view of an entry: its encoded key and its value's pending bytes. -/
def encodedEntry (p : CborValue × CborValue) : EncodedEntry := (encodedKey p.1, writeValue p.2)

theorem encodeKeys_eq_ok {pairs : List (CborValue × CborValue)} {encoded : List EncodedEntry} :
    encodeKeys pairs = .ok encoded ↔
      (∀ p ∈ pairs, ∃ b, writeValue p.1 = .ok b) ∧ encoded = pairs.map encodedEntry := by
  induction pairs generalizing encoded with
  | nil => simp [encodeKeys, eq_comm]
  | cons p pairs ih =>
      simp only [encodeKeys, bind_eq_ok, ih, List.forall_mem_cons, List.map_cons]
      constructor
      · rintro ⟨kb, hkb, _, ⟨hall, rfl⟩, heq⟩
        cases heq
        exact ⟨⟨⟨kb, hkb⟩, hall⟩, by rw [encodedEntry, encodedKey_of_ok hkb]⟩
      · rintro ⟨⟨⟨kb, hkb⟩, hall⟩, rfl⟩
        exact ⟨kb, hkb, _, ⟨hall, rfl⟩, by rw [encodedEntry, encodedKey_of_ok hkb]⟩

theorem hasAdjacentDuplicate_eq_false_iff {entries : List EncodedEntry}
    (h : entries.Pairwise fun a b => (compareEncodedKeys a.1 b.1).isLE) :
    hasAdjacentDuplicate entries = false ↔ Ascending compareEncodedKeys Prod.fst entries := by
  induction entries with
  | nil => simp [hasAdjacentDuplicate, Ascending]
  | cons a rest ih =>
      cases rest with
      | nil => simp [hasAdjacentDuplicate, Ascending]
      | cons b rest =>
          obtain ⟨hle, hrest⟩ := List.pairwise_cons.mp h
          simp only [hasAdjacentDuplicate, Bool.or_eq_false_iff, beq_eq_false_iff_ne, ih hrest]
          constructor
          · rintro ⟨hne, hasc⟩
            have hab : compareEncodedKeys a.1 b.1 = .lt := by
              have hle' := hle b (by simp)
              cases hcmp : compareEncodedKeys a.1 b.1 with
              | lt => rfl
              | eq => exact absurd (Std.LawfulEqCmp.eq_of_compare hcmp) hne
              | gt => rw [hcmp] at hle'; cases hle'
            refine List.pairwise_cons.mpr ⟨fun c hc => ?_, hasc⟩
            rcases List.mem_cons.mp hc with rfl | hc
            · exact hab
            · exact Std.TransCmp.lt_trans hab (List.rel_of_pairwise_cons hasc hc)
          · intro hasc
            obtain ⟨hlt, hasc'⟩ := List.pairwise_cons.mp hasc
            refine ⟨fun heq => ?_, hasc'⟩
            have hab := hlt b (by simp)
            have hself : compareEncodedKeys b.1 b.1 = .eq := Std.ReflCmp.compare_self
            rw [heq, hself] at hab
            cases hab

theorem emitEntries_eq_ok {pairs : List (CborValue × CborValue)} {bs : List UInt8}
    (hkeys : ∀ p ∈ pairs, ∃ b, writeValue p.1 = .ok b) :
    emitEntries (pairs.map encodedEntry) = .ok bs ↔ EncodedEntries pairs bs := by
  induction pairs generalizing bs with
  | nil =>
      simp only [List.map_nil, emitEntries]
      constructor
      · rintro ⟨⟩
        exact .nil
      · rintro ⟨⟩
        rfl
  | cons p pairs ih =>
      obtain ⟨⟨kb, hkb⟩, hrest⟩ := List.forall_mem_cons.mp hkeys
      simp only [List.map_cons, emitEntries, encodedEntry, encodedKey_of_ok hkb, bind_eq_ok]
      constructor
      · rintro ⟨vb, hvb, body, hbody, heq⟩
        cases heq
        exact .cons hkb hvb ((ih hrest).mp hbody)
      · rintro (_ | ⟨hkb', hvb, hbody⟩)
        rw [hkb] at hkb'
        cases hkb'
        exact ⟨_, hvb, _, (ih hrest).mpr hbody, rfl⟩

theorem EncodedEntries.keys_ok {pairs : List (CborValue × CborValue)} {bs : List UInt8}
    (h : EncodedEntries pairs bs) : ∀ p ∈ pairs, ∃ b, writeValue p.1 = .ok b := by
  induction h with
  | nil => simp
  | cons hk _ _ ih => exact List.forall_mem_cons.mpr ⟨⟨_, hk⟩, ih⟩

/-- A map encodes exactly when its sorted entries are strictly ascending and encode. -/
theorem writeValue_map_eq_ok {pairs : List (CborValue × CborValue)} {bs : List UInt8} :
    writeValue (.map pairs) = .ok bs ↔
      AscendingEntries (sortEntries pairs) ∧ ∃ body, EncodedEntries (sortEntries pairs) body ∧
        bs = writeTypeAndArgument 5 pairs.length.toUInt64 ++ body := by
  have hsort : sortBy compareEncodedKeys Prod.fst (pairs.map encodedEntry) =
      (sortEntries pairs).map encodedEntry := (map_sortBy _ fun _ _ => rfl).symm
  have hasc : Ascending compareEncodedKeys Prod.fst ((sortEntries pairs).map encodedEntry) ↔
      AscendingEntries (sortEntries pairs) := by
    simp [Ascending, List.pairwise_map, encodedEntry]
  have hdup : hasAdjacentDuplicate ((sortEntries pairs).map encodedEntry) = false ↔
      AscendingEntries (sortEntries pairs) := by
    rw [← hasc, hasAdjacentDuplicate_eq_false_iff]
    rw [← hsort]
    exact pairwise_sortBy _
  have hkeys : (∀ p ∈ pairs, ∃ b, writeValue p.1 = .ok b) ↔
      ∀ p ∈ sortEntries pairs, ∃ b, writeValue p.1 = .ok b := by
    simp [sortEntries]
  have hlen : (sortEntries pairs).length = pairs.length := length_sortBy _
  simp only [writeValue, bind_eq_ok, encodeKeys_eq_ok]
  constructor
  · rintro ⟨_, ⟨hok, rfl⟩, h⟩
    simp only [writeMap, hsort] at h
    split_ifs at h with hd
    obtain ⟨body, hbody, heq⟩ := bind_eq_ok.mp h
    simp only [List.length_map, hlen] at heq
    cases heq
    exact ⟨hdup.mp (by simpa using hd), body, (emitEntries_eq_ok (hkeys.mp hok)).mp hbody, rfl⟩
  · rintro ⟨hascending, body, hbody, rfl⟩
    refine ⟨_, ⟨hkeys.mpr hbody.keys_ok, rfl⟩, ?_⟩
    simp only [writeMap, hsort, hdup.mpr hascending, List.length_map, hlen]
    simp [(emitEntries_eq_ok hbody.keys_ok).mpr hbody]

/-! ## When encoding fails -/

/-- Some map anywhere in the value, keys included, has two entries whose keys
have the same canonical encoding. -/
inductive HasDuplicateKey : CborValue → Prop
  | here {pairs : List (CborValue × CborValue)} {p q : CborValue × CborValue} {b : List UInt8} :
      [p, q].Sublist pairs → encodeCanonicalCbor p.1 = .ok b → encodeCanonicalCbor q.1 = .ok b →
      HasDuplicateKey (.map pairs)
  | item {items : List CborValue} {v : CborValue} :
      v ∈ items → HasDuplicateKey v → HasDuplicateKey (.array items)
  | key {pairs : List (CborValue × CborValue)} {p : CborValue × CborValue} :
      p ∈ pairs → HasDuplicateKey p.1 → HasDuplicateKey (.map pairs)
  | value {pairs : List (CborValue × CborValue)} {p : CborValue × CborValue} :
      p ∈ pairs → HasDuplicateKey p.2 → HasDuplicateKey (.map pairs)

theorem exists_writeItems_iff {items : List CborValue} :
    (∃ b, writeItems items = .ok b) ↔ ∀ v ∈ items, ∃ b, writeValue v = .ok b := by
  induction items with
  | nil => simp [writeItems]
  | cons item items ih =>
      rw [List.forall_mem_cons, ← ih]
      simp only [writeItems, bind_eq_ok]
      constructor
      · rintro ⟨_, b, hb, body, hbody, -⟩
        exact ⟨⟨b, hb⟩, body, hbody⟩
      · rintro ⟨⟨b, hb⟩, body, hbody⟩
        exact ⟨_, b, hb, body, hbody, rfl⟩

theorem exists_encodedEntries_iff {pairs : List (CborValue × CborValue)} :
    (∃ body, EncodedEntries pairs body) ↔
      ∀ p ∈ pairs, (∃ b, writeValue p.1 = .ok b) ∧ ∃ b, writeValue p.2 = .ok b := by
  induction pairs with
  | nil => simpa using ⟨[], EncodedEntries.nil⟩
  | cons p pairs ih =>
      rw [List.forall_mem_cons, ← ih]
      constructor
      · rintro ⟨_, _ | ⟨hk, hv, hrest⟩⟩
        exact ⟨⟨⟨_, hk⟩, _, hv⟩, _, hrest⟩
      · rintro ⟨⟨⟨_, hk⟩, _, hv⟩, _, hrest⟩
        exact ⟨_, .cons hk hv hrest⟩

/-- A map encodes exactly when its keys are distinct and all its entries encode. -/
theorem exists_writeValue_map_iff {pairs : List (CborValue × CborValue)} :
    (∃ b, writeValue (.map pairs) = .ok b) ↔
      (pairs.map fun p => encodedKey p.1).Nodup ∧
        ∀ p ∈ pairs, (∃ b, writeValue p.1 = .ok b) ∧ ∃ b, writeValue p.2 = .ok b := by
  have hnodup : AscendingEntries (sortEntries pairs) ↔ (pairs.map fun p => encodedKey p.1).Nodup :=
    ascending_sortBy_iff
  have hbody : (∃ body, EncodedEntries (sortEntries pairs) body) ↔
      ∀ p ∈ pairs, (∃ b, writeValue p.1 = .ok b) ∧ ∃ b, writeValue p.2 = .ok b := by
    simp [exists_encodedEntries_iff, sortEntries]
  rw [← hnodup, ← hbody]
  simp only [writeValue_map_eq_ok]
  constructor
  · rintro ⟨_, hasc, body, henc, -⟩
    exact ⟨hasc, body, henc⟩
  · rintro ⟨hasc, body, henc⟩
    exact ⟨_, hasc, body, henc, rfl⟩

theorem exists_pair_of_not_nodup {pairs : List (CborValue × CborValue)}
    (h : ¬ (pairs.map fun p => encodedKey p.1).Nodup) :
    ∃ p q, [p, q].Sublist pairs ∧ encodedKey p.1 = encodedKey q.1 := by
  simp only [List.nodup_iff_sublist, not_forall, not_not] at h
  obtain ⟨b, hb⟩ := h
  obtain ⟨l, hl, hmap⟩ := List.sublist_map_iff.mp hb
  obtain ⟨p, l', rfl, hp, htail⟩ := List.map_eq_cons_iff.mp hmap.symm
  obtain ⟨q, l'', rfl, hq, hnil⟩ := List.map_eq_cons_iff.mp htail
  rw [List.map_eq_nil_iff.mp hnil] at hl
  exact ⟨p, q, hl, hp.trans hq.symm⟩

theorem exists_encode_iff (v : CborValue) :
    (∃ b, writeValue v = .ok b) ↔ ¬ HasDuplicateKey v := by
  induction v with
  | unsigned n => exact ⟨fun _ h => (by cases h), fun _ => ⟨_, rfl⟩⟩
  | negative m => exact ⟨fun _ h => (by cases h), fun _ => ⟨_, rfl⟩⟩
  | bytes b => exact ⟨fun _ h => (by cases h), fun _ => ⟨_, rfl⟩⟩
  | text s => exact ⟨fun _ h => (by cases h), fun _ => ⟨_, rfl⟩⟩
  | null => exact ⟨fun _ h => (by cases h), fun _ => ⟨_, rfl⟩⟩
  | bool b => exact ⟨fun _ h => (by cases h), fun _ => by cases b <;> exact ⟨_, rfl⟩⟩
  | array items ih =>
      have harray : (∃ b, writeValue (.array items) = .ok b) ↔ ∃ b, writeItems items = .ok b := by
        simp only [writeValue, bind_eq_ok]
        exact ⟨fun ⟨_, body, h, _⟩ => ⟨body, h⟩, fun ⟨body, h⟩ => ⟨_, body, h, rfl⟩⟩
      rw [harray, exists_writeItems_iff]
      constructor
      · rintro hok (_ | ⟨hv, hdup⟩)
        exact (ih _ hv).mp (hok _ hv) hdup
      · intro hno v hv
        exact (ih v hv).mpr fun hdup => hno (.item hv hdup)
  | map pairs ih =>
      rw [exists_writeValue_map_iff]
      constructor
      · rintro ⟨hnodup, hok⟩ (⟨hsub, hp, hq⟩ | _ | ⟨hp, hdup⟩ | ⟨hp, hdup⟩)
        · have hpair := (hsub.map fun p => encodedKey p.1).nodup hnodup
          simp [encodedKey_of_ok hp, encodedKey_of_ok hq] at hpair
        · exact (ih _ hp).1.mp (hok _ hp).1 hdup
        · exact (ih _ hp).2.mp (hok _ hp).2 hdup
      · intro hno
        have hkeys : ∀ p ∈ pairs, ∃ b, writeValue p.1 = .ok b :=
          fun p hp => (ih p hp).1.mpr fun hdup => hno (.key hp hdup)
        refine ⟨by_contra fun hn => ?_, fun p hp => ⟨hkeys p hp, ?_⟩⟩
        · obtain ⟨p, q, hsub, heq⟩ := exists_pair_of_not_nodup hn
          obtain ⟨kp, hkp⟩ := hkeys p (hsub.subset (by simp))
          obtain ⟨kq, hkq⟩ := hkeys q (hsub.subset (by simp))
          rw [encodedKey_of_ok hkp, encodedKey_of_ok hkq] at heq
          exact hno (.here hsub hkp (heq ▸ hkq))
        · exact (ih p hp).2.mpr fun hdup => hno (.value hp hdup)

theorem encode_error_iff (v : CborValue) :
    (∃ e, encodeCanonicalCbor v = .error e) ↔ HasDuplicateKey v := by
  rw [encodeCanonicalCbor, ← not_ok_iff_error, exists_encode_iff, not_not]

end Label309
