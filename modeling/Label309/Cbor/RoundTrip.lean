import Label309.Cbor.EncodeSpec
import Label309.Cbor.Head

/-!
# The canonical codec is a bijection

Decoding and encoding are inverse up to the order of map entries, which the
encoder sorts and the decoder requires sorted.
-/
namespace Label309
open BigEndian ByteReader ExceptBind SortByKey

/-! ## Decoded bytes are the encoding of their value -/

/-- What the decoder returns: lengths fit a 64-bit word and map keys strictly ascend. -/
inductive Canonical : CborValue → Prop
  | unsigned (n : UInt64) : Canonical (.unsigned n)
  | negative (m : UInt64) : Canonical (.negative m)
  | bytes {b : List UInt8} : b.length < 2 ^ 64 → Canonical (.bytes b)
  | text {s : String} : (utf8Bytes s).length < 2 ^ 64 → Canonical (.text s)
  | array {items : List CborValue} : items.length < 2 ^ 64 → (∀ v ∈ items, Canonical v) →
      Canonical (.array items)
  | map {pairs : List (CborValue × CborValue)} : pairs.length < 2 ^ 64 → AscendingEntries pairs →
      (∀ p ∈ pairs, Canonical p.1) → (∀ p ∈ pairs, Canonical p.2) → Canonical (.map pairs)
  | bool (b : Bool) : Canonical (.bool b)
  | null : Canonical .null

/-- `bs` is the encoding of `v`, and `v` is a value the decoder can return. -/
def CanonicalEncoding (v : CborValue) (bs : List UInt8) : Prop :=
  writeValue v = .ok bs ∧ Canonical v

theorem sound_readLength (additional : UInt8) :
    Sound (readLength additional) fun len bs =>
      len < 2 ^ 64 ∧ shortestArgument len.toUInt64 = (additional, bs) := by
  refine (sound_readArgument additional).bind ?_
  intro n xs hn
  refine (Sound.pure _).mono ?_
  rintro _ _ ⟨rfl, rfl⟩
  refine ⟨n.toNat_lt, ?_⟩
  simpa [Nat.toUInt64] using hn

theorem writeTypeAndArgument_of_shortest {major additional : UInt8} {n : UInt64} {bs : List UInt8}
    (h : shortestArgument n = (additional, bs)) :
    writeTypeAndArgument major n = writeHeader major additional :: bs := by
  rw [writeTypeAndArgument_eq, h]

theorem sound_readSimple (additional : UInt8) :
    Sound (readSimple additional) fun v bs =>
      CanonicalEncoding v (writeHeader 7 additional :: bs) := by
  unfold readSimple
  split_ifs with hfalse htrue hnull
  case pos => subst hfalse; exact (Sound.pure _).mono (by rintro _ _ ⟨rfl, rfl⟩; exact ⟨rfl, .bool _⟩)
  case pos => subst htrue; exact (Sound.pure _).mono (by rintro _ _ ⟨rfl, rfl⟩; exact ⟨rfl, .bool _⟩)
  case pos => subst hnull; exact (Sound.pure _).mono (by rintro _ _ ⟨rfl, rfl⟩; exact ⟨rfl, .null⟩)
  all_goals exact Sound.fail _

/-- The entries read are ascending, come after `prev`, and their bytes are their encoding. -/
theorem sound_readEntries {readItem : CborReader CborValue}
    (hread : Sound readItem CanonicalEncoding) (n : ℕ) (prev : Option (List UInt8)) :
    Sound (readEntries readItem n prev) fun pairs bs =>
      pairs.length = n ∧ EncodedEntries pairs bs ∧ AscendingEntries pairs ∧
        (∀ p ∈ pairs, Canonical p.1) ∧ (∀ p ∈ pairs, Canonical p.2) ∧
        ∀ k ∈ prev, ∀ p ∈ pairs, compareEncodedKeys k (encodedKey p.1) = .lt := by
  induction n generalizing prev with
  | zero =>
      refine (Sound.pure _).mono ?_
      rintro _ _ ⟨rfl, rfl⟩
      exact ⟨rfl, .nil, .nil, by simp, by simp, by simp⟩
  | succ n ih =>
      refine hread.withSpan.bind ?_
      rintro ⟨key, keyBytes⟩ _ ⟨rfl, hkey, hkeyCanonical⟩
      have horder : Sound (checkKeyOrder prev keyBytes) fun _ bs => bs = [] ∧
          ∀ k ∈ prev, compareEncodedKeys k keyBytes = .lt := by
        unfold checkKeyOrder
        cases prev with
        | none => exact (Sound.pure _).mono fun _ _ h => ⟨h.2, by simp⟩
        | some k =>
            dsimp only
            split
            · exact (Sound.pure _).mono fun _ _ h => ⟨h.2, by simpa⟩
            · exact Sound.fail _
            · exact Sound.fail _
      refine horder.bind ?_
      rintro _ _ ⟨rfl, hprev⟩
      refine hread.bind fun value vb hvalue => (ih (some keyBytes)).bind ?_
      rintro pairs bs ⟨hlen, henc, hasc, hkeys, hvalues, hafter⟩
      refine (Sound.pure _).mono ?_
      rintro _ _ ⟨rfl, rfl⟩
      have hafter' : ∀ p ∈ pairs, compareEncodedKeys keyBytes (encodedKey p.1) = .lt :=
        hafter keyBytes rfl
      have hkb : encodedKey key = keyBytes := encodedKey_of_ok hkey
      refine ⟨by simp [hlen], by simpa using henc.cons hkey hvalue.1, ?_,
        List.forall_mem_cons.mpr ⟨hkeyCanonical, hkeys⟩,
        List.forall_mem_cons.mpr ⟨hvalue.2, hvalues⟩, ?_⟩
      · exact List.pairwise_cons.mpr ⟨by simpa [hkb] using hafter', hasc⟩
      · intro k hk p hp
        rcases List.mem_cons.mp hp with rfl | hp
        · simpa [hkb] using hprev k hk
        · exact Std.TransCmp.lt_trans (hprev k hk) (hafter' p hp)

theorem sound_readMajor {readItem : CborReader CborValue}
    (hread : Sound readItem CanonicalEncoding) {major : UInt8} (hm : major < 8)
    (additional : UInt8) :
    Sound (readMajor readItem major additional) fun v bs =>
      CanonicalEncoding v (writeHeader major additional :: bs) := by
  unfold readMajor
  split_ifs with h0 h1 h2 h3 h4 h5 h6
  · subst h0
    refine (sound_readArgument additional).bind fun n bs hn => (Sound.pure _).mono ?_
    rintro _ _ ⟨rfl, rfl⟩
    exact ⟨by simp [writeValue, writeTypeAndArgument_of_shortest hn], .unsigned n⟩
  · subst h1
    refine (sound_readArgument additional).bind fun m bs hm => (Sound.pure _).mono ?_
    rintro _ _ ⟨rfl, rfl⟩
    exact ⟨by simp [writeValue, writeTypeAndArgument_of_shortest hm], .negative m⟩
  · subst h2
    refine (sound_readLength additional).bind ?_
    rintro _ bs ⟨hfit, hlen⟩
    refine (sound_take _).bind ?_
    rintro raw _ ⟨rfl, rfl⟩
    refine (Sound.pure _).mono ?_
    rintro _ _ ⟨rfl, rfl⟩
    exact ⟨by simp [writeValue, writeTypeAndArgument_of_shortest hlen], .bytes hfit⟩
  · subst h3
    refine (sound_readLength additional).bind ?_
    rintro _ bs ⟨hfit, hlen⟩
    refine (sound_take _).bind ?_
    rintro raw _ ⟨rfl, rfl⟩
    split
    · rename_i s hs
      refine (Sound.pure _).mono ?_
      rintro _ _ ⟨rfl, rfl⟩
      have hutf8 := utf8Bytes_of_fromUtf8 hs
      exact ⟨by simp [writeValue, hutf8, writeTypeAndArgument_of_shortest hlen],
        .text (by rwa [hutf8])⟩
    · exact Sound.fail _
  · subst h4
    refine (sound_readLength additional).bind ?_
    rintro n bs ⟨hfit, hlen⟩
    refine (hread.repeatN n).bind ?_
    rintro items _ ⟨rfl, bss, rfl, hall⟩
    refine (Sound.pure _).mono ?_
    rintro _ _ ⟨rfl, rfl⟩
    obtain ⟨hcanonical, hall⟩ := (List.forall₂_and_left _ _).mp (hall.imp fun _ _ h => And.comm.mp h)
    have hitems : writeItems items = .ok bss.flatten := writeItems_eq_ok.mpr ⟨bss, hall, rfl⟩
    exact ⟨by simp [writeValue, hitems, writeTypeAndArgument_of_shortest hlen],
      .array hfit hcanonical⟩
  · subst h5
    refine (sound_readLength additional).bind ?_
    rintro n bs ⟨hfit, hlen⟩
    refine (sound_readEntries hread n none).bind ?_
    rintro pairs body ⟨rfl, henc, hasc, hkeys, hvalues, -⟩
    refine (Sound.pure _).mono ?_
    rintro _ _ ⟨rfl, rfl⟩
    have hsorted : sortEntries pairs = pairs := sortBy_of_ascending hasc
    refine ⟨writeValue_map_eq_ok.mpr ⟨by rwa [hsorted], body, by rwa [hsorted], ?_⟩,
      .map hfit hasc hkeys hvalues⟩
    simp [writeTypeAndArgument_of_shortest hlen]
  · exact Sound.fail _
  · have h7 : major = 7 := by
      have hlt : major.toNat < 8 := hm
      simp only [← UInt8.toNat_inj, UInt8.reduceToNat] at *
      omega
    subst h7
    exact sound_readSimple additional

/-- **Every decoded value is canonical and re-encodes to the bytes it was read from.** -/
theorem sound_readValue (fuel : ℕ) : Sound (readValue fuel) CanonicalEncoding := by
  induction fuel with
  | zero => exact Sound.fail _
  | succ fuel ih =>
      refine (Sound.byte _).bind ?_
      rintro initial _ rfl
      have hmajor : initial >>> 5 < 8 := by
        have hb := initial.toNat_lt
        rw [UInt8.lt_iff_toNat_lt, toNat_major]
        simp only [UInt8.reduceToNat]
        omega
      refine (sound_readMajor ih hmajor _).mono fun v bs hv => ?_
      rwa [writeHeader_split] at hv

theorem canonicalEncoding_of_decode {b : List UInt8} {v : CborValue}
    (h : decodeCanonicalCbor b = .ok v) : CanonicalEncoding v b := by
  obtain ⟨⟨value, pos⟩, hread, hrest⟩ := bind_eq_ok.mp h
  dsimp only at hrest
  split_ifs at hrest with hpos
  cases hrest
  obtain ⟨bs, hdrop, hpos', hbs⟩ := sound_readValue _ _ _ _ _ hread
  have hall : b = bs := by
    simpa [not_not.mp hpos] using hdrop
  rwa [hall]

theorem encode_of_decode {b : List UInt8} {v : CborValue} (h : decodeCanonicalCbor b = .ok v) :
    encodeCanonicalCbor v = .ok b :=
  (canonicalEncoding_of_decode h).1

/-! ## Encoded bytes decode to the value with every map sorted -/

mutual

/-- `v` with the entries of every map, at every depth and inside keys, in canonical order. -/
def sortMaps : CborValue → CborValue
  | .unsigned n => .unsigned n
  | .negative m => .negative m
  | .bytes b => .bytes b
  | .text s => .text s
  | .array items => .array (sortMapsItems items)
  | .map pairs => .map (sortEntries (sortMapsPairs pairs))
  | .bool b => .bool b
  | .null => .null

def sortMapsItems : List CborValue → List CborValue
  | [] => []
  | item :: items => sortMaps item :: sortMapsItems items

def sortMapsPairs : List (CborValue × CborValue) → List (CborValue × CborValue)
  | [] => []
  | (key, val) :: pairs => (sortMaps key, sortMaps val) :: sortMapsPairs pairs

end

@[simp] theorem sortMaps_unsigned (n : UInt64) : sortMaps (.unsigned n) = .unsigned n := rfl

@[simp] theorem sortMaps_bytes (b : List UInt8) : sortMaps (.bytes b) = .bytes b := rfl

/-- `sortMaps` on both halves of an entry. -/
def sortMapsEntry (p : CborValue × CborValue) : CborValue × CborValue :=
  (sortMaps p.1, sortMaps p.2)

theorem sortMapsItems_eq (items : List CborValue) : sortMapsItems items = items.map sortMaps := by
  induction items with
  | nil => rfl
  | cons item items ih =>
      rw [List.map_cons, ← ih]
      rfl

theorem sortMapsPairs_eq (pairs : List (CborValue × CborValue)) :
    sortMapsPairs pairs = pairs.map sortMapsEntry := by
  induction pairs with
  | nil => rfl
  | cons p pairs ih =>
      rw [List.map_cons, ← ih]
      rfl

theorem sortMaps_array (items : List CborValue) :
    sortMaps (.array items) = .array (items.map sortMaps) := by
  rw [← sortMapsItems_eq]
  rfl

theorem sortMaps_map (pairs : List (CborValue × CborValue)) :
    sortMaps (.map pairs) = .map (sortEntries (pairs.map sortMapsEntry)) := by
  rw [← sortMapsPairs_eq]
  rfl

/-- Every string, array and map of the value has a length that fits a 64-bit word. -/
inductive LengthsFit : CborValue → Prop
  | unsigned (n : UInt64) : LengthsFit (.unsigned n)
  | negative (m : UInt64) : LengthsFit (.negative m)
  | bytes {b : List UInt8} : b.length < 2 ^ 64 → LengthsFit (.bytes b)
  | text {s : String} : (utf8Bytes s).length < 2 ^ 64 → LengthsFit (.text s)
  | array {items : List CborValue} : items.length < 2 ^ 64 → (∀ v ∈ items, LengthsFit v) →
      LengthsFit (.array items)
  | map {pairs : List (CborValue × CborValue)} : pairs.length < 2 ^ 64 →
      (∀ p ∈ pairs, LengthsFit p.1) → (∀ p ∈ pairs, LengthsFit p.2) → LengthsFit (.map pairs)
  | bool (b : Bool) : LengthsFit (.bool b)
  | null : LengthsFit .null

theorem accepts_readLength {len : ℕ} (h : len < 2 ^ 64) :
    Accepts (readLength (shortestArgument len.toUInt64).1) (shortestArgument len.toUInt64).2 len := by
  refine (accepts_readArgument _).bind_pure ?_
  have hval : len.toUInt64.toNat = len := by
    rw [Nat.toUInt64, UInt64.toNat_ofNat', Nat.mod_eq_of_lt h]
  rw [hval]
  exact Accepts.pure len

/-- A value is read from its head and body once the rest of the item is. -/
theorem accepts_readValue_succ {fuel : ℕ} {major : UInt8} (hm : major < 8) {n : UInt64}
    {body : List UInt8} {v : CborValue}
    (h : Accepts (readMajor (readValue fuel) major (shortestArgument n).1)
      ((shortestArgument n).2 ++ body) v) :
    Accepts (readValue (fuel + 1)) (writeTypeAndArgument major n ++ body) v := by
  have hlt := shortestArgument_lt n
  rw [← writeHeader_major hm hlt] at h
  nth_rewrite 2 [← writeHeader_additional hm hlt] at h
  rw [writeTypeAndArgument_eq]
  exact (Accepts.byte _ _).bind h

theorem accepts_readEntries {readItem : CborReader CborValue}
    {f : CborValue → CborValue} {pairs : List (CborValue × CborValue)} {bs : List UInt8}
    (henc : EncodedEntries pairs bs) (hasc : AscendingEntries pairs)
    (hread : ∀ p ∈ pairs, ∀ b, b.length ≤ bs.length →
      (writeValue p.1 = .ok b → Accepts readItem b (f p.1)) ∧
        (writeValue p.2 = .ok b → Accepts readItem b (f p.2)))
    (prev : Option (List UInt8))
    (hprev : ∀ k ∈ prev, ∀ p ∈ pairs, compareEncodedKeys k (encodedKey p.1) = .lt) :
    Accepts (readEntries readItem pairs.length prev) bs
      (pairs.map fun p => (f p.1, f p.2)) := by
  induction henc generalizing prev with
  | nil => exact Accepts.pure []
  | @cons key val pairs kb vb bs hk hv _ ih =>
      obtain ⟨hfirst, hasc'⟩ := List.pairwise_cons.mp hasc
      have hlen : (kb ++ vb ++ bs).length = kb.length + vb.length + bs.length := by
        simp [Nat.add_assoc]
      have hkey := (hread (key, val) (by simp) kb (by omega)).1 hk
      have hval := (hread (key, val) (by simp) vb (by omega)).2 hv
      have hkb : encodedKey key = kb := encodedKey_of_ok hk
      have horder : Accepts (checkKeyOrder prev kb) [] () := by
        unfold checkKeyOrder
        cases prev with
        | none => exact Accepts.pure ()
        | some k =>
            have hlt := hprev k rfl (key, val) (by simp)
            simp only [hkb] at hlt
            simp only [hlt]
            exact Accepts.pure ()
      have hrest : Accepts (readEntries readItem pairs.length (some kb)) bs
          (pairs.map fun p => (f p.1, f p.2)) := by
        refine ih hasc' (fun p hp b hb => hread p (by simp [hp]) b (by omega)) _ fun k hk p hp => ?_
        cases hk
        simpa [hkb] using hfirst p hp
      rw [List.append_assoc]
      refine hkey.withSpan.bind (horder.check_bind ?_)
      exact hval.bind (hrest.bind_pure (Accepts.pure _))

theorem length_writeTypeAndArgument_pos (major : UInt8) (n : UInt64) :
    0 < (writeTypeAndArgument major n).length := by
  rw [writeTypeAndArgument_eq]
  simp

/-- An encoding is never empty, so a reader with that much fuel can take a step. -/
theorem exists_fuel {major : UInt8} {n : UInt64} {body : List UInt8} {fuel : ℕ}
    (h : (writeTypeAndArgument major n ++ body).length ≤ fuel) :
    ∃ k, fuel = k + 1 ∧ body.length ≤ k := by
  have hpos := length_writeTypeAndArgument_pos major n
  rw [List.length_append] at h
  exact ⟨fuel - 1, by omega, by omega⟩

/-- The encoding of `v` is read back as `v` with its maps sorted. -/
theorem accepts_readValue {v : CborValue} (hfit : LengthsFit v) {bs : List UInt8}
    (h : writeValue v = .ok bs) {fuel : ℕ} (hfuel : bs.length ≤ fuel) :
    Accepts (readValue fuel) bs (sortMaps v) := by
  induction v generalizing bs fuel with
  | unsigned n =>
      cases h
      rw [← List.append_nil (writeTypeAndArgument 0 n)] at hfuel ⊢
      obtain ⟨k, rfl, -⟩ := exists_fuel hfuel
      refine accepts_readValue_succ (by decide) ?_
      rw [List.append_nil]
      exact (accepts_readArgument n).bind_pure (Accepts.pure _)
  | negative m =>
      cases h
      rw [← List.append_nil (writeTypeAndArgument 1 m)] at hfuel ⊢
      obtain ⟨k, rfl, -⟩ := exists_fuel hfuel
      refine accepts_readValue_succ (by decide) ?_
      rw [List.append_nil]
      exact (accepts_readArgument m).bind_pure (Accepts.pure _)
  | bytes b =>
      cases hfit with | bytes hlen
      cases h
      obtain ⟨k, rfl, -⟩ := exists_fuel hfuel
      refine accepts_readValue_succ (by decide) ((accepts_readLength hlen).bind ?_)
      exact (accepts_take b).bind_pure (Accepts.pure _)
  | text s =>
      cases hfit with | text hlen
      cases h
      obtain ⟨k, rfl, -⟩ := exists_fuel hfuel
      refine accepts_readValue_succ (by decide) ((accepts_readLength hlen).bind ?_)
      refine (accepts_take (utf8Bytes s)).bind_pure ?_
      simp only [fromUtf8_utf8Bytes]
      exact Accepts.pure _
  | array items ih =>
      cases hfit with | array hlen hitems
      obtain ⟨body, hbody, heq⟩ := bind_eq_ok.mp h
      cases heq
      obtain ⟨k, rfl, hk⟩ := exists_fuel hfuel
      obtain ⟨bss, hall, rfl⟩ := writeItems_eq_ok.mp hbody
      have hread : List.Forall₂ (Accepts (readValue k)) bss (items.map sortMaps) := by
        rw [List.forall₂_map_right_iff]
        refine List.Forall₂.flip (List.forall₂_iff_zip.mpr ⟨hall.length_eq, fun {v b} hvb => ?_⟩)
        obtain ⟨hv, hb⟩ := List.of_mem_zip hvb
        refine ih v hv (hitems v hv) ((List.forall₂_iff_zip.mp hall).2 hvb) ?_
        exact le_trans (List.sublist_flatten_of_mem hb).length_le hk
      refine accepts_readValue_succ (by decide) ((accepts_readLength hlen).bind ?_)
      have hall' := Accepts.repeatN hread
      rw [List.length_map] at hall'
      rw [sortMaps_array]
      exact hall'.bind_pure (Accepts.pure _)
  | map pairs ih =>
      cases hfit with | map hlen hkeys hvals
      obtain ⟨hasc, body, henc, rfl⟩ := writeValue_map_eq_ok.mp h
      obtain ⟨k, rfl, hk⟩ := exists_fuel hfuel
      refine accepts_readValue_succ (by decide) ((accepts_readLength hlen).bind ?_)
      have hmem {p : CborValue × CborValue} : p ∈ sortEntries pairs ↔ p ∈ pairs := mem_sortBy
      have hread : ∀ p ∈ sortEntries pairs, ∀ b : List UInt8, b.length ≤ body.length →
          (writeValue p.1 = .ok b → Accepts (readValue k) b (sortMaps p.1)) ∧
            (writeValue p.2 = .ok b → Accepts (readValue k) b (sortMaps p.2)) := by
        intro p hp b hb
        obtain ⟨ihkey, ihval⟩ := ih p (hmem.mp hp)
        exact ⟨fun h => ihkey (hkeys p (hmem.mp hp)) h (le_trans hb hk),
          fun h => ihval (hvals p (hmem.mp hp)) h (le_trans hb hk)⟩
      -- Sorting inside a key does not change its encoding, so it commutes with the sort by key.
      have hsort : (sortEntries pairs).map sortMapsEntry = sortEntries (pairs.map sortMapsEntry) := by
        refine map_sortBy _ fun p hp => ?_
        obtain ⟨kb, hkb⟩ := henc.keys_ok p (hmem.mpr hp)
        have hkey := (ih p hp).1 (hkeys p hp) hkb (le_refl kb.length)
        rw [sortMapsEntry, encodedKey_of_ok hkb]
        exact encodedKey_of_ok ((sound_readValue _).of_accepts hkey).1
      have hentries := accepts_readEntries henc hasc hread none (by simp)
      rw [sortEntries, length_sortBy] at hentries
      rw [sortMaps_map, ← hsort]
      exact hentries.bind_pure (Accepts.pure _)
  | bool b =>
      cases b
      · cases h
        obtain ⟨k, rfl, -⟩ := @exists_fuel 7 20 [] _ hfuel
        exact @accepts_readValue_succ k 7 (by decide) 20 [] _ (Accepts.pure _)
      · cases h
        obtain ⟨k, rfl, -⟩ := @exists_fuel 7 21 [] _ hfuel
        exact @accepts_readValue_succ k 7 (by decide) 21 [] _ (Accepts.pure _)
  | null =>
      cases h
      obtain ⟨k, rfl, -⟩ := @exists_fuel 7 22 [] _ hfuel
      exact @accepts_readValue_succ k 7 (by decide) 22 [] _ (Accepts.pure _)

theorem decode_of_encode {v : CborValue} (hfit : LengthsFit v) {b : List UInt8}
    (h : encodeCanonicalCbor v = .ok b) : decodeCanonicalCbor b = .ok (sortMaps v) := by
  have hread := accepts_readValue hfit h (le_refl b.length) b 0 (.whole b)
  simp [decodeCanonicalCbor, hread, Except.map]

/-! ## Canonical values -/

theorem Canonical.lengthsFit {v : CborValue} (h : Canonical v) : LengthsFit v := by
  induction v with
  | unsigned n => exact .unsigned n
  | negative m => exact .negative m
  | bytes b => cases h with | bytes hfit => exact .bytes hfit
  | text s => cases h with | text hfit => exact .text hfit
  | array items ih =>
      cases h with
      | array hfit hitems => exact .array hfit fun v hv => ih v hv (hitems v hv)
  | map pairs ih =>
      cases h with
      | map hfit _ hkeys hvalues =>
          exact .map hfit (fun p hp => (ih p hp).1 (hkeys p hp))
            fun p hp => (ih p hp).2 (hvalues p hp)
  | bool b => exact .bool b
  | null => exact .null

/-- Every map of a canonical value is sorted already. -/
theorem Canonical.sortMaps_eq {v : CborValue} (h : Canonical v) : sortMaps v = v := by
  induction v with
  | array items ih =>
      cases h with
      | array _ hitems =>
          rw [sortMaps_array, List.map_congr_left fun v hv => ih v hv (hitems v hv),
            List.map_id']
  | map pairs ih =>
      cases h with
      | map _ hasc hkeys hvalues =>
          have hentry : ∀ p ∈ pairs, sortMapsEntry p = p := fun p hp => by
            rw [sortMapsEntry, (ih p hp).1 (hkeys p hp), (ih p hp).2 (hvalues p hp)]
          rw [sortMaps_map, List.map_congr_left hentry, List.map_id']
          exact congrArg CborValue.map (sortBy_of_ascending hasc)
  | _ => rfl

/-- **On canonical values the encoder is injective.** -/
theorem Canonical.encode_injective {v w : CborValue} (hv : Canonical v) (hw : Canonical w)
    {b : List UInt8} (hbv : encodeCanonicalCbor v = .ok b) (hbw : encodeCanonicalCbor w = .ok b) :
    v = w := by
  have hdv := decode_of_encode hv.lengthsFit hbv
  rw [decode_of_encode hw.lengthsFit hbw, hv.sortMaps_eq, hw.sortMaps_eq] at hdv
  exact (Except.ok.inj hdv).symm

@[simp] theorem exists_writeValue_unsigned (n : UInt64) : ∃ b, writeValue (.unsigned n) = .ok b :=
  ⟨_, rfl⟩

@[simp] theorem exists_writeValue_bytes (b : List UInt8) : ∃ bs, writeValue (.bytes b) = .ok bs :=
  ⟨_, rfl⟩

@[simp] theorem exists_writeValue_text (s : String) : ∃ b, writeValue (.text s) = .ok b := ⟨_, rfl⟩

/-- A text key is read back from its bytes. -/
theorem encodedKey_text_inj {s s' : String} (hfit : LengthsFit (.text s))
    (hfit' : LengthsFit (.text s')) (h : encodedKey (.text s) = encodedKey (.text s')) :
    s = s' := by
  obtain ⟨b, hb⟩ := exists_writeValue_text s
  obtain ⟨b', hb'⟩ := exists_writeValue_text s'
  rw [encodedKey_of_ok hb, encodedKey_of_ok hb'] at h
  rw [← h] at hb'
  cases hfit with
  | text hlength =>
      cases hfit' with
      | text hlength' =>
          exact CborValue.text.inj
            ((Canonical.text hlength).encode_injective (.text hlength') hb hb')

/-! ## The bijection -/

/-- **The strict codec is a bijection between values and accepted byte strings.**
Decoding then encoding gives back the bytes, encoding then decoding gives back the
value with every map sorted, and encoding fails exactly on a duplicate key. -/
theorem canonical_codec_bijective :
    (∀ b v, decodeCanonicalCbor b = .ok v → encodeCanonicalCbor v = .ok b) ∧
      (∀ v b, LengthsFit v → encodeCanonicalCbor v = .ok b →
        decodeCanonicalCbor b = .ok (sortMaps v)) ∧
      ∀ v, (∃ e, encodeCanonicalCbor v = .error e) ↔ HasDuplicateKey v :=
  ⟨fun _ _ => encode_of_decode, fun _ _ hfit => decode_of_encode hfit, encode_error_iff⟩

/-- The three directions at a map given out of order and at one with a repeated key. -/
theorem canonical_codec_bijective_sample :
    encodeCanonicalCbor (.map [(.text "a", .unsigned 2), (.text "b", .unsigned 1)]) =
        .ok [0xa2, 0x61, 0x61, 0x02, 0x61, 0x62, 0x01] ∧
      decodeCanonicalCbor [0xa2, 0x61, 0x61, 0x02, 0x61, 0x62, 0x01] =
        .ok (sortMaps (.map [(.text "b", .unsigned 1), (.text "a", .unsigned 2)])) ∧
      HasDuplicateKey (.map [(.text "a", .unsigned 1), (.text "a", .unsigned 2)]) := by
  refine ⟨canonical_codec_bijective.1 _ _ rfl,
    canonical_codec_bijective.2.1 _ _ (.map (by decide) ?_ ?_) rfl,
    (canonical_codec_bijective.2.2 _).mp ⟨_, rfl⟩⟩
  · intro p hp
    simp only [List.mem_cons, List.not_mem_nil, or_false] at hp
    rcases hp with rfl | rfl <;> exact .text (by decide)
  · intro p hp
    simp only [List.mem_cons, List.not_mem_nil, or_false] at hp
    rcases hp with rfl | rfl <;> exact .unsigned _

end Label309
