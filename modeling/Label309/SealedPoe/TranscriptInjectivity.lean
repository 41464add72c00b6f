import Label309.Cbor.RoundTrip
import Label309.SealedPoe.Passphrase
import Label309.SealedPoe.Wrap

/-!
# What the transcripts determine

The transcripts are canonical encodings, so equal bytes come from equal values. Only the
variant of an empty list of slots is not in them, and no envelope has one.
-/
namespace Label309
open SortByKey

/-! ## Encoding with distinct keys -/

theorem encodeDistinct_eq {v : CborValue} (h : ∃ b, writeValue v = .ok b) :
    encodeCanonicalCbor v = .ok (encodeDistinct v) := by
  obtain ⟨b, hb⟩ := h
  have henc : encodeCanonicalCbor v = .ok b := hb
  rw [encodeDistinct, henc]

/-- Equal bytes are of one value, its maps sorted. -/
theorem sortMaps_eq_of_encodeDistinct_eq {v w : CborValue} (hv : ∃ b, writeValue v = .ok b)
    (hw : ∃ b, writeValue w = .ok b) (hfitv : LengthsFit v) (hfitw : LengthsFit w)
    (h : encodeDistinct v = encodeDistinct w) : sortMaps v = sortMaps w := by
  have hdv := decode_of_encode hfitv (encodeDistinct_eq hv)
  have hdw := decode_of_encode hfitw (encodeDistinct_eq hw)
  rw [h, hdw] at hdv
  exact (Except.ok.inj hdv).symm

theorem exists_writeValue_array_iff {items : List CborValue} :
    (∃ b, writeValue (.array items) = .ok b) ↔ ∀ v ∈ items, ∃ b, writeValue v = .ok b := by
  rw [← exists_writeItems_iff]
  simp only [writeValue, ExceptBind.bind_eq_ok]
  constructor
  · intro h
    obtain ⟨_, body, hbody, -⟩ := h
    exact ⟨body, hbody⟩
  · intro h
    obtain ⟨body, hbody⟩ := h
    exact ⟨_, body, hbody, rfl⟩

/-! ## The slots transcript -/

/-- Slots with the same bytes on the wire: the same slots, or none at all. -/
def SealedSlots.SameOnWire (slots slots' : SealedSlots) : Prop :=
  slots = slots' ∨ slots.length = 0 ∧ slots'.length = 0

theorem exists_writeValue_slotsCbor (slots : SealedSlots) :
    ∃ b, writeValue (slotsCbor slots) = .ok b := by
  cases slots with
  | x25519 slots =>
      apply exists_writeValue_array_iff.mpr
      intro v hv
      obtain ⟨s, -, rfl⟩ := List.mem_map.mp hv
      apply exists_writeValue_map_iff.mpr
      refine ⟨?_, by simp⟩
      show [encodedKey (.text "epk"), encodedKey (.text "wrap")].Nodup
      decide
  | mlkem768X25519 slots =>
      apply exists_writeValue_array_iff.mpr
      intro v hv
      obtain ⟨s, -, rfl⟩ := List.mem_map.mp hv
      apply exists_writeValue_map_iff.mpr
      refine ⟨?_, by simp⟩
      show [encodedKey (.text "kem_ct"), encodedKey (.text "wrap")].Nodup
      decide

theorem exists_writeValue_slotsTranscript (aead kem : String) (nonce : List UInt8)
    (slots : SealedSlots) (hashesHash : FixedBytes 32) :
    ∃ b, writeValue (slotsTranscript aead kem nonce slots hashesHash) = .ok b := by
  apply exists_writeValue_map_iff.mpr
  refine ⟨?_, by simp [exists_writeValue_slotsCbor]⟩
  show [encodedKey (.text "scheme"), encodedKey (.text "path"), encodedKey (.text "aead"),
    encodedKey (.text "kem"), encodedKey (.text "nonce"), encodedKey (.text "slots"),
    encodedKey (.text "hashes_hash")].Nodup
  decide

/-- The slots transcript in canonical order. -/
theorem sortMaps_slotsTranscript (aead kem : String) (nonce : List UInt8) (slots : SealedSlots)
    (hashesHash : FixedBytes 32) :
    sortMaps (slotsTranscript aead kem nonce slots hashesHash) =
      .map [(.text "kem", .text kem), (.text "aead", .text aead), (.text "path", .text "slots"),
        (.text "nonce", .bytes nonce), (.text "slots", sortMaps (slotsCbor slots)),
        (.text "scheme", .unsigned 1), (.text "hashes_hash", .bytes hashesHash.val)] := by
  rfl

/-- A classical slot in canonical order. -/
def X25519Slot.sorted (s : X25519Slot) : CborValue :=
  .map [(.text "epk", .bytes s.epk), (.text "wrap", .bytes s.wrap)]

/-- A hybrid slot in canonical order. -/
def Mlkem768X25519Slot.sorted (s : Mlkem768X25519Slot) : CborValue :=
  .map [(.text "wrap", .bytes s.wrap), (.text "kem_ct", .bytes s.kemCt)]

theorem sortMaps_slotsCbor_x25519 (slots : List X25519Slot) :
    sortMaps (slotsCbor (.x25519 slots)) = .array (slots.map X25519Slot.sorted) := by
  rw [slotsCbor, sortMaps_array, List.map_map]
  rfl

theorem sortMaps_slotsCbor_mlkem768X25519 (slots : List Mlkem768X25519Slot) :
    sortMaps (slotsCbor (.mlkem768X25519 slots)) =
      .array (slots.map Mlkem768X25519Slot.sorted) := by
  rw [slotsCbor, sortMaps_array, List.map_map]
  rfl

theorem X25519Slot.sorted_injective : Function.Injective X25519Slot.sorted := by
  intro s s' h
  cases s with
  | mk epk wrap =>
      cases s' with
      | mk epk' wrap' =>
          simp only [X25519Slot.sorted, CborValue.map.injEq, List.cons.injEq, Prod.mk.injEq,
            CborValue.bytes.injEq, true_and, and_true] at h
          rw [h.1, h.2]

theorem Mlkem768X25519Slot.sorted_injective : Function.Injective Mlkem768X25519Slot.sorted := by
  intro s s' h
  cases s with
  | mk kemCt wrap =>
      cases s' with
      | mk kemCt' wrap' =>
          simp only [Mlkem768X25519Slot.sorted, CborValue.map.injEq, List.cons.injEq,
            Prod.mk.injEq, CborValue.bytes.injEq, true_and, and_true] at h
          rw [h.1, h.2]

/-- A classical slot and a hybrid one differ in their first key. -/
theorem X25519Slot.sorted_ne (s : X25519Slot) (s' : Mlkem768X25519Slot) :
    s.sorted ≠ s'.sorted := by
  simp [X25519Slot.sorted, Mlkem768X25519Slot.sorted]

/-- Lists of slots of the two kinds agree only when there are none. -/
theorem length_eq_zero_of_map_sorted_eq {slots : List X25519Slot}
    {slots' : List Mlkem768X25519Slot}
    (h : slots.map X25519Slot.sorted = slots'.map Mlkem768X25519Slot.sorted) :
    slots.length = 0 ∧ slots'.length = 0 := by
  cases slots with
  | nil =>
      rw [List.map_nil, eq_comm, List.map_eq_nil_iff] at h
      rw [h]
      exact ⟨rfl, rfl⟩
  | cons s slots =>
      cases slots' with
      | nil => simp at h
      | cons s' slots' => exact absurd (List.cons.inj h).1 (s.sorted_ne s')

theorem sameOnWire_of_sortMaps_eq {slots slots' : SealedSlots}
    (h : sortMaps (slotsCbor slots) = sortMaps (slotsCbor slots')) : slots.SameOnWire slots' := by
  cases slots with
  | x25519 slots =>
      cases slots' with
      | x25519 slots' =>
          rw [sortMaps_slotsCbor_x25519, sortMaps_slotsCbor_x25519, CborValue.array.injEq] at h
          exact .inl (congrArg _ (X25519Slot.sorted_injective.list_map h))
      | mlkem768X25519 slots' =>
          rw [sortMaps_slotsCbor_x25519, sortMaps_slotsCbor_mlkem768X25519,
            CborValue.array.injEq] at h
          exact .inr (length_eq_zero_of_map_sorted_eq h)
  | mlkem768X25519 slots =>
      cases slots' with
      | x25519 slots' =>
          rw [sortMaps_slotsCbor_x25519, sortMaps_slotsCbor_mlkem768X25519,
            CborValue.array.injEq] at h
          exact .inr (length_eq_zero_of_map_sorted_eq h.symm).symm
      | mlkem768X25519 slots' =>
          rw [sortMaps_slotsCbor_mlkem768X25519, sortMaps_slotsCbor_mlkem768X25519,
            CborValue.array.injEq] at h
          exact .inl (congrArg _ (Mlkem768X25519Slot.sorted_injective.list_map h))

/-- Equal slots transcripts have equal fields. -/
theorem slotsTranscriptBytes_inj {aead aead' kem kem' : String} {nonce nonce' : List UInt8}
    {slots slots' : SealedSlots} {hashesHash hashesHash' : FixedBytes 32}
    (hfit : LengthsFit (slotsTranscript aead kem nonce slots hashesHash))
    (hfit' : LengthsFit (slotsTranscript aead' kem' nonce' slots' hashesHash'))
    (h : slotsTranscriptBytes aead kem nonce slots hashesHash =
      slotsTranscriptBytes aead' kem' nonce' slots' hashesHash') :
    aead = aead' ∧ kem = kem' ∧ nonce = nonce' ∧ slots.SameOnWire slots' ∧
      hashesHash = hashesHash' := by
  have hsorted := sortMaps_eq_of_encodeDistinct_eq (exists_writeValue_slotsTranscript ..)
    (exists_writeValue_slotsTranscript ..) hfit hfit' h
  rw [sortMaps_slotsTranscript, sortMaps_slotsTranscript] at hsorted
  simp only [CborValue.map.injEq, List.cons.injEq, Prod.mk.injEq, CborValue.text.injEq,
    CborValue.bytes.injEq, true_and, and_true] at hsorted
  obtain ⟨hkem, haead, hnonce, hslots, hhash⟩ := hsorted
  exact ⟨haead, hkem, hnonce, sameOnWire_of_sortMaps_eq hslots, Subtype.ext hhash⟩

/-! ## The passphrase transcript -/

/-- The cost parameters in canonical order. -/
theorem exists_writeValue_params (m t p : UInt64) :
    ∃ b, writeValue (.map [(.text "m", .unsigned m), (.text "t", .unsigned t),
      (.text "p", .unsigned p)]) = .ok b := by
  apply exists_writeValue_map_iff.mpr
  refine ⟨?_, by simp⟩
  show [encodedKey (.text "m"), encodedKey (.text "t"), encodedKey (.text "p")].Nodup
  decide

theorem exists_writeValue_passphraseBlock (alg : String) (salt : List UInt8) (m t p : UInt64) :
    ∃ b, writeValue (.map [(.text "alg", .text alg), (.text "salt", .bytes salt),
      (.text "params", .map [(.text "m", .unsigned m), (.text "t", .unsigned t),
        (.text "p", .unsigned p)]),
      (.text "normalization", .text cardanoPoePwNormProfile)]) = .ok b := by
  apply exists_writeValue_map_iff.mpr
  refine ⟨?_, by simp [exists_writeValue_params]⟩
  show [encodedKey (.text "alg"), encodedKey (.text "salt"), encodedKey (.text "params"),
    encodedKey (.text "normalization")].Nodup
  decide

theorem exists_writeValue_passphraseTranscript (aead : String) (nonce : List UInt8) (alg : String)
    (salt : List UInt8) (m t p : UInt64) (hashesHash : FixedBytes 32) :
    ∃ b, writeValue (passphraseTranscript aead nonce alg salt m t p hashesHash) = .ok b := by
  apply exists_writeValue_map_iff.mpr
  refine ⟨?_, by simp [exists_writeValue_passphraseBlock]⟩
  show [encodedKey (.text "scheme"), encodedKey (.text "path"), encodedKey (.text "aead"),
    encodedKey (.text "nonce"), encodedKey (.text "hashes_hash"),
    encodedKey (.text "passphrase")].Nodup
  decide

/-- The passphrase transcript in canonical order. -/
theorem sortMaps_passphraseTranscript (aead : String) (nonce : List UInt8) (alg : String)
    (salt : List UInt8) (m t p : UInt64) (hashesHash : FixedBytes 32) :
    sortMaps (passphraseTranscript aead nonce alg salt m t p hashesHash) =
      .map [(.text "aead", .text aead), (.text "path", .text "passphrase"),
        (.text "nonce", .bytes nonce), (.text "scheme", .unsigned 1),
        (.text "passphrase", .map [(.text "alg", .text alg), (.text "salt", .bytes salt),
          (.text "params", .map [(.text "m", .unsigned m), (.text "p", .unsigned p),
            (.text "t", .unsigned t)]),
          (.text "normalization", .text cardanoPoePwNormProfile)]),
        (.text "hashes_hash", .bytes hashesHash.val)] := by
  rfl

/-- Equal passphrase transcripts have equal fields. -/
theorem passphraseTranscriptBytes_inj {aead aead' alg alg' : String}
    {nonce nonce' salt salt' : List UInt8} {m m' t t' p p' : UInt64}
    {hashesHash hashesHash' : FixedBytes 32}
    (hfit : LengthsFit (passphraseTranscript aead nonce alg salt m t p hashesHash))
    (hfit' : LengthsFit (passphraseTranscript aead' nonce' alg' salt' m' t' p' hashesHash'))
    (h : passphraseTranscriptBytes aead nonce alg salt m t p hashesHash =
      passphraseTranscriptBytes aead' nonce' alg' salt' m' t' p' hashesHash') :
    aead = aead' ∧ nonce = nonce' ∧ alg = alg' ∧ salt = salt' ∧ m = m' ∧ t = t' ∧ p = p' ∧
      hashesHash = hashesHash' := by
  have hsorted := sortMaps_eq_of_encodeDistinct_eq (exists_writeValue_passphraseTranscript ..)
    (exists_writeValue_passphraseTranscript ..) hfit hfit' h
  rw [sortMaps_passphraseTranscript, sortMaps_passphraseTranscript] at hsorted
  simp only [CborValue.map.injEq, List.cons.injEq, Prod.mk.injEq, CborValue.text.injEq,
    CborValue.bytes.injEq, CborValue.unsigned.injEq, true_and, and_true] at hsorted
  obtain ⟨haead, hnonce, ⟨halg, hsalt, hm, hp, ht⟩, hhash⟩ := hsorted
  exact ⟨haead, hnonce, halg, hsalt, hm, ht, hp, Subtype.ext hhash⟩

/-- The two transcripts differ in the first key. -/
theorem slotsTranscriptBytes_ne {aead aead' kem alg : String} {nonce nonce' salt : List UInt8}
    {slots : SealedSlots} {m t p : UInt64} {hashesHash hashesHash' : FixedBytes 32}
    (hfit : LengthsFit (slotsTranscript aead kem nonce slots hashesHash))
    (hfit' : LengthsFit (passphraseTranscript aead' nonce' alg salt m t p hashesHash')) :
    slotsTranscriptBytes aead kem nonce slots hashesHash ≠
      passphraseTranscriptBytes aead' nonce' alg salt m t p hashesHash' := by
  intro h
  have hsorted := sortMaps_eq_of_encodeDistinct_eq (exists_writeValue_slotsTranscript ..)
    (exists_writeValue_passphraseTranscript ..) hfit hfit' h
  rw [sortMaps_slotsTranscript, sortMaps_passphraseTranscript] at hsorted
  simp at hsorted

/-! ## The content hashes -/

/-- An entry of the map on the wire. -/
def hashEntryCbor (entry : String × List UInt8) : CborValue × CborValue :=
  (.text entry.1, .bytes entry.2)

theorem hashEntryCbor_injective : Function.Injective hashEntryCbor := by
  intro a b h
  simp only [hashEntryCbor, Prod.mk.injEq, CborValue.text.injEq, CborValue.bytes.injEq] at h
  exact Prod.ext h.1 h.2

theorem LengthsFit.key {pairs : List (CborValue × CborValue)} (h : LengthsFit (.map pairs))
    {p : CborValue × CborValue} (hp : p ∈ pairs) : LengthsFit p.1 := by
  cases h with
  | map _ hkeys _ => exact hkeys p hp

/-- The keys of a map of content hashes are distinct, and so are their bytes. -/
theorem exists_writeValue_itemHashesCbor {hashes : ContentHashMap}
    (hfit : LengthsFit (itemHashesCbor hashes)) :
    ∃ b, writeValue (itemHashesCbor hashes) = .ok b := by
  apply exists_writeValue_map_iff.mpr
  constructor
  · rw [List.map_map, List.Nodup, List.pairwise_map]
    apply hashes.sorted.imp_of_mem
    intro a b ha hb hlt heq
    have hkey := encodedKey_text_inj (hfit.key (List.mem_map_of_mem ha))
      (hfit.key (List.mem_map_of_mem hb)) heq
    exact absurd hkey hlt.ne
  · intro p hp
    obtain ⟨entry, -, rfl⟩ := List.mem_map.mp hp
    exact ⟨exists_writeValue_text _, exists_writeValue_bytes _⟩

theorem sortMaps_itemHashesCbor (hashes : ContentHashMap) :
    sortMaps (itemHashesCbor hashes) = .map (sortEntries (hashes.entries.map hashEntryCbor)) := by
  rw [itemHashesCbor, sortMaps_map, List.map_map]
  rfl

/-- Two maps with the same entries in some order are the same map. -/
theorem ContentHashMap.ext_of_perm {hashes hashes' : ContentHashMap}
    (h : hashes.entries.Perm hashes'.entries) : hashes = hashes' := by
  have hentries : hashes.entries = hashes'.entries := by
    apply h.eq_of_pairwise _ hashes.sorted hashes'.sorted
    intro a b _ _ hab hba
    exact absurd hba hab.asymm
  cases hashes
  cases hashes'
  simp_all

/-- The bytes under the digest of the content hashes determine the map. -/
theorem itemHashesCbor_inj {hashes hashes' : ContentHashMap}
    (hfit : LengthsFit (itemHashesCbor hashes)) (hfit' : LengthsFit (itemHashesCbor hashes'))
    (h : encodeDistinct (itemHashesCbor hashes) = encodeDistinct (itemHashesCbor hashes')) :
    hashes = hashes' := by
  have hsorted := sortMaps_eq_of_encodeDistinct_eq (exists_writeValue_itemHashesCbor hfit)
    (exists_writeValue_itemHashesCbor hfit') hfit hfit' h
  rw [sortMaps_itemHashesCbor, sortMaps_itemHashesCbor, CborValue.map.injEq] at hsorted
  have hperm : (hashes.entries.map hashEntryCbor).Perm (hashes'.entries.map hashEntryCbor) := by
    have hleft : (sortEntries (hashes.entries.map hashEntryCbor)).Perm _ := perm_sortBy _
    rw [hsorted] at hleft
    exact hleft.symm.trans (perm_sortBy _)
  exact ContentHashMap.ext_of_perm ((List.map_perm_map_iff hashEntryCbor_injective).mp hperm)

end Label309
