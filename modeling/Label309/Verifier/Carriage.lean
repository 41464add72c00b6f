import Label309.Verifier.ItemExtent

/-!
# Carriage extraction

A transaction with a published record, in each of the three auxiliary-data forms,
sliced and reassembled to the body that was published.
-/
namespace Label309
open BigEndian ByteReader CborWire ExceptBind

/-! ## The shape of a publishing transaction -/

/-- A transaction of three or four elements with its body, witness set and
auxiliary data. -/
inductive TxShape : Item → Item → Item → Item → Prop
  | three (w : Width) (body witnessSet aux : Item) :
      TxShape (.array w [body, witnessSet, aux]) body witnessSet aux
  | four (w : Width) (body witnessSet isValid aux : Item) :
      TxShape (.array w [body, witnessSet, isValid, aux]) body witnessSet aux

/-- Auxiliary data in one of its three envelope forms, around these metadata entries. -/
inductive AuxForm : Item → List (Item × Item) → Prop
  | bare (w : Width) (entries : List (Item × Item)) : AuxForm (.map w entries) entries
  | withScripts (w wm : Width) (entries : List (Item × Item)) (scripts : Item) :
      AuxForm (.array w [.map wm entries, scripts]) entries
  | tagged (wt wi wk wm : Width) (before after entries : List (Item × Item)) :
      (∀ p ∈ after, ∀ w, p.1 ≠ .unsigned w 0) →
      AuxForm (.tag wt 259 (.map wi (before ++ (.unsigned wk 0, .map wm entries) :: after))) entries

/-- A metadata entry under an integer label other than 309. -/
def ForeignEntry (p : Item × Item) : Prop := ∃ w n, p.1 = .unsigned w n ∧ n ≠ poeLabel

/-- Metadata entries with exactly one under label 309. -/
inductive Label309Once : List (Item × Item) → Item → Prop
  | intro (wk : Width) (before after : List (Item × Item)) (value : Item) :
      (∀ p ∈ before, ForeignEntry p) → (∀ p ∈ after, ForeignEntry p) →
      Label309Once (before ++ (.unsigned wk 309, value) :: after) value

/-- A chunk array over these chunks, each with the head width chosen for it. -/
def chunkArray (w : Width) (chunks : List (Width × List UInt8)) : Item :=
  .array w (chunks.map fun c => .bytes c.1 c.2)

/-! ## Slicing -/

theorem AuxForm.firstByte {aux : Item} {entries : List (Item × Item)} (h : AuxForm aux entries)
    (hwf : aux.WellFormed) :
    ∃ b bs, aux.encode = b :: bs ∧ b ≠ 0xf6 ∧ b ≠ 0xf7 := by
  have hne (major : ℕ) (hm : major < 7) {w : Width} {n : ℕ} (hn : n < w.bound) :
      UInt8.ofNat (major * 32 + w.info n) ≠ 0xf6 ∧
        UInt8.ofNat (major * 32 + w.info n) ≠ 0xf7 := by
    have hinfo := Width.info_lt hn
    constructor <;>
    · intro heq
      have hval := congrArg UInt8.toNat heq
      rw [UInt8.toNat_ofNat_of_lt' (by simp only [UInt8.size]; omega)] at hval
      simp only [UInt8.reduceToNat] at hval
      omega
  cases h with
  | bare => exact ⟨_, _, rfl, hne 5 (by decide) (Item.wellFormed_map.mp hwf).1⟩
  | withScripts => exact ⟨_, _, rfl, hne 4 (by decide) (Item.wellFormed_array.mp hwf).1⟩
  | tagged => exact ⟨_, _, rfl, hne 6 (by decide) (Item.wellFormed_tag.mp hwf).1⟩

/-- An item the walker steps over exactly. -/
structure Walkable (item : Item) : Prop where
  wellFormed : item.WellFormed
  noTwoByteSimple : ¬ HasTwoByteSimple item

theorem Walkable.skip {item : Item} (h : Walkable item) {data : List UInt8} {pos : ℕ}
    (hat : StandsAt item.encode data pos) :
    skipCborItem data pos = .ok (pos + item.encode.length) :=
  skipCborItem_of_standsAt h.wellFormed h.noTwoByteSimple hat

theorem Walkable.of_array {w : Width} {items : List Item} (h : Walkable (.array w items)) :
    ∀ it ∈ items, Walkable it := by
  have hno := h.noTwoByteSimple
  simp only [hasTwoByteSimple_array, not_exists, not_and] at hno
  exact fun it hit => ⟨(Item.wellFormed_array.mp h.wellFormed).2 it hit, hno it hit⟩

theorem Walkable.of_map {w : Width} {pairs : List (Item × Item)} (h : Walkable (.map w pairs)) :
    ∀ p ∈ pairs, Walkable p.1 ∧ Walkable p.2 := by
  have hno := h.noTwoByteSimple
  simp only [hasTwoByteSimple_map, not_exists, not_and, not_or] at hno
  intro p hp
  obtain ⟨hkey, hval⟩ := (Item.wellFormed_map.mp h.wellFormed).2 p hp
  exact ⟨⟨hkey, (hno p hp).1⟩, hval, (hno p hp).2⟩

theorem Walkable.of_tag {w : Width} {n : ℕ} {item : Item} (h : Walkable (.tag w n item)) :
    Walkable item :=
  ⟨(Item.wellFormed_tag.mp h.wellFormed).2, by simpa using h.noTwoByteSimple⟩

theorem sliceAuxData_of_standsAt {aux : Item} {entries : List (Item × Item)}
    (haux : AuxForm aux entries) (hwalk : Walkable aux) {txCbor : List UInt8} {pos : ℕ}
    (hat : StandsAt aux.encode txCbor pos) :
    sliceAuxData txCbor pos = .ok (some aux.encode) := by
  obtain ⟨b, bs, hbytes, hf6, hf7⟩ := haux.firstByte hwalk.wellFormed
  have hfirst : txCbor[pos]? = some b := StandsAt.getElem? (hbytes ▸ hat)
  simp [sliceAuxData, hfirst, hf6, hf7, hwalk.skip hat, slice_of_standsAt hat rfl]

/-- Slicing, given where auxiliary data begins and what its slice is. -/
theorem sliceTx_of_standsAt {txCbor tail auxData : List UInt8} {w : Width} {n : ℕ}
    (hn : n < w.bound) (hcount : n = 3 ∨ n = 4) {body witnessSet : Item}
    (hbody : Walkable body) (hwitness : Walkable witnessSet)
    (hat : StandsAt (head 4 w n ++ (body.encode ++ (witnessSet.encode ++ tail))) txCbor 0)
    {auxStart : ℕ} (hstart : auxDataStart txCbor n
      (1 + w.size + body.encode.length + witnessSet.encode.length) = .ok auxStart)
    (haux : sliceAuxData txCbor auxStart = .ok (some auxData)) :
    sliceTx txCbor = .ok ⟨body.encode, witnessSet.encode, some auxData⟩ := by
  have hread := readHead_of_standsAt (by decide) hn hat.left
  have hatBody := hat.right.left
  have hatWitness := hat.right.right.left
  simp only [length_head, Nat.zero_add] at hread hatBody hatWitness
  have hnotCount : ¬ (n ≠ 3 ∧ n ≠ 4) := by omega
  simp only [sliceTx, hread, ok_bind, ne_eq, not_true_eq_false, if_false, hnotCount,
    hbody.skip hatBody, hwitness.skip hatWitness, hstart, haux,
    slice_of_standsAt hatBody rfl, slice_of_standsAt hatWitness rfl]

/-- The slices of a transaction are the spans of its items. -/
theorem sliceTx_of_shape {tx body witnessSet aux : Item} {entries : List (Item × Item)}
    (hshape : TxShape tx body witnessSet aux) (haux : AuxForm aux entries) (hwalk : Walkable tx) :
    sliceTx tx.encode = .ok ⟨body.encode, witnessSet.encode, some aux.encode⟩ := by
  cases hshape with
  | three w =>
      have hitems := hwalk.of_array
      have hlen := (Item.wellFormed_array.mp hwalk.wellFormed).1
      have henc : (Item.array w [body, witnessSet, aux]).encode =
          head 4 w 3 ++ (body.encode ++ (witnessSet.encode ++ aux.encode)) := by
        simp [Item.encode, Item.encodeItems]
      have hat := StandsAt.whole (Item.array w [body, witnessSet, aux]).encode
      nth_rewrite 1 [henc] at hat
      have hatAux := hat.right.right.right
      simp only [length_head, Nat.zero_add] at hatAux
      exact sliceTx_of_standsAt hlen (.inl rfl) (hitems _ (by simp)) (hitems _ (by simp)) hat rfl
        (sliceAuxData_of_standsAt haux (hitems _ (by simp)) hatAux)
  | four w body witnessSet isValid =>
      have hitems := hwalk.of_array
      have hlen := (Item.wellFormed_array.mp hwalk.wellFormed).1
      have henc : (Item.array w [body, witnessSet, isValid, aux]).encode =
          head 4 w 4 ++ (body.encode ++ (witnessSet.encode ++ (isValid.encode ++ aux.encode))) := by
        simp [Item.encode, Item.encodeItems]
      have hat := StandsAt.whole (Item.array w [body, witnessSet, isValid, aux]).encode
      nth_rewrite 1 [henc] at hat
      have hatValid := hat.right.right.right.left
      have hatAux := hat.right.right.right.right
      simp only [length_head, Nat.zero_add] at hatValid hatAux
      exact sliceTx_of_standsAt hlen (.inr rfl) (hitems _ (by simp)) (hitems _ (by simp)) hat
        ((hitems isValid (by simp)).skip hatValid)
        (sliceAuxData_of_standsAt haux (hitems _ (by simp)) hatAux)

/-! ## Unwrapping -/

/-- One step of the search for key 0. -/
theorem findKeyZero_succ {aux : List UInt8} {p : Item × Item} (hkey : Walkable p.1)
    (hval : Walkable p.2) {pos : ℕ} (hat : StandsAt (Item.encodePair p) aux pos) (n : ℕ)
    (found : Option ℕ) :
    findKeyZero aux (n + 1) pos found =
      findKeyZero aux n (pos + (Item.encodePair p).length)
        (if p.1.major = 0 ∧ p.1.argument = 0 then some (pos + p.1.encode.length) else found) := by
  have hread := readHead_of_item hkey.wellFormed hat.left
  rw [Item.encodePair, List.length_append, ← Nat.add_assoc]
  simp only [findKeyZero, hread, ok_bind, hkey.skip hat.left, hval.skip hat.right]

theorem findKeyZero_append {aux : List UInt8} {before : List (Item × Item)}
    (hwalk : ∀ p ∈ before, Walkable p.1 ∧ Walkable p.2) {pos : ℕ}
    (hat : StandsAt (before.flatMap Item.encodePair) aux pos) (n : ℕ) (found : Option ℕ) :
    ∃ found', findKeyZero aux (before.length + n) pos found =
      findKeyZero aux n (pos + (before.flatMap Item.encodePair).length) found' := by
  induction before generalizing pos found with
  | nil => exact ⟨found, by simp⟩
  | cons p before ih =>
      obtain ⟨⟨hkey, hval⟩, hrest⟩ := List.forall_mem_cons.mp hwalk
      rw [List.flatMap_cons] at hat ⊢
      have hstep := findKeyZero_succ hkey hval hat.left (before.length + n) found
      obtain ⟨found', hfound⟩ := ih hrest hat.right _
      refine ⟨found', ?_⟩
      rw [List.length_cons, Nat.add_right_comm, hstep, hfound, List.length_append, Nat.add_assoc]

/-- Entries with other keys leave the offset found as it is. -/
theorem findKeyZero_of_ne {aux : List UInt8} {after : List (Item × Item)}
    (hwalk : ∀ p ∈ after, Walkable p.1 ∧ Walkable p.2)
    (hne : ∀ p ∈ after, ∀ w, p.1 ≠ .unsigned w 0) {pos : ℕ}
    (hat : StandsAt (after.flatMap Item.encodePair) aux pos) (found : Option ℕ) :
    findKeyZero aux after.length pos found = .ok found := by
  induction after generalizing pos with
  | nil => rfl
  | cons p after ih =>
      obtain ⟨⟨hkey, hval⟩, hrest⟩ := List.forall_mem_cons.mp hwalk
      obtain ⟨hp, hne'⟩ := List.forall_mem_cons.mp hne
      rw [List.flatMap_cons] at hat
      have hother : ¬ (p.1.major = 0 ∧ p.1.argument = 0) := by
        rintro ⟨hmajor, harg⟩
        cases hitem : p.1 with
        | unsigned w n =>
            rw [hitem] at harg
            exact hp w (by rw [hitem]; congr)
        | _ => rw [hitem] at hmajor; cases hmajor
      rw [List.length_cons, findKeyZero_succ hkey hval hat.left, if_neg hother]
      exact ih hrest hne' hat.right

/-- The search finds the value of the last key 0. -/
theorem findKeyZero_of_last {data : List UInt8} {wk : Width} {value : Item}
    {before after : List (Item × Item)}
    (hwalk : ∀ p ∈ before ++ (.unsigned wk 0, value) :: after, Walkable p.1 ∧ Walkable p.2)
    (hafter : ∀ p ∈ after, ∀ w, p.1 ≠ .unsigned w 0) {pos : ℕ}
    (hat : StandsAt ((before ++ (.unsigned wk 0, value) :: after).flatMap Item.encodePair) data pos) :
    ∃ valuePos, findKeyZero data (before ++ (.unsigned wk 0, value) :: after).length pos none =
        .ok (some valuePos) ∧ StandsAt value.encode data valuePos := by
  rw [List.flatMap_append, List.flatMap_cons] at hat
  obtain ⟨found, hfound⟩ := findKeyZero_append (fun p hp => hwalk p (by simp [hp])) hat.left
    (after.length + 1) none
  obtain ⟨hkey, hval⟩ := hwalk (.unsigned wk 0, value) (by simp)
  refine ⟨_, ?_, hat.right.left.right⟩
  rw [List.length_append, List.length_cons, hfound, findKeyZero_succ hkey hval hat.right.left]
  exact findKeyZero_of_ne (fun p hp => hwalk p (by simp [hp])) hafter hat.right.right _

/-- In each envelope form the metadata map is found where it stands. -/
theorem metadataMapPos_of_form {aux : Item} {entries : List (Item × Item)}
    (hform : AuxForm aux entries) (hwalk : Walkable aux) {data : List UInt8}
    (hat : StandsAt aux.encode data 0) :
    ∃ pos wm, metadataMapPos data ⟨aux.major, aux.width.info aux.argument,
        0 + (1 + aux.width.size), aux.argument⟩ = .ok (some pos) ∧
      Walkable (.map wm entries) ∧ StandsAt (Item.map wm entries).encode data pos := by
  cases hform with
  | bare w => exact ⟨0, w, rfl, hwalk, hat⟩
  | withScripts w wm entries scripts =>
      rw [Item.encode, Item.encodeItems] at hat
      have hmeta := hat.right.left
      rw [length_head] at hmeta
      exact ⟨_, wm, rfl, hwalk.of_array _ (by simp), hmeta⟩
  | tagged wt wi wk wm before after entries hafter =>
      have hwalkMap := hwalk.of_tag
      have hpairs := hwalkMap.of_map
      rw [Item.encode] at hat
      have hmap := hat.right
      have hread := readHead_of_item hwalkMap.wellFormed hmap
      rw [Item.encode, Item.encodePairs_eq] at hmap
      obtain ⟨pos, hfound, hmeta⟩ := findKeyZero_of_last hpairs hafter hmap.right
      simp only [length_head] at hread hfound
      refine ⟨pos, wm, ?_, (hpairs (.unsigned wk 0, .map wm entries) (by simp)).2, hmeta⟩
      change (readHead data (0 + (1 + wt.size)) >>= _) = _
      rw [hread, ok_bind]
      exact hfound

/-- One step of the metadata walk. -/
theorem walkMetadata_succ {aux : List UInt8} {p : Item × Item} (hkey : Walkable p.1)
    (hval : Walkable p.2) {w : Width} {label : ℕ} (hp : p.1 = .unsigned w label) {pos : ℕ}
    (hat : StandsAt (Item.encodePair p) aux pos) (n : ℕ) (acc : UnwrappedAux) :
    walkMetadata aux (n + 1) pos acc = walkMetadata aux n (pos + (Item.encodePair p).length)
      ⟨if label = poeLabel then some p.2.encode else acc.label309Value, acc.labels ++ [label]⟩ := by
  have hread := readHead_of_item hkey.wellFormed hat.left
  have hmajor : p.1.major = 0 := by rw [hp]; rfl
  have hlabel : p.1.argument = label := by rw [hp]; rfl
  rw [Item.encodePair, List.length_append, ← Nat.add_assoc]
  simp only [walkMetadata, hread, ok_bind, hkey.skip hat.left, hval.skip hat.right, hmajor, hlabel,
    ne_eq, not_true_eq_false, if_false, slice_of_standsAt hat.right rfl]

/-- Foreign metadata entries only add their labels. -/
theorem walkMetadata_foreign {aux : List UInt8} {es : List (Item × Item)}
    (hwalk : ∀ p ∈ es, Walkable p.1 ∧ Walkable p.2) (hforeign : ∀ p ∈ es, ForeignEntry p) {pos : ℕ}
    (hat : StandsAt (es.flatMap Item.encodePair) aux pos) (n : ℕ) (acc : UnwrappedAux) :
    ∃ labels, walkMetadata aux (es.length + n) pos acc =
      walkMetadata aux n (pos + (es.flatMap Item.encodePair).length) ⟨acc.label309Value, labels⟩ := by
  induction es generalizing pos acc with
  | nil => exact ⟨acc.labels, by simp⟩
  | cons p es ih =>
      obtain ⟨⟨hkey, hval⟩, hrest⟩ := List.forall_mem_cons.mp hwalk
      obtain ⟨⟨w, label, hp, hne⟩, hforeign'⟩ := List.forall_mem_cons.mp hforeign
      rw [List.flatMap_cons] at hat ⊢
      have hstep := walkMetadata_succ hkey hval hp hat.left (es.length + n) acc
      rw [if_neg hne] at hstep
      obtain ⟨labels, hlabels⟩ := ih hrest hforeign' hat.right ⟨acc.label309Value, acc.labels ++ [label]⟩
      refine ⟨labels, ?_⟩
      rw [List.length_cons, Nat.add_right_comm, hstep, hlabels, List.length_append, Nat.add_assoc]

/-- Unwrapping gives the bytes of the value under label 309. -/
theorem unwrapAuxiliaryData_of_form {aux value : Item} {entries : List (Item × Item)}
    (hform : AuxForm aux entries) (honce : Label309Once entries value) (hwalk : Walkable aux) :
    ∃ labels, unwrapAuxiliaryData aux.encode = .ok ⟨some value.encode, labels⟩ := by
  have hat := StandsAt.whole aux.encode
  have hread := readHead_of_item hwalk.wellFormed hat
  have hskip := hwalk.skip hat
  obtain ⟨pos, wm, hpos, hmeta, hatMeta⟩ := metadataMapPos_of_form hform hwalk hat
  have hreadMeta : readHead aux.encode pos = .ok ⟨5, wm.info entries.length,
      pos + (1 + wm.size), entries.length⟩ := readHead_of_item hmeta.wellFormed hatMeta
  have hpairs := hmeta.of_map
  cases honce with
  | intro wk before after value hbefore hafter =>
      rw [Item.encode, Item.encodePairs_eq, List.flatMap_append, List.flatMap_cons] at hatMeta
      have hentries := hatMeta.right
      simp only [length_head] at hentries
      obtain ⟨hkey, hval⟩ := hpairs (.unsigned wk 309, value) (by simp)
      obtain ⟨labels, hwalked⟩ := walkMetadata_foreign (fun p hp => hpairs p (by simp [hp])) hbefore
        hentries.left (after.length + 1) ⟨none, []⟩
      have hstep := walkMetadata_succ hkey hval rfl hentries.right.left after.length ⟨none, labels⟩
      obtain ⟨labels', hrest⟩ := walkMetadata_foreign (fun p hp => hpairs p (by simp [hp])) hafter
        hentries.right.right 0 ⟨some value.encode, labels ++ [309]⟩
      have hall : walkMetadata aux.encode (before ++ (.unsigned wk 309, value) :: after).length
          (pos + (1 + wm.size)) ⟨none, []⟩ = .ok ⟨some value.encode, labels'⟩ := by
        rw [List.length_append, List.length_cons, hwalked, hstep]
        exact hrest
      refine ⟨labels'.insertionSort (· ≤ ·), ?_⟩
      rw [Nat.zero_add] at hskip
      simp only [unwrapAuxiliaryData, hread, ok_bind, hskip, ne_eq, not_true_eq_false, if_false,
        hpos, hreadMeta, hall]

/-! ## Reassembly -/

/-- The chunks of a chunk array as items. -/
abbrev chunkItem (c : Width × List UInt8) : Item := .bytes c.1 c.2

theorem readHead_of_chunk {c : Width × List UInt8} (hwf : (chunkItem c).WellFormed)
    {value : List UInt8} {pos : ℕ} (hat : StandsAt (chunkItem c).encode value pos) :
    readHead value pos = .ok ⟨2, c.1.info c.2.length, pos + (1 + c.1.size), c.2.length⟩ ∧
      StandsAt c.2 value (pos + (1 + c.1.size)) := by
  refine ⟨readHead_of_item hwf hat, ?_⟩
  rw [Item.encode] at hat
  simpa using hat.right

/-- Chunks within the cap are concatenated in order. -/
theorem readChunks_of_le {value : List UInt8} {chunks : List (Width × List UInt8)}
    (hwf : ∀ c ∈ chunks, (chunkItem c).WellFormed)
    (hle : ∀ c ∈ chunks, c.2.length ≤ transportChunkMaxBytes) {pos : ℕ}
    (hat : StandsAt (chunks.flatMap fun c => (chunkItem c).encode) value pos) (i : ℕ) :
    readChunks value chunks.length i pos =
      .ok (chunks.flatMap Prod.snd,
        pos + (chunks.flatMap fun c => (chunkItem c).encode).length) := by
  induction chunks generalizing pos i with
  | nil => rfl
  | cons c chunks ih =>
      obtain ⟨hwfc, hwf'⟩ := List.forall_mem_cons.mp hwf
      obtain ⟨hlec, hle'⟩ := List.forall_mem_cons.mp hle
      rw [List.flatMap_cons] at hat
      obtain ⟨hread, hpayload⟩ := readHead_of_chunk hwfc hat.left
      have hrest := ih hwf' hle' hat.right (i + 1)
      have hstop := hpayload.le_length
      have hlen : (chunkItem c).encode.length = 1 + c.1.size + c.2.length := by
        rw [Item.encode, List.length_append, length_head]
      rw [hlen, ← Nat.add_assoc] at hrest
      rw [List.flatMap_cons, List.flatMap_cons, List.length_append, hlen]
      simp only [List.length_cons, readChunks, hread, ok_bind, ne_eq, not_true_eq_false, if_false,
        Nat.not_lt.mpr hlec, Nat.not_lt.mpr hstop, hrest, slice_of_standsAt hpayload rfl]
      simp only [Nat.add_assoc]

/-- A chunk over the cap is refused as such, whatever stands before it. -/
theorem readChunks_of_exists_gt {value : List UInt8} {chunks : List (Width × List UInt8)}
    (hwf : ∀ c ∈ chunks, (chunkItem c).WellFormed)
    (hgt : ∃ c ∈ chunks, transportChunkMaxBytes < c.2.length) {pos : ℕ}
    (hat : StandsAt (chunks.flatMap fun c => (chunkItem c).encode) value pos) (i : ℕ) :
    ∃ message, readChunks value chunks.length i pos = .error (.chunkTooLarge message) := by
  induction chunks generalizing pos i with
  | nil => simp at hgt
  | cons c chunks ih =>
      obtain ⟨hwfc, hwf'⟩ := List.forall_mem_cons.mp hwf
      rw [List.flatMap_cons] at hat
      obtain ⟨hread, hpayload⟩ := readHead_of_chunk hwfc hat.left
      by_cases hc : transportChunkMaxBytes < c.2.length
      · simp only [List.length_cons, readChunks, hread, ok_bind, ne_eq, not_true_eq_false, if_false,
          hc, if_true]
        exact ⟨_, rfl⟩
      · have hgt' : ∃ c ∈ chunks, transportChunkMaxBytes < c.2.length := by
          simpa [hc] using hgt
        obtain ⟨message, hrest⟩ := ih hwf' hgt' hat.right (i + 1)
        have hlen : (chunkItem c).encode.length = 1 + c.1.size + c.2.length := by
          rw [Item.encode, List.length_append, length_head]
        rw [hlen, ← Nat.add_assoc] at hrest
        refine ⟨message, ?_⟩
        simp only [List.length_cons, readChunks, hread, ok_bind, ne_eq, not_true_eq_false, if_false,
          hc, Nat.not_lt.mpr hpayload.le_length, hrest, error_bind]

/-- A chunk array reassembles to its concatenation, or is refused for a chunk over the cap. -/
theorem reassembleLabel309Value_of_chunkArray {w : Width} {chunks : List (Width × List UInt8)}
    (hwf : (chunkArray w chunks).WellFormed) :
    ((∀ c ∈ chunks, c.2.length ≤ transportChunkMaxBytes) →
        reassembleLabel309Value (chunkArray w chunks).encode = .ok (chunks.flatMap Prod.snd)) ∧
      ((∃ c ∈ chunks, transportChunkMaxBytes < c.2.length) →
        ∃ message, reassembleLabel309Value (chunkArray w chunks).encode =
          .error (.chunkTooLarge message)) := by
  have hat := StandsAt.whole (chunkArray w chunks).encode
  have hread : readHead (chunkArray w chunks).encode 0 = .ok ⟨4,
      w.info (chunks.map fun c => chunkItem c).length, 0 + (1 + w.size),
      (chunks.map fun c => chunkItem c).length⟩ := readHead_of_item hwf hat
  have henc : (chunkArray w chunks).encode = head 4 w (chunks.map fun c => chunkItem c).length ++
      chunks.flatMap fun c => (chunkItem c).encode := by
    rw [chunkArray, Item.encode, Item.encodeItems_eq, List.flatMap_map]
  have hchunks : ∀ c ∈ chunks, (chunkItem c).WellFormed :=
    fun c hc => (Item.wellFormed_array.mp hwf).2 _ (List.mem_map.mpr ⟨c, hc, rfl⟩)
  nth_rewrite 1 [henc] at hat
  have hatChunks := hat.right
  rw [List.length_map, Nat.zero_add] at hread
  rw [length_head, Nat.zero_add] at hatChunks
  constructor
  · intro hle
    have hlen := congrArg List.length henc
    rw [List.length_append, length_head] at hlen
    simp only [reassembleLabel309Value, hread, ok_bind, ne_eq, not_true_eq_false, if_false,
      readChunks_of_le hchunks hle hatChunks, hlen]
  · intro hgt
    obtain ⟨message, herr⟩ := readChunks_of_exists_gt hchunks hgt hatChunks 0
    refine ⟨message, ?_⟩
    simp only [reassembleLabel309Value, hread, ok_bind, ne_eq, not_true_eq_false, if_false, herr,
      error_bind]

/-- **Extraction returns exactly the published body** when the transaction has no
two-byte simple value: the slices are the spans of its items, the body is the chunks
in order, and a chunk over the cap is refused as too large. -/
theorem extract_of_published {tx body witnessSet aux : Item} {entries : List (Item × Item)}
    {w : Width} {chunks : List (Width × List UInt8)} (hshape : TxShape tx body witnessSet aux)
    (hform : AuxForm aux entries) (honce : Label309Once entries (chunkArray w chunks))
    (hwf : tx.WellFormed) (hno : ¬ HasTwoByteSimple tx) :
    sliceTx tx.encode = .ok ⟨body.encode, witnessSet.encode, some aux.encode⟩ ∧
      ((∀ c ∈ chunks, c.2.length ≤ transportChunkMaxBytes) →
        extractLabel309Metadata tx.encode = .ok (some (chunks.flatMap Prod.snd))) ∧
      ((∃ c ∈ chunks, transportChunkMaxBytes < c.2.length) →
        ∃ message, extractLabel309Metadata tx.encode = .error (.chunkTooLarge message)) := by
  have hslices := sliceTx_of_shape hshape hform ⟨hwf, hno⟩
  have hwalkAux : Walkable aux := by
    cases hshape <;> exact Walkable.of_array ⟨hwf, hno⟩ aux (by simp)
  obtain ⟨labels, hunwrap⟩ := unwrapAuxiliaryData_of_form hform honce hwalkAux
  have hwfValue : (chunkArray w chunks).WellFormed := by
    obtain ⟨-, wm, -, hmeta, -⟩ := metadataMapPos_of_form hform hwalkAux (.whole _)
    cases honce with
    | intro wk before after =>
        exact (hmeta.of_map (.unsigned wk 309, chunkArray w chunks) (by simp)).2.wellFormed
  obtain ⟨hok, herr⟩ := reassembleLabel309Value_of_chunkArray hwfValue
  refine ⟨hslices, fun hle => ?_, fun hgt => ?_⟩
  · simp only [extractLabel309Metadata, hslices, ok_bind, hunwrap, hok hle]
  · obtain ⟨message, hmessage⟩ := herr hgt
    refine ⟨message, ?_⟩
    simp only [extractLabel309Metadata, hslices, ok_bind, hunwrap, hmessage, error_bind]

/-- A transaction publishing `aa bb` in two chunks, the first of them empty. -/
theorem extract_of_published_sample :
    extractLabel309Metadata
        [0x83, 0xa0, 0xa0, 0xa1, 0x19, 0x01, 0x35, 0x82, 0x40, 0x42, 0xaa, 0xbb] =
      .ok (some [0xaa, 0xbb]) := by
  refine (extract_of_published (.three .inline (.map .inline []) (.map .inline []) _)
    (.bare .inline _) (.intro .two [] [] (chunkArray .inline [(.inline, []), (.inline, [0xaa, 0xbb])])
      (by simp) (by simp)) ?_ ?_).2.1 (by decide)
  · simp [chunkArray, Width.bound, Width.size]
  · simp [chunkArray]

/-- A foreign label whose value is the two-byte simple value `f8 20`: the walk shifts by
one byte and the record published under label 309 after it is lost. -/
theorem extract_of_published_counterexample :
    let chunks : List (Width × List UInt8) := [(.inline, [0xaa])]
    let entries : List (Item × Item) := [(.unsigned .inline 0, .primitive .one 32),
      (.unsigned .two 309, chunkArray .inline chunks)]
    let tx : Item := .array .inline [.map .inline [], .map .inline [], .map .inline entries]
    TxShape tx (.map .inline []) (.map .inline []) (.map .inline entries) ∧
      AuxForm (.map .inline entries) entries ∧
      Label309Once entries (chunkArray .inline chunks) ∧ tx.WellFormed ∧
      tx.encode = [0x83, 0xa0, 0xa0, 0xa2, 0x00, 0xf8, 0x20, 0x19, 0x01, 0x35, 0x81, 0x41, 0xaa] ∧
      sliceTx tx.encode =
        .ok ⟨[0xa0], [0xa0], some [0xa2, 0x00, 0xf8, 0x20, 0x19, 0x01, 0x35]⟩ ∧
      extractLabel309Metadata tx.encode = .ok none := by
  refine ⟨.three .., .bare .., ?_, ?_, by rfl, by rfl, by rfl⟩
  · refine .intro .two [(.unsigned .inline 0, .primitive .one 32)] [] _ ?_ (by simp)
    simpa using ⟨.inline, 0, rfl, by decide⟩
  · simp [chunkArray, Width.bound, Width.size]

end Label309
