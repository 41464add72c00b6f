import Label309.Verifier.CborWalker
import Label309.Cbor.PermissiveExtent
import Label309.Lib.ExceptBind

/-!
# The walker's item extents

The walker and the permissive decoder on one definite-length item. The walker
steps over a two-byte simple value one byte too far, and nowhere else: it is exact
at an item and at every item nested in it exactly when none of them is one.
-/
namespace Label309
open BigEndian ByteReader CborWire ExceptBind

/-! ## Heads -/

theorem slice_of_standsAt {bs data : List UInt8} {pos stop : ℕ} (h : StandsAt bs data pos)
    (hstop : stop = pos + bs.length) : slice data pos stop = bs := by
  rw [slice, hstop, Nat.add_sub_cancel_left, h.take_drop]

theorem headArgument_of_standsAt {w : Width} {n : ℕ} (hn : n < 256 ^ w.size) {data : List UInt8}
    {p : ℕ} (h : StandsAt (toBe w.size n) data p) (message : String) :
    headArgument data p w.size message = .ok n := by
  have hle := h.le_length
  rw [length_toBe] at hle
  rw [headArgument, if_pos hle, slice_of_standsAt h (by rw [length_toBe]), ofBe_toBe hn]

/-- Where a head stands, it is read whole. -/
theorem readHead_of_standsAt {major : ℕ} (hm : major < 8) {w : Width} {n : ℕ} (hn : n < w.bound)
    {data : List UInt8} {pos : ℕ} (h : StandsAt (head major w n) data pos) :
    readHead data pos = .ok ⟨major, w.info n, pos + (1 + w.size), n⟩ := by
  have hinfo := Width.info_lt hn
  obtain ⟨hmajor, hai⟩ := ofNat_head major hm hn
  have hmt : (UInt8.ofNat (major * 32 + w.info n) >>> 5).toNat = major := by
    rw [hmajor, UInt8.toNat_ofNat_of_lt' (by simp only [UInt8.size]; omega)]
  have hai' : (UInt8.ofNat (major * 32 + w.info n) &&& 0x1F).toNat = w.info n := by
    rw [hai, UInt8.toNat_ofNat_of_lt' (by simp only [UInt8.size]; omega)]
  have harg : StandsAt (toBe w.size n) data (pos + 1) :=
    h.tail
  rw [readHead, h.getElem?]
  simp only [hmt, hai']
  cases w with
  | inline =>
      have hn' : n < 24 := hn
      simp [Width.info, Width.size, hn']
  | one =>
      have hval : headArgument data (pos + 1) 1 "truncated 1-byte argument" = .ok n :=
        headArgument_of_standsAt hn harg _
      simp [Width.info, Width.size, hval, Nat.add_assoc]
  | two =>
      have hval : headArgument data (pos + 1) 2 "truncated 2-byte argument" = .ok n :=
        headArgument_of_standsAt hn harg _
      simp [Width.info, Width.size, hval, Nat.add_assoc]
  | four =>
      have hval : headArgument data (pos + 1) 4 "truncated 4-byte argument" = .ok n :=
        headArgument_of_standsAt hn harg _
      simp [Width.info, Width.size, hval, Nat.add_assoc]
  | eight =>
      have hval : headArgument data (pos + 1) 8 "truncated 8-byte argument" = .ok n :=
        headArgument_of_standsAt hn harg _
      simp [Width.info, Width.size, hval, Nat.add_assoc]

theorem readHead_of_item {item : Item} (hwf : item.WellFormed) {data : List UInt8} {pos : ℕ}
    (h : StandsAt item.encode data pos) :
    readHead data pos = .ok ⟨item.major, item.width.info item.argument,
      pos + (1 + item.width.size), item.argument⟩ := by
  obtain ⟨body, hbody⟩ := item.exists_body
  rw [hbody] at h
  exact readHead_of_standsAt item.major_lt hwf.argument_lt h.left

/-! ## Items -/

theorem skipTimes_of_standsAt {ι : Type} {enc : ι → List UInt8} {data : List UInt8}
    {skip : ℕ → Except CarriageError ℕ} {is : List ι}
    (hskip : ∀ i ∈ is, ∀ p, StandsAt (enc i) data p → skip p = .ok (p + (enc i).length))
    {pos : ℕ} (h : StandsAt (is.flatMap enc) data pos) :
    skipTimes skip is.length pos = .ok (pos + (is.flatMap enc).length) := by
  induction is generalizing pos with
  | nil => rfl
  | cons i is ih =>
      obtain ⟨hi, his⟩ := List.forall_mem_cons.mp hskip
      rw [List.flatMap_cons] at h ⊢
      rw [List.length_cons, skipTimes, hi pos h.left, ok_bind, ih his h.right,
        List.length_append, Nat.add_assoc]

/-- The item is, or has nested in it, a simple value in the byte after its header. -/
def HasTwoByteSimple (item : Item) : Prop :=
  ∃ off n, item.SubitemAt off (.primitive .one n)

@[simp] theorem hasTwoByteSimple_array {w : Width} {items : List Item} :
    HasTwoByteSimple (.array w items) ↔ ∃ it ∈ items, HasTwoByteSimple it := by
  constructor
  · rintro ⟨_, n, _ | hsub⟩
    exact ⟨_, by simp, _, n, hsub⟩
  · rintro ⟨it, hit, off, n, hsub⟩
    obtain ⟨before, after, rfl⟩ := List.append_of_mem hit
    exact ⟨_, n, .array hsub⟩

@[simp] theorem hasTwoByteSimple_map {w : Width} {pairs : List (Item × Item)} :
    HasTwoByteSimple (.map w pairs) ↔
      ∃ p ∈ pairs, HasTwoByteSimple p.1 ∨ HasTwoByteSimple p.2 := by
  constructor
  · rintro ⟨_, n, _ | _ | hsub | hsub⟩
    · exact ⟨_, by simp, .inl ⟨_, n, hsub⟩⟩
    · exact ⟨_, by simp, .inr ⟨_, n, hsub⟩⟩
  · rintro ⟨p, hp, ⟨off, n, hsub⟩ | ⟨off, n, hsub⟩⟩ <;>
      obtain ⟨before, after, rfl⟩ := List.append_of_mem hp
    · exact ⟨_, n, .mapKey hsub⟩
    · exact ⟨_, n, .mapValue hsub⟩

@[simp] theorem hasTwoByteSimple_tag {w : Width} {n : ℕ} {item : Item} :
    HasTwoByteSimple (.tag w n item) ↔ HasTwoByteSimple item := by
  constructor
  · rintro ⟨_, m, _ | _ | _ | _ | hsub⟩
    exact ⟨_, m, hsub⟩
  · rintro ⟨off, m, hsub⟩
    exact ⟨_, m, .tag hsub⟩

@[simp] theorem not_hasTwoByteSimple_unsigned {w : Width} {n : ℕ} :
    ¬ HasTwoByteSimple (.unsigned w n) := by
  rintro ⟨_, _, ⟨⟩⟩

@[simp] theorem not_hasTwoByteSimple_bytes {w : Width} {b : List UInt8} :
    ¬ HasTwoByteSimple (.bytes w b) := by
  rintro ⟨_, _, ⟨⟩⟩

@[simp] theorem not_hasTwoByteSimple_text {w : Width} {b : List UInt8} :
    ¬ HasTwoByteSimple (.text w b) := by
  rintro ⟨_, _, ⟨⟩⟩

theorem HasTwoByteSimple.of_subitemAt {item sub : Item} {off : ℕ} (hsub : item.SubitemAt off sub)
    (h : HasTwoByteSimple sub) : HasTwoByteSimple item := by
  induction hsub with
  | self item => exact h
  | array _ ih => exact hasTwoByteSimple_array.mpr ⟨_, by simp, ih h⟩
  | mapKey _ ih => exact hasTwoByteSimple_map.mpr ⟨_, by simp, .inl (ih h)⟩
  | mapValue _ ih => exact hasTwoByteSimple_map.mpr ⟨_, by simp, .inr (ih h)⟩
  | tag _ ih => exact hasTwoByteSimple_tag.mpr (ih h)

/-- Past an item with no two-byte simple value the walker stops at its end. -/
theorem skipItem_of_standsAt {item : Item} (hwf : item.WellFormed)
    (hno : ¬ HasTwoByteSimple item) {data : List UInt8} {pos fuel : ℕ}
    (h : StandsAt item.encode data pos) (hfuel : item.encode.length ≤ fuel) :
    skipItem data fuel pos = .ok (pos + item.encode.length) := by
  induction item generalizing pos fuel with
  | unsigned w n =>
      cases hwf with | unsigned hn
      obtain ⟨k, rfl⟩ := Item.exists_fuel hfuel
      rw [Item.encode] at h ⊢
      simp [skipItem, readHead_of_standsAt (by decide) hn h]
  | negative w n =>
      cases hwf with | negative hn
      obtain ⟨k, rfl⟩ := Item.exists_fuel hfuel
      rw [Item.encode] at h ⊢
      simp [skipItem, readHead_of_standsAt (by decide) hn h]
  | bytes w b =>
      cases hwf with | bytes hlen
      obtain ⟨k, rfl⟩ := Item.exists_fuel hfuel
      rw [Item.encode] at h ⊢
      have hle := h.le_length
      simp only [List.length_append, length_head] at hle ⊢
      simp [skipItem, readHead_of_standsAt (by decide) hlen h.left, ← Nat.add_assoc,
        show pos + 1 + w.size + b.length ≤ data.length by omega]
  | text w b =>
      cases hwf with | text hlen
      obtain ⟨k, rfl⟩ := Item.exists_fuel hfuel
      rw [Item.encode] at h ⊢
      have hle := h.le_length
      simp only [List.length_append, length_head] at hle ⊢
      simp [skipItem, readHead_of_standsAt (by decide) hlen h.left, ← Nat.add_assoc,
        show pos + 1 + w.size + b.length ≤ data.length by omega]
  | array w items ih =>
      cases hwf with | array hlen hitems
      obtain ⟨k, rfl, hk⟩ := exists_fuel_of_head hfuel
      rw [Item.encode] at h ⊢
      rw [Item.encodeItems_eq] at h hk ⊢
      have hskip : ∀ it ∈ items, ∀ p, StandsAt it.encode data p →
          skipItem data k p = .ok (p + it.encode.length) := by
        intro it hit p hp
        exact ih it hit (hitems it hit) (fun hsub => hno (hasTwoByteSimple_array.mpr ⟨it, hit, hsub⟩)) hp
          (le_trans (length_le_flatMap hit) hk)
      have hbody := skipTimes_of_standsAt hskip h.right
      simp only [length_head] at hbody
      simp [skipItem, readHead_of_standsAt (by decide) hlen h.left, hbody, Nat.add_assoc]
  | map w pairs ih =>
      cases hwf with | map hlen hkeys hvals
      obtain ⟨k, rfl, hk⟩ := exists_fuel_of_head hfuel
      rw [Item.encode] at h ⊢
      rw [Item.encodePairs_eq] at h hk ⊢
      have hskip : ∀ e ∈ pairs, ∀ p, StandsAt (Item.encodePair e) data p →
          (skipItem data k p >>= fun p => skipItem data k p) =
            .ok (p + (Item.encodePair e).length) := by
        intro e he p hp
        have hle := le_trans (length_le_flatMap (f := Item.encodePair) he) hk
        rw [Item.encodePair, List.length_append] at hle
        have hkey := (ih e he).1 (hkeys e he)
          (fun hsub => hno (hasTwoByteSimple_map.mpr ⟨e, he, .inl hsub⟩)) hp.left
          (by omega : e.1.encode.length ≤ k)
        have hval := (ih e he).2 (hvals e he)
          (fun hsub => hno (hasTwoByteSimple_map.mpr ⟨e, he, .inr hsub⟩)) hp.right
          (by omega : e.2.encode.length ≤ k)
        rw [hkey, ok_bind, hval, Item.encodePair, List.length_append, Nat.add_assoc]
      have hbody := skipTimes_of_standsAt hskip h.right
      simp only [length_head] at hbody
      simp [skipItem, readHead_of_standsAt (by decide) hlen h.left, hbody, Nat.add_assoc]
  | tag w n item ih =>
      cases hwf with | tag hn hitem
      obtain ⟨k, rfl, hk⟩ := exists_fuel_of_head hfuel
      rw [Item.encode] at h ⊢
      have hinner := ih hitem (fun hsub => hno (hasTwoByteSimple_tag.mpr hsub)) h.right hk
      simp only [length_head] at hinner
      simp [skipItem, readHead_of_standsAt (by decide) hn h.left, hinner, Nat.add_assoc]
  | primitive w n =>
      cases hwf with | primitive hn
      obtain ⟨k, rfl⟩ := Item.exists_fuel hfuel
      rw [Item.encode] at h ⊢
      cases w with
      | one => exact absurd ⟨0, n, .self _⟩ hno
      | inline =>
          have hn' : n < 24 := hn
          simp [skipItem, readHead_of_standsAt (by decide) hn h, Width.info, hn']
      | _ => simp [skipItem, readHead_of_standsAt (by decide) hn h, Width.info]

theorem skipCborItem_of_standsAt {item : Item} (hwf : item.WellFormed)
    (hno : ¬ HasTwoByteSimple item) {data : List UInt8} {pos : ℕ}
    (h : StandsAt item.encode data pos) :
    skipCborItem data pos = .ok (pos + item.encode.length) :=
  skipItem_of_standsAt hwf hno h (le_trans (Nat.le_add_left _ _) h.le_length)

/-- A two-byte simple value is never skipped to its end: the byte the head read has
consumed is counted again. -/
theorem skipCborItem_twoByteSimple_ne {n : ℕ} (hn : n < Width.one.bound) {data : List UInt8}
    {pos : ℕ} (h : StandsAt (Item.primitive .one n).encode data pos) :
    skipCborItem data pos ≠ .ok (pos + (Item.primitive .one n).encode.length) := by
  obtain ⟨k, hk⟩ : ∃ k, data.length = k + 1 := by
    have hle := h.le_length
    have hpos := (Item.primitive .one n).length_encode_pos
    exact ⟨data.length - 1, by omega⟩
  rw [Item.encode] at h ⊢
  intro heq
  simp [skipCborItem, hk, skipItem, readHead_of_standsAt (by decide) hn h, Width.info,
    Width.size] at heq
  split_ifs at heq
  cases heq

/-- The walker and the permissive decoder stop where the item at `pos` ends. -/
structure ExtentsAgree (data : List UInt8) (pos : ℕ) (item : Item) : Prop where
  skip : skipCborItem data pos = .ok (pos + item.encode.length)
  permissive : ∀ v stop, PermissiveDecoder.readValue data pos = .ok (v, stop) →
    skipCborItem data pos = .ok stop

theorem extentsAgree_of_standsAt {item : Item} (hwf : item.WellFormed)
    (hno : ¬ HasTwoByteSimple item) {data : List UInt8} {pos : ℕ}
    (h : StandsAt item.encode data pos) : ExtentsAgree data pos item := by
  refine ⟨skipCborItem_of_standsAt hwf hno h, fun v stop hread => ?_⟩
  rw [PermissiveDecoder.readValue_of_standsAt hwf h] at hread
  rw [skipCborItem_of_standsAt hwf hno h]
  cases hv : PermissiveDecoder.valueOf item with
  | error e => rw [hv] at hread; cases hread
  | ok v' => rw [hv] at hread; cases hread; rfl

/-- **The walker agrees with the permissive decoder at a well-formed item and at
every item nested in it exactly when none of them is a two-byte simple value.** Then
it does not fail, and the permissive decoder reads the item when its text is UTF-8. -/
theorem walker_extents_agree_iff {item : Item} (hwf : item.WellFormed) {data : List UInt8}
    {pos : ℕ} (hat : StandsAt item.encode data pos) :
    ((∀ off sub, item.SubitemAt off sub → ExtentsAgree data (pos + off) sub) ↔
        ¬ HasTwoByteSimple item) ∧
      (∀ e, skipCborItem data pos = .error e → HasTwoByteSimple item) ∧
      (PermissiveDecoder.TextIsUtf8 item → ∃ v,
        PermissiveDecoder.readValue data pos = .ok (v, pos + item.encode.length)) := by
  refine ⟨⟨fun hagree => ?_, fun hno off sub hsub => ?_⟩, fun e herr => ?_, fun htext => ?_⟩
  · rintro ⟨off, n, hsub⟩
    cases hsub.wellFormed hwf with | primitive hn
    exact skipCborItem_twoByteSimple_ne hn (hsub.standsAt hat) (hagree off _ hsub).skip
  · exact extentsAgree_of_standsAt (hsub.wellFormed hwf) (fun h => hno (h.of_subitemAt hsub))
      (hsub.standsAt hat)
  · by_contra hno
    rw [skipCborItem_of_standsAt hwf hno hat] at herr
    cases herr
  · obtain ⟨v, hv⟩ := PermissiveDecoder.exists_valueOf htext
    exact ⟨v, by rw [PermissiveDecoder.readValue_of_standsAt hwf hat, hv]; rfl⟩

/-- The agreement at the array `[24, "a"]` after another byte. -/
theorem walker_extents_agree_iff_sample :
    ExtentsAgree [0x00, 0x82, 0x18, 0x18, 0x61, 0x61] 1
      (.array .inline [.unsigned .one 24, .text .inline [0x61]]) := by
  refine (walker_extents_agree_iff ?_ ?_).1.mpr ?_ 0 _ (.self _)
  · simp [Width.bound, Width.size]
  · exact ⟨[0x00], [], by decide, rfl⟩
  · simp

/-- The two-byte simple value `f8 20` is complete, and the permissive decoder stops at
its end, but the walker reports it truncated; with a byte after it, it stops past it. -/
theorem walker_twoByteSimple_counterexample :
    (Item.primitive .one 32).WellFormed ∧
      StandsAt (Item.primitive .one 32).encode [0xf8, 0x20] 0 ∧
      PermissiveDecoder.readValue [0xf8, 0x20] 0 = .ok (.simple 32, 2) ∧
      skipCborItem [0xf8, 0x20] 0 = .error (.malformed "truncated simple value") ∧
      skipCborItem [0xf8, 0x20, 0x00] 0 = .ok 3 :=
  ⟨.primitive (by decide), .whole _, by rfl, by rfl, by rfl⟩

/-- A later item can realign the walk by luck, so exactness at an item alone does not
exclude a two-byte simple value inside it. -/
example : skipCborItem [0x82, 0xf8, 0x20, 0x18, 0x05] 0 = .ok 5 := by rfl

end Label309
