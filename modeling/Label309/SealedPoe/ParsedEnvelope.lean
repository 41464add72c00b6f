import Label309.PoeStandard.Record
import Label309.SealedPoe.Slots

/-!
# Envelopes from records

The discriminated envelope of the crypto layer from the permissive shape of the structural
validator, and the content-hash map of an item.
-/
namespace Label309

/-- A slot as it was parsed, before its KEM is known. -/
structure ParsedSlot where
  epk : Option (List UInt8)
  kemCt : Option (List UInt8)
  wrap : Option (List UInt8)

structure ParsedEnvelope where
  scheme : Option ℤ
  aead : Option String
  kem : Option String
  nonce : Option (List UInt8)
  slots : Option (List ParsedSlot)
  slotsMac : Option (List UInt8)

/-- The slots of a KEM, when each has the KEM's field and its wrap. -/
def sealedSlotsFromParsed (kem : String) (slots : List ParsedSlot) : Option SealedSlots :=
  if kem = kemX25519 then
    (slots.mapM fun (s : ParsedSlot) => do
      let epk ← s.epk
      let wrap ← s.wrap
      some (X25519Slot.mk epk wrap)).map SealedSlots.x25519
  else if kem = kemMlkem768X25519 then
    (slots.mapM fun (s : ParsedSlot) => do
      let kemCt ← s.kemCt
      let wrap ← s.wrap
      some (Mlkem768X25519Slot.mk kemCt wrap)).map SealedSlots.mlkem768X25519
  else none

/-- The envelope of a recipient path, or nothing when there is none to try a key on. -/
def sealedEnvelopeFromParsed (enc : ParsedEnvelope) : Option SealedEnvelope :=
  if enc.scheme ≠ some 1 ∨ enc.aead ≠ some aeadChacha20Poly1305Stream64k then none
  else do
    let nonce ← enc.nonce
    let slotsMac ← enc.slotsMac
    let slots ← enc.slots
    if slots.isEmpty then none
    let kem ← enc.kem
    let sealedSlots ← sealedSlotsFromParsed kem slots
    some
      { scheme := 1, aead := aeadChacha20Poly1305Stream64k, kem := kem, nonce := nonce,
        slots := sealedSlots, slotsMac := slotsMac }

/-- The permissive shape of the typed envelope. -/
def toParsedEnvelope (enc : EncScheme1) : ParsedEnvelope where
  scheme := if enc.scheme.toNat < 2 ^ 63 then some enc.scheme.toNat else none
  aead := some enc.aead
  kem := enc.kem
  nonce := some enc.nonce
  slots := enc.slots.map fun slots => slots.map fun s => ⟨s.epk, s.kemCt, s.wrap⟩
  slotsMac := enc.slotsMac

/-! ## Content hashes -/

/-- Put an entry in the order of the keys, in place of one with the same key. -/
def insertEntry (entry : String × List UInt8) :
    List (String × List UInt8) → List (String × List UInt8)
  | [] => [entry]
  | e :: rest =>
      if entry.1 < e.1 then entry :: e :: rest
      else if entry.1 = e.1 then entry :: rest
      else e :: insertEntry entry rest

theorem mem_insertEntry {entry e : String × List UInt8} {entries : List (String × List UInt8)}
    (h : e ∈ insertEntry entry entries) : e = entry ∨ e ∈ entries := by
  induction entries with
  | nil =>
      left
      simpa [insertEntry] using h
  | cons head rest ih =>
      rw [insertEntry] at h
      by_cases hlt : entry.1 < head.1
      · rw [if_pos hlt] at h
        exact List.mem_cons.mp h
      · rw [if_neg hlt] at h
        by_cases heq : entry.1 = head.1
        · rw [if_pos heq] at h
          exact (List.mem_cons.mp h).imp id (List.mem_cons_of_mem head)
        · rw [if_neg heq] at h
          rcases List.mem_cons.mp h with hhead | hrest
          · exact .inr (List.mem_cons.mpr (.inl hhead))
          · exact (ih hrest).imp id (List.mem_cons_of_mem head)

/-- The order is kept. -/
theorem sorted_insertEntry (entry : String × List UInt8) {entries : List (String × List UInt8)}
    (h : entries.Pairwise fun a b => a.1 < b.1) :
    (insertEntry entry entries).Pairwise fun a b => a.1 < b.1 := by
  induction entries with
  | nil => exact List.pairwise_singleton _ _
  | cons head rest ih =>
      have hhead := List.pairwise_cons.mp h
      rw [insertEntry]
      by_cases hlt : entry.1 < head.1
      · rw [if_pos hlt]
        refine List.pairwise_cons.mpr ⟨?_, h⟩
        intro e he
        rcases List.mem_cons.mp he with rfl | hrest
        · exact hlt
        · exact lt_trans hlt (hhead.1 e hrest)
      · rw [if_neg hlt]
        by_cases heq : entry.1 = head.1
        · rw [if_pos heq]
          refine List.pairwise_cons.mpr ⟨?_, hhead.2⟩
          intro e he
          rw [heq]
          exact hhead.1 e he
        · rw [if_neg heq]
          refine List.pairwise_cons.mpr ⟨?_, ih hhead.2⟩
          intro e he
          rcases mem_insertEntry he with rfl | hrest
          · exact lt_of_le_of_ne (not_lt.mp hlt) (Ne.symm heq)
          · exact hhead.1 e hrest

def ContentHashMap.empty : ContentHashMap := ⟨[], .nil⟩

/-- The map of some entries: of two with one key the later one stays. -/
def ContentHashMap.ofEntries (entries : List (String × List UInt8)) : ContentHashMap :=
  entries.foldl
    (fun map entry => ⟨insertEntry entry map.entries, sorted_insertEntry entry map.sorted⟩) .empty

end Label309
