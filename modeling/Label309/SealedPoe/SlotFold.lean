import Label309.SealedPoe.UnwrapAgreement

/-!
# The fold over the slots

The scan of one key keeps its accumulators in masked selects, one assignment after another.
What it computes is the first accepted slot of the list, whether a later one disagrees with it,
and whether any wrap opened, so slots that are not accepted change none of the first two.
-/
namespace Label309

/-! ## The assignments -/

/-- The bytes of `a` for a set choice, those of `b` otherwise. -/
def ctSelect32 (choice : Bool) (a b : FixedBytes 32) : FixedBytes 32 :=
  ⟨List.zipWith (fun x y => if choice then x else y) a.val b.val, by
    rw [List.length_zipWith, a.property, b.property, Nat.min_self]⟩

@[simp] theorem ctSelect32_eq (choice : Bool) (a b : FixedBytes 32) :
    ctSelect32 choice a b = if choice then a else b := by
  have hlength : a.val.length = b.val.length := a.property.trans b.property.symm
  apply Subtype.ext
  apply List.ext_getElem
  · simp [ctSelect32, hlength]
    cases choice <;> simp [hlength]
  · intro i h1 h2
    cases choice <;> simp [ctSelect32]

/-- The accumulators of the scan. -/
structure SlotFold where
  found : Bool
  cekConflict : Bool
  anyWrapOpened : Bool
  selectedCek : FixedBytes 32
  selectedIdx : UInt32

def SlotFold.start : SlotFold := ⟨false, false, false, FixedBytes.zero 32, 0⟩

/-- The assignments for the slot `i`, in the order of the source. -/
def SlotFold.fold (s : SlotFold) (i : ℕ) (openBit macOk : Bool) (candidate : FixedBytes 32) :
    SlotFold :=
  let ok := openBit && macOk
  let first := ok && !s.found
  let s := { s with
    cekConflict := s.cekConflict || (ok && s.found && !decide (candidate = s.selectedCek)) }
  let s := { s with selectedCek := ctSelect32 first candidate s.selectedCek }
  let s := { s with selectedIdx := if first then UInt32.ofNat i else s.selectedIdx }
  let s := { s with found := s.found || ok }
  { s with anyWrapOpened := s.anyWrapOpened || openBit }

/-- The scan as the caller sees it. -/
def SlotFold.innerScan (s : SlotFold) : InnerScan :=
  ⟨s.found, s.cekConflict, s.anyWrapOpened, s.selectedCek, s.selectedIdx.toNat⟩

/-- The accumulators with the slots that were entered. The source keeps the number after the
last of them. -/
structure SlotPass where
  fold : SlotFold
  entered : List ℕ

def SlotPass.start : SlotPass := ⟨.start, []⟩

def SlotPass.slotsEntered (pass : SlotPass) : ℕ := (pass.entered.getLast?.map (· + 1)).getD 0

section Pass
variable (crypto : SealedPrimitives)

/-- Enter the slots from `i` on. -/
def foldSlots (slotsHash : FixedBytes 32) (slotsMac : List UInt8) :
    SlotPass → (i : ℕ) → List (Bool × FixedBytes 32) → SlotPass
  | pass, _, [] => pass
  | pass, i, (openBit, candidate) :: rest =>
      foldSlots slotsHash slotsMac
        ⟨pass.fold.fold i openBit (slotsMacBit crypto candidate slotsHash slotsMac) candidate,
          pass.entered ++ [i]⟩ (i + 1) rest

/-- The pass of one key over the slots. -/
def slotPass (envelope : SealedEnvelope) (key : List UInt8) (slotsHash : FixedBytes 32) :
    SlotPass :=
  foldSlots crypto slotsHash envelope.slotsMac .start 0 (slotCandidates crypto envelope key)

end Pass

/-! ## The declarative scan -/

section Describes
variable {accepts : Bool × FixedBytes 32 → Bool}

/-- The accumulators say of the slots so far which was accepted first, whether one that is
accepted disagrees with it, and whether any wrap opened. -/
structure Describes (accepts : Bool × FixedBytes 32 → Bool) (candidates : List (Bool × FixedBytes 32))
    (s : SlotFold) : Prop where
  found : s.found = candidates.any accepts
  selectedCek : s.selectedCek = ((candidates.find? accepts).map Prod.snd).getD (FixedBytes.zero 32)
  selectedIdx : s.selectedIdx = UInt32.ofNat ((candidates.findIdx? accepts).getD 0)
  cekConflict : s.cekConflict =
    candidates.any fun c => accepts c && !decide (c.2 = s.selectedCek)
  anyWrapOpened : s.anyWrapOpened = candidates.any Prod.fst

theorem describes_start : Describes accepts [] .start := ⟨rfl, rfl, rfl, rfl, rfl⟩

/-- One slot more. -/
theorem Describes.fold {candidates : List (Bool × FixedBytes 32)} {s : SlotFold}
    (h : Describes accepts candidates s) {c : Bool × FixedBytes 32} {macOk : Bool}
    (hok : (c.1 && macOk) = accepts c) :
    Describes accepts (candidates ++ [c]) (s.fold candidates.length c.1 macOk c.2) := by
  have hcek : (candidates ++ [c]).find? accepts =
      (candidates.find? accepts).or (if accepts c then some c else none) := by
    rw [List.find?_append, List.find?_singleton]
  have hidx : (candidates ++ [c]).findIdx? accepts =
      (candidates.findIdx? accepts).or (if accepts c then some candidates.length else none) := by
    rw [List.findIdx?_append, List.findIdx?_singleton]
    cases accepts c <;> simp
  by_cases hany : candidates.any accepts = true
  · -- A slot was accepted before: the selection stays, and this slot may disagree with it.
    obtain ⟨first, hfirst⟩ := Option.isSome_iff_exists.mp
      (List.find?_isSome.mpr (List.any_eq_true.mp hany))
    obtain ⟨i, hi⟩ := Option.isSome_iff_exists.mp (List.findIdx?_isSome.trans hany)
    have hfound := h.found.trans hany
    have hselected := h.selectedCek
    have hindex := h.selectedIdx
    rw [hfirst] at hselected hcek
    rw [hi] at hindex hidx
    constructor
    · simp [SlotFold.fold, hfound, hany]
    · simpa [SlotFold.fold, hfound, hcek] using hselected
    · simpa [SlotFold.fold, hfound, hidx] using hindex
    · simp [SlotFold.fold, hfound, h.cekConflict, hok]
    · simp [SlotFold.fold, h.anyWrapOpened]
  · -- No slot was accepted before: this one is selected if it is accepted.
    rw [Bool.not_eq_true] at hany
    have hfind : candidates.find? accepts = none := by
      rw [List.find?_eq_none]
      simpa using hany
    have hfindIdx : candidates.findIdx? accepts = none := by
      rw [List.findIdx?_eq_none_iff]
      simpa using hany
    have hfound := h.found.trans hany
    have hselected := h.selectedCek
    have hindex := h.selectedIdx
    rw [hfind] at hselected hcek
    rw [hfindIdx] at hindex hidx
    have hno : (candidates.any fun d => accepts d && !decide (d.2 = c.2)) = false := by
      rw [List.any_eq_false] at hany ⊢
      intro d hd
      simp [hany d hd]
    cases hc : accepts c with
    | true =>
        rw [hc] at hok hcek hidx
        constructor
        · simp [SlotFold.fold, hok, hc]
        · simp [SlotFold.fold, hfound, hok, hcek]
        · simp [SlotFold.fold, hfound, hok, hidx]
        · have hconflict : s.cekConflict = false := by
            rw [h.cekConflict, List.any_eq_false]
            rw [List.any_eq_false] at hany
            intro d hd
            simp [hany d hd]
          simp only [SlotFold.fold, hfound, hok, hconflict, List.any_append, List.any_cons, hc]
          simpa using hno
        · simp [SlotFold.fold, h.anyWrapOpened]
    | false =>
        rw [hc] at hok hcek hidx
        constructor
        · simp [SlotFold.fold, hok, hc, hfound, hany]
        · simpa [SlotFold.fold, hfound, hok, hcek] using hselected
        · simpa [SlotFold.fold, hfound, hok, hidx] using hindex
        · simp [SlotFold.fold, hfound, hok, h.cekConflict, hc]
        · simp [SlotFold.fold, h.anyWrapOpened]

end Describes

section Run
variable (crypto : SealedPrimitives)

/-- The acceptance bit of a slot: its wrap opens, and the content key in it has the MAC. -/
def acceptsSlot (slotsHash : FixedBytes 32) (slotsMac : List UInt8)
    (candidate : Bool × FixedBytes 32) : Bool :=
  candidate.1 && slotsMacBit crypto candidate.2 slotsHash slotsMac

/-- The rest of the slots. -/
theorem describes_foldSlots {slotsHash : FixedBytes 32} {slotsMac : List UInt8} {pass : SlotPass}
    {before : List (Bool × FixedBytes 32)}
    (h : Describes (acceptsSlot crypto slotsHash slotsMac) before pass.fold)
    (hentered : pass.entered = List.range before.length) (rest : List (Bool × FixedBytes 32)) :
    Describes (acceptsSlot crypto slotsHash slotsMac) (before ++ rest)
        (foldSlots crypto slotsHash slotsMac pass before.length rest).fold ∧
      (foldSlots crypto slotsHash slotsMac pass before.length rest).entered =
        List.range (before ++ rest).length := by
  induction rest generalizing pass before with
  | nil => simpa [foldSlots] using ⟨h, hentered⟩
  | cons c rest ih =>
      have hnext := @h.fold _ _ _ c (slotsMacBit crypto c.2 slotsHash slotsMac) rfl
      have hlength : (before ++ [c]).length = before.length + 1 := by simp
      have hrange : pass.entered ++ [before.length] = List.range (before ++ [c]).length := by
        rw [hlength, List.range_succ, hentered]
      have hrest := @ih ⟨_, pass.entered ++ [before.length]⟩ _ hnext hrange
      rw [hlength, List.append_assoc] at hrest
      exact hrest

theorem describes_slotPass (envelope : SealedEnvelope) (key : List UInt8)
    (slotsHash : FixedBytes 32) :
    Describes (acceptsSlot crypto slotsHash envelope.slotsMac) (slotCandidates crypto envelope key)
        (slotPass crypto envelope key slotsHash).fold ∧
      (slotPass crypto envelope key slotsHash).entered =
        List.range (slotCandidates crypto envelope key).length :=
  @describes_foldSlots crypto _ _ .start _ describes_start rfl _

/-- Without the masks and the fixed width, one slot is taken in as in the scan of the unwrap. -/
theorem innerScan_fold {s : SlotFold} {i : ℕ} (hi : i < 2 ^ 32) (openBit macOk : Bool)
    (candidate : FixedBytes 32) :
    (s.fold i openBit macOk candidate).innerScan = s.innerScan.fold i openBit macOk candidate := by
  have hindex : (UInt32.ofNat i).toNat = i := by
    rw [UInt32.toNat_ofNat']
    exact Nat.mod_eq_of_lt hi
  cases s with
  | mk found conflict opened cek idx =>
      simp only [SlotFold.innerScan, SlotFold.fold, InnerScan.fold, ctSelect32_eq,
        InnerScan.mk.injEq, ne_eq, true_and]
      by_cases hfirst : (openBit && macOk && !found) = true
      · by_cases hcek : candidate = cek <;> simp [hfirst, hindex, hcek]
      · by_cases hcek : candidate = cek <;> simp [hfirst, hcek]

theorem innerScan_foldSlots {slotsHash : FixedBytes 32} {slotsMac : List UInt8}
    {pass : SlotPass} {i : ℕ} {candidates : List (Bool × FixedBytes 32)}
    (hfits : i + candidates.length ≤ 2 ^ 32) :
    (foldSlots crypto slotsHash slotsMac pass i candidates).fold.innerScan =
      scanCandidates crypto slotsHash slotsMac pass.fold.innerScan i candidates := by
  induction candidates generalizing pass i with
  | nil => rfl
  | cons c rest ih =>
      rw [List.length_cons] at hfits
      have hi : i < 2 ^ 32 := by omega
      rw [foldSlots, ih (by omega), scanCandidates, innerScan_fold hi]

theorem innerScan_slotPass {envelope : SealedEnvelope} {key : List UInt8}
    {slotsHash : FixedBytes 32}
    (hfits : (slotCandidates crypto envelope key).length ≤ 2 ^ 32) :
    (slotPass crypto envelope key slotsHash).fold.innerScan =
      scanSlotsForKey crypto envelope key slotsHash :=
  innerScan_foldSlots crypto (by rwa [Nat.zero_add])

/-! ## The lengths that are checked before -/

theorem length_slots_of_assertEnvelope {envelope : SealedEnvelope}
    (h : assertEnvelope envelope = .ok ()) : envelope.slots.length ≤ maxSlots := by
  by_contra hlong
  rw [assertEnvelope] at h
  split_ifs at h <;> exact hlong (Nat.le_of_not_lt ‹_›)

theorem length_slotCandidates {envelope : SealedEnvelope} {key : List UInt8}
    (h : key.length = x25519SecretKeyLength) :
    (slotCandidates crypto envelope key).length = envelope.slots.length := by
  have hkey : toFixed 32 key = some ⟨key, h⟩ := dif_pos h
  rw [slotCandidates]
  cases envelope.slots with
  | x25519 slots => simp [x25519PublicKey, hkey, SealedSlots.length]
  | mlkem768X25519 slots => simp [mlkem768x25519PublicKeyFromSeed, hkey, SealedSlots.length]

/-! ## Slots that are not accepted -/

/-- The second list is the first with elements inserted, all of which are rejected. -/
inductive Inserted {α : Type} (rejected : α → Prop) : List α → List α → Prop
  | nil : Inserted rejected [] []
  | keep {l l' : List α} (a : α) (h : Inserted rejected l l') : Inserted rejected (a :: l) (a :: l')
  | insert {l l' : List α} {a : α} (ha : rejected a) (h : Inserted rejected l l') :
      Inserted rejected l (a :: l')

theorem Inserted.map {α β : Type} {rejected : α → Prop} {rejected' : β → Prop} {f : α → β}
    {l l' : List α} (h : Inserted rejected l l') (hf : ∀ a, rejected a → rejected' (f a)) :
    Inserted rejected' (l.map f) (l'.map f) := by
  induction h with
  | nil => exact .nil
  | keep a _ ih => exact .keep (f a) ih
  | insert ha _ ih => exact .insert (hf _ ha) ih

/-- What is accepted, in order, is not changed. -/
theorem Inserted.filter_eq {α : Type} {accepts : α → Bool} {l l' : List α}
    (h : Inserted (fun a => accepts a = false) l l') : l'.filter accepts = l.filter accepts := by
  induction h with
  | nil => rfl
  | keep a _ ih => simp [List.filter_cons, ih]
  | insert ha _ ih => simpa [List.filter_cons, ha] using ih

/-- The slots of one KEM with slots of the same inserted, all of which are rejected. -/
inductive SlotsInserted (rejected : SealedSlots → Prop) : SealedSlots → SealedSlots → Prop
  | x25519 {slots slots' : List X25519Slot}
      (h : Inserted (fun slot => rejected (.x25519 [slot])) slots slots') :
      SlotsInserted rejected (.x25519 slots) (.x25519 slots')
  | mlkem768X25519 {slots slots' : List Mlkem768X25519Slot}
      (h : Inserted (fun slot => rejected (.mlkem768X25519 [slot])) slots slots') :
      SlotsInserted rejected (.mlkem768X25519 slots) (.mlkem768X25519 slots')

/-- The key accepts none of these slots under the transcript of the envelope. -/
def RejectsSlots (envelope : SealedEnvelope) (key : List UInt8) (slotsHash : FixedBytes 32)
    (slots : SealedSlots) : Prop :=
  ∀ candidate ∈ slotCandidates crypto { envelope with slots := slots } key,
    acceptsSlot crypto slotsHash envelope.slotsMac candidate = false

theorem inserted_slotCandidates {envelope : SealedEnvelope} {key : List UInt8}
    {slotsHash : FixedBytes 32} {slots' : SealedSlots}
    (h : SlotsInserted (RejectsSlots crypto envelope key slotsHash) envelope.slots slots') :
    Inserted (fun c => acceptsSlot crypto slotsHash envelope.slotsMac c = false)
      (slotCandidates crypto envelope key)
      (slotCandidates crypto { envelope with slots := slots' } key) := by
  rw [slotCandidates, slotCandidates]
  generalize hslots : envelope.slots = slots at h
  cases h with
  | x25519 h =>
      cases hkey : x25519PublicKey crypto key with
      | error e => exact .nil
      | ok pubR =>
          apply h.map
          intro slot hslot
          apply hslot
          simp [slotCandidates, hkey]
  | mlkem768X25519 h =>
      cases hkey : mlkem768x25519PublicKeyFromSeed crypto key with
      | error e => exact .nil
      | ok pubR =>
          apply h.map
          intro slot hslot
          apply hslot
          simp [slotCandidates, hkey]

/-! ## The specification -/

/-- The least accepted slot. -/
def FirstAccepted (accepts : Bool × FixedBytes 32 → Bool) (candidates : List (Bool × FixedBytes 32))
    (i : ℕ) (c : Bool × FixedBytes 32) : Prop :=
  candidates[i]? = some c ∧ accepts c = true ∧
    ∀ j d, j < i → candidates[j]? = some d → accepts d = false

/-- What the scan of one key says of its slots. -/
structure ScanSpec (accepts : Bool × FixedBytes 32 → Bool) (candidates : List (Bool × FixedBytes 32))
    (scan : InnerScan) : Prop where
  found : scan.found = true ↔ ∃ c ∈ candidates, accepts c = true
  selected : ∀ i c, FirstAccepted accepts candidates i c →
    scan.selectedIdx = i ∧ scan.selectedCek = c.2
  unselected : (∀ c ∈ candidates, accepts c = false) →
    scan.selectedIdx = 0 ∧ scan.selectedCek = FixedBytes.zero 32
  conflict : scan.cekConflict = true ↔
    ∃ i c j d, FirstAccepted accepts candidates i c ∧ i < j ∧ candidates[j]? = some d ∧
      accepts d = true ∧ d.2 ≠ c.2
  opened : scan.anyWrapOpened = true ↔ ∃ c ∈ candidates, c.1 = true

theorem FirstAccepted.find? {accepts : Bool × FixedBytes 32 → Bool}
    {candidates : List (Bool × FixedBytes 32)} {i : ℕ} {c : Bool × FixedBytes 32}
    (h : FirstAccepted accepts candidates i c) :
    candidates.find? accepts = some c ∧ candidates.findIdx? accepts = some i := by
  obtain ⟨hlength, hc⟩ := List.getElem?_eq_some_iff.mp h.1
  have hbefore : ∀ j, (hj : j < i) → accepts candidates[j] = false := fun j hj =>
    h.2.2 j _ hj (List.getElem?_eq_getElem (hj.trans hlength))
  constructor
  · rw [List.find?_eq_some_iff_getElem]
    exact ⟨h.2.1, i, hlength, hc, fun j hj => by simp [hbefore j hj]⟩
  · rw [List.findIdx?_eq_some_iff_getElem]
    exact ⟨hlength, hc ▸ h.2.1, fun j hj => by simp [hbefore j hj]⟩

theorem exists_firstAccepted {accepts : Bool × FixedBytes 32 → Bool}
    {candidates : List (Bool × FixedBytes 32)} (h : ∃ c ∈ candidates, accepts c = true) :
    ∃ i c, FirstAccepted accepts candidates i c := by
  obtain ⟨c, hc⟩ := Option.isSome_iff_exists.mp (List.find?_isSome.mpr h)
  obtain ⟨hok, i, hi, hget, hbefore⟩ := List.find?_eq_some_iff_getElem.mp hc
  refine ⟨i, c, by rw [List.getElem?_eq_getElem hi, hget], hok, ?_⟩
  intro j d hj hd
  rw [List.getElem?_eq_getElem (hj.trans hi), Option.some.injEq] at hd
  simpa [hd] using hbefore j hj

/-- The accumulators are as specified when every index fits in its width. -/
theorem Describes.scanSpec {accepts : Bool × FixedBytes 32 → Bool}
    {candidates : List (Bool × FixedBytes 32)} {s : SlotFold} (h : Describes accepts candidates s)
    (hfits : candidates.length ≤ 2 ^ 32) : ScanSpec accepts candidates s.innerScan := by
  constructor
  · show s.found = true ↔ _
    rw [h.found, List.any_eq_true]
  · intro i c hc
    have hi : i < 2 ^ 32 := Nat.lt_of_lt_of_le (List.getElem?_eq_some_iff.mp hc.1).1 hfits
    constructor
    · show s.selectedIdx.toNat = i
      rw [h.selectedIdx, hc.find?.2, Option.getD_some, UInt32.toNat_ofNat', Nat.mod_eq_of_lt hi]
    · show s.selectedCek = c.2
      rw [h.selectedCek, hc.find?.1, Option.map_some, Option.getD_some]
  · intro hnone
    constructor
    · show s.selectedIdx.toNat = 0
      rw [h.selectedIdx, List.findIdx?_eq_none_iff.mpr hnone]
      rfl
    · show s.selectedCek = FixedBytes.zero 32
      rw [h.selectedCek, List.find?_eq_none.mpr fun c hc => by simp [hnone c hc]]
      rfl
  · show s.cekConflict = true ↔ _
    rw [h.cekConflict, List.any_eq_true]
    constructor
    · intro hconflict
      obtain ⟨d, hd, hconflict⟩ := hconflict
      rw [Bool.and_eq_true, Bool.not_eq_true', decide_eq_false_iff_not] at hconflict
      obtain ⟨i, c, hc⟩ := exists_firstAccepted ⟨d, hd, hconflict.1⟩
      have hcek : s.selectedCek = c.2 := by
        rw [h.selectedCek, hc.find?.1, Option.map_some, Option.getD_some]
      obtain ⟨j, hj, hget⟩ := List.getElem_of_mem hd
      have hdj : candidates[j]? = some d := by rw [List.getElem?_eq_getElem hj, hget]
      rw [hcek] at hconflict
      refine ⟨i, c, j, d, hc, ?_, hdj, hconflict⟩
      -- An earlier slot is not accepted, and the selected slot agrees with itself.
      by_contra hle
      by_cases hji : j = i
      · subst hji
        have hsame : some d = some c := hdj.symm.trans hc.1
        exact hconflict.2 (congrArg Prod.snd (Option.some.inj hsame))
      · have hfalse := hc.2.2 j d (by omega) hdj
        rw [hconflict.1] at hfalse
        exact Bool.noConfusion hfalse
    · intro hconflict
      obtain ⟨i, c, j, d, hc, -, hd, hok, hne⟩ := hconflict
      refine ⟨d, List.mem_of_getElem? hd, ?_⟩
      rw [h.selectedCek, hc.find?.1, Option.map_some, Option.getD_some]
      simp [hok, hne]
  · show s.anyWrapOpened = true ↔ _
    rw [h.anyWrapOpened, List.any_eq_true]

/-- What two lists of candidates with the same accepted slots have in common. -/
theorem Describes.selectedCek_eq {accepts : Bool × FixedBytes 32 → Bool}
    {candidates candidates' : List (Bool × FixedBytes 32)} {s s' : SlotFold}
    (h : Describes accepts candidates s) (h' : Describes accepts candidates' s')
    (heq : candidates'.filter accepts = candidates.filter accepts) :
    s'.found = s.found ∧ s'.selectedCek = s.selectedCek ∧ s'.cekConflict = s.cekConflict := by
  have hfind : candidates'.find? accepts = candidates.find? accepts := by
    rw [← List.head?_filter, ← List.head?_filter, heq]
  have hcek : s'.selectedCek = s.selectedCek := by rw [h.selectedCek, h'.selectedCek, hfind]
  have hany : ∀ p : Bool × FixedBytes 32 → Bool,
      (candidates'.any fun c => accepts c && p c) = candidates.any fun c => accepts c && p c := by
    intro p
    rw [← List.any_filter, ← List.any_filter, heq]
  refine ⟨?_, hcek, ?_⟩
  · have hall := hany fun _ => true
    simp only [Bool.and_true] at hall
    rw [h.found, h'.found, hall]
  · rw [h.cekConflict, h'.cekConflict, hcek]
    exact hany _

theorem slotsEntered_of_entered {pass : SlotPass} {n : ℕ} (h : pass.entered = List.range n) :
    pass.slotsEntered = n := by
  rw [SlotPass.slotsEntered, h]
  cases n with
  | zero => rfl
  | succ n => simp [List.range_succ]

/-- **The scan of one key computes its specification.** For an envelope and a key that pass the
checks before the scan, what the scan reports is what the slots say, it is the scan of the
unwrap, and every slot is entered once and in order. Slots that are inserted anywhere without
being accepted change neither the selected content key nor whether one was found or disputed. -/
theorem scanSlotsForKey_spec {envelope : SealedEnvelope} {key : List UInt8}
    (slotsHash : FixedBytes 32) (henvelope : assertEnvelope envelope = .ok ())
    (hkey : key.length = x25519SecretKeyLength) :
    let pass := slotPass crypto envelope key slotsHash
    let candidates := slotCandidates crypto envelope key
    candidates.length = envelope.slots.length ∧
    ScanSpec (acceptsSlot crypto slotsHash envelope.slotsMac) candidates pass.fold.innerScan ∧
    scanSlotsForKey crypto envelope key slotsHash = pass.fold.innerScan ∧
    pass.entered = List.range envelope.slots.length ∧
    pass.slotsEntered = envelope.slots.length ∧
    ∀ slots', SlotsInserted (RejectsSlots crypto envelope key slotsHash) envelope.slots slots' →
      let forged := slotPass crypto { envelope with slots := slots' } key slotsHash
      forged.fold.found = pass.fold.found ∧ forged.fold.selectedCek = pass.fold.selectedCek ∧
        forged.fold.cekConflict = pass.fold.cekConflict := by
  intro pass candidates
  have hlength : candidates.length = envelope.slots.length := length_slotCandidates crypto hkey
  have hfits : candidates.length ≤ 2 ^ 32 := by
    have hmax := length_slots_of_assertEnvelope henvelope
    rw [hlength]
    exact hmax.trans (by decide)
  have hpass := describes_slotPass crypto envelope key slotsHash
  have hentered : pass.entered = List.range envelope.slots.length := hlength ▸ hpass.2
  refine ⟨hlength, hpass.1.scanSpec hfits, (innerScan_slotPass crypto hfits).symm, hentered,
    slotsEntered_of_entered hentered, ?_⟩
  intro slots' hinserted
  have hforged := describes_slotPass crypto { envelope with slots := slots' } key slotsHash
  exact hpass.1.selectedCek_eq hforged.1 (inserted_slotCandidates crypto hinserted).filter_eq

end Run

/-! ## A slot of someone else -/

/-- The conflicting envelope with its first slot only. -/
def oneSlotEnvelope : SealedEnvelope :=
  { conflictEnvelope with slots := .x25519 [⟨List.replicate 32 1, List.replicate 48 1⟩] }

/-- A key that does not open the second slot selects the same content key with it and without
it. -/
theorem scanSlotsForKey_foreign :
    assertEnvelope oneSlotEnvelope = .ok () ∧
      (slotPass conflictCrypto oneSlotEnvelope (List.replicate 32 6)
        (FixedBytes.zero 32)).entered = List.range 1 ∧
      (slotPass conflictCrypto conflictEnvelope (List.replicate 32 6)
        (FixedBytes.zero 32)).fold.selectedCek =
        (slotPass conflictCrypto oneSlotEnvelope (List.replicate 32 6)
          (FixedBytes.zero 32)).fold.selectedCek := by
  have henvelope : assertEnvelope oneSlotEnvelope = .ok () := by rfl
  have hspec := scanSlotsForKey_spec conflictCrypto (FixedBytes.zero 32) henvelope
    (show (List.replicate 32 6).length = x25519SecretKeyLength from List.length_replicate)
  have hrejects : RejectsSlots conflictCrypto oneSlotEnvelope (List.replicate 32 6)
      (FixedBytes.zero 32) (.x25519 [⟨List.replicate 32 2, List.replicate 48 2⟩]) := by
    rw [RejectsSlots]
    decide
  have hinserted : SlotsInserted (RejectsSlots conflictCrypto oneSlotEnvelope
      (List.replicate 32 6) (FixedBytes.zero 32)) oneSlotEnvelope.slots conflictEnvelope.slots :=
    .x25519 (.keep _ (.insert hrejects .nil))
  exact ⟨henvelope, hspec.2.2.2.1, (hspec.2.2.2.2.2 _ hinserted).2.1⟩

end Label309
