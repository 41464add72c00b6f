import Label309.Verifier.CborWalker
import Label309.Lib.ExceptBind

/-!
# What a bound transaction is

The parts of a sliced transaction are spans of its bytes that follow each other. The commitment of a
body to auxiliary data is the value of its first entry under the integer key 7, and bytes that are
bound hash to the requested reference and, if there is auxiliary data, to that commitment.
-/
namespace Label309
open ExceptBind

/-! ## Spans -/

section Slice
variable {data : List UInt8} {a b : ℕ}

theorem take_append_slice (hab : a ≤ b) : data.take a ++ slice data a b = data.take b := by
  have hb : b = a + (b - a) := by omega
  conv_rhs => rw [hb, List.take_add]
  rfl

theorem readHead_bounds {h : CborHead} (hread : readHead data a = .ok h) :
    a < h.payloadStart ∧ h.payloadStart ≤ data.length := by
  have hargument {p len : ℕ} {message : String} {n : ℕ}
      (harg : headArgument data p len message = .ok n) : p + len ≤ data.length := by
    rw [headArgument] at harg
    by_cases hle : p + len ≤ data.length
    · exact hle
    · rw [if_neg hle] at harg
      cases harg
  rw [readHead] at hread
  cases hbyte : data[a]? with
  | none => simp [hbyte] at hread
  | some byte =>
      obtain ⟨hlt, -⟩ := List.getElem?_eq_some_iff.mp hbyte
      rw [hbyte] at hread
      dsimp only at hread
      split at hread
      · cases hread
        exact ⟨Nat.lt_succ_self a, hlt⟩
      split at hread
      · obtain ⟨n, hn, hread⟩ := bind_eq_ok.mp hread
        cases hread
        exact ⟨by dsimp only; omega, hargument hn⟩
      split at hread
      · obtain ⟨n, hn, hread⟩ := bind_eq_ok.mp hread
        cases hread
        exact ⟨by dsimp only; omega, hargument hn⟩
      split at hread
      · obtain ⟨n, hn, hread⟩ := bind_eq_ok.mp hread
        cases hread
        exact ⟨by dsimp only; omega, hargument hn⟩
      split at hread
      · obtain ⟨n, hn, hread⟩ := bind_eq_ok.mp hread
        cases hread
        exact ⟨by dsimp only; omega, hargument hn⟩
      split at hread <;> cases hread

/-- What skips forward within the data. -/
def SkipsForward (data : List UInt8) (skip : ℕ → Except CarriageError ℕ) : Prop :=
  ∀ p stop, skip p = .ok stop → p < stop ∧ stop ≤ data.length

theorem skipTimes_bounds {skip : ℕ → Except CarriageError ℕ} (hskip : SkipsForward data skip)
    {n stop : ℕ} (ha : a ≤ data.length) (h : skipTimes skip n a = .ok stop) :
    a ≤ stop ∧ stop ≤ data.length := by
  induction n generalizing a with
  | zero =>
      cases h
      exact ⟨le_refl _, ha⟩
  | succ n ih =>
      rw [skipTimes] at h
      obtain ⟨p, hp, h⟩ := bind_eq_ok.mp h
      have hstep := hskip a p hp
      have hrest := ih hstep.2 h
      omega

theorem skipItem_bounds (fuel : ℕ) : SkipsForward data (skipItem data fuel) := by
  induction fuel with
  | zero =>
      intro p stop h
      cases h
  | succ fuel ih =>
      have hpair : SkipsForward data fun p => skipItem data fuel p >>= skipItem data fuel := by
        intro p stop h
        obtain ⟨mid, hmid, h⟩ := bind_eq_ok.mp h
        have hfirst := ih p mid hmid
        have hsecond := ih mid stop h
        omega
      intro p stop h
      rw [skipItem] at h
      obtain ⟨head, hhead, h⟩ := bind_eq_ok.mp h
      have hbounds := readHead_bounds hhead
      dsimp only at h
      split at h
      · cases h
        exact hbounds
      split at h
      · split at h
        · cases h
          omega
        · split at h <;> cases h
      split at h
      · have htimes := skipTimes_bounds ih hbounds.2 h
        omega
      split at h
      · have htimes := skipTimes_bounds hpair hbounds.2 h
        omega
      split at h
      · have hinner := ih _ _ h
        omega
      split at h
      · split at h
        · cases h
          exact hbounds
        split at h
        · split at h
          · cases h
          · cases h
            omega
        split at h
        · cases h
          exact hbounds
        · cases h
      · cases h

theorem skipCborItem_bounds {stop : ℕ} (h : skipCborItem data a = .ok stop) :
    a < stop ∧ stop ≤ data.length := skipItem_bounds data.length a stop h

end Slice

/-- The parts follow each other in the bytes of the transaction. -/
def Spans (txCbor : List UInt8) (slices : TxSlices) : Prop :=
  ∃ front mid rest, txCbor =
    front ++ slices.txBody ++ slices.witnessSet ++ mid ++ slices.auxData.getD [] ++ rest

theorem spans_sliceTx {txCbor : List UInt8} {slices : TxSlices} (h : sliceTx txCbor = .ok slices) :
    Spans txCbor slices := by
  rw [sliceTx] at h
  obtain ⟨head, hhead, h⟩ := bind_eq_ok.mp h
  split at h
  · cases h
  split at h
  · cases h
  obtain ⟨bodyEnd, hbody, h⟩ := bind_eq_ok.mp h
  obtain ⟨witnessSetEnd, hwitness, h⟩ := bind_eq_ok.mp h
  obtain ⟨auxStart, hstart, h⟩ := bind_eq_ok.mp h
  obtain ⟨auxData, haux, h⟩ := bind_eq_ok.mp h
  cases h
  have hbodyBounds := skipCborItem_bounds hbody
  have hwitnessBounds := skipCborItem_bounds hwitness
  have hstartBounds : witnessSetEnd ≤ auxStart := by
    rw [auxDataStart] at hstart
    by_cases hfour : head.valueU64 = 4
    · rw [if_pos hfour] at hstart
      exact (skipCborItem_bounds hstart).1.le
    · rw [if_neg hfour] at hstart
      cases hstart
      exact le_refl _
  -- The auxiliary data, when it is there, is the span behind its start.
  obtain ⟨auxEnd, hend, hspan⟩ : ∃ auxEnd, auxStart ≤ auxEnd ∧
      auxData.getD [] = slice txCbor auxStart auxEnd := by
    rw [sliceAuxData] at haux
    cases hfirst : txCbor[auxStart]? with
    | none => simp [hfirst] at haux
    | some first =>
        rw [hfirst] at haux
        dsimp only at haux
        by_cases hnone : first = 0xf6 ∨ first = 0xf7
        · rw [if_pos hnone] at haux
          cases haux
          refine ⟨auxStart, le_refl _, ?_⟩
          rw [slice, Nat.sub_self, List.take_zero]
          rfl
        · rw [if_neg hnone] at haux
          obtain ⟨auxEnd, hskip, haux⟩ := bind_eq_ok.mp haux
          cases haux
          exact ⟨auxEnd, (skipCborItem_bounds hskip).1.le, rfl⟩
  refine ⟨txCbor.take head.payloadStart, slice txCbor witnessSetEnd auxStart,
    txCbor.drop auxEnd, ?_⟩
  dsimp only
  rw [hspan, take_append_slice hbodyBounds.1.le, take_append_slice hwitnessBounds.1.le,
    take_append_slice hstartBounds, take_append_slice hend, List.take_append_drop]

/-! ## The commitment to auxiliary data -/

/-- The entry at a place has the integer key 7. -/
def IsKeySeven (txBody : List UInt8) (p : ℕ) : Prop :=
  ∃ keyHead, readHead txBody p = .ok keyHead ∧ keyHead.mt = 0 ∧ keyHead.valueU64 = 7

/-- The place of an entry of a map: behind the keys and values of those before it. -/
def EntryAt (txBody : List UInt8) (start i p : ℕ) : Prop :=
  skipTimes (skipCborItem txBody) (2 * i) start = .ok p

/-- The body is a map with an entry under the integer key 7. -/
def CarriesKeySeven (txBody : List UInt8) : Prop :=
  ∃ head, readHead txBody 0 = .ok head ∧ head.mt = 5 ∧
    ∃ i < head.valueU64, ∃ p, EntryAt txBody head.payloadStart i p ∧ IsKeySeven txBody p

/-- The byte string under the first integer key 7 of the body. -/
def KeySevenBytes (txBody bytes : List UInt8) : Prop :=
  ∃ head, readHead txBody 0 = .ok head ∧ head.mt = 5 ∧
    ∃ i < head.valueU64, ∃ p, EntryAt txBody head.payloadStart i p ∧ IsKeySeven txBody p ∧
      (∀ j < i, ∀ q, EntryAt txBody head.payloadStart j q → ¬ IsKeySeven txBody q) ∧
      ∃ valueStart valueEnd valueHead, skipCborItem txBody p = .ok valueStart ∧
        skipCborItem txBody valueStart = .ok valueEnd ∧
        readHead txBody valueStart = .ok valueHead ∧ valueHead.mt = 2 ∧
        bytes = slice txBody valueHead.payloadStart valueEnd

section Entries
variable {txBody : List UInt8}

theorem entryAt_zero {start p : ℕ} : EntryAt txBody start 0 p ↔ start = p := by
  rw [EntryAt, Nat.mul_zero, skipTimes, Except.ok.injEq]

/-- The entries behind the first one. -/
theorem entryAt_succ {start valueStart valueEnd i p : ℕ}
    (hkey : skipCborItem txBody start = .ok valueStart)
    (hvalue : skipCborItem txBody valueStart = .ok valueEnd) :
    EntryAt txBody start (i + 1) p ↔ EntryAt txBody valueEnd i p := by
  rw [EntryAt, EntryAt, show 2 * (i + 1) = 2 * i + 1 + 1 by ring, skipTimes, hkey]
  change skipTimes (skipCborItem txBody) (2 * i + 1) valueStart = .ok p ↔ _
  rw [skipTimes, hvalue]
  rfl

/-- What the search finds: the first key 7 among the entries, with its byte string, or none. -/
theorem findAuxiliaryDataHash_spec {n start : ℕ} {found : Option (List UInt8)}
    (h : findAuxiliaryDataHash txBody n start = .ok found) :
    (found = none ∧ ∀ i < n, ∀ p, EntryAt txBody start i p → ¬ IsKeySeven txBody p) ∨
      ∃ bytes, found = some bytes ∧ ∃ i < n, ∃ p, EntryAt txBody start i p ∧
        IsKeySeven txBody p ∧
        (∀ j < i, ∀ q, EntryAt txBody start j q → ¬ IsKeySeven txBody q) ∧
        ∃ valueStart valueEnd valueHead, skipCborItem txBody p = .ok valueStart ∧
          skipCborItem txBody valueStart = .ok valueEnd ∧
          readHead txBody valueStart = .ok valueHead ∧ valueHead.mt = 2 ∧
          bytes = slice txBody valueHead.payloadStart valueEnd := by
  induction n generalizing start with
  | zero =>
      cases h
      exact .inl ⟨rfl, by simp⟩
  | succ n ih =>
      rw [findAuxiliaryDataHash] at h
      obtain ⟨keyHead, hkeyHead, h⟩ := bind_eq_ok.mp h
      obtain ⟨valueStart, hkey, h⟩ := bind_eq_ok.mp h
      obtain ⟨valueEnd, hvalue, h⟩ := bind_eq_ok.mp h
      by_cases hseven : keyHead.mt = 0 ∧ keyHead.valueU64 = 7
      · rw [if_pos hseven] at h
        obtain ⟨valueHead, hvalueHead, h⟩ := bind_eq_ok.mp h
        split at h
        · cases h
        · rename_i hstring
          cases h
          exact .inr ⟨_, rfl, 0, Nat.succ_pos n, start, entryAt_zero.mpr rfl,
            ⟨keyHead, hkeyHead, hseven⟩, by simp, valueStart, valueEnd, valueHead, hkey, hvalue,
            hvalueHead, not_not.mp hstring, rfl⟩
      · rw [if_neg hseven] at h
        -- The first entry is no key 7.
        have hfirst : ∀ p, EntryAt txBody start 0 p → ¬ IsKeySeven txBody p := by
          intro p hp hcarries
          obtain ⟨keyHead', hread, hmt, hnumber⟩ := hcarries
          rw [← entryAt_zero.mp hp, hkeyHead, Except.ok.injEq] at hread
          subst hread
          exact hseven ⟨hmt, hnumber⟩
        have hbefore {k : ℕ}
            (hrest : ∀ j < k, ∀ q, EntryAt txBody valueEnd j q → ¬ IsKeySeven txBody q) :
            ∀ j < k + 1, ∀ q, EntryAt txBody start j q → ¬ IsKeySeven txBody q := by
          intro j hj q hq
          cases j with
          | zero => exact hfirst q hq
          | succ j => exact hrest j (by omega) q ((entryAt_succ hkey hvalue).mp hq)
        rcases ih h with ⟨hnone, hall⟩ | ⟨bytes, hsome, i, hi, p, hp, hcarries, hlater, hspan⟩
        · exact .inl ⟨hnone, hbefore hall⟩
        · exact .inr ⟨bytes, hsome, i + 1, by omega, p, (entryAt_succ hkey hvalue).mpr hp, hcarries,
            hbefore hlater, hspan⟩

theorem extractAuxiliaryDataHash_spec {found : Option (List UInt8)}
    (h : extractAuxiliaryDataHash txBody = .ok found) :
    (found.isSome ↔ CarriesKeySeven txBody) ∧ ∀ bytes, found = some bytes →
      KeySevenBytes txBody bytes := by
  rw [extractAuxiliaryDataHash] at h
  obtain ⟨head, hhead, h⟩ := bind_eq_ok.mp h
  split at h
  · cases h
  · rename_i hmap
    have hmap := not_not.mp hmap
    rcases findAuxiliaryDataHash_spec h with ⟨hnone, hall⟩ |
      ⟨bytes, hsome, i, hi, p, hp, hcarries, hfirst, hspan⟩
    · subst hnone
      refine ⟨iff_of_false (by simp) ?_, by simp⟩
      rintro ⟨head', hread, -, i, hi, p, hp, hcarries⟩
      rw [hhead, Except.ok.injEq] at hread
      subst hread
      exact hall i hi p hp hcarries
    · subst hsome
      refine ⟨iff_of_true rfl ⟨head, hhead, hmap, i, hi, p, hp, hcarries⟩, ?_⟩
      intro bytes' hbytes
      cases hbytes
      exact ⟨head, hhead, hmap, i, hi, p, hp, hcarries, hfirst, hspan⟩

end Entries

/-! ## Binding -/

/-- The parts of a transaction are bound to a reference. -/
structure BoundSlices (hashes : ContentHashes) (requestedTxHash : List UInt8) (slices : TxSlices) :
    Prop where
  body : (hashes.blake2b256 slices.txBody).val = requestedTxHash
  committed : slices.auxData.isSome ↔ CarriesKeySeven slices.txBody
  auxData : ∀ aux, slices.auxData = some aux →
    KeySevenBytes slices.txBody (hashes.blake2b256 aux).val

theorem boundSlices_bindTransaction {hashes : ContentHashes} {requestedTxHash : List UInt8}
    {slices : TxSlices}
    (h : bindTransaction hashes requestedTxHash slices.txBody slices.auxData = .ok ()) :
    BoundSlices hashes requestedTxHash slices := by
  rw [bindTransaction] at h
  dsimp only at h
  by_cases hbody : (hashes.blake2b256 slices.txBody).val = requestedTxHash
  · rw [if_neg (by simp [hbody])] at h
    cases hextract : extractAuxiliaryDataHash slices.txBody with
    | error e => simp [hextract] at h
    | ok committed =>
        rw [hextract] at h
        obtain ⟨hcarries, hbytes⟩ := extractAuxiliaryDataHash_spec hextract
        cases haux : slices.auxData with
        | none =>
            cases committed with
            | none => exact ⟨hbody, by rw [haux]; exact hcarries, by simp [haux]⟩
            | some bytes => simp [haux] at h
        | some aux =>
            cases committed with
            | none => simp [haux] at h
            | some bytes =>
                have hsame : (hashes.blake2b256 aux).val = bytes := by
                  by_contra hne
                  simp [haux, hne] at h
                refine ⟨hbody, by rw [haux]; exact hcarries, ?_⟩
                intro aux' haux'
                rw [haux, Option.some.injEq] at haux'
                subst haux'
                rw [hsame]
                exact hbytes bytes rfl
  · rw [if_pos hbody] at h
    cases h

end Label309
