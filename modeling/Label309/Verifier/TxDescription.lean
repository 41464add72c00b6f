import Label309.Verifier.TxWitnesses
import Label309.Lib.ExceptBind

/-!
# What the description of a transaction leaves out

An entry without a key is left out of the witnesses, and an array in the tag of a set counts as
empty wherever it stands.
-/
namespace Label309.TxWitnesses
open Lowercase

/-! ## Entries -/

/-- The first member of an entry is a key. -/
def HasVkey (entry : PermissiveValue) : Prop :=
  ∃ vkey, (asArray entry)[0]? = some (.bytes vkey) ∧ vkey.length = ed25519PublicKeyLength

/-- An entry is a key and a signature that verifies. -/
def IsValidWitness (crypto : SignaturePrimitives) (txHash : List UInt8) (entry : PermissiveValue) :
    Prop :=
  ∃ vkey sig, (asArray entry)[0]? = some (.bytes vkey) ∧ vkey.length = ed25519PublicKeyLength ∧
    (asArray entry)[1]? = some (.bytes sig) ∧ sig.length = ed25519SignatureLength ∧
      ed25519Verify crypto vkey txHash sig = true

/-- A report says whether the entry is valid, and names its key. -/
def Describes (crypto : SignaturePrimitives) (txHash : List UInt8) (entry : PermissiveValue)
    (w : VerifyTxWitness) : Prop :=
  (w.signatureValid = true ↔ IsValidWitness crypto txHash entry) ∧
    ∀ vkey, (asArray entry)[0]? = some (.bytes vkey) → vkey.length = ed25519PublicKeyLength →
      w.vkey = hexEncode vkey ∧ w.keyHash = hexEncode (crypto.blake2b224 vkey).val

theorem bytesOfLength_eq_some {length : ℕ} {v : Option PermissiveValue} {b : List UInt8} :
    bytesOfLength length v = some b ↔ v = some (.bytes b) ∧ b.length = length := by
  rw [bytesOfLength.eq_def]
  split
  · rename_i c
    by_cases hlen : c.length = length
    · rw [if_pos hlen, Option.some.injEq, Option.some.injEq, PermissiveValue.bytes.injEq]
      constructor
      · intro heq
        exact ⟨heq, by rw [← heq, hlen]⟩
      · exact fun h => h.1
    · rw [if_neg hlen, Option.some.injEq, PermissiveValue.bytes.injEq]
      simp only [reduceCtorEq, false_iff, not_and]
      rintro rfl
      exact hlen
  · rename_i hno
    simp only [reduceCtorEq, false_iff, not_and]
    intro hv
    exact (hno b hv).elim

section Entry
variable {crypto : SignaturePrimitives} {txHash : List UInt8} {entry : PermissiveValue}

theorem readWitness_eq_none_iff : readWitness crypto txHash entry = none ↔ ¬ HasVkey entry := by
  rw [readWitness]
  dsimp only
  cases hvkey : bytesOfLength ed25519PublicKeyLength (asArray entry)[0]? with
  | none =>
      simp only [true_iff]
      rintro ⟨vkey, hfirst, hlen⟩
      rw [bytesOfLength_eq_some.mpr ⟨hfirst, hlen⟩] at hvkey
      cases hvkey
  | some vkey =>
      simp only [reduceCtorEq, false_iff, not_not]
      exact ⟨vkey, bytesOfLength_eq_some.mp hvkey⟩

theorem describes_of_readWitness {w : VerifyTxWitness}
    (h : readWitness crypto txHash entry = some w) : Describes crypto txHash entry w := by
  rw [readWitness] at h
  dsimp only at h
  cases hvkey : bytesOfLength ed25519PublicKeyLength (asArray entry)[0]? with
  | none =>
      rw [hvkey] at h
      cases h
  | some vkey =>
      rw [hvkey] at h
      dsimp only at h
      rw [Option.some.injEq] at h
      obtain ⟨hfirst, hlen⟩ := bytesOfLength_eq_some.mp hvkey
      rw [← h]
      constructor
      · cases hsig : bytesOfLength ed25519SignatureLength (asArray entry)[1]? with
        | none =>
            simp only [Bool.false_eq_true, false_iff]
            rintro ⟨vkey', sig, -, -, hsecond, hsigLen, -⟩
            rw [bytesOfLength_eq_some.mpr ⟨hsecond, hsigLen⟩] at hsig
            cases hsig
        | some sig =>
            obtain ⟨hsecond, hsigLen⟩ := bytesOfLength_eq_some.mp hsig
            constructor
            · intro hverify
              exact ⟨vkey, sig, hfirst, hlen, hsecond, hsigLen, hverify⟩
            · rintro ⟨vkey', sig', hfirst', -, hsecond', -, hverify⟩
              rw [hfirst, Option.some.injEq, PermissiveValue.bytes.injEq] at hfirst'
              rw [hsecond, Option.some.injEq, PermissiveValue.bytes.injEq] at hsecond'
              rw [hfirst', hsecond']
              exact hverify
      · intro vkey' hfirst' _
        rw [hfirst, Option.some.injEq, PermissiveValue.bytes.injEq] at hfirst'
        rw [hfirst']
        exact ⟨rfl, rfl⟩

/-- **One report for every entry**, when every entry has a key, and only then. -/
theorem describes_filterMap_iff {entries : List PermissiveValue} :
    List.Forall₂ (Describes crypto txHash) entries
      (entries.filterMap (readWitness crypto txHash)) ↔ ∀ entry ∈ entries, HasVkey entry := by
  have hread (entry : PermissiveValue) :
      (readWitness crypto txHash entry).isSome = true ↔ HasVkey entry := by
    rw [← not_not (a := HasVkey entry), ← @readWitness_eq_none_iff crypto txHash entry,
      Option.isSome_iff_ne_none]
  constructor
  · intro h entry hentry
    have hlen := h.length_eq.symm
    rw [List.filterMap_length_eq_length] at hlen
    exact (hread entry).mp (hlen entry hentry)
  · intro h
    induction entries with
    | nil => exact .nil
    | cons entry entries ih =>
        rw [List.forall_mem_cons] at h
        obtain ⟨w, hw⟩ := Option.isSome_iff_exists.mp ((hread entry).mpr h.1)
        rw [List.filterMap_cons_some hw]
        exact .cons (describes_of_readWitness hw) (ih h.2)

end Entry

/-! ## Sets in their tag -/

/-- The tag of a set. -/
def setTag : UInt64 := 258

/-- The entry is kept, or its array is put into the tag. -/
def WrapsEntry (isSetKey : PermissiveValue → Bool)
    (entry entry' : PermissiveValue × PermissiveValue) : Prop :=
  entry' = entry ∨ isSetKey entry.1 = true ∧
    ∃ items, entry.2 = .array items ∧ entry' = (entry.1, .tag setTag (.array items))

/-- The same map, but that some of its arrays are in the tag. -/
def WrapsSets (isSetKey : PermissiveValue → Bool) (b b' : List UInt8) : Prop :=
  b' = b ∨ ∃ pairs pairs', decodeCborPermissive b = .ok (.map pairs) ∧
    decodeCborPermissive b' = .ok (.map pairs') ∧
      List.Forall₂ (WrapsEntry isSetKey) pairs pairs'

/-- The array that is found under a key is put into the tag. -/
def WrappedAt (key : UInt64) (b b' : List UInt8) (items : List PermissiveValue) : Prop :=
  ∃ pairs pairs', decodeCborPermissive b = .ok (.map pairs) ∧
    decodeCborPermissive b' = .ok (.map pairs') ∧ mapGet pairs key = some (.array items) ∧
      mapGet pairs' key = some (.tag setTag (.array items))

/-- The entry of other witnesses has items, and they are put into the tag. -/
def LosesEntry (entry entry' : Option (PermissiveValue × PermissiveValue)) : Prop :=
  ∃ key items, entry = some (key, .array items) ∧ entry' = some (key, .tag setTag (.array items)) ∧
    isKey witnessKeyVkey key = false ∧ items ≠ []

/-- An array with items, under a key of other witnesses, is put into the tag. -/
def OthersWrapped (b b' : List UInt8) : Prop :=
  ∃ pairs pairs', decodeCborPermissive b = .ok (.map pairs) ∧
    decodeCborPermissive b' = .ok (.map pairs') ∧
      ∃ i : ℕ, LosesEntry pairs[i]? pairs'[i]?

section Wrap
variable {isSetKey : PermissiveValue → Bool} {pairs pairs' : List (PermissiveValue × PermissiveValue)}

theorem forall₂_wrapsEntry_refl (pairs : List (PermissiveValue × PermissiveValue)) :
    List.Forall₂ (WrapsEntry isSetKey) pairs pairs := by
  rw [List.forall₂_same]
  exact fun _ _ => .inl rfl

theorem mapGet_cons (entry : PermissiveValue × PermissiveValue) (key : UInt64) :
    mapGet (entry :: pairs) key = if isKey key entry.1 then some entry.2 else mapGet pairs key := by
  rw [mapGet, List.find?_cons]
  cases isKey key entry.1 with
  | true => rfl
  | false => rfl

/-- What is found is kept or put into the tag. -/
theorem mapGet_of_wraps (h : List.Forall₂ (WrapsEntry isSetKey) pairs pairs') (key : UInt64) :
    mapGet pairs' key = mapGet pairs key ∨ (∃ k, isKey key k = true ∧ isSetKey k = true) ∧
      ∃ items, mapGet pairs key = some (.array items) ∧
        mapGet pairs' key = some (.tag setTag (.array items)) := by
  induction h with
  | nil => exact .inl rfl
  | @cons entry entry' rest rest' hentry _ ih =>
      have hkey : entry'.1 = entry.1 := by
        cases hentry with
        | inl heq => rw [heq]
        | inr hwrap =>
            obtain ⟨-, items, -, heq⟩ := hwrap
            rw [heq]
      rw [mapGet_cons, mapGet_cons, hkey]
      by_cases hfound : isKey key entry.1 = true
      · rw [if_pos hfound, if_pos hfound]
        cases hentry with
        | inl heq => exact .inl (by rw [heq])
        | inr hwrap =>
            obtain ⟨hset, items, hitems, heq⟩ := hwrap
            exact .inr ⟨⟨entry.1, hfound, hset⟩, items, by rw [hitems], by rw [heq]⟩
      · rw [if_neg hfound, if_neg hfound]
        exact ih

/-- Nothing else is touched. -/
theorem mapGet_of_wraps_other (h : List.Forall₂ (WrapsEntry isSetKey) pairs pairs') {key : UInt64}
    (hkey : ∀ k, isKey key k = true → isSetKey k = false) :
    mapGet pairs' key = mapGet pairs key := by
  rcases mapGet_of_wraps h key with heq | ⟨⟨k, hk, hset⟩, -⟩
  · exact heq
  · rw [hkey k hk] at hset
    cases hset

theorem arrayAt_eq {key : UInt64} {items : List PermissiveValue}
    (h : mapGet pairs key = some (.array items)) : arrayAt pairs key = items := by
  rw [arrayAt, h]
  rfl

theorem arrayAt_wrapped {key : UInt64} {items : List PermissiveValue}
    (h : mapGet pairs' key = some (.tag setTag (.array items))) : arrayAt pairs' key = [] := by
  rw [arrayAt, h]
  rfl

/-- **What a reading of an array loses.** It is kept if and only if no array is put into the tag from
which there is anything to read. -/
theorem read_of_wraps {β : Type} (h : List.Forall₂ (WrapsEntry isSetKey) pairs pairs')
    (key : UInt64) (read : List PermissiveValue → β) :
    read (arrayAt pairs' key) = read (arrayAt pairs key) ↔
      ¬ ∃ items, mapGet pairs key = some (.array items) ∧
        mapGet pairs' key = some (.tag setTag (.array items)) ∧ read items ≠ read [] := by
  rcases mapGet_of_wraps h key with heq | ⟨-, items, hitems, hwrapped⟩
  · have hsame : arrayAt pairs' key = arrayAt pairs key := by rw [arrayAt, arrayAt, heq]
    rw [hsame]
    simp only [true_iff]
    rintro ⟨items, hitems, hwrapped, -⟩
    rw [heq, hitems] at hwrapped
    cases hwrapped
  · rw [arrayAt_eq hitems, arrayAt_wrapped hwrapped]
    constructor
    · rintro hread ⟨items', hitems', -, hne⟩
      rw [hitems, Option.some.injEq, PermissiveValue.array.injEq] at hitems'
      rw [← hitems'] at hne
      exact hne hread.symm
    · intro hno
      by_contra hne
      exact hno ⟨items, hitems, hwrapped, Ne.symm hne⟩

/-- The count of an entry of other witnesses. -/
def otherCount (entry : PermissiveValue × PermissiveValue) : ℕ :=
  if isKey witnessKeyVkey entry.1 then 0 else (asArray entry.2).length

theorem otherCount_of_wraps {entry entry' : PermissiveValue × PermissiveValue}
    (h : WrapsEntry isSetKey entry entry') : otherCount entry' ≤ otherCount entry ∧
      (otherCount entry' = otherCount entry ↔ ¬ LosesEntry (some entry) (some entry')) := by
  cases h with
  | inl heq =>
      rw [heq]
      refine ⟨le_rfl, iff_of_true rfl ?_⟩
      rintro ⟨key, items, hentry, htag, -⟩
      rw [hentry] at htag
      cases htag
  | inr hwrap =>
      obtain ⟨-, items, hitems, heq⟩ := hwrap
      have hentry : entry = (entry.1, .array items) := by rw [← hitems]
      rw [hentry] at heq ⊢
      rw [heq, otherCount, otherCount]
      dsimp only
      by_cases hkey : isKey witnessKeyVkey entry.1 = true
      · rw [if_pos hkey, if_pos hkey]
        refine ⟨le_rfl, iff_of_true rfl ?_⟩
        rintro ⟨key, items', harray, -, hother, -⟩
        rw [Option.some.injEq, Prod.mk.injEq] at harray
        rw [← harray.1, hkey] at hother
        cases hother
      · have htag : asArray (.tag setTag (.array items)) = [] := rfl
        have harray : asArray (.array items) = items := rfl
        rw [if_neg hkey, if_neg hkey, htag, harray, List.length_nil]
        refine ⟨Nat.zero_le _, ?_⟩
        constructor
        · rintro hzero ⟨key, items', harray, -, -, hne⟩
          rw [Option.some.injEq, Prod.mk.injEq, PermissiveValue.array.injEq] at harray
          rw [← harray.2] at hne
          exact hne (List.eq_nil_of_length_eq_zero hzero.symm)
        · intro hno
          by_contra hzero
          refine hno ⟨entry.1, items, rfl, rfl, by simpa using hkey, ?_⟩
          rintro rfl
          exact hzero rfl

theorem sum_otherCount_of_wraps (h : List.Forall₂ (WrapsEntry isSetKey) pairs pairs') :
    (pairs'.map otherCount).sum ≤ (pairs.map otherCount).sum ∧
      ((pairs'.map otherCount).sum = (pairs.map otherCount).sum ↔
        ¬ ∃ i : ℕ, LosesEntry pairs[i]? pairs'[i]?) := by
  induction h with
  | nil =>
      refine ⟨le_rfl, iff_of_true rfl ?_⟩
      rintro ⟨i, key, items, hentry, -⟩
      cases hentry
  | @cons entry entry' rest rest' hentry _ ih =>
      obtain ⟨hle, hiff⟩ := otherCount_of_wraps hentry
      have hexists : (∃ i : ℕ, LosesEntry (entry :: rest)[i]? (entry' :: rest')[i]?) ↔
          LosesEntry (some entry) (some entry') ∨ ∃ i : ℕ, LosesEntry rest[i]? rest'[i]? := by
        constructor
        · rintro ⟨i, hi⟩
          cases i with
          | zero => exact .inl hi
          | succ i => exact .inr ⟨i, hi⟩
        · rintro (hfirst | ⟨i, hi⟩)
          · exact ⟨0, hfirst⟩
          · exact ⟨i + 1, hi⟩
      have hsum := ih.1
      rw [List.map_cons, List.map_cons, List.sum_cons, List.sum_cons, hexists, not_or, ← hiff,
        ← ih.2]
      omega

end Wrap

/-! ## The witnesses -/

section Witnesses
variable {crypto : SignaturePrimitives} {hash : ContentHashes} {ws ws' body : List UInt8}

theorem decodeTxWitnesses_eq {pairs : List (PermissiveValue × PermissiveValue)}
    (h : decodeCborPermissive ws = .ok (.map pairs)) :
    decodeTxWitnesses crypto hash ws body =
      (arrayAt pairs witnessKeyVkey).filterMap (readWitness crypto (hash.blake2b256 body).val) := by
  rw [decodeTxWitnesses, h, arrayAt]
  dsimp only [asMap]
  cases mapGet pairs witnessKeyVkey with
  | none => rfl
  | some v => rfl

theorem countScriptWitnesses_eq {pairs : List (PermissiveValue × PermissiveValue)}
    (h : decodeCborPermissive ws = .ok (.map pairs)) :
    countScriptWitnesses ws = (pairs.map otherCount).sum := by
  rw [countScriptWitnesses, h]
  rfl

/-- Every witness is described, one report for an entry. -/
def DescribesWitnesses (crypto : SignaturePrimitives) (hash : ContentHashes)
    (ws body : List UInt8) : Prop :=
  ∀ pairs items, decodeCborPermissive ws = .ok (.map pairs) →
    mapGet pairs witnessKeyVkey = some (.array items) →
      List.Forall₂ (Describes crypto (hash.blake2b256 body).val) items
        (decodeTxWitnesses crypto hash ws body)

/-- Every entry of the array of witnesses has a key. -/
def WitnessesHaveKeys (ws : List UInt8) : Prop :=
  ∀ pairs items, decodeCborPermissive ws = .ok (.map pairs) →
    mapGet pairs witnessKeyVkey = some (.array items) → ∀ entry ∈ items, HasVkey entry

theorem describesWitnesses_iff :
    DescribesWitnesses crypto hash ws body ↔ WitnessesHaveKeys ws := by
  rw [DescribesWitnesses, WitnessesHaveKeys]
  refine forall_congr' fun pairs => forall_congr' fun items => forall_congr' fun hpairs =>
    forall_congr' fun hitems => ?_
  rw [decodeTxWitnesses_eq hpairs, arrayAt_eq hitems, describes_filterMap_iff]

/-- The witnesses in the tag have keys. -/
def HidesWitness (ws ws' : List UInt8) : Prop :=
  ∃ items, WrappedAt witnessKeyVkey ws ws' items ∧ ∃ entry ∈ items, HasVkey entry

theorem not_wrappedAt_self {key : UInt64} {b : List UInt8} {items : List PermissiveValue} :
    ¬ WrappedAt key b b items := by
  rintro ⟨pairs, pairs', hb, hb', hitems, hwrapped⟩
  rw [hb, Except.ok.injEq, PermissiveValue.map.injEq] at hb'
  rw [← hb', hitems] at hwrapped
  cases hwrapped

theorem wrappedAt_iff {key : UInt64} {b b' : List UInt8}
    {pairs pairs' : List (PermissiveValue × PermissiveValue)} {items : List PermissiveValue}
    (h : decodeCborPermissive b = .ok (.map pairs)) (h' : decodeCborPermissive b' = .ok (.map pairs')) :
    WrappedAt key b b' items ↔ mapGet pairs key = some (.array items) ∧
      mapGet pairs' key = some (.tag setTag (.array items)) := by
  constructor
  · rintro ⟨found, found', hb, hb', hitems⟩
    rw [h, Except.ok.injEq, PermissiveValue.map.injEq] at hb
    rw [h', Except.ok.injEq, PermissiveValue.map.injEq] at hb'
    rwa [hb, hb']
  · exact fun hitems => ⟨pairs, pairs', h, h', hitems⟩

/-- **The witnesses in the tag are lost.** -/
theorem decodeTxWitnesses_of_wraps {isSetKey : PermissiveValue → Bool}
    (h : WrapsSets isSetKey ws ws') :
    decodeTxWitnesses crypto hash ws' body = decodeTxWitnesses crypto hash ws body ↔
      ¬ HidesWitness ws ws' := by
  rcases h with rfl | ⟨pairs, pairs', hws, hws', hwraps⟩
  · refine iff_of_true rfl ?_
    rintro ⟨items, hwrapped, -⟩
    exact not_wrappedAt_self hwrapped
  · rw [decodeTxWitnesses_eq hws, decodeTxWitnesses_eq hws', read_of_wraps hwraps witnessKeyVkey
      (List.filterMap (readWitness crypto (hash.blake2b256 body).val)), not_iff_not]
    refine exists_congr fun items => ?_
    rw [wrappedAt_iff hws hws', and_assoc, List.filterMap_nil, ne_eq, List.filterMap_eq_nil_iff]
    simp only [readWitness_eq_none_iff, not_forall, not_not, exists_prop]

end Witnesses

/-! ## The summary -/

/-- What a summary says of the sets. -/
def setFields (s : VerifyTxSummary) : ℕ × Option (List String) × ℕ :=
  (s.inputCount, s.requiredSignerKeyHashes, s.scriptWitnessCount)

/-- The required signers, if there are any. -/
def signersOf (items : List PermissiveValue) : Option (List String) :=
  if items.filterMap signerHash = [] then none else some (items.filterMap signerHash)

/-- What a summary reads besides the sets. -/
def readOthers (unicode : CasePair) (network : CardanoNetwork)
    (pairs : List (PermissiveValue × PermissiveValue)) :
    Except TxSummaryError ((List VerifyTxOutput × ℕ) × String) := do
  let outputs ← readOutputs unicode network 0 (arrayAt pairs bodyKeyOutputs)
  let fee ← coinToString (mapGet pairs bodyKeyFee)
  .ok (outputs, fee)

/-- The keys of the sets of a body. -/
def isBodySetKey (key : PermissiveValue) : Bool :=
  isKey bodyKeyInputs key || isKey bodyKeyRequiredSigners key

section Summary
variable {unicode : CasePair} {network : CardanoNetwork} {ws ws' body body' : List UInt8}

theorem isBodySetKey_eq_false {key : UInt64} (hinputs : key ≠ bodyKeyInputs)
    (hsigners : key ≠ bodyKeyRequiredSigners) (k : PermissiveValue) (h : isKey key k = true) :
    isBodySetKey k = false := by
  rw [isKey.eq_def] at h
  split at h
  · rename_i n
    rw [decide_eq_true_eq] at h
    rw [isBodySetKey, isKey, isKey, h]
    simp [hinputs, hsigners]
  · cases h

theorem setFields_decodeTxSummary {pairs : List (PermissiveValue × PermissiveValue)}
    (h : decodeCborPermissive body = .ok (.map pairs)) :
    (decodeTxSummary unicode body ws network).map setFields =
      (readOthers unicode network pairs).map fun _ => ((arrayAt pairs bodyKeyInputs).length,
        signersOf (arrayAt pairs bodyKeyRequiredSigners), countScriptWitnesses ws) := by
  rw [decodeTxSummary, readOthers, h]
  cases hout : readOutputs unicode network 0 (arrayAt pairs bodyKeyOutputs) with
  | error e => simp [Except.mapError, asMap, hout, Except.map]
  | ok outputs =>
      cases hfee : coinToString (mapGet pairs bodyKeyFee) with
      | error e => simp [Except.mapError, asMap, hout, hfee, Except.map]
      | ok fee => simp [Except.mapError, asMap, hout, hfee, Except.map, setFields, signersOf]

/-- A body that is no map has one error, whatever the witnesses are. -/
theorem decodeTxSummary_of_not_map
    (h : ¬ ∃ pairs, decodeCborPermissive body = .ok (.map pairs)) :
    decodeTxSummary unicode body ws' network = decodeTxSummary unicode body ws network := by
  rw [decodeTxSummary, decodeTxSummary]
  cases hdecode : decodeCborPermissive body with
  | error e => rfl
  | ok decoded =>
      have hnone : asMap decoded = none := by
        rw [asMap.eq_def]
        split
        · exact absurd ⟨_, hdecode⟩ h
        · rfl
      simp only [Except.mapError, ExceptBind.ok_bind, hnone, Option.elim_none,
        ExceptBind.error_bind]

/-- The body has a summary. -/
def Summarisable (unicode : CasePair) (network : CardanoNetwork) (body : List UInt8) : Prop :=
  ∃ pairs others, decodeCborPermissive body = .ok (.map pairs) ∧
    readOthers unicode network pairs = .ok others

/-- There is something to count or to name in an array that is put into the tag. -/
def HidesFromSummary (body body' ws ws' : List UInt8) : Prop :=
  (∃ items, WrappedAt bodyKeyInputs body body' items ∧ items ≠ []) ∨
    (∃ items, WrappedAt bodyKeyRequiredSigners body body' items ∧ ∃ b, .bytes b ∈ items) ∨
      OthersWrapped ws ws'

theorem not_othersWrapped_self : ¬ OthersWrapped ws ws := by
  rintro ⟨pairs, pairs', hws, hws', i, key, items, hentry, hwrapped, -⟩
  rw [hws, Except.ok.injEq, PermissiveValue.map.injEq] at hws'
  rw [← hws', hentry, Option.some.injEq, Prod.mk.injEq] at hwrapped
  cases hwrapped.2

theorem countScriptWitnesses_of_wraps {isSetKey : PermissiveValue → Bool}
    (h : WrapsSets isSetKey ws ws') :
    countScriptWitnesses ws' = countScriptWitnesses ws ↔ ¬ OthersWrapped ws ws' := by
  rcases h with rfl | ⟨pairs, pairs', hws, hws', hwraps⟩
  · exact iff_of_true rfl not_othersWrapped_self
  · rw [countScriptWitnesses_eq hws, countScriptWitnesses_eq hws',
      (sum_otherCount_of_wraps hwraps).2, not_iff_not]
    constructor
    · exact fun hloses => ⟨pairs, pairs', hws, hws', hloses⟩
    · rintro ⟨found, found', hfound, hfound', hloses⟩
      rw [hws, Except.ok.injEq, PermissiveValue.map.injEq] at hfound
      rw [hws', Except.ok.injEq, PermissiveValue.map.injEq] at hfound'
      rwa [hfound, hfound']

theorem signersOf_ne_none_iff {items : List PermissiveValue} :
    signersOf items ≠ signersOf [] ↔ ∃ b, .bytes b ∈ items := by
  have hnil : signersOf [] = none := rfl
  rw [hnil, signersOf]
  by_cases hempty : items.filterMap signerHash = []
  · rw [if_pos hempty]
    rw [List.filterMap_eq_nil_iff] at hempty
    refine iff_of_false (not_not.mpr rfl) ?_
    rintro ⟨b, hb⟩
    cases hempty _ hb
  · rw [if_neg hempty]
    refine iff_of_true (by simp) ?_
    rw [List.filterMap_eq_nil_iff] at hempty
    simp only [not_forall, exists_prop] at hempty
    obtain ⟨item, hitem, hsome⟩ := hempty
    rw [signerHash.eq_def] at hsome
    split at hsome
    · exact ⟨_, hitem⟩
    · exact absurd rfl hsome

/-- **What the summary loses.** -/
theorem setFields_of_wraps {isSetKey : PermissiveValue → Bool}
    (hbody : WrapsSets isBodySetKey body body') (hws : WrapsSets isSetKey ws ws') :
    (decodeTxSummary unicode body' ws' network).map setFields =
        (decodeTxSummary unicode body ws network).map setFields ↔
      ¬ (Summarisable unicode network body ∧ HidesFromSummary body body' ws ws') := by
  by_cases hmap : ∃ pairs, decodeCborPermissive body = .ok (.map pairs)
  · obtain ⟨pairs, hpairs⟩ := hmap
    obtain ⟨pairs', hpairs', hwraps⟩ : ∃ pairs', decodeCborPermissive body' = .ok (.map pairs') ∧
        List.Forall₂ (WrapsEntry isBodySetKey) pairs pairs' := by
      rcases hbody with rfl | ⟨found, found', hfound, hfound', hwraps⟩
      · exact ⟨pairs, hpairs, forall₂_wrapsEntry_refl pairs⟩
      · rw [hpairs, Except.ok.injEq, PermissiveValue.map.injEq] at hfound
        exact ⟨found', hfound', by rwa [hfound]⟩
    have hothers : readOthers unicode network pairs' = readOthers unicode network pairs := by
      rw [readOthers, readOthers, arrayAt, arrayAt,
        mapGet_of_wraps_other hwraps (isBodySetKey_eq_false (by decide) (by decide)),
        mapGet_of_wraps_other hwraps (isBodySetKey_eq_false (by decide) (by decide))]
    rw [setFields_decodeTxSummary hpairs, setFields_decodeTxSummary hpairs', hothers]
    cases hread : readOthers unicode network pairs with
    | error e =>
        refine iff_of_true rfl ?_
        rintro ⟨⟨found, others, hfound, hok⟩, -⟩
        rw [hpairs, Except.ok.injEq, PermissiveValue.map.injEq] at hfound
        rw [← hfound, hread] at hok
        cases hok
    | ok others =>
        have hsummarisable : Summarisable unicode network body := ⟨pairs, others, hpairs, hread⟩
        have hinputs := read_of_wraps hwraps bodyKeyInputs List.length
        have hsigners := read_of_wraps hwraps bodyKeyRequiredSigners signersOf
        have hcount := countScriptWitnesses_of_wraps hws
        simp only [Except.map, Except.ok.injEq, Prod.mk.injEq]
        rw [hinputs, hsigners, hcount, HidesFromSummary]
        simp only [hsummarisable, true_and, not_or, wrappedAt_iff hpairs hpairs', and_assoc,
          signersOf_ne_none_iff, ne_eq, List.length_nil, List.length_eq_zero_iff]
  · refine iff_of_true ?_ ?_
    · rcases hbody with rfl | ⟨pairs, pairs', hpairs, -⟩
      · rw [decodeTxSummary_of_not_map hmap]
      · exact absurd ⟨pairs, hpairs⟩ hmap
    · rintro ⟨⟨pairs, others, hpairs, -⟩, -⟩
      exact hmap ⟨pairs, hpairs⟩

end Summary

/-! ## The property -/

/-- The witnesses are kept when sets are put into the tag. -/
def WitnessesKept (crypto : SignaturePrimitives) (hash : ContentHashes)
    (ws ws' body : List UInt8) : Prop :=
  WrapsSets (fun _ => true) ws ws' →
    decodeTxWitnesses crypto hash ws' body = decodeTxWitnesses crypto hash ws body

/-- What a summary says of the sets is kept when sets are put into the tag. -/
def SummaryKept (unicode : CasePair) (network : CardanoNetwork)
    (ws ws' body body' : List UInt8) : Prop :=
  WrapsSets isBodySetKey body body' → WrapsSets (fun _ => true) ws ws' →
    (decodeTxSummary unicode body' ws' network).map setFields =
      (decodeTxSummary unicode body ws network).map setFields

/-- **What the description of a transaction leaves out.** -/
theorem txDescription_exact_iff (crypto : SignaturePrimitives) (hash : ContentHashes)
    (unicode : CasePair) (network : CardanoNetwork) (ws ws' body body' : List UInt8) :
    (DescribesWitnesses crypto hash ws body ↔ WitnessesHaveKeys ws) ∧
    (WitnessesKept crypto hash ws ws' body ↔
      ¬ (WrapsSets (fun _ => true) ws ws' ∧ HidesWitness ws ws')) ∧
    (SummaryKept unicode network ws ws' body body' ↔
      ¬ (WrapsSets isBodySetKey body body' ∧ WrapsSets (fun _ => true) ws ws' ∧
        Summarisable unicode network body ∧ HidesFromSummary body body' ws ws')) := by
  refine ⟨describesWitnesses_iff, ?_, ?_⟩
  · by_cases hws : WrapsSets (fun _ => true) ws ws'
    · simp only [WitnessesKept, hws, true_and, true_implies, decodeTxWitnesses_of_wraps hws]
    · simp only [WitnessesKept, hws, false_and, not_false_eq_true, false_implies]
  · by_cases hws : WrapsSets (fun _ => true) ws ws'
    · by_cases hbody : WrapsSets isBodySetKey body body'
      · simp only [SummaryKept, hws, hbody, true_and, true_implies, setFields_of_wraps hbody hws]
      · simp only [SummaryKept, hbody, false_and, not_false_eq_true, false_implies]
    · simp only [SummaryKept, hws, false_and, and_false, not_false_eq_true, false_implies,
        implies_true]

/-- Primitives that take every signature. -/
def lenientCrypto : SignaturePrimitives where
  verifyStrict := fun _ _ _ => true
  blake2b224 := fun _ => ⟨List.replicate 28 0, List.length_replicate⟩

def zeroHashes : ContentHashes where
  sha256 := fun _ => ⟨List.replicate 32 0, List.length_replicate⟩
  blake2b256 := fun _ => ⟨List.replicate 32 0, List.length_replicate⟩

/-- Witnesses that are one empty array. -/
def emptyWitness : List UInt8 := [0xa1, 0x00, 0x81, 0x80]

/-- Witnesses that are one key with an empty signature, and the same in the tag. -/
def oneWitness : List UInt8 :=
  [0xa1, 0x00] ++ ([0x81, 0x82, 0x58, 0x20] ++ List.replicate 32 0 ++ [0x40])

def taggedWitness : List UInt8 :=
  [0xa1, 0x00, 0xd9, 0x01, 0x02] ++ ([0x81, 0x82, 0x58, 0x20] ++ List.replicate 32 0 ++ [0x40])

/-- A body with one input and no fee, and the same with its inputs in the tag. -/
def oneInput : List UInt8 := [0xa2, 0x00, 0x81, 0x00, 0x02, 0x00]

def taggedInput : List UInt8 := [0xa2, 0x00, 0xd9, 0x01, 0x02, 0x81, 0x00, 0x02, 0x00]

theorem decode_oneWitness : decodeCborPermissive oneWitness =
    .ok (.map [(.unsigned 0, .array [.array [.bytes (List.replicate 32 0), .bytes []]])]) := by rfl

theorem decode_taggedWitness : decodeCborPermissive taggedWitness =
    .ok (.map [(.unsigned 0,
      .tag setTag (.array [.array [.bytes (List.replicate 32 0), .bytes []]]))]) := by rfl

theorem decode_oneInput : decodeCborPermissive oneInput =
    .ok (.map [(.unsigned 0, .array [.unsigned 0]), (.unsigned 2, .unsigned 0)]) := by rfl

theorem decode_taggedInput : decodeCborPermissive taggedInput =
    .ok (.map [(.unsigned 0, .tag setTag (.array [.unsigned 0])), (.unsigned 2, .unsigned 0)]) := by
  rfl

theorem txDescription_not_exact :
    ¬ DescribesWitnesses lenientCrypto zeroHashes emptyWitness [] ∧
      ¬ WitnessesKept lenientCrypto zeroHashes oneWitness taggedWitness [] ∧
        ¬ SummaryKept asciiCase .mainnet emptyWitness emptyWitness oneInput taggedInput := by
  refine ⟨?_, ?_, ?_⟩
  · intro h
    have hone := h [(.unsigned 0, .array [.array []])] [.array []] rfl rfl
    exact absurd hone.length_eq (by decide)
  · intro h
    have hwraps : WrapsSets (fun _ => true) oneWitness taggedWitness :=
      .inr ⟨_, _, decode_oneWitness, decode_taggedWitness, .cons (.inr ⟨rfl, _, rfl, rfl⟩) .nil⟩
    refine (decodeTxWitnesses_of_wraps hwraps).mp (h hwraps) ⟨_,
      (wrappedAt_iff decode_oneWitness decode_taggedWitness).mpr ⟨rfl, rfl⟩, _,
      List.mem_singleton_self _, List.replicate 32 0, rfl, List.length_replicate⟩
  · intro h
    have hwraps : WrapsSets isBodySetKey oneInput taggedInput :=
      .inr ⟨_, _, decode_oneInput, decode_taggedInput,
        .cons (.inr ⟨rfl, _, rfl, rfl⟩) (.cons (.inl rfl) .nil)⟩
    have hsame : WrapsSets (fun _ => true) emptyWitness emptyWitness := .inl rfl
    refine (setFields_of_wraps hwraps hsame).mp (h hwraps hsame) ⟨?_, .inl ?_⟩
    · exact ⟨_, (([], 0), "0"), decode_oneInput, rfl⟩
    · exact ⟨[.unsigned 0], (wrappedAt_iff decode_oneInput decode_taggedInput).mpr ⟨rfl, rfl⟩,
        List.cons_ne_nil _ _⟩

end Label309.TxWitnesses
