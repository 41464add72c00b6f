import Label309.SealedPoe.SealStream
import Label309.SealedPoe.WrapSpec

/-!
# Drawing under a latch

The closure of the operating system's generator remembers its first failure. Building an
envelope keeps that memory right, and comes to an end once a call has failed.
-/
namespace Label309

/-! ## Drawing keeps the latch -/

section Keeps
variable {σ α β : Type} (inv : σ → Prop) (total : Prop)

/-- From a state with the invariant the computation ends, if it is `total`. It ends in a
state with the invariant, and no error of its own says that the generator is unavailable. -/
def Draw.Keeps (m : Draw σ α) : Prop :=
  ∀ s, inv s → (total → m s ≠ none) ∧
    ∀ r s', m s = some (r, s') → inv s' ∧ ∀ e, r = .error e → e.code ≠ .rngUnavailable

variable {inv} {total}

theorem Draw.Keeps.ofExcept {r : Except EciesSealedPoeError α}
    (hcode : ∀ e, r = .error e → e.code ≠ .rngUnavailable) :
    (Draw.ofExcept r : Draw σ α).Keeps inv total := by
  intro s hs
  refine ⟨fun _ => Option.some_ne_none _, ?_⟩
  intro r' s' hrun
  cases hrun
  exact ⟨hs, hcode⟩

theorem Draw.Keeps.pure (a : α) : (Draw.pure a : Draw σ α).Keeps inv total :=
  .ofExcept fun _ he => by cases he

theorem Draw.Keeps.fail {code : EciesSealedPoeErrorCode} (message : String)
    (hcode : code ≠ .rngUnavailable) : (Draw.fail code message : Draw σ α).Keeps inv total := by
  apply Draw.Keeps.ofExcept
  intro e he
  cases he
  exact hcode

theorem Draw.Keeps.bind {m : Draw σ α} {f : α → Draw σ β} (hm : m.Keeps inv total)
    (hf : ∀ a, (∃ s s', m.Gives s a s') → (f a).Keeps inv total) :
    (Draw.bind m f).Keeps inv total := by
  intro s hs
  obtain ⟨hends, hkeeps⟩ := hm s hs
  rw [Draw.bind]
  cases hstep : m s with
  | none => exact ⟨fun htotal => absurd hstep (hends htotal), fun r s' hrun => by cases hrun⟩
  | some step =>
      cases step with
      | mk result s' =>
          obtain ⟨hs', hcode⟩ := hkeeps result s' hstep
          cases result with
          | ok a => exact hf a ⟨s, s', hstep⟩ s' hs'
          | error e =>
              refine ⟨fun _ => Option.some_ne_none _, ?_⟩
              intro r s'' hrun
              cases hrun
              refine ⟨hs', ?_⟩
              intro e' he'
              cases he'
              exact hcode e rfl

/-- The rule for a part about whose value nothing need be known. -/
theorem Draw.Keeps.seq {m : Draw σ α} {f : α → Draw σ β} (hm : m.Keeps inv total)
    (hf : ∀ a, (f a).Keeps inv total) : (Draw.bind m f).Keeps inv total :=
  hm.bind fun a _ => hf a

variable {rng : RandomSource σ} (hrng : ∀ s n buf, inv s → inv (rng s n buf).2)
include hrng

theorem Draw.Keeps.fill (n : ℕ) : (Draw.fill rng n).Keeps inv total := by
  intro s hs
  refine ⟨fun _ => Option.some_ne_none _, ?_⟩
  intro r s' hrun
  cases hrun
  exact ⟨hrng s n _ hs, fun e he => by cases he⟩

/-- The sampling keeps the invariant; whether it ends is left to the source. -/
theorem keeps_uniformIndexBelow {m bound : ℕ}
    (hends : total → ∀ s, inv s → uniformIndexBelow rng m bound s ≠ none) :
    (uniformIndexBelow rng m bound).Keeps inv total := by
  have hkeeps : (uniformIndexBelow rng m bound).Keeps inv False := by
    clear hends
    induction bound with
    | zero => exact fun s _ => ⟨False.elim, fun r s' hrun => by cases hrun⟩
    | succ bound ih =>
        rw [uniformIndexBelow]
        apply Draw.Keeps.seq (.fill hrng 4)
        intro buf
        by_cases hbelow : u32FromLe buf < uniformIndexCeiling m
        · rw [if_pos hbelow]
          exact .pure _
        · rw [if_neg hbelow]
          exact ih
  exact fun s hs => ⟨fun htotal => hends htotal s hs, (hkeeps s hs).2⟩

section Shuffle
variable {bound : ℕ} (hends : total → ∀ m, 0 < m → m ≤ 2 ^ 32 → ∀ s, inv s →
  uniformIndexBelow rng m bound s ≠ none)
include hends

theorem keeps_shuffleFrom {i : ℕ} (hi : total → i + 1 < 2 ^ 32) (arr : Array α) :
    (shuffleFrom rng bound i arr).Keeps inv total := by
  induction i generalizing arr with
  | zero => exact .pure arr
  | succ i ih =>
      rw [shuffleFrom]
      apply Draw.Keeps.seq
      · apply keeps_uniformIndexBelow hrng
        intro htotal
        have hlt := hi htotal
        rw [Nat.mod_eq_of_lt hlt]
        exact hends htotal _ (by omega) (by omega)
      · intro j
        exact ih (fun htotal => Nat.lt_of_succ_lt (hi htotal)) _

theorem keeps_csprngShuffle {slots : List α} (hslots : total → slots.length < 2 ^ 32) :
    (csprngShuffle rng bound slots).Keeps inv total := by
  rw [csprngShuffle]
  by_cases hshort : slots.length < 2
  · rw [if_pos hshort]
    exact .pure _
  · rw [if_neg hshort]
    have hlast : total → slots.length - 1 + 1 < 2 ^ 32 := by
      intro htotal
      have hlt := hslots htotal
      omega
    exact .seq (keeps_shuffleFrom hrng hends hlast _) fun _ => .pure _

end Shuffle

theorem keeps_overrideOrFresh (override : Option (List UInt8)) (length : ℕ)
    {code : EciesSealedPoeErrorCode} (name : String) (hcode : code ≠ .rngUnavailable) :
    (overrideOrFresh rng override length code name).Keeps inv total := by
  cases override with
  | none => exact .seq (.fill hrng length) fun _ => .pure _
  | some b =>
      rw [overrideOrFresh]
      by_cases hlen : b.length = length
      · rw [if_neg (by simpa using hlen)]
        exact .pure b
      · rw [if_pos hlen]
        exact .fail _ hcode

theorem keeps_ephemeralSecret (privEph : Option (List UInt8)) (slotIdx : ℕ) :
    (ephemeralSecret rng privEph slotIdx).Keeps inv total := by
  cases privEph with
  | none => exact .seq (.fill hrng 32) fun _ => .pure _
  | some eph =>
      rw [ephemeralSecret]
      by_cases hlen : eph.length = 32
      · rw [if_neg (by simpa using hlen)]
        exact .pure eph
      · rw [if_pos hlen]
        exact .fail _ (by decide)

theorem keeps_encapsulationSeed (overrides : Option (List (List UInt8))) (i : ℕ) :
    (encapsulationSeed rng overrides i).Keeps inv total := by
  cases overrides with
  | none => exact .seq (.fill hrng _) fun _ => .pure _
  | some e => exact .pure _

section Envelope
variable (crypto : SealedPrimitives)

omit hrng in
theorem code_of_x25519SlotOf {eph pub cek nonce : List UInt8} {slotIdx : ℕ}
    {e : EciesSealedPoeError} (h : x25519SlotOf crypto eph pub cek nonce slotIdx = .error e) :
    e.code ≠ .rngUnavailable := by
  rw [x25519SlotOf] at h
  split at h <;> cases h <;> simp

omit hrng in
theorem code_of_wrapSlotMlkem768X25519 {pub eseed cek nonce : List UInt8} {slotIdx : ℕ}
    {e : EciesSealedPoeError}
    (h : wrapSlotMlkem768X25519 crypto pub eseed cek nonce slotIdx = .error e) :
    e.code ≠ .rngUnavailable := by
  rw [wrapSlotMlkem768X25519] at h
  split at h <;> cases h
  simp

omit hrng in
theorem code_of_checkWrapArgs {args : WrapArgs} {kem : SealedKem} {e : EciesSealedPoeError}
    (h : checkWrapArgs args kem = .error e) : e.code ≠ .rngUnavailable := by
  simp only [checkWrapArgs.eq_def] at h
  split at h
  · cases h
    simp
  · split at h
    · cases h
      simp
    · split at h
      · split at h
        · cases h
          simp
        · split at h
          · cases h
          · split at h
            · cases h
              simp
            · cases h
      · split at h
        · cases h
          simp
        · split at h
          · cases h
          · split at h
            · cases h
              simp
            · split at h
              · cases h
                simp
              · cases h

omit hrng in
theorem code_of_assertUniqueSlotKemMaterial {slots : SealedSlots} {e : EciesSealedPoeError}
    (h : assertUniqueSlotKemMaterial slots = .error e) : e.code ≠ .rngUnavailable := by
  rw [assertUniqueSlotKemMaterial] at h
  split at h <;> cases h
  simp

omit hrng in
theorem code_of_assembleEnvelope {args : WrapArgs} {kem : SealedKem} {cek nonce : List UInt8}
    {slots : SealedSlots} {e : EciesSealedPoeError}
    (h : assembleEnvelope crypto args kem cek nonce slots = .error e) :
    e.code ≠ .rngUnavailable := by
  rw [assembleEnvelope, itemHashesHash] at h
  by_cases hempty : args.hashes.entries.isEmpty = true
  · rw [if_pos hempty] at h
    cases h
    decide
  · rw [if_neg hempty] at h
    cases h

theorem keeps_wrapSlotsX25519 (overrides : Option (List (List UInt8))) (cek nonce : List UInt8)
    (i : ℕ) (pubs : List (List UInt8)) :
    (wrapSlotsX25519 crypto rng overrides cek nonce i pubs).Keeps inv total := by
  induction pubs generalizing i with
  | nil => exact .pure []
  | cons pub pubs ih =>
      rw [wrapSlotsX25519]
      apply Draw.Keeps.seq
      · rw [wrapSlotX25519]
        apply Draw.Keeps.seq (keeps_ephemeralSecret hrng _ _)
        intro eph
        exact .ofExcept fun _ he => code_of_x25519SlotOf crypto he
      · intro slot
        exact .seq (ih (i + 1)) fun _ => .pure _

theorem keeps_wrapSlotsMlkem768X25519 (overrides : Option (List (List UInt8)))
    (cek nonce : List UInt8) (i : ℕ) (pubs : List (List UInt8)) :
    (wrapSlotsMlkem768X25519 crypto rng overrides cek nonce i pubs).Keeps inv total := by
  induction pubs generalizing i with
  | nil => exact .pure []
  | cons pub pubs ih =>
      rw [wrapSlotsMlkem768X25519]
      apply Draw.Keeps.seq (keeps_encapsulationSeed hrng _ _)
      intro eseed
      apply Draw.Keeps.seq (.ofExcept fun _ he => code_of_wrapSlotMlkem768X25519 crypto he)
      intro slot
      exact .seq (ih (i + 1)) fun _ => .pure _

theorem keeps_wrapSlots (args : WrapArgs) (kem : SealedKem) (cek nonce : List UInt8) :
    (wrapSlots crypto rng args kem cek nonce).Keeps inv total := by
  cases kem with
  | x25519 => exact .seq (keeps_wrapSlotsX25519 hrng crypto _ _ _ _ _) fun _ => .pure _
  | mlkem768X25519 =>
      exact .seq (keeps_wrapSlotsMlkem768X25519 hrng crypto _ _ _ _ _) fun _ => .pure _

omit hrng in
theorem length_of_gives_wrapSlotsX25519 {overrides : Option (List (List UInt8))}
    {cek nonce : List UInt8} {i : ℕ} {pubs : List (List UInt8)} {s s' : σ}
    {slots : List X25519Slot}
    (h : (wrapSlotsX25519 crypto rng overrides cek nonce i pubs).Gives s slots s') :
    slots.length = pubs.length := by
  induction pubs generalizing i s s' slots with
  | nil =>
      rw [wrapSlotsX25519, Draw.gives_pure] at h
      rw [h.1, List.length_nil, List.length_nil]
  | cons pub pubs ih =>
      simp only [wrapSlotsX25519, Draw.gives_bind, Draw.gives_pure] at h
      obtain ⟨slot, _, -, rest, _, hrest, rfl, -⟩ := h
      rw [List.length_cons, List.length_cons, ih hrest]

omit hrng in
theorem length_of_gives_wrapSlotsMlkem768X25519 {overrides : Option (List (List UInt8))}
    {cek nonce : List UInt8} {i : ℕ} {pubs : List (List UInt8)} {s s' : σ}
    {slots : List Mlkem768X25519Slot}
    (h : (wrapSlotsMlkem768X25519 crypto rng overrides cek nonce i pubs).Gives s slots s') :
    slots.length = pubs.length := by
  induction pubs generalizing i s s' slots with
  | nil =>
      rw [wrapSlotsMlkem768X25519, Draw.gives_pure] at h
      rw [h.1, List.length_nil, List.length_nil]
  | cons pub pubs ih =>
      simp only [wrapSlotsMlkem768X25519, Draw.gives_bind, Draw.gives_pure] at h
      obtain ⟨eseed, _, -, slot, _, -, rest, _, hrest, rfl, -⟩ := h
      rw [List.length_cons, List.length_cons, ih hrest]

omit hrng in
/-- There is a slot for every recipient. -/
theorem length_of_gives_wrapSlots {args : WrapArgs} {kem : SealedKem} {cek nonce : List UInt8}
    {s s' : σ} {slots : SealedSlots}
    (h : (wrapSlots crypto rng args kem cek nonce).Gives s slots s') :
    slots.length = args.recipientPublicKeys.length := by
  cases kem with
  | x25519 =>
      simp only [wrapSlots, Draw.gives_bind, Draw.gives_pure] at h
      obtain ⟨ordered, _, hordered, rfl, -⟩ := h
      exact length_of_gives_wrapSlotsX25519 crypto hordered
  | mlkem768X25519 =>
      simp only [wrapSlots, Draw.gives_bind, Draw.gives_pure] at h
      obtain ⟨ordered, _, hordered, rfl, -⟩ := h
      exact length_of_gives_wrapSlotsMlkem768X25519 crypto hordered

section Shuffle
variable {bound : ℕ} (hends : total → ∀ m, 0 < m → m ≤ 2 ^ 32 → ∀ s, inv s →
  uniformIndexBelow rng m bound s ≠ none)
include hends

theorem keeps_shuffleSlots (args : WrapArgs) {slots : SealedSlots}
    (hslots : total → slots.length < 2 ^ 32) :
    (shuffleSlots rng args bound slots).Keeps inv total := by
  rw [shuffleSlots.eq_def]
  by_cases hskip : args.skipShuffle = true
  · rw [if_pos hskip]
    exact .pure slots
  · rw [if_neg hskip]
    cases slots with
    | x25519 slots => exact .seq (keeps_csprngShuffle hrng hends hslots) fun _ => .pure _
    | mlkem768X25519 slots => exact .seq (keeps_csprngShuffle hrng hends hslots) fun _ => .pure _

/-- Building an envelope, for no more recipients than the sampling can index. -/
theorem keeps_wrapEnvelopeWithRng {args : WrapArgs}
    (hrecipients : total → args.recipientPublicKeys.length < 2 ^ 32) :
    (wrapEnvelopeWithRng crypto rng bound args).Keeps inv total := by
  apply Draw.Keeps.seq (.ofExcept fun _ he => code_of_checkWrapArgs he)
  intro _
  apply Draw.Keeps.seq (keeps_overrideOrFresh hrng _ _ _ (by decide))
  intro cek
  apply Draw.Keeps.seq (keeps_overrideOrFresh hrng _ _ _ (by decide))
  intro nonce
  apply Draw.Keeps.bind (keeps_wrapSlots hrng crypto _ _ _ _)
  intro slots hslots
  obtain ⟨s, s', hgives⟩ := hslots
  have hcount := length_of_gives_wrapSlots crypto hgives
  apply Draw.Keeps.seq (.ofExcept fun _ he => code_of_assertUniqueSlotKemMaterial he)
  intro _
  apply Draw.Keeps.seq (keeps_shuffleSlots hrng hends _ (by rwa [hcount]))
  intro shuffled
  exact .ofExcept fun _ he => code_of_assembleEnvelope crypto he

end Shuffle

end Envelope

end Keeps

/-! ## The latch -/

/-- The latch is set exactly when one of the calls failed, and it says so. -/
structure OsRngState.Latched (os : OsRng) (s : OsRngState) : Prop where
  failed_iff : s.rngError.isSome = true ↔ ∃ k < s.calls, (os.outcome k).isSome = true
  code (e : EciesSealedPoeError) : s.rngError = some e → e.code = .rngUnavailable

theorem OsRngState.latched_start (os : OsRng) : OsRngState.start.Latched os where
  failed_iff := by simp [OsRngState.start]
  code e he := by cases he

/-- A draw keeps the latch right. -/
theorem OsRngState.Latched.source {os : OsRng} (s : OsRngState) (n : ℕ) (buf : FixedBytes n)
    (h : s.Latched os) : (os.source s n buf).2.Latched os := by
  rw [OsRng.source]
  by_cases hfailed : s.rngError.isSome = true
  · rw [if_pos hfailed]
    exact h
  · rw [if_neg hfailed]
    have hnone : ∀ k < s.calls, (os.outcome k).isSome = false := by
      intro k hk
      by_contra hsome
      exact hfailed (h.failed_iff.mpr ⟨k, hk, Bool.not_eq_false _ ▸ hsome⟩)
    refine ⟨?_, ?_⟩
    · rw [Option.isSome_map]
      constructor
      · intro hsome
        exact ⟨s.calls, Nat.lt_succ_self _, hsome⟩
      · intro hcall
        obtain ⟨k, hk, hsome⟩ := hcall
        rcases Nat.lt_succ_iff_lt_or_eq.mp hk with hlt | heq
        · rw [hnone k hlt] at hsome
          cases hsome
        · rwa [heq] at hsome
    · intro e he
      obtain ⟨message, -, rfl⟩ := Option.map_eq_some_iff.mp he
      rfl

theorem u32FromLe_zero : u32FromLe (FixedBytes.zero 4) = 0 := rfl

theorem uniformIndexCeiling_pos {m : ℕ} (hpos : 0 < m) (hle : m ≤ 2 ^ 32) :
    0 < uniformIndexCeiling m := by
  have hmod : 2 ^ 32 % m < m := Nat.mod_lt _ hpos
  rw [uniformIndexCeiling]
  omega

/-- After a failure the buffer stays zeroed, and zero is accepted: the sampling ends when
its bound reaches beyond a call that fails. -/
theorem uniformIndexBelow_ends {os : OsRng} {k : ℕ} (hfails : (os.outcome k).isSome = true)
    {m bound : ℕ} (hpos : 0 < m) (hle : m ≤ 2 ^ 32) {s : OsRngState} (hs : s.Latched os)
    (hbound : if s.rngError.isSome then 0 < bound else k + 1 < s.calls + bound) :
    uniformIndexBelow os.source m bound s ≠ none := by
  have hearly : ¬ s.rngError.isSome = true → s.calls ≤ k := by
    intro hgood
    by_contra hlate
    exact hgood (hs.failed_iff.mpr ⟨k, by omega, hfails⟩)
  induction bound generalizing s with
  | zero =>
      by_cases hfailed : s.rngError.isSome = true
      · rw [if_pos hfailed] at hbound
        exact absurd hbound (Nat.lt_irrefl 0)
      · rw [if_neg hfailed] at hbound
        have hcalls := hearly hfailed
        omega
  | succ bound ih =>
      rw [uniformIndexBelow]
      by_cases hfailed : s.rngError.isSome = true
      · have hdraw : Draw.fill os.source 4 s = some (.ok (FixedBytes.zero 4), s) := by
          simp only [Draw.fill, OsRng.source, if_pos hfailed]
        rw [Draw.bind, hdraw]
        dsimp only
        rw [u32FromLe_zero, if_pos (uniformIndexCeiling_pos hpos hle)]
        exact Option.some_ne_none _
      · have hdraw : Draw.fill os.source 4 s = some (.ok (os.fill s.calls 4 (FixedBytes.zero 4)),
            ⟨s.calls + 1, (os.outcome s.calls).map rngUnavailable⟩) := by
          simp only [Draw.fill, OsRng.source, if_neg hfailed]
        have hcalls := hearly hfailed
        have hs' := hs.source s 4 (FixedBytes.zero 4)
        rw [OsRng.source, if_neg hfailed] at hs'
        rw [if_neg hfailed] at hbound
        rw [Draw.bind, hdraw]
        dsimp only
        by_cases hbelow : u32FromLe (os.fill s.calls 4 (FixedBytes.zero 4)) < uniformIndexCeiling m
        · rw [if_pos hbelow]
          exact Option.some_ne_none _
        · rw [if_neg hbelow]
          apply ih hs'
          · by_cases hfails' : ((os.outcome s.calls).map rngUnavailable).isSome = true
            · rw [if_pos hfails']
              omega
            · rw [if_neg hfails']
              dsimp only
              omega
          · intro hgood
            by_contra hlate
            exact hgood (hs'.failed_iff.mpr ⟨k, by simpa using hlate, hfails⟩)

/-- Some call fails, and the bound reaches beyond it. -/
def OsRng.FailsWithin (os : OsRng) (bound : ℕ) : Prop :=
  ∃ k, (os.outcome k).isSome = true ∧ k + 1 < bound

/-- Building an envelope keeps the latch, and ends when some call fails within the bound. -/
theorem keeps_wrapEnvelope_latched (crypto : SealedPrimitives) (os : OsRng) (bound : ℕ)
    (args : WrapArgs) :
    (wrapEnvelopeWithRng crypto os.source bound args).Keeps (OsRngState.Latched os)
      (args.recipientPublicKeys.length < 2 ^ 32 ∧ os.FailsWithin bound) := by
  apply keeps_wrapEnvelopeWithRng (fun s n buf hs => hs.source s n buf) crypto
  · intro htotal m hpos hle s hs
    obtain ⟨k, hfails, hbound⟩ := htotal.2
    apply uniformIndexBelow_ends hfails hpos hle hs
    by_cases hfailed : s.rngError.isSome = true
    · rw [if_pos hfailed]
      omega
    · rw [if_neg hfailed]
      omega
  · exact And.left

end Label309
