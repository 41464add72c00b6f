import Label309.Lib.FisherYates
import Label309.SealedPoe.WrapSpec

/-!
# The shuffle is uniform

The rejection sampling maps as many of the accepted draws to one index as to another, and the
indices of a shuffle are in bijection with the orders. So every order comes from as many draws,
as long as the number of slots fits the 32 bits it is cast to.
-/
namespace Label309
open FisherYates

/-! ## A tape of draws -/

/-- A source that hands out given draws of four bytes and notes when they are used up. -/
def drawTape : RandomSource (Option (List (FixedBytes 4))) := fun tape n buf =>
  match tape with
  | some (b :: rest) => ((toFixed n b.val).getD buf, some rest)
  | _ => (buf, none)

theorem fill_drawTape (b : FixedBytes 4) (rest : List (FixedBytes 4)) :
    Draw.fill drawTape 4 (some (b :: rest)) = some (.ok b, some rest) := by
  rw [Draw.fill, drawTape]
  dsimp only
  rw [toFixed_val]
  rfl

/-- One draw is accepted as the index `j`. -/
def DrawsIndex (m : ℕ) (b : FixedBytes 4) (j : ℕ) : Prop :=
  (uniformIndexBelow drawTape m 1).Gives (some [b]) j (some [])

theorem uniformIndexBelow_cons (m bound : ℕ) (b : FixedBytes 4) (rest : List (FixedBytes 4)) :
    uniformIndexBelow drawTape m (bound + 1) (some (b :: rest)) =
      if u32FromLe b < uniformIndexCeiling m then some (.ok (u32FromLe b % m), some rest)
      else uniformIndexBelow drawTape m bound (some rest) := by
  rw [uniformIndexBelow, Draw.bind, fill_drawTape]
  dsimp only
  by_cases hbelow : u32FromLe b < uniformIndexCeiling m
  · rw [if_pos hbelow, if_pos hbelow]
    rfl
  · rw [if_neg hbelow, if_neg hbelow]

theorem drawsIndex_iff {m : ℕ} {b : FixedBytes 4} {j : ℕ} :
    DrawsIndex m b j ↔ u32FromLe b < uniformIndexCeiling m ∧ u32FromLe b % m = j := by
  rw [DrawsIndex, Draw.Gives, uniformIndexBelow_cons]
  by_cases hbelow : u32FromLe b < uniformIndexCeiling m
  · rw [if_pos hbelow]
    simp [hbelow]
  · rw [if_neg hbelow]
    simp [hbelow, uniformIndexBelow]

/-! ## One index -/

/-- The draw of a number. -/
def u32LeBytes (x : ℕ) : FixedBytes 4 :=
  ⟨(BigEndian.toBe 4 x).reverse, by rw [List.length_reverse, BigEndian.length_toBe]⟩

theorem u32FromLe_u32LeBytes {x : ℕ} (h : x < 2 ^ 32) : u32FromLe (u32LeBytes x) = x := by
  rw [u32FromLe, u32LeBytes, List.reverse_reverse, BigEndian.ofBe_toBe (by omega)]

theorem u32LeBytes_u32FromLe (b : FixedBytes 4) : u32LeBytes (u32FromLe b) = b := by
  have hlength : b.val.reverse.length = 4 := by rw [List.length_reverse, b.property]
  have hbytes := BigEndian.toBe_ofBe b.val.reverse
  rw [hlength] at hbytes
  apply Subtype.ext
  calc
    (u32LeBytes (u32FromLe b)).val = (BigEndian.toBe 4 (u32FromLe b)).reverse := rfl
    _ = b.val.reverse.reverse := by rw [u32FromLe, hbytes]
    _ = b.val := List.reverse_reverse _

/-- The ceiling is the largest multiple of `m` that is a number of draws. -/
theorem uniformIndexCeiling_eq (m : ℕ) : uniformIndexCeiling m = 2 ^ 32 / m * m := by
  have hdiv := Nat.div_add_mod (2 ^ 32) m
  rw [uniformIndexCeiling]
  rw [Nat.mul_comm] at hdiv
  omega

theorem uniformIndexCeiling_le (m : ℕ) : uniformIndexCeiling m ≤ 2 ^ 32 := Nat.sub_le _ _

/-- The `k`th number with the residue `r` stays below the ceiling when it is in a whole block. -/
theorem block_lt_ceiling {m r k : ℕ} (hr : r < m) (hk : k < 2 ^ 32 / m) :
    k * m + r < uniformIndexCeiling m := by
  rw [uniformIndexCeiling_eq]
  calc
    k * m + r < (k + 1) * m := by
      rw [Nat.add_mul, Nat.one_mul]
      omega
    _ ≤ 2 ^ 32 / m * m := Nat.mul_le_mul_right m hk

theorem drawsIndex_u32LeBytes {m r k : ℕ} (hr : r < m) (hk : k < 2 ^ 32 / m) :
    DrawsIndex m (u32LeBytes (k * m + r)) r := by
  have hlt := block_lt_ceiling hr hk
  rw [drawsIndex_iff, u32FromLe_u32LeBytes (lt_of_lt_of_le hlt (uniformIndexCeiling_le m))]
  refine ⟨hlt, ?_⟩
  rw [Nat.add_comm, Nat.add_mul_mod_self_right, Nat.mod_eq_of_lt hr]

/-- The accepted draws for one index are one in every whole block. -/
def drawsIndexEquiv {m r : ℕ} (hr : r < m) :
    {b : FixedBytes 4 // DrawsIndex m b r} ≃ Fin (2 ^ 32 / m) where
  toFun b := ⟨u32FromLe b.val / m, by
    have hb := (drawsIndex_iff.mp b.property).1
    rw [uniformIndexCeiling_eq] at hb
    exact (Nat.div_lt_iff_lt_mul (by omega)).mpr hb⟩
  invFun k := ⟨u32LeBytes (k.val * m + r), drawsIndex_u32LeBytes hr k.isLt⟩
  left_inv b := by
    have hb := (drawsIndex_iff.mp b.property).2
    have hsum := Nat.div_add_mod (u32FromLe b.val) m
    rw [hb, Nat.mul_comm] at hsum
    apply Subtype.ext
    dsimp only
    rw [hsum, u32LeBytes_u32FromLe]
  right_inv k := by
    have hlt := block_lt_ceiling hr k.isLt
    apply Fin.ext
    dsimp only
    rw [u32FromLe_u32LeBytes (lt_of_lt_of_le hlt (uniformIndexCeiling_le m)), Nat.mul_comm,
      Nat.mul_add_div (by omega), Nat.div_eq_of_lt hr, Nat.add_zero]

/-- As many draws give one index below `m` as give another, and every other draw is followed by
a new one. -/
structure EvenIndex (m : ℕ) : Prop where
  counts : ∀ r < m, Nat.card {b : FixedBytes 4 // DrawsIndex m b r} = 2 ^ 32 / m
  rejects : ∀ b, (∀ r < m, ¬ DrawsIndex m b r) → ∀ bound rest,
    uniformIndexBelow drawTape m (bound + 1) (some (b :: rest)) =
      uniformIndexBelow drawTape m bound (some rest)

theorem evenIndex {m : ℕ} (hm : 0 < m) : EvenIndex m where
  counts r hr := by rw [Nat.card_congr (drawsIndexEquiv hr), Nat.card_fin]
  rejects b hb bound rest := by
    rw [uniformIndexBelow_cons]
    apply if_neg
    intro hbelow
    exact hb (u32FromLe b % m) (Nat.mod_lt _ hm) (drawsIndex_iff.mpr ⟨hbelow, rfl⟩)

/-! ## The indices of a shuffle -/

/-- One accepted draw for every index. -/
inductive DrawsIndices : ℕ → List (FixedBytes 4) → List ℕ → Prop
  | nil : DrawsIndices 0 [] []
  | cons {i j : ℕ} {b : FixedBytes 4} {bs : List (FixedBytes 4)} {js : List ℕ} :
      DrawsIndex (i + 2) b j → DrawsIndices i bs js → DrawsIndices (i + 1) (b :: bs) (j :: js)

theorem DrawsIndices.indices {i : ℕ} {bs : List (FixedBytes 4)} {js : List ℕ}
    (h : DrawsIndices i bs js) : Indices i js := by
  induction h with
  | nil => exact .nil
  | @cons i j b bs js hdraw _ ih =>
      have hmod := (drawsIndex_iff.mp hdraw).2
      have hlt : u32FromLe b % (i + 2) < i + 2 := Nat.mod_lt _ (by omega)
      exact .cons (by omega) ih

/-- Draws have one sequence of indices. -/
theorem DrawsIndices.unique {i : ℕ} {bs : List (FixedBytes 4)} {js js' : List ℕ}
    (h : DrawsIndices i bs js) (h' : DrawsIndices i bs js') : js = js' := by
  induction h generalizing js' with
  | nil =>
      cases h'
      rfl
  | cons hdraw _ ih =>
      cases h' with
      | cons hdraw' hdraws' =>
          rw [← (drawsIndex_iff.mp hdraw).2, ← (drawsIndex_iff.mp hdraw').2, ih hdraws']

/-- The draws for given indices are counted by the product of the counts for each. -/
theorem card_drawsIndices {i : ℕ} {js : List ℕ} (h : Indices i js) :
    Nat.card {bs // DrawsIndices i bs js} = ∏ k ∈ Finset.range i, 2 ^ 32 / (k + 2) := by
  induction h with
  | nil =>
      have hone : ∀ bs, DrawsIndices 0 bs [] ↔ bs = [] := by
        intro bs
        constructor
        · intro h
          cases h
          rfl
        · intro h
          rw [h]
          exact .nil
      rw [Nat.card_congr (Equiv.subtypeEquivRight hone), Nat.card_unique]
      rfl
  | @cons i j js hj _ ih =>
      have hsplit : {bs // DrawsIndices (i + 1) bs (j :: js)} ≃
          {b : FixedBytes 4 // DrawsIndex (i + 2) b j} × {bs // DrawsIndices i bs js} :=
        { toFun := fun bs =>
            match bs with
            | ⟨[], h⟩ => False.elim (by cases h)
            | ⟨b :: bs, h⟩ => (⟨b, by cases h; assumption⟩, ⟨bs, by cases h; assumption⟩)
          invFun := fun p => ⟨p.1.val :: p.2.val, .cons p.1.property p.2.property⟩
          left_inv := by
            intro bs
            obtain ⟨bs, h⟩ := bs
            cases h
            rfl
          right_inv := by
            intro p
            rfl }
      rw [Nat.card_congr hsplit, Nat.card_prod, ih, (evenIndex (Nat.succ_pos (i + 1))).counts j
        (by omega), Finset.prod_range_succ, Nat.mul_comm]

theorem exists_drawsIndices {i : ℕ} {js : List ℕ} (hi : i + 1 < 2 ^ 32) (h : Indices i js) :
    ∃ bs, DrawsIndices i bs js := by
  induction h with
  | nil => exact ⟨[], .nil⟩
  | @cons i j js hj _ ih =>
      obtain ⟨bs, hbs⟩ := ih (by omega)
      have hpos : 0 < 2 ^ 32 / (i + 2) := Nat.div_pos (by omega) (by omega)
      exact ⟨_, .cons (drawsIndex_u32LeBytes (by omega) hpos) hbs⟩

/-! ## Runs on a tape -/

section Runs
variable {α : Type}

/-- A tape that is used up stays so. -/
theorem state_of_uniformIndexBelow_none {m j : ℕ} {s : Option (List (FixedBytes 4))}
    (h : (uniformIndexBelow drawTape m 1).Gives none j s) : s = none := by
  obtain ⟨b, s', hfill, hrest⟩ := Draw.gives_bind.mp h
  cases hfill
  by_cases hbelow : u32FromLe (FixedBytes.zero 4) < uniformIndexCeiling m
  · rw [if_pos hbelow, Draw.gives_pure] at hrest
    exact hrest.2
  · rw [if_neg hbelow] at hrest
    cases hrest

theorem state_of_shuffleFrom_none {i : ℕ} {arr arr' : Array α}
    {s : Option (List (FixedBytes 4))} (h : (shuffleFrom drawTape 1 i arr).Gives none arr' s) :
    s = none := by
  induction i generalizing arr with
  | zero => exact (Draw.gives_pure.mp h).2
  | succ i ih =>
      obtain ⟨j, s', hindex, hrest⟩ := Draw.gives_bind.mp h
      rw [state_of_uniformIndexBelow_none hindex] at hrest
      exact ih hrest

theorem gives_uniformIndexBelow_iff {m j : ℕ} {b : FixedBytes 4} {rest : List (FixedBytes 4)}
    {s : Option (List (FixedBytes 4))} :
    (uniformIndexBelow drawTape m 1).Gives (some (b :: rest)) j s ↔
      DrawsIndex m b j ∧ s = some rest := by
  rw [drawsIndex_iff, Draw.Gives, uniformIndexBelow_cons]
  by_cases hbelow : u32FromLe b < uniformIndexCeiling m
  · rw [if_pos hbelow]
    simp [hbelow, eq_comm]
  · rw [if_neg hbelow]
    simp [hbelow, uniformIndexBelow]

/-- **A shuffle that uses a tape up makes the swaps for the indices that it draws.** -/
theorem gives_shuffleFrom_iff {i : ℕ} (hi : i + 1 < 2 ^ 32) {bs : List (FixedBytes 4)}
    {arr arr' : Array α} :
    (shuffleFrom drawTape 1 i arr).Gives (some bs) arr' (some []) ↔
      ∃ js, DrawsIndices i bs js ∧ arr' = swaps i js arr := by
  induction i generalizing bs arr with
  | zero =>
      rw [shuffleFrom, Draw.gives_pure]
      constructor
      · intro h
        cases h.2
        exact ⟨[], .nil, h.1⟩
      · intro h
        obtain ⟨js, hdraws, harr⟩ := h
        cases hdraws
        exact ⟨harr, rfl⟩
  | succ i ih =>
      have hrest := @ih (Nat.lt_of_succ_lt hi)
      rw [shuffleFrom, Nat.mod_eq_of_lt hi, Draw.gives_bind]
      constructor
      · intro h
        obtain ⟨j, s, hindex, hshuffle⟩ := h
        cases bs with
        | nil =>
            -- The draw after the last one leaves the tape overdrawn for good.
            have hs : s = none := by
              obtain ⟨b, s', hfill, hindex⟩ := Draw.gives_bind.mp hindex
              cases hfill
              by_cases hbelow : u32FromLe (FixedBytes.zero 4) < uniformIndexCeiling (i + 2)
              · rw [if_pos hbelow, Draw.gives_pure] at hindex
                exact hindex.2
              · rw [if_neg hbelow] at hindex
                cases hindex
            rw [hs] at hshuffle
            cases state_of_shuffleFrom_none hshuffle
        | cons b bs =>
            obtain ⟨hdraw, hs⟩ := gives_uniformIndexBelow_iff.mp hindex
            rw [hs] at hshuffle
            obtain ⟨js, hdraws, harr⟩ := hrest.mp hshuffle
            exact ⟨j :: js, .cons hdraw hdraws, harr⟩
      · intro h
        obtain ⟨js, hdraws, harr⟩ := h
        cases hdraws with
        | @cons _ j b bs js hdraw hdraws =>
            exact ⟨j, some bs, gives_uniformIndexBelow_iff.mpr ⟨hdraw, rfl⟩,
              hrest.mpr ⟨js, hdraws, harr⟩⟩

/-- A short list is shuffled by no swap. -/
theorem csprngShuffle_eq {σ : Type} (rng : RandomSource σ) (bound : ℕ) (slots : List α) :
    csprngShuffle rng bound slots =
      Draw.bind (shuffleFrom rng bound (slots.length - 1) slots.toArray) fun arr =>
        Draw.pure arr.toList := by
  rw [csprngShuffle]
  by_cases hshort : slots.length < 2
  · have hzero : slots.length - 1 = 0 := by omega
    rw [if_pos hshort, hzero]
    rfl
  · rw [if_neg hshort]

theorem gives_csprngShuffle_iff {bs : List (FixedBytes 4)} {slots slots' : List α}
    (hlength : slots.length < 2 ^ 32) :
    (csprngShuffle drawTape 1 slots).Gives (some bs) slots' (some []) ↔
      ∃ js, DrawsIndices (slots.length - 1) bs js ∧
        slots' = (swaps (slots.length - 1) js slots.toArray).toList := by
  rw [csprngShuffle_eq, Draw.gives_bind]
  constructor
  · intro h
    obtain ⟨arr, s, harr, hpure⟩ := h
    rw [Draw.gives_pure] at hpure
    rw [← hpure.2, gives_shuffleFrom_iff (by omega)] at harr
    obtain ⟨js, hdraws, hswaps⟩ := harr
    exact ⟨js, hdraws, by rw [hpure.1, hswaps]⟩
  · intro h
    obtain ⟨js, hdraws, hswaps⟩ := h
    exact ⟨_, some [], (gives_shuffleFrom_iff (by omega)).mpr ⟨js, hdraws, rfl⟩,
      Draw.gives_pure.mpr ⟨hswaps, rfl⟩⟩

end Runs

/-! ## Orders -/

/-- Permutations of the first `n` places, as permutations that fix every other number. -/
def placesEquiv (n : ℕ) : Equiv.Perm (Fin n) ≃ {f : Equiv.Perm ℕ // ∀ k, ¬ k < n → f k = k} :=
  Fin.equivSubtype.permCongr.trans (Equiv.Perm.subtypeEquivSubtypePerm (· < n))

theorem placesEquiv_apply {n : ℕ} (order : Equiv.Perm (Fin n)) (k : Fin n) :
    (placesEquiv n order).val k = order k :=
  @Equiv.Perm.subtypeEquivSubtypePerm_apply_of_mem ℕ (· < n) _ k.val
    (Fin.equivSubtype.permCongr order) k.isLt

/-- A run on these draws puts slots, whatever they are, into this order. -/
def ShufflesTo (n : ℕ) (bs : List (FixedBytes 4)) (order : Equiv.Perm (Fin n)) : Prop :=
  ∀ (α : Type) (slots : Fin n → α),
    (csprngShuffle drawTape 1 (List.ofFn slots)).Gives (some bs) (List.ofFn (slots ∘ order))
      (some [])

theorem origin_of_ge {n k : ℕ} {js : List ℕ} (h : Indices (n - 1) js) (hk : ¬ k < n) :
    origin (n - 1) js k = k := by
  by_cases hzero : n = 0
  · subst hzero
    cases h
    rfl
  · exact origin_of_lt h (by omega)

theorem getElem?_shuffled {α : Type} {n : ℕ} {js : List ℕ} (h : Indices (n - 1) js)
    (slots : Fin n → α) (k : ℕ) :
    (swaps (n - 1) js (List.ofFn slots).toArray).toList[k]? =
      (List.ofFn slots)[origin (n - 1) js k]? := by
  rw [Array.getElem?_toList, getElem?_swaps h, List.getElem?_toArray]
  intro hle
  rw [List.size_toArray, List.length_ofFn] at hle
  omega

section Orders
variable {n : ℕ} (hn : n < 2 ^ 32)
include hn

/-- The order is that of the indices drawn. -/
theorem shufflesTo_iff {bs : List (FixedBytes 4)} {order : Equiv.Perm (Fin n)} :
    ShufflesTo n bs order ↔
      ∃ js, DrawsIndices (n - 1) bs js ∧ origin (n - 1) js = (placesEquiv n order).val := by
  have hruns : ∀ (α : Type) (slots : Fin n → α) (slots' : List α),
      (csprngShuffle drawTape 1 (List.ofFn slots)).Gives (some bs) slots' (some []) ↔
        ∃ js, DrawsIndices (n - 1) bs js ∧
          slots' = (swaps (n - 1) js (List.ofFn slots).toArray).toList := by
    intro α slots slots'
    rw [gives_csprngShuffle_iff (by rwa [List.length_ofFn]), List.length_ofFn]
  constructor
  · intro h
    -- The places themselves show where every slot comes from.
    obtain ⟨js, hdraws, heq⟩ := (hruns _ _ _).mp (h (Fin n) id)
    refine ⟨js, hdraws, ?_⟩
    ext k
    by_cases hk : k < n
    · have hplace := getElem?_shuffled hdraws.indices id k
      rw [← heq, Function.id_comp, List.getElem?_ofFn, dif_pos hk, List.getElem?_ofFn] at hplace
      by_cases hlt : origin (n - 1) js k < n
      · rw [dif_pos hlt, Option.some.injEq] at hplace
        rw [← Fin.val_mk hk, placesEquiv_apply order ⟨k, hk⟩, hplace]
        rfl
      · rw [dif_neg hlt] at hplace
        cases hplace
    · rw [origin_of_ge hdraws.indices hk, (placesEquiv n order).property k hk]
  · intro h α slots
    obtain ⟨js, hdraws, horigin⟩ := h
    refine (hruns α slots _).mpr ⟨js, hdraws, ?_⟩
    apply List.ext_getElem?
    intro k
    rw [getElem?_shuffled hdraws.indices, horigin, List.getElem?_ofFn, List.getElem?_ofFn]
    by_cases hk : k < n
    · have hplace := placesEquiv_apply order ⟨k, hk⟩
      dsimp only at hplace
      rw [dif_pos hk, hplace, dif_pos (order ⟨k, hk⟩).isLt]
      rfl
    · rw [(placesEquiv n order).property k hk, dif_neg hk, dif_neg hk]

theorem shufflesTo_iff_of_origin {js : List ℕ} (hjs : Indices (n - 1) js)
    {order : Equiv.Perm (Fin n)} (horigin : origin (n - 1) js = (placesEquiv n order).val)
    {bs : List (FixedBytes 4)} : ShufflesTo n bs order ↔ DrawsIndices (n - 1) bs js := by
  rw [shufflesTo_iff hn]
  obtain ⟨unique, -, hunique⟩ := existsUnique_indices fun k hk => origin_of_lt hjs hk
  constructor
  · intro h
    obtain ⟨js', hdraws, horigin'⟩ := h
    have hsame := hunique js' ⟨hdraws.indices, by rw [horigin', horigin]⟩
    rwa [hunique js ⟨hjs, rfl⟩, ← hsame]
  · intro hdraws
    exact ⟨js, hdraws, horigin⟩

/-- Every order comes from one sequence of indices. -/
theorem exists_indices_of_order (order : Equiv.Perm (Fin n)) :
    ∃! js, Indices (n - 1) js ∧ origin (n - 1) js = (placesEquiv n order).val := by
  apply existsUnique_indices
  intro k hk
  exact (placesEquiv n order).property k (by omega)

end Orders

/-- The indices are drawn in a run that puts slots into this order. -/
def Applies (n : ℕ) (js : List ℕ) (order : Equiv.Perm (Fin n)) : Prop :=
  ∃ bs, DrawsIndices (n - 1) bs js ∧ ShufflesTo n bs order

/-- The shuffle of `n` slots is a uniform permutation. -/
structure UniformShuffle (n : ℕ) : Prop where
  /-- An index is drawn evenly. -/
  index : ∀ m, 0 < m → EvenIndex m
  /-- What is shuffled is permuted, under any source. -/
  permutes : ∀ {σ α : Type} (rng : RandomSource σ) (bound : ℕ) (slots slots' : List α) (s s' : σ),
    slots.length = n → (csprngShuffle rng bound slots).Gives s slots' s' → slots'.Perm slots
  /-- Any indices are drawn, and they make one order. -/
  order : ∀ js, Indices (n - 1) js → ∃! order : Equiv.Perm (Fin n), Applies n js order
  /-- Any order is made, and by one sequence of indices. -/
  indices : ∀ order : Equiv.Perm (Fin n), ∃! js, Indices (n - 1) js ∧ Applies n js order
  /-- As many draws make one order as another. -/
  counts : ∀ order : Equiv.Perm (Fin n),
    Nat.card {bs // ShufflesTo n bs order} = ∏ k ∈ Finset.range (n - 1), 2 ^ 32 / (k + 2)

theorem applies_iff {n : ℕ} (hn : n < 2 ^ 32) {js : List ℕ} (hjs : Indices (n - 1) js)
    {order : Equiv.Perm (Fin n)} :
    Applies n js order ↔ origin (n - 1) js = (placesEquiv n order).val := by
  constructor
  · intro h
    obtain ⟨bs, hdraws, hshuffles⟩ := h
    obtain ⟨js', ⟨hjs', horigin⟩, -⟩ := exists_indices_of_order hn order
    rw [shufflesTo_iff_of_origin hn hjs' horigin] at hshuffles
    rw [hdraws.unique hshuffles, horigin]
  · intro horigin
    obtain ⟨bs, hdraws⟩ := exists_drawsIndices (by omega) hjs
    exact ⟨bs, hdraws, (shufflesTo_iff_of_origin hn hjs horigin).mpr hdraws⟩

theorem uniformShuffle_of_lt {n : ℕ} (hn : n < 2 ^ 32) : UniformShuffle n where
  index _ := evenIndex
  permutes _ _ _ _ _ _ _ := csprngShuffle_perm
  order js hjs := by
    have hfixes : ∀ k, ¬ k < n → origin (n - 1) js k = k := fun k => origin_of_ge hjs
    refine ⟨(placesEquiv n).symm ⟨origin (n - 1) js, hfixes⟩, ?_, ?_⟩
    · apply (applies_iff hn hjs).mpr
      rw [Equiv.apply_symm_apply]
    · intro order happlies
      rw [Equiv.eq_symm_apply]
      exact Subtype.ext ((applies_iff hn hjs).mp happlies).symm
  indices order := by
    obtain ⟨js, ⟨hjs, horigin⟩, hunique⟩ := exists_indices_of_order hn order
    refine ⟨js, ⟨hjs, (applies_iff hn hjs).mpr horigin⟩, ?_⟩
    intro js' h
    exact hunique js' ⟨h.1, (applies_iff hn h.1).mp h.2⟩
  counts order := by
    obtain ⟨js, ⟨hjs, horigin⟩, -⟩ := exists_indices_of_order hn order
    have hdraws : ∀ bs, ShufflesTo n bs order ↔ DrawsIndices (n - 1) bs js :=
      fun bs => shufflesTo_iff_of_origin hn hjs horigin
    rw [Nat.card_congr (Equiv.subtypeEquivRight hdraws), card_drawsIndices hjs]

/-! ## The cast -/

section Wrapped
variable {σ α : Type} {rng : RandomSource σ} {bound : ℕ}

theorem not_gives_uniformIndexBelow_zero {s s' : σ} {j : ℕ} :
    ¬ (uniformIndexBelow rng 0 bound).Gives s j s' := by
  have hceiling : uniformIndexCeiling 0 = 0 := Nat.sub_self _
  induction bound generalizing s with
  | zero =>
      intro h
      cases h
  | succ bound ih =>
      intro h
      obtain ⟨b, s₁, -, hrest⟩ := Draw.gives_bind.mp h
      rw [hceiling, if_neg (Nat.not_lt_zero _)] at hrest
      exact ih hrest

/-- From `2 ^ 32` slots on, the loop comes to a range whose length is cast to zero. -/
theorem not_gives_shuffleFrom_wrapped {i : ℕ} (hi : 2 ^ 32 ≤ i + 1) {arr arr' : Array α}
    {s s' : σ} : ¬ (shuffleFrom rng bound i arr).Gives s arr' s' := by
  induction i generalizing arr s with
  | zero => omega
  | succ i ih =>
      intro h
      obtain ⟨j, s₁, hindex, hrest⟩ := Draw.gives_bind.mp h
      by_cases hlast : i + 2 = 2 ^ 32
      · rw [hlast, Nat.mod_self] at hindex
        exact not_gives_uniformIndexBelow_zero hindex
      · exact ih (by omega) hrest

end Wrapped

theorem not_uniformShuffle_of_le {n : ℕ} (hn : 2 ^ 32 ≤ n) : ¬ UniformShuffle n := by
  intro h
  obtain ⟨js, ⟨-, bs, -, hshuffles⟩, -⟩ := h.indices 1
  have hrun := hshuffles (Fin n) id
  rw [csprngShuffle_eq, Draw.gives_bind] at hrun
  obtain ⟨arr, s, harr, -⟩ := hrun
  refine not_gives_shuffleFrom_wrapped ?_ harr
  rw [List.length_ofFn]
  omega

/-- **The shuffle is a uniform permutation as long as the number of slots fits 32 bits.** -/
theorem uniformShuffle_iff (n : ℕ) : UniformShuffle n ↔ n < 2 ^ 32 := by
  constructor
  · intro h
    by_contra hge
    exact not_uniformShuffle_of_le (Nat.le_of_not_lt hge) h
  · exact uniformShuffle_of_lt

/-- Of `2 ^ 32` slots no order comes out at all. -/
theorem not_uniformShuffle_wrapped : ¬ UniformShuffle (2 ^ 32) :=
  not_uniformShuffle_of_le (le_refl _)

end Label309
