import Mathlib

/-!
# Fisher–Yates

The shuffle swaps the element at `k` with one at most at `k`, for every `k` from the last one
down to 1. Every permutation is made by exactly one sequence of such indices.
-/
namespace FisherYates

/-- One index that is at most `k` for every `k` from `i` down to 1. -/
inductive Indices : ℕ → List ℕ → Prop
  | nil : Indices 0 []
  | cons {i j : ℕ} {js : List ℕ} : j ≤ i + 1 → Indices i js → Indices (i + 1) (j :: js)

/-- Where the element that ends up at a place was before the swaps. -/
def origin : ℕ → List ℕ → Equiv.Perm ℕ
  | i + 1, j :: js => Equiv.swap (i + 1) j * origin i js
  | _, _ => 1

theorem origin_of_lt {i : ℕ} {js : List ℕ} (h : Indices i js) {k : ℕ} (hk : i < k) :
    origin i js k = k := by
  induction h with
  | nil => rfl
  | @cons i j js hj _ ih =>
      rw [origin, Equiv.Perm.mul_apply, ih (Nat.lt_of_succ_lt hk)]
      exact Equiv.swap_apply_of_ne_of_ne (by omega) (by omega)

/-- The first swap decides what ends up at the last place. -/
theorem origin_last {i j : ℕ} {js : List ℕ} (h : Indices i js) :
    origin (i + 1) (j :: js) (i + 1) = j := by
  rw [origin, Equiv.Perm.mul_apply, origin_of_lt h (Nat.lt_succ_self i), Equiv.swap_apply_left]

/-- A permutation that fixes everything above `i + 1` takes it to a place that is not above. -/
theorem apply_le_of_fixes {i : ℕ} {f : Equiv.Perm ℕ} (hf : ∀ k, i + 1 < k → f k = k) :
    f (i + 1) ≤ i + 1 := by
  by_contra hlt
  have hfixed := hf _ (Nat.lt_of_not_le hlt)
  exact hlt (le_of_eq (f.injective hfixed))

/-- **Every permutation of the places up to `i` is made by exactly one sequence of indices.** -/
theorem existsUnique_indices {i : ℕ} {f : Equiv.Perm ℕ} (hf : ∀ k, i < k → f k = k) :
    ∃! js, Indices i js ∧ origin i js = f := by
  induction i generalizing f with
  | zero =>
      refine ⟨[], ⟨.nil, ?_⟩, ?_⟩
      · ext k
        cases k with
        | zero =>
            -- The only place that is left for 0 is its own.
            by_contra hne
            have hpos : 0 < f 0 := Nat.pos_of_ne_zero (Ne.symm hne)
            have hzero := f.injective (hf _ hpos)
            omega
        | succ k => exact (hf (k + 1) (Nat.succ_pos k)).symm
      · intro js hjs
        cases hjs.1
        rfl
  | succ i ih =>
      have hle := apply_le_of_fixes hf
      have hrest : ∀ k, i < k → (Equiv.swap (i + 1) (f (i + 1)) * f) k = k := by
        intro k hk
        rw [Equiv.Perm.mul_apply]
        by_cases hlast : k = i + 1
        · rw [hlast, Equiv.swap_apply_right]
        · rw [hf k (by omega)]
          exact Equiv.swap_apply_of_ne_of_ne hlast (by omega)
      obtain ⟨js, ⟨hindices, horigin⟩, hunique⟩ := ih hrest
      refine ⟨f (i + 1) :: js, ⟨.cons hle hindices, ?_⟩, ?_⟩
      · rw [origin, horigin, ← mul_assoc, Equiv.swap_mul_self, one_mul]
      · intro js' hjs'
        obtain ⟨hindices', horigin'⟩ := hjs'
        cases hindices' with
        | @cons _ j js' hj hindices' =>
            have hhead : f (i + 1) = j := by
              rw [← horigin', origin_last hindices']
            have htail : origin i js' = Equiv.swap (i + 1) j * f := by
              rw [← horigin', origin, ← mul_assoc, Equiv.swap_mul_self, one_mul]
            rw [hhead]
            rw [hhead] at hunique
            rw [hunique js' ⟨hindices', htail⟩]

/-! ## Arrays -/

section Swaps
variable {α : Type}

/-- The swaps for given indices. -/
def swaps : ℕ → List ℕ → Array α → Array α
  | i + 1, j :: js, arr => swaps i js (arr.swapIfInBounds (i + 1) j)
  | _, _, arr => arr

theorem getElem?_swapIfInBounds {arr : Array α} {i j : ℕ} (hi : i < arr.size) (hj : j < arr.size)
    (k : ℕ) : (arr.swapIfInBounds i j)[k]? = arr[Equiv.swap i j k]? := by
  rw [Array.swapIfInBounds_def, dif_pos hi, dif_pos hj, Array.getElem?_swap, Equiv.swap_apply_def]
  by_cases hjk : j = k
  · by_cases hik : k = i
    · subst hjk hik
      simp
    · rw [if_pos hjk, if_neg hik, if_pos hjk.symm, Array.getElem?_eq_getElem hi]
  · by_cases hik : k = i
    · rw [if_neg hjk, if_pos hik.symm, if_pos hik, Array.getElem?_eq_getElem hj]
    · rw [if_neg hjk, if_neg (Ne.symm hik), if_neg hik, if_neg (Ne.symm hjk)]

/-- The swaps permute an array as their indices say. -/
theorem getElem?_swaps {i : ℕ} {js : List ℕ} (h : Indices i js) {arr : Array α}
    (hsize : arr.size ≤ i → i = 0) (k : ℕ) : (swaps i js arr)[k]? = arr[origin i js k]? := by
  induction h generalizing arr with
  | nil => rfl
  | @cons i j js hj _ ih =>
      have hi : i + 1 < arr.size := by
        by_contra hle
        have hzero := hsize (Nat.le_of_not_lt hle)
        omega
      rw [swaps, ih, getElem?_swapIfInBounds hi (by omega), origin, Equiv.Perm.mul_apply]
      intro hle
      rw [Array.size_swapIfInBounds] at hle
      omega

end Swaps

end FisherYates
