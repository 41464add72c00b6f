import Mathlib

/-!
# Cutting a list into pieces of one size

Every piece but the last is full, the last is never empty unless it is alone, and the
pieces are the only such list that joins to the whole.
-/
namespace Chunks
variable {α : Type}

/-- The consecutive pieces of `n` elements, the rest last. One empty piece for the empty
list, and for `n = 0` the whole list. -/
def pieces (n : ℕ) (xs : List α) : List (List α) :=
  if _h : n = 0 ∨ xs.length ≤ n then [xs] else xs.take n :: pieces n (xs.drop n)
termination_by xs.length
decreasing_by
  simp only [List.length_drop]
  omega

theorem pieces_of_le {n : ℕ} {xs : List α} (h : xs.length ≤ n) : pieces n xs = [xs] := by
  rw [pieces, dif_pos (.inr h)]

theorem pieces_of_lt {n : ℕ} {xs : List α} (hn : 0 < n) (h : n < xs.length) :
    pieces n xs = xs.take n :: pieces n (xs.drop n) := by
  rw [pieces, dif_neg (by omega)]

theorem pieces_ne_nil (n : ℕ) (xs : List α) : pieces n xs ≠ [] := by
  rw [pieces]
  split <;> simp

theorem flatten_pieces (n : ℕ) (xs : List α) : (pieces n xs).flatten = xs := by
  induction hlen : xs.length using Nat.strong_induction_on generalizing xs with
  | _ k ih =>
      rw [pieces]
      split
      · simp
      · rename_i h
        have hrest := ih (xs.drop n).length (by rw [List.length_drop]; omega) (xs.drop n) rfl
        rw [List.flatten_cons, hrest, List.take_append_drop]

/-- The shape of a list of pieces. -/
inductive Regular (n : ℕ) : List (List α) → Prop
  | last {c : List α} (hle : c.length ≤ n) : Regular n [c]
  | cons {c d : List α} {cs : List (List α)} (hfull : c.length = n) (hne : d ≠ [])
      (hrest : Regular n (d :: cs)) : Regular n (c :: d :: cs)

theorem Regular.ne_nil {n : ℕ} {cs : List (List α)} (h : Regular n cs) : cs ≠ [] := by
  cases h <;> simp

/-- After a full piece comes a list of pieces that does not start with an empty one. -/
theorem Regular.cons' {n : ℕ} {c : List α} {cs : List (List α)} (hfull : c.length = n)
    (hrest : Regular n cs) (hne : cs.head? ≠ some []) : Regular n (c :: cs) := by
  cases cs with
  | nil => exact absurd rfl hrest.ne_nil
  | cons d cs => exact .cons hfull (by simpa using hne) hrest

theorem head?_pieces {n : ℕ} (hn : 0 < n) {xs : List α} (h : xs ≠ []) :
    (pieces n xs).head? ≠ some [] := by
  by_cases hle : xs.length ≤ n
  · simpa [pieces_of_le hle] using h
  · rw [pieces_of_lt hn (by omega), List.head?_cons]
    intro htake
    have hlen := congrArg List.length (Option.some.inj htake)
    simp only [List.length_take, List.length_nil] at hlen
    omega

theorem regular_pieces {n : ℕ} (hn : 0 < n) (xs : List α) : Regular n (pieces n xs) := by
  induction hlen : xs.length using Nat.strong_induction_on generalizing xs with
  | _ k ih =>
      by_cases hle : xs.length ≤ n
      · rw [pieces_of_le hle]
        exact .last hle
      · have hdrop : (xs.drop n).length = xs.length - n := List.length_drop
        rw [pieces_of_lt hn (by omega)]
        apply Regular.cons'
        · rw [List.length_take]
          omega
        · exact ih (xs.drop n).length (by omega) (xs.drop n) rfl
        · have hpos : 0 < (xs.drop n).length := by omega
          exact head?_pieces hn (List.ne_nil_of_length_pos hpos)

theorem length_pieces_le {n : ℕ} (hn : 0 < n) {k : ℕ} {xs : List α}
    (h : xs.length ≤ (k + 1) * n) : (pieces n xs).length ≤ k + 1 := by
  induction k generalizing xs with
  | zero => simp [pieces_of_le (show xs.length ≤ n by omega)]
  | succ k ih =>
      by_cases hle : xs.length ≤ n
      · simp [pieces_of_le hle]
      · have hmul : (k + 1 + 1) * n = (k + 1) * n + n := by ring
        have hdrop : (xs.drop n).length ≤ (k + 1) * n := by
          rw [List.length_drop]
          omega
        rw [pieces_of_lt hn (by omega), List.length_cons]
        have hrest := ih hdrop
        omega

/-- A list of pieces is cut from the list it joins to. -/
theorem Regular.pieces_flatten {n : ℕ} (hn : 0 < n) {cs : List (List α)} (h : Regular n cs) :
    pieces n cs.flatten = cs := by
  induction h with
  | last hle => simp [pieces_of_le hle]
  | @cons c d cs hfull hne hrest ih =>
      have hpos : 0 < d.length := List.length_pos_of_ne_nil hne
      have hlt : n < (c :: d :: cs).flatten.length := by
        simp only [List.flatten_cons, List.length_append]
        omega
      rw [pieces_of_lt hn hlt, List.flatten_cons, List.take_left' hfull, List.drop_left' hfull, ih]

end Chunks
