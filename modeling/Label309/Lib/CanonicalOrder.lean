import Mathlib

/-!
# Marks in order

Every symbol has a class; the symbols of class zero keep their places and the others are marks.
Two marks of different classes that stand side by side may change places, and the marks between two
symbols of class zero are put in order by an insertion that does not look past such a symbol. Lists
that differ by such changes are put in order alike, and a list in order is left alone.
-/
namespace CanonicalOrder
variable {α : Type*} (cls : α → ℕ)

/-- Insert a mark behind the symbols before it, the last one first. -/
def insertMark (x : α) : List α → List α
  | [] => [x]
  | p :: before => if cls x < cls p then p :: insertMark x before else x :: p :: before

def step (before : List α) (x : α) : List α :=
  if cls x = 0 then x :: before else insertMark cls x before

/-- Put the marks in order. -/
def reorder (xs : List α) : List α := (xs.foldl (step cls) []).reverse

/-- No mark stands behind one of a higher class. -/
def Ordered (xs : List α) : Prop := xs.IsChain fun a b => cls b ≠ 0 → cls a ≤ cls b

/-- Two marks of different classes, side by side, change places. -/
inductive Swap : List α → List α → Prop
  | intro (front : List α) {a b : α} (rest : List α) (ha : cls a ≠ 0) (hb : cls b ≠ 0)
      (hne : cls a ≠ cls b) : Swap (front ++ a :: b :: rest) (front ++ b :: a :: rest)

/-- Any number of such changes. -/
def Equivalent : List α → List α → Prop := Relation.ReflTransGen (Swap cls)

variable {cls}
variable {a b x : α} {xs ys zs before : List α}

/-! ## Insertion -/

theorem insertMark_comm (hne : cls a ≠ cls b) :
    insertMark cls a (insertMark cls b before) = insertMark cls b (insertMark cls a before) := by
  induction before with
  | nil =>
      by_cases hab : cls a < cls b
      · simp [insertMark, hab, show ¬ cls b < cls a by omega]
      · simp [insertMark, hab, show cls b < cls a by omega]
  | cons p before ih =>
      by_cases ha : cls a < cls p
      · by_cases hb : cls b < cls p
        · simp [insertMark, ha, hb, ih]
        · simp [insertMark, ha, hb, show cls a < cls b by omega]
      · by_cases hb : cls b < cls p
        · simp [insertMark, ha, hb, show cls b < cls a by omega]
        · by_cases hab : cls a < cls b
          · simp [insertMark, ha, hb, hab, show ¬ cls b < cls a by omega]
          · simp [insertMark, ha, hb, hab, show cls b < cls a by omega]

theorem perm_insertMark (x : α) (before : List α) : (insertMark cls x before).Perm (x :: before) := by
  induction before with
  | nil => exact .refl _
  | cons p before ih =>
      rw [insertMark]
      split
      · exact (ih.cons p).trans (.swap x p before)
      · exact .refl _

theorem perm_step (before : List α) (x : α) : (step cls before x).Perm (x :: before) := by
  rw [step]
  split
  · exact .refl _
  · exact perm_insertMark x before

theorem perm_foldl_step (before xs : List α) :
    (xs.foldl (step cls) before).Perm (xs.reverse ++ before) := by
  induction xs generalizing before with
  | nil => exact .refl _
  | cons x xs ih =>
      rw [List.foldl_cons, List.reverse_cons, List.append_assoc, List.singleton_append]
      exact (ih _).trans ((perm_step before x).append_left _)

theorem mem_reorder : x ∈ reorder cls xs ↔ x ∈ xs := by
  rw [reorder, List.mem_reverse, (perm_foldl_step [] xs).mem_iff, List.append_nil,
    List.mem_reverse]

/-! ## Lists in order -/

/-- The order of the symbols before, the last one first. -/
def OrderedBefore (cls : α → ℕ) (before : List α) : Prop :=
  before.IsChain fun b a => cls b ≠ 0 → cls a ≤ cls b

theorem orderedBefore_insertMark (h : OrderedBefore cls before) :
    OrderedBefore cls (insertMark cls x before) := by
  induction before with
  | nil => exact .singleton x
  | cons p before ih =>
      rw [insertMark]
      by_cases hx : cls x < cls p
      · rw [if_pos hx]
        have hrest := ih h.tail
        cases before with
        | nil => exact List.isChain_pair.mpr fun _ => hx.le
        | cons q before =>
            -- What stands behind `p` now is `q` as before, or the mark.
            rw [insertMark] at hrest ⊢
            by_cases hq : cls x < cls q
            · rw [if_pos hq] at hrest ⊢
              exact hrest.cons_cons h.rel
            · rw [if_neg hq] at hrest ⊢
              exact hrest.cons_cons fun _ => hx.le
      · rw [if_neg hx]
        exact h.cons_cons fun _ => Nat.le_of_not_lt hx

theorem orderedBefore_step (h : OrderedBefore cls before) :
    OrderedBefore cls (step cls before x) := by
  rw [step]
  by_cases hx : cls x = 0
  · rw [if_pos hx]
    exact h.cons fun _ _ hne => absurd hx hne
  · rw [if_neg hx]
    exact orderedBefore_insertMark h

theorem orderedBefore_foldl (h : OrderedBefore cls before) :
    OrderedBefore cls (xs.foldl (step cls) before) := by
  induction xs generalizing before with
  | nil => exact h
  | cons x xs ih => exact ih (orderedBefore_step h)

theorem ordered_reorder (xs : List α) : Ordered cls (reorder cls xs) := by
  rw [Ordered, reorder, List.isChain_reverse]
  exact orderedBefore_foldl .nil

/-- A symbol that the order lets stand where it is. -/
theorem step_of_head (h : cls x ≠ 0 → ∀ p ∈ before.head?, cls p ≤ cls x) :
    step cls before x = x :: before := by
  rw [step]
  by_cases hx : cls x = 0
  · rw [if_pos hx]
  · rw [if_neg hx]
    cases before with
    | nil => rfl
    | cons p before =>
        have hp := h hx p rfl
        rw [insertMark, if_neg (by omega)]

/-- A list in order is left alone. -/
theorem reorder_of_ordered (h : Ordered cls xs) : reorder cls xs = xs := by
  have hfold : ∀ before : List α, Ordered cls (before.reverse ++ xs) →
      xs.foldl (step cls) before = xs.reverse ++ before := by
    clear h
    induction xs with
    | nil => exact fun _ _ => rfl
    | cons x xs ih =>
        intro before h
        have hstep : step cls before x = x :: before := by
          refine step_of_head ?_
          intro hx p hp
          have hjoin := List.isChain_append.mp h
          exact hjoin.2.2 p (by rwa [List.getLast?_reverse]) x rfl hx
        rw [List.foldl_cons, hstep, ih (x :: before) (by simpa using h)]
        simp
  rw [reorder, hfold [] h]
  simp

/-! ## Changes of place -/

theorem reorder_eq_of_swap (h : Swap cls xs ys) : reorder cls xs = reorder cls ys := by
  obtain ⟨front, rest, ha, hb, hne⟩ := h
  rw [reorder, reorder, List.foldl_append, List.foldl_append, List.foldl_cons, List.foldl_cons,
    List.foldl_cons, List.foldl_cons, step, step, step, step, if_neg ha, if_neg hb, if_neg ha,
    if_neg hb, insertMark_comm hne]

/-- **Lists that differ by changes of place** are put in order alike. -/
theorem reorder_eq_of_equivalent (h : Equivalent cls xs ys) : reorder cls xs = reorder cls ys := by
  induction h with
  | refl => rfl
  | tail _ hswap ih => rw [ih, reorder_eq_of_swap hswap]

theorem Equivalent.append_left (h : Equivalent cls xs ys) (zs : List α) :
    Equivalent cls (zs ++ xs) (zs ++ ys) := by
  induction h with
  | refl => exact .refl
  | tail _ hswap ih =>
      refine ih.tail ?_
      obtain ⟨front, rest, ha, hb, hne⟩ := hswap
      rw [← List.append_assoc, ← List.append_assoc]
      exact .intro (zs ++ front) rest ha hb hne

theorem Equivalent.append_right (h : Equivalent cls xs ys) (zs : List α) :
    Equivalent cls (xs ++ zs) (ys ++ zs) := by
  induction h with
  | refl => exact .refl
  | tail _ hswap ih =>
      refine ih.tail ?_
      obtain ⟨front, rest, ha, hb, hne⟩ := hswap
      rw [List.append_assoc, List.append_assoc]
      exact .intro front (rest ++ zs) ha hb hne

/-- A mark passes marks of other classes. -/
theorem equivalent_cons (hx : cls x ≠ 0) (h : ∀ m ∈ xs, cls m ≠ 0 ∧ cls m ≠ cls x) :
    Equivalent cls (x :: xs) (xs ++ [x]) := by
  induction xs with
  | nil => exact .refl
  | cons m xs ih =>
      rw [List.forall_mem_cons] at h
      have hswap : Swap cls ([] ++ x :: m :: xs) ([] ++ m :: x :: xs) :=
        .intro [] xs hx h.1.1 h.1.2.symm
      exact Relation.ReflTransGen.head hswap ((ih h.2).append_left [m])

/-- Two runs of marks of different classes change places. -/
theorem equivalent_append (hxs : ∀ x ∈ xs, cls x ≠ 0)
    (h : ∀ x ∈ xs, ∀ y ∈ ys, cls y ≠ 0 ∧ cls y ≠ cls x) :
    Equivalent cls (xs ++ ys) (ys ++ xs) := by
  induction xs with
  | nil =>
      rw [List.nil_append, List.append_nil]
      exact .refl
  | cons x xs ih =>
      rw [List.forall_mem_cons] at hxs h
      have hrest := (ih hxs.2 h.2).append_left [x]
      have hfirst := (equivalent_cons hxs.1 h.1).append_right xs
      rw [List.append_assoc, List.singleton_append] at hfirst
      exact Relation.ReflTransGen.trans hrest hfirst

end CanonicalOrder
