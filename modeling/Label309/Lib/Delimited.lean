import Mathlib

/-!
# Lists cut at a mark

A list is cut at the first place where a mark stands, or into parts at every place of a letter. A
mark whose first letter does not come again in it overlaps no other place where it stands, so a list
that the mark follows is found whole exactly when the mark does not stand in it already.
-/
namespace Delimited
variable {α : Type*} [DecidableEq α]

/-- What comes before the mark, the mark and what comes after it. -/
theorem eq_of_cut {mark l p s : List α} (h : l.dropInfix? mark = some (p, s)) :
    l = p ++ mark ++ s := by
  obtain ⟨⟨i, hl, hi⟩, -⟩ := List.dropInfix?_eq_some_iff.mp h
  rwa [eq_of_beq hi] at hl

/-- A list in which the mark stands is cut, at its first place. -/
theorem cut_of_infix {mark l : List α} (h : mark <:+: l) :
    ∃ p s, l.dropInfix? mark = some (p, s) ∧
      ∀ p' s', l = p' ++ mark ++ s' → p.length ≤ p'.length := by
  obtain ⟨s₀, t₀, hl⟩ := h
  -- The shortest of the lists that stand before the mark.
  let before : Set ℕ := {n | ∃ p s, l = p ++ mark ++ s ∧ p.length = n}
  have hne : before.Nonempty := ⟨s₀.length, s₀, t₀, hl.symm, rfl⟩
  obtain ⟨p, s, hps, hlen⟩ := Nat.sInf_mem hne
  have hleast (p' s' : List α) (h' : l = p' ++ mark ++ s') : p.length ≤ p'.length := by
    rw [hlen]
    exact Nat.sInf_le ⟨p', s', h', rfl⟩
  refine ⟨p, s, List.dropInfix?_eq_some_iff.mpr ⟨⟨mark, hps, by simp⟩, ?_⟩, hleast⟩
  intro p' i s' h' hi
  rw [eq_of_beq hi] at h'
  exact hleast p' s' h'

/-- A mark that stands in a list cuts what is made of the list and more inside the list. -/
theorem cut_append_of_infix {mark v : List α} (h : mark <:+: v) (t : List α) :
    ∃ p s, (v ++ t).dropInfix? mark = some (p, s) ∧ p.length + mark.length ≤ v.length := by
  obtain ⟨p', s', hv⟩ := h
  have hwhole : v ++ t = p' ++ mark ++ (s' ++ t) := by rw [← hv]; simp
  obtain ⟨p, s, hcut, hleast⟩ := cut_of_infix ⟨p', s' ++ t, hwhole.symm⟩
  refine ⟨p, s, hcut, ?_⟩
  have hle := hleast p' (s' ++ t) hwhole
  have hlen := congrArg List.length hv
  simp only [List.length_append] at hlen
  omega

/-- A letter at which the mark does not stand is passed over. -/
theorem cut_cons {mark l p s : List α} {a : α} (ha : ¬ mark <+: a :: l)
    (h : l.dropInfix? mark = some (p, s)) : (a :: l).dropInfix? mark = some (a :: p, s) := by
  obtain ⟨-, hleast⟩ := List.dropInfix?_eq_some_iff.mp h
  refine List.dropInfix?_eq_some_iff.mpr ⟨⟨mark, by rw [eq_of_cut h]; simp, by simp⟩, ?_⟩
  intro p' i s' hsplit hi
  cases p' with
  | nil =>
      rw [eq_of_beq hi, List.nil_append] at hsplit
      exact absurd ⟨s', hsplit.symm⟩ ha
  | cons b p' =>
      rw [List.cons_append, List.cons_append, List.cons.injEq] at hsplit
      have hle := hleast p' i s' hsplit.2 hi
      simp only [List.length_cons, ge_iff_le]
      omega

section Unbordered
variable {m : α} {ms : List α}

/-- Letters that cannot begin the mark are passed over. -/
theorem cut_skip {v l p s : List α} (hv : m ∉ v) (h : l.dropInfix? (m :: ms) = some (p, s)) :
    (v ++ l).dropInfix? (m :: ms) = some (v ++ p, s) := by
  induction v with
  | nil => exact h
  | cons a v ih =>
      rw [List.mem_cons, not_or] at hv
      refine cut_cons ?_ (ih hv.2)
      intro hstart
      exact hv.1 (List.cons_prefix_cons.mp hstart).1

/-- **The cut.** -/
theorem cut_append (hm : m ∉ ms) {v : List α} (hv : ¬ (m :: ms) <:+: v) (t : List α) :
    (v ++ (m :: ms ++ t)).dropInfix? (m :: ms) = some (v, t) := by
  refine List.dropInfix?_eq_some_iff.mpr ⟨⟨m :: ms, by simp, by simp⟩, ?_⟩
  intro p' i s' hsplit hi
  rw [eq_of_beq hi, List.append_assoc, List.append_eq_append_iff] at hsplit
  rcases hsplit with ⟨x, hp', -⟩ | ⟨x, hvx, hrest⟩
  · -- The place is not before the end of `v`.
    rw [hp', List.length_append]
    exact Nat.le_add_right _ _
  · cases x with
    | nil => exact le_of_eq (by rw [hvx, List.append_nil])
    | cons a x =>
        -- Before the end, the mark would stand in `v` or begin again inside itself.
        exfalso
        rw [List.append_eq_append_iff] at hrest
        rcases hrest with ⟨y, hx, -⟩ | ⟨y, hmark, hagain⟩
        · exact hv ⟨p', y, by rw [hvx, hx, List.append_assoc]⟩
        · rw [List.cons_append, List.cons.injEq] at hmark
          cases y with
          | nil => exact hv ⟨p', [], by rw [hvx, hmark.1, hmark.2]; simp⟩
          | cons b y =>
              rw [List.cons_append, List.cons_append, List.cons.injEq] at hagain
              apply hm
              rw [hmark.2, hagain.1]
              exact List.mem_append_right _ List.mem_cons_self

theorem cut_append_of_notMem (hm : m ∉ ms) {v : List α} (hv : m ∉ v) (t : List α) :
    (v ++ (m :: ms ++ t)).dropInfix? (m :: ms) = some (v, t) := by
  refine cut_append hm ?_ t
  rintro ⟨p, s, rfl⟩
  simp at hv

end Unbordered

/-! ## The last parts -/

omit [DecidableEq α] in
/-- The parts of a list before the last ones stand before a mark. -/
theorem intercalate_append_of_ne_nil (a : α) {parts last : List (List α)} (hparts : parts ≠ [])
    (hlast : last ≠ []) :
    [a].intercalate (parts ++ last) = [a].intercalate parts ++ a :: [a].intercalate last := by
  induction parts with
  | nil => exact absurd rfl hparts
  | cons part parts ih =>
      cases parts with
      | nil => simp [List.intercalate_cons_of_ne_nil hlast]
      | cons next parts =>
          have hrest : next :: parts ≠ [] := by simp
          rw [List.cons_append, List.intercalate_cons_of_ne_nil (by simp), ih hrest,
            List.intercalate_cons_of_ne_nil hrest, List.append_assoc _ _ (a :: _)]

/-- **The last parts of a list are those of another** exactly when it is the other or ends with a
mark and the other. -/
theorem splitOn_suffix_iff (a : α) (l last : List α) :
    last.splitOn a <:+ l.splitOn a ↔ l = last ∨ a :: last <:+ l := by
  constructor
  · rintro ⟨parts, hparts⟩
    have hl : [a].intercalate (l.splitOn a) = l := List.intercalate_splitOn a
    rw [← hparts] at hl
    by_cases hnil : parts = []
    · left
      rw [← hl, hnil, List.nil_append, List.intercalate_splitOn]
    · right
      rw [intercalate_append_of_ne_nil a hnil (List.splitOn_ne_nil a last),
        List.intercalate_splitOn] at hl
      exact ⟨[a].intercalate parts, hl⟩
  · rintro (rfl | ⟨before, rfl⟩)
    · exact List.suffix_refl _
    · rw [List.splitOn_append_cons_self]
      exact List.suffix_append _ _

end Delimited
