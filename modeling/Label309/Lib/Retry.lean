import Mathlib.Data.List.Basic

/-!
# Bounded retries

A loop that tries again until an outcome is final or its budget is spent, on the tape of the
outcomes that it would see.
-/
namespace Retry
variable {α : Type*} (final : α → Prop) [DecidablePred final]

/-- The outcomes that are seen. -/
def attempted : ℕ → List α → List α
  | 0, _ => []
  | _ + 1, [] => []
  | n + 1, a :: tape => if final a then [a] else a :: attempted n tape

@[simp] theorem attempted_zero (tape : List α) : attempted final 0 tape = [] := rfl

@[simp] theorem attempted_nil (n : ℕ) : attempted final n [] = [] := by cases n <;> rfl

theorem attempted_cons (n : ℕ) (a : α) (tape : List α) : attempted final (n + 1) (a :: tape) =
    if final a then [a] else a :: attempted final n tape := rfl

theorem isPrefix_attempted_tape (n : ℕ) (tape : List α) : attempted final n tape <+: tape := by
  induction n generalizing tape with
  | zero => exact List.nil_prefix
  | succ n ih =>
      cases tape with
      | nil => exact List.nil_prefix
      | cons a tape =>
          rw [attempted_cons]
          by_cases ha : final a
          · rw [if_pos ha]
            exact List.prefix_append [a] tape
          · rw [if_neg ha]
            exact (List.prefix_cons_inj a).mpr (ih tape)

theorem length_attempted_le (n : ℕ) (tape : List α) : (attempted final n tape).length ≤ n := by
  induction n generalizing tape with
  | zero => exact Nat.le_refl 0
  | succ n ih =>
      cases tape with
      | nil => exact Nat.zero_le _
      | cons a tape =>
          have hle := ih tape
          rw [attempted_cons]
          by_cases ha : final a
          · simp [ha]
          · simpa [ha] using hle

theorem attempted_ne_nil {n : ℕ} {tape : List α} (h : n + 1 ≤ tape.length) :
    attempted final (n + 1) tape ≠ [] := by
  cases tape with
  | nil => simp at h
  | cons a tape =>
      rw [attempted_cons]
      by_cases ha : final a <;> simp [ha]

/-- Only the last outcome is final. -/
theorem not_final_of_mem_dropLast {n : ℕ} {tape : List α} {a : α}
    (h : a ∈ (attempted final n tape).dropLast) : ¬ final a := by
  induction n generalizing tape with
  | zero => simp at h
  | succ n ih =>
      cases tape with
      | nil => simp at h
      | cons b tape =>
          rw [attempted_cons] at h
          by_cases hb : final b
          · simp [hb] at h
          · rw [if_neg hb] at h
            by_cases hrest : attempted final n tape = []
            · simp [hrest] at h
            · rw [List.dropLast_cons_of_ne_nil hrest, List.mem_cons] at h
              cases h with
              | inl heq => rwa [heq]
              | inr hmem => exact ih hmem

/-- The loop stops at a final outcome or when its budget is spent. -/
theorem final_getLast_or {n : ℕ} {tape : List α} (h : n ≤ tape.length) :
    (∃ a, (attempted final n tape).getLast? = some a ∧ final a) ∨
      (attempted final n tape).length = n := by
  induction n generalizing tape with
  | zero => exact .inr rfl
  | succ n ih =>
      cases tape with
      | nil => simp at h
      | cons b tape =>
          rw [attempted_cons]
          by_cases hb : final b
          · exact .inl ⟨b, by simp [hb], hb⟩
          · rw [if_neg hb]
            rcases ih (by simpa using h) with ⟨a, hlast, ha⟩ | hlength
            · exact .inl ⟨a, by rw [List.getLast?_cons, hlast]; rfl, ha⟩
            · exact .inr (by rw [List.length_cons, hlength])

/-- **What a bounded retry sees** is the prefix of the tape that ends with the first final outcome,
or with the last of the budget. -/
theorem eq_attempted_iff {n : ℕ} {tape seen : List α} (h : n ≤ tape.length) :
    seen = attempted final n tape ↔
      seen <+: tape ∧ seen.length ≤ n ∧ (∀ a ∈ seen.dropLast, ¬ final a) ∧
        ((∃ a, seen.getLast? = some a ∧ final a) ∨ seen.length = n) := by
  constructor
  · intro heq
    rw [heq]
    exact ⟨isPrefix_attempted_tape final n tape, length_attempted_le final n tape,
      fun a => not_final_of_mem_dropLast final, final_getLast_or final h⟩
  · intro hseen
    obtain ⟨htape, hle, htransient, hend⟩ := hseen
    induction n generalizing tape seen with
    | zero => exact List.length_eq_zero_iff.mp (Nat.le_zero.mp hle)
    | succ n ih =>
        cases tape with
        | nil => simp at h
        | cons a tape =>
            cases seen with
            | nil => simp at hend
            | cons b rest =>
                obtain ⟨hab, hrest⟩ := List.cons_prefix_cons.mp htape
                subst hab
                rw [attempted_cons]
                by_cases hnil : rest = []
                · subst hnil
                  by_cases hb : final b
                  · rw [if_pos hb]
                  · have hn : n = 0 := by simpa [hb] using hend
                    rw [if_neg hb, hn, attempted_zero]
                · rw [List.dropLast_cons_of_ne_nil hnil, List.forall_mem_cons] at htransient
                  have hend' : (∃ a, rest.getLast? = some a ∧ final a) ∨ rest.length = n := by
                    simpa [List.getLast?_cons, List.getLast?_eq_getLast_of_ne_nil hnil] using hend
                  rw [if_neg htransient.1, ← ih (by simpa using h) hrest (by simpa using hle)
                    htransient.2 hend']

/-- Two loops see the same outcomes exactly when they judge alike what the first sees before its
last try. -/
theorem attempted_eq_iff {final' : α → Prop} [DecidablePred final'] {n : ℕ} {tape : List α}
    (h : n + 1 ≤ tape.length) :
    attempted final' (n + 1) tape = attempted final (n + 1) tape ↔
      ∀ a ∈ attempted final n tape, (final' a ↔ final a) := by
  induction n generalizing tape with
  | zero =>
      cases tape with
      | nil => simp at h
      | cons a tape => simp [attempted_cons]
  | succ n ih =>
      cases tape with
      | nil => simp at h
      | cons a tape =>
          have hlength : n + 1 ≤ tape.length := by simpa using h
          rw [attempted_cons, attempted_cons, attempted_cons]
          by_cases ha : final a
          · by_cases ha' : final' a
            · simp [ha, ha']
            · simp [ha, ha', attempted_ne_nil final' hlength]
          · by_cases ha' : final' a
            · simp [ha, ha', (attempted_ne_nil final hlength).symm]
            · simp [ha, ha', ih hlength]

end Retry
