import Mathlib

/-!
# Inversion of sequencing

What a successful or a failed `bind` says about its two halves, and what a list read
element by element says about its elements.
-/
namespace ExceptBind
variable {ε α β : Type}

theorem bind_eq_ok {x : Except ε α} {f : α → Except ε β} {b : β} :
    (x >>= f) = .ok b ↔ ∃ a, x = .ok a ∧ f a = .ok b := by
  cases x with
  | ok a => simp [bind, Except.bind]
  | error e => simp [bind, Except.bind]

theorem map_eq_ok {x : Except ε α} {f : α → β} {b : β} :
    x.map f = .ok b ↔ ∃ a, x = .ok a ∧ f a = b := by
  cases x with
  | ok a => simp [Except.map]
  | error e => simp [Except.map]

@[simp] theorem ok_bind (a : α) (f : α → Except ε β) : (Except.ok a >>= f) = f a := rfl

@[simp] theorem error_bind (e : ε) (f : α → Except ε β) :
    ((Except.error e : Except ε α) >>= f) = .error e := rfl

theorem not_ok_iff_error {x : Except ε α} : (¬ ∃ a, x = .ok a) ↔ ∃ e, x = .error e := by
  cases x <;> simp

/-- A list read element by element. -/
theorem mapM_eq_some_iff {f : α → Option β} {as : List α} {bs : List β} :
    as.mapM f = some bs ↔ List.Forall₂ (fun a b => f a = some b) as bs := by
  induction as generalizing bs with
  | nil => simp [eq_comm]
  | cons a as ih =>
      simp only [List.mapM_cons, Option.bind_eq_bind, Option.bind_eq_some_iff, ih,
        List.forall₂_cons_left_iff, Option.pure_def, Option.some.injEq]
      constructor
      · rintro ⟨b, hb, bs', hbs, rfl⟩
        exact ⟨b, bs', hb, hbs, rfl⟩
      · rintro ⟨b, bs', hb, hbs, rfl⟩
        exact ⟨b, hb, bs', hbs, rfl⟩

theorem mapM_eq_ok_iff {f : α → Except ε β} {as : List α} {bs : List β} :
    as.mapM f = .ok bs ↔ List.Forall₂ (fun a b => f a = .ok b) as bs := by
  induction as generalizing bs with
  | nil => simp [pure, Except.pure, eq_comm]
  | cons a as ih =>
      simp only [List.mapM_cons, bind_eq_ok, ih, List.forall₂_cons_left_iff, pure, Except.pure,
        Except.ok.injEq]
      constructor
      · rintro ⟨b, hb, bs', hbs, rfl⟩
        exact ⟨b, bs', hb, hbs, rfl⟩
      · rintro ⟨b, bs', hb, hbs, rfl⟩
        exact ⟨b, hb, bs', hbs, rfl⟩

/-- An element of the right list is related to one of the left list. -/
theorem exists_left_of_forall₂ {R : α → β → Prop} {as : List α} {bs : List β}
    (h : List.Forall₂ R as bs) {b : β} (hb : b ∈ bs) : ∃ a ∈ as, R a b := by
  induction h with
  | nil => cases hb
  | cons hhead _ ih =>
      rcases List.mem_cons.mp hb with rfl | hb
      · exact ⟨_, List.mem_cons_self, hhead⟩
      · obtain ⟨a, ha, hrel⟩ := ih hb
        exact ⟨a, List.mem_cons_of_mem _ ha, hrel⟩

/-- An element of the left list is related to one of the right list. -/
theorem exists_right_of_forall₂ {R : α → β → Prop} {as : List α} {bs : List β}
    (h : List.Forall₂ R as bs) {a : α} (ha : a ∈ as) : ∃ b ∈ bs, R a b :=
  exists_left_of_forall₂ h.flip ha

/-- Related elements make a related list. -/
theorem exists_forall₂_of_forall {R : α → β → Prop} {as : List α} (h : ∀ a ∈ as, ∃ b, R a b) :
    ∃ bs, List.Forall₂ R as bs := by
  induction as with
  | nil => exact ⟨[], .nil⟩
  | cons a as ih =>
      obtain ⟨b, hb⟩ := h a List.mem_cons_self
      obtain ⟨bs, hbs⟩ := ih (by intro a' ha'; exact h a' (List.mem_cons_of_mem _ ha'))
      exact ⟨b :: bs, .cons hb hbs⟩

theorem exists_of_mapM_eq_some {f : α → Option β} {as : List α} {bs : List β}
    (h : as.mapM f = some bs) {b : β} (hb : b ∈ bs) : ∃ a ∈ as, f a = some b :=
  exists_left_of_forall₂ (mapM_eq_some_iff.mp h) hb

/-! ## Failures -/

/-- Every failure satisfies `P`. -/
def FailsIn (P : ε → Prop) (x : Except ε α) : Prop := ∀ e, x = .error e → P e

section Fails
variable {P : ε → Prop}

@[simp] theorem failsIn_ok (a : α) : FailsIn P (.ok a : Except ε α) := by
  intro e h
  cases h

@[simp] theorem failsIn_error {e : ε} : FailsIn P (.error e : Except ε α) ↔ P e := by
  constructor
  · intro h
    exact h e rfl
  · intro h e' heq
    cases heq
    exact h

theorem failsIn_bind {x : Except ε α} {f : α → Except ε β} (hx : FailsIn P x)
    (hf : ∀ a, FailsIn P (f a)) : FailsIn P (x >>= f) := by
  cases x with
  | ok a => exact hf a
  | error e =>
      intro e' h
      cases h
      exact hx e rfl

theorem FailsIn.ite {c : Prop} [Decidable c] {x y : Except ε α} (hx : FailsIn P x)
    (hy : FailsIn P y) : FailsIn P (if c then x else y) := by
  by_cases h : c
  · rwa [if_pos h]
  · rwa [if_neg h]

end Fails

end ExceptBind
