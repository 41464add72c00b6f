import Mathlib

/-!
# Stable sorting by a key

Entries sorted by a key under a total comparison. A list with distinct keys has
exactly one ascending arrangement, so sorting forgets the order it was given and
leaves an ascending list alone.
-/
namespace SortByKey
variable {α β κ : Type*} (cmp : κ → κ → Ordering) (key : α → κ)

/-- Sort stably by `key`. -/
def sortBy (l : List α) : List α := l.insertionSort fun a b => (cmp (key a) (key b)).isLE

/-- The keys strictly increase. -/
def Ascending (l : List α) : Prop := l.Pairwise fun a b => cmp (key a) (key b) = .lt

variable {cmp key}

theorem perm_sortBy (l : List α) : (sortBy cmp key l).Perm l := List.perm_insertionSort _ l

@[simp] theorem mem_sortBy {l : List α} {a : α} : a ∈ sortBy cmp key l ↔ a ∈ l :=
  (perm_sortBy l).mem_iff

@[simp] theorem length_sortBy (l : List α) : (sortBy cmp key l).length = l.length :=
  (perm_sortBy l).length_eq

theorem Ascending.sublist {l l' : List α} (h : Ascending cmp key l) (hs : l'.Sublist l) :
    Ascending cmp key l' := List.Pairwise.sublist hs h

theorem sortBy_of_ascending {l : List α} (h : Ascending cmp key l) : sortBy cmp key l = l := by
  refine List.Pairwise.insertionSort_eq (h.imp ?_)
  intro a b hab
  rw [hab]
  rfl

/-- Sorting commutes with a map that keeps every entry's key. -/
theorem map_sortBy {key' : β → κ} (f : α → β) {l : List α} (h : ∀ a ∈ l, key' (f a) = key a) :
    (sortBy cmp key l).map f = sortBy cmp key' (l.map f) := by
  refine List.map_insertionSort _ _ f l fun a ha b hb => ?_
  rw [h a ha, h b hb]

section Total
variable [Std.TransCmp cmp]

theorem pairwise_sortBy (l : List α) :
    (sortBy cmp key l).Pairwise fun a b => (cmp (key a) (key b)).isLE := by
  have htotal : Std.Total fun a b : α => (cmp (key a) (key b)).isLE = true := by
    refine ⟨fun a b => ?_⟩
    have hswap : cmp (key b) (key a) = (cmp (key a) (key b)).swap := Std.OrientedCmp.eq_swap
    rw [hswap]
    cases cmp (key a) (key b) <;> simp
  have htrans : IsTrans α fun a b => (cmp (key a) (key b)).isLE = true :=
    ⟨fun _ _ _ => Std.TransCmp.isLE_trans⟩
  exact List.pairwise_insertionSort _ l

theorem Ascending.eq_of_perm {l l' : List α} (h : Ascending cmp key l)
    (h' : Ascending cmp key l') (hp : l.Perm l') : l = l' := by
  refine hp.eq_of_pairwise (fun a b _ _ hab hba => ?_) h h'
  have hgt := Std.OrientedCmp.gt_of_lt hab
  rw [hba] at hgt
  cases hgt

/-- A comparison of the keys. -/
theorem transCmp_on (key : α → κ) : Std.TransCmp fun a b => cmp (key a) (key b) where
  eq_swap := Std.OrientedCmp.eq_swap
  isLE_trans := Std.TransCmp.isLE_trans

end Total

section Lawful
variable [Std.TransCmp cmp] [Std.LawfulEqCmp cmp]

/-- **The keys of a sorted list** do not depend on the order it was given. -/
theorem map_key_sortBy_of_perm {l l' : List α} (hp : l.Perm l') :
    (sortBy cmp key l).map key = (sortBy cmp key l').map key := by
  have hperm : ((sortBy cmp key l).map key).Perm ((sortBy cmp key l').map key) :=
    ((perm_sortBy l).trans (hp.trans (perm_sortBy l').symm)).map key
  have hsorted : ∀ l : List α, ((sortBy cmp key l).map key).Pairwise fun a b => (cmp a b).isLE :=
    fun l => List.pairwise_map.mpr (pairwise_sortBy l)
  refine hperm.eq_of_pairwise ?_ (hsorted l) (hsorted l')
  intro a b _ _ hab hba
  exact Std.LawfulEqCmp.eq_of_compare (Std.OrientedCmp.isLE_antisymm hab hba)

/-- The sort is strictly ascending exactly when no two entries share a key. -/
theorem ascending_sortBy_iff {l : List α} :
    Ascending cmp key (sortBy cmp key l) ↔ (l.map key).Nodup := by
  have hnodup : (l.map key).Nodup ↔ ((sortBy cmp key l).map key).Nodup :=
    ((perm_sortBy l).map key).nodup_iff.symm
  rw [hnodup, List.Nodup, List.pairwise_map]
  constructor
  · refine List.Pairwise.imp ?_
    intro a b hlt heq
    have hself : cmp (key b) (key b) = .eq := Std.ReflCmp.compare_self
    rw [heq, hself] at hlt
    cases hlt
  · intro hne
    refine (hne.and (pairwise_sortBy l)).imp ?_
    rintro a b ⟨hab, hle⟩
    cases hcmp : cmp (key a) (key b) with
    | lt => rfl
    | eq => exact absurd (Std.LawfulEqCmp.eq_of_compare hcmp) hab
    | gt => rw [hcmp] at hle; cases hle

theorem sortBy_eq_of_perm {l l' : List α} (hn : (l.map key).Nodup) (hp : l.Perm l') :
    sortBy cmp key l = sortBy cmp key l' := by
  refine (ascending_sortBy_iff.mpr hn).eq_of_perm (ascending_sortBy_iff.mpr ?_) ?_
  · exact (hp.map key).nodup_iff.mp hn
  · exact (perm_sortBy l).trans (hp.trans (perm_sortBy l').symm)

end Lawful

end SortByKey
