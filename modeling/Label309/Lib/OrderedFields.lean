import Mathlib

/-!
# Records as ordered maps

A map is the list of its entries in the order of their keys. A record is put into one with every
field under a name of its own, and a field without a value is left out. The map gives the record
back.
-/
namespace OrderedFields
variable {K α : Type*} [LinearOrder K]

/-- An entry that is put in takes the place of the one under its key. -/
def insert (key : K) (value : α) : List (K × α) → List (K × α)
  | [] => [(key, value)]
  | (k, v) :: rest =>
      if key < k then (key, value) :: (k, v) :: rest
      else if key = k then (key, value) :: rest
      else (k, v) :: insert key value rest

/-- Entries put in one after the other. -/
def insertAll (m entries : List (K × α)) : List (K × α) :=
  entries.foldl (fun m entry => insert entry.1 entry.2 m) m

def ofEntries (entries : List (K × α)) : List (K × α) := insertAll [] entries

/-- The fields that have a value. -/
def present (fields : List (K × Option α)) : List (K × α) :=
  fields.filterMap fun field => field.2.map fun value => (field.1, value)

def ofFields (fields : List (K × Option α)) : List (K × α) := ofEntries (present fields)

theorem lookup_entry (k key : K) (value : α) (m : List (K × α)) :
    ((key, value) :: m).lookup k = if k = key then some value else m.lookup k := by
  rw [List.lookup_cons]
  by_cases hk : k = key
  · rw [if_pos hk, beq_iff_eq.mpr hk]
  · rw [if_neg hk, beq_eq_false_iff_ne.mpr hk]

theorem lookup_insert (k key : K) (value : α) (m : List (K × α)) :
    (insert key value m).lookup k = if k = key then some value else m.lookup k := by
  induction m with
  | nil => exact lookup_entry k key value []
  | cons entry rest ih =>
      obtain ⟨k', v⟩ := entry
      rw [insert]
      by_cases hlt : key < k'
      · rw [if_pos hlt, lookup_entry]
      rw [if_neg hlt]
      by_cases heq : key = k'
      · rw [if_pos heq, lookup_entry, lookup_entry, ← heq]
        by_cases hk : k = key
        · rw [if_pos hk, if_pos hk]
        · rw [if_neg hk, if_neg hk, if_neg hk]
      · rw [if_neg heq, lookup_entry, lookup_entry, ih]
        by_cases hk : k = key
        · rw [if_pos hk, if_neg (hk ▸ heq), if_pos hk]
        · rw [if_neg hk, if_neg hk]

/-- A key that no entry has is looked up behind them. -/
theorem lookup_insertAll_of_notMem {k : K} {m entries : List (K × α)}
    (h : k ∉ entries.map Prod.fst) : (insertAll m entries).lookup k = m.lookup k := by
  induction entries generalizing m with
  | nil => rfl
  | cons entry entries ih =>
      rw [List.map_cons, List.mem_cons, not_or] at h
      rw [insertAll, List.foldl_cons, ← insertAll, ih h.2, lookup_insert, if_neg h.1]

/-- Under different keys every entry is there. -/
theorem lookup_insertAll_of_mem {k : K} {v : α} {m entries : List (K × α)}
    (hnodup : (entries.map Prod.fst).Nodup) (h : (k, v) ∈ entries) :
    (insertAll m entries).lookup k = some v := by
  induction entries generalizing m with
  | nil => cases h
  | cons entry entries ih =>
      rw [List.map_cons, List.nodup_cons] at hnodup
      rw [insertAll, List.foldl_cons, ← insertAll]
      rcases List.mem_cons.mp h with heq | hmem
      · subst heq
        rw [lookup_insertAll_of_notMem hnodup.1, lookup_insert, if_pos rfl]
      · exact ih hnodup.2 hmem

omit [LinearOrder K] in
theorem map_fst_present_sublist (fields : List (K × Option α)) :
    ((present fields).map Prod.fst).Sublist (fields.map Prod.fst) := by
  induction fields with
  | nil => exact .slnil
  | cons field fields ih =>
      obtain ⟨k, v⟩ := field
      cases v with
      | none => exact ih.cons k
      | some v => exact ih.cons_cons k

/-- What is looked up under the name of a field is its value. -/
theorem lookup_ofFields {k : K} {v : Option α} {fields : List (K × Option α)}
    (hnodup : (fields.map Prod.fst).Nodup) (h : (k, v) ∈ fields) :
    (ofFields fields).lookup k = v := by
  have hpresent : ((present fields).map Prod.fst).Nodup :=
    hnodup.sublist (map_fst_present_sublist fields)
  cases v with
  | some v =>
      exact lookup_insertAll_of_mem hpresent (List.mem_filterMap.mpr ⟨_, h, rfl⟩)
  | none =>
      refine lookup_insertAll_of_notMem ?_
      intro hmem
      obtain ⟨⟨k', v⟩, hentry, rfl⟩ := List.mem_map.mp hmem
      obtain ⟨⟨k, w⟩, hfield, hvalue⟩ := List.mem_filterMap.mp hentry
      obtain ⟨v', hw, heq⟩ := Option.map_eq_some_iff.mp hvalue
      cases heq
      have hsame := List.inj_on_of_nodup_map hnodup h hfield rfl
      rw [Prod.mk.injEq] at hsame
      cases hsame.2.trans hw

/-- **The map gives the fields back.** -/
theorem ofFields_injective {fs gs : List (K × Option α)}
    (hnames : fs.map Prod.fst = gs.map Prod.fst) (hnodup : (fs.map Prod.fst).Nodup)
    (h : ofFields fs = ofFields gs) : fs = gs := by
  have hlength : fs.length = gs.length := by simpa using congrArg List.length hnames
  refine List.ext_getElem hlength ?_
  intro i hi hi'
  have hname : fs[i].1 = gs[i].1 := by
    have := congrArg (fun names => names[i]?) hnames
    simpa [hi, hi'] using this
  have hleft : (ofFields fs).lookup fs[i].1 = fs[i].2 :=
    lookup_ofFields hnodup (List.getElem_mem hi)
  have hright : (ofFields gs).lookup gs[i].1 = gs[i].2 :=
    lookup_ofFields (hnames ▸ hnodup) (List.getElem_mem hi')
  rw [← hname, ← h, hleft] at hright
  exact Prod.ext hname hright

end OrderedFields
