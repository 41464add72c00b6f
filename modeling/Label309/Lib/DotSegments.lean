import Mathlib

/-!
# Dot segments

The dot segments of an absolute path are removed over a stack of segments: some segments are passed
over, some take the last one away, and nothing is above the root. Which segments these are is a
parameter, since a dot has several spellings. A path that ends in a dot segment ends in an empty
one. What a relative path does above a base is the same for every base exactly when it never takes
a segment of the base away.
-/
namespace DotSegments

/-- What a segment says: nothing, a step up, or a step into the segment. -/
inductive Move
  | stay
  | up
  | into
  deriving DecidableEq

variable {α : Type*} (move : List α → Move)

/-- What a segment does to the segments before it. -/
def step (out : List (List α)) (s : List α) : List (List α) :=
  match move s with
  | .stay => out
  | .up => out.dropLast
  | .into => out ++ [s]

/-- What the last segment of a path does. -/
def finish (out : List (List α)) (s : List α) : List (List α) :=
  if move s = .into then out ++ [s] else step move out s ++ [[]]

/-- The segments of a path behind those that are there, its dot segments removed. -/
def remove : (out : List (List α)) → List (List α) → List (List α)
  | out, [] => out
  | out, [s] => finish move out s
  | out, s :: t :: rest => remove (step move out s) (t :: rest)

/-- The same, but nothing when a segment is taken away that is not there. -/
def within : (out : List (List α)) → List (List α) → Option (List (List α))
  | out, [] => some out
  | out, s :: rest =>
      if move s = .up ∧ out = [] then none
      else if rest = [] then some (finish move out s)
      else within (step move out s) rest

variable {move} {out segs : List (List α)} {s : List α}

theorem remove_cons (h : segs ≠ []) :
    remove move out (s :: segs) = remove move (step move out s) segs := by
  cases segs with
  | nil => exact absurd rfl h
  | cons t rest => rfl

/-- Segments that more follow are a directory. -/
theorem remove_append (dirs : List (List α)) (h : segs ≠ []) :
    remove move out (dirs ++ segs) = remove move (dirs.foldl (step move) out) segs := by
  induction dirs generalizing out with
  | nil => rfl
  | cons d dirs ih =>
      rw [List.cons_append, remove_cons (by simp [h]), ih, List.foldl_cons]

/-- A segment without dots is kept. -/
theorem step_of_into (h : move s = .into) : step move out s = out ++ [s] := by
  rw [step, h]

theorem remove_singleton_of_into (h : move s = .into) : remove move out [s] = out ++ [s] := by
  rw [remove, finish, if_pos h]

/-- Segments that are no dot segments are kept. -/
theorem remove_of_into (hne : segs ≠ []) (h : ∀ s ∈ segs, move s = .into) :
    remove move out segs = out ++ segs := by
  induction segs generalizing out with
  | nil => exact absurd rfl hne
  | cons s segs ih =>
      rw [List.forall_mem_cons] at h
      by_cases hrest : segs = []
      · rw [hrest, remove_singleton_of_into h.1]
      · rw [remove_cons hrest, step_of_into h.1, ih hrest h.2, List.append_assoc,
          List.singleton_append]

/-- Above a base, a step that the base is not needed for. -/
theorem step_base (base : List (List α)) (h : ¬ (move s = .up ∧ out = [])) :
    step move (base ++ out) s = base ++ step move out s := by
  rw [step, step]
  cases hmove : move s with
  | stay => rfl
  | up => exact List.dropLast_append_of_ne_nil fun hnil => h ⟨hmove, hnil⟩
  | into => exact List.append_assoc _ _ _

theorem finish_base (base : List (List α)) (h : ¬ (move s = .up ∧ out = [])) :
    finish move (base ++ out) s = base ++ finish move out s := by
  rw [finish, finish, step_base base h]
  split <;> simp

/-- **A path that stays above every base** does the same above each. -/
theorem remove_of_within {r : List (List α)} (base : List (List α))
    (h : within move out segs = some r) : remove move (base ++ out) segs = base ++ r := by
  induction segs generalizing out with
  | nil =>
      cases h
      rfl
  | cons s rest ih =>
      rw [within] at h
      by_cases hunder : move s = .up ∧ out = []
      · rw [if_pos hunder] at h
        cases h
      · rw [if_neg hunder] at h
        by_cases hlast : rest = []
        · rw [if_pos hlast, Option.some.injEq] at h
          rw [hlast, remove, finish_base base hunder, ← h]
        · rw [if_neg hlast] at h
          rw [remove_cons hlast, step_base base hunder, ih h]

section Fresh
variable {f : List α} (hnil : f ≠ [])

theorem notMem_step (hout : f ∉ out) (hs : f ≠ s) : f ∉ step move out s := by
  rw [step]
  cases move s with
  | stay => exact hout
  | up => exact fun hmem => hout (List.dropLast_subset out hmem)
  | into => simp [hout, hs]

include hnil

theorem notMem_finish (hout : f ∉ out) (hs : f ≠ s) : f ∉ finish move out s := by
  have hstep : f ∉ step move out s := notMem_step hout hs
  rw [finish]
  split <;> simp [hstep, hout, hs, hnil]

theorem notMem_remove (hout : f ∉ out) (hsegs : f ∉ segs) : f ∉ remove move out segs := by
  induction segs generalizing out with
  | nil => exact hout
  | cons s rest ih =>
      rw [List.mem_cons, not_or] at hsegs
      by_cases hlast : rest = []
      · rw [hlast, remove]
        exact notMem_finish hnil hout hsegs.1
      · rw [remove_cons hlast]
        exact ih (notMem_step hout hsegs.1) hsegs.2

/-- A path that goes below its base takes the base away, and nothing in it brings it back. -/
theorem notMem_remove_of_within_none (hout : f ∉ out) (hsegs : f ∉ segs)
    (h : within move out segs = none) : f ∉ remove move (f :: out) segs := by
  induction segs generalizing out with
  | nil => cases h
  | cons s rest ih =>
      rw [within] at h
      rw [List.mem_cons, not_or] at hsegs
      by_cases hunder : move s = .up ∧ out = []
      · -- The base is all that is left.
        have hempty : step move (f :: out) s = [] := by
          rw [step, hunder.1, hunder.2]
          rfl
        by_cases hlast : rest = []
        · rw [hlast, remove, finish, hempty, hunder.1]
          simp [hnil]
        · rw [remove_cons hlast, hempty]
          exact notMem_remove hnil (by simp) hsegs.2
      · rw [if_neg hunder] at h
        by_cases hlast : rest = []
        · rw [if_pos hlast] at h
          cases h
        · rw [if_neg hlast] at h
          have hstep := step_base [f] hunder
          rw [List.singleton_append, List.singleton_append] at hstep
          rw [remove_cons hlast, hstep]
          exact ih (notMem_step hout hsegs.1) hsegs.2 h

/-- **Staying under a place.** A path leads from `out` to a place under `place`, above the base
`[f]` of a name that does not occur in it, exactly when it stays above every base and does. -/
theorem under_iff (hout : f ∉ out) (hsegs : f ∉ segs) (place : List (List α)) :
    f :: place <+: remove move (f :: out) segs ↔
      ∃ r, within move out segs = some r ∧ place <+: r := by
  cases h : within move out segs with
  | none =>
      refine iff_of_false ?_ (by simp)
      intro hunder
      exact notMem_remove_of_within_none hnil hout hsegs h (hunder.subset List.mem_cons_self)
  | some r =>
      have hsame := remove_of_within [f] h
      rw [List.singleton_append, List.singleton_append] at hsame
      rw [hsame, List.cons_prefix_cons]
      simp

end Fresh

end DotSegments
