import Mathlib

/-!
# Programs that talk to a world

A program changes a world, fails or returns a value, and may run out of its budget of steps. What
one step does to the world is a relation, and a reflexive and transitive relation that every step
keeps is kept by a whole run.
-/
namespace Traced
variable {W E α β : Type}

/-- A program over a world `W`. -/
abbrev Program (W E α : Type) := ExceptT E (StateT W Option) α

/-- Run a program. Nothing when its budget is spent. -/
def exec (m : Program W E α) (w : W) : Option (Except E α × W) := StateT.run (ExceptT.run m) w

/-- A program from what it does to the world. -/
def ofStep (f : W → Except E α × W) : Program W E α := ExceptT.mk (StateT.mk fun w => some (f w))

/-- A result that touches nothing. -/
def ofResult (r : Except E α) : Program W E α := ExceptT.mk (StateT.mk fun w => some (r, w))

/-- The program whose budget is spent. -/
def spent : Program W E α := ExceptT.mk (StateT.mk fun _ => none)

/-- Go on from the outcome of a program, whatever it is. -/
def onOutcome (m : Program W E α) (f : Except E α → Program W E β) : Program W E β :=
  ExceptT.mk (StateT.mk fun w => (exec m w).bind fun out => exec (f out.1) out.2)

/-- The program with its errors renamed. -/
def mapError {E' : Type} (f : E → E') (m : Program W E α) : Program W E' α :=
  ExceptT.mk (StateT.mk fun w => (exec m w).map fun out => (out.1.mapError f, out.2))

@[simp] theorem exec_pure (a : α) (w : W) : exec (pure a : Program W E α) w = some (.ok a, w) := rfl

@[simp] theorem exec_throw (e : E) (w : W) :
    exec (throw e : Program W E α) w = some (.error e, w) := rfl

@[simp] theorem exec_ofStep (f : W → Except E α × W) (w : W) : exec (ofStep f) w = some (f w) := rfl

@[simp] theorem exec_ofResult (r : Except E α) (w : W) : exec (ofResult r) w = some (r, w) := rfl

@[simp] theorem exec_spent (w : W) : exec (spent : Program W E α) w = none := rfl

@[simp] theorem exec_onOutcome (m : Program W E α) (f : Except E α → Program W E β) (w : W) :
    exec (onOutcome m f) w = (exec m w).bind fun out => exec (f out.1) out.2 := rfl

@[simp] theorem exec_mapError {E' : Type} (f : E → E') (m : Program W E α) (w : W) :
    exec (mapError f m) w = (exec m w).map fun out => (out.1.mapError f, out.2) := rfl

/-- How a run came about whose errors were renamed. -/
theorem exec_mapError_eq_some {E' : Type} {f : E → E'} {m : Program W E α} {w w' : W}
    {r : Except E' α} (h : exec (mapError f m) w = some (r, w')) :
    ∃ first, exec m w = some (first, w') ∧ r = first.mapError f := by
  rw [exec_mapError] at h
  obtain ⟨⟨first, w1⟩, hfirst, heq⟩ := Option.map_eq_some_iff.mp h
  cases heq
  exact ⟨first, hfirst, rfl⟩

theorem exec_bind (m : Program W E α) (f : α → Program W E β) (w : W) :
    exec (m >>= f) w = (exec m w).bind fun out =>
      match out.1 with
      | .ok a => exec (f a) out.2
      | .error e => some (.error e, out.2) := by
  change (StateT.run (ExceptT.run m) w).bind _ = _
  congr 1
  funext out
  obtain ⟨first, w1⟩ := out
  cases first <;> rfl

/-- How a run of a sequence came about. -/
theorem exec_bind_cases {m : Program W E α} {f : α → Program W E β} {w w' : W} {r : Except E β}
    (h : exec (m >>= f) w = some (r, w')) :
    (∃ e, exec m w = some (.error e, w') ∧ r = .error e) ∨
      ∃ a w1, exec m w = some (.ok a, w1) ∧ exec (f a) w1 = some (r, w') := by
  rw [exec_bind] at h
  cases hm : exec m w with
  | none =>
      rw [hm] at h
      cases h
  | some out =>
      obtain ⟨first, w1⟩ := out
      rw [hm, Option.bind_some] at h
      cases first with
      | ok a => exact .inr ⟨a, w1, rfl, h⟩
      | error e =>
          cases h
          exact .inl ⟨e, rfl, rfl⟩

theorem exec_bind_ok {m : Program W E α} {f : α → Program W E β} {w w1 w' : W} {a : α}
    {r : Except E β} (hm : exec m w = some (.ok a, w1)) (hf : exec (f a) w1 = some (r, w')) :
    exec (m >>= f) w = some (r, w') := by
  rw [exec_bind, hm]
  exact hf

/-- The rest of a run whose first part returned. -/
theorem exec_rest {m : Program W E α} {f : α → Program W E β} {w w1 w' : W} {a : α}
    {r : Except E β} (hm : exec m w = some (.ok a, w1)) (h : exec (m >>= f) w = some (r, w')) :
    exec (f a) w1 = some (r, w') := by
  rwa [exec_bind, hm] at h

/-! ## Relations that a run keeps -/

/-- Every run of the program stays within a relation between worlds. -/
def Within (R : W → W → Prop) (m : Program W E α) : Prop :=
  ∀ w r w', exec m w = some (r, w') → R w w'

/-- Every error of the program is of a kind. -/
def Throws (P : E → Prop) (m : Program W E α) : Prop :=
  ∀ w e w', exec m w = some (.error e, w') → P e

/-- Every value that the program returns is of a kind. -/
def Returns (P : α → Prop) (m : Program W E α) : Prop :=
  ∀ w a w', exec m w = some (.ok a, w') → P a

section Rules
variable {R : W → W → Prop}

theorem Within.pure (hrefl : ∀ w, R w w) (a : α) : Within R (pure a : Program W E α) := by
  intro w r w' h
  rw [exec_pure, Option.some.injEq, Prod.mk.injEq] at h
  rw [← h.2]
  exact hrefl w

theorem Within.throw (hrefl : ∀ w, R w w) (e : E) : Within R (throw e : Program W E α) := by
  intro w r w' h
  rw [exec_throw, Option.some.injEq, Prod.mk.injEq] at h
  rw [← h.2]
  exact hrefl w

theorem Within.ofResult (hrefl : ∀ w, R w w) (r : Except E α) :
    Within R (ofResult r : Program W E α) := by
  intro w r' w' h
  rw [exec_ofResult, Option.some.injEq, Prod.mk.injEq] at h
  rw [← h.2]
  exact hrefl w

theorem Within.spent : Within R (spent : Program W E α) := by
  intro w r w' h
  cases h

theorem Within.ofStep {f : W → Except E α × W} (h : ∀ w, R w (f w).2) : Within R (ofStep f) := by
  intro w r w' hrun
  rw [exec_ofStep, Option.some.injEq] at hrun
  have hw := h w
  rwa [hrun] at hw

theorem Within.bind (htrans : ∀ a b c, R a b → R b c → R a c) {m : Program W E α}
    {f : α → Program W E β} (hm : Within R m) (hf : ∀ a, Within R (f a)) : Within R (m >>= f) := by
  intro w r w' h
  rcases exec_bind_cases h with ⟨e, hrun, -⟩ | ⟨a, w1, hrun, hrest⟩
  · exact hm w _ w' hrun
  · exact htrans w w1 w' (hm w _ w1 hrun) (hf a w1 r w' hrest)

/-- The rule for a part whose value is of a kind. -/
theorem Within.bind_returns (htrans : ∀ a b c, R a b → R b c → R a c) {P : α → Prop}
    {m : Program W E α} {f : α → Program W E β} (hm : Within R m) (hreturns : Returns P m)
    (hf : ∀ a, P a → Within R (f a)) : Within R (m >>= f) := by
  intro w r w' h
  rcases exec_bind_cases h with ⟨e, hrun, -⟩ | ⟨a, w1, hrun, hrest⟩
  · exact hm w _ w' hrun
  · exact htrans w w1 w' (hm w _ w1 hrun) (hf a (hreturns w a w1 hrun) w1 r w' hrest)

/-- A test that throws before the rest. -/
theorem Within.unless (hrefl : ∀ w, R w w) {c : Prop} [Decidable c] (e : E)
    {rest : Program W E α} (h : Within R rest) :
    Within R (if c then (do let _ ← (MonadExcept.throw e : Program W E Unit); rest) else rest) := by
  intro w r w' hrun
  by_cases hc : c
  · rw [if_pos hc] at hrun
    rcases exec_bind_cases hrun with ⟨e', hthrow, -⟩ | ⟨a, w1, hthrow, -⟩
    · exact Within.throw hrefl e w _ w' hthrow
    · cases hthrow
  · rw [if_neg hc] at hrun
    exact h w r w' hrun

theorem Within.mapError {E' : Type} {m : Program W E α} (h : Within R m) (f : E → E') :
    Within R (mapError f m) := by
  intro w r w' hrun
  obtain ⟨first, hfirst, -⟩ := exec_mapError_eq_some hrun
  exact h w first w' hfirst

theorem Within.mono {R' : W → W → Prop} (himp : ∀ a b, R a b → R' a b) {m : Program W E α}
    (h : Within R m) : Within R' m := by
  intro w r w' hrun
  exact himp w w' (h w r w' hrun)

end Rules

section Values
variable {P : α → Prop}

theorem Returns.ofResult {r : Except E α} (h : ∀ a, r = .ok a → P a) :
    Returns P (ofResult r : Program W E α) := by
  intro w a w' hrun
  rw [exec_ofResult, Option.some.injEq, Prod.mk.injEq] at hrun
  exact h a hrun.1

theorem Returns.pure {a : α} (h : P a) : Returns P (pure a : Program W E α) := by
  intro w b w' hrun
  cases hrun
  exact h

theorem Returns.bind {Q : β → Prop} {m : Program W E β} {f : β → Program W E α} (hm : Returns Q m)
    (hf : ∀ b, Q b → Returns P (f b)) : Returns P (m >>= f) := by
  intro w a w' h
  rcases exec_bind_cases h with ⟨e, -, heq⟩ | ⟨b, w1, hrun, hrest⟩
  · cases heq
  · exact hf b (hm w b w1 hrun) w1 a w' hrest

theorem Returns.unless {c : Prop} [Decidable c] (e : E) {rest : Program W E α}
    (h : ¬ c → Returns P rest) :
    Returns P (if c then (do let _ ← (MonadExcept.throw e : Program W E Unit); rest) else rest) := by
  intro w a w' hrun
  by_cases hc : c
  · rw [if_pos hc] at hrun
    rcases exec_bind_cases hrun with ⟨e', -, heq⟩ | ⟨u, w1, hthrow, -⟩
    · cases heq
    · cases hthrow
  · rw [if_neg hc] at hrun
    exact h hc w a w' hrun

end Values

section Errors
variable {P : E → Prop}

theorem Throws.pure (a : α) : Throws P (pure a : Program W E α) := by
  intro w e w' h
  cases h

theorem Throws.throw {e : E} (h : P e) : Throws P (throw e : Program W E α) := by
  intro w e' w' hrun
  rw [exec_throw, Option.some.injEq, Prod.mk.injEq, Except.error.injEq] at hrun
  rw [← hrun.1]
  exact h

theorem Throws.bind {m : Program W E α} {f : α → Program W E β} (hm : Throws P m)
    (hf : ∀ a, Throws P (f a)) : Throws P (m >>= f) := by
  intro w e w' h
  rcases exec_bind_cases h with ⟨e', hrun, heq⟩ | ⟨a, w1, -, hrest⟩
  · cases heq
    exact hm w e w' hrun
  · exact hf a w1 e w' hrest

end Errors

/-! ## How a run ends -/

/-- Every run of the program relates the world that it starts in, whether it succeeds, and the world
that it ends in. -/
def Meets (Q : W → Bool → W → Prop) (m : Program W E α) : Prop :=
  ∀ w r w', exec m w = some (r, w') → Q w r.isOk w'

section Ends
variable {Q Q' : W → Bool → W → Prop} {R : W → W → Prop}

/-- The rule for a part that stays within a relation, and whose value is of a kind. -/
theorem Meets.bind {P : α → Prop} {m : Program W E α} {f : α → Program W E β} (hm : Within R m)
    (hreturns : Returns P m) (hf : ∀ a, P a → Meets Q' (f a))
    (hstop : ∀ w w', R w w' → Q w false w')
    (hjoin : ∀ w w1 ok w', R w w1 → Q' w1 ok w' → Q w ok w') : Meets Q (m >>= f) := by
  intro w r w' h
  rcases exec_bind_cases h with ⟨e, hrun, rfl⟩ | ⟨a, w1, hrun, hrest⟩
  · exact hstop w w' (hm w _ w' hrun)
  · exact hjoin w w1 _ w' (hm w _ w1 hrun) (hf a (hreturns w a w1 hrun) w1 r w' hrest)

/-- A value that is made of another one. -/
theorem Meets.map {m : Program W E α} (h : Meets Q m) (g : α → β) :
    Meets Q (m >>= fun a => pure (g a)) := by
  intro w r w' hrun
  rcases exec_bind_cases hrun with ⟨e, hm, rfl⟩ | ⟨a, w1, hm, hpure⟩
  · exact h w _ w' hm
  · rw [exec_pure, Option.some.injEq, Prod.mk.injEq] at hpure
    rw [← hpure.1, ← hpure.2]
    exact h w _ w1 hm

end Ends

/-! ## Runs that come to an end -/

/-- The program comes to an end, and in an outcome of a kind. -/
def Finishes (Q : Except E α → W → Prop) (m : Program W E α) (w : W) : Prop :=
  ∃ r w', exec m w = some (r, w') ∧ Q r w'

section Ending
variable {Q : Except E α → W → Prop} {w : W}

theorem Finishes.pure {a : α} (h : Q (.ok a) w) : Finishes Q (pure a : Program W E α) w :=
  ⟨_, _, rfl, h⟩

theorem Finishes.throw {e : E} (h : Q (.error e) w) : Finishes Q (throw e : Program W E α) w :=
  ⟨_, _, rfl, h⟩

theorem Finishes.ofStep {f : W → Except E α × W} (h : Q (f w).1 (f w).2) :
    Finishes Q (ofStep f) w :=
  ⟨_, _, rfl, h⟩

theorem Finishes.mono {Q' : Except E α → W → Prop} {m : Program W E α} (h : Finishes Q m w)
    (himp : ∀ r w', Q r w' → Q' r w') : Finishes Q' m w := by
  obtain ⟨r, w', hrun, hQ⟩ := h
  exact ⟨r, w', hrun, himp r w' hQ⟩

/-- What follows a part that returned. -/
theorem Finishes.after {m : Program W E β} {f : β → Program W E α} {b : β} {v : W}
    (hm : exec m w = some (.ok b, v)) (hf : Finishes Q (f b) v) : Finishes Q (m >>= f) w := by
  obtain ⟨r, w', hrun, hQ⟩ := hf
  exact ⟨r, w', exec_bind_ok hm hrun, hQ⟩

theorem Finishes.bind {P : Except E β → W → Prop} {m : Program W E β} {f : β → Program W E α}
    (hm : Finishes P m w) (herror : ∀ e w1, P (.error e) w1 → Q (.error e) w1)
    (hok : ∀ b w1, P (.ok b) w1 → Finishes Q (f b) w1) : Finishes Q (m >>= f) w := by
  obtain ⟨first, w1, hrun, hP⟩ := hm
  cases first with
  | ok b => exact (hok b w1 hP).after hrun
  | error e =>
      refine ⟨.error e, w1, ?_, herror e w1 hP⟩
      rw [exec_bind, hrun]
      rfl

theorem Finishes.mapError {E' : Type} {f : E → E'} {Q : Except E' α → W → Prop}
    {m : Program W E α} (h : Finishes (fun r w' => Q (r.mapError f) w') m w) :
    Finishes Q (mapError f m) w := by
  obtain ⟨r, w', hrun, hQ⟩ := h
  refine ⟨r.mapError f, w', ?_, hQ⟩
  rw [exec_mapError, hrun]
  rfl

/-- A test that throws before the rest. -/
theorem Finishes.unless {c : Prop} [Decidable c] {e : E} {rest : Program W E α}
    (hthrow : c → Q (.error e) w) (hrest : ¬ c → Finishes Q rest w) :
    Finishes Q (if c then (do let _ ← (MonadExcept.throw e : Program W E Unit); rest)
      else rest) w := by
  by_cases hc : c
  · rw [if_pos hc]
    exact ⟨.error e, w, rfl, hthrow hc⟩
  · rw [if_neg hc]
    exact hrest hc

end Ending

/-- The program comes to an end without an error, and in a value and a world of a kind. -/
def Succeeds (P : α → W → Prop) (m : Program W E α) (w : W) : Prop :=
  ∃ a w', exec m w = some (.ok a, w') ∧ P a w'

section Success
variable {P : α → W → Prop} {w : W}

theorem Succeeds.pure {a : α} (h : P a w) : Succeeds P (pure a : Program W E α) w :=
  ⟨a, w, rfl, h⟩

theorem Succeeds.mono {P' : α → W → Prop} {m : Program W E α} (h : Succeeds P m w)
    (himp : ∀ a w', P a w' → P' a w') : Succeeds P' m w := by
  obtain ⟨a, w', hrun, hP⟩ := h
  exact ⟨a, w', hrun, himp a w' hP⟩

theorem Succeeds.bind {Q : β → W → Prop} {m : Program W E β} {f : β → Program W E α}
    (hm : Succeeds Q m w) (hf : ∀ b w1, Q b w1 → Succeeds P (f b) w1) : Succeeds P (m >>= f) w := by
  obtain ⟨b, w1, hrun, hQ⟩ := hm
  obtain ⟨a, w', hrest, hP⟩ := hf b w1 hQ
  exact ⟨a, w', exec_bind_ok hrun hrest, hP⟩

theorem Succeeds.mapError {E' : Type} {f : E → E'} {m : Program W E α} (h : Succeeds P m w) :
    Succeeds P (mapError f m) w := by
  obtain ⟨a, w', hrun, hP⟩ := h
  refine ⟨a, w', ?_, hP⟩
  rw [exec_mapError, hrun]
  rfl

theorem Succeeds.unless {c : Prop} [Decidable c] (e : E) {rest : Program W E α} (hc : ¬ c)
    (hrest : Succeeds P rest w) :
    Succeeds P (if c then (do let _ ← (MonadExcept.throw e : Program W E Unit); rest)
      else rest) w := by
  rwa [if_neg hc]

end Success

/-! ## A log of events -/

/-- A host with the log of what it was asked. -/
structure World (σ ε : Type) where
  host : σ
  log : List ε

/-- The log grows by events of a kind. -/
def GrowsBy {σ ε : Type} (P : ε → Prop) (w w' : World σ ε) : Prop :=
  ∃ new, w'.log = w.log ++ new ∧ ∀ e ∈ new, P e

section Log
variable {σ ε : Type} {P Q : ε → Prop} {w w' w'' : World σ ε}

theorem GrowsBy.refl (w : World σ ε) : GrowsBy P w w := ⟨[], (List.append_nil _).symm, nofun⟩

theorem GrowsBy.trans (h : GrowsBy P w w') (h' : GrowsBy P w' w'') : GrowsBy P w w'' := by
  obtain ⟨new, hlog, hnew⟩ := h
  obtain ⟨new', hlog', hnew'⟩ := h'
  refine ⟨new ++ new', by rw [hlog', hlog, List.append_assoc], ?_⟩
  intro e he
  rcases List.mem_append.mp he with he | he
  · exact hnew e he
  · exact hnew' e he

theorem GrowsBy.of_log_eq (h : w'.log = w.log) : GrowsBy P w w' :=
  ⟨[], by rw [h, List.append_nil], nofun⟩

theorem GrowsBy.of_append {e : ε} (h : w'.log = w.log ++ [e]) (he : P e) : GrowsBy P w w' := by
  refine ⟨[e], h, ?_⟩
  intro e' he'
  rw [List.mem_singleton.mp he']
  exact he

theorem GrowsBy.mono (himp : ∀ e, P e → Q e) (h : GrowsBy P w w') : GrowsBy Q w w' := by
  obtain ⟨new, hlog, hnew⟩ := h
  exact ⟨new, hlog, fun e he => himp e (hnew e he)⟩

end Log

end Traced
