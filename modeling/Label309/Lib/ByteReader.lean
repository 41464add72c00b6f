import Mathlib

/-!
# Readers over a byte string

A reader maps a position in a fixed byte string to a value and the next
position, or fails. Two relations specify one without unfolding it. `Accepts`
says which bytes are read and what they yield wherever they stand; `Sound` says
what every successful read has consumed. Both compose along `bind`, so the
specification of a parser is assembled from those of its parts.
-/

/-- A reader with failures in `ε` over an implicit byte string and position. -/
def ByteReader (ε α : Type) := List UInt8 → ℕ → Except ε (α × ℕ)

namespace ByteReader
variable {ε α β : Type}

instance : Monad (ByteReader ε) where
  pure a := fun _ pos => .ok (a, pos)
  bind x f := fun data pos =>
    match x data pos with
    | .ok (a, pos') => f a data pos'
    | .error e => .error e

/-- Fail without reading. -/
def fail (e : ε) : ByteReader ε α := fun _ _ => .error e

/-- Read one byte, or fail with `e` at the end of the input. -/
def byte (e : ε) : ByteReader ε UInt8 := fun data pos =>
  match data[pos]? with
  | some b => .ok (b, pos + 1)
  | none => .error e

/-- Run `x` and return its value with the bytes it consumed. -/
def withSpan (x : ByteReader ε α) : ByteReader ε (α × List UInt8) := fun data pos =>
  match x data pos with
  | .ok (a, pos') => .ok ((a, (data.drop pos).take (pos' - pos)), pos')
  | .error e => .error e

/-- Run `x` exactly `n` times and collect the values in order. -/
def repeatN (x : ByteReader ε α) : ℕ → ByteReader ε (List α)
  | 0 => pure []
  | n + 1 => do
      let a ← x
      let as ← repeatN x n
      pure (a :: as)

@[simp] theorem pure_apply (a : α) (data : List UInt8) (pos : ℕ) :
    (pure a : ByteReader ε α) data pos = .ok (a, pos) := rfl

@[simp] theorem fail_apply (e : ε) (data : List UInt8) (pos : ℕ) :
    (fail e : ByteReader ε α) data pos = .error e := rfl

theorem run_bind (x : ByteReader ε α) (f : α → ByteReader ε β) (data : List UInt8) (pos : ℕ) :
    (x >>= f) data pos =
      match x data pos with
      | .ok (a, pos') => f a data pos'
      | .error e => .error e := rfl

theorem run_bind_ok {x : ByteReader ε α} {f : α → ByteReader ε β} {data : List UInt8} {pos : ℕ}
    {a : α} {pos' : ℕ} (h : x data pos = .ok (a, pos')) : (x >>= f) data pos = f a data pos' := by
  rw [run_bind, h]

theorem run_bind_eq_ok {x : ByteReader ε α} {f : α → ByteReader ε β} {data : List UInt8} {pos : ℕ}
    {r : β × ℕ} (h : (x >>= f) data pos = .ok r) :
    ∃ a pos', x data pos = .ok (a, pos') ∧ f a data pos' = .ok r := by
  rw [run_bind] at h
  cases hx : x data pos with
  | ok p => rw [hx] at h; exact ⟨p.1, p.2, rfl, h⟩
  | error e => rw [hx] at h; cases h

/-! ## Where a byte string stands -/

/-- `bs` is the part of `data` that starts at `pos`. -/
def StandsAt (bs data : List UInt8) (pos : ℕ) : Prop :=
  ∃ front rest, data = front ++ bs ++ rest ∧ pos = front.length

namespace StandsAt
variable {bs cs data : List UInt8} {pos : ℕ}

theorem whole (bs : List UInt8) : StandsAt bs bs 0 := ⟨[], [], by simp, rfl⟩

theorem left (h : StandsAt (bs ++ cs) data pos) : StandsAt bs data pos := by
  obtain ⟨front, rest, rfl, rfl⟩ := h
  exact ⟨front, cs ++ rest, by simp, rfl⟩

theorem right (h : StandsAt (bs ++ cs) data pos) : StandsAt cs data (pos + bs.length) := by
  obtain ⟨front, rest, rfl, rfl⟩ := h
  exact ⟨front ++ bs, rest, by simp, by simp⟩

theorem tail {b : UInt8} (h : StandsAt (b :: bs) data pos) : StandsAt bs data (pos + 1) := by
  obtain ⟨front, rest, rfl, rfl⟩ := h
  exact ⟨front ++ [b], rest, by simp, by simp⟩

theorem le_length (h : StandsAt bs data pos) : pos + bs.length ≤ data.length := by
  obtain ⟨front, rest, rfl, rfl⟩ := h
  simp

theorem take_drop (h : StandsAt bs data pos) : (data.drop pos).take bs.length = bs := by
  obtain ⟨front, rest, rfl, rfl⟩ := h
  simp

theorem getElem? {b : UInt8} (h : StandsAt (b :: bs) data pos) : data[pos]? = some b := by
  obtain ⟨front, rest, rfl, rfl⟩ := h
  simp

end StandsAt

/-! ## Completeness -/

/-- Wherever `bs` stands, `x` gives `r`, and a success consumes exactly `bs`. -/
def Yields (x : ByteReader ε α) (bs : List UInt8) (r : Except ε α) : Prop :=
  ∀ data pos, StandsAt bs data pos → x data pos = r.map fun a => (a, pos + bs.length)

/-- Wherever `bs` stands, `x` consumes exactly it and yields `a`. -/
abbrev Accepts (x : ByteReader ε α) (bs : List UInt8) (a : α) : Prop := Yields x bs (.ok a)

namespace Yields

protected theorem pure (a : α) : Yields (pure a : ByteReader ε α) [] (.ok a) :=
  fun _ _ _ => rfl

theorem fail (e : ε) (bs : List UInt8) : Yields (ByteReader.fail e : ByteReader ε α) bs (.error e) :=
  fun _ _ _ => rfl

protected theorem bind {x : ByteReader ε α} {f : α → ByteReader ε β} {bs cs : List UInt8}
    {r : Except ε α} {g : α → Except ε β} (hx : Yields x bs r)
    (hf : ∀ a, r = .ok a → Yields (f a) cs (g a)) : Yields (x >>= f) (bs ++ cs) (r >>= g) := by
  intro data pos h
  rw [run_bind, hx data pos h.left]
  cases r with
  | error e => rfl
  | ok a =>
      have hnext := hf a rfl data (pos + bs.length) h.right
      simp only [Except.map, hnext, List.length_append, Nat.add_assoc]
      rfl

/-- After a success, the rest of the bytes decide the result. -/
theorem of_accepts {x : ByteReader ε α} {f : α → ByteReader ε β} {bs cs : List UInt8} {a : α}
    {r : Except ε β} (hx : Accepts x bs a) (hf : Yields (f a) cs r) :
    Yields (x >>= f) (bs ++ cs) r := by
  refine Yields.bind (g := fun _ => r) hx ?_
  rintro _ ⟨⟩
  exact hf

/-- A success followed by a reader of no bytes. -/
theorem of_accepts_nil {x : ByteReader ε α} {f : α → ByteReader ε β} {bs : List UInt8} {a : α}
    {r : Except ε β} (hx : Accepts x bs a) (hf : Yields (f a) [] r) : Yields (x >>= f) bs r := by
  simpa using of_accepts hx hf

/-- Wrapping the value read wraps the result. -/
theorem bind_pure {x : ByteReader ε α} {bs : List UInt8} {r : Except ε α} (hx : Yields x bs r)
    (f : α → β) : Yields (x >>= fun a => pure (f a)) bs (r.map f) := by
  intro data pos h
  rw [run_bind, hx data pos h]
  cases r <;> rfl

theorem repeatN {x : ByteReader ε α} {ι : Type} {enc : ι → List UInt8} {f : ι → Except ε α}
    {is : List ι} (h : ∀ i ∈ is, Yields x (enc i) (f i)) :
    Yields (ByteReader.repeatN x is.length) (is.flatMap enc) (is.mapM f) := by
  induction is with
  | nil => exact Yields.pure []
  | cons i is ih =>
      obtain ⟨hi, his⟩ := List.forall_mem_cons.mp h
      have hmap (a : α) : (is.mapM f >>= fun as => pure (a :: as)) = (is.mapM f).map (a :: ·) := by
        cases is.mapM f <;> rfl
      rw [List.mapM_cons, List.flatMap_cons, List.length_cons]
      refine hi.bind fun a _ => ?_
      rw [hmap]
      exact (ih his).bind_pure (a :: ·)

end Yields

namespace Accepts

protected theorem pure (a : α) : Accepts (pure a : ByteReader ε α) [] a :=
  Yields.pure a

protected theorem bind {x : ByteReader ε α} {f : α → ByteReader ε β} {bs cs : List UInt8}
    {a : α} {b : β} (hx : Accepts x bs a) (hf : Accepts (f a) cs b) :
    Accepts (x >>= f) (bs ++ cs) b :=
  Yields.of_accepts hx hf

/-- A reader that consumes nothing after `x` leaves the consumed bytes as they are. -/
theorem bind_pure {x : ByteReader ε α} {f : α → ByteReader ε β} {bs : List UInt8} {a : α} {b : β}
    (hx : Accepts x bs a) (hf : Accepts (f a) [] b) : Accepts (x >>= f) bs b := by
  simpa using hx.bind hf

/-- A check that consumes nothing leaves the bytes to the reader after it. -/
theorem check_bind {x : ByteReader ε α} {f : α → ByteReader ε β} {bs : List UInt8} {a : α} {b : β}
    (hx : Accepts x [] a) (hf : Accepts (f a) bs b) : Accepts (x >>= f) bs b :=
  hx.bind hf

theorem byte (e : ε) (b : UInt8) : Accepts (ByteReader.byte e) [b] b := by
  intro data pos h
  rw [ByteReader.byte, h.getElem?]
  rfl

theorem withSpan {x : ByteReader ε α} {bs : List UInt8} {a : α} (hx : Accepts x bs a) :
    Accepts (ByteReader.withSpan x) bs (a, bs) := by
  intro data pos h
  simp [ByteReader.withSpan, hx data pos h, Except.map, h.take_drop]

theorem repeatN {x : ByteReader ε α} {bss : List (List UInt8)} {as : List α}
    (h : List.Forall₂ (Accepts x) bss as) :
    Accepts (ByteReader.repeatN x as.length) bss.flatten as := by
  induction h with
  | nil => exact Accepts.pure []
  | cons ha _ ih => exact ha.bind (ih.bind_pure (Accepts.pure _))

/-- A reader reads two byte strings at the head of one input as the same. -/
theorem append_inj {x : ByteReader ε α} {bs cs as ds : List UInt8} {a b : α} (hx : Accepts x bs a)
    (hx' : Accepts x cs b) (heq : bs ++ as = cs ++ ds) : a = b ∧ bs = cs ∧ as = ds := by
  have hread := hx (bs ++ as) 0 ⟨[], as, by simp, rfl⟩
  have hread' := hx' (bs ++ as) 0 ⟨[], ds, by simp [heq], rfl⟩
  rw [hread] at hread'
  simp only [Except.map, Nat.zero_add, Except.ok.injEq, Prod.mk.injEq] at hread'
  obtain ⟨hvalue, hlength⟩ := hread'
  exact ⟨hvalue, List.append_inj heq hlength⟩

end Accepts

/-! ## Soundness -/

/-- Every successful run of `x` consumes bytes related by `P` to its value. -/
def Sound (x : ByteReader ε α) (P : α → List UInt8 → Prop) : Prop :=
  ∀ data pos a pos', x data pos = .ok (a, pos') →
    ∃ bs, data.drop pos = bs ++ data.drop pos' ∧ pos' = pos + bs.length ∧ P a bs

namespace Sound

protected theorem pure (a : α) : Sound (pure a : ByteReader ε α) (fun b bs => b = a ∧ bs = []) := by
  intro data pos b pos' h
  cases h
  exact ⟨[], rfl, rfl, rfl, rfl⟩

theorem fail (e : ε) {P : α → List UInt8 → Prop} : Sound (ByteReader.fail e) P := by
  intro data pos a pos' h
  cases h

theorem mono {x : ByteReader ε α} {P Q : α → List UInt8 → Prop} (h : Sound x P)
    (hPQ : ∀ a bs, P a bs → Q a bs) : Sound x Q := by
  intro data pos a pos' hx
  obtain ⟨bs, hdrop, hpos, hP⟩ := h data pos a pos' hx
  exact ⟨bs, hdrop, hpos, hPQ a bs hP⟩

protected theorem bind {x : ByteReader ε α} {f : α → ByteReader ε β} {P : α → List UInt8 → Prop}
    {Q : β → List UInt8 → Prop} (hx : Sound x P)
    (hf : ∀ a xs, P a xs → Sound (f a) (fun b ys => Q b (xs ++ ys))) : Sound (x >>= f) Q := by
  intro data pos b pos' h
  obtain ⟨a, mid, hxa, hfb⟩ := run_bind_eq_ok h
  obtain ⟨xs, hxs, hmid, hP⟩ := hx data pos a mid hxa
  obtain ⟨ys, hys, hpos', hQ⟩ := hf a xs hP data mid b pos' hfb
  refine ⟨xs ++ ys, ?_, ?_, hQ⟩
  · rw [hxs, hys, List.append_assoc]
  · rw [hpos', hmid, List.length_append, Nat.add_assoc]

theorem byte (e : ε) : Sound (ByteReader.byte e) (fun b bs => bs = [b]) := by
  intro data pos b pos' h
  unfold ByteReader.byte at h
  cases hget : data[pos]? with
  | none => rw [hget] at h; cases h
  | some c =>
      rw [hget] at h
      cases h
      obtain ⟨hlt, rfl⟩ := List.getElem?_eq_some_iff.mp hget
      exact ⟨[data[pos]], List.drop_eq_getElem_cons hlt, rfl, rfl⟩

theorem withSpan {x : ByteReader ε α} {P : α → List UInt8 → Prop} (hx : Sound x P) :
    Sound (ByteReader.withSpan x) (fun r bs => r.2 = bs ∧ P r.1 bs) := by
  intro data pos r pos' h
  unfold ByteReader.withSpan at h
  cases hxa : x data pos with
  | error e => rw [hxa] at h; cases h
  | ok p =>
      rw [hxa] at h
      cases h
      obtain ⟨bs, hdrop, hpos, hP⟩ := hx data pos p.1 p.2 hxa
      refine ⟨bs, hdrop, hpos, ?_, hP⟩
      simp [hdrop, hpos]

theorem repeatN {x : ByteReader ε α} {P : α → List UInt8 → Prop} (hx : Sound x P) (n : ℕ) :
    Sound (ByteReader.repeatN x n)
      (fun as bs => as.length = n ∧ ∃ bss, bs = bss.flatten ∧ List.Forall₂ P as bss) := by
  induction n with
  | zero =>
      refine (Sound.pure (ε := ε) ([] : List α)).mono ?_
      rintro _ _ ⟨rfl, rfl⟩
      exact ⟨rfl, [], rfl, .nil⟩
  | succ n ih =>
      refine hx.bind fun a xs ha => ih.bind fun as ys has => (Sound.pure (a :: as)).mono ?_
      rintro _ _ ⟨rfl, rfl⟩
      obtain ⟨hlen, bss, rfl, hall⟩ := has
      exact ⟨by simp [hlen], xs :: bss, by simp, .cons ha hall⟩

/-- What a reader accepts satisfies everything its successful reads do. -/
theorem of_accepts {x : ByteReader ε α} {P : α → List UInt8 → Prop} (hx : Sound x P)
    {bs : List UInt8} {a : α} (h : Accepts x bs a) : P a bs := by
  obtain ⟨cs, hdrop, -, hP⟩ := hx _ _ _ _ (h bs 0 (.whole bs))
  have hcs : bs = cs := by simpa using hdrop
  rwa [hcs]

end Sound

/-! ## Restriction -/

/-- Every successful run of `x` is one of `y` to the same position, with the value under `f`. -/
def Restricts (x : ByteReader ε α) (y : ByteReader ε β) (f : α → β) : Prop :=
  ∀ data pos a pos', x data pos = .ok (a, pos') → y data pos = .ok (f a, pos')

namespace Restricts
variable {γ δ : Type}

protected theorem refl (x : ByteReader ε α) : Restricts x x id := by
  intro data pos a pos' h
  exact h

protected theorem pure (a : α) (f : α → β) :
    Restricts (pure a : ByteReader ε α) (pure (f a)) f := by
  intro data pos b pos' h
  cases h
  rfl

theorem fail (e : ε) (y : ByteReader ε β) (f : α → β) : Restricts (ByteReader.fail e) y f := by
  intro data pos a pos' h
  cases h

protected theorem bind {x : ByteReader ε α} {y : ByteReader ε β} {f : α → β}
    {g : α → ByteReader ε γ} {k : β → ByteReader ε δ} {f' : γ → δ} (hx : Restricts x y f)
    (hg : ∀ a, Restricts (g a) (k (f a)) f') : Restricts (x >>= g) (y >>= k) f' := by
  intro data pos c pos' h
  obtain ⟨a, mid, hxa, hga⟩ := run_bind_eq_ok h
  rw [run_bind_ok (hx data pos a mid hxa)]
  exact hg a data mid c pos' hga

theorem ite_left {c : Prop} [Decidable c] {x x' : ByteReader ε α} {y : ByteReader ε β} {f : α → β}
    (hx : c → Restricts x y f) (hx' : ¬ c → Restricts x' y f) :
    Restricts (if c then x else x') y f := by
  by_cases h : c
  · rw [if_pos h]
    exact hx h
  · rw [if_neg h]
    exact hx' h

theorem ite {c : Prop} [Decidable c] {x x' : ByteReader ε α} {y y' : ByteReader ε β} {f : α → β}
    (hx : c → Restricts x y f) (hx' : ¬ c → Restricts x' y' f) :
    Restricts (if c then x else x') (if c then y else y') f := by
  by_cases h : c
  · rw [if_pos h, if_pos h]
    exact hx h
  · rw [if_neg h, if_neg h]
    exact hx' h

/-- The span that only the reader on the left keeps. -/
theorem withSpan {x : ByteReader ε α} {y : ByteReader ε β} {f : α → β} (hx : Restricts x y f) :
    Restricts (ByteReader.withSpan x) y fun r => f r.1 := by
  intro data pos r pos' h
  rw [ByteReader.withSpan] at h
  cases hxa : x data pos with
  | error e =>
      rw [hxa] at h
      cases h
  | ok p =>
      rw [hxa] at h
      cases h
      exact hx data pos p.1 p.2 hxa

theorem repeatN {x : ByteReader ε α} {y : ByteReader ε β} {f : α → β} (hx : Restricts x y f)
    (n : ℕ) : Restricts (ByteReader.repeatN x n) (ByteReader.repeatN y n) (List.map f) := by
  induction n with
  | zero => exact Restricts.pure [] (List.map f)
  | succ n ih =>
      refine hx.bind ?_
      intro a
      refine ih.bind ?_
      intro as
      exact Restricts.pure (a :: as) (List.map f)

end Restricts

end ByteReader
