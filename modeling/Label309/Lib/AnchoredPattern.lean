import Mathlib

/-!
# Patterns with anchors

A pattern of words, alternatives and anchors takes a piece out of a text; an anchor takes nothing
and asks where it stands. A word between delimiters is found where it stands between two pieces that
are empty or have a delimiter at the word.
-/
namespace AnchoredPattern
variable {α : Type*}

inductive Pattern (α : Type*)
  | start
  | stop
  | oneOf (ws : List (List α))
  | seq (p q : Pattern α)
  | alt (p q : Pattern α)

/-- One symbol of a class. -/
def Pattern.symbol (cs : List α) : Pattern α := .oneOf (cs.map fun c => [c])

/-- The pattern takes `piece`, with `front` before it and `rest` behind it. -/
def Takes : Pattern α → (front piece rest : List α) → Prop
  | .start, front, piece, _ => front = [] ∧ piece = []
  | .stop, _, piece, rest => piece = [] ∧ rest = []
  | .oneOf ws, _, piece, _ => piece ∈ ws
  | .seq p q, front, piece, rest =>
      ∃ a b, piece = a ++ b ∧ Takes p front a (b ++ rest) ∧ Takes q (front ++ a) b rest
  | .alt p q, front, piece, rest => Takes p front piece rest ∨ Takes q front piece rest

/-- The pattern takes some piece of the text. -/
def Found (p : Pattern α) (text : List α) : Prop :=
  ∃ front piece rest, text = front ++ piece ++ rest ∧ Takes p front piece rest

/-- A text that is empty or ends in a delimiter. -/
def EndsAt (ds front : List α) : Prop := front = [] ∨ ∃ f, ∃ c ∈ ds, front = f ++ [c]

/-- A text that is empty or begins with a delimiter. -/
def StartsAt (ds rest : List α) : Prop := rest = [] ∨ ∃ c ∈ ds, ∃ r, rest = c :: r

/-- Words with an anchor or a delimiter on both sides. -/
def Pattern.delimited (ds : List α) (ws : List (List α)) : Pattern α :=
  .seq (.seq (.alt .start (.symbol ds)) (.oneOf ws)) (.alt (.symbol ds) .stop)

/-- Words at the start, with an anchor or a delimiter behind them. -/
def Pattern.leading (ds : List α) (ws : List (List α)) : Pattern α :=
  .seq (.seq .start (.oneOf ws)) (.alt (.symbol ds) .stop)

section Found
variable {p q : Pattern α} {front piece rest text : List α} {ds : List α} {ws : List (List α)}

@[simp] theorem takes_start : Takes .start front piece rest ↔ front = [] ∧ piece = [] := Iff.rfl

@[simp] theorem takes_stop : Takes .stop front piece rest ↔ piece = [] ∧ rest = [] := Iff.rfl

@[simp] theorem takes_oneOf : Takes (.oneOf ws) front piece rest ↔ piece ∈ ws := Iff.rfl

@[simp] theorem takes_alt :
    Takes (.alt p q) front piece rest ↔ Takes p front piece rest ∨ Takes q front piece rest :=
  Iff.rfl

@[simp] theorem takes_symbol :
    Takes (.symbol ds) front piece rest ↔ ∃ c ∈ ds, piece = [c] := by
  simp [Pattern.symbol, eq_comm]

theorem found_alt : Found (.alt p q) text ↔ Found p text ∨ Found q text := by
  simp only [Found, takes_alt]
  constructor
  · intro h
    obtain ⟨front, piece, rest, htext, htakes⟩ := h
    exact htakes.imp (fun hp => ⟨front, piece, rest, htext, hp⟩)
      (fun hq => ⟨front, piece, rest, htext, hq⟩)
  · intro h
    cases h with
    | inl hp =>
        obtain ⟨front, piece, rest, htext, hp⟩ := hp
        exact ⟨front, piece, rest, htext, .inl hp⟩
    | inr hq =>
        obtain ⟨front, piece, rest, htext, hq⟩ := hq
        exact ⟨front, piece, rest, htext, .inr hq⟩

/-- What the opening anchor or delimiter takes. -/
theorem endsAt_iff : EndsAt ds front ↔
    ∃ f a, front = f ++ a ∧ ∀ r, Takes (.alt .start (.symbol ds)) f a r := by
  simp only [takes_alt, takes_start, takes_symbol]
  constructor
  · intro h
    cases h with
    | inl hnil => exact ⟨[], [], hnil, fun _ => .inl ⟨rfl, rfl⟩⟩
    | inr hends =>
        obtain ⟨f, c, hc, hfront⟩ := hends
        exact ⟨f, [c], hfront, fun _ => .inr ⟨c, hc, rfl⟩⟩
  · intro h
    obtain ⟨f, a, rfl, htakes⟩ := h
    cases htakes [] with
    | inl hstart => exact .inl (by simp [hstart])
    | inr hsymbol =>
        obtain ⟨c, hc, rfl⟩ := hsymbol
        exact .inr ⟨f, c, hc, rfl⟩

/-- What the closing delimiter or anchor takes. -/
theorem startsAt_iff : StartsAt ds rest ↔
    ∃ b r, rest = b ++ r ∧ ∀ f, Takes (.alt (.symbol ds) .stop) f b r := by
  simp only [takes_alt, takes_stop, takes_symbol]
  constructor
  · intro h
    cases h with
    | inl hnil => exact ⟨[], [], hnil, fun _ => .inr ⟨rfl, rfl⟩⟩
    | inr hstarts =>
        obtain ⟨c, hc, r, hrest⟩ := hstarts
        exact ⟨[c], r, hrest, fun _ => .inl ⟨c, hc, rfl⟩⟩
  · intro h
    obtain ⟨b, r, rfl, htakes⟩ := h
    cases htakes [] with
    | inl hsymbol =>
        obtain ⟨c, hc, rfl⟩ := hsymbol
        exact .inr ⟨c, hc, r, rfl⟩
    | inr hstop => exact .inl (by simp [hstop])

theorem takes_opening_irrel {r r' : List α} (h : Takes (.alt .start (.symbol ds)) front piece r) :
    Takes (.alt .start (.symbol ds)) front piece r' := by
  simpa using h

theorem takes_closing_irrel {f f' : List α} (h : Takes (.alt (.symbol ds) .stop) f piece rest) :
    Takes (.alt (.symbol ds) .stop) f' piece rest := by
  simpa using h

/-- **A delimited word is found** where it stands between such pieces. -/
theorem found_delimited : Found (.delimited ds ws) text ↔
    ∃ w ∈ ws, ∃ front rest, text = front ++ w ++ rest ∧ EndsAt ds front ∧ StartsAt ds rest := by
  constructor
  · intro h
    obtain ⟨f, piece, r, rfl, aw, b, rfl, ⟨a, w, rfl, hopen, hw⟩, hclose⟩ := h
    refine ⟨w, hw, f ++ a, b ++ r, by simp, ?_, ?_⟩
    · exact endsAt_iff.mpr ⟨f, a, rfl, fun _ => takes_opening_irrel hopen⟩
    · exact startsAt_iff.mpr ⟨b, r, rfl, fun _ => takes_closing_irrel hclose⟩
  · intro h
    obtain ⟨w, hw, front, rest, rfl, hends, hstarts⟩ := h
    obtain ⟨f, a, rfl, hopen⟩ := endsAt_iff.mp hends
    obtain ⟨b, r, rfl, hclose⟩ := startsAt_iff.mp hstarts
    exact ⟨f, a ++ w ++ b, r, by simp, a ++ w, b, rfl, ⟨a, w, rfl, hopen _, hw⟩, hclose _⟩

/-- A leading word is found at the start. -/
theorem found_leading : Found (.leading ds ws) text ↔
    ∃ w ∈ ws, ∃ rest, text = w ++ rest ∧ StartsAt ds rest := by
  constructor
  · intro h
    obtain ⟨f, piece, r, rfl, aw, b, rfl, ⟨a, w, rfl, ⟨rfl, rfl⟩, hw⟩, hclose⟩ := h
    refine ⟨w, hw, b ++ r, by simp, ?_⟩
    exact startsAt_iff.mpr ⟨b, r, rfl, fun _ => takes_closing_irrel hclose⟩
  · intro h
    obtain ⟨w, hw, rest, rfl, hstarts⟩ := h
    obtain ⟨b, r, rfl, hclose⟩ := startsAt_iff.mp hstarts
    exact ⟨[], w ++ b, r, by simp, w, b, rfl, ⟨[], w, rfl, ⟨rfl, rfl⟩, hw⟩, hclose _⟩

end Found

end AnchoredPattern
