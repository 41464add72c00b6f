import Mathlib

/-!
# Following redirects

A network answers a connection with a response, or with a response that names another place. A
client starts at an origin and goes on to another place only where its policy follows, which is
shown the places before it. What the client receives depends on the places that the policy lets it
reach and on no others.
-/
namespace Redirects
variable {U R σ : Type*}

/-- What a connection gives. -/
inductive Answer (U R : Type*)
  | final (response : R)
  | redirect (target : U) (response : R)

/-- A network with its state. -/
abbrev Network (U R σ : Type*) := σ → U → Answer U R × σ

/-- Whether to go on to a place, after those that came before it. -/
abbrev Policy (U : Type*) := List U → U → Bool

/-- The places that one request may reach, in order. -/
inductive Dialled (follows : Policy U) (origin : U) : List U → Prop
  | start : Dialled follows origin [origin]
  | hop {previous : List U} {target : U} (before : Dialled follows origin previous)
      (hfollows : follows previous target = true) :
      Dialled follows origin (previous ++ [target])

/-- The client: it connects, and goes on while the policy follows and the budget lasts. A redirect
that is not followed is the response. -/
def follow (follows : Policy U) (net : Network U R σ) :
    (budget : ℕ) → (previous : List U) → U → σ → R × σ
  | 0, _, url, s =>
      match net s url with
      | (.final response, s) => (response, s)
      | (.redirect _ response, s) => (response, s)
  | budget + 1, previous, url, s =>
      match net s url with
      | (.final response, s) => (response, s)
      | (.redirect target response, s) =>
          if follows (previous ++ [url]) target then
            follow follows net budget (previous ++ [url]) target s
          else (response, s)

section Dialled
variable {follows : Policy U} {origin : U} {chain : List U}

/-- The origin comes first. -/
theorem Dialled.head? (h : Dialled follows origin chain) : chain.head? = some origin := by
  induction h with
  | start => rfl
  | hop before hfollows ih => rw [List.head?_append, ih, Option.some_or]

/-- A policy that looks at how many places came before keeps every chain within its cap. -/
theorem Dialled.length_le {cap : ℕ}
    (hcap : ∀ previous target, follows previous target = true → previous.length ≤ cap)
    (h : Dialled follows origin chain) : chain.length ≤ cap + 1 := by
  cases h with
  | start => exact Nat.succ_le_succ (Nat.zero_le cap)
  | hop before hfollows =>
      rw [List.length_append, List.length_singleton]
      exact Nat.succ_le_succ (hcap _ _ hfollows)

/-- What the policy grants to a target by the origin is true of every place after the origin. -/
theorem Dialled.granted {good : U → Prop}
    (hgood : ∀ previous target, previous.head? = some origin → follows previous target = true →
      good target)
    (h : Dialled follows origin chain) : ∀ u ∈ chain, u = origin ∨ good u := by
  induction h with
  | start =>
      intro u hu
      exact .inl (List.mem_singleton.mp hu)
  | hop before hfollows ih =>
      intro u hu
      cases List.mem_append.mp hu with
      | inl hbefore => exact ih u hbefore
      | inr htarget =>
          rw [List.mem_singleton.mp htarget]
          exact .inr (hgood _ _ before.head? hfollows)

end Dialled

section Follow
variable {follows : Policy U} {net net' : Network U R σ} {origin url : U}

/-- From a chain on, networks that answer alike what the client may reach give it one response. -/
theorem follow_congr_of_dialled
    (h : ∀ chain, Dialled follows origin chain → ∀ u ∈ chain, ∀ s, net s u = net' s u)
    (budget : ℕ) {previous : List U} (hchain : Dialled follows origin (previous ++ [url])) (s : σ) :
    follow follows net budget previous url s = follow follows net' budget previous url s := by
  induction budget generalizing previous url s with
  | zero => rw [follow, follow, h _ hchain url (by simp) s]
  | succ budget ih =>
      rw [follow, follow, h _ hchain url (by simp) s]
      rcases net' s url with ⟨answer, next⟩
      cases answer with
      | final response => rfl
      | redirect target response =>
          dsimp only
          by_cases hfollows : follows (previous ++ [url]) target = true
          · rw [if_pos hfollows, if_pos hfollows]
            exact ih (hchain.hop hfollows) next
          · rw [if_neg hfollows, if_neg hfollows]

/-- **The client reaches no further than its policy.** -/
theorem follow_congr
    (h : ∀ chain, Dialled follows origin chain → ∀ u ∈ chain, ∀ s, net s u = net' s u)
    (budget : ℕ) (s : σ) :
    follow follows net budget [] origin s = follow follows net' budget [] origin s :=
  follow_congr_of_dialled h budget .start s

end Follow

end Redirects
