import Mathlib

/-!
# Words

A list is cut at its spaces, and the pieces that are not empty are its words. Words joined by one
space have the same words again, so a list that has been cut and joined is left alone.
-/
namespace Words
variable {α β : Type*} (isSpace : α → Bool)

/-- The words of a list. -/
def words (l : List α) : List (List α) := (l.splitOnP isSpace).filter fun w => !w.isEmpty

/-- Words with one symbol between. -/
def unwords (sp : α) (ws : List (List α)) : List α := [sp].intercalate ws

def Free (l : List α) : Prop := ∀ c ∈ l, isSpace c = false

structure IsWord (w : List α) : Prop where
  ne_nil : w ≠ []
  free : Free isSpace w

variable {isSpace}
variable {l xs ys w front rest : List α} {c sp : α} {ws : List (List α)}

/-! ## Cutting -/

@[simp] theorem words_nil : words isSpace [] = [] := by simp [words]

/-- A list is cut at a space. -/
theorem words_append_cons (hc : isSpace c = true) :
    words isSpace (xs ++ c :: ys) = words isSpace xs ++ words isSpace ys := by
  rw [words, List.splitOnP_append_cons xs ys hc, List.filter_append]
  rfl

theorem words_of_isWord (h : IsWord isSpace w) : words isSpace w = [w] := by
  rw [words, List.splitOnP_eq_singleton h.free]
  simp [h.ne_nil]

/-- Induction on a list from its last space on. -/
theorem space_induction (isSpace : α → Bool) {P : List α → Prop} (free : ∀ xs, Free isSpace xs → P xs)
    (space : ∀ xs c ys, Free isSpace xs → isSpace c = true → P ys → P (xs ++ c :: ys))
    (l : List α) : P l := by
  have hfront : ∀ front, Free isSpace front → P (front ++ l) := by
    induction l with
    | nil =>
        intro front hfree
        rw [List.append_nil]
        exact free front hfree
    | cons c l ih =>
        intro front hfree
        cases hc : isSpace c with
        | true => exact space front c l hfree hc (ih [] (by simp [Free]))
        | false =>
            have hnext : Free isSpace (front ++ [c]) := by
              simpa [Free, or_imp, forall_and, hc] using hfree
            simpa using ih (front ++ [c]) hnext
  exact hfront [] (by simp [Free])

/-- Every word stands in the list. -/
theorem mem_words (h : w ∈ words isSpace l) : IsWord isSpace w ∧ w <:+: l := by
  induction l using space_induction isSpace with
  | free xs hfree =>
      by_cases hxs : xs = []
      · simp [hxs] at h
      · rw [words_of_isWord ⟨hxs, hfree⟩, List.mem_singleton] at h
        rw [h]
        exact ⟨⟨hxs, hfree⟩, List.infix_rfl⟩
  | space xs c ys hfree hc ih =>
      rw [words_append_cons hc, List.mem_append] at h
      cases h with
      | inl hfirst =>
          by_cases hxs : xs = []
          · simp [hxs] at hfirst
          · rw [words_of_isWord ⟨hxs, hfree⟩, List.mem_singleton] at hfirst
            rw [hfirst]
            exact ⟨⟨hxs, hfree⟩, (List.prefix_append xs _).isInfix⟩
      | inr hrest =>
          have hparts := ih hrest
          refine ⟨hparts.1, hparts.2.trans ?_⟩
          exact ((List.suffix_cons c ys).trans (List.suffix_append xs _)).isInfix

/-! ## Joining -/

@[simp] theorem unwords_nil : unwords sp [] = [] := rfl

@[simp] theorem unwords_singleton : unwords sp [w] = w := List.intercalate_singleton

theorem unwords_cons_cons {w' : List α} :
    unwords sp (w :: w' :: ws) = w ++ sp :: unwords sp (w' :: ws) := by
  simp [unwords, List.intercalate_cons_cons]

/-- Joined words have no other words. -/
theorem words_unwords (hsp : isSpace sp = true) (hws : ∀ w ∈ ws, IsWord isSpace w) :
    words isSpace (unwords sp ws) = ws := by
  induction ws with
  | nil => simp
  | cons w ws ih =>
      rw [List.forall_mem_cons] at hws
      cases ws with
      | nil => simp [words_of_isWord hws.1]
      | cons w' ws =>
          rw [unwords_cons_cons, words_append_cons hsp, words_of_isWord hws.1, ih hws.2]
          simp

/-- A joint stands between the last symbol of a word and the first one of the next. -/
theorem neighbours_of_joint {w' : List α} (hw : IsWord isSpace w) (hw' : IsWord isSpace w') :
    (∃ p ∈ w.getLast?, isSpace p = false) ∧
      ∃ n ∈ (unwords sp (w' :: ws)).head?, isSpace n = false := by
  constructor
  · refine ⟨w.getLast hw.ne_nil, ?_, hw.free _ (List.getLast_mem hw.ne_nil)⟩
    rw [List.getLast?_eq_some_getLast hw.ne_nil]
    rfl
  · obtain ⟨n, tail, rfl⟩ := List.exists_cons_of_ne_nil hw'.ne_nil
    refine ⟨n, ?_, hw'.free n List.mem_cons_self⟩
    cases ws with
    | nil => simp
    | cons w'' ws => simp [unwords_cons_cons]

/-- A space of joined words is a joint, between two symbols that are no space. -/
theorem space_of_unwords (hws : ∀ w ∈ ws, IsWord isSpace w)
    (hcut : unwords sp ws = front ++ c :: rest) (hc : isSpace c = true) :
    c = sp ∧ (∃ p ∈ front.getLast?, isSpace p = false) ∧ ∃ n ∈ rest.head?, isSpace n = false := by
  induction ws generalizing front with
  | nil => simp at hcut
  | cons w ws ih =>
      rw [List.forall_mem_cons] at hws
      have hword : c ∉ w := by
        intro hmem
        have hfalse := hws.1.free c hmem
        rw [hc] at hfalse
        cases hfalse
      cases ws with
      | nil =>
          rw [unwords_singleton] at hcut
          simp [hcut] at hword
      | cons w' ws =>
          have hjoint := @neighbours_of_joint _ _ _ sp ws _ hws.1 (List.forall_mem_cons.mp hws.2).1
          rw [unwords_cons_cons, List.append_eq_append_iff] at hcut
          rcases hcut with ⟨before, hfront, hbehind⟩ | ⟨behind, hw, hbehind⟩
          · cases before with
            | nil =>
                rw [List.nil_append, List.cons.injEq] at hbehind
                rw [hfront, List.append_nil, ← hbehind.2]
                exact ⟨hbehind.1.symm, hjoint⟩
            | cons b before =>
                rw [List.cons_append, List.cons.injEq] at hbehind
                obtain ⟨heq, ⟨p, hp, hfree⟩, hhead⟩ := ih hws.2 hbehind.2
                refine ⟨heq, ⟨p, ?_, hfree⟩, hhead⟩
                rw [hfront]
                cases before with
                | nil => simp at hp
                | cons b' before => simpa using hp
          · cases behind with
            | nil =>
                rw [List.nil_append, List.cons.injEq] at hbehind
                rw [List.append_nil] at hw
                rw [hbehind.2, ← hw]
                exact ⟨hbehind.1, hjoint⟩
            | cons b behind =>
                rw [List.cons_append, List.cons.injEq] at hbehind
                simp [hw, hbehind.1] at hword

theorem unwords_ne_nil (hws : ∀ w ∈ ws, IsWord isSpace w) (hne : ws ≠ []) : unwords sp ws ≠ [] := by
  obtain ⟨w, ws, rfl⟩ := List.exists_cons_of_ne_nil hne
  have hw := (hws w List.mem_cons_self).ne_nil
  cases ws with
  | nil => simpa using hw
  | cons w' ws => simp [unwords_cons_cons]

theorem mem_unwords (h : c ∈ unwords sp ws) : c = sp ∨ ∃ w ∈ ws, c ∈ w := by
  induction ws with
  | nil => simp at h
  | cons w ws ih =>
      cases ws with
      | nil => exact .inr ⟨w, List.mem_cons_self, by simpa using h⟩
      | cons w' ws =>
          rw [unwords_cons_cons, List.mem_append, List.mem_cons] at h
          rcases h with hw | hsp | hrest
          · exact .inr ⟨w, List.mem_cons_self, hw⟩
          · exact .inl hsp
          · refine (ih hrest).imp_right ?_
            simp only [List.mem_cons, forall_exists_index, and_imp]
            exact fun v hv hc => ⟨v, .inr hv, hc⟩

/-! ## Symbol by symbol -/

theorem map_unwords (f : α → β) (ws : List (List α)) :
    (unwords sp ws).map f = unwords (f sp) (ws.map (List.map f)) := by
  induction ws with
  | nil => rfl
  | cons w ws ih =>
      cases ws with
      | nil => simp
      | cons w' ws =>
          rw [unwords_cons_cons, List.map_append, List.map_cons, ih]
          simp [unwords_cons_cons]

theorem words_map (p : β → Bool) (f : α → β) (l : List α) :
    words p (l.map f) = (words (p ∘ f) l).map (List.map f) := by
  have hpiece : ∀ xs, Free (p ∘ f) xs → words p (xs.map f) = (words (p ∘ f) xs).map (List.map f) := by
    intro xs hfree
    by_cases hxs : xs = []
    · simp [hxs]
    · have hword : IsWord p (xs.map f) := ⟨by simpa using hxs, by simpa [Free] using hfree⟩
      rw [words_of_isWord hword, words_of_isWord ⟨hxs, hfree⟩]
      rfl
  induction l using space_induction (p ∘ f) with
  | free xs hfree => exact hpiece xs hfree
  | space xs c ys hfree hc ih =>
      rw [List.map_append, List.map_cons, @words_append_cons _ p _ _ (f c) hc,
        words_append_cons hc, List.map_append, ih, hpiece xs hfree]

/-! ## Maps that keep to the words -/

/-- A map that works on every piece by itself and makes words of words. -/
structure Wordwise (isSpace : α → Bool) (f : List α → List α) : Prop where
  nil : f [] = []
  cut : ∀ xs c ys, isSpace c = true → f (xs ++ c :: ys) = f xs ++ c :: f ys
  word : ∀ w, IsWord isSpace w → IsWord isSpace (f w)

section Wordwise
variable {f : List α → List α} (hf : Wordwise isSpace f)
include hf

theorem Wordwise.words (l : List α) : Words.words isSpace (f l) = (Words.words isSpace l).map f := by
  have hpiece : ∀ xs, Free isSpace xs →
      Words.words isSpace (f xs) = (Words.words isSpace xs).map f := by
    intro xs hfree
    by_cases hxs : xs = []
    · rw [hxs, hf.nil]
      simp
    · rw [words_of_isWord ⟨hxs, hfree⟩, words_of_isWord (hf.word xs ⟨hxs, hfree⟩)]
      rfl
  induction l using space_induction isSpace with
  | free xs hfree => exact hpiece xs hfree
  | space xs c ys hfree hc ih =>
      rw [hf.cut xs c ys hc, words_append_cons hc, words_append_cons hc, List.map_append, ih,
        hpiece xs hfree]

theorem Wordwise.unwords (hsp : isSpace sp = true) (ws : List (List α)) :
    f (Words.unwords sp ws) = Words.unwords sp (ws.map f) := by
  induction ws with
  | nil => exact hf.nil
  | cons w ws ih =>
      cases ws with
      | nil => simp
      | cons w' ws =>
          rw [unwords_cons_cons, hf.cut _ _ _ hsp, ih]
          rfl

end Wordwise

end Words
