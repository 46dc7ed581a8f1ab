import Symbolication.Text.Token

/-!
Texts by the tokens that they hold. The same tokens can be written in many ways, with any blanks
around them; a text has one list of tokens, and it is the one that the text spaces out.
-/

namespace Symbolication.Text

structure IsToken (t : List Char) : Prop where
  ne_nil : t ≠ []
  not_blank : ∀ c ∈ t, isBlank c = false

/-- The text is the tokens in order, with blanks around them and at least one between neighbours. -/
inductive Spaced : List (List Char) → List Char → Prop where
  | nil : Spaced [] []
  | blank {ts : List (List Char)} {cs : List Char} (c : Char) (hc : isBlank c = true)
    (h : Spaced ts cs) : Spaced ts (c :: cs)
  | last (t : List Char) (ht : IsToken t) : Spaced [t] t
  | token {ts : List (List Char)} {cs : List Char} (t : List Char) (c : Char) (ht : IsToken t)
    (hc : isBlank c = true) (h : Spaced ts cs) : Spaced (t :: ts) (t ++ c :: cs)

theorem Spaced.isToken {ts : List (List Char)} {cs : List Char} (h : Spaced ts cs) :
    ∀ t ∈ ts, IsToken t := by
  induction h with
  | nil => exact fun t ht => absurd ht List.not_mem_nil
  | blank c hc h ih => exact ih
  | last t ht =>
    intro u hu
    rw [List.mem_singleton.mp hu]
    exact ht
  | token t c ht hc h ih => exact List.forall_mem_cons.mpr ⟨ht, ih⟩

theorem isToken_reverse {current : List Char} (hne : current.isEmpty = false)
    (hcurrent : ∀ c ∈ current, isBlank c = false) : IsToken current.reverse := by
  constructor
  · intro hnil
    rw [List.reverse_eq_nil_iff.mp hnil] at hne
    cases hne
  · intro c hc
    exact hcurrent c (List.mem_reverse.mp hc)

theorem spaced_tokensFrom (cs current : List Char) (hcurrent : ∀ c ∈ current, isBlank c = false) :
    Spaced (tokensFrom current cs) (current.reverse ++ cs) := by
  -- What is being read counts as text before the rest, so one statement serves both states.
  induction cs generalizing current with
  | nil =>
    rw [tokensFrom, List.append_nil]
    cases hne : current.isEmpty with
    | true =>
      rw [List.isEmpty_iff.mp hne]
      exact .nil
    | false => exact .last _ (isToken_reverse hne hcurrent)
  | cons c cs ih =>
    have hrest : Spaced (tokensFrom [] cs) cs :=
      ih [] fun d hd => absurd hd List.not_mem_nil
    rw [tokensFrom]
    cases hc : isBlank c with
    | true =>
      cases hne : current.isEmpty with
      | true =>
        rw [List.isEmpty_iff.mp hne]
        exact .blank c hc hrest
      | false => exact .token _ c (isToken_reverse hne hcurrent) hc hrest
    | false =>
      have hgrown := ih (c :: current) (List.forall_mem_cons.mpr ⟨hc, hcurrent⟩)
      rw [List.reverse_cons, List.append_assoc] at hgrown
      exact hgrown

theorem tokensFrom_append (t : List Char) (ht : ∀ c ∈ t, isBlank c = false)
    (current rest : List Char) :
    tokensFrom current (t ++ rest) = tokensFrom (t.reverse ++ current) rest := by
  induction t generalizing current with
  | nil => rfl
  | cons c t ih =>
    obtain ⟨hc, ht⟩ := List.forall_mem_cons.mp ht
    have hstep : tokensFrom current (c :: (t ++ rest)) = tokensFrom (c :: current) (t ++ rest) := by
      rw [tokensFrom, hc]
      rfl
    rw [List.cons_append, hstep, ih ht, List.reverse_cons, List.append_assoc]
    rfl

theorem tokensFrom_token (t : List Char) (ht : IsToken t) (rest : List Char) :
    tokensFrom [] (t ++ rest) = tokensFrom t.reverse rest := by
  rw [tokensFrom_append t ht.not_blank, List.append_nil]

theorem isEmpty_reverse_of_isToken (t : List Char) (ht : IsToken t) :
    t.reverse.isEmpty = false := by
  rw [List.isEmpty_reverse, List.isEmpty_eq_false_iff]
  exact ht.ne_nil

theorem tokens_of_spaced {ts : List (List Char)} {cs : List Char} (h : Spaced ts cs) :
    tokens cs = ts := by
  induction h with
  | nil => rfl
  | blank c hc h ih =>
    rw [← ih, tokens, tokensFrom, hc]
    rfl
  | last t ht =>
    have hread := tokensFrom_token t ht []
    rw [List.append_nil] at hread
    rw [tokens, hread, tokensFrom, isEmpty_reverse_of_isToken t ht, List.reverse_reverse]
    rfl
  | token t c ht hc h ih =>
    rw [tokens, tokensFrom_token t ht, tokensFrom, hc, isEmpty_reverse_of_isToken t ht,
      List.reverse_reverse, ← ih]
    rfl

theorem tokens_eq_iff (cs : List Char) (ts : List (List Char)) : tokens cs = ts ↔ Spaced ts cs := by
  constructor
  · intro h
    rw [← h]
    exact spaced_tokensFrom cs [] fun c hc => absurd hc List.not_mem_nil
  · exact tokens_of_spaced

/-- Texts with a blank between them hold the tokens of the one and then those of the other. -/
theorem Spaced.append {ts us : List (List Char)} {cs ds : List Char} (h : Spaced ts cs) (c : Char)
    (hc : isBlank c = true) (hd : Spaced us ds) : Spaced (ts ++ us) (cs ++ c :: ds) := by
  -- Induction on the first text; the blank ends its last token where nothing else does.
  induction h with
  | nil => exact .blank c hc hd
  | blank b hb _ ih => exact .blank b hb ih
  | last t ht => exact .token t c ht hc hd
  | token t b ht hb _ ih =>
    rw [List.append_assoc]
    exact .token t b ht hb ih

theorem tokens_append (c : Char) (hc : isBlank c = true) (cs ds : List Char) :
    tokens (cs ++ c :: ds) = tokens cs ++ tokens ds :=
  tokens_of_spaced (Spaced.append ((tokens_eq_iff cs _).mp rfl) c hc ((tokens_eq_iff ds _).mp rfl))

theorem joinTokens_cons (t : List Char) (ts : List (List Char)) (h : ts ≠ []) :
    joinTokens (t :: ts) = t ++ ' ' :: joinTokens ts := by
  cases ts with
  | nil => exact absurd rfl h
  | cons u ts => rfl

/-- Tokens that are joined by single spaces are spaced out. -/
theorem spaced_joinTokens (ts : List (List Char)) (h : ∀ t ∈ ts, IsToken t) :
    Spaced ts (joinTokens ts) := by
  induction ts with
  | nil => exact .nil
  | cons t ts ih =>
    obtain ⟨ht, hts⟩ := List.forall_mem_cons.mp h
    cases ts with
    | nil => exact .last t ht
    | cons u us => exact .token t ' ' ht rfl (ih hts)

end Symbolication.Text
