import Symbolication.Cfi.RuleSet
import Symbolication.Proofs.Text.Token

/-!
Rule sets by their grammar. A rule set is accepted exactly if it is one or more groups of a name with a
colon after it and an expression, and each group is then a rule that is delivered. In any other rule set
there is a first place where it goes wrong; the groups that a later name has closed before that place
are delivered, and the group that is being read there is not.
-/

namespace Symbolication.Cfi

open Text (IsToken Spaced)

def EndsInColon (t : List Char) : Prop := t.getLast? = some ':'

theorem endsInColon_iff (t : List Char) : EndsInColon t ↔ ∃ name, t = name ++ [':'] :=
  List.getLast?_eq_some_iff

theorem nameOf?_eq_some_iff (t name : List Char) : nameOf? t = some name ↔ t = name ++ [':'] := by
  have hreverse : t = name ++ [':'] ↔ t.reverse = ':' :: name.reverse := by
    rw [← List.reverse_inj, List.reverse_append]
    rfl
  rw [hreverse, nameOf?]
  split
  · rename_i front hfront
    rw [hfront, Option.some.injEq, List.cons.injEq, List.reverse_eq_iff]
    exact (and_iff_right rfl).symm
  · rename_i hno
    constructor
    · intro h
      cases h
    · intro h
      exact absurd h (hno name.reverse)

theorem nameOf?_eq_none_iff (t : List Char) : nameOf? t = none ↔ ¬ EndsInColon t := by
  rw [Option.eq_none_iff_forall_ne_some, endsInColon_iff, not_exists]
  exact forall_congr' fun name => not_congr (nameOf?_eq_some_iff t name)

/-- A rule as it is written: its name, and the tokens of its expression. -/
structure Group where
  name : List Char
  expression : List (List Char)

namespace Group

def tokens (g : Group) : List (List Char) := (g.name ++ [':']) :: g.expression

/-- The rule that is delivered for the group. -/
def rule (g : Group) : Rule where
  target := .ofName (String.ofList g.name)
  expression := " ".intercalate (g.expression.map String.ofList)

/-- The group has a name, and none of the tokens after it could be one. -/
structure Begun (g : Group) : Prop where
  name : g.name ≠ []
  expression : ∀ t ∈ g.expression, ¬ EndsInColon t

structure Complete (g : Group) : Prop extends g.Begun where
  nonempty : g.expression ≠ []

end Group

/-- Why some tokens are refused, with the groups that are closed before the place where they go wrong. -/
inductive Refused : List (List Char) → List Group → RuleError → Prop where
  | empty : Refused [] [] .empty
  | missingName (t : List Char) (rest : List (List Char)) (ht : ¬ EndsInColon t) :
    Refused (t :: rest) [] .missingName
  | emptyFirstName (rest : List (List Char)) : Refused ([':'] :: rest) [] .emptyName
  /-- A lone colon counts as such also right after a name. -/
  | emptyName (closed : List Group) (g : Group) (rest : List (List Char))
    (hclosed : ∀ c ∈ closed, c.Complete) (hg : g.Begun) :
    Refused (closed.flatMap Group.tokens ++ (g.tokens ++ [':'] :: rest)) closed .emptyName
  | nameAfterName (closed : List Group) (name next : List Char) (rest : List (List Char))
    (hclosed : ∀ c ∈ closed, c.Complete) (hname : name ≠ []) (hnext : next ≠ []) :
    Refused (closed.flatMap Group.tokens ++ (name ++ [':']) :: (next ++ [':']) :: rest) closed
      (.missingExpression (String.ofList name))
  | nameAtEnd (closed : List Group) (name : List Char) (hclosed : ∀ c ∈ closed, c.Complete)
    (hname : name ≠ []) :
    Refused (closed.flatMap Group.tokens ++ [name ++ [':']]) closed
      (.missingExpression (String.ofList name))

theorem ofList_joinTokens (ts : List (List Char)) :
    String.ofList (Text.joinTokens ts) = " ".intercalate (ts.map String.ofList) := by
  induction ts with
  | nil => rfl
  | cons t ts ih =>
    cases ts with
    | nil => simp [Text.joinTokens]
    | cons u us =>
      have hspace : String.ofList (' ' :: Text.joinTokens (u :: us)) =
          " " ++ String.ofList (Text.joinTokens (u :: us)) := String.ofList_cons
      rw [Text.joinTokens_cons t (u :: us) (List.cons_ne_nil u us), String.ofList_append, hspace, ih]
      simp [String.append_assoc]

theorem Group.rule_eq (g : Group) : g.rule = ruleOf g.name g.expression := by
  rw [rule, ruleOf, ofList_joinTokens]

/-! What is delivered for groups, one after the other. -/

/-- The next token is a name, which closes the group before it. -/
def StartsWithName (ts : List (List Char)) : Prop :=
  ∃ name rest, name ≠ [] ∧ ts = (name ++ [':']) :: rest

theorem deliverGroup_append (name : List Char) (ts : List (List Char))
    (hts : ∀ t ∈ ts, ¬ EndsInColon t) (expression rest : List (List Char)) :
    deliverGroup name expression (ts ++ rest) =
      deliverGroup name (ts.reverse ++ expression) rest := by
  induction ts generalizing expression with
  | nil => rfl
  | cons t ts ih =>
    obtain ⟨ht, hts⟩ := List.forall_mem_cons.mp hts
    rw [List.cons_append, deliverGroup, (nameOf?_eq_none_iff t).mpr ht]
    dsimp only
    rw [ih hts, List.reverse_cons, List.append_assoc]
    rfl

theorem deliverTokens_name (name : List Char) (hname : name ≠ []) (rest : List (List Char)) :
    deliverTokens ((name ++ [':']) :: rest) = deliverGroup name [] rest := by
  rw [deliverTokens, (nameOf?_eq_some_iff _ name).mpr rfl]
  dsimp only
  rw [List.isEmpty_eq_false_iff.mpr hname]
  rfl

theorem deliverGroup_name (name : List Char) (expression : List (List Char)) (next : List Char)
    (hnext : next ≠ []) (rest : List (List Char)) :
    deliverGroup name expression ((next ++ [':']) :: rest) =
      if expression.isEmpty then .refuse (.missingExpression (String.ofList name))
      else .after (ruleOf name expression.reverse) (deliverTokens ((next ++ [':']) :: rest)) := by
  rw [deliverTokens_name next hnext, deliverGroup, (nameOf?_eq_some_iff _ next).mpr rfl]
  dsimp only
  rw [List.isEmpty_eq_false_iff.mpr hnext]
  rfl

theorem deliverTokens_begun (g : Group) (hg : g.Begun) (rest : List (List Char)) :
    deliverTokens (g.tokens ++ rest) = deliverGroup g.name g.expression.reverse rest := by
  have hread := deliverGroup_append g.name g.expression hg.expression [] rest
  rw [List.append_nil] at hread
  rw [Group.tokens, List.cons_append, deliverTokens_name g.name hg.name, hread]

theorem deliverTokens_complete_append (g : Group) (hg : g.Complete) (ts : List (List Char))
    (hts : StartsWithName ts) :
    deliverTokens (g.tokens ++ ts) = .after g.rule (deliverTokens ts) := by
  obtain ⟨next, rest, hnext, rfl⟩ := hts
  rw [deliverTokens_begun g hg.toBegun, deliverGroup_name _ _ next hnext, List.isEmpty_reverse,
    List.isEmpty_eq_false_iff.mpr hg.nonempty, List.reverse_reverse, ← g.rule_eq]
  rfl

theorem deliverTokens_complete (g : Group) (hg : g.Complete) :
    deliverTokens g.tokens = ⟨[g.rule], none⟩ := by
  have hread := deliverTokens_begun g hg.toBegun []
  rw [List.append_nil] at hread
  rw [hread, deliverGroup, List.isEmpty_reverse, List.isEmpty_eq_false_iff.mpr hg.nonempty,
    List.reverse_reverse, ← g.rule_eq]
  rfl

theorem startsWithName_append (groups : List Group) (h : ∀ g ∈ groups, g.Complete)
    (ts : List (List Char)) (hts : StartsWithName ts) :
    StartsWithName (groups.flatMap Group.tokens ++ ts) := by
  cases groups with
  | nil => exact hts
  | cons g groups => exact ⟨g.name, _, (h g List.mem_cons_self).name, rfl⟩

theorem deliverTokens_closed (closed : List Group) (h : ∀ g ∈ closed, g.Complete)
    (ts : List (List Char)) (hts : StartsWithName ts) :
    deliverTokens (closed.flatMap Group.tokens ++ ts) =
      ⟨closed.map Group.rule ++ (deliverTokens ts).rules, (deliverTokens ts).error⟩ := by
  induction closed with
  | nil => rfl
  | cons g closed ih =>
    obtain ⟨hg, hclosed⟩ := List.forall_mem_cons.mp h
    rw [List.flatMap_cons, List.append_assoc,
      deliverTokens_complete_append g hg _ (startsWithName_append closed hclosed ts hts), ih hclosed]
    rfl

theorem deliverTokens_groups (groups : List Group) (hne : groups ≠ [])
    (h : ∀ g ∈ groups, g.Complete) :
    deliverTokens (groups.flatMap Group.tokens) = ⟨groups.map Group.rule, none⟩ := by
  obtain ⟨closed, last, rfl⟩ : ∃ closed last, groups = closed ++ [last] :=
    ⟨_, _, (List.dropLast_concat_getLast hne).symm⟩
  obtain ⟨hclosed, hlast⟩ := List.forall_mem_append.mp h
  have hlast : last.Complete := hlast last List.mem_cons_self
  have hname : StartsWithName last.tokens := ⟨last.name, _, hlast.name, rfl⟩
  rw [List.flatMap_append, List.flatMap_singleton, deliverTokens_closed closed hclosed _ hname,
    deliverTokens_complete last hlast, List.map_append]
  rfl

theorem deliverTokens_of_refused {ts : List (List Char)} {closed : List Group} {e : RuleError}
    (h : Refused ts closed e) : deliverTokens ts = ⟨closed.map Group.rule, some e⟩ := by
  cases h with
  | empty => rfl
  | missingName t rest ht =>
    rw [deliverTokens, (nameOf?_eq_none_iff t).mpr ht]
    rfl
  | emptyFirstName rest => rfl
  | emptyName _ g rest hclosed hg =>
    have hname : StartsWithName (g.tokens ++ [':'] :: rest) := ⟨g.name, _, hg.name, rfl⟩
    have hread : deliverTokens (g.tokens ++ [':'] :: rest) = .refuse .emptyName := by
      rw [deliverTokens_begun g hg, deliverGroup]
      rfl
    rw [deliverTokens_closed closed hclosed _ hname, hread]
    simp [Delivery.refuse]
  | nameAfterName _ name next rest hclosed hname hnext =>
    have hread : deliverTokens ((name ++ [':']) :: (next ++ [':']) :: rest) =
        .refuse (.missingExpression (String.ofList name)) := by
      rw [deliverTokens_name name hname, deliverGroup_name name [] next hnext]
      rfl
    rw [deliverTokens_closed closed hclosed _ ⟨name, _, hname, rfl⟩, hread]
    simp [Delivery.refuse]
  | nameAtEnd _ name hclosed hname =>
    have hread : deliverTokens [name ++ [':']] =
        .refuse (.missingExpression (String.ofList name)) := by
      rw [deliverTokens_name name hname]
      rfl
    rw [deliverTokens_closed closed hclosed _ ⟨name, _, hname, rfl⟩, hread]
    simp [Delivery.refuse]

/-! Any tokens are either complete groups or refused. -/

theorem Refused.after {ts : List (List Char)} {closed : List Group} {e : RuleError}
    (h : Refused ts closed e) (hts : StartsWithName ts) (g : Group) (hg : g.Complete) :
    Refused (g.tokens ++ ts) (g :: closed) e := by
  obtain ⟨first, tail, hfirst, heq⟩ := hts
  cases h with
  | empty => cases heq
  | missingName t rest ht =>
    obtain ⟨rfl, -⟩ := List.cons.inj heq
    exact absurd ((endsInColon_iff _).mpr ⟨first, rfl⟩) ht
  | emptyFirstName rest =>
    obtain ⟨hcolon, -⟩ := List.cons.inj heq
    exact absurd (List.append_left_eq_self.mp hcolon.symm) hfirst
  | emptyName _ begun rest hclosed hbegun =>
    rw [← List.append_assoc]
    exact .emptyName (g :: closed) begun rest (List.forall_mem_cons.mpr ⟨hg, hclosed⟩) hbegun
  | nameAfterName _ name next rest hclosed hname hnext =>
    rw [← List.append_assoc]
    exact .nameAfterName (g :: closed) name next rest (List.forall_mem_cons.mpr ⟨hg, hclosed⟩) hname
      hnext
  | nameAtEnd _ name hclosed hname =>
    rw [← List.append_assoc]
    exact .nameAtEnd (g :: closed) name (List.forall_mem_cons.mpr ⟨hg, hclosed⟩) hname

theorem groups_or_refused_of_begun (g : Group) (hg : g.Begun) (rest : List (List Char)) :
    (∃ groups, groups ≠ [] ∧ (∀ g ∈ groups, g.Complete) ∧
      g.tokens ++ rest = groups.flatMap Group.tokens) ∨
    ∃ closed e, Refused (g.tokens ++ rest) closed e := by
  -- The group grows by each token that is no name, and a name begins another one.
  induction rest generalizing g with
  | nil =>
    rw [List.append_nil]
    by_cases hexpression : g.expression = []
    · have htokens : g.tokens = [g.name ++ [':']] := by rw [Group.tokens, hexpression]
      rw [htokens]
      exact Or.inr ⟨[], _, .nameAtEnd [] g.name (fun c hc => absurd hc List.not_mem_nil) hg.name⟩
    · have hcomplete : g.Complete := ⟨hg, hexpression⟩
      refine Or.inl ⟨[g], List.cons_ne_nil g [], ?_, (List.flatMap_singleton _ g).symm⟩
      intro c hc
      rw [List.mem_singleton.mp hc]
      exact hcomplete
  | cons t rest ih =>
    by_cases ht : EndsInColon t
    · obtain ⟨next, rfl⟩ := (endsInColon_iff t).mp ht
      by_cases hnext : next = []
      · rw [hnext]
        exact Or.inr ⟨[], _, .emptyName [] g rest (fun c hc => absurd hc List.not_mem_nil) hg⟩
      by_cases hexpression : g.expression = []
      · have htokens : g.tokens = [g.name ++ [':']] := by rw [Group.tokens, hexpression]
        rw [htokens]
        exact Or.inr ⟨[], _, .nameAfterName [] g.name next rest
          (fun c hc => absurd hc List.not_mem_nil) hg.name hnext⟩
      · have hcomplete : g.Complete := ⟨hg, hexpression⟩
        have hbegun : (⟨next, []⟩ : Group).Begun :=
          ⟨hnext, fun t ht => absurd ht List.not_mem_nil⟩
        rcases ih ⟨next, []⟩ hbegun with ⟨groups, -, hgroups, heq⟩ | ⟨closed, e, hrefused⟩
        · refine Or.inl ⟨g :: groups, List.cons_ne_nil g groups,
            List.forall_mem_cons.mpr ⟨hcomplete, hgroups⟩, ?_⟩
          rw [List.flatMap_cons, ← heq]
          rfl
        · exact Or.inr ⟨g :: closed, e, hrefused.after ⟨next, rest, hnext, rfl⟩ g hcomplete⟩
    · have hgrown : (⟨g.name, g.expression ++ [t]⟩ : Group).Begun := by
        refine ⟨hg.name, List.forall_mem_append.mpr ⟨hg.expression, ?_⟩⟩
        intro u hu
        rw [List.mem_singleton.mp hu]
        exact ht
      have htokens : (⟨g.name, g.expression ++ [t]⟩ : Group).tokens ++ rest =
          g.tokens ++ t :: rest := by simp [Group.tokens]
      rw [← htokens]
      exact ih _ hgrown

theorem groups_or_refused (ts : List (List Char)) :
    (∃ groups, groups ≠ [] ∧ (∀ g ∈ groups, g.Complete) ∧ ts = groups.flatMap Group.tokens) ∨
    ∃ closed e, Refused ts closed e := by
  cases ts with
  | nil => exact Or.inr ⟨[], .empty, .empty⟩
  | cons t rest =>
    by_cases ht : EndsInColon t
    · obtain ⟨name, rfl⟩ := (endsInColon_iff t).mp ht
      by_cases hname : name = []
      · rw [hname]
        exact Or.inr ⟨[], .emptyName, .emptyFirstName rest⟩
      · exact groups_or_refused_of_begun ⟨name, []⟩
          ⟨hname, fun t ht => absurd ht List.not_mem_nil⟩ rest
    · exact Or.inr ⟨[], .missingName, .missingName t rest ht⟩

theorem deliverTokens_eq_accepted_iff (ts : List (List Char)) (rules : List Rule) :
    deliverTokens ts = ⟨rules, none⟩ ↔
      ∃ groups, groups ≠ [] ∧ (∀ g ∈ groups, g.Complete) ∧ ts = groups.flatMap Group.tokens ∧
        rules = groups.map Group.rule := by
  constructor
  · intro h
    rcases groups_or_refused ts with ⟨groups, hne, hgroups, rfl⟩ | ⟨closed, e, hrefused⟩
    · rw [deliverTokens_groups groups hne hgroups, Delivery.mk.injEq] at h
      exact ⟨groups, hne, hgroups, rfl, h.1.symm⟩
    · rw [deliverTokens_of_refused hrefused] at h
      cases h
  · intro h
    obtain ⟨groups, hne, hgroups, rfl, rfl⟩ := h
    exact deliverTokens_groups groups hne hgroups

theorem deliverTokens_eq_refused_iff (ts : List (List Char)) (rules : List Rule) (e : RuleError) :
    deliverTokens ts = ⟨rules, some e⟩ ↔
      ∃ closed, Refused ts closed e ∧ rules = closed.map Group.rule := by
  constructor
  · intro h
    rcases groups_or_refused ts with ⟨groups, hne, hgroups, rfl⟩ | ⟨closed, found, hrefused⟩
    · rw [deliverTokens_groups groups hne hgroups] at h
      cases h
    · rw [deliverTokens_of_refused hrefused, Delivery.mk.injEq, Option.some.injEq] at h
      obtain ⟨hrules, rfl⟩ := h
      exact ⟨closed, hrefused, hrules.symm⟩
  · intro h
    obtain ⟨closed, hrefused, rfl⟩ := h
    exact deliverTokens_of_refused hrefused

/-- A rule set is accepted exactly if its tokens are complete groups, at least one, and then every
group is delivered; it is refused for the first thing that is wrong with it, after the groups that are
closed before that place have been delivered. -/
theorem deliver_groups_or_refused (ruleSet : String) (rules : List Rule) :
    (deliver ruleSet = ⟨rules, none⟩ ↔
      ∃ groups : List Group, groups ≠ [] ∧ (∀ g ∈ groups, g.Complete) ∧
        Spaced (groups.flatMap Group.tokens) ruleSet.toList ∧ rules = groups.map Group.rule) ∧
    ∀ e, deliver ruleSet = ⟨rules, some e⟩ ↔
      ∃ ts closed, Spaced ts ruleSet.toList ∧ Refused ts closed e ∧
        rules = closed.map Group.rule := by
  have htokens : Spaced (Text.tokens ruleSet.toList) ruleSet.toList :=
    (Text.tokens_eq_iff _ _).mp rfl
  constructor
  · rw [deliver, deliverTokens_eq_accepted_iff]
    constructor
    · intro h
      obtain ⟨groups, hne, hgroups, heq, hrules⟩ := h
      rw [heq] at htokens
      exact ⟨groups, hne, hgroups, htokens, hrules⟩
    · intro h
      obtain ⟨groups, hne, hgroups, hspaced, hrules⟩ := h
      exact ⟨groups, hne, hgroups, Text.tokens_of_spaced hspaced, hrules⟩
  · intro e
    rw [deliver, deliverTokens_eq_refused_iff]
    constructor
    · intro h
      obtain ⟨closed, hrefused, hrules⟩ := h
      exact ⟨_, closed, htokens, hrefused, hrules⟩
    · intro h
      obtain ⟨ts, closed, hspaced, hrefused, hrules⟩ := h
      rw [Text.tokens_of_spaced hspaced]
      exact ⟨closed, hrefused, hrules⟩

/-- The rule for `.ra` is still being read when the lone colon is met. -/
example : deliver ".cfa: $esp 4 + .ra: .cfa : 4" =
    ⟨[⟨.cfa, "$esp 4 +"⟩], some .emptyName⟩ := by decide +kernel

end Symbolication.Cfi
