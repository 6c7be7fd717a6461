import QueryViews.Proofs.Needs
import QueryViews.View.Steps

/-! Calls of combinators as data, so that statements can speak about every sequence of calls. A
pipeline is a table with accepted steps on top of it; what its expressions refer to is in reach
of the view each of them was given to. -/

namespace QueryViews

/-- A call of a combinator that makes a view of one other view. -/
inductive Step where
  | filter (condition : Fragment)
  | project (template : Template)
  | group (keys content : Template)
  | order (items : List OrderItem)
  | take (count : Nat)
  | skip (count : Nat)
  | bracket (point : BracketPoint)

namespace Step

/-- The view with the step on top. -/
def onto (v : View) : Step → View
  | .filter condition => .filter v condition
  | .project template => .project v template
  | .group keys content => .group v keys content
  | .order items => .order v items
  | .take count => .take v count
  | .skip count => .skip v count
  | .bracket point => .bracket v point

/-- The expressions that the call is given. -/
def fragments : Step → List Fragment
  | .filter condition => [condition]
  | .project template => template.columns.map Column.toFragment
  | .group keys content => (keys.columns ++ content.columns).map Column.toFragment
  | .order items => items.map SortKey.expr
  | .take _ | .skip _ | .bracket _ => []

def AllTokens (P : Token → Prop) (s : Step) : Prop :=
  ∀ f ∈ s.fragments, Fragment.AllTokens P f

theorem AllTokens.project {P : Token → Prop} {template : Template}
    (all : (Step.project template).AllTokens P) : template.AllTokens P := by
  intro c inside
  exact Fragment.allTokens_toFragment.1 (all c.toFragment (List.mem_map_of_mem inside))

theorem AllTokens.group {P : Token → Prop} {keys content : Template}
    (all : (Step.group keys content).AllTokens P) :
    keys.AllTokens P ∧ content.AllTokens P := by
  have both : ∀ c ∈ keys.columns ++ content.columns, c.token.AllTokens P := fun c inside =>
    Fragment.allTokens_toFragment.1 (all c.toFragment (List.mem_map_of_mem inside))
  exact List.forall_mem_append.1 both

theorem mem_columns_onto {s : Step} {v : View} {c : Column}
    (inside : c ∈ (s.onto v).template.columns) :
    c.toFragment ∈ s.fragments ∨ c ∈ v.template.columns := by
  cases s with
  | project template => exact .inl (List.mem_map_of_mem inside)
  | group keys content =>
    rw [onto, View.template, Template.columns_pair] at inside
    exact .inl (List.mem_map_of_mem inside)
  | filter | order | take | skip | bracket => exact .inr inside

theorem AllTokens.onto {P : Token → Prop} {s : Step} {v : View} (all : s.AllTokens P)
    (below : v.template.AllTokens P) : (s.onto v).template.AllTokens P := by
  intro c inside
  rcases mem_columns_onto inside with given | before
  · exact Fragment.allTokens_toFragment.1 (all c.toFragment given)
  · exact below c before

/-- A token that is offered above a step is given to the step, or offered below it too. -/
theorem given_or_held {definitions : TokenId → Fragment} {s : Step} {v : View}
    (ofStep : s.AllTokens fun t => t.definition = definitions t.id) {t : Token}
    (defined : t.definition = definitions t.id) (held : (s.onto v).scope.contains t.id = true) :
    t.toFragment ∈ s.fragments ∨ v.scope.contains t.id = true := by
  obtain ⟨c, inside, same⟩ := Template.contains_scope.1 held
  rcases mem_columns_onto inside with given | before
  · have ofColumn := (Fragment.allTokens_toFragment.1 (ofStep _ given)).self
    obtain rfl := Token.eq_of_id ofColumn defined same
    exact .inl given
  · exact .inr (Template.contains_scope.2 ⟨c, before, same⟩)

/-- Steps that leave one row for each row they keep. -/
def Rowwise : Step → Prop
  | .group _ _ => False
  | .filter _ | .project _ | .order _ | .take _ | .skip _ | .bracket _ => True

end Step

/-- The call itself, with its checks. -/
def View.apply (v : View) : Step → Except ViewError View
  | .filter condition => v.filtered condition
  | .project template => v.projected template
  | .group keys content => v.grouped keys content
  | .order items => v.ordered items
  | .take count => .ok (.take v count)
  | .skip count => .ok (.skip v count)
  | .bracket point => .ok (.bracket v point)

/-- Calls one after the other; the first one that is refused ends them. -/
def View.applyAll (v : View) (steps : List Step) : Except ViewError View :=
  steps.foldlM View.apply v

mutual

theorem Segment.inReach_iff_tokens {scope : Scope} :
    ∀ {segment : Segment}, segment.inReach scope = true ↔
      segment.readsSource = false ∧ ∀ t ∈ segment.tokens, t.inReach scope = true
  | .token id definition => by
    simp [Segment.readsSource, Segment.tokens, Token.inReach, Token.toSegment]
  | .nested inner => Fragment.inReach_iff_tokens (f := inner)
  | .column _ _ => by simp [Segment.inReach, Segment.readsSource]
  | .verbatim _ | .param _ => by simp [Segment.inReach, Segment.readsSource, Segment.tokens]

theorem Fragment.inReach_iff_tokens {scope : Scope} :
    ∀ {f : Fragment}, Fragment.inReach scope f = true ↔
      Fragment.readsSource f = false ∧ ∀ t ∈ Fragment.tokens f, t.inReach scope = true
  | [] => by simp [Fragment.inReach, Fragment.readsSource, Fragment.tokens]
  | segment :: rest => by
    simp only [Fragment.inReach, Bool.and_eq_true, Fragment.readsSource, Bool.or_eq_false_iff,
      Fragment.tokens, List.forall_mem_append, Segment.inReach_iff_tokens,
      Fragment.inReach_iff_tokens]
    exact and_and_and_comm

end

theorem Token.inReach_toFragment {scope : Scope} {t : Token} :
    t.toFragment.inReach scope = true ↔ t.inReach scope = true := by
  rw [Token.toFragment, Fragment.inReach, Fragment.inReach, Bool.and_true, Token.inReach]

namespace Scope

theorem ensureTokens_eq_ok_iff {scope : Scope} {context : String} {tokens : List Token} :
    scope.ensureTokens context tokens = .ok () ↔ ∀ t ∈ tokens, t.inReach scope = true := by
  unfold ensureTokens
  split
  next t found =>
    refine ⟨nofun, fun all => ?_⟩
    have outside := List.find?_some found
    rw [all t (List.mem_of_find?_eq_some found)] at outside
    exact absurd outside (by decide)
  next none =>
    refine ⟨fun _ t member => ?_, fun _ => rfl⟩
    simpa using List.find?_eq_none.1 none t member

theorem ensureFragment_eq_ok_iff {scope : Scope} {context : String} {f : Fragment} :
    scope.ensureFragment context f = .ok () ↔ Fragment.inReach scope f = true := by
  rw [Fragment.inReach_iff_tokens, ensureFragment]
  cases reads : Fragment.readsSource f with
  | true => simp
  | false => simpa using ensureTokens_eq_ok_iff

theorem ensureTemplate_eq_ok_iff {scope : Scope} {context : String} {t : Template} :
    scope.ensureTemplate context t = .ok () ↔ ∀ u ∈ t.tokens, u.inReach scope = true :=
  ensureTokens_eq_ok_iff

end Scope

theorem Except.bind_return_eq_ok_iff {ε α : Type} {check : Except ε Unit} {made result : α} :
    (check >>= fun _ => (.ok made : Except ε α)) = .ok result ↔ check = .ok () ∧ result = made := by
  cases check with
  | error e => exact ⟨nofun, fun both => nomatch both.1⟩
  | ok _ => exact ⟨fun same => ⟨rfl, (Except.ok.inj same).symm⟩, fun both => both.2 ▸ rfl⟩

theorem Except.bind_eq_ok_iff {ε α β : Type} {first : Except ε α} {next : α → Except ε β}
    {result : β} :
    (first >>= next) = .ok result ↔ ∃ a, first = .ok a ∧ next a = .ok result := by
  cases first with
  | error e => exact ⟨nofun, fun ⟨_, failed, _⟩ => nomatch failed⟩
  | ok a => exact ⟨fun same => ⟨a, rfl, same⟩, fun ⟨_, rfl, same⟩ => same⟩

theorem Except.forM_eq_ok_iff {ε α : Type} {check : α → Except ε Unit} {items : List α} :
    items.forM check = .ok () ↔ ∀ a ∈ items, check a = .ok () := by
  induction items with
  | nil => exact ⟨fun _ _ none => absurd none List.not_mem_nil, fun _ => rfl⟩
  | cons a rest ih =>
    rw [List.forall_mem_cons, ← ih, List.forM]
    cases check a with
    | error e => exact ⟨nofun, fun both => nomatch both.1⟩
    | ok _ => exact ⟨fun others => ⟨rfl, others⟩, fun both => both.2⟩

namespace Step

/-- What the checks of the call ask for. -/
def Accepted (scope : Scope) : Step → Prop
  | .filter condition => Fragment.inReach scope condition = true
  | .project template => ∀ t ∈ template.tokens, t.inReach scope = true
  | .group keys content =>
    (∀ t ∈ keys.tokens, t.inReach scope = true) ∧ ∀ t ∈ content.tokens, t.inReach scope = true
  | .order items => ∀ item ∈ items, Fragment.inReach scope item.expr = true
  | .take _ | .skip _ | .bracket _ => True

end Step

theorem View.apply_eq_ok_iff {v w : View} {s : Step} :
    v.apply s = .ok w ↔ s.Accepted v.scope ∧ w = s.onto v := by
  cases s with
  | filter condition =>
    exact Except.bind_return_eq_ok_iff.trans (and_congr_left' Scope.ensureFragment_eq_ok_iff)
  | project template =>
    exact Except.bind_return_eq_ok_iff.trans (and_congr_left' Scope.ensureTemplate_eq_ok_iff)
  | group keys content =>
    have ofKeys : v.scope.ensureTemplate keysContext keys = .ok () ↔ _ :=
      Scope.ensureTemplate_eq_ok_iff
    have ofContent : v.scope.ensureTemplate "group_by aggregates" content = .ok () ↔ _ :=
      Scope.ensureTemplate_eq_ok_iff
    rw [Step.Accepted, and_assoc, ← ofKeys, ← ofContent]
    rw [View.apply, View.grouped, View.ensureKeys]
    cases v.scope.ensureTemplate keysContext keys with
    | error e => exact ⟨nofun, fun both => nomatch both.1⟩
    | ok _ =>
      exact Except.bind_return_eq_ok_iff.trans ⟨fun both => ⟨rfl, both⟩, fun all => all.2⟩
  | order items =>
    refine Except.bind_return_eq_ok_iff.trans (and_congr_left' ?_)
    rw [Except.forM_eq_ok_iff]
    exact forall₂_congr fun item _ => Scope.ensureFragment_eq_ok_iff
  | take count | skip count | bracket point =>
    exact ⟨fun same => ⟨trivial, (Except.ok.inj same).symm⟩, fun both => both.2 ▸ rfl⟩

namespace View
variable {base extra : View}

theorem contains_scope_join {mode : JoinMode} {withNull : Bool}
    {condition : Fragment} {id : TokenId} :
    (View.join base extra mode withNull condition).scope.contains id = true ↔
      base.scope.contains id = true ∨ extra.scope.contains id = true := by
  simp only [scope, template, Template.contains_scope, Template.columns_pair, List.mem_append,
    Template.mem_columns_widen, or_and_right, exists_or]
  refine or_congr_right ⟨?_, ?_⟩
  · rintro ⟨_, ⟨c, inside, rfl⟩, same⟩
    exact ⟨c, inside, same⟩
  · rintro ⟨c, inside, same⟩
    exact ⟨_, ⟨c, inside, rfl⟩, same⟩

theorem ensureSides_eq_ok_iff :
    ensureSides base extra = .ok () ↔
      (∀ source ∈ base.sources.toList, extra.sources.contains source = false) ∧
        ∀ id ∈ base.scope.toList, extra.scope.contains id = false := by
  rw [← AscendingSet.firstCommon?_eq_none_iff, ← AscendingSet.firstCommon?_eq_none_iff,
    ensureSides]
  cases base.sources.firstCommon? extra.sources with
  | some source => exact ⟨nofun, fun both => nomatch both.1⟩
  | none =>
    cases base.scope.firstCommon? extra.scope with
    | some id => exact ⟨nofun, fun both => nomatch both.2⟩
    | none => exact ⟨fun _ => ⟨rfl, rfl⟩, fun _ => rfl⟩

theorem ensureSides_apart (accepted : ensureSides base extra = .ok ()) :
    (∀ id, base.scope.contains id = true → extra.scope.contains id = false) ∧
      ∀ id, extra.scope.contains id = true → base.scope.contains id = false := by
  have apart : ∀ id, base.scope.contains id = true → extra.scope.contains id = false := by
    intro id held
    obtain ⟨other, listed, same⟩ := AscendingSet.containsRank_iff.1 held
    obtain rfl : other = id := TokenId.eq_of_rank same
    exact (ensureSides_eq_ok_iff.1 accepted).2 other listed
  refine ⟨apart, fun id held => ?_⟩
  cases inBase : base.scope.contains id with
  | false => rfl
  | true => exact held.symm.trans (apart id inBase)

theorem joined_eq_ok_iff {mode : JoinMode} {withNull : Bool} {condition : Fragment} {w : View} :
    base.joined extra mode withNull condition = .ok w ↔
      ensureSides base extra = .ok () ∧
        Fragment.inReach (base.scope.union extra.scope) condition = true ∧
          w = .join base extra mode withNull condition := by
  have onCondition : Scope.ensureFragment (base.scope.union extra.scope) "join condition"
      condition = .ok () ↔ _ := Scope.ensureFragment_eq_ok_iff
  rw [← onCondition, joined]
  cases ensureSides base extra with
  | error e => exact ⟨nofun, fun all => nomatch all.1⟩
  | ok _ => exact Except.bind_return_eq_ok_iff.trans ⟨fun both => ⟨rfl, both⟩, fun all => all.2⟩

end View
end QueryViews
