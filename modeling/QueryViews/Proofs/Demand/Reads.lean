import QueryViews.Proofs.Clauses.Tally
import QueryViews.Proofs.Join.Support

/-! Columns that subqueries select and the SELECT around them reads. A body exhausts its sources if
every column that they select is read by its own clauses or by the tokens that it is built for. -/

namespace QueryViews

/-- The columns that are there because they were selected: those of a subquery. -/
def Source.selected : Source → List (Alias × String)
  | .table _ _ => []
  | .subquery statement id => statement.columns.map fun c => (id, c.name)

def Body.selected (b : Body) : List (Alias × String) := b.sources.flatMap Source.selected

/-- Whatever a subquery of the SELECT selects stands in the SELECT itself, in its select list or in
one of its clauses. -/
def Statement.ReadsAll (s : Statement) : Prop :=
  ∀ c ∈ s.body.selected, ∃ f ∈ s.columns.map OutputColumn.expr ++ s.body.fragments, c ∈ f.ownColumns

instance (s : Statement) : Decidable s.ReadsAll :=
  inferInstanceAs (Decidable (∀ c ∈ s.body.selected,
    ∃ f ∈ s.columns.map OutputColumn.expr ++ s.body.fragments, c ∈ f.ownColumns))

/-- The columns that expressions read once they are expanded. -/
def Redirects.reads (r : Redirects) (expressions : List Fragment) : List (Alias × String) :=
  expressions.flatMap fun f => (r.expand f).ownColumns

/-- Nothing is selected in vain: neither for a SELECT within the body, nor for the body itself once
the targets are selected from it. -/
structure Build.Exhausts (b : Build) (body : Body) (targets : List Token) : Prop where
  nested : ∀ s ∈ body.nested, s.ReadsAll
  own : body.selected ⊆ b.redirects.reads (targets.map Token.toFragment ++ body.fragments)

namespace Redirects
variable {r : Redirects}

theorem reads_append (some more : List Fragment) :
    r.reads (some ++ more) = r.reads some ++ r.reads more :=
  List.flatMap_append

theorem reads_mono {few many : List Fragment} (within : few ⊆ many) :
    r.reads few ⊆ r.reads many := by
  intro c read
  obtain ⟨f, written, inside⟩ := List.mem_flatMap.1 read
  exact List.mem_flatMap.2 ⟨f, within written, inside⟩

end Redirects

/-- An expression without the redirected tokens expands to the same as before. -/
theorem Build.Keeps.expand_eq {own : TokenId → Prop} {b later : Build} (keeps : Keeps own b later)
    (flat : b.redirects.Flat) (flatLater : later.redirects.Flat) {f : Fragment}
    (foreign : f.AllTokens fun t => ¬ own t.id) :
    later.redirects.expand f = b.redirects.expand f := by
  rw [Redirects.expand_of_flat flat, Redirects.expand_of_flat flatLater]
  exact Fragment.substitute_congr (Fragment.AllTokens.mono (fun t => keeps t.id) foreign)

theorem Source.selected_expanded (r : Redirects) (s : Source) :
    (s.expanded r).selected = s.selected := by
  cases s with
  | table | subquery => rfl

theorem Step.selected_extend (s : Step) (observed : Bool) (b : Body) :
    (s.extend observed b).selected = b.selected := by
  rw [Body.selected, Body.sources, source_extend, joins_extend, Body.selected, Body.sources]

namespace Body
variable {b x : Body} {kind : JoinKind} {condition : Fragment}

theorem selected_expanded (r : Redirects) : (b.expanded r).selected = b.selected := by
  rw [selected, sources_expanded, List.flatMap_map]
  exact List.flatMap_congr fun s _ => s.selected_expanded r

theorem selected_join : (b.join x kind condition).selected = b.selected ++ x.selected := by
  simp [selected, sources, join, addJoin]

/-- Where a join clears nothing of its base and leaves nothing of its extra side, it has all of
their expressions. -/
theorem fragments_subset_join (ungrouped : b.Ungrouped) (bare : x.Bare) :
    condition :: (b.fragments ++ x.fragments) ⊆ (b.join x kind condition).fragments := by
  simp only [fragments, join, addJoin, ungrouped.keys, ungrouped.having, bare.keys, bare.having,
    bare.order]
  grind

end Body

namespace Build.Exhausts
variable {b later : Build} {body other : Body} {needs targets : List Token}

theorem table (b : Build) (text : Fragment) (id : Alias) (targets : List Token) :
    b.Exhausts (.ofTable text id) targets :=
  ⟨fun _ none => absurd none List.not_mem_nil, List.nil_subset _⟩

theorem noted (exhausts : b.Exhausts body targets) (label : Option String) (state : ClauseSet) :
    (b.noted label state).Exhausts body targets :=
  ⟨exhausts.nested, exhausts.own⟩

/-- The columns are read by any expressions that read no less than the tokens do, and include the
clauses. -/
theorem selected_subset (exhausts : b.Exhausts body needs) {expressions : List Fragment}
    (asked : b.redirects.reads (needs.map Token.toFragment) ⊆ b.redirects.reads expressions)
    (clauses : body.fragments ⊆ expressions) : body.selected ⊆ b.redirects.reads expressions := by
  refine List.Subset.trans exhausts.own ?_
  rw [Redirects.reads_append]
  exact List.append_subset.2 ⟨asked, Redirects.reads_mono clauses⟩

theorem mono (exhausts : b.Exhausts body needs) (within : needs ⊆ targets) :
    b.Exhausts body targets where
  nested := exhausts.nested
  own := exhausts.selected_subset
    (Redirects.reads_mono (List.Subset.trans (List.map_subset _ within)
      (List.subset_append_left _ _)))
    (List.subset_append_right _ _)

/-- Redirects of tokens that are no part of the body and its targets make no difference. -/
theorem keeps {own : TokenId → Prop} (exhausts : b.Exhausts body targets)
    (keeps : Keeps own b later) (flat : b.redirects.Flat) (flatLater : later.redirects.Flat)
    (ofBody : body.AllTokens fun t => ¬ own t.id)
    (ofTargets : ∀ t ∈ targets, t.AllTokens fun u => ¬ own u.id) :
    later.Exhausts body targets where
  nested := exhausts.nested
  own := by
    have foreign : ∀ f ∈ targets.map Token.toFragment ++ body.fragments,
        f.AllTokens fun t => ¬ own t.id :=
      List.forall_mem_append.2 ⟨Token.allTokens_toFragments.2 ofTargets,
        fun f clause => ofBody f (List.mem_append_left _ clause)⟩
    have same : later.redirects.reads (targets.map Token.toFragment ++ body.fragments) =
        b.redirects.reads (targets.map Token.toFragment ++ body.fragments) :=
      List.flatMap_congr fun f written => congrArg Fragment.ownColumns
        (keeps.expand_eq flat flatLater (foreign f written))
    rw [same]
    exact exhausts.own

/-- A statement made of such a body reads all that its subqueries select. -/
theorem readsAll (exhausts : b.Exhausts body targets) (distinct : (targets.map Token.id).Nodup) :
    (b.statement body targets).1.ReadsAll := by
  have written : (b.statement body targets).1.columns.map OutputColumn.expr ++
      (b.statement body targets).1.body.fragments =
        (targets.map Token.toFragment ++ body.fragments).map b.redirects.expand := by
    rw [List.map_append, List.map_map, ← Body.fragments_expanded, columns_eq, List.map_map]
    refine congrArg (· ++ (body.expanded b.redirects).fragments) ?_
    show (outputNames b.settings targets).map (b.redirects.expandToken ∘ Prod.fst) =
      targets.map b.redirects.expandToken
    rw [← List.map_map, map_fst_outputNames, Token.distinct_of_nodup distinct]
  intro c selected
  have before : c ∈ (body.expanded b.redirects).selected := selected
  rw [Body.selected_expanded] at before
  obtain ⟨f, listed, read⟩ := List.mem_flatMap.1 (exhausts.own before)
  rw [written]
  exact ⟨_, List.mem_map_of_mem listed, read⟩

theorem selects (exhausts : b.Exhausts body targets) (distinct : (targets.map Token.id).Nodup) :
    ∀ s ∈ (b.statement body targets).1.selects, s.ReadsAll := by
  rw [selects_statement]
  exact List.forall_mem_cons.2 ⟨exhausts.readsAll distinct, exhausts.nested⟩

/-- A subquery of a body selects what was asked of the body, and no more. -/
theorem bracketIf {asked : TokenSet} (exhausts : b.Exhausts body asked.toList)
    (flat : b.redirects.Flat) (applies : Bool) :
    (b.bracketIf applies body asked).2.Exhausts (b.bracketIf applies body asked).1
      asked.toList := by
  cases applies with
  | false => exact exhausts
  | true =>
    refine ⟨?nested, fun c selected => ?own⟩
    case nested =>
      rw [nested_bracketIf, if_pos rfl]
      exact List.forall_mem_cons.2 ⟨exhausts.readsAll asked.nodup_ids, exhausts.nested⟩
    case own =>
      have column : c ∈ (b.statement body asked.toList).1.columns.map
          (fun c => (b.nextAlias, c.name)) ++ [] := selected
      rw [List.append_nil, columns_eq, List.map_map] at column
      obtain ⟨entry, listed, rfl⟩ := List.mem_map.1 column
      have found : (b.statement body asked.toList).2.lookup entry.1.id = some entry.2 :=
        lookup_eq_some_of_mem (nodup_names b body asked.toList)
          (List.mem_map.2 ⟨entry, listed, rfl⟩)
      have stands : (b.bracketed body asked.toList).redirects.expand entry.1.toFragment =
          Fragment.column b.nextAlias entry.2 := expandToken_bracketed flat found
      have target := List.mem_map_of_mem (f := Token.toFragment) (mem_of_mem_outputNames listed)
      refine List.mem_flatMap.2 ⟨_, List.mem_append_left _ target, ?_⟩
      show _ ∈ ((b.bracketed body asked.toList).redirects.expand entry.1.toFragment).ownColumns
      rw [stands]
      exact List.mem_singleton_self _

/-- What was asked below a step is read by what is used above it, or by the step itself. -/
theorem extend {s : Step} {observed : Bool} (exhausts : b.Exhausts body needs)
    (fits : s.Fits body.state)
    (asked : b.redirects.reads (needs.map Token.toFragment) ⊆
      b.redirects.reads (targets.map Token.toFragment ++ s.written observed)) :
    b.Exhausts (s.extend observed body) targets where
  nested := by
    rw [Step.nested_extend]
    exact exhausts.nested
  own := by
    have clauses : ∀ f, f ∈ body.fragments ∨ f ∈ s.written observed →
        f ∈ targets.map Token.toFragment ++ (s.extend observed body).fragments := fun f either =>
      List.mem_append_right _ ((Step.mem_fragments_extend fits f).2 either)
    have above : targets.map Token.toFragment ++ s.written observed ⊆
        targets.map Token.toFragment ++ (s.extend observed body).fragments :=
      List.append_subset.2 ⟨List.subset_append_left _ _, fun f added => clauses f (.inr added)⟩
    rw [Step.selected_extend]
    exact exhausts.selected_subset (List.Subset.trans asked (Redirects.reads_mono above))
      fun f before => clauses f (.inl before)

/-- What was asked of both sides is read by what is used of the join, or by its condition. -/
theorem join {asked : List Token} {condition : Fragment} (ofBase : b.Exhausts body needs)
    (ofExtra : b.Exhausts other asked) (ungrouped : body.Ungrouped) (bare : other.Bare)
    (baseAsked : b.redirects.reads (needs.map Token.toFragment) ⊆
      b.redirects.reads (targets.map Token.toFragment ++ [condition]))
    (extraAsked : b.redirects.reads (asked.map Token.toFragment) ⊆
      b.redirects.reads (targets.map Token.toFragment ++ [condition])) (kind : JoinKind) :
    b.Exhausts (body.join other kind condition) targets where
  nested := by
    rw [Body.nested_join]
    exact List.forall_mem_append.2 ⟨ofBase.nested, ofExtra.nested⟩
  own := by
    have clauses : ∀ f ∈ condition :: (body.fragments ++ other.fragments),
        f ∈ targets.map Token.toFragment ++ (body.join other kind condition).fragments :=
      fun f written => List.mem_append_right _ (Body.fragments_subset_join ungrouped bare written)
    obtain ⟨onCondition, sides⟩ := List.forall_mem_cons.1 clauses
    obtain ⟨onBase, onExtra⟩ := List.forall_mem_append.1 sides
    have above : targets.map Token.toFragment ++ [condition] ⊆
        targets.map Token.toFragment ++ (body.join other kind condition).fragments :=
      List.append_subset.2 ⟨List.subset_append_left _ _, List.forall_mem_singleton.2 onCondition⟩
    have enough := Redirects.reads_mono (r := b.redirects) above
    rw [Body.selected_join]
    exact List.append_subset.2
      ⟨ofBase.selected_subset (List.Subset.trans baseAsked enough) onBase,
        ofExtra.selected_subset (List.Subset.trans extraAsked enough) onExtra⟩

end Build.Exhausts
end QueryViews
