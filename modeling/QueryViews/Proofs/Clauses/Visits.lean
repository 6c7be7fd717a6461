import QueryViews.Proofs.Join.Shadowing

/-! The views that are visited while a body is built, each with what it is asked for, and the
SELECTs that end up nested in the body. Every nested SELECT is the body of a visited view, made a
statement with what was asked of that view. -/

namespace QueryViews

mutual

def Source.selects : Source → List Statement
  | .table _ _ => []
  | .subquery statement _ => statement.selects

def JoinClause.allSelects : List JoinClause → List Statement
  | [] => []
  | ⟨_, source, _⟩ :: rest => source.selects ++ JoinClause.allSelects rest

/-- The statement itself and all its subqueries. -/
def Statement.selects : Statement → List Statement
  | ⟨columns, ⟨source, joins, filters, keys, grouped, having, order, skip, take⟩⟩ =>
    ⟨columns, ⟨source, joins, filters, keys, grouped, having, order, skip, take⟩⟩ ::
      (source.selects ++ JoinClause.allSelects joins)

end

namespace Body

/-- The SELECTs in the sources of the body. -/
def nested (b : Body) : List Statement := b.source.selects ++ JoinClause.allSelects b.joins

/-- The body itself and the bodies of all SELECTs nested in it. -/
def bodies (b : Body) : List Body := b :: b.nested.map Statement.body

end Body

theorem Statement.selects_eq (s : Statement) : s.selects = s :: s.body.nested := by
  obtain ⟨columns, source, joins, filters, keys, grouped, having, order, skip, take⟩ := s
  rfl

theorem JoinClause.allSelects_eq (joins : List JoinClause) :
    allSelects joins = joins.flatMap fun j => j.source.selects := by
  induction joins with
  | nil => rfl
  | cons j rest ih =>
    obtain ⟨kind, source, condition⟩ := j
    rw [allSelects, ih, List.flatMap_cons]

theorem Source.selects_expanded (r : Redirects) (s : Source) :
    (s.expanded r).selects = s.selects := by
  cases s with
  | table | subquery => rfl

namespace Body

theorem nested_expanded (r : Redirects) (b : Body) : (b.expanded r).nested = b.nested := by
  have sources : ∀ j : JoinClause, (j.expanded r).source.selects = j.source.selects := fun j =>
    Source.selects_expanded r j.source
  simp only [nested, expanded, JoinClause.allSelects_eq, List.flatMap_map, sources,
    Source.selects_expanded]

theorem nested_join (b x : Body) (kind : JoinKind) (condition : Fragment) :
    (b.join x kind condition).nested = b.nested ++ x.nested := by
  simp only [nested, join, addJoin, JoinClause.allSelects_eq, List.flatMap_append,
    List.flatMap_singleton, List.append_assoc]

end Body

theorem Step.nested_extend (s : Step) (observed : Bool) (b : Body) :
    (s.extend observed b).nested = b.nested := by
  rw [Body.nested, source_extend, joins_extend, Body.nested]

namespace Build
variable (b : Build) (body : Body)

theorem nested_statement (targets : List Token) :
    (b.statement body targets).1.body.nested = body.nested :=
  Body.nested_expanded b.redirects body

theorem selects_statement (targets : List Token) :
    (b.statement body targets).1.selects = (b.statement body targets).1 :: body.nested := by
  rw [Statement.selects_eq, nested_statement]

theorem nested_bracketIf (applies : Bool) (needs : TokenSet) :
    (b.bracketIf applies body needs).1.nested =
      (if applies then [(b.statement body needs.toList).1] else []) ++ body.nested := by
  cases applies with
  | false => rfl
  | true =>
    have only : (b.bracketIf true body needs).1.nested =
        (b.statement body needs.toList).1.selects ++ [] := rfl
    rw [only, List.append_nil, selects_statement]
    rfl

end Build

/-- A view that the walk down reaches, what it is asked for there, and what is built by then. -/
structure Visit where
  view : View
  used : TokenSet
  observed : Bool
  build : Build

def Visit.body (visit : Visit) : Body :=
  ((visit.view.body visit.used visit.observed).run visit.build).1

/-- The visits for a step on a view, those for the view itself being given. -/
def Step.visits (s : Step) (v : View) (below : TokenSet → Bool → Build → List Visit)
    (used : TokenSet) (observed : Bool) (b : Build) : List Visit :=
  ⟨s.onto v, used, observed, b⟩ :: below (s.needs observed v.scope used) (s.observes observed) b

namespace View

/-- Everything visited while the body of the view is built; a lazy join may leave out a side. -/
def visits : View → TokenSet → Bool → Build → List Visit
  | .table text id template => fun used observed b => [⟨.table text id template, used, observed, b⟩]
  | .filter input condition => (Step.filter condition).visits input input.visits
  | .project input template => (Step.project template).visits input input.visits
  | .order input items => (Step.order items).visits input input.visits
  | .take input count => (Step.take count).visits input input.visits
  | .skip input count => (Step.skip count).visits input input.visits
  | .bracket input point => (Step.bracket point).visits input input.visits
  | .group input keys content => (Step.group keys content).visits input input.visits
  | .join base extra mode withNull condition => fun used observed b =>
    ⟨.join base extra mode withNull condition, used, observed, b⟩ ::
      if extra.dropsExtra mode used then base.visits (used.narrow base.scope) observed b
      else if base.dropsBase mode withNull observed used then
        extra.visits (used.narrow extra.scope) observed b
      else
        let ofBase := (base.body (base.joinNeeds condition used) observed).run b
        base.visits (base.joinNeeds condition used) observed b ++
          extra.visits (extra.joinNeeds condition used) false ofBase.2

theorem visits_onto (v : View) (s : Step) : (s.onto v).visits = s.visits v v.visits := by
  cases s with
  | filter | project | group | order | take | skip | bracket => rfl

theorem self_mem_visits (v : View) (used : TokenSet) (observed : Bool) (b : Build) :
    ⟨v, used, observed, b⟩ ∈ v.visits used observed b := by
  induction v using induction_onto with
  | table | join => exact List.mem_cons_self
  | onto s v ih =>
    rw [visits_onto]
    exact List.mem_cons_self

section Join
variable {base extra : View} {mode : JoinMode} {withNull : Bool} {condition : Fragment}
  {used : TokenSet} {observed : Bool} (b : Build)

/-- Neither side is left out. -/
def Joins (base extra : View) (mode : JoinMode) (withNull : Bool) (used : TokenSet)
    (observed : Bool) : Prop :=
  ¬ extra.dropsExtra mode used ∧ ¬ base.dropsBase mode withNull observed used

instance : Decidable (Joins base extra mode withNull used observed) :=
  inferInstanceAs (Decidable (_ ∧ _))

theorem run_body_of_dropsExtra (drops : extra.dropsExtra mode used) :
    ((View.join base extra mode withNull condition).body used observed).run b =
      (base.body (used.narrow base.scope) observed).run b := by
  rw [body_join, if_pos drops]

theorem visits_of_dropsExtra (drops : extra.dropsExtra mode used) :
    (View.join base extra mode withNull condition).visits used observed b =
      ⟨.join base extra mode withNull condition, used, observed, b⟩ ::
        base.visits (used.narrow base.scope) observed b :=
  congrArg (_ :: ·) (if_pos drops)

theorem run_body_of_dropsBase (keeps : ¬ extra.dropsExtra mode used)
    (drops : base.dropsBase mode withNull observed used) :
    ((View.join base extra mode withNull condition).body used observed).run b =
      (extra.body (used.narrow extra.scope) observed).run b := by
  rw [body_join, if_neg keeps, if_pos drops]

theorem visits_of_dropsBase (keeps : ¬ extra.dropsExtra mode used)
    (drops : base.dropsBase mode withNull observed used) :
    (View.join base extra mode withNull condition).visits used observed b =
      ⟨.join base extra mode withNull condition, used, observed, b⟩ ::
        extra.visits (used.narrow extra.scope) observed b :=
  congrArg (_ :: ·) ((if_neg keeps).trans (if_pos drops))

theorem run_body_of_joins (joins : Joins base extra mode withNull used observed) :
    ((View.join base extra mode withNull condition).body used observed).run b =
      let both := (base.sides extra mode condition used observed).run b
      (both.1.1.join both.1.2 mode.kind condition, both.2) := by
  rw [body_join, if_neg joins.1, if_neg joins.2]
  rfl

theorem visits_of_joins (joins : Joins base extra mode withNull used observed) :
    (View.join base extra mode withNull condition).visits used observed b =
      ⟨.join base extra mode withNull condition, used, observed, b⟩ ::
        (base.visits (base.joinNeeds condition used) observed b ++
          extra.visits (extra.joinNeeds condition used) false
            ((base.body (base.joinNeeds condition used) observed).run b).2) :=
  congrArg (_ :: ·) ((if_neg joins.1).trans (if_neg joins.2))

end Join

/-- Induction along the walk down: a step visits its input, a join one of its sides or both. -/
theorem visits_induction {motive : View → TokenSet → Bool → Build → Prop}
    (table : ∀ text id template used observed b, motive (.table text id template) used observed b)
    (onto : ∀ s v used observed b,
      motive v (s.needs observed v.scope used) (s.observes observed) b →
        motive (Step.onto v s) used observed b)
    (baseOnly : ∀ base extra mode withNull condition used observed b,
      extra.dropsExtra mode used → motive base (used.narrow base.scope) observed b →
        motive (.join base extra mode withNull condition) used observed b)
    (extraOnly : ∀ base extra mode withNull condition used observed b,
      ¬ extra.dropsExtra mode used → base.dropsBase mode withNull observed used →
        motive extra (used.narrow extra.scope) observed b →
          motive (.join base extra mode withNull condition) used observed b)
    (both : ∀ base extra mode withNull condition used observed b,
      Joins base extra mode withNull used observed →
        motive base (base.joinNeeds condition used) observed b →
        motive extra (extra.joinNeeds condition used) false
          ((base.body (base.joinNeeds condition used) observed).run b).2 →
          motive (.join base extra mode withNull condition) used observed b)
    (v : View) (used : TokenSet) (observed : Bool) (b : Build) : motive v used observed b := by
  induction v using induction_onto generalizing used observed b with
  | table text id template => exact table text id template used observed b
  | onto s v ih => exact onto s v used observed b (ih _ _ b)
  | join base extra mode withNull condition ofBase ofExtra =>
    by_cases withoutExtra : extra.dropsExtra mode used
    · exact baseOnly _ _ _ _ _ _ _ b withoutExtra (ofBase _ _ b)
    · by_cases withoutBase : base.dropsBase mode withNull observed used
      · exact extraOnly _ _ _ _ _ _ _ b withoutExtra withoutBase (ofExtra _ _ b)
      · exact both _ _ _ _ _ _ _ b ⟨withoutExtra, withoutBase⟩ (ofBase _ _ b) (ofExtra _ _ _)

/-- The SELECT is made of what was built on one of the visits, with what was asked for there. -/
def MadeOn (visits : List Visit) (s : Statement) : Prop :=
  ∃ visit ∈ visits, ∃ later : Build, s = (later.statement visit.body visit.used.toList).1

theorem MadeOn.mono {few many : List Visit} {s : Statement} (made : MadeOn few s)
    (within : ∀ visit ∈ few, visit ∈ many) : MadeOn many s := by
  obtain ⟨visit, listed, later, same⟩ := made
  exact ⟨visit, within visit listed, later, same⟩

theorem madeOn_bracketIf {v : View} {used : TokenSet} {observed : Bool} {b : Build}
    (below : ∀ s ∈ ((v.body used observed).run b).1.nested, MadeOn (v.visits used observed b) s)
    (later : Build) (applies : Bool) :
    ∀ s ∈ (later.bracketIf applies ((v.body used observed).run b).1 used).1.nested,
      MadeOn (v.visits used observed b) s := by
  intro s member
  rw [Build.nested_bracketIf] at member
  rcases List.mem_append.1 member with closing | inside
  · cases applies with
    | false => exact absurd closing List.not_mem_nil
    | true => exact ⟨_, v.self_mem_visits used observed b, later, List.mem_singleton.1 closing⟩
  · exact below s inside

/-- Every SELECT nested in a built body is made on a visit. -/
theorem madeOn_of_mem_nested (v : View) (used : TokenSet) (observed : Bool) (b : Build) :
    ∀ s ∈ ((v.body used observed).run b).1.nested, MadeOn (v.visits used observed b) s := by
  induction v, used, observed, b using visits_induction with
  | table => exact fun s none => absurd none List.not_mem_nil
  | onto s v used observed b ih =>
    simp only [run_body_onto, Build.run_makeRoom, Step.nested_extend, visits_onto]
    intro select nested
    exact (madeOn_bracketIf ih _ _ select nested).mono fun visit => List.mem_cons_of_mem _
  | baseOnly base extra mode withNull condition used observed b drops ih =>
    rw [run_body_of_dropsExtra b drops, visits_of_dropsExtra b drops]
    exact fun s nested => (ih s nested).mono fun visit => List.mem_cons_of_mem _
  | extraOnly base extra mode withNull condition used observed b keeps drops ih =>
    rw [run_body_of_dropsBase b keeps drops, visits_of_dropsBase b keeps drops]
    exact fun s nested => (ih s nested).mono fun visit => List.mem_cons_of_mem _
  | both base extra mode withNull condition used observed b joins ofBase ofExtra =>
    rw [run_body_of_joins b joins, visits_of_joins b joins]
    simp only [run_sides, Body.nested_join]
    intro s nested
    rcases List.mem_append.1 nested with inBase | inExtra
    · refine (madeOn_bracketIf ofBase _ _ s inBase).mono fun visit below => ?_
      exact List.mem_cons_of_mem _ (List.mem_append_left _ below)
    · refine (madeOn_bracketIf ofExtra _ _ s inExtra).mono fun visit below => ?_
      exact List.mem_cons_of_mem _ (List.mem_append_right _ below)

end View
end QueryViews
