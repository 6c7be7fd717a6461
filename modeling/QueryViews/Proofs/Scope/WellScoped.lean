import QueryViews.Proofs.Fragment.Expansion
import QueryViews.Select.Body

/-! Scoping of statements: every source column of a SELECT is a column of one of its own FROM
and JOIN sources, in the statement itself and in every subquery. -/

namespace QueryViews

/-- A table has every column; a subquery has those of its select list. -/
def Source.Offers : Source → String → Prop
  | .table _ _, _ => True
  | .subquery statement _, name => ∃ c ∈ statement.columns, c.name = name

/-- Every column in the fragment is one that a source of the list offers. -/
def Fragment.ReadsOnly (sources : List Source) (f : Fragment) : Prop :=
  ∀ c ∈ f.columns, ∃ s ∈ sources, s.id = c.1 ∧ s.Offers c.2

namespace Body

def sources (b : Body) : List Source := b.source :: b.joins.map JoinClause.source

/-- Everything that is evaluated on the rows of the body's sources. -/
def fragments (b : Body) : List Fragment :=
  b.joins.map JoinClause.condition ++ b.filters ++ b.keys ++ b.having ++ b.order.map SortKey.expr

end Body

mutual

def Source.WellScoped : Source → Prop
  | .table _ _ => True
  | .subquery statement _ => statement.WellScoped

def JoinClause.AllWellScoped : List JoinClause → Prop
  | [] => True
  | ⟨_, source, _⟩ :: rest => source.WellScoped ∧ JoinClause.AllWellScoped rest

def Statement.WellScoped : Statement → Prop
  | ⟨columns, ⟨source, joins, filters, keys, grouped, having, order, skip, take⟩⟩ =>
    let body : Body := ⟨source, joins, filters, keys, grouped, having, order, skip, take⟩
    (source.WellScoped ∧ JoinClause.AllWellScoped joins ∧
      ∀ f ∈ body.fragments, f.ReadsOnly body.sources) ∧
    ∀ c ∈ columns, c.expr.ReadsOnly body.sources

end

def Body.WellScoped (b : Body) : Prop :=
  b.source.WellScoped ∧ JoinClause.AllWellScoped b.joins ∧
    ∀ f ∈ b.fragments, f.ReadsOnly b.sources

theorem Statement.wellScoped_iff {s : Statement} :
    s.WellScoped ↔ s.body.WellScoped ∧ ∀ c ∈ s.columns, c.expr.ReadsOnly s.body.sources := by
  obtain ⟨columns, source, joins, filters, keys, grouped, having, order, skip, take⟩ := s
  exact Iff.rfl

instance (source : Source) (name : String) : Decidable (source.Offers name) :=
  match source with
  | .table _ _ => inferInstanceAs (Decidable True)
  | .subquery statement _ => inferInstanceAs (Decidable (∃ c ∈ statement.columns, c.name = name))

instance (sources : List Source) (f : Fragment) : Decidable (f.ReadsOnly sources) :=
  inferInstanceAs (Decidable (∀ c ∈ f.columns, ∃ s ∈ sources, s.id = c.1 ∧ s.Offers c.2))

mutual

def Source.decideWellScoped : ∀ source : Source, Decidable source.WellScoped
  | .table _ _ => .isTrue trivial
  | .subquery statement _ => statement.decideWellScoped

def JoinClause.decideAllWellScoped : ∀ joins : List JoinClause, Decidable (JoinClause.AllWellScoped joins)
  | [] => .isTrue trivial
  | ⟨_, source, _⟩ :: rest =>
    @instDecidableAnd _ _ source.decideWellScoped (JoinClause.decideAllWellScoped rest)

def Statement.decideWellScoped : ∀ statement : Statement, Decidable statement.WellScoped
  | ⟨columns, ⟨source, joins, filters, keys, grouped, having, order, skip, take⟩⟩ =>
    let body : Body := ⟨source, joins, filters, keys, grouped, having, order, skip, take⟩
    @instDecidableAnd _ _
      (@instDecidableAnd _ _ source.decideWellScoped
        (@instDecidableAnd _ _ (JoinClause.decideAllWellScoped joins)
          (inferInstanceAs (Decidable (∀ f ∈ body.fragments, f.ReadsOnly body.sources)))))
      (inferInstanceAs (Decidable (∀ c ∈ columns, c.expr.ReadsOnly body.sources)))

end

instance (statement : Statement) : Decidable statement.WellScoped := statement.decideWellScoped

mutual

def Source.JoinFree : Source → Prop
  | .table _ _ => True
  | .subquery statement _ => statement.JoinFree

/-- No SELECT of the statement has a join, so each of them reads one source. -/
def Statement.JoinFree : Statement → Prop
  | ⟨_, ⟨source, joins, _, _, _, _, _, _, _⟩⟩ => joins = [] ∧ source.JoinFree

end

theorem Statement.joinFree_iff {s : Statement} :
    s.JoinFree ↔ s.body.joins = [] ∧ s.body.source.JoinFree := by
  obtain ⟨columns, source, joins, filters, keys, grouped, having, order, skip, take⟩ := s
  exact Iff.rfl

namespace Fragment
variable {sources : List Source} {f g : Fragment}

@[simp] theorem readsOnly_append :
    ReadsOnly sources (f ++ g) ↔ ReadsOnly sources f ∧ ReadsOnly sources g := by
  simp only [ReadsOnly, columns_append, List.forall_mem_append]

theorem readsOnly_column {source : Source} {id : Alias} {name : String} :
    ReadsOnly [source] (column id name) ↔ source.id = id ∧ source.Offers name := by
  simp [ReadsOnly, column, columns, Segment.columns]

end Fragment

section Expanded
variable {r : Redirects}

@[simp] theorem Source.id_expanded (source : Source) : (source.expanded r).id = source.id := by
  cases source with
  | table | subquery => rfl

theorem Source.offers_expanded {source : Source} {name : String} :
    (source.expanded r).Offers name ↔ source.Offers name := by
  cases source with
  | table | subquery => exact Iff.rfl

theorem Source.wellScoped_expanded {source : Source} :
    (source.expanded r).WellScoped ↔ source.WellScoped := by
  cases source with
  | table | subquery => exact Iff.rfl

theorem Source.joinFree_expanded {source : Source} :
    (source.expanded r).JoinFree ↔ source.JoinFree := by
  cases source with
  | table | subquery => exact Iff.rfl

theorem Source.offers_of_table {source : Source} (direct : source.isSubquery = false)
    (name : String) : source.Offers name := by
  cases source with
  | table => trivial
  | subquery => cases direct

theorem Fragment.readsOnly_expanded {source : Source} {f : Fragment} :
    ReadsOnly [source.expanded r] f ↔ ReadsOnly [source] f := by
  simp only [ReadsOnly, List.mem_singleton, exists_eq_left, Source.id_expanded,
    Source.offers_expanded]

theorem Body.fragments_expanded (b : Body) :
    (b.expanded r).fragments = b.fragments.map r.expand := by
  simp [fragments, expanded, JoinClause.expanded, SortKey.map, Function.comp_def]

theorem Body.state_expanded (b : Body) : (b.expanded r).state = b.state := by
  simp only [state, expanded, List.any_map, List.isEmpty_map]
  rfl

theorem Body.wellScoped_expanded {b : Body} (alone : b.joins = []) :
    (b.expanded r).WellScoped ↔
      b.source.WellScoped ∧ ∀ f ∈ b.fragments, (r.expand f).ReadsOnly [b.source] := by
  have sources : (b.expanded r).sources = [b.source.expanded r] := by
    simp [Body.sources, expanded, alone]
  have none : JoinClause.AllWellScoped (b.expanded r).joins := by
    rw [expanded, alone]
    trivial
  rw [WellScoped, sources, fragments_expanded, List.forall_mem_map]
  simp only [none, true_and, Fragment.readsOnly_expanded]
  exact and_congr_left' Source.wellScoped_expanded

end Expanded
end QueryViews
