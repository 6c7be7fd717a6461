import Mathlib.Logic.Basic
import QueryViews.Proofs.Bracketing
import QueryViews.Proofs.Fragment.Touched
import QueryViews.Proofs.Scope.WellScoped

/-! Sources in a statement and columns read in it, at any depth, and what is touched when a
statement is made of a body. -/

namespace QueryViews

/-- The FROM expression of a table. -/
def Source.text : Source → Fragment
  | .table text _ => text
  | .subquery _ _ => []

mutual

def Source.aliases : Source → List Alias
  | .table _ id => [id]
  | .subquery statement id => id :: statement.aliases

def JoinClause.allAliases : List JoinClause → List Alias
  | [] => []
  | ⟨_, source, _⟩ :: rest => source.aliases ++ JoinClause.allAliases rest

/-- All sources in the statement, those of its subqueries included. -/
def Statement.aliases : Statement → List Alias
  | ⟨_, ⟨source, joins, _, _, _, _, _, _, _⟩⟩ => source.aliases ++ JoinClause.allAliases joins

end

mutual

/-- The columns that FROM expressions and subqueries read. -/
def Source.reads : Source → List (Alias × String)
  | .table text _ => text.ownColumns
  | .subquery statement _ => statement.reads

def JoinClause.allReads : List JoinClause → List (Alias × String)
  | [] => []
  | ⟨_, source, _⟩ :: rest => source.reads ++ JoinClause.allReads rest

/-- All columns read in the statement, in its subqueries too. -/
def Statement.reads : Statement → List (Alias × String)
  | ⟨columns, ⟨source, joins, filters, keys, grouped, having, order, skip, take⟩⟩ =>
    let body : Body := ⟨source, joins, filters, keys, grouped, having, order, skip, take⟩
    source.reads ++ JoinClause.allReads joins ++
      (body.fragments ++ columns.map OutputColumn.expr).flatMap Fragment.ownColumns

end

/-- Every column read in the statement is one of a source in it. -/
def Statement.Closed (s : Statement) : Prop := ∀ c ∈ s.reads, c.1 ∈ s.aliases

instance (s : Statement) : Decidable s.Closed :=
  inferInstanceAs (Decidable (∀ c ∈ s.reads, c.1 ∈ s.aliases))

namespace Body

def texts (b : Body) : List Fragment := b.sources.map Source.text

def aliases (b : Body) : List Alias := b.source.aliases ++ JoinClause.allAliases b.joins

def reads (b : Body) : List (Alias × String) := b.source.reads ++ JoinClause.allReads b.joins

end Body

theorem Statement.aliases_eq (s : Statement) : s.aliases = s.body.aliases := by
  obtain ⟨columns, source, joins, filters, keys, grouped, having, order, skip, take⟩ := s
  rfl

theorem Statement.reads_eq (s : Statement) :
    s.reads = s.body.reads ++
      (s.body.fragments ++ s.columns.map OutputColumn.expr).flatMap Fragment.ownColumns := by
  obtain ⟨columns, source, joins, filters, keys, grouped, having, order, skip, take⟩ := s
  rfl

theorem JoinClause.mem_allAliases {a : Alias} {joins : List JoinClause} :
    a ∈ allAliases joins ↔ ∃ j ∈ joins, a ∈ j.source.aliases := by
  induction joins with
  | nil => simp [allAliases]
  | cons j rest ih =>
    obtain ⟨kind, source, condition⟩ := j
    simp [allAliases, ih]

theorem JoinClause.mem_allReads {c : Alias × String} {joins : List JoinClause} :
    c ∈ allReads joins ↔ ∃ j ∈ joins, c ∈ j.source.reads := by
  induction joins with
  | nil => simp [allReads]
  | cons j rest ih =>
    obtain ⟨kind, source, condition⟩ := j
    simp [allReads, ih]

namespace Body

theorem mem_aliases {b : Body} {a : Alias} : a ∈ b.aliases ↔ ∃ s ∈ b.sources, a ∈ s.aliases := by
  simp [aliases, sources, JoinClause.mem_allAliases]

theorem mem_reads {b : Body} {c : Alias × String} :
    c ∈ b.reads ↔ ∃ s ∈ b.sources, c ∈ s.reads := by
  simp [reads, sources, JoinClause.mem_allReads]

theorem id_mem_aliases {b : Body} {s : Source} (inside : s ∈ b.sources) : s.id ∈ b.aliases := by
  refine mem_aliases.2 ⟨s, inside, ?_⟩
  cases s with
  | table | subquery => exact List.mem_cons_self

end Body

section Expanded
variable {r : Redirects}

theorem Body.sources_expanded (b : Body) :
    (b.expanded r).sources = b.sources.map (Source.expanded r) := by
  simp [sources, expanded, JoinClause.expanded, Function.comp_def]

theorem Source.aliases_expanded (s : Source) : (s.expanded r).aliases = s.aliases := by
  cases s with
  | table | subquery => rfl

theorem Body.mem_aliases_expanded {b : Body} {a : Alias} :
    a ∈ (b.expanded r).aliases ↔ a ∈ b.aliases := by
  simp [mem_aliases, sources_expanded, Source.aliases_expanded]

/-- A FROM expression keeps the columns that stand in it. -/
theorem Source.reads_expanded {s : Source} {c : Alias × String} (read : c ∈ s.reads) :
    c ∈ (s.expanded r).reads := by
  cases s with
  | table text id => exact r.ownColumns_expand read
  | subquery => exact read

theorem Body.reads_expanded {b : Body} {c : Alias × String} (read : c ∈ b.reads) :
    c ∈ (b.expanded r).reads := by
  obtain ⟨s, inside, reads⟩ := mem_reads.1 read
  refine mem_reads.2 ⟨s.expanded r, ?_, Source.reads_expanded reads⟩
  rw [sources_expanded]
  exact List.mem_map_of_mem inside

theorem Body.readsOnly_expanded {b : Body} {f : Fragment} :
    f.ReadsOnly (b.expanded r).sources ↔ f.ReadsOnly b.sources := by
  simp only [Fragment.ReadsOnly, sources_expanded, List.mem_map, exists_exists_and_eq_and,
    Source.id_expanded, Source.offers_expanded]

theorem Source.expanded_congr {one two : Redirects} {s : Source}
    (agree : one.expand s.text = two.expand s.text) : s.expanded one = s.expanded two := by
  cases s with
  | table text id => exact congrArg (Source.table · id) agree
  | subquery => rfl

theorem Body.expanded_congr {one two : Redirects} {b : Body}
    (fragments : ∀ f ∈ b.fragments, one.expand f = two.expand f)
    (texts : ∀ f ∈ b.texts, one.expand f = two.expand f) : b.expanded one = b.expanded two := by
  have sources : ∀ s ∈ b.sources, s.expanded one = s.expanded two := fun s inside =>
    Source.expanded_congr (texts s.text (List.mem_map_of_mem inside))
  simp only [Body.fragments, List.forall_mem_append, List.forall_mem_map] at fragments
  obtain ⟨⟨⟨⟨conditions, filters⟩, keys⟩, having⟩, order⟩ := fragments
  have joins : b.joins.map (JoinClause.expanded one) = b.joins.map (JoinClause.expanded two) := by
    refine List.map_congr_left fun j inside => ?_
    have source := sources j.source (List.mem_cons_of_mem _ (List.mem_map_of_mem inside))
    rw [JoinClause.expanded, JoinClause.expanded, source, conditions j inside]
  have sorted : b.order.map (SortKey.map one.expand) = b.order.map (SortKey.map two.expand) :=
    List.map_congr_left fun item listed => by rw [SortKey.map, SortKey.map, order item listed]
  rw [expanded, expanded, sources b.source List.mem_cons_self, joins, List.map_congr_left filters,
    List.map_congr_left keys, List.map_congr_left having, sorted]

end Expanded

namespace Build

/-- The expressions that are written when the targets are selected from a body. -/
def statementParts (body : Body) (targets : List Token) : List Fragment :=
  (Token.distinct targets).map Token.toFragment ++ (body.fragments ++ body.texts)

/-- The tokens touched when the targets are selected from a body. -/
def touched (b : Build) (body : Body) (targets : List Token) : List TokenId :=
  (statementParts body targets).flatMap b.redirects.touched

variable {own joint : Build} {foreign : Redirects} {body : Body} {targets : List Token}

theorem mem_aliases_statement {b : Build} {a : Alias} :
    a ∈ (b.statement body targets).1.aliases ↔ a ∈ body.aliases := by
  rw [Statement.aliases_eq]
  exact Body.mem_aliases_expanded

theorem reads_statement (b : Build) (body : Body) (targets : List Token) :
    ∀ c ∈ body.reads, c ∈ (b.statement body targets).1.reads := by
  intro c read
  rw [Statement.reads_eq]
  exact List.mem_append_left _ (Body.reads_expanded read)

/-- A statement that touches no foreign token is the one made without them. -/
theorem statement_of_untouched (settings : joint.settings = own.settings)
    (both : Redirects.Joint own.redirects foreign joint.redirects)
    (untouched : ∀ id ∈ own.touched body targets, foreign.lookup id = none) :
    joint.statement body targets = own.statement body targets := by
  have same : ∀ f ∈ statementParts body targets, joint.redirects.expand f = own.redirects.expand f := by
    intro f member
    exact both.expand_of_untouched fun id touched =>
      untouched id (List.mem_flatMap.2 ⟨f, member, touched⟩)
  obtain ⟨selected, rest⟩ := List.forall_mem_append.1 same
  obtain ⟨fragments, texts⟩ := List.forall_mem_append.1 rest
  have columns : ∀ entry ∈ outputNames own.settings targets,
      joint.redirects.expandToken entry.1 = own.redirects.expandToken entry.1 := by
    intro entry listed
    refine selected _ (List.mem_map_of_mem ?_)
    rw [← map_fst_outputNames own.settings]
    exact List.mem_map_of_mem listed
  simp only [statement, settings, Body.expanded_congr fragments texts]
  rw [List.map_congr_left fun entry listed => by rw [columns entry listed]]

/-- A statement that touches a foreign token reads a column of the other party. -/
theorem leaksInto_statement (both : Redirects.Joint own.redirects foreign joint.redirects)
    {id : TokenId} (touched : id ∈ own.touched body targets)
    (redirected : (foreign.lookup id).isSome = true) :
    foreign.LeaksInto (joint.statement body targets).1.reads := by
  obtain ⟨f, member, touches⟩ := List.mem_flatMap.1 touched
  refine (both.leaksInto_expand touches redirected).mono fun c inside => ?_
  rw [Statement.reads_eq]
  rcases List.mem_append.1 member with selected | rest
  · obtain ⟨t, listed, rfl⟩ := List.mem_map.1 selected
    rw [← map_fst_outputNames joint.settings] at listed
    obtain ⟨entry, named, rfl⟩ := List.mem_map.1 listed
    refine List.mem_append_right _ (List.mem_flatMap.2 ⟨_, List.mem_append_right _ ?_, inside⟩)
    rw [columns_eq, List.map_map]
    exact List.mem_map.2 ⟨entry, named, rfl⟩
  · rcases List.mem_append.1 rest with clause | text
    · refine List.mem_append_right _ (List.mem_flatMap.2 ⟨_, List.mem_append_left _ ?_, inside⟩)
      show joint.redirects.expand f ∈ (body.expanded joint.redirects).fragments
      rw [Body.fragments_expanded]
      exact List.mem_map_of_mem clause
    · obtain ⟨s, listed, rfl⟩ := List.mem_map.1 text
      refine List.mem_append_left _ (Body.mem_reads.2 ⟨s.expanded joint.redirects, ?_, ?_⟩)
      · show s.expanded joint.redirects ∈ (body.expanded joint.redirects).sources
        rw [Body.sources_expanded]
        exact List.mem_map_of_mem listed
      · cases s with
        | table => exact inside
        | subquery =>
          obtain ⟨source, name⟩ := c
          exact absurd inside (by simp [Source.text, Redirects.expand_of_flat both.flat,
            Fragment.substitute, Fragment.ownColumns])

end Build
end QueryViews
