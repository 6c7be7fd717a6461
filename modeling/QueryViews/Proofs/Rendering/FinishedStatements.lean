import QueryViews.Proofs.Stages
import QueryViews.Query.Compiler
import QueryViews.Select.Rendering

/-! Finished statements. All that compilation does to what tokens stand for is to let them stand for
output columns of the subqueries it makes, so expansion always ends. A statement has nothing left to
write out, at whatever depth, so a subquery can be taken over as it is. -/

namespace QueryViews

section
variable (φ : Fragment → Fragment)

mutual

def Source.mapFragments : Source → Source
  | .table text id => .table (φ text) id
  | .subquery statement id => .subquery statement.mapFragments id

def JoinClause.mapAll : List JoinClause → List JoinClause
  | [] => []
  | ⟨kind, source, condition⟩ :: rest =>
    ⟨kind, source.mapFragments, φ condition⟩ :: JoinClause.mapAll rest

def Body.mapFragments : Body → Body
  | ⟨source, joins, filters, keys, grouped, having, order, skip, take⟩ =>
    ⟨source.mapFragments, JoinClause.mapAll joins, filters.map φ, keys.map φ, grouped,
      having.map φ, order.map (SortKey.map φ), skip, take⟩

/-- The statement with each of its expressions replaced, in all its subqueries too. -/
def Statement.mapFragments : Statement → Statement
  | ⟨columns, body⟩ => ⟨columns.map fun c => { c with expr := φ c.expr }, body.mapFragments⟩

end

end

/-- The expressions that stand in this SELECT itself: its select list, its clauses, and the FROM
expressions of its tables. -/
def Statement.expressions (s : Statement) : List Fragment :=
  s.columns.map OutputColumn.expr ++ (s.body.fragments ++ s.body.texts)

theorem List.map_of_fixed {α : Type} {φ : α → α} {l : List α} (fixed : ∀ a ∈ l, φ a = a) :
    l.map φ = l :=
  (List.map_congr_left fixed).trans (List.map_id l)

section Fixed
variable {φ : Fragment → Fragment}

mutual

theorem Source.mapFragments_of_fixed : ∀ {source : Source}, φ source.text = source.text →
    (∀ q ∈ source.selects, ∀ f ∈ q.expressions, φ f = f) → source.mapFragments φ = source
  | .table _ id, text, _ => congrArg (Source.table · id) text
  | .subquery _ id, _, fixed =>
    congrArg (Source.subquery · id) (Statement.mapFragments_of_fixed fixed)

theorem JoinClause.mapAll_of_fixed : ∀ {joins : List JoinClause},
    (∀ j ∈ joins, φ j.source.text = j.source.text ∧ φ j.condition = j.condition) →
    (∀ q ∈ JoinClause.allSelects joins, ∀ f ∈ q.expressions, φ f = f) →
      JoinClause.mapAll φ joins = joins
  | [], _, _ => rfl
  | ⟨kind, source, condition⟩ :: rest, own, fixed => by
    obtain ⟨⟨text, met⟩, others⟩ := List.forall_mem_cons.1 own
    obtain ⟨here, later⟩ := List.forall_mem_append.1 fixed
    rw [JoinClause.mapAll, Source.mapFragments_of_fixed text here, met,
      JoinClause.mapAll_of_fixed others later]

theorem Body.mapFragments_of_fixed : ∀ {b : Body}, (∀ f ∈ b.fragments ++ b.texts, φ f = f) →
    (∀ q ∈ b.nested, ∀ f ∈ q.expressions, φ f = f) → b.mapFragments φ = b
  | ⟨source, joins, filters, keys, grouped, having, order, skip, take⟩, own, fixed => by
    obtain ⟨inSource, inJoins⟩ := List.forall_mem_append.1 fixed
    simp only [Body.fragments, Body.texts, Body.sources, List.map_cons, List.map_map,
      List.forall_mem_append, List.forall_mem_cons, List.forall_mem_map, Function.comp_apply] at own
    obtain ⟨⟨⟨⟨⟨conditions, ofFilters⟩, ofKeys⟩, ofHaving⟩, ofOrder⟩, text, texts⟩ := own
    have joined := JoinClause.mapAll_of_fixed (fun j listed => ⟨texts j listed, conditions j listed⟩)
      inJoins
    have sorted : order.map (SortKey.map φ) = order :=
      List.map_of_fixed fun key listed => by rw [SortKey.map, ofOrder key listed]
    rw [Body.mapFragments, Source.mapFragments_of_fixed text inSource, joined,
      List.map_of_fixed ofFilters, List.map_of_fixed ofKeys, List.map_of_fixed ofHaving, sorted]

theorem Statement.mapFragments_of_fixed : ∀ {s : Statement},
    (∀ q ∈ s.selects, ∀ f ∈ q.expressions, φ f = f) → s.mapFragments φ = s
  | ⟨columns, body⟩, fixed => by
    rw [Statement.selects_eq] at fixed
    obtain ⟨own, below⟩ := List.forall_mem_cons.1 fixed
    obtain ⟨selected, clauses⟩ := List.forall_mem_append.1 own
    have listed : columns.map (fun c => { c with expr := φ c.expr }) = columns :=
      List.map_of_fixed fun c member => by rw [selected c.expr (List.mem_map_of_mem member)]
    rw [Statement.mapFragments, listed, Body.mapFragments_of_fixed clauses below]

end

end Fixed

mutual

/-- Tokens get other definitions. -/
def Segment.redefine (definitions : TokenId → Fragment) : Segment → Segment
  | .token id _ => .token id (definitions id)
  | .nested inner => .nested (Fragment.redefine definitions inner)
  | .verbatim text => .verbatim text
  | .column source name => .column source name
  | .param value => .param value

def Fragment.redefine (definitions : TokenId → Fragment) : Fragment → Fragment
  | [] => []
  | segment :: rest => segment.redefine definitions :: Fragment.redefine definitions rest

end

theorem Segment.redefine_of_isBare {definitions : TokenId → Fragment} :
    ∀ {segment : Segment}, segment.IsBare → segment.redefine definitions = segment
  | .verbatim _, _ | .column _ _, _ | .param _, _ => rfl

theorem Fragment.redefine_of_spelledOut {definitions : TokenId → Fragment} {f : Fragment}
    (spelled : f.SpelledOut) : f.redefine definitions = f := by
  induction f with
  | nil => rfl
  | cons segment rest ih =>
    obtain ⟨bare, later⟩ := List.forall_mem_cons.1 spelled
    rw [Fragment.redefine, Segment.redefine_of_isBare bare, ih later]

/-- Nothing in the statement is left to be written out, at any depth. So whatever tokens come to stand
for, expanding it again changes nothing, and its text does not hang on how a token that had been
left would be written. -/
structure Statement.Finished (s : Statement) : Prop where
  spelledOut : ∀ q ∈ s.selects, ∀ f ∈ q.expressions, f.SpelledOut
  expanded : ∀ r : Redirects, s.mapFragments r.expand = s
  rendered : ∀ (style : Style) (definitions : TokenId → Fragment),
    (s.mapFragments (Fragment.redefine definitions)).render style = s.render style

theorem Statement.finished_of_spelledOut {s : Statement}
    (spelledOut : ∀ q ∈ s.selects, ∀ f ∈ q.expressions, f.SpelledOut) : s.Finished where
  spelledOut := spelledOut
  expanded r := Statement.mapFragments_of_fixed fun q nested f inside =>
    r.expand_of_spelledOut (spelledOut q nested f inside)
  rendered style definitions := by
    rw [Statement.mapFragments_of_fixed fun q nested f inside =>
      Fragment.redefine_of_spelledOut (spelledOut q nested f inside)]

namespace Build

theorem spelledOut_statement (b : Build) (body : Body) (targets : List Token) :
    ∀ f ∈ (b.statement body targets).1.expressions, f.SpelledOut := by
  have ofSource : ∀ source : Source, (source.expanded b.redirects).text.SpelledOut := by
    intro source
    cases source with
    | table text id => exact b.redirects.spelledOut_expand text
    | subquery statement id => exact fun _ none => absurd none List.not_mem_nil
  show ∀ f ∈ ((b.statement body targets).1.columns.map OutputColumn.expr ++
    ((body.expanded b.redirects).fragments ++ (body.expanded b.redirects).texts)), f.SpelledOut
  rw [columns_eq, Body.fragments_expanded, Body.texts, Body.sources_expanded]
  simp only [List.forall_mem_append, List.forall_mem_map]
  exact ⟨fun entry _ => b.redirects.spelledOut_expand _,
    fun f _ => b.redirects.spelledOut_expand f, fun source _ => ofSource source⟩

/-- A statement is finished once the subqueries that its body was given are. -/
theorem finished_statement (b : Build) {body : Body}
    (below : ∀ q ∈ body.nested, ∀ f ∈ q.expressions, f.SpelledOut) (targets : List Token) :
    (b.statement body targets).1.Finished := by
  refine Statement.finished_of_spelledOut ?_
  rw [selects_statement]
  exact List.forall_mem_cons.2 ⟨b.spelledOut_statement body targets, below⟩

end Build

/-- Every SELECT in a built body was made a statement on the way. -/
theorem View.spelledOut_nested (v : View) (used : TokenSet) (observed : Bool) (b : Build) :
    ∀ q ∈ ((v.body used observed).run b).1.nested, ∀ f ∈ q.expressions, f.SpelledOut := by
  intro q nested
  obtain ⟨visit, -, later, rfl⟩ := v.madeOn_of_mem_nested used observed b q nested
  exact later.spelledOut_statement visit.body visit.used.toList

/-- So was every subquery from the start. -/
theorem View.finished_nested (v : View) (used : TokenSet) (observed : Bool) (b : Build) :
    ∀ q ∈ ((v.body used observed).run b).1.nested, q.Finished := by
  intro q nested
  obtain ⟨visit, -, later, rfl⟩ := v.madeOn_of_mem_nested used observed b q nested
  exact later.finished_statement
    (visit.view.spelledOut_nested visit.used visit.observed visit.build) visit.used.toList

section Expanded
variable {r : Redirects}

theorem Source.expanded_eq_mapFragments {source : Source}
    (below : ∀ q ∈ source.selects, ∀ f ∈ q.expressions, f.SpelledOut) :
    source.expanded r = source.mapFragments r.expand := by
  cases source with
  | table text id => rfl
  | subquery statement id =>
    have finished := (Statement.finished_of_spelledOut (s := statement) below).expanded r
    rw [Source.expanded, Source.mapFragments, finished]

theorem JoinClause.map_expanded_eq_mapAll {joins : List JoinClause}
    (below : ∀ q ∈ JoinClause.allSelects joins, ∀ f ∈ q.expressions, f.SpelledOut) :
    joins.map (JoinClause.expanded r) = JoinClause.mapAll r.expand joins := by
  induction joins with
  | nil => rfl
  | cons j rest ih =>
    obtain ⟨kind, source, condition⟩ := j
    obtain ⟨here, later⟩ := List.forall_mem_append.1 below
    rw [List.map_cons, ih later, JoinClause.expanded, Source.expanded_eq_mapFragments here]
    rfl

/-- Expanding a body down into its subqueries comes to the same as taking these over. -/
theorem Body.expanded_eq_mapFragments {b : Body}
    (below : ∀ q ∈ b.nested, ∀ f ∈ q.expressions, f.SpelledOut) :
    b.expanded r = b.mapFragments r.expand := by
  obtain ⟨source, joins, filters, keys, grouped, having, order, skip, take⟩ := b
  obtain ⟨inSource, inJoins⟩ := List.forall_mem_append.1 below
  rw [Body.expanded, Source.expanded_eq_mapFragments inSource,
    JoinClause.map_expanded_eq_mapAll inJoins, Body.mapFragments]

end Expanded

namespace View

theorem finished_plan (v : View) (settings : Settings) (supply : Supply) :
    ((v.plan settings).run supply).1.statement.Finished := by
  let start : Build := { settings, supply }
  exact ((v.body v.template.tokenSet true).run start).2.finished_statement
    (v.spelledOut_nested v.template.tokenSet true start) v.template.tokens

theorem spelledOut_counted (v : View) (b : Build) :
    ∀ q ∈ (v.countedBody.run b).1.nested, ∀ f ∈ q.expressions, f.SpelledOut := by
  let built := (v.body .empty false).run b
  have counted : v.countedBody.run b =
      built.2.bracketIf (built.1.state.meets .aggregate) built.1 .empty :=
    (StateT.run_bind _ _ _).trans (Build.run_bracketOn _ _ _ _)
  rw [counted, Build.nested_bracketIf]
  refine List.forall_mem_append.2 ⟨?_, v.spelledOut_nested .empty false b⟩
  split
  · exact List.forall_mem_singleton.2 (built.2.spelledOut_statement built.1 [])
  · exact fun _ none => absurd none List.not_mem_nil

theorem finished_countPlan (v : View) (settings : Settings) (supply : Supply) :
    ((v.countPlan settings).run supply).1.statement.Finished := by
  let start : Build := { settings, supply }
  let counted := v.countedBody.run start
  let counter : Token := ⟨⟨counted.2.supply.tokens⟩, Fragment.verbatim "count(*)"⟩
  exact counted.2.finished_statement (v.spelledOut_counted start) [counter]

/-- A compilation goes from build to build, each one move further. In every one of them tokens stand
for output columns of subqueries that the body will hold, so no redirect leads to another, and every
expansion ends. Expanding the body may stop at its subqueries: these are finished, and so is every
statement made in the end. -/
theorem finished_body (v : View) (used : TokenSet) (observed : Bool) (settings : Settings)
    (supply : Supply) :
    let start : Build := { settings, supply }
    let built := (v.body used observed).run start
    (∃ made, start.Path (v.builds used observed start) made built.2) ∧
    (∀ b ∈ start :: v.builds used observed start, b.redirects.Among built.1.subqueries ∧
      ∀ f g, b.redirects.Expands 1 f g ↔ g = b.redirects.expand f) ∧
    (∀ r : Redirects, built.1.expanded r = built.1.mapFragments r.expand) ∧
    (∀ q ∈ built.1.nested, q.Finished) ∧
    (∀ targets, (built.2.statement built.1 targets).1.Finished) ∧
    ((v.plan settings).run supply).1.statement.Finished ∧
    ((v.countPlan settings).run supply).1.statement.Finished := by
  intro start built
  obtain ⟨made, path, inside⟩ := v.path_builds used observed start
  have below := v.spelledOut_nested used observed start
  refine ⟨⟨made, path⟩, fun b stage => ?_, fun r => Body.expanded_eq_mapFragments below,
    v.finished_nested used observed start,
    fun targets => built.2.finished_statement below targets, v.finished_plan settings supply,
    v.finished_countPlan settings supply⟩
  have among := (path.among rfl b stage).mono inside
  exact ⟨among, fun f g => among.flat.expands_iff⟩

end View
end QueryViews
