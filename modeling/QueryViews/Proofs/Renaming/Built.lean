import QueryViews.Proofs.Clauses.Visits
import QueryViews.Proofs.Renaming.Twins

/-! Building twins. Two builds may number their subqueries from different places; as long as those
numbers are paired, what they make of twin views are twins again, bracket by bracket. -/

namespace QueryViews

/-- The same key over related expressions. -/
structure SortKey.Alike {ε δ : Type} (R : ε → δ → Prop) (key : SortKey ε) (key' : SortKey δ) :
    Prop where
  expr : R key.expr key'.expr
  direction : key.direction = key'.direction
  nulls : key.nulls = key'.nulls

variable {ρ : Pairing}

/-- Templates with twin columns, one by one. -/
def Template.Twin (ρ : Pairing) (t t' : Template) : Prop :=
  List.Forall₂ (fun c c' => Token.Twin ρ c.token c'.token) t.columns t'.columns

namespace Template.Twin
variable {t t' u u' : Template}

theorem columnTokens (twin : t.Twin ρ t') :
    List.Forall₂ (Token.Twin ρ) (t.columns.map Column.token) (t'.columns.map Column.token) := by
  rw [List.forall₂_map_left_iff, List.forall₂_map_right_iff]
  exact twin

theorem tokens (twin : t.Twin ρ t') : List.Forall₂ (Token.Twin ρ) t.tokens t'.tokens :=
  Token.Twin.distinct twin.columnTokens

theorem tokenSet (twin : t.Twin ρ t') : t.tokenSet.Twin ρ t'.tokenSet :=
  .ofList twin.columnTokens

theorem scope (twin : t.Twin ρ t') : Scope.Twin ρ t.scope t'.scope := by
  apply Scope.Twin.ofList
  rw [List.forall₂_map_left_iff, List.forall₂_map_right_iff]
  exact twin.imp fun _ _ token => token.id

theorem widen (twin : t.Twin ρ t') (nullable : Bool) :
    (t.widen nullable).Twin ρ (t'.widen nullable) := by
  unfold Template.Twin Template.widen
  rw [columns_modifyColumns, columns_modifyColumns, List.forall₂_map_left_iff,
    List.forall₂_map_right_iff]
  exact twin

theorem pair (one : t.Twin ρ t') (two : u.Twin ρ u') {a b : String}
    (distinct : a ≠ b) : (Template.record (.pair a t b u distinct)).Twin ρ
      (Template.record (.pair a t' b u' distinct)) := by
  unfold Template.Twin
  rw [columns_pair, columns_pair]
  exact List.rel_append one two

end Template.Twin

inductive Step.Twin (ρ : Pairing) : Step → Step → Prop
  | filter {f f' : Fragment} : Fragment.Twin ρ f f' → Step.Twin ρ (.filter f) (.filter f')
  | project {t t' : Template} : t.Twin ρ t' → Step.Twin ρ (.project t) (.project t')
  | group {keys keys' content content' : Template} : keys.Twin ρ keys' →
    content.Twin ρ content' → Step.Twin ρ (.group keys content) (.group keys' content')
  | order {items items' : List OrderItem} :
    List.Forall₂ (SortKey.Alike (Fragment.Twin ρ)) items items' →
    Step.Twin ρ (.order items) (.order items')
  | take (count : Nat) : Step.Twin ρ (.take count) (.take count)
  | skip (count : Nat) : Step.Twin ρ (.skip count) (.skip count)
  | bracket (point : BracketPoint) : Step.Twin ρ (.bracket point) (.bracket point)

inductive View.Twin (ρ : Pairing) : View → View → Prop
  | table {text text' : Fragment} {id id' : Alias} {t t' : Template} :
    Fragment.Twin ρ text text' → ρ.source id id' → t.Twin ρ t' →
    View.Twin ρ (.table text id t) (.table text' id' t')
  | onto {v v' : View} {s s' : Step} : View.Twin ρ v v' → Step.Twin ρ s s' →
    View.Twin ρ (s.onto v) (s'.onto v')
  | join {base base' extra extra' : View} {condition condition' : Fragment} (mode : JoinMode)
    (withNull : Bool) : View.Twin ρ base base' → View.Twin ρ extra extra' →
    Fragment.Twin ρ condition condition' →
    View.Twin ρ (.join base extra mode withNull condition)
      (.join base' extra' mode withNull condition')

theorem View.Twin.template {v v' : View} (twin : v.Twin ρ v') : v.template.Twin ρ v'.template := by
  induction twin with
  | table _ _ columns => exact columns
  | onto _ step ih =>
    cases step with
    | project columns => exact columns
    | group keys content => exact keys.pair content _
    | filter | order | take | skip | bracket => exact ih
  | join _ withNull _ _ _ ofBase ofExtra => exact ofBase.pair (ofExtra.widen withNull) _

theorem View.Twin.scope {v v' : View} (twin : v.Twin ρ v') : Scope.Twin ρ v.scope v'.scope :=
  twin.template.scope

structure OutputColumn.Twin (ρ : Pairing) (c c' : OutputColumn) : Prop where
  expr : Fragment.Twin ρ c.expr c'.expr
  name : c.name = c'.name

mutual

inductive Source.Twin (ρ : Pairing) : Source → Source → Prop
  | table {text text' : Fragment} {id id' : Alias} : Fragment.Twin ρ text text' →
    ρ.source id id' → Source.Twin ρ (.table text id) (.table text' id')
  | subquery {s s' : Statement} {id id' : Alias} : Statement.Twin ρ s s' →
    ρ.source id id' → Source.Twin ρ (.subquery s id) (.subquery s' id')

inductive JoinClause.AllTwin (ρ : Pairing) : List JoinClause → List JoinClause → Prop
  | nil : JoinClause.AllTwin ρ [] []
  | cons {source source' : Source} {condition condition' : Fragment}
    {rest rest' : List JoinClause} (kind : JoinKind) : Source.Twin ρ source source' →
    Fragment.Twin ρ condition condition' → JoinClause.AllTwin ρ rest rest' →
    JoinClause.AllTwin ρ (⟨kind, source, condition⟩ :: rest) (⟨kind, source', condition'⟩ :: rest')

inductive Statement.Twin (ρ : Pairing) : Statement → Statement → Prop
  | mk {columns columns' : List OutputColumn} {source source' : Source}
    {joins joins' : List JoinClause} {filters filters' keys keys' having having' : List Fragment}
    {order order' : List OrderItem} (grouped : Bool) (skip : Nat) (take : Option Nat) :
    List.Forall₂ (OutputColumn.Twin ρ) columns columns' → Source.Twin ρ source source' →
    JoinClause.AllTwin ρ joins joins' → List.Forall₂ (Fragment.Twin ρ) filters filters' →
    List.Forall₂ (Fragment.Twin ρ) keys keys' → List.Forall₂ (Fragment.Twin ρ) having having' →
    List.Forall₂ (SortKey.Alike (Fragment.Twin ρ)) order order' →
    Statement.Twin ρ
      ⟨columns, ⟨source, joins, filters, keys, grouped, having, order, skip, take⟩⟩
      ⟨columns', ⟨source', joins', filters', keys', grouped, having', order', skip, take⟩⟩

end

structure JoinClause.Twin (ρ : Pairing) (j j' : JoinClause) : Prop where
  kind : j.kind = j'.kind
  source : Source.Twin ρ j.source j'.source
  condition : Fragment.Twin ρ j.condition j'.condition

structure Body.Twin (ρ : Pairing) (b b' : Body) : Prop where
  source : Source.Twin ρ b.source b'.source
  joins : List.Forall₂ (JoinClause.Twin ρ) b.joins b'.joins
  filters : List.Forall₂ (Fragment.Twin ρ) b.filters b'.filters
  keys : List.Forall₂ (Fragment.Twin ρ) b.keys b'.keys
  grouped : b.grouped = b'.grouped
  having : List.Forall₂ (Fragment.Twin ρ) b.having b'.having
  order : List.Forall₂ (SortKey.Alike (Fragment.Twin ρ)) b.order b'.order
  skip : b.skip = b'.skip
  take : b.take = b'.take

theorem JoinClause.allTwin {joins joins' : List JoinClause}
    (twins : List.Forall₂ (JoinClause.Twin ρ) joins joins') :
    JoinClause.AllTwin ρ joins joins' := by
  induction twins with
  | nil => exact .nil
  | @cons j j' _ _ first _ ih =>
    obtain ⟨kind, source, condition⟩ := j
    obtain ⟨kind', source', condition'⟩ := j'
    obtain rfl : kind = kind' := first.kind
    exact .cons kind first.source first.condition ih

theorem Statement.Twin.of_body {columns columns' : List OutputColumn} {b b' : Body}
    (selected : List.Forall₂ (OutputColumn.Twin ρ) columns columns') (body : b.Twin ρ b') :
    Statement.Twin ρ ⟨columns, b⟩ ⟨columns', b'⟩ := by
  obtain ⟨source, joins, filters, keys, grouped, having, order, skip, take⟩ := b
  obtain ⟨source', joins', filters', keys', grouped', having', order', skip', take'⟩ := b'
  obtain rfl : grouped = grouped' := body.grouped
  obtain rfl : skip = skip' := body.skip
  obtain rfl : take = take' := body.take
  exact .mk grouped skip take selected body.source (JoinClause.allTwin body.joins) body.filters
    body.keys body.having body.order

namespace Body.Twin
variable {b b' x x' : Body}

theorem ofSource {source source' : Source} (twin : Source.Twin ρ source source') :
    (Body.ofSource source).Twin ρ (Body.ofSource source') where
  source := twin
  joins := .nil
  filters := .nil
  keys := .nil
  grouped := rfl
  having := .nil
  order := .nil
  skip := rfl
  take := rfl

/-- Twin bodies carry the same clauses, so they are bracketed at the same places. -/
theorem state (twin : b.Twin ρ b') : b.state = b'.state := by
  have kinds : ∀ kind : JoinKind, b.joins.any (·.kind == kind) = b'.joins.any (·.kind == kind) := by
    intro kind
    have joins := twin.joins
    generalize b.joins = l, b'.joins = l' at joins
    induction joins with
    | nil => rfl
    | cons first _ ih => rw [List.any_cons, List.any_cons, first.kind, ih]
  simp only [Body.state, kinds, isEmpty_of_forall₂ twin.filters, isEmpty_of_forall₂ twin.keys,
    twin.grouped, isEmpty_of_forall₂ twin.having, isEmpty_of_forall₂ twin.order, twin.skip,
    twin.take]

theorem expanded (twin : b.Twin ρ b') {r r' : Redirects} (redirects : r.Twin ρ r') :
    (b.expanded r).Twin ρ (b'.expanded r') := by
  have fragments : ∀ {l l' : List Fragment}, List.Forall₂ (Fragment.Twin ρ) l l' →
      List.Forall₂ (Fragment.Twin ρ) (l.map r.expand) (l'.map r'.expand) := fun twins =>
    List.rel_map (fun _ _ f => redirects.expand f) twins
  have sources : ∀ {source source' : Source}, Source.Twin ρ source source' →
      Source.Twin ρ (source.expanded r) (source'.expanded r') := by
    intro source source' twin
    cases twin with
    | table text same => exact .table (redirects.expand text) same
    | subquery statement same => exact .subquery statement same
  exact
    { source := sources twin.source
      joins := List.rel_map
        (fun _ _ j => ⟨j.kind, sources j.source, redirects.expand j.condition⟩) twin.joins
      filters := fragments twin.filters
      keys := fragments twin.keys
      grouped := twin.grouped
      having := fragments twin.having
      order := List.rel_map
        (fun _ _ key => ⟨redirects.expand key.expr, key.direction, key.nulls⟩) twin.order
      skip := twin.skip
      take := twin.take }

theorem extend (twin : b.Twin ρ b') {s s' : Step} (step : s.Twin ρ s') (observed : Bool) :
    (s.extend observed b).Twin ρ (s'.extend observed b') := by
  cases step with
  | filter condition =>
    simp only [Step.extend, Body.addCondition, twin.grouped]
    split
    · exact { twin with
        grouped := rfl
        having := List.rel_append twin.having (.cons condition .nil) }
    · exact { twin with
        grouped := rfl
        filters := List.rel_append twin.filters (.cons condition .nil) }
  | group keys content =>
    have read := List.rel_map (fun _ _ t => Token.Twin.toFragment t) keys.tokens
    exact { twin with keys := read, grouped := rfl }
  | order items =>
    simp only [Step.extend]
    split
    · exact { twin with order := List.rel_append items twin.order }
    · exact twin
  | take count =>
    have window : (b.addTake count).take = (b'.addTake count).take := by
      rw [Body.addTake, Body.addTake, twin.take]
    exact { twin with take := window }
  | skip count =>
    have start : (b.addSkip count).skip = (b'.addSkip count).skip := by
      rw [Body.addSkip, Body.addSkip, twin.skip]
    have window : (b.addSkip count).take = (b'.addSkip count).take := by
      rw [Body.addSkip, Body.addSkip, twin.take]
    exact { twin with skip := start, take := window }
  | project | bracket => exact twin

theorem join (ofBase : b.Twin ρ b') (ofExtra : x.Twin ρ x') (kind : JoinKind)
    {condition condition' : Fragment} (met : Fragment.Twin ρ condition condition') :
    (b.join x kind condition).Twin ρ (b'.join x' kind condition') where
  source := ofBase.source
  joins := by
    have made : JoinClause.Twin ρ ⟨kind, x.source, condition⟩ ⟨kind, x'.source, condition'⟩ :=
      ⟨rfl, ofExtra.source, met⟩
    exact List.rel_append (List.rel_append ofBase.joins (.cons made .nil)) ofExtra.joins
  filters := List.rel_append ofBase.filters ofExtra.filters
  keys := .nil
  grouped := rfl
  having := .nil
  order := ofBase.order
  skip := ofBase.skip
  take := ofBase.take

end Body.Twin

/-- The sources that either build goes on to number are paired. -/
structure Build.Twin (ρ : Pairing) (b b' : Build) : Prop where
  settings : b.settings = b'.settings
  redirects : b.redirects.Twin ρ b'.redirects
  decisions : b.decisions = b'.decisions
  numbers : ∀ k, ρ.source ⟨b.supply.aliases + k⟩ ⟨b'.supply.aliases + k⟩

/-- A body and the build after it. -/
structure Build.TwinBodies (ρ : Pairing) (built built' : Body × Build) : Prop where
  body : built.1.Twin ρ built'.1
  build : built.2.Twin ρ built'.2

namespace Build.Twin
variable {b b' : Build} {body body' : Body}

/-- Output names go by position. -/
theorem outputNames {targets targets' : List Token}
    (twins : List.Forall₂ (Token.Twin ρ) targets targets') (settings : Settings) :
    List.Forall₂ (fun entry entry' => entry.1.Twin ρ entry'.1 ∧ entry.2 = entry'.2)
      (Build.outputNames settings targets) (Build.outputNames settings targets') := by
  have named : ∀ {l l' : List Token}, List.Forall₂ (Token.Twin ρ) l l' → ∀ name : Nat → String,
      List.Forall₂ (fun entry entry' => entry.1.Twin ρ entry'.1 ∧ entry.2 = entry'.2)
        (l.mapIdx fun index token => (token, name index))
        (l'.mapIdx fun index token => (token, name index)) := by
    intro l l' twins
    induction twins with
    | nil => exact fun _ => .nil
    | cons first _ ih =>
      intro name
      rw [List.mapIdx_cons, List.mapIdx_cons]
      exact .cons ⟨first, rfl⟩ (ih fun index => name (index + 1))
  exact named (Token.Twin.distinct twins) settings.columnName

theorem columns (twin : b.Twin ρ b') (body body' : Body) {targets targets' : List Token}
    (twins : List.Forall₂ (Token.Twin ρ) targets targets') :
    List.Forall₂ (OutputColumn.Twin ρ) (b.statement body targets).1.columns
      (b'.statement body' targets').1.columns := by
  rw [columns_eq, columns_eq, twin.settings]
  apply List.rel_map _ (outputNames twins b'.settings)
  rintro entry entry' ⟨token, name⟩
  exact ⟨twin.redirects.expandToken token, name⟩

theorem names (twin : b.Twin ρ b') (body body' : Body) {targets targets' : List Token}
    (twins : List.Forall₂ (Token.Twin ρ) targets targets') :
    List.Forall₂ (fun entry entry' => ρ.token entry.1 entry'.1 ∧ entry.2 = entry'.2)
      (b.statement body targets).2 (b'.statement body' targets').2 := by
  rw [names_eq, names_eq, twin.settings]
  apply List.rel_map _ (outputNames twins b'.settings)
  rintro entry entry' ⟨token, name⟩
  exact ⟨token.id, name⟩

theorem statement (twin : b.Twin ρ b') (bodies : body.Twin ρ body') {targets targets' : List Token}
    (twins : List.Forall₂ (Token.Twin ρ) targets targets') :
    Statement.Twin ρ (b.statement body targets).1 (b'.statement body' targets').1 :=
  .of_body (twin.columns body body' twins) (bodies.expanded twin.redirects)

theorem redirectAll (twin : b.Twin ρ b') {source source' : Alias} (same : ρ.source source source')
    {names names' : List (TokenId × String)}
    (paired : List.Forall₂ (fun entry entry' => ρ.token entry.1 entry'.1 ∧ entry.2 = entry'.2)
      names names') :
    (b.redirectAll source names).Twin ρ (b'.redirectAll source' names') := by
  refine { twin with redirects := ?_ }
  have redirects := twin.redirects
  unfold Build.redirectAll
  generalize b.redirects = r, b'.redirects = r' at redirects
  induction paired generalizing r r' with
  | nil => exact redirects
  | @cons entry entry' _ _ first _ ih =>
    obtain ⟨id, name⟩ := entry
    obtain ⟨id', name'⟩ := entry'
    obtain ⟨token, rfl⟩ := first
    exact ih _ _ (redirects.redirect token (.cons (.column name same) .nil))

theorem bracketed (twin : b.Twin ρ b') (body body' : Body) {targets targets' : List Token}
    (twins : List.Forall₂ (Token.Twin ρ) targets targets') :
    (b.bracketed body targets).Twin ρ (b'.bracketed body' targets') := by
  have numbers : ∀ k, ρ.source ⟨b.supply.aliases + 1 + k⟩ ⟨b'.supply.aliases + 1 + k⟩ := by
    intro k
    rw [Nat.add_assoc, Nat.add_assoc]
    exact twin.numbers (1 + k)
  have taken : Build.Twin ρ { b with supply := b.supply.takeAlias.2 }
      { b' with supply := b'.supply.takeAlias.2 } := { twin with numbers := numbers }
  exact taken.redirectAll (twin.numbers 0) (twin.names body body' twins)

theorem bracketIf (twin : b.Twin ρ b') (bodies : body.Twin ρ body')
    {needs needs' : AscendingSet Token} (twins : needs.Twin ρ needs') {applies applies' : Bool}
    (same : applies = applies') :
    TwinBodies ρ (b.bracketIf applies body needs) (b'.bracketIf applies' body' needs') := by
  subst same
  cases applies with
  | false => exact ⟨bodies, twin⟩
  | true =>
    constructor
    · exact .ofSource (.subquery (twin.statement bodies twins) (twin.numbers 0))
    · exact twin.bracketed body body' twins

theorem noted (twin : b.Twin ρ b') {label label' : Option String} (named : label = label')
    {state state' : ClauseSet} (same : state = state') :
    (b.noted label state).Twin ρ (b'.noted label' state') := by
  subst named same
  exact { twin with decisions := congrArg (· ++ _) twin.decisions }

end Build.Twin

namespace Step.Twin
variable {s s' : Step}

theorem reads (step : s.Twin ρ s') (observed : Bool) :
    List.Forall₂ (Token.Twin ρ) (s.reads observed) (s'.reads observed) := by
  cases step with
  | filter condition => exact condition.tokens
  | group keys content => exact keys.tokens
  | order items =>
    simp only [Step.reads]
    split
    · exact List.rel_flatMap items fun _ _ key => key.expr.tokens
    · exact .nil
  | project | take | skip | bracket => exact .nil

theorem needs (step : s.Twin ρ s') (observed : Bool) {scope scope' : Scope}
    (scopes : Scope.Twin ρ scope scope') {used used' : AscendingSet Token}
    (twin : used.Twin ρ used') :
    (s.needs observed scope used).Twin ρ (s'.needs observed scope' used') :=
  (twin.insertAll (step.reads observed)).narrow scopes

theorem observes (step : s.Twin ρ s') (observed : Bool) :
    s.observes observed = s'.observes observed := by
  cases step with
  | filter | project | group | order | take | skip | bracket => rfl

theorem brackets (step : s.Twin ρ s') (observed : Bool) {state state' : ClauseSet}
    (same : state = state') : s.brackets observed state = s'.brackets observed state' := by
  subst same
  cases step with
  | filter | project | group | order | take | skip | bracket => rfl

theorem label (step : s.Twin ρ s') : s.label = s'.label := by
  cases step with
  | filter | project | group | order | take | skip | bracket => rfl

end Step.Twin

namespace View.Twin

theorem joinNeeds {side side' : View} (twin : side.Twin ρ side') {condition condition' : Fragment}
    (met : Fragment.Twin ρ condition condition') {used used' : AscendingSet Token}
    (twins : used.Twin ρ used') :
    (side.joinNeeds condition used).Twin ρ (side'.joinNeeds condition' used') :=
  (twins.narrow twin.scope).union ((AscendingSet.Twin.ofList met.tokens).narrow twin.scope)

theorem dropsExtra {extra extra' : View} (twin : extra.Twin ρ extra') (mode : JoinMode)
    {used used' : AscendingSet Token} (twins : used.Twin ρ used') :
    extra.dropsExtra mode used ↔ extra'.dropsExtra mode used' := by
  unfold View.dropsExtra
  rw [(twins.narrow twin.scope).isEmpty]

theorem dropsBase {base base' : View} (twin : base.Twin ρ base') (mode : JoinMode)
    (withNull observed : Bool) {used used' : AscendingSet Token} (twins : used.Twin ρ used') :
    base.dropsBase mode withNull observed used ↔ base'.dropsBase mode withNull observed used' := by
  unfold View.dropsBase
  rw [(twins.narrow twin.scope).isEmpty]

/-- Twin views, asked for twin tokens in twin builds, are built as twins. -/
theorem body {v v' : View} (twin : v.Twin ρ v') :
    ∀ {used used' : AscendingSet Token}, used.Twin ρ used' → ∀ (observed : Bool) {b b' : Build},
      b.Twin ρ b' →
        Build.TwinBodies ρ ((v.body used observed).run b) ((v'.body used' observed).run b') := by
  induction twin with
  | table text same columns =>
    intro used used' _ observed b b' builds
    exact ⟨.ofSource (.table (builds.redirects.expand text) same), builds⟩
  | @onto v v' s s' input step ih =>
    intro used used' twins observed b b' builds
    have needs := step.needs observed input.scope twins
    have below := ih needs (s.observes observed) builds
    have room := (below.build.noted step.label below.body.state).bracketIf below.body needs
      (step.brackets observed below.body.state)
    simp only [run_body_onto, Build.run_makeRoom, ← step.observes]
    exact ⟨room.body.extend step observed, room.build⟩
  | @join base base' extra extra' condition condition' mode withNull ofBase ofExtra met
      baseBody extraBody =>
    intro used used' twins observed b b' builds
    have sameExtra := ofExtra.dropsExtra mode twins
    have sameBase := ofBase.dropsBase mode withNull observed twins
    by_cases withoutExtra : extra.dropsExtra mode used
    · rw [run_body_of_dropsExtra b withoutExtra,
        run_body_of_dropsExtra b' (sameExtra.1 withoutExtra)]
      exact baseBody (twins.narrow ofBase.scope) observed builds
    by_cases withoutBase : base.dropsBase mode withNull observed used
    · rw [run_body_of_dropsBase b withoutExtra withoutBase,
        run_body_of_dropsBase b' (mt sameExtra.2 withoutExtra) (sameBase.1 withoutBase)]
      exact extraBody (twins.narrow ofExtra.scope) observed builds
    have joins' : View.Joins base' extra' mode withNull used' observed :=
      ⟨mt sameExtra.2 withoutExtra, mt sameBase.2 withoutBase⟩
    have baseNeeds := ofBase.joinNeeds met twins
    have extraNeeds := ofExtra.joinNeeds met twins
    have first := baseBody baseNeeds observed builds
    have second := extraBody extraNeeds false first.build
    have closed := second.build.bracketIf first.body baseNeeds
      (congrArg (·.meets JoinMode.blockersOfBase) first.body.state)
    have last := closed.build.bracketIf second.body extraNeeds
      (congrArg₂ (fun state settings => state.meets (mode.blockersOfExtra settings.joinPolicy))
        second.body.state closed.build.settings)
    rw [run_body_of_joins b ⟨withoutExtra, withoutBase⟩, run_body_of_joins b' joins', run_sides,
      run_sides]
    exact ⟨closed.body.join last.body mode.kind met, last.build⟩

end View.Twin
end QueryViews
