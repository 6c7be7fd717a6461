import QueryViews.Proofs.Clauses.Visits
import QueryViews.Proofs.Scope.JoinFree

/-! Undoing a bracket. A bracket moves the tokens that are asked of it into a subquery and lets them
stand for the columns of that subquery. Written back where these columns are read, the expressions
that the subquery selects give every expression as it stood before the bracket. -/

namespace QueryViews

/-- The expression that is selected under the name. -/
def Statement.expr? (s : Statement) (name : String) : Option Fragment :=
  (s.columns.map fun c => (c.name, c.expr)).lookup name

/-- Writes a column of the source as what the statement selects under its name. -/
def Segment.putBack (source : Alias) (s : Statement) : Segment → Fragment
  | .column a name =>
    if a = source then (s.expr? name).getD (Fragment.column a name) else Fragment.column a name
  | segment => [segment]

/-- For expressions with nothing left to expand: tokens and nested expressions stay as they are. -/
def Fragment.putBack (source : Alias) (s : Statement) (f : Fragment) : Fragment :=
  f.flatMap (Segment.putBack source s)

section PutBack
variable {source : Alias} {s : Statement}

theorem Fragment.putBack_append (f g : Fragment) :
    (f ++ g).putBack source s = f.putBack source s ++ g.putBack source s :=
  List.flatMap_append

theorem Fragment.putBack_column {name : String} {f : Fragment} (selected : s.expr? name = some f) :
    (Fragment.column source name).putBack source s = f := by
  simp [Fragment.column, putBack, Segment.putBack, selected]

theorem Fragment.putBack_column_of_ne {a : Alias} (other : a ≠ source) (name : String) :
    (Fragment.column a name).putBack source s = Fragment.column a name := by
  simp [Fragment.column, putBack, Segment.putBack, other]

/-- The token stands for columns of the source that read the same once they are put back, or it is
written out as it was. -/
def Token.Returns (source : Alias) (s : Statement) (before after : TokenId → Option Fragment)
    (t : Token) : Prop :=
  (∃ g, after t.id = some g ∧ g.putBack source s = t.toFragment.substitute before) ∨
    after t.id = none ∧ before t.id = none

variable {before after : TokenId → Option Fragment}

mutual

theorem Segment.putBack_substitute :
    ∀ {segment : Segment}, (∀ c ∈ segment.columns, c.1 ≠ source) →
      segment.AllTokens (Token.Returns source s before after) →
        Fragment.putBack source s (segment.substitute after) = segment.substitute before
  | .token id definition, fresh, ⟨self, below⟩ => by
    rcases self with ⟨g, stands, back⟩ | ⟨nothing, never⟩
    · have stands : after id = some g := stands
      have alone : Fragment.substitute before (Token.toFragment ⟨id, definition⟩) =
          (Segment.token id definition).substitute before := List.append_nil _
      rw [← alone, ← back]
      simp only [Segment.substitute, stands]
    · have nothing : after id = none := nothing
      have never : before id = none := never
      simp only [Segment.substitute, nothing, never]
      exact Fragment.putBack_substitute fresh below
  | .nested _, fresh, returns => Fragment.putBack_substitute (by exact fresh) (by exact returns)
  | .column a name, fresh, _ =>
    Fragment.putBack_column_of_ne (fresh (a, name) (List.mem_singleton_self _)) name
  | .verbatim _, _, _ | .param _, _, _ => rfl

/-- What returns for each token returns for the whole expression. -/
theorem Fragment.putBack_substitute :
    ∀ {f : Fragment}, (∀ c ∈ Fragment.columns f, c.1 ≠ source) →
      Fragment.AllTokens (Token.Returns source s before after) f →
        Fragment.putBack source s (Fragment.substitute after f) = Fragment.substitute before f
  | [], _, _ => rfl
  | _ :: _, fresh, ⟨first, rest⟩ => by
    obtain ⟨here, later⟩ := List.forall_mem_append.1 fresh
    rw [Fragment.substitute, Fragment.putBack_append, Segment.putBack_substitute here first,
      Fragment.putBack_substitute later rest, Fragment.substitute]

end

end PutBack

namespace Build

/-- The build comes of a new one by brackets. In between, decisions may be noted and numbers be
handed out for other things. -/
inductive Reached : Build → Prop
  | new (settings : Settings) (supply : Supply) : Reached { settings, supply }
  | bracket {b : Build} (earlier : Reached b) (body : Body) (used : TokenSet) :
    Reached ((Building.bracket body used).run b).2
  | noted {b : Build} (earlier : Reached b) (label : Option String) (state : ClauseSet) :
    Reached (b.noted label state)
  | handOut {b : Build} (earlier : Reached b) {supply : Supply} (later : b.supply.Before supply) :
    Reached { b with supply }

theorem Reached.bracketIf {b : Build} (reached : b.Reached) (applies : Bool) (body : Body)
    (needs : TokenSet) : (b.bracketIf applies body needs).2.Reached := by
  cases applies with
  | false => exact reached
  | true => exact reached.bracket body needs

/-- Building a view does nothing else to a build. -/
theorem Reached.body {b : Build} (reached : b.Reached) (v : View) (used : TokenSet)
    (observed : Bool) : ((v.body used observed).run b).2.Reached := by
  induction v, used, observed, b using View.visits_induction with
  | table => exact reached
  | onto s v used observed b ih =>
    rw [View.run_body_onto]
    simp only [run_makeRoom]
    exact ((ih reached).noted _ _).bracketIf _ _ _
  | baseOnly base extra mode withNull condition used observed b drops ih =>
    rw [View.run_body_of_dropsExtra b drops]
    exact ih reached
  | extraOnly base extra mode withNull condition used observed b keeps drops ih =>
    rw [View.run_body_of_dropsBase b keeps drops]
    exact ih reached
  | both base extra mode withNull condition used observed b joins ofBase ofExtra =>
    rw [View.run_body_of_joins b joins]
    simp only [View.run_sides]
    exact ((ofExtra (ofBase reached)).bracketIf _ _ _).bracketIf _ _ _

/-- Tokens stand for columns of subqueries that have been numbered already. -/
theorem Reached.lookup {b : Build} (reached : b.Reached) :
    ∀ id f, b.redirects.lookup id = some f →
      ∃ a name, f = Fragment.column a name ∧ a.index < b.supply.aliases := by
  induction reached with
  | new settings supply => exact fun id f found => nomatch found
  | @bracket b earlier body used ih =>
    intro id f found
    have found : (b.bracketed body used.toList).redirects.lookup id = some f := found
    rcases lookup_bracketed_eq_some found with kept | ⟨name, rfl⟩
    · obtain ⟨a, name, rfl, numbered⟩ := ih id f kept
      exact ⟨a, name, rfl, Nat.lt_succ_of_lt numbered⟩
    · exact ⟨b.nextAlias, name, rfl, Nat.lt_succ_self _⟩
  | noted earlier label state ih => exact ih
  | handOut earlier later ih =>
    intro id f found
    obtain ⟨a, name, rfl, numbered⟩ := ih id f found
    exact ⟨a, name, rfl, Nat.lt_of_lt_of_le numbered later.aliases⟩

theorem Reached.flat {b : Build} (reached : b.Reached) : b.redirects.Flat := by
  intro id f found
  obtain ⟨a, name, column, -⟩ := reached.lookup id f found
  exact ⟨a, name, column⟩

variable (b : Build) (body : Body) (used : TokenSet)

theorem outputNames_toList (settings : Settings) : outputNames settings used.toList =
    used.toList.mapIdx fun i t => (t, settings.columnName i) := by
  rw [outputNames, Token.distinct_of_nodup used.nodup_ids]

/-- Tokens of a set are selected one by one, in the order of the set. -/
theorem columns_statement : (b.statement body used.toList).1.columns =
    used.toList.mapIdx fun i t => ⟨b.redirects.expandToken t, b.settings.columnName i⟩ := by
  rw [columns_eq, outputNames_toList]
  exact List.ext_getElem (by simp) fun i _ _ => by simp

theorem lookup_statement {i : Nat} (inside : i < used.toList.length) :
    (b.statement body used.toList).2.lookup used.toList[i].id = some (b.settings.columnName i) := by
  refine lookup_eq_some_of_mem (nodup_names b body used.toList) ?_
  rw [names_eq, outputNames_toList]
  exact List.mem_map.2 ⟨_, List.mem_mapIdx.2 ⟨i, inside, rfl⟩, rfl⟩

theorem expr?_statement {i : Nat} (inside : i < used.toList.length) :
    (b.statement body used.toList).1.expr? (b.settings.columnName i) =
      some (b.redirects.expandToken used.toList[i]) := by
  have distinct := nodup_columnNames b body used.toList
  refine lookup_eq_some_of_mem (by rwa [List.map_map]) ?_
  rw [columns_statement]
  exact List.mem_map.2 ⟨_, List.mem_mapIdx.2 ⟨i, inside, rfl⟩, rfl⟩

variable {b}

/-- What a token stands for above a bracket is what it stood for, by way of the subquery. -/
theorem Reached.returns (reached : b.Reached) {t : Token}
    (same : ∀ u ∈ used.toList, u.id = t.id → u = t) :
    t.Returns b.nextAlias (b.statement body used.toList).1 b.redirects.lookup
      (b.bracketed body used.toList).redirects.lookup := by
  by_cases asked : t ∈ used.toList
  · obtain ⟨i, inside, rfl⟩ := List.getElem_of_mem asked
    refine .inl ⟨Fragment.column b.nextAlias (b.settings.columnName i), ?_, ?_⟩
    · rw [lookup_bracketed, b.lookup_statement body used inside]
      rfl
    · rw [Fragment.putBack_column (b.expr?_statement body used inside), Redirects.expandToken,
        Redirects.expand_of_flat reached.flat]
  · have kept : (b.bracketed body used.toList).redirects.lookup t.id = b.redirects.lookup t.id :=
      lookup_bracketed_of_unselected body fun u listed equal => asked (same u listed equal ▸ listed)
    cases found : b.redirects.lookup t.id with
    | none => exact .inr ⟨kept.trans found, found⟩
    | some g =>
      -- what an earlier bracket has left is a column of an older subquery, so nothing is put back
      obtain ⟨a, name, rfl, numbered⟩ := reached.lookup t.id g found
      have older : a ≠ b.nextAlias := fun equal => Nat.lt_irrefl _ (equal ▸ numbered)
      refine .inl ⟨_, kept.trans found, ?_⟩
      rw [Fragment.putBack_column_of_ne older]
      simp [Token.toFragment, Token.toSegment, Fragment.substitute, Segment.substitute, found]

/-- A bracket loses nothing. Its subquery selects the tokens that were asked of it as they stood,
one by one and under numbered names; they stand for these columns from now on, and no other token
changes. An expression that has not heard of the subquery is, with the selected expressions put
back, what it was before. -/
theorem Reached.putBack_bracket (reached : b.Reached) {f : Fragment}
    (fresh : ∀ c ∈ f.columns, c.1 ≠ b.nextAlias)
    (same : f.AllTokens fun t => ∀ u ∈ used.toList, u.id = t.id → u = t) :
    let bracketed := (Building.bracket body used).run b
    ∃ q : Statement, bracketed.1 = .ofSource (.subquery q b.nextAlias) ∧
      q.body = body.expanded b.redirects ∧
      q.columns = used.toList.mapIdx (fun i t =>
        ⟨b.redirects.expandToken t, b.settings.columnName i⟩) ∧
      (∀ i (inside : i < used.toList.length),
        bracketed.2.redirects.expandToken used.toList[i] =
          Fragment.column b.nextAlias (b.settings.columnName i) ∧
        q.expr? (b.settings.columnName i) = some (b.redirects.expandToken used.toList[i])) ∧
      (∀ id, used.holds id = false →
        bracketed.2.redirects.lookup id = b.redirects.lookup id) ∧
      (bracketed.2.redirects.expand f).putBack b.nextAlias q = b.redirects.expand f := by
  intro bracketed
  have flat := reached.flat
  refine ⟨(b.statement body used.toList).1, rfl, rfl, b.columns_statement body used,
    fun i inside => ?stands, fun id outside => ?kept, ?back⟩
  case stands =>
    exact ⟨expandToken_bracketed flat (b.lookup_statement body used inside),
      b.expr?_statement body used inside⟩
  case kept =>
    exact lookup_bracketed_of_unselected body fun u listed equal =>
      Bool.noConfusion (outside.symm.trans (AscendingSet.holds_iff.2 ⟨u, listed, equal⟩))
  case back =>
    show ((b.bracketed body used.toList).redirects.expand f).putBack _ _ = _
    rw [Redirects.expand_of_flat (flat_bracketed flat _ _), Redirects.expand_of_flat flat]
    exact Fragment.putBack_substitute fresh (same.mono fun t unique => reached.returns body used unique)

open View (amount billed)

/-- Three orders, of which the condition keeps some; it reads their amounts by way of a subquery. -/
def keptOrders : Body × Build :=
  let v := View.filter (.take View.orders 3) (amount.toFragment ++ Fragment.verbatim " > 1")
  (v.body (.ofList [amount]) true).run { settings := {}, supply := { tokens := 2, aliases := 1 } }

/-- Reads the amount twice, one time through what is billed. -/
def billedAbove : Fragment := billed.toFragment ++ Fragment.verbatim " > 2 * " ++ amount.toFragment

theorem putBack_bracket_billed :
    let bracketed := (Building.bracket keptOrders.1 (.ofList [billed])).run keptOrders.2
    bracketed.2.redirects.expand billedAbove =
        [.column ⟨2⟩ "value_0", .verbatim " > 2 * ", .column ⟨1⟩ "value_0"] ∧
      ∃ q : Statement, bracketed.1 = .ofSource (.subquery q ⟨2⟩) ∧
        (bracketed.2.redirects.expand billedAbove).putBack ⟨2⟩ q =
          [.column ⟨1⟩ "value_0", .verbatim " + 1", .verbatim " > 2 * ", .column ⟨1⟩ "value_0"] := by
  refine ⟨rfl, ?_⟩
  have reached : keptOrders.2.Reached := (Reached.new _ _).body _ _ _
  have fresh : ∀ c ∈ billedAbove.columns, c.1 ≠ keptOrders.2.nextAlias := by decide
  have only : ∀ t : Token, t.id ≠ billed.id → ∀ u ∈ [billed], u.id = t.id → u = t := by
    intro t other u listed same
    obtain rfl := List.mem_singleton.1 listed
    exact absurd same.symm other
  have same : billedAbove.AllTokens fun t => ∀ u ∈ [billed], u.id = t.id → u = t :=
    ⟨⟨fun u listed _ => List.mem_singleton.1 listed, ⟨only amount (by decide), trivial, trivial⟩,
      trivial, trivial⟩, trivial, ⟨only amount (by decide), trivial, trivial⟩, trivial⟩
  obtain ⟨q, made, -, -, -, -, back⟩ :=
    reached.putBack_bracket keptOrders.1 (.ofList [billed]) fresh same
  exact ⟨q, made, back⟩

end Build
end QueryViews
