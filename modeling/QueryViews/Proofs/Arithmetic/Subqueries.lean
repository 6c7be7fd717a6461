import QueryViews.Proofs.Join.Labels
import QueryViews.Proofs.Unbracketing

/-! The subqueries of a statement, each with the source that it is. Every one of them was made by a
bracket on the way to the statement, on a build that itself came of such brackets; so whatever a
token is redirected to, some subquery of the statement selects it. -/

namespace QueryViews

mutual

/-- The subqueries in it at any depth, outer ones first, each with the source that it is. -/
def Source.subqueries : Source → List (Alias × Statement)
  | .table _ _ => []
  | .subquery statement id => (id, statement) :: statement.subqueries

def JoinClause.allSubqueries : List JoinClause → List (Alias × Statement)
  | [] => []
  | ⟨_, source, _⟩ :: rest => source.subqueries ++ JoinClause.allSubqueries rest

def Statement.subqueries : Statement → List (Alias × Statement)
  | ⟨_, ⟨source, joins, _, _, _, _, _, _, _⟩⟩ =>
    source.subqueries ++ JoinClause.allSubqueries joins

end

def Body.subqueries (b : Body) : List (Alias × Statement) :=
  b.source.subqueries ++ JoinClause.allSubqueries b.joins

theorem Statement.subqueries_eq (s : Statement) : s.subqueries = s.body.subqueries := by
  obtain ⟨columns, source, joins, filters, keys, grouped, having, order, skip, take⟩ := s
  rfl

theorem JoinClause.allSubqueries_eq (joins : List JoinClause) :
    allSubqueries joins = joins.flatMap fun j => j.source.subqueries := by
  induction joins with
  | nil => rfl
  | cons j rest ih =>
    obtain ⟨kind, source, condition⟩ := j
    rw [allSubqueries, ih, List.flatMap_cons]

mutual

theorem Source.map_snd_subqueries :
    ∀ source : Source, source.subqueries.map Prod.snd = source.selects
  | .table _ _ => rfl
  | .subquery statement _ => Statement.cons_map_snd_subqueries statement

theorem JoinClause.map_snd_allSubqueries :
    ∀ joins : List JoinClause,
      (JoinClause.allSubqueries joins).map Prod.snd = JoinClause.allSelects joins
  | [] => rfl
  | ⟨_, source, _⟩ :: rest => by
    rw [JoinClause.allSubqueries, List.map_append, Source.map_snd_subqueries source,
      JoinClause.map_snd_allSubqueries rest]
    rfl

/-- The SELECTs of a statement are itself and its subqueries. -/
theorem Statement.cons_map_snd_subqueries :
    ∀ s : Statement, s :: s.subqueries.map Prod.snd = s.selects
  | ⟨columns, ⟨source, joins, filters, keys, grouped, having, order, skip, take⟩⟩ => by
    rw [Statement.subqueries, List.map_append, Source.map_snd_subqueries source,
      JoinClause.map_snd_allSubqueries joins]
    rfl

end

mutual

theorem Source.map_fst_subqueries :
    ∀ source : Source, (source.subqueries.map Prod.fst).Sublist source.aliases
  | .table _ _ => List.nil_sublist _
  | .subquery statement id => (Statement.map_fst_subqueries statement).cons_cons id

theorem JoinClause.map_fst_allSubqueries :
    ∀ joins : List JoinClause,
      ((JoinClause.allSubqueries joins).map Prod.fst).Sublist (JoinClause.allAliases joins)
  | [] => List.nil_sublist _
  | ⟨_, source, _⟩ :: rest => by
    rw [JoinClause.allSubqueries, List.map_append]
    exact (Source.map_fst_subqueries source).append (JoinClause.map_fst_allSubqueries rest)

/-- A source that is a subquery is one of the sources. -/
theorem Statement.map_fst_subqueries :
    ∀ s : Statement, (s.subqueries.map Prod.fst).Sublist s.aliases
  | ⟨_, ⟨source, joins, _, _, _, _, _, _, _⟩⟩ => by
    rw [Statement.subqueries, List.map_append]
    exact (Source.map_fst_subqueries source).append (JoinClause.map_fst_allSubqueries joins)

end

theorem Source.subqueries_expanded (r : Redirects) (s : Source) :
    (s.expanded r).subqueries = s.subqueries := by
  cases s with
  | table | subquery => rfl

namespace Body

theorem subqueries_expanded (r : Redirects) (b : Body) :
    (b.expanded r).subqueries = b.subqueries := by
  simp only [subqueries, expanded, JoinClause.allSubqueries_eq, List.flatMap_map,
    JoinClause.expanded, Source.subqueries_expanded]

theorem subqueries_join (b x : Body) (kind : JoinKind) (condition : Fragment) :
    (b.join x kind condition).subqueries = b.subqueries ++ x.subqueries := by
  simp only [subqueries, join, addJoin, JoinClause.allSubqueries_eq, List.flatMap_append,
    List.flatMap_singleton, List.append_assoc]

end Body

theorem Step.subqueries_extend (s : Step) (observed : Bool) (b : Body) :
    (s.extend observed b).subqueries = b.subqueries := by
  rw [Body.subqueries, source_extend, joins_extend, Body.subqueries]

namespace Build

theorem subqueries_statement (b : Build) (body : Body) (targets : List Token) :
    (b.statement body targets).1.subqueries = body.subqueries :=
  (Statement.subqueries_eq _).trans (Body.subqueries_expanded b.redirects body)

theorem subqueries_bracketIf (b : Build) (applies : Bool) (body : Body) (needs : TokenSet) :
    (b.bracketIf applies body needs).1.subqueries =
      (if applies then [(b.nextAlias, (b.statement body needs.toList).1)] else []) ++
        body.subqueries := by
  cases applies with
  | false => rfl
  | true =>
    have only : (b.bracketIf true body needs).1.subqueries =
        ((b.nextAlias, (b.statement body needs.toList).1) ::
          (b.statement body needs.toList).1.subqueries) ++ [] := rfl
    rw [only, List.append_nil, subqueries_statement]
    rfl

/-- The build comes of a new one by brackets of tokens with the property, and the subqueries that
they made are listed. -/
inductive Through (P : Token → Prop) (supply : Supply) (listed : List (Alias × Statement)) :
    Build → Prop
  | new (settings : Settings) : Through P supply listed { settings, supply }
  | bracket {b : Build} (earlier : Through P supply listed b) (body : Body) (used : TokenSet)
    (ofUsed : ∀ t ∈ used.toList, t.AllTokens P)
    (inside : (b.nextAlias, (b.statement body used.toList).1) ∈ listed) :
    Through P supply listed ((Building.bracket body used).run b).2
  | noted {b : Build} (earlier : Through P supply listed b) (label : Option String)
    (state : ClauseSet) : Through P supply listed (b.noted label state)

/-- A subquery that a bracket makes of tokens with the property, on such a build. -/
def MakesOn (P : Token → Prop) (supply : Supply) (listed : List (Alias × Statement))
    (entry : Alias × Statement) : Prop :=
  ∃ (b : Build) (body : Body) (used : TokenSet), Through P supply listed b ∧
    (∀ t ∈ used.toList, t.AllTokens P) ∧ entry = (b.nextAlias, (b.statement body used.toList).1)

variable {P : Token → Prop} {supply : Supply} {listed : List (Alias × Statement)} {b : Build}

theorem Through.reached (through : Through P supply listed b) : b.Reached := by
  induction through with
  | new settings => exact .new settings supply
  | bracket earlier body used ofUsed inside ih => exact ih.bracket body used
  | noted earlier label state ih => exact ih.noted label state

theorem Through.aliases_le (through : Through P supply listed b) :
    supply.aliases ≤ b.supply.aliases := by
  induction through with
  | new settings => exact Nat.le_refl _
  | bracket earlier body used ofUsed inside ih => exact Nat.le_succ_of_le ih
  | noted earlier label state ih => exact ih

/-- Closing a body off keeps such a build, if the subquery that it makes is listed. -/
theorem Through.bracketIf (through : Through P supply listed b) {body : Body} {needs : TokenSet}
    (ofNeeds : ∀ t ∈ needs.toList, t.AllTokens P)
    (ofBody : ∀ entry ∈ body.subqueries, MakesOn P supply listed entry) (applies : Bool)
    (inside : ∀ entry ∈ (b.bracketIf applies body needs).1.subqueries, entry ∈ listed) :
    Through P supply listed (b.bracketIf applies body needs).2 ∧
      ∀ entry ∈ (b.bracketIf applies body needs).1.subqueries, MakesOn P supply listed entry := by
  rw [subqueries_bracketIf] at inside ⊢
  cases applies with
  | false => exact ⟨through, ofBody⟩
  | true =>
    obtain ⟨first, -⟩ := List.forall_mem_cons.1 inside
    exact ⟨through.bracket body needs ofNeeds first,
      List.forall_mem_cons.2 ⟨⟨b, body, needs, through, ofNeeds, rfl⟩, ofBody⟩⟩

end Build

/-- Building a view makes all subqueries of its body in that way. -/
theorem View.through_body {P : Token → Prop} {supply : Supply} {listed : List (Alias × Statement)}
    (v : View) (used : TokenSet) (observed : Bool) (b : Build) (ofView : v.AllTokens P)
    (ofUsed : ∀ t ∈ used.toList, t.AllTokens P) (through : b.Through P supply listed)
    (inside : ∀ entry ∈ ((v.body used observed).run b).1.subqueries, entry ∈ listed) :
    ((v.body used observed).run b).2.Through P supply listed ∧
      ∀ entry ∈ ((v.body used observed).run b).1.subqueries,
        Build.MakesOn P supply listed entry := by
  induction v, used, observed, b using View.visits_induction with
  | table => exact ⟨through, fun _ none => absurd none List.not_mem_nil⟩
  | onto s v used observed b ih =>
    obtain ⟨ofInput, ofStep⟩ := allTokens_onto.1 ofView
    have ofNeeds := fun t member => (ofStep.needs observed ofUsed v.scope t member).1
    simp only [run_body_onto, Build.run_makeRoom, Step.subqueries_extend] at inside ⊢
    obtain ⟨built, makes⟩ := ih ofInput ofNeeds through fun entry below =>
      inside entry (by rw [Build.subqueries_bracketIf]; exact List.mem_append_right _ below)
    exact (built.noted s.label _).bracketIf ofNeeds makes _ inside
  | baseOnly base extra mode withNull condition used observed b drops ih =>
    rw [run_body_of_dropsExtra b drops] at inside ⊢
    exact ih ofView.1 (fun t member => (AscendingSet.mem_narrow ofUsed t member).1) through inside
  | extraOnly base extra mode withNull condition used observed b keeps drops ih =>
    rw [run_body_of_dropsBase b keeps drops] at inside ⊢
    exact ih ofView.2.1 (fun t member => (AscendingSet.mem_narrow ofUsed t member).1) through inside
  | both base extra mode withNull condition used observed b joins ofBase ofExtra =>
    obtain ⟨viewBase, viewExtra, ofCondition⟩ := ofView
    have asked : ∀ side : View, ∀ t ∈ (side.joinNeeds condition used).toList, t.AllTokens P :=
      fun side => allTokens_joinNeeds ofUsed ofCondition
    rw [run_body_of_joins b joins] at inside ⊢
    simp only [run_sides, Body.subqueries_join, List.forall_mem_append] at inside ⊢
    obtain ⟨inBase, inExtra⟩ := inside
    obtain ⟨first, makesFirst⟩ := ofBase viewBase (asked base) through fun entry below =>
      inBase entry (by rw [Build.subqueries_bracketIf]; exact List.mem_append_right _ below)
    obtain ⟨second, makesSecond⟩ := ofExtra viewExtra (asked extra) first fun entry below =>
      inExtra entry (by rw [Build.subqueries_bracketIf]; exact List.mem_append_right _ below)
    obtain ⟨closed, makesBase⟩ := second.bracketIf (asked base) makesFirst _ inBase
    obtain ⟨last, makesExtra⟩ := closed.bracketIf (asked extra) makesSecond _ inExtra
    exact ⟨last, makesBase, makesExtra⟩

end QueryViews
