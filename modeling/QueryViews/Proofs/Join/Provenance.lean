import QueryViews.Proofs.Join.Confined

/-! Views that calls put together from tables with columns of their own. Whatever can be reached
from the scope of such a view reads tables of the view and nothing else. -/

namespace QueryViews

theorem Build.joins_bracketIf (b : Build) (applies : Bool) (body : Body) (needs : TokenSet) :
    (b.bracketIf applies body needs).1.joins ⊆ body.joins := by
  cases applies with
  | true => exact List.nil_subset _
  | false => exact List.Subset.refl _

namespace View

/-- The view comes from accepted calls only, on tables that declare columns of their own. -/
def Legal : View → Prop
  | .table _ id template =>
    ∀ c ∈ template.columns, ∃ name, c.token.definition = Fragment.column id name
  | .filter input condition => input.Legal ∧ (Step.filter condition).Accepted input.scope
  | .project input template => input.Legal ∧ (Step.project template).Accepted input.scope
  | .group input keys content => input.Legal ∧ (Step.group keys content).Accepted input.scope
  | .order input items => input.Legal ∧ (Step.order items).Accepted input.scope
  | .take input count => input.Legal ∧ (Step.take count).Accepted input.scope
  | .skip input count => input.Legal ∧ (Step.skip count).Accepted input.scope
  | .bracket input point => input.Legal ∧ (Step.bracket point).Accepted input.scope
  | .join base extra _ _ condition => base.Legal ∧ extra.Legal ∧
    ensureSides base extra = .ok () ∧
      Fragment.inReach (base.scope.union extra.scope) condition = true

/-- No token is reached from both sides of a join, at any depth. -/
def Unmixed : View → Prop
  | .table _ _ _ => True
  | .filter input _ | .project input _ | .group input _ _ | .order input _ | .take input _
  | .skip input _ | .bracket input _ => input.Unmixed
  | .join base extra _ _ _ => base.Unmixed ∧ extra.Unmixed ∧ ∃ ofBase : TokenId → Prop,
    (base.AllTokens fun t => ofBase t.id) ∧ extra.AllTokens fun t => ¬ ofBase t.id

section
variable {v w base extra : View} {s : Step} {mode : JoinMode} {withNull : Bool}
  {condition : Fragment}

theorem legal_onto : (s.onto v).Legal ↔ v.Legal ∧ s.Accepted v.scope := by
  cases s with
  | filter | project | group | order | take | skip | bracket => exact Iff.rfl

theorem unmixed_onto : (s.onto v).Unmixed ↔ v.Unmixed := by
  cases s with
  | filter | project | group | order | take | skip | bracket => exact Iff.rfl

theorem Legal.apply (legal : v.Legal) (call : v.apply s = .ok w) : w.Legal := by
  obtain ⟨fits, rfl⟩ := apply_eq_ok_iff.1 call
  exact legal_onto.2 ⟨legal, fits⟩

theorem Legal.joined (ofBase : base.Legal) (ofExtra : extra.Legal)
    (call : base.joined extra mode withNull condition = .ok w) : w.Legal := by
  obtain ⟨sides, reached, rfl⟩ := joined_eq_ok_iff.1 call
  exact ⟨ofBase, ofExtra, sides, reached⟩

end

section
variable {definitions : TokenId → Fragment} {supply : Supply} {v : View}

theorem Legal.composed (legal : v.Legal) : v.Composed := by
  induction v using induction_onto with
  | table text id template =>
    refine .table text id template fun c inside a read => ?_
    obtain ⟨name, declared⟩ := legal c inside
    rw [Column.toFragment, Fragment.mem_sources_iff, Token.columns_toFragment, declared] at read
    obtain ⟨other, only⟩ := read
    exact congrArg Prod.fst (List.mem_singleton.1 only)
  | onto s v ih =>
    obtain ⟨below, fits⟩ := legal_onto.1 legal
    exact .apply (ih below) (apply_eq_ok_iff.2 ⟨fits, rfl⟩)
  | join base extra mode withNull condition ofBase ofExtra =>
    obtain ⟨legalBase, legalExtra, sides, reached⟩ := legal
    exact .joined (ofBase legalBase) (ofExtra legalExtra) (joined_eq_ok_iff.2 ⟨sides, reached, rfl⟩)

/-- The columns of a view read tables of the view only. -/
theorem Legal.columns_of_held (legal : v.Legal)
    (issued : v.AllTokens (Token.IssuedBy definitions supply)) :
    ∀ id, v.scope.contains id = true →
      ∀ c ∈ (definitions id).columns, v.sources.contains c.1 = true := by
  have defined := issued.mono fun _ made => made.definition
  exact (legal.composed.confined defined).columns_of_held defined

/-- The ON conditions in the body of a view read tables of the view only, written out. -/
theorem Legal.columns_of_condition (legal : v.Legal)
    (issued : v.AllTokens (Token.IssuedBy definitions supply)) (used : TokenSet) (observed : Bool)
    (b : Build) :
    ∀ j ∈ ((v.body used observed).run b).1.joins,
      ∀ c ∈ j.condition.columns, v.sources.contains c.1 = true := by
  induction v, used, observed, b using visits_induction with
  | table => exact fun j none => absurd none List.not_mem_nil
  | onto s v used observed b ih =>
    rw [run_body_onto]
    simp only [Build.run_makeRoom, Step.joins_extend, Step.sources_onto]
    intro j member
    exact ih (legal_onto.1 legal).1 (allTokens_onto.1 issued).1 j
      (Build.joins_bracketIf _ _ _ _ member)
  | baseOnly base extra mode withNull condition used observed b drops ih =>
    rw [run_body_of_dropsExtra b drops]
    exact fun j member c read =>
      contains_sources_join.2 (.inl (ih legal.1 issued.1 j member c read))
  | extraOnly base extra mode withNull condition used observed b keeps drops ih =>
    rw [run_body_of_dropsBase b keeps drops]
    exact fun j member c read =>
      contains_sources_join.2 (.inr (ih legal.2.1 issued.2.1 j member c read))
  | both base extra mode withNull condition used observed b joins ofBase ofExtra =>
    have held := Legal.columns_of_held (v := .join base extra mode withNull condition) legal issued
    obtain ⟨legalBase, legalExtra, -, reached⟩ := legal
    obtain ⟨issuedBase, issuedExtra, ofCondition⟩ := issued
    rw [run_body_of_joins b joins]
    simp only [run_sides, Body.join, Body.addJoin, List.mem_append, List.mem_singleton]
    rintro j ((inBase | rfl) | inExtra) c read
    · exact contains_sources_join.2
        (.inl (ofBase legalBase issuedBase j (Build.joins_bracketIf _ _ _ _ inBase) c read))
    · have offered : ∀ id, (base.scope.union extra.scope).contains id = true →
          ∀ c ∈ (definitions id).columns, _ := fun id inScope =>
        held id (contains_scope_join.2 (AscendingSet.contains_union.1 inScope))
      exact Fragment.columns_of_reach offered reached
        (ofCondition.mono fun _ made => made.definition) c read
    · exact contains_sources_join.2
        (.inr (ofExtra legalExtra issuedExtra j (Build.joins_bracketIf _ _ _ _ inExtra) c read))

end
end View
end QueryViews
