import Mathlib.Tactic.ByContra
import QueryViews.Proofs.Clauses.Tally
import QueryViews.Proofs.Join.Elision
import QueryViews.Proofs.Join.Support
import QueryViews.Proofs.Scope.JoinFree

/-! Aggregations over all rows. Without keys and conditions on groups, nothing but the aggregates
themselves shows in the text of a SELECT that its rows are grouped. They show as long as anything
is asked of the group step. -/

namespace QueryViews

/-- Some token in it, at some depth, is one of the scope. -/
def Fragment.BuiltOn (scope : Scope) (f : Fragment) : Prop :=
  ¬ f.AllTokens fun t => scope.contains t.id = false

def Token.BuiltOn (scope : Scope) (t : Token) : Prop := t.toFragment.BuiltOn scope

namespace Body

/-- Something built on the content is selected or sorted by. -/
def Shows (b : Body) (targets : List Token) (content : Template) : Prop :=
  (∃ t ∈ targets, t.BuiltOn content.scope) ∨ ∃ item ∈ b.order, item.expr.BuiltOn content.scope

end Body

namespace AscendingSet

end AscendingSet

namespace Step
variable {s : Step} {observed : Bool} {b : Body}

end Step

/-- A group step without keys, with this content. -/
def Visit.GroupsAll (visit : Visit) (content : Template) : Prop :=
  ∃ input keys, visit.view = .group input keys content ∧ keys.columns = []

namespace View

/-- Some visit is of a group step without keys, and whatever is asked of that step shows in the
body or is built on by the targets. -/
def TracesGroup (visits : List Visit) (body : Body) (targets : List Token) : Prop :=
  ∃ group ∈ visits, ∃ content, group.GroupsAll content ∧
    (group.used.isEmpty = false → body.Shows targets content)

theorem TracesGroup.tokens {visits : List Visit} {body : Body} {template : Template}
    {definitions : TokenId → Fragment}
    (defined : ∀ c ∈ template.columns, c.token.definition = definitions c.token.id)
    (traces : TracesGroup visits body template.tokenSet.toList) :
    TracesGroup visits body template.tokens := by
  obtain ⟨group, visited, content, groups, shows⟩ := traces
  refine ⟨group, visited, content, groups, fun asked => (shows asked).imp_left ?_⟩
  rintro ⟨t, needed, built⟩
  obtain ⟨c, inside, rfl⟩ := List.mem_map.1 (AscendingSet.mem_ofList needed)
  exact ⟨c.token, Template.token_mem_tokens defined inside, built⟩

section Count
variable (v : View) (b : Build)

theorem madeOn_of_mem_countedBody :
    ∀ s ∈ (v.countedBody.run b).1.nested, MadeOn (v.visits .empty false b) s := by
  rw [run_countedBody]
  exact madeOn_bracketIf (madeOn_of_mem_nested v _ _ _) _ _

end Count

end View
end QueryViews
