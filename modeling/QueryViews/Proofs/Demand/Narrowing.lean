import Mathlib.Logic.Relation
import QueryViews.Proofs.Join.Asked
import QueryViews.Proofs.Scope.JoinFree

/-! Narrowed needs are the frontier of the needs: the tokens of the scope at the ends of the ways
down that lead past no other token of it. Which parts the definitions share makes no difference,
nor does the order in which the needs are walked. -/

namespace QueryViews

/-- A way down leads on from the first token, which the scope does not hold, to the second, which
the first is defined by. -/
def Token.Passes (scope : Scope) (t u : Token) : Prop :=
  scope.contains t.id = false ∧ u ∈ t.dependencies

namespace Token
variable {scope : Scope} {t u : Token}

theorem frontier_of_outside (outside : scope.contains t.id = false) :
    t.frontier scope = t.dependencies.flatMap (Token.frontier scope) := by
  rw [Token.frontier, toSegment, Segment.frontier, outside, if_neg Bool.false_ne_true,
    Fragment.frontier_eq_tokens, dependencies]

theorem mem_frontier_of_passes {d : Token} (passes : t.Passes scope d)
    (met : u ∈ d.frontier scope) : u ∈ t.frontier scope := by
  rw [frontier_of_outside passes.1]
  exact List.mem_flatMap.2 ⟨d, passes.2, met⟩

end Token

mutual

theorem Segment.exists_way {scope : Scope} {u : Token} :
    ∀ {segment : Segment}, u ∈ segment.frontier scope →
      ∃ t ∈ segment.tokens, Relation.ReflTransGen (Token.Passes scope) t u
  | .token id definition, met => by
    unfold Segment.frontier at met
    refine ⟨⟨id, definition⟩, List.mem_singleton_self _, ?_⟩
    cases held : scope.contains id with
    | true =>
      rw [held, if_pos rfl] at met
      rw [List.mem_singleton.1 met]
    | false =>
      rw [held, if_neg Bool.false_ne_true] at met
      obtain ⟨d, named, way⟩ := Fragment.exists_way met
      exact way.head ⟨held, named⟩
  | .nested _, met => Fragment.exists_way (by exact met)
  | .verbatim _, met | .column _ _, met | .param _, met => absurd met List.not_mem_nil

/-- What is met is at the end of a way down from a token that the fragment names. -/
theorem Fragment.exists_way {scope : Scope} {u : Token} :
    ∀ {f : Fragment}, u ∈ Fragment.frontier scope f →
      ∃ t ∈ Fragment.tokens f, Relation.ReflTransGen (Token.Passes scope) t u
  | [], met => absurd met List.not_mem_nil
  | _ :: _, met => by
    rcases List.mem_append.1 met with first | later
    · obtain ⟨t, named, way⟩ := Segment.exists_way first
      exact ⟨t, List.mem_append_left _ named, way⟩
    · obtain ⟨t, named, way⟩ := Fragment.exists_way later
      exact ⟨t, List.mem_append_right _ named, way⟩

end

theorem Token.mem_frontier_iff {scope : Scope} {t u : Token} :
    u ∈ t.frontier scope ↔
      scope.contains u.id = true ∧ Relation.ReflTransGen (Token.Passes scope) t u := by
  constructor
  · intro met
    have held := (Segment.allTokens_frontier t.toSegment.allTokens_true u met).2
    obtain ⟨v, named, way⟩ := Segment.exists_way met
    obtain rfl : v = t := List.mem_singleton.1 named
    exact ⟨held, way⟩
  · rintro ⟨held, way⟩
    induction way using Relation.ReflTransGen.head_induction_on with
    | refl => exact mem_frontier_self held
    | head passes _ met => exact mem_frontier_of_passes passes met

namespace AscendingSet
variable {definitions : TokenId → Fragment} {needs more : TokenSet}

/-- Where identities stand for one definition each, a union has the members of both sets. -/
theorem mem_union_iff
    (ofNeeds : ∀ t ∈ needs.toList, t.definition = definitions t.id)
    (ofMore : ∀ t ∈ more.toList, t.definition = definitions t.id) {u : Token} :
    u ∈ (needs.union more).toList ↔ u ∈ needs.toList ∨ u ∈ more.toList := by
  refine ⟨mem_union, fun either => ?_⟩
  have ofUnion : ∀ t ∈ (needs.union more).toList, t.definition = definitions t.id :=
    fun t member => (mem_union member).elim (ofNeeds t) (ofMore t)
  refine mem_of_holds ofUnion (either.elim (ofNeeds u) (ofMore u)) (holds_union.2 ?_)
  exact either.imp (fun member => holds_iff.2 ⟨u, member, rfl⟩)
    fun member => holds_iff.2 ⟨u, member, rfl⟩

theorem narrow_union (scope : Scope)
    (ofNeeds : ∀ t ∈ needs.toList, t.AllTokens fun u => u.definition = definitions u.id)
    (ofMore : ∀ t ∈ more.toList, t.AllTokens fun u => u.definition = definitions u.id) :
    (needs.union more).narrow scope = (needs.narrow scope).union (more.narrow scope) := by
  have ofUnion : ∀ t ∈ (needs.union more).toList,
      t.AllTokens fun u => u.definition = definitions u.id :=
    fun t member => (mem_union member).elim (ofNeeds t) (ofMore t)
  refine ext (eq_of_ascending (AscendingSet.ascending _) (AscendingSet.ascending _) fun u => ?_)
  rw [mem_narrow_iff ofUnion,
    mem_union_iff (fun t met => (mem_narrow ofNeeds t met).1.self)
      (fun t met => (mem_narrow ofMore t met).1.self),
    mem_narrow_iff ofNeeds, mem_narrow_iff ofMore]
  simp only [mem_union_iff (fun t member => (ofNeeds t member).self)
    (fun t member => (ofMore t member).self), or_and_right, exists_or]

/-- Narrowing gives the tokens of the scope that a way down from the needs leads to past no other
token of the scope. So it can be done for parts of the needs, gives no less for more needs, and is
done once it has been done. -/
theorem narrow_leads_to (scope : Scope)
    (ofNeeds : ∀ t ∈ needs.toList, t.AllTokens fun u => u.definition = definitions u.id)
    (ofMore : ∀ t ∈ more.toList, t.AllTokens fun u => u.definition = definitions u.id) :
    (∀ u, u ∈ (needs.narrow scope).toList ↔ scope.contains u.id = true ∧
      ∃ t ∈ needs.toList, Relation.ReflTransGen (Token.Passes scope) t u) ∧
    (needs.union more).narrow scope = (needs.narrow scope).union (more.narrow scope) ∧
    (needs.toList ⊆ more.toList → (needs.narrow scope).toList ⊆ (more.narrow scope).toList) ∧
    (needs.narrow scope).narrow scope = needs.narrow scope := by
  refine ⟨fun u => ?_, narrow_union scope ofNeeds ofMore, fun within u met => ?_, ?_⟩
  · simp only [mem_narrow_iff ofNeeds, Token.mem_frontier_iff]
    constructor
    · rintro ⟨t, member, held, way⟩
      exact ⟨held, t, member, way⟩
    · rintro ⟨held, t, member, way⟩
      exact ⟨t, member, held, way⟩
  · obtain ⟨t, member, met⟩ := (mem_narrow_iff ofNeeds).1 met
    exact (mem_narrow_iff ofMore).2 ⟨t, within member, met⟩
  · exact narrow_eq_self fun t met => contains_of_mem_narrow met

open View (amount billed)

/-- Built on the amount twice, one time through what is billed. -/
def markup : Token :=
  ⟨⟨2⟩, Fragment.nest (billed.toFragment ++ Fragment.verbatim " / ") ++ amount.toFragment⟩

def markupDefinitions (id : TokenId) : Fragment :=
  if id = ⟨2⟩ then markup.definition else View.orderDefinitions id

theorem narrow_leads_to_amount :
    let needs : TokenSet := .ofList [markup, billed]
    let more : TokenSet := .ofList [billed, amount]
    let scope : Scope := .ofList [amount.id]
    needs.narrow scope = .ofList [amount] ∧
      (∃ t ∈ needs.toList, Relation.ReflTransGen (Token.Passes scope) t amount) ∧
      (needs.union more).narrow scope = (needs.narrow scope).union (more.narrow scope) ∧
      (needs.narrow scope).narrow scope = needs.narrow scope := by
  intro needs more scope
  have ofAmount : amount.AllTokens fun t => t.definition = markupDefinitions t.id :=
    ⟨rfl, trivial, trivial⟩
  have ofBilled : billed.AllTokens fun t => t.definition = markupDefinitions t.id :=
    ⟨rfl, ofAmount, trivial, trivial⟩
  have ofMarkup : markup.AllTokens fun t => t.definition = markupDefinitions t.id :=
    ⟨rfl, ⟨ofBilled, trivial, trivial⟩, ofAmount, trivial⟩
  have ofNeeds : ∀ t ∈ needs.toList, t.AllTokens fun u => u.definition = markupDefinitions u.id :=
    List.forall_mem_cons.2 ⟨ofBilled, List.forall_mem_singleton.2 ofMarkup⟩
  have ofMore : ∀ t ∈ more.toList, t.AllTokens fun u => u.definition = markupDefinitions u.id :=
    List.forall_mem_cons.2 ⟨ofAmount, List.forall_mem_singleton.2 ofBilled⟩
  obtain ⟨leads, split, -, again⟩ := narrow_leads_to scope ofNeeds ofMore
  have met : needs.narrow scope = .ofList [amount] := rfl
  have listed : amount ∈ (needs.narrow scope).toList := List.mem_singleton_self amount
  exact ⟨met, ((leads amount).1 listed).2, split, again⟩

end AscendingSet
end QueryViews
