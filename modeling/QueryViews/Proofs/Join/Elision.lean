import QueryViews.Proofs.StepBody
import QueryViews.Query.Compiler

/-! A lazy join that no later step reads is compiled away. Both views, with the join and without
it, take the same steps; every expression of these steps avoids what the joined side offers, so
both walks down ask for the same needs and build the same bodies. -/

namespace QueryViews

/-- No token that the step reads, at any depth, is offered by the hidden side. -/
def Step.Avoids (hidden : Scope) (s : Step) : Prop :=
  s.AllTokens fun t => hidden.contains t.id = false

/-- Steps that give the rows a shape of their own. -/
def Step.Reshapes : Step → Prop
  | .project _ | .group _ _ => True
  | .filter _ | .order _ | .take _ | .skip _ | .bracket _ => False

namespace View

/-- What two views have in common as long as nothing reads the hidden side. -/
structure Matches (hidden : Scope) (v w : View) : Prop where
  scopes : ∀ id, hidden.contains id = false → v.scope.contains id = w.scope.contains id
  bodies : ∀ used : TokenSet,
    (∀ t ∈ used.toList, t.AllTokens (fun u => hidden.contains u.id = false) ∧
      w.scope.contains t.id = true) →
    ∀ observed, v.body used observed = w.body used observed

/-- Two views with rows of one shape, which reads nothing of the hidden side. -/
structure Settled (hidden : Scope) (v w : View) : Prop where
  template : v.template = w.template
  avoids : w.template.AllTokens fun t => hidden.contains t.id = false

variable {hidden : Scope} {v w : View}

namespace Matches

theorem narrow_eq (alike : v.Matches hidden w) {needs : TokenSet}
    (avoid : ∀ t ∈ needs.toList, t.AllTokens fun u => hidden.contains u.id = false) :
    needs.narrow v.scope = needs.narrow w.scope :=
  AscendingSet.narrow_congr fun t member =>
    (avoid t member).mono fun u outside => alike.scopes u.id outside

theorem inReach (alike : v.Matches hidden w) {t : Token}
    (avoid : t.AllTokens fun u => hidden.contains u.id = false)
    (reached : t.inReach v.scope = true) : t.inReach w.scope = true := by
  have same : t.inReach v.scope = t.inReach w.scope :=
    Segment.inReach_congr (avoid.mono fun u outside => alike.scopes u.id outside)
  exact same ▸ reached

theorem accepted (alike : v.Matches hidden w) {s : Step} (avoid : s.Avoids hidden)
    (fits : s.Accepted v.scope) : s.Accepted w.scope := by
  have reach : ∀ f ∈ s.fragments, Fragment.inReach v.scope f = Fragment.inReach w.scope f := by
    intro f member
    exact Fragment.inReach_congr ((avoid f member).mono fun t outside => alike.scopes t.id outside)
  cases s with
  | filter condition => exact (reach condition (List.mem_singleton_self _)).symm.trans fits
  | project template =>
    intro t member
    exact alike.inReach (avoid.project.tokens t member) (fits t member)
  | group keys content =>
    obtain ⟨ofKeys, ofContent⟩ := avoid.group
    exact ⟨fun t member => alike.inReach (ofKeys.tokens t member) (fits.1 t member),
      fun t member => alike.inReach (ofContent.tokens t member) (fits.2 t member)⟩
  | order items =>
    intro item member
    exact (reach item.expr (List.mem_map_of_mem member)).symm.trans (fits item member)
  | take | skip | bracket => trivial

theorem scopes_onto (alike : v.Matches hidden w) (s : Step) (id : TokenId)
    (outside : hidden.contains id = false) :
    (s.onto v).scope.contains id = (s.onto w).scope.contains id := by
  cases s with
  | project | group => rfl
  | filter | order | take | skip | bracket => exact alike.scopes id outside

theorem bodies_onto (alike : v.Matches hidden w) {s : Step} (avoid : s.Avoids hidden)
    {used : TokenSet}
    (avoids : ∀ t ∈ used.toList, t.AllTokens fun u => hidden.contains u.id = false)
    (observed : Bool) : (s.onto v).body used observed = (s.onto w).body used observed := by
  have needs : s.needs observed v.scope used = s.needs observed w.scope used :=
    alike.narrow_eq fun t member =>
      (AscendingSet.mem_insertAll member).elim (avoids t) (avoid.reads observed t)
  have below := alike.bodies (s.needs observed w.scope used) (avoid.needs observed avoids w.scope)
  simp only [body_onto, needs, below]

theorem onto (alike : v.Matches hidden w) {s : Step} (avoid : s.Avoids hidden) :
    (s.onto v).Matches hidden (s.onto w) where
  scopes := alike.scopes_onto s
  bodies _ avoids := alike.bodies_onto avoid fun t member => (avoids t member).1

end Matches

theorem Settled.of_reshaping {s : Step} (avoid : s.Avoids hidden) (reshapes : s.Reshapes) :
    (s.onto v).Settled hidden (s.onto w) := by
  cases s with
  | project template => exact ⟨rfl, avoid.project⟩
  | group keys content =>
    obtain ⟨ofKeys, ofContent⟩ := avoid.group
    refine ⟨rfl, fun c (inside : c ∈ (Template.record (.pair ..)).columns) => ?_⟩
    rw [Template.columns_pair] at inside
    exact (List.mem_append.1 inside).elim (ofKeys c) (ofContent c)
  | filter | order | take | skip | bracket => exact absurd reshapes not_false

theorem Settled.onto (same : v.Settled hidden w) {s : Step} (avoid : s.Avoids hidden) :
    (s.onto v).Settled hidden (s.onto w) := by
  cases s with
  | project | group => exact .of_reshaping avoid trivial
  | filter | order | take | skip | bracket => exact ⟨same.template, same.avoids⟩

/-- Steps that are accepted above the join are accepted on the base alone, and lead to views
that still match. -/
theorem Matches.exists_applyAll (alike : v.Matches hidden w) {steps : List Step} {above : View}
    (made : v.applyAll steps = .ok above) (avoid : ∀ s ∈ steps, s.Avoids hidden) :
    ∃ alone, w.applyAll steps = .ok alone ∧ above.Matches hidden alone ∧
      (v.Settled hidden w ∨ (∃ s ∈ steps, s.Reshapes) → above.Settled hidden alone) := by
  -- on the steps in the order of the calls, so both views move on with each of them
  induction steps generalizing v w with
  | nil =>
    obtain rfl := Except.ok.inj made
    refine ⟨w, rfl, alike, fun settled => ?_⟩
    exact settled.resolve_right fun ⟨_, absent, _⟩ => absurd absent List.not_mem_nil
  | cons s rest ih =>
    obtain ⟨first, others⟩ := List.forall_mem_cons.1 avoid
    obtain ⟨middle, applied, onwards⟩ := Except.bind_eq_ok_iff.1 made
    obtain ⟨fits, rfl⟩ := apply_eq_ok_iff.1 applied
    have same : w.apply s = .ok (s.onto w) := apply_eq_ok_iff.2 ⟨alike.accepted first fits, rfl⟩
    obtain ⟨alone, finished, matching, settles⟩ := ih (alike.onto first) onwards others
    refine ⟨alone, Except.bind_eq_ok_iff.2 ⟨_, same, finished⟩, matching, fun settled => settles ?_⟩
    rcases settled with before | ⟨reshaping, listed, reshapes⟩
    · exact .inl (before.onto first)
    · rcases List.mem_cons.1 listed with rfl | later
      · exact .inl (.of_reshaping first reshapes)
      · exact .inr ⟨reshaping, later, reshapes⟩

theorem Matches.countPlan_eq (alike : v.Matches hidden w) (settings : Settings) :
    v.countPlan settings = w.countPlan settings := by
  have none : v.body .empty false = w.body .empty false :=
    alike.bodies .empty (fun _ member => absurd member List.not_mem_nil) false
  rw [countPlan, countPlan, countedBody, countedBody, none]

theorem Matches.plan_eq (alike : v.Matches hidden w) (settled : v.Settled hidden w)
    (settings : Settings) : v.plan settings = w.plan settings := by
  have needed := alike.bodies w.template.tokenSet
    (fun t member => ⟨settled.avoids.tokenSet t member, Template.contains_of_mem_tokenSet member⟩)
  rw [plan, plan, settled.template, needed]

theorem matches_lazy_join {base extra : View} {withNull : Bool} {condition : Fragment} :
    (View.join base extra .lazy withNull condition).Matches extra.scope base where
  scopes id outside := by
    rw [Bool.eq_iff_iff, contains_scope_join, outside]
    exact or_iff_left Bool.false_ne_true
  bodies used avoids observed := by
    have unread : (used.narrow extra.scope).isEmpty = true :=
      AscendingSet.isEmpty_narrow fun t member => (avoids t member).1
    have all : used.narrow base.scope = used :=
      AscendingSet.narrow_eq_self fun t member => (avoids t member).2
    simp only [body, unread, all, true_and, if_true]

/-- A lazy join cannot be told from its base by steps that read nothing of the joined side: the
steps are accepted on the base alone, and the queries are equal. The rows of both have one shape
once a step reshapes them; their number never needs one. -/
theorem compile_eq_of_unread_lazy_join {base extra joined above : View} {withNull : Bool}
    {condition : Fragment} {steps : List Step}
    (accepted : base.joined extra .lazy withNull condition = .ok joined)
    (made : joined.applyAll steps = .ok above) (avoid : ∀ s ∈ steps, s.Avoids extra.scope) :
    ∃ alone, base.applyAll steps = .ok alone ∧
      (∀ compiler : Compiler, compiler.compileCount above = compiler.compileCount alone) ∧
      ((∃ s ∈ steps, s.Reshapes) →
        ∀ compiler : Compiler, compiler.compile above = compiler.compile alone) := by
  obtain ⟨-, -, rfl⟩ := joined_eq_ok_iff.1 accepted
  obtain ⟨alone, finished, alike, settles⟩ := matches_lazy_join.exists_applyAll made avoid
  refine ⟨alone, finished, fun compiler => ?_, fun reshapes compiler => ?_⟩
  · rw [Compiler.compileCount, Compiler.compileCount, alike.countPlan_eq]
  · rw [Compiler.compile, Compiler.compile, alike.plan_eq (settles (.inr reshapes))]

def ownerId : Token := ⟨⟨0⟩, Fragment.column ⟨0⟩ "id"⟩

def petOwner : Token := ⟨⟨1⟩, Fragment.column ⟨1⟩ "owner"⟩

def owners : View := .table (Fragment.verbatim "owners") ⟨0⟩ (.ofTokens [("id", ownerId)])

def pets : View := .table (Fragment.verbatim "pets") ⟨1⟩ (.ofTokens [("owner", petOwner)])

def ownedBy : Fragment := ownerId.toFragment ++ Fragment.verbatim " = " ++ petOwner.toFragment

theorem compile_eq_of_unread_lazy_join_pets :
    ∃ joined above,
      owners.joined pets .lazy true ownedBy = .ok joined ∧
      joined.applyAll [.take 3, .project owners.template] = .ok above ∧
      ∃ alone, owners.applyAll [.take 3, .project owners.template] = .ok alone ∧
        (∀ compiler : Compiler, compiler.compileCount above = compiler.compileCount alone) ∧
        ∀ compiler : Compiler, compiler.compile above = compiler.compile alone := by
  have accepted : owners.joined pets .lazy true ownedBy =
      .ok (.join owners pets .lazy true ownedBy) := rfl
  have made : (View.join owners pets .lazy true ownedBy).applyAll
      [.take 3, .project owners.template] =
        .ok (.project (.take (.join owners pets .lazy true ownedBy) 3) owners.template) := rfl
  have avoid : ∀ s ∈ [Step.take 3, .project owners.template], s.Avoids pets.scope := by
    refine List.forall_mem_cons.2 ⟨?_, List.forall_mem_singleton.2 fun f named => ?_⟩
    · exact fun f absent => absurd absent List.not_mem_nil
    · obtain rfl := List.mem_singleton.1 named
      exact ⟨⟨rfl, trivial, trivial⟩, trivial⟩
  obtain ⟨alone, finished, counts, rows⟩ := compile_eq_of_unread_lazy_join accepted made avoid
  exact ⟨_, _, accepted, made, alone, finished, counts,
    rows ⟨.project owners.template, by simp, trivial⟩⟩

end View
end QueryViews
