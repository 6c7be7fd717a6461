import QueryViews.Proofs.Demand.Frontier
import QueryViews.Proofs.Join.Elision
import QueryViews.Proofs.Scope.JoinFree

/-! Views in which tokens keep to their places: one that a template has dropped is not come back to,
and each side of a join has tokens of its own. In the statements for such a view, no subquery
selects a column that the SELECT around it does not read. -/

namespace QueryViews
namespace View

/-- Neither side of a join goes through a token that templates of the other one have held, and the
condition goes through none that a side has dropped. -/
structure Parting (base extra : View) (condition : Fragment) : Prop where
  ofBase : base.AllTokens fun t => t.id ∉ extra.past
  ofExtra : extra.AllTokens fun t => t.id ∉ base.past
  ofCondition : ∀ t ∈ Fragment.passed (base.scope.union extra.scope) condition,
    t.id ∉ base.past ++ extra.past

instance (base extra : View) (condition : Fragment) : Decidable (base.Parting extra condition) :=
  decidable_of_iff (_ ∧ _ ∧ _)
    ⟨fun all => ⟨all.1, all.2.1, all.2.2⟩, fun p => ⟨p.ofBase, p.ofExtra, p.ofCondition⟩⟩

/-- No step recalls a dropped token, and the sides of joins are parted. A token that enters the
templates a second time is recalled there. -/
def Tidy : View → Prop
  | .table _ _ _ => True
  | .filter input condition => input.Tidy ∧ ¬ (Step.filter condition).Recalls input
  | .project input template => input.Tidy ∧ ¬ (Step.project template).Recalls input
  | .group input keys content => input.Tidy ∧ ¬ (Step.group keys content).Recalls input
  | .order input items => input.Tidy ∧ ¬ (Step.order items).Recalls input
  | .take input count => input.Tidy ∧ ¬ (Step.take count).Recalls input
  | .skip input count => input.Tidy ∧ ¬ (Step.skip count).Recalls input
  | .bracket input point => input.Tidy ∧ ¬ (Step.bracket point).Recalls input
  | .join base extra _ _ condition => base.Tidy ∧ extra.Tidy ∧ base.Parting extra condition

theorem tidy_onto {v : View} {s : Step} : (s.onto v).Tidy ↔ v.Tidy ∧ ¬ s.Recalls v := by
  cases s with
  | filter | project | group | order | take | skip | bracket => exact Iff.rfl

instance decideTidy : ∀ v : View, Decidable v.Tidy
  | .table _ _ _ => .isTrue trivial
  | .filter input _ | .project input _ | .group input _ _ | .order input _ | .take input _
  | .skip input _ | .bracket input _ => @instDecidableAnd _ _ input.decideTidy inferInstance
  | .join base extra _ _ _ =>
    @instDecidableAnd _ _ base.decideTidy (@instDecidableAnd _ _ extra.decideTidy inferInstance)

end View

/-- The token has the definition of its identity, and nothing else stands for it yet. -/
structure Token.PlainIn (definitions : TokenId → Fragment) (b : Build) (t : Token) : Prop where
  definition : t.definition = definitions t.id
  unresolved : b.redirects.lookup t.id = none

/-- Nothing is selected in vain when the view is built for some tokens. -/
def View.ExhaustsFor (v : View) (used : TokenSet) (observed : Bool) (b : Build) : Prop :=
  let built := (v.body used observed).run b
  built.2.Exhausts built.1 used.toList

section Steps
variable {definitions : TokenId → Fragment} {s : Step} {v : View} {b : Build}

/-- What is written above a tidy step, or by it, goes through no dropped token. -/
theorem Step.not_past_of_passed (kept : ¬ s.Recalls v)
    (ofStep : s.AllTokens fun t => t.definition = definitions t.id) {used : TokenSet}
    (defined : ∀ t ∈ used.toList, t.definition = definitions t.id)
    (held : ∀ t ∈ used.toList, (s.onto v).scope.contains t.id = true) (observed : Bool) :
    ∀ f ∈ used.toList.map Token.toFragment ++ s.written observed,
      ∀ u ∈ f.passed v.scope, u.id ∉ v.past := by
  have given : ∀ f ∈ s.fragments, ∀ u ∈ f.passed v.scope, u.id ∉ v.past :=
    fun f member u passed dropped => kept ⟨f, member, u, passed, dropped⟩
  intro f written
  rcases List.mem_append.1 written with above | own
  · obtain ⟨t, member, rfl⟩ := List.mem_map.1 above
    rcases Step.given_or_held ofStep (defined t member) (held t member) with named | below
    · exact given _ named
    · rw [Token.passed_toFragment below]
      exact fun u none => absurd none List.not_mem_nil
  · exact given f (Step.mem_fragments_of_written observed own)

theorem View.exhausts_onto {used : TokenSet} {observed : Bool} (kept : ¬ s.Recalls v)
    (ofStep : s.AllTokens (Token.PlainIn definitions b))
    (ofUsed : ∀ t ∈ used.toList, t.AllTokens (Token.PlainIn definitions b))
    (held : ∀ t ∈ used.toList, (s.onto v).scope.contains t.id = true) (flat : b.redirects.Flat)
    (below : v.ExhaustsFor (s.needs observed v.scope used) (s.observes observed) b) :
    (s.onto v).ExhaustsFor used observed b := by
  simp only [ExhaustsFor, run_body_onto, Build.run_makeRoom]
  let needs := s.needs observed v.scope used
  let built := (v.body needs (s.observes observed)).run b
  let noted := built.2.noted s.label built.1.state
  have flatBelow : noted.redirects.Flat := (v.grows_body needs (s.observes observed) b).flat flat
  have room := (Build.Exhausts.noted below s.label built.1.state).bracketIf flatBelow
    (s.brackets observed built.1.state)
  refine room.extend (Step.fits_bracketIf s observed noted built.1 needs) ?_
  have keeps : Build.Keeps (· ∈ v.past) b
      (noted.bracketIf (s.brackets observed built.1.state) built.1 needs).2 :=
    (v.keeps_past needs (s.observes observed) b).trans
      (keeps_closing (fun t needed => AscendingSet.contains_of_mem_narrow needed) noted _ _)
  have defined : s.AllTokens fun t => t.definition = definitions t.id :=
    fun f member => (ofStep f member).mono fun _ plain => plain.definition
  have definedAbove : ∀ t ∈ used.toList, t.AllTokens fun u => u.definition = definitions u.id :=
    fun t member => (ofUsed t member).mono fun _ plain => plain.definition
  refine keeps.reads_subset ((Build.grows_bracketIf _ _ _ _).flat flatBelow) ?plain
    (Step.not_past_of_passed kept defined (fun t member => (definedAbove t member).self) held
      observed) fun t needed => Step.exists_met definedAbove defined needed
  refine List.forall_mem_append.2 ⟨Token.allTokens_toFragments.2 fun t member => ?_,
    fun f own => ?_⟩
  · exact (ofUsed t member).mono fun _ plain => plain.unresolved
  · exact (ofStep f (Step.mem_fragments_of_written observed own)).mono
      fun _ plain => plain.unresolved

end Steps

/-- Where all that is used is held by one of two scopes, and nothing by the other one, all is held
by the first. -/
theorem AscendingSet.contains_of_isEmpty {definitions : TokenId → Fragment} {used : TokenSet}
    {one other : Scope}
    (defined : ∀ t ∈ used.toList, t.AllTokens fun u => u.definition = definitions u.id)
    (held : ∀ t ∈ used.toList, one.contains t.id = true ∨ other.contains t.id = true)
    (empty : (used.narrow other).isEmpty = true) :
    ∀ t ∈ used.toList, one.contains t.id = true := by
  intro t member
  refine (held t member).resolve_right fun inOther => ?_
  have follows : Fragment.Follows definitions (used.toList.map Token.toSegment) :=
    Fragment.follows_iff.2 (Fragment.allTokens_map_toSegment.2 defined)
  have needed := (AscendingSet.holds_narrow_iff follows other t.id).2
    ⟨t, member, t, Token.mem_frontier_self inOther, rfl⟩
  obtain ⟨u, listed, -⟩ := AscendingSet.holds_iff.1 needed
  rw [List.isEmpty_iff.1 empty] at listed
  exact absurd listed List.not_mem_nil

namespace View
section Joins
variable {definitions : TokenId → Fragment} {base extra : View} {mode : JoinMode}
  {condition : Fragment} {used : TokenSet} {observed : Bool} {b : Build}

/-- What a join asks of one side is met on a way through no token of the other side. -/
theorem exists_met_of_parted {side other : View} {whole : Scope}
    (apart : other.AllTokens fun t => t.definition = definitions t.id ∧ t.id ∉ side.past)
    (split : ∀ id, whole.contains id = true ↔
      side.scope.contains id = true ∨ other.scope.contains id = true)
    (ofUsed : ∀ t ∈ used.toList, t.AllTokens fun u => u.definition = definitions u.id)
    (ofCondition : condition.AllTokens fun u => u.definition = definitions u.id) :
    ∀ t ∈ (side.joinNeeds condition used).toList,
      ∃ f ∈ used.toList.map Token.toFragment ++ [condition], t ∈ f.frontier whole := by
  intro t needed
  obtain ⟨f, written, met⟩ := View.exists_met ofUsed ofCondition needed
  have defined : f.AllTokens fun u => u.definition = definitions u.id :=
    List.forall_mem_append.2 ⟨Token.allTokens_toFragments.2 ofUsed,
      List.forall_mem_singleton.2 ofCondition⟩ f written
  refine ⟨f, written, Fragment.mem_frontier_of_apart (fun id own => (split id).2 (.inl own)) ?_ met⟩
  refine Fragment.AllTokens.mono (fun u same inWhole outside below => ?_) defined
  have inOther := ((split u.id).1 inWhole).resolve_left (by simp [outside])
  have foreign := (apart.token same inOther).definition
  obtain ⟨notPast, held⟩ := Fragment.allTokens_frontier foreign t below
  exact notPast.self (mem_past_of_contains held)

theorem allTokens_of_joinNeeded {side : View} {P : Token → Prop}
    (all : side.AllTokens fun t => t.definition = definitions t.id ∧ P t)
    (ofUsed : ∀ t ∈ used.toList, t.AllTokens fun u => u.definition = definitions u.id)
    (ofCondition : condition.AllTokens fun u => u.definition = definitions u.id) :
    ∀ t ∈ (side.joinNeeds condition used).toList, t.AllTokens P := fun t needed =>
  all.token (allTokens_joinNeeds ofUsed ofCondition t needed).self
    (contains_of_mem_joinNeeds needed)

/-- Both sides of a join, closed off or not, still select nothing in vain. -/
theorem exhausts_sides (parting : base.Parting extra condition)
    (definedBase : base.AllTokens fun t => t.definition = definitions t.id)
    (definedExtra : extra.AllTokens fun t => t.definition = definitions t.id)
    (ofUsed : ∀ t ∈ used.toList, t.AllTokens fun u => u.definition = definitions u.id)
    (ofCondition : condition.AllTokens fun u => u.definition = definitions u.id)
    (flat : b.redirects.Flat)
    (forBase : base.ExhaustsFor (base.joinNeeds condition used) observed b)
    (forExtra : extra.ExhaustsFor (extra.joinNeeds condition used) false
      ((base.body (base.joinNeeds condition used) observed).run b).2) :
    let both := (base.sides extra mode condition used observed).run b
    both.2.Exhausts both.1.1 (base.joinNeeds condition used).toList ∧
      both.2.Exhausts both.1.2 (extra.joinNeeds condition used).toList := by
  rw [run_sides]
  let baseNeeds := base.joinNeeds condition used
  let extraNeeds := extra.joinNeeds condition used
  let first := (base.body baseNeeds observed).run b
  let second := (extra.body extraNeeds false).run first.2
  let closed := second.2.bracketIf (first.1.state.meets JoinMode.blockersOfBase) first.1 baseNeeds
  let closes := second.1.state.meets (mode.blockersOfExtra closed.2.settings.joinPolicy)
  let last := closed.2.bracketIf closes second.1 extraNeeds
  have flatFirst : first.2.redirects.Flat := (base.grows_body _ _ b).flat flat
  have flatSecond : second.2.redirects.Flat := (extra.grows_body _ _ first.2).flat flatFirst
  have flatClosed : closed.2.redirects.Flat := (Build.grows_bracketIf _ _ _ _).flat flatSecond
  have flatLast : last.2.redirects.Flat := (Build.grows_bracketIf _ _ _ _).flat flatClosed
  have ofBaseNeeds := allTokens_of_joinNeeded (definedBase.and parting.ofBase) ofUsed ofCondition
  have ofExtraNeeds := allTokens_of_joinNeeded (definedExtra.and parting.ofExtra) ofUsed ofCondition
  have ofFirst := allTokens_body parting.ofBase baseNeeds observed b flat
  have ofSecond := allTokens_body parting.ofExtra extraNeeds false first.2 flatFirst
  -- each side is left alone by what is redirected for the other one in the meantime
  have keepsSecond : Build.Keeps (· ∈ extra.past) first.2 second.2 :=
    extra.keeps_past extraNeeds false first.2
  have keepsClosed : Build.Keeps (· ∈ base.past) second.2 closed.2 :=
    keeps_closing (fun _ => contains_of_mem_joinNeeds) second.2 _ _
  have keepsLast : Build.Keeps (· ∈ extra.past) closed.2 last.2 :=
    keeps_closing (fun _ => contains_of_mem_joinNeeds) closed.2 _ _
  have baseClosed : closed.2.Exhausts closed.1 baseNeeds.toList :=
    (Build.Exhausts.keeps forBase keepsSecond flatFirst flatSecond ofFirst ofBaseNeeds).bracketIf
      flatSecond _
  have extraClosed : last.2.Exhausts last.1 extraNeeds.toList :=
    (Build.Exhausts.keeps forExtra keepsClosed flatSecond flatClosed ofSecond
      ofExtraNeeds).bracketIf flatClosed _
  exact ⟨baseClosed.keeps keepsLast flatClosed flatLast (ofFirst.bracketIf _ _ _) ofBaseNeeds,
    extraClosed⟩

theorem exhausts_join {withNull : Bool} (joins : Joins base extra mode withNull used observed)
    (parting : base.Parting extra condition)
    (all : (View.join base extra mode withNull condition).AllTokens (Token.PlainIn definitions b))
    (ofUsed : ∀ t ∈ used.toList, t.AllTokens (Token.PlainIn definitions b))
    (held : ∀ t ∈ used.toList,
      (View.join base extra mode withNull condition).scope.contains t.id = true)
    (flat : b.redirects.Flat)
    (forBase : base.ExhaustsFor (base.joinNeeds condition used) observed b)
    (forExtra : extra.ExhaustsFor (extra.joinNeeds condition used) false
      ((base.body (base.joinNeeds condition used) observed).run b).2) :
    (View.join base extra mode withNull condition).ExhaustsFor used observed b := by
  have keeps := (View.join base extra mode withNull condition).keeps_past used observed b
  have flatBoth := ((View.join base extra mode withNull condition).grows_body used observed b).flat
    flat
  rw [ExhaustsFor, run_body_of_joins b joins]
  rw [run_body_of_joins b joins] at keeps flatBoth
  let whole := base.scope.union extra.scope
  let above := used.toList.map Token.toFragment ++ [condition]
  obtain ⟨allBase, allExtra, ofCondition⟩ := all
  have plain : ∀ f ∈ above, f.AllTokens (Token.PlainIn definitions b) :=
    List.forall_mem_append.2 ⟨Token.allTokens_toFragments.2 ofUsed,
      List.forall_mem_singleton.2 ofCondition⟩
  have definedUsed : ∀ t ∈ used.toList, t.AllTokens fun u => u.definition = definitions u.id :=
    fun t member => (ofUsed t member).mono fun _ plain => plain.definition
  have definedCondition := ofCondition.mono fun _ plain => plain.definition
  have definedBase := allBase.mono fun _ plain => plain.definition
  have definedExtra := allExtra.mono fun _ plain => plain.definition
  have foreign : ∀ f ∈ above, ∀ u ∈ f.passed whole,
      u.id ∉ (View.join base extra mode withNull condition).past := by
    refine List.forall_mem_append.2 ⟨List.forall_mem_map.2 fun t member => ?_,
      List.forall_mem_singleton.2 parting.ofCondition⟩
    have inWhole := AscendingSet.contains_union.2 (contains_scope_join.1 (held t member))
    rw [Token.passed_toFragment inWhole]
    exact fun u none => absurd none List.not_mem_nil
  have onBase := exists_met_of_parted (definedExtra.and parting.ofExtra)
    (fun id => AscendingSet.contains_union) definedUsed definedCondition
  have onExtra := exists_met_of_parted (definedBase.and parting.ofBase)
    (fun id => AscendingSet.contains_union.trans or_comm) definedUsed definedCondition
  have read : ∀ needs : List Token, (∀ t ∈ needs, ∃ f ∈ above, t ∈ f.frontier whole) → _ :=
    fun needs => keeps.reads_subset flatBoth
      (fun f written => (plain f written).mono fun _ plain => plain.unresolved) foreign
  obtain ⟨ungrouped, bare⟩ := bare_sides base extra mode condition used observed b
  obtain ⟨ofBase, ofExtra⟩ := exhausts_sides parting definedBase definedExtra
    definedUsed definedCondition flat forBase forExtra
  exact ofBase.join ofExtra ungrouped bare (read _ onBase) (read _ onExtra) mode.kind

end Joins

/-- However a tidy view is used, no subquery in its body selects a column in vain. -/
theorem exhausts_body {definitions : TokenId → Fragment} (v : View) (used : TokenSet)
    (observed : Bool) (b : Build) (tidy : v.Tidy) (all : v.AllTokens (Token.PlainIn definitions b))
    (flat : b.redirects.Flat)
    (ofUsed : ∀ t ∈ used.toList, t.AllTokens (Token.PlainIn definitions b))
    (held : ∀ t ∈ used.toList, v.scope.contains t.id = true) :
    v.ExhaustsFor used observed b := by
  have defined : ∀ {used : TokenSet} {b : Build},
      (∀ t ∈ used.toList, t.AllTokens (Token.PlainIn definitions b)) →
        ∀ t ∈ used.toList, t.AllTokens fun u => u.definition = definitions u.id :=
    fun ofUsed t member => (ofUsed t member).mono fun _ plain => plain.definition
  induction v, used, observed, b using visits_induction with
  | table text id template used observed b => exact .table _ _ _ _
  | onto s v used observed b ih =>
    obtain ⟨below, kept⟩ := tidy_onto.1 tidy
    obtain ⟨ofInput, ofStep⟩ := allTokens_onto.1 all
    have asked := ofStep.needs observed ofUsed v.scope
    exact exhausts_onto kept ofStep ofUsed held flat (ih below ofInput flat
      (fun t needed => (asked t needed).1) fun t needed => (asked t needed).2)
  | baseOnly base extra mode withNull condition used observed b drops ih =>
    have inBase : ∀ t ∈ used.toList, base.scope.contains t.id = true :=
      AscendingSet.contains_of_isEmpty (defined ofUsed)
        (fun t member => contains_scope_join.1 (held t member)) drops.2
    rw [AscendingSet.narrow_eq_self inBase] at ih
    rw [ExhaustsFor, run_body_of_dropsExtra b drops, AscendingSet.narrow_eq_self inBase]
    exact ih tidy.1 all.1 flat ofUsed inBase
  | extraOnly base extra mode withNull condition used observed b keeps drops ih =>
    have inExtra : ∀ t ∈ used.toList, extra.scope.contains t.id = true :=
      AscendingSet.contains_of_isEmpty (defined ofUsed)
        (fun t member => (contains_scope_join.1 (held t member)).symm) drops.2.2.2
    rw [AscendingSet.narrow_eq_self inExtra] at ih
    rw [ExhaustsFor, run_body_of_dropsBase b keeps drops, AscendingSet.narrow_eq_self inExtra]
    exact ih tidy.2.1 all.2.1 flat ofUsed inExtra
  | both base extra mode withNull condition used observed b joins ofBase ofExtra =>
    obtain ⟨tidyBase, tidyExtra, parting⟩ := tidy
    have ofNeeds : ∀ side : View, ∀ t ∈ (side.joinNeeds condition used).toList,
        t.AllTokens (Token.PlainIn definitions b) :=
      fun side => allTokens_joinNeeds ofUsed all.2.2
    have keeps := base.keeps_past (base.joinNeeds condition used) observed b
    -- tokens of the extra side are still plain once the base side is built
    have between : extra.AllTokens (Token.PlainIn definitions
        ((base.body (base.joinNeeds condition used) observed).run b).2) :=
      (all.2.1.and parting.ofExtra).mono fun t both =>
        ⟨both.1.definition, (keeps t.id both.2).trans both.1.unresolved⟩
    refine exhausts_join joins parting all ofUsed held flat
      (ofBase tidyBase all.1 flat (ofNeeds base) fun t => contains_of_mem_joinNeeds)
      (ofExtra tidyExtra between ((base.grows_body _ _ b).flat flat) ?_
        fun t => contains_of_mem_joinNeeds)
    exact allTokens_of_joinNeeded (between.mono fun _ plain => ⟨plain.definition, plain⟩)
      (defined ofUsed) (all.2.2.mono fun _ plain => plain.definition)

/-- No subquery selects a column in vain, neither for the rows of a tidy view nor for their
number. -/
theorem readsAll_of_tidy {definitions : TokenId → Fragment} {v : View}
    (defined : v.AllTokens fun t => t.definition = definitions t.id) (tidy : v.Tidy)
    (settings : Settings) (supply : Supply) :
    (∀ s ∈ ((v.plan settings).run supply).1.statement.selects, s.ReadsAll) ∧
      ∀ s ∈ ((v.countPlan settings).run supply).1.statement.selects, s.ReadsAll := by
  let start : Build := { settings, supply }
  have plain : v.AllTokens (Token.PlainIn definitions start) :=
    defined.mono fun _ same => ⟨same, rfl⟩
  have exhausts := fun used observed =>
    v.exhausts_body used observed start tidy plain Redirects.flat_empty
  constructor
  · have ofTemplate := plain.template
    have built := exhausts v.template.tokenSet true ofTemplate.tokenSet
      fun t => Template.contains_of_mem_tokenSet
    refine (Build.Exhausts.mono built fun t member => ?_).selects (Token.nodup_distinct _)
    obtain ⟨c, inside, rfl⟩ := List.mem_map.1 (AscendingSet.mem_ofList member)
    exact Template.token_mem_tokens (fun d listed => (ofTemplate d listed).self.definition) inside
  · let counted := v.countedBody.run start
    have built : counted.2.Exhausts counted.1 [] := by
      have below := exhausts .empty false (fun _ none => absurd none List.not_mem_nil)
        fun _ none => absurd none List.not_mem_nil
      simp only [counted, run_countedBody]
      exact Build.Exhausts.bracketIf below
        ((v.grows_body .empty false start).flat Redirects.flat_empty) _
    exact (built.mono (List.nil_subset _)).selects
      (List.nodup_cons.2 ⟨List.not_mem_nil, List.nodup_nil⟩)

def petDefinitions (id : TokenId) : Fragment :=
  if id = ⟨0⟩ then ownerId.definition else petOwner.definition

/-- The steps from owners and their pets, of the first three, to the later ones of five. -/
def laterSteps : List Step :=
  [.take 5, .filter (ownerId.toFragment ++ Fragment.verbatim " > 1"), .project owners.template]

def laterOwners : View :=
  .project (.filter (.take (.join owners (.take pets 3) .left true ownedBy) 5)
    (ownerId.toFragment ++ Fragment.verbatim " > 1")) owners.template

theorem readsAll_of_tidy_owners :
    (∃ joined, owners.joined (.take pets 3) .left true ownedBy = .ok joined ∧
      joined.applyAll laterSteps = .ok laterOwners) ∧ laterOwners.Tidy ∧
    let rows := ((laterOwners.plan {}).run { tokens := 2, aliases := 2 }).1.statement
    let count := ((laterOwners.countPlan {}).run { tokens := 2, aliases := 2 }).1.statement
    (rows.selects.map fun s => s.body.selected.length) = [1, 1, 0] ∧
      (∀ s ∈ rows.selects, s.ReadsAll) ∧ ∀ s ∈ count.selects, s.ReadsAll := by
  have id : ownerId.AllTokens fun t => t.definition = petDefinitions t.id :=
    ⟨rfl, trivial, trivial⟩
  have owner : petOwner.AllTokens fun t => t.definition = petDefinitions t.id :=
    ⟨rfl, trivial, trivial⟩
  have defined : laterOwners.AllTokens fun t => t.definition = petDefinitions t.id := by
    simp [laterOwners, AllTokens, Step.AllTokens, Step.fragments, Template.AllTokens,
      Column.toFragment, owners, pets, template, ownedBy, Fragment.verbatim,
      Fragment.allTokens_toFragment, Fragment.AllTokens, Segment.AllTokens, id, owner]
  exact ⟨⟨_, rfl, rfl⟩, by decide, by decide, readsAll_of_tidy defined (by decide) {} _⟩

end View
end QueryViews
