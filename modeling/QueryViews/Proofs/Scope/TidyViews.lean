import QueryViews.Proofs.Demand.Tidy
import QueryViews.Proofs.Join.Orderly
import QueryViews.Proofs.Join.Provenance

/-! Tidy views are well scoped, whatever their shape. What a step or a condition goes through on the
way down to the tokens in scope stands for nothing but its definition, and the tokens in scope are
offered by the sources that the step or condition is put above. -/

namespace QueryViews

theorem Fragment.ReadsOnly.mono {few many : List Source} {f : Fragment} (reads : f.ReadsOnly few)
    (within : few ⊆ many) : f.ReadsOnly many := by
  intro c read
  obtain ⟨s, inside, offered⟩ := reads c read
  exact ⟨s, within inside, offered⟩

mutual

theorem Segment.readsOnly_of_reach {resolve : TokenId → Option Fragment} {scope : Scope}
    {sources : List Source} :
    ∀ {segment : Segment}, segment.inReach scope = true →
      (∀ t ∈ segment.passed scope, resolve t.id = none) →
      (∀ t ∈ segment.frontier scope,
        Fragment.ReadsOnly sources (t.toSegment.substitute resolve)) →
        Fragment.ReadsOnly sources (segment.substitute resolve)
  | .token id definition, reached, free, met => by
    rw [Segment.inReach_token, Bool.or_eq_true] at reached
    unfold Segment.passed at free
    unfold Segment.frontier at met
    by_cases held : scope.contains id = true
    · rw [if_pos held] at met
      exact met _ (List.mem_singleton_self _)
    · rw [if_neg held] at free met
      obtain ⟨self, below⟩ := List.forall_mem_cons.1 free
      have replaced : (Segment.token id definition).substitute resolve =
          Fragment.substitute resolve definition := by
        rw [Segment.substitute, show resolve id = none from self]
      rw [replaced]
      exact Fragment.readsOnly_of_reach (reached.resolve_left held) below met
  | .nested _, reached, free, met =>
    Fragment.readsOnly_of_reach (by exact reached) (by exact free) (by exact met)
  | .column _ _, reached, _, _ => nomatch reached
  | .verbatim _, _, _, _ | .param _, _, _, _ => fun _ none => absurd none List.not_mem_nil

/-- What is in reach of a scope, on a way through no replaced token, reads the sources that are read
for what the scope holds. -/
theorem Fragment.readsOnly_of_reach {resolve : TokenId → Option Fragment} {scope : Scope}
    {sources : List Source} :
    ∀ {f : Fragment}, Fragment.inReach scope f = true →
      (∀ t ∈ Fragment.passed scope f, resolve t.id = none) →
      (∀ t ∈ Fragment.frontier scope f,
        Fragment.ReadsOnly sources (t.toSegment.substitute resolve)) →
        Fragment.ReadsOnly sources (Fragment.substitute resolve f)
  | [], _, _, _ => fun _ none => absurd none List.not_mem_nil
  | _ :: _, reached, free, met => by
    obtain ⟨first, rest⟩ := Bool.and_eq_true_iff.1 reached
    obtain ⟨freeFirst, freeRest⟩ := List.forall_mem_append.1 free
    obtain ⟨metFirst, metRest⟩ := List.forall_mem_append.1 met
    rw [Fragment.substitute, Fragment.readsOnly_append]
    exact ⟨Segment.readsOnly_of_reach first freeFirst metFirst,
      Fragment.readsOnly_of_reach rest freeRest metRest⟩

end

theorem Build.Keeps.readsOnly_expand {own : TokenId → Prop} {b later : Build}
    (keeps : Keeps own b later) (flat : later.redirects.Flat) {scope : Scope}
    {sources : List Source} {f : Fragment} (reached : f.inReach scope = true)
    (fresh : f.AllTokens fun t => b.redirects.lookup t.id = none)
    (foreign : ∀ u ∈ f.passed scope, ¬ own u.id)
    (met : ∀ t ∈ f.frontier scope, (later.redirects.expandToken t).ReadsOnly sources) :
    (later.redirects.expand f).ReadsOnly sources := by
  rw [Redirects.expand_of_flat flat]
  refine Fragment.readsOnly_of_reach reached (fun u passed => ?_) fun t below => ?_
  · exact (keeps u.id (foreign u passed)).trans (Fragment.allTokens_passed fresh u passed)
  · have reads := met t below
    rw [Redirects.expandToken, Redirects.expand_of_flat flat] at reads
    exact (Fragment.readsOnly_append.1 reads).1

/-- The body can be made a statement for the targets: all that it writes or selects is read from its
own sources, and its subqueries are well scoped. -/
structure Build.Shows (b : Build) (body : Body) (targets : List Token) : Prop where
  nested : ∀ s ∈ body.sources, s.WellScoped
  own : ∀ f ∈ targets.map Token.toFragment ++ body.fragments,
    (b.redirects.expand f).ReadsOnly body.sources

theorem JoinClause.allWellScoped_iff {joins : List JoinClause} :
    AllWellScoped joins ↔ ∀ j ∈ joins, j.source.WellScoped := by
  induction joins with
  | nil => exact ⟨fun _ _ none => absurd none List.not_mem_nil, fun _ => trivial⟩
  | cons j rest ih =>
    obtain ⟨kind, source, condition⟩ := j
    rw [AllWellScoped, List.forall_mem_cons, ih]

namespace Body

theorem wellScoped_iff {b : Body} : b.WellScoped ↔
    (∀ s ∈ b.sources, s.WellScoped) ∧ ∀ f ∈ b.fragments, f.ReadsOnly b.sources := by
  rw [WellScoped, sources, List.forall_mem_cons, List.forall_mem_map, JoinClause.allWellScoped_iff,
    and_assoc]

theorem sources_extend (s : Step) (observed : Bool) (b : Body) :
    (s.extend observed b).sources = b.sources := by
  rw [sources, Step.source_extend, Step.joins_extend, sources]

theorem sources_join (b x : Body) (kind : JoinKind) (condition : Fragment) :
    (b.join x kind condition).sources = b.sources ++ x.sources := by
  simp [sources, join, addJoin]

theorem fragments_join_subset (b x : Body) (kind : JoinKind) (condition : Fragment) :
    (b.join x kind condition).fragments ⊆ condition :: (b.fragments ++ x.fragments) := by
  intro f member
  simp only [fragments, join, addJoin] at member ⊢
  grind

end Body

namespace Build.Shows
variable {b later : Build} {body other : Body} {needs targets : List Token}

theorem sees (shows : b.Shows body targets) {t : Token} (member : t ∈ targets) :
    (b.redirects.expandToken t).ReadsOnly body.sources :=
  shows.own _ (List.mem_append_left _ (List.mem_map_of_mem member))

theorem noted (shows : b.Shows body targets) (label : Option String) (state : ClauseSet) :
    (b.noted label state).Shows body targets :=
  ⟨shows.nested, shows.own⟩

theorem mono (shows : b.Shows body targets) (within : needs ⊆ targets) : b.Shows body needs where
  nested := shows.nested
  own f written := shows.own f (List.append_subset.2 ⟨List.Subset.trans (List.map_subset _ within)
    (List.subset_append_left _ _), List.subset_append_right _ _⟩ written)

/-- Redirects of tokens that are no part of the body and its targets make no difference. -/
theorem keeps {own : TokenId → Prop} (shows : b.Shows body targets) (keeps : Keeps own b later)
    (flat : b.redirects.Flat) (flatLater : later.redirects.Flat)
    (ofBody : body.AllTokens fun t => ¬ own t.id)
    (ofTargets : ∀ t ∈ targets, t.AllTokens fun u => ¬ own u.id) :
    later.Shows body targets where
  nested := shows.nested
  own f written := by
    have foreign : f.AllTokens fun t => ¬ own t.id :=
      List.forall_mem_append.2 ⟨Token.allTokens_toFragments.2 ofTargets,
        fun f clause => ofBody f (List.mem_append_left _ clause)⟩ f written
    rw [keeps.expand_eq flat flatLater foreign]
    exact shows.own f written

theorem wellScoped (shows : b.Shows body targets) : (b.statement body targets).1.WellScoped := by
  obtain ⟨ofTargets, ofBody⟩ := List.forall_mem_append.1 shows.own
  have expanded : (body.expanded b.redirects).WellScoped := by
    rw [Body.wellScoped_iff, Body.fragments_expanded, Body.sources_expanded, List.forall_mem_map,
      List.forall_mem_map, ← Body.sources_expanded]
    exact ⟨fun s inside => Source.wellScoped_expanded.2 (shows.nested s inside),
      fun f clause => Body.readsOnly_expanded.2 (ofBody f clause)⟩
  refine Statement.wellScoped_iff.2 ⟨expanded, ?_⟩
  rw [columns_eq, List.forall_mem_map]
  exact fun entry listed => Body.readsOnly_expanded.2 (shows.sees (mem_of_mem_outputNames listed))

/-- A subquery shows what was asked of its body, in columns of its own. -/
theorem bracketIf {asked : TokenSet} (shows : b.Shows body asked.toList) (flat : b.redirects.Flat)
    (applies : Bool) :
    (b.bracketIf applies body asked).2.Shows (b.bracketIf applies body asked).1 asked.toList := by
  cases applies with
  | false => exact shows
  | true =>
    let subquery := Source.subquery (b.statement body asked.toList).1 b.nextAlias
    refine ⟨fun s (inside : s ∈ [subquery]) => ?_, fun f written => ?_⟩
    · obtain rfl := List.mem_singleton.1 inside
      exact shows.wellScoped
    · have selected : f ∈ asked.toList.map Token.toFragment ++ [] := written
      rw [List.append_nil] at selected
      obtain ⟨t, needed, rfl⟩ := List.mem_map.1 selected
      obtain ⟨name, found⟩ : ∃ name, (b.statement body asked.toList).2.lookup t.id = some name :=
        exists_lookup needed
      obtain ⟨u, -, -, column⟩ := column_of_lookup found
      show ((b.bracketed body asked.toList).redirects.expandToken t).ReadsOnly [subquery]
      rw [expandToken_bracketed flat found]
      exact Fragment.readsOnly_column.2 ⟨rfl, _, column, rfl⟩

theorem extend {s : Step} {observed : Bool} (shows : b.Shows body needs)
    (above : ∀ f ∈ targets.map Token.toFragment ++ s.written observed,
      (b.redirects.expand f).ReadsOnly body.sources) :
    b.Shows (s.extend observed body) targets := by
  obtain ⟨ofTargets, ofStep⟩ := List.forall_mem_append.1 above
  refine ⟨?_, List.forall_mem_append.2 ⟨?_, fun f clause => ?_⟩⟩
  · rw [Body.sources_extend]
    exact shows.nested
  · rw [Body.sources_extend]
    exact ofTargets
  · rw [Body.sources_extend]
    rcases Step.of_mem_extend clause with before | added
    · exact shows.own f (List.mem_append_right _ before)
    · exact ofStep f added

theorem join {asked : List Token} {condition : Fragment} (ofBase : b.Shows body needs)
    (ofExtra : b.Shows other asked)
    (above : ∀ f ∈ targets.map Token.toFragment ++ [condition],
      (b.redirects.expand f).ReadsOnly (body.sources ++ other.sources)) (kind : JoinKind) :
    b.Shows (body.join other kind condition) targets := by
  obtain ⟨ofTargets, ofCondition⟩ := List.forall_mem_append.1 above
  refine ⟨?_, ?_⟩
  · rw [Body.sources_join]
    exact List.forall_mem_append.2 ⟨ofBase.nested, ofExtra.nested⟩
  · rw [Body.sources_join]
    refine List.forall_mem_append.2 ⟨ofTargets, fun f clause => ?_⟩
    rcases List.mem_cons.1 (Body.fragments_join_subset _ _ _ _ clause) with rfl | side
    · exact ofCondition _ (List.mem_singleton_self _)
    · rcases List.mem_append.1 side with inBase | inExtra
      · exact (ofBase.own f (List.mem_append_right _ inBase)).mono (List.subset_append_left _ _)
      · exact (ofExtra.own f (List.mem_append_right _ inExtra)).mono (List.subset_append_right _ _)

end Build.Shows

namespace View

/-- Accepted calls have made the view, tokens keep to their places in it, and none of them has been
redirected yet. -/
structure Plain (definitions : TokenId → Fragment) (supply : Supply) (v : View) (b : Build) :
    Prop where
  legal : v.Legal
  tidy : v.Tidy
  issued : v.AllTokens (Token.IssuedBy definitions supply)
  fresh : v.AllTokens fun t => b.redirects.lookup t.id = none
  flat : b.redirects.Flat

/-- The tokens are held by the view, under the definitions that they have there. -/
def Holds (definitions : TokenId → Fragment) (v : View) (used : TokenSet) : Prop :=
  ∀ t ∈ used.toList, t.definition = definitions t.id ∧ v.scope.contains t.id = true

/-- The view is built to a body that shows what is used of it. -/
def ShowsFor (v : View) (used : TokenSet) (observed : Bool) (b : Build) : Prop :=
  let built := (v.body used observed).run b
  built.2.Shows built.1 used.toList

section
variable {definitions : TokenId → Fragment} {supply : Supply} {v base extra : View}
  {mode : JoinMode} {withNull : Bool} {condition : Fragment} {used : TokenSet} {observed : Bool}
  {b : Build} {s : Step}

theorem Holds.allTokens {P : Token → Prop} (holds : v.Holds definitions used)
    (issued : v.AllTokens (Token.IssuedBy definitions supply)) (all : v.AllTokens P) :
    ∀ t ∈ used.toList, t.AllTokens P := fun t member =>
  ((issued.and all).mono fun _ both => ⟨both.1.definition, both.2⟩).token (holds t member).1
    (holds t member).2

theorem Plain.input (plain : (s.onto v).Plain definitions supply b) :
    v.Plain definitions supply b where
  legal := (legal_onto.1 plain.legal).1
  tidy := (tidy_onto.1 plain.tidy).1
  issued := (allTokens_onto.1 plain.issued).1
  fresh := (allTokens_onto.1 plain.fresh).1
  flat := plain.flat

theorem Plain.ofBase
    (plain : (View.join base extra mode withNull condition).Plain definitions supply b) :
    base.Plain definitions supply b :=
  ⟨plain.legal.1, plain.tidy.1, plain.issued.1, plain.fresh.1, plain.flat⟩

theorem Plain.ofExtra
    (plain : (View.join base extra mode withNull condition).Plain definitions supply b) :
    extra.Plain definitions supply b :=
  ⟨plain.legal.2.1, plain.tidy.2.1, plain.issued.2.1, plain.fresh.2.1, plain.flat⟩

variable (used observed) in
/-- The extra side is still plain once the base side is built. -/
theorem Plain.ofExtraAfter
    (plain : (View.join base extra mode withNull condition).Plain definitions supply b) :
    extra.Plain definitions supply ((base.body used observed).run b).2 := by
  have keeps := base.keeps_past used observed b
  have apart := plain.ofExtra.fresh.and plain.tidy.2.2.ofExtra
  exact
    { plain.ofExtra with
      fresh := apart.mono fun t both => (keeps t.id both.2).trans both.1
      flat := (base.grows_body used observed b).flat plain.flat }

theorem Holds.needs (holds : (s.onto v).Holds definitions used)
    (issued : (s.onto v).AllTokens (Token.IssuedBy definitions supply)) (observed : Bool) :
    v.Holds definitions (s.needs observed v.scope used) := by
  intro t needed
  have ofStep := (allTokens_onto.1 issued).2
  obtain ⟨all, held⟩ := ofStep.needs observed (holds.allTokens issued issued) v.scope t needed
  exact ⟨all.self.definition, held⟩

theorem shows_onto (plain : (s.onto v).Plain definitions supply b)
    (holds : (s.onto v).Holds definitions used)
    (below : v.ShowsFor (s.needs observed v.scope used) (s.observes observed) b) :
    (s.onto v).ShowsFor used observed b := by
  simp only [ShowsFor, run_body_onto, Build.run_makeRoom]
  let needs := s.needs observed v.scope used
  let built := (v.body needs (s.observes observed)).run b
  let noted := built.2.noted s.label built.1.state
  have flatBelow : noted.redirects.Flat :=
    (v.grows_body needs (s.observes observed) b).flat plain.flat
  have room := (Build.Shows.noted below s.label built.1.state).bracketIf flatBelow
    (s.brackets observed built.1.state)
  refine room.extend fun f written => ?_
  have keeps : Build.Keeps (· ∈ v.past) b
      (noted.bracketIf (s.brackets observed built.1.state) built.1 needs).2 :=
    (v.keeps_past needs (s.observes observed) b).trans
      (keeps_closing (fun t needed => AscendingSet.contains_of_mem_narrow needed) noted _ _)
  have fits := (legal_onto.1 plain.legal).2
  have kept := (tidy_onto.1 plain.tidy).2
  have ofStep := (allTokens_onto.1 plain.issued).2
  have ofUsed := holds.allTokens plain.issued plain.issued
  have fresh : f.AllTokens fun t => b.redirects.lookup t.id = none :=
    List.forall_mem_append.2
      ⟨Token.allTokens_toFragments.2 (holds.allTokens plain.issued plain.fresh),
        fun g own => (allTokens_onto.1 plain.fresh).2 g (Step.mem_fragments_of_written observed own)⟩
      f written
  -- whether it is used above the step or written by it, it is met at what the step asks for
  have ready : f.inReach v.scope = true ∧ (∀ u ∈ f.passed v.scope, u.id ∉ v.past) ∧
      ∀ u ∈ f.tokens, u ∈ used.toList ∨ u ∈ s.reads observed := by
    rcases List.mem_append.1 written with above | own
    · obtain ⟨t, member, rfl⟩ := List.mem_map.1 above
      obtain ⟨reached, passed⟩ :=
        Step.inReach_of_used fits kept ofStep (ofUsed t member).self (holds t member).2
      exact ⟨reached, passed, fun u named => .inl (List.mem_singleton.1 named ▸ member)⟩
    · have given := Step.mem_fragments_of_written observed own
      exact ⟨fits.fragments ofStep f given,
        fun u passed dropped => kept ⟨f, given, u, passed, dropped⟩,
        fun u named => .inr (Step.tokens_written observed own u named)⟩
  obtain ⟨reached, passed, named⟩ := ready
  have flat := (Build.grows_bracketIf noted (s.brackets observed built.1.state) built.1 needs).flat
    flatBelow
  refine keeps.readsOnly_expand flat reached fresh passed fun t met => room.sees ?_
  rw [Fragment.frontier_eq_tokens] at met
  obtain ⟨u, inside, below⟩ := List.mem_flatMap.1 met
  exact Step.mem_needs_of_frontier ofUsed ofStep (named u inside) below

theorem Holds.joinNeeds
    (holds : (View.join base extra mode withNull condition).Holds definitions used)
    (issued : (View.join base extra mode withNull condition).AllTokens
      (Token.IssuedBy definitions supply)) (side : View) :
    side.Holds definitions (side.joinNeeds condition used) := fun t needed =>
  ⟨(allTokens_joinNeeds (holds.allTokens issued issued) issued.2.2 t needed).self.definition,
    contains_of_mem_joinNeeds needed⟩

/-- Both sides of a join, closed off or not, show what the join asks them for. -/
theorem shows_sides
    (plain : (View.join base extra mode withNull condition).Plain definitions supply b)
    (holds : (View.join base extra mode withNull condition).Holds definitions used)
    (forBase : base.ShowsFor (base.joinNeeds condition used) observed b)
    (forExtra : extra.ShowsFor (extra.joinNeeds condition used) false
      ((base.body (base.joinNeeds condition used) observed).run b).2) :
    let both := (base.sides extra mode condition used observed).run b
    both.2.Shows both.1.1 (base.joinNeeds condition used).toList ∧
      both.2.Shows both.1.2 (extra.joinNeeds condition used).toList := by
  rw [run_sides]
  let baseNeeds := base.joinNeeds condition used
  let extraNeeds := extra.joinNeeds condition used
  let first := (base.body baseNeeds observed).run b
  let second := (extra.body extraNeeds false).run first.2
  let closed := second.2.bracketIf (first.1.state.meets JoinMode.blockersOfBase) first.1 baseNeeds
  let closes := second.1.state.meets (mode.blockersOfExtra closed.2.settings.joinPolicy)
  let last := closed.2.bracketIf closes second.1 extraNeeds
  have parting : base.Parting extra condition := plain.tidy.2.2
  have flatFirst : first.2.redirects.Flat := (base.grows_body _ _ b).flat plain.flat
  have flatSecond : second.2.redirects.Flat := (extra.grows_body _ _ first.2).flat flatFirst
  have flatClosed : closed.2.redirects.Flat := (Build.grows_bracketIf _ _ _ _).flat flatSecond
  have flatLast : last.2.redirects.Flat := (Build.grows_bracketIf _ _ _ _).flat flatClosed
  have ofBaseNeeds : ∀ t ∈ baseNeeds.toList, t.AllTokens fun u => u.id ∉ extra.past :=
    (holds.joinNeeds plain.issued base).allTokens plain.issued.1 parting.ofBase
  have ofExtraNeeds : ∀ t ∈ extraNeeds.toList, t.AllTokens fun u => u.id ∉ base.past :=
    (holds.joinNeeds plain.issued extra).allTokens plain.issued.2.1 parting.ofExtra
  have ofFirst := allTokens_body parting.ofBase baseNeeds observed b plain.flat
  have ofSecond := allTokens_body parting.ofExtra extraNeeds false first.2 flatFirst
  -- each side is left alone by what is redirected for the other one in the meantime
  have keepsSecond : Build.Keeps (· ∈ extra.past) first.2 second.2 :=
    extra.keeps_past extraNeeds false first.2
  have keepsClosed : Build.Keeps (· ∈ base.past) second.2 closed.2 :=
    keeps_closing (fun _ => contains_of_mem_joinNeeds) second.2 _ _
  have keepsLast : Build.Keeps (· ∈ extra.past) closed.2 last.2 :=
    keeps_closing (fun _ => contains_of_mem_joinNeeds) closed.2 _ _
  have baseClosed : closed.2.Shows closed.1 baseNeeds.toList :=
    (Build.Shows.keeps forBase keepsSecond flatFirst flatSecond ofFirst ofBaseNeeds).bracketIf
      flatSecond _
  have extraClosed : last.2.Shows last.1 extraNeeds.toList :=
    (Build.Shows.keeps forExtra keepsClosed flatSecond flatClosed ofSecond
      ofExtraNeeds).bracketIf flatClosed _
  exact ⟨baseClosed.keeps keepsLast flatClosed flatLast (ofFirst.bracketIf _ _ _) ofBaseNeeds,
    extraClosed⟩

theorem shows_join (joins : Joins base extra mode withNull used observed)
    (plain : (View.join base extra mode withNull condition).Plain definitions supply b)
    (holds : (View.join base extra mode withNull condition).Holds definitions used)
    (forBase : base.ShowsFor (base.joinNeeds condition used) observed b)
    (forExtra : extra.ShowsFor (extra.joinNeeds condition used) false
      ((base.body (base.joinNeeds condition used) observed).run b).2) :
    (View.join base extra mode withNull condition).ShowsFor used observed b := by
  have keeps := (View.join base extra mode withNull condition).keeps_past used observed b
  have flat := ((View.join base extra mode withNull condition).grows_body used observed b).flat
    plain.flat
  rw [ShowsFor, run_body_of_joins b joins]
  rw [run_body_of_joins b joins] at keeps flat
  obtain ⟨ofBase, ofExtra⟩ := shows_sides plain holds forBase forExtra
  refine ofBase.join ofExtra (fun f written => ?_) mode.kind
  let whole := base.scope.union extra.scope
  have inWhole : ∀ id, whole.contains id = true ↔
      base.scope.contains id = true ∨ extra.scope.contains id = true :=
    fun id => AscendingSet.contains_union
  have defined := plain.issued.mono fun _ made => made.definition
  have ofUsed := holds.allTokens plain.issued defined
  have fresh : f.AllTokens fun t => b.redirects.lookup t.id = none :=
    List.forall_mem_append.2
      ⟨Token.allTokens_toFragments.2 (holds.allTokens plain.issued plain.fresh),
        List.forall_mem_singleton.2 plain.fresh.2.2⟩ f written
  have ready : f.inReach whole = true ∧
      (∀ u ∈ f.passed whole, u.id ∉ (View.join base extra mode withNull condition).past) ∧
      ∀ side : View, (∀ id, side.scope.contains id = true → whole.contains id = true) →
        ∀ t ∈ f.frontier whole, side.scope.contains t.id = true →
          t ∈ (side.joinNeeds condition used).toList := by
    rcases List.mem_append.1 written with above | own
    · obtain ⟨t, member, rfl⟩ := List.mem_map.1 above
      have held := (inWhole t.id).2 (contains_scope_join.1 (holds t member).2)
      refine ⟨Token.inReach_toFragment.2 ((Segment.inReach_token _ _ _).trans (by simp [held])),
        ?_, fun side _ u met inSide => ?_⟩
      · rw [Token.passed_toFragment held]
        exact fun u none => absurd none List.not_mem_nil
      · rw [Token.frontier_toFragment, Token.frontier, Token.toSegment, Segment.frontier,
          if_pos held] at met
        obtain rfl := List.mem_singleton.1 met
        exact mem_joinNeeds ofUsed defined.2.2 member inSide
    · obtain rfl := List.mem_singleton.1 own
      exact ⟨plain.legal.2.2.2, plain.tidy.2.2.ofCondition, fun side le t met inSide =>
        mem_joinNeeds_of_frontier ofUsed defined.2.2 (Fragment.mem_frontier_of_le le inSide met)⟩
  obtain ⟨reached, passed, needed⟩ := ready
  refine keeps.readsOnly_expand flat reached fresh passed fun t met => ?_
  have held := (Fragment.allTokens_frontier (Fragment.allTokens_true f) t met).2
  rcases (inWhole t.id).1 held with inBase | inExtra
  · exact (ofBase.sees (needed base (fun id own => (inWhole id).2 (.inl own)) t met inBase)).mono
      (List.subset_append_left _ _)
  · exact (ofExtra.sees (needed extra (fun id own => (inWhole id).2 (.inr own)) t met inExtra)).mono
      (List.subset_append_right _ _)

/-- However a tidy view is used, its body shows what is used of it. -/
theorem shows_body (v : View) (used : TokenSet) (observed : Bool) (b : Build)
    (plain : v.Plain definitions supply b) (holds : v.Holds definitions used) :
    v.ShowsFor used observed b := by
  induction v, used, observed, b using visits_induction with
  | table text id template used observed b =>
    show b.Shows (.ofTable (b.redirects.expand text) id) used.toList
    refine ⟨List.forall_mem_singleton.2 trivial, fun f written => ?_⟩
    have selected : f ∈ used.toList.map Token.toFragment ++ [] := written
    rw [List.append_nil] at selected
    obtain ⟨t, member, rfl⟩ := List.mem_map.1 selected
    obtain ⟨c, listed, same⟩ := Template.contains_scope.1 (holds t member).2
    obtain ⟨name, column⟩ := plain.legal c listed
    have definition : t.definition = Fragment.column id name := by
      rw [(holds t member).1, ← same, ← (plain.issued.2 c listed).self.definition, column]
    have unresolved : b.redirects.lookup t.id = none :=
      (holds.allTokens plain.issued plain.fresh t member).self
    have expanded : b.redirects.expand t.toFragment = Fragment.column id name := by
      rw [Redirects.expand_of_flat plain.flat, Token.toFragment, Token.toSegment, definition]
      simp [Fragment.substitute, Segment.substitute, unresolved, Fragment.column]
    rw [expanded]
    exact Fragment.readsOnly_column.2 ⟨rfl, trivial⟩
  | onto s v used observed b ih =>
    exact shows_onto plain holds (ih plain.input (holds.needs plain.issued observed))
  | baseOnly base extra mode withNull condition used observed b drops ih =>
    have defined := plain.issued.mono fun _ made => made.definition
    have inBase : ∀ t ∈ used.toList, base.scope.contains t.id = true :=
      AscendingSet.contains_of_isEmpty (holds.allTokens plain.issued defined)
        (fun t member => contains_scope_join.1 (holds t member).2) drops.2
    rw [AscendingSet.narrow_eq_self inBase] at ih
    rw [ShowsFor, run_body_of_dropsExtra b drops, AscendingSet.narrow_eq_self inBase]
    exact ih plain.ofBase fun t member => ⟨(holds t member).1, inBase t member⟩
  | extraOnly base extra mode withNull condition used observed b keeps drops ih =>
    have defined := plain.issued.mono fun _ made => made.definition
    have inExtra : ∀ t ∈ used.toList, extra.scope.contains t.id = true :=
      AscendingSet.contains_of_isEmpty (holds.allTokens plain.issued defined)
        (fun t member => (contains_scope_join.1 (holds t member).2).symm) drops.2.2.2
    rw [AscendingSet.narrow_eq_self inExtra] at ih
    rw [ShowsFor, run_body_of_dropsBase b keeps drops, AscendingSet.narrow_eq_self inExtra]
    exact ih plain.ofExtra fun t member => ⟨(holds t member).1, inExtra t member⟩
  | both base extra mode withNull condition used observed b joins ofBase ofExtra =>
    exact shows_join joins plain holds
      (ofBase plain.ofBase (holds.joinNeeds plain.issued base))
      (ofExtra (plain.ofExtraAfter _ _) (holds.joinNeeds plain.issued extra))

end

/-- The statement for the rows of a tidy view that accepted calls have made is well scoped, with
all its subqueries. -/
theorem wellScoped_of_tidy {definitions : TokenId → Fragment} {supply : Supply} {v : View}
    (legal : v.Legal) (tidy : v.Tidy) (issued : v.AllTokens (Token.IssuedBy definitions supply))
    (settings : Settings) : ((v.plan settings).run supply).1.statement.WellScoped := by
  let start : Build := { settings, supply }
  have plain : v.Plain definitions supply start :=
    ⟨legal, tidy, issued, issued.mono fun _ _ => rfl, Redirects.flat_empty⟩
  have holds : v.Holds definitions v.template.tokenSet := fun t member =>
    ⟨(issued.template.tokenSet t member).self.definition, Template.contains_of_mem_tokenSet member⟩
  have built := shows_body v v.template.tokenSet true start plain holds
  exact (Build.Shows.mono built fun t listed => issued.template.mem_tokenSet listed).wellScoped

end View
end QueryViews
