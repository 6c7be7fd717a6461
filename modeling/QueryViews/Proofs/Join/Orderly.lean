import QueryViews.Proofs.Clauses.Tally
import QueryViews.Proofs.Join.Sides
import QueryViews.Proofs.Scope.JoinFree

/-! Joins of sides that are sound by themselves and share no token. In such a join, whatever is
made of tokens of one side expands as if the other side were not there, and reads sources of its
own side only. -/

namespace QueryViews

mutual

/-- What a scope meets of another one that holds no less, it meets itself. -/
theorem Segment.mem_frontier_of_le {small large : Scope}
    (le : ∀ id, small.contains id = true → large.contains id = true) {t : Token}
    (held : small.contains t.id = true) :
    ∀ {segment : Segment}, t ∈ segment.frontier large → t ∈ segment.frontier small
  | .token id definition, met => by
    unfold Segment.frontier at met ⊢
    by_cases inLarge : large.contains id = true
    · rw [if_pos inLarge] at met
      obtain rfl := List.mem_singleton.1 met
      rw [if_pos held]
      exact List.mem_singleton_self _
    · rw [if_neg inLarge] at met
      rw [if_neg fun inSmall => inLarge (le id inSmall)]
      exact Fragment.mem_frontier_of_le le held met
  | .nested _, met => Fragment.mem_frontier_of_le le held (by exact met)
  | .verbatim _, met | .column _ _, met | .param _, met => absurd met List.not_mem_nil

theorem Fragment.mem_frontier_of_le {small large : Scope}
    (le : ∀ id, small.contains id = true → large.contains id = true) {t : Token}
    (held : small.contains t.id = true) :
    ∀ {f : Fragment}, t ∈ Fragment.frontier large f → t ∈ Fragment.frontier small f
  | [], met => absurd met List.not_mem_nil
  | _ :: _, met => by
    rcases List.mem_append.1 met with first | later
    · exact List.mem_append_left _ (Segment.mem_frontier_of_le le held first)
    · exact List.mem_append_right _ (Fragment.mem_frontier_of_le le held later)

end

/-- What the condition of a join meets of a side, the join asks that side for. -/
theorem View.mem_joinNeeds_of_frontier {definitions : TokenId → Fragment} {side : View}
    {condition : Fragment} {used : TokenSet}
    (ofUsed : ∀ t ∈ used.toList, t.AllTokens fun u => u.definition = definitions u.id)
    (ofCondition : condition.AllTokens fun u => u.definition = definitions u.id) {t : Token}
    (met : t ∈ condition.frontier side.scope) : t ∈ (side.joinNeeds condition used).toList := by
  let read : TokenSet := .ofList condition.tokens
  have named := Fragment.allTokens_iff_tokens.1 ofCondition
  have ofRead : ∀ u ∈ read.toList, u.AllTokens fun w => w.definition = definitions w.id :=
    fun u inside => named u (AscendingSet.mem_ofList inside)
  have follows : Fragment.Follows definitions (read.toList.map Token.toSegment) :=
    Fragment.follows_iff.2 (Fragment.allTokens_map_toSegment.2 ofRead)
  have defined := (Fragment.allTokens_frontier ofCondition t met).1.self
  rw [Fragment.frontier_eq_tokens] at met
  obtain ⟨u, among, below⟩ := List.mem_flatMap.1 met
  have inRead : u ∈ read.toList := AscendingSet.mem_of_holds (fun w inside => (ofRead w inside).self)
    (named u among).self (AscendingSet.holds_insertAll.2 (.inr ⟨u, among, rfl⟩))
  have ofNeeds : ∀ w ∈ (side.joinNeeds condition used).toList, w.definition = definitions w.id :=
    fun w inside => (allTokens_joinNeeds ofUsed ofCondition w inside).self
  refine AscendingSet.mem_of_holds ofNeeds defined ?_
  exact AscendingSet.holds_union.2 (.inr
    ((AscendingSet.holds_narrow_iff follows side.scope t.id).2 ⟨u, inRead, t, below, rfl⟩))

theorem Body.eq_ofSource {b : Body} (clear : b.state.meets .all = false) :
    b = .ofSource b.source := by
  have bare : b.Bare := .of_clear (ClauseSet.clear_of_le (by decide) clear)
  obtain ⟨source, joins, filters, keys, grouped, having, order, skip, take⟩ := b
  obtain ⟨⟨rfl, rfl, rfl⟩, rfl, rfl, rfl⟩ := bare
  simp only [ClauseSet.meets, ClauseSet.all, Bool.and_true, Bool.or_eq_false_iff, state] at clear
  obtain ⟨⟨⟨⟨⟨⟨⟨left, inner⟩, filter⟩, -⟩, -⟩, -⟩, -⟩, -⟩ := clear
  obtain rfl : filters = [] := by simpa using filter
  cases joins with
  | nil => rfl
  | cons j rest =>
    obtain ⟨kind, joined, condition⟩ := j
    cases kind with
    | left => exact absurd left (by simp)
    | inner => exact absurd inner (by simp)

namespace Joining
variable {j : Joining}

theorem flat_aloneBase : j.aloneBase.2.redirects.Flat := (grows_aloneBase.into rfl).flat

theorem flat_aloneExtra : j.aloneExtra.2.redirects.Flat := (grows_aloneExtra.into rfl).flat

theorem redirected_closedBase :
    Build.Redirected (· ∈ j.base.past) { settings := j.settings, supply := j.supply }
      j.closedBase.2 := by
  refine Build.Keeps.redirected ((j.base.keeps_past j.baseNeeds j.observed _).trans ?_)
  exact View.keeps_closing (fun t => View.contains_of_mem_joinNeeds)
    { j.aloneBase.2 with supply := j.aloneExtra.2.supply } j.closesBase j.aloneBase.1

theorem redirected_closedExtra :
    Build.Redirected (· ∈ j.extra.past) { settings := j.settings, supply := j.aloneBase.2.supply }
      j.closedExtra.2 := by
  refine Build.Keeps.redirected ((j.extra.keeps_past j.extraNeeds false _).trans ?_)
  exact View.keeps_closing (fun t => View.contains_of_mem_joinNeeds)
    { j.aloneExtra.2 with supply := j.closedBase.2.supply } j.closesExtra j.aloneExtra.1

/-- A join as it is accepted, of sides that are sound by themselves and have tokens of their own. -/
structure Orderly (j : Joining) (definitions : TokenId → Fragment) (ofBase ofExtra : TokenId → Prop) :
    Prop where
  accepted : View.ensureSides j.base j.extra = .ok ()
  known : ∀ a ∈ j.view.sources.toList, a.index < j.supply.aliases
  used : ∀ t ∈ j.used.toList, t.AllTokens fun u => u.definition = definitions u.id
  condition : j.condition.AllTokens fun u => u.definition = definitions u.id
  disjoint : ∀ id, ofBase id → ¬ ofExtra id
  base : j.base.AllTokens fun t => t.definition = definitions t.id ∧ ofBase t.id
  extra : j.extra.AllTokens fun t => t.definition = definitions t.id ∧ ofExtra t.id
  baseSound : j.aloneBase.2.Sound j.aloneBase.1 j.baseNeeds
  extraSound : j.aloneExtra.2.Sound j.aloneExtra.1 j.extraNeeds

namespace Orderly
variable {definitions : TokenId → Fragment} {ofBase ofExtra : TokenId → Prop}

theorem ownBase (orderly : j.Orderly definitions ofBase ofExtra) :
    j.base.AllTokens fun t => ofBase t.id := orderly.base.mono fun _ both => both.2

theorem ownExtra (orderly : j.Orderly definitions ofBase ofExtra) :
    j.extra.AllTokens fun t => ofExtra t.id := orderly.extra.mono fun _ both => both.2

theorem parted (orderly : j.Orderly definitions ofBase ofExtra) : j.Parted := by
  have unshared : j.Unshared definitions :=
    ⟨ofBase, ofExtra, orderly.disjoint, orderly.base, orderly.extra⟩
  have apart := apart_of_unshared orderly.used orderly.condition unshared
  exact j.parted_or_leaks.resolve_right fun leaks => leaks.2 apart

theorem contained (orderly : j.Orderly definitions ofBase ofExtra) : j.Contained :=
  contained_of_sound orderly.used orderly.condition orderly.accepted orderly.known
    orderly.baseSound orderly.extraSound

theorem lookup_closedBase (orderly : j.Orderly definitions ofBase ofExtra) {id : TokenId}
    (foreign : ¬ ofBase id) : j.closedBase.2.redirects.lookup id = none :=
  redirected_closedBase.lookup_eq_none rfl fun earlier => foreign (orderly.ownBase.of_past earlier)

theorem lookup_closedExtra (orderly : j.Orderly definitions ofBase ofExtra) {id : TokenId}
    (foreign : ¬ ofExtra id) : j.closedExtra.2.redirects.lookup id = none :=
  redirected_closedExtra.lookup_eq_none rfl fun earlier => foreign (orderly.ownExtra.of_past earlier)

/-- What neither side holds or has held is redirected for neither of them. -/
theorem lookup_sides (orderly : j.Orderly definitions ofBase ofExtra) {id : TokenId}
    (new : id ∉ j.base.past ++ j.extra.past) : j.sides.2.redirects.lookup id = none := by
  obtain ⟨notBase, notExtra⟩ := not_or.1 fun either => new (List.mem_append.2 either)
  rw [orderly.parted.redirects.lookup, redirected_closedBase.lookup_eq_none rfl notBase,
    redirected_closedExtra.lookup_eq_none rfl notExtra]
  rfl

theorem expand_base (orderly : j.Orderly definitions ofBase ofExtra) {f : Fragment}
    (all : f.AllTokens fun t => ofBase t.id) :
    j.sides.2.redirects.expand f = j.closedBase.2.redirects.expand f :=
  orderly.parted.redirects.swap.expand_of_untouched fun id touched =>
    orderly.lookup_closedExtra (orderly.disjoint id (Fragment.touched_of_allTokens all id touched))

theorem expand_extra (orderly : j.Orderly definitions ofBase ofExtra) {f : Fragment}
    (all : f.AllTokens fun t => ofExtra t.id) :
    j.sides.2.redirects.expand f = j.closedExtra.2.redirects.expand f :=
  orderly.parted.redirects.expand_of_untouched fun id touched =>
    orderly.lookup_closedBase fun own =>
      orderly.disjoint id own (Fragment.touched_of_allTokens all id touched)

theorem allTokens_closedBase (orderly : j.Orderly definitions ofBase ofExtra) :
    j.closedBase.1.AllTokens fun t => ofBase t.id := by
  have body := View.allTokens_body orderly.ownBase j.baseNeeds j.observed
    { settings := j.settings, supply := j.supply } Redirects.flat_empty
  exact body.bracketIf _ _ _

theorem allTokens_closedExtra (orderly : j.Orderly definitions ofBase ofExtra) :
    j.closedExtra.1.AllTokens fun t => ofExtra t.id := by
  have body := View.allTokens_body orderly.ownExtra j.extraNeeds false
    { settings := j.settings, supply := j.aloneBase.2.supply } Redirects.flat_empty
  exact body.bracketIf _ _ _

theorem expanded_base (orderly : j.Orderly definitions ofBase ofExtra) :
    j.closedBase.1.expanded j.sides.2.redirects =
      j.closedBase.1.expanded j.closedBase.2.redirects := by
  obtain ⟨fragments, texts⟩ := List.forall_mem_append.1 orderly.allTokens_closedBase
  exact Body.expanded_congr (fun f member => orderly.expand_base (fragments f member))
    fun f member => orderly.expand_base (texts f member)

theorem expanded_extra (orderly : j.Orderly definitions ofBase ofExtra) :
    j.closedExtra.1.expanded j.sides.2.redirects =
      j.closedExtra.1.expanded j.closedExtra.2.redirects := by
  obtain ⟨fragments, texts⟩ := List.forall_mem_append.1 orderly.allTokens_closedExtra
  exact Body.expanded_congr (fun f member => orderly.expand_extra (fragments f member))
    fun f member => orderly.expand_extra (texts f member)

theorem id_closedBase_ne (orderly : j.Orderly definitions ofBase ofExtra) {b x : Source}
    (inBase : b ∈ j.closedBase.1.sources) (inExtra : x ∈ j.closedExtra.1.sources) :
    b.id ≠ x.id := by
  intro same
  have apart := (aliases_apart orderly.accepted orderly.known b.id).1 (Body.id_mem_aliases inBase)
  exact apart (.inl (same ▸ Body.id_mem_aliases inExtra))

end Orderly
end Joining
end QueryViews
