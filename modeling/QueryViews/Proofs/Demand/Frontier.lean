import QueryViews.Proofs.Demand.Reads

/-! From what is asked for to what is read. What a step asks of its input is met on the way down
from what is used above it, or from its own expressions. If no token on that way stands for a column
of an earlier subquery, the expressions read what was asked for. -/

namespace QueryViews

mutual

theorem Segment.allTokens_passed {P : Token → Prop} {scope : Scope} :
    ∀ {segment : Segment}, segment.AllTokens P → ∀ t ∈ segment.passed scope, P t
  | .token id definition, ⟨self, below⟩, t, passed => by
    unfold Segment.passed at passed
    split at passed
    · exact absurd passed List.not_mem_nil
    · rcases List.mem_cons.1 passed with rfl | deeper
      · exact self
      · exact Fragment.allTokens_passed below t deeper
  | .nested _, all, t, passed => Fragment.allTokens_passed (by exact all) t passed
  | .verbatim _, _, _, passed | .column _ _, _, _, passed | .param _, _, _, passed =>
    absurd passed List.not_mem_nil

theorem Fragment.allTokens_passed {P : Token → Prop} {scope : Scope} :
    ∀ {f : Fragment}, Fragment.AllTokens P f → ∀ t ∈ Fragment.passed scope f, P t
  | [], _, _, passed => absurd passed List.not_mem_nil
  | _ :: _, ⟨first, rest⟩, t, passed =>
    (List.mem_append.1 passed).elim (Segment.allTokens_passed first t)
      (Fragment.allTokens_passed rest t)

end

mutual

theorem Segment.ownColumns_of_met {resolve : TokenId → Option Fragment} {scope : Scope}
    {t : Token} :
    ∀ {segment : Segment}, (∀ u ∈ segment.passed scope, resolve u.id = none) →
      t ∈ segment.frontier scope → Fragment.ownColumns (t.toSegment.substitute resolve) ⊆
        Fragment.ownColumns (segment.substitute resolve)
  | .token id definition, free, met => by
    unfold Segment.passed at free
    unfold Segment.frontier at met
    by_cases held : scope.contains id = true
    · rw [if_pos held] at met
      obtain rfl := List.mem_singleton.1 met
      exact List.Subset.refl _
    · rw [if_neg held] at free met
      obtain ⟨self, below⟩ := List.forall_mem_cons.1 free
      have replaced : (Segment.token id definition).substitute resolve =
          Fragment.substitute resolve definition := by
        rw [Segment.substitute, show resolve id = none from self]
      rw [replaced]
      exact Fragment.ownColumns_of_met below met
  | .nested _, free, met => Fragment.ownColumns_of_met (by exact free) (by exact met)
  | .verbatim _, _, met | .column _ _, _, met | .param _, _, met => absurd met List.not_mem_nil

/-- A token that is met on a way through no replaced token is written out with the whole. -/
theorem Fragment.ownColumns_of_met {resolve : TokenId → Option Fragment} {scope : Scope}
    {t : Token} :
    ∀ {f : Fragment}, (∀ u ∈ Fragment.passed scope f, resolve u.id = none) →
      t ∈ Fragment.frontier scope f → Fragment.ownColumns (t.toSegment.substitute resolve) ⊆
        Fragment.ownColumns (Fragment.substitute resolve f)
  | [], _, met => absurd met List.not_mem_nil
  | _ :: _, free, met => by
    obtain ⟨freeFirst, freeRest⟩ := List.forall_mem_append.1 free
    rw [Fragment.substitute, Fragment.ownColumns_append]
    rcases List.mem_append.1 met with first | later
    · exact List.subset_append_of_subset_left _ (Segment.ownColumns_of_met freeFirst first)
    · exact List.subset_append_of_subset_right _ (Fragment.ownColumns_of_met freeRest later)

end

theorem Token.frontier_toFragment (scope : Scope) (t : Token) :
    t.toFragment.frontier scope = t.frontier scope :=
  List.append_nil _

/-- Tokens that are met on the way down from the expressions are read with them, if none of the
redirected ones is on that way. -/
theorem Build.Keeps.reads_subset {own : TokenId → Prop} {b later : Build}
    (keeps : Keeps own b later) (flat : later.redirects.Flat) {scope : Scope} {needs : List Token}
    {expressions : List Fragment}
    (plain : ∀ f ∈ expressions, f.AllTokens fun t => b.redirects.lookup t.id = none)
    (foreign : ∀ f ∈ expressions, ∀ u ∈ f.passed scope, ¬ own u.id)
    (met : ∀ t ∈ needs, ∃ f ∈ expressions, t ∈ f.frontier scope) :
    later.redirects.reads (needs.map Token.toFragment) ⊆ later.redirects.reads expressions := by
  intro c read
  obtain ⟨_, listed, inside⟩ := List.mem_flatMap.1 read
  obtain ⟨t, needed, rfl⟩ := List.mem_map.1 listed
  obtain ⟨f, written, below⟩ := met t needed
  have free : ∀ u ∈ f.passed scope, later.redirects.lookup u.id = none := fun u passed =>
    (keeps u.id (foreign f written u passed)).trans
      (Fragment.allTokens_passed (plain f written) u passed)
  refine List.mem_flatMap.2 ⟨f, written, ?_⟩
  rw [Redirects.expand_of_flat flat] at inside ⊢
  have column : c ∈ Fragment.ownColumns (t.toSegment.substitute later.redirects.lookup ++ []) :=
    inside
  rw [List.append_nil] at column
  exact Fragment.ownColumns_of_met free below column

section Needs
variable {definitions : TokenId → Fragment} {used : TokenSet}

theorem AscendingSet.exists_met {needs : TokenSet} {scope : Scope}
    (defined : ∀ t ∈ needs.toList, t.AllTokens fun u => u.definition = definitions u.id) {t : Token}
    (needed : t ∈ (needs.narrow scope).toList) : ∃ u ∈ needs.toList, t ∈ u.frontier scope := by
  have follows : Fragment.Follows definitions (needs.toList.map Token.toSegment) :=
    Fragment.follows_iff.2 (Fragment.allTokens_map_toSegment.2 defined)
  have met := (Fragment.mem_met_iff follows scope t).1 (mem_ofList needed)
  rw [Fragment.frontier_map_toSegment] at met
  exact List.mem_flatMap.1 met

theorem Step.exists_written_of_reads {s : Step} {observed : Bool} {t : Token}
    (read : t ∈ s.reads observed) : ∃ f ∈ s.written observed, t ∈ f.tokens := by
  cases s with
  | filter condition => exact ⟨condition, List.mem_singleton_self _, read⟩
  | group keys content =>
    exact ⟨t.toFragment, List.mem_map_of_mem read, List.mem_singleton_self _⟩
  | order items =>
    cases observed with
    | true =>
      obtain ⟨item, listed, inside⟩ := List.mem_flatMap.1 read
      exact ⟨item.expr, List.mem_map_of_mem listed, inside⟩
    | false => exact absurd read List.not_mem_nil
  | project | take | skip | bracket => exact absurd read List.not_mem_nil

theorem Fragment.mem_frontier_of_tokens {scope : Scope} {f : Fragment} {t u : Token}
    (named : u ∈ f.tokens) (met : t ∈ u.frontier scope) : t ∈ f.frontier scope := by
  rw [Fragment.frontier_eq_tokens]
  exact List.mem_flatMap.2 ⟨u, named, met⟩

theorem mem_frontier_of_used {scope : Scope} {t u : Token} {more : List Fragment}
    (member : u ∈ used.toList) (met : t ∈ u.frontier scope) :
    ∃ f ∈ used.toList.map Token.toFragment ++ more, t ∈ f.frontier scope :=
  ⟨u.toFragment, List.mem_append_left _ (List.mem_map_of_mem member),
    (Token.frontier_toFragment scope u).symm ▸ met⟩

/-- What a step asks for is met from what is used above it or from what it writes. -/
theorem Step.exists_met {s : Step} {observed : Bool} {scope : Scope}
    (ofUsed : ∀ t ∈ used.toList, t.AllTokens fun u => u.definition = definitions u.id)
    (ofStep : s.AllTokens fun u => u.definition = definitions u.id) {t : Token}
    (needed : t ∈ (s.needs observed scope used).toList) :
    ∃ f ∈ used.toList.map Token.toFragment ++ s.written observed, t ∈ f.frontier scope := by
  obtain ⟨u, member, met⟩ := AscendingSet.exists_met (fun x inside =>
    (AscendingSet.mem_insertAll inside).elim (ofUsed x) (ofStep.reads observed x)) needed
  rcases AscendingSet.mem_insertAll member with above | read
  · exact mem_frontier_of_used above met
  · obtain ⟨f, written, named⟩ := Step.exists_written_of_reads read
    exact ⟨f, List.mem_append_right _ written, Fragment.mem_frontier_of_tokens named met⟩

/-- What a join asks of a side is met from what is used of the join or from its condition. -/
theorem View.exists_met {side : View} {condition : Fragment}
    (ofUsed : ∀ t ∈ used.toList, t.AllTokens fun u => u.definition = definitions u.id)
    (ofCondition : condition.AllTokens fun u => u.definition = definitions u.id) {t : Token}
    (needed : t ∈ (side.joinNeeds condition used).toList) :
    ∃ f ∈ used.toList.map Token.toFragment ++ [condition], t ∈ f.frontier side.scope := by
  rcases AscendingSet.mem_union needed with above | read
  · obtain ⟨u, member, met⟩ := AscendingSet.exists_met ofUsed above
    exact mem_frontier_of_used member met
  · have named := Fragment.allTokens_iff_tokens.1 ofCondition
    obtain ⟨u, member, met⟩ := AscendingSet.exists_met
      (fun x inside => named x (AscendingSet.mem_ofList inside)) read
    exact ⟨condition, List.mem_append_right _ (List.mem_singleton_self _),
      Fragment.mem_frontier_of_tokens (AscendingSet.mem_ofList member) met⟩

end Needs

mutual

theorem Segment.mem_frontier_of_apart {small large : Scope} {t : Token}
    (le : ∀ id, small.contains id = true → large.contains id = true) :
    ∀ {segment : Segment}, (segment.AllTokens fun u => large.contains u.id = true →
      small.contains u.id = false → t ∉ Fragment.frontier small u.definition) →
        t ∈ segment.frontier small → t ∈ segment.frontier large
  | .token id definition, ⟨self, below⟩, met => by
    unfold Segment.frontier at met ⊢
    by_cases inSmall : small.contains id = true
    · rw [if_pos inSmall] at met
      rw [if_pos (le id inSmall)]
      exact met
    · rw [if_neg inSmall] at met
      rw [if_neg fun inLarge => self inLarge (Bool.eq_false_iff.2 inSmall) met]
      exact Fragment.mem_frontier_of_apart le below met
  | .nested _, apart, met => Fragment.mem_frontier_of_apart le (by exact apart) (by exact met)
  | .verbatim _, _, met | .column _ _, _, met | .param _, _, met => absurd met List.not_mem_nil

/-- What a scope meets a larger one meets too, unless it is met below a token that only the larger
one holds. -/
theorem Fragment.mem_frontier_of_apart {small large : Scope} {t : Token}
    (le : ∀ id, small.contains id = true → large.contains id = true) :
    ∀ {f : Fragment}, (Fragment.AllTokens (fun u => large.contains u.id = true →
      small.contains u.id = false → t ∉ Fragment.frontier small u.definition) f) →
        t ∈ Fragment.frontier small f → t ∈ Fragment.frontier large f
  | [], _, met => absurd met List.not_mem_nil
  | _ :: _, ⟨first, rest⟩, met => by
    rcases List.mem_append.1 met with here | later
    · exact List.mem_append_left _ (Segment.mem_frontier_of_apart le first here)
    · exact List.mem_append_right _ (Fragment.mem_frontier_of_apart le rest later)

end

end QueryViews
