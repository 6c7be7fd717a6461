import QueryViews.Proofs.Join.Elision
import QueryViews.Proofs.Join.Support

/-! What a join asks of its sides. Needs are narrowed by walking down definitions, so a side is
asked for the tokens of it that are used, and for those that a token used of the other side is
built on. The check on joining compares what the two templates hold, and lets the latter pass. -/

namespace QueryViews

namespace AscendingSet
variable {definitions : TokenId → Fragment} {used : TokenSet} {scope : Scope}

theorem mem_narrow_iff
    (defined : ∀ t ∈ used.toList, t.AllTokens fun u => u.definition = definitions u.id)
    {u : Token} : u ∈ (used.narrow scope).toList ↔ ∃ t ∈ used.toList, u ∈ t.frontier scope := by
  have follows : Fragment.Follows definitions (used.toList.map Token.toSegment) :=
    Fragment.follows_iff.2 (Fragment.allTokens_map_toSegment.2 defined)
  constructor
  · intro narrowed
    have met := (Fragment.mem_met_iff follows scope u).1 (mem_ofList narrowed)
    rw [Fragment.frontier_map_toSegment] at met
    exact List.mem_flatMap.1 met
  · rintro ⟨t, member, met⟩
    have ofFrontier := (Segment.allTokens_frontier (defined t member) u met).1
    apply mem_of_holds (fun v inside => (mem_narrow defined v inside).1.self) ofFrontier.self
    exact (holds_narrow_iff follows scope u.id).2 ⟨t, member, u, met, rfl⟩

/-- Ascending lists with the same members are the same. -/
theorem eq_of_ascending {α : Type} [Ranked α] {one two : List α}
    (first : one.Pairwise fun a b => Ranked.rank a < Ranked.rank b)
    (second : two.Pairwise fun a b => Ranked.rank a < Ranked.rank b)
    (members : ∀ a, a ∈ one ↔ a ∈ two) : one = two := by
  have distinct : ∀ {l : List α}, (l.Pairwise fun a b => Ranked.rank a < Ranked.rank b) →
      l.Nodup := by
    intro l sorted
    exact sorted.imp fun {a b} below same => Nat.ne_of_lt below (congrArg Ranked.rank same)
  apply List.Perm.eq_of_pairwise _ first second
  · exact (List.perm_ext_iff_of_nodup (distinct first) (distinct second)).2 members
  · intro a b _ _ below above
    exact absurd below (Nat.lt_asymm above)

/-- Narrowing picks out the tokens of the scope if what it meets is all used itself. -/
theorem toList_narrow_eq_iff
    (defined : ∀ t ∈ used.toList, t.AllTokens fun u => u.definition = definitions u.id) :
    (used.narrow scope).toList = used.toList.filter (fun t => scope.contains t.id) ↔
      ∀ t ∈ used.toList, ∀ u ∈ t.frontier scope, u ∈ used.toList := by
  constructor
  · intro same t member u met
    have narrowed := (mem_narrow_iff defined).2 ⟨t, member, met⟩
    rw [same] at narrowed
    exact (List.mem_filter.1 narrowed).1
  · intro closed
    apply eq_of_ascending (used.narrow scope).ascending (used.ascending.filter _)
    intro u
    rw [mem_narrow_iff defined, List.mem_filter]
    constructor
    · rintro ⟨t, member, met⟩
      exact ⟨closed t member u met, (Segment.allTokens_frontier (defined t member) u met).2⟩
    · rintro ⟨member, held⟩
      exact ⟨u, member, Token.mem_frontier_self held⟩

end AscendingSet

namespace View

/-- The tokens are columns of the view. -/
def Offers (v : View) (used : TokenSet) : Prop :=
  ∀ t ∈ used.toList, ∃ c ∈ v.template.columns, c.token = t

/-- The side is asked for just the tokens of it that are used. -/
def AsksExactly (side : View) (used : TokenSet) : Prop :=
  (used.narrow side.scope).toList = used.toList.filter fun t => side.scope.contains t.id

/-- No column of one side is built on a column of the other. -/
structure Uncrossed (base extra : View) : Prop where
  ofBase : ∀ c ∈ base.template.columns, c.token.frontier extra.scope = []
  ofExtra : ∀ c ∈ extra.template.columns, c.token.frontier base.scope = []

section
variable {definitions : TokenId → Fragment} {base extra joined : View} {mode : JoinMode}
  {withNull : Bool} {condition : Fragment} {used : TokenSet}

theorem mem_columns_join {t : Token} :
    (∃ c ∈ (View.join base extra mode withNull condition).template.columns, c.token = t) ↔
      (∃ c ∈ base.template.columns, c.token = t) ∨ ∃ c ∈ extra.template.columns, c.token = t := by
  simp only [template, Template.columns_pair, List.mem_append, Template.mem_columns_widen,
    or_and_right, exists_or]
  apply or_congr_right
  constructor
  · rintro ⟨_, ⟨c, inside, rfl⟩, same⟩
    exact ⟨c, inside, same⟩
  · rintro ⟨c, inside, same⟩
    exact ⟨_, ⟨c, inside, rfl⟩, same⟩

theorem Offers.defined {v : View} (offers : v.Offers used)
    (defined : v.template.AllTokens fun t => t.definition = definitions t.id) :
    ∀ t ∈ used.toList, t.AllTokens fun u => u.definition = definitions u.id := by
  intro t member
  obtain ⟨c, inside, rfl⟩ := offers t member
  exact defined c inside

/-- A column of one side that is built on one of the other meets it for whoever uses the former,
be the latter used or not. -/
theorem frontier_eq_nil_of_asksExactly {side other : View}
    (apart : ∀ id, side.scope.contains id = true → other.scope.contains id = false) {c : Column}
    (inside : c ∈ side.template.columns)
    (defined : c.token.AllTokens fun t => t.definition = definitions t.id)
    (exactly : other.AsksExactly (.ofList [c.token])) : c.token.frontier other.scope = [] := by
  have only : ∀ t ∈ (AscendingSet.ofList [c.token]).toList, t = c.token := fun t member =>
    List.mem_singleton.1 (AscendingSet.mem_ofList member)
  apply List.eq_nil_iff_forall_not_mem.2
  intro u met
  have usedToo := (AscendingSet.toList_narrow_eq_iff fun t member => only t member ▸ defined).1
    exactly c.token (List.mem_singleton_self _) u met
  obtain rfl := only u usedToo
  have held := (Segment.allTokens_frontier defined _ met).2
  have outside := apart _ (Template.contains_scope.2 ⟨c, inside, rfl⟩)
  rw [outside] at held
  exact Bool.false_ne_true held

/-- A side is asked for just what is used of it, if no used token is built on others of it. -/
theorem asksExactly_of_frontier {side : View}
    (defined : ∀ t ∈ used.toList, t.AllTokens fun u => u.definition = definitions u.id)
    (split : ∀ t ∈ used.toList, side.scope.contains t.id = true ∨ t.frontier side.scope = []) :
    side.AsksExactly used := by
  apply (AscendingSet.toList_narrow_eq_iff defined).2
  intro t member u met
  rcases split t member with held | nothing
  · rw [Token.frontier, Token.toSegment, Segment.frontier, if_pos held] at met
    exact List.mem_singleton.1 met ▸ member
  · rw [nothing] at met
    exact absurd met List.not_mem_nil

/-- Each column is one that can be used alone, so a crossing shows. -/
theorem uncrossed_of_asksExactly (accepted : ensureSides base extra = .ok ())
    (defined : (View.join base extra mode withNull condition).template.AllTokens fun t =>
      t.definition = definitions t.id)
    (exactly : ∀ used, (View.join base extra mode withNull condition).Offers used →
      base.AsksExactly used ∧ extra.AsksExactly used) : base.Uncrossed extra := by
  obtain ⟨apart, apartToo⟩ := ensureSides_apart accepted
  have alone : ∀ t, (∃ c ∈ (View.join base extra mode withNull condition).template.columns,
      c.token = t) → (t.AllTokens fun u => u.definition = definitions u.id) ∧
        base.AsksExactly (.ofList [t]) ∧ extra.AsksExactly (.ofList [t]) := by
    rintro _ ⟨c, inside, rfl⟩
    refine ⟨defined c inside, exactly _ fun u member => ?_⟩
    rw [List.mem_singleton.1 (AscendingSet.mem_ofList member)]
    exact ⟨c, inside, rfl⟩
  constructor
  · intro c inside
    obtain ⟨ofColumn, -, ofExtra⟩ := alone c.token (mem_columns_join.2 (.inl ⟨c, inside, rfl⟩))
    exact frontier_eq_nil_of_asksExactly apart inside ofColumn ofExtra
  · intro c inside
    obtain ⟨ofColumn, ofBase, -⟩ := alone c.token (mem_columns_join.2 (.inr ⟨c, inside, rfl⟩))
    exact frontier_eq_nil_of_asksExactly apartToo inside ofColumn ofBase

theorem Uncrossed.asksExactly (uncrossed : base.Uncrossed extra)
    (defined : ∀ t ∈ used.toList, t.AllTokens fun u => u.definition = definitions u.id)
    (offers : (View.join base extra mode withNull condition).Offers used) :
    base.AsksExactly used ∧ extra.AsksExactly used := by
  constructor
  · apply asksExactly_of_frontier defined
    intro t member
    rcases mem_columns_join.1 (offers t member) with ⟨c, inside, rfl⟩ | ⟨c, inside, rfl⟩
    · exact .inl (Template.contains_scope.2 ⟨c, inside, rfl⟩)
    · exact .inr (uncrossed.ofExtra c inside)
  · apply asksExactly_of_frontier defined
    intro t member
    rcases mem_columns_join.1 (offers t member) with ⟨c, inside, rfl⟩ | ⟨c, inside, rfl⟩
    · exact .inr (uncrossed.ofBase c inside)
    · exact .inl (Template.contains_scope.2 ⟨c, inside, rfl⟩)

/-- A lazy join leaves its extra side out if nothing that is used is built on a column of it. -/
theorem dropsExtra_lazy_iff
    (defined : ∀ t ∈ used.toList, t.AllTokens fun u => u.definition = definitions u.id) :
    extra.dropsExtra .lazy used ↔ ∀ t ∈ used.toList, t.frontier extra.scope = [] := by
  constructor
  · rintro ⟨-, empty⟩ t member
    apply List.eq_nil_iff_forall_not_mem.2
    intro u met
    have narrowed := (AscendingSet.mem_narrow_iff defined).2 ⟨t, member, met⟩
    rw [List.isEmpty_iff.1 empty] at narrowed
    exact absurd narrowed List.not_mem_nil
  · intro nothing
    refine ⟨rfl, List.isEmpty_iff.2 (List.eq_nil_iff_forall_not_mem.2 fun u narrowed => ?_)⟩
    obtain ⟨t, member, met⟩ := (AscendingSet.mem_narrow_iff defined).1 narrowed
    rw [nothing t member] at met
    exact absurd met List.not_mem_nil

/-- What an accepted join asks of its sides is what is used of each of them, for whatever may be
used, exactly if no column of one side is built on a column of the other. Where no column of the
extra side is used, a lazy join is its base side if no used column is built on one of the extra
side; otherwise the join is made. -/
theorem asked_of_sides (call : base.joined extra mode withNull condition = .ok joined)
    (defined : joined.template.AllTokens fun t => t.definition = definitions t.id) :
    ((∀ used, joined.Offers used → base.AsksExactly used ∧ extra.AsksExactly used) ↔
        base.Uncrossed extra) ∧
      (mode = .lazy → ∀ used observed, joined.Offers used →
        (∀ t ∈ used.toList, extra.scope.contains t.id = false) →
          ((∀ t ∈ used.toList, t.frontier extra.scope = []) →
            joined.body used observed = base.body used observed) ∧
          ((∃ t ∈ used.toList, t.frontier extra.scope ≠ []) → ∀ b : Build,
            ((joined.body used observed).run b).1.joins ≠ [])) := by
  obtain ⟨accepted, -, rfl⟩ := joined_eq_ok_iff.1 call
  constructor
  · constructor
    · exact uncrossed_of_asksExactly accepted defined
    · exact fun uncrossed used offers => uncrossed.asksExactly (offers.defined defined) offers
  rintro rfl used observed offers outside
  have onBase : ∀ t ∈ used.toList, base.scope.contains t.id = true := by
    intro t member
    rcases mem_columns_join.1 (offers t member) with ⟨c, inside, rfl⟩ | ⟨c, inside, rfl⟩
    · exact Template.contains_scope.2 ⟨c, inside, rfl⟩
    · have held : extra.scope.contains c.token.id = true :=
        Template.contains_scope.2 ⟨c, inside, rfl⟩
      rw [outside _ member] at held
      exact absurd held Bool.false_ne_true
  have drops := @dropsExtra_lazy_iff definitions extra used (offers.defined defined)
  constructor
  · intro nothing
    rw [body_join, if_pos (drops.2 nothing), AscendingSet.narrow_eq_self onBase]
  · rintro ⟨t, member, some⟩ b
    have keepsExtra : ¬ extra.dropsExtra .lazy used := fun dropped =>
      some (drops.1 dropped t member)
    have keepsBase : ¬ base.dropsBase .lazy withNull observed used := by
      rintro ⟨-, -, -, empty⟩
      rw [AscendingSet.narrow_eq_self onBase] at empty
      rw [List.isEmpty_iff.1 empty] at member
      exact absurd member List.not_mem_nil
    rw [run_body_of_joins b ⟨keepsExtra, keepsBase⟩]
    simp [Body.join, Body.addJoin]

end

def petConstant : Token := ⟨⟨2⟩, Fragment.verbatim "1"⟩

/-- A column on top of some expression. -/
def above (under : Fragment) : Token := ⟨⟨3⟩, under ++ Fragment.verbatim " + 1"⟩

def constantPets : View :=
  .project pets (.ofTokens [("owner", petOwner), ("one", petConstant)])

def ownersOver (under : Fragment) : View :=
  .project owners (.ofTokens [("id", ownerId), ("above", above under)])

def lazilyOver (under : Fragment) : View :=
  .join (ownersOver under) constantPets .lazy true ownedBy

/-- Only a column of the owners is used, and the pets are asked for their constant and joined. -/
theorem asked_of_shared_constant :
    (ownersOver petConstant.toFragment).joined constantPets .lazy true ownedBy =
        .ok (lazilyOver petConstant.toFragment) ∧
      (∀ t ∈ (AscendingSet.ofList [above petConstant.toFragment]).toList,
        (ownersOver petConstant.toFragment).scope.contains t.id = true ∧
          constantPets.scope.contains t.id = false) ∧
      ¬ constantPets.AsksExactly (.ofList [above petConstant.toFragment]) ∧
      (((lazilyOver petConstant.toFragment).body (.ofList [above petConstant.toFragment])
        true).run { settings := {}, supply := ⟨4, 2, 0⟩ }).1.joins.length = 1 := by
  refine ⟨rfl, ?_, ?_, ?_⟩
  · decide
  · intro exactly
    exact absurd (congrArg List.length exactly) (by decide)
  · decide

def constantDefinitions (under : Fragment) (id : TokenId) : Fragment :=
  match id.index with
  | 0 => ownerId.definition
  | 1 => petOwner.definition
  | 2 => petConstant.definition
  | _ => (above under).definition

theorem columns_lazilyOver {under : Fragment} {t : Token} :
    (∃ c ∈ (lazilyOver under).template.columns, c.token = t) ↔
      t ∈ [ownerId, above under, petOwner, petConstant] := by
  rw [lazilyOver, mem_columns_join]
  simp [ownersOver, constantPets, template, or_assoc, eq_comm]

theorem defined_lazilyOver {under : Fragment}
    (ofUnder : under.AllTokens fun u => u.definition = constantDefinitions under u.id) :
    (lazilyOver under).template.AllTokens fun u =>
      u.definition = constantDefinitions under u.id := by
  intro c inside
  have listed := columns_lazilyOver.1 ⟨c, inside, rfl⟩
  generalize c.token = t at listed
  simp only [List.mem_cons, List.not_mem_nil, or_false] at listed
  rcases listed with rfl | rfl | rfl | rfl
  · exact ⟨rfl, trivial, trivial⟩
  · exact ⟨rfl, (Fragment.allTokens_append _ _).2 ⟨ofUnder, trivial, trivial⟩⟩
  · exact ⟨rfl, trivial, trivial⟩
  · exact ⟨rfl, trivial, trivial⟩

theorem offers_lazilyOver (under : Fragment) :
    (lazilyOver under).Offers (.ofList [above under]) := by
  intro t member
  obtain rfl := List.mem_singleton.1 (AscendingSet.mem_ofList member)
  exact columns_lazilyOver.2 (.tail _ (.head _))

/-- Over a constant of their own the owners come alone. -/
theorem asked_of_sides_lazilyOver :
    (lazilyOver (Fragment.verbatim "2")).body (.ofList [above (Fragment.verbatim "2")]) true =
        (ownersOver (Fragment.verbatim "2")).body (.ofList [above (Fragment.verbatim "2")]) true ∧
      ¬ (ownersOver petConstant.toFragment).Uncrossed constantPets := by
  have accepted : ∀ under, (ownersOver under).joined constantPets .lazy true ownedBy =
      .ok (lazilyOver under) := fun _ => rfl
  constructor
  · have defined := @defined_lazilyOver (Fragment.verbatim "2") ⟨trivial, trivial⟩
    have lazily := (asked_of_sides (accepted (Fragment.verbatim "2")) defined).2 rfl
      (.ofList [above (Fragment.verbatim "2")]) true (offers_lazilyOver _) (by decide)
    apply lazily.1
    intro t member
    obtain rfl := List.mem_singleton.1 (AscendingSet.mem_ofList member)
    rfl
  · intro uncrossed
    have defined := @defined_lazilyOver petConstant.toFragment ⟨⟨rfl, trivial, trivial⟩, trivial⟩
    have exactly := (asked_of_sides (accepted _) defined).1.2 uncrossed _ (offers_lazilyOver _)
    exact absurd (congrArg List.length exactly.2) (by decide)

end View
end QueryViews
